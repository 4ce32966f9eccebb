import Dnp3Bridge.Outstation.Deadband
import Dnp3Bridge.Reporting.Traffic

/-!
# The event traffic of an analog point

How many events an analog point can generate: the values have to travel for them. A value that is not
finite is an event by itself, and so is the next one.
-/

namespace Dnp3Bridge.Outstation
open Bridge Config Reporting

/-- The number that a double is, if it is one. -/
def number : Double → Option ℚ
  | .finite x => some x
  | _ => none

/-- The values of an analog point in a list of updates. -/
def readings (i : UInt16) (us : List PointUpdate) : List Double :=
  (us.filterMap (PointUpdate.analogAt i)).map AnalogUpdate.value

/-- Two values are apart if they are not within the deadband. -/
lemma far_iff_apart (d : ℚ) (x v : Double) : Far (.finite d) x v ↔ Apart number d x v := by
  cases x with
  | finite a =>
    cases v with
    | finite b =>
      refine far_finite.trans ⟨?_, fun apart => apart a b rfl rfl⟩
      intro far _ _ ha hb
      cases ha
      cases hb
      exact far
    | _ => exact ⟨fun _ _ _ _ hb => (by cases hb), fun _ => rfl⟩
  | _ =>
    refine ⟨fun _ _ _ ha _ => (by cases ha), fun _ => ?_⟩
    cases v <;> rfl

/-- The decisions about further updates go on from the value reported last. -/
lemma View.foldl_decisions {T} (R : T → T → Prop) [DecidableRel R] (us : List (T × UInt8))
    (p : View T) : (us.foldl (fun p u => p.update R u.1 u.2) p).decisions =
      p.decisions ++ scan R p.state.reference (us.map Prod.fst) := by
  induction us generalizing p with
  | nil => exact (List.append_nil _).symm
  | cons u us ih =>
    have next : (p.update R u.1 u.2).state.reference = report R p.state.reference u.1 :=
      PointState.next_reference R p.state u.1
    rw [List.foldl_cons, ih, View.update_decisions, next, List.append_assoc]
    rfl

namespace OutstationManager

/-- The events that updates add to those of an analog point. -/
lemma forced_visitAll {m : OutstationManager} (on : m.outstation ≠ none) (us : List PointUpdate)
    (i : UInt16) : forced ((m.visitAll us).analogView i).log =
      forced (m.analogView i).log ++
        reported (scan (Far (m.deadband i)) (m.analogState i).reference (readings i us)) := by
  have decided := View.foldl_decisions (Far (m.deadband i))
    ((us.filterMap (PointUpdate.analogAt i)).map fun a => (a.value, toFlagBits a.quality))
    (m.analogView i)
  rw [← visitAll_analogView on, List.map_map] at decided
  have events := congrArg reported decided
  rw [reported_append] at events
  refine (reported_decisions _ _).symm.trans (events.trans ?_)
  exact congrArg (· ++ _) (reported_decisions _ _)

end OutstationManager

/-- After `start`, whatever updates there have been, the events that further updates generate for an
analog point with a deadband are paid for by the way that its values travel: each costs the deadband,
and beyond the way there is one deadband for what has been before, and two for each value that is not
finite. -/
theorem event_traffic (m : OutstationManager) {i d}
    (deadband : effectiveDeadband m.fresh m.cfg i = .finite d) (nonneg : 0 ≤ d)
    (before us : List PointUpdate) :
    ∃ es, forced ((m.start.visitAll (before ++ us)).analogView i).log =
        forced ((m.start.visitAll before).analogView i).log ++ es ∧
      d * es.length ≤ travel number (readings i us) +
        d * (1 + 2 * strays number (readings i us) : ℕ) := by
  have on := OutstationManager.visitAll_outstation m.start_outstation before
  have events := OutstationManager.forced_visitAll on us i
  rw [OutstationManager.visitAll_deadband, m.start_deadband, deadband] at events
  rw [OutstationManager.visitAll_append]
  exact ⟨_, events, reported_length_le nonneg (far_iff_apart d) _ _⟩

/-- The drift of point 3 is a way of 4, with one value that is not a number: it can generate four events
at most, and does so. -/
theorem drift_traffic :
    ∃ es, forced (((OutstationManager.create .documented narrowBand).start.visitAll
          ([] ++ drift)).analogView 3).log =
        forced (((OutstationManager.create .documented narrowBand).start.visitAll
          []).analogView 3).log ++ es ∧
      (5 / 2 : ℚ) * es.length ≤ travel number (readings 3 drift) +
        5 / 2 * (1 + 2 * strays number (readings 3 drift) : ℕ) ∧
      travel number (readings 3 drift) = 4 ∧ strays number (readings 3 drift) = 1 := by
  obtain ⟨es, new, le⟩ :=
    event_traffic (.create .documented narrowBand) (narrowBand_deadband .documented) (by norm_num) []
      drift
  exact ⟨es, new, le, by decide +kernel, by decide +kernel⟩

end Dnp3Bridge.Outstation
