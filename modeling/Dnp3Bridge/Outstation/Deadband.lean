import Dnp3Bridge.Outstation.Points

/-!
# The deadband guarantee

What the deadband of an analog point means over a whole run: how far apart events are, and how far the
current value can be from the last event.
-/

namespace Dnp3Bridge.Outstation
open Bridge Config Reporting

/-- The built-in points have the deadband of a new point. -/
lemma configureDefaultDatabase_deadband {fresh : FreshPoints} {i pt}
    (found : (configureDefaultDatabase fresh).analogInput i = some pt) :
    pt.deadband = fresh.analogInput.deadband := by
  refine forRange_modify_invariant
    (P := fun pt : AnalogInputConfig => pt.deadband = fresh.analogInput.deadband) ?_ rfl ?_ i pt found
  · exact fun _ _ e => nomatch e
  · exact fun _ old => old

/-- With finite deadbands in the configuration every effective deadband is finite. -/
lemma effectiveDeadband_finite {fresh : FreshPoints} {cfg : AppConfig} (plain : fresh.FiniteDeadband)
    (finite : FiniteDeadbands cfg) (i : UInt16) : ∃ d, effectiveDeadband fresh cfg i = .finite d := by
  have of_point : ∀ {db : DatabaseConfig}, database fresh cfg = db →
      (∀ pt, db.analogInput i = some pt → pt.deadband.isFinite = true) →
      ∃ d, effectiveDeadband fresh cfg i = .finite d := by
    intro db built number
    rw [effectiveDeadband, built]
    cases found : db.analogInput i with
    | none => exact ⟨0, rfl⟩
    | some pt =>
      obtain ⟨d, hd⟩ := Double.eq_finite (number pt found)
      exact ⟨d, hd⟩
  cases empty : cfg.pointDatabase.empty with
  | true =>
    refine of_point (if_pos empty) fun pt found => ?_
    rw [configureDefaultDatabase_deadband found]
    exact plain
  | false =>
    have configured : ¬ cfg.pointDatabase.empty = true := by
      simp only [empty, Bool.false_eq_true, not_false_iff]
    refine of_point (if_neg configured) fun pt found => ?_
    refine @configureSection_invariant _ fresh.analogInput _ (fun pt => pt.deadband.isFinite = true) _
      plain ?_ i pt found
    intro pc mem pt old
    show (pc.deadband.getD pt.deadband).isFinite = true
    cases e : pc.deadband with
    | none => exact old
    | some d => exact finite pc mem d e

/-- What SCADA can rely on for an analog point with deadband `d`, given everything applied to the point
since `start`. -/
structure DeadbandGuarantee (d : ℚ) (log : List (Applied Double)) : Prop where
  first : ∀ {p ps}, log = p :: ps → p.mode = .force
  apart : (forced log).IsChain fun v w => ∀ x y, v = .finite x → w = .finite y → d < |y - x|
  near : ∀ {ps p qs}, log = ps ++ p :: qs → p.mode = .suppress →
    ∃ x y, p.value = .finite x ∧ (forced ps).getLast? = some (.finite y) ∧ |x - y| ≤ d
  current : ∀ {p}, log.getLast? = some p → (forced log).getLast? = some p.value ∨
    ∃ x y, p.value = .finite x ∧ (forced log).getLast? = some (.finite y) ∧ |x - y| ≤ d

/-- What has been applied to an analog point that has been updated with `us`: every update, in order and
with the flags of its quality, and the events keep the guarantee of the deadband `d`. -/
structure AnalogService (us : List AnalogUpdate) (d : ℚ) (log : List (Applied Double)) : Prop where
  applied : log.map (fun a => (a.value, a.flags)) = us.map fun a => (a.value, toFlagBits a.quality)
  events : DeadbandGuarantee d log

/-- The log of a point that reports on change keeps the guarantee. -/
lemma deadbandGuarantee_of_scan {d : ℚ} {p : View Double} {vs}
    (decided : p.decisions = scan (Far (.finite d)) none vs) : DeadbandGuarantee d p.log := by
  have reported_eq := reported_decisions p.log p.state
  have near : ∀ {ps a qs}, p.log = ps ++ a :: qs → a.mode = .suppress →
      ∃ x y, a.value = .finite x ∧ (forced ps).getLast? = some (.finite y) ∧ |x - y| ≤ d := by
    intro ps a qs e suppressed
    rw [View.decisions, e, List.map_append, List.map_cons, suppressed] at decided
    obtain ⟨ref, last, close⟩ := kept_back _ decided.symm
    rw [← View.decisions.eq_def ⟨ps, p.state⟩, reported_decisions] at last
    obtain ⟨x, y, hx, rfl, le⟩ := not_far close
    exact ⟨x, y, hx, last, le⟩
  refine ⟨?_, ?_, near, ?_⟩
  · intro a as e
    rw [View.decisions, e, List.map_cons] at decided
    exact of_decide_eq_true (reports_first _ decided.symm)
  · have chain := isChain_reported (Far (.finite d)) vs
    rw [← decided, reported_eq] at chain
    refine chain.imp fun v w far x y hv hw => ?_
    subst hv hw
    exact far_finite.mp far
  · intro a last
    obtain ⟨ps, e⟩ := List.getLast?_eq_some_iff.mp last
    cases mode : a.mode with
    | force => exact .inl (by simp [forced, e, mode])
    | suppress =>
      obtain ⟨x, y, hx, hy, le⟩ := near e mode
      refine .inr ⟨x, y, hx, ?_, le⟩
      rw [← hy, e]
      simp [forced, mode]

/-- After `start`, an analog point is given all of its updates, and keeps the guarantee of its effective
deadband. -/
lemma OutstationManager.analogService (m : OutstationManager) {i d}
    (deadband : effectiveDeadband m.fresh m.cfg i = .finite d) (us : List PointUpdate) :
    AnalogService (us.filterMap (PointUpdate.analogAt i)) d
      ((m.start.visitAll us).analogView i).log :=
  ⟨m.applied_analog us i, deadbandGuarantee_of_scan (deadband ▸ m.decisions_analog us i)⟩

/-- After `start`, whatever the updates, every analog point is given all of its own updates, and keeps
the guarantee of its effective deadband; which of them generate events depends on their values alone. -/
theorem deadband_guarantee (m : OutstationManager) (plain : m.fresh.FiniteDeadband)
    (finite : FiniteDeadbands m.cfg) (us : List PointUpdate) (i : UInt16) :
    ∃ d, effectiveDeadband m.fresh m.cfg i = .finite d ∧
      AnalogService (us.filterMap (PointUpdate.analogAt i)) d
        ((m.start.visitAll us).analogView i).log ∧
      ∀ us', (us'.filterMap (PointUpdate.analogAt i)).map AnalogUpdate.value =
          (us.filterMap (PointUpdate.analogAt i)).map AnalogUpdate.value →
        ((m.start.visitAll us').analogView i).log.map Applied.mode =
          ((m.start.visitAll us).analogView i).log.map Applied.mode := by
  obtain ⟨d, hd⟩ := effectiveDeadband_finite plain finite i
  refine ⟨d, hd, m.analogService hd us, ?_⟩
  intro us' same
  have decided := m.decisions_analog
  rw [← View.modes_eq, ← View.modes_eq, decided us i, decided us' i, same]

/-- Analog point 3 has a deadband of 5/2. -/
def narrowBand : AppConfig where
  pointDatabase := { analogInput := [{ start := 3, stop := 3, deadband := some (.finite (5 / 2)) }] }

/-- Point 3 drifts away in small steps, then its value is not a number for a while. -/
def drift : List PointUpdate :=
  [.analog ⟨3, .finite 10, .good⟩, .analog ⟨3, .finite 12, .bad⟩, .binary ⟨3, true, .good⟩,
    .analog ⟨3, .finite 14, .good⟩, .analog ⟨3, .nan, .bad⟩, .analog ⟨3, .finite 14, .good⟩]

/-- The effective deadband of point 3. -/
lemma narrowBand_deadband (fresh : FreshPoints) :
    effectiveDeadband fresh narrowBand 3 = .finite (5 / 2) := by
  simp [effectiveDeadband, database, narrowBand, PointDatabaseConfig.empty,
    configureDatabaseFromConfig, configureDatabaseWith, configureSection, PointMap.modify, setAnalog]

/-- All updates of point 3 are applied, and the third, the value that is not a number and the one after
it are events, as is the first. -/
theorem drift_guaranteed :
    AnalogService (drift.filterMap (PointUpdate.analogAt 3)) (5 / 2)
        (((OutstationManager.create .documented narrowBand).start.visitAll drift).analogView 3).log ∧
      (((OutstationManager.create .documented narrowBand).start.visitAll drift).analogView 3).log.map
        Applied.mode = [.force, .suppress, .force, .force, .force] := by
  have finite : FiniteDeadbands narrowBand := by
    intro pc mem d e
    cases List.mem_singleton.mp mem
    cases e
    rfl
  obtain ⟨d, hd, kept, -⟩ := deadband_guarantee (.create .documented narrowBand)
    FreshPoints.documented_noDeadband.finite finite drift 3
  cases hd.symm.trans (narrowBand_deadband .documented)
  refine ⟨kept, ?_⟩
  rw [← View.modes_eq, OutstationManager.decisions_analog]
  show List.map _ (scan (Far (effectiveDeadband .documented narrowBand 3)) _ _) = _
  rw [narrowBand_deadband]
  decide +kernel

end Dnp3Bridge.Outstation
