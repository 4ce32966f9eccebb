import Dnp3Bridge.Bridge.Queue
import Dnp3Bridge.Outstation.Points

/-!
# The event stream of a binary point

The bridge and the outstation together: whatever the callers and the flush threads do, the events of a
binary point are the changes among the values pushed for it.
-/

namespace Dnp3Bridge.Outstation
open Bridge Concurrency Reporting

/-- The updates pushed so far, in the order in which `applyUpdate` took the mutex. -/
def pushedUpdates (c : System) : List PointUpdate :=
  c.shared.hist.pushed.map Entry.update

/-- A started outstation after everything that the bridge has handed over to it. -/
def outstationOf (m : OutstationManager) (c : System) : OutstationManager :=
  m.start.visitAll (c.shared.hist.handed.map Entry.update)

/-- What has been applied to a binary point that has been updated with `us`: every update, in order and
with the flags of its quality; an event for the first one and for every change of the value; and no
other event. -/
structure ChangeHistory (us : List BinaryUpdate) (log : List (Applied Bool)) : Prop where
  applied : log.map (fun a => (a.value, a.flags)) = us.map fun b => (b.value, toFlagBits b.quality)
  events : forced log = (us.map BinaryUpdate.value).destutter (· ≠ ·)
  first : ∀ {p ps}, log = p :: ps → p.mode = .force
  change : ∀ {ps p q qs}, log = ps ++ p :: q :: qs →
    q.mode = if p.value = q.value then .suppress else .force
  current : ∀ {b}, us.getLast? = some b →
    ∃ p, log.getLast? = some p ∧ p.value = b.value ∧ p.flags = toFlagBits b.quality

namespace OutstationManager

/-- After `start`, a binary point reports every change. -/
theorem decisions_binary (m : OutstationManager) (us : List PointUpdate) (i : UInt16) :
    ((m.start.visitAll us).binaryView i).decisions =
      scan (· ≠ ·) none ((us.filterMap (PointUpdate.binaryAt i)).map BinaryUpdate.value) := by
  rw [visitAll_binaryView m.start_outstation]
  have decided := (View.foldl_update (· ≠ ·) false
    ((us.filterMap (PointUpdate.binaryAt i)).map fun b => (b.value, toFlagBits b.quality))).1
  rw [List.map_map] at decided
  exact decided

/-- After `start`, every update of a binary point is applied, with the flags of its quality. -/
lemma applied_binary (m : OutstationManager) (us : List PointUpdate) (i : UInt16) :
    ((m.start.visitAll us).binaryView i).log.map (fun a => (a.value, a.flags)) =
      (us.filterMap (PointUpdate.binaryAt i)).map fun b => (b.value, toFlagBits b.quality) := by
  rw [visitAll_binaryView m.start_outstation, View.foldl_applied]
  rfl

end OutstationManager

/-- The log of a point that reports every change is its change history. -/
lemma changeHistory_of_scan {us : List BinaryUpdate} {p : View Bool}
    (applied : p.log.map (fun a => (a.value, a.flags)) =
      us.map fun b => (b.value, toFlagBits b.quality))
    (decided : p.decisions = scan (· ≠ ·) none (us.map BinaryUpdate.value)) :
    ChangeHistory us p.log := by
  refine ⟨applied, ?_, ?_, ?_, ?_⟩
  · rw [← reported_scan, ← decided]
    exact (reported_decisions p.log p.state).symm
  · intro a as e
    rw [View.decisions, e, List.map_cons] at decided
    exact of_decide_eq_true (reports_first _ decided.symm)
  · intro ps a b qs e
    rw [View.decisions, e, List.map_append, List.map_cons, List.map_cons] at decided
    have change := reports_change decided.symm
    by_cases same : a.value = b.value
    · rw [if_pos same]
      cases mode : b.mode with
      | suppress => rfl
      | force => simp [mode, same] at change
    · rw [if_neg same]
      simpa [same] using change
  · intro b last
    have both := congrArg List.getLast? applied
    rw [List.getLast?_map, List.getLast?_map, last] at both
    obtain ⟨a, found, e⟩ := Option.map_eq_some_iff.mp both
    exact ⟨a, found, congrArg Prod.fst e, congrArg Prod.snd e⟩

/-- The updates of a point are those of its own updates. -/
lemma own_updates (us : List PointUpdate) (i : UInt16) :
    ((us.filterMap (PointUpdate.binaryAt i)).map PointUpdate.binary).filterMap
      (PointUpdate.binaryAt i) = us.filterMap (PointUpdate.binaryAt i) := by
  rw [List.filterMap_map, List.filterMap_filterMap]
  refine List.filterMap_congr fun u _ => ?_
  cases u with
  | analog u => rfl
  | binary u =>
    rw [PointUpdate.binaryAt]
    split
    case isTrue eq => simp [PointUpdate.binaryAt, eq]
    case isFalse => rfl

/-- Once everything has been handed over, the history of every binary point is the history of what has
been pushed for it, and nothing else has an effect on the point. -/
theorem eventStream_eq {as c} (run : Run System.step Always System.init as c)
    (drained : c.batch = [] ∧ c.shared.queue = []) (m : OutstationManager) (i : UInt16) :
    ChangeHistory ((pushedUpdates c).filterMap (PointUpdate.binaryAt i))
        ((outstationOf m c).binaryView i).log ∧
      (outstationOf m c).binaryView i = (m.start.visitAll
        (((pushedUpdates c).filterMap (PointUpdate.binaryAt i)).map .binary)).binaryView i := by
  have order := (System.flow run).order
  rw [drained.1, drained.2, List.append_nil, List.append_nil] at order
  rw [outstationOf, order, ← pushedUpdates]
  constructor
  · exact changeHistory_of_scan (m.applied_binary _ i) (m.decisions_binary _ i)
  · rw [OutstationManager.visitAll_binaryView m.start_outstation,
      OutstationManager.visitAll_binaryView m.start_outstation, own_updates]

/-- One caller closes binary point 3, reports it with a bad quality, and opens it; another one updates
analog point 3 in between. The flush thread takes three batches. -/
def contactOpens : List (Thread × Choice) :=
  startBridge ++ park 0 ++
    [(.caller 0, .apply [contact, .binary ⟨3, true, .bad⟩, .binary ⟨3, false, .good⟩]),
      (.caller 1, .apply [reading])] ++
    pushNext 0 0 ++ takeBatch 0 ++ pushNext 1 0 ++ pushNext 0 0 ++ steps (.flush 0) 7 ++
    pushNext 0 0 ++ steps (.flush 0) 11

/-- The change of the quality alone is no event. -/
theorem contactOpens_events :
    ∃ c, Run System.step Always System.init contactOpens c ∧
      ((outstationOf (.create .documented {}) c).binaryView 3).log =
        [⟨true, 1, .force⟩, ⟨true, 0, .suppress⟩, ⟨false, 1, .force⟩] ∧
      ChangeHistory ((pushedUpdates c).filterMap (PointUpdate.binaryAt 3))
        ((outstationOf (.create .documented {}) c).binaryView 3).log := by
  refine ⟨_, Run.of_exec rfl, rfl, ?_⟩
  exact (@eventStream_eq contactOpens _ (Run.of_exec rfl) ⟨rfl, rfl⟩ (.create .documented {}) 3).1

end Dnp3Bridge.Outstation
