import Dnp3Bridge.Bridge.Accounts
import Dnp3Bridge.Grpc.UpdatePoints

/-!
# Accepted requests

The service answers every request with success. What it enqueues on the bridge are the analog and the
binary points of the request; the counters are not looked at.
-/

namespace Dnp3Bridge.Grpc
open Bridge Concurrency Proto

inductive PointValue where
  | analog (v : Double)
  | binary (v : Bool)
  | counter (v : UInt32)
  deriving DecidableEq

/-- A point with its type and value, its index and its quality, if that is one of the four. -/
structure Point where
  index : Nat
  value : PointValue
  quality : Option Quality
  deriving DecidableEq

/-- The quality that a client means. -/
def meant : PointQuality → Option Quality
  | .good => some .good
  | .uncertain => some .uncertain
  | .bad => some .bad
  | .restart => some .restart
  | .unrecognized _ => none

/-- The points of a request, list by list. -/
def requested (request : UpdateRequest) : List Point :=
  request.analogs.map (fun a => ⟨a.index.toNat, .analog a.value, meant a.quality⟩) ++
    request.binaries.map (fun b => ⟨b.index.toNat, .binary b.value, meant b.quality⟩) ++
    request.counters.map fun c => ⟨c.index.toNat, .counter c.value, meant c.quality⟩

/-- The point that an update is for. -/
def enqueued : PointUpdate → Point
  | .analog u => ⟨u.index.toNat, .analog u.value, some u.quality⟩
  | .binary u => ⟨u.index.toNat, .binary u.value, some u.quality⟩

/-- If the request is answered with success, then a caller that has gone through it has pushed its
points, in order and nothing else, whatever the other threads did meanwhile. -/
def AcceptedIsDelivered (request : UpdateRequest) : Prop :=
  (updatePoints request).2.success = true →
    ∀ as c n, Run System.step Always System.init as c →
      c.shared.hist.requests n = (updatePoints request).1 → c.callerPc n = .done →
      (c.pushedBy n).map enqueued = requested request

/-- A step of a caller is one of the system. -/
lemma step_caller {c : System} {i n p s' p'} (pc : c.pc (.caller n) = .caller p)
    (mv : applyUpdate i n c.shared p = some (s', p')) :
    c.step (.caller n, i) = some ⟨s', Function.update c.pc (.caller n) (.caller p')⟩ := by
  rw [System.step, Conf.step, pc, next, mv]
  rfl

/-- A caller that nobody disturbs pushes its next update. -/
lemma pushNext_run {c : System} {n u us} (pc : c.pc (.caller n) = .caller (.lock u us))
    (free : c.shared.mutex = none) (alone : c.shared.waiters = []) :
    ∃ as c', Run System.step Always c as c' ∧ c'.pc (.caller n) = .caller (.next us) ∧
      c'.shared.mutex = none ∧ c'.shared.waiters = [] ∧
      c'.shared.hist.requests = c.shared.hist.requests := by
  have lock : applyUpdate .go n c.shared (.lock u us) =
      some ({ c.shared with mutex := some (.caller n) }, .push u us) := if_pos free
  have woken : notifyOne .go c.shared.waiters = some [] := by rw [alone, notifyOne]
  -- the four steps of one call of applyUpdate
  have run : Run System.step Always c _ _ :=
    .cons trivial (step_caller pc lock) <|
    .cons trivial (step_caller (i := .go) (Function.update_self ..) rfl) <|
    .cons trivial (step_caller (i := .go) (Function.update_self ..) rfl) <|
    .cons trivial (step_caller (Function.update_self ..) (congrArg (Option.map _) woken)) .nil
  exact ⟨_, _, run, Function.update_self .., rfl, rfl, rfl⟩

/-- It goes on until it has pushed all of them. -/
lemma pushAll_run (us : List PointUpdate) {c : System} {n}
    (pc : c.pc (.caller n) = .caller (.next us)) (free : c.shared.mutex = none)
    (alone : c.shared.waiters = []) : ∃ as c', Run System.step Always c as c' ∧
      c'.pc (.caller n) = .caller .done ∧
      c'.shared.hist.requests = c.shared.hist.requests := by
  induction us generalizing c with
  | nil => exact ⟨[], c, .nil, pc, rfl⟩
  | cons u us ih =>
    obtain ⟨as, c1, run, pc, free, alone, requests⟩ := pushNext_run pc free alone
    obtain ⟨bs, c2, run', done, requests'⟩ := ih pc free alone
    exact ⟨as ++ bs, c2, run.append run', done, requests'.trans requests⟩

/-- A caller that has not been called yet can be called with any updates. -/
lemma call_step (us : List PointUpdate) (c : System) (n) (pc : c.pc (.caller n) = .caller .idle) :
    ∃ c', c.step (.caller n, .apply us) = some c' ∧ c'.pc (.caller n) = .caller (.next us) ∧
      c'.shared.mutex = c.shared.mutex ∧ c'.shared.waiters = c.shared.waiters ∧
      c'.shared.hist.requests n = us :=
  ⟨_, step_caller pc rfl, Function.update_self .., rfl, rfl, Function.update_self ..⟩

/-- There is a run in which it pushes all of them. -/
lemma exists_run (us : List PointUpdate) : ∃ as c, Run System.step Always System.init as c ∧
    c.shared.hist.requests 0 = us ∧ c.callerPc 0 = .done := by
  obtain ⟨c1, call, pc, free, alone, announced⟩ := call_step us System.init 0 rfl
  obtain ⟨as, c, run, done, requests⟩ := pushAll_run us pc free alone
  refine ⟨_, c, .cons trivial call run, ?_, ?_⟩
  · rw [requests, announced]
  · rw [System.callerPc, done]

/-- `toQuality` gives a quality that the protocol names its meaning. -/
lemma meant_eq {q : PointQuality} (named : meant q ≠ none) : some (toQuality q) = meant q := by
  cases q with
  | unrecognized n => exact absurd rfl named
  | _ => rfl

/-- An analog point that fits is put into the queue as it was sent. -/
lemma analogUpdate_eq {a : AnalogPoint} (fits : a.index.toNat ≤ 65535)
    (named : meant a.quality ≠ none) :
    enqueued (analogUpdate a) = ⟨a.index.toNat, .analog a.value, meant a.quality⟩ := by
  rw [analogUpdate, enqueued, (toNat_toUInt16 _).mpr fits, meant_eq named]

/-- A binary point that fits is put into the queue as it was sent. -/
lemma binaryUpdate_eq {b : BinaryPoint} (fits : b.index.toNat ≤ 65535)
    (named : meant b.quality ≠ none) :
    enqueued (binaryUpdate b) = ⟨b.index.toNat, .binary b.value, meant b.quality⟩ := by
  rw [binaryUpdate, enqueued, (toNat_toUInt16 _).mpr fits, meant_eq named]

/-- What is enqueued are the points of the request exactly if it has no counters, and every quality is
one of the four. -/
lemma enqueued_iff {request : UpdateRequest}
    (fits : ∀ p ∈ requested request, p.index ≤ 65535) :
    (updatePoints request).1.map enqueued = requested request ↔
      request.counters = [] ∧ ∀ p ∈ requested request, p.quality ≠ none := by
  constructor
  · intro e
    refine ⟨?_, fun p mem => ?_⟩
    · have length := congrArg List.length e
      simp only [updatePoints, requested, List.length_append, List.length_map] at length
      exact List.length_eq_zero_iff.mp (by omega)
    · rw [← e] at mem
      obtain ⟨u, -, rfl⟩ := List.mem_map.mp mem
      cases u <;> exact Option.some_ne_none _
  · intro h
    obtain ⟨noCounters, named⟩ := h
    rw [requested, noCounters, List.map_nil, List.append_nil] at fits named ⊢
    rw [updatePoints, List.map_append, List.map_map, List.map_map]
    refine congrArg₂ _ (List.map_inj_left.mpr fun a ha => ?_) (List.map_inj_left.mpr fun b hb => ?_)
    · have fit := fits _ (List.mem_append_left _ (List.mem_map_of_mem ha))
      have name := named _ (List.mem_append_left _ (List.mem_map_of_mem ha))
      exact analogUpdate_eq fit name
    · have fit := fits _ (List.mem_append_right _ (List.mem_map_of_mem hb))
      have name := named _ (List.mem_append_right _ (List.mem_map_of_mem hb))
      exact binaryUpdate_eq fit name

/-- An accepted request is a delivered request exactly if it has no counters, and every quality is one
of the four. -/
theorem acceptedIsDelivered_iff {request : UpdateRequest}
    (fits : ∀ p ∈ requested request, p.index ≤ 65535) :
    AcceptedIsDelivered request ↔
      request.counters = [] ∧ ∀ p ∈ requested request, p.quality ≠ none := by
  rw [← enqueued_iff fits]
  constructor
  · intro delivered
    obtain ⟨as, c, run, requests, done⟩ := exists_run (updatePoints request).1
    have points := delivered rfl as c 0 run requests done
    rwa [(System.accounts run).done done, requests] at points
  · intro points _ as c n run requests done
    rw [(System.accounts run).done done, requests, points]

/-- A request for two analog points and a binary one. -/
def feederReadings : UpdateRequest where
  analogs := [⟨3, .finite 1, .good⟩, ⟨65535, .finite 2, .bad⟩]
  binaries := [⟨3, true, .restart⟩]
  counters := []

/-- The readings of a feeder fit, and are delivered. -/
theorem feederReadings_delivered : AcceptedIsDelivered feederReadings :=
  (acceptedIsDelivered_iff (by decide)).mpr ⟨rfl, by decide⟩

/-- A request for a counter. -/
def energyCounter : UpdateRequest where
  analogs := []
  binaries := []
  counters := [⟨7, 1500, .good⟩]

/-- It is answered with success, and its caller is done without having pushed anything. -/
theorem energyCounter_dropped : (updatePoints energyCounter).2.success = true ∧
    requested energyCounter = [⟨7, .counter 1500, some .good⟩] ∧
    (updatePoints energyCounter).1 = [] ∧ ¬ AcceptedIsDelivered energyCounter := by
  refine ⟨rfl, rfl, rfl, fun delivered => ?_⟩
  obtain ⟨as, c, run, requests, done⟩ := exists_run (updatePoints energyCounter).1
  have points := delivered rfl as c 0 run requests done
  rw [(System.accounts run).done done, requests] at points
  exact absurd points (by decide)

end Dnp3Bridge.Grpc
