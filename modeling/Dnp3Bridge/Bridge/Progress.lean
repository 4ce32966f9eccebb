import Dnp3Bridge.Bridge.Accounts
import Dnp3Bridge.Bridge.Wakeup
import Dnp3Bridge.Concurrency.Ranking

/-!
# Progress of the bridge

Between the calls the threads of the bridge do a bounded amount of work: 18 steps for every update, 12
for every `start` or `stop`, 6 for every spurious wake-up pay for all of them. When none of them can go
on, every call has returned, and either everything pushed has been handed over and the flush thread is
parked, or the flush threads have ended.
-/

namespace Dnp3Bridge.Bridge
open Concurrency

/-- What a decision of the environment pays for. -/
def Choice.credit : Choice → ℕ
  | .apply us => 18 * us.length + 1
  | .start | .stop => 12
  | .spurious => 6
  | .go | .notified _ => 0

/-- The choice neither is a call nor wakes a flush thread spuriously. -/
def Choice.Own (i : Choice) : Prop :=
  i = .go ∨ ∃ n, i = .notified n

/-- The steps that the threads make of their own. -/
def Own : System → Thread × Choice → Prop :=
  fun _ a => a.2.Own

/-- What a caller may still cost, the delivery of its updates included. -/
def CallerPc.rank : CallerPc → ℕ
  | .lock _ us => 18 * us.length + 18
  | .push _ us => 18 * us.length + 17
  | .unlock us => 18 * us.length + 8
  | .notify us => 18 * us.length + 7
  | .idle | .done => 0

/-- What a parked flush thread may still cost: it has to go on if it has been woken. -/
def Shared.awake (s : Shared) : ℕ :=
  if s.waiters = [] then 6 else 0

/-- What a flush thread may still cost, until it parks or ends. -/
def FlushPc.rank (s : Shared) : FlushPc → ℕ
  | .unborn => 6
  | .lock | .wake => 5
  | .test => 4
  | .parked => s.awake
  | .check => 3
  | .swap => 1
  | .unlock batch => batch.length + 7
  | .drain batch => batch.length + 6
  | .exit => 2
  | .ending => 1
  | .finished => 0

/-- What a call of `start` or `stop` may still cost, the thread that it creates or wakes included. -/
def ControlPc.rank : ControlPc → ℕ
  | .startLock | .stopLock => 11
  | .startCheck | .stopCheck => 10
  | .startUnlock | .stopUnlock _ => 9
  | .spawn | .notifyAll _ => 8
  | .startFound | .stopFound | .assign _ | .join _ => 1
  | .idle | .stopped _ => 0

/-- What the newest flush thread may still cost. -/
def System.flushRank (c : System) : ℕ :=
  match c.shared.spawned with
  | 0 => 0
  | n + 1 => (c.flushPc n).rank c.shared

/-- What the callers in `S`, the flush thread, the controlling thread and the queue may still cost. -/
def System.rank (S : Finset ℕ) (c : System) : ℕ :=
  (∑ n ∈ S, (c.callerPc n).rank) + c.flushRank + c.controlPc.rank + 8 * c.shared.queue.length

/-- Each update that is left costs a caller 18 steps. -/
lemma CallerPc.rank_next (us : List PointUpdate) : (CallerPc.next us).rank = 18 * us.length := by
  cases us <;> rfl

/-- A parked flush thread costs six steps at most. -/
lemma Shared.awake_le (s : Shared) : s.awake ≤ 6 := by
  unfold awake
  split <;> omega

/-- A step of a caller is one of `applyUpdate`. -/
lemma System.step_caller {c c' : System} {a n} (st : c.step a = some c') (e : a.1 = .caller n) :
    applyUpdate a.2 n c.shared (c.callerPc n) = some (c'.shared, c'.callerPc n) := by
  obtain ⟨s, p, mv, rfl⟩ := Conf.step_inv st
  unfold callerPc
  simp only [e, Function.update_self] at mv ⊢
  generalize c.pc (.caller n) = q at mv ⊢
  cases q with
  | caller q =>
    obtain ⟨q', move, rfl⟩ := exists_of_map_pc mv
    exact move
  | flush | control => cases mv

/-- A step of a flush thread is one of `flushLoop`. -/
lemma System.step_flush {c c' : System} {a n} (st : c.step a = some c') (e : a.1 = .flush n) :
    flushLoop a.2 n c.shared (c.flushPc n) = some (c'.shared, c'.flushPc n) := by
  obtain ⟨s, p, mv, rfl⟩ := Conf.step_inv st
  unfold flushPc
  simp only [e, Function.update_self] at mv ⊢
  generalize c.pc (.flush n) = q at mv ⊢
  cases q with
  | flush q =>
    obtain ⟨q', move, rfl⟩ := exists_of_map_pc mv
    exact move
  | caller | control => cases mv

/-- A step of a caller pays for the update that it pushes and for the thread that it wakes. -/
lemma applyUpdate_pays {i n s p s' p'} (mv : applyUpdate i n s p = some (s', p')) :
    p'.rank + 8 * s'.queue.length + s'.awake + 1 ≤
      p.rank + 8 * s.queue.length + s.awake + i.credit := by
  cases p <;> simp only [applyUpdate] at mv
  case idle =>
    split at mv <;> cases mv
    case h_1 us =>
      rw [CallerPc.rank_next]
      simp only [CallerPc.rank, Choice.credit, Shared.awake]
      omega
  case lock u us =>
    obtain ⟨-, e⟩ := Option.ite_none_right_eq_some.mp mv
    cases e
    simp only [CallerPc.rank, Shared.awake]
    omega
  case push =>
    cases mv
    simp only [CallerPc.rank, Shared.awake, List.length_append, List.length_singleton]
    omega
  case unlock =>
    cases mv
    simp only [CallerPc.rank, Shared.awake]
    omega
  case notify us =>
    obtain ⟨ws, -, e⟩ := Option.map_eq_some_iff.mp mv
    cases e
    have le := Shared.awake_le { s with waiters := ws }
    rw [CallerPc.rank_next]
    simp only [CallerPc.rank]
    omega
  case done => cases mv

/-- A step of a flush thread pays for itself, and a spurious wake-up for the way back. -/
lemma flushLoop_pays {i n s p s' p'} (mv : flushLoop i n s p = some (s', p'))
    (work : p = .swap → s.queue ≠ []) (alone : p = .parked → n ∉ s.waiters → s.waiters = []) :
    p'.rank s' + 8 * s'.queue.length + 1 ≤ p.rank s + 8 * s.queue.length + i.credit := by
  cases p <;> simp only [flushLoop] at mv
  case unborn =>
    obtain ⟨-, e⟩ := Option.ite_none_right_eq_some.mp mv
    cases e
    simp only [FlushPc.rank]
    omega
  case lock =>
    obtain ⟨-, e⟩ := Option.ite_none_right_eq_some.mp mv
    cases e
    simp only [FlushPc.rank]
    omega
  case test =>
    split at mv <;> cases mv
    case isTrue =>
      simp only [FlushPc.rank]
      omega
    case isFalse =>
      simp only [FlushPc.rank, Shared.awake, List.cons_ne_nil, if_false]
      omega
  case parked =>
    split at mv
    case isTrue =>
      split at mv <;> cases mv
      simp only [FlushPc.rank, Choice.credit]
      omega
    case isFalse gone =>
      cases mv
      simp only [FlushPc.rank, Shared.awake, alone rfl gone, if_true]
      omega
  case wake =>
    obtain ⟨-, e⟩ := Option.ite_none_right_eq_some.mp mv
    cases e
    simp only [FlushPc.rank]
    omega
  case check =>
    split at mv <;> cases mv <;> simp only [FlushPc.rank] <;> omega
  case swap =>
    cases mv
    have some := List.length_pos_iff.mpr (work rfl)
    simp only [FlushPc.rank, List.length_nil]
    omega
  case unlock =>
    cases mv
    simp only [FlushPc.rank]
    omega
  case drain batch =>
    cases batch with
    | nil =>
      cases mv
      simp only [FlushPc.rank, List.length_nil]
      omega
    | cons u batch =>
      cases mv
      simp only [FlushPc.rank, List.length_cons]
      omega
  case exit =>
    cases mv
    simp only [FlushPc.rank]
    omega
  case ending =>
    cases mv
    simp only [FlushPc.rank]
    omega
  case finished => cases mv

/-- A step of the controlling thread pays for the thread that it creates or wakes. -/
lemma ControlStep.pays {s i p s' p'} (st : ControlStep s i p s' p') :
    p'.rank + s'.awake + 6 * s'.spawned + 1 ≤ p.rank + s.awake + 6 * s.spawned + i.credit := by
  cases st with
  | start h =>
    obtain rfl | ⟨k, rfl⟩ := h <;> simp only [ControlPc.rank, Choice.credit] <;> omega
  | stop h =>
    obtain rfl | ⟨k, rfl⟩ := h <;> simp only [ControlPc.rank, Choice.credit] <;> omega
  | spawn =>
    simp only [ControlPc.rank, Shared.awake]
    omega
  | @notifyAll _ k =>
    have le := Shared.awake_le { s with waiters := [] }
    simp only [ControlPc.rank]
    omega
  | _ =>
    simp only [ControlPc.rank, Shared.awake]
    omega

/-- A thread that is not the flush thread can only wake that. -/
lemma FlushPc.rank_awake {s s' : Shared} (p : FlushPc) (le : s.awake ≤ s'.awake) :
    p.rank s' + s.awake ≤ p.rank s + s'.awake := by
  cases p with
  | parked => exact (Nat.add_comm ..).le
  | _ => exact Nat.add_le_add_left le _

/-- Neither a caller nor the controlling thread parks anybody. -/
lemma Shared.awake_mono {s s' : Shared} (only : ∀ m ∈ s'.waiters, m ∈ s.waiters) :
    s.awake ≤ s'.awake := by
  unfold awake
  split
  case isTrue none =>
    rw [if_pos]
    refine List.eq_nil_iff_forall_not_mem.mpr fun m mem => ?_
    have := only m mem
    rw [none] at this
    cases this
  case isFalse => exact Nat.zero_le _

/-- After a step of a caller a parked flush thread may still cost as much as before. -/
lemma CallerStep.awake {n s p s' p'} (st : CallerStep n s p s' p') : s.awake ≤ s'.awake := by
  cases st with
  | notify only => exact Shared.awake_mono only
  | _ => exact le_rfl

/-- After a step of the controlling thread a parked flush thread may still cost as much as before. -/
lemma ControlStep.awake {s i p s' p'} (st : ControlStep s i p s' p') : s.awake ≤ s'.awake := by
  cases st with
  | notifyAll => exact s.awake_le
  | _ => exact le_rfl

/-- What the flush thread knows when it goes on with the mutex in its hands. -/
structure System.Pressed (c : System) : Prop where
  check : ∀ n, c.flushPc n = .check → c.shared.HasWork
  swap : ∀ n, c.flushPc n = .swap → c.shared.queue ≠ []

/-- A caller takes nothing from the queue. -/
lemma CallerStep.queue_ne_nil {n s p s' p'} (st : CallerStep n s p s' p') (ne : s.queue ≠ []) :
    s'.queue ≠ [] := by
  obtain ⟨es, queue, -⟩ := st.flow
  rw [queue]
  exact List.append_ne_nil_of_left_ne_nil ne es

/-- The queue of a thread that goes on to swap it is not empty. -/
lemma flushLoop_check {i n s s' p'} (mv : flushLoop i n s .check = some (s', p'))
    (work : s.HasWork) : s' = s ∧ (p' = .exit ∨ (p' = .swap ∧ s.queue ≠ [])) := by
  simp only [flushLoop] at mv
  split at mv <;> cases mv
  case isTrue => exact ⟨rfl, .inl rfl⟩
  case isFalse busy =>
    refine ⟨rfl, .inr ⟨rfl, fun empty => ?_⟩⟩
    have stop := work.resolve_left (not_not.mpr empty)
    exact busy ⟨stop, empty⟩

/-- A step to `check` or `swap` finds something to do. -/
lemma flushLoop_pressed {i n s p s' p'} (mv : flushLoop i n s p = some (s', p'))
    (work : p = .check → s.HasWork) :
    (p' = .check → s'.HasWork) ∧ (p' = .swap → s'.queue ≠ []) := by
  have st := flushLoop_inv mv
  cases st with
  | leaveWait found => exact ⟨fun _ => found, nofun⟩
  | stay =>
    obtain ⟨-, e | ⟨-, ne⟩⟩ := flushLoop_check mv (work rfl)
    · cases e
    · exact ⟨nofun, fun _ => ne⟩
  | _ => exact ⟨nofun, nofun⟩

/-- Under the mutex `running_` can only be cleared, as far as a flush thread sees it. -/
lemma ControlStep.work {s i p s' p'} (st : ControlStep s i p s' p') (work : s.HasWork)
    (outside : p ≠ .startCheck) : s'.HasWork := by
  cases st with
  | startSet => exact absurd rfl outside
  | stopClear => exact .inr rfl
  | _ => exact work

/-- The program counter of a flush thread, from what is known of it. -/
lemma System.pc_of_flushPc {c : System} {n p} (e : c.flushPc n = p) (busy : p ≠ .unborn) :
    c.pc (.flush n) = .flush p := by
  unfold flushPc at e
  split at e
  case h_1 found => exact found.trans (congrArg _ e)
  case h_2 => exact absurd e.symm busy

/-- The program counter of the controlling thread, from what is known of it. -/
lemma System.pc_of_controlPc {c : System} {p} (e : c.controlPc = p) (busy : p ≠ .idle) :
    c.pc .control = .control p := by
  unfold controlPc at e
  split at e
  case h_1 found => exact found.trans (congrArg _ e)
  case h_2 => exact absurd e.symm busy

/-- A flush thread and the controlling thread are not both under the mutex. -/
lemma System.MutexHeld.apart {c : System} (held : c.MutexHeld) {n}
    (e : c.flushPc n = .check) : c.controlPc ≠ .startCheck := by
  intro e'
  have flush : (c.pc (.flush n)).holds = true := by rw [pc_of_flushPc e nofun]; rfl
  have control : (c.pc .control).holds = true := by rw [pc_of_controlPc e' nofun]; rfl
  cases Held.unique held flush control

/-- Every step keeps what the flush thread knows with the mutex in its hands. -/
lemma System.Pressed.step {c c' : System} {a} (inv : c.Pressed) (lc : c.Lifecycle)
    (held : c.MutexHeld) (st : c.step a = some c') : c'.Pressed := by
  cases c.step_moves st with
  | caller _ st' _ flush =>
    obtain ⟨running, -⟩ := st'.fields_eq
    refine ⟨fun n e => ?_, fun n e => ?_⟩
    · rw [flush] at e
      exact (inv.check n e).imp st'.queue_ne_nil running.trans
    · rw [flush] at e
      exact st'.queue_ne_nil (inv.swap n e)
  | @flush n p' ea st' _ flush =>
    have mv := System.step_flush st ea
    obtain ⟨check, swap⟩ := flushLoop_pressed mv (inv.check n)
    -- the other flush threads are gone or not yet there
    have other : ∀ m, m ≠ n → c'.flushPc m = .unborn ∨ c'.flushPc m = .finished := by
      intro m ne
      rw [flush, Function.update_of_ne ne]
      exact lc.alone st' ne
    refine ⟨fun m e => ?_, fun m e => ?_⟩
    · rcases eq_or_ne m n with rfl | ne
      · exact check e
      · obtain gone | gone := other m ne <;> cases gone.symm.trans e
    · rcases eq_or_ne m n with rfl | ne
      · exact swap e
      · obtain gone | gone := other m ne <;> cases gone.symm.trans e
  | control _ st' _ flush =>
    obtain ⟨queue, -⟩ := st'.flow
    refine ⟨fun n e => ?_, fun n e => ?_⟩
    · rw [flush] at e
      exact st'.work (inv.check n e) (held.apart e)
    · rw [flush] at e
      rw [queue]
      exact inv.swap n e

/-- The invariants that the ranking rests on. -/
structure System.Sound (c : System) : Prop where
  lifecycle : c.Lifecycle
  held : c.MutexHeld
  wakeful : c.Wakeful
  pressed : c.Pressed

/-- The invariants hold at the beginning. -/
lemma System.Sound.init : System.init.Sound :=
  ⟨.init, .init, ⟨.inl rfl, fun waiting => absurd rfl waiting⟩, ⟨nofun, nofun⟩⟩

/-- Every step keeps the invariants. -/
lemma System.Sound.step {c c' : System} {a} (inv : c.Sound) (st : c.step a = some c') : c'.Sound where
  lifecycle := inv.lifecycle.step st
  held := inv.held.step st
  wakeful := inv.wakeful.step inv.lifecycle st
  pressed := inv.pressed.step inv.lifecycle inv.held st

/-- The thread that a `start` creates is the newest one from then on. -/
lemma System.flushRank_control {c c' : System} {i p p'} (lc : c.Lifecycle)
    (st : ControlStep c.shared i p c'.shared p') (flush : c'.flushPc = c.flushPc) :
    c'.flushRank + c.shared.awake + 6 * c.shared.spawned ≤
      c.flushRank + c'.shared.awake + 6 * c'.shared.spawned := by
  have unborn := lc.unborn
  have awake := st.awake
  unfold flushRank
  rw [flush]
  generalize c'.shared = s' at st awake ⊢
  have same : s'.spawned = c.shared.spawned →
      (match s'.spawned with | 0 => 0 | n + 1 => (c.flushPc n).rank s') + c.shared.awake +
          6 * c.shared.spawned ≤
        (match c.shared.spawned with | 0 => 0 | n + 1 => (c.flushPc n).rank c.shared) +
          s'.awake + 6 * s'.spawned := by
    intro e
    rw [e]
    refine Nat.add_le_add_right ?_ _
    cases c.shared.spawned with
    | zero => exact Nat.add_le_add_left awake 0
    | succ n => exact FlushPc.rank_awake _ awake
  cases st with
  | spawn =>
    simp only [unborn _ le_rfl, FlushPc.rank, Shared.awake]
    omega
  | _ => exact same rfl

/-- A step of a caller can only wake the flush thread. -/
lemma System.flushRank_caller {c c' : System} {n p p'}
    (st : CallerStep n c.shared p c'.shared p') (flush : c'.flushPc = c.flushPc) :
    c'.flushRank + c.shared.awake ≤ c.flushRank + c'.shared.awake := by
  obtain ⟨-, -, spawned, -⟩ := st.fields_eq
  unfold flushRank
  rw [flush, spawned]
  cases c.shared.spawned with
  | zero => exact Nat.add_le_add_left st.awake 0
  | succ n => exact FlushPc.rank_awake _ st.awake

/-- A parked flush thread that has been taken off the list leaves nobody there. -/
lemma System.Wakeful.alone {c : System} {n} (inv : c.Wakeful) (lc : c.Lifecycle) {s' p'}
    (st : FlushStep n c.shared (c.flushPc n) s' p') (gone : n ∉ c.shared.waiters) :
    c.shared.waiters = [] := by
  refine inv.waiter.resolve_right fun h => ?_
  obtain ⟨m, only, parked⟩ := h
  have ne : m ≠ n := by
    intro e
    rw [only, e] at gone
    exact gone (List.mem_singleton_self n)
  have other := lc.alone st ne
  rw [parked] at other
  exact other.elim nofun nofun

/-- Every step is paid for. -/
lemma System.Sound.pays {c c' : System} {a} {S : Finset ℕ} (inv : c.Sound)
    (member : ∀ n, a.1 = .caller n → n ∈ S) (st : c.step a = some c') :
    c'.rank S + 1 ≤ c.rank S + a.2.credit := by
  unfold rank
  cases c.step_moves st with
  | @caller n p' ea st' pcs flush control =>
    have paid := applyUpdate_pays (step_caller st ea)
    have woken := flushRank_caller st' flush
    have sum := sum_rank_update (member n ea) c.callerPc p' CallerPc.rank
    have own : c'.callerPc n = p' := by rw [pcs, Function.update_self]
    rw [own] at paid
    rw [pcs, control]
    omega
  | @flush n p' ea st' pcs flush control =>
    obtain ⟨sp, -⟩ := inv.lifecycle.newest st'
    obtain ⟨-, -, spawned⟩ := st'.fields_eq
    have paid := flushLoop_pays (step_flush st ea) (inv.pressed.swap n)
      fun _ => inv.wakeful.alone inv.lifecycle st'
    have before : c.flushRank = (c.flushPc n).rank c.shared := by rw [flushRank, sp]
    have after : c'.flushRank = (c'.flushPc n).rank c'.shared := by rw [flushRank, spawned, sp]
    rw [before, after, pcs, control]
    omega
  | @control p' _ st' pcs flush control =>
    have paid := st'.pays
    have newest := flushRank_control inv.lifecycle st' flush
    obtain ⟨queue, -⟩ := st'.flow
    rw [pcs, control, queue]
    omega

/-- A run makes no more steps than its calls and its spurious wake-ups pay for. -/
theorem System.length_le {C as c} (run : Run step C init as c) :
    as.length ≤ credits (fun a => a.2.credit) as := by
  -- the callers that make a step in the run
  let S : Finset ℕ := (as.filterMap fun a =>
    match a.1 with
    | .caller n => some n
    | _ => none).toFinset
  have member : ∀ a ∈ as, ∀ n, a.1 = .caller n → n ∈ S := by
    intro a mem n e
    refine List.mem_toFinset.mpr (List.mem_filterMap.mpr ⟨a, mem, ?_⟩)
    rw [e]
  have idle : ∑ n ∈ S, (init.callerPc n).rank = 0 := Finset.sum_eq_zero fun _ _ => rfl
  have zero : init.rank S = 0 := by
    unfold rank
    rw [idle]
    rfl
  have paid : as.length + c.rank S ≤ init.rank S + credits (fun a => a.2.credit) as :=
    Run.length_le (I := Sound) (rank S) run.of_mem (fun _ _ _ inv _ st => inv.step st)
      (fun _ a _ inv h st => inv.pays (member a h.2) st) Sound.init
  omega

/-- Nobody has anything left to do. -/
structure System.Settled (c : System) : Prop where
  callers : ∀ n, (c.callerPc n = .idle ∨ c.callerPc n = .done) ∧
    c.pushedBy n = c.shared.hist.requests n
  control : c.controlPc = .idle ∨ ∃ k, c.controlPc = .stopped k
  order : c.shared.hist.handed ++ c.shared.queue = c.shared.hist.pushed
  on : c.shared.running = true → c.shared.queue = [] ∧ c.shared.waiters ≠ []
  off : c.shared.running = false →
    c.shared.flushThread = none ∧ ∀ n < c.shared.spawned, c.flushPc n = .finished

/-- Where a caller can wait. -/
inductive CallerPc.Blocked (s : Shared) : CallerPc → Prop where
  | idle :
    Blocked s .idle
  | lock {u us} :
    s.mutex ≠ none →
    Blocked s (.lock u us)
  | done :
    Blocked s .done

/-- Where a flush thread can wait. -/
inductive FlushPc.Blocked (n : ℕ) (s : Shared) : FlushPc → Prop where
  | unborn :
    s.spawned ≤ n →
    Blocked n s .unborn
  | lock :
    s.mutex ≠ none →
    Blocked n s .lock
  | parked :
    n ∈ s.waiters →
    Blocked n s .parked
  | wake :
    s.mutex ≠ none →
    Blocked n s .wake
  | finished :
    Blocked n s .finished

/-- Where the controlling thread can wait. -/
inductive ControlPc.Blocked (s : Shared) : ControlPc → Prop where
  | idle :
    Blocked s .idle
  | startLock :
    s.mutex ≠ none →
    Blocked s .startLock
  | assign {n m} :
    s.flushThread = some m →
    s.finished m = false →
    Blocked s (.assign n)
  | stopLock :
    s.mutex ≠ none →
    Blocked s .stopLock
  | join {k m} :
    s.flushThread = some m →
    s.finished m = false →
    Blocked s (.join k)
  | stopped {k} :
    Blocked s (.stopped k)

/-- A step that only a mutex can stop is stopped by its owner. -/
lemma ne_of_ite_none {α : Type*} {s : Shared} {r : α}
    (none : (if s.mutex = none then some r else none) = none) : s.mutex ≠ .none := by
  intro free
  rw [if_pos free] at none
  cases none

/-- A caller without a step of its own waits for the mutex, or has nothing to do. -/
lemma applyUpdate_blocked {n s p} (none : ∀ i : Choice, i.Own → applyUpdate i n s p = none) :
    p.Blocked s := by
  have go := none .go (.inl rfl)
  cases p <;> simp only [applyUpdate] at go
  case idle => exact .idle
  case lock => exact .lock (ne_of_ite_none go)
  case notify us =>
    cases e : s.waiters with
    | nil =>
      rw [e] at go
      cases go
    | cons m ws =>
      have woken := none (.notified m) (.inr ⟨m, rfl⟩)
      simp only [applyUpdate, notifyOne, e, List.mem_cons_self, if_true] at woken
      cases woken
  case done => exact .done
  all_goals cases go

/-- A flush thread without a step waits for the mutex or on the condition variable, or has ended. -/
lemma flushLoop_blocked {n s p} (none : flushLoop .go n s p = none) : p.Blocked n s := by
  cases p <;> simp only [flushLoop] at none
  case unborn =>
    refine .unborn (Nat.le_of_not_lt fun born => ?_)
    rw [if_pos born] at none
    cases none
  case lock => exact .lock (ne_of_ite_none none)
  case test => split at none <;> cases none
  case parked =>
    split at none
    case isTrue mem => exact .parked mem
    case isFalse => cases none
  case wake => exact .wake (ne_of_ite_none none)
  case check => split at none <;> cases none
  case drain batch => cases batch <;> cases none
  case finished => exact .finished
  all_goals cases none

/-- A controlling thread without a step waits for the mutex or for its flush thread, or is at rest. -/
lemma startStop_blocked {s p} (none : startStop .go s p = none) : p.Blocked s := by
  cases p <;> simp only [startStop] at none
  case idle => exact .idle
  case startLock => exact .startLock (ne_of_ite_none none)
  case startCheck => split at none <;> cases none
  case assign n =>
    split at none
    case h_1 => cases none
    case h_2 m found =>
      split at none
      case isTrue => cases none
      case isFalse h => exact .assign found (Bool.eq_false_iff.mpr h)
  case stopLock => exact .stopLock (ne_of_ite_none none)
  case stopCheck => split at none <;> cases none
  case join k =>
    split at none
    case h_1 => cases none
    case h_2 m found =>
      split at none
      case isTrue => cases none
      case isFalse h => exact .join found (Bool.eq_false_iff.mpr h)
  case stopped k => exact .stopped
  all_goals cases none

/-- The program counter is one of the thread. -/
def Pc.isOf : Thread → Pc → Bool
  | .caller _, .caller _ | .flush _, .flush _ | .control, .control _ => true
  | _, _ => false

/-- Every thread runs its own program. -/
def System.Typed (c : System) : Prop :=
  ∀ t, (c.pc t).isOf t = true

/-- A thread stays in the code of its kind. -/
lemma Step.isOf {s i t p s' p'} (st : Step s i t p s' p') : p'.isOf t = true := by
  cases st <;> rfl

/-- Every step leaves each thread in the code of its kind. -/
lemma System.Typed.step {c c' : System} {a} (typed : c.Typed) (st : c.step a = some c') :
    c'.Typed := by
  obtain ⟨st, pcs⟩ := c.step_inv st
  intro t
  rcases eq_or_ne t a.1 with rfl | ne
  · exact st.isOf
  · rw [pcs, Function.update_of_ne ne]
    exact typed t

/-- The program counter of a thread is that of its kind. -/
lemma System.Typed.pcs {c : System} (typed : c.Typed) :
    (∀ n, c.pc (.caller n) = .caller (c.callerPc n)) ∧
      (∀ n, c.pc (.flush n) = .flush (c.flushPc n)) ∧ c.pc .control = .control c.controlPc := by
  refine ⟨fun n => ?_, fun n => ?_, ?_⟩
  · have own := typed (.caller n)
    unfold callerPc
    generalize c.pc (.caller n) = p at own
    cases p with
    | caller => rfl
    | flush | control => cases own
  · have own := typed (.flush n)
    unfold flushPc
    generalize c.pc (.flush n) = p at own
    cases p with
    | flush => rfl
    | caller | control => cases own
  · have own := typed .control
    unfold controlPc
    generalize c.pc .control = p at own
    cases p with
    | control => rfl
    | caller | flush => cases own

/-- Every thread is at a place where it waits. -/
structure System.Waiting (c : System) : Prop where
  caller : ∀ n, (c.callerPc n).Blocked c.shared
  flush : ∀ n, (c.flushPc n).Blocked n c.shared
  control : c.controlPc.Blocked c.shared

/-- A system without a step of its own waits everywhere. -/
lemma System.Typed.waiting {c : System} (typed : c.Typed) (stuck : Stuck System.step Own c) :
    c.Waiting := by
  obtain ⟨caller, flush, control⟩ := typed.pcs
  refine ⟨fun n => applyUpdate_blocked (n := n) fun i own => ?_, fun n => flushLoop_blocked ?_,
    startStop_blocked ?_⟩
  · have none := Option.map_eq_none_iff.mp (stuck (.caller n, i) own)
    rw [caller] at none
    exact Option.map_eq_none_iff.mp none
  · have none := Option.map_eq_none_iff.mp (stuck (.flush n, .go) (.inl rfl))
    rw [flush] at none
    exact Option.map_eq_none_iff.mp none
  · have none := Option.map_eq_none_iff.mp (stuck (.control, .go) (.inl rfl))
    rw [control] at none
    exact Option.map_eq_none_iff.mp none

/-- Nobody waits inside the critical section, so the mutex is free. -/
lemma System.Waiting.free {c : System} (waiting : c.Waiting) (typed : c.Typed)
    (held : c.MutexHeld) : c.shared.mutex = none := by
  obtain ⟨caller, flush, control⟩ := typed.pcs
  cases e : c.shared.mutex with
  | none => rfl
  | some t =>
    have inside : (c.pc t).holds = true := (held t).mpr e
    cases t with
    | caller n =>
      rw [caller] at inside
      have blocked := waiting.caller n
      generalize c.callerPc n = p at inside blocked
      cases blocked <;> cases inside
    | flush n =>
      rw [flush] at inside
      have blocked := waiting.flush n
      generalize c.flushPc n = p at inside blocked
      cases blocked <;> cases inside
    | control =>
      rw [control] at inside
      have blocked := waiting.control
      generalize c.controlPc = p at inside blocked
      cases blocked <;> cases inside

/-- With the mutex free the callers have returned. -/
lemma CallerPc.Blocked.at_rest {s p} (blocked : Blocked s p) (free : s.mutex = none) :
    p = .idle ∨ p = .done := by
  cases blocked with
  | idle => exact .inl rfl
  | lock taken => exact absurd free taken
  | done => exact .inr rfl

/-- With the mutex free a flush thread that is there has parked or ended. -/
lemma FlushPc.Blocked.at_rest {n s p} (blocked : Blocked n s p) (free : s.mutex = none)
    (born : n < s.spawned) : (p = .parked ∧ n ∈ s.waiters) ∨ p = .finished := by
  cases blocked with
  | unborn le => exact absurd born (Nat.not_lt.mpr le)
  | lock taken => exact absurd free taken
  | parked mem => exact .inl ⟨rfl, mem⟩
  | wake taken => exact absurd free taken
  | finished => exact .inr rfl

/-- Where threads wait, nobody has a notification before it. -/
lemma System.Waiting.silent {c : System} (waiting : c.Waiting) (typed : c.Typed) (t : Thread) :
    (c.pc t).notifies = false := by
  obtain ⟨caller, flush, control⟩ := typed.pcs
  cases t with
  | caller n =>
    have blocked := waiting.caller n
    rw [caller]
    generalize c.callerPc n = p at blocked
    cases blocked <;> rfl
  | flush n =>
    rw [flush]
    rfl
  | control =>
    have blocked := waiting.control
    rw [control]
    generalize c.controlPc = p at blocked
    cases blocked <;> rfl

/-- So a flush thread that is parked has nothing to do. -/
lemma System.Waiting.idle {c : System} (waiting : c.Waiting) (typed : c.Typed) (wakeful : c.Wakeful)
    {m} (mem : m ∈ c.shared.waiters) : ¬ c.shared.HasWork := by
  intro work
  obtain ⟨t, due⟩ := wakeful.due (List.ne_nil_of_mem mem) work
  cases due.symm.trans (waiting.silent typed t)

/-- The flush threads of a system that waits everywhere, and its controlling thread. -/
lemma System.Waiting.life {c : System} (waiting : c.Waiting) (typed : c.Typed) (inv : c.Sound) :
    (c.controlPc = .idle ∨ ∃ k, c.controlPc = .stopped k) ∧
      ((c.shared.running = true ∧ c.shared.queue = [] ∧ c.shared.waiters ≠ []) ∨
        (c.shared.running = false ∧ c.shared.flushThread = none ∧
          ∀ n < c.shared.spawned, c.flushPc n = .finished)) := by
  have free := waiting.free typed inv.held
  have idle := fun m => waiting.idle (m := m) typed inv.wakeful
  have control := waiting.control
  have life := inv.lifecycle.life
  generalize c.controlPc = p at control life
  have rests : p.resting = true → p = .idle ∨ ∃ k, p = .stopped k := by
    intro rest
    cases control with
    | idle => exact .inl rfl
    | startLock taken => exact absurd free taken
    | assign => cases rest
    | stopLock taken => exact absurd free taken
    | join => cases rest
    | stopped => exact .inr ⟨_, rfl⟩
  cases life with
  | off rest run thr fin => exact ⟨rests rest, .inr ⟨run, thr, fin⟩⟩
  | @on _ m rest run thr sp fin stay =>
    have rest' : p.resting = true := by
      cases p with
      | stopped => cases rest
      | _ => exact rest
    refine ⟨rests rest', .inl ⟨run, ?_⟩⟩
    obtain ⟨-, mem⟩ | ended := (waiting.flush m).at_rest free (by omega)
    · exact ⟨not_not.mp (not_or.mp (idle m mem)).1, List.ne_nil_of_mem mem⟩
    · rw [ended] at stay
      cases stay
  | starting pc => obtain rfl | rfl := pc <;> cases control
  | assigning _ thr =>
    cases control with
    | assign found => cases thr.symm.trans found
  | @stopping _ k m pc run thr sp =>
    cases control with
    | join found alive =>
      cases thr.symm.trans found
      -- the thread that is waited for is parked, and has to be woken, or has ended
      obtain ⟨-, mem⟩ | ended := (waiting.flush m).at_rest free (by omega)
      · exact absurd (.inr run) (idle m mem)
      · cases alive.symm.trans ((inv.lifecycle.finished_iff m).mpr ended)
    | _ => cases pc

/-- If everybody waits and the mutex is free, no batch is being handed over. -/
lemma System.Waiting.batch {c : System} (waiting : c.Waiting) (free : c.shared.mutex = none) :
    c.batch = [] := by
  unfold System.batch
  cases sp : c.shared.spawned with
  | zero => rfl
  | succ n =>
    obtain ⟨parked, -⟩ | ended := (waiting.flush n).at_rest free (by omega)
    · simp only [parked, FlushPc.batch]
    · simp only [ended, FlushPc.batch]

/-- If everybody waits, nobody has anything left to do. -/
lemma System.Waiting.settled {c : System} (waiting : c.Waiting) (typed : c.Typed) (inv : c.Sound)
    (flow : c.Flow) (acc : c.Accounts) : c.Settled := by
  have free := waiting.free typed inv.held
  obtain ⟨control, life⟩ := waiting.life typed inv
  have order := flow.order
  rw [waiting.batch free, List.append_nil] at order
  refine ⟨fun n => ?_, control, order, fun run => ?_, fun stop => ?_⟩
  · have rest := (waiting.caller n).at_rest free
    refine ⟨rest, ?_⟩
    have account := acc.account n
    obtain e | e := rest <;> rwa [e, CallerPc.remaining, List.append_nil] at account
  · obtain ⟨-, on⟩ | ⟨stop, -⟩ := life
    · exact on
    · cases run.symm.trans stop
  · obtain ⟨run, -⟩ | ⟨-, off⟩ := life
    · cases run.symm.trans stop
    · exact off

/-- In every reachable state each thread is in the code of its kind. -/
lemma System.typed {C as c} (run : Run step C init as c) : c.Typed := by
  refine run.invariant (fun _ _ _ typed _ st => typed.step st) fun t => ?_
  cases t <;> rfl

/-- A step of its own brings nothing with it. -/
lemma Choice.Own.credit {i : Choice} (own : i.Own) : i.credit = 0 := by
  obtain rfl | ⟨n, rfl⟩ := own <;> rfl

/-- Steps of their own are paid for by the calls before them. -/
lemma System.own_length_le {C as c bs c'} (run : Run step C init as c) (run' : Run step Own c bs c') :
    as.length + bs.length ≤ credits (fun a => a.2.credit) as := by
  have both := (run.mono fun _ _ _ => trivial).append
    (run'.mono (D := Always) fun _ _ _ => trivial)
  have le := System.length_le both
  have own : ∀ a ∈ bs, a.2.Own := run'.forall_mem fun _ _ own => own
  rw [List.length_append, credits_append, credits_eq_zero fun a mem => (own a mem).credit] at le
  exact le

/-- Whatever the schedule, the threads of the bridge make no more steps of their own than the calls and
the spurious wake-ups so far have paid for; when they can make none, everything is settled; and there
is a way there from every reachable state. -/
theorem settles {C as c} (run : Run System.step C System.init as c) :
    (∀ bs c', Run System.step Own c bs c' →
      as.length + bs.length ≤ credits (fun a => a.2.credit) as ∧
        (Stuck System.step Own c' → c'.Settled)) ∧
      ∃ bs c', Run System.step Own c bs c' ∧ c'.Settled := by
  have settled : ∀ bs c', Run System.step Own c bs c' → Stuck System.step Own c' → c'.Settled := by
    intro bs c' run' stuck
    have both := (run.mono fun _ _ _ => trivial).append
      (run'.mono (D := Always) fun _ _ _ => trivial)
    have typed := System.typed both
    exact (typed.waiting stuck).settled typed (both.invariant (fun _ _ _ inv _ st => inv.step st) .init)
      (System.flow both) (System.accounts both)
  have bounded : ∀ bs c', Run System.step Own c bs c' →
      as.length + bs.length ≤ credits (fun a => a.2.credit) as :=
    fun bs c' run' => System.own_length_le run run'
  refine ⟨fun bs c' run' => ⟨bounded bs c' run', settled bs c' run'⟩, ?_⟩
  exact Run.reaches (fun bs c' run' => Nat.le_trans (Nat.le_add_left ..) (bounded bs c' run')) settled

/-- In the middle of a push the system is not settled, and gets there. -/
theorem pushing_settles :
    ∃ c, Run System.step Always System.init (pushing 2) c ∧ ¬ c.Settled ∧
      ∃ bs c', Run System.step Own c bs c' ∧ c'.Settled := by
  have busy : ∀ c, exec System.step System.init (pushing 2) = some c → ¬ c.Settled := by
    intro c e settled
    cases e
    obtain h | h := (settled.callers 0).1 <;> cases h
  exact ⟨_, Run.of_exec rfl, busy _ rfl, (@settles Always (pushing 2) _ (Run.of_exec rfl)).2⟩

end Dnp3Bridge.Bridge
