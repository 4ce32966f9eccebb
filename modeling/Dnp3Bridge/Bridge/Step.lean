import Dnp3Bridge.Bridge.Model

/-!
# Inversion of the steps of the bridge

One rule for every branch of `applyUpdate`, `flushLoop` and `startStop`, with its guards, and the
mutex: every step takes it when it is free, gives it back, or leaves it alone.
-/

namespace Dnp3Bridge.Bridge
open Concurrency

/-- The steps of a caller. -/
inductive CallerStep (n : Nat) (s : Shared) : CallerPc → Shared → CallerPc → Prop where
  | apply {us} :
    CallerStep n s .idle
      { s with hist := { s.hist with requests := Function.update s.hist.requests n us } } (.next us)
  | lock {u us} :
    s.mutex = none →
    CallerStep n s (.lock u us) { s with mutex := some (.caller n) } (.push u us)
  | push {u us} :
    CallerStep n s (.push u us)
      { s with
        queue := s.queue ++ [⟨u, n⟩]
        hist := { s.hist with pushed := s.hist.pushed ++ [⟨u, n⟩] } } (.unlock us)
  | unlock {us} :
    CallerStep n s (.unlock us) { s with mutex := none } (.notify us)
  | notify {us ws} :
    (∀ m ∈ ws, m ∈ s.waiters) →
    CallerStep n s (.notify us) { s with waiters := ws } (.next us)

/-- The steps of a flush thread. -/
inductive FlushStep (n : Nat) (s : Shared) : FlushPc → Shared → FlushPc → Prop where
  | begin :
    n < s.spawned →
    FlushStep n s .unborn s .lock
  | lock :
    s.mutex = none →
    FlushStep n s .lock { s with mutex := some (.flush n) } .test
  | leaveWait :
    s.queue ≠ [] ∨ s.running = false →
    FlushStep n s .test s .check
  | park :
    s.queue = [] →
    s.running = true →
    FlushStep n s .test { s with mutex := none, waiters := n :: s.waiters } .parked
  | spurious :
    FlushStep n s .parked { s with waiters := s.waiters.erase n } .wake
  | woken :
    n ∉ s.waiters →
    FlushStep n s .parked s .wake
  | relock :
    s.mutex = none →
    FlushStep n s .wake { s with mutex := some (.flush n) } .test
  | leaveLoop :
    s.running = false →
    s.queue = [] →
    FlushStep n s .check s .exit
  | stay :
    FlushStep n s .check s .swap
  | swap :
    FlushStep n s .swap
      { s with
        queue := []
        hist := { s.hist with batches := s.hist.batches ++ [s.queue] } } (.unlock s.queue)
  | unlock {batch} :
    FlushStep n s (.unlock batch) { s with mutex := none } (.drain batch)
  | drained :
    FlushStep n s (.drain []) s .lock
  | hand {u batch} :
    FlushStep n s (.drain (u :: batch))
      { s with hist := { s.hist with handed := s.hist.handed ++ [u] } } (.drain batch)
  | exit :
    FlushStep n s .exit { s with mutex := none } .ending
  | finish :
    FlushStep n s .ending { s with finished := Function.update s.finished n true } .finished

/-- The calls of `start` and `stop` and their steps. -/
inductive ControlStep (s : Shared) : Choice → ControlPc → Shared → ControlPc → Prop where
  | start {p} :
    p = .idle ∨ (∃ k, p = .stopped k) →
    ControlStep s .start p s .startLock
  | stop {p} :
    p = .idle ∨ (∃ k, p = .stopped k) →
    ControlStep s .stop p s .stopLock
  | startLock {i} :
    s.mutex = none →
    ControlStep s i .startLock { s with mutex := some .control } .startCheck
  | startFound {i} :
    s.running = true →
    ControlStep s i .startCheck s .startFound
  | startSet {i} :
    s.running = false →
    ControlStep s i .startCheck { s with running := true } .startUnlock
  | startReturn {i} :
    ControlStep s i .startFound { s with mutex := none } .idle
  | startUnlock {i} :
    ControlStep s i .startUnlock { s with mutex := none } .spawn
  | spawn {i} :
    ControlStep s i .spawn { s with spawned := s.spawned + 1 } (.assign s.spawned)
  | assign {i n} :
    (∀ m, s.flushThread = some m → s.finished m = true) →
    ControlStep s i (.assign n) { s with flushThread := some n } .idle
  | stopLock {i} :
    s.mutex = none →
    ControlStep s i .stopLock { s with mutex := some .control } .stopCheck
  | stopClear {i} :
    s.running = true →
    ControlStep s i .stopCheck { s with running := false } (.stopUnlock s.hist.pushed.length)
  | stopFound {i} :
    s.running = false →
    ControlStep s i .stopCheck s .stopFound
  | stopReturn {i} :
    ControlStep s i .stopFound { s with mutex := none } .idle
  | stopUnlock {i k} :
    ControlStep s i (.stopUnlock k) { s with mutex := none } (.notifyAll k)
  | notifyAll {i k} :
    ControlStep s i (.notifyAll k) { s with waiters := [] } (.join k)
  | joinNone {i k} :
    s.flushThread = none →
    ControlStep s i (.join k) s (.stopped k)
  | join {i k m} :
    s.flushThread = some m →
    s.finished m = true →
    ControlStep s i (.join k) { s with flushThread := none } (.stopped k)

/-- The steps of a thread. -/
inductive Step (s : Shared) : Choice → Thread → Pc → Shared → Pc → Prop where
  | caller {i n p s' p'} :
    CallerStep n s p s' p' →
    Step s i (.caller n) (.caller p) s' (.caller p')
  | flush {i n p s' p'} :
    FlushStep n s p s' p' →
    Step s i (.flush n) (.flush p) s' (.flush p')
  | control {i p s' p'} :
    ControlStep s i p s' p' →
    Step s i .control (.control p) s' (.control p')

/-- `notify_one` wakes one waiter, if there is any. -/
lemma notifyOne_inv {i ws ws'} (e : notifyOne i ws = some ws') :
    (ws = [] ∧ ws' = []) ∨ ∃ m ∈ ws, ws' = ws.erase m := by
  unfold notifyOne at e
  split at e
  case h_1 =>
    cases e
    exact .inl ⟨rfl, rfl⟩
  case h_2 m _ =>
    obtain ⟨mem, e⟩ := Option.ite_none_right_eq_some.mp e
    cases e
    exact .inr ⟨m, mem, rfl⟩
  case h_3 => cases e

/-- The waiters left by `notify_one` were waiting before. -/
lemma notifyOne_subset {i ws ws'} (e : notifyOne i ws = some ws') : ∀ m ∈ ws', m ∈ ws := by
  obtain ⟨rfl, rfl⟩ | ⟨n, -, rfl⟩ := notifyOne_inv e
  · exact fun m mem => mem
  · exact fun m mem => List.mem_of_mem_erase mem

/-- Inversion for `applyUpdate`. -/
lemma applyUpdate_inv {i n s p s' p'} (mv : applyUpdate i n s p = some (s', p')) :
    CallerStep n s p s' p' := by
  cases p <;> simp only [applyUpdate] at mv
  case idle =>
    split at mv <;> cases mv
    case h_1 => exact .apply
  case lock =>
    obtain ⟨h, e⟩ := Option.ite_none_right_eq_some.mp mv
    cases e
    exact .lock h
  case push =>
    cases mv
    exact .push
  case unlock =>
    cases mv
    exact .unlock
  case notify =>
    obtain ⟨ws, e, e'⟩ := Option.map_eq_some_iff.mp mv
    cases e'
    exact .notify (notifyOne_subset e)
  case done => cases mv

/-- Inversion for `flushLoop`. -/
lemma flushLoop_inv {i n s p s' p'} (mv : flushLoop i n s p = some (s', p')) :
    FlushStep n s p s' p' := by
  cases p <;> simp only [flushLoop] at mv
  case unborn =>
    obtain ⟨h, e⟩ := Option.ite_none_right_eq_some.mp mv
    cases e
    exact .begin h
  case lock =>
    obtain ⟨h, e⟩ := Option.ite_none_right_eq_some.mp mv
    cases e
    exact .lock h
  case test =>
    split at mv <;> cases mv
    case isTrue h => exact .leaveWait h
    case isFalse h =>
      obtain ⟨hq, hr⟩ := not_or.mp h
      exact .park (not_not.mp hq) (Bool.eq_true_of_not_eq_false hr)
  case parked =>
    split at mv
    case isTrue =>
      split at mv <;> cases mv
      case h_1 => exact .spurious
    case isFalse h =>
      cases mv
      exact .woken h
  case wake =>
    obtain ⟨h, e⟩ := Option.ite_none_right_eq_some.mp mv
    cases e
    exact .relock h
  case check =>
    split at mv <;> cases mv
    case isTrue h => exact .leaveLoop h.1 h.2
    case isFalse => exact .stay
  case swap =>
    cases mv
    exact .swap
  case unlock =>
    cases mv
    exact .unlock
  case drain batch =>
    cases batch with
    | nil =>
      cases mv
      exact .drained
    | cons u batch =>
      cases mv
      exact .hand
  case exit =>
    cases mv
    exact .exit
  case ending =>
    cases mv
    exact .finish
  case finished => cases mv

/-- Inversion for `startStop`. -/
lemma startStop_inv {i s p s' p'} (mv : startStop i s p = some (s', p')) :
    ControlStep s i p s' p' := by
  cases p <;> simp only [startStop] at mv
  case idle =>
    split at mv <;> cases mv
    case h_1 => exact .start (.inl rfl)
    case h_2 => exact .stop (.inl rfl)
  case stopped k =>
    split at mv <;> cases mv
    case h_1 => exact .start (.inr ⟨k, rfl⟩)
    case h_2 => exact .stop (.inr ⟨k, rfl⟩)
  case startLock =>
    obtain ⟨h, e⟩ := Option.ite_none_right_eq_some.mp mv
    cases e
    exact .startLock h
  case startCheck =>
    split at mv <;> cases mv
    case isTrue h => exact .startFound h
    case isFalse h => exact .startSet (Bool.eq_false_iff.mpr h)
  case startFound =>
    cases mv
    exact .startReturn
  case startUnlock =>
    cases mv
    exact .startUnlock
  case spawn =>
    cases mv
    exact .spawn
  case assign n =>
    split at mv
    case h_1 none =>
      cases mv
      refine .assign fun m e => ?_
      cases none.symm.trans e
    case h_2 m some =>
      obtain ⟨h, e⟩ := Option.ite_none_right_eq_some.mp mv
      cases e
      refine .assign fun m' e' => ?_
      cases some.symm.trans e'
      exact h
  case stopLock =>
    obtain ⟨h, e⟩ := Option.ite_none_right_eq_some.mp mv
    cases e
    exact .stopLock h
  case stopCheck =>
    split at mv <;> cases mv
    case isTrue h => exact .stopClear h
    case isFalse h => exact .stopFound (Bool.eq_false_iff.mpr h)
  case stopFound =>
    cases mv
    exact .stopReturn
  case stopUnlock =>
    cases mv
    exact .stopUnlock
  case notifyAll =>
    cases mv
    exact .notifyAll
  case join =>
    split at mv
    case h_1 none =>
      cases mv
      exact .joinNone none
    case h_2 m some =>
      obtain ⟨h, e⟩ := Option.ite_none_right_eq_some.mp mv
      cases e
      exact .join some h

/-- Inversion for a step of the `Bridge`: its thread steps, the others stay where they are. -/
theorem System.step_inv {c c' : System} {a} (st : c.step a = some c') :
    Step c.shared a.2 a.1 (c.pc a.1) c'.shared (c'.pc a.1) ∧
      c'.pc = Function.update c.pc a.1 (c'.pc a.1) := by
  obtain ⟨t, i⟩ := a
  obtain ⟨s, p, mv, rfl⟩ := Conf.step_inv st
  simp only [Function.update_self]
  refine ⟨?_, trivial⟩
  simp only at mv
  generalize c.pc t = q at mv ⊢
  cases t with
  | caller n =>
    cases q with
    | caller q =>
      obtain ⟨q', e, rfl⟩ := exists_of_map_pc mv
      exact .caller (applyUpdate_inv e)
    | _ => cases mv
  | flush n =>
    cases q with
    | flush q =>
      obtain ⟨q', e, rfl⟩ := exists_of_map_pc mv
      exact .flush (flushLoop_inv e)
    | _ => cases mv
  | control =>
    cases q with
    | control q =>
      obtain ⟨q', e, rfl⟩ := exists_of_map_pc mv
      exact .control (startStop_inv e)
    | _ => cases mv

/-- The thread holds the mutex. -/
def Pc.holds : Pc → Bool
  | .caller (.push _ _) | .caller (.unlock _) => true
  | .flush .test | .flush .check | .flush .swap | .flush (.unlock _) | .flush .exit => true
  | .control .startCheck | .control .startFound | .control .startUnlock | .control .stopCheck
  | .control .stopFound | .control (.stopUnlock _) => true
  | _ => false

/-- What a step does with the mutex. -/
lemma Step.lock {t s i p s' p'} (st : Step s i t p s' p') :
    LockStep t s.mutex p.holds s'.mutex p'.holds := by
  have next : ∀ us, (Pc.caller (.next us)).holds = false := by
    intro us
    cases us <;> rfl
  cases st with
  | caller st =>
    cases st with
    | apply =>
      rw [next]
      exact .stay
    | lock free =>
      rw [free]
      exact .acquire
    | push => exact .stay
    | unlock => exact .release
    | notify =>
      rw [next]
      exact .stay
  | flush st =>
    cases st with
    | lock free =>
      rw [free]
      exact .acquire
    | relock free =>
      rw [free]
      exact .acquire
    | park => exact .release
    | unlock => exact .release
    | exit => exact .release
    | _ => exact .stay
  | control st =>
    cases st with
    | start h => obtain rfl | ⟨k, rfl⟩ := h <;> exact .stay
    | stop h => obtain rfl | ⟨k, rfl⟩ := h <;> exact .stay
    | startLock free =>
      rw [free]
      exact .acquire
    | stopLock free =>
      rw [free]
      exact .acquire
    | startReturn => exact .release
    | startUnlock => exact .release
    | stopReturn => exact .release
    | stopUnlock => exact .release
    | _ => exact .stay

/-- The owner of the mutex is the thread that is inside it. -/
def System.MutexHeld (c : System) : Prop :=
  Held c.shared.mutex fun t => (c.pc t).holds

/-- Every step keeps the mutex with the thread that is inside it. -/
lemma System.MutexHeld.step {c c' : System} {a} (held : c.MutexHeld) (st : c.step a = some c') :
    c'.MutexHeld := by
  obtain ⟨st, pcs⟩ := c.step_inv st
  have next := Held.step held st.lock
  unfold MutexHeld
  rw [update_pc pcs Pc.holds]
  exact next

/-- At the beginning nobody is inside the mutex. -/
lemma System.MutexHeld.init : System.init.MutexHeld := by
  intro t
  cases t <;> exact ⟨nofun, nofun⟩

/-- In every reachable state the mutex is held as the program counters say. -/
theorem System.mutexHeld {C as c} (run : Run step C init as c) : c.MutexHeld :=
  run.invariant (fun _ _ _ held _ st => held.step st) MutexHeld.init

end Dnp3Bridge.Bridge
