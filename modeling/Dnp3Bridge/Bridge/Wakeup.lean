import Dnp3Bridge.Bridge.Queue

/-!
# No lost wake-up

At most one flush thread is parked, and while it is parked although there is work, or `running_` has
been cleared, the thread that brought this about has its notification still before it. It may be
inside the critical section in which it changed `queue_` or `running_`, or have left it.
-/

namespace Dnp3Bridge.Bridge
open Concurrency

/-- What a flush thread waits for: an update, or the end. -/
def Shared.HasWork (s : Shared) : Prop :=
  s.queue ≠ [] ∨ s.running = false

/-- The thread has pushed an update or cleared `running_`, and has not notified yet. -/
def Pc.notifies : Pc → Bool
  | .caller (.unlock _) | .caller (.notify _) => true
  | .control (.stopUnlock _) | .control (.notifyAll _) => true
  | _ => false

/-- The thread is done: it is in no call, or a `stop` that is blocked in `join`, or a flush thread that
is not there. -/
def Pc.done : Pc → Bool
  | .caller .idle | .caller .done => true
  | .control .idle | .control (.stopped _) | .control (.join _) => true
  | .flush .unborn | .flush .finished => true
  | _ => false

/-- Flush thread `n` is parked in `cv_.wait` and has not been notified, although there is work. -/
structure System.Oversleeps (c : System) (n : Nat) : Prop where
  parked : c.pc (.flush n) = .flush .parked
  waits : n ∈ c.shared.waiters
  work : c.shared.HasWork

/-- At most one thread waits. -/
def OneWaiter (waiters : List Nat) : Prop :=
  waiters = [] ∨ ∃ n, waiters = [n]

/-- `notify_one` wakes the only waiter. -/
lemma notifyOne_wakes {i ws ws'} (e : notifyOne i ws = some ws') (one : OneWaiter ws) : ws' = [] := by
  obtain ⟨-, rfl⟩ | ⟨m, mem, rfl⟩ := notifyOne_inv e
  · rfl
  · obtain rfl | ⟨n, rfl⟩ := one
    · cases mem
    · cases List.mem_singleton.mp mem
      exact List.erase_cons_head m []

/-- After a notification nobody waits any more. -/
lemma System.notified {c c' : System} {a us} (one : OneWaiter c.shared.waiters)
    (st : c.step a = some c') (pc : c.pc a.1 = .caller (.notify us)) : c'.shared.waiters = [] := by
  obtain ⟨t, i⟩ := a
  obtain ⟨s, p, mv, rfl⟩ := Conf.step_inv st
  simp only at pc mv ⊢
  rw [pc] at mv
  cases t with
  | caller n =>
    obtain ⟨q, mv, -⟩ := exists_of_map_pc mv
    obtain ⟨ws, left, e⟩ := Option.map_eq_some_iff.mp mv
    cases e
    exact notifyOne_wakes left one
  | flush | control => cases mv

/-- A step that makes work leads to a notification. -/
lemma Step.work_inv {s i t p s' p'} (st : Step s i t p s' p') (work : s'.HasWork) :
    s.HasWork ∨ p'.notifies = true := by
  cases st with
  | caller st =>
    cases st with
    | push => exact .inr rfl
    | _ => exact .inl work
  | flush st =>
    cases st with
    | swap => exact .inl (.inr (work.resolve_left fun queued => queued rfl))
    | _ => exact .inl work
  | control st =>
    cases st with
    | startSet => exact .inl (.inl (work.resolve_right nofun))
    | stopClear => exact .inr rfl
    | _ => exact .inl work

/-- A thread whose notification is due gives the mutex back first. -/
lemma Step.notifies_inv {s i t p s' p'} (st : Step s i t p s' p') (due : p.notifies = true) :
    p'.notifies = true ∨ (∃ us, p = .caller (.notify us)) ∨
      s'.waiters = [] := by
  cases st with
  | caller st =>
    cases st with
    | unlock => exact .inl rfl
    | notify => exact .inr (.inl ⟨_, rfl⟩)
    | _ => cases due
  | flush => cases due
  | control st =>
    cases st with
    | start h => obtain rfl | ⟨k, rfl⟩ := h <;> cases due
    | stop h => obtain rfl | ⟨k, rfl⟩ := h <;> cases due
    | stopUnlock => exact .inl rfl
    | notifyAll => exact .inr (.inr rfl)
    | _ => cases due

/-- When a flush thread makes a step, all others are gone or not yet there. -/
lemma System.Lifecycle.alone {c : System} {n s' p' k} (lc : c.Lifecycle)
    (st : FlushStep n c.shared (c.flushPc n) s' p') (ne : k ≠ n) :
    c.flushPc k = .unborn ∨ c.flushPc k = .finished := by
  obtain ⟨sp, alive⟩ := lc.newest st
  rcases Nat.lt_or_gt_of_ne ne with lt | gt
  · right
    have past : ∀ m, c.shared.spawned = m + 1 → (∀ k < m, c.flushPc k = .finished) →
        c.flushPc k = .finished := fun m sp' fin => fin k (by omega)
    have life := lc.life
    generalize c.controlPc = q at life
    cases life with
    | off _ _ _ fin => exact fin k (by omega)
    | on _ _ _ sp' fin => exact past _ sp' fin
    | starting _ _ _ fin => exact fin k (by omega)
    | assigning _ _ sp' fin => exact past _ sp' fin
    | stopping _ _ _ sp' fin => exact past _ sp' fin
  · exact .inl (lc.unborn k (by omega))

/-- Nobody waits but a parked flush thread, and if that one has work a notification is due. -/
structure System.Wakeful (c : System) : Prop where
  waiter : c.shared.waiters = [] ∨ ∃ n, c.shared.waiters = [n] ∧ c.flushPc n = .parked
  due : c.shared.waiters ≠ [] → c.shared.HasWork → ∃ t, (c.pc t).notifies = true

/-- At most one thread waits on the condition variable. -/
lemma System.Wakeful.one {c : System} (inv : c.Wakeful) : OneWaiter c.shared.waiters :=
  inv.waiter.imp_right fun h => h.imp fun _ => And.left

/-- A step of a flush thread wakes the one that waits, or parks it without work, or is made while none
waits. -/
lemma FlushStep.waiter {n s p s' p'} (st : FlushStep n s p s' p')
    (waiter : s.waiters = [] ∨ s.waiters = [n] ∧ p = .parked) :
    s'.waiters = [] ∨ s'.waiters = [n] ∧ p' = .parked ∧ ¬ s'.HasWork := by
  cases st with
  | park idle run =>
    obtain none | ⟨-, e⟩ := waiter
    · refine .inr ⟨congrArg (n :: ·) none, rfl, not_or.mpr ⟨not_not.mpr idle, fun stop => ?_⟩⟩
      cases run.symm.trans stop
    · cases e
  | spurious =>
    left
    show s.waiters.erase n = []
    obtain none | ⟨only, -⟩ := waiter
    · rw [none, List.erase_nil]
    · rw [only, List.erase_cons_head]
  | woken gone =>
    refine .inl (waiter.resolve_right fun h => gone ?_)
    rw [h.1]
    exact List.mem_singleton_self n
  | _ => exact .inl (waiter.resolve_right fun h => by cases h.2)

/-- A caller changes who waits only when it notifies. -/
lemma CallerStep.waiters_eq {n s p s' p'} (st : CallerStep n s p s' p') :
    s'.waiters = s.waiters ∨ ∃ us, p = .notify us := by
  cases st with
  | notify => exact .inr ⟨_, rfl⟩
  | _ => exact .inl rfl

/-- The controlling thread leaves those who wait alone, or wakes them all. -/
lemma ControlStep.waiters_eq {s i p s' p'} (st : ControlStep s i p s' p') :
    s'.waiters = s.waiters ∨ s'.waiters = [] := by
  cases st with
  | notifyAll => exact .inr rfl
  | _ => exact .inl rfl

/-- A notification that is due after a step of another thread was due before; a step that makes work
makes a notification due. -/
lemma System.Wakeful.due_step {c c' : System} {a} (inv : c.Wakeful) (st : c.step a = some c')
    (waiting : c.shared.waiters ≠ []) (waiting' : c'.shared.waiters ≠ []) (work : c'.shared.HasWork) :
    ∃ t, (c'.pc t).notifies = true := by
  have notified : ∀ us, c.pc a.1 = .caller (.notify us) → c'.shared.waiters = [] :=
    fun _ => System.notified inv.one st
  obtain ⟨st, pcs⟩ := c.step_inv st
  obtain work | now := st.work_inv work
  · obtain ⟨t, due⟩ := inv.due waiting work
    rcases eq_or_ne t a.1 with rfl | ne
    · obtain still | ⟨us, e⟩ | none := st.notifies_inv due
      · exact ⟨a.1, still⟩
      · exact absurd (notified us e) waiting'
      · exact absurd none waiting'
    · refine ⟨t, ?_⟩
      rw [pcs, Function.update_of_ne ne]
      exact due
  · exact ⟨a.1, now⟩

/-- The program counter of a caller, from what is known of it. -/
lemma System.pc_of_callerPc {c : System} {n p} (e : c.callerPc n = p) (busy : p ≠ .idle) :
    c.pc (.caller n) = .caller p := by
  unfold callerPc at e
  split at e
  case h_1 found => exact found.trans (congrArg _ e)
  case h_2 => exact absurd e.symm busy

/-- Every step leaves a notification due to a flush thread that waits while there is work. -/
lemma System.Wakeful.step {c c' : System} {a} (inv : c.Wakeful) (lc : c.Lifecycle)
    (st : c.step a = some c') : c'.Wakeful := by
  have empty : c'.shared.waiters = [] → c'.Wakeful :=
    fun none => ⟨.inl none, fun waiting => absurd none waiting⟩
  have same : c'.shared.waiters = c.shared.waiters → c'.flushPc = c.flushPc → c'.Wakeful := by
    intro e flush
    refine ⟨?_, fun waiting work => inv.due_step st (e ▸ waiting) waiting work⟩
    rw [e, flush]
    exact inv.waiter
  cases c.step_moves st with
  | caller ea st' _ flush =>
    obtain e | ⟨us, e⟩ := st'.waiters_eq
    · exact same e flush
    · have pc : c.pc a.1 = .caller (.notify us) := by
        rw [ea]
        exact pc_of_callerPc e nofun
      exact empty (System.notified inv.one st pc)
  | control _ st' _ flush =>
    obtain e | none := st'.waiters_eq
    · exact same e flush
    · exact empty none
  | @flush n p' _ st' _ flush =>
    -- the one that waits is the one that makes the step
    have waiter : c.shared.waiters = [] ∨ c.shared.waiters = [n] ∧ c.flushPc n = .parked := by
      refine inv.waiter.imp_right fun h => ?_
      obtain ⟨m, only, parked⟩ := h
      have eq : m = n := by
        by_contra ne
        have gone := lc.alone st' ne
        rw [parked] at gone
        exact gone.elim nofun nofun
      exact eq ▸ ⟨only, parked⟩
    obtain none | ⟨only, parked, idle⟩ := st'.waiter waiter
    · exact empty none
    · refine ⟨.inr ⟨n, only, ?_⟩, fun _ work => absurd work idle⟩
      rw [flush, Function.update_self]
      exact parked

/-- In every reachable state a flush thread that waits is woken if it has work. -/
theorem System.wakeful {C as c} (run : Run step C init as c) : c.Wakeful := by
  refine run.invariant_under (J := Lifecycle) (I := Wakeful) (fun _ _ _ lc _ st => lc.step st)
    (fun _ _ _ lc inv _ st => inv.step lc st) Lifecycle.init ?_
  exact ⟨.inl rfl, fun waiting => absurd rfl waiting⟩

/-- A thread that still has to notify is not done. -/
lemma Pc.not_done {p : Pc} (due : p.notifies = true) : p.done = false := by
  cases p with
  | caller p =>
    cases p with
    | unlock | notify => rfl
    | _ => cases due
  | flush => cases due
  | control p =>
    cases p with
    | stopUnlock | notifyAll => rfl
    | _ => cases due

/-- While a flush thread oversleeps, another thread has pushed an update or cleared `running_` and has
its notification still before it; it has left the critical section in which it did so, or is still
inside. So the others are not all done. -/
theorem no_lost_wakeup {C as c n} (run : Run System.step C System.init as c)
    (oversleeps : c.Oversleeps n) :
    (∃ t, (c.pc t).notifies ∧ ((c.pc t).holds = false ∨ c.shared.mutex = some t)) ∧
      ¬ ∀ t, t ≠ .flush n → (c.pc t).done := by
  obtain ⟨parked, waits, work⟩ := oversleeps
  obtain ⟨t, due⟩ := (System.wakeful run).due (List.ne_nil_of_mem waits) work
  refine ⟨⟨t, due, ?_⟩, fun done => ?_⟩
  · cases inside : (c.pc t).holds with
    | false => exact .inl rfl
    | true => exact .inr ((System.mutexHeld run t).mp inside)
  · have other : t ≠ .flush n := by
      rintro rfl
      rw [parked] at due
      cases due
    cases (done t other).symm.trans (Pc.not_done due)

/-- A caller pushes an update while flush thread 0 is parked, and makes `k` steps in all. -/
def pushing (k : Nat) : List (Thread × Choice) :=
  startBridge ++ park 0 ++ [(.caller 0, .apply [reading])] ++ steps (.caller 0) k

/-- After two or three steps of the push the flush thread sleeps though the queue is not empty. -/
lemma pushing_oversleeps {k c} (two : k = 2 ∨ k = 3)
    (e : exec System.step System.init (pushing k) = some c) : c.Oversleeps 0 := by
  obtain rfl | rfl := two
  · cases e
    exact ⟨rfl, List.mem_cons_self, .inl (List.cons_ne_nil _ _)⟩
  · cases e
    exact ⟨rfl, List.mem_cons_self, .inl (List.cons_ne_nil _ _)⟩

/-- When it has left its critical section, its notification is due. -/
theorem pushing_notifies :
    ∃ c, Run System.step Always System.init (pushing 3) c ∧
      c.pc (.caller 0) = .caller (.notify []) ∧ c.Oversleeps 0 ∧
      ¬ ∀ t, t ≠ .flush 0 → (c.pc t).done := by
  have asleep : ∀ c, Run System.step Always System.init (pushing 3) c → c.Oversleeps 0 →
      ¬ ∀ t, t ≠ .flush 0 → (c.pc t).done := fun c run sleeps => (no_lost_wakeup run sleeps).2
  have sleeps := fun c => pushing_oversleeps (c := c) (.inr rfl)
  exact ⟨_, Run.of_exec rfl, rfl, sleeps _ rfl, asleep _ (Run.of_exec rfl) (sleeps _ rfl)⟩

/-- Before that nobody has left a critical section with a notification before it. -/
theorem pushing_inside :
    ∃ c, Run System.step Always System.init (pushing 2) c ∧ c.Oversleeps 0 ∧
      c.shared.mutex = some (.caller 0) ∧ ¬ ∃ t, (c.pc t).notifies ∧ (c.pc t).holds = false := by
  have threads : ∀ a ∈ pushing 2, a.1 = .control ∨ a.1 = .flush 0 ∨ a.1 = .caller 0 := by decide
  have inside : ∀ c, exec System.step System.init (pushing 2) = some c →
      ¬ ∃ t, (c.pc t).notifies ∧ (c.pc t).holds = false := by
    intro c e h
    obtain ⟨t, due, out⟩ := h
    by_cases stepped : t = .control ∨ t = .flush 0 ∨ t = .caller 0
    · cases e
      obtain rfl | rfl | rfl := stepped
      · cases due
      · cases due
      · cases out
    · have still : c.pc t = System.init.pc t := by
        refine Conf.run_other (Run.of_exec e) fun a mem eq => stepped ?_
        exact eq ▸ threads a mem
      rw [still] at due
      cases t <;> cases due
  exact ⟨_, Run.of_exec rfl, pushing_oversleeps (.inl rfl) rfl, rfl, inside _ rfl⟩

end Dnp3Bridge.Bridge
