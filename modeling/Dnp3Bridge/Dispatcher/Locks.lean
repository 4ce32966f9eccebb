import Dnp3Bridge.Dispatcher.Step

/-!
# The critical sections of the dispatcher

Every step of a call takes a mutex when it is free, gives it back, or leaves it alone, as its program
counter says, so no two calls are ever inside `writer_mutex_`, and no two are inside `pending_mutex_`.
-/

namespace Dnp3Bridge.Dispatcher
open Concurrency Proto

/-- The call holds `writer_mutex_`. -/
def Pc.holdsWriter : Pc → Bool
  | .dispatch (.checkWriter _) | .dispatch (.write _ _) | .dispatch (.failLock _ _)
  | .dispatch (.failErase _ _) | .dispatch (.failUnlockPending _ _)
  | .dispatch (.failUnlockWriter _ _) | .dispatch (.unlockWriter _) => true
  | .stream (.register _) | .stream (.unlock _) => true
  | .token (.body _ _) | .token (.unlock _ _) => true
  | _ => false

/-- What a step does with `writer_mutex_`. -/
lemma Step.writerLock {t s i p s' p'} (st : Step t s i p s' p') :
    LockStep t s.writerMutex p.holdsWriter s'.writerMutex p'.holdsWriter := by
  cases st with
  | start st => cases st <;> exact .stay
  | fulfill st => cases st <;> exact .stay
  | dispatch st =>
    cases st with
    | lockWriter free =>
      rw [free]
      exact .acquire
    | failUnlockWriter => exact .release
    | unlockWriter => exact .release
    | _ => exact .stay
  | stream st =>
    cases st with
    | lock free =>
      rw [free]
      exact .acquire
    | unlock => exact .release
    | _ => exact .stay
  | token st =>
    cases st with
    | lock free =>
      rw [free]
      exact .acquire
    | unlock => exact .release
    | _ => exact .stay

/-- The owner of `writer_mutex_` is the call that is inside it. -/
def Process.WriterHeld (c : Process) : Prop :=
  Held c.shared.writerMutex fun t => (c.pc t).holdsWriter

/-- Every step keeps `writer_mutex_` with the thread that is inside it. -/
lemma Process.WriterHeld.step {c c' : Process} {a} (held : c.WriterHeld) (st : c.step a = some c') :
    c'.WriterHeld := by
  obtain ⟨st, pcs⟩ := c.step_inv st
  have next := Held.step held st.writerLock
  unfold WriterHeld
  rw [update_pc pcs Pc.holdsWriter]
  exact next

/-- In every reachable state `writer_mutex_` is held as the program counters say. -/
theorem Process.writerHeld {C as c} (run : Run step C init as c) : c.WriterHeld := by
  refine run.invariant (fun _ _ _ held _ st => held.step st) ?_
  intro t
  constructor <;> intro e <;> cases e

/-- The call holds `pending_mutex_`. -/
def Pc.holdsPending : Pc → Bool
  | .dispatch (.insert _) | .dispatch (.insertThrows _) | .dispatch (.unlockPending _)
  | .dispatch (.failErase _ _) | .dispatch (.failUnlockPending _ _)
  | .dispatch (.timeoutErase _) | .dispatch (.timeoutUnlock _) => true
  | .fulfill (.body _ _) | .fulfill (.unlock _ _ _) | .fulfill (.unwind _ _) => true
  | _ => false

/-- What a step does with `pending_mutex_`. -/
lemma Step.pendingLock {t s i p s' p'} (st : Step t s i p s' p') :
    LockStep t s.pendingMutex p.holdsPending s'.pendingMutex p'.holdsPending := by
  cases st with
  | start st => cases st <;> exact .stay
  | stream st => cases st <;> exact .stay
  | token st => cases st <;> exact .stay
  | dispatch st =>
    cases st with
    | lockPending free | failLock free | timeoutLock free =>
      rw [free]
      exact .acquire
    | insertThrows | unlockPending | failUnlockPending | timeoutUnlock => exact .release
    | _ => exact .stay
  | fulfill st =>
    cases st with
    | lock free =>
      rw [free]
      exact .acquire
    | unlock | unwind => exact .release
    | _ => exact .stay

/-- The owner of `pending_mutex_` is the call that is inside it. -/
def Process.PendingHeld (c : Process) : Prop :=
  Held c.shared.pendingMutex fun t => (c.pc t).holdsPending

/-- Every step keeps `pending_mutex_` with the thread that is inside it. -/
lemma Process.PendingHeld.step {c c' : Process} {a} (held : c.PendingHeld)
    (st : c.step a = some c') : c'.PendingHeld := by
  obtain ⟨st, pcs⟩ := c.step_inv st
  have next := Held.step held st.pendingLock
  unfold PendingHeld
  rw [update_pc pcs Pc.holdsPending]
  exact next

/-- In every reachable state `pending_mutex_` is held as the program counters say. -/
theorem Process.pendingHeld {C as c} (run : Run step C init as c) : c.PendingHeld := by
  refine run.invariant (fun _ _ _ held _ st => held.step st) ?_
  intro t
  constructor <;> intro e <;> cases e

end Dnp3Bridge.Dispatcher
