import Dnp3Bridge.Dispatcher.Step

/-!
# The dispatcher is a map of promises

Every step of a bridge process is a move over its map of promises or leaves both the map and the
phase of its thread alone (`Step.move`), so a process is always a `Meeting`: a dispatch call is the
asker of its command id, a fulfill call an answerer. The rest of this module carries the properties of
meetings over to runs of the process.
-/

namespace Dnp3Bridge.Dispatcher
open Concurrency Proto

/-- The phase of a dispatch call. -/
def DispatchPc.phase : DispatchPc → Phase Tid UInt64 CommandStatus
  | .lockPending req | .insert req => .named req.commandId
  | .insertThrows req => .clashed req.commandId
  | .unlockPending req | .lockWriter req | .checkWriter req | .write req _ => .opened req.commandId
  | .failLock id _ | .failErase id _ | .unlockWriter id | .waitFor id | .timeoutLock id
  | .timeoutErase id | .get id => .opened id
  | .failUnlockPending id _ | .failUnlockWriter id _ | .timeoutUnlock id => .withdrawn id
  | .returned id (.failed _) => .withdrawn id
  | .returned id (.answered st) => .took id st
  | .returned id .brokenPromise => .broke id
  | .returned id .futureAlreadyRetrieved => .clashed id

/-- The command id of a dispatch call. -/
def DispatchPc.commandId : DispatchPc → UInt64
  | .lockPending req | .insert req | .insertThrows req | .unlockPending req | .lockWriter req
  | .checkWriter req | .write req _ => req.commandId
  | .failLock id _ | .failErase id _ | .failUnlockPending id _ | .failUnlockWriter id _
  | .unlockWriter id | .waitFor id | .timeoutLock id | .timeoutErase id | .timeoutUnlock id
  | .get id | .returned id _ => id

/-- The phase of a fulfill call. -/
def FulfillPc.phase : FulfillPc → Phase Tid UInt64 CommandStatus
  | .lock id st | .body id st => .asking id st
  | .unlock id st (some u) | .returned id st (some u) => .hit id st u
  | .unlock id st none | .returned id st none => .missed id st
  | .unwind id st | .threw id st => .overset id st

/-- The phase of a thread. -/
def Pc.phase : Pc → Phase Tid UInt64 CommandStatus
  | .dispatch p => p.phase
  | .fulfill p => p.phase
  | .idle | .stream _ | .token _ => .idle

/-- The phases of all threads. -/
def Process.phases (c : Process) : Tid → Phase Tid UInt64 CommandStatus :=
  fun t => (c.pc t).phase

/-- A dispatch call is an asker of its own id in all its phases. -/
lemma DispatchPc.phase_key (p : DispatchPc) : p.phase.key = some p.commandId := by
  cases p with
  | returned id e => cases e <;> rfl
  | _ => rfl

/-- A fulfill call is no asker. -/
lemma FulfillPc.phase_ne_opened (p : FulfillPc) (k : UInt64) : p.phase ≠ .opened k := by
  intro e
  cases p with
  | unlock id st owner => cases owner <;> cases e
  | returned id st owner => cases owner <;> cases e
  | _ => cases e

/-- A step of a dispatch call moves over the map or leaves it alone. -/
lemma DispatchStep.move {t s p s' p'} (st : DispatchStep t s p s' p') :
    (s'.promises = s.promises ∧ p'.phase = p.phase) ∨
      Move t s.promises p.phase s'.promises p'.phase := by
  cases st with
  | insert free => exact .inr (.emplace free)
  | clash taken => exact .inr (.clash taken)
  | failErase => exact .inr .withdraw
  | timeoutErase => exact .inr .withdraw
  | get val => exact .inr (.take val)
  | getThrows brk => exact .inr (.break brk)
  | _ => exact .inl ⟨rfl, rfl⟩

/-- A step of a fulfill call moves over the map or leaves it alone. -/
lemma FulfillStep.move {t s p s' p'} (st : FulfillStep t s p s' p') :
    (s'.promises = s.promises ∧ p'.phase = p.phase) ∨
      Move t s.promises p.phase s'.promises p'.phase := by
  cases st with
  | miss free => exact .inr (.miss free)
  | hit found set => exact .inr (.hit found set)
  | setThrows found set => exact .inr (.overset found set)
  | @unlock _ _ owner => cases owner <;> exact .inl ⟨rfl, rfl⟩
  | _ => exact .inl ⟨rfl, rfl⟩

/-- The steps of `StreamCommands` leave the map alone. -/
lemma StreamStep.promises_eq {t s p s' p'} (st : StreamStep t s p s' p') :
    s'.promises = s.promises := by
  cases st <;> rfl

/-- The steps of a token operation leave the map alone. -/
lemma TokenStep.promises_eq {t s p s' p'} (st : TokenStep t s p s' p') :
    s'.promises = s.promises := by
  cases st <;> rfl

/-- The start of a call draws a key, asks for one, or leaves the map alone. -/
lemma StartStep.move {t s c s' p'} (st : StartStep t s c s' p') :
    (s'.promises = s.promises ∧ p'.phase = .idle) ∨
      Move t s.promises .idle s'.promises p'.phase := by
  cases st with
  | dispatch => exact .inr .name
  | fulfill => exact .inr .ask
  | _ => exact .inl ⟨rfl, rfl⟩

/-- Every step of a thread is a move over the map of promises, or leaves the map and the phase of
the thread alone. -/
theorem Step.move {t s i p s' p'} (st : Step t s i p s' p') :
    (s'.promises = s.promises ∧ p'.phase = p.phase) ∨
      Move t s.promises p.phase s'.promises p'.phase := by
  cases st with
  | start st => exact st.move
  | dispatch st => exact st.move
  | fulfill st => exact st.move
  | stream st => exact .inl ⟨st.promises_eq, rfl⟩
  | token st => exact .inl ⟨st.promises_eq, rfl⟩

/-- A step changes the phase of its own thread only. -/
lemma Process.step_phases {c c' : Process} {a} (st : c.step a = some c') :
    c'.phases = Function.update c.phases a.1 (c'.phases a.1) := by
  obtain ⟨-, pcs⟩ := c.step_inv st
  exact update_pc pcs Pc.phase

/-- A step of a process is a move of one thread over the map of promises, or changes neither the map
nor any phase. -/
theorem Process.step_move {c c' : Process} {a} (st : c.step a = some c') :
    (c'.shared.promises = c.shared.promises ∧ c'.phases = c.phases) ∨
      Move a.1 c.shared.promises (c.phases a.1) c'.shared.promises (c'.phases a.1) ∧
        c'.phases = Function.update c.phases a.1 (c'.phases a.1) := by
  have phs := c.step_phases st
  obtain ⟨st, -⟩ := c.step_inv st
  obtain ⟨em, ep⟩ | mv := st.move
  · refine .inl ⟨em, phs.trans ?_⟩
    rw [show c'.phases a.1 = c.phases a.1 from ep]
    exact Function.update_eq_self ..
  · exact .inr ⟨mv, phs⟩

/-- A bridge process is a meeting over its map of promises. -/
abbrev Process.Meets (c : Process) : Prop := Meeting c.shared.promises c.phases

/-- A step keeps the meeting. -/
lemma Process.Meets.step {c c' : Process} {a} (inv : c.Meets) (st : c.step a = some c') :
    c'.Meets := by
  obtain ⟨em, ep⟩ | ⟨mv, ep⟩ := c.step_move st
  · unfold Meets
    rw [em, ep]
    exact inv
  · unfold Meets
    rw [ep]
    exact inv.move mv

/-- Every reachable state of a process is a meeting. -/
theorem Process.meets {C as c} (run : Run step C init as c) : c.Meets :=
  run.invariant (fun _ _ _ inv _ st => inv.step st) Meeting.init

end Dnp3Bridge.Dispatcher
