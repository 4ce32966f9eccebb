import Dnp3Bridge.Dispatcher.Meeting

/-!
# Agreement of the two ends of a command

The client of `RespondToCommand` and the master must not be told different things about one command.
`dispatch` decides that it has timed out, or that it cannot write, before it takes `pending_mutex_`
and erases its entry; an answer that arrives in between is accepted and lost. Agreement holds in
every run in which no early return comes that late (`ErasesOwnEntry`).
-/

namespace Dnp3Bridge.Dispatcher
open Concurrency Proto

/-- The status that `dispatch` returns; nothing if it throws. -/
def Exit.returns : Exit → Option CommandStatus
  | .failed e => some e.status
  | .answered st => some st
  | .brokenPromise | .futureAlreadyRetrieved => none

/-- If a fulfill call has returned true, then the dispatch call whose entry it found returns, if at
all, the status it was given. -/
def Agreement (c : Process) : Prop :=
  ∀ f id st t, c.pc f = .fulfill (.returned id st (some t)) →
    ∀ id' e, c.pc t = .dispatch (.returned id' e) → id' = id ∧ e.returns = some st

/-- The early returns of `dispatch` are about to erase the entry of `id`. -/
def Pc.erasing : Pc → Option UInt64
  | .dispatch (.failErase id _) | .dispatch (.timeoutErase id) => some id
  | _ => none

/-- An early return of `dispatch` erases its entry while the entry is still there. -/
def ErasesOwnEntry (c : Process) (a : Tid × Choice) : Prop :=
  ∀ id ∈ (c.pc a.1).erasing, c.shared.promises.pending id = some a.1

instance (c : Process) (a : Tid × Choice) : Decidable (ErasesOwnEntry c a) :=
  Option.decidableForallMem (p := fun id => c.shared.promises.pending id = some a.1) _

/-- Only an early return leaves the map without an answer. -/
lemma DispatchStep.erasing_of_withdrawn {t s p s' p' k} (st : DispatchStep t s p s' p')
    (opn : p.phase = .opened k) (wd : p'.phase = .withdrawn k) :
    (Pc.dispatch p).erasing = some k := by
  cases st with
  | failErase =>
    cases opn
    rfl
  | timeoutErase =>
    cases opn
    rfl
  | _ => first | (cases wd; done) | cases opn

/-- A step that erases an entry under the condition is tidy. -/
lemma Process.step_tidy {c c' : Process} {a} (st : c.step a = some c') (own : ErasesOwnEntry c a) :
    Tidy a.1 c.shared.promises (c.phases a.1) (c'.phases a.1) := by
  obtain ⟨t, i⟩ := a
  intro k opn wd
  obtain ⟨st, -⟩ := c.step_inv st
  generalize ep : c.pc t = p at st
  generalize ep' : c'.pc t = p' at st
  simp only [phases, ep, ep'] at opn wd
  have er := own k
  rw [ep] at er
  cases st with
  | dispatch st => exact er (st.erasing_of_withdrawn opn wd)
  | @fulfill _ p => exact absurd opn (p.phase_ne_opened k)
  | _ => cases opn

/-- A step under the condition leaves no asker without an answer whose promise has been set. -/
lemma Process.step_leftBroken {c c' : Process} {a} (inv : c.Meets)
    (left : LeftBroken c.shared.promises c.phases) (own : ErasesOwnEntry c a)
    (st : c.step a = some c') : LeftBroken c'.shared.promises c'.phases := by
  have tidy := c.step_tidy st own
  obtain ⟨em, ep⟩ | ⟨mv, ep⟩ := c.step_move st
  · rw [em, ep]
    exact left
  · rw [ep]
    exact left.move inv mv tidy

/-- In a run whose early returns all erase their own entry, no asker whose promise has been set leaves
without its answer. -/
lemma Process.leftBroken {as c} (run : Run step ErasesOwnEntry init as c) :
    LeftBroken c.shared.promises c.phases := by
  refine run.invariant_under (J := Meets) (I := fun c => LeftBroken c.shared.promises c.phases)
    (fun _ _ _ inv _ st => inv.step st) ?_ Meeting.init ?_
  · intro c a c' inv left own st
    exact c.step_leftBroken inv left own st
  · intro t k e
    cases e

/-- If every early return of `dispatch` erases its entry while the entry is still there, a fulfill
call that returns true is answered by the same status on the other side. -/
theorem agreement_of_erasesOwnEntry {as c}
    (run : Run Process.step ErasesOwnEntry Process.init as c) : Agreement c := by
  intro f id st t ef id' e et
  have inv := Process.meets run
  have hit : c.phases f = .hit id st t := by
    rw [Process.phases, ef]
    rfl
  have pt : c.phases t = (DispatchPc.returned id' e).phase := by
    rw [Process.phases, et]
    rfl
  obtain opn | took := inv.agree (Process.leftBroken run) hit
  · rw [pt] at opn
    cases e <;> cases opn
  · rw [pt] at took
    cases e with
    | answered st' =>
      cases took
      exact ⟨rfl, rfl⟩
    | _ => cases took

/-- The request of the examples below: close relay 3. -/
def closeRelay : CommandRequest :=
  ⟨0, 3, .crob, some (.crob ⟨.latchOn, 1, 100, 100⟩)⟩

/-- Stream call `t` registers the writer `w` and holds its token in the object `k`. -/
def openStream (t : Tid) (w : Writer) (k : Object) : List (Tid × Choice) :=
  [(t, .call (.streamCommands w)), (t, .go), (t, .go), (t, .go), (t, .object k)]

/-- Dispatch call `t` writes a command and waits. -/
def writeCommand (t : Tid) (req : CommandRequest) : List (Tid × Choice) :=
  [(t, .call (.dispatch req)), (t, .go), (t, .go), (t, .go), (t, .go), (t, .go),
    (t, .writeReturns true), (t, .go)]

/-- Call 0 is answered in time; call 3 waits in vain and erases its entry. -/
def timelyAnswer : List (Tid × Choice) :=
  openStream 1 7 0 ++ writeCommand 0 closeRelay ++
    [(2, .call (respondToCommand ⟨1, .success⟩)), (2, .go), (2, .go), (2, .go), (0, .go), (0, .go)] ++
    writeCommand 3 closeRelay ++ [(3, .expire), (3, .go), (3, .go), (3, .go)]

/-- The agreement of a run with an answer and a timeout. -/
theorem timelyAnswer_agrees :
    ∃ c, Run Process.step ErasesOwnEntry Process.init timelyAnswer c ∧
      c.pc 2 = .fulfill (.returned 1 .success (some 0)) ∧
      c.pc 3 = .dispatch (.returned 2 (.failed .timedOut)) ∧ Agreement c := by
  refine ⟨_, Run.of_exec_guarded rfl, rfl, rfl, ?_⟩
  exact @agreement_of_erasesOwnEntry timelyAnswer _ (Run.of_exec_guarded rfl)

/-- The wait of call 0 times out; before it takes `pending_mutex_`, the client answers `SUCCESS`. -/
def lateAnswer : List (Tid × Choice) :=
  openStream 1 7 0 ++ writeCommand 0 closeRelay ++
    [(0, .expire),
      (2, .call (respondToCommand ⟨1, .success⟩)), (2, .go), (2, .go), (2, .go),
      (0, .go), (0, .go), (0, .go)]

/-- After the late answer the client has been told that its `SUCCESS` was accepted, and the master
has been told `TIMEOUT`. -/
theorem lateAnswer_disagrees :
    ∃ c, Run Process.step Always Process.init lateAnswer c ∧
      c.pc 2 = .fulfill (.returned 1 .success (some 0)) ∧
      c.pc 0 = .dispatch (.returned 1 (.failed .timedOut)) ∧ ¬ Agreement c := by
  refine ⟨_, Run.of_exec rfl, rfl, rfl, ?_⟩
  intro agree
  cases (agree 2 1 .success 0 rfl 1 (.failed .timedOut) rfl).2

end Dnp3Bridge.Dispatcher
