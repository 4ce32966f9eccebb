import Dnp3Bridge.Concurrency.Ranking
import Dnp3Bridge.Dispatcher.Verdicts
import Dnp3Bridge.Outstation.Forwarding

/-!
# What a master is told

The way of a command from `Operate` to the client and back. The bridge makes up three statuses itself,
`NOT_SUPPORTED`, `DOWNSTREAM_FAIL` and `TIMEOUT`, and none of them reports a success; every other status
that a master is told has been given by the client, for the command of this master and for no other.
-/

namespace Dnp3Bridge.Outstation
open Concurrency Dispatcher Proto

/-- In a process with its service and its outstation, `dispatch` is called by `Operate` and `fulfill` by
`RespondToCommand`. -/
def FromCallbacks (_ : Process) (a : Tid × Choice) : Prop :=
  (∀ req, a.2 = .call (.dispatch req) → ∃ command index opType,
    (ForwardingCommandHandler.operate none command index opType).dispatched = [req]) ∧
  ∀ id st, a.2 = .call (.fulfill id st) → ∃ response, respondToCommand response = .fulfill id st

/-- The thread `t` has begun to operate a command. -/
def Operates (as : List (Tid × Choice)) (t : Tid) (command : Command) (index : UInt16) : Prop :=
  ∃ opType req, (ForwardingCommandHandler.operate none command index opType).dispatched = [req] ∧
    Begins as t (.dispatch req)

/-- The client has begun to respond in the thread `f`. -/
def Responds (as : List (Tid × Choice)) (f : Tid) (response : CommandResponse) : Prop :=
  Begins as f (respondToCommand response)

/-- The statuses that a `dispatch` makes up itself. -/
def OwnStatus (st : CommandStatus) : Prop :=
  st = .notSupported ∨ st = .downstreamFail ∨ st = .timeout

instance (st : CommandStatus) : Decidable (OwnStatus st) :=
  inferInstanceAs (Decidable (_ ∨ _ ∨ _))

/-- The message that the client gets of a command. -/
def message (id : UInt64) (command : Command) (index : UInt16) : CommandRequest :=
  ⟨id, index.toUInt32, (carried command).1, some (carried command).2⟩

/-- A status that is not made up is that of an answer. -/
lemma Exit.answered_of_told {e : Exit} (given : ¬ OwnStatus e.told) : e = .answered e.told := by
  cases e with
  | answered st => rfl
  | failed reason =>
    cases reason with
    | noWriter => exact absurd (.inl rfl) given
    | writeFailed => exact absurd (.inr (.inl rfl)) given
    | timedOut => exact absurd (.inr (.inr rfl)) given
  | brokenPromise | futureAlreadyRetrieved => exact absurd (.inr (.inl rfl)) given

/-- Only the result that says so means success. -/
lemma toCommandStatus_eq_success {r : CommandResultStatus} (e : toCommandStatus r = .success) :
    r = .success := by
  cases r with
  | success => rfl
  | _ => cases e

section Runs
variable {as : List (Tid × Choice)} {c : Process}

/-- Every answer to a command is that of a response of the client. -/
lemma exists_responds (run : Run Process.step FromCallbacks Process.init as c) {f p}
    (pc : c.pc f = .fulfill p) :
    ∃ result, Responds as f ⟨p.asked.1, result⟩ ∧ toCommandStatus result = p.asked.2 := by
  have origin := Process.origin (run.mono fun _ _ _ => trivial)
  have calls : ∀ a ∈ as, FromCallbacks Process.init a := run.forall_mem fun _ _ called => called
  have answers : Begins as f (.fulfill p.asked.1 p.asked.2) := origin.answer pc
  obtain ⟨⟨id', result⟩, response⟩ := (calls _ answers.mem).2 _ _ rfl
  obtain ⟨rfl, status⟩ := Call.fulfill.inj response
  refine ⟨result, ?_, status⟩
  rw [Responds, response]
  exact answers

/-- With fewer than 2^64 commands the pending table is in order. -/
lemma pendingTable_of_callbacks (run : Run Process.step FromCallbacks Process.init as c)
    (few : c.shared.hist.dispatches < 2 ^ 64) : PendingTable c := by
  have always : Run Process.step Always Process.init as c := run.mono fun _ _ _ => trivial
  have fresh := Process.freshId_of_few always rfl few
  exact Process.pendingTable (Process.meets always) (Process.idsDrawn fresh) (Process.noneBroke fresh)

end Runs

/-- Every status that a master is told, other than the three that the bridge makes up, comes from the
client: the command has been written to a stream, once and with everything that a request keeps of it,
and the client has responded to the id of this message with a result that means this status; it is the
only response to the id that has been accepted. In particular a master is told of a success only if the
client has reported one. -/
theorem told_by_client {as c} (run : Run Process.step FromCallbacks Process.init as c)
    (few : c.shared.hist.dispatches < 2 ^ 64) {t id e} (pc : c.pc t = .dispatch (.returned id e))
    (given : ¬ OwnStatus e.told) : ∃ command index w f result,
      Operates as t command index ∧
      c.shared.hist.writes.filter (fun x => x.1 = t) = [(t, w, message id command index)] ∧
      Responds as f ⟨id, result⟩ ∧ toCommandStatus result = e.told ∧
      (e.told = .success → result = .success) ∧
      c.Fulfills f id e.told t ∧ ∀ f' st u, c.Fulfills f' id st u → f' = f := by
  have always : Run Process.step Always Process.init as c := run.mono fun _ _ _ => trivial
  have calls : ∀ a ∈ as, FromCallbacks Process.init a := run.forall_mem fun _ _ called => called
  have table := pendingTable_of_callbacks run few
  have origin := Process.origin always
  rw [Exit.answered_of_told given] at pc
  -- the message is the request of the command with the id of the call
  obtain ⟨w, req, begins, sent⟩ := (Process.writes always).sent origin pc rfl
  obtain ⟨command, index, opType, dispatched⟩ := (calls _ begins.mem).1 req rfl
  have content := dispatched
  rw [operate_dispatched] at content
  obtain rfl := (List.cons.inj content).1
  -- the answer is that of a response to this id
  obtain ⟨f, ful⟩ := table.answered pc
  obtain ⟨result, responds, status⟩ :
      ∃ result, Responds as f ⟨id, result⟩ ∧ toCommandStatus result = e.told := by
    obtain ef | ef := ful
    · exact exists_responds run ef
    · exact exists_responds run ef
  refine ⟨command, index, w, f, result, ⟨opType, _, dispatched, begins⟩, sent, responds, status, ?_,
    ful, fun _ _ _ ful' => table.fulfilled_once ful' ful⟩
  intro success
  exact toCommandStatus_eq_success (status.trans success)

/-- The client is told of success for a response exactly if a dispatch call of this id has been given
its status, and so for one response to an id at most. -/
theorem client_answered {as c} (run : Run Process.step FromCallbacks Process.init as c)
    (few : c.shared.hist.dispatches < 2 ^ 64) {f id st owner}
    (pc : c.pc f = .fulfill (.returned id st owner)) :
    (∃ result, Responds as f ⟨id, result⟩ ∧ toCommandStatus result = st) ∧
      ((respondToCommandResponse owner.isSome).success = true ↔ ∃ t, c.Fulfills f id st t) ∧
      ∀ f' st' owner', c.pc f' = .fulfill (.returned id st' owner') →
        (respondToCommandResponse owner.isSome).success = true →
        (respondToCommandResponse owner'.isSome).success = true → f' = f := by
  have table := pendingTable_of_callbacks run few
  have accepted : ∀ {f st owner}, c.pc f = .fulfill (.returned id st owner) →
      ((respondToCommandResponse owner.isSome).success = true ↔ ∃ t, c.Fulfills f id st t) := by
    intro f st owner pc
    constructor
    · intro success
      obtain ⟨t, rfl⟩ := Option.isSome_iff_exists.mp success
      exact ⟨t, .inr pc⟩
    · rintro ⟨t, ful | ful⟩
      · cases pc.symm.trans ful
      · cases pc.symm.trans ful
        rfl
  refine ⟨exists_responds run pc, accepted pc, fun f' st' owner' pc' success success' => ?_⟩
  obtain ⟨t, ful⟩ := (accepted pc).mp success
  obtain ⟨t', ful'⟩ := (accepted pc').mp success'
  exact table.fulfilled_once ful' ful

/-- A call of `dispatch` or `fulfill` begins. -/
def isCallback : Choice → Bool
  | .call (.dispatch _) | .call (.fulfill ..) => true
  | _ => false

/-- A step that begins neither of these calls comes from the callbacks. -/
lemma fromCallbacks_of_not {c : Process} {a : Tid × Choice} (other : isCallback a.2 = false) :
    FromCallbacks c a := by
  obtain ⟨t, i⟩ := a
  refine ⟨fun req e => ?_, fun id st e => ?_⟩
  · cases e
    cases other
  · cases e
    cases other

/-- The answered command is that of a master that closes a relay. -/
theorem answeredCommand_told :
    ∃ c, Run Process.step FromCallbacks Process.init answeredCommand c ∧
      c.pc 0 = .dispatch (.returned 1 (.answered .success)) ∧
      ∃ command index w f result, Operates answeredCommand 0 command index ∧
        c.shared.hist.writes.filter (fun x => x.1 = 0) = [(0, w, message 1 command index)] ∧
        Responds answeredCommand f ⟨1, result⟩ ∧ result = .success := by
  have callbacks : ∀ a ∈ answeredCommand, ∀ c, FromCallbacks c a := by
    intro a mem c
    cases own : isCallback a.2 with
    | false => exact fromCallbacks_of_not own
    | true =>
      have only : a ∈ answeredCommand.filter fun a => isCallback a.2 := List.mem_filter.mpr ⟨mem, own⟩
      rcases List.mem_pair.mp only with rfl | rfl
      · refine ⟨fun req e => ?_, nofun⟩
        cases e
        exact ⟨.crob { opType := .latchOn, tcc := .close }, 3, .directOperate, rfl⟩
      · refine ⟨nofun, fun id st e => ?_⟩
        cases e
        exact ⟨⟨1, .success⟩, rfl⟩
  have told : ∀ c, exec Process.step Process.init answeredCommand = some c →
      c.shared.hist.dispatches < 2 ^ 64 → c.pc 0 = .dispatch (.returned 1 (.answered .success)) →
      Run Process.step FromCallbacks Process.init answeredCommand c ∧
        ∃ command index w f result, Operates answeredCommand 0 command index ∧
          c.shared.hist.writes.filter (fun x => x.1 = 0) = [(0, w, message 1 command index)] ∧
          Responds answeredCommand f ⟨1, result⟩ ∧ result = .success := by
    intro c e few pc
    have run : Run Process.step FromCallbacks Process.init answeredCommand c :=
      (Run.of_exec e).of_mem.mono fun c a inside => callbacks a inside.2 c
    obtain ⟨command, index, w, f, result, operates, sent, responds, -, success, -⟩ :=
      told_by_client run few pc (by decide)
    exact ⟨run, command, index, w, f, result, operates, sent, responds, success rfl⟩
  obtain ⟨run, success⟩ := told _ rfl (by decide) rfl
  exact ⟨_, run, rfl, success⟩

end Dnp3Bridge.Outstation
