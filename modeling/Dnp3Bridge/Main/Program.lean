import Dnp3Bridge.Dispatcher.Scopes
import Dnp3Bridge.Main.Termination
import Dnp3Bridge.Outstation.CommandHandler

/-!
# The program with its commands

`main` and its components, together with the `CommandDispatcher`: beside the calls of `UpdatePoints` the
server takes those of `StreamCommands` and `RespondToCommand`, and while the outstation is there the
threads of opendnp3 call `Operate`. Both shutdowns wait. That of the server lets the calls of all three
kinds finish; a `StreamCommands` call goes round its loop until its context is cancelled, by its client
or, when the deadline has passed, by the server. That of the manager lets the commands in progress
finish.

The program moves no token: the only operation on one is the destructor at the end of its handler, which
has a thread of its own here.
-/

namespace Dnp3Bridge.Dispatcher
open Concurrency Proto

/-- The call has not begun or has returned. -/
def Pc.ended : Pc → Bool
  | .idle | .dispatch (.returned _ _) | .fulfill (.returned _ _ _) | .fulfill (.threw _ _)
  | .stream (.returned _) | .token .done => true
  | _ => false

/-- The call is one of the server. -/
def Pc.served : Pc → Bool
  | .stream _ | .fulfill _ | .token _ => true
  | .idle | .dispatch _ => false

/-- The environment starts a call. -/
def Choice.isCall : Choice → Bool
  | .call _ => true
  | _ => false

/-- A thread that has made a step is in a call. -/
lemma Step.ne_idle {t s i p s' p'} (st : Step t s i p s' p') : p' ≠ .idle := by
  cases st with
  | start st => cases st <;> nofun
  | _ => nofun

/-- Only a call that has begun and not returned goes on, and it goes on as the call that it is. -/
lemma Step.own_inv {t s i p s' p'} (st : Step t s i p s' p') (own : i.isCall = false) :
    p ≠ .idle ∧ p.ended = false ∧ p'.served = p.served := by
  cases st with
  | start => cases own
  | dispatch st => cases st <;> exact ⟨nofun, rfl, rfl⟩
  | fulfill st => cases st <;> exact ⟨nofun, rfl, rfl⟩
  | stream st => cases st <;> exact ⟨nofun, rfl, rfl⟩
  | token st => cases st <;> exact ⟨nofun, rfl, rfl⟩

/-- The handler of a token that has a registration has not returned. -/
lemma Process.serving_of_armed {c : Process} (reg : c.Registered) {k x}
    (found : c.shared.tokens k = some x) (arm : x.dispatcher = true) :
    c.pc x.stream = .stream (.serving x.writer) :=
  Pc.streamPc_eq_some (reg.armed found arm).1

/-- A call that goes on is a stream only if it has been one. -/
lemma Step.stream_inv {t s i p s' q} (st : Step t s i p s' (.stream q)) (own : i.isCall = false) :
    ∃ q', p = .stream q' := by
  cases st with
  | start => cases own
  | stream => exact ⟨_, rfl⟩

/-- A step of the dispatcher keeps what a stream that has left its loop is about. -/
lemma Process.left_step {c c' : Process} {b t} (reg : c.Registered)
    (mv : c.step b = some c') (left : c.Leaving t ∨ c.shared.released t = true) :
    c'.Leaving t ∨ c'.shared.released t = true := by
  obtain leaving | rel := left
  · exact leaving.step reg mv
  · exact .inr ((c.step_inv mv).1.released_stays rel)

end Dnp3Bridge.Dispatcher

namespace Dnp3Bridge.Main
open Bridge Concurrency Config Grpc Outstation Proto

/-- `commands` is the dispatcher with the calls that work on it, and `begun` are their threads.
`streams` are the `StreamCommands` calls that have not left their loop, and `cancelled` says that the
deadline of `stop` has passed, after which `IsCancelled` holds for all of them. -/
structure Program where
  app : App
  commands : Dispatcher.Process := .init
  begun : List Dispatcher.Tid := []
  streams : List Dispatcher.Tid := []
  cancelled : Bool := false

/-- The components as `main` constructs them. -/
def Program.init (fresh : FreshPoints) (cfg : AppConfig) : Program where
  app := .init fresh cfg

/-- What happens next: a step of the modelled threads, a call of `StreamCommands`, of `RespondToCommand`
or of `Operate` that begins, the deadline of `stop`, a stream that leaves its loop, or a step of one of
these calls. -/
inductive ProgramAction where
  | app (a : Action)
  | stream (t : Dispatcher.Tid) (w : Dispatcher.Writer)
  | respond (t : Dispatcher.Tid) (response : CommandResponse)
  | operate (t : Dispatcher.Tid) (command : Command) (index : UInt16) (opType : OperateType)
  | deadline
  | leave (u : Dispatcher.Tid) (k : Dispatcher.Object)
  | command (t : Dispatcher.Tid) (i : Dispatcher.Choice)

/-- `stop` waits in `Shutdown` for the calls of the server, and `shutdown` for the commands. -/
def Program.MayStep (c : Program) : Action → Prop
  | .main =>
    (c.app.main = .awaitCalls → ∀ t ∈ c.begun, (c.commands.pc t).served = true →
      (c.commands.pc t).ended = true) ∧
    (c.app.main = .shutdownOutstation → ∀ t ∈ c.begun, (c.commands.pc t).served = false →
      (c.commands.pc t).ended = true)
  | _ => True

instance Program.decidableMayStep (c : Program) : ∀ a, Decidable (c.MayStep a)
  | .main => inferInstanceAs (Decidable (_ ∧ _))
  | .signal | .thread _ | .call .. | .handler .. | .reply _ | .flush .. => isTrue trivial

/-- The thread `t` begins a call. -/
def Program.begin (c : Program) (t : Dispatcher.Tid) (k : Dispatcher.Call) : Option Program :=
  if c.commands.pc t = .idle then
    (c.commands.step (t, .call k)).map fun p => { c with commands := p, begun := t :: c.begun }
  else none

/-- A step of the program. -/
def Program.step (c : Program) : ProgramAction → Option Program
  | .app a => if c.MayStep a then (c.app.step a).map fun app => { c with app } else none
  | .stream t w =>
    if c.app.Accepts then
      (c.begin t (.streamCommands w)).map fun d => { d with streams := t :: d.streams }
    else none
  | .respond t response =>
    if c.app.Accepts then c.begin t (Dispatcher.respondToCommand response) else none
  | .operate t command index opType =>
    match (ForwardingCommandHandler.operate none command index opType).dispatched with
    | [request] =>
      if c.app.outstation.outstation.isSome then c.begin t (.dispatch request) else none
    | _ => none
  | .deadline =>
    if c.app.main = .awaitCalls ∧ c.cancelled = false then some { c with cancelled := true } else none
  | .leave u k =>
    match c.commands.shared.tokens k with
    | some x =>
      if x.dispatcher = true ∧ x.stream ∈ c.streams then
        (c.begin u (.destroyToken k)).map fun d => { d with streams := d.streams.erase x.stream }
      else none
    | none => none
  | .command t i =>
    if i.isCall then none else (c.commands.step (t, i)).map fun p => { c with commands := p }

/-- A call begins: its thread was idle, and is in the call now. -/
structure Program.Begins (c : Program) (t : Dispatcher.Tid) (k : Dispatcher.Call)
    (p : Dispatcher.Process) : Prop where
  idle : c.commands.pc t = .idle
  step : c.commands.step (t, .call k) = some p

/-- The kinds of steps of the program. -/
inductive Program.Moves (c : Program) : ProgramAction → Program → Prop where
  | app {a app} :
    c.MayStep a →
    c.app.step a = some app →
    c.Moves (.app a) { c with app }
  | stream {t w p} :
    c.app.Accepts →
    c.Begins t (.streamCommands w) p →
    c.Moves (.stream t w)
      { c with commands := p, begun := t :: c.begun, streams := t :: c.streams }
  | respond {t response p} :
    c.app.Accepts →
    c.Begins t (Dispatcher.respondToCommand response) p →
    c.Moves (.respond t response) { c with commands := p, begun := t :: c.begun }
  | operate {t command index opType request p} :
    c.app.outstation.outstation ≠ none →
    c.Begins t (.dispatch request) p →
    c.Moves (.operate t command index opType) { c with commands := p, begun := t :: c.begun }
  | deadline :
    c.app.main = .awaitCalls →
    c.cancelled = false →
    c.Moves .deadline { c with cancelled := true }
  | leave {u k x p} :
    c.commands.shared.tokens k = some x →
    x.dispatcher = true →
    x.stream ∈ c.streams →
    c.Begins u (.destroyToken k) p →
    c.Moves (.leave u k)
      { c with commands := p, begun := u :: c.begun, streams := c.streams.erase x.stream }
  | command {t i p} :
    i.isCall = false →
    c.commands.step (t, i) = some p →
    c.Moves (.command t i) { c with commands := p }

/-- Inversion for the beginning of a call. -/
lemma Program.begin_inv {c d : Program} {t k} (st : c.begin t k = some d) :
    ∃ p, c.Begins t k p ∧ d = { c with commands := p, begun := t :: c.begun } := by
  obtain ⟨idle, st⟩ := Option.ite_none_right_eq_some.mp st
  obtain ⟨p, mv, rfl⟩ := Option.map_eq_some_iff.mp st
  exact ⟨p, ⟨idle, mv⟩, rfl⟩

/-- Inversion for a step of the program. -/
theorem Program.step_moves {c c' : Program} {a} (st : c.step a = some c') : c.Moves a c' := by
  cases a with
  | app a =>
    obtain ⟨may, st⟩ := Option.ite_none_right_eq_some.mp st
    obtain ⟨app, mv, rfl⟩ := Option.map_eq_some_iff.mp st
    exact .app may mv
  | stream t w =>
    obtain ⟨up, st⟩ := Option.ite_none_right_eq_some.mp st
    obtain ⟨d, mv, rfl⟩ := Option.map_eq_some_iff.mp st
    obtain ⟨p, begins, rfl⟩ := Program.begin_inv mv
    exact .stream up begins
  | respond t response =>
    obtain ⟨up, st⟩ := Option.ite_none_right_eq_some.mp st
    obtain ⟨p, begins, rfl⟩ := Program.begin_inv st
    exact .respond up begins
  | operate t command index opType =>
    rw [step] at st
    split at st
    case h_1 =>
      obtain ⟨on, st⟩ := Option.ite_none_right_eq_some.mp st
      obtain ⟨p, begins, rfl⟩ := Program.begin_inv st
      exact .operate (Option.isSome_iff_ne_none.mp on) begins
    case h_2 => cases st
  | deadline =>
    obtain ⟨⟨pc, first⟩, e⟩ := Option.ite_none_right_eq_some.mp st
    cases e
    exact .deadline pc first
  | leave u k =>
    rw [step] at st
    split at st
    case h_1 x found =>
      obtain ⟨⟨arm, inside⟩, st⟩ := Option.ite_none_right_eq_some.mp st
      obtain ⟨d, mv, rfl⟩ := Option.map_eq_some_iff.mp st
      obtain ⟨p, begins, rfl⟩ := Program.begin_inv mv
      exact .leave found arm inside begins
    case h_2 => cases st
  | command t i =>
    obtain ⟨own, st⟩ := Option.ite_none_left_eq_some.mp st
    obtain ⟨p, mv, rfl⟩ := Option.map_eq_some_iff.mp st
    exact .command (Bool.eq_false_of_not_eq_true own) mv

/-- `main` looks at `server_` when `start` has published its server, or will not get one. -/
def Program.Timely (c : Program) : ProgramAction → Prop
  | .app a => Main.Timely c.app a
  | _ => True

instance Program.decidableTimely (c : Program) : ∀ a, Decidable (c.Timely a)
  | .app a => inferInstanceAs (Decidable (Main.Timely c.app a))
  | .stream .. | .respond .. | .operate .. | .deadline | .leave .. | .command .. => isTrue trivial

/-- A step of the program is one of the dispatcher, or leaves the dispatcher alone. -/
lemma Program.step_commands {c c' : Program} {a} (st : c.step a = some c') :
    c'.commands = c.commands ∨ ∃ b, c.commands.step b = some c'.commands := by
  cases Program.step_moves st with
  | app | deadline => exact .inl rfl
  | stream _ begins | respond _ begins | operate _ begins | leave _ _ _ begins =>
    exact .inr ⟨_, begins.step⟩
  | command _ mv => exact .inr ⟨_, mv⟩

/-- A step of the program is one of the modelled threads, or leaves these alone. -/
lemma Program.step_app {c c' : Program} {a} (timely : c.Timely a) (st : c.step a = some c') :
    c'.app = c.app ∨ ∃ b, Main.Timely c.app b ∧ c.app.step b = some c'.app := by
  cases Program.step_moves st with
  | app _ mv => exact .inr ⟨_, timely, mv⟩
  | _ => exact .inl rfl

/-- Both parts of the program are in a state that they reach by themselves. -/
structure Program.Reached (fresh : FreshPoints) (cfg : AppConfig) (c : Program) : Prop where
  app : ∃ as, Run App.step Main.Timely (.init fresh cfg) as c.app
  commands : ∃ bs, Run Dispatcher.Process.step Always Dispatcher.Process.init bs c.commands

/-- A run of the program is one of each of its parts. -/
lemma Program.reached {fresh cfg as c} (run : Run Program.step Program.Timely (.init fresh cfg) as c) :
    c.Reached fresh cfg := by
  refine ⟨?_, ?_⟩
  · exact run.project (f := Program.app) fun c a c' timely st => Program.step_app timely st
  · refine run.project (f := Program.commands) fun c a c' _ st => ?_
    obtain same | ⟨b, mv⟩ := Program.step_commands st
    · exact .inl same
    · exact .inr ⟨b, trivial, mv⟩

/-- The process that a run has led to keeps the registry sound. -/
lemma Program.Reached.registered {fresh cfg} {c : Program} (reached : c.Reached fresh cfg) :
    c.commands.Registered := by
  obtain ⟨_, run⟩ := reached.commands
  exact Dispatcher.Process.registered run

/-- The beginning of a call moves its thread only, and moves it into the call. -/
lemma Program.Begins.pcs {c : Program} {t k p} (begins : c.Begins t k p) :
    p.pc = Function.update c.commands.pc t (p.pc t) ∧ p.pc t ≠ .idle := by
  obtain ⟨st, pcs⟩ := c.commands.step_inv begins.step
  exact ⟨pcs, st.ne_idle⟩

/-- The first statement of the call that begins. -/
lemma Program.Begins.start {c : Program} {t k p} (begins : c.Begins t k p) :
    Dispatcher.StartStep t c.commands.shared k p.shared (p.pc t) := by
  obtain ⟨st, -⟩ := c.commands.step_inv begins.step
  rw [begins.idle] at st
  generalize p.shared = s', p.pc t = q at st
  cases st with
  | start st => exact st

/-- Only a call of `StreamCommands` becomes a stream. -/
lemma Program.Begins.not_stream {c : Program} {t k p q} (begins : c.Begins t k p)
    (other : ∀ w, k ≠ .streamCommands w) : p.pc t ≠ .stream q := by
  have st := begins.start
  generalize p.shared = s', p.pc t = q' at st
  cases st with
  | streamCommands => exact absurd rfl (other _)
  | _ => nofun

/-- A command is no call of the server. -/
lemma Program.Begins.not_served {c : Program} {t request p}
    (begins : c.Begins t (.dispatch request) p) : (p.pc t).served = false := by
  have st := begins.start
  generalize p.shared = s', p.pc t = q at st
  cases st with
  | dispatch => rfl

/-- What the threads of the calls are. -/
def Program.Known (c : Program) : Prop :=
  ∀ t, t ∈ c.begun ↔ c.commands.pc t ≠ .idle

/-- A call that begins becomes known. -/
lemma Program.Known.begin {c d : Program} {t k p} (inv : c.Known) (begins : c.Begins t k p)
    (commands : d.commands = p) (begun : d.begun = t :: c.begun) : d.Known := by
  intro u
  obtain ⟨pcs, busy⟩ := begins.pcs
  rw [commands, begun, List.mem_cons]
  rcases eq_or_ne u t with rfl | ne
  · exact iff_of_true (.inl rfl) busy
  · rw [pcs, Function.update_of_ne ne, ← inv u]
    exact or_iff_right ne

/-- Every step keeps the threads of the calls known. -/
lemma Program.Known.step {c c' : Program} {a} (inv : c.Known) (st : c.step a = some c') : c'.Known := by
  cases Program.step_moves st with
  | app | deadline => exact inv
  | stream _ begins | respond _ begins | operate _ begins | leave _ _ _ begins =>
    exact inv.begin begins rfl rfl
  | @command t i p own mv =>
    intro u
    obtain ⟨st, pcs⟩ := c.commands.step_inv mv
    show u ∈ c.begun ↔ p.pc u ≠ .idle
    rcases eq_or_ne u t with rfl | ne
    · exact iff_of_true ((inv u).mpr (st.own_inv own).1) st.ne_idle
    · rw [pcs, Function.update_of_ne ne]
      exact inv u

/-- A stream that has left its loop is about to release its registration, or has released it. -/
def Program.Left (c : Program) : Prop :=
  ∀ t p, c.commands.pc t = .stream p → t ∉ c.streams →
    c.commands.Leaving t ∨ c.commands.shared.released t = true

/-- Every step keeps what the streams that have left their loop are about. -/
lemma Program.Left.step {c c' : Program} {a} (inv : c.Left) (reg : c.commands.Registered)
    (st : c.step a = some c') : c'.Left := by
  -- the other threads, when one has made a step
  have others : ∀ {t i p}, c.commands.step (t, i) = some p → ∀ {u q}, u ≠ t → p.pc u = .stream q →
      u ∉ c.streams → p.Leaving u ∨ p.shared.released u = true := by
    intro t i p mv u q ne e out
    obtain ⟨-, pcs⟩ := c.commands.step_inv mv
    rw [pcs, Function.update_of_ne ne] at e
    exact Dispatcher.Process.left_step reg mv (inv u q e out)
  intro u q e out
  cases Program.step_moves st with
  | app | deadline => exact inv u q e out
  | @stream t w p _ begins =>
    have ne : u ≠ t := List.ne_of_not_mem_cons out
    exact others begins.step ne e (List.not_mem_of_not_mem_cons out)
  | @respond t response p _ begins | @operate t _ _ _ request p _ begins =>
    rcases eq_or_ne u t with rfl | ne
    · exact absurd e (begins.not_stream nofun)
    · exact others begins.step ne e out
  | @leave v k x p found arm _ begins =>
    rcases eq_or_ne u v with rfl | ne
    · exact absurd e (begins.not_stream nofun)
    · rcases eq_or_ne u x.stream with rfl | ne'
      · -- the destructor of the token has just begun
        have st := begins.start
        refine .inl ⟨v, .check k .destroy, k, x, ?_, rfl, ?_, arm, rfl⟩
        · show p.pc v = _
          generalize p.shared = s', p.pc v = q' at st
          cases st with
          | destroyToken => rfl
        · show p.shared.tokens k = _
          generalize p.shared = s', p.pc v = q' at st
          cases st with
          | destroyToken => exact found
      · exact others begins.step ne e fun mem => out ((List.mem_erase_of_ne ne').mpr mem)
  | @command t i p own mv =>
    rcases eq_or_ne u t with rfl | ne
    · obtain ⟨st, -⟩ := c.commands.step_inv mv
      have e : p.pc u = .stream q := e
      rw [e] at st
      obtain ⟨q', before⟩ := st.stream_inv own
      exact Dispatcher.Process.left_step reg mv (inv u q' before out)
    · exact others mv ne e out

end Dnp3Bridge.Main
