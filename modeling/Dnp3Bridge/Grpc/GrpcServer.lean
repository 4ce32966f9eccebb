import Dnp3Bridge.Concurrency.Run

/-!
# The gRPC server and its thread

`main` runs `GrpcServer::start` on a thread of its own and, when a signal asks for it, calls
`GrpcServer::stop`, joins the thread and destroys the server, which calls `stop` once more. The two
threads share `server_`, and nothing orders their accesses. There is one program counter per
statement; `Shutdown` takes effect at once, and `Wait` returns when it was called on that server.
-/

namespace Dnp3Bridge.Grpc
open Concurrency

/-- A `::grpc::Server`, and whether `Shutdown` was called on it. -/
structure Server where
  shutdown : Bool
  deriving DecidableEq

/-- The program counter of `start`; `publish` carries what `BuildAndStart` has returned. -/
inductive StartPc where
  | unborn
  | build
  | publish (built : Option Server)
  | check
  | log
  | wait
  | returned
  deriving DecidableEq

/-- The program counter of `stop`. -/
inductive StopPc where
  | check
  | shutdown
  deriving DecidableEq

/-- The program counter of `main`, from the construction of the components on. -/
inductive MainPc where
  | starting
  | spawn
  | poll
  | stop (p : StopPc)
  | bridgeStop
  | outstationShutdown
  | join
  | destructor (p : StopPc)
  | returned
  deriving DecidableEq

/-- `g_shutdown_requested`, `server_` and the two threads. -/
structure Process where
  requested : Bool := false
  server : Option Server := none
  thread : StartPc := .unborn
  main : MainPc := .starting
  deriving DecidableEq

/-- A signal comes in, or one of the two threads makes a step; `built` says whether `BuildAndStart`
succeeds. -/
inductive Action where
  | signal
  | main
  | thread (built : Bool)
  deriving DecidableEq

/-- `GrpcServer::start`. -/
def start (built : Bool) (server : Option Server) : StartPc → Option (Option Server × StartPc)
  | .unborn => none
  | .build => some (server, .publish (if built then some ⟨false⟩ else none))
  | .publish s => some (s, .check)
  | .check => some (server, if server.isSome then .log else .returned)
  | .log => some (server, .wait)
  | .wait => if server = some ⟨true⟩ then some (server, .returned) else none
  | .returned => none

/-- `GrpcServer::stop`. -/
def stop (server : Option Server) : StopPc → Option Server × Option StopPc
  | .check => (server, if server.isSome then some .shutdown else none)
  | .shutdown => (server.map fun _ => ⟨true⟩, none)

/-- A step of `main`. The destructors run in reverse order: that of the `std::jthread` joins the
thread, then that of the `GrpcServer` calls `stop`. -/
def Process.mainStep (c : Process) : Option Process :=
  match c.main with
  | .starting => some { c with main := .spawn }
  | .spawn => some { c with thread := .build, main := .poll }
  | .poll => some { c with main := if c.requested then .stop .check else .poll }
  | .stop p =>
    some { c with
      server := (stop c.server p).1
      main := ((stop c.server p).2.map .stop).getD .bridgeStop }
  | .bridgeStop => some { c with main := .outstationShutdown }
  | .outstationShutdown => some { c with main := .join }
  | .join => if c.thread = .returned then some { c with main := .destructor .check } else none
  | .destructor p =>
    some { c with
      server := (stop c.server p).1
      main := ((stop c.server p).2.map .destructor).getD .returned }
  | .returned => none

/-- A step of the process. -/
def Process.step (c : Process) : Action → Option Process
  | .signal => some { c with requested := true }
  | .main => c.mainStep
  | .thread built =>
    (start built c.server c.thread).map fun r => { c with server := r.1, thread := r.2 }

/-- What a step of `start` does. -/
inductive StartStep (server : Option Server) : StartPc → Option Server → StartPc → Prop where
  | build {s} :
    s = none ∨ s = some ⟨false⟩ →
    StartStep server .build server (.publish s)
  | publish {s} :
    StartStep server (.publish s) s .check
  | found :
    server ≠ none →
    StartStep server .check server .log
  | failed :
    server = none →
    StartStep server .check server .returned
  | log :
    StartStep server .log server .wait
  | wake :
    server = some ⟨true⟩ →
    StartStep server .wait server .returned

/-- Inversion for `start`. -/
lemma start_inv {built server p server' p'} (st : start built server p = some (server', p')) :
    StartStep server p server' p' := by
  cases p with
  | unborn | returned => nomatch st
  | build =>
    cases st
    cases built with
    | false => exact .build (.inl rfl)
    | true => exact .build (.inr rfl)
  | publish s => cases st; exact .publish
  | check =>
    cases server with
    | none => cases st; exact .failed rfl
    | some s => cases st; exact .found (Option.some_ne_none s)
  | log => cases st; exact .log
  | wait =>
    obtain ⟨woken, e⟩ := Option.ite_none_right_eq_some.mp st
    cases e
    exact .wake woken

/-- What a step of `main` does; in both calls of `stop` it finds a server or not, and shuts the one
it has found down. -/
inductive MainStep (c : Process) : Process → Prop where
  | starting :
    c.main = .starting →
    MainStep c { c with main := .spawn }
  | spawn :
    c.main = .spawn →
    MainStep c { c with thread := .build, main := .poll }
  | sleep :
    c.main = .poll →
    MainStep c c
  | requested :
    c.main = .poll →
    MainStep c { c with main := .stop .check }
  | found :
    c.main = .stop .check →
    c.server ≠ none →
    MainStep c { c with main := .stop .shutdown }
  | overlooked :
    c.main = .stop .check →
    c.server = none →
    MainStep c { c with main := .bridgeStop }
  | shutdown :
    c.main = .stop .shutdown →
    MainStep c { c with server := c.server.map fun _ => ⟨true⟩, main := .bridgeStop }
  | bridgeStop :
    c.main = .bridgeStop →
    MainStep c { c with main := .outstationShutdown }
  | outstationShutdown :
    c.main = .outstationShutdown →
    MainStep c { c with main := .join }
  | join :
    c.main = .join →
    c.thread = .returned →
    MainStep c { c with main := .destructor .check }
  | destructor {p s q} :
    c.main = .destructor p →
    s = c.server ∨ s = c.server.map (fun _ => ⟨true⟩) →
    (∃ r, q = .destructor r) ∨ q = .returned →
    MainStep c { c with server := s, main := q }

/-- Inversion for `main`. -/
lemma Process.mainStep_inv {c c' : Process} (st : c.mainStep = some c') : MainStep c c' := by
  obtain ⟨requested, server, thread, main⟩ := c
  cases main with
  | starting => cases st; exact .starting rfl
  | spawn => cases st; exact .spawn rfl
  | poll =>
    cases st
    cases requested with
    | false => exact .sleep rfl
    | true => exact .requested rfl
  | stop p =>
    cases st
    cases p with
    | check =>
      cases server with
      | none => exact .overlooked rfl rfl
      | some s => exact .found rfl (Option.some_ne_none s)
    | shutdown => exact .shutdown rfl
  | bridgeStop => cases st; exact .bridgeStop rfl
  | outstationShutdown => cases st; exact .outstationShutdown rfl
  | join =>
    obtain ⟨returned, e⟩ := Option.ite_none_right_eq_some.mp st
    cases e
    exact .join rfl returned
  | destructor p =>
    cases st
    cases p with
    | check =>
      refine .destructor rfl (.inl rfl) ?_
      cases server with
      | none => exact .inr rfl
      | some s => exact .inl ⟨.shutdown, rfl⟩
    | shutdown => exact .destructor rfl (.inr rfl) (.inr rfl)
  | returned => nomatch st

/-- The three kinds of steps. -/
inductive Process.Moves (c : Process) : Action → Process → Prop where
  | signal :
    c.Moves .signal { c with requested := true }
  | main {c'} :
    MainStep c c' →
    c.Moves .main c'
  | thread {b s p} :
    StartStep c.server c.thread s p →
    c.Moves (.thread b) { c with server := s, thread := p }

/-- Inversion for a step of the process. -/
lemma Process.step_moves {c c' : Process} {a} (st : c.step a = some c') : c.Moves a c' := by
  cases a with
  | signal => cases st; exact .signal
  | main => exact .main (mainStep_inv st)
  | thread b =>
    obtain ⟨⟨s, p⟩, mv, e⟩ := Option.map_eq_some_iff.mp st
    cases e
    exact .thread (start_inv mv)

end Dnp3Bridge.Grpc
