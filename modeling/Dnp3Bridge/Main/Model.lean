import Dnp3Bridge.Bridge.Lifecycle
import Dnp3Bridge.Grpc.GrpcServer
import Dnp3Bridge.Grpc.UpdatePoints
import Dnp3Bridge.Outstation.Manager

/-!
# From `main` to the outstation

`main` of `main.cpp` from the construction of the components on, with the update queue, the outstation
manager, the gRPC server and the calls of `UpdatePoints` that it serves. The thread that runs `main` is
the one that calls `start` and `stop` of the `Bridge`; the flush threads make the calls of
`updateAnalog` and `updateBinary`.

A call comes in while a server is up, and its handler is a caller of `applyUpdate`. `Shutdown` lets no
more calls in and returns when all that came in have been processed.

Left out here are the handlers of `StreamCommands` and `RespondToCommand` and the commands of a master
on the threads of opendnp3. They use the `CommandDispatcher` only and share nothing with the components
here; but `stop` and `shutdown` wait for them as well, so `Program` puts both models together, and every
run of it is one of this model. Left out altogether are the exceptions of `start`, which end the process
before there is a server.
-/

namespace Dnp3Bridge.Main
open Bridge Concurrency Config Grpc Outstation Proto

/-- The program counter of `main`; the destructors run in reverse order of the construction. A call that
blocks or is made of several steps has a program counter of its own. -/
inductive MainPc where
  | startOutstation
  | startBridge
  | startingBridge
  | spawn
  | poll
  | stopServer (p : StopPc)
  | awaitCalls
  | stopBridge
  | stoppingBridge
  | shutdownOutstation
  | join
  | destroyServer (p : StopPc)
  | destroyBridge
  | destroyingBridge
  | destroyOutstation
  | returned
  deriving DecidableEq

/-- `g_shutdown_requested`, the components and the threads. `calls` are the calls of `UpdatePoints` that
are being processed, and `answered` those that have been answered. -/
structure App where
  requested : Bool := false
  server : Option Server := none
  thread : StartPc := .unborn
  main : MainPc := .startOutstation
  bridge : System := .init
  outstation : OutstationManager
  calls : List (Nat × UpdateRequest) := []
  answered : List (Nat × UpdateRequest) := []

/-- The components as `main` constructs them. -/
def App.init (fresh : FreshPoints) (cfg : AppConfig) : App where
  outstation := .create fresh cfg

/-- What happens next: a signal, a step of one of the threads, or a call that comes in. -/
inductive Action where
  | signal
  | main
  | thread (built : Bool)
  | call (n : Nat) (request : UpdateRequest)
  | handler (n : Nat) (i : Choice)
  | reply (n : Nat)
  | flush (n : Nat) (i : Choice)
  deriving DecidableEq

/-- A server is up, and `Shutdown` has not been called on it. -/
def App.Accepts (c : App) : Prop :=
  c.server = some ⟨false⟩ ∨ c.thread = .publish (some ⟨false⟩)

instance (c : App) : Decidable c.Accepts :=
  inferInstanceAs (Decidable (_ ∨ _))

/-- A call of `Bridge::start` or `Bridge::stop` goes on, or has returned. -/
def App.inBridge (c : App) (next : MainPc) : Option App :=
  match c.bridge.controlPc with
  | .idle | .stopped _ => some { c with main := next }
  | _ => (c.bridge.step (.control, .go)).map fun b => { c with bridge := b }

/-- A step of `main`. -/
def App.mainStep (c : App) : Option App :=
  match c.main with
  | .startOutstation => some { c with outstation := c.outstation.start, main := .startBridge }
  | .startBridge =>
    (c.bridge.step (.control, .start)).map fun b => { c with bridge := b, main := .startingBridge }
  | .startingBridge => c.inBridge .spawn
  | .spawn => some { c with thread := .build, main := .poll }
  | .poll => some { c with main := if c.requested then .stopServer .check else .poll }
  | .stopServer .check =>
    some { c with main := if c.server.isSome then .stopServer .shutdown else .stopBridge }
  | .stopServer .shutdown =>
    some { c with server := c.server.map fun _ => ⟨true⟩, main := .awaitCalls }
  | .awaitCalls => if c.calls = [] then some { c with main := .stopBridge } else none
  | .stopBridge =>
    (c.bridge.step (.control, .stop)).map fun b => { c with bridge := b, main := .stoppingBridge }
  | .stoppingBridge => c.inBridge .shutdownOutstation
  | .shutdownOutstation => some { c with outstation := c.outstation.shutdown, main := .join }
  | .join => if c.thread = .returned then some { c with main := .destroyServer .check } else none
  | .destroyServer .check =>
    some { c with main := if c.server.isSome then .destroyServer .shutdown else .destroyBridge }
  | .destroyServer .shutdown =>
    some { c with server := c.server.map fun _ => ⟨true⟩, main := .destroyBridge }
  | .destroyBridge =>
    (c.bridge.step (.control, .stop)).map fun b => { c with bridge := b, main := .destroyingBridge }
  | .destroyingBridge => c.inBridge .destroyOutstation
  | .destroyOutstation => some { c with outstation := c.outstation.shutdown, main := .returned }
  | .returned => none

/-- What flush thread `n` does with the outstation in its next step. -/
def App.handOver (c : App) (n : Nat) : OutstationManager :=
  match c.bridge.flushPc n with
  | .drain (u :: _) => c.outstation.visit u.update
  | _ => c.outstation

/-- A step of the modelled threads. -/
def App.step (c : App) : Action → Option App
  | .signal => some { c with requested := true }
  | .main => c.mainStep
  | .thread built =>
    (Grpc.start built c.server c.thread).map fun r => { c with server := r.1, thread := r.2 }
  | .call n request =>
    if c.Accepts ∧ c.bridge.callerPc n = .idle then
      (c.bridge.step (.caller n, .apply (updatePoints request).1)).map fun b =>
        { c with bridge := b, calls := (n, request) :: c.calls }
    else none
  | .handler n i =>
    if n ∈ c.calls.map Prod.fst then
      (c.bridge.step (.caller n, i)).map fun b => { c with bridge := b }
    else none
  | .reply n =>
    match c.calls.find? (·.1 = n) with
    | some call =>
      if c.bridge.callerPc n = .done then
        some { c with calls := c.calls.erase call, answered := call :: c.answered }
      else none
    | none => none
  | .flush n i =>
    (c.bridge.step (.flush n, i)).map fun b => { c with bridge := b, outstation := c.handOver n }

end Dnp3Bridge.Main
