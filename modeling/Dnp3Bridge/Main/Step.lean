import Dnp3Bridge.Main.Model

/-!
# Inversion of the steps of the process

Everything a step of the process can do. A step is one of the bridge or leaves the bridge alone, and it
is one of the gRPC server and `main` or leaves these alone, so a run of the process is a run of each.
-/

namespace Dnp3Bridge.Main
open Bridge Concurrency Config Grpc Outstation Proto

/-- The statement that follows a call of `Bridge::start` or `Bridge::stop`. -/
def MainPc.afterCall : MainPc → Option MainPc
  | .startingBridge => some .spawn
  | .stoppingBridge => some .shutdownOutstation
  | .destroyingBridge => some .destroyOutstation
  | _ => none

/-- What a step of `main` does. -/
inductive MainStep (c : App) : App → Prop where
  | startOutstation :
    c.main = .startOutstation →
    MainStep c { c with outstation := c.outstation.start, main := .startBridge }
  | startBridge {b} :
    c.main = .startBridge →
    c.bridge.step (.control, .start) = some b →
    MainStep c { c with bridge := b, main := .startingBridge }
  | inBridge {b q} :
    c.main.afterCall = some q →
    c.bridge.step (.control, .go) = some b →
    MainStep c { c with bridge := b }
  | fromBridge {q} :
    c.main.afterCall = some q →
    c.bridge.controlPc = .idle ∨ (∃ k, c.bridge.controlPc = .stopped k) →
    MainStep c { c with main := q }
  | spawn :
    c.main = .spawn →
    MainStep c { c with thread := .build, main := .poll }
  | sleep :
    c.main = .poll →
    c.requested = false →
    MainStep c c
  | requested :
    c.main = .poll →
    c.requested = true →
    MainStep c { c with main := .stopServer .check }
  | found :
    c.main = .stopServer .check →
    c.server ≠ none →
    MainStep c { c with main := .stopServer .shutdown }
  | overlooked :
    c.main = .stopServer .check →
    c.server = none →
    MainStep c { c with main := .stopBridge }
  | shutdown :
    c.main = .stopServer .shutdown →
    MainStep c { c with server := c.server.map fun _ => ⟨true⟩, main := .awaitCalls }
  | processed :
    c.main = .awaitCalls →
    c.calls = [] →
    MainStep c { c with main := .stopBridge }
  | stopBridge {b} :
    c.main = .stopBridge →
    c.bridge.step (.control, .stop) = some b →
    MainStep c { c with bridge := b, main := .stoppingBridge }
  | shutdownOutstation :
    c.main = .shutdownOutstation →
    MainStep c { c with outstation := c.outstation.shutdown, main := .join }
  | join :
    c.main = .join →
    c.thread = .returned →
    MainStep c { c with main := .destroyServer .check }
  | foundAgain :
    c.main = .destroyServer .check →
    c.server ≠ none →
    MainStep c { c with main := .destroyServer .shutdown }
  | noServer :
    c.main = .destroyServer .check →
    c.server = none →
    MainStep c { c with main := .destroyBridge }
  | shutdownAgain :
    c.main = .destroyServer .shutdown →
    MainStep c { c with server := c.server.map fun _ => ⟨true⟩, main := .destroyBridge }
  | destroyBridge {b} :
    c.main = .destroyBridge →
    c.bridge.step (.control, .stop) = some b →
    MainStep c { c with bridge := b, main := .destroyingBridge }
  | destroyOutstation :
    c.main = .destroyOutstation →
    MainStep c { c with outstation := c.outstation.shutdown, main := .returned }

/-- A call of `Bridge::start` or `Bridge::stop` goes on, or has returned. -/
lemma App.inBridge_inv {c c' : App} {q} (st : c.inBridge q = some c') :
    (∃ b, c.bridge.step (.control, .go) = some b ∧ c' = { c with bridge := b }) ∨
      ((c.bridge.controlPc = .idle ∨ ∃ k, c.bridge.controlPc = .stopped k) ∧
        c' = { c with main := q }) := by
  unfold inBridge at st
  split at st
  case h_1 e =>
    cases st
    exact .inr ⟨.inl e, rfl⟩
  case h_2 k e =>
    cases st
    exact .inr ⟨.inr ⟨k, e⟩, rfl⟩
  case h_3 =>
    obtain ⟨b, mv, rfl⟩ := Option.map_eq_some_iff.mp st
    exact .inl ⟨b, mv, rfl⟩

/-- A call of the bridge that goes on, or returns, is a step of `main`. -/
lemma MainStep.of_inBridge {c c' : App} {q} (pc : c.main.afterCall = some q)
    (st : c.inBridge q = some c') : MainStep c c' := by
  obtain ⟨b, mv, rfl⟩ | ⟨rest, rfl⟩ := App.inBridge_inv st
  · exact .inBridge pc mv
  · exact .fromBridge pc rest

/-- Inversion for `main`. -/
lemma App.mainStep_inv {c c' : App} (st : c.mainStep = some c') : MainStep c c' := by
  obtain ⟨requested, server, thread, main, bridge, outstation, calls, answered⟩ := c
  cases main with
  | startOutstation => cases st; exact .startOutstation rfl
  | startBridge =>
    obtain ⟨b, mv, e⟩ := Option.map_eq_some_iff.mp st
    cases e
    exact .startBridge rfl mv
  | startingBridge => exact .of_inBridge rfl st
  | spawn => cases st; exact .spawn rfl
  | poll =>
    cases st
    cases requested with
    | false => exact .sleep rfl rfl
    | true => exact .requested rfl rfl
  | stopServer p =>
    cases p with
    | check =>
      cases st
      cases server with
      | none => exact .overlooked rfl rfl
      | some s => exact .found rfl (Option.some_ne_none s)
    | shutdown => cases st; exact .shutdown rfl
  | awaitCalls =>
    obtain ⟨none, e⟩ := Option.ite_none_right_eq_some.mp st
    cases e
    exact .processed rfl none
  | stopBridge =>
    obtain ⟨b, mv, e⟩ := Option.map_eq_some_iff.mp st
    cases e
    exact .stopBridge rfl mv
  | stoppingBridge => exact .of_inBridge rfl st
  | shutdownOutstation => cases st; exact .shutdownOutstation rfl
  | join =>
    obtain ⟨returned, e⟩ := Option.ite_none_right_eq_some.mp st
    cases e
    exact .join rfl returned
  | destroyServer p =>
    cases p with
    | check =>
      cases st
      cases server with
      | none => exact .noServer rfl rfl
      | some s => exact .foundAgain rfl (Option.some_ne_none s)
    | shutdown => cases st; exact .shutdownAgain rfl
  | destroyBridge =>
    obtain ⟨b, mv, e⟩ := Option.map_eq_some_iff.mp st
    cases e
    exact .destroyBridge rfl mv
  | destroyingBridge => exact .of_inBridge rfl st
  | destroyOutstation => cases st; exact .destroyOutstation rfl
  | returned => cases st

/-- The kinds of steps of the process. -/
inductive App.Moves (c : App) : Action → App → Prop where
  | signal :
    c.Moves .signal { c with requested := true }
  | main {c'} :
    MainStep c c' →
    c.Moves .main c'
  | thread {built s p} :
    Grpc.start built c.server c.thread = some (s, p) →
    c.Moves (.thread built) { c with server := s, thread := p }
  | call {n request b} :
    c.Accepts →
    c.bridge.callerPc n = .idle →
    c.bridge.step (.caller n, .apply (updatePoints request).1) = some b →
    c.Moves (.call n request) { c with bridge := b, calls := (n, request) :: c.calls }
  | handler {n i b} :
    n ∈ c.calls.map Prod.fst →
    c.bridge.step (.caller n, i) = some b →
    c.Moves (.handler n i) { c with bridge := b }
  | reply {n request} :
    (n, request) ∈ c.calls →
    c.bridge.callerPc n = .done →
    c.Moves (.reply n)
      { c with calls := c.calls.erase (n, request), answered := (n, request) :: c.answered }
  | flush {n i b} :
    c.bridge.step (.flush n, i) = some b →
    c.Moves (.flush n i) { c with bridge := b, outstation := c.handOver n }

/-- Inversion for a step of the process. -/
theorem App.step_moves {c c' : App} {a} (st : c.step a = some c') : c.Moves a c' := by
  cases a with
  | signal => cases st; exact .signal
  | main => exact .main (mainStep_inv st)
  | thread built =>
    obtain ⟨⟨s, p⟩, mv, rfl⟩ := Option.map_eq_some_iff.mp st
    exact .thread mv
  | call n request =>
    obtain ⟨⟨up, idle⟩, st⟩ := Option.ite_none_right_eq_some.mp st
    obtain ⟨b, mv, rfl⟩ := Option.map_eq_some_iff.mp st
    exact .call up idle mv
  | handler n i =>
    obtain ⟨mem, st⟩ := Option.ite_none_right_eq_some.mp st
    obtain ⟨b, mv, rfl⟩ := Option.map_eq_some_iff.mp st
    exact .handler mem mv
  | reply n =>
    rw [step] at st
    split at st
    case h_1 call found =>
      obtain ⟨done, e⟩ := Option.ite_none_right_eq_some.mp st
      cases e
      have named : call.1 = n := by simpa using List.find?_some found
      subst named
      exact .reply (List.mem_of_find?_eq_some found) done
    case h_2 => cases st
  | flush n i =>
    obtain ⟨b, mv, rfl⟩ := Option.map_eq_some_iff.mp st
    exact .flush mv

/-- The process as the gRPC server sees it. -/
def MainPc.grpc : MainPc → Grpc.MainPc
  | .startOutstation | .startBridge | .startingBridge => .starting
  | .spawn => .spawn
  | .poll => .poll
  | .stopServer p => .stop p
  | .awaitCalls | .stopBridge | .stoppingBridge => .bridgeStop
  | .shutdownOutstation => .outstationShutdown
  | .join => .join
  | .destroyServer p => .destructor p
  | .destroyBridge | .destroyingBridge | .destroyOutstation | .returned => .returned

def App.grpc (c : App) : Grpc.Process where
  requested := c.requested
  server := c.server
  thread := c.thread
  main := c.main.grpc

/-- A step of the process is one of the bridge, or leaves the bridge alone. -/
lemma App.step_bridge {c c' : App} {a} (st : c.step a = some c') :
    c'.bridge = c.bridge ∨ ∃ b, c.bridge.step b = some c'.bridge := by
  cases step_moves st with
  | main st =>
    cases st with
    | startBridge _ mv | inBridge _ mv | stopBridge _ mv | destroyBridge _ mv => exact .inr ⟨_, mv⟩
    | _ => exact .inl rfl
  | call _ _ mv | handler _ mv | flush mv => exact .inr ⟨_, mv⟩
  | _ => exact .inl rfl

/-- The bridge of a process is in a state that the bridge reaches. -/
lemma App.bridge_run {C fresh cfg as c} (run : Run App.step C (.init fresh cfg) as c) :
    ∃ bs, Run System.step Always System.init bs c.bridge := by
  refine run.project (f := App.bridge) fun c a c' _ st => ?_
  obtain same | ⟨b, mv⟩ := c.step_bridge st
  · exact .inl same
  · exact .inr ⟨b, trivial, mv⟩

end Dnp3Bridge.Main
