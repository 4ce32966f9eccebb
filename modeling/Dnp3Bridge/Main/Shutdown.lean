import Dnp3Bridge.Bridge.Accounts
import Dnp3Bridge.Bridge.Progress
import Dnp3Bridge.Grpc.Shutdown
import Dnp3Bridge.Main.Order

/-!
# A shutdown that loses nothing

If `main` looks at `server_` when the server has been published, or will not be, `Shutdown` has let the
last call in by the time it returns, and all calls have been processed. The updates of every request
that was answered have been pushed by then, the stop of the bridge drains them, and the outstation is
shut down only after it has taken the last one.
-/

namespace Dnp3Bridge.Main
open Bridge Concurrency Config Grpc Outstation Proto

/-- `main` looks at `server_` when `start` has published its server, or will not get one. -/
def Timely (c : App) (a : Action) : Prop :=
  a = .main → c.main = .stopServer .check → c.thread.decided = true

instance (c : App) (a : Action) : Decidable (Timely c a) :=
  inferInstanceAs (Decidable (_ → _ → _))

/-- A step of `main` is one of the `main` that the gRPC server knows, or none. -/
lemma MainStep.grpc {c c' : App} (st : MainStep c c') :
    c'.grpc = c.grpc ∨ (c.grpc.step .main = some c'.grpc ∧
      (c.grpc.main = .stop .check → c.main = .stopServer .check)) := by
  obtain ⟨requested, server, thread, main, bridge, outstation, calls, answered⟩ := c
  cases st with
  | startOutstation pc | startBridge pc | stopBridge pc | destroyBridge pc | destroyOutstation pc =>
    cases pc
    exact .inl rfl
  | inBridge => exact .inl rfl
  | fromBridge after =>
    cases main with
    | startingBridge | stoppingBridge =>
      cases after
      exact .inr ⟨rfl, nofun⟩
    | destroyingBridge =>
      cases after
      exact .inl rfl
    | _ => cases after
  | sleep => exact .inl rfl
  | requested pc ask =>
    cases pc
    cases ask
    exact .inr ⟨rfl, nofun⟩
  | found pc some =>
    cases pc
    obtain ⟨s, rfl⟩ := Option.ne_none_iff_exists'.mp some
    exact .inr ⟨rfl, fun _ => rfl⟩
  | overlooked pc none =>
    cases pc
    cases none
    exact .inr ⟨rfl, fun _ => rfl⟩
  | processed pc =>
    cases pc
    exact .inl rfl
  | join pc returned =>
    cases pc
    cases returned
    exact .inr ⟨rfl, nofun⟩
  | foundAgain pc some =>
    cases pc
    obtain ⟨s, rfl⟩ := Option.ne_none_iff_exists'.mp some
    exact .inr ⟨rfl, nofun⟩
  | noServer pc none =>
    cases pc
    cases none
    exact .inr ⟨rfl, nofun⟩
  | spawn pc | shutdown pc | shutdownOutstation pc | shutdownAgain pc =>
    cases pc
    exact .inr ⟨rfl, nofun⟩

/-- A step of the process is one of the gRPC server and `main`, or leaves these alone. -/
lemma App.step_grpc {c c' : App} {a} (timely : Timely c a) (st : c.step a = some c') :
    c'.grpc = c.grpc ∨ ∃ b, Grpc.Timely c.grpc b ∧ c.grpc.step b = some c'.grpc := by
  cases step_moves st with
  | signal => exact .inr ⟨.signal, nofun, rfl⟩
  | thread mv => exact .inr ⟨.thread _, nofun, congrArg (Option.map _) mv⟩
  | main st =>
    obtain same | ⟨mv, pc⟩ := st.grpc
    · exact .inl same
    · exact .inr ⟨.main, fun _ e => timely rfl (pc e), mv⟩
  | call | handler | reply | flush => exact .inl rfl

/-- What `main` relies on when it has stopped the server, and what the server relies on before. -/
structure App.Serving (c : App) : Prop where
  heeded : c.grpc.Heeded
  fresh : c.grpc.Fresh

/-- At the beginning `main` and the server have nothing to rely on. -/
lemma App.Serving.init (fresh : FreshPoints) (cfg : AppConfig) : (App.init fresh cfg).Serving := by
  refine ⟨⟨nofun, nofun⟩, ⟨⟨fun _ => rfl, fun _ => rfl⟩, nofun, fun _ => rfl⟩⟩

/-- Every timely step keeps what `main` and the server rely on. -/
lemma App.Serving.step {c c' : App} {a} (inv : c.Serving) (timely : Timely c a)
    (st : c.step a = some c') : c'.Serving := by
  obtain same | ⟨b, timely, mv⟩ := App.step_grpc timely st
  · refine ⟨?_, ?_⟩
    · rw [same]
      exact inv.heeded
    · rw [same]
      exact inv.fresh
  · exact ⟨inv.heeded.step timely mv, inv.fresh.step mv⟩

/-- `main` has stopped the server. -/
def MainPc.closed : MainPc → Bool
  | .startOutstation | .startBridge | .startingBridge | .spawn | .poll | .stopServer _ => false
  | _ => true

/-- The gRPC server sees that `main` has stopped it. -/
lemma MainPc.closed_grpc {p : MainPc} (closed : p.closed = true) : p.grpc.stopped = true := by
  cases p with
  | startOutstation | startBridge | startingBridge | spawn | poll | stopServer => cases closed
  | _ => rfl

/-- A server that has been stopped accepts no calls. -/
lemma App.Serving.closed {c : App} (inv : c.Serving) (closed : c.main.closed = true) :
    ¬ c.Accepts := by
  have stopped := MainPc.closed_grpc closed
  have looked : c.grpc.main.looked = true := by
    show c.main.grpc.looked = true
    generalize c.main.grpc = p at stopped
    cases p with
    | starting | spawn | poll | stop => cases stopped
    | _ => rfl
  intro accepts
  obtain up | up := accepts
  · exact inv.heeded.shut stopped up
  · have decided := inv.heeded.decided looked
    have e : c.grpc.thread = .publish (some ⟨false⟩) := up
    rw [e] at decided
    cases decided

/-- Calls are only there when there is, or soon will be, a server. -/
structure App.Unserved (c : App) : Prop where
  early : c.thread = .unborn ∨ c.thread = .build ∨ (∃ s, c.thread = .publish s) → c.server = none
  unserved : c.server = none → (∀ s, c.thread ≠ .publish (some s)) → c.calls = []

/-- A step of `start` leaves no calls without a server. -/
lemma App.Unserved.thread {c : App} {built s p} (inv : c.Unserved)
    (mv : Grpc.start built c.server c.thread = some (s, p)) :
    App.Unserved { c with server := s, thread := p } := by
  obtain ⟨early, unserved⟩ := inv
  have st := start_inv mv
  generalize e : c.thread = q at st
  cases st with
  | build =>
    have none := early (.inr (.inl e))
    refine ⟨fun _ => none, fun _ _ => unserved none fun s e' => ?_⟩
    cases e.symm.trans e'
  | publish =>
    refine ⟨fun h => ?_, fun none _ => ?_⟩
    · obtain h | h | ⟨s, h⟩ := h <;> cases h
    · have before := early (.inr (.inr ⟨_, e⟩))
      refine unserved before fun s e' => ?_
      cases none
      cases e.symm.trans e'
  | found | failed | log | wake =>
    refine ⟨fun h => ?_, fun none _ => unserved none fun s e' => ?_⟩
    · obtain h | h | ⟨s, h⟩ := h <;> cases h
    · cases e.symm.trans e'

/-- Every step keeps calls away as long as there is no server. -/
lemma App.Unserved.step {c c' : App} {a} (inv : c.Unserved) (fresh : c.grpc.Fresh)
    (st : c.step a = some c') : c'.Unserved := by
  have shut : ∀ {d : App}, d.thread = c.thread → (d.server = none ↔ c.server = none) →
      d.calls = c.calls → d.Unserved := by
    intro d thread server calls
    refine ⟨fun h => ?_, fun none away => ?_⟩
    · rw [thread] at h
      exact server.mpr (inv.early h)
    · rw [calls]
      exact inv.unserved (server.mp none) (thread ▸ away)
  cases App.step_moves st with
  | signal | handler | flush => exact shut rfl Iff.rfl rfl
  | thread mv => exact inv.thread mv
  | call accepts =>
    refine ⟨inv.early, fun none away => ?_⟩
    obtain up | up := accepts
    · cases none.symm.trans up
    · exact absurd up (away _)
  | reply =>
    refine ⟨inv.early, fun none away => ?_⟩
    show c.calls.erase _ = []
    rw [inv.unserved none away]
    rfl
  | main st =>
    cases st with
    | spawn pc =>
      have unborn : c.thread = .unborn := by
        refine fresh.unborn.mpr ?_
        show c.main.grpc.spawned = false
        rw [pc]
        rfl
      have none := inv.early (.inl unborn)
      refine ⟨fun _ => none, fun _ _ => inv.unserved none fun s e => ?_⟩
      cases unborn.symm.trans e
    | shutdown | shutdownAgain => exact shut rfl Option.map_eq_none_iff rfl
    | _ => exact shut rfl Iff.rfl rfl

/-- `main` has waited for the calls. -/
def MainPc.quiet : MainPc → Bool
  | .awaitCalls => false
  | p => p.closed

/-- When the server has been stopped and the calls have been waited for, there are none. -/
def App.Processed (c : App) : Prop :=
  c.main.quiet = true → c.calls = []

/-- `main` waits for the calls after it has stopped the server. -/
lemma MainPc.closed_of_quiet {p : MainPc} (quiet : p.quiet = true) : p.closed = true := by
  cases p with
  | awaitCalls => cases quiet
  | _ => exact quiet

/-- Every timely step keeps calls from coming in again when they have been waited for. -/
lemma App.Processed.step {c c' : App} {a} (inv : c.Processed) (serving : c.Serving)
    (unserved : c.Unserved) (timely : Timely c a) (st : c.step a = some c') : c'.Processed := by
  intro quiet
  cases App.step_moves st with
  | signal | handler | flush | thread => exact inv quiet
  | call accepts => exact absurd accepts (serving.closed (MainPc.closed_of_quiet quiet))
  | reply =>
    show c.calls.erase _ = []
    rw [inv quiet]
    rfl
  | main st =>
    cases st with
    | overlooked pc none =>
      refine unserved.unserved none fun s e => ?_
      have decided := timely rfl pc
      rw [e] at decided
      cases decided
    | processed _ none => exact none
    | startOutstation | startBridge | spawn | requested | found | shutdown => cases quiet
    | inBridge | sleep => exact inv quiet
    | fromBridge after =>
      refine inv ?_
      generalize c.main = p at after
      cases p with
      | stoppingBridge | destroyingBridge => rfl
      | startingBridge =>
        cases after
        cases quiet
      | _ => cases after
    | stopBridge pc | shutdownOutstation pc | join pc | foundAgain pc | noServer pc | shutdownAgain pc
    | destroyBridge pc | destroyOutstation pc => exact inv (pc ▸ rfl)

/-- The calls that are being processed, those that have been answered, and their callers. -/
structure App.Accounted (c : App) : Prop where
  known : ∀ n, c.bridge.callerPc n ≠ .idle →
    ∃ request, (n, request) ∈ c.calls ∨ (n, request) ∈ c.answered
  begun : ∀ n request, (n, request) ∈ c.calls ∨ (n, request) ∈ c.answered →
    c.bridge.callerPc n ≠ .idle ∧ c.bridge.shared.hist.requests n = (updatePoints request).1
  done : ∀ n request, (n, request) ∈ c.answered → c.bridge.callerPc n = .done

/-- A step of the bridge that is none of a caller. -/
lemma App.Accounted.keep {c d : App} (inv : c.Accounted) (calls : d.calls = c.calls)
    (answered : d.answered = c.answered) (callers : d.bridge.callerPc = c.bridge.callerPc)
    (requests : d.bridge.shared.hist.requests = c.bridge.shared.hist.requests) : d.Accounted := by
  refine ⟨?_, ?_, ?_⟩
  · rw [callers, calls, answered]
    exact inv.known
  · rw [callers, calls, answered, requests]
    exact inv.begun
  · rw [callers, answered]
    exact inv.done

/-- A call that comes in. -/
lemma App.Accounted.call {c : App} {n request b} (inv : c.Accounted)
    (idle : c.bridge.callerPc n = .idle)
    (mv : c.bridge.step (.caller n, .apply (updatePoints request).1) = some b) :
    App.Accounted { c with bridge := b, calls := (n, request) :: c.calls } := by
  have begins := System.step_caller mv rfl
  rw [idle] at begins
  obtain ⟨shared, pc⟩ := Prod.mk.inj (Option.some.inj begins)
  have busy : b.callerPc n ≠ .idle := pc ▸ CallerPc.next_ne_idle _
  have asked : b.shared.hist.requests =
      Function.update c.bridge.shared.hist.requests n (updatePoints request).1 := by rw [← shared]
  have other : ∀ m, m ≠ n → b.callerPc m = c.bridge.callerPc m := by
    cases System.step_moves mv with
    | caller e _ callers =>
      cases e
      intro m ne
      rw [callers, Function.update_of_ne ne]
    | flush e => cases e
    | control e => cases e
  -- a call that was there before is one of another caller
  have old : ∀ m r, (m, r) ∈ c.calls ∨ (m, r) ∈ c.answered → m ≠ n := by
    intro m r mem e
    subst e
    exact (inv.begun m r mem).1 idle
  have kept : ∀ m r, (m, r) ∈ c.calls ∨ (m, r) ∈ c.answered →
      b.callerPc m ≠ .idle ∧ b.shared.hist.requests m = (updatePoints r).1 := by
    intro m r mem
    have ne := old m r mem
    rw [other m ne, asked, Function.update_of_ne ne]
    exact inv.begun m r mem
  refine ⟨fun m active => ?_, fun m r mem => ?_, fun m r mem => ?_⟩
  · rcases eq_or_ne m n with rfl | ne
    · exact ⟨request, .inl List.mem_cons_self⟩
    · obtain ⟨r, mem⟩ := inv.known m (other m ne ▸ active)
      exact ⟨r, mem.imp_left (List.mem_cons_of_mem _)⟩
  · obtain mem | mem := mem
    · rcases List.mem_cons.mp mem with e | mem
      · cases e
        exact ⟨busy, by rw [asked, Function.update_self]⟩
      · exact kept m r (.inl mem)
    · exact kept m r (.inr mem)
  · rw [other m (old m r (.inr mem))]
    exact inv.done m r mem

/-- A call that goes on. -/
lemma App.Accounted.handler {c : App} {n i b} (inv : c.Accounted) (mem : n ∈ c.calls.map Prod.fst)
    (mv : c.bridge.step (.caller n, i) = some b) : App.Accounted { c with bridge := b } := by
  obtain ⟨request, call⟩ : ∃ request, (n, request) ∈ c.calls := by
    obtain ⟨⟨m, r⟩, inside, rfl⟩ := List.mem_map.mp mem
    exact ⟨r, inside⟩
  cases System.step_moves mv with
  | flush e => cases e
  | control e => cases e
  | caller e st callers =>
    cases e
    obtain ⟨active, busy, requests⟩ := st.in_call (inv.begun _ _ (.inl call)).1
    have at_work : ∀ m, b.callerPc m = c.bridge.callerPc m ∨
        (m = n ∧ b.callerPc m ≠ .idle) := by
      intro m
      rw [callers]
      rcases eq_or_ne m n with rfl | ne
      · rw [Function.update_self]
        exact .inr ⟨rfl, active⟩
      · rw [Function.update_of_ne ne]
        exact .inl rfl
    refine ⟨fun m active => ?_, fun m r begun => ?_, fun m r answered => ?_⟩
    · obtain same | ⟨rfl, -⟩ := at_work m
      · rw [same] at active
        exact inv.known m active
      · exact ⟨request, .inl call⟩
    · show b.callerPc m ≠ .idle ∧ b.shared.hist.requests m = _
      obtain same | ⟨rfl, now⟩ := at_work m
      · rw [same, requests]
        exact inv.begun m r begun
      · rw [requests]
        exact ⟨now, (inv.begun m r begun).2⟩
    · obtain same | ⟨rfl, -⟩ := at_work m
      · rw [same]
        exact inv.done m r answered
      · exact absurd (inv.done m r answered) busy

/-- Every step keeps the calls in accord with the callers of the bridge. -/
lemma App.Accounted.step {c c' : App} {a} (inv : c.Accounted) (st : c.step a = some c') :
    c'.Accounted := by
  cases App.step_moves st with
  | signal | thread => exact inv.keep rfl rfl rfl rfl
  | call _ idle mv => exact inv.call idle mv
  | handler mem mv => exact inv.handler mem mv
  | flush mv =>
    obtain ⟨callers, requests, -⟩ := System.step_uncalled mv nofun
    exact inv.keep rfl rfl callers requests
  | main st =>
    cases st with
    | startBridge _ mv | inBridge _ mv | stopBridge _ mv | destroyBridge _ mv =>
      obtain ⟨callers, requests, -⟩ := System.step_uncalled mv nofun
      exact inv.keep rfl rfl callers requests
    | _ => exact inv.keep rfl rfl rfl rfl
  | @reply n request call done =>
    refine ⟨fun m active => ?_, fun m r mem => ?_, fun m r mem => ?_⟩
    · obtain ⟨r, mem⟩ := inv.known m active
      refine ⟨r, ?_⟩
      by_cases same : (m, r) = (n, request)
      · exact .inr (same ▸ List.mem_cons_self)
      · exact mem.imp (List.mem_erase_of_ne same).mpr (List.mem_cons_of_mem _)
    · refine inv.begun m r ?_
      obtain mem | mem := mem
      · exact .inl (List.mem_of_mem_erase mem)
      · rcases List.mem_cons.mp mem with e | mem
        · exact .inl (e ▸ call)
        · exact .inr mem
    · rcases List.mem_cons.mp mem with e | mem
      · cases e
        exact done
      · exact inv.done m r mem

/-- In every reachable state the calls are in accord with the callers of the bridge. -/
lemma App.accounted {C fresh cfg as c} (run : Run App.step C (.init fresh cfg) as c) : c.Accounted :=
  run.invariant (fun _ _ _ inv _ st => inv.step st) ⟨fun _ h => absurd rfl h, nofun, nofun⟩

/-- The updates of a call that is done have been pushed. -/
lemma App.done_pushed {C fresh cfg as c} (run : Run App.step C (.init fresh cfg) as c) {n request}
    (call : (n, request) ∈ c.calls ∨ (n, request) ∈ c.answered)
    (done : c.bridge.callerPc n = .done) : c.bridge.pushedBy n = (updatePoints request).1 := by
  obtain ⟨_, run'⟩ := App.bridge_run run
  rw [← ((App.accounted run).begun n request call).2]
  exact (System.accounts run').done done

/-- Everything in a request that has been answered has been pushed. -/
lemma App.answered_pushed {C fresh cfg as c} (run : Run App.step C (.init fresh cfg) as c) {n request}
    (answered : (n, request) ∈ c.answered) : c.bridge.pushedBy n = (updatePoints request).1 :=
  App.done_pushed run (.inr answered) ((App.accounted run).done n request answered)

/-- `main` has stopped the bridge. -/
def MainPc.drained : MainPc → Bool
  | .shutdownOutstation | .join | .destroyServer _ | .destroyBridge | .destroyingBridge
  | .destroyOutstation | .returned => true
  | _ => false

/-- The stop of the bridge finds everything pushed that will be pushed, and leaves it handed over. -/
structure App.Drained (c : App) : Prop where
  mark : c.main = .stoppingBridge → ∀ k,
    c.bridge.controlPc.stopping = some k ∨ c.bridge.controlPc = .stopped k →
      k = c.bridge.shared.hist.pushed.length
  all : c.main.drained = true → c.bridge.shared.hist.handed = c.bridge.shared.hist.pushed

/-- A step that moves neither `main` nor the controlling thread, and pushes nothing, keeps the queue
drained. -/
lemma App.Drained.keep {c d : App} (inv : c.Drained) (main : d.main = c.main)
    (control : d.bridge.controlPc = c.bridge.controlPc)
    (pushed : d.bridge.shared.hist.pushed = c.bridge.shared.hist.pushed)
    (handed : c.main.drained = true → d.bridge.shared.hist.handed = c.bridge.shared.hist.handed) :
    d.Drained := by
  refine ⟨?_, fun pc => ?_⟩
  · rw [main, control, pushed]
    exact inv.mark
  · rw [main] at pc
    rw [handed pc, pushed]
    exact inv.all pc

/-- The mark of a stop under way is the one with which it has begun. -/
lemma ControlStep.mark {s i q s' q' k} (st : ControlStep s i q s' q')
    (old : ∀ k, q.stopping = some k ∨ q = .stopped k → k = s.hist.pushed.length)
    (mark : q'.stopping = some k ∨ q' = .stopped k) : k = s.hist.pushed.length := by
  obtain e | rfl := mark
  · obtain ⟨-, before | ⟨now, -⟩⟩ := st.stopping_inv e
    · exact old k (.inl before)
    · exact now
  · exact old k (.inl st.stopped_inv.1)

/-- A stop that has returned to `main` has handed over what was pushed before. -/
lemma Stage.returned {p run q} (stage : Stage p run q) (pc : p = .stoppingBridge)
    (rest : q = .idle ∨ ∃ k, q = .stopped k) : ∃ k, q = .stopped k := by
  refine rest.resolve_left fun e => ?_
  subst pc e
  cases stage with
  | before h => obtain h | h := h <;> cases h
  | serving h => cases h
  | stopping h => obtain h | h := h <;> cases h
  | cleared h => obtain h | h := h <;> cases h
  | gone h => obtain h | h := h <;> cases h

/-- The invariants of a process whose `main` looks at `server_` in time. -/
structure App.Graceful (c : App) : Prop where
  sound : c.Sound
  flow : c.bridge.Flow
  serving : c.Serving
  unserved : c.Unserved
  processed : c.Processed
  drained : c.Drained

/-- When `main` has stopped the bridge, the calls have been waited for and no flush thread may run. -/
lemma MainPc.quiet_of_drained {p : MainPc} (h : p.drained = true) :
    p.quiet = true ∧ p.flushing = false := by
  cases p with
  | shutdownOutstation | join | destroyServer | destroyBridge | destroyingBridge | destroyOutstation
  | returned => exact ⟨rfl, rfl⟩
  | _ => cases h

/-- Before the stop of the bridge there is nothing to say. -/
lemma App.Drained.early {c : App} (not_stopping : c.main ≠ .stoppingBridge)
    (not_drained : c.main.drained = false) : c.Drained :=
  ⟨fun pc => absurd pc not_stopping, fun pc => nomatch not_drained.symm.trans pc⟩

/-- `main` is in a call of the bridge at three places. -/
lemma MainPc.afterCall_inv {p q : MainPc} (after : p.afterCall = some q) :
    (p = .startingBridge ∧ q = .spawn) ∨ (p = .stoppingBridge ∧ q = .shutdownOutstation) ∨
      (p = .destroyingBridge ∧ q = .destroyOutstation) := by
  cases p with
  | startingBridge => cases after; exact .inl ⟨rfl, rfl⟩
  | stoppingBridge => cases after; exact .inr (.inl ⟨rfl, rfl⟩)
  | destroyingBridge => cases after; exact .inr (.inr ⟨rfl, rfl⟩)
  | _ => cases after

/-- Every step of `main` keeps the queue drained once the bridge has been stopped. -/
lemma App.Drained.main {c c' : App} (inv : c.Graceful) (st : MainStep c c') : c'.Drained := by
  have old := inv.drained
  cases st with
  | startOutstation | startBridge | spawn | requested | found | overlooked | shutdown | processed =>
    exact .early nofun rfl
  | sleep => exact old
  | @inBridge b q after mv =>
    obtain ⟨st, -, -⟩ := System.step_control mv
    obtain ⟨-, hist⟩ := st.flow
    refine ⟨fun pc k mark => ?_, fun pc => ?_⟩
    · show k = b.shared.hist.pushed.length
      rw [hist]
      exact ControlStep.mark st (old.mark pc) mark
    · show b.shared.hist.handed = b.shared.hist.pushed
      rw [hist]
      exact old.all pc
  | @fromBridge q after rest =>
    obtain ⟨-, rfl⟩ | ⟨pc, rfl⟩ | ⟨pc, rfl⟩ := MainPc.afterCall_inv after
    · exact .early nofun rfl
    · -- the stop has returned, and no more than its mark has been pushed
      obtain ⟨k, e⟩ := inv.sound.inStep.returned pc rest
      have mark := old.mark pc k (.inr e)
      have handed := inv.flow.stopped e
      have order := inv.flow.order
      refine ⟨nofun, fun _ => ?_⟩
      rw [mark, ← order, List.append_assoc, List.length_append] at handed
      have none : c.bridge.batch ++ c.bridge.shared.queue = [] :=
        List.length_eq_zero_iff.mp (by omega)
      rw [List.append_assoc, none, List.append_nil] at order
      exact order
    · exact ⟨nofun, fun _ => old.all (pc ▸ rfl)⟩
  | stopBridge pc mv =>
    obtain ⟨st, -, -⟩ := System.step_control mv
    have idle := inv.sound.inStep.idle (pc ▸ rfl)
    refine ⟨fun _ k mark => ?_, nofun⟩
    rw [(st.flow).2]
    refine ControlStep.mark st (fun k h => ?_) mark
    rw [idle] at h
    obtain h | h := h <;> cases h
  | destroyBridge pc mv =>
    obtain ⟨st, -, -⟩ := System.step_control mv
    obtain ⟨-, hist⟩ := st.flow
    refine ⟨nofun, fun _ => ?_⟩
    have all := old.all (pc ▸ rfl)
    rw [← hist] at all
    exact all
  | shutdownOutstation pc | join pc | foundAgain pc | noServer pc | shutdownAgain pc
  | destroyOutstation pc => exact ⟨nofun, fun _ => old.all (pc ▸ rfl)⟩

/-- Every step keeps the queue drained once the bridge has been stopped. -/
lemma App.Drained.step {c c' : App} {a} (inv : c.Graceful) (st : c.step a = some c') :
    c'.Drained := by
  have old := inv.drained
  -- once `main` has waited for the calls there are none
  have none : c.main.quiet = true → ∀ n, n ∉ c.calls.map Prod.fst := by
    intro quiet n mem
    rw [inv.processed quiet] at mem
    cases mem
  have quiet : c.main = .stoppingBridge ∨ c.main.drained = true → c.main.quiet = true := by
    intro h
    obtain e | e := h
    · rw [e]
      rfl
    · exact (MainPc.quiet_of_drained e).1
  have early : ∀ {d : App}, d.main = c.main → ¬ c.main.quiet = true → d.Drained := by
    intro d main busy
    refine .early (fun e => busy (quiet (.inl (main ▸ e)))) (Bool.eq_false_iff.mpr fun e => ?_)
    exact busy (quiet (.inr (main ▸ e)))
  cases App.step_moves st with
  | signal | thread | reply => exact old.keep rfl rfl rfl fun _ => rfl
  | call accepts =>
    refine early rfl fun quiet => ?_
    exact inv.serving.closed (MainPc.closed_of_quiet quiet) accepts
  | handler mem => exact early rfl fun quiet => none quiet _ mem
  | @flush n i b mv =>
    obtain ⟨-, -, pushed⟩ := System.step_uncalled mv nofun
    obtain ⟨-, control⟩ := System.step_other mv nofun
    refine old.keep rfl control pushed fun drained => ?_
    cases System.step_moves mv with
    | caller e => cases e
    | control e => cases e
    | flush e mv =>
      have on := inv.sound.flushing mv
      cases on.symm.trans (MainPc.quiet_of_drained drained).2
  | main st => exact App.Drained.main inv st

/-- Every timely step keeps the invariants. -/
lemma App.Graceful.step {c c' : App} {a} (inv : c.Graceful) (timely : Timely c a)
    (st : c.step a = some c') : c'.Graceful := by
  refine ⟨inv.sound.step st, ?_, inv.serving.step timely st, inv.unserved.step inv.serving.fresh st,
    inv.processed.step inv.serving inv.unserved timely st, App.Drained.step inv st⟩
  obtain same | ⟨b, mv⟩ := c.step_bridge st
  · rw [same]
    exact inv.flow
  · exact inv.flow.step inv.sound.lifecycle mv

/-- The invariants hold at the beginning. -/
lemma App.Graceful.init (fresh : FreshPoints) (cfg : AppConfig) : (App.init fresh cfg).Graceful := by
  refine ⟨.init fresh cfg, .init, .init fresh cfg, ⟨fun _ => rfl, fun _ _ => rfl⟩, nofun, ?_⟩
  exact .early nofun rfl

/-- If `main` looks at `server_` in time, then by the time it shuts the outstation down every call has
been processed, everything pushed has been handed over, so the updates of every answered request have
been applied, all of them once and in order, and the outstation is what they have made it. -/
theorem graceful_shutdown {fresh cfg as c} (run : Run App.step Timely (.init fresh cfg) as c)
    (drained : c.main.drained = true) :
    c.calls = [] ∧ c.bridge.shared.hist.handed = c.bridge.shared.hist.pushed ∧
      (∀ n request, (n, request) ∈ c.answered →
        (c.bridge.shared.hist.handed.filter fun e => e.caller = n).map Entry.update =
          (updatePoints request).1) ∧
      c.outstation =
        c.main.outstation fresh cfg (c.bridge.shared.hist.pushed.map Entry.update) := by
  have inv : c.Graceful :=
    run.invariant (fun _ _ _ inv timely st => inv.step timely st) (.init fresh cfg)
  have all := inv.drained.all drained
  refine ⟨inv.processed (MainPc.quiet_of_drained drained).1, all, fun n request mem => ?_, ?_⟩
  · rw [all]
    exact App.answered_pushed run mem
  · rw [← all]
    exact (App.mirrored run).outstation

/-- A request is answered before the flush thread has begun to run; `main` stops the server and waits
for the flush thread. -/
def stopAfterAnswer : List Action :=
  startUp ++ [.call 0 meterReading] ++ List.replicate 4 (.handler 0 .go) ++ [.reply 0, .signal] ++
    List.replicate 9 .main ++ List.replicate 13 (.flush 0 .go) ++ List.replicate 2 .main

/-- The update has been handed over when `main` comes to shut the outstation down. -/
theorem stopAfterAnswer_delivers :
    ∃ c, Run App.step Timely (.init .documented {}) stopAfterAnswer c ∧ c.main = .shutdownOutstation ∧
      c.answered = [(0, meterReading)] ∧
      (c.bridge.shared.hist.handed.filter fun e => e.caller = 0).map Entry.update =
        (updatePoints meterReading).1 := by
  have delivered : ∀ c, exec (guarded App.step Timely) (.init .documented {}) stopAfterAnswer = some c →
      c.main.drained = true → (0, meterReading) ∈ c.answered →
      (c.bridge.shared.hist.handed.filter fun e => e.caller = 0).map Entry.update =
        (updatePoints meterReading).1 := by
    intro c e drained answered
    exact (graceful_shutdown (Run.of_exec_guarded e) drained).2.2.1 0 meterReading answered
  exact ⟨_, Run.of_exec_guarded rfl, rfl, rfl, delivered _ rfl rfl List.mem_cons_self⟩

end Dnp3Bridge.Main
