import Dnp3Bridge.Main.Shutdown

/-!
# What `main` waits for

Once a signal has come, and if `main` looks at `server_` in time, it waits for nothing for ever: the
calls that are being processed come to their end, the flush thread drains the queue and ends, and
`start` returns from `Wait`. So when no thread can go on `main` has returned (`App.Orderly.returned`),
and until then every step is paid for by what is left to do (`App.pays`).
-/

namespace Dnp3Bridge.Main
open Bridge Concurrency Config Grpc Outstation Proto

/-- A step that is neither a signal nor a new call, and wakes no flush thread spuriously. -/
def Own (c : App) : Action → Prop
  | .signal | .call _ _ => False
  | .main => Timely c .main
  | .thread _ | .reply _ => True
  | .handler _ i | .flush _ i => i.Own

/-- The statements that `main` has before it, and what its calls of the bridge cost. -/
def MainPc.rank : MainPc → ℕ
  | .startOutstation => 56
  | .startBridge => 55
  | .startingBridge => 43
  | .spawn => 42
  | .poll => 35
  | .stopServer .check => 34
  | .stopServer .shutdown => 33
  | .awaitCalls => 32
  | .stopBridge => 31
  | .stoppingBridge => 19
  | .shutdownOutstation => 18
  | .join => 17
  | .destroyServer .check => 16
  | .destroyServer .shutdown => 15
  | .destroyBridge => 14
  | .destroyingBridge => 2
  | .destroyOutstation => 1
  | .returned => 0

/-- The statements that `start` has before it. -/
def startRank : StartPc → ℕ
  | .build => 5
  | .publish _ => 4
  | .check => 3
  | .log => 2
  | .wait => 1
  | .unborn | .returned => 0

/-- What is left to do. -/
def App.rank (S : Finset ℕ) (c : App) : ℕ :=
  c.bridge.rank S + c.main.rank + startRank c.thread + c.calls.length

/-- Every step of `start` lowers its rank. -/
lemma start_pays {built server p s q} (mv : Grpc.start built server p = some (s, q)) :
    startRank q + 1 ≤ startRank p := by
  cases start_inv mv <;> simp only [startRank] <;> omega

/-- The return of a call of the bridge lowers the rank of `main`. -/
lemma MainPc.rank_after {p q : MainPc} (after : p.afterCall = some q) : q.rank + 1 ≤ p.rank := by
  obtain ⟨rfl, rfl⟩ | ⟨rfl, rfl⟩ | ⟨rfl, rfl⟩ := MainPc.afterCall_inv after <;>
    simp only [MainPc.rank] <;> omega

/-- The statements of `main` pay for what they start. -/
lemma MainStep.pays {c c' : App} {S : Finset ℕ} (st : MainStep c c')
    (sound : System.Sound c.bridge) (asked : c.requested = true) : c'.rank S + 1 ≤ c.rank S := by
  have paid : ∀ {b i}, c.bridge.step (.control, i) = some b →
      b.rank S + 1 ≤ c.bridge.rank S + i.credit := fun mv => sound.pays (fun _ e => by cases e) mv
  cases st with
  | @startBridge b pc mv =>
    have cost := paid mv
    simp only [Choice.credit] at cost
    show b.rank S + 43 + startRank c.thread + c.calls.length + 1 ≤
      c.bridge.rank S + c.main.rank + startRank c.thread + c.calls.length
    simp only [pc, MainPc.rank]
    omega
  | @stopBridge b pc mv =>
    have cost := paid mv
    simp only [Choice.credit] at cost
    show b.rank S + 19 + startRank c.thread + c.calls.length + 1 ≤
      c.bridge.rank S + c.main.rank + startRank c.thread + c.calls.length
    simp only [pc, MainPc.rank]
    omega
  | @destroyBridge b pc mv =>
    have cost := paid mv
    simp only [Choice.credit] at cost
    show b.rank S + 2 + startRank c.thread + c.calls.length + 1 ≤
      c.bridge.rank S + c.main.rank + startRank c.thread + c.calls.length
    simp only [pc, MainPc.rank]
    omega
  | @inBridge b q _ mv =>
    have cost := paid mv
    simp only [Choice.credit] at cost
    show b.rank S + c.main.rank + startRank c.thread + c.calls.length + 1 ≤
      c.bridge.rank S + c.main.rank + startRank c.thread + c.calls.length
    omega
  | @fromBridge q after =>
    have lower := MainPc.rank_after after
    show c.bridge.rank S + q.rank + startRank c.thread + c.calls.length + 1 ≤
      c.bridge.rank S + c.main.rank + startRank c.thread + c.calls.length
    omega
  | spawn pc =>
    show c.bridge.rank S + 35 + 5 + c.calls.length + 1 ≤
      c.bridge.rank S + c.main.rank + startRank c.thread + c.calls.length
    simp only [pc, MainPc.rank]
    omega
  | sleep _ quiet => cases asked.symm.trans quiet
  | startOutstation pc | requested pc | found pc | overlooked pc | shutdown pc | processed pc
  | shutdownOutstation pc | join pc | foundAgain pc | noServer pc | shutdownAgain pc
  | destroyOutstation pc =>
    simp only [App.rank, pc, MainPc.rank]
    omega

/-- Every step is paid for by what is left to do. -/
lemma App.pays {c c' : App} {a} {S : Finset ℕ} (sound : System.Sound c.bridge)
    (asked : c.requested = true) (member : ∀ n, n ∈ c.calls.map Prod.fst → n ∈ S) (own : Own c a)
    (st : c.step a = some c') : c'.rank S + 1 ≤ c.rank S := by
  cases App.step_moves st with
  | signal | call => cases own
  | main st => exact st.pays sound asked
  | @thread _ s p mv =>
    have paid := start_pays mv
    show c.bridge.rank S + c.main.rank + startRank p + c.calls.length + 1 ≤
      c.bridge.rank S + c.main.rank + startRank c.thread + c.calls.length
    omega
  | @reply n request call =>
    have erased := List.length_erase_of_mem call
    have some := List.length_pos_of_mem call
    show c.bridge.rank S + c.main.rank + startRank c.thread + (c.calls.erase (n, request)).length + 1 ≤
      c.bridge.rank S + c.main.rank + startRank c.thread + c.calls.length
    omega
  | @handler n i b mem mv =>
    have paid := sound.pays (S := S) (fun m e => by cases e; exact member _ mem) mv
    rw [Choice.Own.credit own] at paid
    show b.rank S + c.main.rank + startRank c.thread + c.calls.length + 1 ≤
      c.bridge.rank S + c.main.rank + startRank c.thread + c.calls.length
    omega
  | @flush n i b mv =>
    have paid := sound.pays (S := S) (fun _ e => by cases e) mv
    rw [Choice.Own.credit own] at paid
    show b.rank S + c.main.rank + startRank c.thread + c.calls.length + 1 ≤
      c.bridge.rank S + c.main.rank + startRank c.thread + c.calls.length
    omega

/-- The callers whose calls are being processed. -/
def App.callers (c : App) : Finset ℕ :=
  (c.calls.map Prod.fst).toFinset

/-- A step of its own takes no signal back and adds no call. -/
lemma App.step_own {c c' : App} {a} (own : Own c a) (st : c.step a = some c') :
    (c.requested = true → c'.requested = true) ∧ ∀ call ∈ c'.calls, call ∈ c.calls := by
  cases App.step_moves st with
  | signal | call => cases own
  | main st => cases st <;> exact ⟨id, fun _ => id⟩
  | reply => exact ⟨id, fun _ mem => List.mem_of_mem_erase mem⟩
  | thread | handler | flush => exact ⟨id, fun _ => id⟩

/-- A step of its own is timely. -/
lemma Own.timely {c : App} {a} (own : Own c a) : Timely c a := by
  intro e
  subst e
  exact own rfl

/-- While `start` is in `Wait`, or about to call it, there is a server. -/
def App.Listening (c : App) : Prop :=
  c.thread = .log ∨ c.thread = .wait → c.server ≠ none

/-- Every step leaves a server to the thread that is in `Wait`. -/
lemma App.Listening.step {c c' : App} {a} (inv : c.Listening) (st : c.step a = some c') :
    c'.Listening := by
  cases App.step_moves st with
  | signal | call | handler | reply | flush => exact inv
  | @thread built s p mv =>
    unfold Listening at inv ⊢
    have st := start_inv mv
    generalize c.thread = q at st inv
    cases st with
    | found some => exact fun _ => some
    | log => exact fun _ => inv (.inl rfl)
    | build | publish | failed | wake => nofun
  | main st =>
    cases st with
    | spawn => nofun
    | shutdown | shutdownAgain => exact fun pc none => inv pc (Option.map_eq_none_iff.mp none)
    | _ => exact inv

/-- The invariants of a process whose `main` looks at `server_` in time. -/
structure App.Orderly (c : App) : Prop where
  graceful : c.Graceful
  accounted : c.Accounted
  listening : c.Listening
  sound : System.Sound c.bridge
  typed : c.bridge.Typed

/-- In every timely run the invariants hold. -/
lemma App.orderly {fresh cfg as c} (run : Run App.step Timely (.init fresh cfg) as c) : c.Orderly := by
  obtain ⟨bs, run'⟩ := App.bridge_run run
  refine ⟨?_, ?_, ?_, ?_, System.typed run'⟩
  · exact run.invariant (fun _ _ _ inv timely st => inv.step timely st) (.init fresh cfg)
  · exact run.invariant (fun _ _ _ inv _ st => inv.step st) ⟨fun _ h => absurd rfl h, nofun, nofun⟩
  · refine run.invariant (fun _ _ _ inv _ st => inv.step st) fun h => ?_
    obtain h | h := h <;> cases h
  · exact run'.invariant (fun _ _ _ inv _ st => inv.step st) .init

/-- Outside its calls of the bridge `main` finds the controlling thread at rest. -/
lemma Stage.at_rest {p run q} (stage : Stage p run q) (out : p.afterCall = none) :
    q = .idle ∨ ∃ k, q = .stopped k := by
  cases stage with
  | before | serving | gone => exact .inl rfl
  | stopped => exact .inr ⟨_, rfl⟩
  | starting | started | stopping | cleared | again => cases out

/-- In its calls of the bridge `main` goes on with them. -/
lemma App.mainStep_after {c : App} {q} (after : c.main.afterCall = some q) :
    c.mainStep = c.inBridge q := by
  unfold mainStep
  generalize c.main = p at after ⊢
  cases p with
  | startingBridge | stoppingBridge | destroyingBridge => cases after; rfl
  | _ => cases after

/-- A call of the bridge that does not go on waits. -/
lemma App.inBridge_none {c : App} {q} (st : c.inBridge q = none) :
    c.bridge.step (.control, .go) = none := by
  unfold inBridge at st
  split at st
  case h_1 | h_2 => cases st
  case h_3 => exact Option.map_eq_none_iff.mp st

/-- The bridge of a process that cannot go on waits everywhere. -/
lemma App.Orderly.waiting {c : App} (inv : c.Orderly) (stuck : Stuck App.step Own c) :
    c.bridge.Waiting := by
  obtain ⟨caller, flush, control⟩ := inv.typed.pcs
  refine ⟨fun n => ?_, fun n => flushLoop_blocked ?_, ?_⟩
  · by_cases idle : c.bridge.callerPc n = .idle
    · rw [idle]
      exact .idle
    obtain ⟨request, mem | mem⟩ := inv.accounted.known n idle
    case inr =>
      rw [inv.accounted.done n request mem]
      exact .done
    have mem : n ∈ c.calls.map Prod.fst := List.mem_map_of_mem mem
    refine applyUpdate_blocked (n := n) fun i own => ?_
    have none := stuck (.handler n i) own
    rw [App.step, if_pos mem] at none
    have none := Option.map_eq_none_iff.mp (Option.map_eq_none_iff.mp none)
    rw [caller] at none
    exact Option.map_eq_none_iff.mp none
  · have none := Option.map_eq_none_iff.mp (stuck (.flush n .go) (.inl rfl))
    have none := Option.map_eq_none_iff.mp none
    rw [flush] at none
    exact Option.map_eq_none_iff.mp none
  · cases after : c.main.afterCall with
    | none =>
      obtain e | ⟨k, e⟩ := inv.graceful.sound.inStep.at_rest after
      · rw [e]
        exact .idle
      · rw [e]
        exact .stopped
    | some q =>
      have none := stuck .main fun _ pc => by rw [pc] at after; cases after
      have blocked := App.inBridge_none ((App.mainStep_after after).symm.trans none)
      refine startStop_blocked ?_
      have none := Option.map_eq_none_iff.mp blocked
      rw [control] at none
      exact Option.map_eq_none_iff.mp none

/-- The calls of a process that cannot go on have been answered. -/
lemma App.Orderly.no_calls {c : App} (inv : c.Orderly) (stuck : Stuck App.step Own c) :
    c.calls = [] := by
  have waiting := inv.waiting stuck
  have free := waiting.free inv.typed inv.sound.held
  refine List.eq_nil_iff_forall_not_mem.mpr fun call mem => ?_
  obtain ⟨n, request⟩ := call
  have busy := (inv.accounted.begun n request (.inl mem)).1
  have done := ((waiting.caller n).at_rest free).resolve_left busy
  -- so the call can be answered
  have answer := stuck (.reply n) trivial
  simp only [App.step] at answer
  split at answer
  case h_1 =>
    rw [if_pos done] at answer
    cases answer
  case h_2 lost =>
    have other := List.find?_eq_none.mp lost (n, request) mem
    exact other (decide_eq_true rfl)

/-- The thread of a process that cannot go on has returned, if `main` has started and stopped it. -/
lemma App.Orderly.thread_returned {c : App} (inv : c.Orderly) (stuck : Stuck App.step Own c)
    (stopped : c.main.closed = true) : c.thread = .returned := by
  have shut := inv.graceful.serving.heeded.shut (MainPc.closed_grpc stopped)
  have unborn := inv.graceful.serving.fresh.unborn
  have st := Option.map_eq_none_iff.mp (stuck (.thread true) trivial)
  have listening := inv.listening
  unfold Listening at listening
  have born : c.thread ≠ .unborn := by
    intro e
    have early : c.main.grpc.spawned = false := unborn.mp e
    generalize c.main = p at stopped early
    cases p with
    | startOutstation | startBridge | startingBridge | spawn | poll | stopServer => cases stopped
    | _ => cases early
  generalize c.thread = p at st listening born
  cases p with
  | unborn => exact absurd rfl born
  | build | publish | check | log => cases st
  | wait =>
    -- `Shutdown` has been called on the server that is waited for
    obtain ⟨⟨down⟩, up⟩ := Option.ne_none_iff_exists'.mp (listening (.inr rfl))
    cases down with
    | false => exact absurd up shut
    | true =>
      rw [up] at st
      cases st
  | returned => rfl

/-- `main` does not have to wait for `start` to publish its server. -/
lemma App.Orderly.timely {c : App} (inv : c.Orderly) (stuck : Stuck App.step Own c) : Own c .main := by
  intro _ pc
  by_contra undecided
  have unborn := inv.graceful.serving.fresh.unborn
  have st := Option.map_eq_none_iff.mp (stuck (.thread true) trivial)
  have born : c.thread ≠ .unborn := by
    intro e
    have early : c.main.grpc.spawned = false := unborn.mp e
    rw [pc] at early
    cases early
  generalize c.thread = p at st born undecided
  cases p with
  | unborn => exact born rfl
  | build | publish => cases st
  | check | log | wait | returned => exact undecided rfl

/-- A controlling thread at rest can call the bridge. -/
lemma call_enabled {b : System} {i : Choice} (typed : b.Typed) (call : i = .start ∨ i = .stop)
    (rest : b.controlPc = .idle ∨ ∃ k, b.controlPc = .stopped k) : b.step (.control, i) ≠ none := by
  intro st
  have st := Option.map_eq_none_iff.mp st
  rw [typed.pcs.2.2] at st
  have st := Option.map_eq_none_iff.mp st
  obtain e | ⟨k, e⟩ := rest
  · rw [e] at st
    obtain rfl | rfl := call <;> cases st
  · rw [e] at st
    obtain rfl | rfl := call <;> cases st

/-- A process that has been asked to end and cannot go on has ended. -/
lemma App.Orderly.returned {c : App} (inv : c.Orderly) (stuck : Stuck App.step Own c) :
    c.main = .returned := by
  have st : c.mainStep = none := stuck .main (inv.timely stuck)
  have rest := (inv.waiting stuck).life inv.typed inv.sound
  have starts := call_enabled inv.typed (.inl rfl) rest.1
  have stops := call_enabled inv.typed (.inr rfl) rest.1
  have inBridge : ∀ q, c.inBridge q ≠ none := by
    intro q
    unfold inBridge
    obtain e | ⟨k, e⟩ := rest.1 <;> rw [e] <;> nofun
  unfold mainStep at st
  cases e : c.main with
  | startBridge =>
    rw [e] at st
    exact absurd (Option.map_eq_none_iff.mp st) starts
  | stopBridge | destroyBridge =>
    rw [e] at st
    exact absurd (Option.map_eq_none_iff.mp st) stops
  | startingBridge | stoppingBridge | destroyingBridge =>
    rw [e] at st
    exact absurd st (inBridge _)
  | awaitCalls =>
    rw [e] at st
    dsimp only at st
    rw [if_pos (inv.no_calls stuck)] at st
    cases st
  | join =>
    have returned := inv.thread_returned stuck (e ▸ rfl)
    rw [e] at st
    dsimp only at st
    rw [if_pos returned] at st
    cases st
  | stopServer p | destroyServer p =>
    rw [e] at st
    cases p <;> cases st
  | startOutstation | spawn | poll | shutdownOutstation | destroyOutstation =>
    rw [e] at st
    cases st
  | returned => rfl

/-- What the ranking of the steps of its own rests on. -/
structure App.Ending (S : Finset ℕ) (c : App) : Prop where
  sound : System.Sound c.bridge
  asked : c.requested = true
  member : ∀ n, n ∈ c.calls.map Prod.fst → n ∈ S

/-- Every step of its own leaves the signal and brings in no call. -/
lemma App.Ending.step {S : Finset ℕ} {c c' : App} {a} (inv : c.Ending S) (own : Own c a)
    (st : c.step a = some c') : c'.Ending S := by
  obtain ⟨asked, fewer⟩ := App.step_own own st
  refine ⟨?_, asked inv.asked, fun n mem => inv.member n ?_⟩
  · obtain same | ⟨b, mv⟩ := c.step_bridge st
    · rw [same]
      exact inv.sound
    · exact inv.sound.step mv
  · obtain ⟨call, inside, rfl⟩ := List.mem_map.mp mem
    exact List.mem_map_of_mem (fewer call inside)

end Dnp3Bridge.Main
