import Dnp3Bridge.Main.Shutdown

/-!
# Requests in real time

A client that has its answer can rely on the order: whatever comes in later is handed over to the
outstation later. The updates of a request that has been answered all stand in the queue, or have left
it, before a later one comes in.
-/

namespace Dnp3Bridge.Main
open Bridge Concurrency Config Grpc Outstation Proto

/-- What has been pushed stays pushed. -/
lemma pushed_grows {b b' : System} {a} (st : b.step a = some b') :
    b.shared.hist.pushed <+: b'.shared.hist.pushed := by
  cases System.step_moves st with
  | caller _ st =>
    obtain ⟨es, -, pushed, -⟩ := st.flow
    exact ⟨es, pushed.symm⟩
  | flush _ st =>
    rw [st.flow.2.1]
  | control _ st =>
    rw [st.flow.2]

/-- The records of a call that has been answered. -/
structure App.Kept (past : List Entry) (n : Nat) (request : UpdateRequest) (c : App) : Prop where
  pushed : past <+: c.bridge.shared.hist.pushed
  answered : (n, request) ∈ c.answered

/-- Every step keeps the records of a call that has been answered. -/
lemma App.Kept.step {past n request} {c c' : App} {a} (inv : c.Kept past n request)
    (st : c.step a = some c') : c'.Kept past n request := by
  refine ⟨?_, ?_⟩
  · obtain same | ⟨b, mv⟩ := c.step_bridge st
    · rw [same]
      exact inv.pushed
    · exact inv.pushed.trans (pushed_grows mv)
  · cases App.step_moves st with
    | reply => exact List.mem_cons_of_mem _ inv.answered
    | main st => cases st <;> exact inv.answered
    | _ => exact inv.answered

/-- A caller that has not begun has pushed nothing. -/
lemma nothing_pushed {b : System} (acc : b.Accounts) {m} (idle : b.callerPc m = .idle) :
    ∀ e ∈ b.shared.hist.pushed, e.caller ≠ m := by
  intro e mem own
  have account := acc.account m
  rw [acc.idle idle] at account
  have none := (List.append_eq_nil_iff.mp account).1
  have inside : e ∈ b.shared.hist.pushed.filter fun e => e.caller = m :=
    List.mem_filter.mpr ⟨mem, decide_eq_true own⟩
  rw [List.map_eq_nil_iff.mp none] at inside
  cases inside

/-- What comes before the first entry outside a prefix contains the prefix. -/
lemma prefix_of_outside {α : Type*} {past all xs ys : List α} {e} (before : past <+: all)
    (split : all = xs ++ e :: ys) (outside : e ∉ past) : past <+: xs := by
  have upTo : xs ++ [e] <+: all := ⟨ys, by rw [split, List.append_assoc, List.singleton_append]⟩
  obtain shorter | longer := List.prefix_or_prefix_of_prefix before upTo
  · obtain e' | inside := List.prefix_concat_iff.mp shorter
    · refine absurd ?_ outside
      rw [e']
      exact List.mem_concat_self
    · exact inside
  · exact absurd (longer.subset List.mem_concat_self) outside

/-- If a prefix has all entries of a kind, nothing of the kind follows. -/
lemma filter_of_prefix {α β : Type*} {f : α → β} {p : α → Bool} {past xs ys : List α}
    (before : past <+: xs) (whole : ((xs ++ ys).filter p).map f = (past.filter p).map f) :
    (xs.filter p).map f = (past.filter p).map f ∧ ys.filter p = [] := by
  obtain ⟨zs, rfl⟩ := before
  simp only [List.filter_append, List.map_append, List.append_assoc] at whole ⊢
  obtain ⟨between, after⟩ := List.append_eq_nil_iff.mp (List.append_right_eq_self.mp whole)
  rw [between, List.append_nil]
  exact ⟨rfl, List.map_eq_nil_iff.mp after⟩

/-- When an update of a call that came in after another one had been answered is handed over, all
updates of that one have been handed over, in order, and none of them follows. -/
theorem answered_comes_first {C fresh cfg as bs c c'} (run : Run App.step C (.init fresh cfg) as c)
    (later : Run App.step C c bs c') {n m request} (answered : (n, request) ∈ c.answered)
    (idle : c.bridge.callerPc m = .idle) {xs e ys}
    (split : c'.bridge.shared.hist.handed = xs ++ e :: ys) (own : e.caller = m) :
    (xs.filter fun e => e.caller = n).map Entry.update = (updatePoints request).1 ∧
      ∀ e' ∈ ys, e'.caller ≠ n := by
  obtain ⟨_, before⟩ := App.bridge_run run
  obtain ⟨_, after⟩ := App.bridge_run (run.append later)
  have kept : c'.Kept c.bridge.shared.hist.pushed n request :=
    later.invariant (fun _ _ _ inv _ st => inv.step st) ⟨List.prefix_rfl, answered⟩
  -- the later call has pushed nothing by then
  have outside : e ∉ c.bridge.shared.hist.pushed := by
    intro mem
    exact nothing_pushed (System.accounts before) idle e mem own
  have order := (System.flow after).order
  rw [split, List.append_assoc, List.append_assoc, List.cons_append] at order
  have past := prefix_of_outside kept.pushed order.symm outside
  -- and the answered one has pushed nothing since
  have whole := App.answered_pushed run answered
  have whole' := App.answered_pushed (run.append later) kept.answered
  unfold System.pushedBy at whole whole'
  rw [← order, ← whole] at whole'
  obtain ⟨all, nothing⟩ := filter_of_prefix past whole'
  refine ⟨all.trans whole, fun e' mem same => ?_⟩
  refine List.filter_eq_nil_iff.mp nothing e' ?_ (decide_eq_true same)
  exact List.mem_cons_of_mem _ (List.mem_append_left _ mem)

/-- The next request for this point. -/
def nextReading : UpdateRequest :=
  { meterReading with analogs := [⟨3, .finite 2, .good⟩] }

/-- A request is answered before the flush thread has begun to run. -/
def firstAnswered : List Action :=
  startUp ++ [.call 0 meterReading] ++ List.replicate 4 (.handler 0 .go) ++ [.reply 0]

/-- The next one comes in, and the flush thread takes the updates of both. -/
def secondFollows : List Action :=
  [.call 1 nextReading] ++ List.replicate 4 (.handler 1 .go) ++ List.replicate 8 (.flush 0 .go)

/-- The update of the first request comes first. -/
theorem secondFollows_first :
    ∃ c c', Run App.step Always (.init .documented {}) firstAnswered c ∧
      Run App.step Always c secondFollows c' ∧
      ∃ xs e ys, c'.bridge.shared.hist.handed = xs ++ e :: ys ∧ e.caller = 1 ∧
        (xs.filter fun e => e.caller = 0).map Entry.update = (updatePoints meterReading).1 ∧
        ∀ e' ∈ ys, e'.caller ≠ 0 := by
  have ordered : ∀ c c', exec App.step (.init .documented {}) firstAnswered = some c →
      exec App.step c secondFollows = some c' → (0, meterReading) ∈ c.answered →
      c.bridge.callerPc 1 = .idle → ∀ xs e ys, c'.bridge.shared.hist.handed = xs ++ e :: ys →
      e.caller = 1 → (xs.filter fun e => e.caller = 0).map Entry.update =
        (updatePoints meterReading).1 ∧ ∀ e' ∈ ys, e'.caller ≠ 0 := by
    intro c c' first second answered idle xs e ys split own
    exact answered_comes_first (Run.of_exec first) (Run.of_exec second) answered idle split own
  refine ⟨_, _, Run.of_exec rfl, Run.of_exec rfl,
    [⟨.analog ⟨3, .finite 1, .good⟩, 0⟩], ⟨.analog ⟨3, .finite 2, .good⟩, 1⟩, [], rfl, rfl, ?_⟩
  exact ordered _ _ rfl rfl List.mem_cons_self rfl _ _ _ rfl rfl

end Dnp3Bridge.Main
