import Dnp3Bridge.Bridge.Queue

/-!
# The accounts of the callers

What a caller has pushed and what it still has to push are, in this order, the updates that it was
called with.
-/

namespace Dnp3Bridge.Bridge
open Concurrency

/-- The updates that a caller still has to push. -/
def CallerPc.remaining : CallerPc → List PointUpdate
  | .lock u us | .push u us => u :: us
  | .unlock us | .notify us => us
  | .idle | .done => []

/-- What is left after a push is the rest of the updates. -/
lemma CallerPc.remaining_next (us : List PointUpdate) : (CallerPc.next us).remaining = us := by
  cases us <;> rfl

/-- A caller whose updates have all been pushed is done, and no longer idle. -/
lemma CallerPc.next_ne_idle (us : List PointUpdate) : CallerPc.next us ≠ .idle := by
  cases us <;> nofun

/-- What a step of a caller does to its request. -/
inductive RequestStep (n : Nat) (s : Shared) : CallerPc → Shared → CallerPc → Prop where
  | apply {s' p'} :
    s'.queue = s.queue →
    s'.hist.pushed = s.hist.pushed →
    s'.hist.batches = s.hist.batches →
    s'.hist.requests = Function.update s.hist.requests n p'.remaining →
    p' ≠ .idle →
    RequestStep n s .idle s' p'
  | push {u us s' p'} :
    s'.queue = s.queue ++ [⟨u, n⟩] →
    s'.hist.pushed = s.hist.pushed ++ [⟨u, n⟩] →
    s'.hist.batches = s.hist.batches →
    s'.hist.requests = s.hist.requests →
    p'.remaining = us →
    p' ≠ .idle →
    RequestStep n s (.push u us) s' p'
  | other {p s' p'} :
    s'.queue = s.queue →
    s'.hist = s.hist →
    p'.remaining = p.remaining →
    p' ≠ .idle →
    RequestStep n s p s' p'

/-- Every step of a caller keeps the account of its request. -/
lemma CallerStep.request {n s p s' p'} (st : CallerStep n s p s' p') : RequestStep n s p s' p' := by
  cases st with
  | apply =>
    refine .apply rfl rfl rfl ?_ (CallerPc.next_ne_idle _)
    rw [CallerPc.remaining_next]
  | lock => exact .other rfl rfl rfl nofun
  | push => exact .push rfl rfl rfl rfl rfl nofun
  | unlock => exact .other rfl rfl rfl nofun
  | notify => exact .other rfl rfl (CallerPc.remaining_next _) (CallerPc.next_ne_idle _)

/-- A flush thread takes the whole queue as one batch, or leaves queue and batches alone. -/
lemma FlushStep.request {n s p s' p'} (st : FlushStep n s p s' p') :
    s'.hist.pushed = s.hist.pushed ∧ s'.hist.requests = s.hist.requests ∧
      ((p = .swap ∧ s'.queue = [] ∧ s'.hist.batches = s.hist.batches ++ [s.queue]) ∨
        (s'.queue = s.queue ∧ s'.hist.batches = s.hist.batches)) := by
  cases st with
  | swap => exact ⟨rfl, rfl, .inl ⟨rfl, rfl, rfl⟩⟩
  | _ => exact ⟨rfl, rfl, .inr ⟨rfl, rfl⟩⟩

/-- The updates that a caller has pushed, in order. -/
def System.pushedBy (c : System) (n : Nat) : List PointUpdate :=
  (c.shared.hist.pushed.filter fun e => e.caller = n).map Entry.update

/-- What every caller has pushed and still has to push. -/
structure System.Accounts (c : System) : Prop where
  idle : ∀ {n}, c.callerPc n = .idle → c.shared.hist.requests n = []
  account : ∀ n, c.pushedBy n ++ (c.callerPc n).remaining = c.shared.hist.requests n

/-- The accounts depend on the records, and what the callers still have to push. -/
lemma System.Accounts.congr {c c' : System} (acc : c.Accounts)
    (pushed : c'.shared.hist.pushed = c.shared.hist.pushed)
    (requests : c'.shared.hist.requests = c.shared.hist.requests)
    (remaining : ∀ n, (c'.callerPc n).remaining = (c.callerPc n).remaining)
    (idle : ∀ {n}, c'.callerPc n = .idle → c.callerPc n = .idle) : c'.Accounts := by
  refine ⟨fun e => ?_, fun n => ?_⟩
  · rw [requests]
    exact acc.idle (idle e)
  · rw [pushedBy, pushed, requests, remaining]
    exact acc.account n

/-- A step of a caller other than its first keeps the accounts of the others. -/
lemma System.Accounts.caller {c c' : System} {n p'} (acc : c.Accounts)
    (pcs : c'.callerPc = Function.update c.callerPc n p')
    (mv : RequestStep n c.shared (c.callerPc n) c'.shared p') : c'.Accounts := by
  have other : ∀ {m}, m ≠ n → c'.callerPc m = c.callerPc m := by
    intro m ne
    rw [pcs, Function.update_of_ne ne]
  have own : c'.callerPc n = p' := by
    rw [pcs, Function.update_self]
  -- the caller is in a call after the step, so an idle one is another
  have away : p' ≠ .idle → ∀ {m}, c'.callerPc m = .idle → m ≠ n := by
    rintro busy m em rfl
    exact busy (own.symm.trans em)
  generalize e : c.callerPc n = p, es : c'.shared = s' at mv
  subst es
  cases mv with
  | apply _ pushed _ requests busy =>
    refine ⟨fun {m} em => ?_, fun m => ?_⟩
    · have ne := away busy em
      rw [requests, Function.update_of_ne ne]
      exact acc.idle ((other ne).symm.trans em)
    · rw [pushedBy, pushed, requests, ← pushedBy]
      have account := acc.account m
      rcases eq_or_ne m n with rfl | ne
      · -- nothing has been pushed for a call that is only announced
        rw [acc.idle e, List.append_eq_nil_iff] at account
        rw [account.1, own, Function.update_self]
        rfl
      · rwa [other ne, Function.update_of_ne ne]
  | push _ pushed _ requests left busy =>
    refine ⟨fun {m} em => ?_, fun m => ?_⟩
    · have ne := away busy em
      rw [requests]
      exact acc.idle ((other ne).symm.trans em)
    -- one update moves from what is left to what is pushed
    · have account := acc.account m
      rw [pushedBy, pushed, requests, ← account, List.filter_append, List.map_append, ← pushedBy]
      rcases eq_or_ne m n with rfl | ne
      · rw [own, left, e]
        simp [CallerPc.remaining]
      · rw [other ne]
        simp [Ne.symm ne]
  | other _ hist left busy =>
    refine acc.congr (congrArg _ hist) (congrArg _ hist) (fun m => ?_) fun {m} em => ?_
    · rcases eq_or_ne m n with rfl | ne
      · rw [own, left, e]
      · rw [other ne]
    · rw [pcs] at em
      exact (update_inv em busy).2

/-- The steps of the system keep the accounts. -/
lemma System.Accounts.step {c c' : System} {a} (acc : c.Accounts) (st : c.step a = some c') :
    c'.Accounts := by
  cases c.step_moves st with
  | caller _ mv pcs _ _ => exact acc.caller pcs mv.request
  | flush _ mv pcs _ _ =>
    obtain ⟨pushed, requests, -⟩ := mv.request
    exact acc.congr pushed requests (fun n => by rw [pcs]) (fun e => by rwa [← pcs])
  | control _ mv pcs _ _ =>
    obtain ⟨-, hist⟩ := mv.flow
    exact acc.congr (congrArg _ hist) (congrArg _ hist) (fun n => by rw [pcs])
      (fun e => by rwa [← pcs])

/-- At the beginning nothing has been asked for and nothing pushed. -/
lemma System.Accounts.init : System.init.Accounts where
  idle _ := rfl
  account _ := rfl

/-- In every reachable state the accounts are right. -/
theorem System.accounts {C as c} (run : Run step C init as c) : c.Accounts :=
  run.invariant (fun _ _ _ acc _ st => acc.step st) Accounts.init

/-- A caller that is done has pushed exactly the updates that it was called with. -/
lemma System.Accounts.done {c : System} (acc : c.Accounts) {n} (e : c.callerPc n = .done) :
    c.pushedBy n = c.shared.hist.requests n := by
  have account := acc.account n
  rwa [e, CallerPc.remaining, List.append_nil] at account

/-- A caller that is in a call keeps its request, and is not idle again. -/
lemma CallerStep.in_call {n s p s' p'} (st : CallerStep n s p s' p') (busy : p ≠ .idle) :
    p' ≠ .idle ∧ p ≠ .done ∧ s'.hist.requests = s.hist.requests := by
  cases st with
  | apply => exact absurd rfl busy
  | notify => exact ⟨CallerPc.next_ne_idle _, nofun, rfl⟩
  | _ => exact ⟨nofun, nofun, rfl⟩

/-- A step of another thread than a caller. -/
lemma System.step_uncalled {b b' : System} {t i} (st : b.step (t, i) = some b')
    (ne : ∀ n, t ≠ .caller n) :
    b'.callerPc = b.callerPc ∧ b'.shared.hist.requests = b.shared.hist.requests ∧
      b'.shared.hist.pushed = b.shared.hist.pushed := by
  cases System.step_moves st with
  | caller e => exact absurd e (ne _)
  | flush _ st callers =>
    obtain ⟨pushed, requests, -⟩ := st.request
    exact ⟨callers, requests, pushed⟩
  | control _ st callers =>
    obtain ⟨-, hist⟩ := st.flow
    exact ⟨callers, congrArg _ hist, congrArg _ hist⟩

end Dnp3Bridge.Bridge
