import Dnp3Bridge.Bridge.Accounts
import Dnp3Bridge.Grpc.UpdatePoints
import Dnp3Bridge.Sequences.Grouped

/-!
# Requests as units

A caller pushes the updates of its request one by one and gives the mutex back in between, so a swap
of the flush thread or the push of another caller can fall inside a request. Where none does
(`Unbroken`), every request ends up in one batch and its updates are handed over one after the other.
-/

namespace Dnp3Bridge.Bridge
open Concurrency Sequences

def CallerPc.pushing : CallerPc → Bool
  | .push _ _ => true
  | _ => false

/-- The updates of each request stand together: in one batch, and in what has been handed over. -/
structure AppliedAsUnit (c : System) : Prop where
  whole : ∀ b ∈ c.shared.hist.batches, ∀ e ∈ b,
    (b.filter fun x => x.caller = e.caller).map Entry.update = c.shared.hist.requests e.caller
  single : c.shared.hist.batches.Pairwise fun b b' => ∀ e ∈ b, ∀ e' ∈ b', e.caller ≠ e'.caller
  contiguous : Grouped Entry.caller c.shared.hist.handed

/-- Apart from the caller `n`, no caller has pushed a part of its request only. -/
def System.NonePartly (c : System) (n : Option Nat) : Prop :=
  ∀ e ∈ c.shared.hist.pushed, some e.caller ≠ n → (c.callerPc e.caller).remaining = []

instance (c : System) (n : Option Nat) : Decidable (c.NonePartly n) :=
  inferInstanceAs (Decidable (∀ e ∈ c.shared.hist.pushed, _))

/-- No swap and no push of another request falls inside a request. -/
def Unbroken (c : System) (a : Thread × Choice) : Prop :=
  match a.1 with
  | .caller n => (c.callerPc n).pushing = true → c.NonePartly (some n)
  | .flush n => c.flushPc n = .swap → c.NonePartly none
  | .control => True

instance (c : System) : (a : Thread × Choice) → Decidable (Unbroken c a)
  | (.caller n, _) =>
    inferInstanceAs (Decidable ((c.callerPc n).pushing = true → c.NonePartly (some n)))
  | (.flush n, _) => inferInstanceAs (Decidable (c.flushPc n = .swap → c.NonePartly none))
  | (.control, _) => inferInstanceAs (Decidable True)

/-- How far the requests are, and where their updates are. -/
structure System.Requests (c : System) : Prop where
  idle : ∀ {r}, c.callerPc r = .idle → c.shared.hist.requests r = []
  account : ∀ r, ((c.shared.hist.pushed.filter fun x => x.caller = r).map Entry.update) ++
    (c.callerPc r).remaining = c.shared.hist.requests r
  taken : c.shared.hist.batches.flatten ++ c.shared.queue = c.shared.hist.pushed
  grouped : Grouped Entry.caller c.shared.hist.pushed
  partly_last : ∀ e ∈ c.shared.hist.pushed, (c.callerPc e.caller).remaining ≠ [] →
    ∃ y, c.shared.hist.pushed.getLast? = some y ∧ y.caller = e.caller
  complete : ∀ b ∈ c.shared.hist.batches, ∀ e ∈ b, (c.callerPc e.caller).remaining = []
  apart : (c.shared.hist.batches ++ [c.shared.queue]).Pairwise fun b b' =>
    ∀ e ∈ b, ∀ e' ∈ b', e.caller ≠ e'.caller

/-- A caller that is idle has pushed nothing. -/
lemma System.Requests.none_of_idle {c : System} (req : c.Requests) {n}
    (e : c.callerPc n = .idle) : ∀ x ∈ c.shared.hist.pushed, x.caller ≠ n := by
  have acc := req.account n
  rw [req.idle e, e] at acc
  have none := List.map_eq_nil_iff.mp (List.append_eq_nil_iff.mp acc).1
  intro x hx eq
  have := List.filter_eq_nil_iff.mp none x hx
  simp [eq] at this

/-- What is in a batch has been pushed. -/
lemma System.Requests.pushed_of_batch {c : System} (req : c.Requests) {b e}
    (hb : b ∈ c.shared.hist.batches) (he : e ∈ b) : e ∈ c.shared.hist.pushed := by
  rw [← req.taken]
  exact List.mem_append_left _ (List.mem_flatten.mpr ⟨b, hb, he⟩)

/-- The requests depend on the queue, the records, and what the callers still have to push. -/
lemma System.Requests.congr {c c' : System} (req : c.Requests) (acc : c'.Accounts)
    (queue : c'.shared.queue = c.shared.queue)
    (pushed : c'.shared.hist.pushed = c.shared.hist.pushed)
    (batches : c'.shared.hist.batches = c.shared.hist.batches)
    (remaining : ∀ r, (c'.callerPc r).remaining = (c.callerPc r).remaining) : c'.Requests := by
  refine ⟨acc.idle, acc.account, ?_, ?_, fun e he => ?_, fun b hb e he => ?_, ?_⟩
  · rw [batches, queue, pushed]
    exact req.taken
  · rw [pushed]
    exact req.grouped
  · rw [pushed] at he ⊢
    rw [remaining]
    exact req.partly_last e he
  · rw [batches] at hb
    rw [remaining]
    exact req.complete b hb e he
  · rw [batches, queue]
    exact req.apart

/-- A caller that has something left to push is in no batch. -/
lemma System.Requests.not_in_batch {c : System} (req : c.Requests) {n}
    (left : (c.callerPc n).remaining ≠ []) :
    ∀ b ∈ c.shared.hist.batches, ∀ e ∈ b, e.caller ≠ n := by
  rintro b hb e he rfl
  exact left (req.complete b hb e he)

/-- A call of `applyUpdate` by an idle caller announces a request, nothing of which is pushed yet. -/
lemma System.Requests.apply {c c' : System} {n p'} (req : c.Requests) (acc : c'.Accounts)
    (e : c.callerPc n = .idle)
    (pcs : c'.callerPc = Function.update c.callerPc n p')
    (queue : c'.shared.queue = c.shared.queue)
    (pushed : c'.shared.hist.pushed = c.shared.hist.pushed)
    (batches : c'.shared.hist.batches = c.shared.hist.batches) : c'.Requests := by
  have none := req.none_of_idle e
  have other : ∀ {r}, r ≠ n → c'.callerPc r = c.callerPc r := by
    intro r ne
    rw [pcs, Function.update_of_ne ne]
  refine ⟨acc.idle, acc.account, ?_, ?_, fun x hx => ?_, fun b hb x hx => ?_, ?_⟩
  · rw [batches, queue, pushed]
    exact req.taken
  · rw [pushed]
    exact req.grouped
  · rw [pushed] at hx ⊢
    rw [other (none x hx)]
    exact req.partly_last x hx
  · rw [batches] at hb
    rw [other (none x (req.pushed_of_batch hb hx))]
    exact req.complete b hb x hx
  · rw [batches, queue]
    exact req.apart

/-- A push that comes inside no other request. -/
lemma System.Requests.push {c c' : System} {n u us p'} (req : c.Requests) (acc : c'.Accounts)
    (e : c.callerPc n = .push u us) (unbroken : c.NonePartly (some n))
    (pcs : c'.callerPc = Function.update c.callerPc n p')
    (queue : c'.shared.queue = c.shared.queue ++ [⟨u, n⟩])
    (pushed : c'.shared.hist.pushed = c.shared.hist.pushed ++ [⟨u, n⟩])
    (batches : c'.shared.hist.batches = c.shared.hist.batches) : c'.Requests := by
  have pending : (c.callerPc n).remaining ≠ [] := by
    rw [e]
    exact List.cons_ne_nil _ _
  have fresh := req.not_in_batch pending
  have other : ∀ {r}, r ≠ n → c'.callerPc r = c.callerPc r := by
    intro r ne
    rw [pcs, Function.update_of_ne ne]
  refine ⟨acc.idle, acc.account, ?_, ?_, fun x hx more => ?_, fun b hb x hx => ?_, ?_⟩
  · rw [batches, queue, pushed, ← req.taken, List.append_assoc]
  · rw [pushed]
    -- what this caller has pushed before stands at the end
    exact req.grouped.concat fun x hx eq => by
      have eq : x.caller = n := eq
      subst eq
      exact req.partly_last x hx pending
  · -- the caller that pushes is the only one with a request that is partly pushed
    rw [pushed] at hx ⊢
    refine ⟨⟨u, n⟩, List.getLast?_concat, ?_⟩
    by_contra ne
    have ne : x.caller ≠ n := fun h => ne h.symm
    rw [other ne] at more
    rcases List.mem_append.mp hx with hx | hx
    · exact more (unbroken x hx fun h => ne (Option.some.inj h))
    · cases List.mem_singleton.mp hx
      exact ne rfl
  · rw [batches] at hb
    rw [other (fresh b hb x hx)]
    exact req.complete b hb x hx
  · rw [batches, queue]
    obtain ⟨old, -, apart⟩ := List.pairwise_append.mp req.apart
    refine List.pairwise_append.mpr ⟨old, List.pairwise_singleton .., fun b hb b' hb' x hx y hy => ?_⟩
    cases List.mem_singleton.mp hb'
    rcases List.mem_append.mp hy with hy | hy
    · exact apart b hb _ (List.mem_singleton_self _) x hx y hy
    · cases List.mem_singleton.mp hy
      exact fresh b hb x hx

/-- A swap that comes inside no request. -/
lemma System.Requests.swap {c c' : System} (req : c.Requests) (acc : c'.Accounts)
    (unbroken : c.NonePartly none)
    (pcs : c'.callerPc = c.callerPc) (queue : c'.shared.queue = [])
    (pushed : c'.shared.hist.pushed = c.shared.hist.pushed)
    (batches : c'.shared.hist.batches = c.shared.hist.batches ++ [c.shared.queue]) :
    c'.Requests := by
  refine ⟨acc.idle, acc.account, ?_, ?_, fun x hx => ?_, fun b hb x hx => ?_, ?_⟩
  · rw [batches, queue, pushed, ← req.taken]
    simp
  · rw [pushed]
    exact req.grouped
  · rw [pushed] at hx ⊢
    rw [pcs]
    exact req.partly_last x hx
  · rw [batches] at hb
    rw [pcs]
    rcases List.mem_append.mp hb with hb | hb
    · exact req.complete b hb x hx
    · cases List.mem_singleton.mp hb
      -- the callers in the queue have pushed everything
      refine unbroken x ?_ nofun
      rw [← req.taken]
      exact List.mem_append_right _ hx
  · rw [batches, queue]
    refine List.pairwise_append.mpr ⟨req.apart, List.pairwise_singleton .., ?_⟩
    intro b _ b' hb' x _ y hy
    cases List.mem_singleton.mp hb'
    cases hy

/-- A step that breaks no request keeps the requests whole. -/
lemma System.Requests.step {c c' : System} {a} (req : c.Requests) (unbroken : Unbroken c a)
    (st : c.step a = some c') : c'.Requests := by
  have acc : c'.Accounts := System.Accounts.step ⟨req.idle, req.account⟩ st
  obtain ⟨t, i⟩ := a
  cases c.step_moves st with
  | @caller n p' et mv pcs _ _ =>
    cases et
    have mv := mv.request
    generalize e : c.callerPc n = p, es : c'.shared = s' at mv
    subst es
    cases mv with
    | apply queue pushed batches => exact req.apply acc e pcs queue pushed batches
    | push queue pushed batches =>
      refine req.push acc e (unbroken ?_) pcs queue pushed batches
      rw [e]
      rfl
    | other queue hist left =>
      refine req.congr acc queue (congrArg _ hist) (congrArg _ hist) fun r => ?_
      rcases eq_or_ne r n with rfl | eq
      · rw [pcs, Function.update_self, left, e]
      · rw [pcs, Function.update_of_ne eq]
  | flush et mv pcs _ _ =>
    cases et
    obtain ⟨pushed, -, ⟨e, queue, batches⟩ | ⟨queue, batches⟩⟩ := mv.request
    · exact req.swap acc (unbroken e) pcs queue pushed batches
    · exact req.congr acc queue pushed batches fun r => by rw [pcs]
  | control _ mv pcs _ _ =>
    obtain ⟨queue, hist⟩ := mv.flow
    exact req.congr acc queue (congrArg _ hist) (congrArg _ hist) fun r => by rw [pcs]

/-- At the beginning there are no requests. -/
lemma System.Requests.init : System.init.Requests where
  idle _ := rfl
  account _ := rfl
  taken := rfl
  grouped := Grouped.nil
  partly_last := nofun
  complete := nofun
  apart := List.pairwise_singleton ..

/-- In every state that unbroken steps reach, the requests are where they should be. -/
theorem System.requests {as c} (run : Run step Unbroken init as c) : c.Requests :=
  run.invariant (fun _ _ _ req h st => req.step h st) Requests.init

/-- The updates of a request that has been taken are the whole request. -/
lemma System.Requests.whole {c : System} (req : c.Requests) {b e}
    (hb : b ∈ c.shared.hist.batches) (he : e ∈ b) :
    (b.filter fun x => x.caller = e.caller).map Entry.update =
      c.shared.hist.requests e.caller := by
  have account := req.account e.caller
  have pushed : c.shared.hist.pushed =
      (c.shared.hist.batches ++ [c.shared.queue]).flatten := by
    rw [← req.taken]
    simp
  rw [req.complete b hb e he, List.append_nil, pushed,
    filter_flatten req.apart (List.mem_append_left _ hb) he] at account
  exact account

/-- If no swap falls inside a request and no push inside another request, every request is taken in
one batch and handed over in one piece. -/
theorem appliedAsUnit_of_unbroken {as c} (run : Run System.step Unbroken System.init as c) :
    AppliedAsUnit c := by
  have req := System.requests run
  have flow := System.flow run
  refine ⟨fun b hb e he => req.whole hb he, (List.pairwise_append.mp req.apart).1, ?_⟩
  refine req.grouped.of_prefix ⟨c.batch ++ c.shared.queue, ?_⟩
  rw [← List.append_assoc, flow.order]

/-- A request for two points. -/
def twoPoints : Proto.UpdateRequest where
  analogs := [⟨3, .finite 1, .good⟩]
  binaries := [⟨3, true, .good⟩]
  counters := []

/-- Thread `n` runs `UpdatePoints`. -/
def send (n : Nat) (request : Proto.UpdateRequest) : Thread × Choice :=
  (.caller n, .apply (Grpc.updatePoints request).1)

/-- Flush thread `n`, not parked, swaps its batch out and makes two steps of draining it. -/
def flushTwo (n : Nat) : List (Thread × Choice) :=
  steps (.flush n) 7

/-- Two requests after each other, and the flush thread after them. -/
def requestsInTurn : List (Thread × Choice) :=
  startBridge ++ steps (.flush 0) 1 ++ [send 0 twoPoints] ++ pushNext 0 0 ++ pushNext 0 0 ++
    [send 1 twoPoints] ++ pushNext 1 0 ++ pushNext 1 0 ++ flushTwo 0

/-- Two requests that take turns are each applied as a unit. -/
theorem requestsInTurn_applied :
    ∃ c, Run System.step Unbroken System.init requestsInTurn c ∧
      c.shared.hist.batches.map (·.map Entry.caller) = [[0, 0, 1, 1]] ∧ AppliedAsUnit c := by
  refine ⟨_, Run.of_exec_guarded rfl, rfl, ?_⟩
  exact @appliedAsUnit_of_unbroken requestsInTurn _ (Run.of_exec_guarded rfl)

/-- The flush thread swaps the queue when the first request is half pushed; then another request
comes before its second half. -/
def requestCut : List (Thread × Choice) :=
  startBridge ++ steps (.flush 0) 1 ++ [send 0 twoPoints, send 1 twoPoints] ++ pushNext 0 0 ++
    flushTwo 0 ++ pushNext 1 0 ++ pushNext 0 0 ++ flushTwo 0

/-- The request of thread 0 is spread over two batches, with an update of thread 1 in between. -/
theorem requestCut_splits :
    ∃ c, Run System.step Always System.init requestCut c ∧
      c.shared.hist.batches.map (·.map Entry.caller) = [[0], [1, 0]] ∧
      c.shared.hist.handed.map Entry.caller = [0, 1, 0] ∧ ¬ AppliedAsUnit c := by
  refine ⟨_, Run.of_exec rfl, rfl, rfl, fun unit => ?_⟩
  have whole := unit.whole [⟨reading, 0⟩] (by decide) ⟨reading, 0⟩ (by decide)
  exact absurd whole (by decide)

end Dnp3Bridge.Bridge
