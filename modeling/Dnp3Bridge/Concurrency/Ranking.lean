import Dnp3Bridge.Concurrency.Threads
import Mathlib.Algebra.BigOperators.Group.Finset.Piecewise

/-!
# Rankings of runs

A ranking pays for the steps of a run: every action may bring some credit with it, every step uses up
one unit at least, and what is left is the rank of the state. So the actions that bring no credit soon
come to an end, and a run of them that cannot go on exists from every state.
-/

namespace Dnp3Bridge.Concurrency

variable {σ α τ π : Type*} {step : σ → α → Option σ} {C D : σ → α → Prop}

/-- The steps of a run are steps of its own list of actions. -/
lemma Run.of_mem {c c' as} (run : Run step C c as c') :
    Run step (fun c a => C c a ∧ a ∈ as) c as c' := by
  induction run with
  | nil => exact .nil
  | cons h st _ ih =>
    refine .cons ⟨h, List.mem_cons_self⟩ st (ih.mono fun _ _ inner => ?_)
    exact ⟨inner.1, List.mem_cons_of_mem _ inner.2⟩

/-- What the condition says about the actions alone holds of all actions of the run. -/
lemma Run.forall_mem {P : α → Prop} {c c' as} (run : Run step C c as c')
    (only : ∀ c a, C c a → P a) : ∀ a ∈ as, P a := by
  induction run with
  | nil => exact List.forall_mem_nil P
  | cons h _ _ ih => exact List.forall_mem_cons.mpr ⟨only _ _ h, ih⟩

/-- The credit that the actions of a list bring together. -/
def credits (credit : α → ℕ) : List α → ℕ
  | [] => 0
  | a :: as => credit a + credits credit as

/-- What two runs bring with them adds up. -/
lemma credits_append (credit : α → ℕ) (as bs : List α) :
    credits credit (as ++ bs) = credits credit as + credits credit bs := by
  induction as with
  | nil => exact (Nat.zero_add _).symm
  | cons a as ih =>
    rw [List.cons_append, credits, ih, credits, Nat.add_assoc]

/-- Actions that bring no credit each bring none together. -/
lemma credits_eq_zero {credit : α → ℕ} {as : List α} (none : ∀ a ∈ as, credit a = 0) :
    credits credit as = 0 := by
  induction as with
  | nil => rfl
  | cons a as ih =>
    obtain ⟨h, none⟩ := List.forall_mem_cons.mp none
    rw [credits, h, ih none]

/-- The ranking rule: a run is no longer than the credit that it starts with and is brought. -/
theorem Run.length_le {I : σ → Prop} {credit : α → ℕ} {c c' as} (rank : σ → ℕ)
    (run : Run step C c as c')
    (pres : ∀ c a c', I c → C c a → step c a = some c' → I c')
    (pays : ∀ c a c', I c → C c a → step c a = some c' → rank c' + 1 ≤ rank c + credit a)
    (init : I c) : as.length + rank c' ≤ rank c + credits credit as := by
  induction run with
  | nil => exact (Nat.zero_add _).le
  | cons h st _ ih =>
    have paid := pays _ _ _ init h st
    have rest := ih (pres _ _ _ init h st)
    rw [List.length_cons, credits]
    omega

/-- No step that meets the condition is enabled. -/
def Stuck (step : σ → α → Option σ) (C : σ → α → Prop) (c : σ) : Prop :=
  ∀ a, C c a → step c a = none

/-- If the runs from a state are of bounded length, one of them cannot go on. -/
theorem Run.exists_stuck {c k} (bounded : ∀ as c', Run step C c as c' → as.length ≤ k) :
    ∃ as c', Run step C c as c' ∧ Stuck step C c' := by
  induction k generalizing c with
  | zero =>
    refine ⟨[], c, .nil, fun a h => ?_⟩
    cases st : step c a with
    | none => rfl
    | some c' => exact absurd (bounded [a] c' (.cons h st .nil)) (Nat.not_succ_le_zero 0)
  | succ k ih =>
    by_cases stuck : Stuck step C c
    · exact ⟨[], c, .nil, stuck⟩
    · unfold Stuck at stuck
      push Not at stuck
      obtain ⟨a, h, enabled⟩ := stuck
      obtain ⟨c1, st⟩ := Option.ne_none_iff_exists'.mp enabled
      have shorter : ∀ as c', Run step C c1 as c' → as.length ≤ k := by
        intro as c' run
        exact Nat.le_of_succ_le_succ (bounded (a :: as) c' (.cons h st run))
      obtain ⟨as, c', run, stuck⟩ := ih shorter
      exact ⟨a :: as, c', .cons h st run, stuck⟩

/-- So if what cannot go on is as it should be, one of the runs leads there. -/
theorem Run.reaches {P : σ → Prop} {c k}
    (bounded : ∀ as c', Run step C c as c' → as.length ≤ k)
    (settled : ∀ as c', Run step C c as c' → Stuck step C c' → P c') :
    ∃ as c', Run step C c as c' ∧ P c' := by
  obtain ⟨as, c', run, stuck⟩ := Run.exists_stuck bounded
  exact ⟨as, c', run, settled as c' run stuck⟩

/-- A move of one thread changes its own part of the sum of the ranks of the threads. -/
lemma sum_rank_update [DecidableEq τ] {S : Finset τ} {t} (mem : t ∈ S) (pc : τ → π) (p : π)
    (rank : π → ℕ) :
    (∑ u ∈ S, rank (Function.update pc t p u)) + rank (pc t) = (∑ u ∈ S, rank (pc u)) + rank p := by
  rw [← Finset.add_sum_erase S _ mem, ← Finset.add_sum_erase S (fun u => rank (pc u)) mem]
  have others : ∑ u ∈ S.erase t, rank (Function.update pc t p u) = ∑ u ∈ S.erase t, rank (pc u) := by
    refine Finset.sum_congr rfl fun u h => ?_
    rw [Function.update_of_ne (Finset.ne_of_mem_erase h)]
  rw [others, Function.update_self]
  omega

/-- The ranking rule for threads every move of which lowers a rank of their own. -/
theorem Conf.length_le [DecidableEq τ] {ι : Type*} {next : ι → τ → σ → π → Option (σ × π)}
    {rank : π → ℕ} {credit : ι → ℕ} {C : Conf τ σ π → τ × ι → Prop} {c c' as}
    (pays : ∀ i t s p s' p', next i t s p = some (s', p') → rank p' + 1 ≤ rank p + credit i)
    (run : Run (Conf.step next) C c as c') (fresh : ∀ t, rank (c.pc t) = 0) :
    as.length ≤ credits (fun a => credit a.2) as := by
  let S : Finset τ := (as.map Prod.fst).toFinset
  have member : ∀ a ∈ as, a.1 ∈ S :=
    fun a mem => List.mem_toFinset.mpr (List.mem_map_of_mem mem)
  have paid : as.length + (∑ t ∈ S, rank (c'.pc t)) ≤
      (∑ t ∈ S, rank (c.pc t)) + credits (fun a => credit a.2) as := by
    refine Run.length_le (I := fun _ => True) (fun d => ∑ t ∈ S, rank (d.pc t)) run.of_mem
      (fun _ _ _ _ _ _ => trivial) ?_ trivial
    intro d a d' _ h st
    obtain ⟨s, p, mv, rfl⟩ := Conf.step_inv st
    have lower := pays _ _ _ _ _ _ mv
    have sum := sum_rank_update (member a h.2) d.pc p rank
    show (∑ u ∈ S, rank (Function.update d.pc a.1 p u)) + 1 ≤
      (∑ u ∈ S, rank (d.pc u)) + credit a.2
    omega
  rw [Finset.sum_eq_zero fun t _ => fresh t, Nat.zero_add] at paid
  exact Nat.le_trans (Nat.le_add_right ..) paid

end Dnp3Bridge.Concurrency
