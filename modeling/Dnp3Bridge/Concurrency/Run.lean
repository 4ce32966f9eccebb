import Mathlib.Logic.Function.Basic
import Mathlib.Order.Basic

/-!
# Runs of a labelled transition system

A system is a partial step function `step : σ → α → Option σ`: `none` says that the action is not
enabled in the state. `Run step C c as c'` is a run from `c` to `c'` along the actions `as` in which
every step meets the condition `C`; `Always` is the condition that always holds. An invariant of the
steps is an invariant of the runs, and an execution of a list of actions is a run.
-/

namespace Dnp3Bridge.Concurrency

variable {σ α β : Type*} {step : σ → α → Option σ} {C D : σ → α → Prop}

/-- A run from a state along a list of actions, every step of which meets `C`. -/
inductive Run (step : σ → α → Option σ) (C : σ → α → Prop) : σ → List α → σ → Prop where
  | nil {c} :
    Run step C c [] c
  | cons {c c' c'' a as} :
    C c a →
    step c a = some c' →
    Run step C c' as c'' →
    Run step C c (a :: as) c''

/-- A run goes on where another one ends. -/
lemma Run.append {c c' c'' as bs} (run : Run step C c as c') (run' : Run step C c' bs c'') :
    Run step C c (as ++ bs) c'' := by
  induction run with
  | nil => exact run'
  | cons h st _ ih => exact .cons h st (ih run')

/-- A run is one under every weaker condition. -/
lemma Run.mono {c c' as} (run : Run step C c as c') (weaker : ∀ c a, C c a → D c a) :
    Run step D c as c' := by
  induction run with
  | nil => exact .nil
  | cons h st _ ih => exact .cons (weaker _ _ h) st ih

/-- The condition of an unrestricted run. -/
def Always : σ → α → Prop := fun _ _ => True

/-- The state a list of actions leads to, if every action is enabled. -/
def exec (step : σ → α → Option σ) : σ → List α → Option σ
  | c, [] => some c
  | c, a :: as => (step c a).bind fun c' => exec step c' as

/-- An execution of steps that are steps of the system and meet the condition is a run. -/
lemma Run.of_exec_of {step' : σ → α → Option σ}
    (sound : ∀ c a c', step' c a = some c' → C c a ∧ step c a = some c') {c c' as}
    (e : exec step' c as = some c') : Run step C c as c' := by
  induction as generalizing c with
  | nil =>
    cases e
    exact .nil
  | cons a as ih =>
    obtain ⟨c1, st, rest⟩ := Option.bind_eq_some_iff.mp e
    obtain ⟨h, st⟩ := sound c a c1 st
    exact .cons h st (ih rest)

/-- An executed list of actions is a run. -/
lemma Run.of_exec {c c' as} (e : exec step c as = some c') : Run step Always c as c' :=
  Run.of_exec_of (fun _ _ _ st => ⟨trivial, st⟩) e

/-- The steps that meet the condition `C`. -/
def guarded (step : σ → α → Option σ) (C : σ → α → Prop) [∀ c a, Decidable (C c a)] :
    σ → α → Option σ :=
  fun c a => if C c a then step c a else none

/-- An execution of guarded steps is a run whose every step meets the condition. -/
lemma Run.of_exec_guarded [∀ c a, Decidable (C c a)] {c c' as}
    (e : exec (guarded step C) c as = some c') : Run step C c as c' :=
  Run.of_exec_of (fun _ _ _ st => Option.ite_none_right_eq_some.mp st) e

/-- The invariant rule: what every step preserves, every run preserves. -/
theorem Run.invariant {I : σ → Prop} {c c' as} (run : Run step C c as c')
    (pres : ∀ c a c', I c → C c a → step c a = some c' → I c') (init : I c) : I c' := by
  induction run with
  | nil => exact init
  | cons h st _ ih => exact ih (pres _ _ _ init h st)

/-- The invariant rule under an invariant `J` that is already known of the same runs. -/
theorem Run.invariant_under {I J : σ → Prop} {c c' as} (run : Run step C c as c')
    (known : ∀ c a c', J c → C c a → step c a = some c' → J c')
    (pres : ∀ c a c', J c → I c → C c a → step c a = some c' → I c')
    (initJ : J c) (init : I c) : I c' := by
  refine (run.invariant (I := fun c => J c ∧ I c) ?_ ⟨initJ, init⟩).2
  intro c a c' inv h st
  exact ⟨known c a c' inv.1 h st, pres c a c' inv.1 inv.2 h st⟩

/-- The invariant rule for statements about the history of a run. -/
theorem Run.history {I : List α → σ → Prop} {c c' as} (run : Run step C c as c')
    (pres : ∀ bs d a d', Run step C c bs d → I bs d → C d a → step d a = some d' → I (bs ++ [a]) d')
    (init : I [] c) : I as c' := by
  have from_here : ∀ {d as c'}, Run step C d as c' → ∀ bs, Run step C c bs d → I bs d →
      I (bs ++ as) c' := by
    intro d as c' run
    induction run with
    | nil =>
      intro bs _ inv
      rwa [List.append_nil]
    | @cons d d' _ a as h st _ ih =>
      intro bs before inv
      have later := ih (bs ++ [a]) (before.append (.cons h st .nil)) (pres bs d a d' before inv h st)
      rwa [List.append_assoc] at later
  exact from_here run [] .nil init

/-- What a step can only grow, a run can only grow. -/
theorem Run.monotone {γ : Type*} [Preorder γ] {f : σ → γ} {c c' as} (run : Run step C c as c')
    (grow : ∀ c a c', C c a → step c a = some c' → f c ≤ f c') : f c ≤ f c' := by
  induction run with
  | nil => exact le_rfl
  | cons h st _ ih => exact (grow _ _ _ h st).trans ih

/-- A run of a system every step of which is a step of a part of it, or leaves the part alone, is a run
of that part. -/
theorem Run.project {ρ : Type*} {step' : ρ → β → Option ρ} {E : ρ → β → Prop} {f : σ → ρ} {c c' as}
    (run : Run step C c as c')
    (follows : ∀ c a c', C c a → step c a = some c' →
      f c' = f c ∨ ∃ b, E (f c) b ∧ step' (f c) b = some (f c')) :
    ∃ bs, Run step' E (f c) bs (f c') := by
  induction run with
  | nil => exact ⟨[], .nil⟩
  | cons h st _ ih =>
    obtain ⟨bs, rest⟩ := ih
    obtain same | ⟨b, h', st'⟩ := follows _ _ _ h st
    · exact ⟨bs, same ▸ rest⟩
    · exact ⟨b :: bs, .cons h' st' rest⟩

end Dnp3Bridge.Concurrency
