import Mathlib.Data.List.Forall2

/-!
# Computations that may throw

Inversion of computations in `Except`: if the whole has a result, so has every part. A computation has
a result exactly if its parts have one, as long as the parts do not depend on each other for that.
-/

namespace Dnp3Bridge.Errors

universe u v

variable {ε : Type u} {α β : Type v}

/-- A sequence of two computations that returns has gone through both. -/
lemma bind_ok {x : Except ε α} {f : α → Except ε β} {b : β} (e : x >>= f = .ok b) :
    ∃ a, x = .ok a ∧ f a = .ok b := by
  cases x with
  | error => cases e
  | ok a => exact ⟨a, rfl, e⟩

/-- A mapped computation that returns has returned. -/
lemma map_ok {x : Except ε α} {f : α → β} {b : β} (e : f <$> x = .ok b) :
    ∃ a, x = .ok a ∧ f a = b := by
  cases x with
  | error => cases e
  | ok a => exact ⟨a, rfl, Except.ok.inj e⟩

/-- The results of a traversal are the results for the elements. -/
theorem mapM_ok {α : Type*} {f : α → Except ε β} {l : List α} {l' : List β}
    (e : l.mapM f = .ok l') : List.Forall₂ (fun x y => f x = .ok y) l l' := by
  induction l generalizing l' with
  | nil =>
    cases e
    exact .nil
  | cons x l ih =>
    rw [List.mapM_cons] at e
    obtain ⟨y, hy, e⟩ := bind_ok e
    obtain ⟨ys, hys, e⟩ := bind_ok e
    cases e
    exact .cons hy (ih hys)

/-- In related lists every element of the second is related to one of the first. -/
lemma exists_of_forall₂ {α β : Type*} {R : α → β → Prop} {l : List α} {l' : List β}
    (all : List.Forall₂ R l l') {y} (mem : y ∈ l') : ∃ x ∈ l, R x y := by
  induction all with
  | nil => cases mem
  | cons hxy _ ih =>
    rcases List.mem_cons.mp mem with rfl | mem
    · exact ⟨_, List.mem_cons_self, hxy⟩
    · obtain ⟨x, hx, rel⟩ := ih mem
      exact ⟨x, List.mem_cons_of_mem _ hx, rel⟩

/-- Every result of a list of computations comes from one of them. -/
lemma exists_of_mapM_ok {α : Type*} {f : α → Except ε β} {l : List α} {l' : List β}
    (e : l.mapM f = .ok l') {y} (mem : y ∈ l') : ∃ x ∈ l, f x = .ok y :=
  exists_of_forall₂ (mapM_ok e) mem

/-- Every computation of a list that returns has its result among theirs. -/
lemma exists_mem_of_mapM_ok {α : Type*} {f : α → Except ε β} {l : List α} {l' : List β}
    (e : l.mapM f = .ok l') {x} (mem : x ∈ l) : ∃ y ∈ l', f x = .ok y :=
  exists_of_forall₂ (R := flip fun x y => f x = .ok y) (mapM_ok e).flip mem

/-- The computation has a result. -/
def Returns (x : Except ε α) : Prop :=
  ∃ a, x = .ok a

/-- A value is returned. -/
lemma returns_ok (a : α) : Returns (.ok a : Except ε α) := ⟨a, rfl⟩

/-- An error is not returned. -/
lemma not_returns_error (e : ε) : ¬ Returns (.error e : Except ε α) := nofun

/-- A mapped computation returns if the computation does. -/
lemma returns_map {x : Except ε α} {f : α → β} : Returns (f <$> x) ↔ Returns x := by
  constructor
  · intro h
    obtain ⟨b, e⟩ := h
    obtain ⟨a, hx, -⟩ := map_ok e
    exact ⟨a, hx⟩
  · intro h
    obtain ⟨a, rfl⟩ := h
    exact ⟨f a, rfl⟩

/-- A sequence returns if both computations do, where the second does not depend on the first for it. -/
lemma returns_bind {x : Except ε α} {f : α → Except ε β} {P : Prop}
    (rest : ∀ a, Returns (f a) ↔ P) : Returns (x >>= f) ↔ Returns x ∧ P := by
  constructor
  · intro h
    obtain ⟨b, e⟩ := h
    obtain ⟨a, hx, e⟩ := bind_ok e
    exact ⟨⟨a, hx⟩, (rest a).mp ⟨b, e⟩⟩
  · intro h
    obtain ⟨⟨a, rfl⟩, hP⟩ := h
    exact (rest a).mpr hP

/-- A list of computations returns if each of them does. -/
theorem returns_mapM {α : Type*} {f : α → Except ε β} {l : List α} :
    Returns (l.mapM f) ↔ ∀ x ∈ l, Returns (f x) := by
  induction l with
  | nil => exact ⟨fun _ x mem => absurd mem List.not_mem_nil, fun _ => ⟨[], rfl⟩⟩
  | cons x l ih =>
    rw [List.mapM_cons, List.forall_mem_cons, ← ih]
    refine returns_bind fun y => ?_
    refine (returns_bind (P := True) fun ys => ?_).trans (iff_of_eq (and_true _))
    exact iff_true_intro (returns_ok _)

end Dnp3Bridge.Errors
