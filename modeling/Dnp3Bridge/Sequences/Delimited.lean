import Mathlib.Data.List.Basic

/-!
# Delimited fields

A text in which every field ends at a character that does not occur in it can be read back, field by
field.
-/

namespace Dnp3Bridge.Sequences

variable {α : Type*}

/-- The first field of a text and its rest: the field goes up to the first member that is not one of
those, `p`, that fields are made of. -/
lemma field_inj {p : α → Prop} {l l' m m' : List α} {a b : α} (inner : ∀ x ∈ l, p x)
    (inner' : ∀ x ∈ l', p x) (ends : ¬ p a) (ends' : ¬ p b) (e : l ++ a :: m = l' ++ b :: m') :
    l = l' ∧ a = b ∧ m = m' := by
  obtain ⟨c, rfl, rest⟩ | ⟨c, rfl, rest⟩ := List.append_eq_append_iff.mp e
  · cases c with
    | nil => exact ⟨(List.append_nil l).symm, List.cons.inj rest⟩
    | cons x c =>
      cases (List.cons.inj rest).1
      exact absurd (inner' a (List.mem_append_right l List.mem_cons_self)) ends
  · cases c with
    | nil =>
      obtain ⟨same, rest⟩ := List.cons.inj rest
      exact ⟨List.append_nil l', same.symm, rest.symm⟩
    | cons x c =>
      cases (List.cons.inj rest).1
      exact absurd (inner b (List.mem_append_right l' List.mem_cons_self)) ends'

/-- A field that is followed by a member that does not occur in it. -/
lemma delimited_inj {l l' m m' : List α} {a : α} (fresh : a ∉ l) (fresh' : a ∉ l')
    (e : l ++ a :: m = l' ++ a :: m') : l = l' ∧ m = m' := by
  obtain ⟨field, -, rest⟩ := field_inj (p := (· ≠ a)) (fun x mem e => fresh (e ▸ mem))
    (fun x mem e => fresh' (e ▸ mem)) (not_not.mpr rfl) (not_not.mpr rfl) e
  exact ⟨field, rest⟩

/-- A number is written in digits. -/
lemma isDigit_of_mem_digits {n : Nat} {c : Char} (mem : c ∈ Nat.toDigits 10 n) : c.isDigit = true :=
  Nat.isDigit_of_mem_toDigits (by decide) (by decide) mem

/-- The digits of a number determine it. -/
lemma digits_inj {m n : Nat} (e : Nat.toDigits 10 m = Nat.toDigits 10 n) : m = n := by
  rw [← Nat.ofDigitChars_ten_toDigits (n := m), e, Nat.ofDigitChars_ten_toDigits]

end Dnp3Bridge.Sequences
