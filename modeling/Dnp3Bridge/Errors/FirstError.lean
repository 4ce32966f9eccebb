import Mathlib.Order.Basic

/-!
# Checks that report the first violation

A computation without a result checks a set `V` of possible violations, ordered by `lt`. It reports the
first violation if it succeeds without one, and fails with the message of the first one otherwise. The
rules follow the code: a single check, one check after the other, and a case that does not occur.
-/

namespace Dnp3Bridge.Errors

universe u

variable {ε : Type u} {κ : Type*} {lt : κ → κ → Prop} {V W : κ → Prop} {msg : κ → ε}
  {x y : Except ε PUnit}

/-- The outcome `x` reports the first of the violations `V`. -/
def FirstError (lt : κ → κ → Prop) (V : κ → Prop) (msg : κ → ε) (x : Except ε PUnit) : Prop :=
  (x = .ok ⟨⟩ ∧ ∀ k, ¬ V k) ∨ ∃ k, x = .error (msg k) ∧ V k ∧ ∀ k', V k' → ¬ lt k' k

/-- Nothing is checked. -/
lemma FirstError.nothing (none : ∀ k, ¬ V k) : FirstError lt V msg (.ok ⟨⟩) :=
  .inl ⟨rfl, none⟩

/-- A single check at `k`. -/
lemma FirstError.check {P : Prop} {k : κ} (irrefl : ¬ lt k k) (fails : P → x = .error (msg k))
    (passes : ¬ P → x = .ok ⟨⟩) : FirstError lt (fun k' => k' = k ∧ P) msg x := by
  by_cases h : P
  · refine .inr ⟨k, fails h, ⟨rfl, h⟩, ?_⟩
    rintro k' ⟨rfl, -⟩
    exact irrefl
  · exact .inl ⟨passes h, fun _ v => h v.2⟩

/-- One check after the other. -/
lemma FirstError.seq (hx : FirstError lt V msg x) (hy : FirstError lt W msg y)
    (order : ∀ k k', V k → W k' → ¬ lt k' k) :
    FirstError lt (fun k => V k ∨ W k) msg (x >>= fun _ => y) := by
  obtain ⟨rfl, none⟩ | ⟨k, rfl, vk, first⟩ := hx
  · obtain ⟨rfl, none'⟩ | ⟨k, rfl, wk, first⟩ := hy
    · exact .inl ⟨rfl, fun k => not_or.mpr ⟨none k, none' k⟩⟩
    · refine .inr ⟨k, rfl, .inr wk, fun k' both => ?_⟩
      obtain vk' | wk' := both
      · exact absurd vk' (none k')
      · exact first k' wk'
  · -- the first computation fails, and the second one is not run
    refine .inr ⟨k, rfl, .inl vk, fun k' both => ?_⟩
    obtain vk' | wk' := both
    · exact first k' vk'
    · exact order k k' vk wk'

/-- The same violations, stated in another way. -/
lemma FirstError.congr (h : FirstError lt V msg x) (same : ∀ k, W k ↔ V k) :
    FirstError lt W msg x := by
  obtain ⟨e, none⟩ | ⟨k, e, vk, first⟩ := h
  · exact .inl ⟨e, fun k => mt (same k).mp (none k)⟩
  · exact .inr ⟨k, e, (same k).mpr vk, fun k' wk' => first k' ((same k').mp wk')⟩

/-- It succeeds exactly if there is no violation. -/
theorem FirstError.ok_iff (h : FirstError lt V msg x) : x = .ok ⟨⟩ ↔ ∀ k, ¬ V k := by
  obtain ⟨rfl, none⟩ | ⟨k, rfl, vk, -⟩ := h
  · exact iff_of_true rfl none
  · exact iff_of_false nofun fun none => none k vk

/-- It fails exactly with the message of the first violation. -/
theorem FirstError.error_iff (h : FirstError lt V msg x)
    (total : ∀ k k', lt k k' ∨ k = k' ∨ lt k' k) (e : ε) :
    x = .error e ↔ ∃ k, V k ∧ (∀ k', V k' → ¬ lt k' k) ∧ e = msg k := by
  obtain ⟨rfl, none⟩ | ⟨k, rfl, vk, first⟩ := h
  · refine iff_of_false nofun ?_
    rintro ⟨k, vk, -⟩
    exact none k vk
  · constructor
    · intro eq
      exact ⟨k, vk, first, (Except.error.inj eq).symm⟩
    · rintro ⟨k', vk', first', rfl⟩
      obtain before | rfl | after := total k k'
      · exact absurd before (first' k vk)
      · rfl
      · exact absurd after (first k' vk')

end Dnp3Bridge.Errors
