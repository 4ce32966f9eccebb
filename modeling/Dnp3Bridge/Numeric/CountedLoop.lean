import Mathlib.Data.List.Nodup

/-!
# Counted loops

The loop `for (std::uint32_t i = first; i <= last; ++i)` over 16-bit bounds. The counter is wider than
the bounds, so it passes `last` also when that is the largest 16-bit number, and the loop ends.
-/

namespace Dnp3Bridge

variable {σ : Type*}

/-- The counter of the loop does not wrap around. -/
lemma counter_succ {i : UInt32} {last : UInt16} (h : i ≤ last.toUInt32) :
    i.toNat ≤ last.toNat ∧ (i + 1).toNat = i.toNat + 1 := by
  have le : i.toNat ≤ last.toNat := by
    have := UInt32.le_iff_toNat_le.mp h
    rwa [UInt16.toNat_toUInt32] at this
  have lt := last.toNat_lt
  refine ⟨le, ?_⟩
  rw [UInt32.toNat_add]
  exact Nat.mod_eq_of_lt (by show i.toNat + 1 < _; omega)

/-- The rest of the loop, from the counter `i` on. -/
def forUpTo (body : UInt16 → σ → σ) (last : UInt16) (i : UInt32) (s : σ) : σ :=
  if i ≤ last.toUInt32 then forUpTo body last (i + 1) (body i.toUInt16 s) else s
termination_by last.toNat + 1 - i.toNat
decreasing_by
  rename_i h
  obtain ⟨le, succ⟩ := counter_succ h
  omega

/-- The loop. -/
def forRange (first last : UInt16) (body : UInt16 → σ → σ) (s : σ) : σ :=
  forUpTo body last first.toUInt32 s

/-- The indices from `first` to `last`, both included. -/
def indices (first last : UInt16) : List UInt16 :=
  (List.range' first.toNat (last.toNat + 1 - first.toNat)).map UInt16.ofNat

/-- The loop counts through the indices from its first to its last. -/
lemma mem_indices {first last i : UInt16} : i ∈ indices first last ↔ first ≤ i ∧ i ≤ last := by
  rw [indices, List.mem_map, UInt16.le_iff_toNat_le, UInt16.le_iff_toNat_le]
  constructor
  · intro h
    obtain ⟨n, mem, rfl⟩ := h
    have bounds := List.mem_range'_1.mp mem
    have lt : n < UInt16.size := by
      have := last.toNat_lt
      show n < 65536
      omega
    rw [UInt16.toNat_ofNat_of_lt' lt]
    omega
  · intro h
    refine ⟨i.toNat, List.mem_range'_1.mpr ?_, UInt16.ofNat_toNat⟩
    omega

/-- The loop meets no index twice. -/
lemma nodup_indices (first last : UInt16) : (indices first last).Nodup := by
  refine List.Nodup.map_on ?_ (List.nodup_range' ..)
  have small : ∀ n ∈ List.range' first.toNat (last.toNat + 1 - first.toNat), n < UInt16.size := by
    intro n hn
    have bounds := List.mem_range'_1.mp hn
    have := last.toNat_lt
    show n < 65536
    omega
  intro n hn m hm e
  have eq := congrArg UInt16.toNat e
  rwa [UInt16.toNat_ofNat_of_lt' (small n hn), UInt16.toNat_ofNat_of_lt' (small m hm)] at eq

/-- The indices are increasing. -/
lemma pairwise_indices (first last : UInt16) : (indices first last).Pairwise (· < ·) := by
  rw [indices, List.pairwise_map]
  refine (List.pairwise_lt_range' _).imp_of_mem fun {n m} hn hm lt => ?_
  have bound := List.mem_range'_1.mp hm
  have := last.toNat_lt
  rw [UInt16.lt_iff_toNat_lt, UInt16.toNat_ofNat_of_lt' (by show n < 65536; omega),
    UInt16.toNat_ofNat_of_lt' (by show m < 65536; omega)]
  exact lt

/-- A loop from an index to itself counts this index. -/
lemma indices_self (i : UInt16) : indices i i = [i] := by
  have one : i.toNat + 1 - i.toNat = 1 := by omega
  rw [indices, one, List.range'_one, List.map_singleton, UInt16.ofNat_toNat]

/-- The last index comes at the end. -/
lemma indices_concat {first last i : UInt16} (le : first ≤ last) (succ : i.toNat = last.toNat + 1) :
    indices first i = indices first last ++ [i] := by
  have le' := UInt16.le_iff_toNat_le.mp le
  have count : i.toNat + 1 - first.toNat = (last.toNat + 1 - first.toNat) + 1 := by omega
  have next : first.toNat + (last.toNat + 1 - first.toNat) = i.toNat := by omega
  rw [indices, count, List.range'_1_concat, next, List.map_append, List.map_singleton,
    UInt16.ofNat_toNat, indices]

/-- The loop is a fold over the indices that it counts. -/
lemma forUpTo_eq (body : UInt16 → σ → σ) (last : UInt16) (i : UInt32) (s : σ) :
    forUpTo body last i s = ((List.range' i.toNat (last.toNat + 1 - i.toNat)).map UInt16.ofNat).foldl
      (fun s i => body i s) s := by
  induction i, s using forUpTo.induct body last with
  | case1 i s h ih =>
    obtain ⟨le, succ⟩ := counter_succ h
    have count : last.toNat + 1 - i.toNat = (last.toNat + 1 - (i + 1).toNat) + 1 := by omega
    rw [forUpTo, if_pos h, ih, count, List.range'_succ, succ]
    rfl
  | case2 i s h =>
    have count : last.toNat + 1 - i.toNat = 0 := by
      have := mt UInt32.le_iff_toNat_le.mpr h
      rw [UInt16.toNat_toUInt32] at this
      omega
    rw [forUpTo, if_neg h, count]
    rfl

/-- The loop runs its body for every index of the range, in increasing order. -/
theorem forRange_eq (first last : UInt16) (body : UInt16 → σ → σ) (s : σ) :
    forRange first last body s = (indices first last).foldl (fun s i => body i s) s := by
  rw [forRange, forUpTo_eq, UInt16.toNat_toUInt32]
  rfl

/-- A loop from an index to itself runs its body once. -/
@[simp]
lemma forRange_self (i : UInt16) (body : UInt16 → σ → σ) (s : σ) :
    forRange i i body s = body i s := by
  rw [forRange_eq, indices_self]
  rfl

/-- What every round of the loop keeps, the loop keeps. -/
theorem forRange_invariant {P : σ → Prop} {first last : UInt16} {body : UInt16 → σ → σ} {s : σ}
    (init : P s) (round : ∀ i s, P s → P (body i s)) : P (forRange first last body s) := by
  rw [forRange_eq]
  exact List.foldlRecOn _ _ init fun s h i _ => round i s h

end Dnp3Bridge
