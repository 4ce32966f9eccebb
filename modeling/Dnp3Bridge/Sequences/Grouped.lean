import Mathlib.Data.List.Basic

/-!
# Grouped lists

A list is grouped by a key if the entries of one key stand next to each other: nothing of another key
comes between two of them. Prefixes of grouped lists are grouped, and a list stays grouped when an
entry is appended whose key is new or is the key of the last entry.
-/

namespace Dnp3Bridge.Sequences

variable {α κ : Type*} {key : α → κ}

/-- No entry of another key comes between two entries of the same key. -/
def Grouped (key : α → κ) (l : List α) : Prop :=
  ∀ a x b y d, l = a ++ x :: (b ++ y :: d) → key x = key y → ∀ z ∈ b, key z = key x

/-- The empty list is grouped. -/
lemma Grouped.nil : Grouped key [] := by
  intro a x b y d e
  have := congrArg List.length e
  simp at this

/-- A first part of a grouped list is grouped. -/
lemma Grouped.of_prefix {l l' : List α} (h : Grouped key l') (p : l <+: l') : Grouped key l := by
  obtain ⟨s, rfl⟩ := p
  intro a x b y d e
  refine h a x b y (d ++ s) ?_
  rw [e]
  simp

/-- An entry may be appended if its key is new, or is the key of the last entry. -/
theorem Grouped.concat {l : List α} {e : α} (h : Grouped key l)
    (last : ∀ x ∈ l, key x = key e → ∃ y, l.getLast? = some y ∧ key y = key e) :
    Grouped key (l ++ [e]) := by
  intro a x b y d eq kxy z hz
  obtain rfl | ⟨d', w, rfl⟩ := d.eq_nil_or_concat
  · -- the second entry is the new one
    have split : l ++ [e] = (a ++ x :: b) ++ [y] := by rw [eq]; simp
    obtain ⟨rfl, ee⟩ := List.append_inj' split rfl
    cases ee
    obtain ⟨w, hw, kw⟩ := last x (by simp) kxy
    obtain rfl | ⟨b', w', rfl⟩ := b.eq_nil_or_concat
    · cases hz
    · rw [List.concat_eq_append] at hw hz
      have split' : a ++ x :: (b' ++ [w']) = (a ++ x :: b') ++ [w'] := by simp
      rw [split', List.getLast?_concat] at hw
      cases hw
      rcases List.mem_append.mp hz with hz | hz
      · exact h a x b' w [] (by simp) (kxy.trans kw.symm) z hz
      · cases List.mem_singleton.mp hz
        exact kw.trans kxy.symm
  · have split : l ++ [e] = (a ++ x :: (b ++ y :: d')) ++ [w] := by rw [eq]; simp
    obtain ⟨rfl, -⟩ := List.append_inj' split rfl
    exact h a x b y d' rfl kxy z hz

/-- If no key occurs in two of several lists, the entries of a key are those of one of them. -/
theorem filter_flatten [DecidableEq κ] {ls : List (List α)}
    (disj : ls.Pairwise fun l l' => ∀ x ∈ l, ∀ y ∈ l', key x ≠ key y) {l x} (hl : l ∈ ls)
    (hx : x ∈ l) :
    ls.flatten.filter (fun y => key y = key x) = l.filter fun y => key y = key x := by
  induction ls with
  | nil => cases hl
  | cons l0 ls ih =>
    obtain ⟨apart, disj⟩ := List.pairwise_cons.mp disj
    rw [List.flatten_cons, List.filter_append]
    rcases List.mem_cons.mp hl with rfl | hl
    · have none : ls.flatten.filter (fun y => key y = key x) = [] := by
        refine List.filter_eq_nil_iff.mpr fun y hy => ?_
        obtain ⟨l', hl', hy⟩ := List.mem_flatten.mp hy
        simpa using (apart l' hl' x hx y hy).symm
      rw [none, List.append_nil]
    · have none : l0.filter (fun y => key y = key x) = [] := by
        refine List.filter_eq_nil_iff.mpr fun y hy => ?_
        simpa using apart l hl y hy x hx
      rw [none, List.nil_append, ih disj hl]

end Dnp3Bridge.Sequences
