import Mathlib.Data.List.Induction

/-!
# The last setting wins

A list of entries, each of which may set a value: the entries are applied one after the other, and an
entry that sets nothing leaves the value as it is.
-/

namespace Dnp3Bridge.Sequences

variable {α β γ : Type*}

/-- The value set by the last entry that sets one, or `b` if no entry does. -/
def lastSet (f : α → Option β) (b : β) (l : List α) : β :=
  (l.filterMap f).getLast?.getD b

/-- The last element sets the value, or leaves what has been set before. -/
lemma lastSet_concat (f : α → Option β) (b : β) (l : List α) (a : α) :
    lastSet f b (l ++ [a]) = (f a).getD (lastSet f b l) := by
  rw [lastSet, List.filterMap_append, List.filterMap_cons, List.filterMap_nil]
  cases f a with
  | none => rw [List.append_nil, lastSet, Option.getD_none]
  | some v => rw [List.getLast?_concat, Option.getD_some, Option.getD_some]

/-- Without an entry that sets a value, the value stays what it was. -/
lemma lastSet_of_none {f : α → Option β} {l : List α} (unset : ∀ a ∈ l, f a = none) (b : β) :
    lastSet f b l = b := by
  have nothing : l.filterMap f = [] := List.filterMap_eq_nil_iff.mpr unset
  rw [lastSet, nothing]
  rfl

/-- A field that every entry sets or leaves alone has, in the end, the value set last. -/
theorem foldl_lastSet {get : γ → β} {set : α → γ → γ} {f : α → Option β} {l : List α}
    (one : ∀ a ∈ l, ∀ c, get (set a c) = (f a).getD (get c)) (c : γ) :
    get (l.foldl (fun c a => set a c) c) = lastSet f (get c) l := by
  induction l using List.reverseRecOn with
  | nil => rfl
  | append_singleton l a ih =>
    have before := ih fun x hx => one x (List.mem_append_left _ hx)
    rw [List.foldl_append, List.foldl_cons, List.foldl_nil, one a List.mem_concat_self, before,
      lastSet_concat]

end Dnp3Bridge.Sequences
