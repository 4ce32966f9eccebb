import Mathlib.Order.WellFounded

/-!
# Lock order

If threads take their locks in one order, they do not block each other for ever: a thread that is
blocked waits for a lock of a thread that, if it is blocked itself, waits for a lock further along the
order, and the order is well-founded.
-/

namespace Dnp3Bridge.Concurrency

variable {τ κ : Type*} {unfinished enabled : τ → Prop} {holds waits : τ → κ → Prop}
  {further : κ → κ → Prop}

/-- From every lock of an unfinished thread one comes to a thread that can take a step. -/
lemma exists_enabled_of_holds (wf : WellFounded further)
    (blocked : ∀ t, unfinished t → enabled t ∨ ∃ l u, waits t l ∧ holds u l ∧ unfinished u)
    (ordered : ∀ t l l', holds t l → waits t l' → further l' l) (l : κ) {t : τ} (has : holds t l)
    (left : unfinished t) : ∃ u, unfinished u ∧ enabled u := by
  induction l using wf.induction generalizing t with
  | _ l ih =>
    obtain free | ⟨l', u, wait, has', left'⟩ := blocked t left
    · exact ⟨t, left, free⟩
    · exact ih l' (ordered t l l' has wait) has' left'

/-- Threads that take their locks in one order do not deadlock. -/
theorem exists_enabled_of_lockOrder (wf : WellFounded further)
    (blocked : ∀ t, unfinished t → enabled t ∨ ∃ l u, waits t l ∧ holds u l ∧ unfinished u)
    (ordered : ∀ t l l', holds t l → waits t l' → further l' l) {t : τ} (left : unfinished t) :
    ∃ u, unfinished u ∧ enabled u := by
  obtain free | ⟨l, u, -, has, left'⟩ := blocked t left
  · exact ⟨t, left, free⟩
  · exact exists_enabled_of_holds wf blocked ordered l has left'

end Dnp3Bridge.Concurrency
