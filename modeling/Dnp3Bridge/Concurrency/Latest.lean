import Mathlib.Data.Option.Basic
import Mathlib.Logic.Function.Basic

/-!
# A slot that follows the latest of several holders

Holders open and close in any order, and a slot remembers one address. Opening writes the address of
the new holder into the slot; closing clears the slot if it finds its own address there. As long as a
holder that is open shares its address with no other, the slot then follows the holder that was opened
last: it has its address while that one is open, and is empty from its closing to the next opening.
-/

namespace Dnp3Bridge.Concurrency

variable {τ ω : Type*}

/-- The holder that was opened last, unless it has been closed. -/
def latest : List τ → (τ → Bool) → Option τ
  | [], _ => none
  | t :: _, closed => if closed t then none else some t

/-- The slot has the address of the latest holder. -/
def Follows (slot : Option ω) (addr : τ → Option ω) (opened : List τ) (closed : τ → Bool) : Prop :=
  slot = (latest opened closed).bind addr

variable {opened : List τ} {closed : τ → Bool} {slot : Option ω} {addr : τ → Option ω} {t : τ} {w : ω}

/-- The latest thread that is open is the one opened last, unless it has been closed. -/
lemma latest_eq_some : latest opened closed = some t ↔ opened.head? = some t ∧ closed t = false := by
  cases opened with
  | nil => simp [latest]
  | cons u us =>
    constructor
    · intro e
      cases h : closed u with
      | true => simp [latest, h] at e
      | false =>
        simp only [latest, h, Bool.false_eq_true, if_false, Option.some.injEq] at e
        subst e
        exact ⟨rfl, h⟩
    · rintro ⟨e, h⟩
      cases e
      simp [latest, h]

/-- A thread that opens, and has not been closed, is the latest. -/
lemma latest_open (h : closed t = false) : latest (t :: opened) closed = some t :=
  latest_eq_some.mpr ⟨rfl, h⟩

/-- A thread that closes leaves no latest if it was the latest, and otherwise changes nothing. -/
lemma latest_close [DecidableEq τ] : latest opened (Function.update closed t true) =
    if latest opened closed = some t then none else latest opened closed := by
  cases opened with
  | nil => rfl
  | cons u us =>
    rcases eq_or_ne u t with rfl | eq
    · simp [latest]
    · cases h : closed u <;> simp [latest, h, eq]

/-- Opening a holder writes its address. -/
lemma Follows.open (ht : addr t = some w) (h : closed t = false) :
    Follows (some w) addr (t :: opened) closed := by
  rw [Follows, latest_open h]
  exact ht.symm

/-- Closing a holder clears the slot exactly when that holder is the latest. -/
lemma Follows.close [DecidableEq τ] [DecidableEq ω] (h : Follows slot addr opened closed)
    (ht : addr t = some w)
    (alone : ∀ u, latest opened closed = some u → addr u = some w → u = t) :
    Follows (if slot = some w then none else slot) addr opened (Function.update closed t true) := by
  unfold Follows at h ⊢
  rw [latest_close, h]
  cases e : latest opened closed with
  | none => rfl
  | some u =>
    rcases eq_or_ne u t with rfl | eq
    · simp [ht]
    · have ne : addr u ≠ some w := fun hw => eq (alone u e hw)
      simp [eq, ne]

/-- Only the address of the latest holder matters. -/
lemma Follows.congr {addr' : τ → Option ω} (h : Follows slot addr opened closed)
    (same : ∀ u, latest opened closed = some u → addr' u = addr u) :
    Follows slot addr' opened closed := by
  unfold Follows at h ⊢
  cases e : latest opened closed with
  | none => rw [h, e]; rfl
  | some u =>
    rw [h, e]
    exact (same u e).symm

end Dnp3Bridge.Concurrency
