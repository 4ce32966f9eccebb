import Dnp3Bridge.Reporting.OnChange
import Mathlib.Algebra.Order.Ring.Abs
import Mathlib.Tactic.Linarith

/-!
# How much is reported

A bound on the number of reports of a signal, by the way that it travels. The values of the signal are
numbers or strays, which have no number. Two values are apart if one of them is a stray or if they
differ by more than `d`; the signal is reported whenever it is apart from the value reported last.

Each report is paid for by the way since the one before it. The bound holds for any stretch of the
signal, whatever has been reported before.
-/

namespace Dnp3Bridge.Reporting

variable {α 𝕜 : Type*} [CommRing 𝕜] [LinearOrder 𝕜] (number : α → Option 𝕜)

/-- The way from a value to the next one, counted as `out` next to a stray. -/
def way (out : 𝕜) (x v : α) : 𝕜 :=
  match number x, number v with
  | some a, some b => |b - a|
  | _, _ => out

/-- The way along a stretch of the signal. -/
def travel : List α → 𝕜
  | x :: v :: vs => way number 0 x v + travel (v :: vs)
  | _ => 0

/-- The number of strays. -/
def strays (vs : List α) : ℕ :=
  vs.countP fun v => (number v).isNone

/-- Two values are apart. -/
def Apart (d : 𝕜) (x v : α) : Prop :=
  ∀ a b, number x = some a → number v = some b → d < |b - a|

variable {number}

/-- The way between two numbers is their distance. -/
lemma way_numbers {out : 𝕜} {x v a b} (hx : number x = some a) (hv : number v = some b) :
    way number out x v = |b - a| := by
  rw [way, hx, hv]

/-- The way from or to a value that is no number is counted apart. -/
lemma way_stray {out : 𝕜} {x v} (stray : number x = none ∨ number v = none) :
    way number out x v = out := by
  unfold way
  split
  case h_1 hx hv =>
    rw [hx, hv] at stray
    obtain e | e := stray <;> cases e
  case h_2 => rfl

variable [IsStrictOrderedRing 𝕜]

/-- No way is negative. -/
lemma way_nonneg {out : 𝕜} (nonneg : 0 ≤ out) (x v : α) : 0 ≤ way number out x v := by
  unfold way
  split
  case h_1 => exact abs_nonneg _
  case h_2 => exact nonneg

/-- The way of a list is not negative. -/
lemma travel_nonneg (vs : List α) : 0 ≤ travel number vs := by
  induction vs with
  | nil => exact le_rfl
  | cons x vs ih =>
    cases vs with
    | nil => exact le_rfl
    | cons v vs => exact add_nonneg (way_nonneg le_rfl x v) ih

variable {d : 𝕜} {R : α → α → Prop}

/-- The signal does not get farther from a value than it travels. -/
lemma way_le {r v w : α} {a b} (hr : number r = some a) (hw : number w = some b)
    (near : number v = none → |b - a| ≤ d) :
    |b - a| ≤ way number d r v + way number 0 v w := by
  cases hv : number v with
  | none =>
    rw [way_stray (.inr hv), way_stray (.inl hv), add_zero]
    exact near hv
  | some x =>
    rw [way_numbers hr hv, way_numbers hv hw]
    calc |b - a| = |(x - a) + (b - x)| := by rw [sub_add_sub_cancel']
      _ ≤ |x - a| + |b - x| := abs_add_le _ _

/-- A report is paid for by the way since the last one; that of a stray, and the one after it, by
itself. -/
lemma way_of_reported (nonneg : 0 ≤ d) {r w : α} (far : Apart number d r w) (v : α) :
    d + way number d w w ≤
      way number d r v + way number 0 v w + d * (2 * strays number [w] : ℕ) := by
  have sum : 0 ≤ way number d r v + way number 0 v w :=
    add_nonneg (way_nonneg nonneg r v) (way_nonneg le_rfl v w)
  cases hw : number w with
  | none =>
    have one : strays number [w] = 1 := by simp [strays, hw]
    rw [way_stray (.inl hw), one]
    push_cast
    linarith
  | some b =>
    have zero : strays number [w] = 0 := by simp [strays, hw]
    rw [way_numbers hw hw, sub_self, abs_zero, zero, mul_zero, Nat.cast_zero, mul_zero, add_zero,
      add_zero]
    cases hr : number r with
    | none =>
      rw [way_stray (.inl hr)]
      exact le_add_of_nonneg_right (way_nonneg le_rfl v w)
    | some a =>
      have far := far a b hr hw
      cases hv : number v with
      | none =>
        rw [way_stray (.inr hv)]
        exact le_add_of_nonneg_right (way_nonneg le_rfl v w)
      | some x => exact far.le.trans (way_le hr hw fun stray => by cases hv.symm.trans stray)

/-- A value that is kept back is close to the value reported last. -/
lemma way_of_kept {r w : α} (near : ¬ Apart number d r w) (v : α) :
    way number d r w ≤ d ∧ way number d r w ≤ way number d r v + way number 0 v w := by
  simp only [Apart, not_forall, not_lt] at near
  obtain ⟨a, b, hr, hw, le⟩ := near
  rw [way_numbers hr hw]
  exact ⟨le, way_le hr hw fun _ => le⟩

variable [DecidableRel R]

/-- What is reported after `v`, when `r` has been reported last. -/
lemma reported_length_after (nonneg : 0 ≤ d) (apart : ∀ x v, R x v ↔ Apart number d x v) (r v : α)
    (vs : List α) : d * (reported (scan R (some r) vs)).length ≤
      way number d r v + travel number (v :: vs) + d * (2 * strays number vs : ℕ) := by
  induction vs generalizing r v with
  | nil =>
    have nothing : d * (reported (scan R (some r) [])).length = 0 := by
      show d * ((0 : ℕ) : 𝕜) = 0
      rw [Nat.cast_zero, mul_zero]
    rw [nothing]
    exact add_nonneg (add_nonneg (way_nonneg nonneg r v) (travel_nonneg _))
      (mul_nonneg nonneg (Nat.cast_nonneg _))
  | cons w vs ih =>
    have split : strays number (w :: vs) = strays number vs + strays number [w] := by
      simp [strays, List.countP_cons]
    have along : travel number (v :: w :: vs) = way number 0 v w + travel number (w :: vs) := rfl
    rw [split, along]
    by_cases far : R r w
    · have count : (reported (scan R (some r) (w :: vs))).length =
          (reported (scan R (some w) vs)).length + 1 := by
        simp [scan, reported, reports, report, far]
      have paid := way_of_reported nonneg ((apart r w).mp far) v
      have rest := ih w w
      rw [count]
      push_cast at paid rest ⊢
      linarith
    · have count : reported (scan R (some r) (w :: vs)) = reported (scan R (some r) vs) := by
        simp [scan, reported, reports, report, far]
      have kept := (way_of_kept ((apart r w).not.mp far) v).2
      have rest := ih r w
      have more : 0 ≤ d * (strays number [w] : ℕ) := mul_nonneg nonneg (Nat.cast_nonneg _)
      rw [count]
      push_cast at rest ⊢
      linarith

/-- In any stretch of the signal, the reports are paid for by its way, by one `d` for what has come
before, and by two for each stray. -/
theorem reported_length_le (nonneg : 0 ≤ d) (apart : ∀ x v, R x v ↔ Apart number d x v)
    (ref : Option α) (vs : List α) : d * (reported (scan R ref vs)).length ≤
      travel number vs + d * (1 + 2 * strays number vs : ℕ) := by
  cases vs with
  | nil =>
    have nothing : d * (reported (scan R ref [])).length = 0 := by
      show d * ((0 : ℕ) : 𝕜) = 0
      rw [Nat.cast_zero, mul_zero]
    rw [nothing]
    exact add_nonneg (travel_nonneg _) (mul_nonneg nonneg (Nat.cast_nonneg _))
  | cons w vs =>
    have split : strays number (w :: vs) = strays number vs + strays number [w] := by
      simp [strays, List.countP_cons]
    have more : 0 ≤ d * (strays number [w] : ℕ) := mul_nonneg nonneg (Nat.cast_nonneg _)
    rw [split]
    cases hit : reports R ref w with
    | true =>
      have count : (reported (scan R ref (w :: vs))).length =
          (reported (scan R (some w) vs)).length + 1 := by
        simp [scan, reported, report, hit]
      have rest := reported_length_after nonneg apart w w vs
      have start : way number d w w ≤ d * (strays number [w] : ℕ) := by
        cases hw : number w with
        | none =>
          have one : strays number [w] = 1 := by simp [strays, hw]
          rw [way_stray (.inl hw), one, Nat.cast_one, mul_one]
        | some b =>
          rw [way_numbers hw hw, sub_self, abs_zero]
          exact more
      rw [count]
      push_cast at rest ⊢
      linarith
    | false =>
      cases ref with
      | none => cases hit
      | some r =>
        have near : ¬ R r w := of_decide_eq_false hit
        have count : reported (scan R (some r) (w :: vs)) = reported (scan R (some r) vs) := by
          simp [scan, reported, reports, report, near]
        have kept := (way_of_kept ((apart r w).not.mp near) w).1
        have rest := reported_length_after nonneg apart r w vs
        rw [count]
        push_cast at rest ⊢
        linarith

end Dnp3Bridge.Reporting
