import Mathlib.Data.List.Destutter

/-!
# Reporting on change

A value is reported if it is the first one, or if a relation `R` holds between the value reported last
and the new one. The reference is the last *reported* value, so a value that is kept back is always
close to what the receiver has seen, however slowly the values drift.
-/

namespace Dnp3Bridge.Reporting

variable {α : Type*} (R : α → α → Prop) [DecidableRel R]

/-- Whether a value is reported, given the value reported last. -/
def reports : Option α → α → Bool
  | none, _ => true
  | some x, v => decide (R x v)

/-- The value reported last after a new value. -/
def report (ref : Option α) (v : α) : Option α :=
  if reports R ref v then some v else ref

/-- The values, each with the decision about it. -/
def scan : Option α → List α → List (α × Bool)
  | _, [] => []
  | ref, v :: vs => (v, reports R ref v) :: scan (report R ref v) vs

/-- The values that have been reported. -/
def reported (l : List (α × Bool)) : List α :=
  (l.filter Prod.snd).map Prod.fst

/-- What is reported of two lists of decisions is reported of the first, then of the second. -/
lemma reported_append (l m : List (α × Bool)) : reported (l ++ m) = reported l ++ reported m := by
  rw [reported, List.filter_append, List.map_append, reported, reported]

/-- A longer list is scanned from where the shorter one has left off. -/
lemma scan_append (ref : Option α) (l m : List α) :
    scan R ref (l ++ m) = scan R ref l ++ scan R (l.foldl (report R) ref) m := by
  induction l generalizing ref with
  | nil => rfl
  | cons v l ih =>
    rw [List.cons_append, scan, scan, ih, List.cons_append, List.foldl_cons]

/-- A scan decides about every value, in order. -/
lemma map_fst_scan (ref : Option α) (l : List α) : (scan R ref l).map Prod.fst = l := by
  induction l generalizing ref with
  | nil => rfl
  | cons v l ih => exact congrArg (v :: ·) (ih _)

/-- The values reported after `x` are those that survive when every value close to its last survivor
is removed. -/
lemma reported_scan_some (x : α) (l : List α) :
    x :: reported (scan R (some x) l) = l.destutter' R x := by
  induction l generalizing x with
  | nil => rfl
  | cons v l ih =>
    by_cases h : R x v
    · rw [List.destutter'_cons_pos l h, ← ih v]
      simp [scan, reported, reports, report, h]
    · rw [List.destutter'_cons_neg l h, ← ih x]
      simp [scan, reported, reports, report, h]

/-- From nothing, the values that are reported are the list without its repetitions. -/
theorem reported_scan (l : List α) : reported (scan R none l) = l.destutter R := by
  cases l with
  | nil => rfl
  | cons v l => exact reported_scan_some R v l

/-- Two values reported one after the other are related. -/
theorem isChain_reported (l : List α) : (reported (scan R none l)).IsChain R := by
  rw [reported_scan]
  exact List.isChain_destutter R l

/-- The reference is the value reported last. -/
lemma foldl_report (l : List α) :
    l.foldl (report R) none = (reported (scan R none l)).getLast? := by
  induction l using List.reverseRecOn with
  | nil => rfl
  | append_singleton l v ih =>
    rw [List.foldl_append, scan_append, reported_append, ih, List.foldl_cons, List.foldl_nil, scan,
      scan, report]
    cases reports R (reported (scan R none l)).getLast? v with
    | true => exact List.getLast?_concat.symm
    | false => exact congrArg List.getLast? (List.append_nil _).symm

/-- The first value is reported. -/
lemma reports_first {l : List α} {v e b} (h : scan R none l = (v, e) :: b) : e = true := by
  cases l with
  | nil => cases h
  | cons w l =>
    cases h
    rfl

/-- The decision about a value depends on the value reported last before it. -/
lemma scan_split {l : List α} {a v e b} (h : scan R none l = a ++ (v, e) :: b) :
    e = reports R (reported a).getLast? v := by
  have vs : l = a.map Prod.fst ++ v :: b.map Prod.fst := by
    rw [← map_fst_scan R none l, h]
    simp
  rw [vs, scan_append] at h
  have len : (scan R none (a.map Prod.fst)).length = a.length := by
    rw [← List.length_map Prod.fst, map_fst_scan, List.length_map]
  obtain ⟨ha, hv⟩ := List.append_inj h len
  rw [foldl_report, ha, scan] at hv
  exact (congrArg Prod.snd (List.cons.inj hv).1).symm

/-- A value that is kept back is close to the value reported last. -/
theorem kept_back {l : List α} {a v b} (h : scan R none l = a ++ (v, false) :: b) :
    ∃ x, (reported a).getLast? = some x ∧ ¬ R x v := by
  have e := scan_split R h
  cases last : (reported a).getLast? with
  | none =>
    rw [last] at e
    cases e
  | some x =>
    rw [last] at e
    exact ⟨x, rfl, of_decide_eq_false e.symm⟩

/-- A value that comes again is not reported again, unless it is related to itself. -/
theorem not_reported_again {l : List α} {a v e e' b} (irrefl : ¬ R v v)
    (h : scan R none l = a ++ (v, e) :: (v, e') :: b) : e' = false := by
  have first := scan_split R h
  have second : e' = reports R (reported (a ++ [(v, e)])).getLast? v := by
    refine scan_split R (l := l) (b := b) ?_
    rw [h, List.append_assoc]
    rfl
  rw [second, reported_append]
  cases e with
  | true =>
    have last : (reported a ++ reported [(v, true)]).getLast? = some v := List.getLast?_concat
    rw [last]
    exact decide_eq_false irrefl
  | false =>
    have last : reported a ++ reported [(v, false)] = reported a := List.append_nil _
    rw [last, ← first]

/-- If every change is reported, a value is reported exactly if it differs from the one before it. -/
theorem reports_change {β : Type*} [DecidableEq β] {l : List β} {a v e w e' b}
    (h : scan (· ≠ ·) none l = a ++ (v, e) :: (w, e') :: b) : e' = decide (v ≠ w) := by
  have decided : e' = reports (· ≠ ·) (reported (a ++ [(v, e)])).getLast? w := by
    refine scan_split _ (l := l) (b := b) ?_
    rw [h, List.append_assoc]
    rfl
  have last : (reported (a ++ [(v, e)])).getLast? = some v := by
    rw [reported_append]
    cases e with
    | true => exact List.getLast?_concat
    | false =>
      -- a value that is kept back is the value reported last
      obtain ⟨x, last, same⟩ := kept_back _ h
      obtain rfl : x = v := not_not.mp same
      have none_new : reported a ++ reported [(x, false)] = reported a := List.append_nil _
      rw [none_new, last]
  rw [decided, last]
  rfl

end Dnp3Bridge.Reporting
