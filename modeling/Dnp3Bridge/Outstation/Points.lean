import Dnp3Bridge.Outstation.Manager
import Dnp3Bridge.Reporting.OnChange

/-!
# The outstation, point by point

The points of an outstation are independent of each other: what there is about a point changes with
the updates of that point only. Each point reports on change, an analog one when the new value is far
from the value reported last, a binary one when it is another value.
-/

namespace Dnp3Bridge.Outstation
open Bridge Reporting

/-- What there is about one point: what has been applied to it, and its state. -/
structure View (T : Type) where
  log : List (Applied T)
  state : PointState T

/-- The values that generated an event. -/
def forced {T} (log : List (Applied T)) : List T :=
  (log.filter fun p => p.mode = .force).map Applied.value

section
variable {T : Type} (R : T → T → Prop) [DecidableRel R]

/-- The value reported last. -/
def PointState.reference (s : PointState T) : Option T :=
  if s.seen then some s.lastEvented else none

def PointState.mode (s : PointState T) (v : T) : EventMode :=
  if reports R s.reference v then .force else .suppress

def PointState.next (s : PointState T) (v : T) : PointState T :=
  ⟨if reports R s.reference v then v else s.lastEvented, true⟩

/-- An update of a point that reports on change. -/
def View.update (p : View T) (v : T) (flags : UInt8) : View T :=
  ⟨p.log ++ [⟨v, flags, p.state.mode R v⟩], p.state.next R v⟩

/-- The values applied, each with the decision about it. -/
def View.decisions (p : View T) : List (T × Bool) :=
  p.log.map fun a => (a.value, decide (a.mode = .force))

/-- A point that has not been updated since `start`. -/
def View.fresh (v : T) : View T := ⟨[], v, false⟩

/-- The value evented last after an update is what reporting on change makes of it. -/
lemma PointState.next_reference (s : PointState T) (v : T) :
    (s.next R v).reference = report R s.reference v := by
  cases h : s.seen with
  | true =>
    simp only [next, reference, report, h, if_true]
    cases reports R (some s.lastEvented) v <;> rfl
  | false => simp [next, reference, report, reports, h]

/-- An update adds its value and the decision about it. -/
lemma View.update_decisions (p : View T) (v : T) (flags : UInt8) :
    (p.update R v flags).decisions = p.decisions ++ [(v, reports R p.state.reference v)] := by
  rw [decisions, update, List.map_append, decisions]
  cases h : reports R p.state.reference v <;> simp [PointState.mode, h]

/-- The mode of an applied value is the decision about it. -/
lemma View.modes_eq (p : View T) :
    p.decisions.map (fun d => if d.2 then EventMode.force else .suppress) =
      p.log.map Applied.mode := by
  rw [decisions, List.map_map]
  refine List.map_congr_left fun a _ => ?_
  cases h : a.mode <;> simp [h]

/-- The decisions about a point are those of reporting on change. -/
theorem View.foldl_update (v0 : T) (us : List (T × UInt8)) :
    let p := us.foldl (fun p u => p.update R u.1 u.2) (View.fresh v0)
    p.decisions = scan R none (us.map Prod.fst) ∧
      p.state.reference = (us.map Prod.fst).foldl (report R) none := by
  intro p
  induction us using List.reverseRecOn with
  | nil => exact ⟨rfl, rfl⟩
  | append_singleton us u ih =>
    obtain ⟨log, ref⟩ := ih
    have step : p = (us.foldl (fun p u => p.update R u.1 u.2) (View.fresh v0)).update R u.1 u.2 :=
      List.foldl_concat ..
    rw [step, update_decisions, log, List.map_append, scan_append, List.foldl_append, ref]
    refine ⟨rfl, ?_⟩
    show (PointState.next R _ _).reference = _
    rw [PointState.next_reference, ref]
    rfl

/-- Every update of a point is applied, with its value and its flags. -/
lemma View.foldl_applied (us : List (T × UInt8))
    (p : View T) : (us.foldl (fun p u => p.update R u.1 u.2) p).log.map (fun a => (a.value, a.flags)) =
      p.log.map (fun a => (a.value, a.flags)) ++ us := by
  induction us generalizing p with
  | nil => exact (List.append_nil _).symm
  | cons u us ih =>
    rw [List.foldl_cons, ih, View.update, List.map_append, List.append_assoc]
    rfl

/-- The events are the decisions to report. -/
lemma reported_decisions (log : List (Applied T)) (state : PointState T) :
    reported (View.decisions ⟨log, state⟩) = forced log := by
  induction log with
  | nil => rfl
  | cons p log ih =>
    rw [View.decisions, reported, forced] at *
    cases h : p.mode <;> simp [h, ih]

/-- A point that reports on change generates an event for the first update, and for one that is related
to the last event. -/
lemma View.mode_force_iff {p : View T} {vs : List T} (decided : p.decisions = scan R none vs)
    (reference : p.state.reference = vs.foldl (report R) none) (v : T) :
    p.state.mode R v = .force ↔
      p.log = [] ∨ ∃ ref, (forced p.log).getLast? = some ref ∧ R ref v := by
  rw [foldl_report, ← decided, View.decisions, ← View.decisions.eq_def ⟨p.log, p.state⟩,
    reported_decisions] at reference
  rw [PointState.mode, reference]
  cases last : (forced p.log).getLast? with
  | none =>
    refine iff_of_true rfl (.inl ?_)
    cases e : p.log with
    | nil => rfl
    | cons a as =>
      rw [View.decisions, e, List.map_cons] at decided
      have first : a.mode = .force := of_decide_eq_true (reports_first R decided.symm)
      rw [forced, e, List.filter_cons_of_pos (by simpa using first)] at last
      simp at last
  | some ref =>
    have updated : p.log ≠ [] := by
      intro e
      rw [e] at last
      cases last
    simp [reports, updated]

end

/-- The new value is not within the deadband of the value reported last. -/
def Far (d ref v : Double) : Prop :=
  (!v.isFinite || !ref.isFinite || (v.sub ref).fabs.gt d) = true

instance (d : Double) : DecidableRel (Far d) :=
  fun _ _ => inferInstanceAs (Decidable (_ = true))

/-- Finite values are farther apart than a finite deadband if their distance exceeds it. -/
lemma far_finite {d x y : ℚ} : Far (.finite d) (.finite x) (.finite y) ↔ d < |y - x| := by
  simp [Far, Double.sub, Double.fabs, Double.gt]

/-- A value within the deadband is finite, and so is the value reported last. -/
lemma not_far {d : ℚ} {ref v : Double} (h : ¬ Far (.finite d) ref v) :
    ∃ x y, v = .finite x ∧ ref = .finite y ∧ |x - y| ≤ d := by
  have near := Bool.eq_false_of_not_eq_true h
  rw [Bool.or_eq_false_iff, Bool.or_eq_false_iff] at near
  obtain ⟨⟨hv, href⟩, -⟩ := near
  obtain ⟨x, rfl⟩ := Double.eq_finite (v := v) (by simpa using hv)
  obtain ⟨y, rfl⟩ := Double.eq_finite (v := ref) (by simpa using href)
  exact ⟨x, y, rfl, rfl, not_lt.mp (mt far_finite.mpr h)⟩

def Measurement.analogAt (i : UInt16) : Measurement → Option (Applied Double)
  | .analog j applied => if j = i then some applied else none
  | .binary _ _ => none

def Measurement.binaryAt (i : UInt16) : Measurement → Option (Applied Bool)
  | .binary j applied => if j = i then some applied else none
  | .analog _ _ => none

namespace OutstationManager

/-- Everything that has been applied to the outstation. -/
def applied (m : OutstationManager) : List Measurement :=
  match m.outstation with
  | none => []
  | some o => o.applied

def analogView (m : OutstationManager) (i : UInt16) : View Double :=
  ⟨m.applied.filterMap (Measurement.analogAt i), m.analogState i⟩

def binaryView (m : OutstationManager) (i : UInt16) : View Bool :=
  ⟨m.applied.filterMap (Measurement.binaryAt i), m.binaryState i⟩

/-- Without an outstation an update does nothing. -/
lemma visit_stopped {m : OutstationManager} (off : m.outstation = none) (u : PointUpdate) :
    m.visit u = m := by
  cases u with
  | analog u => rw [visit, updateAnalog, off]
  | binary u => rw [visit, updateBinary, off]

/-- An update leaves the deadbands alone. -/
lemma visit_deadband (m : OutstationManager) (u : PointUpdate) (i : UInt16) :
    (m.visit u).deadband i = m.deadband i := by
  cases u with
  | analog u =>
    rw [visit, updateAnalog]
    split <;> rfl
  | binary u =>
    rw [visit, updateBinary]
    split <;> rfl

/-- An update leaves the outstation there. -/
lemma visit_outstation {m : OutstationManager} (on : m.outstation ≠ none) (u : PointUpdate) :
    (m.visit u).outstation ≠ none := by
  cases u with
  | analog u =>
    rw [visit, updateAnalog]
    split
    case h_1 off => exact absurd off on
    case h_2 => exact Option.some_ne_none _
  | binary u =>
    rw [visit, updateBinary]
    split
    case h_1 off => exact absurd off on
    case h_2 => exact Option.some_ne_none _

/-- `updateAnalog` in terms of reporting on change. -/
lemma updateAnalog_eq {m : OutstationManager} {o} (on : m.outstation = some o) (i : UInt16)
    (v : Double) (q : Quality) :
    m.updateAnalog i v q = { m with
      outstation := some (o.apply (.analog i
        ⟨v, toFlagBits q, (m.analogState i).mode (Far (m.deadband i)) v⟩))
      analogState := Function.update m.analogState i
        ((m.analogState i).next (Far (m.deadband i)) v) } := by
  have decided : (!(m.analogState i).seen || !v.isFinite || !(m.analogState i).lastEvented.isFinite ||
      (v.sub (m.analogState i).lastEvented).fabs.gt (m.deadband i)) =
      reports (Far (m.deadband i)) (m.analogState i).reference v := by
    cases h : (m.analogState i).seen <;> simp [PointState.reference, reports, Far, h]
  rw [updateAnalog, on]
  simp only [PointState.mode, PointState.next, ← decided]

/-- What `updateBinary` does while the outstation is there. -/
lemma updateBinary_eq {m : OutstationManager} {o} (on : m.outstation = some o) (i : UInt16)
    (v : Bool) (q : Quality) :
    m.updateBinary i v q = { m with
      outstation := some (o.apply (.binary i
        ⟨v, toFlagBits q, (m.binaryState i).mode (· ≠ ·) v⟩))
      binaryState := Function.update m.binaryState i ((m.binaryState i).next (· ≠ ·) v) } := by
  have decided : (!(m.binaryState i).seen || v != (m.binaryState i).lastEvented) =
      reports (· ≠ ·) (m.binaryState i).reference v := by
    cases h : (m.binaryState i).seen <;>
      cases v <;> cases h' : (m.binaryState i).lastEvented <;>
        simp [PointState.reference, reports, h, h']
  rw [updateBinary, on]
  simp only [PointState.mode, PointState.next, ← decided]

/-- What an update does to a point: an update of another point does nothing. -/
lemma visit_analogView {m : OutstationManager} (on : m.outstation ≠ none) (u : PointUpdate)
    (i : UInt16) : (m.visit u).analogView i = ((u.analogAt i).elim (m.analogView i) fun a =>
      (m.analogView i).update (Far (m.deadband i)) a.value (toFlagBits a.quality)) := by
  obtain ⟨o, on⟩ := Option.ne_none_iff_exists'.mp on
  have old : m.applied = o.applied := by rw [applied, on]
  cases u with
  | analog u =>
    rw [visit, updateAnalog_eq on]
    rcases eq_or_ne u.index i with rfl | eq
    · simp [analogView, applied, IOutstation.apply, Measurement.analogAt, PointUpdate.analogAt,
        View.update, on]
    · simp [analogView, applied, IOutstation.apply, Measurement.analogAt, PointUpdate.analogAt, eq,
        Function.update_of_ne (Ne.symm eq), on]
  | binary u =>
    rw [visit, updateBinary_eq on]
    simp [analogView, applied, IOutstation.apply, Measurement.analogAt, PointUpdate.analogAt, on]

/-- An update changes the view of the binary point that it is about, and of no other. -/
lemma visit_binaryView {m : OutstationManager} (on : m.outstation ≠ none) (u : PointUpdate)
    (i : UInt16) : (m.visit u).binaryView i = ((u.binaryAt i).elim (m.binaryView i) fun b =>
      (m.binaryView i).update (· ≠ ·) b.value (toFlagBits b.quality)) := by
  obtain ⟨o, on⟩ := Option.ne_none_iff_exists'.mp on
  cases u with
  | binary u =>
    rw [visit, updateBinary_eq on]
    rcases eq_or_ne u.index i with rfl | eq
    · simp [binaryView, applied, IOutstation.apply, Measurement.binaryAt, PointUpdate.binaryAt,
        View.update, on]
    · simp [binaryView, applied, IOutstation.apply, Measurement.binaryAt, PointUpdate.binaryAt, eq,
        Function.update_of_ne (Ne.symm eq), on]
  | analog u =>
    rw [visit, updateAnalog_eq on]
    simp [binaryView, applied, IOutstation.apply, Measurement.binaryAt, PointUpdate.binaryAt, on]

/-- Without an outstation updates do nothing. -/
lemma visitAll_stopped {m : OutstationManager} (off : m.outstation = none) (us : List PointUpdate) :
    m.visitAll us = m := by
  induction us with
  | nil => rfl
  | cons u us ih =>
    show (m.visit u).visitAll us = m
    rw [visit_stopped off, ih]

/-- Updates are visited one after the other. -/
lemma visitAll_append (m : OutstationManager) (us vs : List PointUpdate) :
    m.visitAll (us ++ vs) = (m.visitAll us).visitAll vs :=
  List.foldl_append ..

/-- Updates leave the outstation there. -/
lemma visitAll_outstation {m : OutstationManager} (on : m.outstation ≠ none) (us : List PointUpdate) :
    (m.visitAll us).outstation ≠ none := by
  induction us generalizing m with
  | nil => exact on
  | cons u us ih => exact ih (visit_outstation on u)

/-- Updates leave the deadbands alone. -/
lemma visitAll_deadband (m : OutstationManager) (us : List PointUpdate) (i : UInt16) :
    (m.visitAll us).deadband i = m.deadband i := by
  induction us generalizing m with
  | nil => rfl
  | cons u us ih => exact (ih (m.visit u)).trans (m.visit_deadband u i)

/-- What every update does to a view if it is about it, all of them do in their order. -/
lemma visitAll_view {α β : Type*} (view : OutstationManager → α) (about : PointUpdate → Option β)
    {f : α → β → α} {P : OutstationManager → Prop} (keep : ∀ m u, P m → P (m.visit u))
    (one : ∀ m u, P m → view (m.visit u) = (about u).elim (view m) (f (view m)))
    {m : OutstationManager} (h : P m) (us : List PointUpdate) :
    view (m.visitAll us) = (us.filterMap about).foldl f (view m) := by
  induction us generalizing m with
  | nil => rfl
  | cons u us ih =>
    refine Eq.trans (ih (keep m u h)) ?_
    rw [one m u h, List.filterMap_cons]
    cases about u <;> rfl

/-- An analog point is made of its own updates. -/
theorem visitAll_analogView {m : OutstationManager} (on : m.outstation ≠ none)
    (us : List PointUpdate) (i : UInt16) :
    (m.visitAll us).analogView i =
      ((us.filterMap (PointUpdate.analogAt i)).map fun a => (a.value, toFlagBits a.quality)).foldl
        (fun p u => p.update (Far (m.deadband i)) u.1 u.2) (m.analogView i) := by
  rw [List.foldl_map]
  refine visitAll_view (·.analogView i) (PointUpdate.analogAt i)
    (P := fun m' => m'.outstation ≠ none ∧ m'.deadband i = m.deadband i) ?_ ?_ ⟨on, rfl⟩ us
  · intro m' u h
    exact ⟨visit_outstation h.1 u, (visit_deadband m' u i).trans h.2⟩
  · intro m' u h
    rw [visit_analogView h.1, h.2]

/-- A binary point is made of its own updates. -/
theorem visitAll_binaryView {m : OutstationManager} (on : m.outstation ≠ none)
    (us : List PointUpdate) (i : UInt16) :
    (m.visitAll us).binaryView i =
      ((us.filterMap (PointUpdate.binaryAt i)).map fun b => (b.value, toFlagBits b.quality)).foldl
        (fun p u => p.update (· ≠ ·) u.1 u.2) (m.binaryView i) := by
  rw [List.foldl_map]
  exact visitAll_view (·.binaryView i) (PointUpdate.binaryAt i) (P := fun m' => m'.outstation ≠ none)
    (fun _ u on => visit_outstation on u) (fun _ u on => visit_binaryView on u i) on us

/-- The updates of other points leave an analog point alone, in every state of the manager. -/
theorem visitAll_analogView_eq (m : OutstationManager) {us : List PointUpdate} {i : UInt16}
    (other : ∀ u ∈ us, u.analogAt i = none) : (m.visitAll us).analogView i = m.analogView i := by
  by_cases off : m.outstation = none
  · rw [visitAll_stopped off]
  · rw [visitAll_analogView off, List.filterMap_eq_nil_iff.mpr other]
    rfl

/-- Updates of other points leave the view of a binary point alone. -/
theorem visitAll_binaryView_eq (m : OutstationManager) {us : List PointUpdate} {i : UInt16}
    (other : ∀ u ∈ us, u.binaryAt i = none) : (m.visitAll us).binaryView i = m.binaryView i := by
  by_cases off : m.outstation = none
  · rw [visitAll_stopped off]
  · rw [visitAll_binaryView off, List.filterMap_eq_nil_iff.mpr other]
    rfl

/-- After `start` the outstation is there. -/
lemma start_outstation (m : OutstationManager) : m.start.outstation ≠ none :=
  Option.some_ne_none _

/-- `start` gives every point its effective deadband. -/
lemma start_deadband (m : OutstationManager) (i : UInt16) :
    m.start.deadband i = effectiveDeadband m.fresh m.cfg i := by
  show (((database m.fresh m.cfg).analogInput i).map AnalogConfig.deadband).getD _ = _
  rw [effectiveDeadband]
  cases (database m.fresh m.cfg).analogInput i <;> rfl

/-- After `start`, an analog point reports on change, and its reference is the value reported last. -/
theorem reports_analog (m : OutstationManager) (us : List PointUpdate) (i : UInt16) :
    let p := (m.start.visitAll us).analogView i
    let vs := (us.filterMap (PointUpdate.analogAt i)).map AnalogUpdate.value
    p.decisions = scan (Far (effectiveDeadband m.fresh m.cfg i)) none vs ∧
      p.state.reference = vs.foldl (report (Far (effectiveDeadband m.fresh m.cfg i))) none := by
  intro p vs
  have reported := View.foldl_update (Far (effectiveDeadband m.fresh m.cfg i)) (.finite 0)
    ((us.filterMap (PointUpdate.analogAt i)).map fun a => (a.value, toFlagBits a.quality))
  rw [List.map_map] at reported
  have made : p = _ := visitAll_analogView m.start_outstation us i
  rw [made, start_deadband]
  exact reported

/-- After `start`, the decisions about an analog point are those of reporting on change. -/
theorem decisions_analog (m : OutstationManager) (us : List PointUpdate) (i : UInt16) :
    ((m.start.visitAll us).analogView i).decisions =
      scan (Far (effectiveDeadband m.fresh m.cfg i)) none
        ((us.filterMap (PointUpdate.analogAt i)).map AnalogUpdate.value) :=
  (m.reports_analog us i).1

/-- After `start`, every update of an analog point is applied, with the flags of its quality. -/
lemma applied_analog (m : OutstationManager) (us : List PointUpdate) (i : UInt16) :
    ((m.start.visitAll us).analogView i).log.map (fun a => (a.value, a.flags)) =
      (us.filterMap (PointUpdate.analogAt i)).map fun a => (a.value, toFlagBits a.quality) := by
  rw [visitAll_analogView m.start_outstation, View.foldl_applied]
  rfl

end OutstationManager

end Dnp3Bridge.Outstation
