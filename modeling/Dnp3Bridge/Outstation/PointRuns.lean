import Dnp3Bridge.Outstation.Database
import Dnp3Bridge.Sequences.Delimited
import Mathlib.Data.List.Chain

/-!
# The logged point runs

The summary of the database in the log. Consecutive points with one description are logged together,
as a run from a first to a last index.
-/

namespace Dnp3Bridge.Outstation
open Sequences

/-- The entries of a map, in the order of their indices. -/
def PointMap.entries {C} (points : PointMap C) : List (UInt16 × C) :=
  (indices 0 65535).filterMap fun i => (points i).map (i, ·)

/-- A run of points with one description. -/
structure PointRun where
  start : UInt16
  stop : UInt16
  desc : String
  deriving DecidableEq

/-- What is logged of a run. -/
def PointRun.line (label : String) (r : PointRun) : String :=
  if r.start = r.stop then "  " ++ label ++ "[" ++ toString r.start ++ "] " ++ r.desc
  else "  " ++ label ++ "[" ++ toString r.start ++ ".." ++ toString r.stop ++ "] " ++ r.desc

/-- The cursors of `logPointRuns`, with the runs that have been flushed. -/
structure Cursors where
  runStart : UInt16
  prev : UInt16
  desc : String
  flushed : List PointRun := []

def Cursors.flush (s : Cursors) : Cursors :=
  { s with flushed := s.flushed ++ [⟨s.runStart, s.prev, s.desc⟩] }

/-- One round of the loop; the successor of `prev` is taken in a wider type. -/
def Cursors.round (s : Cursors) (index : UInt16) (nextDesc : String) : Cursors :=
  let s :=
    if index.toNat ≠ s.prev.toNat + 1 ∨ nextDesc ≠ s.desc then
      { s.flush with runStart := index, desc := nextDesc }
    else s
  { s with prev := index }

/-- The runs that `logPointRuns` flushes. -/
def pointRuns {C} (describe : C → String) : List (UInt16 × C) → List PointRun
  | [] => []
  | (i, pt) :: rest =>
    let first : Cursors := { runStart := i, prev := i, desc := describe pt }
    (rest.foldl (fun s p => s.round p.1 (describe p.2)) first).flush.flushed

/-- The lines that `logPointRuns` logs. -/
def logPointRuns {C} (label : String) (points : PointMap C) (describe : C → String) : List String :=
  (pointRuns describe points.entries).map (PointRun.line label)

/-- The texts that opendnp3 has for its enumerations, and the format of a deadband. -/
structure Texts where
  className : PointClass → String
  deadband : Double → String
  staticAnalog : StaticAnalogVariation → String
  eventAnalog : EventAnalogVariation → String
  staticAnalogOutputStatus : StaticAnalogOutputStatusVariation → String
  eventAnalogOutputStatus : EventAnalogOutputStatusVariation → String

def Texts.binaryDesc (t : Texts) (pt : BinaryConfig) : String :=
  "class=" ++ t.className pt.clazz

def Texts.analogDesc {S V} (t : Texts) (varName : S → String) (varName' : V → String)
    (pt : AnalogConfig S V) : String :=
  "class=" ++ t.className pt.clazz ++ " deadband=" ++ t.deadband pt.deadband ++ " static=" ++
    varName pt.svariation ++ " event=" ++ varName' pt.evariation

/-- The first line of the summary. -/
def summaryCounts (db : DatabaseConfig) : String :=
  let count {C} (points : PointMap C) : String := toString points.entries.length
  "DNP3 database: " ++ count db.binaryInput ++ " BI, " ++ count db.binaryOutputStatus ++
    " BO status, " ++ count db.analogInput ++ " AI, " ++ count db.analogOutputStatus ++ " AO status"

/-- The lines that `logDatabaseSummary` logs. -/
def logDatabaseSummary (t : Texts) (db : DatabaseConfig) : List String :=
  [summaryCounts db] ++
  logPointRuns "BI" db.binaryInput t.binaryDesc ++
  logPointRuns "BO" db.binaryOutputStatus t.binaryDesc ++
  logPointRuns "AI" db.analogInput (t.analogDesc t.staticAnalog t.eventAnalog) ++
  logPointRuns "AO" db.analogOutputStatus
    (t.analogDesc t.staticAnalogOutputStatus t.eventAnalogOutputStatus)

/-- The points of a run, each with the description of the run. -/
def PointRun.expand (r : PointRun) : List (UInt16 × String) :=
  (indices r.start r.stop).map (·, r.desc)

/-- The second run could not be logged as a part of the first. -/
def Separate (r r' : PointRun) : Prop :=
  r'.start.toNat = r.stop.toNat + 1 → r'.desc ≠ r.desc

/-- With the run that is open, the flushed runs expand to the entries seen so far; no two successive
runs could be one. -/
structure Cursors.Describes (s : Cursors) (seen : List (UInt16 × String)) : Prop where
  ordered : ∀ r ∈ s.flush.flushed, r.start ≤ r.stop
  expands : s.flush.flushed.flatMap PointRun.expand = seen
  maximal : s.flush.flushed.IsChain Separate

/-- With the first entry a run is opened. -/
lemma Cursors.Describes.init (i : UInt16) (desc : String) :
    Cursors.Describes { runStart := i, prev := i, desc } [(i, desc)] := by
  refine ⟨?_, ?_, .singleton _⟩
  · intro r mem
    obtain rfl := List.mem_singleton.mp mem
    exact UInt16.le_refl i
  · simp [flush, PointRun.expand, indices_self]

/-- A chain that one more member is added to. -/
lemma isChain_concat {α} {R : α → α → Prop} {l : List α} {a : α} :
    (l ++ [a]).IsChain R ↔ l.IsChain R ∧ ∀ b ∈ l.getLast?, R b a := by
  rw [List.isChain_append]
  simp

/-- What a round of the loop preserves. -/
lemma Cursors.Describes.round {s : Cursors} {seen} (h : s.Describes seen) (i : UInt16)
    (desc : String) : (s.round i desc).Describes (seen ++ [(i, desc)]) := by
  obtain ⟨ordered, rfl, maximal⟩ := h
  have last : s.runStart ≤ s.prev := ordered ⟨s.runStart, s.prev, s.desc⟩ List.mem_concat_self
  by_cases new : i.toNat ≠ s.prev.toNat + 1 ∨ desc ≠ s.desc
  · -- the run is flushed, and the next one begins
    have e : s.round i desc = ⟨i, i, desc, s.flush.flushed⟩ := by
      rw [Cursors.round, if_pos new]
    rw [e]
    refine ⟨?_, ?_, isChain_concat.mpr ⟨maximal, ?_⟩⟩
    · intro r mem
      rcases List.mem_append.mp mem with mem | mem
      · exact ordered r mem
      · obtain rfl := List.mem_singleton.mp mem
        exact UInt16.le_refl i
    · simp [flush, PointRun.expand, indices_self]
    · intro r mem next
      rw [flush, List.getLast?_concat] at mem
      cases mem
      exact new.resolve_left (not_not.mpr next)
  · -- the run goes on
    obtain ⟨next, rfl⟩ := not_or.mp new |>.imp not_not.mp not_not.mp
    have e : s.round i s.desc = { s with prev := i } := by
      rw [Cursors.round, if_neg new]
    rw [e]
    refine ⟨?_, ?_, ?_⟩
    · intro r mem
      rcases List.mem_append.mp mem with mem | mem
      · exact ordered r (List.mem_append_left _ mem)
      · obtain rfl := List.mem_singleton.mp mem
        have := UInt16.le_iff_toNat_le.mp last
        exact UInt16.le_iff_toNat_le.mpr (by show s.runStart.toNat ≤ i.toNat; omega)
    · simp [flush, PointRun.expand, indices_concat last next]
    · obtain ⟨before, apart⟩ := isChain_concat.mp maximal
      exact isChain_concat.mpr ⟨before, apart⟩

/-- What the loop preserves. -/
lemma Cursors.Describes.foldl {C} {s : Cursors} {seen} (h : s.Describes seen) (describe : C → String)
    (rest : List (UInt16 × C)) :
    (rest.foldl (fun s p => s.round p.1 (describe p.2)) s).Describes
      (seen ++ rest.map fun p => (p.1, describe p.2)) := by
  induction rest generalizing s seen with
  | nil =>
    rw [List.map_nil, List.append_nil]
    exact h
  | cons p rest ih =>
    have all := ih (h.round p.1 (describe p.2))
    rw [List.append_assoc] at all
    exact all

/-- The runs of a list of entries, whatever its keys. -/
lemma pointRuns_describes {C} (describe : C → String) (entries : List (UInt16 × C)) :
    (pointRuns describe entries).flatMap PointRun.expand =
        entries.map (fun p => (p.1, describe p.2)) ∧
      (∀ r ∈ pointRuns describe entries, r.start ≤ r.stop) ∧
      (pointRuns describe entries).IsChain Separate := by
  cases entries with
  | nil => exact ⟨rfl, fun r mem => absurd mem List.not_mem_nil, .nil⟩
  | cons p rest =>
    obtain ⟨ordered, expands, maximal⟩ :=
      (Cursors.Describes.init p.1 (describe p.2)).foldl describe rest
    exact ⟨expands, ordered, maximal⟩

/-- The entries of a map are its points. -/
lemma mem_entries {C} {points : PointMap C} {i c} : (i, c) ∈ points.entries ↔ points i = some c := by
  have all : ∀ j : UInt16, j ∈ indices 0 65535 := by
    intro j
    have := j.toNat_lt
    exact mem_indices.mpr ⟨UInt16.zero_le, UInt16.le_iff_toNat_le.mpr (by show j.toNat ≤ 65535; omega)⟩
  rw [PointMap.entries, List.mem_filterMap]
  constructor
  · intro h
    obtain ⟨j, -, e⟩ := h
    obtain ⟨c', found, e⟩ := Option.map_eq_some_iff.mp e
    cases e
    exact found
  · intro found
    exact ⟨i, all i, by rw [found]; rfl⟩

/-- The entries come in the order of their indices. -/
lemma entries_increasing {C} (points : PointMap C) :
    (points.entries.map Prod.fst).Pairwise (· < ·) := by
  rw [PointMap.entries, List.pairwise_map, List.pairwise_filterMap]
  refine (pairwise_indices 0 65535).imp fun {i j} lt p hp q hq => ?_
  obtain ⟨_, -, rfl⟩ := Option.map_eq_some_iff.mp hp
  obtain ⟨_, -, rfl⟩ := Option.map_eq_some_iff.mp hq
  exact lt

/-- The runs say what the map has, each point once and in order, and as few runs as there can be. -/
structure ExactRuns {C} (points : PointMap C) (describe : C → String) (runs : List PointRun) :
    Prop where
  expands : runs.flatMap PointRun.expand = points.entries.map fun p => (p.1, describe p.2)
  points : ∀ i desc, (i, desc) ∈ runs.flatMap PointRun.expand ↔ (points i).map describe = some desc
  once : ((runs.flatMap PointRun.expand).map Prod.fst).Pairwise (· < ·)
  ordered : ∀ r ∈ runs, r.start ≤ r.stop
  maximal : runs.IsChain Separate

/-- The runs describe the map exactly. -/
lemma exactRuns_pointRuns {C} (points : PointMap C) (describe : C → String) :
    ExactRuns points describe (pointRuns describe points.entries) := by
  have expands : (pointRuns describe points.entries).flatMap PointRun.expand =
      points.entries.map fun p => (p.1, describe p.2) := (pointRuns_describes describe _).1
  have keys : (points.entries.map fun p => (p.1, describe p.2)).map Prod.fst =
      points.entries.map Prod.fst := by
    rw [List.map_map]
    rfl
  obtain ⟨-, ordered, maximal⟩ := pointRuns_describes describe points.entries
  refine ⟨expands, fun i desc => ?_, ?_, ordered, maximal⟩
  · rw [expands, List.mem_map, Option.map_eq_some_iff]
    constructor
    · intro h
      obtain ⟨p, mem, e⟩ := h
      cases e
      exact ⟨p.2, mem_entries.mp mem, rfl⟩
    · intro h
      obtain ⟨pt, found, rfl⟩ := h
      exact ⟨(i, pt), mem_entries.mpr found, rfl⟩
  · rw [expands, keys]
    exact entries_increasing points

/-- A line, character by character: the label, the first index, and what follows the brackets or goes on
with the last index. -/
lemma PointRun.line_toList (label : String) (r : PointRun) :
    (r.line label).toList = ("  " ++ label).toList ++ '[' :: (Nat.toDigits 10 r.start.toNat ++
      if r.start = r.stop then ']' :: ' ' :: r.desc.toList
      else '.' :: '.' :: (Nat.toDigits 10 r.stop.toNat ++ ']' :: ' ' :: r.desc.toList)) := by
  have number : ∀ i : UInt16, (toString i).toList = Nat.toDigits 10 i.toNat :=
    fun i => Nat.toList_repr
  have bracket : "[".toList = ['['] := rfl
  have bracket' : "] ".toList = [']', ' '] := rfl
  have dots : "..".toList = ['.', '.'] := rfl
  have text : r.line label = if r.start = r.stop then "  " ++ label ++ "[" ++ toString r.start ++
      "] " ++ r.desc else "  " ++ label ++ "[" ++ toString r.start ++ ".." ++ toString r.stop ++
      "] " ++ r.desc := rfl
  rw [text]
  split <;> simp only [String.toList_append, number, bracket, bracket', dots, List.append_assoc,
    List.cons_append, List.nil_append]

/-- Two numbers, each followed by something that is not a digit. -/
lemma index_inj {i j : UInt16} {m m' : List Char} {a b : Char} (ends : ¬ a.isDigit = true)
    (ends' : ¬ b.isDigit = true)
    (e : Nat.toDigits 10 i.toNat ++ a :: m = Nat.toDigits 10 j.toNat ++ b :: m') :
    i = j ∧ a = b ∧ m = m' := by
  obtain ⟨digits, rest⟩ := field_inj (p := fun c => c.isDigit = true)
    (fun _ => isDigit_of_mem_digits) (fun _ => isDigit_of_mem_digits) ends ends' e
  exact ⟨UInt16.toNat_inj.mp (digits_inj digits), rest⟩

/-- A line determines the run. -/
lemma PointRun.line_injective {label : String} {r r' : PointRun}
    (same : r.line label = r'.line label) : r = r' := by
  have text := congrArg String.toList same
  rw [line_toList, line_toList] at text
  obtain ⟨start, stop, desc⟩ := r
  obtain ⟨start', stop', desc'⟩ := r'
  have text := (List.cons.inj (List.append_cancel_left text)).2
  by_cases one : start = stop <;> by_cases one' : start' = stop'
  · subst one one'
    rw [if_pos rfl, if_pos rfl] at text
    obtain ⟨rfl, -, rest⟩ := index_inj (by decide) (by decide) text
    obtain rfl := String.toList_inj.mp (List.cons.inj rest).2
    rfl
  · -- only one of the lines goes on with a last index
    rw [if_pos one, if_neg one'] at text
    obtain ⟨-, differ, -⟩ := index_inj (by decide) (by decide) text
    exact absurd differ (by decide)
  · rw [if_neg one, if_pos one'] at text
    obtain ⟨-, differ, -⟩ := index_inj (by decide) (by decide) text
    exact absurd differ (by decide)
  · rw [if_neg one, if_neg one'] at text
    obtain ⟨rfl, -, rest⟩ := index_inj (by decide) (by decide) text
    obtain ⟨rfl, -, rest⟩ := index_inj (by decide) (by decide) (List.cons.inj rest).2
    obtain rfl := String.toList_inj.mp (List.cons.inj rest).2
    rfl

/-- The lines of `logPointRuns` are those of runs that describe the map exactly, and each of them
determines its run. -/
theorem logPointRuns_exact {C} (label : String) (points : PointMap C) (describe : C → String) :
    (∃ runs, ExactRuns points describe runs ∧
        logPointRuns label points describe = runs.map (PointRun.line label)) ∧
      ∀ r r' : PointRun, r.line label = r'.line label → r = r' :=
  ⟨⟨_, exactRuns_pointRuns points describe, rfl⟩, fun _ _ => PointRun.line_injective⟩

/-- The summary has the number of points of each type, and the runs of each type describe its points
exactly. -/
theorem logDatabaseSummary_exact (t : Texts) (db : DatabaseConfig) :
    ∃ bi bo ai ao, logDatabaseSummary t db = summaryCounts db ::
        (bi.map (PointRun.line "BI") ++ bo.map (PointRun.line "BO") ++
          ai.map (PointRun.line "AI") ++ ao.map (PointRun.line "AO")) ∧
      ExactRuns db.binaryInput t.binaryDesc bi ∧ ExactRuns db.binaryOutputStatus t.binaryDesc bo ∧
      ExactRuns db.analogInput (t.analogDesc t.staticAnalog t.eventAnalog) ai ∧
      ExactRuns db.analogOutputStatus
        (t.analogDesc t.staticAnalogOutputStatus t.eventAnalogOutputStatus) ao :=
  ⟨_, _, _, _, rfl, exactRuns_pointRuns _ _, exactRuns_pointRuns _ _, exactRuns_pointRuns _ _,
    exactRuns_pointRuns _ _⟩

end Dnp3Bridge.Outstation
