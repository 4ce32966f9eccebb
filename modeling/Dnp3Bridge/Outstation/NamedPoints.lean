import Dnp3Bridge.Outstation.Overlay
import Dnp3Bridge.Outstation.QualityChange
import Mathlib.Algebra.Order.Ring.Rat

/-!
# The points that the file names

An entry of the point database names its points by an index or by a range. The loader converts numbers
and booleans to 16 bits, reads the first two elements of a range, prefers the range to the index, and
takes an entry without either for one about point 0; the validation sees the converted numbers only.
-/

namespace Dnp3Bridge.Outstation
open Config Json Errors

def numberOf : Json → Option ℚ
  | .integer n => some n
  | .float x => some x
  | _ => none

/-- The number of an entry that says `"index": n`. -/
def saidIndex (entry : Json) : Option ℚ :=
  (entry.find "index").bind numberOf

/-- The numbers of an entry that says `"range": [a, b]`. -/
def saidRange (entry : Json) : Option (ℚ × ℚ) :=
  match entry.find "range" with
  | some (.array [u, v]) => (numberOf u).bind fun a => (numberOf v).map fun b => (a, b)
  | _ => none

/-- The entry names the point `n`. -/
def Names (entry : Json) (n : Int) : Prop :=
  saidIndex entry = some (n : ℚ) ∨ ∃ r, saidRange entry = some r ∧ r.1 ≤ n ∧ n ≤ r.2

/-- The number is an index. -/
def IsIndex (x : ℚ) : Prop :=
  ∃ i : UInt16, x = i.toNat

/-- The entries name points, by numbers that are indices, and the section has exactly these points. -/
structure PointsNamed {C} (entries : List Json) (map : PointMap C) : Prop where
  named : ∀ entry ∈ entries, ∃ n, Names entry n
  index : ∀ entry ∈ entries, ∀ x, saidIndex entry = some x → IsIndex x
  range : ∀ entry ∈ entries, ∀ r, saidRange entry = some r → IsIndex r.1 ∧ IsIndex r.2
  points : ∀ n : Int, (∃ i : UInt16, map i ≠ none ∧ (i.toNat : Int) = n) ↔
    ∃ entry ∈ entries, Names entry n

/-- With its numbers cast to 16 bits the entry is about the point `n`: by its range, else by its index,
else because it has neither and `n` is 0. -/
inductive Follows (entry : Json) (n : Int) : Prop where
  | range {u v rest i j} :
    entry.find "range" = some (.array (u :: v :: rest)) →
    getUInt16 u = .ok i →
    getUInt16 v = .ok j →
    (i.toNat : Int) ≤ n →
    n ≤ j.toNat →
    Follows entry n
  | index {v i} :
    entry.find "range" = none →
    entry.find "index" = some v →
    getUInt16 v = .ok i →
    n = i.toNat →
    Follows entry n
  | neither :
    entry.find "range" = none →
    entry.find "index" = none →
    n = 0 →
    Follows entry n

/-- The entry says one thing: an index, or a range of two indices. -/
inductive Plain (entry : Json) : Prop where
  | index {x} :
    entry.find "range" = none →
    saidIndex entry = some x →
    IsIndex x →
    Plain entry
  | range {r} :
    saidRange entry = some r →
    IsIndex r.1 →
    IsIndex r.2 →
    saidIndex entry = none →
    Plain entry

/-- The entry has an index beside a range, and the section as a whole does not suffer from it. -/
structure Harmless (entries : List Json) (entry : Json) : Prop where
  both : entry.find "range" ≠ none
  index : ∃ i : UInt16, saidIndex entry = some (i.toNat : ℚ) ∧ ∃ e ∈ entries, Follows e i.toNat
  range : ∀ r, saidRange entry = some r → IsIndex r.1 ∧ IsIndex r.2
  named : ∀ n, Follows entry n → ∃ e ∈ entries, Names e n

/-- A number that is an index is converted to this index. -/
lemma getUInt16_index {v : Json} {i : UInt16} (h : numberOf v = some (i.toNat : ℚ)) :
    getUInt16 v = .ok i := by
  have back : UInt16.ofInt (i.toNat : Int) = i := by
    have lt := i.toNat_lt
    have small : ((i.toNat : Int) % 65536).toNat = i.toNat := by omega
    show UInt16.ofNat ((i.toNat : Int) % 65536).toNat = i
    rw [small, UInt16.ofNat_toNat]
  cases v with
  | integer n =>
    have e : n = i.toNat := by
      have := Option.some.inj h
      exact_mod_cast this
    rw [e, getUInt16, getInt, back]
  | float x =>
    obtain rfl : x = (i.toNat : ℚ) := Option.some.inj h
    have e : truncate (i.toNat : ℚ) = (i.toNat : Int) := by
      simp [truncate]
    rw [getUInt16, getInt, e, back]
  | _ => cases h

/-- A range is read by its first two elements. -/
lemma parseRange_range {entry u v : Json} {rest i j}
    (found : entry.find "range" = some (.array (u :: v :: rest))) (hu : getUInt16 u = .ok i)
    (hv : getUInt16 v = .ok j) : parseRange entry = .ok (i, j) := by
  rw [parseRange, found]
  show (do let start ← getUInt16 u; let stop ← getUInt16 v; return (start, stop)) = _
  rw [hu, hv]
  rfl

/-- Without a range the index is read, as a range of one point. -/
lemma parseRange_index {entry v : Json} {i} (absent : entry.find "range" = none)
    (found : entry.find "index" = some v) (hv : getUInt16 v = .ok i) :
    parseRange entry = .ok (i, i) := by
  rw [parseRange, absent, found]
  show (do let start ← getUInt16 v; return (start, start)) = _
  rw [hv]
  rfl

/-- A range of two indices is followed. -/
lemma follows_of_range {entry : Json} {i j : UInt16}
    (said : saidRange entry = some ((i.toNat : ℚ), (j.toNat : ℚ))) :
    parseRange entry = .ok (i, j) := by
  rw [saidRange] at said
  split at said
  case h_1 u v found =>
    obtain ⟨a, ha, said⟩ := Option.bind_eq_some_iff.mp said
    obtain ⟨b, hb, e⟩ := Option.map_eq_some_iff.mp said
    cases e
    exact parseRange_range found (getUInt16_index ha) (getUInt16_index hb)
  case h_2 => cases said

/-- Without a range the index is followed. -/
lemma follows_of_index {entry : Json} {i : UInt16} (absent : entry.find "range" = none)
    (said : saidIndex entry = some (i.toNat : ℚ)) : parseRange entry = .ok (i, i) := by
  obtain ⟨v, found, number⟩ := Option.bind_eq_some_iff.mp said
  exact parseRange_index absent found (getUInt16_index number)

/-- An entry that is followed is read. -/
lemma Follows.parsed {entry : Json} {n : Int} (follows : Follows entry n) :
    ∃ i j, parseRange entry = .ok (i, j) ∧ (i.toNat : Int) ≤ n ∧ n ≤ j.toNat := by
  cases follows with
  | range found hu hv lo hi => exact ⟨_, _, parseRange_range found hu hv, lo, hi⟩
  | index absent found hv e => exact ⟨_, _, parseRange_index absent found hv, e.ge, e.le⟩
  | neither absent absent' e =>
    refine ⟨0, 0, ?_, e.ge, e.le⟩
    rw [parseRange, absent, absent']
    rfl

/-- The loader reads an entry as one about the points that it is about after the cast. -/
lemma follows_iff {entry : Json} {i j : UInt16} (parsed : parseRange entry = .ok (i, j)) (n : Int) :
    Follows entry n ↔ (i.toNat : Int) ≤ n ∧ n ≤ j.toNat := by
  constructor
  · intro follows
    obtain ⟨i', j', parsed', bounds⟩ := follows.parsed
    cases parsed.symm.trans parsed'
    exact bounds
  · intro h
    obtain ⟨lo, hi⟩ := h
    rw [parseRange] at parsed
    split at parsed
    case h_1 range found =>
      obtain ⟨u, v, rest, rfl, hu, hv⟩ := subscripts_ok parsed
      exact .range found hu hv lo hi
    case h_2 absent =>
      split at parsed
      case h_1 v found =>
        obtain ⟨k, hv, parsed⟩ := bind_ok parsed
        cases parsed
        exact .index absent found hv (le_antisymm hi lo)
      case h_2 absent' =>
        cases parsed
        exact .neither absent absent' (le_antisymm hi lo)

/-- The range that an entry says is the one that is followed. -/
lemma follows_range {entry : Json} {r} (said : saidRange entry = some r) (ha : IsIndex r.1)
    (hb : IsIndex r.2) (n : Int) : Follows entry n ↔ r.1 ≤ n ∧ n ≤ r.2 := by
  obtain ⟨a, b⟩ := r
  obtain ⟨i, rfl⟩ := ha
  obtain ⟨j, rfl⟩ := hb
  rw [follows_iff (follows_of_range said)]
  show _ ↔ (i.toNat : ℚ) ≤ n ∧ (n : ℚ) ≤ j.toNat
  constructor <;> rintro ⟨lo, hi⟩ <;> exact ⟨by exact_mod_cast lo, by exact_mod_cast hi⟩

/-- An entry that says one thing names the points that it is read as being about. -/
lemma Plain.follows_iff_names {entry : Json} (plain : Plain entry) (n : Int) :
    Follows entry n ↔ Names entry n := by
  cases plain with
  | @index x absent said isIndex =>
    obtain ⟨i, rfl⟩ := isIndex
    have noRange : saidRange entry = none := by rw [saidRange, absent]
    rw [follows_iff (follows_of_index absent said), Names, said, noRange]
    constructor
    · intro h
      obtain ⟨lo, hi⟩ := h
      obtain rfl := le_antisymm lo hi
      exact .inl (by norm_cast)
    · rintro (e | ⟨r, e, -⟩)
      · have e : (i.toNat : Int) = n := by exact_mod_cast Option.some.inj e
        exact ⟨e.le, e.ge⟩
      · cases e
  | @range r said ha hb noIndex =>
    rw [follows_range said ha hb, Names, noIndex, said]
    constructor
    · intro bounds
      exact .inr ⟨r, rfl, bounds⟩
    · rintro (e | ⟨r, e, bounds⟩)
      · cases e
      · cases e
        exact bounds

/-- The number that a plain entry gives as its index is one. -/
lemma Plain.index_of_said {entry : Json} (plain : Plain entry) {x} (said : saidIndex entry = some x) :
    IsIndex x := by
  cases plain with
  | index _ said' isIndex =>
    cases said.symm.trans said'
    exact isIndex
  | range _ _ _ noIndex => cases said.symm.trans noIndex

/-- The numbers that a plain entry gives as its range are indices. -/
lemma Plain.range_of_said {entry : Json} (plain : Plain entry) {r} (said : saidRange entry = some r) :
    IsIndex r.1 ∧ IsIndex r.2 := by
  cases plain with
  | index absent _ _ =>
    rw [saidRange, absent] at said
    cases said
  | range said' ha hb _ =>
    cases said.symm.trans said'
    exact ⟨ha, hb⟩

/-- The section has the points that its entries are read as being about. -/
lemma configured_iff {C} (fresh : C) (set : PointConfig → C → C) {entries : List Json} {pcs}
    (parsed : entries.mapM parsePointConfig = .ok pcs) (n : Int) :
    (∃ i : UInt16, configureSection fresh set pcs i ≠ none ∧ (i.toNat : Int) = n) ↔
      ∃ entry ∈ entries, Follows entry n := by
  simp only [configureSection_present]
  constructor
  · intro h
    obtain ⟨i, ⟨pc, mem, lo, hi⟩, rfl⟩ := h
    obtain ⟨entry, mem, e⟩ := exists_of_mapM_ok parsed mem
    refine ⟨entry, mem, (follows_iff (parsePointConfig_range e) _).mpr ?_⟩
    exact ⟨Int.ofNat_le.mpr (UInt16.le_iff_toNat_le.mp lo),
      Int.ofNat_le.mpr (UInt16.le_iff_toNat_le.mp hi)⟩
  · intro h
    obtain ⟨entry, mem, follows⟩ := h
    obtain ⟨pc, mem, e⟩ := exists_mem_of_mapM_ok parsed mem
    obtain ⟨lo, hi⟩ := (follows_iff (parsePointConfig_range e) n).mp follows
    have lt := pc.stop.toNat_lt
    have back : (UInt16.ofNat n.toNat).toNat = n.toNat :=
      UInt16.toNat_ofNat_of_lt' (by show n.toNat < 65536; omega)
    refine ⟨.ofNat n.toNat, ⟨pc, mem, ?_, ?_⟩, by omega⟩
    · rw [UInt16.le_iff_toNat_le]
      omega
    · rw [UInt16.le_iff_toNat_le]
      omega

/-- In a section with the points that its entries name an entry is plain, or has both keys without
harm. -/
lemma PointsNamed.plain_or_harmless {C} {entries : List Json} {map : PointMap C}
    (configured : ∀ n : Int, (∃ i : UInt16, map i ≠ none ∧ (i.toNat : Int) = n) ↔
      ∃ entry ∈ entries, Follows entry n)
    (h : PointsNamed entries map) {entry} (mem : entry ∈ entries) :
    Plain entry ∨ Harmless entries entry := by
  obtain ⟨named, index, range, points⟩ := h
  obtain ⟨n, names⟩ := named entry mem
  cases found : entry.find "range" with
  | none =>
    -- the entry names its point by the index
    obtain said | ⟨r, said, -⟩ := names
    · exact .inl (.index found said (index entry mem _ said))
    · rw [saidRange, found] at said
      cases said
  | some v =>
    cases said : saidIndex entry with
    | none =>
      obtain said' | ⟨r, said', -⟩ := names
      · cases said.symm.trans said'
      · obtain ⟨ha, hb⟩ := range entry mem r said'
        exact .inl (.range said' ha hb said)
    | some x =>
      -- the range is followed, so another entry is about the point of the index
      obtain ⟨i, rfl⟩ := index entry mem x said
      refine .inr ⟨found ▸ Option.some_ne_none v, ⟨i, said, ?_⟩, range entry mem, ?_⟩
      · have named : Names entry i.toNat := .inl (by rw [said]; norm_cast)
        exact (configured _).mp ((points _).mpr ⟨entry, mem, named⟩)
      · intro n follows
        exact (points n).mp ((configured n).mpr ⟨entry, mem, follows⟩)

/-- Where every entry is plain or harmless, the points that the entries name are those that they are
about. -/
lemma follows_iff_names {entries : List Json}
    (all : ∀ entry ∈ entries, Plain entry ∨ Harmless entries entry) (n : Int) :
    (∃ entry ∈ entries, Follows entry n) ↔ ∃ entry ∈ entries, Names entry n := by
  constructor
  · intro h
    obtain ⟨entry, mem, follows⟩ := h
    obtain plain | harmless := all entry mem
    · exact ⟨entry, mem, (plain.follows_iff_names n).mp follows⟩
    · exact harmless.named n follows
  · intro h
    obtain ⟨entry, mem, names⟩ := h
    obtain plain | harmless := all entry mem
    · exact ⟨entry, mem, (plain.follows_iff_names n).mpr names⟩
    · obtain said | ⟨r, said, bounds⟩ := names
      · obtain ⟨i, said', followed⟩ := harmless.index
        have e : n = i.toNat := by
          have := Option.some.inj (said.symm.trans said')
          exact_mod_cast this
        rw [e]
        exact followed
      · obtain ⟨ha, hb⟩ := harmless.range r said
        exact ⟨entry, mem, (follows_range said ha hb n).mpr bounds⟩

/-- The points of a section are those that its entries name exactly if every entry is plain, or
carries a range and an index of which the section does not suffer. -/
lemma pointsNamed_section {C} (fresh : C) (set : PointConfig → C → C) {entries : List Json} {pcs}
    (parsed : entries.mapM parsePointConfig = .ok pcs)
    (valid : ∀ pc ∈ pcs, pc.start ≤ pc.stop) :
    PointsNamed entries (configureSection fresh set pcs) ↔
      ∀ entry ∈ entries, Plain entry ∨ Harmless entries entry := by
  have configured := configured_iff fresh set parsed
  constructor
  · intro named entry mem
    exact named.plain_or_harmless configured mem
  · intro all
    refine ⟨fun entry mem => ?_, fun entry mem x said => ?_, fun entry mem r said => ?_, fun n => ?_⟩
    · obtain plain | harmless := all entry mem
      · -- the range is not empty, so it is about its first index
        obtain ⟨pc, mem, e⟩ := exists_mem_of_mapM_ok parsed mem
        have le := UInt16.le_iff_toNat_le.mp (valid pc mem)
        have first := (follows_iff (parsePointConfig_range e) pc.start.toNat).mpr (by omega)
        exact ⟨_, (plain.follows_iff_names _).mp first⟩
      · obtain ⟨i, said, -⟩ := harmless.index
        exact ⟨i.toNat, .inl (by rw [said]; norm_cast)⟩
    · obtain plain | harmless := all entry mem
      · exact plain.index_of_said said
      · obtain ⟨i, said', -⟩ := harmless.index
        exact ⟨i, Option.some.inj (said.symm.trans said')⟩
    · obtain plain | harmless := all entry mem
      · exact plain.range_of_said said
      · exact harmless.range r said
    · rw [configured, follows_iff_names all]

/-- The four sections have the points that the document names for them. -/
structure FilePointsNamed (points : Json) (db : DatabaseConfig) : Prop where
  binaryInput : PointsNamed (sectionEntries points "binary_input") db.binaryInput
  binaryOutputStatus :
    PointsNamed (sectionEntries points "binary_output_status") db.binaryOutputStatus
  analogInput : PointsNamed (sectionEntries points "analog_input") db.analogInput
  analogOutputStatus :
    PointsNamed (sectionEntries points "analog_output_status") db.analogOutputStatus

/-- The keys of the sections. -/
def sectionKeys : List String :=
  ["binary_input", "binary_output_status", "analog_input", "analog_output_status"]

/-- The configured points are those that the file names exactly if every entry of every section is
plain, or carries a range and an index of which the section does not suffer. -/
theorem filePointsNamed_iff {h path cfg} (loaded : load h path = .ok (.ok cfg))
    (valid : validatePointDatabase cfg.pointDatabase = .ok ()) (fresh : FreshPoints) :
    FilePointsNamed (pointDatabase (h.document path))
        (configureDatabaseFromConfig fresh cfg.pointDatabase) ↔
      ∀ key ∈ sectionKeys, ∀ entry ∈ sectionEntries (pointDatabase (h.document path)) key,
        Plain entry ∨ Harmless (sectionEntries (pointDatabase (h.document path)) key) entry := by
  obtain ⟨bi, bo, ai, ao⟩ := load_entries loaded
  obtain ⟨vbi, vbo, vai, vao⟩ := (validatePointDatabase_ok_iff _).mp valid
  have inputs := pointsNamed_section fresh.binaryInput (setBinary .class1) bi
    fun pc mem => (vbi pc mem).range
  have outputs := pointsNamed_section fresh.binaryOutputStatus (setBinary .class1) bo
    fun pc mem => (vbo pc mem).range
  have analogs := pointsNamed_section fresh.analogInput
    (setAnalog .class1 .group30Var1 .group32Var1) ai fun pc mem => (vai pc mem).range
  have setpoints := pointsNamed_section fresh.analogOutputStatus
    (setAnalog .class1 .group40Var1 .group42Var1) ao fun pc mem => (vao pc mem).range
  simp only [sectionKeys, List.forall_mem_cons, List.not_mem_nil, false_implies, implies_true,
    and_true]
  rw [← inputs, ← outputs, ← analogs, ← setpoints]
  constructor
  · rintro ⟨bi, bo, ai, ao⟩
    exact ⟨bi, bo, ai, ao⟩
  · rintro ⟨bi, bo, ai, ao⟩
    exact ⟨bi, bo, ai, ao⟩

/-- A file that names the analog inputs 0 to 20 and 30. -/
def plainFile : Host :=
  hostOf "config.json"
    ("\x7b\"point_database\": \x7b\"analog_input\": " ++
      "[\x7b\"range\": [0, 20]\x7d, \x7b\"index\": 30\x7d]\x7d\x7d")
    (.object [("point_database", .object [("analog_input",
      .array [.object [("range", .array [.integer 0, .integer 20])],
        .object [("index", .integer 30)]])])])

def plainConfig : AppConfig where
  pointDatabase := { analogInput := [{ start := 0, stop := 20 }, { start := 30, stop := 30 }] }

/-- A file that names analog input 65541. -/
def farFile : Host :=
  hostOf "config.json"
    "\x7b\"point_database\": \x7b\"analog_input\": [\x7b\"index\": 65541\x7d]\x7d\x7d"
    (.object [("point_database", .object [("analog_input",
      .array [.object [("index", .integer 65541)]])])])

def farConfig : AppConfig where
  pointDatabase := { analogInput := [{ start := 5, stop := 5 }] }

/-- The configured points are those. -/
theorem plainFile_named : FilePointsNamed (pointDatabase (plainFile.document (some "config.json")))
    (configureDatabaseFromConfig .documented plainConfig.pointDatabase) := by
  have loaded : load plainFile (some "config.json") = .ok (.ok plainConfig) := rfl
  refine (filePointsNamed_iff loaded rfl _).mpr ?_
  simp only [sectionKeys, List.forall_mem_cons, List.not_mem_nil, false_implies, implies_true,
    and_true]
  refine ⟨nofun, nofun, ?_, nofun⟩
  intro entry mem
  left
  rcases List.mem_pair.mp mem with rfl | rfl
  · exact .range rfl ⟨0, rfl⟩ ⟨20, rfl⟩ rfl
  · exact .index rfl rfl ⟨30, rfl⟩

/-- The file is accepted, and point 5 is configured instead. -/
theorem farFile_accepted :
    load farFile (some "config.json") = .ok (.ok farConfig) ∧
      validatePointDatabase farConfig.pointDatabase = .ok () ∧
      farConfig.pointDatabase.empty = false ∧
      ((configureDatabaseFromConfig .documented farConfig.pointDatabase).analogInput 5).isSome = true ∧
      ¬ FilePointsNamed (pointDatabase (farFile.document (some "config.json")))
        (configureDatabaseFromConfig .documented farConfig.pointDatabase) := by
  refine ⟨rfl, rfl, rfl, ?_, fun named => ?_⟩
  · show (configureSection _ _ _ 5).isSome = true
    rw [configureSection_eq]
    rfl
  · obtain ⟨i, e⟩ := named.analogInput.index _ List.mem_cons_self 65541 rfl
    have lt := i.toNat_lt
    have e : i.toNat = 65541 := by exact_mod_cast e.symm
    omega

end Dnp3Bridge.Outstation
