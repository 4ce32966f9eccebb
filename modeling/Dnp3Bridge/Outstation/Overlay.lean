import Dnp3Bridge.Outstation.Deadband
import Dnp3Bridge.Outstation.Violations
import Dnp3Bridge.Sequences.LastSet

/-!
# The overlay of the entries

What `configureDatabaseFromConfig` makes of overlapping entries: a point is there if an entry covers
it, and each of its fields has the value that was set last. The deadbands are what `updateAnalog`
decides by.
-/

namespace Dnp3Bridge.Outstation
open Bridge Config Reporting Sequences

/-- The entry is about the point `i`. -/
def Covers (pc : PointConfig) (i : UInt16) : Prop :=
  pc.start ≤ i ∧ i ≤ pc.stop

instance (pc : PointConfig) (i : UInt16) : Decidable (Covers pc i) :=
  inferInstanceAs (Decidable (_ ∧ _))

/-- The entries that are about the point `i`, in the order of the list. -/
def covering (entries : List PointConfig) (i : UInt16) : List PointConfig :=
  entries.filter fun pc => Covers pc i

/-- The value that the last entry about the point `i` gives to a field, or `b` if none sets it. -/
def effective {β} (field : PointConfig → Option β) (b : β) (entries : List PointConfig)
    (i : UInt16) : β :=
  lastSet field b (covering entries i)

/-- The value that a string names. -/
def named (E : Type) [Named E] (s : String) : Option E :=
  (Named.nameMap (E := E)).lookup s

/-- A loop changes every point of its list once. -/
lemma foldl_modify {C} (fresh : C) (set : C → C) {l : List UInt16} (nodup : l.Nodup)
    (map : PointMap C) (i : UInt16) :
    l.foldl (fun map j => PointMap.modify fresh set j map) map i =
      if i ∈ l then some (set ((map i).getD fresh)) else map i := by
  induction l generalizing map with
  | nil => rfl
  | cons j l ih =>
    obtain ⟨new, nodup⟩ := List.nodup_cons.mp nodup
    rw [List.foldl_cons, ih nodup, PointMap.modify]
    rcases eq_or_ne i j with rfl | ne
    · rw [if_neg new, if_pos List.mem_cons_self, Function.update_self]
    · rw [Function.update_of_ne ne]
      simp only [List.mem_cons, ne, false_or]

/-- The last entry of a list comes last, if it is about the point. -/
lemma covering_concat (entries : List PointConfig) (pc : PointConfig) (i : UInt16) :
    covering (entries ++ [pc]) i = covering entries i ++ if Covers pc i then [pc] else [] := by
  rw [covering, List.filter_append, ← covering]
  congr 1
  by_cases h : Covers pc i <;> simp [h]

/-- No entry is about the point. -/
lemma covering_eq_nil {entries : List PointConfig} {i : UInt16} :
    covering entries i = [] ↔ ¬ ∃ pc ∈ entries, Covers pc i := by
  rw [covering, List.filter_eq_nil_iff]
  simp only [decide_eq_true_eq, not_exists, not_and]

/-- A point of a section is made by the entries about it, one after the other. -/
theorem configureSection_eq {C} (fresh : C) (set : PointConfig → C → C)
    (entries : List PointConfig) (i : UInt16) :
    configureSection fresh set entries i =
      if covering entries i = [] then none
      else some ((covering entries i).foldl (fun pt pc => set pc pt) fresh) := by
  rw [configureSection]
  induction entries using List.reverseRecOn with
  | nil => rfl
  | append_singleton entries pc ih =>
    have range : i ∈ indices pc.start pc.stop ↔ Covers pc i := mem_indices
    rw [List.foldl_append, List.foldl_cons, List.foldl_nil, forRange_eq,
      foldl_modify _ _ (nodup_indices ..), ih, covering_concat]
    simp only [range]
    by_cases mem : Covers pc i
    · have new : covering entries i ++ [pc] ≠ [] :=
        List.append_ne_nil_of_right_ne_nil _ (List.cons_ne_nil pc [])
      rw [if_pos mem, if_pos mem, if_neg new, List.foldl_append]
      by_cases none : covering entries i = []
      · rw [if_pos none, none]
        rfl
      · rw [if_neg none]
        rfl
    · rw [if_neg mem, if_neg mem, List.append_nil]

/-- A point is missing if no entry is about it. -/
lemma configureSection_eq_none {C} {fresh : C} {set : PointConfig → C → C}
    {entries : List PointConfig} {i : UInt16} :
    configureSection fresh set entries i = none ↔ covering entries i = [] := by
  rw [configureSection_eq]
  split
  case isTrue none => exact iff_of_true rfl none
  case isFalse some => exact iff_of_false (Option.some_ne_none _) some

/-- A point is there if an entry covers it. -/
lemma configureSection_present {C} (fresh : C) (set : PointConfig → C → C)
    (entries : List PointConfig) (i : UInt16) :
    configureSection fresh set entries i ≠ none ↔ ∃ pc ∈ entries, Covers pc i := by
  rw [Ne, configureSection_eq_none, covering_eq_nil, not_not]

/-- A field of a point that every entry sets or leaves alone. -/
lemma configureSection_field {C β} {fresh : C} {set : PointConfig → C → C} (get : C → β)
    {field : PointConfig → Option β} {entries : List PointConfig}
    (one : ∀ pc ∈ entries, ∀ pt, get (set pc pt) = (field pc).getD (get pt)) {i pt}
    (found : configureSection fresh set entries i = some pt) :
    get pt = effective field (get fresh) entries i := by
  rw [configureSection_eq] at found
  split at found
  case isTrue => cases found
  case isFalse =>
    cases found
    exact foldl_lastSet (fun pc mem => one pc (List.mem_of_mem_filter mem)) fresh

/-- A field that no entry about the point sets keeps the value of a new point. -/
lemma configureSection_unset {C β} {fresh : C} {set : PointConfig → C → C} (get : C → β)
    {field : PointConfig → Option β} {entries : List PointConfig}
    (one : ∀ pc ∈ entries, ∀ pt, get (set pc pt) = (field pc).getD (get pt)) {i pt}
    (found : configureSection fresh set entries i = some pt)
    (unset : ∀ pc ∈ entries, Covers pc i → field pc = none) : get pt = get fresh := by
  rw [configureSection_field get one found]
  refine lastSet_of_none (fun pc mem => ?_) _
  obtain ⟨mem, covers⟩ := List.mem_filter.mp mem
  exact unset pc mem (of_decide_eq_true covers)

/-- A string that sets nothing or names a value. -/
lemma toEnum_eq {E} [Named E] {s : String} (blank : named E "" = none)
    (known : s = "" ∨ Known E s) (fallback old : E) :
    (if s ≠ "" then toEnum s fallback else old) = (named E s).getD old := by
  by_cases empty : s = ""
  · rw [if_neg (not_not.mpr empty), empty, blank, Option.getD_none]
  · obtain ⟨e, found⟩ := Option.isSome_iff_exists.mp (known_iff.mpr (known.resolve_left empty))
    rw [if_pos empty, toEnum, named, found, Option.getD_some, Option.getD_some]

/-- The points of a binary section, where a new point is `fresh`. -/
structure BinaryOverlay (fresh : BinaryConfig) (entries : List PointConfig)
    (map : PointMap BinaryConfig) : Prop where
  present : ∀ i, map i ≠ none ↔ ∃ pc ∈ entries, Covers pc i
  clazz : ∀ {i pt}, map i = some pt → pt.clazz =
    effective (fun pc => named PointClass pc.eventClass) fresh.clazz entries i

/-- The points of an analog section, where a new point is `fresh`. -/
structure AnalogOverlay {S V} [Named S] [Named V] (fresh : AnalogConfig S V)
    (entries : List PointConfig) (map : PointMap (AnalogConfig S V)) : Prop where
  present : ∀ i, map i ≠ none ↔ ∃ pc ∈ entries, Covers pc i
  clazz : ∀ {i pt}, map i = some pt → pt.clazz =
    effective (fun pc => named PointClass pc.eventClass) fresh.clazz entries i
  deadband : ∀ {i pt}, map i = some pt → pt.deadband =
    effective PointConfig.deadband fresh.deadband entries i
  svariation : ∀ {i pt}, map i = some pt → pt.svariation =
    effective (fun pc => named S pc.staticVariation) fresh.svariation entries i
  evariation : ∀ {i pt}, map i = some pt → pt.evariation =
    effective (fun pc => named V pc.eventVariation) fresh.evariation entries i

/-- The entries of a valid binary section overlay each other, whatever the fallback. -/
lemma binaryOverlay_of_valid (clazz : PointClass) (fresh : BinaryConfig) {entries : List PointConfig}
    (valid : ∀ pc ∈ entries, ValidBinary pc) :
    BinaryOverlay fresh entries (configureSection fresh (setBinary clazz) entries) := by
  refine ⟨configureSection_present _ _ _, fun found => ?_⟩
  exact configureSection_field BinaryConfig.clazz
    (fun pc mem _ => toEnum_eq rfl (valid pc mem).clazz _ _) found

/-- The entries of a valid analog section overlay each other, whatever the fallbacks. -/
lemma analogOverlay_of_valid {S V} [Named S] [Named V] (noStatic : named S "" = none)
    (noEvent : named V "" = none) (clazz : PointClass) (svariation : S) (evariation : V)
    (fresh : AnalogConfig S V) {entries : List PointConfig}
    (valid : ∀ pc ∈ entries, ValidAnalog S V pc) :
    AnalogOverlay fresh entries
      (configureSection fresh (setAnalog clazz svariation evariation) entries) := by
  refine ⟨configureSection_present _ _ _, fun found => ?_, fun found => ?_, fun found => ?_,
    fun found => ?_⟩
  · exact configureSection_field AnalogConfig.clazz
      (fun pc mem _ => toEnum_eq rfl (valid pc mem).clazz _ _) found
  · exact configureSection_field AnalogConfig.deadband (fun _ _ _ => rfl) found
  · exact configureSection_field AnalogConfig.svariation
      (fun pc mem _ => toEnum_eq noStatic (valid pc mem).static _ _) found
  · exact configureSection_field AnalogConfig.evariation
      (fun pc mem _ => toEnum_eq noEvent (valid pc mem).event _ _) found

/-- The points of the four sections of a database, where new points are `fresh`. -/
structure DatabaseOverlay (fresh : FreshPoints) (points : PointDatabaseConfig)
    (db : DatabaseConfig) : Prop where
  binaryInput : BinaryOverlay fresh.binaryInput points.binaryInput db.binaryInput
  binaryOutputStatus :
    BinaryOverlay fresh.binaryOutputStatus points.binaryOutputStatus db.binaryOutputStatus
  analogInput : AnalogOverlay fresh.analogInput points.analogInput db.analogInput
  analogOutputStatus :
    AnalogOverlay fresh.analogOutputStatus points.analogOutputStatus db.analogOutputStatus

/-- The database built from valid entries is their overlay, whatever the fallbacks. -/
lemma databaseOverlay_of_valid (fallbacks : Fallbacks) (fresh : FreshPoints)
    {points : PointDatabaseConfig} (valid : ValidDatabase points) :
    DatabaseOverlay fresh points (configureDatabaseWith fallbacks fresh points) := by
  obtain ⟨bi, bo, ai, ao⟩ := valid
  refine ⟨?_, ?_, ?_, ?_⟩
  · exact binaryOverlay_of_valid _ _ bi
  · exact binaryOverlay_of_valid _ _ bo
  · exact analogOverlay_of_valid rfl rfl _ _ _ _ ai
  · exact analogOverlay_of_valid rfl rfl _ _ _ _ ao

/-- The sections of a database do not depend on each other. -/
structure SectionsApart (fresh : FreshPoints) (db : PointDatabaseConfig) : Prop where
  binaryInput : ∀ {db'}, db'.binaryInput = db.binaryInput →
    (configureDatabaseFromConfig fresh db').binaryInput =
      (configureDatabaseFromConfig fresh db).binaryInput
  binaryOutputStatus : ∀ {db'}, db'.binaryOutputStatus = db.binaryOutputStatus →
    (configureDatabaseFromConfig fresh db').binaryOutputStatus =
      (configureDatabaseFromConfig fresh db).binaryOutputStatus
  analogInput : ∀ {db'}, db'.analogInput = db.analogInput →
    (configureDatabaseFromConfig fresh db').analogInput =
      (configureDatabaseFromConfig fresh db).analogInput
  analogOutputStatus : ∀ {db'}, db'.analogOutputStatus = db.analogOutputStatus →
    (configureDatabaseFromConfig fresh db').analogOutputStatus =
      (configureDatabaseFromConfig fresh db).analogOutputStatus

/-- Each section is built from its own entries. -/
lemma sectionsApart (fresh : FreshPoints) (db : PointDatabaseConfig) : SectionsApart fresh db := by
  refine ⟨fun e => ?_, fun e => ?_, fun e => ?_, fun e => ?_⟩
  · exact congrArg (configureSection _ _) e
  · exact congrArg (configureSection _ _) e
  · exact congrArg (configureSection _ _) e
  · exact congrArg (configureSection _ _) e

/-- The deadband that the entries give to an analog input: the one set last, or else that of a new
point; and 0 if no entry is about the point. -/
def overlaidDeadband (fresh : FreshPoints) (entries : List PointConfig) (i : UInt16) : Double :=
  if ∃ pc ∈ entries, Covers pc i then
    effective PointConfig.deadband fresh.analogInput.deadband entries i
  else .finite 0

/-- The deadband in force is that of the entries; the built-in points have none, as new points have. -/
lemma effectiveDeadband_eq {fresh : FreshPoints} {cfg : AppConfig}
    (builtIn : cfg.pointDatabase.empty = true → fresh.NoDeadband) (i : UInt16) :
    effectiveDeadband fresh cfg i = overlaidDeadband fresh cfg.pointDatabase.analogInput i := by
  cases empty : cfg.pointDatabase.empty with
  | true =>
    have noInputs : cfg.pointDatabase.analogInput = [] := by
      simp only [PointDatabaseConfig.empty, Bool.and_eq_true, List.isEmpty_iff] at empty
      exact empty.1.2
    rw [overlaidDeadband, noInputs, if_neg (by simp), effectiveDeadband, database, if_pos empty]
    cases found : (configureDefaultDatabase fresh).analogInput i with
    | none => rfl
    | some pt => exact (configureDefaultDatabase_deadband found).trans (builtIn empty)
  | false =>
    have configured : database fresh cfg = configureDatabaseFromConfig fresh cfg.pointDatabase := by
      rw [database, empty]
      rfl
    rw [effectiveDeadband, configured, overlaidDeadband]
    cases found : (configureDatabaseFromConfig fresh cfg.pointDatabase).analogInput i with
    | none => rw [if_neg (covering_eq_nil.mp (configureSection_eq_none.mp found)), Option.elim_none]
    | some pt =>
      rw [if_pos ((configureSection_present _ _ _ i).mp (found ▸ Option.some_ne_none pt))]
      exact configureSection_field AnalogConfig.deadband (fun _ _ _ => rfl) found

/-- The next update of an analog point is applied with its value and the flags of its quality, and
generates an event exactly if it is the first one, or is not within `d` of the last event. -/
def DecidesBy (d : Double) (m : OutstationManager) (i : UInt16) : Prop :=
  ∀ v q, ∃ mode, ((m.updateAnalog i v q).analogView i).log =
      (m.analogView i).log ++ [⟨v, toFlagBits q, mode⟩] ∧
    (mode = .force ↔ (m.analogView i).log = [] ∨
      ∃ ref, (forced (m.analogView i).log).getLast? = some ref ∧ Far d ref v)

/-- After `start` every update is decided by the effective deadband. -/
lemma decidesBy_effective (m : OutstationManager) (us : List PointUpdate) (i : UInt16) :
    DecidesBy (effectiveDeadband m.fresh m.cfg i) (m.start.visitAll us) i := by
  intro v q
  have on := OutstationManager.visitAll_outstation m.start_outstation us
  have deadband : (m.start.visitAll us).deadband i = effectiveDeadband m.fresh m.cfg i :=
    (m.start.visitAll_deadband us i).trans (m.start_deadband i)
  have next := OutstationManager.visit_analogView on (.analog ⟨i, v, q⟩) i
  rw [PointUpdate.analogAt, if_pos rfl, Option.elim_some, deadband] at next
  obtain ⟨decided, reference⟩ := m.reports_analog us i
  exact ⟨_, congrArg View.log next, View.mode_force_iff _ decided reference v⟩

/-- In the database built from a valid configuration a point is there exactly if an entry covers it,
every field has the value set last or that of a new point, and `updateAnalog` decides by the deadband
set last. -/
theorem overlay_lastSet {db : PointDatabaseConfig} (valid : validatePointDatabase db = .ok ())
    (fresh : FreshPoints) :
    DatabaseOverlay fresh db (configureDatabaseFromConfig fresh db) ∧ SectionsApart fresh db ∧
    ∀ m : OutstationManager, m.fresh = fresh → m.cfg.pointDatabase = db →
      (db.empty = true → fresh.NoDeadband) → ∀ us i,
        DecidesBy (overlaidDeadband fresh db.analogInput i) (m.start.visitAll us) i := by
  refine ⟨?_, sectionsApart fresh db, ?_⟩
  · exact databaseOverlay_of_valid {} fresh ((validatePointDatabase_ok_iff db).mp valid)
  · rintro m rfl rfl builtIn us i
    rw [← effectiveDeadband_eq builtIn]
    exact decidesBy_effective m us i

/-- A later entry for point 5 sets the class only, and two entries reach up to the last index. -/
def overlappingInputs : PointDatabaseConfig where
  analogInput :=
    [{ start := 0, stop := 20, eventClass := "class2", deadband := some (.finite 10) },
      { start := 5, stop := 5, eventClass := "class1" },
      { start := 65534, stop := 65535, deadband := some (.finite 1) },
      { start := 65535, stop := 65535, deadband := some (.finite 0) }]

/-- The deadband of point 5 stays, that of point 65535 is set to 0. -/
theorem overlappingInputs_overlay :
    DatabaseOverlay .documented overlappingInputs
        (configureDatabaseFromConfig .documented overlappingInputs) ∧
      DecidesBy (.finite 10)
        (OutstationManager.create .documented { pointDatabase := overlappingInputs }).start 5 ∧
      DecidesBy (.finite 0)
        (OutstationManager.create .documented { pointDatabase := overlappingInputs }).start 65535 := by
  obtain ⟨overlay, -, decides⟩ := @overlay_lastSet overlappingInputs rfl .documented
  refine ⟨overlay, ?_, ?_⟩
  · exact decides (.create .documented { pointDatabase := overlappingInputs }) rfl rfl nofun [] 5
  · exact decides (.create .documented { pointDatabase := overlappingInputs }) rfl rfl nofun [] 65535

end Dnp3Bridge.Outstation
