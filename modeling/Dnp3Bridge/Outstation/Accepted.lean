import Dnp3Bridge.Outstation.Overlay

/-!
# What is built from an accepted database

From a database that the validation accepts, `configureDatabaseFromConfig` takes no fallback: with any
other fallbacks it builds the same, and what it sets has been named by an entry. What the validation
refuses it refuses for the first violation.
-/

namespace Dnp3Bridge.Outstation
open Config Errors

/-- Whatever the fallback, `toEnum` returns the value that the string names. -/
def Resolves (E : Type) [Named E] (s : String) : Prop :=
  s ≠ "" → ∀ fallback : E, (s, toEnum s fallback) ∈ Named.nameMap (E := E)

/-- The entries of a database as `configureDatabaseFromConfig` reads them: every name resolves, and
every range has an index. -/
structure ResolvedDatabase (db : PointDatabaseConfig) : Prop where
  clazz : ∀ s, ∀ pc ∈ Section.entries db s, Resolves PointClass pc.eventClass
  analogInput : ∀ pc ∈ db.analogInput, Resolves StaticAnalogVariation pc.staticVariation ∧
    Resolves EventAnalogVariation pc.eventVariation
  analogOutputStatus : ∀ pc ∈ db.analogOutputStatus,
    Resolves StaticAnalogOutputStatusVariation pc.staticVariation ∧
      Resolves EventAnalogOutputStatusVariation pc.eventVariation
  covers : ∀ s, ∀ pc ∈ Section.entries db s, ∃ i, pc.start ≤ i ∧ i ≤ pc.stop

/-- `configureDatabaseFromConfig` takes no fallback: it builds the same with any others, and every field
of its points has a value that an entry names, or that of a new point. -/
structure WithoutFallback (db : PointDatabaseConfig) : Prop where
  unused : ∀ fallbacks fresh,
    configureDatabaseWith fallbacks fresh db = configureDatabaseFromConfig fresh db
  named : ∀ fresh, DatabaseOverlay fresh db (configureDatabaseFromConfig fresh db)

/-- A string that names a value, or is empty, resolves. -/
lemma Resolves.of_known {E} [Named E] {s : String} (known : s = "" ∨ Known E s) : Resolves E s := by
  intro ne fallback
  obtain ⟨e, found⟩ := Option.isSome_iff_exists.mp (known_iff.mpr (known.resolve_left ne))
  obtain ⟨l, l', split, -⟩ := List.lookup_eq_some_iff.mp found
  rw [toEnum, found, split]
  exact List.mem_append_right _ List.mem_cons_self

/-- A valid entry has an index, in every section. -/
lemma ValidDatabase.range {db : PointDatabaseConfig} (valid : ValidDatabase db) (s : Section) :
    ∀ pc ∈ s.entries db, pc.start ≤ pc.stop := by
  intro pc mem
  cases s with
  | binaryInput => exact (valid.binaryInput pc mem).range
  | binaryOutputStatus => exact (valid.binaryOutputStatus pc mem).range
  | analogInput => exact (valid.analogInput pc mem).range
  | analogOutputStatus => exact (valid.analogOutputStatus pc mem).range

/-- A valid entry has no class or a known one, in every section. -/
lemma ValidDatabase.clazz {db : PointDatabaseConfig} (valid : ValidDatabase db) (s : Section) :
    ∀ pc ∈ s.entries db, pc.eventClass = "" ∨ Known PointClass pc.eventClass := by
  intro pc mem
  cases s with
  | binaryInput => exact (valid.binaryInput pc mem).clazz
  | binaryOutputStatus => exact (valid.binaryOutputStatus pc mem).clazz
  | analogInput => exact (valid.analogInput pc mem).clazz
  | analogOutputStatus => exact (valid.analogOutputStatus pc mem).clazz

/-- The entries of a valid database resolve. -/
lemma ValidDatabase.resolved {db : PointDatabaseConfig} (valid : ValidDatabase db) :
    ResolvedDatabase db := by
  refine ⟨fun s pc mem => ?_, fun pc mem => ?_, fun pc mem => ?_, fun s pc mem => ?_⟩
  · exact .of_known (valid.clazz s pc mem)
  · exact ⟨.of_known (valid.analogInput pc mem).static, .of_known (valid.analogInput pc mem).event⟩
  · have entry := valid.analogOutputStatus pc mem
    exact ⟨.of_known entry.static, .of_known entry.event⟩
  · exact ⟨pc.start, UInt16.le_refl _, valid.range s pc mem⟩

/-- Two settings that agree about every entry make the same section. -/
lemma configureSection_congr {C} {fresh : C} {set set' : PointConfig → C → C}
    {entries : List PointConfig} (same : ∀ pc ∈ entries, ∀ pt, set pc pt = set' pc pt) :
    configureSection fresh set entries = configureSection fresh set' entries := by
  refine List.foldl_ext _ _ _ fun map pc mem => ?_
  rw [funext (same pc mem)]

/-- The fallback does not matter for a valid binary section. -/
lemma binarySection_congr {clazz clazz' : PointClass} {fresh : BinaryConfig}
    {entries : List PointConfig} (valid : ∀ pc ∈ entries, ValidBinary pc) :
    configureSection fresh (setBinary clazz) entries =
      configureSection fresh (setBinary clazz') entries := by
  refine configureSection_congr fun pc mem pt => ?_
  have blank : named PointClass "" = none := rfl
  rw [setBinary, setBinary, toEnum_eq blank (valid pc mem).clazz,
    toEnum_eq blank (valid pc mem).clazz]

/-- The fallbacks do not matter for a valid analog section. -/
lemma analogSection_congr {S V} [Named S] [Named V] (noStatic : named S "" = none)
    (noEvent : named V "" = none) {clazz clazz' : PointClass} {svariation svariation' : S}
    {evariation evariation' : V} {fresh : AnalogConfig S V} {entries : List PointConfig}
    (valid : ∀ pc ∈ entries, ValidAnalog S V pc) :
    configureSection fresh (setAnalog clazz svariation evariation) entries =
      configureSection fresh (setAnalog clazz' svariation' evariation') entries := by
  refine configureSection_congr fun pc mem pt => ?_
  have blank : named PointClass "" = none := rfl
  obtain ⟨-, clazz, static, event⟩ := valid pc mem
  rw [setAnalog, setAnalog, toEnum_eq blank clazz, toEnum_eq blank clazz, toEnum_eq noStatic static,
    toEnum_eq noStatic static, toEnum_eq noEvent event, toEnum_eq noEvent event]

/-- A valid database is built without a fallback. -/
lemma ValidDatabase.withoutFallback {db : PointDatabaseConfig} (valid : ValidDatabase db) :
    WithoutFallback db := by
  refine ⟨fun fallbacks fresh => ?_, fun fresh => databaseOverlay_of_valid {} fresh valid⟩
  obtain ⟨bi, bo, ai, ao⟩ := valid
  rw [configureDatabaseFromConfig, configureDatabaseWith, binarySection_congr bi,
    binarySection_congr bo, analogSection_congr rfl rfl ai, analogSection_congr rfl rfl ao]
  rfl

/-- The validation accepts the valid databases and reports the first violation of the others, in a
message that determines it; a database that it accepts is built without a fallback, and every entry has
an index. -/
theorem validation_exact (db : PointDatabaseConfig) :
    (validatePointDatabase db = .ok () ↔ ValidDatabase db) ∧
      (∀ e, validatePointDatabase db = .error e ↔ ∃ site, Site.Violated db site ∧
        (∀ site', Site.Violated db site' → ¬ site'.Before site) ∧ e = site.message db) ∧
      (∀ site site' : Site, site.message db = site'.message db → site = site') ∧
      (validatePointDatabase db = .ok () → ResolvedDatabase db ∧ WithoutFallback db) := by
  refine ⟨validatePointDatabase_ok_iff db, ?_, fun _ _ => Site.message_injective, fun ok => ?_⟩
  · exact (firstError_validate db).error_iff Site.before_total
  · have valid := (validatePointDatabase_ok_iff db).mp ok
    exact ⟨valid.resolved, valid.withoutFallback⟩

/-- The third entry is wrong in two fields, and the class is checked first. -/
example : validatePointDatabase
    { analogInput := [{ start := 0, stop := 9 }, { start := 10, stop := 10 },
        { start := 11, stop := 11, eventClass := "classe2", eventVariation := "Group32Var9" }] } =
    .error ("point_database.analog_input[2].class: unknown value \"classe2\" " ++
      "(expected one of: class0, class1, class2, class3)") := by
  decide +kernel

end Dnp3Bridge.Outstation
