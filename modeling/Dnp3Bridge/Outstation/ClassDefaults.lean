import Dnp3Bridge.Outstation.Overlay

/-!
# The classes of points without a class

The built-in database gives the points of each type a class of their own. A point of a configured
database for which no entry sets a class has the class of a new point instead, class 1, which is the
built-in one for binary inputs only.
-/

namespace Dnp3Bridge.Outstation
open Config Sequences

/-- No entry about the point sets a class. -/
def Unclassed (entries : List PointConfig) (i : UInt16) : Prop :=
  ∀ pc ∈ entries, Covers pc i → pc.eventClass = ""

/-- The points of a configured section without a class have the class of the built-in points. -/
def ClassesAgree {C} (clazz : C → PointClass) (entries : List PointConfig)
    (configured builtIn : PointMap C) : Prop :=
  ∀ i pt j pt', configured i = some pt → Unclassed entries i → builtIn j = some pt' →
    clazz pt = clazz pt'

/-- The two ways to build a database agree about the classes of points without a class. -/
structure DefaultsAgree (fresh : FreshPoints) (db : PointDatabaseConfig) : Prop where
  binaryInput : ClassesAgree BinaryConfig.clazz db.binaryInput
    (configureDatabaseFromConfig fresh db).binaryInput (configureDefaultDatabase fresh).binaryInput
  binaryOutputStatus : ClassesAgree BinaryConfig.clazz db.binaryOutputStatus
    (configureDatabaseFromConfig fresh db).binaryOutputStatus
    (configureDefaultDatabase fresh).binaryOutputStatus
  analogInput : ClassesAgree AnalogConfig.clazz db.analogInput
    (configureDatabaseFromConfig fresh db).analogInput (configureDefaultDatabase fresh).analogInput
  analogOutputStatus : ClassesAgree AnalogConfig.clazz db.analogOutputStatus
    (configureDatabaseFromConfig fresh db).analogOutputStatus
    (configureDefaultDatabase fresh).analogOutputStatus

/-- Every point that the entries are about gets a class from one of them. -/
def AllClassed (entries : List PointConfig) : Prop :=
  ∀ i, (∃ pc ∈ entries, Covers pc i) → ∃ pc ∈ entries, Covers pc i ∧ pc.eventClass ≠ ""

/-- A point has a class unless no entry sets one. -/
lemma not_unclassed {entries : List PointConfig} {i : UInt16} :
    ¬ Unclassed entries i ↔ ∃ pc ∈ entries, Covers pc i ∧ pc.eventClass ≠ "" := by
  simp only [Unclassed, not_forall, exists_prop]

/-- A built-in section is made by one loop. -/
lemma builtIn_eq {C} (fresh : C) (set : C → C) (first last i : UInt16) :
    forRange first last (PointMap.modify fresh set) (fun _ => none) i =
      if first ≤ i ∧ i ≤ last then some (set fresh) else none := by
  rw [forRange_eq, foldl_modify _ _ (nodup_indices ..)]
  simp only [mem_indices]
  rfl

section
variable {C : Type} {fresh : C} {clazz : C → PointClass} {set : PointConfig → C → C}
  {entries : List PointConfig} {builtIn : C → C} {first last : UInt16}

/-- The class of a configured point without a class. -/
lemma clazz_of_unclassed (one : ∀ pc pt, clazz (set pc pt) =
      if pc.eventClass ≠ "" then toEnum pc.eventClass .class1 else clazz pt) {i pt}
    (found : configureSection fresh set entries i = some pt) (unset : Unclassed entries i) :
    clazz pt = clazz fresh := by
  have sets : ∀ pc ∈ entries, ∀ pt, clazz (set pc pt) =
      (if pc.eventClass ≠ "" then some (toEnum pc.eventClass .class1) else none).getD (clazz pt) := by
    intro pc _ pt
    rw [one]
    split <;> rfl
  refine configureSection_unset clazz sets found fun pc mem covers => ?_
  rw [unset pc mem covers]
  rfl

/-- Where a new point has the class of the built-in ones, the classes agree. -/
lemma classesAgree_of_eq (one : ∀ pc pt, clazz (set pc pt) =
      if pc.eventClass ≠ "" then toEnum pc.eventClass .class1 else clazz pt)
    (same : clazz (builtIn fresh) = clazz fresh) :
    ClassesAgree clazz entries (configureSection fresh set entries)
      (forRange first last (PointMap.modify fresh builtIn) fun _ => none) := by
  intro i pt j pt' found unset found'
  rw [builtIn_eq] at found'
  obtain ⟨-, e⟩ := Option.ite_none_right_eq_some.mp found'
  cases e
  rw [clazz_of_unclassed one found unset, same]

/-- Where it has another class, they agree exactly if there is no point without a class. -/
lemma classesAgree_iff (one : ∀ pc pt, clazz (set pc pt) =
      if pc.eventClass ≠ "" then toEnum pc.eventClass .class1 else clazz pt)
    (differ : clazz (builtIn fresh) ≠ clazz fresh) (some_builtIn : first ≤ last) :
    ClassesAgree clazz entries (configureSection fresh set entries)
      (forRange first last (PointMap.modify fresh builtIn) fun _ => none) ↔ AllClassed entries := by
  constructor
  · intro agree i covered
    rw [← not_unclassed]
    intro unset
    obtain ⟨pt, found⟩ :=
      Option.ne_none_iff_exists'.mp ((configureSection_present fresh set entries i).mpr covered)
    have builtIn_first := builtIn_eq fresh builtIn first last first
    rw [if_pos ⟨UInt16.le_refl _, some_builtIn⟩] at builtIn_first
    have same := agree i pt first _ found unset builtIn_first
    rw [clazz_of_unclassed one found unset] at same
    exact differ same.symm
  · intro all i pt j pt' found unset
    have covered := (configureSection_present fresh set entries i).mp (found ▸ Option.some_ne_none pt)
    exact absurd unset (not_unclassed.mpr (all i covered))

end

/-- If new points are in class 1, the two builders agree exactly if, apart from the binary inputs, every
configured point gets a class from an entry. -/
theorem defaultsAgree_iff {fresh : FreshPoints} (plain : fresh.InClass1) (db : PointDatabaseConfig) :
    DefaultsAgree fresh db ↔ AllClassed db.binaryOutputStatus ∧ AllClassed db.analogInput ∧
      AllClassed db.analogOutputStatus := by
  have inputs : ClassesAgree BinaryConfig.clazz db.binaryInput
      (configureDatabaseFromConfig fresh db).binaryInput
      (configureDefaultDatabase fresh).binaryInput :=
    classesAgree_of_eq (fun _ _ => rfl) plain.binaryInput.symm
  have outputs : ClassesAgree BinaryConfig.clazz db.binaryOutputStatus
      (configureDatabaseFromConfig fresh db).binaryOutputStatus
      (configureDefaultDatabase fresh).binaryOutputStatus ↔ AllClassed db.binaryOutputStatus :=
    classesAgree_iff (fun _ _ => rfl) (fun e => nomatch e.trans plain.binaryOutputStatus) (by decide)
  have analogs : ClassesAgree AnalogConfig.clazz db.analogInput
      (configureDatabaseFromConfig fresh db).analogInput
      (configureDefaultDatabase fresh).analogInput ↔ AllClassed db.analogInput :=
    classesAgree_iff (fun _ _ => rfl) (fun e => nomatch e.trans plain.analogInput) (by decide)
  have setpoints : ClassesAgree AnalogConfig.clazz db.analogOutputStatus
      (configureDatabaseFromConfig fresh db).analogOutputStatus
      (configureDefaultDatabase fresh).analogOutputStatus ↔ AllClassed db.analogOutputStatus :=
    classesAgree_iff (fun _ _ => rfl) (fun e => nomatch e.trans plain.analogOutputStatus) (by decide)
  rw [← outputs, ← analogs, ← setpoints]
  constructor
  · intro h
    obtain ⟨-, bo, ai, ao⟩ := h
    exact ⟨bo, ai, ao⟩
  · intro h
    obtain ⟨bo, ai, ao⟩ := h
    exact ⟨inputs, bo, ai, ao⟩

/-- An entry with a class, and one for a part of its points without. -/
def classedInputs : PointDatabaseConfig where
  analogInput :=
    [{ start := 0, stop := 20, eventClass := "class1" },
      { start := 5, stop := 5, deadband := some (.finite 1) }]

/-- Every one of its points gets a class. -/
theorem classedInputs_agree : DefaultsAgree .documented classedInputs := by
  refine (defaultsAgree_iff FreshPoints.documented_class1 classedInputs).mpr ⟨?_, ?_, ?_⟩
  · exact fun _ ⟨_, mem, _⟩ => absurd mem List.not_mem_nil
  · rintro i ⟨pc, mem, lo, hi⟩
    refine ⟨_, List.mem_cons_self, ⟨UInt16.zero_le, ?_⟩, by decide⟩
    obtain rfl | mem := List.mem_cons.mp mem
    · exact hi
    · obtain rfl := List.mem_singleton.mp mem
      exact UInt16.le_trans hi (by decide)
  · exact fun _ ⟨_, mem, _⟩ => absurd mem List.not_mem_nil

/-- A single analog input, given by its index. -/
def bareInput : PointDatabaseConfig where
  analogInput := [{ start := 7, stop := 7 }]

/-- Analog input 7 is in class 1, and in the built-in database it is in class 2. -/
theorem bareInput_disagrees :
    validatePointDatabase bareInput = .ok () ∧ bareInput.empty = false ∧
      ((configureDatabaseFromConfig .documented bareInput).analogInput 7).map AnalogConfig.clazz =
        some .class1 ∧
      ((configureDefaultDatabase .documented).analogInput 7).map AnalogConfig.clazz = some .class2 ∧
      ¬ DefaultsAgree .documented bareInput := by
  have configured : ((configureDatabaseFromConfig .documented bareInput).analogInput 7).map
      AnalogConfig.clazz = some .class1 := by
    show (configureSection _ _ _ 7).map _ = _
    rw [configureSection_eq]
    rfl
  have builtIn : ((configureDefaultDatabase .documented).analogInput 7).map AnalogConfig.clazz =
      some .class2 :=
    congrArg (Option.map AnalogConfig.clazz) (builtIn_eq _ _ 0 20 7)
  have unset : Unclassed bareInput.analogInput 7 := by
    intro pc mem _
    rw [List.mem_singleton.mp mem]
  refine ⟨rfl, rfl, configured, builtIn, fun agree => ?_⟩
  obtain ⟨pt, found, one⟩ := Option.map_eq_some_iff.mp configured
  obtain ⟨pt', found', two⟩ := Option.map_eq_some_iff.mp builtIn
  have same := agree.analogInput 7 pt 7 pt' found unset found'
  rw [one, two] at same
  cases same

end Dnp3Bridge.Outstation
