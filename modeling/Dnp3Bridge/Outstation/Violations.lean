import Dnp3Bridge.Errors.FirstError
import Dnp3Bridge.Outstation.Validation
import Dnp3Bridge.Sequences.Delimited

/-!
# What the validation accepts

`validatePointDatabase` accepts a point database exactly if every range has an index and every name is
known where it stands, and it reports the first violation otherwise, with a message that determines
where it is.
-/

namespace Dnp3Bridge.Outstation
open Config Errors Sequences

/-- The string names a value of the enumeration. -/
def Known (E : Type) [Named E] (s : String) : Prop :=
  ∃ e, (s, e) ∈ Named.nameMap (E := E)

/-- What `checkEnum` refuses. -/
def Unknown (E : Type) [Named E] (s : String) : Prop :=
  s ≠ "" ∧ ¬ Known E s

/-- The sections, in the order in which they are checked. -/
inductive Section where
  | binaryInput
  | binaryOutputStatus
  | analogInput
  | analogOutputStatus
  deriving DecidableEq

/-- The checks of an entry, in the order in which they are made. -/
inductive Check where
  | range
  | clazz
  | staticVariation
  | eventVariation
  deriving DecidableEq

def Section.name : Section → String
  | .binaryInput => "binary_input"
  | .binaryOutputStatus => "binary_output_status"
  | .analogInput => "analog_input"
  | .analogOutputStatus => "analog_output_status"

def Section.rank : Section → Nat
  | .binaryInput => 0
  | .binaryOutputStatus => 1
  | .analogInput => 2
  | .analogOutputStatus => 3

def Section.entries (db : PointDatabaseConfig) : Section → List PointConfig
  | .binaryInput => db.binaryInput
  | .binaryOutputStatus => db.binaryOutputStatus
  | .analogInput => db.analogInput
  | .analogOutputStatus => db.analogOutputStatus

def Check.rank : Check → Nat
  | .range => 0
  | .clazz => 1
  | .staticVariation => 2
  | .eventVariation => 3

/-- The field that a check is about. -/
def Check.field : Check → String
  | .range => ".range"
  | .clazz => ".class"
  | .staticVariation => ".static_variation"
  | .eventVariation => ".event_variation"

/-- What is wrong with an entry of a section. The variations of a section are those of its own group,
and those of a binary section are not looked at. -/
def Violates (s : Section) (c : Check) (pc : PointConfig) : Prop :=
  match s, c with
  | _, .range => pc.stop < pc.start
  | _, .clazz => Unknown PointClass pc.eventClass
  | .analogInput, .staticVariation => Unknown StaticAnalogVariation pc.staticVariation
  | .analogInput, .eventVariation => Unknown EventAnalogVariation pc.eventVariation
  | .analogOutputStatus, .staticVariation =>
    Unknown StaticAnalogOutputStatusVariation pc.staticVariation
  | .analogOutputStatus, .eventVariation =>
    Unknown EventAnalogOutputStatusVariation pc.eventVariation
  | .binaryInput, _ | .binaryOutputStatus, _ => False

/-- A place where a point database can be wrong. -/
structure Site where
  section_ : Section
  position : Nat
  check : Check
  deriving DecidableEq

/-- The order of the checks: by section, then by position, then by check. -/
def Site.Before (a b : Site) : Prop :=
  a.section_.rank < b.section_.rank ∨ (a.section_ = b.section_ ∧
    (a.position < b.position ∨ (a.position = b.position ∧ a.check.rank < b.check.rank)))

def Site.entry (db : PointDatabaseConfig) (site : Site) : PointConfig :=
  (site.section_.entries db).getD site.position {}

def Site.Violated (db : PointDatabaseConfig) (site : Site) : Prop :=
  site.position < (site.section_.entries db).length ∧
    Violates site.section_ site.check (site.entry db)

/-- What the validation lets through in the entry of a binary section. -/
structure ValidBinary (pc : PointConfig) : Prop where
  range : pc.start ≤ pc.stop
  clazz : pc.eventClass = "" ∨ Known PointClass pc.eventClass

/-- What the validation lets through in the entry of a section with static variations `S` and event
variations `V`. -/
structure ValidAnalog (S V : Type) [Named S] [Named V] (pc : PointConfig) : Prop where
  range : pc.start ≤ pc.stop
  clazz : pc.eventClass = "" ∨ Known PointClass pc.eventClass
  static : pc.staticVariation = "" ∨ Known S pc.staticVariation
  event : pc.eventVariation = "" ∨ Known V pc.eventVariation

structure ValidDatabase (db : PointDatabaseConfig) : Prop where
  binaryInput : ∀ pc ∈ db.binaryInput, ValidBinary pc
  binaryOutputStatus : ∀ pc ∈ db.binaryOutputStatus, ValidBinary pc
  analogInput : ∀ pc ∈ db.analogInput, ValidAnalog StaticAnalogVariation EventAnalogVariation pc
  analogOutputStatus : ∀ pc ∈ db.analogOutputStatus,
    ValidAnalog StaticAnalogOutputStatusVariation EventAnalogOutputStatusVariation pc

/-- How a message names the field of a site. -/
def Site.path (site : Site) : String :=
  entryName site.section_.name site.position ++ site.check.field

/-- The message about a site. -/
def Site.message (db : PointDatabaseConfig) (site : Site) : String :=
  match site.check, site.section_ with
  | .range, _ => site.path ++ ": start " ++ toString (site.entry db).start ++
      " is greater than end " ++ toString (site.entry db).stop
  | .clazz, _ => unknownValue PointClass site.path (site.entry db).eventClass
  | .staticVariation, .analogOutputStatus =>
    unknownValue StaticAnalogOutputStatusVariation site.path (site.entry db).staticVariation
  | .staticVariation, _ =>
    unknownValue StaticAnalogVariation site.path (site.entry db).staticVariation
  | .eventVariation, .analogOutputStatus =>
    unknownValue EventAnalogOutputStatusVariation site.path (site.entry db).eventVariation
  | .eventVariation, _ => unknownValue EventAnalogVariation site.path (site.entry db).eventVariation

/-- A name is found in the table exactly if it is known. -/
lemma known_iff {E} [Named E] {s : String} :
    ((Named.nameMap (E := E)).lookup s).isSome = true ↔ Known E s := by
  rw [List.lookup_isSome_iff]
  constructor
  · intro h
    obtain ⟨p, mem, eq⟩ := h
    obtain rfl : s = p.1 := eq_of_beq eq
    exact ⟨p.2, mem⟩
  · intro h
    obtain ⟨e, mem⟩ := h
    exact ⟨(s, e), mem, beq_self_eq_true s⟩

instance (E : Type) [Named E] (s : String) : Decidable (Known E s) :=
  decidable_of_iff _ known_iff

/-- No site comes before itself. -/
lemma Site.not_before_self (site : Site) : ¬ site.Before site := by
  rintro (lt | ⟨-, lt | ⟨-, lt⟩⟩) <;> exact lt_irrefl _ lt

/-- The sections are checked one after the other. -/
lemma Section.rank_injective {s t : Section} (e : s.rank = t.rank) : s = t := by
  cases s <;> cases t <;> first | rfl | cases e

/-- The checks of an entry are made one after the other. -/
lemma Check.rank_injective {c d : Check} (e : c.rank = d.rank) : c = d := by
  cases c <;> cases d <;> first | rfl | cases e

/-- Of two sites one is checked before the other. -/
lemma Site.before_total (a b : Site) : a.Before b ∨ a = b ∨ b.Before a := by
  obtain ⟨s, i, c⟩ := a
  obtain ⟨t, j, d⟩ := b
  obtain lt | e | lt := lt_trichotomy s.rank t.rank
  · exact .inl (.inl lt)
  · obtain rfl := Section.rank_injective e
    obtain lt | rfl | lt := lt_trichotomy i j
    · exact .inl (.inr ⟨rfl, .inl lt⟩)
    · obtain lt | e | lt := lt_trichotomy c.rank d.rank
      · exact .inl (.inr ⟨rfl, .inr ⟨rfl, lt⟩⟩)
      · obtain rfl := Check.rank_injective e
        exact .inr (.inl rfl)
      · exact .inr (.inr (.inr ⟨rfl, .inr ⟨rfl, lt⟩⟩))
    · exact .inr (.inr (.inr ⟨rfl, .inl lt⟩))
  · exact .inr (.inr (.inl lt))

/-- Every message starts with the field it is about. -/
lemma Site.message_path (db : PointDatabaseConfig) (site : Site) :
    ∃ rest, site.message db = site.path ++ ": " ++ rest := by
  have split : ∀ (E : Type) [Named E] (value : String),
      ∃ rest, unknownValue E site.path value = site.path ++ ": " ++ rest := by
    intro E _ value
    refine ⟨"unknown value \"" ++ value ++ "\" (expected one of: " ++ ", ".intercalate
      (((Named.nameMap (E := E)).map Prod.fst).insertionSort (· ≤ ·)) ++ ")", ?_⟩
    simp only [unknownValue, String.append_assoc]
    rfl
  rw [message]
  split
  case h_1 =>
    refine ⟨"start " ++ toString (site.entry db).start ++ " is greater than end " ++
      toString (site.entry db).stop, ?_⟩
    simp only [String.append_assoc]
    rfl
  all_goals exact split _ _

/-- A message, character by character: the section, the position between brackets, and the field up to
the colon. -/
lemma Site.message_toList (db : PointDatabaseConfig) (site : Site) : ∃ rest : List Char,
    (site.message db).toList = ("point_database." ++ site.section_.name).toList ++
      '[' :: (Nat.toDigits 10 site.position ++ ']' :: (site.check.field.toList ++ ':' :: rest)) := by
  obtain ⟨rest, text⟩ := site.message_path db
  have path : site.path = "point_database." ++ site.section_.name ++ "[" ++ toString site.position ++
      "]" ++ site.check.field := rfl
  have bracket : "[".toList = ['['] := rfl
  have bracket' : "]".toList = [']'] := rfl
  have colon : ": ".toList = [':', ' '] := rfl
  refine ⟨' ' :: rest.toList, ?_⟩
  simp only [text, path, String.toList_append, Nat.toString_eq_repr, Nat.toList_repr, bracket,
    bracket', colon, List.append_assoc, List.cons_append, List.nil_append]

/-- A message determines the site it is about. -/
lemma Site.message_injective {db db' : PointDatabaseConfig} {site site' : Site}
    (same : site.message db = site'.message db') : site = site' := by
  obtain ⟨s, i, c⟩ := site
  obtain ⟨t, j, d⟩ := site'
  obtain ⟨rest, text⟩ := Site.message_toList db ⟨s, i, c⟩
  obtain ⟨rest', text'⟩ := Site.message_toList db' ⟨t, j, d⟩
  rw [same, text'] at text
  have bracket : ∀ s : Section, '[' ∉ ("point_database." ++ s.name).toList := by
    intro s
    cases s <;> decide
  have digit : ∀ n, ']' ∉ Nat.toDigits 10 n :=
    fun n mem => absurd (isDigit_of_mem_digits mem) (by decide)
  have colon : ∀ c : Check, ':' ∉ c.field.toList := by
    intro c
    cases c <;> decide
  obtain ⟨name, text⟩ := delimited_inj (bracket t) (bracket s) text
  obtain ⟨digits, text⟩ := delimited_inj (digit j) (digit i) text
  obtain ⟨field, -⟩ := delimited_inj (colon d) (colon c) text
  have position : i = j := digits_inj digits.symm
  have section_ : s = t := by
    cases s <;> cases t <;> first | rfl | exact absurd name (by decide)
  have check : c = d := by
    cases c <;> cases d <;> first | rfl | exact absurd field (by decide)
  rw [position, section_, check]

/-- The checks that `validatePointDatabase` makes for an entry of a section. -/
def Section.checkEntry : Section → PointConfig → String → Except String Unit
  | .binaryInput | .binaryOutputStatus => checkBinaryEntry
  | .analogInput => checkAnalogEntry StaticAnalogVariation EventAnalogVariation
  | .analogOutputStatus =>
    checkAnalogEntry StaticAnalogOutputStatusVariation EventAnalogOutputStatusVariation

section
variable {db : PointDatabaseConfig} {s : Section} {i : Nat}

/-- The check `c` of the entry at position `i` fails. -/
def At (db : PointDatabaseConfig) (s : Section) (i : Nat) (c : Check) (site : Site) : Prop :=
  site = ⟨s, i, c⟩ ∧ Violates s c ((s.entries db).getD i {})

/-- Within an entry the sites come in the order of their checks. -/
lemma At.not_before {c d : Check} (le : c.rank ≤ d.rank) {a b : Site} (ha : At db s i c a)
    (hb : At db s i d b) : ¬ b.Before a := by
  obtain ⟨rfl, -⟩ := ha
  obtain ⟨rfl, -⟩ := hb
  rintro (lt | ⟨-, lt | ⟨-, lt⟩⟩)
  · exact lt_irrefl _ lt
  · exact lt_irrefl _ lt
  · exact absurd lt (not_lt.mpr le)

/-- `checkRange` reports the range of its entry if it is reversed. -/
lemma firstError_range (db : PointDatabaseConfig) (s : Section) (i : Nat) :
    FirstError Site.Before (At db s i .range) (Site.message db)
      (checkRange ((s.entries db).getD i {}) (entryName s.name i)) := by
  refine FirstError.check (Site.not_before_self _) (fun wrong => ?_) (fun fine => ?_)
  · have lt : ((s.entries db).getD i {}).stop < ((s.entries db).getD i {}).start := by
      cases s <;> exact wrong
    rw [checkRange, if_pos lt, Site.message, Site.path]
    simp only [String.append_assoc]
    rfl
  · have le : ¬ ((s.entries db).getD i {}).stop < ((s.entries db).getD i {}).start := by
      cases s <;> exact fine
    rw [checkRange, if_neg le]

/-- `checkEnum` reports the name in its field if it is not known. -/
lemma firstError_enum {E} [Named E] {c : Check} {value : String}
    (shape : Violates s c ((s.entries db).getD i {}) ↔ Unknown E value)
    (text : Site.message db ⟨s, i, c⟩ = unknownValue E (Site.path ⟨s, i, c⟩) value) :
    FirstError Site.Before (At db s i c) (Site.message db)
      (checkEnum E value (entryName s.name i ++ c.field)) := by
  refine FirstError.check (Site.not_before_self _) (fun wrong => ?_) (fun fine => ?_)
  · obtain ⟨ne, unknown⟩ := shape.mp wrong
    rw [checkEnum, if_neg, text]
    · rfl
    · rw [known_iff]
      exact not_or.mpr ⟨ne, unknown⟩
  · have known := mt shape.mpr fine
    rw [Unknown, not_and_or, not_not, not_not] at known
    rw [checkEnum, if_pos]
    rwa [known_iff]

/-- The check of the class reports it if it is not known. -/
lemma firstError_class (db : PointDatabaseConfig) (s : Section) (i : Nat) :
    FirstError Site.Before (At db s i .clazz) (Site.message db)
      (checkEnum PointClass ((s.entries db).getD i {}).eventClass (entryName s.name i ++ ".class")) :=
  firstError_enum (by cases s <;> rfl) rfl

/-- The checks of an entry of a binary section report its first violation. -/
lemma firstError_binary (plain : ∀ c pc, Violates s c pc → c = .range ∨ c = .clazz) :
    FirstError Site.Before (fun site => ∃ c, At db s i c site) (Site.message db)
      (checkBinaryEntry ((s.entries db).getD i {}) (entryName s.name i)) := by
  have both := (firstError_range db s i).seq (firstError_class db s i)
    fun _ _ => At.not_before (by decide)
  refine both.congr fun site => ?_
  constructor
  · rintro ⟨c, h⟩
    obtain rfl | rfl := plain c _ h.2
    · exact .inl h
    · exact .inr h
  · rintro (h | h) <;> exact ⟨_, h⟩

/-- The checks of an entry of an analog section report its first violation. -/
lemma firstError_analog {S V : Type} [Named S] [Named V]
    (static : FirstError Site.Before (At db s i .staticVariation) (Site.message db)
      (checkEnum S ((s.entries db).getD i {}).staticVariation
        (entryName s.name i ++ ".static_variation")))
    (event : FirstError Site.Before (At db s i .eventVariation) (Site.message db)
      (checkEnum V ((s.entries db).getD i {}).eventVariation
        (entryName s.name i ++ ".event_variation"))) :
    FirstError Site.Before (fun site => ∃ c, At db s i c site) (Site.message db)
      (checkAnalogEntry S V ((s.entries db).getD i {}) (entryName s.name i)) := by
  have variations := static.seq event fun _ _ => At.not_before (by decide)
  have enums := (firstError_class db s i).seq variations (by
    rintro _ _ h (h' | h') <;> exact At.not_before (by decide) h h')
  have all := (firstError_range db s i).seq enums (by
    rintro _ _ h (h' | h' | h') <;> exact At.not_before (by decide) h h')
  refine all.congr fun site => ?_
  constructor
  · rintro ⟨c, h⟩
    cases c with
    | range => exact .inl h
    | clazz => exact .inr (.inl h)
    | staticVariation => exact .inr (.inr (.inl h))
    | eventVariation => exact .inr (.inr (.inr h))
  · rintro (h | h | h | h) <;> exact ⟨_, h⟩

/-- The checks of one entry report its first violation. -/
lemma firstError_entry (db : PointDatabaseConfig) (s : Section) (i : Nat) :
    FirstError Site.Before (fun site => ∃ c, At db s i c site) (Site.message db)
      (s.checkEntry ((s.entries db).getD i {}) (entryName s.name i)) := by
  cases s with
  | binaryInput =>
    refine firstError_binary fun c pc wrong => ?_
    cases c <;> first | exact .inl rfl | exact .inr rfl | cases wrong
  | binaryOutputStatus =>
    refine firstError_binary fun c pc wrong => ?_
    cases c <;> first | exact .inl rfl | exact .inr rfl | cases wrong
  | analogInput =>
    exact firstError_analog (firstError_enum Iff.rfl rfl) (firstError_enum Iff.rfl rfl)
  | analogOutputStatus =>
    exact firstError_analog (firstError_enum Iff.rfl rfl) (firstError_enum Iff.rfl rfl)

/-- The loop over a section reports the first violation from its position on. -/
lemma firstError_entries (db : PointDatabaseConfig) (s : Section) {i : Nat}
    {entries : List PointConfig} (rest : entries = (s.entries db).drop i) :
    FirstError Site.Before
      (fun site => site.section_ = s ∧ i ≤ site.position ∧ site.Violated db) (Site.message db)
      (checkEntries s.checkEntry s.name i entries) := by
  induction entries generalizing i with
  | nil =>
    refine .nothing ?_
    rintro site ⟨rfl, le, lt, -⟩
    have := List.drop_eq_nil_iff.mp rest.symm
    omega
  | cons pc entries ih =>
    have lt : i < (s.entries db).length := by
      by_contra ge
      rw [List.drop_of_length_le (not_lt.mp ge)] at rest
      cases rest
    obtain ⟨here, later⟩ := List.cons.inj (rest.trans (List.drop_eq_getElem_cons lt))
    have entry : (s.entries db).getD i {} = pc := by
      rw [here, List.getD_eq_getElem?_getD, List.getElem?_eq_getElem lt, Option.getD_some]
    have both := (entry ▸ firstError_entry db s i).seq (ih later) (by
      rintro a b ⟨c, rfl, -⟩ ⟨e, le, -⟩ (lt | ⟨-, lt | ⟨eq, -⟩⟩)
      · rw [e] at lt
        exact lt_irrefl _ lt
      · exact absurd (le.trans lt.le) (Nat.not_succ_le_self i)
      · exact absurd (le.trans eq.le) (Nat.not_succ_le_self i))
    refine both.congr ?_
    rintro ⟨t, j, c⟩
    constructor
    · intro h
      obtain ⟨rfl, le, wrong⟩ := h
      obtain rfl | lt := le.eq_or_lt
      · exact .inl ⟨c, rfl, wrong.2⟩
      · exact .inr ⟨rfl, lt, wrong⟩
    · rintro (⟨d, e, wrong⟩ | ⟨rfl, le, wrong⟩)
      · cases e
        exact ⟨rfl, le_rfl, lt, wrong⟩
      · exact ⟨rfl, (Nat.le_succ i).trans le, wrong⟩

end

/-- The validation reports the first violation. -/
lemma firstError_validate (db : PointDatabaseConfig) :
    FirstError Site.Before (Site.Violated db) (Site.message db) (validatePointDatabase db) := by
  have part := fun s : Section => @firstError_entries db s 0 _ rfl
  have order : ∀ {s t : Section} {a b : Site}, s.rank < t.rank → a.section_ = s →
      b.section_ = t → ¬ b.Before a := by
    rintro s t a b lt rfl rfl (lt' | ⟨e, -⟩)
    · exact lt_asymm lt lt'
    · rw [e] at lt
      exact lt_irrefl _ lt
  have analog := (part .analogInput).seq (part .analogOutputStatus)
    fun _ _ h h' => order (by decide) h.1 h'.1
  have outputs := (part .binaryOutputStatus).seq analog (by
    rintro _ _ h (h' | h') <;> exact order (by decide) h.1 h'.1)
  have all := (part .binaryInput).seq outputs (by
    rintro _ _ h (h' | h' | h') <;> exact order (by decide) h.1 h'.1)
  refine all.congr ?_
  rintro ⟨s, i, c⟩
  constructor
  · intro wrong
    cases s with
    | binaryInput => exact .inl ⟨rfl, i.zero_le, wrong⟩
    | binaryOutputStatus => exact .inr (.inl ⟨rfl, i.zero_le, wrong⟩)
    | analogInput => exact .inr (.inr (.inl ⟨rfl, i.zero_le, wrong⟩))
    | analogOutputStatus => exact .inr (.inr (.inr ⟨rfl, i.zero_le, wrong⟩))
  · rintro (h | h | h | h) <;> exact h.2.2

/-- A name that is not unknown is empty or known. -/
lemma not_unknown {E} [Named E] {s : String} : ¬ Unknown E s ↔ s = "" ∨ Known E s := by
  rw [Unknown, not_and_or, not_not, not_not]

/-- A section without a violation. -/
lemma not_violated_iff (db : PointDatabaseConfig) (s : Section) :
    (∀ i c, ¬ Site.Violated db ⟨s, i, c⟩) ↔ ∀ pc ∈ s.entries db, ∀ c, ¬ Violates s c pc := by
  constructor
  · intro none pc mem c wrong
    obtain ⟨i, lt, rfl⟩ := List.getElem_of_mem mem
    refine none i c ⟨lt, ?_⟩
    rwa [Site.entry, List.getD_eq_getElem?_getD, List.getElem?_eq_getElem lt, Option.getD_some]
  · rintro valid i c ⟨lt, wrong⟩
    rw [Site.entry, List.getD_eq_getElem?_getD, List.getElem?_eq_getElem lt] at wrong
    exact valid _ (List.getElem_mem lt) c wrong

/-- An entry without a violation, check by check. -/
lemma not_violates_iff (s : Section) (pc : PointConfig) :
    (∀ c, ¬ Violates s c pc) ↔ ¬ pc.stop < pc.start ∧ ¬ Unknown PointClass pc.eventClass ∧
      ¬ Violates s .staticVariation pc ∧ ¬ Violates s .eventVariation pc := by
  have range : Violates s .range pc ↔ pc.stop < pc.start := by cases s <;> rfl
  have clazz : Violates s .clazz pc ↔ Unknown PointClass pc.eventClass := by cases s <;> rfl
  rw [← range, ← clazz]
  constructor
  · intro none
    exact ⟨none _, none _, none _, none _⟩
  · rintro ⟨hr, hc, hs, he⟩ c
    cases c with
    | range => exact hr
    | clazz => exact hc
    | staticVariation => exact hs
    | eventVariation => exact he

/-- What is valid in a section. -/
def ValidEntry : Section → PointConfig → Prop
  | .binaryInput | .binaryOutputStatus => ValidBinary
  | .analogInput => ValidAnalog StaticAnalogVariation EventAnalogVariation
  | .analogOutputStatus =>
    ValidAnalog StaticAnalogOutputStatusVariation EventAnalogOutputStatusVariation

/-- An entry without a violation is valid. -/
lemma validEntry_iff (s : Section) (pc : PointConfig) :
    (∀ c, ¬ Violates s c pc) ↔ ValidEntry s pc := by
  have binary : ¬ pc.stop < pc.start ∧ ¬ Unknown PointClass pc.eventClass ∧ ¬ False ∧ ¬ False ↔
      ValidBinary pc := by
    rw [UInt16.not_lt, not_unknown]
    exact ⟨fun h => ⟨h.1, h.2.1⟩, fun h => ⟨h.range, h.clazz, id, id⟩⟩
  have analog : ∀ (S V : Type) [Named S] [Named V],
      (¬ pc.stop < pc.start ∧ ¬ Unknown PointClass pc.eventClass ∧
        ¬ Unknown S pc.staticVariation ∧ ¬ Unknown V pc.eventVariation) ↔ ValidAnalog S V pc := by
    intro S V _ _
    rw [UInt16.not_lt, not_unknown, not_unknown, not_unknown]
    exact ⟨fun h => ⟨h.1, h.2.1, h.2.2.1, h.2.2.2⟩, fun h => ⟨h.range, h.clazz, h.static, h.event⟩⟩
  rw [not_violates_iff]
  cases s with
  | binaryInput => exact binary
  | binaryOutputStatus => exact binary
  | analogInput => exact analog _ _
  | analogOutputStatus => exact analog _ _

/-- A database without a violation is valid. -/
lemma validDatabase_iff (db : PointDatabaseConfig) :
    (∀ site, ¬ Site.Violated db site) ↔ ValidDatabase db := by
  have section_ : (∀ site, ¬ Site.Violated db site) ↔
      ∀ s, ∀ pc ∈ Section.entries db s, ValidEntry s pc := by
    simp only [← validEntry_iff, ← not_violated_iff]
    exact ⟨fun h s i c => h ⟨s, i, c⟩, fun h site => h site.section_ site.position site.check⟩
  rw [section_]
  constructor
  · intro h
    exact ⟨h .binaryInput, h .binaryOutputStatus, h .analogInput, h .analogOutputStatus⟩
  · rintro ⟨bi, bo, ai, ao⟩ s
    cases s with
    | binaryInput => exact bi
    | binaryOutputStatus => exact bo
    | analogInput => exact ai
    | analogOutputStatus => exact ao

/-- `validatePointDatabase` accepts the valid databases and no others. -/
lemma validatePointDatabase_ok_iff (db : PointDatabaseConfig) :
    validatePointDatabase db = .ok () ↔ ValidDatabase db :=
  (firstError_validate db).ok_iff.trans (validDatabase_iff db)

end Dnp3Bridge.Outstation
