import Dnp3Bridge.Config.Loader
import Mathlib.Data.List.Basic

/-!
# The kinds of values in the file

The conversions of the JSON library throw when the kind of a value does not match, and of these
exceptions the loader catches those of the parser only, and of them only the syntax errors. So the
loader returns exactly if every value that it converts has the right kind.
-/

namespace Dnp3Bridge.Config
open Json Errors

namespace Json

def isString : Json → Bool
  | .string _ => true
  | _ => false

def isBoolean : Json → Bool
  | .boolean _ => true
  | _ => false

def isNumber : Json → Bool
  | .integer _ => true
  | .float _ => true
  | _ => false

/-- Integer types are converted from booleans also. -/
def isIntegral (j : Json) : Bool :=
  j.isNumber || j.isBoolean

/-- If the document has the key, its value satisfies `P`. -/
def Member (j : Json) (key : String) (P : Json → Prop) : Prop :=
  ∀ v, j.find key = some v → P v

/-- A key that is absent meets every demand on its member. -/
lemma member_absent {j : Json} {key} {P : Json → Prop} (absent : j.find key = none) :
    j.Member key P := by
  intro v found
  rw [absent] at found
  cases found

/-- The demand on a key that is there is one on its value. -/
lemma member_found {j : Json} {key v} {P : Json → Prop} (found : j.find key = some v) :
    j.Member key P ↔ P v := by
  refine ⟨fun h => h v found, fun h v' e => ?_⟩
  rw [found] at e
  cases e
  exact h

end Json

/-- The kinds of an entry of the point database. The `index` is not looked at beside a `range`. -/
structure EntryKinds (entry : Json) : Prop where
  range : entry.Member "range" fun range =>
    ∃ u v rest, range = .array (u :: v :: rest) ∧ u.isIntegral ∧ v.isIntegral
  index : entry.find "range" = none → entry.Member "index" (isIntegral ·)
  strings : ∀ key ∈ ["class", "static_variation", "event_variation"], entry.Member key (isString ·)
  deadband : entry.Member "deadband" (isNumber ·)

structure UnsolicitedKinds (j : Json) : Prop where
  enabled : j.Member "enabled" (isBoolean ·)
  classMask : j.Member "class_mask" fun mask => ∀ c ∈ mask.items, c.isString

/-- The kinds of a document. Keys that the loader does not read have any value. -/
structure DocumentKinds (j : Json) : Prop where
  strings : ∀ key ∈ ["grpc_listen_address", "dnp3_channel_host", "log_level", "log_file",
    "command_mode"], j.Member key (isString ·)
  numbers : ∀ key ∈ ["dnp3_channel_port", "dnp3_local_address", "dnp3_remote_address",
    "log_max_size_mb", "log_max_files", "command_timeout_ms"], j.Member key (isIntegral ·)
  eventBuffer : j.Member "event_buffer" fun eb =>
    ∀ key ∈ ["max_binary_events", "max_double_binary_events", "max_analog_events",
      "max_counter_events", "max_frozen_counter_events", "max_binary_output_status_events",
      "max_analog_output_status_events", "max_octet_string_events"], eb.Member key (isIntegral ·)
  unsolicited : j.Member "unsolicited" UnsolicitedKinds
  pointDatabase : j.Member "point_database" fun db =>
    ∀ key ∈ ["binary_input", "binary_output_status", "analog_input", "analog_output_status"],
      db.Member key fun arr => ∀ entry ∈ arr.items, EntryKinds entry

/-- What the parser gives: a document of the right kinds, or a syntax error. -/
def Loadable : Except JsonException Json → Prop
  | .ok j => DocumentKinds j
  | .error e => ∃ what, e = .parseError what

/-- `get<std::string>` throws unless it is given a string. -/
lemma getString_returns (v : Json) : Returns (getString v) ↔ v.isString := by
  cases v with
  | string s => exact iff_of_true (returns_ok s) rfl
  | _ => exact iff_of_false (not_returns_error _) Bool.false_ne_true

/-- `get<bool>` throws unless it is given a boolean. -/
lemma getBool_returns (v : Json) : Returns (getBool v) ↔ v.isBoolean := by
  cases v with
  | boolean b => exact iff_of_true (returns_ok b) rfl
  | _ => exact iff_of_false (not_returns_error _) Bool.false_ne_true

/-- `get<double>` throws unless it is given a number. -/
lemma getDouble_returns (v : Json) : Returns (getDouble v) ↔ v.isNumber := by
  cases v with
  | integer n => exact iff_of_true (returns_ok _) rfl
  | float x => exact iff_of_true (returns_ok _) rfl
  | _ => exact iff_of_false (not_returns_error _) Bool.false_ne_true

/-- `get` of an integer type throws unless it is given a number or a boolean. -/
lemma getInt_returns {α} (cast : Int → α) (v : Json) : Returns (getInt cast v) ↔ v.isIntegral := by
  cases v with
  | integer n => exact iff_of_true (returns_ok _) rfl
  | float x => exact iff_of_true (returns_ok _) rfl
  | boolean b => exact iff_of_true (returns_ok _) rfl
  | _ => exact iff_of_false (not_returns_error _) Bool.false_ne_true

/-- A field that is read, and what follows: the value is converted only if it is there. -/
lemma returns_read {α β} {j : Json} {key} {get : Json → Except JsonException α} {field}
    {f : α → Except JsonException β} {P : Json → Prop} {Q : Prop} (conv : ∀ v, Returns (get v) ↔ P v)
    (rest : ∀ a, Returns (f a) ↔ Q) :
    Returns (j.read key get field >>= f) ↔ j.Member key P ∧ Q := by
  refine (returns_bind rest).trans (and_congr_left' ?_)
  rw [Json.read]
  cases found : j.find key with
  | none => exact iff_of_true (returns_ok field) (member_absent found)
  | some v => exact (conv v).trans (member_found found).symm

/-- A value is returned. -/
lemma returns_pure {α} (a : α) : Returns (pure a : Except JsonException α) ↔ True :=
  iff_true_intro (returns_ok a)

/-- The subscripts of a range are read as two numbers: it is an array with two of them in front. -/
lemma subscripts_returns (range : Json) :
    Returns (do
      let start ← getUInt16 (← range.subscript 0)
      let stop ← getUInt16 (← range.subscript 1)
      return (start, stop) : Except JsonException (UInt16 × UInt16)) ↔
    ∃ u v rest, range = .array (u :: v :: rest) ∧ u.isIntegral ∧ v.isIntegral := by
  constructor
  · intro h
    obtain ⟨⟨i, j⟩, read⟩ := h
    obtain ⟨u, v, rest, e, hu, hv⟩ := subscripts_ok read
    exact ⟨u, v, rest, e, (getInt_returns _ u).mp ⟨i, hu⟩, (getInt_returns _ v).mp ⟨j, hv⟩⟩
  · intro h
    obtain ⟨u, v, rest, rfl, hu, hv⟩ := h
    show Returns (do
      let start ← getUInt16 u
      let stop ← getUInt16 v
      return (start, stop) : Except JsonException (UInt16 × UInt16))
    refine (returns_bind fun _ => returns_bind fun _ => returns_pure _).mpr ⟨?_, ?_, trivial⟩
    · exact (getInt_returns _ u).mpr hu
    · exact (getInt_returns _ v).mpr hv

/-- `parseRange` returns if the range has two numbers or, without a range, if the index is one. -/
lemma parseRange_returns (entry : Json) :
    Returns (parseRange entry) ↔
      (entry.Member "range" fun range =>
        ∃ u v rest, range = .array (u :: v :: rest) ∧ u.isIntegral ∧ v.isIntegral) ∧
      (entry.find "range" = none → entry.Member "index" (isIntegral ·)) := by
  rw [parseRange]
  cases range : entry.find "range" with
  | some r =>
    rw [member_found range, and_iff_left nofun]
    exact subscripts_returns r
  | none =>
    rw [and_iff_right (member_absent range), forall_prop_of_true rfl]
    cases index : entry.find "index" with
    | some i =>
      refine (returns_bind fun _ => returns_pure _).trans ?_
      rw [and_true, member_found index]
      exact getInt_returns _ i
    | none => exact iff_of_true (returns_ok _) (member_absent index)

/-- `parsePointConfig` returns if every member of the entry is of its kind. -/
lemma parsePointConfig_returns (entry : Json) :
    Returns (parsePointConfig entry) ↔ EntryKinds entry := by
  have deadband : ∀ v, Returns (some <$> getDouble v : Except JsonException (Option Double)) ↔
      v.isNumber := fun v => returns_map.trans (getDouble_returns v)
  refine (returns_bind fun _ => returns_read getString_returns fun _ => returns_read deadband fun _ =>
    returns_read getString_returns fun _ => returns_read getString_returns fun _ =>
      returns_pure _).trans ?_
  rw [parseRange_returns]
  constructor
  · intro h
    obtain ⟨⟨range, index⟩, eventClass, deadband, staticVariation, eventVariation, -⟩ := h
    exact ⟨range, index, by simp [*], deadband⟩
  · intro h
    obtain ⟨range, index, strings, deadband⟩ := h
    simp only [List.forall_mem_cons] at strings
    exact ⟨⟨range, index⟩, strings.1, deadband, strings.2.1, strings.2.2.1, trivial⟩

/-- `parsePointConfigs` returns if it does so for every entry. -/
lemma parsePointConfigs_returns (out : List PointConfig) (arr : Json) :
    Returns (parsePointConfigs out arr) ↔ ∀ entry ∈ arr.items, EntryKinds entry := by
  refine (returns_bind fun _ => returns_pure _).trans ?_
  rw [and_true, returns_mapM]
  exact forall₂_congr fun entry _ => parsePointConfig_returns entry

/-- `parseEventBuffer` returns if every size is a number. -/
lemma parseEventBuffer_returns (eb : EventBufferConfig) (j : Json) :
    Returns (parseEventBuffer eb j) ↔
      ∀ key ∈ ["max_binary_events", "max_double_binary_events", "max_analog_events",
        "max_counter_events", "max_frozen_counter_events", "max_binary_output_status_events",
        "max_analog_output_status_events", "max_octet_string_events"],
      j.Member key (isIntegral ·) := by
  have size := getInt_returns UInt16.ofInt
  refine (returns_read size fun _ => returns_read size fun _ => returns_read size fun _ =>
    returns_read size fun _ => returns_read size fun _ => returns_read size fun _ =>
      returns_read size fun _ => returns_read size fun _ => returns_pure _).trans ?_
  simp only [List.forall_mem_cons, List.not_mem_nil, false_implies, implies_true]

/-- `parseUnsolicited` returns if both members are of their kind. -/
lemma parseUnsolicited_returns (us : UnsolicitedConfig) (j : Json) :
    Returns (parseUnsolicited us j) ↔ UnsolicitedKinds j := by
  have mask : ∀ v : Json, Returns (v.items.mapM getString) ↔ ∀ c ∈ v.items, c.isString :=
    fun v => returns_mapM.trans (forall₂_congr fun c _ => getString_returns c)
  refine (returns_read getBool_returns fun _ => returns_read mask fun _ => returns_pure _).trans ?_
  constructor
  · intro h
    exact ⟨h.1, h.2.1⟩
  · intro h
    exact ⟨h.enabled, h.classMask, trivial⟩

/-- `parsePointDatabase` returns if it can read the entries of all four sections. -/
lemma parsePointDatabase_returns (db : PointDatabaseConfig) (j : Json) :
    Returns (parsePointDatabase db j) ↔
      ∀ key ∈ ["binary_input", "binary_output_status", "analog_input", "analog_output_status"],
        j.Member key fun arr => ∀ entry ∈ arr.items, EntryKinds entry := by
  refine (returns_read (parsePointConfigs_returns _) fun _ =>
    returns_read (parsePointConfigs_returns _) fun _ => returns_read (parsePointConfigs_returns _)
      fun _ => returns_read (parsePointConfigs_returns _) fun _ => returns_pure _).trans ?_
  simp only [List.forall_mem_cons, List.not_mem_nil, false_implies, implies_true]

/-- The document is read without an exception exactly if its values have the right kinds. -/
theorem readDocument_returns (j : Json) (cfg : AppConfig) :
    Returns (readDocument j cfg) ↔ DocumentKinds j := by
  have short := getInt_returns UInt16.ofInt
  have long := getInt_returns UInt32.ofInt
  refine (returns_read getString_returns fun _ => returns_read getString_returns fun _ =>
    returns_read short fun _ => returns_read short fun _ => returns_read short fun _ =>
    returns_read getString_returns fun _ => returns_read getString_returns fun _ =>
    returns_read long fun _ => returns_read long fun _ => returns_read long fun _ =>
    returns_read getString_returns fun _ => returns_read (parseEventBuffer_returns _) fun _ =>
    returns_read (parseUnsolicited_returns _) fun _ =>
    returns_read (parsePointDatabase_returns _) fun _ => returns_pure _).trans ?_
  constructor
  · intro h
    obtain ⟨grpc, host, port, local', remote, level, file, size, files, timeout, mode, buffer,
      unsolicited, points, -⟩ := h
    refine ⟨?_, ?_, buffer, unsolicited, points⟩
    · simp only [List.forall_mem_cons, List.not_mem_nil, false_implies, implies_true]
      exact ⟨grpc, host, level, file, mode, trivial⟩
    · simp only [List.forall_mem_cons, List.not_mem_nil, false_implies, implies_true]
      exact ⟨port, local', remote, size, files, timeout, trivial⟩
  · intro h
    obtain ⟨strings, numbers, buffer, unsolicited, points⟩ := h
    simp only [List.forall_mem_cons, List.not_mem_nil, false_implies, implies_true] at strings numbers
    obtain ⟨grpc, host, level, file, mode, -⟩ := strings
    obtain ⟨port, local', remote, size, files, timeout, -⟩ := numbers
    exact ⟨grpc, host, port, local', remote, level, file, size, files, timeout, mode, buffer,
      unsolicited, points, trivial⟩

/-- `loadFromJson` returns for a file that can be opened if every member of it is of its kind. -/
lemma loadFromJson_returns {h : Host} {path text} (opened : h.file path = some text)
    (cfg : AppConfig) : Returns (loadFromJson h path cfg) ↔ Loadable (h.parse text) := by
  simp only [loadFromJson, opened]
  cases h.parse text with
  | ok j => exact returns_map.trans (readDocument_returns j cfg)
  | error e =>
    -- only a syntax error is caught
    cases e with
    | parseError what => exact iff_of_true (returns_ok _) ⟨what, rfl⟩
    | outOfRange | typeError =>
      refine iff_of_false (not_returns_error _) fun h => ?_
      obtain ⟨_, e⟩ := h
      cases e

/-- The loader returns, a configuration or an error, exactly if there is no file to read, or the parser
gives a syntax error or a document of the right kinds. -/
theorem load_returns_iff (h : Host) (path : Option String) :
    (∃ result, load h path = .ok result) ↔
      ∀ p text, path = some p → h.file p = some text → Loadable (h.parse text) := by
  show Returns (load h path) ↔ _
  cases path with
  | none => exact iff_of_true (returns_ok _) nofun
  | some p =>
    rw [load, returns_map]
    cases opened : h.file p with
    | none =>
      rw [loadFromJson, opened]
      refine iff_of_true (returns_ok _) fun p' text e found => ?_
      cases e
      rw [opened] at found
      cases found
    | some text =>
      rw [loadFromJson_returns opened]
      refine ⟨fun loadable p' text' e found => ?_, fun all => all p text rfl opened⟩
      cases e
      rw [opened] at found
      cases found
      exact loadable

/-- A configuration file that writes the port as a string. -/
def stringPort : Host where
  parse _ := .ok (.object [("dnp3_channel_port", .string "20000")])
  file _ := some "\x7b\"dnp3_channel_port\": \"20000\"\x7d"
  getenv _ := none
  ulongBits := 64

/-- Loading it ends with an exception. -/
theorem stringPort_escapes :
    load stringPort (some "config.json") = .error (.typeError 302) ∧
      ¬ ∃ result, load stringPort (some "config.json") = .ok result := by
  have escapes : load stringPort (some "config.json") = .error (.typeError 302) := rfl
  refine ⟨escapes, ?_⟩
  rw [escapes]
  exact not_returns_error _

end Dnp3Bridge.Config
