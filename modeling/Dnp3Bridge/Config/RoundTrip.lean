import Dnp3Bridge.Config.Loader

/-!
# Configurations as documents

A configuration can be written as a document that the loader reads back as it is, as long as its
deadbands are numbers; every configuration that the loader returns is one of these. The environment
layer changes nothing when it is applied again, so a configuration that has been loaded and written is
loaded again under the same environment.
-/

namespace Dnp3Bridge.Config
open Json Errors

/-- Every deadband is a number. -/
def PointDatabaseConfig.Finite (db : PointDatabaseConfig) : Prop :=
  ∀ pc ∈ db.binaryInput ++ db.binaryOutputStatus ++ db.analogInput ++ db.analogOutputStatus,
    ∀ d, pc.deadband = some d → d.isFinite = true

/-- A deadband that is set; JSON has no infinities and no NaN. -/
def deadbandMember : Option Double → List (String × Json)
  | some (.finite x) => [("deadband", .float x)]
  | _ => []

/-- An entry of a section. -/
def PointConfig.document (pc : PointConfig) : Json :=
  .object (("class", .string pc.eventClass) :: deadbandMember pc.deadband ++
    [("event_variation", .string pc.eventVariation),
      ("range", .array [.integer pc.start.toNat, .integer pc.stop.toNat]),
      ("static_variation", .string pc.staticVariation)])

def sectionDocument (pcs : List PointConfig) : Json :=
  .array (pcs.map PointConfig.document)

def PointDatabaseConfig.document (db : PointDatabaseConfig) : Json :=
  .object
    [("analog_input", sectionDocument db.analogInput),
      ("analog_output_status", sectionDocument db.analogOutputStatus),
      ("binary_input", sectionDocument db.binaryInput),
      ("binary_output_status", sectionDocument db.binaryOutputStatus)]

def EventBufferConfig.document (eb : EventBufferConfig) : Json :=
  .object
    [("max_analog_events", .integer eb.maxAnalogEvents.toNat),
      ("max_analog_output_status_events", .integer eb.maxAnalogOutputStatusEvents.toNat),
      ("max_binary_events", .integer eb.maxBinaryEvents.toNat),
      ("max_binary_output_status_events", .integer eb.maxBinaryOutputStatusEvents.toNat),
      ("max_counter_events", .integer eb.maxCounterEvents.toNat),
      ("max_double_binary_events", .integer eb.maxDoubleBinaryEvents.toNat),
      ("max_frozen_counter_events", .integer eb.maxFrozenCounterEvents.toNat),
      ("max_octet_string_events", .integer eb.maxOctetStringEvents.toNat)]

def UnsolicitedConfig.document (us : UnsolicitedConfig) : Json :=
  .object [("class_mask", .array (us.classMask.map .string)), ("enabled", .boolean us.enabled)]

/-- The configuration as a document; the members of every object stand in the order of their keys. -/
def AppConfig.document (cfg : AppConfig) : Json :=
  .object
    [("command_mode", .string cfg.commandMode),
      ("command_timeout_ms", .integer cfg.commandTimeoutMs.toNat),
      ("dnp3_channel_host", .string cfg.dnp3ChannelHost),
      ("dnp3_channel_port", .integer cfg.dnp3ChannelPort.toNat),
      ("dnp3_local_address", .integer cfg.dnp3LocalAddress.toNat),
      ("dnp3_remote_address", .integer cfg.dnp3RemoteAddress.toNat),
      ("event_buffer", cfg.eventBuffer.document),
      ("grpc_listen_address", .string cfg.grpcListenAddress),
      ("log_file", .string cfg.logFile),
      ("log_level", .string cfg.logLevel),
      ("log_max_files", .integer cfg.logMaxFiles.toNat),
      ("log_max_size_mb", .integer cfg.logMaxSizeMb.toNat),
      ("point_database", cfg.pointDatabase.document),
      ("unsolicited", cfg.unsolicited.document)]

/-- A member that is there is converted. -/
lemma read_found {α} {j : Json} {key get v} {field : α} (found : j.find key = some v) :
    j.read key get field = get v := by
  rw [Json.read, found]

/-- A number of 16 bits is read as it was written. -/
lemma getUInt16_toNat (n : UInt16) : getUInt16 (.integer n.toNat) = .ok n := by
  have back : UInt16.ofInt (n.toNat : Int) = n := by
    have lt := n.toNat_lt
    have small : ((n.toNat : Int) % 65536).toNat = n.toNat := by omega
    show UInt16.ofNat ((n.toNat : Int) % 65536).toNat = n
    rw [small, UInt16.ofNat_toNat]
  rw [getUInt16, getInt, back]

/-- A number of 32 bits is read as it was written. -/
lemma getUInt32_toNat (n : UInt32) : getUInt32 (.integer n.toNat) = .ok n := by
  have back : UInt32.ofInt (n.toNat : Int) = n := by
    have lt := n.toNat_lt
    have small : ((n.toNat : Int) % 4294967296).toNat = n.toNat := by omega
    show UInt32.ofNat ((n.toNat : Int) % 4294967296).toNat = n
    rw [small, UInt32.ofNat_toNat]
  rw [getUInt32, getInt, back]

/-- A traversal that gives back what its elements were made of gives back the list. -/
lemma mapM_map_ok {ε α β γ : Type} {f : β → Except ε γ} {g : α → β} {h : α → γ} {l : List α}
    (back : ∀ x ∈ l, f (g x) = .ok (h x)) : (l.map g).mapM f = .ok (l.map h) := by
  induction l with
  | nil => rfl
  | cons x l ih =>
    obtain ⟨first, rest⟩ := List.forall_mem_cons.mp back
    rw [List.map_cons, List.mapM_cons, first, ih rest]
    rfl

/-- A deadband that is a number is read as it was written, and so is one that is not set. -/
lemma read_deadband {pc : PointConfig} (finite : ∀ d, pc.deadband = some d → d.isFinite = true) :
    pc.document.read "deadband" (fun v => some <$> getDouble v) none = .ok pc.deadband := by
  unfold PointConfig.document
  cases e : pc.deadband with
  | none => rfl
  | some d =>
    obtain ⟨x, rfl⟩ := Double.eq_finite (finite d e)
    rfl

/-- The members of the document of an entry. -/
lemma PointConfig.find_document (pc : PointConfig) :
    pc.document.find "class" = some (.string pc.eventClass) ∧
      pc.document.find "range" = some (.array [.integer pc.start.toNat, .integer pc.stop.toNat]) ∧
      pc.document.find "static_variation" = some (.string pc.staticVariation) ∧
      pc.document.find "event_variation" = some (.string pc.eventVariation) := by
  unfold PointConfig.document deadbandMember
  split <;> exact ⟨rfl, rfl, rfl, rfl⟩

/-- An entry is read as it was written. -/
lemma parsePointConfig_document {pc : PointConfig}
    (finite : ∀ d, pc.deadband = some d → d.isFinite = true) :
    parsePointConfig pc.document = .ok pc := by
  obtain ⟨eventClass, range, staticVariation, eventVariation⟩ := pc.find_document
  have points : parseRange pc.document = .ok (pc.start, pc.stop) := by
    rw [parseRange, range]
    show (do
      let start ← getUInt16 (.integer pc.start.toNat)
      let stop ← getUInt16 (.integer pc.stop.toNat)
      return (start, stop)) = _
    rw [getUInt16_toNat, getUInt16_toNat]
    rfl
  rw [parsePointConfig, points, read_found eventClass, read_deadband finite,
    read_found staticVariation, read_found eventVariation]
  rfl

/-- A section is read as it was written. -/
lemma parsePointConfigs_document {pcs : List PointConfig}
    (finite : ∀ pc ∈ pcs, ∀ d, pc.deadband = some d → d.isFinite = true) :
    parsePointConfigs [] (sectionDocument pcs) = .ok pcs := by
  have entries : (pcs.map PointConfig.document).mapM parsePointConfig = .ok (pcs.map id) :=
    mapM_map_ok fun pc mem => parsePointConfig_document (finite pc mem)
  rw [parsePointConfigs, sectionDocument, Json.items, entries, List.map_id]
  rfl

/-- What follows a part that has a result. -/
lemma bind_of_ok {ε α β : Type} {x : Except ε α} {a : α} (e : x = .ok a) (f : α → Except ε β) :
    x >>= f = f a := by
  rw [e]
  rfl

/-- A point database is read as it was written. -/
lemma parsePointDatabase_document {db : PointDatabaseConfig} (finite : db.Finite) :
    parsePointDatabase {} db.document = .ok db := by
  unfold PointDatabaseConfig.Finite at finite
  simp only [List.forall_mem_append] at finite
  obtain ⟨⟨⟨bi, bo⟩, ai⟩, ao⟩ := finite
  have entries : ∀ {key} pcs, db.document.find key = some (sectionDocument pcs) →
      (∀ pc ∈ pcs, ∀ d, pc.deadband = some d → d.isFinite = true) →
      db.document.read key (parsePointConfigs []) [] = .ok pcs := by
    intro key pcs found finite
    rw [read_found found, parsePointConfigs_document finite]
  refine (bind_of_ok (entries db.binaryInput rfl bi) _).trans ?_
  refine (bind_of_ok (entries db.binaryOutputStatus rfl bo) _).trans ?_
  refine (bind_of_ok (entries db.analogInput rfl ai) _).trans ?_
  exact bind_of_ok (entries db.analogOutputStatus rfl ao) _

/-- The sizes of the event buffers are read as they were written. -/
lemma parseEventBuffer_document (old eb : EventBufferConfig) :
    parseEventBuffer old eb.document = .ok eb := by
  have size : ∀ {key field} {n : UInt16}, eb.document.find key = some (.integer n.toNat) →
      eb.document.read key getUInt16 field = .ok n := by
    intro key field n found
    rw [read_found found, getUInt16_toNat]
  refine (bind_of_ok (size (n := eb.maxBinaryEvents) rfl) _).trans ?_
  refine (bind_of_ok (size (n := eb.maxDoubleBinaryEvents) rfl) _).trans ?_
  refine (bind_of_ok (size (n := eb.maxAnalogEvents) rfl) _).trans ?_
  refine (bind_of_ok (size (n := eb.maxCounterEvents) rfl) _).trans ?_
  refine (bind_of_ok (size (n := eb.maxFrozenCounterEvents) rfl) _).trans ?_
  refine (bind_of_ok (size (n := eb.maxBinaryOutputStatusEvents) rfl) _).trans ?_
  refine (bind_of_ok (size (n := eb.maxAnalogOutputStatusEvents) rfl) _).trans ?_
  exact bind_of_ok (size (n := eb.maxOctetStringEvents) rfl) _

/-- The settings for unsolicited responses are read as they were written. -/
lemma parseUnsolicited_document (old us : UnsolicitedConfig) :
    parseUnsolicited old us.document = .ok us := by
  have names : (us.classMask.map Json.string).mapM getString = .ok (us.classMask.map id) :=
    mapM_map_ok fun _ _ => rfl
  rw [List.map_id] at names
  have enabled : us.document.read "enabled" getBool old.enabled = .ok us.enabled :=
    (read_found rfl).trans rfl
  have mask : us.document.read "class_mask" (fun mask => mask.items.mapM getString) old.classMask =
      .ok us.classMask := (read_found (v := .array (us.classMask.map .string)) rfl).trans names
  exact (bind_of_ok enabled _).trans (bind_of_ok mask _)

/-- A document of a configuration is read back as this configuration, whatever was there before. -/
lemma readDocument_document {cfg : AppConfig} (finite : cfg.pointDatabase.Finite) :
    readDocument cfg.document {} = .ok cfg := by
  have text : ∀ {key field s}, cfg.document.find key = some (.string s) →
      cfg.document.read key getString field = .ok s := by
    intro key field s found
    rw [read_found found, getString]
  have short : ∀ {key field} {n : UInt16}, cfg.document.find key = some (.integer n.toNat) →
      cfg.document.read key getUInt16 field = .ok n := by
    intro key field n found
    rw [read_found found, getUInt16_toNat]
  have long : ∀ {key field} {n : UInt32}, cfg.document.find key = some (.integer n.toNat) →
      cfg.document.read key getUInt32 field = .ok n := by
    intro key field n found
    rw [read_found found, getUInt32_toNat]
  have buffer : cfg.document.read "event_buffer" (parseEventBuffer {}) {} = .ok cfg.eventBuffer :=
    (read_found rfl).trans (parseEventBuffer_document {} _)
  have unsolicited : cfg.document.read "unsolicited" (parseUnsolicited {}) {} = .ok cfg.unsolicited :=
    (read_found rfl).trans (parseUnsolicited_document {} _)
  have points : cfg.document.read "point_database" (parsePointDatabase {}) {} =
      .ok cfg.pointDatabase := (read_found rfl).trans (parsePointDatabase_document finite)
  refine (bind_of_ok (text (s := cfg.grpcListenAddress) rfl) _).trans ?_
  refine (bind_of_ok (text (s := cfg.dnp3ChannelHost) rfl) _).trans ?_
  refine (bind_of_ok (short (n := cfg.dnp3ChannelPort) rfl) _).trans ?_
  refine (bind_of_ok (short (n := cfg.dnp3LocalAddress) rfl) _).trans ?_
  refine (bind_of_ok (short (n := cfg.dnp3RemoteAddress) rfl) _).trans ?_
  refine (bind_of_ok (text (s := cfg.logLevel) rfl) _).trans ?_
  refine (bind_of_ok (text (s := cfg.logFile) rfl) _).trans ?_
  refine (bind_of_ok (long (n := cfg.logMaxSizeMb) rfl) _).trans ?_
  refine (bind_of_ok (long (n := cfg.logMaxFiles) rfl) _).trans ?_
  refine (bind_of_ok (long (n := cfg.commandTimeoutMs) rfl) _).trans ?_
  refine (bind_of_ok (text (s := cfg.commandMode) rfl) _).trans ?_
  refine (bind_of_ok buffer _).trans ?_
  refine (bind_of_ok unsolicited _).trans ?_
  exact bind_of_ok points _

/-- The deadbands that are read from a section are numbers. -/
lemma mapM_finite {entries : List Json} {pcs} (parsed : entries.mapM parsePointConfig = .ok pcs) :
    ∀ pc ∈ pcs, ∀ d, pc.deadband = some d → d.isFinite = true := by
  intro pc mem d set
  obtain ⟨entry, -, e⟩ := exists_of_mapM_ok parsed mem
  exact parsePointConfig_finite e set

/-- The deadbands of a configuration that `load` returns are numbers. -/
lemma load_points_finite {h path cfg} (loaded : load h path = .ok (.ok cfg)) :
    cfg.pointDatabase.Finite := by
  obtain ⟨bi, bo, ai, ao⟩ := load_entries loaded
  unfold PointDatabaseConfig.Finite
  simp only [List.forall_mem_append]
  exact ⟨⟨⟨mapM_finite bi, mapM_finite bo⟩, mapM_finite ai⟩, mapM_finite ao⟩

/-- A variable with a string overrides the field once and for all. -/
lemma envOr_twice (h : Host) (name fallback : String) :
    envOr h name (envOr h name fallback) = envOr h name fallback := by
  unfold envOr
  cases h.getenv name <;> rfl

/-- A variable with a number overrides the field once and for all. -/
lemma envUInt_twice {α} (cast : Nat → α) (h : Host) (name : String) (fallback : α) :
    envUInt cast h name (envUInt cast h name fallback) = envUInt cast h name fallback := by
  unfold envUInt
  cases h.getenv name with
  | none => rfl
  | some val =>
    dsimp only
    cases stoul h.ulongBits val <;> rfl

/-- The environment layer changes nothing when it is applied again. -/
lemma overlay_twice (h : Host) (cfg : AppConfig) : overlay h (overlay h cfg) = overlay h cfg := by
  unfold overlay envUInt16 envUInt32
  simp only [envOr_twice, envUInt_twice]

/-- The document of a configuration is loaded as this configuration, but for the environment. -/
lemma load_document {h : Host} {path text} {cfg : AppConfig} (opened : h.file path = some text)
    (parsed : h.parse text = .ok cfg.document) (finite : cfg.pointDatabase.Finite) :
    load h (some path) = .ok (.ok (overlay h cfg)) := by
  rw [load, loadFromJson, opened]
  simp only [parsed, readDocument_document finite]
  rfl

/-- A host without variables whose only document is that of the configuration. -/
def hostWith (cfg : AppConfig) : Host where
  parse _ := .ok cfg.document
  file _ := some ""
  getenv _ := none
  ulongBits := 64

/-- Without variables the environment layer changes nothing. -/
lemma overlay_unset {h : Host} (unset : ∀ name, h.getenv name = none) (cfg : AppConfig) :
    overlay h cfg = cfg := by
  unfold overlay envUInt16 envUInt32 envUInt envOr
  simp only [unset, Option.getD_none]

/-- The environment layer depends on the variables and the width of `unsigned long` only. -/
lemma overlay_congr {h h' : Host} (vars : h'.getenv = h.getenv) (bits : h'.ulongBits = h.ulongBits)
    (cfg : AppConfig) : overlay h' cfg = overlay h cfg := by
  unfold overlay envUInt16 envUInt32 envUInt envOr
  simp only [vars, bits]

/-- A configuration is one that some file gives exactly if its deadbands are numbers. One that has been
loaded, from whatever file and under whatever environment, is loaded again from its own document, under
the same environment and under none. -/
theorem loaded_reloads :
    (∀ cfg : AppConfig, (∃ h path, (∀ name, h.getenv name = none) ∧
      load h (some path) = .ok (.ok cfg)) ↔ cfg.pointDatabase.Finite) ∧
      ∀ h path cfg, load h path = .ok (.ok cfg) → ∀ h' path' text, h'.file path' = some text →
        h'.parse text = .ok cfg.document →
        (h'.getenv = h.getenv ∧ h'.ulongBits = h.ulongBits) ∨ (∀ name, h'.getenv name = none) →
        load h' (some path') = .ok (.ok cfg) := by
  refine ⟨fun cfg => ⟨fun given => ?_, fun finite => ?_⟩, ?_⟩
  · obtain ⟨h, path, -, loaded⟩ := given
    exact load_points_finite loaded
  · have unset : ∀ name, (hostWith cfg).getenv name = none := fun _ => rfl
    have loaded : load (hostWith cfg) (some "") = .ok (.ok (overlay (hostWith cfg) cfg)) :=
      load_document rfl rfl finite
    rw [overlay_unset unset] at loaded
    exact ⟨hostWith cfg, "", unset, loaded⟩
  · intro h path cfg loaded h' path' text opened parsed env
    rw [load_document opened parsed (load_points_finite loaded)]
    have kept : overlay h' cfg = cfg := by
      obtain ⟨vars, bits⟩ | unset := env
      · obtain ⟨cfg0, -, rfl⟩ := load_inv loaded
        rw [overlay_congr vars bits, overlay_twice]
      · exact overlay_unset unset cfg
    rw [kept]

end Dnp3Bridge.Config
