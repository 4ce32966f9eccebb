import Dnp3Bridge.Config.AppConfig
import Dnp3Bridge.Config.Json
import Dnp3Bridge.Errors.Except
import Mathlib.Algebra.Group.Nat.Defs

/-!
# The configuration loader

The code of `config/ConfigLoader.cpp`. The loader has two channels for errors: an exception of the
JSON library that it does not catch is an error of the outer `Except`, the `std::unexpected` it returns
is one of the inner.
-/

namespace Dnp3Bridge.Config
open Json Errors

/-- What the loader gets from outside: the JSON parser, the files that can be opened, the environment,
and the number of bits of `unsigned long`. -/
structure Host where
  parse : String → Except JsonException Json
  file : String → Option String
  getenv : String → Option String
  ulongBits : Nat

/-- White space, as `std::isspace` has it. -/
def isSpace (c : Char) : Bool :=
  c = ' ' || ('\t' ≤ c && c ≤ '\r')

/-- The value of a list of decimal digits. -/
def digitsValue (ds : List Char) : Nat :=
  ds.foldl (fun v c => 10 * v + (c.toNat - '0'.toNat)) 0

/-- `std::stoul`; `none` stands for either of its exceptions. A minus sign wraps. -/
def stoul (bits : Nat) (s : String) : Option Nat :=
  let cs := s.toList.dropWhile isSpace
  let (negative, cs) := match cs with
    | '-' :: cs => (true, cs)
    | '+' :: cs => (false, cs)
    | cs => (false, cs)
  let ds := cs.takeWhile Char.isDigit
  let v := digitsValue ds
  if ds = [] ∨ 2 ^ bits ≤ v then none
  else some (if negative then (2 ^ bits - v) % 2 ^ bits else v)

def envOr (h : Host) (name fallback : String) : String :=
  (h.getenv name).getD fallback

/-- `env_uint16` and `env_uint32`: an exception of `stoul` keeps the fallback, and what `stoul` returns
is cast. -/
def envUInt {α} (cast : Nat → α) (h : Host) (name : String) (fallback : α) : α :=
  match h.getenv name with
  | none => fallback
  | some val =>
    match stoul h.ulongBits val with
    | none => fallback
    | some v => cast v

def envUInt16 : Host → String → UInt16 → UInt16 := envUInt UInt16.ofNat

def envUInt32 : Host → String → UInt32 → UInt32 := envUInt UInt32.ofNat

/-- The `range` or `index` of an entry. -/
def parseRange (entry : Json) : Except JsonException (UInt16 × UInt16) :=
  match entry.find "range" with
  | some range => do
    let start ← getUInt16 (← range.subscript 0)
    let stop ← getUInt16 (← range.subscript 1)
    return (start, stop)
  | none =>
    match entry.find "index" with
    | some index => do
      let start ← getUInt16 index
      return (start, start)
    | none => return (0, 0)

/-- One round of the loop of `parsePointConfigs`. -/
def parsePointConfig (entry : Json) : Except JsonException PointConfig := do
  let (start, stop) ← parseRange entry
  let eventClass ← entry.read "class" getString ""
  let deadband ← entry.read "deadband" (fun v => some <$> getDouble v) none
  let staticVariation ← entry.read "static_variation" getString ""
  let eventVariation ← entry.read "event_variation" getString ""
  return { start, stop, eventClass, deadband, staticVariation, eventVariation }

def parsePointConfigs (out : List PointConfig) (arr : Json) :
    Except JsonException (List PointConfig) := do
  let pcs ← arr.items.mapM parsePointConfig
  return out ++ pcs

def parseEventBuffer (eb : EventBufferConfig) (j : Json) :
    Except JsonException EventBufferConfig := do
  let maxBinaryEvents ← j.read "max_binary_events" getUInt16 eb.maxBinaryEvents
  let maxDoubleBinaryEvents ←
    j.read "max_double_binary_events" getUInt16 eb.maxDoubleBinaryEvents
  let maxAnalogEvents ← j.read "max_analog_events" getUInt16 eb.maxAnalogEvents
  let maxCounterEvents ← j.read "max_counter_events" getUInt16 eb.maxCounterEvents
  let maxFrozenCounterEvents ←
    j.read "max_frozen_counter_events" getUInt16 eb.maxFrozenCounterEvents
  let maxBinaryOutputStatusEvents ←
    j.read "max_binary_output_status_events" getUInt16 eb.maxBinaryOutputStatusEvents
  let maxAnalogOutputStatusEvents ←
    j.read "max_analog_output_status_events" getUInt16 eb.maxAnalogOutputStatusEvents
  let maxOctetStringEvents ← j.read "max_octet_string_events" getUInt16 eb.maxOctetStringEvents
  return {
    maxBinaryEvents, maxDoubleBinaryEvents, maxAnalogEvents, maxCounterEvents,
    maxFrozenCounterEvents, maxBinaryOutputStatusEvents, maxAnalogOutputStatusEvents,
    maxOctetStringEvents }

def parseUnsolicited (us : UnsolicitedConfig) (j : Json) :
    Except JsonException UnsolicitedConfig := do
  let enabled ← j.read "enabled" getBool us.enabled
  let classMask ← j.read "class_mask" (fun mask => mask.items.mapM getString) us.classMask
  return { enabled, classMask }

def parsePointDatabase (db : PointDatabaseConfig) (j : Json) :
    Except JsonException PointDatabaseConfig := do
  let binaryInput ← j.read "binary_input" (parsePointConfigs db.binaryInput) db.binaryInput
  let binaryOutputStatus ←
    j.read "binary_output_status" (parsePointConfigs db.binaryOutputStatus) db.binaryOutputStatus
  let analogInput ← j.read "analog_input" (parsePointConfigs db.analogInput) db.analogInput
  let analogOutputStatus ←
    j.read "analog_output_status" (parsePointConfigs db.analogOutputStatus) db.analogOutputStatus
  return { binaryInput, binaryOutputStatus, analogInput, analogOutputStatus }

/-- What `load_from_json` does with the document it has parsed. -/
def readDocument (j : Json) (cfg : AppConfig) : Except JsonException AppConfig := do
  let grpcListenAddress ← j.read "grpc_listen_address" getString cfg.grpcListenAddress
  let dnp3ChannelHost ← j.read "dnp3_channel_host" getString cfg.dnp3ChannelHost
  let dnp3ChannelPort ← j.read "dnp3_channel_port" getUInt16 cfg.dnp3ChannelPort
  let dnp3LocalAddress ← j.read "dnp3_local_address" getUInt16 cfg.dnp3LocalAddress
  let dnp3RemoteAddress ← j.read "dnp3_remote_address" getUInt16 cfg.dnp3RemoteAddress
  let logLevel ← j.read "log_level" getString cfg.logLevel
  let logFile ← j.read "log_file" getString cfg.logFile
  let logMaxSizeMb ← j.read "log_max_size_mb" getUInt32 cfg.logMaxSizeMb
  let logMaxFiles ← j.read "log_max_files" getUInt32 cfg.logMaxFiles
  let commandTimeoutMs ← j.read "command_timeout_ms" getUInt32 cfg.commandTimeoutMs
  let commandMode ← j.read "command_mode" getString cfg.commandMode
  let eventBuffer ← j.read "event_buffer" (parseEventBuffer cfg.eventBuffer) cfg.eventBuffer
  let unsolicited ← j.read "unsolicited" (parseUnsolicited cfg.unsolicited) cfg.unsolicited
  let pointDatabase ←
    j.read "point_database" (parsePointDatabase cfg.pointDatabase) cfg.pointDatabase
  return {
    grpcListenAddress, dnp3ChannelHost, dnp3ChannelPort, dnp3LocalAddress, dnp3RemoteAddress,
    logLevel, logFile, logMaxSizeMb, logMaxFiles, commandTimeoutMs, commandMode, eventBuffer,
    unsolicited, pointDatabase }

/-- `load_from_json`. -/
def loadFromJson (h : Host) (path : String) (cfg : AppConfig) :
    Except JsonException (Except String AppConfig) :=
  match h.file path with
  | none => .ok (.error ("cannot open config file: " ++ path))
  | some text =>
    match h.parse text with
    | .error (.parseError what) => .ok (.error ("JSON parse error: " ++ what))
    | .error e => .error e
    | .ok j => .ok <$> readDocument j cfg

/-- The environment layer of `load`. -/
def overlay (h : Host) (cfg : AppConfig) : AppConfig :=
  { cfg with
    grpcListenAddress := envOr h "DNP3_BRIDGE_GRPC_ADDRESS" cfg.grpcListenAddress
    dnp3ChannelHost := envOr h "DNP3_BRIDGE_DNP3_HOST" cfg.dnp3ChannelHost
    dnp3ChannelPort := envUInt16 h "DNP3_BRIDGE_DNP3_PORT" cfg.dnp3ChannelPort
    dnp3LocalAddress := envUInt16 h "DNP3_BRIDGE_DNP3_LOCAL_ADDR" cfg.dnp3LocalAddress
    dnp3RemoteAddress := envUInt16 h "DNP3_BRIDGE_DNP3_REMOTE_ADDR" cfg.dnp3RemoteAddress
    logLevel := envOr h "DNP3_BRIDGE_LOG_LEVEL" cfg.logLevel
    logFile := envOr h "DNP3_BRIDGE_LOG_FILE" cfg.logFile
    logMaxSizeMb := envUInt32 h "DNP3_BRIDGE_LOG_MAX_SIZE_MB" cfg.logMaxSizeMb
    logMaxFiles := envUInt32 h "DNP3_BRIDGE_LOG_MAX_FILES" cfg.logMaxFiles
    commandTimeoutMs := envUInt32 h "DNP3_BRIDGE_COMMAND_TIMEOUT_MS" cfg.commandTimeoutMs
    commandMode := envOr h "DNP3_BRIDGE_COMMAND_MODE" cfg.commandMode }

/-- `ConfigLoader::load`. -/
def load (h : Host) (path : Option String) : Except JsonException (Except String AppConfig) :=
  match path with
  | none => .ok (.ok (overlay h {}))
  | some path => (fun result => result.map (overlay h)) <$> loadFromJson h path {}

/-- The document that `load` reads; without a configuration file it sets nothing. -/
def Host.document (h : Host) (path : Option String) : Json :=
  match path.bind h.file with
  | none => .null
  | some text => (h.parse text).toOption.getD .null

/-- The fields of the configuration that a document sets. -/
lemma readDocument_inv {j cfg cfg'} (e : readDocument j cfg = .ok cfg') :
    j.read "command_mode" getString cfg.commandMode = .ok cfg'.commandMode ∧
      j.read "unsolicited" (parseUnsolicited cfg.unsolicited) cfg.unsolicited =
        .ok cfg'.unsolicited ∧
      j.read "point_database" (parsePointDatabase cfg.pointDatabase) cfg.pointDatabase =
        .ok cfg'.pointDatabase := by
  iterate 10 obtain ⟨_, -, e⟩ := bind_ok e
  obtain ⟨_, mode, e⟩ := bind_ok e
  obtain ⟨_, -, e⟩ := bind_ok e
  obtain ⟨_, unsolicited, e⟩ := bind_ok e
  obtain ⟨_, points, e⟩ := bind_ok e
  cases e
  exact ⟨mode, unsolicited, points⟩

/-- A configuration that has been loaded is that of the document under that of the environment. -/
lemma load_inv {h path cfg} (e : load h path = .ok (.ok cfg)) :
    ∃ cfg0, readDocument (h.document path) {} = .ok cfg0 ∧ cfg = overlay h cfg0 := by
  cases path with
  | none =>
    cases e
    exact ⟨{}, rfl, rfl⟩
  | some path =>
    obtain ⟨result, loaded, e⟩ := map_ok e
    rw [loadFromJson] at loaded
    rw [Host.document, Option.bind_some]
    cases file : h.file path with
    | none =>
      rw [file] at loaded
      cases loaded
      cases e
    | some text =>
      rw [file] at loaded
      simp only at loaded ⊢
      split at loaded
      case h_1 =>
        cases loaded
        cases e
      case h_2 => cases loaded
      case h_3 j parsed =>
        obtain ⟨cfg0, read, rfl⟩ := map_ok loaded
        cases e
        exact ⟨cfg0, parsed ▸ read, rfl⟩

/-- The entries of a section of the point database. -/
def sectionEntries (points : Json) (key : String) : List Json :=
  ((points.find key).map items).getD []

/-- The entries of a section are read one by one. -/
lemma read_section {points key pcs}
    (e : points.read key (parsePointConfigs []) [] = .ok pcs) :
    (sectionEntries points key).mapM parsePointConfig = .ok pcs := by
  rw [sectionEntries]
  obtain ⟨absent, rfl⟩ | ⟨arr, found, parsed⟩ := read_cases e
  · rw [absent]
    rfl
  · obtain ⟨new, parsed, e⟩ := bind_ok parsed
    rw [found, ← Except.ok.inj e]
    exact parsed

/-- The entries of the four sections, parsed. -/
structure ParsedEntries (points : Json) (db : PointDatabaseConfig) : Prop where
  binaryInput : (sectionEntries points "binary_input").mapM parsePointConfig = .ok db.binaryInput
  binaryOutputStatus : (sectionEntries points "binary_output_status").mapM parsePointConfig =
    .ok db.binaryOutputStatus
  analogInput : (sectionEntries points "analog_input").mapM parsePointConfig = .ok db.analogInput
  analogOutputStatus : (sectionEntries points "analog_output_status").mapM parsePointConfig =
    .ok db.analogOutputStatus

/-- Every section of the database holds the entries of the document, read one by one. -/
lemma parsePointDatabase_entries {points db} (e : parsePointDatabase {} points = .ok db) :
    ParsedEntries points db := by
  obtain ⟨_, bi, e⟩ := bind_ok e
  obtain ⟨_, bo, e⟩ := bind_ok e
  obtain ⟨_, ai, e⟩ := bind_ok e
  obtain ⟨_, ao, e⟩ := bind_ok e
  cases e
  exact ⟨read_section bi, read_section bo, read_section ai, read_section ao⟩

/-- The `point_database` of a document. -/
def pointDatabase (document : Json) : Json :=
  (document.find "point_database").getD .null

/-- The point database of a loaded configuration consists of the entries of the document. -/
lemma load_entries {h path cfg} (loaded : load h path = .ok (.ok cfg)) :
    ParsedEntries (pointDatabase (h.document path)) cfg.pointDatabase := by
  obtain ⟨cfg0, read, rfl⟩ := load_inv loaded
  obtain ⟨-, -, points⟩ := readDocument_inv read
  have kept : (overlay h cfg0).pointDatabase = cfg0.pointDatabase := rfl
  rw [kept, pointDatabase]
  obtain ⟨absent, builtIn⟩ | ⟨v, found, parsed⟩ := read_cases points
  · rw [absent, builtIn]
    exact ⟨rfl, rfl, rfl, rfl⟩
  · rw [found]
    exact parsePointDatabase_entries parsed

/-- A range that is read is an array of two elements at least. -/
lemma subscripts_ok {range : Json} {i j} (read : (do
      let start ← getUInt16 (← range.subscript 0)
      let stop ← getUInt16 (← range.subscript 1)
      return (start, stop) : Except JsonException (UInt16 × UInt16)) = .ok (i, j)) :
    ∃ u v rest, range = .array (u :: v :: rest) ∧ getUInt16 u = .ok i ∧ getUInt16 v = .ok j := by
  obtain ⟨u, first, read⟩ := bind_ok read
  obtain ⟨start, hu, read⟩ := bind_ok read
  obtain ⟨v, second, read⟩ := bind_ok read
  obtain ⟨stop, hv, read⟩ := bind_ok read
  cases read
  cases range with
  | array elements =>
    cases first
    cases second
    rcases elements with _ | ⟨u, _ | ⟨v, rest⟩⟩
    · cases hu
    · cases hv
    · exact ⟨u, v, rest, rfl, hu, hv⟩
  | null =>
    cases first
    cases hu
  | _ => cases first

/-- The points of an entry are what `parseRange` reads of it. -/
lemma parsePointConfig_range {entry pc} (e : parsePointConfig entry = .ok pc) :
    parseRange entry = .ok (pc.start, pc.stop) := by
  obtain ⟨range, parsed, e⟩ := bind_ok e
  obtain ⟨_, -, e⟩ := bind_ok e
  obtain ⟨_, -, e⟩ := bind_ok e
  obtain ⟨_, -, e⟩ := bind_ok e
  obtain ⟨_, -, e⟩ := bind_ok e
  cases e
  exact parsed

/-- The deadband of an entry is a number. -/
lemma parsePointConfig_finite {entry pc} (e : parsePointConfig entry = .ok pc) {d}
    (set : pc.deadband = some d) : d.isFinite = true := by
  obtain ⟨_, -, e⟩ := bind_ok e
  obtain ⟨_, -, e⟩ := bind_ok e
  obtain ⟨deadband, read, e⟩ := bind_ok e
  obtain ⟨_, -, e⟩ := bind_ok e
  obtain ⟨_, -, e⟩ := bind_ok e
  cases e
  cases set
  obtain unset | ⟨v, -, read⟩ := read_inv read
  · cases unset
  · obtain ⟨d', read, e⟩ := map_ok read
    cases e
    exact getDouble_finite read

/-- The deadbands of a section are numbers. -/
lemma parsePointConfigs_finite {out arr pcs} (e : parsePointConfigs out arr = .ok pcs)
    (old : ∀ pc ∈ out, ∀ d, pc.deadband = some d → d.isFinite = true) :
    ∀ pc ∈ pcs, ∀ d, pc.deadband = some d → d.isFinite = true := by
  obtain ⟨new, parsed, e⟩ := bind_ok e
  cases e
  intro pc mem d set
  rcases List.mem_append.mp mem with mem | mem
  · exact old pc mem d set
  · obtain ⟨entry, -, e⟩ := exists_of_mapM_ok parsed mem
    exact parsePointConfig_finite e set

/-- The deadbands of a database are numbers. -/
lemma parsePointDatabase_finite {db j db'} (e : parsePointDatabase db j = .ok db')
    (old : ∀ pc ∈ db.analogInput, ∀ d, pc.deadband = some d → d.isFinite = true) :
    ∀ pc ∈ db'.analogInput, ∀ d, pc.deadband = some d → d.isFinite = true := by
  obtain ⟨_, -, e⟩ := bind_ok e
  obtain ⟨_, -, e⟩ := bind_ok e
  obtain ⟨analogInput, read, e⟩ := bind_ok e
  obtain ⟨_, -, e⟩ := bind_ok e
  cases e
  obtain rfl | ⟨v, -, parsed⟩ := read_inv read
  · exact old
  · exact parsePointConfigs_finite parsed old

/-- The deadbands of a document are numbers. -/
lemma readDocument_finite {j cfg cfg'} (e : readDocument j cfg = .ok cfg')
    (old : FiniteDeadbands cfg) : FiniteDeadbands cfg' := by
  obtain ⟨-, -, read⟩ := readDocument_inv e
  obtain kept | ⟨v, -, parsed⟩ := read_inv read
  · rw [FiniteDeadbands, kept]
    exact old
  · exact parsePointDatabase_finite parsed old

/-- The deadbands of a loaded configuration are finite. -/
theorem load_finite {h path cfg} (e : load h path = .ok (.ok cfg)) : FiniteDeadbands cfg := by
  obtain ⟨cfg0, read, rfl⟩ := load_inv e
  have fresh : FiniteDeadbands {} := nofun
  have kept : FiniteDeadbands cfg0 := readDocument_finite read fresh
  exact kept

end Dnp3Bridge.Config
