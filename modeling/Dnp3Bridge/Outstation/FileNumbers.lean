import Dnp3Bridge.Config.Environment
import Dnp3Bridge.Outstation.NamedPoints

/-!
# Numbers of the file

The numeric keys outside the point database. The loader casts the number of the file to the type of the
field, without a check of its range: a number that the type does not have becomes another one.
-/

namespace Dnp3Bridge.Outstation
open Config Json Errors

/-- A numeric key: its value in a document, the field that is read from it, and the bits of the type. -/
structure NumericKey where
  value : Json → Option Json
  field : AppConfig → Nat
  bits : Nat

/-- The keys of the section `event_buffer`. -/
def eventBufferKeys : List (String × (EventBufferConfig → UInt16)) :=
  [("max_binary_events", (·.maxBinaryEvents)),
    ("max_double_binary_events", (·.maxDoubleBinaryEvents)),
    ("max_analog_events", (·.maxAnalogEvents)),
    ("max_counter_events", (·.maxCounterEvents)),
    ("max_frozen_counter_events", (·.maxFrozenCounterEvents)),
    ("max_binary_output_status_events", (·.maxBinaryOutputStatusEvents)),
    ("max_analog_output_status_events", (·.maxAnalogOutputStatusEvents)),
    ("max_octet_string_events", (·.maxOctetStringEvents))]

def numericKeys : List NumericKey :=
  [⟨(·.find "dnp3_channel_port"), (·.dnp3ChannelPort.toNat), 16⟩,
    ⟨(·.find "dnp3_local_address"), (·.dnp3LocalAddress.toNat), 16⟩,
    ⟨(·.find "dnp3_remote_address"), (·.dnp3RemoteAddress.toNat), 16⟩,
    ⟨(·.find "log_max_size_mb"), (·.logMaxSizeMb.toNat), 32⟩,
    ⟨(·.find "log_max_files"), (·.logMaxFiles.toNat), 32⟩,
    ⟨(·.find "command_timeout_ms"), (·.commandTimeoutMs.toNat), 32⟩] ++
  eventBufferKeys.map fun p =>
    ⟨fun j => (j.find "event_buffer").bind (·.find p.1), fun cfg => (p.2 cfg.eventBuffer).toNat, 16⟩

/-- What holds of every numeric key: the six of the document itself, and those of `event_buffer`. -/
lemma forall_numericKeys {P : NumericKey → Prop} : (∀ k ∈ numericKeys, P k) ↔
    P ⟨(·.find "dnp3_channel_port"), (·.dnp3ChannelPort.toNat), 16⟩ ∧
    P ⟨(·.find "dnp3_local_address"), (·.dnp3LocalAddress.toNat), 16⟩ ∧
    P ⟨(·.find "dnp3_remote_address"), (·.dnp3RemoteAddress.toNat), 16⟩ ∧
    P ⟨(·.find "log_max_size_mb"), (·.logMaxSizeMb.toNat), 32⟩ ∧
    P ⟨(·.find "log_max_files"), (·.logMaxFiles.toNat), 32⟩ ∧
    P ⟨(·.find "command_timeout_ms"), (·.commandTimeoutMs.toNat), 32⟩ ∧
    ∀ p ∈ eventBufferKeys, P ⟨fun j => (j.find "event_buffer").bind (·.find p.1),
      fun cfg => (p.2 cfg.eventBuffer).toNat, 16⟩ := by
  simp only [numericKeys, List.cons_append, List.nil_append, List.forall_mem_cons, List.forall_mem_map]

/-- The number that the document has under the key. -/
def NumericKey.written (k : NumericKey) (j : Json) : Option ℚ :=
  (k.value j).bind numberOf

/-- The number is one of an unsigned type of `bits` bits. -/
def Fits (bits : Nat) (x : ℚ) : Prop :=
  ∃ n : Nat, n < 2 ^ bits ∧ x = n

/-- The integer that a conversion casts. -/
def integerOf : Json → Option Int
  | .integer n => some n
  | .float x => some (truncate x)
  | .boolean b => some b.toInt
  | _ => none

/-- The field is the low bits of the value, if there is a value. -/
def LowBits (bits : Nat) (value : Option Json) (field : Nat) : Prop :=
  ∀ v, value = some v → ∃ n, integerOf v = some n ∧ (field : Int) = n % 2 ^ bits

/-- An integer that is read is the number of the value, cast. -/
lemma getInt_inv {α} {cast : Int → α} {v x} (e : getInt cast v = .ok x) :
    ∃ n, integerOf v = some n ∧ x = cast n := by
  cases v with
  | integer n => exact ⟨n, rfl, (Except.ok.inj e).symm⟩
  | float r => exact ⟨truncate r, rfl, (Except.ok.inj e).symm⟩
  | boolean b => exact ⟨b.toInt, rfl, (Except.ok.inj e).symm⟩
  | _ => cases e

/-- A field whose key is absent keeps its value. -/
lemma lowBits_none {bits field} : LowBits bits none field := by
  intro v found
  cases found

/-- A field that is read has the low bits of the number in the file. -/
lemma lowBits_read {α} {cast : Int → α} {toNat : α → Nat} {bits}
    (low : ∀ n, (toNat (cast n) : Int) = n % 2 ^ bits) {j : Json} {key field x}
    (e : j.read key (getInt cast) field = .ok x) : LowBits bits (j.find key) (toNat x) := by
  obtain ⟨absent, -⟩ | ⟨v', found', got⟩ := read_cases e
  · rw [absent]
    exact lowBits_none
  · intro v found
    cases found.symm.trans found'
    obtain ⟨n, hn, rfl⟩ := getInt_inv got
    exact ⟨n, hn, low n⟩

/-- The fields of 16 bits. -/
lemma lowBits_read16 {j : Json} {key field x} (e : j.read key getUInt16 field = .ok x) :
    LowBits 16 (j.find key) x.toNat := by
  refine lowBits_read (fun n => ?_) e
  show ((UInt16.ofNat (n % 65536).toNat).toNat : Int) = n % 65536
  rw [UInt16.toNat_ofNat']
  omega

/-- The fields of 32 bits. -/
lemma lowBits_read32 {j : Json} {key field x} (e : j.read key getUInt32 field = .ok x) :
    LowBits 32 (j.find key) x.toNat := by
  refine lowBits_read (fun n => ?_) e
  show ((UInt32.ofNat (n % 4294967296).toNat).toNat : Int) = n % 4294967296
  rw [UInt32.toNat_ofNat']
  omega

/-- Every size of an event buffer has the low bits of the number in the file. -/
lemma parseEventBuffer_lowBits {eb j eb'} (e : parseEventBuffer eb j = .ok eb') :
    ∀ p ∈ eventBufferKeys, LowBits 16 (j.find p.1) (p.2 eb').toNat := by
  obtain ⟨_, binary, e⟩ := bind_ok e
  obtain ⟨_, doubleBinary, e⟩ := bind_ok e
  obtain ⟨_, analog, e⟩ := bind_ok e
  obtain ⟨_, counter, e⟩ := bind_ok e
  obtain ⟨_, frozenCounter, e⟩ := bind_ok e
  obtain ⟨_, binaryOutput, e⟩ := bind_ok e
  obtain ⟨_, analogOutput, e⟩ := bind_ok e
  obtain ⟨_, octetString, e⟩ := bind_ok e
  cases e
  simp only [eventBufferKeys, List.forall_mem_cons, List.not_mem_nil, false_implies, implies_true,
    and_true]
  exact ⟨lowBits_read16 binary, lowBits_read16 doubleBinary, lowBits_read16 analog,
    lowBits_read16 counter, lowBits_read16 frozenCounter, lowBits_read16 binaryOutput,
    lowBits_read16 analogOutput, lowBits_read16 octetString⟩

/-- The numeric fields of a configuration that is read from a document. -/
lemma readDocument_lowBits {j cfg cfg'} (e : readDocument j cfg = .ok cfg') :
    ∀ k ∈ numericKeys, LowBits k.bits (k.value j) (k.field cfg') := by
  obtain ⟨_, -, e⟩ := bind_ok e
  obtain ⟨_, -, e⟩ := bind_ok e
  obtain ⟨_, port, e⟩ := bind_ok e
  obtain ⟨_, localAddress, e⟩ := bind_ok e
  obtain ⟨_, remoteAddress, e⟩ := bind_ok e
  obtain ⟨_, -, e⟩ := bind_ok e
  obtain ⟨_, -, e⟩ := bind_ok e
  obtain ⟨_, maxSize, e⟩ := bind_ok e
  obtain ⟨_, maxFiles, e⟩ := bind_ok e
  obtain ⟨_, timeout, e⟩ := bind_ok e
  obtain ⟨_, -, e⟩ := bind_ok e
  obtain ⟨eventBuffer, buffer, e⟩ := bind_ok e
  obtain ⟨_, -, e⟩ := bind_ok e
  obtain ⟨_, -, e⟩ := bind_ok e
  cases e
  refine forall_numericKeys.mpr ⟨lowBits_read16 port, lowBits_read16 localAddress,
    lowBits_read16 remoteAddress, lowBits_read32 maxSize, lowBits_read32 maxFiles,
    lowBits_read32 timeout, fun p key => ?_⟩
  obtain ⟨absent, -⟩ | ⟨eb, found, parsed⟩ := read_cases buffer
  · simp only [absent]
    exact lowBits_none
  · simp only [found]
    exact parseEventBuffer_lowBits parsed p key

/-- A natural number is cast as it is written. -/
lemma integerOf_nat {v : Json} {m : Nat} (number : numberOf v = some (m : ℚ)) :
    integerOf v = some (m : Int) := by
  cases v with
  | integer n =>
    have e := Option.some.inj number
    exact congrArg some (by exact_mod_cast e)
  | float x =>
    cases number
    simp [integerOf, truncate]
  | _ => cases number

/-- Among the numbers, exactly those of the type are taken as they are. -/
lemma LowBits.exact_iff {bits v field} (low : LowBits bits (some v) field) {x}
    (number : numberOf v = some x) : (field : ℚ) = x ↔ Fits bits x := by
  obtain ⟨n, hn, e⟩ := low v rfl
  constructor
  · intro exact
    have positive : (0 : Int) < 2 ^ bits := by exact_mod_cast Nat.two_pow_pos bits
    have lt : (field : Int) < 2 ^ bits := by
      rw [e]
      exact Int.emod_lt_of_pos n positive
    exact ⟨field, by exact_mod_cast lt, exact.symm⟩
  · intro fits
    obtain ⟨m, lt, rfl⟩ := fits
    cases hn.symm.trans (integerOf_nat number)
    rw [Int.emod_eq_of_lt (Int.natCast_nonneg m) (by exact_mod_cast lt)] at e
    exact_mod_cast e

/-- What is not a number is a boolean, taken as 0 or 1. -/
lemma LowBits.boolean {bits v field} (low : LowBits bits (some v) field) (pos : 0 < bits)
    (number : numberOf v = none) : ∃ b : Bool, v = .boolean b ∧ field = b.toNat := by
  obtain ⟨n, hn, e⟩ := low v rfl
  cases v with
  | boolean b =>
    have one : (1 : Int) < 2 ^ bits := by exact_mod_cast Nat.one_lt_two_pow pos.ne'
    refine ⟨b, rfl, ?_⟩
    cases hn
    have small : b.toInt % 2 ^ bits = b.toNat := by
      cases b with
      | false => exact Int.zero_emod _
      | true => exact Int.emod_eq_of_lt (by decide) one
    exact_mod_cast e.trans small
  | integer n => cases number
  | float x => cases number
  | _ => cases hn

/-- No field has width 0. -/
lemma bits_pos : ∀ k ∈ numericKeys, 0 < k.bits := by decide

/-- The environment overrides none of the numeric fields. -/
lemma field_overlay_unset {h : Host} (unset : ∀ x ∈ numericVariables, h.getenv x.name = none)
    (cfg : AppConfig) : ∀ k ∈ numericKeys, k.field (overlay h cfg) = k.field cfg := by
  have kept : ∀ x ∈ numericVariables, x.field (overlay h cfg) = x.field cfg := by
    intro x mem
    rw [field_overlay mem, overridden_unset (unset x mem)]
  simp only [numericVariables, List.forall_mem_cons] at kept
  obtain ⟨port, localAddress, remoteAddress, maxSize, maxFiles, timeout, -⟩ := kept
  exact forall_numericKeys.mpr
    ⟨port, localAddress, remoteAddress, maxSize, maxFiles, timeout, fun p _ => rfl⟩

/-- The field has the number that the document has under the key. -/
def NumericKey.Exact (k : NumericKey) (j : Json) (cfg : AppConfig) : Prop :=
  ∀ x, k.written j = some x → (k.field cfg : ℚ) = x

/-- A numeric key is exact in a loaded configuration exactly if its number is one of the type of the
field. The only other values are booleans. -/
theorem numbers_exact_iff {h path cfg} (loaded : load h path = .ok (.ok cfg))
    (unset : ∀ x ∈ numericVariables, h.getenv x.name = none) :
    ∀ k ∈ numericKeys,
      (k.Exact (h.document path) cfg ↔ ∀ x, k.written (h.document path) = some x → Fits k.bits x) ∧
        ∀ v, k.value (h.document path) = some v → numberOf v = none →
          ∃ b : Bool, v = .boolean b ∧ k.field cfg = b.toNat := by
  intro k mem
  obtain ⟨cfg0, read, rfl⟩ := load_inv loaded
  have low := readDocument_lowBits read k mem
  rw [NumericKey.Exact, field_overlay_unset unset cfg0 k mem]
  refine ⟨forall₂_congr fun x written => ?_, fun v present number => ?_⟩
  · obtain ⟨v, present, number⟩ := Option.bind_eq_some_iff.mp written
    rw [present] at low
    exact low.exact_iff number
  · rw [present] at low
    exact low.boolean (bits_pos k mem) number

/-- A file with the largest port. -/
def lastPort : Host :=
  hostOf "config.json" "\x7b\"dnp3_channel_port\": 65535\x7d"
    (.object [("dnp3_channel_port", .integer 65535)])

/-- The port is taken as it is written. -/
theorem lastPort_exact :
    (⟨(·.find "dnp3_channel_port"), (·.dnp3ChannelPort.toNat), 16⟩ : NumericKey).Exact
      (lastPort.document (some "config.json")) { dnp3ChannelPort := 65535 } := by
  have loaded : load lastPort (some "config.json") = .ok (.ok { dnp3ChannelPort := 65535 }) := rfl
  refine (numbers_exact_iff loaded (fun _ _ => rfl) _ List.mem_cons_self).1.mpr fun x written => ?_
  cases written
  exact ⟨65535, by decide, rfl⟩

/-- A file with a port that is too large by one. -/
def nextPort : Host :=
  hostOf "config.json" "\x7b\"dnp3_channel_port\": 65536\x7d"
    (.object [("dnp3_channel_port", .integer 65536)])

/-- It becomes port 0. -/
theorem nextPort_zero :
    load nextPort (some "config.json") = .ok (.ok { dnp3ChannelPort := 0 }) ∧
      ¬ ∀ k ∈ numericKeys,
        k.Exact (nextPort.document (some "config.json")) { dnp3ChannelPort := 0 } := by
  refine ⟨rfl, fun exact => ?_⟩
  have port : ((0 : Nat) : ℚ) = 65536 := exact _ List.mem_cons_self 65536 rfl
  exact absurd port (by decide)

end Dnp3Bridge.Outstation
