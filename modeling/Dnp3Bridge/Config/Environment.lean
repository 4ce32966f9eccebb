import Dnp3Bridge.Config.Loader
import Mathlib.Data.List.TakeWhile

/-!
# Numeric environment variables

A numeric variable overrides the file. `std::stoul` accepts more than the numerals of the field's type,
and what it returns is cast to that type: the override is exact or ignored only for the numerals that
fit, and for the texts that `std::stoul` refuses on every platform.
-/

namespace Dnp3Bridge.Config

/-- The value of a decimal numeral: digits and nothing else. -/
def numeral (s : String) : Option Nat :=
  if s.toList ≠ [] ∧ s.toList.all Char.isDigit then some (digitsValue s.toList) else none

/-- What a variable with the text `s` is for: a numeral that fits the type sets the field, any other
text leaves it. -/
def exactOrIgnored (bits : Nat) (s : String) (field : Nat) : Nat :=
  match numeral s with
  | some v => if v < 2 ^ bits then v else field
  | none => field

/-- The sign of a text, which `std::stoul` skips. -/
def signed : List Char → Bool × List Char
  | '-' :: cs => (true, cs)
  | '+' :: cs => (false, cs)
  | cs => (false, cs)

/-- The digits that `std::stoul` reads, after white space and one sign. -/
def readDigits (s : String) : List Char :=
  (signed (s.toList.dropWhile isSpace)).2.takeWhile Char.isDigit

/-- The numeral fits the type, or there are no digits to read, or too many for 64 bits. -/
inductive Clear (bits : Nat) (s : String) : Prop where
  | fits {v} :
    numeral s = some v →
    v < 2 ^ bits →
    Clear bits s
  | noDigits :
    readDigits s = [] →
    Clear bits s
  | tooLarge :
    2 ^ 64 ≤ digitsValue (readDigits s) →
    Clear bits s

/-- The platforms that are shipped: armhf and amd64. -/
def Host.Shipped (h : Host) : Prop :=
  h.ulongBits = 32 ∨ h.ulongBits = 64

/-- The host without one of its variables. -/
def Host.unset (h : Host) (name : String) : Host :=
  { h with getenv := fun n => if n = name then none else h.getenv n }

/-- A variable of the environment that overrides a field of `bits` bits. -/
structure NumericVariable where
  name : String
  bits : Nat
  field : AppConfig → Nat

def numericVariables : List NumericVariable :=
  [⟨"DNP3_BRIDGE_DNP3_PORT", 16, (·.dnp3ChannelPort.toNat)⟩,
    ⟨"DNP3_BRIDGE_DNP3_LOCAL_ADDR", 16, (·.dnp3LocalAddress.toNat)⟩,
    ⟨"DNP3_BRIDGE_DNP3_REMOTE_ADDR", 16, (·.dnp3RemoteAddress.toNat)⟩,
    ⟨"DNP3_BRIDGE_LOG_MAX_SIZE_MB", 32, (·.logMaxSizeMb.toNat)⟩,
    ⟨"DNP3_BRIDGE_LOG_MAX_FILES", 32, (·.logMaxFiles.toNat)⟩,
    ⟨"DNP3_BRIDGE_COMMAND_TIMEOUT_MS", 32, (·.commandTimeoutMs.toNat)⟩]

/-- A variable with the text `s` that is read by `env` overrides exactly or not at all: as `env` gives
it, in the configuration that is loaded, and on both platforms alike. -/
structure Honoured {α} (env : Host → String → α → α) (toNat : α → Nat) (bits : Nat) (s : String) :
    Prop where
  read : ∀ h name fallback, h.Shipped → h.getenv name = some s →
    toNat (env h name fallback) = exactOrIgnored bits s (toNat fallback)
  loaded : ∀ x ∈ numericVariables, x.bits = bits → ∀ h path cfg cfg0, h.Shipped →
    h.getenv x.name = some s → load h path = .ok (.ok cfg) →
    load (h.unset x.name) path = .ok (.ok cfg0) → x.field cfg = exactOrIgnored bits s (x.field cfg0)
  alike : ∀ h h' name fallback, h.Shipped → h'.Shipped → h.getenv name = some s →
    h'.getenv name = some s → env h name fallback = env h' name fallback

/-- What the code does with a variable, in numbers. -/
def overridden (h : Host) (bits : Nat) (name : String) (field : Nat) : Nat :=
  (((h.getenv name).bind (stoul h.ulongBits)).map (· % 2 ^ bits)).getD field

/-- What `strtoul` makes of a string, by the digits that it reads. -/
lemma stoul_eq (bits : Nat) (s : String) :
    stoul bits s = if readDigits s = [] ∨ 2 ^ bits ≤ digitsValue (readDigits s) then none else
      some (if (signed (s.toList.dropWhile isSpace)).1 then
        (2 ^ bits - digitsValue (readDigits s)) % 2 ^ bits else digitsValue (readDigits s)) :=
  rfl

/-- `std::stoul` throws if it finds no digits or their value is too large. -/
lemma stoul_eq_none {bits s} :
    stoul bits s = none ↔ readDigits s = [] ∨ 2 ^ bits ≤ digitsValue (readDigits s) := by
  rw [stoul_eq]
  split
  case isTrue refused => exact iff_of_true rfl refused
  case isFalse accepted => exact iff_of_false (Option.some_ne_none _) accepted

/-- A digit is neither white space nor a sign. -/
lemma digit_not_skipped {c : Char} (digit : c.isDigit) : isSpace c = false ∧ c ≠ '-' ∧ c ≠ '+' := by
  refine ⟨?_, ?_, ?_⟩
  · have low : 48 ≤ c.toNat := (Char.isDigit_iff_toNat.mp digit).1
    have blank : c ≠ ' ' := by
      intro e
      rw [e] at low
      exact absurd low (by decide)
    have control : ¬ c ≤ '\r' := by
      intro le
      have := UInt32.le_iff_toNat_le.mp (Char.le_def.mp le)
      exact absurd (low.trans this) (by decide)
    simp [isSpace, blank, control]
  · intro e
    rw [e] at digit
    cases digit
  · intro e
    rw [e] at digit
    cases digit

/-- A numeral consists of digits, at least one of them, and its number is theirs. -/
lemma numeral_inv {s v} (n : numeral s = some v) :
    s.toList ≠ [] ∧ (∀ c ∈ s.toList, c.isDigit) ∧ digitsValue s.toList = v := by
  obtain ⟨⟨nonempty, digits⟩, e⟩ := Option.ite_none_right_eq_some.mp n
  exact ⟨nonempty, List.all_eq_true.mp digits, Option.some.inj e⟩

/-- Nothing of a numeral is skipped. -/
lemma signed_numeral {s v} (n : numeral s = some v) :
    signed (s.toList.dropWhile isSpace) = (false, s.toList) := by
  obtain ⟨nonempty, digits, -⟩ := numeral_inv n
  cases chars : s.toList with
  | nil => exact absurd chars nonempty
  | cons c cs =>
    rw [chars] at digits
    obtain ⟨space, minus, plus⟩ := digit_not_skipped (digits c List.mem_cons_self)
    rw [List.dropWhile_cons_of_neg (Bool.not_eq_true _ ▸ space), signed]
    · exact fun _ e => minus (List.cons.inj e).1
    · exact fun _ e => plus (List.cons.inj e).1

/-- Of a numeral all digits are read. -/
lemma readDigits_numeral {s v} (n : numeral s = some v) : readDigits s = s.toList := by
  obtain ⟨-, digits, -⟩ := numeral_inv n
  rw [readDigits, signed_numeral n]
  exact List.takeWhile_eq_self_iff.mpr digits

/-- A numeral that fits is read as its number. -/
lemma stoul_numeral {bits s v} (n : numeral s = some v) (fits : v < 2 ^ bits) :
    stoul bits s = some v := by
  obtain ⟨nonempty, -, rfl⟩ := numeral_inv n
  have accepted : ¬ (s.toList = [] ∨ 2 ^ bits ≤ digitsValue s.toList) :=
    not_or.mpr ⟨nonempty, not_le.mpr fits⟩
  rw [stoul_eq, readDigits_numeral n, signed_numeral n, if_neg accepted]
  rfl

/-- A variable gives the field what `strtoul` makes of it, reduced to the width of the field. -/
lemma toNat_envUInt {α} {cast : Nat → α} {toNat : α → Nat} {bits : Nat}
    (exact : ∀ n, toNat (cast n) = n % 2 ^ bits) (h : Host) (name : String) (fallback : α) :
    toNat (envUInt cast h name fallback) = overridden h bits name (toNat fallback) := by
  rw [envUInt, overridden]
  cases h.getenv name with
  | none => rfl
  | some val =>
    simp only [Option.bind_some]
    cases stoul h.ulongBits val with
    | none => rfl
    | some v => exact exact v

/-- A numeral that fits is taken exactly. -/
lemma exactOrIgnored_fits {bits s v} (n : numeral s = some v) (fits : v < 2 ^ bits) (field : Nat) :
    exactOrIgnored bits s field = v := by
  rw [exactOrIgnored, n]
  exact if_pos fits

/-- Every other string is ignored. -/
lemma exactOrIgnored_other {bits s} (other : ∀ v, numeral s = some v → ¬ v < 2 ^ bits)
    (field : Nat) : exactOrIgnored bits s field = field := by
  rw [exactOrIgnored]
  cases n : numeral s with
  | none => rfl
  | some v => exact if_neg (other v n)

/-- A text that `std::stoul` refuses on every platform is ignored. -/
lemma overridden_refused {bits s} (refused : readDigits s = [] ∨ 2 ^ 64 ≤ digitsValue (readDigits s))
    {h : Host} (shipped : h.Shipped) {name} (set : h.getenv name = some s) (field : Nat) :
    overridden h bits name field = field := by
  have throws : stoul h.ulongBits s = none := by
    refine stoul_eq_none.mpr (refused.imp_right fun large => ?_)
    rcases shipped with e | e
    · rw [e]
      exact le_trans (by decide) large
    · rw [e]
      exact large
  rw [overridden, set, Option.bind_some, throws]
  rfl

/-- A clear text is treated as it should be. -/
lemma Clear.overridden {bits s} (clear : Clear bits s) (le : bits ≤ 32) {h : Host}
    (shipped : h.Shipped) {name} (set : h.getenv name = some s) (field : Nat) :
    overridden h bits name field = exactOrIgnored bits s field := by
  by_cases fitting : ∃ v, numeral s = some v ∧ v < 2 ^ bits
  · obtain ⟨v, n, fits⟩ := fitting
    have wide : bits ≤ h.ulongBits := by
      rcases shipped with e | e <;> omega
    have read : stoul h.ulongBits s = some v :=
      stoul_numeral n (fits.trans_le (Nat.pow_le_pow_right (by decide) wide))
    rw [exactOrIgnored_fits n fits, Config.overridden, set, Option.bind_some, read]
    exact Nat.mod_eq_of_lt fits
  · have other : ∀ v, numeral s = some v → ¬ v < 2 ^ bits := fun v n fits => fitting ⟨v, n, fits⟩
    rw [exactOrIgnored_other other]
    refine overridden_refused ?_ shipped set field
    cases clear with
    | fits n lt => exact absurd lt (other _ n)
    | noDigits none => exact .inl none
    | tooLarge large => exact .inr large

/-- A text that is not clear sets the field to something, whatever it was. -/
lemma overridden_of_not_clear {bits s} (unclear : ¬ Clear bits s) {h : Host}
    (amd64 : h.ulongBits = 64) {name} (set : h.getenv name = some s) :
    ∃ r, ∀ field, overridden h bits name field = r := by
  have accepted : stoul 64 s ≠ none := by
    intro throws
    rcases stoul_eq_none.mp throws with none | large
    · exact unclear (.noDigits none)
    · exact unclear (.tooLarge large)
  obtain ⟨v, read⟩ := Option.ne_none_iff_exists'.mp accepted
  refine ⟨v % 2 ^ bits, fun field => ?_⟩
  rw [overridden, set, amd64, Option.bind_some, read]
  rfl

/-- The variables for the fields of 16 bits. -/
lemma toNat_envUInt16 (h : Host) (name : String) (fallback : UInt16) :
    (envUInt16 h name fallback).toNat = overridden h 16 name fallback.toNat :=
  toNat_envUInt (fun _ => UInt16.toNat_ofNat') h name fallback

/-- The variables for the fields of 32 bits. -/
lemma toNat_envUInt32 (h : Host) (name : String) (fallback : UInt32) :
    (envUInt32 h name fallback).toNat = overridden h 32 name fallback.toNat :=
  toNat_envUInt (fun _ => UInt32.toNat_ofNat') h name fallback

/-- The environment layer, for the numeric fields. -/
lemma field_overlay {x} (mem : x ∈ numericVariables) (h : Host) (cfg : AppConfig) :
    x.field (overlay h cfg) = overridden h x.bits x.name (x.field cfg) := by
  simp only [numericVariables, List.mem_cons, List.not_mem_nil, or_false] at mem
  rcases mem with rfl | rfl | rfl | rfl | rfl | rfl
  · exact toNat_envUInt16 h _ cfg.dnp3ChannelPort
  · exact toNat_envUInt16 h _ cfg.dnp3LocalAddress
  · exact toNat_envUInt16 h _ cfg.dnp3RemoteAddress
  · exact toNat_envUInt32 h _ cfg.logMaxSizeMb
  · exact toNat_envUInt32 h _ cfg.logMaxFiles
  · exact toNat_envUInt32 h _ cfg.commandTimeoutMs

/-- A variable that is not set leaves the field alone. -/
lemma overridden_unset {h : Host} {name} (unset : h.getenv name = none) (bits field : Nat) :
    overridden h bits name field = field := by
  rw [overridden, unset]
  rfl

/-- Without a variable its field is the one of the file. -/
lemma field_loaded {x} (mem : x ∈ numericVariables) {h path cfg cfg0}
    (loaded : load h path = .ok (.ok cfg)) (loaded0 : load (h.unset x.name) path = .ok (.ok cfg0)) :
    x.field cfg = overridden h x.bits x.name (x.field cfg0) := by
  obtain ⟨file, read, rfl⟩ := load_inv loaded
  obtain ⟨file0, read0, rfl⟩ := load_inv loaded0
  have same : readDocument (h.document path) {} = .ok file0 := read0
  cases read.symm.trans same
  have unset : (h.unset x.name).getenv x.name = none := if_pos rfl
  rw [field_overlay mem, field_overlay mem, overridden_unset unset]

/-- A host without files, on amd64, whose variables all have the text `s`. -/
def envHost (s : String) : Host where
  parse _ := .error (.parseError "")
  file _ := none
  getenv _ := some s
  ulongBits := 64

/-- For a type with two values at least: what is not clear is honoured for no field. -/
lemma honoured_iff_clear {α} {env : Host → String → α → α} {toNat : α → Nat} {bits : Nat}
    (env_eq : ∀ h name fallback, toNat (env h name fallback) =
      overridden h bits name (toNat fallback))
    (inj : toNat.Injective) (le : bits ≤ 32) {a b : α} (two : toNat a ≠ toNat b) (s : String) :
    Honoured env toNat bits s ↔ Clear bits s := by
  constructor
  · intro honoured
    by_contra unclear
    have set : (envHost s).getenv "" = some s := rfl
    obtain ⟨r, sets⟩ := overridden_of_not_clear unclear (rfl : (envHost s).ulongBits = 64) set
    have ignored : ∀ fallback, toNat fallback = r := by
      intro fallback
      have read := honoured.read (envHost s) "" fallback (.inr rfl) set
      rw [env_eq, sets, exactOrIgnored_other fun v n fits => unclear (.fits n fits)] at read
      exact read.symm
    exact two ((ignored a).trans (ignored b).symm)
  · intro clear
    refine ⟨?_, ?_, ?_⟩
    · intro h name fallback shipped set
      rw [env_eq, clear.overridden le shipped set]
    · rintro x mem rfl h path cfg cfg0 shipped set loaded loaded0
      rw [field_loaded mem loaded loaded0, clear.overridden le shipped set]
    · intro h h' name fallback shipped shipped' set set'
      apply inj
      rw [env_eq, env_eq, clear.overridden le shipped set, clear.overridden le shipped' set']

/-- A variable overrides a field exactly or not at all if its text is clear, and only then. -/
theorem honoured_iff (s : String) :
    (Honoured envUInt16 UInt16.toNat 16 s ↔ Clear 16 s) ∧
      (Honoured envUInt32 UInt32.toNat 32 s ↔ Clear 32 s) := by
  refine ⟨?_, ?_⟩
  · exact honoured_iff_clear toNat_envUInt16 (fun _ _ => UInt16.toNat_inj.mp) (by decide)
      (a := 0) (b := 1) (by decide) s
  · exact honoured_iff_clear toNat_envUInt32 (fun _ _ => UInt32.toNat_inj.mp) le_rfl
      (a := 0) (b := 1) (by decide) s

/-- A host without a configuration file, whose environment has the port only. -/
def portHost (ulongBits : Nat) (port : String) : Host where
  parse _ := .error (.parseError "")
  file _ := none
  getenv name := if name = "DNP3_BRIDGE_DNP3_PORT" then some port else none
  ulongBits := ulongBits

/-- The port 70000 becomes 4464, and 4294967297 is ignored on one platform and becomes 1 on the
other. -/
theorem largePort_wraps :
    load (portHost 64 "70000") none = .ok (.ok { dnp3ChannelPort := 4464 }) ∧
      load (portHost 32 "4294967297") none = .ok (.ok {}) ∧
      load (portHost 64 "4294967297") none = .ok (.ok { dnp3ChannelPort := 1 }) ∧
      ¬ Honoured envUInt16 UInt16.toNat 16 "70000" := by
  refine ⟨?_, ?_, ?_, ?_⟩
  · decide
  · decide
  · decide
  · intro honoured
    have read := honoured.read (portHost 64 "70000") "DNP3_BRIDGE_DNP3_PORT" 20000 (.inr rfl) rfl
    exact absurd read (by decide)

end Dnp3Bridge.Config
