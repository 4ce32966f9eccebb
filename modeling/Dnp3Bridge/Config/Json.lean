import Dnp3Bridge.Numeric.Double

/-!
# JSON documents

The part of the JSON library that the loader uses: documents, `contains` and the two subscripts,
iteration, and the conversions, which throw when the kind of a value does not match. Text is parsed
outside this development. A number that is written as an integer and fits 64 bits is an `integer`,
every other number is a `float`; the parser refuses a number too large for a double, so a `float` is
finite.
-/

namespace Dnp3Bridge.Config

/-- The exceptions of the JSON library; a `type_error` is known by its number. -/
inductive JsonException where
  | parseError (what : String)
  | outOfRange (what : String)
  | typeError (id : Nat)
  deriving DecidableEq

/-- A JSON document; the members of an object stand in the order of their keys, each key once. -/
inductive Json where
  | null
  | boolean (b : Bool)
  | integer (n : Int)
  | float (x : ℚ)
  | string (s : String)
  | array (elements : List Json)
  | object (members : List (String × Json))

namespace Json

/-- `j.contains(key) ? &j[key] : nullptr`. -/
def find : Json → String → Option Json
  | .object members, key => members.lookup key
  | _, _ => none

/-- `j[n]` for a document that may be changed: null becomes an array, and an array is filled up with
nulls. -/
def subscript : Json → Nat → Except JsonException Json
  | .null, _ => .ok .null
  | .array elements, n => .ok (elements.getD n .null)
  | _, _ => .error (.typeError 305)

/-- What a range-based `for` iterates over. -/
def items : Json → List Json
  | .null => []
  | .array elements => elements
  | .object members => members.map Prod.snd
  | j => [j]

/-- A floating-point number without its fractional part. -/
def truncate (x : ℚ) : Int := x.num.tdiv x.den

/-- `get` for an integer type other than the 64-bit ones: a cast of any number or boolean. A `float`
outside the type has no defined value in C++; here its low bits are taken, as for an integer. -/
def getInt {α} (cast : Int → α) : Json → Except JsonException α
  | .integer n => .ok (cast n)
  | .float x => .ok (cast (truncate x))
  | .boolean b => .ok (cast b.toInt)
  | _ => .error (.typeError 302)

def getUInt16 : Json → Except JsonException UInt16 := getInt UInt16.ofInt

def getUInt32 : Json → Except JsonException UInt32 := getInt UInt32.ofInt

def getDouble : Json → Except JsonException Double
  | .integer n => .ok (.finite n)
  | .float x => .ok (.finite x)
  | _ => .error (.typeError 302)

def getBool : Json → Except JsonException Bool
  | .boolean b => .ok b
  | _ => .error (.typeError 302)

def getString : Json → Except JsonException String
  | .string s => .ok s
  | _ => .error (.typeError 302)

/-- `if (j.contains(key)) field = j[key].get<T>();`, where `get` may also be a nested parser. -/
def read {α} (j : Json) (key : String) (get : Json → Except JsonException α) (field : α) :
    Except JsonException α :=
  match j.find key with
  | none => .ok field
  | some v => get v

/-- A number of the file is finite. -/
lemma getDouble_finite {j d} (e : getDouble j = .ok d) : d.isFinite = true := by
  cases j with
  | integer n => cases e; rfl
  | float x => cases e; rfl
  | _ => cases e

/-- A field keeps its value if the document does not have it, and is converted otherwise. -/
lemma read_cases {α} {j : Json} {key get} {field x : α} (e : j.read key get field = .ok x) :
    (j.find key = none ∧ x = field) ∨ ∃ v, j.find key = some v ∧ get v = .ok x := by
  unfold read at e
  split at e
  case h_1 absent =>
    cases e
    exact .inl ⟨absent, rfl⟩
  case h_2 v found => exact .inr ⟨v, found, e⟩

/-- A field that is read keeps its value or has one that was converted. -/
lemma read_inv {α} {j : Json} {key get} {field x : α} (e : j.read key get field = .ok x) :
    x = field ∨ ∃ v, j.find key = some v ∧ get v = .ok x :=
  (read_cases e).imp_left And.right

end Json

end Dnp3Bridge.Config
