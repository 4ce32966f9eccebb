import Dnp3Bridge.Outstation.Database
import Mathlib.Data.List.Sort

/-!
# Validation of the point database

`validatePointDatabase` and its checks, with the messages they report.
-/

namespace Dnp3Bridge.Outstation
open Config

/-- The message about an unknown name. -/
def unknownValue (E : Type) [Named E] (field value : String) : String :=
  let names := ((Named.nameMap (E := E)).map Prod.fst).insertionSort (· ≤ ·)
  field ++ ": unknown value \"" ++ value ++ "\" (expected one of: " ++ ", ".intercalate names ++ ")"

def checkRange (pc : PointConfig) (pre : String) : Except String Unit :=
  if pc.stop < pc.start then
    .error (pre ++ ".range: start " ++ toString pc.start ++ " is greater than end " ++
      toString pc.stop)
  else .ok ()

def checkEnum (E : Type) [Named E] (value field : String) : Except String Unit :=
  if value = "" ∨ ((Named.nameMap (E := E)).lookup value).isSome then .ok ()
  else .error (unknownValue E field value)

/-- How the messages name an entry. -/
def entryName (section_ : String) (i : Nat) : String :=
  "point_database." ++ section_ ++ "[" ++ toString i ++ "]"

/-- Checks the entries of a section one after the other, the first of which has position `i`. -/
def checkEntries (check : PointConfig → String → Except String Unit) (section_ : String) :
    Nat → List PointConfig → Except String Unit
  | _, [] => .ok ()
  | i, pc :: entries => do
    check pc (entryName section_ i)
    checkEntries check section_ (i + 1) entries

/-- The checks of one entry of `checkAnalogSection`. -/
def checkAnalogEntry (S V : Type) [Named S] [Named V] (pc : PointConfig) (pre : String) :
    Except String Unit := do
  checkRange pc pre
  checkEnum PointClass pc.eventClass (pre ++ ".class")
  checkEnum S pc.staticVariation (pre ++ ".static_variation")
  checkEnum V pc.eventVariation (pre ++ ".event_variation")

def checkAnalogSection (S V : Type) [Named S] [Named V] (entries : List PointConfig)
    (section_ : String) : Except String Unit :=
  checkEntries (checkAnalogEntry S V) section_ 0 entries

/-- The checks of one entry of `checkBinarySection`. -/
def checkBinaryEntry (pc : PointConfig) (pre : String) : Except String Unit := do
  checkRange pc pre
  checkEnum PointClass pc.eventClass (pre ++ ".class")

def checkBinarySection (entries : List PointConfig) (section_ : String) : Except String Unit :=
  checkEntries checkBinaryEntry section_ 0 entries

def validatePointDatabase (db : PointDatabaseConfig) : Except String Unit := do
  checkBinarySection db.binaryInput "binary_input"
  checkBinarySection db.binaryOutputStatus "binary_output_status"
  checkAnalogSection StaticAnalogVariation EventAnalogVariation db.analogInput "analog_input"
  checkAnalogSection StaticAnalogOutputStatusVariation EventAnalogOutputStatusVariation
    db.analogOutputStatus "analog_output_status"

end Dnp3Bridge.Outstation
