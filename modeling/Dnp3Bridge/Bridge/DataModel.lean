import Dnp3Bridge.Numeric.Double

/-!
# Point updates

The types of `bridge/DataModel.hpp`.
-/

namespace Dnp3Bridge.Bridge

/-- Point quality as reported by the client. -/
inductive Quality where
  | good
  | uncertain
  | bad
  | restart
  deriving DecidableEq

structure AnalogUpdate where
  index : UInt16
  value : Double
  quality : Quality := .good
  deriving DecidableEq

structure BinaryUpdate where
  index : UInt16
  value : Bool
  quality : Quality := .good
  deriving DecidableEq

/-- `std::variant<AnalogUpdate, BinaryUpdate>`. -/
inductive PointUpdate where
  | analog (u : AnalogUpdate)
  | binary (u : BinaryUpdate)
  deriving DecidableEq

/-- The update, if it is one of the analog point `i`. -/
def PointUpdate.analogAt (i : UInt16) : PointUpdate → Option AnalogUpdate
  | .analog u => if u.index = i then some u else none
  | .binary _ => none

/-- The update, if it is one of the binary point `i`. -/
def PointUpdate.binaryAt (i : UInt16) : PointUpdate → Option BinaryUpdate
  | .binary u => if u.index = i then some u else none
  | .analog _ => none

end Dnp3Bridge.Bridge
