import Dnp3Bridge.Bridge.DataModel
import Dnp3Bridge.Proto.Messages

/-!
# The service call UpdatePoints

The points of a request become updates for the bridge, the analog ones first.
-/

namespace Dnp3Bridge.Grpc
open Bridge Proto

/-- `toQuality`. -/
def toQuality : PointQuality → Quality
  | .uncertain => .uncertain
  | .bad => .bad
  | .restart => .restart
  | _ => .good

/-- The update of an analog point; the index is cast to 16 bits. -/
def analogUpdate (a : AnalogPoint) : PointUpdate :=
  .analog { index := a.index.toUInt16, value := a.value, quality := toQuality a.quality }

/-- The update of a binary point; the index is cast to 16 bits. -/
def binaryUpdate (b : BinaryPoint) : PointUpdate :=
  .binary { index := b.index.toUInt16, value := b.value, quality := toQuality b.quality }

/-- `BridgeServiceImpl::UpdatePoints`: the calls of `applyUpdate` it makes, in order, and the answer
to the client. -/
def updatePoints (request : UpdateRequest) : List PointUpdate × UpdateResponse :=
  (request.analogs.map analogUpdate ++ request.binaries.map binaryUpdate, ⟨true, "accepted"⟩)

/-- A 32-bit number keeps its value in 16 bits if it fits. -/
lemma toNat_toUInt16 (n : UInt32) : n.toUInt16.toNat = n.toNat ↔ n.toNat ≤ 65535 := by
  rw [UInt32.toNat_toUInt16]
  omega

end Dnp3Bridge.Grpc
