import Dnp3Bridge.Numeric.Double

/-!
# The messages of the bridge service

The messages of `proto/dnp3bridge.proto`. A `proto3` enumeration is open: a number without a name
survives parsing, so every enumeration that the service reads from a client has a case for it.
-/

namespace Dnp3Bridge.Proto

/-- `PointQuality`. -/
inductive PointQuality where
  | good
  | uncertain
  | bad
  | restart
  | unrecognized (n : Int)
  deriving DecidableEq

/-- `CommandType`. -/
inductive CommandType where
  | unspecified
  | crob
  | analogInt16
  | analogInt32
  | analogFloat32
  | analogDouble64
  deriving DecidableEq

/-- `CrobOperationType`. -/
inductive CrobOperationType where
  | nul
  | pulseOn
  | pulseOff
  | latchOn
  | latchOff
  deriving DecidableEq

/-- `CommandResultStatus`. -/
inductive CommandResultStatus where
  | success
  | timeout
  | noSelect
  | formatError
  | notSupported
  | alreadyActive
  | hardwareError
  | local
  | tooManyOps
  | notAuthorized
  | downstreamFail
  | unrecognized (n : Int)
  deriving DecidableEq

/-- `AnalogPoint`. -/
structure AnalogPoint where
  index : UInt32
  value : Double
  quality : PointQuality
  deriving DecidableEq

/-- `BinaryPoint`. -/
structure BinaryPoint where
  index : UInt32
  value : Bool
  quality : PointQuality
  deriving DecidableEq

/-- `CounterPoint`. -/
structure CounterPoint where
  index : UInt32
  value : UInt32
  quality : PointQuality
  deriving DecidableEq

/-- `UpdateRequest`. -/
structure UpdateRequest where
  analogs : List AnalogPoint
  binaries : List BinaryPoint
  counters : List CounterPoint
  deriving DecidableEq

/-- `UpdateResponse`. -/
structure UpdateResponse where
  success : Bool
  message : String
  deriving DecidableEq

/-- `OutstationState`. -/
inductive OutstationState where
  | unknown
  | connected
  | disconnected
  deriving DecidableEq

/-- `StatusResponse`. -/
structure StatusResponse where
  state : OutstationState
  lastUpdateTimestampMs : UInt64
  deriving DecidableEq

/-- `CrobCommand`. -/
structure CrobCommand where
  operation : CrobOperationType
  count : UInt32
  onTimeMs : UInt32
  offTimeMs : UInt32
  deriving DecidableEq

/-- The `payload` of a `CommandRequest`. -/
inductive Payload where
  | crob (c : CrobCommand)
  | analogValue (v : Double)
  deriving DecidableEq

/-- `CommandRequest`. -/
structure CommandRequest where
  commandId : UInt64
  pointIndex : UInt32
  commandType : CommandType
  payload : Option Payload
  deriving DecidableEq

/-- `CommandResponse`. -/
structure CommandResponse where
  commandId : UInt64
  status : CommandResultStatus
  deriving DecidableEq

end Dnp3Bridge.Proto
