import Dnp3Bridge.Numeric.Double

/-!
# The configuration

The types of `config/AppConfig.hpp`, with their default values.
-/

namespace Dnp3Bridge.Config

/-- `PointConfig`: the points from `start` to `stop` (`end` in the source), both included. An empty
string and an unset deadband leave the point as it is. -/
structure PointConfig where
  start : UInt16 := 0
  stop : UInt16 := 0
  eventClass : String := ""
  deadband : Option Double := none
  staticVariation : String := ""
  eventVariation : String := ""
  deriving DecidableEq

structure PointDatabaseConfig where
  binaryInput : List PointConfig := []
  binaryOutputStatus : List PointConfig := []
  analogInput : List PointConfig := []
  analogOutputStatus : List PointConfig := []
  deriving DecidableEq

def PointDatabaseConfig.empty (db : PointDatabaseConfig) : Bool :=
  db.binaryInput.isEmpty && db.binaryOutputStatus.isEmpty && db.analogInput.isEmpty &&
    db.analogOutputStatus.isEmpty

structure EventBufferConfig where
  maxBinaryEvents : UInt16 := 50
  maxDoubleBinaryEvents : UInt16 := 0
  maxAnalogEvents : UInt16 := 50
  maxCounterEvents : UInt16 := 0
  maxFrozenCounterEvents : UInt16 := 0
  maxBinaryOutputStatusEvents : UInt16 := 0
  maxAnalogOutputStatusEvents : UInt16 := 0
  maxOctetStringEvents : UInt16 := 0
  deriving DecidableEq

structure UnsolicitedConfig where
  enabled : Bool := true
  classMask : List String := ["class1", "class2"]
  deriving DecidableEq

structure AppConfig where
  grpcListenAddress : String := "0.0.0.0:50051"
  dnp3ChannelHost : String := "0.0.0.0"
  dnp3ChannelPort : UInt16 := 20000
  dnp3LocalAddress : UInt16 := 1024
  dnp3RemoteAddress : UInt16 := 1
  logLevel : String := "info"
  logFile : String := ""
  logMaxSizeMb : UInt32 := 5
  logMaxFiles : UInt32 := 3
  commandTimeoutMs : UInt32 := 3000
  commandMode : String := "direct_operate"
  eventBuffer : EventBufferConfig := {}
  unsolicited : UnsolicitedConfig := {}
  pointDatabase : PointDatabaseConfig := {}
  deriving DecidableEq

/-- Every deadband of an analog input is a number. -/
def FiniteDeadbands (cfg : AppConfig) : Prop :=
  ∀ pc ∈ cfg.pointDatabase.analogInput, ∀ d, pc.deadband = some d → d.isFinite = true

end Dnp3Bridge.Config
