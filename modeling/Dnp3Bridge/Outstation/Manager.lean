import Dnp3Bridge.Bridge.DataModel
import Dnp3Bridge.Outstation.Database

/-!
# The outstation manager

`OutstationManager` of `dnp3/OutstationManager.cpp`. The opendnp3 outstation is what it was created
with and the measurements that have been applied to it, in order; events are decided here, by the mode
of each measurement.
-/

namespace Dnp3Bridge.Outstation
open Bridge Config

inductive EventMode where
  | force
  | suppress
  deriving DecidableEq

/-- A value as it is applied. -/
structure Applied (T : Type) where
  value : T
  flags : UInt8
  mode : EventMode
  deriving DecidableEq

/-- What `Apply` is given. -/
inductive Measurement where
  | analog (index : UInt16) (applied : Applied Double)
  | binary (index : UInt16) (applied : Applied Bool)
  deriving DecidableEq

/-- `opendnp3::ClassField`. -/
structure ClassField where
  class0 : Bool
  class1 : Bool
  class2 : Bool
  class3 : Bool
  deriving DecidableEq

/-- `CommandMode`. -/
inductive CommandMode where
  | directOperate
  | selectBeforeOperate
  deriving DecidableEq

/-- The opendnp3 outstation. -/
structure IOutstation where
  host : String
  port : UInt16
  commandMode : CommandMode
  database : DatabaseConfig
  eventBuffer : EventBufferConfig
  allowUnsolicited : Bool
  unsolClassMask : ClassField
  localAddr : UInt16
  remoteAddr : UInt16
  applied : List Measurement := []

def IOutstation.apply (o : IOutstation) (m : Measurement) : IOutstation :=
  { o with applied := o.applied ++ [m] }

/-- The last value an event was generated for; a new state holds the value `T{}`. -/
structure PointState (T : Type) where
  lastEvented : T
  seen : Bool := false
  deriving DecidableEq

/-- The members of `OutstationManager`; `fresh` is what opendnp3 gives to new points. -/
structure OutstationManager where
  fresh : FreshPoints
  cfg : AppConfig
  outstation : Option IOutstation := none
  analogDeadband : UInt16 → Option Double := fun _ => none
  analogState : UInt16 → PointState Double := fun _ => ⟨.finite 0, false⟩
  binaryState : UInt16 → PointState Bool := fun _ => ⟨false, false⟩

def buildClassMask (mask : List String) : ClassField :=
  mask.foldl (fun c s =>
    if s = "class0" then { c with class0 := true }
    else if s = "class1" then { c with class1 := true }
    else if s = "class2" then { c with class2 := true }
    else if s = "class3" then { c with class3 := true }
    else c) ⟨false, false, false, false⟩

def toFlagBits : Quality → UInt8
  | .good => 0x01
  | .uncertain => 0x01
  | .bad => 0
  | .restart => 0x01 ||| 0x02

/-- The database that `start` builds. -/
def database (fresh : FreshPoints) (cfg : AppConfig) : DatabaseConfig :=
  if cfg.pointDatabase.empty then configureDefaultDatabase fresh
  else configureDatabaseFromConfig fresh cfg.pointDatabase

/-- The deadband of a point in the database that `start` builds, or 0. -/
def effectiveDeadband (fresh : FreshPoints) (cfg : AppConfig) (i : UInt16) : Double :=
  ((database fresh cfg).analogInput i).elim (.finite 0) AnalogConfig.deadband

namespace OutstationManager

/-- The constructor. -/
def create (fresh : FreshPoints) (cfg : AppConfig) : OutstationManager := { fresh, cfg }

/-- The deadband that `updateAnalog` uses. -/
def deadband (m : OutstationManager) (i : UInt16) : Double :=
  (m.analogDeadband i).getD (.finite 0)

def start (m : OutstationManager) : OutstationManager :=
  let db := database m.fresh m.cfg
  { m with
    analogDeadband := fun i => (db.analogInput i).map AnalogConfig.deadband
    analogState := fun _ => ⟨.finite 0, false⟩
    binaryState := fun _ => ⟨false, false⟩
    outstation := some
      { host := m.cfg.dnp3ChannelHost
        port := m.cfg.dnp3ChannelPort
        commandMode :=
          if m.cfg.commandMode = "select_before_operate" then .selectBeforeOperate
          else .directOperate
        database := db
        eventBuffer := m.cfg.eventBuffer
        allowUnsolicited := m.cfg.unsolicited.enabled
        unsolClassMask := buildClassMask m.cfg.unsolicited.classMask
        localAddr := m.cfg.dnp3LocalAddress
        remoteAddr := m.cfg.dnp3RemoteAddress } }

def shutdown (m : OutstationManager) : OutstationManager :=
  { m with outstation := none }

def updateAnalog (m : OutstationManager) (index : UInt16) (value : Double) (quality : Quality) :
    OutstationManager :=
  match m.outstation with
  | none => m
  | some o =>
    let state := m.analogState index
    let isEvent := !state.seen || !value.isFinite || !state.lastEvented.isFinite ||
      (value.sub state.lastEvented).fabs.gt (m.deadband index)
    { m with
      outstation := some (o.apply (.analog index
        ⟨value, toFlagBits quality, if isEvent then .force else .suppress⟩))
      analogState := Function.update m.analogState index
        ⟨if isEvent then value else state.lastEvented, true⟩ }

def updateBinary (m : OutstationManager) (index : UInt16) (value : Bool) (quality : Quality) :
    OutstationManager :=
  match m.outstation with
  | none => m
  | some o =>
    let state := m.binaryState index
    let isEvent := !state.seen || value != state.lastEvented
    { m with
      outstation := some (o.apply (.binary index
        ⟨value, toFlagBits quality, if isEvent then .force else .suppress⟩))
      binaryState := Function.update m.binaryState index
        ⟨if isEvent then value else state.lastEvented, true⟩ }

/-- What `flushLoop` does with an update. -/
def visit (m : OutstationManager) : PointUpdate → OutstationManager
  | .analog u => m.updateAnalog u.index u.value u.quality
  | .binary u => m.updateBinary u.index u.value u.quality

/-- Any number of updates, one after the other. -/
def visitAll (m : OutstationManager) (us : List PointUpdate) : OutstationManager :=
  us.foldl visit m

end OutstationManager

end Dnp3Bridge.Outstation
