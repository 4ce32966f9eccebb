import Dnp3Bridge.Dispatcher.Model
import Dnp3Bridge.Outstation.Manager
import Mathlib.Algebra.Group.Nat.Defs

/-!
# The command handler

`ForwardingCommandHandler` of `dnp3/ForwardingCommandHandler.cpp`: what its callbacks answer, and which
requests they hand to the dispatcher. The overloads of `Select` and of `Operate` are one function each
on the five object types. What the dispatcher does with a request is outside: its answer is given, and
`none` stands for an exception.
-/

namespace Dnp3Bridge.Outstation
open Dispatcher Proto

/-- `opendnp3::OperationType`; only five of its values have a name. -/
abbrev OperationType := UInt8

namespace OperationType

def nul : OperationType := 0

def pulseOn : OperationType := 1

def pulseOff : OperationType := 2

def latchOn : OperationType := 3

def latchOff : OperationType := 4

end OperationType

/-- `opendnp3::TripCloseCode`. -/
inductive TripCloseCode where
  | nul
  | close
  | trip
  | reserved
  deriving DecidableEq

/-- The fields of `opendnp3::ControlRelayOutputBlock` that a master sends. -/
structure ControlRelayOutputBlock where
  opType : OperationType
  tcc : TripCloseCode := .nul
  clear : Bool := false
  count : UInt8 := 1
  onTimeMS : UInt32 := 100
  offTimeMS : UInt32 := 100
  deriving DecidableEq

/-- A command, of one of the five object types; a `float` is given as the double with the same value. -/
inductive Command where
  | crob (command : ControlRelayOutputBlock)
  | analogInt16 (value : Int16)
  | analogInt32 (value : Int32)
  | analogFloat32 (value : Double)
  | analogDouble64 (value : Double)

/-- The object types. -/
inductive ObjectType where
  | crob
  | analogInt16
  | analogInt32
  | analogFloat32
  | analogDouble64
  deriving DecidableEq

def Command.objectType : Command → ObjectType
  | .crob _ => .crob
  | .analogInt16 _ => .analogInt16
  | .analogInt32 _ => .analogInt32
  | .analogFloat32 _ => .analogFloat32
  | .analogDouble64 _ => .analogDouble64

/-- `opendnp3::OperateType`. -/
inductive OperateType where
  | selectBeforeOperate
  | directOperate
  | directOperateNoAck
  deriving DecidableEq

/-- What a callback does: the status it answers and the requests it hands to the dispatcher. -/
structure Outcome where
  status : CommandStatus
  dispatched : List CommandRequest
  deriving DecidableEq

def toCrobOperation (op : OperationType) : CrobOperationType :=
  if op = .nul then .nul
  else if op = .pulseOn then .pulseOn
  else if op = .pulseOff then .pulseOff
  else if op = .latchOn then .latchOn
  else if op = .latchOff then .latchOff
  else .nul

namespace ForwardingCommandHandler

/-- `Select`, for every object type. -/
def select (mode : CommandMode) (_command : Command) (_index : UInt16) : Outcome :=
  ⟨if mode = .directOperate then .notSupported else .success, []⟩

/-- Hands a request over; an exception is answered with `DOWNSTREAM_FAIL`. -/
def dispatch (answer : Option CommandStatus) (request : CommandRequest) : Outcome :=
  ⟨answer.getD .downstreamFail, [request]⟩

def dispatchAnalog (answer : Option CommandStatus) (index : UInt16) (value : Double)
    (type : CommandType) : Outcome :=
  dispatch answer
    { commandId := 0
      pointIndex := index.toUInt32
      commandType := type
      payload := some (.analogValue value) }

/-- `Operate`. -/
def operate (answer : Option CommandStatus) (command : Command) (index : UInt16)
    (_opType : OperateType) : Outcome :=
  match command with
  | .crob command =>
    dispatch answer
      { commandId := 0
        pointIndex := index.toUInt32
        commandType := .crob
        payload := some (.crob
          { operation := toCrobOperation command.opType
            count := command.count.toUInt32
            onTimeMs := command.onTimeMS
            offTimeMs := command.offTimeMS }) }
  | .analogInt16 value => dispatchAnalog answer index (.finite value.toInt) .analogInt16
  | .analogInt32 value => dispatchAnalog answer index (.finite value.toInt) .analogInt32
  | .analogFloat32 value => dispatchAnalog answer index value .analogFloat32
  | .analogDouble64 value => dispatchAnalog answer index value .analogDouble64

end ForwardingCommandHandler

end Dnp3Bridge.Outstation
