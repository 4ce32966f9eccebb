import Dnp3Bridge.Outstation.CommandHandler
import Mathlib.Algebra.Order.Ring.Rat

/-!
# What a request keeps of a command

The request for an analog output has everything that the command has. That for a relay has the
operation type, the count and the two times; it has no trip/close code and no clear flag, and an
operation type without a name becomes `NUL`.
-/

namespace Dnp3Bridge.Outstation
open Dispatcher Proto

/-- The operation types that are forwarded as `NUL`. -/
def OperationType.Idle (op : OperationType) : Prop :=
  op ≠ pulseOn ∧ op ≠ pulseOff ∧ op ≠ latchOn ∧ op ≠ latchOff

/-- The commands differ at most in what a request does not keep. -/
inductive Alike : Command → Command → Prop where
  | same {command} :
    Alike command command
  | relay {a b : ControlRelayOutputBlock} :
    a.opType = b.opType ∨ (OperationType.Idle a.opType ∧ OperationType.Idle b.opType) →
    a.count = b.count →
    a.onTimeMS = b.onTimeMS →
    a.offTimeMS = b.offTimeMS →
    Alike (.crob a) (.crob b)

/-- The operations that the protocol does not name are forwarded as `NUL`. -/
lemma toCrobOperation_idle {op : OperationType} (idle : OperationType.Idle op) :
    toCrobOperation op = .nul := by
  obtain ⟨pulseOn, pulseOff, latchOn, latchOff⟩ := idle
  rw [toCrobOperation, if_neg pulseOn, if_neg pulseOff, if_neg latchOn, if_neg latchOff, ite_self]

/-- The four operation types that do something keep their name. -/
lemma toCrobOperation_cases (op : OperationType) :
    OperationType.Idle op ∨ (op = .pulseOn ∧ toCrobOperation op = .pulseOn) ∨
      (op = .pulseOff ∧ toCrobOperation op = .pulseOff) ∨
      (op = .latchOn ∧ toCrobOperation op = .latchOn) ∨
      (op = .latchOff ∧ toCrobOperation op = .latchOff) := by
  by_cases pulseOn : op = .pulseOn
  · exact .inr (.inl ⟨pulseOn, pulseOn ▸ rfl⟩)
  by_cases pulseOff : op = .pulseOff
  · exact .inr (.inr (.inl ⟨pulseOff, pulseOff ▸ rfl⟩))
  by_cases latchOn : op = .latchOn
  · exact .inr (.inr (.inr (.inl ⟨latchOn, latchOn ▸ rfl⟩)))
  by_cases latchOff : op = .latchOff
  · exact .inr (.inr (.inr (.inr ⟨latchOff, latchOff ▸ rfl⟩)))
  · exact .inl ⟨pulseOn, pulseOff, latchOn, latchOff⟩

/-- Two operations are forwarded as one only if the protocol names neither. -/
lemma toCrobOperation_eq_iff {op op' : OperationType} :
    toCrobOperation op = toCrobOperation op' ↔
      op = op' ∨ (OperationType.Idle op ∧ OperationType.Idle op') := by
  constructor
  · intro e
    obtain idle | h | h | h | h := toCrobOperation_cases op
    · obtain idle' | h' | h' | h' | h' := toCrobOperation_cases op'
      · exact .inr ⟨idle, idle'⟩
      all_goals
        rw [toCrobOperation_idle idle, h'.2] at e
        cases e
    all_goals
      obtain idle' | h' | h' | h' | h' := toCrobOperation_cases op'
      · rw [h.2, toCrobOperation_idle idle'] at e
        cases e
      all_goals
        first
          | exact .inl (h.1.trans h'.1.symm)
          | rw [h.2, h'.2] at e
            cases e
  · rintro (rfl | ⟨idle, idle'⟩)
    · rfl
    · rw [toCrobOperation_idle idle, toCrobOperation_idle idle']

/-- The command type and the payload of the request. -/
def carried : Command → CommandType × Payload
  | .crob c => (.crob, .crob
      { operation := toCrobOperation c.opType
        count := c.count.toUInt32
        onTimeMs := c.onTimeMS
        offTimeMs := c.offTimeMS })
  | .analogInt16 value => (.analogInt16, .analogValue (.finite value.toInt))
  | .analogInt32 value => (.analogInt32, .analogValue (.finite value.toInt))
  | .analogFloat32 value => (.analogFloat32, .analogValue value)
  | .analogDouble64 value => (.analogDouble64, .analogValue value)

/-- `Operate` dispatches one request, with everything that a request keeps of the command. -/
lemma operate_dispatched (answer : Option CommandStatus) (c : Command) (i : UInt16)
    (opType : OperateType) : (ForwardingCommandHandler.operate answer c i opType).dispatched =
      [⟨0, i.toUInt32, (carried c).1, some (carried c).2⟩] := by
  cases c <;> rfl

/-- Different integers are different doubles. -/
lemma finite_toInt_inj {m n : Int} (e : Double.finite m = Double.finite n) : m = n := by
  have e := Double.finite.inj e
  exact_mod_cast e

/-- Widening a value to `double` keeps it apart from the other values of its type. -/
lemma alike_of_carried {c d : Command} (e : carried c = carried d) : Alike c d := by
  have type := congrArg Prod.fst e
  have payload := congrArg Prod.snd e
  cases c with
  | crob a =>
    cases d with
    | crob b =>
      have e := Payload.crob.inj payload
      refine .relay (toCrobOperation_eq_iff.mp (congrArg CrobCommand.operation e)) ?_ ?_ ?_
      · exact UInt8.toUInt32_inj.mp (congrArg CrobCommand.count e)
      · exact congrArg CrobCommand.onTimeMs e
      · exact congrArg CrobCommand.offTimeMs e
    | _ => cases type
  | analogInt16 v =>
    cases d with
    | analogInt16 w =>
      obtain rfl := Int16.toInt_inj.mp (finite_toInt_inj (Payload.analogValue.inj payload))
      exact .same
    | _ => cases type
  | analogInt32 v =>
    cases d with
    | analogInt32 w =>
      obtain rfl := Int32.toInt_inj.mp (finite_toInt_inj (Payload.analogValue.inj payload))
      exact .same
    | _ => cases type
  | analogFloat32 v =>
    cases d with
    | analogFloat32 w =>
      obtain rfl := Payload.analogValue.inj payload
      exact .same
    | _ => cases type
  | analogDouble64 v =>
    cases d with
    | analogDouble64 w =>
      obtain rfl := Payload.analogValue.inj payload
      exact .same
    | _ => cases type

/-- Alike commands are forwarded alike. -/
lemma carried_of_alike {c d : Command} (alike : Alike c d) : carried c = carried d := by
  cases alike with
  | same => rfl
  | relay op count on off => rw [carried, carried, toCrobOperation_eq_iff.mpr op, count, on, off]

/-- Two commands are forwarded as the same request exactly if they have the same index and differ at
most in what a request does not keep. -/
theorem forwarded_eq_iff (answer answer' : Option CommandStatus) (c d : Command) (i j : UInt16)
    (opType opType' : OperateType) :
    (ForwardingCommandHandler.operate answer c i opType).dispatched =
        (ForwardingCommandHandler.operate answer' d j opType').dispatched ↔
      Alike c d ∧ i = j := by
  rw [operate_dispatched, operate_dispatched]
  constructor
  · intro e
    have e := (List.cons.inj e).1
    have type := congrArg CommandRequest.commandType e
    have payload := Option.some.inj (congrArg CommandRequest.payload e)
    refine ⟨alike_of_carried (Prod.ext type payload), ?_⟩
    exact UInt16.toUInt32_inj.mp (congrArg CommandRequest.pointIndex e)
  · intro h
    obtain ⟨alike, rfl⟩ := h
    rw [carried_of_alike alike]

/-- A pulse that trips, and one that closes. -/
def tripPulse : Command :=
  .crob { opType := .pulseOn, tcc := .trip }

def closePulse : Command :=
  .crob { opType := .pulseOn, tcc := .close }

/-- A trip and a close are the same request. -/
theorem tripAndClose_merged :
    (ForwardingCommandHandler.operate (some .success) tripPulse 3 .directOperate).dispatched =
        (ForwardingCommandHandler.operate (some .success) closePulse 3 .directOperate).dispatched ∧
      tripPulse ≠ closePulse := by
  refine ⟨rfl, fun e => ?_⟩
  have tcc := congrArg ControlRelayOutputBlock.tcc (Command.crob.inj e)
  cases tcc

end Dnp3Bridge.Outstation
