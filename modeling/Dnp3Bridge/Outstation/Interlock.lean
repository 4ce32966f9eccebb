import Dnp3Bridge.Outstation.CommandHandler

/-!
# The command mode

The mode is looked at when a command is selected, and not when it is operated. With direct operate this
closes the select path. With select-before-operate it leaves the direct path open: the commands that
come on it are forwarded like the others.
-/

namespace Dnp3Bridge.Outstation
open Dispatcher

/-- A call of the handler by opendnp3, with what the dispatcher will answer. -/
inductive Callback where
  | select (command : Command) (index : UInt16)
  | operate (command : Command) (index : UInt16) (opType : OperateType)
    (answer : Option CommandStatus)

/-- What the handler does. -/
def handle (mode : CommandMode) : Callback → Outcome
  | .select command index => ForwardingCommandHandler.select mode command index
  | .operate command index opType answer =>
    ForwardingCommandHandler.operate answer command index opType

/-- Among the callbacks is an accepted select of the object type and the index. -/
def Selected (mode : CommandMode) (calls : List Callback) (type : ObjectType) (index : UInt16) :
    Prop :=
  ∃ command, .select command index ∈ calls ∧ command.objectType = type ∧
    (handle mode (.select command index)).status = .success

/-- What opendnp3 guarantees about the order of the callbacks: a command comes on the select path only
after its select has been accepted. -/
def Permitted (mode : CommandMode) (calls : List Callback) : Prop :=
  ∀ before command index answer after,
    calls = before ++ .operate command index .selectBeforeOperate answer :: after →
    Selected mode before command.objectType index

/-- What the mode demands of a command that comes after some callbacks. -/
def Demanded (mode : CommandMode) (before : List Callback) (command : Command) (index : UInt16)
    (opType : OperateType) (outcome : Outcome) : Prop :=
  match mode with
  | .selectBeforeOperate =>
    (outcome.dispatched ≠ [] → Selected mode before command.objectType index) ∧
      (opType ≠ .selectBeforeOperate → outcome.dispatched = [] ∧ outcome.status ≠ .success)
  | .directOperate => opType = .selectBeforeOperate → outcome.dispatched = []

/-- The mode is enforced throughout the callbacks. -/
def Enforced (mode : CommandMode) (calls : List Callback) : Prop :=
  ∀ before command index opType answer after,
    calls = before ++ .operate command index opType answer :: after →
    Demanded mode before command index opType (handle mode (.operate command index opType answer))

/-- No command comes on the direct path. -/
def NoDirect (calls : List Callback) : Prop :=
  ∀ command index opType answer, .operate command index opType answer ∈ calls →
    opType = .selectBeforeOperate

/-- Every command is forwarded, whatever its type and the mode. -/
lemma dispatched_ne_nil (mode : CommandMode) (command : Command) (index : UInt16)
    (opType : OperateType) (answer : Option CommandStatus) :
    (handle mode (.operate command index opType answer)).dispatched ≠ [] := by
  cases command <;> exact List.cons_ne_nil _ _

/-- With direct operate nothing is selected. -/
lemma not_selected (calls : List Callback) (type : ObjectType) (index : UInt16) :
    ¬ Selected .directOperate calls type index := by
  rintro ⟨command, -, -, accepted⟩
  cases accepted

/-- The mode is enforced exactly if, with select-before-operate, no command comes on the direct path. -/
theorem enforced_iff {mode : CommandMode} {calls : List Callback} (permitted : Permitted mode calls) :
    Enforced mode calls ↔ (mode = .selectBeforeOperate → NoDirect calls) := by
  constructor
  · rintro enforced rfl command index opType answer mem
    obtain ⟨before, after, split⟩ := List.append_of_mem mem
    by_contra direct
    obtain ⟨-, refused⟩ := enforced before command index opType answer after split
    exact dispatched_ne_nil _ _ _ _ _ (refused direct).1
  · rintro none before command index opType answer after split
    cases mode with
    | selectBeforeOperate =>
      have path : opType = .selectBeforeOperate := by
        refine none rfl command index opType answer ?_
        rw [split]
        exact List.mem_append_right _ List.mem_cons_self
      subst path
      refine ⟨fun _ => ?_, fun direct => absurd rfl direct⟩
      exact permitted before command index answer after split
    | directOperate =>
      -- the select path is closed, as no select has been accepted
      rintro rfl
      exact absurd (permitted before command index answer after split) (not_selected _ _ _)

/-- A relay command that closes. -/
def closeRelay : Command :=
  .crob { opType := .latchOn, tcc := .close }

/-- A relay is selected and operated. -/
def selectThenOperate : List Callback :=
  [.select closeRelay 3, .operate closeRelay 3 .selectBeforeOperate (some .success)]

/-- A relay is operated without having been selected. -/
def operateAtOnce : List Callback :=
  [.operate closeRelay 3 .directOperate (some .success)]

/-- The only command of a list of callbacks that has one. -/
lemma operate_split {calls before after : List Callback} {first : Callback} {c d i j o p a b}
    (only : calls = [first, .operate c i o a]) (isSelect : ∃ e k, first = .select e k)
    (split : calls = before ++ .operate d j p b :: after) :
    before = [first] ∧ .operate d j p b = Callback.operate c i o a := by
  obtain ⟨e, k, rfl⟩ := isSelect
  rw [only] at split
  cases before with
  | nil => cases split
  | cons x before =>
    cases before with
    | nil =>
      cases split
      exact ⟨rfl, rfl⟩
    | cons y before =>
      have := congrArg List.length split
      simp at this

/-- The mode is enforced for a master that selects before it operates. -/
theorem selectThenOperate_enforced : Enforced .selectBeforeOperate selectThenOperate := by
  have permitted : Permitted .selectBeforeOperate selectThenOperate := by
    intro before command index answer after split
    obtain ⟨rfl, e⟩ := operate_split rfl ⟨_, _, rfl⟩ split
    cases e
    exact ⟨closeRelay, List.mem_cons_self, rfl, rfl⟩
  refine (enforced_iff permitted).mpr fun _ command index opType answer mem => ?_
  rcases List.mem_pair.mp mem with e | e
  · cases e
  · cases e
    rfl

/-- With select-before-operate the relay is operated nevertheless. -/
theorem operateAtOnce_forwarded :
    Permitted .selectBeforeOperate operateAtOnce ∧
      (handle .selectBeforeOperate (.operate closeRelay 3 .directOperate (some .success))).status =
        .success ∧
      ¬ Enforced .selectBeforeOperate operateAtOnce := by
  refine ⟨?_, rfl, fun enforced => ?_⟩
  · intro before command index answer after split
    cases before with
    | nil => cases split
    | cons _ before =>
      have := congrArg List.length split
      simp [operateAtOnce] at this
  · obtain ⟨-, refused⟩ := enforced [] closeRelay 3 .directOperate (some .success) [] rfl
    exact absurd (refused nofun).1 (dispatched_ne_nil _ _ _ _ _)

end Dnp3Bridge.Outstation
