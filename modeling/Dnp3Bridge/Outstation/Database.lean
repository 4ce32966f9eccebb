import Dnp3Bridge.Config.AppConfig
import Dnp3Bridge.Numeric.CountedLoop
import Mathlib.Logic.Function.Basic

/-!
# The point database

The part of `dnp3/OutstationManager.cpp` that builds the DNP3 database, from the configuration or with
the built-in defaults. The configuration that opendnp3 gives to a new point is a parameter.
-/

namespace Dnp3Bridge.Outstation
open Config

inductive PointClass where
  | class0
  | class1
  | class2
  | class3
  deriving DecidableEq

inductive StaticAnalogVariation where
  | group30Var1
  | group30Var2
  | group30Var3
  | group30Var4
  | group30Var5
  | group30Var6
  deriving DecidableEq

inductive EventAnalogVariation where
  | group32Var1
  | group32Var2
  | group32Var3
  | group32Var4
  | group32Var5
  | group32Var6
  | group32Var7
  | group32Var8
  deriving DecidableEq

inductive StaticAnalogOutputStatusVariation where
  | group40Var1
  | group40Var2
  | group40Var3
  | group40Var4
  deriving DecidableEq

inductive EventAnalogOutputStatusVariation where
  | group42Var1
  | group42Var2
  | group42Var3
  | group42Var4
  | group42Var5
  | group42Var6
  | group42Var7
  | group42Var8
  deriving DecidableEq

/-- The enumerations that the configuration names by strings, with their `nameMap`. -/
class Named (E : Type) where
  nameMap : List (String × E)

instance : Named PointClass where
  nameMap :=
    [("class0", .class0), ("class1", .class1), ("class2", .class2), ("class3", .class3)]

instance : Named StaticAnalogVariation where
  nameMap :=
    [("Group30Var1", .group30Var1), ("Group30Var2", .group30Var2), ("Group30Var3", .group30Var3),
      ("Group30Var4", .group30Var4), ("Group30Var5", .group30Var5), ("Group30Var6", .group30Var6)]

instance : Named EventAnalogVariation where
  nameMap :=
    [("Group32Var1", .group32Var1), ("Group32Var2", .group32Var2), ("Group32Var3", .group32Var3),
      ("Group32Var4", .group32Var4), ("Group32Var5", .group32Var5), ("Group32Var6", .group32Var6),
      ("Group32Var7", .group32Var7), ("Group32Var8", .group32Var8)]

instance : Named StaticAnalogOutputStatusVariation where
  nameMap :=
    [("Group40Var1", .group40Var1), ("Group40Var2", .group40Var2), ("Group40Var3", .group40Var3),
      ("Group40Var4", .group40Var4)]

instance : Named EventAnalogOutputStatusVariation where
  nameMap :=
    [("Group42Var1", .group42Var1), ("Group42Var2", .group42Var2), ("Group42Var3", .group42Var3),
      ("Group42Var4", .group42Var4), ("Group42Var5", .group42Var5), ("Group42Var6", .group42Var6),
      ("Group42Var7", .group42Var7), ("Group42Var8", .group42Var8)]

def toEnum {E} [Named E] (s : String) (fallback : E) : E :=
  ((Named.nameMap (E := E)).lookup s).getD fallback

/-- The configuration of a binary point. -/
structure BinaryConfig where
  clazz : PointClass
  deriving DecidableEq

/-- The configuration of an analog point with static variations `S` and event variations `V`. -/
structure AnalogConfig (S V : Type) where
  clazz : PointClass
  deadband : Double
  svariation : S
  evariation : V
  deriving DecidableEq

abbrev AnalogInputConfig := AnalogConfig StaticAnalogVariation EventAnalogVariation

abbrev AnalogOutputStatusConfig :=
  AnalogConfig StaticAnalogOutputStatusVariation EventAnalogOutputStatusVariation

/-- The configurations that opendnp3 gives to new points. -/
structure FreshPoints where
  binaryInput : BinaryConfig
  binaryOutputStatus : BinaryConfig
  analogInput : AnalogInputConfig
  analogOutputStatus : AnalogOutputStatusConfig

namespace FreshPoints

/-- A new analog input has a finite deadband. -/
def FiniteDeadband (fresh : FreshPoints) : Prop :=
  fresh.analogInput.deadband.isFinite = true

/-- A new analog input has no deadband. -/
def NoDeadband (fresh : FreshPoints) : Prop :=
  fresh.analogInput.deadband = .finite 0

/-- A new point is in class 1. -/
structure InClass1 (fresh : FreshPoints) : Prop where
  binaryInput : fresh.binaryInput.clazz = .class1
  binaryOutputStatus : fresh.binaryOutputStatus.clazz = .class1
  analogInput : fresh.analogInput.clazz = .class1
  analogOutputStatus : fresh.analogOutputStatus.clazz = .class1

/-- New points as opendnp3 documents them: class 1, no deadband, the first variation of each group. -/
def documented : FreshPoints where
  binaryInput := ⟨.class1⟩
  binaryOutputStatus := ⟨.class1⟩
  analogInput := ⟨.class1, .finite 0, .group30Var1, .group32Var1⟩
  analogOutputStatus := ⟨.class1, .finite 0, .group40Var1, .group42Var1⟩

/-- No deadband is a finite one. -/
lemma NoDeadband.finite {fresh : FreshPoints} (plain : fresh.NoDeadband) : fresh.FiniteDeadband := by
  rw [FiniteDeadband, plain]
  rfl

/-- The documented new points have no deadband. -/
lemma documented_noDeadband : documented.NoDeadband := rfl

/-- The documented new points are in class 1. -/
lemma documented_class1 : documented.InClass1 := ⟨rfl, rfl, rfl, rfl⟩

end FreshPoints

/-- A `std::map` from 16-bit indices. -/
abbrev PointMap (C : Type) := UInt16 → Option C

/-- Changes `map[i]`, which is created if it is not there. -/
def PointMap.modify {C} (fresh : C) (set : C → C) (i : UInt16) (map : PointMap C) : PointMap C :=
  Function.update map i (some (set ((map i).getD fresh)))

/-- The sections of `opendnp3::DatabaseConfig` that the bridge uses. -/
structure DatabaseConfig where
  binaryInput : PointMap BinaryConfig := fun _ => none
  binaryOutputStatus : PointMap BinaryConfig := fun _ => none
  analogInput : PointMap AnalogInputConfig := fun _ => none
  analogOutputStatus : PointMap AnalogOutputStatusConfig := fun _ => none

/-- `configureDefaultDatabase`, applied to a new database. -/
def configureDefaultDatabase (fresh : FreshPoints) : DatabaseConfig where
  binaryInput :=
    forRange 0 10 (PointMap.modify fresh.binaryInput fun pt => { pt with clazz := .class1 })
      fun _ => none
  binaryOutputStatus :=
    forRange 0 19 (PointMap.modify fresh.binaryOutputStatus fun pt => { pt with clazz := .class0 })
      fun _ => none
  analogInput :=
    forRange 0 20 (PointMap.modify fresh.analogInput fun pt =>
      { pt with clazz := .class2, svariation := .group30Var2, evariation := .group32Var2 })
      fun _ => none
  analogOutputStatus :=
    forRange 0 4 (PointMap.modify fresh.analogOutputStatus fun pt =>
      { pt with clazz := .class2, svariation := .group40Var2, evariation := .group42Var2 })
      fun _ => none

/-- The loops of `configureDatabaseFromConfig` over one section. -/
def configureSection {C} (fresh : C) (set : PointConfig → C → C) (entries : List PointConfig) :
    PointMap C :=
  entries.foldl (fun map pc => forRange pc.start pc.stop (PointMap.modify fresh (set pc)) map)
    fun _ => none

/-- The fallbacks that `configureDatabaseFromConfig` gives to `toEnum`. -/
structure Fallbacks where
  clazz : PointClass := .class1
  staticAnalog : StaticAnalogVariation := .group30Var1
  eventAnalog : EventAnalogVariation := .group32Var1
  staticAnalogOutputStatus : StaticAnalogOutputStatusVariation := .group40Var1
  eventAnalogOutputStatus : EventAnalogOutputStatusVariation := .group42Var1

/-- What an entry sets in a binary point. -/
def setBinary (clazz : PointClass) (pc : PointConfig) (pt : BinaryConfig) : BinaryConfig where
  clazz := if pc.eventClass ≠ "" then toEnum pc.eventClass clazz else pt.clazz

/-- What an entry sets in an analog point. -/
def setAnalog {S V} [Named S] [Named V] (clazz : PointClass) (svariation : S) (evariation : V)
    (pc : PointConfig) (pt : AnalogConfig S V) : AnalogConfig S V where
  clazz := if pc.eventClass ≠ "" then toEnum pc.eventClass clazz else pt.clazz
  deadband := pc.deadband.getD pt.deadband
  svariation :=
    if pc.staticVariation ≠ "" then toEnum pc.staticVariation svariation else pt.svariation
  evariation :=
    if pc.eventVariation ≠ "" then toEnum pc.eventVariation evariation else pt.evariation

/-- `configureDatabaseFromConfig`, applied to a new database, for any fallbacks. -/
def configureDatabaseWith (fallbacks : Fallbacks) (fresh : FreshPoints) (db : PointDatabaseConfig) :
    DatabaseConfig where
  binaryInput := configureSection fresh.binaryInput (setBinary fallbacks.clazz) db.binaryInput
  binaryOutputStatus :=
    configureSection fresh.binaryOutputStatus (setBinary fallbacks.clazz) db.binaryOutputStatus
  analogInput :=
    configureSection fresh.analogInput
      (setAnalog fallbacks.clazz fallbacks.staticAnalog fallbacks.eventAnalog) db.analogInput
  analogOutputStatus :=
    configureSection fresh.analogOutputStatus
      (setAnalog fallbacks.clazz fallbacks.staticAnalogOutputStatus fallbacks.eventAnalogOutputStatus)
      db.analogOutputStatus

/-- `configureDatabaseFromConfig`, applied to a new database. -/
def configureDatabaseFromConfig : FreshPoints → PointDatabaseConfig → DatabaseConfig :=
  configureDatabaseWith {}

/-- What holds of a new point and is kept by `set`, holds of every point after a loop of `set`. -/
lemma forRange_modify_invariant {C} {fresh : C} {set : C → C} {P : C → Prop} {first last : UInt16}
    {map : PointMap C} (old : ∀ i pt, map i = some pt → P pt) (holds : P fresh)
    (keep : ∀ pt, P pt → P (set pt)) :
    ∀ i pt, forRange first last (PointMap.modify fresh set) map i = some pt → P pt := by
  refine forRange_invariant (P := fun map : PointMap C => ∀ i pt, map i = some pt → P pt) old ?_
  intro i map old j pt e
  rw [PointMap.modify, Function.update_apply] at e
  split at e
  case isTrue =>
    cases e
    refine keep _ ?_
    cases found : map i with
    | none => exact holds
    | some pt => exact old i pt found
  case isFalse => exact old j pt e

/-- What the entries of a section keep holds of every point of the section. -/
lemma configureSection_invariant {C} {fresh : C} {set : PointConfig → C → C} {P : C → Prop}
    {entries : List PointConfig} (holds : P fresh)
    (keep : ∀ pc ∈ entries, ∀ pt, P pt → P (set pc pt)) :
    ∀ i pt, configureSection fresh set entries i = some pt → P pt := by
  refine List.foldlRecOn (motive := fun map : PointMap C => ∀ i pt, map i = some pt → P pt) _ _
    (fun i pt => nofun) ?_
  intro map old pc mem
  exact forRange_modify_invariant old holds (keep pc mem)

end Dnp3Bridge.Outstation
