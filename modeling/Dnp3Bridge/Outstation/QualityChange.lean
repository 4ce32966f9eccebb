import Dnp3Bridge.Config.Loader
import Dnp3Bridge.Outstation.Deadband
import Dnp3Bridge.Outstation.Validation

/-!
# Changes of the quality alone

An update that repeats the value of the update before it generates no event, whatever the qualities,
as long as the deadband of the point is not negative. The loader and the validation let a negative
deadband through, and with it every update generates an event.
-/

namespace Dnp3Bridge.Outstation
open Bridge Config Reporting

/-- An update with the finite value of the update before it generates no event. -/
def RepeatsQuietly (log : List (Applied Double)) : Prop :=
  ∀ ps p q qs x, log = ps ++ p :: q :: qs → p.value = .finite x → q.value = .finite x →
    q.mode = .suppress

/-- If no finite value is far from itself, a repeated value is not reported. -/
lemma repeatsQuietly_of_scan {d : ℚ} (nonneg : 0 ≤ d) {p : View Double} {vs}
    (decided : p.decisions = scan (Far (.finite d)) none vs) : RepeatsQuietly p.log := by
  intro ps a b qs x e ha hb
  rw [View.decisions, e, List.map_append, List.map_cons, List.map_cons] at decided
  have near : ¬ Far (.finite d) (.finite x) (.finite x) := by
    rw [far_finite, sub_self, abs_zero]
    exact not_lt.mpr nonneg
  rw [ha, hb] at decided
  have kept := not_reported_again _ near decided.symm
  cases mode : b.mode with
  | force => exact absurd mode (of_decide_eq_false kept)
  | suppress => rfl

/-- The second of two equal values generates no event. -/
lemma RepeatsQuietly.second {p : View Double} (quiet : RepeatsQuietly p.log) {x e e'}
    (decided : p.decisions = [(.finite x, e), (.finite x, e')]) : e' = false := by
  obtain ⟨a, rest, log, ha, decided⟩ := List.map_eq_cons_iff.mp decided
  obtain ⟨b, rest', rfl, hb, -⟩ := List.map_eq_cons_iff.mp decided
  have suppressed := quiet [] a b rest' x log (congrArg Prod.fst ha) (congrArg Prod.fst hb)
  have mode : decide (b.mode = .force) = e' := congrArg Prod.snd hb
  rw [← mode, suppressed]
  rfl

/-- Two updates of a point that differ in their quality only. -/
def qualityChange (i : UInt16) : List PointUpdate :=
  [.analog ⟨i, .finite 0, .good⟩, .analog ⟨i, .finite 0, .bad⟩]

/-- The decisions about a change of quality: the first update is an event, the second one may be. -/
lemma decisions_qualityChange (m : OutstationManager) (i : UInt16) :
    ((m.start.visitAll (qualityChange i)).analogView i).decisions =
      [(.finite 0, true),
        (.finite 0, decide (Far (effectiveDeadband m.fresh m.cfg i) (.finite 0) (.finite 0)))] := by
  rw [OutstationManager.decisions_analog]
  simp [qualityChange, PointUpdate.analogAt, scan, reports, report]

/-- With every configuration that has been loaded, repeated values of a point are quiet exactly if its
deadband is not negative. -/
theorem repeatsQuietly_iff {h path cfg} (loaded : load h path = .ok (.ok cfg))
    (m : OutstationManager) (plain : m.fresh.FiniteDeadband) (configured : m.cfg = cfg) (i : UInt16) :
    ∃ d, effectiveDeadband m.fresh cfg i = .finite d ∧
      ((∀ us, RepeatsQuietly ((m.start.visitAll us).analogView i).log) ↔ 0 ≤ d) := by
  subst configured
  obtain ⟨d, hd⟩ := effectiveDeadband_finite plain (load_finite loaded) i
  refine ⟨d, hd, fun quiet => ?_, fun nonneg us => ?_⟩
  · have near := (quiet (qualityChange i)).second (decisions_qualityChange m i)
    rw [hd, decide_eq_false_iff_not, far_finite, sub_self, abs_zero] at near
    exact not_lt.mp near
  · have decided := OutstationManager.decisions_analog m us i
    rw [hd] at decided
    exact repeatsQuietly_of_scan nonneg decided

/-- With the built-in database, a change of the quality of point 3 is quiet. -/
theorem builtIn_quiet :
    RepeatsQuietly (((OutstationManager.create .documented {}).start.visitAll
      (qualityChange 3)).analogView 3).log := by
  have loaded : load ⟨fun _ => .ok .null, fun _ => none, fun _ => none, 64⟩ none = .ok (.ok {}) := rfl
  obtain ⟨d, hd, quiet⟩ :=
    repeatsQuietly_iff loaded (.create .documented {}) FreshPoints.documented_noDeadband.finite rfl 3
  refine quiet.mpr ?_ (qualityChange 3)
  have zero : effectiveDeadband .documented {} 3 = .finite 0 := by
    show ((configureDefaultDatabase .documented).analogInput 3).elim _ _ = _
    cases found : (configureDefaultDatabase .documented).analogInput 3 with
    | none => rfl
    | some pt => exact configureDefaultDatabase_deadband found
  cases hd.symm.trans zero
  exact le_rfl

/-- A host with one file, and no environment variables. -/
def hostOf (path text : String) (document : Json) : Host where
  parse t := if t = text then .ok document else .error (.parseError "")
  file p := if p = path then some text else none
  getenv _ := none
  ulongBits := 64

/-- A configuration file that gives analog input 7 a deadband of -1. -/
def negativeBand : Host :=
  hostOf "config.json"
    "\x7b\"point_database\": \x7b\"analog_input\": [\x7b\"index\": 7, \"deadband\": -1\x7d]\x7d\x7d"
    (.object [("point_database", .object [("analog_input",
      .array [.object [("deadband", .integer (-1)), ("index", .integer 7)]])])])

/-- What is loaded from it. -/
def negativeBandConfig : AppConfig :=
  { pointDatabase := { analogInput := [{ start := 7, stop := 7, deadband := some (.finite (-1)) }] } }

/-- The effective deadband of the point is the negative one of its entry. -/
lemma negativeBand_deadband (fresh : FreshPoints) :
    effectiveDeadband fresh negativeBandConfig 7 = .finite (-1) := by
  simp [effectiveDeadband, database, negativeBandConfig, PointDatabaseConfig.empty,
    configureDatabaseFromConfig, configureDatabaseWith, configureSection, PointMap.modify, setAnalog]

/-- The configuration is accepted, and a change of the quality of point 7 generates an event. -/
theorem negativeBand_forces :
    load negativeBand (some "config.json") = .ok (.ok negativeBandConfig) ∧
      validatePointDatabase negativeBandConfig.pointDatabase = .ok () ∧
      ¬ RepeatsQuietly (((OutstationManager.create .documented negativeBandConfig).start.visitAll
        (qualityChange 7)).analogView 7).log := by
  refine ⟨rfl, rfl, fun quiet => ?_⟩
  have near := quiet.second (decisions_qualityChange (.create .documented negativeBandConfig) 7)
  have deadband : effectiveDeadband (OutstationManager.create .documented negativeBandConfig).fresh
      (OutstationManager.create .documented negativeBandConfig).cfg 7 = .finite (-1) :=
    negativeBand_deadband .documented
  rw [deadband, decide_eq_false_iff_not, far_finite, sub_self, abs_zero] at near
  exact near (by decide)

end Dnp3Bridge.Outstation
