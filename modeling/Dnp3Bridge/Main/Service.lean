import Dnp3Bridge.Config.RoundTrip
import Dnp3Bridge.Main.RealTime
import Dnp3Bridge.Outstation.EventStream
import Dnp3Bridge.Outstation.Overlay

/-!
# From the configuration to the events

`main` from its arguments on. It constructs the components only with a configuration that has been
loaded and found valid; and with such a configuration the outstation reports every point as the entries
of the configuration say, from the requests that have come in and from nothing else.
-/

namespace Dnp3Bridge.Main
open Bridge Concurrency Config Grpc Outstation Proto

/-- How `main` comes out of its first part: with an exception that nothing catches, with an exit code
and a line on the standard error, or with a configuration. -/
inductive Outcome where
  | throws (e : JsonException)
  | returns (code : Nat) (printed : String)
  | configured (cfg : AppConfig)

/-- The optional path on the command line. -/
def configPath (argv : List String) : Option String := argv[1]?

/-- `main` up to the logging. -/
def configure (h : Host) (argv : List String) : Outcome :=
  match load h (configPath argv) with
  | .error e => .throws e
  | .ok (.error message) => .returns 1 ("Failed to load configuration: " ++ message ++ "\n")
  | .ok (.ok cfg) =>
    match validatePointDatabase cfg.pointDatabase with
    | .error message => .returns 1 ("Failed to load configuration: " ++ message ++ "\n")
    | .ok () => .configured cfg

/-- A configuration that `main` goes on with has been loaded and has passed the validation. -/
lemma configure_inv {h argv cfg} (e : configure h argv = .configured cfg) :
    load h (configPath argv) = .ok (.ok cfg) ∧ validatePointDatabase cfg.pointDatabase = .ok () := by
  unfold configure at e
  split at e
  case h_1 => cases e
  case h_2 => cases e
  case h_3 cfg' loaded =>
    split at e
    case h_1 => cases e
    case h_2 valid =>
      cases e
      exact ⟨loaded, valid⟩

/-- The database that `start` builds from a valid configuration. -/
lemma overlay_of_valid (fresh : FreshPoints) {cfg : AppConfig}
    (valid : validatePointDatabase cfg.pointDatabase = .ok ())
    (given : cfg.pointDatabase.empty = false) :
    DatabaseOverlay fresh cfg.pointDatabase (database fresh cfg) := by
  have built : database fresh cfg = configureDatabaseFromConfig fresh cfg.pointDatabase := by
    rw [database, given]
    rfl
  rw [built]
  exact databaseOverlay_of_valid {} fresh ((validatePointDatabase_ok_iff _).mp valid)

/-- An update leaves the database alone. -/
lemma visitAll_database (m : OutstationManager) (us : List PointUpdate) :
    (m.visitAll us).outstation.map IOutstation.database = m.outstation.map IOutstation.database := by
  induction us generalizing m with
  | nil => rfl
  | cons u us ih =>
    refine (ih (m.visit u)).trans ?_
    cases on : m.outstation with
    | none => rw [OutstationManager.visit_stopped on, on]
    | some o =>
      obtain ⟨x, -, applied⟩ := visit_carries on u
      rw [applied]
      rfl

/-- The outstation reports every point as the configuration says, and what it reports comes from the
requests, of each from the first update on. -/
structure App.Serves (fresh : FreshPoints) (cfg : AppConfig) (c : App) : Prop where
  points : ∃ o, c.outstation.outstation = some o ∧
    (cfg.pointDatabase.empty = true → o.database = configureDefaultDatabase fresh) ∧
    (cfg.pointDatabase.empty = false → DatabaseOverlay fresh cfg.pointDatabase o.database)
  analog : ∀ i, ∃ d, overlaidDeadband fresh cfg.pointDatabase.analogInput i = .finite d ∧
      AnalogService (c.handed.filterMap (PointUpdate.analogAt i)) d (c.outstation.analogView i).log
  binary : ∀ i, ChangeHistory (c.handed.filterMap (PointUpdate.binaryAt i))
    (c.outstation.binaryView i).log
  requests : ∀ e ∈ c.bridge.shared.hist.handed,
    ∃ request, (e.caller, request) ∈ c.calls ∨ (e.caller, request) ∈ c.answered
  progress : ∀ n request, (n, request) ∈ c.calls ∨ (n, request) ∈ c.answered →
    (c.bridge.shared.hist.handed.filter fun e => e.caller = n).map Entry.update <+:
      (updatePoints request).1

/-- The outstation is there only after it has been started and before it is shut down. -/
lemma MainPc.outstation_on {p : MainPc} {fresh cfg us}
    (on : (p.outstation fresh cfg us).outstation ≠ none) :
    p.outstation fresh cfg us = (OutstationManager.create fresh cfg).start.visitAll us := by
  cases p with
  | startOutstation | join | destroyServer | destroyBridge | destroyingBridge | destroyOutstation
  | returned => exact absurd rfl on
  | _ => rfl

/-- Of every call a first part of its updates has been handed over. -/
lemma App.handed_prefix {C fresh cfg as c} (run : Run App.step C (.init fresh cfg) as c) {n request}
    (call : (n, request) ∈ c.calls ∨ (n, request) ∈ c.answered) :
    (c.bridge.shared.hist.handed.filter fun e => e.caller = n).map Entry.update <+:
      (updatePoints request).1 := by
  obtain ⟨_, run'⟩ := App.bridge_run run
  have order := (System.flow run').order
  rw [List.append_assoc] at order
  have handed : c.bridge.shared.hist.handed <+: c.bridge.shared.hist.pushed := ⟨_, order⟩
  have pushed : c.bridge.pushedBy n <+: c.bridge.shared.hist.requests n :=
    ⟨_, (System.accounts run').account n⟩
  rw [((App.accounted run).begun n request call).2] at pushed
  exact ((handed.filter _).map _).trans pushed

/-- Everything that has been handed over comes from a call. -/
lemma App.handed_called {C fresh cfg as c} (run : Run App.step C (.init fresh cfg) as c) {e}
    (mem : e ∈ c.bridge.shared.hist.handed) :
    ∃ request, (e.caller, request) ∈ c.calls ∨ (e.caller, request) ∈ c.answered := by
  obtain ⟨_, run'⟩ := App.bridge_run run
  refine (App.accounted run).known e.caller fun idle => ?_
  have pushed : e ∈ c.bridge.shared.hist.pushed := by
    rw [← (System.flow run').order]
    exact List.mem_append_left _ (List.mem_append_left _ mem)
  exact nothing_pushed (System.accounts run') idle e pushed rfl

/-- If `main` has come to its components, and opendnp3 gives no deadband to new points, then in every
reachable state in which the outstation is there it serves as configured. -/
theorem served_as_configured {h argv cfg} (configured : configure h argv = .configured cfg)
    {fresh : FreshPoints} (plain : fresh.NoDeadband) {C as c}
    (run : Run App.step C (.init fresh cfg) as c) (on : c.outstation.outstation ≠ none) :
    c.Serves fresh cfg := by
  obtain ⟨loaded, valid⟩ := configure_inv configured
  have mirror := (App.mirrored run).outstation
  rw [mirror] at on
  rw [MainPc.outstation_on on] at mirror
  refine ⟨?_, fun i => ?_, fun i => ?_, fun e mem => App.handed_called run mem,
    fun n request call => App.handed_prefix run call⟩
  · have built := visitAll_database (OutstationManager.create fresh cfg).start c.handed
    rw [← mirror] at built
    obtain ⟨o, there, same⟩ := Option.map_eq_some_iff.mp built
    refine ⟨o, there, ?_⟩
    rw [same]
    exact ⟨fun empty => if_pos empty, overlay_of_valid fresh valid⟩
  · obtain ⟨d, deadband⟩ := effectiveDeadband_finite plain.finite (load_finite loaded) i
    refine ⟨d, (effectiveDeadband_eq (fun _ => plain) i).symm.trans deadband, ?_⟩
    rw [mirror]
    exact (OutstationManager.create fresh cfg).analogService deadband c.handed
  · rw [mirror]
    exact changeHistory_of_scan (OutstationManager.applied_binary _ _ i)
      (OutstationManager.decisions_binary _ _ i)

/-- The configuration with the deadband, from its own document. -/
theorem narrowBand_served :
    ∃ c, configure (hostWith narrowBand) ["dnp3-bridge", "bridge.json"] = .configured narrowBand ∧
      Run App.step Always (.init .documented narrowBand) delivering c ∧
      c.Serves .documented narrowBand := by
  have configured :
      configure (hostWith narrowBand) ["dnp3-bridge", "bridge.json"] = .configured narrowBand := rfl
  refine ⟨_, configured, Run.of_exec rfl, ?_⟩
  exact @served_as_configured _ _ _ configured _ FreshPoints.documented_noDeadband Always delivering _
    (Run.of_exec rfl) (Option.some_ne_none _)

end Dnp3Bridge.Main
