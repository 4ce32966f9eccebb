import Dnp3Bridge.Main.Program

/-!
# What `main` leaves behind

The dispatcher is a local of `main`, and the calls that work on it run on threads of gRPC and of
opendnp3. If `main` looks at `server_` in time, no such call is left when it comes to its end: it has
waited in `stop` for those of the server, which lets no more in, and in `shutdown` for the commands,
which cannot begin without the outstation.
-/

namespace Dnp3Bridge.Main
open Bridge Concurrency Config Grpc Outstation Proto

/-- There is, or soon will be, a server. -/
def App.HasServer (c : App) : Prop :=
  c.server ≠ none ∨ ∃ s, c.thread = .publish (some s)

/-- A server that accepts calls is there, or soon will be. -/
lemma App.Accepts.hasServer {c : App} (up : c.Accepts) : c.HasServer := by
  obtain up | up := up
  · exact .inl (by rw [up]; exact Option.some_ne_none _)
  · exact .inr ⟨_, up⟩

/-- Every step leaves a server there. -/
lemma App.HasServer.step {c c' : App} {a} (inv : c.HasServer) (unserved : c.Unserved)
    (fresh : c.grpc.Fresh) (st : c.step a = some c') : c'.HasServer := by
  cases App.step_moves st with
  | signal | call | handler | reply | flush => exact inv
  | @thread built s p mv =>
    have st := start_inv mv
    obtain up | ⟨s', e⟩ := inv
    · have late := fun h => up (unserved.early h)
      generalize c.thread = q at st late
      cases st with
      | publish => exact absurd (.inr (.inr ⟨_, rfl⟩)) late
      | _ => exact .inl up
    · rw [e] at st
      cases st with
      | publish => exact .inl (Option.some_ne_none s')
  | main st =>
    obtain up | ⟨s, e⟩ := inv
    · refine .inl ?_
      cases st with
      | shutdown | shutdownAgain => exact fun none => up (Option.map_eq_none_iff.mp none)
      | _ => exact up
    · cases st with
      | spawn pc =>
        -- there is no thread yet that could publish a server
        have unborn : c.thread = .unborn := by
          refine fresh.unborn.mpr ?_
          show c.main.grpc.spawned = false
          rw [pc]
          rfl
        cases e.symm.trans unborn
      | _ => exact .inr ⟨s, e⟩

/-- The calls of the server are only there when there is, or soon will be, a server. -/
def Program.Hosted (c : Program) : Prop :=
  ∀ t, (c.commands.pc t).served = true → c.app.HasServer

/-- Every step keeps the calls of the server away as long as there is no server. -/
lemma Program.Hosted.step {c c' : Program} {a} (inv : c.Hosted) (app : c.app.Graceful)
    (reg : c.commands.Registered) (st : c.step a = some c') : c'.Hosted := by
  -- the other threads, when one has begun a call
  have others : ∀ {t k p}, c.Begins t k p → ∀ {u}, u ≠ t → (p.pc u).served = true →
      c.app.HasServer := by
    intro t k p begins u ne served
    rw [begins.pcs.1, Function.update_of_ne ne] at served
    exact inv u served
  intro u served
  cases Program.step_moves st with
  | app _ mv => exact (inv u served).step app.unserved app.serving.fresh mv
  | deadline => exact inv u served
  | stream up | respond up => exact up.hasServer
  | @operate t _ _ _ request p _ begins =>
    rcases eq_or_ne u t with rfl | ne
    · cases begins.not_served.symm.trans served
    · exact others begins ne served
  | @leave v k x p found arm =>
    refine inv x.stream ?_
    rw [Dispatcher.Process.serving_of_armed reg found arm]
    rfl
  | @command t i p own mv =>
    obtain ⟨st, pcs⟩ := c.commands.step_inv mv
    rcases eq_or_ne u t with rfl | ne
    · exact inv u ((st.own_inv own).2.2.symm.trans served)
    · have served : (p.pc u).served = true := served
      rw [pcs, Function.update_of_ne ne] at served
      exact inv u served

/-- When `main` has waited for the calls of the server, they have returned. -/
def Program.Quiet (c : Program) : Prop :=
  c.app.main.quiet = true → ∀ t, (c.commands.pc t).served = true → (c.commands.pc t).ended = true

/-- `main` has waited for the calls before it goes on, or has found no server. -/
lemma MainStep.quiet_inv {c c' : App} (st : MainStep c c') (quiet : c'.main.quiet = true) :
    c.main.quiet = true ∨ c.main = .awaitCalls ∨ (c.main = .stopServer .check ∧ c.server = none) := by
  cases st with
  | startOutstation | startBridge | spawn | requested | found | shutdown => cases quiet
  | inBridge | sleep => exact .inl quiet
  | processed pc => exact .inr (.inl pc)
  | overlooked pc none => exact .inr (.inr ⟨pc, none⟩)
  | fromBridge after =>
    obtain ⟨-, rfl⟩ | ⟨pc, -⟩ | ⟨pc, -⟩ := MainPc.afterCall_inv after
    · cases quiet
    · exact .inl (by rw [pc]; rfl)
    · exact .inl (by rw [pc]; rfl)
  | stopBridge pc | shutdownOutstation pc | join pc | foundAgain pc | noServer pc | shutdownAgain pc
  | destroyBridge pc | destroyOutstation pc => exact .inl (by rw [pc]; rfl)

/-- Every timely step keeps the calls of the server ended once `main` has waited for them. -/
lemma Program.Quiet.step {c c' : Program} {a} (inv : c.Quiet) (known : c.Known) (hosted : c.Hosted)
    (serving : c.app.Serving) (reg : c.commands.Registered) (timely : c.Timely a)
    (st : c.step a = some c') : c'.Quiet := by
  intro quiet u served
  have closed : c.app.main.quiet = true → ¬ c.app.Accepts :=
    fun quiet => serving.closed (MainPc.closed_of_quiet quiet)
  cases Program.step_moves st with
  | app may mv =>
    cases App.step_moves mv with
    | main st =>
      obtain quiet | pc | ⟨pc, none⟩ := st.quiet_inv quiet
      · exact inv quiet u served
      · refine may.1 pc u ((known u).mpr ?_) served
        intro idle
        have served : (c.commands.pc u).served = true := served
        rw [idle] at served
        cases served
      · -- `start` will publish no server, so that there are no calls
        obtain up | ⟨s, e⟩ := hosted u served
        · exact absurd none up
        · have decided : c.app.thread.decided = true := timely rfl pc
          rw [e] at decided
          cases decided
    | _ => exact inv quiet u served
  | deadline => exact inv quiet u served
  | stream up | respond up => exact absurd up (closed quiet)
  | @operate t _ _ _ request p _ begins =>
    have served : (p.pc u).served = true := served
    show (p.pc u).ended = true
    rcases eq_or_ne u t with rfl | ne
    · cases begins.not_served.symm.trans served
    · rw [begins.pcs.1, Function.update_of_ne ne] at served ⊢
      exact inv quiet u served
  | leave found arm =>
    have serving := Dispatcher.Process.serving_of_armed reg found arm
    have ended := inv quiet _ (by rw [serving]; rfl)
    rw [serving] at ended
    cases ended
  | @command t i p own mv =>
    obtain ⟨st, pcs⟩ := c.commands.step_inv mv
    have served : (p.pc u).served = true := served
    show (p.pc u).ended = true
    rcases eq_or_ne u t with rfl | ne
    · obtain ⟨-, running, same⟩ := st.own_inv own
      cases running.symm.trans (inv quiet u (same.symm.trans served))
    · rw [pcs, Function.update_of_ne ne] at served ⊢
      exact inv quiet u served

/-- `main` has shut the outstation down. -/
def MainPc.down : MainPc → Bool
  | .join | .destroyServer _ | .destroyBridge | .destroyingBridge | .destroyOutstation
  | .returned => true
  | _ => false

/-- `main` has waited for the calls of the server before it shuts the outstation down. -/
lemma MainPc.quiet_of_down {p : MainPc} (down : p.down = true) : p.quiet = true := by
  cases p with
  | join | destroyServer | destroyBridge | destroyingBridge | destroyOutstation | returned => rfl
  | _ => cases down

/-- When `main` has shut the outstation down, there is none. -/
lemma MainPc.outstation_down {p : MainPc} {fresh cfg us} (down : p.down = true) :
    (p.outstation fresh cfg us).outstation = none := by
  cases p with
  | join | destroyServer | destroyBridge | destroyingBridge | destroyOutstation | returned => rfl
  | _ => cases down

/-- `main` has waited for the commands before it goes on. -/
lemma MainStep.down_inv {c c' : App} (st : MainStep c c') (down : c'.main.down = true) :
    c.main.down = true ∨ c.main = .shutdownOutstation := by
  cases st with
  | startOutstation | startBridge | spawn | requested | found | shutdown | overlooked | processed
  | stopBridge => cases down
  | inBridge | sleep => exact .inl down
  | shutdownOutstation pc => exact .inr pc
  | fromBridge after =>
    obtain ⟨-, rfl⟩ | ⟨-, rfl⟩ | ⟨pc, -⟩ := MainPc.afterCall_inv after
    · cases down
    · cases down
    · exact .inl (by rw [pc]; rfl)
  | join pc | foundAgain pc | noServer pc | shutdownAgain pc | destroyBridge pc
  | destroyOutstation pc => exact .inl (by rw [pc]; rfl)

/-- When `main` has shut the outstation down, no call is left in the dispatcher. -/
def Program.Silent (c : Program) : Prop :=
  c.app.main.down = true → ∀ t, (c.commands.pc t).ended = true

/-- Every step leaves the dispatcher silent once `main` has shut the outstation down. -/
lemma Program.Silent.step {fresh cfg} {c c' : Program} {a} (inv : c.Silent) (known : c.Known)
    (quiet : c.Quiet) (serving : c.app.Serving) (mirrored : c.app.Mirrored fresh cfg)
    (reg : c.commands.Registered) (st : c.step a = some c') : c'.Silent := by
  intro down u
  cases Program.step_moves st with
  | app may mv =>
    cases App.step_moves mv with
    | main st =>
      obtain down | pc := st.down_inv down
      · exact inv down u
      · show (c.commands.pc u).ended = true
        cases served : (c.commands.pc u).served with
        | true => exact quiet (by rw [pc]; rfl) u served
        | false =>
          by_cases idle : c.commands.pc u = .idle
          · rw [idle]
            rfl
          · exact may.2 pc u ((known u).mpr idle) served
    | _ => exact inv down u
  | deadline => exact inv down u
  | stream up | respond up =>
    exact absurd up (serving.closed (MainPc.closed_of_quiet (MainPc.quiet_of_down down)))
  | operate on =>
    rw [mirrored.outstation] at on
    exact absurd (MainPc.outstation_down down) on
  | @leave v k x p found arm =>
    have ended := inv down x.stream
    rw [Dispatcher.Process.serving_of_armed reg found arm] at ended
    cases ended
  | @command t i p own mv =>
    obtain ⟨st, -⟩ := c.commands.step_inv mv
    cases (st.own_inv own).2.1.symm.trans (inv down t)

/-- The invariants of a program whose `main` looks at `server_` in time. -/
structure Program.Tidy (c : Program) : Prop where
  known : c.Known
  left : c.Left
  hosted : c.Hosted
  quiet : c.Quiet
  silent : c.Silent

/-- In every timely run the invariants hold. -/
lemma Program.tidy {fresh cfg as c} (run : Run Program.step Program.Timely (.init fresh cfg) as c) :
    c.Tidy := by
  refine run.history (I := fun _ c => c.Tidy) ?_ ⟨fun t => ?_, nofun, nofun, nofun, nofun⟩
  · intro as c a c' before inv timely st
    obtain ⟨⟨_, run⟩, -⟩ := Program.reached before
    have reg := (Program.reached before).registered
    have app := (App.orderly run).graceful
    exact ⟨inv.known.step st, inv.left.step reg st, inv.hosted.step app reg st,
      inv.quiet.step inv.known inv.hosted app.serving reg timely st,
      inv.silent.step inv.known inv.quiet app.serving (App.mirrored run) reg st⟩
  · exact iff_of_false List.not_mem_nil fun busy => busy rfl

/-- If `main` looks at `server_` in time, then once `stop` has returned no call of the server is left,
and once `shutdown` has returned nobody is in the dispatcher, which `main` destroys after them. -/
theorem dispatcher_outlives {fresh cfg as c}
    (run : Run Program.step Program.Timely (.init fresh cfg) as c) :
    (c.app.main.quiet = true → ∀ t, (c.commands.pc t).served = true → (c.commands.pc t).ended = true) ∧
      (c.app.main.down = true → ∀ t, (c.commands.pc t).ended = true) :=
  ⟨(Program.tidy run).quiet, (Program.tidy run).silent⟩

end Dnp3Bridge.Main
