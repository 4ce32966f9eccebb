import Dnp3Bridge.Bridge.Queue
import Dnp3Bridge.Main.Step
import Dnp3Bridge.Outstation.Points

/-!
# The order of `main`

`main` starts the outstation before the bridge and shuts it down after it, and the bridge has joined its
flush thread by then. So no flush thread is there while `main` works on the outstation, no update finds
the outstation gone, and the outstation is always what the updates handed over so far have made it.
-/

namespace Dnp3Bridge.Main
open Bridge Concurrency Config Grpc Outstation Proto

/-- `main` is between the start and the stop of the bridge. -/
def MainPc.serving : MainPc → Bool
  | .spawn | .poll | .stopServer _ | .awaitCalls | .stopBridge => true
  | _ => false

/-- `main` has stopped the bridge, and has not begun to destroy it. -/
def MainPc.ending : MainPc → Bool
  | .shutdownOutstation | .join | .destroyServer _ | .destroyBridge => true
  | _ => false

/-- What `running_` and the calls of the bridge are at the statements of `main`. -/
inductive Stage : MainPc → Bool → ControlPc → Prop where
  | before {p} :
    p = .startOutstation ∨ p = .startBridge →
    Stage p false .idle
  | starting {q} :
    q = .startLock ∨ q = .startCheck →
    Stage .startingBridge false q
  | started {q} :
    q = .startUnlock ∨ q = .spawn ∨ (∃ n, q = .assign n) ∨ q = .idle →
    Stage .startingBridge true q
  | serving {p} :
    p.serving = true →
    Stage p true .idle
  | stopping {q} :
    q = .stopLock ∨ q = .stopCheck →
    Stage .stoppingBridge true q
  | cleared {q k} :
    q.stopping = some k ∨ q = .stopped k →
    Stage .stoppingBridge false q
  | stopped {p k} :
    p.ending = true →
    Stage p false (.stopped k)
  | again {q} :
    q = .stopLock ∨ q = .stopCheck ∨ q = .stopFound ∨ q = .idle →
    Stage .destroyingBridge false q
  | gone {p} :
    p = .destroyOutstation ∨ p = .returned →
    Stage p false .idle

/-- `main` and the bridge are in step. -/
def App.InStep (c : App) : Prop :=
  Stage c.main c.bridge.shared.running c.bridge.controlPc

/-- A call of the bridge goes on. -/
lemma Stage.inBridge {p q s s' i q'} (stage : Stage p s.running q) (st : ControlStep s i q s' q')
    (go : i = .go) (busy : p.afterCall ≠ none) : Stage p s'.running q' := by
  generalize e : s.running = run at stage
  cases stage with
  | before h => obtain rfl | rfl := h <;> exact absurd rfl busy
  | starting h =>
    obtain rfl | rfl := h
    · cases st with
      | start | stop => cases go
      | startLock => exact e ▸ .starting (.inr rfl)
    · cases st with
      | start | stop => cases go
      | startFound found => cases e.symm.trans found
      | startSet => exact .started (.inl rfl)
  | started h =>
    obtain rfl | rfl | ⟨n, rfl⟩ | rfl := h
    · cases st with
      | start | stop => cases go
      | startUnlock => exact e ▸ .started (.inr (.inl rfl))
    · cases st with
      | start | stop => cases go
      | spawn => exact e ▸ .started (.inr (.inr (.inl ⟨_, rfl⟩)))
    · cases st with
      | start | stop => cases go
      | assign => exact e ▸ .started (.inr (.inr (.inr rfl)))
    · cases st with
      | start | stop => cases go
  | serving h =>
    cases p with
    | spawn | poll | stopServer | awaitCalls | stopBridge => exact absurd rfl busy
    | _ => cases h
  | stopping h =>
    obtain rfl | rfl := h
    · cases st with
      | start | stop => cases go
      | stopLock => exact e ▸ .stopping (.inr rfl)
    · cases st with
      | start | stop => cases go
      | stopClear => exact .cleared (.inl rfl)
      | stopFound found => cases e.symm.trans found
  | @cleared _ k h =>
    obtain h | rfl := h
    · cases st with
      | stopUnlock => exact e ▸ .cleared (.inl h)
      | notifyAll => exact e ▸ .cleared (.inl h)
      | joinNone => exact e ▸ .cleared (.inr rfl)
      | join => exact e ▸ .cleared (.inr rfl)
      | start | stop => cases go
      | _ => cases h
    · cases st with
      | start | stop => cases go
  | stopped h =>
    cases p with
    | shutdownOutstation | join | destroyServer | destroyBridge => exact absurd rfl busy
    | _ => cases h
  | again h =>
    obtain rfl | rfl | rfl | rfl := h
    · cases st with
      | start | stop => cases go
      | stopLock => exact e ▸ .again (.inr (.inl rfl))
    · cases st with
      | start | stop => cases go
      | stopClear found => cases e.symm.trans found
      | stopFound => exact e ▸ .again (.inr (.inr (.inl rfl)))
    · cases st with
      | start | stop => cases go
      | stopReturn => exact e ▸ .again (.inr (.inr (.inr rfl)))
    · cases st with
      | start | stop => cases go
  | gone h => obtain rfl | rfl := h <;> exact absurd rfl busy

/-- A call of the bridge has returned. -/
lemma Stage.fromBridge {p run q r} (stage : Stage p run q) (after : p.afterCall = some r)
    (rest : q = .idle ∨ ∃ k, q = .stopped k) : Stage r run q := by
  cases stage with
  | before h => obtain rfl | rfl := h <;> cases after
  | starting h => obtain rfl | rfl := h <;> obtain e | ⟨k, e⟩ := rest <;> cases e
  | started h =>
    cases after
    obtain rfl | rfl | ⟨n, rfl⟩ | rfl := h
    · obtain e | ⟨k, e⟩ := rest <;> cases e
    · obtain e | ⟨k, e⟩ := rest <;> cases e
    · obtain e | ⟨k, e⟩ := rest <;> cases e
    · exact .serving rfl
  | serving h =>
    cases p with
    | spawn | poll | stopServer | awaitCalls | stopBridge => cases after
    | _ => cases h
  | stopping h => obtain rfl | rfl := h <;> obtain e | ⟨k, e⟩ := rest <;> cases e
  | cleared h =>
    cases after
    obtain h | rfl := h
    · obtain rfl | ⟨k, rfl⟩ := rest <;> cases h
    · exact .stopped rfl
  | stopped h =>
    cases p with
    | shutdownOutstation | join | destroyServer | destroyBridge => cases after
    | _ => cases h
  | again h =>
    cases after
    obtain rfl | rfl | rfl | rfl := h
    · obtain e | ⟨k, e⟩ := rest <;> cases e
    · obtain e | ⟨k, e⟩ := rest <;> cases e
    · obtain e | ⟨k, e⟩ := rest <;> cases e
    · exact .gone (.inl rfl)
  | gone h => obtain rfl | rfl := h <;> cases after

/-- A call of `start`. -/
lemma Stage.callStart {p s q s' q'} (stage : Stage p s.running q) (st : ControlStep s .start q s' q')
    (pc : p = .startBridge) : Stage .startingBridge s'.running q' := by
  subst pc
  generalize e : s.running = run at stage
  cases stage with
  | before =>
    cases st with
    | start => exact e ▸ .starting (.inl rfl)
  | serving h | stopped h => cases h
  | gone h => obtain h | h := h <;> cases h

/-- A call of `stop`. -/
lemma Stage.callStop {p s q s' q'} (stage : Stage p s.running q) (st : ControlStep s .stop q s' q') :
    (p = .stopBridge → Stage .stoppingBridge s'.running q') ∧
      (p = .destroyBridge → Stage .destroyingBridge s'.running q') := by
  generalize e : s.running = run at stage
  refine ⟨fun pc => ?_, fun pc => ?_⟩
  · subst pc
    cases stage with
    | before h => obtain h | h := h <;> cases h
    | serving =>
      cases st with
      | stop => exact e ▸ .stopping (.inl rfl)
    | stopped h => cases h
    | gone h => obtain h | h := h <;> cases h
  · subst pc
    cases stage with
    | before h => obtain h | h := h <;> cases h
    | serving h => cases h
    | stopped =>
      cases st with
      | stop => exact e ▸ .again (.inl rfl)
    | gone h => obtain h | h := h <;> cases h

/-- While `main` serves it is not at its end. -/
lemma MainPc.not_ending {p : MainPc} (on : p.serving = true) : p.ending = false := by
  cases p with
  | spawn | poll | stopServer | awaitCalls | stopBridge => rfl
  | _ => cases on

/-- Between the start and the stop of the bridge, a statement follows another. -/
lemma Stage.serve {p r run q} (stage : Stage p run q) (on : p.serving = true)
    (on' : r.serving = true) : Stage r run q := by
  cases stage with
  | before h | gone h => obtain rfl | rfl := h <;> cases on
  | serving => exact .serving on'
  | stopped h => cases h.symm.trans (MainPc.not_ending on)
  | _ => cases on

/-- The same after the stop. -/
lemma Stage.end {p r run q} (stage : Stage p run q) (off : p.ending = true) (off' : r.ending = true) :
    Stage r run q := by
  cases stage with
  | before h | gone h => obtain rfl | rfl := h <;> cases off
  | serving h => cases off.symm.trans (MainPc.not_ending h)
  | stopped => exact .stopped off'
  | _ => cases off

/-- Between the start and the stop of the bridge no call of it is under way. -/
lemma Stage.idle {p run q} (stage : Stage p run q) (on : p.serving = true) : q = .idle := by
  cases stage with
  | before h | gone h => obtain rfl | rfl := h <;> cases on
  | serving => rfl
  | stopped h => cases h.symm.trans (MainPc.not_ending on)
  | _ => cases on

/-- The outstation is started while the bridge is as it was constructed. -/
lemma Stage.first {p run q} (stage : Stage p run q) (pc : p = .startOutstation) :
    Stage .startBridge run q := by
  subst pc
  cases stage with
  | before => exact .before (.inr rfl)
  | serving h | stopped h => cases h
  | gone h => obtain h | h := h <;> cases h

/-- The outstation is destroyed after the bridge. -/
lemma Stage.last {p run q} (stage : Stage p run q) (pc : p = .destroyOutstation) :
    Stage .returned run q := by
  subst pc
  cases stage with
  | before h => obtain h | h := h <;> cases h
  | serving h | stopped h => cases h
  | gone => exact .gone (.inr rfl)

/-- Every step keeps `main` in step with the controlling thread of the bridge. -/
lemma App.InStep.step {c c' : App} {a} (inv : c.InStep) (st : c.step a = some c') : c'.InStep := by
  have keep : ∀ {b t i}, c.bridge.step (t, i) = some b → t ≠ .control →
      Stage c.main b.shared.running b.controlPc := by
    intro b t i mv ne
    obtain ⟨running, control⟩ := System.step_other mv ne
    rw [running, control]
    exact inv
  cases App.step_moves st with
  | signal | thread | reply => exact inv
  | call _ _ mv | handler _ mv | flush mv => exact keep mv nofun
  | main st =>
    unfold InStep at inv ⊢
    cases st with
    | startOutstation pc => exact inv.first pc
    | startBridge pc mv => exact inv.callStart (System.step_control mv).1 pc
    | inBridge after mv =>
      refine inv.inBridge (System.step_control mv).1 rfl ?_
      rw [after]
      nofun
    | fromBridge after rest => exact inv.fromBridge after rest
    | stopBridge pc mv => exact (inv.callStop (System.step_control mv).1).1 pc
    | destroyBridge pc mv => exact (inv.callStop (System.step_control mv).1).2 pc
    | sleep => exact inv
    | destroyOutstation pc => exact inv.last pc
    | spawn pc | requested pc | found pc | overlooked pc | shutdown pc | processed pc =>
      exact inv.serve (pc ▸ rfl) rfl
    | shutdownOutstation pc | join pc | foundAgain pc | noServer pc | shutdownAgain pc =>
      exact inv.end (pc ▸ rfl) rfl

/-- In every reachable state `main` and the bridge are in step. -/
theorem App.inStep {C fresh cfg as c} (run : Run App.step C (.init fresh cfg) as c) : c.InStep :=
  run.invariant (fun _ _ _ inv _ st => inv.step st) (.before (.inl rfl))

/-- `main` is somewhere between the first statement that starts the flush thread and the last one that
waits for it. -/
def MainPc.flushing (p : MainPc) : Bool :=
  p = .startingBridge || p.serving || p = .stoppingBridge

/-- Elsewhere `running_` is false, and no `stop` is under way that has cleared it. -/
lemma Stage.off {p run q} (stage : Stage p run q) (out : p.flushing = false) :
    run = false ∧ q.stopping = none := by
  cases stage with
  | before | stopped | gone => exact ⟨rfl, rfl⟩
  | again h => obtain rfl | rfl | rfl | rfl := h <;> exact ⟨rfl, rfl⟩
  | serving h =>
    unfold MainPc.flushing at out
    rw [h, Bool.or_true, Bool.true_or] at out
    cases out
  | starting | started | stopping | cleared => cases out

/-- `main` and the bridge are in step, and the bridge is sound. -/
structure App.Sound (c : App) : Prop where
  inStep : c.InStep
  lifecycle : c.bridge.Lifecycle

/-- Every step keeps the invariants. -/
lemma App.Sound.step {c c' : App} {a} (inv : c.Sound) (st : c.step a = some c') : c'.Sound := by
  refine ⟨inv.inStep.step st, ?_⟩
  obtain same | ⟨b, mv⟩ := c.step_bridge st
  · rw [same]
    exact inv.lifecycle
  · exact inv.lifecycle.step mv

/-- The invariants hold at the beginning. -/
lemma App.Sound.init (fresh : FreshPoints) (cfg : AppConfig) : (App.init fresh cfg).Sound :=
  ⟨.before (.inl rfl), .init⟩

/-- A flush thread makes a step only while `main` is where one is there. -/
lemma App.Sound.flushing {c : App} {n s' p'} (inv : c.Sound)
    (st : FlushStep n c.bridge.shared (c.bridge.flushPc n) s' p') : c.main.flushing = true := by
  by_contra out
  obtain ⟨stop, done⟩ := inv.inStep.off (Bool.eq_false_iff.mpr out)
  exact (inv.lifecycle.newest st).2 (inv.lifecycle.all_finished stop done)

/-- The outstation at a statement of `main`, when the updates `us` have been handed over. -/
def MainPc.outstation (fresh : FreshPoints) (cfg : AppConfig) (us : List PointUpdate) :
    MainPc → OutstationManager
  | .startOutstation => .create fresh cfg
  | .join | .destroyServer _ | .destroyBridge | .destroyingBridge | .destroyOutstation | .returned =>
    ((OutstationManager.create fresh cfg).start.visitAll us).shutdown
  | _ => (OutstationManager.create fresh cfg).start.visitAll us

/-- The updates handed over so far. -/
def App.handed (c : App) : List PointUpdate :=
  c.bridge.shared.hist.handed.map Entry.update

/-- The outstation is what `main` and the updates have made it. -/
structure App.Mirrored (fresh : FreshPoints) (cfg : AppConfig) (c : App) : Prop where
  outstation : c.outstation = c.main.outstation fresh cfg c.handed
  first : c.main = .startOutstation → c.handed = []

/-- Where a flush thread is there, the outstation has been started and takes its updates. -/
lemma MainPc.outstation_flushing {p : MainPc} (fresh : FreshPoints) (cfg : AppConfig)
    (us : List PointUpdate) (on : p.flushing = true) :
    p.outstation fresh cfg us = (OutstationManager.create fresh cfg).start.visitAll us := by
  cases p with
  | startingBridge | spawn | poll | stopServer | awaitCalls | stopBridge | stoppingBridge => rfl
  | _ => cases on

/-- A call of the bridge that returns leaves the outstation alone. -/
lemma MainPc.outstation_after {p q : MainPc} (fresh : FreshPoints) (cfg : AppConfig)
    (us : List PointUpdate) (after : p.afterCall = some q) :
    q.outstation fresh cfg us = p.outstation fresh cfg us ∧ q ≠ .startOutstation := by
  cases p with
  | startingBridge | stoppingBridge | destroyingBridge =>
    cases after
    exact ⟨rfl, nofun⟩
  | _ => cases after

/-- A step of a flush thread hands an update over, or none. -/
lemma handOver_eq {c : App} {n s' p'}
    (st : FlushStep n c.bridge.shared (c.bridge.flushPc n) s' p') :
    ∃ es : List Entry, s'.hist.handed = c.bridge.shared.hist.handed ++ es ∧
      c.handOver n = c.outstation.visitAll (es.map Entry.update) := by
  unfold App.handOver
  generalize c.bridge.flushPc n = p at st
  cases st with
  | @hand u batch => exact ⟨[u], rfl, rfl⟩
  | _ => exact ⟨[], (List.append_nil _).symm, rfl⟩

/-- A caller and the controlling thread hand nothing over. -/
lemma handed_other {b b' : System} {t i} (st : b.step (t, i) = some b') (ne : ∀ n, t ≠ .flush n) :
    b'.shared.hist.handed = b.shared.hist.handed := by
  cases System.step_moves st with
  | caller _ st =>
    obtain ⟨-, -, -, handed⟩ := st.flow
    exact handed
  | flush e => exact absurd e (ne _)
  | control _ st => exact congrArg History.handed st.flow.2

/-- A step of `main` that hands nothing over. -/
lemma App.Mirrored.main {fresh cfg} {c c' : App} (inv : c.Mirrored fresh cfg) (st : MainStep c c') :
    c'.Mirrored fresh cfg := by
  obtain ⟨mirror, first⟩ := inv
  have us : c'.handed = c.handed := by
    refine congrArg (List.map Entry.update) ?_
    cases st with
    | startBridge _ mv | inBridge _ mv | stopBridge _ mv | destroyBridge _ mv =>
      exact handed_other mv nofun
    | _ => rfl
  cases st with
  | startOutstation pc =>
    refine ⟨?_, nofun⟩
    rw [pc] at mirror
    rw [us, first pc]
    exact congrArg OutstationManager.start mirror
  | inBridge =>
    refine ⟨?_, ?_⟩
    · rw [us]
      exact mirror
    · rw [us]
      exact first
  | fromBridge after =>
    obtain ⟨same, later⟩ := MainPc.outstation_after fresh cfg c.handed after
    exact ⟨mirror.trans same.symm, fun pc => absurd pc later⟩
  | sleep => exact ⟨mirror, first⟩
  | shutdownOutstation pc =>
    refine ⟨?_, nofun⟩
    rw [pc] at mirror
    rw [us]
    exact congrArg OutstationManager.shutdown mirror
  | destroyOutstation pc =>
    -- there is nothing left to shut down
    refine ⟨?_, nofun⟩
    rw [pc] at mirror
    rw [us]
    exact (congrArg OutstationManager.shutdown mirror).trans rfl
  | startBridge pc | spawn pc | requested pc | found pc | overlooked pc | shutdown pc | processed pc
  | stopBridge pc | join pc | foundAgain pc | noServer pc | shutdownAgain pc | destroyBridge pc =>
    refine ⟨?_, nofun⟩
    rw [pc] at mirror
    rw [us]
    exact mirror

/-- Every step keeps the outstation what `main` and the hand-overs have made of it. -/
lemma App.Mirrored.step {fresh cfg} {c c' : App} {a} (inv : c.Mirrored fresh cfg) (sound : c.Sound)
    (st : c.step a = some c') : c'.Mirrored fresh cfg := by
  have same : ∀ {d : App}, d.main = c.main → d.outstation = c.outstation →
      d.bridge.shared.hist.handed = c.bridge.shared.hist.handed → d.Mirrored fresh cfg := by
    intro d pc out hist
    have us : d.handed = c.handed := congrArg (List.map Entry.update) hist
    refine ⟨?_, ?_⟩
    · rw [pc, out, us]
      exact inv.outstation
    · rw [pc, us]
      exact inv.first
  cases App.step_moves st with
  | signal | thread | reply => exact same rfl rfl rfl
  | call _ _ mv | handler _ mv => exact same rfl rfl (handed_other mv nofun)
  | main st => exact inv.main st
  | @flush n i b mv =>
    cases System.step_moves mv with
    | caller e => cases e
    | control e => cases e
    | flush e mv =>
      cases e
      have on := sound.flushing mv
      obtain ⟨es, handed, applied⟩ := handOver_eq mv
      have mirror := inv.outstation
      rw [MainPc.outstation_flushing fresh cfg _ on] at mirror
      refine ⟨?_, fun pc => ?_⟩
      · have us : App.handed { c with bridge := b, outstation := c.handOver n } =
            c.handed ++ es.map Entry.update := by
          show b.shared.hist.handed.map Entry.update = _
          rw [handed, List.map_append]
          rfl
        rw [us, MainPc.outstation_flushing fresh cfg _ on, applied, mirror]
        exact (OutstationManager.visitAll_append ..).symm
      · rw [pc] at on
        cases on

/-- The invariants hold in every reachable state. -/
lemma App.sound {C fresh cfg as c} (run : Run App.step C (.init fresh cfg) as c) : c.Sound :=
  run.invariant (fun _ _ _ inv _ st => inv.step st) (.init fresh cfg)

/-- In every reachable state the outstation is what `main` and the hand-overs have made of it. -/
lemma App.mirrored {C fresh cfg as c} (run : Run App.step C (.init fresh cfg) as c) :
    c.Mirrored fresh cfg := by
  refine run.invariant_under (J := Sound) (I := Mirrored fresh cfg) ?_ ?_ (.init fresh cfg)
    ⟨rfl, fun _ => rfl⟩
  · exact fun _ _ _ sound _ st => sound.step st
  · exact fun _ _ _ sound inv _ st => inv.step sound st

/-- `main` is at a statement that works on the outstation. -/
def MainPc.onOutstation (p : MainPc) : Prop :=
  p = .startOutstation ∨ p = .shutdownOutstation ∨ p = .destroyOutstation

/-- While `main` works on the outstation no flush thread may run. -/
lemma MainPc.onOutstation.out {p : MainPc} (on : p.onOutstation) : p.flushing = false := by
  obtain rfl | rfl | rfl := on <;> rfl

/-- While `main` starts, shuts down or destroys the outstation, no flush thread is there; and an update
that is handed over finds the outstation there. -/
theorem outstation_confined {C fresh cfg as c} (run : Run App.step C (.init fresh cfg) as c) :
    (c.main.onOutstation → ∀ n, (c.bridge.flushPc n).alive = false) ∧
      ∀ n, (c.bridge.flushPc n).alive = true → c.outstation.outstation ≠ none := by
  have sound := App.sound run
  have quiet : c.main.flushing = false → ∀ n, (c.bridge.flushPc n).alive = false := by
    intro out
    obtain ⟨stop, done⟩ := sound.inStep.off out
    exact sound.lifecycle.quiet stop done
  refine ⟨fun on => quiet on.out, fun n alive => ?_⟩
  have on : c.main.flushing = true := by
    by_contra out
    cases alive.symm.trans (quiet (Bool.eq_false_iff.mpr out) n)
  rw [(App.mirrored run).outstation, MainPc.outstation_flushing fresh cfg _ on]
  exact OutstationManager.visitAll_outstation (OutstationManager.start_outstation _) _

/-- A request for one analog point. -/
def meterReading : UpdateRequest where
  analogs := [⟨3, .finite 1, .good⟩]
  binaries := []
  counters := []

/-- `main` starts everything and comes to its loop, and the server is built. -/
def startUp : List Action :=
  List.replicate 9 .main ++ List.replicate 4 (.thread true)

/-- The update of a request is handed over, and the flush thread goes on. -/
def delivering : List Action :=
  startUp ++ [.call 0 meterReading] ++ List.replicate 4 (.handler 0 .go) ++
    List.replicate 9 (.flush 0 .go)

/-- The flush thread is there, and so is the outstation. -/
theorem delivering_confined :
    ∃ c, Run App.step Always (.init .documented {}) delivering c ∧ (c.bridge.flushPc 0).alive = true ∧
      c.outstation.outstation ≠ none := by
  refine ⟨_, Run.of_exec rfl, rfl, ?_⟩
  exact (@outstation_confined Always .documented {} delivering _ (Run.of_exec rfl)).2 0 rfl

/-- The measurement has the index, the value and the quality of the update. -/
inductive Carries : Measurement → PointUpdate → Prop where
  | analog {u : AnalogUpdate} {mode} :
    Carries (.analog u.index ⟨u.value, toFlagBits u.quality, mode⟩) (.analog u)
  | binary {u : BinaryUpdate} {mode} :
    Carries (.binary u.index ⟨u.value, toFlagBits u.quality, mode⟩) (.binary u)

/-- An update is applied as one measurement. -/
lemma visit_carries {m : OutstationManager} {o} (on : m.outstation = some o) (u : PointUpdate) :
    ∃ x, Carries x u ∧ (m.visit u).outstation = some (o.apply x) := by
  cases u with
  | analog u =>
    rw [OutstationManager.visit, OutstationManager.updateAnalog, on]
    exact ⟨_, .analog, rfl⟩
  | binary u =>
    rw [OutstationManager.visit, OutstationManager.updateBinary, on]
    exact ⟨_, .binary, rfl⟩

/-- Updates are applied one by one. -/
lemma visitAll_carries (us : List PointUpdate) {m : OutstationManager} {o vs}
    (on : m.outstation = some o) (so_far : List.Forall₂ Carries o.applied vs) :
    ∃ o', (m.visitAll us).outstation = some o' ∧ List.Forall₂ Carries o'.applied (vs ++ us) := by
  induction us generalizing m o vs with
  | nil =>
    rw [List.append_nil]
    exact ⟨o, on, so_far⟩
  | cons u us ih =>
    obtain ⟨x, carries, next⟩ := visit_carries on u
    have longer : List.Forall₂ Carries (o.apply x).applied (vs ++ [u]) :=
      List.rel_append so_far (.cons carries .nil)
    obtain ⟨o', last, all⟩ := ih next longer
    rw [List.append_assoc] at all
    exact ⟨o', last, all⟩

/-- At every statement of `main` the outstation is what the updates handed over so far have made of a
freshly started one, and the measurements that have been applied to it are these updates, one for one
and in this order. -/
theorem outstation_mirrors {C fresh cfg as c} (run : Run App.step C (.init fresh cfg) as c) :
    c.outstation = c.main.outstation fresh cfg c.handed ∧
      ∀ o, c.outstation.outstation = some o → List.Forall₂ Carries o.applied c.handed := by
  have mirror := (App.mirrored run).outstation
  refine ⟨mirror, fun o on => ?_⟩
  obtain ⟨o', last, all⟩ :=
    visitAll_carries c.handed (m := (OutstationManager.create fresh cfg).start) rfl .nil
  have up : c.outstation = (OutstationManager.create fresh cfg).start.visitAll c.handed := by
    rw [mirror] at on ⊢
    generalize c.main = p at on ⊢
    cases p with
    | startOutstation | join | destroyServer | destroyBridge | destroyingBridge | destroyOutstation
    | returned => cases on
    | _ => rfl
  rw [up, last] at on
  cases on
  exact all

/-- The update is the one that has been applied. -/
theorem delivering_mirrors :
    ∃ c o, Run App.step Always (.init .documented {}) delivering c ∧ c.outstation.outstation = some o ∧
      o.applied ≠ [] ∧ List.Forall₂ Carries o.applied c.handed := by
  refine ⟨_, _, Run.of_exec rfl, rfl, nofun, ?_⟩
  exact (@outstation_mirrors Always .documented {} delivering _ (Run.of_exec rfl)).2 _ rfl

end Dnp3Bridge.Main
