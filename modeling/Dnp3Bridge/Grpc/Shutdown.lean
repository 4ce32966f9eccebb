import Dnp3Bridge.Grpc.GrpcServer

/-!
# Stopping the server

`stop` is a no-op while `server_` is null, and the only other call of `stop` waits for `start` to
return. So a stop that comes before `start` has published its server is missed, and `start` waits
for good; one that comes later is not.
-/

namespace Dnp3Bridge.Grpc
open Concurrency

/-- `main` is in one of its two calls of `stop`. -/
def MainPc.stopping : MainPc → Bool
  | .stop _ | .destructor _ => true
  | _ => false

/-- The first call of `stop` has returned. -/
def MainPc.stopped : MainPc → Bool
  | .starting | .spawn | .poll | .stop _ => false
  | _ => true

/-- The first call of `stop` has looked at `server_`. -/
def MainPc.looked : MainPc → Bool
  | .starting | .spawn | .poll | .stop .check => false
  | _ => true

/-- The thread is joined. -/
def MainPc.joined : MainPc → Bool
  | .destructor _ | .returned => true
  | _ => false

/-- `start` has published its server, or will not get one. -/
def StartPc.decided : StartPc → Bool
  | .unborn | .build | .publish (some _) => false
  | _ => true

/-- `stop` has returned, it is not called again before `start` returns, and `start` is in `Wait`, or
can still enter it, with no `Shutdown` issued. -/
structure Process.Missed (c : Process) : Prop where
  stopped : c.main.stopped = true
  last : ∀ as c', Run step Always c as c' → c'.main.stopping = true → c'.thread = .returned
  waits : ∃ as c', Run step Always c as c' ∧ c'.thread = .wait ∧ c'.server = some ⟨false⟩

/-- `main` looks at `server_` when `start` has published its server, or will not get one. -/
def Timely (c : Process) (a : Action) : Prop :=
  a = .main → c.main = .stop .check → c.thread.decided = true

instance (c : Process) (a : Action) : Decidable (Timely c a) :=
  inferInstanceAs (Decidable (_ → _ → _))

/-- Once it has looked, `start` publishes no server any more; once it has returned, no server is left
running. -/
structure Process.Heeded (c : Process) : Prop where
  decided : c.main.looked = true → c.thread.decided = true
  shut : c.main.stopped = true → c.server ≠ some ⟨false⟩

/-- From there `start` neither goes back nor publishes a server. -/
lemma StartStep.decided {s p s' p'} (st : StartStep s p s' p') (h : p.decided = true) :
    p'.decided = true ∧ (s ≠ some ⟨false⟩ → s' ≠ some ⟨false⟩) := by
  cases st with
  | build => nomatch h
  | publish =>
    cases s' with
    | none => exact ⟨rfl, fun _ => nofun⟩
    | some built => nomatch h
  | _ => exact ⟨rfl, id⟩

/-- A server that has been shut down does not listen. -/
lemma shut_ne (s : Option Server) : s.map (fun _ => Server.mk true) ≠ some ⟨false⟩ := by
  cases s <;> simp

/-- A timely `stop` is heeded. -/
lemma Process.Heeded.step {c c' : Process} {a} (h : c.Heeded) (timely : Timely c a)
    (st : c.step a = some c') : c'.Heeded := by
  cases step_moves st with
  | signal => exact ⟨h.decided, h.shut⟩
  | thread mv =>
    refine ⟨fun looked => (mv.decided (h.decided looked)).1, fun stopped => ?_⟩
    have looked : c.main.looked = true := by
      generalize c.main = p at stopped
      cases p with
      | starting | spawn | poll | stop => nomatch stopped
      | _ => rfl
    exact (mv.decided (h.decided looked)).2 (h.shut stopped)
  | main mv =>
    cases mv with
    | starting | spawn | requested => exact ⟨nofun, nofun⟩
    | sleep => exact h
    | found pc _ => exact ⟨fun _ => timely rfl pc, nofun⟩
    | overlooked pc null => exact ⟨fun _ => timely rfl pc, fun _ => null ▸ nofun⟩
    | shutdown pc => exact ⟨fun _ => h.decided (pc ▸ rfl), fun _ => shut_ne _⟩
    | bridgeStop pc | outstationShutdown pc | join pc _ =>
      exact ⟨fun _ => h.decided (pc ▸ rfl), fun _ => h.shut (pc ▸ rfl)⟩
    | destructor pc shut _ =>
      refine ⟨fun _ => h.decided (pc ▸ rfl), fun _ => ?_⟩
      rcases shut with rfl | rfl
      · exact h.shut (pc ▸ rfl)
      · exact shut_ne _

/-- `main` does not come back to before the end of its first `stop`. -/
lemma Process.stopped_step {c c' : Process} {a} (h : c.main.stopped = true)
    (st : c.step a = some c') : c'.main.stopped = true := by
  cases step_moves st with
  | signal | thread _ => exact h
  | main mv =>
    cases mv with
    | starting pc | spawn pc | requested pc | found pc _ => rw [pc] at h; nomatch h
    | sleep => exact h
    | destructor _ _ rest => rcases rest with ⟨r, rfl⟩ | rfl <;> rfl
    | _ => rfl

/-- After a `stop` that was heeded no step has to be timely any more. -/
lemma Process.timely_of_stopped {c : Process} {a} (h : c.main.stopped = true) : Timely c a := by
  intro _ pc
  rw [pc] at h
  nomatch h

/-- If `main` looks at `server_` only when `start` has published its server or will not get one, the
stop is not missed. -/
theorem stop_heeded {as c} (run : Run Process.step Timely {} as c) : ¬ c.Missed := by
  intro missed
  have heeded : c.Heeded :=
    run.invariant (fun _ _ _ h timely st => h.step timely st) ⟨nofun, nofun⟩
  -- from here on the stop has returned, so every further step is timely
  obtain ⟨bs, c', run', -, up⟩ := missed.waits
  have later : c'.main.stopped = true ∧ c'.Heeded :=
    run'.invariant (I := fun c => c.main.stopped = true ∧ c.Heeded)
      (fun _ _ _ h _ st => ⟨Process.stopped_step h.1 st, h.2.step (Process.timely_of_stopped h.1) st⟩)
      ⟨missed.stopped, heeded⟩
  exact later.2.shut later.1 up

/-- A signal that comes when the server is listening. -/
def lateSignal : List Action :=
  [.main, .main] ++ List.replicate 4 (.thread true) ++ [.signal] ++ List.replicate 5 .main

/-- A `stop` that comes after the server has been published is heeded. -/
theorem lateSignal_heeded : ∃ c, Run Process.step Timely {} lateSignal c ∧ c.main = .join ∧
    c.server = some ⟨true⟩ ∧ ¬ c.Missed := by
  refine ⟨_, Run.of_exec_guarded rfl, rfl, rfl, ?_⟩
  exact @stop_heeded lateSignal _ (Run.of_exec_guarded rfl)

/-- The destructor of the server runs when `start` has returned. -/
def Process.Joined (c : Process) : Prop :=
  c.main.joined = true → c.thread = .returned

/-- Every step keeps the destructor of the server behind the return of `start`. -/
lemma Process.Joined.step {c c' : Process} {a} (h : c.Joined) (st : c.step a = some c') :
    c'.Joined := by
  intro joined
  cases step_moves st with
  | signal => exact h joined
  | thread mv =>
    rw [h joined] at mv
    nomatch mv
  | main mv =>
    cases mv with
    | sleep => exact h joined
    | join _ returned => exact returned
    | destructor pc => exact h (pc ▸ rfl)
    | _ => nomatch joined

/-- When the first `stop` has returned, the next one waits for `start` to return. -/
lemma Process.last_of_stopped {c c' : Process} {as} (stopped : c.main.stopped = true)
    (joined : c.Joined) (run : Run step Always c as c') (stopping : c'.main.stopping = true) :
    c'.thread = .returned := by
  have later : c'.main.stopped = true ∧ c'.Joined :=
    run.invariant (I := fun c => c.main.stopped = true ∧ c.Joined)
      (fun _ _ _ h _ st => ⟨stopped_step h.1 st, h.2.step st⟩) ⟨stopped, joined⟩
  apply later.2
  have stopped := later.1
  generalize c'.main = p at stopped stopping
  cases p with
  | destructor => rfl
  | stop => nomatch stopped
  | _ => nomatch stopping

/-- The thread is there. -/
def MainPc.spawned : MainPc → Bool
  | .starting | .spawn => false
  | _ => true

/-- As long as `start` has not published a server, there is none; the one that it publishes is not
shut down. -/
structure Process.Fresh (c : Process) : Prop where
  unborn : c.thread = .unborn ↔ c.main.spawned = false
  built : ∀ s, c.thread = .publish (some s) → s = ⟨false⟩
  unpublished : c.thread.decided = false → c.server = none

/-- Every step leaves it to `start` to publish a server. -/
lemma Process.Fresh.step {c c' : Process} {a} (h : c.Fresh) (st : c.step a = some c') :
    c'.Fresh := by
  obtain ⟨unborn, built, unpublished⟩ := h
  cases step_moves st with
  | signal => exact ⟨unborn, built, unpublished⟩
  | thread mv =>
    obtain ⟨requested, server, thread, main⟩ := c
    have born : thread ≠ .unborn → main.spawned ≠ false := fun ne => mt unborn.mpr ne
    cases mv with
    | build fresh =>
      refine ⟨⟨nofun, fun e => absurd e (born nofun)⟩, fun s e => ?_, fun _ => unpublished rfl⟩
      cases e
      rcases fresh with e | e
      · nomatch e
      · exact Option.some.inj e
    | publish | found | failed | log | wake =>
      exact ⟨⟨nofun, fun e => absurd e (born nofun)⟩, nofun, nofun⟩
  | main mv =>
    cases mv with
    | starting pc => exact ⟨⟨fun _ => rfl, fun _ => unborn.mpr (pc ▸ rfl)⟩, built, unpublished⟩
    | spawn pc =>
      have none := unpublished (unborn.mpr (pc ▸ rfl) ▸ rfl)
      exact ⟨⟨nofun, nofun⟩, nofun, fun _ => none⟩
    | sleep => exact ⟨unborn, built, unpublished⟩
    | requested pc | found pc | overlooked pc | bridgeStop pc | outstationShutdown pc | join pc =>
      rw [pc] at unborn
      exact ⟨unborn, built, unpublished⟩
    | shutdown pc =>
      rw [pc] at unborn
      exact ⟨unborn, built, fun early => congrArg (Option.map _) (unpublished early)⟩
    | destructor pc shut rest =>
      rw [pc] at unborn
      refine ⟨?_, built, fun early => ?_⟩
      · rcases rest with ⟨r, rfl⟩ | rfl <;> exact unborn
      · rcases shut with rfl | rfl
        · exact unpublished early
        · exact congrArg (Option.map _) (unpublished early)

/-- A stop that comes when `start` can still publish a server is missed. -/
theorem missed_of_untimely {as} {c c' : Process} (run : Run Process.step Always {} as c)
    (untimely : ¬ Timely c .main) (st : c.step .main = some c') : c'.Missed := by
  obtain ⟨pc, early⟩ : c.main = .stop .check ∧ c.thread.decided = false := by
    simpa [Timely] using untimely
  obtain ⟨unborn, built, unpublished⟩ : c.Fresh :=
    run.invariant (fun _ _ _ h _ st => h.step st) ⟨by decide, nofun, fun _ => rfl⟩
  obtain ⟨requested, server, thread, main⟩ := c
  obtain rfl := unpublished early
  obtain rfl := pc
  cases st
  refine ⟨rfl, fun as c' run => Process.last_of_stopped rfl ?_ run, ?_⟩
  · exact fun joined => absurd joined Bool.false_ne_true
  -- if the server builds, `start` goes on to `Wait`
  · cases thread with
    | unborn => nomatch unborn.mp rfl
    | build => exact ⟨List.replicate 4 (.thread true), _, Run.of_exec rfl, rfl, rfl⟩
    | publish s =>
      cases s with
      | none => nomatch early
      | some s =>
        obtain rfl := built s rfl
        exact ⟨List.replicate 3 (.thread true), _, Run.of_exec rfl, rfl, rfl⟩
    | _ => nomatch early

/-- `stop` has returned, the thread is not joined, and `start` waits for a server that is up. -/
structure Process.Hung (c : Process) : Prop where
  stopped : c.main.stopped = true
  unjoined : c.main.joined = false
  wait : c.thread = .wait
  up : c.server = some ⟨false⟩

/-- There is no way out of it. -/
lemma Process.Hung.step {c c' : Process} {a} (h : c.Hung) (st : c.step a = some c') : c'.Hung := by
  obtain ⟨stopped, unjoined, wait, up⟩ := h
  have stopped' := stopped_step stopped st
  cases step_moves st with
  | signal => exact ⟨stopped, unjoined, wait, up⟩
  | thread mv =>
    rw [wait] at mv
    cases mv with
    | wake down => nomatch up.symm.trans down
  | main mv =>
    cases mv with
    | sleep => exact ⟨stopped, unjoined, wait, up⟩
    | bridgeStop | outstationShutdown => exact ⟨stopped', rfl, wait, up⟩
    | join _ returned => nomatch wait.symm.trans returned
    | starting pc | spawn pc | requested pc | found pc | overlooked pc | shutdown pc =>
      rw [pc] at stopped
      nomatch stopped
    | destructor pc =>
      rw [pc] at unjoined
      nomatch unjoined

/-- A process that hangs goes on hanging, and has missed its stop. -/
theorem Process.Hung.missed {c : Process} (h : c.Hung) :
    c.Missed ∧ ∀ as c', Run Process.step Always c as c' → c'.Hung := by
  have joined : c.Joined := fun joined => nomatch h.unjoined.symm.trans joined
  refine ⟨⟨h.stopped, fun as c' run => last_of_stopped h.stopped joined run, ?_⟩, ?_⟩
  · exact ⟨[], c, .nil, h.wait, h.up⟩
  · intro as c' run
    exact run.invariant (fun _ _ _ h _ st => h.step st) h

/-- A signal that comes before the server is built. -/
def earlySignal : List Action :=
  [.main, .main, .signal] ++ List.replicate 4 .main ++ List.replicate 4 (.thread true)

/-- `main` waits for the thread, which waits for a `Shutdown` that never comes. -/
theorem earlySignal_missed : ∃ c, Run Process.step Always {} earlySignal c ∧ c.main = .join ∧
    c.Missed ∧ ∀ as c', Run Process.step Always c as c' → c'.main ≠ .returned := by
  refine ⟨_, Run.of_exec rfl, rfl, ?_⟩
  obtain ⟨missed, forever⟩ := Process.Hung.missed (c := ⟨true, some ⟨false⟩, .wait, .join⟩)
    ⟨rfl, rfl, rfl, rfl⟩
  refine ⟨missed, fun as c' run returned => ?_⟩
  have unjoined := (forever as c' run).unjoined
  rw [returned] at unjoined
  nomatch unjoined

end Dnp3Bridge.Grpc
