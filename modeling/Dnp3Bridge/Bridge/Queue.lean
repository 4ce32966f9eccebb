import Dnp3Bridge.Bridge.Lifecycle

/-!
# Delivery of the updates

What has been handed to the outstation, the rest of the current batch and the queue are always, in
this order, everything that has been pushed. A flush thread leaves its loop only with an empty queue
and an empty batch, so a `stop` that has joined it leaves nothing behind that was pushed before.
-/

namespace Dnp3Bridge.Bridge
open Concurrency

/-- The part of its batch that a flush thread still has to hand over. -/
def FlushPc.batch : FlushPc → List Entry
  | .unlock batch | .drain batch => batch
  | _ => []

/-- The rest of the current batch, which is that of the newest flush thread. -/
def System.batch (c : System) : List Entry :=
  match c.shared.spawned with
  | 0 => []
  | n + 1 => (c.flushPc n).batch

/-- The order of delivery, and what a `stop` can rely on: `k` updates had been pushed when it cleared
`running_`, and they have been handed over once the flush thread has left its loop. -/
structure System.Flow (c : System) : Prop where
  order : c.shared.hist.handed ++ c.batch ++ c.shared.queue = c.shared.hist.pushed
  mark_le : ∀ {k}, c.controlPc.stopping = some k → k ≤ c.shared.hist.pushed.length
  left : ∀ {k n}, c.controlPc.stopping = some k → c.shared.spawned = n + 1 →
    (c.flushPc n).leaving = true → k ≤ c.shared.hist.handed.length
  stopped : ∀ {k}, c.controlPc = .stopped k → k ≤ c.shared.hist.handed.length

/-- A caller pushes to the back of the queue and to nothing else. -/
lemma CallerStep.flow {n s p s' p'} (st : CallerStep n s p s' p') :
    ∃ es, s'.queue = s.queue ++ es ∧ s'.hist.pushed = s.hist.pushed ++ es ∧
      s'.hist.handed = s.hist.handed := by
  cases st with
  | @push u us => exact ⟨[⟨u, n⟩], rfl, rfl, rfl⟩
  | _ => exact ⟨[], (List.append_nil _).symm, (List.append_nil _).symm, rfl⟩

/-- A flush thread moves updates along, and loses and reorders none. -/
lemma FlushStep.flow {n s p s' p'} (st : FlushStep n s p s' p') :
    s'.hist.handed ++ p'.batch ++ s'.queue = s.hist.handed ++ p.batch ++ s.queue ∧
      s'.hist.pushed = s.hist.pushed ∧ s.hist.handed.length ≤ s'.hist.handed.length := by
  cases st with
  | swap => exact ⟨by simp [FlushPc.batch], rfl, le_rfl⟩
  | hand => exact ⟨by simp [FlushPc.batch], rfl, by simp⟩
  | _ => exact ⟨rfl, rfl, le_rfl⟩

/-- A flush thread leaves its loop only when there is nothing left to hand over. -/
lemma FlushStep.leave_inv {n s p s' p'} (st : FlushStep n s p s' p') (leave : p'.leaving = true) :
    p.leaving = true ∨ (p'.batch = [] ∧ s'.queue = []) := by
  cases st with
  | leaveLoop _ empty => exact .inr ⟨rfl, empty⟩
  | exit => exact .inl rfl
  | finish => exact .inl rfl
  | _ => cases leave

/-- The controlling thread touches neither the queue nor what is recorded. -/
lemma ControlStep.flow {s i p s' p'} (st : ControlStep s i p s' p') :
    s'.queue = s.queue ∧ s'.hist = s.hist := by
  cases st <;> exact ⟨rfl, rfl⟩

/-- The mark of a `stop` is the number of updates pushed when it clears `running_`. -/
lemma ControlStep.stopping_inv {s i p s' p' k} (st : ControlStep s i p s' p')
    (e : p'.stopping = some k) : s'.spawned = s.spawned ∧ (p.stopping = some k ∨
      (k = s.hist.pushed.length ∧ p.resting = true ∧ s.running = true)) := by
  cases st with
  | stopClear run =>
    cases e
    exact ⟨rfl, .inr ⟨rfl, rfl, run⟩⟩
  | stopUnlock => exact ⟨rfl, .inl e⟩
  | notifyAll => exact ⟨rfl, .inl e⟩
  | _ => cases e

/-- A `stop` returns from its `join`. -/
lemma ControlStep.stopped_inv {s i p s' k} (st : ControlStep s i p s' (.stopped k)) :
    p.stopping = some k ∧ ∀ m, s.flushThread = some m → s.finished m = true := by
  cases st with
  | joinNone none =>
    refine ⟨rfl, fun m e => ?_⟩
    cases none.symm.trans e
  | join found ended =>
    refine ⟨rfl, fun m e => ?_⟩
    cases found.symm.trans e
    exact ended

/-- A controlling thread that is stopping a flush thread is in the second half of `stop`. -/
lemma ControlPc.not_resting {p : ControlPc} {k} (e : p.stopping = some k) :
    p.resting = false ∧ p.mayRun = false := by
  cases p with
  | stopUnlock => exact ⟨rfl, rfl⟩
  | notifyAll => exact ⟨rfl, rfl⟩
  | join => exact ⟨rfl, rfl⟩
  | _ => cases e

/-- The stage of the flush threads while a `stop` is under way. -/
lemma Life.of_stopping {s f p k} (life : Life s f p) (e : p.stopping = some k) :
    ∃ m, s.flushThread = some m ∧ s.spawned = m + 1 := by
  obtain ⟨busy, busy'⟩ := ControlPc.not_resting e
  cases life with
  | off rest => cases busy.symm.trans rest
  | on rest => cases busy'.symm.trans rest
  | starting pc => obtain rfl | rfl := pc <;> cases e
  | assigning => cases e
  | stopping _ _ thr sp _ => exact ⟨_, thr, sp⟩

/-- The stage of the flush threads when a call finds the `Bridge` running. -/
lemma Life.of_running {s f p} (life : Life s f p) (rest : p.resting = true)
    (run : s.running = true) : ∃ m, s.spawned = m + 1 ∧ (f m).leaving = false := by
  cases life with
  | off _ stop => cases run.symm.trans stop
  | on _ _ _ sp _ stay => exact ⟨_, sp, stay⟩
  | starting pc => obtain rfl | rfl := pc <;> cases rest
  | assigning => cases rest
  | stopping pc => cases rest.symm.trans (ControlPc.not_resting pc).1

/-- The creation of a flush thread changes no batch. -/
lemma System.batch_control {c c' : System} {i p'} (lc : c.Lifecycle)
    (st : ControlStep c.shared i c.controlPc c'.shared p') (flush : c'.flushPc = c.flushPc) :
    c'.batch = c.batch := by
  have life := lc.life
  have unborn := lc.unborn
  unfold batch
  rw [flush]
  generalize c.controlPc = p, c'.shared = s' at st life
  cases st with
  | spawn =>
    cases life with
    | off rest => cases rest
    | on rest => cases rest
    | stopping pc => cases pc
    | starting _ _ _ fin =>
      simp only [unborn _ le_rfl]
      cases e : c.shared.spawned with
      | zero => rfl
      | succ n =>
        show _ = (c.flushPc n).batch
        rw [fin n (by omega)]
        rfl
  | _ => rfl

section
variable {c c' : System} {n : Nat}

/-- A caller adds to what has been pushed, and takes nothing from what has been handed over. -/
lemma System.Flow.caller {p p'} (flow : c.Flow) (st : CallerStep n c.shared p c'.shared p')
    (flush : c'.flushPc = c.flushPc) (control : c'.controlPc = c.controlPc) : c'.Flow := by
  obtain ⟨es, queue, pushed, handed⟩ := st.flow
  obtain ⟨-, -, spawned, -⟩ := st.fields_eq
  have batch : c'.batch = c.batch := by rw [batch, batch, flush, spawned]
  refine ⟨?_, fun e => ?_, fun e sp leave => ?_, fun e => ?_⟩
  · rw [handed, batch, queue, pushed, ← flow.order, ← List.append_assoc]
  · rw [control] at e
    rw [pushed, List.length_append]
    exact Nat.le_add_right_of_le (flow.mark_le e)
  · rw [control] at e
    rw [flush] at leave
    rw [handed]
    exact flow.left e (spawned ▸ sp) leave
  · rw [control] at e
    rw [handed]
    exact flow.stopped e

/-- The newest flush thread adds to what has been handed over; it leaves its loop when that is
everything. -/
lemma System.Flow.flush {p'} (flow : c.Flow) (lc : c.Lifecycle)
    (st : FlushStep n c.shared (c.flushPc n) c'.shared p')
    (flush : c'.flushPc = Function.update c.flushPc n p') (control : c'.controlPc = c.controlPc) :
    c'.Flow := by
  obtain ⟨sp, -⟩ := lc.newest st
  obtain ⟨-, -, spawned⟩ := st.fields_eq
  obtain ⟨order, pushed, grown⟩ := st.flow
  -- the current batch is that of this thread
  have batch : c.batch = (c.flushPc n).batch := by rw [batch, sp]
  have batch' : c'.batch = p'.batch := by
    rw [System.batch, spawned, sp, flush]
    simp only [Function.update_self]
  have order' : c'.shared.hist.handed ++ c'.batch ++ c'.shared.queue = c'.shared.hist.pushed := by
    rw [batch', order, ← batch, flow.order, pushed]
  refine ⟨order', fun e => ?_, fun {k m} e sp' leave => ?_, fun e => ?_⟩
  · rw [control] at e
    rw [pushed]
    exact flow.mark_le e
  · rw [control] at e
    have eq : m = n := by omega
    subst eq
    rw [flush, Function.update_self] at leave
    obtain old | ⟨done, empty⟩ := st.leave_inv leave
    · exact (flow.left e sp old).trans grown
    · -- everything pushed has been handed over
      rw [batch', done, empty, List.append_nil, List.append_nil] at order'
      rw [order', pushed]
      exact flow.mark_le e
  · rw [control] at e
    exact (flow.stopped e).trans grown

/-- A `stop` takes its mark when it clears `running_`, and returns when the flush thread has left its
loop. -/
lemma System.Flow.control {i p'} (flow : c.Flow) (lc : c.Lifecycle)
    (st : ControlStep c.shared i c.controlPc c'.shared p') (flush : c'.flushPc = c.flushPc)
    (control : c'.controlPc = p') : c'.Flow := by
  obtain ⟨queue, hist⟩ := st.flow
  have batch : c'.batch = c.batch := batch_control lc st flush
  refine ⟨?_, fun e => ?_, fun {k n} e sp leave => ?_, fun e => ?_⟩
  · rw [hist, batch, queue, flow.order]
  · rw [control] at e
    rw [hist]
    obtain ⟨-, old | ⟨rfl, -, -⟩⟩ := st.stopping_inv e
    · exact flow.mark_le old
    · exact le_rfl
  · rw [control] at e
    rw [hist]
    rw [flush] at leave
    obtain ⟨spawned, old | ⟨-, rest, run⟩⟩ := st.stopping_inv e
    · exact flow.left old (spawned.symm.trans sp) leave
    · -- the stop begins, and the flush thread has not begun to leave
      obtain ⟨m, sp', stay⟩ := lc.life.of_running rest run
      have eq : n = m := by omega
      subst eq
      cases leave.symm.trans stay
  · rw [control] at e
    rw [hist]
    rw [e] at st
    obtain ⟨old, ended⟩ := st.stopped_inv
    obtain ⟨m, thr, sp⟩ := lc.life.of_stopping old
    refine flow.left old sp ?_
    rw [(lc.finished_iff m).mp (ended m thr)]
    rfl

end

/-- Every step keeps the flow of the updates. -/
lemma System.Flow.step {c c' : System} {a} (flow : c.Flow) (lc : c.Lifecycle)
    (st : c.step a = some c') : c'.Flow := by
  cases c.step_moves st with
  | caller _ st _ flush control => exact flow.caller st flush control
  | flush _ st _ flush control => exact flow.flush lc st flush control
  | control _ st _ flush control => exact flow.control lc st flush control

/-- At the beginning nothing flows. -/
lemma System.Flow.init : System.init.Flow :=
  ⟨rfl, nofun, nofun, nofun⟩

/-- In every reachable state the updates are delivered in order. -/
theorem System.flow {C as c} (run : Run step C init as c) : c.Flow := by
  refine run.invariant_under (J := Lifecycle) (I := Flow) ?_ ?_ Lifecycle.init Flow.init
  · exact fun _ _ _ lc _ st => lc.step st
  · exact fun _ _ _ lc flow _ st => flow.step lc st

/-- No flush thread is alive, and the controlling thread is not about to create one. -/
structure System.Quiet (c : System) : Prop where
  control : c.controlPc = .idle ∨ (∃ k, c.controlPc = .stopped k) ∨ c.controlPc = .stopLock ∨
    c.controlPc = .stopCheck ∨ c.controlPc = .stopFound
  running : c.shared.running = false
  finished : ∀ k < c.shared.spawned, c.flushPc k = .finished

/-- Without a call of `start` a quiet system stays quiet, and hands nothing over. -/
lemma System.Quiet.step {c c' : System} {a} (quiet : c.Quiet) (lc : c.Lifecycle)
    (ne : a ≠ (.control, .start)) (st : c.step a = some c') :
    c'.Quiet ∧ c'.shared.hist.handed = c.shared.hist.handed := by
  obtain ⟨control, running, finished⟩ := quiet
  cases c.step_moves st with
  | caller _ st _ flush pc =>
    obtain ⟨run, -, spawned, -⟩ := st.fields_eq
    obtain ⟨-, -, -, handed⟩ := st.flow
    refine ⟨⟨?_, run.trans running, ?_⟩, handed⟩
    · rw [pc]
      exact control
    · rw [flush, spawned]
      exact finished
  | flush _ st => exact absurd finished (lc.newest st).2
  | @control p' et st _ flush pc =>
    obtain ⟨t, i⟩ := a
    cases et
    obtain ⟨-, hist⟩ := st.flow
    refine ⟨?_, congrArg History.handed hist⟩
    have kept : c'.shared.running = false → c'.shared.spawned = c.shared.spawned →
        (p' = .idle ∨ (∃ k, p' = .stopped k) ∨ p' = .stopLock ∨ p' = .stopCheck ∨
          p' = .stopFound) → c'.Quiet := by
      intro run spawned control
      refine ⟨pc ▸ control, run, ?_⟩
      rw [flush, spawned]
      exact finished
    generalize c.controlPc = p at st control
    generalize c'.shared = s' at st kept
    cases st with
    | start => exact absurd rfl ne
    | stop => exact kept running rfl (.inr (.inr (.inl rfl)))
    | stopLock => exact kept running rfl (.inr (.inr (.inr (.inl rfl))))
    | stopClear run => cases running.symm.trans run
    | stopFound => exact kept running rfl (.inr (.inr (.inr (.inr rfl))))
    | stopReturn => exact kept running rfl (.inl rfl)
    | _ => obtain e | ⟨k, e⟩ | e | e | e := control <;> cases e

/-- What the queue guarantees in a state. -/
structure Delivery (c : System) : Prop where
  in_order : c.shared.hist.handed ++ c.batch ++ c.shared.queue = c.shared.hist.pushed
  stop_drains : ∀ {k}, c.pc .control = .control (.stopped k) →
    c.shared.hist.pushed.take k <+: c.shared.hist.handed

/-- A `stop` that has returned has drained what was pushed before. -/
lemma System.Flow.delivery {c : System} (flow : c.Flow) : Delivery c := by
  refine ⟨flow.order, fun {k} e => ?_⟩
  have le := flow.stopped (k := k) (by rw [controlPc, e])
  rw [← flow.order, List.append_assoc, List.take_append_of_le_length le]
  exact List.take_prefix ..

/-- Every update is delivered once and in order; a `stop` that found the `Bridge` running has, when it
returns, handed over everything pushed before it cleared `running_`; and nothing more is handed over
until the next `start`. -/
theorem delivery_in_order {as c} (run : Run System.step Always System.init as c) :
    Delivery c ∧
      ∀ k, c.pc .control = .control (.stopped k) →
        ∀ bs c', Run System.step (fun _ a => a ≠ (.control, .start)) c bs c' →
          c'.shared.hist.handed = c.shared.hist.handed := by
  have lc := System.lifecycle run
  refine ⟨(System.flow run).delivery, fun k e bs c' run' => ?_⟩
  have pc : c.controlPc = .stopped k := by rw [System.controlPc, e]
  have quiet : c.Quiet := by
    have life := lc.life
    rw [pc] at life
    cases life with
    | off _ run _ fin => exact ⟨.inr (.inl ⟨k, pc⟩), run, fin⟩
    | on rest => cases rest
    | starting pc => obtain e | e := pc <;> cases e
    | stopping pc => cases pc
  have both := run'.invariant_under (J := System.Lifecycle)
    (I := fun d => d.Quiet ∧ d.shared.hist.handed = c.shared.hist.handed)
    (fun _ _ _ lc _ st => lc.step st)
    (fun _ _ _ lc quiet ne st =>
      ⟨(quiet.1.step lc ne st).1, (quiet.1.step lc ne st).2.trans quiet.2⟩)
    lc ⟨quiet, rfl⟩
  exact both.2

/-- A call of `start`. -/
def startBridge : List (Thread × Choice) :=
  [(.control, .start), (.control, .go), (.control, .go), (.control, .go), (.control, .go),
    (.control, .go)]

/-- Flush thread `n` finds nothing to do and parks. -/
def park (n : Nat) : List (Thread × Choice) :=
  [(.flush n, .go), (.flush n, .go), (.flush n, .go)]

/-- Caller `n` pushes its next update and wakes flush thread `m` if that is parked. -/
def pushNext (n m : Nat) : List (Thread × Choice) :=
  [(.caller n, .go), (.caller n, .go), (.caller n, .go), (.caller n, .notified m)]

/-- Flush thread `n` wakes up and swaps its batch out. -/
def takeBatch (n : Nat) : List (Thread × Choice) :=
  [(.flush n, .go), (.flush n, .go), (.flush n, .go), (.flush n, .go), (.flush n, .go),
    (.flush n, .go)]

/-- `stop` clears `running_`, notifies, and waits in `join`. -/
def callStop : List (Thread × Choice) :=
  [(.control, .stop), (.control, .go), (.control, .go), (.control, .go), (.control, .go)]

/-- Thread `t` makes `k` steps. -/
def steps (t : Thread) (k : Nat) : List (Thread × Choice) :=
  List.replicate k (t, .go)

def reading : PointUpdate := .analog ⟨3, .finite 1, .good⟩

def contact : PointUpdate := .binary ⟨3, true, .good⟩

/-- A caller pushes two updates; `stop` comes while the first is being handed over; another update is
pushed after that. -/
def stopWhileDraining : List (Thread × Choice) :=
  startBridge ++ park 0 ++ [(.caller 0, .apply [reading, contact])] ++ pushNext 0 0 ++ takeBatch 0 ++
    pushNext 0 0 ++ callStop ++ steps (.flush 0) 14 ++ steps .control 1 ++
    [(.caller 1, .apply [reading])] ++ pushNext 1 0

/-- Both updates pushed before the `stop` have been delivered when it returns. -/
theorem stopWhileDraining_delivers :
    ∃ c, Run System.step Always System.init stopWhileDraining c ∧
      c.pc .control = .control (.stopped 2) ∧
      c.shared.hist.handed = [⟨reading, 0⟩, ⟨contact, 0⟩] ∧ c.shared.queue = [⟨reading, 1⟩] ∧
      Delivery c := by
  refine ⟨_, Run.of_exec rfl, rfl, rfl, rfl, ?_⟩
  exact (@delivery_in_order stopWhileDraining _ (Run.of_exec rfl)).1

end Dnp3Bridge.Bridge
