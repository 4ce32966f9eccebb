import Dnp3Bridge.Bridge.Step

/-!
# The life of the flush threads

`start` and `stop` are called by one thread, so the flush threads live one after the other: all but
the newest have ended, and `Life` says for every program counter of the controlling thread whether
there is a newest one that runs, and what `running_` and `flush_thread_` are.
-/

namespace Dnp3Bridge.Bridge
open Concurrency

/-- The program counter of the caller `n`. -/
def System.callerPc (c : System) (n : Nat) : CallerPc :=
  match c.pc (.caller n) with
  | .caller p => p
  | _ => .idle

/-- The program counter of the flush thread `n`. -/
def System.flushPc (c : System) (n : Nat) : FlushPc :=
  match c.pc (.flush n) with
  | .flush p => p
  | _ => .unborn

/-- The program counter of the controlling thread. -/
def System.controlPc (c : System) : ControlPc :=
  match c.pc .control with
  | .control p => p
  | _ => .idle

/-- The three kinds of steps of a `Bridge`, by the thread that makes them. -/
inductive System.Moves (c : System) (a : Thread × Choice) (c' : System) : Prop where
  | caller {n p'} :
    a.1 = .caller n →
    CallerStep n c.shared (c.callerPc n) c'.shared p' →
    c'.callerPc = Function.update c.callerPc n p' →
    c'.flushPc = c.flushPc →
    c'.controlPc = c.controlPc →
    c.Moves a c'
  | flush {n p'} :
    a.1 = .flush n →
    FlushStep n c.shared (c.flushPc n) c'.shared p' →
    c'.callerPc = c.callerPc →
    c'.flushPc = Function.update c.flushPc n p' →
    c'.controlPc = c.controlPc →
    c.Moves a c'
  | control {p'} :
    a.1 = .control →
    ControlStep c.shared a.2 c.controlPc c'.shared p' →
    c'.callerPc = c.callerPc →
    c'.flushPc = c.flushPc →
    c'.controlPc = p' →
    c.Moves a c'

/-- Every step is of one of the three kinds. -/
lemma System.step_moves {c c' : System} {a} (st : c.step a = some c') : c.Moves a c' := by
  obtain ⟨t, i⟩ := a
  obtain ⟨st, pcs⟩ := c.step_inv st
  have other : ∀ {u}, u ≠ t → c'.pc u = c.pc u := by
    intro u ne
    rw [pcs, Function.update_of_ne ne]
  simp only at st
  generalize e : c.pc t = p at st
  generalize e' : c'.pc t = p' at st
  cases st with
  | @caller n p _ p' st =>
    have own : c.callerPc n = p := by rw [callerPc, e]
    refine .caller rfl (own ▸ st) ?_ ?_ ?_
    · funext m
      rcases eq_or_ne m n with rfl | eq
      · rw [Function.update_self, callerPc, e']
      · have ne : Thread.caller m ≠ .caller n := fun h => eq (Thread.caller.inj h)
        rw [Function.update_of_ne eq, callerPc, other ne, callerPc]
    · funext m
      rw [flushPc, other (nofun : Thread.flush m ≠ .caller n), flushPc]
    · rw [controlPc, other (nofun : Thread.control ≠ .caller n), controlPc]
  | @flush n p _ p' st =>
    have own : c.flushPc n = p := by rw [flushPc, e]
    refine .flush rfl (own ▸ st) ?_ ?_ ?_
    · funext m
      rw [callerPc, other (nofun : Thread.caller m ≠ .flush n), callerPc]
    · funext m
      rcases eq_or_ne m n with rfl | eq
      · rw [Function.update_self, flushPc, e']
      · have ne : Thread.flush m ≠ .flush n := fun h => eq (Thread.flush.inj h)
        rw [Function.update_of_ne eq, flushPc, other ne, flushPc]
    · rw [controlPc, other (nofun : Thread.control ≠ .flush n), controlPc]
  | @control p _ p' st =>
    have own : c.controlPc = p := by rw [controlPc, e]
    refine .control rfl (own ▸ st) ?_ ?_ ?_
    · funext m
      rw [callerPc, other (nofun : Thread.caller m ≠ .control), callerPc]
    · funext m
      rw [flushPc, other (nofun : Thread.flush m ≠ .control), flushPc]
    · rw [controlPc, e']

/-- The flush thread is on its way out of the loop, or gone. -/
def FlushPc.leaving : FlushPc → Bool
  | .exit | .ending | .finished => true
  | _ => false

/-- The controlling thread is neither in the second half of `start` nor in that of `stop`. -/
def ControlPc.resting : ControlPc → Bool
  | .startUnlock | .spawn | .assign _ | .stopUnlock _ | .notifyAll _ | .join _ => false
  | _ => true

/-- The controlling thread is between two halves, and has not just returned from a `stop` that found
the `Bridge` running. -/
def ControlPc.mayRun : ControlPc → Bool
  | .stopped _ => false
  | p => p.resting

/-- The controlling thread is in a `stop` that has cleared `running_`. -/
def ControlPc.stopping : ControlPc → Option Nat
  | .stopUnlock k | .notifyAll k | .join k => some k
  | _ => none

/-- The stages of the life of the flush threads: `off` and `on` between the calls, `starting` and
`assigning` inside `start`, `stopping` inside `stop`. -/
inductive Life (s : Shared) (f : Nat → FlushPc) : ControlPc → Prop where
  | off {p} :
    p.resting = true →
    s.running = false →
    s.flushThread = none →
    (∀ k < s.spawned, f k = .finished) →
    Life s f p
  | on {p m} :
    p.mayRun = true →
    s.running = true →
    s.flushThread = some m →
    s.spawned = m + 1 →
    (∀ k < m, f k = .finished) →
    (f m).leaving = false →
    Life s f p
  | starting {p} :
    p = .startUnlock ∨ p = .spawn →
    s.running = true →
    s.flushThread = none →
    (∀ k < s.spawned, f k = .finished) →
    Life s f p
  | assigning {m} :
    s.running = true →
    s.flushThread = none →
    s.spawned = m + 1 →
    (∀ k < m, f k = .finished) →
    (f m).leaving = false →
    Life s f (.assign m)
  | stopping {p k m} :
    p.stopping = some k →
    s.running = false →
    s.flushThread = some m →
    s.spawned = m + 1 →
    (∀ k < m, f k = .finished) →
    Life s f p

/-- The flush threads of a system. -/
structure System.Lifecycle (c : System) : Prop where
  life : Life c.shared c.flushPc c.controlPc
  unborn : ∀ k, c.shared.spawned ≤ k → c.flushPc k = .unborn
  finished_iff : ∀ k, c.shared.finished k = true ↔ c.flushPc k = .finished

/-- The life of the threads depends on three fields of the shared state. -/
lemma Life.congr {s s' : Shared} {f p} (life : Life s f p) (running : s'.running = s.running)
    (thread : s'.flushThread = s.flushThread) (spawned : s'.spawned = s.spawned) : Life s' f p := by
  cases life with
  | off rest run thr fin =>
    exact .off rest (running.trans run) (thread.trans thr) (spawned ▸ fin)
  | on rest run thr sp fin stay =>
    exact .on rest (running.trans run) (thread.trans thr) (spawned.trans sp) fin stay
  | starting pc run thr fin =>
    exact .starting pc (running.trans run) (thread.trans thr) (spawned ▸ fin)
  | assigning run thr sp fin stay =>
    exact .assigning (running.trans run) (thread.trans thr) (spawned.trans sp) fin stay
  | stopping pc run thr sp fin =>
    exact .stopping pc (running.trans run) (thread.trans thr) (spawned.trans sp) fin

/-- A thread that has ended makes no step, and a step of one that is not born needs its creation. -/
lemma FlushStep.alive {n s p s' p'} (st : FlushStep n s p s' p') :
    p ≠ .finished ∧ (p = .unborn → n < s.spawned) := by
  cases st with
  | begin born => exact ⟨nofun, fun _ => born⟩
  | _ => exact ⟨nofun, nofun⟩

/-- Only the newest flush thread makes steps. -/
lemma System.Lifecycle.newest {c : System} {n s' p'} (lc : c.Lifecycle)
    (st : FlushStep n c.shared (c.flushPc n) s' p') :
    c.shared.spawned = n + 1 ∧ ¬ (∀ k < c.shared.spawned, c.flushPc k = .finished) := by
  obtain ⟨alive, born⟩ := st.alive
  have lt : n < c.shared.spawned := by
    by_contra ge
    exact ge (born (lc.unborn n (Nat.le_of_not_lt ge)))
  have one : ∀ m, c.shared.spawned = m + 1 → (∀ k < m, c.flushPc k = .finished) →
      c.shared.spawned = n + 1 := by
    intro m sp fin
    have ge : ¬ n < m := fun h => alive (fin n h)
    omega
  refine ⟨?_, fun fin => alive (fin n lt)⟩
  have life := lc.life
  generalize c.controlPc = q at life
  cases life with
  | off _ _ _ fin => exact absurd (fin n lt) alive
  | on _ _ _ sp fin _ => exact one _ sp fin
  | starting _ _ _ fin => exact absurd (fin n lt) alive
  | assigning _ _ sp fin _ => exact one _ sp fin
  | stopping _ _ _ sp fin => exact one _ sp fin

/-- A flush thread leaves its loop only when `running_` is false. -/
lemma FlushStep.leaving_eq {n s p s' p'} (st : FlushStep n s p s' p') (run : s.running = true) :
    p'.leaving = p.leaving := by
  cases st with
  | leaveLoop stop => cases run.symm.trans stop
  | _ => rfl

/-- A flush thread leaves the fields alone that its life depends on. -/
lemma FlushStep.fields_eq {n s p s' p'} (st : FlushStep n s p s' p') :
    s'.running = s.running ∧ s'.flushThread = s.flushThread ∧ s'.spawned = s.spawned := by
  cases st <;> exact ⟨rfl, rfl, rfl⟩

/-- A caller touches none of the fields that `start` and `stop` work on. -/
lemma CallerStep.fields_eq {n s p s' p'} (st : CallerStep n s p s' p') :
    s'.running = s.running ∧ s'.flushThread = s.flushThread ∧ s'.spawned = s.spawned ∧
      s'.finished = s.finished := by
  cases st <;> exact ⟨rfl, rfl, rfl, rfl⟩

/-- The controlling thread ends no flush thread and takes back none that it has started. -/
lemma ControlStep.finished_eq {s i p s' p'} (st : ControlStep s i p s' p') :
    s'.finished = s.finished ∧ s.spawned ≤ s'.spawned := by
  cases st with
  | spawn => exact ⟨rfl, Nat.le_succ _⟩
  | _ => exact ⟨rfl, le_rfl⟩

/-- A step of the newest flush thread keeps the life of the threads. -/
lemma Life.flush {s s' : Shared} {f p n p'} (life : Life s f p) (sp : s.spawned = n + 1)
    (alive : ¬ (∀ k < s.spawned, f k = .finished)) (st : FlushStep n s (f n) s' p') :
    Life s' (Function.update f n p') p := by
  obtain ⟨running, thread, spawned⟩ := st.fields_eq
  have past : ∀ {m}, s.spawned = m + 1 → (∀ k < m, f k = .finished) →
      m = n ∧ ∀ k < n, Function.update f n p' k = .finished := by
    intro m sp' fin
    have eq : m = n := by omega
    subst eq
    refine ⟨rfl, fun k lt => ?_⟩
    rw [Function.update_of_ne (Nat.ne_of_lt lt), fin k lt]
  have stays : s.running = true → (f n).leaving = false →
      (Function.update f n p' n).leaving = false := by
    intro run stay
    rw [Function.update_self, st.leaving_eq run, stay]
  refine Life.congr (s := s) ?_ running thread spawned
  cases life with
  | off _ _ _ fin => exact absurd fin alive
  | on rest run thr sp' fin stay =>
    obtain ⟨rfl, fin⟩ := past sp' fin
    exact .on rest run thr sp fin (stays run stay)
  | starting _ _ _ fin => exact absurd fin alive
  | assigning run thr sp' fin stay =>
    obtain ⟨rfl, fin⟩ := past sp' fin
    exact .assigning run thr sp fin (stays run stay)
  | stopping pc run thr sp' fin =>
    obtain ⟨rfl, fin⟩ := past sp' fin
    exact .stopping pc run thr sp fin

/-- A step of the controlling thread moves the threads to their next stage. -/
lemma Life.control {s s' : Shared} {f i p p'} (life : Life s f p) (st : ControlStep s i p s' p')
    (unborn : ∀ k, s.spawned ≤ k → f k = .unborn)
    (finished_iff : ∀ k, s.finished k = true ↔ f k = .finished) : Life s' f p' := by
  have upto : ∀ {m}, (∀ k < m, f k = .finished) → f m = .finished →
      ∀ k < m + 1, f k = .finished := by
    intro m fin last k lt
    obtain lt | rfl := Nat.lt_succ_iff_lt_or_eq.mp lt
    · exact fin k lt
    · exact last
  cases life with
  | off rest run thr fin =>
    -- `running_` is false, so a start goes on and a stop goes back
    cases st with
    | startFound h => cases run.symm.trans h
    | startSet => exact .starting (.inl rfl) rfl thr fin
    | stopClear h => cases run.symm.trans h
    | startUnlock | spawn | assign | stopUnlock | notifyAll | joinNone | join => cases rest
    | _ => exact .off rfl run thr fin
  | on rest run thr sp fin stay =>
    -- `running_` is true, so a start goes back and a stop goes on
    cases st with
    | startSet h => cases run.symm.trans h
    | stopClear => exact .stopping rfl rfl thr sp fin
    | stopFound h => cases run.symm.trans h
    | startUnlock | spawn | assign | stopUnlock | notifyAll | joinNone | join => cases rest
    | _ => exact .on rfl run thr sp fin stay
  | starting pc run thr fin =>
    obtain rfl | rfl := pc
    · cases st with
      | startUnlock => exact .starting (.inr rfl) run thr fin
      | start h => obtain e | ⟨k, e⟩ := h <;> cases e
      | stop h => obtain e | ⟨k, e⟩ := h <;> cases e
    · cases st with
      | spawn =>
        refine .assigning run thr rfl fin ?_
        rw [unborn _ le_rfl]
        rfl
      | start h => obtain e | ⟨k, e⟩ := h <;> cases e
      | stop h => obtain e | ⟨k, e⟩ := h <;> cases e
  | assigning run thr sp fin stay =>
    cases st with
    | assign => exact .on rfl run rfl sp fin stay
    | start h => obtain e | ⟨k, e⟩ := h <;> cases e
    | stop h => obtain e | ⟨k, e⟩ := h <;> cases e
  | stopping pc run thr sp fin =>
    cases st with
    | stopUnlock => exact .stopping rfl run thr sp fin
    | notifyAll => exact .stopping rfl run thr sp fin
    | joinNone none => cases none.symm.trans thr
    | join found ended =>
      -- the thread that is joined is the newest one
      cases found.symm.trans thr
      refine .off rfl run rfl fun k lt => ?_
      exact upto fin ((finished_iff _).mp ended) k (sp ▸ lt)
    | start h =>
      obtain e | ⟨k, e⟩ := h <;> cases e <;> cases pc
    | stop h =>
      obtain e | ⟨k, e⟩ := h <;> cases e <;> cases pc
    | _ => cases pc

/-- A flush thread is marked as ended by its last step. -/
lemma FlushStep.finished_iff {n : Nat} {s s' : Shared} {f : Nat → FlushPc} {p'}
    (st : FlushStep n s (f n) s' p')
    (old : ∀ k, s.finished k = true ↔ f k = .finished) (k : Nat) :
    s'.finished k = true ↔ Function.update f n p' k = .finished := by
  have old := old k
  rcases eq_or_ne k n with rfl | eq
  · rw [Function.update_self]
    have ended := st.alive.1
    generalize f k = p at st old ended
    cases st with
    | finish => exact ⟨fun _ => rfl, fun _ => Function.update_self ..⟩
    | _ => exact ⟨fun h => absurd (old.mp h) ended, nofun⟩
  · rw [Function.update_of_ne eq, ← old]
    generalize f n = p at st
    cases st with
    | finish =>
      show Function.update s.finished n true k = true ↔ _
      rw [Function.update_of_ne eq]
    | _ => exact Iff.rfl

/-- The steps of the system keep the lifecycle of the flush threads. -/
lemma System.Lifecycle.step {c c' : System} {a} (lc : c.Lifecycle) (st : c.step a = some c') :
    c'.Lifecycle := by
  cases c.step_moves st with
  | caller _ st _ flush control =>
    obtain ⟨running, thread, spawned, finished⟩ := st.fields_eq
    refine ⟨?_, ?_, ?_⟩
    · rw [flush, control]
      exact lc.life.congr running thread spawned
    · rw [flush, spawned]
      exact lc.unborn
    · rw [flush, finished]
      exact lc.finished_iff
  | @flush n p' _ st _ flush control =>
    obtain ⟨sp, alive⟩ := lc.newest st
    obtain ⟨-, -, spawned⟩ := st.fields_eq
    refine ⟨?_, fun k ge => ?_, ?_⟩
    · rw [flush, control]
      exact lc.life.flush sp alive st
    · rw [spawned] at ge
      rw [flush, Function.update_of_ne (by omega)]
      exact lc.unborn k ge
    · rw [flush]
      exact st.finished_iff lc.finished_iff
  | control _ st _ flush control =>
    obtain ⟨finished, spawned⟩ := st.finished_eq
    refine ⟨?_, ?_, ?_⟩
    · rw [flush, control]
      exact lc.life.control st lc.unborn lc.finished_iff
    · rw [flush]
      exact fun k ge => lc.unborn k (spawned.trans ge)
    · rw [flush, finished]
      exact lc.finished_iff

/-- At the beginning there is no flush thread. -/
lemma System.Lifecycle.init : System.init.Lifecycle := by
  refine ⟨.off rfl rfl rfl nofun, fun _ _ => rfl, fun k => ⟨nofun, nofun⟩⟩

/-- In every reachable state the flush threads live one after the other. -/
theorem System.lifecycle {C as c} (run : Run step C init as c) : c.Lifecycle :=
  run.invariant (fun _ _ _ lc _ st => lc.step st) Lifecycle.init

/-- A step of the controlling thread. -/
lemma System.step_control {c c' : System} {i} (st : c.step (.control, i) = some c') :
    ControlStep c.shared i c.controlPc c'.shared c'.controlPc ∧ c'.flushPc = c.flushPc ∧
      c'.callerPc = c.callerPc := by
  cases c.step_moves st with
  | caller e => cases e
  | flush e => cases e
  | control _ st caller flush control =>
    rw [control]
    exact ⟨st, flush, caller⟩

/-- Another thread leaves `running_` and the controlling thread alone. -/
lemma System.step_other {c c' : System} {t i} (st : c.step (t, i) = some c') (ne : t ≠ .control) :
    c'.shared.running = c.shared.running ∧ c'.controlPc = c.controlPc := by
  cases c.step_moves st with
  | caller _ st _ _ control => exact ⟨st.fields_eq.1, control⟩
  | flush _ st _ _ control => exact ⟨st.fields_eq.1, control⟩
  | control e => exact absurd e ne

/-- The flush thread is there. -/
def FlushPc.alive : FlushPc → Bool
  | .unborn | .finished => false
  | _ => true

/-- While `running_` is false and no `stop` is under way, all flush threads have ended. -/
lemma System.Lifecycle.all_finished {c : System} (lc : c.Lifecycle) (stop : c.shared.running = false)
    (done : c.controlPc.stopping = none) : ∀ k < c.shared.spawned, c.flushPc k = .finished := by
  have life := lc.life
  generalize c.controlPc = q at life done
  cases life with
  | off _ _ _ fin => exact fin
  | on _ run => cases stop.symm.trans run
  | starting _ run => cases stop.symm.trans run
  | assigning run => cases stop.symm.trans run
  | stopping pc => cases done.symm.trans pc

/-- So none is there. -/
lemma System.Lifecycle.quiet {c : System} (lc : c.Lifecycle) (stop : c.shared.running = false)
    (done : c.controlPc.stopping = none) (n : ℕ) : (c.flushPc n).alive = false := by
  rcases Nat.lt_or_ge n c.shared.spawned with lt | ge
  · rw [lc.all_finished stop done n lt]
    rfl
  · rw [lc.unborn n ge]
    rfl

end Dnp3Bridge.Bridge
