import Dnp3Bridge.Dispatcher.Streams
import Dnp3Bridge.Dispatcher.Verdicts

/-!
# Commands follow the newest stream

Between two changes of the registration, every command goes to the stream that was opened last while
that one is open, and is refused with `NOT_SUPPORTED` when it has been closed, whatever other streams
are still open.
-/

namespace Dnp3Bridge.Dispatcher
open Concurrency Proto

/-- The step changes no registration. -/
def Undisturbed (c : Process) (a : Tid × Choice) : Prop :=
  ∀ c', c.step a = some c' → ¬ ChangesWriter c a c'

/-- The dispatch call has found no writer. -/
def DispatchPc.refused : DispatchPc → Bool
  | .failLock _ .noWriter | .failErase _ .noWriter | .failUnlockPending _ .noWriter
  | .failUnlockWriter _ .noWriter | .returned _ (.failed .noWriter) => true
  | _ => false

/-- A dispatch call is refused when there is no writer, and at no other step. -/
lemma DispatchStep.refused_inv {t s p s' p'} (st : DispatchStep t s p s' p')
    (refused : p'.refused = true) : p.refused = true ∨ s.activeWriter = none := by
  cases st with
  | noWriter none => exact .inr none
  | @failLock _ e | @failErase _ e | @failUnlockPending _ e | @failUnlockWriter _ e =>
    cases e with
    | noWriter => exact .inl rfl
    | writeFailed | timedOut => cases refused
  | _ => cases refused

/-- What the calls have done since the state `d`. -/
structure Process.Since (d c : Process) : Prop where
  active : c.shared.activeWriter = d.shared.activeWriter
  written : ∀ {t w req}, (t, w, req) ∈ c.shared.hist.writes →
    (t, w, req) ∈ d.shared.hist.writes ∨ d.shared.activeWriter = some w
  refused : ∀ {t p}, d.pc t = .idle → c.pc t = .dispatch p → p.refused = true →
    d.shared.activeWriter = none

/-- A step that changes no registration keeps what the calls have done since `d`. -/
lemma Process.Since.step {d c c' : Process} {a} (inv : d.Since c) (reg : c.Registered)
    (still : Undisturbed c a) (st : c.step a = some c') : d.Since c' := by
  have same : c'.shared.activeWriter = c.shared.activeWriter := by
    by_contra ne
    exact still c' st (reg.changes st ne)
  obtain ⟨t, i⟩ := a
  obtain ⟨st, pcs⟩ := c.step_inv st
  simp only at st pcs
  have other : ∀ {u}, u ≠ t → c'.pc u = c.pc u := by
    intro u ne
    rw [pcs, Function.update_of_ne ne]
  generalize e : c.pc t = p at st
  generalize e' : c'.pc t = p' at st
  refine ⟨same.trans inv.active, fun {u w req} mem => ?_, fun {u q} idle pc refused => ?_⟩
  · have ws := st.write_inv
    cases ws with
    | start writes | keep writes | other writes =>
      rw [writes] at mem
      exact inv.written mem
    | write found writes =>
      rw [writes] at mem
      obtain mem | mem := List.mem_append.mp mem
      · exact inv.written mem
      · cases List.mem_singleton.mp mem
        exact .inr (inv.active.symm.trans found)
  · rcases eq_or_ne u t with rfl | ne
    · cases e'.symm.trans pc
      generalize c'.shared = s' at st
      cases st with
      | start st =>
        cases st with
        | dispatch => cases refused
      | dispatch st =>
        obtain before | none := st.refused_inv refused
        · exact inv.refused idle e before
        · exact inv.active.symm.trans none
    · rw [other ne] at pc
      exact inv.refused idle pc refused

/-- What the calls have done since a state, if no registration has changed. -/
lemma Process.since {c c' : Process} {bs} (reg : c.Registered)
    (run : Run step Undisturbed c bs c') : c.Since c' := by
  refine run.invariant_under (J := Registered) (I := Since c) (fun _ _ _ reg _ st => reg.step st)
    (fun _ _ _ reg inv still st => inv.step reg still st) reg ⟨rfl, .inl, fun idle pc => ?_⟩
  intro refused
  cases idle.symm.trans pc

/-- A message of a call that has begun since then is on the stream that was the newest one then. -/
lemma Process.Since.routed {d c : Process} (inv : d.Since c) (before : d.Writes) {t w req}
    (idle : d.pc t = .idle) (mem : (t, w, req) ∈ c.shared.hist.writes) :
    d.shared.activeWriter = some w := by
  refine (inv.written mem).resolve_left fun old => ?_
  obtain ⟨p, pc, -⟩ := before.writer old
  cases idle.symm.trans pc

/-- A dispatch call that returns without having written, and does not throw, was refused. -/
lemma Exit.of_not_wrote {id e} (not : (DispatchPc.returned id e).wrote = false) :
    e = .failed .noWriter ∨ e = .futureAlreadyRetrieved := by
  cases e with
  | failed reason =>
    cases reason with
    | noWriter => exact .inl rfl
    | writeFailed | timedOut => cases not
  | answered | brokenPromise => cases not
  | futureAlreadyRetrieved => exact .inr rfl

/-- Let no registration change from some state on. If the stream that was opened last is still open
then, every dispatch call that begins later and returns has written its request to that stream; if it
has been closed, every such call is refused with `NOT_SUPPORTED` and writes nothing. -/
theorem commands_follow_newest {as c bs c'} (run : Run Process.step Always Process.init as c)
    (run' : Run Process.step Undisturbed c bs c') (few : c'.shared.hist.dispatches < 2 ^ 64)
    {t id e} (idle : c.pc t = .idle) (pc : c'.pc t = .dispatch (.returned id e)) :
    (∀ s, c.shared.hist.registrations.head? = some s → c.shared.released s = false →
      ∃ p req, c.pc s = .stream p ∧ Begins (as ++ bs) t (.dispatch req) ∧
        c'.shared.hist.writes.filter (fun x => x.1 = t) =
          [(t, p.writer, { req with commandId := id })]) ∧
      ((∀ s, c.shared.hist.registrations.head? = some s → c.shared.released s = true) →
        e = .failed .noWriter ∧ c'.shared.hist.writes.filter (fun x => x.1 = t) = []) := by
  have whole : Run Process.step Always Process.init (as ++ bs) c' :=
    run.append (run'.mono fun _ _ _ => trivial)
  have reg := Process.registered run
  have since := Process.since reg run'
  have before := Process.writes run
  have writes := Process.writes whole
  have not_clashed : e ≠ .futureAlreadyRetrieved := by
    intro clash
    subst clash
    have fresh := Process.freshId_of_few whole rfl few
    exact Process.not_clashed fresh t id (Process.phases_dispatch pc)
  refine ⟨fun s head isOpen => ?_, fun closed => ?_⟩
  · obtain ⟨q, eq, -⟩ := reg.registered (List.mem_of_mem_head? head)
    have stream := Pc.streamPc_eq_some eq
    have active := reg.active_iff.mpr ⟨s, q, head, isOpen, stream, rfl⟩
    have wrote : (DispatchPc.returned id e).wrote = true := by
      by_contra not
      have refused := (Exit.of_not_wrote (Bool.eq_false_iff.mpr not)).resolve_right not_clashed
      subst refused
      cases active.symm.trans (since.refused idle pc rfl)
    obtain ⟨w, req, begins, own⟩ := writes.sent (Process.origin whole) pc wrote
    have mem : (t, w, { req with commandId := id }) ∈ c'.shared.hist.writes :=
      List.mem_of_mem_filter (own ▸ List.mem_singleton_self _)
    cases active.symm.trans (since.routed before idle mem)
    exact ⟨q, req, stream, begins, own⟩
  · have none : c.shared.activeWriter = none := by
      by_contra some
      obtain ⟨w, active⟩ := Option.ne_none_iff_exists'.mp some
      obtain ⟨s, q, head, isOpen, -⟩ := reg.active_iff.mp active
      cases isOpen.symm.trans (closed s head)
    have not : (DispatchPc.returned id e).wrote = false := by
      by_contra wrote
      obtain ⟨w, req, mem, -⟩ := writes.written pc (Bool.eq_true_of_not_eq_false wrote)
      cases none.symm.trans (since.routed before idle mem)
    exact ⟨(Exit.of_not_wrote not).resolve_right not_clashed, writes.none pc not⟩

/-- The thread is at a statement that writes `active_writer_`. -/
def Pc.onRegistry : Pc → Bool
  | .stream (.register _) | .token (.body _ _) => true
  | _ => false

/-- A thread that is at no statement with `active_writer_` changes no registration. -/
lemma undisturbed_of_pc {c : Process} {a} (off : (c.pc a.1).onRegistry = false) : Undisturbed c a := by
  intro c' _ changes
  obtain ⟨w, e, -⟩ | ⟨k, b, x, e, -⟩ := changes <;> rw [e] at off <;> cases off

/-- The client reconnects, and the newer stream is closed. -/
def newerCloses : List (Tid × Choice) :=
  openStream 1 7 0 ++ openStream 2 9 1 ++ destroyToken 3 1

/-- A command that finds no writer. -/
def refusedCommand (t : Tid) (req : CommandRequest) : List (Tid × Choice) :=
  (t, .call (.dispatch req)) :: List.replicate 9 (t, .go)

/-- The older stream is still open, and the command is refused. -/
theorem newerCloses_refuses :
    ∃ c c', Run Process.step Always Process.init newerCloses c ∧ c.pc 1 = .stream (.serving 7) ∧
      Run Process.step Undisturbed c (refusedCommand 0 closeRelay) c' ∧
      c'.pc 0 = .dispatch (.returned 1 (.failed .noWriter)) ∧
      c'.shared.hist.writes.filter (fun x => x.1 = 0) = [] := by
  have refused : ∀ c c', exec Process.step Process.init newerCloses = some c →
      exec (guarded Process.step fun c a => (c.pc a.1).onRegistry = false) c
        (refusedCommand 0 closeRelay) = some c' →
      c.pc 0 = .idle → c'.pc 0 = .dispatch (.returned 1 (.failed .noWriter)) →
      c'.shared.hist.dispatches < 2 ^ 64 → c.shared.hist.registrations.head? = some 2 →
      c.shared.released 2 = true →
      Run Process.step Undisturbed c (refusedCommand 0 closeRelay) c' ∧
        c'.shared.hist.writes.filter (fun x => x.1 = 0) = [] := by
    intro c c' e e' idle pc few head closed
    have run' := (Run.of_exec_guarded e').mono fun c a => undisturbed_of_pc
    refine ⟨run', ((commands_follow_newest (Run.of_exec e) run' few idle pc).2 fun s h => ?_).2⟩
    cases head.symm.trans h
    exact closed
  have both := refused _ _ rfl rfl rfl rfl (by decide) rfl rfl
  exact ⟨_, _, Run.of_exec rfl, rfl, both.1, rfl, both.2⟩

end Dnp3Bridge.Dispatcher
