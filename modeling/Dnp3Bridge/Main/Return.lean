import Dnp3Bridge.Dispatcher.Termination
import Dnp3Bridge.Main.Quiet
import Mathlib.Data.Fintype.EquivFin

/-!
# The program returns

Once a signal has come, and if `main` looks at `server_` in time, everything that `main` waits for comes
to its end, the calls of `StreamCommands` and the commands in progress included. No call of the
dispatcher waits for ever; a stream whose client stays connected goes round its loop, but `stop` gives a
deadline, and when that has passed the stream leaves its loop and releases its registration. Without the
deadline `main` would wait for it.
-/

namespace Dnp3Bridge.Dispatcher
open Concurrency

/-- A call that is not running has ended, or is a stream that is served. -/
lemma Pc.ended_or_serving {p : Pc} (rest : p.running = false) :
    p.ended = true ∨ ∃ w, p = .stream (.serving w) := by
  cases p with
  | idle => exact .inl rfl
  | dispatch p =>
    cases p with
    | returned => exact .inl rfl
    | _ => cases rest
  | fulfill p =>
    cases p with
    | returned | threw => exact .inl rfl
    | _ => cases rest
  | stream p =>
    cases p with
    | serving w => exact .inr ⟨w, rfl⟩
    | returned => exact .inl rfl
    | _ => cases rest
  | token p =>
    cases p with
    | done => exact .inl rfl
    | _ => cases rest

/-- An operation that still uses an object is running. -/
lemma TokenPc.running_of_objects {q : TokenPc} {k} (mem : k ∈ q.objects) :
    (Pc.token q).running = true := by
  cases q with
  | done => cases mem
  | _ => rfl

/-- At rest nobody is in an operation that uses an object. -/
lemma Process.AtRest.objects {c : Process} (rest : c.AtRest) {u q k} (eu : c.pc u = .token q) :
    k ∉ q.objects := by
  intro mem
  have running := TokenPc.running_of_objects mem
  rw [← eu, rest.finished u] at running
  cases running

/-- At rest no object is in use. -/
lemma Process.AtRest.unused {C as c} (rest : c.AtRest) (run : Run step C init as c) (k : Object) :
    c.shared.inUse k = none := by
  by_contra used
  obtain ⟨u, own⟩ := Option.ne_none_iff_exists'.mp used
  obtain ⟨q, eu, mem⟩ := Process.owned run own
  exact rest.objects eu mem

/-- At rest nobody is about to release a registration. -/
lemma Process.AtRest.not_leaving {c : Process} (rest : c.AtRest) (t : Tid) : ¬ c.Leaving t := by
  rintro ⟨u, q, k, x, eu, facing, -⟩
  exact rest.objects eu (TokenPc.mem_objects_of_facing facing)

end Dnp3Bridge.Dispatcher

namespace Dnp3Bridge.Main
open Bridge Concurrency Config Grpc Outstation Proto

/-- A step that begins no call and is no signal. A stream leaves its loop by itself only when the
deadline of `stop` has passed. -/
def Program.Own (c : Program) : ProgramAction → Prop
  | .app a => Main.Own c.app a
  | .stream .. | .respond .. | .operate .. => False
  | .deadline | .command .. => True
  | .leave .. => c.cancelled = true

/-- What is left to do: by the modelled threads, by the calls of the dispatcher, by the streams, each of
which has a token to destroy, and the deadline. -/
def Program.rank (S : Finset ℕ) (c : Program) : ℕ :=
  c.app.rank S + (∑ t ∈ c.begun.toFinset, (c.commands.pc t).rank) + 6 * c.streams.length +
    if c.cancelled then 0 else 1

/-- What the ranking of the steps of its own rests on. -/
structure Program.Ending (S : Finset ℕ) (c : Program) : Prop where
  app : c.app.Ending S
  known : c.Known

/-- Every step of its own keeps what the ranking rests on. -/
lemma Program.Ending.step {S : Finset ℕ} {c c' : Program} {a} (inv : c.Ending S) (own : c.Own a)
    (st : c.step a = some c') : c'.Ending S := by
  refine ⟨?_, inv.known.step st⟩
  cases Program.step_moves st with
  | app _ mv => exact inv.app.step own mv
  | _ => exact inv.app

/-- Every step of its own is paid for by what is left to do. -/
lemma Program.Ending.pays {S : Finset ℕ} {c c' : Program} {a} (inv : c.Ending S) (own : c.Own a)
    (st : c.step a = some c') : c'.rank S + 1 ≤ c.rank S := by
  cases Program.step_moves st with
  | @app a app _ mv =>
    have paid := App.pays inv.app.sound inv.app.asked inv.app.member own mv
    simp only [rank]
    omega
  | stream | respond | operate => cases own
  | deadline _ first =>
    simp [rank, first]
  | @leave u k x p _ _ inside begins =>
    have lower : (p.pc u).rank < 6 := begins.start.rank_lt
    have fewer := List.length_erase_of_mem inside
    have some := List.length_pos_of_mem inside
    have out : u ∉ c.begun.toFinset := by
      rw [List.mem_toFinset, inv.known u]
      exact fun busy => busy begins.idle
    have others : ∑ t ∈ c.begun.toFinset, (p.pc t).rank =
        ∑ t ∈ c.begun.toFinset, (c.commands.pc t).rank := by
      refine Finset.sum_congr rfl fun t mem => ?_
      have ne : t ≠ u := by
        rintro rfl
        exact out mem
      rw [begins.pcs.1, Function.update_of_ne ne]
    simp only [rank, List.toFinset_cons, Finset.sum_insert out, others]
    omega
  | @command t i p go mv =>
    obtain ⟨st, pcs⟩ := c.commands.step_inv mv
    have paid : (p.pc t).rank + 1 ≤ (c.commands.pc t).rank + i.credit := st.pays
    have free : i.credit = 0 := by
      cases i with
      | call => cases go
      | _ => rfl
    have mem : t ∈ c.begun.toFinset := by
      rw [List.mem_toFinset, inv.known t]
      exact (st.own_inv go).1
    have sum := sum_rank_update mem c.commands.pc (p.pc t) Dispatcher.Pc.rank
    rw [← pcs] at sum
    simp only [rank]
    omega

/-- The steps of its own use up what is left to do. -/
lemma Program.Ending.length_le {S : Finset ℕ} {c c' : Program} {bs} (inv : c.Ending S)
    (run : Run Program.step Program.Own c bs c') : bs.length ≤ c.rank S := by
  have none : credits (fun _ : ProgramAction => 0) bs = 0 := credits_eq_zero fun _ _ => rfl
  have paid : bs.length + c'.rank S ≤ c.rank S + credits (fun _ => 0) bs :=
    Run.length_le (I := Ending S) (Program.rank S) run (fun _ _ _ inv own st => inv.step own st)
      (fun _ _ _ inv own st => inv.pays own st) inv
  omega

/-- A step of its own is timely. -/
lemma Program.Own.timely {c : Program} {a} (own : c.Own a) : c.Timely a := by
  cases a with
  | app => exact Main.Own.timely own
  | _ => trivial

/-- The dispatcher of a program that cannot go on is at rest. -/
lemma Program.Reached.atRest {fresh cfg} {c : Program} (reached : c.Reached fresh cfg)
    (stuck : Stuck Program.step Program.Own c) : c.commands.AtRest := by
  obtain ⟨_, run⟩ := reached.commands
  refine Dispatcher.Process.atRest_of_stuck run fun a own => ?_
  obtain ⟨t, i⟩ := a
  have go : i.isCall = false := by
    cases i with
    | call k => exact absurd rfl (own k)
    | _ => rfl
  have none := stuck (.command t i) trivial
  rw [Program.step, if_neg (by rw [go]; exact Bool.false_ne_true)] at none
  exact Option.map_eq_none_iff.mp none

/-- A stream that has not left its loop can do so, if nobody uses its token. -/
lemma Program.Known.can_leave {c : Program} (known : c.Known) {k x}
    (found : c.commands.shared.tokens k = some x) (arm : x.dispatcher = true)
    (inside : x.stream ∈ c.streams) (unused : c.commands.shared.inUse k = none) :
    ∃ u, c.step (.leave u k) ≠ none := by
  obtain ⟨u, out⟩ := Infinite.exists_notMem_finset c.begun.toFinset
  have idle : c.commands.pc u = .idle := by
    by_contra busy
    exact out (List.mem_toFinset.mpr ((known u).mpr busy))
  have full : c.commands.shared.tokens k ≠ none := by
    rw [found]
    exact Option.some_ne_none x
  refine ⟨u, fun blocked => ?_⟩
  simp only [Program.step, found, if_pos (And.intro arm inside), Program.begin, if_pos idle] at blocked
  have blocked := Option.map_eq_none_iff.mp (Option.map_eq_none_iff.mp blocked)
  rw [Dispatcher.Process.step, Conf.step, idle, Dispatcher.next, Dispatcher.start,
    if_pos ⟨full, unused⟩] at blocked
  cases blocked

/-- While `main` waits in `stop`, a program that cannot go on serves no stream. -/
lemma Program.Reached.no_stream {fresh cfg} {c : Program} (reached : c.Reached fresh cfg)
    (tidy : c.Tidy) (stuck : Stuck Program.step Program.Own c) (pc : c.app.main = .awaitCalls) {t w} :
    c.commands.pc t ≠ .stream (.serving w) := by
  intro serving
  have rest := reached.atRest stuck
  obtain ⟨_, run⟩ := reached.commands
  have cancelled : c.cancelled = true := by
    by_contra first
    have none := stuck .deadline trivial
    rw [step, if_pos ⟨pc, Bool.eq_false_of_not_eq_true first⟩] at none
    cases none
  have unreleased := rest.unreleased t w serving
  obtain ⟨k, x, found, arm, rfl⟩ := Dispatcher.Process.held run serving unreleased
  have inside : x.stream ∈ c.streams := by
    by_contra out
    obtain leaving | released := tidy.left _ _ serving out
    · exact rest.not_leaving _ leaving
    · cases unreleased.symm.trans released
  -- the deadline has passed, so the handler leaves its loop
  obtain ⟨u, go⟩ := tidy.known.can_leave found arm inside (rest.unused run k)
  exact go (stuck (.leave u k) cancelled)

/-- The modelled threads of a program that cannot go on cannot go on either. -/
lemma Program.Reached.app_stuck {fresh cfg} {c : Program} (reached : c.Reached fresh cfg)
    (tidy : c.Tidy) (stuck : Stuck Program.step Program.Own c) : Stuck App.step Main.Own c.app := by
  have rest := reached.atRest stuck
  intro a own
  have may : c.MayStep a := by
    cases a with
    | main =>
      refine ⟨fun pc t _ _ => ?_, fun _ t _ command => ?_⟩
      · obtain ended | ⟨w, serving⟩ := Dispatcher.Pc.ended_or_serving (rest.finished t)
        · exact ended
        · exact absurd serving (reached.no_stream tidy stuck pc)
      · obtain ended | ⟨w, serving⟩ := Dispatcher.Pc.ended_or_serving (rest.finished t)
        · exact ended
        · rw [serving] at command
          cases command
    | _ => trivial
  have none := stuck (.app a) own
  rw [step, if_pos may] at none
  exact Option.map_eq_none_iff.mp none

/-- `main` has returned: no call is left in the dispatcher, and nothing in `pending_`. -/
structure Program.Returned (c : Program) : Prop where
  main : c.app.main = .returned
  ended : ∀ t, (c.commands.pc t).ended = true
  forgotten : ∀ id, c.commands.shared.promises.pending id = none

/-- When `main` has been asked to end, looks at `server_` in time, and no more calls come in, the
program has a bounded number of steps left; whatever their order, when no more is possible `main` has
returned, and with it every call of the server and every command; and it can always get there. -/
theorem program_returns {fresh cfg as c}
    (run : Run Program.step Program.Timely (.init fresh cfg) as c) (asked : c.app.requested = true) :
    (∀ bs c', Run Program.step Program.Own c bs c' →
      bs.length ≤ c.rank c.app.callers ∧ (Stuck Program.step Program.Own c' → c'.Returned)) ∧
      ∃ bs c', Run Program.step Program.Own c bs c' ∧ c'.Returned := by
  obtain ⟨_, app⟩ := (Program.reached run).app
  have ending : c.Ending c.app.callers :=
    ⟨⟨(App.orderly app).sound, asked, fun n mem => List.mem_toFinset.mpr mem⟩,
      (Program.tidy run).known⟩
  have bounded : ∀ bs c', Run Program.step Program.Own c bs c' → bs.length ≤ c.rank c.app.callers :=
    fun bs c' run' => ending.length_le run'
  have returned : ∀ bs c', Run Program.step Program.Own c bs c' →
      Stuck Program.step Program.Own c' → c'.Returned := by
    intro bs c' run' stuck
    have whole := run.append (run'.mono fun _ _ own => own.timely)
    have reached := Program.reached whole
    have tidy := Program.tidy whole
    obtain ⟨_, app⟩ := reached.app
    have main := (App.orderly app).returned (reached.app_stuck tidy stuck)
    exact ⟨main, tidy.silent (by rw [main]; rfl), (reached.atRest stuck).forgotten⟩
  refine ⟨fun bs c' run' => ⟨bounded bs c' run', returned bs c' run'⟩, ?_⟩
  exact Run.reaches bounded returned

/-- A client opens its stream, a master closes a relay, and a signal comes while `dispatch` waits for
the answer. -/
def signalDuringCommand : List ProgramAction :=
  startUp.map .app ++ [.stream 1 7] ++ List.replicate 3 (.command 1 .go) ++
    [.command 1 (.object 0),
      .operate 0 (.crob { opType := .latchOn, tcc := .close }) 3 .directOperate] ++
    List.replicate 5 (.command 0 .go) ++
    [.command 0 (.writeReturns true), .command 0 .go, .app .signal]

/-- Though neither the client hangs up nor an answer comes, `main` returns. -/
theorem signalDuringCommand_returns :
    ∃ c, Run Program.step Program.Timely (.init .documented {}) signalDuringCommand c ∧
      c.commands.pc 1 = .stream (.serving 7) ∧ c.commands.pc 0 = .dispatch (.waitFor 1) ∧
      ∃ bs c', Run Program.step Program.Own c bs c' ∧ c'.Returned := by
  refine ⟨_, Run.of_exec_guarded rfl, rfl, rfl, ?_⟩
  exact (@program_returns .documented {} signalDuringCommand _ (Run.of_exec_guarded rfl) rfl).2

end Dnp3Bridge.Main
