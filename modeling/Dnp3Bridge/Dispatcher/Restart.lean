import Dnp3Bridge.Dispatcher.PendingTable
import Dnp3Bridge.Dispatcher.Writes

/-!
# Answers across restarts

The client outlives the bridge: it may answer a command when the process that wrote it is gone. A
`World` is the current process, what all processes have written so far, and the client, which answers
every message it has received at most once, at any time, with the `command_id` of that message. Each
process draws its ids from 1 again, so an old answer can hit a new command. Where no old answer meets
an entry under its id (`Unambiguous`), the status that a dispatch call takes from the client is the
answer to the message this very call has written.
-/

namespace Dnp3Bridge.Dispatcher
open Concurrency Proto

/-- A message on the stream: the process and the dispatch call that wrote it, and its text. -/
structure Written where
  epoch : Nat
  call : Tid
  request : CommandRequest
  deriving DecidableEq

/-- The current bridge process, the messages of its predecessors, and the client. `answering` names
the message that a fulfill call of the current process carries the answer to, and that answer. -/
structure World where
  epoch : Nat := 0
  process : Process := .init
  past : List Written := []
  received : List Written := []
  answered : List Written := []
  answering : Tid → Option (Written × CommandResultStatus) := fun _ => none

/-- No process has run, and the client has seen nothing. -/
def World.init : World := {}

/-- The messages that have been written to the stream. -/
def World.written (w : World) : List Written :=
  w.past ++ w.process.shared.hist.writes.map fun x => ⟨w.epoch, x.1, x.2.2⟩

/-- What may happen next: a step of the process, the receipt of a message, the client's answer to a
message in call `f` of `RespondToCommand`, or a restart of the bridge. -/
inductive Action where
  | process (t : Tid) (i : Choice)
  | receive (x : Written)
  | respond (f : Tid) (x : Written) (r : CommandResultStatus)
  | restart
  deriving DecidableEq

/-- The call of `fulfill`, which only the client makes. -/
def Choice.startsFulfill : Choice → Bool
  | .call (.fulfill _ _) => true
  | _ => false

/-- A step of the world. -/
def World.step (w : World) : Action → Option World
  | .process t i =>
    if i.startsFulfill then none
    else (w.process.step (t, i)).map fun p => { w with process := p }
  | .receive x =>
    if x ∈ w.written ∧ x ∉ w.received then some { w with received := x :: w.received } else none
  | .respond f x r =>
    if x ∈ w.received ∧ x ∉ w.answered ∧ w.process.pc f = .idle then
      (w.process.step (f, .call (respondToCommand ⟨x.request.commandId, r⟩))).map fun p =>
        { w with
          process := p
          answered := x :: w.answered
          answering := Function.update w.answering f (some (x, r)) }
    else none
  | .restart =>
    some { w with
      epoch := w.epoch + 1
      process := .init
      past := w.written
      answering := fun _ => none }

/-- A dispatch call that takes its status from the client has written a message, and the status is
the client's answer to this message. -/
def World.Answers (w : World) : Prop :=
  ∀ t id st, w.process.pc t = .dispatch (.returned id (.answered st)) →
    ∃ f x r, w.process.Fulfills f id st t ∧ w.answering f = some (x, r) ∧
      st = toCommandStatus r ∧ x ∈ w.received ∧ x.epoch = w.epoch ∧
      ∃ wr, (t, wr, x.request) ∈ w.process.shared.hist.writes

/-- The id that a fulfill call is about to look up. -/
def Pc.lookup : Pc → Option UInt64
  | .fulfill (.body id _) => some id
  | _ => none

/-- The answer to a message of an earlier process finds no entry under its id. -/
def OldAnswerMisses (w : World) (t : Tid) : Prop :=
  ∀ id ∈ (w.process.pc t).lookup, ∀ x ∈ w.answering t,
    x.1.epoch ≠ w.epoch → w.process.shared.promises.pending id = none

instance (w : World) (t : Tid) : Decidable (OldAnswerMisses w t) :=
  Option.decidableForallMem (p := fun id => ∀ x ∈ w.answering t,
    x.1.epoch ≠ w.epoch → w.process.shared.promises.pending id = none) _

/-- No id stands for two commands: the counter has not wrapped, and no answer to a message of an
earlier process finds an entry. -/
def Unambiguous (w : World) : Action → Prop
  | .process t i => FreshId w.process (t, i) ∧ OldAnswerMisses w t
  | _ => True

instance (w : World) : (a : Action) → Decidable (Unambiguous w a)
  | .process t i => inferInstanceAs (Decidable (FreshId w.process (t, i) ∧ OldAnswerMisses w t))
  | .receive _ | .respond _ _ _ | .restart => .isTrue trivial

/-- The id and the status a fulfill call was called with. -/
def FulfillPc.asked : FulfillPc → UInt64 × CommandStatus
  | .lock id st | .body id st | .unlock id st _ | .unwind id st | .returned id st _
  | .threw id st => (id, st)

/-- A step of a fulfill call keeps its arguments. -/
lemma FulfillStep.asked_eq {t s p s' p'} (st : FulfillStep t s p s' p') : p'.asked = p.asked := by
  cases st <;> rfl

/-- A fulfill call has just begun, or had the same arguments before. -/
lemma Process.step_asked {c c' : Process} {a f p'} (st : c.step a = some c')
    (ep' : c'.pc f = .fulfill p') :
    (∃ p, c.pc f = .fulfill p ∧ p.asked = p'.asked) ∨
      a = (f, .call (.fulfill p'.asked.1 p'.asked.2)) := by
  obtain ⟨t, i⟩ := a
  obtain ⟨st, pcs⟩ := c.step_inv st
  rcases eq_or_ne f t with rfl | eq
  · simp only at st
    rw [ep'] at st
    generalize ep : c.pc f = p at st
    generalize c'.shared = s' at st
    cases st with
    | start st =>
      cases st with
      | fulfill => exact .inr rfl
    | fulfill st => exact .inl ⟨_, rfl, st.asked_eq.symm⟩
  · rw [pcs, Function.update_of_ne eq] at ep'
    exact .inl ⟨p', ep', rfl⟩

/-- A fulfill call that has hit an entry has done so before, or does so in this step. -/
lemma Process.step_hit {c c' : Process} {a f id v u} (st : c.step a = some c')
    (hit : c'.phases f = .hit id v u) :
    c.phases f = .hit id v u ∨
      f = a.1 ∧ c.pc f = .fulfill (.body id v) ∧ c.shared.promises.pending id = some u := by
  obtain ⟨t, i⟩ := a
  rcases eq_or_ne f t with rfl | eq
  · obtain ⟨st, -⟩ := c.step_inv st
    have ful := fulfills_iff.mpr hit
    simp only at st
    unfold Fulfills at ful
    unfold phases
    generalize c'.pc f = p' at st ful
    generalize ep : c.pc f = p at st
    generalize c'.shared = s' at st
    cases st with
    | fulfill st =>
      cases st with
      | hit found _ =>
        rcases ful with e | e
        · cases e
          exact .inr ⟨rfl, rfl, found⟩
        · cases e
      | unlock =>
        rcases ful with e | e
        · cases e
        · cases e
          exact .inl rfl
      | _ => rcases ful with e | e <;> cases e
    | start st => cases st <;> rcases ful with e | e <;> cases e
    | _ => rcases ful with e | e <;> cases e
  · have phs := c.step_phases st
    rw [phs, Function.update_of_ne eq] at hit
    exact .inl hit

/-- The messages written are never taken back. -/
lemma Process.step_writes {c c' : Process} {a} (st : c.step a = some c') {x}
    (mem : x ∈ c.shared.hist.writes) : x ∈ c'.shared.hist.writes := by
  obtain ⟨st, -⟩ := c.step_inv st
  have ws := st.write_inv
  generalize c.pc a.1 = p at ws
  generalize c'.pc a.1 = p' at ws
  cases ws with
  | write _ writes =>
    rw [writes]
    exact List.mem_append_left _ mem
  | start writes => rwa [writes]
  | keep writes => rwa [writes]
  | other writes => rwa [writes]

/-- The steps of the world. -/
inductive WorldStep (w : World) : Action → World → Prop where
  | process {t i p} :
    i.startsFulfill = false →
    w.process.step (t, i) = some p →
    WorldStep w (.process t i) { w with process := p }
  | receive {x} :
    x ∈ w.written →
    WorldStep w (.receive x) { w with received := x :: w.received }
  | respond {f x r p} :
    x ∈ w.received →
    w.process.pc f = .idle →
    w.process.step (f, .call (respondToCommand ⟨x.request.commandId, r⟩)) = some p →
    WorldStep w (.respond f x r)
      { w with
        process := p
        answered := x :: w.answered
        answering := Function.update w.answering f (some (x, r)) }
  | restart :
    WorldStep w .restart
      { w with
        epoch := w.epoch + 1
        process := .init
        past := w.written
        answering := fun _ => none }

/-- Inversion for `World.step`. -/
lemma World.step_inv {w w' : World} {a} (st : w.step a = some w') : WorldStep w a w' := by
  cases a with
  | process t i =>
    simp only [World.step] at st
    split at st
    case isTrue => cases st
    case isFalse h =>
      obtain ⟨p, e, rfl⟩ := Option.map_eq_some_iff.mp st
      exact .process (Bool.eq_false_iff.mpr h) e
  | receive x =>
    obtain ⟨⟨mem, -⟩, e⟩ := Option.ite_none_right_eq_some.mp st
    cases e
    exact .receive mem
  | respond f x r =>
    obtain ⟨⟨mem, -, idle⟩, e⟩ := Option.ite_none_right_eq_some.mp st
    obtain ⟨p, move, rfl⟩ := Option.map_eq_some_iff.mp e
    exact .respond mem idle move
  | restart =>
    cases st
    exact .restart

/-- What the answers in the current process belong to. -/
structure World.Correlated (w : World) : Prop where
  meets : w.process.Meets
  ids : w.process.IdsDrawn
  writes : w.process.Writes
  past_lt : ∀ {x}, x ∈ w.past → x.epoch < w.epoch
  received_written : ∀ {x}, x ∈ w.received → x ∈ w.written
  answering_received : ∀ {f x r}, w.answering f = some (x, r) → x ∈ w.received
  asked : ∀ {f p}, w.process.pc f = .fulfill p →
    ∃ x r, w.answering f = some (x, r) ∧ p.asked = (x.request.commandId, toCommandStatus r)
  hit_own : ∀ {f id v u}, w.process.phases f = .hit id v u →
    ∃ x r, w.answering f = some (x, r) ∧ x.epoch = w.epoch ∧ x.call = u

/-- A message of the current process is on its list of writes. -/
lemma World.mem_writes {w : World} {x} (past_lt : ∀ {x}, x ∈ w.past → x.epoch < w.epoch)
    (mem : x ∈ w.written) (cur : x.epoch = w.epoch) :
    ∃ wr, (x.call, wr, x.request) ∈ w.process.shared.hist.writes := by
  rcases List.mem_append.mp mem with old | new
  · have := past_lt old
    omega
  · obtain ⟨⟨t, wr, req⟩, hw, rfl⟩ := List.mem_map.mp new
    exact ⟨wr, hw⟩

/-- Under the condition, an answer that is about to hit an entry is one to the message of the call
that owns the entry. -/
lemma World.Correlated.lookup {w : World} {f id v u x r} (inv : w.Correlated)
    (miss : OldAnswerMisses w f) (ef : w.process.pc f = .fulfill (.body id v))
    (found : w.process.shared.promises.pending id = some u) (ans : w.answering f = some (x, r))
    (eid : x.request.commandId = id) : x.epoch = w.epoch ∧ x.call = u := by
  have cur : x.epoch = w.epoch := by
    by_contra old
    -- an answer to an old message would find no entry
    have none := miss id (by rw [ef]; rfl) (x, r) ans old
    cases none.symm.trans found
  refine ⟨cur, ?_⟩
  -- the message was written by a call with the same id, and ids are distinct
  obtain ⟨wr, mem⟩ := mem_writes inv.past_lt (inv.received_written (inv.answering_received ans)) cur
  obtain ⟨p, ep, ec, -⟩ := inv.writes.writer mem
  have opn := ((inv.meets.pending_iff id u).mp found).1
  refine inv.ids.distinct x.call u id ?_ (by rw [opn]; rfl)
  rw [Process.phases, ep, ← eid, ← ec]
  exact p.phase_key

/-- A step of the process keeps the correlation, if the fulfill calls that were there keep their
message and one that begins has one. -/
lemma World.Correlated.step_process {w : World} {a p ans l} (inv : w.Correlated)
    (fresh : FreshId w.process a) (miss : OldAnswerMisses w a.1)
    (st : w.process.step a = some p)
    (kept : ∀ {f q}, w.process.pc f = .fulfill q → ans f = w.answering f)
    (rec : ∀ {f x r}, ans f = some (x, r) → x ∈ w.received)
    (begun : ∀ {f id v}, a = (f, .call (.fulfill id v)) →
      ∃ x r, ans f = some (x, r) ∧ (id, v) = (x.request.commandId, toCommandStatus r)) :
    World.Correlated { w with process := p, answered := l, answering := ans } where
  meets := inv.meets.step st
  ids := inv.ids.step fresh st
  writes := inv.writes.step st
  past_lt := inv.past_lt
  received_written {x} mem := by
    rcases List.mem_append.mp (inv.received_written mem) with old | new
    · exact List.mem_append_left _ old
    · obtain ⟨y, hy, rfl⟩ := List.mem_map.mp new
      exact List.mem_append_right _ (List.mem_map.mpr ⟨y, w.process.step_writes st hy, rfl⟩)
  answering_received := rec
  asked {f q} eq := by
    obtain ⟨q0, eq0, same⟩ | start := w.process.step_asked st eq
    · obtain ⟨x, r, e, ea⟩ := inv.asked eq0
      exact ⟨x, r, (kept eq0).trans e, same.symm.trans ea⟩
    · exact begun start
  hit_own {f id v u} hit := by
    obtain hit | ⟨rfl, ef, found⟩ := w.process.step_hit st hit
    · obtain ⟨x, r, e, cur, call⟩ := inv.hit_own hit
      obtain ef | ef := Process.fulfills_iff.mpr hit
      · exact ⟨x, r, (kept ef).trans e, cur, call⟩
      · exact ⟨x, r, (kept ef).trans e, cur, call⟩
    -- the entry is hit in this step
    · obtain ⟨x, r, e, ea⟩ := inv.asked ef
      cases ea
      obtain ⟨cur, call⟩ := inv.lookup miss ef found e rfl
      exact ⟨x, r, (kept ef).trans e, cur, call⟩

/-- A step of the world under the condition keeps the correlation. -/
lemma World.Correlated.step {w w' : World} {a} (inv : w.Correlated) (una : Unambiguous w a)
    (st : w.step a = some w') : w'.Correlated := by
  cases w.step_inv st with
  | @process t i p other move =>
    -- no fulfill call begins without a message
    refine inv.step_process una.1 una.2 move (fun _ => rfl) inv.answering_received ?_
    rintro f id v e
    cases e
    cases other
  | receive mem =>
    refine { inv with received_written := ?_, answering_received := ?_ }
    · rintro y hy
      rcases List.mem_cons.mp hy with rfl | hy
      · exact mem
      · exact inv.received_written hy
    · intro f x r e
      exact List.mem_cons_of_mem _ (inv.answering_received e)
  | @respond f x r p mem idle move =>
    refine inv.step_process ?_ ?_ move ?_ ?_ ?_
    · intro starts
      cases starts.2
    · intro id look
      simp only [idle] at look
      cases look
    · intro g q eq
      refine Function.update_of_ne ?_ ..
      rintro rfl
      cases idle.symm.trans eq
    · intro g y s e
      rcases eq_or_ne g f with rfl | eq
      · rw [Function.update_self] at e
        cases e
        exact mem
      · rw [Function.update_of_ne eq] at e
        exact inv.answering_received e
    · intro g id v e
      cases e
      exact ⟨x, r, Function.update_self .., rfl⟩
  | restart =>
    -- the new process has no calls, and every message so far is an old one
    refine ⟨Meeting.init, Process.idsDrawn .nil, Process.writes .nil (C := Always), ?_, ?_, nofun,
      nofun, ?_⟩
    · intro x mem
      rcases List.mem_append.mp mem with mem | mem
      · exact Nat.lt_succ_of_lt (inv.past_lt mem)
      · obtain ⟨y, -, rfl⟩ := List.mem_map.mp mem
        exact Nat.lt_succ_self _
    · intro x mem
      exact List.mem_append_left _ (inv.received_written mem)
    · intro f id v u hit
      cases hit

/-- Every state that a run under the condition reaches is correlated. -/
theorem World.correlated {as w} (run : Run step Unambiguous init as w) : w.Correlated := by
  refine run.invariant (fun _ _ _ inv una st => inv.step una st) ?_
  exact ⟨Meeting.init, Process.idsDrawn .nil, Process.writes .nil (C := Always), nofun, nofun, nofun,
    nofun, nofun⟩

/-- If no id ever stands for two commands, a status that a dispatch call takes from the client is the
client's answer to the message this call has written, also across restarts. -/
theorem answers_of_unambiguous {as w} (run : Run World.step Unambiguous World.init as w) :
    w.Answers := by
  intro t id st ep
  have inv := World.correlated run
  -- the status was set by a fulfill call of the same id
  have took : w.process.phases t = .took id st := by
    rw [Process.phases, ep]
    rfl
  obtain ⟨f, k, hit⟩ := inv.meets.value_hit (inv.meets.took_value took)
  have key := (inv.meets.hit_value hit).2
  rw [took] at key
  cases key
  obtain ⟨x, r, ans, cur, call⟩ := inv.hit_own hit
  have mem := inv.answering_received ans
  have ful := Process.fulfills_iff.mpr hit
  have status : st = toCommandStatus r := by
    obtain ef | ef := ful
    · obtain ⟨x', r', ans', ea⟩ := inv.asked ef
      cases ans.symm.trans ans'
      exact congrArg Prod.snd ea
    · obtain ⟨x', r', ans', ea⟩ := inv.asked ef
      cases ans.symm.trans ans'
      exact congrArg Prod.snd ea
  refine ⟨f, x, r, ful, ans, status, mem, cur, ?_⟩
  subst call
  exact World.mem_writes inv.past_lt (inv.received_written mem) cur

/-- The actions of a process, as actions of the world. -/
def inProcess (as : List (Tid × Choice)) : List Action :=
  as.map fun a => .process a.1 a.2

/-- Open breaker 8. -/
def openBreaker : CommandRequest :=
  ⟨0, 8, .crob, some (.crob ⟨.latchOff, 1, 100, 100⟩)⟩

/-- The message that dispatch call 0 of a process writes as command 1. -/
def firstWritten (epoch : Nat) (req : CommandRequest) : Written :=
  ⟨epoch, 0, { req with commandId := 1 }⟩

/-- Process 0 writes command 1 and is restarted; process 1 writes its own command 1; then the client
answers the old command, and dispatch call 0 of process 1 wakes up. -/
def answerAfterRestart : List Action :=
  inProcess (openStream 1 7 0 ++ writeCommand 0 closeRelay) ++
    [.receive (firstWritten 0 closeRelay), .restart] ++
    inProcess (openStream 1 7 0 ++ writeCommand 0 openBreaker) ++
    [.respond 2 (firstWritten 0 closeRelay) .success] ++
    inProcess [(2, .go), (2, .go), (2, .go), (0, .go), (0, .go)]

/-- The order to open breaker 8 is reported as executed; the client has never seen it. -/
theorem answerAfterRestart_confuses :
    ∃ w, Run World.step Always World.init answerAfterRestart w ∧
      w.process.pc 0 = .dispatch (.returned 1 (.answered .success)) ∧
      w.answering 2 = some (firstWritten 0 closeRelay, .success) ∧
      firstWritten 1 openBreaker ∈ w.written ∧ firstWritten 1 openBreaker ∉ w.received ∧
      ¬ w.Answers := by
  refine ⟨_, Run.of_exec rfl, rfl, rfl, by decide, by decide, ?_⟩
  intro answers
  obtain ⟨f, x, r, -, -, -, mem, cur, -⟩ := answers 0 1 .success rfl
  cases List.mem_singleton.mp mem
  cases cur

/-- Process 1 answers its own command 1 to the master; the old answer comes later and misses. -/
def answersInOrder : List Action :=
  inProcess (openStream 1 7 0 ++ writeCommand 0 closeRelay) ++
    [.receive (firstWritten 0 closeRelay), .restart] ++
    inProcess (openStream 1 7 0 ++ writeCommand 0 openBreaker) ++
    [.receive (firstWritten 1 openBreaker), .respond 2 (firstWritten 1 openBreaker) .hardwareError] ++
    inProcess [(2, .go), (2, .go), (2, .go), (0, .go), (0, .go)] ++
    [.respond 3 (firstWritten 0 closeRelay) .success] ++
    inProcess [(3, .go), (3, .go), (3, .go)]

/-- The answers of a run with a restart in which no old answer meets an entry. -/
theorem answersInOrder_answers :
    ∃ w, Run World.step Unambiguous World.init answersInOrder w ∧
      w.process.pc 0 = .dispatch (.returned 1 (.answered .hardwareError)) ∧ w.Answers := by
  refine ⟨_, Run.of_exec_guarded rfl, rfl, ?_⟩
  exact @answers_of_unambiguous answersInOrder _ (Run.of_exec_guarded rfl)

end Dnp3Bridge.Dispatcher
