import Dnp3Bridge.Concurrency.LockOrder
import Dnp3Bridge.Dispatcher.Meeting
import Dnp3Bridge.Dispatcher.Streams

/-!
# No deadlock

A call that is inside `writer_mutex_` may take `pending_mutex_`, and a call inside `pending_mutex_`
takes no mutex at all. A running call is only ever held up by a mutex: a token in use has an object, an
object for a new token is found, and `future.get()` is called when the promise is settled. So some
running call can always take a step.
-/

namespace Dnp3Bridge.Dispatcher
open Concurrency Proto

inductive Mutex where
  | writer
  | pending
  deriving DecidableEq

def Shared.owner (s : Shared) : Mutex → Option Tid
  | .writer => s.writerMutex
  | .pending => s.pendingMutex

def Pc.holds (p : Pc) : Mutex → Bool
  | .writer => p.holdsWriter
  | .pending => p.holdsPending

/-- The mutex that the call takes next. -/
def Pc.waits : Pc → Option Mutex
  | .dispatch (.lockPending _) | .dispatch (.failLock _ _) | .dispatch (.timeoutLock _) => some .pending
  | .dispatch (.lockWriter _) => some .writer
  | .fulfill (.lock _ _) => some .pending
  | .stream (.lock _) => some .writer
  | .token (.lock _ _) => some .writer
  | _ => none

/-- The call is at its future: in `wait_for` or in `get`. -/
def Pc.awaits : Pc → Bool
  | .dispatch (.waitFor _) | .dispatch (.get _) => true
  | _ => false

/-- The call has begun and has not finished. `registerWriter` has finished once the token is built, so
a stream that is served has; an idle thread has not begun. -/
def Pc.running : Pc → Bool
  | .idle => false
  | .dispatch (.returned _ _) => false
  | .fulfill (.returned _ _ _) | .fulfill (.threw _ _) => false
  | .stream (.serving _) | .stream (.returned _) => false
  | .token .done => false
  | _ => true

/-- Some choice of the environment lets the thread take a step. -/
def Process.Enabled (c : Process) (t : Tid) : Prop :=
  ∃ i, (c.step (t, i)).isSome

/-- Apart from a mutex, the call finds what it needs. -/
structure Ready (s : Shared) (t : Tid) (p : Pc) : Prop where
  token : ∀ q k, p = .token q → k ∈ q.objects → s.tokens k ≠ none
  object : ∃ k, s.tokens k = none
  settled : ∀ id, p = .dispatch (.get id) → s.promises.promise t ≠ .unset

section Enabled
variable {t : Tid} {s : Shared}

/-- A mutex is free, or somebody holds it. -/
lemma acquire_or_held {α} (m : Mutex) (r : α) :
    (if s.owner m = none then some r else none).isSome = true ∨ s.owner m ≠ none := by
  by_cases free : s.owner m = none
  · rw [if_pos free]
    exact .inl rfl
  · exact .inr free

/-- A running dispatch call can go on, or waits for a mutex that somebody holds. -/
lemma dispatch_enabled {p : DispatchPc} (running : (Pc.dispatch p).running)
    (ready : Ready s t (.dispatch p)) : (∃ i, (dispatch i t s p).isSome) ∨
      ∃ m, (Pc.dispatch p).waits = some m ∧ s.owner m ≠ none := by
  have go : ∀ i, (dispatch i t s p).isSome → (∃ i, (dispatch i t s p).isSome) ∨
      ∃ m, (Pc.dispatch p).waits = some m ∧ s.owner m ≠ none := fun i h => .inl ⟨i, h⟩
  cases p with
  | lockPending | failLock | timeoutLock =>
    exact (acquire_or_held .pending _).imp (fun h => ⟨.go, h⟩) fun held => ⟨.pending, rfl, held⟩
  | lockWriter =>
    exact (acquire_or_held .writer _).imp (fun h => ⟨.go, h⟩) fun held => ⟨.writer, rfl, held⟩
  | insert req =>
    refine go .go ?_
    rw [dispatch]
    split <;> rfl
  | checkWriter req =>
    refine go .go ?_
    rw [dispatch]
    split <;> rfl
  | write req w => exact go (.writeReturns true) rfl
  | waitFor id =>
    refine go .expire ?_
    cases e : s.promises.promise t with
    | unset | value | broken => simp [dispatch, e]
  | get id =>
    refine go .go ?_
    rw [dispatch]
    cases e : s.promises.promise t with
    | unset => exact absurd e (ready.settled id rfl)
    | value | broken => rfl
  | returned => cases running
  | _ => exact go .go rfl

/-- A fulfill call that has not returned can make a step, or waits for a mutex that is held. -/
lemma fulfill_enabled {p : FulfillPc} (running : (Pc.fulfill p).running) :
    (fulfill t s p).isSome ∨ ∃ m, (Pc.fulfill p).waits = some m ∧ s.owner m ≠ none := by
  cases p with
  | lock => exact (acquire_or_held .pending _).imp_right fun held => ⟨.pending, rfl, held⟩
  | body id st =>
    left
    rw [fulfill]
    split
    · rfl
    · split <;> rfl
  | unlock | unwind => exact .inl rfl
  | returned | threw => cases running

/-- A `StreamCommands` call before its end can make a step, or waits for a mutex that is held. -/
lemma streamCommands_enabled {p : StreamPc} (running : (Pc.stream p).running)
    (ready : Ready s t (.stream p)) : (∃ i, (streamCommands i t s p).isSome) ∨
      ∃ m, (Pc.stream p).waits = some m ∧ s.owner m ≠ none := by
  cases p with
  | lock =>
    exact (acquire_or_held .writer _).imp (fun h => ⟨.go, h⟩) fun held => ⟨.writer, rfl, held⟩
  | register | unlock => exact .inl ⟨.go, rfl⟩
  | construct w =>
    obtain ⟨k, free⟩ := ready.object
    refine .inl ⟨.object k, ?_⟩
    rw [streamCommands, if_pos free]
    rfl
  | serving | returned => cases running

/-- An operation on a token that is not over can make a step, or waits for a mutex that is held. -/
lemma release_enabled {q : TokenPc} (running : (Pc.token q).running)
    (ready : Ready s t (.token q)) :
    (release t s q).isSome ∨ ∃ m, (Pc.token q).waits = some m ∧ s.owner m ≠ none := by
  have token := fun k => ready.token q k rfl
  cases q with
  | check k a | body k a =>
    left
    obtain ⟨x, e⟩ := Option.ne_none_iff_exists'.mp (token k (by cases a <;> exact List.mem_cons_self))
    rw [release, e]
    rfl
  | lock => exact (acquire_or_held .writer _).imp_right fun held => ⟨.writer, rfl, held⟩
  | unlock => exact .inl rfl
  | finish k a =>
    left
    cases a with
    | destroy => rfl
    | assign src =>
      obtain ⟨x, e⟩ := Option.ne_none_iff_exists'.mp
        (token src (List.mem_cons_of_mem _ List.mem_cons_self))
      rw [release, e]
      rfl
  | done => cases running

/-- A running call can go on, or waits for a mutex that somebody holds. -/
lemma next_enabled {p : Pc} (running : p.running) (ready : Ready s t p) :
    (∃ i, (next i t s p).isSome) ∨ ∃ m, p.waits = some m ∧ s.owner m ≠ none := by
  cases p with
  | idle => cases running
  | dispatch p =>
    refine (dispatch_enabled running ready).imp_left fun h => ?_
    obtain ⟨i, h⟩ := h
    exact ⟨i, by rw [next, Option.isSome_map]; exact h⟩
  | fulfill p =>
    refine (fulfill_enabled (t := t) running).imp_left fun h => ⟨.go, ?_⟩
    rw [next, Option.isSome_map]
    exact h
  | stream p =>
    refine (streamCommands_enabled running ready).imp_left fun h => ?_
    obtain ⟨i, h⟩ := h
    exact ⟨i, by rw [next, Option.isSome_map]; exact h⟩
  | token q =>
    refine (release_enabled running ready).imp_left fun h => ⟨.go, ?_⟩
    rw [next, Option.isSome_map]
    exact h

end Enabled

section Ready

/-- An object that is in use holds a token. -/
def Kept (inUse : Object → Option Tid) (tokens : Object → Option StreamToken) : Prop :=
  ∀ k, inUse k ≠ none → tokens k ≠ none

section Kept
variable {inUse : Object → Option Tid} {tokens : Object → Option StreamToken} {k : Object}

/-- Filling an object leaves a token in every object that is in use. -/
lemma Kept.put {x} (kept : Kept inUse tokens) : Kept inUse (Function.update tokens k (some x)) := by
  intro j use
  rw [Function.update_apply]
  split
  · nofun
  · exact kept j use

/-- An object that holds a token may be taken into use. -/
lemma Kept.claim {u} (kept : Kept inUse tokens) (full : tokens k ≠ none) :
    Kept (Function.update inUse k u) tokens := by
  intro j use
  rcases eq_or_ne j k with rfl | ne
  · exact full
  · rw [Function.update_of_ne ne] at use
    exact kept j use

/-- An object may be given back. -/
lemma Kept.drop (kept : Kept inUse tokens) : Kept (Function.update inUse k none) tokens := by
  intro j use
  rcases eq_or_ne j k with rfl | ne
  · exact absurd (Function.update_self ..) use
  · rw [Function.update_of_ne ne] at use
    exact kept j use

/-- An object that is given back may be emptied. -/
lemma Kept.destroy (kept : Kept inUse tokens) :
    Kept (Function.update inUse k none) (Function.update tokens k none) := by
  intro j use
  rcases eq_or_ne j k with rfl | ne
  · exact absurd (Function.update_self ..) use
  · rw [Function.update_of_ne ne] at use ⊢
    exact kept j use

end Kept

/-- Only finitely many objects hold a token. -/
def Bounded (tokens : Object → Option StreamToken) : Prop :=
  ∃ n : Nat, ∀ k : Nat, n ≤ k → tokens k = none

/-- A change of one object leaves only finitely many of them with a token. -/
lemma Bounded.update {tokens} (bounded : Bounded tokens) (k : Nat) (x : Option StreamToken) :
    Bounded (Function.update tokens k x) := by
  obtain ⟨n, beyond⟩ := bounded
  refine ⟨max n (k + 1), fun j le => ?_⟩
  have ne : j ≠ k := by omega
  rw [Function.update_of_ne ne]
  exact beyond j (by omega)

/-- What the objects of a process keep to. -/
structure Shared.Stocked (s : Shared) : Prop where
  kept : Kept s.inUse s.tokens
  bounded : Bounded s.tokens

/-- Every step keeps the objects in use full, and the full ones finite in number. -/
lemma Step.stocked {t s i p s' p'} (st : Step t s i p s' p') (stocked : s.Stocked) : s'.Stocked := by
  obtain ⟨kept, bounded⟩ := stocked
  cases st with
  | start st =>
    cases st with
    | moveToken => exact ⟨kept.put.put, (bounded.update _ _).update _ _⟩
    | assignToken full full' => exact ⟨(kept.claim full).claim full', bounded⟩
    | destroyToken full => exact ⟨kept.claim full, bounded⟩
    | _ => exact ⟨kept, bounded⟩
  | dispatch st => cases st <;> exact ⟨kept, bounded⟩
  | fulfill st => cases st <;> exact ⟨kept, bounded⟩
  | stream st =>
    cases st with
    | construct => exact ⟨kept.put, bounded.update _ _⟩
    | _ => exact ⟨kept, bounded⟩
  | token st =>
    cases st with
    | body => exact ⟨kept.put, bounded.update _ _⟩
    | destroy => exact ⟨kept.destroy, bounded.update _ _⟩
    | assign => exact ⟨kept.put.put.drop.drop, (bounded.update _ _).update _ _⟩
    | _ => exact ⟨kept, bounded⟩

/-- In every reachable state the objects in use are full, and only finitely many are. -/
lemma Process.stocked {C as c} (run : Run step C init as c) : c.shared.Stocked := by
  refine run.invariant (I := fun c => c.shared.Stocked) ?_
    ⟨fun _ use => absurd rfl use, 0, fun _ _ => rfl⟩
  intro c a c' stocked _ st
  exact (c.step_inv st).1.stocked stocked

/-- A dispatch call that takes the value of its future finds the promise settled. -/
def Process.Settled (c : Process) : Prop :=
  ∀ t id, c.pc t = .dispatch (.get id) → c.shared.promises.promise t ≠ .unset

/-- A dispatch call gets to `get` only when its promise has been decided. -/
lemma Step.ready_inv {t s i p s' id} (st : Step t s i p s' (.dispatch (.get id))) :
    s'.promises.promise t ≠ .unset := by
  cases st with
  | start st => cases st
  | dispatch st =>
    cases st with
    | ready settled => exact settled

/-- Every step leaves the promises of the calls at `get` decided. -/
lemma Process.Settled.step {c c' : Process} {a} (settled : c.Settled) (st : c.step a = some c') :
    c'.Settled := by
  intro t id e
  have moved := c.step_move st
  obtain ⟨st, pcs⟩ := c.step_inv st
  rcases eq_or_ne t a.1 with rfl | ne
  · rw [e] at st
    exact st.ready_inv
  · rw [pcs, Function.update_of_ne ne] at e
    obtain ⟨same, -⟩ | ⟨mv, -⟩ := moved
    · rw [same]
      exact settled t id e
    · exact mv.settled ne (settled t id e)

/-- In every reachable state the promises of the calls at `get` are decided. -/
lemma Process.settled {C as c} (run : Run step C init as c) : c.Settled := by
  refine run.invariant (fun _ _ _ settled _ st => settled.step st) ?_
  intro t id e
  cases e

/-- In every reachable state a call finds what it needs, apart from a mutex. -/
lemma Process.ready {C as c} (run : Run step C init as c) (t : Tid) : Ready c.shared t (c.pc t) := by
  obtain ⟨kept, n, beyond⟩ := Process.stocked run
  refine ⟨fun q k e mem => ?_, ⟨n, beyond n le_rfl⟩, Process.settled run t⟩
  have use := (Process.registered run).in_use (by rw [e]; rfl) mem
  refine kept k ?_
  show c.shared.registry.inUse k ≠ none
  rw [use]
  nofun

end Ready

/-- The owner of a mutex is the call that is inside it. -/
lemma Process.owner_iff {C as c} (run : Run step C init as c) (m : Mutex) (t : Tid) :
    (c.pc t).holds m = true ↔ c.shared.owner m = some t := by
  cases m with
  | writer => exact Process.writerHeld run t
  | pending => exact Process.pendingHeld run t

/-- `pending_mutex_` is taken inside `writer_mutex_` or outside any mutex. -/
def Mutex.depth : Mutex → Nat
  | .writer => 1
  | .pending => 0

/-- A call inside a mutex is running, is not at its future, and waits for a deeper mutex if for any. -/
lemma Pc.of_holds {p : Pc} {m} (has : p.holds m = true) :
    p.running = true ∧ p.awaits = false ∧ ∀ m', p.waits = some m' → m'.depth < m.depth := by
  cases m with
  | writer =>
    cases p with
    | idle | fulfill => cases has
    | dispatch p =>
      cases p with
      | failLock =>
        -- the error branches take `pending_mutex_` inside `writer_mutex_`
        refine ⟨rfl, rfl, fun m' wait => ?_⟩
        cases wait
        exact Nat.zero_lt_one
      | checkWriter | write | failErase | failUnlockPending | failUnlockWriter | unlockWriter =>
        exact ⟨rfl, rfl, nofun⟩
      | _ => cases has
    | stream p =>
      cases p with
      | register | unlock => exact ⟨rfl, rfl, nofun⟩
      | _ => cases has
    | token q =>
      cases q with
      | body | unlock => exact ⟨rfl, rfl, nofun⟩
      | _ => cases has
  | pending =>
    cases p with
    | idle | stream | token => cases has
    | dispatch p =>
      cases p with
      | insert | insertThrows | unlockPending | failErase | failUnlockPending | timeoutErase
      | timeoutUnlock => exact ⟨rfl, rfl, nofun⟩
      | _ => cases has
    | fulfill p =>
      cases p with
      | body | unlock | unwind => exact ⟨rfl, rfl, nofun⟩
      | _ => cases has

/-- A call that has not finished can take a step, or waits for a mutex inside which another call is. -/
lemma Process.enabled_or_blocked {C as c} (run : Run step C init as c) {t : Tid}
    (running : (c.pc t).running = true) : c.Enabled t ∨ ∃ m u, (c.pc t).waits = some m ∧
      (c.pc u).holds m = true ∧ (c.pc u).running = true := by
  obtain ⟨i, moves⟩ | ⟨m, wait, held⟩ := next_enabled running (Process.ready run t)
  · left
    refine ⟨i, ?_⟩
    rw [Process.step, Conf.step, Option.isSome_map]
    exact moves
  · right
    obtain ⟨u, owner⟩ := Option.ne_none_iff_exists'.mp held
    have has := (Process.owner_iff run m u).mpr owner
    exact ⟨m, u, wait, has, (Pc.of_holds has).1⟩

/-- The dispatcher cannot deadlock: as long as some call has not finished, one that has not finished can
take a step. No call waits for `writer_mutex_` inside `pending_mutex_`, and none holds a mutex when it
has finished or waits for its future. -/
theorem deadlock_free {C as c} (run : Run Process.step C Process.init as c) :
    ((∃ t, (c.pc t).running) → ∃ t, (c.pc t).running ∧ c.Enabled t) ∧
      (∀ t, (c.pc t).waits = some .writer → c.shared.pendingMutex ≠ some t) ∧
      ∀ t, (c.pc t).running = false ∨ (c.pc t).awaits →
        c.shared.writerMutex ≠ some t ∧ c.shared.pendingMutex ≠ some t := by
  have owner := fun m t => Process.owner_iff run m t
  refine ⟨fun left => ?_, fun t wait held => ?_, fun t rest => ?_⟩
  · obtain ⟨t, running⟩ := left
    have deeper : WellFounded fun m m' : Mutex => m.depth < m'.depth := InvImage.wf _ Nat.lt_wfRel.wf
    refine exists_enabled_of_lockOrder deeper (fun u left => Process.enabled_or_blocked run left)
      (fun u m m' has wait => (Pc.of_holds has).2.2 m' wait) running
  · have has := (owner .pending t).mpr held
    exact Nat.not_lt_zero _ ((Pc.of_holds has).2.2 .writer wait)
  · have outside : ∀ m, c.shared.owner m ≠ some t := by
      intro m held
      obtain ⟨running, awaits, -⟩ := Pc.of_holds ((owner m t).mpr held)
      rw [running, awaits] at rest
      exact rest.elim nofun nofun
    exact ⟨outside .writer, outside .pending⟩

/-- Call 0 has found no writer and is about to take `pending_mutex_` inside `writer_mutex_`, inside
`pending_mutex_` is a fulfill call, and outside `writer_mutex_` waits a stream. -/
def crossing : List (Tid × Choice) :=
  [(0, .call (.dispatch closeRelay)), (0, .go), (0, .go), (0, .go), (0, .go), (0, .go),
    (1, .call (respondToCommand ⟨1, .success⟩)), (1, .go), (2, .call (.streamCommands 7))]

/-- One of the three can go on. -/
theorem crossing_moves :
    ∃ c, Run Process.step Always Process.init crossing c ∧ c.shared.writerMutex = some 0 ∧
      c.shared.pendingMutex = some 1 ∧ (c.pc 0).waits = some .pending ∧
      (c.pc 2).waits = some .writer ∧ ∃ t, (c.pc t).running ∧ c.Enabled t := by
  refine ⟨_, Run.of_exec rfl, rfl, rfl, rfl, rfl, ?_⟩
  exact (@deadlock_free Always crossing _ (Run.of_exec rfl)).1 ⟨0, rfl⟩

end Dnp3Bridge.Dispatcher
