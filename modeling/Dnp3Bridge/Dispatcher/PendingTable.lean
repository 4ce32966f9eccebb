import Dnp3Bridge.Dispatcher.Agreement
import Dnp3Bridge.Dispatcher.CommandIds

/-!
# The pending table

What `pending_` holds, in terms of the calls alone: the entries are those of the dispatch calls that
have stored their promise and whose entry has been neither fulfilled nor erased, on every path through
`dispatch`. Correlation follows: an answer reaches the dispatch call that has drawn its id, at most
one answer does, and none does after that call has returned.
-/

namespace Dnp3Bridge.Dispatcher
open Concurrency Proto

/-- The dispatch call has stored its promise in `pending_`. -/
def DispatchPc.inserted : DispatchPc → Bool
  | .lockPending _ | .insert _ | .insertThrows _ | .returned _ .futureAlreadyRetrieved => false
  | _ => true

/-- The dispatch call has erased its entry. -/
def DispatchPc.removed : DispatchPc → Bool
  | .failUnlockPending _ _ | .failUnlockWriter _ _ | .timeoutUnlock _ | .returned _ (.failed _) => true
  | _ => false

/-- The fulfill call `f` of `id` has set the promise of the dispatch call `t` to `st`; it returns
true, or has done so. -/
def Process.Fulfills (c : Process) (f : Tid) (id : UInt64) (st : CommandStatus) (t : Tid) : Prop :=
  c.pc f = .fulfill (.unlock id st (some t)) ∨ c.pc f = .fulfill (.returned id st (some t))

/-- The pending table and the calls that use it. -/
structure PendingTable (c : Process) : Prop where
  keys : ∀ id t, c.shared.promises.pending id = some t ↔
    ∃ p, c.pc t = .dispatch p ∧ p.commandId = id ∧ p.inserted = true ∧ p.removed = false ∧
      ∀ f st, ¬ c.Fulfills f id st t
  no_survivor : ∀ {t id e}, c.pc t = .dispatch (.returned id e) →
    c.shared.promises.pending id = none
  distinct : ∀ {t u p q}, c.pc t = .dispatch p → c.pc u = .dispatch q →
    p.commandId = q.commandId → t = u
  ne_zero : ∀ {t p}, c.pc t = .dispatch p → p.commandId ≠ 0
  fulfilled_once : ∀ {f f' id st st' t t'}, c.Fulfills f id st t → c.Fulfills f' id st' t' → f = f'
  set_once : ∀ f id st, c.pc f ≠ .fulfill (.unwind id st) ∧ c.pc f ≠ .fulfill (.threw id st)
  answered : ∀ {t id st}, c.pc t = .dispatch (.returned id (.answered st)) →
    ∃ f, c.Fulfills f id st t

/-- After `c`, no fulfill call of an id whose dispatch call has returned in `c` returns true. -/
def LateFulfillFails (c c' : Process) : Prop :=
  ∀ t id e, c.pc t = .dispatch (.returned id e) →
    ∀ f, c.pc f = .idle → ∀ st owner, c'.pc f = .fulfill (.returned id st owner) → owner = none

/-- A dispatch call with an entry of its own is waiting, has its answer, or has lost its promise. -/
lemma DispatchPc.phase_of_inserted {p : DispatchPc} (ins : p.inserted = true)
    (rem : p.removed = false) :
    p.phase = .opened p.commandId ∨ (∃ st, p.phase = .took p.commandId st) ∨
      p.phase = .broke p.commandId := by
  cases p with
  | lockPending => cases ins
  | insert => cases ins
  | insertThrows => cases ins
  | failUnlockPending => cases rem
  | failUnlockWriter => cases rem
  | timeoutUnlock => cases rem
  | returned id e =>
    cases e with
    | failed => cases rem
    | answered st => exact .inr (.inl ⟨st, rfl⟩)
    | brokenPromise => exact .inr (.inr rfl)
    | futureAlreadyRetrieved => cases ins
  | _ => exact .inl rfl

/-- A dispatch call that is waiting has stored its promise and has not erased it. -/
lemma DispatchPc.inserted_of_opened {p : DispatchPc} {id} (opn : p.phase = .opened id) :
    p.commandId = id ∧ p.inserted = true ∧ p.removed = false := by
  have key := p.phase_key
  rw [opn] at key
  cases key
  refine ⟨rfl, ?_⟩
  cases p with
  | returned _ e => cases e <;> cases opn
  | lockPending => cases opn
  | insert => cases opn
  | insertThrows => cases opn
  | failUnlockPending => cases opn
  | failUnlockWriter => cases opn
  | timeoutUnlock => cases opn
  | _ => exact ⟨rfl, rfl⟩

/-- Only a dispatch call waits for an answer. -/
lemma Pc.dispatch_of_opened {p : Pc} {id} (opn : p.phase = .opened id) :
    ∃ q, p = .dispatch q ∧ q.phase = .opened id := by
  cases p with
  | dispatch q => exact ⟨q, rfl, opn⟩
  | fulfill q => exact absurd opn (q.phase_ne_opened id)
  | _ => cases opn

/-- The fulfill calls that have set a promise are the answerers that have hit. -/
lemma Process.fulfills_iff {c : Process} {f id st t} :
    c.Fulfills f id st t ↔ c.phases f = .hit id st t := by
  constructor
  · rintro (e | e) <;> simp only [phases, e] <;> rfl
  · intro e
    unfold phases at e
    cases ep : c.pc f with
    | fulfill p =>
      rw [ep] at e
      cases p with
      | unlock id' st' owner =>
        cases owner with
        | none => cases e
        | some u =>
          cases e
          exact .inl ep
      | returned id' st' owner =>
        cases owner with
        | none => cases e
        | some u =>
          cases e
          exact .inr ep
      | _ => cases e
    | dispatch p =>
      rw [ep] at e
      cases p with
      | returned id' e' => cases e' <;> cases e
      | _ => cases e
    | _ =>
      rw [ep] at e
      cases e

/-- The phase of a thread that is in a dispatch call. -/
lemma Process.phases_dispatch {c : Process} {t p} (e : c.pc t = .dispatch p) :
    c.phases t = p.phase := by
  rw [phases, e]
  rfl

/-- The key of a thread that is in a dispatch call is its command id. -/
lemma Process.key_dispatch {c : Process} {t p} (e : c.pc t = .dispatch p) :
    (c.phases t).key = some p.commandId := by
  rw [phases_dispatch e, p.phase_key]

/-- Where no waiting promise breaks, the entries of the table are the calls that have inserted theirs,
have not removed it, and have not been fulfilled. -/
lemma Process.pending_iff {c : Process} (inv : c.Meets)
    (none : NoneBroke c.shared.promises c.phases) (id : UInt64) (t : Tid) :
    c.shared.promises.pending id = some t ↔
      ∃ p, c.pc t = .dispatch p ∧ p.commandId = id ∧ p.inserted = true ∧ p.removed = false ∧
        ∀ f st, ¬ c.Fulfills f id st t := by
  rw [inv.pending_iff]
  constructor
  · intro h
    obtain ⟨opn, unset⟩ := h
    obtain ⟨p, ep, opn⟩ := Pc.dispatch_of_opened opn
    obtain ⟨eid, ins, rem⟩ := p.inserted_of_opened opn
    refine ⟨p, ep, eid, ins, rem, fun f st ful => ?_⟩
    have val := (inv.hit_value (fulfills_iff.mp ful)).1
    cases unset.symm.trans val
  · intro h
    obtain ⟨p, ep, rfl, ins, rem, unfulfilled⟩ := h
    have unset_of : c.shared.promises.promise t ≠ .broken →
        c.shared.promises.promise t = .unset := by
      intro ne
      cases e : c.shared.promises.promise t with
      | unset => rfl
      | broken => exact absurd e ne
      | value st =>
        -- a value comes from a fulfill call
        obtain ⟨f, k, hit⟩ := inv.value_hit e
        cases (key_dispatch ep).symm.trans (inv.hit_value hit).2
        exact absurd (fulfills_iff.mpr hit) (unfulfilled f st)
    obtain opn | ⟨st, took⟩ | brk := p.phase_of_inserted ins rem
    · rw [← phases_dispatch ep] at opn
      exact ⟨opn, unset_of (none t _ (.inl opn))⟩
    · rw [← phases_dispatch ep] at took
      have val := inv.took_value took
      have ne : c.shared.promises.promise t ≠ .broken := by
        rw [val]
        intro e
        cases e
      cases val.symm.trans (unset_of ne)
    · rw [← phases_dispatch ep] at brk
      exact absurd (inv.broke_broken brk) (none t _ (.inr brk))

/-- A process in which no waiting promise breaks has its pending table in order. -/
lemma Process.pendingTable {c : Process} (inv : c.Meets) (ids : c.IdsDrawn)
    (none : NoneBroke c.shared.promises c.phases) : PendingTable c := by
  refine ⟨pending_iff inv none, ?_, ?_, ?_, ?_, ?_, ?_⟩
  · intro t id e ep
    by_contra ne
    obtain ⟨u, pend⟩ := Option.ne_none_iff_exists'.mp ne
    have opn := ((inv.pending_iff id u).mp pend).1
    -- the entry would be that of the call itself, which has returned
    have eq := ids.distinct u t id (by rw [opn]; rfl) (key_dispatch ep)
    subst eq
    rw [phases_dispatch ep] at opn
    cases e <;> cases opn
  · intro t u p q ep eq e
    exact ids.distinct t u p.commandId (key_dispatch ep) (e ▸ key_dispatch eq)
  · intro t p ep
    exact ids.ne_zero (key_dispatch ep)
  · intro f f' id st st' t t' ful ful'
    exact inv.hit_once ids.distinct (fulfills_iff.mp ful) (fulfills_iff.mp ful')
  · intro f id st
    constructor <;> intro e <;> refine inv.no_overset (f := f) (k := id) (v := st) ?_ <;>
      rw [phases, e] <;> rfl
  · intro t id st ep
    have took : c.phases t = .took id st := phases_dispatch ep
    obtain ⟨f, k, hit⟩ := inv.value_hit (inv.took_value took)
    cases (key_dispatch ep).symm.trans (inv.hit_value hit).2
    exact ⟨f, fulfills_iff.mpr hit⟩

/-- A step leaves a call that has returned, and no other call hits its id. -/
lemma Process.step_misses {c c' : Process} {a t f id} (inv : c.Meets) (ids : c.IdsDrawn)
    (st : c.step a = some c') (left : (c.phases t).left = true) (key : (c.phases t).key = some id)
    (miss : ∀ v u, c.phases f ≠ .hit id v u) :
    c'.phases t = c.phases t ∧ ∀ v u, c'.phases f ≠ .hit id v u := by
  obtain ⟨-, ep⟩ | ⟨mv, ep⟩ := c.step_move st
  · rw [ep]
    exact ⟨rfl, miss⟩
  · rw [ep]
    refine ⟨mv.left_stays left, fun v u => ?_⟩
    rcases eq_or_ne f a.1 with rfl | eq
    · rw [Function.update_self]
      exact mv.misses_left inv ids.distinct left key
    · rw [Function.update_of_ne eq]
      exact miss v u

/-- A fulfill call that starts after the dispatch call of its id has returned finds no entry. -/
lemma Process.lateFulfillFails {c c' as} (inv : c.Meets) (ids : c.IdsDrawn)
    (run : Run step FreshId c as c') : LateFulfillFails c c' := by
  intro t id e ep f ef st owner ef'
  have pt : c.phases t = (DispatchPc.returned id e).phase := phases_dispatch ep
  have left : (c.phases t).left = true := by
    rw [pt]
    cases e <;> rfl
  have key : (c.phases t).key = some id := key_dispatch ep
  have miss : c'.phases t = c.phases t ∧ ∀ v u, c'.phases f ≠ .hit id v u := by
    refine run.invariant_under (J := fun c => c.Meets ∧ c.IdsDrawn)
      (I := fun d => d.phases t = c.phases t ∧ ∀ v u, d.phases f ≠ .hit id v u) ?_ ?_ ⟨inv, ids⟩ ?_
    · intro d a d' inv fresh st
      exact ⟨inv.1.step st, inv.2.step fresh st⟩
    · intro d a d' inv miss _ st
      obtain ⟨et, miss⟩ := miss
      have next := step_misses inv.1 inv.2 st (et ▸ left) (et ▸ key) miss
      exact ⟨next.1.trans et, next.2⟩
    · refine ⟨rfl, fun v u hit => ?_⟩
      rw [phases, ef] at hit
      cases hit
  cases owner with
  | none => rfl
  | some u => exact absurd (fulfills_iff.mp (.inr ef')) (miss.2 st u)

/-- In the life of a process with fewer than `2 ^ 64` dispatch calls, the pending table is always in
order, and no late answer is ever accepted. -/
theorem pendingTable_of_few {as c} (run : Run Process.step Always Process.init as c)
    (few : c.shared.hist.dispatches < 2 ^ 64) :
    PendingTable c ∧
      ∀ bs c', Run Process.step Always c bs c' → c'.shared.hist.dispatches < 2 ^ 64 →
        LateFulfillFails c c' := by
  have fresh := Process.freshId_of_few run rfl few
  have inv := Process.meets run
  have ids := Process.idsDrawn fresh
  refine ⟨Process.pendingTable inv ids (Process.noneBroke fresh), fun bs c' run' few' => ?_⟩
  exact Process.lateFulfillFails inv ids (Process.freshId_of_few run' (Process.counts run) few')

/-- Call 0 is answered `SUCCESS` and returns. -/
def answeredCommand : List (Tid × Choice) :=
  openStream 1 7 0 ++ writeCommand 0 closeRelay ++
    [(2, .call (respondToCommand ⟨1, .success⟩)), (2, .go), (2, .go), (2, .go), (0, .go), (0, .go)]

/-- The client answers the same command again. -/
def repeatedAnswer : List (Tid × Choice) :=
  [(4, .call (respondToCommand ⟨1, .timeout⟩)), (4, .go), (4, .go), (4, .go)]

/-- The pending table of a run with an answer, which is then repeated in vain. -/
theorem repeatedAnswer_fails :
    ∃ c c', Run Process.step Always Process.init answeredCommand c ∧
      c.pc 0 = .dispatch (.returned 1 (.answered .success)) ∧
      Run Process.step Always c repeatedAnswer c' ∧
      c'.pc 4 = .fulfill (.returned 1 .timeout none) ∧ PendingTable c ∧ LateFulfillFails c c' := by
  refine ⟨_, _, Run.of_exec rfl, rfl, Run.of_exec rfl, rfl, ?_⟩
  have order := @pendingTable_of_few answeredCommand _ (Run.of_exec rfl) (by decide)
  exact ⟨order.1, order.2 repeatedAnswer _ (Run.of_exec rfl) (by decide)⟩

end Dnp3Bridge.Dispatcher
