import Dnp3Bridge.Dispatcher.Meeting
import Mathlib.Algebra.Group.Nat.Defs

/-!
# Command ids

Command ids are drawn from a 64-bit counter that starts at 1. As long as no dispatch call begins with
the counter at 0 (`FreshId`), which takes `2 ^ 64` calls, no id is drawn twice and none is 0; then a
process is a meeting with distinct keys and no dispatch call ever throws.
-/

namespace Dnp3Bridge.Dispatcher
open Concurrency Proto

/-- The call of `dispatch`. -/
def Choice.startsDispatch : Choice → Bool
  | .call (.dispatch _) => true
  | _ => false

/-- The action starts a dispatch call. -/
def Process.Dispatches (c : Process) (a : Tid × Choice) : Prop :=
  c.pc a.1 = .idle ∧ a.2.startsDispatch = true

/-- A dispatch call begins before the counter of command ids has wrapped. -/
def FreshId (c : Process) (a : Tid × Choice) : Prop :=
  c.Dispatches a → c.shared.nextId ≠ 0

instance (c : Process) (a : Tid × Choice) : Decidable (FreshId c a) :=
  inferInstanceAs (Decidable (c.pc a.1 = .idle ∧ a.2.startsDispatch = true → _))

/-- The ids drawn so far are below the counter, are not 0 and are distinct. -/
structure Process.IdsDrawn (c : Process) : Prop where
  below : ∀ {t id}, (c.phases t).key = some id → c.shared.nextId = 0 ∨ id < c.shared.nextId
  ne_zero : ∀ {t id}, (c.phases t).key = some id → id ≠ 0
  distinct : DistinctKeys c.phases

/-- The steps of a dispatch call neither draw a key nor drop the one it has. -/
lemma DispatchStep.key_eq {t s p s' p'} (st : DispatchStep t s p s' p') :
    s'.nextId = s.nextId ∧ s'.hist.dispatches = s.hist.dispatches ∧ p'.phase.key = p.phase.key := by
  cases st <;> exact ⟨rfl, rfl, rfl⟩

/-- A fulfill call has no key. -/
lemma FulfillPc.key_eq (p : FulfillPc) : p.phase.key = none := by
  cases p with
  | unlock id st owner => cases owner <;> rfl
  | returned id st owner => cases owner <;> rfl
  | _ => rfl

/-- The steps of a fulfill call do not touch the counter. -/
lemma FulfillStep.nextId_eq {t s p s' p'} (st : FulfillStep t s p s' p') :
    s'.nextId = s.nextId ∧ s'.hist.dispatches = s.hist.dispatches := by
  cases st <;> exact ⟨rfl, rfl⟩

/-- The steps of `StreamCommands` do not touch the counter. -/
lemma StreamStep.nextId_eq {t s p s' p'} (st : StreamStep t s p s' p') :
    s'.nextId = s.nextId ∧ s'.hist.dispatches = s.hist.dispatches := by
  cases st <;> exact ⟨rfl, rfl⟩

/-- The steps of a token operation do not touch the counter. -/
lemma TokenStep.nextId_eq {t s p s' p'} (st : TokenStep t s p s' p') :
    s'.nextId = s.nextId ∧ s'.hist.dispatches = s.hist.dispatches := by
  cases st <;> exact ⟨rfl, rfl⟩

/-- What a step does to the counter and to the key of its thread. -/
inductive KeyStep (s : Shared) (q : Option UInt64) : Shared → Option UInt64 → Prop where
  | keep {s'} :
    s'.nextId = s.nextId →
    s'.hist.dispatches = s.hist.dispatches →
    KeyStep s q s' q
  | draw {s'} :
    q = none →
    s'.nextId = s.nextId + 1 →
    s'.hist.dispatches = s.hist.dispatches + 1 →
    KeyStep s q s' (some s.nextId)

/-- A step draws the next id at the start of a dispatch call, and changes nothing else. -/
lemma Process.step_key {c c' : Process} {a} (st : c.step a = some c') :
    KeyStep c.shared (c.phases a.1).key c'.shared (c'.phases a.1).key ∧
      (c'.shared.nextId = c.shared.nextId ∨ c.Dispatches a) := by
  obtain ⟨t, i⟩ := a
  obtain ⟨st, -⟩ := c.step_inv st
  generalize ep : c.pc t = p at st
  generalize ep' : c'.pc t = p' at st
  simp only [phases, ep, ep']
  generalize c'.shared = s' at st
  cases st with
  | start st =>
    cases st with
    | @dispatch req => exact ⟨.draw rfl rfl rfl, .inr ⟨ep, rfl⟩⟩
    | _ => exact ⟨.keep rfl rfl, .inl rfl⟩
  | dispatch st =>
    obtain ⟨h1, h2, h3⟩ := st.key_eq
    refine ⟨?_, .inl h1⟩
    rw [show (Pc.dispatch _).phase.key = _ from h3]
    exact .keep h1 h2
  | @fulfill _ p _ q st =>
    obtain ⟨h1, h2⟩ := st.nextId_eq
    refine ⟨?_, .inl h1⟩
    rw [show (Pc.fulfill p).phase.key = none from p.key_eq,
      show (Pc.fulfill q).phase.key = none from q.key_eq]
    exact .keep h1 h2
  | stream st =>
    obtain ⟨h1, h2⟩ := st.nextId_eq
    exact ⟨.keep h1 h2, .inl h1⟩
  | token st =>
    obtain ⟨h1, h2⟩ := st.nextId_eq
    exact ⟨.keep h1 h2, .inl h1⟩

/-- With the counter not at 0, drawing an id keeps the ids below the counter. -/
lemma lt_succ_of_lt {a b : UInt64} (h : a < b ∨ a = b) : b + 1 = 0 ∨ a < b + 1 := by
  grind

/-- A step that keeps the counter and every key keeps the ids drawn. -/
lemma Process.IdsDrawn.keep {c c' : Process} (ids : c.IdsDrawn)
    (counter : c'.shared.nextId = c.shared.nextId)
    (keys : ∀ u, (c'.phases u).key = (c.phases u).key) : c'.IdsDrawn where
  below {t id} key := by
    rw [counter]
    exact ids.below (keys t ▸ key)
  ne_zero {t id} key := ids.ne_zero (keys t ▸ key)
  distinct t u id kt ku := ids.distinct t u id (keys t ▸ kt) (keys u ▸ ku)

/-- A step that draws the counter for a thread without a key keeps the ids drawn. -/
lemma Process.IdsDrawn.draw {c c' : Process} {t} (ids : c.IdsDrawn)
    (counter : c'.shared.nextId = c.shared.nextId + 1) (ne : c.shared.nextId ≠ 0)
    (own : (c'.phases t).key = some c.shared.nextId)
    (other : ∀ u, u ≠ t → c'.phases u = c.phases u) : c'.IdsDrawn := by
  have old : ∀ {u id}, u ≠ t → (c'.phases u).key = some id → id < c.shared.nextId := by
    intro u id hu key
    rw [other u hu] at key
    exact (ids.below key).resolve_left ne
  have fresh : ∀ {u}, (c'.phases u).key = some c.shared.nextId → u = t := by
    intro u key
    by_contra hu
    exact absurd (old hu key) (UInt64.lt_irrefl _)
  refine ⟨fun {u id} key => ?_, fun {u id} key => ?_, fun u v id ku kv => ?_⟩
  · rw [counter]
    rcases eq_or_ne u t with rfl | hu
    · cases own.symm.trans key
      exact lt_succ_of_lt (.inr rfl)
    · exact lt_succ_of_lt (.inl (old hu key))
  · rcases eq_or_ne u t with rfl | hu
    · cases own.symm.trans key
      exact ne
    · rw [other u hu] at key
      exact ids.ne_zero key
  · rcases eq_or_ne u t with rfl | hu
    · cases own.symm.trans ku
      exact (fresh kv).symm
    · rcases eq_or_ne v t with rfl | hv
      · cases own.symm.trans kv
        exact fresh ku
      · rw [other u hu] at ku
        rw [other v hv] at kv
        exact ids.distinct u v id ku kv

/-- A step under `FreshId` keeps the ids drawn. -/
lemma Process.IdsDrawn.step {c c' : Process} {a} (ids : c.IdsDrawn) (fresh : FreshId c a)
    (st : c.step a = some c') : c'.IdsDrawn := by
  obtain ⟨ks, draws⟩ := c.step_key st
  have other : ∀ u, u ≠ a.1 → c'.phases u = c.phases u := by
    intro u ne
    rw [c.step_phases st, Function.update_of_ne ne]
  generalize e : (c.phases a.1).key = q at ks
  generalize e' : (c'.phases a.1).key = q' at ks
  cases ks with
  | keep counter _ =>
    refine ids.keep counter fun u => ?_
    by_cases eq : u = a.1
    · rw [eq, e, e']
    · rw [other u eq]
  | draw _ counter _ =>
    refine ids.draw counter ?_ e' other
    obtain same | starts := draws
    · rw [counter] at same
      grind
    · exact fresh starts

/-- In a run whose counter does not wrap, the ids are distinct and not 0. -/
theorem Process.idsDrawn {as c} (run : Run step FreshId init as c) : c.IdsDrawn := by
  refine run.invariant (fun _ _ _ ids fresh st => ids.step fresh st) ⟨?_, ?_, ?_⟩
  · intro t id key
    cases key
  · intro t id key
    cases key
  · intro t u id key
    cases key

/-- In a run whose counter does not wrap, no promise breaks under a waiting dispatch call. -/
theorem Process.noneBroke {as c} (run : Run step FreshId init as c) :
    NoneBroke c.shared.promises c.phases := by
  refine run.invariant_under (J := fun c => c.Meets ∧ c.IdsDrawn)
    (I := fun c => NoneBroke c.shared.promises c.phases) ?_ ?_ ⟨Meeting.init, idsDrawn .nil⟩ ?_
  · intro c a c' inv fresh st
    exact ⟨inv.1.step st, inv.2.step fresh st⟩
  · intro c a c' inv none _ st
    obtain ⟨em, ep⟩ | ⟨mv, ep⟩ := c.step_move st
    · rw [em, ep]
      exact none
    · rw [ep]
      exact none.move inv.1 inv.2.distinct mv
  · intro t k _ e
    cases e

/-- The counter stands at the number of dispatch calls, plus one. -/
def Process.Counts (c : Process) : Prop :=
  c.shared.nextId = UInt64.ofNat (c.shared.hist.dispatches + 1)

/-- A step leaves the counter and the number of dispatch calls alone, or counts both up by one. -/
lemma Process.step_counter {c c' : Process} {a} (st : c.step a = some c') :
    (c'.shared.nextId = c.shared.nextId ∧ c'.shared.hist.dispatches = c.shared.hist.dispatches) ∨
      (c'.shared.nextId = c.shared.nextId + 1 ∧
        c'.shared.hist.dispatches = c.shared.hist.dispatches + 1) := by
  have ks := (c.step_key st).1
  generalize (c.phases a.1).key = q at ks
  generalize (c'.phases a.1).key = q' at ks
  cases ks with
  | keep counter calls => exact .inl ⟨counter, calls⟩
  | draw _ counter calls => exact .inr ⟨counter, calls⟩

/-- A step keeps the counter in line with the number of dispatch calls. -/
lemma Process.Counts.step {c c' : Process} {a} (cnt : c.Counts) (st : c.step a = some c') :
    c'.Counts := by
  unfold Counts at cnt ⊢
  obtain ⟨counter, calls⟩ | ⟨counter, calls⟩ := step_counter st
  · rw [counter, calls, cnt]
  · rw [counter, calls, cnt, UInt64.ofNat_add (c.shared.hist.dispatches + 1) 1]
    rfl

/-- In every reachable state the counter has counted the dispatch calls. -/
lemma Process.counts {C as c} (run : Run step C init as c) : c.Counts :=
  run.invariant (fun _ _ _ cnt _ st => cnt.step st) rfl

/-- The number of dispatch calls only grows. -/
lemma Process.dispatches_le {C c c' as} (run : Run step C c as c') :
    c.shared.hist.dispatches ≤ c'.shared.hist.dispatches := by
  refine run.monotone (f := fun c => c.shared.hist.dispatches) ?_
  intro c a c' _ st
  obtain ⟨-, calls⟩ | ⟨-, calls⟩ := step_counter st
  · exact calls.ge
  · rw [calls]
    exact Nat.le_succ _

/-- A dispatch call that starts is counted. -/
lemma Process.Dispatches.counted {c c' : Process} {a} (starts : c.Dispatches a)
    (st : c.step a = some c') :
    c'.shared.hist.dispatches = c.shared.hist.dispatches + 1 := by
  obtain ⟨t, i⟩ := a
  obtain ⟨idle, disp⟩ := starts
  obtain ⟨st, -⟩ := c.step_inv st
  simp only at idle disp
  rw [idle] at st
  generalize c'.shared = s', c'.pc t = p' at st
  cases st with
  | start st =>
    cases st with
    | dispatch => rfl
    | _ => cases disp

/-- A run of fewer than `2 ^ 64` dispatch calls does not wrap the counter. -/
theorem Process.freshId_of_few {C c c' as} (run : Run step C c as c') (cnt : c.Counts)
    (few : c'.shared.hist.dispatches < 2 ^ 64) : Run step FreshId c as c' := by
  induction run with
  | nil => exact .nil
  | @cons c1 c2 c3 a as _ st run ih =>
    refine .cons ?_ st (ih (cnt.step st) few)
    intro starts zero
    have le := dispatches_le run
    rw [starts.counted st] at le
    have eq := congrArg UInt64.toNat (cnt.symm.trans zero)
    simp only [UInt64.toNat_ofNat', UInt64.toNat_zero] at eq
    omega

end Dnp3Bridge.Dispatcher
