import Dnp3Bridge.Concurrency.Run

/-!
# Threads over a shared state

A configuration is a shared state and a program counter for every thread. The program is one
function `next`: in a shared state `s`, thread `t` at program counter `p` that is offered the choice
`i` either cannot move or goes on with a new shared state and a new program counter. Any thread may
take the next step, so a run of `Conf.step next` is an interleaving of the threads.

`LockStep` says what one step of a thread may do with a mutex; a program all of whose steps are
`LockStep`s keeps `Held`: the owner field names exactly the thread that is in its critical section.
-/

namespace Dnp3Bridge.Concurrency

variable {τ σ π ι : Type*}

/-- The shared state and the program counter of every thread. -/
structure Conf (τ σ π : Type*) where
  shared : σ
  pc : τ → π

section Step
variable [DecidableEq τ] {next : ι → τ → σ → π → Option (σ × π)}

/-- One step of thread `a.1`, which is offered the choice `a.2`. -/
def Conf.step (next : ι → τ → σ → π → Option (σ × π)) (c : Conf τ σ π) (a : τ × ι) :
    Option (Conf τ σ π) :=
  (next a.2 a.1 c.shared (c.pc a.1)).map fun r => ⟨r.1, Function.update c.pc a.1 r.2⟩

/-- A step is a move of its thread; the other program counters stay. -/
lemma Conf.step_inv {c c' : Conf τ σ π} {a} (st : c.step next a = some c') :
    ∃ s p, next a.2 a.1 c.shared (c.pc a.1) = some (s, p) ∧
      c' = ⟨s, Function.update c.pc a.1 p⟩ := by
  obtain ⟨⟨s, p⟩, mv, e⟩ := Option.map_eq_some_iff.mp st
  exact ⟨s, p, mv, e.symm⟩

/-- A thread without a step in a run stays where it is. -/
lemma Conf.run_other {C : Conf τ σ π → τ × ι → Prop} {c c' : Conf τ σ π} {as t}
    (run : Run (Conf.step next) C c as c') (other : ∀ a ∈ as, a.1 ≠ t) : c'.pc t = c.pc t := by
  induction run with
  | nil => rfl
  | cons _ st _ ih =>
    obtain ⟨ne, other⟩ := List.forall_mem_cons.mp other
    obtain ⟨s, p, -, rfl⟩ := Conf.step_inv st
    rw [ih other]
    exact Function.update_of_ne (Ne.symm ne) ..

end Step

/-- A move of a part of the program is a move of the program, at the program counter of the part. -/
lemma exists_of_map_pc {ρ : Type*} {r : Option (σ × ρ)} {f : ρ → π} {s' p'}
    (mv : r.map (Prod.map id f) = some (s', p')) : ∃ q, r = some (s', q) ∧ p' = f q := by
  obtain ⟨⟨s, q⟩, e, e'⟩ := Option.map_eq_some_iff.mp mv
  cases e'
  exact ⟨q, e, rfl⟩

/-- What is read off the program counters changes for the stepping thread only. -/
lemma update_pc [DecidableEq τ] {α : Type*} {pc pc' : τ → π} {t}
    (e : pc' = Function.update pc t (pc' t)) (f : π → α) :
    (fun u => f (pc' u)) = Function.update (fun u => f (pc u)) t (f (pc' t)) := by
  funext u
  rw [congrFun e u]
  exact Function.apply_update (fun _ => f) pc t (pc' t) u

/-- A value other than the new one is that of another thread, and has not changed. -/
lemma update_inv [DecidableEq τ] {α : Type*} {f : τ → α} {t u p q}
    (h : Function.update f t p u = q) (ne : p ≠ q) : u ≠ t ∧ f u = q := by
  rcases eq_or_ne u t with rfl | other
  · rw [Function.update_self] at h
    exact absurd h ne
  · rw [Function.update_of_ne other] at h
    exact ⟨other, h⟩

/-- What a step of thread `t` may do with a mutex: nothing, take it when it is free, or give it
back. The flags say whether `t` is in its critical section. -/
inductive LockStep (t : τ) : Option τ → Bool → Option τ → Bool → Prop where
  | stay {o b} :
    LockStep t o b o b
  | acquire :
    LockStep t none false (some t) true
  | release {o} :
    LockStep t o true none false

/-- The owner of a mutex is the thread that is in its critical section. -/
def Held (owner : Option τ) (inside : τ → Bool) : Prop :=
  ∀ t, inside t = true ↔ owner = some t

/-- Two threads are never both inside. -/
lemma Held.unique {owner : Option τ} {inside : τ → Bool} {t u} (h : Held owner inside)
    (ht : inside t = true) (hu : inside u = true) : t = u := by
  have := ((h t).mp ht).symm.trans ((h u).mp hu)
  exact Option.some.inj this

/-- A mutex that is free keeps everyone out. -/
lemma Held.free {inside : τ → Bool} {t} (h : Held none inside) : inside t = false := by
  cases e : inside t with
  | false => rfl
  | true => cases (h t).mp e

/-- A lock step keeps the mutual exclusion. -/
theorem Held.step [DecidableEq τ] {o o' : Option τ} {inside : τ → Bool} {t b}
    (h : Held o inside) (st : LockStep t o (inside t) o' b) :
    Held o' (Function.update inside t b) := by
  generalize e : inside t = a at st
  intro u
  rcases eq_or_ne u t with rfl | eq
  · rw [Function.update_self]
    cases st with
    | stay => exact e ▸ h u
    | acquire => simp
    | release => simp
  · rw [Function.update_of_ne eq]
    cases st with
    | stay => exact h u
    | acquire =>
      rw [h.free]
      simp [Ne.symm eq]
    | release =>
      have ht := (h t).mp e
      rw [h u, ht]
      simp [Ne.symm eq]

end Dnp3Bridge.Concurrency
