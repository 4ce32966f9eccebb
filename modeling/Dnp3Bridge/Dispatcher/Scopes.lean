import Dnp3Bridge.Dispatcher.Streams

/-!
# The scope of a stream's token

In `StreamCommands` the token is a local, so its destructor runs before the handler returns. The model
lets any thread destroy a token, also one that has been moved to another object, and has the handler
wait for its registration to be released. This module shows that the wait is for the token and for
nothing else: an operation on a token leaves a token moved from behind (`Process.Spent`), so the
registration of a handler that is serving is not lost but in some object until it is released
(`Process.Held`), and the handler can leave its scope exactly when no object holds it any more.
-/

namespace Dnp3Bridge.Dispatcher
open Concurrency Proto

/-- What an operation uses is left alone by the steps of the other threads. -/
lemma Process.tokens_kept {c c' : Process} {a u q k} (reg : c.Registered) (st : c.step a = some c')
    (ne : u ≠ a.1) (e : c.pc u = .token q) (mem : k ∈ q.objects) (full : c.shared.tokens k ≠ none) :
    c'.shared.tokens k = c.shared.tokens k := by
  obtain ⟨st, -⟩ := c.step_inv st
  have own : c.shared.inUse k = some u := by
    refine reg.in_use (q := q) ?_ mem
    simp only [e]
    rfl
  exact st.tokens_kept reg rfl (Ne.symm ne) own full

/-- The object that an operation has released. -/
def TokenPc.spent : TokenPc → Option Object
  | .unlock k _ | .finish k _ => some k
  | _ => none

/-- The operation uses the object that it has released. -/
lemma TokenPc.mem_objects_of_spent {q : TokenPc} {k} (h : q.spent = some k) : k ∈ q.objects := by
  cases q with
  | unlock j a => cases h; cases a <;> exact List.mem_cons_self
  | finish j a => cases h; cases a <;> exact List.mem_cons_self
  | _ => cases h

/-- A token that an operation has released is moved from. -/
def Process.Spent (c : Process) : Prop :=
  ∀ {u q k}, c.pc u = .token q → q.spent = some k →
    ∃ x, c.shared.tokens k = some x ∧ x.dispatcher = false

/-- An operation that has just released its object leaves a token moved from behind. -/
lemma Step.spent {t s i p s' q k} (st : Step t s i p s' (.token q)) (e : q.spent = some k)
    (inv : ∀ {q k}, p = .token q → q.spent = some k →
      ∃ x, s.tokens k = some x ∧ x.dispatcher = false) :
    ∃ x, s'.tokens k = some x ∧ x.dispatcher = false := by
  cases st with
  | start st => cases st <;> cases e
  | token st =>
    cases st with
    | movedFrom ex mf =>
      cases e
      exact ⟨_, ex, mf⟩
    | body =>
      cases e
      exact ⟨_, Function.update_self .., rfl⟩
    | unlock =>
      cases e
      exact inv rfl rfl
    | _ => cases e

/-- The steps of a process keep what has been released moved from. -/
lemma Process.Spent.step {c c' : Process} {a} (inv : c.Spent) (reg : c.Registered)
    (st : c.step a = some c') : c'.Spent := by
  intro u q k eu spent
  obtain ⟨own, pcs⟩ := c.step_inv st
  rcases eq_or_ne u a.1 with rfl | ne
  · rw [eu] at own
    exact own.spent spent fun e rel => inv e rel
  · rw [pcs, Function.update_of_ne ne] at eu
    obtain ⟨x, ex, mf⟩ := inv eu spent
    have full : c.shared.tokens k ≠ none := by
      rw [ex]
      exact Option.some_ne_none x
    have kept := Process.tokens_kept reg st ne eu (TokenPc.mem_objects_of_spent spent) full
    exact ⟨x, kept.trans ex, mf⟩

/-- In every reachable state, what an operation has released is moved from. -/
theorem Process.spent {C as c} (run : Run step C init as c) : c.Spent := by
  refine run.invariant_under (J := Registered) (I := Spent) ?_ ?_
    (Process.registered .nil (C := C)) nofun
  · exact fun _ _ _ reg _ st => reg.step st
  · exact fun _ _ _ reg inv _ st => inv.step reg st

/-- A step takes objects into use for its own thread only. -/
lemma Step.inUse_other {t u s i p s' p' k} (st : Step t s i p s' p') (ne : u ≠ t)
    (own : s'.inUse k = some u) : s.inUse k = some u := by
  have mine : some t ≠ some u := fun e => ne (Option.some.inj e).symm
  cases st with
  | start st =>
    cases st with
    | assignToken => exact (update_inv (update_inv own mine).2 mine).2
    | destroyToken => exact (update_inv own mine).2
    | _ => exact own
  | token st =>
    cases st with
    | destroy => exact (update_inv own nofun).2
    | assign => exact (update_inv (update_inv own nofun).2 nofun).2
    | _ => exact own
  | dispatch st => cases st <;> exact own
  | fulfill st => cases st <;> exact own
  | stream st => cases st <;> exact own

/-- After a step its thread uses every object that it has in use. -/
lemma Step.inUse_own {t s i p s' p' k} (st : Step t s i p s' p') (own : s'.inUse k = some t)
    (before : s.inUse k = some t → ∃ q, p = .token q ∧ k ∈ q.objects) :
    ∃ q, p' = .token q ∧ k ∈ q.objects := by
  cases st with
  | start st =>
    have unused : s.inUse k ≠ some t := by
      intro own
      obtain ⟨q, e, -⟩ := before own
      cases e
    cases st with
    | @assignToken dst src =>
      refine ⟨_, rfl, ?_⟩
      rcases eq_or_ne k src with rfl | es
      · exact List.mem_cons_of_mem _ List.mem_cons_self
      · rcases eq_or_ne k dst with rfl | ed
        · exact List.mem_cons_self
        · exact absurd ((Function.update_of_ne ed ..).symm.trans
            ((Function.update_of_ne es ..).symm.trans own)) unused
    | @destroyToken j =>
      refine ⟨_, rfl, ?_⟩
      rcases eq_or_ne k j with rfl | ne
      · exact List.mem_cons_self
      · exact absurd ((Function.update_of_ne ne ..).symm.trans own) unused
    | _ => exact absurd own unused
  | dispatch st =>
    have same : s'.inUse = s.inUse := by cases st <;> rfl
    obtain ⟨q, e, -⟩ := before (same ▸ own)
    cases e
  | fulfill st =>
    have same : s'.inUse = s.inUse := by cases st <;> rfl
    obtain ⟨q, e, -⟩ := before (same ▸ own)
    cases e
  | stream st =>
    have same : s'.inUse = s.inUse := by cases st <;> rfl
    obtain ⟨q, e, -⟩ := before (same ▸ own)
    cases e
  | token st =>
    cases st with
    | destroy =>
      obtain ⟨ne, own⟩ := update_inv own nofun
      obtain ⟨q, e, mem⟩ := before own
      cases e
      exact absurd (List.mem_singleton.mp mem) ne
    | assign =>
      obtain ⟨ns, own⟩ := update_inv own nofun
      obtain ⟨nd, own⟩ := update_inv own nofun
      obtain ⟨q, e, mem⟩ := before own
      cases e
      rcases List.mem_pair.mp mem with e | e
      · exact absurd e nd
      · exact absurd e ns
    | @armed j a | @movedFrom j a | @lock j a | @body j a | @unlock j a =>
      obtain ⟨q, e, mem⟩ := before own
      cases e
      refine ⟨_, rfl, ?_⟩
      cases a <;> exact mem

/-- An object that is in use is used by the operation that its thread is in. -/
def Process.Owned (c : Process) : Prop :=
  ∀ {k u}, c.shared.inUse k = some u → ∃ q, c.pc u = .token q ∧ k ∈ q.objects

/-- The steps of a process keep the objects in use with the operations that use them. -/
lemma Process.Owned.step {c c' : Process} {a} (inv : c.Owned) (st : c.step a = some c') :
    c'.Owned := by
  intro k u own
  obtain ⟨st, pcs⟩ := c.step_inv st
  rcases eq_or_ne u a.1 with rfl | ne
  · exact st.inUse_own own fun before => inv before
  · rw [pcs, Function.update_of_ne ne]
    exact inv (st.inUse_other ne own)

/-- In every reachable state an object that is in use is used by the operation that its thread is in. -/
theorem Process.owned {C as c} (run : Run step C init as c) : c.Owned := by
  refine run.invariant (I := Owned) (fun _ _ _ inv _ st => inv.step st) ?_
  intro k u own
  cases own

/-- A registration stays released. -/
lemma Step.released_stays {t s i p s' p' u} (st : Step t s i p s' p') (rel : s.released u = true) :
    s'.released u = true := by
  cases st with
  | token st =>
    cases st with
    | @body k a x e =>
      rcases eq_or_ne u x.stream with rfl | ne
      · exact Function.update_self ..
      · exact (Function.update_of_ne ne ..).trans rel
    | _ => exact rel
  | start st => cases st <;> exact rel
  | dispatch st => cases st <;> exact rel
  | fulfill st => cases st <;> exact rel
  | stream st => cases st <;> exact rel

/-- A move does not lose a token, unless it overwrites one that has a registration. -/
lemma Shared.moveToken_keeps {s : Shared} {dst src k x y} (ex : s.tokens k = some x)
    (ey : s.tokens src = some y) (ne : k ≠ dst) :
    ∃ j, (s.moveToken dst src y).tokens j = some x := by
  rcases eq_or_ne k src with rfl | ne'
  · cases ex.symm.trans ey
    exact ⟨dst, Function.update_self ..⟩
  · exact ⟨k, (Function.update_of_ne ne ..).trans ((Function.update_of_ne ne' ..).trans ex)⟩

/-- A step keeps a token that has a registration in some object, or releases the registration. -/
lemma Step.armed_kept {t s i p s' p' k x} (st : Step t s i p s' p') (ex : s.tokens k = some x)
    (arm : x.dispatcher = true)
    (spent : ∀ {q j}, p = .token q → q.spent = some j →
      ∃ y, s.tokens j = some y ∧ y.dispatcher = false) :
    (∃ j, s'.tokens j = some x) ∨ s'.released x.stream = true := by
  -- what is about to be destroyed or overwritten has been released
  have ne : ∀ {q j}, p = .token q → q.spent = some j → k ≠ j := by
    rintro q j e sj rfl
    obtain ⟨y, ey, mf⟩ := spent e sj
    cases ex.symm.trans ey
    cases arm.symm.trans mf
  cases st with
  | start st =>
    cases st with
    | moveToken ey free =>
      refine .inl (Shared.moveToken_keeps ex ey ?_)
      rintro rfl
      cases free.symm.trans ex
    | _ => exact .inl ⟨k, ex⟩
  | stream st =>
    cases st with
    | construct free =>
      refine .inl ⟨k, (Function.update_of_ne ?_ ..).trans ex⟩
      rintro rfl
      cases free.symm.trans ex
    | _ => exact .inl ⟨k, ex⟩
  | token st =>
    cases st with
    | @body j a y ey =>
      rcases eq_or_ne k j with rfl | eq
      · cases ex.symm.trans ey
        exact .inr (Function.update_self ..)
      · exact .inl ⟨k, (Function.update_of_ne eq ..).trans ex⟩
    | destroy => exact .inl ⟨k, (Function.update_of_ne (ne rfl rfl) ..).trans ex⟩
    | assign ey => exact .inl (Shared.moveToken_keeps ex ey (ne rfl rfl))
    | _ => exact .inl ⟨k, ex⟩
  | dispatch st => cases st <;> exact .inl ⟨k, ex⟩
  | fulfill st => cases st <;> exact .inl ⟨k, ex⟩

/-- A handler that is serving has a token in some object until its registration is released. -/
def Process.Held (c : Process) : Prop :=
  ∀ {t w}, c.pc t = .stream (.serving w) → c.shared.released t = false →
    ∃ k x, c.shared.tokens k = some x ∧ x.dispatcher = true ∧ x.stream = t

/-- A handler that is serving has just built its token, or was serving before. -/
lemma Step.serving_inv {t s i p s' w} (st : Step t s i p s' (.stream (.serving w))) :
    ∃ k, s'.tokens k = some ⟨true, w, t⟩ := by
  cases st with
  | start st => cases st
  | stream st =>
    cases st with
    | construct free => exact ⟨_, Function.update_self ..⟩

/-- The steps of a process keep the tokens of the handlers that are serving. -/
lemma Process.Held.step {c c' : Process} {a} (inv : c.Held) (spent : c.Spent)
    (st : c.step a = some c') : c'.Held := by
  intro u w eu rel
  obtain ⟨st, pcs⟩ := c.step_inv st
  rcases eq_or_ne u a.1 with rfl | eq
  · rw [eu] at st
    obtain ⟨k, e⟩ := st.serving_inv
    exact ⟨k, _, e, rfl, rfl⟩
  · rw [pcs, Function.update_of_ne eq] at eu
    have rel' : c.shared.released u = false := by
      by_contra done
      cases rel.symm.trans (st.released_stays (Bool.eq_true_of_not_eq_false done))
    obtain ⟨k, x, ex, arm, rfl⟩ := inv eu rel'
    obtain ⟨j, ej⟩ | done := st.armed_kept ex arm (fun e sj => spent e sj)
    · exact ⟨j, x, ej, arm, rfl⟩
    · cases rel.symm.trans done

/-- In every reachable state, a handler that is serving has its token in some object until its
registration is released. -/
theorem Process.held {C as c} (run : Run step C init as c) : c.Held := by
  refine run.invariant_under (J := fun c => c.Registered ∧ c.Spent) (I := Held) ?_ ?_
    ⟨Process.registered .nil (C := C), Process.spent .nil (C := C)⟩ nofun
  · rintro _ _ _ ⟨reg, spent⟩ _ st
    exact ⟨reg.step st, spent.step reg st⟩
  · exact fun _ _ _ both inv _ st => inv.step both.2 st

/-- A handler can leave its scope exactly when no object holds its token any more, but for a token
moved from. -/
theorem Process.leaves_iff {C as c t w} (run : Run step C init as c)
    (e : c.pc t = .stream (.serving w)) :
    (c.step (t, .go)).isSome = true ↔
      ∀ k x, c.shared.tokens k = some x → x.stream = t → x.dispatcher = false := by
  have released : (c.step (t, .go)).isSome = true ↔ c.shared.released t = true := by
    rw [step, Conf.step, e, next, streamCommands]
    cases c.shared.released t <;> simp
  rw [released]
  constructor
  · rintro rel k x ex rfl
    by_contra arm
    cases rel.symm.trans ((Process.registered run).armed ex (Bool.eq_true_of_not_eq_false arm)).2
  · intro gone
    by_contra rel
    obtain ⟨k, x, ex, arm, eq⟩ := Process.held run e (Bool.eq_false_of_not_eq_true rel)
    cases arm.symm.trans (gone k x ex eq)

/-- The object that an operation is about to release, unless its token has been moved from. -/
def TokenPc.facing : TokenPc → Option Object
  | .check k _ | .lock k _ | .body k _ => some k
  | _ => none

/-- The operation uses the object that it is about to release. -/
lemma TokenPc.mem_objects_of_facing {q : TokenPc} {k} (h : q.facing = some k) : k ∈ q.objects := by
  cases q with
  | check j a => cases h; cases a <;> exact List.mem_cons_self
  | lock j a => cases h; cases a <;> exact List.mem_cons_self
  | body j a => cases h; cases a <;> exact List.mem_cons_self
  | _ => cases h

/-- An operation on a token that has a registration goes on to release it. -/
lemma Step.facing_inv {t s i q s' p' k x} (st : Step t s i (.token q) s' p') (f : q.facing = some k)
    (ex : s.tokens k = some x) (arm : x.dispatcher = true) :
    (∃ q', p' = .token q' ∧ q'.facing = some k ∧ s'.tokens k = some x) ∨
      s'.released x.stream = true := by
  cases st with
  | token st =>
    cases st with
    | armed | lock =>
      cases f
      exact .inl ⟨_, rfl, rfl, ex⟩
    | movedFrom ex' mf =>
      cases f
      cases ex.symm.trans ex'
      cases arm.symm.trans mf
    | body ex' =>
      cases f
      cases ex.symm.trans ex'
      exact .inr (Function.update_self ..)
    | _ => cases f

/-- Some thread is about to release the registration of the call `t`. -/
def Process.Leaving (c : Process) (t : Tid) : Prop :=
  ∃ u q k x, c.pc u = .token q ∧ q.facing = some k ∧ c.shared.tokens k = some x ∧
    x.dispatcher = true ∧ x.stream = t

/-- A step leaves somebody about to release the registration, or releases it. -/
lemma Process.Leaving.step {c c' : Process} {a t} (leaving : c.Leaving t) (reg : c.Registered)
    (st : c.step a = some c') : c'.Leaving t ∨ c'.shared.released t = true := by
  obtain ⟨u, q, k, x, eu, f, ex, arm, rfl⟩ := leaving
  obtain ⟨own, pcs⟩ := c.step_inv st
  rcases eq_or_ne u a.1 with rfl | ne
  · rw [eu] at own
    obtain ⟨q', e', f', ex'⟩ | rel := own.facing_inv f ex arm
    · exact .inl ⟨_, q', k, x, e', f', ex', arm, rfl⟩
    · exact .inr rel
  · have kept := Process.tokens_kept reg st ne eu (TokenPc.mem_objects_of_facing f) (by rw [ex]; nofun)
    refine .inl ⟨u, q, k, x, ?_, f, kept.trans ex, arm, rfl⟩
    rw [pcs, Function.update_of_ne ne, eu]

end Dnp3Bridge.Dispatcher
