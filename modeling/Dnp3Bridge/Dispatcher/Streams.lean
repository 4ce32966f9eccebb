import Dnp3Bridge.Dispatcher.Agreement
import Dnp3Bridge.Dispatcher.Locks
import Dnp3Bridge.Dispatcher.Registry
import Dnp3Bridge.Dispatcher.Writes

/-!
# The command stream

The invariant of the registry holds in every reachable state, and `active_writer_` changes only inside
`writer_mutex_`. So `active_writer_` is the writer of the latest registration until that one is
released, and a writer stays registered, and its handler running, as long as a `Write` on it lasts.
-/

namespace Dnp3Bridge.Dispatcher
open Concurrency Proto

/-- The registry of a process is sound. -/
def Process.Registered (c : Process) : Prop :=
  c.shared.registry.Sound (fun t => (c.pc t).streamPc) (fun t => (c.pc t).tokenPc)

section Steps
variable {t : Tid} {s s' : Shared} {S : Tid → Option StreamPc} {T : Tid → Option TokenPc}

/-- The steps of a `StreamCommands` call keep the registry sound. -/
lemma StreamStep.sound {p p'} (st : StreamStep t s p s' p') (inv : s.registry.Sound S T)
    (e : S t = some p) : s'.registry.Sound (Function.update S t (some p')) T := by
  -- a registration is released by the token of its call only
  have fresh : p.tokened = false → s.registry.released t = false := by
    intro tok
    by_contra rel
    obtain ⟨q, eq, tok'⟩ := inv.released (Bool.eq_true_of_not_eq_false rel)
    cases e.symm.trans eq
    cases tok.symm.trans tok'
  cases st with
  | lock => exact inv.advance e rfl rfl nofun rfl
  | @register w =>
    have inv' : s.registry.Sound (Function.update S t (some (.unlock w))) T :=
      inv.advance e rfl rfl nofun rfl
    exact inv'.register (Function.update_self ..) rfl (fresh rfl)
  | unlock => exact inv.advance e rfl rfl (fun _ => rfl) rfl
  | @construct w k free =>
    -- every armed token belongs to a call that is serving
    have first : ∀ {j y}, s.registry.tokens j = some y → y.dispatcher = true → y.stream ≠ t := by
      rintro j y ej arm rfl
      cases e.symm.trans (inv.armed ej arm).1
    have inv' : s.registry.Sound (Function.update S t (some (.serving w))) T :=
      inv.advance e rfl rfl (fun _ => rfl) rfl
    exact inv'.arm (Function.update_self ..) (fresh rfl) free first
  | leave rel => exact inv.leave e rel

/-- The steps of an operation on a token keep the registry sound. -/
lemma TokenStep.sound {q q'} (st : TokenStep t s q s' q') (inv : s.registry.Sound S T)
    (e : T t = some q) : s'.registry.Sound S (Function.update T t (some q')) := by
  have own : ∀ {k}, k ∈ q.objects → s.registry.inUse k = some t := fun mem => inv.in_use e mem
  cases st with
  | @armed k a x ex arm =>
    refine inv.turn (fun j mem => own (by cases a <;> exact mem)) fun j rel => ?_
    cases rel
    exact ⟨x, ex, arm⟩
  | @movedFrom k a =>
    exact inv.turn (fun j mem => own (by cases a <;> exact mem)) nofun
  | @lock k a =>
    refine inv.turn (fun j mem => own (by cases a <;> exact mem)) fun j rel => ?_
    exact inv.releasing e rel
  | @body k a x ex =>
    have inv' : s.registry.Sound S (Function.update T t (some (.unlock k a))) :=
      inv.turn (fun j mem => own (by cases a <;> exact mem)) nofun
    -- the operation goes on first, so that none is about to release the token when it is disarmed
    have mine : s.registry.inUse k = some t :=
      own (Registry.Sound.mem_objects_of_releasing rfl)
    obtain ⟨y, ey, arm⟩ := inv.releasing e rfl
    cases ex.symm.trans ey
    exact inv'.disarm ex arm (inv'.calm_of_owner mine (Function.update_self ..) rfl)
  | @unlock k a =>
    exact inv.turn (fun j mem => own (by cases a <;> exact mem)) nofun
  | @destroy k =>
    have mine : s.registry.inUse k = some t := own List.mem_cons_self
    have inv' : s.registry.Sound S (Function.update T t (some .done)) := inv.turn nofun nofun
    have erased := inv'.erase (inv'.calm_of_owner mine (Function.update_self ..) rfl)
    exact erased.drop (inv'.unused_of_owner mine (Function.update_self ..))
  | @assign k src x ex =>
    have mine : s.registry.inUse k = some t := own List.mem_cons_self
    have mine' : s.registry.inUse src = some t := own (List.mem_cons_of_mem _ List.mem_cons_self)
    have inv' : s.registry.Sound S (Function.update T t (some .done)) := inv.turn nofun nofun
    have moved := inv'.move ex fun e =>
      ⟨inv'.calm_of_owner mine (Function.update_self ..) rfl e,
        inv'.calm_of_owner mine' (Function.update_self ..) rfl e⟩
    have dropped := moved.drop (inv'.unused_of_owner mine (Function.update_self ..))
    exact dropped.drop (inv'.unused_of_owner mine' (Function.update_self ..))

/-- The start of a call keeps the registry sound. -/
lemma StartStep.sound {c p'} (st : StartStep t s c s' p') (inv : s.registry.Sound S T)
    (eS : S t = none) (eT : T t = none) :
    s'.registry.Sound (Function.update S t p'.streamPc) (Function.update T t p'.tokenPc) := by
  have keepS : Function.update S t none = S := Function.update_eq_self_iff.mpr eS.symm
  have keepT : Function.update T t none = T := Function.update_eq_self_iff.mpr eT.symm
  cases st with
  | dispatch | fulfill =>
    show Registry.Sound _ (Function.update S t none) (Function.update T t none)
    rw [keepS, keepT]
    exact inv
  | streamCommands free =>
    show Registry.Sound _ _ (Function.update T t none)
    rw [keepT]
    exact inv.begin eS free
  | @moveToken dst src x ex free idle =>
    show Registry.Sound _ (Function.update S t none) _
    rw [keepS]
    have inv' : s.registry.Sound S (Function.update T t (some .done)) := inv.turn nofun nofun
    -- the target is empty, and nothing uses the source
    refine inv'.move ex fun e => ⟨fun rel => ?_, fun rel => ?_⟩
    · obtain ⟨y, ey, -⟩ := inv'.releasing e rel
      cases free.symm.trans ey
    · cases idle.symm.trans (inv'.in_use e (Registry.Sound.mem_objects_of_releasing rel))
  | selfAssign =>
    show Registry.Sound _ (Function.update S t none) _
    rw [keepS]
    exact inv.turn nofun nofun
  | @assignToken dst src _ _ idle idle' ne =>
    show Registry.Sound _ (Function.update S t none) _
    rw [keepS]
    have claimed := inv.claim (t := t) idle
    have claimed' := claimed.claim (t := t) (k := src)
      ((Function.update_of_ne (Ne.symm ne) ..).trans idle')
    refine claimed'.turn (fun k mem => ?_) nofun
    rcases List.mem_cons.mp mem with rfl | mem
    · exact (Function.update_of_ne ne ..).trans (Function.update_self ..)
    · cases List.mem_singleton.mp mem
      exact Function.update_self ..
  | @destroyToken k _ idle =>
    show Registry.Sound _ (Function.update S t none) _
    rw [keepS]
    refine (inv.claim (t := t) idle).turn (fun j mem => ?_) nofun
    cases List.mem_singleton.mp mem
    exact Function.update_self ..

/-- The steps of a thread keep the registry sound. -/
lemma Step.sound {i p p'} (st : Step t s i p s' p') (inv : s.registry.Sound S T)
    (eS : S t = p.streamPc) (eT : T t = p.tokenPc) :
    s'.registry.Sound (Function.update S t p'.streamPc) (Function.update T t p'.tokenPc) := by
  have keepS : p.streamPc = none → Function.update S t none = S := fun e =>
    Function.update_eq_self_iff.mpr (eS.trans e).symm
  have keepT : p.tokenPc = none → Function.update T t none = T := fun e =>
    Function.update_eq_self_iff.mpr (eT.trans e).symm
  cases st with
  | start st => exact st.sound inv eS eT
  | dispatch st | fulfill st =>
    have same : s'.registry = s.registry := by cases st <;> rfl
    show Registry.Sound _ (Function.update S t none) (Function.update T t none)
    rw [same, keepS rfl, keepT rfl]
    exact inv
  | stream st =>
    show Registry.Sound _ _ (Function.update T t none)
    rw [keepT rfl]
    exact st.sound inv eS
  | token st =>
    show Registry.Sound _ (Function.update S t none) _
    rw [keepS rfl]
    exact st.sound inv eT

end Steps

/-- Every step keeps the registry sound. -/
lemma Process.Registered.step {c c' : Process} {a} (inv : c.Registered) (st : c.step a = some c') :
    c'.Registered := by
  obtain ⟨st, pcs⟩ := c.step_inv st
  have next := st.sound inv rfl rfl
  unfold Registered
  rw [update_pc pcs Pc.streamPc, update_pc pcs Pc.tokenPc]
  exact next

/-- In every reachable state the registry is sound. -/
theorem Process.registered {C as c} (run : Run step C init as c) : c.Registered := by
  refine run.invariant (fun _ _ _ inv _ st => inv.step st) ?_
  refine ⟨?_, nofun, nofun, nofun, nofun, nofun, nofun, nofun, rfl⟩
  intro w t
  constructor
  · nofun
  · intro h
    obtain ⟨p, e, -⟩ := h
    cases e

/-- Only a thread in a `StreamCommands` call has the program counter of one. -/
lemma Pc.streamPc_eq_some {p : Pc} {q} (e : p.streamPc = some q) : p = .stream q := by
  cases p <;> cases e
  rfl

/-- Only a registration and a release touch `active_writer_`. -/
lemma Step.active_inv {t s i p s' p'} (st : Step t s i p s' p') :
    s'.activeWriter = s.activeWriter ∨
      (∃ w, p = .stream (.register w) ∧ s'.activeWriter = some w) ∨
      ∃ k b x, p = .token (.body k b) ∧ s.tokens k = some x ∧
        s'.activeWriter = if s.activeWriter = some x.writer then none else s.activeWriter := by
  cases st with
  | stream st =>
    cases st with
    | register => exact .inr (.inl ⟨_, rfl, rfl⟩)
    | _ => exact .inl rfl
  | token st =>
    cases st with
    | @body k b x e => exact .inr (.inr ⟨k, b, x, rfl, e, rfl⟩)
    | _ => exact .inl rfl
  | start st => cases st <;> exact .inl rfl
  | dispatch st => cases st <;> exact .inl rfl
  | fulfill st => cases st <;> exact .inl rfl

/-- A dispatch call that is in `Write` has found the writer it writes to. -/
lemma Step.beginWrite_inv {t s i p s' req w} (st : Step t s i p s' (.dispatch (.write req w))) :
    s'.activeWriter = some w := by
  cases st with
  | start st => cases st
  | dispatch st =>
    cases st with
    | beginWrite found => exact found

/-- A writer stays registered as long as a `Write` on it lasts. -/
def Process.Writing (c : Process) : Prop :=
  ∀ {t req w}, c.pc t = .dispatch (.write req w) → c.shared.activeWriter = some w

/-- Every step keeps the writer of a `Write` registered. -/
lemma Process.Writing.step {c c' : Process} {a} (inv : c.Writing) (held : c.WriterHeld)
    (st : c.step a = some c') : c'.Writing := by
  intro u req w eu
  obtain ⟨st, pcs⟩ := c.step_inv st
  rcases eq_or_ne u a.1 with rfl | eq
  · rw [eu] at st
    exact st.beginWrite_inv
  · rw [pcs, Function.update_of_ne eq] at eu
    -- the writing call is inside `writer_mutex_`, so the stepping one is not
    have out : (c.pc a.1).holdsWriter = true → False := by
      intro inside
      exact eq (held.unique (by rw [eu]; rfl) inside)
    obtain same | ⟨w', e, -⟩ | ⟨k, b, x, e, -⟩ := st.active_inv
    · rw [same]
      exact inv eu
    · exact (out (by rw [e]; rfl)).elim
    · exact (out (by rw [e]; rfl)).elim

/-- In every reachable state the writer of a `Write` is the registered one. -/
theorem Process.writing {C as c} (run : Run step C init as c) : c.Writing := by
  refine run.invariant_under (J := WriterHeld) (I := Writing) ?_ ?_
    (Process.writerHeld .nil (C := C)) nofun
  · exact fun _ _ _ held _ st => held.step st
  · exact fun _ _ _ held inv _ st => inv.step held st

/-- An object in use by one call is left alone by the others. -/
lemma Step.tokens_kept {t u s i p s' p' S T k} (st : Step t s i p s' p')
    (inv : s.registry.Sound S T) (eT : T t = p.tokenPc) (ne : t ≠ u) (own : s.inUse k = some u)
    (full : s.tokens k ≠ none) : s'.tokens k = s.tokens k := by
  -- what the stepping call uses is not `k`, which is in use by `u`
  have mine : ∀ {q j}, p = .token q → j ∈ q.objects → k ≠ j := by
    rintro q j rfl mem rfl
    have use := inv.in_use eT mem
    exact ne (Option.some.inj (use.symm.trans own))
  cases st with
  | start st =>
    cases st with
    | moveToken _ free idle =>
      refine (Function.update_of_ne ?_ ..).trans (Function.update_of_ne ?_ ..)
      · rintro rfl
        exact full free
      · rintro rfl
        cases idle.symm.trans own
    | _ => rfl
  | stream st =>
    cases st with
    | construct free =>
      refine Function.update_of_ne ?_ ..
      rintro rfl
      exact full free
    | _ => rfl
  | token st =>
    cases st with
    | @body j b =>
      exact Function.update_of_ne (mine rfl (Registry.Sound.mem_objects_of_releasing rfl)) ..
    | destroy => exact Function.update_of_ne (mine rfl List.mem_cons_self) ..
    | assign =>
      refine (Function.update_of_ne ?_ ..).trans (Function.update_of_ne ?_ ..)
      · exact mine rfl List.mem_cons_self
      · exact mine rfl (List.mem_cons_of_mem _ List.mem_cons_self)
    | _ => rfl
  | dispatch st => cases st <;> rfl
  | fulfill st => cases st <;> rfl

/-- An operation that found its token moved from: it has not looked yet, or goes on after `release`,
or is over. -/
def Process.Idles (c : Process) (u : Tid) (k : Object) : Prop :=
  (∃ b x, c.pc u = .token (.check k b) ∧ c.shared.tokens k = some x ∧ x.dispatcher = false) ∨
    (∃ b, c.pc u = .token (.finish k b)) ∨ c.pc u = .token .done

/-- An operation on a token that has been moved from goes on without releasing anything. -/
lemma Process.Idles.step {c c' : Process} {a u k} (idle : c.Idles u k) (inv : c.Registered)
    (st : c.step a = some c') : c'.Idles u k := by
  obtain ⟨st, pcs⟩ := c.step_inv st
  rcases eq_or_ne u a.1 with rfl | eq
  · unfold Idles
    obtain ⟨b, x, e, ex, mf⟩ | ⟨b, e⟩ | e := idle
    · rw [e] at st
      generalize a.2 = i, c'.shared = s', c'.pc a.1 = p' at st ⊢
      cases st with
      | token st =>
        cases st with
        | armed ex' arm =>
          cases ex.symm.trans ex'
          cases mf.symm.trans arm
        | movedFrom => exact .inr (.inl ⟨b, rfl⟩)
    · rw [e] at st
      generalize a.2 = i, c'.shared = s', c'.pc a.1 = p' at st ⊢
      cases st with
      | token st => cases st <;> exact .inr (.inr rfl)
    · rw [e] at st
      generalize a.2 = i, c'.shared = s', c'.pc a.1 = p' at st
      cases st with
      | token st => cases st
  · have same : c'.pc u = c.pc u := by rw [pcs, Function.update_of_ne eq]
    unfold Idles
    rw [same]
    obtain ⟨b, x, e, ex, mf⟩ | rest := idle
    · have own : c.shared.inUse k = some u := by
        refine inv.in_use (q := .check k b) ?_ ?_
        · simp only [e]
          rfl
        · cases b <;> exact List.mem_cons_self
      have kept := st.tokens_kept inv rfl (Ne.symm eq) own (by rw [ex]; nofun)
      exact .inl ⟨b, x, e, kept.trans ex, mf⟩
    · exact .inr rest

/-- What the registration of writers guarantees in a state. -/
structure StreamSafety (c : Process) : Prop where
  newest : ∀ {w}, c.shared.activeWriter = some w →
    ∃ t p, c.shared.hist.registrations.head? = some t ∧ c.shared.released t = false ∧
      c.pc t = .stream p ∧ p.writer = w
  stays : ∀ {t}, c.shared.hist.registrations.head? = some t → c.shared.released t = false →
    ∃ p, c.pc t = .stream p ∧ c.shared.activeWriter = some p.writer
  write_live : ∀ {t req w}, c.pc t = .dispatch (.write req w) →
    ∃ u p, c.pc u = .stream p ∧ p.writer = w ∧ p.running = true ∧ c.shared.live w = some u
  write_once : (c.shared.hist.writes.map Prod.fst).Nodup

/-- The step registers a writer, or releases the latest registration through a token that has not
been moved from. -/
def ChangesWriter (c : Process) (a : Tid × Choice) (c' : Process) : Prop :=
  (∃ w, c.pc a.1 = .stream (.register w) ∧ c'.shared.activeWriter = some w) ∨
    ∃ k b x, c.pc a.1 = .token (.body k b) ∧ c.shared.tokens k = some x ∧ x.dispatcher = true ∧
      c.shared.hist.registrations.head? = some x.stream ∧ c'.shared.activeWriter = none

/-- `active_writer_` is the writer of the call whose registration is the latest. -/
lemma Process.Registered.active_iff {c : Process} (inv : c.Registered) {w} :
    c.shared.activeWriter = some w ↔
      ∃ t p, c.shared.hist.registrations.head? = some t ∧ c.shared.released t = false ∧
        c.pc t = .stream p ∧ p.writer = w := by
  have follows : c.shared.activeWriter = _ := inv.follows
  rw [follows, Option.bind_eq_some_iff]
  constructor
  · intro h
    obtain ⟨t, late, e⟩ := h
    obtain ⟨head, rel⟩ := latest_eq_some.mp late
    obtain ⟨p, ep, ew⟩ := Option.map_eq_some_iff.mp e
    exact ⟨t, p, head, rel, Pc.streamPc_eq_some ep, ew⟩
  · intro h
    obtain ⟨t, p, head, rel, ep, ew⟩ := h
    refine ⟨t, latest_eq_some.mpr ⟨head, rel⟩, ?_⟩
    rw [ep]
    exact congrArg some ew

/-- With a sound registry the streams are safe. -/
lemma Process.Registered.safety {c : Process} (inv : c.Registered) (writing : c.Writing)
    (writes : c.Writes) : StreamSafety c where
  newest := inv.active_iff.mp
  stays {t} head rel := by
    obtain ⟨p, ep, -⟩ := inv.registered (List.mem_of_mem_head? head)
    have eq := Pc.streamPc_eq_some ep
    exact ⟨p, eq, inv.active_iff.mpr ⟨t, p, head, rel, eq, rfl⟩⟩
  write_live {t req w} e := by
    obtain ⟨u, p, head, rel, ep, ew⟩ := inv.active_iff.mp (writing e)
    obtain ⟨q, eq, run⟩ := inv.running_of_latest (latest_eq_some.mpr ⟨head, rel⟩)
    cases ep.symm.trans (Pc.streamPc_eq_some eq)
    refine ⟨u, p, ep, ew, run, ?_⟩
    exact inv.live_iff.mpr ⟨p, eq, ew, run⟩
  write_once := writes.once

/-- A step that changes `active_writer_` is a registration or the release of the latest one. -/
lemma Process.Registered.changes {c c' : Process} {a} (inv : c.Registered)
    (st : c.step a = some c') (ne : c'.shared.activeWriter ≠ c.shared.activeWriter) :
    ChangesWriter c a c' := by
  obtain ⟨st, -⟩ := c.step_inv st
  obtain same | ⟨w, e, ew⟩ | ⟨k, b, x, e, ex, ea⟩ := st.active_inv
  · exact absurd same ne
  · exact .inl ⟨w, e, ew⟩
  · have found : c.shared.activeWriter = some x.writer := by
      by_contra other
      rw [if_neg other] at ea
      exact ne ea
    rw [if_pos found] at ea
    obtain ⟨y, ey, arm⟩ := inv.releasing (u := a.1) (q := .body k b) (by simp only [e]; rfl) rfl
    cases ex.symm.trans ey
    obtain ⟨serving, -⟩ := inv.armed ey arm
    obtain ⟨t, p, head, rel, ep, ew⟩ := inv.active_iff.mp found
    obtain ⟨q, eq, run⟩ := inv.running_of_latest (latest_eq_some.mpr ⟨head, rel⟩)
    cases ep.symm.trans (Pc.streamPc_eq_some eq)
    have live := inv.live_iff.mpr ⟨p, eq, ew, run⟩
    have live' := inv.live_iff.mpr ⟨_, serving, rfl, rfl⟩
    cases live.symm.trans live'
    exact .inr ⟨k, b, x, e, ex, arm, head, ea⟩

/-- An operation on a token that has been moved from does not get to the body of `release`. -/
lemma Process.idles_of_movedFrom {C c c' bs u k b x} (inv : c.Registered)
    (run : Run step C c bs c') (e : c.pc u = .token (.check k b)) (ex : c.shared.tokens k = some x)
    (mf : x.dispatcher = false) : c'.Idles u k := by
  refine run.invariant_under (J := Registered) (I := fun c => c.Idles u k) ?_ ?_ inv
    (.inl ⟨b, x, e, ex, mf⟩)
  · exact fun _ _ _ inv _ st => inv.step st
  · exact fun _ _ _ inv idle _ st => idle.step inv st

/-- Registration is safe in every reachable state; `active_writer_` changes by registrations and by
the release of the latest one only; and an operation on a moved-from token releases nothing. -/
theorem streams_safe {as c} (run : Run Process.step Always Process.init as c) :
    StreamSafety c ∧
      (∀ a c', c.step a = some c' → c'.shared.activeWriter ≠ c.shared.activeWriter →
        ChangesWriter c a c') ∧
      ∀ u k b x, c.pc u = .token (.check k b) → c.shared.tokens k = some x → x.dispatcher = false →
        ∀ bs c', Run Process.step Always c bs c' → ∀ j b', c'.pc u ≠ .token (.body j b') := by
  have inv := Process.registered run
  refine ⟨inv.safety (Process.writing run) (Process.writes run), ?_, ?_⟩
  · exact fun a c' st ne => inv.changes st ne
  · intro u k b x e ex mf bs c' run' j b' e'
    obtain ⟨b1, x1, e1, -⟩ | ⟨b1, e1⟩ | e1 := Process.idles_of_movedFrom inv run' e ex mf
    · cases e'.symm.trans e1
    · cases e'.symm.trans e1
    · cases e'.symm.trans e1

/-- Call `u` destroys the token in the object `k`. -/
def destroyToken (u : Tid) (k : Object) : List (Tid × Choice) :=
  [(u, .call (.destroyToken k)), (u, .go), (u, .go), (u, .go), (u, .go), (u, .go)]

/-- The client reconnects before the old stream is gone, and the new token is moved. -/
def reconnect : List (Tid × Choice) :=
  openStream 1 7 0 ++ openStream 2 9 1 ++ destroyToken 3 0 ++
    [(1, .go), (4, .call (.moveToken 5 1)), (6, .call (.destroyToken 1))]

/-- After a reconnect the new writer is registered and the old handler has returned. -/
theorem reconnect_safe :
    ∃ c, Run Process.step Always Process.init reconnect c ∧
      c.shared.activeWriter = some 9 ∧ c.pc 1 = .stream (.returned 7) ∧
      c.pc 6 = .token (.check 1 .destroy) ∧ StreamSafety c := by
  refine ⟨_, Run.of_exec rfl, rfl, rfl, rfl, ?_⟩
  exact (@streams_safe reconnect _ (Run.of_exec rfl)).1

/-- The registration of the stream has not been released. -/
def Process.Open (c : Process) (t : Tid) : Prop :=
  t ∈ c.shared.hist.registrations ∧ c.shared.released t = false

/-- While a stream is open, `active_writer_` is the writer of an open stream. -/
def Heard (c : Process) : Prop :=
  (∃ t, c.Open t) → ∃ t p, c.Open t ∧ c.pc t = .stream p ∧ c.shared.activeWriter = some p.writer

/-- While the stream that registered last is open, its writer is the active one and no command is
rejected for want of a writer; once it is closed there is none until the next registration. -/
theorem newestStream_heard {as c} (run : Run Process.step Always Process.init as c) :
    (∀ t, c.shared.hist.registrations.head? = some t → c.shared.released t = false →
      ∃ p, c.pc t = .stream p ∧ c.shared.activeWriter = some p.writer ∧
        ∀ u i req c', c.pc u = .dispatch (.checkWriter req) → c.step (u, i) = some c' →
          c'.pc u = .dispatch (.write req p.writer)) ∧
      ∀ t, c.shared.hist.registrations.head? = some t → c.shared.released t = true →
        c.shared.activeWriter = none := by
  have inv := Process.registered run
  refine ⟨fun t head rel => ?_, fun t head rel => ?_⟩
  · obtain ⟨p, ep, -⟩ := inv.registered (List.mem_of_mem_head? head)
    have eq := Pc.streamPc_eq_some ep
    have act := inv.active_iff.mpr ⟨t, p, head, rel, eq, rfl⟩
    refine ⟨p, eq, act, fun u i req c' eu st => ?_⟩
    obtain ⟨st, -⟩ := c.step_inv st
    simp only [eu] at st
    generalize c'.shared = s', c'.pc u = p' at st
    cases st with
    | dispatch st =>
      cases st with
      | noWriter none => cases none.symm.trans act
      | beginWrite found =>
        cases found.symm.trans act
        rfl
  · by_contra ne
    obtain ⟨w, act⟩ := Option.ne_none_iff_exists'.mp ne
    obtain ⟨u, p, head', rel', -⟩ := inv.active_iff.mp act
    cases head.symm.trans head'
    cases rel.symm.trans rel'

/-- Stream 2 opens after stream 1 and closes before it; then a command arrives. -/
def closeNewest : List (Tid × Choice) :=
  openStream 1 7 0 ++ openStream 2 9 1 ++ destroyToken 3 1 ++
    [(2, .go), (0, .call (.dispatch closeRelay)), (0, .go), (0, .go), (0, .go), (0, .go), (0, .go),
      (0, .go), (0, .go), (0, .go), (0, .go)]

/-- Stream 1 is still open and the command is rejected with `NOT_SUPPORTED`. -/
theorem closeNewest_deaf :
    ∃ c, Run Process.step Always Process.init closeNewest c ∧
      c.pc 1 = .stream (.serving 7) ∧ c.Open 1 ∧ c.shared.activeWriter = none ∧
      c.pc 0 = .dispatch (.returned 1 (.failed .noWriter)) ∧ ¬ Heard c := by
  have registered : 1 ∈ [2, 1] := List.mem_cons_of_mem _ List.mem_cons_self
  refine ⟨_, Run.of_exec rfl, rfl, ⟨registered, rfl⟩, rfl, rfl, ?_⟩
  intro heard
  obtain ⟨t, p, -, -, act⟩ := heard ⟨1, registered, rfl⟩
  cases act

/-- After a reconnect the new stream is heard. -/
theorem reconnect_heard :
    ∃ c, Run Process.step Always Process.init reconnect c ∧
      ∃ p, c.pc 2 = .stream p ∧ c.shared.activeWriter = some p.writer := by
  have heard : ∀ c, Run Process.step Always Process.init reconnect c →
      c.shared.hist.registrations.head? = some 2 → c.shared.released 2 = false →
      ∃ p, c.pc 2 = .stream p ∧ c.shared.activeWriter = some p.writer := by
    intro c run head rel
    obtain ⟨p, e, act, -⟩ := (newestStream_heard run).1 2 head rel
    exact ⟨p, e, act⟩
  exact ⟨_, Run.of_exec rfl, heard _ (Run.of_exec rfl) rfl rfl⟩

end Dnp3Bridge.Dispatcher
