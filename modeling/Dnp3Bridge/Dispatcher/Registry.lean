import Dnp3Bridge.Concurrency.Latest
import Dnp3Bridge.Dispatcher.Step

/-!
# The registered writer and its tokens

The part of the dispatcher that `StreamCommands` and the tokens work on (`Registry`), with the program
counters of these calls. `Registry.Sound` is its invariant: the address of a writer belongs to one
running `StreamCommands` call; a token that is not moved from belongs to a call that is still serving
and whose registration has not been released, and no two such tokens belong to the same call; an
object is used by one operation at a time. Then `active_writer_` follows the latest registration
although `release` compares addresses.

Every step is put together from a few changes (`begin`, `advance`, …, `disarm`), each of which keeps
the invariant.
-/

namespace Dnp3Bridge.Dispatcher
open Concurrency Proto

/-- The writer of a `StreamCommands` call. -/
def StreamPc.writer : StreamPc → Writer
  | .lock w | .register w | .unlock w | .construct w | .serving w | .returned w => w

/-- The call has registered its writer. -/
def StreamPc.registered : StreamPc → Bool
  | .lock _ | .register _ => false
  | _ => true

/-- The token of the call has been built. -/
def StreamPc.tokened : StreamPc → Bool
  | .serving _ | .returned _ => true
  | _ => false

/-- The call has not returned. -/
def StreamPc.running : StreamPc → Bool
  | .returned _ => false
  | _ => true

/-- The objects that an operation on a token uses. -/
def TokenPc.objects : TokenPc → List Object
  | .check k .destroy | .lock k .destroy | .body k .destroy | .unlock k .destroy
  | .finish k .destroy => [k]
  | .check k (.assign src) | .lock k (.assign src) | .body k (.assign src) | .unlock k (.assign src)
  | .finish k (.assign src) => [k, src]
  | .done => []

/-- The object whose registration is about to be released. -/
def TokenPc.releasing : TokenPc → Option Object
  | .lock k _ | .body k _ => some k
  | _ => none

def Pc.streamPc : Pc → Option StreamPc
  | .stream p => some p
  | _ => none

def Pc.tokenPc : Pc → Option TokenPc
  | .token q => some q
  | _ => none

/-- The registered writer, the tokens and the running streams. -/
structure Registry where
  activeWriter : Option Writer
  tokens : Object → Option StreamToken
  inUse : Object → Option Tid
  live : Writer → Option Tid
  registrations : List Tid
  released : Tid → Bool

def Shared.registry (s : Shared) : Registry :=
  ⟨s.activeWriter, s.tokens, s.inUse, s.live, s.hist.registrations, s.released⟩

/-- The invariant of the registry, where `S` and `T` are the program counters of the `StreamCommands`
calls and of the operations on tokens. -/
structure Registry.Sound (r : Registry) (S : Tid → Option StreamPc) (T : Tid → Option TokenPc) :
    Prop where
  live_iff : ∀ {w t}, r.live w = some t ↔ ∃ p, S t = some p ∧ p.writer = w ∧ p.running = true
  registered : ∀ {t}, t ∈ r.registrations → ∃ p, S t = some p ∧ p.registered = true
  released : ∀ {t}, r.released t = true → ∃ p, S t = some p ∧ p.tokened = true
  returned : ∀ {t w}, S t = some (.returned w) → r.released t = true
  armed : ∀ {k x}, r.tokens k = some x → x.dispatcher = true →
    S x.stream = some (.serving x.writer) ∧ r.released x.stream = false
  armed_unique : ∀ {k j x y}, r.tokens k = some x → r.tokens j = some y → x.dispatcher = true →
    y.dispatcher = true → x.stream = y.stream → k = j
  in_use : ∀ {u q k}, T u = some q → k ∈ q.objects → r.inUse k = some u
  releasing : ∀ {u q k}, T u = some q → q.releasing = some k →
    ∃ x, r.tokens k = some x ∧ x.dispatcher = true
  follows : Follows r.activeWriter (fun t => (S t).map StreamPc.writer) r.registrations r.released

namespace Registry.Sound
variable {r : Registry} {S : Tid → Option StreamPc} {T : Tid → Option TokenPc}
variable {t : Tid} {w : Writer} {k src : Object} {p p' : StreamPc} {q' : TokenPc} {x : StreamToken}

/-- The object that an operation is about to release is one that it uses. -/
lemma mem_objects_of_releasing {q : TokenPc} (h : q.releasing = some k) : k ∈ q.objects := by
  cases q with
  | lock j a => cases h; cases a <;> exact List.mem_cons_self
  | body j a => cases h; cases a <;> exact List.mem_cons_self
  | _ => cases h

/-- An object whose owner is not about to release its token is not released by any other. -/
lemma calm_of_owner (inv : r.Sound S T) {q : TokenPc} (own : r.inUse k = some t)
    (et : T t = some q) (calm : q.releasing = none) {u q'} (e : T u = some q') :
    q'.releasing ≠ some k := by
  intro rel
  have eq := own.symm.trans (inv.in_use e (mem_objects_of_releasing rel))
  cases eq
  cases et.symm.trans e
  cases calm.symm.trans rel

/-- An object whose owner has finished is not used by any other. -/
lemma unused_of_owner (inv : r.Sound S T) (own : r.inUse k = some t) (et : T t = some .done) {u q}
    (e : T u = some q) : k ∉ q.objects := by
  intro mem
  have eq := own.symm.trans (inv.in_use e mem)
  cases eq
  cases et.symm.trans e
  cases mem

/-- The latest registration whose token has not been released belongs to a call that is running. -/
lemma running_of_latest (inv : r.Sound S T) (h : latest r.registrations r.released = some t) :
    ∃ p, S t = some p ∧ p.running = true := by
  obtain ⟨head, rel⟩ := latest_eq_some.mp h
  obtain ⟨p, e, -⟩ := inv.registered (List.mem_of_mem_head? head)
  refine ⟨p, e, ?_⟩
  cases p with
  | returned w => cases (inv.returned e).symm.trans rel
  | _ => rfl

/-- What is known of a call is still known of it when a call goes on that does not lose it. -/
lemma exists_update {Q : StreamPc → Prop} {u} (stays : ∀ p, S t = some p → Q p → Q p')
    (h : ∃ p, S u = some p ∧ Q p) : ∃ p, Function.update S t (some p') u = some p ∧ Q p := by
  obtain ⟨p, e, q⟩ := h
  rcases eq_or_ne u t with rfl | eu
  · exact ⟨p', Function.update_self .., stays p e q⟩
  · exact ⟨p, (Function.update_of_ne eu ..).trans e, q⟩

/-- A new `StreamCommands` call begins. -/
lemma begin (inv : r.Sound S T) (new : S t = none) (free : r.live w = none) :
    Sound { r with live := Function.update r.live w (some t) }
      (Function.update S t (some (.lock w))) T := by
  have other : ∀ {u p}, S u = some p → u ≠ t := by
    rintro u p e rfl
    cases new.symm.trans e
  have keep : ∀ {u p}, S u = some p → Function.update S t (some (.lock w)) u = some p := by
    intro u p e
    rw [Function.update_of_ne (other e), e]
  refine { inv with
    live_iff := ?_
    registered := ?_
    released := ?_
    returned := ?_
    armed := ?_
    follows := ?_ }
  · intro v u
    rcases eq_or_ne v w with rfl | ev
    · simp only [Function.update_self]
      constructor
      · intro e
        cases e
        exact ⟨_, Function.update_self .., rfl, rfl⟩
      · rintro ⟨p, e, ew, run⟩
        by_cases eu : u = t
        · rw [eu]
        · rw [Function.update_of_ne eu] at e
          cases free.symm.trans (inv.live_iff.mpr ⟨p, e, ew, run⟩)
    · simp only [Function.update_of_ne ev]
      rw [inv.live_iff]
      rcases eq_or_ne u t with rfl | eu
      · constructor
        · rintro ⟨p, e, -⟩
          cases new.symm.trans e
        · rintro ⟨p, e, ew, -⟩
          rw [Function.update_self] at e
          cases e
          exact absurd ew.symm ev
      · rw [Function.update_of_ne eu]
  · exact fun mem => exists_update (fun p e _ => absurd rfl (other e)) (inv.registered mem)
  · exact fun rel => exists_update (fun p e _ => absurd rfl (other e)) (inv.released rel)
  · intro u v e
    exact inv.returned (update_inv e nofun).2
  · intro j y e arm
    exact ⟨keep (inv.armed e arm).1, (inv.armed e arm).2⟩
  · refine inv.follows.congr fun u h => ?_
    obtain ⟨p, e, -⟩ := inv.running_of_latest h
    rw [keep e, e]

/-- A call that has no token yet goes on. -/
lemma advance (inv : r.Sound S T) (e : S t = some p) (ew : p'.writer = p.writer)
    (tok : p.tokened = false) (reg : p.registered = true → p'.registered = true)
    (run : p'.running = true) : r.Sound (Function.update S t (some p')) T := by
  have pre : p.running = true := by
    cases p with
    | returned => cases tok
    | _ => rfl
  refine { inv with
    live_iff := ?_
    registered := ?_
    released := ?_
    returned := ?_
    armed := ?_
    follows := ?_ }
  · intro v u
    rw [inv.live_iff]
    rcases eq_or_ne u t with rfl | eu
    · rw [Function.update_self]
      constructor
      · intro h
        obtain ⟨p0, e0, ev, -⟩ := h
        cases e.symm.trans e0
        exact ⟨p', rfl, ew.trans ev, run⟩
      · intro h
        obtain ⟨p0, e0, ev, -⟩ := h
        cases e0
        exact ⟨p, e, ew.symm.trans ev, pre⟩
    · rw [Function.update_of_ne eu]
  · intro u mem
    refine exists_update (fun p0 e0 reg0 => ?_) (inv.registered mem)
    cases e.symm.trans e0
    exact reg reg0
  · intro u rel
    refine exists_update (fun p0 e0 tok0 => ?_) (inv.released rel)
    cases e.symm.trans e0
    cases tok.symm.trans tok0
  · intro u v e0
    refine inv.returned (update_inv e0 fun eq => ?_).2
    cases eq
    cases run
  · intro j y ej arm
    obtain ⟨es, rel⟩ := inv.armed ej arm
    have ne : y.stream ≠ t := by
      intro eq
      rw [eq, e] at es
      cases es
      cases tok
    exact ⟨(Function.update_of_ne ne ..).trans es, rel⟩
  · refine inv.follows.congr fun u _ => ?_
    rcases eq_or_ne u t with rfl | eu
    · rw [Function.update_self, e]
      exact congrArg some ew
    · rw [Function.update_of_ne eu]

/-- A call registers its writer. -/
lemma register (inv : r.Sound S T) (e : S t = some p) (reg : p.registered = true)
    (rel : r.released t = false) :
    Sound { r with activeWriter := some p.writer, registrations := t :: r.registrations } S T := by
  refine { inv with registered := ?_, follows := ?_ }
  · intro u mem
    rcases List.mem_cons.mp mem with rfl | mem
    · exact ⟨p, e, reg⟩
    · exact inv.registered mem
  · refine Follows.open ?_ rel
    rw [e]
    rfl

/-- The token of a call is built. -/
lemma arm (inv : r.Sound S T) (e : S t = some (.serving w)) (rel : r.released t = false)
    (free : r.tokens k = none)
    (first : ∀ {j y}, r.tokens j = some y → y.dispatcher = true → y.stream ≠ t) :
    Sound { r with tokens := Function.update r.tokens k (some ⟨true, w, t⟩) } S T := by
  refine { inv with armed := ?_, armed_unique := ?_, releasing := ?_ }
  · intro j y ej arm
    rcases eq_or_ne j k with rfl | eq
    · simp only [Function.update_self] at ej
      cases ej
      exact ⟨e, rel⟩
    · simp only [Function.update_of_ne eq] at ej
      exact inv.armed ej arm
  · intro j l y z ej el arm arm' same
    by_cases eq : j = k
    · by_cases eq' : l = k
      · rw [eq, eq']
      · subst eq
        simp only [Function.update_self, Function.update_of_ne eq'] at ej el
        cases ej
        exact absurd same.symm (first el arm')
    · rcases eq_or_ne l k with rfl | eq'
      · simp only [Function.update_self, Function.update_of_ne eq] at ej el
        cases el
        exact absurd same (first ej arm)
      · simp only [Function.update_of_ne eq, Function.update_of_ne eq'] at ej el
        exact inv.armed_unique ej el arm arm' same
  · intro u q j eu rj
    obtain ⟨y, ej, arm⟩ := inv.releasing eu rj
    refine ⟨y, ?_, arm⟩
    have ne : j ≠ k := by
      rintro rfl
      cases free.symm.trans ej
    exact (Function.update_of_ne ne ..).trans ej

/-- A call whose registration has been released returns. -/
lemma leave (inv : r.Sound S T) (e : S t = some (.serving w)) (rel : r.released t = true) :
    Sound { r with live := Function.update r.live w none }
      (Function.update S t (some (.returned w))) T := by
  have own : r.live w = some t := inv.live_iff.mpr ⟨_, e, rfl, rfl⟩
  refine { inv with
    live_iff := ?_
    registered := ?_
    released := ?_
    returned := ?_
    armed := ?_
    follows := ?_ }
  · intro v u
    rcases eq_or_ne u t with rfl | eu
    · simp only [Function.update_self]
      constructor
      · intro ev
        rcases eq_or_ne v w with rfl | eq
        · rw [Function.update_self] at ev
          cases ev
        · rw [Function.update_of_ne eq] at ev
          obtain ⟨p, ep, ew, -⟩ := inv.live_iff.mp ev
          cases e.symm.trans ep
          exact absurd ew.symm eq
      · intro h
        obtain ⟨p, ep, -, run⟩ := h
        cases ep
        cases run
    · rw [Function.update_of_ne eu, ← inv.live_iff]
      rcases eq_or_ne v w with rfl | eq
      · simp only [Function.update_self, own]
        constructor
        · nofun
        · intro eq
          cases eq
          exact absurd rfl eu
      · simp only [Function.update_of_ne eq]
  · exact fun mem => exists_update (fun _ _ _ => rfl) (inv.registered mem)
  · exact fun rel' => exists_update (fun _ _ _ => rfl) (inv.released rel')
  · intro u v e0
    rcases eq_or_ne u t with rfl | eu
    · exact rel
    · rw [Function.update_of_ne eu] at e0
      exact inv.returned e0
  · intro j y ej arm
    obtain ⟨es, rel'⟩ := inv.armed ej arm
    have ne : y.stream ≠ t := by
      intro eq
      rw [eq] at rel'
      cases rel.symm.trans rel'
    exact ⟨(Function.update_of_ne ne ..).trans es, rel'⟩
  · refine inv.follows.congr fun u _ => ?_
    rcases eq_or_ne u t with rfl | eu
    · rw [Function.update_self, e]
      rfl
    · rw [Function.update_of_ne eu]

/-- An operation on tokens goes on. -/
lemma turn (inv : r.Sound S T) (use : ∀ k ∈ q'.objects, r.inUse k = some t)
    (rel : ∀ k, q'.releasing = some k → ∃ x, r.tokens k = some x ∧ x.dispatcher = true) :
    r.Sound S (Function.update T t (some q')) := by
  refine { inv with in_use := ?_, releasing := ?_ }
  · intro u q j e mem
    rcases eq_or_ne u t with rfl | eu
    · rw [Function.update_self] at e
      cases e
      exact use j mem
    · rw [Function.update_of_ne eu] at e
      exact inv.in_use e mem
  · intro u q j e rj
    rcases eq_or_ne u t with rfl | eu
    · rw [Function.update_self] at e
      cases e
      exact rel j rj
    · rw [Function.update_of_ne eu] at e
      exact inv.releasing e rj

/-- An operation takes an object that none uses. -/
lemma claim (inv : r.Sound S T) (free : r.inUse k = none) :
    Sound { r with inUse := Function.update r.inUse k (some t) } S T := by
  refine { inv with in_use := ?_ }
  intro u q j e mem
  have own := inv.in_use e mem
  have ne : j ≠ k := by
    rintro rfl
    cases free.symm.trans own
  exact (Function.update_of_ne ne ..).trans own

/-- An object that no operation uses is given back. -/
lemma drop (inv : r.Sound S T) (unused : ∀ {u q}, T u = some q → k ∉ q.objects) :
    Sound { r with inUse := Function.update r.inUse k none } S T := by
  refine { inv with in_use := ?_ }
  intro u q j e mem
  have ne : j ≠ k := by
    rintro rfl
    exact unused e mem
  exact (Function.update_of_ne ne ..).trans (inv.in_use e mem)

/-- A token that is not about to release is destroyed. -/
lemma erase (inv : r.Sound S T) (calm : ∀ {u q}, T u = some q → q.releasing ≠ some k) :
    Sound { r with tokens := Function.update r.tokens k none } S T := by
  have old : ∀ {j y}, Function.update r.tokens k none j = some y → r.tokens j = some y := by
    intro j y e
    rcases eq_or_ne j k with rfl | eq
    · rw [Function.update_self] at e
      cases e
    · rwa [Function.update_of_ne eq] at e
  refine { inv with armed := ?_, armed_unique := ?_, releasing := ?_ }
  · exact fun e arm => inv.armed (old e) arm
  · exact fun ej el arm arm' same => inv.armed_unique (old ej) (old el) arm arm' same
  · intro u q j e rj
    obtain ⟨y, ej, arm⟩ := inv.releasing e rj
    have ne : j ≠ k := by
      rintro rfl
      exact calm e rj
    exact ⟨y, (Function.update_of_ne ne ..).trans ej, arm⟩

/-- A token is moved between objects that are not about to release. -/
lemma move {dst : Object} (inv : r.Sound S T) (e : r.tokens src = some x)
    (calm : ∀ {u q}, T u = some q → q.releasing ≠ some dst ∧ q.releasing ≠ some src) :
    Sound { r with
      tokens := Function.update (Function.update r.tokens src (some x.disarm)) dst (some x) } S T := by
  -- an armed token was armed before, at `src` if it is now at `dst`
  have old : ∀ {j y}, Function.update (Function.update r.tokens src (some x.disarm)) dst (some x) j =
      some y → y.dispatcher = true → r.tokens (if j = dst then src else j) = some y ∧
        (j = dst ∨ j ≠ src) := by
    intro j y ej arm
    rcases eq_or_ne j dst with rfl | eq
    · rw [Function.update_self] at ej
      rw [if_pos rfl, e]
      exact ⟨ej, .inl rfl⟩
    · rw [Function.update_of_ne eq] at ej
      rcases eq_or_ne j src with rfl | eq'
      · rw [Function.update_self] at ej
        cases ej
        cases arm
      · rw [Function.update_of_ne eq'] at ej
        rw [if_neg eq]
        exact ⟨ej, .inr eq'⟩
  refine { inv with armed := ?_, armed_unique := ?_, releasing := ?_ }
  · exact fun ej arm => inv.armed (old ej arm).1 arm
  · intro j l y z ej el arm arm' same
    obtain ⟨oj, hj⟩ := old ej arm
    obtain ⟨ol, hl⟩ := old el arm'
    have eq := inv.armed_unique oj ol arm arm' same
    by_cases ed : j = dst
    · by_cases ed' : l = dst
      · rw [ed, ed']
      · rw [if_pos ed, if_neg ed'] at eq
        exact absurd eq.symm (hl.resolve_left ed')
    · by_cases ed' : l = dst
      · rw [if_neg ed, if_pos ed'] at eq
        exact absurd eq (hj.resolve_left ed)
      · rwa [if_neg ed, if_neg ed'] at eq
  · intro u q j eu rj
    obtain ⟨y, ej, arm⟩ := inv.releasing eu rj
    have nd : j ≠ dst := by
      rintro rfl
      exact (calm eu).1 rj
    have ns : j ≠ src := by
      rintro rfl
      exact (calm eu).2 rj
    exact ⟨y, (Function.update_of_ne nd ..).trans ((Function.update_of_ne ns ..).trans ej), arm⟩

/-- A token releases its registration. -/
lemma disarm (inv : r.Sound S T) (e : r.tokens k = some x) (arm : x.dispatcher = true)
    (calm : ∀ {u q}, T u = some q → q.releasing ≠ some k) :
    Sound { r with
      activeWriter := if r.activeWriter = some x.writer then none else r.activeWriter
      tokens := Function.update r.tokens k (some x.disarm)
      released := Function.update r.released x.stream true } S T := by
  obtain ⟨serving, -⟩ := inv.armed e arm
  have old : ∀ {j y}, Function.update r.tokens k (some x.disarm) j = some y → y.dispatcher = true →
      j ≠ k ∧ r.tokens j = some y := by
    intro j y ej arm'
    rcases eq_or_ne j k with rfl | eq
    · rw [Function.update_self] at ej
      cases ej
      cases arm'
    · rw [Function.update_of_ne eq] at ej
      exact ⟨eq, ej⟩
  refine { inv with
    released := ?_
    returned := ?_
    armed := ?_
    armed_unique := ?_
    releasing := ?_
    follows := ?_ }
  · intro u rel
    rcases eq_or_ne u x.stream with rfl | eq
    · exact ⟨_, serving, rfl⟩
    · simp only [Function.update_of_ne eq] at rel
      exact inv.released rel
  · intro u v eu
    rcases eq_or_ne u x.stream with rfl | eq
    · exact Function.update_self ..
    · exact (Function.update_of_ne eq ..).trans (inv.returned eu)
  · intro j y ej arm'
    obtain ⟨ne, oj⟩ := old ej arm'
    obtain ⟨es, rel⟩ := inv.armed oj arm'
    refine ⟨es, (Function.update_of_ne ?_ ..).trans rel⟩
    intro same
    exact ne (inv.armed_unique oj e arm' arm same)
  · intro j l y z ej el arm1 arm2 same
    exact inv.armed_unique (old ej arm1).2 (old el arm2).2 arm1 arm2 same
  · intro u q j eu rj
    obtain ⟨y, ej, arm'⟩ := inv.releasing eu rj
    have ne : j ≠ k := by
      rintro rfl
      exact calm eu rj
    exact ⟨y, (Function.update_of_ne ne ..).trans ej, arm'⟩
  · -- two running calls do not have writers at one address
    refine inv.follows.close ?_ fun u h eu => ?_
    · simp only [serving]
      rfl
    · obtain ⟨p, ep, run⟩ := inv.running_of_latest h
      simp only [ep, Option.map_some, Option.some.injEq] at eu
      have live := inv.live_iff.mpr ⟨p, ep, eu, run⟩
      have live' := inv.live_iff.mpr ⟨_, serving, rfl, rfl⟩
      exact Option.some.inj (live.symm.trans live')

end Registry.Sound

end Dnp3Bridge.Dispatcher
