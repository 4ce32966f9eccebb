import Dnp3Bridge.Concurrency.Threads

/-!
# A map of promises

Threads meet over a map from keys to promises. An *asker* draws a key, publishes a fresh promise
under it (`opened`), and leaves either with the value it finds in its promise (`took`) or by erasing
its key (`withdrawn`). An *answerer* looks a key up and, on a hit, sets the value of the promise it
finds and erases the key in the same move.

`Move` lists what one thread may do, for arbitrary keys and values, and says nothing about how keys
are drawn: an asker may meet a key that is still published (`clashed`), and erasing a key destroys
whatever promise is stored under it. `Meeting` is what holds all the same: the published keys are
exactly those of the askers that are still waiting for a value, and a promise is set at most once.
Two further properties need a discipline. If an asker only ever erases its own promise (`Tidy`), no
asker leaves empty-handed once its promise has been set; if keys are never drawn twice
(`Move.Fresh`), every erasure is tidy until the promise is set.
-/

namespace Dnp3Bridge.Concurrency

/-- The shared state of a promise. -/
inductive Promise (υ : Type*) where
  | unset
  | value (v : υ)
  | broken
  deriving DecidableEq, Repr

/-- A map of promises: the promise stored under a key, which is named by the thread that created
it, and the shared state of every promise. -/
structure PromiseMap (τ κ υ : Type*) where
  pending : κ → Option τ
  promise : τ → Promise υ

/-- Where a thread stands in a meeting over a map of promises. -/
inductive Phase (τ κ υ : Type*) where
  | idle
  | named (k : κ)
  | clashed (k : κ)
  | opened (k : κ)
  | withdrawn (k : κ)
  | took (k : κ) (v : υ)
  | broke (k : κ)
  | asking (k : κ) (v : υ)
  | hit (k : κ) (v : υ) (u : τ)
  | missed (k : κ) (v : υ)
  | overset (k : κ) (v : υ)
  deriving DecidableEq, Repr

variable {τ κ υ : Type*}

/-- The key an asker has drawn. -/
def Phase.key : Phase τ κ υ → Option κ
  | .named k | .clashed k | .opened k | .withdrawn k | .took k _ | .broke k => some k
  | _ => none

/-- What becomes of the shared state when the promise object is destroyed. -/
def Promise.abandon : Promise υ → Promise υ
  | .unset => .broken
  | p => p

namespace PromiseMap

/-- The empty map. -/
def empty : PromiseMap τ κ υ := ⟨fun _ => none, fun _ => .unset⟩

/-- Sets the promise of thread `u`, which must be unset. -/
def setValue [DecidableEq τ] (m : PromiseMap τ κ υ) (u : τ) (v : υ) : Option (PromiseMap τ κ υ) :=
  match m.promise u with
  | .unset => some { m with promise := Function.update m.promise u (.value v) }
  | _ => none

/-- A promise that is set was unset before, and nothing else changes. -/
lemma setValue_inv [DecidableEq τ] {m m' : PromiseMap τ κ υ} {u v} (e : m.setValue u v = some m') :
    m.promise u = .unset ∧ m'.pending = m.pending ∧
      ∀ w, m'.promise w = if w = u then .value v else m.promise w := by
  unfold setValue at e
  split at e
  case h_1 h =>
    cases e
    exact ⟨h, rfl, fun w => Function.update_apply ..⟩
  case h_2 => cases e

/-- Setting a promise fails on a promise that is not unset. -/
lemma setValue_none [DecidableEq τ] {m : PromiseMap τ κ υ} {u v} (e : m.setValue u v = none) :
    m.promise u ≠ .unset := by
  intro h
  simp [setValue, h] at e

variable [DecidableEq τ] [DecidableEq κ] (m : PromiseMap τ κ υ)

/-- Stores a fresh promise of thread `t` under the key `k`. -/
def emplace (k : κ) (t : τ) : PromiseMap τ κ υ :=
  ⟨Function.update m.pending k (some t), Function.update m.promise t .unset⟩

/-- Destroys the promise stored under `k`, if there is one. -/
def erase (k : κ) : PromiseMap τ κ υ :=
  match m.pending k with
  | none => m
  | some u =>
    ⟨Function.update m.pending k none, Function.update m.promise u (m.promise u).abandon⟩

/-- `emplace` changes the entry of its key only. -/
lemma emplace_pending (k j : κ) (t : τ) :
    (m.emplace k t).pending j = if j = k then some t else m.pending j :=
  Function.update_apply ..

/-- `emplace` renews the promise of its thread only. -/
lemma emplace_promise (k : κ) (t u : τ) :
    (m.emplace k t).promise u = if u = t then .unset else m.promise u :=
  Function.update_apply ..

/-- `erase` removes the entry of its key only. -/
lemma erase_pending (k j : κ) :
    (m.erase k).pending j = if j = k then none else m.pending j := by
  unfold erase
  split
  case h_1 none =>
    split
    case isTrue eq => rw [eq, none]
    case isFalse => rfl
  case h_2 => exact Function.update_apply ..

/-- `erase` abandons the promise of its entry and no other. -/
lemma erase_promise (k : κ) (u : τ) :
    (m.erase k).promise u = if m.pending k = some u then (m.promise u).abandon else m.promise u := by
  unfold erase
  split
  case h_1 none =>
    rw [if_neg]
    rw [none]
    nofun
  case h_2 w found =>
    show Function.update m.promise w _ u = _
    rw [Function.update_apply]
    by_cases eq : u = w
    · rw [if_pos eq, if_pos (found.trans (congrArg some eq.symm)), eq]
    · rw [if_neg eq, if_neg]
      rw [found]
      exact fun h => eq (Option.some.inj h).symm

/-- Setting the promise under `k` and erasing `k` leaves the value in the promise. -/
lemma setValue_erase {m m' : PromiseMap τ κ υ} {k u v} (h : m.pending k = some u)
    (e : m.setValue u v = some m') :
    (∀ j, (m'.erase k).pending j = if j = k then none else m.pending j) ∧
      ∀ w, (m'.erase k).promise w = if w = u then .value v else m.promise w := by
  obtain ⟨_, ep, ev⟩ := setValue_inv e
  refine ⟨fun j => by rw [erase_pending, ep], fun w => ?_⟩
  rw [erase_promise, ep, ev, h]
  by_cases eq : w = u
  · simp [eq, Promise.abandon]
  · simp [eq, Ne.symm eq]

end PromiseMap

/-- The asker is gone: it took a value, gave up, or erased its key. -/
def Phase.left : Phase τ κ υ → Bool
  | .clashed _ | .withdrawn _ | .took _ _ | .broke _ => true
  | _ => false

section Moves
variable [DecidableEq τ] [DecidableEq κ]

/-- What one move of thread `t` does to the map and to its phase. -/
inductive Move (t : τ) :
    PromiseMap τ κ υ → Phase τ κ υ → PromiseMap τ κ υ → Phase τ κ υ → Prop where
  | name {m k} :
    Move t m .idle m (.named k)
  | ask {m k v} :
    Move t m .idle m (.asking k v)
  | emplace {m k} :
    m.pending k = none →
    Move t m (.named k) (m.emplace k t) (.opened k)
  | clash {m k u} :
    m.pending k = some u →
    Move t m (.named k) m (.clashed k)
  | withdraw {m k} :
    Move t m (.opened k) (m.erase k) (.withdrawn k)
  | take {m k v} :
    m.promise t = .value v →
    Move t m (.opened k) m (.took k v)
  | break {m k} :
    m.promise t = .broken →
    Move t m (.opened k) m (.broke k)
  | hit {m m' k v u} :
    m.pending k = some u →
    m.setValue u v = some m' →
    Move t m (.asking k v) (m'.erase k) (.hit k v u)
  | miss {m k v} :
    m.pending k = none →
    Move t m (.asking k v) m (.missed k v)
  | overset {m k v u} :
    m.pending k = some u →
    m.setValue u v = none →
    Move t m (.asking k v) m (.overset k v)

end Moves

/-- What holds in every meeting over a map of promises. -/
structure Meeting (m : PromiseMap τ κ υ) (ph : τ → Phase τ κ υ) : Prop where
  pending_iff : ∀ k t, m.pending k = some t ↔ ph t = .opened k ∧ m.promise t = .unset
  hit_value : ∀ {f k v u}, ph f = .hit k v u → m.promise u = .value v ∧ (ph u).key = some k
  value_hit : ∀ {u v}, m.promise u = .value v → ∃ f k, ph f = .hit k v u
  hit_unique : ∀ {f f' k k' v v' u}, ph f = .hit k v u → ph f' = .hit k' v' u → f = f'
  took_value : ∀ {t k v}, ph t = .took k v → m.promise t = .value v
  broke_broken : ∀ {t k}, ph t = .broke k → m.promise t = .broken
  unborn : ∀ {t}, (∀ k, ph t ≠ .opened k) → (∀ k, ph t ≠ .withdrawn k) → (∀ k v, ph t ≠ .took k v) →
    (∀ k, ph t ≠ .broke k) → m.promise t = .unset
  no_overset : ∀ {f k v}, ph f ≠ .overset k v

/-- A meeting starts with an empty map and idle threads. -/
lemma Meeting.init : Meeting (τ := τ) (κ := κ) (υ := υ) .empty (fun _ => .idle) := by
  constructor <;> simp [PromiseMap.empty]

section
variable [DecidableEq τ] {m m' : PromiseMap τ κ υ} {ph : τ → Phase τ κ υ} {t : τ} {p : Phase τ κ υ}

/-- A move that neither sets nor breaks a promise keeps the meeting, if the new phase of the thread
fits its promise. -/
lemma Meeting.advance (inv : Meeting m ph) (still : ∀ u, m'.promise u = m.promise u)
    (pending_iff : ∀ k u, m'.pending k = some u ↔
      Function.update ph t p u = .opened k ∧ m'.promise u = .unset)
    (not_hit : ∀ k v u, ph t ≠ .hit k v u) (not_hit' : ∀ k v u, p ≠ .hit k v u)
    (key : m.promise t = .unset ∨ p.key = (ph t).key)
    (took : ∀ k v, p = .took k v → m.promise t = .value v)
    (broke : ∀ k, p = .broke k → m.promise t = .broken)
    (unborn : (∀ k, p ≠ .opened k) → (∀ k, p ≠ .withdrawn k) → (∀ k v, p ≠ .took k v) →
      (∀ k, p ≠ .broke k) → m.promise t = .unset)
    (no_overset : ∀ k v, p ≠ .overset k v) : Meeting m' (Function.update ph t p) := by
  have other : ∀ {u}, u ≠ t → Function.update ph t p u = ph u :=
    fun ne => Function.update_of_ne ne ..
  have own : Function.update ph t p t = p := Function.update_self ..
  have hit : ∀ {f k v u}, Function.update ph t p f = .hit k v u → ph f = .hit k v u :=
    fun h => (update_inv h (not_hit' _ _ _)).2
  refine ⟨pending_iff, ?_, ?_, ?_, ?_, ?_, ?_, ?_⟩
  · intro f k v u h
    obtain ⟨val, hk⟩ := inv.hit_value (hit h)
    refine ⟨(still u).trans val, ?_⟩
    rcases eq_or_ne u t with rfl | eq
    · rw [own]
      obtain unset | same := key
      · cases unset.symm.trans val
      · exact same.trans hk
    · rwa [other eq]
  · intro u v h
    obtain ⟨f, k, h⟩ := inv.value_hit ((still u).symm.trans h)
    refine ⟨f, k, ?_⟩
    rwa [other]
    rintro rfl
    exact not_hit k v u h
  · intro f f' k k' v v' u h h'
    exact inv.hit_unique (hit h) (hit h')
  · intro u k v h
    rw [still]
    rcases eq_or_ne u t with rfl | eq
    · exact took k v (own.symm.trans h)
    · exact inv.took_value ((other eq).symm.trans h)
  · intro u k h
    rw [still]
    rcases eq_or_ne u t with rfl | eq
    · exact broke k (own.symm.trans h)
    · exact inv.broke_broken ((other eq).symm.trans h)
  · intro u h1 h2 h3 h4
    rw [still]
    rcases eq_or_ne u t with rfl | eq
    · rw [own] at h1 h2 h3 h4
      exact unborn h1 h2 h3 h4
    · rw [other eq] at h1 h2 h3 h4
      exact inv.unborn h1 h2 h3 h4
  · intro u k v h
    exact inv.no_overset (update_inv h (no_overset k v)).2

/-- A move that leaves the map alone keeps the meeting, unless the thread was waiting for a value. -/
lemma Meeting.advance_same (inv : Meeting m ph) (waits : ∀ k, ph t = .opened k → m.promise t ≠ .unset)
    (not_opened : ∀ k, p ≠ .opened k) (not_hit : ∀ k v u, ph t ≠ .hit k v u)
    (not_hit' : ∀ k v u, p ≠ .hit k v u) (key : m.promise t = .unset ∨ p.key = (ph t).key)
    (took : ∀ k v, p = .took k v → m.promise t = .value v)
    (broke : ∀ k, p = .broke k → m.promise t = .broken)
    (unborn : (∀ k, p ≠ .opened k) → (∀ k, p ≠ .withdrawn k) → (∀ k v, p ≠ .took k v) →
      (∀ k, p ≠ .broke k) → m.promise t = .unset)
    (no_overset : ∀ k v, p ≠ .overset k v) : Meeting m (Function.update ph t p) := by
  refine inv.advance (fun _ => rfl) ?_ not_hit not_hit' key took broke unborn no_overset
  intro k u
  rw [inv.pending_iff]
  rcases eq_or_ne u t with rfl | eq
  · rw [Function.update_self]
    exact ⟨fun h => absurd h.2 (waits k h.1), fun h => absurd h.1 (not_opened k)⟩
  · rw [Function.update_of_ne eq]

variable [DecidableEq κ]

/-- An answerer keeps the promise it has set: its phase is final. -/
lemma Move.not_hit (mv : Move t m (ph t) m' p) (k : κ) (v : υ) (u : τ) : ph t ≠ .hit k v u := by
  intro e
  rw [e] at mv
  cases mv

/-- Publishing a fresh promise keeps the meeting. -/
lemma Meeting.emplace {k} (inv : Meeting m ph) (e : ph t = .named k) (free : m.pending k = none) :
    Meeting (m.emplace k t) (Function.update ph t (.opened k)) := by
  have unset : m.promise t = .unset :=
    inv.unborn (by simp [e]) (by simp [e]) (by simp [e]) (by simp [e])
  have still : ∀ u, (m.emplace k t).promise u = m.promise u := by
    intro u
    rw [PromiseMap.emplace_promise]
    split
    case isTrue eq => rw [eq, unset]
    case isFalse => rfl
  refine inv.advance still ?_ (by simp [e]) nofun (.inr (by rw [e]; rfl)) nofun nofun
    (fun _ _ _ _ => unset) nofun
  intro j u
  rw [PromiseMap.emplace_pending, still]
  rcases eq_or_ne u t with rfl | eq
  · rw [Function.update_self]
    split
    case isTrue eq => simp [eq, unset]
    case isFalse ne =>
      refine ⟨fun h => ?_, fun h => absurd (Phase.opened.inj h.1).symm ne⟩
      rw [inv.pending_iff, e] at h
      cases h.1
  · rw [Function.update_of_ne eq, ← inv.pending_iff]
    split
    case isTrue eq' =>
      rw [eq', free]
      exact ⟨fun h => absurd (Option.some.inj h).symm eq, nofun⟩
    case isFalse => exact Iff.rfl

/-- After a key is erased, whoever waited under it has a broken promise. -/
lemma Meeting.withdraw_pending_iff {k} (inv : Meeting m ph) (e : ph t = .opened k) (j : κ) (u : τ) :
    (m.erase k).pending j = some u ↔
      Function.update ph t (.withdrawn k) u = .opened j ∧ (m.erase k).promise u = .unset := by
  rw [PromiseMap.erase_pending, PromiseMap.erase_promise]
  rcases eq_or_ne j k with rfl | eq
  · rw [if_pos rfl]
    refine ⟨nofun, fun h => ?_⟩
    obtain ⟨opn, unset⟩ := h
    obtain ⟨-, opn⟩ := update_inv opn nofun
    split at unset
    case isTrue pend =>
      rw [((inv.pending_iff j u).mp pend).2] at unset
      cases unset
    case isFalse pend => exact absurd ((inv.pending_iff j u).mpr ⟨opn, unset⟩) pend
  · rw [if_neg eq, inv.pending_iff]
    rcases eq_or_ne u t with rfl | eq'
    · rw [Function.update_self, e]
      exact ⟨fun h => absurd (Phase.opened.inj h.1).symm eq, fun h => nomatch h.1⟩
    · rw [Function.update_of_ne eq']
      refine and_congr_right fun opn => ?_
      -- a thread that waits under another key does not wait under this one
      rw [if_neg]
      intro pend
      exact eq (Phase.opened.inj (opn.symm.trans ((inv.pending_iff k u).mp pend).1))

/-- Erasing a key keeps the meeting: the promise under it, if there is one, is that of an asker that
waits, and breaks. -/
lemma Meeting.withdraw {k} (inv : Meeting m ph) (e : ph t = .opened k) :
    Meeting (m.erase k) (Function.update ph t (.withdrawn k)) := by
  have other : ∀ {u}, u ≠ t → Function.update ph t (.withdrawn k) u = ph u :=
    fun ne => Function.update_of_ne ne ..
  -- the promise of a thread that does not wait under `k` stays as it is
  have still : ∀ {u}, ¬ (ph u = .opened k ∧ m.promise u = .unset) →
      (m.erase k).promise u = m.promise u := by
    intro u h
    rw [PromiseMap.erase_promise, if_neg (mt (inv.pending_iff k u).mp h)]
  have hit : ∀ {f j v u}, Function.update ph t (.withdrawn k) f = .hit j v u → ph f = .hit j v u :=
    fun h => (update_inv h nofun).2
  refine ⟨inv.withdraw_pending_iff e, ?_, ?_, ?_, ?_, ?_, ?_, ?_⟩
  · intro f j v u h
    obtain ⟨val, key⟩ := inv.hit_value (hit h)
    refine ⟨?_, ?_⟩
    · rw [still, val]
      rw [val]
      nofun
    · rcases eq_or_ne u t with rfl | eq
      · rw [Function.update_self, ← key, e]
        rfl
      · rwa [other eq]
  · intro u v h
    rw [PromiseMap.erase_promise] at h
    -- a broken promise has no value
    have val : m.promise u = .value v := by
      split at h
      case isTrue =>
        cases hp : m.promise u <;> rw [hp] at h <;> cases h
        rfl
      case isFalse => exact h
    obtain ⟨f, j, h⟩ := inv.value_hit val
    refine ⟨f, j, ?_⟩
    rwa [other]
    rintro rfl
    cases e.symm.trans h
  · intro f f' j j' v v' u h h'
    exact inv.hit_unique (hit h) (hit h')
  · intro u j v h
    obtain ⟨-, h⟩ := update_inv h nofun
    rw [still, inv.took_value h]
    rw [h]
    nofun
  · intro u j h
    obtain ⟨-, h⟩ := update_inv h nofun
    rw [still, inv.broke_broken h]
    rw [h]
    nofun
  · intro u h1 h2 h3 h4
    have ne : u ≠ t := by
      rintro rfl
      exact h2 k (Function.update_self ..)
    rw [other ne] at h1 h2 h3 h4
    rw [still, inv.unborn h1 h2 h3 h4]
    exact fun h => h1 k h.1
  · intro f j v h
    exact inv.no_overset (update_inv h nofun).2

/-- After an answer the entry of its key is gone, and the asker under it waits no longer. -/
lemma Meeting.hit_pending_iff {k v u m1} (inv : Meeting m ph) (e : ph t = .asking k v)
    (found : m.pending k = some u) (set : m.setValue u v = some m1) (j : κ) (w : τ) :
    (m1.erase k).pending j = some w ↔
      Function.update ph t (.hit k v u) w = .opened j ∧ (m1.erase k).promise w = .unset := by
  obtain ⟨waits, -⟩ := (inv.pending_iff k u).mp found
  obtain ⟨pending, promise⟩ := PromiseMap.setValue_erase found set
  rw [pending, promise]
  rcases eq_or_ne w t with rfl | eq
  · rw [Function.update_self]
    refine ⟨fun h => ?_, fun h => nomatch h.1⟩
    split at h
    case isTrue => cases h
    case isFalse => cases e.symm.trans ((inv.pending_iff j w).mp h).1
  · rw [Function.update_of_ne eq]
    rcases eq_or_ne w u with rfl | eq'
    · rw [if_pos rfl, waits]
      refine ⟨fun h => ?_, fun h => nomatch h.2⟩
      split at h
      case isTrue => cases h
      case isFalse ne =>
        exact absurd (Phase.opened.inj (waits.symm.trans ((inv.pending_iff j w).mp h).1)).symm ne
    · rw [if_neg eq', ← inv.pending_iff]
      split
      case isTrue eq =>
        subst eq
        rw [found]
        exact ⟨nofun, fun h => absurd (Option.some.inj h).symm eq'⟩
      case isFalse => exact Iff.rfl

/-- An answer keeps the meeting: it goes to an asker that waits, and it is the first one. -/
lemma Meeting.hit {k v u m1} (inv : Meeting m ph) (e : ph t = .asking k v)
    (found : m.pending k = some u) (set : m.setValue u v = some m1) :
    Meeting (m1.erase k) (Function.update ph t (.hit k v u)) := by
  obtain ⟨waits, unset⟩ := (inv.pending_iff k u).mp found
  obtain ⟨-, promise⟩ := PromiseMap.setValue_erase found set
  have other : ∀ {w}, w ≠ t → Function.update ph t (.hit k v u) w = ph w :=
    fun ne => Function.update_of_ne ne ..
  have asker : u ≠ t := by
    rintro rfl
    cases e.symm.trans waits
  have still : ∀ {w}, w ≠ u → (m1.erase k).promise w = m.promise w := by
    intro w ne
    rw [promise, if_neg ne]
  have answered : (m1.erase k).promise u = .value v := by rw [promise, if_pos rfl]
  -- the only promise that changes was unset, so nobody has hit it before
  have first : ∀ {f j w}, ph f ≠ .hit j w u := by
    intro f j w h
    cases unset.symm.trans (inv.hit_value h).1
  -- an answer that is given now or before: an earlier one went to another asker
  have hits : ∀ {f j v' w}, Function.update ph t (.hit k v u) f = .hit j v' w →
      (f = t ∧ j = k ∧ v' = v ∧ w = u) ∨ (ph f = .hit j v' w ∧ w ≠ u) := by
    intro f j v' w h
    rcases eq_or_ne f t with rfl | eq
    · rw [Function.update_self] at h
      cases h
      exact .inl ⟨rfl, rfl, rfl, rfl⟩
    · rw [other eq] at h
      refine .inr ⟨h, ?_⟩
      rintro rfl
      exact first h
  refine ⟨inv.hit_pending_iff e found set, ?_, ?_, ?_, ?_, ?_, ?_, ?_⟩
  · intro f j v' w h
    obtain ⟨-, rfl, rfl, rfl⟩ | ⟨h, ne⟩ := hits h
    · rw [other asker, waits]
      exact ⟨answered, rfl⟩
    · obtain ⟨val, key⟩ := inv.hit_value h
      have ne' : w ≠ t := by
        rintro rfl
        rw [e] at key
        cases key
      rw [still ne, other ne']
      exact ⟨val, key⟩
  -- the new value comes from this answer
  · intro w v' h
    rcases eq_or_ne w u with rfl | eq
    · cases answered.symm.trans h
      exact ⟨t, k, Function.update_self ..⟩
    · obtain ⟨f, j, hf⟩ := inv.value_hit ((still eq).symm.trans h)
      refine ⟨f, j, ?_⟩
      rwa [other]
      rintro rfl
      cases e.symm.trans hf
  · intro f f' j j' v1 v2 w h h'
    obtain ⟨now, -, -, eq⟩ | ⟨h, ne⟩ := hits h
    · obtain ⟨now', -⟩ | ⟨-, ne⟩ := hits h'
      · exact now.trans now'.symm
      · exact absurd eq ne
    · obtain ⟨-, -, -, eq⟩ | ⟨h', -⟩ := hits h'
      · exact absurd eq ne
      · exact inv.hit_unique h h'
  · intro w j v' h
    obtain ⟨-, h⟩ := update_inv h nofun
    have val := inv.took_value h
    rw [still, val]
    rintro rfl
    cases unset.symm.trans val
  · intro w j h
    obtain ⟨-, h⟩ := update_inv h nofun
    have broken := inv.broke_broken h
    rw [still, broken]
    rintro rfl
    cases unset.symm.trans broken
  · intro w h1 h2 h3 h4
    rcases eq_or_ne w t with rfl | eq
    · rw [still asker.symm]
      exact inv.unborn (by simp [e]) (by simp [e]) (by simp [e]) (by simp [e])
    · rw [other eq] at h1 h2 h3 h4
      have ne : w ≠ u := by
        rintro rfl
        exact h1 k waits
      rw [still ne]
      exact inv.unborn h1 h2 h3 h4
  · intro f j v' h
    exact inv.no_overset (update_inv h nofun).2

/-- Every move keeps the meeting. -/
theorem Meeting.move (inv : Meeting m ph) (mv : Move t m (ph t) m' p) :
    Meeting m' (Function.update ph t p) := by
  have not_hit := mv.not_hit
  generalize e : ph t = q at mv
  have unset : (∀ k, q ≠ .opened k) → (∀ k, q ≠ .withdrawn k) → (∀ k v, q ≠ .took k v) →
      (∀ k, q ≠ .broke k) → m.promise t = .unset := by
    intro h1 h2 h3 h4
    exact inv.unborn (e ▸ h1) (e ▸ h2) (e ▸ h3) (e ▸ h4)
  cases mv with
  | name =>
    have unset := unset nofun nofun nofun nofun
    exact inv.advance_same (by simp [e]) nofun not_hit nofun (.inl unset) nofun nofun
      (fun _ _ _ _ => unset) nofun
  | ask =>
    have unset := unset nofun nofun nofun nofun
    exact inv.advance_same (by simp [e]) nofun not_hit nofun (.inl unset) nofun nofun
      (fun _ _ _ _ => unset) nofun
  | emplace free => exact inv.emplace e free
  | clash =>
    have unset := unset nofun nofun nofun nofun
    exact inv.advance_same (by simp [e]) nofun not_hit nofun (.inl unset) nofun nofun
      (fun _ _ _ _ => unset) nofun
  | withdraw => exact inv.withdraw e
  | @take k v val =>
    refine inv.advance_same ?_ nofun not_hit nofun (.inr (by rw [e]; rfl)) ?_ nofun ?_ nofun
    · rw [val]
      exact fun _ _ => nofun
    · intro k' v' h
      cases h
      exact val
    · exact fun _ _ h _ => absurd rfl (h k v)
  | @«break» k broken =>
    refine inv.advance_same ?_ nofun not_hit nofun (.inr (by rw [e]; rfl)) nofun ?_ ?_ nofun
    · rw [broken]
      exact fun _ _ => nofun
    · exact fun _ _ => broken
    · exact fun _ _ _ h => absurd rfl (h k)
  | hit found set => exact inv.hit e found set
  | miss =>
    have unset := unset nofun nofun nofun nofun
    exact inv.advance_same (by simp [e]) nofun not_hit nofun (.inl unset) nofun nofun
      (fun _ _ _ _ => unset) nofun
  | overset found fails =>
    exact absurd ((inv.pending_iff _ _).mp found).2 (PromiseMap.setValue_none fails)

end

/-- Every asker that left without an answer broke its own promise. -/
def LeftBroken (m : PromiseMap τ κ υ) (ph : τ → Phase τ κ υ) : Prop :=
  ∀ t k, ph t = .withdrawn k → m.promise t = .broken

/-- A move is tidy if it erases a key only while the promise under it is the thread's own. -/
def Tidy (t : τ) (m : PromiseMap τ κ υ) (q p : Phase τ κ υ) : Prop :=
  ∀ k, q = .opened k → p = .withdrawn k → m.pending k = some t

section
variable [DecidableEq τ] [DecidableEq κ] {m m' : PromiseMap τ κ υ} {ph : τ → Phase τ κ υ} {t : τ}
  {p : Phase τ κ υ}

/-- A broken promise stays broken, and a promise breaks only when its key is erased. -/
lemma Move.broken_iff {u} (mv : Move t m (ph t) m' p) (inv : Meeting m ph) (ne : u ≠ t) :
    m'.promise u = .broken ↔ m.promise u = .broken ∨
      ∃ k, ph t = .opened k ∧ p = .withdrawn k ∧ m.pending k = some u := by
  generalize e : ph t = q at mv
  cases mv with
  | emplace =>
    rw [PromiseMap.emplace_promise, if_neg ne]
    exact ⟨.inl, fun h => h.resolve_right nofun⟩
  | @withdraw k =>
    rw [PromiseMap.erase_promise]
    split
    case isTrue pend =>
      rw [((inv.pending_iff k u).mp pend).2]
      exact ⟨fun _ => .inr ⟨k, rfl, rfl, pend⟩, fun _ => rfl⟩
    case isFalse pend =>
      refine ⟨.inl, fun h => h.resolve_right ?_⟩
      rintro ⟨j, eq, -, pend'⟩
      cases eq
      exact pend pend'
  | @hit m1 k v w found set =>
    obtain ⟨unset, -, -⟩ := PromiseMap.setValue_inv set
    obtain ⟨-, promise⟩ := PromiseMap.setValue_erase found set
    rw [promise]
    split
    case isTrue eq =>
      rw [eq, unset]
      exact ⟨nofun, fun h => h.elim nofun nofun⟩
    case isFalse => exact ⟨.inl, fun h => h.resolve_right nofun⟩
  | _ => exact ⟨.inl, fun h => h.resolve_right nofun⟩

/-- A promise that is set or broken stays so as long as its thread does not open another. -/
lemma Move.settled {q u} (mv : Move t m q m' p) (ne : u ≠ t) (set : m.promise u ≠ .unset) :
    m'.promise u ≠ .unset := by
  cases mv with
  | emplace =>
    rw [PromiseMap.emplace_promise, if_neg ne]
    exact set
  | withdraw =>
    rw [PromiseMap.erase_promise]
    split
    case isTrue =>
      cases old : m.promise u with
      | unset => exact absurd old set
      | value | broken => nofun
    case isFalse => exact set
  | hit found e =>
    rw [(PromiseMap.setValue_erase found e).2]
    split
    case isTrue => nofun
    case isFalse => exact set
  | _ => exact set

/-- Tidy moves break the promise of every asker that withdraws. -/
lemma LeftBroken.move (left : LeftBroken m ph) (inv : Meeting m ph) (mv : Move t m (ph t) m' p)
    (tidy : Tidy t m (ph t) p) : LeftBroken m' (Function.update ph t p) := by
  intro u j h
  rcases eq_or_ne u t with rfl | eq
  · rw [Function.update_self] at h
    generalize ph u = q at mv tidy
    cases mv with
    | withdraw =>
      have own := tidy _ rfl rfl
      rw [PromiseMap.erase_promise, if_pos own, ((inv.pending_iff _ _).mp own).2]
      rfl
    | _ => cases h
  · rw [Function.update_of_ne eq] at h
    exact (mv.broken_iff inv eq).mpr (.inl (left u j h))

end

/-- If every asker that left without an answer broke its promise, then a promise that was set
belongs to an asker that takes its value. -/
theorem Meeting.agree {m : PromiseMap τ κ υ} {ph : τ → Phase τ κ υ} {f k v u}
    (inv : Meeting m ph) (left : LeftBroken m ph) (h : ph f = .hit k v u) :
    ph u = .opened k ∨ ph u = .took k v := by
  obtain ⟨val, key⟩ := inv.hit_value h
  cases e : ph u with
  | opened j =>
    rw [e] at key
    cases key
    exact .inl rfl
  | took j w =>
    rw [e] at key
    cases key
    cases (inv.took_value e).symm.trans val
    exact .inr rfl
  | withdrawn j => cases (left u j e).symm.trans val
  | broke j => cases (inv.broke_broken e).symm.trans val
  | _ =>
    have := inv.unborn (t := u) (by simp [e]) (by simp [e]) (by simp [e]) (by simp [e])
    cases this.symm.trans val

/-- No two askers have drawn the same key. -/
def DistinctKeys (ph : τ → Phase τ κ υ) : Prop :=
  ∀ t u k, (ph t).key = some k → (ph u).key = some k → t = u

/-- A move that draws a key draws one that no asker has. -/
def FreshKey (ph : τ → Phase τ κ υ) (q p : Phase τ κ υ) : Prop :=
  ∀ k, q = .idle → p = .named k → ∀ u, (ph u).key ≠ some k

/-- A key is drawn in the first move of an asker. -/
lemma Move.key_inv [DecidableEq τ] [DecidableEq κ] {m m' : PromiseMap τ κ υ} {t q p k}
    (mv : Move t m q m' p) (key : p.key = some k) : q.key = some k ∨ (q = .idle ∧ p = .named k) := by
  cases mv with
  | name =>
    cases key
    exact .inr ⟨rfl, rfl⟩
  | emplace => exact .inl key
  | clash => exact .inl key
  | withdraw => exact .inl key
  | take => exact .inl key
  | «break» => exact .inl key
  | _ => cases key

/-- Fresh keys stay distinct. -/
lemma DistinctKeys.move [DecidableEq τ] [DecidableEq κ] {m m' : PromiseMap τ κ υ}
    {ph : τ → Phase τ κ υ} {t p} (dist : DistinctKeys ph) (mv : Move t m (ph t) m' p)
    (fresh : FreshKey ph (ph t) p) : DistinctKeys (Function.update ph t p) := by
  -- the thread that moves shares its key with no other
  have own : ∀ {u k}, u ≠ t → p.key = some k → (ph u).key ≠ some k := by
    intro u k ne key key'
    obtain old | ⟨idle, named⟩ := mv.key_inv key
    · exact ne (dist u t k key' old)
    · exact fresh k idle named u key'
  intro u w k hu hw
  by_cases equ : u = t <;> by_cases eqw : w = t
  · exact equ.trans eqw.symm
  · subst equ
    rw [Function.update_self] at hu
    rw [Function.update_of_ne eqw] at hw
    exact absurd hw (own eqw hu)
  · subst eqw
    rw [Function.update_self] at hw
    rw [Function.update_of_ne equ] at hu
    exact absurd hu (own equ hw)
  · rw [Function.update_of_ne equ] at hu
    rw [Function.update_of_ne eqw] at hw
    exact dist u w k hu hw

/-- With distinct keys, a published key is published by the only asker that has it. -/
lemma Meeting.pending_owner {m : PromiseMap τ κ υ} {ph : τ → Phase τ κ υ} {k t u}
    (inv : Meeting m ph) (dist : DistinctKeys ph) (key : (ph t).key = some k)
    (pend : m.pending k = some u) : u = t := by
  have opn := ((inv.pending_iff k u).mp pend).1
  exact dist u t k (by rw [opn]; rfl) key

/-- With distinct keys, at most one answerer ever hits a key. -/
theorem Meeting.hit_once {m : PromiseMap τ κ υ} {ph : τ → Phase τ κ υ} {f f' k v v' u u'}
    (inv : Meeting m ph) (dist : DistinctKeys ph) (h : ph f = .hit k v u)
    (h' : ph f' = .hit k v' u') : f = f' := by
  have e := dist u u' k (inv.hit_value h).2 (inv.hit_value h').2
  subst e
  exact inv.hit_unique h h'

/-- With distinct keys, no promise breaks under an asker that is still waiting. -/
def NoneBroke (m : PromiseMap τ κ υ) (ph : τ → Phase τ κ υ) : Prop :=
  ∀ t k, ph t = .opened k ∨ ph t = .broke k → m.promise t ≠ .broken

/-- Moves over distinct keys never break the promise of an asker that is still waiting. -/
lemma NoneBroke.move [DecidableEq τ] [DecidableEq κ] {m m' : PromiseMap τ κ υ}
    {ph : τ → Phase τ κ υ} {t p} (none : NoneBroke m ph) (inv : Meeting m ph) (dist : DistinctKeys ph)
    (mv : Move t m (ph t) m' p) : NoneBroke m' (Function.update ph t p) := by
  intro u j h broken
  rcases eq_or_ne u t with rfl | eq
  · rw [Function.update_self] at h
    generalize e : ph u = q at mv
    cases mv with
    | emplace =>
      rw [PromiseMap.emplace_promise, if_pos rfl] at broken
      cases broken
    | «break» old => exact none u _ (.inl e) old
    | _ => exact h.elim nofun nofun
  · rw [Function.update_of_ne eq] at h
    obtain old | ⟨k, opn, -, pend⟩ := (mv.broken_iff inv eq).mp broken
    · exact none u j h old
    · exact eq (inv.pending_owner dist (by rw [opn]; rfl) pend)

/-- With distinct keys, no asker finds its key taken. -/
lemma Move.not_clashed [DecidableEq τ] [DecidableEq κ] {m m' : PromiseMap τ κ υ}
    {ph : τ → Phase τ κ υ} {t p k} (mv : Move t m (ph t) m' p) (inv : Meeting m ph)
    (dist : DistinctKeys ph) : p ≠ .clashed k := by
  intro e
  subst e
  generalize e : ph t = q at mv
  cases mv with
  | clash taken =>
    have eq := inv.pending_owner dist (by rw [e]; rfl) taken
    subst eq
    cases e.symm.trans ((inv.pending_iff _ _).mp taken).1

/-- An asker that has left keeps its key and stays away. -/
lemma Move.left_stays [DecidableEq τ] [DecidableEq κ] {m m' : PromiseMap τ κ υ}
    {ph : τ → Phase τ κ υ} {t p u} (mv : Move t m (ph t) m' p) (left : (ph u).left = true) :
    Function.update ph t p u = ph u := by
  rcases eq_or_ne u t with rfl | eq
  · generalize e : ph u = q at mv left
    cases mv <;> cases left
  · exact Function.update_of_ne eq ..

/-- With distinct keys, an answerer misses the key of an asker that has left. -/
lemma Move.misses_left [DecidableEq τ] [DecidableEq κ] {m m' : PromiseMap τ κ υ}
    {ph : τ → Phase τ κ υ} {t p u k v w} (mv : Move t m (ph t) m' p) (inv : Meeting m ph)
    (dist : DistinctKeys ph) (left : (ph u).left = true) (key : (ph u).key = some k) :
    p ≠ .hit k v w := by
  rintro rfl
  generalize e : ph t = q at mv
  cases mv with
  | hit h h' =>
    have eq := inv.pending_owner dist key h
    subst eq
    rw [((inv.pending_iff _ _).mp h).1] at left
    cases left

end Dnp3Bridge.Concurrency
