import Dnp3Bridge.Concurrency.Ranking
import Dnp3Bridge.Dispatcher.Deadlock
import Dnp3Bridge.Dispatcher.PendingTable

/-!
# Every call of the dispatcher returns

Every step of a call lowers the rank of its program counter, and a new call brings its own steps with
it. So the calls come to an end under every schedule, and since they do not deadlock, they come to an
end by returning. Nothing of them is left in `pending_`, and no mutex is held.
-/

namespace Dnp3Bridge.Dispatcher
open Concurrency Proto

/-- The steps that a dispatch call may still make. -/
def DispatchPc.rank : DispatchPc → ℕ
  | .lockPending _ => 11
  | .insert _ => 10
  | .unlockPending _ => 9
  | .lockWriter _ => 8
  | .checkWriter _ => 7
  | .write _ _ => 6
  | .unlockWriter _ => 5
  | .waitFor _ | .failLock _ _ => 4
  | .timeoutLock _ | .failErase _ _ => 3
  | .timeoutErase _ | .failUnlockPending _ _ => 2
  | .timeoutUnlock _ | .failUnlockWriter _ _ | .insertThrows _ | .get _ => 1
  | .returned _ _ => 0

/-- The steps that a fulfill call may still make. -/
def FulfillPc.rank : FulfillPc → ℕ
  | .lock _ _ => 3
  | .body _ _ => 2
  | .unlock _ _ _ | .unwind _ _ => 1
  | .returned _ _ _ | .threw _ _ => 0

/-- The steps that a `StreamCommands` call may still make. -/
def StreamPc.rank : StreamPc → ℕ
  | .lock _ => 5
  | .register _ => 4
  | .unlock _ => 3
  | .construct _ => 2
  | .serving _ => 1
  | .returned _ => 0

/-- The steps that an operation on a token may still make. -/
def TokenPc.rank : TokenPc → ℕ
  | .check _ _ => 5
  | .lock _ _ => 4
  | .body _ _ => 3
  | .unlock _ _ => 2
  | .finish _ _ => 1
  | .done => 0

/-- The steps that a thread may still make in its call. -/
def Pc.rank : Pc → ℕ
  | .idle => 0
  | .dispatch p => p.rank
  | .fulfill p => p.rank
  | .stream p => p.rank
  | .token q => q.rank

/-- The steps that a call may make in all. -/
def Call.credit : Call → ℕ
  | .dispatch _ => 12
  | .fulfill _ _ => 4
  | .streamCommands _ | .assignToken _ _ | .destroyToken _ => 6
  | .moveToken _ _ => 1

def Choice.credit : Choice → ℕ
  | .call k => k.credit
  | _ => 0

/-- The step begins no call. -/
def Own : Process → Tid × Choice → Prop :=
  fun _ a => ∀ k, a.2 ≠ .call k

section Pays
variable {t : Tid} {s s' : Shared}

/-- Every step of a dispatch call lowers its rank. -/
lemma DispatchStep.rank_lt {p p'} (st : DispatchStep t s p s' p') : p'.rank < p.rank := by
  cases st <;> simp only [DispatchPc.rank] <;> omega

/-- Every step of a fulfill call lowers its rank. -/
lemma FulfillStep.rank_lt {p p'} (st : FulfillStep t s p s' p') : p'.rank < p.rank := by
  cases st <;> simp only [FulfillPc.rank] <;> omega

/-- Every step of a `StreamCommands` call lowers its rank. -/
lemma StreamStep.rank_lt {p p'} (st : StreamStep t s p s' p') : p'.rank < p.rank := by
  cases st <;> simp only [StreamPc.rank] <;> omega

/-- Every step of an operation on a token lowers its rank. -/
lemma TokenStep.rank_lt {q q'} (st : TokenStep t s q s' q') : q'.rank < q.rank := by
  cases st <;> simp only [TokenPc.rank] <;> omega

/-- A call brings its rank with it, and one more for its start. -/
lemma StartStep.rank_lt {k p'} (st : StartStep t s k s' p') : p'.rank < k.credit := by
  cases st <;> exact Nat.lt_add_one_of_le (Nat.le_of_ble_eq_true rfl)

/-- Every step of a thread is paid for. -/
lemma Step.pays {i p p'} (st : Step t s i p s' p') : p'.rank + 1 ≤ p.rank + i.credit := by
  cases st with
  | start st => exact (Nat.succ_le_of_lt st.rank_lt).trans (Nat.le_add_left ..)
  | dispatch st => exact (Nat.succ_le_of_lt st.rank_lt).trans (Nat.le_add_right ..)
  | fulfill st => exact (Nat.succ_le_of_lt st.rank_lt).trans (Nat.le_add_right ..)
  | stream st => exact (Nat.succ_le_of_lt st.rank_lt).trans (Nat.le_add_right ..)
  | token st => exact (Nat.succ_le_of_lt st.rank_lt).trans (Nat.le_add_right ..)

end Pays

/-- A run makes no more steps than its calls bring with them. -/
theorem Process.length_le {C as c} (run : Run step C init as c) :
    as.length ≤ credits (fun a => a.2.credit) as :=
  Conf.length_le (fun _ _ _ _ _ _ mv => (next_inv mv).pays) run fun _ => rfl

/-- A thread that is in a call takes the offer of another one for `go`. -/
lemma next_call {k t s p} (busy : p ≠ .idle) : next (.call k) t s p = next .go t s p := by
  cases p with
  | idle => exact absurd rfl busy
  | dispatch p =>
    cases p with
    | waitFor id =>
      simp only [next, dispatch]
      cases s.promises.promise t <;> rfl
    | _ => rfl
  | fulfill | token => rfl
  | stream p => cases p <;> rfl

/-- Every call has returned, but for the streams whose token is still there; nobody holds a mutex, and
`pending_` is empty. -/
structure Process.AtRest (c : Process) : Prop where
  finished : ∀ t, (c.pc t).running = false
  unreleased : ∀ t w, c.pc t = .stream (.serving w) → c.shared.released t = false
  unlocked : ∀ m, c.shared.owner m = none
  forgotten : ∀ id, c.shared.promises.pending id = none

/-- A call whose entry is in `pending_` is running. -/
lemma DispatchPc.running_of_opened {p : DispatchPc} {id} (e : p.phase = .opened id) :
    (Pc.dispatch p).running = true := by
  cases p with
  | returned id x => cases x <;> cases e
  | _ => rfl

/-- A process without a step of its own is at rest. -/
lemma Process.atRest_of_stuck {C as c} (run : Run step C init as c)
    (stuck : Stuck Process.step Own c) : c.AtRest := by
  have go : ∀ t, Own c (t, .go) := by
    intro t k e
    cases e
  have idle : ∀ t, (c.pc t).running = true → ¬ c.Enabled t := by
    intro t running enabled
    obtain ⟨i, moves⟩ := enabled
    by_cases offer : ∃ k, i = .call k
    · obtain ⟨k, rfl⟩ := offer
      have busy : c.pc t ≠ .idle := by
        intro e
        rw [e] at running
        cases running
      rw [step, Conf.step, next_call busy] at moves
      cases moves.symm.trans (congrArg Option.isSome (stuck (t, .go) (go t)))
    · have own : Own c (t, i) := fun k e => offer ⟨k, e⟩
      rw [stuck (t, i) own] at moves
      cases moves
  have finished : ∀ t, (c.pc t).running = false := by
    intro t
    by_contra running
    have deeper : WellFounded fun m m' : Mutex => m.depth < m'.depth := InvImage.wf _ Nat.lt_wfRel.wf
    obtain ⟨u, running, enabled⟩ := exists_enabled_of_lockOrder deeper
      (fun u left => Process.enabled_or_blocked run left)
      (fun u m m' has wait => (Pc.of_holds has).2.2 m' wait) (Bool.eq_true_of_not_eq_false running)
    exact idle u running enabled
  refine ⟨finished, fun t w e => ?_, fun m => ?_, fun id => ?_⟩
  · by_contra released
    have none := Option.map_eq_none_iff.mp (stuck (t, .go) (go t))
    rw [e, next, streamCommands, if_pos (Bool.eq_true_of_not_eq_false released)] at none
    cases none
  · by_contra held
    obtain ⟨t, owner⟩ := Option.ne_none_iff_exists'.mp held
    have inside := (Process.owner_iff run m t).mpr owner
    cases (finished t).symm.trans (Pc.of_holds inside).1
  · by_contra found
    obtain ⟨t, pend⟩ := Option.ne_none_iff_exists'.mp found
    have opn := (((Process.meets run).pending_iff id t).mp pend).1
    obtain ⟨p, e, opn⟩ := Pc.dispatch_of_opened opn
    have running := finished t
    rw [e, DispatchPc.running_of_opened opn] at running
    cases running

/-- The calls made so far pay for all steps to come. -/
lemma Process.own_length_le {C as c bs c'} (run : Run step C init as c) (run' : Run step Own c bs c') :
    as.length + bs.length ≤ credits (fun a => a.2.credit) as := by
  have both := (run.mono fun _ _ _ => trivial).append
    (run'.mono (D := Always) fun _ _ _ => trivial)
  have le := Process.length_le both
  have own : ∀ a ∈ bs, ∀ k, a.2 ≠ .call k := run'.forall_mem fun _ _ own => own
  have none : ∀ a ∈ bs, a.2.credit = 0 := by
    intro a mem
    have own := own a mem
    generalize a.2 = i at own
    cases i with
    | call k => exact absurd rfl (own k)
    | _ => rfl
  rw [List.length_append, credits_append, credits_eq_zero none] at le
  exact le

/-- Whatever the schedule, the calls made so far come to an end after so many steps as they bring with
them, and not before they have returned, all but the streams whose token is still there. -/
theorem calls_return {C as c} (run : Run Process.step C Process.init as c) :
    (∀ bs c', Run Process.step Own c bs c' →
      as.length + bs.length ≤ credits (fun a => a.2.credit) as ∧
        (Stuck Process.step Own c' → c'.AtRest)) ∧
      ∃ bs c', Run Process.step Own c bs c' ∧ c'.AtRest := by
  have rest : ∀ bs c', Run Process.step Own c bs c' → Stuck Process.step Own c' → c'.AtRest := by
    intro bs c' run' stuck
    have both := (run.mono fun _ _ _ => trivial).append
      (run'.mono (D := Always) fun _ _ _ => trivial)
    exact Process.atRest_of_stuck both stuck
  have bounded : ∀ bs c', Run Process.step Own c bs c' →
      as.length + bs.length ≤ credits (fun a => a.2.credit) as :=
    fun bs c' run' => Process.own_length_le run run'
  refine ⟨fun bs c' run' => ⟨bounded bs c' run', rest bs c' run'⟩, ?_⟩
  exact Run.reaches (fun bs c' run' => Nat.le_trans (Nat.le_add_left ..) (bounded bs c' run')) rest

/-- The three calls that cross inside the mutexes all return. -/
theorem crossing_returns :
    ∃ c, Run Process.step Always Process.init crossing c ∧ ¬ c.AtRest ∧
      ∃ bs c', Run Process.step Own c bs c' ∧ c'.AtRest := by
  have busy : ∀ c, exec Process.step Process.init crossing = some c → ¬ c.AtRest := by
    intro c e rest
    cases e
    cases rest.finished 0
  exact ⟨_, Run.of_exec rfl, busy _ rfl, (@calls_return Always crossing _ (Run.of_exec rfl)).2⟩

end Dnp3Bridge.Dispatcher
