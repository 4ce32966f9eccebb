import Mathlib.Data.List.Nodup
import Dnp3Bridge.Dispatcher.Meeting

/-!
# What has been written to the stream

The messages on the stream are those of the dispatch calls that have got as far as `Write`, one for
each, under the command id of the call.
-/

namespace Dnp3Bridge.Dispatcher
open Concurrency Proto

/-- The early return happens after the call of `Write`. -/
def Failure.wrote : Failure → Bool
  | .noWriter => false
  | .writeFailed | .timedOut => true

/-- The dispatch call has called `Write`. -/
def DispatchPc.wrote : DispatchPc → Bool
  | .lockPending _ | .insert _ | .insertThrows _ | .unlockPending _ | .lockWriter _
  | .checkWriter _ | .returned _ .futureAlreadyRetrieved => false
  | .failLock _ e | .failErase _ e | .failUnlockPending _ e | .failUnlockWriter _ e
  | .returned _ (.failed e) => e.wrote
  | _ => true

/-- The written messages and the dispatch calls that wrote them. -/
structure Process.Writes (c : Process) : Prop where
  writer : ∀ {t w req}, (t, w, req) ∈ c.shared.hist.writes →
    ∃ p, c.pc t = .dispatch p ∧ p.commandId = req.commandId ∧ p.wrote = true
  once : (c.shared.hist.writes.map Prod.fst).Nodup
  written : ∀ {t p}, c.pc t = .dispatch p → p.wrote = true →
    ∃ w req, (t, w, req) ∈ c.shared.hist.writes ∧ req.commandId = p.commandId

/-- A step of a dispatch call keeps its command id. -/
lemma DispatchStep.commandId_eq {t s p s' p'} (st : DispatchStep t s p s' p') :
    p'.commandId = p.commandId := by
  cases st <;> rfl

/-- A dispatch call writes when it finds a writer, and at no other step. -/
lemma DispatchStep.write_inv {t s p s' p'} (st : DispatchStep t s p s' p') :
    (s'.hist.writes = s.hist.writes ∧ p'.wrote = p.wrote) ∨
      ∃ w req, s.activeWriter = some w ∧ p = .checkWriter req ∧ p' = .write req w ∧
        s'.hist.writes = s.hist.writes ++ [(t, w, req)] := by
  cases st with
  | @beginWrite req w found => exact .inr ⟨w, req, found, rfl, rfl, rfl⟩
  | _ => exact .inl ⟨rfl, rfl⟩

/-- The thread is in a dispatch call. -/
def Pc.isDispatch : Pc → Bool
  | .dispatch _ => true
  | _ => false

/-- What a step does to the messages written and to the program counter of its thread. -/
inductive WriteStep (t : Tid) (s : Shared) : Pc → Shared → Pc → Prop where
  | start {req s'} :
    s'.hist.writes = s.hist.writes →
    WriteStep t s .idle s' (.dispatch (.lockPending req))
  | keep {p s' p'} :
    s'.hist.writes = s.hist.writes →
    p'.commandId = p.commandId →
    p'.wrote = p.wrote →
    WriteStep t s (.dispatch p) s' (.dispatch p')
  | write {w req s'} :
    s.activeWriter = some w →
    s'.hist.writes = s.hist.writes ++ [(t, w, req)] →
    WriteStep t s (.dispatch (.checkWriter req)) s' (.dispatch (.write req w))
  | other {p s' p'} :
    s'.hist.writes = s.hist.writes →
    p.isDispatch = false →
    p'.isDispatch = false →
    WriteStep t s p s' p'

/-- Every step begins a `Write`, or leaves the messages alone. -/
lemma Step.write_inv {t s i p s' p'} (st : Step t s i p s' p') : WriteStep t s p s' p' := by
  cases st with
  | start st =>
    cases st with
    | dispatch => exact .start rfl
    | _ => exact .other rfl rfl rfl
  | dispatch st =>
    have id := st.commandId_eq
    obtain ⟨writes, wrote⟩ | ⟨w, req, found, rfl, rfl, writes⟩ := st.write_inv
    · exact .keep writes id wrote
    · exact .write found writes
  | fulfill st => cases st <;> exact .other rfl rfl rfl
  | stream st => cases st <;> exact .other rfl rfl rfl
  | token st => cases st <;> exact .other rfl rfl rfl

section
variable {c c' : Process} {t : Tid}

/-- A step that writes nothing keeps the messages in line with the calls that wrote them, if its
thread has written before it exactly if it has written after it. -/
lemma Process.Writes.keep (inv : c.Writes) (other : ∀ {u}, u ≠ t → c'.pc u = c.pc u)
    (writes : c'.shared.hist.writes = c.shared.hist.writes)
    (fwd : ∀ q, c.pc t = .dispatch q → q.wrote = true →
      ∃ q', c'.pc t = .dispatch q' ∧ q'.commandId = q.commandId ∧ q'.wrote = true)
    (bwd : ∀ q', c'.pc t = .dispatch q' → q'.wrote = true →
      ∃ q, c.pc t = .dispatch q ∧ q.commandId = q'.commandId ∧ q.wrote = true) : c'.Writes := by
  refine ⟨fun {u w req} mem => ?_, writes ▸ inv.once, fun {u q} eq wrote => ?_⟩
  · rw [writes] at mem
    obtain ⟨q, eq, id, wrote⟩ := inv.writer mem
    rcases eq_or_ne u t with rfl | eu
    · obtain ⟨q', eq', id', wrote'⟩ := fwd q eq wrote
      exact ⟨q', eq', id'.trans id, wrote'⟩
    · exact ⟨q, (other eu).trans eq, id, wrote⟩
  · rw [writes]
    rcases eq_or_ne u t with rfl | eu
    · obtain ⟨q0, eq0, id, wrote0⟩ := bwd q eq wrote
      rw [← id]
      exact inv.written eq0 wrote0
    · exact inv.written ((other eu).symm.trans eq) wrote

/-- A thread that has not written yet writes its message. -/
lemma Process.Writes.write {w req} (inv : c.Writes) (other : ∀ {u}, u ≠ t → c'.pc u = c.pc u)
    (pc : c.pc t = .dispatch (.checkWriter req)) (pc' : c'.pc t = .dispatch (.write req w))
    (writes : c'.shared.hist.writes = c.shared.hist.writes ++ [(t, w, req)]) : c'.Writes := by
  -- the messages so far are those of other threads
  have new : ∀ {u w' req'}, (u, w', req') ∈ c.shared.hist.writes → u ≠ t := by
    rintro u w' req' mem rfl
    obtain ⟨q, eq, -, wrote⟩ := inv.writer mem
    cases pc.symm.trans eq
    cases wrote
  refine ⟨fun {u w' req'} mem => ?_, ?_, fun {u q} eq wrote => ?_⟩
  · rw [writes] at mem
    rcases List.mem_append.mp mem with mem | mem
    · obtain ⟨q, eq, id, wrote⟩ := inv.writer mem
      exact ⟨q, (other (new mem)).trans eq, id, wrote⟩
    · cases List.mem_singleton.mp mem
      exact ⟨_, pc', rfl, rfl⟩
  · rw [writes, List.map_append]
    refine List.Nodup.append inv.once (List.nodup_singleton _) ?_
    intro u mem mem'
    obtain ⟨x, memx, rfl⟩ := List.mem_map.mp mem
    exact new memx (List.mem_singleton.mp mem')
  · rw [writes]
    rcases eq_or_ne u t with rfl | eu
    · cases pc'.symm.trans eq
      exact ⟨w, req, List.mem_append_right _ (List.mem_singleton.mpr rfl), rfl⟩
    · obtain ⟨w', req', mem, id⟩ := inv.written ((other eu).symm.trans eq) wrote
      exact ⟨w', req', List.mem_append_left _ mem, id⟩

end

/-- A step keeps the messages in line with the calls that wrote them. -/
lemma Process.Writes.step {c c' : Process} {a} (inv : c.Writes) (st : c.step a = some c') :
    c'.Writes := by
  obtain ⟨t, i⟩ := a
  obtain ⟨st, pcs⟩ := c.step_inv st
  have ws := st.write_inv
  have other : ∀ {u}, u ≠ t → c'.pc u = c.pc u := by
    intro u ne
    rw [pcs, Function.update_of_ne ne]
  simp only at ws
  generalize ep : c.pc t = p at ws
  generalize ep' : c'.pc t = p' at ws
  cases ws with
  | start writes =>
    refine inv.keep other writes ?_ ?_
    · intro q e
      cases ep.symm.trans e
    · intro q e wrote
      cases ep'.symm.trans e
      cases wrote
  | keep writes id wrote =>
    refine inv.keep other writes ?_ ?_
    · intro q e h
      cases ep.symm.trans e
      exact ⟨_, ep', id, wrote.trans h⟩
    · intro q e h
      cases ep'.symm.trans e
      exact ⟨_, ep, id.symm, wrote.symm.trans h⟩
  | write _ writes => exact inv.write other ep ep' writes
  | other writes h h' =>
    -- the thread is not in a dispatch call
    refine inv.keep other writes ?_ ?_
    · intro q e
      cases ep.symm.trans e
      cases h
    · intro q e
      cases ep'.symm.trans e
      cases h'

/-- In every reachable state the messages written are those of the calls that have called `Write`. -/
theorem Process.writes {C as c} (run : Run step C init as c) : c.Writes := by
  refine run.invariant (fun _ _ _ inv _ st => inv.step st) ⟨nofun, List.nodup_nil, nofun⟩

/-- A dispatch call writes one message. -/
lemma Process.Writes.unique {c : Process} (inv : c.Writes) {t w w' req req'}
    (mem : (t, w, req) ∈ c.shared.hist.writes) (mem' : (t, w', req') ∈ c.shared.hist.writes) :
    w = w' ∧ req = req' := by
  have := List.inj_on_of_nodup_map inv.once mem mem' rfl
  cases this
  exact ⟨rfl, rfl⟩

end Dnp3Bridge.Dispatcher
