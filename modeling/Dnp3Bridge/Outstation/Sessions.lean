import Dnp3Bridge.Outstation.Points

/-!
# The sessions of an outstation

An `OutstationManager` over its life, with any calls of its members in any order. A session begins with
`start` and ends with `shutdown` or with the next `start`; what has been before a session, and what is
called while there is none, leaves no trace in it. Within a session only the order of the updates of one
point counts.
-/

namespace Dnp3Bridge.Outstation
open Bridge Config Reporting

/-- A call of a member function. -/
inductive Operation where
  | start
  | shutdown
  | update (u : PointUpdate)
  deriving DecidableEq

namespace OutstationManager

def operate (m : OutstationManager) : Operation → OutstationManager
  | .start => m.start
  | .shutdown => m.shutdown
  | .update u => m.visit u

/-- Any number of calls, one after the other. -/
def operateAll (m : OutstationManager) (ops : List Operation) : OutstationManager :=
  ops.foldl operate m

end OutstationManager

/-- What a call does to a session: the updates that it has had, if there is one. -/
def Operation.track (us : Option (List PointUpdate)) : Operation → Option (List PointUpdate)
  | .start => some []
  | .shutdown => none
  | .update u => us.map (· ++ [u])

/-- The session that is under way after the calls. -/
def session (ops : List Operation) : Option (List PointUpdate) :=
  ops.foldl Operation.track none

namespace OutstationManager

/-- The manager is what the session has made of it. -/
structure InSession (fresh : FreshPoints) (cfg : AppConfig) (us : Option (List PointUpdate))
    (m : OutstationManager) : Prop where
  new : m.fresh = fresh
  config : m.cfg = cfg
  on : ∀ {vs}, us = some vs → m = (create fresh cfg).start.visitAll vs
  off : us = none → m.outstation = none

/-- Whatever there was before, `start` makes the same of it. -/
lemma start_eq {m : OutstationManager} {fresh cfg} (new : m.fresh = fresh)
    (same : m.cfg = cfg) : m.start = (create fresh cfg).start := by
  subst new same
  rfl

/-- An update leaves alone what the manager has been created with. -/
lemma visit_given (m : OutstationManager) (u : PointUpdate) :
    (m.visit u).fresh = m.fresh ∧ (m.visit u).cfg = m.cfg := by
  cases u with
  | analog u =>
    rw [visit, updateAnalog]
    split <;> exact ⟨rfl, rfl⟩
  | binary u =>
    rw [visit, updateBinary]
    split <;> exact ⟨rfl, rfl⟩

/-- Every operation keeps the manager what its session has made of it. -/
lemma InSession.operate {fresh cfg us m} (inv : InSession fresh cfg us m) (op : Operation) :
    InSession fresh cfg (op.track us) (m.operate op) := by
  cases op with
  | start =>
    refine ⟨inv.new, inv.config, fun begun => ?_, nofun⟩
    cases begun
    exact start_eq inv.new inv.config
  | shutdown => exact ⟨inv.new, inv.config, nofun, fun _ => rfl⟩
  | update u =>
    refine ⟨(m.visit_given u).1.trans inv.new, (m.visit_given u).2.trans inv.config, ?_, ?_⟩
    · intro vs later
      obtain ⟨vs, begun, rfl⟩ := Option.map_eq_some_iff.mp later
      rw [visitAll_append, ← inv.on begun]
      rfl
    · intro ended
      have before := inv.off (Option.map_eq_none_iff.mp ended)
      show (m.visit u).outstation = none
      rw [visit_stopped before]
      exact before

/-- After any operations the manager is what its session has made of it. -/
lemma inSession (fresh : FreshPoints) (cfg : AppConfig) (ops : List Operation) :
    InSession fresh cfg (session ops) ((create fresh cfg).operateAll ops) := by
  induction ops using List.reverseRecOn with
  | nil => exact ⟨rfl, rfl, nofun, fun _ => rfl⟩
  | append_singleton ops op ih =>
    rw [session, operateAll, List.foldl_concat, List.foldl_concat]
    exact ih.operate op

end OutstationManager

open OutstationManager in
/-- After any calls, the outstation is there exactly while a session is under way; then the manager is
what the updates of this session have made of a new one, and two such managers agree about every point
for which they have had the same updates, whatever the order among those of different points. -/
theorem sessions (fresh : FreshPoints) (cfg : AppConfig) (ops : List Operation) :
    (((create fresh cfg).operateAll ops).outstation ≠ none ↔ session ops ≠ none) ∧
      ∀ us, session ops = some us →
        (create fresh cfg).operateAll ops = (create fresh cfg).start.visitAll us ∧
        ∀ ops' us', session ops' = some us' → ∀ i,
          (us'.filterMap (PointUpdate.analogAt i) = us.filterMap (PointUpdate.analogAt i) →
            ((create fresh cfg).operateAll ops').analogView i =
              ((create fresh cfg).operateAll ops).analogView i) ∧
          (us'.filterMap (PointUpdate.binaryAt i) = us.filterMap (PointUpdate.binaryAt i) →
            ((create fresh cfg).operateAll ops').binaryView i =
              ((create fresh cfg).operateAll ops).binaryView i) := by
  have inv := inSession fresh cfg ops
  have begun := (create fresh cfg).start_outstation
  refine ⟨⟨fun on ended => on (inv.off ended), fun on => ?_⟩, fun us now => ⟨inv.on now, ?_⟩⟩
  · obtain ⟨us, now⟩ := Option.ne_none_iff_exists'.mp on
    rw [inv.on now]
    exact visitAll_outstation begun us
  · intro ops' us' now' i
    rw [inv.on now, (inSession fresh cfg ops').on now']
    refine ⟨fun same => ?_, fun same => ?_⟩
    · rw [visitAll_analogView begun, visitAll_analogView begun, same]
    · rw [visitAll_binaryView begun, visitAll_binaryView begun, same]

end Dnp3Bridge.Outstation
