import Dnp3Bridge.Dispatcher.Restart

/-!
# What the return of `dispatch` tells

Every status that a dispatch call returns has a meaning for the stream: `NOT_SUPPORTED` of its own says
that nothing has been written, every other one that the request has been written once, under the id of
the call and otherwise as it was given; a status taken from the future is the one of the only answer
that was accepted under this id. Neither of the two exceptions of `std::future` is thrown.
-/

namespace Dnp3Bridge.Dispatcher
open Concurrency Proto

/-- In the run along `as` the idle thread `t` has begun the call `k`. -/
def Begins (as : List (Tid × Choice)) (t : Tid) (k : Call) : Prop :=
  ∃ bs cs c, as = bs ++ (t, .call k) :: cs ∧ Run Process.step Always Process.init bs c ∧
    c.pc t = .idle

/-- A call that has begun has begun in every longer run. -/
lemma Begins.append {as t k} (begins : Begins as t k) (bs : List (Tid × Choice)) :
    Begins (as ++ bs) t k := by
  obtain ⟨before, after, c, rfl, run, idle⟩ := begins
  exact ⟨before, after ++ bs, c, List.append_assoc .., run, idle⟩

/-- The beginning of a call is a step of the run. -/
lemma Begins.mem {as t k} (begins : Begins as t k) : (t, .call k) ∈ as := by
  obtain ⟨before, after, _, rfl, -⟩ := begins
  exact List.mem_append_right _ List.mem_cons_self

/-- The request that a dispatch call has in hand before it has written it. -/
def DispatchPc.request : DispatchPc → Option CommandRequest
  | .lockPending req | .insert req | .insertThrows req | .unlockPending req | .lockWriter req
  | .checkWriter req | .write req _ => some req
  | _ => none

/-- The call of `t` was given `req`, but for the id. -/
def Given (as : List (Tid × Choice)) (t : Tid) (req : CommandRequest) : Prop :=
  ∃ given, Begins as t (.dispatch given) ∧ req = { given with commandId := req.commandId }

/-- What a call was given it was given in every longer run. -/
lemma Given.append {as t req} (given : Given as t req) (bs : List (Tid × Choice)) :
    Given (as ++ bs) t req := by
  obtain ⟨req', begins, e⟩ := given
  exact ⟨req', begins.append bs, e⟩

/-- Where the requests and the answers come from. -/
structure Process.Origin (as : List (Tid × Choice)) (c : Process) : Prop where
  request : ∀ {t p req}, c.pc t = .dispatch p → p.request = some req → Given as t req
  message : ∀ {t w req}, (t, w, req) ∈ c.shared.hist.writes → Given as t req
  answer : ∀ {f p}, c.pc f = .fulfill p → Begins as f (.fulfill p.asked.1 p.asked.2)

/-- A dispatch call keeps its request in hand until it has written it, and writes that one. -/
lemma DispatchStep.request_inv {t s p s' p'} (st : DispatchStep t s p s' p') :
    (∀ req, p'.request = some req → p.request = some req) ∧
      ∀ u w req, (u, w, req) ∈ s'.hist.writes →
        (u, w, req) ∈ s.hist.writes ∨ (u = t ∧ p.request = some req) := by
  cases st with
  | beginWrite =>
    refine ⟨fun _ => id, fun u w req mem => ?_⟩
    obtain mem | mem := List.mem_append.mp mem
    · exact .inl mem
    · cases List.mem_singleton.mp mem
      exact .inr ⟨rfl, rfl⟩
  | insertThrows | noWriter | writeOk | writeFails => exact ⟨nofun, fun _ _ _ => .inl⟩
  | _ => exact ⟨fun _ => id, fun _ _ _ => .inl⟩

/-- A fulfill call writes to no stream. -/
lemma FulfillStep.writes_eq {t s p s' p'} (st : FulfillStep t s p s' p') :
    s'.hist.writes = s.hist.writes := by
  cases st <;> rfl

/-- What a step does to the requests in hand, the messages and the answers. -/
inductive OriginStep (t : Tid) (i : Choice) (s : Shared) : Pc → Shared → Pc → Prop where
  | dispatch {req s' id} :
    i = .call (.dispatch req) →
    s'.hist.writes = s.hist.writes →
    OriginStep t i s .idle s' (.dispatch (.lockPending { req with commandId := id }))
  | fulfill {id st s'} :
    i = .call (.fulfill id st) →
    s'.hist.writes = s.hist.writes →
    OriginStep t i s .idle s' (.fulfill (.lock id st))
  | inDispatch {p s' p'} :
    DispatchStep t s p s' p' →
    OriginStep t i s (.dispatch p) s' (.dispatch p')
  | inFulfill {p s' p'} :
    p'.asked = p.asked →
    s'.hist.writes = s.hist.writes →
    OriginStep t i s (.fulfill p) s' (.fulfill p')
  | other {p s' p'} :
    (∀ q, p' ≠ .dispatch q) →
    (∀ q, p' ≠ .fulfill q) →
    s'.hist.writes = s.hist.writes →
    OriginStep t i s p s' p'

/-- What a step does to the requests in hand, the messages and the answers is one of these. -/
lemma Step.origin {t s i p s' p'} (st : Step t s i p s' p') : OriginStep t i s p s' p' := by
  cases st with
  | start st =>
    cases st with
    | dispatch => exact .dispatch rfl rfl
    | fulfill => exact .fulfill rfl rfl
    | streamCommands | moveToken | selfAssign | assignToken | destroyToken =>
      exact .other (fun _ e => nomatch e) (fun _ e => nomatch e) rfl
  | dispatch st => exact .inDispatch st
  | fulfill st => exact .inFulfill st.asked_eq st.writes_eq
  | stream st => exact .other (fun _ e => nomatch e) (fun _ e => nomatch e) (by cases st <;> rfl)
  | token st => exact .other (fun _ e => nomatch e) (fun _ e => nomatch e) (by cases st <;> rfl)

/-- A call that begins now has begun in the run that goes on with it. -/
lemma Begins.now {bs : List (Tid × Choice)} {c : Process} {t k}
    (run : Run Process.step Always Process.init bs c) (idle : c.pc t = .idle) :
    Begins (bs ++ [(t, .call k)]) t k :=
  ⟨bs, [], c, rfl, run, idle⟩

/-- Every step keeps what is known of the origins. -/
lemma Process.Origin.step {bs : List (Tid × Choice)} {c c' : Process} {a} (inv : c.Origin bs)
    (run : Run Process.step Always Process.init bs c) (st : c.step a = some c') :
    c'.Origin (bs ++ [a]) := by
  obtain ⟨t, i⟩ := a
  obtain ⟨st, pcs⟩ := c.step_inv st
  have st := st.origin
  simp only at st pcs
  have other : ∀ {u}, u ≠ t → c'.pc u = c.pc u := by
    intro u ne
    rw [pcs, Function.update_of_ne ne]
  generalize e : c.pc t = p at st
  generalize e' : c'.pc t = p' at st
  -- what does not concern the thread that makes the step has been there before
  have request : ∀ {u q req}, u ≠ t → c'.pc u = .dispatch q → q.request = some req →
      Given (bs ++ [(t, i)]) u req := by
    intro u q req ne pc has
    rw [other ne] at pc
    exact (inv.request pc has).append _
  have answer : ∀ {u q}, u ≠ t → c'.pc u = .fulfill q →
      Begins (bs ++ [(t, i)]) u (.fulfill q.asked.1 q.asked.2) := by
    intro u q ne pc
    rw [other ne] at pc
    exact (inv.answer pc).append _
  have message : c'.shared.hist.writes = c.shared.hist.writes →
      ∀ {u w req}, (u, w, req) ∈ c'.shared.hist.writes → Given (bs ++ [(t, i)]) u req := by
    intro same u w req mem
    rw [same] at mem
    exact (inv.message mem).append _
  cases st with
  | @dispatch req _ id call same =>
    subst call
    refine ⟨fun {u q req'} pc has => ?_, message same, fun {u q} pc => ?_⟩
    · rcases eq_or_ne u t with rfl | ne
      · cases e'.symm.trans pc
        cases has
        exact ⟨req, .now run e, rfl⟩
      · exact request ne pc has
    · rcases eq_or_ne u t with rfl | ne
      · cases e'.symm.trans pc
      · exact answer ne pc
  | @fulfill id v _ call same =>
    subst call
    refine ⟨fun {u q req'} pc has => ?_, message same, fun {u q} pc => ?_⟩
    · rcases eq_or_ne u t with rfl | ne
      · cases e'.symm.trans pc
      · exact request ne pc has
    · rcases eq_or_ne u t with rfl | ne
      · cases e'.symm.trans pc
        exact .now run e
      · exact answer ne pc
  | inDispatch st =>
    obtain ⟨kept, written⟩ := st.request_inv
    refine ⟨fun {u q req} pc has => ?_, fun {u w req} mem => ?_, fun {u q} pc => ?_⟩
    · rcases eq_or_ne u t with rfl | ne
      · cases e'.symm.trans pc
        exact (inv.request e (kept _ has)).append _
      · exact request ne pc has
    · obtain old | ⟨rfl, has⟩ := written _ _ _ mem
      · exact (inv.message old).append _
      · exact (inv.request e has).append _
    · rcases eq_or_ne u t with rfl | ne
      · cases e'.symm.trans pc
      · exact answer ne pc
  | inFulfill asked same =>
    refine ⟨fun {u q req} pc has => ?_, message same, fun {u q} pc => ?_⟩
    · rcases eq_or_ne u t with rfl | ne
      · cases e'.symm.trans pc
      · exact request ne pc has
    · rcases eq_or_ne u t with rfl | ne
      · cases e'.symm.trans pc
        rw [asked]
        exact (inv.answer e).append _
      · exact answer ne pc
  | other noDispatch noFulfill same =>
    refine ⟨fun {u q req} pc has => ?_, message same, fun {u q} pc => ?_⟩
    · rcases eq_or_ne u t with rfl | ne
      · exact absurd (e'.symm.trans pc) (noDispatch q)
      · exact request ne pc has
    · rcases eq_or_ne u t with rfl | ne
      · exact absurd (e'.symm.trans pc) (noFulfill q)
      · exact answer ne pc

/-- Every message and every answer comes from a call. -/
lemma Process.origin {as c} (run : Run step Always init as c) : c.Origin as :=
  run.history (fun _ _ _ _ before inv _ st => inv.step before st) ⟨nofun, nofun, nofun⟩

/-- The call has written the request it was given, with its id, once, and nothing else. -/
def Process.Sent (as : List (Tid × Choice)) (c : Process) (t : Tid) (id : UInt64) : Prop :=
  ∃ w req, Begins as t (.dispatch req) ∧
    c.shared.hist.writes.filter (fun x => x.1 = t) = [(t, w, { req with commandId := id })]

/-- What a return of `dispatch` says about the stream and the answers. -/
inductive Verdict (as : List (Tid × Choice)) (c : Process) (t : Tid) (id : UInt64) : Exit → Prop where
  | noWriter :
    c.shared.hist.writes.filter (fun x => x.1 = t) = [] →
    Verdict as c t id (.failed .noWriter)
  | writeFailed :
    c.Sent as t id →
    Verdict as c t id (.failed .writeFailed)
  | timedOut :
    c.Sent as t id →
    Verdict as c t id (.failed .timedOut)
  | answered {st f} :
    c.Sent as t id →
    Begins as f (.fulfill id st) →
    c.Fulfills f id st t →
    (∀ f' st' u, c.Fulfills f' id st' u → f' = f) →
    Verdict as c t id (.answered st)

/-- The messages of a call that has not written. -/
lemma Process.Writes.none {c : Process} (inv : c.Writes) {t p} (pc : c.pc t = .dispatch p)
    (not : p.wrote = false) : c.shared.hist.writes.filter (fun x => x.1 = t) = [] := by
  refine List.filter_eq_nil_iff.mpr fun x mem own => ?_
  obtain ⟨u, w, req⟩ := x
  cases of_decide_eq_true own
  obtain ⟨q, eq, -, wrote⟩ := inv.writer mem
  cases pc.symm.trans eq
  cases not.symm.trans wrote

/-- With distinct keys, the entries of one key are one entry. -/
lemma filter_eq_singleton {l : List (Tid × Writer × CommandRequest)} {x}
    (once : (l.map Prod.fst).Nodup) (mem : x ∈ l) : l.filter (fun y => y.1 = x.1) = [x] := by
  induction l with
  | nil => cases mem
  | cons y l ih =>
    obtain ⟨fresh, once⟩ := List.nodup_cons.mp once
    rcases List.mem_cons.mp mem with rfl | mem
    · have none : l.filter (fun y => y.1 = x.1) = [] := by
        refine List.filter_eq_nil_iff.mpr fun z inside same => fresh ?_
        rw [← of_decide_eq_true same]
        exact List.mem_map_of_mem inside
      rw [List.filter_cons, if_pos (decide_eq_true rfl), none]
    · have ne : y.1 ≠ x.1 := by
        intro same
        refine fresh ?_
        rw [same]
        exact List.mem_map_of_mem mem
      rw [List.filter_cons, if_neg fun same => ne (of_decide_eq_true same), ih once mem]

/-- The messages of a call that has written. -/
lemma Process.Writes.sent {as} {c : Process} (inv : c.Writes) (origin : c.Origin as) {t p}
    (pc : c.pc t = .dispatch p) (wrote : p.wrote = true) : c.Sent as t p.commandId := by
  obtain ⟨w, req, mem, id⟩ := inv.written pc wrote
  obtain ⟨given, begins, same⟩ := origin.message mem
  refine ⟨w, given, begins, ?_⟩
  have own : c.shared.hist.writes.filter (fun x => x.1 = t) = [(t, w, req)] :=
    filter_eq_singleton inv.once mem
  rw [own, same, id]

/-- With ids that do not wrap, no dispatch call finds its id taken. -/
lemma Process.not_clashed {as c} (run : Run step FreshId init as c) :
    ∀ t id, c.phases t ≠ .clashed id := by
  refine run.invariant_under (J := fun c => c.Meets ∧ c.IdsDrawn)
    (I := fun c => ∀ t id, c.phases t ≠ .clashed id) ?_ ?_ ⟨Meeting.init, idsDrawn .nil⟩ nofun
  · intro c a c' inv fresh st
    exact ⟨inv.1.step st, inv.2.step fresh st⟩
  · intro c a c' inv none _ st t id
    obtain ⟨-, ep⟩ | ⟨mv, ep⟩ := c.step_move st
    · rw [ep]
      exact none t id
    · rw [ep]
      rcases eq_or_ne t a.1 with rfl | ne
      · rw [Function.update_self]
        exact mv.not_clashed inv.1 inv.2.distinct
      · rw [Function.update_of_ne ne]
        exact none t id

/-- In the life of a process with fewer than `2 ^ 64` dispatch calls, every dispatch call that has
returned has returned with its verdict. -/
theorem returned_verdict {as c} (run : Run Process.step Always Process.init as c)
    (few : c.shared.hist.dispatches < 2 ^ 64) {t id e}
    (pc : c.pc t = .dispatch (.returned id e)) : Verdict as c t id e := by
  have fresh := Process.freshId_of_few run rfl few
  have table := Process.pendingTable (Process.meets run) (Process.idsDrawn fresh)
    (Process.noneBroke fresh)
  have origin := Process.origin run
  have writes := Process.writes run
  have sent : (DispatchPc.returned id e).wrote = true → c.Sent as t id := writes.sent origin pc
  cases e with
  | failed reason =>
    cases reason with
    | noWriter => exact .noWriter (writes.none pc rfl)
    | writeFailed => exact .writeFailed (sent rfl)
    | timedOut => exact .timedOut (sent rfl)
  | answered st =>
    obtain ⟨f, ful⟩ := table.answered pc
    have begins : Begins as f (.fulfill id st) := by
      obtain ef | ef := ful
      · exact origin.answer ef
      · exact origin.answer ef
    exact .answered (sent rfl) begins ful fun _ _ _ ful' => table.fulfilled_once ful' ful
  | brokenPromise =>
    have broke : c.phases t = .broke id := Process.phases_dispatch pc
    have broken := (Process.meets run).broke_broken broke
    exact absurd broken (Process.noneBroke fresh t id (.inr broke))
  | futureAlreadyRetrieved =>
    exact absurd (Process.phases_dispatch pc) (Process.not_clashed fresh t id)

/-- The verdict of a call that has been answered. -/
theorem answeredCommand_verdict :
    ∃ c, Run Process.step Always Process.init answeredCommand c ∧
      Verdict answeredCommand c 0 1 (.answered .success) := by
  refine ⟨_, Run.of_exec rfl, ?_⟩
  exact @returned_verdict answeredCommand _ (Run.of_exec rfl) (by decide) 0 1 _ rfl

end Dnp3Bridge.Dispatcher
