import Dnp3Bridge.Dispatcher.Model

/-!
# Inversion of the steps of the dispatcher

Everything a step of a bridge process can do, with its guards: one rule for every branch of
`dispatch`, `fulfill`, `streamCommands`, `release` and `start`. The lemmas `*_inv` read a step of the
executable model as a rule; all later proofs go by cases on the rules and never unfold the model.
-/

namespace Dnp3Bridge.Dispatcher
open Concurrency Proto

/-- The steps of a dispatch call. -/
inductive DispatchStep (t : Tid) (s : Shared) : DispatchPc → Shared → DispatchPc → Prop where
  | lockPending {req} :
    s.pendingMutex = none →
    DispatchStep t s (.lockPending req) { s with pendingMutex := some t } (.insert req)
  | insert {req} :
    s.promises.pending req.commandId = none →
    DispatchStep t s (.insert req)
      { s with promises := s.promises.emplace req.commandId t } (.unlockPending req)
  | clash {req u} :
    s.promises.pending req.commandId = some u →
    DispatchStep t s (.insert req) s (.insertThrows req)
  | insertThrows {req} :
    DispatchStep t s (.insertThrows req) { s with pendingMutex := none }
      (.returned req.commandId .futureAlreadyRetrieved)
  | unlockPending {req} :
    DispatchStep t s (.unlockPending req) { s with pendingMutex := none } (.lockWriter req)
  | lockWriter {req} :
    s.writerMutex = none →
    DispatchStep t s (.lockWriter req) { s with writerMutex := some t } (.checkWriter req)
  | noWriter {req} :
    s.activeWriter = none →
    DispatchStep t s (.checkWriter req) s (.failLock req.commandId .noWriter)
  | beginWrite {req w} :
    s.activeWriter = some w →
    DispatchStep t s (.checkWriter req)
      { s with hist := { s.hist with writes := s.hist.writes ++ [(t, w, req)] } } (.write req w)
  | writeOk {req w} :
    DispatchStep t s (.write req w) s (.unlockWriter req.commandId)
  | writeFails {req w} :
    DispatchStep t s (.write req w) s (.failLock req.commandId .writeFailed)
  | failLock {id e} :
    s.pendingMutex = none →
    DispatchStep t s (.failLock id e) { s with pendingMutex := some t } (.failErase id e)
  | failErase {id e} :
    DispatchStep t s (.failErase id e) { s with promises := s.promises.erase id }
      (.failUnlockPending id e)
  | failUnlockPending {id e} :
    DispatchStep t s (.failUnlockPending id e) { s with pendingMutex := none }
      (.failUnlockWriter id e)
  | failUnlockWriter {id e} :
    DispatchStep t s (.failUnlockWriter id e) { s with writerMutex := none }
      (.returned id (.failed e))
  | unlockWriter {id} :
    DispatchStep t s (.unlockWriter id) { s with writerMutex := none } (.waitFor id)
  | expire {id} :
    s.promises.promise t = .unset →
    DispatchStep t s (.waitFor id) s (.timeoutLock id)
  | ready {id} :
    s.promises.promise t ≠ .unset →
    DispatchStep t s (.waitFor id) s (.get id)
  | timeoutLock {id} :
    s.pendingMutex = none →
    DispatchStep t s (.timeoutLock id) { s with pendingMutex := some t } (.timeoutErase id)
  | timeoutErase {id} :
    DispatchStep t s (.timeoutErase id) { s with promises := s.promises.erase id }
      (.timeoutUnlock id)
  | timeoutUnlock {id} :
    DispatchStep t s (.timeoutUnlock id) { s with pendingMutex := none }
      (.returned id (.failed .timedOut))
  | get {id st} :
    s.promises.promise t = .value st →
    DispatchStep t s (.get id) s (.returned id (.answered st))
  | getThrows {id} :
    s.promises.promise t = .broken →
    DispatchStep t s (.get id) s (.returned id .brokenPromise)

/-- The steps of a fulfill call. -/
inductive FulfillStep (t : Tid) (s : Shared) : FulfillPc → Shared → FulfillPc → Prop where
  | lock {id st} :
    s.pendingMutex = none →
    FulfillStep t s (.lock id st) { s with pendingMutex := some t } (.body id st)
  | miss {id st} :
    s.promises.pending id = none →
    FulfillStep t s (.body id st) s (.unlock id st none)
  | hit {id st u m} :
    s.promises.pending id = some u →
    s.promises.setValue u st = some m →
    FulfillStep t s (.body id st) { s with promises := m.erase id } (.unlock id st (some u))
  | setThrows {id st u} :
    s.promises.pending id = some u →
    s.promises.setValue u st = none →
    FulfillStep t s (.body id st) s (.unwind id st)
  | unlock {id st owner} :
    FulfillStep t s (.unlock id st owner) { s with pendingMutex := none } (.returned id st owner)
  | unwind {id st} :
    FulfillStep t s (.unwind id st) { s with pendingMutex := none } (.threw id st)

/-- The steps of a `StreamCommands` call. -/
inductive StreamStep (t : Tid) (s : Shared) : StreamPc → Shared → StreamPc → Prop where
  | lock {w} :
    s.writerMutex = none →
    StreamStep t s (.lock w) { s with writerMutex := some t } (.register w)
  | register {w} :
    StreamStep t s (.register w)
      { s with
        activeWriter := some w
        hist := { s.hist with registrations := t :: s.hist.registrations } } (.unlock w)
  | unlock {w} :
    StreamStep t s (.unlock w) { s with writerMutex := none } (.construct w)
  | construct {w k} :
    s.tokens k = none →
    StreamStep t s (.construct w)
      { s with tokens := Function.update s.tokens k (some ⟨true, w, t⟩) } (.serving w)
  | leave {w} :
    s.released t = true →
    StreamStep t s (.serving w) { s with live := Function.update s.live w none } (.returned w)

/-- The steps of a destructor or move assignment of a token. -/
inductive TokenStep (t : Tid) (s : Shared) : TokenPc → Shared → TokenPc → Prop where
  | armed {k a x} :
    s.tokens k = some x →
    x.dispatcher = true →
    TokenStep t s (.check k a) s (.lock k a)
  | movedFrom {k a x} :
    s.tokens k = some x →
    x.dispatcher = false →
    TokenStep t s (.check k a) s (.finish k a)
  | lock {k a} :
    s.writerMutex = none →
    TokenStep t s (.lock k a) { s with writerMutex := some t } (.body k a)
  | body {k a x} :
    s.tokens k = some x →
    TokenStep t s (.body k a)
      { s with
        activeWriter := if s.activeWriter = some x.writer then none else s.activeWriter
        tokens := Function.update s.tokens k (some x.disarm)
        released := Function.update s.released x.stream true }
      (.unlock k a)
  | unlock {k a} :
    TokenStep t s (.unlock k a) { s with writerMutex := none } (.finish k a)
  | destroy {k} :
    TokenStep t s (.finish k .destroy)
      { s with
        tokens := Function.update s.tokens k none
        inUse := Function.update s.inUse k none } .done
  | assign {k src x} :
    s.tokens src = some x →
    TokenStep t s (.finish k (.assign src))
      { s.moveToken k src x with
        inUse := Function.update (Function.update s.inUse k none) src none } .done

/-- The first statements of the calls. -/
inductive StartStep (t : Tid) (s : Shared) : Call → Shared → Pc → Prop where
  | dispatch {req} :
    StartStep t s (.dispatch req)
      { s with
        nextId := s.nextId + 1
        hist := { s.hist with dispatches := s.hist.dispatches + 1 } }
      (.dispatch (.lockPending { req with commandId := s.nextId }))
  | fulfill {id st} :
    StartStep t s (.fulfill id st) s (.fulfill (.lock id st))
  | streamCommands {w} :
    s.live w = none →
    StartStep t s (.streamCommands w) { s with live := Function.update s.live w (some t) }
      (.stream (.lock w))
  | moveToken {dst src x} :
    s.tokens src = some x →
    s.tokens dst = none →
    s.inUse src = none →
    StartStep t s (.moveToken dst src) (s.moveToken dst src x) (.token .done)
  | selfAssign {k} :
    StartStep t s (.assignToken k k) s (.token .done)
  | assignToken {dst src} :
    s.tokens dst ≠ none →
    s.tokens src ≠ none →
    s.inUse dst = none →
    s.inUse src = none →
    dst ≠ src →
    StartStep t s (.assignToken dst src)
      { s with inUse := Function.update (Function.update s.inUse dst (some t)) src (some t) }
      (.token (.check dst (.assign src)))
  | destroyToken {k} :
    s.tokens k ≠ none →
    s.inUse k = none →
    StartStep t s (.destroyToken k) { s with inUse := Function.update s.inUse k (some t) }
      (.token (.check k .destroy))

/-- The steps of a thread. -/
inductive Step (t : Tid) (s : Shared) : Choice → Pc → Shared → Pc → Prop where
  | start {c s' p'} :
    StartStep t s c s' p' →
    Step t s (.call c) .idle s' p'
  | dispatch {i p s' p'} :
    DispatchStep t s p s' p' →
    Step t s i (.dispatch p) s' (.dispatch p')
  | fulfill {i p s' p'} :
    FulfillStep t s p s' p' →
    Step t s i (.fulfill p) s' (.fulfill p')
  | stream {i p s' p'} :
    StreamStep t s p s' p' →
    Step t s i (.stream p) s' (.stream p')
  | token {i p s' p'} :
    TokenStep t s p s' p' →
    Step t s i (.token p) s' (.token p')

/-- Inversion for `dispatch`. -/
lemma dispatch_inv {i t s p s' p'} (mv : dispatch i t s p = some (s', p')) :
    DispatchStep t s p s' p' := by
  cases p <;> simp only [dispatch] at mv
  case insert =>
    split at mv <;> cases mv
    case h_1 h => exact .insert h
    case h_2 h => exact .clash h
  case checkWriter =>
    split at mv <;> cases mv
    case h_1 h => exact .noWriter h
    case h_2 h => exact .beginWrite h
  case write =>
    split at mv <;> cases mv
    case h_1 => exact .writeOk
    case h_2 => exact .writeFails
    case h_3 => exact .writeFails
  case waitFor =>
    split at mv <;> cases mv
    case h_1 h => exact .expire h
    case h_3 => exact .ready (by assumption)
  case get =>
    split at mv <;> cases mv
    case h_2 h => exact .get h
    case h_3 h => exact .getThrows h
  case returned => cases mv
  all_goals
    first
    | (cases mv; constructor)
    | (obtain ⟨h, e⟩ := Option.ite_none_right_eq_some.mp mv; cases e; constructor; exact h)

/-- Inversion for `fulfill`. -/
lemma fulfill_inv {t s p s' p'} (mv : fulfill t s p = some (s', p')) :
    FulfillStep t s p s' p' := by
  cases p <;> simp only [fulfill] at mv
  case lock =>
    obtain ⟨h, e⟩ := Option.ite_none_right_eq_some.mp mv
    cases e
    exact .lock h
  case body =>
    split at mv
    case h_1 h =>
      cases mv
      exact .miss h
    case h_2 h =>
      split at mv <;> cases mv
      case h_1 h' => exact .hit h h'
      case h_2 h' => exact .setThrows h h'
  case unlock =>
    cases mv
    exact .unlock
  case unwind =>
    cases mv
    exact .unwind
  case returned => cases mv
  case threw => cases mv

/-- Inversion for `streamCommands`. -/
lemma streamCommands_inv {i t s p s' p'} (mv : streamCommands i t s p = some (s', p')) :
    StreamStep t s p s' p' := by
  cases p <;> simp only [streamCommands] at mv
  case lock =>
    obtain ⟨h, e⟩ := Option.ite_none_right_eq_some.mp mv
    cases e
    exact .lock h
  case register =>
    cases mv
    exact .register
  case unlock =>
    cases mv
    exact .unlock
  case construct =>
    split at mv
    case h_1 =>
      obtain ⟨h, e⟩ := Option.ite_none_right_eq_some.mp mv
      cases e
      exact .construct h
    case h_2 => cases mv
  case serving =>
    obtain ⟨h, e⟩ := Option.ite_none_right_eq_some.mp mv
    cases e
    exact .leave h
  case returned => cases mv

/-- Inversion for `release`. -/
lemma release_inv {t s p s' p'} (mv : release t s p = some (s', p')) :
    TokenStep t s p s' p' := by
  cases p <;> simp only [release] at mv
  case check k a =>
    split at mv
    case h_1 => cases mv
    case h_2 x h =>
      cases mv
      cases e : x.dispatcher with
      | true => exact .armed h e
      | false => exact .movedFrom h e
  case lock =>
    obtain ⟨h, e⟩ := Option.ite_none_right_eq_some.mp mv
    cases e
    exact .lock h
  case body =>
    split at mv <;> cases mv
    case h_2 h => exact .body h
  case unlock =>
    cases mv
    exact .unlock
  case finish k a =>
    cases a with
    | destroy =>
      cases mv
      exact .destroy
    | assign src =>
      simp only at mv
      split at mv <;> cases mv
      case h_2 h => exact .assign h
  case done => cases mv

/-- Inversion for `start`. -/
lemma start_inv {t s c s' p'} (mv : start t s c = some (s', p')) : StartStep t s c s' p' := by
  cases c <;> simp only [start] at mv
  case dispatch =>
    cases mv
    exact .dispatch
  case fulfill =>
    cases mv
    exact .fulfill
  case streamCommands =>
    obtain ⟨h, e⟩ := Option.ite_none_right_eq_some.mp mv
    cases e
    exact .streamCommands h
  case moveToken =>
    split at mv
    case h_1 => cases mv
    case h_2 h =>
      obtain ⟨⟨h1, h2⟩, e⟩ := Option.ite_none_right_eq_some.mp mv
      cases e
      exact .moveToken h h1 h2
  case assignToken =>
    obtain ⟨⟨h1, h2, h3, h4⟩, e⟩ := Option.ite_none_right_eq_some.mp mv
    split at e <;> cases e
    case isTrue eq => exact eq ▸ .selfAssign
    case isFalse ne => exact .assignToken h1 h2 h3 h4 ne
  case destroyToken =>
    obtain ⟨⟨h1, h2⟩, e⟩ := Option.ite_none_right_eq_some.mp mv
    cases e
    exact .destroyToken h1 h2

/-- Inversion for `next`. -/
theorem next_inv {i t s p s' p'} (mv : next i t s p = some (s', p')) : Step t s i p s' p' := by
  cases p with
  | idle =>
    simp only [next] at mv
    split at mv
    case h_1 => exact .start (start_inv mv)
    case h_2 => cases mv
  | dispatch p =>
    obtain ⟨q, e, rfl⟩ := exists_of_map_pc mv
    exact .dispatch (dispatch_inv e)
  | fulfill p =>
    obtain ⟨q, e, rfl⟩ := exists_of_map_pc mv
    exact .fulfill (fulfill_inv e)
  | stream p =>
    obtain ⟨q, e, rfl⟩ := exists_of_map_pc mv
    exact .stream (streamCommands_inv e)
  | token p =>
    obtain ⟨q, e, rfl⟩ := exists_of_map_pc mv
    exact .token (release_inv e)

/-- Inversion for a step of a process: its thread steps, the others stay where they are. -/
theorem Process.step_inv {c c' : Process} {a} (st : c.step a = some c') :
    Step a.1 c.shared a.2 (c.pc a.1) c'.shared (c'.pc a.1) ∧
      c'.pc = Function.update c.pc a.1 (c'.pc a.1) := by
  obtain ⟨s, p, mv, rfl⟩ := Conf.step_inv st
  simp only [Function.update_self]
  exact ⟨next_inv mv, trivial⟩

end Dnp3Bridge.Dispatcher
