import Dnp3Bridge.Concurrency.Promises
import Dnp3Bridge.Proto.Messages

/-!
# The command dispatcher

The code of `dnp3/CommandDispatcher.cpp` and of the two calls of `grpc/BridgeServiceImpl.cpp` that
reach it, one program counter per statement. Both mutexes are explicit; the body of a critical
section of `pending_mutex_` is one step, as no other thread can look at `pending_` inside it. Every
call is a thread of its own, so any number of calls run concurrently, and a thread that is `idle`
may start any call. What the environment decides is a `Choice`: how a `Write` ends, when the wait
for an answer times out, where a token object is built.

`std::future::wait_for` reports a timeout only if the promise is still unset at that moment. A
`StreamToken` object is used by one thread at a time (`inUse`), as C++ demands of any object that is
not itself synchronised.
-/

namespace Dnp3Bridge.Dispatcher
open Concurrency Proto

/-- `opendnp3::CommandStatus`. -/
inductive CommandStatus where
  | success
  | timeout
  | noSelect
  | formatError
  | notSupported
  | alreadyActive
  | hardwareError
  | local
  | tooManyOps
  | notAuthorized
  | automationInhibit
  | processingLimited
  | outOfRange
  | downstreamLocal
  | alreadyComplete
  | blocked
  | cancelled
  | blockedOtherMaster
  | downstreamFail
  | nonParticipating
  | undefined
  deriving DecidableEq

/-- A thread; every call is one. -/
abbrev Tid := Nat

/-- The address of a `grpc::ServerWriter`. -/
abbrev Writer := Nat

/-- The address of a `StreamToken` object. -/
abbrev Object := Nat

/-- `CommandDispatcher::StreamToken`; `dispatcher` says that `dispatcher_` is not null. The call of
`StreamCommands` whose registration the token stands for is not part of the object. -/
structure StreamToken where
  dispatcher : Bool
  writer : Writer
  stream : Tid
  deriving DecidableEq

/-- What has happened so far, for statements about runs; no step reads it. -/
structure History where
  /-- The `StreamCommands` calls that have registered their writer, the most recent first. -/
  registrations : List Tid := []
  /-- The `Write` calls begun so far: the dispatch call, the writer, the message. -/
  writes : List (Tid × Writer × CommandRequest) := []
  /-- The number of dispatch calls begun so far. -/
  dispatches : Nat := 0

/-- The state that the calls share. `live` maps the address of every existing `ServerWriter` to the
`StreamCommands` call it belongs to, and `released` says of which of these calls the registration has
been released; of a call that is serving it has been exactly when no object holds its token any more
(`Process.leaves_iff`). -/
structure Shared where
  nextId : UInt64 := 1
  writerMutex : Option Tid := none
  activeWriter : Option Writer := none
  pendingMutex : Option Tid := none
  promises : PromiseMap Tid UInt64 CommandStatus := .empty
  tokens : Object → Option StreamToken := fun _ => none
  inUse : Object → Option Tid := fun _ => none
  live : Writer → Option Tid := fun _ => none
  released : Tid → Bool := fun _ => false
  hist : History := {}

/-- The early returns of `dispatch`. -/
inductive Failure where
  | noWriter
  | writeFailed
  | timedOut
  deriving DecidableEq

/-- The status an early return carries. -/
def Failure.status : Failure → CommandStatus
  | .noWriter => .notSupported
  | .writeFailed => .downstreamFail
  | .timedOut => .timeout

/-- How a `dispatch` call ends: by an early return, with the value of its future, or by the
`std::future_error` of `future.get()` or `promise.get_future()`. -/
inductive Exit where
  | failed (e : Failure)
  | answered (st : CommandStatus)
  | brokenPromise
  | futureAlreadyRetrieved
  deriving DecidableEq

/-- What `ForwardingCommandHandler::Operate` tells the master: the returned status, or
`DOWNSTREAM_FAIL` when `dispatch` throws. -/
def Exit.told : Exit → CommandStatus
  | .failed e => e.status
  | .answered st => st
  | .brokenPromise | .futureAlreadyRetrieved => .downstreamFail

/-- The program counter of `dispatch`. -/
inductive DispatchPc where
  | lockPending (req : CommandRequest)
  | insert (req : CommandRequest)
  | insertThrows (req : CommandRequest)
  | unlockPending (req : CommandRequest)
  | lockWriter (req : CommandRequest)
  | checkWriter (req : CommandRequest)
  | write (req : CommandRequest) (w : Writer)
  | failLock (id : UInt64) (e : Failure)
  | failErase (id : UInt64) (e : Failure)
  | failUnlockPending (id : UInt64) (e : Failure)
  | failUnlockWriter (id : UInt64) (e : Failure)
  | unlockWriter (id : UInt64)
  | waitFor (id : UInt64)
  | timeoutLock (id : UInt64)
  | timeoutErase (id : UInt64)
  | timeoutUnlock (id : UInt64)
  | get (id : UInt64)
  | returned (id : UInt64) (e : Exit)
  deriving DecidableEq

/-- The program counter of `fulfill`. After the lookup it remembers the call whose promise it set,
if there was one. -/
inductive FulfillPc where
  | lock (id : UInt64) (st : CommandStatus)
  | body (id : UInt64) (st : CommandStatus)
  | unlock (id : UInt64) (st : CommandStatus) (owner : Option Tid)
  | unwind (id : UInt64) (st : CommandStatus)
  | returned (id : UInt64) (st : CommandStatus) (owner : Option Tid)
  | threw (id : UInt64) (st : CommandStatus)
  deriving DecidableEq

/-- The program counter of `StreamCommands`. -/
inductive StreamPc where
  | lock (w : Writer)
  | register (w : Writer)
  | unlock (w : Writer)
  | construct (w : Writer)
  | serving (w : Writer)
  | returned (w : Writer)
  deriving DecidableEq

/-- What follows `StreamToken::release`: the end of the destructor, or the assignments of the move
assignment from `src`. -/
inductive After where
  | destroy
  | assign (src : Object)
  deriving DecidableEq

/-- The program counter of a destructor or move assignment of a `StreamToken`, inside `release`. -/
inductive TokenPc where
  | check (k : Object) (a : After)
  | lock (k : Object) (a : After)
  | body (k : Object) (a : After)
  | unlock (k : Object) (a : After)
  | finish (k : Object) (a : After)
  | done
  deriving DecidableEq

/-- The program counter of a thread. -/
inductive Pc where
  | idle
  | dispatch (p : DispatchPc)
  | fulfill (p : FulfillPc)
  | stream (p : StreamPc)
  | token (p : TokenPc)
  deriving DecidableEq

/-- The calls an idle thread may start. -/
inductive Call where
  | dispatch (req : CommandRequest)
  | fulfill (id : UInt64) (st : CommandStatus)
  | streamCommands (w : Writer)
  | moveToken (dst src : Object)
  | assignToken (dst src : Object)
  | destroyToken (k : Object)
  deriving DecidableEq

/-- What the environment decides about a step. -/
inductive Choice where
  | call (c : Call)
  | go
  | writeReturns (ok : Bool)
  | writeThrows
  | expire
  | object (k : Object)
  deriving DecidableEq

/-- `CommandDispatcher::dispatch` after `next_id_.fetch_add`. -/
def dispatch (i : Choice) (t : Tid) (s : Shared) : DispatchPc → Option (Shared × DispatchPc)
  | .lockPending req =>
    if s.pendingMutex = none then some ({ s with pendingMutex := some t }, .insert req) else none
  | .insert req =>
    match s.promises.pending req.commandId with
    | none =>
      some ({ s with promises := s.promises.emplace req.commandId t }, .unlockPending req)
    -- `operator[]` finds the promise of another call, whose future is already taken
    | some _ => some (s, .insertThrows req)
  | .insertThrows req =>
    some ({ s with pendingMutex := none }, .returned req.commandId .futureAlreadyRetrieved)
  | .unlockPending req => some ({ s with pendingMutex := none }, .lockWriter req)
  | .lockWriter req =>
    if s.writerMutex = none then some ({ s with writerMutex := some t }, .checkWriter req) else none
  | .checkWriter req =>
    match s.activeWriter with
    | none => some (s, .failLock req.commandId .noWriter)
    | some w =>
      some ({ s with hist := { s.hist with writes := s.hist.writes ++ [(t, w, req)] } }, .write req w)
  | .write req _ =>
    match i with
    | .writeReturns true => some (s, .unlockWriter req.commandId)
    | .writeReturns false => some (s, .failLock req.commandId .writeFailed)
    | .writeThrows => some (s, .failLock req.commandId .writeFailed)
    | _ => none
  | .failLock id e =>
    if s.pendingMutex = none then some ({ s with pendingMutex := some t }, .failErase id e) else none
  | .failErase id e => some ({ s with promises := s.promises.erase id }, .failUnlockPending id e)
  | .failUnlockPending id e => some ({ s with pendingMutex := none }, .failUnlockWriter id e)
  | .failUnlockWriter id e => some ({ s with writerMutex := none }, .returned id (.failed e))
  | .unlockWriter id => some ({ s with writerMutex := none }, .waitFor id)
  | .waitFor id =>
    match s.promises.promise t, i with
    | .unset, .expire => some (s, .timeoutLock id)
    | .unset, _ => none
    | _, _ => some (s, .get id)
  | .timeoutLock id =>
    if s.pendingMutex = none then some ({ s with pendingMutex := some t }, .timeoutErase id)
    else none
  | .timeoutErase id => some ({ s with promises := s.promises.erase id }, .timeoutUnlock id)
  | .timeoutUnlock id => some ({ s with pendingMutex := none }, .returned id (.failed .timedOut))
  | .get id =>
    match s.promises.promise t with
    | .unset => none
    | .value st => some (s, .returned id (.answered st))
    | .broken => some (s, .returned id .brokenPromise)
  | .returned _ _ => none

/-- `CommandDispatcher::fulfill`. -/
def fulfill (t : Tid) (s : Shared) : FulfillPc → Option (Shared × FulfillPc)
  | .lock id st =>
    if s.pendingMutex = none then some ({ s with pendingMutex := some t }, .body id st) else none
  | .body id st =>
    match s.promises.pending id with
    | none => some (s, .unlock id st none)
    | some u =>
      match s.promises.setValue u st with
      | some m => some ({ s with promises := m.erase id }, .unlock id st (some u))
      -- `set_value` throws `promise_already_satisfied`
      | none => some (s, .unwind id st)
  | .unlock id st owner => some ({ s with pendingMutex := none }, .returned id st owner)
  | .unwind id st => some ({ s with pendingMutex := none }, .threw id st)
  | .returned _ _ _ => none
  | .threw _ _ => none

/-- `BridgeServiceImpl::StreamCommands` with `CommandDispatcher::registerWriter` inlined. The last
step leaves the scope of `token`: the destructor, of `token` itself or of an object that it has been
moved to, is a `destroyToken` of its own, and the call returns when it has released the registration. -/
def streamCommands (i : Choice) (t : Tid) (s : Shared) : StreamPc → Option (Shared × StreamPc)
  | .lock w =>
    if s.writerMutex = none then some ({ s with writerMutex := some t }, .register w) else none
  | .register w =>
    some ({ s with
      activeWriter := some w
      hist := { s.hist with registrations := t :: s.hist.registrations } }, .unlock w)
  | .unlock w => some ({ s with writerMutex := none }, .construct w)
  | .construct w =>
    match i with
    | .object k =>
      if s.tokens k = none then
        some ({ s with tokens := Function.update s.tokens k (some ⟨true, w, t⟩) }, .serving w)
      else none
    | _ => none
  | .serving w =>
    if s.released t then
      some ({ s with live := Function.update s.live w none }, .returned w)
    else none
  | .returned _ => none

/-- The token moved from: `other.dispatcher_ = nullptr`. -/
def StreamToken.disarm (x : StreamToken) : StreamToken := { x with dispatcher := false }

/-- Moves the token in `src` to `dst`. -/
def Shared.moveToken (s : Shared) (dst src : Object) (x : StreamToken) : Shared :=
  { s with tokens := Function.update (Function.update s.tokens src (some x.disarm)) dst (some x) }

/-- `StreamToken::release`, and what follows it in the destructor and in the move assignment. -/
def release (t : Tid) (s : Shared) : TokenPc → Option (Shared × TokenPc)
  | .check k a =>
    match s.tokens k with
    | none => none
    | some x => some (s, if x.dispatcher then .lock k a else .finish k a)
  | .lock k a =>
    if s.writerMutex = none then some ({ s with writerMutex := some t }, .body k a) else none
  | .body k a =>
    match s.tokens k with
    | none => none
    | some x =>
      some ({ s with
        activeWriter := if s.activeWriter = some x.writer then none else s.activeWriter
        tokens := Function.update s.tokens k (some x.disarm)
        released := Function.update s.released x.stream true },
        .unlock k a)
  | .unlock k a => some ({ s with writerMutex := none }, .finish k a)
  | .finish k .destroy =>
    some ({ s with
      tokens := Function.update s.tokens k none
      inUse := Function.update s.inUse k none }, .done)
  | .finish k (.assign src) =>
    match s.tokens src with
    | none => none
    | some x =>
      some ({ s.moveToken k src x with
        inUse := Function.update (Function.update s.inUse k none) src none }, .done)
  | .done => none

/-- The first statement of a call. A new `StreamCommands` call has a writer at an address where no
other writer lives. -/
def start (t : Tid) (s : Shared) : Call → Option (Shared × Pc)
  | .dispatch req =>
    some ({ s with
      nextId := s.nextId + 1
      hist := { s.hist with dispatches := s.hist.dispatches + 1 } },
      .dispatch (.lockPending { req with commandId := s.nextId }))
  | .fulfill id st => some (s, .fulfill (.lock id st))
  | .streamCommands w =>
    if s.live w = none then
      some ({ s with live := Function.update s.live w (some t) }, .stream (.lock w))
    else none
  | .moveToken dst src =>
    match s.tokens src with
    | none => none
    | some x =>
      if s.tokens dst = none ∧ s.inUse src = none then
        some (s.moveToken dst src x, .token .done)
      else none
  | .assignToken dst src =>
    if s.tokens dst ≠ none ∧ s.tokens src ≠ none ∧ s.inUse dst = none ∧ s.inUse src = none then
      -- `this != &other`
      if dst = src then some (s, .token .done)
      else
        some ({ s with inUse := Function.update (Function.update s.inUse dst (some t)) src (some t) },
          .token (.check dst (.assign src)))
    else none
  | .destroyToken k =>
    if s.tokens k ≠ none ∧ s.inUse k = none then
      some ({ s with inUse := Function.update s.inUse k (some t) }, .token (.check k .destroy))
    else none

/-- The program of every thread. -/
def next (i : Choice) (t : Tid) (s : Shared) : Pc → Option (Shared × Pc)
  | .idle =>
    match i with
    | .call c => start t s c
    | _ => none
  | .dispatch p => (dispatch i t s p).map (Prod.map id .dispatch)
  | .fulfill p => (fulfill t s p).map (Prod.map id .fulfill)
  | .stream p => (streamCommands i t s p).map (Prod.map id .stream)
  | .token p => (release t s p).map (Prod.map id .token)

/-- A bridge process: its dispatcher and the calls running in it. -/
abbrev Process := Conf Tid Shared Pc

/-- A fresh bridge process. -/
def Process.init : Process := ⟨{}, fun _ => .idle⟩

/-- A step of a bridge process. -/
abbrev Process.step : Process → Tid × Choice → Option Process := Conf.step next

/-- `toCommandStatus`. -/
def toCommandStatus : CommandResultStatus → CommandStatus
  | .success => .success
  | .timeout => .timeout
  | .noSelect => .noSelect
  | .formatError => .formatError
  | .notSupported => .notSupported
  | .alreadyActive => .alreadyActive
  | .hardwareError => .hardwareError
  | .local => .local
  | .tooManyOps => .tooManyOps
  | .notAuthorized => .notAuthorized
  | .downstreamFail => .downstreamFail
  | .unrecognized _ => .undefined

/-- `BridgeServiceImpl::RespondToCommand`: the call of `fulfill` it makes. -/
def respondToCommand (r : CommandResponse) : Call :=
  .fulfill r.commandId (toCommandStatus r.status)

/-- `BridgeServiceImpl::RespondToCommand`: the answer to the client, from the result of `fulfill`. -/
def respondToCommandResponse (ok : Bool) : UpdateResponse :=
  ⟨ok, if ok then "fulfilled" else "unknown command_id"⟩

end Dnp3Bridge.Dispatcher
