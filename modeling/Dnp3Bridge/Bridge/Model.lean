import Dnp3Bridge.Bridge.DataModel
import Dnp3Bridge.Concurrency.Threads

/-!
# The update queue

The code of `bridge/Bridge.cpp`, one program counter per statement, with the mutex and the condition
variable explicit. The threads are the callers of `applyUpdate`, each of which makes a list of calls
(as `UpdatePoints` does, one for every point); the flush threads, of which `start` creates one after
the other; and the one thread that calls `start` and `stop`.

`cv_.wait` parks a flush thread in the same step in which it gives the mutex back, and a parked thread
goes on when a notify has taken it off the list of waiters, or spuriously. The wake-up of `notify_one`
goes to a thread of the environment's choice.
-/

namespace Dnp3Bridge.Bridge
open Concurrency

/-- A thread. -/
inductive Thread where
  | caller (n : Nat)
  | flush (n : Nat)
  | control
  deriving DecidableEq

/-- An entry of `queue_`; the caller that pushed it is not part of it. -/
structure Entry where
  update : PointUpdate
  caller : Nat
  deriving DecidableEq

/-- What has happened so far, for statements about runs; no step reads it. -/
structure History where
  /-- The updates each caller was called with. -/
  requests : Nat → List PointUpdate := fun _ => []
  /-- Everything pushed so far, in the order in which `applyUpdate` took the mutex. -/
  pushed : List Entry := []
  /-- The batches swapped out so far. -/
  batches : List (List Entry) := []
  /-- Everything handed to the `OutstationManager` so far. -/
  handed : List Entry := []

/-- The members of `Bridge`, and what is behind its thread and its condition variable:
`flushThread` is `flush_thread_` while that is joinable, `spawned` counts the threads created,
`finished` says which of them have ended, and `waiters` are the threads parked in `cv_.wait`. -/
structure Shared where
  mutex : Option Thread := none
  queue : List Entry := []
  running : Bool := false
  waiters : List Nat := []
  flushThread : Option Nat := none
  spawned : Nat := 0
  finished : Nat → Bool := fun _ => false
  hist : History := {}

/-- The program counter of a thread that calls `applyUpdate` for `u`, and then for all of `us`. -/
inductive CallerPc where
  | idle
  | lock (u : PointUpdate) (us : List PointUpdate)
  | push (u : PointUpdate) (us : List PointUpdate)
  | unlock (us : List PointUpdate)
  | notify (us : List PointUpdate)
  | done
  deriving DecidableEq

/-- The program counter of `flushLoop`. -/
inductive FlushPc where
  | unborn
  | lock
  | test
  | parked
  | wake
  | check
  | swap
  | unlock (batch : List Entry)
  | drain (batch : List Entry)
  | exit
  | ending
  | finished
  deriving DecidableEq

/-- The program counter of the thread that calls `start` and `stop`. From the moment a `stop` has
cleared `running_` it carries the number of updates pushed before that, which no step reads. -/
inductive ControlPc where
  | idle
  | startLock
  | startCheck
  | startFound
  | startUnlock
  | spawn
  | assign (n : Nat)
  | stopLock
  | stopCheck
  | stopFound
  | stopUnlock (mark : Nat)
  | notifyAll (mark : Nat)
  | join (mark : Nat)
  | stopped (mark : Nat)
  deriving DecidableEq

/-- The program counter of a thread. -/
inductive Pc where
  | caller (p : CallerPc)
  | flush (p : FlushPc)
  | control (p : ControlPc)
  deriving DecidableEq

/-- What the environment decides about a step. -/
inductive Choice where
  | apply (us : List PointUpdate)
  | start
  | stop
  | go
  | notified (n : Nat)
  | spurious
  deriving DecidableEq

/-- The next call of `applyUpdate`, if there is one. -/
def CallerPc.next : List PointUpdate → CallerPc
  | [] => .done
  | u :: us => .lock u us

/-- `cv_.notify_one`: the waiters that are left. -/
def notifyOne (i : Choice) (waiters : List Nat) : Option (List Nat) :=
  match waiters, i with
  | [], _ => some []
  | _, .notified n => if n ∈ waiters then some (waiters.erase n) else none
  | _, _ => none

/-- `Bridge::applyUpdate`, called by thread `n`. -/
def applyUpdate (i : Choice) (n : Nat) (s : Shared) : CallerPc → Option (Shared × CallerPc)
  | .idle =>
    match i with
    | .apply us =>
      some ({ s with hist := { s.hist with requests := Function.update s.hist.requests n us } },
        .next us)
    | _ => none
  | .lock u us =>
    if s.mutex = none then some ({ s with mutex := some (.caller n) }, .push u us) else none
  | .push u us =>
    some ({ s with
      queue := s.queue ++ [⟨u, n⟩]
      hist := { s.hist with pushed := s.hist.pushed ++ [⟨u, n⟩] } }, .unlock us)
  | .unlock us => some ({ s with mutex := none }, .notify us)
  | .notify us => (notifyOne i s.waiters).map fun ws => ({ s with waiters := ws }, .next us)
  | .done => none

/-- `Bridge::flushLoop`, run by the flush thread `n`. -/
def flushLoop (i : Choice) (n : Nat) (s : Shared) : FlushPc → Option (Shared × FlushPc)
  | .unborn => if n < s.spawned then some (s, .lock) else none
  | .lock => if s.mutex = none then some ({ s with mutex := some (.flush n) }, .test) else none
  | .test =>
    if s.queue ≠ [] ∨ s.running = false then some (s, .check)
    else some ({ s with mutex := none, waiters := n :: s.waiters }, .parked)
  | .parked =>
    if n ∈ s.waiters then
      match i with
      | .spurious => some ({ s with waiters := s.waiters.erase n }, .wake)
      | _ => none
    else some (s, .wake)
  | .wake => if s.mutex = none then some ({ s with mutex := some (.flush n) }, .test) else none
  | .check => if s.running = false ∧ s.queue = [] then some (s, .exit) else some (s, .swap)
  | .swap =>
    some ({ s with
      queue := []
      hist := { s.hist with batches := s.hist.batches ++ [s.queue] } }, .unlock s.queue)
  | .unlock batch => some ({ s with mutex := none }, .drain batch)
  | .drain [] => some (s, .lock)
  | .drain (u :: batch) =>
    some ({ s with hist := { s.hist with handed := s.hist.handed ++ [u] } }, .drain batch)
  | .exit => some ({ s with mutex := none }, .ending)
  | .ending => some ({ s with finished := Function.update s.finished n true }, .finished)
  | .finished => none

/-- `Bridge::start` and `Bridge::stop`. The move assignment to `flush_thread_` joins the thread that
is there, if any. -/
def startStop (i : Choice) (s : Shared) : ControlPc → Option (Shared × ControlPc)
  | .idle | .stopped _ =>
    match i with
    | .start => some (s, .startLock)
    | .stop => some (s, .stopLock)
    | _ => none
  | .startLock =>
    if s.mutex = none then some ({ s with mutex := some .control }, .startCheck) else none
  | .startCheck =>
    if s.running then some (s, .startFound) else some ({ s with running := true }, .startUnlock)
  | .startFound => some ({ s with mutex := none }, .idle)
  | .startUnlock => some ({ s with mutex := none }, .spawn)
  | .spawn => some ({ s with spawned := s.spawned + 1 }, .assign s.spawned)
  | .assign n =>
    match s.flushThread with
    | none => some ({ s with flushThread := some n }, .idle)
    | some m => if s.finished m then some ({ s with flushThread := some n }, .idle) else none
  | .stopLock =>
    if s.mutex = none then some ({ s with mutex := some .control }, .stopCheck) else none
  | .stopCheck =>
    if s.running then some ({ s with running := false }, .stopUnlock s.hist.pushed.length)
    else some (s, .stopFound)
  | .stopFound => some ({ s with mutex := none }, .idle)
  | .stopUnlock mark => some ({ s with mutex := none }, .notifyAll mark)
  | .notifyAll mark => some ({ s with waiters := [] }, .join mark)
  | .join mark =>
    match s.flushThread with
    | none => some (s, .stopped mark)
    | some m => if s.finished m then some ({ s with flushThread := none }, .stopped mark) else none

/-- The program of every thread. -/
def next (i : Choice) (t : Thread) (s : Shared) (p : Pc) : Option (Shared × Pc) :=
  match t, p with
  | .caller n, .caller p => (applyUpdate i n s p).map (Prod.map id .caller)
  | .flush n, .flush p => (flushLoop i n s p).map (Prod.map id .flush)
  | .control, .control p => (startStop i s p).map (Prod.map id .control)
  | _, _ => none

/-- The `Bridge` and its threads. -/
abbrev System := Conf Thread Shared Pc

/-- A new `Bridge`: no call has been made and no flush thread exists. -/
def System.init : System where
  shared := {}
  pc
    | .caller _ => .caller .idle
    | .flush _ => .flush .unborn
    | .control => .control .idle

/-- A step of the `Bridge`. -/
abbrev System.step : System → Thread × Choice → Option System := Conf.step next

end Dnp3Bridge.Bridge
