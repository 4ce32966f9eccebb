import Dnp3Bridge.Main.RealTime

/-!
# What `GetStatus` tells

The process with the two atomics that `GetStatus` reads. `connected_` is written by the listener of the
channel, from when `start` adds the server to when `Shutdown` of the manager returns, and by the first
statement of `shutdown`; `last_update_ms_` by the handlers of `UpdatePoints`, each of which first pushes
its updates, then reads the clock, then stores what it has read. Handlers that overlap may store in
another order than they have read the clock in.
-/

namespace Dnp3Bridge.Main
open Bridge Concurrency Config Grpc Outstation Proto

/-- `opendnp3::ChannelState`. -/
inductive ChannelState where
  | closed
  | opening
  | open
  | shutdown
  deriving DecidableEq

/-- The next statement of `shutdown`: `connected_ = false`, `outstation_.reset()`, or the rest, which
ends with `manager_->Shutdown()`. -/
inductive ShutdownPc where
  | clear
  | reset
  | manager
  deriving DecidableEq

/-- `manager` says that there is a `manager_`. `clock` is the system clock in milliseconds, `nowMs` what
each handler has read of it, and `stores` the handlers that have stored it, in this order. -/
structure Service where
  app : App
  manager : Bool := false
  shutdownPc : ShutdownPc := .clear
  connected : Bool := false
  lastUpdateMs : UInt64 := 0
  clock : UInt64 := 0
  nowMs : Nat → Option UInt64 := fun _ => none
  stores : List Nat := []

def Service.init (fresh : FreshPoints) (cfg : AppConfig) : Service where
  app := .init fresh cfg

/-- What happens next: a step of the process, the statement of `start` that adds the server with its
listener, the first or the last statement of `shutdown`, a notification of the channel, time that
passes, or one of the two statements at the end of a handler. -/
inductive ServiceAction where
  | app (a : Action)
  | addServer
  | clearConnected
  | shutdownManager
  | stateChange (state : ChannelState)
  | tick (now : UInt64)
  | readClock (n : Nat)
  | store (n : Nat)
  deriving DecidableEq

/-- `main` is in `shutdown`, before or after its first statement. -/
def MainPc.inShutdown : MainPc → Bool
  | .shutdownOutstation | .destroyOutstation => true
  | _ => false

/-- Where `shutdown` has to be for the next step of `main`: a step of the process inside it is
`outstation_.reset()`, and any other one comes after it has returned. -/
def MainPc.shutdownPc (p : MainPc) : ShutdownPc :=
  if p.inShutdown then .reset else .clear

/-- A handler answers when it has stored the time, and `main` does one statement after the other. -/
def Service.MayStep (c : Service) : Action → Prop
  | .reply n => n ∈ c.stores
  | .main => c.shutdownPc = c.app.main.shutdownPc ∧ (c.app.main = .startOutstation → c.manager = true)
  | _ => True

instance (c : Service) : ∀ a, Decidable (c.MayStep a)
  | .reply n => inferInstanceAs (Decidable (n ∈ c.stores))
  | .main => inferInstanceAs (Decidable (_ ∧ _))
  | .signal | .thread _ | .call .. | .handler .. | .flush .. => isTrue trivial

/-- The next statement of `shutdown` after a step of the process. -/
def Service.shutdownAfter (c : Service) (a : Action) : ShutdownPc :=
  if a = .main ∧ c.app.main.inShutdown then .manager else c.shutdownPc

/-- A step of the process with its service; `OnStateChange` is called while there is a manager. -/
def Service.step (c : Service) : ServiceAction → Option Service
  | .app a =>
    if c.MayStep a then
      (c.app.step a).map fun app => { c with app, shutdownPc := c.shutdownAfter a }
    else none
  | .addServer =>
    if c.app.main = .startOutstation then some { c with manager := true } else none
  | .clearConnected =>
    if c.app.main.inShutdown ∧ c.shutdownPc = .clear then
      some { c with connected := false, shutdownPc := .reset }
    else none
  | .shutdownManager =>
    if c.shutdownPc = .manager then some { c with manager := false, shutdownPc := .clear } else none
  | .stateChange state =>
    if c.manager then some { c with connected := decide (state = .open) } else none
  | .tick now => some { c with clock := now }
  | .readClock n =>
    if n ∈ c.app.calls.map Prod.fst ∧ c.app.bridge.callerPc n = .done ∧ c.nowMs n = none then
      some { c with nowMs := Function.update c.nowMs n (some c.clock) }
    else none
  | .store n =>
    match c.nowMs n with
    | some now =>
      if n ∈ c.stores then none
      else some { c with lastUpdateMs := now, stores := c.stores ++ [n] }
    | none => none

/-- `BridgeServiceImpl::GetStatus`: `connected_` is loaded in one state and `last_update_ms_` in a later
one. -/
def getStatus (c c' : Service) : StatusResponse :=
  ⟨if c.connected then .connected else .disconnected, c'.lastUpdateMs⟩

/-- The clock does not go back. -/
def Forward (c : Service) : ServiceAction → Prop
  | .tick now => c.clock ≤ now
  | _ => True

instance (c : Service) : ∀ a, Decidable (Forward c a)
  | .tick now => inferInstanceAs (Decidable (c.clock ≤ now))
  | .app _ | .addServer | .clearConnected | .shutdownManager | .stateChange _ | .readClock _
  | .store _ => isTrue trivial

/-- The kinds of steps. -/
inductive Service.Moves (c : Service) : ServiceAction → Service → Prop where
  | app {a app} :
    c.MayStep a →
    c.app.step a = some app →
    c.Moves (.app a) { c with app, shutdownPc := c.shutdownAfter a }
  | addServer :
    c.app.main = .startOutstation →
    c.Moves .addServer { c with manager := true }
  | clearConnected :
    c.app.main.inShutdown = true →
    c.shutdownPc = .clear →
    c.Moves .clearConnected { c with connected := false, shutdownPc := .reset }
  | shutdownManager :
    c.shutdownPc = .manager →
    c.Moves .shutdownManager { c with manager := false, shutdownPc := .clear }
  | stateChange {state} :
    c.manager = true →
    c.Moves (.stateChange state) { c with connected := decide (state = .open) }
  | tick {now} :
    c.Moves (.tick now) { c with clock := now }
  | readClock {n} :
    n ∈ c.app.calls.map Prod.fst →
    c.app.bridge.callerPc n = .done →
    c.nowMs n = none →
    c.Moves (.readClock n) { c with nowMs := Function.update c.nowMs n (some c.clock) }
  | store {n now} :
    c.nowMs n = some now →
    n ∉ c.stores →
    c.Moves (.store n) { c with lastUpdateMs := now, stores := c.stores ++ [n] }

/-- Inversion for a step. -/
theorem Service.step_moves {c c' : Service} {a} (st : c.step a = some c') : c.Moves a c' := by
  cases a with
  | app a =>
    obtain ⟨may, st⟩ := Option.ite_none_right_eq_some.mp st
    obtain ⟨app, mv, rfl⟩ := Option.map_eq_some_iff.mp st
    exact .app may mv
  | addServer =>
    obtain ⟨pc, e⟩ := Option.ite_none_right_eq_some.mp st
    cases e
    exact .addServer pc
  | clearConnected =>
    obtain ⟨⟨inside, first⟩, e⟩ := Option.ite_none_right_eq_some.mp st
    cases e
    exact .clearConnected inside first
  | shutdownManager =>
    obtain ⟨last, e⟩ := Option.ite_none_right_eq_some.mp st
    cases e
    exact .shutdownManager last
  | stateChange state =>
    obtain ⟨up, e⟩ := Option.ite_none_right_eq_some.mp st
    cases e
    exact .stateChange up
  | tick now =>
    cases st
    exact .tick
  | readClock n =>
    obtain ⟨⟨call, done, unread⟩, e⟩ := Option.ite_none_right_eq_some.mp st
    cases e
    exact .readClock call done unread
  | store n =>
    rw [step] at st
    split at st
    case h_1 now read =>
      obtain ⟨fresh, e⟩ := Option.ite_none_left_eq_some.mp st
      cases e
      exact .store read fresh
    case h_2 => cases st

/-- A run of the process with its service is one of the process. -/
lemma Service.app_run {C fresh cfg as c} (run : Run Service.step C (.init fresh cfg) as c) :
    ∃ bs, Run App.step Always (.init fresh cfg) bs c.app := by
  refine run.project (f := Service.app) fun c a c' _ st => ?_
  cases step_moves st with
  | app _ mv => exact .inr ⟨_, trivial, mv⟩
  | _ => exact .inl rfl

/-- When the handler `n` has stored its time, the handler `k` had read its own and had not stored it. -/
def Overlaps (fresh : FreshPoints) (cfg : AppConfig) (as : List ServiceAction) (n k : Nat) : Prop :=
  ∃ bs cs d, as = bs ++ .store n :: cs ∧ Run Service.step Forward (.init fresh cfg) bs d ∧
    d.nowMs k ≠ none ∧ k ∉ d.stores

/-- What has overlapped has overlapped for ever. -/
lemma Overlaps.append {fresh cfg as n k} (overlap : Overlaps fresh cfg as n k)
    (bs : List ServiceAction) : Overlaps fresh cfg (as ++ bs) n k := by
  obtain ⟨before, after, d, rfl, run, pending⟩ := overlap
  exact ⟨before, after ++ bs, d, List.append_assoc .., run, pending⟩

/-- What the times that the handlers have read have to do with the one stored last. -/
structure Service.Timed (fresh : FreshPoints) (cfg : AppConfig) (as : List ServiceAction)
    (c : Service) : Prop where
  past : ∀ {n r}, c.nowMs n = some r → r ≤ c.clock
  read : ∀ {n}, n ∈ c.stores → c.nowMs n ≠ none
  last : (c.stores = [] ∧ c.lastUpdateMs = 0) ∨
    ∃ k, c.stores.getLast? = some k ∧ c.nowMs k = some c.lastUpdateMs
  pending : ∀ {n k rn rk}, n ∈ c.stores → k ∉ c.stores → c.nowMs n = some rn → c.nowMs k = some rk →
    rn ≤ rk ∨ Overlaps fresh cfg as n k
  shown : ∀ {n r}, n ∈ c.stores → c.nowMs n = some r → r ≤ c.lastUpdateMs ∨
    ∃ k, c.stores.getLast? = some k ∧ Overlaps fresh cfg as n k

/-- A step that leaves the handlers' times alone. -/
lemma Service.Timed.keep {fresh cfg as a} {c c' : Service} (inv : c.Timed fresh cfg as)
    (clock : c.clock ≤ c'.clock) (last : c'.lastUpdateMs = c.lastUpdateMs) (nowMs : c'.nowMs = c.nowMs)
    (stores : c'.stores = c.stores) : c'.Timed fresh cfg (as ++ [a]) := by
  refine ⟨fun read => ?_, ?_, ?_, fun stored unstored hn hk => ?_, fun stored read => ?_⟩
  · rw [nowMs] at read
    exact UInt64.le_trans (inv.past read) clock
  · rw [nowMs, stores]
    exact inv.read
  · rw [stores, last, nowMs]
    exact inv.last
  · rw [stores] at stored unstored
    rw [nowMs] at hn hk
    exact (inv.pending stored unstored hn hk).imp_right fun overlap => overlap.append _
  · rw [stores] at stored ⊢
    rw [nowMs] at read
    rw [last]
    refine (inv.shown stored read).imp_right fun late => ?_
    obtain ⟨k, newest, overlap⟩ := late
    exact ⟨k, newest, overlap.append _⟩

/-- What a step preserves. -/
lemma Service.Timed.step {fresh cfg as a} {c c' : Service} (inv : c.Timed fresh cfg as)
    (run : Run Service.step Forward (.init fresh cfg) as c) (forward : Forward c a)
    (st : c.step a = some c') : c'.Timed fresh cfg (as ++ [a]) := by
  cases step_moves st with
  | app | addServer | clearConnected | shutdownManager | stateChange =>
    exact inv.keep (UInt64.le_refl _) rfl rfl rfl
  | tick => exact inv.keep forward rfl rfl rfl
  | @readClock m call done unread =>
    -- what has been read before is not later than what is read now
    have other : ∀ {n r}, Function.update c.nowMs m (some c.clock) n = some r →
        (n = m ∧ r = c.clock) ∨ c.nowMs n = some r := by
      intro n r read
      rcases eq_or_ne n m with rfl | ne
      · rw [Function.update_self] at read
        exact .inl ⟨rfl, (Option.some.inj read).symm⟩
      · rw [Function.update_of_ne ne] at read
        exact .inr read
    have stored_before : ∀ {n}, n ∈ c.stores → n ≠ m := by
      intro n stored e
      exact inv.read stored (e ▸ unread)
    refine ⟨fun read => ?_, fun {n} stored => ?_, ?_, fun {n k rn rk} stored unstored hn hk => ?_,
      fun {n r} stored read => ?_⟩
    · obtain ⟨-, rfl⟩ | old := other read
      · exact UInt64.le_refl _
      · exact inv.past old
    · show Function.update c.nowMs m (some c.clock) n ≠ none
      rw [Function.update_of_ne (stored_before stored)]
      exact inv.read stored
    · refine inv.last.imp_right fun newest => ?_
      obtain ⟨k, newest, read⟩ := newest
      refine ⟨k, newest, ?_⟩
      show Function.update c.nowMs m (some c.clock) k = _
      rwa [Function.update_of_ne (stored_before (List.mem_of_getLast? newest))]
    · have hn : c.nowMs n = some rn := (other hn).resolve_left fun e => stored_before stored e.1
      obtain ⟨-, rfl⟩ | old := other hk
      · exact .inl (inv.past hn)
      · exact (inv.pending stored unstored hn old).imp_right fun overlap => overlap.append _
    · have read : c.nowMs n = some r := (other read).resolve_left fun e => stored_before stored e.1
      refine (inv.shown stored read).imp_right fun late => ?_
      obtain ⟨k, newest, overlap⟩ := late
      exact ⟨k, newest, overlap.append _⟩
  | @store m now read fresh =>
    refine ⟨inv.past, fun {n} stored => ?_, .inr ⟨m, List.getLast?_concat, read⟩,
      fun {n k rn rk} stored unstored hn hk => ?_, fun {n r} stored hn => ?_⟩
    · rcases List.mem_append.mp stored with old | new
      · exact inv.read old
      · rw [List.mem_singleton.mp new]
        show c.nowMs m ≠ none
        rw [read]
        exact Option.some_ne_none _
    · have unstored' : k ∉ c.stores := fun mem => unstored (List.mem_append_left _ mem)
      rcases List.mem_append.mp stored with old | new
      · exact (inv.pending old unstored' hn hk).imp_right fun overlap => overlap.append _
      · -- the handler `k` is between its two statements now
        refine .inr ⟨as, [], c, by rw [List.mem_singleton.mp new], run, ?_, unstored'⟩
        rw [hk]
        exact Option.some_ne_none _
    · rcases List.mem_append.mp stored with old | new
      · obtain earlier | overlap := inv.pending old fresh hn read
        · exact .inl earlier
        · exact .inr ⟨m, List.getLast?_concat, overlap.append _⟩
      · obtain rfl := List.mem_singleton.mp new
        cases read.symm.trans hn
        exact .inl (UInt64.le_refl _)

/-- What a run preserves. -/
lemma Service.timed {fresh cfg as c} (run : Run Service.step Forward (.init fresh cfg) as c) :
    c.Timed fresh cfg as :=
  run.history (fun _ _ _ _ before inv forward st => inv.step before forward st)
    ⟨nofun, nofun, .inl ⟨rfl, rfl⟩, nofun, nofun⟩

/-- A caller that is done makes no further step. -/
lemma done_stays {b b' : System} {a} (st : b.step a = some b') {n} (done : b.callerPc n = .done) :
    b'.callerPc n = .done := by
  cases System.step_moves st with
  | @caller m _ _ st callers =>
    rw [callers]
    rcases eq_or_ne n m with rfl | ne
    · rw [done] at st
      exact absurd rfl (st.in_call nofun).2.1
    · rwa [Function.update_of_ne ne]
  | flush _ _ callers | control _ _ callers => rwa [callers]

/-- A handler reads the clock when it has pushed everything, and answers when it has stored the time. -/
structure Service.Handled (c : Service) : Prop where
  done : ∀ {n}, c.nowMs n ≠ none → c.app.bridge.callerPc n = .done
  stored : ∀ {n request}, (n, request) ∈ c.app.answered → n ∈ c.stores

/-- What a step preserves. -/
lemma Service.Handled.step {c c' : Service} {a} (inv : c.Handled) (st : c.step a = some c') :
    c'.Handled := by
  cases step_moves st with
  | @app a app may mv =>
    refine ⟨fun read => ?_, fun {n request} answered => ?_⟩
    · show app.bridge.callerPc _ = .done
      obtain same | ⟨b, mv⟩ := c.app.step_bridge mv
      · rw [same]
        exact inv.done read
      · exact done_stays mv (inv.done read)
    · cases App.step_moves mv with
      | reply =>
        rcases List.mem_cons.mp answered with e | old
        · cases e
          exact may
        · exact inv.stored old
      | main st => cases st <;> exact inv.stored answered
      | _ => exact inv.stored answered
  | @readClock m call done unread =>
    refine ⟨fun {n} read => ?_, inv.stored⟩
    rcases eq_or_ne n m with rfl | ne
    · exact done
    · refine inv.done (n := n) ?_
      have read : Function.update c.nowMs m (some c.clock) n ≠ none := read
      rwa [Function.update_of_ne ne] at read
  | store => exact ⟨inv.done, fun answered => List.mem_append_left _ (inv.stored answered)⟩
  | _ => exact ⟨inv.done, inv.stored⟩

/-- `main` is after the start of the outstation and before its shutdown. -/
def MainPc.up : MainPc → Bool
  | .startOutstation | .join | .destroyServer _ | .destroyBridge | .destroyingBridge
  | .destroyOutstation | .returned => false
  | _ => true

/-- The outstation is there exactly between `start` and `shutdown`. -/
lemma App.up_iff {C fresh cfg as c} (run : Run App.step C (.init fresh cfg) as c) :
    c.outstation.outstation ≠ none ↔ c.main.up = true := by
  have started := OutstationManager.visitAll_outstation
    (OutstationManager.start_outstation (.create fresh cfg)) c.handed
  rw [(App.mirrored run).outstation]
  cases c.main with
  | startOutstation | join | destroyServer | destroyBridge | destroyingBridge | destroyOutstation
  | returned => exact ⟨fun on => absurd rfl on, nofun⟩
  | _ => exact ⟨fun _ => rfl, fun _ => started⟩

/-- What an action makes of the state that `connected_` stands for: a notification sets it, and
`shutdown` forgets it. -/
def notified : ServiceAction → Option (Option ChannelState)
  | .stateChange state => some (some state)
  | .clearConnected => some none
  | _ => none

/-- The state that has been notified last, if `connected_` has not been cleared since. -/
def lastNotified (as : List ServiceAction) : Option ChannelState :=
  (as.filterMap notified).getLast?.join

/-- Another action keeps it. -/
lemma lastNotified_append {as a} (quiet : notified a = none) :
    lastNotified (as ++ [a]) = lastNotified as := by
  rw [lastNotified, List.filterMap_append, List.filterMap_cons, quiet, List.filterMap_nil,
    List.append_nil, lastNotified]

/-- A notification, or the first statement of `shutdown`, replaces it. -/
lemma lastNotified_concat {as a s} (new : notified a = some s) : lastNotified (as ++ [a]) = s := by
  rw [lastNotified, List.filterMap_append, List.filterMap_cons, new]
  exact congrArg Option.join List.getLast?_concat

/-- `connected_` follows the channel. -/
def Service.Follows (as : List ServiceAction) (c : Service) : Prop :=
  c.connected = true ↔ lastNotified as = some .open

/-- What a step preserves. -/
lemma Service.Follows.step {as a} {c c' : Service} (inv : c.Follows as) (st : c.step a = some c') :
    c'.Follows (as ++ [a]) := by
  unfold Follows at inv ⊢
  cases step_moves st with
  | @stateChange state =>
    rw [lastNotified_concat rfl, Option.some.injEq]
    exact decide_eq_true_iff
  | clearConnected =>
    rw [lastNotified_concat rfl]
    exact ⟨nofun, nofun⟩
  | app | addServer | shutdownManager | tick | readClock | store =>
    rw [lastNotified_append rfl]
    exact inv

/-- `main` is up before and after a step of it, unless the step starts or resets the outstation. -/
lemma MainStep.up_eq {c c' : App} (st : MainStep c c') :
    c'.main ≠ .startOutstation ∧ (c.main.up = false → c.main ≠ .startOutstation → c'.main.up = false) ∧
      (c.main.inShutdown = true → c'.main.up = false) := by
  cases st with
  | shutdownOutstation | destroyOutstation => exact ⟨nofun, fun _ _ => rfl, fun _ => rfl⟩
  | startOutstation pc =>
    refine ⟨nofun, fun _ later => absurd pc later, fun inside => ?_⟩
    rw [pc] at inside
    cases inside
  | inBridge after | fromBridge after =>
    obtain ⟨requested, server, thread, main, bridge, outstation, calls, answered⟩ := c
    cases main with
    | startingBridge | stoppingBridge =>
      cases after
      exact ⟨nofun, nofun, nofun⟩
    | destroyingBridge =>
      cases after
      exact ⟨nofun, fun _ _ => rfl, nofun⟩
    | _ => cases after
  | startBridge pc | spawn pc | sleep pc | requested pc | found pc | overlooked pc | shutdown pc
  | processed pc | stopBridge pc =>
    rw [pc]
    exact ⟨nofun, nofun, nofun⟩
  | join pc | foundAgain pc | noServer pc | shutdownAgain pc | destroyBridge pc =>
    rw [pc]
    exact ⟨nofun, fun _ _ => rfl, nofun⟩

/-- If `shutdown` has cleared `connected_`, it is under way, or there is no outstation any more. -/
def Service.ClearedLate (as : List ServiceAction) (c : Service) : Prop :=
  .clearConnected ∈ as → (c.app.main.inShutdown = true ∧ c.shutdownPc = .reset) ∨
    (c.app.main.up = false ∧ c.app.main ≠ .startOutstation)

/-- What a step preserves. -/
lemma Service.ClearedLate.step {as a} {c c' : Service} (inv : c.ClearedLate as)
    (st : c.step a = some c') : c'.ClearedLate (as ++ [a]) := by
  have before : ∀ {b}, .clearConnected ∈ as ++ [b] → b ≠ .clearConnected → .clearConnected ∈ as := by
    intro b mem ne
    exact (List.mem_append.mp mem).resolve_right fun new => ne (List.mem_singleton.mp new).symm
  cases step_moves st with
  | @app a app _ mv =>
    intro mem
    cases App.step_moves mv with
    | main st =>
      obtain ⟨later, down, reset⟩ := st.up_eq
      obtain ⟨inside, -⟩ | ⟨out, started⟩ := inv (before mem nofun)
      · exact .inr ⟨reset inside, later⟩
      · exact .inr ⟨down out started, later⟩
    | _ => exact inv (before mem nofun)
  | clearConnected inside => exact fun _ => .inl ⟨inside, rfl⟩
  | shutdownManager last =>
    intro mem
    refine (inv (before mem nofun)).imp_left fun early => ?_
    cases last.symm.trans early.2
  | addServer | stateChange | tick | readClock | store => exact fun mem => inv (before mem nofun)

/-- If the clock does not go back, `GetStatus` reports a connection exactly if the channel was open at
the last notification since `connected_` was last cleared, which `shutdown` does before it resets the
outstation, and nothing else does. The timestamp is 0 if no request has been answered, or it is what the
handler of a request has read when everything of this request had been pushed; and it is not older than
what the handler of any answered request has read, unless the two handlers were between their reading
and their storing at the same time. -/
theorem status_told {fresh cfg as c bs c'} (run : Run Service.step Forward (.init fresh cfg) as c)
    (later : Run Service.step Forward c bs c') :
    ((getStatus c c').state = .connected ↔ lastNotified as = some .open) ∧
    (c.app.outstation.outstation ≠ none → c.shutdownPc = .clear → .clearConnected ∉ as) ∧
    (((getStatus c c').lastUpdateTimestampMs = 0 ∧ c'.app.answered = []) ∨
      ∃ k request, c'.nowMs k = some (getStatus c c').lastUpdateTimestampMs ∧
        ((k, request) ∈ c'.app.calls ∨ (k, request) ∈ c'.app.answered) ∧
        c'.app.bridge.pushedBy k = (updatePoints request).1 ∧
        ∀ n request', (n, request') ∈ c'.app.answered → ∃ r, c'.nowMs n = some r ∧
          (r ≤ (getStatus c c').lastUpdateTimestampMs ∨ Overlaps fresh cfg (as ++ bs) n k)) := by
  obtain ⟨_, app⟩ := Service.app_run run
  obtain ⟨_, app'⟩ := Service.app_run (run.append later)
  have follows : c.connected = true ↔ lastNotified as = some .open :=
    run.history (I := fun as c => Service.Follows as c) (fun _ _ _ _ _ inv _ st => inv.step st)
      ⟨nofun, nofun⟩
  have late : c.ClearedLate as := run.history (fun _ _ _ _ _ inv _ st => inv.step st) nofun
  have handled : c'.Handled :=
    (run.append later).invariant (fun _ _ _ inv _ st => inv.step st) ⟨fun h => absurd rfl h, nofun⟩
  have timed := Service.timed (run.append later)
  refine ⟨?_, fun up early cleared => ?_, ?_⟩
  · rw [← follows]
    unfold getStatus
    cases c.connected <;> simp
  · obtain ⟨-, begun⟩ | ⟨down, -⟩ := late cleared
    · cases early.symm.trans begun
    · cases down.symm.trans ((App.up_iff app).mp up)
  · obtain ⟨nobody, zero⟩ | ⟨k, newest, shown⟩ := timed.last
    · refine .inl ⟨zero, List.eq_nil_iff_forall_not_mem.mpr fun call answered => ?_⟩
      have stored := handled.stored answered
      rw [nobody] at stored
      cases stored
    · have done : c'.app.bridge.callerPc k = .done := by
        refine handled.done ?_
        rw [shown]
        exact Option.some_ne_none _
      obtain ⟨request, call⟩ := (App.accounted app').known k (by rw [done]; nofun)
      refine .inr ⟨k, request, shown, call, App.done_pushed app' call done, ?_⟩
      intro n request' answered
      have stored := handled.stored answered
      obtain ⟨r, read⟩ := Option.ne_none_iff_exists'.mp (timed.read stored)
      refine ⟨r, read, (timed.shown stored read).imp_right fun late => ?_⟩
      obtain ⟨k', newest', overlap⟩ := late
      cases newest.symm.trans newest'
      exact overlap

/-- A handler reads the clock, and stores the time only after a later one has read it, stored it and
answered. -/
def outOfOrder : List ServiceAction :=
  .addServer :: startUp.map .app ++ [.stateChange .open, .tick 5, .app (.call 0 meterReading)] ++
    List.replicate 4 (.app (.handler 0 .go)) ++
    [.readClock 0, .tick 9, .app (.call 1 nextReading)] ++
    List.replicate 4 (.app (.handler 1 .go)) ++
    [.readClock 1, .store 1, .app (.reply 1), .store 0]

/-- The timestamp has gone back; the two handlers overlap. -/
theorem outOfOrder_told :
    ∃ c, Run Service.step Forward (.init .documented {}) outOfOrder c ∧
      getStatus c c = ⟨.connected, 5⟩ ∧ c.nowMs 1 = some 9 ∧
      lastNotified outOfOrder = some .open ∧ .clearConnected ∉ outOfOrder ∧
      ∃ k, Overlaps .documented {} outOfOrder 1 k := by
  have told : ∀ c, exec (guarded Service.step Forward) (.init .documented {}) outOfOrder = some c →
      getStatus c c = ⟨.connected, 5⟩ → c.nowMs 1 = some 9 → (1, nextReading) ∈ c.app.answered →
      c.app.outstation.outstation ≠ none → c.shutdownPc = .clear →
      lastNotified outOfOrder = some .open ∧ .clearConnected ∉ outOfOrder ∧
        ∃ k, Overlaps .documented {} outOfOrder 1 k := by
    intro c e status read answered up early
    obtain ⟨state, uncleared, stamp⟩ := status_told (Run.of_exec_guarded e) Run.nil
    rw [status, List.append_nil] at stamp
    rw [status] at state
    refine ⟨state.mp rfl, uncleared up early, ?_⟩
    obtain ⟨zero, -⟩ | ⟨k, -, -, -, -, fresh⟩ := stamp
    · exact absurd zero (by decide)
    · obtain ⟨r, read', late | overlap⟩ := fresh 1 nextReading answered
      · cases read.symm.trans read'
        exact absurd late (by decide)
      · exact ⟨k, overlap⟩
  refine ⟨_, Run.of_exec_guarded rfl, rfl, rfl, ?_⟩
  exact told _ rfl rfl rfl List.mem_cons_self (Option.some_ne_none _) rfl

end Dnp3Bridge.Main
