import HiWaveTel.Models
import HiWaveTel.Foundation.Measure

/- The listener for `Messaging.Added` (`dbus_watch.run_modem_added_listener`), from one `await`
   to the next. It resolves the modem, connects to the bus, waits for the interface, attaches
   its handler, starts a recovery task, takes a snapshot and listens until the bus is gone; then
   it starts over. The modem, the bus and the listener take their steps in any order: objects
   come and go, a signal is on its way before the handler runs, and the bus drops before the
   listener notices.

   `listener_misses_nothing` — once the initial snapshot is through and while the subscription
   lasts, every object of the modem has been handed over or its signal is on its way.

   `listener_resources` — one connection at most is open, and one recovery task is alive for it;
   but each exception of an initial snapshot leaves its task behind for good. No connection makes
   more tries for the interface than configured. -/
namespace HiWaveTel
open Foundation

structure ListenerSettings where
  retries : Nat                -- `MODEM_INTF_WAIT_RETRIES`
  recoveryInterval : Int       -- `MODEM_SNAPSHOT_RECOVERY_INTERVAL_SEC`
  initialSnapshot : Bool

def ListenerSettings.recovers (cfg : ListenerSettings) : Bool := decide (0 < cfg.recoveryInterval)

/-- An SMS object: the index of its modem, and its path. -/
abbrev SmsObject := Nat × Str

/-- The `await` at which the listener is. -/
inductive ListenerPhase where
  | resolving
  | ensuring                                       -- `ensure_modem_ready_for_sms`
  | resolvingAgain
  | connecting (modemIndex : Nat)
  | introspecting (modemIndex attempt : Nat) (enableAttempted : Bool)
  | enabling (modemIndex attempt : Nat)            -- `_try_enable_modem`
  | waitingInterface (modemIndex attempt : Nat) (enableAttempted : Bool)
  | snapshot (modemIndex : Nat)                    -- the initial one, before it has the paths
  | enqueuing (modemIndex : Nat) (todo : List Str)
  | listening (modemIndex : Nat) (synced : Bool)   -- whether that snapshot had the paths
  | cancelling (modemIndex : Nat) (clean : Bool)   -- `await recovery_task`
  | resyncing (modemIndex : Nat)                   -- the snapshot after a disconnect
  | reenqueuing (modemIndex : Nat) (todo : List Str)
  | pausing                                        -- `asyncio.sleep(reconnect_after)`
  | stopped                                        -- an exception has left the function
  deriving DecidableEq

/-- `bus` is not None. -/
def ListenerPhase.connected : ListenerPhase → Bool
  | .introspecting _ _ _ | .enabling _ _ | .waitingInterface _ _ _ | .snapshot _ | .enqueuing _ _
  | .listening _ _ | .cancelling _ _ | .resyncing _ | .reenqueuing _ _ => true
  | .resolving | .ensuring | .resolvingAgain | .connecting _ | .pausing | .stopped => false

/-- The modem whose recovery task the listener will cancel. -/
def ListenerPhase.recovering : ListenerPhase → Option Nat
  | .snapshot i | .enqueuing i _ | .listening i _ | .cancelling i _ => some i
  | .resolving | .ensuring | .resolvingAgain | .connecting _ | .introspecting _ _ _
  | .enabling _ _ | .waitingInterface _ _ _ | .resyncing _ | .reenqueuing _ _ | .pausing
  | .stopped => none

structure ListenerState where
  phase : ListenerPhase
  opened : Nat
  closed : Nat
  requested : Option Nat          -- the match rule that the bus has not got yet
  subscribed : Option Nat         -- the modem whose signals the bus delivers
  recovery : List Nat             -- the modems of the recovery tasks that are alive
  objects : List SmsObject        -- what the modems have
  signals : List SmsObject        -- sent, but the handler has not run
  handedOver : List SmsObject     -- `enqueue` was called with these

def ListenerState.start (objects : List SmsObject) : ListenerState :=
  { phase := .resolving, opened := 0, closed := 0, requested := none, subscribed := none,
    recovery := [], objects, signals := [], handedOver := [] }

/-- `list_sms_paths`, at the moment when `mmcli` answers. -/
def ListenerState.pathsOf (s : ListenerState) (modemIndex : Nat) : List Str :=
  (s.objects.filter (fun o => o.1 == modemIndex)).map Prod.snd

/-- The outer `finally`, and the pause after it. -/
def ListenerState.disconnect (s : ListenerState) : ListenerState :=
  { s with phase := .pausing, closed := s.closed + 1, requested := none, subscribed := none,
           signals := [] }

inductive ListenerEvent where
  | resolved (modemIndex : Nat)
  | unresolved                        -- `resolve_modem_mmcli_index` raises `MmcliError`
  | ready
  | connected
  | introspected (hasMessaging : Bool)
  | enabled
  | slept
  | listed                            -- `mmcli` answers with the paths
  | gaveUp                            -- all tries failed, the snapshot returns 0
  | enqueued
  | returned                          -- the snapshot returns
  | raised                            -- an exception at the `await`
  | disconnected (clean : Bool)       -- `wait_for_disconnect` returns, or raises
  | cancelled
  | recovers (k : Nat)                -- a recovery task takes its snapshot
  | matchAdded
  | dropped
  | added (o : SmsObject)
  | deleted (o : SmsObject)
  | signalled                         -- the handler runs

/-- `get_interface` has found the interface: from here to the next `await`. -/
def subscribe (cfg : ListenerSettings) (s : ListenerState) (modemIndex : Nat) : ListenerState :=
  { s with
    requested := some modemIndex
    recovery := if cfg.recovers then s.recovery ++ [modemIndex] else s.recovery
    phase := if cfg.initialSnapshot then .snapshot modemIndex else .listening modemIndex false }

/-- After the inner `finally`: an exception of `wait_for_disconnect` skips the snapshot. -/
def afterListening (s : ListenerState) (modemIndex : Nat) (clean : Bool) : ListenerState :=
  if clean then { s with phase := .resyncing modemIndex } else s.disconnect

/-- The listener, up to its next `await`. -/
def listenerMove (cfg : ListenerSettings) (s : ListenerState) :
    ListenerPhase → ListenerEvent → Option ListenerState
  | .resolving, .resolved _ => some { s with phase := .ensuring }
  | .resolving, .unresolved => some { s with phase := .pausing }
  | .resolving, .raised => some { s with phase := .stopped }
  | .ensuring, .ready => some { s with phase := .resolvingAgain }
  | .resolvingAgain, .resolved i => some { s with phase := .connecting i }
  | .ensuring, .raised | .resolvingAgain, .unresolved | .resolvingAgain, .raised
  | .connecting _, .raised => some { s with phase := .pausing }
  | .connecting i, .connected =>
    -- without retries there is no interface to attach to
    let s := { s with opened := s.opened + 1 }
    if cfg.retries = 0 then some s.disconnect
    else some { s with phase := .introspecting i 0 false }
  | .introspecting i _ _, .introspected true => some (subscribe cfg s i)
  | .introspecting i attempt enableAttempted, .introspected false =>
    if cfg.retries ≤ attempt + 1 then some s.disconnect
    else if enableAttempted = false ∧ cfg.retries / 2 ≤ attempt + 1 then
      some { s with phase := .enabling i attempt }
    else some { s with phase := .waitingInterface i attempt enableAttempted }
  | .enabling i attempt, .enabled => some { s with phase := .waitingInterface i attempt true }
  | .waitingInterface i attempt enableAttempted, .slept =>
    some { s with phase := .introspecting i (attempt + 1) enableAttempted }
  | .introspecting _ _ _, .raised | .enabling _ _, .raised => some s.disconnect
  -- the recovery task is not cancelled here
  | .snapshot _, .raised | .enqueuing _ _, .raised => some s.disconnect
  | .snapshot i, .listed => some { s with phase := .enqueuing i (s.pathsOf i) }
  | .snapshot i, .gaveUp => some { s with phase := .listening i false }
  | .enqueuing i (path :: todo), .enqueued =>
    some { s with phase := .enqueuing i todo, handedOver := s.handedOver ++ [(i, path)] }
  | .enqueuing i [], .returned => some { s with phase := .listening i true }
  | .listening i _, .disconnected clean =>
    if cfg.recovers then some { s with phase := .cancelling i clean }
    else some (afterListening s i clean)
  | .cancelling i clean, .cancelled =>
    some (afterListening { s with recovery := s.recovery.erase i } i clean)
  | .resyncing i, .listed => some { s with phase := .reenqueuing i (s.pathsOf i) }
  | .resyncing _, .gaveUp | .resyncing _, .raised => some s.disconnect
  | .reenqueuing i (path :: todo), .enqueued =>
    some { s with phase := .reenqueuing i todo, handedOver := s.handedOver ++ [(i, path)] }
  | .reenqueuing _ [], .returned | .reenqueuing _ _, .raised => some s.disconnect
  | .pausing, .slept => some { s with phase := .resolving }
  | _, _ => none

def listenerStep (cfg : ListenerSettings) (s : ListenerState) :
    ListenerEvent → Option ListenerState
  | .recovers k =>
    (s.recovery[k]?).map (fun i =>
      { s with handedOver := s.handedOver ++ (s.pathsOf i).map (fun path => (i, path)) })
  | .matchAdded =>
    match s.requested with
    | none => none
    | some i => some { s with requested := none, subscribed := some i }
  | .dropped => some { s with requested := none, subscribed := none, signals := [] }
  | .added o =>
    some { s with
      objects := s.objects ++ [o]
      signals := if s.subscribed = some o.1 then s.signals ++ [o] else s.signals }
  | .deleted o => some { s with objects := s.objects.filter (fun q => q != o) }
  | .signalled =>
    match s.signals with
    | [] => none
    | o :: signals => some { s with signals, handedOver := s.handedOver ++ [o] }
  | event => listenerMove cfg s s.phase event

/-! ## What a step does -/

/-- The recovery task that the listener will cancel, if there are recovery tasks. -/
def owned (cfg : ListenerSettings) (phase : ListenerPhase) : Option Nat :=
  if cfg.recovers then phase.recovering else none

/-- The paths that the initial snapshot has still to enqueue, once it has them. -/
def ListenerPhase.remaining : ListenerPhase → Option (Nat × List Str)
  | .enqueuing i todo => some (i, todo)
  | .listening i true => some (i, [])
  | _ => none

/-- An exception of the initial snapshot: its recovery task is not cancelled any more. -/
def leavesTask (cfg : ListenerSettings) (s : ListenerState) : ListenerEvent → Bool
  | .raised => (owned cfg s.phase).isSome
  | _ => false

/-- The introspections that may still come on this connection, with the one in progress. -/
def introspections (cfg : ListenerSettings) : ListenerPhase → Nat
  | .introspecting _ attempt _ => cfg.retries - attempt - 1 + 1
  | .enabling _ attempt | .waitingInterface _ attempt _ => cfg.retries - (attempt + 1) - 1 + 1
  | _ => 0

/-- The attempts to enable the modem that may still come on this connection. -/
def enableAttempts : ListenerPhase → Nat
  | .introspecting _ _ enableAttempted | .waitingInterface _ _ enableAttempted =>
    (!enableAttempted).toNat
  | .enabling _ _ => 1
  | _ => 0

def ListenerEvent.isConnect : ListenerEvent → Bool
  | .connected => true
  | _ => false

def ListenerPhase.isIntrospecting : ListenerPhase → Bool
  | .introspecting _ _ _ => true
  | _ => false

def ListenerPhase.isEnabling : ListenerPhase → Bool
  | .enabling _ _ => true
  | _ => false

/-- A call of `introspect` is over: it returns, or it raises. -/
def ListenerPhase.introspects : ListenerPhase → ListenerEvent → Bool
  | .introspecting _ _ _, .introspected _ | .introspecting _ _ _, .raised => true
  | _, _ => false

/-- A call of `_try_enable_modem` is over. -/
def ListenerPhase.enables : ListenerPhase → ListenerEvent → Bool
  | .enabling _ _, .enabled | .enabling _ _, .raised => true
  | _, _ => false

/-- The step pays for the calls that it ends. -/
structure WithinBudget (cfg : ListenerSettings) (p p' : ListenerPhase) (e : ListenerEvent) :
    Prop where
  introspections : introspections cfg p' + (p.introspects e).toNat ≤ introspections cfg p
  enableAttempts : enableAttempts p' + (p.enables e).toNat ≤ enableAttempts p

theorem introspects_le (cfg : ListenerSettings) (p : ListenerPhase) (e : ListenerEvent) :
    (p.introspects e).toNat ≤ introspections cfg p := by
  cases p with
  | introspecting i attempt enableAttempted =>
    have hone := Bool.toNat_le ((ListenerPhase.introspecting i attempt enableAttempted).introspects e)
    exact Nat.le_trans hone (Nat.le_add_left 1 _)
  | _ => exact Nat.zero_le _

theorem enables_le (p : ListenerPhase) (e : ListenerEvent) :
    (p.enables e).toNat ≤ enableAttempts p := by
  cases p with
  | enabling i attempt => exact Bool.toNat_le _
  | _ => exact Nat.zero_le _

/-- Where no more calls come. -/
theorem withinBudget_of_none {cfg : ListenerSettings} {p p' : ListenerPhase} {e : ListenerEvent}
    (hintrospections : introspections cfg p' = 0) (henable : enableAttempts p' = 0) :
    WithinBudget cfg p p' e := by
  refine ⟨?_, ?_⟩
  · rw [hintrospections, Nat.zero_add]
    exact introspects_le cfg p e
  · rw [henable, Nat.zero_add]
    exact enables_le p e

/-- A step that does no more than go on with the next phase. -/
structure GoesOn (cfg : ListenerSettings) (p p' : ListenerPhase) (e : ListenerEvent) : Prop where
  connected : p'.connected = p.connected
  owned : owned cfg p' = owned cfg p
  remaining : p'.remaining = none
  budget : WithinBudget cfg p p' e

/-- Every way a step can go. -/
inductive ListenerMoves (cfg : ListenerSettings) (s : ListenerState) :
    ListenerEvent → ListenerState → Prop
  | goes {e p} (hgo : GoesOn cfg s.phase p e) (hleak : leavesTask cfg s e = false) :
      ListenerMoves cfg s e { s with phase := p }
  | opens {i} (hphase : s.phase = .connecting i) (hretries : cfg.retries ≠ 0) :
      ListenerMoves cfg s .connected
        { s with opened := s.opened + 1, phase := .introspecting i 0 false }
  | opensInVain {i} (hphase : s.phase = .connecting i) :
      ListenerMoves cfg s .connected { s with opened := s.opened + 1 }.disconnect
  | leaves {e} (hconnected : s.phase.connected = true)
      (hleak : leavesTask cfg s e = (owned cfg s.phase).isSome)
      (hbudget : WithinBudget cfg s.phase .pausing e) : ListenerMoves cfg s e s.disconnect
  | subscribes {i attempt enableAttempted}
      (hphase : s.phase = .introspecting i attempt enableAttempted) :
      ListenerMoves cfg s (.introspected true) (subscribe cfg s i)
  | lists {i} (hphase : s.phase = .snapshot i) :
      ListenerMoves cfg s .listed { s with phase := .enqueuing i (s.pathsOf i) }
  | enqueues {i path todo} (hphase : s.phase = .enqueuing i (path :: todo)) :
      ListenerMoves cfg s .enqueued
        { s with phase := .enqueuing i todo, handedOver := s.handedOver ++ [(i, path)] }
  | syncs {i} (hphase : s.phase = .enqueuing i []) :
      ListenerMoves cfg s .returned { s with phase := .listening i true }
  | cancels {i clean} (hphase : s.phase = .cancelling i clean) :
      ListenerMoves cfg s .cancelled
        (afterListening { s with recovery := s.recovery.erase i } i clean)
  | reenqueues {i path todo} (hphase : s.phase = .reenqueuing i (path :: todo)) :
      ListenerMoves cfg s .enqueued
        { s with phase := .reenqueuing i todo, handedOver := s.handedOver ++ [(i, path)] }
  | recovers {k new} :
      ListenerMoves cfg s (.recovers k) { s with handedOver := s.handedOver ++ new }
  | matchAdded {i} (hrequested : s.requested = some i) :
      ListenerMoves cfg s .matchAdded { s with requested := none, subscribed := some i }
  | dropped : ListenerMoves cfg s .dropped
      { s with requested := none, subscribed := none, signals := [] }
  | added {o} : ListenerMoves cfg s (.added o)
      { s with objects := s.objects ++ [o],
               signals := if s.subscribed = some o.1 then s.signals ++ [o] else s.signals }
  | deleted {o} : ListenerMoves cfg s (.deleted o)
      { s with objects := s.objects.filter (fun q => q != o) }
  | signalled {o signals} (hsignals : s.signals = o :: signals) :
      ListenerMoves cfg s .signalled { s with signals, handedOver := s.handedOver ++ [o] }

section Moves
variable {cfg : ListenerSettings} {s t : ListenerState} {e : ListenerEvent}

theorem moves_introspected_false {i attempt : Nat} {enableAttempted : Bool}
    (hphase : s.phase = .introspecting i attempt enableAttempted)
    (h : listenerMove cfg s s.phase (.introspected false) = some t) :
    ListenerMoves cfg s (.introspected false) t := by
  rw [hphase] at h
  simp only [listenerMove] at h
  split at h
  · cases h
    exact .leaves (by rw [hphase]; rfl) (by rw [hphase]; simp [owned, ListenerPhase.recovering,
      leavesTask]) (withinBudget_of_none rfl rfl)
  · next hmore =>
    split at h
    · next hfirst =>
      cases h
      refine .goes ⟨by rw [hphase]; rfl, by rw [hphase]; rfl, rfl, ?_⟩ rfl
      rw [hphase]
      constructor
      · simp [introspections, ListenerPhase.introspects]
        omega
      · simp [enableAttempts, ListenerPhase.enables, hfirst.1]
    · cases h
      refine .goes ⟨by rw [hphase]; rfl, by rw [hphase]; rfl, rfl, ?_⟩ rfl
      rw [hphase]
      constructor
      · simp [introspections, ListenerPhase.introspects]
        omega
      · simp [enableAttempts, ListenerPhase.enables]

/-- A phase that neither tries the interface nor has anything to cancel or to enqueue. -/
theorem goes_of_plain {p : ListenerPhase} (hconnected : p.connected = s.phase.connected)
    (howned : owned cfg p = owned cfg s.phase) (hremaining : p.remaining = none)
    (hintrospections : introspections cfg p = 0) (henable : enableAttempts p = 0)
    (hleak : leavesTask cfg s e = false) : ListenerMoves cfg s e { s with phase := p } :=
  .goes ⟨hconnected, howned, hremaining, withinBudget_of_none hintrospections henable⟩ hleak

/-- The connection is closed. -/
theorem leaves_of_plain (hconnected : s.phase.connected = true)
    (hleak : leavesTask cfg s e = (owned cfg s.phase).isSome) :
    ListenerMoves cfg s e s.disconnect :=
  .leaves hconnected hleak (withinBudget_of_none rfl rfl)

theorem listenerMove_cases (h : listenerMove cfg s s.phase e = some t) :
    ListenerMoves cfg s e t := by
  cases hphase : s.phase with
  | resolving =>
    rw [hphase] at h
    cases e with
    | resolved | unresolved =>
      cases h
      exact goes_of_plain (by rw [hphase]; rfl) (by rw [hphase]; rfl) rfl rfl rfl rfl
    | raised =>
      cases h
      exact goes_of_plain (by rw [hphase]; rfl) (by rw [hphase]; rfl) rfl rfl rfl
        (by simp [leavesTask, owned, hphase, ListenerPhase.recovering])
    | _ => cases h
  | ensuring =>
    rw [hphase] at h
    cases e with
    | ready =>
      cases h
      exact goes_of_plain (by rw [hphase]; rfl) (by rw [hphase]; rfl) rfl rfl rfl rfl
    | raised =>
      cases h
      exact goes_of_plain (by rw [hphase]; rfl) (by rw [hphase]; rfl) rfl rfl rfl
        (by simp [leavesTask, owned, hphase, ListenerPhase.recovering])
    | _ => cases h
  | resolvingAgain =>
    rw [hphase] at h
    cases e with
    | resolved | unresolved =>
      cases h
      exact goes_of_plain (by rw [hphase]; rfl) (by rw [hphase]; rfl) rfl rfl rfl rfl
    | raised =>
      cases h
      exact goes_of_plain (by rw [hphase]; rfl) (by rw [hphase]; rfl) rfl rfl rfl
        (by simp [leavesTask, owned, hphase, ListenerPhase.recovering])
    | _ => cases h
  | connecting i =>
    rw [hphase] at h
    cases e with
    | connected =>
      simp only [listenerMove] at h
      split at h
      -- without retries the loop over the attempts is empty, and its `else` closes the bus
      · cases h
        exact .opensInVain hphase
      · next hretries =>
        cases h
        exact .opens hphase hretries
    | raised =>
      cases h
      exact goes_of_plain (by rw [hphase]; rfl) (by rw [hphase]; rfl) rfl rfl rfl
        (by simp [leavesTask, owned, hphase, ListenerPhase.recovering])
    | _ => cases h
  | introspecting i attempt enableAttempted =>
    cases e with
    | introspected hasMessaging =>
      cases hasMessaging with
      | true =>
        rw [hphase] at h
        cases h
        exact .subscribes hphase
      | false => exact moves_introspected_false hphase h
    | raised =>
      rw [hphase] at h
      cases h
      exact leaves_of_plain (by rw [hphase]; rfl) rfl
    | _ =>
      rw [hphase] at h
      cases h
  | enabling i attempt =>
    rw [hphase] at h
    cases e with
    | enabled =>
      cases h
      refine .goes ⟨by rw [hphase]; rfl, by rw [hphase]; rfl, rfl, ?_⟩ rfl
      rw [hphase]
      exact ⟨Nat.le_refl _, Nat.le_refl _⟩
    | raised =>
      cases h
      exact leaves_of_plain (by rw [hphase]; rfl) rfl
    | _ => cases h
  | waitingInterface i attempt enableAttempted =>
    rw [hphase] at h
    cases e with
    | slept =>
      cases h
      refine .goes ⟨by rw [hphase]; rfl, by rw [hphase]; rfl, rfl, ?_⟩ rfl
      rw [hphase]
      exact ⟨Nat.le_refl _, Nat.le_refl _⟩
    | _ => cases h
  | snapshot i =>
    rw [hphase] at h
    cases e with
    | listed =>
      cases h
      exact .lists hphase
    | gaveUp =>
      cases h
      exact goes_of_plain (by rw [hphase]; rfl) (by rw [hphase]; rfl) rfl rfl rfl rfl
    | raised =>
      cases h
      exact leaves_of_plain (by rw [hphase]; rfl) rfl
    | _ => cases h
  | enqueuing i todo =>
    rw [hphase] at h
    cases e with
    | enqueued =>
      cases todo with
      | nil => cases h
      | cons path todo =>
        cases h
        exact .enqueues hphase
    | returned =>
      cases todo with
      | nil =>
        cases h
        exact .syncs hphase
      | cons path todo => cases h
    | raised =>
      cases h
      exact leaves_of_plain (by rw [hphase]; rfl) rfl
    | _ => cases h
  | listening i synced =>
    rw [hphase] at h
    cases e with
    | disconnected clean =>
      simp only [listenerMove] at h
      split at h
      · cases h
        exact goes_of_plain (by rw [hphase]; rfl) (by rw [hphase]; rfl) rfl rfl rfl rfl
      · next hnone =>
        -- nothing to cancel
        have howned : ∀ p, owned cfg p = none := fun p => if_neg hnone
        cases h
        unfold afterListening
        split
        · exact goes_of_plain (by rw [hphase]; rfl) (by rw [howned, howned]) rfl rfl rfl rfl
        · exact leaves_of_plain (by rw [hphase]; rfl) (by rw [howned]; rfl)
    | _ => cases h
  | cancelling i clean =>
    rw [hphase] at h
    cases e with
    | cancelled =>
      cases h
      exact .cancels hphase
    | _ => cases h
  | resyncing i =>
    rw [hphase] at h
    cases e with
    | listed =>
      cases h
      exact goes_of_plain (by rw [hphase]; rfl) (by rw [hphase]; rfl) rfl rfl rfl rfl
    | gaveUp | raised =>
      cases h
      exact leaves_of_plain (by rw [hphase]; rfl)
        (by simp [leavesTask, owned, hphase, ListenerPhase.recovering])
    | _ => cases h
  | reenqueuing i todo =>
    rw [hphase] at h
    have hnone : owned cfg s.phase = none := by simp [owned, hphase, ListenerPhase.recovering]
    have hleak : leavesTask cfg s .raised = (owned cfg s.phase).isSome := rfl
    cases todo with
    | nil =>
      cases e with
      | returned =>
        cases h
        exact leaves_of_plain (by rw [hphase]; rfl) (by rw [hnone]; rfl)
      | raised =>
        cases h
        exact leaves_of_plain (by rw [hphase]; rfl) hleak
      | _ => cases h
    | cons path todo =>
      cases e with
      | enqueued =>
        cases h
        exact .reenqueues hphase
      | raised =>
        cases h
        exact leaves_of_plain (by rw [hphase]; rfl) hleak
      | _ => cases h
  | pausing =>
    rw [hphase] at h
    cases e with
    | slept =>
      cases h
      exact goes_of_plain (by rw [hphase]; rfl) (by rw [hphase]; rfl) rfl rfl rfl rfl
    | _ => cases h
  | stopped =>
    rw [hphase] at h
    cases e <;> cases h

theorem listenerStep_cases (h : listenerStep cfg s e = some t) : ListenerMoves cfg s e t := by
  cases e with
  | recovers k =>
    obtain ⟨i, _, rfl⟩ := Option.map_eq_some_iff.mp h
    exact .recovers
  | matchAdded =>
    simp only [listenerStep] at h
    split at h
    · cases h
    · next hrequested =>
      cases h
      exact .matchAdded hrequested
  | dropped =>
    cases h
    exact .dropped
  | added o =>
    cases h
    exact .added
  | deleted o =>
    cases h
    exact .deleted
  | signalled =>
    simp only [listenerStep] at h
    split at h
    · cases h
    · next hsignals =>
      cases h
      exact .signalled hsignals
  | _ => exact listenerMove_cases h

end Moves

/-! ## Connections and tasks -/

structure ListenerInv (cfg : ListenerSettings) (s : ListenerState) : Prop where
  balanced : s.opened = s.closed + s.phase.connected.toNat
  own : ∀ i, owned cfg s.phase = some i → i ∈ s.recovery
  idle : cfg.recovers = false → s.recovery = []

theorem listenerInv_start (cfg : ListenerSettings) (objects : List SmsObject) :
    ListenerInv cfg (.start objects) := by
  refine ⟨rfl, ?_, fun _ => rfl⟩
  intro i hi
  simp [owned, ListenerState.start, ListenerPhase.recovering] at hi

/-- The tasks that the listener will not cancel any more. -/
def abandoned (cfg : ListenerSettings) (s : ListenerState) : Nat :=
  s.recovery.length - (owned cfg s.phase).isSome.toNat

theorem abandoned_of_unowned {cfg : ListenerSettings} {s : ListenerState}
    (h : owned cfg s.phase = none) : abandoned cfg s = s.recovery.length := by
  rw [abandoned, h]
  rfl

theorem ListenerInv.length_eq {cfg : ListenerSettings} {s : ListenerState}
    (hs : ListenerInv cfg s) :
    s.recovery.length = (owned cfg s.phase).isSome.toNat + abandoned cfg s := by
  unfold abandoned
  cases howned : owned cfg s.phase with
  | none => simp
  | some i =>
    -- the owned task is in the list, so the subtraction does not cut off
    have hpos := List.length_pos_of_mem (hs.own i howned)
    simp
    omega

section Resources
variable {cfg : ListenerSettings} {s t : ListenerState} {e : ListenerEvent}

/-- A step that keeps the phase, the connections and the tasks. -/
theorem resources_keep (hs : ListenerInv cfg s) (hphase : t.phase = s.phase)
    (hopened : t.opened = s.opened) (hclosed : t.closed = s.closed)
    (hrecovery : t.recovery = s.recovery) :
    ListenerInv cfg t ∧ abandoned cfg t = abandoned cfg s := by
  refine ⟨⟨?_, ?_, ?_⟩, ?_⟩
  · rw [hopened, hclosed, hphase]
    exact hs.balanced
  · rw [hphase, hrecovery]
    exact hs.own
  · rw [hrecovery]
    exact hs.idle
  · rw [abandoned, hphase, hrecovery]
    rfl

/-- A step to another phase with the same connections and tasks. -/
theorem resources_phase (hs : ListenerInv cfg s) {p : ListenerPhase}
    (hconnected : p.connected = s.phase.connected) (howned : owned cfg p = owned cfg s.phase)
    (handedOver : List SmsObject) :
    ListenerInv cfg { s with phase := p, handedOver } ∧
      abandoned cfg { s with phase := p, handedOver } = abandoned cfg s := by
  refine ⟨⟨?_, ?_, hs.idle⟩, ?_⟩
  · show s.opened = s.closed + p.connected.toNat
    rw [hconnected]
    exact hs.balanced
  · intro i hi
    exact hs.own i (howned.symm.trans hi)
  · simp only [abandoned, howned]

theorem resources_disconnect (hs : ListenerInv cfg s) (hconnected : s.phase.connected = true) :
    ListenerInv cfg s.disconnect ∧ abandoned cfg s.disconnect = s.recovery.length := by
  have hnone : owned cfg s.disconnect.phase = none := by
    simp [owned, ListenerState.disconnect, ListenerPhase.recovering]
  refine ⟨⟨?_, ?_, hs.idle⟩, ?_⟩
  · have hopen := hs.balanced
    rw [hconnected] at hopen
    exact hopen
  · intro i hi
    rw [hnone] at hi
    cases hi
  · exact abandoned_of_unowned hnone

theorem resources_subscribe (hs : ListenerInv cfg s) {i attempt : Nat} {enableAttempted : Bool}
    (hphase : s.phase = .introspecting i attempt enableAttempted) :
    ListenerInv cfg (subscribe cfg s i) ∧ abandoned cfg (subscribe cfg s i) = abandoned cfg s := by
  have hbefore : owned cfg s.phase = none := by simp [owned, hphase, ListenerPhase.recovering]
  have hafter : owned cfg (subscribe cfg s i).phase = if cfg.recovers then some i else none := by
    unfold owned subscribe
    cases cfg.initialSnapshot <;> rfl
  have hconnected : (subscribe cfg s i).phase.connected = true := by
    unfold subscribe
    cases cfg.initialSnapshot <;> rfl
  refine ⟨⟨?_, ?_, ?_⟩, ?_⟩
  · have hopen := hs.balanced
    rw [hphase] at hopen
    rw [hconnected]
    exact hopen
  · intro j hj
    rw [hafter] at hj
    split at hj
    · next hrecovers =>
      cases hj
      simp [subscribe, hrecovers]
    · cases hj
  · intro hno
    simp only [subscribe, hno, Bool.false_eq_true, if_false]
    exact hs.idle hno
  · unfold abandoned
    rw [hafter, hbefore]
    cases hrecovers : cfg.recovers with
    | true => simp [subscribe, hrecovers]
    | false => simp [subscribe, hrecovers]

theorem resources_cancel (hs : ListenerInv cfg s) {i : Nat} {clean : Bool}
    (hphase : s.phase = .cancelling i clean) :
    ListenerInv cfg (afterListening { s with recovery := s.recovery.erase i } i clean) ∧
      abandoned cfg (afterListening { s with recovery := s.recovery.erase i } i clean) =
        abandoned cfg s := by
  have hlength : (s.recovery.erase i).length = abandoned cfg s := by
    unfold abandoned
    cases hrecovers : cfg.recovers with
    | true =>
      have howned : owned cfg s.phase = some i := by
        rw [owned, if_pos hrecovers, hphase]
        rfl
      rw [List.length_erase_of_mem (hs.own i howned), howned]
      rfl
    | false =>
      rw [hs.idle hrecovers]
      simp
  have hidle : cfg.recovers = false → s.recovery.erase i = [] := by
    intro hno
    rw [hs.idle hno]
    rfl
  have hopen := hs.balanced
  rw [hphase] at hopen
  cases clean with
  | true =>
    have hnone : owned cfg (.resyncing i) = none := by simp [owned, ListenerPhase.recovering]
    refine ⟨⟨hopen, fun j hj => ?_, hidle⟩, ?_⟩
    · cases hnone.symm.trans hj
    · rw [← hlength]
      simp [abandoned, afterListening, hnone]
  | false =>
    have hnone : owned cfg .pausing = none := by simp [owned, ListenerPhase.recovering]
    refine ⟨⟨hopen, fun j hj => ?_, hidle⟩, ?_⟩
    · cases hnone.symm.trans hj
    · rw [← hlength]
      simp [abandoned, afterListening, ListenerState.disconnect, hnone]

/-- What a step does to the connections and the tasks. -/
theorem resources_step (hs : ListenerInv cfg s) (h : listenerStep cfg s e = some t) :
    ListenerInv cfg t ∧ abandoned cfg t = abandoned cfg s + (leavesTask cfg s e).toNat := by
  cases listenerStep_cases h with
  | goes hgo hleak =>
    rw [hleak]
    exact resources_phase hs hgo.connected hgo.owned s.handedOver
  | @opens i hphase =>
    have hopen := hs.balanced
    rw [hphase] at hopen
    have hnone : owned cfg s.phase = none := by simp [owned, hphase, ListenerPhase.recovering]
    have hafter : owned cfg (.introspecting i 0 false) = none := by
      simp [owned, ListenerPhase.recovering]
    refine ⟨⟨congrArg (fun n => n + 1) hopen, fun j hj => ?_, hs.idle⟩, ?_⟩
    · cases hafter.symm.trans hj
    · rw [abandoned_of_unowned hnone, abandoned_of_unowned hafter]
      rfl
  | opensInVain hphase =>
    have hopen := hs.balanced
    rw [hphase] at hopen
    have hnone : owned cfg s.phase = none := by simp [owned, hphase, ListenerPhase.recovering]
    have hafter : owned cfg .pausing = none := by simp [owned, ListenerPhase.recovering]
    refine ⟨⟨congrArg (fun n => n + 1) hopen, fun j hj => ?_, hs.idle⟩, ?_⟩
    · cases hafter.symm.trans hj
    · rw [abandoned_of_unowned hnone, abandoned_of_unowned hafter]
      rfl
  | leaves hconnected hleak =>
    obtain ⟨hinv, hcount⟩ := resources_disconnect hs hconnected
    refine ⟨hinv, ?_⟩
    rw [hcount, hleak, hs.length_eq]
    omega
  | subscribes hphase => exact resources_subscribe hs hphase
  | lists hphase | syncs hphase =>
    exact resources_phase hs (by rw [hphase]; rfl) (by rw [hphase]; rfl) s.handedOver
  | enqueues hphase | reenqueues hphase =>
    exact resources_phase hs (by rw [hphase]; rfl) (by rw [hphase]; rfl) _
  | cancels hphase => exact resources_cancel hs hphase
  | recovers | matchAdded | dropped | added | deleted | signalled =>
    exact resources_keep hs rfl rfl rfl rfl

/-! ## Tries for the interface -/

/-- A new connection has all its tries, any other step pays for the calls that it ends. -/
theorem budget_step (h : listenerStep cfg s e = some t) :
    (e.isConnect = true ∧ introspections cfg t.phase ≤ cfg.retries ∧ enableAttempts t.phase ≤ 1) ∨
      WithinBudget cfg s.phase t.phase e := by
  cases listenerStep_cases h with
  | goes hgo => exact Or.inr hgo.budget
  | @opens i hphase hretries =>
    refine Or.inl ⟨rfl, ?_, Nat.le_refl 1⟩
    show cfg.retries - 0 - 1 + 1 ≤ cfg.retries
    omega
  | opensInVain hphase => exact Or.inl ⟨rfl, Nat.zero_le _, Nat.zero_le _⟩
  | leaves _ _ hbudget => exact Or.inr hbudget
  | @subscribes i attempt enableAttempted hphase =>
    refine Or.inr (withinBudget_of_none ?_ ?_)
    · unfold subscribe
      cases cfg.initialSnapshot <;> rfl
    · unfold subscribe
      cases cfg.initialSnapshot <;> rfl
  | lists | syncs | enqueues | reenqueues => exact Or.inr (withinBudget_of_none rfl rfl)
  | @cancels i clean hphase =>
    refine Or.inr (withinBudget_of_none ?_ ?_)
    · cases clean <;> rfl
    · cases clean <;> rfl
  | recovers | matchAdded | dropped | added | deleted | signalled =>
    -- the environment moves, and no call is over
    refine Or.inr ⟨?_, ?_⟩
    · cases hphase : s.phase <;> exact Nat.le_refl _
    · cases hphase : s.phase <;> exact Nat.le_refl _

/-- On every connection there are no more tries to come than a new one has. -/
theorem tries_le_exec {s t : ListenerState} {events : List ListenerEvent}
    (hs : introspections cfg s.phase ≤ cfg.retries ∧ enableAttempts s.phase ≤ 1)
    (h : exec (listenerStep cfg) s events = some t) :
    introspections cfg t.phase ≤ cfg.retries ∧ enableAttempts t.phase ≤ 1 := by
  refine Reaches.invariant (I := fun s : ListenerState =>
    introspections cfg s.phase ≤ cfg.retries ∧ enableAttempts s.phase ≤ 1) ?_
    ⟨events, meets_true _ _, h⟩ hs
  intro s e t hs _ hstep
  cases budget_step hstep with
  | inl hnew => exact hnew.2
  | inr hbudget =>
    exact ⟨Nat.le_trans (Nat.le_of_add_right_le hbudget.introspections) hs.1,
      Nat.le_trans (Nat.le_of_add_right_le hbudget.enableAttempts) hs.2⟩

/-- As long as no connection is opened, the calls are paid for by the tries there were. -/
theorem calls_le_exec {s t : ListenerState} {events : List ListenerEvent}
    (hsame : ∀ e ∈ events, e.isConnect = false) (h : exec (listenerStep cfg) s events = some t) :
    introspections cfg t.phase + countSteps (listenerStep cfg) (fun s => s.phase.introspects) s
        events ≤ introspections cfg s.phase ∧
      enableAttempts t.phase + countSteps (listenerStep cfg) (fun s => s.phase.enables) s events ≤
        enableAttempts s.phase := by
  have hbudget : ∀ s e t, e.isConnect = false → listenerStep cfg s e = some t →
      WithinBudget cfg s.phase t.phase e := by
    intro s e t he hstep
    refine (budget_step hstep).resolve_left ?_
    intro hnew
    rw [he] at hnew
    cases hnew.1
  exact ⟨countSteps_le_of_measure (fun s : ListenerState => introspections cfg s.phase)
      (fun s e t he hstep => (hbudget s e t he hstep).introspections) hsame h,
    countSteps_le_of_measure (fun s : ListenerState => enableAttempts s.phase)
      (fun s e t he hstep => (hbudget s e t he hstep).enableAttempts) hsame h⟩

theorem isIntrospecting_le (cfg : ListenerSettings) (p : ListenerPhase) :
    p.isIntrospecting.toNat ≤ introspections cfg p := by
  cases p with
  | introspecting => exact Nat.le_add_left 1 _
  | _ => exact Nat.zero_le _

theorem isEnabling_le (p : ListenerPhase) : p.isEnabling.toNat ≤ enableAttempts p := by
  cases p with
  | enabling => exact Nat.le_refl 1
  | _ => exact Nat.zero_le _

end Resources

/-- In every state of a listener: the connections that were opened are closed again but for the
    one in use; the recovery tasks that are alive are the one of this connection, and one for
    each initial snapshot that an exception ended; and from any moment on, up to the next
    connection, `introspect` is called at most `retries` times and `_try_enable_modem` at most
    once, with the calls that raise and the one in progress. -/
theorem listener_resources (cfg : ListenerSettings) (objects : List SmsObject) {t : ListenerState}
    {events : List ListenerEvent}
    (h : exec (listenerStep cfg) (.start objects) events = some t) :
    t.opened = t.closed + t.phase.connected.toNat ∧
    t.recovery.length = (owned cfg t.phase).isSome.toNat +
      countSteps (listenerStep cfg) (leavesTask cfg) (.start objects) events ∧
    ∀ before since s, events = before ++ since →
      exec (listenerStep cfg) (.start objects) before = some s →
      (∀ e ∈ since, e.isConnect = false) →
      countSteps (listenerStep cfg) (fun s => s.phase.introspects) s since +
          t.phase.isIntrospecting.toNat ≤ cfg.retries ∧
        countSteps (listenerStep cfg) (fun s => s.phase.enables) s since +
          t.phase.isEnabling.toNat ≤ 1 := by
  -- each step of `leavesTask` abandons one task, and no other step does
  have hcount : ListenerInv cfg t ∧ abandoned cfg t = abandoned cfg (.start objects) +
      countSteps (listenerStep cfg) (leavesTask cfg) (.start objects) events :=
    exec_count (fun _ _ _ hs hstep => resources_step hs hstep) (listenerInv_start cfg objects) h
  obtain ⟨hinv, habandoned⟩ := hcount
  have hstart : abandoned cfg (.start objects) = 0 := by simp [abandoned, ListenerState.start]
  refine ⟨hinv.balanced, ?_, ?_⟩
  · rw [hinv.length_eq, habandoned, hstart, Nat.zero_add]
  · intro before since s hsplit hbefore hsame
    rw [hsplit] at h
    obtain ⟨u, hu, hsince⟩ := exec_append_eq_some.mp h
    obtain rfl : s = u := Option.some.inj (hbefore.symm.trans hu)
    have hfresh : introspections cfg (ListenerState.start objects).phase ≤ cfg.retries ∧
        enableAttempts (ListenerState.start objects).phase ≤ 1 :=
      ⟨Nat.zero_le _, Nat.zero_le _⟩
    obtain ⟨hintrospections, henable⟩ := tries_le_exec hfresh hbefore
    obtain ⟨hcalls, henables⟩ := calls_le_exec hsame hsince
    have hnow := isIntrospecting_le cfg t.phase
    have hnow' := isEnabling_le t.phase
    exact ⟨by omega, by omega⟩

/-- Up to the subscription of modem 0, whose interface comes with the second try. -/
def subscribesAtOnce : List ListenerEvent :=
  [.resolved 0, .ready, .resolved 0, .connected, .introspected false, .slept, .introspected true,
    .matchAdded]

/-- The first initial snapshot raises, so two recovery tasks run for the second connection, which
    has called `introspect` at most twelve times. -/
theorem listener_resources_leak :
    ∃ s t, exec (listenerStep ⟨12, 300, true⟩) (.start [])
        (subscribesAtOnce ++ [.raised, .slept] ++ subscribesAtOnce.take 4) = some s ∧
      exec (listenerStep ⟨12, 300, true⟩) s (subscribesAtOnce.drop 4 ++ [.listed, .returned]) =
        some t ∧ t.phase = .listening 0 true ∧ t.recovery = [0, 0] ∧ t.closed = 1 ∧
      t.opened = t.closed + 1 ∧
      countSteps (listenerStep ⟨12, 300, true⟩) (fun s => s.phase.introspects) s
        (subscribesAtOnce.drop 4 ++ [.listed, .returned]) ≤ 12 := by
  have hrun : ((exec (listenerStep ⟨12, 300, true⟩) (.start [])
      (subscribesAtOnce ++ [.raised, .slept] ++ subscribesAtOnce.take 4)).bind (fun s =>
        exec (listenerStep ⟨12, 300, true⟩) s (subscribesAtOnce.drop 4 ++ [.listed, .returned]))).map
        (fun t => (t.phase, t.recovery, t.closed)) =
      some (.listening 0 true, [0, 0], 1) := by decide
  obtain ⟨t, ht, hshape⟩ := Option.map_eq_some_iff.mp hrun
  obtain ⟨s, hs, ht⟩ := Option.bind_eq_some_iff.mp ht
  simp only [Prod.mk.injEq] at hshape
  obtain ⟨hphase, hrecovery, hclosed⟩ := hshape
  obtain ⟨hopen, _, hcalls⟩ :=
    listener_resources ⟨12, 300, true⟩ [] (exec_append_eq_some.mpr ⟨s, hs, ht⟩)
  rw [hphase] at hopen
  obtain ⟨hintrospections, _⟩ := hcalls _ _ s rfl hs (by decide)
  rw [hphase] at hintrospections
  exact ⟨s, t, hs, ht, hphase, hrecovery, hclosed, hopen, hintrospections⟩

/-! ## What is missed -/

def ListenerEvent.isListing : ListenerEvent → Bool
  | .listed => true
  | _ => false

def ListenerPhase.isSnapshot : ListenerPhase → Bool
  | .snapshot _ => true
  | _ => false

/-- For an initial snapshot `mmcli` lists the objects when the bus has got the match rule, if it
    ever gets it. -/
def ListsSubscribed (s : ListenerState) (e : ListenerEvent) : Prop :=
  (e.isListing && s.phase.isSnapshot) = true → s.requested = none

instance (s : ListenerState) (e : ListenerEvent) : Decidable (ListsSubscribed s e) :=
  inferInstanceAs (Decidable ((e.isListing && s.phase.isSnapshot) = true → s.requested = none))

/-- The objects of the modem are handed over, or they will be by a signal or by the snapshot. -/
def ObjectsCovered (s : ListenerState) : Prop :=
  ∀ i todo, s.phase.remaining = some (i, todo) → s.requested = none ∧
    (s.subscribed = some i → ∀ path, (i, path) ∈ s.objects →
      (i, path) ∈ s.handedOver ∨ (i, path) ∈ s.signals ∨ path ∈ todo)

theorem mem_pathsOf {s : ListenerState} {i : Nat} {path : Str} :
    path ∈ s.pathsOf i ↔ (i, path) ∈ s.objects := by
  simp only [ListenerState.pathsOf, List.mem_map, List.mem_filter, beq_iff_eq]
  constructor
  · intro h
    obtain ⟨⟨j, p⟩, ⟨hmem, rfl⟩, rfl⟩ := h
    exact hmem
  · exact fun h => ⟨(i, path), ⟨h, rfl⟩, rfl⟩

theorem covered_of_none {s : ListenerState} (h : s.phase.remaining = none) : ObjectsCovered s := by
  intro i todo hremaining
  rw [h] at hremaining
  cases hremaining

section Missed
variable {cfg : ListenerSettings} {s t : ListenerState} {e : ListenerEvent}

theorem covered_enqueues {i : Nat} {path : Str} {todo : List Str} (hs : ObjectsCovered s)
    (hphase : s.phase = .enqueuing i (path :: todo)) :
    ObjectsCovered { s with phase := .enqueuing i todo, handedOver := s.handedOver ++ [(i, path)] } := by
  obtain ⟨hrequested, hall⟩ := hs i (path :: todo) (by rw [hphase]; rfl)
  intro j todo' hremaining
  cases hremaining
  refine ⟨hrequested, ?_⟩
  intro hsub p hp
  cases hall hsub p hp with
  | inl hhanded => exact Or.inl (List.mem_append_left _ hhanded)
  | inr hrest =>
    cases hrest with
    | inl hsignal => exact Or.inr (Or.inl hsignal)
    | inr htodo =>
      cases List.mem_cons.mp htodo with
      | inl heq =>
        rw [heq]
        exact Or.inl (List.mem_append_right _ (List.mem_singleton_self _))
      | inr hmem => exact Or.inr (Or.inr hmem)

/-- The environment: what was covered stays so, and what is new is covered. -/
theorem covered_of_same_phase (hs : ObjectsCovered s) (hphase : t.phase = s.phase)
    (hrequested : s.requested = none → t.requested = none)
    (hall : ∀ i, t.subscribed = some i → s.subscribed = some i ∧
      ∀ path, (i, path) ∈ t.objects →
        ((i, path) ∈ s.objects ∧ ((i, path) ∈ s.handedOver ∨ (i, path) ∈ s.signals →
          (i, path) ∈ t.handedOver ∨ (i, path) ∈ t.signals)) ∨ (i, path) ∈ t.signals) :
    ObjectsCovered t := by
  intro i todo hremaining
  rw [hphase] at hremaining
  obtain ⟨hreq, hcov⟩ := hs i todo hremaining
  refine ⟨hrequested hreq, ?_⟩
  intro hsub path hpath
  obtain ⟨hsub', hobjects⟩ := hall i hsub
  cases hobjects path hpath with
  | inl hold =>
    obtain ⟨hmem, hkeep⟩ := hold
    obtain h | h | h := hcov hsub' path hmem
    · exact (hkeep (Or.inl h)).imp_right Or.inl
    · exact (hkeep (Or.inr h)).imp_right Or.inl
    · exact Or.inr (Or.inr h)
  | inr hnew => exact Or.inr (Or.inl hnew)

theorem covered_step (hs : ObjectsCovered s) (he : ListsSubscribed s e)
    (h : listenerStep cfg s e = some t) : ObjectsCovered t := by
  cases listenerStep_cases h with
  | goes hgo => exact covered_of_none hgo.remaining
  | opens | opensInVain | leaves | reenqueues => exact covered_of_none rfl
  | subscribes =>
    apply covered_of_none
    unfold subscribe
    cases cfg.initialSnapshot <;> rfl
  | @lists i hphase =>
    intro j todo hremaining
    cases hremaining
    have hrequested := he (by rw [hphase]; rfl)
    -- the listing has all objects there are, and what comes later is signalled
    exact ⟨hrequested, fun _ path hpath => Or.inr (Or.inr (mem_pathsOf.mpr hpath))⟩
  | enqueues hphase => exact covered_enqueues hs hphase
  | @syncs i hphase =>
    intro j todo hremaining
    cases hremaining
    exact hs i [] (by rw [hphase]; rfl)
  | @cancels i clean hphase =>
    cases clean with
    | true => exact covered_of_none rfl
    | false => exact covered_of_none rfl
  | recovers =>
    refine covered_of_same_phase hs rfl id ?_
    intro i hsub
    refine ⟨hsub, fun path hpath => Or.inl ⟨hpath, ?_⟩⟩
    exact fun hmem => hmem.imp_left (List.mem_append_left _)
  | matchAdded hrequested =>
    intro i todo hremaining
    -- the match rule was there before the listing
    have hnone := (hs i todo hremaining).1
    rw [hrequested] at hnone
    cases hnone
  | dropped =>
    refine covered_of_same_phase hs rfl (fun _ => rfl) ?_
    intro i hsub
    cases hsub
  | @added o =>
    refine covered_of_same_phase hs rfl id ?_
    intro i hsub
    refine ⟨hsub, ?_⟩
    intro path hpath
    have hsub : s.subscribed = some i := hsub
    cases List.mem_append.mp hpath with
    | inl hold =>
      refine Or.inl ⟨hold, fun hmem => hmem.imp_right ?_⟩
      intro hsignal
      show (i, path) ∈ if s.subscribed = some o.1 then s.signals ++ [o] else s.signals
      split
      · exact List.mem_append_left _ hsignal
      · exact hsignal
    | inr hnew =>
      -- the modem sends a signal for a new object
      right
      have ho : (i, path) = o := List.mem_singleton.mp hnew
      show (i, path) ∈ if s.subscribed = some o.1 then s.signals ++ [o] else s.signals
      rw [← ho, if_pos hsub]
      exact List.mem_append_right _ (List.mem_singleton_self _)
  | deleted =>
    refine covered_of_same_phase hs rfl id ?_
    intro i hsub
    exact ⟨hsub, fun path hpath => Or.inl ⟨(List.mem_filter.mp hpath).1, id⟩⟩
  | @signalled o signals hsignals =>
    refine covered_of_same_phase hs rfl id ?_
    intro i hsub
    refine ⟨hsub, fun path hpath => Or.inl ⟨hpath, ?_⟩⟩
    intro hmem
    rw [hsignals, List.mem_cons] at hmem
    obtain hmem | heq | hmem := hmem
    · exact Or.inl (List.mem_append_left _ hmem)
    · rw [heq]
      exact Or.inl (List.mem_append_right _ (List.mem_singleton_self _))
    · exact Or.inr hmem

end Missed

/-- In every run in which `mmcli` lists the objects for an initial snapshot only once the bus has
    got the match rule: when that snapshot is through and the subscription still lasts, every
    object that the modem has was handed over, or its signal is on its way to the handler. -/
theorem listener_misses_nothing (cfg : ListenerSettings) (objects : List SmsObject)
    {t : ListenerState} {events : List ListenerEvent}
    (hlists : Meets (listenerStep cfg) ListsSubscribed (.start objects) events)
    (h : exec (listenerStep cfg) (.start objects) events = some t) {i : Nat}
    (hphase : t.phase = .listening i true) (hsub : t.subscribed = some i) :
    ∀ path, (i, path) ∈ t.objects → (i, path) ∈ t.handedOver ∨ (i, path) ∈ t.signals := by
  have hcov : ObjectsCovered t := by
    refine Reaches.invariant (I := ObjectsCovered) ?_ ⟨events, hlists, h⟩ (covered_of_none rfl)
    exact fun s e u hs he hstep => covered_step hs he hstep
  intro path hpath
  obtain ⟨_, hall⟩ := hcov i [] (by rw [hphase]; rfl)
  obtain h | h | h := hall hsub path hpath
  · exact Or.inl h
  · exact Or.inr h
  · cases h

/-- One object is there before, one comes while the snapshot enqueues it. -/
theorem listener_misses_nothing_two :
    ∃ t, exec (listenerStep ⟨12, 300, true⟩) (.start [(0, "/SMS/1".toList)])
        (subscribesAtOnce ++ [.listed, .added (0, "/SMS/2".toList), .enqueued, .returned]) =
          some t ∧
      t.objects = [(0, "/SMS/1".toList), (0, "/SMS/2".toList)] ∧
      t.handedOver = [(0, "/SMS/1".toList)] ∧
      ∀ path, (0, path) ∈ t.objects → (0, path) ∈ t.handedOver ∨ (0, path) ∈ t.signals := by
  have hrun : (execIf (listenerStep ⟨12, 300, true⟩) ListsSubscribed
      (.start [(0, "/SMS/1".toList)])
      (subscribesAtOnce ++ [.listed, .added (0, "/SMS/2".toList), .enqueued, .returned])).map
        (fun t => (decide (t.phase = .listening 0 true ∧ t.subscribed = some 0), t.objects,
          t.handedOver)) =
      some (true, [(0, "/SMS/1".toList), (0, "/SMS/2".toList)], [(0, "/SMS/1".toList)]) := by
    decide +kernel
  obtain ⟨t, ht, hshape⟩ := Option.map_eq_some_iff.mp hrun
  simp only [Prod.mk.injEq, decide_eq_true_eq] at hshape
  obtain ⟨⟨hphase, hsub⟩, hobjects, hhanded⟩ := hshape
  exact ⟨t, exec_of_execIf ht, hobjects, hhanded,
    listener_misses_nothing ⟨12, 300, true⟩ _ (meets_of_execIf ht) (exec_of_execIf ht) hphase hsub⟩

end HiWaveTel
