import HiWaveTel.ModemReady
import HiWaveTel.ModemRegistry

/- The command that waits for the modems when the container starts (`wait_modem_ready.py`), and the
   branch of `entrypoint.sh` on its exit status.

   While the modems keep their states, the wait on a listed modem ends well if the modem that is
   used in its place is usable (`result_wait`), and the command exits with zero unless `mmcli`
   cannot be started (`exitStatus_waitAll`). -/
namespace HiWaveTel.ModemReady
open Foundation

/-! ## The command -/

structure WaitOptions where
  all : Bool
  modemIndex : Nat
  requireMessaging : Bool

/-- `list_present_modem_indices`. -/
def listPresent (cfg : MmcliSettings) (t : ModemTable) : Session (List Nat) :=
  let present := t.indices (·.isPresent)
  if present ≠ [] then return present
  else do
    match ← askListing (listModemIndices cfg) with
    | .ok indices => return indices
    | .error _ => return []

/-- What is written about a modem. -/
def waitedLine (requireMessaging ready : Bool) (modemIndex : Nat) : Str :=
  if ready then
    "Modem ".toList ++ Text.ofNat modemIndex ++ " ready for SMS".toList ++
      (if requireMessaging then " (Messaging OK)".toList else []) ++ ".".toList
  else
    "Modem ".toList ++ Text.ofNat modemIndex ++ " not ready within MODEM_ENABLE_WAIT_SEC ".toList ++
      "(Messaging required=".toList ++
      (if requireMessaging then "True".toList else "False".toList) ++ ").".toList

section Command
variable (cfg : ReadySettings) (t : ModemTable) (turns : Nat → List Bool)

/-- The loop over the modems: what it writes, and `all_ok`. The wait on a modem polls as often as
    `turns` says. -/
def waitForEach (requireMessaging : Bool) : List Nat → Session (Except Raised (List Str × Bool))
  | [] => return .ok ([], true)
  | modemIndex :: rest => do
    match ← waitModemReadyForSms cfg modemIndex requireMessaging (turns modemIndex) with
    | .error e => return .error e
    | .ok ready =>
      match ← waitForEach requireMessaging rest with
      | .error e => return .error e
      | .ok (lines, allOk) =>
        return .ok (waitedLine requireMessaging ready modemIndex :: lines, ready && allOk)

/-- `Command.handle`: the lines that it writes. -/
def handle (options : WaitOptions) : Session (Except Raised (List Str)) := do
  let indices ← (if options.all then listPresent cfg.client t else pure [options.modemIndex])
  if indices = [] then return .ok ["No modems to wait for.".toList]
  else
    match ← waitForEach cfg turns options.requireMessaging indices with
    | .error e => return .error e
    | .ok (lines, allOk) =>
      -- `all_ok` adds a line, and leaves the exit status as it is
      return .ok (lines ++ (if allOk then [] else ["One or more modems not ready.".toList]))

/-- `wait_modem_ready --all`. -/
def waitAll : Session (Except Raised (List Str)) :=
  handle cfg t turns { all := true, modemIndex := 0, requireMessaging := true }

end Command

/-- The exit status of `manage.py`: one after an exception. -/
def exitStatus : Except Raised (List Str) → Nat
  | .ok _ => 0
  | .error _ => 1

inductive EntrypointBranch where
  | ready
  | restart
  deriving DecidableEq

/-- `if python manage.py wait_modem_ready --all`. -/
def entrypointBranch (status : Nat) : EntrypointBranch := if status = 0 then .ready else .restart

/-! ## What is asked of it -/

section Report
variable (world : MmcliCommand → RunResult)

def messagingIn (modemIndex : Nat) : Bool := (messagingInterfaceReady modemIndex).result world

/-- The modem is enabled or registered, and its Messaging interface answers. -/
def Usable (modemIndex : Nat) : Prop :=
  isReady (stateIn world) modemIndex = true ∧ messagingIn world modemIndex = true

def listedIn : List Nat := enumerated [world .listModems]

/-- The modems that the command waits for. -/
def waitedFor (t : ModemTable) : List Nat :=
  if t.indices (·.isPresent) ≠ [] then t.indices (·.isPresent) else listedIn world

/-- The wait and the command tell of each modem whether it is usable. -/
structure TellsPerModem (cfg : ReadySettings) (t : ModemTable) (turns : Nat → List Bool) :
    Prop where
  call : ∀ i ∈ listedIn world,
    (waitModemReadyForSms cfg i true (turns i)).result world = .ok true → Usable world i
  command : exitStatus ((waitAll cfg t turns).result world) = 0 →
    ∀ i ∈ waitedFor world t, Usable world i
  restart : (∃ i ∈ waitedFor world t, ¬ Usable world i) →
    entrypointBranch (exitStatus ((waitAll cfg t turns).result world)) = .restart

/-- Of the first of the listed modems that is ready. -/
def FirstReadyAnswers : Prop :=
  ∃ j, (listedIn world).find? (isReady (stateIn world)) = some j ∧ messagingIn world j = true

/-- Each listed modem is ready itself, or has no poll, or finds no ready modem that answers; and
    there is nothing to report: `mmcli` cannot be started, or all modems are usable. -/
structure NothingToTell (t : ModemTable) (turns : Nat → List Bool) : Prop where
  own : ∀ i ∈ listedIn world,
    isReady (stateIn world) i = true ∨ turns i = [] ∨ ¬ FirstReadyAnswers world
  all : world .listModems = .launchFailed ∨ ∀ i ∈ waitedFor world t, Usable world i

end Report

/-! ## What the sessions come to -/

section Results
variable {world : MmcliCommand → RunResult}

/-- A method that takes one answer raises another exception only if `mmcli` cannot be started. -/
theorem askListing_other {α : Type} {m : Mmcli Unit α} (hm : MmcliContained 1 m)
    (h : (askListing m).result world = .error .other) : world .listModems = .launchFailed := by
  obtain ⟨res, s', rest, hrun, _⟩ := hm.within () [world .listModems] (Nat.le_refl 1)
  rw [result_askListing, hrun] at h
  obtain ⟨used, hused, hat⟩ := hm.ends _ _ _ _ _ hrun
  obtain ⟨r, hr, hbad⟩ := hat.escaped.mp ⟨.other, h, rfl⟩
  have hin : r ∈ [world .listModems] := by
    rw [hused]
    exact List.mem_append_left _ hr
  rw [← List.mem_singleton.mp hin]
  exact hbad

theorem result_listing (cfg : MmcliSettings) :
    (match (askListing (listModemIndices cfg)).result world with
      | .ok indices => indices
      | .error _ => []) = listedIn world := by
  rw [result_askListing, listedIn]
  cases world .listModems with
  | completed returncode stdout stderr =>
    by_cases hzero : returncode = 0
    · subst hzero
      rfl
    · obtain ⟨exc, hfailed⟩ := @listModemIndices_failed _ cfg () [] returncode stdout stderr hzero
      rw [hfailed, enumerated_failed hzero]
      rfl
  | timeout => rfl
  | launchFailed => rfl

theorem result_listPresent (cfg : MmcliSettings) (t : ModemTable) :
    (listPresent cfg t).result world = waitedFor world t := by
  unfold listPresent waitedFor
  dsimp only
  split
  · rfl
  · rw [← result_listing cfg, Dialogue.result_bind]
    cases (askListing (listModemIndices cfg)).result world <;> rfl

/-- Without `mmcli` the resolver raises, and else it does not. -/
theorem result_resolve_launchFailed (cfg : MmcliSettings) (configured : Nat)
    (h : world .listModems = .launchFailed) :
    (resolveWorkingModemIndex cfg configured).result world = .error .other := by
  have hlist : (askListing (listModemIndices cfg)).result world = .error .other := by
    rw [result_askListing, h]
    rfl
  rw [resolveWorkingModemIndex, Dialogue.result_bind, result_resolveModemMmcliIndex, hlist]
  rfl

theorem result_resolve_ok (cfg : MmcliSettings) (configured : Nat)
    (h : world .listModems ≠ .launchFailed) :
    ∃ active, (resolveWorkingModemIndex cfg configured).result world = .ok active := by
  have hcaught : (resolveModemMmcliIndex cfg configured).result world ≠ .error .other := by
    intro hother
    rw [result_resolveModemMmcliIndex] at hother
    cases hlist : (askListing (listModemIndices cfg)).result world with
    | error e =>
      rw [hlist] at hother
      cases hother
      exact h (askListing_other contained_listModemIndices hlist)
    | ok present =>
      rw [hlist] at hother
      dsimp only at hother
      split at hother
      · cases hother
      · split at hother
        · cases hother
        · exact h (askListing_other contained_primaryModemIndex hother)
  rw [resolveWorkingModemIndex, Dialogue.result_bind]
  cases hres : (resolveModemMmcliIndex cfg configured).result world with
  | ok idx => exact ⟨some idx, rfl⟩
  | error e =>
    cases e with
    | mmcli exc => exact ⟨none, rfl⟩
    | other => exact absurd hres hcaught

/-- The modem that is used for a listed one. -/
def usedFor (world : MmcliCommand → RunResult) (modemIndex : Nat) : Nat :=
  orFirst (isReady (stateIn world)) (listedIn world) modemIndex

theorem result_resolve_listed (cfg : MmcliSettings) {configured : Nat}
    (h : configured ∈ listedIn world) :
    (resolveWorkingModemIndex cfg configured).result world =
      .ok (some (usedFor world configured)) := by
  have hlist : (askListing (listModemIndices cfg)).result world = .ok (listedIn world) := by
    have hlisted := @result_listing world cfg
    cases hask : (askListing (listModemIndices cfg)).result world with
    | ok indices =>
      rw [hask] at hlisted
      rw [← hlisted]
    | error e =>
      rw [hask] at hlisted
      rw [← hlisted] at h
      cases h
  have hsorted : (listedIn world).Pairwise (· ≤ ·) := by
    unfold listedIn enumerated
    split
    · exact sorted_listedIndices _ _
    · exact List.Pairwise.nil
  rw [resolveWorkingModemIndex, Dialogue.result_bind, result_resolveModemMmcliIndex, hlist]
  dsimp only
  rw [if_neg (List.ne_nil_of_mem h), chosenIndex_eq_orFirst hsorted h]
  rfl

theorem result_modemTurn (cfg : ReadySettings) (modemIndex : Nat) :
    (modemTurn cfg true modemIndex).result world =
      (isReady (stateIn world) modemIndex && messagingIn world modemIndex) := by
  have hready : (if readyStates.contains (stateIn world modemIndex) then
      if true then messagingInterfaceReady modemIndex else pure true
      else pure false : Session Bool).result world =
      (isReady (stateIn world) modemIndex && messagingIn world modemIndex) := by
    rw [isReady]
    cases readyStates.contains (stateIn world modemIndex) <;> rfl
  have hstate : (getModemState modemIndex).result world = stateIn world modemIndex := rfl
  rw [modemTurn, Dialogue.result_bind, Dialogue.result_bind, hstate, hready]
  cases isReady (stateIn world) modemIndex && messagingIn world modemIndex with
  | true => rfl
  | false =>
    rw [if_neg Bool.false_ne_true, Dialogue.result_bind]
    rfl

/-- One poll is like another. -/
theorem result_wait (cfg : ReadySettings) {configured : Nat} (h : configured ∈ listedIn world)
    (turns : List Bool) :
    (waitModemReadyForSms cfg configured true turns).result world =
      .ok (!turns.isEmpty && (isReady (stateIn world) (usedFor world configured) &&
        messagingIn world (usedFor world configured))) := by
  induction turns with
  | nil =>
    rw [waitModemReadyForSms, Dialogue.result_bind, result_resolve_listed cfg.client h]
    dsimp only
    rw [Dialogue.result_bind]
    rfl
  | cons rescanDue turns ih =>
    rw [waitModemReadyForSms, Dialogue.result_bind, result_resolve_listed cfg.client h]
    dsimp only
    rw [Dialogue.result_bind, result_modemTurn]
    cases hturn : isReady (stateIn world) (usedFor world configured) &&
        messagingIn world (usedFor world configured) with
    | true => rfl
    | false =>
      rw [if_neg Bool.false_ne_true, ih, hturn, Bool.and_false, Bool.and_false]

/-- Whichever modem it is on, a wait raises exactly without `mmcli`. -/
theorem result_wait_launchFailed (cfg : ReadySettings) (configured : Nat) (turns : List Bool)
    (h : world .listModems = .launchFailed) :
    (waitModemReadyForSms cfg configured true turns).result world = .error .other := by
  cases turns with
  | nil =>
    rw [waitModemReadyForSms, Dialogue.result_bind, result_resolve_launchFailed _ _ h]
    rfl
  | cons rescanDue turns =>
    rw [waitModemReadyForSms, Dialogue.result_bind, result_resolve_launchFailed _ _ h]
    rfl

theorem result_wait_ok (cfg : ReadySettings) (configured : Nat) (turns : List Bool)
    (h : world .listModems ≠ .launchFailed) :
    ∃ ready, (waitModemReadyForSms cfg configured true turns).result world = .ok ready := by
  obtain ⟨active, hactive⟩ := result_resolve_ok cfg.client configured h
  induction turns with
  | nil =>
    rw [waitModemReadyForSms, Dialogue.result_bind, hactive]
    cases active with
    | none => exact ⟨false, rfl⟩
    | some idx => exact ⟨false, by dsimp only; rw [Dialogue.result_bind]; rfl⟩
  | cons rescanDue turns ih =>
    rw [waitModemReadyForSms, Dialogue.result_bind, hactive]
    cases active with
    | none =>
      dsimp only
      rw [Dialogue.result_bind]
      exact ih
    | some idx =>
      dsimp only
      rw [Dialogue.result_bind]
      split
      · exact ⟨true, rfl⟩
      · exact ih

section Command
variable (cfg : ReadySettings) (t : ModemTable) (turns : Nat → List Bool)

theorem result_waitForEach_ok (h : world .listModems ≠ .launchFailed) (indices : List Nat) :
    ∃ out, (waitForEach cfg turns true indices).result world = .ok out := by
  induction indices with
  | nil => exact ⟨_, rfl⟩
  | cons i rest ih =>
    obtain ⟨ready, hready⟩ := result_wait_ok cfg i (turns i) h
    obtain ⟨out, hout⟩ := ih
    rw [waitForEach, Dialogue.result_bind, hready]
    dsimp only
    rw [Dialogue.result_bind, hout]
    exact ⟨_, rfl⟩

/-- The command has no other way to fail than an exception. -/
theorem exitStatus_waitAll : exitStatus ((waitAll cfg t turns).result world) = 0 ↔
    world .listModems ≠ .launchFailed ∨ waitedFor world t = [] := by
  have hindices : (if true = true then listPresent cfg.client t else pure [0] :
      Session (List Nat)).result world = waitedFor world t := by
    rw [if_pos rfl, result_listPresent]
  rw [waitAll, handle, Dialogue.result_bind, hindices]
  by_cases hnone : waitedFor world t = []
  · rw [if_pos hnone]
    exact iff_of_true rfl (Or.inr hnone)
  · rw [if_neg hnone, Dialogue.result_bind]
    by_cases hlaunch : world .listModems = .launchFailed
    · obtain ⟨i, rest, hcons⟩ := List.exists_cons_of_ne_nil hnone
      have hraise : (waitForEach cfg turns true (waitedFor world t)).result world =
          .error .other := by
        rw [hcons, waitForEach, Dialogue.result_bind, result_wait_launchFailed cfg i _ hlaunch]
        rfl
      rw [hraise]
      exact iff_of_false Nat.one_ne_zero (not_or.mpr ⟨not_not.mpr hlaunch, hnone⟩)
    · obtain ⟨out, hout⟩ := result_waitForEach_ok cfg turns hlaunch (waitedFor world t)
      rw [hout]
      exact iff_of_true rfl (Or.inl hlaunch)

end Command

/-- The wait on a listed modem is right about it exactly where no other one is used, or that one
    is not usable either. -/
theorem wait_tells_iff (cfg : ReadySettings) {i : Nat} (hi : i ∈ listedIn world)
    (turns : List Bool) :
    ((waitModemReadyForSms cfg i true turns).result world = .ok true → Usable world i) ↔
      isReady (stateIn world) i = true ∨ turns = [] ∨ ¬ FirstReadyAnswers world := by
  rw [result_wait cfg hi, Except.ok.injEq, Bool.and_eq_true, Bool.not_eq_true',
    List.isEmpty_eq_false_iff, Bool.and_eq_true]
  cases hready : isReady (stateIn world) i with
  | true =>
    rw [usedFor, orFirst_of_good hready]
    exact iff_of_true (fun h => h.2) (Or.inl rfl)
  | false =>
    have hnot : ¬ Usable world i := by
      rintro ⟨h, _⟩
      rw [hready] at h
      cases h
    rw [or_iff_right Bool.false_ne_true]
    cases hfirst : (listedIn world).find? (isReady (stateIn world)) with
    | none =>
      have hnone : ∀ c ∈ listedIn world, isReady (stateIn world) c = false := by
        intro c hc
        simpa using List.find?_eq_none.mp hfirst c hc
      rw [usedFor, orFirst_of_none hnone, hready]
      refine iff_of_true (fun h => absurd h.2.1 Bool.false_ne_true) (Or.inr ?_)
      rintro ⟨j, hj, _⟩
      rw [hfirst] at hj
      cases hj
    | some j =>
      -- the wait is for `j`, which is ready, and the modem itself is not
      have hj : isReady (stateIn world) j = true := List.find?_some hfirst
      have hanswers : FirstReadyAnswers world ↔ messagingIn world j = true := by
        rw [FirstReadyAnswers, hfirst]
        simp
      rw [usedFor, orFirst_of_not_good hready hfirst, hanswers]
      by_cases hturns : turns = []
      · exact iff_of_true (fun h => absurd hturns h.1) (Or.inl hturns)
      · rw [or_iff_right hturns]
        constructor
        · exact fun h hmessaging => hnot (h ⟨hturns, hj, hmessaging⟩)
        · exact fun h hall => absurd hall.2.2 h

end Results

/-- The wait may be for another modem than the one that is asked for, and the command has no status
    for a modem that is not ready. -/
theorem tells_per_modem_iff (world : MmcliCommand → RunResult) (cfg : ReadySettings)
    (t : ModemTable) (turns : Nat → List Bool) :
    TellsPerModem world cfg t turns ↔ NothingToTell world t turns := by
  have hcall : (∀ i ∈ listedIn world,
      (waitModemReadyForSms cfg i true (turns i)).result world = .ok true → Usable world i) ↔
      ∀ i ∈ listedIn world,
        isReady (stateIn world) i = true ∨ turns i = [] ∨ ¬ FirstReadyAnswers world :=
    forall₂_congr (fun i hi => wait_tells_iff cfg hi (turns i))
  have hstatus := @exitStatus_waitAll world cfg t turns
  constructor
  · intro h
    refine ⟨hcall.mp h.call, ?_⟩
    by_cases hlaunch : world .listModems = .launchFailed
    · exact Or.inl hlaunch
    · exact Or.inr (h.command (hstatus.mpr (Or.inl hlaunch)))
  · intro h
    have hcommand : exitStatus ((waitAll cfg t turns).result world) = 0 →
        ∀ i ∈ waitedFor world t, Usable world i := by
      intro hzero
      rcases hstatus.mp hzero with hlaunch | hnone
      · exact h.all.resolve_left hlaunch
      · rw [hnone]
        exact fun i hi => absurd hi List.not_mem_nil
    refine ⟨hcall.mpr h.own, hcommand, ?_⟩
    rintro ⟨i, hi, hnot⟩
    exact if_neg (fun hzero => hnot (hcommand hzero i hi))

/-- Modem 0 is registered and answers, modem 1 is disabled. -/
def oneDisabled : MmcliCommand → RunResult
  | .listModems => .completed 0 (listing [0, 1]) []
  | .showModem 0 => .completed 0 "state: registered".toList []
  | .showModem _ => .completed 0 "state: disabled".toList []
  | _ => .completed 0 [] []

def noDevices : ModemTable where
  rows := []
  distinct := List.nodup_nil

def threeRetries : ReadySettings where
  client := MmcliSettings.unset
  environ := []
  simUnlockRetries := 3

/-- The wait on modem 1 ends well, and the command exits with zero. -/
theorem one_disabled_not_told :
    ((waitModemReadyForSms threeRetries 1 true [false]).result oneDisabled = .ok true ∧
      exitStatus ((waitAll threeRetries noDevices (fun _ => [false])).result oneDisabled) = 0 ∧
      1 ∈ waitedFor oneDisabled noDevices ∧ ¬ Usable oneDisabled 1) ∧
    ¬ ∀ (world : MmcliCommand → RunResult) (cfg : ReadySettings) (t : ModemTable)
      (turns : Nat → List Bool), TellsPerModem world cfg t turns := by
  have hlisted : listedIn oneDisabled = [0, 1] := by
    have hlisting : listedIn oneDisabled = listedIndices (listing [0, 1]) [] := rfl
    rw [hlisting, listedIndices_listing]
    decide
  have hwaited : 1 ∈ waitedFor oneDisabled noDevices := by
    have hnone : waitedFor oneDisabled noDevices = listedIn oneDisabled := rfl
    rw [hnone, hlisted]
    decide
  have hzero : isReady (stateIn oneDisabled) 0 = true := by decide +kernel
  have hone : isReady (stateIn oneDisabled) 1 = false := by decide +kernel
  have hunusable : ¬ Usable oneDisabled 1 := by
    rintro ⟨hready, _⟩
    rw [hone] at hready
    cases hready
  have hused : usedFor oneDisabled 1 = 0 := by
    have hfirst : [0, 1].find? (isReady (stateIn oneDisabled)) = some 0 := by
      rw [List.find?_cons, hzero]
    rw [usedFor, hlisted, orFirst_of_not_good hone hfirst]
  have hwait : (waitModemReadyForSms threeRetries 1 true [false]).result oneDisabled =
      .ok true := by
    rw [result_wait threeRetries (by rw [hlisted]; decide), hused, hzero]
    rfl
  have hstatus : exitStatus ((waitAll threeRetries noDevices (fun _ => [false])).result
      oneDisabled) = 0 := exitStatus_waitAll _ _ _ |>.mpr (Or.inl (by decide))
  refine ⟨⟨hwait, hstatus, hwaited, hunusable⟩, ?_⟩
  intro h
  have htells := h oneDisabled threeRetries noDevices (fun _ => [false])
  exact hunusable (htells.command hstatus 1 hwaited)

end HiWaveTel.ModemReady
