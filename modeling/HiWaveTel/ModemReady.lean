import HiWaveTel.ModemIdentity
import HiWaveTel.ModemIndex
import HiWaveTel.Foundation.Dialogue
import HiWaveTel.Foundation.Lines
import HiWaveTel.Foundation.Unicode

/- The wait for a usable modem (`modem_ready.py`), with each command of `mmcli` that it gives. A
   session asks for the outcome of a command, which is all it knows of the modems: every state is
   read again when it is needed, and may have changed. -/
namespace HiWaveTel.ModemReady
open Foundation

/-! ## What is read from the output -/

/-- `[a-z_-]` under `re.IGNORECASE`. -/
def isStateChar (c : Char) : Bool :=
  c.isAlpha || c == '_' || c == '-' ||
    (c.toNat == 0x130 || c.toNat == 0x131 || c.toNat == 0x17F || c.toNat == 0x212A)

/-- `_STATE_LINE_RE` at the front. -/
def matchStateLine (s : Str) : Option Str :=
  match Text.afterLiteral "state:".toList s with
  | none => none
  | some rest =>
    let state := (rest.dropWhile Text.isSpace).takeWhile isStateChar
    if state = [] then none else some state

/-- `parse_modem_state`. -/
def parseModemState (cp : CompletedProcess) : Str :=
  match (Text.splitLines (haystack cp)).findSome? (Text.search matchStateLine) with
  | some state => Text.lower state
  | none => "unknown".toList

example : parseModemState ⟨0, "modem.generic.state:\tenabled\n".toList, []⟩ = "enabled".toList := by
  decide +kernel

/-- `_SIM_PATH_RE` at the front; `mmcli` prints ASCII digits only. -/
def matchSimPath (s : Str) : Option Str :=
  let literal := "/org/freedesktop/ModemManager1/SIM/".toList
  if literal.isPrefixOf s then
    let digits := (s.drop literal.length).takeWhile Char.isDigit
    if digits = [] then none else some (literal ++ digits)
  else none

/-- `_extract_sim_path_from_modem_overview`. -/
def extractSimPathFromModemOverview (haystack : Str) : Str :=
  (Text.search matchSimPath haystack).getD []

/-- A label, `\s*sim-pin\b` after it. -/
def matchSimPin (label : Str) (s : Str) : Bool :=
  match Text.afterLiteral label s with
  | none => false
  | some rest =>
    match Text.afterLiteral "sim-pin".toList (rest.dropWhile Text.isSpace) with
    | none => false
    | some rest => Text.endsWord rest

/-- `_SIM_PIN_ACTIVE_RE`. -/
def simPinActive (haystack : Str) : Bool :=
  (Text.search (fun s =>
    if matchSimPin "sim lock status:".toList s || matchSimPin "unlock required:".toList s
    then some () else none) haystack).isSome

/-- `_modem_overview_reports_sim_pin_lock`. -/
def modemOverviewReportsSimPinLock (haystack : Str) : Bool :=
  Text.searchWord (matchSimPin "lock:".toList) false haystack

def modemMissing (cp : CompletedProcess) : Bool :=
  Text.contains (Text.lower (haystack cp)) "couldn't find modem".toList

/-- `_pin_unlock_not_needed`. -/
def pinUnlockNotNeeded (text : Str) : Bool :=
  Text.contains (Text.lower text) "not sim-pin locked".toList ||
    Text.contains (Text.lower text) "device is not sim-pin locked".toList

/-- `_mmcli_command_ok`. -/
def mmcliCommandOk (cp : CompletedProcess) : Bool :=
  cp.returncode == 0 && !Text.contains (Text.lower (haystack cp)) "error:".toList

/-! ## The PIN of a modem -/

/-- `os.environ`. -/
abbrev Environ := List (Str × Str)

def modemEnvKey (modemIndex : Nat) (suffix : Str) : Str :=
  "MODEM_".toList ++ Text.ofNat modemIndex ++ "_".toList ++ suffix

def getModemEnv (environ : Environ) (modemIndex : Nat) (suffix : Str) : Str :=
  stripEnvValue ((Dict.get environ (modemEnvKey modemIndex suffix)).getD [])

/-- `_ENV_KEY_RE.match`: the index. -/
def matchEnvKey (key : Str) : Option Nat :=
  let literal := "MODEM_".toList
  if literal.isPrefixOf key then
    let rest := key.drop literal.length
    let suffix := rest.dropWhile Char.isDigit
    let body := (suffix.drop 1).takeWhile (· != '\n')
    let tail := (suffix.drop 1).dropWhile (· != '\n')
    if suffix.head? = some '_' ∧ body ≠ [] ∧ (tail = [] ∨ tail = ['\n']) then
      Text.toNat? (rest.takeWhile Char.isDigit)
    else none
  else none

/-- `list_modem_indices_from_env`. -/
def listModemIndicesFromEnv (environ : Environ) : List Nat :=
  sortedSet (environ.filterMap (fun kv => matchEnvKey kv.1))

/-- `get_modem_pin_code`: that of the modem, or the only one there is. -/
def getModemPinCode (environ : Environ) (modemIndex : Nat) : Str :=
  let code := getModemEnv environ modemIndex "DEVICE_PIN_CODE".toList
  if code ≠ [] then code
  else
    match ((listModemIndicesFromEnv environ).map (fun idx =>
      getModemEnv environ idx "DEVICE_PIN_CODE".toList)).filter (fun pin => pin != []) with
    | [pin] => pin
    | _ => []

/-! ## Commands -/

inductive MmcliCommand where
  | listModems                                  -- `-L`
  | scanModems                                  -- `-S`
  | showModem (modemIndex : Nat)                -- `-m N`
  | showSim (simPath : Str)                     -- `-i PATH`
  | pinSim (simPath code : Str)                 -- `-i PATH --pin CODE`
  | pinModem (modemIndex : Nat) (code : Str)    -- `-m N --pin CODE`
  | enableModem (modemIndex : Nat)              -- `-m N --enable`
  | resetModem (modemIndex : Nat)               -- `-m N --reset`
  | listSms (modemIndex : Nat)                  -- `-m N --messaging-list-sms`
  deriving DecidableEq, Repr

abbrev Session := Dialogue MmcliCommand RunResult

/-- What a `try` that catches every exception leaves of an outcome. -/
def caught : RunResult → Option CompletedProcess
  | .completed returncode stdout stderr => some ⟨returncode, stdout, stderr⟩
  | .timeout => none
  | .launchFailed => none

/-- `subprocess.run` in such a `try`. -/
def runCaught (command : MmcliCommand) : Session (Option CompletedProcess) :=
  .ask command (fun r => .done (caught r))

def getModemState (modemIndex : Nat) : Session Str := do
  match ← runCaught (.showModem modemIndex) with
  | none => return "missing".toList
  | some cp => return if modemMissing cp then "missing".toList else parseModemState cp

/-- `_sim_path_needs_pin_unlock`. -/
def simPathNeedsPinUnlock (simPath : Str) : Session Bool := do
  match ← runCaught (.showSim simPath) with
  | none => return false
  | some cp => return simPinActive (haystack cp)

def simPinLockActive (modemIndex : Nat) : Session Bool := do
  let state ← getModemState modemIndex
  if readyStates.contains state then return false
  else
    match ← runCaught (.showModem modemIndex) with
    | none => return state == "locked".toList
    | some cp =>
      if modemMissing cp then return false
      else
        let overviewPinLock := modemOverviewReportsSimPinLock (haystack cp)
        let simPath := extractSimPathFromModemOverview (haystack cp)
        let simPinLock ← (if simPath ≠ [] then simPathNeedsPinUnlock simPath else pure false)
        return overviewPinLock || simPinLock || (state == "locked".toList && simPath == [])

/-! ## try_unlock_sim_pin -/

/-- `unlock_text`. -/
def unlockText (unlock : CompletedProcess) : Str :=
  Text.strip (if unlock.stderr ≠ [] then unlock.stderr else unlock.stdout)

/-- The commands of one attempt, and the loop over them: whether it returns from the function. -/
def pinCommands (modemIndex : Nat) (simPath code : Str) : List MmcliCommand :=
  (if simPath ≠ [] then [.pinSim simPath code] else []) ++ [.pinModem modemIndex code]

/-- What follows one of them; `others` are those after it. -/
def afterPin (modemIndex : Nat) (others : Session Bool) : Option CompletedProcess → Session Bool
  | none => others
  | some unlock => do
    if pinUnlockNotNeeded (unlockText unlock) then return true
    else if mmcliCommandOk unlock then
      if ← simPinLockActive modemIndex then others else return true
    else others

def submitPin (modemIndex : Nat) : List MmcliCommand → Session Bool
  | [] => return false
  | command :: commands => do
    afterPin modemIndex (submitPin modemIndex commands) (← runCaught command)

/-- The SIM path of the overview, when that can be read. -/
def readSimPath (modemIndex : Nat) : Session Str := do
  match ← runCaught (.showModem modemIndex) with
  | none => return []
  | some cp => return extractSimPathFromModemOverview (haystack cp)

/-- The loop, with that many attempts left. -/
def unlockLoop (modemIndex : Nat) (code : Str) : Nat → Session Bool
  | 0 => return false
  | n + 1 => do
    let pinLockActive ← simPinLockActive modemIndex
    let state ← getModemState modemIndex
    if !pinLockActive && (readyStates.contains state || state != "locked".toList) then return true
    else
      let simPath ← readSimPath modemIndex
      if ← submitPin modemIndex (pinCommands modemIndex simPath code) then return true
      else unlockLoop modemIndex code n

/-- `max_retries` and the like of the client, the environment, and `SIM_UNLOCK_RETRIES`. -/
structure ReadySettings where
  client : MmcliSettings
  environ : Environ
  simUnlockRetries : Int

/-- `max_attempts`. -/
def ReadySettings.maxAttempts (cfg : ReadySettings) : Nat := (max 1 cfg.simUnlockRetries).toNat

def tryUnlockSimPin (cfg : ReadySettings) (modemIndex : Nat) : Session Bool :=
  let code := getModemPinCode cfg.environ modemIndex
  if code = [] then return false
  else unlockLoop modemIndex code cfg.maxAttempts

/-! ## The other ways to recover -/

/-- `_ENABLE_STATES`. -/
def enableStates : List Str := ["disabled".toList, "unknown".toList]

def tryEnableModem (modemIndex : Nat) : Session Unit := do
  let state ← getModemState modemIndex
  if readyStates.contains state || state == "missing".toList || state == "locked".toList then
    return
  else if ← simPinLockActive modemIndex then return
  else if !enableStates.contains state then return
  else
    let _ ← runCaught (.enableModem modemIndex)
    return

def tryResetModem (modemIndex : Nat) : Session Bool := do
  let state ← getModemState modemIndex
  if state ≠ "failed".toList then return false
  else
    match ← runCaught (.resetModem modemIndex) with
    | none => return false
    | some cp => return cp.returncode == 0

def tryRescanModems : Session Unit := do
  let _ ← runCaught .scanModems
  return

def messagingInterfaceReady (modemIndex : Nat) : Session Bool := do
  match ← runCaught (.listSms modemIndex) with
  | none => return false
  | some cp => return cp.returncode == 0

/-- `_recover_modem_state`. -/
def recoverModemState (cfg : ReadySettings) (modemIndex : Nat) : Session Unit := do
  let state ← getModemState modemIndex
  if state = "failed".toList then
    if ← tryResetModem modemIndex then tryRescanModems else return
  else if state = "locked".toList then
    let _ ← tryUnlockSimPin cfg modemIndex
    return
  else if ← simPinLockActive modemIndex then
    let _ ← tryUnlockSimPin cfg modemIndex
    return
  else if enableStates.contains state then tryEnableModem modemIndex
  else return

/-! ## The wait -/

/-- What a method of the client comes to with one run. -/
def oneRun {α : Type} : Option (Except Raised α × Unit × List RunResult) → Except Raised α
  | some (res, _, _) => res
  | none => .error .other

/-- A method that runs `mmcli -L`. -/
def askListing {α : Type} (m : Mmcli Unit α) : Session (Except Raised α) :=
  .ask .listModems (fun r => .done (oneRun (m () [r])))

/-- `_ready`. -/
def modemIsReady (modemIndex : Nat) : Session Bool := do
  return readyStates.contains (← getModemState modemIndex)

/-- The loop of `resolve_modem_mmcli_index` over the other modems. -/
def firstReady (want : Nat) : List Nat → Session (Option Nat)
  | [] => return none
  | idx :: rest => do
    if idx = want then firstReady want rest
    else if ← modemIsReady idx then return some idx
    else firstReady want rest

/-- The choice among the modems that are listed; `none` is the primary one. -/
def chooseIndex (want : Nat) (present : List Nat) : Session (Option Nat) := do
  let ready ← (if want ∈ present then modemIsReady want else pure false)
  if ready then return some want
  else
    match ← firstReady want (present.insertionSort (· ≤ ·)) with
    | some idx => return some idx
    | none => return if want ∈ present then some want else none

def resolveModemMmcliIndex (cfg : MmcliSettings) (want : Nat) : Session (Except Raised Nat) := do
  match ← askListing (listModemIndices cfg) with
  | .error e => return .error e
  | .ok present =>
    if present = [] then return .error (.mmcli (noModems want))
    else
      match ← chooseIndex want present with
      | some idx => return .ok idx
      | none => askListing (primaryModemIndex cfg)

/-- `_resolve_working_modem_index`. -/
def resolveWorkingModemIndex (cfg : MmcliSettings) (configured : Nat) :
    Session (Except Raised (Option Nat)) := do
  match ← resolveModemMmcliIndex cfg configured with
  | .ok idx => return .ok (some idx)
  | .error (.mmcli _) => return .ok none
  | .error .other => return .error .other

/-- The turn of a modem: whether it is ready, else what can be done about that. -/
def modemTurn (cfg : ReadySettings) (requireMessaging : Bool) (modemIndex : Nat) :
    Session Bool := do
  let state ← getModemState modemIndex
  let ready ← (if readyStates.contains state then
      if requireMessaging then messagingInterfaceReady modemIndex else pure true
    else pure false)
  if ready then return true
  else
    recoverModemState cfg modemIndex
    return false

/-- `wait_modem_ready_for_sms`. There is an entry for each turn before the deadline, which says
    whether a rescan is due. -/
def waitModemReadyForSms (cfg : ReadySettings) (configured : Nat) (requireMessaging : Bool) :
    List Bool → Session (Except Raised Bool)
  | [] => do
    match ← resolveWorkingModemIndex cfg.client configured with
    | .error e => return .error e
    | .ok none => return .ok false
    | .ok (some activeIndex) =>
      let _ ← getModemState activeIndex
      return .ok false
  | rescanDue :: turns => do
    match ← resolveWorkingModemIndex cfg.client configured with
    | .error e => return .error e
    | .ok none =>
      let _ ← (if rescanDue then tryRescanModems else pure ())
      waitModemReadyForSms cfg configured requireMessaging turns
    | .ok (some modemIndex) =>
      if ← modemTurn cfg requireMessaging modemIndex then return .ok true
      else waitModemReadyForSms cfg configured requireMessaging turns

/-! ## What is asked -/

def MmcliCommand.isPin : MmcliCommand → Bool
  | .pinSim _ _ => true
  | .pinModem _ _ => true
  | _ => false

/-- Neither a PIN nor the listing that starts a turn. -/
def MmcliCommand.Plain (command : MmcliCommand) : Prop :=
  command.isPin = false ∧ command ≠ .listModems

section Asked
variable {P : MmcliCommand → Prop} {modemIndex : Nat}

theorem asksOnly_runCaught {command : MmcliCommand} (h : P command) :
    (runCaught command).AsksOnly P :=
  Dialogue.asksOnly_ask h (fun _ => Dialogue.asksOnly_done _)

/-- A command whose outcome is looked at. -/
theorem asksOnly_runCaught_bind {α : Type} {command : MmcliCommand}
    {f : Option CompletedProcess → Session α} (h : P command) (hnone : (f none).AsksOnly P)
    (hsome : ∀ cp, (f (some cp)).AsksOnly P) : (runCaught command >>= f).AsksOnly P := by
  refine Dialogue.asksOnly_bind (asksOnly_runCaught h) (fun cp => ?_)
  cases cp with
  | none => exact hnone
  | some cp => exact hsome cp

theorem plain_getModemState : (getModemState modemIndex).AsksOnly MmcliCommand.Plain :=
  asksOnly_runCaught_bind ⟨rfl, by simp⟩ (Dialogue.asksOnly_done _)
    (fun _ => Dialogue.asksOnly_done _)

theorem plain_simPathNeedsPinUnlock (simPath : Str) :
    (simPathNeedsPinUnlock simPath).AsksOnly MmcliCommand.Plain :=
  asksOnly_runCaught_bind ⟨rfl, by simp⟩ (Dialogue.asksOnly_done _)
    (fun _ => Dialogue.asksOnly_done _)

theorem plain_simPinLockActive : (simPinLockActive modemIndex).AsksOnly MmcliCommand.Plain := by
  refine Dialogue.asksOnly_bind plain_getModemState (fun state => ?_)
  split
  · exact Dialogue.asksOnly_done _
  · refine asksOnly_runCaught_bind ⟨rfl, by simp⟩ (Dialogue.asksOnly_done _) (fun cp => ?_)
    dsimp only
    split
    · exact Dialogue.asksOnly_done _
    · refine Dialogue.asksOnly_bind ?_ (fun simPinLock => Dialogue.asksOnly_done _)
      split
      · exact plain_simPathNeedsPinUnlock _
      · exact Dialogue.asksOnly_done _

theorem plain_readSimPath : (readSimPath modemIndex).AsksOnly MmcliCommand.Plain :=
  asksOnly_runCaught_bind ⟨rfl, by simp⟩ (Dialogue.asksOnly_done _)
    (fun _ => Dialogue.asksOnly_done _)

theorem plain_tryEnableModem : (tryEnableModem modemIndex).AsksOnly MmcliCommand.Plain := by
  refine Dialogue.asksOnly_bind plain_getModemState (fun state => ?_)
  split
  · exact Dialogue.asksOnly_done _
  · refine Dialogue.asksOnly_bind plain_simPinLockActive (fun locked => ?_)
    split
    · exact Dialogue.asksOnly_done _
    · split
      · exact Dialogue.asksOnly_done _
      · exact Dialogue.asksOnly_bind (asksOnly_runCaught ⟨rfl, by simp⟩)
          (fun _ => Dialogue.asksOnly_done _)

theorem plain_tryRescanModems : tryRescanModems.AsksOnly MmcliCommand.Plain :=
  Dialogue.asksOnly_bind (asksOnly_runCaught ⟨rfl, by simp⟩) (fun _ => Dialogue.asksOnly_done _)

theorem plain_tryResetModem : (tryResetModem modemIndex).AsksOnly MmcliCommand.Plain := by
  refine Dialogue.asksOnly_bind plain_getModemState (fun state => ?_)
  split
  · exact Dialogue.asksOnly_done _
  · exact asksOnly_runCaught_bind ⟨rfl, by simp⟩ (Dialogue.asksOnly_done _)
      (fun _ => Dialogue.asksOnly_done _)

theorem plain_messagingInterfaceReady :
    (messagingInterfaceReady modemIndex).AsksOnly MmcliCommand.Plain :=
  asksOnly_runCaught_bind ⟨rfl, by simp⟩ (Dialogue.asksOnly_done _)
    (fun _ => Dialogue.asksOnly_done _)

theorem plain_modemIsReady : (modemIsReady modemIndex).AsksOnly MmcliCommand.Plain :=
  Dialogue.asksOnly_bind plain_getModemState (fun _ => Dialogue.asksOnly_done _)

theorem plain_firstReady (want : Nat) (indices : List Nat) :
    (firstReady want indices).AsksOnly MmcliCommand.Plain := by
  induction indices with
  | nil => exact Dialogue.asksOnly_done _
  | cons idx rest ih =>
    unfold firstReady
    split
    · exact ih
    · refine Dialogue.asksOnly_bind plain_modemIsReady (fun ready => ?_)
      split
      · exact Dialogue.asksOnly_done _
      · exact ih

theorem plain_chooseIndex (want : Nat) (present : List Nat) :
    (chooseIndex want present).AsksOnly MmcliCommand.Plain := by
  refine Dialogue.asksOnly_bind ?_ (fun ready => ?_)
  · split
    · exact plain_modemIsReady
    · exact Dialogue.asksOnly_done _
  · split
    · exact Dialogue.asksOnly_done _
    · refine Dialogue.asksOnly_bind (plain_firstReady want _) (fun idx => ?_)
      cases idx with
      | none => exact Dialogue.asksOnly_done _
      | some idx => exact Dialogue.asksOnly_done _

/-- The resolver gives no PIN. -/
theorem noPin_resolveWorkingModemIndex (cfg : MmcliSettings) (configured : Nat) :
    (resolveWorkingModemIndex cfg configured).AsksOnly (fun c => c.isPin = false) := by
  have hlisting : ∀ {α : Type} (m : Mmcli Unit α),
      (askListing m).AsksOnly (fun c => c.isPin = false) := by
    intro α m
    exact Dialogue.asksOnly_ask rfl (fun r => Dialogue.asksOnly_done _)
  refine Dialogue.asksOnly_bind ?_ (fun res => ?_)
  · refine Dialogue.asksOnly_bind (hlisting _) (fun listed => ?_)
    cases listed with
    | error e => exact Dialogue.asksOnly_done _
    | ok present =>
      dsimp only
      split
      · exact Dialogue.asksOnly_done _
      · refine Dialogue.asksOnly_bind ((plain_chooseIndex configured present).mono
          (fun _ h => h.1)) (fun idx => ?_)
        cases idx with
        | none => exact hlisting _
        | some idx => exact Dialogue.asksOnly_done _
  · split <;> exact Dialogue.asksOnly_done _

end Asked

/-! ## Fixed answers

While every command is answered the same, a modem has one state, and the resolver is that of
`ModemIndex`, for which the states are given. -/

section Fixed
variable (world : MmcliCommand → RunResult)

def stateIn (modemIndex : Nat) : Str := (getModemState modemIndex).result world

theorem result_modemIsReady (modemIndex : Nat) :
    (modemIsReady modemIndex).result world = isReady (stateIn world) modemIndex := by
  rw [modemIsReady, Dialogue.result_bind, Dialogue.result_pure]
  rfl

theorem result_firstReady (want : Nat) (indices : List Nat) :
    (firstReady want indices).result world =
      indices.find? (fun idx => idx != want && isReady (stateIn world) idx) := by
  induction indices with
  | nil => rfl
  | cons idx rest ih =>
    rw [firstReady, List.find?_cons]
    by_cases heq : idx = want
    · rw [if_pos heq, ih, heq, bne_self_eq_false, Bool.false_and]
    · rw [if_neg heq, Dialogue.result_bind, result_modemIsReady, bne_iff_ne.mpr heq, Bool.true_and]
      cases isReady (stateIn world) idx with
      | true => rfl
      | false => exact ih

theorem result_chooseIndex (want : Nat) (present : List Nat) :
    (chooseIndex want present).result world = chosenIndex want present (stateIn world) := by
  have hready : (if want ∈ present then modemIsReady want else pure false).result world =
      decide (want ∈ present ∧ isReady (stateIn world) want = true) := by
    by_cases hmem : want ∈ present
    · rw [if_pos hmem, result_modemIsReady]
      simp [hmem]
    · rw [if_neg hmem, Dialogue.result_pure]
      simp [hmem]
  rw [chooseIndex, Dialogue.result_bind, hready, chosenIndex]
  by_cases hboth : want ∈ present ∧ isReady (stateIn world) want = true
  · rw [if_pos hboth, if_pos (decide_eq_true hboth), Dialogue.result_pure]
  · rw [if_neg hboth, if_neg (by simpa using hboth), Dialogue.result_bind, result_firstReady]
    cases (present.insertionSort (· ≤ ·)).find?
      (fun idx => idx != want && isReady (stateIn world) idx) with
    | some idx => rfl
    | none => rfl

theorem result_resolveModemMmcliIndex (cfg : MmcliSettings) (want : Nat) :
    (resolveModemMmcliIndex cfg want).result world =
      match (askListing (listModemIndices cfg)).result world with
      | .error e => .error e
      | .ok present =>
        if present = [] then .error (.mmcli (noModems want))
        else
          match chosenIndex want present (stateIn world) with
          | some idx => .ok idx
          | none => (askListing (primaryModemIndex cfg)).result world := by
  rw [resolveModemMmcliIndex, Dialogue.result_bind]
  cases (askListing (listModemIndices cfg)).result world with
  | error e => rfl
  | ok present =>
    dsimp only
    by_cases hnone : present = []
    · rw [if_pos hnone, if_pos hnone, Dialogue.result_pure]
    · rw [if_neg hnone, if_neg hnone, Dialogue.result_bind, result_chooseIndex]
      cases chosenIndex want present (stateIn world) <;> rfl

theorem result_askListing {α : Type} (m : Mmcli Unit α) :
    (askListing m).result world = oneRun (m () [world .listModems]) := rfl

end Fixed

end HiWaveTel.ModemReady
