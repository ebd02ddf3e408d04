import HiWaveTel.ModemIdentity
import HiWaveTel.ModemIndex
import HiWaveTel.StorageRotation
import HiWaveTel.TransientRetries

/- Readiness of the system (`modem_readiness.evaluate_sms_readiness`). The modem is asked one thing
   after the other. What has been found when an `MmcliError` ends the questions is kept, so the
   state of the program is the locals of the function. The state of a modem and the lock of its
   SIM come from runs of `mmcli` that raise nothing.

   `issues_report` is the step: a check leaves no issue when it is passed.
   `readiness_explained_iff`: ready and free of issues are the same, unless the last run, that
   for the SIM, times out. -/
namespace HiWaveTel
open Foundation

/-! ## Client calls -/

section Client
variable {σ α : Type} (cfg : MmcliSettings)

def modemPing : Mmcli σ (Bool × Str) := do
  let cp ← run cfg
  let err := Text.strip (cp.stderr ++ "\n".toList ++ cp.stdout)
  pure (cp.returncode == 0, err.take 2000)

/-- A `try` whose `MmcliError` is looked at. -/
def attempt (m : Mmcli σ α) : Mmcli σ (Except MmcliError α) :=
  Script.handle (do return .ok (← m))
    (fun
      | .mmcli exc => some (pure (.error exc))
      | .other => none)

end Client

/-! ## Findings -/

structure ReadinessIssue where
  code : Str
  message : Str
  deriving DecidableEq, Repr

/-- `{'ok': …}`, and what was looked at. -/
structure Component (α : Type) where
  ok : Bool
  value : α
  deriving DecidableEq, Repr

structure ReadinessComponents where
  smsWatcher : Option (Component Bool) := none
  modemEnumerated : Option (Component (List Nat)) := none
  modemState : Option (Component Str) := none
  simLock : Option (Component Bool) := none
  mmcliPing : Option (Component Str) := none
  phoneNumber : Option (Component (Option Str)) := none
  deriving DecidableEq, Repr

/-- The locals of `evaluate_sms_readiness`. -/
structure ReadinessLocals where
  issues : List ReadinessIssue := []
  components : ReadinessComponents := {}
  effectiveIndex : Option Nat := none
  modemState : Str := "unknown".toList
  phoneNumber : Str := []
  pingOk : Bool := false
  simLocked : Bool := false
  deriving DecidableEq, Repr

namespace ReadinessLocals

/-- An issue is appended unless the check is passed. -/
def report (ok : Bool) (code : String) (message : Str) (s : ReadinessLocals) : ReadinessLocals :=
  if ok then s else { s with issues := s.issues ++ [⟨code.toList, message⟩] }

def recordWatcher (configured : Bool) (s : ReadinessLocals) : ReadinessLocals :=
  { s with components := { s.components with smsWatcher := some ⟨configured, configured⟩ } }.report
    configured "sms_watcher_disabled"
    "RUN_SMS_WATCHER is disabled; inbound SMS via D-Bus watcher will not run.".toList

def recordListing (indices : List Nat) (s : ReadinessLocals) : ReadinessLocals :=
  let ok := indices != []
  { s with components := { s.components with modemEnumerated := some ⟨ok, indices⟩ } }.report
    ok "no_modem" "ModemManager returned zero modems via mmcli -L.".toList

def recordIndexMissing (indices : List Nat) (exc : MmcliError) (s : ReadinessLocals) :
    ReadinessLocals :=
  { s with components := { s.components with modemEnumerated := some ⟨false, indices⟩ } }.report
    false "modem_index_missing" (exc.message.take 512)

def recordState (modemIndex : Nat) (state : Str) (s : ReadinessLocals) : ReadinessLocals :=
  let ok := readyStates.contains state
  { s with
    effectiveIndex := some modemIndex
    modemState := state
    components := { s.components with modemState := some ⟨ok, state⟩ } }.report
    ok "modem_not_ready"
    ("Modem state is ".toList ++ state ++ " (expected enabled or registered).".toList)

def recordSimLock (locked : Bool) (s : ReadinessLocals) : ReadinessLocals :=
  { s with
    simLocked := locked
    components := { s.components with simLock := some ⟨!locked, locked⟩ } }.report
    (!locked) "sim_pin_locked" "SIM reports PIN lock; unlock required before SMS.".toList

def recordPing (ping : Bool × Str) (s : ReadinessLocals) : ReadinessLocals :=
  { s with
    pingOk := ping.1
    components := { s.components with mmcliPing := some ⟨ping.1, ping.2.take 500⟩ } }.report
    ping.1 "mmcli_unreachable"
    ((if ping.2 = [] then "mmcli modem ping failed.".toList else ping.2).take 512)

def recordPhone (phone : Str) (s : ReadinessLocals) : ReadinessLocals :=
  let ok := phone != []
  { s with
    phoneNumber := phone
    components := { s.components with
      phoneNumber := some ⟨ok, if phone = [] then none else some phone⟩ } }.report
    ok "phone_number_missing"
    "Could not resolve modem phone number from mmcli or configuration.".toList

/-- The outer `except MmcliError`. -/
def recordUnreachable (exc : MmcliError) (s : ReadinessLocals) : ReadinessLocals :=
  { s with components := { s.components with modemEnumerated := some ⟨false, []⟩ } }.report
    false "mmcli_unreachable" (exc.message.take 512)

/-- `modem_ok`. -/
def modemOk (s : ReadinessLocals) : Bool :=
  s.effectiveIndex.isSome && readyStates.contains s.modemState && !s.simLocked && s.pingOk

end ReadinessLocals

/-! ## evaluate_sms_readiness -/

structure Capabilities where
  inboundSms : Bool
  outboundSms : Bool
  deriving DecidableEq, Repr

structure ReadinessSnapshot where
  ready : Bool
  phoneNumber : Str
  modemIndex : Option Nat
  modemState : Str
  checkedAt : Str
  capabilities : Capabilities
  issues : List ReadinessIssue
  components : ReadinessComponents
  lastPersistedAt : Option Str
  deriving DecidableEq, Repr

/-- The issues that rule out `ready`. -/
def blockingCodes : List Str :=
  ["no_modem", "modem_index_missing", "sim_pin_locked", "phone_number_missing"].map String.toList

/-- What the call sees besides its runs of `mmcli`. -/
structure ReadinessReadings where
  states : Nat → Str        -- while the index is resolved
  state : Str               -- of the resolved modem, read again
  simLocked : Bool          -- `modem_overview_needs_sim_unlock`
  phoneEnv : Nat → Str      -- `MODEM_N_DEVICE_PHONE_NUMBER`

def readinessSnapshot (watcher : Bool) (checkedAt : Str) (s : ReadinessLocals) :
    ReadinessSnapshot :=
  let outboundSms := s.modemOk
  let inboundSms := outboundSms && watcher
  { ready := outboundSms && inboundSms &&
      !s.issues.any (fun issue => blockingCodes.contains issue.code)
    phoneNumber := s.phoneNumber
    modemIndex := s.effectiveIndex
    modemState := s.modemState
    checkedAt := checkedAt
    capabilities := ⟨inboundSms, outboundSms⟩
    issues := s.issues
    components := s.components
    lastPersistedAt := none }     -- `_load_last_persisted`

section Readiness
variable (loads : Str → Option Json) (cfg : MmcliSettings) (readings : ReadinessReadings)

/-- The number to use: that of the identity, or the configured one. -/
def readinessPhone (modemIndex : Nat) (identity : ModemIdentity) : Str :=
  let phone := normalizePhoneE164 identity.phoneNumber
  if phone = [] then getModemPhoneNumber readings.phoneEnv modemIndex else phone

/-- The checks of the resolved modem. -/
def checkResolvedModem (modemIndex : Nat) : Mmcli ReadinessLocals Unit := do
  Script.modify (fun s =>
    (s.recordState modemIndex readings.state).recordSimLock readings.simLocked)
  let ping ← modemPing cfg
  Script.modify (ReadinessLocals.recordPing ping)
  let identity ← probeModemIdentity loads cfg readings.phoneEnv modemIndex none
  Script.modify (ReadinessLocals.recordPhone (readinessPhone readings modemIndex identity))

/-- The `try` of `evaluate_sms_readiness`. -/
def readinessChecks (configured : Nat) : Mmcli ReadinessLocals Unit := do
  let indices ← listModemIndices cfg
  Script.modify (ReadinessLocals.recordListing indices)
  if indices = [] then pure ()
  else
    match ← attempt (resolveModemMmcliIndex cfg readings.states configured) with
    | .error exc => Script.modify (ReadinessLocals.recordIndexMissing indices exc)
    | .ok modemIndex => checkResolvedModem loads cfg readings modemIndex

/-- `evaluate_sms_readiness`: what it returns or raises, and the runs that are left. -/
def evaluateSmsReadiness (watcher : Bool) (configured : Nat) (checkedAt : Str)
    (extraIssues : List ReadinessIssue) (rs : List RunResult) :
    Option (Except Raised ReadinessSnapshot × List RunResult) :=
  let checks := Script.handle (readinessChecks loads cfg readings configured)
    (fun
      | .mmcli exc => some (Script.modify (ReadinessLocals.recordUnreachable exc))
      | .other => none)
  match checks (({ issues := extraIssues } : ReadinessLocals).recordWatcher watcher) rs with
  | none => none
  | some (.error e, _, rest) => some (.error e, rest)
  | some (.ok _, s, rest) => some (.ok (readinessSnapshot watcher checkedAt s), rest)

end Readiness

/-! ## What the client calls come to -/

section Calls
variable {σ α : Type} {cfg : MmcliSettings} {s s' : σ} {rs rest : List RunResult}

theorem contained_modemPing : MmcliContained 1 (modemPing cfg : Mmcli σ (Bool × Str)) :=
  contained_bind (k := 0) contained_run (fun _ => contained_pure 0 _)

theorem contained_attempt {n : Nat} {m : Mmcli σ α} (h : MmcliContained n m) :
    MmcliContained n (attempt m) := by
  refine Script.escapes_handle (k := 0) ?_ ?_
  · exact contained_bind (k := 0) h (fun a => contained_pure 0 _)
  · intro e k hclause
    cases e with
    | mmcli exc =>
      cases hclause
      exact ⟨Raised.noConfusion, contained_pure 0 _⟩
    | other => cases hclause

/-- A method of the client leaves the state alone. -/
theorem state_eq_of_contained {n : Nat} {m : Mmcli σ α} (hm : MmcliContained n m)
    {res : Except Raised α} (h : m s rs = some (res, s', rest)) : s' = s := by
  obtain ⟨used, _, hat⟩ := hm.ends s rs res s' rest h
  exact hat.state.symm

theorem attempt_cases {m : Mmcli σ α} {res : Except Raised (Except MmcliError α)}
    (h : attempt m s rs = some (res, s', rest)) :
    (∃ a, m s rs = some (.ok a, s', rest) ∧ res = .ok (.ok a)) ∨
    (∃ exc, m s rs = some (.error (.mmcli exc), s', rest) ∧ res = .ok (.error exc)) ∨
    (m s rs = some (.error .other, s', rest) ∧ res = .error .other) := by
  rcases Script.handle_cases h with ⟨hbody, hnot⟩ | ⟨e, k, s₁, rest₁, hbody, hclause, hthen⟩
  · rcases Script.bind_cases hbody with ⟨e, hm, rfl⟩ | ⟨a, s₁, rest₁, hm, hpure⟩
    · cases e with
      | mmcli exc => cases hnot (.mmcli exc) rfl
      | other => exact Or.inr (Or.inr ⟨hm, rfl⟩)
    · cases hpure
      exact Or.inl ⟨a, hm, rfl⟩
  · rcases Script.bind_cases hbody with ⟨e', hm, he⟩ | ⟨_, _, _, _, hpure⟩
    · cases he
      cases e with
      | mmcli exc =>
        cases hclause
        cases hthen
        exact Or.inr (Or.inl ⟨exc, hm, rfl⟩)
      | other => cases hclause
    · cases hpure

theorem attempt_failed {m : Mmcli σ α} {exc : MmcliError}
    (h : m s rs = some (.error (.mmcli exc), s', rest)) :
    attempt m s rs = some (.ok (.error exc), s', rest) := by
  have hbody : (do return .ok (← m) : Mmcli σ (Except MmcliError α)) s rs =
      some (.error (.mmcli exc), s', rest) := by
    show Script.bind m _ s rs = _
    unfold Script.bind
    rw [h]
  unfold attempt Script.handle
  rw [hbody]
  rfl

theorem listModemIndices_failed (cfg : MmcliSettings) (s : σ) (rs : List RunResult)
    {returncode : Int} {stdout stderr : Str} (h : returncode ≠ 0) :
    ∃ exc, listModemIndices cfg s (.completed returncode stdout stderr :: rs) =
      some (.error (.mmcli exc), s, rs) := by
  have hcheck : listModemIndices cfg s (.completed returncode stdout stderr :: rs) =
      Script.bind (ensureOk ⟨returncode, stdout, stderr⟩ "mmcli -L".toList)
        (fun _ => Script.pure (sortedSet
          (Text.findAll matchModemPath (haystack ⟨returncode, stdout, stderr⟩)))) s rs := rfl
  rw [hcheck, ensureOk, notOk, if_neg h]
  exact ⟨_, rfl⟩

/-- A listing is that of a run that ends with zero. -/
theorem listModemIndices_ok {indices : List Nat} :
    listModemIndices cfg s rs = some (.ok indices, s', rest) ↔
      s' = s ∧ ∃ stdout stderr, rs = .completed 0 stdout stderr :: rest ∧
        indices = listedIndices stdout stderr := by
  constructor
  · intro h
    cases rs with
    | nil => cases h
    | cons r rs =>
      cases r with
      | completed returncode stdout stderr =>
        by_cases hzero : returncode = 0
        · subst hzero
          cases h
          exact ⟨rfl, stdout, stderr, rfl, rfl⟩
        · obtain ⟨exc, hraise⟩ := listModemIndices_failed cfg s rs hzero
          rw [hraise] at h
          cases h
      | timeout => cases h
      | launchFailed => cases h
  · rintro ⟨rfl, stdout, stderr, rfl, rfl⟩
    rfl

/-- A ping is a run that ends, and its exit code. -/
theorem modemPing_ok {ping : Bool × Str} :
    modemPing cfg s rs = some (.ok ping, s', rest) ↔
      s' = s ∧ ∃ returncode stdout stderr, rs = .completed returncode stdout stderr :: rest ∧
        ping = (returncode == 0, (Text.strip (stderr ++ "\n".toList ++ stdout)).take 2000) := by
  constructor
  · intro h
    cases rs with
    | nil => cases h
    | cons r rs =>
      cases r with
      | completed returncode stdout stderr =>
        cases h
        exact ⟨rfl, returncode, stdout, stderr, rfl, rfl⟩
      | timeout => cases h
      | launchFailed => cases h
  · rintro ⟨rfl, returncode, stdout, stderr, rfl, rfl⟩
    rfl

/-- No `MmcliError` comes out of the overview. -/
theorem modemOverview_raises {loads : Str → Option Json} {e : Raised}
    (h : modemOverview loads cfg s rs = some (.error e, s', rest)) : e = .other := by
  rcases Script.handle_cases h with ⟨_, hnot⟩ | ⟨e', k, _, _, _, hclause, hthen⟩
  · cases e with
    | mmcli exc => cases hnot (.mmcli exc) rfl
    | other => rfl
  · cases e' with
    | mmcli exc =>
      cases hclause
      cases hthen
    | other => cases hclause

/-- Only the run of the SIM raises an `MmcliError`, by timing out. -/
theorem probeModemIdentity_raises {loads : Str → Option Json} {phoneEnv : Nat → Str}
    {modemIndex : Nat} {phoneOverride : Option Str} {exc : MmcliError}
    (h : probeModemIdentity loads cfg phoneEnv modemIndex phoneOverride s rs =
      some (.error (.mmcli exc), s', rest)) :
    ∃ modem, modemOverview loads cfg s rs = some (.ok modem, s, .timeout :: rest) ∧
      extractSimPath modem ≠ [] := by
  rcases Script.bind_cases h with ⟨e, hmodem, he⟩ | ⟨modem, s₁, rest₁, hmodem, hthen⟩
  · cases he
    cases modemOverview_raises hmodem
  · obtain rfl := state_eq_of_contained contained_modemOverview hmodem
    refine ⟨modem, ?_⟩
    rcases Script.bind_cases hthen with ⟨e, hsim, he⟩ | ⟨sim, s₂, rest₂, hsim, hpure⟩
    · cases he
      unfold simDetails at hsim
      split at hsim
      · cases hsim
      · next hpath =>
        cases rest₁ with
        | nil => cases hsim
        | cons r rest₁ =>
          cases r with
          | completed returncode stdout stderr => cases hsim
          | timeout =>
            cases hsim
            exact ⟨hmodem, hpath⟩
          | launchFailed => cases hsim
    · cases hpure

/-- And it does where it times out. -/
theorem probeModemIdentity_timesOut {loads : Str → Option Json} {phoneEnv : Nat → Str}
    {modemIndex : Nat} {phoneOverride : Option Str} {modem : Details}
    (hmodem : modemOverview loads cfg s rs = some (.ok modem, s, .timeout :: rest))
    (hpath : extractSimPath modem ≠ []) :
    probeModemIdentity loads cfg phoneEnv modemIndex phoneOverride s rs =
      some (.error (.mmcli (timedOut cfg)), s, rest) := by
  have hsim : simDetails cfg (extractSimPath modem) s (.timeout :: rest) =
      some (.error (.mmcli (timedOut cfg)), s, rest) := by
    rw [simDetails, if_neg hpath]
    rfl
  refine (Script.bind_of_ok hmodem).trans ?_
  show Script.bind (simDetails cfg (extractSimPath modem)) _ s (.timeout :: rest) = _
  rw [Script.bind, hsim]

end Calls

/-! ## Findings and issues -/

namespace ReadinessLocals
variable {s : ReadinessLocals} {ok : Bool} {code : String} {message : Str}

/-- There is no issue yet, and none is added. -/
@[simp] theorem issues_report :
    (s.report ok code message).issues = [] ↔ s.issues = [] ∧ ok = true := by
  cases ok <;> simp [report]

theorem code_mem_report (h : ok = false) :
    ∃ issue ∈ (s.report ok code message).issues, issue.code = code.toList := by
  subst h
  exact ⟨⟨code.toList, message⟩, List.mem_append_right _ List.mem_cons_self, rfl⟩

@[simp] theorem effectiveIndex_report :
    (s.report ok code message).effectiveIndex = s.effectiveIndex := by
  cases ok <;> rfl

@[simp] theorem modemState_report : (s.report ok code message).modemState = s.modemState := by
  cases ok <;> rfl

@[simp] theorem phoneNumber_report : (s.report ok code message).phoneNumber = s.phoneNumber := by
  cases ok <;> rfl

@[simp] theorem pingOk_report : (s.report ok code message).pingOk = s.pingOk := by
  cases ok <;> rfl

@[simp] theorem simLocked_report : (s.report ok code message).simLocked = s.simLocked := by
  cases ok <;> rfl

/-- Before the ping is answered the modem is not ok. -/
theorem modemOk_of_no_ping (h : s.pingOk = false) : s.modemOk = false := by
  rw [modemOk, h, Bool.and_false]

/-- The findings up to the ping. -/
def pinged (readings : ReadinessReadings) (modemIndex : Nat) (ping : Bool × Str)
    (s : ReadinessLocals) : ReadinessLocals :=
  ((s.recordState modemIndex readings.state).recordSimLock readings.simLocked).recordPing ping

variable {readings : ReadinessReadings} {modemIndex : Nat} {ping : Bool × Str} {phone : Str}

theorem modemOk_pinged : (s.pinged readings modemIndex ping).modemOk =
    (readyStates.contains readings.state && !readings.simLocked && ping.1) := by
  simp only [modemOk, pinged, recordPing, recordSimLock, recordState, effectiveIndex_report,
    modemState_report, simLocked_report, pingOk_report, Option.isSome_some, Bool.true_and]

/-- Each of the three checks has its issue. -/
theorem issues_pinged : (s.pinged readings modemIndex ping).issues = [] ↔
    s.issues = [] ∧ (s.pinged readings modemIndex ping).modemOk = true := by
  rw [modemOk_pinged]
  simp only [pinged, recordPing, recordSimLock, recordState, issues_report, Bool.and_eq_true,
    and_assoc]

theorem issues_recordPhone :
    (s.recordPhone phone).issues = [] ↔ s.issues = [] ∧ phone ≠ [] := by
  simp [recordPhone]

theorem modemOk_recordPhone : (s.recordPhone phone).modemOk = s.modemOk := by
  simp [recordPhone, modemOk]

theorem modemOk_recordUnreachable {exc : MmcliError} :
    (s.recordUnreachable exc).modemOk = s.modemOk := by
  simp [recordUnreachable, modemOk]

/-- The locals at the beginning of the `try`, and the listing. -/
def listed (watcher : Bool) (indices : List Nat) : ReadinessLocals :=
  (({} : ReadinessLocals).recordWatcher watcher).recordListing indices

theorem issues_listed {watcher : Bool} {indices : List Nat} :
    (listed watcher indices).issues = [] ↔ watcher = true ∧ indices ≠ [] := by
  simp [listed, recordListing, recordWatcher]

theorem issues_pinged_listed {watcher : Bool} {indices : List Nat} (h : indices ≠ []) :
    ((listed watcher indices).pinged readings modemIndex ping).issues = [] ↔
      watcher = true ∧
        ((listed watcher indices).pinged readings modemIndex ping).modemOk = true := by
  rw [issues_pinged, issues_listed, and_iff_left h]

end ReadinessLocals

/-- The snapshot is ready when nothing has to be explained, and then there is a number. -/
def ReadinessSnapshot.Agrees (snapshot : ReadinessSnapshot) : Prop :=
  (snapshot.ready = true ↔ snapshot.issues = []) ∧
    (snapshot.ready = true → Text.strip snapshot.phoneNumber ≠ [])

section Snapshot
variable {watcher : Bool} {checkedAt : Str} {s : ReadinessLocals}

theorem ready_readinessSnapshot : (readinessSnapshot watcher checkedAt s).ready = true ↔
    s.modemOk = true ∧ watcher = true ∧ ∀ issue ∈ s.issues, issue.code ∉ blockingCodes := by
  simp only [readinessSnapshot, Bool.and_eq_true, Bool.not_eq_true', List.any_eq_false,
    List.contains_iff_mem]
  constructor
  · rintro ⟨⟨hok, _, hwatcher⟩, hfree⟩
    exact ⟨hok, hwatcher, hfree⟩
  · rintro ⟨hok, hwatcher, hfree⟩
    exact ⟨⟨hok, hok, hwatcher⟩, hfree⟩

/-- A modem that is not ok has an issue. -/
theorem agrees_of_not_ok (hok : s.modemOk = false) (hissues : s.issues ≠ []) :
    (readinessSnapshot watcher checkedAt s).Agrees := by
  have hnot : ¬ (readinessSnapshot watcher checkedAt s).ready = true := by
    intro hready
    rw [(ready_readinessSnapshot.mp hready).1] at hok
    cases hok
  exact ⟨⟨fun h => absurd h hnot, fun h => absurd h hissues⟩, fun h => absurd h hnot⟩

/-- All checks are made: ready is that the watcher runs, the modem is ok and there is a number. -/
theorem agrees_recordPhone {phone : Str} (hvisible : phone ≠ [] → Text.strip phone ≠ [])
    (hissues : s.issues = [] ↔ watcher = true ∧ s.modemOk = true) :
    (readinessSnapshot watcher checkedAt (s.recordPhone phone)).Agrees := by
  have hphone : (readinessSnapshot watcher checkedAt (s.recordPhone phone)).phoneNumber =
      phone := by simp [readinessSnapshot, ReadinessLocals.recordPhone]
  have hready_phone : (readinessSnapshot watcher checkedAt (s.recordPhone phone)).ready = true →
      phone ≠ [] := by
    rintro hready rfl
    obtain ⟨_, _, hfree⟩ := ready_readinessSnapshot.mp hready
    obtain ⟨issue, hissue, hcode⟩ : ∃ issue ∈ (s.recordPhone []).issues,
        issue.code = "phone_number_missing".toList := ReadinessLocals.code_mem_report rfl
    apply hfree issue hissue
    rw [hcode]
    decide
  have hsame : (readinessSnapshot watcher checkedAt (s.recordPhone phone)).issues =
      (s.recordPhone phone).issues := rfl
  rw [ReadinessSnapshot.Agrees, hphone, hsame, ReadinessLocals.issues_recordPhone, hissues]
  refine ⟨⟨fun hready => ?_, fun hall => ?_⟩, fun hready => hvisible (hready_phone hready)⟩
  · obtain ⟨hok, hwatcher, _⟩ := ready_readinessSnapshot.mp hready
    rw [ReadinessLocals.modemOk_recordPhone] at hok
    exact ⟨⟨hwatcher, hok⟩, hready_phone hready⟩
  · obtain ⟨⟨hwatcher, hok⟩, hne⟩ := hall
    have hnone : (s.recordPhone phone).issues = [] :=
      ReadinessLocals.issues_recordPhone.mpr ⟨hissues.mpr ⟨hwatcher, hok⟩, hne⟩
    rw [ready_readinessSnapshot, ReadinessLocals.modemOk_recordPhone, hnone]
    exact ⟨hok, hwatcher, fun issue hissue => by cases hissue⟩

/-- After an `MmcliError` the snapshot has an issue, and is ready if the modem is ok by then. -/
theorem agrees_recordUnreachable {exc : MmcliError}
    (hissues : s.issues = [] ↔ watcher = true ∧ s.modemOk = true) :
    (readinessSnapshot watcher checkedAt (s.recordUnreachable exc)).Agrees ↔
      ¬ (watcher = true ∧ s.modemOk = true) := by
  have hne : (s.recordUnreachable exc).issues ≠ [] := by simp [ReadinessLocals.recordUnreachable]
  constructor
  · rintro ⟨hagree, _⟩ hall
    -- the one issue is that of the error, which does not rule out `ready`
    have honly : (s.recordUnreachable exc).issues =
        [⟨"mmcli_unreachable".toList, exc.message.take 512⟩] := by
      show s.issues ++ _ = _
      rw [hissues.mpr hall]
      rfl
    apply hne
    apply hagree.mp
    rw [ready_readinessSnapshot, ReadinessLocals.modemOk_recordUnreachable, honly]
    refine ⟨hall.2, hall.1, fun issue hissue => ?_⟩
    rw [List.mem_singleton.mp hissue]
    show "mmcli_unreachable".toList ∉ blockingCodes
    decide
  · intro hnot
    cases hwatcher : watcher with
    | true =>
      apply agrees_of_not_ok _ hne
      rw [ReadinessLocals.modemOk_recordUnreachable]
      exact Bool.eq_false_iff.mpr (fun hok => hnot ⟨hwatcher, hok⟩)
    | false =>
      have hnotReady : ¬ (readinessSnapshot false checkedAt (s.recordUnreachable exc)).ready =
          true := by
        intro hready
        cases (ready_readinessSnapshot.mp hready).2.1
      exact ⟨⟨fun h => absurd h hnotReady, fun h => absurd h hne⟩, fun h => absurd h hnotReady⟩

end Snapshot

/-! ## The checks -/

section Checks
variable {loads : Str → Option Json} {cfg : MmcliSettings} {readings : ReadinessReadings}
  {watcher : Bool} {configured modemIndex : Nat} {checkedAt : Str} {s s' : ReadinessLocals}
  {rs rest : List RunResult}

/-- A ping that ends with that code, an overview that names a SIM, and a run for the SIM that times
    out. -/
def SimRunTimesOut (loads : Str → Option Json) (cfg : MmcliSettings) (returncode : Int)
    (rs rest : List RunResult) : Prop :=
  ∃ stdout stderr rs₁ modem, rs = .completed returncode stdout stderr :: rs₁ ∧
    modemOverview loads cfg () rs₁ = some (.ok modem, (), .timeout :: rest) ∧
    extractSimPath modem ≠ []

/-- All checks are passed up to the identity, and the run for the SIM times out. -/
def SimQueryTimesOut (loads : Str → Option Json) (cfg : MmcliSettings)
    (readings : ReadinessReadings) (watcher : Bool) (configured : Nat) (rs : List RunResult) :
    Prop :=
  watcher = true ∧ readyStates.contains readings.state = true ∧ readings.simLocked = false ∧
    ∃ stdout stderr rs₁ modemIndex rs₂ rest, rs = .completed 0 stdout stderr :: rs₁ ∧
      listedIndices stdout stderr ≠ [] ∧
      resolveModemMmcliIndex cfg readings.states configured () rs₁ =
        some (.ok modemIndex, (), rs₂) ∧
      SimRunTimesOut loads cfg 0 rs₂ rest

theorem checkResolvedModem_ok
    (h : checkResolvedModem loads cfg readings modemIndex s rs = some (.ok (), s', rest)) :
    ∃ ping identity, s' = (s.pinged readings modemIndex ping).recordPhone
      (readinessPhone readings modemIndex identity) := by
  obtain ⟨ping, s₁, rs₁, hping, hfromRecord⟩ := Script.bind_eq_ok.mp h
  obtain rfl := state_eq_of_contained contained_modemPing hping
  obtain ⟨_, _, _, hrecord, hfromProbe⟩ := Script.bind_eq_ok.mp hfromRecord
  obtain ⟨rfl, rfl⟩ := Script.modify_ok hrecord
  obtain ⟨identity, s₂, rs₂, hprobe, hend⟩ := Script.bind_eq_ok.mp hfromProbe
  obtain rfl := state_eq_of_contained contained_probeModemIdentity hprobe
  exact ⟨ping, identity, (Script.modify_ok hend).1⟩

/-- Both numbers are normalised. -/
theorem strip_readinessPhone {identity : ModemIdentity}
    (h : readinessPhone readings modemIndex identity ≠ []) :
    Text.strip (readinessPhone readings modemIndex identity) ≠ [] := by
  unfold readinessPhone at h ⊢
  dsimp only at h ⊢
  split
  · next hnone =>
    rw [if_pos hnone] at h
    exact strip_normalizePhoneE164 h
  · next hsome => exact strip_normalizePhoneE164 hsome

/-- An `MmcliError` is that of the ping, or that of the SIM after it. -/
theorem checkResolvedModem_raises {exc : MmcliError} (hping : s.pingOk = false)
    (h : checkResolvedModem loads cfg readings modemIndex s rs =
      some (.error (.mmcli exc), s', rest)) :
    s'.modemOk = false ∨ ∃ ping returncode, s' = s.pinged readings modemIndex ping ∧
      ping.1 = (returncode == 0) ∧ SimRunTimesOut loads cfg returncode rs rest := by
  have hinspected : ((s.recordState modemIndex readings.state).recordSimLock
      readings.simLocked).pingOk = false := by
    simp [ReadinessLocals.recordSimLock, ReadinessLocals.recordState, hping]
  rcases Script.bind_cases h with ⟨e, hpingRun, he⟩ | ⟨ping, s₁, rs₁, hpingRun, hfromRecord⟩
  · obtain rfl := state_eq_of_contained contained_modemPing hpingRun
    exact Or.inl (ReadinessLocals.modemOk_of_no_ping hinspected)
  · obtain ⟨rfl, returncode, stdout, stderr, rfl, rfl⟩ := modemPing_ok.mp hpingRun
    rcases Script.bind_cases hfromRecord with ⟨e, hrecord, _⟩ | ⟨_, _, _, hrecord, hfromProbe⟩
    · cases hrecord
    · cases hrecord
      rcases Script.bind_cases hfromProbe with ⟨e, hprobe, he⟩ | ⟨_, _, _, _, hend⟩
      · cases he
        obtain rfl := state_eq_of_contained contained_probeModemIdentity hprobe
        obtain ⟨modem, hmodem, hpath⟩ := probeModemIdentity_raises hprobe
        exact Or.inr ⟨_, returncode, rfl, rfl, ⟨stdout, stderr, rs₁, modem, rfl,
          (ignores_modemOverview.eq_some.mp hmodem).2, hpath⟩⟩
      · cases hend

theorem pingOk_listed {indices : List Nat} :
    (ReadinessLocals.listed watcher indices).pingOk = false := by
  simp [ReadinessLocals.listed, ReadinessLocals.recordListing, ReadinessLocals.recordWatcher]

/-- How the checks end: without a listing, with an empty one, without a modem for the index, with
    an error of another kind, or as the checks of the resolved modem do. -/
inductive ChecksEnd (loads : Str → Option Json) (cfg : MmcliSettings)
    (readings : ReadinessReadings) (watcher : Bool) (configured : Nat)
    (rs rest : List RunResult) : Except Raised Unit → ReadinessLocals → Prop where
  | notListed (e : Raised) :
      ChecksEnd loads cfg readings watcher configured rs rest (.error e)
        (({} : ReadinessLocals).recordWatcher watcher)
  | noModem : ChecksEnd loads cfg readings watcher configured rs rest (.ok ()) (.listed watcher [])
  | indexMissing (indices : List Nat) (exc : MmcliError) :
      ChecksEnd loads cfg readings watcher configured rs rest (.ok ())
        ((ReadinessLocals.listed watcher indices).recordIndexMissing indices exc)
  | notResolved (s : ReadinessLocals) :
      ChecksEnd loads cfg readings watcher configured rs rest (.error .other) s
  | resolved {stdout stderr : Str} {rs₁ rs₂ : List RunResult} {modemIndex : Nat}
      {res : Except Raised Unit} {s : ReadinessLocals}
      (hlist : rs = .completed 0 stdout stderr :: rs₁) (hne : listedIndices stdout stderr ≠ [])
      (hindex : resolveModemMmcliIndex cfg readings.states configured () rs₁ =
        some (.ok modemIndex, (), rs₂))
      (hchecks : checkResolvedModem loads cfg readings modemIndex
        (.listed watcher (listedIndices stdout stderr)) rs₂ = some (res, s, rest)) :
      ChecksEnd loads cfg readings watcher configured rs rest res s

theorem readinessChecks_cases {res : Except Raised Unit}
    (h : readinessChecks loads cfg readings configured
      (({} : ReadinessLocals).recordWatcher watcher) rs = some (res, s', rest)) :
    ChecksEnd loads cfg readings watcher configured rs rest res s' := by
  rcases Script.bind_cases h with ⟨e, hlist, rfl⟩ | ⟨indices, s₁, rs₁, hlist, hfromRecord⟩
  · obtain rfl := state_eq_of_contained contained_listModemIndices hlist
    exact .notListed e
  · obtain ⟨rfl, stdout, stderr, rfl, rfl⟩ := listModemIndices_ok.mp hlist
    rcases Script.bind_cases hfromRecord with ⟨e, hrecord, _⟩ | ⟨_, _, _, hrecord, hthen⟩
    · cases hrecord
    · cases hrecord
      by_cases hnone : listedIndices stdout stderr = []
      · rw [if_pos hnone] at hthen
        cases hthen
        rw [hnone]
        exact .noModem
      · rw [if_neg hnone] at hthen
        rcases Script.bind_cases hthen with ⟨e, hresolve, rfl⟩ | ⟨found, s₂, rs₂, hresolve, hend⟩
        · rcases attempt_cases hresolve with ⟨_, _, hres⟩ | ⟨_, _, hres⟩ | ⟨_, hres⟩
          · cases hres
          · cases hres
          · cases hres
            exact .notResolved s'
        · rcases attempt_cases hresolve with
            ⟨modemIndex, hrun, hres⟩ | ⟨exc, hrun, hres⟩ | ⟨_, hres⟩
          · cases hres
            obtain ⟨rfl, hindex⟩ := ignores_resolveModemMmcliIndex.eq_some.mp hrun
            exact .resolved rfl hnone hindex hend
          · cases hres
            obtain ⟨rfl, _⟩ := ignores_resolveModemMmcliIndex.eq_some.mp hrun
            cases hend
            exact .indexMissing _ exc
          · cases hres

/-- Locals without a ping and with an issue. -/
theorem agrees_recordIndexMissing {indices : List Nat} {exc : MmcliError} :
    (readinessSnapshot watcher checkedAt
      ((ReadinessLocals.listed watcher indices).recordIndexMissing indices exc)).Agrees := by
  apply agrees_of_not_ok
  · apply ReadinessLocals.modemOk_of_no_ping
    simpa [ReadinessLocals.recordIndexMissing] using pingOk_listed
  · simp [ReadinessLocals.recordIndexMissing]

/-- The checks come to their end. -/
theorem agrees_of_checks
    (h : readinessChecks loads cfg readings configured
      (({} : ReadinessLocals).recordWatcher watcher) rs = some (.ok (), s', rest)) :
    (readinessSnapshot watcher checkedAt s').Agrees := by
  cases readinessChecks_cases h with
  | noModem =>
    apply agrees_of_not_ok (ReadinessLocals.modemOk_of_no_ping pingOk_listed)
    rw [ne_eq, ReadinessLocals.issues_listed]
    exact fun hall => hall.2 rfl
  | indexMissing indices exc => exact agrees_recordIndexMissing
  | resolved hlist hne hindex hchecks =>
    obtain ⟨ping, identity, rfl⟩ := checkResolvedModem_ok hchecks
    exact agrees_recordPhone strip_readinessPhone (ReadinessLocals.issues_pinged_listed hne)

/-- An `MmcliError` ends them. -/
theorem agrees_of_mmcliError {exc : MmcliError}
    (h : readinessChecks loads cfg readings configured
      (({} : ReadinessLocals).recordWatcher watcher) rs = some (.error (.mmcli exc), s', rest))
    (hsim : ¬ SimQueryTimesOut loads cfg readings watcher configured rs) :
    (readinessSnapshot watcher checkedAt (s'.recordUnreachable exc)).Agrees := by
  have hne : ∀ s : ReadinessLocals, (s.recordUnreachable exc).issues ≠ [] := by
    simp [ReadinessLocals.recordUnreachable]
  cases readinessChecks_cases h with
  | notListed =>
    apply agrees_of_not_ok _ (hne _)
    rw [ReadinessLocals.modemOk_recordUnreachable]
    apply ReadinessLocals.modemOk_of_no_ping
    simp [ReadinessLocals.recordWatcher]
  | resolved hlist hlisted hindex hchecks =>
    rcases checkResolvedModem_raises pingOk_listed hchecks with
      hok | ⟨ping, returncode, rfl, hping, htimeout⟩
    · apply agrees_of_not_ok _ (hne _)
      rw [ReadinessLocals.modemOk_recordUnreachable, hok]
    · -- the modem was ok only if the ping ended with zero
      rw [agrees_recordUnreachable (ReadinessLocals.issues_pinged_listed hlisted)]
      rintro ⟨hwatcher, hok⟩
      rw [ReadinessLocals.modemOk_pinged, hping] at hok
      simp only [Bool.and_eq_true, Bool.not_eq_true', beq_iff_eq] at hok
      obtain ⟨⟨hstate, hlock⟩, rfl⟩ := hok
      exact hsim ⟨hwatcher, hstate, hlock, _, _, _, _, _, _, hlist, hlisted, hindex, htimeout⟩

/-- The run for the SIM raises after everything else was found in order. -/
theorem checkResolvedModem_timesOut (readings : ReadinessReadings) (modemIndex : Nat)
    (s : ReadinessLocals) (h : SimRunTimesOut loads cfg 0 rs rest) :
    ∃ exc ping, ping.1 = true ∧ checkResolvedModem loads cfg readings modemIndex s rs =
      some (.error (.mmcli exc), s.pinged readings modemIndex ping, rest) := by
  obtain ⟨stdout, stderr, rs₁, modem, rfl, hmodem, hpath⟩ := h
  let ping : Bool × Str := (true, (Text.strip (stderr ++ "\n".toList ++ stdout)).take 2000)
  have hprobe : probeModemIdentity loads cfg readings.phoneEnv modemIndex none
      (s.pinged readings modemIndex ping) rs₁ =
      some (.error (.mmcli (timedOut cfg)), s.pinged readings modemIndex ping, rest) :=
    probeModemIdentity_timesOut (ignores_modemOverview.eq_some.mpr ⟨rfl, hmodem⟩) hpath
  refine ⟨timedOut cfg, ping, rfl, ?_⟩
  show Script.bind (probeModemIdentity loads cfg readings.phoneEnv modemIndex none) _
    (s.pinged readings modemIndex ping) rs₁ = _
  rw [Script.bind, hprobe]

theorem readinessChecks_resolved {stdout stderr : Str} {rs₁ rs₂ : List RunResult}
    (hne : listedIndices stdout stderr ≠ [])
    (hindex : resolveModemMmcliIndex cfg readings.states configured () rs₁ =
      some (.ok modemIndex, (), rs₂)) :
    readinessChecks loads cfg readings configured (({} : ReadinessLocals).recordWatcher watcher)
        (.completed 0 stdout stderr :: rs₁) =
      checkResolvedModem loads cfg readings modemIndex
        (.listed watcher (listedIndices stdout stderr)) rs₂ := by
  have hresolve : resolveModemMmcliIndex cfg readings.states configured
      (ReadinessLocals.listed watcher (listedIndices stdout stderr)) rs₁ =
      some (.ok modemIndex, .listed watcher (listedIndices stdout stderr), rs₂) :=
    ignores_resolveModemMmcliIndex.eq_some.mpr ⟨rfl, hindex⟩
  have hattempt : attempt (resolveModemMmcliIndex cfg readings.states configured)
      (ReadinessLocals.listed watcher (listedIndices stdout stderr)) rs₁ =
      some (.ok (.ok modemIndex), .listed watcher (listedIndices stdout stderr), rs₂) := by
    show Script.handle (Script.bind (resolveModemMmcliIndex cfg readings.states configured) _) _
      (ReadinessLocals.listed watcher (listedIndices stdout stderr)) rs₁ = _
    rw [Script.handle, Script.bind_of_ok hresolve]
    rfl
  show (if listedIndices stdout stderr = [] then pure () else
    attempt (resolveModemMmcliIndex cfg readings.states configured) >>= _ :
      Mmcli ReadinessLocals Unit) (.listed watcher (listedIndices stdout stderr)) rs₁ = _
  rw [if_neg hne]
  exact Script.bind_of_ok hattempt

/-- So the checks do. -/
theorem readinessChecks_timesOut (checkedAt : Str)
    (h : SimQueryTimesOut loads cfg readings watcher configured rs) :
    ∃ exc s' rest, readinessChecks loads cfg readings configured
        (({} : ReadinessLocals).recordWatcher watcher) rs = some (.error (.mmcli exc), s', rest) ∧
      ¬ (readinessSnapshot watcher checkedAt (s'.recordUnreachable exc)).Agrees := by
  obtain ⟨hwatcher, hstate, hlock, stdout, stderr, rs₁, modemIndex, rs₂, rest, rfl, hne, hindex,
    htimeout⟩ := h
  obtain ⟨exc, ping, hping, hchecks⟩ := checkResolvedModem_timesOut readings modemIndex
    (.listed watcher (listedIndices stdout stderr)) htimeout
  refine ⟨exc, _, rest, (readinessChecks_resolved hne hindex).trans hchecks, ?_⟩
  rw [agrees_recordUnreachable (ReadinessLocals.issues_pinged_listed hne), not_not,
    ReadinessLocals.modemOk_pinged, hstate, hlock, hping]
  exact ⟨hwatcher, rfl⟩

/-! ## What the call returns -/

theorem contained_checkResolvedModem :
    StatefulContained 5 (checkResolvedModem loads cfg readings modemIndex) := by
  refine stateful_then (stateful_modify _) (fun _ => ?_)
  refine stateful_bind (k := 4) (stateful_of_contained contained_modemPing)
    (fun ping => ?_)
  refine stateful_then (stateful_modify _) (fun _ => ?_)
  exact stateful_bind (k := 0)
    (stateful_of_contained contained_probeModemIdentity)
    (fun identity => stateful_modify _)

theorem contained_readinessChecks :
    StatefulContained 8 (readinessChecks loads cfg readings configured) := by
  refine stateful_bind (k := 7) (stateful_of_contained contained_listModemIndices)
    (fun indices => ?_)
  refine stateful_then (stateful_modify _) (fun _ => ?_)
  split
  · exact Script.escapes_pure 7 ()
  · refine stateful_bind (k := 5)
      (stateful_of_contained (contained_attempt contained_resolveModemMmcliIndex))
      (fun found => ?_)
    cases found with
    | error exc => exact (stateful_modify _).le (by omega)
    | ok modemIndex => exact contained_checkResolvedModem

/-- Of the errors only `MmcliError` is caught. -/
theorem evaluateSmsReadiness_eq :
    evaluateSmsReadiness loads cfg readings watcher configured checkedAt [] rs =
      (readinessChecks loads cfg readings configured
        (({} : ReadinessLocals).recordWatcher watcher) rs).map (fun
        | (.ok _, s', rest) => (.ok (readinessSnapshot watcher checkedAt s'), rest)
        | (.error (.mmcli exc), s', rest) =>
          (.ok (readinessSnapshot watcher checkedAt (s'.recordUnreachable exc)), rest)
        | (.error .other, _, rest) => (.error .other, rest)) := by
  unfold evaluateSmsReadiness Script.handle
  dsimp only
  cases readinessChecks loads cfg readings configured
      (({} : ReadinessLocals).recordWatcher watcher) rs with
  | none => rfl
  | some out =>
    obtain ⟨res, s', rest⟩ := out
    cases res with
    | ok _ => rfl
    | error e => cases e <;> rfl

/-- The call returns a snapshot when its runs can be started, and every snapshot that it returns is
    explained by its issues. -/
structure ReadinessExplained (loads : Str → Option Json) (cfg : MmcliSettings)
    (readings : ReadinessReadings) (watcher : Bool) (configured : Nat) (checkedAt : Str)
    (rs : List RunResult) : Prop where
  returns : 8 ≤ rs.length → RunResult.launchFailed ∉ rs → ∃ snapshot rest,
    evaluateSmsReadiness loads cfg readings watcher configured checkedAt [] rs =
      some (.ok snapshot, rest)
  agrees : ∀ snapshot rest,
    evaluateSmsReadiness loads cfg readings watcher configured checkedAt [] rs =
      some (.ok snapshot, rest) → snapshot.Agrees

theorem evaluateSmsReadiness_returns (hlen : 8 ≤ rs.length)
    (hstarted : RunResult.launchFailed ∉ rs) :
    ∃ snapshot rest, evaluateSmsReadiness loads cfg readings watcher configured checkedAt [] rs =
      some (.ok snapshot, rest) := by
  have hcontained : StatefulContained 8 (readinessChecks loads cfg readings configured) :=
    contained_readinessChecks
  obtain ⟨res, s', rest, hchecks, _⟩ :=
    hcontained.within (({} : ReadinessLocals).recordWatcher watcher) rs hlen
  rw [evaluateSmsReadiness_eq, hchecks]
  cases res with
  | ok _ => exact ⟨_, _, rfl⟩
  | error e =>
    cases e with
    | mmcli exc => exact ⟨_, _, rfl⟩
    | other =>
      -- an error of another kind comes from a run that could not be started
      obtain ⟨used, hused, hat⟩ := hcontained.ends _ _ _ _ _ hchecks
      obtain ⟨r, hr, rfl⟩ := hat.escaped.mp ⟨.other, rfl, rfl⟩
      apply absurd _ hstarted
      rw [hused]
      exact List.mem_append_left _ hr

/-- An `MmcliError` of the run for the SIM is recorded after the modem has been found ready. -/
theorem readiness_explained_iff :
    ReadinessExplained loads cfg readings watcher configured checkedAt rs ↔
      ¬ SimQueryTimesOut loads cfg readings watcher configured rs := by
  constructor
  · intro h hsim
    obtain ⟨exc, s', rest, hchecks, hnot⟩ := readinessChecks_timesOut checkedAt hsim
    apply hnot
    apply h.agrees _ rest
    rw [evaluateSmsReadiness_eq, hchecks]
    rfl
  · intro hsim
    refine ⟨evaluateSmsReadiness_returns, ?_⟩
    intro snapshot rest hrun
    rw [evaluateSmsReadiness_eq] at hrun
    obtain ⟨⟨res, s', rest'⟩, hchecks, hout⟩ := Option.map_eq_some_iff.mp hrun
    cases res with
    | ok _ =>
      cases hout
      exact agrees_of_checks hchecks
    | error e =>
      cases e with
      | mmcli exc =>
        cases hout
        exact agrees_of_mmcliError hchecks hsim
      | other => cases hout

end Checks

/-- A registered modem that names a SIM. -/
def registeredReadings : ReadinessReadings :=
  ⟨fun _ => "registered".toList, "registered".toList, false, fun _ => []⟩

/-- All is in order until the run for the SIM. -/
def simTimeoutRuns : List RunResult :=
  [.completed 0 (listing [0]) [], .completed 0 (listing [0]) [], .completed 0 [] [],
    .completed 0 "modem.sim : /org/freedesktop/ModemManager1/SIM/0\n".toList [],
    .completed 1 [] [], .timeout, .timeout, .timeout]

/-- Ready, with an issue and without a number. -/
theorem ready_with_issue :
    ∃ snapshot rest, evaluateSmsReadiness (fun _ => none) ⟨"15.0".toList, 3, by decide⟩
        registeredReadings true 0 [] [] simTimeoutRuns = some (.ok snapshot, rest) ∧
      snapshot.ready = true ∧ snapshot.phoneNumber = [] ∧
      snapshot.issues = [⟨"mmcli_unreachable".toList, "mmcli timed out (15.0s)".toList⟩] := by
  refine ⟨_, _, rfl, ?_⟩
  decide +kernel

end HiWaveTel
