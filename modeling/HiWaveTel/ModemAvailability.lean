import HiWaveTel.ModemReadiness

/- Availability of one modem (`modem_readiness.check_modem_availability`) and the endpoint that
   returns it. The listing has a `try` of its own, the phone number swallows every exception, and
   the ping has neither.

   `availability_answered_iff`: the endpoint answers 200 or 503, unless the ping of a listed modem
   raises. -/
namespace HiWaveTel
open Foundation

structure ModemLastActivity where
  latestAt : Option Nat
  source : Option Str
  inboundSmsAt : Option Nat
  outboundSmsAt : Option Nat
  deviceLastSeenAt : Option Nat
  readinessCheckedAt : Option Nat
  deriving DecidableEq, Repr

/-- `max` of the candidates; the inbound one is the first. -/
def latestActivity : Option Nat → Option Nat → Option (Str × Nat)
  | none, none => none
  | some inboundAt, none => some ("inbound_sms".toList, inboundAt)
  | none, some outboundAt => some ("outbound_sms".toList, outboundAt)
  | some inboundAt, some outboundAt =>
    if inboundAt < outboundAt then some ("outbound_sms".toList, outboundAt)
    else some ("inbound_sms".toList, inboundAt)

/-- `_gather_modem_last_activity`. -/
def gatherModemLastActivity (modemIndex : Nat) (w : World) : ModemLastActivity :=
  let inboundAt := ((modemRows modemIndex w.inbound).map InboundSms.createdAt).max?
  let outboundAt := ((modemRows modemIndex w.outbound).map OutboundSms.updatedAt).max?
  let latest := latestActivity inboundAt outboundAt
  { latestAt := latest.map Prod.snd
    source := latest.map Prod.fst
    inboundSmsAt := inboundAt
    outboundSmsAt := outboundAt
    deviceLastSeenAt := none
    readinessCheckedAt := none }

structure ModemAvailability where
  modemIndex : Nat
  available : Bool
  state : Str
  checkedAt : Str
  enumeratedIndices : List Nat := []
  pingOk : Option Bool := none
  phoneNumber : Str := []
  detail : Str
  lastActivity : ModemLastActivity
  deriving DecidableEq, Repr

/-- The `indices_label`. -/
def indicesLabel (indices : List Nat) : Str :=
  if indices = [] then "none".toList else List.intercalate ", ".toList (indices.map Text.ofNat)

/-- The `detail` of a modem that was pinged. -/
def availabilityDetail (state : Str) (ping : Bool × Str) : Str :=
  if readyStates.contains state && ping.1 then
    "Modem responsive (state=".toList ++ state ++ ", ping ok).".toList
  else if !readyStates.contains state then
    "Modem state '".toList ++ state ++ "' (expected enabled or registered).".toList
  else if !ping.1 then
    ((if ping.2 = [] then "mmcli modem ping failed.".toList else ping.2).map
      (fun c => if c = '\n' then ' ' else c)).take 512
  else "Modem not available.".toList

section Availability
variable {σ : Type} (loads : Str → Option Json) (cfg : MmcliSettings) (phoneEnv : Nat → Str)

/-- `_resolve_modem_phone_number`. -/
def resolveModemPhoneNumber (modemIndex : Nat) : Mmcli σ Str :=
  Script.handle
    (do
      let identity ← probeModemIdentity loads cfg phoneEnv modemIndex none
      pure (normalizePhoneE164 identity.phoneNumber))
    (fun _ => some (pure (getModemPhoneNumber phoneEnv modemIndex)))

/-- `check_modem_availability`, with the state that `get_modem_state` gives. -/
def checkModemAvailability (state : Str) (w : World) (modemIndex : Nat) (checkedAt : Str) :
    Mmcli σ ModemAvailability := do
  let lastActivity := gatherModemLastActivity modemIndex w
  match ← attempt (listModemIndices cfg) with
  | .error exc =>
    pure { modemIndex := modemIndex, available := false, state := "unknown".toList
           checkedAt := checkedAt, lastActivity := lastActivity
           detail := "ModemManager unreachable: ".toList ++ exc.message.take 512 }
  | .ok indices =>
    if modemIndex ∉ indices then
      pure { modemIndex := modemIndex, available := false, state := "missing".toList
             checkedAt := checkedAt, enumeratedIndices := indices, lastActivity := lastActivity
             detail := "Modem index ".toList ++ Text.ofNat modemIndex ++
               " not reported by ModemManager (mmcli -L returned: ".toList ++
               indicesLabel indices ++ ").".toList }
    else do
      let ping ← modemPing cfg
      let phoneNumber ← resolveModemPhoneNumber loads cfg phoneEnv modemIndex
      pure { modemIndex := modemIndex, available := readyStates.contains state && ping.1
             state := state, checkedAt := checkedAt, enumeratedIndices := indices
             pingOk := some ping.1, phoneNumber := phoneNumber
             detail := availabilityDetail state ping, lastActivity := lastActivity }

/-- `ModemAvailabilityView.get`. -/
def modemAvailabilityView (state : Str) (w : World) (modemIndex : Nat) (checkedAt : Str) :
    Mmcli σ (Nat × ModemAvailability) := do
  let result ← checkModemAvailability loads cfg phoneEnv state w modemIndex checkedAt
  pure (if result.available then 200 else 503, result)

end Availability

/-- The status of a response; an exception of a view is answered with 500. -/
def httpStatus : Except Raised (Nat × ModemAvailability) → Nat
  | .ok response => response.1
  | .error _ => 500

/-! ## What the calls come to -/

section Calls
variable {σ : Type} {loads : Str → Option Json} {cfg : MmcliSettings} {phoneEnv : Nat → Str}
  {state : Str} {w : World} {modemIndex : Nat} {checkedAt : Str} {s s' : σ}
  {rs rest : List RunResult}

/-- Every exception is swallowed. -/
theorem resolveModemPhoneNumber_ok {res : Except Raised Str}
    (h : resolveModemPhoneNumber loads cfg phoneEnv modemIndex s rs = some (res, s', rest)) :
    ∃ phoneNumber, res = .ok phoneNumber := by
  rcases Script.handle_cases h with ⟨_, hnot⟩ | ⟨e, k, _, _, _, hclause, hthen⟩
  · cases res with
    | ok phoneNumber => exact ⟨phoneNumber, rfl⟩
    | error e => cases hnot e rfl
  · cases hclause
    cases hthen
    exact ⟨_, rfl⟩

/-- A listing that raises something else could not be started. -/
theorem listModemIndices_other
    (h : listModemIndices cfg s rs = some (.error .other, s', rest)) :
    ∃ more, rs = .launchFailed :: more := by
  cases rs with
  | nil => cases h
  | cons r rs =>
    cases r with
    | completed returncode stdout stderr =>
      by_cases hzero : returncode = 0
      · subst hzero
        cases h
      · obtain ⟨exc, hraise⟩ := listModemIndices_failed cfg s rs hzero
        rw [hraise] at h
        cases h
    | timeout => cases h
    | launchFailed => exact ⟨rs, rfl⟩

/-- A ping that raises is a run that times out or cannot be started. -/
theorem modemPing_raises {e : Raised} (h : modemPing cfg s rs = some (.error e, s', rest)) :
    ∃ r more, rs = r :: more ∧ (r = .timeout ∨ r = .launchFailed) := by
  cases rs with
  | nil => cases h
  | cons r rs =>
    cases r with
    | completed returncode stdout stderr => cases h
    | timeout => exact ⟨_, rs, rfl, Or.inl rfl⟩
    | launchFailed => exact ⟨_, rs, rfl, Or.inr rfl⟩

/-! ## Availability -/

/-- The listing cannot be started, or it has the index and the ping raises. -/
def CallRaises (modemIndex : Nat) (rs : List RunResult) : Prop :=
  (∃ more, rs = .launchFailed :: more) ∨
    ∃ stdout stderr r more, rs = .completed 0 stdout stderr :: r :: more ∧
      modemIndex ∈ listedIndices stdout stderr ∧ (r = .timeout ∨ r = .launchFailed)

/-- The index is listed, its state is enabled or registered, and the ping exits 0. -/
def Responds (modemIndex : Nat) (state : Str) (rs : List RunResult) : Prop :=
  readyStates.contains state = true ∧
    ∃ stdout stderr stdout' stderr' more,
      rs = .completed 0 stdout stderr :: .completed 0 stdout' stderr' :: more ∧
      modemIndex ∈ listedIndices stdout stderr

section Listed
variable {stdout stderr : Str}

theorem callRaises_listed : CallRaises modemIndex (.completed 0 stdout stderr :: rs) ↔
    modemIndex ∈ listedIndices stdout stderr ∧
      ∃ r more, rs = r :: more ∧ (r = .timeout ∨ r = .launchFailed) := by
  constructor
  · rintro (⟨more, hrs⟩ | ⟨_, _, r, more, hrs, hmem, hr⟩)
    · cases hrs
    · cases hrs
      exact ⟨hmem, r, more, rfl, hr⟩
  · rintro ⟨hmem, r, more, rfl, hr⟩
    exact Or.inr ⟨stdout, stderr, r, more, rfl, hmem, hr⟩

theorem responds_listed : Responds modemIndex state (.completed 0 stdout stderr :: rs) ↔
    readyStates.contains state = true ∧ modemIndex ∈ listedIndices stdout stderr ∧
      ∃ stdout' stderr' more, rs = .completed 0 stdout' stderr' :: more := by
  constructor
  · rintro ⟨hstate, _, _, stdout', stderr', more, hrs, hmem⟩
    cases hrs
    exact ⟨hstate, hmem, stdout', stderr', more, rfl⟩
  · rintro ⟨hstate, hmem, stdout', stderr', more, rfl⟩
    exact ⟨hstate, stdout, stderr, stdout', stderr', more, rfl, hmem⟩

end Listed

/-- After an `MmcliError` of the listing there is nothing to raise, and nothing responds. -/
theorem listModemIndices_mmcli {exc : MmcliError}
    (h : listModemIndices cfg s rs = some (.error (.mmcli exc), s', rest)) :
    ¬ CallRaises modemIndex rs ∧ ¬ Responds modemIndex state rs := by
  constructor
  · rintro (⟨more, rfl⟩ | ⟨stdout, stderr, r, more, rfl, _⟩)
    · cases h
    · cases h
  · rintro ⟨_, stdout, stderr, stdout', stderr', more, rfl, _⟩
    cases h

/-- The call ends with an exception exactly if one of the two runs raises it. -/
theorem checkModemAvailability_cases {res : Except Raised ModemAvailability}
    (h : checkModemAvailability loads cfg phoneEnv state w modemIndex checkedAt s rs =
      some (res, s', rest)) :
    (CallRaises modemIndex rs ∧ ∃ e, res = .error e) ∨
    (¬ CallRaises modemIndex rs ∧
      ∃ availability, res = .ok availability ∧
        (availability.available = true ↔ Responds modemIndex state rs)) := by
  rcases Script.bind_cases h with ⟨e, hattempt, rfl⟩ | ⟨found, s₁, rs₁, hattempt, hthen⟩
  · rcases attempt_cases hattempt with ⟨_, _, hres⟩ | ⟨_, _, hres⟩ | ⟨hlist, _⟩
    · cases hres
    · cases hres
    · exact Or.inl ⟨Or.inl (listModemIndices_other hlist), e, rfl⟩
  · rcases attempt_cases hattempt with ⟨indices, hlist, hfound⟩ | ⟨exc, hlist, hfound⟩ | ⟨_, hfound⟩
    · cases hfound
      obtain ⟨rfl, stdout, stderr, rfl, rfl⟩ := listModemIndices_ok.mp hlist
      rw [callRaises_listed, responds_listed]
      dsimp only at hthen
      by_cases hlisted : modemIndex ∈ listedIndices stdout stderr
      · rw [if_neg (not_not.mpr hlisted)] at hthen
        -- the ping is the one call that nothing guards
        rcases Script.bind_cases hthen with ⟨e, hping, rfl⟩ | ⟨ping, s₂, rs₂, hping, hphone⟩
        · exact Or.inl ⟨⟨hlisted, modemPing_raises hping⟩, e, rfl⟩
        · obtain ⟨rfl, returncode, stdout', stderr', rfl, rfl⟩ := modemPing_ok.mp hping
          refine Or.inr ⟨?_, ?_⟩
          · rintro ⟨_, r, more, hrs, hr⟩
            cases hrs
            rcases hr with hr | hr <;> cases hr
          · rcases Script.bind_cases hphone with ⟨e, hresolve, _⟩ | ⟨_, s₃, rs₃, _, hend⟩
            · obtain ⟨_, hres⟩ := resolveModemPhoneNumber_ok hresolve
              cases hres
            · cases hend
              refine ⟨_, rfl, ?_⟩
              rw [Bool.and_eq_true, beq_iff_eq]
              constructor
              · rintro ⟨hstate, rfl⟩
                exact ⟨hstate, hlisted, stdout', stderr', rs₂, rfl⟩
              · rintro ⟨hstate, _, _, _, _, hrs⟩
                cases hrs
                exact ⟨hstate, rfl⟩
      · rw [if_pos hlisted] at hthen
        cases hthen
        refine Or.inr ⟨fun hraises => hlisted hraises.1, _, rfl, ?_⟩
        exact iff_of_false Bool.false_ne_true (fun hresponds => hlisted hresponds.2.1)
    · cases hfound
      obtain ⟨hraises, hresponds⟩ := listModemIndices_mmcli hlist
      cases hthen
      exact Or.inr ⟨hraises, _, rfl, iff_of_false Bool.false_ne_true hresponds⟩
    · cases hfound

theorem resolveModemPhoneNumber_within :
    (resolveModemPhoneNumber loads cfg phoneEnv modemIndex : Mmcli σ Str).EndsWithin 4 := by
  refine Script.within_handle (n := 4) (k := 0) ?_ ?_
  · exact Script.within_bind (k := 0) contained_probeModemIdentity.within
      (fun identity => Script.within_pure 0 _)
  · intro e k hclause
    cases hclause
    exact Script.within_pure 0 _

theorem checkModemAvailability_within :
    (checkModemAvailability loads cfg phoneEnv state w modemIndex checkedAt :
      Mmcli σ ModemAvailability).EndsWithin 6 := by
  refine Script.within_bind (k := 5) (contained_attempt contained_listModemIndices).within
    (fun found => ?_)
  cases found with
  | error exc => exact Script.within_pure 5 _
  | ok indices =>
    dsimp only
    split
    · exact Script.within_pure 5 _
    · refine Script.within_bind (k := 4) contained_modemPing.within (fun ping => ?_)
      exact Script.within_bind (k := 0) resolveModemPhoneNumber_within
        (fun phoneNumber => Script.within_pure 0 _)

/-- The call returns what it should, and the endpoint answers 200 or 503 accordingly. -/
structure AvailabilityAnswered (loads : Str → Option Json) (cfg : MmcliSettings)
    (phoneEnv : Nat → Str) (state : Str) (w : World) (modemIndex : Nat) (checkedAt : Str) (s : σ)
    (rs : List RunResult) : Prop where
  returns : 6 ≤ rs.length → ∃ availability s' rest,
    checkModemAvailability loads cfg phoneEnv state w modemIndex checkedAt s rs =
      some (.ok availability, s', rest)
  exact : ∀ res s' rest,
    checkModemAvailability loads cfg phoneEnv state w modemIndex checkedAt s rs =
      some (res, s', rest) →
    ∃ availability, res = .ok availability ∧
      (availability.available = true ↔ Responds modemIndex state rs)
  answers : ∀ res s' rest,
    modemAvailabilityView loads cfg phoneEnv state w modemIndex checkedAt s rs =
      some (res, s', rest) →
    httpStatus res = 200 ∧ Responds modemIndex state rs ∨
      httpStatus res = 503 ∧ ¬ Responds modemIndex state rs

theorem checkModemAvailability_raises (h : CallRaises modemIndex rs) :
    ∃ e s' rest, checkModemAvailability loads cfg phoneEnv state w modemIndex checkedAt s rs =
      some (.error e, s', rest) := by
  rcases h with ⟨more, rfl⟩ | ⟨stdout, stderr, r, more, rfl, hlisted, hr⟩
  · exact ⟨.other, s, more, rfl⟩
  · have hattempt : attempt (listModemIndices cfg) s (.completed 0 stdout stderr :: r :: more) =
        some (.ok (.ok (listedIndices stdout stderr)), s, r :: more) := rfl
    have hping : ∃ e, modemPing cfg s (r :: more) = some (.error e, s, more) := by
      rcases hr with rfl | rfl
      · exact ⟨_, rfl⟩
      · exact ⟨_, rfl⟩
    obtain ⟨e, hping⟩ := hping
    refine ⟨e, s, more, ?_⟩
    unfold checkModemAvailability
    refine (Script.bind_of_ok hattempt).trans ?_
    dsimp only
    rw [if_neg (not_not.mpr hlisted)]
    show Script.bind (modemPing cfg) _ s (r :: more) = _
    rw [Script.bind, hping]

/-- Nothing catches what the ping raises. -/
theorem availability_answered_iff :
    AvailabilityAnswered loads cfg phoneEnv state w modemIndex checkedAt s rs ↔
      ¬ CallRaises modemIndex rs := by
  constructor
  · intro h hraises
    have hfails : ∃ e s' rest,
        checkModemAvailability loads cfg phoneEnv state w modemIndex checkedAt s rs =
          some (.error e, s', rest) := checkModemAvailability_raises hraises
    obtain ⟨e, s', rest, hrun⟩ := hfails
    obtain ⟨_, hres, _⟩ := h.exact _ _ _ hrun
    cases hres
  · intro hnot
    have hexact : ∀ res s' rest,
        checkModemAvailability loads cfg phoneEnv state w modemIndex checkedAt s rs =
          some (res, s', rest) →
        ∃ availability, res = .ok availability ∧
          (availability.available = true ↔ Responds modemIndex state rs) := by
      intro res s' rest hrun
      rcases checkModemAvailability_cases hrun with ⟨hraises, _⟩ | ⟨_, hok⟩
      · exact absurd hraises hnot
      · exact hok
    refine ⟨?_, hexact, ?_⟩
    · intro hlen
      have hends : ∃ res s' rest,
          checkModemAvailability loads cfg phoneEnv state w modemIndex checkedAt s rs =
            some (res, s', rest) ∧ rs.length ≤ 6 + rest.length :=
        checkModemAvailability_within s rs hlen
      obtain ⟨res, s', rest, hrun, _⟩ := hends
      obtain ⟨availability, rfl, _⟩ := hexact res s' rest hrun
      exact ⟨availability, s', rest, hrun⟩
    · intro res s' rest hrun
      rcases Script.bind_cases hrun with ⟨e, hcheck, _⟩ | ⟨availability, s₁, rest₁, hcheck, hend⟩
      · obtain ⟨_, hres, _⟩ := hexact _ _ _ hcheck
        cases hres
      · obtain ⟨_, hres, hresponds⟩ := hexact _ _ _ hcheck
        cases hres
        cases hend
        by_cases hr : Responds modemIndex state rs
        · exact Or.inl ⟨if_pos (hresponds.mpr hr), hr⟩
        · exact Or.inr ⟨if_neg (fun h => hr (hresponds.mp h)), hr⟩

end Calls

/-- A listed modem whose ping times out. -/
def pingTimeoutRuns : List RunResult :=
  [.completed 0 (listing [0]) [], .timeout, .timeout, .timeout, .timeout, .timeout]

/-- The endpoint answers 500. -/
theorem ping_timeout_unanswered :
    ∃ exc rest, modemAvailabilityView (fun _ => none) ⟨"15.0".toList, 3, by decide⟩ (fun _ => [])
        "registered".toList emptyWorld 0 [] () pingTimeoutRuns =
      some (.error (.mmcli exc), (), rest) ∧
      httpStatus (.error (.mmcli exc)) = 500 := by
  exact ⟨timedOut ⟨"15.0".toList, 3, by decide⟩, _, rfl, rfl⟩

end HiWaveTel
