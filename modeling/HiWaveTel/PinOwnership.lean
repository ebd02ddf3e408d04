import HiWaveTel.ModemReady

/- Whose PIN a SIM is given. The PINs are variables of the environment, one for each modem
   (`modem_env.get_modem_pin_code`), and a wait for a modem may go to another one than it was
   asked for.

   `pins_stay_with_their_modem` — in every run of a wait, whatever `mmcli` answers, each
   `mmcli --pin` carries the PIN that the environment has for the very modem it goes to, or for
   the one whose overview named the SIM: its own PIN, or, when it has none, the only PIN that is
   configured for any modem (`pinOf_getModemPinCode`). -/
namespace HiWaveTel.ModemReady
open Foundation

/-! ## The variables -/

/-- `MODEM_N_DEVICE_PIN_CODE`. -/
def devicePin (environ : Environ) (modemIndex : Nat) : Str :=
  getModemEnv environ modemIndex "DEVICE_PIN_CODE".toList

/-- Behind the literal: the digits, and what follows them. -/
theorem matchEnvKey_literal (rest : Str) :
    matchEnvKey ("MODEM_".toList ++ rest) =
      if (rest.dropWhile Char.isDigit).head? = some '_' ∧
          ((rest.dropWhile Char.isDigit).drop 1).takeWhile (· != '\n') ≠ [] ∧
          (((rest.dropWhile Char.isDigit).drop 1).dropWhile (· != '\n') = [] ∨
            ((rest.dropWhile Char.isDigit).drop 1).dropWhile (· != '\n') = ['\n']) then
        Text.toNat? (rest.takeWhile Char.isDigit)
      else none := rfl

/-- The name of a variable gives back the modem it is for. -/
theorem matchEnvKey_modemEnvKey (modemIndex : Nat) {suffix : Str} (hne : suffix ≠ [])
    (hline : '\n' ∉ suffix) : matchEnvKey (modemEnvKey modemIndex suffix) = some modemIndex := by
  have hall := isDigit_ofNat modemIndex
  have hkey : modemEnvKey modemIndex suffix =
      "MODEM_".toList ++ (Text.ofNat modemIndex ++ '_' :: suffix) := by
    unfold modemEnvKey
    rw [List.append_assoc, List.append_assoc]
    rfl
  have hdigits : (Text.ofNat modemIndex ++ '_' :: suffix).takeWhile Char.isDigit =
      Text.ofNat modemIndex := by
    rw [List.takeWhile_append_of_pos hall, List.takeWhile_cons_of_neg (by decide), List.append_nil]
  have hrest : (Text.ofNat modemIndex ++ '_' :: suffix).dropWhile Char.isDigit = '_' :: suffix := by
    rw [List.dropWhile_append_of_pos hall, List.dropWhile_cons_of_neg (by decide)]
  have hplain : ∀ c ∈ suffix, (c != '\n') = true :=
    fun c hc => bne_iff_ne.mpr (fun he => hline (he ▸ hc))
  have hbody : suffix.takeWhile (· != '\n') = suffix := List.takeWhile_eq_self_iff.mpr hplain
  have htail : suffix.dropWhile (· != '\n') = [] := List.dropWhile_eq_nil_iff.mpr hplain
  rw [hkey, matchEnvKey_literal, hdigits, hrest]
  rw [List.head?_cons, List.drop_one, List.tail_cons, hbody, htail,
    if_pos ⟨rfl, hne, Or.inl rfl⟩, Text.toNat?_ofNat]

/-- A modem with a PIN is among the indices of the environment. -/
theorem mem_listModemIndicesFromEnv {environ : Environ} {modemIndex : Nat}
    (h : devicePin environ modemIndex ≠ []) : modemIndex ∈ listModemIndicesFromEnv environ := by
  rw [listModemIndicesFromEnv, mem_sortedSet, List.mem_filterMap]
  cases hget : Dict.get environ (modemEnvKey modemIndex "DEVICE_PIN_CODE".toList) with
  | none =>
    have hblank : devicePin environ modemIndex = [] := by
      rw [devicePin, getModemEnv, hget]
      decide
    exact absurd hblank h
  | some value =>
    exact ⟨_, Dict.mem_of_get hget, matchEnvKey_modemEnvKey modemIndex (by decide) (by decide)⟩

/-- The PIN that the environment has for a modem: its own, or else the only one there is. -/
def PinOf (environ : Environ) (modemIndex : Nat) (code : Str) : Prop :=
  code ≠ [] ∧ (devicePin environ modemIndex = code ∨
    devicePin environ modemIndex = [] ∧
      ∃ j, devicePin environ j = code ∧ ∀ k, devicePin environ k ≠ [] → k = j)

/-- Without one of its own, a modem has a PIN when one is configured in all. -/
theorem lonePin_of_unset {environ : Environ} {modemIndex : Nat}
    (hown : ¬ devicePin environ modemIndex ≠ []) (h : getModemPinCode environ modemIndex ≠ []) :
    ∃ pin, ((listModemIndicesFromEnv environ).map (devicePin environ)).filter
        (fun pin => pin != []) = [pin] ∧ getModemPinCode environ modemIndex = pin := by
  unfold devicePin at hown ⊢
  unfold getModemPinCode at h ⊢
  simp only [if_neg hown] at h ⊢
  split at h
  · next pin honly => exact ⟨pin, honly, rfl⟩
  · exact absurd rfl h

theorem pinOf_getModemPinCode (environ : Environ) (modemIndex : Nat)
    (h : getModemPinCode environ modemIndex ≠ []) :
    PinOf environ modemIndex (getModemPinCode environ modemIndex) := by
  refine ⟨h, ?_⟩
  by_cases hown : devicePin environ modemIndex ≠ []
  · have hcode : getModemPinCode environ modemIndex = devicePin environ modemIndex := if_pos hown
    exact Or.inl hcode.symm
  · refine Or.inr ⟨not_not.mp hown, ?_⟩
    obtain ⟨pin, honly, hcode⟩ := lonePin_of_unset hown h
    rw [List.filter_map] at honly
    obtain ⟨j, hj, hpin⟩ := List.map_eq_singleton_iff.mp honly
    refine ⟨j, hpin.trans hcode.symm, ?_⟩
    intro k hk
    have hmem : k ∈ (listModemIndicesFromEnv environ).filter
        ((fun pin => pin != []) ∘ devicePin environ) :=
      List.mem_filter.mpr ⟨mem_listModemIndicesFromEnv hk, bne_iff_ne.mpr hk⟩
    rw [hj] at hmem
    exact List.mem_singleton.mp hmem

/-! ## The commands -/

/-- The overview of the modem that was read has this SIM. -/
def SimReadFrom (seen : List (MmcliCommand × RunResult)) (modemIndex : Nat) (simPath : Str) : Prop :=
  ∃ r cp, (.showModem modemIndex, r) ∈ seen ∧ caught r = some cp ∧
    extractSimPathFromModemOverview (haystack cp) = simPath

/-- A PIN goes to the modem it is for, or to the SIM that its overview has named. -/
def OwnPin (environ : Environ) (seen : List (MmcliCommand × RunResult)) : MmcliCommand → Prop
  | .pinModem modemIndex code => PinOf environ modemIndex code
  | .pinSim simPath code =>
    ∃ modemIndex, PinOf environ modemIndex code ∧ SimReadFrom seen modemIndex simPath
  | _ => True

section Runs
variable {environ : Environ} {seen : List (MmcliCommand × RunResult)} {modemIndex : Nat}

theorem lasting_ownPin : Dialogue.Lasting (OwnPin environ) := by
  intro seen seen' command hsub h
  cases command with
  | pinSim simPath code =>
    obtain ⟨i, hpin, r, cp, hmem, hcp, hpath⟩ := h
    exact ⟨i, hpin, r, cp, hsub hmem, hcp, hpath⟩
  | pinModem i code => exact h
  | listModems | scanModems | showModem | showSim | enableModem | resetModem | listSms => trivial

theorem ownPin_of_not_pin {command : MmcliCommand} (h : command.isPin = false) :
    OwnPin environ seen command := by
  cases command with
  | pinSim simPath code => cases h
  | pinModem i code => cases h
  | listModems | scanModems | showModem | showSim | enableModem | resetModem | listSms => trivial

/-- Nothing to justify. -/
theorem justified_plain {α : Type} {m : Session α} (h : m.AsksOnly MmcliCommand.Plain) :
    m.AsksJustified (OwnPin environ) seen :=
  Dialogue.justified_of_asksOnly h (fun _ hq _ => ownPin_of_not_pin hq.1) seen

theorem justified_plain_bind {α β : Type} {m : Session α} {f : α → Session β}
    (hm : m.AsksOnly MmcliCommand.Plain) (hf : ∀ a, (f a).AsksJustified (OwnPin environ) seen) :
    (m >>= f).AsksJustified (OwnPin environ) seen :=
  Dialogue.justified_bind lasting_ownPin (justified_plain hm) hf

theorem justified_afterPin {others : Session Bool}
    (h : others.AsksJustified (OwnPin environ) seen) (unlock : Option CompletedProcess) :
    (afterPin modemIndex others unlock).AsksJustified (OwnPin environ) seen := by
  cases unlock with
  | none => exact h
  | some cp =>
    have hcases : afterPin modemIndex others (some cp) =
        if pinUnlockNotNeeded (unlockText cp) then pure true
        else if mmcliCommandOk cp then
          simPinLockActive modemIndex >>= fun locked => if locked then others else pure true
        else others := rfl
    rw [hcases]
    by_cases hnotNeeded : pinUnlockNotNeeded (unlockText cp) = true
    · rw [if_pos hnotNeeded]
      exact Dialogue.justified_done _ _
    · rw [if_neg hnotNeeded]
      by_cases hok : mmcliCommandOk cp = true
      -- `mmcli` says that it worked, but the SIM is still locked: the other commands go on
      · rw [if_pos hok]
        refine justified_plain_bind plain_simPinLockActive (fun locked => ?_)
        cases locked with
        | true => exact h
        | false => exact Dialogue.justified_done _ _
      · rw [if_neg hok]
        exact h

/-- The commands of an attempt, one after the other. -/
theorem justified_submitPin {commands : List MmcliCommand}
    (h : ∀ command ∈ commands, OwnPin environ seen command) :
    (submitPin modemIndex commands).AsksJustified (OwnPin environ) seen := by
  induction commands with
  | nil => exact Dialogue.justified_done _ _
  | cons command commands ih =>
    obtain ⟨hcommand, hcommands⟩ := List.forall_mem_cons.mp h
    refine Dialogue.justified_bind lasting_ownPin ?_ (fun unlock => justified_afterPin (ih hcommands) unlock)
    intro tr a hrun
    obtain ⟨r, t, rfl, hdone⟩ := Dialogue.runs_ask.mp hrun
    rw [(Dialogue.runs_done.mp hdone).1]
    exact ⟨hcommand, trivial⟩

/-- What reading the SIM path leaves behind. -/
theorem runs_readSimPath {tr : List (MmcliCommand × RunResult)} {simPath : Str}
    (h : (readSimPath modemIndex).Runs tr simPath) (hne : simPath ≠ []) :
    SimReadFrom tr modemIndex simPath := by
  obtain ⟨t₁, cp, t₂, rfl, hfirst, hdone⟩ := Dialogue.runs_bind.mp h
  obtain ⟨r, t, rfl, hcaught⟩ := Dialogue.runs_ask.mp hfirst
  obtain ⟨rfl, rfl⟩ := Dialogue.runs_done.mp hcaught
  cases hcp : caught r with
  | none =>
    rw [hcp] at hdone
    exact absurd (Dialogue.runs_done.mp hdone).2 hne
  | some cp =>
    rw [hcp] at hdone
    exact ⟨r, cp, by simp, hcp, (Dialogue.runs_done.mp hdone).2.symm⟩

theorem justified_unlockLoop {code : Str} (hpin : PinOf environ modemIndex code) (attempts : Nat) :
    (unlockLoop modemIndex code attempts).AsksJustified (OwnPin environ) seen := by
  induction attempts with
  | zero => exact Dialogue.justified_done _ _
  | succ attempts ih =>
    unfold unlockLoop
    refine justified_plain_bind plain_simPinLockActive (fun pinLockActive => ?_)
    refine justified_plain_bind plain_getModemState (fun state => ?_)
    split
    · exact Dialogue.justified_done _ _
    · refine Dialogue.justified_bind_told (justified_plain plain_readSimPath) ?_
      intro simPath tr hread
      -- the SIM path was read just before, so the answer that named it has been seen
      have hcommands : ∀ command ∈ pinCommands modemIndex simPath code,
          OwnPin environ (seen ++ tr) command := by
        intro command hcommand
        cases List.mem_append.mp hcommand with
        | inl hsim =>
          by_cases hne : simPath ≠ []
          · rw [if_pos hne] at hsim
            rw [List.mem_singleton.mp hsim]
            obtain ⟨r, cp, hmem, hcp, hpath⟩ := runs_readSimPath hread hne
            exact ⟨modemIndex, hpin, r, cp, List.mem_append_right _ hmem, hcp, hpath⟩
          · rw [if_neg hne] at hsim
            cases hsim
        | inr hmodem =>
          rw [List.mem_singleton.mp hmodem]
          exact hpin
      refine Dialogue.justified_bind lasting_ownPin (justified_submitPin hcommands) (fun returned => ?_)
      split
      · exact Dialogue.justified_done _ _
      -- the next attempt has seen no less
      · exact fun t b hrun =>
          (ih t b hrun).mono lasting_ownPin (List.subset_append_left _ _)

variable {cfg : ReadySettings}

theorem justified_tryUnlockSimPin :
    (tryUnlockSimPin cfg modemIndex).AsksJustified (OwnPin cfg.environ) seen := by
  unfold tryUnlockSimPin
  dsimp only
  split
  · exact Dialogue.justified_done _ _
  · next hne => exact justified_unlockLoop (pinOf_getModemPinCode _ _ hne) _

theorem justified_recoverModemState :
    (recoverModemState cfg modemIndex).AsksJustified (OwnPin cfg.environ) seen := by
  have hunlock : (do
      let _ ← tryUnlockSimPin cfg modemIndex
      return : Session Unit).AsksJustified (OwnPin cfg.environ) seen :=
    Dialogue.justified_bind lasting_ownPin justified_tryUnlockSimPin
      (fun _ => Dialogue.justified_done _ _)
  refine justified_plain_bind plain_getModemState (fun state => ?_)
  split
  · refine justified_plain_bind plain_tryResetModem (fun reset => ?_)
    split
    · exact justified_plain plain_tryRescanModems
    · exact Dialogue.justified_done _ _
  · split
    · exact hunlock
    · refine justified_plain_bind plain_simPinLockActive (fun locked => ?_)
      split
      · exact hunlock
      · split
        · exact justified_plain plain_tryEnableModem
        · exact Dialogue.justified_done _ _

theorem justified_modemTurn (requireMessaging : Bool) :
    (modemTurn cfg requireMessaging modemIndex).AsksJustified (OwnPin cfg.environ) seen := by
  refine justified_plain_bind plain_getModemState (fun state => ?_)
  refine justified_plain_bind ?_ (fun ready => ?_)
  · split
    · split
      · exact plain_messagingInterfaceReady
      · exact Dialogue.asksOnly_done _
    · exact Dialogue.asksOnly_done _
  · split
    · exact Dialogue.justified_done _ _
    -- only the recovery of a modem that is not ready submits a PIN
    · exact Dialogue.justified_bind lasting_ownPin justified_recoverModemState
        (fun _ => Dialogue.justified_done _ _)

/-- In every run of a wait, whatever `mmcli` answers and whichever modems the wait turns to. A
    modem without a PIN of its own is sent the only one configured. -/
theorem pins_stay_with_their_modem (cfg : ReadySettings) (configured : Nat)
    (requireMessaging : Bool) (turns : List Bool) :
    (waitModemReadyForSms cfg configured requireMessaging turns).AsksJustified
      (OwnPin cfg.environ) [] := by
  have hresolve : (resolveWorkingModemIndex cfg.client configured).AsksJustified
      (OwnPin cfg.environ) [] :=
    Dialogue.justified_of_asksOnly (noPin_resolveWorkingModemIndex cfg.client configured)
      (fun _ hq _ => ownPin_of_not_pin hq) []
  -- on the turns of the wait; each attempt reads the overview anew
  induction turns with
  | nil =>
    refine Dialogue.justified_bind lasting_ownPin hresolve (fun working => ?_)
    split
    · exact Dialogue.justified_done _ _
    · exact Dialogue.justified_done _ _
    · exact justified_plain_bind plain_getModemState (fun _ => Dialogue.justified_done _ _)
  | cons rescanDue turns ih =>
    refine Dialogue.justified_bind lasting_ownPin hresolve (fun working => ?_)
    split
    · exact Dialogue.justified_done _ _
    · refine justified_plain_bind ?_ (fun _ => ih)
      split
      · exact plain_tryRescanModems
      · exact Dialogue.asksOnly_done _
    · refine Dialogue.justified_bind lasting_ownPin (justified_modemTurn requireMessaging)
        (fun ready => ?_)
      split
      · exact Dialogue.justified_done _ _
      · exact ih

end Runs

end HiWaveTel.ModemReady
