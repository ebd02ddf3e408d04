import Mathlib.Data.List.Chain
import HiWaveTel.ModemReady

/- How often a wait for a modem submits a PIN that is refused. An attempt gives the PIN to the SIM
   and then to the modem, an unlock makes `max_attempts` attempts, and every poll of the wait
   unlocks again.

   `refusals_wait` bounds the refused commands of a run in which the PIN is refused once in an
   attempt and in one poll only. A SIM that refuses it every time is `rejecting`, and
   `refusals_rejecting` counts what that comes to. -/
namespace HiWaveTel.ModemReady
open Foundation

/-! ## Refused commands -/

/-- `_mmcli_command_ok`, of a command that could be run. -/
def accepted (r : RunResult) : Bool := (caught r).any mmcliCommandOk

def refused (x : MmcliCommand × RunResult) : Bool := x.1.isPin && !accepted x.2

def refusals (tr : List (MmcliCommand × RunResult)) : Nat := tr.countP refused

/-- No two commands in a row are refused: not the SIM's and the modem's of one attempt. -/
def RefusedOnceInARow (tr : List (MmcliCommand × RunResult)) : Prop :=
  tr.IsChain (fun x y => ¬ (refused x = true ∧ refused y = true))

/-- Around every listing the PIN is refused on one side only. -/
def RefusedInOnePoll (tr : List (MmcliCommand × RunResult)) : Prop :=
  ∀ before r after, tr = before ++ (.listModems, r) :: after →
    refusals before = 0 ∨ refusals after = 0

theorem refusedOnceInARow_append {t₁ t₂ : List (MmcliCommand × RunResult)}
    (h : RefusedOnceInARow (t₁ ++ t₂)) : RefusedOnceInARow t₁ ∧ RefusedOnceInARow t₂ := by
  obtain ⟨h₁, h₂, _⟩ := List.isChain_append.mp h
  exact ⟨h₁, h₂⟩

theorem refusedInOnePoll_append {t₁ t₂ : List (MmcliCommand × RunResult)}
    (h : RefusedInOnePoll (t₁ ++ t₂)) : RefusedInOnePoll t₂ := by
  intro before r after heq
  have hsides := h (t₁ ++ before) r after (by rw [heq, List.append_assoc])
  refine hsides.imp_left (fun hnone => ?_)
  rw [refusals, List.countP_append] at hnone
  exact Nat.eq_zero_of_add_eq_zero_left hnone

section Refusals
variable {modemIndex : Nat}

theorem refused_of_not_pin {x : MmcliCommand × RunResult} (h : x.1.isPin = false) :
    refused x = false := by
  rw [refused, h, Bool.false_and]

theorem refusals_of_plain {α : Type} {m : Session α} (h : m.AsksOnly MmcliCommand.Plain)
    {tr : List (MmcliCommand × RunResult)} {a : α} (hrun : m.Runs tr a) : refusals tr = 0 :=
  Dialogue.countP_of_asksOnly h (fun _ hx => refused_of_not_pin hx.1) hrun

/-! ## One attempt -/

/-- A command of an attempt, and what may follow it: where it is refused, at once the next one. -/
theorem submitPin_cons {command : MmcliCommand} {commands : List MmcliCommand}
    {tr : List (MmcliCommand × RunResult)} {b : Bool}
    (h : (submitPin modemIndex (command :: commands)).Runs tr b) :
    ∃ r t₁ t₂, tr = (command, r) :: (t₁ ++ t₂) ∧ refusals t₁ = 0 ∧
      (accepted r = false → t₁ = []) ∧ (t₂ = [] ∨ (submitPin modemIndex commands).Runs t₂ b) := by
  obtain ⟨t, cp, t', rfl, hrun, hthen⟩ := Dialogue.runs_bind.mp h
  obtain ⟨r, t₀, rfl, hdone⟩ := Dialogue.runs_ask.mp hrun
  obtain ⟨rfl, rfl⟩ := Dialogue.runs_done.mp hdone
  cases hcp : caught r with
  | none =>
    rw [hcp] at hthen
    exact ⟨r, [], t', rfl, rfl, fun _ => rfl, Or.inr hthen⟩
  | some unlock =>
    rw [hcp, afterPin] at hthen
    split at hthen
    · obtain ⟨rfl, _⟩ := Dialogue.runs_done.mp hthen
      exact ⟨r, [], [], rfl, rfl, fun _ => rfl, Or.inl rfl⟩
    · split at hthen
      · next hok =>
        have haccepted : accepted r = true := by rw [accepted, hcp, Option.any_some, hok]
        obtain ⟨t₁, locked, t₂, rfl, hlock, hnext⟩ := Dialogue.runs_bind.mp hthen
        refine ⟨r, t₁, t₂, rfl, refusals_of_plain plain_simPinLockActive hlock, ?_, ?_⟩
        · intro hnot
          rw [haccepted] at hnot
          cases hnot
        · split at hnext
          · exact Or.inr hnext
          · exact Or.inl (Dialogue.runs_done.mp hnext).1
      · exact ⟨r, [], t', rfl, rfl, fun _ => rfl, Or.inr hthen⟩

theorem refusals_submitPin_nil {tr : List (MmcliCommand × RunResult)} {b : Bool}
    (h : (submitPin modemIndex []).Runs tr b) : tr = [] := (Dialogue.runs_done.mp h).1

/-- The modem's command is the last one. -/
theorem submitPin_last {command : MmcliCommand} {tr : List (MmcliCommand × RunResult)} {b : Bool}
    (h : (submitPin modemIndex [command]).Runs tr b) :
    ∃ r t, tr = (command, r) :: t ∧ refusals t = 0 := by
  obtain ⟨r, t₁, t₂, rfl, hplain, _, hnext⟩ := submitPin_cons h
  have hnone : t₂ = [] := hnext.elim id refusals_submitPin_nil
  rw [hnone, List.append_nil]
  exact ⟨r, t₁, rfl, hplain⟩

theorem refusals_pinCommands {simPath code : Str} {tr : List (MmcliCommand × RunResult)} {b : Bool}
    (h : (submitPin modemIndex (pinCommands modemIndex simPath code)).Runs tr b)
    (honce : RefusedOnceInARow tr) : refusals tr ≤ 1 := by
  have hlast : ∀ {tr b}, (submitPin modemIndex [.pinModem modemIndex code]).Runs tr b →
      refusals tr ≤ 1 := by
    intro tr b h
    obtain ⟨r, t, rfl, hplain⟩ := submitPin_last h
    rw [refusals, List.countP_cons, show t.countP refused = 0 from hplain]
    split <;> decide
  unfold pinCommands at h
  split at h
  · obtain ⟨r, t₁, t₂, rfl, hplain, hrefused, hnext⟩ := submitPin_cons h
    have hcount : refusals ((MmcliCommand.pinSim simPath code, r) :: (t₁ ++ t₂)) =
        refusals t₂ + (if refused (.pinSim simPath code, r) = true then 1 else 0) := by
      rw [refusals, List.countP_cons, List.countP_append,
        show t₁.countP refused = 0 from hplain, Nat.zero_add]
      rfl
    rw [hcount]
    cases hsim : accepted r with
    | true =>
      have hnot : ¬ refused (.pinSim simPath code, r) = true := by
        rw [refused, hsim, Bool.not_true, Bool.and_false]
        exact Bool.false_ne_true
      rw [if_neg hnot, Nat.add_zero]
      rcases hnext with rfl | hnext
      · exact Nat.zero_le 1
      · exact hlast hnext
    | false =>
      -- the modem's command comes next, so it is not refused as well
      have hrefusedSim : refused (.pinSim simPath code, r) = true := by
        rw [refused, hsim]
        rfl
      obtain rfl := hrefused hsim
      have hnone : refusals t₂ = 0 := by
        rcases hnext with rfl | hnext
        · rfl
        · obtain ⟨r', t, rfl, hplain'⟩ := submitPin_last hnext
          have hmodem := (List.isChain_cons_cons.mp honce).1
          rw [not_and, Bool.not_eq_true] at hmodem
          rw [refusals, List.countP_cons, show t.countP refused = 0 from hplain',
            hmodem hrefusedSim]
          rfl
      rw [hnone, if_pos hrefusedSim]
  · exact hlast h

/-- Without that condition each command may be refused. -/
theorem refusals_submitPin_le {commands : List MmcliCommand}
    {tr : List (MmcliCommand × RunResult)} {b : Bool}
    (h : (submitPin modemIndex commands).Runs tr b) : refusals tr ≤ commands.length := by
  induction commands generalizing tr with
  | nil =>
    rw [refusals_submitPin_nil h]
    exact Nat.zero_le _
  | cons command commands ih =>
    obtain ⟨r, t₁, t₂, rfl, hplain, _, hnext⟩ := submitPin_cons h
    have hrest : refusals t₂ ≤ commands.length := by
      rcases hnext with rfl | hnext
      · exact Nat.zero_le _
      · exact ih hnext
    rw [refusals, List.countP_cons, List.countP_append, show t₁.countP refused = 0 from hplain,
      Nat.zero_add, List.length_cons]
    exact Nat.add_le_add hrest (by split <;> decide)

end Refusals

/-! ## The loops around it

A condition `C` on the transcript says what each attempt has of refusals; the loops add them up. -/

section Loops
variable {C : List (MmcliCommand × RunResult) → Prop}
  (hC : ∀ t₁ t₂, C (t₁ ++ t₂) → C t₁ ∧ C t₂) {n : Nat} {modemIndex : Nat}

theorem countsWithin_plain {α : Type} {m : Session α} (h : m.AsksOnly MmcliCommand.Plain) :
    m.CountsWithin C refused 0 :=
  Dialogue.countsWithin_of_asksOnly h (fun _ hx => refused_of_not_pin hx.1)

include hC

/-- What is looked at first does not count. -/
theorem countsWithin_plain_bind {α β : Type} {m : Session α} {f : α → Session β}
    (hm : m.AsksOnly MmcliCommand.Plain) (hf : ∀ a, (f a).CountsWithin C refused n) :
    (m >>= f).CountsWithin C refused n :=
  (Dialogue.countsWithin_bind hC (countsWithin_plain hm) hf).mono (Nat.zero_add n).le

theorem countsWithin_unlockLoop {code : Str} {k : Nat}
    (hattempt : ∀ simPath, (submitPin modemIndex (pinCommands modemIndex simPath code)).CountsWithin
      C refused k) (attempts : Nat) :
    (unlockLoop modemIndex code attempts).CountsWithin C refused (attempts * k) := by
  induction attempts with
  | zero => exact Dialogue.countsWithin_done _ false
  | succ attempts ih =>
    unfold unlockLoop
    refine countsWithin_plain_bind hC plain_simPinLockActive (fun pinLockActive => ?_)
    refine countsWithin_plain_bind hC plain_getModemState (fun state => ?_)
    split
    · exact Dialogue.countsWithin_done _ true
    · refine countsWithin_plain_bind hC plain_readSimPath (fun simPath => ?_)
      rw [Nat.succ_mul, Nat.add_comm]
      refine Dialogue.countsWithin_bind hC (hattempt simPath) (fun returned => ?_)
      split
      · exact Dialogue.countsWithin_done _ true
      · exact ih

variable {cfg : ReadySettings}

theorem countsWithin_tryUnlockSimPin {k : Nat}
    (hattempt : ∀ simPath code,
      (submitPin modemIndex (pinCommands modemIndex simPath code)).CountsWithin C refused k) :
    (tryUnlockSimPin cfg modemIndex).CountsWithin C refused (cfg.maxAttempts * k) := by
  unfold tryUnlockSimPin
  dsimp only
  split
  · exact Dialogue.countsWithin_done _ false
  · exact countsWithin_unlockLoop hC (fun simPath => hattempt simPath _) _

theorem countsWithin_recoverModemState
    (hunlock : (tryUnlockSimPin cfg modemIndex).CountsWithin C refused n) :
    (recoverModemState cfg modemIndex).CountsWithin C refused n := by
  have hthen : (do
      let _ ← tryUnlockSimPin cfg modemIndex
      return : Session Unit).CountsWithin C refused n :=
    Dialogue.countsWithin_bind hC hunlock (fun _ => Dialogue.countsWithin_done 0 ())
  have hplain : ∀ {m : Session Unit}, m.AsksOnly MmcliCommand.Plain → m.CountsWithin C refused n :=
    fun h => (countsWithin_plain h).mono (Nat.zero_le _)
  refine countsWithin_plain_bind hC plain_getModemState (fun state => ?_)
  split
  · refine countsWithin_plain_bind hC plain_tryResetModem (fun reset => ?_)
    split
    · exact hplain plain_tryRescanModems
    · exact Dialogue.countsWithin_done _ ()
  · split
    · exact hthen
    · refine countsWithin_plain_bind hC plain_simPinLockActive (fun locked => ?_)
      split
      · exact hthen
      · split
        · exact hplain plain_tryEnableModem
        · exact Dialogue.countsWithin_done _ ()

theorem countsWithin_modemTurn (requireMessaging : Bool)
    (hunlock : (tryUnlockSimPin cfg modemIndex).CountsWithin C refused n) :
    (modemTurn cfg requireMessaging modemIndex).CountsWithin C refused n := by
  refine countsWithin_plain_bind hC plain_getModemState (fun state => ?_)
  refine countsWithin_plain_bind hC ?_ (fun ready => ?_)
  · split
    · split
      · exact plain_messagingInterfaceReady
      · exact Dialogue.asksOnly_done _
    · exact Dialogue.asksOnly_done _
  · split
    · exact Dialogue.countsWithin_done _ true
    · exact Dialogue.countsWithin_bind hC (countsWithin_recoverModemState hC hunlock)
        (fun _ => Dialogue.countsWithin_done 0 false)

end Loops

/-! ## The polls of a wait -/

section Polls
variable (cfg : ReadySettings)

theorem refusals_resolve {configured : Nat} {tr : List (MmcliCommand × RunResult)}
    {res : Except Raised (Option Nat)}
    (h : (resolveWorkingModemIndex cfg.client configured).Runs tr res) : refusals tr = 0 :=
  Dialogue.countP_of_asksOnly (noPin_resolveWorkingModemIndex cfg.client configured)
    (fun _ hx => refused_of_not_pin hx) h

variable {configured : Nat} {requireMessaging : Bool}

/-- Each turn starts with a listing, and so does the end of the wait. -/
theorem wait_listing {turns : List Bool} {tr : List (MmcliCommand × RunResult)}
    {res : Except Raised Bool}
    (h : (waitModemReadyForSms cfg configured requireMessaging turns).Runs tr res) :
    ∃ r t, tr = (.listModems, r) :: t := by
  have hresolve : ∀ {tr res}, (resolveWorkingModemIndex cfg.client configured).Runs tr res →
      ∃ r t, tr = (.listModems, r) :: t := by
    intro tr res h
    obtain ⟨_, _, t', rfl, hworking, _⟩ := Dialogue.runs_bind.mp h
    obtain ⟨_, _, t'', rfl, hlisting, _⟩ := Dialogue.runs_bind.mp hworking
    obtain ⟨r, t, rfl, _⟩ := Dialogue.runs_ask.mp hlisting
    exact ⟨r, _, rfl⟩
  cases turns with
  | nil =>
    obtain ⟨_, _, _, rfl, hfirst, _⟩ := Dialogue.runs_bind.mp h
    obtain ⟨r, t, rfl⟩ := hresolve hfirst
    exact ⟨r, _, rfl⟩
  | cons rescanDue turns =>
    obtain ⟨_, _, _, rfl, hfirst, _⟩ := Dialogue.runs_bind.mp h
    obtain ⟨r, t, rfl⟩ := hresolve hfirst
    exact ⟨r, _, rfl⟩

theorem refusals_wait_nil {tr : List (MmcliCommand × RunResult)} {res : Except Raised Bool}
    (h : (waitModemReadyForSms cfg configured requireMessaging []).Runs tr res) :
    refusals tr = 0 := by
  obtain ⟨t₁, active, t₂, rfl, hresolve, hthen⟩ := Dialogue.runs_bind.mp h
  have hfirst := refusals_resolve cfg hresolve
  have hrest : refusals t₂ = 0 := by
    split at hthen
    · rw [(Dialogue.runs_done.mp hthen).1]
      rfl
    · rw [(Dialogue.runs_done.mp hthen).1]
      rfl
    · obtain ⟨t, state, t', rfl, hstate, hdone⟩ := Dialogue.runs_bind.mp hthen
      rw [(Dialogue.runs_done.mp hdone).1, List.append_nil]
      exact refusals_of_plain plain_getModemState hstate
  rw [refusals, List.countP_append]
  exact Nat.add_eq_zero_iff.mpr ⟨hfirst, hrest⟩

/-- A turn, and the turns after it, if there are any. -/
theorem wait_cons {C : List (MmcliCommand × RunResult) → Prop} {n : Nat}
    (hC : ∀ t₁ t₂, C (t₁ ++ t₂) → C t₁ ∧ C t₂)
    (hunlock : ∀ i, (tryUnlockSimPin cfg i).CountsWithin C refused n) {rescanDue : Bool}
    {turns : List Bool} {tr : List (MmcliCommand × RunResult)} {res : Except Raised Bool}
    (h : (waitModemReadyForSms cfg configured requireMessaging (rescanDue :: turns)).Runs tr res) :
    ∃ t₁ t₂, tr = t₁ ++ t₂ ∧ (C t₁ → refusals t₁ ≤ n) ∧
      (t₂ = [] ∨ (waitModemReadyForSms cfg configured requireMessaging turns).Runs t₂ res) := by
  obtain ⟨t₀, active, t, rfl, hresolve, hthen⟩ := Dialogue.runs_bind.mp h
  have hfirst := refusals_resolve cfg hresolve
  -- the resolver does not count in what comes before the next turn
  have hturn : ∀ {t'}, (C t' → refusals t' ≤ n) → C (t₀ ++ t') → refusals (t₀ ++ t') ≤ n := by
    intro t' ht' hboth
    rw [refusals, List.countP_append, show t₀.countP refused = 0 from hfirst, Nat.zero_add]
    exact ht' (hC t₀ t' hboth).2
  split at hthen
  · refine ⟨t₀ ++ t, [], by rw [List.append_nil], hturn ?_, Or.inl rfl⟩
    rw [(Dialogue.runs_done.mp hthen).1]
    exact fun _ => Nat.zero_le _
  · obtain ⟨t', _, t₂, rfl, hrescan, hnext⟩ := Dialogue.runs_bind.mp hthen
    refine ⟨t₀ ++ t', t₂, by rw [List.append_assoc], hturn ?_, Or.inr hnext⟩
    have hplain : (if rescanDue then tryRescanModems else pure ()).AsksOnly MmcliCommand.Plain := by
      split
      · exact plain_tryRescanModems
      · exact Dialogue.asksOnly_done _
    exact fun _ => (refusals_of_plain hplain hrescan).le.trans (Nat.zero_le _)
  · next modemIndex =>
    obtain ⟨t', ready, t₂, rfl, hmodem, hnext⟩ := Dialogue.runs_bind.mp hthen
    refine ⟨t₀ ++ t', t₂, by rw [List.append_assoc],
      hturn (countsWithin_modemTurn hC requireMessaging (hunlock modemIndex) t' ready hmodem), ?_⟩
    split at hnext
    · exact Or.inl (Dialogue.runs_done.mp hnext).1
    · exact Or.inr hnext

theorem refusals_tryUnlockSimPin (modemIndex : Nat) :
    (tryUnlockSimPin cfg modemIndex).CountsWithin RefusedOnceInARow refused cfg.maxAttempts := by
  have hunlock : (tryUnlockSimPin cfg modemIndex).CountsWithin RefusedOnceInARow refused
      (cfg.maxAttempts * 1) :=
    countsWithin_tryUnlockSimPin (fun _ _ => refusedOnceInARow_append)
      (fun _ _ _ _ hrun honce => refusals_pinCommands hrun honce)
  rwa [Nat.mul_one] at hunlock

/-- With one poll of refusals, and one refusal in each attempt of it, the retries bound them. -/
theorem refusals_wait {turns : List Bool} {tr : List (MmcliCommand × RunResult)}
    {res : Except Raised Bool}
    (h : (waitModemReadyForSms cfg configured requireMessaging turns).Runs tr res)
    (honce : RefusedOnceInARow tr) (hpoll : RefusedInOnePoll tr) :
    refusals tr ≤ cfg.maxAttempts := by
  induction turns generalizing tr with
  | nil =>
    rw [refusals_wait_nil cfg h]
    exact Nat.zero_le _
  | cons rescanDue turns ih =>
    obtain ⟨t₁, t₂, rfl, hturn, hnext⟩ :=
      wait_cons cfg (fun _ _ => refusedOnceInARow_append) (refusals_tryUnlockSimPin cfg) h
    obtain ⟨honce₁, honce₂⟩ := refusedOnceInARow_append honce
    rcases hnext with rfl | hnext
    · rw [List.append_nil]
      exact hturn honce₁
    · have hrest := ih hnext honce₂ (refusedInOnePoll_append hpoll)
      -- the next turn starts with a listing, and on one side of it nothing is refused
      obtain ⟨r, t, rfl⟩ := wait_listing cfg hnext
      have hlisting : refusals ((.listModems, r) :: t) = refusals t :=
        List.countP_cons_of_neg Bool.false_ne_true
      have hsplit : refusals (t₁ ++ (.listModems, r) :: t) = refusals t₁ + refusals t := by
        rw [← hlisting]
        exact List.countP_append
      rw [hlisting] at hrest
      rw [hsplit]
      rcases hpoll t₁ r t rfl with hnone | hnone
      · rw [hnone, Nat.zero_add]
        exact hrest
      · rw [hnone, Nat.add_zero]
        exact hturn honce₁

/-- Without the conditions the refusals of the unlocks add up over the turns. -/
theorem refusals_wait_le {n : Nat}
    (hunlock : ∀ i, (tryUnlockSimPin cfg i).CountsWithin (fun _ => True) refused n)
    {turns : List Bool} {tr : List (MmcliCommand × RunResult)} {res : Except Raised Bool}
    (h : (waitModemReadyForSms cfg configured requireMessaging turns).Runs tr res) :
    refusals tr ≤ turns.length * n := by
  induction turns generalizing tr with
  | nil =>
    rw [refusals_wait_nil cfg h]
    exact Nat.zero_le _
  | cons rescanDue turns ih =>
    obtain ⟨t₁, t₂, rfl, hturn, hnext⟩ := wait_cons cfg (fun _ _ _ => ⟨trivial, trivial⟩) hunlock h
    have hrest : refusals t₂ ≤ turns.length * n := by
      rcases hnext with rfl | hnext
      · exact Nat.zero_le _
      · exact ih hnext
    calc refusals (t₁ ++ t₂)
        = refusals t₁ + refusals t₂ := List.countP_append
      _ ≤ n + turns.length * n := Nat.add_le_add (hturn trivial) hrest
      _ = (rescanDue :: turns).length * n := by
          rw [List.length_cons, Nat.succ_mul, Nat.add_comm]

/-- Where no PIN is configured none is submitted. -/
theorem refusals_wait_of_no_pin (hpin : ∀ i, getModemPinCode cfg.environ i = [])
    {turns : List Bool} {tr : List (MmcliCommand × RunResult)} {res : Except Raised Bool}
    (h : (waitModemReadyForSms cfg configured requireMessaging turns).Runs tr res) :
    refusals tr = 0 := by
  have hunlock : ∀ i, (tryUnlockSimPin cfg i).CountsWithin (fun _ => True) refused 0 := by
    intro i
    rw [tryUnlockSimPin, if_pos (hpin i)]
    exact Dialogue.countsWithin_done 0 false
  exact Nat.le_zero.mp (refusals_wait_le cfg hunlock h)

/-- Both commands of an attempt, all attempts of a turn, and all turns. -/
theorem refusals_le_all {turns : List Bool} {tr : List (MmcliCommand × RunResult)}
    {res : Except Raised Bool}
    (h : (waitModemReadyForSms cfg configured requireMessaging turns).Runs tr res) :
    refusals tr ≤ turns.length * (2 * cfg.maxAttempts) := by
  have htwo : ∀ i simPath code,
      (submitPin i (pinCommands i simPath code)).CountsWithin (fun _ => True) refused 2 := by
    intro i simPath code tr b hrun _
    refine (refusals_submitPin_le hrun).trans ?_
    unfold pinCommands
    split <;> simp
  rw [Nat.mul_comm 2]
  exact refusals_wait_le cfg (fun i => countsWithin_tryUnlockSimPin
    (fun _ _ _ => ⟨trivial, trivial⟩) (htwo i)) h

end Polls

/-! ## A SIM that refuses every PIN -/

def lockedOverview : Str :=
  "lock: sim-pin\nstate: locked\nprimary sim path: /org/freedesktop/ModemManager1/SIM/0\n".toList

/-- One modem is listed, its overview shows the lock and the SIM, and no PIN is accepted. -/
def rejecting (modemIndex : Nat) : MmcliCommand → RunResult
  | .listModems => .completed 0 (listing [modemIndex]) []
  | .showModem _ => .completed 0 lockedOverview []
  | .pinSim _ _ => .completed 1 [] "error: couldn't send PIN code to the SIM".toList
  | .pinModem _ _ => .completed 1 [] "error: couldn't send PIN code to the SIM".toList
  | _ => .completed 0 [] []

/-! What is read from the overview, and from the refusal. -/

theorem overview_listed : modemMissing ⟨0, lockedOverview, []⟩ = false := by decide +kernel

theorem overview_state : parseModemState ⟨0, lockedOverview, []⟩ = "locked".toList := by
  decide +kernel

theorem overview_lock :
    modemOverviewReportsSimPinLock (haystack ⟨0, lockedOverview, []⟩) = true := by
  decide +kernel

theorem overview_sim :
    extractSimPathFromModemOverview (haystack ⟨0, lockedOverview, []⟩) ≠ [] := by
  decide +kernel

theorem read_refusal :
    pinUnlockNotNeeded (unlockText ⟨1, [], "error: couldn't send PIN code to the SIM".toList⟩) =
      false := by
  decide +kernel

section Rejecting
variable (listed : Nat) (modemIndex : Nat)

theorem overview_rejecting : (runCaught (.showModem modemIndex)).result (rejecting listed) =
    some ⟨0, lockedOverview, []⟩ := rfl

theorem state_rejecting :
    (getModemState modemIndex).result (rejecting listed) = "locked".toList := by
  rw [getModemState, Dialogue.result_bind, overview_rejecting]
  dsimp only
  rw [overview_listed, if_neg Bool.false_ne_true, Dialogue.result_pure, overview_state]

theorem locked_not_ready : readyStates.contains "locked".toList = false := by decide

theorem lock_rejecting : (simPinLockActive modemIndex).result (rejecting listed) = true := by
  rw [simPinLockActive, Dialogue.result_bind, state_rejecting, locked_not_ready,
    if_neg Bool.false_ne_true, Dialogue.result_bind, overview_rejecting]
  dsimp only
  rw [overview_listed, if_neg Bool.false_ne_true, Dialogue.result_bind, Dialogue.result_pure,
    overview_lock, Bool.true_or, Bool.true_or]

theorem simPath_rejecting : (readSimPath modemIndex).result (rejecting listed) =
    extractSimPathFromModemOverview (haystack ⟨0, lockedOverview, []⟩) := by
  rw [readSimPath, Dialogue.result_bind, overview_rejecting, Dialogue.result_pure]

/-- The refusals of a session in this world. -/
def refusalsOf {α : Type} (m : Session α) : Nat := refusals (m.transcript (rejecting listed))

theorem refusalsOf_bind {α β : Type} (m : Session α) (f : α → Session β) :
    refusalsOf listed (m >>= f) =
      refusalsOf listed m + refusalsOf listed (f (m.result (rejecting listed))) := by
  rw [refusalsOf, Dialogue.transcript_bind, refusals, List.countP_append]
  rfl

theorem refusalsOf_plain {α : Type} {m : Session α} (h : m.AsksOnly MmcliCommand.Plain) :
    refusalsOf listed m = 0 :=
  refusals_of_plain h (Dialogue.runs_transcript _ _)

theorem submitPin_rejecting (commands : List MmcliCommand)
    (hpin : ∀ c ∈ commands, c.isPin = true) :
    (submitPin modemIndex commands).result (rejecting listed) = false ∧
      refusalsOf listed (submitPin modemIndex commands) = commands.length := by
  induction commands with
  | nil => exact ⟨rfl, rfl⟩
  | cons command commands ih =>
    obtain ⟨hresult, hcount⟩ := ih (fun c hc => hpin c (List.mem_cons_of_mem _ hc))
    have hcommand := hpin command List.mem_cons_self
    have hanswer : rejecting listed command =
        .completed 1 [] "error: couldn't send PIN code to the SIM".toList := by
      cases command <;> first | rfl | cases hcommand
    have hrun : (runCaught command).result (rejecting listed) =
        some ⟨1, [], "error: couldn't send PIN code to the SIM".toList⟩ := by
      show caught (rejecting listed command) = _
      rw [hanswer]
      rfl
    have hone : refusalsOf listed (runCaught command) = 1 := by
      show refusals [(command, rejecting listed command)] = 1
      rw [hanswer, refusals, List.countP_singleton, refused, hcommand]
      rfl
    have hthen : afterPin modemIndex (submitPin modemIndex commands)
        ((runCaught command).result (rejecting listed)) = submitPin modemIndex commands := by
      rw [hrun, afterPin, read_refusal, if_neg Bool.false_ne_true,
        if_neg (by exact Bool.false_ne_true)]
    refine ⟨?_, ?_⟩
    · rw [submitPin, Dialogue.result_bind, hthen, hresult]
    · rw [submitPin, refusalsOf_bind, hone, hthen, hcount, List.length_cons, Nat.add_comm]

/-- Both commands of every attempt are refused. -/
theorem unlockLoop_rejecting (code : Str) (n : Nat) :
    (unlockLoop modemIndex code n).result (rejecting listed) = false ∧
      refusalsOf listed (unlockLoop modemIndex code n) = 2 * n := by
  induction n with
  | zero => exact ⟨rfl, rfl⟩
  | succ n ih =>
    obtain ⟨hresult, hcount⟩ := ih
    have hcommands : ∀ simPath, simPath ≠ [] →
        pinCommands modemIndex simPath code =
          [.pinSim simPath code, .pinModem modemIndex code] := by
      intro simPath hsim
      rw [pinCommands, if_pos hsim]
      rfl
    obtain ⟨hsubmit, htwo⟩ := submitPin_rejecting listed modemIndex
      [.pinSim (extractSimPathFromModemOverview (haystack ⟨0, lockedOverview, []⟩)) code,
        .pinModem modemIndex code] (by simp [MmcliCommand.isPin])
    refine ⟨?_, ?_⟩
    · rw [unlockLoop, Dialogue.result_bind, lock_rejecting, Dialogue.result_bind, Bool.not_true,
        Bool.false_and, if_neg Bool.false_ne_true, Dialogue.result_bind, simPath_rejecting,
        hcommands _ overview_sim, Dialogue.result_bind, hsubmit, if_neg Bool.false_ne_true, hresult]
    · rw [unlockLoop, refusalsOf_bind, refusalsOf_plain listed plain_simPinLockActive,
        lock_rejecting, refusalsOf_bind, refusalsOf_plain listed plain_getModemState, Bool.not_true,
        Bool.false_and, if_neg Bool.false_ne_true, refusalsOf_bind,
        refusalsOf_plain listed plain_readSimPath, simPath_rejecting, hcommands _ overview_sim,
        refusalsOf_bind, htwo, hsubmit, if_neg Bool.false_ne_true, hcount]
      simp only [List.length_cons, List.length_nil]
      omega

variable (cfg : ReadySettings)

theorem recoverModemState_rejecting (hpin : getModemPinCode cfg.environ modemIndex ≠ []) :
    refusalsOf listed (recoverModemState cfg modemIndex) = 2 * cfg.maxAttempts := by
  rw [recoverModemState, refusalsOf_bind, refusalsOf_plain listed plain_getModemState,
    state_rejecting, if_neg (by decide), if_pos rfl, refusalsOf_bind, tryUnlockSimPin,
    if_neg hpin, (unlockLoop_rejecting listed modemIndex _ _).2, Nat.zero_add]
  rfl

theorem modemTurn_rejecting (requireMessaging : Bool)
    (hpin : getModemPinCode cfg.environ modemIndex ≠ []) :
    (modemTurn cfg requireMessaging modemIndex).result (rejecting listed) = false ∧
      refusalsOf listed (modemTurn cfg requireMessaging modemIndex) = 2 * cfg.maxAttempts := by
  refine ⟨?_, ?_⟩
  · rw [modemTurn, Dialogue.result_bind, state_rejecting, locked_not_ready,
      if_neg Bool.false_ne_true, Dialogue.result_bind, Dialogue.result_pure,
      if_neg Bool.false_ne_true, Dialogue.result_bind, Dialogue.result_pure]
  · have hpure : refusalsOf listed (pure false : Session Bool) = 0 := rfl
    rw [modemTurn, refusalsOf_bind, refusalsOf_plain listed plain_getModemState, state_rejecting,
      locked_not_ready, if_neg Bool.false_ne_true, refusalsOf_bind, Dialogue.result_pure, hpure,
      if_neg Bool.false_ne_true, refusalsOf_bind, recoverModemState_rejecting listed _ cfg hpin,
      hpure]
    omega

/-- The one modem that is listed is the one to use. -/
theorem resolve_rejecting (configured : Nat) :
    (resolveWorkingModemIndex cfg.client configured).result (rejecting listed) =
      .ok (some listed) := by
  have hlist : (askListing (listModemIndices cfg.client)).result (rejecting listed) =
      .ok [listed] := by
    have hsorted : listedIndices (listing [listed]) [] = [listed] := by
      rw [listedIndices_listing]
      simp [sortedSet]
    rw [← hsorted]
    rfl
  have hprimary : (askListing (primaryModemIndex cfg.client)).result (rejecting listed) =
      .ok listed := by
    have hsearch : Text.search matchModemPath (haystack ⟨0, listing [listed], []⟩) =
        some listed := by
      rw [Text.search_eq_head?, haystack, List.append_nil, findAll_listing]
      rfl
    have hrun : run cfg.client () [.completed 0 (listing [listed]) []] =
        some (.ok ⟨0, listing [listed], []⟩, (), []) := rfl
    have hensure : ensureOk ⟨0, listing [listed], []⟩ "mmcli -L".toList () [] =
        some (.ok (), (), []) := rfl
    have hfirst : primaryModemIndex cfg.client () [.completed 0 (listing [listed]) []] =
        some (.ok listed, (), []) := by
      rw [primaryModemIndex]
      refine (Script.bind_of_ok hrun).trans ((Script.bind_of_ok hensure).trans ?_)
      rw [hsearch]
      rfl
    rw [result_askListing, rejecting, hfirst]
    rfl
  have hchosen : chosenIndex configured [listed] (stateIn (rejecting listed)) =
      if configured ∈ [listed] then some configured else none := by
    have hready : ∀ idx, isReady (stateIn (rejecting listed)) idx = false := by
      intro idx
      rw [isReady, stateIn, state_rejecting, locked_not_ready]
    simp [chosenIndex, hready]
  rw [resolveWorkingModemIndex, Dialogue.result_bind, result_resolveModemMmcliIndex, hlist]
  dsimp only
  rw [if_neg (List.cons_ne_nil _ _), hchosen]
  by_cases hmem : configured ∈ [listed]
  · obtain rfl := List.mem_singleton.mp hmem
    rw [if_pos hmem]
    rfl
  · rw [if_neg hmem]
    dsimp only
    rw [hprimary]
    rfl

/-- Every poll unlocks again. -/
theorem refusals_rejecting (configured : Nat) (requireMessaging : Bool) (turns : List Bool)
    (hpin : getModemPinCode cfg.environ listed ≠ []) :
    refusalsOf listed (waitModemReadyForSms cfg configured requireMessaging turns) =
      turns.length * (2 * cfg.maxAttempts) := by
  have hresolve : refusalsOf listed (resolveWorkingModemIndex cfg.client configured) = 0 :=
    refusals_resolve cfg (Dialogue.runs_transcript _ _)
  induction turns with
  | nil =>
    rw [List.length_nil, Nat.zero_mul]
    exact refusals_wait_nil cfg (Dialogue.runs_transcript _ _)
  | cons rescanDue turns ih =>
    obtain ⟨hresult, hcount⟩ := modemTurn_rejecting listed listed cfg requireMessaging hpin
    rw [waitModemReadyForSms, refusalsOf_bind, hresolve, resolve_rejecting]
    dsimp only
    rw [refusalsOf_bind, hcount, hresult, if_neg Bool.false_ne_true, ih, List.length_cons]
    ring

end Rejecting

/-! ## The retries as a bound -/

section Bound
variable (cfg : ReadySettings) (configured : Nat) (requireMessaging : Bool) (turns : List Bool)

theorem one_le_maxAttempts : 1 ≤ cfg.maxAttempts := by
  unfold ReadySettings.maxAttempts
  omega

/-- Whatever the modems and the SIMs answer, the PIN is refused no more often than it is retried. -/
def RefusalsBounded : Prop :=
  ∀ tr res, (waitModemReadyForSms cfg configured requireMessaging turns).Runs tr res →
    refusals tr ≤ cfg.maxAttempts

/-- A run keeps to the retries that has one refusal for each attempt, all in one poll. Any run keeps
    to those of all commands, attempts and polls, and all of them to the retries only where there
    is no poll, or no PIN. -/
structure RefusalLaw : Prop where
  run : ∀ tr res, (waitModemReadyForSms cfg configured requireMessaging turns).Runs tr res →
    RefusedOnceInARow tr → RefusedInOnePoll tr → refusals tr ≤ cfg.maxAttempts
  all : ∀ tr res, (waitModemReadyForSms cfg configured requireMessaging turns).Runs tr res →
    refusals tr ≤ turns.length * (2 * cfg.maxAttempts)
  always : RefusalsBounded cfg configured requireMessaging turns ↔
    turns = [] ∨ ∀ i, getModemPinCode cfg.environ i = []

end Bound

theorem pin_refusals (cfg : ReadySettings) (configured : Nat) (requireMessaging : Bool)
    (turns : List Bool) : RefusalLaw cfg configured requireMessaging turns where
  run := fun _ _ h honce hpoll => refusals_wait cfg h honce hpoll
  all := fun _ _ h => refusals_le_all cfg h
  always := by
    constructor
    · intro hbounded
      by_contra hnot
      rw [not_or, not_forall] at hnot
      obtain ⟨hturns, listed, hpin⟩ := hnot
      have hone := one_le_maxAttempts cfg
      -- the SIM of that modem refuses every PIN, in each poll
      have hle : 2 * cfg.maxAttempts ≤ cfg.maxAttempts := by
        calc 2 * cfg.maxAttempts
            ≤ turns.length * (2 * cfg.maxAttempts) :=
              Nat.le_mul_of_pos_left _ (List.length_pos_iff.mpr hturns)
          _ = refusalsOf listed (waitModemReadyForSms cfg configured requireMessaging turns) :=
              (refusals_rejecting listed cfg configured requireMessaging turns hpin).symm
          _ ≤ cfg.maxAttempts := hbounded _ _ (Dialogue.runs_transcript (rejecting listed) _)
      omega
    · rintro (rfl | hpin)
      · intro tr res h
        rw [refusals_wait_nil cfg h]
        exact Nat.zero_le _
      · intro tr res h
        rw [refusals_wait_of_no_pin cfg hpin h]
        exact Nat.zero_le _

/-- The PIN of modem 0, and three retries. -/
def wrongPin : ReadySettings where
  client := MmcliSettings.unset
  environ := [("MODEM_0_DEVICE_PIN_CODE".toList, "1234".toList)]
  simUnlockRetries := 3

/-- In one poll it is refused six times. -/
theorem wrong_pin_refused :
    ¬ ∀ (cfg : ReadySettings) (configured : Nat) (requireMessaging : Bool) (turns : List Bool),
      RefusalsBounded cfg configured requireMessaging turns := by
  intro h
  have hrun := h wrongPin 0 true [false] _ _ (Dialogue.runs_transcript (rejecting 0) _)
  have hcount := refusals_rejecting 0 wrongPin 0 true [false] (by decide +kernel)
  have hsix : [false].length * (2 * wrongPin.maxAttempts) = 6 := by decide
  have hthree : wrongPin.maxAttempts = 3 := by decide
  rw [hsix] at hcount
  rw [hthree] at hrun
  have hle : 6 ≤ 3 := hcount ▸ hrun
  omega

end HiWaveTel.ModemReady
