import HiWaveTel.MmcliRuns
import HiWaveTel.Foundation.Selection

/- Which modem an index stands for (`mmcli_client.resolve_modem_mmcli_index`), and the wait
   for a usable modem before a message is created (`modem_ready.py`). The state of a modem
   is what `get_modem_state` makes of a run of `mmcli` that raises nothing.

   `chosenIndex_eq_orFirst` — among the listed modems the resolver is a selection with a
   fallback, so the watchers of several modems stay apart exactly when all are ready or none
   is (`watchers_apart_iff`). -/
namespace HiWaveTel
open Foundation

/-! ## resolve_modem_mmcli_index -/

/-- `_READY_STATES`. -/
def readyStates : List Str := ["enabled".toList, "registered".toList]

/-- `_ready`. -/
def isReady (state : Nat → Str) (modemIndex : Nat) : Bool := readyStates.contains (state modemIndex)

/-- The index to use, or `none` for the primary one. -/
def chosenIndex (want : Nat) (present : List Nat) (state : Nat → Str) : Option Nat :=
  if want ∈ present ∧ isReady state want = true then some want
  else
    match (present.insertionSort (· ≤ ·)).find? (fun idx => idx != want && isReady state idx) with
    | some idx => some idx
    | none => if want ∈ present then some want else none

section Resolver
variable {σ : Type}

def noModems (want : Nat) : MmcliError :=
  { message := "Modem index ".toList ++ Text.ofNat want ++
      " not found and mmcli -L lists no modems".toList
    stderr := "no modems".toList, exitCode := some (-2) }

def resolveModemMmcliIndex (cfg : MmcliSettings) (state : Nat → Str) (want : Nat) :
    Mmcli σ Nat := do
  let present ← listModemIndices cfg
  if present = [] then Script.raise (.mmcli (noModems want))
  else
    match chosenIndex want present state with
    | some idx => pure idx
    | none => primaryModemIndex cfg

/-! ## modem_ready.py -/

/-- `_resolve_working_modem_index`. -/
def resolveWorkingModemIndex (cfg : MmcliSettings) (state : Nat → Str) (configured : Nat) :
    Mmcli σ (Option Nat) :=
  Script.handle (do return some (← resolveModemMmcliIndex cfg state configured))
    (fun
      | .mmcli _ => some (pure none)
      | .other => none)

/-- What one turn of the wait loop sees of the modems. The recovery and the rescan in it raise
    nothing. -/
structure WaitTurn where
  states : Nat → Str        -- while the index is resolved
  state : Str               -- of the resolved modem, read again
  messaging : Bool          -- `messaging_interface_ready`

/-- `wait_modem_ready_for_sms`, with one entry for each turn before the deadline, and the states at
    the end. -/
def waitModemReadyForSms (cfg : MmcliSettings) (configured : Nat) (requireMessaging : Bool)
    (last : Nat → Str) : List WaitTurn → Mmcli σ Bool
  | [] => do
    let _ ← resolveWorkingModemIndex cfg last configured
    pure false
  | turn :: turns => do
    match ← resolveWorkingModemIndex cfg turn.states configured with
    | none => waitModemReadyForSms cfg configured requireMessaging last turns
    | some _ =>
      if readyStates.contains turn.state && (!requireMessaging || turn.messaging) then pure true
      else waitModemReadyForSms cfg configured requireMessaging last turns

/-- `prepare_modem_for_outbound_sms`. -/
def prepareModemForOutboundSms (cfg : MmcliSettings) (modemIndex : Nat) (last : Nat → Str)
    (turns : List WaitTurn) : Mmcli σ Unit := do
  let _ ← waitModemReadyForSms cfg modemIndex true last turns
  pure ()

/-! ## What gets through to the caller -/

variable {cfg : MmcliSettings}

theorem contained_resolveModemMmcliIndex {state : Nat → Str} {want : Nat} :
    MmcliContained 2 (resolveModemMmcliIndex cfg state want : Mmcli σ Nat) := by
  refine contained_bind (k := 1) contained_listModemIndices (fun present => ?_)
  split
  · exact contained_raise 1 (startsVisible_append (startsVisible_append (by decide)))
  · split
    · exact contained_pure 1 _
    · exact contained_primaryModemIndex

theorem ignores_resolveModemMmcliIndex {state : Nat → Str} {want : Nat} :
    Script.Ignores (resolveModemMmcliIndex cfg state want : Mmcli σ Nat)
      (resolveModemMmcliIndex cfg state want) := by
  refine Script.ignores_bind ignores_listModemIndices (fun present => ?_)
  by_cases hnone : present = []
  · rw [if_pos hnone, if_pos hnone]
    exact Script.ignores_raise _
  · rw [if_neg hnone, if_neg hnone]
    cases chosenIndex want present state with
    | some idx => exact Script.ignores_pure idx
    | none => exact ignores_primaryModemIndex

theorem contained_resolveWorkingModemIndex {state : Nat → Str} {configured : Nat} :
    MmcliContained 2 (resolveWorkingModemIndex cfg state configured : Mmcli σ (Option Nat)) := by
  refine Script.escapes_handle (n := 2) (k := 0) ?_ ?_
  · exact contained_bind (k := 0) contained_resolveModemMmcliIndex (fun idx => contained_pure 0 _)
  · intro e k hclause
    cases e with
    | mmcli exc =>
      cases hclause
      exact ⟨Raised.noConfusion, contained_pure 0 none⟩
    | other => cases hclause

/-- The runs a wait makes: two for each turn, and two at the end. -/
def waitRuns : List WaitTurn → Nat
  | [] => 2
  | _ :: turns => 2 + waitRuns turns

theorem contained_waitModemReadyForSms {configured : Nat} {requireMessaging : Bool}
    {last : Nat → Str} {turns : List WaitTurn} :
    MmcliContained (waitRuns turns)
      (waitModemReadyForSms cfg configured requireMessaging last turns : Mmcli σ Bool) := by
  induction turns with
  | nil =>
    exact contained_bind (k := 0) contained_resolveWorkingModemIndex
      (fun _ => contained_pure 0 false)
  | cons turn turns ih =>
    refine contained_bind contained_resolveWorkingModemIndex (fun active => ?_)
    split
    · exact ih
    · split
      · exact contained_pure _ true
      · exact ih

theorem contained_prepareModemForOutboundSms {modemIndex : Nat} {last : Nat → Str}
    {turns : List WaitTurn} :
    MmcliContained (waitRuns turns)
      (prepareModemForOutboundSms cfg modemIndex last turns : Mmcli σ Unit) :=
  contained_bind (k := 0) contained_waitModemReadyForSms (fun _ => contained_pure 0 ())

end Resolver

/-! ## The watchers of several modems -/

/-- Where a listed modem is asked for, the choice is a selection with a fallback. -/
theorem chosenIndex_eq_orFirst {want : Nat} {present : List Nat} {state : Nat → Str}
    (hsorted : present.Pairwise (· ≤ ·)) (hmem : want ∈ present) :
    chosenIndex want present state = some (orFirst (isReady state) present want) := by
  unfold chosenIndex
  cases hready : isReady state want with
  | true => rw [if_pos ⟨hmem, rfl⟩, orFirst_of_good hready]
  | false =>
    -- the loop skips `want`, which is not ready
    have hskip : (fun idx => idx != want && isReady state idx) = isReady state := by
      funext idx
      by_cases heq : idx = want
      · rw [heq, hready, Bool.and_false]
      · simp [heq]
    rw [if_neg (by simp), hskip, hsorted.insertionSort_eq]
    cases hfind : present.find? (isReady state) with
    | some idx => rw [orFirst_of_not_good hready hfind]
    | none =>
      have hnone : ∀ c ∈ present, isReady state c = false := by
        intro c hc
        simpa using List.find?_eq_none.mp hfind c hc
      rw [orFirst_of_none hnone]
      exact if_pos hmem

/-- The modem on which the watcher of `configured` listens, while `mmcli -L` prints the same and
    the modems keep their states. -/
def watchedIndex (cfg : MmcliSettings) (stdout stderr : Str) (state : Nat → Str)
    (configured : Nat) : Option Nat :=
  match resolveModemMmcliIndex cfg state configured ()
      [.completed 0 stdout stderr, .completed 0 stdout stderr] with
  | some (.ok idx, _, _) => some idx
  | _ => none

section Watchers
variable (cfg : MmcliSettings) (stdout stderr : Str) (state : Nat → Str)

theorem watchedIndex_eq_orFirst {configured : Nat} (hmem : configured ∈ listedIndices stdout stderr) :
    watchedIndex cfg stdout stderr state configured =
      some (orFirst (isReady state) (listedIndices stdout stderr) configured) := by
  have hne : listedIndices stdout stderr ≠ [] := List.ne_nil_of_mem hmem
  have hrun : ∀ rest, resolveModemMmcliIndex cfg state configured ()
      (.completed 0 stdout stderr :: rest) =
      some (.ok (orFirst (isReady state) (listedIndices stdout stderr) configured), (), rest) := by
    intro rest
    have hlist : resolveModemMmcliIndex cfg state configured ()
        (.completed 0 stdout stderr :: rest) =
        (if listedIndices stdout stderr = [] then Script.raise (.mmcli (noModems configured))
         else
          match chosenIndex configured (listedIndices stdout stderr) state with
          | some idx => pure idx
          | none => primaryModemIndex cfg : Mmcli Unit Nat) () rest := rfl
    rw [hlist, if_neg hne,
      chosenIndex_eq_orFirst (sorted_listedIndices stdout stderr) hmem]
    rfl
  rw [watchedIndex, hrun]

/-- Each watcher listens on a listed modem: on its own if that is ready, or if none is, and
    otherwise on the ready one with the least index. So two watchers never share a modem, and
    every listed modem has one, exactly when all listed modems are ready or none is. -/
theorem watchers_apart_iff :
    (∀ i ∈ listedIndices stdout stderr, ∃ j ∈ listedIndices stdout stderr,
      watchedIndex cfg stdout stderr state i = some j ∧
      (isReady state i = true ∨ (∀ k ∈ listedIndices stdout stderr, isReady state k = false) →
        j = i) ∧
      (isReady state i = false → ∀ k ∈ listedIndices stdout stderr, isReady state k = true →
        isReady state j = true ∧ j ≤ k)) ∧
    ((∀ i ∈ listedIndices stdout stderr, ∀ j ∈ listedIndices stdout stderr,
      watchedIndex cfg stdout stderr state i = watchedIndex cfg stdout stderr state j → i = j) ↔
      AllOrNone (isReady state) (listedIndices stdout stderr)) ∧
    ((∀ j ∈ listedIndices stdout stderr, ∃ i ∈ listedIndices stdout stderr,
      watchedIndex cfg stdout stderr state i = some j) ↔
      AllOrNone (isReady state) (listedIndices stdout stderr)) := by
  refine ⟨?_, ?_, ?_⟩
  · intro i hi
    refine ⟨_, orFirst_mem hi, watchedIndex_eq_orFirst cfg stdout stderr state hi, ?_, ?_⟩
    · rintro (hready | hnone)
      · exact orFirst_of_good hready
      · exact orFirst_of_none hnone
    · intro hbad k hk hready
      exact ⟨good_orFirst ⟨k, hk, hready⟩,
        orFirst_le (sorted_listedIndices stdout stderr) hbad hk hready⟩
  · rw [← injOn_orFirst_iff]
    refine forall₄_congr (fun i hi j hj => ?_)
    rw [watchedIndex_eq_orFirst cfg stdout stderr state hi,
      watchedIndex_eq_orFirst cfg stdout stderr state hj, Option.some.injEq]
  · rw [← surjOn_orFirst_iff]
    refine forall₂_congr (fun j _ => exists_congr (fun i => and_congr_right (fun hi => ?_)))
    rw [watchedIndex_eq_orFirst cfg stdout stderr state hi, Option.some.injEq]

end Watchers

/-- Modem 0 registered, modem 1 disabled: both watchers listen on modem 0, and none on modem 1. -/
theorem watchers_meet :
    ∃ (cfg : MmcliSettings) (stdout stderr : Str) (state : Nat → Str),
      listedIndices stdout stderr = [0, 1] ∧
      watchedIndex cfg stdout stderr state 0 = some 0 ∧
      watchedIndex cfg stdout stderr state 1 = some 0 := by
  refine ⟨⟨[], 1, by decide⟩, listing [0, 1], [],
    fun idx => if idx = 0 then "registered".toList else "disabled".toList, ?_, ?_, ?_⟩
  · exact listedIndices_listing [0, 1]
  · decide
  · decide

end HiWaveTel
