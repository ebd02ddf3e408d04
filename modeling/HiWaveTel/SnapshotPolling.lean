import HiWaveTel.InboundFilters
import Mathlib.Algebra.Order.Floor.Ring
import Mathlib.Data.Rat.Floor
import Mathlib.Tactic.Linarith

/- The snapshot polling loop (`services._fetch_mmcli_snapshot_with_retries`). A
   multipart message is announced before its body can be read, so an empty
   snapshot is read again: up to `max_snapshot_tries` times while the sender or
   the state gives hope, and for `receiving_max_wait_sec` while the state is
   `receiving`. A transient `mmcli` error counts as an empty snapshot.

   The answers of `show_sms` and the clock are inputs. The loop is run with fuel;
   `fetchLoop_isSome` shows that `pollBound` is enough for every behaviour of
   `show_sms`, so `fetchMmcliSnapshotWithRetries` is the loop itself. -/
namespace HiWaveTel
open Foundation

/-- What one `show_sms` call does. -/
inductive ShowSms where
  | snapshot (raw : Details)
  | mmcliError (exc : MmcliError)
  | raised (text : Str)           -- any exception that is no MmcliError
  deriving DecidableEq, Repr

/-- How the polling ends. -/
inductive Fetched where
  | snapshot (raw : Details)
  | pathUnavailable (cause : MmcliError)
  | raised (text : Str)
  deriving DecidableEq, Repr

/-- The loop's settings once parsed; the fields are what the parsing ensures. -/
structure PollSettings where
  maxSnapshotTries : Nat
  emptyBackoff : Rat
  receivingMaxWait : Rat
  one_le_tries : 1 ≤ maxSnapshotTries
  backoff_pos : 0 < emptyBackoff
  wait_pos : 0 < receivingMaxWait

/-- The value of a parsed positive setting, or its default. -/
def positiveOr (default : Rat) (parsed : Option Rat) : Rat :=
  if 0 < parsed.getD default then parsed.getD default else default

theorem positiveOr_pos {default : Rat} (h : 0 < default) (parsed : Option Rat) :
    0 < positiveOr default parsed := by
  unfold positiveOr
  split
  · assumption
  · exact h

/-- The parsing of `MMCLI_EMPTY_TEXT_RETRIES`, `MMCLI_EMPTY_TEXT_BACKOFF_SEC` and
    `MMCLI_RECEIVING_MAX_WAIT_SEC`; `none` is a blank or unparsable value. -/
def PollSettings.ofParsed (tries : Option Int) (backoff wait : Option Rat) : PollSettings where
  maxSnapshotTries := max 1 (tries.getD 8).toNat
  emptyBackoff := positiveOr (3 / 2) backoff
  receivingMaxWait := positiveOr 60 wait
  one_le_tries := le_max_left _ _
  backoff_pos := positiveOr_pos (by norm_num) backoff
  wait_pos := positiveOr_pos (by norm_num) wait

/-- Seconds since the polling began, read at each poll: every sleep between two
    polls lasts at least the backoff. -/
structure PollClock (cfg : PollSettings) where
  elapsed : Nat → Rat
  start_nonneg : 0 ≤ elapsed 0
  sleep_le : ∀ k, elapsed k + cfg.emptyBackoff ≤ elapsed (k + 1)

/-- `_RETRY_MMCLI_SHOW_WHILE_STATES`. -/
def retryShowStates : List Str := ["receiving", "unknown"].map String.toList

/-- `_TERMINAL_MM_STATES`. -/
def terminalMmStates : List Str := ["received", "stored", "sent", "delivered"].map String.toList

/-- The text may still appear in a later snapshot. -/
def shouldRetryEmptyMmcliSnapshot (raw : Details) (stateNorm : Str) : Bool :=
  let sender := Text.strip (extractFromNumber raw)
  let timestamp := Text.strip (extractTimestamp raw)
  if (sender != [] || timestamp != []) &&
      !(["failed", "unknown"].map String.toList).contains stateNorm then true
  else retryShowStates.contains stateNorm

/-- What the body of the loop does after a snapshot: leave it, sleep and go on by
    its `continue`, or fall through to the sleep at its end. -/
inductive PollMove where
  | stop
  | sleep
  | tailSleep
  deriving DecidableEq, Repr

def pollMove (cfg : PollSettings) (raw : Details) (elapsed : Rat) (snapAttempt : Nat) : PollMove :=
  let body := Text.strip (extractText raw)
  let mmStateNorm := normalizeMmState (extractState raw)
  if body ≠ [] then .stop
  else
    let keepTrying := shouldRetryEmptyMmcliSnapshot raw mmStateNorm
    let stillAssembling := mmStateNorm = "receiving".toList ∧ elapsed < cfg.receivingMaxWait
    if stillAssembling ∨ (keepTrying = true ∧ snapAttempt + 1 < cfg.maxSnapshotTries) then .sleep
    else if mmStateNorm ∈ terminalMmStates then .stop
    else if keepTrying = false then .stop
    else if cfg.maxSnapshotTries ≤ snapAttempt + 1 ∧ cfg.receivingMaxWait ≤ elapsed then .stop
    else if cfg.maxSnapshotTries ≤ snapAttempt + 1 then .stop
    else .tailSleep

/-- The loop from attempt `k` on: how many `show_sms` calls it made in all, and how it
    ended; `none` when the fuel runs out. -/
def fetchLoop (cfg : PollSettings) (clock : PollClock cfg) (shows : Nat → ShowSms) :
    Nat → Nat → Option (Nat × Fetched)
  | 0, _ => none
  | fuel + 1, k =>
    match shows k with
    | .raised text => some (k + 1, .raised text)
    -- a transient error leaves `raw` empty and is not raised
    | .mmcliError exc =>
      if mmcliSmsPathMissing exc then some (k + 1, .pathUnavailable exc)
      else match pollMove cfg [] (clock.elapsed k) k with
        | .stop => some (k + 1, .snapshot [])
        | _ => fetchLoop cfg clock shows fuel (k + 1)
    | .snapshot raw =>
      match pollMove cfg raw (clock.elapsed k) k with
      | .stop => some (k + 1, .snapshot raw)
      | _ => fetchLoop cfg clock shows fuel (k + 1)

/-- No polling makes more calls than this. -/
def pollBound (cfg : PollSettings) : Nat :=
  max cfg.maxSnapshotTries (⌈cfg.receivingMaxWait / cfg.emptyBackoff⌉₊ + 1)

def fetchMmcliSnapshotWithRetries (cfg : PollSettings) (clock : PollClock cfg)
    (shows : Nat → ShowSms) : Nat × Fetched :=
  (fetchLoop cfg clock shows (pollBound cfg) 0).getD (0, .raised [])

/-! ## One poll -/

/-- A failure of `mmcli` that does not say that the object is gone. -/
def ShowSms.transient : ShowSms → Bool
  | .mmcliError exc => !mmcliSmsPathMissing exc
  | _ => false

/-- How a polling ends whose last call is this one. -/
def ShowSms.ended : ShowSms → Fetched
  | .snapshot raw => .snapshot raw
  | .mmcliError exc => if mmcliSmsPathMissing exc then .pathUnavailable exc else .snapshot []
  | .raised text => .raised text

/-- The empty snapshot of a transient failure is not polled again. -/
theorem pollMove_nil (cfg : PollSettings) (elapsed : Rat) (k : Nat) :
    pollMove cfg [] elapsed k = .stop := by
  have hbody : Text.strip (extractText []) = [] := by decide
  have hstate : normalizeMmState (extractState []) = [] := by decide
  have hretry : shouldRetryEmptyMmcliSnapshot [] [] = false := by decide
  have hterm : ([] : Str) ∉ terminalMmStates := by decide
  have hrecv : ([] : Str) ≠ "receiving".toList := by decide
  unfold pollMove
  simp only [hbody, hstate, hretry, hterm, hrecv, ne_eq, not_true_eq_false, false_and, if_false,
    Bool.false_eq_true, or_false, if_true]

/-- A poll ends the polling with what `show_sms` did, or it read a snapshot and the next one
    follows. -/
theorem fetchLoop_cases (cfg : PollSettings) (clock : PollClock cfg) (shows : Nat → ShowSms)
    (k : Nat) :
    (∀ fuel, fetchLoop cfg clock shows (fuel + 1) k = some (k + 1, (shows k).ended)) ∨
    ∃ raw, shows k = .snapshot raw ∧ pollMove cfg raw (clock.elapsed k) k ≠ .stop ∧
      ∀ fuel, fetchLoop cfg clock shows (fuel + 1) k = fetchLoop cfg clock shows fuel (k + 1) := by
  cases hk : shows k with
  | raised text =>
    refine Or.inl (fun fuel => ?_)
    simp only [fetchLoop, hk, ShowSms.ended]
  | mmcliError exc =>
    refine Or.inl (fun fuel => ?_)
    by_cases hm : mmcliSmsPathMissing exc = true
    · simp only [fetchLoop, hk, ShowSms.ended, hm, if_true]
    · simp only [fetchLoop, hk, ShowSms.ended, hm, Bool.false_eq_true, if_false, pollMove_nil]
  | snapshot raw =>
    by_cases hm : pollMove cfg raw (clock.elapsed k) k = .stop
    · refine Or.inl (fun fuel => ?_)
      simp only [fetchLoop, hk, hm, ShowSms.ended]
    · refine Or.inr ⟨raw, rfl, hm, fun fuel => ?_⟩
      simp only [fetchLoop, hk]

/-! ## Every polling ends -/

section Termination
variable {cfg : PollSettings} (clock : PollClock cfg)

theorem elapsed_ge (k : Nat) : k * cfg.emptyBackoff ≤ clock.elapsed k := by
  induction k with
  | zero => simpa using clock.start_nonneg
  | succ k ih =>
    have hs := clock.sleep_le k
    push_cast
    linarith

/-- The sleep at the end of the loop body is never reached. -/
theorem pollMove_ne_tailSleep (raw : Details) (elapsed : Rat) (k : Nat) :
    pollMove cfg raw elapsed k ≠ .tailSleep := by
  unfold pollMove
  simp only
  split_ifs with hbody hgo hterm hkeep hboth htries
  all_goals try exact PollMove.noConfusion
  -- what is left would go on by the `continue` already
  exact absurd (Or.inr ⟨by simpa using hkeep, by omega⟩) hgo

/-- A poll goes on only within the attempt budget or the waiting time. -/
theorem budget_of_pollMove {raw : Details} {elapsed : Rat} {k : Nat}
    (h : pollMove cfg raw elapsed k ≠ .stop) :
    elapsed < cfg.receivingMaxWait ∨ k + 1 < cfg.maxSnapshotTries := by
  have ht : pollMove cfg raw elapsed k ≠ .tailSleep := pollMove_ne_tailSleep raw elapsed k
  unfold pollMove at h ht
  simp only at h ht
  split_ifs at h ht with hbody hgo
  all_goals first
    | exact absurd rfl h
    | exact absurd rfl ht
    | skip
  exact hgo.imp And.right And.right

theorem budget_bound {k : Nat}
    (h : clock.elapsed k < cfg.receivingMaxWait ∨ k + 1 < cfg.maxSnapshotTries) :
    k + 1 < pollBound cfg := by
  rcases h with hw | ht
  · have hk : (k : Rat) < cfg.receivingMaxWait / cfg.emptyBackoff := by
      rw [lt_div_iff₀ cfg.backoff_pos]
      exact lt_of_le_of_lt (elapsed_ge clock k) hw
    have hc : k < ⌈cfg.receivingMaxWait / cfg.emptyBackoff⌉₊ := Nat.lt_ceil.mpr hk
    unfold pollBound
    omega
  · unfold pollBound
    omega

theorem fetchLoop_isSome (shows : Nat → ShowSms) (fuel k : Nat) (hk : k < pollBound cfg)
    (hf : pollBound cfg ≤ k + fuel) : (fetchLoop cfg clock shows fuel k).isSome = true := by
  induction fuel generalizing k with
  | zero => omega
  | succ fuel ih =>
    rcases fetchLoop_cases cfg clock shows k with hend | ⟨raw, _, hm, hnext⟩
    · rw [hend]
      rfl
    · rw [hnext]
      have hb := budget_bound clock (budget_of_pollMove hm)
      exact ih (k + 1) hb (by omega)

theorem pollBound_pos (cfg : PollSettings) : 0 < pollBound cfg :=
  lt_of_lt_of_le cfg.one_le_tries (le_max_left _ _)

/-- The fuel never runs out: the result is the loop's own. -/
theorem fetchLoop_eq (shows : Nat → ShowSms) :
    fetchLoop cfg clock shows (pollBound cfg) 0 =
      some (fetchMmcliSnapshotWithRetries cfg clock shows) := by
  have h := fetchLoop_isSome clock shows (pollBound cfg) 0 (pollBound_pos cfg) (by omega)
  obtain ⟨res, hres⟩ := Option.isSome_iff_exists.mp h
  rw [fetchMmcliSnapshotWithRetries, hres]
  rfl

end Termination

/-! ## What a polling read -/

/-- Every call of a polling but the last returned a snapshot, and the last one decides. -/
theorem fetchLoop_reads {cfg : PollSettings} {clock : PollClock cfg} {shows : Nat → ShowSms}
    {fuel k n : Nat} {res : Fetched} (h : fetchLoop cfg clock shows fuel k = some (n, res)) :
    k < n ∧ (∀ j, k ≤ j → j + 1 < n → ∃ raw, shows j = .snapshot raw) ∧
      res = (shows (n - 1)).ended := by
  induction fuel generalizing k with
  | zero => cases h
  | succ fuel ih =>
    -- the call at `k` ends the polling, or the rest of the loop does
    rcases fetchLoop_cases cfg clock shows k with hend | ⟨raw, hk, _, hnext⟩
    · rw [hend] at h
      cases h
      refine ⟨Nat.lt_succ_self k, ?_, rfl⟩
      intro j hj hlt
      omega
    · rw [hnext] at h
      obtain ⟨hlt, hsnap, hres⟩ := ih h
      refine ⟨by omega, ?_, hres⟩
      intro j hj hjn
      by_cases hjk : j = k
      · exact ⟨raw, hjk ▸ hk⟩
      · exact hsnap j (by omega) hjn

theorem fetch_reads {cfg : PollSettings} (clock : PollClock cfg) (shows : Nat → ShowSms) :
    (∀ j, j + 1 < (fetchMmcliSnapshotWithRetries cfg clock shows).1 →
      ∃ raw, shows j = .snapshot raw) ∧
    0 < (fetchMmcliSnapshotWithRetries cfg clock shows).1 ∧
    (fetchMmcliSnapshotWithRetries cfg clock shows).2 =
      (shows ((fetchMmcliSnapshotWithRetries cfg clock shows).1 - 1)).ended := by
  obtain ⟨hpos, hsnap, hres⟩ := fetchLoop_reads (fetchLoop_eq clock shows)
  exact ⟨fun j hj => hsnap j (Nat.zero_le j) hj, hpos, hres⟩

/-! ## The bound and the first text -/

/-- More fuel changes nothing, and no call goes beyond it. -/
theorem fetchLoop_mono {cfg : PollSettings} {clock : PollClock cfg} {shows : Nat → ShowSms}
    {fuel k : Nat} {r : Nat × Fetched} (h : fetchLoop cfg clock shows fuel k = some r) :
    r.1 ≤ k + fuel ∧ ∀ fuel', fuel ≤ fuel' → fetchLoop cfg clock shows fuel' k = some r := by
  induction fuel generalizing k with
  | zero => cases h
  | succ fuel ih =>
    rcases fetchLoop_cases cfg clock shows k with hend | ⟨_, _, _, hnext⟩
    · rw [hend] at h
      cases h
      refine ⟨by omega, ?_⟩
      intro fuel' hf
      obtain ⟨f, rfl⟩ : ∃ f, fuel' = f + 1 := ⟨fuel' - 1, by omega⟩
      exact hend f
    · rw [hnext] at h
      obtain ⟨hle, hmore⟩ := ih h
      refine ⟨by omega, ?_⟩
      intro fuel' hf
      obtain ⟨f, rfl⟩ : ∃ f, fuel' = f + 1 := ⟨fuel' - 1, by omega⟩
      rw [hnext]
      exact hmore f (by omega)

/-- A snapshot with text stops the polling at any time. -/
theorem pollMove_of_text (cfg : PollSettings) {raw : Details} (elapsed : Rat) (k : Nat)
    (h : Text.strip (extractText raw) ≠ []) : pollMove cfg raw elapsed k = .stop := by
  unfold pollMove
  simp only [h, ne_eq, not_false_eq_true, if_true]

/-- The call that reads a text is the last one. -/
theorem fetchLoop_text {cfg : PollSettings} {clock : PollClock cfg} {shows : Nat → ShowSms}
    {fuel k n : Nat} {res : Fetched} (h : fetchLoop cfg clock shows fuel k = some (n, res)) {j : Nat}
    (hj : k ≤ j) (hjn : j < n) {raw : Details} (hraw : shows j = .snapshot raw)
    (ht : Text.strip (extractText raw) ≠ []) : j + 1 = n := by
  induction fuel generalizing k with
  | zero => cases h
  | succ fuel ih =>
    rcases fetchLoop_cases cfg clock shows k with hend | ⟨raw', hk, hm, hnext⟩
    · rw [hend] at h
      cases h
      omega
    · have hne : k ≠ j := by
        rintro rfl
        rw [hk] at hraw
        cases hraw
        exact hm (pollMove_of_text cfg _ _ ht)
      rw [hnext] at h
      exact ih h (by omega)

/-- The polling ends within its two budgets, with what its last call returned, which is the first
    text it reads, and never by way of the sleep at the end of the loop body. -/
theorem snapshot_polling_ends (cfg : PollSettings) (clock : PollClock cfg)
    (shows : Nat → ShowSms) :
    (∀ fuel, pollBound cfg ≤ fuel → fetchLoop cfg clock shows fuel 0 =
      some (fetchMmcliSnapshotWithRetries cfg clock shows)) ∧
    (fetchMmcliSnapshotWithRetries cfg clock shows).1 ≤
      max cfg.maxSnapshotTries (⌈cfg.receivingMaxWait / cfg.emptyBackoff⌉₊ + 1) ∧
    (0 < (fetchMmcliSnapshotWithRetries cfg clock shows).1 ∧
      (fetchMmcliSnapshotWithRetries cfg clock shows).2 =
        (shows ((fetchMmcliSnapshotWithRetries cfg clock shows).1 - 1)).ended) ∧
    (∀ k raw, k < (fetchMmcliSnapshotWithRetries cfg clock shows).1 → shows k = .snapshot raw →
      Text.strip (extractText raw) ≠ [] →
      (fetchMmcliSnapshotWithRetries cfg clock shows).2 = .snapshot raw ∧
        ∀ j raw', j < k → shows j = .snapshot raw' → Text.strip (extractText raw') = []) ∧
    ∀ raw elapsed k, pollMove cfg raw elapsed k ≠ .tailSleep := by
  have hloop := fetchLoop_eq clock shows
  obtain ⟨hbound, hmore⟩ := fetchLoop_mono hloop
  refine ⟨hmore, ?_, (fetch_reads clock shows).2, ?_, pollMove_ne_tailSleep⟩
  · rwa [Nat.zero_add] at hbound
  · intro k raw hk hraw ht
    have hlast : k + 1 = (fetchMmcliSnapshotWithRetries cfg clock shows).1 :=
      fetchLoop_text hloop (Nat.zero_le k) hk hraw ht
    refine ⟨?_, ?_⟩
    · rw [(fetch_reads clock shows).2.2, ← hlast, Nat.add_sub_cancel, hraw]
      rfl
    · intro j raw' hj hraw'
      by_contra ht'
      -- an earlier text would have been the last call
      have hfirst : j + 1 = (fetchMmcliSnapshotWithRetries cfg clock shows).1 :=
        fetchLoop_text hloop (Nat.zero_le j) (Nat.lt_trans hj hk) hraw' ht'
      omega

end HiWaveTel
