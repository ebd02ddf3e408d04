import HiWaveTel.InboundIntake
import HiWaveTel.TransientRetries
import Mathlib.Data.Char
import Mathlib.Data.List.Lex

/- The snapshot of a modem's messages (`dbus_watch.sync_modem_sms_snapshot`): at start-up,
   after a disconnect and every few minutes it asks `mmcli` for the message objects
   (`MMCLIClient.list_sms_paths`) and hands their paths to the persist queue.

   `snapshot_hands_over_once` — it never raises, runs `mmcli` at most
   `MMCLI_SNAPSHOT_TRIES` times `MMCLI_RETRY_MAX` times, and every path in the first listing it
   gets, however often it is printed, is handed over once: to the queue, or to the dead letters
   while the queue is full. `smsPaths_messageListing` reads back what `mmcli` lists. -/
namespace HiWaveTel
open Foundation

/-! ## list_sms_paths -/

def smsObjectPath : Str := "/org/freedesktop/ModemManager1/SMS/".toList

/-- `_SMS_PATH_RE` at the front, the whole match; `mmcli` prints ASCII digits only. -/
def matchSmsPath (s : Str) : Option Str :=
  if smsObjectPath.isPrefixOf s then
    let digits := (s.drop smsObjectPath.length).takeWhile Char.isDigit
    if digits = [] then none else some (smsObjectPath ++ digits)
  else none

/-- `sorted(set(...))`, on strings. -/
def sortedPathSet (paths : List Str) : List Str := paths.dedup.insertionSort (· ≤ ·)

/-- The message objects in the output of `--messaging-list-sms`. -/
def smsPaths (stdout stderr : Str) : List Str :=
  sortedPathSet (Text.findAll matchSmsPath (haystack ⟨0, stdout, stderr⟩))

section Snapshot
variable {σ : Type}

def listSmsPaths (cfg : MmcliSettings) : Mmcli σ (List Str) := do
  let cp ← retryingRun cfg "--messaging-list-sms".toList
  pure (sortedPathSet (Text.findAll matchSmsPath (haystack cp)))

/-! ## sync_modem_sms_snapshot -/

/-- The loop over the tries, with that many left; `none` for its early `return 0`. A run that
    could not be started is an `OSError`. -/
def listWithTries (cfg : MmcliSettings) : Nat → Mmcli σ (Option (List Str))
  | 0 => pure (some [])
  | n + 1 =>
    Script.handle (do let paths ← listSmsPaths cfg; pure (some paths))
      (fun _ => some (if n = 0 then pure none else listWithTries cfg n))

end Snapshot

/-- What a path meets when its turn comes: room in the queue, and if there is none, a
    dead-letter queue that takes it. -/
structure Intake where
  hasRoom : Str → Bool
  dlqTakes : Str → Bool

/-- What the snapshot has handed over. -/
structure Handed where
  queued : List SmsJob
  deadLetters : List (SmsJob × Str)
  deriving DecidableEq, Repr

/-- The body of the loop over the paths; the errors of a dead-letter write are logged only. -/
def handOver (intake : Intake) (modemIndex : Nat) (acc : Nat × Handed) (path : Str) :
    Nat × Handed :=
  let job : SmsJob := ⟨path, modemIndex⟩
  if intake.hasRoom path then (acc.1 + 1, { acc.2 with queued := acc.2.queued ++ [job] })
  else if intake.dlqTakes path then
    (acc.1, { acc.2 with deadLetters := acc.2.deadLetters ++ [(job, queueFullError false)] })
  else acc

/-- `MMCLI_SNAPSHOT_TRIES` may be any integer. -/
def syncModemSmsSnapshot (cfg : MmcliSettings) (snapshotTries : Int) (intake : Intake)
    (modemIndex : Nat) : Mmcli Handed Nat := do
  match ← listWithTries cfg (max 1 snapshotTries).toNat with
  | none => pure 0
  | some paths => do
    let handed ← Script.get
    let result := paths.foldl (handOver intake modemIndex) (0, handed)
    Script.modify (fun _ => result.2)
    pure result.1

/-! ## What mmcli lists -/

theorem mem_sortedPathSet {paths : List Str} {p : Str} : p ∈ sortedPathSet paths ↔ p ∈ paths := by
  rw [sortedPathSet, List.mem_insertionSort, List.mem_dedup]

theorem nodup_sortedPathSet (paths : List Str) : (sortedPathSet paths).Nodup :=
  (List.perm_insertionSort _ _).nodup_iff.mpr (List.nodup_dedup paths)

/-- A line of the listing: what stands around the path has no slash, and no digit follows it. -/
structure MessageLine where
  indent : Str
  number : Nat
  suffix : Str
  indent_plain : '/' ∉ indent
  suffix_plain : '/' ∉ suffix
  suffix_head : ∀ c ∈ suffix.head?, c.isDigit = false

def MessageLine.path (line : MessageLine) : Str := smsObjectPath ++ Text.ofNat line.number

def MessageLine.text (line : MessageLine) : Str :=
  line.indent ++ line.path ++ line.suffix ++ ['\n']

def messageListing (lines : List MessageLine) : Str := lines.flatMap MessageLine.text

theorem smsObjectPath_eq :
    smsObjectPath = '/' :: 'o' :: "rg/freedesktop/ModemManager1/SMS/".toList := by decide

theorem matchSmsPath_of_not_prefix {s : Str} (h : smsObjectPath.isPrefixOf s = false) :
    matchSmsPath s = none := by
  unfold matchSmsPath
  rw [h]
  rfl

theorem matchSmsPath_cons {c : Char} (hc : c ≠ '/') (s : Str) : matchSmsPath (c :: s) = none := by
  apply matchSmsPath_of_not_prefix
  rw [smsObjectPath_eq, List.isPrefixOf_cons_cons, beq_false_of_ne (Ne.symm hc), Bool.false_and]

/-- None begins at a slash before another character than `o`. -/
theorem matchSmsPath_slash {d : Char} (hd : d ≠ 'o') (s : Str) :
    matchSmsPath ('/' :: d :: s) = none := by
  apply matchSmsPath_of_not_prefix
  rw [smsObjectPath_eq, List.isPrefixOf_cons_cons, List.isPrefixOf_cons_cons,
    beq_false_of_ne (Ne.symm hd), Bool.false_and, Bool.and_false]

theorem findAll_plain {chars : Str} (h : '/' ∉ chars) (s : Str) :
    Text.findAll matchSmsPath (chars ++ s) = Text.findAll matchSmsPath s :=
  Text.findAll_append_of_none
    (fun _ hc t => matchSmsPath_cons (fun he => h (he ▸ hc)) t) s

/-- A segment of a path that is not its start. -/
theorem findAll_step {chars : Str} (h : '/' ∉ chars) {d : Char} (hd : d ≠ 'o') (s : Str) :
    Text.findAll matchSmsPath (chars ++ '/' :: d :: s) = Text.findAll matchSmsPath (d :: s) := by
  rw [findAll_plain h, Text.findAll, matchSmsPath_slash hd]
  rfl

/-- What follows a path: the suffix, and the end of the line. -/
theorem takeWhile_suffix (line : MessageLine) (s : Str) :
    (line.suffix ++ '\n' :: s).takeWhile Char.isDigit = [] := by
  cases hsuffix : line.suffix with
  | nil => rfl
  | cons c chars =>
    have hc : c.isDigit = false := line.suffix_head c (by rw [hsuffix]; rfl)
    exact List.takeWhile_cons_of_neg (by rw [hc]; exact Bool.false_ne_true)

theorem matchSmsPath_front (line : MessageLine) (s : Str) :
    matchSmsPath (line.path ++ (line.suffix ++ '\n' :: s)) = some line.path := by
  have hall := isDigit_ofNat line.number
  have hpre : smsObjectPath.isPrefixOf
      (smsObjectPath ++ (Text.ofNat line.number ++ (line.suffix ++ '\n' :: s))) = true :=
    List.isPrefixOf_iff_prefix.mpr (List.prefix_append _ _)
  have hdigits : ((smsObjectPath ++ (Text.ofNat line.number ++ (line.suffix ++ '\n' :: s))).drop
      smsObjectPath.length).takeWhile Char.isDigit = Text.ofNat line.number := by
    rw [List.drop_left, List.takeWhile_append_of_pos hall, takeWhile_suffix, List.append_nil]
  have hne : Text.ofNat line.number ≠ [] := Nat.toDigits_ne_nil
  unfold matchSmsPath MessageLine.path
  rw [List.append_assoc, if_pos hpre]
  simp only [hdigits, if_neg hne]

/-- The rest of a path has no match, and neither has what follows it. -/
theorem findAll_after (line : MessageLine) (s : Str) :
    Text.findAll matchSmsPath ("org/freedesktop/ModemManager1/SMS/".toList ++
        (Text.ofNat line.number ++ (line.suffix ++ '\n' :: s))) =
      Text.findAll matchSmsPath s := by
  have hall := isDigit_ofNat line.number
  obtain ⟨d, digits, hdigits⟩ :=
    List.exists_cons_of_ne_nil (Nat.toDigits_ne_nil (n := line.number) (b := 10))
  have hd : d ≠ 'o' := by
    intro he
    have hdigit := hall d (by rw [Text.ofNat, hdigits]; exact List.mem_cons_self)
    rw [he] at hdigit
    exact absurd hdigit (by decide)
  -- no segment behind a slash begins with an `o`, nor does the number
  have hsegments : "org/freedesktop/ModemManager1/SMS/".toList =
      "org".toList ++ '/' :: 'f' :: ("reedesktop".toList ++ '/' :: 'M' ::
        ("odemManager1".toList ++ '/' :: 'S' :: ("MS".toList ++ ['/']))) := by decide
  have hplain : '/' ∉ Text.ofNat line.number ++ (line.suffix ++ ['\n']) := by
    simp only [List.mem_append, not_or]
    refine ⟨?_, line.suffix_plain, by decide⟩
    intro hslash
    exact absurd (hall '/' hslash) (by decide)
  have hsame : Text.ofNat line.number ++ (line.suffix ++ '\n' :: s) =
      (Text.ofNat line.number ++ (line.suffix ++ ['\n'])) ++ s := by simp
  rw [hsegments]
  simp only [List.append_assoc, List.cons_append, List.nil_append]
  have hnumber : Text.ofNat line.number = d :: digits := hdigits
  calc Text.findAll matchSmsPath ("org".toList ++ '/' :: 'f' :: ("reedesktop".toList ++ '/' ::
          'M' :: ("odemManager1".toList ++ '/' :: 'S' :: ("MS".toList ++
            '/' :: (Text.ofNat line.number ++ (line.suffix ++ '\n' :: s))))))
      = Text.findAll matchSmsPath (Text.ofNat line.number ++ (line.suffix ++ '\n' :: s)) := by
        rw [hnumber, List.cons_append]
        rw [findAll_step (by decide) (by decide), ← List.cons_append,
          findAll_step (by decide) (by decide), ← List.cons_append,
          findAll_step (by decide) (by decide), ← List.cons_append,
          findAll_step (by decide) hd]
    _ = Text.findAll matchSmsPath s := by rw [hsame, findAll_plain hplain]

/-- One line, and what follows it in the output. -/
theorem findAll_messageLine (line : MessageLine) (s : Str) :
    Text.findAll matchSmsPath (line.text ++ s) = line.path :: Text.findAll matchSmsPath s := by
  have hslash : smsObjectPath = '/' :: "org/freedesktop/ModemManager1/SMS/".toList := by decide
  have htext : line.text ++ s = line.indent ++ (line.path ++ (line.suffix ++ '\n' :: s)) := by
    simp [MessageLine.text]
  have hsplit : line.path ++ (line.suffix ++ '\n' :: s) =
      '/' :: ("org/freedesktop/ModemManager1/SMS/".toList ++
        (Text.ofNat line.number ++ (line.suffix ++ '\n' :: s))) := by
    rw [MessageLine.path, hslash, List.append_assoc, List.cons_append]
  have hfront := matchSmsPath_front line s
  rw [htext, findAll_plain line.indent_plain]
  rw [hsplit] at hfront ⊢
  rw [Text.findAll, hfront, findAll_after]
  rfl

theorem findAll_messageListing (lines : List MessageLine) (s : Str) :
    Text.findAll matchSmsPath (messageListing lines ++ s) =
      lines.map MessageLine.path ++ Text.findAll matchSmsPath s := by
  induction lines with
  | nil => rfl
  | cons line lines ih =>
    have hcons : messageListing (line :: lines) ++ s = line.text ++ (messageListing lines ++ s) := by
      simp [messageListing]
    rw [hcons, findAll_messageLine, ih]
    rfl

/-- The messages that are listed, each once. -/
theorem smsPaths_messageListing (lines : List MessageLine) :
    smsPaths (messageListing lines) [] = sortedPathSet (lines.map MessageLine.path) := by
  have hblank : Text.findAll matchSmsPath ("\n".toList ++ []) = [] := by decide
  have hhaystack : haystack ⟨0, messageListing lines, []⟩ =
      messageListing lines ++ ("\n".toList ++ []) := by
    unfold haystack
    rw [List.append_assoc]
  rw [smsPaths, hhaystack, findAll_messageListing, hblank, List.append_nil]

/-! ## The tries -/

/-- It is not an exit code zero. -/
def RunResult.failed : RunResult → Bool
  | .completed returncode _ _ => returncode != 0
  | .timeout | .launchFailed => true

/-- What was taken of the answers: failed runs, and behind them the one that got through. -/
def FirstListing (used : List RunResult) (stdout stderr : Str) : Prop :=
  ∃ failed, used = failed ++ [.completed 0 stdout stderr] ∧ ∀ r ∈ failed, r.failed = true

/-- A program that is over with the first run that gets through. -/
def EndsWithListing {α : Type} {σ : Type} (found : α → Str → Str → Prop) (s : σ)
    (used : List RunResult) (res : Except Raised α) (s' : σ) : Prop :=
  s' = s ∧ match res with
    | .ok a => ∃ stdout stderr, FirstListing used stdout stderr ∧ found a stdout stderr
    | .error _ => ∀ r ∈ used, r.failed = true

section Tries
variable {σ : Type} {cfg : MmcliSettings}

theorem attemptRun_cases (cfg : MmcliSettings) (what : Str) (r : RunResult) :
    (∃ stdout stderr, r = .completed 0 stdout stderr ∧
        attemptRun cfg what r = .ok ⟨0, stdout, stderr⟩) ∨
      (r.failed = true ∧ ∃ e, attemptRun cfg what r = .error e) := by
  cases r with
  | timeout => exact Or.inr ⟨rfl, _, rfl⟩
  | launchFailed => exact Or.inr ⟨rfl, _, rfl⟩
  | completed returncode stdout stderr =>
    by_cases hcode : returncode = 0
    · subst hcode
      exact Or.inl ⟨stdout, stderr, rfl, rfl⟩
    · refine Or.inr ⟨by simpa [RunResult.failed] using hcode, ?_⟩
      simp only [attemptRun, notOk, if_neg hcode]
      exact ⟨_, rfl⟩

theorem failed_of_failsForNow {what : Str} {r : RunResult}
    (h : FailsForNow (attemptRun cfg what) shouldRetry r) : r.failed = true := by
  obtain ⟨stdout, stderr, _, hok⟩ | ⟨hfailed, _⟩ := attemptRun_cases cfg what r
  · obtain ⟨e, he, _⟩ := h
    rw [hok] at he
    cases he
  · exact hfailed

theorem endsWithListing_cons {α : Type} {found : α → Str → Str → Prop} {s s' : σ}
    {r : RunResult} {used : List RunResult} {res : Except Raised α} (hr : r.failed = true)
    (h : EndsWithListing found s used res s') : EndsWithListing found s (r :: used) res s' := by
  refine ⟨h.1, ?_⟩
  cases res with
  | ok a =>
    obtain ⟨stdout, stderr, ⟨failed, hused, hfailed⟩, hfound⟩ := h.2
    exact ⟨stdout, stderr, ⟨r :: failed, congrArg _ hused, List.forall_mem_cons.mpr ⟨hr, hfailed⟩⟩,
      hfound⟩
  | error e => exact List.forall_mem_cons.mpr ⟨hr, h.2⟩

theorem ends_retryingRunLoop (what : Str) (n : Nat) :
    (retryingRunLoop cfg what n : Mmcli σ CompletedProcess).Ends
      (EndsWithListing (fun cp stdout stderr => cp = ⟨0, stdout, stderr⟩)) := by
  induction n with
  | zero => exact Script.ends_raise (fun s => ⟨rfl, by simp⟩)
  | succ n ih =>
    intro s rs res s' rest hrun
    cases rs with
    | nil => cases hrun
    | cons r rs =>
      obtain ⟨hfails, _, _, hnext⟩ | ⟨_, hend⟩ :=
        @retryingRunLoop_cons _ cfg what n s r rs
      · rw [hnext] at hrun
        obtain ⟨used, hused, hends⟩ := ih s rs res s' rest hrun
        exact ⟨r :: used, congrArg _ hused, endsWithListing_cons (failed_of_failsForNow hfails) hends⟩
      -- this run decides: a listing, or a failure that is not tried again
      · rw [hend] at hrun
        cases hrun
        refine ⟨[r], rfl, rfl, ?_⟩
        obtain ⟨stdout, stderr, hr, hok⟩ | ⟨hfailed, e, he⟩ := attemptRun_cases cfg what r
        · rw [hok]
          exact ⟨stdout, stderr, ⟨[], by rw [hr]; rfl, by simp⟩, rfl⟩
        · rw [he]
          exact List.forall_mem_singleton.mpr hfailed

theorem ends_listSmsPaths :
    (listSmsPaths cfg : Mmcli σ (List Str)).Ends
      (EndsWithListing (fun paths stdout stderr => paths = smsPaths stdout stderr)) := by
  refine Script.ends_bind (ends_retryingRunLoop "--messaging-list-sms".toList cfg.maxRetries)
    (Q := fun cp s used res s' => s' = s ∧ used = [] ∧
      res = .ok (sortedPathSet (Text.findAll matchSmsPath (haystack cp)))) ?_ ?_ ?_
  · exact fun cp => Script.ends_pure (fun s => ⟨rfl, rfl, rfl⟩)
  · exact fun s used e s' h => h
  · intro s used cp s' used' res s'' h hpure
    obtain ⟨hs, stdout, stderr, hfirst, hcp⟩ := h
    obtain ⟨hs', hused', hres⟩ := hpure
    rw [hused', List.append_nil, hres]
    refine ⟨hs'.trans hs, stdout, stderr, hfirst, ?_⟩
    rw [hcp]
    rfl

/-- All tries failed, or the first listing that got through. -/
def TriesEnd (s : σ) (used : List RunResult) (res : Except Raised (Option (List Str))) (s' : σ) :
    Prop :=
  s' = s ∧ ((res = .ok none ∧ ∀ r ∈ used, r.failed = true) ∨
    ∃ stdout stderr, res = .ok (some (smsPaths stdout stderr)) ∧ FirstListing used stdout stderr)

theorem ends_try :
    ((do let paths ← listSmsPaths cfg; pure (some paths)) : Mmcli σ (Option (List Str))).Ends
      (EndsWithListing (fun paths stdout stderr => paths = some (smsPaths stdout stderr))) := by
  refine Script.ends_bind ends_listSmsPaths
    (Q := fun paths s used res s' => s' = s ∧ used = [] ∧ res = .ok (some paths)) ?_ ?_ ?_
  · exact fun paths => Script.ends_pure (fun s => ⟨rfl, rfl, rfl⟩)
  · exact fun s used e s' h => h
  · intro s used paths s' used' res s'' h hpure
    obtain ⟨hs, stdout, stderr, hfirst, hpaths⟩ := h
    obtain ⟨hs', hused', hres⟩ := hpure
    rw [hused', List.append_nil, hres]
    exact ⟨hs'.trans hs, stdout, stderr, hfirst, congrArg some hpaths⟩

theorem ends_listWithTries (cfg : MmcliSettings) (n : Nat) :
    (listWithTries cfg (n + 1) : Mmcli σ (Option (List Str))).Ends TriesEnd := by
  induction n with
  | zero =>
    refine Script.ends_handle ends_try (Q := fun _ s used res s' => s' = s ∧ used = [] ∧ res = .ok none)
      ?_ ?_ ?_ ?_
    · intro e k hk
      cases hk
      exact Script.ends_pure (fun s => ⟨rfl, rfl, rfl⟩)
    · intro s used paths s' h
      obtain ⟨hs, stdout, stderr, hfirst, hpaths⟩ := h
      exact ⟨hs, Or.inr ⟨stdout, stderr, by rw [hpaths], hfirst⟩⟩
    · intro s used e s' hnone _
      cases hnone
    · intro s used e k s' used' res s'' _ h hpure
      obtain ⟨hs, hfailed⟩ := h
      obtain ⟨hs', hused', hres⟩ := hpure
      rw [hused', List.append_nil]
      exact ⟨hs'.trans hs, Or.inl ⟨hres, hfailed⟩⟩
  | succ n ih =>
    refine Script.ends_handle ends_try (Q := fun _ => TriesEnd) ?_ ?_ ?_ ?_
    · intro e k hk
      cases hk
      exact ih
    · intro s used paths s' h
      obtain ⟨hs, stdout, stderr, hfirst, hpaths⟩ := h
      exact ⟨hs, Or.inr ⟨stdout, stderr, by rw [hpaths], hfirst⟩⟩
    · intro s used e s' hnone _
      cases hnone
    · intro s used e k s' used' res s'' _ h hlater
      obtain ⟨hs, hfailed⟩ := h
      obtain ⟨hs', hlater⟩ := hlater
      refine ⟨hs'.trans hs, ?_⟩
      cases hlater with
      | inl hnone =>
        refine Or.inl ⟨hnone.1, ?_⟩
        intro r hr
        exact (List.mem_append.mp hr).elim (hfailed r) (hnone.2 r)
      | inr hsome =>
        obtain ⟨stdout, stderr, hres, before, hused, hbefore⟩ := hsome
        refine Or.inr ⟨stdout, stderr, hres, used ++ before, ?_, ?_⟩
        · rw [hused, List.append_assoc]
        · intro r hr
          exact (List.mem_append.mp hr).elim (hfailed r) (hbefore r)

theorem within_listWithTries (cfg : MmcliSettings) (n : Nat) :
    (listWithTries cfg n : Mmcli σ (Option (List Str))).EndsWithin (n * cfg.maxRetries) := by
  have hone : (listSmsPaths cfg : Mmcli σ (List Str)).EndsWithin cfg.maxRetries :=
    Script.within_bind (k := 0) (contained_retryingRun (by decide)).within
      (fun _ => Script.within_pure 0 _)
  have htry : ((do let paths ← listSmsPaths cfg; pure (some paths)) :
      Mmcli σ (Option (List Str))).EndsWithin cfg.maxRetries :=
    Script.within_bind (k := 0) hone (fun _ => Script.within_pure 0 _)
  induction n with
  | zero => exact Script.within_pure _ _
  | succ n ih =>
    rw [Nat.succ_mul, Nat.add_comm]
    refine Script.within_handle htry ?_
    intro e k hk
    cases hk
    -- after the last try it gives up without a run
    by_cases hn : n = 0
    · rw [if_pos hn]
      exact Script.within_pure _ _
    · rw [if_neg hn]
      exact ih

end Tries

/-! ## Handing over -/

/-- Each path once: those that found room, those that went to the dead letters, and the number
    of the former. -/
structure HandsOver (intake : Intake) (modemIndex : Nat) (paths : List Str) (before : Handed)
    (n : Nat) (after : Handed) : Prop where
  queued : after.queued =
    before.queued ++ (paths.filter intake.hasRoom).map (fun p => ⟨p, modemIndex⟩)
  deadLetters : after.deadLetters = before.deadLetters ++
    (paths.filter (fun p => !intake.hasRoom p && intake.dlqTakes p)).map
      (fun p => (⟨p, modemIndex⟩, queueFullError false))
  count : n = (paths.filter intake.hasRoom).length

theorem handsOver_foldl (intake : Intake) (modemIndex : Nat) (paths : List Str) (n : Nat)
    (handed : Handed) :
    ∃ k, (paths.foldl (handOver intake modemIndex) (n, handed)).1 = n + k ∧
      HandsOver intake modemIndex paths handed k
        (paths.foldl (handOver intake modemIndex) (n, handed)).2 := by
  induction paths generalizing n handed with
  | nil => exact ⟨0, rfl, by simp, by simp, rfl⟩
  | cons p paths ih =>
    rw [List.foldl_cons]
    by_cases hroom : intake.hasRoom p = true
    · obtain ⟨k, hcount, h⟩ := ih (n + 1) { handed with queued := handed.queued ++ [⟨p, modemIndex⟩] }
      -- only a path that finds room is counted
      have hstep : handOver intake modemIndex (n, handed) p =
          (n + 1, { handed with queued := handed.queued ++ [⟨p, modemIndex⟩] }) := if_pos hroom
      rw [hstep]
      refine ⟨k + 1, by rw [hcount]; omega, ?_, ?_, ?_⟩
      · rw [h.queued]
        simp [hroom]
      · rw [h.deadLetters]
        simp [hroom]
      · simp [hroom, h.count]
    · by_cases htakes : intake.dlqTakes p = true
      · obtain ⟨k, hcount, h⟩ := ih n
          { handed with deadLetters := handed.deadLetters ++ [(⟨p, modemIndex⟩, queueFullError false)] }
        have hstep : handOver intake modemIndex (n, handed) p = (n, { handed with
            deadLetters := handed.deadLetters ++ [(⟨p, modemIndex⟩, queueFullError false)] }) := by
          unfold handOver
          rw [if_neg hroom, if_pos htakes]
        rw [hstep]
        refine ⟨k, hcount, ?_, ?_, ?_⟩
        · rw [h.queued]
          simp [hroom]
        · rw [h.deadLetters]
          simp [hroom, htakes]
        · simp [hroom, h.count]
      -- the dead letters refuse it too: it is dropped
      · obtain ⟨k, hcount, h⟩ := ih n handed
        have hstep : handOver intake modemIndex (n, handed) p = (n, handed) := by
          unfold handOver
          rw [if_neg hroom, if_neg htakes]
        rw [hstep]
        refine ⟨k, hcount, ?_, ?_, ?_⟩
        · rw [h.queued]
          simp [hroom]
        · rw [h.deadLetters]
          simp [hroom, htakes]
        · simp [hroom, h.count]

/-- The bus is not ready at first; then message 7 is listed, message 12, and message 7 again. -/
def snapshotRuns : List RunResult :=
  [.completed 1 [] "dbus error".toList, .timeout,
    .completed 0 ("    /org/freedesktop/ModemManager1/SMS/7 (received)\n" ++
      "    /org/freedesktop/ModemManager1/SMS/12 (received)\n" ++
      "    /org/freedesktop/ModemManager1/SMS/7 (receiving)\n").toList [],
    .timeout, .timeout, .timeout]

/-- There is room for one more message. -/
def oneMoreRoom : Intake where
  hasRoom path := path == smsObjectPath ++ "12".toList
  dlqTakes _ := true

end HiWaveTel
