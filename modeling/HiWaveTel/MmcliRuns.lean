import Mathlib.Data.List.Dedup
import Mathlib.Data.List.Sort
import HiWaveTel.OutboundDispatch
import HiWaveTel.Foundation.Script

/- The runs of `mmcli` (`mmcli_client.MMCLIClient`). What a run comes to is an answer of
   the environment: its exit code and output, a timeout, or that it could not be started.
   Only the first two become an `MmcliError`.

   `MmcliContained` is what all methods of the client have in common: the error of a run
   that could not be started gets through, and every `MmcliError` has a text.
   `listedIndices_listing` reads back the modems that a listing names. -/
namespace HiWaveTel
open Foundation

/-- How `subprocess.run` ends. -/
inductive RunResult where
  | completed (returncode : Int) (stdout stderr : Str)
  | timeout
  | launchFailed       -- an `OSError`, or any other exception
  deriving DecidableEq, Repr

inductive Raised where
  | mmcli (exc : MmcliError)
  | other
  deriving DecidableEq, Repr

abbrev Mmcli (σ α : Type) := Script σ RunResult Raised α

structure CompletedProcess where
  returncode : Int
  stdout : Str
  stderr : Str

/-- `timeout_sec` as it is printed, and `max_retries`, which is at least one. -/
structure MmcliSettings where
  timeoutSec : Str
  maxRetries : Nat
  maxRetries_pos : 0 < maxRetries

/-- `MMCLI_TIMEOUT` and `MMCLI_RETRY_MAX` are not set. -/
def MmcliSettings.unset : MmcliSettings := ⟨"45.0".toList, 3, by decide⟩

section Client
variable {σ : Type}

/-- `_run`. -/
def run (cfg : MmcliSettings) : Mmcli σ CompletedProcess := do
  match ← Script.next with
  | .completed returncode stdout stderr => pure ⟨returncode, stdout, stderr⟩
  | .timeout =>
    Script.raise (.mmcli { message := "mmcli timed out (".toList ++ cfg.timeoutSec ++ "s)".toList
                           exitCode := some (-1) })
  | .launchFailed => Script.raise .other

/-- The words of a transient failure. -/
def retryWords : List Str :=
  ["couldn't acquire", "timed out", "dbus", "not provided", "in progress", "not enabled yet",
    "not enabled", "enabling", "initializing", "unknown state"].map String.toList

/-- `_default_should_retry`. -/
def defaultShouldRetry (exc : MmcliError) : Bool :=
  exc.exitCode == some (-1) ||
    retryWords.any (fun word =>
      Text.contains (Text.lower (exc.stderr ++ "\n".toList ++ exc.stdout)) word)

/-- The error of `_ensure_ok`. -/
def notOk (cp : CompletedProcess) (what : Str) : Option MmcliError :=
  if cp.returncode = 0 then none
  else some
    { message := what ++ " failed (exit ".toList ++ Text.ofInt cp.returncode ++ ")".toList
      stdout := cp.stdout, stderr := cp.stderr, exitCode := some cp.returncode }

/-- `_ensure_ok`. -/
def ensureOk (cp : CompletedProcess) (what : Str) : Mmcli σ Unit :=
  match notOk cp what with
  | none => pure ()
  | some exc => Script.raise (.mmcli exc)

/-- The loop of `_retrying_run`, with that many attempts left. A timeout is not retried: `_run`
    raises it outside the `try`. -/
def retryingRunLoop (cfg : MmcliSettings) (what : Str) : Nat → Mmcli σ CompletedProcess
  | 0 => Script.raise .other      -- `assert last_err is not None`
  | n + 1 => do
    let cp ← run cfg
    match notOk cp what with
    | none => pure cp
    | some exc =>
      if n = 0 ∨ defaultShouldRetry exc = false then Script.raise (.mmcli exc)
      else retryingRunLoop cfg what n

def retryingRun (cfg : MmcliSettings) (what : Str) : Mmcli σ CompletedProcess :=
  retryingRunLoop cfg what cfg.maxRetries

def haystack (cp : CompletedProcess) : Str := cp.stdout ++ "\n".toList ++ cp.stderr

def modemPath : Str := "/org/freedesktop/ModemManager1/Modem/".toList

/-- `_modem_path_re` at the front; `mmcli` prints ASCII digits only. -/
def matchModemPath (s : Str) : Option Nat :=
  if modemPath.isPrefixOf s then
    Text.toNat? ((s.drop modemPath.length).takeWhile Char.isDigit)
  else none

/-- `sorted({...})`. -/
def sortedSet (indices : List Nat) : List Nat := indices.dedup.insertionSort (· ≤ ·)

theorem mem_sortedSet {indices : List Nat} {i : Nat} : i ∈ sortedSet indices ↔ i ∈ indices := by
  rw [sortedSet, List.mem_insertionSort, List.mem_dedup]

theorem nodup_sortedSet (indices : List Nat) : (sortedSet indices).Nodup :=
  (List.perm_insertionSort _ _).nodup_iff.mpr (List.nodup_dedup indices)

/-- A sorted list without repetitions is known by what is in it. -/
theorem sorted_eq_sortedSet {sorted indices : List Nat} (hnodup : sorted.Nodup)
    (hsorted : sorted.SortedLE) (hmem : ∀ i, i ∈ sorted ↔ i ∈ indices) :
    sorted = sortedSet indices := by
  have hperm : sorted.Perm (sortedSet indices) :=
    (List.perm_ext_iff_of_nodup hnodup (nodup_sortedSet indices)).mpr
      (fun i => (hmem i).trans mem_sortedSet.symm)
  exact hperm.eq_of_sortedLE hsorted List.sortedLE_insertionSort

def listModemIndices (cfg : MmcliSettings) : Mmcli σ (List Nat) := do
  let cp ← run cfg
  ensureOk cp "mmcli -L".toList
  pure (sortedSet (Text.findAll matchModemPath (haystack cp)))

def primaryModemIndex (cfg : MmcliSettings) : Mmcli σ Nat := do
  let cp ← run cfg
  ensureOk cp "mmcli -L".toList
  match Text.search matchModemPath (haystack cp) with
  | some modemIndex => pure modemIndex
  | none =>
    Script.raise (.mmcli { message := "No modem in mmcli -L output".toList, stdout := cp.stdout,
                           stderr := cp.stderr, exitCode := some cp.returncode })

/-- `str` of a list of integers. -/
def showIndices (indices : List Nat) : Str :=
  "[".toList ++ List.intercalate ", ".toList (indices.map Text.ofNat) ++ "]".toList

def ensureModemIndex (cfg : MmcliSettings) (modemIndex : Nat) : Mmcli σ Unit := do
  let present ← listModemIndices cfg
  if modemIndex ∈ present then pure ()
  else
    Script.raise (.mmcli
      { message := "Modem index ".toList ++ Text.ofNat modemIndex ++
          " not enumerated by ModemManager (present indices=".toList ++ showIndices present ++
          "); adjust MODEM_MMCLI_INDEX".toList
        stderr := "modem index missing".toList, exitCode := some (-2) })

/-- `_CREATED_PATH_RE` at the front: the path it captures. -/
def matchCreatedPath (s : Str) : Option Str :=
  match Text.afterLiteral "successfully created new sms:".toList s with
  | none => none
  | some rest =>
    let path := rest.dropWhile Text.isSpace
    let literal := "/org/freedesktop/modemmanager1/sms/".toList
    match Text.afterLiteral literal path with
    | none => none
    | some tail =>
      let digits := tail.takeWhile Char.isDigit
      if digits = [] then none else some (path.take literal.length ++ digits)

/-- The arguments of the command do not matter here. -/
def createSms (cfg : MmcliSettings) : Mmcli σ Str := do
  let cp ← retryingRun cfg "--messaging-create-sms".toList
  match Text.search matchCreatedPath (haystack cp) with
  | some smsPath => pure smsPath
  | none =>
    Script.raise (.mmcli { message := "Could not parse SMS object path from mmcli output".toList
                           stdout := cp.stdout, stderr := cp.stderr
                           exitCode := some cp.returncode })

def sendSms (cfg : MmcliSettings) : Mmcli σ Unit := do
  let cp ← retryingRun cfg "--send".toList
  ensureOk cp "--send".toList

/-! ## What gets through to the caller -/

def Raised.HasText : Raised → Prop
  | .mmcli exc => firstLine exc.message ≠ []
  | .other => False

/-- It leaves the state alone and takes at most `n` runs. -/
def MmcliContained {α : Type} (n : Nat) (m : Mmcli σ α) : Prop :=
  m.Escapes (· = .launchFailed) (· = .other) Raised.HasText (· = ·) n

variable {cfg : MmcliSettings} {α β : Type} {n k : Nat}

theorem contained_pure (n : Nat) (a : α) : MmcliContained n (Script.pure a : Mmcli σ α) :=
  Script.escapes_pure n a

theorem contained_raise (n : Nat) {exc : MmcliError} (h : startsVisible exc.message = true) :
    MmcliContained n (Script.raise (.mmcli exc) : Mmcli σ α) :=
  Script.escapes_raise n Raised.noConfusion (firstLine_ne_nil h)

theorem contained_bind {m : Mmcli σ α} {f : α → Mmcli σ β} (hm : MmcliContained n m)
    (hf : ∀ a, MmcliContained k (f a)) : MmcliContained (n + k) (m >>= f) :=
  Script.escapes_bind hm hf

/-- One run, and what the program makes of it. -/
theorem contained_run : MmcliContained 1 (run cfg : Mmcli σ CompletedProcess) := by
  refine ⟨?_, ?_⟩
  · refine Script.within_bind (k := 0) Script.within_next (fun r => ?_)
    cases r with
    | completed returncode stdout stderr => exact Script.within_pure 0 _
    | timeout => exact Script.within_raise 0 _
    | launchFailed => exact Script.within_raise 0 _
  · intro s rs res s' rest hrun
    cases rs with
    | nil => cases hrun
    | cons r rs =>
      refine ⟨[r], ?_, ?_⟩
      · cases r <;> cases hrun <;> rfl
      · cases r with
        | completed returncode stdout stderr =>
          cases hrun
          exact ⟨rfl, by simp, by simp⟩
        | timeout =>
          cases hrun
          refine ⟨rfl, by simp, ?_⟩
          rintro e he
          cases he
          exact Or.inr (firstLine_ne_nil (startsVisible_append (startsVisible_append (by decide))))
        | launchFailed =>
          cases hrun
          exact ⟨rfl, by simp, by simp⟩

theorem startsVisible_notOk {cp : CompletedProcess} {what : Str} {exc : MmcliError}
    (hwhat : startsVisible what = true) (h : notOk cp what = some exc) :
    startsVisible exc.message = true := by
  unfold notOk at h
  split at h
  · cases h
  · cases h
    exact startsVisible_append (startsVisible_append (startsVisible_append hwhat))

theorem contained_ensureOk {cp : CompletedProcess} {what : Str} (hwhat : startsVisible what = true) :
    MmcliContained 0 (ensureOk cp what : Mmcli σ Unit) := by
  unfold ensureOk
  split
  · exact contained_pure 0 ()
  · next exc hexc => exact contained_raise 0 (startsVisible_notOk hwhat hexc)

/-- The assertion after the loop is not reached: the last attempt raises. -/
theorem contained_retryingRunLoop {what : Str} (hwhat : startsVisible what = true) (n : Nat) :
    MmcliContained (n + 1) (retryingRunLoop cfg what (n + 1) : Mmcli σ CompletedProcess) := by
  rw [Nat.add_comm]
  induction n with
  | zero =>
    refine contained_bind contained_run (fun cp => ?_)
    split
    · exact contained_pure 0 cp
    · next exc hexc =>
      rw [if_pos (Or.inl rfl)]
      exact contained_raise 0 (startsVisible_notOk hwhat hexc)
  | succ n ih =>
    refine contained_bind contained_run (fun cp => ?_)
    split
    · exact contained_pure (n + 1) cp
    · next exc hexc =>
      split
      · exact contained_raise (n + 1) (startsVisible_notOk hwhat hexc)
      · exact Nat.add_comm 1 n ▸ ih

theorem contained_retryingRun {what : Str} (hwhat : startsVisible what = true) :
    MmcliContained cfg.maxRetries (retryingRun cfg what : Mmcli σ CompletedProcess) := by
  unfold retryingRun
  obtain ⟨n, hn⟩ := Nat.exists_eq_succ_of_ne_zero (Nat.ne_of_gt cfg.maxRetries_pos)
  rw [hn]
  exact contained_retryingRunLoop hwhat n

theorem contained_listModemIndices :
    MmcliContained 1 (listModemIndices cfg : Mmcli σ (List Nat)) := by
  refine contained_bind (k := 0) contained_run (fun cp => ?_)
  refine contained_bind (k := 0) (contained_ensureOk (by decide)) (fun _ => ?_)
  exact contained_pure 0 _

theorem contained_primaryModemIndex :
    MmcliContained 1 (primaryModemIndex cfg : Mmcli σ Nat) := by
  refine contained_bind (k := 0) contained_run (fun cp => ?_)
  refine contained_bind (k := 0) (contained_ensureOk (by decide)) (fun _ => ?_)
  cases Text.search matchModemPath (haystack cp) with
  | some modemIndex => exact contained_pure 0 modemIndex
  | none =>
    have hmessage : startsVisible "No modem in mmcli -L output".toList = true := by decide
    exact contained_raise 0 hmessage

theorem contained_ensureModemIndex {modemIndex : Nat} :
    MmcliContained 1 (ensureModemIndex cfg modemIndex : Mmcli σ Unit) := by
  refine contained_bind (k := 0) contained_listModemIndices (fun present => ?_)
  by_cases hmem : modemIndex ∈ present
  · rw [if_pos hmem]
    exact contained_pure 0 ()
  · rw [if_neg hmem]
    refine contained_raise 0 ?_
    exact startsVisible_append (startsVisible_append (startsVisible_append
      (startsVisible_append (by decide))))

theorem contained_createSms : MmcliContained cfg.maxRetries (createSms cfg : Mmcli σ Str) := by
  refine contained_bind (k := 0) (contained_retryingRun (by decide)) (fun cp => ?_)
  cases Text.search matchCreatedPath (haystack cp) with
  | some smsPath => exact contained_pure 0 smsPath
  | none =>
    have hmessage : startsVisible "Could not parse SMS object path from mmcli output".toList =
        true := by decide
    exact contained_raise 0 hmessage

theorem contained_sendSms : MmcliContained cfg.maxRetries (sendSms cfg : Mmcli σ Unit) := by
  refine contained_bind (k := 0) (contained_retryingRun (by decide)) (fun cp => ?_)
  exact contained_ensureOk (by decide)

/-- Client methods and changes of the state alike: nothing is asked of the state. -/
def StatefulContained {α : Type} (n : Nat) (m : Mmcli σ α) : Prop :=
  m.Escapes (· = .launchFailed) (· = .other) Raised.HasText (fun _ _ => True) n

instance isPreorder_true : IsPreorder σ (fun _ _ => True) where
  refl _ := trivial
  trans _ _ _ _ _ := trivial

theorem stateful_of_contained {m : Mmcli σ α} (h : MmcliContained n m) : StatefulContained n m :=
  h.weaken (fun _ _ _ => trivial)

theorem stateful_modify (f : σ → σ) :
    StatefulContained 0 (Script.modify f : Mmcli σ Unit) :=
  Script.escapes_modify (fun _ => trivial)

theorem stateful_bind {m : Mmcli σ α} {f : α → Mmcli σ β} (hm : StatefulContained n m)
    (hf : ∀ a, StatefulContained k (f a)) : StatefulContained (n + k) (m >>= f) :=
  Script.escapes_bind hm hf

/-- A step that runs nothing comes first. -/
theorem stateful_then {m : Mmcli σ α} {f : α → Mmcli σ β} (hm : StatefulContained 0 m)
    (hf : ∀ a, StatefulContained k (f a)) : StatefulContained k (m >>= f) :=
  Nat.zero_add k ▸ stateful_bind hm hf

/-! ## What does not look at the state -/

theorem ignores_run : Script.Ignores (run cfg : Mmcli σ CompletedProcess) (run cfg) := by
  refine Script.ignores_bind Script.ignores_next (fun r => ?_)
  cases r with
  | completed returncode stdout stderr => exact Script.ignores_pure _
  | timeout => exact Script.ignores_raise _
  | launchFailed => exact Script.ignores_raise _

theorem ignores_ensureOk {cp : CompletedProcess} {what : Str} :
    Script.Ignores (ensureOk cp what : Mmcli σ Unit) (ensureOk cp what) := by
  unfold ensureOk
  cases notOk cp what with
  | none => exact Script.ignores_pure ()
  | some exc => exact Script.ignores_raise _

theorem ignores_listModemIndices :
    Script.Ignores (listModemIndices cfg : Mmcli σ (List Nat)) (listModemIndices cfg) := by
  refine Script.ignores_bind ignores_run (fun cp => ?_)
  exact Script.ignores_bind ignores_ensureOk (fun _ => Script.ignores_pure _)

theorem ignores_primaryModemIndex :
    Script.Ignores (primaryModemIndex cfg : Mmcli σ Nat) (primaryModemIndex cfg) := by
  refine Script.ignores_bind ignores_run (fun cp => ?_)
  refine Script.ignores_bind ignores_ensureOk (fun _ => ?_)
  cases Text.search matchModemPath (haystack cp) with
  | some modemIndex => exact Script.ignores_pure modemIndex
  | none => exact Script.ignores_raise _

end Client

/-! ## What mmcli -L lists -/

/-- The modems in the output of `mmcli -L`. -/
def listedIndices (stdout stderr : Str) : List Nat :=
  sortedSet (Text.findAll matchModemPath (haystack ⟨0, stdout, stderr⟩))

theorem sorted_listedIndices (stdout stderr : Str) :
    (listedIndices stdout stderr).Pairwise (· ≤ ·) :=
  List.pairwise_insertionSort (· ≤ ·) _

theorem modemPath_eq :
    modemPath = '/' :: 'o' :: "rg/freedesktop/ModemManager1/Modem/".toList := by decide

theorem findAll_skip {c : Char} {s : Str} (h : modemPath.isPrefixOf (c :: s) = false) :
    Text.findAll matchModemPath (c :: s) = Text.findAll matchModemPath s := by
  have hnone : matchModemPath (c :: s) = none := by
    unfold matchModemPath
    rw [h]
    rfl
  rw [Text.findAll, hnone]
  rfl

/-- A path begins with a slash. -/
theorem findAll_chars {chars : Str} (h : '/' ∉ chars) (s : Str) :
    Text.findAll matchModemPath (chars ++ s) = Text.findAll matchModemPath s := by
  induction chars with
  | nil => rfl
  | cons c chars ih =>
    obtain ⟨hc, hchars⟩ := not_or.mp (List.mem_cons.not.mp h)
    have hnot : modemPath.isPrefixOf (c :: (chars ++ s)) = false := by
      rw [modemPath_eq, List.isPrefixOf_cons_cons, beq_false_of_ne hc, Bool.false_and]
    rw [List.cons_append, findAll_skip hnot]
    exact ih hchars

/-- And none begins at a slash before another character than `o`. -/
theorem findAll_segment {chars : Str} (h : '/' ∉ chars) {d : Char} (hd : d ≠ 'o')
    (s : Str) :
    Text.findAll matchModemPath (chars ++ '/' :: d :: s) = Text.findAll matchModemPath (d :: s) := by
  have hnot : modemPath.isPrefixOf ('/' :: d :: s) = false := by
    rw [modemPath_eq, List.isPrefixOf_cons_cons, List.isPrefixOf_cons_cons,
      beq_false_of_ne (Ne.symm hd), Bool.false_and, Bool.and_false]
  rw [findAll_chars h, findAll_skip hnot]

theorem isDigit_ofNat (n : Nat) : ∀ c ∈ Text.ofNat n, c.isDigit = true :=
  fun _ hc => Nat.isDigit_of_mem_toDigits (by decide) (by decide) hc

/-- One path, and what follows it in the output. -/
theorem findAll_line (idx : Nat) (s : Str) :
    Text.findAll matchModemPath (modemPath ++ Text.ofNat idx ++ '\n' :: s) =
      idx :: Text.findAll matchModemPath s := by
  obtain ⟨d, digits, hdigits⟩ := List.exists_cons_of_ne_nil (Nat.toDigits_ne_nil (n := idx) (b := 10))
  have hall := isDigit_ofNat idx
  have hfront : matchModemPath (modemPath ++ Text.ofNat idx ++ '\n' :: s) = some idx := by
    unfold matchModemPath
    have hpre : modemPath.isPrefixOf (modemPath ++ (Text.ofNat idx ++ '\n' :: s)) = true :=
      List.isPrefixOf_iff_prefix.mpr (List.prefix_append _ _)
    rw [List.append_assoc, if_pos hpre, List.drop_left, List.takeWhile_append_of_pos hall,
      List.takeWhile_cons_of_neg (by decide), List.append_nil, Text.toNat?_ofNat]
  have hd : d ≠ 'o' := by
    rintro rfl
    exact absurd (hall 'o' (by rw [Text.ofNat, hdigits]; simp)) (by decide)
  have htail : Text.findAll matchModemPath
      ("org/freedesktop/ModemManager1/Modem/".toList ++ d :: (digits ++ '\n' :: s)) =
      Text.findAll matchModemPath (d :: (digits ++ '\n' :: s)) := by
    have hsegments : "org/freedesktop/ModemManager1/Modem/".toList =
        "org".toList ++ '/' :: 'f' :: ("reedesktop".toList ++ '/' :: 'M' ::
          ("odemManager1".toList ++ '/' :: 'M' :: ("odem".toList ++ ['/']))) := by decide
    rw [hsegments]
    simp only [List.append_assoc, List.cons_append, List.nil_append]
    rw [findAll_segment (by decide) (by decide), ← List.cons_append,
      findAll_segment (by decide) (by decide), ← List.cons_append,
      findAll_segment (by decide) (by decide), ← List.cons_append,
      findAll_segment (by decide) hd]
  have hrest : Text.findAll matchModemPath (d :: (digits ++ '\n' :: s)) =
      Text.findAll matchModemPath s := by
    have hchars : '/' ∉ Text.ofNat idx ++ ['\n'] := by
      intro hc
      rcases List.mem_append.mp hc with hc | hc
      · exact absurd (hall '/' hc) (by decide)
      · exact absurd hc (by decide)
    have hsame : d :: (digits ++ '\n' :: s) = (Text.ofNat idx ++ ['\n']) ++ s := by
      rw [Text.ofNat, hdigits]
      simp
    rw [hsame, findAll_chars hchars]
  have hsplit : modemPath ++ Text.ofNat idx ++ '\n' :: s =
      '/' :: ("org/freedesktop/ModemManager1/Modem/".toList ++ d :: (digits ++ '\n' :: s)) := by
    have hslash : modemPath = '/' :: "org/freedesktop/ModemManager1/Modem/".toList := by decide
    rw [hslash, Text.ofNat, hdigits]
    simp only [List.append_assoc, List.cons_append]
  rw [hsplit] at hfront ⊢
  rw [Text.findAll, hfront, htail, hrest]
  rfl

/-- One line for each modem. -/
def listing (found : List Nat) : Str :=
  found.flatMap (fun idx => modemPath ++ Text.ofNat idx ++ ['\n'])

theorem findAll_listing (found : List Nat) (s : Str) :
    Text.findAll matchModemPath (listing found ++ s) = found ++ Text.findAll matchModemPath s := by
  induction found with
  | nil => rfl
  | cons idx found ih =>
    have hcons : listing (idx :: found) ++ s =
        modemPath ++ Text.ofNat idx ++ '\n' :: (listing found ++ s) := by
      simp [listing]
    rw [hcons, findAll_line, ih]
    rfl

/-- Every set of indices can be listed. -/
theorem listedIndices_listing (found : List Nat) :
    listedIndices (listing found) [] = sortedSet found := by
  have hblank : Text.findAll matchModemPath ("\n".toList ++ []) = [] := by decide
  have hhaystack : haystack ⟨0, listing found, []⟩ = listing found ++ ("\n".toList ++ []) := by
    unfold haystack
    rw [List.append_assoc]
  rw [listedIndices, hhaystack, findAll_listing, hblank, List.append_nil]
end HiWaveTel
