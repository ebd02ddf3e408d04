import HiWaveTel.ModemReadiness
import HiWaveTel.Foundation.KeyedTable

/- The modem registry (`modem_registry.py`): the table of the modems that were ever detected, with
   the row of a modem under its index, what `sync_detected_modems` makes of it after `mmcli -L`, and
   which of its modems are watched.

   `get?_syncTable` says what a sync leaves under every index, and `registrySynced` what that makes
   of the table. `listWatcherModemIndices_eq` has the fallbacks of the watched modems in order. -/
namespace HiWaveTel
open Foundation

/-! ## ModemDevice -/

structure ModemDevice where
  modemIndex : Nat
  dbusPath : Str
  enabled : Bool
  isPresent : Bool
  firstDetectedAt : Nat
  lastDetectedAt : Nat
  deriving DecidableEq, Repr

/-- `modem_index` is the primary key. -/
abbrev ModemTable := KeyedTable ModemDevice.modemIndex

/-- `order_by('modem_index')`. -/
def ordered (devices : List ModemDevice) : List ModemDevice :=
  devices.insertionSort (fun a b => a.modemIndex ≤ b.modemIndex)

/-- `filter(...).order_by('modem_index').values_list('modem_index', flat=True)`. -/
def ModemTable.indices (t : ModemTable) (q : ModemDevice → Bool) : List Nat :=
  (ordered (t.rows.filter q)).map ModemDevice.modemIndex

theorem ModemTable.mem_indices {t : ModemTable} {q : ModemDevice → Bool} {k : Nat} :
    k ∈ t.indices q ↔ ∃ r, t.get? k = some r ∧ q r = true := by
  simp only [ModemTable.indices, ordered, List.mem_map, List.mem_insertionSort, List.mem_filter,
    KeyedTable.get?_eq_some]
  exact exists_congr (fun r => by tauto)

/-- The indices of some rows are theirs in order. -/
theorem ModemTable.indices_eq_sortedSet (t : ModemTable) (q : ModemDevice → Bool)
    {indices : List Nat} (h : ∀ k, k ∈ t.indices q ↔ k ∈ indices) :
    t.indices q = sortedSet indices := by
  have hmap : t.indices q =
      ((t.rows.filter q).map ModemDevice.modemIndex).insertionSort (· ≤ ·) :=
    List.map_insertionSort _ _ _ _ (fun _ _ _ _ => Iff.rfl)
  have hkeys : ((t.rows.filter q).map ModemDevice.modemIndex).Nodup :=
    t.distinct.sublist (List.filter_sublist.map _)
  apply sorted_eq_sortedSet _ _ h
  · rw [hmap]
    exact (List.perm_insertionSort _ _).nodup_iff.mpr hkeys
  · rw [hmap]
    exact List.sortedLE_insertionSort

/-! ## sync_detected_modems -/

/-- `_MODEM_PATH_RE` at the front: the index, and the path with it. -/
def matchModemDevice (s : Str) : Option (Nat × Str) :=
  if modemPath.isPrefixOf s then
    let digits := (s.drop modemPath.length).takeWhile Char.isDigit
    (Text.toNat? digits).map (fun modemIndex => (modemIndex, modemPath ++ digits))
  else none

/-- `_parse_modem_paths`. -/
def parseModemPaths (haystack : Str) : List (Nat × Str) :=
  Dict.ofItems (Text.findAll matchModemDevice haystack)

/-- When the row of an index is created, and when it is saved. -/
structure SyncTimes where
  created : Nat → Nat
  saved : Nat → Nat

section Sync
variable (times : SyncTimes) (paths : List (Nat × Str))

/-- The path of an index that was found. -/
def pathOf (modemIndex : Nat) : Str := (Dict.get paths modemIndex).getD []

theorem pathOf_eq {paths : List (Nat × Str)} {k : Nat} {path : Str}
    (h : Dict.get paths k = some path) : pathOf paths k = path := by
  rw [pathOf, h, Option.getD_some]

/-- `obj.save(update_fields=['dbus_path', 'is_present', 'last_detected_at'])`. -/
def detectedAgain (modemIndex : Nat) : KeyedUpdate ModemDevice.modemIndex where
  set r := { r with dbusPath := pathOf paths modemIndex, isPresent := true
                    lastDetectedAt := times.saved modemIndex }
  key_set _ := rfl

/-- The row that `get_or_create` inserts. -/
def newModemDevice (modemIndex : Nat) : KeyedRow ModemDevice.modemIndex modemIndex where
  row := { modemIndex, dbusPath := pathOf paths modemIndex, enabled := true, isPresent := true
           firstDetectedAt := times.created modemIndex, lastDetectedAt := times.saved modemIndex }
  key_row := rfl

/-- `update(is_present=False)`. -/
def markAbsent : KeyedUpdate ModemDevice.modemIndex where
  set r := { r with isPresent := false }
  key_set _ := rfl

/-- The loop over the indices, and the update of the rows that it has not seen. -/
def syncTable (t : ModemTable) : ModemTable :=
  let seen := sortedSet (paths.map Prod.fst)
  let t := t.upsertAll (detectedAgain times paths) (newModemDevice times paths) seen
  if seen = [] then t.updateWhere (fun _ => true) markAbsent
  else t.updateWhere (fun r => !seen.contains r.modemIndex) markAbsent

end Sync

/-- The `try` of `sync_detected_modems`. -/
def runListing {σ : Type} (cfg : MmcliSettings) : Mmcli σ CompletedProcess := do
  let cp ← run cfg
  ensureOk cp "mmcli -L".toList
  pure cp

def syncDetectedModems (cfg : MmcliSettings) (times : SyncTimes) :
    Mmcli ModemTable (List ModemDevice) := do
  match ← attempt (runListing cfg) with
  | .error _ => return ordered (← Script.get).rows
  | .ok cp =>
    Script.modify (syncTable times (parseModemPaths (haystack cp)))
    return ordered (← Script.get).rows

/-! ## The two patterns -/

theorem matchModemPath_eq (s : Str) : matchModemPath s = (matchModemDevice s).map Prod.fst := by
  unfold matchModemPath matchModemDevice
  split
  · rw [Option.map_map]
    exact Option.map_id'.symm
  · rfl

theorem mem_parseModemPaths {text : Str} {k : Nat} :
    k ∈ (parseModemPaths text).map Prod.fst ↔ k ∈ Text.findAll matchModemPath text := by
  rw [parseModemPaths, Dict.mem_keys_ofItems, Text.findAll_map matchModemPath_eq]

/-- A path is part of the text, and ends with its index. -/
theorem path_of_parseModemPaths {text path : Str} {k : Nat}
    (h : Dict.get (parseModemPaths text) k = some path) :
    path <:+: text ∧ Text.ofNat k <:+ path := by
  rw [parseModemPaths, Dict.get_ofItems] at h
  obtain ⟨s, hs, hmatch⟩ :=
    Text.exists_of_mem_findAll (List.mem_reverse.mp (Dict.mem_of_get h))
  unfold matchModemDevice at hmatch
  split at hmatch
  · next hfront =>
    obtain ⟨modemIndex, hdigits, heq⟩ := Option.map_eq_some_iff.mp hmatch
    cases heq
    obtain ⟨rest, rfl⟩ := List.isPrefixOf_iff_prefix.mp hfront
    rw [List.drop_left] at hdigits ⊢
    refine ⟨?_, (Text.ofNat_suffix hdigits).trans (List.suffix_append _ _)⟩
    have hprefix : modemPath ++ rest.takeWhile Char.isDigit <+: modemPath ++ rest :=
      (List.prefix_append_right_inj _).mpr (List.takeWhile_prefix _)
    exact hprefix.isInfix.trans hs.isInfix
  · cases hmatch

/-! ## What a sync leaves under an index -/

section Lookup
variable (times : SyncTimes) (paths : List (Nat × Str)) (t : ModemTable) (k : Nat)

theorem get?_syncTable :
    (syncTable times paths t).get? k =
      if k ∈ paths.map Prod.fst then
        some ((t.get? k).elim (newModemDevice times paths k).row (detectedAgain times paths k).set)
      else (t.get? k).map markAbsent.set := by
  have hseen : k ∈ sortedSet (paths.map Prod.fst) ↔ k ∈ paths.map Prod.fst := mem_sortedSet
  -- the update of all rows is that of the rows that are not seen when none is
  have hmark : (syncTable times paths t).get? k =
      ((t.upsertAll (detectedAgain times paths) (newModemDevice times paths)
        (sortedSet (paths.map Prod.fst))).get? k).map
        (fun r => if !(sortedSet (paths.map Prod.fst)).contains r.modemIndex then markAbsent.set r
          else r) := by
    simp only [syncTable]
    split
    · next hnone =>
      rw [KeyedTable.get?_updateWhere, hnone]
      rfl
    · rw [KeyedTable.get?_updateWhere]
  rw [hmark, KeyedTable.get?_upsertAll t (nodup_sortedSet _)]
  by_cases hk : k ∈ paths.map Prod.fst
  · rw [if_pos (hseen.mpr hk), if_pos hk, Option.map_some]
    have hkey : ((t.get? k).elim (newModemDevice times paths k).row
        (detectedAgain times paths k).set).modemIndex = k := by
      cases hget : t.get? k with
      | none => rfl
      | some r => exact (KeyedTable.get?_eq_some.mp hget).2
    rw [hkey, List.contains_iff_mem.mpr (hseen.mpr hk)]
    rfl
  · rw [if_neg (fun h => hk (hseen.mp h)), if_neg hk]
    cases hget : t.get? k with
    | none => rfl
    | some r =>
      have hkey : r.modemIndex = k := (KeyedTable.get?_eq_some.mp hget).2
      have hnot : (sortedSet (paths.map Prod.fst)).contains r.modemIndex = false := by
        rw [hkey, Bool.eq_false_iff, ne_eq, List.contains_iff_mem]
        exact fun h => hk (hseen.mp h)
      rw [Option.map_some, Option.map_some, hnot]
      rfl

end Lookup

/-! ## The table after a sync -/

/-- What the sync with an output of `mmcli -L` makes of a table. -/
structure RegistrySynced (stdout stderr : Str) (before after : ModemTable) : Prop where
  present : after.indices (·.isPresent) = listedIndices stdout stderr
  dbusPath : ∀ r ∈ after.rows, r.isPresent = true →
    r.dbusPath <:+: haystack ⟨0, stdout, stderr⟩ ∧ Text.ofNat r.modemIndex <:+ r.dbusPath
  kept : ∀ r ∈ before.rows, ∃ r' ∈ after.rows,
    r'.modemIndex = r.modemIndex ∧ r'.enabled = r.enabled ∧
    r'.firstDetectedAt = r.firstDetectedAt
  unlisted : ∀ k ∉ listedIndices stdout stderr,
    after.get? k = (before.get? k).map (fun r => { r with isPresent := false })

section Synced
variable (times : SyncTimes) (t : ModemTable) (stdout stderr : Str)

/-- The table after the sync. -/
def synced : ModemTable :=
  syncTable times (parseModemPaths (haystack ⟨0, stdout, stderr⟩)) t

theorem mem_listedIndices {k : Nat} : k ∈ listedIndices stdout stderr ↔
    k ∈ (parseModemPaths (haystack ⟨0, stdout, stderr⟩)).map Prod.fst := by
  rw [listedIndices, mem_sortedSet, mem_parseModemPaths]

/-- A listed index has a row that is present, with what a row had before that a sync leaves. -/
theorem get?_synced_listed {k : Nat} (h : k ∈ listedIndices stdout stderr) :
    ∃ r, (synced times t stdout stderr).get? k = some r ∧ r.isPresent = true ∧
      Dict.get (parseModemPaths (haystack ⟨0, stdout, stderr⟩)) k = some r.dbusPath ∧
      ∀ old, t.get? k = some old →
        r.enabled = old.enabled ∧ r.firstDetectedAt = old.firstDetectedAt := by
  have hk := (mem_listedIndices stdout stderr).mp h
  obtain ⟨path, hpath⟩ := Option.isSome_iff_exists.mp (Dict.isSome_get.mpr hk)
  rw [synced, get?_syncTable, if_pos hk, hpath]
  cases t.get? k with
  | none =>
    refine ⟨_, rfl, rfl, ?_, ?_⟩
    · simp only [Option.elim_none, newModemDevice, pathOf_eq hpath]
    · intro old hold
      cases hold
  | some old =>
    refine ⟨_, rfl, rfl, ?_, ?_⟩
    · simp only [Option.elim_some, detectedAgain, pathOf_eq hpath]
    · intro old' hold
      cases hold
      exact ⟨rfl, rfl⟩

theorem get?_synced_unlisted {k : Nat} (h : k ∉ listedIndices stdout stderr) :
    (synced times t stdout stderr).get? k =
      (t.get? k).map (fun r => { r with isPresent := false }) := by
  rw [synced, get?_syncTable, if_neg (fun hk => h ((mem_listedIndices stdout stderr).mpr hk))]
  rfl

theorem registrySynced : RegistrySynced stdout stderr t (synced times t stdout stderr) where
  present := by
    apply ModemTable.indices_eq_sortedSet
    intro k
    rw [ModemTable.mem_indices, ← mem_sortedSet]
    constructor
    · rintro ⟨r, hget, hpresent⟩
      by_contra hnot
      rw [get?_synced_unlisted times t stdout stderr hnot] at hget
      obtain ⟨old, _, rfl⟩ := Option.map_eq_some_iff.mp hget
      cases hpresent
    · intro hk
      obtain ⟨r, hget, hpresent, _⟩ := get?_synced_listed times t stdout stderr hk
      exact ⟨r, hget, hpresent⟩
  dbusPath := by
    intro r hr hpresent
    have hget := KeyedTable.get?_of_mem hr
    by_cases hk : r.modemIndex ∈ listedIndices stdout stderr
    · obtain ⟨r', hget', _, hpath, _⟩ := get?_synced_listed times t stdout stderr hk
      cases hget.symm.trans hget'
      exact path_of_parseModemPaths hpath
    · rw [get?_synced_unlisted times t stdout stderr hk] at hget
      obtain ⟨old, _, heq⟩ := Option.map_eq_some_iff.mp hget
      rw [← heq] at hpresent
      cases hpresent
  kept := by
    intro r hr
    have hget := KeyedTable.get?_of_mem hr
    by_cases hk : r.modemIndex ∈ listedIndices stdout stderr
    · obtain ⟨r', hget', _, _, hsame⟩ := get?_synced_listed times t stdout stderr hk
      obtain ⟨hin, hkey⟩ := KeyedTable.get?_eq_some.mp hget'
      exact ⟨r', hin, hkey, hsame r hget⟩
    · have hget' := get?_synced_unlisted times t stdout stderr hk
      rw [hget, Option.map_some] at hget'
      exact ⟨_, (KeyedTable.get?_eq_some.mp hget').1, rfl, rfl, rfl⟩
  unlisted := fun _ hk => get?_synced_unlisted times t stdout stderr hk

/-- The rows that a second sync saves. -/
def savedAgain (r : ModemDevice) : ModemDevice :=
  if r.modemIndex ∈ listedIndices stdout stderr then
    { r with lastDetectedAt := times.saved r.modemIndex }
  else r

theorem get?_synced_again (first : SyncTimes) (k : Nat) :
    (synced times (synced first t stdout stderr) stdout stderr).get? k =
      ((synced first t stdout stderr).get? k).map (savedAgain times stdout stderr) := by
  by_cases hk : k ∈ listedIndices stdout stderr
  · obtain ⟨r, hget, hpresent, hpath, _⟩ := get?_synced_listed first t stdout stderr hk
    have hkey : r.modemIndex = k := (KeyedTable.get?_eq_some.mp hget).2
    have hin := (mem_listedIndices stdout stderr).mp hk
    rw [synced, get?_syncTable, if_pos hin, hget, Option.map_some, Option.elim_some, savedAgain,
      hkey, if_pos hk]
    simp only [detectedAgain, pathOf_eq hpath, ← hpresent, hkey]
  · rw [get?_synced_unlisted times _ stdout stderr hk,
      get?_synced_unlisted first t stdout stderr hk]
    cases hget : t.get? k with
    | none => rfl
    | some r =>
      have hkey : r.modemIndex = k := (KeyedTable.get?_eq_some.mp hget).2
      have hnot : r.modemIndex ∉ listedIndices stdout stderr := by rwa [hkey]
      simp only [Option.map_some, savedAgain, if_neg hnot]

end Synced

/-- What a sync is to do, for a table, the times of the sync and those of a second one. -/
structure RegistrySyncLaw (cfg : MmcliSettings) (times again : SyncTimes) (t : ModemTable) :
    Prop where
  listed : ∀ stdout stderr rest, ∃ after,
    syncDetectedModems cfg times t (.completed 0 stdout stderr :: rest) =
      some (.ok (ordered after.rows), after, rest) ∧
    listModemIndices cfg t (.completed 0 stdout stderr :: rest) =
      some (.ok (after.indices (·.isPresent)), t, rest) ∧
    RegistrySynced stdout stderr t after ∧
    ∀ rest', ∃ after',
      syncDetectedModems cfg again after (.completed 0 stdout stderr :: rest') =
        some (.ok (ordered after'.rows), after', rest') ∧
      ∀ k, after'.get? k = (after.get? k).map (savedAgain again stdout stderr)
  failed : ∀ rs t' rest exc, listModemIndices cfg t rs = some (.error (.mmcli exc), t', rest) →
    syncDetectedModems cfg times t rs = some (.ok (ordered t.rows), t, rest)

theorem syncDetectedModems_listed (cfg : MmcliSettings) (times : SyncTimes) (t : ModemTable)
    (stdout stderr : Str) (rest : List RunResult) :
    syncDetectedModems cfg times t (.completed 0 stdout stderr :: rest) =
      some (.ok (ordered (synced times t stdout stderr).rows),
        synced times t stdout stderr, rest) :=
  rfl

/-- `list_modem_indices` makes the same run, and fails when that does. -/
theorem runListing_failed {σ : Type} {cfg : MmcliSettings} {s s' : σ} {rs rest : List RunResult}
    {e : Raised} (h : listModemIndices cfg s rs = some (.error e, s', rest)) :
    runListing cfg s rs = some (.error e, s', rest) := by
  have hsame : (listModemIndices cfg : Mmcli σ (List Nat)) = Script.bind (runListing cfg)
      (fun cp => Script.pure (sortedSet (Text.findAll matchModemPath (haystack cp)))) := by
    have hrun : (runListing cfg : Mmcli σ CompletedProcess) = Script.bind (run cfg) (fun cp =>
        Script.bind (ensureOk cp "mmcli -L".toList) (fun _ => Script.pure cp)) := rfl
    rw [hrun, Script.bind_assoc]
    simp only [Script.bind_assoc]
    rfl
  rw [hsame] at h
  rcases Script.bind_cases h with ⟨e', hrun, he⟩ | ⟨cp, _, _, _, hpure⟩
  · cases he
    exact hrun
  · cases hpure

theorem syncDetectedModems_failed {cfg : MmcliSettings} {times : SyncTimes} {t t' : ModemTable}
    {rs rest : List RunResult} {exc : MmcliError}
    (h : listModemIndices cfg t rs = some (.error (.mmcli exc), t', rest)) :
    syncDetectedModems cfg times t rs = some (.ok (ordered t.rows), t, rest) := by
  obtain rfl : t = t' := (state_eq_of_contained contained_listModemIndices h).symm
  have hattempt : attempt (runListing cfg) t rs = some (.ok (.error exc), t, rest) :=
    attempt_failed (runListing_failed h)
  exact Script.bind_of_ok hattempt

theorem registry_sync (cfg : MmcliSettings) (times again : SyncTimes) (t : ModemTable) :
    RegistrySyncLaw cfg times again t where
  listed := by
    intro stdout stderr rest
    have hsynced := registrySynced times t stdout stderr
    refine ⟨_, syncDetectedModems_listed cfg times t stdout stderr rest, ?_, hsynced, ?_⟩
    · rw [hsynced.present]
      exact listModemIndices_ok.mpr ⟨rfl, stdout, stderr, rfl, rfl⟩
    · intro rest'
      exact ⟨_, syncDetectedModems_listed cfg again _ stdout stderr rest',
        get?_synced_again again t stdout stderr times⟩
  failed := fun _ _ _ _ h => syncDetectedModems_failed h

/-! ## The modems that are watched -/

/-- `list_present_modem_indices`: any exception of the listing is dropped. -/
def listPresentModemIndices (cfg : MmcliSettings) : Mmcli ModemTable (List Nat) := do
  let present := (← Script.get).indices (·.isPresent)
  if present ≠ [] then return present
  else Script.handle (listModemIndices cfg) (fun _ => some (Script.pure []))

/-- `list_watcher_modem_indices`. -/
def listWatcherModemIndices (cfg : MmcliSettings) : Mmcli ModemTable (List Nat) := do
  let indices := (← Script.get).indices (fun r => r.isPresent && r.enabled)
  if indices ≠ [] then return indices
  else listPresentModemIndices cfg

/-- The rows of these indices, where they have one, are enabled. -/
def AllEnabled (t : ModemTable) (indices : List Nat) : Prop :=
  ∀ k ∈ indices, ∀ r, t.get? k = some r → r.enabled = true

/-- No disabled modem is watched, whatever the call returns. -/
def WatchesNoDisabled (cfg : MmcliSettings) (t : ModemTable) (rs : List RunResult) : Prop :=
  ∀ indices t' rest, listWatcherModemIndices cfg t rs = some (.ok indices, t', rest) →
    AllEnabled t indices

/-- What the listing of a call names. -/
def enumerated : List RunResult → List Nat
  | .completed 0 stdout stderr :: _ => listedIndices stdout stderr
  | _ => []

theorem enumerated_failed {returncode : Int} (h : returncode ≠ 0) (stdout stderr : Str)
    (rs : List RunResult) : enumerated (.completed returncode stdout stderr :: rs) = [] := by
  unfold enumerated
  split
  · next heq =>
    cases heq
    exact absurd rfl h
  · rfl

/-- A modem that is present is enabled, or none is present and the listing names no disabled one. -/
def EnabledToWatch (t : ModemTable) (rs : List RunResult) : Prop :=
  (∃ r ∈ t.rows, r.isPresent = true ∧ r.enabled = true) ∨
  (∀ r ∈ t.rows, r.isPresent = false) ∧ AllEnabled t (enumerated rs)

section Watched
variable {cfg : MmcliSettings} {t : ModemTable} {rs : List RunResult}

theorem indices_eq_nil {q : ModemDevice → Bool} :
    t.indices q = [] ↔ ∀ r ∈ t.rows, q r = false := by
  rw [ModemTable.indices, List.map_eq_nil_iff, ordered, ← List.length_eq_zero_iff,
    List.length_insertionSort, List.length_eq_zero_iff, List.filter_eq_nil_iff]
  simp only [Bool.not_eq_true]

/-- Both functions, with their fallbacks in order. -/
theorem listWatcherModemIndices_eq : listWatcherModemIndices cfg t rs =
    (if t.indices (fun r => r.isPresent && r.enabled) ≠ [] then
      Script.pure (t.indices (fun r => r.isPresent && r.enabled))
    else if t.indices (·.isPresent) ≠ [] then Script.pure (t.indices (·.isPresent))
    else Script.handle (listModemIndices cfg) (fun _ => some (Script.pure []))) t rs := by
  have hwatcher : listWatcherModemIndices cfg t rs =
      (if t.indices (fun r => r.isPresent && r.enabled) ≠ [] then
        Script.pure (t.indices (fun r => r.isPresent && r.enabled))
      else listPresentModemIndices cfg) t rs := rfl
  rw [hwatcher]
  split
  · rfl
  · rfl

/-- After an exception of the listing it names nothing. -/
theorem handle_listModemIndices (r : RunResult) :
    Script.handle (listModemIndices cfg) (fun _ => some (Script.pure [])) t (r :: rs) =
      some (.ok (enumerated (r :: rs)), t, rs) := by
  cases r with
  | completed returncode stdout stderr =>
    by_cases hzero : returncode = 0
    · subst hzero
      rfl
    · obtain ⟨exc, hfailed⟩ := @listModemIndices_failed _ cfg t rs returncode stdout stderr hzero
      unfold Script.handle
      rw [hfailed, enumerated_failed hzero]
      rfl
  | timeout => rfl
  | launchFailed => rfl

theorem watchesNoDisabled_of_result {indices : List Nat} {rest : List RunResult}
    (h : listWatcherModemIndices cfg t rs = some (.ok indices, t, rest)) :
    WatchesNoDisabled cfg t rs ↔ AllEnabled t indices := by
  unfold WatchesNoDisabled
  rw [h]
  constructor
  · exact fun hall => hall _ _ _ rfl
  · intro henabled indices' t' rest' heq
    cases heq
    exact henabled

theorem allEnabled_indices {q : ModemDevice → Bool} :
    AllEnabled t (t.indices q) ↔ ∀ r ∈ t.rows, q r = true → r.enabled = true := by
  constructor
  · intro h r hr hq
    have hget := KeyedTable.get?_of_mem hr
    exact h _ (ModemTable.mem_indices.mpr ⟨r, hget, hq⟩) r hget
  · intro h k hk r hget
    obtain ⟨r', hget', hq⟩ := ModemTable.mem_indices.mp hk
    cases hget.symm.trans hget'
    exact h r (KeyedTable.get?_eq_some.mp hget).1 hq

end Watched

/-- The filter holds as long as it leaves a row; the first fallback drops it. -/
theorem disabled_not_watched_iff (cfg : MmcliSettings) (t : ModemTable) (rs : List RunResult) :
    WatchesNoDisabled cfg t rs ↔ EnabledToWatch t rs := by
  by_cases hwatch : t.indices (fun r => r.isPresent && r.enabled) = []
  · have hdisabled : ∀ r ∈ t.rows, r.isPresent = true → r.enabled = false := by
      intro r hr hpresent
      have hboth := indices_eq_nil.mp hwatch r hr
      rwa [hpresent, Bool.true_and] at hboth
    have hnone : ¬ ∃ r ∈ t.rows, r.isPresent = true ∧ r.enabled = true := by
      rintro ⟨r, hr, hpresent, henabled⟩
      rw [hdisabled r hr hpresent] at henabled
      cases henabled
    rw [EnabledToWatch, or_iff_right hnone]
    by_cases hpresent : t.indices (·.isPresent) = []
    · rw [and_iff_right (indices_eq_nil.mp hpresent)]
      have hcall := @listWatcherModemIndices_eq cfg t rs
      rw [if_neg (not_not.mpr hwatch), if_neg (not_not.mpr hpresent)] at hcall
      cases rs with
      | nil =>
        -- the listing has no answer, and names nothing
        refine iff_of_true ?_ ?_
        · intro indices t' rest h
          rw [hcall] at h
          cases h
        · intro k hk
          cases hk
      | cons r rs =>
        rw [handle_listModemIndices] at hcall
        exact watchesNoDisabled_of_result hcall
    · have hcall : listWatcherModemIndices cfg t rs =
          some (.ok (t.indices (·.isPresent)), t, rs) := by
        rw [listWatcherModemIndices_eq, if_neg (not_not.mpr hwatch), if_pos hpresent]
        rfl
      have hsome : ¬ ∀ r ∈ t.rows, r.isPresent = false :=
        fun habsent => hpresent (indices_eq_nil.mpr habsent)
      rw [watchesNoDisabled_of_result hcall, allEnabled_indices]
      refine iff_of_false ?_ (fun h => hsome h.1)
      intro henabled
      apply hsome
      intro r hr
      by_contra hr'
      rw [Bool.not_eq_false] at hr'
      exact hnone ⟨r, hr, hr', henabled r hr hr'⟩
  · have hcall : listWatcherModemIndices cfg t rs =
        some (.ok (t.indices (fun r => r.isPresent && r.enabled)), t, rs) := by
      rw [listWatcherModemIndices_eq, if_pos hwatch]
      rfl
    rw [watchesNoDisabled_of_result hcall, allEnabled_indices]
    refine iff_of_true ?_ (Or.inl ?_)
    · intro r _ hboth
      exact (Bool.and_eq_true _ _ ▸ hboth).2
    · by_contra hnone
      apply hwatch
      rw [indices_eq_nil]
      intro r hr
      by_contra hboth
      rw [Bool.not_eq_false, Bool.and_eq_true] at hboth
      exact hnone ⟨r, hr, hboth⟩

/-- One modem, which is present and disabled. -/
def onlyDisabled : ModemTable where
  rows := [{ modemIndex := 0, dbusPath := modemPath ++ "0".toList, enabled := false
             isPresent := true, firstDetectedAt := 0, lastDetectedAt := 0 }]
  distinct := by decide

/-- It is watched. -/
theorem only_disabled_is_watched :
    ¬ ∀ (cfg : MmcliSettings) (t : ModemTable) (rs : List RunResult),
      WatchesNoDisabled cfg t rs := by
  intro h
  have hcall : listWatcherModemIndices MmcliSettings.unset onlyDisabled [] =
      some (.ok [0], onlyDisabled, []) := rfl
  have henabled := h _ onlyDisabled [] _ _ _ hcall 0 (by decide) _ rfl
  cases henabled

end HiWaveTel
