import HiWaveTel.Models
import Mathlib.Algebra.Group.Nat.Defs
import Mathlib.Data.List.Sort

/- The dead-letter queue (`dead_letter_queue.py`): an SQLite table of the paths whose
   persist failed, keyed by path. Each method holds the queue's lock around one
   connection, so each is one atomic step on the table. `process_batch` is in
   `DlqRetry`, since it calls `persist_inbound_sms`.

   `Holds q t` says that path `q` has an entry. What the methods do to it is all that
   the loss results need: `enqueue` adds the path it is given and drops none, a mark
   of a failed retry drops none, and only the two deletions drop the paths they name. -/
namespace HiWaveTel
open Foundation

abbrev DlqTable := Table DlqRow

/-- `SMS_DLQ_MAX_SIZE`, `SMS_DLQ_RETRY_INTERVAL_SEC`, `SMS_DLQ_MAX_RETRIES`. -/
structure DlqSettings where
  maxSize : Nat
  retryIntervalSec : Nat
  maxRetries : Nat
  deriving DecidableEq, Repr

/-- The VALUES of the INSERT. -/
def newDlqRow (smsPath : Str) (modemIndex : Nat) (error : Str) (now : Nat) : NewRow DlqRow where
  sought r := r.smsPath == smsPath
  make n :=
    { id := n, smsPath, modemIndex, failedAt := now, retryCount := 0, lastError := error.take 2000,
      nextRetryAt := some now }
  pk_make _ := rfl
  sought_make _ := by simp
  clash_sought _ _ h := by simpa [dlq_clash] using h

/-- `ON CONFLICT(sms_path) DO UPDATE`. -/
def onConflict (error : Str) (now : Nat) : RowUpdate DlqRow where
  set r := { r with lastError := error.take 2000, failedAt := now, nextRetryAt := some now }
  pk_set _ := rfl
  clash_left _ _ := Iff.rfl
  clash_right _ _ := Iff.rfl

/-- The upsert of `enqueue`. -/
def upsertDlq (t : DlqTable) (smsPath : Str) (modemIndex : Nat) (error : Str) (now : Nat) :
    DlqTable :=
  match t.getOrCreate (newDlqRow smsPath modemIndex error now) with
  | (t', _, true) => t'
  | (t', r, false) => t'.update r.id (onConflict error now)

/-- `enqueue`: the table afterwards, and whether the path is in it. -/
def enqueueDlq (cfg : DlqSettings) (t : DlqTable) (smsPath : Str) (modemIndex : Nat) (error : Str)
    (now : Nat) : DlqTable × Bool :=
  if cfg.maxSize ≤ t.rows.length then (t, false)
  else (upsertDlq t smsPath modemIndex error now, true)

/-- The rows `dequeue_batch` selects, oldest failure first. -/
def dueRows (cfg : DlqSettings) (t : DlqTable) (now : Nat) : List DlqRow :=
  (t.rows.filter (fun r => decide (r.retryCount < cfg.maxRetries) &&
    (r.nextRetryAt.elim true (fun at_ => decide (at_ ≤ now))))).insertionSort
      (fun a b => a.failedAt ≤ b.failedAt)

/-- What a batch keeps of a row. -/
structure DlqItem where
  rowId : Nat
  smsPath : Str
  modemIndex : Nat
  deriving DecidableEq, Repr

def DlqRow.item (r : DlqRow) : DlqItem := ⟨r.id, r.smsPath, r.modemIndex⟩

def dequeueBatch (cfg : DlqSettings) (t : DlqTable) (now limit : Nat) : List DlqItem :=
  ((dueRows cfg t now).take limit).map DlqRow.item

def markRecovered (t : DlqTable) (rowId : Nat) : DlqTable := t.deleteWhere (fun r => r.id == rowId)

def removeByPath (t : DlqTable) (smsPath : Str) : DlqTable :=
  t.deleteWhere (fun r => r.smsPath == smsPath)

/-- The delay before the next retry, in microseconds: doubled up to six times, an hour
    at most. -/
def retryDelay (cfg : DlqSettings) (newCount : Nat) : Nat :=
  min 3600 (cfg.retryIntervalSec * 2 ^ min newCount 6) * 1000000

/-- The UPDATE of `mark_retry_failed`; it adds to the count it reads under the lock. -/
def retryFailed (cfg : DlqSettings) (error : Str) (now : Nat) : RowUpdate DlqRow where
  set r := { r with retryCount := r.retryCount + 1, lastError := error.take 2000,
                    nextRetryAt := some (now + retryDelay cfg (r.retryCount + 1)) }
  pk_set _ := rfl
  clash_left _ _ := Iff.rfl
  clash_right _ _ := Iff.rfl

def markRetryFailed (cfg : DlqSettings) (t : DlqTable) (rowId : Nat) (error : Str) (now : Nat) :
    DlqTable :=
  t.update rowId (retryFailed cfg error now)

/-! ## Which paths have an entry -/

def Holds (q : Str) (t : DlqTable) : Prop := ∃ r ∈ t.rows, r.smsPath = q

instance (q : Str) (t : DlqTable) : Decidable (Holds q t) :=
  inferInstanceAs (Decidable (∃ r ∈ t.rows, r.smsPath = q))

/-- An UPDATE that leaves the paths alone leaves the entries alone. -/
theorem holds_update {t : DlqTable} {p : Nat} {u : RowUpdate DlqRow} {q : Str}
    (hu : ∀ r, (u.set r).smsPath = r.smsPath) : Holds q (t.update p u) ↔ Holds q t :=
  Table.exists_mem_update (fun r => by rw [hu])

theorem holds_markRetryFailed {cfg : DlqSettings} {t : DlqTable} {rowId now : Nat} {error q : Str} :
    Holds q (markRetryFailed cfg t rowId error now) ↔ Holds q t :=
  holds_update (fun _ => rfl)

theorem holds_upsertDlq {t : DlqTable} {smsPath error q : Str} {modemIndex now : Nat} :
    Holds q (upsertDlq t smsPath modemIndex error now) ↔ q = smsPath ∨ Holds q t := by
  unfold upsertDlq
  rcases t.getOrCreate_cases (newDlqRow smsPath modemIndex error now) with ⟨r, hr, he⟩ | ⟨h, he⟩
  · rw [he]
    have hsmsPath : r.smsPath = smsPath := by
      simpa [newDlqRow] using List.find?_some hr
    have hheld : Holds smsPath t := ⟨r, List.mem_of_find?_eq_some hr, hsmsPath⟩
    show Holds q (t.update r.id (onConflict error now)) ↔ _
    rw [holds_update (fun _ => rfl)]
    refine ⟨Or.inr, ?_⟩
    intro hq
    rcases hq with rfl | hq
    · exact hheld
    · exact hq
  · rw [he]
    simp [Holds, newDlqRow, or_comm, eq_comm]

/-- What `enqueue` accepts has an entry afterwards. -/
theorem holds_of_enqueueDlq {cfg : DlqSettings} {t : DlqTable} {smsPath error : Str}
    {modemIndex now : Nat} (h : (enqueueDlq cfg t smsPath modemIndex error now).2 = true) :
    Holds smsPath (enqueueDlq cfg t smsPath modemIndex error now).1 := by
  unfold enqueueDlq at h ⊢
  split
  · next hfull => simp [hfull] at h
  · exact holds_upsertDlq.mpr (Or.inl rfl)

/-- `enqueue` drops no entry. -/
theorem holds_enqueueDlq_of_holds {cfg : DlqSettings} {t : DlqTable} {smsPath error q : Str}
    {modemIndex now : Nat} (h : Holds q t) :
    Holds q (enqueueDlq cfg t smsPath modemIndex error now).1 := by
  unfold enqueueDlq
  split
  · exact h
  · exact holds_upsertDlq.mpr (Or.inr h)

theorem holds_removeByPath {t : DlqTable} {smsPath q : Str} :
    Holds q (removeByPath t smsPath) ↔ Holds q t ∧ q ≠ smsPath := by
  unfold Holds removeByPath
  simp only [Table.mem_deleteWhere, beq_eq_false_iff_ne]
  refine ⟨?_, ?_⟩
  · intro h
    obtain ⟨r, ⟨hr, hne⟩, rfl⟩ := h
    exact ⟨⟨r, hr, rfl⟩, hne⟩
  · intro h
    obtain ⟨⟨r, hr, rfl⟩, hne⟩ := h
    exact ⟨r, ⟨hr, hne⟩, rfl⟩

/-- `mark_recovered` drops at most the entry with its id. -/
theorem holds_markRecovered {t : DlqTable} {rowId : Nat} {q : Str} :
    Holds q (markRecovered t rowId) ↔ ∃ r ∈ t.rows, r.smsPath = q ∧ r.id ≠ rowId := by
  unfold Holds markRecovered
  simp only [Table.mem_deleteWhere, beq_eq_false_iff_ne]
  refine ⟨?_, ?_⟩
  · intro h
    obtain ⟨r, ⟨hr, hne⟩, hq⟩ := h
    exact ⟨r, hr, hq, hne⟩
  · intro h
    obtain ⟨r, hr, hq, hne⟩ := h
    exact ⟨r, ⟨hr, hne⟩, hq⟩

/-! ## The entries as a batch sees them -/

def dlqItems (t : DlqTable) : List DlqItem := t.rows.map DlqRow.item

theorem mem_dlqItems_markRetryFailed {cfg : DlqSettings} {t : DlqTable} {rowId now : Nat}
    {error : Str} {item : DlqItem} :
    item ∈ dlqItems (markRetryFailed cfg t rowId error now) ↔ item ∈ dlqItems t := by
  have hitems : dlqItems (markRetryFailed cfg t rowId error now) = dlqItems t := by
    show (t.rows.map _).map DlqRow.item = t.rows.map DlqRow.item
    rw [List.map_map]
    apply List.map_congr_left
    intro r _
    simp only [Function.comp]
    split <;> rfl
  rw [hitems]

theorem mem_dlqItems_markRecovered {t : DlqTable} {rowId : Nat} {item : DlqItem} :
    item ∈ dlqItems (markRecovered t rowId) ↔ item ∈ dlqItems t ∧ item.rowId ≠ rowId := by
  unfold dlqItems markRecovered
  simp only [List.mem_map, Table.mem_deleteWhere, beq_eq_false_iff_ne]
  refine ⟨?_, ?_⟩
  · intro h
    obtain ⟨r, ⟨hr, hne⟩, rfl⟩ := h
    exact ⟨⟨r, hr, rfl⟩, hne⟩
  · intro h
    obtain ⟨⟨r, hr, rfl⟩, hne⟩ := h
    exact ⟨r, ⟨hr, hne⟩, rfl⟩

theorem mem_dlqItems_removeByPath {t : DlqTable} {smsPath : Str} {item : DlqItem} :
    item ∈ dlqItems (removeByPath t smsPath) ↔ item ∈ dlqItems t ∧ item.smsPath ≠ smsPath := by
  unfold dlqItems removeByPath
  simp only [List.mem_map, Table.mem_deleteWhere, beq_eq_false_iff_ne]
  refine ⟨?_, ?_⟩
  · intro h
    obtain ⟨r, ⟨hr, hne⟩, rfl⟩ := h
    exact ⟨⟨r, hr, rfl⟩, hne⟩
  · intro h
    obtain ⟨⟨r, hr, rfl⟩, hne⟩ := h
    exact ⟨r, ⟨hr, hne⟩, rfl⟩

theorem mem_dequeueBatch {cfg : DlqSettings} {t : DlqTable} {now limit : Nat} {item : DlqItem}
    (h : item ∈ dequeueBatch cfg t now limit) : item ∈ dlqItems t := by
  obtain ⟨r, hr, he⟩ := List.mem_map.mp h
  have hr := (List.mem_insertionSort _).mp (List.mem_of_mem_take hr)
  exact List.mem_map.mpr ⟨r, (List.mem_filter.mp hr).1, he⟩

/-- Two entries of a table share neither id nor path. -/
theorem dlqItem_ext {t : DlqTable} {a b : DlqItem} (ha : a ∈ dlqItems t) (hb : b ∈ dlqItems t)
    (h : a.rowId = b.rowId ∨ a.smsPath = b.smsPath) : a = b := by
  obtain ⟨r, hr, rfl⟩ := List.mem_map.mp ha
  obtain ⟨s, hs, rfl⟩ := List.mem_map.mp hb
  rcases h with hid | hpath
  · rw [t.pk_injOn hr hs hid]
  · rw [t.eq_of_clash hr hs ((dlq_clash r s).mpr hpath)]

/-- A batch has no entry twice. -/
theorem dequeueBatch_nodup (cfg : DlqSettings) (t : DlqTable) (now limit : Nat) :
    (dequeueBatch cfg t now limit).Nodup := by
  have hids : (t.rows.map Row.pk).Nodup := List.pairwise_map.mpr t.pk_ne
  have hitems : (t.rows.map DlqRow.item).Nodup := by
    apply List.Nodup.of_map DlqItem.rowId
    rw [List.map_map]
    exact hids
  -- filter, sort and take keep that
  have hrows : (t.rows.filter (fun r => decide (r.retryCount < cfg.maxRetries) &&
      (r.nextRetryAt.elim true (fun at_ => decide (at_ ≤ now))))).map DlqRow.item |>.Nodup :=
    hitems.sublist (List.filter_sublist.map _)
  have hsorted : ((dueRows cfg t now).map DlqRow.item).Nodup :=
    ((List.perm_insertionSort _ _).map DlqRow.item).nodup_iff.mpr hrows
  exact hsorted.sublist ((List.take_sublist limit _).map _)

/-! ## An id and its path -/

/-- An operation uses no id again and changes the path of no entry. -/
structure DlqKeeps (t t' : DlqTable) : Prop where
  nextPk_le : t.nextPk ≤ t'.nextPk
  entry : ∀ r' ∈ t'.rows, (∃ r ∈ t.rows, r.id = r'.id ∧ r.smsPath = r'.smsPath) ∨ t.nextPk ≤ r'.id

theorem DlqKeeps.refl (t : DlqTable) : DlqKeeps t t :=
  ⟨Nat.le_refl _, fun r hr => Or.inl ⟨r, hr, rfl, rfl⟩⟩

theorem dlqKeeps_update (t : DlqTable) (p : Nat) {u : RowUpdate DlqRow}
    (hu : ∀ r, (u.set r).smsPath = r.smsPath) : DlqKeeps t (t.update p u) := by
  refine ⟨Nat.le_refl _, ?_⟩
  intro r' hr'
  obtain ⟨r, hr, _, rfl⟩ | ⟨hr, _⟩ := Table.mem_update.mp hr'
  · exact Or.inl ⟨r, hr, (u.pk_set r).symm, (hu r).symm⟩
  · exact Or.inl ⟨r', hr, rfl, rfl⟩

theorem dlqKeeps_deleteWhere (t : DlqTable) (q : DlqRow → Bool) : DlqKeeps t (t.deleteWhere q) := by
  refine ⟨Nat.le_refl _, ?_⟩
  intro r hr
  exact Or.inl ⟨r, (Table.mem_deleteWhere.mp hr).1, rfl, rfl⟩

theorem dlqKeeps_enqueueDlq (cfg : DlqSettings) (t : DlqTable) (smsPath : Str) (modemIndex : Nat)
    (error : Str) (now : Nat) : DlqKeeps t (enqueueDlq cfg t smsPath modemIndex error now).1 := by
  unfold enqueueDlq
  split
  · exact DlqKeeps.refl t
  · show DlqKeeps t (upsertDlq t smsPath modemIndex error now)
    unfold upsertDlq
    rcases t.getOrCreate_cases (newDlqRow smsPath modemIndex error now) with ⟨r, _, he⟩ | ⟨h, he⟩
    · rw [he]
      exact dlqKeeps_update t _ (fun _ => rfl)
    · rw [he]
      refine ⟨Nat.le_succ _, ?_⟩
      intro r hr
      rcases List.mem_append.mp hr with hold | hnew
      · exact Or.inl ⟨r, hold, rfl, rfl⟩
      · rw [List.mem_singleton.mp hnew]
        exact Or.inr (Nat.le_refl _)

/-- The table can have no other path under the id of the item. -/
def Fits (t : DlqTable) (item : DlqItem) : Prop :=
  item.rowId < t.nextPk ∧ ∀ r ∈ t.rows, r.id = item.rowId → r.smsPath = item.smsPath

theorem fits_of_mem {t : DlqTable} {item : DlqItem} (h : item ∈ dlqItems t) : Fits t item := by
  obtain ⟨r, hr, rfl⟩ := List.mem_map.mp h
  refine ⟨t.pk_lt r hr, ?_⟩
  intro s hs hid
  rw [t.pk_injOn hs hr hid]
  rfl

theorem Fits.keeps {t t' : DlqTable} {item : DlqItem} (h : Fits t item) (hk : DlqKeeps t t') :
    Fits t' item := by
  refine ⟨Nat.lt_of_lt_of_le h.1 hk.nextPk_le, ?_⟩
  intro r' hr' hid
  obtain ⟨r, hr, hrid, hpath⟩ | hnew := hk.entry r' hr'
  · rw [← hpath]
    exact h.2 r hr (hrid.trans hid)
  · have hlt := h.1
    omega

/-- Deleting the id of an item drops no other path. -/
theorem holds_markRecovered_of_ne {t : DlqTable} {item : DlqItem} {q : Str} (h : Fits t item)
    (hq : Holds q t) (hne : q ≠ item.smsPath) : Holds q (markRecovered t item.rowId) := by
  obtain ⟨r, hr, hpath⟩ := hq
  refine holds_markRecovered.mpr ⟨r, hr, hpath, ?_⟩
  intro hid
  exact hne (hpath.symm.trans (h.2 r hr hid))

end HiWaveTel
