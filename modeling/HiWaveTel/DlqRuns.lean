import HiWaveTel.DlqRetry
import HiWaveTel.Foundation.Run

/- The dead-letter queue over whole runs. Every method of `SmsDeadLetterQueue` is one
   step on the table; `process_batch` of the one processor is the `dequeue_batch` at
   its head and one mark an entry, and other threads take their steps in between, the
   `remove_by_path` of a persist among them. The rows that a batch was made from can
   be gone, or replaced, when their marks arrive.

   1. `dlq_representation`: the bounds of the table in every reachable state, and that
      a mark with the id of a row that is gone changes nothing, since no id is used
      again.
   2. `enqueue_retried_iff`: an accepted path is due at once exactly when the retry
      count that the upsert keeps is below `max_retries`.
   3. `enqueue_refused_iff`: the queue is full by its row count alone, and a row with
      `max_retries` failures leaves by `remove_by_path` only. -/
namespace HiWaveTel
open Foundation

/-! ## The machine -/

/-- The table, and the entries of the current batch that have no mark yet. -/
structure DlqState where
  table : DlqTable
  batch : List DlqItem

/-- `_init_db` on a new file. -/
def newDlq : DlqState := ⟨Table.empty, []⟩

inductive DlqAction where
  | enqueue (smsPath : Str) (modemIndex : Nat) (error : Str) (now : Nat)
  | removeByPath (smsPath : Str)
  | dequeue (now limit : Nat)
  | recovered
  | retryFailed (error : Str) (now : Nat)
  | abandon
  deriving DecidableEq, Repr

section Step
variable (cfg : DlqSettings)

def dlqStep (s : DlqState) : DlqAction → Option DlqState
  | .enqueue smsPath modemIndex error now =>
    some { s with table := (enqueueDlq cfg s.table smsPath modemIndex error now).1 }
  | .removeByPath smsPath => some { s with table := removeByPath s.table smsPath }
  | .dequeue now limit =>
    match s.batch with
    | [] => some { s with batch := dequeueBatch cfg s.table now limit }
    | _ :: _ => none
  | .recovered =>
    match s.batch with
    | [] => none
    | item :: rest => some ⟨markRecovered s.table item.rowId, rest⟩
  | .retryFailed error now =>
    match s.batch with
    | [] => none
    | item :: rest => some ⟨markRetryFailed cfg s.table item.rowId error now, rest⟩
  -- an exception of a mark, or the end of the process
  | .abandon => some { s with batch := [] }

/-- `t` is reached from `s`, with any other threads. -/
def DlqReaches (s t : DlqState) : Prop := Reaches (dlqStep cfg) (fun _ _ => True) s t

end Step

/-! ## What a method does to the entries -/

/-- The same entry, whatever its error and its times. -/
def SameEntry (r r' : DlqRow) : Prop :=
  r'.id = r.id ∧ r'.smsPath = r.smsPath ∧ r'.modemIndex = r.modemIndex ∧
    r'.retryCount = r.retryCount

theorem SameEntry.refl (r : DlqRow) : SameEntry r r := ⟨rfl, rfl, rfl, rfl⟩

theorem SameEntry.trans {a b c : DlqRow} (h : SameEntry a b) (h' : SameEntry b c) :
    SameEntry a c :=
  ⟨h'.1.trans h.1, h'.2.1.trans h.2.1, h'.2.2.1.trans h.2.2.1, h'.2.2.2.trans h.2.2.2⟩

/-- The three outcomes of an `enqueue`, with all it changes. -/
theorem enqueueDlq_cases (cfg : DlqSettings) (t : DlqTable) (smsPath : Str) (modemIndex : Nat)
    (error : Str) (now : Nat) :
    (cfg.maxSize ≤ t.rows.length ∧ enqueueDlq cfg t smsPath modemIndex error now = (t, false)) ∨
    (t.rows.length < cfg.maxSize ∧ ∃ r ∈ t.rows, r.smsPath = smsPath ∧
      enqueueDlq cfg t smsPath modemIndex error now =
        (t.update r.id (onConflict error now), true)) ∨
    (t.rows.length < cfg.maxSize ∧
      ∃ h : ∀ r ∈ t.rows, (newDlqRow smsPath modemIndex error now).sought r = false,
        enqueueDlq cfg t smsPath modemIndex error now =
          (t.insert (newDlqRow smsPath modemIndex error now) h, true)) := by
  unfold enqueueDlq
  by_cases hfull : cfg.maxSize ≤ t.rows.length
  · exact Or.inl ⟨hfull, if_pos hfull⟩
  · have hroom : t.rows.length < cfg.maxSize := Nat.lt_of_not_le hfull
    rw [if_neg hfull]
    unfold upsertDlq
    rcases t.getOrCreate_cases (newDlqRow smsPath modemIndex error now) with ⟨r, hr, he⟩ | ⟨h, he⟩
    · have hpath : r.smsPath = smsPath := by
        simpa [newDlqRow] using List.find?_some hr
      exact Or.inr (Or.inl ⟨hroom, r, List.mem_of_find?_eq_some hr, hpath, by rw [he]⟩)
    · exact Or.inr (Or.inr ⟨hroom, h, by rw [he]⟩)

/-- A method other than `mark_retry_failed`: what is in the table was there or is new, with
    a count of zero, and the size stays within the limit. -/
structure Carries (cfg : DlqSettings) (t t' : DlqTable) : Prop where
  nextPk_le : t.nextPk ≤ t'.nextPk
  size_le : t'.rows.length ≤ max t.rows.length cfg.maxSize
  entry : ∀ r' ∈ t'.rows,
    (∃ r ∈ t.rows, SameEntry r r') ∨ (t.nextPk ≤ r'.id ∧ r'.retryCount = 0)

theorem carries_deleteWhere (cfg : DlqSettings) (t : DlqTable) (q : DlqRow → Bool) :
    Carries cfg t (t.deleteWhere q) := by
  refine ⟨Nat.le_refl _, ?_, ?_⟩
  · exact Nat.le_trans (List.length_filter_le _ _) (Nat.le_max_left _ _)
  · intro r hr
    exact Or.inl ⟨r, (Table.mem_deleteWhere.mp hr).1, SameEntry.refl r⟩

theorem length_update (t : DlqTable) (p : Nat) (u : RowUpdate DlqRow) :
    (t.update p u).rows.length = t.rows.length := List.length_map _

theorem sameEntry_onConflict (error : Str) (now : Nat) (r : DlqRow) :
    SameEntry r ((onConflict error now).set r) := ⟨rfl, rfl, rfl, rfl⟩

theorem carries_enqueueDlq (cfg : DlqSettings) (t : DlqTable) (smsPath : Str) (modemIndex : Nat)
    (error : Str) (now : Nat) :
    Carries cfg t (enqueueDlq cfg t smsPath modemIndex error now).1 := by
  obtain ⟨_, he⟩ | ⟨_, r, hr, _, he⟩ | ⟨hroom, h, he⟩ :=
    enqueueDlq_cases cfg t smsPath modemIndex error now
  · rw [he]
    exact ⟨Nat.le_refl _, Nat.le_max_left _ _, fun r hr => Or.inl ⟨r, hr, SameEntry.refl r⟩⟩
  · rw [he]
    refine ⟨Nat.le_refl _, ?_, ?_⟩
    · rw [length_update]
      exact Nat.le_max_left _ _
    · intro r' hr'
      obtain ⟨s, hs, _, rfl⟩ | ⟨hs, _⟩ := Table.mem_update.mp hr'
      · exact Or.inl ⟨s, hs, sameEntry_onConflict error now s⟩
      · exact Or.inl ⟨r', hs, SameEntry.refl r'⟩
  · rw [he]
    refine ⟨Nat.le_succ _, ?_, ?_⟩
    · rw [Table.insert_rows, List.length_append]
      exact Nat.le_trans hroom (Nat.le_max_right _ _)
    · intro r' hr'
      rw [Table.insert_rows] at hr'
      rcases List.mem_append.mp hr' with hold | hnew
      · exact Or.inl ⟨r', hold, SameEntry.refl r'⟩
      · rw [List.mem_singleton.mp hnew]
        exact Or.inr ⟨Nat.le_refl _, rfl⟩

/-- `enqueue` keeps every entry. -/
theorem sameEntry_enqueueDlq {cfg : DlqSettings} {t : DlqTable} {r : DlqRow} (hr : r ∈ t.rows)
    (smsPath : Str) (modemIndex : Nat) (error : Str) (now : Nat) :
    ∃ r' ∈ (enqueueDlq cfg t smsPath modemIndex error now).1.rows, SameEntry r r' := by
  obtain ⟨_, he⟩ | ⟨_, s, _, _, he⟩ | ⟨_, h, he⟩ :=
    enqueueDlq_cases cfg t smsPath modemIndex error now
  · rw [he]
    exact ⟨r, hr, SameEntry.refl r⟩
  · rw [he]
    refine ⟨_, Table.mem_update_of_mem hr s.id (onConflict error now), ?_⟩
    split
    · exact sameEntry_onConflict error now r
    · exact SameEntry.refl r
  · rw [he]
    exact ⟨r, List.mem_append_left _ hr, SameEntry.refl r⟩

/-- `mark_retry_failed` adds one to the count of the row with its id. -/
theorem mem_markRetryFailed {cfg : DlqSettings} {t : DlqTable} {rowId now : Nat} {error : Str}
    {r' : DlqRow} (h : r' ∈ (markRetryFailed cfg t rowId error now).rows) :
    ∃ r ∈ t.rows, r'.id = r.id ∧ r'.smsPath = r.smsPath ∧
      r'.retryCount = if r.id = rowId then r.retryCount + 1 else r.retryCount := by
  obtain ⟨r, hr, hid, rfl⟩ | ⟨hr, hid⟩ := Table.mem_update.mp h
  · exact ⟨r, hr, rfl, rfl, (if_pos hid).symm⟩
  · exact ⟨r', hr, rfl, rfl, (if_neg hid).symm⟩

/-! ## What a step does -/

/-- A step keeps the entries but for a failed retry, which counts for the head of the
    batch; and a batch shrinks but for a `dequeue_batch`. -/
theorem dlqStep_cases {cfg : DlqSettings} {s s' : DlqState} {a : DlqAction}
    (h : dlqStep cfg s a = some s') :
    (Carries cfg s.table s'.table ∧ s'.batch <:+ s.batch) ∨
    (s'.table = s.table ∧ ∃ now limit, s'.batch = dequeueBatch cfg s.table now limit) ∨
    (∃ item error now, s.batch = item :: s'.batch ∧
      s'.table = markRetryFailed cfg s.table item.rowId error now) := by
  cases a with
  | enqueue smsPath modemIndex error now =>
    cases h
    exact Or.inl ⟨carries_enqueueDlq cfg s.table smsPath modemIndex error now, List.suffix_rfl⟩
  | removeByPath smsPath =>
    cases h
    exact Or.inl ⟨carries_deleteWhere cfg s.table _, List.suffix_rfl⟩
  | dequeue now limit =>
    cases hb : s.batch with
    | nil =>
      simp only [dlqStep, hb] at h
      cases h
      exact Or.inr (Or.inl ⟨rfl, now, limit, rfl⟩)
    | cons item rest => simp [dlqStep, hb] at h
  | recovered =>
    cases hb : s.batch with
    | nil => simp [dlqStep, hb] at h
    | cons item rest =>
      simp only [dlqStep, hb] at h
      cases h
      exact Or.inl ⟨carries_deleteWhere cfg s.table _, List.suffix_cons item rest⟩
  | retryFailed error now =>
    cases hb : s.batch with
    | nil => simp [dlqStep, hb] at h
    | cons item rest =>
      simp only [dlqStep, hb] at h
      cases h
      exact Or.inr (Or.inr ⟨item, error, now, rfl, rfl⟩)
  | abandon =>
    cases h
    refine Or.inl ⟨?_, List.nil_suffix⟩
    exact ⟨Nat.le_refl _, Nat.le_max_left _ _, fun r hr => Or.inl ⟨r, hr, SameEntry.refl r⟩⟩

/-! ## The invariant -/

/-- The bounds of the table, and what the processor may rely on for the rest of its batch:
    a row that still has the id of an item may be retried. -/
structure DlqWithin (cfg : DlqSettings) (s : DlqState) : Prop where
  size_le : s.table.rows.length ≤ cfg.maxSize
  count_le : ∀ r ∈ s.table.rows, r.retryCount ≤ cfg.maxRetries
  batch_ids : (s.batch.map DlqItem.rowId).Nodup
  batch_lt : ∀ item ∈ s.batch, item.rowId < s.table.nextPk
  batch_count : ∀ item ∈ s.batch, ∀ r ∈ s.table.rows, r.id = item.rowId →
    r.retryCount < cfg.maxRetries

theorem newDlq_within (cfg : DlqSettings) : DlqWithin cfg newDlq := by
  refine ⟨Nat.zero_le _, ?_, List.nodup_nil, ?_, ?_⟩
  · intro r hr
    cases hr
  · intro item hitem
    cases hitem
  · intro item hitem
    cases hitem

theorem mem_dequeueBatch_row {cfg : DlqSettings} {t : DlqTable} {now limit : Nat} {item : DlqItem}
    (h : item ∈ dequeueBatch cfg t now limit) :
    ∃ r ∈ t.rows, r.item = item ∧ r.retryCount < cfg.maxRetries := by
  obtain ⟨r, hr, he⟩ := List.mem_map.mp h
  obtain ⟨hmem, hdue⟩ :=
    List.mem_filter.mp ((List.mem_insertionSort _).mp (List.mem_of_mem_take hr))
  simp only [Bool.and_eq_true, decide_eq_true_eq] at hdue
  exact ⟨r, hmem, he, hdue.1⟩

theorem dequeueBatch_ids (cfg : DlqSettings) (t : DlqTable) (now limit : Nat) :
    ((dequeueBatch cfg t now limit).map DlqItem.rowId).Nodup := by
  refine (dequeueBatch_nodup cfg t now limit).map_on ?_
  intro a ha b hb hid
  exact dlqItem_ext (mem_dequeueBatch ha) (mem_dequeueBatch hb) (Or.inl hid)

theorem DlqWithin.carries {cfg : DlqSettings} {s s' : DlqState} (h : DlqWithin cfg s)
    (hc : Carries cfg s.table s'.table) (hb : s'.batch <:+ s.batch) : DlqWithin cfg s' := by
  refine ⟨?_, ?_, ?_, ?_, ?_⟩
  · have hsize := hc.size_le
    rw [max_eq_right h.size_le] at hsize
    exact hsize
  · intro r' hr'
    rcases hc.entry r' hr' with ⟨r, hr, hsame⟩ | ⟨_, hzero⟩
    · rw [hsame.2.2.2]
      exact h.count_le r hr
    · rw [hzero]
      exact Nat.zero_le _
  · exact h.batch_ids.sublist (hb.sublist.map _)
  · intro item hitem
    exact Nat.lt_of_lt_of_le (h.batch_lt item (hb.mem hitem)) hc.nextPk_le
  · intro item hitem r' hr' hid
    rcases hc.entry r' hr' with ⟨r, hr, hsame⟩ | ⟨hnew, _⟩
    · rw [hsame.2.2.2]
      exact h.batch_count item (hb.mem hitem) r hr (hsame.1.symm.trans hid)
    · -- the id of a new row is in no batch
      have hlt := h.batch_lt item (hb.mem hitem)
      omega

theorem DlqWithin.dequeue {cfg : DlqSettings} {s s' : DlqState} {now limit : Nat}
    (h : DlqWithin cfg s) (ht : s'.table = s.table)
    (hb : s'.batch = dequeueBatch cfg s.table now limit) : DlqWithin cfg s' := by
  refine ⟨ht ▸ h.size_le, ht ▸ h.count_le, ?_, ?_, ?_⟩
  · rw [hb]
    exact dequeueBatch_ids cfg s.table now limit
  · intro item hitem
    rw [hb] at hitem
    obtain ⟨r, hr, rfl, _⟩ := mem_dequeueBatch_row hitem
    rw [ht]
    exact s.table.pk_lt r hr
  · intro item hitem r hr hid
    rw [hb] at hitem
    rw [ht] at hr
    obtain ⟨r', hr', rfl, hcount⟩ := mem_dequeueBatch_row hitem
    rw [s.table.pk_injOn hr hr' hid]
    exact hcount

theorem DlqWithin.retryFailed {cfg : DlqSettings} {s s' : DlqState} {item : DlqItem} {error : Str}
    {now : Nat} (h : DlqWithin cfg s) (hb : s.batch = item :: s'.batch)
    (ht : s'.table = markRetryFailed cfg s.table item.rowId error now) : DlqWithin cfg s' := by
  have hids := h.batch_ids
  rw [hb, List.map_cons, List.nodup_cons] at hids
  have hmem : ∀ x ∈ s'.batch, x ∈ s.batch := by
    intro x hx
    rw [hb]
    exact List.mem_cons_of_mem _ hx
  have hhead : item ∈ s.batch := by
    rw [hb]
    exact List.mem_cons_self
  refine ⟨?_, ?_, hids.2, ?_, ?_⟩
  · rw [ht, markRetryFailed, length_update]
    exact h.size_le
  · intro r' hr'
    rw [ht] at hr'
    obtain ⟨r, hr, _, _, hcount⟩ := mem_markRetryFailed hr'
    rw [hcount]
    split
    · next hid => exact h.batch_count item hhead r hr hid
    · exact h.count_le r hr
  · intro x hx
    rw [ht]
    exact h.batch_lt x (hmem x hx)
  · intro x hx r' hr' hid
    rw [ht] at hr'
    obtain ⟨r, hr, hrid, _, hcount⟩ := mem_markRetryFailed hr'
    -- the rest of the batch has other ids than the head
    have hne : r.id ≠ item.rowId := by
      intro he
      have hx' := List.mem_map_of_mem (f := DlqItem.rowId) hx
      rw [← hid, hrid, he] at hx'
      exact hids.1 hx'
    rw [hcount, if_neg hne]
    exact h.batch_count x (hmem x hx) r hr (hrid.symm.trans hid)

theorem dlqStep_within {cfg : DlqSettings} {s s' : DlqState} {a : DlqAction}
    (h : DlqWithin cfg s) (hs : dlqStep cfg s a = some s') : DlqWithin cfg s' := by
  rcases dlqStep_cases hs with ⟨hc, hb⟩ | ⟨ht, now, limit, hb⟩ | ⟨item, error, now, hb, ht⟩
  · exact h.carries hc hb
  · exact h.dequeue ht hb
  · exact h.retryFailed hb ht

theorem within_of_reaches {cfg : DlqSettings} {s s' : DlqState} (h : DlqReaches cfg s s')
    (hs : DlqWithin cfg s) : DlqWithin cfg s' :=
  h.invariant (fun _ _ _ hi _ hstep => dlqStep_within hi hstep) hs

/-! ## Ids that are gone -/

/-- The id was given to a row that is no longer there. -/
def IdGone (p : Nat) (t : DlqTable) : Prop := p < t.nextPk ∧ ∀ r ∈ t.rows, r.id ≠ p

/-- AUTOINCREMENT: it is not given again. -/
theorem idGone_step {cfg : DlqSettings} {s s' : DlqState} {a : DlqAction} {p : Nat}
    (h : IdGone p s.table) (hs : dlqStep cfg s a = some s') : IdGone p s'.table := by
  rcases dlqStep_cases hs with ⟨hc, _⟩ | ⟨ht, _⟩ | ⟨item, error, now, _, ht⟩
  · refine ⟨Nat.lt_of_lt_of_le h.1 hc.nextPk_le, ?_⟩
    intro r' hr' hid
    rcases hc.entry r' hr' with ⟨r, hr, hsame⟩ | ⟨hnew, _⟩
    · exact h.2 r hr (hsame.1.symm.trans hid)
    · have hlt := h.1
      omega
  · rw [ht]
    exact h
  · rw [ht]
    refine ⟨h.1, ?_⟩
    intro r' hr' hid
    obtain ⟨r, hr, hrid, _⟩ := mem_markRetryFailed hr'
    exact h.2 r hr (hrid.symm.trans hid)

theorem idGone_of_reaches {cfg : DlqSettings} {s s' : DlqState} {p : Nat}
    (h : DlqReaches cfg s s') (hp : IdGone p s.table) : IdGone p s'.table :=
  h.invariant (I := fun s => IdGone p s.table) (fun _ _ _ hi _ hstep => idGone_step hi hstep) hp

theorem nextPk_le_of_reaches {cfg : DlqSettings} {s s' : DlqState} (h : DlqReaches cfg s s') :
    s.table.nextPk ≤ s'.table.nextPk := by
  refine h.invariant (I := fun u => s.table.nextPk ≤ u.table.nextPk) ?_ (Nat.le_refl _)
  intro u a v hu _ hstep
  rcases dlqStep_cases hstep with ⟨hc, _⟩ | ⟨ht, _⟩ | ⟨_, _, _, _, ht⟩
  · exact Nat.le_trans hu hc.nextPk_le
  · rw [ht]
    exact hu
  · rw [ht]
    exact hu

theorem markRecovered_of_gone {t : DlqTable} {p : Nat} (h : ∀ r ∈ t.rows, r.id ≠ p) :
    markRecovered t p = t := by
  refine Table.ext ?_ rfl
  show t.rows.filter _ = t.rows
  rw [List.filter_eq_self]
  intro r hr
  simpa using h r hr

theorem markRetryFailed_of_gone {cfg : DlqSettings} {t : DlqTable} {p : Nat}
    (h : ∀ r ∈ t.rows, r.id ≠ p) (error : Str) (now : Nat) :
    markRetryFailed cfg t p error now = t := by
  refine Table.ext ?_ rfl
  show t.rows.map _ = t.rows
  rw [List.map_congr_left (g := id)]
  · exact List.map_id _
  · intro r hr
    rw [if_neg (by simpa using h r hr)]
    rfl

/-! ## Every reachable state -/

/-- The bounds of the table in every reachable state; and once the row of an entry of a batch
    is gone, its marks change nothing. -/
theorem dlq_representation (cfg : DlqSettings) {s : DlqState} (h : DlqReaches cfg newDlq s) :
    (s.table.rows.map DlqRow.smsPath).Nodup ∧ s.table.rows.length ≤ cfg.maxSize ∧
      (∀ r ∈ s.table.rows, 0 ≤ r.retryCount ∧ r.retryCount ≤ cfg.maxRetries) ∧
      ∀ now limit, ∀ item ∈ dequeueBatch cfg s.table now limit, ∀ removed later,
        DlqReaches cfg s removed → (∀ r ∈ removed.table.rows, r.id ≠ item.rowId) →
        DlqReaches cfg removed later →
        markRecovered later.table item.rowId = later.table ∧
          ∀ error now', markRetryFailed cfg later.table item.rowId error now' = later.table := by
  have hwithin := within_of_reaches h (newDlq_within cfg)
  refine ⟨?_, hwithin.size_le, ?_, ?_⟩
  · exact List.pairwise_map.mpr (s.table.unique.imp (fun hne he => hne ((dlq_clash _ _).mpr he)))
  · intro r hr
    exact ⟨Nat.zero_le _, hwithin.count_le r hr⟩
  · intro now limit item hitem removed later hremoved hgone hlater
    obtain ⟨r, hr, rfl, _⟩ := mem_dequeueBatch_row hitem
    have hlt : r.id < removed.table.nextPk :=
      Nat.lt_of_lt_of_le (s.table.pk_lt r hr) (nextPk_le_of_reaches hremoved)
    have hstill := (idGone_of_reaches hlater ⟨hlt, hgone⟩).2
    exact ⟨markRecovered_of_gone hstill, markRetryFailed_of_gone hstill⟩

def tinyDlq : DlqSettings := ⟨1, 60, 1⟩

def oneFailure : List DlqAction := [.enqueue firstPath 0 [] 10]

/-- The path is stored, dequeued, removed by a persist and stored again before its mark. -/
theorem dlq_representation_reinserted :
    ∃ s removed later : DlqState, DlqReaches tinyDlq newDlq s ∧ DlqReaches tinyDlq s removed ∧
      DlqReaches tinyDlq removed later ∧ s.table.rows.length ≤ 1 ∧
      markRecovered later.table 1 = later.table ∧ later.table.rows ≠ [] := by
  have hreach : ∀ as (s t : DlqState), exec (dlqStep tinyDlq) s as = some t →
      DlqReaches tinyDlq s t := fun as s t he => ⟨as, meets_true s as, he⟩
  obtain ⟨s, hs⟩ : ∃ s, exec (dlqStep tinyDlq) newDlq oneFailure = some s := ⟨_, rfl⟩
  obtain ⟨removed, hremoved⟩ :
      ∃ t, exec (dlqStep tinyDlq) s [.dequeue 10 1, .removeByPath firstPath] = some t := by
    cases hs
    exact ⟨_, rfl⟩
  obtain ⟨later, hlater⟩ : ∃ t, exec (dlqStep tinyDlq) removed oneFailure = some t := by
    cases hs
    cases hremoved
    exact ⟨_, rfl⟩
  have h₁ := hreach _ _ _ hs
  have h₂ := hreach _ _ _ hremoved
  have h₃ := hreach _ _ _ hlater
  obtain ⟨_, hsize, _, hmarks⟩ := dlq_representation tinyDlq h₁
  have hitem : (⟨1, firstPath, 0⟩ : DlqItem) ∈ dequeueBatch tinyDlq s.table 10 1 := by
    cases hs
    decide
  have hgone : ∀ r ∈ removed.table.rows, r.id ≠ 1 := by
    cases hs
    cases hremoved
    decide
  refine ⟨s, removed, later, h₁, h₂, h₃, hsize, (hmarks 10 1 _ hitem removed later h₂ hgone h₃).1, ?_⟩
  cases hs
  cases hremoved
  cases hlater
  decide

/-! ## process_batch -/

section ProcessBatch
variable (dcfg : DlqSettings) {cfg : PollSettings} (whitelist : List Str)
  (polling : DlqItem → Polling cfg)

/-- The retry of the head of a batch: the `remove_by_path` of a persist that stores the
    message, then the mark. -/
theorem processItem_runs {w : World} {t : DlqTable} (hw : w.dlq = some t) (item : DlqItem)
    (rest : List DlqItem) :
    ∃ as t', exec (dlqStep dcfg) ⟨t, item :: rest⟩ as = some ⟨t', rest⟩ ∧
      (processItem dcfg whitelist polling w item).1.dlq = some t' := by
  obtain ⟨pre, t₁, hpre, hpersisted⟩ : ∃ pre t₁,
      exec (dlqStep dcfg) ⟨t, item :: rest⟩ pre = some ⟨t₁, item :: rest⟩ ∧
        (persisted whitelist polling w item).dlq = some t₁ := by
    rcases persistFetched_dlq whitelist w item.smsPath item.modemIndex (polling item).now
      (polling item).fetched with ⟨_, hdlq⟩ | ⟨_, hdlq⟩
    · refine ⟨[.removeByPath item.smsPath], removeByPath t item.smsPath, rfl, ?_⟩
      exact hdlq.trans (by rw [hw]; rfl)
    · exact ⟨[], t, rfl, hdlq.trans hw⟩
  by_cases h : Recovers polling w item
  · refine ⟨pre ++ [.recovered], markRecovered t₁ item.rowId, ?_, ?_⟩
    · exact exec_append_eq_some.mpr ⟨_, hpre, rfl⟩
    · rw [processItem_recovers dcfg whitelist polling w item h, hpersisted]
      rfl
  · obtain ⟨exc, hexc⟩ := processItem_fails dcfg whitelist polling w item h
    refine ⟨pre ++ [.retryFailed exc.text (polling item).now],
      markRetryFailed dcfg t₁ item.rowId exc.text (polling item).now, ?_, ?_⟩
    · exact exec_append_eq_some.mpr ⟨_, hpre, rfl⟩
    · rw [hexc, hpersisted]
      rfl

theorem processItems_runs {w : World} {t : DlqTable} (hw : w.dlq = some t)
    (items : List DlqItem) :
    ∃ as t', exec (dlqStep dcfg) ⟨t, items⟩ as = some ⟨t', []⟩ ∧
      (processItems dcfg whitelist polling items w).1.dlq = some t' := by
  induction items generalizing w t with
  | nil => exact ⟨[], t, rfl, hw⟩
  | cons item items ih =>
    obtain ⟨as, t₁, has, hw₁⟩ := processItem_runs dcfg whitelist polling hw item items
    obtain ⟨bs, t', hbs, hw'⟩ := ih hw₁
    exact ⟨as ++ bs, t', exec_append_eq_some.mpr ⟨_, has, hbs⟩, hw'⟩

/-- `process_batch` is a run of the machine. -/
theorem processBatch_runs {w : World} {t : DlqTable} (hw : w.dlq = some t) (now limit : Nat) :
    ∃ t', DlqReaches dcfg ⟨t, []⟩ ⟨t', []⟩ ∧
      (processBatch dcfg whitelist polling w now limit).1.dlq = some t' := by
  obtain ⟨as, t', has, hw'⟩ :=
    processItems_runs dcfg whitelist polling hw (batchOf dcfg w now limit)
  refine ⟨t', ⟨.dequeue now limit :: as, meets_true _ _, ?_⟩, hw'⟩
  refine exec_cons_eq_some.mpr ⟨⟨t, batchOf dcfg w now limit⟩, ?_, has⟩
  unfold batchOf
  rw [hw]
  rfl

end ProcessBatch

/-! ## An accepted path is due -/

/-- The count that the upsert keeps: the one of the stored row, zero for a new one. -/
def keptCount (t : DlqTable) (smsPath : Str) : Nat :=
  ((t.rows.find? (fun r => r.smsPath == smsPath)).map DlqRow.retryCount).getD 0

/-- If `enqueue` returns `True`, the next `dequeue_batch` returns the path. -/
def RetriedNext (cfg : DlqSettings) (t : DlqTable) (smsPath : Str) (modemIndex : Nat)
    (error : Str) (now : Nat) : Prop :=
  (enqueueDlq cfg t smsPath modemIndex error now).2 = true →
    ∀ now' limit, now ≤ now' →
      (enqueueDlq cfg t smsPath modemIndex error now).1.rows.length ≤ limit →
      ∃ item ∈ dequeueBatch cfg (enqueueDlq cfg t smsPath modemIndex error now).1 now' limit,
        item.smsPath = smsPath

/-- The queue is full, or the count that stays with the path is below the limit. -/
def CountLeft (cfg : DlqSettings) (t : DlqTable) (smsPath : Str) : Prop :=
  cfg.maxSize ≤ t.rows.length ∨ keptCount t smsPath < cfg.maxRetries

/-- A `dequeue_batch` whose limit no table exceeds returns every row that is due. -/
theorem mem_dequeueBatch_of_le {cfg : DlqSettings} {t : DlqTable} {now limit : Nat}
    (h : t.rows.length ≤ limit) {item : DlqItem} :
    item ∈ dequeueBatch cfg t now limit ↔
      ∃ r ∈ t.rows, r.item = item ∧ r.retryCount < cfg.maxRetries ∧
        ∀ due, r.nextRetryAt = some due → due ≤ now := by
  have hlen : (dueRows cfg t now).length ≤ limit := by
    unfold dueRows
    rw [List.length_insertionSort]
    exact Nat.le_trans (List.length_filter_le _ _) h
  unfold dequeueBatch
  rw [List.take_of_length_le hlen]
  simp only [dueRows, List.mem_map, List.mem_insertionSort, List.mem_filter, Bool.and_eq_true,
    decide_eq_true_eq]
  refine exists_congr (fun r => ?_)
  have hdue : r.nextRetryAt.elim true (fun at_ => decide (at_ ≤ now)) = true ↔
      ∀ due, r.nextRetryAt = some due → due ≤ now := by
    cases r.nextRetryAt with
    | none => simp
    | some due => simp
  rw [hdue]
  constructor
  · rintro ⟨⟨hr, hcount, hat⟩, he⟩
    exact ⟨hr, he, hcount, hat⟩
  · rintro ⟨hr, he, hcount, hat⟩
    exact ⟨⟨hr, hcount, hat⟩, he⟩

theorem keptCount_of_mem {t : DlqTable} {r : DlqRow} (hr : r ∈ t.rows) :
    keptCount t r.smsPath = r.retryCount := by
  obtain ⟨s, hs⟩ : ∃ s, t.rows.find? (fun x => x.smsPath == r.smsPath) = some s := by
    rw [← Option.isSome_iff_exists, List.find?_isSome]
    exact ⟨r, hr, by simp⟩
  have hsr : s = r := by
    refine t.eq_of_clash (List.mem_of_find?_eq_some hs) hr ((dlq_clash s r).mpr ?_)
    simpa using List.find?_some hs
  rw [keptCount, hs, hsr]
  rfl

theorem keptCount_of_not_mem {t : DlqTable} {smsPath : Str}
    (h : ∀ r ∈ t.rows, r.smsPath ≠ smsPath) : keptCount t smsPath = 0 := by
  have hnone : t.rows.find? (fun r => r.smsPath == smsPath) = none := by
    simpa using h
  rw [keptCount, hnone]
  rfl

/-- An accepted path has one row, due now, with the count that was kept. -/
theorem row_of_enqueueDlq {cfg : DlqSettings} {t : DlqTable} {smsPath error : Str}
    {modemIndex now : Nat} (h : (enqueueDlq cfg t smsPath modemIndex error now).2 = true) :
    ∃ r ∈ (enqueueDlq cfg t smsPath modemIndex error now).1.rows, r.smsPath = smsPath ∧
      r.retryCount = keptCount t smsPath ∧ r.nextRetryAt = some now := by
  obtain ⟨_, he⟩ | ⟨_, r, hr, rfl, he⟩ | ⟨_, hnew, he⟩ :=
    enqueueDlq_cases cfg t smsPath modemIndex error now
  · rw [he] at h
    cases h
  · rw [he, keptCount_of_mem hr]
    refine ⟨(onConflict error now).set r, ?_, rfl, rfl, rfl⟩
    exact Table.mem_update.mpr (Or.inl ⟨r, hr, rfl, rfl⟩)
  · have hne : ∀ r ∈ t.rows, r.smsPath ≠ smsPath := by
      intro r hr
      simpa [newDlqRow] using hnew r hr
    rw [he, keptCount_of_not_mem hne]
    refine ⟨(newDlqRow smsPath modemIndex error now).make t.nextPk, ?_, rfl, rfl, rfl⟩
    simp

theorem accepted_iff_room {cfg : DlqSettings} {t : DlqTable} {smsPath error : Str}
    {modemIndex now : Nat} :
    (enqueueDlq cfg t smsPath modemIndex error now).2 = true ↔ t.rows.length < cfg.maxSize := by
  unfold enqueueDlq
  split
  · next hfull => simp [hfull]
  · next hroom => simpa using hroom

theorem retriedNext_iff (cfg : DlqSettings) (t : DlqTable) (smsPath : Str) (modemIndex : Nat)
    (error : Str) (now : Nat) :
    RetriedNext cfg t smsPath modemIndex error now ↔ CountLeft cfg t smsPath := by
  unfold RetriedNext CountLeft
  by_cases hroom : t.rows.length < cfg.maxSize
  · have haccepted : (enqueueDlq cfg t smsPath modemIndex error now).2 = true :=
      accepted_iff_room.mpr hroom
    obtain ⟨r, hr, hpath, hcount, hdue⟩ := row_of_enqueueDlq haccepted
    have hnotfull : ¬ cfg.maxSize ≤ t.rows.length := Nat.not_le_of_lt hroom
    simp only [haccepted, true_imp_iff, hnotfull, false_or]
    constructor
    · intro h
      obtain ⟨item, hitem, hitempath⟩ := h now _ (Nat.le_refl _) (Nat.le_refl _)
      obtain ⟨r', hr', rfl, hlt⟩ := mem_dequeueBatch_row hitem
      -- the batch has the row of the path, since paths are unique
      have hsame : r' = r :=
        (enqueueDlq cfg t smsPath modemIndex error now).1.eq_of_clash hr' hr
          ((dlq_clash r' r).mpr (hitempath.trans hpath.symm))
      rw [← hcount, ← hsame]
      exact hlt
    · intro hlt now' limit hnow hlimit
      refine ⟨r.item, ?_, hpath⟩
      refine (mem_dequeueBatch_of_le hlimit).mpr ⟨r, hr, rfl, hcount ▸ hlt, ?_⟩
      intro due hd
      rw [hdue] at hd
      cases hd
      exact hnow
  · have hrefused : ¬ (enqueueDlq cfg t smsPath modemIndex error now).2 = true :=
      fun h => hroom (accepted_iff_room.mp h)
    exact ⟨fun _ => Or.inl (Nat.le_of_not_lt hroom), fun _ h => absurd h hrefused⟩

/-- Every `enqueue` of a run is retried next. -/
def EnqueueRetried (cfg : DlqSettings) (s : DlqState) : DlqAction → Prop
  | .enqueue smsPath modemIndex error now => RetriedNext cfg s.table smsPath modemIndex error now
  | _ => True

def EnqueueCountLeft (cfg : DlqSettings) (s : DlqState) : DlqAction → Prop
  | .enqueue smsPath _ _ _ => CountLeft cfg s.table smsPath
  | _ => True

theorem enqueueRetried_iff (cfg : DlqSettings) (s : DlqState) (a : DlqAction) :
    EnqueueRetried cfg s a ↔ EnqueueCountLeft cfg s a := by
  cases a with
  | enqueue smsPath modemIndex error now => exact retriedNext_iff cfg s.table smsPath modemIndex error now
  | _ => exact Iff.rfl

/-- An accepted path is due at once exactly when its stored count is below the limit; so the
    enqueues of a run are all retried exactly when each meets that. -/
theorem enqueue_retried_iff (cfg : DlqSettings) :
    (∀ (t : DlqTable) (smsPath : Str) (modemIndex : Nat) (error : Str) (now : Nat),
      RetriedNext cfg t smsPath modemIndex error now ↔ CountLeft cfg t smsPath) ∧
    ∀ (s : DlqState) (as : List DlqAction),
      Meets (dlqStep cfg) (EnqueueRetried cfg) s as ↔
        Meets (dlqStep cfg) (EnqueueCountLeft cfg) s as := by
  refine ⟨retriedNext_iff cfg, ?_⟩
  intro s as
  constructor
  · intro h
    exact Meets.mono_of_invariant (fun _ _ _ _ _ _ => trivial)
      (fun s a _ ha => (enqueueRetried_iff cfg s a).mp ha) trivial h
  · intro h
    exact Meets.mono_of_invariant (fun _ _ _ _ _ _ => trivial)
      (fun s a _ ha => (enqueueRetried_iff cfg s a).mpr ha) trivial h

def roomyDlq : DlqSettings := ⟨10, 60, 1⟩

/-- The path was stored, and its one retry has failed. -/
def failedOnce (cfg : DlqSettings) : DlqState :=
  ⟨markRetryFailed cfg (enqueueDlq cfg Table.empty firstPath 0 [] 10).1 1 [] 15, []⟩

/-- A row that has failed `max_retries` times is refreshed and not retried. -/
theorem refreshed_row_not_retried :
    ¬ ∀ s, DlqReaches roomyDlq newDlq s → ∀ smsPath modemIndex error now,
      RetriedNext roomyDlq s.table smsPath modemIndex error now := by
  intro h
  have hrun : exec (dlqStep roomyDlq) newDlq (oneFailure ++ [.dequeue 10 1, .retryFailed [] 15]) =
      some (failedOnce roomyDlq) := rfl
  have hretried := h _ ⟨_, meets_true _ _, hrun⟩ firstPath 0 [] 20
  obtain ⟨item, hitem, _⟩ := hretried (by decide) 20 1 (by decide) (by decide)
  have hnone : dequeueBatch roomyDlq
      (enqueueDlq roomyDlq (failedOnce roomyDlq).table firstPath 0 [] 20).1 20 1 = [] := by decide
  rw [hnone] at hitem
  cases hitem

/-! ## A full queue -/

theorem refused_iff_full {cfg : DlqSettings} {t : DlqTable} {smsPath error : Str}
    {modemIndex now : Nat} :
    (enqueueDlq cfg t smsPath modemIndex error now).2 = false ↔ cfg.maxSize ≤ t.rows.length := by
  rw [← Bool.not_eq_true, accepted_iff_room, Nat.not_lt]

/-- Its retries are used up. -/
def Exhausted (cfg : DlqSettings) (r : DlqRow) : Prop := cfg.maxRetries ≤ r.retryCount

/-- An exhausted entry stays but for the `remove_by_path` of its path. -/
theorem exhausted_step {cfg : DlqSettings} {s s' : DlqState} {a : DlqAction} {r : DlqRow}
    (h : DlqWithin cfg s) (hr : r ∈ s.table.rows) (he : Exhausted cfg r)
    (ha : a ≠ .removeByPath r.smsPath) (hs : dlqStep cfg s a = some s') :
    ∃ r' ∈ s'.table.rows, SameEntry r r' := by
  -- the processor holds no exhausted row
  have hother : ∀ item ∈ s.batch, r.id ≠ item.rowId := by
    intro item hitem hid
    have hlt := h.batch_count item hitem r hr hid
    exact absurd he (Nat.not_le_of_lt hlt)
  cases a with
  | enqueue smsPath modemIndex error now =>
    cases hs
    exact sameEntry_enqueueDlq hr smsPath modemIndex error now
  | removeByPath smsPath =>
    cases hs
    refine ⟨r, Table.mem_deleteWhere.mpr ⟨hr, ?_⟩, SameEntry.refl r⟩
    rw [beq_eq_false_iff_ne]
    intro hpath
    exact ha (by rw [hpath])
  | dequeue now limit =>
    cases hb : s.batch with
    | nil =>
      simp only [dlqStep, hb] at hs
      cases hs
      exact ⟨r, hr, SameEntry.refl r⟩
    | cons item rest => simp [dlqStep, hb] at hs
  | recovered =>
    cases hb : s.batch with
    | nil => simp [dlqStep, hb] at hs
    | cons item rest =>
      simp only [dlqStep, hb] at hs
      cases hs
      refine ⟨r, Table.mem_deleteWhere.mpr ⟨hr, ?_⟩, SameEntry.refl r⟩
      exact beq_eq_false_iff_ne.mpr (hother item (by rw [hb]; exact List.mem_cons_self))
  | retryFailed error now =>
    cases hb : s.batch with
    | nil => simp [dlqStep, hb] at hs
    | cons item rest =>
      simp only [dlqStep, hb] at hs
      cases hs
      refine ⟨r, Table.mem_update.mpr (Or.inr ⟨hr, ?_⟩), SameEntry.refl r⟩
      exact hother item (by rw [hb]; exact List.mem_cons_self)
  | abandon =>
    cases hs
    exact ⟨r, hr, SameEntry.refl r⟩

theorem exhausted_run {cfg : DlqSettings} {s t : DlqState} {as : List DlqAction} {r : DlqRow}
    (h : DlqWithin cfg s) (hr : r ∈ s.table.rows) (he : Exhausted cfg r)
    (ha : .removeByPath r.smsPath ∉ as) (hs : exec (dlqStep cfg) s as = some t) :
    ∃ r' ∈ t.table.rows, SameEntry r r' := by
  induction as generalizing s r with
  | nil =>
    cases hs
    exact ⟨r, hr, SameEntry.refl r⟩
  | cons a as ih =>
    obtain ⟨u, hu, ht⟩ := exec_cons_eq_some.mp hs
    rw [List.mem_cons, not_or] at ha
    obtain ⟨hne, hrest⟩ := ha
    obtain ⟨r', hr', hsame⟩ := exhausted_step h hr he (Ne.symm hne) hu
    have he' : Exhausted cfg r' := by
      unfold Exhausted
      rw [hsame.2.2.2]
      exact he
    have hrest' : DlqAction.removeByPath r'.smsPath ∉ as := by
      rw [hsame.2.1]
      exact hrest
    obtain ⟨r'', hr'', hsame'⟩ := ih (dlqStep_within h hu) hr' he' hrest' ht
    exact ⟨r'', hr'', hsame.trans hsame'⟩

/-- If every row of a table stays, so does its size. -/
theorem length_le_of_sameEntry {t t' : DlqTable}
    (h : ∀ r ∈ t.rows, ∃ r' ∈ t'.rows, SameEntry r r') : t.rows.length ≤ t'.rows.length := by
  have hids : (t.rows.map DlqRow.id).Nodup := List.pairwise_map.mpr t.pk_ne
  have hsub : t.rows.map DlqRow.id ⊆ t'.rows.map DlqRow.id := by
    intro p hp
    obtain ⟨r, hr, rfl⟩ := List.mem_map.mp hp
    obtain ⟨r', hr', hsame⟩ := h r hr
    exact List.mem_map.mpr ⟨r', hr', hsame.1⟩
  have hlen := (List.subperm_of_subset hids hsub).length_le
  rwa [List.length_map, List.length_map] at hlen

/-- `enqueue` refuses a path exactly when the table has `max_size` rows. An exhausted row is
    one of them until the `remove_by_path` of its path and in no batch, so that a queue full
    of them refuses every path until then. -/
theorem enqueue_refused_iff (cfg : DlqSettings) {s : DlqState} (h : DlqReaches cfg newDlq s) :
    (∀ smsPath modemIndex error now,
      (enqueueDlq cfg s.table smsPath modemIndex error now).2 = false ↔
        s.table.rows.length = cfg.maxSize) ∧
    (∀ r ∈ s.table.rows, Exhausted cfg r → ∀ as t, exec (dlqStep cfg) s as = some t →
      .removeByPath r.smsPath ∉ as →
      ∃ r' ∈ t.table.rows, SameEntry r r' ∧
        ∀ now limit, r'.item ∉ dequeueBatch cfg t.table now limit) ∧
    (s.table.rows.length = cfg.maxSize → (∀ r ∈ s.table.rows, Exhausted cfg r) →
      ∀ as t, exec (dlqStep cfg) s as = some t →
      (∀ r ∈ s.table.rows, .removeByPath r.smsPath ∉ as) →
      ∀ smsPath modemIndex error now,
        (enqueueDlq cfg t.table smsPath modemIndex error now).2 = false) := by
  have hwithin := within_of_reaches h (newDlq_within cfg)
  refine ⟨?_, ?_, ?_⟩
  · intro smsPath modemIndex error now
    have hsize := hwithin.size_le
    rw [refused_iff_full]
    omega
  · intro r hr he as t ht ha
    obtain ⟨r', hr', hsame⟩ := exhausted_run hwithin hr he ha ht
    refine ⟨r', hr', hsame, ?_⟩
    intro now limit hitem
    obtain ⟨x, hx, hxr, hlt⟩ := mem_dequeueBatch_row hitem
    have hxid : x.id = r'.id := congrArg DlqItem.rowId hxr
    rw [t.table.pk_injOn hx hr' hxid, hsame.2.2.2] at hlt
    exact absurd he (Nat.not_le_of_lt hlt)
  · intro hfull he as t ht ha smsPath modemIndex error now
    rw [refused_iff_full, ← hfull]
    exact length_le_of_sameEntry (fun r hr => exhausted_run hwithin hr (he r hr) (ha r hr) ht)

/-- One path that cannot be persisted fills a queue of one row, also for its own refresh. -/
theorem exhausted_queue_refuses :
    ¬ ∀ s, DlqReaches tinyDlq newDlq s → ∀ smsPath modemIndex error now,
      (enqueueDlq tinyDlq s.table smsPath modemIndex error now).2 = false →
        ¬ Holds smsPath s.table ∧ tinyDlq.maxSize ≤
          (s.table.rows.filter (fun r => decide (r.retryCount < tinyDlq.maxRetries))).length := by
  intro h
  have hrun : exec (dlqStep tinyDlq) newDlq (oneFailure ++ [.dequeue 10 1, .retryFailed [] 15]) =
      some (failedOnce tinyDlq) := rfl
  have hlive := (h _ ⟨_, meets_true _ _, hrun⟩ "/org/freedesktop/ModemManager1/SMS/9".toList 0 [] 20
    (by decide)).2
  exact absurd hlive (by decide)

/-- The theorem at that queue: it refuses paths after any run without its `remove_by_path`. -/
theorem enqueue_refused_tiny :
    (enqueueDlq tinyDlq (failedOnce tinyDlq).table firstPath 0 [] 20).2 = false ∧
      ∀ as t, exec (dlqStep tinyDlq) (failedOnce tinyDlq) as = some t →
        .removeByPath firstPath ∉ as →
        (enqueueDlq tinyDlq t.table firstPath 0 [] 20).2 = false := by
  have hrun : exec (dlqStep tinyDlq) newDlq (oneFailure ++ [.dequeue 10 1, .retryFailed [] 15]) =
      some (failedOnce tinyDlq) := rfl
  obtain ⟨hiff, _, hwedge⟩ := enqueue_refused_iff tinyDlq ⟨_, meets_true _ _, hrun⟩
  refine ⟨(hiff firstPath 0 [] 20).mpr (by decide), ?_⟩
  intro as t ht ha
  refine hwedge (by decide) ?_ as t ht ?_ firstPath 0 [] 20
  · intro r hr
    obtain rfl := List.mem_singleton.mp hr
    exact (by decide : 1 ≤ 1)
  · intro r hr
    obtain rfl := List.mem_singleton.mp hr
    exact ha

end HiWaveTel
