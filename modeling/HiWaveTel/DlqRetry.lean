import HiWaveTel.Persist

/- `SmsDeadLetterQueue.process_batch`: every due entry is persisted again, and any
   return of `persist_inbound_sms` counts as a recovery.

   The polling turns a transient `mmcli` failure into an empty snapshot, whose blank
   sender is on no whitelist, so that with a whitelist the call returns an object that
   is not saved and the entry is deleted. `dlq_drops_for_reason_iff` says exactly for
   which behaviours of `show_sms` a batch deletes entries for a reason only: no polling
   meets a transient failure, and one that ends with a blank sender has a row already or
   has read a foreign sender before. `dlq_entry_can_be_discarded` is a failure that
   loses an entry. -/
namespace HiWaveTel
open Foundation

/-- `SMS_INBOUND_WHITELIST`, as the settings parse it: no blank entries. -/
structure Whitelist where
  numbers : List Str
  not_blank : ∀ n ∈ numbers, n ≠ []

/-- `[n.strip() for n in raw.split(',') if n.strip()]`. -/
def Whitelist.ofSetting (raw : Str) : Whitelist where
  numbers := (((Text.strip raw).splitOn ',').map Text.strip).filter (fun n => n != [])
  not_blank := by
    intro n hn
    simpa using (List.mem_filter.mp hn).2

/-- What the retry of one entry meets: the answers of `show_sms` and the clocks. -/
structure Polling (cfg : PollSettings) where
  clock : PollClock cfg
  shows : Nat → ShowSms
  now : Nat

namespace Polling
variable {cfg : PollSettings} (p : Polling cfg)

/-- How many `show_sms` calls the polling makes. -/
def calls : Nat := (fetchMmcliSnapshotWithRetries cfg p.clock p.shows).1

def fetched : Fetched := (fetchMmcliSnapshotWithRetries cfg p.clock p.shows).2

end Polling

structure BatchStats where
  processed : Nat
  recovered : Nat
  failed : Nat
  deriving DecidableEq, Repr

section Batch
variable (dcfg : DlqSettings) {cfg : PollSettings} (whitelist : List Str)
  (polling : DlqItem → Polling cfg)

/-- The body of the loop: the world afterwards, and whether the entry was recovered. -/
def processItem (w : World) (item : DlqItem) : World × Bool :=
  let p := polling item
  match persistInboundSms p.clock p.shows whitelist w item.smsPath item.modemIndex p.now with
  -- an unsaved object of the whitelist branch is a return, too
  | (w, .ok _) => ({ w with dlq := w.dlq.map (fun t => markRecovered t item.rowId) }, true)
  | (w, .error exc) =>
    ({ w with dlq := w.dlq.map (fun t => markRetryFailed dcfg t item.rowId exc.text p.now) }, false)

/-- The loop over a batch. -/
def processItems : List DlqItem → World → World × BatchStats
  | [], w => (w, ⟨0, 0, 0⟩)
  | item :: items, w =>
    let (w, ok) := processItem dcfg whitelist polling w item
    let (w, stats) := processItems items w
    (w, ⟨stats.processed + 1, stats.recovered + ok.toNat, stats.failed + (!ok).toNat⟩)

/-- The due entries of the queue. -/
def batchOf (w : World) (now limit : Nat) : List DlqItem :=
  match w.dlq with
  | none => []
  | some t => dequeueBatch dcfg t now limit

def processBatch (w : World) (now limit : Nat) : World × BatchStats :=
  processItems dcfg whitelist polling (batchOf dcfg w now limit) w

end Batch

/-! ## One entry -/

/-- The entries of the queue, if it is on. -/
def entries (w : World) : List DlqItem := w.dlq.elim [] dlqItems

theorem mem_entries_map {w : World} {f : DlqTable → DlqTable} {P : DlqItem → Prop}
    {dlq : Option DlqTable} (hdlq : w.dlq = dlq.map f) {x : DlqItem}
    (hf : ∀ t, x ∈ dlqItems (f t) ↔ x ∈ dlqItems t ∧ P x) :
    x ∈ entries w ↔ x ∈ dlq.elim [] dlqItems ∧ P x := by
  unfold entries
  rw [hdlq]
  cases dlq with
  | none => simp
  | some t => exact hf t

section Item
variable (dcfg : DlqSettings) {cfg : PollSettings} (whitelist : List Str)
  (polling : DlqItem → Polling cfg) (w : World) (item : DlqItem)

/-- The world after the persist of the retry. -/
def persisted : World :=
  (persistInboundSms (polling item).clock (polling item).shows whitelist w item.smsPath
    item.modemIndex (polling item).now).1

/-- The retry of `item` gets its entry deleted. -/
def Recovers : Prop := Returns w item.smsPath (polling item).fetched

theorem processItem_recovers (h : Recovers polling w item) :
    (processItem dcfg whitelist polling w item).1 =
      { persisted whitelist polling w item with
        dlq := (persisted whitelist polling w item).dlq.map (fun t => markRecovered t item.rowId) } := by
  obtain ⟨res, hres⟩ := (persistFetched_isOk whitelist w item.smsPath item.modemIndex
    (polling item).now (polling item).fetched).mpr h
  have hpair : persistInboundSms (polling item).clock (polling item).shows whitelist w item.smsPath
      item.modemIndex (polling item).now = (persisted whitelist polling w item, .ok res) :=
    Prod.ext rfl hres
  simp only [processItem, hpair]

theorem processItem_fails (h : ¬ Recovers polling w item) :
    ∃ exc : PersistError, (processItem dcfg whitelist polling w item).1 =
      { persisted whitelist polling w item with
        dlq := (persisted whitelist polling w item).dlq.map
          (fun t => markRetryFailed dcfg t item.rowId exc.text (polling item).now) } := by
  have hnot := mt (persistFetched_isOk whitelist w item.smsPath item.modemIndex
    (polling item).now (polling item).fetched).mp h
  cases hres : (persistFetched whitelist w item.smsPath item.modemIndex (polling item).now
      (polling item).fetched).2 with
  | ok res => exact absurd ⟨res, hres⟩ hnot
  | error exc =>
    refine ⟨exc, ?_⟩
    have hpair : persistInboundSms (polling item).clock (polling item).shows whitelist w
        item.smsPath item.modemIndex (polling item).now =
        (persisted whitelist polling w item, .error exc) := Prod.ext rfl hres
    simp only [processItem, hpair]

theorem mem_entries_persisted (x : DlqItem) :
    x ∈ entries (persisted whitelist polling w item) ↔
      x ∈ entries w ∧ (Stores whitelist (polling item).fetched → x.smsPath ≠ item.smsPath) := by
  rcases persistFetched_dlq whitelist w item.smsPath item.modemIndex (polling item).now
    (polling item).fetched with ⟨hst, hdlq⟩ | ⟨hst, hdlq⟩
  · have h := mem_entries_map (P := fun x => x.smsPath ≠ item.smsPath) (x := x) hdlq
      (fun t => mem_dlqItems_removeByPath)
    simp only [hst, true_imp_iff]
    exact h
  · have hsame : entries (persisted whitelist polling w item) = entries w :=
      congrArg (fun dlq => Option.elim dlq [] dlqItems) hdlq
    rw [hsame]
    exact ⟨fun hx => ⟨hx, fun hs => absurd hs hst⟩, And.left⟩

/-- The retry of `item` deletes the entries with its path if it stores the message, and
    the entry with its id if it returns. -/
theorem mem_entries_processItem (x : DlqItem) :
    x ∈ entries (processItem dcfg whitelist polling w item).1 ↔
      x ∈ entries w ∧ (Stores whitelist (polling item).fetched → x.smsPath ≠ item.smsPath) ∧
        (Recovers polling w item → x.rowId ≠ item.rowId) := by
  have hpersisted := mem_entries_persisted whitelist polling w item x
  by_cases h : Recovers polling w item
  · have hmap := mem_entries_map (w := (processItem dcfg whitelist polling w item).1)
      (P := fun x => x.rowId ≠ item.rowId) (x := x)
      (by rw [processItem_recovers dcfg whitelist polling w item h])
      (fun t => mem_dlqItems_markRecovered)
    rw [hmap, show x ∈ Option.elim (persisted whitelist polling w item).dlq [] dlqItems ↔ _ from
      hpersisted]
    simp only [h, true_imp_iff, and_assoc]
  · obtain ⟨exc, hexc⟩ := processItem_fails dcfg whitelist polling w item h
    have hmap := mem_entries_map (w := (processItem dcfg whitelist polling w item).1)
      (P := fun _ => True) (x := x) (by rw [hexc])
      (fun t => mem_dlqItems_markRetryFailed.trans (iff_of_eq (and_true _)).symm)
    rw [hmap, show x ∈ Option.elim (persisted whitelist polling w item).dlq [] dlqItems ↔ _ from
      hpersisted]
    simp only [h, false_imp_iff, and_true]

theorem rowsAt_processItem_of_ne {q : Str} (h : item.smsPath ≠ q) :
    rowsAt (processItem dcfg whitelist polling w item).1.inbound q = rowsAt w.inbound q := by
  have hpersisted : rowsAt (persisted whitelist polling w item).inbound q = rowsAt w.inbound q :=
    rowsAt_persistFetched_of_ne whitelist w item.smsPath item.modemIndex _ _ h
  by_cases hr : Recovers polling w item
  · rw [processItem_recovers dcfg whitelist polling w item hr]
    exact hpersisted
  · obtain ⟨exc, hexc⟩ := processItem_fails dcfg whitelist polling w item hr
    rw [hexc]
    exact hpersisted

theorem rowsAt_processItem :
    rowsAt (processItem dcfg whitelist polling w item).1.inbound item.smsPath ≠ [] ↔
      rowsAt w.inbound item.smsPath ≠ [] ∨ Stores whitelist (polling item).fetched := by
  have hpersisted : rowsAt (persisted whitelist polling w item).inbound item.smsPath ≠ [] ↔
      rowsAt w.inbound item.smsPath ≠ [] ∨ Stores whitelist (polling item).fetched :=
    rowsAt_persistFetched whitelist w item.smsPath item.modemIndex _ _
  by_cases hr : Recovers polling w item
  · rw [processItem_recovers dcfg whitelist polling w item hr]
    exact hpersisted
  · obtain ⟨exc, hexc⟩ := processItem_fails dcfg whitelist polling w item hr
    rw [hexc]
    exact hpersisted

end Item

/-! ## The whole batch -/

section Batch
variable (dcfg : DlqSettings) {cfg : PollSettings} (whitelist : List Str)
  (polling : DlqItem → Polling cfg)

/-- The entries of a batch share neither ids nor paths. -/
def Distinct (items : List DlqItem) (x : DlqItem) : Prop :=
  ∀ i ∈ items, i ≠ x → i.rowId ≠ x.rowId ∧ i.smsPath ≠ x.smsPath

/-- What the retries of other entries do to the entry `x` and to the row of its path. -/
theorem processItem_of_ne (w : World) {i x : DlqItem}
    (h : i.rowId ≠ x.rowId ∧ i.smsPath ≠ x.smsPath) :
    (x ∈ entries (processItem dcfg whitelist polling w i).1 ↔ x ∈ entries w) ∧
      rowsAt (processItem dcfg whitelist polling w i).1.inbound x.smsPath =
        rowsAt w.inbound x.smsPath := by
  refine ⟨?_, rowsAt_processItem_of_ne dcfg whitelist polling w i h.2⟩
  rw [mem_entries_processItem]
  exact ⟨And.left, fun hx => ⟨hx, fun _ he => h.2 he.symm, fun _ he => h.1 he.symm⟩⟩

/-- `Recovers` reads of the world only the rows of the entry's path. -/
theorem recovers_congr {w w' : World} {x : DlqItem}
    (h : rowsAt w'.inbound x.smsPath = rowsAt w.inbound x.smsPath) :
    Recovers polling w' x ↔ Recovers polling w x := by
  unfold Recovers Returns
  rw [h]

/-- An entry is gone after a batch exactly when it was in the batch and its own retry
    returned; and its path has a row exactly when it had one or that retry stored it. -/
theorem processItems_spec {items : List DlqItem} (w : World) {x : DlqItem} (hnd : items.Nodup)
    (hdistinct : Distinct items x) :
    (x ∈ entries (processItems dcfg whitelist polling items w).1 ↔
      x ∈ entries w ∧ (x ∈ items → ¬ Recovers polling w x)) ∧
    (rowsAt (processItems dcfg whitelist polling items w).1.inbound x.smsPath ≠ [] ↔
      rowsAt w.inbound x.smsPath ≠ [] ∨
        (x ∈ items ∧ Stores whitelist (polling x).fetched)) := by
  induction items generalizing w with
  | nil => simp [processItems]
  | cons i items ih =>
    obtain ⟨hi, hnd⟩ := List.nodup_cons.mp hnd
    obtain ⟨hentry, hrow⟩ := ih (processItem dcfg whitelist polling w i).1 hnd
      (fun j hj => hdistinct j (List.mem_cons_of_mem _ hj))
    show (x ∈ entries (processItems dcfg whitelist polling items
        (processItem dcfg whitelist polling w i).1).1 ↔ _) ∧
      (rowsAt (processItems dcfg whitelist polling items
        (processItem dcfg whitelist polling w i).1).1.inbound x.smsPath ≠ [] ↔ _)
    rw [hentry, hrow]
    by_cases hix : i = x
    · -- the retry of `x` itself; it is not in the rest of the batch
      subst hix
      rw [mem_entries_processItem, rowsAt_processItem]
      have hstores : Stores whitelist (polling i).fetched → Recovers polling w i := by
        intro h
        obtain ⟨raw, hraw, _⟩ := h
        unfold Recovers Returns
        rw [hraw]
        trivial
      simp only [hi, false_imp_iff, and_true, false_and, or_false, List.mem_cons_self, true_imp_iff,
        true_and, ne_eq, not_true_eq_false]
      exact ⟨fun h => ⟨h.1, h.2.2⟩, fun h => ⟨h.1, fun hs => h.2 (hstores hs), h.2⟩⟩
    · obtain ⟨hsame, hrows⟩ :=
        processItem_of_ne dcfg whitelist polling w (hdistinct i (List.mem_cons_self) hix)
      have hmem : x ∈ i :: items ↔ x ∈ items := by
        rw [List.mem_cons]
        exact ⟨fun h => h.resolve_left (fun he => hix he.symm), Or.inr⟩
      rw [hsame, hrows, recovers_congr polling hrows, hmem]
      exact ⟨Iff.rfl, Iff.rfl⟩

end Batch

/-! ## What a polling read -/

section Read
variable {cfg : PollSettings} (p : Polling cfg)

/-- The polling met a transient `mmcli` failure. -/
def TransientFailure : Prop := ∃ k < p.calls, (p.shows k).transient = true

/-- Some snapshot it read has a sender, outside the whitelist. -/
def ForeignSenderRead (wl : Whitelist) : Prop :=
  ∃ k < p.calls, ∃ raw, p.shows k = .snapshot raw ∧ extractFromNumber raw ≠ [] ∧
    extractFromNumber raw ∉ wl.numbers

/-- The last snapshot it read has no sender. -/
def EndsWithoutSender : Prop :=
  ∃ raw, p.shows (p.calls - 1) = .snapshot raw ∧ extractFromNumber raw = []

theorem fetched_eq : p.fetched = (p.shows (p.calls - 1)).ended :=
  (fetch_reads p.clock p.shows).2.2

theorem calls_pos : 0 < p.calls := (fetch_reads p.clock p.shows).2.1

/-- A transient failure ends the polling with the empty snapshot. -/
theorem fetched_of_transientFailure (h : TransientFailure p) : p.fetched = .snapshot [] := by
  obtain ⟨k, hk, ht⟩ := h
  have hlast : k = p.calls - 1 := by
    by_contra hne
    have hlt : k + 1 < p.calls := by omega
    obtain ⟨raw, hraw⟩ := (fetch_reads p.clock p.shows).1 k hlt
    rw [hraw] at ht
    exact Bool.noConfusion ht
  rw [fetched_eq, ← hlast]
  cases hs : p.shows k with
  | mmcliError exc =>
    rw [hs] at ht
    have hmissing : mmcliSmsPathMissing exc = false := by simpa [ShowSms.transient] using ht
    simp [ShowSms.ended, hmissing]
  | snapshot raw => rw [hs] at ht; exact Bool.noConfusion ht
  | raised text => rw [hs] at ht; exact Bool.noConfusion ht

/-- Without a transient failure the snapshot that is persisted was read. -/
theorem shows_of_fetched (h : ¬ TransientFailure p) {raw : Details}
    (hf : p.fetched = .snapshot raw) : p.shows (p.calls - 1) = .snapshot raw := by
  rw [fetched_eq] at hf
  cases hs : p.shows (p.calls - 1) with
  | snapshot raw' =>
    rw [hs] at hf
    cases hf
    rfl
  | raised text => rw [hs] at hf; cases hf
  | mmcliError exc =>
    rw [hs] at hf
    by_cases hm : mmcliSmsPathMissing exc = true
    · simp [ShowSms.ended, hm] at hf
    · exfalso
      apply h
      have hpos := calls_pos p
      exact ⟨p.calls - 1, by omega, by rw [hs]; simpa [ShowSms.transient] using hm⟩

end Read

/-! ## Entries are dropped for a reason -/

section Reason
variable {cfg : PollSettings}

theorem whitelistRejects_iff {wl : Whitelist} (h : wl.numbers ≠ []) (number : Str) :
    whitelistRejects wl.numbers number = true ↔ number ∉ wl.numbers := by
  unfold whitelistRejects
  cases hn : wl.numbers with
  | nil => exact absurd hn h
  | cons n ns => simp

/-- A blank sender is on no whitelist. -/
theorem whitelistRejects_nil {wl : Whitelist} (h : wl.numbers ≠ []) :
    whitelistRejects wl.numbers [] = true :=
  (whitelistRejects_iff h []).mpr (fun hmem => wl.not_blank [] hmem rfl)

theorem batchOf_nodup (dcfg : DlqSettings) (w : World) (now limit : Nat) :
    (batchOf dcfg w now limit).Nodup := by
  unfold batchOf
  split
  · exact List.nodup_nil
  · exact dequeueBatch_nodup _ _ _ _

theorem mem_entries_of_batchOf {dcfg : DlqSettings} {w : World} {now limit : Nat} {x : DlqItem}
    (h : x ∈ batchOf dcfg w now limit) : x ∈ entries w := by
  unfold batchOf at h
  unfold entries
  split at h
  · cases h
  · next t ht =>
    rw [ht]
    exact mem_dequeueBatch h

theorem distinct_batchOf {dcfg : DlqSettings} {w : World} {now limit : Nat} {x : DlqItem}
    (hx : x ∈ entries w) : Distinct (batchOf dcfg w now limit) x := by
  intro i hi hne
  have hi := mem_entries_of_batchOf hi
  unfold entries at hi hx
  cases ht : w.dlq with
  | none => rw [ht] at hx; cases hx
  | some t =>
    rw [ht] at hi hx
    refine ⟨?_, ?_⟩
    · intro he
      exact hne (dlqItem_ext hi hx (Or.inl he))
    · intro he
      exact hne (dlqItem_ext hi hx (Or.inr he))

/-- What a batch does to the entries and rows there were. -/
theorem processBatch_spec (dcfg : DlqSettings) (whitelist : List Str)
    (polling : DlqItem → Polling cfg) {w : World} (now limit : Nat) {x : DlqItem}
    (hx : x ∈ entries w) :
    (x ∉ entries (processBatch dcfg whitelist polling w now limit).1 ↔
      x ∈ batchOf dcfg w now limit ∧ Recovers polling w x) ∧
    (rowsAt (processBatch dcfg whitelist polling w now limit).1.inbound x.smsPath ≠ [] ↔
      rowsAt w.inbound x.smsPath ≠ [] ∨
        (x ∈ batchOf dcfg w now limit ∧ Stores whitelist (polling x).fetched)) := by
  obtain ⟨hentry, hrow⟩ := processItems_spec dcfg whitelist polling w
    (batchOf_nodup dcfg w now limit) (distinct_batchOf hx)
  refine ⟨?_, hrow⟩
  show ¬ _ ↔ _
  rw [show x ∈ entries (processBatch dcfg whitelist polling w now limit).1 ↔ _ from hentry]
  simp only [hx, true_and, Classical.not_imp, not_not]

/-- A snapshot without a sender is thrown away, and counts as a recovery. -/
theorem recovers_of_blank {wl : Whitelist} (hwl : wl.numbers ≠ []) {polling : DlqItem → Polling cfg}
    (w : World) {x : DlqItem} {raw : Details} (hraw : (polling x).fetched = .snapshot raw)
    (hnone : extractFromNumber raw = []) :
    Recovers polling w x ∧ ¬ Stores wl.numbers (polling x).fetched := by
  refine ⟨?_, ?_⟩
  · unfold Recovers Returns
    rw [hraw]
    trivial
  · intro hs
    obtain ⟨raw', hraw', hrej⟩ := hs
    rw [hraw] at hraw'
    cases hraw'
    rw [hnone, whitelistRejects_nil hwl] at hrej
    exact Bool.noConfusion hrej

/-- A recovery that meets no transient failure: the path had a row, or its message is
    stored, or the last snapshot read has a foreign sender or none. -/
theorem reason_of_recovers {wl : Whitelist} (hwl : wl.numbers ≠ []) {polling : DlqItem → Polling cfg}
    {w : World} {x : DlqItem} (htrans : ¬ TransientFailure (polling x))
    (hrec : Recovers polling w x) :
    rowsAt w.inbound x.smsPath ≠ [] ∨ Stores wl.numbers (polling x).fetched ∨
      ForeignSenderRead (polling x) wl ∨ EndsWithoutSender (polling x) := by
  cases hf : (polling x).fetched with
  | raised text =>
    unfold Recovers Returns at hrec
    rw [hf] at hrec
    exact False.elim hrec
  | pathUnavailable cause =>
    unfold Recovers Returns at hrec
    rw [hf] at hrec
    exact Or.inl hrec
  | snapshot raw =>
    have hread := shows_of_fetched _ htrans hf
    by_cases hlisted : extractFromNumber raw ∈ wl.numbers
    · -- the sender is on the list: the message is stored
      refine Or.inr (Or.inl ⟨raw, rfl, ?_⟩)
      apply Bool.eq_false_iff.mpr
      intro htrue
      exact (whitelistRejects_iff hwl _).mp htrue hlisted
    · by_cases hnone : extractFromNumber raw = []
      · exact Or.inr (Or.inr (Or.inr ⟨raw, hread, hnone⟩))
      · have hpos := calls_pos (polling x)
        exact Or.inr (Or.inr (Or.inl
          ⟨(polling x).calls - 1, by omega, raw, hread, hnone, hlisted⟩))

/-- A batch deletes entries for a reason only, exactly when none of its pollings meets a
    transient failure, and one that ends without a sender has a row of its path already
    or has read a foreign sender before. -/
theorem dlq_drops_for_reason_iff (dcfg : DlqSettings) (wl : Whitelist) (hwl : wl.numbers ≠ [])
    (polling : DlqItem → Polling cfg) (w : World) (now limit : Nat) :
    (∀ x ∈ entries w, x ∉ entries (processBatch dcfg wl.numbers polling w now limit).1 →
      ((∃ r ∈ (processBatch dcfg wl.numbers polling w now limit).1.inbound.rows,
          r.mmPath = x.smsPath) ∨ ForeignSenderRead (polling x) wl) ∧
        ¬ TransientFailure (polling x)) ↔
    ∀ x ∈ batchOf dcfg w now limit, ¬ TransientFailure (polling x) ∧
      (EndsWithoutSender (polling x) →
        (∃ r ∈ w.inbound.rows, r.mmPath = x.smsPath) ∨ ForeignSenderRead (polling x) wl) := by
  simp only [← rowsAt_ne_nil_iff]
  refine ⟨?_, ?_⟩
  · intro h x hx
    have hmem := mem_entries_of_batchOf hx
    obtain ⟨hgone, hrow⟩ := processBatch_spec dcfg wl.numbers polling now limit hmem
    -- such an entry is deleted, so there is a reason, and it is not a row the batch stored
    have hlost : (∃ raw, (polling x).fetched = .snapshot raw ∧ extractFromNumber raw = []) →
        (rowsAt w.inbound x.smsPath ≠ [] ∨ ForeignSenderRead (polling x) wl) ∧
          ¬ TransientFailure (polling x) := by
      intro hblank
      obtain ⟨raw, hraw, hnone⟩ := hblank
      obtain ⟨hrec, hnot⟩ := recovers_of_blank hwl w hraw hnone
      obtain ⟨hreason, htrans⟩ := h x hmem (hgone.mpr ⟨hx, hrec⟩)
      refine ⟨hreason.imp_left ?_, htrans⟩
      intro hr
      exact (hrow.mp hr).resolve_right (fun hs => hnot hs.2)
    have htrans : ¬ TransientFailure (polling x) := by
      intro ht
      exact (hlost ⟨[], fetched_of_transientFailure _ ht, by decide⟩).2 ht
    refine ⟨htrans, ?_⟩
    intro hend
    obtain ⟨raw, hraw, hnone⟩ := hend
    refine (hlost ⟨raw, ?_, hnone⟩).1
    rw [fetched_eq, hraw]
    rfl
  · intro h x hx hgone
    obtain ⟨hdeleted, hrow⟩ := processBatch_spec dcfg wl.numbers polling now limit hx
    obtain ⟨hbatch, hrec⟩ := hdeleted.mp hgone
    obtain ⟨htrans, hend⟩ := h x hbatch
    refine ⟨?_, htrans⟩
    rcases reason_of_recovers hwl htrans hrec with hold | hstored | hforeign | hblank
    · exact Or.inl (hrow.mpr (Or.inl hold))
    · exact Or.inl (hrow.mpr (Or.inr ⟨hbatch, hstored⟩))
    · exact Or.inr hforeign
    · exact (hend hblank).imp_left (fun hold => hrow.mpr (Or.inl hold))

end Reason

/-! ## A transient failure that loses an entry -/

def quickPolling : PollSettings := PollSettings.ofParsed (some 1) (some 1) (some 1)

/-- A polling whose calls all answer the same. -/
def answering (answer : ShowSms) : Polling quickPolling where
  clock :=
    { elapsed := fun k => k * quickPolling.emptyBackoff
      start_nonneg := by simp
      sleep_le := fun k => by push_cast; linarith }
  shows := fun _ => answer
  now := 100

def timeout : ShowSms := .mmcliError { message := "mmcli timed out".toList }

def friends : Whitelist := ⟨["+351911111111".toList], by decide⟩

def dlqDefaults : DlqSettings := ⟨1000, 60, 10⟩

/-- A message whose first persist failed waits in the queue. -/
def waitingWorld : World :=
  { emptyWorld with dlq := some (upsertDlq Table.empty firstPath 0 "database is locked".toList 50) }

def waitingItem : DlqItem := ⟨1, firstPath, 0⟩

/-- The entry is deleted although nothing was read and nothing is stored. -/
theorem dlq_entry_can_be_discarded :
    ¬ ∀ (polling : DlqItem → Polling quickPolling) (w : World) (now limit : Nat),
      ∀ x ∈ entries w, x ∉ entries (processBatch dlqDefaults friends.numbers polling w now limit).1 →
        ((∃ r ∈ (processBatch dlqDefaults friends.numbers polling w now limit).1.inbound.rows,
            r.mmPath = x.smsPath) ∨ ForeignSenderRead (polling x) friends) ∧
          ¬ TransientFailure (polling x) := by
  intro h
  have hgone := h (fun _ => answering timeout) waitingWorld 100 50 waitingItem (by decide) (by decide)
  rcases hgone.1 with hrow | ⟨k, _, raw, hread, _⟩
  · exact absurd hrow (by decide)
  · cases hread

/-- A message of a friend is stored and its entry deleted. -/
theorem dlq_drops_for_reason_friend :
    entries (processBatch dlqDefaults friends.numbers (fun _ => answering (.snapshot
        (snapshotOf "received" "+351911111111" "hello"))) waitingWorld 100 50).1 = [] ∧
      ∃ r ∈ (processBatch dlqDefaults friends.numbers (fun _ => answering (.snapshot
        (snapshotOf "received" "+351911111111" "hello"))) waitingWorld 100 50).1.inbound.rows,
        r.mmPath = firstPath := by
  refine ⟨by decide, ?_⟩
  have hreason := (dlq_drops_for_reason_iff dlqDefaults friends (by decide)
    (fun _ => answering (.snapshot (snapshotOf "received" "+351911111111" "hello"))) waitingWorld 100
    50).mpr ?_ waitingItem (by decide) (by decide)
  · rcases hreason.1 with hrow | ⟨k, _, raw, hread, _, hforeign⟩
    · exact hrow
    · -- the sender that was read is a friend
      cases hread
      exact absurd (by decide) hforeign
  · intro x _
    refine ⟨?_, ?_⟩
    · intro ht
      obtain ⟨k, _, ht⟩ := ht
      exact Bool.noConfusion ht
    · intro hend
      obtain ⟨raw, hread, hnone⟩ := hend
      cases hread
      exact absurd hnone (by decide)

end HiWaveTel
