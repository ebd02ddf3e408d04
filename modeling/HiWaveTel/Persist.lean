import HiWaveTel.WebhookOutbox
import HiWaveTel.DeadLetterQueue
import HiWaveTel.SnapshotPolling

/- Inbound persistence (`services.persist_inbound_sms`) with the post_save signal
   that schedules the webhook (`apps.SmsConfig.ready`). A snapshot either creates the
   row of its path or patches the fields of the existing row for which
   `_inbound_field_should_update` says so.

   The read (`getOrCreateInbound`), the decision (`patchedFields`) and the save
   (`savePatched`) are definitions of their own, since only the first is made under the
   lock: `persistFetched` composes them without an interruption, `ConcurrentPersist`
   interleaves them.

   `inboundFieldShouldUpdate_iff` gives the rules of the five fields one form: each
   field has a rank, and a value is replaced by one of a higher rank. -/
namespace HiWaveTel
open Foundation

/-- The databases of the process. -/
structure World where
  inbound : Table InboundSms
  outbound : Table OutboundSms
  jobs : JobTable
  dlq : Option DlqTable      -- `none` when SMS_DLQ_ENABLED is off

/-! ## The post_save signal -/

/-- The fields a snapshot can patch, in the order of `defaults`. -/
inductive InboundField where
  | fromNumber
  | text
  | mmState
  | smsc
  | modemTimestampRaw
  deriving DecidableEq, Repr

def InboundField.all : List InboundField := [.fromNumber, .text, .mmState, .smsc, .modemTimestampRaw]

/-- `patched & {'text', 'from_number', 'mm_state'}`. -/
def webhookFields : List InboundField := [.text, .fromNumber, .mmState]

/-- Whether the signal gets as far as `schedule_inbound_webhook`; `updateFields` is `none`
    when `save` was called without them. -/
def signalSchedules (outbound : Table OutboundSms) (row : InboundSms) (created : Bool)
    (updateFields : Option (List InboundField)) (now : Nat) : Bool :=
  if !inboundReadyForWebhook row then false
  else if inboundShouldSkipWebhook outbound now row then false
  else if created then true
  else match updateFields with
    | none => true
    | some patched => patched.any (fun f => webhookFields.contains f)

/-- `schedule_inbound_webhook_on_save`, with its on_commit callback run. -/
def scheduleInboundWebhookOnSave (w : World) (row : InboundSms) (created : Bool)
    (updateFields : Option (List InboundField)) (now : Nat) : World :=
  if signalSchedules w.outbound row created updateFields now then
    { w with jobs := scheduleInboundWebhook w.jobs row.pk now }
  else w

/-! ## Defaults and patches -/

/-- The `defaults` of the get_or_create. -/
structure Defaults where
  modemIndex : Nat
  fromNumber : Str
  text : Str
  mmState : Str
  smsc : Str
  modemTimestampRaw : Str
  deriving DecidableEq, Repr

def defaultsOf (modemIndex : Nat) (raw : Details) : Defaults :=
  { modemIndex, fromNumber := extractFromNumber raw, text := extractText raw,
    mmState := extractState raw, smsc := extractSmsc raw,
    modemTimestampRaw := extractTimestamp raw }

/-- `getattr(obj, field_name)`. -/
def InboundField.current (r : InboundSms) : InboundField → Str
  | .fromNumber => r.fromNumber
  | .text => r.text
  | .mmState => r.mmState
  | .smsc => r.smsc
  | .modemTimestampRaw => r.modemTimestampRaw

/-- `defaults[field_name]`. -/
def InboundField.desired (d : Defaults) : InboundField → Str
  | .fromNumber => d.fromNumber
  | .text => d.text
  | .mmState => d.mmState
  | .smsc => d.smsc
  | .modemTimestampRaw => d.modemTimestampRaw

/-- `_STALE_MM_STATES`. -/
def staleMmStates : List Str := ["receiving", "unknown", ""].map String.toList

/-- `_inbound_field_should_update`. -/
def inboundFieldShouldUpdate (field : InboundField) (current desired : Str) : Bool :=
  let cur := Text.strip current
  let des := Text.strip desired
  match field with
  | .text => if des = [] then false else decide (cur = [] ∨ cur.length < des.length)
  | .mmState =>
    if des = [] then false
    else
      let curNorm := normalizeMmState cur
      let desNorm := normalizeMmState des
      if curNorm ∈ staleMmStates ∧ desNorm ∉ staleMmStates then true
      else decide (curNorm = [] ∧ desNorm ≠ [])
  | .fromNumber | .smsc | .modemTimestampRaw => decide (cur = [] ∧ des ≠ [])

/-- The keys of `patched`. -/
def patchedFields (r : InboundSms) (d : Defaults) : List InboundField :=
  InboundField.all.filter (fun f => inboundFieldShouldUpdate f (f.current r) (f.desired d))

/-- `setattr` of the patched fields. -/
def setFields (fields : List InboundField) (d : Defaults) (r : InboundSms) : InboundSms :=
  { r with
    fromNumber := if .fromNumber ∈ fields then d.fromNumber else r.fromNumber
    text := if .text ∈ fields then d.text else r.text
    mmState := if .mmState ∈ fields then d.mmState else r.mmState
    smsc := if .smsc ∈ fields then d.smsc else r.smsc
    modemTimestampRaw :=
      if .modemTimestampRaw ∈ fields then d.modemTimestampRaw else r.modemTimestampRaw }

theorem setFields_nil (d : Defaults) (r : InboundSms) : setFields [] d r = r := by
  simp [setFields]

/-- `save(update_fields=list(patched.keys()))`. -/
def saveFields (fields : List InboundField) (d : Defaults) : RowUpdate InboundSms where
  set := setFields fields d
  pk_set _ := rfl
  clash_left _ _ := Iff.rfl
  clash_right _ _ := Iff.rfl

/-! ## persist_inbound_sms -/

def newInboundSms (mmPath : Str) (d : Defaults) (now : Nat) : NewRow InboundSms where
  sought r := r.mmPath == mmPath
  make n :=
    { pk := n, mmPath, modemIndex := d.modemIndex, fromNumber := d.fromNumber, text := d.text,
      mmState := d.mmState, smsc := d.smsc, modemTimestampRaw := d.modemTimestampRaw,
      createdAt := now }
  pk_make _ := rfl
  sought_make _ := by simp
  clash_sought _ _ h := by simpa [inbound_clash] using h

/-- The get_or_create under the lock, and the signal of a row it creates. -/
def getOrCreateInbound (w : World) (mmPath : Str) (d : Defaults) (now : Nat) :
    World × InboundSms × Bool :=
  let (inbound, row, created) := w.inbound.getOrCreate (newInboundSms mmPath d now)
  let w := { w with inbound }
  (if created then scheduleInboundWebhookOnSave w row true none now else w, row, created)

/-- The save of the patched fields of the copy, and its signal. -/
def savePatched (w : World) (row : InboundSms) (fields : List InboundField) (d : Defaults)
    (now : Nat) : World × InboundSms :=
  if fields = [] then (w, row)
  else
    let obj := setFields fields d row
    let w := { w with inbound := w.inbound.update row.pk (saveFields fields d) }
    (scheduleInboundWebhookOnSave w obj false (some fields) now, obj)

theorem savePatched_fst {w : World} {row : InboundSms} {fields : List InboundField} {d : Defaults}
    {now : Nat} (h : fields ≠ []) : (savePatched w row fields d now).1 =
      scheduleInboundWebhookOnSave
        { w with inbound := w.inbound.update row.pk (saveFields fields d) }
        (setFields fields d row) false (some fields) now := by
  unfold savePatched
  rw [if_neg h]

/-- `dlq.remove_by_path(mm_path)` when the queue is on. -/
def removeFromDlq (w : World) (mmPath : Str) : World :=
  { w with dlq := w.dlq.map (fun t => removeByPath t mmPath) }

/-- What is done with a snapshot that the whitelist lets through. -/
def storeSnapshot (w : World) (mmPath : Str) (d : Defaults) (now : Nat) : World × InboundSms :=
  let (w, row, created) := getOrCreateInbound w mmPath d now
  let (w, row) := if created then (w, row) else savePatched w row (patchedFields row d) d now
  (removeFromDlq w mmPath, row)

/-- `_UNAVAILABLE_MM_STATES`. -/
def unavailableMmStates : List Str := ["unavailable", "missing"].map String.toList

def unavailable : Defaults := ⟨0, [], [], "unavailable".toList, [], []⟩

/-- The `existing` row of a path that ModemManager no longer exposes. -/
def markUnavailable (w : World) (row : InboundSms) (now : Nat) : World × InboundSms :=
  if normalizeMmState row.mmState ∈ unavailableMmStates then (w, row)
  else savePatched w row [.mmState] unavailable now

/-- What `persist_inbound_sms` returns: a stored row, or an object that is not saved. -/
inductive Persisted where
  | stored (row : InboundSms)
  | rejected (mmPath : Str) (modemIndex : Nat) (fromNumber text mmState : Str)
  deriving DecidableEq, Repr

inductive PersistError where
  | pathUnavailable (mmPath : Str) (cause : MmcliError)
  | raised (text : Str)
  deriving DecidableEq, Repr

/-- `str(exc)`. -/
def PersistError.text : PersistError → Str
  | .pathUnavailable mmPath _ => mmPath
  | .raised text => text

/-- `SMS_INBOUND_WHITELIST` is set and does not have the sender. -/
def whitelistRejects (whitelist : List Str) (fromNumber : Str) : Bool :=
  !whitelist.isEmpty && !whitelist.contains fromNumber

/-- `persist_inbound_sms` from the end of the polling on. -/
def persistFetched (whitelist : List Str) (w : World) (mmPath : Str) (modemIndex now : Nat)
    (fetched : Fetched) : World × Except PersistError Persisted :=
  match fetched with
  | .raised text => (w, .error (.raised text))
  | .pathUnavailable cause =>
    match w.inbound.rows.find? (fun r => r.mmPath == mmPath) with
    | some row =>
      let (w, row) := markUnavailable w row now
      (w, .ok (.stored row))
    | none => (w, .error (.pathUnavailable mmPath cause))
  | .snapshot raw =>
    let d := defaultsOf modemIndex raw
    if whitelistRejects whitelist d.fromNumber then
      (w, .ok (.rejected mmPath modemIndex d.fromNumber "[REJECTED BY WHITELIST]".toList
        "rejected".toList))
    else
      let (w, row) := storeSnapshot w mmPath d now
      (w, .ok (.stored row))

def persistInboundSms {cfg : PollSettings} (clock : PollClock cfg) (shows : Nat → ShowSms)
    (whitelist : List Str) (w : World) (mmPath : Str) (modemIndex now : Nat) :
    World × Except PersistError Persisted :=
  persistFetched whitelist w mmPath modemIndex now
    (fetchMmcliSnapshotWithRetries cfg clock shows).2

/-! ## What the signal touches -/

section Signal
variable (w : World) (row : InboundSms) (created : Bool) (fs : Option (List InboundField)) (now : Nat)

@[simp] theorem onSave_inbound :
    (scheduleInboundWebhookOnSave w row created fs now).inbound = w.inbound := by
  unfold scheduleInboundWebhookOnSave; split <;> rfl

@[simp] theorem onSave_outbound :
    (scheduleInboundWebhookOnSave w row created fs now).outbound = w.outbound := by
  unfold scheduleInboundWebhookOnSave; split <;> rfl

@[simp] theorem onSave_dlq :
    (scheduleInboundWebhookOnSave w row created fs now).dlq = w.dlq := by
  unfold scheduleInboundWebhookOnSave; split <;> rfl

end Signal

/-- What a call does to the jobs: nothing, or one schedule call. -/
def OneSchedule (jobs jobs' : JobTable) (now : Nat) : Prop :=
  jobs' = jobs ∨ ∃ pk, jobs' = scheduleInboundWebhook jobs pk now

theorem onSave_jobs (w : World) (row : InboundSms) (created : Bool)
    (fs : Option (List InboundField)) (now : Nat) :
    OneSchedule w.jobs (scheduleInboundWebhookOnSave w row created fs now).jobs now := by
  unfold scheduleInboundWebhookOnSave
  split
  · exact Or.inr ⟨row.pk, rfl⟩
  · exact Or.inl rfl

theorem savePatched_jobs (w : World) (row : InboundSms) (fields : List InboundField) (d : Defaults)
    (now : Nat) : OneSchedule w.jobs (savePatched w row fields d now).1.jobs now := by
  unfold savePatched
  split
  · exact Or.inl rfl
  · exact onSave_jobs _ _ _ _ _

theorem storeSnapshot_jobs (w : World) (p : Str) (d : Defaults) (now : Nat) :
    OneSchedule w.jobs (storeSnapshot w p d now).1.jobs now := by
  unfold storeSnapshot getOrCreateInbound
  rcases w.inbound.getOrCreate_cases (newInboundSms p d now) with ⟨r, hr, he⟩ | ⟨h, he⟩
  · rw [he]
    exact savePatched_jobs _ _ _ _ _
  · rw [he]
    exact onSave_jobs _ _ _ _ _

theorem persistFetched_jobs (whitelist : List Str) (w : World) (p : Str) (modemIndex now : Nat)
    (fetched : Fetched) :
    OneSchedule w.jobs (persistFetched whitelist w p modemIndex now fetched).1.jobs now := by
  cases fetched with
  | raised text => exact Or.inl rfl
  | pathUnavailable cause =>
    simp only [persistFetched]
    split
    · next row _ =>
      show OneSchedule _ (markUnavailable w row now).1.jobs _
      unfold markUnavailable
      split
      · exact Or.inl rfl
      · exact savePatched_jobs _ _ _ _ _
    · exact Or.inl rfl
  | snapshot raw =>
    simp only [persistFetched]
    split
    · exact Or.inl rfl
    · exact storeSnapshot_jobs _ _ _ _

/-! ## What a snapshot does to the inbound table -/

/-- The rows of a path; `mm_path` is UNIQUE, so there is at most one. -/
def rowsAt (t : Table InboundSms) (p : Str) : List InboundSms := t.rows.filter (fun r => r.mmPath == p)

theorem rowsAt_eq_singleton {t : Table InboundSms} {r : InboundSms} (hr : r ∈ t.rows) :
    rowsAt t r.mmPath = [r] := by
  apply Table.filter_eq_singleton hr
  · simp
  · intro a b ha hb
    have ha : a.mmPath = r.mmPath := by simpa using ha
    have hb : b.mmPath = r.mmPath := by simpa using hb
    exact (inbound_clash a b).mpr (ha.trans hb.symm)

theorem mem_of_rowsAt {t : Table InboundSms} {p : Str} {r : InboundSms} (h : r ∈ rowsAt t p) :
    r ∈ t.rows ∧ r.mmPath = p := by
  simpa [rowsAt] using h

/-- A save of patched fields leaves every selection by path alone that misses the row. -/
theorem filter_saveFields {t : Table InboundSms} {r : InboundSms} (hr : r ∈ t.rows)
    (fields : List InboundField) (d : Defaults) {q : Str → Bool} (hq : q r.mmPath = false) :
    (t.update r.pk (saveFields fields d)).rows.filter (fun s => q s.mmPath) =
      t.rows.filter (fun s => q s.mmPath) := by
  apply Table.filter_update_of_not
  · exact fun _ => rfl
  · intro s hs hpk
    have hsr : s = r := t.pk_injOn hs hr hpk
    rw [hsr]
    exact hq

theorem rowsAt_update_self {t : Table InboundSms} {r : InboundSms} (hr : r ∈ t.rows)
    (fields : List InboundField) (d : Defaults) :
    rowsAt (t.update r.pk (saveFields fields d)) r.mmPath = [setFields fields d r] := by
  have hone : t.rows.filter (fun s => s.mmPath == r.mmPath) = [r] := rowsAt_eq_singleton hr
  unfold rowsAt
  rw [Table.filter_update t r.pk (saveFields fields d) (fun _ => rfl), hone]
  simp [saveFields]

/-- The row a snapshot leaves of an existing row. -/
def mergeRow (d : Defaults) (r : InboundSms) : InboundSms := setFields (patchedFields r d) d r

theorem getOrCreateInbound_cases (w : World) (p : Str) (d : Defaults) (now : Nat) :
    (∃ r ∈ w.inbound.rows, r.mmPath = p ∧ getOrCreateInbound w p d now = (w, r, false)) ∨
    (∃ h, rowsAt w.inbound p = [] ∧ getOrCreateInbound w p d now =
      (scheduleInboundWebhookOnSave
        { w with inbound := w.inbound.insert (newInboundSms p d now) h }
        ((newInboundSms p d now).make w.inbound.nextPk) true none now,
        (newInboundSms p d now).make w.inbound.nextPk, true)) := by
  unfold getOrCreateInbound
  rcases w.inbound.getOrCreate_cases (newInboundSms p d now) with ⟨r, hr, he⟩ | ⟨h, he⟩
  · have hrp : r.mmPath = p := by simpa [newInboundSms] using List.find?_some hr
    rw [he]
    exact Or.inl ⟨r, List.mem_of_find?_eq_some hr, hrp, rfl⟩
  · have hnone : rowsAt w.inbound p = [] := by
      apply List.filter_eq_nil_iff.mpr
      intro r hr
      have hs : (newInboundSms p d now).sought r = false := h r hr
      simpa [newInboundSms] using hs
    rw [he]
    exact Or.inr ⟨h, hnone, rfl⟩

/-- A snapshot creates the row of its path, or merges into it, and touches no other row. -/
theorem storeSnapshot_cases (w : World) (p : Str) (d : Defaults) (now : Nat) :
    (rowsAt w.inbound p = [] ∧ ∃ h, (storeSnapshot w p d now).1.inbound =
        w.inbound.insert (newInboundSms p d now) h) ∨
    (∃ r ∈ w.inbound.rows, r.mmPath = p ∧ (storeSnapshot w p d now).2 = mergeRow d r ∧
      ((patchedFields r d = [] ∧ (storeSnapshot w p d now).1.inbound = w.inbound) ∨
        (storeSnapshot w p d now).1.inbound =
          w.inbound.update r.pk (saveFields (patchedFields r d) d))) := by
  unfold storeSnapshot
  rcases getOrCreateInbound_cases w p d now with ⟨r, hr, hrp, he⟩ | ⟨h, hnone, he⟩
  · rw [he]
    refine Or.inr ⟨r, hr, hrp, ?_, ?_⟩
    · show (savePatched w r (patchedFields r d) d now).2 = _
      unfold savePatched mergeRow
      split
      · next hnil => rw [hnil, setFields_nil]
      · rfl
    · show (_ ∧ (savePatched w r (patchedFields r d) d now).1.inbound = _) ∨
        (savePatched w r (patchedFields r d) d now).1.inbound = _
      unfold savePatched
      split
      · next hnil => exact Or.inl ⟨hnil, rfl⟩
      · exact Or.inr (onSave_inbound _ _ _ _ _)
  · rw [he]
    exact Or.inl ⟨hnone, h, onSave_inbound _ _ _ _ _⟩

theorem filter_storeSnapshot {w : World} {p : Str} (d : Defaults) (now : Nat) {q : Str → Bool}
    (hq : q p = false) :
    (storeSnapshot w p d now).1.inbound.rows.filter (fun r => q r.mmPath) =
      w.inbound.rows.filter (fun r => q r.mmPath) := by
  rcases storeSnapshot_cases w p d now with ⟨_, hfresh, he⟩ | ⟨r, hr, rfl, _, ⟨_, he⟩ | he⟩
  · rw [he, Table.insert_rows, List.filter_append]
    simp [newInboundSms, hq]
  · rw [he]
  · rw [he]
    exact filter_saveFields hr _ _ hq

theorem rowsAt_storeSnapshot_of_ne {w : World} {p q : Str} (d : Defaults) (now : Nat) (h : p ≠ q) :
    rowsAt (storeSnapshot w p d now).1.inbound q = rowsAt w.inbound q :=
  filter_storeSnapshot d now (q := (· == q)) (by simpa using h)

theorem rowsAt_storeSnapshot_new {w : World} {p : Str} (d : Defaults) (now : Nat)
    (h : rowsAt w.inbound p = []) :
    rowsAt (storeSnapshot w p d now).1.inbound p =
      [(newInboundSms p d now).make w.inbound.nextPk] := by
  rcases storeSnapshot_cases w p d now with ⟨hnone, hfresh, he⟩ | ⟨r, hr, rfl, _⟩
  · rw [he]
    have hnone : w.inbound.rows.filter (fun r => r.mmPath == p) = [] := hnone
    unfold rowsAt
    rw [Table.insert_rows, List.filter_append, hnone]
    simp [newInboundSms]
  · rw [rowsAt_eq_singleton hr] at h
    cases h

theorem rowsAt_storeSnapshot_old {w : World} {p : Str} {r : InboundSms} (d : Defaults) (now : Nat)
    (h : rowsAt w.inbound p = [r]) :
    rowsAt (storeSnapshot w p d now).1.inbound p = [mergeRow d r] := by
  rcases storeSnapshot_cases w p d now with ⟨hnone, _⟩ | ⟨r', hr, rfl, _, hsaved⟩
  · rw [h] at hnone
    cases hnone
  · rw [rowsAt_eq_singleton hr] at h
    cases h
    rcases hsaved with ⟨hnil, he⟩ | he
    · rw [he, rowsAt_eq_singleton hr, mergeRow, hnil, setFields_nil]
    · rw [he, rowsAt_update_self hr]
      rfl

/-! ## What a call does to the rows and to the dead-letter queue -/

theorem rowsAt_ne_nil_iff {t : Table InboundSms} {p : Str} :
    rowsAt t p ≠ [] ↔ ∃ r ∈ t.rows, r.mmPath = p := by
  refine ⟨?_, ?_⟩
  · intro h
    obtain ⟨r, hr⟩ := List.exists_mem_of_ne_nil _ h
    exact ⟨r, mem_of_rowsAt hr⟩
  · intro h
    obtain ⟨r, hr, rfl⟩ := h
    rw [rowsAt_eq_singleton hr]
    exact List.cons_ne_nil r []

theorem rowsAt_storeSnapshot_ne_nil (w : World) (p : Str) (d : Defaults) (now : Nat) :
    rowsAt (storeSnapshot w p d now).1.inbound p ≠ [] := by
  cases h : rowsAt w.inbound p with
  | nil =>
    rw [rowsAt_storeSnapshot_new d now h]
    exact List.cons_ne_nil _ _
  | cons r rest =>
    obtain ⟨hr, rfl⟩ := mem_of_rowsAt (show r ∈ rowsAt w.inbound p by rw [h]; simp)
    rw [rowsAt_storeSnapshot_old d now (rowsAt_eq_singleton hr)]
    exact List.cons_ne_nil _ _

/-- The row of a path that is gone keeps its path, and no other row is touched. -/
theorem rowsAt_markUnavailable {w : World} {row : InboundSms} (hr : row ∈ w.inbound.rows)
    (now : Nat) :
    rowsAt (markUnavailable w row now).1.inbound row.mmPath ≠ [] ∧
      ∀ q, row.mmPath ≠ q →
        rowsAt (markUnavailable w row now).1.inbound q = rowsAt w.inbound q := by
  unfold markUnavailable savePatched
  split
  · exact ⟨rowsAt_ne_nil_iff.mpr ⟨row, hr, rfl⟩, fun _ _ => rfl⟩
  · simp only [List.cons_ne_nil, if_false, onSave_inbound]
    refine ⟨?_, ?_⟩
    · rw [rowsAt_update_self hr]
      exact List.cons_ne_nil _ _
    · intro q hq
      exact filter_saveFields hr _ _ (q := (· == q)) (by simpa using hq)

theorem find?_eq_head?_rowsAt (t : Table InboundSms) (p : Str) :
    t.rows.find? (fun r => r.mmPath == p) = (rowsAt t p).head? := by
  rw [rowsAt, List.head?_filter]

section Persisted
variable (whitelist : List Str) (w : World) (p : Str) (modemIndex now : Nat) (fetched : Fetched)

/-- The snapshot is one that the whitelist lets through. -/
def Stores (whitelist : List Str) (fetched : Fetched) : Prop :=
  ∃ raw, fetched = .snapshot raw ∧ whitelistRejects whitelist (extractFromNumber raw) = false

theorem rowsAt_persistFetched_of_ne {q : Str} (h : p ≠ q) :
    rowsAt (persistFetched whitelist w p modemIndex now fetched).1.inbound q =
      rowsAt w.inbound q := by
  cases fetched with
  | raised text => rfl
  | pathUnavailable cause =>
    simp only [persistFetched]
    split
    · next row hrow =>
      have hp : row.mmPath = p := by simpa using List.find?_some hrow
      exact (rowsAt_markUnavailable (List.mem_of_find?_eq_some hrow) now).2 q (hp ▸ h)
    · rfl
  | snapshot raw =>
    simp only [persistFetched]
    split
    · rfl
    · exact rowsAt_storeSnapshot_of_ne _ _ h

/-- The path has a row afterwards if it had one or the snapshot was stored. -/
theorem rowsAt_persistFetched :
    rowsAt (persistFetched whitelist w p modemIndex now fetched).1.inbound p ≠ [] ↔
      rowsAt w.inbound p ≠ [] ∨ Stores whitelist fetched := by
  cases fetched with
  | raised text => simp [persistFetched, Stores]
  | pathUnavailable cause =>
    simp only [persistFetched, Stores, reduceCtorEq, false_and, exists_false, or_false]
    split
    · next row hrow =>
      have hp : row.mmPath = p := by simpa using List.find?_some hrow
      have hr := List.mem_of_find?_eq_some hrow
      subst hp
      exact iff_of_true (rowsAt_markUnavailable hr now).1 (rowsAt_ne_nil_iff.mpr ⟨row, hr, rfl⟩)
    · exact Iff.rfl
  | snapshot raw =>
    simp only [persistFetched, Stores, Fetched.snapshot.injEq, exists_eq_left']
    split
    · next hrej =>
      have hrej : whitelistRejects whitelist (extractFromNumber raw) = true := hrej
      simp [hrej]
    · next hrej =>
      have hrej : whitelistRejects whitelist (extractFromNumber raw) = false :=
        Bool.eq_false_iff.mpr hrej
      exact iff_of_true (rowsAt_storeSnapshot_ne_nil w p _ now) (Or.inr hrej)

/-- The call returns: the path was read, or its object is gone and its row known. -/
def Returns (w : World) (p : Str) (fetched : Fetched) : Prop :=
  match fetched with
  | .snapshot _ => True
  | .pathUnavailable _ => rowsAt w.inbound p ≠ []
  | .raised _ => False

theorem persistFetched_isOk :
    (∃ res, (persistFetched whitelist w p modemIndex now fetched).2 = .ok res) ↔
      Returns w p fetched := by
  cases fetched with
  | raised text => simp [persistFetched, Returns]
  | pathUnavailable cause =>
    simp only [persistFetched, Returns, find?_eq_head?_rowsAt]
    cases h : rowsAt w.inbound p <;> simp
  | snapshot raw =>
    simp only [persistFetched, Returns]
    split <;> simp

theorem savePatched_dlq (row : InboundSms) (fields : List InboundField) (d : Defaults) :
    (savePatched w row fields d now).1.dlq = w.dlq := by
  unfold savePatched
  split
  · rfl
  · rw [onSave_dlq]

theorem storeSnapshot_dlq (d : Defaults) :
    (storeSnapshot w p d now).1.dlq = w.dlq.map (fun t => removeByPath t p) := by
  unfold storeSnapshot
  rcases getOrCreateInbound_cases w p d now with ⟨r, _, _, he⟩ | ⟨h, _, he⟩
  · rw [he]
    show (savePatched w r _ d now).1.dlq.map _ = _
    rw [savePatched_dlq]
  · rw [he]
    show (scheduleInboundWebhookOnSave _ _ _ _ _).dlq.map _ = _
    rw [onSave_dlq]

/-- Only a stored snapshot takes its path out of the dead-letter queue. -/
theorem persistFetched_dlq :
    (Stores whitelist fetched ∧ (persistFetched whitelist w p modemIndex now fetched).1.dlq =
        w.dlq.map (fun t => removeByPath t p)) ∨
      (¬ Stores whitelist fetched ∧
        (persistFetched whitelist w p modemIndex now fetched).1.dlq = w.dlq) := by
  cases fetched with
  | raised text => exact Or.inr ⟨by simp [Stores], rfl⟩
  | pathUnavailable cause =>
    refine Or.inr ⟨by simp [Stores], ?_⟩
    simp only [persistFetched]
    split
    · next row _ =>
      show (markUnavailable w row now).1.dlq = _
      unfold markUnavailable
      split
      · rfl
      · exact savePatched_dlq w now row _ _
    · rfl
  | snapshot raw =>
    simp only [persistFetched]
    split
    · next hrej =>
      have hrej : whitelistRejects whitelist (extractFromNumber raw) = true := hrej
      exact Or.inr ⟨by simp [Stores, hrej], rfl⟩
    · next hrej =>
      have hrej : whitelistRejects whitelist (extractFromNumber raw) = false :=
        Bool.eq_false_iff.mpr hrej
      exact Or.inl ⟨⟨raw, rfl, hrej⟩, storeSnapshot_dlq w p now _⟩

end Persisted

/-! ## The rank of a value -/

/-- How much a value is worth to its field: a text its length, a state nothing when it is
    blank and most when it is not stale, the rest whether they are there at all. -/
def InboundField.rank (field : InboundField) (v : Str) : Nat :=
  match field with
  | .text => (Text.strip v).length
  | .mmState =>
    if Text.strip v = [] then 0 else if normalizeMmState v ∈ staleMmStates then 1 else 2
  | _ => if Text.strip v = [] then 0 else 1

theorem normalizeMmState_strip (v : Str) : normalizeMmState (Text.strip v) = normalizeMmState v := by
  unfold normalizeMmState
  rw [Text.strip_strip]

theorem normalizeMmState_eq_nil {v : Str} : normalizeMmState v = [] ↔ Text.strip v = [] := by
  unfold normalizeMmState
  rw [Text.lower_eq_nil]

/-- A field is patched exactly when the snapshot has a value of a higher rank. -/
theorem inboundFieldShouldUpdate_iff (field : InboundField) (current desired : Str) :
    inboundFieldShouldUpdate field current desired = true ↔
      field.rank current < field.rank desired := by
  have hblank : ∀ cur des : Str, decide (cur = [] ∧ des ≠ []) = true ↔
      (if cur = [] then 0 else 1) < (if des = [] then 0 else 1) := by
    intro cur des
    by_cases hc : cur = [] <;> by_cases hd : des = [] <;> simp [hc, hd]
  cases field with
  | text =>
    simp only [inboundFieldShouldUpdate, InboundField.rank]
    by_cases hd : Text.strip desired = []
    · simp [hd]
    · have hpos : 0 < (Text.strip desired).length := List.length_pos_of_ne_nil hd
      by_cases hc : Text.strip current = []
      · simp [hd, hc, hpos]
      · simp [hd, hc]
  | mmState =>
    simp only [inboundFieldShouldUpdate, InboundField.rank, normalizeMmState_strip]
    by_cases hd : Text.strip desired = []
    · simp [hd]
    · have hdn : normalizeMmState desired ≠ [] := fun h => hd (normalizeMmState_eq_nil.mp h)
      by_cases hc : Text.strip current = []
      · have hcn : normalizeMmState current = [] := normalizeMmState_eq_nil.mpr hc
        by_cases hs : normalizeMmState desired ∈ staleMmStates <;> simp [hd, hc, hcn, hdn, hs]
      · have hcn : normalizeMmState current ≠ [] := fun h => hc (normalizeMmState_eq_nil.mp h)
        by_cases hs : normalizeMmState current ∈ staleMmStates <;>
          by_cases hs' : normalizeMmState desired ∈ staleMmStates <;>
          simp [hd, hc, hcn, hs, hs']
  | fromNumber => exact hblank _ _
  | smsc => exact hblank _ _
  | modemTimestampRaw => exact hblank _ _

theorem mem_patchedFields {r : InboundSms} {d : Defaults} {f : InboundField} :
    f ∈ patchedFields r d ↔ f.rank (f.current r) < f.rank (f.desired d) := by
  have hall : f ∈ InboundField.all := by cases f <;> decide
  rw [patchedFields, List.mem_filter, inboundFieldShouldUpdate_iff]
  exact and_iff_right hall

theorem current_setFields (fields : List InboundField) (d : Defaults) (r : InboundSms)
    (f : InboundField) :
    f.current (setFields fields d r) = if f ∈ fields then f.desired d else f.current r := by
  cases f <;> rfl

/-! ## Sample data of the runs -/

def emptyWorld : World := ⟨Table.empty, Table.empty, Table.empty, some Table.empty⟩

def firstPath : Str := "/org/freedesktop/ModemManager1/SMS/0".toList

/-- The snapshot of an SMS object with a state, a sender and a text. -/
def snapshotOf (state number text : String) : Details :=
  [("smspropertiesstate".toList, state.toList), ("smscontentnumber".toList, number.toList),
    ("smscontenttext".toList, text.toList)]

/-- A multipart message whose row was created before its text could be read. -/
def blankRow : InboundSms :=
  { pk := 1, mmPath := firstPath, modemIndex := 0, fromNumber := "+351911111111".toList, text := [],
    mmState := "receiving".toList, smsc := [], modemTimestampRaw := [], createdAt := 0 }

def blankWorld : World :=
  { emptyWorld with
    inbound := ⟨[blankRow], 2, by decide, List.pairwise_singleton _ _, List.pairwise_singleton _ _⟩ }

end HiWaveTel
