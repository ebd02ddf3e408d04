import HiWaveTel.EchoRace

/- Webhook completeness of inbound persistence, over any sequence of calls of
   `persist_inbound_sms` and whatever outbound rows each of them finds. The whitelist is
   empty, and the schedule calls succeed.

   A row can only become ready for its webhook by a save of `text` or `from_number`, and
   the signal looks at those (`effect_persistFetched`). So the filter's answer at the last
   save of `text`, `from_number` or `mm_state` settles whether a ready row has a job
   (`inbound_webhook_complete`). -/
namespace HiWaveTel
open Foundation

/-- A call of `persist_inbound_sms`: what its polling came to, and the outbound rows the filter
    finds. -/
structure PersistCall where
  mmPath : Str
  modemIndex : Nat
  fetched : Fetched
  now : Nat
  outbound : Table OutboundSms

/-- The row as the call saves it, when it creates it or writes its `text`, `from_number` or
    `mm_state`. -/
def writtenRow (w : World) (call : PersistCall) : Option InboundSms :=
  match call.fetched with
  | .raised _ => none
  | .pathUnavailable _ =>
    match w.inbound.rows.find? (fun r => r.mmPath == call.mmPath) with
    | some row =>
      if normalizeMmState row.mmState ∈ unavailableMmStates then none
      else some (setFields [.mmState] unavailable row)
    | none => none
  | .snapshot raw =>
    let d := defaultsOf call.modemIndex raw
    let (_, row, created) := getOrCreateInbound w call.mmPath d call.now
    if created then some row
    else if (patchedFields row d).any (fun f => webhookFields.contains f) then some (mergeRow d row)
    else none

/-- The tables, and for each inbound row whether `find_matching_outbound` was `None` when it was
    last written. -/
structure PersistLedger where
  world : World
  unmatched : Nat → Bool

def PersistLedger.start (outbound : Table OutboundSms) (dlq : Option DlqTable) : PersistLedger :=
  ⟨⟨Table.empty, outbound, Table.empty, dlq⟩, fun _ => false⟩

/-- What the filter says of a written row. -/
def noteMatch (call : PersistCall) (unmatched : Nat → Bool) : Option InboundSms → Nat → Bool
  | none => unmatched
  | some row =>
    Function.update unmatched row.pk (findMatchingOutbound call.outbound call.now row).isNone

def ledgerStep (s : PersistLedger) (call : PersistCall) : PersistLedger :=
  let w := { s.world with outbound := call.outbound }
  { world := (persistFetched [] w call.mmPath call.modemIndex call.now call.fetched).1
    unmatched := noteMatch call s.unmatched (writtenRow w call) }

/-! ## What a call does -/

/-- No row is created and no field the signal looks at is written. -/
structure WroteNothing (w w' : World) : Prop where
  rows : ∀ r' ∈ w'.inbound.rows, ∃ r ∈ w.inbound.rows,
    r.pk = r'.pk ∧ r.text = r'.text ∧ r.fromNumber = r'.fromNumber ∧ r.mmState = r'.mmState
  jobs : w'.jobs = w.jobs
  nextPk : w'.inbound.nextPk = w.inbound.nextPk

/-- The row is written and the others are not, and it gets its job when it is not held back. -/
structure Wrote (w w' : World) (now : Nat) (row : InboundSms) : Prop where
  written : row ∈ w'.inbound.rows
  rows : ∀ r' ∈ w'.inbound.rows, r' = row ∨ (r' ∈ w.inbound.rows ∧ r'.pk ≠ row.pk)
  jobs : ∀ q, HasInboundJob w'.jobs q ↔
    HasInboundJob w.jobs q ∨ (q = row.pk ∧ ¬ Silent w.outbound now row)
  fit : JobsFit w'.jobs w'.inbound.nextPk

def CallEffect (w w' : World) (now : Nat) : Option InboundSms → Prop
  | none => WroteNothing w w'
  | some row => Wrote w w' now row

theorem wroteNothing_refl (w : World) : WroteNothing w w :=
  ⟨fun r hr => ⟨r, hr, rfl, rfl, rfl, rfl⟩, rfl, rfl⟩

/-- The queue of failures is not part of it. -/
theorem callEffect_removeFromDlq {w w' : World} {now : Nat} {written : Option InboundSms}
    (h : CallEffect w w' now written) (p : Str) : CallEffect w (removeFromDlq w' p) now written := by
  cases written with
  | none => exact ⟨h.rows, h.jobs, h.nextPk⟩
  | some row => exact ⟨h.written, h.rows, h.jobs, h.fit⟩

theorem effect_created {w : World} {p : Str} {d : Defaults} {now : Nat}
    (h : JobsFit w.jobs w.inbound.nextPk)
    (hfresh : ∀ r ∈ w.inbound.rows, (newInboundSms p d now).sought r = false) :
    CallEffect w (scheduleInboundWebhookOnSave
        { w with inbound := w.inbound.insert (newInboundSms p d now) hfresh }
        ((newInboundSms p d now).make w.inbound.nextPk) true none now) now
      (some ((newInboundSms p d now).make w.inbound.nextPk)) := by
  have hfit : JobsFit w.jobs (w.inbound.nextPk + 1) := h.mono (Nat.le_succ _)
  refine ⟨?_, ?_, ?_, ?_⟩
  · rw [onSave_inbound]
    exact List.mem_append_right _ (List.mem_singleton_self _)
  · intro r' hr'
    rw [onSave_inbound] at hr'
    rcases List.mem_append.mp hr' with hold | hnew
    · exact Or.inr ⟨hold, Nat.ne_of_lt (w.inbound.pk_lt r' hold)⟩
    · exact Or.inl (List.mem_singleton.mp hnew)
  · intro q
    rw [hasInboundJob_onSave (w := { w with inbound := w.inbound.insert _ hfresh }) h,
      signalSchedules_iff]
    simp
  · rw [onSave_inbound]
    exact jobsFit_onSave (w := { w with inbound := w.inbound.insert _ hfresh }) hfit _
      (Nat.lt_succ_self w.inbound.nextPk) true none now

section Patch
variable {w : World} {row : InboundSms} {fields : List InboundField} {d : Defaults} {now : Nat}

/-- A patch of a field the signal looks at is notified. -/
theorem wrote_savePatched (h : JobsFit w.jobs w.inbound.nextPk) (hrow : row ∈ w.inbound.rows)
    (hany : fields.any (fun f => webhookFields.contains f) = true) :
    Wrote w (savePatched w row fields d now).1 now (setFields fields d row) := by
  have hnil : fields ≠ [] := by
    rintro rfl
    cases hany
  rw [savePatched_fst hnil]
  refine ⟨?_, ?_, ?_, ?_⟩
  · rw [onSave_inbound]
    exact (Table.mem_update_self hrow).mpr (Or.inl rfl)
  · intro r' hr'
    rw [onSave_inbound] at hr'
    exact (Table.mem_update_self hrow).mp hr'
  · intro q
    rw [hasInboundJob_onSave (w := { w with inbound := w.inbound.update row.pk _ }) h,
      signalSchedules_iff, Option.elim_some]
    simp only [hany, or_true, and_true]
  · rw [onSave_inbound]
    exact jobsFit_onSave (w := { w with inbound := w.inbound.update row.pk _ }) h
      (setFields fields d row) (w.inbound.pk_lt row hrow) false (some fields) now

/-- Any other patch is not, and the filter's answer stays what it was. -/
theorem wroteNothing_savePatched (hrow : row ∈ w.inbound.rows)
    (hany : ¬ fields.any (fun f => webhookFields.contains f) = true) :
    WroteNothing w (savePatched w row fields d now).1 := by
  by_cases hnil : fields = []
  · subst hnil
    exact wroteNothing_refl w
  have hsilent : signalSchedules w.outbound (setFields fields d row) false (some fields) now =
      false := by
    rw [Bool.eq_false_iff, ne_eq, signalSchedules_iff]
    simp only [Option.elim_some, hany, Bool.false_eq_true, or_false, and_false, not_false_eq_true]
  have hkept : ∀ f ∈ webhookFields, f ∉ fields := by
    intro f hf hmem
    exact hany (List.any_eq_true.mpr ⟨f, hmem, by simpa using hf⟩)
  rw [savePatched_fst hnil]
  unfold scheduleInboundWebhookOnSave
  rw [if_neg (by simp [hsilent])]
  refine ⟨?_, rfl, rfl⟩
  intro r' hr'
  rcases (Table.mem_update_self hrow).mp hr' with rfl | ⟨hold, _⟩
  · refine ⟨row, hrow, rfl, ?_, ?_, ?_⟩
    · simp [saveFields, setFields, hkept .text (by decide)]
    · simp [saveFields, setFields, hkept .fromNumber (by decide)]
    · simp [saveFields, setFields, hkept .mmState (by decide)]
  · exact ⟨r', hold, rfl, rfl, rfl, rfl⟩

theorem effect_savePatched (h : JobsFit w.jobs w.inbound.nextPk) (hrow : row ∈ w.inbound.rows) :
    CallEffect w (savePatched w row fields d now).1 now
      (if fields.any (fun f => webhookFields.contains f) then some (setFields fields d row)
        else none) := by
  split
  · next hany => exact wrote_savePatched h hrow hany
  · next hany => exact wroteNothing_savePatched hrow hany

end Patch

theorem effect_persistFetched {w : World} (h : JobsFit w.jobs w.inbound.nextPk)
    (call : PersistCall) :
    CallEffect w (persistFetched [] w call.mmPath call.modemIndex call.now call.fetched).1 call.now
      (writtenRow w call) := by
  unfold writtenRow
  cases hfetched : call.fetched with
  | raised text => exact wroteNothing_refl w
  | pathUnavailable cause =>
    cases hfind : w.inbound.rows.find? (fun r => r.mmPath == call.mmPath) with
    | none =>
      simp only [persistFetched, hfind]
      exact wroteNothing_refl w
    | some row =>
      simp only [persistFetched, hfind]
      unfold markUnavailable
      split
      · exact wroteNothing_refl w
      · exact effect_savePatched h (List.mem_of_find?_eq_some hfind)
  | snapshot raw =>
    have hstored : persistFetched [] w call.mmPath call.modemIndex call.now (.snapshot raw) =
        ((storeSnapshot w call.mmPath (defaultsOf call.modemIndex raw) call.now).1,
          .ok (.stored
            (storeSnapshot w call.mmPath (defaultsOf call.modemIndex raw) call.now).2)) := rfl
    rw [hstored]
    simp only [storeSnapshot]
    rcases getOrCreateInbound_cases w call.mmPath (defaultsOf call.modemIndex raw) call.now with
      ⟨r, hr, _, he⟩ | ⟨hfresh, _, he⟩
    · rw [he]
      exact callEffect_removeFromDlq (effect_savePatched h hr) _
    · rw [he]
      exact callEffect_removeFromDlq (effect_created h hfresh) _

/-! ## Completeness -/

/-- The body or the sender is there. -/
def ShowsSomething (r : InboundSms) : Prop :=
  Text.strip r.text ≠ [] ∨ Text.strip r.fromNumber ≠ []

/-- Every row that shows something and that no outbound row matched has a job. -/
structure Complete (s : PersistLedger) : Prop where
  fit : JobsFit s.world.jobs s.world.inbound.nextPk
  complete : ∀ r ∈ s.world.inbound.rows, ShowsSomething r → s.unmatched r.pk = true →
    HasInboundJob s.world.jobs r.pk

theorem silent_iff {outbound : Table OutboundSms} {now : Nat} {r : InboundSms}
    (hshows : ShowsSomething r) :
    Silent outbound now r ↔ findMatchingOutbound outbound now r ≠ none := by
  have hskip := inboundShouldSkipWebhook_iff outbound now r
  have hblank : ¬ (Text.strip r.text = [] ∧ Text.strip r.fromNumber = []) := by
    rcases hshows with h | h
    · exact fun hb => h hb.1
    · exact fun hb => h hb.2
  unfold Silent
  rw [← hskip, inboundShouldSkipWebhook, Option.isSome_iff_ne_none]
  exact or_iff_right hblank

theorem complete_ledgerStep {s : PersistLedger} (h : Complete s) (call : PersistCall) :
    Complete (ledgerStep s call) := by
  have heffect := effect_persistFetched (w := { s.world with outbound := call.outbound }) h.fit call
  cases hwritten : writtenRow { s.world with outbound := call.outbound } call with
  | none =>
    rw [hwritten] at heffect
    obtain ⟨hrows, hjobs, hnext⟩ := heffect
    refine ⟨?_, ?_⟩
    · show JobsFit (persistFetched _ _ _ _ _ _).1.jobs (persistFetched _ _ _ _ _ _).1.inbound.nextPk
      rw [hjobs, hnext]
      exact h.fit
    · intro r' hr' hshows hunmatched
      obtain ⟨r, hr, hpk, htext, hfrom, _⟩ := hrows r' hr'
      have hbefore : s.unmatched r.pk = true := by
        simpa only [ledgerStep, hwritten, noteMatch, hpk] using hunmatched
      show HasInboundJob (persistFetched _ _ _ _ _ _).1.jobs r'.pk
      rw [hjobs, ← hpk]
      refine h.complete r hr ?_ hbefore
      rwa [ShowsSomething, htext, hfrom]
  | some row =>
    rw [hwritten] at heffect
    obtain ⟨_, hrows, hjobs, hfit⟩ := heffect
    refine ⟨hfit, ?_⟩
    intro r' hr' hshows hunmatched
    simp only [ledgerStep, hwritten, noteMatch] at hunmatched
    refine (hjobs r'.pk).mpr ?_
    rcases hrows r' hr' with rfl | ⟨hold, hne⟩
    · -- the row that was written: the filter has just been asked
      refine Or.inr ⟨rfl, ?_⟩
      rw [Function.update_self] at hunmatched
      rw [silent_iff hshows, Option.isNone_iff_eq_none.mp hunmatched]
      exact fun hsome => hsome rfl
    · -- any other one
      rw [Function.update_of_ne hne] at hunmatched
      exact Or.inl (h.complete r' hold hshows hunmatched)

theorem complete_start (outbound : Table OutboundSms) (dlq : Option DlqTable) :
    Complete (.start outbound dlq) := by
  refine ⟨?_, ?_⟩
  · intro j hj
    cases hj
  · intro r hr
    cases hr

theorem complete_foldl {s : PersistLedger} (h : Complete s) (calls : List PersistCall) :
    Complete (calls.foldl ledgerStep s) := by
  induction calls generalizing s with
  | nil => exact h
  | cons call calls ih => exact ih (complete_ledgerStep h call)

/-- After any calls, a row that shows something and matched no outbound row when it was last
    written has exactly one job, of kind INBOUND. -/
theorem inbound_webhook_complete (outbound : Table OutboundSms) (dlq : Option DlqTable)
    (calls : List PersistCall) :
    ∀ r ∈ (calls.foldl ledgerStep (.start outbound dlq)).world.inbound.rows,
      (Text.strip r.text ≠ [] ∨ Text.strip r.fromNumber ≠ []) →
      (calls.foldl ledgerStep (.start outbound dlq)).unmatched r.pk = true →
      ∃ j, (calls.foldl ledgerStep (.start outbound dlq)).world.jobs.rows.filter
          (fun i => i.inboundSmsId == some r.pk) = [j] ∧ j.kind = .inbound := by
  intro r hr hshows hunmatched
  obtain ⟨j, hj, hkind, hsms⟩ :=
    (complete_foldl (complete_start outbound dlq) calls).complete r hr hshows hunmatched
  refine ⟨j, Table.filter_eq_singleton hj (by simp [hsms]) ?_, hkind⟩
  intro a b ha hb
  have ha : a.inboundSmsId = some r.pk := by simpa using ha
  have hb : b.inboundSmsId = some r.pk := by simpa using hb
  exact Or.inl ⟨ha.trans hb.symm, ha ▸ Option.some_ne_none _⟩

/-- A multipart message: its row is created without a text and a sender, and patched later. -/
def arrivingCalls : List PersistCall :=
  [⟨firstPath, 0, .snapshot (snapshotOf "receiving" "" ""), 10, Table.empty⟩,
    ⟨firstPath, 0, .snapshot (snapshotOf "received" "+351912345678" "hello"), 20, Table.empty⟩]

theorem inbound_webhook_complete_arriving :
    ∃ j, (arrivingCalls.foldl ledgerStep (.start Table.empty none)).world.jobs.rows.filter
      (fun i => i.inboundSmsId == some 1) = [j] ∧ j.kind = .inbound :=
  inbound_webhook_complete Table.empty none arrivingCalls
    { pk := 1, mmPath := firstPath, modemIndex := 0, fromNumber := "+351912345678".toList,
      text := "hello".toList, mmState := "received".toList, smsc := [], modemTimestampRaw := [],
      createdAt := 10 } (by decide) (by decide) (by decide)

end HiWaveTel
