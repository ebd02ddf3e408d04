import HiWaveTel.OutboundDispatch
import HiWaveTel.PersistSteps

/- The race between the dispatch of an outbound message in the API process and the
   persists of its echo in the watcher process. ModemManager announces the SMS object as
   soon as `create_sms` has made it, and nothing orders the two processes: `mmcli_serial`
   is a lock within one of them. Calls of `persist_inbound_sms` on the object's path, any
   number at a time, are interleaved statement by statement with the dispatch.

   `echo_silent_iff` — a run creates no job of kind INBOUND for the path exactly when
   every save of its row that reaches the filter finds an outbound row it is an echo of.
   `quiet_of_path_saved` — between the save of `mm_path` and that of FAILED this is so.
   Before it the filter has only the text to go by, and for a row in state `unknown` it
   looks among the messages already SENT: the row of a new object gets a webhook
   (`echo_can_fire_webhook`). -/
namespace HiWaveTel
open Foundation

/-! ## Jobs of a row -/

def HasInboundJob (jobs : JobTable) (q : Nat) : Prop :=
  ∃ j ∈ jobs.rows, j.kind = .inbound ∧ j.inboundSmsId = some q

/-- A job with an inbound row is of kind INBOUND, and its row was created before. -/
def JobsFit (jobs : JobTable) (nextPk : Nat) : Prop :=
  ∀ j ∈ jobs.rows, ∀ q, j.inboundSmsId = some q → j.kind = .inbound ∧ q < nextPk

theorem JobsFit.mono {jobs : JobTable} {m n : Nat} (h : JobsFit jobs m) (hle : m ≤ n) :
    JobsFit jobs n := by
  intro j hj q hq
  obtain ⟨hkind, hlt⟩ := h j hj q hq
  exact ⟨hkind, Nat.lt_of_lt_of_le hlt hle⟩

theorem hasInboundJob_update {jobs : JobTable} {p q : Nat} {u : RowUpdate WebhookDeliveryJob}
    (hu : KeepsSms u) : HasInboundJob (jobs.update p u) q ↔ HasInboundJob jobs q :=
  Table.exists_mem_update (fun j => by rw [(hu j).1, (hu j).2])

theorem jobsFit_update {jobs : JobTable} {p n : Nat} {u : RowUpdate WebhookDeliveryJob}
    (h : JobsFit jobs n) (hu : KeepsSms u) : JobsFit (jobs.update p u) n := by
  intro j hj q hq
  obtain ⟨i, hi, _, rfl⟩ | ⟨hj, _⟩ := Table.mem_update.mp hj
  · rw [(hu i).1] at hq
    rw [(hu i).2]
    exact h i hi q hq
  · exact h j hj q hq

theorem hasInboundJob_scheduleInbound {jobs : JobTable} {n : Nat} (h : JobsFit jobs n)
    (pk now q : Nat) :
    HasInboundJob (scheduleInboundWebhook jobs pk now) q ↔ HasInboundJob jobs q ∨ q = pk := by
  unfold scheduleInboundWebhook
  rcases scheduleWebhook_cases .inbound jobs pk now with ⟨_, he⟩ | ⟨j, hj, hsms, hcase⟩
  · rw [he]
    simp [HasInboundJob, newJob, or_and_right, exists_or, eq_comm]
  · -- the job the lookup finds is one of the row
    have hown : HasInboundJob jobs pk := ⟨j, hj, (h j hj pk hsms).1, hsms⟩
    have hkeep : HasInboundJob (scheduleWebhook .inbound jobs pk now) q ↔ HasInboundJob jobs q := by
      rcases hcase with ⟨_, he⟩ | ⟨_, he⟩
      · rw [he]
      · rw [he]
        exact hasInboundJob_update (keepsSms_saveStatus _ _)
    rw [hkeep]
    refine ⟨Or.inl, ?_⟩
    intro hq
    rcases hq with hq | rfl
    · exact hq
    · exact hown

theorem jobsFit_scheduleInbound {jobs : JobTable} {n pk : Nat} (h : JobsFit jobs n) (hpk : pk < n)
    (now : Nat) : JobsFit (scheduleInboundWebhook jobs pk now) n := by
  unfold scheduleInboundWebhook
  rcases scheduleWebhook_cases .inbound jobs pk now with ⟨_, he⟩ | ⟨j, _, _, ⟨_, he⟩ | ⟨_, he⟩⟩
  · rw [he]
    intro j hj q hq
    rcases List.mem_append.mp hj with hold | hnew
    · exact h j hold q hq
    · rw [List.mem_singleton.mp hnew] at hq ⊢
      cases hq
      exact ⟨rfl, hpk⟩
  · rw [he]
    exact h
  · rw [he]
    exact jobsFit_update h (keepsSms_saveStatus _ _)

/-- The schedule call of the dispatch makes a job for the outbound row. -/
theorem scheduleOutbound_jobs (jobs : JobTable) (pk now : Nat) :
    (∀ q, HasInboundJob (scheduleOutboundWebhook jobs pk now) q ↔ HasInboundJob jobs q) ∧
      ∀ n, JobsFit jobs n → JobsFit (scheduleOutboundWebhook jobs pk now) n := by
  unfold scheduleOutboundWebhook
  rcases scheduleWebhook_cases .outbound jobs pk now with ⟨_, he⟩ | ⟨j, _, _, ⟨_, he⟩ | ⟨_, he⟩⟩
  · rw [he]
    refine ⟨fun q => by simp [HasInboundJob, newJob], ?_⟩
    intro n h j hj q hq
    rcases List.mem_append.mp hj with hold | hnew
    · exact h j hold q hq
    · rw [List.mem_singleton.mp hnew] at hq
      cases hq
  · rw [he]
    exact ⟨fun _ => Iff.rfl, fun _ h => h⟩
  · rw [he]
    exact ⟨fun _ => hasInboundJob_update (keepsSms_saveStatus _ _),
      fun _ h => jobsFit_update h (keepsSms_saveStatus _ _)⟩

/-! ## When the signal is silent -/

/-- A save of `row` is not notified: it has neither text nor sender, or it is an echo. -/
def Silent (outbound : Table OutboundSms) (now : Nat) (row : InboundSms) : Prop :=
  (Text.strip row.text = [] ∧ Text.strip row.fromNumber = []) ∨
    (∃ o ∈ outbound.rows, PathEcho o row) ∨
    (∃ o ∈ outbound.rows, if normalizeMmState row.mmState ∈ outboundMmStates
      then TextEcho now o row else ReplyEcho now o row)

instance (outbound : Table OutboundSms) (now : Nat) (row : InboundSms) :
    Decidable (Silent outbound now row) :=
  inferInstanceAs (Decidable (_ ∨ _ ∨ _))

theorem signalSchedules_iff (outbound : Table OutboundSms) (row : InboundSms) (created : Bool)
    (fs : Option (List InboundField)) (now : Nat) :
    signalSchedules outbound row created fs now = true ↔ ¬ Silent outbound now row ∧
      (created = true ∨ fs.elim true (fun fs => fs.any (fun f => webhookFields.contains f)) = true) := by
  have hready : inboundReadyForWebhook row = true ↔
      ¬ (Text.strip row.text = [] ∧ Text.strip row.fromNumber = []) := by
    simp only [inboundReadyForWebhook, Bool.or_eq_true, bne_iff_ne, not_and_or]
  have hskip := inboundShouldSkipWebhook_iff outbound now row
  have hsilent : ¬ Silent outbound now row ↔
      inboundReadyForWebhook row = true ∧ inboundShouldSkipWebhook outbound now row = false := by
    rw [Silent, not_or, ← hready, ← hskip, Bool.not_eq_true]
  rw [hsilent]
  cases hr : inboundReadyForWebhook row <;> cases hs : inboundShouldSkipWebhook outbound now row <;>
    cases created <;> cases fs <;> simp [signalSchedules, hr, hs]

theorem hasInboundJob_onSave {w : World} {n : Nat} (h : JobsFit w.jobs n) (row : InboundSms)
    (created : Bool) (fs : Option (List InboundField)) (now q : Nat) :
    HasInboundJob (scheduleInboundWebhookOnSave w row created fs now).jobs q ↔
      HasInboundJob w.jobs q ∨
        (q = row.pk ∧ signalSchedules w.outbound row created fs now = true) := by
  unfold scheduleInboundWebhookOnSave
  split
  · next hsig => simp [hasInboundJob_scheduleInbound h, hsig]
  · next hsig => simp [hsig]

theorem jobsFit_onSave {w : World} {n : Nat} (h : JobsFit w.jobs n) (row : InboundSms)
    (hpk : row.pk < n) (created : Bool) (fs : Option (List InboundField)) (now : Nat) :
    JobsFit (scheduleInboundWebhookOnSave w row created fs now).jobs n := by
  unfold scheduleInboundWebhookOnSave
  split
  · exact jobsFit_scheduleInbound h hpk now
  · exact h

/-! ## What a call does to the jobs of its path -/

def RowAt (w : World) (p : Str) (k : Nat) : Prop := ∃ r ∈ w.inbound.rows, r.mmPath = p ∧ r.pk = k

/-- The row of the path has a job of kind INBOUND. -/
def FiredAt (p : Str) (w : World) : Prop := ∃ k, RowAt w p k ∧ HasInboundJob w.jobs k

/-- The save that the signal gets to the filter with, if the statement is one: a new row,
    or a patch of a field the webhook shows. -/
def webhookSave (w : World) (job : SmsJob) : PersistStage → PersistEvent → Option (InboundSms × Nat)
  | .polling, .look (.snapshot raw) now =>
    if rowsAt w.inbound job.path = [] then
      some ((newInboundSms job.path (defaultsOf job.modemIndex raw) now).make w.inbound.nextPk, now)
    else none
  | .looked d row created, .save now =>
    if !created && (patchedFields row d).any (fun f => webhookFields.contains f) then
      some (mergeRow d row, now)
    else none
  | .gone row, .save now =>
    if normalizeMmState row.mmState ∈ unavailableMmStates then none
    else some (setFields [.mmState] unavailable row, now)
  | _, _ => none

/-- The save is of a row that the filter holds back. -/
def QuietSave (w : World) (save : Option (InboundSms × Nat)) : Prop :=
  ∀ x ∈ save, Silent w.outbound x.2 x.1

instance (w : World) (save : Option (InboundSms × Nat)) : Decidable (QuietSave w save) :=
  inferInstanceAs (Decidable (∀ x ∈ save, Silent w.outbound x.2 x.1))

/-- The copy of a row that a call keeps between its statements. -/
def PersistStage.row? : PersistStage → Option InboundSms
  | .looked _ row _ => some row
  | .gone row => some row
  | _ => none

def PersistNext.stage? : PersistNext → Option PersistStage
  | .goesOn stage => some stage
  | _ => none

/-- The copy is of the row of the path. -/
def CopyFits (w : World) (p : Str) (stage : Option PersistStage) : Prop :=
  ∀ row ∈ stage.bind PersistStage.row?, row.mmPath = p ∧ RowAt w p row.pk

theorem rowAt_lt {w : World} {p : Str} {k : Nat} (h : RowAt w p k) : k < w.inbound.nextPk := by
  obtain ⟨r, hr, _, rfl⟩ := h
  exact w.inbound.pk_lt r hr

theorem firedAt_congr {w w' : World} {p : Str} (hrow : ∀ k, RowAt w' p k ↔ RowAt w p k)
    (hjob : ∀ k, HasInboundJob w'.jobs k ↔ HasInboundJob w.jobs k) : FiredAt p w' ↔ FiredAt p w := by
  unfold FiredAt
  simp only [hrow, hjob]

theorem rowAt_onSave {w : World} {row : InboundSms} {created : Bool}
    {fs : Option (List InboundField)} {now : Nat} {p : Str} {k : Nat} :
    RowAt (scheduleInboundWebhookOnSave w row created fs now) p k ↔ RowAt w p k := by
  rw [RowAt, onSave_inbound]
  exact Iff.rfl

/-- The signal of a save of the row of the path. -/
theorem firedAt_onSave {w : World} {n : Nat} {p : Str} (h : JobsFit w.jobs n) (row : InboundSms)
    (hrow : RowAt w p row.pk) (created : Bool) (fs : Option (List InboundField)) (now : Nat) :
    FiredAt p (scheduleInboundWebhookOnSave w row created fs now) ↔
      FiredAt p w ∨ signalSchedules w.outbound row created fs now = true := by
  unfold FiredAt
  simp only [rowAt_onSave, hasInboundJob_onSave h]
  refine ⟨?_, ?_⟩
  · intro hf
    obtain ⟨k, hk, hjob | ⟨_, hsig⟩⟩ := hf
    · exact Or.inl ⟨k, hk, hjob⟩
    · exact Or.inr hsig
  · intro hf
    rcases hf with ⟨k, hk, hjob⟩ | hsig
    · exact ⟨k, hk, Or.inl hjob⟩
    · exact ⟨row.pk, hrow, Or.inr ⟨rfl, hsig⟩⟩

/-- What a statement of a call on `p` may do. -/
structure CallSpec (p : Str) (w w' : World) (save : Option (InboundSms × Nat)) : Prop where
  outbound : w'.outbound = w.outbound
  jobs : JobsFit w'.jobs w'.inbound.nextPk
  rows : ∀ k, RowAt w p k → RowAt w' p k
  fired : FiredAt p w' ↔ FiredAt p w ∨ ¬ QuietSave w save

/-- A statement that leaves the rows and the jobs alone. -/
theorem callSpec_none {p : Str} {w : World} (h : JobsFit w.jobs w.inbound.nextPk)
    (dlq : Option DlqTable) : CallSpec p w { w with dlq } none :=
  ⟨rfl, h, fun _ hk => hk, by simp [QuietSave, FiredAt, RowAt]⟩

theorem quietSave_some {w : World} {row : InboundSms} {now : Nat} :
    QuietSave w (some (row, now)) ↔ Silent w.outbound now row := by
  simp [QuietSave]

theorem rowAt_insert {w : World} {p : Str} {d : Defaults} {now k : Nat}
    (hfresh : ∀ r ∈ w.inbound.rows, (newInboundSms p d now).sought r = false) :
    RowAt { w with inbound := w.inbound.insert (newInboundSms p d now) hfresh } p k ↔
      RowAt w p k ∨ k = w.inbound.nextPk := by
  simp [RowAt, newInboundSms, or_and_right, exists_or, eq_comm]

/-- A new row: its job, if it gets one, is the first of the path. -/
theorem callSpec_created {w : World} {p : Str} {d : Defaults} {now : Nat}
    (h : JobsFit w.jobs w.inbound.nextPk)
    (hfresh : ∀ r ∈ w.inbound.rows, (newInboundSms p d now).sought r = false) :
    CallSpec p w (scheduleInboundWebhookOnSave
        { w with inbound := w.inbound.insert (newInboundSms p d now) hfresh }
        ((newInboundSms p d now).make w.inbound.nextPk) true none now)
      (some ((newInboundSms p d now).make w.inbound.nextPk, now)) := by
  have hfit : JobsFit w.jobs (w.inbound.nextPk + 1) := h.mono (Nat.le_succ _)
  -- no job refers to the key the row got
  have hunused : ¬ HasInboundJob w.jobs w.inbound.nextPk := by
    intro hjob
    obtain ⟨j, hj, _, hq⟩ := hjob
    exact Nat.lt_irrefl _ (h j hj _ hq).2
  have hrow := fun k => rowAt_insert (p := p) (d := d) (k := k) hfresh
  have hinserted : FiredAt p { w with inbound := w.inbound.insert (newInboundSms p d now) hfresh } ↔
      FiredAt p w := by
    unfold FiredAt
    simp only [hrow, or_and_right, exists_or, exists_eq_left, hunused, or_false]
  refine ⟨onSave_outbound _ _ _ _ _, ?_, ?_, ?_⟩
  · rw [onSave_inbound]
    exact jobsFit_onSave (w := { w with inbound := w.inbound.insert _ hfresh }) hfit _
      (Nat.lt_succ_self w.inbound.nextPk) true none now
  · intro k hk
    exact rowAt_onSave.mpr ((hrow k).mpr (Or.inl hk))
  · rw [firedAt_onSave (w := { w with inbound := w.inbound.insert _ hfresh }) hfit _
      ((hrow _).mpr (Or.inr rfl)), hinserted, signalSchedules_iff, quietSave_some]
    simp

/-- A save of patched fields: its job, if it gets one, is that of the row. -/
theorem callSpec_savePatched {w : World} {p : Str} {row : InboundSms} {fields : List InboundField}
    {d : Defaults} {now : Nat} (h : JobsFit w.jobs w.inbound.nextPk) (hrow : RowAt w p row.pk) :
    CallSpec p w (savePatched w row fields d now).1
      (if fields.any (fun f => webhookFields.contains f) then some (setFields fields d row, now)
        else none) := by
  by_cases hnil : fields = []
  · subst hnil
    exact callSpec_none h w.dlq
  · have hsame : ∀ k, RowAt { w with inbound := w.inbound.update row.pk (saveFields fields d) } p k ↔
        RowAt w p k := fun k => Table.exists_mem_update (fun _ => Iff.rfl)
    rw [savePatched_fst hnil]
    refine ⟨onSave_outbound _ _ _ _ _, ?_, ?_, ?_⟩
    · rw [onSave_inbound]
      exact jobsFit_onSave (w := { w with inbound := w.inbound.update row.pk (saveFields fields d) }) h
        (setFields fields d row) (rowAt_lt hrow) false (some fields) now
    · intro k hk
      exact rowAt_onSave.mpr ((hsame k).mpr hk)
    · have hfired := firedAt_onSave (w := { w with
        inbound := w.inbound.update row.pk (saveFields fields d) }) h (setFields fields d row)
        ((hsame row.pk).mpr hrow)
      rw [hfired, firedAt_congr hsame (fun _ => Iff.rfl), signalSchedules_iff]
      by_cases hany : fields.any (fun f => webhookFields.contains f) = true
      · rw [if_pos hany, quietSave_some]
        simp only [Option.elim_some, hany, or_true, and_true]
      · rw [if_neg hany]
        simp only [Option.elim_some, hany, Bool.false_eq_true, or_false, and_false, QuietSave]
        simp

theorem callSpec_markUnavailable {w : World} {p : Str} {row : InboundSms} {now : Nat}
    (h : JobsFit w.jobs w.inbound.nextPk) (hrow : RowAt w p row.pk) :
    CallSpec p w (markUnavailable w row now).1
      (if normalizeMmState row.mmState ∈ unavailableMmStates then none
        else some (setFields [.mmState] unavailable row, now)) := by
  unfold markUnavailable
  split
  · exact callSpec_none h w.dlq
  · exact callSpec_savePatched h hrow

theorem copyFits_none {w : World} {p : Str} {stage : Option PersistStage}
    (h : stage.bind PersistStage.row? = none) : CopyFits w p stage := by
  intro row hrow
  rw [h] at hrow
  cases hrow

theorem copyFits_some {w : World} {p : Str} {stage : PersistStage} {row : InboundSms}
    (hstage : stage.row? = some row) :
    CopyFits w p (some stage) ↔ row.mmPath = p ∧ RowAt w p row.pk := by
  simp [CopyFits, hstage]

theorem CopyFits.rows {w w' : World} {p : Str} {stage : Option PersistStage}
    (h : CopyFits w p stage) (hrows : ∀ k, RowAt w p k → RowAt w' p k) : CopyFits w' p stage := by
  intro row hrow
  exact ⟨(h row hrow).1, hrows _ (h row hrow).2⟩

/-- Each statement of a call meets the spec with the save it makes. -/
theorem persistMicro_call {w w' : World} {job : SmsJob} {stage : PersistStage}
    {event : PersistEvent} {next : PersistNext} (hjobs : JobsFit w.jobs w.inbound.nextPk)
    (hcopy : CopyFits w job.path (some stage))
    (h : persistMicro w job stage event = some (w', next)) :
    CallSpec job.path w w' (webhookSave w job stage event) ∧
      CopyFits w' job.path next.stage? := by
  unfold persistMicro at h
  split at h
  · -- the get_or_create
    next raw now =>
    simp only [webhookSave]
    rcases getOrCreateInbound_cases w job.path (defaultsOf job.modemIndex raw) now with
      ⟨r, hr, hrp, he⟩ | ⟨hfresh, hnone, he⟩
    · simp only [he] at h
      cases h
      rw [if_neg (rowsAt_ne_nil_iff.mpr ⟨r, hr, hrp⟩)]
      exact ⟨callSpec_none hjobs w.dlq, (copyFits_some rfl).mpr ⟨hrp, r, hr, hrp, rfl⟩⟩
    · simp only [he] at h
      cases h
      rw [if_pos hnone]
      refine ⟨callSpec_created hjobs hfresh, (copyFits_some rfl).mpr ⟨rfl, ?_⟩⟩
      exact rowAt_onSave.mpr ((rowAt_insert hfresh).mpr (Or.inr rfl))
  · -- the object is gone
    split at h
    · next row hrow =>
      cases h
      have hp : row.mmPath = job.path := by simpa using List.find?_some hrow
      refine ⟨callSpec_none hjobs w.dlq, (copyFits_some rfl).mpr ⟨hp, ?_⟩⟩
      exact ⟨row, List.mem_of_find?_eq_some hrow, hp, rfl⟩
    · cases h
      exact ⟨callSpec_none hjobs w.dlq, copyFits_none rfl⟩
  · cases h
    exact ⟨callSpec_none hjobs w.dlq, copyFits_none rfl⟩
  · -- the save of the patch
    next d row created now =>
    cases h
    refine ⟨?_, copyFits_none rfl⟩
    cases created with
    | true => exact callSpec_none hjobs w.dlq
    | false => exact callSpec_savePatched hjobs ((copyFits_some rfl).mp hcopy).2
  · cases h
    exact ⟨callSpec_none hjobs _, copyFits_none rfl⟩
  · next row now =>
    cases h
    exact ⟨callSpec_markUnavailable hjobs ((copyFits_some rfl).mp hcopy).2, copyFits_none rfl⟩
  · cases h
    refine ⟨?_, copyFits_none rfl⟩
    cases stage <;> exact callSpec_none hjobs w.dlq
  · cases h

/-! ## The two processes -/

/-- The path of an SMS object as `create_sms` parses it: it has no space and is not empty. -/
structure ObjectPath where
  path : Str
  strip_path : Text.strip path = path
  ne_nil : path ≠ []

/-- What a reader returns of a value it finds under its first key. -/
def readBack (v : Str) : Str := if present v then Text.strip v else []

/-- The states ModemManager reports of a message it is told to send. -/
def echoStates : List Str := ["unknown", "sending", "sent"].map String.toList

/-- A snapshot of the object made for `o`: its own text, the destination as number. -/
def EchoSnapshot (o : OutboundSms) (raw : Details) : Prop :=
  extractText raw = readBack o.text ∧ extractFromNumber raw = readBack o.toNumber ∧
    extractState raw ∈ echoStates

instance (o : OutboundSms) (raw : Details) : Decidable (EchoSnapshot o raw) :=
  inferInstanceAs (Decidable (_ ∧ _ ∧ _))

/-- Any snapshot a polling reads is one of the object. -/
def echoAnswer (o : OutboundSms) : PersistEvent → Bool
  | .look (.snapshot raw) _ => decide (EchoSnapshot o raw)
  | _ => true

/-- `create_sms` has made the object. -/
def DispatchEvent.announces : DispatchEvent → Bool
  | .made _ => true
  | _ => false

structure RaceState (ω : Type) where
  world : World
  dispatch : Dispatch
  announced : Bool                        -- the object exists
  watcher : ω → Option PersistStage       -- the persist calls in progress

inductive RaceAction (ω : Type) where
  | api (event : DispatchEvent)
  | added (w : ω)
  | persist (w : ω) (event : PersistEvent)

section Step
variable {ω : Type} [DecidableEq ω] (object : ObjectPath) (modemIndex : Nat)

def RaceState.setWatcher (s : RaceState ω) (w : ω) (stage : Option PersistStage) : RaceState ω :=
  { s with watcher := Function.update s.watcher w stage }

/-- One step of either process; `modemIndex` is the one the watcher listens on. -/
def raceStep (s : RaceState ω) : RaceAction ω → Option (RaceState ω)
  | .api event =>
    if event.Makes object.path then
      (dispatchMicro s.world s.dispatch event).map (fun (world, dispatch) =>
        { s with world, dispatch, announced := s.announced || event.announces })
    else none
  -- the `Added` signal, or a snapshot run: any number of calls on the path
  | .added w =>
    match s.announced, s.watcher w with
    | true, none => some (s.setWatcher w (some .polling))
    | _, _ => none
  | .persist w event =>
    match s.watcher w with
    | some stage =>
      if echoAnswer s.dispatch.outbound event then
        (persistMicro s.world ⟨object.path, modemIndex⟩ stage event).map (fun (world, next) =>
          { s with world }.setWatcher w next.stage?)
      else none
    | none => none

/-- The save a step gets to the filter with. -/
def raceSave (s : RaceState ω) : RaceAction ω → Option (InboundSms × Nat)
  | .persist w event =>
    (s.watcher w).bind (fun stage => webhookSave s.world ⟨object.path, modemIndex⟩ stage event)
  | _ => none

/-- The filter holds the save of the step back, if it makes one. -/
def EchoQuiet (s : RaceState ω) (a : RaceAction ω) : Prop :=
  QuietSave s.world (raceSave object modemIndex s a)

instance (s : RaceState ω) (a : RaceAction ω) : Decidable (EchoQuiet object modemIndex s a) :=
  inferInstanceAs (Decidable (QuietSave _ _))

/-- The webhook of the echo is scheduled. -/
def Fired (s : RaceState ω) : Prop := FiredAt object.path s.world

structure RaceInv (s : RaceState ω) : Prop where
  jobs : JobsFit s.world.jobs s.world.inbound.nextPk
  copies : ∀ w, CopyFits s.world object.path (s.watcher w)
  mirrors : Mirrors s.world s.dispatch
  carries : s.dispatch.Carries object.path

end Step

section Run
variable {ω : Type} {object : ObjectPath} {modemIndex : Nat}

/-- No call and no object yet, the row of the dispatch is stored, and no job of kind
    INBOUND exists for the path; otherwise the tables hold anything. -/
structure RaceStart (object : ObjectPath) (s : RaceState ω) : Prop where
  jobs : JobsFit s.world.jobs s.world.inbound.nextPk
  idle : ∀ w, s.watcher w = none
  stored : s.dispatch.outbound ∈ s.world.outbound.rows
  resolving : s.dispatch.phase = .resolving
  announced : s.announced = false
  noJob : ¬ Fired object s

theorem raceInv_start {s : RaceState ω} (hs : RaceStart object s) : RaceInv object s := by
  refine ⟨hs.jobs, ?_, ⟨s.dispatch.outbound, hs.stored, rfl, rfl, rfl⟩, ?_⟩
  · intro w
    rw [hs.idle w]
    exact copyFits_none rfl
  · rw [Dispatch.Carries, hs.resolving]
    trivial

theorem webhookSave_path {w : World} {job : SmsJob} {stage : PersistStage} {event : PersistEvent}
    {x : InboundSms × Nat} (hcopy : CopyFits w job.path (some stage))
    (hx : x ∈ webhookSave w job stage event) : x.1.mmPath = job.path := by
  have hx : webhookSave w job stage event = some x := hx
  unfold webhookSave at hx
  split at hx
  · split at hx
    · cases hx
      rfl
    · cases hx
  · next d row created now _ =>
    split at hx
    · cases hx
      exact (hcopy row rfl).1
    · cases hx
  · next row now _ =>
    split at hx
    · cases hx
    · cases hx
      exact (hcopy row rfl).1
  · cases hx

/-- Once the path is saved, and until the message fails, the filter finds the outbound row
    by it: from there on no statement of the watcher fires the webhook. -/
theorem quiet_of_path_saved {s : RaceState ω} (hi : RaceInv object s)
    (hpath : s.dispatch.outbound.mmPath = object.path) (hstate : s.dispatch.outbound.state ≠ .failed)
    (a : RaceAction ω) : EchoQuiet object modemIndex s a := by
  intro x hx
  have hrow : x.1.mmPath = object.path := by
    cases a with
    | api event => cases hx
    | added w => cases hx
    | persist w event =>
      obtain ⟨stage, hstage, hsave⟩ := Option.bind_eq_some_iff.mp hx
      have hcopy := hi.copies w
      rw [hstage] at hcopy
      exact webhookSave_path hcopy hsave
  obtain ⟨o, ho, _, hmm, hst⟩ := hi.mirrors
  refine Or.inr (Or.inl ⟨o, ho, ?_, ?_, ?_⟩)
  · rw [hrow, object.strip_path]
    exact object.ne_nil
  · rw [hrow, object.strip_path, hmm, hpath]
  · rw [hst]
    exact hstate

/-- In particular while `send_sms` runs, and until the call has ended well. -/
theorem quiet_while_sending {s : RaceState ω} (hi : RaceInv object s)
    (hphase : s.dispatch.phase = .sending ∨ s.dispatch.phase = .sent ∨
      s.dispatch.phase = .queueing) (a : RaceAction ω) : EchoQuiet object modemIndex s a := by
  have hcarries := hi.carries
  unfold Dispatch.Carries at hcarries
  rcases hphase with hphase | hphase | hphase <;> rw [hphase] at hcarries <;>
    exact quiet_of_path_saved hi hcarries.1 hcarries.2 a

variable [DecidableEq ω]

/-- The dispatch makes no job for an inbound row. -/
theorem raceStep_api {s t : RaceState ω} {event : DispatchEvent} (hi : RaceInv object s)
    (h : raceStep object modemIndex s (.api event) = some t) :
    RaceInv object t ∧ (Fired object t ↔ Fired object s) := by
  simp only [raceStep] at h
  split at h
  · next hmakes =>
    obtain ⟨⟨world, dispatch⟩, hmicro, he⟩ := Option.map_eq_some_iff.mp h
    cases he
    have hmirrors := dispatchMicro_mirrors hi.mirrors hmicro
    have hcarries := dispatchMicro_carries hi.carries hmakes hmicro
    rcases dispatchMicro_cases hmicro with ⟨rfl, _⟩ | ⟨now, rfl, _⟩ | ⟨u, rfl, _⟩
    · exact ⟨⟨hi.jobs, hi.copies, hmirrors, hcarries⟩, Iff.rfl⟩
    · obtain ⟨hjob, hfit⟩ := scheduleOutbound_jobs s.world.jobs s.dispatch.outbound.pk now
      refine ⟨⟨hfit _ hi.jobs, hi.copies, hmirrors, hcarries⟩, ?_⟩
      exact firedAt_congr (fun _ => Iff.rfl) hjob
    · exact ⟨⟨hi.jobs, hi.copies, hmirrors, hcarries⟩, Iff.rfl⟩
  · cases h

theorem raceInv_added {s : RaceState ω} (hi : RaceInv object s) (w : ω) :
    RaceInv object (s.setWatcher w (some .polling)) := by
  refine ⟨hi.jobs, ?_, hi.mirrors, hi.carries⟩
  intro v
  show CopyFits s.world object.path (Function.update s.watcher w (some .polling) v)
  rcases update_cases s.watcher w (some .polling) v with ⟨_, he⟩ | ⟨_, he⟩ <;> rw [he]
  · exact copyFits_none rfl
  · exact hi.copies v

/-- A statement of a call fires the webhook exactly when it is not quiet. -/
theorem raceStep_persist {s : RaceState ω} {w : ω} {stage : PersistStage} {event : PersistEvent}
    {world : World} {next : PersistNext} (hi : RaceInv object s)
    (hstage : s.watcher w = some stage)
    (h : persistMicro s.world ⟨object.path, modemIndex⟩ stage event = some (world, next)) :
    RaceInv object ({ s with world }.setWatcher w next.stage?) ∧
      (FiredAt object.path world ↔
        Fired object s ∨ ¬ EchoQuiet object modemIndex s (.persist w event)) := by
  obtain ⟨hspec, hnext⟩ := persistMicro_call hi.jobs (hstage ▸ hi.copies w) h
  refine ⟨⟨hspec.jobs, ?_, ?_, hi.carries⟩, ?_⟩
  · intro v
    show CopyFits world object.path (Function.update s.watcher w next.stage? v)
    rcases update_cases s.watcher w next.stage? v with ⟨_, he⟩ | ⟨_, he⟩ <;> rw [he]
    · exact hnext
    · exact (hi.copies v).rows hspec.rows
  · show ∃ r ∈ world.outbound.rows, _
    rw [hspec.outbound]
    exact hi.mirrors
  · have hsave : raceSave object modemIndex s (.persist w event) =
        webhookSave s.world ⟨object.path, modemIndex⟩ stage event := by
      simp only [raceSave, hstage, Option.bind_some]
    rw [EchoQuiet, hsave]
    exact hspec.fired

/-- A step keeps the invariant, and schedules the webhook exactly when it is not quiet. -/
theorem raceStep_spec {s t : RaceState ω} {a : RaceAction ω} (hi : RaceInv object s)
    (h : raceStep object modemIndex s a = some t) :
    RaceInv object t ∧ (Fired object t ↔ Fired object s ∨ ¬ EchoQuiet object modemIndex s a) := by
  cases a with
  | api event =>
    obtain ⟨hinv, hfired⟩ := raceStep_api hi h
    exact ⟨hinv, by simp [hfired, EchoQuiet, QuietSave, raceSave]⟩
  | added w =>
    simp only [raceStep] at h
    split at h
    · cases h
      refine ⟨raceInv_added hi w, ?_⟩
      simp [EchoQuiet, QuietSave, raceSave, Fired, RaceState.setWatcher]
    · cases h
  | persist w event =>
    simp only [raceStep] at h
    split at h
    · next stage hstage =>
      split at h
      · obtain ⟨⟨world, next⟩, hmicro, he⟩ := Option.map_eq_some_iff.mp h
        cases he
        exact raceStep_persist hi hstage hmicro
      · cases h
    · cases h

/-- A run creates no job of kind INBOUND for the path exactly when each of its saves is
    one that the filter holds back. -/
theorem echo_silent_iff {s t : RaceState ω} (hs : RaceStart object s) {as : List (RaceAction ω)}
    (h : exec (raceStep object modemIndex) s as = some t) :
    ¬ Fired object t ↔ Meets (raceStep object modemIndex) (EchoQuiet object modemIndex) s as := by
  have hlatch : Fired object t ↔ Fired object s ∨
      ¬ Meets (raceStep object modemIndex) (EchoQuiet object modemIndex) s as :=
    exec_latch (I := RaceInv object) (fun _ _ _ hi hstep => (raceStep_spec hi hstep).1)
      (fun _ _ _ hi hstep => (raceStep_spec hi hstep).2) (raceInv_start hs) h
  rw [hlatch]
  simp only [hs.noJob, false_or, not_not]

end Run

/-! ## An echo that is announced too early -/

def echoObject : ObjectPath := ⟨firstPath, by decide, by decide⟩

/-- The API has stored the message and is about to dispatch it. -/
def raceSample : RaceState Unit :=
  { world := { emptyWorld with outbound := helloTable }
    dispatch := ⟨outboundHello, .resolving⟩
    announced := false
    watcher := fun _ => none }

theorem raceStart_raceSample : RaceStart echoObject raceSample := by
  refine ⟨?_, fun _ => rfl, List.mem_singleton_self _, rfl, rfl, ?_⟩
  · intro j hj
    cases hj
  · intro h
    obtain ⟨k, ⟨r, hr, _⟩, _⟩ := h
    cases hr

/-- The watcher reads the new object before `mm_path` is saved. -/
def earlyEchoRun : List (RaceAction Unit) :=
  [.api (.resolved 0), .api .prepared, .api (.made firstPath), .added (),
    .persist () (.look (.snapshot (snapshotOf "unknown" "+351912345678" "hello")) 1000000)]

/-- The webhook of the echo is scheduled as that of a received message. -/
theorem echo_can_fire_webhook :
    ¬ ∀ (object : ObjectPath) (modemIndex : Nat) (s t : RaceState Unit)
      (as : List (RaceAction Unit)), RaceStart object s →
      exec (raceStep object modemIndex) s as = some t → ¬ Fired object t := by
  intro h
  have hrun : (exec (raceStep echoObject 0) raceSample earlyEchoRun).map (fun t =>
      (t.world.inbound.rows.map (fun r => (r.mmPath, r.pk)),
        t.world.jobs.rows.map (fun j => (j.kind, j.inboundSmsId)))) =
      some ([(firstPath, 1)], [(.inbound, some 1)]) := by decide
  obtain ⟨t, ht, heq⟩ := Option.map_eq_some_iff.mp hrun
  obtain ⟨hrows, hjobs⟩ := Prod.mk.inj heq
  refine h echoObject 0 raceSample t earlyEchoRun raceStart_raceSample ht ?_
  obtain ⟨r, hr, hrow⟩ := List.mem_map.mp (hrows ▸ List.mem_singleton_self (firstPath, 1))
  obtain ⟨j, hj, hjob⟩ := List.mem_map.mp (hjobs ▸ List.mem_singleton_self (JobKind.inbound, some 1))
  obtain ⟨hpath, hpk⟩ := Prod.mk.inj hrow
  obtain ⟨hkind, hsms⟩ := Prod.mk.inj hjob
  exact ⟨1, ⟨r, hr, hpath, hpk⟩, j, hj, hkind, hsms⟩

/-- The watcher reads it after the save: nothing is scheduled. -/
def lateEchoRun : List (RaceAction Unit) :=
  [.api (.resolved 0), .api .prepared, .api (.made firstPath), .api .savePath, .added (),
    .persist () (.look (.snapshot (snapshotOf "unknown" "+351912345678" "hello")) 1000000),
    .persist () (.save 1000001), .persist () .remove, .api .transmitted, .api .saveSent,
    .api (.queueWebhook 2000000)]

theorem echo_silent_iff_late_echo :
    ∃ t, exec (raceStep echoObject 0) raceSample lateEchoRun = some t ∧
      t.world.inbound.rows.map InboundSms.mmPath = [firstPath] ∧
      t.world.jobs.rows.map WebhookDeliveryJob.kind = [.outbound] ∧ ¬ Fired echoObject t := by
  have hrun : (execIf (raceStep echoObject 0) (EchoQuiet echoObject 0) raceSample lateEchoRun).map
      (fun t => (t.world.inbound.rows.map InboundSms.mmPath,
        t.world.jobs.rows.map WebhookDeliveryJob.kind)) = some ([firstPath], [.outbound]) := by decide
  obtain ⟨t, ht, heq⟩ := Option.map_eq_some_iff.mp hrun
  obtain ⟨hrows, hjobs⟩ := Prod.mk.inj heq
  have hexec := exec_of_execIf ht
  exact ⟨t, hexec, hrows, hjobs,
    (echo_silent_iff raceStart_raceSample hexec).mpr (meets_of_execIf ht)⟩

end HiWaveTel
