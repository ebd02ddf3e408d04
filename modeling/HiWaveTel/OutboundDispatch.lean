import HiWaveTel.Persist

/- The dispatch of an outbound message (`services.dispatch_outbound_mmcli`), one `mmcli`
   call or one save at a time. The caller's object is saved three times with a few
   fields each: the resolved modem index, `mm_path` with SENDING, and SENT; an `mmcli`
   failure saves FAILED with a short message, any other exception saves nothing.

   `dispatchMicro_mirrors` — the stored row has, at every moment, the path and the state
   of the object as it was last saved. -/
namespace HiWaveTel
open Foundation

/-! ## format_public_mmcli_error -/

/-- `text.strip().split('\n')[0].strip()`. -/
def firstLine (text : Str) : Str :=
  Text.strip ((Text.strip text).takeWhile (fun c => c != '\n'))

def formatPublicMmcliError (exc : MmcliError) : Str :=
  let base := firstLine exc.message
  if exc.stderr = [] then base.take 200
  else
    let parts := [base, firstLine exc.stderr].filter (fun p => p != [])
    (List.intercalate ": ".toList parts).take 200

/-- The first character is not a space. -/
def startsVisible : Str → Bool
  | [] => false
  | c :: _ => !Text.isSpace c

theorem startsVisible_append {s t : Str} (h : startsVisible s = true) :
    startsVisible (s ++ t) = true := by
  cases s with
  | nil => cases h
  | cons c s => exact h

theorem startsVisible_strip {s : Str} (h : startsVisible s = true) :
    startsVisible (Text.strip s) = true := by
  cases s with
  | nil => cases h
  | cons c s =>
    have hc : Text.isSpace c = false := by simpa [startsVisible] using h
    obtain ⟨t, ht⟩ := Text.rdropWhile_cons_of_not (s := s) hc
    rw [Text.strip, List.dropWhile_cons_of_neg (by simp [hc]), ht]
    exact h

theorem firstLine_ne_nil {text : Str} (h : startsVisible text = true) : firstLine text ≠ [] := by
  have hstrip := startsVisible_strip h
  unfold firstLine
  cases heq : Text.strip text with
  | nil =>
    rw [heq] at hstrip
    cases hstrip
  | cons c s =>
    rw [heq] at hstrip
    have hne : (c != '\n') = true := by
      by_contra hnl
      have hc : c = '\n' := by simpa using hnl
      rw [hc] at hstrip
      revert hstrip
      exact (by decide : ¬ (!Text.isSpace '\n') = true)
    have hline : startsVisible ((c :: s).takeWhile (fun c => c != '\n')) = true := by
      simp only [List.takeWhile_cons, hne, if_true]
      exact hstrip
    intro hnil
    have hfirst := startsVisible_strip hline
    rw [hnil] at hfirst
    cases hfirst

theorem formatPublicMmcliError_ne_nil {exc : MmcliError} (h : firstLine exc.message ≠ []) :
    formatPublicMmcliError exc ≠ [] := by
  have htake : ∀ {s : Str}, s ≠ [] → s.take 200 ≠ [] := by
    intro s hs hnil
    rcases List.take_eq_nil_iff.mp hnil with h0 | hs'
    · cases h0
    · exact hs hs'
  simp only [formatPublicMmcliError]
  split
  · exact htake h
  · refine htake ?_
    have hbase : firstLine exc.message != [] := by simpa using h
    simp only [List.filter_cons, hbase, if_true, List.filter_nil]
    split
    · simp [List.intercalate]
    · simpa [List.intercalate] using h

/-! ## The saves -/

/-- An UPDATE of an outbound row; no column of the table is UNIQUE. -/
def outboundUpdate (f : OutboundSms → OutboundSms) (h : ∀ o, (f o).pk = o.pk) :
    RowUpdate OutboundSms where
  set := f
  pk_set := h
  clash_left _ _ := Iff.rfl
  clash_right _ _ := Iff.rfl

/-- `save(update_fields=('modem_index',))`. -/
def saveModemIndex (o : OutboundSms) : RowUpdate OutboundSms :=
  outboundUpdate (fun r => { r with modemIndex := o.modemIndex }) (fun _ => rfl)

/-- `save(update_fields=('mm_path', 'state'))`. -/
def savePathAndState (o : OutboundSms) : RowUpdate OutboundSms :=
  outboundUpdate (fun r => { r with mmPath := o.mmPath, state := o.state }) (fun _ => rfl)

/-- `save(update_fields=('state',))`. -/
def saveState (o : OutboundSms) : RowUpdate OutboundSms :=
  outboundUpdate (fun r => { r with state := o.state }) (fun _ => rfl)

/-- `save(update_fields=('state', 'error_message'))`. -/
def saveFailure (o : OutboundSms) : RowUpdate OutboundSms :=
  outboundUpdate (fun r => { r with state := o.state, errorMessage := o.errorMessage })
    (fun _ => rfl)

/-- The save of the object `o`. -/
def saveOutbound (w : World) (o : OutboundSms) (u : RowUpdate OutboundSms) : World :=
  { w with outbound := w.outbound.update o.pk u }

/-! ## dispatch_outbound_mmcli -/

/-- What the call does next, or is waiting for. -/
inductive DispatchPhase where
  | resolving                  -- `resolve_modem_mmcli_index`, or `ensure_modem_index`
  | preparing                  -- `prepare_modem_for_outbound_sms`
  | creating                   -- `create_sms`, before the object exists
  | created (smsPath : Str)    -- the object exists, `mm_path` is not saved
  | sending                    -- `send_sms`
  | sent                       -- sent, SENT is not saved
  | queueing                   -- the on_commit callback
  | failing (exc : MmcliError)
  | ended
  deriving DecidableEq, Repr

structure Dispatch where
  outbound : OutboundSms       -- the object as it was last saved
  phase : DispatchPhase

inductive DispatchEvent where
  | resolved (modemIndex : Nat)
  | prepared
  | made (smsPath : Str)
  | savePath
  | transmitted
  | saveSent
  | queueWebhook (now : Nat)
  | mmcliError (exc : MmcliError)
  | saveFailed
  | otherError

/-- The phases in which an `mmcli` command runs. -/
def DispatchPhase.callsMmcli : DispatchPhase → Bool
  | .resolving | .preparing | .creating | .created _ | .sending => true
  | _ => false

def dispatchMicro (w : World) (s : Dispatch) (event : DispatchEvent) : Option (World × Dispatch) :=
  match s.phase, event with
  -- saved only when the resolved index differs
  | .resolving, .resolved modemIndex =>
    if modemIndex = s.outbound.modemIndex then some (w, { s with phase := .preparing })
    else
      let o := { s.outbound with modemIndex }
      some (saveOutbound w o (saveModemIndex o), ⟨o, .preparing⟩)
  | .preparing, .prepared => some (w, { s with phase := .creating })
  | .creating, .made smsPath => some (w, { s with phase := .created smsPath })
  -- until here the object exists and the row does not know its path
  | .created smsPath, .savePath =>
    let o := { s.outbound with mmPath := smsPath, state := .sending }
    some (saveOutbound w o (savePathAndState o), ⟨o, .sending⟩)
  | .sending, .transmitted => some (w, { s with phase := .sent })
  | .sent, .saveSent =>
    let o := { s.outbound with state := .sent }
    some (saveOutbound w o (saveState o), ⟨o, .queueing⟩)
  | .queueing, .queueWebhook now =>
    some ({ w with jobs := scheduleOutboundWebhook w.jobs s.outbound.pk now },
      { s with phase := .ended })
  | .failing exc, .saveFailed =>
    let o := { s.outbound with state := .failed, errorMessage := formatPublicMmcliError exc }
    some (saveOutbound w o (saveFailure o), ⟨o, .ended⟩)
  -- the `except MmcliError` around the whole call
  | phase, .mmcliError exc =>
    if phase.callsMmcli then some (w, { s with phase := .failing exc }) else none
  -- any other exception ends the call without a save
  | .ended, .otherError => none
  | _, .otherError => some (w, { s with phase := .ended })
  | _, _ => none

/-! ## What a step does -/

/-- Every step is a save of the object, a schedule call, or touches no table. -/
theorem dispatchMicro_cases {w w' : World} {s s' : Dispatch} {event : DispatchEvent}
    (h : dispatchMicro w s event = some (w', s')) :
    (w' = w ∧ s'.outbound = s.outbound) ∨
    (∃ now, w' = { w with jobs := scheduleOutboundWebhook w.jobs s.outbound.pk now } ∧
      s'.outbound = s.outbound) ∨
    (∃ u, w' = saveOutbound w s.outbound u ∧ s'.outbound.pk = s.outbound.pk ∧
      ∀ r : OutboundSms, r.mmPath = s.outbound.mmPath → r.state = s.outbound.state →
        (u.set r).mmPath = s'.outbound.mmPath ∧ (u.set r).state = s'.outbound.state) := by
  unfold dispatchMicro at h
  split at h
  · -- the modem index
    split at h
    · cases h
      exact Or.inl ⟨rfl, rfl⟩
    · cases h
      exact Or.inr (Or.inr ⟨_, rfl, rfl, fun r hpath hstate => ⟨hpath, hstate⟩⟩)
  · cases h
    exact Or.inl ⟨rfl, rfl⟩
  · cases h
    exact Or.inl ⟨rfl, rfl⟩
  · -- the path and SENDING
    cases h
    exact Or.inr (Or.inr ⟨_, rfl, rfl, fun r _ _ => ⟨rfl, rfl⟩⟩)
  · cases h
    exact Or.inl ⟨rfl, rfl⟩
  · -- SENT
    cases h
    exact Or.inr (Or.inr ⟨_, rfl, rfl, fun r hpath _ => ⟨hpath, rfl⟩⟩)
  · cases h
    exact Or.inr (Or.inl ⟨_, rfl, rfl⟩)
  · -- FAILED
    cases h
    exact Or.inr (Or.inr ⟨_, rfl, rfl, fun r hpath _ => ⟨hpath, rfl⟩⟩)
  · split at h
    · cases h
      exact Or.inl ⟨rfl, rfl⟩
    · cases h
  · cases h
  · cases h
    exact Or.inl ⟨rfl, rfl⟩
  · cases h

theorem dispatchMicro_pk {w w' : World} {s s' : Dispatch} {event : DispatchEvent}
    (h : dispatchMicro w s event = some (w', s')) : s'.outbound.pk = s.outbound.pk := by
  rcases dispatchMicro_cases h with ⟨_, ho⟩ | ⟨_, _, ho⟩ | ⟨_, _, hpk, _⟩
  · rw [ho]
  · rw [ho]
  · exact hpk

/-- The stored row has the path and the state of the object. -/
def Mirrors (w : World) (s : Dispatch) : Prop :=
  ∃ r ∈ w.outbound.rows, r.pk = s.outbound.pk ∧ r.mmPath = s.outbound.mmPath ∧
    r.state = s.outbound.state

theorem dispatchMicro_mirrors {w w' : World} {s s' : Dispatch} {event : DispatchEvent}
    (hm : Mirrors w s) (h : dispatchMicro w s event = some (w', s')) : Mirrors w' s' := by
  obtain ⟨r, hr, hpk, hpath, hstate⟩ := hm
  rcases dispatchMicro_cases h with ⟨rfl, ho⟩ | ⟨now, rfl, ho⟩ | ⟨u, rfl, hpk', hset⟩
  · rw [Mirrors, ho]
    exact ⟨r, hr, hpk, hpath, hstate⟩
  · rw [Mirrors, ho]
    exact ⟨r, hr, hpk, hpath, hstate⟩
  · refine ⟨u.set r, ?_, ?_, hset r hpath hstate⟩
    · exact Table.mem_update.mpr (Or.inl ⟨r, hr, hpk, rfl⟩)
    · exact (u.pk_set r).trans (hpk.trans hpk'.symm)

/-- The object a step makes has the path `p`. -/
def DispatchEvent.Makes (p : Str) : DispatchEvent → Prop
  | .made smsPath => smsPath = p
  | _ => True

instance (p : Str) (event : DispatchEvent) : Decidable (event.Makes p) :=
  match event with
  | .made smsPath => inferInstanceAs (Decidable (smsPath = p))
  | .resolved _ | .prepared | .savePath | .transmitted | .saveSent | .queueWebhook _
  | .mmcliError _ | .saveFailed | .otherError => isTrue trivial

/-- From its save on to the end of the call, `p` is the path of an object that has not failed. -/
def Dispatch.Carries (p : Str) (s : Dispatch) : Prop :=
  match s.phase with
  | .created smsPath => smsPath = p
  | .sending | .sent | .queueing => s.outbound.mmPath = p ∧ s.outbound.state ≠ .failed
  | _ => True

theorem dispatchMicro_carries {w w' : World} {s s' : Dispatch} {event : DispatchEvent} {p : Str}
    (hc : s.Carries p) (hmakes : event.Makes p) (h : dispatchMicro w s event = some (w', s')) :
    s'.Carries p := by
  unfold Dispatch.Carries at hc
  unfold dispatchMicro at h
  split at h
  · split at h
    · cases h
      trivial
    · cases h
      trivial
  · cases h
    trivial
  · cases h
    exact hmakes
  · next hphase =>
    cases h
    rw [hphase] at hc
    exact ⟨hc, OutboundState.noConfusion⟩
  · next hphase =>
    cases h
    rw [hphase] at hc
    exact hc
  · next hphase =>
    cases h
    rw [hphase] at hc
    exact ⟨hc.1, OutboundState.noConfusion⟩
  · cases h
    trivial
  · cases h
    trivial
  · split at h
    · cases h
      trivial
    · cases h
  · cases h
  · cases h
    trivial
  · cases h

/-! ## The way to send_sms -/

/-- The step that leads to the call of `send_sms`. -/
def DispatchEvent.reachesSend : DispatchEvent → Bool
  | .savePath => true
  | _ => false

/-- The object is CREATED until its path is saved, and SENDING from then on until it is sent. -/
def Dispatch.StateFits (s : Dispatch) : Prop :=
  match s.phase with
  | .resolving | .preparing | .creating | .created _ => s.outbound.state = .created
  | .sending | .sent => s.outbound.state = .sending
  | .queueing => s.outbound.state = .sent
  | .failing _ | .ended => True

/-- What a step does to the state of the object: none makes it CREATED again, the one that leads
    to `send_sms` takes it out of CREATED, and a call that ends in CREATED was ended by an
    exception other than `MmcliError`. -/
structure DispatchProgress (s s' : Dispatch) (event : DispatchEvent) : Prop where
  stateFits : s'.StateFits
  state : s'.outbound.state = s.outbound.state ∨ s'.outbound.state ≠ .created
  send : event.reachesSend = true → s.outbound.state = .created ∧ s'.outbound.state ≠ .created
  ended : s'.phase = .ended → s'.outbound.state = .created → event = .otherError

theorem dispatchMicro_progress {w w' : World} {s s' : Dispatch} {event : DispatchEvent}
    (hf : s.StateFits) (h : dispatchMicro w s event = some (w', s')) :
    DispatchProgress s s' event := by
  have hsend : ∀ {P : Prop}, DispatchEvent.reachesSend event = true →
      event.reachesSend = false → P := by
    intro P h₁ h₂
    rw [h₁] at h₂
    cases h₂
  unfold Dispatch.StateFits at hf
  unfold dispatchMicro at h
  split at h
  · next hphase =>
    rw [hphase] at hf
    split at h
    · cases h
      exact ⟨hf, Or.inl rfl, fun hr => hsend hr rfl, DispatchPhase.noConfusion⟩
    · cases h
      exact ⟨hf, Or.inl rfl, fun hr => hsend hr rfl, DispatchPhase.noConfusion⟩
  · next hphase =>
    rw [hphase] at hf
    cases h
    exact ⟨hf, Or.inl rfl, fun hr => hsend hr rfl, DispatchPhase.noConfusion⟩
  · next hphase =>
    rw [hphase] at hf
    cases h
    exact ⟨hf, Or.inl rfl, fun hr => hsend hr rfl, DispatchPhase.noConfusion⟩
  · next hphase =>
    rw [hphase] at hf
    cases h
    exact ⟨rfl, Or.inr OutboundState.noConfusion,
      fun _ => ⟨hf, OutboundState.noConfusion⟩, DispatchPhase.noConfusion⟩
  · next hphase =>
    rw [hphase] at hf
    cases h
    exact ⟨hf, Or.inl rfl, fun hr => hsend hr rfl, DispatchPhase.noConfusion⟩
  · cases h
    exact ⟨rfl, Or.inr OutboundState.noConfusion, fun hr => hsend hr rfl,
      DispatchPhase.noConfusion⟩
  · next hphase =>
    rw [hphase] at hf
    cases h
    refine ⟨trivial, Or.inl rfl, fun hr => hsend hr rfl, ?_⟩
    intro _ hcreated
    cases hf.symm.trans hcreated
  · cases h
    exact ⟨trivial, Or.inr OutboundState.noConfusion, fun hr => hsend hr rfl,
      fun _ hcreated => OutboundState.noConfusion hcreated⟩
  · split at h
    · cases h
      exact ⟨trivial, Or.inl rfl, fun hr => hsend hr rfl, DispatchPhase.noConfusion⟩
    · cases h
  · cases h
  · cases h
    exact ⟨trivial, Or.inl rfl, fun hr => hsend hr rfl, fun _ _ => rfl⟩
  · cases h

/-- An exception that is not caught ends the call and saves nothing. -/
theorem dispatchMicro_otherError {w w' : World} {s s' : Dispatch}
    (h : dispatchMicro w s .otherError = some (w', s')) :
    w' = w ∧ s' = { s with phase := .ended } := by
  unfold dispatchMicro at h
  cases hphase : s.phase with
  | ended =>
    rw [hphase] at h
    cases h
  | resolving | preparing | creating | created _ | sending | sent | queueing | failing _ =>
    rw [hphase] at h
    cases h
    exact ⟨rfl, rfl⟩

/-- The dispatch of one row leaves the others as they are. -/
theorem mem_outbound_of_ne {w w' : World} {s s' : Dispatch} {event : DispatchEvent}
    (h : dispatchMicro w s event = some (w', s')) {r : OutboundSms}
    (hne : r.pk ≠ s.outbound.pk) : r ∈ w'.outbound.rows ↔ r ∈ w.outbound.rows := by
  rcases dispatchMicro_cases h with ⟨rfl, _⟩ | ⟨now, rfl, _⟩ | ⟨u, rfl, _⟩
  · exact Iff.rfl
  · exact Iff.rfl
  · show r ∈ (w.outbound.update s.outbound.pk u).rows ↔ _
    rw [Table.mem_update]
    constructor
    · intro hr
      rcases hr with ⟨r₀, _, hpk, rfl⟩ | ⟨hr, _⟩
      · exact absurd ((u.pk_set r₀).trans hpk) hne
      · exact hr
    · exact fun hr => Or.inr ⟨hr, hne⟩

theorem mirrors_of_ne {w w' : World} {s s' t : Dispatch} {event : DispatchEvent}
    (h : dispatchMicro w s event = some (w', s')) (hne : t.outbound.pk ≠ s.outbound.pk)
    (hm : Mirrors w t) : Mirrors w' t := by
  obtain ⟨r, hr, hpk, hsame⟩ := hm
  exact ⟨r, (mem_outbound_of_ne h (hpk ▸ hne)).mpr hr, hpk, hsame⟩

/-- The state of the stored row is that of the object that mirrors it. -/
theorem state_of_mirrors {w : World} {s : Dispatch} (hm : Mirrors w s) {r : OutboundSms}
    (hr : r ∈ w.outbound.rows) (hpk : r.pk = s.outbound.pk) : r.state = s.outbound.state := by
  obtain ⟨r₀, hr₀, hpk₀, _, hstate₀⟩ := hm
  rw [w.outbound.pk_injOn hr hr₀ (hpk.trans hpk₀.symm), hstate₀]

/-! ## Rows that are CREATED, and rows that are not any more -/

/-- The stored row `pk` is CREATED. -/
def CreatedRow (w : World) (pk : Nat) : Prop :=
  ∃ r ∈ w.outbound.rows, r.pk = pk ∧ r.state = .created

/-- The stored row `pk` is not CREATED. -/
def LeftCreated (w : World) (pk : Nat) : Prop :=
  ∃ r ∈ w.outbound.rows, r.pk = pk ∧ r.state ≠ .created

theorem createdRow_of_mirrors {w : World} {s : Dispatch} (hm : Mirrors w s) :
    CreatedRow w s.outbound.pk ↔ s.outbound.state = .created := by
  constructor
  · intro h
    obtain ⟨r, hr, hpk, hstate⟩ := h
    exact (state_of_mirrors hm hr hpk).symm.trans hstate
  · intro h
    obtain ⟨r, hr, hpk, _, hstate⟩ := hm
    exact ⟨r, hr, hpk, hstate.trans h⟩

theorem createdRow_of_ne {w w' : World} {s s' : Dispatch} {event : DispatchEvent}
    (h : dispatchMicro w s event = some (w', s')) {pk : Nat} (hne : pk ≠ s.outbound.pk) :
    CreatedRow w' pk ↔ CreatedRow w pk := by
  refine exists_congr (fun r => ?_)
  constructor
  · rintro ⟨hr, rfl, hstate⟩
    exact ⟨(mem_outbound_of_ne h hne).mp hr, rfl, hstate⟩
  · rintro ⟨hr, rfl, hstate⟩
    exact ⟨(mem_outbound_of_ne h hne).mpr hr, rfl, hstate⟩

/-- No step makes a row CREATED. -/
theorem createdRow_dispatchMicro {w w' : World} {s s' : Dispatch} {event : DispatchEvent}
    (hm : Mirrors w s) (hf : s.StateFits) (h : dispatchMicro w s event = some (w', s')) {pk : Nat}
    (hcreated : CreatedRow w' pk) : CreatedRow w pk := by
  by_cases hown : pk = s.outbound.pk
  · have hm' := dispatchMicro_mirrors hm h
    rw [hown, ← dispatchMicro_pk h, createdRow_of_mirrors hm'] at hcreated
    rw [hown, createdRow_of_mirrors hm]
    rcases (dispatchMicro_progress hf h).state with hkeep | hnew
    · exact hkeep.symm.trans hcreated
    · exact absurd hcreated hnew
  · exact (createdRow_of_ne h hown).mp hcreated

theorem leftCreated_dispatchMicro {w w' : World} {s s' : Dispatch} {event : DispatchEvent}
    (hm : Mirrors w s) (hf : s.StateFits) (h : dispatchMicro w s event = some (w', s')) {pk : Nat}
    (hleft : LeftCreated w pk) : LeftCreated w' pk := by
  obtain ⟨r, hr, rfl, hstate⟩ := hleft
  by_cases hown : r.pk = s.outbound.pk
  · obtain ⟨r', hr', hpk', _, hstate'⟩ := dispatchMicro_mirrors hm h
    refine ⟨r', hr', ?_, ?_⟩
    · rw [hpk', dispatchMicro_pk h, hown]
    · rw [state_of_mirrors hm hr hown] at hstate
      rw [hstate']
      rcases (dispatchMicro_progress hf h).state with hkeep | hnew
      · rw [hkeep]
        exact hstate
      · exact hnew
  · exact ⟨r, (mem_outbound_of_ne h hown).mpr hr, rfl, hstate⟩

/-! ## Sample data of the runs -/

def outboundHello : OutboundSms :=
  { pk := 1, mmPath := [], modemIndex := 0, toNumber := "+351912345678".toList,
    text := "hello".toList, state := .created, errorMessage := [], createdAt := 0, updatedAt := 0 }

def helloTable : Table OutboundSms :=
  ⟨[outboundHello], 2, by decide, List.pairwise_singleton _ _, List.pairwise_singleton _ _⟩

end HiWaveTel
