import HiWaveTel.ModemIndex
import HiWaveTel.Foundation.Run

/- A whole call of `services.dispatch_outbound_mmcli`, over everything its runs of `mmcli`
   can come to. The call catches `MmcliError` alone.

   `dispatchOutboundMmcli_refines` — the call is a run of the steps of `dispatchMicro`, so
   what holds along those holds of it.
   `dispatch_final_iff` — the row ends SENT or FAILED exactly when every run was started:
   the error of one that was not leaves it CREATED or SENDING (`dispatch_left_created`). -/
namespace HiWaveTel
open Foundation

/-! ## dispatch_outbound_mmcli -/

/-- The tables, and the caller's object. -/
abbrev DispatchState := World × OutboundSms

/-- What the call sees of the modems' states. -/
structure ModemProbes where
  states : Nat → Str        -- while the index is resolved
  turns : List WaitTurn     -- while the modem is prepared
  last : Nat → Str

/-- The object is changed by `f`, and saved. -/
def savedAs (f : OutboundSms → OutboundSms) (save : OutboundSms → RowUpdate OutboundSms)
    (s : DispatchState) : DispatchState :=
  (saveOutbound s.1 (f s.2) (save (f s.2)), f s.2)

/-- The resolved index is saved when it is another one. -/
def adoptModemIndex (modemIx : Nat) (s : DispatchState) : DispatchState :=
  if modemIx = s.2.modemIndex then s
  else savedAs (fun o => { o with modemIndex := modemIx }) saveModemIndex s

def markSending (smsPath : Str) : DispatchState → DispatchState :=
  savedAs (fun o => { o with mmPath := smsPath, state := .sending }) savePathAndState

def markSent : DispatchState → DispatchState :=
  savedAs (fun o => { o with state := .sent }) saveState

def markFailed (exc : MmcliError) : DispatchState → DispatchState :=
  savedAs (fun o => { o with state := .failed, errorMessage := formatPublicMmcliError exc })
    saveFailure

/-- `_queue_webhook`; it raises nothing. -/
def queueWebhook (now : Nat) (s : DispatchState) : DispatchState :=
  ({ s.1 with jobs := scheduleOutboundWebhook s.1.jobs s.2.pk now }, s.2)

/-- The modem to use, with a client of the call's own or with the caller's. -/
def dispatchIndex (cfg : MmcliSettings) (ownClient : Bool) (probes : ModemProbes) :
    Mmcli DispatchState Unit := do
  let s ← Script.get
  if ownClient then
    let modemIx ← resolveModemMmcliIndex cfg probes.states s.2.modemIndex
    Script.modify (adoptModemIndex modemIx)
    prepareModemForOutboundSms cfg modemIx probes.last probes.turns
  else ensureModemIndex cfg s.2.modemIndex

/-- From the modem index to the SENT of the row. -/
def dispatchCommands (cfg : MmcliSettings) (ownClient : Bool) (probes : ModemProbes) :
    Mmcli DispatchState Unit := do
  dispatchIndex cfg ownClient probes
  let smsPath ← createSms cfg
  Script.modify (markSending smsPath)
  sendSms cfg
  Script.modify markSent

/-- The whole `try` statement. After the failure is saved the readiness of the modem is refreshed,
    which raises nothing and touches no outbound row. -/
def dispatchOutboundMmcli (cfg : MmcliSettings) (ownClient : Bool) (probes : ModemProbes)
    (now : Nat) : Mmcli DispatchState Unit :=
  Script.handle
    (do
      dispatchCommands cfg ownClient probes
      Script.modify (queueWebhook now))
    (fun
      | .mmcli exc => some (Script.modify (markFailed exc))
      | .other => none)

section Call
variable {cfg : MmcliSettings} {ownClient : Bool} {probes : ModemProbes} {now : Nat}

/-! ## What gets through to the caller -/

/-- Client methods and saves alike, when nothing is asked of the state. -/
def DispatchContained {α : Type} (n : Nat) (m : Mmcli DispatchState α) : Prop :=
  m.Escapes (· = .launchFailed) (· = .other) Raised.HasText (fun _ _ => True) n

theorem dispatchContained_index :
    DispatchContained (2 + waitRuns probes.turns) (dispatchIndex cfg ownClient probes) := by
  refine stateful_then (Script.escapes_get 0) (fun s => ?_)
  cases ownClient with
  | true =>
    refine stateful_bind
      (stateful_of_contained contained_resolveModemMmcliIndex) (fun modemIx => ?_)
    refine stateful_then (stateful_modify _) (fun _ => ?_)
    exact stateful_of_contained contained_prepareModemForOutboundSms
  | false =>
    have hone : DispatchContained 1 (ensureModemIndex cfg s.2.modemIndex) :=
      stateful_of_contained contained_ensureModemIndex
    exact hone.le (by omega)

/-- At most this many runs: until the modem is there, for `create_sms` and for `send_sms`. -/
def dispatchRuns (cfg : MmcliSettings) (turns : List WaitTurn) : Nat :=
  2 + waitRuns turns + (cfg.maxRetries + cfg.maxRetries)

theorem dispatchContained_commands :
    DispatchContained (dispatchRuns cfg probes.turns)
      (dispatchCommands cfg ownClient probes) := by
  refine stateful_bind dispatchContained_index (fun _ => ?_)
  refine stateful_bind (stateful_of_contained contained_createSms)
    (fun smsPath => ?_)
  refine stateful_then (stateful_modify _) (fun _ => ?_)
  exact stateful_bind (k := 0) (stateful_of_contained contained_sendSms)
    (fun _ => stateful_modify _)

theorem dispatchContained_dispatch :
    DispatchContained (dispatchRuns cfg probes.turns)
      (dispatchOutboundMmcli cfg ownClient probes now) := by
  refine Script.escapes_handle (k := 0) ?_ ?_
  · exact stateful_bind (k := 0) dispatchContained_commands
      (fun _ => stateful_modify _)
  · intro e c hclause
    cases e with
    | mmcli exc =>
      cases hclause
      exact ⟨Raised.noConfusion, stateful_modify _⟩
    | other => cases hclause

/-- The call ends, whatever its runs come to. -/
theorem dispatchOutboundMmcli_ends (s : DispatchState) {runs : List RunResult}
    (h : dispatchRuns cfg probes.turns ≤ runs.length) :
    ∃ res s' rest, dispatchOutboundMmcli cfg ownClient probes now s runs = some (res, s', rest) := by
  obtain ⟨res, s', rest, hrun, _⟩ := dispatchContained_dispatch.within s runs h
  exact ⟨res, s', rest, hrun⟩

/-! ## The call as a run of steps -/

def microStep (p : World × Dispatch) (event : DispatchEvent) : Option (World × Dispatch) :=
  dispatchMicro p.1 p.2 event

/-- Steps lead from `s` in phase `p` to `s'` in phase `q`. -/
def Advances (p q : DispatchPhase) (s s' : DispatchState) : Prop :=
  Reaches microStep (fun _ _ => True) (s.1, ⟨s.2, p⟩) (s'.1, ⟨s'.2, q⟩)

theorem advances_single {p q : DispatchPhase} {s s' : DispatchState} (event : DispatchEvent)
    (h : dispatchMicro s.1 ⟨s.2, p⟩ event = some (s'.1, ⟨s'.2, q⟩)) : Advances p q s s' :=
  Reaches.single (a := event) trivial h

/-- A part of the call that begins in phase `p`: with a result it has come to the phase of that
    result, and when it raises the call is still at one of its `mmcli` commands. -/
def StageEnds {α : Type} (p : DispatchPhase) (after : α → DispatchPhase) (s : DispatchState)
    (_used : List RunResult) (res : Except Raised α) (s' : DispatchState) : Prop :=
  match res with
  | .ok a => Advances p (after a) s s'
  | .error _ => ∃ q : DispatchPhase, q.callsMmcli = true ∧ Advances p q s s'

theorem stage_bind {α β : Type} {m : Mmcli DispatchState α} {f : α → Mmcli DispatchState β}
    {p : DispatchPhase} {after : α → DispatchPhase} {last : β → DispatchPhase}
    (hm : m.Ends (StageEnds p after)) (hf : ∀ a, (f a).Ends (StageEnds (after a) last)) :
    (m >>= f).Ends (StageEnds p last) := by
  refine Script.ends_bind hm hf (fun _ _ _ _ hp => hp) ?_
  intro s used a s' used' res s'' hp hq
  cases res with
  | ok b => exact hp.trans hq
  | error e =>
    obtain ⟨q, hcalls, hq⟩ := hq
    exact ⟨q, hcalls, hp.trans hq⟩

theorem stage_modify {p q : DispatchPhase} {f : DispatchState → DispatchState}
    (h : ∀ s, Advances p q s (f s)) :
    (Script.modify f : Mmcli DispatchState Unit).Ends (StageEnds p (fun _ => q)) :=
  Script.ends_modify h

/-- A method of the client changes nothing. -/
theorem stage_contained {α : Type} {n : Nat} {m : Mmcli DispatchState α} {p : DispatchPhase}
    {after : α → DispatchPhase} (hm : MmcliContained n m) (hcalls : p.callsMmcli = true)
    (h : ∀ s a, Advances p (after a) s s) : m.Ends (StageEnds p after) := by
  intro s rs res s' rest hrun
  obtain ⟨used, hused, hat⟩ := hm.ends s rs res s' rest hrun
  refine ⟨used, hused, ?_⟩
  obtain rfl := hat.state
  cases res with
  | ok a => exact h s a
  | error e => exact ⟨p, hcalls, Reaches.refl _⟩

theorem stage_adoptModemIndex {modemIx : Nat} :
    (Script.modify (adoptModemIndex modemIx) : Mmcli DispatchState Unit).Ends
      (StageEnds .resolving (fun _ => .preparing)) := by
  refine stage_modify (fun s => advances_single (.resolved modemIx) ?_)
  unfold adoptModemIndex
  split
  · next heq => exact if_pos heq
  · next hne => exact if_neg hne

theorem stage_index : (dispatchIndex cfg ownClient probes).Ends
    (StageEnds .resolving (fun _ => .creating)) := by
  have hget : (Script.get : Mmcli DispatchState DispatchState).Ends
      (StageEnds .resolving (fun _ => .resolving)) :=
    stage_contained (Script.escapes_get 0) rfl (fun s _ => Reaches.refl _)
  refine stage_bind hget (fun s => ?_)
  cases ownClient with
  | true =>
    have hresolve : (resolveModemMmcliIndex cfg probes.states s.2.modemIndex).Ends
        (StageEnds .resolving (fun _ => .resolving)) :=
      stage_contained contained_resolveModemMmcliIndex rfl (fun s _ => Reaches.refl _)
    refine stage_bind hresolve (fun modemIx => ?_)
    refine stage_bind stage_adoptModemIndex (fun _ => ?_)
    exact stage_contained contained_prepareModemForOutboundSms rfl
      (fun s _ => advances_single .prepared rfl)
  | false =>
    refine stage_contained contained_ensureModemIndex rfl (fun s _ => ?_)
    have hresolved : Advances .resolving .preparing s s :=
      advances_single (.resolved s.2.modemIndex) (if_pos rfl)
    exact hresolved.trans (advances_single .prepared rfl)

theorem stage_commands : (dispatchCommands cfg ownClient probes).Ends
    (StageEnds .resolving (fun _ => .queueing)) := by
  refine stage_bind stage_index (fun _ => ?_)
  refine stage_bind (stage_contained contained_createSms rfl
    (fun s smsPath => advances_single (.made smsPath) rfl)) (fun smsPath => ?_)
  refine stage_bind (stage_modify (fun s => advances_single .savePath rfl)) (fun _ => ?_)
  refine stage_bind (stage_contained contained_sendSms rfl
    (fun s _ => advances_single .transmitted rfl)) (fun _ => ?_)
  exact stage_modify (fun s => advances_single .saveSent rfl)

/-- How the call ends: the webhook is queued, the failure is saved, or nothing is done any more. -/
theorem dispatchOutboundMmcli_cases {s s' : DispatchState} {runs rest : List RunResult}
    {res : Except Raised Unit}
    (h : dispatchOutboundMmcli cfg ownClient probes now s runs = some (res, s', rest)) :
    (∃ s₁, dispatchCommands cfg ownClient probes s runs = some (.ok (), s₁, rest) ∧
      res = .ok () ∧ s' = queueWebhook now s₁) ∨
    (∃ exc s₁, dispatchCommands cfg ownClient probes s runs =
      some (.error (.mmcli exc), s₁, rest) ∧ res = .ok () ∧ s' = markFailed exc s₁) ∨
    (dispatchCommands cfg ownClient probes s runs = some (.error .other, s', rest) ∧
      res = .error .other) := by
  rcases Script.handle_cases h with ⟨hbody, hnot⟩ | ⟨e, c, s₁, rest₁, hbody, hclause, hthen⟩
  · rcases Script.bind_cases hbody with ⟨e, hcommands, rfl⟩ | ⟨_, s₁, rest₁, hcommands, hqueue⟩
    · cases e with
      | mmcli exc => cases hnot (.mmcli exc) rfl
      | other => exact Or.inr (Or.inr ⟨hcommands, rfl⟩)
    · cases hqueue
      exact Or.inl ⟨s₁, hcommands, rfl, rfl⟩
  · rcases Script.bind_cases hbody with ⟨_, hcommands, he⟩ | ⟨_, _, _, _, hqueue⟩
    · cases he
      cases e with
      | mmcli exc =>
        cases hclause
        cases hthen
        exact Or.inr (Or.inl ⟨exc, s₁, hcommands, rfl, rfl⟩)
      | other => cases hclause
    · cases hqueue

/-- The steps of the call, from the resolving of the index to the end. -/
theorem dispatchOutboundMmcli_refines {s s' : DispatchState} {runs rest : List RunResult}
    {res : Except Raised Unit}
    (h : dispatchOutboundMmcli cfg ownClient probes now s runs = some (res, s', rest)) :
    Advances .resolving .ended s s' := by
  rcases dispatchOutboundMmcli_cases h with ⟨s₁, hcommands, _, rfl⟩ | ⟨exc, s₁, hcommands, _, rfl⟩ |
    ⟨hcommands, _⟩
  · obtain ⟨_, _, hsteps⟩ := stage_commands _ _ _ _ _ hcommands
    exact Reaches.trans hsteps (advances_single (.queueWebhook now) rfl)
  · obtain ⟨_, _, q, hcalls, hsteps⟩ := stage_commands _ _ _ _ _ hcommands
    have hfailing : Advances q (.failing exc) s₁ s₁ := by
      refine advances_single (.mmcliError exc) ?_
      cases q <;> first | rfl | cases hcalls
    exact (hsteps.trans hfailing).trans (advances_single .saveFailed rfl)
  · obtain ⟨_, _, q, hcalls, hsteps⟩ := stage_commands _ _ _ _ _ hcommands
    refine Reaches.trans hsteps (advances_single .otherError ?_)
    cases q <;> first | rfl | cases hcalls

/-! ## The stored row -/

/-- The stored row has the object's path and state, and these fit the phase. -/
theorem advances_stored {p q : DispatchPhase} {s s' : DispatchState} (h : Advances p q s s')
    (hm : Mirrors s.1 ⟨s.2, p⟩) (hf : Dispatch.StateFits ⟨s.2, p⟩) :
    Mirrors s'.1 ⟨s'.2, q⟩ ∧ Dispatch.StateFits ⟨s'.2, q⟩ ∧ s'.2.pk = s.2.pk := by
  have hinv := Reaches.invariant (I := fun t => Mirrors t.1 t.2 ∧ t.2.StateFits ∧
    t.2.outbound.pk = s.2.pk) ?_ h ⟨hm, hf, rfl⟩
  · exact hinv
  · intro t event t' ht _ hstep
    exact ⟨dispatchMicro_mirrors ht.1 hstep, (dispatchMicro_progress ht.2.1 hstep).stateFits,
      (dispatchMicro_pk hstep).trans ht.2.2⟩

/-- `create_sms` and `send_sms` have both returned. -/
def CreateAndSendReturn (cfg : MmcliSettings) (ownClient : Bool) (probes : ModemProbes)
    (s : DispatchState) (runs : List RunResult) : Prop :=
  ∃ s₁ rest₁ smsPath s₂ rest₂ s₃ rest₃,
    dispatchIndex cfg ownClient probes s runs = some (.ok (), s₁, rest₁) ∧
    createSms cfg s₁ rest₁ = some (.ok smsPath, s₂, rest₂) ∧
    sendSms cfg (markSending smsPath s₂) rest₂ = some (.ok (), s₃, rest₃)

theorem createAndSendReturn_iff {s : DispatchState} {runs : List RunResult} :
    CreateAndSendReturn cfg ownClient probes s runs ↔
      ∃ s' rest, dispatchCommands cfg ownClient probes s runs = some (.ok (), s', rest) := by
  constructor
  · rintro ⟨s₁, rest₁, smsPath, s₂, rest₂, s₃, rest₃, hindex, hcreate, hsend⟩
    refine ⟨markSent s₃, rest₃, ?_⟩
    refine Script.bind_eq_ok.mpr ⟨(), s₁, rest₁, hindex, ?_⟩
    refine Script.bind_eq_ok.mpr ⟨smsPath, s₂, rest₂, hcreate, ?_⟩
    refine Script.bind_eq_ok.mpr ⟨(), _, rest₂, rfl, ?_⟩
    exact Script.bind_eq_ok.mpr ⟨(), s₃, rest₃, hsend, rfl⟩
  · rintro ⟨s', rest, h⟩
    obtain ⟨_, s₁, rest₁, hindex, h⟩ := Script.bind_eq_ok.mp h
    obtain ⟨smsPath, s₂, rest₂, hcreate, h⟩ := Script.bind_eq_ok.mp h
    obtain ⟨_, _, _, hsave, h⟩ := Script.bind_eq_ok.mp h
    cases hsave
    obtain ⟨_, s₃, rest₃, hsend, _⟩ := Script.bind_eq_ok.mp h
    exact ⟨s₁, rest₁, smsPath, s₂, rest₂, s₃, rest₃, hindex, hcreate, hsend⟩

/-- Until the end of `send_sms` the object is CREATED or SENDING. -/
theorem unfinished_of_stateFits {q : DispatchPhase} {o : OutboundSms} (hcalls : q.callsMmcli = true)
    (hf : Dispatch.StateFits ⟨o, q⟩) : o.state = .created ∨ o.state = .sending := by
  cases q with
  | resolving | preparing | creating | created _ => exact Or.inl hf
  | sending => exact Or.inr hf
  | sent | queueing | failing _ | ended => cases hcalls

/-- The row `pk` is in a final state: SENT exactly when `sent` holds, and otherwise FAILED with a
    message. -/
def FinalRow (w : World) (pk : Nat) (sent : Prop) : Prop :=
  ∃ r ∈ w.outbound.rows, r.pk = pk ∧ (r.state = .sent ∨ r.state = .failed) ∧
    (r.state = .sent ↔ sent) ∧ (r.state = .failed → r.errorMessage ≠ [])

theorem finalRow_markFailed {exc : MmcliError} {s : DispatchState} {sent : Prop}
    (hstored : ∃ r ∈ s.1.outbound.rows, r.pk = s.2.pk) (htext : firstLine exc.message ≠ [])
    (hnot : ¬ sent) : FinalRow (markFailed exc s).1 s.2.pk sent := by
  obtain ⟨r, hr, hpk⟩ := hstored
  refine ⟨{ r with state := .failed, errorMessage := formatPublicMmcliError exc }, ?_, hpk,
    Or.inr rfl, ?_, ?_⟩
  · exact Table.mem_update.mpr (Or.inl ⟨r, hr, hpk, rfl⟩)
  · exact iff_of_false OutboundState.noConfusion hnot
  · exact fun _ => formatPublicMmcliError_ne_nil htext

/-- A stored row that is CREATED when the call begins. -/
theorem mirrors_of_mem {w : World} {o : OutboundSms} (hstored : o ∈ w.outbound.rows)
    (p : DispatchPhase) : Mirrors w ⟨o, p⟩ :=
  ⟨o, hstored, rfl, rfl, rfl⟩

section Ends
variable {w : World} {o : OutboundSms} {runs rest : List RunResult} {s₁ : DispatchState}

theorem finalRow_of_commands (hstored : o ∈ w.outbound.rows) (hcreated : o.state = .created)
    (hcommands : dispatchCommands cfg ownClient probes (w, o) runs = some (.ok (), s₁, rest)) :
    FinalRow s₁.1 o.pk (CreateAndSendReturn cfg ownClient probes (w, o) runs) := by
  obtain ⟨_, _, hsteps⟩ := stage_commands _ _ _ _ _ hcommands
  obtain ⟨⟨r, hr, hpk, _, hstate⟩, hf, hpk'⟩ :=
    advances_stored hsteps (mirrors_of_mem hstored _) hcreated
  have hsent : r.state = .sent := hstate.trans hf
  refine ⟨r, hr, hpk.trans hpk', Or.inl hsent, ?_, ?_⟩
  · exact iff_of_true hsent (createAndSendReturn_iff.mpr ⟨s₁, rest, hcommands⟩)
  · intro hfailed
    cases hsent.symm.trans hfailed

theorem finalRow_of_mmcliError {exc : MmcliError} (hstored : o ∈ w.outbound.rows)
    (hcreated : o.state = .created)
    (hcommands : dispatchCommands cfg ownClient probes (w, o) runs =
      some (.error (.mmcli exc), s₁, rest)) :
    FinalRow (markFailed exc s₁).1 o.pk (CreateAndSendReturn cfg ownClient probes (w, o) runs) := by
  obtain ⟨_, _, q, _, hsteps⟩ := stage_commands _ _ _ _ _ hcommands
  obtain ⟨⟨r, hr, hpk, _⟩, _, hpk'⟩ := advances_stored hsteps (mirrors_of_mem hstored _) hcreated
  obtain ⟨_, _, hat⟩ := dispatchContained_commands.ends _ _ _ _ _ hcommands
  have htext : Raised.HasText (.mmcli exc) := (hat.raised _ rfl).resolve_left Raised.noConfusion
  have hnot : ¬ CreateAndSendReturn cfg ownClient probes (w, o) runs := by
    intro hboth
    obtain ⟨_, _, hok⟩ := createAndSendReturn_iff.mp hboth
    rw [hcommands] at hok
    cases hok
  have ho : s₁.2.pk = o.pk := hpk'
  rw [← ho]
  exact finalRow_markFailed ⟨r, hr, hpk⟩ htext hnot

/-- Any other exception leaves the row CREATED or SENDING. -/
theorem not_finalRow_of_other {sent : Prop} (hstored : o ∈ w.outbound.rows)
    (hcreated : o.state = .created)
    (hcommands : dispatchCommands cfg ownClient probes (w, o) runs =
      some (.error .other, s₁, rest)) : ¬ FinalRow s₁.1 o.pk sent := by
  obtain ⟨_, _, q, hcalls, hsteps⟩ := stage_commands _ _ _ _ _ hcommands
  obtain ⟨hm, hf, hpk'⟩ := advances_stored hsteps (mirrors_of_mem hstored _) hcreated
  rintro ⟨r, hr, hpk, hfinal, _⟩
  have hstate : r.state = s₁.2.state := state_of_mirrors hm hr (hpk.trans hpk'.symm)
  rw [hstate] at hfinal
  rcases unfinished_of_stateFits hcalls hf with h | h
  · rcases hfinal with h' | h' <;> cases h.symm.trans h'
  · rcases hfinal with h' | h' <;> cases h.symm.trans h'

end Ends

/-- The row ends in a final state exactly when none of the call's runs failed to start. -/
theorem dispatch_final_iff {w w' : World} {o o' : OutboundSms} {runs : List RunResult}
    {res : Except Raised Unit} (hstored : o ∈ w.outbound.rows) (hcreated : o.state = .created)
    (hrun : dispatchOutboundMmcli cfg ownClient probes now (w, o) runs =
      some (res, (w', o'), [])) :
    FinalRow w' o.pk (CreateAndSendReturn cfg ownClient probes (w, o) runs) ↔
      ∀ r ∈ runs, r ≠ .launchFailed := by
  obtain ⟨used, hused, hat⟩ := dispatchContained_dispatch.ends _ _ _ _ _ hrun
  rw [List.append_nil] at hused
  obtain rfl := hused
  rcases dispatchOutboundMmcli_cases hrun with ⟨s₁, hcommands, rfl, hend⟩ |
    ⟨exc, s₁, hcommands, rfl, hend⟩ | ⟨hcommands, rfl⟩
  · -- SENT
    have hw : w' = (queueWebhook now s₁).1 := congrArg Prod.fst hend
    have hfinal := finalRow_of_commands hstored hcreated hcommands
    rw [hw]
    exact iff_of_true hfinal (fun r hr hbad => hat.no_bad ⟨r, hr, hbad⟩)
  · -- FAILED
    have hw : w' = (markFailed exc s₁).1 := congrArg Prod.fst hend
    have hfinal := finalRow_of_mmcliError hstored hcreated hcommands
    rw [hw]
    exact iff_of_true hfinal (fun r hr hbad => hat.no_bad ⟨r, hr, hbad⟩)
  · -- neither
    refine iff_of_false (not_finalRow_of_other hstored hcreated hcommands) ?_
    intro hall
    obtain ⟨r, hr, hbad⟩ := hat.escaped.mp ⟨.other, rfl, rfl⟩
    exact hall r hr hbad

end Call

/-! ## Runs that do not start -/

def storedHello : World :=
  { emptyWorld with outbound := helloTable }

def oneAttempt : MmcliSettings := ⟨"45.0".toList, 1, by decide⟩

def noProbes : ModemProbes := ⟨fun _ => "registered".toList, [], fun _ => "registered".toList⟩

/-- The modem is listed, and the message object is created. -/
def createdRuns : List RunResult :=
  [.completed 0 (listing [0]) [],
    .completed 0 "Successfully created new SMS: /org/freedesktop/ModemManager1/SMS/0".toList []]

/-- `mmcli` cannot be started for `create_sms`: the row stays CREATED. -/
theorem dispatch_left_created :
    ¬ ∀ (cfg : MmcliSettings) (ownClient : Bool) (probes : ModemProbes) (now : Nat) (w w' : World)
      (o o' : OutboundSms) (runs : List RunResult) (res : Except Raised Unit),
      o ∈ w.outbound.rows → o.state = .created →
      dispatchOutboundMmcli cfg ownClient probes now (w, o) runs = some (res, (w', o'), []) →
      FinalRow w' o.pk (CreateAndSendReturn cfg ownClient probes (w, o) runs) := by
  intro h
  have hrun : (dispatchOutboundMmcli oneAttempt false noProbes 0 (storedHello, outboundHello)
      [.completed 0 (listing [0]) [], .launchFailed]).map
      (fun t => (t.2.1.1.outbound.rows.all (fun r => r.state == .created), t.2.2)) =
      some (true, []) := by decide +kernel
  obtain ⟨⟨res, ⟨w', o'⟩, rest⟩, ht, hshape⟩ := Option.map_eq_some_iff.mp hrun
  obtain ⟨hcreated, rfl⟩ := Prod.mk.inj hshape
  obtain ⟨r, hr, _, hfinal, _⟩ :=
    h _ _ _ _ _ _ _ _ _ _ (List.mem_singleton_self _) rfl ht
  have hstate : r.state = .created := by simpa using List.all_eq_true.mp hcreated r hr
  rw [hstate] at hfinal
  rcases hfinal with h' | h' <;> cases h'

/-- And with every run started it is SENT. -/
theorem dispatch_final_iff_sent :
    ∃ res w' o', dispatchOutboundMmcli oneAttempt false noProbes 0 (storedHello, outboundHello)
        (createdRuns ++ [.completed 0 [] []]) = some (res, (w', o'), []) ∧
      w'.outbound.rows.map OutboundSms.state = [.sent] ∧
      (FinalRow w' outboundHello.pk (CreateAndSendReturn oneAttempt false noProbes
          (storedHello, outboundHello) (createdRuns ++ [.completed 0 [] []])) ↔
        ∀ r ∈ createdRuns ++ [.completed 0 [] []], r ≠ .launchFailed) := by
  have hrun : (dispatchOutboundMmcli oneAttempt false noProbes 0 (storedHello, outboundHello)
      (createdRuns ++ [.completed 0 [] []])).map
      (fun t => (t.2.1.1.outbound.rows.map OutboundSms.state, t.2.2)) =
      some ([.sent], []) := by decide +kernel
  obtain ⟨⟨res, ⟨w', o'⟩, rest⟩, ht, hshape⟩ := Option.map_eq_some_iff.mp hrun
  obtain ⟨hsent, rfl⟩ := Prod.mk.inj hshape
  exact ⟨res, w', o', ht, hsent, dispatch_final_iff (List.mem_singleton_self _) rfl ht⟩

end HiWaveTel
