import HiWaveTel.AcceptedSends
import HiWaveTel.DispatchOutcome

/- What becomes of an outbound row. The workers, the calls of `enqueue` and the creations
   interleave freely, and each save of a dispatch writes a few columns of an object that was
   read earlier; `Lifecycle r r'` says what all of that together can make of a row.

   `outbound_lifecycle` — a row only goes from CREATED to SENDING and from there to SENT or
   FAILED, or from CREATED to FAILED; a final row is never written again, the path of an object
   that may have been sent is never replaced, and only FAILED comes with a message.

   `restart_leaves_rows` — a process dispatches only what it has accepted itself: the rows that
   an earlier one has left CREATED or SENDING stay as they are. -/
namespace HiWaveTel
open Foundation

/-! ## One row -/

/-- The row `r` may become `r'`. -/
structure Lifecycle (r r' : OutboundSms) : Prop where
  pk : r'.pk = r.pk
  content : r'.toNumber = r.toNumber ∧ r'.text = r.text
  stamps : r'.createdAt = r.createdAt ∧ r'.updatedAt = r.updatedAt
  created : r'.state = .created → r.state = .created ∧ r'.mmPath = r.mmPath
  sending : r.state = .sending → r'.mmPath = r.mmPath ∧ r'.modemIndex = r.modemIndex
  final : r.state = .sent ∨ r.state = .failed → r' = r
  message : r'.state ≠ .failed → r'.errorMessage = r.errorMessage

theorem Lifecycle.refl (r : OutboundSms) : Lifecycle r r :=
  ⟨rfl, ⟨rfl, rfl⟩, ⟨rfl, rfl⟩, fun h => ⟨h, rfl⟩, fun _ => ⟨rfl, rfl⟩, fun _ => rfl, fun _ => rfl⟩

theorem Lifecycle.trans {r r' r'' : OutboundSms} (h : Lifecycle r r') (h' : Lifecycle r' r'') :
    Lifecycle r r'' := by
  constructor
  · exact h'.pk.trans h.pk
  · exact ⟨h'.content.1.trans h.content.1, h'.content.2.trans h.content.2⟩
  · exact ⟨h'.stamps.1.trans h.stamps.1, h'.stamps.2.trans h.stamps.2⟩
  · intro hcreated
    obtain ⟨hmid, hpath⟩ := h'.created hcreated
    obtain ⟨hstart, hpath'⟩ := h.created hmid
    exact ⟨hstart, hpath.trans hpath'⟩
  · intro hsending
    obtain ⟨hpath, hindex⟩ := h.sending hsending
    -- from SENDING there is no way back, so the row in the middle is SENDING or final
    cases hmid : r'.state with
    | created =>
      have hstart := (h.created hmid).1
      rw [hsending] at hstart
      cases hstart
    | sending =>
      obtain ⟨hpath', hindex'⟩ := h'.sending hmid
      exact ⟨hpath'.trans hpath, hindex'.trans hindex⟩
    | sent =>
      rw [h'.final (Or.inl hmid)]
      exact ⟨hpath, hindex⟩
    | failed =>
      rw [h'.final (Or.inr hmid)]
      exact ⟨hpath, hindex⟩
  · intro hfinal
    have hmid := h.final hfinal
    rw [hmid] at h'
    exact h'.final hfinal
  · intro hfailed
    have hmid : r'.state ≠ .failed := by
      intro hmid
      apply hfailed
      rw [h'.final (Or.inr hmid)]
      exact hmid
    exact (h'.message hfailed).trans (h.message hmid)

/-! ## One step of a dispatch -/

/-- A call that is about to save FAILED has not got as far as SENT. -/
def Dispatch.FailsEarly (d : Dispatch) : Prop :=
  ∀ exc, d.phase = .failing exc → d.outbound.state = .created ∨ d.outbound.state = .sending

/-- An UPDATE that takes the row of the object `o` one step further. -/
def Advancing (o : OutboundSms) (u : RowUpdate OutboundSms) : Prop :=
  ∀ r : OutboundSms, r.mmPath = o.mmPath → r.state = o.state → Lifecycle r (u.set r)

theorem advancing_saveModemIndex {o : OutboundSms} (hcreated : o.state = .created)
    (modemIndex : Nat) : Advancing o (saveModemIndex { o with modemIndex }) := by
  intro r _ hstate
  have hr : r.state = .created := hstate.trans hcreated
  refine ⟨rfl, ⟨rfl, rfl⟩, ⟨rfl, rfl⟩, fun _ => ⟨hr, rfl⟩, ?_, ?_, fun _ => rfl⟩
  · intro hsending
    rw [hr] at hsending
    cases hsending
  · intro hfinal
    rw [hr] at hfinal
    simp at hfinal

theorem advancing_savePathAndState {o : OutboundSms} (hcreated : o.state = .created)
    (smsPath : Str) :
    Advancing o (savePathAndState { o with mmPath := smsPath, state := .sending }) := by
  intro r _ hstate
  have hr : r.state = .created := hstate.trans hcreated
  refine ⟨rfl, ⟨rfl, rfl⟩, ⟨rfl, rfl⟩, OutboundState.noConfusion, ?_, ?_, fun _ => rfl⟩
  · intro hsending
    rw [hr] at hsending
    cases hsending
  · intro hfinal
    rw [hr] at hfinal
    simp at hfinal

theorem advancing_saveState {o : OutboundSms} (hsending : o.state = .sending) :
    Advancing o (saveState { o with state := .sent }) := by
  intro r _ hstate
  have hr : r.state = .sending := hstate.trans hsending
  refine ⟨rfl, ⟨rfl, rfl⟩, ⟨rfl, rfl⟩, OutboundState.noConfusion, fun _ => ⟨rfl, rfl⟩, ?_,
    fun _ => rfl⟩
  intro hfinal
  rw [hr] at hfinal
  simp at hfinal

theorem advancing_saveFailure {o : OutboundSms} (hearly : o.state = .created ∨ o.state = .sending)
    (errorMessage : Str) :
    Advancing o (saveFailure { o with state := .failed, errorMessage }) := by
  intro r _ hstate
  refine ⟨rfl, ⟨rfl, rfl⟩, ⟨rfl, rfl⟩, OutboundState.noConfusion, fun _ => ⟨rfl, rfl⟩, ?_, ?_⟩
  · intro hfinal
    rw [hstate] at hfinal
    cases hearly with
    | inl h => simp [h] at hfinal
    | inr h => simp [h] at hfinal
  · exact fun hne => absurd rfl hne

/-- A step of a dispatch leaves the rows alone, or takes its own row further. -/
theorem dispatchMicro_advances {w w' : World} {s s' : Dispatch} {event : DispatchEvent}
    (hf : s.StateFits) (he : s.FailsEarly) (h : dispatchMicro w s event = some (w', s')) :
    s'.FailsEarly ∧ (w'.outbound = w.outbound ∨
      ∃ u, Advancing s.outbound u ∧ w' = saveOutbound w s.outbound u) := by
  have hnext : ∀ {phase : DispatchPhase} {o : OutboundSms}, (∀ exc, phase ≠ .failing exc) →
      Dispatch.FailsEarly ⟨o, phase⟩ := fun hne exc hphase => absurd hphase (hne exc)
  unfold Dispatch.StateFits at hf
  unfold dispatchMicro at h
  split at h
  · next hphase =>
    rw [hphase] at hf
    split at h
    · cases h
      exact ⟨hnext (fun _ => DispatchPhase.noConfusion), Or.inl rfl⟩
    · cases h
      exact ⟨hnext (fun _ => DispatchPhase.noConfusion),
        Or.inr ⟨_, advancing_saveModemIndex hf _, rfl⟩⟩
  · cases h
    exact ⟨hnext (fun _ => DispatchPhase.noConfusion), Or.inl rfl⟩
  · cases h
    exact ⟨hnext (fun _ => DispatchPhase.noConfusion), Or.inl rfl⟩
  · next hphase =>
    rw [hphase] at hf
    cases h
    exact ⟨hnext (fun _ => DispatchPhase.noConfusion),
      Or.inr ⟨_, advancing_savePathAndState hf _, rfl⟩⟩
  · cases h
    exact ⟨hnext (fun _ => DispatchPhase.noConfusion), Or.inl rfl⟩
  · next hphase =>
    rw [hphase] at hf
    cases h
    exact ⟨hnext (fun _ => DispatchPhase.noConfusion), Or.inr ⟨_, advancing_saveState hf, rfl⟩⟩
  · cases h
    exact ⟨hnext (fun _ => DispatchPhase.noConfusion), Or.inl rfl⟩
  · next exc hphase =>
    cases h
    exact ⟨hnext (fun _ => DispatchPhase.noConfusion),
      Or.inr ⟨_, advancing_saveFailure (he exc hphase) _, rfl⟩⟩
  · -- an `mmcli` command has failed, so its phase came before SENT
    split at h
    · next hcalls =>
      cases h
      refine ⟨?_, Or.inl rfl⟩
      intro _ _
      exact unfinished_of_stateFits hcalls hf
    · cases h
  · cases h
  · cases h
    exact ⟨hnext (fun _ => DispatchPhase.noConfusion), Or.inl rfl⟩
  · cases h

/-- What a step of a dispatch makes of any stored row. -/
theorem lifecycle_dispatchMicro {w w' : World} {s s' : Dispatch} {event : DispatchEvent}
    (hm : Mirrors w s) (hf : s.StateFits) (he : s.FailsEarly)
    (h : dispatchMicro w s event = some (w', s')) {r : OutboundSms} (hr : r ∈ w.outbound.rows) :
    ∃ r' ∈ w'.outbound.rows, Lifecycle r r' := by
  cases (dispatchMicro_advances hf he h).2 with
  | inl hw =>
    rw [hw]
    exact ⟨r, hr, Lifecycle.refl r⟩
  | inr hsave =>
    obtain ⟨u, hu, rfl⟩ := hsave
    refine ⟨_, Table.mem_update_of_mem hr s.outbound.pk u, ?_⟩
    split
    · next hpk =>
      obtain ⟨q, hq, hqpk, hpath, hstate⟩ := hm
      -- the row that is saved is the one the dispatch has read, and it is as the dispatch knows it
      have hsame : r = q := by
        apply w.outbound.pk_injOn hr hq
        exact (beq_iff_eq.mp hpk).trans hqpk.symm
      rw [hsame]
      exact hu q hpath hstate
    · exact Lifecycle.refl r

/-! ## Runs of the queue -/

/-- No dispatch in progress is about to save FAILED over SENT. -/
def FailEarly (s : QueueState) : Prop := ∀ job d, .dispatching job d ∈ s.handling → d.FailsEarly

structure LifecycleInv (s : QueueState) : Prop where
  queue : QueueInv s
  early : FailEarly s

theorem lifecycleInv_start (world : World) : LifecycleInv (.start world) :=
  ⟨queueInv_start world, fun _ _ hd => absurd hd List.not_mem_nil⟩

theorem failEarly_set {handling : List Handling} {i : Nat} {x : Handling}
    (h : ∀ job d, .dispatching job d ∈ handling → d.FailsEarly)
    (hx : ∀ job d, x = .dispatching job d → d.FailsEarly) :
    ∀ job d, .dispatching job d ∈ handling.set i x → d.FailsEarly := by
  intro job d hd
  cases List.mem_or_eq_of_mem_set hd with
  | inl hold => exact h job d hold
  | inr hnew => exact hx job d hnew.symm

theorem failEarly_queueStep {cfg : QueueSettings} {s t : QueueState} {a : QueueAction}
    (hs : LifecycleInv s) (h : queueStep cfg s a = some t) : FailEarly t := by
  cases queueStep_cases h with
  | create | taken | enqueue | number | putFull | put | discard => exact hs.early
  | get =>
    intro job d hd
    cases List.mem_append.mp hd with
    | inl hd => exact hs.early job d hd
    | inr hd => cases List.mem_singleton.mp hd
  | @fetch i job hi =>
    refine failEarly_set hs.early ?_
    intro job' d hd
    -- a dispatch begins before its first command
    obtain ⟨_, outbound, _, _, _, rfl⟩ := processJob_dispatching hd
    exact fun exc hphase => DispatchPhase.noConfusion hphase
  | fetchFailed =>
    refine failEarly_set hs.early ?_
    intro job d hd
    cases hd
  | @dispatch i event job d world d' hi hmicro =>
    have hmem := List.mem_of_getElem? hi
    refine failEarly_set hs.early ?_
    intro job' e he
    obtain ⟨_, rfl⟩ := dispatched_dispatching he
    obtain ⟨_, _, hfits⟩ := hs.queue.dispatches.own job d hmem
    exact (dispatchMicro_advances hfits (hs.early job d hmem) hmicro).1
  | release => exact fun job d hd => hs.early job d (List.mem_of_mem_eraseIdx hd)

theorem lifecycleInv_queueStep {cfg : QueueSettings} {s t : QueueState} {a : QueueAction}
    (hs : LifecycleInv s) (ha : EnqueuesRow s a) (h : queueStep cfg s a = some t) :
    LifecycleInv t :=
  ⟨queueInv_queueStep hs.queue ha h, failEarly_queueStep hs h⟩

/-- What a step of the queue makes of a row. -/
theorem lifecycle_queueStep {cfg : QueueSettings} {s t : QueueState} {a : QueueAction}
    (hs : LifecycleInv s) (h : queueStep cfg s a = some t) {r : OutboundSms}
    (hr : r ∈ s.world.outbound.rows) : ∃ r' ∈ t.world.outbound.rows, Lifecycle r r' := by
  obtain ⟨_, _, _, _, _, hw⟩ | hw | ⟨i, event, job, d, d', _, hi, hmicro⟩ := queueStep_world h
  · rw [hw]
    exact ⟨r, List.mem_append_left _ hr, Lifecycle.refl r⟩
  · rw [hw]
    exact ⟨r, hr, Lifecycle.refl r⟩
  · have hmem := List.mem_of_getElem? hi
    obtain ⟨_, hmirrors, hfits⟩ := hs.queue.dispatches.own job d hmem
    exact lifecycle_dispatchMicro hmirrors hfits (hs.early job d hmem) hmicro hr

theorem lifecycle_exec {cfg : QueueSettings} {s t : QueueState} {actions : List QueueAction}
    (hs : LifecycleInv s) (hrows : Meets (queueStep cfg) EnqueuesRow s actions)
    (h : exec (queueStep cfg) s actions = some t) {r : OutboundSms}
    (hr : r ∈ s.world.outbound.rows) : ∃ r' ∈ t.world.outbound.rows, Lifecycle r r' := by
  induction actions generalizing s r with
  | nil =>
    cases h
    exact ⟨r, hr, Lifecycle.refl r⟩
  | cons a actions ih =>
    obtain ⟨u, hu, ht⟩ := exec_cons_eq_some.mp h
    obtain ⟨r', hr', hstep⟩ := lifecycle_queueStep hs hu hr
    obtain ⟨r'', hr'', hrest⟩ := ih (lifecycleInv_queueStep hs hrows.1 hu) (hrows.2 u hu) ht hr'
    exact ⟨r'', hr'', hstep.trans hrest⟩

/-- In a run of a queue, from any moment `s` of it to any later moment `t`: every row is still
    there, with the same number, text and times, and has only gone forward. -/
theorem outbound_lifecycle (cfg : QueueSettings) (world : World) {s t : QueueState}
    {past actions : List QueueAction}
    (hpast : Meets (queueStep cfg) EnqueuesRow (.start world) past)
    (hs : exec (queueStep cfg) (.start world) past = some s)
    (hrows : Meets (queueStep cfg) EnqueuesRow s actions)
    (h : exec (queueStep cfg) s actions = some t) :
    ∀ r ∈ s.world.outbound.rows, ∃ r' ∈ t.world.outbound.rows, Lifecycle r r' := by
  have hinv : LifecycleInv s := by
    refine Reaches.invariant (I := LifecycleInv) ?_ ⟨past, hpast, hs⟩ (lifecycleInv_start world)
    exact fun s a t hs ha hstep => lifecycleInv_queueStep hs ha hstep
  exact fun r hr => lifecycle_exec hinv hrows h hr

/-- A row is created and enqueued, and later sent by its second dispatch. -/
theorem outbound_lifecycle_second_dispatch :
    ∃ s t, exec (queueStep ⟨1, 1⟩) (.start emptyWorld) (enqueuedThrice.take 9) = some s ∧
      exec (queueStep ⟨1, 1⟩) s (enqueuedThrice.drop 9) = some t ∧
      s.world.outbound.rows.map OutboundSms.state = [.created] ∧
      t.world.outbound.rows.map OutboundSms.state = [.sending] ∧
      ∀ r ∈ s.world.outbound.rows, ∃ r' ∈ t.world.outbound.rows, Lifecycle r r' := by
  have hrun : (execIf (queueStep ⟨1, 1⟩) EnqueuesRow (.start emptyWorld)
      (enqueuedThrice.take 9)).bind (fun s =>
        (execIf (queueStep ⟨1, 1⟩) EnqueuesRow s (enqueuedThrice.drop 9)).map (fun t =>
          (s.world.outbound.rows.map OutboundSms.state,
            t.world.outbound.rows.map OutboundSms.state))) =
      some ([.created], [.sending]) := by decide
  obtain ⟨s, hs, hrest⟩ := Option.bind_eq_some_iff.mp hrun
  obtain ⟨t, ht, hstates⟩ := Option.map_eq_some_iff.mp hrest
  rw [Prod.mk.injEq] at hstates
  exact ⟨s, t, exec_of_execIf hs, exec_of_execIf ht, hstates.1, hstates.2,
    outbound_lifecycle ⟨1, 1⟩ emptyWorld (meets_of_execIf hs) (exec_of_execIf hs)
      (meets_of_execIf ht) (exec_of_execIf ht)⟩

/-! ## A restart -/

/-- The keys that are reserved are those of rows from `start` on. -/
def KeysFrom (start : Nat) (q : QueueState) : Prop :=
  ∀ key ∈ q.inFlight, ∃ pk, start ≤ pk ∧ key = outboundKey pk

theorem keysFrom_call {cfg : QueueSettings} {start : Nat} {s t : SendState} {pk : Nat}
    (hs : PostInv start s) (hk : KeysFrom start s.queue)
    (h : sendStep cfg s (.call pk) = some t) : KeysFrom start t.queue := by
  obtain ⟨hpost, q, hq, rfl⟩ := sendStep_call h
  obtain ⟨hbound, hfree, _⟩ := hs.posting pk hpost
  rw [queueStep_enqueueRow hfree, Option.some.injEq] at hq
  subst hq
  intro key hkey
  cases Finset.mem_insert.mp hkey with
  | inl heq => exact ⟨pk, hbound.1, heq⟩
  | inr hold => exact hk key hold

theorem keysFrom_sendStep {cfg : QueueSettings} {start : Nat} {s t : SendState} {a : SendAction}
    (hs : PostInv start s) (hk : KeysFrom start s.queue) (h : sendStep cfg s a = some t) :
    KeysFrom start t.queue := by
  cases a with
  | create modemIndex toNumber text now =>
    simp only [sendStep, Option.map_eq_some_iff] at h
    obtain ⟨q, hq, rfl⟩ := h
    cases hq
    exact hk
  -- only the view reserves keys, each for the row it has just created
  | call pk => exact keysFrom_call hs hk h
  | work a =>
    obtain ⟨hgo, q, hq, rfl⟩ := sendStep_work h
    exact fun key hkey => hk key (inFlight_of_goesOn hgo hq hkey)
  | respond pk =>
    simp only [sendStep] at h
    split at h
    · cases h
      exact hk
    · cases h

/-- A dispatch in progress is one of a row from `start` on. -/
theorem start_le_of_dispatching {start : Nat} {q : QueueState} (hq : QueueInv q)
    (hk : KeysFrom start q) {i : Nat} {job : OutboundJob} {d : Dispatch}
    (hi : q.handling[i]? = some (.dispatching job d)) : start ≤ d.outbound.pk := by
  have hmem := List.mem_of_getElem? hi
  obtain ⟨hkey, _⟩ := hq.dispatches.own job d hmem
  have hheld : job.key ∈ q.held := by
    refine List.mem_append_right _ (List.mem_append_right _ ?_)
    exact List.mem_map_of_mem (f := Handling.key) hmem
  obtain ⟨pk, hle, hpk⟩ := hk _ ((hq.custody.mem_iff _).mpr hheld)
  rw [hkey] at hpk
  rw [outboundKey_injective hpk]
  exact hle

theorem row_stays_queueStep {cfg : QueueSettings} {start : Nat} {q q' : QueueState}
    {a : QueueAction} (hq : QueueInv q) (hk : KeysFrom start q)
    (h : queueStep cfg q a = some q') {r : OutboundSms} (hr : r ∈ q.world.outbound.rows)
    (hold : r.pk < start) : r ∈ q'.world.outbound.rows := by
  obtain ⟨_, _, _, _, _, hw⟩ | hw | ⟨i, event, job, d, d', _, hi, hmicro⟩ := queueStep_world h
  · rw [hw]
    exact List.mem_append_left _ hr
  · rw [hw]
    exact hr
  -- no dispatch is of a row from before the start
  · refine (mem_outbound_of_ne hmicro ?_).mpr hr
    have hle := start_le_of_dispatching hq hk hi
    omega

theorem row_stays_sendStep {cfg : QueueSettings} {start : Nat} {s t : SendState} {a : SendAction}
    (hs : PostInv start s) (hk : KeysFrom start s.queue) (h : sendStep cfg s a = some t)
    {r : OutboundSms} (hr : r ∈ s.queue.world.outbound.rows) (hold : r.pk < start) :
    r ∈ t.queue.world.outbound.rows := by
  cases a with
  | create modemIndex toNumber text now =>
    simp only [sendStep, Option.map_eq_some_iff] at h
    obtain ⟨q, hq, rfl⟩ := h
    exact row_stays_queueStep hs.queue hk hq hr hold
  | call pk =>
    obtain ⟨_, q, hq, rfl⟩ := sendStep_call h
    exact row_stays_queueStep hs.queue hk hq hr hold
  | work a =>
    obtain ⟨_, q, hq, rfl⟩ := sendStep_work h
    exact row_stays_queueStep hs.queue hk hq hr hold
  | respond pk =>
    simp only [sendStep] at h
    split at h
    · cases h
      exact hr
    · cases h

/-- No step of a process, whatever it accepts and sends, changes a row that was in the table when
    it started. What was CREATED then is never sent, and what was SENDING is never settled. -/
theorem restart_leaves_rows (cfg : QueueSettings) (world : World) {t : SendState}
    {actions : List SendAction}
    (h : exec (sendStep cfg) ⟨.start world, [], []⟩ actions = some t) :
    ∀ r ∈ world.outbound.rows, r ∈ t.queue.world.outbound.rows := by
  intro r hr
  have hold : r.pk < world.outbound.nextPk := world.outbound.pk_lt r hr
  suffices hall : PostInv world.outbound.nextPk t ∧ KeysFrom world.outbound.nextPk t.queue ∧
      r ∈ t.queue.world.outbound.rows from hall.2.2
  refine Reaches.invariant
    (I := fun s => PostInv world.outbound.nextPk s ∧ KeysFrom world.outbound.nextPk s.queue ∧
      r ∈ s.queue.world.outbound.rows) ?_ ⟨actions, meets_true _ _, h⟩ ⟨?_, ?_, hr⟩
  · intro s a u hs _ hstep
    obtain ⟨hpost, hkeys, hmem⟩ := hs
    exact ⟨postInv_sendStep hpost hstep, keysFrom_sendStep hpost hkeys hstep,
      row_stays_sendStep hpost hkeys hstep hmem hold⟩
  · exact postInv_start (queueReady_start world)
  · exact fun key hkey => absurd hkey (Finset.notMem_empty key)

/-- The new message is sent, the old one stays CREATED. -/
theorem restart_leaves_rows_hello :
    ∃ t, exec (sendStep ⟨1, 1⟩) ⟨.start storedHello, [], []⟩
        (postUpToPut 2 ++ [.work (.put 0), .respond 2, .work .get, .work (.fetch 0),
          .work (.dispatch 0 (.resolved 0)), .work (.dispatch 0 .prepared),
          .work (.dispatch 0 (.made "/org/freedesktop/ModemManager1/SMS/4".toList)),
          .work (.dispatch 0 .savePath)]) = some t ∧
      t.queue.sendLog = [2] ∧
      ∀ r ∈ storedHello.outbound.rows, r ∈ t.queue.world.outbound.rows := by
  have hrun : (exec (sendStep ⟨1, 1⟩) ⟨.start storedHello, [], []⟩
      (postUpToPut 2 ++ [.work (.put 0), .respond 2, .work .get, .work (.fetch 0),
        .work (.dispatch 0 (.resolved 0)), .work (.dispatch 0 .prepared),
        .work (.dispatch 0 (.made "/org/freedesktop/ModemManager1/SMS/4".toList)),
        .work (.dispatch 0 .savePath)])).map (fun t => t.queue.sendLog) = some [2] := by decide
  obtain ⟨t, ht, hlog⟩ := Option.map_eq_some_iff.mp hrun
  exact ⟨t, ht, hlog, restart_leaves_rows ⟨1, 1⟩ storedHello ht⟩

end HiWaveTel
