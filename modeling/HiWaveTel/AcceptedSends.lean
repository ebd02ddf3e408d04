import HiWaveTel.OutboundQueue

/- The asynchronous send: `SendSmsView.post` creates the row, hands its key to the queue of
   `OutboundQueue` and answers 202, whatever `enqueue` has returned. Nothing scans the table
   for rows that are CREATED, so one that is neither reserved nor dispatched stays so.

   `accepted_remembered_iff` — every accepted message is reserved or has left CREATED exactly
   when no call finds the queue full and no exception other than `MmcliError` ends the
   processing of a row that is still CREATED. -/
namespace HiWaveTel
open Foundation

structure SendState where
  queue : QueueState
  posting : List Nat       -- the rows of the POSTs that have not called `enqueue`
  accepted : List Nat      -- the rows of the POSTs that have returned 202

inductive SendAction where
  | create (modemIndex : Nat) (toNumber text : Str) (now : Nat)
  | call (pk : Nat)
  | work (a : QueueAction)
  | respond (pk : Nat)

/-- A step of the queue that is not the start of something new. -/
def QueueAction.goesOn : QueueAction → Bool
  | .create _ _ _ _ | .enqueue _ _ _ => false
  | .number _ | .put _ | .discard _ | .get | .fetch _ | .fetchFailed _ | .dispatch _ _
  | .release _ => true

/-- `SendSmsView.post`, from the validated data on, and the steps of the queue. -/
def sendStep (cfg : QueueSettings) (s : SendState) : SendAction → Option SendState
  | .create modemIndex toNumber text now =>
    (queueStep cfg s.queue (.create modemIndex (Text.strip toNumber) text now)).map (fun q =>
      { s with queue := q, posting := s.posting ++ [s.queue.world.outbound.nextPk] })
  | .call pk =>
    if pk ∈ s.posting then
      (queueStep cfg s.queue (.enqueue "outbound".toList (Text.ofNat pk) "normal".toList)).map
        (fun q => { s with queue := q, posting := s.posting.erase pk })
    else none
  | .work a =>
    if a.goesOn then (queueStep cfg s.queue a).map (fun q => { s with queue := q }) else none
  -- the result of the call is not looked at
  | .respond pk =>
    if s.queue.returned.any (fun r => r.1 == Text.ofNat pk) then
      some { s with accepted := s.accepted ++ [pk] }
    else none

/-- The key is reserved, and a job that has it is queued or in the hands of a worker. -/
def Reserved (s : QueueState) (key : Str) : Prop :=
  key ∈ s.inFlight ∧ ((∃ job ∈ s.queue, job.key = key) ∨ ∃ h ∈ s.handling, h.key = key)

/-- Every accepted message is reserved, or its row is not CREATED any more. -/
def Remembered (s : SendState) : Prop :=
  ∀ pk ∈ s.accepted, Reserved s.queue (outboundKey pk) ∨ LeftCreated s.queue.world pk

/-- The step gives the row `pk` up although it is CREATED: the queue is full, or an exception
    other than `MmcliError` ends `_process_job`. -/
def GivesUp (cfg : QueueSettings) (s : SendState) (a : SendAction) (pk : Nat) : Prop :=
  CreatedRow s.queue.world pk ∧
    match a with
    | .work (.put i) => cfg.full s.queue.queue = true ∧
        (s.queue.inserting[i]?).map Insertion.key = some (outboundKey pk)
    | .work (.fetchFailed i) | .work (.dispatch i .otherError) =>
        (s.queue.handling[i]?).map Handling.key = some (outboundKey pk)
    | _ => False

/-- No row from `start` on is given up. -/
def GivesNoneUp (cfg : QueueSettings) (start : Nat) (s : SendState) (a : SendAction) : Prop :=
  ∀ pk, start ≤ pk → ¬ GivesUp cfg s a pk

/-- A running queue with any content, before the POSTs: all its jobs are for rows. -/
structure QueueReady (q : QueueState) : Prop where
  inv : QueueInv q
  known : ∀ key ∈ q.inFlight, ∃ pk < q.world.outbound.nextPk, key = outboundKey pk
  inserting : q.inserting = []
  returned : q.returned = []

theorem sendStep_work {cfg : QueueSettings} {s t : SendState} {a : QueueAction}
    (h : sendStep cfg s (.work a) = some t) :
    a.goesOn = true ∧ ∃ q, queueStep cfg s.queue a = some q ∧ t = { s with queue := q } := by
  simp only [sendStep] at h
  split at h
  · next hgo =>
    obtain ⟨q, hq, rfl⟩ := Option.map_eq_some_iff.mp h
    exact ⟨hgo, q, hq, rfl⟩
  · cases h

theorem sendStep_call {cfg : QueueSettings} {s t : SendState} {pk : Nat}
    (h : sendStep cfg s (.call pk) = some t) :
    pk ∈ s.posting ∧ ∃ q,
      queueStep cfg s.queue (.enqueue "outbound".toList (Text.ofNat pk) "normal".toList) = some q ∧
      t = { s with queue := q, posting := s.posting.erase pk } := by
  simp only [sendStep] at h
  split at h
  · next hpost =>
    obtain ⟨q, hq, rfl⟩ := Option.map_eq_some_iff.mp h
    exact ⟨hpost, q, hq, rfl⟩
  · cases h

/-! ## The calls of the POSTs -/

/-- The keys that the calls in progress have. -/
def callKeys (q : QueueState) : List Str := q.inserting.map Insertion.key

/-- What a step of the queue that goes on does to the calls: nothing, or one of them returns. -/
theorem goesOn_calls {cfg : QueueSettings} {s t : QueueState} {a : QueueAction}
    (hgo : a.goesOn = true) (h : queueStep cfg s a = some t) :
    ((callKeys t).Perm (callKeys s) ∧ t.returned = s.returned) ∨
    ∃ jobType reference ok, (callKeys s).Perm (jobKey jobType reference :: callKeys t) ∧
      t.returned = s.returned ++ [(reference, ok)] := by
  have hset : ∀ {i c} d, s.inserting[i]? = some c → d.key = c.key →
      ((s.inserting.set i d).map Insertion.key).Perm (callKeys s) := by
    intro i c d hi hkey
    refine ((perm_set hi d).map _).trans ?_
    rw [List.map_cons, hkey]
    exact ((perm_eraseIdx hi).map Insertion.key).symm
  cases queueStep_cases h with
  | create | taken | enqueue => cases hgo
  | @number _ jobType reference rank hi =>
    exact Or.inl ⟨hset ⟨jobType, reference, rank, .numbered _⟩ hi rfl, rfl⟩
  | @putFull _ jobType reference rank _ hi =>
    exact Or.inl ⟨hset ⟨jobType, reference, rank, .full⟩ hi rfl, rfl⟩
  | @put _ jobType reference _ _ hi =>
    exact Or.inr ⟨jobType, reference, true, (perm_eraseIdx hi).map Insertion.key, rfl⟩
  | @discard _ jobType reference _ hi =>
    exact Or.inr ⟨jobType, reference, false, (perm_eraseIdx hi).map Insertion.key, rfl⟩
  | get | fetch | fetchFailed | dispatch | release => exact Or.inl ⟨List.Perm.refl _, rfl⟩

theorem not_reserves_of_goesOn {s : QueueState} {a : QueueAction} (hgo : a.goesOn = true)
    (key : Str) : ¬ Reserves s a key := by
  cases a with
  | enqueue jobType reference priority => cases hgo
  | create _ _ _ _ | number _ | put _ | discard _ | get | fetch _ | fetchFailed _ | dispatch _ _
  | release _ => exact id

theorem enqueuesRow_of_goesOn {s : QueueState} {a : QueueAction} (hgo : a.goesOn = true) :
    EnqueuesRow s a := by
  cases a with
  | enqueue jobType reference priority => cases hgo
  | create _ _ _ _ | number _ | put _ | discard _ | get | fetch _ | fetchFailed _ | dispatch _ _
  | release _ => trivial

/-- It reserves no key. -/
theorem inFlight_of_goesOn {cfg : QueueSettings} {s t : QueueState} {a : QueueAction}
    (hgo : a.goesOn = true) (h : queueStep cfg s a = some t) {key : Str}
    (hkey : key ∈ t.inFlight) : key ∈ s.inFlight := by
  cases queueStep_moves h with
  | keep _ _ _ hflight | drop _ _ _ _ hflight => exact hflight ▸ hkey
  | @reserve k hnew _ _ _ _ => exact absurd ((hnew k).mpr rfl) (not_reserves_of_goesOn hgo k)
  | release _ _ _ hflight =>
    rw [hflight] at hkey
    exact Finset.mem_of_mem_erase hkey

/-- It creates and deletes no row. -/
theorem rows_of_goesOn {cfg : QueueSettings} {s t : QueueState} {a : QueueAction}
    (hgo : a.goesOn = true) (h : queueStep cfg s a = some t) :
    t.world.outbound.nextPk = s.world.outbound.nextPk ∧
    ∀ r ∈ s.world.outbound.rows, ∃ r' ∈ t.world.outbound.rows, r'.pk = r.pk := by
  rcases queueStep_world h with ⟨_, _, _, _, rfl, _⟩ | hw | ⟨_, _, _, d, d', _, _, hmicro⟩
  · cases hgo
  · rw [hw]
    exact ⟨rfl, fun r hr => ⟨r, hr, rfl⟩⟩
  · rcases dispatchMicro_cases hmicro with ⟨hw, _⟩ | ⟨now, hw, _⟩ | ⟨u, hw, _⟩
    · rw [hw]
      exact ⟨rfl, fun r hr => ⟨r, hr, rfl⟩⟩
    · rw [hw]
      exact ⟨rfl, fun r hr => ⟨r, hr, rfl⟩⟩
    · rw [hw]
      refine ⟨rfl, fun r hr => ⟨_, Table.mem_update_of_mem hr d.outbound.pk u, ?_⟩⟩
      split
      · exact u.pk_set r
      · rfl

/-- Each POST of the run has its call ahead, in progress or behind. -/
structure PostInv (start : Nat) (s : SendState) : Prop where
  queue : QueueInv s.queue
  known : ∀ key ∈ s.queue.inFlight, ∃ pk < s.queue.world.outbound.nextPk, key = outboundKey pk
  later : start ≤ s.queue.world.outbound.nextPk
  row : ∀ pk, start ≤ pk → pk < s.queue.world.outbound.nextPk →
    ∃ r ∈ s.queue.world.outbound.rows, r.pk = pk
  once : s.posting.Nodup
  posting : ∀ pk ∈ s.posting, (start ≤ pk ∧ pk < s.queue.world.outbound.nextPk) ∧
    outboundKey pk ∉ s.queue.inFlight ∧ ∀ ok, (Text.ofNat pk, ok) ∉ s.queue.returned
  inserting : ∀ key ∈ callKeys s.queue, ∃ pk, (start ≤ pk ∧ pk < s.queue.world.outbound.nextPk) ∧
    key = outboundKey pk ∧ ∀ ok, (Text.ofNat pk, ok) ∉ s.queue.returned
  returned : ∀ pk ok, (Text.ofNat pk, ok) ∈ s.queue.returned →
    start ≤ pk ∧ pk < s.queue.world.outbound.nextPk
  progress : ∀ pk, start ≤ pk → pk < s.queue.world.outbound.nextPk →
    pk ∈ s.posting ∨ outboundKey pk ∈ callKeys s.queue ∨
      ∃ ok, (Text.ofNat pk, ok) ∈ s.queue.returned
  accepted : ∀ pk ∈ s.accepted, ∃ ok, (Text.ofNat pk, ok) ∈ s.queue.returned

theorem postInv_start {q : QueueState} (h : QueueReady q) :
    PostInv q.world.outbound.nextPk ⟨q, [], []⟩ := by
  refine ⟨h.inv, h.known, Nat.le_refl _, ?_, List.nodup_nil, ?_, ?_, ?_, ?_, ?_⟩
  · intro pk hle hlt
    exact absurd hlt (Nat.not_lt.mpr hle)
  · exact fun pk hpk => absurd hpk List.not_mem_nil
  · intro key hkey
    rw [callKeys, h.inserting] at hkey
    cases hkey
  · intro pk ok hpk
    rw [h.returned] at hpk
    cases hpk
  · intro pk hle hlt
    exact absurd hlt (Nat.not_lt.mpr hle)
  · exact fun pk hpk => absurd hpk List.not_mem_nil

theorem postInv_create {cfg : QueueSettings} {start : Nat} {s t : SendState} {modemIndex : Nat}
    {toNumber text : Str} {now : Nat} (hs : PostInv start s)
    (h : sendStep cfg s (.create modemIndex toNumber text now) = some t) : PostInv start t := by
  simp only [sendStep, Option.map_eq_some_iff] at h
  obtain ⟨q, hq, rfl⟩ := h
  have hinv := queueInv_queueStep hs.queue (a := .create modemIndex (Text.strip toNumber) text now)
    trivial hq
  cases hq
  have hlt : ∀ {pk}, start ≤ pk ∧ pk < s.queue.world.outbound.nextPk →
      start ≤ pk ∧ pk < s.queue.world.outbound.nextPk + 1 :=
    fun hpk => ⟨hpk.1, Nat.lt_succ_of_lt hpk.2⟩
  have hold : ∀ {pk}, pk < s.queue.world.outbound.nextPk + 1 →
      pk ≠ s.queue.world.outbound.nextPk → pk < s.queue.world.outbound.nextPk :=
    fun hpk hne => Nat.lt_of_le_of_ne (Nat.lt_succ_iff.mp hpk) hne
  refine ⟨hinv, ?_, Nat.le_succ_of_le hs.later, ?_, ?_, ?_, ?_, ?_, ?_, hs.accepted⟩
  · intro key hkey
    obtain ⟨pk, hpk, rfl⟩ := hs.known key hkey
    exact ⟨pk, Nat.lt_succ_of_lt hpk, rfl⟩
  · intro pk hle hpk
    by_cases hnew : pk = s.queue.world.outbound.nextPk
    · exact ⟨_, List.mem_append_right _ (List.mem_singleton_self _), hnew.symm⟩
    · obtain ⟨r, hr, hrpk⟩ := hs.row pk hle (hold hpk hnew)
      exact ⟨r, List.mem_append_left _ hr, hrpk⟩
  · rw [List.nodup_append]
    refine ⟨hs.once, List.nodup_singleton _, ?_⟩
    intro pk hpk q hq heq
    rw [heq, List.mem_singleton.mp hq] at hpk
    exact absurd (hs.posting _ hpk).1.2 (Nat.lt_irrefl _)
  · intro pk hpk
    rcases List.mem_append.mp hpk with hpk | hpk
    · exact ⟨hlt (hs.posting pk hpk).1, (hs.posting pk hpk).2⟩
    · rw [List.mem_singleton.mp hpk]
      refine ⟨⟨hs.later, Nat.lt_succ_self _⟩, ?_, ?_⟩
      · intro hkey
        obtain ⟨pk', hpk', heq⟩ := hs.known _ hkey
        exact absurd (outboundKey_injective heq) (Nat.ne_of_gt hpk')
      · intro ok hok
        exact absurd (hs.returned _ ok hok).2 (Nat.lt_irrefl _)
  · intro key hkey
    obtain ⟨pk, hpk, hsame⟩ := hs.inserting key hkey
    exact ⟨pk, hlt hpk, hsame⟩
  · exact fun pk ok hok => hlt (hs.returned pk ok hok)
  · intro pk hle hpk
    by_cases hnew : pk = s.queue.world.outbound.nextPk
    · exact Or.inl (List.mem_append_right _ (List.mem_singleton.mpr hnew))
    · rcases hs.progress pk hle (hold hpk hnew) with hpost | hcall
      · exact Or.inl (List.mem_append_left _ hpost)
      · exact Or.inr hcall

/-- The queue when the call for the row `pk` has reserved its key. -/
def QueueState.reserveRow (q : QueueState) (pk : Nat) : QueueState :=
  { q with
    inFlight := insert (outboundKey pk) q.inFlight
    inserting := q.inserting ++
      [⟨"outbound".toList, Text.ofNat pk, priorityRank "normal".toList, .reserved⟩] }

theorem queueStep_enqueueRow {cfg : QueueSettings} {q : QueueState} {pk : Nat}
    (h : outboundKey pk ∉ q.inFlight) :
    queueStep cfg q (.enqueue "outbound".toList (Text.ofNat pk) "normal".toList) =
      some (q.reserveRow pk) := if_neg h

theorem callKeys_reserveRow (q : QueueState) (pk : Nat) :
    callKeys (q.reserveRow pk) = callKeys q ++ [outboundKey pk] := List.map_append

theorem postInv_call {cfg : QueueSettings} {start : Nat} {s t : SendState} {pk : Nat}
    (hs : PostInv start s) (h : sendStep cfg s (.call pk) = some t) : PostInv start t := by
  obtain ⟨hpost, q, hq, rfl⟩ := sendStep_call h
  obtain ⟨hbound, hfree, hnot⟩ := hs.posting pk hpost
  have hrow : EnqueuesRow s.queue
      (.enqueue "outbound".toList (Text.ofNat pk) "normal".toList) := ⟨pk, rfl, rfl⟩
  have hinv := queueInv_queueStep hs.queue hrow hq
  rw [queueStep_enqueueRow hfree, Option.some.injEq] at hq
  subst hq
  refine ⟨hinv, ?_, hs.later, hs.row, hs.once.erase pk, ?_, ?_, hs.returned, ?_, hs.accepted⟩
  · intro key hkey
    rcases Finset.mem_insert.mp hkey with rfl | hkey
    · exact ⟨pk, hbound.2, rfl⟩
    · exact hs.known key hkey
  · intro pk' hpk'
    obtain ⟨hne, hpk'⟩ := hs.once.mem_erase_iff.mp hpk'
    obtain ⟨hbound', hfree', hnot'⟩ := hs.posting pk' hpk'
    refine ⟨hbound', ?_, hnot'⟩
    intro hkey
    rcases Finset.mem_insert.mp hkey with heq | hkey
    · exact hne (outboundKey_injective heq)
    · exact hfree' hkey
  · intro key hkey
    rw [callKeys_reserveRow] at hkey
    rcases List.mem_append.mp hkey with hkey | hkey
    · exact hs.inserting key hkey
    · exact ⟨pk, hbound, List.mem_singleton.mp hkey, hnot⟩
  · intro pk' hle hlt
    rw [callKeys_reserveRow]
    by_cases heq : pk' = pk
    · refine Or.inr (Or.inl (List.mem_append_right _ ?_))
      rw [heq]
      exact List.mem_singleton_self _
    · rcases hs.progress pk' hle hlt with hpost' | hcall | hback
      · exact Or.inl (hs.once.mem_erase_iff.mpr ⟨heq, hpost'⟩)
      · exact Or.inr (Or.inl (List.mem_append_left _ hcall))
      · exact Or.inr (Or.inr hback)

section Work
variable {cfg : QueueSettings} {start : Nat} {s : SendState} {q : QueueState} {a : QueueAction}

theorem PostInv.known_goesOn (hs : PostInv start s) (hgo : a.goesOn = true)
    (hq : queueStep cfg s.queue a = some q) :
    ∀ key ∈ q.inFlight, ∃ pk < q.world.outbound.nextPk, key = outboundKey pk := by
  intro key hkey
  rw [(rows_of_goesOn hgo hq).1]
  exact hs.known key (inFlight_of_goesOn hgo hq hkey)

theorem PostInv.row_goesOn (hs : PostInv start s) (hgo : a.goesOn = true)
    (hq : queueStep cfg s.queue a = some q) : ∀ pk, start ≤ pk → pk < q.world.outbound.nextPk →
      ∃ r ∈ q.world.outbound.rows, r.pk = pk := by
  obtain ⟨hnext, hrows⟩ := rows_of_goesOn hgo hq
  intro pk hle hlt
  obtain ⟨r, hr, rfl⟩ := hs.row pk hle (hnext ▸ hlt)
  exact hrows r hr

/-- No call returns. -/
theorem postInv_work_going (hs : PostInv start s) (hgo : a.goesOn = true)
    (hq : queueStep cfg s.queue a = some q) (hcalls : (callKeys q).Perm (callKeys s.queue))
    (hreturned : q.returned = s.queue.returned) : PostInv start { s with queue := q } := by
  have hinv := queueInv_queueStep hs.queue (enqueuesRow_of_goesOn hgo) hq
  have hnext := (rows_of_goesOn hgo hq).1
  refine ⟨hinv, hs.known_goesOn hgo hq, hnext ▸ hs.later, hs.row_goesOn hgo hq, hs.once, ?_, ?_, ?_,
    ?_, ?_⟩
  · intro pk hpk
    obtain ⟨hbound, hfree, hnot⟩ := hs.posting pk hpk
    rw [hnext, hreturned]
    exact ⟨hbound, fun hkey => hfree (inFlight_of_goesOn hgo hq hkey), hnot⟩
  · intro key hkey
    rw [hnext, hreturned]
    exact hs.inserting key (hcalls.mem_iff.mp hkey)
  · rw [hnext, hreturned]
    exact hs.returned
  · rw [hnext, hreturned]
    intro pk hle hlt
    rw [hcalls.mem_iff]
    exact hs.progress pk hle hlt
  · rw [hreturned]
    exact hs.accepted

/-- A call that returns is that of a POST, and the only one for its row. -/
theorem PostInv.returning (hs : PostInv start s) {jobType reference : Str}
    (hcalls : (callKeys s.queue).Perm (jobKey jobType reference :: callKeys q)) :
    ∃ own, (start ≤ own ∧ own < s.queue.world.outbound.nextPk) ∧
      jobKey jobType reference = outboundKey own ∧ reference = Text.ofNat own ∧
      outboundKey own ∈ s.queue.inFlight ∧ outboundKey own ∉ callKeys q := by
  have hmem : jobKey jobType reference ∈ callKeys s.queue :=
    hcalls.mem_iff.mpr List.mem_cons_self
  obtain ⟨own, hown, hkey, _⟩ := hs.inserting _ hmem
  refine ⟨own, hown, hkey, (jobKey_eq_outboundKey hkey).2, ?_, ?_⟩
  · rw [hs.queue.custody.mem_iff, ← hkey]
    exact List.mem_append_left _ hmem
  · have hnodup : (callKeys s.queue).Nodup :=
      hs.queue.custody.nodup.sublist (List.sublist_append_left _ _)
    have hn := hcalls.nodup_iff.mp hnodup
    rw [hkey] at hn
    exact (List.nodup_cons.mp hn).1

/-- One call returns. -/
theorem postInv_work_returning (hs : PostInv start s) (hgo : a.goesOn = true)
    (hq : queueStep cfg s.queue a = some q) {jobType reference : Str} {ok : Bool}
    (hcalls : (callKeys s.queue).Perm (jobKey jobType reference :: callKeys q))
    (hreturned : q.returned = s.queue.returned ++ [(reference, ok)]) :
    PostInv start { s with queue := q } := by
  have hinv := queueInv_queueStep hs.queue (enqueuesRow_of_goesOn hgo) hq
  have hnext := (rows_of_goesOn hgo hq).1
  obtain ⟨own, hown, hkey, href, hheld, hother⟩ := hs.returning hcalls
  have hmore : ∀ {pk ok'}, (Text.ofNat pk, ok') ∈ q.returned ↔
      (Text.ofNat pk, ok') ∈ s.queue.returned ∨ (pk = own ∧ ok' = ok) := by
    intro pk ok'
    rw [hreturned, List.mem_append, List.mem_singleton, Prod.mk.injEq, href]
    refine or_congr_right (and_congr_left (fun _ => ⟨fun h => Text.ofNat_injective h, ?_⟩))
    exact fun h => congrArg Text.ofNat h
  refine ⟨hinv, hs.known_goesOn hgo hq, hnext ▸ hs.later, hs.row_goesOn hgo hq, hs.once, ?_, ?_, ?_,
    ?_, ?_⟩
  · intro pk hpk
    obtain ⟨hbound, hfree, hnot⟩ := hs.posting pk hpk
    rw [hnext]
    refine ⟨hbound, fun hkey => hfree (inFlight_of_goesOn hgo hq hkey), ?_⟩
    intro ok' hok
    rcases hmore.mp hok with hok | ⟨rfl, _⟩
    · exact hnot ok' hok
    · exact hfree hheld
  · intro key hkey'
    obtain ⟨pk, hbound, rfl, hnot⟩ :=
      hs.inserting key (hcalls.mem_iff.mpr (List.mem_cons_of_mem _ hkey'))
    refine ⟨pk, hnext ▸ hbound, rfl, ?_⟩
    intro ok' hok
    rcases hmore.mp hok with hok | ⟨rfl, _⟩
    · exact hnot ok' hok
    · exact hother hkey'
  · intro pk ok' hok
    rw [hnext]
    rcases hmore.mp hok with hok | ⟨rfl, _⟩
    · exact hs.returned pk ok' hok
    · exact hown
  · intro pk hle hlt
    rw [hnext] at hlt
    rcases hs.progress pk hle hlt with hpost | hcall | ⟨ok', hback⟩
    · exact Or.inl hpost
    · rcases List.mem_cons.mp (hcalls.mem_iff.mp hcall) with heq | hcall
      · refine Or.inr (Or.inr ⟨ok, hmore.mpr (Or.inr ⟨?_, rfl⟩)⟩)
        exact outboundKey_injective (heq.trans hkey)
      · exact Or.inr (Or.inl hcall)
    · exact Or.inr (Or.inr ⟨ok', hmore.mpr (Or.inl hback)⟩)
  · intro pk hpk
    obtain ⟨ok', hok⟩ := hs.accepted pk hpk
    exact ⟨ok', hmore.mpr (Or.inl hok)⟩

end Work

theorem postInv_work {cfg : QueueSettings} {start : Nat} {s t : SendState} {a : QueueAction}
    (hs : PostInv start s) (h : sendStep cfg s (.work a) = some t) : PostInv start t := by
  obtain ⟨hgo, q, hq, rfl⟩ := sendStep_work h
  rcases goesOn_calls hgo hq with ⟨hcalls, hreturned⟩ | ⟨jobType, reference, ok, hcalls, hreturned⟩
  · exact postInv_work_going hs hgo hq hcalls hreturned
  · exact postInv_work_returning hs hgo hq hcalls hreturned

theorem postInv_sendStep {cfg : QueueSettings} {start : Nat} {s t : SendState} {a : SendAction}
    (hs : PostInv start s) (h : sendStep cfg s a = some t) : PostInv start t := by
  cases a with
  | create modemIndex toNumber text now => exact postInv_create hs h
  | call pk => exact postInv_call hs h
  | work a => exact postInv_work hs h
  | respond pk =>
    simp only [sendStep] at h
    split at h
    · next hreturned =>
      cases h
      refine ⟨hs.queue, hs.known, hs.later, hs.row, hs.once, hs.posting, hs.inserting, hs.returned,
        hs.progress, ?_⟩
      intro p hp
      rcases List.mem_append.mp hp with hp | hp
      · exact hs.accepted p hp
      · obtain ⟨r, hr, href⟩ := List.any_eq_true.mp hreturned
        rw [List.mem_singleton.mp hp, ← eq_of_beq href]
        exact ⟨r.2, hr⟩
    · cases h

/-! ## Rows that are given up -/

/-- The row is CREATED, and no job for it is on its way or still to be made. -/
structure LostRow (s : SendState) (pk : Nat) : Prop where
  created : CreatedRow s.queue.world pk
  called : pk ∉ s.posting
  idle : (outboundKey pk, true) ∉ s.queue.items

theorem workerKey_iff {q : QueueState} {i : Nat} {x : Handling} (hi : q.handling[i]? = some x)
    {key : Str} : (q.handling[i]?).map Handling.key = some key ↔ x.key = key := by
  rw [hi, Option.map_some, Option.some.injEq]

/-- A dispatch that ends while its row is CREATED ends by an exception other than `MmcliError`. -/
theorem drops_dispatch_iff {cfg : QueueSettings} {s : SendState} {i : Nat} {event : DispatchEvent}
    {job : OutboundJob} {d d' : Dispatch} {world : World} (hs : QueueInv s.queue)
    (hi : s.queue.handling[i]? = some (.dispatching job d))
    (hmicro : dispatchMicro s.queue.world d event = some (world, d')) {pk : Nat} :
    Drops cfg s.queue (.dispatch i event) (outboundKey pk) ∧ CreatedRow world pk ↔
      GivesUp cfg s (.work (.dispatch i event)) pk := by
  obtain ⟨hkey, hmirrors, hfits⟩ := hs.dispatches.own job d (List.mem_of_getElem? hi)
  constructor
  · rintro ⟨⟨job', e, w, e', hi', hkey', hmicro', hended⟩, hc⟩
    rw [hi] at hi'
    cases hi'
    rw [hmicro] at hmicro'
    cases hmicro'
    have hpk : pk = d.outbound.pk := outboundKey_injective (hkey'.symm.trans hkey)
    rw [hpk, ← dispatchMicro_pk hmicro] at hc
    have hcreated := (createdRow_of_mirrors (dispatchMicro_mirrors hmirrors hmicro)).mp hc
    have hevent := (dispatchMicro_progress hfits hmicro).ended hended hcreated
    subst hevent
    rw [dispatchMicro_pk hmicro, ← hpk, (dispatchMicro_otherError hmicro).1] at hc
    exact ⟨hc, (workerKey_iff hi).mpr hkey'⟩
  · intro hg
    cases event with
    | otherError =>
      obtain ⟨hc, hkey'⟩ := hg
      obtain ⟨hw, hd'⟩ := dispatchMicro_otherError hmicro
      refine ⟨⟨job, d, world, d', hi, (workerKey_iff hi).mp hkey', hmicro, ?_⟩, ?_⟩
      · rw [hd']
      · rw [hw]
        exact hc
    | resolved _ | prepared | made _ | savePath | transmitted | saveSent | queueWebhook _
    | mmcliError _ | saveFailed => exact absurd hg.2 id

/-- A job is dropped while its row is CREATED exactly when the step gives the row up. -/
theorem drops_iff_givesUp {cfg : QueueSettings} {s : SendState} {q : QueueState} {a : QueueAction}
    (hs : QueueInv s.queue) (h : queueStep cfg s.queue a = some q) {pk : Nat} :
    Drops cfg s.queue a (outboundKey pk) ∧ CreatedRow q.world pk ↔ GivesUp cfg s (.work a) pk := by
  cases queueStep_cases h with
  | putFull | put =>
    simp only [Drops, GivesUp, Option.map_eq_some_iff]
    exact and_comm
  | fetch =>
    refine iff_of_false ?_ (fun hg => hg.2)
    rintro ⟨⟨job, _, hkey, hover⟩, hc⟩
    rw [processJob_createdRow hkey hc] at hover
    cases hover
  | @fetchFailed i job hi =>
    constructor
    · rintro ⟨⟨job', hi', hkey⟩, hc⟩
      exact ⟨hc, (workerKey_iff hi').mpr hkey⟩
    · rintro ⟨hc, hkey⟩
      exact ⟨⟨job, hi, (workerKey_iff hi).mp hkey⟩, hc⟩
  | dispatch hi hmicro => exact drops_dispatch_iff hs hi hmicro
  | create | taken | enqueue | number | discard | get | release =>
    exact iff_of_false (fun hd => hd.1) (fun hg => hg.2)

theorem lostRow_work {cfg : QueueSettings} {start : Nat} {s t : SendState} {a : QueueAction}
    (hs : PostInv start s) (h : sendStep cfg s (.work a) = some t) {pk : Nat} :
    LostRow t pk ↔ LostRow s pk ∨ GivesUp cfg s (.work a) pk := by
  obtain ⟨hgo, q, hq, rfl⟩ := sendStep_work h
  have hitems : (outboundKey pk, true) ∈ q.items ↔
      (outboundKey pk, true) ∈ s.queue.items ∧ ¬ Drops cfg s.queue a (outboundKey pk) := by
    rw [mem_items_queueStep hs.queue.custody hq]
    exact or_iff_left (not_reserves_of_goesOn hgo _)
  rw [← drops_iff_givesUp hs.queue hq]
  constructor
  · intro hl
    obtain ⟨r, hr, hrpk, hstate⟩ := hl.created
    have hlt : pk < s.queue.world.outbound.nextPk := by
      rw [← (rows_of_goesOn hgo hq).1, ← hrpk]
      exact q.world.outbound.pk_lt r hr
    by_cases hidle : (outboundKey pk, true) ∈ s.queue.items
    · refine Or.inr ⟨?_, hl.created⟩
      by_contra hd
      exact hl.idle (hitems.mpr ⟨hidle, hd⟩)
    · exact Or.inl ⟨createdRow_queueStep hs.queue.dispatches hq hlt hl.created, hl.called, hidle⟩
  · rintro (hl | ⟨hd, hc⟩)
    · exact ⟨createdRow_stays hs.queue.dispatches hq hl.created hl.idle, hl.called,
        fun hmem => hl.idle (hitems.mp hmem).1⟩
    · refine ⟨hc, ?_, fun hmem => (hitems.mp hmem).2 hd⟩
      -- a job has the key, so the POST of the row has called
      intro hpost
      have hheld := held_of_drops hq hd
      exact (hs.posting pk hpost).2.1 ((hs.queue.custody.mem_iff _).mpr hheld)

theorem lostRow_create {cfg : QueueSettings} {start : Nat} {s t : SendState} {modemIndex : Nat}
    {toNumber text : Str} {now : Nat} (hs : PostInv start s)
    (h : sendStep cfg s (.create modemIndex toNumber text now) = some t) {pk : Nat} :
    LostRow t pk ↔ LostRow s pk := by
  simp only [sendStep, Option.map_eq_some_iff] at h
  obtain ⟨q, hq, rfl⟩ := h
  have hitems : q.items = s.queue.items := by
    cases hq
    rfl
  constructor
  · intro hl
    have hnew : pk ≠ s.queue.world.outbound.nextPk := by
      intro heq
      exact hl.called (List.mem_append_right _ (List.mem_singleton.mpr heq))
    have hlt : pk < s.queue.world.outbound.nextPk := by
      obtain ⟨r, hr, hrpk, _⟩ := hl.created
      have hbound := q.world.outbound.pk_lt r hr
      cases hq
      exact Nat.lt_of_le_of_ne (Nat.lt_succ_iff.mp (hrpk ▸ hbound)) hnew
    refine ⟨createdRow_queueStep hs.queue.dispatches hq hlt hl.created, ?_, hitems ▸ hl.idle⟩
    exact fun hpost => hl.called (List.mem_append_left _ hpost)
  · intro hl
    refine ⟨createdRow_stays hs.queue.dispatches hq hl.created hl.idle, ?_, hitems ▸ hl.idle⟩
    intro hpost
    rcases List.mem_append.mp hpost with hpost | hpost
    · exact hl.called hpost
    · obtain ⟨r, hr, hrpk, _⟩ := hl.created
      rw [← hrpk, List.mem_singleton] at hpost
      exact absurd (s.queue.world.outbound.pk_lt r hr) (Nat.not_lt.mpr (Nat.le_of_eq hpost.symm))

theorem lostRow_call {cfg : QueueSettings} {start : Nat} {s t : SendState} {p : Nat}
    (hs : PostInv start s) (h : sendStep cfg s (.call p) = some t) {pk : Nat} :
    LostRow t pk ↔ LostRow s pk := by
  obtain ⟨hpost, q, hq, rfl⟩ := sendStep_call h
  have hitems : (outboundKey pk, true) ∈ q.items ↔ ((outboundKey pk, true) ∈ s.queue.items ∧ _) ∨ _ :=
    mem_items_queueStep hs.queue.custody hq
  have hfree := (hs.posting p hpost).2.1
  rw [queueStep_enqueueRow hfree, Option.some.injEq] at hq
  subst hq
  constructor
  · intro hl
    have hne : pk ≠ p := by
      rintro rfl
      exact hl.idle (hitems.mpr (Or.inr ⟨rfl, hfree⟩))
    exact ⟨hl.created, fun hpk => hl.called (hs.once.mem_erase_iff.mpr ⟨hne, hpk⟩),
      fun hmem => hl.idle (hitems.mpr (Or.inl ⟨hmem, id⟩))⟩
  · intro hl
    refine ⟨hl.created, fun hpk => hl.called (List.mem_of_mem_erase hpk), ?_⟩
    intro hmem
    rcases hitems.mp hmem with ⟨hmem, _⟩ | ⟨hkey, _⟩
    · exact hl.idle hmem
    · rw [outboundKey_injective hkey] at hpost
      exact hl.called hpost

theorem lostRow_sendStep {cfg : QueueSettings} {start : Nat} {s t : SendState} {a : SendAction}
    (hs : PostInv start s) (h : sendStep cfg s a = some t) {pk : Nat} :
    LostRow t pk ↔ LostRow s pk ∨ GivesUp cfg s a pk := by
  cases a with
  | create modemIndex toNumber text now =>
    rw [lostRow_create hs h]
    exact (or_iff_left (fun hg => hg.2)).symm
  | call p =>
    rw [lostRow_call hs h]
    exact (or_iff_left (fun hg => hg.2)).symm
  | work a => exact lostRow_work hs h
  | respond p =>
    have hsame : LostRow t pk ↔ LostRow s pk := by
      simp only [sendStep] at h
      split at h
      · cases h
        exact ⟨fun hl => ⟨hl.created, hl.called, hl.idle⟩, fun hl => ⟨hl.created, hl.called, hl.idle⟩⟩
      · cases h
    rw [hsame]
    exact (or_iff_left (fun hg => hg.2)).symm

/-! ## Runs -/

/-- A row has been given up in a run exactly when some step of it did so. -/
theorem lost_iff {cfg : QueueSettings} {q : QueueState} (hq : QueueReady q) {t : SendState}
    {actions : List SendAction} (h : exec (sendStep cfg) ⟨q, [], []⟩ actions = some t) :
    (∃ pk, q.world.outbound.nextPk ≤ pk ∧ LostRow t pk) ↔
      ¬ Meets (sendStep cfg) (GivesNoneUp cfg q.world.outbound.nextPk) ⟨q, [], []⟩ actions := by
  have hstart : ¬ ∃ pk, q.world.outbound.nextPk ≤ pk ∧ LostRow ⟨q, [], []⟩ pk := by
    rintro ⟨pk, hle, hl⟩
    obtain ⟨r, hr, hrpk, _⟩ := hl.created
    rw [← hrpk] at hle
    exact absurd (q.world.outbound.pk_lt r hr) (Nat.not_lt.mpr hle)
  rw [exec_latch (F := fun s => ∃ pk, q.world.outbound.nextPk ≤ pk ∧ LostRow s pk)
    (I := PostInv q.world.outbound.nextPk) ?_ ?_ (postInv_start hq) h]
  · exact or_iff_right hstart
  · exact fun s a t hs hstep => postInv_sendStep hs hstep
  · intro s a t hs hstep
    simp only [GivesNoneUp, not_forall, not_not, exists_prop, lostRow_sendStep hs hstep,
      and_or_left, exists_or]

/-- An accepted row that is not lost is remembered. -/
theorem remembered_of_not_lost {start : Nat} {s : SendState} (hs : PostInv start s)
    (hl : ¬ ∃ pk, start ≤ pk ∧ LostRow s pk) : Remembered s := by
  intro pk hpk
  obtain ⟨ok, hok⟩ := hs.accepted pk hpk
  obtain ⟨hle, hlt⟩ := hs.returned pk ok hok
  obtain ⟨r, hr, hrpk⟩ := hs.row pk hle hlt
  by_cases hstate : r.state = .created
  · refine Or.inl ?_
    have hnotposting : pk ∉ s.posting := fun hpost => (hs.posting pk hpost).2.2 ok hok
    have hitem : (outboundKey pk, true) ∈ s.queue.items := by
      by_contra hidle
      exact hl ⟨pk, hle, ⟨r, hr, hrpk, hstate⟩, hnotposting, hidle⟩
    have hheld : outboundKey pk ∈ s.queue.held := by
      rw [← map_fst_items]
      exact List.mem_map.mpr ⟨_, hitem, rfl⟩
    refine ⟨(hs.queue.custody.mem_iff _).mpr hheld, ?_⟩
    rcases List.mem_append.mp hheld with hcall | hheld
    · obtain ⟨pk', _, hkey, hnot⟩ := hs.inserting _ hcall
      rw [outboundKey_injective hkey] at hok
      exact absurd hok (hnot ok)
    · rcases List.mem_append.mp hheld with hqueued | hworker
      · obtain ⟨job, hjob, hkey⟩ := List.mem_map.mp hqueued
        exact Or.inl ⟨job, hjob, hkey⟩
      · obtain ⟨x, hx, hkey⟩ := List.mem_map.mp hworker
        exact Or.inr ⟨x, hx, hkey⟩
  · exact Or.inr ⟨r, hr, hrpk, hstate⟩

/-- A step that only ends something: a call, the processing of a job, or a POST. -/
def SendAction.finishes : SendAction → Bool
  | .work (.discard _) | .work (.release _) | .respond _ => true
  | .create _ _ _ _ | .call _ | .work _ => false

theorem givesNoneUp_of_finishes {cfg : QueueSettings} {start : Nat} {s : SendState} {a : SendAction}
    (h : a.finishes = true) : GivesNoneUp cfg start s a := by
  intro pk _ hg
  cases a with
  | create _ _ _ _ | call _ => cases h
  | respond _ => exact hg.2
  | work a =>
    cases a with
    | discard _ | release _ => exact hg.2
    | create _ _ _ _ | enqueue _ _ _ | number _ | put _ | get | fetch _ | fetchFailed _
    | dispatch _ _ => cases h

theorem meets_of_finishing {cfg : QueueSettings} {start : Nat} {s : SendState}
    {finishing : List SendAction} (h : ∀ a ∈ finishing, a.finishes = true) :
    Meets (sendStep cfg) (GivesNoneUp cfg start) s finishing := by
  induction finishing generalizing s with
  | nil => trivial
  | cons a rest ih =>
    rw [List.forall_mem_cons] at h
    exact ⟨givesNoneUp_of_finishes h.1, fun u _ => ih h.2⟩

/-- What is in progress can end so that an accepted message is forgotten. -/
def CanForget (cfg : QueueSettings) (s : SendState) : Prop :=
  ∃ finishing t, (∀ a ∈ finishing, a.finishes = true) ∧
    exec (sendStep cfg) s finishing = some t ∧ ¬ Remembered t

section Forget
variable {cfg : QueueSettings} {start : Nat} {s : SendState} {pk : Nat}

/-- A POST that returns with its row CREATED and its key free has been forgotten. -/
theorem canForget_of_free {ok : Bool} (hreturned : (Text.ofNat pk, ok) ∈ s.queue.returned)
    (hfree : outboundKey pk ∉ s.queue.inFlight) (hc : CreatedRow s.queue.world pk) :
    CanForget cfg s := by
  have hany : s.queue.returned.any (fun r => r.1 == Text.ofNat pk) = true :=
    List.any_eq_true.mpr ⟨_, hreturned, beq_self_eq_true (Text.ofNat pk)⟩
  refine ⟨[.respond pk], { s with accepted := s.accepted ++ [pk] }, ?_, ?_, ?_⟩
  · exact List.forall_mem_singleton.mpr rfl
  · exact exec_cons_eq_some.mpr ⟨_, if_pos hany, rfl⟩
  · intro hremembered
    rcases hremembered pk (List.mem_append_right _ (List.mem_singleton_self pk)) with
      ⟨hkey, _⟩ | ⟨r, hr, hrpk, hstate⟩
    · exact hfree hkey
    · obtain ⟨r₀, hr₀, hrpk₀, hstate₀⟩ := hc
      rw [s.queue.world.outbound.pk_injOn hr hr₀ (hrpk.trans hrpk₀.symm)] at hstate
      exact hstate hstate₀

/-- A step that ends something comes first. -/
theorem canForget_cons {u : SendState} {a : SendAction} (ha : a.finishes = true)
    (hu : sendStep cfg s a = some u) (h : CanForget cfg u) : CanForget cfg s := by
  obtain ⟨finishing, t, hfinishing, ht, hnot⟩ := h
  refine ⟨a :: finishing, t, ?_, exec_cons_eq_some.mpr ⟨u, hu, ht⟩, hnot⟩
  exact List.forall_mem_cons.mpr ⟨ha, hfinishing⟩

/-- The call that gave the row up frees its key. -/
theorem canForget_of_call (hl : LostRow s pk) (hcall : outboundKey pk ∈ callKeys s.queue) :
    CanForget cfg s := by
  obtain ⟨c, hc, hkey⟩ := List.mem_map.mp hcall
  obtain ⟨i, hi⟩ := List.mem_iff_getElem?.mp hc
  obtain ⟨jobType, reference, rank, phase⟩ := c
  have hfull : phase = .full := by
    by_contra hphase
    refine hl.idle (List.mem_append_left _ (List.mem_map.mpr ⟨_, hc, ?_⟩))
    rw [Insertion.item, hkey, Prod.mk.injEq]
    exact ⟨rfl, by simpa using hphase⟩
  subst hfull
  have hstep : sendStep cfg s (.work (.discard i)) = some { s with queue := { s.queue with
      inFlight := s.queue.inFlight.erase (jobKey jobType reference)
      inserting := s.queue.inserting.eraseIdx i
      returned := s.queue.returned ++ [(reference, false)] } } := by
    simp [sendStep, queueStep, QueueAction.goesOn, hi]
  have hkey : jobKey jobType reference = outboundKey pk := hkey
  have hreturned : (Text.ofNat pk, false) ∈ s.queue.returned ++ [(reference, false)] := by
    rw [(jobKey_eq_outboundKey hkey).2]
    exact List.mem_append_right _ (List.mem_singleton_self _)
  refine canForget_cons rfl hstep (canForget_of_free hreturned ?_ hl.created)
  rw [hkey]
  exact Finset.notMem_erase _ _

/-- The worker that gave the row up frees its key. -/
theorem canForget_of_worker (hs : PostInv start s) (hl : LostRow s pk) {ok : Bool}
    (hok : (Text.ofNat pk, ok) ∈ s.queue.returned) (hreserved : outboundKey pk ∈ s.queue.inFlight) :
    CanForget cfg s := by
  rcases List.mem_append.mp ((hs.queue.custody.mem_iff _).mp hreserved) with hcall | hheld
  · obtain ⟨pk', _, hkey, hnot⟩ := hs.inserting _ hcall
    rw [outboundKey_injective hkey] at hok
    exact absurd hok (hnot ok)
  · rcases List.mem_append.mp hheld with hqueued | hworker
    · obtain ⟨job, hjob, hkey⟩ := List.mem_map.mp hqueued
      refine absurd (List.mem_append_right _ (List.mem_append_left _ ?_)) hl.idle
      exact List.mem_map.mpr ⟨job, hjob, by rw [hkey]⟩
    · obtain ⟨x, hx, hkey⟩ := List.mem_map.mp hworker
      obtain ⟨i, hi⟩ := List.mem_iff_getElem?.mp hx
      cases x with
      | taken job | dispatching job _ =>
        refine absurd (List.mem_append_right _ (List.mem_append_right _ ?_)) hl.idle
        exact List.mem_map.mpr ⟨_, hx, by rw [Handling.item, hkey]; rfl⟩
      | handled job =>
        have hstep : sendStep cfg s (.work (.release i)) = some { s with queue := { s.queue with
            inFlight := s.queue.inFlight.erase job.key
            handling := s.queue.handling.eraseIdx i } } := by
          simp [sendStep, queueStep, QueueAction.goesOn, hi]
        have hkey : job.key = outboundKey pk := hkey
        refine canForget_cons rfl hstep (canForget_of_free hok ?_ hl.created)
        rw [hkey]
        exact Finset.notMem_erase _ _

/-- The POST of a lost row needs only to return. -/
theorem canForget_of_lost (hs : PostInv start s) (hle : start ≤ pk) (hl : LostRow s pk) :
    CanForget cfg s := by
  have hlt : pk < s.queue.world.outbound.nextPk := by
    obtain ⟨r, hr, hrpk, _⟩ := hl.created
    exact hrpk ▸ s.queue.world.outbound.pk_lt r hr
  rcases hs.progress pk hle hlt with hpost | hcall | ⟨ok, hok⟩
  · exact absurd hpost hl.called
  · exact canForget_of_call hl hcall
  · by_cases hreserved : outboundKey pk ∈ s.queue.inFlight
    · exact canForget_of_worker hs hl hok hreserved
    · exact canForget_of_free hok hreserved hl.created

end Forget

/-- In a run of POSTs and workers: no row is given up exactly when every message that is accepted
    then, or once the calls in progress have ended, is reserved or has left CREATED. -/
theorem accepted_remembered_iff (cfg : QueueSettings) {q : QueueState} (hq : QueueReady q)
    {t : SendState} {actions : List SendAction}
    (h : exec (sendStep cfg) ⟨q, [], []⟩ actions = some t) :
    Meets (sendStep cfg) (GivesNoneUp cfg q.world.outbound.nextPk) ⟨q, [], []⟩ actions ↔
      ∀ finishing t', (∀ a ∈ finishing, a.finishes = true) →
        exec (sendStep cfg) t finishing = some t' → Remembered t' := by
  have hinv : ∀ {as u}, exec (sendStep cfg) ⟨q, [], []⟩ as = some u →
      PostInv q.world.outbound.nextPk u := by
    intro as u hu
    refine Reaches.invariant (I := PostInv q.world.outbound.nextPk) ?_ ⟨as, meets_true _ _, hu⟩
      (postInv_start hq)
    exact fun s a t hs _ hstep => postInv_sendStep hs hstep
  constructor
  · intro hmeets finishing t' hfinishing ht'
    have hall : exec (sendStep cfg) ⟨q, [], []⟩ (actions ++ finishing) = some t' :=
      exec_append_eq_some.mpr ⟨t, h, ht'⟩
    refine remembered_of_not_lost (hinv hall) ?_
    rw [lost_iff hq hall, not_not]
    exact meets_append.mpr ⟨hmeets, fun _ _ => meets_of_finishing hfinishing⟩
  · intro hremembered
    by_contra hmeets
    obtain ⟨pk, hle, hl⟩ := (lost_iff hq h).mpr hmeets
    obtain ⟨finishing, t', hfinishing, ht', hnot⟩ := canForget_of_lost (hinv h) hle hl
    exact hnot (hremembered finishing t' hfinishing ht')

/-! ## A queue of one job -/

theorem queueReady_start (world : World) : QueueReady (.start world) :=
  ⟨queueInv_start world, fun key hkey => absurd hkey (Finset.notMem_empty key), rfl, rfl⟩

/-- A POST up to the moment when it puts its job. -/
def postUpToPut (pk : Nat) : List SendAction :=
  [.create 0 "+351912345678".toList "hello".toList 5, .call pk, .work (.number 0)]

/-- A second POST while the job of the first one is still queued. -/
def postTwice : List SendAction :=
  postUpToPut 1 ++ [.work (.put 0), .respond 1] ++ postUpToPut 2 ++
    [.work (.put 0), .work (.discard 0), .respond 2]

/-- The second message is accepted and forgotten. -/
theorem accepted_can_be_forgotten :
    ¬ ∀ (cfg : QueueSettings) (q : QueueState) (t : SendState) (actions : List SendAction),
      QueueReady q → exec (sendStep cfg) ⟨q, [], []⟩ actions = some t → Remembered t := by
  intro h
  have hrun : (exec (sendStep ⟨1, 1⟩) ⟨.start emptyWorld, [], []⟩ postTwice).map
      (fun t => (decide (2 ∈ t.accepted), decide (outboundKey 2 ∈ t.queue.inFlight),
        t.queue.world.outbound.rows.all (fun r => r.state == .created))) =
      some (true, false, true) := by decide
  obtain ⟨t, ht, hshape⟩ := Option.map_eq_some_iff.mp hrun
  simp only [Prod.mk.injEq, decide_eq_true_eq, decide_eq_false_iff_not, List.all_eq_true,
    beq_iff_eq] at hshape
  obtain ⟨haccepted, hfree, hcreated⟩ := hshape
  rcases h _ _ t _ (queueReady_start emptyWorld) ht 2 haccepted with ⟨hkey, _⟩ | ⟨r, hr, _, hstate⟩
  · exact hfree hkey
  · exact hstate (hcreated r hr)

/-- A worker takes the first job before the second one is put. -/
theorem accepted_remembered_iff_worker_in_time :
    ∃ t, exec (sendStep ⟨1, 1⟩) ⟨.start emptyWorld, [], []⟩
        (postUpToPut 1 ++ [.work (.put 0), .work .get, .respond 1] ++ postUpToPut 2 ++
          [.work (.put 0), .respond 2]) = some t ∧ t.accepted = [1, 2] ∧
      (Meets (sendStep ⟨1, 1⟩) (GivesNoneUp ⟨1, 1⟩ 1) ⟨.start emptyWorld, [], []⟩
          (postUpToPut 1 ++ [.work (.put 0), .work .get, .respond 1] ++ postUpToPut 2 ++
            [.work (.put 0), .respond 2]) ↔
        ∀ finishing t', (∀ a ∈ finishing, a.finishes = true) →
          exec (sendStep ⟨1, 1⟩) t finishing = some t' → Remembered t') := by
  have hrun : (exec (sendStep ⟨1, 1⟩) ⟨.start emptyWorld, [], []⟩
      (postUpToPut 1 ++ [.work (.put 0), .work .get, .respond 1] ++ postUpToPut 2 ++
        [.work (.put 0), .respond 2])).map SendState.accepted = some [1, 2] := by decide
  obtain ⟨t, ht, haccepted⟩ := Option.map_eq_some_iff.mp hrun
  exact ⟨t, ht, haccepted, accepted_remembered_iff ⟨1, 1⟩ (queueReady_start emptyWorld) ht⟩

end HiWaveTel
