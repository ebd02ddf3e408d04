import HiWaveTel.OutboundDispatch
import HiWaveTel.Foundation.Custody
import HiWaveTel.Foundation.Run

/- The in-process queue of outbound messages (`outbound_processor.OutboundProcessorQueue`).
   A call of `enqueue` reserves the key of its job in `_in_flight`, takes a sequence
   number and puts the job into a bounded priority queue, or gives the key back when the
   queue is full; a worker takes the smallest job, dispatches its message if the row is
   still CREATED, and releases the key. Every access to shared data is a step of its own,
   and the calls and the workers interleave freely: the lock that keeps the `mmcli`
   commands of two dispatches apart is not needed here.

   `one_dispatch_sends` — a key is in `_in_flight` exactly while one job has it, so two
   dispatches of one row never overlap, and at most one of them reaches `send_sms`. -/
namespace HiWaveTel
open Foundation

/-! ## Jobs -/

/-- `_PRIORITY_RANK`. -/
def priorityRanks : List (Str × Nat) :=
  [("urgent".toList, 0), ("high".toList, 1), ("normal".toList, 2)]

/-- `_priority_rank`. -/
def priorityRank (priority : Str) : Nat :=
  let name := if priority = [] then "normal".toList else priority
  match priorityRanks.find? (fun e => e.1 == Text.lower (Text.strip name)) with
  | some e => e.2
  | none => 2

example : priorityRank " High ".toList = 1 ∧ priorityRank "soon".toList = 2 := by decide

/-- `f'{job_type}:{reference}'`. -/
def jobKey (jobType reference : Str) : Str := jobType ++ ":".toList ++ reference

structure OutboundJob where
  rank : Nat
  seq : Nat
  jobType : Str
  reference : Str
  deriving DecidableEq, Repr

def OutboundJob.key (job : OutboundJob) : Str := jobKey job.jobType job.reference

/-- How far a call of `enqueue` has got that found its key free. -/
inductive InsertionPhase where
  | reserved
  | numbered (seq : Nat)
  | full                 -- `queue.Full` was raised, the key is still reserved
  deriving DecidableEq, Repr

structure Insertion where
  jobType : Str
  reference : Str
  rank : Nat
  phase : InsertionPhase
  deriving DecidableEq, Repr

def Insertion.key (call : Insertion) : Str := jobKey call.jobType call.reference

/-- A job in the hands of a worker. -/
inductive Handling where
  | taken (job : OutboundJob)
  | dispatching (job : OutboundJob) (dispatch : Dispatch)
  | handled (job : OutboundJob)      -- `_process_job` is over, the key is still reserved

def Handling.job : Handling → OutboundJob
  | .taken job => job
  | .dispatching job _ => job
  | .handled job => job

def Handling.key (h : Handling) : Str := h.job.key

/-- The worker has only the key left to release. -/
def Handling.over : Handling → Bool
  | .handled _ => true
  | .taken _ | .dispatching _ _ => false

/-! ## The queue -/

structure QueueSettings where
  numWorkers : Nat
  maxSize : Int

/-- `queue.put(job, block=False)` raises `queue.Full`; without a positive size it never does. -/
def QueueSettings.full (cfg : QueueSettings) (queue : List OutboundJob) : Bool :=
  decide (0 < cfg.maxSize) && decide (cfg.maxSize ≤ queue.length)

structure QueueState where
  world : World
  inFlight : Finset Str
  lastSeq : Nat
  queue : List OutboundJob
  inserting : List Insertion         -- the `enqueue` calls that are not over
  handling : List Handling           -- the workers that have a job
  returned : List (Str × Bool)       -- references and results of the calls that are over
  sendLog : List Nat                 -- the rows whose dispatch has called `send_sms`

/-- A queue that has just been started. -/
def QueueState.start (world : World) : QueueState :=
  { world, inFlight := ∅, lastSeq := 0, queue := [], inserting := [], handling := [],
    returned := [], sendLog := [] }

/-- The smallest job of the heap. -/
def nextJob (queue : List OutboundJob) : Option OutboundJob :=
  queue.argmin (fun job => toLex (job.rank, job.seq))

/-- `OutboundSms.objects.create`, by another thread. -/
def createOutbound (w : World) (modemIndex : Nat) (toNumber text : Str) (now : Nat) : World :=
  { w with
    outbound := w.outbound.create
      (fun n => { pk := n, mmPath := [], modemIndex, toNumber, text, state := .created,
                  errorMessage := [], createdAt := now, updatedAt := now })
      (fun _ => rfl) (fun _ _ h => h) }

/-- `_process_job` up to the dispatch, with the row as it is read. Another kind of job, a
    reference that is no number, a row that is gone or is not CREATED: nothing is dispatched. -/
def processJob (w : World) (job : OutboundJob) : Handling :=
  if job.jobType = "outbound".toList then
    match (Text.toNat? job.reference).bind w.outbound.get? with
    | none => .handled job
    | some outbound =>
      if outbound.state = .created then .dispatching job ⟨outbound, .resolving⟩ else .handled job
  else .handled job

/-- The dispatch goes on, or is over. -/
def dispatched (job : OutboundJob) (dispatch : Dispatch) : Handling :=
  if dispatch.phase = .ended then .handled job else .dispatching job dispatch

inductive QueueAction where
  | create (modemIndex : Nat) (toNumber text : Str) (now : Nat)
  | enqueue (jobType reference priority : Str)
  | number (i : Nat)
  | put (i : Nat)
  | discard (i : Nat)
  | get
  | fetch (i : Nat)
  | fetchFailed (i : Nat)      -- the read of the row raises
  | dispatch (i : Nat) (event : DispatchEvent)
  | release (i : Nat)

def queueStep (cfg : QueueSettings) (s : QueueState) : QueueAction → Option QueueState
  | .create modemIndex toNumber text now =>
    some { s with world := createOutbound s.world modemIndex toNumber text now }
  | .enqueue jobType reference priority =>
    let key := jobKey jobType reference
    if key ∈ s.inFlight then some { s with returned := s.returned ++ [(reference, true)] }
    else
      some { s with
        inFlight := insert key s.inFlight
        inserting := s.inserting ++ [⟨jobType, reference, priorityRank priority, .reserved⟩] }
  | .number i =>
    match s.inserting[i]? with
    | some ⟨jobType, reference, rank, .reserved⟩ =>
      some { s with
        lastSeq := s.lastSeq + 1
        inserting := s.inserting.set i ⟨jobType, reference, rank, .numbered (s.lastSeq + 1)⟩ }
    | _ => none
  | .put i =>
    match s.inserting[i]? with
    | some ⟨jobType, reference, rank, .numbered seq⟩ =>
      if cfg.full s.queue then
        some { s with inserting := s.inserting.set i ⟨jobType, reference, rank, .full⟩ }
      else
        some { s with
          queue := s.queue ++ [⟨rank, seq, jobType, reference⟩]
          inserting := s.inserting.eraseIdx i
          returned := s.returned ++ [(reference, true)] }
    | _ => none
  | .discard i =>
    match s.inserting[i]? with
    | some ⟨jobType, reference, _, .full⟩ =>
      some { s with
        inFlight := s.inFlight.erase (jobKey jobType reference)
        inserting := s.inserting.eraseIdx i
        returned := s.returned ++ [(reference, false)] }
    | _ => none
  | .get =>
    if s.handling.length < cfg.numWorkers then
      match nextJob s.queue with
      | none => none
      | some job =>
        some { s with queue := s.queue.erase job, handling := s.handling ++ [.taken job] }
    else none
  | .fetch i =>
    match s.handling[i]? with
    | some (.taken job) => some { s with handling := s.handling.set i (processJob s.world job) }
    | _ => none
  | .fetchFailed i =>
    match s.handling[i]? with
    | some (.taken job) => some { s with handling := s.handling.set i (.handled job) }
    | _ => none
  | .dispatch i event =>
    match s.handling[i]? with
    | some (.dispatching job dispatch) =>
      match dispatchMicro s.world dispatch event with
      | none => none
      | some (world, dispatch') =>
        some { s with
          world
          handling := s.handling.set i (dispatched job dispatch')
          sendLog := if event.reachesSend then s.sendLog ++ [dispatch.outbound.pk] else s.sendLog }
    | _ => none
  | .release i =>
    match s.handling[i]? with
    | some (.handled job) =>
      some { s with
        inFlight := s.inFlight.erase job.key
        handling := s.handling.eraseIdx i }
    | _ => none

/-- Every way a step can go, with what it finds and all it changes. -/
inductive QueueMove (cfg : QueueSettings) (s : QueueState) : QueueAction → QueueState → Prop
  | create {modemIndex toNumber text now} :
      QueueMove cfg s (.create modemIndex toNumber text now)
        { s with world := createOutbound s.world modemIndex toNumber text now }
  | taken {jobType reference priority} (htaken : jobKey jobType reference ∈ s.inFlight) :
      QueueMove cfg s (.enqueue jobType reference priority)
        { s with returned := s.returned ++ [(reference, true)] }
  | enqueue {jobType reference priority} (hfree : jobKey jobType reference ∉ s.inFlight) :
      QueueMove cfg s (.enqueue jobType reference priority)
        { s with
          inFlight := insert (jobKey jobType reference) s.inFlight
          inserting := s.inserting ++ [⟨jobType, reference, priorityRank priority, .reserved⟩] }
  | number {i jobType reference rank}
      (hi : s.inserting[i]? = some ⟨jobType, reference, rank, .reserved⟩) :
      QueueMove cfg s (.number i)
        { s with
          lastSeq := s.lastSeq + 1
          inserting := s.inserting.set i ⟨jobType, reference, rank, .numbered (s.lastSeq + 1)⟩ }
  | putFull {i jobType reference rank seq}
      (hi : s.inserting[i]? = some ⟨jobType, reference, rank, .numbered seq⟩)
      (hfull : cfg.full s.queue = true) :
      QueueMove cfg s (.put i)
        { s with inserting := s.inserting.set i ⟨jobType, reference, rank, .full⟩ }
  | put {i jobType reference rank seq}
      (hi : s.inserting[i]? = some ⟨jobType, reference, rank, .numbered seq⟩)
      (hroom : ¬ cfg.full s.queue = true) :
      QueueMove cfg s (.put i)
        { s with
          queue := s.queue ++ [⟨rank, seq, jobType, reference⟩]
          inserting := s.inserting.eraseIdx i
          returned := s.returned ++ [(reference, true)] }
  | discard {i jobType reference rank}
      (hi : s.inserting[i]? = some ⟨jobType, reference, rank, .full⟩) :
      QueueMove cfg s (.discard i)
        { s with
          inFlight := s.inFlight.erase (jobKey jobType reference)
          inserting := s.inserting.eraseIdx i
          returned := s.returned ++ [(reference, false)] }
  | get {job} (hlt : s.handling.length < cfg.numWorkers) (hjob : nextJob s.queue = some job) :
      QueueMove cfg s .get
        { s with queue := s.queue.erase job, handling := s.handling ++ [.taken job] }
  | fetch {i job} (hi : s.handling[i]? = some (.taken job)) :
      QueueMove cfg s (.fetch i) { s with handling := s.handling.set i (processJob s.world job) }
  | fetchFailed {i job} (hi : s.handling[i]? = some (.taken job)) :
      QueueMove cfg s (.fetchFailed i) { s with handling := s.handling.set i (.handled job) }
  | dispatch {i event job d world d'} (hi : s.handling[i]? = some (.dispatching job d))
      (hmicro : dispatchMicro s.world d event = some (world, d')) :
      QueueMove cfg s (.dispatch i event)
        { s with
          world
          handling := s.handling.set i (dispatched job d')
          sendLog := if event.reachesSend then s.sendLog ++ [d.outbound.pk] else s.sendLog }
  | release {i job} (hi : s.handling[i]? = some (.handled job)) :
      QueueMove cfg s (.release i)
        { s with inFlight := s.inFlight.erase job.key, handling := s.handling.eraseIdx i }

theorem queueStep_cases {cfg : QueueSettings} {s t : QueueState} {a : QueueAction}
    (h : queueStep cfg s a = some t) : QueueMove cfg s a t := by
  cases a with
  | create modemIndex toNumber text now =>
    cases h
    exact .create
  | enqueue jobType reference priority =>
    simp only [queueStep] at h
    split at h
    · next htaken =>
      cases h
      exact .taken htaken
    · next hfree =>
      cases h
      exact .enqueue hfree
  | number i =>
    simp only [queueStep] at h
    split at h
    · next hi =>
      cases h
      exact .number hi
    · cases h
  | put i =>
    simp only [queueStep] at h
    split at h
    · next hi =>
      split at h
      · next hfull =>
        cases h
        exact .putFull hi hfull
      · next hroom =>
        cases h
        exact .put hi hroom
    · cases h
  | discard i =>
    simp only [queueStep] at h
    split at h
    · next hi =>
      cases h
      exact .discard hi
    · cases h
  | get =>
    simp only [queueStep] at h
    split at h
    · next hlt =>
      split at h
      · cases h
      · next hjob =>
        cases h
        exact .get hlt hjob
    · cases h
  | fetch i =>
    simp only [queueStep] at h
    split at h
    · next hi =>
      cases h
      exact .fetch hi
    · cases h
  | fetchFailed i =>
    simp only [queueStep] at h
    split at h
    · next hi =>
      cases h
      exact .fetchFailed hi
    · cases h
  | dispatch i event =>
    simp only [queueStep] at h
    split at h
    · next hi =>
      split at h
      · cases h
      · next hmicro =>
        cases h
        exact .dispatch hi hmicro
    · cases h
  | release i =>
    simp only [queueStep] at h
    split at h
    · next hi =>
      cases h
      exact .release hi
    · cases h

/-! ## Who has a key -/

/-- The keys of all jobs that are being inserted, queued or processed. -/
def QueueState.held (s : QueueState) : List Str :=
  s.inserting.map Insertion.key ++ (s.queue.map OutboundJob.key ++ s.handling.map Handling.key)

/-- A call that found the queue full will not insert its job. -/
def Insertion.item (call : Insertion) : Str × Bool := (call.key, call.phase != .full)

def Handling.item (h : Handling) : Str × Bool := (h.key, !h.over)

/-- The same keys, with whether the job is still on its way to the end of its dispatch. -/
def QueueState.items (s : QueueState) : List (Str × Bool) :=
  s.inserting.map Insertion.item ++
    (s.queue.map (fun job => (job.key, true)) ++ s.handling.map Handling.item)

theorem map_fst_items (s : QueueState) : s.items.map Prod.fst = s.held := by
  simp only [QueueState.items, QueueState.held, List.map_append, List.map_map]
  rfl

@[simp] theorem job_processJob (w : World) (job : OutboundJob) : (processJob w job).job = job := by
  unfold processJob
  split_ifs
  · split
    · rfl
    · split_ifs <;> rfl
  · rfl

@[simp] theorem job_dispatched (job : OutboundJob) (dispatch : Dispatch) :
    (dispatched job dispatch).job = job := by
  unfold dispatched
  split_ifs <;> rfl

@[simp] theorem over_dispatched (job : OutboundJob) (dispatch : Dispatch) :
    (dispatched job dispatch).over = decide (dispatch.phase = .ended) := by
  unfold dispatched
  split_ifs with h
  · rw [decide_eq_true h]
    rfl
  · rw [decide_eq_false h]
    rfl

theorem nextJob_mem {queue : List OutboundJob} {job : OutboundJob} (h : nextJob queue = some job) :
    job ∈ queue := List.argmin_mem (Option.mem_def.mpr h)

/-- The step reserves the key for a new job. -/
def Reserves (s : QueueState) (a : QueueAction) (key : Str) : Prop :=
  match a with
  | .enqueue jobType reference _ => jobKey jobType reference = key ∧ key ∉ s.inFlight
  | _ => False

/-- The step is the last of the key's job: the queue is full, or `_process_job` is over. -/
def Drops (cfg : QueueSettings) (s : QueueState) (a : QueueAction) (key : Str) : Prop :=
  match a with
  | .put i => cfg.full s.queue = true ∧ ∃ call, s.inserting[i]? = some call ∧ call.key = key
  | .fetch i => ∃ job, s.handling[i]? = some (.taken job) ∧ job.key = key ∧
      (processJob s.world job).over = true
  | .fetchFailed i => ∃ job, s.handling[i]? = some (.taken job) ∧ job.key = key
  | .dispatch i event => ∃ job d w d', s.handling[i]? = some (.dispatching job d) ∧
      job.key = key ∧ dispatchMicro s.world d event = some (w, d') ∧ d'.phase = .ended
  | _ => False

/-- What a step does to the keys. -/
inductive KeyMove (cfg : QueueSettings) (s : QueueState) (a : QueueAction) (t : QueueState) : Prop
  | keep (hnew : ∀ key, ¬ Reserves s a key) (hdrop : ∀ key, ¬ Drops cfg s a key)
      (hitems : t.items.Perm s.items) (hflight : t.inFlight = s.inFlight)
  | reserve {k : Str} (hnew : ∀ key, Reserves s a key ↔ key = k)
      (hdrop : ∀ key, ¬ Drops cfg s a key) (hfree : k ∉ s.inFlight)
      (hitems : t.items.Perm ((k, true) :: s.items)) (hflight : t.inFlight = insert k s.inFlight)
  | drop {k : Str} {rest : List (Str × Bool)} (hnew : ∀ key, ¬ Reserves s a key)
      (hdrop : ∀ key, Drops cfg s a key ↔ key = k) (hbefore : s.items.Perm ((k, true) :: rest))
      (hitems : t.items.Perm ((k, false) :: rest)) (hflight : t.inFlight = s.inFlight)
  | release {k : Str} (hnew : ∀ key, ¬ Reserves s a key) (hdrop : ∀ key, ¬ Drops cfg s a key)
      (hitems : s.items.Perm ((k, false) :: t.items)) (hflight : t.inFlight = s.inFlight.erase k)

/-- Where the item of a worker is among all items. -/
theorem items_perm_of_worker {s : QueueState} {i : Nat} {x : Handling}
    (hi : s.handling[i]? = some x) :
    s.items.Perm (x.item :: ({ s with handling := s.handling.eraseIdx i }).items) := by
  have hperm := (perm_eraseIdx hi).map Handling.item
  unfold QueueState.items
  refine (List.Perm.append_left _ ?_).trans List.perm_middle
  exact (hperm.append_left _).trans List.perm_middle

theorem items_set_worker {s : QueueState} {i : Nat} {x : Handling} (hi : s.handling[i]? = some x)
    (y : Handling) :
    ({ s with handling := s.handling.set i y }).items.Perm
      (y.item :: ({ s with handling := s.handling.eraseIdx i }).items) := by
  have hperm := (perm_set hi y).map Handling.item
  unfold QueueState.items
  refine (List.Perm.append_left _ ?_).trans List.perm_middle
  exact (hperm.append_left _).trans List.perm_middle

theorem items_perm_of_call {s : QueueState} {i : Nat} {c : Insertion}
    (hi : s.inserting[i]? = some c) :
    s.items.Perm (c.item :: ({ s with inserting := s.inserting.eraseIdx i }).items) :=
  ((perm_eraseIdx hi).map Insertion.item).append_right _

theorem items_set_call {s : QueueState} {i : Nat} {c : Insertion} (hi : s.inserting[i]? = some c)
    (d : Insertion) :
    ({ s with inserting := s.inserting.set i d }).items.Perm
      (d.item :: ({ s with inserting := s.inserting.eraseIdx i }).items) :=
  ((perm_set hi d).map Insertion.item).append_right _

/-- A worker that goes on with its job, or ends it. -/
theorem keyMove_worker {cfg : QueueSettings} {s t : QueueState} {a : QueueAction} {i : Nat}
    {x y : Handling} (hi : s.handling[i]? = some x) (hx : x.over = false) (hkey : y.key = x.key)
    (hnew : ∀ key, ¬ Reserves s a key)
    (hdrop : ∀ key, Drops cfg s a key ↔ key = x.key ∧ y.over = true)
    (hitems : t.items = ({ s with handling := s.handling.set i y }).items)
    (hflight : t.inFlight = s.inFlight) : KeyMove cfg s a t := by
  have hbefore := items_perm_of_worker hi
  have hafter := items_set_worker hi y
  rw [Handling.item, hx] at hbefore
  rw [Handling.item, hkey, ← hitems] at hafter
  cases hy : y.over with
  | true =>
    rw [hy] at hafter
    refine .drop hnew ?_ hbefore hafter hflight
    intro key
    rw [hdrop, hy, eq_self_iff_true, and_true]
  | false =>
    rw [hy] at hafter
    refine .keep hnew ?_ (hafter.trans hbefore.symm) hflight
    intro key hk
    have hover := ((hdrop key).mp hk).2
    rw [hy] at hover
    cases hover

theorem queueStep_moves {cfg : QueueSettings} {s t : QueueState} {a : QueueAction}
    (h : queueStep cfg s a = some t) : KeyMove cfg s a t := by
  cases queueStep_cases h with
  | create => exact .keep (fun _ => id) (fun _ => id) (List.Perm.refl _) rfl
  | taken htaken =>
    exact .keep (fun _ hr => hr.2 (hr.1 ▸ htaken)) (fun _ => id) (List.Perm.refl _) rfl
  | @enqueue jobType reference priority hfree =>
    refine .reserve (k := jobKey jobType reference) ?_ (fun _ => id) hfree ?_ rfl
    · intro key
      constructor
      · exact fun hr => hr.1.symm
      · rintro rfl
        exact ⟨rfl, hfree⟩
    · simp only [QueueState.items, List.map_append, List.map_cons, List.map_nil,
        List.append_assoc]
      exact List.perm_middle
  | @number i jobType reference rank hi =>
    have hafter := items_set_call hi ⟨jobType, reference, rank, .numbered (s.lastSeq + 1)⟩
    exact .keep (fun _ => id) (fun _ => id) (hafter.trans (items_perm_of_call hi).symm) rfl
  | @putFull i jobType reference rank seq hi hfull =>
    refine .drop (k := jobKey jobType reference) (fun _ => id) ?_ (items_perm_of_call hi)
      (items_set_call hi ⟨jobType, reference, rank, .full⟩) rfl
    intro key
    constructor
    · rintro ⟨_, call, hcall, rfl⟩
      rw [hi] at hcall
      cases hcall
      rfl
    · rintro rfl
      exact ⟨hfull, _, hi, rfl⟩
  | put hi hroom =>
    refine .keep (fun _ => id) (fun _ hd => hroom hd.1) ?_ rfl
    refine List.Perm.trans ?_ (items_perm_of_call hi).symm
    simp only [QueueState.items, List.map_append, List.map_cons, List.map_nil, List.append_assoc]
    exact (List.perm_middle.append_left _).trans List.perm_middle
  | discard hi => exact .release (fun _ => id) (fun _ => id) (items_perm_of_call hi) rfl
  | get _ hjob =>
    refine .keep (fun _ => id) (fun _ => id) (List.Perm.append_left _ ?_) rfl
    have hperm := (List.perm_cons_erase (nextJob_mem hjob)).map (fun job => (job.key, true))
    refine List.Perm.trans ?_ (hperm.append_right _).symm
    rw [List.map_append, ← List.append_assoc]
    exact List.perm_append_singleton _ _
  | @fetch i job hi =>
    refine keyMove_worker hi rfl (congrArg OutboundJob.key (job_processJob s.world job))
      (fun _ => id) ?_ rfl rfl
    intro key
    constructor
    · rintro ⟨job', hjob, rfl, hover⟩
      rw [hi] at hjob
      cases hjob
      exact ⟨rfl, hover⟩
    · rintro ⟨rfl, hover⟩
      exact ⟨job, hi, rfl, hover⟩
  | @fetchFailed i job hi =>
    refine keyMove_worker hi rfl (y := .handled job) rfl (fun _ => id) ?_ rfl rfl
    intro key
    constructor
    · rintro ⟨job', hjob, rfl⟩
      rw [hi] at hjob
      cases hjob
      exact ⟨rfl, rfl⟩
    · rintro ⟨rfl, _⟩
      exact ⟨job, hi, rfl⟩
  | @dispatch i event job d world d' hi hmicro =>
    refine keyMove_worker hi rfl (congrArg OutboundJob.key (job_dispatched job d'))
      (fun _ => id) ?_ rfl rfl
    intro key
    rw [over_dispatched, decide_eq_true_eq]
    constructor
    · rintro ⟨job', e, w, e', hjob, rfl, he, hended⟩
      rw [hi] at hjob
      cases hjob
      rw [hmicro] at he
      cases he
      exact ⟨rfl, hended⟩
    · rintro ⟨rfl, hended⟩
      exact ⟨job, d, world, d', hi, rfl, hmicro, hended⟩
  | release hi => exact .release (fun _ => id) (fun _ => id) (items_perm_of_worker hi) rfl

/-- Every step keeps the discipline of the keys. -/
theorem custody_queueStep {cfg : QueueSettings} {s t : QueueState} {a : QueueAction}
    (hs : Custody s.held s.inFlight) (h : queueStep cfg s a = some t) :
    Custody t.held t.inFlight := by
  rw [← map_fst_items] at hs ⊢
  cases queueStep_moves h with
  | keep _ _ hitems hflight =>
    rw [hflight]
    exact hs.perm (hitems.symm.map Prod.fst)
  | reserve _ _ hfree hitems hflight =>
    rw [hflight]
    exact (hs.reserve hfree).perm (hitems.symm.map Prod.fst)
  | drop _ _ hbefore hitems hflight =>
    rw [hflight]
    exact (hs.perm (hbefore.map Prod.fst)).perm (hitems.symm.map Prod.fst)
  | release _ _ hitems hflight =>
    rw [hflight]
    exact (hs.perm (hitems.map Prod.fst)).release

theorem held_of_drops {cfg : QueueSettings} {s t : QueueState} {a : QueueAction}
    (h : queueStep cfg s a = some t) {key : Str} (hd : Drops cfg s a key) : key ∈ s.held := by
  cases queueStep_moves h with
  | keep _ hdrop _ _ | reserve _ hdrop _ _ _ | release _ hdrop _ _ => exact absurd hd (hdrop key)
  | drop _ hdrop hbefore _ _ =>
    rw [← map_fst_items, (hdrop key).mp hd]
    exact List.mem_map.mpr ⟨_, hbefore.mem_iff.mpr List.mem_cons_self, rfl⟩

/-- A job is on its way until a step drops it. -/
theorem mem_items_queueStep {cfg : QueueSettings} {s t : QueueState} {a : QueueAction}
    (hs : Custody s.held s.inFlight) (h : queueStep cfg s a = some t) {key : Str} :
    (key, true) ∈ t.items ↔ ((key, true) ∈ s.items ∧ ¬ Drops cfg s a key) ∨ Reserves s a key := by
  rw [← map_fst_items] at hs
  cases queueStep_moves h with
  | keep hnew hdrop hitems hflight =>
    rw [hitems.mem_iff]
    simp [hnew, hdrop]
  | reserve hnew hdrop hfree hitems hflight =>
    rw [hitems.mem_iff, hnew, List.mem_cons]
    simp [hdrop, or_comm]
  | @drop k rest hnew hdrop hbefore hitems hflight =>
    -- no other item has the key
    have hrest : ∀ b, (k, b) ∉ rest := by
      intro b hb
      have hnodup := (hs.perm (hbefore.map Prod.fst)).nodup
      exact (List.nodup_cons.mp hnodup).1 (List.mem_map.mpr ⟨(k, b), hb, rfl⟩)
    rw [hitems.mem_iff, hbefore.mem_iff, hdrop]
    simp only [List.mem_cons, Prod.mk.injEq, hnew, or_false, and_true, Bool.true_eq_false, and_false,
      false_or]
    constructor
    · intro hmem
      refine ⟨Or.inr hmem, ?_⟩
      intro heq
      exact hrest true (heq ▸ hmem)
    · exact fun hmem => hmem.1.resolve_left hmem.2
  | release hnew hdrop hitems hflight =>
    rw [hitems.mem_iff]
    simp [hnew, hdrop]

/-! ## References -/

/-- The key of the job for the row `pk`. -/
def outboundKey (pk : Nat) : Str := jobKey "outbound".toList (Text.ofNat pk)

/-- The colon splits the key of a row in one way only. -/
theorem jobKey_eq_outboundKey {jobType reference : Str} {pk : Nat}
    (h : jobKey jobType reference = outboundKey pk) :
    jobType = "outbound".toList ∧ reference = Text.ofNat pk := by
  have hdigits : ':' ∉ Text.ofNat pk := by
    intro hmem
    have hdigit := Nat.isDigit_of_mem_toDigits (by decide) (by decide) hmem
    exact absurd hdigit (by decide)
  have hsplit : jobType ++ ':' :: reference = "outbound".toList ++ ':' :: Text.ofNat pk := by
    simpa [jobKey, outboundKey] using h
  rcases List.append_eq_append_iff.mp hsplit with ⟨rest, hl, hr⟩ | ⟨rest, hl, hr⟩
  · cases rest with
    | nil =>
      rw [List.append_nil] at hl
      rw [List.nil_append, List.cons.injEq] at hr
      exact ⟨hl.symm, hr.2⟩
    | cons c rest =>
      rw [List.cons_append, List.cons.injEq] at hr
      have hcolon : ':' ∈ "outbound".toList := by
        rw [hl, hr.1]
        simp
      exact absurd hcolon (by decide)
  · cases rest with
    | nil =>
      rw [List.append_nil] at hl
      rw [List.nil_append, List.cons.injEq] at hr
      exact ⟨hl, hr.2.symm⟩
    | cons c rest =>
      rw [List.cons_append, List.cons.injEq] at hr
      refine absurd ?_ hdigits
      rw [hr.2]
      simp

theorem outboundKey_injective {p q : Nat} (h : outboundKey p = outboundKey q) : p = q :=
  Text.ofNat_injective (jobKey_eq_outboundKey h).2

/-- The callers enqueue rows, under `str(pk)`. -/
def EnqueuesRow (_ : QueueState) : QueueAction → Prop
  | .enqueue jobType reference _ => ∃ pk, jobType = "outbound".toList ∧ reference = Text.ofNat pk
  | _ => True

instance (s : QueueState) (a : QueueAction) : Decidable (EnqueuesRow s a) :=
  match a with
  | .enqueue jobType reference _ =>
    decidable_of_iff (jobType = "outbound".toList ∧
        (Text.toNat? reference).map Text.ofNat = some reference) (by
      constructor
      · intro h
        obtain ⟨pk, _, hpk⟩ := Option.map_eq_some_iff.mp h.2
        exact ⟨pk, h.1, hpk.symm⟩
      · intro h
        obtain ⟨pk, hjob, href⟩ := h
        rw [href, Text.toNat?_ofNat]
        exact ⟨hjob, rfl⟩)
  | .create _ _ _ _ | .number _ | .put _ | .discard _ | .get | .fetch _ | .fetchFailed _
  | .dispatch _ _ | .release _ => isTrue trivial

/-- All keys that are reserved are keys of rows. -/
def RowKeys (s : QueueState) : Prop := ∀ key ∈ s.inFlight, ∃ pk, key = outboundKey pk

theorem outboundKey_of_reserves {s : QueueState} {a : QueueAction} {key : Str}
    (ha : EnqueuesRow s a) (hr : Reserves s a key) : ∃ pk, key = outboundKey pk := by
  cases a with
  | enqueue jobType reference priority =>
    obtain ⟨pk, rfl, rfl⟩ := ha
    exact ⟨pk, hr.1.symm⟩
  | create _ _ _ _ | number _ | put _ | discard _ | get | fetch _ | fetchFailed _ | dispatch _ _
  | release _ => exact absurd hr id

theorem rowKeys_queueStep {cfg : QueueSettings} {s t : QueueState} {a : QueueAction}
    (hs : RowKeys s) (ha : EnqueuesRow s a) (h : queueStep cfg s a = some t) : RowKeys t := by
  cases queueStep_moves h with
  | keep _ _ _ hflight | drop _ _ _ _ hflight =>
    intro key hkey
    exact hs key (hflight ▸ hkey)
  | @reserve k hnew _ _ _ hflight =>
    intro key hkey
    rw [hflight] at hkey
    rcases Finset.mem_insert.mp hkey with rfl | hkey
    · exact outboundKey_of_reserves ha ((hnew key).mpr rfl)
    · exact hs key hkey
  | release _ _ _ hflight =>
    intro key hkey
    rw [hflight] at hkey
    exact hs key (Finset.mem_of_mem_erase hkey)

/-! ## The dispatches -/

/-- A dispatch has the key of its row, which it mirrors, and the rows whose dispatch has called
    `send_sms` are not CREATED. -/
structure Dispatches (s : QueueState) : Prop where
  own : ∀ job d, .dispatching job d ∈ s.handling →
    job.key = outboundKey d.outbound.pk ∧ Mirrors s.world d ∧ d.StateFits
  sentOnce : s.sendLog.Nodup
  left : ∀ pk ∈ s.sendLog, LeftCreated s.world pk

theorem processJob_dispatching {w : World} {job job' : OutboundJob} {d : Dispatch}
    (h : processJob w job = .dispatching job' d) :
    job' = job ∧ ∃ outbound ∈ w.outbound.rows, Text.toNat? job.reference = some outbound.pk ∧
      outbound.state = .created ∧ d = ⟨outbound, .resolving⟩ := by
  unfold processJob at h
  split at h
  · split at h
    · cases h
    · next outbound hfound =>
      obtain ⟨pk, hpk, hget⟩ := Option.bind_eq_some_iff.mp hfound
      obtain ⟨hmem, hrow⟩ := Table.get?_eq_some.mp hget
      split at h
      · next hstate =>
        cases h
        refine ⟨rfl, outbound, hmem, ?_, hstate, rfl⟩
        rw [hpk, ← hrow]
        rfl
      · cases h
  · cases h

theorem dispatched_dispatching {job job' : OutboundJob} {d d' : Dispatch}
    (h : dispatched job d = .dispatching job' d') : job' = job ∧ d' = d := by
  unfold dispatched at h
  split at h
  · cases h
  · cases h
    exact ⟨rfl, rfl⟩

/-- No two workers have the same key. -/
theorem worker_unique {s : QueueState} (hs : Custody s.held s.inFlight) {i j : Nat}
    {x y : Handling} (hi : s.handling[i]? = some x) (hj : s.handling[j]? = some y)
    (hkey : x.key = y.key) : i = j := by
  have hnodup : (s.handling.map Handling.key).Nodup :=
    (hs.nodup.sublist (List.sublist_append_right _ _)).sublist (List.sublist_append_right _ _)
  have hlt : i < (s.handling.map Handling.key).length := by
    rw [List.length_map]
    exact (List.getElem?_eq_some_iff.mp hi).1
  refine (List.getElem?_inj hlt hnodup).mp ?_
  rw [List.getElem?_map, List.getElem?_map, hi, hj, Option.map_some, Option.map_some, hkey]

/-- The jobs and rows of the dispatches of the workers. -/
def Owns (w : World) (handling : List Handling) : Prop :=
  ∀ job d, .dispatching job d ∈ handling →
    job.key = outboundKey d.outbound.pk ∧ Mirrors w d ∧ d.StateFits

/-- One worker changes its job, and the others keep theirs. -/
theorem owns_set {w : World} {handling : List Handling} (h : Owns w handling) {i : Nat}
    {x : Handling} (hx : ∀ job d, x = .dispatching job d →
      job.key = outboundKey d.outbound.pk ∧ Mirrors w d ∧ d.StateFits) :
    Owns w (handling.set i x) := by
  intro job d hd
  rcases List.mem_or_eq_of_mem_set hd with hd | hd
  · exact h job d hd
  · exact hx job d hd.symm

theorem dispatches_create {s : QueueState} (hs : Dispatches s) (modemIndex : Nat)
    (toNumber text : Str) (now : Nat) :
    Dispatches { s with world := createOutbound s.world modemIndex toNumber text now } := by
  have hkeep : ∀ r ∈ s.world.outbound.rows,
      r ∈ (createOutbound s.world modemIndex toNumber text now).outbound.rows :=
    fun r hr => List.mem_append_left _ hr
  refine ⟨?_, hs.sentOnce, ?_⟩
  · intro job d hd
    obtain ⟨hkey, ⟨r, hr, hsame⟩, hfits⟩ := hs.own job d hd
    exact ⟨hkey, ⟨r, hkeep r hr, hsame⟩, hfits⟩
  · intro pk hpk
    obtain ⟨r, hr, hleft⟩ := hs.left pk hpk
    exact ⟨r, hkeep r hr, hleft⟩

/-- The dispatch of a job that has just been read is that of its row. -/
theorem owns_processJob {s : QueueState} (hkeys : RowKeys s)
    (hcustody : Custody s.held s.inFlight) {i : Nat} {job job' : OutboundJob} {d : Dispatch}
    (hi : s.handling[i]? = some (.taken job)) (h : processJob s.world job = .dispatching job' d) :
    job'.key = outboundKey d.outbound.pk ∧ Mirrors s.world d ∧ d.StateFits := by
  obtain ⟨rfl, outbound, hmem, href, hstate, rfl⟩ := processJob_dispatching h
  -- the key is reserved, so the reference is that of a row
  have hheld : job'.key ∈ s.held := by
    refine List.mem_append_right _ (List.mem_append_right _ ?_)
    exact List.mem_map_of_mem (f := Handling.key) (List.mem_of_getElem? hi)
  obtain ⟨pk, hpk⟩ := hkeys _ ((hcustody.mem_iff _).mpr hheld)
  rw [(jobKey_eq_outboundKey hpk).2, Text.toNat?_ofNat, Option.some.injEq] at href
  rw [hpk, href]
  exact ⟨rfl, ⟨outbound, hmem, rfl, rfl, rfl⟩, hstate⟩

section DispatchStep
variable {s : QueueState} {i : Nat} {job : OutboundJob} {d d' : Dispatch} {world : World}
  {event : DispatchEvent}

/-- The other workers dispatch other rows. -/
theorem owns_dispatchMicro (hs : Dispatches s) (hcustody : Custody s.held s.inFlight)
    (hi : s.handling[i]? = some (.dispatching job d))
    (hmicro : dispatchMicro s.world d event = some (world, d')) :
    Owns world (s.handling.set i (dispatched job d')) := by
  obtain ⟨hkey, hmirrors, hfits⟩ := hs.own job d (List.mem_of_getElem? hi)
  intro job' e he
  obtain ⟨j, hj⟩ := List.mem_iff_getElem?.mp he
  rw [List.getElem?_set] at hj
  split at hj
  · split at hj
    · obtain ⟨rfl, rfl⟩ := dispatched_dispatching (Option.some.inj hj)
      refine ⟨?_, dispatchMicro_mirrors hmirrors hmicro,
        (dispatchMicro_progress hfits hmicro).stateFits⟩
      rw [hkey, dispatchMicro_pk hmicro]
    · cases hj
  · next hij =>
    obtain ⟨hkey', hother, hfits'⟩ := hs.own job' e (List.mem_of_getElem? hj)
    refine ⟨hkey', mirrors_of_ne hmicro ?_ hother, hfits'⟩
    intro hpk
    refine hij (worker_unique hcustody hi hj ?_)
    exact (hkey.trans (congrArg outboundKey hpk.symm)).trans hkey'.symm

/-- The row whose dispatch calls `send_sms` was CREATED, so no dispatch of it has called it. -/
theorem notMem_sendLog (hs : Dispatches s) (hi : s.handling[i]? = some (.dispatching job d))
    (hmicro : dispatchMicro s.world d event = some (world, d'))
    (hreach : event.reachesSend = true) : d.outbound.pk ∉ s.sendLog := by
  obtain ⟨_, hmirrors, hfits⟩ := hs.own job d (List.mem_of_getElem? hi)
  obtain ⟨hcreated, _⟩ := (dispatchMicro_progress hfits hmicro).send hreach
  intro hpk
  obtain ⟨r, hr, hrpk, hstate⟩ := hs.left _ hpk
  rw [state_of_mirrors hmirrors hr hrpk] at hstate
  exact hstate hcreated

/-- And it is not CREATED afterwards. -/
theorem leftCreated_of_reachesSend (hs : Dispatches s)
    (hi : s.handling[i]? = some (.dispatching job d))
    (hmicro : dispatchMicro s.world d event = some (world, d'))
    (hreach : event.reachesSend = true) : LeftCreated world d.outbound.pk := by
  obtain ⟨_, hmirrors, hfits⟩ := hs.own job d (List.mem_of_getElem? hi)
  obtain ⟨r, hr, hrpk, _, hstate⟩ := dispatchMicro_mirrors hmirrors hmicro
  refine ⟨r, hr, hrpk.trans (dispatchMicro_pk hmicro), ?_⟩
  rw [hstate]
  exact ((dispatchMicro_progress hfits hmicro).send hreach).2

theorem dispatches_dispatchMicro (hs : Dispatches s) (hcustody : Custody s.held s.inFlight)
    (hi : s.handling[i]? = some (.dispatching job d))
    (hmicro : dispatchMicro s.world d event = some (world, d')) :
    Dispatches { s with
      world
      handling := s.handling.set i (dispatched job d')
      sendLog := if event.reachesSend then s.sendLog ++ [d.outbound.pk] else s.sendLog } := by
  obtain ⟨_, hmirrors, hfits⟩ := hs.own job d (List.mem_of_getElem? hi)
  have hleft : ∀ pk ∈ s.sendLog, LeftCreated world pk :=
    fun pk hpk => leftCreated_dispatchMicro hmirrors hfits hmicro (hs.left pk hpk)
  refine ⟨owns_dispatchMicro hs hcustody hi hmicro, ?_, ?_⟩
  · show List.Nodup (if event.reachesSend then _ else _)
    split
    · next hreach =>
      refine hs.sentOnce.append (List.nodup_singleton _) ?_
      exact List.disjoint_singleton.mpr (notMem_sendLog hs hi hmicro hreach)
    · exact hs.sentOnce
  · intro pk hpk
    have hpk : pk ∈ (if event.reachesSend then s.sendLog ++ [d.outbound.pk] else s.sendLog) := hpk
    split at hpk
    · next hreach =>
      rcases List.mem_append.mp hpk with hpk | hpk
      · exact hleft pk hpk
      · rw [List.mem_singleton.mp hpk]
        exact leftCreated_of_reachesSend hs hi hmicro hreach
    · exact hleft pk hpk

end DispatchStep

theorem dispatches_queueStep {cfg : QueueSettings} {s t : QueueState} {a : QueueAction}
    (hs : Dispatches s) (hkeys : RowKeys s) (hcustody : Custody s.held s.inFlight)
    (h : queueStep cfg s a = some t) : Dispatches t := by
  cases queueStep_cases h with
  | create => exact dispatches_create hs _ _ _ _
  | taken | enqueue | number | putFull | put | discard => exact ⟨hs.own, hs.sentOnce, hs.left⟩
  | get =>
    refine ⟨?_, hs.sentOnce, hs.left⟩
    intro job d hd
    rcases List.mem_append.mp hd with hd | hd
    · exact hs.own job d hd
    · cases List.mem_singleton.mp hd
  | fetch hi =>
    refine ⟨owns_set hs.own ?_, hs.sentOnce, hs.left⟩
    exact fun job d hd => owns_processJob hkeys hcustody hi hd
  | fetchFailed =>
    refine ⟨owns_set hs.own ?_, hs.sentOnce, hs.left⟩
    intro job d hd
    cases hd
  | dispatch hi hmicro => exact dispatches_dispatchMicro hs hcustody hi hmicro
  | release =>
    exact ⟨fun job d hd => hs.own job d (List.mem_of_mem_eraseIdx hd), hs.sentOnce, hs.left⟩

/-! ## Runs -/

structure QueueInv (s : QueueState) : Prop where
  custody : Custody s.held s.inFlight
  rowKeys : RowKeys s
  dispatches : Dispatches s

theorem queueInv_start (world : World) : QueueInv (QueueState.start world) := by
  refine ⟨Custody.empty, ?_, ⟨?_, List.nodup_nil, ?_⟩⟩
  · exact fun key hkey => absurd hkey (Finset.notMem_empty key)
  · exact fun job d hd => absurd hd List.not_mem_nil
  · exact fun pk hpk => absurd hpk List.not_mem_nil

theorem queueInv_queueStep {cfg : QueueSettings} {s t : QueueState} {a : QueueAction}
    (hs : QueueInv s) (ha : EnqueuesRow s a) (h : queueStep cfg s a = some t) : QueueInv t :=
  ⟨custody_queueStep hs.custody h, rowKeys_queueStep hs.rowKeys ha h,
    dispatches_queueStep hs.dispatches hs.rowKeys hs.custody h⟩

/-- In every state of a run of a queue: exactly one job has a key that is in `_in_flight`, and
    none has another; two workers never dispatch the same row; and of all dispatches of a row
    at most one has called `send_sms`. -/
theorem one_dispatch_sends (cfg : QueueSettings) (world : World) {t : QueueState}
    {actions : List QueueAction} (hrows : Meets (queueStep cfg) EnqueuesRow (.start world) actions)
    (h : exec (queueStep cfg) (.start world) actions = some t) :
    (∀ key, t.held.count key = if key ∈ t.inFlight then 1 else 0) ∧
    (∀ (i j : Nat) job job' d e, t.handling[i]? = some (Handling.dispatching job d) →
      t.handling[j]? = some (Handling.dispatching job' e) → d.outbound.pk = e.outbound.pk → i = j) ∧
    ∀ pk, t.sendLog.count pk ≤ 1 := by
  have hinv : QueueInv t := by
    refine Reaches.invariant (I := QueueInv) ?_ ⟨actions, hrows, h⟩ (queueInv_start world)
    exact fun s a t hs ha hstep => queueInv_queueStep hs ha hstep
  refine ⟨hinv.custody.count, ?_, List.nodup_iff_count_le_one.mp hinv.dispatches.sentOnce⟩
  intro i j job job' d e hi hj hpk
  refine worker_unique hinv.custody hi hj ?_
  obtain ⟨hd, _⟩ := hinv.dispatches.own job d (List.mem_of_getElem? hi)
  obtain ⟨he, _⟩ := hinv.dispatches.own job' e (List.mem_of_getElem? hj)
  exact (hd.trans (congrArg outboundKey hpk)).trans he.symm

/-! ## The rows -/

/-- A step creates a row, leaves the rows alone, or is a step of a dispatch. -/
theorem queueStep_world {cfg : QueueSettings} {s t : QueueState} {a : QueueAction}
    (h : queueStep cfg s a = some t) :
    (∃ modemIndex toNumber text now, a = .create modemIndex toNumber text now ∧
      t.world = createOutbound s.world modemIndex toNumber text now) ∨
    t.world = s.world ∨
    ∃ i event job d d', a = .dispatch i event ∧ s.handling[i]? = some (.dispatching job d) ∧
      dispatchMicro s.world d event = some (t.world, d') := by
  cases queueStep_cases h with
  | create => exact Or.inl ⟨_, _, _, _, rfl, rfl⟩
  | taken | enqueue | number | putFull | put | discard | get | fetch | fetchFailed | release =>
    exact Or.inr (Or.inl rfl)
  | dispatch hi hmicro => exact Or.inr (Or.inr ⟨_, _, _, _, _, rfl, hi, hmicro⟩)

/-- A row that is CREATED was so before, or is new. -/
theorem createdRow_queueStep {cfg : QueueSettings} {s t : QueueState} {a : QueueAction}
    (hs : Dispatches s) (h : queueStep cfg s a = some t) {pk : Nat}
    (hpk : pk < s.world.outbound.nextPk) (hc : CreatedRow t.world pk) : CreatedRow s.world pk := by
  rcases queueStep_world h with ⟨_, _, _, _, _, hw⟩ | hw | ⟨i, event, job, d, d', _, hi, hmicro⟩
  · obtain ⟨r, hr, hrpk, hstate⟩ := hc
    rw [hw] at hr
    rcases List.mem_append.mp hr with hr | hr
    · exact ⟨r, hr, hrpk, hstate⟩
    · rw [List.mem_singleton.mp hr] at hrpk
      exact absurd hrpk (Nat.ne_of_gt hpk)
  · rw [← hw]
    exact hc
  · obtain ⟨_, hmirrors, hfits⟩ := hs.own job d (List.mem_of_getElem? hi)
    exact createdRow_dispatchMicro hmirrors hfits hmicro hc

/-- A row that is CREATED stays so if no job for it is on its way. -/
theorem createdRow_stays {cfg : QueueSettings} {s t : QueueState} {a : QueueAction}
    (hs : Dispatches s) (h : queueStep cfg s a = some t) {pk : Nat} (hc : CreatedRow s.world pk)
    (hidle : (outboundKey pk, true) ∉ s.items) : CreatedRow t.world pk := by
  rcases queueStep_world h with ⟨_, _, _, _, _, hw⟩ | hw | ⟨i, event, job, d, d', _, hi, hmicro⟩
  · obtain ⟨r, hr, hsame⟩ := hc
    rw [hw]
    exact ⟨r, List.mem_append_left _ hr, hsame⟩
  · rw [hw]
    exact hc
  · refine (createdRow_of_ne hmicro ?_).mpr hc
    rintro rfl
    have hmem := List.mem_of_getElem? hi
    refine hidle (List.mem_append_right _ (List.mem_append_right _ ?_))
    rw [← (hs.own job d hmem).1]
    exact List.mem_map.mpr ⟨_, hmem, rfl⟩

/-- A job whose row is CREATED is dispatched when the row can be read. -/
theorem processJob_createdRow {w : World} {job : OutboundJob} {pk : Nat}
    (hkey : job.key = outboundKey pk) (hc : CreatedRow w pk) : (processJob w job).over = false := by
  obtain ⟨r, hr, hrpk, hstate⟩ := hc
  obtain ⟨hjob, href⟩ := jobKey_eq_outboundKey hkey
  have hget : w.outbound.get? pk = some r := Table.get?_eq_some.mpr ⟨hr, hrpk⟩
  unfold processJob
  rw [if_pos hjob, href, Text.toNat?_ofNat, Option.bind_some, hget]
  simp only [hstate, if_true]
  rfl

/-! ## A message that is enqueued again -/

/-- An `enqueue` of the first row, and a worker up to the object it makes. -/
def enqueueAndMake : List QueueAction :=
  [.enqueue "outbound".toList "1".toList "high".toList, .number 0, .put 0, .get, .fetch 0,
    .dispatch 0 (.resolved 0), .dispatch 0 .prepared,
    .dispatch 0 (.made "/org/freedesktop/ModemManager1/SMS/4".toList)]

/-- The first dispatch ends before it has saved the path; a second `enqueue` meanwhile has no
    effect, a third one leads to the dispatch that sends. -/
def enqueuedThrice : List QueueAction :=
  [.create 0 "+351912345678".toList "hello".toList 5] ++ enqueueAndMake ++
    [.enqueue "outbound".toList "1".toList [], .dispatch 0 .otherError, .release 0] ++
    enqueueAndMake ++ [.dispatch 0 .savePath, .dispatch 0 .otherError, .release 0]

theorem one_dispatch_sends_enqueued_thrice :
    ∃ t, exec (queueStep ⟨1, 1⟩) (.start emptyWorld) enqueuedThrice = some t ∧
      t.sendLog = [1] ∧ ∀ pk, t.sendLog.count pk ≤ 1 := by
  have hrun : (execIf (queueStep ⟨1, 1⟩) EnqueuesRow (.start emptyWorld) enqueuedThrice).map
      QueueState.sendLog = some [1] := by decide
  obtain ⟨t, ht, hlog⟩ := Option.map_eq_some_iff.mp hrun
  have h := one_dispatch_sends ⟨1, 1⟩ emptyWorld (meets_of_execIf ht) (exec_of_execIf ht)
  exact ⟨t, exec_of_execIf ht, hlog, h.2.2⟩

end HiWaveTel
