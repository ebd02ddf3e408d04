import HiWaveTel.PersistSteps

/- The intake of inbound messages: D-Bus `Added` callbacks and snapshot runs
   (`dbus_watch.py`) put paths into the persist queue (`queue_processor.py`), workers
   take them out and persist them, and what fails goes to the dead-letter queue, whose
   batches persist it again. Any number of each run at the same time; every statement on
   a database and every operation on the queue is a step of its own, and a persist may
   raise between any two of its statements.

   `no_silent_loss` — in every reachable state, a path whose handler has returned is in
   the queue, in the hands of a worker, in the InboundSms table or in the DLQ. The
   invariant behind it: a path leaves a place only when the next one has it, and the
   entry a batch is about to delete is still the one it read. -/
namespace HiWaveTel
open Foundation

/-! ## The processes -/

/-- A D-Bus callback or a snapshot run: the paths it has put somewhere, and those to come. -/
inductive HandlerPhase where
  | idle
  | enqueuing (isSignal : Bool) (done todo : List SmsJob)
  | rejected (isSignal : Bool) (done : List SmsJob) (job : SmsJob) (todo : List SmsJob) (error : Str)

/-- A worker of the persist queue. -/
inductive IntakeWorker where
  | idle
  | persisting (job : SmsJob) (stage : PersistStage)
  | failed (job : SmsJob) (error : Str)

/-- A `process_batch` run. -/
inductive BatchPhase where
  | idle
  | ready (todo : List DlqItem)
  | persisting (item : DlqItem) (todo : List DlqItem) (stage : PersistStage)
  | recovered (item : DlqItem) (todo : List DlqItem)
  | failed (item : DlqItem) (todo : List DlqItem) (error : Str)

structure IntakeState (η ω β : Type) where
  world : World
  queue : List SmsJob
  handler : η → HandlerPhase
  worker : ω → IntakeWorker
  batch : β → BatchPhase
  returned : List Str          -- paths whose handler has returned

inductive IntakeAction (η ω β : Type) where
  | signal (h : η) (job : SmsJob)
  | snapshot (h : η) (jobs : List SmsJob)
  | enqueue (h : η)
  | enqueueRaises (h : η) (error : Str)
  | rejectedToDlq (h : η) (now : Nat)
  | finish (h : η)
  | get (w : ω)
  | workerStep (w : ω) (event : PersistEvent)
  | failedToDlq (w : ω) (now : Nat)
  | dequeue (b : β) (now limit : Nat)
  | next (b : β)
  | batchStep (b : β) (event : PersistEvent)
  | recover (b : β)
  | retryFailed (b : β) (now : Nat)

/-- `queue.Queue(maxsize)` with this many jobs is full; no limit for `maxsize <= 0`. -/
def queueFull (maxsize : Int) (length : Nat) : Bool := decide (0 < maxsize ∧ maxsize ≤ length)

/-- `enqueue_persist_failure`. -/
def enqueuePersistFailure (cfg : DlqSettings) (w : World) (job : SmsJob) (error : Str) (now : Nat) :
    World :=
  { w with dlq := w.dlq.map (fun t => (enqueueDlq cfg t job.path job.modemIndex error now).1) }

def DlqItem.job (item : DlqItem) : SmsJob := ⟨item.smsPath, item.modemIndex⟩

def queueFullError (isSignal : Bool) : Str :=
  if isSignal then "persist queue full".toList else "persist queue full (snapshot)".toList

section Step
variable {η ω β : Type} [DecidableEq η] [DecidableEq ω] [DecidableEq β]

def IntakeState.setHandler (s : IntakeState η ω β) (h : η) (p : HandlerPhase) : IntakeState η ω β :=
  { s with handler := Function.update s.handler h p }

def IntakeState.setWorker (s : IntakeState η ω β) (w : ω) (p : IntakeWorker) : IntakeState η ω β :=
  { s with worker := Function.update s.worker w p }

def IntakeState.setBatch (s : IntakeState η ω β) (b : β) (p : BatchPhase) : IntakeState η ω β :=
  { s with batch := Function.update s.batch b p }

/-- The worker after a step of its persist. -/
def workerAfter (job : SmsJob) : PersistNext → IntakeWorker
  | .goesOn stage => .persisting job stage
  | .returned => .idle
  | .raised text => .failed job text

/-- The batch after a step of the persist of `item`. -/
def batchAfter (item : DlqItem) (todo : List DlqItem) : PersistNext → BatchPhase
  | .goesOn stage => .persisting item todo stage
  | .returned => .recovered item todo
  | .raised text => .failed item todo text

def intakeStep (cfg : DlqSettings) (maxsize : Int) (s : IntakeState η ω β) :
    IntakeAction η ω β → Option (IntakeState η ω β)
  | .signal h job =>
    match s.handler h with
    | .idle => some (s.setHandler h (.enqueuing true [] [job]))
    | _ => none
  | .snapshot h jobs =>
    match s.handler h with
    | .idle => some (s.setHandler h (.enqueuing false [] jobs))
    | _ => none
  -- `put(block=False)`; a full queue sends the job to the DLQ
  | .enqueue h =>
    match s.handler h with
    | .enqueuing isSignal done (job :: todo) =>
      if queueFull maxsize s.queue.length then
        some (s.setHandler h (.rejected isSignal done job todo (queueFullError isSignal)))
      else
        some ({ s with queue := s.queue ++ [job] }.setHandler h
          (.enqueuing isSignal (done ++ [job]) todo))
    | _ => none
  -- the callback catches any exception; the snapshot run has no such branch to the DLQ
  | .enqueueRaises h error =>
    match s.handler h with
    | .enqueuing true done (job :: todo) => some (s.setHandler h (.rejected true done job todo error))
    | _ => none
  | .rejectedToDlq h now =>
    match s.handler h with
    | .rejected isSignal done job todo error =>
      some ({ s with world := enqueuePersistFailure cfg s.world job error now }.setHandler h
        (.enqueuing isSignal (done ++ [job]) todo))
    | _ => none
  | .finish h =>
    match s.handler h with
    | .enqueuing _ done [] =>
      some ({ s with returned := s.returned ++ done.map SmsJob.path }.setHandler h .idle)
    | _ => none
  -- `_worker_loop`: the job leaves the queue and is in the hands of the worker
  | .get w =>
    match s.worker w, s.queue with
    | .idle, job :: queue => some ({ s with queue }.setWorker w (.persisting job .polling))
    | _, _ => none
  | .workerStep w event =>
    match s.worker w with
    | .persisting job stage =>
      (persistMicro s.world job stage event).map (fun (world, next) =>
        { s with world }.setWorker w (workerAfter job next))
    | _ => none
  -- the `except` of `_process_sms`
  | .failedToDlq w now =>
    match s.worker w with
    | .failed job error =>
      some ({ s with world := enqueuePersistFailure cfg s.world job error now }.setWorker w .idle)
    | _ => none
  -- the batch works on a list of its own: entries may change under it
  | .dequeue b now limit =>
    match s.batch b, s.world.dlq with
    | .idle, some t => some (s.setBatch b (.ready (dequeueBatch cfg t now limit)))
    | _, _ => none
  | .next b =>
    match s.batch b with
    | .ready (item :: todo) => some (s.setBatch b (.persisting item todo .polling))
    | .ready [] => some (s.setBatch b .idle)
    | _ => none
  | .batchStep b event =>
    match s.batch b with
    | .persisting item todo stage =>
      (persistMicro s.world item.job stage event).map (fun (world, next) =>
        { s with world }.setBatch b (batchAfter item todo next))
    | _ => none
  -- any return of the persist counts as a recovery
  | .recover b =>
    match s.batch b with
    | .recovered item todo =>
      some ({ s with world := { s.world with
          dlq := s.world.dlq.map (fun t => markRecovered t item.rowId) } }.setBatch b (.ready todo))
    | _ => none
  | .retryFailed b now =>
    match s.batch b with
    | .failed item todo error =>
      some ({ s with world := { s.world with
          dlq := s.world.dlq.map (fun t => markRetryFailed cfg t item.rowId error now) } }.setBatch b
        (.ready todo))
    | _ => none

/-- The steps that call `enqueue_persist_failure`. -/
def IntakeAction.writesDlq : IntakeAction η ω β → Bool
  | .rejectedToDlq _ _ | .failedToDlq _ _ => true
  | _ => false

/-- The DLQ is not full when a failure is to be written to it. -/
def DlqHasRoom (cfg : DlqSettings) (s : IntakeState η ω β) (a : IntakeAction η ω β) : Prop :=
  a.writesDlq = true → ∀ t ∈ s.world.dlq, t.rows.length < cfg.maxSize

instance (cfg : DlqSettings) (s : IntakeState η ω β) (a : IntakeAction η ω β) :
    Decidable (DlqHasRoom cfg s a) :=
  inferInstanceAs (Decidable (_ → ∀ t ∈ s.world.dlq, t.rows.length < cfg.maxSize))

end Step

theorem enqueuePersistFailure_keeps (cfg : DlqSettings) (w : World) (job : SmsJob) (error : Str)
    (now : Nat) : Keeps w (enqueuePersistFailure cfg w job error now) := by
  apply Keeps.of_dlq
  · exact fun t => dlqKeeps_enqueueDlq cfg t _ _ _ _
  · exact fun _ _ _ hq => Or.inl (holds_enqueueDlq_of_holds hq)

/-! ## The places of a path -/

/-- The job in the hands of a worker. -/
def IntakeWorker.job : IntakeWorker → Option SmsJob
  | .idle => none
  | .persisting job _ => some job
  | .failed job _ => some job

section Places
variable {η ω β : Type}

/-- The path is in one of the four places. -/
inductive Covered (s : IntakeState η ω β) (p : Str) : Prop where
  | queued (h : ∃ job ∈ s.queue, job.path = p)
  | held (h : ∃ w job, (s.worker w).job = some job ∧ job.path = p)
  | stored (h : HasRow s.world p)
  | deadLettered (h : ∃ t ∈ s.world.dlq, Holds p t)

/-- What every step does: it empties a place only into another. -/
structure Moves (s s' : IntakeState η ω β) : Prop where
  world : Keeps s.world s'.world
  queue : ∀ job ∈ s.queue, Covered s' job.path
  workers : ∀ w job, (s.worker w).job = some job → Covered s' job.path

theorem Moves.covered {s s' : IntakeState η ω β} (hm : Moves s s') {p : Str} (h : Covered s p) :
    Covered s' p := by
  cases h with
  | queued h =>
    obtain ⟨job, hjob, rfl⟩ := h
    exact hm.queue job hjob
  | held h =>
    obtain ⟨w, job, hjob, rfl⟩ := h
    exact hm.workers w job hjob
  | stored h => exact Covered.stored (hm.world.rows p h)
  | deadLettered h =>
    obtain ⟨t, ht, hp⟩ := h
    obtain ⟨t', ht', _, hholds⟩ := hm.world.dlq t ht
    rcases hholds p hp with hp' | hrow
    · exact Covered.deadLettered ⟨t', ht', hp'⟩
    · exact Covered.stored hrow

/-- A step that takes nothing out of the queue or out of the hands of a worker. -/
theorem Moves.of_subset {s s' : IntakeState η ω β} (hworld : Keeps s.world s'.world)
    (hqueue : s.queue ⊆ s'.queue) (hworker : s'.worker = s.worker) : Moves s s' := by
  refine ⟨hworld, ?_, ?_⟩
  · intro job hjob
    exact Covered.queued ⟨job, hqueue hjob, rfl⟩
  · intro w job hjob
    exact Covered.held ⟨w, job, hworker ▸ hjob, rfl⟩

/-- A step of one worker: its job is still in a place. -/
theorem Moves.of_worker [DecidableEq ω] {s s' : IntakeState η ω β} {w : ω} {phase : IntakeWorker}
    (hworld : Keeps s.world s'.world) (hqueue : ∀ job ∈ s.queue, Covered s' job.path)
    (hworker : s'.worker = Function.update s.worker w phase)
    (hjob : ∀ job, (s.worker w).job = some job → Covered s' job.path) : Moves s s' := by
  refine ⟨hworld, hqueue, ?_⟩
  intro v job hv
  by_cases hvw : v = w
  · exact hjob job (hvw ▸ hv)
  · refine Covered.held ⟨v, job, ?_, rfl⟩
    rw [hworker, Function.update_of_ne hvw]
    exact hv

/-! ## The invariant -/

/-- The jobs of a handler that it has put somewhere. -/
def HandlerPhase.done : HandlerPhase → List SmsJob
  | .idle => []
  | .enqueuing _ done _ => done
  | .rejected _ done _ _ _ => done

def IntakeWorker.RowSeen (w : World) : IntakeWorker → Prop
  | .persisting job stage => stage.RowSeen w job.path
  | _ => True

/-- The items a batch is about to persist or to mark. -/
def BatchPhase.items : BatchPhase → List DlqItem
  | .idle => []
  | .ready todo => todo
  | .persisting item todo _ => item :: todo
  | .recovered item todo => item :: todo
  | .failed item todo _ => item :: todo

/-- An item is recovered only when its path has a row. -/
def BatchPhase.RowSeen (w : World) : BatchPhase → Prop
  | .persisting item _ stage => stage.RowSeen w item.smsPath
  | .recovered item _ => HasRow w item.smsPath
  | _ => True

structure Intact (s : IntakeState η ω β) : Prop where
  returned : ∀ p ∈ s.returned, Covered s p
  handled : ∀ h, ∀ job ∈ (s.handler h).done, Covered s job.path
  working : ∀ w, (s.worker w).RowSeen s.world
  batching : ∀ b, (s.batch b).RowSeen s.world
  fitting : ∃ t ∈ s.world.dlq, ∀ b, ∀ item ∈ (s.batch b).items, Fits t item

theorem IntakeWorker.RowSeen.keeps {w w' : World} {phase : IntakeWorker} (h : phase.RowSeen w)
    (hk : Keeps w w') : phase.RowSeen w' := by
  cases phase with
  | idle => trivial
  | persisting job stage => exact PersistStage.RowSeen.keeps h hk
  | failed job error => trivial

theorem BatchPhase.RowSeen.keeps {w w' : World} {phase : BatchPhase} (h : phase.RowSeen w)
    (hk : Keeps w w') : phase.RowSeen w' := by
  cases phase with
  | idle => trivial
  | ready todo => trivial
  | persisting item todo stage => exact PersistStage.RowSeen.keeps h hk
  | recovered item todo => exact hk.rows _ h
  | failed item todo error => trivial

/-- What is left to show of a step that moves: the phases it changed and the paths whose
    handler has returned. -/
theorem Intact.of_moves {s s' : IntakeState η ω β} (hi : Intact s) (hm : Moves s s')
    (hreturned : ∀ p ∈ s'.returned, Covered s' p)
    (hhandler : ∀ h, s'.handler h = s.handler h ∨ ∀ job ∈ (s'.handler h).done, Covered s' job.path)
    (hworker : ∀ w, s'.worker w = s.worker w ∨ (s'.worker w).RowSeen s'.world)
    (hbatch : ∀ b, s'.batch b = s.batch b ∨ (s'.batch b).RowSeen s'.world ∧
      ∀ item ∈ (s'.batch b).items, item ∈ (s.batch b).items ∨ ∃ t ∈ s.world.dlq, item ∈ dlqItems t) :
    Intact s' := by
  obtain ⟨t, ht, hfits⟩ := hi.fitting
  obtain ⟨t', ht', hkeeps, _⟩ := hm.world.dlq t ht
  refine ⟨hreturned, ?_, ?_, ?_, t', ht', ?_⟩
  · intro h job hjob
    rcases hhandler h with hsame | hnew
    · exact hm.covered (hi.handled h job (hsame ▸ hjob))
    · exact hnew job hjob
  · intro w
    rcases hworker w with hsame | hnew
    · rw [hsame]
      exact (hi.working w).keeps hm.world
    · exact hnew
  · intro b
    rcases hbatch b with hsame | hnew
    · rw [hsame]
      exact (hi.batching b).keeps hm.world
    · exact hnew.1
  · intro b item hitem
    have hold : item ∈ (s.batch b).items ∨ ∃ t ∈ s.world.dlq, item ∈ dlqItems t := by
      rcases hbatch b with hsame | hnew
      · exact Or.inl (hsame ▸ hitem)
      · exact hnew.2 item hitem
    refine Fits.keeps ?_ hkeeps
    rcases hold with hmem | ⟨u, hu, hmem⟩
    · exact hfits b item hmem
    · cases ht.symm.trans hu
      exact fits_of_mem hmem

theorem update_phase {ι β : Type*} [DecidableEq ι] {phase : ι → β} {i : ι} {new : β}
    {P : β → Prop} (hnew : P new) (j : ι) :
    Function.update phase i new j = phase j ∨ P (Function.update phase i new j) := by
  rcases update_cases phase i new j with ⟨_, he⟩ | ⟨_, he⟩
  · rw [he]
    exact Or.inr hnew
  · exact Or.inl he

theorem Intact.handler_step [DecidableEq η] {s s' : IntakeState η ω β} {h : η}
    {phase : HandlerPhase} (hi : Intact s) (hm : Moves s s')
    (hreturned : ∀ p ∈ s'.returned, p ∈ s.returned ∨ Covered s p)
    (hhandler : s'.handler = Function.update s.handler h phase)
    (hdone : ∀ job ∈ phase.done, Covered s' job.path)
    (hworker : s'.worker = s.worker) (hbatch : s'.batch = s.batch) : Intact s' := by
  apply hi.of_moves hm
  · intro p hp
    rcases hreturned p hp with hold | hnew
    · exact hm.covered (hi.returned p hold)
    · exact hm.covered hnew
  · rw [hhandler]
    exact update_phase (P := fun ph : HandlerPhase => ∀ job ∈ ph.done, Covered s' job.path) hdone
  · exact fun w => Or.inl (congrFun hworker w)
  · exact fun b => Or.inl (congrFun hbatch b)

theorem Intact.worker_step [DecidableEq ω] {s s' : IntakeState η ω β} {w : ω}
    {phase : IntakeWorker} (hi : Intact s) (hm : Moves s s') (hreturned : s'.returned = s.returned)
    (hhandler : s'.handler = s.handler) (hworker : s'.worker = Function.update s.worker w phase)
    (hseen : phase.RowSeen s'.world) (hbatch : s'.batch = s.batch) : Intact s' := by
  apply hi.of_moves hm
  · exact fun p hp => hm.covered (hi.returned p (hreturned ▸ hp))
  · exact fun h => Or.inl (congrFun hhandler h)
  · rw [hworker]
    exact update_phase hseen
  · exact fun b => Or.inl (congrFun hbatch b)

theorem Intact.batch_step [DecidableEq β] {s s' : IntakeState η ω β} {b : β} {phase : BatchPhase}
    (hi : Intact s) (hm : Moves s s') (hreturned : s'.returned = s.returned)
    (hhandler : s'.handler = s.handler) (hworker : s'.worker = s.worker)
    (hbatch : s'.batch = Function.update s.batch b phase) (hseen : phase.RowSeen s'.world)
    (hitems : ∀ item ∈ phase.items,
      item ∈ (s.batch b).items ∨ ∃ t ∈ s.world.dlq, item ∈ dlqItems t) : Intact s' := by
  apply hi.of_moves hm
  · exact fun p hp => hm.covered (hi.returned p (hreturned ▸ hp))
  · exact fun h => Or.inl (congrFun hhandler h)
  · exact fun w => Or.inl (congrFun hworker w)
  · intro c
    rw [hbatch]
    rcases update_cases s.batch b phase c with ⟨rfl, he⟩ | ⟨_, he⟩
    · rw [he]
      exact Or.inr ⟨hseen, hitems⟩
    · exact Or.inl he

end Places

/-! ## Every step keeps the invariant -/

section Steps
variable {η ω β : Type} {cfg : DlqSettings} {s s' : IntakeState η ω β}

/-- A written failure has an entry, as the queue has room. -/
theorem covered_enqueuePersistFailure (hi : Intact s) {job : SmsJob} {error : Str} {now : Nat}
    (hroom : ∀ t ∈ s.world.dlq, t.rows.length < cfg.maxSize)
    (hworld : s'.world = enqueuePersistFailure cfg s.world job error now) :
    Covered s' job.path := by
  obtain ⟨t, ht, _⟩ := hi.fitting
  have haccepted : (enqueueDlq cfg t job.path job.modemIndex error now).2 = true := by
    unfold enqueueDlq
    rw [if_neg (Nat.not_le.mpr (hroom t ht))]
  refine Covered.deadLettered ⟨(enqueueDlq cfg t job.path job.modemIndex error now).1, ?_,
    holds_of_enqueueDlq haccepted⟩
  rw [hworld]
  exact Option.mem_map_of_mem _ ht

/-- The invariant at a process whose phase is known. -/
theorem Intact.done_covered (hi : Intact s) {h : η} {phase : HandlerPhase} (hphase : s.handler h = phase) :
    ∀ job ∈ phase.done, Covered s job.path := hphase ▸ hi.handled h

theorem Intact.worker_rowSeen (hi : Intact s) {w : ω} {phase : IntakeWorker}
    (hphase : s.worker w = phase) : phase.RowSeen s.world := hphase ▸ hi.working w

theorem Intact.batch_rowSeen (hi : Intact s) {b : β} {phase : BatchPhase}
    (hphase : s.batch b = phase) : phase.RowSeen s.world := hphase ▸ hi.batching b

section Handler
variable [DecidableEq η]

theorem intact_begin (hi : Intact s) {h : η} {isSignal : Bool} {todo : List SmsJob} :
    Intact (s.setHandler h (.enqueuing isSignal [] todo)) := by
  have hm : Moves s (s.setHandler h (.enqueuing isSignal [] todo)) :=
    Moves.of_subset (Keeps.refl _) (List.Subset.refl _) rfl
  apply hi.handler_step hm (fun p hp => Or.inl hp) rfl ?_ rfl rfl
  intro job hjob
  cases hjob

theorem intact_enqueue (hi : Intact s) {h : η} {isSignal : Bool} {done todo : List SmsJob}
    {job : SmsJob} (hphase : s.handler h = .enqueuing isSignal done (job :: todo)) :
    Intact ({ s with queue := s.queue ++ [job] }.setHandler h
      (.enqueuing isSignal (done ++ [job]) todo)) := by
  have hm : Moves s ({ s with queue := s.queue ++ [job] }.setHandler h
      (.enqueuing isSignal (done ++ [job]) todo)) :=
    Moves.of_subset (Keeps.refl _) (List.subset_append_left _ _) rfl
  apply hi.handler_step hm (fun p hp => Or.inl hp) rfl ?_ rfl rfl
  intro j hj
  rcases List.mem_append.mp hj with hold | hnew
  · exact hm.covered (hi.done_covered hphase j hold)
  · exact Covered.queued ⟨j, List.mem_append_right _ hnew, rfl⟩

theorem intact_rejected (hi : Intact s) {h : η} {isSignal : Bool} {done todo : List SmsJob}
    {job : SmsJob} {error : Str} (hphase : s.handler h = .enqueuing isSignal done (job :: todo)) :
    Intact (s.setHandler h (.rejected isSignal done job todo error)) := by
  have hm : Moves s (s.setHandler h (.rejected isSignal done job todo error)) :=
    Moves.of_subset (Keeps.refl _) (List.Subset.refl _) rfl
  apply hi.handler_step hm (fun p hp => Or.inl hp) rfl ?_ rfl rfl
  intro j hj
  exact hm.covered (hi.done_covered hphase j hj)

theorem intact_rejectedToDlq (hi : Intact s) {h : η} {isSignal : Bool} {done todo : List SmsJob}
    {job : SmsJob} {error : Str} {now : Nat}
    (hphase : s.handler h = .rejected isSignal done job todo error)
    (hroom : ∀ t ∈ s.world.dlq, t.rows.length < cfg.maxSize) :
    Intact ({ s with world := enqueuePersistFailure cfg s.world job error now }.setHandler h
      (.enqueuing isSignal (done ++ [job]) todo)) := by
  have hm : Moves s ({ s with world := enqueuePersistFailure cfg s.world job error now }.setHandler h
      (.enqueuing isSignal (done ++ [job]) todo)) :=
    Moves.of_subset (enqueuePersistFailure_keeps cfg s.world job error now) (List.Subset.refl _) rfl
  apply hi.handler_step hm (fun p hp => Or.inl hp) rfl ?_ rfl rfl
  intro j hj
  rcases List.mem_append.mp hj with hold | hnew
  · exact hm.covered (hi.done_covered hphase j hold)
  · rw [List.mem_singleton.mp hnew]
    exact covered_enqueuePersistFailure hi hroom rfl

/-- The handler returns: what it has put somewhere is all it was given. -/
theorem intact_finish (hi : Intact s) {h : η} {isSignal : Bool} {done : List SmsJob}
    (hphase : s.handler h = .enqueuing isSignal done []) :
    Intact ({ s with returned := s.returned ++ done.map SmsJob.path }.setHandler h .idle) := by
  have hm : Moves s
      ({ s with returned := s.returned ++ done.map SmsJob.path }.setHandler h .idle) :=
    Moves.of_subset (Keeps.refl _) (List.Subset.refl _) rfl
  apply hi.handler_step hm ?_ rfl ?_ rfl rfl
  · intro p hp
    rcases List.mem_append.mp hp with hold | hnew
    · exact Or.inl hold
    · obtain ⟨job, hjob, rfl⟩ := List.mem_map.mp hnew
      exact Or.inr (hi.done_covered hphase job hjob)
  · intro job hjob
    cases hjob

end Handler

section Worker
variable [DecidableEq ω]

theorem covered_setWorker {w : ω} {phase : IntakeWorker} {job : SmsJob} (h : phase.job = some job) :
    Covered (s.setWorker w phase) job.path := by
  refine Covered.held ⟨w, job, ?_, rfl⟩
  show (Function.update s.worker w phase w).job = some job
  rw [Function.update_self]
  exact h

theorem intact_get (hi : Intact s) {w : ω} {job : SmsJob} {queue : List SmsJob}
    (hidle : s.worker w = .idle) (hqueue : s.queue = job :: queue) :
    Intact ({ s with queue }.setWorker w (.persisting job .polling)) := by
  have hm : Moves s ({ s with queue }.setWorker w (.persisting job .polling)) := by
    refine Moves.of_worker (w := w) (Keeps.refl _) ?_ rfl ?_
    · -- the head is now in the hands of the worker
      intro j hj
      rw [hqueue] at hj
      rcases List.mem_cons.mp hj with rfl | hrest
      · exact covered_setWorker rfl
      · exact Covered.queued ⟨j, hrest, rfl⟩
    · intro j hj
      rw [hidle] at hj
      cases hj
  exact hi.worker_step hm rfl rfl rfl trivial rfl

theorem workerAfter_rowSeen {w : World} {job : SmsJob} {next : PersistNext}
    (h : next.RowSeen w job.path) : (workerAfter job next).RowSeen w := by
  cases next with
  | goesOn stage => exact h
  | returned => trivial
  | raised text => trivial

theorem intact_workerStep (hi : Intact s) {w : ω} {job : SmsJob} {stage : PersistStage}
    {event : PersistEvent} {world : World} {next : PersistNext}
    (hphase : s.worker w = .persisting job stage)
    (h : persistMicro s.world job stage event = some (world, next)) :
    Intact ({ s with world }.setWorker w (workerAfter job next)) := by
  have hseen : stage.RowSeen s.world job.path := hi.worker_rowSeen hphase
  obtain ⟨hkeeps, hnext⟩ := persistMicro_keeps hseen h
  have hm : Moves s ({ s with world }.setWorker w (workerAfter job next)) := by
    refine Moves.of_worker (w := w) hkeeps (fun j hj => Covered.queued ⟨j, hj, rfl⟩) rfl ?_
    -- the worker keeps its job until the call has returned
    intro j hj
    rw [hphase] at hj
    cases hj
    cases next with
    | goesOn stage' => exact covered_setWorker rfl
    | returned => exact Covered.stored hnext
    | raised text => exact covered_setWorker rfl
  exact hi.worker_step hm rfl rfl rfl (workerAfter_rowSeen hnext) rfl

theorem intact_failedToDlq (hi : Intact s) {w : ω} {job : SmsJob} {error : Str} {now : Nat}
    (hphase : s.worker w = .failed job error)
    (hroom : ∀ t ∈ s.world.dlq, t.rows.length < cfg.maxSize) :
    Intact ({ s with world := enqueuePersistFailure cfg s.world job error now }.setWorker w
      .idle) := by
  have hm : Moves s ({ s with world := enqueuePersistFailure cfg s.world job error now }.setWorker w
      .idle) := by
    refine Moves.of_worker (w := w) (enqueuePersistFailure_keeps cfg s.world job error now)
      (fun j hj => Covered.queued ⟨j, hj, rfl⟩) rfl ?_
    intro j hj
    rw [hphase] at hj
    cases hj
    exact covered_enqueuePersistFailure hi hroom rfl
  exact hi.worker_step hm rfl rfl rfl trivial rfl

end Worker

section Batch
variable [DecidableEq β]

theorem intact_dequeue (hi : Intact s) {b : β} {t : DlqTable} {now limit : Nat}
    (ht : s.world.dlq = some t) :
    Intact (s.setBatch b (.ready (dequeueBatch cfg t now limit))) := by
  have hm : Moves s (s.setBatch b (.ready (dequeueBatch cfg t now limit))) :=
    Moves.of_subset (Keeps.refl _) (List.Subset.refl _) rfl
  apply hi.batch_step hm rfl rfl rfl rfl trivial
  intro item hitem
  exact Or.inr ⟨t, ht, mem_dequeueBatch hitem⟩

theorem intact_next (hi : Intact s) {b : β} {phase phase' : BatchPhase}
    (hphase : s.batch b = phase) (hitems : phase'.items ⊆ phase.items)
    (hseen : phase'.RowSeen s.world) : Intact (s.setBatch b phase') := by
  have hm : Moves s (s.setBatch b phase') :=
    Moves.of_subset (Keeps.refl _) (List.Subset.refl _) rfl
  apply hi.batch_step hm rfl rfl rfl rfl hseen
  intro item hitem
  rw [hphase]
  exact Or.inl (hitems hitem)

theorem batchAfter_rowSeen {w : World} {item : DlqItem} {todo : List DlqItem} {next : PersistNext}
    (h : next.RowSeen w item.smsPath) : (batchAfter item todo next).RowSeen w := by
  cases next with
  | goesOn stage => exact h
  | returned => exact h
  | raised text => trivial

theorem batchAfter_items (item : DlqItem) (todo : List DlqItem) (next : PersistNext) :
    (batchAfter item todo next).items = item :: todo := by
  cases next <;> rfl

theorem intact_batchStep (hi : Intact s) {b : β} {item : DlqItem} {todo : List DlqItem}
    {stage : PersistStage} {event : PersistEvent} {world : World} {next : PersistNext}
    (hphase : s.batch b = .persisting item todo stage)
    (h : persistMicro s.world item.job stage event = some (world, next)) :
    Intact ({ s with world }.setBatch b (batchAfter item todo next)) := by
  have hseen : stage.RowSeen s.world item.job.path := hi.batch_rowSeen hphase
  obtain ⟨hkeeps, hnext⟩ := persistMicro_keeps hseen h
  have hm : Moves s ({ s with world }.setBatch b (batchAfter item todo next)) :=
    Moves.of_subset hkeeps (List.Subset.refl _) rfl
  apply hi.batch_step hm rfl rfl rfl rfl (batchAfter_rowSeen hnext)
  intro i hitem
  rw [batchAfter_items] at hitem
  rw [hphase]
  exact Or.inl hitem

/-- A mark of the current item, after which the batch goes on to the next. -/
theorem intact_mark (hi : Intact s) {b : β} {item : DlqItem} {todo : List DlqItem} {world : World}
    (hkeeps : Keeps s.world world) (hphase : (s.batch b).items = item :: todo) :
    Intact ({ s with world }.setBatch b (.ready todo)) := by
  have hm : Moves s ({ s with world }.setBatch b (.ready todo)) :=
    Moves.of_subset hkeeps (List.Subset.refl _) rfl
  apply hi.batch_step hm rfl rfl rfl rfl trivial
  intro i hitem
  rw [hphase]
  exact Or.inl (List.mem_cons_of_mem item hitem)

/-- The entry the batch deletes is still that of its item, whose path has a row. -/
theorem intact_recover (hi : Intact s) {b : β} {item : DlqItem} {todo : List DlqItem}
    (hphase : s.batch b = .recovered item todo) :
    Intact ({ s with world := { s.world with
      dlq := s.world.dlq.map (fun t => markRecovered t item.rowId) } }.setBatch b (.ready todo)) := by
  have hrow : HasRow s.world item.smsPath := hi.batch_rowSeen hphase
  have hkeeps : Keeps s.world { s.world with
      dlq := s.world.dlq.map (fun t => markRecovered t item.rowId) } := by
    apply Keeps.of_dlq (fun t => dlqKeeps_deleteWhere t _)
    intro t ht q hq
    obtain ⟨u, hu, hfits⟩ := hi.fitting
    cases hu.symm.trans ht
    by_cases hne : q = item.smsPath
    · exact Or.inr (hne ▸ hrow)
    · refine Or.inl (holds_markRecovered_of_ne (hfits b item ?_) hq hne)
      rw [hphase]
      exact List.mem_cons_self
  exact intact_mark hi hkeeps (by rw [hphase]; rfl)

theorem intact_retryFailed (hi : Intact s) {b : β} {item : DlqItem} {todo : List DlqItem}
    {error : Str} {now : Nat} (hphase : s.batch b = .failed item todo error) :
    Intact ({ s with world := { s.world with
      dlq := s.world.dlq.map (fun t => markRetryFailed cfg t item.rowId error now) } }.setBatch b
        (.ready todo)) := by
  have hkeeps : Keeps s.world { s.world with
      dlq := s.world.dlq.map (fun t => markRetryFailed cfg t item.rowId error now) } := by
    apply Keeps.of_dlq (fun t => dlqKeeps_update t _ (fun _ => rfl))
    exact fun t _ q hq => Or.inl (holds_markRetryFailed.mpr hq)
  exact intact_mark hi hkeeps (by rw [hphase]; rfl)

end Batch

/-! ## No silent loss -/

/-- The DLQ is on and nothing is in progress; the queue and the tables hold anything. -/
structure IntakeStart (s : IntakeState η ω β) : Prop where
  dlqEnabled : s.world.dlq.isSome
  handlers : ∀ h, s.handler h = .idle
  workers : ∀ w, s.worker w = .idle
  batches : ∀ b, s.batch b = .idle
  returned : s.returned = []

theorem intact_start (hs : IntakeStart s) : Intact s := by
  obtain ⟨t, ht⟩ := Option.isSome_iff_exists.mp hs.dlqEnabled
  refine ⟨?_, ?_, ?_, ?_, t, ht, ?_⟩
  · intro p hp
    rw [hs.returned] at hp
    cases hp
  · intro h job hjob
    rw [hs.handlers h] at hjob
    cases hjob
  · intro w
    rw [hs.workers w]
    trivial
  · intro b
    rw [hs.batches b]
    trivial
  · intro b item hitem
    rw [hs.batches b] at hitem
    cases hitem

section Intake
variable [DecidableEq η] [DecidableEq ω] [DecidableEq β] {maxsize : Int}

theorem intact_step {a : IntakeAction η ω β} (hi : Intact s) (hroom : DlqHasRoom cfg s a)
    (h : intakeStep cfg maxsize s a = some s') : Intact s' := by
  cases a with
  | signal x job =>
    simp only [intakeStep] at h
    split at h <;> cases h
    exact intact_begin hi
  | snapshot x jobs =>
    simp only [intakeStep] at h
    split at h <;> cases h
    exact intact_begin hi
  | enqueue x =>
    simp only [intakeStep] at h
    split at h
    · next hphase =>
      split at h
      · cases h
        exact intact_rejected hi hphase
      · cases h
        exact intact_enqueue hi hphase
    · cases h
  | enqueueRaises x error =>
    simp only [intakeStep] at h
    split at h
    · next hphase =>
      cases h
      exact intact_rejected hi hphase
    · cases h
  | rejectedToDlq x now =>
    simp only [intakeStep] at h
    split at h
    · next hphase =>
      cases h
      exact intact_rejectedToDlq hi hphase (hroom rfl)
    · cases h
  | finish x =>
    simp only [intakeStep] at h
    split at h
    · next hphase =>
      cases h
      exact intact_finish hi hphase
    · cases h
  | get w =>
    simp only [intakeStep] at h
    split at h
    · next hidle hqueue =>
      cases h
      exact intact_get hi hidle hqueue
    · cases h
  | workerStep w event =>
    simp only [intakeStep] at h
    split at h
    · next hphase =>
      obtain ⟨⟨world, next⟩, hmicro, he⟩ := Option.map_eq_some_iff.mp h
      cases he
      exact intact_workerStep hi hphase hmicro
    · cases h
  | failedToDlq w now =>
    simp only [intakeStep] at h
    split at h
    · next hphase =>
      cases h
      exact intact_failedToDlq hi hphase (hroom rfl)
    · cases h
  | dequeue b now limit =>
    simp only [intakeStep] at h
    split at h
    · next ht =>
      cases h
      exact intact_dequeue hi ht
    · cases h
  | next b =>
    simp only [intakeStep] at h
    split at h
    · next hphase =>
      cases h
      exact intact_next hi hphase (List.Subset.refl _) trivial
    · next hphase =>
      cases h
      exact intact_next hi hphase (List.nil_subset _) trivial
    · cases h
  | batchStep b event =>
    simp only [intakeStep] at h
    split at h
    · next hphase =>
      obtain ⟨⟨world, next⟩, hmicro, he⟩ := Option.map_eq_some_iff.mp h
      cases he
      exact intact_batchStep hi hphase hmicro
    · cases h
  | recover b =>
    simp only [intakeStep] at h
    split at h
    · next hphase =>
      cases h
      exact intact_recover hi hphase
    · cases h
  | retryFailed b now =>
    simp only [intakeStep] at h
    split at h
    · next hphase =>
      cases h
      exact intact_retryFailed hi hphase
    · cases h

/-- No silent loss: in every reachable state a path whose handler has returned is in the
    queue, in the hands of a worker, in the InboundSms table or in the DLQ. -/
theorem no_silent_loss {t : IntakeState η ω β} (hs : IntakeStart s)
    (hr : Reaches (intakeStep cfg maxsize) (DlqHasRoom cfg) s t) :
    ∀ p ∈ t.returned, Covered t p := by
  have hintact : Intact t := by
    apply hr.invariant (I := Intact) ?_ (intact_start hs)
    exact fun _ _ _ hi hroom h => intact_step hi hroom h
  exact hintact.returned

end Intake

end Steps

/-- Nothing in progress, and empty databases. -/
def quietIntake : IntakeState Unit Unit Unit :=
  { world := emptyWorld, queue := [], handler := fun _ => .idle, worker := fun _ => .idle,
    batch := fun _ => .idle, returned := [] }

theorem intakeStart_quietIntake : IntakeStart quietIntake :=
  ⟨rfl, fun _ => rfl, fun _ => rfl, fun _ => rfl, rfl⟩

def secondPath : Str := "/org/freedesktop/ModemManager1/SMS/1".toList

/-- A snapshot run lists two paths and the queue has room for one. The second goes to the
    DLQ; the persist of the first raises, so it goes there too, and a batch stores it. -/
def fullQueueRun : List (IntakeAction Unit Unit Unit) :=
  [.snapshot () [⟨firstPath, 0⟩, ⟨secondPath, 0⟩], .enqueue (), .enqueue (), .rejectedToDlq () 1,
    .finish (), .get (), .workerStep () (.raise "database is locked".toList), .failedToDlq () 2,
    .dequeue () 3 50, .next (), .batchStep () (.raise "no such modem".toList), .retryFailed () 4,
    .next (), .batchStep () (.look (.snapshot (snapshotOf "received" "+351911111111" "hi")) 5),
    .batchStep () (.save 6), .batchStep () .remove, .recover ()]

theorem no_silent_loss_full_queue :
    ∃ t, Reaches (intakeStep ⟨10, 60, 10⟩ 1) (DlqHasRoom ⟨10, 60, 10⟩) quietIntake t ∧
      t.returned = [firstPath, secondPath] ∧ t.world.inbound.rows.map InboundSms.mmPath = [firstPath] ∧
      (t.world.dlq.elim [] dlqItems).map DlqItem.smsPath = [secondPath] ∧
      ∀ p ∈ t.returned, Covered t p := by
  have hrun : (execIf (intakeStep ⟨10, 60, 10⟩ 1) (DlqHasRoom ⟨10, 60, 10⟩) quietIntake
      fullQueueRun).map (fun t => (t.returned, t.world.inbound.rows.map InboundSms.mmPath,
        (t.world.dlq.elim [] dlqItems).map DlqItem.smsPath)) =
      some ([firstPath, secondPath], [firstPath], [secondPath]) := by decide
  obtain ⟨t, ht, h⟩ := Option.map_eq_some_iff.mp hrun
  obtain ⟨hreturned, hrows, hdlq⟩ : t.returned = _ ∧ _ = [firstPath] ∧ _ = [secondPath] := by
    simpa only [Prod.mk.injEq] using h
  have hr := Reaches.of_execIf ht
  exact ⟨t, hr, hreturned, hrows, hdlq, no_silent_loss intakeStart_quietIntake hr⟩

end HiWaveTel
