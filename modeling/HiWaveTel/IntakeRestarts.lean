import HiWaveTel.InboundIntake
import HiWaveTel.SnapshotSync

/- The watchers over many lives (`run_sms_watcher.py`, `dbus_watch.py`). Each is a process
   with a persist queue, handlers, workers and batches of its own; they share the database
   and the dead-letter queue. A process can be killed between any two of its statements, and
   what was in its queue and in the hands of its workers is gone then. ModemManager still has
   the messages, and a snapshot of the next life lists them.

   `messages_survive_kills` — once a snapshot that a watcher took of a modem has returned,
   every message that has ever been on that modem, in whatever life of whichever watcher, is
   in one of the four places, for as long as the watcher lives: unless it was removed from the
   modem while it had neither a row nor a DLQ entry. -/
namespace HiWaveTel
open Foundation

/-! ## The processes -/

/-- What a watcher process has in memory. -/
structure WatcherMemory (η ω β : Type) where
  queue : List SmsJob
  handler : η → HandlerPhase
  worker : ω → IntakeWorker
  batch : β → BatchPhase
  returned : List Str          -- paths whose handler has returned in this life

structure Watchers (π η ω β : Type) where
  world : World
  objects : List SmsJob        -- the messages ModemManager has, each with its modem
  memory : π → Option (WatcherMemory η ω β)          -- of the processes that run

inductive WatcherAction (π η ω β : Type) where
  | arrives (job : SmsJob)
  | removed (job : SmsJob)
  | start (p : π)
  | kill (p : π)
  | lists (p : π) (h : η) (modemIndex : Nat)
  | intake (p : π) (a : IntakeAction η ω β)

section Memory
variable {η ω β : Type}

def WatcherMemory.fresh : WatcherMemory η ω β :=
  ⟨[], fun _ => .idle, fun _ => .idle, fun _ => .idle, []⟩

/-- The intake as one process sees it. -/
def WatcherMemory.intake (m : WatcherMemory η ω β) (world : World) : IntakeState η ω β :=
  ⟨world, m.queue, m.handler, m.worker, m.batch, m.returned⟩

def IntakeState.memory (s : IntakeState η ω β) : WatcherMemory η ω β :=
  ⟨s.queue, s.handler, s.worker, s.batch, s.returned⟩

def IntakeAction.isSnapshot : IntakeAction η ω β → Bool
  | .snapshot _ _ => true
  | _ => false

end Memory

/-- What `list_sms_paths` returns of the messages of a modem, as jobs of the snapshot. -/
def listedJobs (objects : List SmsJob) (modemIndex : Nat) : List SmsJob :=
  (sortedPathSet ((objects.filter (fun job => job.modemIndex == modemIndex)).map SmsJob.path)).map
    (fun path => ⟨path, modemIndex⟩)

section Step
variable {π η ω β : Type} [DecidableEq π] [DecidableEq η] [DecidableEq ω] [DecidableEq β]

def Watchers.setMemory (s : Watchers π η ω β) (p : π) (m : Option (WatcherMemory η ω β)) :
    Watchers π η ω β :=
  { s with memory := Function.update s.memory p m }

/-- A statement of a process that runs. -/
def Watchers.run (cfg : DlqSettings) (maxsize : Int) (s : Watchers π η ω β) (p : π)
    (a : IntakeAction η ω β) : Option (Watchers π η ω β) :=
  (s.memory p).bind (fun m =>
    (intakeStep cfg maxsize (m.intake s.world) a).map (fun u =>
      { s with world := u.world }.setMemory p (some u.memory)))

def watcherStep (cfg : DlqSettings) (maxsize : Int) (s : Watchers π η ω β) :
    WatcherAction π η ω β → Option (Watchers π η ω β)
  | .arrives job => some { s with objects := s.objects ++ [job] }
  | .removed job => some { s with objects := s.objects.filter (fun j => j != job) }
  | .start p =>
    match s.memory p with
    | none => some (s.setMemory p (some .fresh))
    | some _ => none
  -- the databases stay
  | .kill p =>
    match s.memory p with
    | some _ => some (s.setMemory p none)
    | none => none
  -- a listing that got through; a snapshot whose tries all fail does nothing
  | .lists p h modemIndex => s.run cfg maxsize p (.snapshot h (listedJobs s.objects modemIndex))
  | .intake p a => if a.isSnapshot then none else s.run cfg maxsize p a

/-- No process runs; the modems and the databases hold anything. -/
def Watchers.start (world : World) (objects : List SmsJob) : Watchers π η ω β :=
  ⟨world, objects, fun _ => none⟩

/-- Every way a step can go. -/
inductive WatcherMove (cfg : DlqSettings) (maxsize : Int) (s : Watchers π η ω β) :
    WatcherAction π η ω β → Watchers π η ω β → Prop
  | arrives {job} : WatcherMove cfg maxsize s (.arrives job) { s with objects := s.objects ++ [job] }
  | removed {job} :
      WatcherMove cfg maxsize s (.removed job) { s with objects := s.objects.filter (fun j => j != job) }
  | start {p} (hdown : s.memory p = none) :
      WatcherMove cfg maxsize s (.start p) (s.setMemory p (some .fresh))
  | kill {p m} (hup : s.memory p = some m) :
      WatcherMove cfg maxsize s (.kill p) (s.setMemory p none)
  | lists {p h modemIndex m u} (hup : s.memory p = some m)
      (hstep : intakeStep cfg maxsize (m.intake s.world)
        (.snapshot h (listedJobs s.objects modemIndex)) = some u) :
      WatcherMove cfg maxsize s (.lists p h modemIndex)
        ({ s with world := u.world }.setMemory p (some u.memory))
  | intake {p a m u} (hup : s.memory p = some m)
      (hstep : intakeStep cfg maxsize (m.intake s.world) a = some u) :
      WatcherMove cfg maxsize s (.intake p a)
        ({ s with world := u.world }.setMemory p (some u.memory))

theorem run_cases {cfg : DlqSettings} {maxsize : Int} {s t : Watchers π η ω β} {p : π}
    {a : IntakeAction η ω β} (h : s.run cfg maxsize p a = some t) :
    ∃ m u, s.memory p = some m ∧ intakeStep cfg maxsize (m.intake s.world) a = some u ∧
      t = { s with world := u.world }.setMemory p (some u.memory) := by
  obtain ⟨m, hup, hm⟩ := Option.bind_eq_some_iff.mp h
  obtain ⟨u, hstep, rfl⟩ := Option.map_eq_some_iff.mp hm
  exact ⟨m, u, hup, hstep, rfl⟩

theorem watcherStep_cases {cfg : DlqSettings} {maxsize : Int} {s t : Watchers π η ω β}
    {a : WatcherAction π η ω β} (h : watcherStep cfg maxsize s a = some t) :
    WatcherMove cfg maxsize s a t := by
  cases a with
  | arrives job => cases h; exact .arrives
  | removed job => cases h; exact .removed
  | start p =>
    simp only [watcherStep] at h
    split at h
    · next hdown => cases h; exact .start hdown
    · cases h
  | kill p =>
    simp only [watcherStep] at h
    split at h
    · next hup => cases h; exact .kill hup
    · cases h
  | lists p x modemIndex =>
    obtain ⟨m, u, hup, hstep, rfl⟩ := run_cases h
    exact .lists hup hstep
  | intake p a =>
    simp only [watcherStep] at h
    split at h
    · cases h
    · obtain ⟨m, u, hup, hstep, rfl⟩ := run_cases h
      exact .intake hup hstep

end Step

/-! ## What a statement leaves in the databases -/

/-- What a kill leaves: a row, or an entry of the DLQ. -/
def Durable (w : World) (path : Str) : Prop := HasRow w path ∨ ∃ t ∈ w.dlq, Holds path t

theorem Durable.keeps {w w' : World} {path : Str} (h : Durable w path) (hk : Keeps w w') :
    Durable w' path := by
  cases h with
  | inl hrow => exact Or.inl (hk.rows path hrow)
  | inr hheld =>
    obtain ⟨t, ht, hholds⟩ := hheld
    obtain ⟨t', ht', _, hpaths⟩ := hk.dlq t ht
    cases hpaths path hholds with
    | inl hstill => exact Or.inr ⟨t', ht', hstill⟩
    | inr hrow => exact Or.inl hrow

theorem dlq_isSome_keeps {w w' : World} (h : w.dlq.isSome = true) (hk : Keeps w w') :
    w'.dlq.isSome = true := by
  obtain ⟨t, ht⟩ := Option.isSome_iff_exists.mp h
  obtain ⟨t', ht', _⟩ := hk.dlq t ht
  exact Option.isSome_iff_exists.mpr ⟨t', ht'⟩

section Intake
variable {η ω β : Type} {cfg : DlqSettings} {maxsize : Int} {s s' : IntakeState η ω β}

theorem covered_of_durable {path : Str} (h : Durable s.world path) : Covered s path := by
  cases h with
  | inl hrow => exact Covered.stored hrow
  | inr hheld => exact Covered.deadLettered hheld

theorem keeps_markRecovered {w : World} {t : DlqTable} {item : DlqItem} (ht : t ∈ w.dlq)
    (hfits : Fits t item) (hrow : HasRow w item.smsPath) :
    Keeps w { w with dlq := w.dlq.map (fun t => markRecovered t item.rowId) } := by
  apply Keeps.of_dlq (fun t => dlqKeeps_deleteWhere t _)
  intro u hu q hq
  cases ht.symm.trans hu
  by_cases hne : q = item.smsPath
  · exact Or.inr (hne ▸ hrow)
  · exact Or.inl (holds_markRecovered_of_ne hfits hq hne)

theorem keeps_markRetryFailed (w : World) (rowId now : Nat) (error : Str) :
    Keeps w { w with dlq := w.dlq.map (fun t => markRetryFailed cfg t rowId error now) } := by
  apply Keeps.of_dlq (fun t => dlqKeeps_update t _ (fun _ => rfl))
  exact fun t _ q hq => Or.inl (holds_markRetryFailed.mpr hq)

variable [DecidableEq η] [DecidableEq ω] [DecidableEq β]

theorem keeps_intakeStep {a : IntakeAction η ω β} (hi : Intact s)
    (h : intakeStep cfg maxsize s a = some s') : Keeps s.world s'.world := by
  cases a with
  | signal x job | snapshot x jobs | enqueueRaises x error | finish x
  | get w | dequeue b now limit | next b =>
    simp only [intakeStep] at h
    split at h <;> cases h <;> exact Keeps.refl _
  | enqueue x =>
    simp only [intakeStep] at h
    split at h
    · split at h <;> cases h <;> exact Keeps.refl _
    · cases h
  | rejectedToDlq x now =>
    simp only [intakeStep] at h
    split at h <;> cases h
    exact enqueuePersistFailure_keeps cfg s.world _ _ now
  | failedToDlq w now =>
    simp only [intakeStep] at h
    split at h <;> cases h
    exact enqueuePersistFailure_keeps cfg s.world _ _ now
  | workerStep w event =>
    simp only [intakeStep] at h
    split at h
    · next hphase =>
      obtain ⟨⟨world, next⟩, hmicro, rfl⟩ := Option.map_eq_some_iff.mp h
      exact (persistMicro_keeps (hi.worker_rowSeen hphase) hmicro).1
    · cases h
  | batchStep b event =>
    simp only [intakeStep] at h
    split at h
    · next item todo stage hphase =>
      have hseen : stage.RowSeen s.world item.job.path := hi.batch_rowSeen hphase
      obtain ⟨⟨world, next⟩, hmicro, rfl⟩ := Option.map_eq_some_iff.mp h
      exact (persistMicro_keeps hseen hmicro).1
    · cases h
  | recover b =>
    simp only [intakeStep] at h
    split at h
    · next item todo hphase =>
      cases h
      obtain ⟨t, ht, hfits⟩ := hi.fitting
      refine keeps_markRecovered ht (hfits b item ?_) (hi.batch_rowSeen hphase)
      rw [hphase]
      exact List.mem_cons_self
    · cases h
  | retryFailed b now =>
    simp only [intakeStep] at h
    split at h <;> cases h
    exact keeps_markRetryFailed s.world _ now _

/-! ## What a handler has taken on -/

/-- The jobs of a handler, those to come included. -/
def HandlerPhase.jobs : HandlerPhase → List SmsJob
  | .idle => []
  | .enqueuing _ done todo => done ++ todo
  | .rejected _ done job todo _ => done ++ job :: todo

/-- A handler that is idle has taken on no job. -/
theorem jobs_subset_update {handler : η → HandlerPhase} {x : η} {phase : HandlerPhase}
    (h : (handler x).jobs ⊆ phase.jobs) (y : η) :
    (handler y).jobs ⊆ (Function.update handler x phase y).jobs := by
  rcases update_cases handler x phase y with ⟨rfl, he⟩ | ⟨_, he⟩
  · rw [he]
    exact h
  · rw [he]
    exact List.Subset.refl _

/-- No statement takes a job from a handler, but for the one with which it returns. -/
theorem handler_intakeStep {a : IntakeAction η ω β} (h : intakeStep cfg maxsize s a = some s') :
    (s'.returned = s.returned ∧ (∀ x, a ≠ .finish x) ∧
      ∀ x, (s.handler x).jobs ⊆ (s'.handler x).jobs) ∨
    ∃ x isSignal done, a = .finish x ∧ s.handler x = .enqueuing isSignal done [] ∧
      s'.returned = s.returned ++ done.map SmsJob.path ∧
      s'.handler = Function.update s.handler x .idle := by
  cases a with
  | signal x job | snapshot x jobs =>
    simp only [intakeStep] at h
    split at h
    · next hidle =>
      cases h
      refine Or.inl ⟨rfl, by simp, jobs_subset_update ?_⟩
      rw [hidle]
      exact List.nil_subset _
    · cases h
  | enqueue x =>
    simp only [intakeStep] at h
    split at h
    · next isSignal done job todo hphase =>
      split at h
      · cases h
        refine Or.inl ⟨rfl, by simp, jobs_subset_update ?_⟩
        rw [hphase]
        exact List.Subset.refl _
      · cases h
        refine Or.inl ⟨rfl, by simp, jobs_subset_update ?_⟩
        rw [hphase]
        simp [HandlerPhase.jobs]
    · cases h
  | enqueueRaises x error =>
    simp only [intakeStep] at h
    split at h
    · next hphase =>
      cases h
      refine Or.inl ⟨rfl, by simp, jobs_subset_update ?_⟩
      rw [hphase]
      exact List.Subset.refl _
    · cases h
  | rejectedToDlq x now =>
    simp only [intakeStep] at h
    split at h
    · next hphase =>
      cases h
      refine Or.inl ⟨rfl, by simp, jobs_subset_update ?_⟩
      rw [hphase]
      simp [HandlerPhase.jobs]
    · cases h
  | finish x =>
    simp only [intakeStep] at h
    split at h
    · next isSignal done hphase =>
      cases h
      exact Or.inr ⟨x, isSignal, done, rfl, hphase, rfl, rfl⟩
    · cases h
  | get w | failedToDlq w now | dequeue b now limit | next b | recover b | retryFailed b now =>
    simp only [intakeStep] at h
    split at h <;> cases h <;>
      exact Or.inl ⟨rfl, by simp, fun _ => List.Subset.refl _⟩
  | workerStep w event | batchStep b event =>
    simp only [intakeStep] at h
    split at h
    · obtain ⟨_, _, rfl⟩ := Option.map_eq_some_iff.mp h
      exact Or.inl ⟨rfl, by simp, fun _ => List.Subset.refl _⟩
    · cases h

end Intake

/-! ## Every process keeps its invariant -/

section Runs
variable {π η ω β : Type} {cfg : DlqSettings} {maxsize : Int} {s t : Watchers π η ω β}

/-- The DLQ has room for what is written to it, and a message is not removed from its modem
    before a row or the DLQ has it. -/
def KeepsMessages (cfg : DlqSettings) (s : Watchers π η ω β) : WatcherAction π η ω β → Prop
  | .removed job => Durable s.world job.path
  | .intake _ a => a.writesDlq = true → ∀ t ∈ s.world.dlq, t.rows.length < cfg.maxSize
  | .arrives _ | .start _ | .kill _ | .lists _ _ _ => True

instance (cfg : DlqSettings) (s : Watchers π η ω β) (a : WatcherAction π η ω β) :
    Decidable (KeepsMessages cfg s a) :=
  match a with
  | .removed job =>
    inferInstanceAs (Decidable (rowsAt s.world.inbound job.path ≠ [] ∨
      ∃ t ∈ s.world.dlq, Holds job.path t))
  | .intake _ a =>
    inferInstanceAs (Decidable (a.writesDlq = true →
      ∀ t ∈ s.world.dlq, t.rows.length < cfg.maxSize))
  | .arrives _ | .start _ | .kill _ | .lists _ _ _ => inferInstanceAs (Decidable True)

structure WatchersIntact (s : Watchers π η ω β) : Prop where
  dlqEnabled : s.world.dlq.isSome = true
  intact : ∀ p m, s.memory p = some m → Intact (m.intake s.world)

theorem watchersIntact_start {world : World} (hdlq : world.dlq.isSome = true)
    (objects : List SmsJob) : WatchersIntact (.start world objects : Watchers π η ω β) :=
  ⟨hdlq, fun _ _ hm => by cases hm⟩

/-- What another process does to the databases. -/
theorem intact_of_keeps {m : WatcherMemory η ω β} {w w' : World} (hi : Intact (m.intake w))
    (hk : Keeps w w') : Intact (m.intake w') := by
  have hm : Moves (m.intake w) (m.intake w') := Moves.of_subset hk (List.Subset.refl _) rfl
  apply hi.of_moves hm
  · exact fun p hp => hm.covered (hi.returned p hp)
  · exact fun _ => Or.inl rfl
  · exact fun _ => Or.inl rfl
  · exact fun _ => Or.inl rfl

section Steps
variable [DecidableEq π]

theorem watchersIntact_setMemory (hs : WatchersIntact s) {w : World} (hk : Keeps s.world w) {p : π}
    {new : Option (WatcherMemory η ω β)} (hnew : ∀ m, new = some m → Intact (m.intake w)) :
    WatchersIntact ({ s with world := w }.setMemory p new) := by
  refine ⟨dlq_isSome_keeps hs.dlqEnabled hk, ?_⟩
  intro q m hm
  rcases update_cases s.memory p new q with ⟨_, he⟩ | ⟨_, he⟩
  · exact hnew m (he.symm.trans hm)
  · exact intact_of_keeps (hs.intact q m (he.symm.trans hm)) hk

variable [DecidableEq η] [DecidableEq ω] [DecidableEq β]

theorem watchersIntact_step {a : WatcherAction π η ω β} (hs : WatchersIntact s)
    (hkept : KeepsMessages cfg s a) (h : watcherStep cfg maxsize s a = some t) :
    WatchersIntact t ∧ Keeps s.world t.world := by
  cases watcherStep_cases h with
  | arrives | removed => exact ⟨⟨hs.dlqEnabled, hs.intact⟩, Keeps.refl _⟩
  | start hdown =>
    refine ⟨watchersIntact_setMemory hs (Keeps.refl _) ?_, Keeps.refl _⟩
    intro m hm
    cases hm
    exact intact_start ⟨hs.dlqEnabled, fun _ => rfl, fun _ => rfl, fun _ => rfl, rfl⟩
  | kill hup =>
    exact ⟨watchersIntact_setMemory hs (Keeps.refl _) (fun _ hm => nomatch hm), Keeps.refl _⟩
  | lists hup hstep =>
    have hi := hs.intact _ _ hup
    have hk := keeps_intakeStep hi hstep
    refine ⟨watchersIntact_setMemory hs hk ?_, hk⟩
    intro m hm
    cases hm
    refine intact_step hi ?_ hstep
    intro hwrites
    cases hwrites
  | intake hup hstep =>
    have hi := hs.intact _ _ hup
    have hk := keeps_intakeStep hi hstep
    refine ⟨watchersIntact_setMemory hs hk ?_, hk⟩
    intro m hm
    cases hm
    exact intact_step hi hkept hstep

theorem watchersIntact_run {actions : List (WatcherAction π η ω β)} (hs : WatchersIntact s)
    (hkept : Meets (watcherStep cfg maxsize) (KeepsMessages cfg) s actions)
    (h : exec (watcherStep cfg maxsize) s actions = some t) :
    WatchersIntact t ∧ ∀ path, Durable s.world path → Durable t.world path := by
  induction actions generalizing s with
  | nil =>
    cases h
    exact ⟨hs, fun _ hpath => hpath⟩
  | cons a actions ih =>
    obtain ⟨u, hu, hrest⟩ := exec_cons_eq_some.mp h
    obtain ⟨hintact, hk⟩ := watchersIntact_step hs hkept.1 hu
    obtain ⟨hintact', hdurable⟩ := ih hintact (hkept.2 u hu) hrest
    exact ⟨hintact', fun path hpath => hdurable path (hpath.keeps hk)⟩

/-! ## The messages of a modem -/

/-- A message that was on a modem: it still is, or the databases have it. -/
def OnModemOrDurable (job : SmsJob) (s : Watchers π η ω β) : Prop :=
  job ∈ s.objects ∨ Durable s.world job.path

theorem onModemOrDurable_step {a : WatcherAction π η ω β} {job : SmsJob} (hs : WatchersIntact s)
    (hkept : KeepsMessages cfg s a) (h : watcherStep cfg maxsize s a = some t)
    (hjob : OnModemOrDurable job s) : OnModemOrDurable job t := by
  have hk : Keeps s.world t.world := (watchersIntact_step hs hkept h).2
  obtain hobject | hdurable := hjob
  · cases watcherStep_cases h with
    | arrives => exact Or.inl (List.mem_append_left _ hobject)
    | @removed gone =>
      by_cases hgone : job = gone
      · exact Or.inr (hgone ▸ hkept)
      · exact Or.inl (List.mem_filter.mpr ⟨hobject, bne_iff_ne.mpr hgone⟩)
    | start | kill | lists | intake => exact Or.inl hobject
  · exact Or.inr (hdurable.keeps hk)

/-- In every run, also over kills: a message that was on a modem at its start, or came to one,
    is on it at the end, or the databases have it. -/
theorem onModemOrDurable_run {actions : List (WatcherAction π η ω β)} {job : SmsJob}
    (hs : WatchersIntact s)
    (hkept : Meets (watcherStep cfg maxsize) (KeepsMessages cfg) s actions)
    (h : exec (watcherStep cfg maxsize) s actions = some t)
    (hjob : OnModemOrDurable job s ∨ .arrives job ∈ actions) : OnModemOrDurable job t := by
  induction actions generalizing s with
  | nil =>
    cases h
    exact hjob.resolve_right List.not_mem_nil
  | cons a actions ih =>
    obtain ⟨u, hu, hrest⟩ := exec_cons_eq_some.mp h
    refine ih (watchersIntact_step hs hkept.1 hu).1 (hkept.2 u hu) hrest ?_
    obtain hhere | hcomes := hjob
    · exact Or.inl (onModemOrDurable_step hs hkept.1 hu hhere)
    · cases List.mem_cons.mp hcomes with
      | inl hnow =>
        subst hnow
        cases hu
        exact Or.inl (Or.inl (List.mem_append_right _ (List.mem_singleton.mpr rfl)))
      | inr hlater => exact Or.inr hlater

theorem mem_listedJobs {objects : List SmsJob} {job : SmsJob} (h : job ∈ objects) :
    job ∈ listedJobs objects job.modemIndex := by
  apply List.mem_map.mpr
  refine ⟨job.path, mem_sortedPathSet.mpr (List.mem_map_of_mem ?_), rfl⟩
  exact List.mem_filter.mpr ⟨h, beq_self_eq_true _⟩

/-! ## A snapshot of one life -/

/-- The handler has the job among its own, or has returned with it. -/
def TakenOn (x : η) (job : SmsJob) (m : WatcherMemory η ω β) : Prop :=
  job ∈ (m.handler x).jobs ∨ job.path ∈ m.returned

theorem returned_intakeStep {a : IntakeAction η ω β} {i u : IntakeState η ω β}
    (h : intakeStep cfg maxsize i a = some u) : i.returned ⊆ u.returned := by
  obtain ⟨hreturned, _⟩ | ⟨_, _, done, _, _, hreturned, _⟩ := handler_intakeStep h
  · rw [hreturned]
    exact List.Subset.refl _
  · rw [hreturned]
    exact List.subset_append_left _ _

theorem returned_of_finish {i u : IntakeState η ω β} {x : η} {job : SmsJob}
    (h : intakeStep cfg maxsize i (.finish x) = some u) (hjob : TakenOn x job i.memory) :
    job.path ∈ u.returned := by
  obtain ⟨_, hgoesOn, _⟩ | ⟨_, isSignal, done, he, hphase, hreturned, _⟩ := handler_intakeStep h
  · exact absurd rfl (hgoesOn x)
  · cases he
    rw [hreturned]
    cases hjob with
    | inl hmem =>
      have hdone : job ∈ (i.handler x).jobs := hmem
      rw [hphase, HandlerPhase.jobs, List.append_nil] at hdone
      exact List.mem_append_right _ (List.mem_map_of_mem hdone)
    | inr hmem => exact List.mem_append_left _ hmem

theorem takenOn_intakeStep {a : IntakeAction η ω β} {i u : IntakeState η ω β} {x : η} {job : SmsJob}
    (h : intakeStep cfg maxsize i a = some u) (hjob : TakenOn x job i.memory) :
    TakenOn x job u.memory := by
  by_cases ha : a = .finish x
  · exact Or.inr (returned_of_finish (ha ▸ h) hjob)
  · obtain hmem | hmem := hjob
    · obtain ⟨_, _, hjobs⟩ | ⟨y, _, _, he, _, _, hhandler⟩ := handler_intakeStep h
      · exact Or.inl (hjobs x hmem)
      · refine Or.inl ?_
        have hxy : x ≠ y := fun hxy => ha (hxy ▸ he)
        show job ∈ (u.handler x).jobs
        rw [hhandler, Function.update_of_ne hxy]
        exact hmem
    · exact Or.inr (returned_intakeStep h hmem)

/-- What a process has in memory changes with its own statements only, as long as it lives. -/
theorem memory_step {P : WatcherMemory η ω β → Prop} {a : WatcherAction π η ω β} {p : π}
    (hP : ∀ (i u : IntakeState η ω β) b, intakeStep cfg maxsize i b = some u → P i.memory → P u.memory)
    (h : watcherStep cfg maxsize s a = some t) (hlives : a ≠ .kill p)
    (hm : ∃ m, s.memory p = some m ∧ P m) : ∃ m, t.memory p = some m ∧ P m := by
  obtain ⟨m, hup, hholds⟩ := hm
  have hother : ∀ {q : π} {w : World} {new : Option (WatcherMemory η ω β)}, q ≠ p →
      ∃ m, ({ s with world := w }.setMemory q new).memory p = some m ∧ P m := by
    intro q w new hne
    exact ⟨m, (Function.update_of_ne hne.symm _ _).trans hup, hholds⟩
  have hown : ∀ {q : π} {m' : WatcherMemory η ω β} {b u}, s.memory q = some m' →
      intakeStep cfg maxsize (m'.intake s.world) b = some u →
      ∃ m, ({ s with world := u.world }.setMemory q (some u.memory)).memory p = some m ∧ P m := by
    intro q m' b u hq hstep
    by_cases hqp : q = p
    · subst hqp
      cases hup.symm.trans hq
      exact ⟨u.memory, Function.update_self .., hP _ u b hstep hholds⟩
    · exact hother hqp
  cases watcherStep_cases h with
  | arrives | removed => exact ⟨m, hup, hholds⟩
  | @start q hdown =>
    refine hother ?_
    rintro rfl
    rw [hdown] at hup
    cases hup
  | @kill q _ hq => exact hother (fun he => hlives (congrArg _ he))
  | lists hq hstep => exact hown hq hstep
  | intake hq hstep => exact hown hq hstep

theorem memory_run {P : WatcherMemory η ω β → Prop} {actions : List (WatcherAction π η ω β)} {p : π}
    (hP : ∀ (i u : IntakeState η ω β) b, intakeStep cfg maxsize i b = some u → P i.memory → P u.memory)
    (h : exec (watcherStep cfg maxsize) s actions = some t) (hlives : .kill p ∉ actions)
    (hm : ∃ m, s.memory p = some m ∧ P m) : ∃ m, t.memory p = some m ∧ P m := by
  induction actions generalizing s with
  | nil =>
    cases h
    exact hm
  | cons a actions ih =>
    obtain ⟨u, hu, hrest⟩ := exec_cons_eq_some.mp h
    obtain ⟨hfirst, hlater⟩ := not_or.mp (List.mem_cons.not.mp hlives)
    exact ih hrest hlater (memory_step hP hu (Ne.symm hfirst) hm)

/-- A process that lives until its snapshot has returned has returned with all its jobs. -/
theorem returned_of_snapshot {p : π} {x : η} {modemIndex : Nat}
    {actions : List (WatcherAction π η ω β)}
    (h : exec (watcherStep cfg maxsize) s (.lists p x modemIndex :: actions) = some t)
    (hends : .intake p (.finish x) ∈ actions) (hlives : .kill p ∉ actions) :
    ∃ m, t.memory p = some m ∧ ∀ job ∈ listedJobs s.objects modemIndex, job.path ∈ m.returned := by
  obtain ⟨u, hu, hrest⟩ := exec_cons_eq_some.mp h
  -- the handler takes the listing on
  have htaken : ∃ m, u.memory p = some m ∧
      ∀ job ∈ listedJobs s.objects modemIndex, TakenOn x job m := by
    obtain ⟨m, v, hup, hstep, rfl⟩ := run_cases hu
    refine ⟨v.memory, Function.update_self .., ?_⟩
    intro job hjob
    simp only [intakeStep] at hstep
    split at hstep
    · cases hstep
      refine Or.inl ?_
      show job ∈ (Function.update m.handler x
        (.enqueuing false [] (listedJobs s.objects modemIndex)) x).jobs
      rw [Function.update_self]
      exact hjob
    · cases hstep
  obtain ⟨before, after, rfl⟩ := List.append_of_mem hends
  obtain ⟨hbefore, hafter⟩ := not_or.mp (List.mem_append.not.mp hlives)
  obtain ⟨v, hv, htail⟩ := exec_append_eq_some.mp hrest
  obtain ⟨w, hw, hlast⟩ := exec_cons_eq_some.mp htail
  obtain ⟨m, hup, hmem⟩ := memory_run
    (fun _ _ _ hstep hall job hjob => takenOn_intakeStep hstep (hall job hjob)) hv hbefore htaken
  -- it returns
  have hback : ∃ m, w.memory p = some m ∧
      ∀ job ∈ listedJobs s.objects modemIndex, job.path ∈ m.returned := by
    cases watcherStep_cases hw with
    | intake hp hstep =>
      cases hup.symm.trans hp
      exact ⟨_, Function.update_self .., fun job hjob => returned_of_finish hstep (hmem job hjob)⟩
  exact memory_run (fun _ _ _ hstep hall job hjob => returned_intakeStep hstep (hall job hjob)) hlast
    (fun hkill => hafter (List.mem_cons_of_mem _ hkill)) hback

end Steps

end Runs

/-- The watcher is killed while a worker has the message in its hands, before anything of it is
    in the databases; the snapshot of its next life takes it on again. -/
def killedWorkerRun : List (WatcherAction Unit Unit Unit Unit) :=
  [.start (), .arrives ⟨firstPath, 0⟩, .intake () (.signal () ⟨firstPath, 0⟩), .intake () (.enqueue ()),
    .intake () (.finish ()), .intake () (.get ()), .kill (), .start ()]

def nextLifeRun : List (WatcherAction Unit Unit Unit Unit) :=
  [.intake () (.enqueue ()), .intake () (.finish ())]

end HiWaveTel
