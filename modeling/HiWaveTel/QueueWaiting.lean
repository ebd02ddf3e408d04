import HiWaveTel.AcceptedSends
import HiWaveTel.Foundation.Measure

/- The order in which the workers take the jobs of `OutboundProcessorQueue`. A job is behind
   the jobs of a smaller rank and behind those of its own rank that drew their number in
   `_next_seq` before it. Of the calls in progress only those count that already have such a
   number, or will get one of a smaller rank: the number of a call is drawn outside the lock
   that reserved its key, so a call may be overtaken before its `put`.

   `queued_job_waits` — a queued job is taken before the workers have taken more jobs than
   were ahead of it and more urgent ones that `enqueue` was called with meanwhile. The POSTs
   all have the same priority, so for them nothing comes in between. -/
namespace HiWaveTel
open Foundation

/-! ## The order of the jobs -/

/-- `_OutboundJob.__lt__`, the order of a dataclass by its fields that are compared. -/
def OutboundJob.before (a b : OutboundJob) : Bool :=
  decide (a.rank < b.rank ∨ (a.rank = b.rank ∧ a.seq < b.seq))

/-- The call may still put a job in front of `job`. -/
def Insertion.mayPrecede (call : Insertion) (job : OutboundJob) : Bool :=
  match call.phase with
  | .reserved => decide (call.rank < job.rank)
  | .numbered seq => OutboundJob.before ⟨call.rank, seq, call.jobType, call.reference⟩ job
  | .full => false

section MayPrecede
variable (job : OutboundJob) (jobType reference : Str) (rank seq : Nat)

@[simp] theorem mayPrecede_reserved :
    Insertion.mayPrecede ⟨jobType, reference, rank, .reserved⟩ job = decide (rank < job.rank) := rfl

@[simp] theorem mayPrecede_numbered :
    Insertion.mayPrecede ⟨jobType, reference, rank, .numbered seq⟩ job =
      OutboundJob.before ⟨rank, seq, jobType, reference⟩ job := rfl

@[simp] theorem mayPrecede_full :
    Insertion.mayPrecede ⟨jobType, reference, rank, .full⟩ job = false := rfl

end MayPrecede

/-- The jobs in front of a queued one, with those that are on their way there. -/
def ahead (job : OutboundJob) (s : QueueState) : Nat :=
  s.queue.countP (fun b => b.before job) + s.inserting.countP (fun call => call.mayPrecede job)

/-- A worker takes a job. -/
def QueueAction.isGet : QueueAction → Bool
  | .get => true
  | _ => false

/-- `enqueue` is called with a priority that outranks the job. -/
def QueueAction.outranks (job : OutboundJob) : QueueAction → Bool
  | .enqueue _ _ priority => decide (priorityRank priority < job.rank)
  | _ => false

/-- The step hands this job to a worker. -/
def Takes (job : OutboundJob) (s : QueueState) (a : QueueAction) : Prop :=
  a = .get ∧ nextJob s.queue = some job

theorem not_before_nextJob {queue : List OutboundJob} {job next : OutboundJob}
    (h : nextJob queue = some next) (hjob : job ∈ queue) : job.before next = false := by
  have hmin : next ∈ queue.argmin (fun job => toLex (job.rank, job.seq)) := Option.mem_def.mpr h
  have hle := List.le_of_mem_argmin hjob hmin
  simp only [Prod.Lex.toLex_le_toLex] at hle
  simp only [OutboundJob.before, decide_eq_false_iff_not]
  omega

/-! ## The numbers -/

/-- The number that a call has drawn. -/
def Insertion.number (call : Insertion) : Option Nat :=
  match call.phase with
  | .numbered seq => some seq
  | .reserved | .full => none

/-- The numbers of the jobs that are queued or about to be. -/
def QueueState.numbers (s : QueueState) : List Nat :=
  s.queue.map OutboundJob.seq ++ s.inserting.filterMap Insertion.number

structure SeqInv (s : QueueState) : Prop where
  nodup : s.numbers.Nodup
  drawn : ∀ n ∈ s.numbers, n ≤ s.lastSeq

theorem seqInv_start (world : World) : SeqInv (.start world) :=
  ⟨List.nodup_nil, fun _ hn => absurd hn List.not_mem_nil⟩

/-- Numbers that go, or change hands, leave the others distinct and drawn. -/
theorem SeqInv.of_subperm {s t : QueueState} (hs : SeqInv s) (h : t.numbers.Subperm s.numbers)
    (hseq : s.lastSeq ≤ t.lastSeq) : SeqInv t := by
  obtain ⟨l, hperm, hsub⟩ := h
  refine ⟨hperm.nodup_iff.mp (hs.nodup.sublist hsub), ?_⟩
  intro n hn
  have hmem := hsub.subset (hperm.symm.subset hn)
  exact Nat.le_trans (hs.drawn n hmem) hseq

theorem filterMap_set {β γ : Type} {l : List β} {i : Nat} {x : β} (hi : l[i]? = some x) (y : β)
    (f : β → Option γ) :
    ((l.set i y).filterMap f).Perm ((f y).toList ++ (l.eraseIdx i).filterMap f) := by
  refine ((perm_set hi y).filterMap f).trans ?_
  rw [List.filterMap_cons]
  cases f y <;> exact List.Perm.refl _

theorem filterMap_perm_of_getElem? {β γ : Type} {l : List β} {i : Nat} {x : β}
    (hi : l[i]? = some x) (f : β → Option γ) :
    (l.filterMap f).Perm ((f x).toList ++ (l.eraseIdx i).filterMap f) := by
  refine ((perm_eraseIdx hi).filterMap f).trans ?_
  rw [List.filterMap_cons]
  cases f x <;> exact List.Perm.refl _

theorem seqInv_queueStep {cfg : QueueSettings} {s t : QueueState} {a : QueueAction}
    (hs : SeqInv s) (h : queueStep cfg s a = some t) : SeqInv t := by
  cases queueStep_cases h with
  | create | taken | fetch | fetchFailed | dispatch | release =>
    exact ⟨hs.nodup, hs.drawn⟩
  | @enqueue jobType reference priority =>
    refine hs.of_subperm ?_ (Nat.le_refl s.lastSeq)
    refine List.Perm.subperm (List.Perm.append_left _ ?_)
    rw [List.filterMap_append]
    exact List.Perm.of_eq (List.append_nil _)
  | @number i jobType reference rank hi =>
    -- the new number is larger than all others
    have hset := filterMap_set hi ⟨jobType, reference, rank, .numbered (s.lastSeq + 1)⟩
      Insertion.number
    have hold := filterMap_perm_of_getElem? hi Insertion.number
    have hperm : (s.queue.map OutboundJob.seq ++
        (s.inserting.set i ⟨jobType, reference, rank, .numbered (s.lastSeq + 1)⟩).filterMap
          Insertion.number).Perm ((s.lastSeq + 1) :: s.numbers) := by
      refine (hset.append_left _).trans ?_
      refine List.perm_middle.trans ((List.Perm.append_left _ ?_).cons _)
      exact hold.symm
    constructor
    · refine hperm.nodup_iff.mpr (List.nodup_cons.mpr ⟨?_, hs.nodup⟩)
      intro hmem
      have hle := hs.drawn _ hmem
      omega
    · intro n hn
      cases List.mem_cons.mp (hperm.subset hn) with
      | inl heq => exact Nat.le_of_eq heq
      | inr hmem => exact Nat.le_succ_of_le (hs.drawn n hmem)
  | @putFull i jobType reference rank seq hi =>
    refine hs.of_subperm ?_ (Nat.le_refl s.lastSeq)
    have hset := filterMap_set hi ⟨jobType, reference, rank, .full⟩ Insertion.number
    have hold := filterMap_perm_of_getElem? hi Insertion.number
    refine (List.subperm_append_left _).mpr ?_
    refine hset.subperm.trans (List.Subperm.trans ?_ hold.symm.subperm)
    exact (List.sublist_append_right _ _).subperm
  | @put i jobType reference rank seq hi =>
    refine hs.of_subperm ?_ (Nat.le_refl s.lastSeq)
    have hold := filterMap_perm_of_getElem? hi Insertion.number
    refine List.Perm.subperm ?_
    unfold QueueState.numbers
    rw [List.map_append, List.append_assoc]
    exact (hold.symm.append_left _)
  | @discard i jobType reference rank hi =>
    refine hs.of_subperm ?_ (Nat.le_refl s.lastSeq)
    have hold := filterMap_perm_of_getElem? hi Insertion.number
    exact (List.subperm_append_left _).mpr hold.symm.subperm
  | get _ hjob =>
    refine hs.of_subperm ?_ (Nat.le_refl s.lastSeq)
    apply List.Sublist.subperm
    exact List.Sublist.append_right (List.erase_sublist.map _) _

/-! ## A job that waits -/

/-- The job is queued, and the numbers are in order. -/
structure Waiting (job : OutboundJob) (s : QueueState) : Prop where
  queued : job ∈ s.queue
  seqs : SeqInv s

theorem Waiting.seq_le {job : OutboundJob} {s : QueueState} (h : Waiting job s) :
    job.seq ≤ s.lastSeq := by
  apply h.seqs.drawn
  exact List.mem_append_left _ (List.mem_map_of_mem h.queued)

/-- One call changes its phase. -/
theorem countP_set {β : Type} {l : List β} {i : Nat} {x : β} (hi : l[i]? = some x) (y : β)
    (p : β → Bool) : (l.set i y).countP p + (p x).toNat = l.countP p + (p y).toNat := by
  have hset := (perm_set hi y).countP_eq p
  have hold := (perm_eraseIdx hi).countP_eq p
  rw [List.countP_cons] at hset hold
  cases hx : p x <;> cases hy : p y <;> simp [hx, hy] at hset hold ⊢ <;> omega

theorem countP_eraseIdx {β : Type} {l : List β} {i : Nat} {x : β} (hi : l[i]? = some x)
    (p : β → Bool) : (l.eraseIdx i).countP p + (p x).toNat = l.countP p := by
  have hold := (perm_eraseIdx hi).countP_eq p
  rw [List.countP_cons] at hold
  cases hx : p x <;> simp [hx] at hold ⊢ <;> omega

/-- The job that is taken is the waiting one, or was ahead of it. -/
theorem before_of_nextJob {job next : OutboundJob} {s : QueueState} (hw : Waiting job s)
    (h : nextJob s.queue = some next) (hne : next ≠ job) : next.before job = true := by
  have hmin := not_before_nextJob h hw.queued
  -- two jobs of one rank are told apart by their numbers
  have hseq : next.seq ≠ job.seq := by
    intro heq
    apply hne
    refine List.inj_on_of_nodup_map (f := OutboundJob.seq) ?_ (nextJob_mem h) hw.queued heq
    exact hw.seqs.nodup.sublist (List.sublist_append_left _ _)
  simp only [OutboundJob.before, decide_eq_false_iff_not, decide_eq_true_eq] at hmin ⊢
  omega

theorem waiting_get {cfg : QueueSettings} {job next : OutboundJob} {s t : QueueState}
    (hw : Waiting job s) (hnext : nextJob s.queue = some next) (hne : next ≠ job)
    (ht : t = { s with queue := s.queue.erase next, handling := s.handling ++ [.taken next] })
    (h : queueStep cfg s .get = some t) :
    Waiting job t ∧ ahead job t + 1 = ahead job s := by
  subst ht
  refine ⟨⟨(List.mem_erase_of_ne hne.symm).mpr hw.queued, seqInv_queueStep hw.seqs h⟩, ?_⟩
  have hbefore := before_of_nextJob hw hnext hne
  have hperm := (List.perm_cons_erase (nextJob_mem hnext)).countP_eq (fun b => b.before job)
  rw [List.countP_cons, hbefore] at hperm
  simp only [ahead, if_true] at hperm ⊢
  omega

/-- What a step does to a job that waits: it is taken, or only a more urgent `enqueue` puts
    anything in front of it. -/
theorem waiting_queueStep {cfg : QueueSettings} (job : OutboundJob) (s : QueueState)
    (a : QueueAction) (t : QueueState) (hw : Waiting job s) (h : queueStep cfg s a = some t) :
    Takes job s a ∨ Waiting job t ∧
      ahead job t + a.isGet.toNat ≤ ahead job s + (a.outranks job).toNat := by
  have hseqs := seqInv_queueStep hw.seqs h
  cases queueStep_cases h with
  | create | taken | fetch | fetchFailed | dispatch | release =>
    exact Or.inr ⟨⟨hw.queued, hseqs⟩, Nat.le_add_right _ _⟩
  | @enqueue jobType reference priority =>
    refine Or.inr ⟨⟨hw.queued, hseqs⟩, ?_⟩
    simp only [ahead, List.countP_append, List.countP_singleton, mayPrecede_reserved,
      QueueAction.isGet, QueueAction.outranks]
    by_cases hrank : priorityRank priority < job.rank
    · simp [hrank]
      omega
    · simp [hrank]
  | @number i jobType reference rank hi =>
    refine Or.inr ⟨⟨hw.queued, hseqs⟩, ?_⟩
    -- the number is larger than that of the job, so only the rank counts
    have hlast := hw.seq_le
    have hsame : Insertion.mayPrecede ⟨jobType, reference, rank, .numbered (s.lastSeq + 1)⟩ job =
        Insertion.mayPrecede ⟨jobType, reference, rank, .reserved⟩ job := by
      simp only [mayPrecede_numbered, mayPrecede_reserved, OutboundJob.before, decide_eq_decide]
      omega
    have hcount := countP_set hi ⟨jobType, reference, rank, .numbered (s.lastSeq + 1)⟩
      (fun call => call.mayPrecede job)
    simp only [hsame] at hcount
    simp only [ahead, QueueAction.isGet, Bool.toNat_false]
    omega
  | @putFull i jobType reference rank seq hi =>
    refine Or.inr ⟨⟨hw.queued, hseqs⟩, ?_⟩
    have hcount := countP_set hi ⟨jobType, reference, rank, .full⟩
      (fun call => call.mayPrecede job)
    simp only [mayPrecede_full, Bool.toNat_false] at hcount
    simp only [ahead, QueueAction.isGet, Bool.toNat_false]
    omega
  | @put i jobType reference rank seq hi =>
    refine Or.inr ⟨⟨List.mem_append_left _ hw.queued, hseqs⟩, ?_⟩
    -- the job moves from the calls to the queue, and is counted in either place
    have hcount := countP_eraseIdx hi (fun call => call.mayPrecede job)
    simp only [mayPrecede_numbered] at hcount
    simp only [ahead, List.countP_append, List.countP_singleton, QueueAction.isGet,
      Bool.toNat_false]
    cases hb : OutboundJob.before ⟨rank, seq, jobType, reference⟩ job <;>
      simp [hb] at hcount ⊢ <;> omega
  | @discard i jobType reference rank hi =>
    refine Or.inr ⟨⟨hw.queued, hseqs⟩, ?_⟩
    have hcount := countP_eraseIdx hi (fun call => call.mayPrecede job)
    simp only [ahead, QueueAction.isGet, Bool.toNat_false]
    omega
  | @get next hlt hjob =>
    -- the smallest job is the waiting one, or one that was ahead of it is gone
    by_cases hne : next = job
    · exact Or.inl ⟨rfl, hne ▸ hjob⟩
    · obtain ⟨hwait, hahead⟩ := waiting_get hw hjob hne rfl h
      refine Or.inr ⟨hwait, ?_⟩
      simp only [QueueAction.isGet, Bool.toNat_true]
      omega

def firstJob : OutboundJob := ⟨2, 1, "outbound".toList, "1".toList⟩

/-- Both calls draw their number before one of them puts its job, and the second one is first. -/
def putInTurn : List QueueAction :=
  [.enqueue "outbound".toList "1".toList "normal".toList,
    .enqueue "outbound".toList "2".toList "normal".toList, .number 0, .number 1, .put 1, .put 0]

end HiWaveTel
