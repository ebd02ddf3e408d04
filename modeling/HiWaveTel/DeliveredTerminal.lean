import HiWaveTel.OutboxInterleaving

/- DELIVERED as a final status, in the interleaving of `OutboxInterleaving`. The schedule
   functions spare a DELIVERED job, but look at the copy of their lookup; `_finalize` looks
   at nothing. `delivered_at` is set together with DELIVERED and never taken back.

   `delivered_terminal_iff` — along a run every DELIVERED row stays DELIVERED and
   `delivered_at` tells the status exactly when no schedule call saves, and no worker
   finalizes a failed attempt, over a row that is DELIVERED at that moment. -/
namespace HiWaveTel
open Foundation

/-- `delivered_at` is set exactly on the DELIVERED rows. -/
def DatedWhenDelivered (jobs : JobTable) : Prop :=
  ∀ j ∈ jobs.rows, j.deliveredAt.isSome = true ↔ j.status = .delivered

instance (jobs : JobTable) : Decidable (DatedWhenDelivered jobs) :=
  inferInstanceAs (Decidable (∀ j ∈ jobs.rows, _))

/-- What a statement must not do to the table. -/
structure KeepsDelivered (jobs jobs' : JobTable) : Prop where
  delivered : ∀ p, IsDelivered p jobs → IsDelivered p jobs'
  dated : DatedWhenDelivered jobs'

/-! ## Statements on the table -/

theorem keepsDelivered_refl {jobs : JobTable} (h : DatedWhenDelivered jobs) :
    KeepsDelivered jobs jobs := ⟨fun _ hp => hp, h⟩

/-- An UPDATE that keeps a DELIVERED row and dates the rows it touches. -/
theorem keepsDelivered_updateWhere {jobs : JobTable} (h : DatedWhenDelivered jobs)
    {q : WebhookDeliveryJob → Bool} {u : RowUpdate WebhookDeliveryJob}
    (hu : ∀ j ∈ jobs.rows, q j = true → (j.status = .delivered → (u.set j).status = .delivered) ∧
      ((u.set j).deliveredAt.isSome = true ↔ (u.set j).status = .delivered)) :
    KeepsDelivered jobs (jobs.updateWhere q u) := by
  refine ⟨?_, ?_⟩
  · intro p hp
    obtain ⟨j, hj, rfl, hst⟩ := hp
    refine ⟨_, Table.mem_updateWhere.mpr ⟨j, hj, rfl⟩, ?_⟩
    by_cases hq : q j = true
    · rw [if_pos hq]
      exact ⟨u.pk_set j, (hu j hj hq).1 hst⟩
    · rw [if_neg hq]
      exact ⟨rfl, hst⟩
  · intro r hr
    obtain ⟨j, hj, rfl⟩ := Table.mem_updateWhere.mp hr
    by_cases hq : q j = true
    · rw [if_pos hq]
      exact (hu j hj hq).2
    · rw [if_neg hq]
      exact h j hj

/-- An UPDATE by key of a row that is not DELIVERED, to a status that is not. -/
theorem keepsDelivered_update {jobs : JobTable} (h : DatedWhenDelivered jobs) {p : Nat}
    {u : RowUpdate WebhookDeliveryJob} (hp : ¬ IsDelivered p jobs)
    (hu : ∀ j, (u.set j).deliveredAt = j.deliveredAt ∧ (u.set j).status ≠ .delivered) :
    KeepsDelivered jobs (jobs.update p u) := by
  apply keepsDelivered_updateWhere h
  intro j hj hq
  have hnot : j.status ≠ .delivered := fun hst => hp ⟨j, hj, by simpa using hq, hst⟩
  have hdate := h j hj
  refine ⟨fun hst => absurd hst hnot, ?_⟩
  rw [(hu j).1, hdate]
  exact iff_of_false hnot (hu j).2

/-- An UPDATE of a DELIVERED row to another status takes DELIVERED back. -/
theorem not_keepsDelivered_update {jobs : JobTable} {p : Nat} {u : RowUpdate WebhookDeliveryJob}
    (hp : IsDelivered p jobs) (hu : ∀ j, (u.set j).status ≠ .delivered) :
    ¬ KeepsDelivered jobs (jobs.update p u) := by
  intro hkeeps
  obtain ⟨r, hr, hpk, hst⟩ := hkeeps.delivered p hp
  obtain ⟨j, _, _, rfl⟩ | ⟨_, hne⟩ := Table.mem_update.mp hr
  · exact hu j hst
  · exact hne hpk

theorem keepsDelivered_lookup {jobs : JobTable} (h : DatedWhenDelivered jobs) (kind : JobKind)
    (smsPk now : Nat) : KeepsDelivered jobs (scheduleLookup kind jobs smsPk now).1 := by
  unfold scheduleLookup
  rcases jobs.getOrCreate_cases (newJob kind smsPk now) with ⟨r, _, he⟩ | ⟨hnew, he⟩
  · rw [he]
    exact keepsDelivered_refl h
  · rw [he]
    refine ⟨?_, ?_⟩
    · intro p hp
      obtain ⟨j, hj, hpk⟩ := hp
      exact ⟨j, List.mem_append_left _ hj, hpk⟩
    · intro r hr
      rcases List.mem_append.mp hr with hr | hr
      · exact h r hr
      · rw [List.mem_singleton.mp hr]
        exact iff_of_false Bool.noConfusion JobStatus.noConfusion

/-- The save of a schedule call. -/
theorem keepsDelivered_scheduleSave {jobs : JobTable} (h : DatedWhenDelivered jobs)
    (job : WebhookDeliveryJob) (created : Bool) (now : Nat) :
    KeepsDelivered jobs (scheduleSave jobs job created now) ↔
      (scheduleSaves job created = true → ¬ IsDelivered job.pk jobs) := by
  unfold scheduleSave
  by_cases hsaves : scheduleSaves job created = true
  · rw [if_pos hsaves]
    refine ⟨?_, fun hnot => ?_⟩
    · intro hkeeps _ hp
      exact not_keepsDelivered_update hp (fun _ => JobStatus.noConfusion) hkeeps
    · exact keepsDelivered_update h (hnot hsaves) (fun _ => ⟨rfl, JobStatus.noConfusion⟩)
  · rw [if_neg hsaves]
    exact iff_of_true (keepsDelivered_refl h) (fun hs => absurd hs hsaves)

theorem finalized_of_failed (env : WebhookEnv) (job : WebhookDeliveryJob) (now : Nat) :
    (finalized env job false now).status ≠ .delivered := by
  unfold finalized
  rw [if_neg Bool.false_ne_true]
  split_ifs <;> exact JobStatus.noConfusion

/-- The save of `_finalize`. -/
theorem keepsDelivered_finalizeSave (env : WebhookEnv) {jobs : JobTable}
    (h : DatedWhenDelivered jobs) (job : WebhookDeliveryJob) (ok : Bool) (now : Nat) :
    KeepsDelivered jobs (finalizeSave env jobs job ok now) ↔
      (ok = false → ¬ IsDelivered job.pk jobs) := by
  unfold finalizeSave
  simp only [finalized_pk]
  cases ok with
  | true =>
    refine iff_of_true ?_ (fun hf => Bool.noConfusion hf)
    apply keepsDelivered_updateWhere h
    intro j _ _
    exact ⟨fun _ => rfl, iff_of_true rfl rfl⟩
  | false =>
    refine ⟨?_, fun hnot => ?_⟩
    · intro hkeeps _ hp
      exact not_keepsDelivered_update hp (fun _ => finalized_of_failed env job now) hkeeps
    · exact keepsDelivered_update h (hnot rfl) (fun _ => ⟨rfl, finalized_of_failed env job now⟩)

section Step
variable {ω κ : Type}

/-! ## Steps of the threads -/

/-- The step leaves every DELIVERED row DELIVERED, and `delivered_at` with its status. -/
def StepKeepsDelivered [DecidableEq ω] [DecidableEq κ] (env : WebhookEnv) (s : OutboxState ω κ)
    (a : OutboxAction ω κ) : Prop :=
  ∀ t, outboxStep env s a = some t → KeepsDelivered s.jobs t.jobs

/-- No schedule call saves, and no worker finalizes a failed attempt, over a DELIVERED row. -/
def SparesDelivered (s : OutboxState ω κ) : OutboxAction ω κ → Prop
  | .save c _ => ∀ job ∈ (s.caller c).saving?, ¬ IsDelivered job.pk s.jobs
  | .finalize w _ =>
    match s.worker w with
    | .attempting job false => ¬ IsDelivered job.pk s.jobs
    | _ => True
  | _ => True

/-- A statement other than those two keeps DELIVERED in any case. -/
theorem keepsDelivered_otherStep [DecidableEq ω] [DecidableEq κ] {env : WebhookEnv}
    {s t : OutboxState ω κ} {a : OutboxAction ω κ} (h : DatedWhenDelivered s.jobs)
    (hmove : OutboxMove env s a t) (hsave : ∀ c now, a ≠ .save c now)
    (hfinalize : ∀ w now, a ≠ .finalize w now) : KeepsDelivered s.jobs t.jobs := by
  cases hmove with
  | save => exact absurd rfl (hsave _ _)
  | finalize => exact absurd rfl (hfinalize _ _)
  | lookup =>
    rw [record_jobs]
    exact keepsDelivered_lookup h _ _ _
  | claimNone | abort => exact keepsDelivered_refl h
  | claim _ hj hs =>
    refine keepsDelivered_update h ?_ (fun _ => ⟨rfl, JobStatus.noConfusion⟩)
    intro hp
    obtain ⟨r, hr, hpk, hst⟩ := hp
    rw [s.jobs.pk_injOn hr hj hpk, hs] at hst
    cases hst
  | bump =>
    apply keepsDelivered_updateWhere h
    intro j hj _
    exact ⟨id, h j hj⟩
  | read =>
    rw [record_jobs]
    exact keepsDelivered_refl h
  | resetStale =>
    apply keepsDelivered_updateWhere h
    intro j hj hq
    have hst : j.status = .processing := by
      simpa using (Bool.and_eq_true_iff.mp hq).1
    have hnot : j.status ≠ .delivered := by
      rw [hst]
      exact JobStatus.noConfusion
    exact ⟨fun hd => absurd hd hnot, (h j hj).trans (iff_of_false hnot JobStatus.noConfusion)⟩

theorem stepKeepsDelivered_iff [DecidableEq ω] [DecidableEq κ] {env : WebhookEnv}
    {s : OutboxState ω κ} (h : DatedWhenDelivered s.jobs) (a : OutboxAction ω κ) :
    StepKeepsDelivered env s a ↔ SparesDelivered s a := by
  cases a with
  | save c now =>
    cases hc : s.caller c with
    | idle =>
      simp [StepKeepsDelivered, SparesDelivered, outboxStep, hc, CallerPhase.saving?]
    | looked job created =>
      have hkeeps := keepsDelivered_scheduleSave h job created now
      simp only [StepKeepsDelivered, SparesDelivered, outboxStep, hc, Option.some.injEq,
        forall_eq', record_jobs, setCaller_jobs, hkeeps, CallerPhase.saving?]
      by_cases hsaves : scheduleSaves job created = true <;> simp [hsaves]
  | finalize w now =>
    cases hw : s.worker w with
    | attempting job ok =>
      have hkeeps := keepsDelivered_finalizeSave env h job ok now
      have hstep : StepKeepsDelivered env s (.finalize w now) ↔
          (ok = false → ¬ IsDelivered job.pk s.jobs) := by
        simp only [StepKeepsDelivered, outboxStep, hw, Option.some.injEq, forall_eq', record_jobs]
        exact hkeeps
      rw [hstep]
      cases ok <;> simp [SparesDelivered, hw]
    | idle => simp [StepKeepsDelivered, SparesDelivered, outboxStep, hw]
    | claimed job => simp [StepKeepsDelivered, SparesDelivered, outboxStep, hw]
    | bumped job => simp [StepKeepsDelivered, SparesDelivered, outboxStep, hw]
  | lookup | claim | bump | read | abort | resetStale =>
    refine iff_of_true ?_ trivial
    intro t ht
    refine keepsDelivered_otherStep h (outboxStep_cases ht) ?_ ?_
    · intro _ _ heq
      cases heq
    · intro _ _ heq
      cases heq

/-- From any table with `delivered_at` set on the DELIVERED rows, and wherever the threads
    are: DELIVERED is terminal along a run, and `delivered_at` tells it in every state,
    exactly when every step of the run spares the DELIVERED rows. -/
theorem delivered_terminal_iff [DecidableEq ω] [DecidableEq κ] (env : WebhookEnv)
    {s : OutboxState ω κ} (h : DatedWhenDelivered s.jobs) (as : List (OutboxAction ω κ)) :
    Meets (outboxStep env) (StepKeepsDelivered env) s as ↔
      Meets (outboxStep env) SparesDelivered s as := by
  have hkeep : ∀ (s : OutboxState ω κ) a t, DatedWhenDelivered s.jobs →
      StepKeepsDelivered env s a → outboxStep env s a = some t → DatedWhenDelivered t.jobs :=
    fun s a t _ hstep ht => (hstep t ht).dated
  constructor
  · apply Meets.mono_of_invariant (I := fun s => DatedWhenDelivered s.jobs) hkeep ?_ h
    exact fun s a hs hstep => (stepKeepsDelivered_iff hs a).mp hstep
  · apply Meets.mono_of_invariant (I := fun s => DatedWhenDelivered s.jobs) ?_ ?_ h
    · exact fun s a t hs hstep ht => hkeep s a t hs ((stepKeepsDelivered_iff hs a).mpr hstep) ht
    · exact fun s a hs hstep => (stepKeepsDelivered_iff hs a).mpr hstep

end Step

/-- A schedule call looks the job up, a worker delivers it, and then the call saves. -/
def deliveredAndReactivated : List (OutboxAction Unit Unit) :=
  [.lookup () .inbound 1 10, .save () 10, .lookup () .inbound 1 20, .claim () 30, .bump () 40,
    .read () (fun _ _ => true) inboxOk Table.empty, .finalize () 50]

theorem delivered_can_be_taken_back :
    ¬ ∀ (env : WebhookEnv) (jobs : JobTable) (as : List (OutboxAction Unit Unit)),
      DatedWhenDelivered jobs →
      Meets (outboxStep env) (StepKeepsDelivered env) (OutboxState.start jobs) as := by
  intro h
  have hmeets := h defaultEnv Table.empty (deliveredAndReactivated ++ [.save () 60]) (by decide)
  have hrun : (exec (outboxStep defaultEnv) (OutboxState.start Table.empty)
      deliveredAndReactivated).map (fun s => (decide (IsDelivered 1 s.jobs),
        (outboxStep defaultEnv s (.save () 60)).map (fun t => decide (IsDelivered 1 t.jobs)))) =
      some (true, some false) := by decide
  obtain ⟨s, hs, hshape⟩ := Option.map_eq_some_iff.mp hrun
  obtain ⟨hbefore, hafter⟩ := Prod.mk.inj hshape
  obtain ⟨t, ht, hnot⟩ := Option.map_eq_some_iff.mp hafter
  have hstep := ((meets_append.mp hmeets).2 s hs).1 t ht
  have hstill := hstep.delivered 1 (of_decide_eq_true hbefore)
  exact of_decide_eq_false hnot hstill

/-- A schedule call after the delivery finds the job DELIVERED and leaves it alone. -/
theorem delivered_terminal_iff_late_call :
    Meets (outboxStep defaultEnv) (StepKeepsDelivered defaultEnv)
        (OutboxState.start Table.empty : OutboxState Unit Unit)
        (deliveredAndReactivated ++ [.lookup () .inbound 1 60]) ↔
      Meets (outboxStep defaultEnv) SparesDelivered (OutboxState.start Table.empty)
        (deliveredAndReactivated ++ [.lookup () .inbound 1 60]) :=
  delivered_terminal_iff defaultEnv (by decide) _

end HiWaveTel
