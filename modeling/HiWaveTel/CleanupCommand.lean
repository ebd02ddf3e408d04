import HiWaveTel.StorageRotation
import HiWaveTel.Foundation.Counting
import Mathlib.Algebra.Order.BigOperators.Group.Finset

/- The command `cleanup_sms_storage`. For each modem index that its query returns it deletes one
   slice of the rows behind the limit. The query is `distinct()`, but the column of the default
   ordering takes part, so that an index is returned once for each `created_at`, and what is
   deleted of a modem depends on how many of these there are.

   `cleanup_keeps_newest_iff`: the newest rows stay, and no more than the limit, exactly when
   the slices are long enough together. `cleanup_dry_run_iff`: the dry run, whose rows
   never get fewer, is right exactly when each slice is as long as the first one, or there is
   but one, and no webhook job goes with the rows. -/
namespace HiWaveTel
open Foundation

/-- The answers of the database to `order_by('-created_at')`. -/
abbrev CreatedOrder (ρ : Type) [SmsRow ρ] := NewestFirst (fun r : ρ => SmsRow.createdAt r)

section Model
variable {ρ : Type} [SmsRow ρ] (db : CreatedOrder ρ)

/-- `qs.values_list('modem_index', flat=True).distinct()`, with the column of the ordering. -/
def distinctModemIndexes (modemIndex : Option Nat) (t : Table ρ) : List Nat :=
  let rows := t.rows.filter (fun r => modemIndex.all (· == SmsRow.modemIndex r))
  ((db.order rows).map (fun r => (SmsRow.modemIndex r, SmsRow.createdAt r))).dedup.map Prod.fst

/-- The first value of `.delete()`: the rows, and the webhook jobs that go with them. -/
def deletedCount (pks : List Nat) (s : Table ρ × JobTable) : Nat :=
  s.1.rows.countP (fun r => pks.contains (Row.pk r)) +
    s.2.rows.countP (fun j => (SmsRow.jobRef ρ j).any pks.contains)

/-- The body of the loop. -/
def rotateVisit (limit batchSize : Nat) (dryRun : Bool) (state : (Table ρ × JobTable) × Nat)
    (idx : Nat) : (Table ρ × JobTable) × Nat :=
  let (s, deleted) := state
  let rows := modemRows idx s.1
  if rows.length ≤ limit then (s, deleted)      -- overflow <= 0
  else
    let pks := (((db.order rows).drop limit).take batchSize).map Row.pk
    if pks = [] then (s, deleted)
    else if dryRun then (s, deleted + pks.length)
    else (deleteRows pks s, deleted + deletedCount pks s)

/-- `_rotate_model`. -/
def rotateModel (limit batchSize : Nat) (modemIndex : Option Nat) (dryRun : Bool)
    (s : Table ρ × JobTable) : (Table ρ × JobTable) × Nat :=
  (distinctModemIndexes db modemIndex s.1).foldl (rotateVisit db limit batchSize dryRun) (s, 0)

end Model

structure CleanupSettings where
  rotationEnabled : Bool
  maxMessagesPerModem : Int
  rotationBatchSize : Nat
  deriving DecidableEq, Repr

structure CleanupOptions where
  dryRun : Bool
  force : Bool
  modemIndex : Option Nat
  deriving DecidableEq, Repr

structure CleanupReport where
  dryRun : Bool
  inboundDeleted : Nat
  outboundDeleted : Nat
  perTypeLimit : Nat
  deriving DecidableEq, Repr

/-- The line that the command writes. -/
def CleanupReport.text (r : CleanupReport) : Str :=
  (if r.dryRun then "Would delete".toList else "Deleted".toList) ++
    " inbound=".toList ++ (toString r.inboundDeleted).toList ++
    " outbound=".toList ++ (toString r.outboundDeleted).toList ++
    " (limit per type per modem=".toList ++ (toString r.perTypeLimit).toList ++ ").".toList

/-- How the database answers for each model. -/
structure CleanupDb where
  inbound : CreatedOrder InboundSms
  outbound : CreatedOrder OutboundSms

/-- `Command.handle`; no report where the rotation is disabled. -/
def cleanupSmsStorage (db : CleanupDb) (cfg : CleanupSettings) (options : CleanupOptions)
    (w : World) : World × Option CleanupReport :=
  if cfg.rotationEnabled = false ∧ options.force = false then (w, none)
  else
    let limit := perTypeLimit cfg.maxMessagesPerModem
    let ((inbound, jobs), inboundDeleted) := rotateModel db.inbound limit cfg.rotationBatchSize
      options.modemIndex options.dryRun (w.inbound, w.jobs)
    let ((outbound, jobs), outboundDeleted) := rotateModel db.outbound limit
      cfg.rotationBatchSize options.modemIndex options.dryRun (w.outbound, jobs)
    ({ w with inbound := inbound, outbound := outbound, jobs := jobs },
      some ⟨options.dryRun, inboundDeleted, outboundDeleted, limit⟩)

/-! ## One visit -/

section Visit
variable {ρ : Type} [SmsRow ρ] (db : CreatedOrder ρ) (limit batchSize : Nat)

/-- The keys of the slice behind the limit. -/
def slicePks (idx : Nat) (t : Table ρ) : List Nat :=
  (slice db limit batchSize (modemRows idx t)).map Row.pk

theorem deletedCount_nil (s : Table ρ × JobTable) : deletedCount [] s = 0 := by
  have hjobs : s.2.rows.countP (fun j => (SmsRow.jobRef ρ j).any ([] : List Nat).contains) = 0 := by
    apply List.countP_eq_zero.mpr
    intro j _
    cases SmsRow.jobRef ρ j <;> simp
  rw [deletedCount, hjobs]
  simp

theorem slicePks_of_le {idx : Nat} {t : Table ρ} (h : (modemRows idx t).length ≤ limit) :
    slicePks db limit batchSize idx t = [] := by
  have hlen : (slice db limit batchSize (modemRows idx t)).length =
      min batchSize ((modemRows idx t).length - limit) := length_slice _
  apply List.map_eq_nil_iff.mpr
  apply List.eq_nil_of_length_eq_zero
  omega

theorem rotateVisit_real (s : Table ρ × JobTable) (deleted idx : Nat) :
    rotateVisit db limit batchSize false (s, deleted) idx =
      (deleteRows (slicePks db limit batchSize idx s.1) s,
        deleted + deletedCount (slicePks db limit batchSize idx s.1) s) := by
  simp only [rotateVisit]
  split
  · next hle => rw [slicePks_of_le db limit batchSize hle, deleteRows_nil, deletedCount_nil]; rfl
  · show (if slicePks db limit batchSize idx s.1 = [] then _ else _) = _
    split
    · next hnil => rw [hnil, deleteRows_nil, deletedCount_nil]; rfl
    · rfl

theorem rotateVisit_dry (s : Table ρ × JobTable) (deleted idx : Nat) :
    rotateVisit db limit batchSize true (s, deleted) idx =
      (s, deleted + min batchSize ((modemRows idx s.1).length - limit)) := by
  have hlen : (slicePks db limit batchSize idx s.1).length =
      min batchSize ((modemRows idx s.1).length - limit) := by
    rw [slicePks, List.length_map, length_slice]
  simp only [rotateVisit]
  split
  · next hle => rw [← hlen, slicePks_of_le db limit batchSize hle]; rfl
  · rw [← hlen]
    show (if slicePks db limit batchSize idx s.1 = [] then _ else _) = _
    split
    · next hnil => rw [hnil]; rfl
    · rfl

theorem slice_subset (idx : Nat) (t : Table ρ) :
    slice db limit batchSize (modemRows idx t) ⊆ modemRows idx t := (slice_subperm _).subset

/-! ## All visits -/

theorem deletedCount_append (ms ns : List Nat) (s : Table ρ × JobTable) :
    deletedCount ms s + deletedCount ns (deleteRows ms s) = deletedCount (ms ++ ns) s := by
  have hrows := countP_add_countP_filter (fun r => ms.contains (Row.pk r))
    (fun r => ns.contains (Row.pk r)) s.1.rows
  have hjobs := countP_add_countP_filter (fun j => (SmsRow.jobRef ρ j).any ms.contains)
    (fun j => (SmsRow.jobRef ρ j).any ns.contains) s.2.rows
  have hany : ∀ x : Option Nat,
      (x.any ms.contains || x.any ns.contains) = x.any (ms ++ ns).contains := by
    intro x
    cases x <;> simp
  simp only [← List.contains_append, hany] at hrows hjobs
  simp only [deletedCount, deleteRows, Table.deleteWhere, ← hrows, ← hjobs]
  omega

/-- All that a real run deletes is one set of keys, each of a row of the table. -/
theorem rotateVisits_real (is : List Nat) (s : Table ρ × JobTable) (deleted : Nat) :
    ∃ pks, (∀ pk ∈ pks, ∃ r ∈ s.1.rows, Row.pk r = pk) ∧
      is.foldl (rotateVisit db limit batchSize false) (s, deleted) =
        (deleteRows pks s, deleted + deletedCount pks s) := by
  induction is generalizing s deleted with
  | nil => exact ⟨[], by simp, by rw [deleteRows_nil, deletedCount_nil]; rfl⟩
  | cons idx is ih =>
    obtain ⟨pks, hpks, hrun⟩ := ih (deleteRows (slicePks db limit batchSize idx s.1) s)
      (deleted + deletedCount (slicePks db limit batchSize idx s.1) s)
    refine ⟨slicePks db limit batchSize idx s.1 ++ pks, ?_, ?_⟩
    · intro pk hpk
      rcases List.mem_append.mp hpk with hpk | hpk
      · obtain ⟨r, hr, hname⟩ := List.mem_map.mp hpk
        exact ⟨r, (List.mem_filter.mp (slice_subset db limit batchSize idx s.1 hr)).1, hname⟩
      · obtain ⟨r, hr, hname⟩ := hpks pk hpk
        exact ⟨r, (Table.mem_deleteWhere.mp hr).1, hname⟩
    · rw [List.foldl_cons, rotateVisit_real, hrun, deleteRows_deleteRows, Nat.add_assoc,
        deletedCount_append]

/-- The rows of a modem lose a slice with each visit of its index. -/
theorem modemRows_rotateVisits (is : List Nat) (s : Table ρ × JobTable) (deleted i : Nat) :
    modemRows i (is.foldl (rotateVisit db limit batchSize false) (s, deleted)).1.1 =
      (trim Row.pk db limit batchSize)^[is.count i] (modemRows i s.1) := by
  induction is generalizing s deleted with
  | nil => rfl
  | cons idx is ih =>
    rw [List.foldl_cons, rotateVisit_real, ih, List.count_cons]
    by_cases hi : i = idx
    · subst hi
      rw [modemRows_deleteRows, if_pos (beq_self_eq_true i), Function.iterate_succ_apply]
      rfl
    · rw [slicePks, modemRows_deleteRows_of_ne hi (slice_subset db limit batchSize idx s.1),
        if_neg (by simpa using Ne.symm hi), Nat.add_zero]

/-- A dry run counts the first slice of a modem with each visit. -/
theorem rotateVisits_dry (is : List Nat) (s : Table ρ × JobTable) (deleted : Nat) :
    is.foldl (rotateVisit db limit batchSize true) (s, deleted) =
      (s, deleted + (is.map (fun i => min batchSize ((modemRows i s.1).length - limit))).sum) := by
  induction is generalizing deleted with
  | nil => rfl
  | cons idx is ih =>
    rw [List.foldl_cons, rotateVisit_dry, ih, List.map_cons, List.sum_cons, Nat.add_assoc]

/-! ## How often a modem is visited -/

/-- The timestamps of the rows of a modem. -/
def distinctTimes (i : Nat) (t : Table ρ) : List Nat :=
  ((modemRows i t).map SmsRow.createdAt).dedup

/-- Once for each timestamp, if the command is to look at the modem. -/
def visitCount (modemIndex : Option Nat) (i : Nat) (t : Table ρ) : Nat :=
  if modemIndex.all (· == i) then (distinctTimes i t).length else 0

theorem count_distinctModemIndexes (modemIndex : Option Nat) (t : Table ρ) (i : Nat) :
    (distinctModemIndexes db modemIndex t).count i = visitCount modemIndex i t := by
  rw [distinctModemIndexes, List.count_eq_countP, List.countP_map, List.countP_eq_length_filter,
    visitCount]
  split
  · next hsel =>
    have hinj : Function.Injective (fun c : Nat => (i, c)) := fun _ _ h => (Prod.mk.inj h).2
    have hlen : ((distinctTimes i t).map (fun c => (i, c))).length = (distinctTimes i t).length :=
      List.length_map _
    rw [← hlen]
    apply List.Perm.length_eq
    apply (List.perm_ext_iff_of_nodup ((List.nodup_dedup _).filter _)
      ((List.nodup_dedup _).map hinj)).mpr
    intro x
    obtain ⟨j, c⟩ := x
    simp only [List.mem_filter, List.mem_dedup, List.mem_map, (db.perm _).mem_iff,
      modemRows, Function.comp_apply, beq_iff_eq, Prod.mk.injEq]
    constructor
    · intro h
      obtain ⟨⟨r, ⟨hr, _⟩, rfl, rfl⟩, rfl⟩ := h
      exact ⟨_, ⟨r, ⟨hr, rfl⟩, rfl⟩, rfl, rfl⟩
    · intro h
      obtain ⟨_, ⟨r, ⟨hr, rfl⟩, rfl⟩, rfl, rfl⟩ := h
      exact ⟨⟨r, ⟨hr, hsel⟩, rfl, rfl⟩, rfl⟩
  · next hsel =>
    apply List.length_eq_zero_iff.mpr
    apply List.filter_eq_nil_iff.mpr
    intro x hx hi
    simp only [List.mem_dedup, List.mem_map, (db.perm _).mem_iff, List.mem_filter] at hx
    obtain ⟨r, ⟨_, hall⟩, rfl⟩ := hx
    rw [Function.comp_apply, beq_iff_eq] at hi
    exact hsel (hi ▸ hall)

theorem exists_row_of_mem_distinctModemIndexes {modemIndex : Option Nat} {t : Table ρ} {i : Nat}
    (h : i ∈ distinctModemIndexes db modemIndex t) : ∃ r ∈ t.rows, SmsRow.modemIndex r = i := by
  simp only [distinctModemIndexes, List.mem_map, List.mem_dedup, (db.perm _).mem_iff,
    List.mem_filter] at h
  obtain ⟨_, ⟨r, ⟨hr, _⟩, rfl⟩, hi⟩ := h
  exact ⟨r, hr, hi⟩

/-! ## The run for one model -/

variable (modemIndex : Option Nat) (s : Table ρ × JobTable)

theorem modemRows_rotateModel (i : Nat) :
    modemRows i (rotateModel db limit batchSize modemIndex false s).1.1 =
      (trim Row.pk db limit batchSize)^[visitCount modemIndex i s.1] (modemRows i s.1) := by
  rw [rotateModel, modemRows_rotateVisits, count_distinctModemIndexes]

/-- The modems of a table. -/
def modemIndexes (t : Table ρ) : Finset Nat := (t.rows.map SmsRow.modemIndex).toFinset

theorem length_eq_sum_modemRows {t : Table ρ} {S : Finset Nat}
    (hS : ∀ r ∈ t.rows, SmsRow.modemIndex r ∈ S) :
    ∑ i ∈ S, (modemRows i t).length = t.rows.length := by
  have hmem : ∀ i ∈ t.rows.map SmsRow.modemIndex, i ∈ S := by
    intro i hi
    obtain ⟨r, hr, rfl⟩ := List.mem_map.mp hi
    exact hS r hr
  calc ∑ i ∈ S, (modemRows i t).length
      = ∑ i ∈ S, (t.rows.map SmsRow.modemIndex).count i * 1 := by
        apply Finset.sum_congr rfl
        intro i _
        rw [Nat.mul_one, List.count_eq_countP, List.countP_map, modemRows,
          List.countP_eq_length_filter]
        rfl
    _ = t.rows.length := by
        rw [sum_count_mul hmem (fun _ => 1), List.map_map]
        simp [Function.comp_def]

/-- What a dry run counts, modem by modem. -/
theorem rotateModel_dry :
    rotateModel db limit batchSize modemIndex true s =
      (s, ∑ i ∈ modemIndexes s.1, visitCount modemIndex i s.1 *
        min batchSize ((modemRows i s.1).length - limit)) := by
  have hmem : ∀ i ∈ distinctModemIndexes db modemIndex s.1, i ∈ modemIndexes s.1 := by
    intro i hi
    obtain ⟨r, hr, rfl⟩ := exists_row_of_mem_distinctModemIndexes db hi
    exact List.mem_toFinset.mpr (List.mem_map_of_mem hr)
  rw [rotateModel, rotateVisits_dry, Nat.zero_add, ← sum_count_mul hmem]
  simp only [count_distinctModemIndexes]

/-- What a real run deletes, modem by modem. -/
theorem length_rotateModel :
    (rotateModel db limit batchSize modemIndex false s).1.1.rows.length +
        ∑ i ∈ modemIndexes s.1, min (visitCount modemIndex i s.1 * batchSize)
          ((modemRows i s.1).length - limit) = s.1.rows.length := by
  have hbefore : ∀ r ∈ s.1.rows, SmsRow.modemIndex r ∈ modemIndexes s.1 :=
    fun r hr => List.mem_toFinset.mpr (List.mem_map_of_mem hr)
  have hafter : ∀ r ∈ (rotateModel db limit batchSize modemIndex false s).1.1.rows,
      SmsRow.modemIndex r ∈ modemIndexes s.1 := by
    obtain ⟨pks, _, hrun⟩ := rotateVisits_real db limit batchSize
      (distinctModemIndexes db modemIndex s.1) s 0
    intro r hr
    rw [rotateModel, hrun] at hr
    exact hbefore r (Table.mem_deleteWhere.mp hr).1
  rw [← length_eq_sum_modemRows hbefore, ← length_eq_sum_modemRows hafter,
    ← Finset.sum_add_distrib]
  apply Finset.sum_congr rfl
  intro i _
  rw [modemRows_rotateModel, length_iterate_trim (nodup_pk_modemRows i s.1)]
  omega

/-- No webhook job belongs to a row that the slices cut off. -/
def NoJobCut : Prop := ∀ j ∈ s.2.rows, ∀ r ∈ s.1.rows, SmsRow.jobRef ρ j = some (Row.pk r) →
  r ∈ (trim Row.pk db limit batchSize)^[visitCount modemIndex (SmsRow.modemIndex r) s.1]
    (modemRows (SmsRow.modemIndex r) s.1)

/-- A real run reports the rows that are gone, and the jobs; which are none if `NoJobCut`. -/
theorem rotateModel_report :
    ((rotateModel db limit batchSize modemIndex false s).1.1.rows.length +
        (rotateModel db limit batchSize modemIndex false s).2 = s.1.rows.length ↔
      NoJobCut db limit batchSize modemIndex s) ∧
    (NoJobCut db limit batchSize modemIndex s →
      (rotateModel db limit batchSize modemIndex false s).1.2 = s.2) := by
  obtain ⟨pks, hpks, hrun⟩ := rotateVisits_real db limit batchSize
    (distinctModemIndexes db modemIndex s.1) s 0
  have hstays : ∀ r ∈ s.1.rows, r ∈ (trim Row.pk db limit batchSize)^[visitCount modemIndex
      (SmsRow.modemIndex r) s.1] (modemRows (SmsRow.modemIndex r) s.1) ↔ Row.pk r ∉ pks := by
    intro r hr
    rw [← modemRows_rotateModel, rotateModel, hrun, modemRows_deleteRows, mem_without]
    exact and_iff_right (List.mem_filter.mpr ⟨hr, beq_self_eq_true _⟩)
  have hnone : NoJobCut db limit batchSize modemIndex s ↔
      ∀ j ∈ s.2.rows, ¬ (SmsRow.jobRef ρ j).any pks.contains = true := by
    apply forall₂_congr
    intro j _
    cases SmsRow.jobRef ρ j with
    | none => simp
    | some pk =>
      rw [Option.any_some, List.contains_iff_mem]
      constructor
      · intro h hpk
        obtain ⟨r, hr, rfl⟩ := hpks pk hpk
        exact (hstays r hr).mp (h r hr rfl) hpk
      · intro h r hr href
        cases href
        exact (hstays r hr).mpr h
  have hsplit : s.1.rows.length = s.1.rows.countP (fun r => pks.contains (Row.pk r)) +
      (deleteRows pks s).1.rows.length := by
    rw [List.countP_eq_length_filter]
    exact List.length_eq_length_filter_add _
  rw [rotateModel, hrun, hnone, ← List.countP_eq_zero]
  refine ⟨?_, ?_⟩
  · simp only [deletedCount]
    omega
  · intro hzero
    refine Table.ext (List.filter_eq_self.mpr ?_) rfl
    intro j hj
    rw [Bool.not_eq_true', ← Bool.not_eq_true]
    exact List.countP_eq_zero.mp hzero j hj

theorem min_mul_le (c b v : Nat) : min (c * b) v ≤ c * min b v := by
  cases c with
  | zero => simp
  | succ c =>
    rw [← Nat.mul_min_mul_left]
    exact min_le_min_left _ (Nat.le_mul_of_pos_left v (Nat.succ_pos c))

theorem min_mul_eq_iff (c b v : Nat) :
    min (c * b) v = c * min b v ↔ v = 0 ∨ c ≤ 1 ∨ c * b ≤ v := by
  match c with
  | 0 => simp
  | 1 => simp
  | c + 2 =>
    have htwice : 2 * v ≤ (c + 2) * v := Nat.mul_le_mul_right v (Nat.le_add_left 2 c)
    have hzero : v = 0 → (c + 2) * v = 0 := fun hv => by rw [hv, Nat.mul_zero]
    rw [← Nat.mul_min_mul_left]
    omega

/-- The slices of a modem are all as long as the first one. -/
def EvenSlices (i : Nat) (t : Table ρ) : Prop :=
  (modemRows i t).length ≤ limit ∨ visitCount modemIndex i t ≤ 1 ∨
    visitCount modemIndex i t * batchSize ≤ (modemRows i t).length - limit

theorem rotateModel_predicted_iff :
    (rotateModel db limit batchSize modemIndex false s).1.1.rows.length +
        (rotateModel db limit batchSize modemIndex true s).2 = s.1.rows.length ↔
      ∀ i, EvenSlices limit batchSize modemIndex i s.1 := by
  have hgone := length_rotateModel db limit batchSize modemIndex s
  rw [rotateModel_dry]
  calc _ ↔ ∑ i ∈ modemIndexes s.1, min (visitCount modemIndex i s.1 * batchSize)
            ((modemRows i s.1).length - limit) =
          ∑ i ∈ modemIndexes s.1, visitCount modemIndex i s.1 *
            min batchSize ((modemRows i s.1).length - limit) := by
        simp only []
        omega
    _ ↔ ∀ i ∈ modemIndexes s.1, min (visitCount modemIndex i s.1 * batchSize)
            ((modemRows i s.1).length - limit) =
          visitCount modemIndex i s.1 * min batchSize ((modemRows i s.1).length - limit) :=
        Finset.sum_eq_sum_iff_of_le (fun i _ => min_mul_le _ _ _)
    _ ↔ ∀ i ∈ modemIndexes s.1, EvenSlices limit batchSize modemIndex i s.1 := by
        apply forall₂_congr
        intro i _
        rw [min_mul_eq_iff, Nat.sub_eq_zero_iff_le]
        rfl
    _ ↔ ∀ i, EvenSlices limit batchSize modemIndex i s.1 := by
        refine ⟨fun h i => ?_, fun h i _ => h i⟩
        by_cases hi : i ∈ modemIndexes s.1
        · exact h i hi
        · have hnil : modemRows i s.1 = [] := by
            apply List.filter_eq_nil_iff.mpr
            intro r hr hri
            exact hi (List.mem_toFinset.mpr (eq_of_beq hri ▸ List.mem_map_of_mem hr))
          exact Or.inl (by rw [hnil]; exact Nat.zero_le _)

/-! ## The newest rows -/

/-- There are at most `limit` rows left, and none that is gone is newer than one of them. -/
structure NewestKept (before after : List ρ) : Prop where
  atMost : after.length ≤ limit
  newest : ∀ a ∈ before, a ∉ after →
    ∀ b ∈ after, SmsRow.createdAt a ≤ SmsRow.createdAt b

/-- The slices of all visits are as long as what the modem has beyond the limit. -/
def SlicesSuffice (i : Nat) (t : Table ρ) : Prop :=
  (modemRows i t).length - limit ≤ visitCount modemIndex i t * batchSize

variable (jobs : JobTable) {t : Table ρ} {i : Nat}

section Kept
variable {limit batchSize modemIndex}

theorem keepsNewest_rotateModel (h : SlicesSuffice limit batchSize modemIndex i t) :
    KeepsNewest (fun r : ρ => SmsRow.createdAt r) limit (modemRows i t)
      (modemRows i (rotateModel db limit batchSize modemIndex false (t, jobs)).1.1) := by
  rw [modemRows_rotateModel]
  exact (keepsNewest_iterate_trim_iff (nodup_pk_modemRows i t) _).mpr h

theorem newestKept_rotateModel_iff :
    NewestKept limit (modemRows i t)
        (modemRows i (rotateModel db limit batchSize modemIndex false (t, jobs)).1.1) ↔
      SlicesSuffice limit batchSize modemIndex i t := by
  constructor
  · intro h
    have hlen := h.atMost
    rw [modemRows_rotateModel, length_iterate_trim (nodup_pk_modemRows i t)] at hlen
    dsimp only at hlen
    unfold SlicesSuffice
    omega
  · intro h
    have hkept := keepsNewest_rotateModel db jobs h
    refine ⟨?_, hkept.newest⟩
    rw [hkept.length]
    exact Nat.min_le_left _ _

theorem createdAt_le_of_age_le {a b : ρ} (h : age a ≤ age b) :
    SmsRow.createdAt a ≤ SmsRow.createdAt b := by
  rcases Prod.Lex.le_iff.mp h with hlt | ⟨heq, _⟩
  · exact Nat.le_of_lt hlt
  · exact Nat.le_of_eq heq

/-- Then the timestamps that are left are those that the rotation leaves. -/
theorem times_rotateModel (h : SlicesSuffice limit batchSize modemIndex i t) (jobs' : JobTable) :
    ((modemRows i (rotateModel db limit batchSize modemIndex false (t, jobs)).1.1).map
        SmsRow.createdAt).Perm
      ((modemRows i (cutAt i limit (t, jobs')).1).map SmsRow.createdAt) := by
  have hcut : KeepsNewest (fun r : ρ => SmsRow.createdAt r) limit (modemRows i t)
      (modemRows i (cutAt i limit (t, jobs')).1) :=
    (rotated_cutAt i limit (t, jobs')).newest.mono (fun _ _ => createdAt_le_of_age_le)
  exact (keepsNewest_rotateModel db jobs h).keys_perm
    (List.Nodup.of_map _ (nodup_pk_modemRows i t)) hcut

end Kept

/-! ## The dry run -/

/-- The dry run of one model counts the rows that the real run deletes and reports. -/
def DryCounts (t : Table ρ) : Prop :=
  (rotateModel db limit batchSize modemIndex true (t, jobs)).2 =
      (rotateModel db limit batchSize modemIndex false (t, jobs)).2 ∧
    (rotateModel db limit batchSize modemIndex false (t, jobs)).1.1.rows.length +
      (rotateModel db limit batchSize modemIndex true (t, jobs)).2 = t.rows.length

theorem dryCounts_iff :
    DryCounts db limit batchSize modemIndex jobs t ↔
      (∀ i, EvenSlices limit batchSize modemIndex i t) ∧
        NoJobCut db limit batchSize modemIndex (t, jobs) := by
  have hpredicted := rotateModel_predicted_iff db limit batchSize modemIndex (t, jobs)
  have hreport := (rotateModel_report db limit batchSize modemIndex (t, jobs)).1
  rw [← hpredicted, ← hreport, DryCounts]
  dsimp only
  omega

end Visit

/-! ## The command -/

/-- What the command leaves of each modem, and that the rotation of the modem leaves as much. -/
structure KeepsNewestMessages (cfg : CleanupSettings) (w w' : World) : Prop where
  inbound : ∀ i, NewestKept (perTypeLimit cfg.maxMessagesPerModem) (modemRows i w.inbound)
    (modemRows i w'.inbound)
  outbound : ∀ i, NewestKept (perTypeLimit cfg.maxMessagesPerModem) (modemRows i w.outbound)
    (modemRows i w'.outbound)
  rotation : ∀ i fuel, (modemRows i w.inbound).length < fuel →
    (modemRows i w.outbound).length < fuel →
    ∃ w'' stats, rotateModemSmsStorage fuel i cfg.maxMessagesPerModem cfg.rotationBatchSize false
        w = some (w'', stats) ∧
      ((modemRows i w'.inbound).map SmsRow.createdAt).Perm
        ((modemRows i w''.inbound).map SmsRow.createdAt) ∧
      ((modemRows i w'.outbound).map SmsRow.createdAt).Perm
        ((modemRows i w''.outbound).map SmsRow.createdAt)

section Command
variable (db : CleanupDb) {cfg : CleanupSettings}

/-- The tables after a run that is not switched off, and the report. -/
theorem cleanup_eq (options : CleanupOptions)
    (hrun : cfg.rotationEnabled = true ∨ options.force = true) (w : World) :
    cleanupSmsStorage db cfg options w =
      let inboundRun := rotateModel db.inbound (perTypeLimit cfg.maxMessagesPerModem)
        cfg.rotationBatchSize options.modemIndex options.dryRun (w.inbound, w.jobs)
      let outboundRun := rotateModel db.outbound (perTypeLimit cfg.maxMessagesPerModem)
        cfg.rotationBatchSize options.modemIndex options.dryRun (w.outbound, inboundRun.1.2)
      ({ w with inbound := inboundRun.1.1, outbound := outboundRun.1.1,
                jobs := outboundRun.1.2 },
        some ⟨options.dryRun, inboundRun.2, outboundRun.2,
          perTypeLimit cfg.maxMessagesPerModem⟩) := by
  have hon : ¬ (cfg.rotationEnabled = false ∧ options.force = false) := by
    intro h
    rw [h.1, h.2] at hrun
    simp at hrun
  rw [cleanupSmsStorage, if_neg hon]

/-- For every table, limit and batch size, and every order of the ties. -/
theorem cleanup_keeps_newest_iff (force : Bool)
    (hrun : cfg.rotationEnabled = true ∨ force = true) (hbatch : 0 < cfg.rotationBatchSize)
    (w : World) :
    KeepsNewestMessages cfg w (cleanupSmsStorage db cfg ⟨false, force, none⟩ w).1 ↔
      (∀ i, SlicesSuffice (perTypeLimit cfg.maxMessagesPerModem) cfg.rotationBatchSize none i
        w.inbound) ∧
      ∀ i, SlicesSuffice (perTypeLimit cfg.maxMessagesPerModem) cfg.rotationBatchSize none i
        w.outbound := by
  rw [cleanup_eq db ⟨false, force, none⟩ hrun]
  constructor
  · intro h
    exact ⟨fun i => (newestKept_rotateModel_iff _ _).mp (h.inbound i),
      fun i => (newestKept_rotateModel_iff _ _).mp (h.outbound i)⟩
  · intro h
    refine ⟨fun i => (newestKept_rotateModel_iff _ _).mpr (h.1 i),
      fun i => (newestKept_rotateModel_iff _ _).mpr (h.2 i), ?_⟩
    intro i fuel hinbound houtbound
    exact ⟨_, _, rotateModemSmsStorage_eq w i _ hbatch false hinbound houtbound,
      times_rotateModel _ _ (h.1 i) _, times_rotateModel _ _ (h.2 i) _⟩

/-- A database that leaves ties as they are. -/
def stableDb : CleanupDb := ⟨NewestFirst.stable _, NewestFirst.stable _⟩

theorem cleanup_leaves_too_many :
    ¬ ∀ (db : CleanupDb) (cfg : CleanupSettings) (force : Bool) (w : World),
      cfg.rotationEnabled = true ∨ force = true → 1 ≤ cfg.maxMessagesPerModem →
      1 ≤ cfg.rotationBatchSize →
      KeepsNewestMessages cfg w (cleanupSmsStorage db cfg ⟨false, force, none⟩ w).1 := by
  intro h
  have hkept := h stableDb ⟨true, 2, 1⟩ false (threeMessages 20 20 20) (Or.inl rfl) (by decide)
    (by decide)
  exact absurd (hkept.inbound 0).atMost (by decide)

/-- With the default batch size two slices are long enough. -/
theorem cleanup_keeps_newest_three :
    KeepsNewestMessages ⟨true, 2, 100⟩ (threeMessages 10 20 20)
      (cleanupSmsStorage stableDb ⟨true, 2, 100⟩ ⟨false, false, none⟩
        (threeMessages 10 20 20)).1 := by
  apply (cleanup_keeps_newest_iff stableDb false (Or.inl rfl) (by decide) _).mpr
  constructor
  · intro i
    cases i with
    | zero => show (_ : Nat) ≤ _; decide
    | succ i => exact Nat.zero_le _
  · intro i
    exact Nat.zero_le _

/-- A dry run changes nothing and reports, for each type, the rows that the real run deletes and
    reports. -/
structure DryRunPredicts (db : CleanupDb) (cfg : CleanupSettings) (options : CleanupOptions)
    (w : World) : Prop where
  unchanged : (cleanupSmsStorage db cfg { options with dryRun := true } w).1 = w
  reports : ∃ dry real,
    (cleanupSmsStorage db cfg { options with dryRun := true } w).2 = some dry ∧
    (cleanupSmsStorage db cfg { options with dryRun := false } w).2 = some real ∧
    dry.inboundDeleted = real.inboundDeleted ∧ dry.outboundDeleted = real.outboundDeleted ∧
    (cleanupSmsStorage db cfg { options with dryRun := false } w).1.inbound.rows.length +
      dry.inboundDeleted = w.inbound.rows.length ∧
    (cleanupSmsStorage db cfg { options with dryRun := false } w).1.outbound.rows.length +
      dry.outboundDeleted = w.outbound.rows.length

/-- A dry run changes nothing, and what it counts has nothing to do with the webhook jobs. -/
theorem cleanup_dry_eq (options : CleanupOptions)
    (hrun : cfg.rotationEnabled = true ∨ options.force = true) (w : World) (jobs : JobTable) :
    cleanupSmsStorage db cfg { options with dryRun := true } w =
      (w, some ⟨true,
        (rotateModel db.inbound (perTypeLimit cfg.maxMessagesPerModem) cfg.rotationBatchSize
          options.modemIndex true (w.inbound, w.jobs)).2,
        (rotateModel db.outbound (perTypeLimit cfg.maxMessagesPerModem) cfg.rotationBatchSize
          options.modemIndex true (w.outbound, jobs)).2,
        perTypeLimit cfg.maxMessagesPerModem⟩) := by
  rw [cleanup_eq db { options with dryRun := true } hrun]
  simp only [rotateModel_dry]

/-- The jobs of the second model are those that the first one leaves. -/
theorem dryRunPredicts_iff (options : CleanupOptions)
    (hrun : cfg.rotationEnabled = true ∨ options.force = true) (w : World) :
    DryRunPredicts db cfg options w ↔
      DryCounts db.inbound (perTypeLimit cfg.maxMessagesPerModem) cfg.rotationBatchSize
        options.modemIndex w.jobs w.inbound ∧
      DryCounts db.outbound (perTypeLimit cfg.maxMessagesPerModem) cfg.rotationBatchSize
        options.modemIndex (rotateModel db.inbound (perTypeLimit cfg.maxMessagesPerModem)
          cfg.rotationBatchSize options.modemIndex false (w.inbound, w.jobs)).1.2 w.outbound := by
  have hdry := cleanup_dry_eq db options hrun w
    (rotateModel db.inbound (perTypeLimit cfg.maxMessagesPerModem) cfg.rotationBatchSize
      options.modemIndex false (w.inbound, w.jobs)).1.2
  have hreal := cleanup_eq db { options with dryRun := false } hrun w
  constructor
  · intro h
    obtain ⟨dry, real, hd, hr, hin, hout, hgonein, hgoneout⟩ := h.reports
    rw [hdry] at hd
    rw [hreal] at hr hgonein hgoneout
    cases hd
    cases hr
    exact ⟨⟨hin, hgonein⟩, ⟨hout, hgoneout⟩⟩
  · intro h
    refine ⟨by rw [hdry], ?_⟩
    rw [hdry, hreal]
    exact ⟨_, _, rfl, rfl, h.1.1, h.2.1, h.1.2, h.2.2⟩

theorem cleanup_dry_run_iff (options : CleanupOptions)
    (hrun : cfg.rotationEnabled = true ∨ options.force = true) (w : World) :
    DryRunPredicts db cfg options w ↔
      ((∀ i, EvenSlices (perTypeLimit cfg.maxMessagesPerModem) cfg.rotationBatchSize
          options.modemIndex i w.inbound) ∧
        NoJobCut db.inbound (perTypeLimit cfg.maxMessagesPerModem) cfg.rotationBatchSize
          options.modemIndex (w.inbound, w.jobs)) ∧
      (∀ i, EvenSlices (perTypeLimit cfg.maxMessagesPerModem) cfg.rotationBatchSize
          options.modemIndex i w.outbound) ∧
        NoJobCut db.outbound (perTypeLimit cfg.maxMessagesPerModem) cfg.rotationBatchSize
          options.modemIndex (w.outbound, w.jobs) := by
  rw [dryRunPredicts_iff db options hrun, dryCounts_iff]
  apply and_congr_right
  intro h
  rw [(rotateModel_report db.inbound _ _ _ (w.inbound, w.jobs)).2 h.2, dryCounts_iff]

theorem dry_run_counts_twice :
    ¬ ∀ (db : CleanupDb) (cfg : CleanupSettings) (options : CleanupOptions) (w : World),
      cfg.rotationEnabled = true ∨ options.force = true → 1 ≤ cfg.maxMessagesPerModem →
      1 ≤ cfg.rotationBatchSize → DryRunPredicts db cfg options w := by
  intro h
  obtain ⟨dry, real, hdry, hreal, hin, _⟩ := (h stableDb ⟨true, 2, 100⟩ ⟨false, false, none⟩
    (threeMessages 10 20 20) (Or.inl rfl) (by decide) (by decide)).reports
  have hfour : (cleanupSmsStorage stableDb ⟨true, 2, 100⟩ ⟨true, false, none⟩
      (threeMessages 10 20 20)).2 = some ⟨true, 4, 0, 1⟩ := by decide
  have htwo : (cleanupSmsStorage stableDb ⟨true, 2, 100⟩ ⟨false, false, none⟩
      (threeMessages 10 20 20)).2 = some ⟨false, 2, 0, 1⟩ := by decide
  cases hfour.symm.trans hdry
  cases htwo.symm.trans hreal
  cases hin

/-- With one time there is one slice. -/
theorem dry_run_three :
    DryRunPredicts stableDb ⟨true, 2, 100⟩ ⟨false, false, none⟩ (threeMessages 20 20 20) := by
  apply (cleanup_dry_run_iff stableDb ⟨false, false, none⟩ (Or.inl rfl) _).mpr
  refine ⟨⟨?_, ?_⟩, ?_, ?_⟩
  · intro i
    cases i with
    | zero => exact Or.inr (Or.inl (by decide))
    | succ i => exact Or.inl (Nat.zero_le _)
  · intro j hj
    cases hj
  · intro i
    exact Or.inl (Nat.zero_le _)
  · intro j hj
    cases hj

end Command

end HiWaveTel
