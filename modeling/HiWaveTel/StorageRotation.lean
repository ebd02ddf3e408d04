import Mathlib.Data.Prod.Lex
import HiWaveTel.Persist
import HiWaveTel.Foundation.Retention

/- Rotation of the stored messages of one modem (`services.rotate_modem_sms_storage`). The
   excess rows are deleted oldest first, in batches, by a counter of its own that a dry run
   counts down as well.

   `deleteOldestModemRows_eq`: the batches are one cut at the limit, whatever their size.
   `rotateModemSmsStorage_exact`: the newest rows stay, of each type. -/
namespace HiWaveTel
open Foundation

/-- A model of stored messages, and the foreign key of WebhookDeliveryJob that refers to it. -/
class SmsRow (ρ : Type) extends Row ρ where
  modemIndex : ρ → Nat
  createdAt : ρ → Nat
  jobRef : WebhookDeliveryJob → Option Nat

instance : SmsRow InboundSms where
  modemIndex := InboundSms.modemIndex
  createdAt := InboundSms.createdAt
  jobRef := WebhookDeliveryJob.inboundSmsId

instance : SmsRow OutboundSms where
  modemIndex := OutboundSms.modemIndex
  createdAt := OutboundSms.createdAt
  jobRef := WebhookDeliveryJob.outboundSmsId

section Rows
variable {ρ : Type} [SmsRow ρ]

/-- `model.objects.filter(modem_index=modem_index)`. -/
def modemRows (modemIndex : Nat) (t : Table ρ) : List ρ :=
  t.rows.filter (fun r => SmsRow.modemIndex r == modemIndex)

/-- `order_by('created_at', 'pk')`. -/
def age (r : ρ) : Nat ×ₗ Nat := toLex (SmsRow.createdAt r, Row.pk r)

def oldestPks (modemIndex : Nat) (t : Table ρ) : List Nat :=
  (oldestFirst age (modemRows modemIndex t)).map Row.pk

/-- `model.objects.filter(pk__in=pks).delete()`; the webhook jobs of the rows go with them. -/
def deleteRows (pks : List Nat) (s : Table ρ × JobTable) : Table ρ × JobTable :=
  (s.1.deleteWhere (fun r => pks.contains (Row.pk r)),
    s.2.deleteWhere (fun j => (SmsRow.jobRef ρ j).any pks.contains))

/-- The loop of `_delete_oldest_modem_rows`; `none` where it has not come to an end. -/
def deleteLoop (modemIndex batchSize : Nat) (dryRun : Bool) :
    Nat → Table ρ × JobTable → Nat → Nat → Option ((Table ρ × JobTable) × Nat)
  | 0, _, _, _ => none
  | fuel + 1, s, remaining, deleted =>
    if remaining = 0 then some (s, deleted)
    else
      let ids := (oldestPks modemIndex s.1).take (min batchSize remaining)
      if ids = [] then some (s, deleted)
      else
        deleteLoop modemIndex batchSize dryRun fuel (if dryRun then s else deleteRows ids s)
          (remaining - ids.length) (deleted + ids.length)

/-- `_delete_oldest_modem_rows`. -/
def deleteOldestModemRows (fuel modemIndex limit batchSize : Nat) (dryRun : Bool)
    (s : Table ρ × JobTable) : Option ((Table ρ × JobTable) × Nat) :=
  let excess := (modemRows modemIndex s.1).length - limit
  if excess = 0 then some (s, 0) else deleteLoop modemIndex batchSize dryRun fuel s excess 0

end Rows

/-- `max(1, limit // 2)`. -/
def perTypeLimit (limit : Int) : Nat := (max 1 (limit / 2)).toNat

structure RotationStats where
  inboundDeleted : Nat
  outboundDeleted : Nat
  inboundCountBefore : Nat
  outboundCountBefore : Nat
  perTypeLimit : Nat
  deriving DecidableEq, Repr

/-- `rotate_modem_sms_storage`. -/
def rotateModemSmsStorage (fuel modemIndex : Nat) (limit : Int) (batchSize : Nat) (dryRun : Bool)
    (w : World) : Option (World × RotationStats) := do
  let n := perTypeLimit limit
  let inboundBefore := (modemRows modemIndex w.inbound).length
  let outboundBefore := (modemRows modemIndex w.outbound).length
  let ((inbound, jobs), inboundDeleted) ←
    deleteOldestModemRows fuel modemIndex n batchSize dryRun (w.inbound, w.jobs)
  let ((outbound, jobs), outboundDeleted) ←
    deleteOldestModemRows fuel modemIndex n batchSize dryRun (w.outbound, jobs)
  some ({ w with inbound := inbound, outbound := outbound, jobs := jobs },
    ⟨inboundDeleted, outboundDeleted, inboundBefore, outboundBefore, n⟩)

/-! ## Rows of one modem -/

section Rows
variable {ρ : Type} [SmsRow ρ]

theorem nodup_pk_modemRows (modemIndex : Nat) (t : Table ρ) :
    ((modemRows modemIndex t).map Row.pk).Nodup :=
  (List.filter_sublist.map Row.pk).nodup (List.pairwise_map.mpr t.pk_ne)

/-- The primary key breaks the ties. -/
theorem nodup_age_modemRows (modemIndex : Nat) (t : Table ρ) :
    ((modemRows modemIndex t).map age).Nodup := by
  have hpk := nodup_pk_modemRows modemIndex t
  rw [List.Nodup, List.pairwise_map] at hpk ⊢
  apply hpk.imp
  intro a b hne hage
  exact hne (congrArg (fun x => (ofLex x).2) hage)

theorem modemRows_deleteRows (pks : List Nat) (s : Table ρ × JobTable) (modemIndex : Nat) :
    modemRows modemIndex (deleteRows pks s).1 =
      without Row.pk pks (modemRows modemIndex s.1) := by
  show (s.1.rows.filter _).filter _ = (s.1.rows.filter _).filter _
  rw [List.filter_filter, List.filter_filter]
  apply List.filter_congr
  intro r _
  exact Bool.and_comm _ _

/-- The rows of other modems have other keys. -/
theorem modemRows_deleteRows_of_ne {s : Table ρ × JobTable} {i modemIndex : Nat} {l : List ρ}
    (hi : i ≠ modemIndex) (hl : l ⊆ modemRows modemIndex s.1) :
    modemRows i (deleteRows (l.map Row.pk) s).1 = modemRows i s.1 := by
  rw [modemRows_deleteRows]
  apply List.filter_eq_self.mpr
  intro r hr
  rw [Bool.not_eq_true', ← Bool.not_eq_true, List.contains_iff_mem]
  intro hpk
  obtain ⟨r', hr', hpk⟩ := List.mem_map.mp hpk
  obtain ⟨hrow', hmodem'⟩ := List.mem_filter.mp (hl hr')
  obtain ⟨hrow, hmodem⟩ := List.mem_filter.mp hr
  rw [s.1.pk_injOn hrow' hrow hpk] at hmodem'
  exact hi ((eq_of_beq hmodem).symm.trans (eq_of_beq hmodem'))

theorem deleteRows_nil (s : Table ρ × JobTable) : deleteRows [] s = s := by
  obtain ⟨t, jobs⟩ := s
  have hrows : ∀ r ∈ t.rows, (!([] : List Nat).contains (Row.pk r)) = true := fun _ _ => rfl
  have hjobs : ∀ j ∈ jobs.rows,
      (!(SmsRow.jobRef ρ j).any ([] : List Nat).contains) = true := by
    intro j _
    cases SmsRow.jobRef ρ j <;> rfl
  exact Prod.ext (Table.ext (List.filter_eq_self.mpr hrows) rfl)
    (Table.ext (List.filter_eq_self.mpr hjobs) rfl)

theorem deleteRows_deleteRows (ms ns : List Nat) (s : Table ρ × JobTable) :
    deleteRows ns (deleteRows ms s) = deleteRows (ms ++ ns) s := by
  obtain ⟨t, jobs⟩ := s
  have hrows : without Row.pk ns (without Row.pk ms t.rows) = without Row.pk (ms ++ ns) t.rows :=
    without_without ms ns t.rows
  have hjobs : (jobs.rows.filter (fun j => !(SmsRow.jobRef ρ j).any ms.contains)).filter
        (fun j => !(SmsRow.jobRef ρ j).any ns.contains) =
      jobs.rows.filter (fun j => !(SmsRow.jobRef ρ j).any (ms ++ ns).contains) := by
    rw [List.filter_filter]
    apply List.filter_congr
    intro j _
    cases SmsRow.jobRef ρ j with
    | none => rfl
    | some pk => simp [Bool.and_comm]
  exact Prod.ext (Table.ext hrows rfl) (Table.ext hjobs rfl)

/-! ## The loop -/

/-- What follows in the order once the oldest `k` rows are deleted. -/
theorem oldestPks_deleteRows (modemIndex k : Nat) (s : Table ρ × JobTable) :
    oldestPks modemIndex (deleteRows ((oldestPks modemIndex s.1).take k) s).1 =
      (oldestPks modemIndex s.1).drop k := by
  rw [oldestPks, modemRows_deleteRows, oldestPks, ← List.map_take,
    oldestFirst_without (nodup_age_modemRows modemIndex s.1) (nodup_pk_modemRows modemIndex s.1),
    List.map_drop]

theorem length_oldestPks (modemIndex : Nat) (t : Table ρ) :
    (oldestPks modemIndex t).length = (modemRows modemIndex t).length := by
  rw [oldestPks, List.length_map, (oldestFirst_perm age _).length_eq]

/-- The loop deletes the oldest `remaining` rows, and counts them. -/
theorem deleteLoop_eq (modemIndex : Nat) {batchSize : Nat} (hbatch : 0 < batchSize)
    (dryRun : Bool) (fuel : Nat) (s : Table ρ × JobTable) {remaining : Nat} (deleted : Nat)
    (hremaining : remaining ≤ (modemRows modemIndex s.1).length) (hfuel : remaining < fuel) :
    deleteLoop modemIndex batchSize dryRun fuel s remaining deleted =
      some (if dryRun then s else deleteRows ((oldestPks modemIndex s.1).take remaining) s,
        deleted + remaining) := by
  induction fuel generalizing s remaining deleted with
  | zero => exact absurd hfuel (Nat.not_lt_zero _)
  | succ fuel ih =>
    rw [deleteLoop]
    by_cases hzero : remaining = 0
    · rw [if_pos hzero, hzero, List.take_zero, deleteRows_nil, ite_self, Nat.add_zero]
    · rw [← length_oldestPks] at hremaining
      have hlen : ((oldestPks modemIndex s.1).take (min batchSize remaining)).length =
          min batchSize remaining := by
        rw [List.length_take]
        omega
      have hne : (oldestPks modemIndex s.1).take (min batchSize remaining) ≠ [] :=
        List.ne_nil_of_length_pos (by omega)
      simp only [if_neg hzero, if_neg hne, hlen]
      have hsum : min batchSize remaining + (remaining - min batchSize remaining) = remaining := by
        omega
      cases dryRun with
      | true =>
        rw [length_oldestPks] at hremaining
        rw [ih _ _ (by simp only [if_true]; omega) (by omega), if_pos rfl, if_pos rfl,
          Nat.add_assoc, hsum]
        rfl
      | false =>
        have hleft : remaining - min batchSize remaining ≤
            (modemRows modemIndex (deleteRows
              ((oldestPks modemIndex s.1).take (min batchSize remaining)) s).1).length := by
          rw [← length_oldestPks, oldestPks_deleteRows, List.length_drop]
          omega
        rw [if_neg Bool.false_ne_true, ih _ _ hleft (by omega), if_neg Bool.false_ne_true,
          if_neg Bool.false_ne_true, oldestPks_deleteRows, deleteRows_deleteRows, ← List.take_add,
          Nat.add_assoc, hsum]

/-- The excess rows, deleted at once. -/
def cutAt (modemIndex n : Nat) (s : Table ρ × JobTable) : Table ρ × JobTable :=
  deleteRows ((oldestPks modemIndex s.1).take ((modemRows modemIndex s.1).length - n)) s

/-- Batches of any size are one cut at the limit. -/
theorem deleteOldestModemRows_eq (modemIndex limit : Nat) {batchSize : Nat}
    (hbatch : 0 < batchSize) (dryRun : Bool) {fuel : Nat} (s : Table ρ × JobTable)
    (hfuel : (modemRows modemIndex s.1).length < fuel) :
    deleteOldestModemRows fuel modemIndex limit batchSize dryRun s =
      some (if dryRun then s else cutAt modemIndex limit s,
        (modemRows modemIndex s.1).length - limit) := by
  unfold deleteOldestModemRows cutAt
  by_cases hexcess : (modemRows modemIndex s.1).length - limit = 0
  · simp only [hexcess, if_true, List.take_zero, deleteRows_nil, ite_self]
  · simp only [if_neg hexcess]
    rw [deleteLoop_eq modemIndex hbatch dryRun fuel s 0 (Nat.sub_le _ _) (by omega), Nat.zero_add]

/-- Of the rows of the modem the newest are left, the others are left alone, and the rows that are
    gone are counted. -/
structure Rotated (modemIndex n : Nat) (t t' : Table ρ) (deleted : Nat) : Prop where
  newest : KeepsNewest age n (modemRows modemIndex t) (modemRows modemIndex t')
  others : ∀ i, i ≠ modemIndex → modemRows i t' = modemRows i t
  deleted : t'.rows.length + deleted = t.rows.length

theorem rotated_cutAt (modemIndex n : Nat) (s : Table ρ × JobTable) :
    Rotated modemIndex n s.1 (cutAt modemIndex n s).1 ((modemRows modemIndex s.1).length - n) := by
  let oldest := (oldestFirst age (modemRows modemIndex s.1)).take
    ((modemRows modemIndex s.1).length - n)
  have hpks : (oldestPks modemIndex s.1).take ((modemRows modemIndex s.1).length - n) =
      oldest.map Row.pk := List.map_take.symm
  have hsub : oldest.Subperm (modemRows modemIndex s.1) :=
    (List.take_sublist _ _).subperm.trans (oldestFirst_perm age _).subperm
  rw [cutAt, hpks]
  refine ⟨?_, ?_, ?_⟩
  · rw [modemRows_deleteRows]
    exact keepsNewest_without_oldest (nodup_pk_modemRows modemIndex s.1) n
  · intro i hi
    exact modemRows_deleteRows_of_ne hi hsub.subset
  · have hall : oldest.Subperm s.1.rows := hsub.trans List.filter_sublist.subperm
    have hlen : oldest.length = (modemRows modemIndex s.1).length - n := by
      rw [List.length_take, (oldestFirst_perm age _).length_eq]
      omega
    rw [← hlen]
    exact length_without (List.pairwise_map.mpr s.1.pk_ne) hall

end Rows

/-! ## Both types -/

/-- The excess rows of both types, deleted at once. -/
def cutWorld (modemIndex n : Nat) (w : World) : World :=
  let s := cutAt modemIndex n (w.inbound, w.jobs)
  let s' := cutAt modemIndex n (w.outbound, s.2)
  { w with inbound := s.1, outbound := s'.1, jobs := s'.2 }

def excessStats (modemIndex n : Nat) (w : World) : RotationStats where
  inboundDeleted := (modemRows modemIndex w.inbound).length - n
  outboundDeleted := (modemRows modemIndex w.outbound).length - n
  inboundCountBefore := (modemRows modemIndex w.inbound).length
  outboundCountBefore := (modemRows modemIndex w.outbound).length
  perTypeLimit := n

theorem rotateModemSmsStorage_eq (w : World) (modemIndex : Nat) (limit : Int) {batchSize : Nat}
    (hbatch : 0 < batchSize) (dryRun : Bool) {fuel : Nat}
    (hinbound : (modemRows modemIndex w.inbound).length < fuel)
    (houtbound : (modemRows modemIndex w.outbound).length < fuel) :
    rotateModemSmsStorage fuel modemIndex limit batchSize dryRun w =
      some (if dryRun then w else cutWorld modemIndex (perTypeLimit limit) w,
        excessStats modemIndex (perTypeLimit limit) w) := by
  simp only [rotateModemSmsStorage]
  rw [deleteOldestModemRows_eq modemIndex _ hbatch dryRun (w.inbound, w.jobs) hinbound]
  simp only [Option.bind_eq_bind, Option.bind_some]
  rw [deleteOldestModemRows_eq modemIndex _ hbatch dryRun (w.outbound, _) houtbound]
  cases dryRun <;> rfl

/-- For every table, modem, limit and batch size: the loops end, what is left is the newest rows of
    each type, and a dry run says so beforehand. -/
theorem rotateModemSmsStorage_exact (w : World) (modemIndex : Nat) (limit : Int) {batchSize : Nat}
    (hbatch : 0 < batchSize) :
    ∃ w' stats,
      (∀ fuel, (modemRows modemIndex w.inbound).length < fuel →
        (modemRows modemIndex w.outbound).length < fuel →
        rotateModemSmsStorage fuel modemIndex limit batchSize false w = some (w', stats) ∧
          rotateModemSmsStorage fuel modemIndex limit batchSize true w = some (w, stats)) ∧
      Rotated modemIndex (perTypeLimit limit) w.inbound w'.inbound stats.inboundDeleted ∧
      Rotated modemIndex (perTypeLimit limit) w.outbound w'.outbound stats.outboundDeleted := by
  refine ⟨cutWorld modemIndex (perTypeLimit limit) w,
    excessStats modemIndex (perTypeLimit limit) w, ?_, ?_, ?_⟩
  · intro fuel hinbound houtbound
    exact ⟨rotateModemSmsStorage_eq w modemIndex limit hbatch false hinbound houtbound,
      rotateModemSmsStorage_eq w modemIndex limit hbatch true hinbound houtbound⟩
  · exact rotated_cutAt modemIndex _ (w.inbound, w.jobs)
  · exact rotated_cutAt modemIndex _ (w.outbound, _)

def threePaths : List Str :=
  [firstPath, "/org/freedesktop/ModemManager1/SMS/8".toList,
    "/org/freedesktop/ModemManager1/SMS/9".toList]

/-- Three messages of one modem, with the times they came in. -/
def threeMessages (a b c : Nat) : World :=
  { emptyWorld with
    inbound := ⟨[{ blankRow with createdAt := a },
        { blankRow with pk := 2, mmPath := threePaths[1], createdAt := b },
        { blankRow with pk := 3, mmPath := threePaths[2], createdAt := c }],
      4, by simp [blankRow], by simp [blankRow],
      List.Pairwise.of_map InboundSms.mmPath (fun _ _ hne hclash => hne hclash)
        (show threePaths.Pairwise (· ≠ ·) by decide)⟩ }

theorem rotateModemSmsStorage_three :
    ∃ w' stats, rotateModemSmsStorage 4 0 2 1 false (threeMessages 10 20 20) = some (w', stats) ∧
      rotateModemSmsStorage 4 0 2 1 true (threeMessages 10 20 20) =
        some (threeMessages 10 20 20, stats) ∧
      Rotated 0 1 (threeMessages 10 20 20).inbound w'.inbound stats.inboundDeleted := by
  obtain ⟨w', stats, hrun, hinbound, _⟩ :=
    rotateModemSmsStorage_exact (threeMessages 10 20 20) 0 2 Nat.one_pos
  obtain ⟨hreal, hdry⟩ := hrun 4 (by decide) (by decide)
  exact ⟨w', stats, hreal, hdry, hinbound⟩

end HiWaveTel
