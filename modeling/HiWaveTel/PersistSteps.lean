import HiWaveTel.Persist
import HiWaveTel.Foundation.Run

/- `persist_inbound_sms` one statement at a time, for the runs in which other
   processes work between its statements: the end of the polling with the
   get_or_create, the save of the patch, `remove_by_path`. A save and the post_save
   signal it sends are one step. A call may raise before any of them. The whitelist is
   empty.

   `persistMicro_alone` — the statements one after the other are `persistFetched`.
   `persistMicro_keeps` — no statement drops a row, and the call takes its path out of
   the dead-letter queue, or returns, only when the path has a row. -/
namespace HiWaveTel
open Foundation

/-- The tuple the persist queue holds. -/
structure SmsJob where
  path : Str
  modemIndex : Nat
  deriving DecidableEq, Repr

/-! ## persist_inbound_sms, statement by statement -/

/-- Where a call of `persist_inbound_sms` is: polling, after the get_or_create, before
    `remove_by_path`, or with the row of a path that is gone. -/
inductive PersistStage where
  | polling
  | looked (d : Defaults) (row : InboundSms) (created : Bool)
  | saved
  | gone (row : InboundSms)

/-- What the call does next. -/
inductive PersistEvent where
  | look (fetched : Fetched) (now : Nat)
  | save (now : Nat)
  | remove
  | raise (text : Str)

/-- How the call stands after a step. -/
inductive PersistNext where
  | goesOn (stage : PersistStage)
  | returned
  | raised (text : Str)

/-- One step of the call, with an empty whitelist. -/
def persistMicro (w : World) (job : SmsJob) :
    PersistStage → PersistEvent → Option (World × PersistNext)
  -- the get_or_create under the lock; a created row sends the signal at once
  | .polling, .look (.snapshot raw) now =>
    let d := defaultsOf job.modemIndex raw
    let (w, row, created) := getOrCreateInbound w job.path d now
    some (w, .goesOn (.looked d row created))
  -- SmsPathUnavailableError: it is re-raised when the path has no row
  | .polling, .look (.pathUnavailable _) _ =>
    match w.inbound.rows.find? (fun r => r.mmPath == job.path) with
    | some row => some (w, .goesOn (.gone row))
    | none => some (w, .raised job.path)
  | .polling, .look (.raised text) _ => some (w, .raised text)
  -- the patch was decided on the copy, outside the lock
  | .looked d row created, .save now =>
    some (if created then w else (savePatched w row (patchedFields row d) d now).1, .goesOn .saved)
  | .saved, .remove => some (removeFromDlq w job.path, .returned)
  | .gone row, .save now => some ((markUnavailable w row now).1, .returned)
  | _, .raise text => some (w, .raised text)
  | _, _ => none

/-- The call on its own: it goes on until it returns or raises. -/
def callStep (job : SmsJob) : World × PersistNext → PersistEvent → Option (World × PersistNext)
  | (w, .goesOn stage), event => persistMicro w job stage event
  | _, _ => none

def PersistNext.ofResult : Except PersistError Persisted → PersistNext
  | .ok _ => .returned
  | .error exc => .raised exc.text

/-- Its statements one after the other are `persistFetched`. -/
theorem persistMicro_alone (w : World) (job : SmsJob) (fetched : Fetched) (now : Nat) :
    ∃ events, exec (callStep job) (w, .goesOn .polling) events =
      some ((persistFetched [] w job.path job.modemIndex now fetched).1,
        PersistNext.ofResult (persistFetched [] w job.path job.modemIndex now fetched).2) := by
  cases fetched with
  | raised text => exact ⟨[.look (.raised text) now], rfl⟩
  | pathUnavailable cause =>
    cases hrow : w.inbound.rows.find? (fun r => r.mmPath == job.path) with
    | none =>
      refine ⟨[.look (.pathUnavailable cause) now], ?_⟩
      simp [exec, callStep, persistMicro, persistFetched, hrow, PersistNext.ofResult, PersistError.text]
    | some row =>
      refine ⟨[.look (.pathUnavailable cause) now, .save now], ?_⟩
      simp [exec, callStep, persistMicro, persistFetched, hrow, PersistNext.ofResult]
  | snapshot raw =>
    refine ⟨[.look (.snapshot raw) now, .save now, .remove], ?_⟩
    have hkept : persistFetched [] w job.path job.modemIndex now (.snapshot raw) =
        ((storeSnapshot w job.path (defaultsOf job.modemIndex raw) now).1,
          .ok (.stored (storeSnapshot w job.path (defaultsOf job.modemIndex raw) now).2)) := rfl
    rw [hkept]
    simp only [exec, callStep, persistMicro, storeSnapshot, Option.bind_some]
    cases (getOrCreateInbound w job.path (defaultsOf job.modemIndex raw) now).2.2 <;> rfl

/-! ## What a step keeps of the databases -/

/-- The InboundSms table has a row of the path. -/
def HasRow (w : World) (q : Str) : Prop := rowsAt w.inbound q ≠ []

/-- Rows stay, ids are not used again, and a path leaves the DLQ only with a row. -/
structure Keeps (w w' : World) : Prop where
  rows : ∀ q, HasRow w q → HasRow w' q
  dlq : ∀ t ∈ w.dlq, ∃ t' ∈ w'.dlq, DlqKeeps t t' ∧ ∀ q, Holds q t → Holds q t' ∨ HasRow w' q

theorem Keeps.of_same_dlq {w w' : World} (hrows : ∀ q, HasRow w q → HasRow w' q)
    (hdlq : w'.dlq = w.dlq) : Keeps w w' := by
  refine ⟨hrows, ?_⟩
  intro t ht
  exact ⟨t, hdlq ▸ ht, DlqKeeps.refl t, fun _ hq => Or.inl hq⟩

theorem Keeps.refl (w : World) : Keeps w w := Keeps.of_same_dlq (fun _ h => h) rfl

/-- An operation on the queue only. -/
theorem Keeps.of_dlq {w : World} {f : DlqTable → DlqTable} (hk : ∀ t, DlqKeeps t (f t))
    (hf : ∀ t ∈ w.dlq, ∀ q, Holds q t → Holds q (f t) ∨ HasRow w q) :
    Keeps w { w with dlq := w.dlq.map f } := by
  refine ⟨fun _ h => h, ?_⟩
  intro t ht
  exact ⟨f t, Option.mem_map_of_mem f ht, hk t, hf t ht⟩

theorem hasRow_onSave {w : World} {row : InboundSms} {created : Bool}
    {fs : Option (List InboundField)} {now : Nat} {q : Str} :
    HasRow (scheduleInboundWebhookOnSave w row created fs now) q ↔ HasRow w q := by
  rw [HasRow, onSave_inbound]
  exact Iff.rfl

theorem hasRow_savePatched {w : World} {row : InboundSms} {fields : List InboundField} {d : Defaults}
    {now : Nat} {q : Str} (h : HasRow w q) : HasRow (savePatched w row fields d now).1 q := by
  unfold savePatched
  split
  · exact h
  · apply hasRow_onSave.mpr
    show (w.inbound.update row.pk (saveFields fields d)).rows.filter (fun r => r.mmPath == q) ≠ []
    rw [Table.filter_update _ _ _ (fun _ => rfl)]
    exact fun hnil => h (List.map_eq_nil_iff.mp hnil)

theorem hasRow_markUnavailable {w : World} {row : InboundSms} {now : Nat} {q : Str}
    (h : HasRow w q) : HasRow (markUnavailable w row now).1 q := by
  unfold markUnavailable
  split
  · exact h
  · exact hasRow_savePatched h

theorem markUnavailable_dlq (w : World) (row : InboundSms) (now : Nat) :
    (markUnavailable w row now).1.dlq = w.dlq := by
  unfold markUnavailable
  split
  · rfl
  · exact savePatched_dlq w now row _ _

theorem getOrCreateInbound_keeps (w : World) (p : Str) (d : Defaults) (now : Nat) :
    Keeps w (getOrCreateInbound w p d now).1 ∧ HasRow (getOrCreateInbound w p d now).1 p := by
  rcases getOrCreateInbound_cases w p d now with ⟨r, hr, hrp, he⟩ | ⟨h, _, he⟩
  · rw [he]
    exact ⟨Keeps.refl w, rowsAt_ne_nil_iff.mpr ⟨r, hr, hrp⟩⟩
  · rw [he]
    refine ⟨Keeps.of_same_dlq ?_ (onSave_dlq _ _ _ _ _), ?_⟩
    · intro q hq
      apply hasRow_onSave.mpr
      obtain ⟨r, hr, hrq⟩ := rowsAt_ne_nil_iff.mp hq
      exact rowsAt_ne_nil_iff.mpr ⟨r, List.mem_append_left _ hr, hrq⟩
    · apply hasRow_onSave.mpr
      exact rowsAt_ne_nil_iff.mpr ⟨_, List.mem_append_right _ (List.mem_singleton_self _), rfl⟩

theorem removeFromDlq_keeps {w : World} {p : Str} (h : HasRow w p) : Keeps w (removeFromDlq w p) := by
  apply Keeps.of_dlq
  · exact fun t => dlqKeeps_deleteWhere t _
  · intro t _ q hq
    by_cases hqp : q = p
    · exact Or.inr (hqp ▸ h)
    · exact Or.inl (holds_removeByPath.mpr ⟨hq, hqp⟩)

/-! ## What a statement of the call keeps -/

/-- Past the polling, the path has a row. -/
def PersistStage.RowSeen (w : World) (p : Str) : PersistStage → Prop
  | .polling => True
  | _ => HasRow w p

def PersistNext.RowSeen (w : World) (p : Str) : PersistNext → Prop
  | .goesOn stage => stage.RowSeen w p
  | .returned => HasRow w p
  | .raised _ => True

theorem PersistStage.RowSeen.keeps {w w' : World} {p : Str} {stage : PersistStage}
    (h : stage.RowSeen w p) (hk : Keeps w w') : stage.RowSeen w' p := by
  cases stage with
  | polling => trivial
  | looked d row created => exact hk.rows p h
  | saved => exact hk.rows p h
  | gone row => exact hk.rows p h

/-- A call takes its path out of the DLQ, or returns, only when the path has a row. -/
theorem persistMicro_keeps {w w' : World} {job : SmsJob} {stage : PersistStage}
    {event : PersistEvent} {next : PersistNext} (hseen : stage.RowSeen w job.path)
    (h : persistMicro w job stage event = some (w', next)) :
    Keeps w w' ∧ next.RowSeen w' job.path := by
  unfold persistMicro at h
  split at h
  · -- the get_or_create
    next raw now =>
    cases h
    exact getOrCreateInbound_keeps w job.path _ now
  · -- the object is gone
    split at h
    · next row hrow =>
      cases h
      have hp : row.mmPath = job.path := by simpa using List.find?_some hrow
      exact ⟨Keeps.refl w, rowsAt_ne_nil_iff.mpr ⟨row, List.mem_of_find?_eq_some hrow, hp⟩⟩
    · cases h
      exact ⟨Keeps.refl w, trivial⟩
  · cases h
    exact ⟨Keeps.refl w, trivial⟩
  · -- the save of the patch
    next d row created now =>
    cases h
    cases created with
    | true => exact ⟨Keeps.refl w, hseen⟩
    | false =>
      refine ⟨Keeps.of_same_dlq (fun _ => hasRow_savePatched) (savePatched_dlq w now row _ d), ?_⟩
      exact hasRow_savePatched hseen
  · cases h
    exact ⟨removeFromDlq_keeps hseen, hseen⟩
  · next row now =>
    cases h
    refine ⟨Keeps.of_same_dlq (fun _ => hasRow_markUnavailable) (markUnavailable_dlq w row now), ?_⟩
    exact hasRow_markUnavailable hseen
  · cases h
    exact ⟨Keeps.refl w, trivial⟩
  · cases h

end HiWaveTel
