import HiWaveTel.MergeLaw
import HiWaveTel.Foundation.Run

/- Paths that ModemManager no longer exposes. `persist_inbound_sms` then writes
   `unavailable` into the `mm_state` of the row, outside the merge rule, which takes it for a
   settled state when the path is read again. So the state is there to stay:
   `no_lasting_damage_iff` says that the row recovers exactly when no call of the
   run writes it. -/
namespace HiWaveTel
open Foundation

/-- What a call of `persist_inbound_sms` finds at the path. -/
inductive Sight where
  | gone (cause : MmcliError)
  | seen (raw : Details)
  deriving DecidableEq, Repr

structure Visit where
  modemIndex : Nat
  now : Nat
  sight : Sight
  deriving DecidableEq, Repr

def Sight.fetched : Sight → Fetched
  | .gone cause => .pathUnavailable cause
  | .seen raw => .snapshot raw

/-- The call, with an empty whitelist. -/
def visit (p : Str) (w : World) (v : Visit) : World :=
  (persistFetched [] w p v.modemIndex v.now v.sight.fetched).1

def visitAll (p : Str) (w : World) (vs : List Visit) : World := vs.foldl (visit p) w

def visitStep (p : Str) (w : World) (v : Visit) : Option World := some (visit p w v)

def isGone (r : InboundSms) : Prop := r.mmState = "unavailable".toList

/-- The call does not write `unavailable`: the state says already that the path is gone, or the
    snapshot says otherwise, or it is not taken over. -/
def WritesNoUnavailable (p : Str) (w : World) (v : Visit) : Prop :=
  ∀ r ∈ rowsAt w.inbound p,
    match v.sight with
    | .gone _ => normalizeMmState r.mmState ∈ unavailableMmStates
    | .seen raw => staleState r.mmState = true → extractState raw ≠ "unavailable".toList

theorem exec_visitStep (p : Str) (w : World) (vs : List Visit) :
    exec (visitStep p) w vs = some (visitAll p w vs) := by
  induction vs generalizing w with
  | nil => rfl
  | cons v vs ih => exact ih (visit p w v)

/-! ## One call -/

/-- The row after a path-missing error. -/
def goneRow (r : InboundSms) : InboundSms :=
  if normalizeMmState r.mmState ∈ unavailableMmStates then r
  else { r with mmState := "unavailable".toList }

def Sight.row (modemIndex : Nat) (r : InboundSms) : Sight → InboundSms
  | .gone _ => goneRow r
  | .seen raw => mergeRow (defaultsOf modemIndex raw) r

theorem setFields_unavailable (r : InboundSms) :
    setFields [.mmState] unavailable r = { r with mmState := "unavailable".toList } := by
  simp [setFields, unavailable]

theorem find?_of_rowsAt {t : Table InboundSms} {p : Str} {r : InboundSms} (h : rowsAt t p = [r]) :
    t.rows.find? (fun s => s.mmPath == p) = some r := by
  rw [find?_eq_head?_rowsAt, h]
  rfl

theorem visit_gone {w : World} {p : Str} {r : InboundSms} (hr : rowsAt w.inbound p = [r])
    (modemIndex now : Nat) (cause : MmcliError) :
    visit p w ⟨modemIndex, now, .gone cause⟩ = (markUnavailable w r now).1 := by
  simp only [visit, Sight.fetched, persistFetched, find?_of_rowsAt hr]

theorem rowsAt_markUnavailable_self {w : World} {r : InboundSms} (hr : r ∈ w.inbound.rows)
    (now : Nat) : rowsAt (markUnavailable w r now).1.inbound r.mmPath = [goneRow r] := by
  unfold markUnavailable goneRow
  split
  · exact rowsAt_eq_singleton hr
  · rw [savePatched_fst (by simp), onSave_inbound, rowsAt_update_self hr, setFields_unavailable]

theorem rowsAt_visit {w : World} {p : Str} {r : InboundSms} (hr : rowsAt w.inbound p = [r])
    (v : Visit) : rowsAt (visit p w v).inbound p = [v.sight.row v.modemIndex r] := by
  obtain ⟨modemIndex, now, sight⟩ := v
  cases sight with
  | gone cause =>
    obtain ⟨hmem, hp⟩ := mem_of_rowsAt (show r ∈ rowsAt w.inbound p by rw [hr]; simp)
    rw [visit_gone hr, ← hp]
    exact rowsAt_markUnavailable_self hmem now
  | seen raw => exact rowsAt_storeSnapshot_old (defaultsOf modemIndex raw) now hr

/-- `w'` is `w` but for the `mm_state` of the row at the path, and the webhook of its save. -/
structure OnlyMmState (p : Str) (now : Nat) (w w' : World) : Prop where
  row : ∀ r, rowsAt w.inbound p = [r] →
    ∃ state, rowsAt w'.inbound p = [{ r with mmState := state }]
  others : ∀ q, p ≠ q → rowsAt w'.inbound q = rowsAt w.inbound q
  outbound : w'.outbound = w.outbound
  dlq : w'.dlq = w.dlq
  jobs : OneSchedule w.jobs w'.jobs now

theorem goneRow_eq (r : InboundSms) : ∃ state, goneRow r = { r with mmState := state } := by
  unfold goneRow
  split
  · exact ⟨r.mmState, rfl⟩
  · exact ⟨_, rfl⟩

theorem markUnavailable_outbound (w : World) (r : InboundSms) (now : Nat) :
    (markUnavailable w r now).1.outbound = w.outbound := by
  unfold markUnavailable
  split
  · rfl
  · rw [savePatched_fst (by simp), onSave_outbound]

theorem onlyMmState_gone {w : World} {p : Str} {r : InboundSms} (hr : rowsAt w.inbound p = [r])
    (modemIndex now : Nat) (cause : MmcliError) :
    OnlyMmState p now w (visit p w ⟨modemIndex, now, .gone cause⟩) where
  row := by
    intro s hs
    obtain ⟨state, hstate⟩ := goneRow_eq s
    exact ⟨state, by rw [rowsAt_visit hs, Sight.row, hstate]⟩
  others := by
    intro q hq
    exact rowsAt_persistFetched_of_ne [] w p modemIndex now _ hq
  outbound := by rw [visit_gone hr, markUnavailable_outbound]
  dlq := by
    rw [visit_gone hr]
    unfold markUnavailable
    split
    · rfl
    · exact savePatched_dlq w now r _ _
  jobs := persistFetched_jobs [] w p modemIndex now _

/-! ## The state over a run -/

theorem mmState_mergeRow (d : Defaults) (r : InboundSms) :
    (mergeRow d r).mmState =
      pick InboundField.mmState.rank r.mmState d.mmState := current_mergeRow d r .mmState

theorem not_stale_of_unavailable : staleState "unavailable".toList = false := by decide

/-- A state that is not stale is kept. -/
theorem pick_of_settled {cur des : Str} (h : staleState cur = false) :
    pick InboundField.mmState.rank cur des = cur := by
  have hcur := (two_le_rank_mmState cur).mpr h
  have hdes := rank_mmState_le des
  rw [pick, if_neg (by omega)]

/-- A settled state is taken over where the row has none. -/
theorem pick_of_stale {cur des : Str} (hcur : staleState cur = true)
    (hdes : staleState des = false) :
    pick InboundField.mmState.rank cur des = des := by
  have hhigh := (two_le_rank_mmState des).mpr hdes
  have hlow : ¬ 2 ≤ InboundField.mmState.rank cur := by
    rw [two_le_rank_mmState, hcur]
    exact Bool.noConfusion
  rw [pick, if_pos (by omega)]

/-- One call: the state is `unavailable` if it was, or if the call writes it. -/
theorem isGone_visit {w : World} {p : Str} {r : InboundSms} (hr : rowsAt w.inbound p = [r])
    (v : Visit) :
    isGone (v.sight.row v.modemIndex r) ↔ isGone r ∨ ¬ WritesNoUnavailable p w v := by
  obtain ⟨modemIndex, now, sight⟩ := v
  unfold WritesNoUnavailable isGone
  simp only [hr, List.mem_singleton, forall_eq]
  cases sight with
  | gone cause =>
    simp only [Sight.row, goneRow]
    by_cases hin : normalizeMmState r.mmState ∈ unavailableMmStates
    · simp [hin]
    · simp [hin]
  | seen raw =>
    simp only [Sight.row, mmState_mergeRow, show (defaultsOf modemIndex raw).mmState =
      extractState raw from rfl]
    cases hstale : staleState r.mmState with
    | false => simp [pick_of_settled hstale]
    | true =>
      have hcur : r.mmState ≠ "unavailable".toList := by
        intro heq
        rw [heq, not_stale_of_unavailable] at hstale
        cases hstale
      by_cases hdes : extractState raw = "unavailable".toList
      · rw [hdes, pick_of_stale hstale not_stale_of_unavailable]
        simp
      · have hpick : pick InboundField.mmState.rank r.mmState (extractState raw) ≠
            "unavailable".toList := by
          unfold pick
          split
          · exact hdes
          · exact hcur
        exact iff_of_false hpick (not_or.mpr ⟨hcur, not_not_intro (fun _ => hdes)⟩)

/-- The path has a row with the state `unavailable`. -/
def GoneAt (p : Str) (w : World) : Prop := ∃ r, rowsAt w.inbound p = [r] ∧ isGone r

def OneRowAt (p : Str) (w : World) : Prop := ∃ r, rowsAt w.inbound p = [r]

theorem oneRowAt_visit {p : Str} {w : World} (h : OneRowAt p w) (v : Visit) :
    OneRowAt p (visit p w v) := by
  obtain ⟨r, hr⟩ := h
  exact ⟨_, rowsAt_visit hr v⟩

theorem goneAt_visit {p : Str} {w : World} (h : OneRowAt p w) (v : Visit) :
    GoneAt p (visit p w v) ↔ GoneAt p w ∨ ¬ WritesNoUnavailable p w v := by
  obtain ⟨r, hr⟩ := h
  have hafter := rowsAt_visit hr v
  unfold GoneAt
  rw [hafter, hr]
  simpa using isGone_visit hr v

theorem goneAt_visitAll {p : Str} {w : World} (h : OneRowAt p w) (vs : List Visit) :
    GoneAt p (visitAll p w vs) ↔
      GoneAt p w ∨ ¬ Meets (visitStep p) (WritesNoUnavailable p) w vs := by
  apply exec_latch (I := OneRowAt p)
  · intro w v w' hw hstep
    cases hstep
    exact oneRowAt_visit hw v
  · intro w v w' hw hstep
    cases hstep
    exact goneAt_visit hw v
  · exact h
  · exact exec_visitStep p w vs

theorem oneRowAt_visitAll {p : Str} {w : World} (h : OneRowAt p w) (vs : List Visit) :
    OneRowAt p (visitAll p w vs) := by
  induction vs generalizing w with
  | nil => exact h
  | cons v vs ih => exact ih (oneRowAt_visit h v)

/-- The last call reads a state that is not stale. -/
def LastSettled (vs : List Visit) : Prop :=
  ∃ modemIndex now raw, vs.getLast? = some ⟨modemIndex, now, .seen raw⟩ ∧
    staleState (extractState raw) = false

/-- Every path-missing error of the run changes nothing but the state, and after a call that reads a
    settled state the row does not have `unavailable`. -/
structure NoLastingDamage (p : Str) (w : World) (vs : List Visit) : Prop where
  gone : ∀ before after modemIndex now cause,
    vs = before ++ ⟨modemIndex, now, .gone cause⟩ :: after →
    OnlyMmState p now (visitAll p w before)
      (visitAll p w (before ++ [⟨modemIndex, now, .gone cause⟩]))
  last : LastSettled vs →
    ∃ r, rowsAt (visitAll p w vs).inbound p = [r] ∧ r.mmState ≠ "unavailable".toList

/-- For every run of calls on an existing path. -/
theorem no_lasting_damage_iff {p : Str} {w : World} {r : InboundSms}
    (hr : rowsAt w.inbound p = [r]) (vs : List Visit) :
    NoLastingDamage p w vs ↔ (LastSettled vs →
      r.mmState ≠ "unavailable".toList ∧ Meets (visitStep p) (WritesNoUnavailable p) w vs) := by
  have hgone := goneAt_visitAll ⟨r, hr⟩ vs
  obtain ⟨r', hr'⟩ := oneRowAt_visitAll ⟨r, hr⟩ vs
  have hstart : GoneAt p w ↔ isGone r := by simp [GoneAt, hr]
  have hend : GoneAt p (visitAll p w vs) ↔ isGone r' := by simp [GoneAt, hr']
  rw [hstart, hend] at hgone
  have hkept : r'.mmState ≠ "unavailable".toList ↔
      r.mmState ≠ "unavailable".toList ∧ Meets (visitStep p) (WritesNoUnavailable p) w vs := by
    rw [← not_iff_not, not_not, not_and_or, not_not]
    exact hgone
  rw [← hkept]
  constructor
  · intro h hlast
    obtain ⟨s, hs, hne⟩ := h.last hlast
    rw [hr'] at hs
    cases hs
    exact hne
  · intro h
    refine ⟨?_, fun hlast => ⟨r', hr', h hlast⟩⟩
    intro before after modemIndex now cause _
    obtain ⟨s, hs⟩ := oneRowAt_visitAll ⟨r, hr⟩ before
    rw [visitAll, visitAll, List.foldl_append]
    exact onlyMmState_gone hs modemIndex now cause

/-- The object of the row of `blankWorld` is gone for a moment. -/
def outageThenRead : List Visit :=
  [⟨0, 10, .gone { message := "couldn't find sms".toList }⟩,
    ⟨0, 20, .seen (snapshotOf "received" "+351911111111" "hello")⟩]

theorem outage_leaves_unavailable :
    ¬ ∀ (p : Str) (w : World) (r : InboundSms) (vs : List Visit), rowsAt w.inbound p = [r] →
      NoLastingDamage p w vs := by
  intro h
  have hdamage := h firstPath blankWorld blankRow outageThenRead (by decide)
  have hstate : (rowsAt (visitAll firstPath blankWorld outageThenRead).inbound firstPath).map
      InboundSms.mmState = ["unavailable".toList] := by decide
  obtain ⟨r, hr, hne⟩ := hdamage.last ⟨0, 20, _, rfl, by decide⟩
  rw [hr] at hstate
  exact hne (List.singleton_inj.mp hstate)

theorem no_lasting_damage_read_twice :
    NoLastingDamage firstPath blankWorld
      [⟨0, 10, .seen (snapshotOf "receiving" "+351911111111" "hel")⟩,
        ⟨0, 20, .seen (snapshotOf "received" "+351911111111" "hello")⟩] := by
  refine (no_lasting_damage_iff (r := blankRow) (by decide) _).mpr ?_
  intro _
  refine ⟨by decide, ?_⟩
  refine ⟨?_, fun w hw => ⟨?_, fun _ _ => trivial⟩⟩
  · intro r _ _
    decide
  · intro r _ _
    decide

end HiWaveTel
