import HiWaveTel.Persist
import HiWaveTel.Foundation.Run
import Mathlib.Logic.Function.Basic

/- `persist_inbound_sms` by several workers on one path, at the granularity of its
   steps: fetch the snapshot (under `mmcli_serial`), read the row (under the SQLite
   lock), compute the patch from the row read, save the patched fields. The last two
   are under no lock, so a save is decided on a row that may have changed since.

   `concurrent_text_kept_iff` says exactly which interleavings keep the longest text:
   those in which no save writes a text shorter than the stored one. A save can do so when
   somebody stores a longer text between the read and the save of a worker that goes on to
   write its own, or when the text it read has blanks around it, which the comparison of the
   lengths leaves out. `concurrent_text_can_shrink` is an interleaving that loses text.
   `concurrentStep_sequential` ties the steps to `persistFetched`. -/
namespace HiWaveTel
open Foundation

/-- Where a call of `persist_inbound_sms` is. -/
inductive PersistPhase where
  | idle
  | fetched (d : Defaults)
  | looked (d : Defaults) (row : InboundSms)
  | patched (d : Defaults) (row : InboundSms) (fields : List InboundField)
  deriving DecidableEq, Repr

/-- The snapshot the call has in hand. -/
def PersistPhase.snapshot? : PersistPhase → Option Defaults
  | .idle => none
  | .fetched d => some d
  | .looked d _ => some d
  | .patched d _ _ => some d

/-- Its copy of the row. -/
def PersistPhase.copy? : PersistPhase → Option InboundSms
  | .looked _ row => some row
  | .patched _ row _ => some row
  | _ => none

/-- The snapshot whose text its save will write. -/
def PersistPhase.writesText? : PersistPhase → Option Defaults
  | .patched d _ fields => if .text ∈ fields then some d else none
  | _ => none

structure PersistState (ω : Type) where
  world : World
  worker : ω → PersistPhase
  texts : List Str          -- the texts of all snapshots fetched so far

inductive PersistAction (ω : Type) where
  | fetch (w : ω) (modemIndex : Nat) (raw : Details)
  | read (w : ω) (now : Nat)
  | compute (w : ω)
  | save (w : ω) (now : Nat)
  deriving DecidableEq, Repr

section Step
variable {ω : Type} [DecidableEq ω]

def PersistState.setPhase (s : PersistState ω) (w : ω) (ph : PersistPhase) : PersistState ω :=
  { s with worker := Function.update s.worker w ph }

def concurrentStep (p : Str) (s : PersistState ω) : PersistAction ω → Option (PersistState ω)
  | .fetch w modemIndex raw =>
    match s.worker w with
    | .idle =>
      some ({ s with texts := s.texts ++ [extractText raw] }.setPhase w
        (.fetched (defaultsOf modemIndex raw)))
    | _ => none
  -- the only statement under the lock
  | .read w now =>
    match s.worker w with
    | .fetched d =>
      match getOrCreateInbound s.world p d now with
      | (world, _, true) => some ({ s with world := removeFromDlq world p }.setPhase w .idle)
      | (world, row, false) => some ({ s with world }.setPhase w (.looked d row))
    | _ => none
  | .compute w =>
    match s.worker w with
    | .looked d row => some (s.setPhase w (.patched d row (patchedFields row d)))
    | _ => none
  | .save w now =>
    match s.worker w with
    | .patched d row fields =>
      some ({ s with world := removeFromDlq (savePatched s.world row fields d now).1 p }.setPhase w
        .idle)
    | _ => none

def PersistState.start (w : World) : PersistState ω := ⟨w, fun _ => .idle, []⟩

/-- The text in the row of the path. -/
def storedText (p : Str) (w : World) : Str := ((rowsAt w.inbound p).map InboundSms.text).headD []

/-- The step does not make the stored text shorter. -/
def NeverShrinks (p : Str) (s : PersistState ω) (a : PersistAction ω) : Prop :=
  ∀ t, concurrentStep p s a = some t →
    (storedText p s.world).length ≤ (storedText p t.world).length

/-- A save that writes a text does not find a longer one stored. -/
def SaveNotShorter (p : Str) (s : PersistState ω) : PersistAction ω → Prop
  | .save w _ =>
    ∀ d ∈ (s.worker w).writesText?, (storedText p s.world).length ≤ d.text.length
  | _ => True

instance (p : Str) (s : PersistState ω) (a : PersistAction ω) : Decidable (SaveNotShorter p s a) := by
  cases a <;> (unfold SaveNotShorter; infer_instance)

/-- The row has the longest of the first text and the texts fetched. -/
def HasLongest (p : Str) (first : Str) (s : PersistState ω) : Prop :=
  storedText p s.world ∈ first :: s.texts ∧
    ∀ x ∈ first :: s.texts, x.length ≤ (storedText p s.world).length

theorem setPhase_phase (s : PersistState ω) (w v : ω) (ph : PersistPhase) :
    (v = w ∧ (s.setPhase w ph).worker v = ph) ∨
      (v ≠ w ∧ (s.setPhase w ph).worker v = s.worker v) :=
  update_cases s.worker w ph v

/-- The steps on a path that has a row. -/
inductive PersistMove (p : Str) (r : InboundSms) (s : PersistState ω) :
    PersistAction ω → PersistState ω → Prop
  | fetch {w modemIndex raw} (hw : s.worker w = .idle) :
      PersistMove p r s (.fetch w modemIndex raw)
        ({ s with texts := s.texts ++ [extractText raw] }.setPhase w
          (.fetched (defaultsOf modemIndex raw)))
  | read {w now d} (hw : s.worker w = .fetched d) :
      PersistMove p r s (.read w now) (s.setPhase w (.looked d r))
  | compute {w d row} (hw : s.worker w = .looked d row) :
      PersistMove p r s (.compute w) (s.setPhase w (.patched d row (patchedFields row d)))
  | save {w now d row fields} (hw : s.worker w = .patched d row fields) :
      PersistMove p r s (.save w now)
        ({ s with world := removeFromDlq (savePatched s.world row fields d now).1 p }.setPhase w
          .idle)

theorem getOrCreateInbound_of_row {w : World} {p : Str} {r : InboundSms}
    (h : rowsAt w.inbound p = [r]) (d : Defaults) (now : Nat) :
    getOrCreateInbound w p d now = (w, r, false) := by
  rcases getOrCreateInbound_cases w p d now with ⟨r', hr', rfl, he⟩ | ⟨_, hnone, _⟩
  · rw [rowsAt_eq_singleton hr'] at h
    cases h
    exact he
  · rw [h] at hnone
    cases hnone

theorem concurrentStep_cases {p : Str} {r : InboundSms} {s t : PersistState ω}
    {a : PersistAction ω} (hrow : rowsAt s.world.inbound p = [r])
    (h : concurrentStep p s a = some t) : PersistMove p r s a t := by
  cases a with
  | fetch w modemIndex raw =>
    simp only [concurrentStep] at h
    split at h
    · next hw => cases h; exact .fetch hw
    · cases h
  | read w now =>
    simp only [concurrentStep] at h
    split at h
    · next d hw =>
      rw [getOrCreateInbound_of_row hrow] at h
      cases h
      exact .read hw
    · cases h
  | compute w =>
    simp only [concurrentStep] at h
    split at h
    · next hw => cases h; exact .compute hw
    · cases h
  | save w now =>
    simp only [concurrentStep] at h
    split at h
    · next hw => cases h; exact .save hw
    · cases h

/-! ## The row under concurrent saves -/

theorem rowsAt_savePatched {w : World} {p : Str} {r row : InboundSms}
    (h : rowsAt w.inbound p = [r]) (hpk : row.pk = r.pk) (fields : List InboundField)
    (d : Defaults) (now : Nat) :
    rowsAt (savePatched w row fields d now).1.inbound p = [setFields fields d r] := by
  obtain ⟨hr, hrp⟩ := mem_of_rowsAt (p := p) (r := r) (t := w.inbound) (by rw [h]; simp)
  unfold savePatched
  split
  · next hnil =>
    rw [hnil, setFields_nil]
    exact h
  · rw [onSave_inbound]
    show rowsAt (w.inbound.update row.pk (saveFields fields d)) p = _
    rw [hpk, ← hrp]
    exact rowsAt_update_self hr fields d

theorem storedText_of_rowsAt {w : World} {p : Str} {r : InboundSms}
    (h : rowsAt w.inbound p = [r]) : storedText p w = r.text := by
  rw [storedText, h]
  rfl

/-- Every worker works on the one row of the path. -/
structure SharedRow (p : Str) (s : PersistState ω) (r : InboundSms) : Prop where
  row : rowsAt s.world.inbound p = [r]
  copy_pk : ∀ v c, (s.worker v).copy? = some c → c.pk = r.pk

theorem sharedRow_setPhase {p : Str} {s : PersistState ω} {r : InboundSms} (h : SharedRow p s r)
    (w : ω) {ph : PersistPhase} (hph : ∀ c, ph.copy? = some c → c.pk = r.pk) (texts : List Str) :
    SharedRow p ({ s with texts }.setPhase w ph) r := by
  refine ⟨h.row, ?_⟩
  intro v c hc
  rcases setPhase_phase { s with texts } w v ph with ⟨_, hq⟩ | ⟨_, hq⟩
  · rw [hq] at hc
    exact hph c hc
  · rw [hq] at hc
    exact h.copy_pk v c hc

/-- The row after a step: as before, or with the saved fields. -/
theorem sharedRow_step {p : Str} {s t : PersistState ω} {r : InboundSms} {a : PersistAction ω}
    (h : SharedRow p s r) (hmove : PersistMove p r s a t) : ∃ r', SharedRow p t r' := by
  cases hmove with
  | fetch hw => exact ⟨r, sharedRow_setPhase h _ (fun c hc => by cases hc) _⟩
  | read hw =>
    refine ⟨r, sharedRow_setPhase h _ ?_ s.texts⟩
    intro c hc
    cases hc
    rfl
  | @compute w d row hw =>
    refine ⟨r, sharedRow_setPhase h _ ?_ s.texts⟩
    intro c hc
    cases hc
    exact h.copy_pk w row (by rw [hw]; rfl)
  | @save w now d row fields hw =>
    have hpk : row.pk = r.pk := h.copy_pk w row (by rw [hw]; rfl)
    have hsaved : SharedRow p
        { s with world := removeFromDlq (savePatched s.world row fields d now).1 p }
        (setFields fields d r) := ⟨rowsAt_savePatched h.row hpk fields d now, h.copy_pk⟩
    exact ⟨_, sharedRow_setPhase hsaved w (fun c hc => by cases hc) s.texts⟩

/-- What the saves of a run that never writes a shorter text keep true: a text fetched is
    in the row, under a longer one, or in the hands of a call. -/
structure KeptText (p : Str) (first : Str) (s : PersistState ω) (r : InboundSms) : Prop where
  shared : SharedRow p s r
  patch : ∀ v d c fields, s.worker v = .patched d c fields → fields = patchedFields c d
  copy_le : ∀ v c, (s.worker v).copy? = some c → c.text.length ≤ r.text.length
  held : ∀ v d, (s.worker v).snapshot? = some d → d.text ∈ s.texts ∧ Text.strip d.text = d.text
  origin : r.text ∈ first :: s.texts
  covered : ∀ x ∈ first :: s.texts, x.length ≤ r.text.length ∨
    ∃ v d, (s.worker v).snapshot? = some d ∧ d.text = x

theorem keptText_fetch {p first : Str} {s : PersistState ω} {r : InboundSms}
    (h : KeptText p first s r) {w : ω} (hw : s.worker w = .idle) (modemIndex : Nat)
    (raw : Details) :
    KeptText p first ({ s with texts := s.texts ++ [extractText raw] }.setPhase w
      (.fetched (defaultsOf modemIndex raw))) r := by
  have hphase := fun v => setPhase_phase { s with texts := s.texts ++ [extractText raw] } w v
    (.fetched (defaultsOf modemIndex raw))
  have hmem : ∀ x ∈ first :: s.texts, x ∈ first :: (s.texts ++ [extractText raw]) := by
    intro x hx
    rw [← List.cons_append]
    exact List.mem_append_left _ hx
  refine ⟨sharedRow_setPhase h.shared w (fun c hc => by cases hc) _, ?_, ?_, ?_, ?_, ?_⟩
  · intro v d c fields hv
    rcases hphase v with ⟨_, hq⟩ | ⟨_, hq⟩ <;> rw [hq] at hv
    · cases hv
    · exact h.patch v d c fields hv
  · intro v c hv
    rcases hphase v with ⟨_, hq⟩ | ⟨_, hq⟩ <;> rw [hq] at hv
    · cases hv
    · exact h.copy_le v c hv
  · intro v d hv
    rcases hphase v with ⟨_, hq⟩ | ⟨_, hq⟩ <;> rw [hq] at hv
    · cases hv
      exact ⟨List.mem_append_right _ (List.mem_singleton_self _), strip_extractText raw⟩
    · obtain ⟨hd, hs⟩ := h.held v d hv
      exact ⟨List.mem_append_left _ hd, hs⟩
  · exact hmem _ h.origin
  · intro x hx
    change x ∈ first :: (s.texts ++ [extractText raw]) at hx
    rw [← List.cons_append] at hx
    rcases List.mem_append.mp hx with hx | hx
    · rcases h.covered x hx with hle | ⟨v, d, hv, hd⟩
      · exact Or.inl hle
      · -- the worker that fetches had nothing in its hands
        have hvw : v ≠ w := by
          intro he
          rw [he, hw] at hv
          cases hv
        rcases hphase v with ⟨he, _⟩ | ⟨_, hq⟩
        · exact absurd he hvw
        · exact Or.inr ⟨v, d, by rw [hq]; exact hv, hd⟩
    · rcases hphase w with ⟨_, hq⟩ | ⟨he, _⟩
      · exact Or.inr ⟨w, _, by rw [hq]; rfl, (List.mem_singleton.mp hx).symm⟩
      · exact absurd rfl he

/-- A step of one worker that keeps its snapshot and touches neither row nor texts. -/
theorem keptText_setPhase {p first : Str} {s : PersistState ω} {r : InboundSms}
    (h : KeptText p first s r) (w : ω) (ph : PersistPhase)
    (hsnap : ph.snapshot? = (s.worker w).snapshot?)
    (hcopy : ∀ c, ph.copy? = some c → c.pk = r.pk ∧ c.text.length ≤ r.text.length)
    (hpatch : ∀ d c fields, ph = .patched d c fields → fields = patchedFields c d) :
    KeptText p first (s.setPhase w ph) r := by
  have hphase := fun v => setPhase_phase s w v ph
  have hsame : ∀ v, ((s.setPhase w ph).worker v).snapshot? = (s.worker v).snapshot? := by
    intro v
    rcases hphase v with ⟨he, hq⟩ | ⟨_, hq⟩ <;> rw [hq]
    rw [he]
    exact hsnap
  refine ⟨sharedRow_setPhase h.shared w (fun c hc => (hcopy c hc).1) s.texts, ?_, ?_, ?_, h.origin,
    ?_⟩
  · intro v d c fields hv
    rcases hphase v with ⟨_, hq⟩ | ⟨_, hq⟩ <;> rw [hq] at hv
    · exact hpatch d c fields hv
    · exact h.patch v d c fields hv
  · intro v c hv
    rcases hphase v with ⟨_, hq⟩ | ⟨_, hq⟩ <;> rw [hq] at hv
    · exact (hcopy c hv).2
    · exact h.copy_le v c hv
  · intro v d hv
    rw [hsame] at hv
    exact h.held v d hv
  · intro x hx
    rcases h.covered x hx with hle | ⟨v, d, hv, hd⟩
    · exact Or.inl hle
    · exact Or.inr ⟨v, d, by rw [hsame]; exact hv, hd⟩

/-- The text of the row after a save that does not write a shorter one. -/
theorem saved_text {d : Defaults} {r c : InboundSms} {fields : List InboundField}
    (hpatch : fields = patchedFields c d) (hstrip : Text.strip d.text = d.text)
    (hcopy : c.text.length ≤ r.text.length)
    (hsave : .text ∈ fields → r.text.length ≤ d.text.length) :
    r.text.length ≤ (setFields fields d r).text.length ∧
      d.text.length ≤ (setFields fields d r).text.length ∧
      ((setFields fields d r).text = d.text ∨ (setFields fields d r).text = r.text) := by
  have htext : (setFields fields d r).text = if .text ∈ fields then d.text else r.text := rfl
  by_cases hmem : .text ∈ fields
  · rw [htext, if_pos hmem]
    exact ⟨hsave hmem, Nat.le_refl _, Or.inl rfl⟩
  · rw [htext, if_neg hmem]
    refine ⟨Nat.le_refl _, ?_, Or.inr rfl⟩
    -- the worker found a text at least as long as its own when it read the row
    have hrank : ¬ InboundField.text.rank c.text < InboundField.text.rank d.text := by
      intro hlt
      apply hmem
      rw [hpatch]
      exact mem_patchedFields.mpr hlt
    have hlen : d.text.length ≤ (Text.strip c.text).length := by
      have hle : (Text.strip d.text).length ≤ (Text.strip c.text).length := Nat.le_of_not_lt hrank
      rw [hstrip] at hle
      exact hle
    have hstripped : (Text.strip c.text).length ≤ c.text.length := Text.strip_length_le c.text
    omega

theorem keptText_save {p first : Str} {s : PersistState ω} {r : InboundSms}
    (h : KeptText p first s r) {w : ω} {d : Defaults} {c : InboundSms}
    {fields : List InboundField} (hw : s.worker w = .patched d c fields)
    (hsave : .text ∈ fields → r.text.length ≤ d.text.length) (now : Nat) :
    KeptText p first
      ({ s with world := removeFromDlq (savePatched s.world c fields d now).1 p }.setPhase w .idle)
      (setFields fields d r) := by
  have hsnap : (s.worker w).snapshot? = some d := by rw [hw]; rfl
  have hcopy : (s.worker w).copy? = some c := by rw [hw]; rfl
  obtain ⟨hd, hstrip⟩ := h.held w d hsnap
  obtain ⟨hr_le, hd_le, htext⟩ :=
    saved_text (h.patch w d c fields hw) hstrip (h.copy_le w c hcopy) hsave
  have hphase := fun v => setPhase_phase
    { s with world := removeFromDlq (savePatched s.world c fields d now).1 p } w v .idle
  have hshared : SharedRow p
      { s with world := removeFromDlq (savePatched s.world c fields d now).1 p }
      (setFields fields d r) :=
    ⟨rowsAt_savePatched h.shared.row (h.shared.copy_pk w c hcopy) fields d now, h.shared.copy_pk⟩
  refine ⟨sharedRow_setPhase hshared w (fun c hc => by cases hc) s.texts, ?_, ?_, ?_, ?_, ?_⟩
  · intro v d' c' fields' hv
    rcases hphase v with ⟨_, hq⟩ | ⟨_, hq⟩ <;> rw [hq] at hv
    · cases hv
    · exact h.patch v d' c' fields' hv
  · intro v c' hv
    rcases hphase v with ⟨_, hq⟩ | ⟨_, hq⟩ <;> rw [hq] at hv
    · cases hv
    · exact Nat.le_trans (h.copy_le v c' hv) hr_le
  · intro v d' hv
    rcases hphase v with ⟨_, hq⟩ | ⟨_, hq⟩ <;> rw [hq] at hv
    · cases hv
    · exact h.held v d' hv
  · rcases htext with he | he <;> rw [he]
    · exact List.mem_cons_of_mem _ hd
    · exact h.origin
  · intro x hx
    rcases h.covered x hx with hle | ⟨v, d', hv, hdx⟩
    · exact Or.inl (Nat.le_trans hle hr_le)
    · rcases hphase v with ⟨he, _⟩ | ⟨_, hq⟩
      · -- the text of the worker that saves
        rw [he, hsnap] at hv
        cases hv
        rw [← hdx]
        exact Or.inl hd_le
      · exact Or.inr ⟨v, d', by rw [hq]; exact hv, hdx⟩

theorem keptText_step {p first : Str} {s t : PersistState ω} {r : InboundSms} {a : PersistAction ω}
    (h : KeptText p first s r) (hok : SaveNotShorter p s a) (hmove : PersistMove p r s a t) :
    ∃ r', KeptText p first t r' ∧ r.text.length ≤ r'.text.length := by
  cases hmove with
  | @fetch w modemIndex raw hw => exact ⟨r, keptText_fetch h hw modemIndex raw, Nat.le_refl _⟩
  | @read w now d hw =>
    refine ⟨r, keptText_setPhase h w _ ?_ ?_ ?_, Nat.le_refl _⟩
    · rw [hw]
      rfl
    · intro c hc
      cases hc
      exact ⟨rfl, Nat.le_refl _⟩
    · intro d' c fields he
      cases he
  | @compute w d c hw =>
    have hcopy : (s.worker w).copy? = some c := by rw [hw]; rfl
    refine ⟨r, keptText_setPhase h w _ ?_ ?_ ?_, Nat.le_refl _⟩
    · rw [hw]
      rfl
    · intro c' hc
      cases hc
      exact ⟨h.shared.copy_pk w c hcopy, h.copy_le w c hcopy⟩
    · intro d' c' fields he
      cases he
      rfl
  | @save w now d c fields hw =>
    have hsave : .text ∈ fields → r.text.length ≤ d.text.length := by
      intro hmem
      rw [← storedText_of_rowsAt h.shared.row]
      exact hok d (by rw [hw]; exact if_pos hmem)
    refine ⟨_, keptText_save h hw hsave now, ?_⟩
    have hcopy : (s.worker w).copy? = some c := by rw [hw]; rfl
    obtain ⟨_, hstrip⟩ := h.held w d (by rw [hw]; rfl)
    exact (saved_text (h.patch w d c fields hw) hstrip (h.copy_le w c hcopy) hsave).1

omit [DecidableEq ω] in
theorem keptText_start {p : Str} {w : World} {r : InboundSms} (h : rowsAt w.inbound p = [r]) :
    KeptText p r.text (PersistState.start w : PersistState ω) r := by
  refine ⟨⟨h, ?_⟩, ?_, ?_, ?_, List.mem_cons_self, ?_⟩
  · intro v c hc
    cases hc
  · intro v d c fields hv
    cases hv
  · intro v c hc
    cases hc
  · intro v d hd
    cases hd
  · intro x hx
    rcases List.mem_cons.mp hx with rfl | hx
    · exact Or.inl (Nat.le_refl _)
    · cases hx

theorem patched_of_writesText {ph : PersistPhase} {d : Defaults} (h : ph.writesText? = some d) :
    ∃ c fields, ph = .patched d c fields ∧ .text ∈ fields := by
  cases ph with
  | patched d' c fields =>
    obtain ⟨hmem, he⟩ := Option.ite_none_right_eq_some.mp h
    cases he
    exact ⟨c, fields, rfl, hmem⟩
  | _ => cases h

/-- A save that writes a shorter text makes the stored text shorter. -/
theorem saveNotShorter_of_neverShrinks {p : Str} {s : PersistState ω} {a : PersistAction ω}
    (h : ∃ r, SharedRow p s r) (hok : NeverShrinks p s a) : SaveNotShorter p s a := by
  obtain ⟨r, h⟩ := h
  cases a with
  | save w now =>
    intro d hd
    obtain ⟨c, fields, hw, hmem⟩ := patched_of_writesText hd
    have hpk : c.pk = r.pk := h.copy_pk w c (by rw [hw]; rfl)
    have hrow : rowsAt (removeFromDlq (savePatched s.world c fields d now).1 p).inbound p =
        [setFields fields d r] := rowsAt_savePatched h.row hpk fields d now
    have hsaved : storedText p (removeFromDlq (savePatched s.world c fields d now).1 p) = d.text := by
      rw [storedText_of_rowsAt hrow]
      exact if_pos hmem
    calc (storedText p s.world).length
        ≤ (storedText p (removeFromDlq (savePatched s.world c fields d now).1 p)).length :=
          hok _ (by simp only [concurrentStep, hw]; rfl)
      _ = d.text.length := by rw [hsaved]
  | _ => trivial

theorem sharedRow_invariant {p : Str} (s : PersistState ω) (a : PersistAction ω)
    (t : PersistState ω) (h : ∃ r, SharedRow p s r) (_ : NeverShrinks p s a)
    (ht : concurrentStep p s a = some t) : ∃ r, SharedRow p t r := by
  obtain ⟨r, h⟩ := h
  exact sharedRow_step h (concurrentStep_cases h.row ht)

theorem keptText_invariant {p first : Str} (s : PersistState ω) (a : PersistAction ω)
    (t : PersistState ω) (h : ∃ r, KeptText p first s r) (hok : SaveNotShorter p s a)
    (ht : concurrentStep p s a = some t) : ∃ r, KeptText p first t r := by
  obtain ⟨r, h⟩ := h
  obtain ⟨r', h', _⟩ := keptText_step h hok (concurrentStep_cases h.shared.row ht)
  exact ⟨r', h'⟩

omit [DecidableEq ω] in
/-- Where no call is under way, the row has the longest text. -/
theorem hasLongest_of_keptText {p first : Str} {s : PersistState ω} {r : InboundSms}
    (h : KeptText p first s r) (hidle : ∀ v, s.worker v = .idle) : HasLongest p first s := by
  unfold HasLongest
  rw [storedText_of_rowsAt h.shared.row]
  refine ⟨h.origin, ?_⟩
  intro x hx
  rcases h.covered x hx with hle | ⟨v, d, hv, _⟩
  · exact hle
  · rw [hidle v] at hv
    cases hv

/-- The stored text never shrinks and ends as the longest there was, exactly in the
    interleavings in which no save writes a text shorter than the stored one. -/
theorem concurrent_text_kept_iff (p : Str) (w : World) (r : InboundSms)
    (hrow : rowsAt w.inbound p = [r]) (as : List (PersistAction ω)) :
    (Meets (concurrentStep p) (NeverShrinks p) (PersistState.start w) as ∧
      ∀ t, exec (concurrentStep p) (PersistState.start w) as = some t →
        (∀ v, t.worker v = .idle) → HasLongest p r.text t) ↔
    Meets (concurrentStep p) (SaveNotShorter p) (PersistState.start w) as := by
  have hstart : KeptText p r.text (PersistState.start w : PersistState ω) r := keptText_start hrow
  refine ⟨?_, ?_⟩
  · intro h
    exact h.1.mono_of_invariant sharedRow_invariant
      (fun _ _ hs hok => saveNotShorter_of_neverShrinks hs hok) ⟨r, hstart.shared⟩
  · intro hmeets
    refine ⟨?_, ?_⟩
    · apply hmeets.mono_of_invariant (I := fun s => ∃ r', KeptText p r.text s r')
        keptText_invariant _ ⟨r, hstart⟩
      intro s a hs hok t ht
      obtain ⟨r₁, h₁⟩ := hs
      obtain ⟨r₂, h₂, hle⟩ := keptText_step h₁ hok (concurrentStep_cases h₁.shared.row ht)
      rw [storedText_of_rowsAt h₁.shared.row, storedText_of_rowsAt h₂.shared.row]
      exact hle
    · intro t ht hidle
      have hreach : Reaches (concurrentStep p) (SaveNotShorter p) (PersistState.start w) t :=
        ⟨as, hmeets, ht⟩
      obtain ⟨r', hr'⟩ := hreach.invariant (I := fun s => ∃ r', KeptText p r.text s r')
        keptText_invariant ⟨r, hstart⟩
      exact hasLongest_of_keptText hr' hidle

/-- The steps of one call, without an interruption, are `persist_inbound_sms`. -/
theorem concurrentStep_sequential {p : Str} {s : PersistState ω} {r : InboundSms}
    (hrow : rowsAt s.world.inbound p = [r]) {w : ω} (hw : s.worker w = .idle) (modemIndex now : Nat)
    (raw : Details) :
    (exec (concurrentStep p) s [.fetch w modemIndex raw, .read w now, .compute w, .save w now]).map
        PersistState.world =
      some (persistFetched [] s.world p modemIndex now (.snapshot raw)).1 := by
  have hget := getOrCreateInbound_of_row hrow (defaultsOf modemIndex raw) now
  have hstore : (persistFetched [] s.world p modemIndex now (.snapshot raw)).1 =
      removeFromDlq (savePatched s.world r (patchedFields r (defaultsOf modemIndex raw))
        (defaultsOf modemIndex raw) now).1 p := by
    show (storeSnapshot s.world p (defaultsOf modemIndex raw) now).1 = _
    unfold storeSnapshot
    rw [hget]
    rfl
  rw [hstore]
  simp [exec, concurrentStep, PersistState.setPhase, hw, hget]

end Step

/-! ## An interleaving that loses text -/

/-- The signal and the periodic snapshot bring the path to two workers: one sees the
    first part, the other one both parts, and the one with less saves last. -/
theorem concurrent_text_can_shrink :
    ¬ ∀ (as : List (PersistAction Bool)) (t : PersistState Bool),
      exec (concurrentStep firstPath) (PersistState.start blankWorld) as = some t →
      (∀ v, t.worker v = .idle) → HasLongest firstPath blankRow.text t := by
  intro h
  have hrun : (exec (concurrentStep firstPath) (PersistState.start blankWorld)
      [.fetch true 0 (snapshotOf "receiving" "+351911111111" "part one"),
        .fetch false 0 (snapshotOf "received" "+351911111111" "part one, part two"),
        .read true 10, .read false 10, .compute true, .compute false, .save false 20,
        .save true 30]).map
        (fun t => (storedText firstPath t.world, t.texts, t.worker true, t.worker false)) =
      some ("part one".toList, ["part one".toList, "part one, part two".toList], .idle, .idle) := by
    decide
  obtain ⟨t, ht, hrun⟩ := Option.map_eq_some_iff.mp hrun
  simp only [Prod.mk.injEq] at hrun
  obtain ⟨htext, htexts, htrue, hfalse⟩ := hrun
  have hlong := h _ t ht (by intro v; cases v <;> assumption)
  have hle := hlong.2 "part one, part two".toList (by rw [htexts]; simp)
  rw [htext] at hle
  exact absurd hle (by decide)

/-- One worker after the other: the text of both parts stays. -/
theorem concurrent_text_kept_one_by_one :
    ∃ t : PersistState Bool, storedText firstPath t.world = "part one, part two".toList ∧
      HasLongest firstPath blankRow.text t := by
  have hrun : (execIf (concurrentStep firstPath) (SaveNotShorter firstPath)
      (PersistState.start blankWorld)
      [.fetch false 0 (snapshotOf "received" "+351911111111" "part one, part two"), .read false 10,
        .compute false, .save false 20,
        .fetch true 0 (snapshotOf "receiving" "+351911111111" "part one"), .read true 30,
        .compute true, .save true 30]).map
        (fun t => (storedText firstPath t.world, t.worker true, t.worker false)) =
      some ("part one, part two".toList, .idle, .idle) := by decide
  obtain ⟨t, ht, hrun⟩ := Option.map_eq_some_iff.mp hrun
  simp only [Prod.mk.injEq] at hrun
  obtain ⟨htext, htrue, hfalse⟩ := hrun
  have hkept := (concurrent_text_kept_iff firstPath blankWorld blankRow rfl _).mpr
    (meets_of_execIf ht)
  exact ⟨t, htext, hkept.2 t (exec_of_execIf ht) (by intro v; cases v <;> assumption)⟩

end HiWaveTel
