import HiWaveTel.Persist
import HiWaveTel.Foundation.Selection

/- The merge law of inbound persistence. A history of snapshots, persisted one after
   the other, leaves in the row of each path, field by field, the earliest value of the
   highest rank among the snapshots of that path (`merged_persistHistory`): local patches
   amount to a global selection.

   What is proved from it:
     1. `merge_law` — the row of a path in the words of the fields: the earliest of the
        longest texts, the first sender, the first settled state; and what of it does not
        depend on the order of the snapshots.
     2. `message_kept_iff` — which messages survive when ModemManager uses a path again
        for another message: the row keeps the sender of the first and the text of the
        earliest longest. `reused_path_loses_message` is a message that is lost. -/
namespace HiWaveTel
open Foundation

/-- One call of `persist_inbound_sms`, with the snapshot its polling ended with. -/
structure Call where
  mmPath : Str
  modemIndex : Nat
  now : Nat
  raw : Details
  deriving DecidableEq, Repr

def Call.defaults (c : Call) : Defaults := defaultsOf c.modemIndex c.raw

/-- The call, with an empty whitelist. -/
def persistCall (w : World) (c : Call) : World :=
  (persistFetched [] w c.mmPath c.modemIndex c.now (.snapshot c.raw)).1

def persistHistory (w : World) (calls : List Call) : World := calls.foldl persistCall w

def callsAt (p : Str) (calls : List Call) : List Call := calls.filter (fun c => c.mmPath == p)

theorem persistCall_eq (w : World) (c : Call) :
    persistCall w c = (storeSnapshot w c.mmPath c.defaults c.now).1 := rfl

theorem persistHistory_concat (w : World) (calls : List Call) (c : Call) :
    persistHistory w (calls ++ [c]) = persistCall (persistHistory w calls) c := by
  unfold persistHistory
  rw [List.foldl_append]
  rfl

/-! ## Field by field, the earliest value of the highest rank -/

/-- The rows of a path after these snapshots of it. -/
def Merged : List Call → List InboundSms → Prop
  | [], rows => rows = []
  | c :: cs, rows => ∃ r, rows = [r] ∧ r.modemIndex = c.modemIndex ∧
      ∀ f : InboundField, f.current r =
        pickAll f.rank (f.desired c.defaults) (cs.map (fun c => f.desired c.defaults))

theorem current_mergeRow (d : Defaults) (r : InboundSms) (f : InboundField) :
    f.current (mergeRow d r) = pick f.rank (f.current r) (f.desired d) := by
  rw [mergeRow, current_setFields]
  simp only [mem_patchedFields]
  rfl

theorem current_newInboundSms (p : Str) (d : Defaults) (now n : Nat) (f : InboundField) :
    f.current ((newInboundSms p d now).make n) = f.desired d := by
  cases f <;> rfl

theorem callsAt_concat (p : Str) (calls : List Call) (c : Call) :
    callsAt p (calls ++ [c]) = callsAt p calls ++ (if c.mmPath = p then [c] else []) := by
  unfold callsAt
  rw [List.filter_append]
  by_cases hp : c.mmPath = p <;> simp [hp]

/-- One more snapshot of the path. -/
theorem merged_concat {w : World} {calls : List Call} {c : Call}
    (h : Merged calls (rowsAt w.inbound c.mmPath)) :
    Merged (calls ++ [c]) (rowsAt (persistCall w c).inbound c.mmPath) := by
  rw [persistCall_eq]
  cases calls with
  | nil =>
    refine ⟨_, rowsAt_storeSnapshot_new c.defaults c.now h, rfl, ?_⟩
    intro f
    exact current_newInboundSms _ _ _ _ f
  | cons c₀ cs =>
    obtain ⟨r, hrows, hindex, hfields⟩ := h
    refine ⟨_, rowsAt_storeSnapshot_old c.defaults c.now hrows, hindex, ?_⟩
    intro f
    show f.current (mergeRow c.defaults r) = pickAll f.rank (f.desired c₀.defaults)
      ((cs ++ [c]).map (fun c => f.desired c.defaults))
    rw [current_mergeRow, hfields f, List.map_append, List.map_singleton, pickAll_concat]

theorem merged_persistHistory {w : World} {p : Str} (hnew : rowsAt w.inbound p = [])
    (calls : List Call) : Merged (callsAt p calls) (rowsAt (persistHistory w calls).inbound p) := by
  induction calls using List.reverseRecOn with
  | nil => exact hnew
  | append_singleton calls c ih =>
    rw [persistHistory_concat, callsAt_concat]
    by_cases hp : c.mmPath = p
    · rw [if_pos hp]
      subst hp
      exact merged_concat ih
    · rw [if_neg hp, List.append_nil, persistCall_eq, rowsAt_storeSnapshot_of_ne _ _ hp]
      exact ih

/-- Rows of paths that no call names stay as they are. -/
theorem filter_persistHistory {q : Str → Bool} (w : World) (calls : List Call)
    (hq : ∀ c ∈ calls, q c.mmPath = false) :
    (persistHistory w calls).inbound.rows.filter (fun r => q r.mmPath) =
      w.inbound.rows.filter (fun r => q r.mmPath) := by
  induction calls generalizing w with
  | nil => rfl
  | cons c calls ih =>
    show (persistHistory (persistCall w c) calls).inbound.rows.filter _ = _
    rw [ih (persistCall w c) (fun c' hc' => hq c' (by simp [hc'])), persistCall_eq]
    exact filter_storeSnapshot _ _ (hq c (by simp))

/-! ## The selections in the words of the fields -/

/-- The first value that is not blank. -/
def firstNonBlank (vs : List Str) : Str := (vs.find? (fun v => Text.strip v != [])).getD []

/-- Blank, receiving or unknown. -/
def staleState (v : Str) : Bool := staleMmStates.contains (normalizeMmState v)

/-- The first state that is not stale, else the first that is not blank. -/
def settledState (vs : List Str) : Str := (vs.find? (fun v => !staleState v)).getD (firstNonBlank vs)

/-- `r` is the row that `calls` merge into. -/
structure MergeOf (calls : List Call) (r : InboundSms) : Prop where
  modemIndex : calls.head?.map Call.modemIndex = some r.modemIndex
  text : (calls.map (fun c => extractText c.raw)).argmax List.length = some r.text
  fromNumber : r.fromNumber = firstNonBlank (calls.map (fun c => extractFromNumber c.raw))
  smsc : r.smsc = firstNonBlank (calls.map (fun c => extractSmsc c.raw))
  modemTimestampRaw :
    r.modemTimestampRaw = firstNonBlank (calls.map (fun c => extractTimestamp c.raw))
  mmState : r.mmState = settledState (calls.map (fun c => extractState c.raw))

/-- A 0-1 rank selects the first value that is not blank. -/
theorem pickAll_eq_firstNonBlank {rank : Str → Nat}
    (hrank : ∀ v, rank v = if Text.strip v = [] then 0 else 1) {a : Str} {l : List Str}
    (hstrip : ∀ v ∈ a :: l, Text.strip v = v) : pickAll rank a l = firstNonBlank (a :: l) := by
  have hle : ∀ v, rank v ≤ 1 := by
    intro v
    rw [hrank]
    split <;> omega
  have hpred : (fun v => Text.strip v != []) = fun v => decide (1 ≤ rank v) := by
    funext v
    rw [hrank]
    by_cases hv : Text.strip v = [] <;> simp [hv]
  unfold firstNonBlank
  rw [hpred]
  cases hfind : (a :: l).find? (fun v => decide (1 ≤ rank v)) with
  | some x => exact pickAll_eq_of_find? rank (fun v _ => hle v) hfind
  | none =>
    -- all values are blank, and so is the one selected
    have hmem := pickAll_mem rank a l
    have hzero := List.find?_eq_none.mp hfind _ hmem
    rw [decide_eq_true_eq, hrank] at hzero
    have hblank : Text.strip (pickAll rank a l) = [] := by
      by_contra hne
      rw [if_neg hne] at hzero
      exact hzero (Nat.le_refl 1)
    rw [← hstrip _ hmem]
    exact hblank

theorem rank_mmState_le (v : Str) : InboundField.mmState.rank v ≤ 2 := by
  simp only [InboundField.rank]
  split_ifs <;> omega

theorem staleState_of_blank {v : Str} (h : Text.strip v = []) : staleState v = true := by
  rw [staleState, normalizeMmState_eq_nil.mpr h]
  decide

theorem two_le_rank_mmState (v : Str) : 2 ≤ InboundField.mmState.rank v ↔ staleState v = false := by
  simp only [InboundField.rank]
  by_cases hb : Text.strip v = []
  · simp [hb, staleState_of_blank hb]
  · by_cases hs : normalizeMmState v ∈ staleMmStates <;> simp [hb, hs, staleState]

theorem pickAll_eq_settledState {a : Str} {l : List Str}
    (hstrip : ∀ v ∈ a :: l, Text.strip v = v) :
    pickAll InboundField.mmState.rank a l = settledState (a :: l) := by
  have hpred : (fun v => !staleState v) = fun v => decide (2 ≤ InboundField.mmState.rank v) := by
    funext v
    have h := two_le_rank_mmState v
    cases hs : staleState v <;> simp [hs] at h ⊢ <;> omega
  unfold settledState
  rw [hpred]
  cases hfind : (a :: l).find? (fun v => decide (2 ≤ InboundField.mmState.rank v)) with
  | some x => exact pickAll_eq_of_find? _ (fun v _ => rank_mmState_le v) hfind
  | none =>
    -- all states are stale: the rank is that of a field that is there or not
    have hstale : ∀ v ∈ a :: l, InboundField.mmState.rank v = InboundField.smsc.rank v := by
      intro v hv
      have hlt := List.find?_eq_none.mp hfind v hv
      rw [decide_eq_true_eq] at hlt
      simp only [InboundField.rank] at hlt ⊢
      split_ifs at hlt ⊢ <;> omega
    have hsel : pickAll InboundField.mmState.rank a l = pickAll InboundField.smsc.rank a l := by
      have h := argmax_congr hstale
      rw [argmax_cons_eq_pickAll, argmax_cons_eq_pickAll] at h
      exact Option.some.inj h
    rw [hsel]
    exact pickAll_eq_firstNonBlank (fun _ => rfl) hstrip

/-- What a snapshot offers for a field has no surrounding whitespace. -/
theorem strip_desired (c : Call) (f : InboundField) :
    Text.strip (f.desired c.defaults) = f.desired c.defaults := by
  cases f
  · exact strip_extractFromNumber _
  · exact strip_extractText _
  · exact strip_extractState _
  · exact strip_extractSmsc _
  · exact strip_extractTimestamp _

theorem strip_desired_of_mem (calls : List Call) (f : InboundField) {v : Str}
    (hv : v ∈ calls.map (fun c => f.desired c.defaults)) : Text.strip v = v := by
  obtain ⟨c, _, rfl⟩ := List.mem_map.mp hv
  exact strip_desired c f

theorem mergeOf_of_merged {calls : List Call} {rows : List InboundSms} (hne : calls ≠ [])
    (h : Merged calls rows) : ∃ r, rows = [r] ∧ MergeOf calls r := by
  cases calls with
  | nil => exact absurd rfl hne
  | cons c cs =>
    obtain ⟨r, hrows, hindex, hfields⟩ := h
    have hstrip : ∀ f : InboundField, ∀ v ∈ f.desired c.defaults :: cs.map
        (fun c => f.desired c.defaults), Text.strip v = v := by
      intro f v hv
      exact strip_desired_of_mem (c :: cs) f hv
    have hfirst : ∀ f : InboundField, (∀ v, f.rank v = if Text.strip v = [] then 0 else 1) →
        f.current r = firstNonBlank ((c :: cs).map (fun c => f.desired c.defaults)) := by
      intro f hf
      rw [hfields f]
      exact pickAll_eq_firstNonBlank hf (hstrip f)
    refine ⟨r, hrows, ?_⟩
    refine ⟨?_, ?_, ?_, ?_, ?_, ?_⟩
    · rw [hindex]
      rfl
    · have htext := argmax_cons_eq_pickAll InboundField.text.rank
        (InboundField.text.desired c.defaults)
        (cs.map (fun c => InboundField.text.desired c.defaults))
      rw [← hfields .text] at htext
      have hlen : ∀ v ∈ (c :: cs).map (fun c => InboundField.text.desired c.defaults),
          v.length = InboundField.text.rank v := by
        intro v hv
        show v.length = (Text.strip v).length
        rw [hstrip .text v hv]
      exact (argmax_congr hlen).trans htext
    · exact hfirst .fromNumber (fun _ => rfl)
    · exact hfirst .smsc (fun _ => rfl)
    · exact hfirst .modemTimestampRaw (fun _ => rfl)
    · exact (hfields .mmState).trans (pickAll_eq_settledState (hstrip .mmState))

/-! ## The merge law -/

theorem strip_of_merged {calls : List Call} {r : InboundSms} (h : Merged calls [r])
    (f : InboundField) : Text.strip (f.current r) = f.current r := by
  cases calls with
  | nil => cases h
  | cons c cs =>
    obtain ⟨s, hs, _, hfields⟩ := h
    cases hs
    apply strip_desired_of_mem (c :: cs) f
    rw [hfields f]
    exact pickAll_mem _ _ _

theorem rank_of_perm {calls calls' : List Call} {r r' : InboundSms} (hperm : calls'.Perm calls)
    (h : Merged calls [r]) (h' : Merged calls' [r']) (f : InboundField) :
    f.rank (f.current r') = f.rank (f.current r) := by
  cases calls with
  | nil => cases h
  | cons c cs =>
    cases calls' with
    | nil => cases h'
    | cons c' cs' =>
      obtain ⟨s, hs, _, hfields⟩ := h
      obtain ⟨s', hs', _, hfields'⟩ := h'
      cases hs
      cases hs'
      rw [hfields f, hfields' f]
      exact rank_pickAll_of_perm f.rank (hperm.map (fun c : Call => f.desired c.defaults))

/-- Length of the text and staleness of the state do not depend on the order. -/
theorem merged_of_perm {calls calls' : List Call} {r r' : InboundSms} (hperm : calls'.Perm calls)
    (h : Merged calls [r]) (h' : Merged calls' [r']) :
    r'.text.length = r.text.length ∧ staleState r'.mmState = staleState r.mmState := by
  have hrank := rank_of_perm hperm h h'
  refine ⟨?_, ?_⟩
  · calc r'.text.length
        = (Text.strip r'.text).length := by rw [show Text.strip r'.text = _ from strip_of_merged h' .text]; rfl
      _ = (Text.strip r.text).length := hrank .text
      _ = r.text.length := by rw [show Text.strip r.text = _ from strip_of_merged h .text]; rfl
  · have hr := two_le_rank_mmState r.mmState
    have hr' := two_le_rank_mmState r'.mmState
    rw [show InboundField.mmState.rank r'.mmState = _ from hrank .mmState] at hr'
    have hiff : staleState r.mmState = false ↔ staleState r'.mmState = false := hr.symm.trans hr'
    cases hs : staleState r.mmState with
    | false => exact hiff.mp hs
    | true =>
      cases hs' : staleState r'.mmState with
      | true => rfl
      | false =>
        rw [hiff.mpr hs'] at hs
        exact hs

/-- A history of snapshots of one path that has no row yet. -/
theorem merge_law (w : World) (p : Str) (calls : List Call) (hne : calls ≠ [])
    (hp : ∀ c ∈ calls, c.mmPath = p) (hnew : ∀ r ∈ w.inbound.rows, r.mmPath ≠ p) :
    ∃ r, rowsAt (persistHistory w calls).inbound p = [r] ∧ MergeOf calls r ∧
      (persistHistory w calls).inbound.rows.filter (fun s => s.mmPath != p) =
        w.inbound.rows.filter (fun s => s.mmPath != p) ∧
      ∀ calls', calls'.Perm calls → ∃ r', rowsAt (persistHistory w calls').inbound p = [r'] ∧
        r'.text.length = r.text.length ∧ staleState r'.mmState = staleState r.mmState := by
  have hnew : rowsAt w.inbound p = [] := by
    apply List.filter_eq_nil_iff.mpr
    intro r hr
    simpa using hnew r hr
  have hmerged : ∀ calls' : List Call, calls'.Perm calls →
      Merged calls' (rowsAt (persistHistory w calls').inbound p) := by
    intro calls' hperm
    have hall : callsAt p calls' = calls' := by
      apply List.filter_eq_self.mpr
      intro c hc
      simpa using hp c (hperm.subset hc)
    have hm := merged_persistHistory hnew calls'
    rw [hall] at hm
    exact hm
  obtain ⟨r, hr, hmerge⟩ := mergeOf_of_merged hne (hmerged calls (List.Perm.refl _))
  refine ⟨r, hr, hmerge, ?_, ?_⟩
  · apply filter_persistHistory (q := (· != p))
    intro c hc
    simpa using hp c hc
  · intro calls' hperm
    have hne' : calls' ≠ [] := by
      intro hnil
      rw [hnil] at hperm
      exact hne hperm.nil_eq.symm
    obtain ⟨r', hr', _⟩ := mergeOf_of_merged hne' (hmerged calls' hperm)
    refine ⟨r', hr', ?_⟩
    have h := hmerged calls (List.Perm.refl _)
    have h' := hmerged calls' hperm
    rw [hr] at h
    rw [hr'] at h'
    exact merged_of_perm hperm h h'

/-- A multipart message: its text is complete in the second snapshot. -/
def twoParts : List Call :=
  [⟨firstPath, 0, 10, snapshotOf "receiving" "+351911111111" "part"⟩,
    ⟨firstPath, 1, 20, snapshotOf "received" "--" "part one, part two"⟩]

theorem merge_law_two_parts :
    ∃ r, rowsAt (persistHistory emptyWorld twoParts).inbound firstPath = [r] ∧
      (r.modemIndex, r.fromNumber, r.text, r.mmState) =
        (0, "+351911111111".toList, "part one, part two".toList, "received".toList) := by
  obtain ⟨r, hr, hmerge, _⟩ := merge_law emptyWorld firstPath twoParts (by decide) (by decide)
    (by intro r hr; cases hr)
  have hindex : some 0 = some r.modemIndex := hmerge.modemIndex
  have htext : some "part one, part two".toList = some r.text := by
    rw [← hmerge.text]
    decide
  refine ⟨r, hr, ?_⟩
  rw [hmerge.fromNumber, hmerge.mmState, ← Option.some.inj hindex, ← Option.some.inj htext]
  decide

/-! ## Object paths that are used again -/

/-- A message received in full. -/
structure Message where
  call : Call
  sender_ne : extractFromNumber call.raw ≠ []
  text_ne : extractText call.raw ≠ []
  received : normalizeMmState (extractState call.raw) = "received".toList

def Message.path (m : Message) : Str := m.call.mmPath
def Message.sender (m : Message) : Str := extractFromNumber m.call.raw
def Message.text (m : Message) : Str := extractText m.call.raw

def persistMessages (w : World) (ms : List Message) : World := persistHistory w (ms.map Message.call)

def messagesAt (p : Str) (ms : List Message) : List Message := ms.filter (fun m => m.path == p)

/-- The row of the message's path has its sender and its text. -/
def Kept (w : World) (m : Message) : Prop :=
  ∃ r ∈ w.inbound.rows, r.mmPath = m.path ∧ r.fromNumber = m.sender ∧ r.text = m.text

theorem callsAt_messages (p : Str) (ms : List Message) :
    callsAt p (ms.map Message.call) = (messagesAt p ms).map Message.call := by
  unfold callsAt messagesAt
  rw [List.filter_map]
  rfl

theorem firstNonBlank_cons {v : Str} (hv : Text.strip v ≠ []) (vs : List Str) :
    firstNonBlank (v :: vs) = v := by
  rw [firstNonBlank, List.find?_cons_of_pos (by simpa using hv)]
  rfl

/-- The row of a path after a history: the first sender and the earliest longest text. -/
theorem rowsAt_persistMessages {w : World} {p : Str} {ms : List Message}
    (hnew : ∀ r ∈ w.inbound.rows, r.mmPath ≠ p) (hne : messagesAt p ms ≠ []) :
    ∃ r, rowsAt (persistMessages w ms).inbound p = [r] ∧
      (messagesAt p ms).head?.map Message.sender = some r.fromNumber ∧
      ((messagesAt p ms).map Message.text).argmax List.length = some r.text := by
  have hnew : rowsAt w.inbound p = [] := by
    apply List.filter_eq_nil_iff.mpr
    intro r hr
    simpa using hnew r hr
  have hmerged := merged_persistHistory hnew (ms.map Message.call)
  rw [callsAt_messages] at hmerged
  obtain ⟨r, hr, hmerge⟩ := mergeOf_of_merged (by simpa using hne) hmerged
  refine ⟨r, hr, ?_, ?_⟩
  · have hsender := hmerge.fromNumber
    cases hms : messagesAt p ms with
    | nil => exact absurd hms hne
    | cons m rest =>
      rw [hms, List.map_cons, List.map_cons, firstNonBlank_cons] at hsender
      · rw [hsender]
        rfl
      · rw [strip_extractFromNumber]
        exact m.sender_ne
  · have htext := hmerge.text
    rw [List.map_map] at htext
    exact htext

/-- A message survives exactly when its sender is that of the first message of its path
    and its text is the earliest of the longest there. -/
theorem message_kept_iff (w : World) (ms : List Message)
    (hnew : ∀ r ∈ w.inbound.rows, ∀ m ∈ ms, r.mmPath ≠ m.path) :
    ∀ m ∈ ms,
      (Kept (persistMessages w ms) m ↔
        (messagesAt m.path ms).head?.map Message.sender = some m.sender ∧
        ((messagesAt m.path ms).map Message.text).argmax List.length = some m.text) ∧
      (messagesAt m.path ms = [m] → Kept (persistMessages w ms) m) := by
  intro m hm
  have hne : messagesAt m.path ms ≠ [] := by
    have hmem : m ∈ messagesAt m.path ms := List.mem_filter.mpr ⟨hm, by simp⟩
    exact List.ne_nil_of_mem hmem
  obtain ⟨r, hr, hsender, htext⟩ := rowsAt_persistMessages (fun r hr => hnew r hr m hm) hne
  have hkept : Kept (persistMessages w ms) m ↔ r.fromNumber = m.sender ∧ r.text = m.text := by
    refine ⟨?_, ?_⟩
    · intro h
      obtain ⟨s, hs, hpath, hrest⟩ := h
      have hsr := rowsAt_eq_singleton hs
      rw [hpath, hr] at hsr
      cases hsr
      exact hrest
    · intro h
      have hmem := mem_of_rowsAt (p := m.path) (r := r) (t := (persistMessages w ms).inbound)
        (by rw [hr]; simp)
      exact ⟨r, hmem.1, hmem.2, h⟩
  have hiff : Kept (persistMessages w ms) m ↔
      (messagesAt m.path ms).head?.map Message.sender = some m.sender ∧
      ((messagesAt m.path ms).map Message.text).argmax List.length = some m.text := by
    rw [hkept, hsender, htext, Option.some.injEq, Option.some.injEq]
  refine ⟨hiff, ?_⟩
  intro hone
  rw [hiff, hone]
  exact ⟨rfl, rfl⟩

/-- Two messages that got the same path, the second after a restart of the daemon. -/
def beforeRestart : Message :=
  ⟨⟨firstPath, 0, 10, snapshotOf "received" "+351911111111" "see you at nine"⟩, by decide, by decide,
    by decide⟩

def afterRestart : Message :=
  ⟨⟨firstPath, 0, 20, snapshotOf "received" "+351922222222" "code 4711"⟩, by decide, by decide,
    by decide⟩

/-- The second message is in no row. -/
theorem reused_path_loses_message :
    ¬ ∀ ms : List Message, ms.Pairwise (fun a b => (a.path, a.sender, a.text) ≠
        (b.path, b.sender, b.text)) →
      ∀ m ∈ ms, ∃ r ∈ (persistMessages emptyWorld ms).inbound.rows,
        r.fromNumber = m.sender ∧ r.text = m.text := by
  intro h
  have hrow := h [beforeRestart, afterRestart] (by decide) afterRestart (by simp)
  exact absurd hrow (by decide)

/-- Two messages on paths of their own. -/
theorem message_kept_iff_two_paths :
    Kept (persistMessages emptyWorld [beforeRestart,
      ⟨⟨"/org/freedesktop/ModemManager1/SMS/1".toList, 0, 20,
        snapshotOf "received" "+351922222222" "code 4711"⟩, by decide, by decide, by decide⟩])
      beforeRestart := by
  refine (message_kept_iff emptyWorld _ ?_ beforeRestart ?_).2 ?_
  · intro r hr
    cases hr
  · simp
  · rfl

end HiWaveTel
