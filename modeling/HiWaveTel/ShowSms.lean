import HiWaveTel.Foundation.Retry
import HiWaveTel.MmcliOutput
import HiWaveTel.MmcliRuns

/- The snapshot of one SMS object (`MMCLIClient.show_sms`) and that of a modem
   (`MMCLIClient.show_modem`). Both merge `--output-keyvalue` with `--output-json`.
   `show_modem` leaves an `--output-json` out that does not end with zero; `show_sms` runs
   it through `_retrying_run`, which raises. `showSms_json_optional_iff` says when JSON is
   optional all the same: when the faults of its runs are absorbed by the retries. -/
namespace HiWaveTel
open Foundation

section Show
variable {σ : Type} (loads : Str → Option Json) (cfg : MmcliSettings)

/-- The arguments of the three commands do not matter here. -/
def showSms : Mmcli σ Details := do
  let cpKv ← retryingRun cfg "show-kv".toList
  let kvData := parseKeyvalue cpKv.stdout
  let cpJs ← retryingRun cfg "show-json".toList
  let jsData := jsonDetails loads cpJs.stdout
  let mergedMain := mergeMmcliSources [kvData, jsData]
  if mergedMain ≠ [] then pure mergedMain
  else do
    let cpPlain ← retryingRun cfg "show-plain".toList
    ensureOk cpPlain "mmcli -s show".toList
    pure (mergeMmcliSources [kvData, jsData, parseKeyvalue cpPlain.stdout])

def showModem : Mmcli σ Details := do
  let cpKv ← run cfg
  if cpKv.returncode ≠ 0 then
    Script.raise (.mmcli { message := "Failed to inspect modem (--output-keyvalue)".toList
                           stdout := cpKv.stdout, stderr := cpKv.stderr
                           exitCode := some cpKv.returncode })
  else do
    let kvData := parseKeyvalue cpKv.stdout
    let cpJs ← run cfg
    let jsData := if cpJs.returncode = 0 then jsonDetails loads cpJs.stdout else []
    let mergedMain := mergeMmcliSources [kvData, jsData]
    if mergedMain ≠ [] then pure mergedMain
    else do
      let cpPlain ← run cfg
      ensureOk cpPlain "mmcli -m".toList
      pure (mergeMmcliSources [kvData, jsData, parseKeyvalue cpPlain.stdout])

end Show

theorem contained_showModem {σ : Type} {loads : Str → Option Json} {cfg : MmcliSettings} :
    MmcliContained 3 (showModem loads cfg : Mmcli σ Details) := by
  refine contained_bind (k := 2) contained_run (fun cpKv => ?_)
  by_cases hzero : cpKv.returncode ≠ 0
  · rw [if_pos hzero]
    have hmessage : startsVisible "Failed to inspect modem (--output-keyvalue)".toList = true := by
      decide
    exact contained_raise 2 hmessage
  · rw [if_neg hzero]
    refine contained_bind (k := 1) contained_run (fun cpJs => ?_)
    by_cases hmerged : mergeMmcliSources [parseKeyvalue cpKv.stdout,
        if cpJs.returncode = 0 then jsonDetails loads cpJs.stdout else []] ≠ []
    · rw [if_pos hmerged]
      exact contained_pure 1 _
    · rw [if_neg hmerged]
      refine contained_bind (k := 0) contained_run (fun cpPlain => ?_)
      refine contained_bind (k := 0) (contained_ensureOk (by decide)) (fun _ => ?_)
      exact contained_pure 0 _

theorem ignores_showModem {σ : Type} {loads : Str → Option Json} {cfg : MmcliSettings} :
    Script.Ignores (showModem loads cfg : Mmcli σ Details) (showModem loads cfg) := by
  refine Script.ignores_bind ignores_run (fun cpKv => ?_)
  by_cases hzero : cpKv.returncode ≠ 0
  · rw [if_pos hzero, if_pos hzero]
    exact Script.ignores_raise _
  · rw [if_neg hzero, if_neg hzero]
    refine Script.ignores_bind ignores_run (fun cpJs => ?_)
    by_cases hmerged : mergeMmcliSources [parseKeyvalue cpKv.stdout,
        if cpJs.returncode = 0 then jsonDetails loads cpJs.stdout else []] ≠ []
    · rw [if_pos hmerged, if_pos hmerged]
      exact Script.ignores_pure _
    · rw [if_neg hmerged, if_neg hmerged]
      refine Script.ignores_bind ignores_run (fun cpPlain => ?_)
      exact Script.ignores_bind ignores_ensureOk (fun _ => Script.ignores_pure _)

/-! ## Runs that are retried -/

/-- Run number `i` as a fault: none if it ends with zero. A run that is missing counts as one
    that could not be started. -/
def runFault (rs : List RunResult) (i : Nat) : Option RunResult :=
  match rs.getD i .launchFailed with
  | .completed returncode stdout stderr =>
    if returncode = 0 then none else some (.completed returncode stdout stderr)
  | r => some r

/-- `_retrying_run` goes on after it. -/
def transientRun (what : Str) : RunResult → Bool
  | .completed returncode stdout stderr =>
    (notOk ⟨returncode, stdout, stderr⟩ what).any defaultShouldRetry
  | _ => false

section Runs
variable {σ : Type} {cfg : MmcliSettings} {what : Str}

theorem absorbed_nil {n : Nat} : ¬ Absorbed (transientRun what) (runFault []) n 0 := by
  intro h
  obtain ⟨k, _, hnone, _⟩ := h
  simp [runFault] at hnone

/-- The first run decides, or the runs after it do. -/
theorem absorbed_cons {r : RunResult} {rs : List RunResult} {n : Nat} :
    Absorbed (transientRun what) (runFault (r :: rs)) (n + 1) 0 ↔
      runFault [r] 0 = none ∨
        ((runFault [r] 0).any (transientRun what) = true ∧
          Absorbed (transientRun what) (runFault rs) n 0) := by
  have hhead : runFault (r :: rs) 0 = runFault [r] 0 := rfl
  have htail : ∀ i, runFault (r :: rs) (0 + 1 + i) = runFault rs (0 + i) := by
    intro i
    rw [Nat.zero_add, Nat.zero_add, Nat.add_comm]
    rfl
  rw [absorbed_succ, hhead]
  simp only [Absorbed, htail]

theorem absorbed_cons_failed {r : RunResult} {rs : List RunResult} {n : Nat}
    (hfault : runFault [r] 0 = some r) (hstop : transientRun what r = false) :
    ¬ Absorbed (transientRun what) (runFault (r :: rs)) (n + 1) 0 := by
  rw [absorbed_cons, hfault]
  rintro (hnone | ⟨ht, _⟩)
  · cases hnone
  · rw [Option.any_some, hstop] at ht
    cases ht

/-- A failed attempt is the last one, or the loop goes on. -/
theorem retryingRunLoop_failed {returncode : Int} {stdout stderr : Str} {exc : MmcliError}
    (h : notOk ⟨returncode, stdout, stderr⟩ what = some exc) (n : Nat) (s : σ)
    (rs : List RunResult) :
    retryingRunLoop cfg what (n + 1) s (.completed returncode stdout stderr :: rs) =
      if n = 0 ∨ defaultShouldRetry exc = false then some (.error (.mmcli exc), s, rs)
      else retryingRunLoop cfg what n s rs := by
  have hrun : run cfg s (.completed returncode stdout stderr :: rs) =
      some (.ok ⟨returncode, stdout, stderr⟩, s, rs) := rfl
  rw [retryingRunLoop]
  refine (Script.bind_of_ok hrun).trans ?_
  rw [h]
  dsimp only
  split <;> rfl

/-- There is an output exactly when the retries absorb the faults, and the state is left
    alone. -/
theorem retryingRunLoop_cases (n : Nat) (s : σ) (rs : List RunResult) :
    (Absorbed (transientRun what) (runFault rs) n 0 ∧
      ∃ cp rest, retryingRunLoop cfg what n s rs = some (.ok cp, s, rest)) ∨
    (¬ Absorbed (transientRun what) (runFault rs) n 0 ∧
      ∀ cp s' rest, retryingRunLoop cfg what n s rs ≠ some (.ok cp, s', rest)) := by
  induction n generalizing rs with
  | zero =>
    refine Or.inr ⟨?_, fun cp s' rest h => by cases h⟩
    intro h
    obtain ⟨k, hk, _⟩ := h
    exact Nat.not_lt_zero k hk
  | succ n ih =>
    cases rs with
    | nil => exact Or.inr ⟨absorbed_nil, fun cp s' rest h => by cases h⟩
    | cons r rs =>
      cases r with
      | timeout =>
        exact Or.inr ⟨absorbed_cons_failed rfl rfl, fun cp s' rest h => by cases h⟩
      | launchFailed =>
        exact Or.inr ⟨absorbed_cons_failed rfl rfl, fun cp s' rest h => by cases h⟩
      | completed returncode stdout stderr =>
        by_cases hzero : returncode = 0
        · subst hzero
          refine Or.inl ⟨absorbed_cons.mpr (Or.inl rfl), ⟨0, stdout, stderr⟩, rs, rfl⟩
        · have hfault : runFault [RunResult.completed returncode stdout stderr] 0 =
              some (.completed returncode stdout stderr) := if_neg hzero
          obtain ⟨exc, hexc⟩ : ∃ exc, notOk ⟨returncode, stdout, stderr⟩ what = some exc :=
            ⟨_, if_neg hzero⟩
          have htransient : transientRun what (.completed returncode stdout stderr) =
              defaultShouldRetry exc := by
            rw [transientRun, hexc, Option.any_some]
          rw [retryingRunLoop_failed hexc]
          by_cases hstop : n = 0 ∨ defaultShouldRetry exc = false
          · rw [if_pos hstop]
            refine Or.inr ⟨?_, fun cp s' rest h => by cases h⟩
            rcases hstop with rfl | hstop
            · rw [absorbed_cons, hfault]
              rintro (hnone | ⟨_, k, hk, _⟩)
              · cases hnone
              · exact Nat.not_lt_zero k hk
            · exact absorbed_cons_failed hfault (htransient.trans hstop)
          · rw [if_neg hstop, absorbed_cons, hfault, Option.any_some, htransient]
            rw [not_or, Bool.not_eq_false] at hstop
            rcases ih rs with ⟨habs, hok⟩ | ⟨habs, hfails⟩
            · exact Or.inl ⟨Or.inr ⟨hstop.2, habs⟩, hok⟩
            · refine Or.inr ⟨?_, hfails⟩
              rintro (hnone | ⟨_, h⟩)
              · cases hnone
              · exact habs h

theorem retryingRun_cases (s : σ) (rs : List RunResult) :
    (Absorbed (transientRun what) (runFault rs) cfg.maxRetries 0 ∧
      ∃ cp rest, retryingRun cfg what s rs = some (.ok cp, s, rest)) ∨
    (¬ Absorbed (transientRun what) (runFault rs) cfg.maxRetries 0 ∧
      ∀ cp s' rest, retryingRun cfg what s rs ≠ some (.ok cp, s', rest)) :=
  retryingRunLoop_cases cfg.maxRetries s rs

end Runs

/-! ## JSON as an optional source -/

section Optional
variable {σ : Type} {loads : Str → Option Json} {cfg : MmcliSettings} {s : σ}
  {rs rs₁ rest : List RunResult} {cpKv cpJs : CompletedProcess}

/-- Every field of `kvData` is in `d`, with a value that is no shorter. -/
def Covers (kvData d : Details) : Prop :=
  ∀ k v, kvData.get k = some v → isBlankMmcliValue v = false →
    ∃ w, d.get k = some w ∧ v.length ≤ w.length

/-- A field is not blank. -/
def HasField (p : Details) : Prop := ∃ k v, p.get k = some v ∧ isBlankMmcliValue v = false

theorem covers_mergeMmcliSources {text : Str} {parts : List Details}
    (h : parseKeyvalue text ∈ parts) : Covers (parseKeyvalue text) (mergeMmcliSources parts) := by
  intro k v hget hblank
  have hpart := get_mergeMmcliSources_of_part h hget hblank
  rwa [strip_of_get_parseKeyvalue hget] at hpart

theorem mergeMmcliSources_ne_nil {p : Details} {parts : List Details} (h : p ∈ parts)
    (hfield : HasField p) : mergeMmcliSources parts ≠ [] := by
  obtain ⟨k, v, hget, hblank⟩ := hfield
  obtain ⟨w, hw, _⟩ := get_mergeMmcliSources_of_part h hget hblank
  intro hnil
  rw [hnil] at hw
  cases hw

/-- Two outputs, and nothing missing. -/
theorem showSms_of_runs (hkv : retryingRun cfg "show-kv".toList s rs = some (.ok cpKv, s, rs₁))
    (hjs : retryingRun cfg "show-json".toList s rs₁ = some (.ok cpJs, s, rest))
    (hmerged : mergeMmcliSources [parseKeyvalue cpKv.stdout, jsonDetails loads cpJs.stdout] ≠ []) :
    showSms loads cfg s rs =
      some (.ok (mergeMmcliSources [parseKeyvalue cpKv.stdout, jsonDetails loads cpJs.stdout]), s,
        rest) := by
  refine (Script.bind_of_ok hkv).trans ((Script.bind_of_ok hjs).trans ?_)
  rw [if_pos hmerged]
  rfl

/-- A fault of `--output-json` that is left after the retries is one of `show_sms`. -/
theorem showSms_not_ok (hkv : retryingRun cfg "show-kv".toList s rs = some (.ok cpKv, s, rs₁))
    (hnot : ¬ Absorbed (transientRun "show-json".toList) (runFault rs₁) cfg.maxRetries 0)
    (d : Details) (s' : σ) : showSms loads cfg s rs ≠ some (.ok d, s', rest) := by
  intro hshow
  rcases Script.bind_cases hshow with ⟨e, _, he⟩ | ⟨cp, s₁, rest₁, hfirst, hthen⟩
  · cases he
  · rw [hkv] at hfirst
    cases hfirst
    rcases Script.bind_cases hthen with ⟨e, _, he⟩ | ⟨cpJs, s₂, rest₂, hjs, _⟩
    · cases he
    · rcases retryingRun_cases s rs₁ with ⟨habs, _⟩ | ⟨_, hfails⟩
      · exact hnot habs
      · exact hfails cpJs s₂ rest₂ hjs

/-- `show_sms` returns, with all of the key-value output, exactly when the retries of
    `--output-json` absorb its faults. -/
theorem showSms_json_optional_iff
    (hkv : retryingRun cfg "show-kv".toList s rs = some (.ok cpKv, s, rs₁))
    (hfield : HasField (parseKeyvalue cpKv.stdout)) :
    (∃ d s' rest, showSms loads cfg s rs = some (.ok d, s', rest) ∧
        Covers (parseKeyvalue cpKv.stdout) d) ↔
      Absorbed (transientRun "show-json".toList) (runFault rs₁) cfg.maxRetries 0 := by
  constructor
  · intro h
    by_contra hnot
    obtain ⟨d, s', rest, hshow, _⟩ := h
    exact showSms_not_ok hkv hnot d s' hshow
  · intro habs
    rcases retryingRun_cases s rs₁ with ⟨_, cpJs, rest, hjs⟩ | ⟨hnot, _⟩
    · refine ⟨_, s, rest, showSms_of_runs hkv hjs ?_, ?_⟩
      · exact mergeMmcliSources_ne_nil List.mem_cons_self hfield
      · exact covers_mergeMmcliSources List.mem_cons_self
    · exact absurd habs hnot

/-- `show_modem` returns whatever `--output-json` ends with and prints. -/
theorem showModem_json_optional {stdout stderr stdoutJs stderrJs : Str} (returncode : Int)
    (hfield : HasField (parseKeyvalue stdout)) :
    ∃ d, showModem loads cfg s
        (.completed 0 stdout stderr :: .completed returncode stdoutJs stderrJs :: rest) =
      some (.ok d, s, rest) ∧ Covers (parseKeyvalue stdout) d := by
  obtain ⟨jsData, hjs⟩ :
      ∃ jsData, jsData = if returncode = 0 then jsonDetails loads stdoutJs else [] := ⟨_, rfl⟩
  have hmerged : mergeMmcliSources [parseKeyvalue stdout, jsData] ≠ [] :=
    mergeMmcliSources_ne_nil List.mem_cons_self hfield
  refine ⟨mergeMmcliSources [parseKeyvalue stdout, jsData], ?_,
    covers_mergeMmcliSources List.mem_cons_self⟩
  show (if mergeMmcliSources [parseKeyvalue stdout,
      if returncode = 0 then jsonDetails loads stdoutJs else []] ≠ [] then Script.pure _
    else _ : Mmcli σ Details) s rest = _
  rw [← hjs, if_pos hmerged]
  rfl

/-- A run that failed for a moment is made again, and what it prints is no JSON. -/
theorem showSms_json_optional_malformed :
    ∃ d s' rest, showSms (fun _ => none) ⟨"30".toList, 3, by decide⟩ ()
        [.completed 0 "sms.content.number : +351912345678\n".toList [],
          .completed 1 [] "error: operation in progress".toList,
          .completed 0 "no object".toList []] = some (.ok d, s', rest) ∧
      Covers (parseKeyvalue "sms.content.number : +351912345678\n".toList) d := by
  have hfield : HasField (parseKeyvalue "sms.content.number : +351912345678\n".toList) :=
    ⟨"smscontentnumber".toList, "+351912345678".toList, by decide +kernel⟩
  have hkv : retryingRun ⟨"30".toList, 3, by decide⟩ "show-kv".toList ()
        [.completed 0 "sms.content.number : +351912345678\n".toList [],
          .completed 1 [] "error: operation in progress".toList,
          .completed 0 "no object".toList []] =
      some (.ok ⟨0, "sms.content.number : +351912345678\n".toList, []⟩, (),
        [.completed 1 [] "error: operation in progress".toList,
          .completed 0 "no object".toList []]) := rfl
  refine (showSms_json_optional_iff hkv hfield).mpr ⟨1, by decide, rfl, ?_⟩
  intro j hj
  rw [Nat.lt_one_iff.mp hj]
  decide +kernel

/-- A run that fails for good takes the key-value output with it. -/
theorem showSms_json_not_optional :
    ¬ ∀ (loads : Str → Option Json) (cfg : MmcliSettings) (stdout : Str) (returncode : Int)
        (stdoutJs stderrJs : Str) (rs : List RunResult),
      HasField (parseKeyvalue stdout) → cfg.maxRetries ≤ rs.length →
      ∃ d s' rest, showSms loads cfg ()
          (.completed 0 stdout [] :: .completed returncode stdoutJs stderrJs :: rs) =
        some (.ok d, s', rest) ∧ Covers (parseKeyvalue stdout) d := by
  intro h
  have hfield : HasField (parseKeyvalue "sms.content.number : +351912345678\n".toList) :=
    ⟨"smscontentnumber".toList, "+351912345678".toList, by decide +kernel⟩
  obtain ⟨d, s', rest, hshow, _⟩ := h (fun _ => none) ⟨"30".toList, 3, by decide⟩ _ 1 []
    "error: couldn't find object".toList (List.replicate 3 (.completed 0 [] [])) hfield (by decide)
  refine showSms_not_ok rfl ?_ d s' hshow
  exact absorbed_cons_failed rfl (by decide +kernel)

end Optional

end HiWaveTel
