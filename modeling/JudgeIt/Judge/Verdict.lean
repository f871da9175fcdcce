import JudgeIt.Execution.Result

/-!
# Verdicts

How `JudgeService` turns results into verdicts: one verdict per test up to the first that did not
run to its end, and a final verdict that is the first one other than `ACC`. The outputs are compared
after normalisation, which `joinSpace_tokens_inj` makes a comparison of their tokens.

The final verdict defaults to `ACC`. With at least one result that default means what it should
(`finalVerdicate_eq_acc_iff`); with none it says nothing.
-/

namespace JudgeIt

open JsString

/-- `normalizeOutputStrict(output)`. -/
def normalizeOutputStrict (output : Option JsString) : JsString :=
  match output with
  | none | some [] => []
  | some (u :: s) =>
    joinSpace ((splitSpace (trim (replaceCR (replaceCRLF (u :: s))))).filter
      fun token ↦ 0 < token.length)

/-- The verdict on one test. -/
def verdictOf (result : ExecutionResult) (test : TestCase) : JsString :=
  if result.status ≠ .OK then result.status.text
  else if normalizeOutputStrict test.output = normalizeOutputStrict result.output then "ACC"
  else "WA"

/-- `validateResults(results, tests)`. A result without a test makes it throw. -/
def validateResults : List ExecutionResult → List TestCase → Except JsString (List JsString)
  | [], _ => .ok []
  | result :: _, [] =>
    .error (ofString "TypeError: Cannot read properties of undefined (reading '" ++
      (if result.status ≠ .OK then ofString "name" else ofString "output") ++ ofString "')")
  | result :: results, test :: tests =>
    if result.status ≠ .OK then .ok [verdictOf result test]
    else (validateResults results tests).map (verdictOf result test :: ·)

/-- The final verdict: `ACC`, overwritten by the first verdict that is another. -/
def finalVerdicate (verdicates : List JsString) : JsString :=
  (verdicates.find? (· ≠ ofString "ACC")).getD "ACC"

/-! ## Outputs are compared by their tokens -/

/-- The tokens of an output; a missing output has none. -/
def outputTokens (output : Option JsString) : List JsString := tokens (output.getD [])

theorem normalizeOutputStrict_eq (output : Option JsString) :
    normalizeOutputStrict output = joinSpace (outputTokens output) := by
  match output with
  | none => rfl
  | some [] => rfl
  | some (u :: s) =>
    rw [normalizeOutputStrict, filter_splitSpace, tokens_trim, tokens_replaceCR,
      tokens_replaceCRLF, outputTokens, Option.getD_some]

/-- **Two outputs compare equal exactly when they have the same tokens.** -/
theorem normalizeOutputStrict_inj {expected actual : Option JsString} :
    normalizeOutputStrict expected = normalizeOutputStrict actual ↔
      outputTokens expected = outputTokens actual := by
  rw [normalizeOutputStrict_eq, normalizeOutputStrict_eq, outputTokens, outputTokens,
    joinSpace_tokens_inj]

theorem Status.text_ne_acc (s : Status) : s.text ≠ ofString "ACC" := by
  cases s <;> decide

/-- A test is accepted exactly when it ran to its end and produced the expected tokens. -/
theorem verdictOf_eq_acc_iff {result : ExecutionResult} {test : TestCase} :
    verdictOf result test = ofString "ACC" ↔
      result.status = .OK ∧ outputTokens test.output = outputTokens result.output := by
  have hwa : ofString "WA" ≠ ofString "ACC" := by decide
  rw [verdictOf]
  by_cases hs : result.status = .OK
  · simp only [normalizeOutputStrict_inj]
    by_cases ht : outputTokens test.output = outputTokens result.output
    · simp [hs, ht]
    · simp [hs, ht, hwa]
  · simp [hs, Status.text_ne_acc]

/-- **What is accepted.** A test that ran `OK` is judged `ACC` exactly when the maximal runs of
characters that are not white space are the same in the expected and in the actual output, and so
for the output of a program, which is trimmed first. Normalising twice, or after trimming, changes
nothing. -/
theorem accepts_iff_tokens_eq (expected actual : JsString) :
    (∀ result : ExecutionResult, ∀ test : TestCase, result.status = .OK →
      result.output = some actual → test.output = some expected →
      (verdictOf result test = ofString "ACC" ↔ tokens expected = tokens actual)) ∧
    (∀ info stderr name test, (buildResultFromMeta info actual stderr).status = .OK →
      test.output = some expected →
      (verdictOf { buildResultFromMeta info actual stderr with testCaseName := name } test
        = ofString "ACC" ↔ tokens expected = tokens actual)) ∧
    normalizeOutputStrict (some (normalizeOutputStrict (some actual)))
      = normalizeOutputStrict (some actual) ∧
    normalizeOutputStrict (some (trim actual)) = normalizeOutputStrict (some actual) := by
  refine ⟨fun result test hs hactual hexpected ↦ ?_, fun info stderr name test hs hexpected ↦ ?_,
    ?_, ?_⟩
  · rw [verdictOf_eq_acc_iff, hactual, hexpected]
    exact and_iff_right hs
  · rw [verdictOf_eq_acc_iff, hexpected, output_buildResultFromMeta]
    simp only [outputTokens, Option.getD_some, tokens_trim]
    exact and_iff_right hs
  · rw [normalizeOutputStrict_eq, normalizeOutputStrict_eq]
    exact congrArg joinSpace (tokens_joinSpace_tokens actual)
  · rw [normalizeOutputStrict_eq, normalizeOutputStrict_eq]
    exact congrArg joinSpace (tokens_trim actual)

/-- Line breaks and spacing do not matter; where a token is split does. -/
theorem accepts_iff_tokens_eq_lines :
    let ran : ExecutionResult := { success := true, output := some "1 2\n3", status := .OK }
    verdictOf ran ⟨"1", none, some "\t1 2\r\n3 \r\n"⟩ = ofString "ACC" ∧
      verdictOf ran ⟨"1", none, some "12\n3"⟩ ≠ ofString "ACC" := by
  refine ⟨((accepts_iff_tokens_eq _ _).1 _ _ rfl rfl rfl).mpr (by decide), fun h ↦ ?_⟩
  exact absurd (((accepts_iff_tokens_eq _ _).1 _ _ rfl rfl rfl).mp h) (by decide)

/-! ## Verdict lists -/

/-- The ways `validateResults` returns: at the end of the results, at the first result that did not
run to its end, or with one more verdict in front. -/
inductive Validated : List ExecutionResult → List TestCase → List JsString → Prop
  | nil {tests} : Validated [] tests []
  | stop {result results test tests} : result.status ≠ .OK →
      Validated (result :: results) (test :: tests) [verdictOf result test]
  | cons {result results test tests verdicates} : result.status = .OK →
      Validated results tests verdicates →
      Validated (result :: results) (test :: tests) (verdictOf result test :: verdicates)

variable {results : List ExecutionResult} {tests : List TestCase} {verdicates : List JsString}

theorem validated_of_eq_ok (h : validateResults results tests = .ok verdicates) :
    Validated results tests verdicates := by
  induction results generalizing tests verdicates with
  | nil =>
    cases h
    exact .nil
  | cons result results ih =>
    cases tests with
    | nil => cases h
    | cons test tests =>
      rw [validateResults] at h
      split at h
      · next hs =>
        cases h
        exact .stop hs
      · next hs =>
        cases hv : validateResults results tests with
        | error e =>
          rw [hv] at h
          cases h
        | ok vs =>
          rw [hv] at h
          cases h
          exact .cons (not_not.mp hs) (ih hv)

theorem Validated.eq_ok (h : Validated results tests verdicates) :
    validateResults results tests = .ok verdicates := by
  induction h with
  | nil => rfl
  | stop hs => rw [validateResults, if_pos hs]
  | cons hs _ ih => rw [validateResults, if_neg (not_not.mpr hs), ih]; rfl

theorem exists_validateResults (h : results.length = tests.length) :
    ∃ verdicates, validateResults results tests = .ok verdicates := by
  induction results generalizing tests with
  | nil => exact ⟨[], rfl⟩
  | cons result results ih =>
    cases tests with
    | nil => cases h
    | cons test tests =>
      obtain ⟨vs, hvs⟩ := ih (Nat.succ_injective h)
      rw [validateResults]
      split
      · exact ⟨_, rfl⟩
      · exact ⟨_, by rw [hvs]; rfl⟩

theorem Validated.length_le (h : Validated results tests verdicates) :
    verdicates.length ≤ results.length ∧ verdicates.length ≤ tests.length := by
  induction h with
  | nil => simp
  | stop _ => simp
  | cons _ _ ih => simpa using ih

theorem Validated.exists_verdictOf (h : Validated results tests verdicates) {v : JsString}
    (hv : v ∈ verdicates) : ∃ result test, v = verdictOf result test := by
  induction h with
  | nil => cases hv
  | stop _ => exact ⟨_, _, List.mem_singleton.mp hv⟩
  | cons _ _ ih =>
    rcases List.mem_cons.mp hv with rfl | hv
    · exact ⟨_, _, rfl⟩
    · exact ih hv

/-! ## The final verdict -/

theorem finalVerdicate_eq_acc_iff :
    finalVerdicate verdicates = ofString "ACC" ↔ ∀ v ∈ verdicates, v = ofString "ACC" := by
  rw [finalVerdicate]
  cases h : verdicates.find? (· ≠ ofString "ACC") with
  | none => simpa using h
  | some v =>
    have hv : v ≠ ofString "ACC" := by simpa using List.find?_some h
    simp only [Option.getD_some, hv, false_iff, not_forall]
    exact ⟨v, List.mem_of_find?_eq_some h, hv⟩

/-- **What `ACC` means.** With a result for every test, the final verdict is `ACC` exactly when
every test ran to its end and produced the expected tokens. -/
theorem Validated.finalVerdicate_iff (h : Validated results tests verdicates)
    (hlen : results.length = tests.length) : finalVerdicate verdicates = ofString "ACC" ↔
      List.Forall₂ (fun result test ↦ result.status = .OK ∧
        outputTokens test.output = outputTokens result.output) results tests := by
  rw [finalVerdicate_eq_acc_iff]
  induction h with
  | nil =>
    rw [List.length_eq_zero_iff.mp hlen.symm]
    simp
  | @stop result results test tests hs =>
    have hne : ¬verdictOf result test = ofString "ACC" := fun hv ↦
      hs (verdictOf_eq_acc_iff.mp hv).1
    rw [List.forall₂_cons, ← verdictOf_eq_acc_iff]
    simp [hne]
  | cons _ _ ih =>
    rw [List.forall₂_cons, ← verdictOf_eq_acc_iff, List.forall_mem_cons,
      ih (Nat.succ_injective hlen)]

/-- The final verdicts there are. -/
def finalVerdicts : List JsString := ["ACC", "WA", "TLE", "MLE", "RE", "CE", "SE"]

theorem Validated.finalVerdicate_mem (h : Validated results tests verdicates) :
    finalVerdicate verdicates ∈ finalVerdicts := by
  rw [finalVerdicate]
  cases hf : verdicates.find? (· ≠ ofString "ACC") with
  | none => decide
  | some v =>
    obtain ⟨result, test, rfl⟩ := h.exists_verdictOf (List.mem_of_find?_eq_some hf)
    rw [Option.getD_some, verdictOf]
    split
    · next hs => cases hr : result.status <;> first | exact absurd hr hs | decide
    · split <;> decide

end JudgeIt
