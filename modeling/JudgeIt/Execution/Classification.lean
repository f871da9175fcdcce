import JudgeIt.Execution.Result

/-!
# What metadata is classified as `OK`

A result is `OK` when the metadata says so, and the metadata is a text that may say anything or
nothing. Two defaults meet. Parsing infers the status `RE` when there is no status and the exit code
is not `0`, and reads a missing exit code as the number 0; classification takes `RE` with exit code
0 for `OK`. So what is inferred because the exit code is missing is undone because it is missing,
and a text that reports nothing is classified as `OK`. `ok_sound_iff` is exact about it.
-/

namespace JudgeIt

open JsString

/-- The exit code a metadata text reports, if it has an entry for it that starts with a number. A
malformed value reports what `parseInt` reads of it: `0.9` and `0x` report 0. -/
def reportedExitCode (text : JsString) : Option ℤ := ((rawMeta text).get "exitcode").bind parseInt

/-- The status a metadata text reports, if it has an entry for it that is not empty. -/
def reportedStatus (text : JsString) : Option JsString :=
  ((rawMeta text).get "status").filter (· ≠ [])

/-- The text reports exit code 0, and no status that is abnormal. -/
structure ReportsSuccess (text : JsString) : Prop where
  exitCode : reportedExitCode text = some 0
  status : ∀ s, reportedStatus text = some s → s = ofString "OK"

/-- What the code takes for a success: a status of `OK`, `RE` or none, and an exit code of 0 or
none. -/
structure ClassifiedOk (text : JsString) : Prop where
  exitCode : ∀ n, reportedExitCode text = some n → n = 0
  status : ∀ s, reportedStatus text = some s → s = ofString "OK" ∨ s = ofString "RE"

/-- The text says enough: either it reports a status other than `OK` and `RE`, or it reports an exit
code, which is not 0 when the status is `RE`. -/
def SaysEnough (text : JsString) : Prop :=
  (∃ s, reportedStatus text = some s ∧ s ≠ ofString "OK" ∧ s ≠ ofString "RE") ∨
  ∃ n, reportedExitCode text = some n ∧ (reportedStatus text = some (ofString "RE") → n ≠ 0)

variable {info : IsolateMeta} {text output stderr : JsString}

/-! ## Classification -/

theorem status_buildResultFromMeta_eq_ok_iff :
    (buildResultFromMeta info output stderr).status = .OK ↔
      (info.status = ofString "OK" ∨ info.status = ofString "RE") ∧ info.exitCode = 0 := by
  simp only [buildResultFromMeta]
  by_cases hs : info.status = ofString "OK" ∨ info.status = ofString "RE"
  · by_cases hexit : info.exitCode = 0 <;> simp [hs, hexit]
  · rw [if_neg hs]
    split_ifs <;> exact iff_of_false (by simp) fun h ↦ hs h.1

theorem success_buildResultFromMeta_iff :
    (buildResultFromMeta info output stderr).success ↔
      (buildResultFromMeta info output stderr).status = .OK := by
  simp only [buildResultFromMeta]
  split_ifs <;> simp

/-! ## Parsing -/

theorem orElse_eq (a : Option JsString) (b : JsString) :
    orElse a b = (a.filter (· ≠ [])).getD b := by
  cases a with
  | none => rfl
  | some s => cases s <;> rfl

theorem exitCode_parseMetaFile_eq_zero_iff :
    (parseMetaFile text).exitCode = 0 ↔ ∀ n, reportedExitCode text = some n → n = 0 := by
  have h : (parseMetaFile text).exitCode = intOr ((rawMeta text).get "exitcode") 0 := rfl
  rw [h, intOr, reportedExitCode]
  cases hp : ((rawMeta text).get "exitcode").bind parseInt with
  | none => simp
  | some n => simp

theorem status_parseMetaFile_iff :
    (parseMetaFile text).status = ofString "OK" ∨ (parseMetaFile text).status = ofString "RE" ↔
      ∀ s, reportedStatus text = some s → s = ofString "OK" ∨ s = ofString "RE" := by
  have h : (parseMetaFile text).status = (reportedStatus text).getD
      (if (rawMeta text).get "exitcode" = some "0" then "OK" else "RE") := orElse_eq ..
  rw [h]
  cases hr : reportedStatus text with
  | none =>
    simp only [Option.getD_none, reduceCtorEq, false_imp_iff, implies_true, iff_true]
    split
    · exact Or.inl rfl
    · exact Or.inr rfl
  | some s => simp

theorem status_eq_ok_iff (output stderr : JsString) :
    (buildResultFromMeta (parseMetaFile text) output stderr).status = .OK ↔ ClassifiedOk text := by
  rw [status_buildResultFromMeta_eq_ok_iff, status_parseMetaFile_iff,
    exitCode_parseMetaFile_eq_zero_iff]
  exact ⟨fun ⟨hs, hn⟩ ↦ ⟨hn, hs⟩, fun ⟨hn, hs⟩ ↦ ⟨hs, hn⟩⟩

/-- **When `OK` is sound.** A text is taken for a success only if it reports one, exactly when it
says enough. -/
theorem ok_sound_iff (text output stderr : JsString) :
    ((buildResultFromMeta (parseMetaFile text) output stderr).status = .OK ∧
        (buildResultFromMeta (parseMetaFile text) output stderr).success = true →
      ReportsSuccess text) ↔ SaysEnough text := by
  rw [success_buildResultFromMeta_iff, and_self, status_eq_ok_iff]
  constructor
  · intro hsound
    by_cases hok : ClassifiedOk text
    · obtain ⟨hexit, hstatus⟩ := hsound hok
      refine Or.inr ⟨0, hexit, fun hre ↦ ?_⟩
      exact absurd (hstatus _ hre) (by decide)
    · by_cases hs : ∀ s, reportedStatus text = some s → s = ofString "OK" ∨ s = ofString "RE"
      · -- The status passes, so it is the exit code that is not 0.
        have hn : ¬∀ n, reportedExitCode text = some n → n = 0 := fun hn ↦ hok ⟨hn, hs⟩
        push Not at hn
        obtain ⟨n, hn, hne⟩ := hn
        exact Or.inr ⟨n, hn, fun _ ↦ hne⟩
      · push Not at hs
        exact Or.inl hs
  · rintro (⟨s, hs, hok, hre⟩ | ⟨n, hn, hre⟩) hc
    · rcases hc.status s hs with h | h
      · exact absurd h hok
      · exact absurd h hre
    · obtain rfl := hc.exitCode n hn
      refine ⟨hn, fun s hs ↦ (hc.status s hs).resolve_right ?_⟩
      rintro rfl
      exact hre hs rfl

/-- An empty metadata file reports nothing, and is taken for a success. -/
theorem not_ok_sound : ¬∀ text output stderr,
    (buildResultFromMeta (parseMetaFile text) output stderr).status = .OK ∧
      (buildResultFromMeta (parseMetaFile text) output stderr).success = true →
    ReportsSuccess text := by
  intro h
  exact absurd (h [] [] [] (by decide)).exitCode (by decide)

end JudgeIt
