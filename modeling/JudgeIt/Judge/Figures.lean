import JudgeIt.Execution.Output
import JudgeIt.Judge.Reference

/-!
# The memory figure of a submission

A submission is stored with one memory figure, in an `Int` column. The sandbox measures kilobytes;
the judge turns each measurement into megabytes with two decimals and passes on the largest of
these. That is the maximum over the tests with a verdict, as it should be, but it is an integer only
when the largest measurement is within 5 KB of a whole number of megabytes (`memory_update_iff`).

Rounding is monotone, so the largest figure is the figure of the largest measurement, and the
condition is one on a single remainder modulo 1024.
-/

namespace JudgeIt

open Async Judging

/-! ## Running maxima -/

section Maximum

variable {α β : Type} [LinearOrder α] [LinearOrder β]

/-- A running maximum is the greatest of the values seen and the one it started from. -/
theorem isGreatest_foldl_max (l : List α) (a : α) :
    IsGreatest {x | x = a ∨ x ∈ l} (l.foldl max a) := by
  induction l generalizing a with
  | nil =>
    refine ⟨Or.inl rfl, fun x hx ↦ ?_⟩
    obtain rfl : x = a := by simpa using hx
    exact le_rfl
  | cons b l ih =>
    obtain ⟨hmem, hub⟩ := ih (max a b)
    refine ⟨?_, ?_⟩
    · rcases hmem with h | h
      · rcases max_choice a b with hab | hab
        · exact Or.inl (h.trans hab)
        · exact Or.inr (by rw [List.foldl_cons, h, hab]; exact List.mem_cons_self)
      · exact Or.inr (List.mem_cons_of_mem b h)
    · have hstart : max a b ≤ l.foldl max (max a b) := hub (Or.inl rfl)
      rintro x (rfl | hx)
      · exact (le_max_left x b).trans hstart
      · rcases List.mem_cons.mp hx with rfl | hx
        · exact (le_max_right a x).trans hstart
        · exact hub (Or.inr hx)

theorem foldl_max_map {f : α → β} (hf : Monotone f) (l : List α) (a : α) :
    (l.map f).foldl max (f a) = f (l.foldl max a) := by
  induction l generalizing a with
  | nil => rfl
  | cons b l ih => rw [List.map_cons, List.foldl_cons, ← hf.map_max, ih, List.foldl_cons]

end Maximum

/-! ## Rounding to hundredths -/

theorem round_le_round {x y : ℚ} (h : x ≤ y) : round x ≤ round y := by
  rw [round_eq, round_eq]
  exact Int.floor_mono (by linarith)

theorem round_nonneg {x : ℚ} (h : 0 ≤ x) : 0 ≤ round x := by
  rw [← round_zero (α := ℚ)]
  exact round_le_round h

theorem toFixed2_mono : Monotone toFixed2 := by
  intro x y h
  have hround : ∀ {a b : ℚ}, a ≤ b → ((round (a * 100) : ℤ) : ℚ) ≤ (round (b * 100) : ℤ) :=
    fun hab ↦ Int.cast_le.mpr (round_le_round (by linarith))
  have hzero : ∀ {a : ℚ}, 0 ≤ a → (0 : ℚ) ≤ (round (a * 100) : ℤ) := fun ha ↦
    Int.cast_nonneg (round_nonneg (by linarith))
  rw [toFixed2, toFixed2]
  split_ifs with hx hy
  · have := hround (neg_le_neg h)
    linarith
  · have hnx := hzero (neg_nonneg.mpr hx.le)
    have hny := hzero (not_lt.mp hy)
    linarith
  · exact absurd (h.trans_lt ‹_›) hx
  · have := hround h
    linarith

/-- The figure of `kb` kilobytes, in megabytes. -/
def megabytes (kb : ℤ) : ℚ := toFixed2 (kb / 1024)

theorem megabytes_mono : Monotone megabytes := fun a b h ↦
  toFixed2_mono (div_le_div_of_nonneg_right (Int.cast_le.mpr h) (by norm_num))

@[simp] theorem megabytes_zero : megabytes 0 = 0 := by simp [megabytes, toFixed2]

/-- At most 5 KB away from a whole number of megabytes. -/
def NearWhole (kb : ℤ) : Prop := kb % 1024 ≤ 5 ∨ 1019 ≤ kb % 1024

/-- The figure is an integer exactly for measurements near a whole number of megabytes. -/
theorem megabytes_eq_int_iff {kb : ℤ} (h : 0 ≤ kb) :
    (∃ n : ℤ, megabytes kb = n) ↔ NearWhole kb := by
  have hround : round ((kb : ℚ) / 1024 * 100) = (25 * kb + 128) / 256 := by
    have heq : (kb : ℚ) / 1024 * 100 + 1 / 2 = ((25 * kb + 128 : ℤ) : ℚ) / (256 : ℕ) := by
      push_cast
      ring
    rw [round_eq, heq, Rat.floor_intCast_div_natCast]
    rfl
  have hkb : ¬(kb : ℚ) / 1024 < 0 := not_lt.mpr (by positivity)
  have hfig : megabytes kb = ((25 * kb + 128) / 256 : ℤ) / 100 := by
    rw [megabytes, toFixed2, if_neg hkb, hround]
  have hdvd : (∃ n : ℤ, megabytes kb = n) ↔ 100 ∣ (25 * kb + 128) / 256 := by
    rw [hfig]
    constructor
    · rintro ⟨n, hn⟩
      rw [div_eq_iff (by norm_num)] at hn
      have hn : (25 * kb + 128) / 256 = n * 100 := by exact_mod_cast hn
      exact ⟨n, hn.trans (mul_comm n 100)⟩
    · rintro ⟨n, hn⟩
      refine ⟨n, ?_⟩
      rw [hn]
      push_cast
      ring
  -- Whole megabytes drop out, and the rest of them is between 0 and 100 hundredths.
  have hsplit : (25 * kb + 128) / 256 = 100 * (kb / 1024) + (25 * (kb % 1024) + 128) / 256 := by
    omega
  have hlo : 0 ≤ kb % 1024 := by omega
  have hhi : kb % 1024 < 1024 := by omega
  rw [hdvd, hsplit, NearWhole]
  generalize kb % 1024 = r at hlo hhi ⊢
  have hends : 100 ∣ 100 * (kb / 1024) + (25 * r + 128) / 256 ↔
      (25 * r + 128) / 256 = 0 ∨ (25 * r + 128) / 256 = 100 := by omega
  rw [hends]
  omega

/-! ## The figure that is passed on -/

variable {results : List ExecutionResult} {tests : List TestCase} {verdicates : List JsString}
  {e : SubmissionQueuedEvent} {boxId : ℕ} {tr : List (Event Call.Res)}
  {out : Except JsString (List JsString)}

/-- The measurements of the tests with a verdict, in kilobytes. -/
def judgedMemory (results : List ExecutionResult) : List ℤ :=
  (results.take (firstFailure results + 1)).map fun result ↦ result.memory.getD 0

/-- The largest of them. -/
def peakMemory (results : List ExecutionResult) : ℤ := (judgedMemory results).foldl max 0

/-- The figures of the tests with a verdict, in megabytes. -/
def memoryFigures (results : List ExecutionResult) : List ℚ := (judgedMemory results).map megabytes

/-- The value is the maximum of the figures; of no figures, it is 0. -/
structure IsPeak (figures : List ℚ) (m : ℚ) : Prop where
  le : ∀ f ∈ figures, f ≤ m
  mem : (∃ f ∈ figures, 0 ≤ f) → m ∈ figures
  eq_zero : figures = [] → m = 0

theorem map_memory_judgements (hlen : results.length = tests.length) :
    (judgements (returnedVerdicts results tests) results tests).map (fun j ↦ j.2.1.memory.getD 0)
      = judgedMemory results := by
  have hzip : (results.zip tests).length = results.length := by simp [hlen]
  have hcount : (returnedVerdicts results tests).length
      = min (firstFailure results + 1) results.length := by
    simp [returnedVerdicts, verdicts, hlen]
  have hres : (judgements (returnedVerdicts results tests) results tests).map (fun j ↦ j.2.1)
      = results.take (firstFailure results + 1) := by
    have hsnd : (judgements (returnedVerdicts results tests) results tests).map Prod.snd
        = (results.zip tests).take (returnedVerdicts results tests).length := by
      have hle : (returnedVerdicts results tests).length ≤ (results.zip tests).length := by
        rw [hcount, hzip]
        exact min_le_right _ _
      rw [judgements, List.zip_eq_zip_take_min, min_eq_left hle, List.take_length]
      exact List.map_snd_zip (by simp)
    calc (judgements (returnedVerdicts results tests) results tests).map (fun j ↦ j.2.1)
        = ((judgements (returnedVerdicts results tests) results tests).map Prod.snd).map
            Prod.fst := by rw [List.map_map]; rfl
      _ = (results.take (returnedVerdicts results tests).length) := by
          rw [hsnd, List.map_take, List.map_fst_zip hlen.le]
      _ = results.take (firstFailure results + 1) := by
          rw [hcount, ← List.take_take, List.take_length]
  rw [judgedMemory, ← hres, List.map_map]
  rfl

theorem memoryUsed_eq (hlen : results.length = tests.length) :
    memoryUsed (judgements (returnedVerdicts results tests) results tests)
      = (memoryFigures results).foldl max 0 := by
  rw [memoryFigures, ← map_memory_judgements hlen, List.map_map, List.foldl_map]
  rfl

/-- **The figure is the maximum.** -/
theorem isPeak_memoryUsed (hlen : results.length = tests.length) : IsPeak (memoryFigures results)
    (memoryUsed (judgements (returnedVerdicts results tests) results tests)) := by
  rw [memoryUsed_eq hlen]
  obtain ⟨hmem, hub⟩ := isGreatest_foldl_max (memoryFigures results) 0
  refine ⟨fun f hf ↦ hub (Or.inr hf), ?_, fun hnil ↦ by rw [hnil]; rfl⟩
  rintro ⟨f, hf, hnonneg⟩
  rcases hmem with h | h
  · have hle := hub (Or.inr hf)
    rw [h] at hle ⊢
    exact le_antisymm hle hnonneg ▸ hf
  · exact h

/-- **When the figure is an integer.** -/
theorem memoryUsed_eq_int_iff (hlen : results.length = tests.length) :
    (∃ n : ℤ, memoryUsed (judgements (returnedVerdicts results tests) results tests) = n) ↔
      NearWhole (peakMemory results) := by
  have hpeak : 0 ≤ peakMemory results :=
    (isGreatest_foldl_max (judgedMemory results) 0).2 (Or.inl rfl)
  rw [← megabytes_eq_int_iff hpeak, memoryUsed_eq hlen, memoryFigures, peakMemory,
    ← foldl_max_map megabytes_mono, megabytes_zero]

/-- **What is stored of the memory.** In every run of `judgeSubmission` in which the sandbox
reported these results, the figure passed on is the maximum over the tests with a verdict and fits
an `Int` column exactly when the largest measurement is within 5 KB of a whole number of
megabytes. -/
theorem memory_update_iff (h : (judgeSubmission (some e) boxId).Eval tr out)
    (hreported : Reported e boxId tr tests results) {submissionId : Option ℤ} {v : JsString}
    {t m : ℚ} {r : Except JsString Unit} (hmem : ⟨.updateSubmission submissionId v t m, r⟩ ∈ tr) :
    (∃ n : ℤ, m = n) ∧ IsPeak (memoryFigures results) m ↔ NearWhole (peakMemory results) := by
  rcases writes_of_eval h with hnone | ⟨tests', results', rows, hreported', hlen, -, hwrites⟩
  · exact absurd trivial (hnone _ hmem)
  obtain ⟨rfl, rfl⟩ := hreported'.unique hreported
  rcases hwrites _ hmem trivial with heq | heq
  · cases heq
  · obtain ⟨-, -, -, rfl⟩ := Call.updateSubmission.inj heq
    rw [← memoryUsed_eq_int_iff hlen]
    exact and_iff_left (isPeak_memoryUsed hlen)

/-! ## A submission with one test -/

/-- A submission. -/
def echoEvent : SubmissionQueuedEvent where
  submissionId := some 1
  userId := some "3"
  problemId := some 7
  language := some "python"
  code := some "print(2)"
  timestamp := some "2025-01-01T00:00:00.000Z"

/-- The only test of its problem. -/
def echoTest : TestCase := ⟨"1", none, some "2"⟩

/-- Its problem. -/
def echoProblem : Problem where
  id := 7
  title := "Two"
  difficulty := "easy"
  memoryLimit := 256
  timeLimit := 2

/-- What is reported of the test when it takes so many kilobytes. -/
def echoResult (kb : ℤ) : ExecutionResult :=
  { testCaseName := some "1", success := true, output := some "2", time := some 0
    wallTime := some 0, memory := some kb, exitCode := some 0, status := .OK }

/-- What the sandbox does with the submission, by the metadata of the test. -/
def echoBatch (info : JsString) : List (Event Call.Res) :=
  [⟨.exec (.init 0), .ok "/box/0"⟩,
    ⟨.writeFile ⟨"/box/0", "solution.py"⟩ "print(2)", .ok ()⟩, ⟨.now, (1000 : ℤ)⟩] ++
  runEvents "/box/0" (runCommand 0 python "solution.py" echoTest
    (mergeConfig (judgeConfig ⟨256, 2⟩)) ⟨0, 1000⟩) (.ok []) (.ok "2\n") (.ok []) (.ok info) ++
  [⟨.exec (.rmMeta ⟨0, 1000⟩), .ok []⟩, ⟨.exec (.cleanup 0), .ok []⟩]

variable {info : JsString} {kb : ℤ}

theorem eval_echoBatch (hresult : { buildResultFromMeta (parseMetaFile info) "2\n" []
    with testCaseName := some "1" } = echoResult kb) :
    (executeBatch 0 (some "print(2)") (some "python") [echoTest] (judgeConfig ⟨256, 2⟩)).Eval
      (echoBatch info) (.ok [echoResult kb]) := by
  refine ⟨_, _, rfl, _, _, rfl, _, _, rfl, _, _, rfl, _, _, rfl, _, _, rfl, ?_⟩
  refine ⟨_, _, rfl, _, _, rfl, _, _, rfl, rfl, ?_⟩
  exact congrArg (fun r ↦ Except.ok [r]) hresult.symm

/-- What judging it looks like when the figure is refused. -/
def echoTrace (info : JsString) (m : ℚ) : List (Event Call.Res) :=
  ⟨.getTestCases (some 7), .ok [echoTest]⟩ :: ⟨.findProblem (some 7), .ok (some echoProblem)⟩ ::
    (echoBatch info ++ [⟨.now, (2000 : ℤ)⟩,
      ⟨.updateSubmission (some 1) "ACC" 0 m, .error "Error: Connection terminated"⟩])

theorem eval_echoTrace {m : ℚ} (hresult : { buildResultFromMeta (parseMetaFile info) "2\n" []
    with testCaseName := some "1" } = echoResult kb) (hm : m = megabytes kb)
    (hkb : 0 ≤ megabytes kb) :
    (judgeSubmission (some echoEvent) 0).Eval (echoTrace info m)
      (.error "Error: Connection terminated") := by
  have hv : validateResults [echoResult kb] [echoTest] = .ok ["ACC"] := by rfl
  have ht : 0 = exectionTime (judgements ["ACC"] [echoResult kb] [echoTest]) := by
    simp [judgements, exectionTime, executionTimeMs, echoResult]
  have hm : m = memoryUsed (judgements ["ACC"] [echoResult kb] [echoTest]) := by
    rw [hm]
    exact (max_eq_right hkb).symm
  have hrun : (runSubmission echoEvent 0).Eval
      (⟨.getTestCases (some 7), .ok [echoTest]⟩ ::
        ⟨.findProblem (some 7), .ok (some echoProblem)⟩ :: (echoBatch info ++ [⟨.now, (2000 : ℤ)⟩]))
      (.ok (["ACC"], judgements ["ACC"] [echoResult kb] [echoTest],
        [⟨some 1, "1", some 0, some kb, "ACC", 2000⟩])) :=
    eval_runSubmission_of (eval_echoBatch hresult) hv ⟨(2000 : ℤ), _, rfl, rfl, rfl⟩
  refine Program.eval_bind_iff.mpr (Or.inr ⟨_, _, [_], by simp [echoTrace]; rfl, hrun, ?_⟩)
  exact ⟨.error _, _, congrArg (· :: _) (updateEvent_congr ht hm _), rfl, rfl⟩

theorem update_mem_echoTrace (info : JsString) (m : ℚ) :
    ⟨.updateSubmission (some 1) "ACC" 0 m, .error "Error: Connection terminated"⟩
      ∈ echoTrace info m := by
  simp [echoTrace]

theorem reported_echoTrace {m : ℚ} (hresult : { buildResultFromMeta (parseMetaFile info) "2\n" []
    with testCaseName := some "1" } = echoResult kb) :
    Reported echoEvent 0 (echoTrace info m) [echoTest] [echoResult kb] :=
  ⟨echoProblem, echoBatch info, ⟨_, rfl⟩, eval_echoBatch hresult⟩

/-- A test that takes 2 MB. -/
theorem memory_update_iff_two_megabytes : (∃ n : ℤ, (2 : ℚ) = n) ∧
    IsPeak (memoryFigures [echoResult 2048]) 2 := by
  have hresult : { buildResultFromMeta (parseMetaFile "max-rss:2048\nexitcode:0\n") "2\n" []
      with testCaseName := some "1" } = echoResult 2048 := by decide +kernel
  have hm : 2 = megabytes 2048 := by decide +kernel
  exact (memory_update_iff (eval_echoTrace hresult hm (hm ▸ by norm_num))
    (reported_echoTrace hresult) (update_mem_echoTrace _ _)).mpr (Or.inl (by decide))

/-- A test that takes 1536 KB makes the judge store 1.5 MB, which an `Int` column refuses. -/
theorem not_memory_update_int : ¬∀ e boxId tr out, (judgeSubmission (some e) boxId).Eval tr out →
    ∀ submissionId v t (m : ℚ) r, ⟨.updateSubmission submissionId v t m, r⟩ ∈ tr →
      ∃ n : ℤ, m = n := by
  intro h
  have hresult : { buildResultFromMeta (parseMetaFile "max-rss:1536\nexitcode:0\n") "2\n" []
      with testCaseName := some "1" } = echoResult 1536 := by decide +kernel
  have hm : 3 / 2 = megabytes 1536 := by decide +kernel
  obtain ⟨n, hn⟩ := h _ _ _ _ (eval_echoTrace hresult hm (hm ▸ by norm_num)) _ _ _ _ _
    (update_mem_echoTrace _ _)
  have hn : (3 : ℤ) = n * 2 := by
    rw [div_eq_iff (by norm_num)] at hn
    exact_mod_cast hn
  omega

end JudgeIt
