import JudgeIt.Execution.Batch
import JudgeIt.Execution.Classification

/-!
# The output that is judged

A test is judged by two files: the metadata gives the status, the output file gives the output. Both
are read with `cat`, through a pipe that takes at most `maxBuffer` bytes. A failed read of the
metadata is an error; a failed read of the output is taken for an empty output. So a program that
prints more than the pipe takes and ends well is reported as `OK` with no output at all.

`eval_runTestCase` is the account of one test, call by call, and `output_sound_iff` says exactly
which outputs are reported as they are.
-/

namespace JudgeIt

open Async Judging JsString

namespace JsString

/-- The first code unit of a pair of surrogates. -/
def isHighSurrogate (u : UInt16) : Bool := 0xD800 ≤ u && u ≤ 0xDBFF

/-- The second code unit of a pair of surrogates. -/
def isLowSurrogate (u : UInt16) : Bool := 0xDC00 ≤ u && u ≤ 0xDFFF

/-- The bytes of the code unit `u` followed by `s` when written as UTF-8: 4 for a pair of
surrogates, counted at its first, and 3 for a replaced lone one. -/
def unitBytes (u : UInt16) (s : JsString) : ℕ :=
  if u < 0x80 then 1
  else if u < 0x800 then 2
  else if isHighSurrogate u && s.head?.any isLowSurrogate then 1
  else 3

/-- `Buffer.byteLength(s)`. -/
def byteLength : JsString → ℕ
  | [] => 0
  | u :: s => unitBytes u s + byteLength s

end JsString

/-- The default `maxBuffer` of `exec`, in bytes. -/
def maxBuffer : ℕ := 1024 * 1024

/-- What `execAsync` of a `cat` settles with when the file has this content. -/
def catStdout (content : JsString) : Except JsString JsString :=
  if maxBuffer < byteLength content then
    .error "RangeError [ERR_CHILD_PROCESS_STDIO_MAXBUFFER]: stdout maxBuffer length exceeded"
  else .ok content

/-- What `readBoxFile` makes of it. -/
def boxContent : Except JsString JsString → JsString
  | .ok stdout => stdout
  | .error _ => []

/-- What a test amounts to, from what reading its metadata, output and error file settled with. -/
def readResult (info output stderr : Except JsString JsString) : ExecutionResult :=
  match info with
  | .error _ =>
    { success := false, error := some "Failed to read execution metadata", status := .SE }
  | .ok text => buildResultFromMeta (parseMetaFile text) (boxContent output) (boxContent stderr)

variable {boxId : ℕ} {langConfig : LanguageConfig} {source : JsString} {testCase : TestCase}
  {config : ExecutionConfig} {boxPath : JsString} {metaFile : MetaFile}
  {tr : List (Event Call.Res)} {out : Except JsString ExecutionResult}

/-! ## One test, call by call -/

theorem eval_readBoxFile_iff {filename : JsString} {out : Except JsString JsString} :
    (readBoxFile boxPath filename).Eval tr out ↔
      ∃ r, tr = [⟨.exec (.cat ⟨boxPath, filename⟩), r⟩] ∧ out = .ok (boxContent r) := by
  rw [readBoxFile, Program.eval_tryCatch_iff]
  simp only [eval_exec_iff]
  constructor
  · rintro (⟨stdout, rfl, rfl⟩ | ⟨e, tr₁, tr₂, rfl, rfl, rfl, rfl⟩)
    · exact ⟨.ok stdout, rfl, rfl⟩
    · exact ⟨.error e, rfl, rfl⟩
  · rintro ⟨r, rfl, rfl⟩
    cases r with
    | ok stdout => exact Or.inl ⟨stdout, rfl, rfl⟩
    | error e => exact Or.inr ⟨e, _, [], rfl, rfl, rfl, rfl⟩

theorem eval_readMeta_iff {out : Except JsString (Option IsolateMeta)} :
    (readMeta metaFile).Eval tr out ↔
      ∃ r, tr = [⟨.exec (.catMeta metaFile), r⟩] ∧ out = .ok (r.toOption.map parseMetaFile) := by
  rw [readMeta, eval_exec_attempt_bind_iff]
  constructor
  · rintro ⟨r, tr', rfl, h⟩
    cases r <;> obtain ⟨rfl, rfl⟩ := h <;> exact ⟨_, rfl, rfl⟩
  · rintro ⟨r, rfl, rfl⟩
    cases r <;> exact ⟨_, [], rfl, rfl, rfl⟩

/-- The write of the input, for a test that has one. -/
def inputWritten (boxPath : JsString) (testCase : TestCase) : List (Event Call.Res) :=
  match testCase.input with
  | some input => [⟨.writeFile ⟨boxPath, "input.txt"⟩ input, .ok ()⟩]
  | none => []

theorem eval_writeInput_iff {out : Except JsString Unit} :
    (writeInput boxPath testCase).Eval tr out ↔
      (tr = inputWritten boxPath testCase ∧ out = .ok ()) ∨
      ∃ input e, testCase.input = some input ∧
        tr = [⟨.writeFile ⟨boxPath, "input.txt"⟩ input, .error e⟩] ∧ out = .error e := by
  rw [writeInput, inputWritten]
  cases testCase.input with
  | none => simp
  | some input =>
    rw [eval_writeFile_iff]
    cases out <;> simp

/-- The calls of the `try` block after the input was written. -/
def runEvents (boxPath : JsString) (command : RunCommand)
    (ran output stderr info : Except JsString JsString) : List (Event Call.Res) :=
  [⟨.exec (.run command), ran⟩, ⟨.exec (.cat ⟨boxPath, "output.txt"⟩), output⟩,
    ⟨.exec (.cat ⟨boxPath, "error.txt"⟩), stderr⟩, ⟨.exec (.catMeta command.metaFile), info⟩]

theorem eval_runInBox
    (h : (runInBox boxId langConfig source testCase config boxPath metaFile).Eval tr out) :
    (∃ input e, testCase.input = some input ∧
      tr = [⟨.writeFile ⟨boxPath, "input.txt"⟩ input, .error e⟩] ∧ out = .error e) ∨
    ∃ ran output stderr info, tr = inputWritten boxPath testCase ++ runEvents boxPath
        (runCommand boxId langConfig source testCase config metaFile) ran output stderr info ∧
      out = .ok (readResult info output stderr) := by
  rcases Program.eval_bind_iff.mp h with ⟨e, he, rfl⟩ | ⟨_, tr₁, tr₂, rfl, h₁, h₂⟩
  · rcases eval_writeInput_iff.mp he with ⟨-, hout⟩ | ⟨input, e', hin, htr, hout⟩
    · cases hout
    · exact Or.inl ⟨input, e, hin, Except.error.inj hout ▸ htr, rfl⟩
  rcases eval_writeInput_iff.mp h₁ with ⟨rfl, -⟩ | ⟨_, _, -, -, hout⟩
  swap
  · cases hout
  refine Or.inr ?_
  obtain ⟨ran, tr₃, rfl, h₃⟩ := eval_exec_attempt_bind_iff.mp h₂
  rcases Program.eval_bind_iff.mp h₃ with ⟨e, he, -⟩ | ⟨output, tr₄, tr₅, rfl, h₄, h₅⟩
  · obtain ⟨_, -, hout⟩ := eval_readBoxFile_iff.mp he
    cases hout
  obtain ⟨o, rfl, ho⟩ := eval_readBoxFile_iff.mp h₄
  rcases Program.eval_bind_iff.mp h₅ with ⟨e, he, -⟩ | ⟨stderr, tr₆, tr₇, rfl, h₆, h₇⟩
  · obtain ⟨_, -, hout⟩ := eval_readBoxFile_iff.mp he
    cases hout
  obtain ⟨s, rfl, hs⟩ := eval_readBoxFile_iff.mp h₆
  cases ho
  cases hs
  rcases Program.eval_bind_iff.mp h₇ with ⟨e, he, -⟩ | ⟨info, tr₈, tr₉, rfl, h₈, h₉⟩
  · obtain ⟨_, -, hout⟩ := eval_readMeta_iff.mp he
    cases hout
  obtain ⟨m, rfl, hm⟩ := eval_readMeta_iff.mp h₈
  cases hm
  refine ⟨ran, o, s, m, ?_⟩
  cases m <;> obtain ⟨rfl, rfl⟩ := h₉ <;> exact ⟨rfl, rfl⟩

/-- **One test.** The clock is read; then either writing the input rejects and so does the test, or
the program is run, the three files are read, and the test resolves with what they say. The metadata
file is removed at the end. -/
theorem eval_runTestCase
    (h : (runTestCase boxId langConfig source testCase config boxPath).Eval tr out) :
    ∃ time r, (∃ input e, testCase.input = some input ∧
      tr = [⟨.now, time⟩, ⟨.writeFile ⟨boxPath, "input.txt"⟩ input, .error e⟩,
        ⟨.exec (.rmMeta ⟨boxId, time⟩), r⟩] ∧ out = .error e) ∨
    ∃ ran output stderr info, tr = ⟨.now, time⟩ :: inputWritten boxPath testCase ++
        runEvents boxPath (runCommand boxId langConfig source testCase config ⟨boxId, time⟩)
          ran output stderr info ++ [⟨.exec (.rmMeta ⟨boxId, time⟩), r⟩] ∧
      out = .ok (readResult info output stderr) := by
  obtain ⟨time, tr', rfl, htry⟩ := Program.eval_request_bind_iff.mp h
  have hrm : ∀ tr e, ¬((exec (.rmMeta ⟨boxId, time⟩)).attempt.bind fun _ ↦ .pure ()).Eval tr
      (.error e : Except JsString Unit) := fun tr e he ↦ by cases (eval_exec_ignored_iff.mp he).1
  obtain ⟨tr₁, tr₂, rfl, h₁, h₂⟩ := (Program.eval_tryFinally_iff hrm).mp htry
  obtain ⟨-, r, rfl⟩ := eval_exec_ignored_iff.mp h₂
  refine ⟨time, r, ?_⟩
  rcases eval_runInBox h₁ with ⟨input, e, hin, rfl, rfl⟩ | ⟨ran, output, stderr, info, rfl, rfl⟩
  · exact Or.inl ⟨input, e, hin, rfl, rfl⟩
  · exact Or.inr ⟨ran, output, stderr, info, rfl, rfl⟩

/-- Whatever the commands settle with, there is a run of the test in which they do. -/
theorem eval_runTestCase_of (time : ℤ) (ran output stderr info r : Except JsString JsString) :
    (runTestCase boxId langConfig source testCase config boxPath).Eval
      (⟨.now, time⟩ :: inputWritten boxPath testCase ++
        runEvents boxPath (runCommand boxId langConfig source testCase config ⟨boxId, time⟩)
          ran output stderr info ++ [⟨.exec (.rmMeta ⟨boxId, time⟩), r⟩])
      (.ok (readResult info output stderr)) := by
  refine Program.eval_request_bind_iff.mpr ⟨time, _, rfl, ?_⟩
  have hrm : ∀ tr e, ¬((exec (.rmMeta ⟨boxId, time⟩)).attempt.bind fun _ ↦ .pure ()).Eval tr
      (.error e : Except JsString Unit) := fun tr e he ↦ by cases (eval_exec_ignored_iff.mp he).1
  refine (Program.eval_tryFinally_iff hrm).mpr
    ⟨_, _, rfl, ?_, eval_exec_ignored_iff.mpr ⟨rfl, r, rfl⟩⟩
  refine Program.eval_bind_iff.mpr
    (Or.inr ⟨(), _, _, rfl, eval_writeInput_iff.mpr (Or.inl ⟨rfl, rfl⟩), ?_⟩)
  refine eval_exec_attempt_bind_iff.mpr ⟨ran, _, rfl, ?_⟩
  refine Program.eval_bind_iff.mpr
    (Or.inr ⟨boxContent output, [_], _, rfl, eval_readBoxFile_iff.mpr ⟨output, rfl, rfl⟩, ?_⟩)
  refine Program.eval_bind_iff.mpr
    (Or.inr ⟨boxContent stderr, [_], _, rfl, eval_readBoxFile_iff.mpr ⟨stderr, rfl, rfl⟩, ?_⟩)
  refine Program.eval_bind_iff.mpr
    (Or.inr ⟨info.toOption.map parseMetaFile, [_], [], rfl,
      eval_readMeta_iff.mpr ⟨info, rfl, rfl⟩, ?_⟩)
  cases info <;> exact ⟨rfl, rfl⟩

/-! ## What is reported of the output -/

theorem boxContent_catStdout (content : JsString) :
    boxContent (catStdout content) = if maxBuffer < byteLength content then [] else content := by
  rw [catStdout]
  split <;> rfl

/-- **When the output is reported as it is.** In every run of a test in which the output file and
the metadata file have the given contents: a result with status `OK` carries the trimmed output
exactly when, for metadata taken for a success, the output fits in the pipe or is blank. -/
theorem output_sound_iff {content info : JsString} {result : ExecutionResult}
    (h : (runTestCase boxId langConfig source testCase config boxPath).Eval tr (.ok result))
    (hcontent : ∀ r, ⟨.exec (.cat ⟨boxPath, "output.txt"⟩), r⟩ ∈ tr → r = catStdout content)
    (hinfo : ∀ file r, ⟨.exec (.catMeta file), r⟩ ∈ tr → r = catStdout info) :
    (result.status = .OK → result.output = some (trim content)) ↔
      (byteLength info ≤ maxBuffer → ClassifiedOk info →
        byteLength content ≤ maxBuffer ∨ trim content = []) := by
  obtain ⟨time, r, ⟨_, _, -, -, hout⟩ | ⟨ran, output, stderr, text, rfl, hout⟩⟩ :=
    eval_runTestCase h
  · cases hout
  cases hout
  obtain rfl := hcontent output (by simp [runEvents])
  obtain rfl := hinfo ⟨boxId, time⟩ text (by simp [runEvents, runCommand])
  by_cases hfits : byteLength info ≤ maxBuffer
  · have htext : catStdout info = .ok info := if_neg (not_lt.mpr hfits)
    rw [htext]
    simp only [readResult, status_eq_ok_iff, output_buildResultFromMeta, boxContent_catStdout,
      Option.some.injEq, hfits, forall_const]
    refine imp_congr_right fun _ ↦ ?_
    by_cases hlarge : maxBuffer < byteLength content
    · rw [if_pos hlarge]
      exact ⟨fun h ↦ Or.inr h.symm, fun h ↦ (h.resolve_left (not_le.mpr hlarge)).symm⟩
    · rw [if_neg hlarge]
      exact iff_of_true rfl (Or.inl (not_lt.mp hlarge))
  · have htext : ∃ e, catStdout info = .error e := ⟨_, if_pos (not_le.mp hfits)⟩
    obtain ⟨e, he⟩ := htext
    rw [he]
    exact iff_of_true (fun hs ↦ nomatch hs) fun hle ↦ absurd hle hfits

/-! ## A test without input -/

/-- A run of a test, by what the output and the metadata file contain. -/
def plainRun (content info : JsString) : List (Event Call.Res) :=
  ⟨.now, (0 : ℤ)⟩ :: inputWritten "/box/0" ⟨"1", none, none⟩ ++
    runEvents "/box/0" (runCommand 0 python "solution.py" ⟨"1", none, none⟩ (mergeConfig {}) ⟨0, 0⟩)
      (.ok []) (catStdout content) (catStdout []) (catStdout info) ++
    [⟨.exec (.rmMeta ⟨0, 0⟩), .ok []⟩]

theorem eval_plainRun (content info : JsString) :
    (runTestCase 0 python "solution.py" ⟨"1", none, none⟩ (mergeConfig {}) "/box/0").Eval
      (plainRun content info)
      (.ok (readResult (catStdout info) (catStdout content) (catStdout []))) :=
  eval_runTestCase_of 0 _ _ _ _ _

theorem plainRun_content (content info : JsString) (r : Except JsString JsString)
    (hr : ⟨.exec (.cat ⟨"/box/0", "output.txt"⟩), r⟩ ∈ plainRun content info) :
    r = catStdout content := by
  have hne : ofString "output.txt" ≠ ofString "error.txt" := by decide
  simpa [plainRun, runEvents, inputWritten, hne] using hr

theorem plainRun_info (content info : JsString) (file : MetaFile) (r : Except JsString JsString)
    (hr : ⟨.exec (.catMeta file), r⟩ ∈ plainRun content info) : r = catStdout info := by
  simp only [plainRun, runEvents, inputWritten, List.cons_append, List.nil_append, List.mem_cons,
    Sigma.mk.injEq, reduceCtorEq, Call.exec.injEq, Command.catMeta.injEq, false_and, false_or,
    List.not_mem_nil, or_false] at hr
  exact eq_of_heq hr.2

/-- A short output is reported as it is. -/
theorem output_sound_iff_short :
    (readResult (catStdout "exitcode:0") (catStdout "42\n") (catStdout [])).status = .OK ∧
      (readResult (catStdout "exitcode:0") (catStdout "42\n") (catStdout [])).output
        = some (trim "42\n") :=
  ⟨by decide, (output_sound_iff (eval_plainRun "42\n" "exitcode:0") (plainRun_content _ _)
    (plainRun_info _ _)).mpr (fun _ _ ↦ Or.inl (by decide)) (by decide)⟩

/-- More output than the pipe takes. -/
theorem exists_large : ∃ content, maxBuffer < byteLength content ∧ trim content ≠ [] := by
  have hlen : ∀ n, byteLength (List.replicate n 97) = n := by
    intro n
    induction n with
    | zero => rfl
    | succ n ih =>
      rw [List.replicate_succ, byteLength, ih, unitBytes, if_pos (by decide), Nat.add_comm]
  refine ⟨List.replicate (maxBuffer + 1) 97, by rw [hlen]; exact Nat.lt_succ_self _, fun htrim ↦ ?_⟩
  rw [trim, List.replicate_succ, List.dropWhile_cons_of_neg (by decide),
    List.rdropWhile_eq_nil_iff] at htrim
  exact absurd (htrim 97 List.mem_cons_self) (by decide)

/-- A program that prints more than that and ends well is reported as `OK` without its output. -/
theorem not_output_sound : ¬∀ boxId langConfig source testCase config boxPath
    (tr : List (Event Call.Res)) (content info : JsString) (result : ExecutionResult),
    (runTestCase boxId langConfig source testCase config boxPath).Eval tr (.ok result) →
    (∀ r, ⟨.exec (.cat ⟨boxPath, "output.txt"⟩), r⟩ ∈ tr → r = catStdout content) →
    (∀ file r, ⟨.exec (.catMeta file), r⟩ ∈ tr → r = catStdout info) →
    result.status = .OK → result.output = some (trim content) := by
  intro h
  obtain ⟨content, hlarge, htrim⟩ := exists_large
  have hout := h 0 python "solution.py" ⟨"1", none, none⟩ (mergeConfig {}) "/box/0" _ content
    "exitcode:0" _ (eval_plainRun content "exitcode:0") (plainRun_content _ _) (plainRun_info _ _)
  have hcat : catStdout "exitcode:0" = .ok "exitcode:0" := by decide
  rw [hcat, readResult, output_buildResultFromMeta, boxContent_catStdout, if_pos hlarge] at hout
  have hok : ClassifiedOk "exitcode:0" :=
    (status_eq_ok_iff [] []).mp (by decide)
  exact htrim (Option.some.inj (hout ((status_eq_ok_iff _ _).mpr hok))).symm

end JudgeIt
