import JudgeIt.Data.OrderedMap
import JudgeIt.Storage.Service
import JudgeIt.Types

/-!
# The tests of a problem

`TestCasesService` builds the tests of a problem from the objects under its prefix. An object whose
file name ends in `.in.txt` is the input of a test and one whose file name ends in `.out.txt` the
expected output; the rest of the file name is the name of the test, and what has the same name goes
into the same test, whatever folder it is in.

Every name therefore gets the last input and the last output that came for it
(`get_foldl_groupFile`). `groupTestCases_collected_iff` says when that is one test for each input,
with the output that lies next to it.
-/

namespace JudgeIt

open Async JsString

/-! ## The program -/

/-- `'.in.txt'`. -/
def inSuffix : JsString := ".in.txt"

/-- `'.out.txt'`. -/
def outSuffix : JsString := ".out.txt"

/-- `key.split('/').pop() ?? key`. -/
def fileName (key : JsString) : JsString := (key.splitOn slash).getLast?.getD key

/-- `fileName.replace(/\.(in|out)\.txt$/, '')`. -/
def baseName (fileName : JsString) : JsString :=
  if inSuffix <:+ fileName then fileName.rdrop inSuffix.length
  else if outSuffix <:+ fileName then fileName.rdrop outSuffix.length
  else fileName

/-- One round of the loop: the file goes into the test of its name. -/
def groupFile (grouped : OrderedMap JsString TestCase) (file : StoredObject) :
    OrderedMap JsString TestCase :=
  let name := fileName file.key
  let entry := (grouped.get (baseName name)).getD ⟨baseName name, none, none⟩
  let entry := if inSuffix <:+ name then { entry with input := some file.content } else entry
  let entry := if outSuffix <:+ name then { entry with output := some file.content } else entry
  grouped.set (baseName name) entry

/-- The tests of the files: those with an input. -/
def groupTestCases (files : List StoredObject) : List TestCase :=
  (files.foldl groupFile OrderedMap.empty).values.filter fun tc ↦ tc.input.isSome

/-- `fetchTestCasesFromS3()` for a problem. -/
def fetchTestCasesFromS3 (bucket : JsString) (problemId : ℤ) : Fetching (List TestCase) := do
  let files ← fetchObjectContents bucket ("problems/" ++ ofInt problemId ++ "/testcases/")
  pure (groupTestCases files)

/-! ## Names -/

theorem splitOn_slash {s : JsString} (hs : slash ∉ s) : s.splitOn slash = [s] :=
  List.splitOnP_eq_singleton fun _ hc ↦ beq_eq_false_iff_ne.mpr fun h ↦ hs (h ▸ hc)

theorem fileName_of_notMem {s : JsString} (hs : slash ∉ s) : fileName s = s := by
  rw [fileName, splitOn_slash hs]
  rfl

theorem fileName_folder (folder : JsString) {s : JsString} (hs : slash ∉ s) :
    fileName (folder ++ slash :: s) = s := by
  have hsplit : (folder ++ slash :: s).splitOn slash = folder.splitOn slash ++ [s] := by
    rw [List.splitOn, List.splitOnP_append_cons (p := (· == slash)) _ _ (beq_self_eq_true slash),
      ← List.splitOn, ← List.splitOn, splitOn_slash hs]
  rw [fileName, hsplit, List.getLast?_concat, Option.getD_some]

/-- The file name is what follows the last slash, or the whole key. -/
theorem fileName_cases (key : JsString) : slash ∉ fileName key ∧
    (key = fileName key ∨ ∃ folder, key = folder ++ slash :: fileName key) := by
  by_cases hmem : slash ∈ key
  · obtain ⟨post, folder, hkey, hpost⟩ := List.eq_append_cons_of_mem (List.mem_reverse.mpr hmem)
    have hnot : slash ∉ post.reverse := by rwa [List.mem_reverse]
    obtain rfl : key = folder.reverse ++ slash :: post.reverse := by
      rw [← List.reverse_reverse key, hkey]
      simp
    rw [fileName_folder _ hnot]
    exact ⟨hnot, Or.inr ⟨_, rfl⟩⟩
  · rw [fileName_of_notMem hmem]
    exact ⟨hmem, Or.inl rfl⟩

theorem fileName_suffix (key : JsString) : fileName key <:+ key := by
  obtain ⟨-, hkey | ⟨folder, hkey⟩⟩ := fileName_cases key
  · exact ⟨[], hkey.symm⟩
  · exact ⟨folder ++ [slash], by rw [List.append_assoc, List.singleton_append, ← hkey]⟩

theorem fileName_append {s : JsString} (hs : slash ∉ s) (key : JsString) :
    fileName (key ++ s) = fileName key ++ s := by
  obtain ⟨hnot, hkey | ⟨folder, hkey⟩⟩ := fileName_cases key
  · have hboth : slash ∉ key ++ s := by
      rw [List.mem_append, hkey]
      exact not_or.mpr ⟨hnot, hs⟩
    rw [fileName_of_notMem hboth, ← hkey]
  · have hboth : slash ∉ fileName key ++ s := List.mem_append.not.mpr (not_or.mpr ⟨hnot, hs⟩)
    have heq : key ++ s = folder ++ slash :: (fileName key ++ s) := by
      rw [← List.cons_append, ← List.append_assoc, ← hkey]
    rw [heq, fileName_folder _ hboth]

theorem suffix_fileName_iff {s : JsString} (hs : slash ∉ s) {key : JsString} :
    s <:+ fileName key ↔ s <:+ key := by
  constructor
  · exact fun h ↦ h.trans (fileName_suffix key)
  · rintro ⟨stem, rfl⟩
    exact ⟨fileName stem, (fileName_append hs stem).symm⟩

theorem rdrop_append (base s : JsString) : (base ++ s).rdrop s.length = base := by
  rw [List.rdrop, List.length_append, Nat.add_sub_cancel, List.take_left]

theorem slash_notMem_inSuffix : slash ∉ inSuffix := by decide

theorem slash_notMem_outSuffix : slash ∉ outSuffix := by decide

/-- No name is that of an input and of an output. -/
theorem not_inSuffix_of_outSuffix {name : JsString} (hout : outSuffix <:+ name) :
    ¬inSuffix <:+ name := fun hin ↦
  absurd (List.suffix_of_suffix_length_le hin hout (by decide)) (by decide)

theorem baseName_append_inSuffix (base : JsString) : baseName (base ++ inSuffix) = base := by
  rw [baseName, if_pos (List.suffix_append ..), rdrop_append]

theorem baseName_append_outSuffix (base : JsString) : baseName (base ++ outSuffix) = base := by
  rw [baseName, if_neg (not_inSuffix_of_outSuffix (List.suffix_append ..)),
    if_pos (List.suffix_append ..), rdrop_append]

theorem eq_append_inSuffix_iff {name base : JsString} :
    name = base ++ inSuffix ↔ inSuffix <:+ name ∧ baseName name = base := by
  constructor
  · rintro rfl
    exact ⟨List.suffix_append .., baseName_append_inSuffix base⟩
  · rintro ⟨⟨stem, rfl⟩, hbase⟩
    rw [← hbase, baseName_append_inSuffix]

theorem eq_append_outSuffix_iff {name base : JsString} :
    name = base ++ outSuffix ↔ outSuffix <:+ name ∧ baseName name = base := by
  constructor
  · rintro rfl
    exact ⟨List.suffix_append .., baseName_append_outSuffix base⟩
  · rintro ⟨⟨stem, rfl⟩, hbase⟩
    rw [← hbase, baseName_append_outSuffix]

/-! ## What is collected -/

/-- The content of the last file with a file name. -/
def contentNamed (files : List StoredObject) (name : JsString) : Option JsString :=
  (files.filter fun f ↦ fileName f.key = name).getLast?.map StoredObject.content

theorem contentNamed_append (files : List StoredObject) (f : StoredObject) (name : JsString) :
    contentNamed (files ++ [f]) name
      = if fileName f.key = name then some f.content else contentNamed files name := by
  rw [contentNamed, List.filter_append]
  split
  · next h => simp [h]
  · next h => simp [h, contentNamed]

theorem contentNamed_eq_none {files : List StoredObject} {name : JsString}
    (h : ∀ f ∈ files, fileName f.key ≠ name) : contentNamed files name = none := by
  have hnil : files.filter (fun f ↦ fileName f.key = name) = [] :=
    List.filter_eq_nil_iff.mpr fun f hf ↦ by simpa using h f hf
  rw [contentNamed, hnil, List.getLast?_nil, Option.map_none]

theorem exists_of_contentNamed {files : List StoredObject} {name content : JsString}
    (h : contentNamed files name = some content) :
    ∃ f ∈ files, fileName f.key = name ∧ f.content = content := by
  obtain ⟨f, hlast, rfl⟩ := Option.map_eq_some_iff.mp h
  obtain ⟨hmem, hname⟩ := List.mem_filter.mp (List.mem_of_getLast? hlast)
  exact ⟨f, hmem, of_decide_eq_true hname, rfl⟩

theorem exists_contentNamed {files : List StoredObject} {f : StoredObject} (hf : f ∈ files) :
    ∃ content, contentNamed files (fileName f.key) = some content := by
  have hmem : f ∈ files.filter fun f' ↦ fileName f'.key = fileName f.key :=
    List.mem_filter.mpr ⟨hf, decide_eq_true rfl⟩
  refine Option.isSome_iff_exists.mp ?_
  rw [contentNamed, Option.isSome_map]
  exact List.getLast?_isSome.mpr (List.ne_nil_of_mem hmem)

/-- The last input and the last output of a name. -/
def testNamed (files : List StoredObject) (base : JsString) : TestCase :=
  ⟨base, contentNamed files (base ++ inSuffix), contentNamed files (base ++ outSuffix)⟩

theorem testNamed_of_forall_ne {files : List StoredObject} {base : JsString}
    (h : ∀ f ∈ files, baseName (fileName f.key) ≠ base) :
    testNamed files base = ⟨base, none, none⟩ := by
  have hin := contentNamed_eq_none fun f hf heq ↦ h f hf (eq_append_inSuffix_iff.mp heq).2
  have hout := contentNamed_eq_none fun f hf heq ↦ h f hf (eq_append_outSuffix_iff.mp heq).2
  rw [testNamed, hin, hout]

theorem testNamed_append_of_ne {files : List StoredObject} {f : StoredObject} {base : JsString}
    (h : baseName (fileName f.key) ≠ base) :
    testNamed (files ++ [f]) base = testNamed files base := by
  have hin : fileName f.key ≠ base ++ inSuffix := fun heq ↦ h (eq_append_inSuffix_iff.mp heq).2
  have hout : fileName f.key ≠ base ++ outSuffix := fun heq ↦ h (eq_append_outSuffix_iff.mp heq).2
  rw [testNamed, contentNamed_append, if_neg hin, contentNamed_append, if_neg hout, testNamed]

theorem testNamed_append (files : List StoredObject) (f : StoredObject) :
    testNamed (files ++ [f]) (baseName (fileName f.key))
      = let name := fileName f.key
        let entry := testNamed files (baseName name)
        let entry := if inSuffix <:+ name then { entry with input := some f.content } else entry
        if outSuffix <:+ name then { entry with output := some f.content } else entry := by
  simp only [testNamed, contentNamed_append, eq_append_inSuffix_iff, eq_append_outSuffix_iff,
    and_true]
  split <;> split <;> rfl

/-- **Every name** with a file gets the last input and the last output that came for it. -/
theorem get_foldl_groupFile (files : List StoredObject) (base : JsString) :
    (files.foldl groupFile OrderedMap.empty).get base
      = if ∃ f ∈ files, baseName (fileName f.key) = base then some (testNamed files base)
        else none := by
  induction files using List.reverseRecOn generalizing base with
  | nil => simp
  | append_singleton files f ih =>
    have hentry : ((files.foldl groupFile OrderedMap.empty).get (baseName (fileName f.key))).getD
        ⟨baseName (fileName f.key), none, none⟩ = testNamed files (baseName (fileName f.key)) := by
      rw [ih]
      split
      · rfl
      · next h =>
        rw [testNamed_of_forall_ne fun f' hf' heq ↦ h ⟨f', hf', heq⟩, Option.getD_none]
    rw [List.foldl_append, List.foldl_cons, List.foldl_nil, groupFile, OrderedMap.get_set, hentry,
      ← testNamed_append]
    by_cases hbase : base = baseName (fileName f.key)
    · subst hbase
      rw [if_pos rfl, if_pos ⟨f, List.mem_append_right _ List.mem_cons_self, rfl⟩]
    · rw [if_neg hbase, ih, testNamed_append_of_ne (Ne.symm hbase)]
      simp [Ne.symm hbase, or_and_right, exists_or]

theorem mem_groupTestCases {files : List StoredObject} {tc : TestCase} :
    tc ∈ groupTestCases files ↔ tc.input.isSome ∧ tc = testNamed files tc.name := by
  rw [groupTestCases, List.mem_filter, OrderedMap.mem_values_iff, and_comm]
  refine and_congr_right fun hsome ↦ ?_
  constructor
  · rintro ⟨base, hget⟩
    rw [get_foldl_groupFile] at hget
    split at hget
    · obtain rfl := Option.some.inj hget
      rfl
    · cases hget
  · intro htc
    refine ⟨tc.name, ?_⟩
    rw [get_foldl_groupFile, if_pos, ← htc]
    obtain ⟨content, hcontent⟩ := Option.isSome_iff_exists.mp hsome
    rw [htc] at hcontent
    obtain ⟨f, hf, hname, -⟩ := exists_of_contentNamed hcontent
    exact ⟨f, hf, (eq_append_inSuffix_iff.mp hname).2⟩

theorem nodup_groupTestCases (files : List StoredObject) :
    ((groupTestCases files).map TestCase.name).Nodup := by
  set grouped := files.foldl groupFile OrderedMap.empty with hgrouped
  have hnames : grouped.values.map TestCase.name = grouped.entries.map Prod.fst := by
    rw [OrderedMap.values, List.map_map]
    refine List.map_congr_left fun x hx ↦ ?_
    have hget := OrderedMap.mem_entries_iff.mp hx
    rw [hgrouped, get_foldl_groupFile] at hget
    split at hget
    · exact congrArg TestCase.name (Option.some.inj hget).symm
    · cases hget
  exact (hnames ▸ grouped.nodup).sublist (List.filter_sublist.map _)

/-! ## What should be collected -/

/-- The content of the object with a key. -/
def contentOf (files : List StoredObject) (key : JsString) : Option JsString :=
  (files.find? fun f ↦ f.key = key).map StoredObject.content

/-- One test for each key that ends in `.in.txt`, with the content of the key next to it that ends
in `.out.txt`. -/
def expectedTests (files : List StoredObject) : List TestCase :=
  (files.filter fun f ↦ inSuffix <:+ f.key).map fun f ↦
    let stem := f.key.rdrop inSuffix.length
    ⟨fileName stem, some f.content, contentOf files (stem ++ outSuffix)⟩

/-- The tests are the expected ones, and no others, in whatever order the files come. -/
structure Collected (files : List StoredObject) : Prop where
  expected : (groupTestCases files).Perm (expectedTests files)
  perm : ∀ files' : List StoredObject, files'.Perm files →
    (groupTestCases files').Perm (groupTestCases files)

/-- No two inputs share a file name, and whatever has the file name of an output that an input has
next to it has its content. -/
structure NamesApart (files : List StoredObject) : Prop where
  inputs : ((files.filter fun f ↦ inSuffix <:+ f.key).map fun f ↦ fileName f.key).Nodup
  outputs : ∀ stem content, ⟨stem ++ inSuffix, content⟩ ∈ files → ∀ f ∈ files,
    fileName f.key = fileName (stem ++ outSuffix) → ⟨stem ++ outSuffix, f.content⟩ ∈ files

section

variable {files files' : List StoredObject} {tc : TestCase}

theorem contentOf_eq_some_iff (hkeys : (files.map StoredObject.key).Nodup)
    {key content : JsString} : contentOf files key = some content ↔ ⟨key, content⟩ ∈ files := by
  rw [contentOf, Option.map_eq_some_iff]
  constructor
  · rintro ⟨f, hfind, rfl⟩
    obtain rfl : f.key = key := by simpa using List.find?_some hfind
    exact List.mem_of_find?_eq_some hfind
  · intro hmem
    obtain ⟨f, hfind⟩ : ∃ f, files.find? (fun f ↦ f.key = key) = some f :=
      Option.isSome_iff_exists.mp (List.find?_isSome.mpr ⟨_, hmem, by simp⟩)
    have hkey : f.key = key := by simpa using List.find?_some hfind
    have heq := List.inj_on_of_nodup_map hkeys (List.mem_of_find?_eq_some hfind) hmem hkey
    exact ⟨f, hfind, congrArg StoredObject.content heq⟩

theorem mem_expectedTests : tc ∈ expectedTests files ↔ ∃ stem content,
    ⟨stem ++ inSuffix, content⟩ ∈ files ∧
      tc = ⟨fileName stem, some content, contentOf files (stem ++ outSuffix)⟩ := by
  rw [expectedTests, List.mem_map]
  constructor
  · rintro ⟨⟨key, content⟩, hf, rfl⟩
    obtain ⟨hmem, hsuffix⟩ := List.mem_filter.mp hf
    obtain ⟨stem, rfl⟩ := of_decide_eq_true hsuffix
    exact ⟨stem, content, hmem, by simp only [rdrop_append]⟩
  · rintro ⟨stem, content, hmem, rfl⟩
    exact ⟨_, List.mem_filter.mpr ⟨hmem, decide_eq_true (List.suffix_append ..)⟩,
      by simp only [rdrop_append]⟩

theorem nodup_inputs_iff (files : List StoredObject) :
    ((files.filter fun f ↦ inSuffix <:+ f.key).map fun f ↦ fileName f.key).Nodup ↔
      ((expectedTests files).map TestCase.name).Nodup := by
  have hnames : (files.filter fun f ↦ inSuffix <:+ f.key).map (fun f ↦ fileName f.key)
      = ((expectedTests files).map TestCase.name).map (· ++ inSuffix) := by
    rw [expectedTests, List.map_map, List.map_map]
    refine List.map_congr_left fun f hf ↦ ?_
    obtain ⟨stem, hkey⟩ := of_decide_eq_true (List.mem_filter.mp hf).2
    simp only [Function.comp_apply, ← hkey, fileName_append slash_notMem_inSuffix, rdrop_append]
  rw [hnames, List.nodup_map_iff (List.append_left_injective inSuffix)]

theorem expectedTests_perm (hkeys : (files.map StoredObject.key).Nodup) (h : files'.Perm files) :
    (expectedTests files').Perm (expectedTests files) := by
  have hkeys' : (files'.map StoredObject.key).Nodup := (h.map _).nodup_iff.mpr hkeys
  have hcontent : contentOf files' = contentOf files := by
    funext key
    refine Option.ext fun content ↦ ?_
    rw [contentOf_eq_some_iff hkeys, contentOf_eq_some_iff hkeys', h.mem_iff]
  rw [expectedTests, expectedTests, hcontent]
  exact (h.filter _).map _

theorem NamesApart.of_perm (hn : NamesApart files) (h : files'.Perm files) : NamesApart files' where
  inputs := (((h.filter _).map _).nodup_iff).mpr hn.inputs
  outputs stem content hin f hf hname :=
    h.mem_iff.mpr (hn.outputs stem content (h.mem_iff.mp hin) f (h.mem_iff.mp hf) hname)

/-- When the names are apart, what comes for the name of an input comes from next to it. -/
theorem NamesApart.testNamed_eq (hn : NamesApart files) (hkeys : (files.map StoredObject.key).Nodup)
    {stem content : JsString} (hin : ⟨stem ++ inSuffix, content⟩ ∈ files) :
    testNamed files (fileName stem)
      = ⟨fileName stem, some content, contentOf files (stem ++ outSuffix)⟩ := by
  have hinput : contentNamed files (fileName stem ++ inSuffix) = some content := by
    rw [← fileName_append slash_notMem_inSuffix]
    obtain ⟨content', hnamed⟩ := exists_contentNamed hin
    obtain ⟨f, hf, hname, rfl⟩ := exists_of_contentNamed hnamed
    have hsuffix : inSuffix <:+ f.key := by
      rw [← suffix_fileName_iff slash_notMem_inSuffix, hname,
        suffix_fileName_iff slash_notMem_inSuffix]
      exact List.suffix_append ..
    have heq := List.inj_on_of_nodup_map hn.inputs
      (List.mem_filter.mpr ⟨hf, decide_eq_true hsuffix⟩)
      (List.mem_filter.mpr ⟨hin, decide_eq_true (List.suffix_append ..)⟩) hname
    rw [hnamed, heq]
  have houtput : contentNamed files (fileName stem ++ outSuffix)
      = contentOf files (stem ++ outSuffix) := by
    rw [← fileName_append slash_notMem_outSuffix]
    cases hnamed : contentNamed files (fileName (stem ++ outSuffix)) with
    | none =>
      refine (Option.eq_none_iff_forall_ne_some.mpr fun content' hcontent ↦ ?_).symm
      obtain ⟨_, hsome⟩ := exists_contentNamed ((contentOf_eq_some_iff hkeys).mp hcontent)
      exact absurd hsome (hnamed ▸ Option.some_ne_none _).symm
    | some content' =>
      obtain ⟨f, hf, hname, rfl⟩ := exists_of_contentNamed hnamed
      exact ((contentOf_eq_some_iff hkeys).mpr (hn.outputs stem content hin f hf hname)).symm
  rw [testNamed, hinput, houtput]

theorem NamesApart.perm_expectedTests (hn : NamesApart files)
    (hkeys : (files.map StoredObject.key).Nodup) :
    (groupTestCases files).Perm (expectedTests files) := by
  refine (List.perm_ext_iff_of_nodup (nodup_groupTestCases files).of_map
    ((nodup_inputs_iff files).mp hn.inputs).of_map).mpr fun tc ↦ ?_
  rw [mem_groupTestCases, mem_expectedTests]
  constructor
  · rintro ⟨hsome, htc⟩
    obtain ⟨content, hcontent⟩ := Option.isSome_iff_exists.mp hsome
    rw [htc] at hcontent
    obtain ⟨f, hf, hname, rfl⟩ := exists_of_contentNamed hcontent
    obtain ⟨stem, hkey⟩ : inSuffix <:+ f.key := by
      rw [← suffix_fileName_iff slash_notMem_inSuffix, hname]
      exact List.suffix_append ..
    have hstem : fileName stem = tc.name := by
      rw [← hkey, fileName_append slash_notMem_inSuffix] at hname
      exact List.append_cancel_right hname
    have hin : ⟨stem ++ inSuffix, f.content⟩ ∈ files := by rwa [hkey]
    exact ⟨stem, f.content, hin, by rw [htc, ← hstem, hn.testNamed_eq hkeys hin]⟩
  · rintro ⟨stem, content, hin, rfl⟩
    exact ⟨rfl, (hn.testNamed_eq hkeys hin).symm⟩

/-- **When the tests are collected.** There is one test for each input, with the output next to it
and no other, whatever order the files come in, exactly when the names are apart. -/
theorem groupTestCases_collected_iff (hkeys : (files.map StoredObject.key).Nodup) :
    Collected files ↔ NamesApart files := by
  constructor
  · intro h
    have hnames : ((expectedTests files).map TestCase.name).Nodup :=
      ((h.expected.map _).nodup_iff).mp (nodup_groupTestCases files)
    refine ⟨(nodup_inputs_iff files).mpr hnames, fun stem content hin f hf hname ↦ ?_⟩
    -- Let the file come last: then the test has its content.
    have hperm : (files.erase f ++ [f]).Perm files :=
      (List.perm_append_singleton f _).trans (List.perm_cons_erase hf).symm
    obtain ⟨content', hinput⟩ := exists_contentNamed (hperm.mem_iff.mpr hin)
    rw [fileName_append slash_notMem_inSuffix] at hinput
    have hlast : testNamed (files.erase f ++ [f]) (fileName stem)
        = ⟨fileName stem, some content', some f.content⟩ := by
      rw [testNamed, hinput, contentNamed_append, if_pos]
      rw [hname, fileName_append slash_notMem_outSuffix]
    have hgroup : testNamed (files.erase f ++ [f]) (fileName stem) ∈ expectedTests files := by
      rw [← ((h.perm _ hperm).trans h.expected).mem_iff, mem_groupTestCases, hlast]
      exact ⟨rfl, hlast.symm⟩
    have hmem := mem_expectedTests.mpr ⟨stem, content, hin, rfl⟩
    rw [hlast] at hgroup
    have heq := List.inj_on_of_nodup_map hnames hgroup hmem rfl
    exact (contentOf_eq_some_iff hkeys).mp (congrArg TestCase.output heq).symm
  · intro hn
    refine ⟨hn.perm_expectedTests hkeys, fun files' h ↦ ?_⟩
    have hkeys' : (files'.map StoredObject.key).Nodup := (h.map _).nodup_iff.mpr hkeys
    exact (((hn.of_perm h).perm_expectedTests hkeys').trans (expectedTests_perm hkeys h)).trans
      (hn.perm_expectedTests hkeys).symm

/-- One test in a folder: its output is found. -/
theorem groupTestCases_collected_iff_folder :
    Collected [⟨"problems/1/testcases/1.out.txt", "4"⟩,
      ⟨"problems/1/testcases/1.in.txt", "3"⟩] := by
  refine (groupTestCases_collected_iff (by decide)).mpr ⟨by decide, fun stem content hin ↦ ?_⟩
  rcases List.mem_cons.mp hin with hin | hin
  · have hsuffix : inSuffix <:+ ("problems/1/testcases/1.out.txt" : JsString) :=
      ⟨stem, congrArg StoredObject.key hin⟩
    exact absurd hsuffix (by decide)
  · have hkey : stem ++ inSuffix = ("problems/1/testcases/1" : JsString) ++ inSuffix :=
      congrArg StoredObject.key (List.mem_singleton.mp hin)
    obtain rfl := List.append_cancel_right hkey
    decide

/-- Two inputs with one file name: the second takes the place of the first. -/
theorem not_groupTestCases_collected : ¬∀ files : List StoredObject,
    (files.map StoredObject.key).Nodup → Collected files := fun h ↦ by
  have hlength := (h [⟨"problems/1/testcases/a/1.in.txt", "3"⟩,
    ⟨"problems/1/testcases/b/1.in.txt", "4"⟩] (by decide)).expected.length_eq
  exact absurd hlength (by decide)

end

/-! ## What is fetched -/

/-- **The tests of a problem** are built from the first page of what is stored for it. -/
theorem eval_fetchTestCasesFromS3 {s3 s3' : S3} {bucket : JsString} {problemId : ℤ}
    {tr : List (Event StorageCall.Res)} {tests : List TestCase}
    (h : (fetchTestCasesFromS3 bucket problemId).Eval tr (.ok tests))
    (hs : S3.Answers.Steps s3 tr s3') : ∃ files,
      (files.map StoredObject.key).Nodup ∧ tests = groupTestCases files ∧
      files = ((s3.objectsUnder bucket ("problems/" ++ ofInt problemId ++ "/testcases/")).take
        s3.pageSize).filter fun o ↦ ¬IsFolder o.key := by
  rcases Program.eval_bind_iff.mp h with ⟨e, -, hout⟩ | ⟨files, tr₁, tr₂, rfl, hfetch, -, hout⟩
  · cases hout
  cases hout
  obtain ⟨s, hs₁, -⟩ := Env.steps_append.mp hs
  have hfiles := eval_fetchObjectContents hfetch hs₁
  refine ⟨files, ?_, rfl, hfiles⟩
  rw [hfiles]
  exact (s3.bucket bucket).nodup.sublist ((List.filter_sublist.trans
    ((List.take_sublist ..).trans List.filter_sublist)).map _)

end JudgeIt
