import JudgeIt.Execution.Result
import JudgeIt.Js.Decimal

/-!
# Reading metadata back

The metadata of a run is a text with one entry a line, a key and a value with a colon between them.
`metaText` is every way of writing entries down: in any order, with any white space around keys and
values, with or without a line break at the end. Only the first colon of a line matters, so a value
may contain colons.

Reading such a text gives the entries back (`rawMeta_metaText`). With distinct keys they are a map,
and `parseMetaFile` is then a function of the entries it knows: neither their order nor any other
entry matters, which is `parseMetaFile_metaText`.
-/

namespace List

variable {α β : Type*} [BEq α] [LawfulBEq α]

theorem idxOf?_append_cons {a : α} {l : List α} (h : a ∉ l) (l' : List α) :
    (l ++ a :: l').idxOf? a = some l.length := by
  induction l with
  | nil => rw [nil_append, idxOf?_cons, beq_self_eq_true]; rfl
  | cons b l ih =>
    obtain ⟨hb, hl⟩ := not_or.mp (mt mem_cons.mpr h)
    rw [cons_append, idxOf?_cons, ih hl, beq_false_of_ne (Ne.symm hb)]
    rfl

theorem lookup_eq_some_iff_mem {l : List (α × β)} (h : (l.map Prod.fst).Nodup) {k : α} {v : β} :
    l.lookup k = some v ↔ (k, v) ∈ l := by
  induction l with
  | nil => simp
  | cons x l ih =>
    obtain ⟨k', v'⟩ := x
    obtain ⟨hk, hl⟩ := nodup_cons.mp h
    rcases eq_or_ne k k' with rfl | hkey
    · have hnot : (k, v) ∉ l := fun hmem ↦ hk (mem_map.mpr ⟨_, hmem, rfl⟩)
      simp [hnot, eq_comm]
    · rw [lookup_cons, beq_false_of_ne hkey, ih hl, mem_cons]
      simp [hkey]

theorem lookup_congr {l l' : List (α × β)} (h : (l.map Prod.fst).Nodup)
    (h' : (l'.map Prod.fst).Nodup) {k : α} (hk : ∀ v, (k, v) ∈ l ↔ (k, v) ∈ l') :
    l.lookup k = l'.lookup k := by
  refine Option.ext fun v ↦ ?_
  rw [lookup_eq_some_iff_mem h, lookup_eq_some_iff_mem h', hk]

end List

namespace JudgeIt

open JsString

/-! ## Metadata as text -/

/-- An entry: a key without a colon, and a value. -/
structure MetaEntry where
  key : JsString
  value : JsString
  key_ne : key ≠ []
  colon_notMem_key : colon ∉ key
  lf_notMem_key : lf ∉ key
  lf_notMem_value : lf ∉ value
  trim_key : trim key = key
  trim_value : trim value = value

/-- White space within a line. -/
structure Blank where
  text : JsString
  isSpace_of_mem : ∀ u ∈ text, isSpace u
  lf_notMem : lf ∉ text

/-- An entry and the white space around its key and its value. -/
structure MetaLine extends MetaEntry where
  beforeKey : Blank
  afterKey : Blank
  beforeValue : Blank
  afterValue : Blank

/-- What stands before the colon. -/
def MetaLine.keyText (l : MetaLine) : JsString := l.beforeKey.text ++ l.key ++ l.afterKey.text

/-- What stands after it. -/
def MetaLine.valueText (l : MetaLine) : JsString :=
  l.beforeValue.text ++ l.value ++ l.afterValue.text

/-- The line. -/
def MetaLine.text (l : MetaLine) : JsString := l.keyText ++ colon :: l.valueText

/-- The keys and values of the lines. -/
def metaEntries (lines : List MetaLine) : List (JsString × JsString) :=
  lines.map fun l ↦ (l.key, l.value)

/-- What stands between the line breaks: the lines, and nothing after a line break at the end. -/
def metaPieces (lines : List MetaLine) (lineBreak : Bool) : List JsString :=
  lines.map MetaLine.text ++ if lineBreak then [[]] else []

/-- The lines as a text, with a line break at the end or without. -/
def metaText (lines : List MetaLine) (lineBreak : Bool) : JsString :=
  [lf].intercalate (metaPieces lines lineBreak)

variable {lines lines' : List MetaLine} {lineBreak lineBreak' : Bool} {l : MetaLine}

/-! ## One line -/

theorem Blank.colon_notMem (b : Blank) : colon ∉ b.text :=
  fun h ↦ absurd (b.isSpace_of_mem colon h) (by decide)

theorem MetaLine.colon_notMem_keyText (l : MetaLine) : colon ∉ l.keyText := by
  simp [keyText, l.colon_notMem_key, l.beforeKey.colon_notMem, l.afterKey.colon_notMem]

theorem MetaLine.lf_notMem_text (l : MetaLine) : lf ∉ l.text := by
  have hcolon : lf ≠ colon := by decide
  simp [text, keyText, valueText, hcolon, l.lf_notMem_key, l.lf_notMem_value,
    l.beforeKey.lf_notMem, l.afterKey.lf_notMem, l.beforeValue.lf_notMem, l.afterValue.lf_notMem]

/-- **The first colon ends the key**, and trimming removes what stands around key and value. -/
theorem metaLine_text (l : MetaLine) : metaLine l.text = some (l.key, l.value) := by
  have hcolon : l.text.idxOf? colon = some l.keyText.length :=
    List.idxOf?_append_cons l.colon_notMem_keyText _
  have hpos : 0 < l.keyText.length := by
    simp [MetaLine.keyText, List.length_pos_iff.mpr l.key_ne]
  have hkey : trim l.keyText = l.key := by
    rw [MetaLine.keyText, trim_append l.beforeKey.isSpace_of_mem l.afterKey.isSpace_of_mem,
      l.trim_key]
  have hvalue : trim l.valueText = l.value := by
    rw [MetaLine.valueText, trim_append l.beforeValue.isSpace_of_mem l.afterValue.isSpace_of_mem,
      l.trim_value]
  have htake : l.text.take l.keyText.length = l.keyText := List.take_left
  have hdrop : l.text.drop (l.keyText.length + 1) = l.valueText := by
    rw [← List.drop_drop, MetaLine.text, List.drop_left]
    rfl
  rw [metaLine, hcolon]
  simp only [if_pos hpos, htake, hdrop, hkey, hvalue]

/-! ## All lines -/

theorem lf_notMem_metaPieces : ∀ piece ∈ metaPieces lines lineBreak, lf ∉ piece := by
  intro piece hpiece
  rcases List.mem_append.mp hpiece with h | h
  · obtain ⟨l, -, rfl⟩ := List.mem_map.mp h
    exact l.lf_notMem_text
  · cases lineBreak with
    | false => cases h
    | true => rw [List.mem_singleton.mp h]; exact List.not_mem_nil

theorem filterMap_metaPieces (lines : List MetaLine) (lineBreak : Bool) :
    (metaPieces lines lineBreak).filterMap metaLine = metaEntries lines := by
  have hlines : (lines.map MetaLine.text).filterMap metaLine = metaEntries lines := by
    rw [List.filterMap_map, metaEntries, ← List.filterMap_eq_map]
    exact List.filterMap_congr fun l _ ↦ metaLine_text l
  rw [metaPieces, List.filterMap_append, hlines]
  cases lineBreak <;> exact List.append_nil _

/-- **Reading undoes writing.** -/
theorem rawMeta_metaText (lines : List MetaLine) (lineBreak : Bool) :
    rawMeta (metaText lines lineBreak) = (metaEntries lines).reverse := by
  rw [rawMeta, metaText, ← filterMap_metaPieces lines lineBreak]
  by_cases hnil : metaPieces lines lineBreak = []
  · rw [hnil]
    rfl
  · rw [List.splitOn_intercalate lf lf_notMem_metaPieces hnil]

/-! ## What the entries say -/

/-- The value of a key. -/
def metaValue (entries : List (JsString × JsString)) (key : JsString) : Option JsString :=
  entries.lookup key

/-- The integer a key's value starts with, or 0. -/
def metaInteger (entries : List (JsString × JsString)) (key : JsString) : ℤ :=
  ((metaValue entries key).bind parseInt).getD 0

/-- The metadata say what the entries do. A status that is missing or empty is inferred from the
exit code, and a number that is missing or 0 is taken from a second key where there is one. -/
structure Recovers (entries : List (JsString × JsString)) (info : IsolateMeta) : Prop where
  message : info.message = (metaValue entries "message").getD ""
  status : ∀ v, metaValue entries "status" = some v → v ≠ [] → info.status = v
  inferred : (∀ v, metaValue entries "status" = some v → v = []) →
    info.status =
      if metaValue entries "exitcode" = some (ofString "0") then ofString "OK" else ofString "RE"
  exitCode : info.exitCode = metaInteger entries "exitcode"
  signal : info.signal = if metaInteger entries "exitsig" ≠ 0 then metaInteger entries "exitsig"
    else metaInteger entries "killed"
  memory : info.memory = if metaInteger entries "max-rss" ≠ 0 then metaInteger entries "max-rss"
    else metaInteger entries "cg-mem"

/-- The keys the code looks up. -/
def metaKeys : List JsString :=
  ["status", "exitcode", "time", "time-wall", "max-rss", "cg-mem", "exitsig", "killed", "message"]

theorem nodup_metaEntries (hkeys : (lines.map (·.key)).Nodup) :
    ((metaEntries lines).map Prod.fst).Nodup := by
  rw [metaEntries, List.map_map]
  exact hkeys

theorem get_rawMeta_metaText (hkeys : (lines.map (·.key)).Nodup) (key : JsString) :
    (rawMeta (metaText lines lineBreak)).get key = metaValue (metaEntries lines) key := by
  rw [RawMeta.get, rawMeta_metaText, metaValue]
  refine List.lookup_congr ?_ (nodup_metaEntries hkeys) fun v ↦ List.mem_reverse
  rw [List.map_reverse]
  exact List.nodup_reverse.mpr (nodup_metaEntries hkeys)

theorem intOr_metaValue (entries : List (JsString × JsString)) (key : JsString) (b : ℤ) :
    intOr (metaValue entries key) b
      = if metaInteger entries key ≠ 0 then metaInteger entries key else b := by
  rw [intOr, metaInteger]
  cases (metaValue entries key).bind parseInt with
  | none => simp
  | some n => by_cases hn : n = 0 <;> simp [hn]

theorem intOr_metaValue_zero (entries : List (JsString × JsString)) (key : JsString) :
    intOr (metaValue entries key) 0 = metaInteger entries key := by
  rw [intOr_metaValue]
  split
  · rfl
  · next hzero => exact (not_not.mp hzero).symm

/-- The record a text is read as decides the metadata. -/
theorem recovers_parseMetaFile {content : JsString} {entries : List (JsString × JsString)}
    (h : ∀ key, (rawMeta content).get key = metaValue entries key) :
    Recovers entries (parseMetaFile content) where
  message := by
    simp only [parseMetaFile, h]
    rcases metaValue entries "message" with _ | _ | _ <;> rfl
  status := by
    intro v hv hne
    obtain ⟨u, v, rfl⟩ := List.exists_cons_of_ne_nil hne
    simp only [parseMetaFile, h, hv]
    rfl
  inferred := by
    intro hempty
    simp only [parseMetaFile, h]
    cases hv : metaValue entries "status" with
    | none => rfl
    | some v => rw [hempty v hv]; rfl
  exitCode := by simp only [parseMetaFile, h, intOr_metaValue_zero]
  signal := by simp only [parseMetaFile, h, intOr_metaValue _ "exitsig", intOr_metaValue_zero]
  memory := by simp only [parseMetaFile, h, intOr_metaValue _ "max-rss", intOr_metaValue_zero]

/-- Nothing but the values of the known keys matters. -/
theorem parseMetaFile_congr {content content' : JsString}
    (h : ∀ key ∈ metaKeys, (rawMeta content).get key = (rawMeta content').get key) :
    parseMetaFile content = parseMetaFile content' := by
  simp only [metaKeys, List.forall_mem_cons, List.not_mem_nil, false_implies, implies_true,
    and_true] at h
  obtain ⟨hstatus, hexit, htime, hwall, hrss, hcg, hsig, hkilled, hmessage⟩ := h
  simp only [parseMetaFile, hstatus, hexit, htime, hwall, hrss, hcg, hsig, hkilled, hmessage]

/-- **Metadata are read back.** From entries with distinct keys, written down in any order and with
any white space around keys and values, `parseMetaFile` recovers what the entries say; an integer
up to `2 ^ 53` that is written in decimal is read as itself; and whoever writes down the same
entries of the known keys, in whatever way and among whatever others, gets the same metadata. -/
theorem parseMetaFile_metaText (lines : List MetaLine) (lineBreak : Bool)
    (hkeys : (lines.map (·.key)).Nodup) :
    Recovers (metaEntries lines) (parseMetaFile (metaText lines lineBreak)) ∧
      (∀ key n, n.natAbs ≤ 2 ^ 53 → (key, ofInt n) ∈ metaEntries lines →
        metaInteger (metaEntries lines) key = n) ∧
      ∀ (lines' : List MetaLine) (lineBreak' : Bool), (lines'.map (·.key)).Nodup →
        (∀ key ∈ metaKeys, ∀ v, (key, v) ∈ metaEntries lines' ↔ (key, v) ∈ metaEntries lines) →
        parseMetaFile (metaText lines' lineBreak') = parseMetaFile (metaText lines lineBreak) := by
  refine ⟨recovers_parseMetaFile (get_rawMeta_metaText hkeys), fun key n hn hmem ↦ ?_, ?_⟩
  · have hvalue : metaValue (metaEntries lines) key = some (ofInt n) :=
      (List.lookup_eq_some_iff_mem (nodup_metaEntries hkeys)).mpr hmem
    rw [metaInteger, hvalue, Option.bind_some, parseInt_ofInt hn, Option.getD_some]
  · intro lines' lineBreak' hkeys' hsame
    refine parseMetaFile_congr fun key hkey ↦ ?_
    rw [get_rawMeta_metaText hkeys', get_rawMeta_metaText hkeys]
    exact List.lookup_congr (nodup_metaEntries hkeys') (nodup_metaEntries hkeys) (hsame key hkey)

/-- No white space, and a carriage return. -/
def Blank.empty : Blank := ⟨[], List.forall_mem_nil _, List.not_mem_nil⟩

@[inherit_doc Blank.empty]
def Blank.carriageReturn : Blank := ⟨[cr], List.forall_mem_singleton.mpr rfl, by decide⟩

/-- A run that used too much memory, written with carriage returns and a key that nothing reads. -/
def killedLines : List MetaLine :=
  [{ key := "status", value := "SG", key_ne := by decide, colon_notMem_key := by decide
     lf_notMem_key := by decide, lf_notMem_value := by decide, trim_key := by decide
     trim_value := by decide, beforeKey := .empty, afterKey := .empty, beforeValue := .empty
     afterValue := .carriageReturn },
    { key := "message", value := "memory: exceeded", key_ne := by decide
      colon_notMem_key := by decide, lf_notMem_key := by decide, lf_notMem_value := by decide
      trim_key := by decide, trim_value := by decide, beforeKey := .empty, afterKey := .empty
      beforeValue := .carriageReturn, afterValue := .carriageReturn },
    { key := "killed", value := ofInt 9, key_ne := by decide, colon_notMem_key := by decide
      lf_notMem_key := by decide, lf_notMem_value := by decide, trim_key := by decide
      trim_value := by decide, beforeKey := .empty, afterKey := .empty, beforeValue := .empty
      afterValue := .carriageReturn },
    { key := "cg-enabled", value := "1", key_ne := by decide, colon_notMem_key := by decide
      lf_notMem_key := by decide, lf_notMem_value := by decide, trim_key := by decide
      trim_value := by decide, beforeKey := .empty, afterKey := .empty, beforeValue := .empty
      afterValue := .empty }]

theorem parseMetaFile_metaText_killed :
    Recovers (metaEntries killedLines) (parseMetaFile (metaText killedLines true)) ∧
      (parseMetaFile (metaText killedLines true)).message = "memory: exceeded" ∧
      (parseMetaFile (metaText killedLines true)).signal = 9 ∧
      parseMetaFile (metaText killedLines.dropLast.reverse false)
        = parseMetaFile (metaText killedLines true) := by
  obtain ⟨h, hinteger, hsame⟩ := parseMetaFile_metaText killedLines true (by decide)
  refine ⟨h, h.message, ?_, hsame _ false (by decide) ?_⟩
  · rw [h.signal, hinteger "killed" 9 (by decide) (by decide)]
    rfl
  · intro key hkey v
    have hunknown : (ofString "cg-enabled") ∉ metaKeys := by decide
    have hne : key ≠ ofString "cg-enabled" := fun heq ↦ hunknown (heq ▸ hkey)
    simp only [metaEntries, List.map_reverse, List.mem_reverse]
    simp [killedLines, hne]

/-- An exit code that no double holds. -/
def longExitCode : MetaLine :=
  { key := "exitcode", value := ofInt 9007199254740993, key_ne := by decide
    colon_notMem_key := by decide, lf_notMem_key := by decide, lf_notMem_value := by decide
    trim_key := by decide, trim_value := by decide, beforeKey := .empty, afterKey := .empty
    beforeValue := .empty, afterValue := .empty }

/-- Above `2 ^ 53` an integer is not always read as itself. -/
theorem exitCode_parseMetaFile_rounded :
    (metaText [longExitCode] false = ofString "exitcode:9007199254740993" ∧
      (parseMetaFile (metaText [longExitCode] false)).exitCode = 9007199254740992) ∧
    ¬∀ (lines : List MetaLine) (lineBreak : Bool), (lines.map (·.key)).Nodup →
      ∀ n, (ofString "exitcode", ofInt n) ∈ metaEntries lines →
        (parseMetaFile (metaText lines lineBreak)).exitCode = n := by
  have hread : (parseMetaFile (metaText [longExitCode] false)).exitCode = 9007199254740992 := by
    decide +kernel
  refine ⟨⟨by decide +kernel, hread⟩, fun hall ↦ ?_⟩
  have hexact := hall [longExitCode] false (by decide) 9007199254740993 (List.mem_singleton_self _)
  rw [hread] at hexact
  exact absurd hexact (by decide)

end JudgeIt
