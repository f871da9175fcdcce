import JudgeIt.Data.Runs

/-!
# JavaScript strings

A JavaScript string is a list of UTF-16 code units. The operations are the ones the judge uses,
with the behaviour the language defines for them: what counts as white space, how `split` treats a
regular expression that matches runs, and which replacements are global.

White space is what the judge's output comparison is about, so each operation on it comes with what
it does to the maximal runs of other characters: none of them changes a run.
-/

namespace JudgeIt

/-- A string, as its UTF-16 code units. -/
abbrev JsString := List UInt16

namespace JsString

/-- The code units of one character. -/
def ofChar (c : Char) : JsString :=
  if c.toNat < 0x10000 then [.ofNat c.toNat]
  else
    let v := c.toNat - 0x10000
    [.ofNat (0xD800 + v / 0x400), .ofNat (0xDC00 + v % 0x400)]

/-- A string literal. -/
def ofString (s : String) : JsString := s.toList.flatMap ofChar

instance : Coe String JsString := ⟨ofString⟩

/-- `String(n)` for an integer. -/
def ofInt (n : ℤ) : JsString := ofString (toString n)

/-- White space and line terminators, the characters `trim` strips and `\s` matches. -/
def isSpace (u : UInt16) : Bool :=
  (9 ≤ u && u ≤ 13) || u == 0x20 || u == 0xA0 || u == 0x1680 || (0x2000 ≤ u && u ≤ 0x200A) ||
  u == 0x2028 || u == 0x2029 || u == 0x202F || u == 0x205F || u == 0x3000 || u == 0xFEFF

/-- Carriage return, line feed, space and colon. -/
abbrev cr : UInt16 := 13
@[inherit_doc cr] abbrev lf : UInt16 := 10
@[inherit_doc cr] abbrev space : UInt16 := 32
@[inherit_doc cr] abbrev colon : UInt16 := 58

/-- A slash. -/
abbrev slash : UInt16 := 47

/-- `s.trim()`. -/
def trim (s : JsString) : JsString := (s.dropWhile isSpace).rdropWhile isSpace

/-- `s.replace(/\r\n/g, '\n')`. -/
def replaceCRLF : JsString → JsString
  | [] => []
  | [c] => [c]
  | c :: d :: s =>
    if c = cr ∧ d = lf then lf :: replaceCRLF s else c :: replaceCRLF (d :: s)

/-- `s.replace(/\r/g, '\n')`. -/
def replaceCR (s : JsString) : JsString := s.map fun c ↦ if c = cr then lf else c

/-- `s.split(/\s+/)`: the pieces between the maximal runs of white space. -/
def splitSpace : JsString → List JsString
  | [] => [[]]
  | c :: s =>
    if isSpace c then
      if s.head?.any isSpace then splitSpace s else [] :: splitSpace s
    else (splitSpace s).modifyHead (c :: ·)

/-- `tokens.join(' ')`. -/
def joinSpace (tokens : List JsString) : JsString := [space].intercalate tokens

/-- The maximal runs of characters that are not white space. -/
def tokens (s : JsString) : List JsString := s.runs isSpace

theorem trim_append {a b : JsString} (ha : ∀ u ∈ a, isSpace u) (hb : ∀ u ∈ b, isSpace u)
    (s : JsString) : trim (a ++ s ++ b) = trim s := by
  have hend : ∀ s : JsString, (s ++ b).rdropWhile isSpace = s.rdropWhile isSpace := fun s ↦ by
    rw [List.rdropWhile, List.reverse_append,
      List.dropWhile_append_of_pos fun u hu ↦ hb u (List.mem_reverse.mp hu), List.rdropWhile]
  rw [trim, List.append_assoc, List.dropWhile_append_of_pos ha, List.dropWhile_append]
  split
  · next hs =>
    -- nothing but white space is left
    rw [trim, List.isEmpty_iff.mp hs, List.rdropWhile_nil, List.dropWhile_eq_nil_iff.mpr hb]
    rfl
  · rw [hend, trim]

/-! ## No operation on white space changes a token -/

theorem tokens_append_cons {c : UInt16} (hc : isSpace c) (s s' : JsString) :
    tokens (s ++ c :: s') = tokens s ++ tokens s' :=
  List.runs_append_cons hc s s'

theorem tokens_cons {c : UInt16} (hc : isSpace c) (s : JsString) : tokens (c :: s) = tokens s :=
  List.runs_cons hc s

theorem tokens_trim (s : JsString) : tokens (trim s) = tokens s := by
  rw [tokens, trim, List.runs_rdropWhile, List.runs_dropWhile, tokens]

theorem tokens_replaceCRLF (s : JsString) : tokens (replaceCRLF s) = tokens s := by
  suffices h : ∀ pre, tokens (pre ++ replaceCRLF s) = tokens (pre ++ s) from h []
  -- What precedes is kept: outside a line break, the token being read goes on.
  induction s using replaceCRLF.induct with
  | case1 => exact fun _ ↦ rfl
  | case2 c => exact fun _ ↦ rfl
  | case3 c d s h ih =>
    intro pre
    have hcr : isSpace c := by rw [h.1]; decide
    have hlf : isSpace d := by rw [h.2]; decide
    have hih : tokens (replaceCRLF s) = tokens s := ih []
    rw [replaceCRLF, if_pos h, tokens_append_cons (by decide : isSpace lf), hih,
      tokens_append_cons hcr, tokens_cons hlf]
  | case4 c d s h ih =>
    intro pre
    have hih := ih (pre ++ [c])
    rw [replaceCRLF, if_neg h]
    simpa using hih

theorem tokens_replaceCR (s : JsString) : tokens (replaceCR s) = tokens s := by
  suffices h : ∀ pre, tokens (pre ++ replaceCR s) = tokens (pre ++ s) from h []
  induction s with
  | nil => exact fun _ ↦ rfl
  | cons c s ih =>
    intro pre
    rw [replaceCR, List.map_cons, ← replaceCR]
    by_cases hc : c = cr
    · have hcr : isSpace c := by rw [hc]; decide
      have hih : tokens (replaceCR s) = tokens s := ih []
      rw [if_pos hc, tokens_append_cons (by decide : isSpace lf), hih, tokens_append_cons hcr]
    · rw [if_neg hc]
      simpa using ih (pre ++ [c])

/-- Splitting at runs and splitting at single characters start with the same piece, and differ
after it in empty pieces only. -/
private theorem splitSpace_eq (s : JsString) : ∃ h t t', splitSpace s = h :: t ∧
    s.splitOnP isSpace = h :: t' ∧ t.filter (!·.isEmpty) = t'.filter (!·.isEmpty) := by
  induction s with
  | nil => exact ⟨[], [], [], rfl, rfl, rfl⟩
  | cons c s ih =>
    obtain ⟨h, t, t', hs, hp, ht⟩ := ih
    rw [splitSpace, List.splitOnP_cons_eq_if_modifyHead, hs, hp]
    by_cases hc : isSpace c
    · rw [if_pos hc, if_pos hc]
      by_cases hd : s.head?.any isSpace
      · -- The run goes on: `s` starts with white space, so its first piece is empty.
        have hnil : h = [] := by
          cases s with
          | nil => simp at hd
          | cons d s =>
            have hd : isSpace d := by simpa using hd
            rw [List.splitOnP_cons_eq_if_modifyHead, if_pos hd] at hp
            exact (List.cons.inj hp).1.symm
        rw [if_pos hd]
        exact ⟨h, t, h :: t', rfl, by rw [hnil], by rw [hnil]; simpa using ht⟩
      · rw [if_neg hd]
        exact ⟨[], h :: t, h :: t', rfl, rfl, by rw [List.filter_cons, List.filter_cons, ht]⟩
    · rw [if_neg hc, if_neg hc]
      exact ⟨c :: h, t, t', rfl, rfl, ht⟩

/-- The nonempty pieces of `split(/\s+/)` are the tokens. -/
theorem filter_splitSpace (s : JsString) :
    (splitSpace s).filter (fun token ↦ 0 < token.length) = tokens s := by
  have hp : (fun token : JsString ↦ decide (0 < token.length)) = (!·.isEmpty) := by
    funext token
    cases token <;> simp
  obtain ⟨h, t, t', hs, hp', ht⟩ := splitSpace_eq s
  rw [hp, tokens, List.runs, hs, hp', List.filter_cons, List.filter_cons, ht]

theorem tokens_joinSpace_tokens (s : JsString) : tokens (joinSpace (tokens s)) = tokens s :=
  List.runs_intercalate (by decide : isSpace space) fun _ hr ↦ List.mem_runs hr

/-- Joined tokens are equal exactly when the tokens are. -/
theorem joinSpace_tokens_inj {s s' : JsString} :
    joinSpace (tokens s) = joinSpace (tokens s') ↔ tokens s = tokens s' :=
  List.intercalate_runs_inj (by decide : isSpace space)

end JsString

end JudgeIt
