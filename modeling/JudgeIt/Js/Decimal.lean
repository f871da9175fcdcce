import JudgeIt.Js.Number

/-!
# Decimal texts of integers

`parseInt` reads more than it has to: white space before the number, a sign, a hexadecimal prefix,
and anything after the digits. On the text that `String` makes of an integer it has nothing of that
to skip, and gives the integer back as long as a double holds it, which every integer up to `2 ^ 53`
does.
-/

namespace JudgeIt

namespace JsString

/-- The code unit of a decimal digit. -/
def digitUnit (d : Fin 10) : UInt16 := .ofNat (48 + d)

variable {ds : List (Fin 10)}

theorem digit_digitUnit (d : Fin 10) : (digit (digitUnit d)).filter (· < 10) = some d.val := by
  revert d
  decide

/-- A digit is neither white space nor a sign nor the `x` of a prefix. -/
theorem digitUnit_plain (d : Fin 10) : isSpace (digitUnit d) = false ∧ digitUnit d ≠ 45 ∧
    digitUnit d ≠ 43 ∧ digitUnit d ≠ 120 ∧ digitUnit d ≠ 88 := by
  revert d
  decide

theorem ofChar_digitChar (d : Fin 10) : ofChar (Nat.digitChar d) = [digitUnit d] := by
  revert d
  decide

theorem ofString_append (s t : String) : ofString (s ++ t) = ofString s ++ ofString t := by
  rw [ofString, String.toList_append, List.flatMap_append, ofString, ofString]

theorem ofString_digitChar (d : Fin 10) :
    ofString (.singleton (Nat.digitChar d)) = [digitUnit d] := by
  rw [ofString, String.toList_singleton, List.flatMap_singleton, ofChar_digitChar]

/-! ## Reading digits -/

theorem digits_map_digitUnit (ds : List (Fin 10)) :
    digits 10 (ds.map digitUnit) = (ds.map Fin.val, []) := by
  induction ds with
  | nil => rfl
  | cons d ds ih =>
    rw [List.map_cons, digits, digit_digitUnit, ih]
    rfl

/-- Digits have no hexadecimal prefix. -/
theorem take_two_map_digitUnit (ds : List (Fin 10)) :
    ¬((ds.map digitUnit).take 2 = "0x" ∨ (ds.map digitUnit).take 2 = "0X") := by
  have hlower : ofString "0x" = [48, 120] := rfl
  have hupper : ofString "0X" = [48, 88] := rfl
  rw [hlower, hupper]
  match ds with
  | [] => decide
  | [d] => simp
  | d :: d' :: ds =>
    obtain ⟨-, -, -, hx, hX⟩ := digitUnit_plain d'
    simp [hx, hX]

theorem parseInt_of_digits {s t rest : JsString} {sgn : ℤ} {l : List ℕ}
    (hsign : sign (s.dropWhile isSpace) = (sgn, t))
    (hhex : ¬(t.take 2 = "0x" ∨ t.take 2 = "0X")) (hdigits : digits 10 t = (l, rest))
    (hne : l ≠ []) : parseInt s = some (sgn * nearestDouble (ofDigits 10 l)) := by
  cases l with
  | nil => exact absurd rfl hne
  | cons d l =>
    rw [parseInt, hsign]
    simp only [if_neg hhex, hdigits]

theorem parseInt_map_digitUnit (h : ds ≠ []) :
    parseInt (ds.map digitUnit) = some (nearestDouble (ofDigits 10 (ds.map Fin.val)) : ℤ) := by
  obtain ⟨d, ds, rfl⟩ := List.exists_cons_of_ne_nil h
  obtain ⟨hspace, hminus, hplus, -, -⟩ := digitUnit_plain d
  have hsign : sign (((d :: ds).map digitUnit).dropWhile isSpace)
      = (1, (d :: ds).map digitUnit) := by
    rw [List.map_cons, List.dropWhile_cons_of_neg (by simp [hspace]), sign, if_neg hminus,
      if_neg hplus]
  rw [parseInt_of_digits hsign (take_two_map_digitUnit _) (digits_map_digitUnit _)
    (List.cons_ne_nil _ _), one_mul]

theorem parseInt_minus_digitUnit (h : ds ≠ []) :
    parseInt (45 :: ds.map digitUnit)
      = some (-(nearestDouble (ofDigits 10 (ds.map Fin.val)) : ℤ)) := by
  have hsign : sign ((45 :: ds.map digitUnit).dropWhile isSpace) = (-1, ds.map digitUnit) := by
    rw [List.dropWhile_cons_of_neg (by decide), sign, if_pos rfl]
  rw [parseInt_of_digits hsign (take_two_map_digitUnit _) (digits_map_digitUnit _)
    (by simpa using h), neg_one_mul]

/-! ## Integers that are doubles -/

theorem divEven_one (n : ℕ) : divEven n 1 = n := by
  rw [divEven, Nat.mod_one, Nat.div_one]
  exact if_pos (Or.inl one_pos)

/-- Up to `2 ^ 53` every integer is a double. -/
theorem nearestDouble_of_le {n : ℕ} (hn : n ≤ 2 ^ 53) : nearestDouble n = n := by
  rcases hn.lt_or_eq with hlt | rfl
  · have hlog : n.log2 - 52 = 0 := by
      rcases Nat.eq_zero_or_pos n with rfl | hpos
      · rfl
      · have := (Nat.log2_lt hpos.ne').mpr hlt
        omega
    rw [nearestDouble, hlog, pow_zero, divEven_one, mul_one]
  · decide

/-! ## Writing digits -/

theorem ofDigits_append_singleton (l : List ℕ) (d : ℕ) :
    ofDigits 10 (l ++ [d]) = ofDigits 10 l * 10 + d := by
  rw [ofDigits, List.foldl_append]
  rfl

theorem exists_digits (n : ℕ) : ∃ ds : List (Fin 10), ds ≠ [] ∧
    ofString n.repr = ds.map digitUnit ∧ ofDigits 10 (ds.map Fin.val) = n := by
  induction n using Nat.strong_induction_on with
  | _ n ih =>
    rcases lt_or_ge n 10 with hn | hn
    · refine ⟨[⟨n, hn⟩], List.cons_ne_nil _ _, ?_, ?_⟩
      · rw [Nat.repr_of_lt hn]
        exact ofString_digitChar ⟨n, hn⟩
      · exact zero_add n
    · obtain ⟨ds, hne, hds, hvalue⟩ := ih (n / 10) (by omega)
      let d : Fin 10 := ⟨n % 10, Nat.mod_lt n (by decide)⟩
      refine ⟨ds ++ [d], by simp, ?_, ?_⟩
      · rw [Nat.repr_of_ge hn, ofString_append, hds, List.map_append]
        exact congrArg _ (ofString_digitChar d)
      · rw [List.map_append]
        refine (ofDigits_append_singleton _ _).trans ?_
        rw [hvalue]
        exact Nat.div_add_mod' n 10

/-- **`parseInt` reads what `String` writes**, up to `2 ^ 53`. -/
theorem parseInt_ofInt {n : ℤ} (hn : n.natAbs ≤ 2 ^ 53) : parseInt (ofInt n) = some n := by
  cases n with
  | ofNat m =>
    have hm : nearestDouble m = m := nearestDouble_of_le hn
    obtain ⟨ds, hne, hds, hvalue⟩ := exists_digits m
    have htext : ofInt (Int.ofNat m) = ds.map digitUnit := hds
    rw [htext, parseInt_map_digitUnit hne, hvalue, hm]
    rfl
  | negSucc m =>
    have hm : nearestDouble (m + 1) = m + 1 := nearestDouble_of_le hn
    obtain ⟨ds, hne, hds, hvalue⟩ := exists_digits (m + 1)
    have htext : ofInt (Int.negSucc m) = 45 :: ds.map digitUnit := by
      rw [← hds]
      exact ofString_append "-" _
    rw [htext, parseInt_minus_digitUnit hne, hvalue, hm]
    rfl

end JsString

end JudgeIt
