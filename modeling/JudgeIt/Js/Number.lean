import JudgeIt.Js.Text

/-!
# JavaScript numbers

The numbers of the judge are what the sandbox reports about a run (seconds, kilobytes, codes) and
what is computed from them with a few multiplications and roundings. They are integers here where
the code parses or stores an integer, and exact rationals elsewhere. `none` stands for `NaN`.
`Math.round`, which sends halves up, is `round`.

A parsed integer is rounded to a double, which can change it beyond `2 ^ 53`. Only the range of the
doubles is left out: where JavaScript overflows to `Infinity`, after more than three hundred digits,
the integer here is a finite one.
-/

namespace JudgeIt

namespace JsString

/-- The value of a digit in bases up to 16. -/
def digit (u : UInt16) : Option ℕ :=
  if 48 ≤ u ∧ u ≤ 57 then some (u.toNat - 48)
  else if 97 ≤ u ∧ u ≤ 102 then some (u.toNat - 87)
  else if 65 ≤ u ∧ u ≤ 70 then some (u.toNat - 55)
  else none

/-- The digits a number starts with, most significant first, and what follows them. -/
def digits (radix : ℕ) : JsString → List ℕ × JsString
  | [] => ([], [])
  | u :: s =>
    match (digit u).filter (· < radix) with
    | some d => (d :: (digits radix s).1, (digits radix s).2)
    | none => ([], u :: s)

/-- The number with the given digits. -/
def ofDigits (radix : ℕ) (ds : List ℕ) : ℕ := ds.foldl (fun n d ↦ n * radix + d) 0

/-- A sign, if there is one, and what follows it. -/
def sign : JsString → ℤ × JsString
  | [] => (1, [])
  | u :: s => if u = 45 then (-1, s) else if u = 43 then (1, s) else (1, u :: s)

/-- The quotient of `n` by `d` as the nearest integer, halves going to the even one. -/
def divEven (n d : ℕ) : ℕ :=
  if 2 * (n % d) < d ∨ 2 * (n % d) = d ∧ n / d % 2 = 0 then n / d else n / d + 1

/-- The double nearest to `n`. It has 53 significant bits, so its last one is worth `ulp`. -/
def nearestDouble (n : ℕ) : ℕ :=
  let ulp := 2 ^ (n.log2 - 52)
  divEven n ulp * ulp

example : nearestDouble (2 ^ 53 + 1) = 2 ^ 53 ∧ nearestDouble (2 ^ 53 + 3) = 2 ^ 53 + 4 := by decide

/-- `parseInt(s)`, whose radix is 16 after `0x` and 10 otherwise. -/
def parseInt (s : JsString) : Option ℤ :=
  let (sgn, s) := sign (s.dropWhile isSpace)
  let (radix, s) := if s.take 2 = "0x" ∨ s.take 2 = "0X" then (16, s.drop 2) else (10, s)
  match (digits radix s).1 with
  | [] => none
  | ds => some (sgn * nearestDouble (ofDigits radix ds))

/-- The exponent part of a decimal literal; without digits after its sign it is no exponent. -/
def exponent : JsString → ℤ
  | [] => 0
  | u :: s =>
    if u = 101 ∨ u = 69 then
      let (sgn, s) := sign s
      sgn * ofDigits 10 (digits 10 s).1
    else 0

/-- `parseFloat(s)`, on decimal literals. -/
def parseFloat (s : JsString) : Option ℚ :=
  let (sgn, s) := sign (s.dropWhile isSpace)
  let (int, s) := digits 10 s
  let (frac, s) := if s.head? = some 46 then digits 10 s.tail else ([], s)
  if int = [] ∧ frac = [] then none
  else some (sgn * ofDigits 10 (int ++ frac) / 10 ^ frac.length * 10 ^ exponent s)

end JsString

/-- `+x.toFixed(2)`: the nearest hundredth, halves going away from zero. -/
def toFixed2 (x : ℚ) : ℚ := if x < 0 then -round (-x * 100) / 100 else round (x * 100) / 100

end JudgeIt
