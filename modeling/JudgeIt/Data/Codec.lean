import Mathlib

/-!
# Self-delimiting codes

A code whose words can be read off the front of any longer text, so that codes compose: for a pair
the words follow each other, a list is preceded by its length. Every code made here comes with the
proof that reading gives back what was written, which is all that is ever used of it.
-/

/-- A code for `α` over the alphabet `κ`. -/
structure Codec (κ α : Type) where
  enc (a : α) : List κ
  /-- What a text starts with, and the rest of it. -/
  dec (s : List κ) : Option (α × List κ)
  dec_enc (a : α) (s : List κ) : dec (enc a ++ s) = some (a, s)

namespace Codec

variable {κ α β : Type}

/-- A single letter. -/
def letter : Codec κ κ where
  enc a := [a]
  dec
    | [] => none
    | a :: s => some (a, s)
  dec_enc _ _ := rfl

/-- The code along a function with a left inverse. -/
def comap (c : Codec κ α) (f : β → α) (g : α → β) (h : ∀ b, g (f b) = b) : Codec κ β where
  enc b := c.enc (f b)
  dec s := (c.dec s).map fun r ↦ (g r.1, r.2)
  dec_enc b s := by rw [c.dec_enc, Option.map_some, h]

/-- One word after the other. -/
def pair (c : Codec κ α) (d : Codec κ β) : Codec κ (α × β) where
  enc p := c.enc p.1 ++ d.enc p.2
  dec s := (c.dec s).bind fun r ↦ (d.dec r.2).map fun r' ↦ ((r.1, r'.1), r'.2)
  dec_enc p s := by
    rw [List.append_assoc, c.dec_enc, Option.bind_some, d.dec_enc]
    rfl

section Nat

variable [DecidableEq κ]

/-- The number of leading letters `a`, up to a letter that ends them. -/
def decNat (a : κ) : List κ → Option (ℕ × List κ)
  | [] => none
  | b :: s => if b = a then (decNat a s).map fun r ↦ (r.1 + 1, r.2) else some (0, s)

/-- A number in unary notation. -/
def nat (a b : κ) (h : b ≠ a) : Codec κ ℕ where
  enc n := List.replicate n a ++ [b]
  dec := decNat a
  dec_enc n s := by
    induction n with
    | zero => exact if_neg h
    | succ n ih =>
      rw [List.replicate_succ, List.cons_append, List.cons_append, decNat, if_pos rfl, ih]
      rfl

end Nat

/-- Read a given number of words. -/
def decMany (c : Codec κ α) : ℕ → List κ → Option (List α × List κ)
  | 0, s => some ([], s)
  | n + 1, s => (c.dec s).bind fun r ↦ (decMany c n r.2).map fun r' ↦ (r.1 :: r'.1, r'.2)

theorem decMany_flatMap (c : Codec κ α) (l : List α) (s : List κ) :
    c.decMany l.length (l.flatMap c.enc ++ s) = some (l, s) := by
  induction l with
  | nil => rfl
  | cons a l ih =>
    rw [List.flatMap_cons, List.append_assoc, List.length_cons, decMany, c.dec_enc,
      Option.bind_some, ih]
    rfl

/-- A list, after its length. -/
def list (n : Codec κ ℕ) (c : Codec κ α) : Codec κ (List α) where
  enc l := n.enc l.length ++ l.flatMap c.enc
  dec s := (n.dec s).bind fun r ↦ c.decMany r.1 r.2
  dec_enc l s := by
    rw [List.append_assoc, n.dec_enc, Option.bind_some, decMany_flatMap]

/-- A value that may be missing, as a list. -/
def option (n : Codec κ ℕ) (c : Codec κ α) : Codec κ (Option α) :=
  (list n c).comap Option.toList List.head? fun
    | none => rfl
    | some _ => rfl

end Codec
