import Mathlib

/-!
# Tables with autoincremented keys

A table whose primary key counts up from one. A row can be inserted, under the next key, and
modified in place by a function that keeps its key; keys stay unique because no other operation
exists. A column that a modification does not touch is the same list before and after, which is how
further constraints on columns survive it.
-/

/-- Rows with distinct positive keys below the next one to be given out. -/
structure AutoTable {α : Type} (key : α → ℤ) where
  rows : List α
  next : ℤ
  one_le_next : 1 ≤ next
  key_mem : ∀ a ∈ rows, 1 ≤ key a ∧ key a < next
  nodup : (rows.map key).Nodup

namespace AutoTable

variable {α β : Type} {key : α → ℤ} {t : AutoTable key} {a b : α} {i j : ℤ}

/-- The table without rows. -/
def empty : AutoTable key where
  rows := []
  next := 1
  one_le_next := le_rfl
  key_mem := by simp
  nodup := List.nodup_nil

/-- The row with the given key. -/
def find? (t : AutoTable key) (i : ℤ) : Option α := t.rows.find? (key · = i)

/-- The table with one more row, which has the next key. -/
def insert (t : AutoTable key) (a : α) (h : key a = t.next) : AutoTable key where
  rows := t.rows ++ [a]
  next := t.next + 1
  one_le_next := by linarith [t.one_le_next]
  key_mem := by
    intro b hb
    rcases List.mem_append.mp hb with hb | hb
    · exact ⟨(t.key_mem b hb).1, (t.key_mem b hb).2.trans (lt_add_one _)⟩
    · rw [List.mem_singleton.mp hb, h]
      exact ⟨t.one_le_next, lt_add_one _⟩
  nodup := by
    rw [List.map_append, List.nodup_append]
    refine ⟨t.nodup, List.nodup_singleton _, ?_⟩
    rintro i hi j hj rfl
    obtain ⟨b, hb, rfl⟩ := List.mem_map.mp hi
    exact (t.key_mem b hb).2.ne ((List.mem_singleton.mp hj).trans h)

/-- The table with the row of the given key replaced. -/
def modify (t : AutoTable key) (i : ℤ) (f : α → α) (hf : ∀ a, key (f a) = key a) :
    AutoTable key :=
  have hkey : ∀ a, key (if key a = i then f a else a) = key a := fun a ↦ by
    split
    · exact hf a
    · rfl
  { t with
    rows := t.rows.map fun a ↦ if key a = i then f a else a
    key_mem := List.forall_mem_map.mpr fun a ha ↦ by
      rw [hkey a]
      exact t.key_mem a ha
    nodup := by
      rw [List.map_map, show key ∘ (fun a ↦ if key a = i then f a else a) = key from funext hkey]
      exact t.nodup }

@[simp] theorem rows_empty : (empty : AutoTable key).rows = [] := rfl

@[simp] theorem rows_insert {h : key a = t.next} : (t.insert a h).rows = t.rows ++ [a] := rfl

/-! ## Looking a key up -/

theorem find?_eq_some_iff : t.find? i = some a ↔ a ∈ t.rows ∧ key a = i := by
  constructor
  · intro h
    exact ⟨List.mem_of_find?_eq_some h, by simpa using List.find?_some h⟩
  · rintro ⟨ha, rfl⟩
    cases hb : t.find? (key a) with
    | none => simpa using List.find?_eq_none.mp hb a ha
    | some b =>
      have hkey : key b = key a := by simpa using List.find?_some hb
      rw [List.inj_on_of_nodup_map t.nodup (List.mem_of_find?_eq_some hb) ha hkey]

theorem find?_of_mem (ha : a ∈ t.rows) : t.find? (key a) = some a :=
  find?_eq_some_iff.mpr ⟨ha, rfl⟩

theorem isSome_find?_iff : (t.find? i).isSome ↔ i ∈ t.rows.map key := by
  rw [Option.isSome_iff_exists, List.mem_map]
  exact exists_congr fun a ↦ find?_eq_some_iff

theorem find?_next : t.find? t.next = none :=
  List.find?_eq_none.mpr fun b hb ↦ by simpa using (t.key_mem b hb).2.ne

theorem find?_insert (h : key a = t.next) :
    (t.insert a h).find? j = if j = t.next then some a else t.find? j := by
  rw [find?, rows_insert, List.find?_append, ← find?]
  by_cases hj : j = t.next
  · subst hj
    rw [find?_next, if_pos rfl, Option.none_or, List.find?_singleton, if_pos (by simpa using h)]
  · rw [if_neg hj, List.find?_singleton, if_neg, Option.or_none]
    rw [h]
    simpa using Ne.symm hj

theorem find?_modify {f : α → α} (hf : ∀ a, key (f a) = key a) :
    (t.modify i f hf).find? j = if j = i then (t.find? j).map f else t.find? j := by
  have hkey : ∀ a, key (if key a = i then f a else a) = key a := fun a ↦ by
    split
    · exact hf a
    · rfl
  simp only [find?, modify, List.find?_map, Function.comp_def, hkey]
  cases ha : t.rows.find? (key · = j) with
  | none => simp
  | some a =>
    have hj : key a = j := by simpa using List.find?_some ha
    rw [Option.map_some, hj]
    split <;> rfl

/-! ## Columns -/

theorem map_modify {f : α → α} {hf : ∀ a, key (f a) = key a} {g : α → β}
    (hg : ∀ a, g (f a) = g a) : (t.modify i f hf).rows.map g = t.rows.map g := by
  rw [modify, List.map_map]
  refine List.map_congr_left fun a _ ↦ ?_
  rw [Function.comp_apply]
  split
  · exact hg a
  · rfl

theorem mem_modify {f : α → α} (hf : ∀ a, key (f a) = key a) :
    b ∈ (t.modify i f hf).rows ↔ ∃ a ∈ t.rows, b = if key a = i then f a else a := by
  simp only [modify, List.mem_map, eq_comm]

end AutoTable
