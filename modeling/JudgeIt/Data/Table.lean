import Mathlib

/-!
# Lists as tables

A table of processes or of rows is a list. A step changes one entry of it, and what a `filterMap`
collects from the table then changes by that entry's contribution alone. A query may keep the first
entry for each value of a key; `distinctOn` is that, and with it comes what such a query returns.
-/

namespace List

variable {α β : Type*}

theorem exists_modify {l : List α} {i : ℕ} {a : α} (h : l[i]? = some a) :
    ∃ l₁ l₂, l = l₁ ++ a :: l₂ ∧ ∀ f, l.modify i f = l₁ ++ f a :: l₂ := by
  obtain ⟨hi, rfl⟩ := getElem?_eq_some_iff.mp h
  refine ⟨l.take i, l.drop (i + 1), ?_, fun f ↦ modify_eq_take_cons_drop hi⟩
  rw [getElem_cons_drop, take_append_drop]

theorem exists_filterMap_modify {l : List α} {i : ℕ} {a : α} (g : α → Option β)
    (h : l[i]? = some a) :
    ∃ rest : List β, (l.filterMap g).Perm ((g a).toList ++ rest) ∧
      ∀ f, ((l.modify i f).filterMap g).Perm ((g (f a)).toList ++ rest) := by
  obtain ⟨l₁, l₂, rfl, hf⟩ := exists_modify h
  have hperm : ∀ b, ((l₁ ++ b :: l₂).filterMap g).Perm
      ((g b).toList ++ (l₁.filterMap g ++ l₂.filterMap g)) := by
    intro b
    rw [filterMap_append, filterMap_cons]
    cases g b with
    | none => exact Perm.refl _
    | some c => exact perm_middle
  exact ⟨_, hperm a, fun f ↦ by rw [hf f]; exact hperm (f a)⟩

@[simp] theorem modify_length_append_singleton (l : List α) (a : α) (f : α → α) :
    (l ++ [a]).modify l.length f = l ++ [f a] := by
  induction l with
  | nil => rfl
  | cons b l ih => rw [cons_append, length_cons, modify_succ_cons, ih, cons_append]

theorem getElem?_append_singleton (l : List α) (a : α) (i : ℕ) :
    (l ++ [a])[i]? = if i = l.length then some a else l[i]? := by
  split
  · next hi =>
    subst hi
    exact getElem?_concat_length
  · next hi =>
    rcases Nat.lt_or_gt_of_ne hi with hlt | hgt
    · exact getElem?_append_left hlt
    · rw [getElem?_eq_none (by simpa using hgt), getElem?_eq_none hgt.le]

theorem eq_of_getElem?_range {n k w : ℕ} (h : (range n)[k]? = some w) : w = k := by
  obtain ⟨hk, rfl⟩ := getElem?_eq_some_iff.mp h
  exact getElem_range hk

theorem take_append_singleton_congr {l l' : List α} {n : ℕ} (h : l.take n = l'.take n) (a : α) :
    (l ++ [a]).take n = (l' ++ [a]).take n := by
  have hlength : min n l.length = min n l'.length := by
    simpa using congrArg length h
  rw [take_append, take_append, h]
  congr 1
  rcases le_total n l.length with hn | hn
  · have hn' : n ≤ l'.length := by omega
    rw [Nat.sub_eq_zero_of_le hn, Nat.sub_eq_zero_of_le hn']
  · rcases hn.eq_or_lt with hn | hn
    · have hn' : n ≤ l'.length := by omega
      rw [Nat.sub_eq_zero_of_le hn.ge, Nat.sub_eq_zero_of_le hn']
    · have hn' : l.length = l'.length := by omega
      rw [hn']

/-- An entry of a record that has been extended is an old one or one of those added. -/
theorem eq_append_cons_of_append {l l' pre post : List α} {a : α}
    (h : l ++ l' = pre ++ a :: post) :
    (∃ post', l = pre ++ a :: post' ∧ post = post' ++ l') ∨
      ∃ pre', l' = pre' ++ a :: post ∧ pre = l ++ pre' := by
  rcases append_eq_append_iff.mp h with ⟨l₁, hpre, hl'⟩ | ⟨l₁, hl, hpost⟩
  · exact Or.inr ⟨l₁, hl', hpre⟩
  · cases l₁ with
    | nil => exact Or.inr ⟨[], hpost.symm, by rw [hl, append_nil, append_nil]⟩
    | cons b l₁ =>
      obtain ⟨rfl, rfl⟩ := cons.inj hpost
      exact Or.inl ⟨l₁, hl, rfl⟩

/-! ## Unique keys -/

variable {κ : Type*} [DecidableEq κ]

theorem filter_key_eq_singleton {key : α → κ} {l : List α} (h : (l.map key).Nodup) {a : α}
    (ha : a ∈ l) : l.filter (key · = key a) = [a] := by
  induction l with
  | nil => cases ha
  | cons b l ih =>
    rw [map_cons, nodup_cons] at h
    rcases mem_cons.mp ha with rfl | ha
    · rw [filter_cons_of_pos (by simp), filter_eq_nil_iff.mpr]
      intro c hc hkey
      exact h.1 (mem_map.mpr ⟨c, hc, by simpa using hkey⟩)
    · rw [filter_cons_of_neg, ih h.2 ha]
      intro hkey
      exact h.1 (mem_map.mpr ⟨a, ha, by simpa [eq_comm] using hkey⟩)

/-- Entries that contribute a common element to a collection without duplicates are the same. -/
theorem eq_of_mem_flatMap {l : List α} {f : α → List β} (h : (l.flatMap f).Nodup) {a a' : α}
    (ha : a ∈ l) (ha' : a' ∈ l) {b : β} (hb : b ∈ f a) (hb' : b ∈ f a') : a = a' := by
  have hsymm : Std.Symm (Function.onFun Disjoint f) := ⟨fun _ _ hd ↦ Disjoint.symm hd⟩
  by_contra hne
  exact (nodup_flatMap.mp h).2.forall ha ha' hne hb hb'

/-! ## The first entry of each key -/

/-- The first entry for each value of the key. -/
def distinctOn (key : α → κ) : List α → List α
  | [] => []
  | a :: l => a :: (distinctOn key l).filter (key · ≠ key a)

theorem mem_map_distinctOn {key : α → κ} {l : List α} {k : κ} :
    k ∈ (l.distinctOn key).map key ↔ k ∈ l.map key := by
  induction l with
  | nil => rfl
  | cons a l ih =>
    have hfilter : k ∈ ((l.distinctOn key).filter (key · ≠ key a)).map key ↔
        k ∈ l.map key ∧ k ≠ key a := by
      rw [← ih]
      simp only [mem_map, mem_filter, decide_eq_true_eq]
      constructor
      · rintro ⟨b, ⟨hb, hne⟩, rfl⟩
        exact ⟨⟨b, hb, rfl⟩, hne⟩
      · rintro ⟨⟨b, hb, rfl⟩, hne⟩
        exact ⟨b, ⟨hb, hne⟩, rfl⟩
    rw [distinctOn, map_cons, mem_cons, hfilter, map_cons, mem_cons]
    by_cases hk : k = key a <;> simp [hk]

theorem nodup_map_distinctOn (key : α → κ) (l : List α) : ((l.distinctOn key).map key).Nodup := by
  induction l with
  | nil => exact nodup_nil
  | cons a l ih =>
    rw [distinctOn, map_cons, nodup_cons]
    refine ⟨?_, ih.sublist (filter_sublist.map key)⟩
    intro hmem
    obtain ⟨b, hb, hkey⟩ := mem_map.mp hmem
    simpa [hkey] using (mem_filter.mp hb).2

theorem distinctOn_sublist (key : α → κ) (l : List α) : (l.distinctOn key).Sublist l := by
  induction l with
  | nil => exact Sublist.refl _
  | cons a l ih => exact (filter_sublist.trans ih).cons_cons a

/-- In a sorted list the entry that is kept is the least of its key. -/
theorem eq_or_rel_of_mem_distinctOn {key : α → κ} {r : α → α → Prop} {l : List α}
    (hl : l.Pairwise r) {a b : α} (ha : a ∈ l.distinctOn key) (hb : b ∈ l) (hkey : key b = key a) :
    b = a ∨ r a b := by
  induction l with
  | nil => cases hb
  | cons c l ih =>
    obtain ⟨hc, hl⟩ := pairwise_cons.mp hl
    rcases mem_cons.mp ha with rfl | ha
    · exact (mem_cons.mp hb).imp_right (hc b)
    · obtain ⟨ha, hne⟩ := mem_filter.mp ha
      rcases mem_cons.mp hb with rfl | hb
      · exact absurd hkey.symm (of_decide_eq_true hne)
      · exact ih hl ha hb

/-! ## The beginning of a sorted list -/

/-- In a list with increasing keys, the first `n` entries are those with fewer than `n` smaller
keys. -/
theorem mem_take_iff_of_pairwise_lt {ι : Type*} [LinearOrder ι] {key : α → ι} {l : List α}
    (hl : l.Pairwise fun a b ↦ key a < key b) {n : ℕ} {a : α} (ha : a ∈ l) :
    a ∈ l.take n ↔ ((l.map key).filter (· < key a)).length < n := by
  induction l generalizing n with
  | nil => cases ha
  | cons c l ih =>
    obtain ⟨hc, hl⟩ := pairwise_cons.mp hl
    cases n with
    | zero => simp
    | succ n =>
      rw [take_succ_cons, mem_cons, map_cons]
      rcases mem_cons.mp ha with rfl | ha
      · have hnone : (l.map key).filter (· < key a) = [] := by
          refine filter_eq_nil_iff.mpr fun i hi ↦ ?_
          obtain ⟨b, hb, rfl⟩ := mem_map.mp hi
          simpa using (hc b hb).le
        simp [hnone]
      · have hlt : key c < key a := hc a ha
        have hne : a ≠ c := fun heq ↦ hlt.ne (congrArg key heq.symm)
        rw [filter_cons_of_pos (by simpa using hlt), length_cons, Nat.add_lt_add_iff_right,
          ← ih hl ha, or_iff_right hne]

end List
