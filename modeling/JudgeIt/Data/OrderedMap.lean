import Mathlib

/-!
# Maps that remember their order

A map whose entries keep the order in which their keys first came in: setting a key that is there
replaces its value in place, setting a new one puts it at the end. There is one entry for each key,
so that looking a key up and finding its entry are the same (`mem_entries_iff`).
-/

/-- Entries in the order of insertion, one for each key. -/
structure OrderedMap (κ ν : Type) where
  entries : List (κ × ν)
  nodup : (entries.map Prod.fst).Nodup

namespace OrderedMap

variable {κ ν : Type} [DecidableEq κ] {m : OrderedMap κ ν} {k k' : κ} {v v' : ν}

/-- The map without entries. -/
def empty : OrderedMap κ ν := ⟨[], List.nodup_nil⟩

/-- The value of a key. -/
def get (m : OrderedMap κ ν) (k : κ) : Option ν := (m.entries.find? (·.1 = k)).map Prod.snd

/-- The map with the value of one key set. -/
def set (m : OrderedMap κ ν) (k : κ) (v : ν) : OrderedMap κ ν :=
  if h : k ∈ m.entries.map Prod.fst then
    { entries := m.entries.map fun x ↦ if x.1 = k then (k, v) else x
      nodup := by
        have hkeys : (m.entries.map fun x ↦ if x.1 = k then (k, v) else x).map Prod.fst
            = m.entries.map Prod.fst := by
          rw [List.map_map]
          refine List.map_congr_left fun x _ ↦ ?_
          by_cases hx : x.1 = k <;> simp [hx]
        rw [hkeys]
        exact m.nodup }
  else
    { entries := m.entries ++ [(k, v)]
      nodup := by
        rw [List.map_append, List.nodup_append]
        refine ⟨m.nodup, List.nodup_singleton _, ?_⟩
        rintro a ha b hb rfl
        obtain rfl : a = k := List.mem_singleton.mp hb
        exact h ha }

/-- The values, in order. -/
def values (m : OrderedMap κ ν) : List ν := m.entries.map Prod.snd

@[simp] theorem get_empty : (empty : OrderedMap κ ν).get k = none := rfl

theorem mem_entries_iff : (k, v) ∈ m.entries ↔ m.get k = some v := by
  rw [get, Option.map_eq_some_iff]
  constructor
  · intro h
    refine ⟨(k, v), ?_, rfl⟩
    obtain ⟨x, hx⟩ : ∃ x, m.entries.find? (·.1 = k) = some x :=
      Option.isSome_iff_exists.mp (List.find?_isSome.mpr ⟨(k, v), h, by simp⟩)
    have hkey : x.1 = k := by simpa using List.find?_some hx
    rw [hx, List.inj_on_of_nodup_map m.nodup (List.mem_of_find?_eq_some hx) h hkey]
  · rintro ⟨⟨k', v'⟩, hx, rfl⟩
    have hkey : k' = k := by simpa using List.find?_some hx
    exact hkey ▸ List.mem_of_find?_eq_some hx

theorem mem_values_iff : v ∈ m.values ↔ ∃ k, m.get k = some v := by
  rw [values, List.mem_map]
  constructor
  · rintro ⟨⟨k, v'⟩, h, rfl⟩
    exact ⟨k, mem_entries_iff.mp h⟩
  · rintro ⟨k, h⟩
    exact ⟨(k, v), mem_entries_iff.mpr h, rfl⟩

/-- **Setting a key** changes what is found for that key alone. -/
theorem get_set : (m.set k v).get k' = if k' = k then some v else m.get k' := by
  refine Option.ext fun w ↦ ?_
  rw [← mem_entries_iff, set]
  split
  · next h =>
    -- The entry of the key is replaced where it is.
    rw [List.mem_map]
    by_cases hk : k' = k
    · subst hk
      rw [if_pos rfl, Option.some.injEq]
      constructor
      · rintro ⟨x, -, hx⟩
        split at hx
        · exact (Prod.mk.inj hx).2
        · next hne => exact absurd (congrArg Prod.fst hx) hne
      · rintro rfl
        obtain ⟨x, hx, hkey⟩ := List.mem_map.mp h
        exact ⟨x, hx, if_pos hkey⟩
    · rw [if_neg hk, ← mem_entries_iff]
      constructor
      · rintro ⟨x, hx, hw⟩
        split at hw
        · exact absurd (congrArg Prod.fst hw).symm hk
        · exact hw ▸ hx
      · exact fun hmem ↦ ⟨_, hmem, if_neg hk⟩
  · next h =>
    rw [List.mem_append, List.mem_singleton, Prod.mk.injEq]
    by_cases hk : k' = k
    · subst hk
      have hnot : (k', w) ∉ m.entries := fun hmem ↦ h (List.mem_map_of_mem hmem)
      simp [hnot, eq_comm]
    · simp [hk, mem_entries_iff]

end OrderedMap
