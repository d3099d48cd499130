/-
# Lists of keyed entries

A list of pairs used as a map: one entry per key. Overwriting the value of the
entry at an index keeps all keys, and where the keys are distinct it changes
what is listed under that entry's key and nothing else.
-/

import Mathlib.Data.List.Nodup

namespace LibBench.Math

universe uκ uα

variable {κ : Type uκ} {α : Type uα}

theorem map_fst_modify (entries : List (κ × α)) (index : ℕ) (new : α) :
    (entries.modify index fun entry => (entry.1, new)).map Prod.fst =
      entries.map Prod.fst := by
  refine List.ext_getElem? fun other => ?_
  rw [List.getElem?_map, List.getElem?_map, List.getElem?_modify]
  cases entries[other]? with
  | none => rfl
  | some entry =>
      by_cases h : index = other
      · simp [h]
      · simp [h]

theorem getElem?_of_map_fst {entries : List (κ × α)} {index : ℕ} {key : κ}
    (h : (entries.map Prod.fst)[index]? = some key) :
    ∃ value, entries[index]? = some (key, value) := by
  rw [List.getElem?_map, Option.map_eq_some_iff] at h
  obtain ⟨⟨_, value⟩, hentry, rfl⟩ := h
  exact ⟨value, hentry⟩

theorem mem_modify_iff {entries : List (κ × α)} (hnodup : (entries.map Prod.fst).Nodup)
    {index : ℕ} {key : κ} (hkey : (entries.map Prod.fst)[index]? = some key)
    {other : κ} {value new : α} :
    (other, value) ∈ entries.modify index (fun entry => (entry.1, new)) ↔
      (other = key ∧ value = new) ∨ (other ≠ key ∧ (other, value) ∈ entries) := by
  obtain ⟨old, hentry⟩ := getElem?_of_map_fst hkey
  have hunique {position : ℕ} {found : α} (h : entries[position]? = some (key, found)) :
      position = index := by
    have hposition : (entries.map Prod.fst)[position]? = some key := by
      rw [List.getElem?_map, h, Option.map_some]
    have hlt := (List.getElem?_eq_some_iff.mp hposition).1
    exact (List.getElem?_inj hlt hnodup).mp (hposition.trans hkey.symm)
  simp only [List.mem_iff_getElem?, List.getElem?_modify]
  constructor
  · rintro ⟨position, h⟩
    by_cases hposition : index = position
    · subst hposition
      simp only [hentry, if_true, Option.map_eq_map, Option.map_some, Option.some.injEq,
        Prod.mk.injEq] at h
      exact Or.inl ⟨h.1.symm, h.2.symm⟩
    · replace h : entries[position]? = some (other, value) := by simpa [hposition] using h
      refine Or.inr ⟨?_, position, h⟩
      rintro rfl
      exact hposition (hunique h).symm
  · rintro (⟨rfl, rfl⟩ | ⟨hne, position, h⟩)
    · exact ⟨index, by simp [hentry]⟩
    · refine ⟨position, ?_⟩
      have hposition : index ≠ position := by
        rintro rfl
        rw [hentry, Option.some.injEq, Prod.mk.injEq] at h
        exact hne h.1.symm
      simp [hposition, h]

end LibBench.Math
