/-
# Folding a queue of keyed updates into a table

A table maps keys to optional entries; a queue of pairs (key, value) is applied
to it from the front, each pair changing at most the entry under its own key.
The whole queue then acts on the table entry by entry: the entry under a key is
the fold of that key's own values in queue order, and no other pair of the
queue matters to it.
-/

import Mathlib.Data.List.Basic
import Mathlib.Logic.Function.Basic

namespace LibBench.Math

universe uκ uα uβ

variable {κ : Type uκ} [DecidableEq κ] {α : Type uα} {β : Type uβ}

/-- The values queued under one key, in queue order. -/
def ownUpdates (key : κ) (queue : List (κ × α)) : List α :=
  queue.filterMap fun update => if update.1 = key then some update.2 else none

/-- Apply one update to the entry under its key; a missing entry is left
missing. -/
def applyUpdate (act : β → α → β) (table : κ → Option β) (update : κ × α) : κ → Option β :=
  Function.update table update.1 ((table update.1).map fun entry => act entry update.2)

@[simp]
theorem ownUpdates_nil (key : κ) : ownUpdates key ([] : List (κ × α)) = [] := rfl

theorem ownUpdates_cons (key : κ) (update : κ × α) (queue : List (κ × α)) :
    ownUpdates key (update :: queue) =
      if update.1 = key then update.2 :: ownUpdates key queue else ownUpdates key queue := by
  by_cases h : update.1 = key <;> simp [ownUpdates, h]

@[simp]
theorem ownUpdates_append (key : κ) (first second : List (κ × α)) :
    ownUpdates key (first ++ second) = ownUpdates key first ++ ownUpdates key second := by
  simp [ownUpdates]

theorem mem_ownUpdates {key : κ} {value : α} {queue : List (κ × α)} :
    value ∈ ownUpdates key queue ↔ (key, value) ∈ queue := by
  simp only [ownUpdates, List.mem_filterMap]
  constructor
  · rintro ⟨update, hmem, hvalue⟩
    split at hvalue
    · next hkey =>
        obtain rfl := Option.some.inj hvalue
        exact hkey ▸ hmem
    · cases hvalue
  · intro hmem
    exact ⟨(key, value), hmem, by simp⟩

/-- A queue whose keys are renamed apart holds the same values under each new
name. -/
theorem ownUpdates_map {ι : Type*} [DecidableEq ι] {name : ι → κ}
    (hname : Function.Injective name) (key : ι) (queue : List (ι × α)) :
    ownUpdates (name key) (queue.map (Prod.map name id)) = ownUpdates key queue := by
  induction queue with
  | nil => rfl
  | cons update queue ih =>
      rw [List.map_cons, ownUpdates_cons, ownUpdates_cons, ih]
      simp [hname.eq_iff]

/-- Values under other keys do not matter to a key. -/
theorem ownUpdates_filter (keep : κ → Bool) {key : κ} (hkeep : keep key = true)
    (queue : List (κ × α)) :
    ownUpdates key (queue.filter fun update => keep update.1) = ownUpdates key queue := by
  induction queue with
  | nil => rfl
  | cons update queue ih =>
      rw [List.filter_cons, ownUpdates_cons]
      by_cases h : update.1 = key
      · rw [h, hkeep, if_pos rfl, if_pos rfl, ownUpdates_cons, if_pos h, ih]
      · rw [if_neg h, ← ih]
        split
        · rw [ownUpdates_cons, if_neg h]
        · rfl

theorem applyUpdate_apply (act : β → α → β) (table : κ → Option β) (update : κ × α) (key : κ) :
    applyUpdate act table update key =
      if update.1 = key then (table key).map fun entry => act entry update.2 else table key := by
  unfold applyUpdate
  by_cases h : update.1 = key
  · subst h
    simp
  · simp [h, Function.update_of_ne (Ne.symm h)]

/-- The queue acts on the table entry by entry: each entry is the fold of the
values queued under its own key. -/
theorem foldl_applyUpdate_apply (act : β → α → β) (table : κ → Option β)
    (queue : List (κ × α)) (key : κ) :
    queue.foldl (applyUpdate act) table key =
      (table key).map fun entry => (ownUpdates key queue).foldl act entry := by
  induction queue generalizing table with
  | nil => simp
  | cons update queue ih =>
      rw [List.foldl_cons, ih, applyUpdate_apply, ownUpdates_cons]
      by_cases h : update.1 = key
      · simp [h, Function.comp_def]
      · simp [h]

/-- Two queues with the same values under each key, in the same order there, act
alike: how the keys interleave does not matter. -/
theorem foldl_applyUpdate_congr (act : β → α → β) (table : κ → Option β)
    {first second : List (κ × α)}
    (h : ∀ key, ownUpdates key first = ownUpdates key second) :
    first.foldl (applyUpdate act) table = second.foldl (applyUpdate act) table := by
  funext key
  rw [foldl_applyUpdate_apply, foldl_applyUpdate_apply, h key]

/-- Applying updates neither creates nor removes entries. -/
theorem foldl_applyUpdate_isSome (act : β → α → β) (table : κ → Option β)
    (queue : List (κ × α)) (key : κ) :
    (queue.foldl (applyUpdate act) table key).isSome = (table key).isSome := by
  rw [foldl_applyUpdate_apply, Option.isSome_map]

end LibBench.Math
