/-
# Rings of numbered entries

A ring keeps the entry of a number at the place that the number has in the ring,
together with the number itself, and remembers the number after the newest one.
A number that is not newer takes its place as it is. A newer one moves the ring
on: the places from the remembered number up to the new one are cleared, so that
nothing from the turn before is left there.

In the reading with integers the ring holds a window, as long as the ring, that
ends at the remembered number, and works as a partial map on it. In the reading
with sixteen bits every operation does the same as long as the number it is given
is less than half a turn, for a search less than a whole turn, away from the
window.
-/

import Mathlib.Logic.Function.Basic
import LibBench.Math.SequenceNumber

namespace LibBench.Math

open SequenceNumber

/-- A ring of so many places. A place is empty or holds a number and its data. -/
@[ext]
structure SequenceRing (ν : Type) (α : Type*) (size : ℕ) where
  sequence : ν
  entry : ℕ → Option (ν × α)

namespace SequenceRing

section Operations

variable {ν : Type} [SequenceNumber ν] [DecidableEq ν] {α : Type*} {size : ℕ}

/-- The ring as it is created. -/
def empty : SequenceRing ν α size where
  sequence := ofInt 0
  entry _ := none

variable (ring : SequenceRing ν α size) (number : ν)

/-- The data of a number. -/
def find : Option α :=
  match ring.entry (place number size) with
  | some (other, data) => if other = number then some data else none
  | none => none

/-- Whether the place of the number is empty. -/
def available : Bool :=
  (ring.entry (place number size)).isNone

/-- Empty the place of the number. -/
def remove : SequenceRing ν α size :=
  { ring with entry := Function.update ring.entry (place number size) none }

/-- Empty the places from the start to the finish; if the finish seems to lie
before the start, so many numbers are added to it. -/
def removeEntries (turn start finish : ℤ) : SequenceRing ν α size :=
  let finish := if finish < start then finish + turn else finish
  if finish - start < size then
    { ring with
      entry := (List.range (finish - start + 1).toNat).foldl
        (fun entry (step : ℕ) => Function.update entry (place (start + step) size) none)
        ring.entry }
  else { ring with entry := fun _ => none }

/-- Put the data of a number in its place. -/
def put (data : α) : SequenceRing ν α size :=
  { ring with entry := Function.update ring.entry (place number size) (some (number, data)) }

/-- Whether the number moves the ring on. -/
def isNewer : Bool :=
  greaterThan (add number 1) ring.sequence

/-- Whether the number lies before the window. -/
def isStale : Bool :=
  lessThan number (add ring.sequence (-size))

/-- Move the ring on to a newer number. -/
def advance (turn : ℤ) : SequenceRing ν α size :=
  if ring.isNewer number then
    { ring.removeEntries turn (toInt ring.sequence) (toInt number) with sequence := add number 1 }
  else ring

/-- Put a number in, unless it is stale and not newer. -/
def insert (turn : ℤ) (data : α) : Option (SequenceRing ν α size) :=
  if ring.isNewer number then some ((ring.advance number turn).put number data)
  else if ring.isStale number then none
  else some (ring.put number data)

/-- Put a number in, unless it is stale. -/
def insertUnlessStale (turn : ℤ) (data : α) : Option (SequenceRing ν α size) :=
  if ring.isStale number then none
  else some ((ring.advance number turn).put number data)

/-- Change the data of a number, if there are any. -/
def modify (change : α → α) : SequenceRing ν α size :=
  match ring.find number with
  | some data => ring.put number (change data)
  | none => ring

variable {ring number}

theorem find_eq_some_iff {data : α} :
    ring.find number = some data ↔ ring.entry (place number size) = some (number, data) := by
  rw [find]
  split
  · next other found hentry =>
      rw [hentry]
      split
      · next heq =>
          subst heq
          simp
      · next hne => simp [hne]
  · next hentry => simp [hentry]

@[simp]
theorem find_put_self (data : α) : (ring.put number data).find number = some data := by
  rw [find_eq_some_iff]
  exact Function.update_self _ _ _

theorem find_empty : (empty : SequenceRing ν α size).find number = none := rfl

end Operations

/-! ## The window

In the reading with integers. -/

section Window

variable {α : Type*} {size : ℕ} {ring : SequenceRing ℤ α size} {number other : ℤ} {data : α}
  {turn : ℤ}

/-- A number of the window. -/
def InWindow (ring : SequenceRing ℤ α size) (number : ℤ) : Prop :=
  number < ring.sequence ∧ ring.sequence ≤ number + size

/-- Every number in the ring is of the window, and in its place. -/
def Windowed (ring : SequenceRing ℤ α size) : Prop :=
  ∀ ⦃index number data⦄, ring.entry index = some (number, data) →
    place number size = index ∧ ring.InWindow number

theorem windowed_empty : (empty : SequenceRing ℤ α size).Windowed :=
  fun _ _ _ h => by cases h

theorem Windowed.inWindow (h : ring.Windowed) (hfind : ring.find number = some data) :
    ring.InWindow number :=
  (h (find_eq_some_iff.mp hfind)).2

theorem Windowed.find_eq_none (h : ring.Windowed) (hout : ¬ring.InWindow number) :
    ring.find number = none := by
  by_contra hsome
  obtain ⟨data, hfind⟩ := Option.ne_none_iff_exists'.mp hsome
  exact hout (h.inWindow hfind)

/-- Two numbers of the window have places of their own. -/
theorem InWindow.eq_of_place_eq (h : ring.InWindow number) (hother : ring.InWindow other)
    (hplace : place number size = place other size) : number = other := by
  obtain ⟨hlt, hle⟩ := h
  obtain ⟨hotherLt, hotherLe⟩ := hother
  exact SequenceNumber.eq_of_place_eq hplace (by omega) (by omega)

/-- The place of the next number is free if and only if the window does not
reach back a whole turn of the ring. -/
theorem Windowed.available_sequence_iff (h : ring.Windowed) (hsize : 0 < size) :
    ring.available ring.sequence = true ↔ ring.find (ring.sequence - size) = none := by
  have hplace : place (ring.sequence - size) size = place ring.sequence size := by
    rw [← place_add_size, Int.sub_add_cancel]
  rw [available, Option.isNone_iff_eq_none]
  constructor
  · intro hfree
    rw [find, hplace, hfree]
  · intro hnone
    by_contra hsome
    obtain ⟨⟨taken, data⟩, hentry⟩ := Option.ne_none_iff_exists'.mp hsome
    obtain ⟨htaken, hlt, hle⟩ := h hentry
    have heq : taken = ring.sequence - size :=
      SequenceNumber.eq_of_place_eq (htaken.trans hplace.symm) (by omega) (by omega)
    subst heq
    rw [← hplace] at hentry
    exact Option.some_ne_none _ ((find_eq_some_iff.mpr hentry).symm.trans hnone)

theorem Windowed.put (h : ring.Windowed) (hin : ring.InWindow number) :
    (ring.put number data).Windowed := by
  intro index found foundData hentry
  change Function.update _ _ _ _ = _ at hentry
  rw [Function.update_apply] at hentry
  split at hentry
  · next hindex =>
      obtain ⟨rfl, _⟩ := Prod.mk.inj (Option.some_inj.mp hentry)
      exact ⟨hindex.symm, hin⟩
  · exact h hentry

theorem Windowed.find_put (h : ring.Windowed) (hin : ring.InWindow number) :
    (ring.put number data).find other = if other = number then some data else ring.find other := by
  by_cases heq : other = number
  · rw [if_pos heq, heq, find_put_self]
  · rw [if_neg heq]
    by_cases hplace : place other size = place number size
    · have hnone : ring.find other = none := by
        by_contra hsome
        obtain ⟨otherData, hfind⟩ := Option.ne_none_iff_exists'.mp hsome
        exact heq ((h.inWindow hfind).eq_of_place_eq hin hplace)
      rw [hnone, find, hplace]
      simp [SequenceRing.put, Ne.symm heq]
    · simp only [find, SequenceRing.put, Function.update_of_ne hplace]

theorem Windowed.remove (h : ring.Windowed) : (ring.remove number).Windowed := by
  intro index found foundData hentry
  change Function.update _ _ _ _ = _ at hentry
  rw [Function.update_apply] at hentry
  split at hentry
  · cases hentry
  · exact h hentry

theorem Windowed.find_remove (h : ring.Windowed) (hin : ring.InWindow number) :
    (ring.remove number).find other = if other = number then none else ring.find other := by
  by_cases hplace : place other size = place number size
  · have hnone : (ring.remove number).find other = none := by
      rw [find, hplace]
      simp [SequenceRing.remove]
    rw [hnone]
    split
    · rfl
    · next hne =>
        symm
        by_contra hsome
        obtain ⟨otherData, hfind⟩ := Option.ne_none_iff_exists'.mp hsome
        exact hne ((h.inWindow hfind).eq_of_place_eq hin hplace)
  · rw [if_neg (fun heq : other = number => hplace (congrArg (place · size) heq))]
    simp only [find, SequenceRing.remove, Function.update_of_ne hplace]

/-- What is there after a removal was there before. -/
theorem find_of_find_remove (h : (ring.remove number).find other = some data) :
    ring.find other = some data := by
  rw [find_eq_some_iff] at h ⊢
  change Function.update _ _ _ _ = _ at h
  rw [Function.update_apply] at h
  split at h
  · cases h
  · exact h

theorem Windowed.modify (h : ring.Windowed) {change : α → α} :
    (ring.modify number change).Windowed := by
  rw [SequenceRing.modify]
  split
  · next hfind => exact h.put (h.inWindow hfind)
  · exact h

theorem Windowed.find_modify (h : ring.Windowed) {change : α → α} :
    (ring.modify number change).find other =
      if other = number then (ring.find other).map change else ring.find other := by
  rw [SequenceRing.modify]
  split
  · next data hfind =>
      rw [h.find_put (h.inWindow hfind)]
      split
      · next heq => rw [heq, hfind, Option.map_some]
      · rfl
  · next hfind =>
      split
      · next heq => rw [heq, hfind, Option.map_none]
      · rfl

@[simp]
theorem sequence_modify {change : α → α} :
    (ring.modify number change).sequence = ring.sequence := by
  rw [SequenceRing.modify]
  split <;> rfl

theorem isNewer_iff : ring.isNewer number = true ↔ ring.sequence ≤ number := by
  simp only [isNewer, add_count, greaterThan_count, decide_eq_true_eq]
  omega

theorem isStale_iff : ring.isStale number = true ↔ number + size < ring.sequence := by
  simp only [isStale, add_count, lessThan_count, decide_eq_true_eq]
  omega

theorem foldl_update_none {β ι : Type*} (cell : ι → ℕ) (steps : List ι) (entry : ℕ → Option β)
    (index : ℕ) :
    steps.foldl (fun entry step => Function.update entry (cell step) none) entry index =
      if ∃ step ∈ steps, cell step = index then none else entry index := by
  induction steps generalizing entry with
  | nil => simp
  | cons step steps ih =>
      rw [List.foldl_cons, ih, Function.update_apply]
      simp only [List.mem_cons, exists_eq_or_imp, eq_comm (a := index)]
      by_cases hcell : cell step = index <;> simp [hcell]

/-- A whole turn of the ring visits every place. -/
theorem exists_place_eq {start last : ℤ} {index : ℕ} (hindex : index < size)
    (hlast : start + size ≤ last + 1) :
    ∃ count, start ≤ count ∧ count ≤ last ∧ place count size = index := by
  have hpos : (0 : ℤ) < size := by omega
  have hnonneg := Int.emod_nonneg (index - start) hpos.ne'
  have hlt := Int.emod_lt_of_pos (index - start) hpos
  refine ⟨start + (index - start) % size, by omega, by omega, ?_⟩
  rw [place, toInt_count, Int.add_emod_emod, add_sub_cancel,
    Int.emod_eq_of_lt (by omega) (by omega),
    Int.toNat_natCast]

open scoped Classical in
/-- In either reading, the places from the start to the last number are empty
afterwards, and the others as they were. -/
theorem entry_removeEntries {ν : Type} {cleared : SequenceRing ν α size} {start finish last : ℤ}
    (hempty : ∀ index, size ≤ index → cleared.entry index = none)
    (hlast : (if finish < start then finish + turn else finish) = last) (index : ℕ) :
    (cleared.removeEntries turn start finish).entry index =
      if ∃ count, start ≤ count ∧ count ≤ last ∧ place count size = index then none
      else cleared.entry index := by
  simp only [removeEntries, hlast]
  split
  · refine (foldl_update_none _ _ _ _).trans (if_congr ⟨?_, ?_⟩ rfl rfl)
    · rintro ⟨step, hstep, hplace⟩
      rw [List.mem_range] at hstep
      exact ⟨start + step, by omega, by omega, hplace⟩
    · rintro ⟨count, hstart, hcount, hplace⟩
      refine ⟨(count - start).toNat, List.mem_range.mpr (by omega), ?_⟩
      rwa [Int.toNat_of_nonneg (by omega), add_sub_cancel]
  · next hlong =>
      have hturn : start + size ≤ last + 1 := by omega
      by_cases hindex : index < size
      · rw [if_pos (exists_place_eq hindex hturn)]
      · rw [hempty index (not_lt.mp hindex), ite_self]

theorem Windowed.entry_eq_none (h : ring.Windowed) (hsize : 0 < size) {index : ℕ}
    (hindex : size ≤ index) : ring.entry index = none := by
  by_contra hsome
  obtain ⟨⟨number, data⟩, hentry⟩ := Option.ne_none_iff_exists'.mp hsome
  have hlt := place_lt hsize number
  rw [(h hentry).1] at hlt
  omega

open scoped Classical in
/-- Afterwards the window ends after the newer number. -/
theorem Windowed.entry_advance (h : ring.Windowed) (hsize : 0 < size) (index : ℕ) :
    (ring.advance number turn).entry index =
      if ∃ count, ring.sequence ≤ count ∧ count ≤ number ∧ place count size = index then none
      else ring.entry index := by
  rw [advance]
  split
  · next hnewer =>
      have hle := isNewer_iff.mp hnewer
      exact entry_removeEntries (fun _ => h.entry_eq_none hsize) (if_neg (not_lt.mpr hle)) index
  · next hold =>
      have hlt := mt isNewer_iff.mpr hold
      rw [if_neg]
      rintro ⟨count, hstart, hcount, _⟩
      omega

theorem sequence_advance :
    (ring.advance number turn).sequence = max ring.sequence (number + 1) := by
  rw [advance]
  split
  · next hnewer =>
      have hle := isNewer_iff.mp hnewer
      show number + 1 = max ring.sequence (number + 1)
      omega
  · next hold =>
      have hlt := mt isNewer_iff.mpr hold
      omega

theorem Windowed.advance (h : ring.Windowed) (hsize : 0 < size) (number turn : ℤ) :
    (ring.advance number turn).Windowed := by
  intro index found data hentry
  rw [h.entry_advance hsize] at hentry
  split at hentry
  · cases hentry
  · next hkept =>
      obtain ⟨hplace, hlt, hle⟩ := h hentry
      refine ⟨hplace, ?_, ?_⟩
      · rw [sequence_advance]
        exact lt_max_of_lt_left hlt
      · rw [sequence_advance]
        -- a number that falls out of the window shares its place with a cleared one
        by_contra hout
        exact hkept ⟨found + size, hle, by omega, (place_add_size found).trans hplace⟩

/-- Nothing else leaves the ring than what the window leaves behind. -/
theorem Windowed.find_advance (h : ring.Windowed) (hsize : 0 < size) :
    (ring.advance number turn).find other =
      if max ring.sequence (number + 1) ≤ other + size then ring.find other else none := by
  have hafter := h.advance hsize number turn
  split
  · next hin =>
      by_cases hlt : other < ring.sequence
      · have hkept : ¬∃ count, ring.sequence ≤ count ∧ count ≤ number ∧
            place count size = place other size := by
          rintro ⟨count, hstart, hcount, hplace⟩
          have heq := SequenceNumber.eq_of_place_eq hplace (by omega) (by omega)
          omega
        rw [find, find, h.entry_advance hsize, if_neg hkept]
      · rw [h.find_eq_none fun hinside => hlt hinside.1]
        by_contra hsome
        obtain ⟨data, hfind⟩ := Option.ne_none_iff_exists'.mp hsome
        have hentry := find_eq_some_iff.mp hfind
        rw [h.entry_advance hsize] at hentry
        split at hentry
        · cases hentry
        · exact hlt (h hentry).2.1
  · next hout =>
      apply hafter.find_eq_none
      rintro ⟨_, hle⟩
      rw [sequence_advance] at hle
      exact hout hle

theorem insert_eq : ring.insert number turn data =
    if number + size < ring.sequence then none
    else some ((ring.advance number turn).put number data) := by
  rw [insert]
  split
  · next hnewer =>
      have hle := isNewer_iff.mp hnewer
      rw [if_neg (by omega)]
  · next hold =>
      rw [advance, if_neg hold]
      exact if_congr isStale_iff rfl rfl

/-- What goes in, and what the window leaves behind. -/
theorem Windowed.exists_insert (h : ring.Windowed) (hsize : 0 < size) (turn : ℤ) (data : α)
    (hfresh : ring.sequence ≤ number + size) :
    ∃ after, ring.insert number turn data = some after ∧ after.Windowed ∧
      after.sequence = max ring.sequence (number + 1) ∧
      ∀ other, after.find other =
        if other = number then some data
        else if max ring.sequence (number + 1) ≤ other + size then ring.find other else none := by
  have hadvanced := h.advance hsize number turn
  have hin : (ring.advance number turn).InWindow number := by
    rw [InWindow, sequence_advance]
    omega
  refine ⟨(ring.advance number turn).put number data, ?_, hadvanced.put hin, sequence_advance,
    fun other => ?_⟩
  · rw [insert_eq, if_neg (not_lt.mpr hfresh)]
  · rw [hadvanced.find_put hin, h.find_advance hsize]

theorem insertUnlessStale_eq_insert :
    ring.insertUnlessStale number turn data = ring.insert number turn data := by
  rw [insert_eq]
  exact if_congr isStale_iff rfl rfl

end Window

section Each

variable {ν : Type} {α : Type*} {size : ℕ} {ring : SequenceRing ν α size}
  {property : α → Prop} {number : ν} {data : α}

/-- All data in the ring have a property. -/
def Each (property : α → Prop) (ring : SequenceRing ν α size) : Prop :=
  ∀ ⦃index number data⦄, ring.entry index = some (number, data) → property data

theorem Each.removeEntries (h : ring.Each property) (turn start finish : ℤ) :
    (ring.removeEntries turn start finish).Each property := by
  rw [SequenceRing.removeEntries]
  generalize (if finish < start then finish + turn else finish) = last
  by_cases hlong : last - start < size
  · rw [if_pos hlong]
    intro index found data hentry
    dsimp only at hentry
    rw [foldl_update_none (fun step : ℕ => place (start + step) size)] at hentry
    split at hentry
    · cases hentry
    · exact h hentry
  · rw [if_neg hlong]
    intro index found data hentry
    cases hentry

variable [SequenceNumber ν]

theorem each_empty : (empty : SequenceRing ν α size).Each property :=
  fun _ _ _ h => by cases h

theorem Each.find [DecidableEq ν] (h : ring.Each property) (hfind : ring.find number = some data) :
    property data :=
  h (find_eq_some_iff.mp hfind)

theorem Each.put (h : ring.Each property) (hdata : property data) :
    (ring.put number data).Each property := by
  intro index found foundData hentry
  change Function.update _ _ _ _ = _ at hentry
  rw [Function.update_apply] at hentry
  split at hentry
  · obtain ⟨_, rfl⟩ := Prod.mk.inj (Option.some_inj.mp hentry)
    exact hdata
  · exact h hentry

theorem Each.remove (h : ring.Each property) : (ring.remove number).Each property := by
  intro index found data hentry
  change Function.update _ _ _ _ = _ at hentry
  rw [Function.update_apply] at hentry
  split at hentry
  · cases hentry
  · exact h hentry

theorem Each.advance (h : ring.Each property) (number : ν) (turn : ℤ) :
    (ring.advance number turn).Each property := by
  rw [SequenceRing.advance]
  split
  · exact h.removeEntries turn _ _
  · exact h

theorem Each.of_insert (h : ring.Each property) (hdata : property data) {turn : ℤ}
    {after : SequenceRing ν α size} (hinsert : ring.insert number turn data = some after) :
    after.Each property := by
  rw [SequenceRing.insert] at hinsert
  split at hinsert
  · obtain rfl := Option.some_inj.mp hinsert
    exact (h.advance number turn).put hdata
  · split at hinsert
    · cases hinsert
    · obtain rfl := Option.some_inj.mp hinsert
      exact h.put hdata

theorem Each.modify [DecidableEq ν] (h : ring.Each property) {change : α → α}
    (hchange : ∀ data, property data → property (change data)) :
    (ring.modify number change).Each property := by
  rw [SequenceRing.modify]
  split
  · next hfind => exact h.put (hchange _ (h.find hfind))
  · exact h

end Each

/-! ## Numbers of sixteen bits

The ring of the program is the image of the ring with integers. The operations
commute with taking the image, given that the number is near enough to the
window. -/

section Wrapped

variable {α β : Type*} {size : ℕ}

/-- The image of a ring, with the data changed as well. -/
def wrapped (image : α → β) (ring : SequenceRing ℤ α size) : SequenceRing UInt16 β size where
  sequence := wrap ring.sequence
  entry index := (ring.entry index).map (Prod.map wrap image)

variable {image : α → β} {ring : SequenceRing ℤ α size} {number turn : ℤ} {data : α}

@[simp]
theorem sequence_wrapped : (ring.wrapped image).sequence = wrap ring.sequence := rfl

@[simp]
theorem entry_wrapped (index : ℕ) :
    (ring.wrapped image).entry index = (ring.entry index).map (Prod.map wrap image) := rfl

/-- The number is less than a whole turn away from every number of the window. -/
def WithinTurn (ring : SequenceRing ℤ α size) (number : ℤ) : Prop :=
  ring.sequence ≤ number + 65536 ∧ number + size < ring.sequence + 65536

theorem Windowed.find_wrapped (h : ring.Windowed) (hsize : size ∣ 65536)
    (hnear : ring.WithinTurn number) :
    (ring.wrapped image).find (wrap number) = (ring.find number).map image := by
  obtain ⟨hlate, hearly⟩ := hnear
  rw [find, find, place_wrap hsize]
  simp only [wrapped]
  cases hentry : ring.entry (place number size) with
  | none => rfl
  | some found =>
      obtain ⟨other, data⟩ := found
      obtain ⟨_, hlt, hle⟩ := h hentry
      have hiff : wrap other = wrap number ↔ other = number :=
        ⟨fun heq => eq_of_wrap_eq_wrap heq (by omega) (by omega), fun heq => congrArg wrap heq⟩
      simp only [Option.map_some, Prod.map_apply, hiff]
      split <;> rfl

/-- What the ring holds is of the window, and never too far away to be found. -/
theorem Windowed.find_wrapped_eq_some (h : ring.Windowed) (hsize : size ∣ 65536)
    (hfind : ring.find number = some data) :
    (ring.wrapped image).find (wrap number) = some (image data) := by
  obtain ⟨hlt, hle⟩ := h.inWindow hfind
  have hsmall : size ≤ 65536 := Nat.le_of_dvd (by decide) hsize
  rw [h.find_wrapped hsize ⟨by omega, by omega⟩, hfind, Option.map_some]

theorem available_wrapped (hsize : size ∣ 65536) :
    (ring.wrapped image).available (wrap number) = ring.available number := by
  simp [available, wrapped, place_wrap hsize]

theorem remove_wrapped (hsize : size ∣ 65536) :
    (ring.wrapped image).remove (wrap number) = (ring.remove number).wrapped image := by
  ext1
  · rfl
  · funext index
    simp only [remove, wrapped, place_wrap hsize, Function.update_apply]
    split <;> rfl

theorem put_wrapped (hsize : size ∣ 65536) :
    (ring.wrapped image).put (wrap number) (image data) =
      (ring.put number data).wrapped image := by
  ext1
  · rfl
  · funext index
    simp only [put, wrapped, place_wrap hsize, Function.update_apply]
    split <;> rfl

theorem Windowed.modify_wrapped (h : ring.Windowed) (hsize : size ∣ 65536)
    (hnear : ring.WithinTurn number) {change : α → α} {changeImage : β → β}
    (hchange : ∀ data, image (change data) = changeImage (image data)) :
    (ring.wrapped image).modify (wrap number) changeImage =
      (ring.modify number change).wrapped image := by
  rw [SequenceRing.modify, h.find_wrapped hsize hnear, SequenceRing.modify]
  cases ring.find number with
  | none => rfl
  | some data =>
      simp only [Option.map_some]
      rw [← hchange, put_wrapped hsize]

theorem isNewer_wrapped (hlate : ring.sequence ≤ number + 32768)
    (hearly : number + 1 < ring.sequence + 32768) :
    (ring.wrapped image).isNewer (wrap number) = ring.isNewer number := by
  rw [isNewer, isNewer, add_wrap, add_count]
  exact greaterThan_wrap (by omega) (by omega)

theorem isStale_wrapped (hlate : ring.sequence < number + size + 32768)
    (hearly : number + size < ring.sequence + 32768) :
    (ring.wrapped image).isStale (wrap number) = ring.isStale number := by
  simp only [isStale, sequence_wrapped, add_wrap, add_count]
  exact lessThan_wrap (by omega) (by omega)

/-- The places between two counts are the places between their numbers. If the
turn is taken for one number short, the last place is left out. -/
theorem exists_place_wrapped_iff {start last : ℤ} {index : ℕ} (hsize : size ∣ 65536)
    (hle : start ≤ last) (hlt : last < start + 65536)
    (hturn : turn = 65536 ∨ turn = 65535 ∧ place last size ≠ index) :
    (∃ count, start % 65536 ≤ count ∧
        count ≤ (if last % 65536 < start % 65536 then last % 65536 + turn else last % 65536) ∧
        place count size = index) ↔
      ∃ count, start ≤ count ∧ count ≤ last ∧ place count size = index := by
  obtain ⟨turns, hturns⟩ : ∃ turns, start = start % 65536 + 65536 * turns :=
    ⟨start / 65536, (Int.emod_add_mul_ediv start 65536).symm⟩
  have hshift : ∀ count, place (count + 65536 * turns) size = place count size := by
    obtain ⟨rings, hrings⟩ := hsize
    intro count
    have hproduct : (65536 : ℤ) * turns = size * (rings * turns) := by
      rw [← mul_assoc]
      exact_mod_cast congrArg (fun n : ℕ => (n : ℤ) * turns) hrings
    rw [place, place, toInt_count, toInt_count, hproduct, Int.add_mul_emod_self_left]
  constructor
  · rintro ⟨count, hstart, hlast, hplace⟩
    refine ⟨count + 65536 * turns, by omega, ?_, (hshift count).trans hplace⟩
    split at hlast <;> omega
  · rintro ⟨count, hstart, hlast, hplace⟩
    have hback : place (count - 65536 * turns) size = index := by
      rw [← hshift, sub_add_cancel, hplace]
    refine ⟨count - 65536 * turns, by omega, ?_, hback⟩
    obtain hfull | ⟨hshort, hne⟩ := hturn
    · split <;> omega
    · have hbefore : count ≠ last := fun heq => hne (heq ▸ hplace)
      split <;> omega

/-- Up to the place of the number itself, the ring of the program moves on as
the ring with integers does. -/
theorem Windowed.entry_advance_wrapped (h : ring.Windowed) (hsize : size ∣ 65536)
    (hlate : ring.sequence ≤ number + 32768) (hearly : number + 1 < ring.sequence + 32768)
    {index : ℕ} (hturn : turn = 65536 ∨ turn = 65535 ∧ place number size ≠ index) :
    ((ring.wrapped image).advance (wrap number) turn).entry index =
      ((ring.advance number turn).wrapped image).entry index := by
  have hpos : 0 < size := Nat.pos_of_dvd_of_pos hsize (by decide)
  have hempty : ∀ index, size ≤ index → (ring.wrapped image).entry index = none := by
    intro index hindex
    simp [wrapped, h.entry_eq_none hpos hindex]
  rw [entry_wrapped, h.entry_advance hpos, SequenceRing.advance, isNewer_wrapped hlate hearly]
  split
  · next hnewer =>
      have hle := isNewer_iff.mp hnewer
      have hiff := exists_place_wrapped_iff hsize hle (by omega) hturn
      rw [← toInt_wrap, ← toInt_wrap number] at hiff
      refine (entry_removeEntries hempty rfl index).trans ?_
      by_cases hcleared : ∃ count, ring.sequence ≤ count ∧ count ≤ number ∧ place count size = index
      · rw [if_pos hcleared]
        exact if_pos (hiff.mpr hcleared)
      · rw [if_neg hcleared]
        exact if_neg (mt hiff.mp hcleared)
  · next hold =>
      have hlt := mt isNewer_iff.mpr hold
      have hkept : ¬∃ count, ring.sequence ≤ count ∧ count ≤ number ∧ place count size = index := by
        rintro ⟨count, hstart, hcount, _⟩
        omega
      rw [if_neg hkept]
      rfl

theorem sequence_advance_wrapped (hlate : ring.sequence ≤ number + 32768)
    (hearly : number + 1 < ring.sequence + 32768) :
    ((ring.wrapped image).advance (wrap number) turn).sequence =
      ((ring.advance number turn).wrapped image).sequence := by
  rw [advance, isNewer_wrapped hlate hearly, advance]
  split
  · exact add_wrap number 1
  · rfl

theorem Windowed.advance_wrapped (h : ring.Windowed) (hsize : size ∣ 65536)
    (hlate : ring.sequence ≤ number + 32768) (hearly : number + 1 < ring.sequence + 32768) :
    (ring.wrapped image).advance (wrap number) 65536 =
      (ring.advance number 65536).wrapped image := by
  ext1
  · exact sequence_advance_wrapped hlate hearly
  · funext index
    exact h.entry_advance_wrapped hsize hlate hearly (.inl rfl)

/-- A turn that is one number short leaves the place of the new number as it
was, which is then overwritten. -/
theorem Windowed.put_advance_wrapped (h : ring.Windowed) (hsize : size ∣ 65536)
    (hlate : ring.sequence ≤ number + 32768) (hearly : number + 1 < ring.sequence + 32768)
    (hturn : turn = 65536 ∨ turn = 65535) :
    ((ring.wrapped image).advance (wrap number) turn).put (wrap number) (image data) =
      ((ring.advance number turn).put number data).wrapped image := by
  rw [← put_wrapped hsize]
  ext1
  · exact sequence_advance_wrapped hlate hearly
  · funext index
    simp only [SequenceRing.put, place_wrap hsize, Function.update_apply]
    split
    · rfl
    · next hne =>
        have hother := hturn.imp_right fun hshort => And.intro hshort (Ne.symm hne)
        exact h.entry_advance_wrapped hsize hlate hearly hother

theorem Windowed.insert_wrapped (h : ring.Windowed) (hsize : size ∣ 65536)
    (hsmall : size ≤ 32768) (hlate : ring.sequence ≤ number + 32768)
    (hearly : number + 1 < ring.sequence + 32768) (hturn : turn = 65536 ∨ turn = 65535) :
    (ring.wrapped image).insert (wrap number) turn (image data) =
      (ring.insert number turn data).map (wrapped image) := by
  have hpos : 0 < size := Nat.pos_of_dvd_of_pos hsize (by decide)
  have hadvance : ((ring.wrapped image).advance (wrap number) turn).put (wrap number) (image data) =
      ((ring.advance number turn).put number data).wrapped image :=
    h.put_advance_wrapped hsize hlate hearly hturn
  rw [insert, isNewer_wrapped hlate hearly, insert]
  split
  · exact congrArg some hadvance
  · next hold =>
      have hlt := mt isNewer_iff.mpr hold
      rw [isStale_wrapped (by omega) (by omega), put_wrapped hsize]
      split <;> rfl

theorem Windowed.insertUnlessStale_wrapped (h : ring.Windowed) (hsize : size ∣ 65536)
    (hsmall : size ≤ 32768) (hlate : ring.sequence < number + size + 32768)
    (hearly : number + size < ring.sequence + 32768) (hturn : turn = 65536 ∨ turn = 65535) :
    (ring.wrapped image).insertUnlessStale (wrap number) turn (image data) =
      (ring.insertUnlessStale number turn data).map (wrapped image) := by
  have hpos : 0 < size := Nat.pos_of_dvd_of_pos hsize (by decide)
  rw [insertUnlessStale, isStale_wrapped hlate hearly, insertUnlessStale]
  split
  · rfl
  · next hfresh =>
      have hle := mt isStale_iff.mpr hfresh
      exact congrArg some (h.put_advance_wrapped hsize (by omega) (by omega) hturn)

end Wrapped

end SequenceRing

end LibBench.Math
