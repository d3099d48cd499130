/-
# Walking along offered points under a local test

A walker stands at a point and is offered a list of further points. It steps to
an offered point when that point is near the one it stands on, and ignores the
offer otherwise. The test is local: it compares with the point just reached,
not with the start, so the walk can end far from where it began.

Two facts carry the uses of this. A list of offers that is itself a chain of
near steps (`LeadsTo`) is followed to its end and nothing is ignored; and the
end of any walk is described without running it, by the relation `HopsTo`, which
is functional.
-/

import Mathlib.Data.List.Chain

namespace LibBench.Math

universe u

variable {α : Type u} (near : α → α → Prop) [DecidableRel near]

/-- Step to the offered point when it is near, stay otherwise. -/
def stepTo (current offered : α) : α :=
  if near current offered then offered else current

/-- The offers that the walker ignores, in order. -/
def ignored : α → List α → List α
  | _, [] => []
  | current, offered :: rest =>
      if near current offered then ignored offered rest
      else offered :: ignored current rest

/-- Where a list of offers leads, said without the walk: skip the offers that
are not near, hop to the first that is, and go on from there; the end is the
point from which nothing that is left is near. -/
inductive HopsTo : α → List α → α → Prop
  | rest {current : α} {offers : List α}
      (far : ∀ offered ∈ offers, ¬ near current offered) : HopsTo current offers current
  | hop {current hopped target : α} {skipped offers : List α}
      (far : ∀ offered ∈ skipped, ¬ near current offered)
      (close : near current hopped) (onward : HopsTo hopped offers target) :
      HopsTo current (skipped ++ hopped :: offers) target

variable {near}

theorem stepTo_of_near {current offered : α} (h : near current offered) :
    stepTo near current offered = offered := if_pos h

theorem stepTo_of_not_near {current offered : α} (h : ¬ near current offered) :
    stepTo near current offered = current := if_neg h

theorem foldl_stepTo_of_far {current : α} {offers : List α}
    (far : ∀ offered ∈ offers, ¬ near current offered) :
    offers.foldl (stepTo near) current = current := by
  induction offers with
  | nil => rfl
  | cons offered rest ih =>
      rw [List.foldl_cons, stepTo_of_not_near (far offered (by simp))]
      exact ih fun other hother => far other (by simp [hother])

omit [DecidableRel near] in
theorem HopsTo.skip {current offered target : α} {offers : List α}
    (far : ¬ near current offered) (onward : HopsTo near current offers target) :
    HopsTo near current (offered :: offers) target := by
  cases onward with
  | rest hfar =>
      refine .rest fun other hother => ?_
      rcases List.mem_cons.mp hother with rfl | hmem
      · exact far
      · exact hfar other hmem
  | @hop _ hopped _ skipped rest hfar close onward =>
      have hskipped : ∀ other ∈ offered :: skipped, ¬ near current other := by
        intro other hother
        rcases List.mem_cons.mp hother with rfl | hmem
        · exact far
        · exact hfar other hmem
      have hhop := HopsTo.hop hskipped close onward
      exact hhop

/-- The relation is the graph of the walk: every list of offers leads to
exactly the point where the walk ends. -/
theorem hopsTo_iff_foldl_stepTo {current target : α} {offers : List α} :
    HopsTo near current offers target ↔ offers.foldl (stepTo near) current = target := by
  constructor
  · intro h
    induction h with
    | rest far => exact foldl_stepTo_of_far far
    | hop far close onward ih =>
        rw [List.foldl_append, foldl_stepTo_of_far far, List.foldl_cons,
          stepTo_of_near close, ih]
  · rintro rfl
    induction offers generalizing current with
    | nil => exact .rest (by simp)
    | cons offered rest ih =>
        rw [List.foldl_cons]
        by_cases h : near current offered
        · rw [stepTo_of_near h]
          have hnone : ∀ other ∈ ([] : List α), ¬ near current other := by simp
          have hhop := HopsTo.hop hnone h ih
          exact hhop
        · rw [stepTo_of_not_near h]
          exact HopsTo.skip h ih

variable (near) in
/-- Wherever the offers lead, it is near the start. -/
def HopsStayNear (start : α) (offers : List α) : Prop :=
  ∀ target, HopsTo near start offers target → near start target

theorem hopsStayNear_iff {start : α} {offers : List α} :
    HopsStayNear near start offers ↔ near start (offers.foldl (stepTo near) start) := by
  simp [HopsStayNear, hopsTo_iff_foldl_stepTo]

/-- One offer leads at most one step away. -/
theorem hopsStayNear_of_length_le_one [Std.Refl near] {start : α} {offers : List α}
    (h : offers.length ≤ 1) : HopsStayNear near start offers := by
  rw [hopsStayNear_iff]
  match offers, h with
  | [], _ => exact Std.Refl.refl start
  | [offered], _ =>
      rw [List.foldl_cons, List.foldl_nil, stepTo]
      split
      · next hnear => exact hnear
      · exact Std.Refl.refl start

variable (near) in
/-- The path is a chain of near steps from one point to another. -/
def LeadsTo : α → List α → α → Prop
  | start, [], target => start = target
  | start, next :: rest, target => near start next ∧ LeadsTo next rest target

omit [DecidableRel near] in
theorem leadsTo_append {start target : α} {first second : List α} :
    LeadsTo near start (first ++ second) target ↔
      ∃ middle, LeadsTo near start first middle ∧ LeadsTo near middle second target := by
  induction first generalizing start with
  | nil => simp [LeadsTo]
  | cons next rest ih => simp only [List.cons_append, LeadsTo, ih, and_assoc, exists_and_left]

omit [DecidableRel near] in
/-- The relation in the terms of lists: the points form a chain, and the target
is the last of them. -/
theorem leadsTo_iff_isChain {start target : α} {path : List α} :
    LeadsTo near start path target ↔
      List.IsChain near (start :: path) ∧ (start :: path).getLast? = some target := by
  induction path generalizing start with
  | nil => simp [LeadsTo]
  | cons next rest ih =>
      rw [LeadsTo, ih, List.isChain_cons_cons, List.getLast?_cons_cons, and_assoc]

/-- A chain of near steps is followed to its end. -/
theorem LeadsTo.foldl_stepTo {start target : α} {path : List α}
    (h : LeadsTo near start path target) : path.foldl (stepTo near) start = target := by
  induction path generalizing start with
  | nil => exact h
  | cons next rest ih => rw [List.foldl_cons, stepTo_of_near h.1, ih h.2]

omit [DecidableRel near] in
/-- A chain of near steps ends at its last point. -/
theorem LeadsTo.getLastD_eq {start target : α} {path : List α}
    (h : LeadsTo near start path target) : path.getLastD start = target := by
  have hlast := (leadsTo_iff_isChain.mp h).2
  rwa [List.getLast?_cons, Option.some.injEq, ← List.getLastD_eq_getLast?] at hlast

/-- Along a chain of near steps nothing is ignored. -/
theorem LeadsTo.ignored_eq_nil {start target : α} {path : List α}
    (h : LeadsTo near start path target) : ignored near start path = [] := by
  induction path generalizing start with
  | nil => rfl
  | cons next rest ih => rw [ignored, if_pos h.1, ih h.2]

variable (near) in
/-- Every walk follows a chain of near steps through some of the offers, taken in
their order. -/
theorem exists_leadsTo_foldl_stepTo (start : α) (offers : List α) :
    ∃ path, path.Sublist offers ∧ LeadsTo near start path (offers.foldl (stepTo near) start) := by
  induction offers generalizing start with
  | nil => exact ⟨[], .refl [], rfl⟩
  | cons offered offers ih =>
      rw [List.foldl_cons]
      by_cases h : near start offered
      · rw [stepTo_of_near h]
        obtain ⟨path, hsub, hpath⟩ := ih offered
        exact ⟨offered :: path, hsub.cons_cons offered, h, hpath⟩
      · rw [stepTo_of_not_near h]
        obtain ⟨path, hsub, hpath⟩ := ih start
        exact ⟨path, hsub.cons offered, hpath⟩

omit [DecidableRel near] in
/-- A chain of steps ends at its start or at one of its points. -/
theorem LeadsTo.mem {start target : α} {path : List α} (h : LeadsTo near start path target) :
    target = start ∨ target ∈ path := by
  induction path generalizing start with
  | nil => exact Or.inl h.symm
  | cons next rest ih =>
      rcases ih h.2 with rfl | hmem
      · exact Or.inr List.mem_cons_self
      · exact Or.inr (List.mem_cons_of_mem _ hmem)

end LibBench.Math
