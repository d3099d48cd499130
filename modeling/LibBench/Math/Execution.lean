/-
# Runs of a partial step function

A program that may stop (a null dereference, a loop that has not ended yet) is
a step function into `Except`: from a state and an action it returns the next
state or the reason it does not return. This module runs such a step function
along a list of actions and says once how a property of single steps becomes a
property of whole runs.

A guard relates a state to the action about to be performed there. `StepsMeet`
asks it of every action the run gets to perform, and of no other: actions after
the one that stopped are never looked at. An invariant that only survives
guarded steps is then an invariant of every run whose steps meet the guard.
-/

import Mathlib.Data.List.Basic
import Mathlib.Data.List.Induction

namespace LibBench.Math

universe uσ uα uε

variable {σ : Type uσ} {α : Type uα} {ε : Type uε}

/-- Perform the actions in order; the run ends at the first one that does not
return. -/
def run (step : σ → α → Except ε σ) : σ → List α → Except ε σ
  | state, [] => .ok state
  | state, action :: actions =>
      match step state action with
      | .ok next => run step next actions
      | .error stop => .error stop

/-- Every action the run gets to perform meets the guard at the state it is
performed in. -/
def StepsMeet (step : σ → α → Except ε σ) (guard : σ → α → Prop) : σ → List α → Prop
  | _, [] => True
  | state, action :: actions =>
      guard state action ∧
        ∀ next, step state action = .ok next → StepsMeet step guard next actions

variable {step : σ → α → Except ε σ}

-- A guard that is bounded by a list or an option is evaluated on the members;
-- going through a whole type of machine integers would not end.

instance (priority := high) decidableForallMemList {τ : Type*} {property : τ → Prop}
    [DecidablePred property] (list : List τ) : Decidable (∀ member ∈ list, property member) :=
  List.decidableBAll property list

instance (priority := high) decidableForallMemOption {τ : Type*} {property : τ → Prop}
    [DecidablePred property] (option : Option τ) :
    Decidable (∀ member ∈ option, property member) :=
  Option.decidableForallMem option

/-- Along a concrete run the guard can be evaluated. -/
instance StepsMeet.decidable {guard : σ → α → Prop}
    [∀ state action, Decidable (guard state action)] :
    ∀ (start : σ) (actions : List α), Decidable (StepsMeet step guard start actions)
  | _, [] => isTrue trivial
  | state, action :: actions =>
      match hstep : step state action with
      | .ok next =>
          have : Decidable (StepsMeet step guard next actions) := StepsMeet.decidable next actions
          decidable_of_iff (guard state action ∧ StepsMeet step guard next actions)
            (and_congr_right fun _ => by simp [hstep])
      | .error _ =>
          decidable_of_iff (guard state action)
            ⟨fun hguard => ⟨hguard, by simp [hstep]⟩, And.left⟩

/-- Where a concrete run ends can be evaluated. -/
instance decidableReaches {property : σ → Prop} [DecidablePred property] (start : σ)
    (actions : List α) :
    Decidable (∃ target, run step start actions = .ok target ∧ property target) :=
  match hrun : run step start actions with
  | .ok target => decidable_of_iff (property target) (by simp)
  | .error _ => isFalse (by simp)

@[simp]
theorem run_nil (state : σ) : run step state [] = .ok state := rfl

theorem run_cons_eq_ok {start target : σ} {action : α} {actions : List α} :
    run step start (action :: actions) = .ok target ↔
      ∃ next, step start action = .ok next ∧ run step next actions = .ok target := by
  rw [run]
  cases h : step start action with
  | ok next => simp
  | error stop => simp

theorem run_append_eq_ok {first second : List α} {start target : σ} :
    run step start (first ++ second) = .ok target ↔
      ∃ middle, run step start first = .ok middle ∧ run step middle second = .ok target := by
  induction first generalizing start with
  | nil => simp
  | cons action actions ih =>
      simp only [List.cons_append, run_cons_eq_ok, ih]
      constructor
      · rintro ⟨next, hstep, middle, hfirst, hsecond⟩
        exact ⟨middle, ⟨next, hstep, hfirst⟩, hsecond⟩
      · rintro ⟨middle, ⟨next, hstep, hfirst⟩, hsecond⟩
        exact ⟨next, hstep, middle, hfirst, hsecond⟩

theorem run_concat_eq_ok {actions : List α} {action : α} {start target : σ} :
    run step start (actions ++ [action]) = .ok target ↔
      ∃ middle, run step start actions = .ok middle ∧ step middle action = .ok target := by
  rw [run_append_eq_ok]
  refine exists_congr fun middle => and_congr_right fun _ => ?_
  rw [run_cons_eq_ok]
  simp

/-- A run goes on from where its first part has led. -/
theorem run_append_of_ok {first second : List α} {start middle : σ}
    (h : run step start first = .ok middle) :
    run step start (first ++ second) = run step middle second := by
  induction first generalizing start with
  | nil => rw [Except.ok.inj h, List.nil_append]
  | cons action actions ih =>
      obtain ⟨next, hstep, hrest⟩ := run_cons_eq_ok.mp h
      rw [List.cons_append, run, hstep]
      exact ih hrest

/-- It does not get beyond a step that stops. -/
theorem run_append_of_error {first second : List α} {start : σ} {stop : ε}
    (h : run step start first = .error stop) : run step start (first ++ second) = .error stop := by
  induction first generalizing start with
  | nil => cases h
  | cons action actions ih =>
      rw [run] at h
      rw [List.cons_append, run]
      cases hstep : step start action with
      | error other =>
          rw [hstep] at h
          exact h
      | ok next =>
          rw [hstep] at h
          exact ih h

theorem run_map {β : Type*} (action : β → α) (start : σ) (names : List β) :
    run step start (names.map action) =
      run (fun state name => step state (action name)) start names := by
  induction names generalizing start with
  | nil => rfl
  | cons name names ih =>
      rw [List.map_cons, run, run]
      cases step start (action name) with
      | error stop => rfl
      | ok next => exact ih next

/-- A step function that always returns is run by folding. -/
theorem run_eq_foldl (next : σ → α → σ) (start : σ) (actions : List α) :
    run (ε := ε) (fun state action => .ok (next state action)) start actions =
      .ok (actions.foldl next start) := by
  induction actions generalizing start with
  | nil => rfl
  | cons action actions ih =>
      rw [run, List.foldl_cons]
      exact ih _

/-- The guard of a run splits at any point the run reaches. -/
theorem StepsMeet.append {guard : σ → α → Prop} {first second : List α} {start : σ} :
    StepsMeet step guard start (first ++ second) ↔
      StepsMeet step guard start first ∧
        ∀ middle, run step start first = .ok middle → StepsMeet step guard middle second := by
  induction first generalizing start with
  | nil => simp [StepsMeet]
  | cons action actions ih =>
      simp only [List.cons_append, StepsMeet, ih, run_cons_eq_ok]
      constructor
      · rintro ⟨hguard, hrest⟩
        refine ⟨⟨hguard, fun next hstep => (hrest next hstep).1⟩, ?_⟩
        rintro middle ⟨next, hstep, hrun⟩
        exact (hrest next hstep).2 middle hrun
      · rintro ⟨⟨hguard, hfirst⟩, hsecond⟩
        exact ⟨hguard, fun next hstep =>
          ⟨hfirst next hstep, fun middle hrun => hsecond middle ⟨next, hstep, hrun⟩⟩⟩

/-- A guard is met along a run exactly when it is met at every point where the
run is about to perform an action. -/
theorem stepsMeet_iff {guard : σ → α → Prop} {start : σ} {actions : List α} :
    StepsMeet step guard start actions ↔
      ∀ before action state, before ++ [action] <+: actions →
        run step start before = .ok state → guard state action := by
  induction actions generalizing start with
  | nil => simp [StepsMeet]
  | cons action actions ih =>
      simp only [StepsMeet, ih]
      constructor
      · rintro ⟨hguard, hrest⟩ before other state hpre hrun
        cases before with
        | nil =>
            obtain ⟨rfl, _⟩ := List.cons_prefix_cons.mp hpre
            exact Except.ok.inj hrun ▸ hguard
        | cons first before =>
            obtain ⟨rfl, hrestPre⟩ := List.cons_prefix_cons.mp hpre
            obtain ⟨next, hstep, hrestRun⟩ := run_cons_eq_ok.mp hrun
            exact hrest next hstep before other state hrestPre hrestRun
      · intro h
        refine ⟨h [] action start (by simp) rfl, fun next hstep before other state hpre hrun => ?_⟩
        exact h (action :: before) other state
          (List.cons_prefix_cons.mpr ⟨rfl, hpre⟩) (run_cons_eq_ok.mpr ⟨next, hstep, hrun⟩)

theorem StepsMeet.of_isPrefix {guard : σ → α → Prop} {before actions : List α} {start : σ}
    (h : StepsMeet step guard start actions) (hpre : before <+: actions) :
    StepsMeet step guard start before := by
  obtain ⟨rest, rfl⟩ := hpre
  exact (StepsMeet.append.mp h).1

theorem StepsMeet.concat {guard : σ → α → Prop} {actions : List α} {action : α} {start : σ} :
    StepsMeet step guard start (actions ++ [action]) ↔
      StepsMeet step guard start actions ∧
        ∀ state, run step start actions = .ok state → guard state action := by
  rw [StepsMeet.append]
  simp only [StepsMeet, implies_true, and_true]

/-- A condition on the actions alone is met along every run of them. -/
theorem StepsMeet.of_forall {condition : α → Prop} {start : σ} {actions : List α}
    (h : ∀ action ∈ actions, condition action) :
    StepsMeet step (fun _ action => condition action) start actions :=
  stepsMeet_iff.mpr fun _ action _ hpre _ => h action (hpre.subset (by simp))

theorem StepsMeet.and {first second : σ → α → Prop} {start : σ} {actions : List α}
    (hfirst : StepsMeet step first start actions)
    (hsecond : StepsMeet step second start actions) :
    StepsMeet step (fun state action => first state action ∧ second state action) start actions :=
  stepsMeet_iff.mpr fun before action state hpre hrun =>
    ⟨stepsMeet_iff.mp hfirst before action state hpre hrun,
      stepsMeet_iff.mp hsecond before action state hpre hrun⟩

/-- The run rule: what guarded steps preserve holds at the end of every run
whose steps meet the guard. -/
theorem run_invariant {guard : σ → α → Prop} {invariant : σ → Prop}
    (preserved : ∀ state action next, invariant state → guard state action →
      step state action = .ok next → invariant next)
    {start target : σ} {actions : List α} (hstart : invariant start)
    (hmeet : StepsMeet step guard start actions)
    (hrun : run step start actions = .ok target) : invariant target := by
  induction actions generalizing start with
  | nil =>
      simp only [run_nil, Except.ok.injEq] at hrun
      exact hrun ▸ hstart
  | cons action actions ih =>
      obtain ⟨next, hstep, hrest⟩ := run_cons_eq_ok.mp hrun
      exact ih (preserved _ _ _ hstart hmeet.1 hstep) (hmeet.2 next hstep) hrest

/-- Two guards that agree wherever an invariant holds are met along the same
runs. -/
theorem StepsMeet.congr {guard first second : σ → α → Prop} {invariant : σ → Prop}
    (preserved : ∀ state action next, invariant state → guard state action →
      step state action = .ok next → invariant next)
    (agree : ∀ state action, invariant state → (first state action ↔ second state action))
    {start : σ} {actions : List α} (hstart : invariant start)
    (hmeet : StepsMeet step guard start actions) :
    StepsMeet step first start actions ↔ StepsMeet step second start actions := by
  induction actions generalizing start with
  | nil => exact Iff.rfl
  | cons action actions ih =>
      refine and_congr (agree start action hstart) (forall₂_congr fun next hstep => ?_)
      exact ih (preserved _ _ _ hstart hmeet.1 hstep) (hmeet.2 next hstep)

/-- The run rule for steps that need no guard. -/
theorem run_invariant_of_step {invariant : σ → Prop}
    (preserved : ∀ state action next, invariant state →
      step state action = .ok next → invariant next)
    {start target : σ} {actions : List α} (hstart : invariant start)
    (hrun : run step start actions = .ok target) : invariant target := by
  have hmeet : StepsMeet step (fun _ _ => True) start actions :=
    StepsMeet.of_forall fun _ _ => trivial
  exact run_invariant (fun state action next h _ hstep => preserved state action next h hstep)
    hstart hmeet hrun

/-- Steps that return wherever an invariant holds and their guard is met, and preserve
the invariant, make runs that return. -/
theorem StepsMeet.exists_run {guard : σ → α → Prop} {invariant : σ → Prop}
    (total : ∀ state action, invariant state → guard state action →
      ∃ next, step state action = .ok next ∧ invariant next)
    {start : σ} {actions : List α} (h : StepsMeet step guard start actions)
    (hstart : invariant start) :
    ∃ target, run step start actions = .ok target ∧ invariant target := by
  induction actions generalizing start with
  | nil => exact ⟨start, rfl, hstart⟩
  | cons action actions ih =>
      obtain ⟨hfirst, hrest⟩ := h
      obtain ⟨next, hstep, hnext⟩ := total start action hstart hfirst
      obtain ⟨target, hrun, htarget⟩ := ih (hrest next hstep) hnext
      exact ⟨target, run_cons_eq_ok.mpr ⟨next, hstep, hrun⟩, htarget⟩

/-- Steps that return wherever an invariant holds, and preserve it, make runs
that return. -/
theorem exists_run {invariant : σ → Prop}
    (total : ∀ state action, invariant state →
      ∃ next, step state action = .ok next ∧ invariant next)
    {start : σ} (hstart : invariant start) (actions : List α) :
    ∃ target, run step start actions = .ok target ∧ invariant target := by
  have hmeet : StepsMeet step (fun _ _ => True) start actions :=
    StepsMeet.of_forall fun _ _ => trivial
  exact hmeet.exists_run (fun state action h _ => total state action h) hstart

/-- The run rule for what relates the end of a run to the actions that led
there: it has to survive one more action after any part of the run. -/
theorem run_history (invariant : List α → σ → Prop) {start target : σ} {actions : List α}
    (hstart : invariant [] start)
    (preserved : ∀ before action state next, before ++ [action] <+: actions →
      run step start before = .ok state → invariant before state →
      step state action = .ok next → invariant (before ++ [action]) next)
    (hrun : run step start actions = .ok target) : invariant actions target := by
  induction actions using List.reverseRecOn generalizing target with
  | nil => exact Except.ok.inj hrun ▸ hstart
  | append_singleton actions action ih =>
      obtain ⟨middle, hmiddle, hstep⟩ := run_concat_eq_ok.mp hrun
      have hbefore : invariant actions middle :=
        ih (fun before other state next hpre =>
          preserved before other state next (hpre.trans (List.prefix_append _ _))) hmiddle
      exact preserved actions action middle target List.prefix_rfl hmiddle hbefore hstep

/-- A functional simulation lifts from steps to runs: where the abstract
machine is total, its fold over the same actions is the view of the target. -/
theorem run_simulation {τ : Type*} {view : σ → τ} {abstract : τ → α → τ}
    {invariant : σ → Prop}
    (preserved : ∀ state action next, invariant state →
      step state action = .ok next → invariant next)
    (simulated : ∀ state action next, invariant state →
      step state action = .ok next → view next = abstract (view state) action)
    {start target : σ} {actions : List α} (hstart : invariant start)
    (hrun : run step start actions = .ok target) :
    view target = actions.foldl abstract (view start) := by
  induction actions generalizing start with
  | nil =>
      simp only [run_nil, Except.ok.injEq] at hrun
      rw [← hrun, List.foldl_nil]
  | cons action actions ih =>
      obtain ⟨next, hstep, hrest⟩ := run_cons_eq_ok.mp hrun
      rw [List.foldl_cons, ← simulated _ _ _ hstart hstep]
      exact ih (preserved _ _ _ hstart hstep) hrest

/-- The run rule for a machine of which another is the image. The first one can take
every step; where a step meets the guard, the other takes it from the image to the
image. -/
theorem run_image {τ ξ : Type*} {other : τ → α → Except ξ τ} {view : σ → τ}
    {next : σ → α → σ} {guard : σ → α → Prop} {invariant : σ → Prop}
    (preserved : ∀ state action, invariant state → guard state action →
      invariant (next state action))
    (image : ∀ state action, invariant state → guard state action →
      other (view state) action = .ok (view (next state action)))
    {start : σ} {actions : List α} (hstart : invariant start)
    (hmeet : StepsMeet (ε := ε) (fun state action => .ok (next state action)) guard start actions) :
    invariant (actions.foldl next start) ∧
      run other (view start) actions = .ok (view (actions.foldl next start)) := by
  induction actions generalizing start with
  | nil => exact ⟨hstart, rfl⟩
  | cons action actions ih =>
      obtain ⟨hfirst, hrest⟩ := hmeet
      obtain ⟨hinvariant, hrun⟩ := ih (preserved start action hstart hfirst) (hrest _ rfl)
      exact ⟨hinvariant, run_cons_eq_ok.mpr ⟨_, image start action hstart hfirst, hrun⟩⟩

/-! ## Machines in step

Two machines take the same actions. They stay in step when each action leads
them to related states or stops both for one reason. -/

/-- Two results with related values, or the same reason to stop. -/
def SameOutcome {τ : Type*} (related : σ → τ → Prop) : Except ε σ → Except ε τ → Prop
  | .ok first, .ok second => related first second
  | .error first, .error second => first = second
  | .ok _, .error _ => False
  | .error _, .ok _ => False

theorem sameOutcome_run {τ : Type*} {related : σ → τ → Prop} {other : τ → α → Except ε τ}
    (hstep : ∀ state view action, related state view →
      SameOutcome related (step state action) (other view action))
    {state : σ} {view : τ} (h : related state view) (actions : List α) :
    SameOutcome related (run step state actions) (run other view actions) := by
  induction actions generalizing state view with
  | nil => exact h
  | cons action actions ih =>
      have hnext := hstep state view action h
      rw [run, run]
      cases hfirst : step state action with
      | error stop =>
          cases hsecond : other view action with
          | error otherStop =>
              rw [hfirst, hsecond] at hnext
              exact hnext
          | ok second =>
              rw [hfirst, hsecond] at hnext
              exact hnext.elim
      | ok first =>
          cases hsecond : other view action with
          | error otherStop =>
              rw [hfirst, hsecond] at hnext
              exact hnext.elim
          | ok second =>
              rw [hfirst, hsecond] at hnext
              exact ih hnext

/-- A machine in step with one that does not stop for a reason does not either. -/
theorem SameOutcome.ne_error {τ : Type*} {related : σ → τ → Prop} {first : Except ε σ}
    {second : Except ε τ} (h : SameOutcome related first second) {stop : ε}
    (hsecond : second ≠ .error stop) : first ≠ .error stop := by
  rintro rfl
  cases second with
  | ok value => exact h
  | error other =>
      obtain rfl : stop = other := h
      exact hsecond rfl

theorem SameOutcome.exists_eq_ok {τ : Type*} {related : σ → τ → Prop} {first : Except ε σ}
    {second : Except ε τ} (h : SameOutcome related first second) {value : τ}
    (hsecond : second = .ok value) : ∃ other, first = .ok other ∧ related other value := by
  subst hsecond
  cases first with
  | ok other => exact ⟨other, rfl, h⟩
  | error stop => exact h.elim

theorem SameOutcome.exists_related {τ : Type*} {related : σ → τ → Prop} {first : Except ε σ}
    {second : Except ε τ} (h : SameOutcome related first second) {value : σ}
    (hfirst : first = .ok value) : ∃ other, second = .ok other ∧ related value other := by
  subst hfirst
  cases second with
  | ok other => exact ⟨other, rfl, h⟩
  | error stop => exact h.elim

theorem SameOutcome.eq_error {τ : Type*} {related : σ → τ → Prop} {first : Except ε σ}
    {second : Except ε τ} (h : SameOutcome related first second) {stop : ε}
    (hsecond : second = .error stop) : first = .error stop := by
  subst hsecond
  cases first with
  | ok value => exact h.elim
  | error other => exact congrArg Except.error h

/-- A run that stops does so at a step from a state it has reached. -/
theorem exists_step_of_run_eq_error {start : σ} {actions : List α} {stop : ε}
    (h : run step start actions = .error stop) :
    ∃ before action state, before ++ [action] <+: actions ∧ run step start before = .ok state ∧
      step state action = .error stop := by
  induction actions generalizing start with
  | nil => cases h
  | cons action actions ih =>
      rw [run] at h
      cases hstep : step start action with
      | error other =>
          rw [hstep] at h
          obtain rfl := Except.error.inj h
          exact ⟨[], action, start, by simp, rfl, hstep⟩
      | ok next =>
          rw [hstep] at h
          obtain ⟨before, other, state, hpre, hrun, hstop⟩ := ih h
          exact ⟨action :: before, other, state, List.cons_prefix_cons.mpr ⟨rfl, hpre⟩,
            run_cons_eq_ok.mpr ⟨next, hstep, hrun⟩, hstop⟩

/-! ## Reports

A machine can be watched: each step is reported by comparing the state before it
with the state after it. -/

/-- The reports of a run, step by step. -/
def reports {β : Type*} (step : σ → α → Except ε σ) (report : σ → σ → β) :
    σ → List α → Except ε (List β)
  | _, [] => .ok []
  | state, action :: actions =>
      match step state action with
      | .error stop => .error stop
      | .ok next => (reports step report next actions).map (report state next :: ·)

/-- What an abstract machine says of each step of its run. -/
def verdicts {τ β : Type*} (abstract : τ → α → τ) (verdict : τ → α → β) :
    τ → List α → List β
  | _, [] => []
  | state, action :: actions =>
      verdict state action :: verdicts abstract verdict (abstract state action) actions

/-- A machine that simulates an abstract one reports what the abstract one says,
if and only if a condition that decides single steps is met along the run of the
abstract one. -/
theorem reports_eq_verdicts_iff {τ β : Type*} {abstract : τ → α → τ} {verdict : τ → α → β}
    {report : σ → σ → β} {related : σ → τ → Prop} {condition : τ → α → Prop} {actions : List α}
    (simulated : ∀ action ∈ actions, ∀ state view, related state view →
      ∃ next, step state action = .ok next ∧ related next (abstract view action) ∧
        (report state next = verdict view action ↔ condition view action))
    {start : σ} {view : τ} (hstart : related start view) :
    reports step report start actions = .ok (verdicts abstract verdict view actions) ↔
      ∀ before action, before ++ [action] <+: actions →
        condition (before.foldl abstract view) action := by
  induction actions generalizing start view with
  | nil => simp [reports, verdicts]
  | cons action actions ih =>
      obtain ⟨next, hstep, hnext, hreport⟩ := simulated action List.mem_cons_self start view hstart
      have hrest := ih (fun other hother => simulated other (List.mem_cons_of_mem _ hother)) hnext
      have hcons : reports step report start (action :: actions) =
          .ok (verdicts abstract verdict view (action :: actions)) ↔
          report start next = verdict view action ∧
            reports step report next actions =
              .ok (verdicts abstract verdict (abstract view action) actions) := by
        simp only [reports, hstep, verdicts]
        cases reports step report next actions with
        | error stop => simp [Except.map]
        | ok rest => simp [Except.map]
      rw [hcons, hreport, hrest]
      constructor
      · rintro ⟨hfirst, hlater⟩ before other hpre
        cases before with
        | nil =>
            obtain ⟨rfl, _⟩ := List.cons_prefix_cons.mp hpre
            exact hfirst
        | cons first before =>
            obtain ⟨rfl, hrestPre⟩ := List.cons_prefix_cons.mp hpre
            exact hlater before other hrestPre
      · intro h
        exact ⟨h [] action (by simp), fun before other hpre =>
          h (action :: before) other (List.cons_prefix_cons.mpr ⟨rfl, hpre⟩)⟩

/-- A machine that simulates an abstract one and agrees with it on every step
reports what the abstract one says. -/
theorem reports_eq_verdicts {τ β : Type*} {abstract : τ → α → τ} {verdict : τ → α → β}
    {report : σ → σ → β} {related : σ → τ → Prop} {actions : List α}
    (simulated : ∀ action ∈ actions, ∀ state view, related state view →
      ∃ next, step state action = .ok next ∧ related next (abstract view action) ∧
        report state next = verdict view action)
    {start : σ} {view : τ} (hstart : related start view) :
    reports step report start actions = .ok (verdicts abstract verdict view actions) := by
  let always : τ → α → Prop := fun _ _ => True
  have hiff := reports_eq_verdicts_iff (fun action haction state view hrelated => by
    obtain ⟨next, hstep, hnext, hreport⟩ := simulated action haction state view hrelated
    exact ⟨next, hstep, hnext, show _ ↔ always view action from iff_true_intro hreport⟩) hstart
  exact hiff.mpr fun _ _ _ => trivial

/-! ## Two runs

Two lists that look alike once some of their members are dropped have been
built up together, from their beginnings: two kept members that look alike at a
time, or a dropped one on either. -/

theorem filter_map_eq_induction {β : Type*} {keep : α → Bool} {look : α → β}
    {motive : List α → List α → Prop} (nil : motive [] [])
    (both : ∀ first second action other, look action = look other → motive first second →
      motive (first ++ [action]) (second ++ [other]))
    (left : ∀ first second action, keep action = false → motive first second →
      motive (first ++ [action]) second)
    (right : ∀ first second action, keep action = false → motive first second →
      motive first (second ++ [action]))
    {first second : List α}
    (h : (first.filter keep).map look = (second.filter keep).map look) :
    motive first second := by
  induction first using List.reverseRecOn generalizing second with
  | nil =>
      induction second using List.reverseRecOn with
      | nil => exact nil
      | append_singleton second action ih =>
          rw [List.filter_append, List.map_append, List.filter_nil, List.map_nil, eq_comm,
            List.append_eq_nil_iff] at h
          have hdropped : keep action = false := by simpa using h.2
          exact right _ _ _ hdropped (ih (by rw [h.1, List.filter_nil, List.map_nil]))
  | append_singleton first action ih =>
      rw [List.filter_append, List.filter_singleton, List.map_append] at h
      cases hkeep : keep action with
      | false =>
          rw [hkeep, cond_false, List.map_nil, List.append_nil] at h
          exact left _ _ _ hkeep (ih h)
      | true =>
          rw [hkeep, cond_true] at h
          -- the kept member is the last one kept of the other list
          induction second using List.reverseRecOn with
          | nil => simp at h
          | append_singleton second other ihSecond =>
              rw [List.filter_append, List.filter_singleton, List.map_append] at h
              cases hother : keep other with
              | false =>
                  rw [hother, cond_false, List.map_nil, List.append_nil] at h
                  exact right _ _ _ hother (ihSecond h)
              | true =>
                  rw [hother, cond_true] at h
                  obtain ⟨hrest, hlast⟩ := List.append_inj' h rfl
                  exact both _ _ _ _ (List.singleton_inj.mp hlast) (ih hrest)

/-- What a run lets one observe, action by action. -/
def observations {β : Type*} (step : σ → α → Except ε σ) (observe : σ → α → Option β) :
    σ → List α → List β
  | _, [] => []
  | state, action :: actions =>
      (observe state action).toList ++
        match step state action with
        | .ok next => observations step observe next actions
        | .error _ => []

theorem observations_concat {β : Type*} {observe : σ → α → Option β} {start state : σ}
    {actions : List α} (hrun : run step start actions = .ok state) (action : α) :
    observations step observe start (actions ++ [action]) =
      observations step observe start actions ++ (observe state action).toList := by
  induction actions generalizing start with
  | nil =>
      obtain rfl := Except.ok.inj hrun
      simp only [List.nil_append, observations]
      cases step start action <;> simp
  | cons first rest ih =>
      obtain ⟨next, hstep, hrest⟩ := run_cons_eq_ok.mp hrun
      simp only [List.cons_append, observations, hstep, ih hrest, List.append_assoc]

end LibBench.Math
