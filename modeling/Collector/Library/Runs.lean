import Mathlib.Data.List.Basic

/-!
# Runs of a partial step function

An action either refuses, leaving no successor, or produces exactly one. Every
choice that a program leaves open is carried by the action, so the step itself
is a function and a run is the fold of its actions. Invariants are proved for
one step and transferred to whole runs here, once.

`Along` restricts a run to steps that meet a condition on the state before the
step and the action taken. It is the form in which a result says that some
branch of a step is never taken.
-/

namespace Runs

universe u v
variable {σ : Type u} {α : Type v}

/-- Take the actions in order; the run refuses as soon as one action refuses. -/
def run (step : σ → α → Option σ) : σ → List α → Option σ
  | state, [] => some state
  | state, action :: rest => (step state action).bind (fun next => run step next rest)

/-- Every action of the run is taken in a state that meets the condition. -/
def Along (step : σ → α → Option σ) (condition : σ → α → Prop) : σ → List α → Prop
  | _, [] => True
  | state, action :: rest =>
      condition state action ∧ ∀ next, step state action = some next → Along step condition next rest

theorem run_cons (step : σ → α → Option σ) (state : σ) (action : α) (rest : List α) :
    run step state (action :: rest) = (step state action).bind (fun next => run step next rest) :=
  rfl

/-- A guarded step that was taken shows its guard and its effect. -/
theorem guarded {guard : Prop} [Decidable guard] {next after : σ}
    (taken : (if guard then some next else none) = some after) : guard ∧ next = after := by
  obtain ⟨met, same⟩ := Option.ite_none_right_eq_some.mp taken
  exact ⟨met, Option.some.inj same⟩

/-- A completed nonempty run exposes its first step. -/
theorem run_cons_some {step : σ → α → Option σ} {state final : σ} {action : α} {rest : List α}
    (completed : run step state (action :: rest) = some final) :
    ∃ next, step state action = some next ∧ run step next rest = some final :=
  Option.bind_eq_some_iff.mp completed

/-- A run goes on from where its first part ends. -/
theorem run_append {step : σ → α → Option σ} {state middle : σ} {left : List α}
    (reached : run step state left = some middle) (right : List α) :
    run step state (left ++ right) = run step middle right := by
  induction left generalizing state with
  | nil =>
    obtain rfl : state = middle := Option.some.inj reached
    rfl
  | cons action rest inductionHypothesis =>
    obtain ⟨next, taken, continued⟩ := run_cons_some reached
    rw [List.cons_append, run_cons, taken]
    exact inductionHypothesis continued

/-- A run without an action of some kind, or the last such action in it. -/
theorem exists_last {step : σ → α → Option σ} (kind : α → Prop) {state final : σ}
    {actions : List α} (completed : run step state actions = some final) :
    (∀ action ∈ actions, ¬ kind action) ∨
      ∃ before action after middle, actions = before ++ action :: after ∧ kind action ∧
        (∀ later ∈ after, ¬ kind later) ∧ run step state before = some middle ∧
        run step middle (action :: after) = some final := by
  induction actions generalizing state with
  | nil => exact Or.inl nofun
  | cons first rest inductionHypothesis =>
    obtain ⟨next, taken, continued⟩ := run_cons_some completed
    rcases inductionHypothesis continued with
      none | ⟨before, action, after, middle, rfl, isKind, last, reached, later⟩
    · by_cases firstKind : kind first
      · exact Or.inr ⟨[], first, rest, state, rfl, firstKind, none, rfl, completed⟩
      · refine Or.inl fun action member => ?_
        rcases List.mem_cons.mp member with rfl | inRest
        · exact firstKind
        · exact none action inRest
    · refine Or.inr ⟨first :: before, action, after, middle, rfl, isKind, last, ?_, later⟩
      rw [run_cons, taken]
      exact reached

/-- A met condition, the step taken and the rest of the run. -/
theorem Along.cons {step : σ → α → Option σ} {condition : σ → α → Prop} {state next : σ}
    {action : α} {rest : List α} (met : condition state action)
    (taken : step state action = some next) (continued : Along step condition next rest) :
    Along step condition state (action :: rest) := by
  refine ⟨met, ?_⟩
  intro other alsoTaken
  obtain rfl : next = other := Option.some.inj (taken.symm.trans alsoTaken)
  exact continued

/-- A condition met by every action of the list in any state is met along its run. -/
theorem along_of_forall {step : σ → α → Option σ} {condition : σ → α → Prop} (state : σ)
    (actions : List α) (met : ∀ action ∈ actions, ∀ state, condition state action) :
    Along step condition state actions := by
  induction actions generalizing state with
  | nil => trivial
  | cons action rest inductionHypothesis =>
    refine ⟨met action List.mem_cons_self state, ?_⟩
    intro next _
    exact inductionHypothesis next (fun later member => met later (List.mem_cons_of_mem _ member))

/-- A condition is met along a run just when it is met wherever the run is cut. -/
theorem along_iff {step : σ → α → Option σ} {condition : σ → α → Prop} {state : σ}
    {actions : List α} : Along step condition state actions ↔
      ∀ before action after middle, actions = before ++ action :: after →
        run step state before = some middle → condition middle action := by
  induction actions generalizing state with
  | nil =>
    refine iff_of_true trivial ?_
    intro before action after middle split
    exact absurd split (by simp)
  | cons first rest inductionHypothesis =>
    constructor
    · intro along before action after middle split reached
      cases before with
      | nil =>
        obtain ⟨rfl, rfl⟩ := List.cons.inj split
        obtain rfl : state = middle := Option.some.inj reached
        exact along.1
      | cons other front =>
        obtain ⟨rfl, same⟩ := List.cons.inj split
        obtain ⟨next, taken, continued⟩ := run_cons_some reached
        exact inductionHypothesis.mp (along.2 next taken) front action after middle same continued
    · intro met
      refine ⟨met [] first rest state rfl rfl, ?_⟩
      intro next taken
      apply inductionHypothesis.mpr
      intro before action after middle split reached
      apply met (first :: before) action after middle (congrArg (first :: ·) split)
      rw [run_cons, taken]
      exact reached

/-- A condition met along a run is met along its first part. -/
theorem Along.left {step : σ → α → Option σ} {condition : σ → α → Prop} {state : σ}
    {left right : List α} (along : Along step condition state (left ++ right)) :
    Along step condition state left := by
  apply along_iff.mpr
  intro before action after middle split reached
  apply along_iff.mp along before action (after ++ right) middle _ reached
  rw [split, List.append_assoc, List.cons_append]

/-- A condition met along a first part of a run and along the rest is met along the run. -/
theorem Along.append {step : σ → α → Option σ} {condition : σ → α → Prop} {state middle : σ}
    {left right : List α} (alongLeft : Along step condition state left)
    (reached : run step state left = some middle)
    (alongRight : Along step condition middle right) :
    Along step condition state (left ++ right) := by
  induction left generalizing state with
  | nil =>
    obtain rfl : state = middle := Option.some.inj reached
    exact alongRight
  | cons action rest inductionHypothesis =>
    obtain ⟨next, taken, continued⟩ := run_cons_some reached
    exact Along.cons alongLeft.1 taken (inductionHypothesis (alongLeft.2 next taken) continued)

/-- Two conditions met along a run are met together along it. -/
theorem Along.and {step : σ → α → Option σ} {left right : σ → α → Prop} {state : σ}
    {actions : List α} (alongLeft : Along step left state actions)
    (alongRight : Along step right state actions) :
    Along step (fun state action => left state action ∧ right state action) state actions := by
  induction actions generalizing state with
  | nil => trivial
  | cons action rest inductionHypothesis =>
    refine ⟨⟨alongLeft.1, alongRight.1⟩, ?_⟩
    intro next taken
    exact inductionHypothesis (alongLeft.2 next taken) (alongRight.2 next taken)

/-- A property kept by every step that meets the condition holds after every
run whose steps meet it. -/
theorem invariant_along {step : σ → α → Option σ} {condition : σ → α → Prop}
    {holds : σ → Prop}
    (kept : ∀ state action next, condition state action → step state action = some next →
      holds state → holds next)
    {state final : σ} {actions : List α} (along : Along step condition state actions)
    (completed : run step state actions = some final) (initially : holds state) :
    holds final := by
  induction actions generalizing state with
  | nil =>
    have same : state = final := Option.some.inj completed
    exact same ▸ initially
  | cons action rest inductionHypothesis =>
    obtain ⟨next, taken, continued⟩ := run_cons_some completed
    exact inductionHypothesis (along.2 next taken) continued
      (kept state action next along.1 taken initially)

/-- A property kept by every step holds after every run. -/
theorem invariant {step : σ → α → Option σ} {holds : σ → Prop}
    (kept : ∀ state action next, step state action = some next → holds state → holds next)
    {state final : σ} {actions : List α} (completed : run step state actions = some final)
    (initially : holds state) : holds final := by
  induction actions generalizing state with
  | nil =>
    have same : state = final := Option.some.inj completed
    exact same ▸ initially
  | cons action rest inductionHypothesis =>
    obtain ⟨next, taken, continued⟩ := run_cons_some completed
    exact inductionHypothesis continued (kept state action next taken initially)

/-- A property of a state and the actions that led to it, kept by every step,
holds after every run. -/
theorem invariant_history {step : σ → α → Option σ} {holds : List α → σ → Prop}
    (kept : ∀ before state action next, step state action = some next → holds before state →
      holds (before ++ [action]) next)
    {state final : σ} {actions : List α} (completed : run step state actions = some final)
    (initially : holds [] state) : holds actions final := by
  have continued : ∀ (rest : List α) (before : List α) (middle : σ),
      run step middle rest = some final → holds before middle → holds (before ++ rest) final := by
    intro rest
    induction rest with
    | nil =>
      intro before middle done held
      obtain rfl : middle = final := Option.some.inj done
      rw [List.append_nil]
      exact held
    | cons action rest inductionHypothesis =>
      intro before middle done held
      obtain ⟨next, taken, later⟩ := run_cons_some done
      have reached := inductionHypothesis (before ++ [action]) next later
        (kept before middle action next taken held)
      rw [List.append_assoc] at reached
      exact reached
  exact continued actions [] state completed initially

/-- A property that lets every step be taken and is kept by it carries a run to
its end. -/
theorem completes {step : σ → α → Option σ} {holds : List α → σ → Prop}
    (goes : ∀ state action rest, holds (action :: rest) state →
      ∃ next, step state action = some next ∧ holds rest next)
    {state : σ} {actions : List α} (initially : holds actions state) :
    ∃ final, run step state actions = some final ∧ holds [] final := by
  induction actions generalizing state with
  | nil => exact ⟨state, rfl, initially⟩
  | cons action rest inductionHypothesis =>
    obtain ⟨next, taken, continued⟩ := goes state action rest initially
    obtain ⟨final, completed, atEnd⟩ := inductionHypothesis continued
    refine ⟨final, ?_, atEnd⟩
    rw [run_cons, taken]
    exact completed

/-- Actions that each complete and keep a property form a run that does. -/
theorem completes_of_forall {step : σ → α → Option σ} {allowed : α → Prop} {holds : σ → Prop}
    (goes : ∀ state action, allowed action → holds state →
      ∃ next, step state action = some next ∧ holds next)
    {state : σ} {actions : List α} (all : ∀ action ∈ actions, allowed action)
    (initially : holds state) : ∃ final, run step state actions = some final ∧ holds final := by
  induction actions generalizing state with
  | nil => exact ⟨state, rfl, initially⟩
  | cons action rest inductionHypothesis =>
    obtain ⟨next, taken, after⟩ := goes state action (all action List.mem_cons_self) initially
    obtain ⟨final, completed, atEnd⟩ := inductionHypothesis
      (fun later member => all later (List.mem_cons_of_mem action member)) after
    refine ⟨final, ?_, atEnd⟩
    rw [run_cons, taken]
    exact completed

/-- A condition that every step of a completed run meets because of where the
run ends holds along the run. -/
theorem along_of_completed {step : σ → α → Option σ} {assumed condition : σ → α → Prop}
    {holds : σ → Prop} {final : σ}
    (kept : ∀ state action next, assumed state action → step state action = some next →
      holds state → holds next)
    (each : ∀ state action next rest, holds state → step state action = some next →
      run step next rest = some final → condition state action)
    {state : σ} {actions : List α} (along : Along step assumed state actions)
    (completed : run step state actions = some final) (initially : holds state) :
    Along step condition state actions := by
  induction actions generalizing state with
  | nil => trivial
  | cons action rest inductionHypothesis =>
    obtain ⟨next, taken, continued⟩ := run_cons_some completed
    refine ⟨each state action next rest initially taken continued, ?_⟩
    intro other alsoTaken
    obtain rfl : next = other := Option.some.inj (taken.symm.trans alsoTaken)
    exact inductionHypothesis (along.2 next taken) continued
      (kept state action next along.1 taken initially)

/-- A part of a system that every step leaves alone or moves by a step of its own makes
a run of its own. Conditions carry over as they do for one step. -/
theorem run_projects {τ : Type*} {β : Type*} {step : σ → α → Option σ}
    {condition : σ → α → Prop} (part : σ → τ) (stepPart : τ → β → Option τ)
    (conditionPart : τ → β → Prop)
    (each : ∀ state action next, condition state action → step state action = some next →
      part next = part state ∨
        ∃ own, conditionPart (part state) own ∧ stepPart (part state) own = some (part next))
    {state final : σ} {actions : List α} (along : Along step condition state actions)
    (completed : run step state actions = some final) :
    ∃ owns, Along stepPart conditionPart (part state) owns ∧
      run stepPart (part state) owns = some (part final) := by
  induction actions generalizing state with
  | nil =>
    obtain rfl : state = final := Option.some.inj completed
    exact ⟨[], trivial, rfl⟩
  | cons action rest inductionHypothesis =>
    obtain ⟨next, taken, continued⟩ := run_cons_some completed
    obtain ⟨owns, met, reached⟩ := inductionHypothesis (along.2 next taken) continued
    cases each state action next along.1 taken with
    | inl same =>
      rw [same] at met reached
      exact ⟨owns, met, reached⟩
    | inr moved =>
      obtain ⟨own, allowed, stepped⟩ := moved
      refine ⟨own :: owns, Along.cons allowed stepped met, ?_⟩
      rw [run_cons, stepped]
      exact reached

/-- Some run of allowed actions leads from a state to one that meets the goal. -/
def Leads (step : σ → α → Option σ) (allowed : α → Prop) (goal : σ → Prop) (state : σ) : Prop :=
  ∃ actions final, run step state actions = some final ∧ (∀ action ∈ actions, allowed action) ∧
    goal final

/-- Where an allowed step always makes something smaller until the goal is met, some
run leads to the goal. -/
theorem Leads.of_measure {step : σ → α → Option σ} {allowed : α → Prop} {holds goal : σ → Prop}
    (measure : σ → Nat)
    (goes : ∀ state, holds state → goal state ∨ ∃ action next, allowed action ∧
      step state action = some next ∧ holds next ∧ measure next < measure state)
    {state : σ} (initially : holds state) : Leads step allowed goal state := by
  induction bound : measure state using Nat.strongRecOn generalizing state with
  | ind size inductionHypothesis =>
    rcases goes state initially with met | ⟨action, next, allowedAction, taken, held, smaller⟩
    · exact ⟨[], state, rfl, nofun, met⟩
    · obtain ⟨actions, final, completed, all, met⟩ :=
        inductionHypothesis (measure next) (bound ▸ smaller) held rfl
      refine ⟨action :: actions, final, ?_, List.forall_mem_cons.mpr ⟨allowedAction, all⟩, met⟩
      rw [run_cons, taken]
      exact completed

end Runs
