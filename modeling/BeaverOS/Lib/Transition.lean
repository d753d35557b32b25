import Mathlib.Data.List.Basic

/-!
# Runs of labelled transition systems

A system is a relation `step state action state'`. A run is a list of actions
that lead from a start state to another state, with its last action taken last.
Properties of runs are proved by invariants, which may speak of the actions
taken so far.
-/

namespace BeaverOS.Transition

universe u v

variable {State : Type u} {Action : Type v}
  {step : State → Action → State → Prop} {start state state' : State}
  {actions later : List Action} {action : Action}

/-- The actions lead from `start` to the given state. -/
inductive Run (step : State → Action → State → Prop) (start : State) :
    List Action → State → Prop
  | nil : Run step start [] start
  | snoc {actions : List Action} {action : Action} {state state' : State} :
      Run step start actions state →
      step state action state' →
      Run step start (actions ++ [action]) state'

theorem Run.append (first : Run step start actions state)
    (second : Run step state later state') :
    Run step start (actions ++ later) state' := by
  induction second with
  | nil =>
      rw [List.append_nil]
      exact first
  | snoc _ last inductionHypothesis =>
      rw [← List.append_assoc]
      exact inductionHypothesis.snoc last

/-- What holds at the start and survives every step holds after every run, the
actions taken so far included. -/
theorem Run.induct {Inv : List Action → State → Prop}
    (initial : Inv [] start)
    (preserved : ∀ actions state action state',
      Run step start actions state → Inv actions state →
      step state action state' → Inv (actions ++ [action]) state')
    (run : Run step start actions state) : Inv actions state := by
  induction run with
  | nil => exact initial
  | snoc run last inductionHypothesis =>
      exact preserved _ _ _ _ run inductionHypothesis last

/-- The rule for invariants that speak of the state alone. -/
theorem Run.invariant {Inv : State → Prop} (initial : Inv start)
    (preserved : ∀ state action state', Inv state →
      step state action state' → Inv state')
    (run : Run step start actions state) : Inv state :=
  run.induct initial fun _ state action state' _ holds last =>
    preserved state action state' holds last

/-! ## Properties of whole runs -/

/-- `holds` is true of every state that the actions pass through, and of the
actions before it. -/
def Always (step : State → Action → State → Prop) (start : State)
    (actions : List Action) (holds : List Action → State → Prop) : Prop :=
  ∀ before after state, actions = before ++ after →
    Run step start before state → holds before state

/-- `allowed` is true of every step that the actions take. -/
def AlwaysStep (step : State → Action → State → Prop) (start : State)
    (actions : List Action) (allowed : State → Action → State → Prop) : Prop :=
  ∀ before action after state state', actions = before ++ action :: after →
    Run step start before state → step state action state' →
      allowed state action state'

/-- Where each step of a run keeps a property exactly when it is allowed, the
run keeps the property exactly when all its steps are allowed. -/
theorem always_iff_alwaysStep {holds : List Action → State → Prop}
    {allowed : State → Action → State → Prop}
    (initial : holds [] start)
    (preserved : ∀ before action after state state',
      actions = before ++ action :: after → Run step start before state →
      holds before state → step state action state' →
        (holds (before ++ [action]) state' ↔ allowed state action state')) :
    Always step start actions holds ↔
      AlwaysStep step start actions allowed := by
  constructor
  · intro always before action after state state' split run last
    have before' := always before (action :: after) state split run
    refine (preserved before action after state state' split run before'
      last).mp ?_
    refine always (before ++ [action]) after state' ?_ (run.snoc last)
    rw [split, List.append_assoc, List.singleton_append]
  · intro allowed before after state split run
    induction run generalizing after with
    | nil => exact initial
    | @snoc before action state state' run last inductionHypothesis =>
        rw [List.append_assoc, List.singleton_append] at split
        exact (preserved before action after state state' split run
          (inductionHypothesis (action :: after) split) last).mpr
            (allowed before action after state state' split run last)

/-- An invariant that the allowed steps keep and that implies the property,
while every other step ends outside of the property. -/
theorem always_iff_of_invariant (inv : List Action → State → Prop)
    {holds : List Action → State → Prop}
    {allowed : State → Action → State → Prop}
    (initial : inv [] start)
    (kept : ∀ before action state state', inv before state →
      step state action state' → allowed state action state' →
        inv (before ++ [action]) state')
    (safe : ∀ before state, inv before state → holds before state)
    (broken : ∀ before action state state', inv before state →
      step state action state' → holds (before ++ [action]) state' →
        allowed state action state') :
    Always step start actions holds ↔
      AlwaysStep step start actions allowed := by
  constructor
  · intro always
    have invariant : Always step start actions inv := by
      intro before after state split run
      induction run generalizing after with
      | nil => exact initial
      | @snoc before action state state' run last inductionHypothesis =>
          have ended := always _ after state' split (run.snoc last)
          rw [List.append_assoc, List.singleton_append] at split
          have held := inductionHypothesis (action :: after) split
          exact kept before action state state' held last
            (broken before action state state' held last ended)
    intro before action after state state' split run last
    refine broken before action state state'
      (invariant before _ state split run) last
      (always (before ++ [action]) after state' ?_ (run.snoc last))
    rw [split, List.append_assoc, List.singleton_append]
  · intro steps before after state split run
    apply safe
    induction run generalizing after with
    | nil => exact initial
    | @snoc before action state state' run last inductionHypothesis =>
        rw [List.append_assoc, List.singleton_append] at split
        exact kept before action state state'
          (inductionHypothesis (action :: after) split) last
          (steps before action after state state' split run last)

/-- What every allowed step keeps holds in a run of allowed steps. -/
theorem AlwaysStep.always {holds : List Action → State → Prop}
    {allowed : State → Action → State → Prop}
    (initial : holds [] start)
    (preserved : ∀ before action state state', Run step start before state →
      holds before state → step state action state' →
      allowed state action state' → holds (before ++ [action]) state')
    (steps : AlwaysStep step start actions allowed) :
    Always step start actions holds := by
  intro before after state split run
  induction run generalizing after with
  | nil => exact initial
  | @snoc before action state state' run last inductionHypothesis =>
      rw [List.append_assoc, List.singleton_append] at split
      exact preserved before action state state' run
        (inductionHypothesis (action :: after) split) last
        (steps before action after state state' split run last)

theorem Run.nil_eq (run : Run step start actions state)
    (none : actions = []) : state = start := by
  cases run with
  | nil => rfl
  | snoc run last => exact absurd none (List.append_ne_nil_of_right_ne_nil _
      (List.cons_ne_nil _ _))

theorem Run.head (run : Run step start (action :: actions) state) :
    ∃ middle, step start action middle ∧ Run step middle actions state := by
  generalize all : action :: actions = taken at run
  induction run generalizing actions with
  | nil => cases all
  | @snoc before last state state' run final inductionHypothesis =>
      cases before with
      | nil =>
          cases run.nil_eq rfl
          obtain ⟨rfl, rfl⟩ := List.cons.inj all
          exact ⟨state', final, Run.nil⟩
      | cons first before =>
          rw [List.cons_append] at all
          obtain ⟨rfl, rfl⟩ := List.cons.inj all
          obtain ⟨middle, step, rest⟩ := inductionHypothesis rfl
          exact ⟨middle, step, rest.snoc final⟩

/-! ## Systems that can be computed -/

/-- The actions one after another. -/
def performSteps (perform : State → Action → Option State) (state : State) :
    List Action → Option State
  | [] => some state
  | action :: actions =>
      (perform state action).bind fun state' =>
        performSteps perform state' actions

theorem run_of_performSteps {perform : State → Action → Option State}
    (sound : ∀ state action state', perform state action = some state' →
      step state action state')
    (performed : performSteps perform start actions = some state) :
    Run step start actions state := by
  induction actions generalizing start with
  | nil =>
      cases performed
      exact Run.nil
  | cons action actions inductionHypothesis =>
      obtain ⟨middle, first, rest⟩ := Option.bind_eq_some_iff.mp performed
      have head : Run step start [action] middle :=
        Run.nil.snoc (sound _ _ _ first)
      exact head.append (inductionHypothesis rest)

/-- Whether the steps that a program takes pass a test. -/
def checkSteps (perform : State → Action → Option State)
    (check : State → Action → State → Bool) : State → List Action → Bool
  | _, [] => true
  | state, action :: actions =>
      match perform state action with
      | none => true
      | some state' =>
          check state action state' && checkSteps perform check state' actions

theorem alwaysStep_of_checkSteps {perform : State → Action → Option State}
    {check : State → Action → State → Bool}
    (checked : checkSteps perform check start actions = true)
    (complete : ∀ state action state', step state action state' →
      perform state action = some state') :
    AlwaysStep step start actions
      fun state action state' => check state action state' = true := by
  intro before
  induction before generalizing start actions with
  | nil =>
      intro action after state state' split run last
      cases run.nil_eq rfl
      rw [split, List.nil_append, checkSteps, complete _ _ _ last] at checked
      exact (Bool.and_eq_true _ _ ▸ checked).1
  | cons first before inductionHypothesis =>
      intro action after state state' split run last
      obtain ⟨middle, step, rest⟩ := run.head
      rw [split, List.cons_append, checkSteps, complete _ _ _ step] at checked
      exact inductionHypothesis (Bool.and_eq_true _ _ ▸ checked).2
        action after state state' rfl rest last

theorem Always.last {holds : List Action → State → Prop}
    (always : Always step start actions holds)
    (run : Run step start actions state) : holds actions state :=
  always actions [] state (List.append_nil actions).symm run

end BeaverOS.Transition
