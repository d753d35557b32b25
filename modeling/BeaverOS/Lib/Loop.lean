import Mathlib.Data.List.Range

/-!
# Counting loops

A `for` loop whose variable counts up, in programs that may stop with an error.
It is used through the states that it passes.
-/

namespace BeaverOS.Loop

universe u v w

variable {Error : Type u} {State : Type v} {start stop : Nat}
  {body : Nat → State → Except Error State} {state : State}

/-- Both parts of a sequence that returns have returned. -/
theorem ok_of_bind {Result : Type v} {Result' : Type v}
    {first : Except Error Result} {next : Result → Except Error Result'}
    {result : Result'} (returned : (first >>= next) = .ok result) :
    ∃ value, first = .ok value ∧ next value = .ok result := by
  cases first with
  | error halt => cases returned
  | ok value => exact ⟨value, rfl, returned⟩

/-- `for (i = start; i < stop; ++i)`. -/
def forLoop (start stop : Nat) (body : Nat → State → Except Error State)
    (state : State) : Except Error State :=
  (List.range' start (stop - start)).foldlM (fun state i => body i state) state

theorem forLoop_done (done : stop ≤ start) :
    forLoop start stop body state = .ok state := by
  rw [forLoop, Nat.sub_eq_zero_of_le done]
  rfl

theorem forLoop_next {state' : State} (more : start < stop)
    (first : body start state = .ok state') :
    forLoop start stop body state = forLoop (start + 1) stop body state' := by
  obtain ⟨rest, restEq⟩ : ∃ rest, stop - start = rest + 1 :=
    ⟨stop - start - 1, by omega⟩
  have restEq' : stop - (start + 1) = rest := by omega
  rw [forLoop, forLoop, restEq, restEq', List.range'_succ, List.foldlM_cons,
    first]
  rfl

/-- A loop whose states are known passes through them. -/
theorem forLoop_states (states : Nat → State) (bound : start ≤ stop)
    (step : ∀ i, start ≤ i → i < stop →
      body i (states i) = .ok (states (i + 1))) :
    forLoop start stop body (states start) = .ok (states stop) := by
  induction rest : stop - start generalizing start with
  | zero =>
      obtain rfl : start = stop := by omega
      exact forLoop_done (Nat.le_refl start)
  | succ rest inductionHypothesis =>
      have more : start < stop := by omega
      rw [forLoop_next more (step start (Nat.le_refl start) more)]
      exact inductionHypothesis more
        (fun i above => step i (Nat.le_of_succ_le above)) (by omega)

/-- The same for a loop that cannot fail, written as a fold. -/
theorem foldl_states {body : State → Nat → State} {count : Nat}
    (states : Nat → State)
    (step : ∀ i, start ≤ i → i < start + count →
      body (states i) i = states (i + 1)) :
    (List.range' start count).foldl body (states start) =
      states (start + count) := by
  induction count generalizing start with
  | zero => rfl
  | succ count inductionHypothesis =>
      rw [List.range'_succ, List.foldl_cons,
        step start (Nat.le_refl start) (by omega),
        inductionHypothesis fun i above below =>
          step i (Nat.le_of_succ_le above) (by omega)]
      congr 1
      omega

/-- What holds before the loop and survives every round holds after it. -/
theorem forLoop_invariant {state' : State} (holds : Nat → State → Prop)
    (bound : start ≤ stop) (initial : holds start state)
    (preserved : ∀ i state state', start ≤ i → i < stop → holds i state →
      body i state = .ok state' → holds (i + 1) state')
    (returned : forLoop start stop body state = .ok state') :
    holds stop state' := by
  induction rest : stop - start generalizing start state with
  | zero =>
      obtain rfl : start = stop := by omega
      rw [forLoop_done (Nat.le_refl start)] at returned
      cases returned
      exact initial
  | succ rest inductionHypothesis =>
      have more : start < stop := by omega
      cases first : body start state with
      | error problem =>
          rw [forLoop, rest, List.range'_succ, List.foldlM_cons, first]
            at returned
          cases returned
      | ok next =>
          rw [forLoop_next more first] at returned
          exact inductionHypothesis more
            (preserved start state next (Nat.le_refl start) more initial first)
            (fun i state state' above => preserved i state state'
              (Nat.le_of_succ_le above)) returned (by omega)

/-- A loop whose rounds go through and keep an invariant goes through. -/
theorem forLoop_returns (holds : Nat → State → Prop)
    (bound : start ≤ stop) (initial : holds start state)
    (round : ∀ i state, start ≤ i → i < stop → holds i state →
      ∃ state', body i state = .ok state' ∧ holds (i + 1) state') :
    ∃ state', forLoop start stop body state = .ok state' ∧
      holds stop state' := by
  induction rest : stop - start generalizing start state with
  | zero =>
      obtain rfl : start = stop := by omega
      exact ⟨state, forLoop_done (Nat.le_refl start), initial⟩
  | succ rest inductionHypothesis =>
      have more : start < stop := by omega
      obtain ⟨next, first, holds'⟩ :=
        round start state (Nat.le_refl start) more initial
      rw [forLoop_next more first]
      exact inductionHypothesis more holds'
        (fun i state above => round i state (Nat.le_of_succ_le above))
        (by omega)

/-! ## Loops whose condition reads the state -/

section While

variable (more : Nat → State → Prop) [∀ i state, Decidable (more i state)]
  (body : Nat → State → Except Error State) (exhausted : Error)

/-- `for (i = start; more; ++i)`. A loop that goes on after `fuel` rounds stops
with an error. -/
def whileLoop : Nat → Nat → State → Except Error State
  | 0, _, _ => .error exhausted
  | fuel + 1, i, state =>
      if more i state then
        (body i state).bind (whileLoop fuel (i + 1))
      else
        .ok state

/-- The loop that starts at 0 in `start` comes to round `i` in the given
state. -/
inductive Visits (start : State) : Nat → State → Prop
  | start : Visits start 0 start
  | next {i : Nat} {state state' : State} :
      Visits start i state → more i state → body i state = .ok state' →
      Visits start (i + 1) state'

/-- Whether all rounds of the loop are in order, as far as `fuel` rounds go. -/
def allRounds (inOrder : Nat → State → Bool) : Nat → Nat → State → Bool
  | 0, _, _ => false
  | fuel + 1, i, state =>
      if more i state then
        inOrder i state &&
          match body i state with
          | .ok state' => allRounds inOrder fuel (i + 1) state'
          | .error _ => true
      else
        true

variable {more body exhausted}

/-- A round that the loop comes to has been looked at. -/
theorem Visits.inOrder {inOrder : Nat → State → Bool} {start : State}
    {fuel : Nat} (all : allRounds more body inOrder fuel 0 start = true)
    (visits : Visits more body start i state) (goesOn : more i state) :
    inOrder i state = true := by
  have looked : ∃ rest, allRounds more body inOrder rest i state = true := by
    clear goesOn
    induction visits with
    | start => exact ⟨fuel, all⟩
    | next _ goesOn step inductionHypothesis =>
        obtain ⟨rest, looked⟩ := inductionHypothesis
        cases rest with
        | zero => cases looked
        | succ rest =>
            rw [allRounds, if_pos goesOn, step, Bool.and_eq_true] at looked
            exact ⟨rest, looked.2⟩
  obtain ⟨rest, looked⟩ := looked
  cases rest with
  | zero => cases looked
  | succ rest =>
      rw [allRounds, if_pos goesOn, Bool.and_eq_true] at looked
      exact looked.1

/-- A loop that ends has come to a round whose condition fails. -/
theorem visits_of_whileLoop {start state' : State} {fuel i : Nat}
    (here : Visits more body start i state)
    (returned : whileLoop more body exhausted fuel i state = .ok state') :
    ∃ last, last < i + fuel ∧ Visits more body start last state' ∧
      ¬ more last state' := by
  induction fuel generalizing i state with
  | zero => cases returned
  | succ fuel inductionHypothesis =>
      rw [whileLoop] at returned
      split at returned
      · next goesOn =>
        cases step : body i state with
        | error problem =>
            rw [step] at returned
            cases returned
        | ok next =>
            rw [step] at returned
            obtain ⟨last, bound, result⟩ :=
              inductionHypothesis (here.next goesOn step) returned
            exact ⟨last, by omega, result⟩
      · next ends =>
        cases returned
        exact ⟨i, by omega, here, ends⟩

theorem whileLoop_next {i fuel : Nat} {state' : State} (goesOn : more i state)
    (first : body i state = .ok state') :
    whileLoop more body exhausted (fuel + 1) i state =
      whileLoop more body exhausted fuel (i + 1) state' := by
  rw [whileLoop, if_pos goesOn, first]
  rfl

theorem whileLoop_stops {i fuel : Nat} {problem : Error}
    (goesOn : more i state) (first : body i state = .error problem) :
    whileLoop more body exhausted (fuel + 1) i state = .error problem := by
  rw [whileLoop, if_pos goesOn, first]
  rfl

/-- A loop whose rounds go through and keep an invariant ends, at the round
where the invariant makes its condition fail. -/
theorem whileLoop_returns (holds : Nat → State → Prop) {last : Nat}
    (exhausted : Error) (bound : start ≤ last) (initial : holds start state)
    (goesOn : ∀ i state, i ≤ last → holds i state →
      (more i state ↔ i < last))
    (round : ∀ i state, start ≤ i → i < last → holds i state →
      ∃ state', body i state = .ok state' ∧ holds (i + 1) state')
    {fuel : Nat} (enough : last < start + fuel) :
    ∃ state', whileLoop more body exhausted fuel start state = .ok state' ∧
      holds last state' := by
  induction fuel generalizing start state with
  | zero => omega
  | succ fuel inductionHypothesis =>
      rw [whileLoop]
      by_cases ends : start = last
      · subst ends
        rw [if_neg fun going => Nat.lt_irrefl _
          ((goesOn start state bound initial).mp going)]
        exact ⟨state, rfl, initial⟩
      · have before : start < last := Nat.lt_of_le_of_ne bound ends
        obtain ⟨next, step, holds'⟩ :=
          round start state (Nat.le_refl _) before initial
        rw [if_pos ((goesOn start state bound initial).mpr before), step]
        exact inductionHypothesis before holds'
          (fun i state above => round i state (Nat.le_of_succ_le above))
          (by omega)

/-- A loop whose rounds go through and keep an invariant ends, at the latest
where the invariant makes its condition fail. -/
theorem whileLoop_ends (holds : Nat → State → Prop) {limit : Nat}
    (exhausted : Error) (bound : start ≤ limit) (initial : holds start state)
    (ended : ∀ state, holds limit state → ¬ more limit state)
    (round : ∀ i state, i < limit → holds i state → more i state →
      ∃ state', body i state = .ok state' ∧ holds (i + 1) state')
    {fuel : Nat} (enough : limit < start + fuel) :
    ∃ last state', last ≤ limit ∧
      whileLoop more body exhausted fuel start state = .ok state' ∧
      holds last state' ∧ ¬ more last state' := by
  induction fuel generalizing start state with
  | zero => omega
  | succ fuel inductionHypothesis =>
      by_cases goesOn : more start state
      · have before : start < limit := by
          refine Nat.lt_of_le_of_ne bound fun ends => ?_
          subst ends
          exact ended state initial goesOn
        obtain ⟨next, step, holds'⟩ := round start state before initial goesOn
        rw [whileLoop_next goesOn step]
        exact inductionHypothesis before holds' (by omega)
      · rw [whileLoop, if_neg goesOn]
        exact ⟨start, state, bound, rfl, initial, goesOn⟩

/-- A loop over the items of a list is a fold, while an invariant ties its
rounds to the list. -/
theorem whileLoop_eq_foldlM {Item : Type w} (items : List Item)
    (step : Item → State → Except Error State) (holds : State → Prop)
    (goesOn : ∀ i state, i ≤ items.length → holds state →
      (more i state ↔ i < items.length))
    (round : ∀ i (inside : i < items.length) state, holds state →
      body i state = step items[i] state)
    (kept : ∀ item ∈ items, ∀ state state', holds state →
      step item state = .ok state' → holds state')
    (initial : holds state) (bound : start ≤ items.length) {fuel : Nat}
    (enough : items.length < start + fuel) :
    whileLoop more body exhausted fuel start state =
      (items.drop start).foldlM (fun state item => step item state) state := by
  induction fuel generalizing start state with
  | zero => omega
  | succ fuel inductionHypothesis =>
      rw [whileLoop]
      by_cases before : start < items.length
      · rw [if_pos ((goesOn start state bound initial).mpr before),
          round start before state initial, List.drop_eq_getElem_cons before,
          List.foldlM_cons]
        cases result : step items[start] state with
        | error problem => rfl
        | ok state' =>
            exact inductionHypothesis
              (kept _ (List.getElem_mem before) state state' initial result)
              before (by omega)
      · rw [if_neg fun going => before
          ((goesOn start state bound initial).mp going),
          List.drop_eq_nil_of_le (Nat.le_of_not_lt before)]
        rfl

end While

end BeaverOS.Loop
