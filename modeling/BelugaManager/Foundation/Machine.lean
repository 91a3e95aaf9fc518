import Mathlib.Logic.Basic

/-!
# Machines and histories

A machine takes events one after the other; an event that is not possible in a state has
no successor.  A history lists what happened, the latest first.
-/

namespace Foundation

structure Machine (State Event : Type*) where
  init : State
  step : State → Event → Option State

namespace Machine

variable {State Event : Type*} (machine : Machine State Event)

/-- The states after runs whose steps are all allowed. -/
inductive Reachable (allowed : State → Event → Prop) : State → Prop where
  | init : Reachable allowed machine.init
  | step {state next : State} {event : Event} (reached : Reachable allowed state)
      (isAllowed : allowed state event) (result : machine.step state event = some next) :
      Reachable allowed next

variable {machine} {allowed : State → Event → Prop}

/-- What holds at the start and is kept by every allowed step holds in every reachable
state. -/
theorem Reachable.invariant (holds : State → Prop) (start : holds machine.init)
    (kept : ∀ state event next, holds state → allowed state event →
      machine.step state event = some next → holds next)
    {state : State} (reached : machine.Reachable allowed state) : holds state := by
  induction reached with
  | init => exact start
  | step _ isAllowed result ih => exact kept _ _ _ ih isAllowed result

/-- A run under a stricter rule is a run. -/
theorem Reachable.weaken {other : State → Event → Prop}
    (weaker : ∀ state event, allowed state event → other state event) {state : State}
    (reached : machine.Reachable allowed state) : machine.Reachable other state := by
  induction reached with
  | init => exact .init
  | step _ isAllowed result ih => exact .step ih (weaker _ _ isAllowed) result

/-- The state after a list of events, if every one is allowed and possible. -/
def run (machine : Machine State Event) (allowed : State → Event → Prop)
    [∀ state event, Decidable (allowed state event)] : State → List Event → Option State
  | state, [] => some state
  | state, event :: events =>
      if allowed state event then (machine.step state event).bind (machine.run allowed · events)
      else none

theorem reachable_of_run [∀ state event, Decidable (allowed state event)] {events : List Event}
    {finish : State} (result : machine.run allowed machine.init events = some finish) :
    machine.Reachable allowed finish := by
  have continues : ∀ (events : List Event) (state : State), machine.Reachable allowed state →
      machine.run allowed state events = some finish → machine.Reachable allowed finish := by
    intro events
    induction events with
    | nil =>
        intro state reached result
        cases result
        exact reached
    | cons event events ih =>
        intro state reached result
        rw [run] at result
        split at result
        next isAllowed =>
          rcases Option.bind_eq_some_iff.mp result with ⟨next, stepped, rest⟩
          exact ih next (.step reached isAllowed stepped) rest
        next => exact absurd result (by simp)
  exact continues events machine.init .init result

/-- What every allowed step keeps is kept by a run. -/
theorem run_invariant [∀ state event, Decidable (allowed state event)] (holds : State → Prop)
    (kept : ∀ state event next, holds state → allowed state event →
      machine.step state event = some next → holds next)
    {state finish : State} (start : holds state) {events : List Event}
    (result : machine.run allowed state events = some finish) : holds finish := by
  induction events generalizing state with
  | nil =>
      cases result
      exact start
  | cons event events ih =>
      rw [run] at result
      split at result
      next isAllowed =>
        rcases Option.bind_eq_some_iff.mp result with ⟨next, stepped, rest⟩
        exact ih (kept state event next start isAllowed stepped) rest
      next => exact absurd result (by simp)

end Machine

/-! ## Histories -/

section History

variable {Occurrence : Type*}

/-- Every occurrence satisfied a property with respect to what came before it. -/
def Throughout (holds : Occurrence → List Occurrence → Prop) (history : List Occurrence) : Prop :=
  ∀ later occurrence earlier, history = later ++ occurrence :: earlier → holds occurrence earlier

variable {holds : Occurrence → List Occurrence → Prop}

theorem throughout_nil : Throughout holds [] := by
  intro later occurrence earlier empty
  exact absurd empty.symm (List.append_ne_nil_of_right_ne_nil later (List.cons_ne_nil _ _))

theorem throughout_cons {latest : Occurrence} {history : List Occurrence} :
    Throughout holds (latest :: history) ↔ holds latest history ∧ Throughout holds history := by
  constructor
  · intro all
    refine ⟨all [] latest history rfl, ?_⟩
    intro later occurrence earlier split
    exact all (latest :: later) occurrence earlier (by rw [split, List.cons_append])
  · rintro ⟨first, rest⟩ later occurrence earlier split
    cases later with
    | nil =>
        rw [List.nil_append, List.cons.injEq] at split
        rcases split with ⟨rfl, rfl⟩
        exact first
    | cons newest later =>
        rw [List.cons_append, List.cons.injEq] at split
        exact rest later occurrence earlier split.2

end History

end Foundation
