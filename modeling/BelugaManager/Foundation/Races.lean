import Mathlib.Data.List.Basic

/-!
# Parties that race

Parties take the events of one log, each its own.  The events of others make no difference to a
party.  A party waits for what it needs until it has it all or something ends the wait; from then
on it is settled.
-/

namespace Foundation

section Interleaving

variable {σ ε : Type*} (step : σ → ε → σ)

/-- A party takes an event. -/
def takeEvent (parties : List σ) (entry : ℕ × ε) : List σ :=
  parties.modify entry.1 (step · entry.2)

/-- The parties after the events of a log. -/
def interleave (parties : List σ) (log : List (ℕ × ε)) : List σ :=
  log.foldl (takeEvent step) parties

/-- The events of a party, in order. -/
def ownEvents (i : ℕ) (log : List (ℕ × ε)) : List ε := (log.filter (·.1 = i)).map Prod.snd

theorem ownEvents_append (i : ℕ) (log later : List (ℕ × ε)) :
    ownEvents i (log ++ later) = ownEvents i log ++ ownEvents i later := by
  rw [ownEvents, List.filter_append, List.map_append]
  rfl

/-- A party is where its own events take it. -/
theorem getElem?_interleave (parties : List σ) (log : List (ℕ × ε)) (i : ℕ) :
    (interleave step parties log)[i]? =
      parties[i]?.map fun party => (ownEvents i log).foldl step party := by
  induction log generalizing parties with
  | nil => exact Option.map_id'.symm
  | cons entry log ih =>
      rw [interleave, List.foldl_cons]
      refine (ih (takeEvent step parties entry)).trans ?_
      rw [takeEvent, List.getElem?_modify]
      by_cases own : entry.1 = i
      · rw [ownEvents, ownEvents, List.filter_cons_of_pos (by simpa using own), List.map_cons]
        simp [own, Function.comp_def]
      · rw [ownEvents, ownEvents, List.filter_cons_of_neg (by simpa using own)]
        simp [own]

end Interleaving

/-! ## Settling once -/

/-- What a party waits for: events are absorbed until everything is there, unless one of them ends
the wait. -/
structure Race (σ ε ρ : Type*) where
  absorb : σ → ε → σ
  complete? : σ → Option ρ
  setback? : ε → Option ρ

inductive Racing (σ ρ : Type*) where
  | waiting (state : σ)
  | settled (result : ρ)

namespace Race

variable {σ ε ρ : Type*} (race : Race σ ε ρ)

/-- Wait on, unless the last answer has come. -/
def proceed (state : σ) : Racing σ ρ := (race.complete? state).elim (.waiting state) .settled

def step : Racing σ ρ → ε → Racing σ ρ
  | .settled result, _ => .settled result
  | .waiting state, event =>
      (race.setback? event).elim (race.proceed (race.absorb state event)) .settled

/-- A party that has settled stays as it is. -/
theorem foldl_settled (result : ρ) (events : List ε) :
    events.foldl race.step (.settled result) = .settled result := by
  induction events with
  | nil => rfl
  | cons event events ih => exact ih

/-- The events before the first setback. -/
def calm (events : List ε) : List ε := events.takeWhile fun event => (race.setback? event).isNone

/-- Where the events take a party: to what it has when all of it comes before a setback, or else to
the first setback. -/
def outcome (state : σ) (events : List ε) : Racing σ ρ :=
  ((race.complete? ((race.calm events).foldl race.absorb state)).or
    (events.findSome? race.setback?)).elim (.waiting (events.foldl race.absorb state)) .settled

/-- Nothing that comes later changes what is complete. -/
def Stable : Prop :=
  ∀ state event result, race.complete? state = some result →
    race.complete? (race.absorb state event) = some result

variable {race}

theorem Stable.foldl (stable : race.Stable) {state : σ} {result : ρ}
    (complete : race.complete? state = some result) (events : List ε) :
    race.complete? (events.foldl race.absorb state) = some result := by
  induction events generalizing state with
  | nil => exact complete
  | cons event events ih => exact ih (stable state event result complete)

theorem foldl_step (stable : race.Stable) {state : σ} (incomplete : race.complete? state = none)
    (events : List ε) :
    events.foldl race.step (.waiting state) = race.outcome state events := by
  induction events generalizing state with
  | nil => simp [outcome, calm, incomplete]
  | cons event events ih =>
      rw [List.foldl_cons, step]
      cases setback : race.setback? event with
      | some result =>
          rw [Option.elim_some, foldl_settled]
          simp [outcome, calm, setback, incomplete]
      | none =>
          rw [Option.elim_none, proceed]
          have calmer : race.calm (event :: events) = event :: race.calm events := by
            simp [calm, setback]
          cases complete : race.complete? (race.absorb state event) with
          | some result =>
              rw [Option.elim_some, foldl_settled, outcome, calmer, List.foldl_cons,
                stable.foldl complete, Option.some_or, Option.elim_some]
          | none =>
              rw [Option.elim_none, ih complete, outcome, outcome, calmer, List.foldl_cons,
                List.findSome?_cons, setback, List.foldl_cons]

end Race

end Foundation
