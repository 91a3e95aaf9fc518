import BelugaManager.DomainApi.IsolatedProvider

/-!
# Runs of the isolation boundary

Every completed call is answered as it should be exactly if its fallback result can be
built, and slots are held as long as the provider works, whatever callers see.
-/

namespace BelugaManager.DomainApi

open Foundation

/-! ## What a step does to a call -/

/-- The call that an event creates or changes. -/
inductive CallStep (wording : Wording) (options : IsolatedProviderOptions) :
    Option IsolatedCall → IsolatedCall → Prop where
  | refuse (requested startedAt : ℤ) (readings : Readings) :
      CallStep wording options none {
        requested := requested
        startedAt := startedAt
        invocation := .refused
        timer := false
        race := some .overloaded
        readings := some (readings, readings)
        answer := some
          (answer wording options requested startedAt .overloaded readings readings) }
  | start (requested startedAt : ℤ) :
      CallStep wording options none {
        requested := requested
        startedAt := startedAt
        invocation := .running
        timer := true
        race := none
        readings := none
        answer := none }
  | settle (call : IsolatedCall) (decided : Decided) (running : call.invocation = .running) :
      CallStep wording options (some call)
        { call with invocation := .settled, race := call.race.or (some decided) }
  | handle (call : IsolatedCall) (settled : call.invocation = .settled) :
      CallStep wording options (some call) { call with invocation := .handled }
  | timeout (call : IsolatedCall) (armed : call.timer = true) :
      CallStep wording options (some call)
        { call with timer := false, race := call.race.or (some .timedOut) }
  | resume (call : IsolatedCall) (decided : Decided) (first second : Readings)
      (race : call.race = some decided) (unanswered : call.answer = none) :
      CallStep wording options (some call) { call with
        timer := false
        readings := some (first, second)
        answer := some
          (answer wording options call.requested call.startedAt decided first second) }

/-- The answer of a call is the one for its race and its readings. -/
def Answered (wording : Wording) (options : IsolatedProviderOptions) (call : IsolatedCall) :
    Prop :=
  ∀ result, call.answer = some result → ∃ decided first second, call.race = some decided ∧
    call.readings = some (first, second) ∧
      result = answer wording options call.requested call.startedAt decided first second

section CallStep

variable {wording : Wording} {options : IsolatedProviderOptions} {old : Option IsolatedCall}
  {new : IsolatedCall}

theorem CallStep.answered (stepped : CallStep wording options old new)
    (before : ∀ call, old = some call → Answered wording options call) :
    Answered wording options new := by
  cases stepped with
  | refuse requested startedAt readings =>
      intro result isAnswer
      exact ⟨_, _, _, rfl, rfl, (Option.some.inj isAnswer).symm⟩
  | start requested startedAt =>
      intro result isAnswer
      cases isAnswer
  | settle call decided running =>
      intro result isAnswer
      rcases before call rfl result isAnswer with ⟨found, first, second, race, rest⟩
      exact ⟨found, first, second, by simp [race], rest⟩
  | handle call settled => exact before call rfl
  | timeout call armed =>
      intro result isAnswer
      rcases before call rfl result isAnswer with ⟨found, first, second, race, rest⟩
      exact ⟨found, first, second, by simp [race], rest⟩
  | resume call decided first second race unanswered =>
      intro result isAnswer
      exact ⟨decided, first, second, race, rfl, (Option.some.inj isAnswer).symm⟩

/-- What has been answered stays answered. -/
theorem CallStep.keeps_answer (stepped : CallStep wording options old new) {call : IsolatedCall}
    (current : old = some call) {result : Except Thrown DecisionResult}
    (isAnswer : call.answer = some result) : new.answer = some result := by
  cases stepped with
  | refuse requested startedAt readings => cases current
  | start requested startedAt => cases current
  | settle call decided running =>
      cases current
      exact isAnswer
  | handle call settled =>
      cases current
      exact isAnswer
  | timeout call armed =>
      cases current
      exact isAnswer
  | resume call decided first second race unanswered =>
      cases current
      rw [unanswered] at isAnswer
      cases isAnswer

end CallStep

namespace IsolatedProvider

variable {wording : Wording} {options : IsolatedProviderOptions} {limit : ℕ}
  {boundary next : IsolatedProvider} {event : IsolationEvent}

/-- An event concerns one call. -/
theorem step_call (result : step wording options limit boundary event = some next) :
    ∃ id new, next.calls = Function.update boundary.calls id (some new) ∧
      CallStep wording options (boundary.calls id) new := by
  cases event with
  | decide id startedAt now readings =>
      rw [step] at result
      split at result
      next => cases result
      next unknown =>
        cases result
        rw [start]
        split
        next => exact ⟨id, _, rfl, unknown ▸ .refuse _ _ _⟩
        next => exact ⟨id, _, rfl, unknown ▸ .start _ _⟩
  | resolve id value raised =>
      rw [step, settle] at result
      split at result
      next => cases result
      next call current =>
        split_ifs at result with running
        cases result
        exact ⟨id, _, rfl, current ▸ .settle call _ running⟩
  | reject id error =>
      rw [step, settle] at result
      split at result
      next => cases result
      next call current =>
        split_ifs at result with running
        cases result
        exact ⟨id, _, rfl, current ▸ .settle call _ running⟩
  | handle id =>
      rw [step, handle] at result
      split at result
      next => cases result
      next call current =>
        split_ifs at result with settled
        cases result
        exact ⟨id, _, rfl, current ▸ .handle call settled⟩
  | timeout id =>
      rw [step, timeout] at result
      split at result
      next => cases result
      next call current =>
        split_ifs at result with armed
        cases result
        exact ⟨id, _, rfl, current ▸ .timeout call armed⟩
  | resume id first second =>
      rw [step, resume] at result
      split at result
      next => cases result
      next call current =>
        split at result
        next decided race unanswered =>
          cases result
          exact ⟨id, _, rfl, current ▸ .resume call decided first second race unanswered⟩
        next => cases result

theorem answered_of_reachable {machine : Machine IsolatedProvider IsolationEvent}
    (accepted : isolateProvider wording options = some machine)
    (reached : machine.Reachable (fun _ _ => True) boundary) {id : ℕ} {call : IsolatedCall}
    (current : boundary.calls id = some call) : Answered wording options call := by
  rw [isolateProvider, Option.map_eq_some_iff] at accepted
  rcases accepted with ⟨limit, _, rfl⟩
  have all : ∀ id call, boundary.calls id = some call → Answered wording options call := by
    refine reached.invariant
      (fun boundary => ∀ id call, boundary.calls id = some call → Answered wording options call)
      ?_ ?_
    · intro id call absent
      cases absent
    · intro boundary event next before _ result id call current
      rcases step_call result with ⟨changed, new, calls, stepped⟩
      rw [calls] at current
      rcases eq_or_ne id changed with rfl | different
      · rw [Function.update_self, Option.some.injEq] at current
        exact current ▸ stepped.answered fun old isOld => before id old isOld
      · rw [Function.update_of_ne different] at current
        exact before id call current
  exact all id call current

end IsolatedProvider

/-! ## Answers -/

/-- In every run, whatever the provider and the clock do, a completed call resolves with what
its race demands exactly if its fallback result can be built where it needs one. -/
theorem isolation_answers_iff {wording : Wording} {options : IsolatedProviderOptions}
    {machine : Machine IsolatedProvider IsolationEvent}
    (accepted : isolateProvider wording options = some machine) {boundary : IsolatedProvider}
    (reached : machine.Reachable (fun _ _ => True) boundary) {id : ℕ} {call : IsolatedCall}
    (current : boundary.calls id = some call) {result : Except Thrown DecisionResult}
    (completed : call.answer = some result) :
    ∃ decided first second, call.race = some decided ∧ call.readings = some (first, second) ∧
      (Meets result decided ↔ FallsBack call.startedAt first decided) := by
  rcases IsolatedProvider.answered_of_reachable accepted reached current result completed with
    ⟨decided, first, second, race, readings, rfl⟩
  exact ⟨decided, first, second, race, readings, meets_answer_iff _ _ _ _ _ _ _⟩

/-- Texts that do not matter. -/
def plainWording : Wording := ⟨fun _ => "", fun _ => ""⟩

def oneAtATime : IsolatedProviderOptions := ⟨none, some (.ofNat 1)⟩

/-- A provider with a name, read at some time. -/
def namedAt (now : ℤ) : Readings := ⟨.string "rules", .string "v1", .ok "", .ok "", now⟩

/-- The boundary of `oneAtATime`. -/
def narrowBoundary : Machine IsolatedProvider IsolationEvent where
  init := IsolatedProvider.init
  step := IsolatedProvider.step plainWording oneAtATime 1

theorem narrow_accepted : isolateProvider plainWording oneAtATime = some narrowBoundary := by
  have limit : oneAtATime.limit = some 1 := by decide +kernel
  rw [isolateProvider, limit]
  rfl

/-- A call that started at 1000 was not answered in time and goes on at some other time. -/
theorem exists_late (now : ℤ) : ∃ boundary call,
    narrowBoundary.Reachable (fun _ _ => True) boundary ∧ boundary.calls 0 = some call ∧
    call.startedAt = 1000 ∧ call.race = some .timedOut ∧
    call.readings = some (namedAt now, namedAt now) ∧ call.answer =
      some (answer plainWording oneAtATime 1000 1000 .timedOut (namedAt now) (namedAt now)) := by
  have started := @Machine.Reachable.step _ _ narrowBoundary (fun _ _ => True) _ _
    (.decide 0 1000 (some 1000) (namedAt 1000)) .init trivial rfl
  have timedOut := @Machine.Reachable.step _ _ narrowBoundary (fun _ _ => True) _ _
    (.timeout 0) started trivial rfl
  have resumed := @Machine.Reachable.step _ _ narrowBoundary (fun _ _ => True) _ _
    (.resume 0 (namedAt now) (namedAt now)) timedOut trivial rfl
  exact ⟨_, _, resumed, rfl, rfl, rfl, rfl, rfl⟩

theorem isolation_answers_iff_inTime : ∃ (call : IsolatedCall)
    (result : Except Thrown DecisionResult), call.race = some .timedOut ∧
      call.answer = some result ∧ Meets result .timedOut := by
  rcases exists_late 1500 with
    ⟨boundary, call, reached, current, startedAt, race, readings, isAnswer⟩
  rcases isolation_answers_iff narrow_accepted reached current isAnswer with
    ⟨decided, first, second, isRace, areReadings, meets⟩
  rw [race, Option.some.injEq] at isRace
  rw [readings, Option.some.injEq, Prod.mk.injEq] at areReadings
  rw [← isRace, ← areReadings.1, startedAt] at meets
  exact ⟨call, _, race, isAnswer, meets.mpr ⟨⟨_, rfl⟩, by decide⟩⟩

/-- A clock that goes back makes a call reject. -/
theorem isolation_rejects : ¬ ∀ boundary, narrowBoundary.Reachable (fun _ _ => True) boundary →
    ∀ id call result decided, boundary.calls id = some call → call.answer = some result →
      call.race = some decided → Meets result decided := by
  intro claimed
  rcases exists_late 999 with ⟨boundary, call, reached, current, _, race, _, isAnswer⟩
  have meets := claimed boundary reached 0 call _ .timedOut current isAnswer race
  have usable := (meets_answer_iff _ _ _ _ _ _ _).mp meets
  exact absurd usable.2 (by decide)

/-! ## Slots -/

namespace Invocation

def standing : Invocation → Standing
  | .refused => .refused
  | .running => .owner
  | .settled => .owner
  | .handled => .finished

theorem standing_eq_owner_iff (invocation : Invocation) :
    invocation.standing = .owner ↔ invocation = .running ∨ invocation = .settled := by
  cases invocation <;> simp [standing]

end Invocation

namespace IsolatedProvider

def pool (boundary : IsolatedProvider) : SlotPool ℕ where
  inUse := boundary.activeCalls
  waiters := []
  standing := fun id => (boundary.calls id).elim .outside (·.invocation.standing)
  log := boundary.log

theorem standing_of_call {boundary : IsolatedProvider} {id : ℕ} {call : IsolatedCall}
    (current : boundary.calls id = some call) :
    boundary.pool.standing id = call.invocation.standing := by
  simp [pool, current]

theorem standing_update (boundary : IsolatedProvider) (id : ℕ) (call : IsolatedCall) :
    (fun other => (Function.update boundary.calls id (some call) other).elim Standing.outside
      (·.invocation.standing)) =
        Function.update boundary.pool.standing id call.invocation.standing := by
  funext other
  rcases eq_or_ne other id with rfl | different
  · simp
  · simp [different, pool]

variable {wording : Wording} {options : IsolatedProviderOptions} {limit : ℕ}
  {boundary next : IsolatedProvider} {event : IsolationEvent}

/-- A call whose standing does not change leaves the pool as it is. -/
theorem stay_setCall {id : ℕ} {old new : IsolatedCall} (current : boundary.calls id = some old)
    (same : old.invocation.standing = new.invocation.standing) :
    SlotPool.Step limit 0 boundary.pool (boundary.setCall id new).pool := by
  have stands := (standing_of_call current).trans same
  have unchanged : (boundary.setCall id new).pool = boundary.pool := by
    rw [pool, setCall, standing_update, ← stands, Function.update_eq_self]
    rfl
  rw [unchanged]
  exact .stay

/-- Starting an invocation takes a slot and handling its settlement gives it back. -/
theorem step_pool (result : step wording options limit boundary event = some next) :
    SlotPool.Step limit 0 boundary.pool next.pool := by
  cases event with
  | decide id startedAt now readings =>
      rw [step] at result
      split at result
      next => cases result
      next unknown =>
        cases result
        have new : boundary.pool.standing id = .outside := by simp [pool, unknown]
        rw [start]
        split
        next =>
          convert SlotPool.Step.refuse id new
          rw [pool, setCall, standing_update]
          rfl
        next free =>
          convert SlotPool.Step.take id new (not_le.mp free)
          rw [pool, setCall, standing_update]
          rfl
  | resolve id value raised =>
      rw [step, settle] at result
      split at result
      next => cases result
      next call current =>
        split_ifs at result with running
        cases result
        exact stay_setCall current (by rw [running]; rfl)
  | reject id error =>
      rw [step, settle] at result
      split at result
      next => cases result
      next call current =>
        split_ifs at result with running
        cases result
        exact stay_setCall current (by rw [running]; rfl)
  | handle id =>
      rw [step, handle] at result
      split at result
      next => cases result
      next call current =>
        split_ifs at result with settled
        cases result
        have stands := standing_of_call current
        rw [settled] at stands
        convert SlotPool.Step.release id stands
        rw [pool, setCall, standing_update]
        rfl
  | timeout id =>
      rw [step, timeout] at result
      split at result
      next => cases result
      next call current =>
        split_ifs at result with armed
        cases result
        exact stay_setCall current rfl
  | resume id first second =>
      rw [step, resume] at result
      split at result
      next => cases result
      next call current =>
        split at result
        next decided race unanswered =>
          cases result
          exact stay_setCall current rfl
        next => cases result

/-- The provider works for a call, or its settlement has not been handled. -/
def Outstanding (boundary : IsolatedProvider) (id : ℕ) : Prop :=
  ∃ call, boundary.calls id = some call ∧
    (call.invocation = .running ∨ call.invocation = .settled)

theorem outstanding_iff (boundary : IsolatedProvider) (id : ℕ) :
    boundary.Outstanding id ↔ boundary.pool.standing id = .owner := by
  cases current : boundary.calls id with
  | none => simp [Outstanding, pool, current]
  | some call =>
      rw [standing_of_call current, Invocation.standing_eq_owner_iff, Outstanding, current]
      constructor
      · intro ⟨other, same, isOpen⟩
        cases same
        exact isOpen
      · exact fun isOpen => ⟨call, rfl, isOpen⟩

/-- Only handling a settlement frees a slot. -/
theorem handle_of_lower (result : step wording options limit boundary event = some next)
    (lower : next.activeCalls < boundary.activeCalls) : ∃ id call, event = .handle id ∧
      boundary.calls id = some call ∧ call.invocation = .settled := by
  have unchanged : ∀ id call, ¬ (boundary.setCall id call).activeCalls < boundary.activeCalls :=
    fun _ _ => lt_irrefl _
  cases event with
  | decide id startedAt now readings =>
      rw [step] at result
      split at result
      next => cases result
      next =>
        cases result
        rw [start] at lower
        split at lower
        next => exact absurd lower (lt_irrefl _)
        next => exact absurd lower (not_lt.mpr (Int.le_add_one le_rfl))
  | resolve id value raised =>
      rw [step, settle] at result
      split at result
      next => cases result
      next =>
        split_ifs at result
        cases result
        exact absurd lower (unchanged _ _)
  | reject id error =>
      rw [step, settle] at result
      split at result
      next => cases result
      next =>
        split_ifs at result
        cases result
        exact absurd lower (unchanged _ _)
  | handle id =>
      rw [step, handle] at result
      split at result
      next => cases result
      next call current =>
        split_ifs at result with settled
        exact ⟨id, call, rfl, current, settled⟩
  | timeout id =>
      rw [step, timeout] at result
      split at result
      next => cases result
      next =>
        split_ifs at result
        cases result
        exact absurd lower (unchanged _ _)
  | resume id first second =>
      rw [step, resume] at result
      split at result
      next => cases result
      next =>
        split at result
        next =>
          cases result
          exact absurd lower (unchanged _ _)
        next => cases result

/-- A call that starts while all slots are taken is refused, any other invokes the provider. -/
theorem start_call {id : ℕ} {startedAt : ℤ} {now : Option ℤ} {readings : Readings}
    (result : step wording options limit boundary (.decide id startedAt now readings) =
      some next) : ∃ call, next.calls id = some call ∧ call.startedAt = startedAt ∧
        (call.invocation = .refused ↔ boundary.activeCalls ≥ limit) ∧
          (boundary.activeCalls ≥ limit → call.answer =
            some (answer wording options (now.getD startedAt) startedAt .overloaded
              readings readings)) := by
  rw [step] at result
  split at result
  next => cases result
  next =>
    cases result
    rw [start]
    split
    next busy =>
      exact ⟨_, Function.update_self id _ _, rfl, iff_of_true rfl busy, fun _ => rfl⟩
    next free =>
      exact ⟨_, Function.update_self id _ _, rfl, iff_of_false (by simp) free,
        fun busy => absurd busy free⟩

end IsolatedProvider

/-- What holds of the slots of a boundary, in a state and for the step that follows. -/
structure SlotsHeld (machine : Machine IsolatedProvider IsolationEvent) (limit : ℕ)
    (boundary : IsolatedProvider) : Prop where
  /-- The counter is the number of outstanding invocations. -/
  counter : ∃ ids : List ℕ, ids.Nodup ∧ (∀ id, id ∈ ids ↔ boundary.Outstanding id) ∧
    boundary.activeCalls = ids.length
  withinLimit : boundary.activeCalls ≤ limit
  /-- An invocation frees its slot once, when its settlement is handled. -/
  freedOnce : boundary.log.released.Nodup
  freed : ∀ id ∈ boundary.log.released, ∃ call, boundary.calls id = some call ∧
    call.invocation = .handled
  lowered : ∀ event next, machine.step boundary event = some next →
    next.activeCalls < boundary.activeCalls → ∃ id call, event = .handle id ∧
      boundary.calls id = some call ∧ call.invocation = .settled
  /-- What has been returned does not change. -/
  final : ∀ event next, machine.step boundary event = some next → ∀ id call result,
    boundary.calls id = some call → call.answer = some result →
      ∃ later, next.calls id = some later ∧ later.answer = some result

/-- A call is answered that the boundary is overloaded, and the provider is not invoked. -/
def ShedCall (boundary : IsolatedProvider) (id : ℕ) : Prop :=
  ∃ call result, boundary.calls id = some call ∧ call.invocation = .refused ∧
    call.answer = some result ∧ Abstains result .isolationOverloaded

section Slots

variable {wording : Wording} {options : IsolatedProviderOptions}
  {machine : Machine IsolatedProvider IsolationEvent} {limit : ℕ} {boundary : IsolatedProvider}

theorem handled_of_released (orderly : boundary.pool.Orderly limit 0) {id : ℕ}
    (released : id ∈ boundary.log.released) :
    ∃ call, boundary.calls id = some call ∧ call.invocation = .handled := by
  have granted : id ∈ boundary.pool.log.granted := orderly.releasedOwn id released
  cases current : boundary.calls id with
  | none =>
      have outside : boundary.pool.standing id = .outside := by
        simp [IsolatedProvider.pool, current]
      exact absurd (orderly.arrived_of_granted granted) (orderly.manned.outside id outside)
  | some call =>
      refine ⟨call, rfl, ?_⟩
      have stands := IsolatedProvider.standing_of_call current
      have notOwner : boundary.pool.standing id ≠ .owner := by
        intro owner
        exact (SlotPool.mem_owners.mp ((orderly.manned.owning id).mp owner)).2 released
      have notRefused : boundary.pool.standing id ≠ .refused := by
        intro refused
        exact (orderly.refusedApart id (orderly.manned.refusing id refused)).1 granted
      rw [stands] at notOwner notRefused
      cases invoked : call.invocation with
      | refused => exact absurd (by rw [invoked]; rfl) notRefused
      | running => exact absurd (by rw [invoked]; rfl) notOwner
      | settled => exact absurd (by rw [invoked]; rfl) notOwner
      | handled => rfl

/-- In every run slots are held until the provider has settled; a call that starts is shed
exactly if all slots are taken, provided that its fallback result can be built then. -/
theorem isolation_slots_iff (accepted : isolateProvider wording options = some machine)
    (isLimit : options.limit = some limit)
    (reached : machine.Reachable (fun _ _ => True) boundary) :
    SlotsHeld machine limit boundary ∧ ∀ id startedAt now readings next,
      machine.step boundary (.decide id startedAt now readings) = some next →
        ((ShedCall next id ↔ boundary.activeCalls = limit) ↔
          (boundary.activeCalls = limit → readings.Usable startedAt)) := by
  rw [isolateProvider, isLimit, Option.map_some, Option.some.injEq] at accepted
  subst accepted
  have orderly : boundary.pool.Orderly limit 0 :=
    reached.invariant (fun boundary => boundary.pool.Orderly limit 0)
      (.empty (Int.natCast_nonneg limit) le_rfl)
      fun _ _ _ before _ result => before.step (IsolatedProvider.step_pool result)
  refine ⟨⟨?_, orderly.withinLimit, orderly.releasedOnce, ?_, ?_, ?_⟩, ?_⟩
  · refine ⟨boundary.pool.owners, orderly.grantedOnce.filter _, ?_, orderly.inUse_eq⟩
    intro id
    rw [IsolatedProvider.outstanding_iff, orderly.manned.owning]
  · exact fun id released => handled_of_released orderly released
  · exact fun event next result lower => IsolatedProvider.handle_of_lower result lower
  · intro event next result id call found current isAnswer
    rcases IsolatedProvider.step_call result with ⟨changed, new, calls, stepped⟩
    rw [calls]
    rcases eq_or_ne id changed with rfl | different
    · exact ⟨new, Function.update_self id _ _, stepped.keeps_answer current isAnswer⟩
    · exact ⟨call, by rw [Function.update_of_ne different, current], isAnswer⟩
  · intro id startedAt now readings next result
    rcases IsolatedProvider.start_call result with ⟨call, current, _, refused, overloaded⟩
    have full : boundary.activeCalls ≥ limit ↔ boundary.activeCalls = limit :=
      ⟨fun busy => le_antisymm orderly.withinLimit busy, fun same => same.ge⟩
    rw [full] at refused overloaded
    by_cases taken : boundary.activeCalls = limit
    · have isAnswer := overloaded taken
      have shed : ShedCall next id ↔ readings.Usable startedAt := by
        have meets := meets_answer_iff wording options (now.getD startedAt) startedAt .overloaded
          readings readings
        constructor
        · intro ⟨other, found, isOther, _, isFound, abstains⟩
          rw [current, Option.some.injEq] at isOther
          rw [← isOther, isAnswer, Option.some.injEq] at isFound
          exact meets.mp (isFound ▸ abstains)
        · exact fun usable =>
            ⟨call, _, current, refused.mpr taken, isAnswer, meets.mpr usable⟩
      simp [taken, shed]
    · have notShed : ¬ ShedCall next id := by
        intro ⟨other, _, isOther, isRefused, _⟩
        rw [current, Option.some.injEq] at isOther
        exact taken (refused.mp (isOther ▸ isRefused))
      simp [taken, notShed]

end Slots

/-- While one call works, a second one starts, and the clock shows some time when its fallback
result is built. -/
theorem exists_full (now : ℤ) :
    ∃ boundary next, narrowBoundary.Reachable (fun _ _ => True) boundary ∧
    boundary.activeCalls = (1 : ℕ) ∧
      narrowBoundary.step boundary (.decide 1 1000 none (namedAt now)) = some next := by
  have started := @Machine.Reachable.step _ _ narrowBoundary (fun _ _ => True) _ _
    (.decide 0 1000 (some 1000) (namedAt 1000)) .init trivial rfl
  exact ⟨_, _, started, rfl, rfl⟩

theorem isolation_slots_iff_full : ∃ boundary next,
    narrowBoundary.step boundary (.decide 1 1000 none (namedAt 1000)) = some next ∧
      SlotsHeld narrowBoundary 1 boundary ∧ ShedCall next 1 := by
  rcases exists_full 1000 with ⟨boundary, next, reached, full, result⟩
  rcases isolation_slots_iff narrow_accepted (by decide +kernel : oneAtATime.limit = some 1)
    reached with ⟨held, shed⟩
  have exactly := (shed 1 1000 none (namedAt 1000) next result).mpr fun _ => ⟨⟨_, rfl⟩, by decide⟩
  exact ⟨boundary, next, result, held, exactly.mpr full⟩

/-- A clock that goes back makes a call reject that should be shed. -/
theorem isolation_sheds_nothing :
    ¬ ∀ boundary, narrowBoundary.Reachable (fun _ _ => True) boundary →
    ∀ id startedAt now readings next,
      narrowBoundary.step boundary (.decide id startedAt now readings) = some next →
        (ShedCall next id ↔ boundary.activeCalls = (1 : ℕ)) := by
  intro claimed
  rcases exists_full 999 with ⟨boundary, next, reached, full, result⟩
  rcases (claimed boundary reached 1 1000 none (namedAt 999) next result).mpr full with
    ⟨call, found, isCall, _, isFound, abstains⟩
  rcases IsolatedProvider.start_call result with ⟨other, isOther, _, _, overloaded⟩
  rw [isCall, Option.some.injEq] at isOther
  rw [← isOther, isFound, Option.some.injEq] at overloaded
  rw [overloaded (le_of_eq full.symm)] at abstains
  have usable := (meets_answer_iff _ _ _ _ .overloaded _ (namedAt 999)).mp abstains
  exact absurd usable.2 (by decide)

end BelugaManager.DomainApi
