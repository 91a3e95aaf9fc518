import BelugaManager.DomainApi.IsolationRuns

/-!
# The rule provider behind its boundary

`createRuleProvider` of `decision/ruleProvider.ts`, which has no rules yet: it abstains from what it
cannot judge and calls the rest normal.  The decisions of the service come from a rule provider that
`isolateProvider` wraps.
-/

namespace BelugaManager.DomainApi

open Foundation

structure TelemetrySignal where
  observedAt : Option ℤ
  deriving DecidableEq, Repr

/-- The signals are in the order in which an object lists its entries. -/
structure TelemetrySnapshot where
  signals : List (String × TelemetrySignal)
  deriving DecidableEq, Repr

/-- What every object has without being given it. -/
def OBJECT_PROTOTYPE_KEYS : List String :=
  ["constructor", "__defineGetter__", "__defineSetter__", "hasOwnProperty", "__lookupGetter__",
    "__lookupSetter__", "isPrototypeOf", "propertyIsEnumerable", "toString", "valueOf",
    "__proto__", "toLocaleString"]

/-- `input.signals[name] === undefined` -/
def TelemetrySnapshot.lacks (snapshot : TelemetrySnapshot) (name : String) : Bool :=
  snapshot.signals.all (fun entry => entry.1 ≠ name) &&
    OBJECT_PROTOTYPE_KEYS.all (fun key => key ≠ name)

structure DecisionContext where
  now : ℤ
  maxAgeMs : JsNumber

/-- `date.getTime()` -/
def getTime : Option ℤ → JsNumber
  | some time => .finite time
  | none => .nan

def PROVIDER_ID : String := "rule-provider"

def PROVIDER_VERSION : String := "0.1.0"

def POLICY_VERSION : String := "v1"

/-- The number next to one tenth. -/
def SAFE_DEFAULT_CONFIDENCE : JsNumber := .finite (3602879701896397 / 36028797018963968)

structure RuleProviderOptions where
  requiredSignals : Option (List String)

/-- A rule provider, with its arithmetic and the texts of numbers and dates. -/
structure RuleProvider where
  options : RuleProviderOptions
  rounding : Rounding
  /-- What is exact is rounded to a number. -/
  numeric : ∀ exactly, rounding.round exactly ≠ .nan
  numberText : JsNumber → String
  isoText : ℤ → String

namespace RuleProvider

/-- `date.toISOString()`, which throws on an invalid date. -/
def toISOString (provider : RuleProvider) : Option ℤ → Except Thrown String
  | some time => .ok (provider.isoText time)
  | none => .error (.error (.string "Invalid time value"))

def abstain (ctx : DecisionContext) (startedAt finishedAt : ℤ) (abstainCode : AbstainCode)
    (reason : String) : Except Thrown DecisionResult :=
  parseResult {
    decision := .abstain
    confidence := .ofNat 0
    abstained := true
    abstainCode := some abstainCode
    abstainReason := some reason
    evidenceRefs := []
    provider := PROVIDER_ID
    providerVersion := PROVIDER_VERSION
    policyVersion := POLICY_VERSION
    decidedAt := ctx.now
    latencyMs := .finite ((finishedAt - startedAt : ℤ) : ℚ) }

variable (provider : RuleProvider)

def requiredSignals : List String := provider.options.requiredSignals.getD []

/-- The time from the observation of a signal to the decision. -/
def age (ctx : DecisionContext) (signal : TelemetrySignal) : JsNumber :=
  provider.rounding.sub (getTime (some ctx.now)) (getTime signal.observedAt)

def isStale (ctx : DecisionContext) (signal : TelemetrySignal) : Bool :=
  JsNumber.less ctx.maxAgeMs (provider.age ctx signal)

/-- `decide`, with the clock at its beginning and at its end. -/
def decide (input : TelemetrySnapshot) (ctx : DecisionContext) (startedAt finishedAt : ℤ) :
    Except Thrown DecisionResult :=
  if input.signals.isEmpty then
    abstain ctx startedAt finishedAt .noTelemetry "telemetry snapshot에 signal이 하나도 없다"
  else
    match provider.requiredSignals.find? input.lacks with
    | some missingSignal =>
        abstain ctx startedAt finishedAt .missingRequiredSignal
          ("필수 signal '" ++ missingSignal ++ "'이 snapshot에 없다")
    | none =>
        match input.signals.find? (fun entry => provider.isStale ctx entry.2) with
        | some (name, signal) => do
            let observedAt ← provider.toISOString signal.observedAt
            abstain ctx startedAt finishedAt .staleTelemetry
              ("signal '" ++ name ++ "'의 observedAt(" ++ observedAt ++
                ")이 freshness 기준" ++ "(maxAgeMs=" ++ provider.numberText ctx.maxAgeMs ++
                ")을 초과했다")
        | none =>
            parseResult {
              decision := .normal
              confidence := SAFE_DEFAULT_CONFIDENCE
              abstained := false
              abstainCode := none
              abstainReason := none
              evidenceRefs := []
              provider := PROVIDER_ID
              providerVersion := PROVIDER_VERSION
              policyVersion := POLICY_VERSION
              decidedAt := ctx.now
              latencyMs := .finite ((finishedAt - startedAt : ℤ) : ℚ) }

/-! ### What a snapshot deserves -/

variable (input : TelemetrySnapshot) (ctx : DecisionContext)

/-- The code with which a snapshot is turned down, if it is. -/
inductive Verdict : Option AbstainCode → Prop where
  | noTelemetry (empty : input.signals = []) : Verdict (some .noTelemetry)
  | missing (present : input.signals ≠ []) {name : String}
      (required : name ∈ provider.requiredSignals) (lacked : input.lacks name = true) :
      Verdict (some .missingRequiredSignal)
  | stale (complete : ∀ name ∈ provider.requiredSignals, input.lacks name = false)
      {entry : String × TelemetrySignal} (member : entry ∈ input.signals)
      (old : provider.isStale ctx entry.2 = true) : Verdict (some .staleTelemetry)
  | normal (present : input.signals ≠ [])
      (complete : ∀ name ∈ provider.requiredSignals, input.lacks name = false)
      (fresh : ∀ entry ∈ input.signals, provider.isStale ctx entry.2 = false) : Verdict none

variable {provider} {input} {ctx} {startedAt finishedAt : ℤ}

theorem Verdict.nonempty {code : Option AbstainCode} (verdict : provider.Verdict input ctx code)
    (coded : code ≠ some .noTelemetry) : input.signals ≠ [] := by
  cases verdict with
  | noTelemetry => exact absurd rfl coded
  | missing present => exact present
  | stale _ member => exact List.ne_nil_of_mem member
  | normal present => exact present

theorem Verdict.complete {code : Option AbstainCode} (verdict : provider.Verdict input ctx code)
    (present : input.signals ≠ []) (coded : code ≠ some .missingRequiredSignal) :
    ∀ name ∈ provider.requiredSignals, input.lacks name = false := by
  cases verdict with
  | noTelemetry empty => exact absurd empty present
  | missing => exact absurd rfl coded
  | stale complete => exact complete
  | normal _ complete => exact complete

/-- A snapshot deserves one thing only. -/
theorem Verdict.unique {code other : Option AbstainCode} (verdict : provider.Verdict input ctx code)
    (second : provider.Verdict input ctx other) : other = code := by
  cases verdict with
  | noTelemetry empty =>
      by_contra different
      exact second.nonempty different empty
  | missing present required lacked =>
      by_contra different
      have held := second.complete present different _ required
      exact Bool.noConfusion (held.symm.trans lacked)
  | stale complete member old =>
      cases second with
      | noTelemetry empty => exact absurd empty (List.ne_nil_of_mem member)
      | missing _ required lacked =>
          exact Bool.noConfusion ((complete _ required).symm.trans lacked)
      | stale => rfl
      | normal _ _ fresh => exact Bool.noConfusion ((fresh _ member).symm.trans old)
  | normal present complete fresh =>
      cases second with
      | noTelemetry empty => exact absurd empty present
      | missing _ required lacked =>
          exact Bool.noConfusion ((complete _ required).symm.trans lacked)
      | stale _ member old => exact Bool.noConfusion ((fresh _ member).symm.trans old)
      | normal => rfl

/-- The result for a code and a reason, or the normal one. -/
def ruled (ctx : DecisionContext) (startedAt finishedAt : ℤ) :
    Option (AbstainCode × String) → DecisionResult
  | some (code, reason) =>
      ⟨.abstain, .ofNat 0, true, some code, some reason, [], PROVIDER_ID, PROVIDER_VERSION,
        POLICY_VERSION, ctx.now, .finite ((finishedAt - startedAt : ℤ) : ℚ)⟩
  | none =>
      ⟨.normal, SAFE_DEFAULT_CONFIDENCE, false, none, none, [], PROVIDER_ID, PROVIDER_VERSION,
        POLICY_VERSION, ctx.now, .finite ((finishedAt - startedAt : ℤ) : ℚ)⟩

theorem append_ne_empty {start : String} (filled : start ≠ "") (rest : String) :
    start ++ rest ≠ "" := by
  intro empty
  exact filled (String.append_eq_empty_iff.mp empty).1

/-- The age of a signal is a number if the signal has a valid date. -/
theorem age_ne_nan_iff (provider : RuleProvider) (ctx : DecisionContext)
    (signal : TelemetrySignal) : provider.age ctx signal ≠ .nan ↔ signal.observedAt ≠ none := by
  cases observed : signal.observedAt with
  | none => simp [age, getTime, observed, Rounding.sub, Rounding.add, JsNumber.neg]
  | some time =>
      have numeric := provider.numeric ((ctx.now : ℚ) + -(time : ℚ))
      simpa [age, getTime, observed, Rounding.sub, Rounding.add, JsNumber.neg] using numeric

/-- A stale signal has a valid date. -/
theorem exists_observedAt {signal : TelemetrySignal} (old : provider.isStale ctx signal = true) :
    ∃ time, signal.observedAt = some time := by
  rw [← Option.ne_none_iff_exists', ← age_ne_nan_iff provider ctx]
  intro isNan
  rw [isStale, isNan] at old
  cases bound : ctx.maxAgeMs <;> simp [bound, JsNumber.less] at old

theorem decide_eq (provider : RuleProvider) (input : TelemetrySnapshot) (ctx : DecisionContext)
    (startedAt finishedAt : ℤ) :
    ∃ outcome, provider.decide input ctx startedAt finishedAt =
        parseResult (ruled ctx startedAt finishedAt outcome) ∧
      provider.Verdict input ctx (outcome.map (·.1)) ∧
      ∀ code reason, outcome = some (code, reason) → reason ≠ "" := by
  rw [decide]
  by_cases empty : input.signals = []
  · rw [if_pos (by rw [empty]; rfl)]
    refine ⟨some (.noTelemetry, _), rfl, .noTelemetry empty, ?_⟩
    intro code reason same
    cases same
    decide
  · rw [if_neg (by rwa [List.isEmpty_iff])]
    cases missing : provider.requiredSignals.find? input.lacks with
    | some name =>
        refine ⟨some (.missingRequiredSignal, _), rfl,
          .missing empty (List.mem_of_find?_eq_some missing) (List.find?_some missing), ?_⟩
        intro code reason same
        cases same
        rw [String.append_assoc]
        exact append_ne_empty (by decide) _
    | none =>
        have complete : ∀ name ∈ provider.requiredSignals, input.lacks name = false := by
          intro name required
          exact Bool.eq_false_iff.mpr (List.find?_eq_none.mp missing name required)
        cases stale : input.signals.find? (fun entry => provider.isStale ctx entry.2) with
        | some entry =>
            have old : provider.isStale ctx entry.2 = true := by
              have passes := List.find?_some stale
              exact passes
            rcases entry with ⟨name, ⟨observedAt⟩⟩
            rcases exists_observedAt old with ⟨time, observed⟩
            cases observed
            refine ⟨some (.staleTelemetry, _), rfl,
              .stale complete (List.mem_of_find?_eq_some stale) old, ?_⟩
            intro code reason same
            cases same
            simp only [String.append_assoc]
            exact append_ne_empty (by decide) _
        | none =>
            refine ⟨none, rfl, .normal empty complete ?_, fun _ _ same => by cases same⟩
            intro entry member
            exact Bool.eq_false_iff.mpr (List.find?_eq_none.mp stale entry member)

theorem ruled_accepted {outcome : Option (AbstainCode × String)}
    (filled : ∀ code reason, outcome = some (code, reason) → reason ≠ "")
    (onTime : startedAt ≤ finishedAt) : (ruled ctx startedAt finishedAt outcome).Accepted := by
  have latency := (nonnegative_iff finishedAt startedAt).mpr onTime
  have unit : ∀ value : ℚ, 0 ≤ value → value ≤ 1 → inUnitInterval (.finite value) = true := by
    intro value low high
    have lower := (JsNumber.atMost_finite 0 value).mpr low
    have upper := (JsNumber.atMost_finite value 1).mpr high
    simp only [inUnitInterval, JsNumber.ofNat, Nat.cast_zero, Nat.cast_one, lower, upper,
      Bool.and_self]
  have versioned : PROVIDER_ID ≠ "" ∧ PROVIDER_VERSION ≠ "" ∧ POLICY_VERSION ≠ "" := by decide
  cases outcome with
  | none =>
      exact ⟨⟨rfl, unit _ (by norm_num) (by norm_num)⟩, (Option.some_ne_none _).symm,
        fun _ absent => absurd absent List.not_mem_nil, versioned.1, versioned.2.1, versioned.2.2,
        rfl, latency⟩
  | some outcome =>
      rcases outcome with ⟨code, reason⟩
      refine ⟨⟨rfl, unit _ (by norm_num) (by norm_num)⟩, ?_,
        fun _ absent => absurd absent List.not_mem_nil, versioned.1, versioned.2.1, versioned.2.2,
        rfl, latency⟩
      intro empty
      exact filled code reason rfl (Option.some.inj empty)

/-- A decision that is returned is accepted by the schema, normal or an abstention with a code,
and what the snapshot deserves. -/
structure Deserved (provider : RuleProvider) (input : TelemetrySnapshot) (ctx : DecisionContext)
    (result : DecisionResult) : Prop where
  accepted : result.Accepted
  verdict : provider.Verdict input ctx result.abstainCode
  decision : result.decision = if result.abstainCode = none then .normal else .abstain
  abstained : result.abstained = result.abstainCode.isSome

/-- The provider returns a decision unless the clock goes back while it decides. -/
theorem decide_deserved (provider : RuleProvider) (input : TelemetrySnapshot)
    (ctx : DecisionContext) (startedAt finishedAt : ℤ) :
    (startedAt ≤ finishedAt → ∃ result,
        provider.decide input ctx startedAt finishedAt = .ok result) ∧
      ∀ result, provider.decide input ctx startedAt finishedAt = .ok result →
        provider.Deserved input ctx result := by
  rcases decide_eq provider input ctx startedAt finishedAt with ⟨outcome, decided, verdict, filled⟩
  rw [decided]
  constructor
  · intro onTime
    exact ⟨_, parseResult_accepted (ruled_accepted filled onTime)⟩
  · intro result returned
    rcases parseResult_eq_ok returned with ⟨other, valid⟩
    have nonnegative := nonnegative_of_valid valid
    have onTime : startedAt ≤ finishedAt := by
      cases outcome with
      | none => exact (nonnegative_iff finishedAt startedAt).mp nonnegative
      | some outcome => exact (nonnegative_iff finishedAt startedAt).mp nonnegative
    have accepted := @ruled_accepted ctx _ _ _ filled onTime
    rw [parseResult_accepted accepted] at returned
    cases returned
    cases outcome with
    | none => exact ⟨accepted, verdict, rfl, rfl⟩
    | some outcome => exact ⟨accepted, verdict, rfl, rfl⟩

end RuleProvider

/-! ## Behind the boundary -/

/-- What a call is asked, apart from its time. -/
structure RuleInput where
  snapshot : TelemetrySnapshot
  maxAgeMs : JsNumber

/-- The context that the boundary passes on. -/
def RuleInput.context (input : RuleInput) (requested : ℤ) : DecisionContext :=
  ⟨requested, input.maxAgeMs⟩

/-- The boundary finds the identity of the rule provider. -/
def Readings.OfRules (readings : Readings) : Prop :=
  readings.id = .string PROVIDER_ID

namespace RuleProvider

variable (provider : RuleProvider) (inputs : ℕ → RuleInput)

/-- What decides the race of a call, where it is the provider that does. -/
def Settles (input : RuleInput) (requested : ℤ) : Decided → Prop
  | .resolved value _ => ∃ startedAt finishedAt result,
      provider.decide input.snapshot (input.context requested) startedAt finishedAt = .ok result ∧
        value = result.toUntyped
  | .rejected error => ∃ startedAt finishedAt,
      provider.decide input.snapshot (input.context requested) startedAt finishedAt = .error error
  | _ => True

/-- The events of a boundary around a rule provider. -/
def Behind (boundary : IsolatedProvider) : IsolationEvent → Prop
  | .decide _ _ _ readings => readings.OfRules
  | .resolve id value raised => ∀ call, boundary.calls id = some call →
      provider.Settles (inputs id) call.requested (.resolved value raised)
  | .reject id error => ∀ call, boundary.calls id = some call →
      provider.Settles (inputs id) call.requested (.rejected error)
  | .resume _ first second => first.OfRules ∧ second.OfRules
  | _ => True

/-- A call whose race was decided by the provider or not at all. -/
structure Honest (input : RuleInput) (call : IsolatedCall) : Prop where
  settled : ∀ decided, call.race = some decided → provider.Settles input call.requested decided
  readings : ∀ first second, call.readings = some (first, second) →
    first.OfRules ∧ second.OfRules

variable {provider} {inputs} {input : RuleInput} {call : IsolatedCall}

theorem Honest.settle (honest : provider.Honest input call) {decided : Decided}
    (settles : provider.Settles input call.requested decided) (invocation : Invocation)
    (timer : Bool) :
    provider.Honest input { call with
      invocation := invocation
      timer := timer
      race := call.race.or (some decided) } where
  settled := by
    intro found race
    rcases Option.or_eq_some_iff.mp race with first | ⟨_, same⟩
    · exact honest.settled found first
    · cases same
      exact settles
  readings := honest.readings

variable {wording : Wording} {options : IsolatedProviderOptions} {limit : ℕ}
  {boundary next : IsolatedProvider} {event : IsolationEvent}

/-- A step leaves the call that it is about honest. -/
theorem Honest.step_call (honest : ∀ id call, boundary.calls id = some call →
      provider.Honest (inputs id) call) (isBehind : provider.Behind inputs boundary event)
    (result : IsolatedProvider.step wording options limit boundary event = some next) :
    ∃ id new, next.calls = Function.update boundary.calls id (some new) ∧
      provider.Honest (inputs id) new := by
  cases event with
  | decide id startedAt now readings =>
      rw [IsolatedProvider.step] at result
      split at result
      next => cases result
      next =>
        cases result
        rw [IsolatedProvider.start]
        split
        next =>
          refine ⟨id, _, rfl, ?_, ?_⟩
          · intro decided race
            cases race
            trivial
          · intro first second same
            cases same
            exact ⟨isBehind, isBehind⟩
        next =>
          refine ⟨id, _, rfl, ?_, ?_⟩
          · intro decided race
            cases race
          · intro first second same
            cases same
  | resolve id value raised =>
      rw [IsolatedProvider.step, IsolatedProvider.settle] at result
      split at result
      next => cases result
      next call current =>
        split_ifs at result
        cases result
        exact ⟨id, _, rfl, (honest id call current).settle (isBehind call current) _ _⟩
  | reject id error =>
      rw [IsolatedProvider.step, IsolatedProvider.settle] at result
      split at result
      next => cases result
      next call current =>
        split_ifs at result
        cases result
        exact ⟨id, _, rfl, (honest id call current).settle (isBehind call current) _ _⟩
  | handle id =>
      rw [IsolatedProvider.step, IsolatedProvider.handle] at result
      split at result
      next => cases result
      next call current =>
        split_ifs at result
        cases result
        have before := honest id call current
        exact ⟨id, _, rfl, before.settled, before.readings⟩
  | timeout id =>
      rw [IsolatedProvider.step, IsolatedProvider.timeout] at result
      split at result
      next => cases result
      next call current =>
        split_ifs at result
        cases result
        have settles : provider.Settles (inputs id) call.requested .timedOut := trivial
        exact ⟨id, _, rfl, (honest id call current).settle settles _ _⟩
  | resume id first second =>
      rw [IsolatedProvider.step, IsolatedProvider.resume] at result
      split at result
      next => cases result
      next call current =>
        split at result
        next =>
          cases result
          refine ⟨id, _, rfl, (honest id call current).settled, ?_⟩
          intro one other same
          cases same
          exact isBehind
        next => cases result

theorem honest_of_reachable {machine : Machine IsolatedProvider IsolationEvent}
    (accepted : isolateProvider wording options = some machine)
    (reached : machine.Reachable (provider.Behind inputs) boundary) {id : ℕ}
    (current : boundary.calls id = some call) : provider.Honest (inputs id) call := by
  rw [isolateProvider, Option.map_eq_some_iff] at accepted
  rcases accepted with ⟨limit, _, rfl⟩
  have all : ∀ id call, boundary.calls id = some call → provider.Honest (inputs id) call := by
    refine reached.invariant (fun boundary => ∀ id call, boundary.calls id = some call →
      provider.Honest (inputs id) call) ?_ ?_
    · intro id call absent
      cases absent
    · intro boundary event next before isBehind result id call current
      rcases Honest.step_call before isBehind result with ⟨changed, new, calls, honest⟩
      rw [calls] at current
      rcases eq_or_ne id changed with rfl | different
      · rw [Function.update_self, Option.some.injEq] at current
        exact current ▸ honest
      · rw [Function.update_of_ne different] at current
        exact before id call current
  exact all id call current

end RuleProvider

/-! ### Answers -/

/-- The codes of the boundary itself. -/
def AbstainCode.OfBoundary (code : AbstainCode) : Prop :=
  code ≠ .noTelemetry ∧ code ≠ .missingRequiredSignal ∧ code ≠ .staleTelemetry

/-- A fallback result of the boundary. -/
structure FromBoundary (result : DecisionResult) : Prop where
  accepted : result.Accepted
  decision : result.decision = .abstain
  coded : ∃ code, result.abstainCode = some code ∧ code.OfBoundary

section Answer

variable {wording : Wording} {options : IsolatedProviderOptions} {requested startedAt : ℤ}
  {readings first second : Readings} {code : AbstainCode} {result : DecisionResult}

theorem fromBoundary_of_abstainWith (ofBoundary : code.OfBoundary) {rest : Except Thrown String}
    (built : abstainWith readings requested startedAt code rest = .ok result) :
    FromBoundary result := by
  rcases abstainWith_eq_ok built with ⟨usable, _, reason, filled, rfl⟩
  exact ⟨abstention_accepted filled usable.2, rfl, code, rfl, ofBoundary⟩

theorem fromBoundary_of_caught {error : Thrown}
    (built : caught requested startedAt error readings = .ok result) : FromBoundary result :=
  fromBoundary_of_abstainWith (by simp [AbstainCode.OfBoundary]) built

theorem fromBoundary_of_guarded (ofBoundary : code.OfBoundary) {rest : String}
    (built : guarded requested startedAt code rest first second = .ok result) :
    FromBoundary result := by
  rw [guarded] at built
  cases alone : abstainWith first requested startedAt code (.ok rest) with
  | ok found =>
      rw [alone] at built
      cases built
      exact fromBoundary_of_abstainWith ofBoundary alone
  | error error =>
      rw [alone] at built
      exact fromBoundary_of_caught built

theorem Readings.OfRules.usable (ofRules : readings.OfRules) (onTime : startedAt ≤ readings.now) :
    readings.Usable startedAt := by
  refine ⟨⟨PROVIDER_ID, ?_⟩, onTime⟩
  rw [ofRules]
  rfl

end Answer

namespace RuleProvider

variable {provider : RuleProvider} {input : RuleInput} {requested startedAt : ℤ}
  {decided : Decided}

theorem describable_of_settles {error : Thrown}
    (settles : provider.Settles input requested (.rejected error)) (readings : Readings) :
    Describable error readings := by
  rcases settles with ⟨begun, ended, failed⟩
  rcases decide_eq provider input.snapshot (input.context requested) begun ended with
    ⟨outcome, decided, _, _⟩
  rw [decided, parseResult] at failed
  generalize decisionResultSchema _ = parsed at failed
  cases parsed with
  | valid => cases failed
  | invalid =>
      cases failed
      exact ⟨_, rfl⟩
  | threw =>
      cases failed
      exact ⟨_, rfl⟩

/-- What a call of a wrapped rule provider is answered: what its snapshot deserves if the provider
decided in time, and otherwise a fallback result. -/
def Answers (provider : RuleProvider) (input : RuleInput) (requested : ℤ)
    (result : DecisionResult) : Decided → Prop
  | .resolved _ _ => provider.Deserved input.snapshot (input.context requested) result
  | _ => FromBoundary result

theorem answers_of_settles {wording : Wording} {options : IsolatedProviderOptions}
    {first second : Readings} (settles : provider.Settles input requested decided)
    (ofRules : first.OfRules) :
    (startedAt ≤ first.now → ∃ result,
        answer wording options requested startedAt decided first second = .ok result) ∧
      ∀ result, answer wording options requested startedAt decided first second = .ok result →
        provider.Answers input requested result decided := by
  have meets := meets_answer_iff wording options requested startedAt decided first second
  cases decided with
  | overloaded =>
      constructor
      · intro onTime
        rcases meets.mpr (ofRules.usable onTime) with ⟨result, built, _⟩
        exact ⟨result, built⟩
      · intro result built
        exact fromBoundary_of_abstainWith (by simp [AbstainCode.OfBoundary]) built
  | timedOut =>
      constructor
      · intro onTime
        rcases meets.mpr (ofRules.usable onTime) with ⟨result, built, _⟩
        exact ⟨result, built⟩
      · intro result built
        exact fromBoundary_of_guarded (by simp [AbstainCode.OfBoundary]) built
  | rejected error =>
      constructor
      · intro onTime
        rcases meets.mpr ⟨ofRules.usable onTime, describable_of_settles settles first⟩ with
          ⟨result, built, _⟩
        exact ⟨result, built⟩
      · intro result built
        exact fromBoundary_of_caught built
  | resolved value raised =>
      rcases settles with ⟨begun, ended, result, returned, rfl⟩
      have deserved := (decide_deserved provider input.snapshot (input.context requested) begun
        ended).2 result returned
      have answered : answer wording options requested startedAt
          (.resolved result.toUntyped raised) first second = .ok result := by
        rw [answer, deserved.accepted.valid, settledAnswer]
      refine ⟨fun _ => ⟨result, answered⟩, ?_⟩
      intro found same
      rw [answered] at same
      cases same
      exact deserved

/-! ### Decisions as they are listed -/

/-- A signal next to the decision that it led to. -/
structure InputSignal where
  name : String
  observedAt : String
  freshAtEvaluation : Bool

def inputSignal (provider : RuleProvider) (ctx : DecisionContext)
    (entry : String × TelemetrySignal) : Except Thrown InputSignal := do
  let observedAt ← provider.toISOString entry.2.observedAt
  return ⟨entry.1, observedAt, JsNumber.atMost (provider.age ctx entry.2) ctx.maxAgeMs⟩

/-- The signals of a decision, which is not listed if one of them has an invalid date. -/
def inputSignals (provider : RuleProvider) (snapshot : TelemetrySnapshot) (ctx : DecisionContext) :
    Except Thrown (List InputSignal) :=
  snapshot.signals.mapM (provider.inputSignal ctx)

theorem atMost_eq_not_less {a b : JsNumber} (isNumber : a ≠ .nan) (isBound : b ≠ .nan) :
    JsNumber.atMost a b = !JsNumber.less b a := by
  cases a with
  | nan => exact absurd rfl isNumber
  | finite a =>
      cases b with
      | nan => exact absurd rfl isBound
      | finite b =>
          rw [Bool.eq_iff_iff, JsNumber.atMost_finite, JsNumber.less, Bool.not_eq_true',
            decide_eq_false_iff_not, not_lt]
      | _ => simp [JsNumber.atMost, JsNumber.less]
  | _ =>
      cases b with
      | nan => exact absurd rfl isBound
      | _ => simp [JsNumber.atMost, JsNumber.less]

/-- What a caller may conclude from a decision. -/
structure Judged (provider : RuleProvider) (input : RuleInput) (ctx : DecisionContext)
    (decided : Decided) (result : DecisionResult) : Prop where
  accepted : result.Accepted
  /-- Normal are complete and fresh snapshots that were decided in time. -/
  normal_iff : result.decision = .normal ↔
    (∃ value raised, decided = .resolved value raised) ∧ provider.Verdict input.snapshot ctx none
  otherwise : result.decision ≠ .normal →
    result.decision = .abstain ∧ ∃ code, result.abstainCode = some code ∧
      (provider.Verdict input.snapshot ctx (some code) ∨ code.OfBoundary)
  /-- Signals are listed with a decision if all their dates are valid. -/
  listed_iff : (∃ signals, provider.inputSignals input.snapshot ctx = .ok signals) ↔
    ∀ entry ∈ input.snapshot.signals, entry.2.observedAt ≠ none
  /-- The listed signals are flagged accordingly; `decisionRecordSchema` refuses a bound that is
  no number. -/
  flagged : ∀ signals, provider.inputSignals input.snapshot ctx = .ok signals →
    ctx.maxAgeMs ≠ .nan →
      (result.decision = .normal → ∀ signal ∈ signals, signal.freshAtEvaluation = true) ∧
      (result.abstainCode = some .staleTelemetry →
        ∃ signal ∈ signals, signal.freshAtEvaluation = false)

variable {ctx : DecisionContext} {result : DecisionResult}

theorem inputSignal_eq_ok_iff (provider : RuleProvider) {entry : String × TelemetrySignal}
    {signal : InputSignal} : provider.inputSignal ctx entry = .ok signal ↔
      ∃ time, entry.2.observedAt = some time ∧ signal = ⟨entry.1, provider.isoText time,
        JsNumber.atMost (provider.age ctx entry.2) ctx.maxAgeMs⟩ := by
  rw [inputSignal]
  cases observed : entry.2.observedAt with
  | none => simp [toISOString, bind, Except.bind]
  | some time => simp [toISOString, bind, Except.bind, pure, Except.pure, eq_comm]

section Results

variable {ι β ε : Type} {step : ι → Except ε β}

theorem mapM_isOk_iff (items : List ι) : (∃ results, items.mapM step = .ok results) ↔
    ∀ item ∈ items, ∃ result, step item = .ok result := by
  induction items with
  | nil => exact iff_of_true ⟨[], rfl⟩ (List.forall_mem_nil _)
  | cons item rest ih =>
      rw [List.forall_mem_cons, ← ih, List.mapM_cons]
      cases first : step item with
      | error raised => simp [bind, Except.bind]
      | ok result => cases rest.mapM step <;> simp [bind, Except.bind, pure, Except.pure]

/-- Where all steps succeed, the results are those of the items. -/
theorem mem_of_mapM_eq_ok {items : List ι} {results : List β}
    (succeeded : items.mapM step = .ok results) :
    (∀ result ∈ results, ∃ item ∈ items, step item = .ok result) ∧
      ∀ item ∈ items, ∃ result ∈ results, step item = .ok result := by
  induction items generalizing results with
  | nil =>
      cases succeeded
      exact ⟨List.forall_mem_nil _, List.forall_mem_nil _⟩
  | cons item rest ih =>
      rw [List.mapM_cons] at succeeded
      cases first : step item with
      | error raised => simp [first, bind, Except.bind] at succeeded
      | ok result =>
          cases later : rest.mapM step with
          | error raised => simp [first, later, bind, Except.bind] at succeeded
          | ok others =>
              simp only [first, later, bind, Except.bind, pure, Except.pure,
                Except.ok.injEq] at succeeded
              subst succeeded
              rcases ih later with ⟨ofResult, ofItem⟩
              simp only [List.forall_mem_cons, List.exists_mem_cons_iff]
              exact ⟨⟨Or.inl first, fun other member => Or.inr (ofResult other member)⟩,
                Or.inl first, fun other member => Or.inr (ofItem other member)⟩

end Results

theorem inputSignals_isOk_iff (provider : RuleProvider) (snapshot : TelemetrySnapshot)
    (ctx : DecisionContext) : (∃ signals, provider.inputSignals snapshot ctx = .ok signals) ↔
      ∀ entry ∈ snapshot.signals, entry.2.observedAt ≠ none := by
  rw [inputSignals, mapM_isOk_iff]
  apply forall₂_congr
  intro entry _
  rw [Option.ne_none_iff_exists']
  constructor
  · rintro ⟨signal, isSignal⟩
    rcases provider.inputSignal_eq_ok_iff.mp isSignal with ⟨time, observed, _⟩
    exact ⟨time, observed⟩
  · rintro ⟨time, observed⟩
    exact ⟨_, provider.inputSignal_eq_ok_iff.mpr ⟨time, observed, rfl⟩⟩

/-- The flag of a signal says that it is not stale. -/
theorem flag_of_inputSignal (provider : RuleProvider) {entry : String × TelemetrySignal}
    {signal : InputSignal} (isSignal : provider.inputSignal ctx entry = .ok signal)
    (bounded : ctx.maxAgeMs ≠ .nan) :
    signal.freshAtEvaluation = !provider.isStale ctx entry.2 := by
  rcases provider.inputSignal_eq_ok_iff.mp isSignal with ⟨time, observed, rfl⟩
  have aged : provider.age ctx entry.2 ≠ .nan :=
    (provider.age_ne_nan_iff ctx entry.2).mpr (by rw [observed]; exact Option.some_ne_none time)
  exact atMost_eq_not_less aged bounded

theorem Deserved.flagged {snapshot : TelemetrySnapshot}
    (deserved : provider.Deserved snapshot ctx result) (signals : List InputSignal)
    (listed : provider.inputSignals snapshot ctx = .ok signals) (bounded : ctx.maxAgeMs ≠ .nan) :
    (result.decision = .normal → ∀ signal ∈ signals, signal.freshAtEvaluation = true) ∧
      (result.abstainCode = some .staleTelemetry →
        ∃ signal ∈ signals, signal.freshAtEvaluation = false) := by
  have verdict := deserved.verdict
  rcases mem_of_mapM_eq_ok listed with ⟨ofSignal, ofEntry⟩
  constructor
  · intro normal signal member
    have uncoded : result.abstainCode = none := by
      by_contra coded
      rw [deserved.decision, if_neg coded] at normal
      cases normal
    rw [uncoded] at verdict
    rcases ofSignal signal member with ⟨entry, is_entry, isSignal⟩
    cases verdict with
    | normal _ _ fresh =>
        rw [provider.flag_of_inputSignal isSignal bounded, fresh entry is_entry]
        rfl
  · intro coded
    rw [coded] at verdict
    cases verdict with
    | stale _ member old =>
        rcases ofEntry _ member with ⟨signal, is_listed, isSignal⟩
        refine ⟨signal, is_listed, ?_⟩
        rw [provider.flag_of_inputSignal isSignal bounded, old]
        rfl

theorem Deserved.judged (deserved : provider.Deserved input.snapshot ctx result) (value : Untyped)
    (raised : Thrown) : provider.Judged input ctx (.resolved value raised) result where
  accepted := deserved.accepted
  normal_iff := by
    rw [deserved.decision]
    constructor
    · intro normal
      have uncoded : result.abstainCode = none := by
        by_contra coded
        rw [if_neg coded] at normal
        cases normal
      have verdict := deserved.verdict
      rw [uncoded] at verdict
      exact ⟨⟨value, raised, rfl⟩, verdict⟩
    · rintro ⟨_, verdict⟩
      rw [if_pos (verdict.unique deserved.verdict)]
  otherwise := by
    intro abnormal
    rw [deserved.decision] at abnormal ⊢
    have verdict := deserved.verdict
    cases coded : result.abstainCode with
    | none => exact absurd (if_pos coded) abnormal
    | some code =>
        rw [coded] at verdict
        exact ⟨rfl, code, rfl, .inl verdict⟩
  listed_iff := inputSignals_isOk_iff provider input.snapshot ctx
  flagged := deserved.flagged

theorem judged_of_fromBoundary (fallback : FromBoundary result)
    (undecided : ∀ value raised, decided ≠ .resolved value raised) :
    provider.Judged input ctx decided result where
  accepted := fallback.accepted
  normal_iff := by
    constructor
    · intro normal
      exact absurd (fallback.decision.symm.trans normal) (by decide)
    · rintro ⟨⟨value, raised, resolved⟩, _⟩
      exact absurd resolved (undecided value raised)
  otherwise := by
    rcases fallback.coded with ⟨code, coded, ofBoundary⟩
    exact fun _ => ⟨fallback.decision, code, coded, .inr ofBoundary⟩
  listed_iff := inputSignals_isOk_iff provider input.snapshot ctx
  flagged := by
    intro _ _ _
    constructor
    · intro normal
      exact absurd (fallback.decision.symm.trans normal) (by decide)
    · intro stale
      rcases fallback.coded with ⟨code, coded, ofBoundary⟩
      exact absurd (Option.some.inj (coded.symm.trans stale)) ofBoundary.2.2

theorem Answers.judged (answers : provider.Answers input requested result decided) :
    provider.Judged input (input.context requested) decided result := by
  cases decided with
  | resolved value raised => exact Deserved.judged answers value raised
  | overloaded => exact judged_of_fromBoundary answers (by simp)
  | timedOut => exact judged_of_fromBoundary answers (by simp)
  | rejected error => exact judged_of_fromBoundary answers (by simp)

end RuleProvider

/-- In every run of a boundary around a rule provider, a completed call has a result unless the
clock has gone back, and a result is normal exactly if the provider decided in time on a snapshot
that is complete and fresh; otherwise it abstains for a reason that holds, and the signals that are
listed with it are flagged in the same way. -/
theorem rule_decisions_judged {wording : Wording} {options : IsolatedProviderOptions}
    {machine : Machine IsolatedProvider IsolationEvent}
    (accepted : isolateProvider wording options = some machine) (provider : RuleProvider)
    (inputs : ℕ → RuleInput) {boundary : IsolatedProvider}
    (reached : machine.Reachable (provider.Behind inputs) boundary) {id : ℕ} {call : IsolatedCall}
    (current : boundary.calls id = some call) {found : Except Thrown DecisionResult}
    (completed : call.answer = some found) :
    ∃ decided first second, call.race = some decided ∧ call.readings = some (first, second) ∧
      (call.startedAt ≤ first.now → ∃ result, found = .ok result) ∧
      ∀ result, found = .ok result →
        provider.Judged (inputs id) ((inputs id).context call.requested) decided result := by
  have anyhow : machine.Reachable (fun _ _ => True) boundary :=
    reached.weaken fun _ _ _ => trivial
  rcases IsolatedProvider.answered_of_reachable accepted anyhow current found completed with
    ⟨decided, first, second, race, readings, rfl⟩
  have honest := RuleProvider.honest_of_reachable accepted reached current
  rcases RuleProvider.answers_of_settles (honest.settled decided race)
    (honest.readings first second readings).1 with ⟨returns, answers⟩
  refine ⟨decided, first, second, race, readings, returns, ?_⟩
  intro result built
  exact (answers result built).judged

def defaultRules : RuleProvider where
  options := ⟨none⟩
  rounding := .lossless
  numeric := fun _ isNan => JsNumber.noConfusion isNan
  numberText := fun _ => ""
  isoText := fun _ => ""

/-- One signal, observed three minutes before the call that is asked for one minute at most. -/
def staleInput : RuleInput := ⟨⟨[("k8s.workload.cpu", ⟨some 0⟩)]⟩, .ofNat 60000⟩

def rulesAt (now : ℤ) : Readings :=
  ⟨.string PROVIDER_ID, .string PROVIDER_VERSION, .ok "", .ok "", now⟩

theorem stale_undeserving :
    ¬defaultRules.Verdict staleInput.snapshot (staleInput.context 180000) none := by
  intro verdict
  cases verdict with
  | normal _ _ fresh =>
      have stale : defaultRules.isStale (staleInput.context 180000) ⟨some 0⟩ = true := by
        decide +kernel
      exact Bool.noConfusion ((fresh _ (List.mem_singleton.mpr rfl)).symm.trans stale)

/-- A call for that signal, whose provider decides at once. -/
theorem exists_stale : ∃ boundary call found,
    narrowBoundary.Reachable (defaultRules.Behind fun _ => staleInput) boundary ∧
      boundary.calls 0 = some call ∧ call.answer = some found ∧ call.requested = 180000 ∧
      call.startedAt = 180000 ∧ call.readings = some (rulesAt 180001, rulesAt 180001) := by
  rcases (RuleProvider.decide_deserved defaultRules staleInput.snapshot
    (staleInput.context 180000) 180000 180000).1 le_rfl with ⟨decision, returned⟩
  have started := @Machine.Reachable.step _ _ narrowBoundary
    (defaultRules.Behind fun _ => staleInput) _ _
    (.decide 0 180000 (some 180000) (rulesAt 180000)) .init rfl rfl
  have resolved := @Machine.Reachable.step _ _ narrowBoundary
    (defaultRules.Behind fun _ => staleInput) _ _
    (.resolve 0 decision.toUntyped (.error .undefined)) started
    (fun call current => by
      cases Option.some.inj current
      exact ⟨180000, 180000, decision, returned, rfl⟩) rfl
  have resumed := @Machine.Reachable.step _ _ narrowBoundary
    (defaultRules.Behind fun _ => staleInput) _ _
    (.resume 0 (rulesAt 180001) (rulesAt 180001)) resolved ⟨rfl, rfl⟩ rfl
  exact ⟨_, _, _, resumed, rfl, rfl, rfl, rfl, rfl⟩

theorem rule_decisions_judged_stale : ∃ boundary call result,
    narrowBoundary.Reachable (defaultRules.Behind fun _ => staleInput) boundary ∧
      boundary.calls 0 = some call ∧ call.answer = some (.ok result) ∧
      result.decision = .abstain := by
  rcases exists_stale with
    ⟨boundary, call, found, reached, current, completed, requested, startedAt, is_read⟩
  rcases rule_decisions_judged narrow_accepted defaultRules (fun _ => staleInput) reached current
    completed with ⟨decided, first, second, race, readings, returns, judged⟩
  cases is_read.symm.trans readings
  have onTime : call.startedAt ≤ (rulesAt 180001).now := by
    rw [startedAt]
    decide
  rcases returns onTime with ⟨result, rfl⟩
  have is_judged := judged result rfl
  have abnormal : result.decision ≠ .normal := by
    intro normal
    have verdict := (is_judged.normal_iff.mp normal).2
    rw [requested] at verdict
    exact stale_undeserving verdict
  exact ⟨boundary, call, result, reached, current, completed, (is_judged.otherwise abnormal).1⟩

end BelugaManager.DomainApi
