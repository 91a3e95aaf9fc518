import BelugaManager.DomainApi.DecisionResult
import BelugaManager.Foundation.Machine
import BelugaManager.Foundation.SlotPool
import BelugaManager.Foundation.Text

/-!
# The isolation boundary of decision providers

`isolateProvider` of `decision/isolatedProvider.ts` as a machine.  Providers, what they
return or throw and the clock are foreign; converting their values to text may throw.
The log and the readings kept with a call are not part of the source.
-/

namespace BelugaManager.DomainApi

open Foundation

/-- A value that is thrown: an error with its message, some other value, or a value that
throws when it is asked whether it is an error or for its message. -/
inductive Thrown where
  | error (message : Untyped)
  | other (value : Untyped)
  | hostile (raised : Thrown)

/-- What a value that is neither a string nor a symbol gives when it is converted. -/
abbrev Conversion := Except Thrown String

/-- A value in a template. -/
def template (conversion : Conversion) : Untyped → Except Thrown String
  | .string text => .ok text
  | .symbol _ => .error (.error (.string "Cannot convert a Symbol value to a string"))
  | _ => conversion

/-- `String(value)` -/
def stringOf (conversion : Conversion) : Untyped → Except Thrown String
  | .string text => .ok text
  | .symbol description => .ok ("Symbol(" ++ description ++ ")")
  | _ => conversion

/-- `describeError(err)` in a template. -/
def describeError (conversion : Conversion) : Thrown → Except Thrown String
  | .error message => template conversion message
  | .other value => stringOf conversion value
  | .hostile raised => .error raised

/-! ## Fallback results -/

/-- What is read when a fallback result is built: the provider, conversions of its identity
and of an error, and the clock. -/
structure Readings where
  id : Untyped
  version : Untyped
  idText : Conversion
  errorText : Conversion
  now : ℤ

def ISOLATION_POLICY_VERSION : String := "isolation-boundary/v1"

def safeIdentity (value : Untyped) (fallback : String) : String :=
  match value with
  | .string text => if Text.trim text ≠ "" then text else fallback
  | _ => fallback

/-- The object of a fallback result. `requested` is the time of its context. -/
def abstention (readings : Readings) (requested startedAt : ℤ) (code : AbstainCode)
    (reason : String) : DecisionResult where
  decision := .abstain
  confidence := .ofNat 0
  abstained := true
  abstainCode := some code
  abstainReason := some reason
  evidenceRefs := []
  provider := safeIdentity readings.id "unknown-provider"
  providerVersion := safeIdentity readings.version "unknown-version"
  policyVersion := ISOLATION_POLICY_VERSION
  decidedAt := requested
  latencyMs := .finite ((readings.now - startedAt : ℤ) : ℚ)

/-- Where a schema is used to parse, it throws unless the value is valid. -/
def orThrow : Parsed DecisionResult → Except Thrown DecisionResult
  | .valid accepted => .ok accepted
  | _ => .error (.error (.string "invalid decision result"))

/-- `decisionResultSchema.parse` -/
def parseResult (result : DecisionResult) : Except Thrown DecisionResult :=
  orThrow (decisionResultSchema result.toUntyped)

def isolationAbstain (readings : Readings) (requested startedAt : ℤ) (code : AbstainCode)
    (reason : String) : Except Thrown DecisionResult :=
  parseResult (abstention readings requested startedAt code reason)

/-- The reason starts with the code and the provider. -/
def abstainWith (readings : Readings) (requested startedAt : ℤ) (code : AbstainCode)
    (rest : Except Thrown String) : Except Thrown DecisionResult := do
  let id ← template readings.idText readings.id
  let rest ← rest
  isolationAbstain readings requested startedAt code
    (code.text ++ ": provider '" ++ id ++ "'" ++ rest)

structure IsolatedProviderOptions where
  budgetMs : Option JsNumber
  maxConcurrent : Option JsNumber

def DEFAULT_BUDGET_MS : ℕ := 500

def DEFAULT_MAX_CONCURRENT_CALLS : ℕ := 32

/-- The limit, or nothing if the options are refused. -/
def IsolatedProviderOptions.limit (options : IsolatedProviderOptions) : Option ℕ :=
  match options.maxConcurrent.getD (.ofNat DEFAULT_MAX_CONCURRENT_CALLS) with
  | .finite value =>
      if value.den = 1 ∧ 1 ≤ value.num ∧ value.num < 2 ^ 53 then some value.num.toNat else none
  | _ => none

/-- What decides a call: the limit, the budget, or the provider. A value whose inspection
throws comes with what is thrown. -/
inductive Decided where
  | overloaded
  | timedOut
  | resolved (value : Untyped) (raised : Thrown)
  | rejected (error : Thrown)

section Answer

/-- How numbers are written and how the schema complains. -/
structure Wording where
  numberText : JsNumber → String
  complaint : Untyped → String

variable (wording : Wording) (options : IsolatedProviderOptions) (requested startedAt : ℤ)

/-- The result of the block that catches errors. -/
def caught (error : Thrown) (readings : Readings) : Except Thrown DecisionResult :=
  abstainWith readings requested startedAt .isolationProviderError
    ((describeError readings.errorText error).map ("가 실패했다 — " ++ ·))

/-- A fallback result where errors are caught: if it throws, a second one is built. -/
def guarded (code : AbstainCode) (rest : String) (first second : Readings) :
    Except Thrown DecisionResult :=
  match abstainWith first requested startedAt code (.ok rest) with
  | .ok result => .ok result
  | .error error => caught requested startedAt error second

/-- What a call is answered for a value the provider returned, after the schema has seen it. -/
def settledAnswer (value : Untyped) (raised : Thrown) (first second : Readings) :
    Parsed DecisionResult → Except Thrown DecisionResult
  | .valid result => .ok result
  | .invalid =>
      guarded requested startedAt .isolationInvalidShape
        ("의 반환값이 decision schema를 어겼다 — " ++ wording.complaint value) first second
  | .threw => caught requested startedAt raised first

/-- What a call is answered. -/
def answer (decided : Decided) (first second : Readings) : Except Thrown DecisionResult :=
  match decided with
  | .overloaded =>
      abstainWith first requested startedAt .isolationOverloaded
        (.ok (" 동시 실행 상한(" ++ wording.numberText
          (options.maxConcurrent.getD (.ofNat DEFAULT_MAX_CONCURRENT_CALLS)) ++ ")에 도달했다"))
  | .timedOut =>
      guarded requested startedAt .isolationTimeout
        ("가 budget(" ++ wording.numberText (options.budgetMs.getD (.ofNat DEFAULT_BUDGET_MS)) ++
          "ms)을 초과했다") first second
  | .resolved value raised =>
      settledAnswer wording requested startedAt value raised first second
        (decisionResultSchema value)
  | .rejected error => caught requested startedAt error first

end Answer

/-! ## When fallback results can be built -/

theorem safeIdentity_ne_empty (value : Untyped) {fallback : String} (filled : fallback ≠ "") :
    safeIdentity value fallback ≠ "" := by
  unfold safeIdentity
  split
  next text =>
    split_ifs with trimmed
    · rintro rfl
      exact trimmed rfl
    · exact filled
  next => exact filled

theorem nonnegative_iff (now startedAt : ℤ) :
    nonnegative (.finite ((now - startedAt : ℤ) : ℚ)) = true ↔ startedAt ≤ now := by
  have order : (0 : ℚ) ≤ ((now - startedAt : ℤ) : ℚ) ↔ startedAt ≤ now := by
    rw [Int.cast_nonneg_iff, sub_nonneg]
  rw [← order, le_iff_lt_or_eq, nonnegative, JsNumber.atMost, JsNumber.ofNat, JsNumber.less]
  simp

theorem parseResult_accepted {result : DecisionResult} (accepted : result.Accepted) :
    parseResult result = .ok result := by
  rw [parseResult, accepted.valid, orThrow]

theorem parseResult_eq_ok {result found : DecisionResult}
    (parsed : parseResult result = .ok found) :
    ∃ other, decisionResultSchema result.toUntyped = .valid other := by
  unfold parseResult at parsed
  generalize decisionResultSchema result.toUntyped = outcome at parsed ⊢
  cases outcome with
  | valid other => exact ⟨other, rfl⟩
  | invalid => cases parsed
  | threw => cases parsed

section Abstention

variable {readings : Readings} {requested startedAt : ℤ} {code : AbstainCode}

theorem abstention_accepted {reason : String} (filled : reason ≠ "")
    (onTime : startedAt ≤ readings.now) :
    (abstention readings requested startedAt code reason).Accepted := by
  have unit : inUnitInterval (.ofNat 0) = true := by
    simp [inUnitInterval, JsNumber.atMost, JsNumber.ofNat, JsNumber.less]
  constructor
  case confidence => exact ⟨rfl, unit⟩
  case abstainReason => simpa [abstention] using filled
  case evidenceRefs => exact fun _ absent => absurd absent List.not_mem_nil
  case provider => exact safeIdentity_ne_empty _ (by decide)
  case providerVersion => exact safeIdentity_ne_empty _ (by decide)
  case policyVersion => exact (by decide : ISOLATION_POLICY_VERSION ≠ "")
  case latencyMs => exact ⟨rfl, (nonnegative_iff readings.now startedAt).mpr onTime⟩

theorem isolationAbstain_eq_ok_iff {reason : String} (filled : reason ≠ "")
    {result : DecisionResult} :
    isolationAbstain readings requested startedAt code reason = .ok result ↔
      startedAt ≤ readings.now ∧ result = abstention readings requested startedAt code reason := by
  rw [isolationAbstain]
  constructor
  · intro built
    rcases parseResult_eq_ok built with ⟨found, parsed⟩
    have onTime := (nonnegative_iff readings.now startedAt).mp (nonnegative_of_valid parsed)
    rw [parseResult_accepted (abstention_accepted filled onTime)] at built
    exact ⟨onTime, (Except.ok.inj built).symm⟩
  · intro ⟨onTime, same⟩
    rw [parseResult_accepted (abstention_accepted filled onTime), same]

end Abstention

/-- The identity of the provider converts and the clock has not gone back since the call. -/
def Readings.Usable (readings : Readings) (startedAt : ℤ) : Prop :=
  (∃ text, template readings.idText readings.id = .ok text) ∧ startedAt ≤ readings.now

/-- An answer abstains with a code, and the schema accepts it. -/
def Abstains (answer : Except Thrown DecisionResult) (code : AbstainCode) : Prop :=
  ∃ result, answer = .ok result ∧ decisionResultSchema result.toUntyped = .valid result ∧
    result.decision = .abstain ∧ result.abstained = true ∧ result.abstainCode = some code

theorem reason_ne_empty (code : AbstainCode) (rest : String) : code.text ++ rest ≠ "" := by
  intro empty
  have start : code.text = "" := (String.append_eq_empty_iff.mp empty).1
  cases code <;> exact absurd start (by decide)

section Answer

variable {readings : Readings} {requested startedAt : ℤ} {code : AbstainCode}

/-- A fallback result is built exactly if its readings are usable and its reason is there. -/
theorem abstainWith_eq_ok {rest : Except Thrown String} {result : DecisionResult}
    (built : abstainWith readings requested startedAt code rest = .ok result) :
    readings.Usable startedAt ∧ (∃ text, rest = .ok text) ∧
      ∃ reason, reason ≠ "" ∧ result = abstention readings requested startedAt code reason := by
  rw [abstainWith] at built
  cases isId : template readings.idText readings.id with
  | error error =>
      rw [isId] at built
      cases built
  | ok id =>
      rw [isId] at built
      cases rest with
      | error error => cases built
      | ok text =>
          have filled : code.text ++ ": provider '" ++ id ++ "'" ++ text ≠ "" := by
            rw [String.append_assoc, String.append_assoc, String.append_assoc]
            exact reason_ne_empty code _
          rcases (isolationAbstain_eq_ok_iff filled).mp built with ⟨onTime, same⟩
          exact ⟨⟨⟨id, isId⟩, onTime⟩, ⟨text, rfl⟩, _, filled, same⟩

theorem abstains_abstainWith_iff (rest : Except Thrown String) :
    Abstains (abstainWith readings requested startedAt code rest) code ↔
      readings.Usable startedAt ∧ ∃ text, rest = .ok text := by
  constructor
  · intro ⟨result, built, _⟩
    rcases abstainWith_eq_ok built with ⟨usable, given, _⟩
    exact ⟨usable, given⟩
  · intro ⟨⟨⟨id, isId⟩, onTime⟩, text, given⟩
    have filled : code.text ++ ": provider '" ++ id ++ "'" ++ text ≠ "" := by
      rw [String.append_assoc, String.append_assoc, String.append_assoc]
      exact reason_ne_empty code _
    have built : abstainWith readings requested startedAt code rest =
        .ok (abstention readings requested startedAt code
          (code.text ++ ": provider '" ++ id ++ "'" ++ text)) := by
      rw [abstainWith, isId, given]
      exact (isolationAbstain_eq_ok_iff filled).mpr ⟨onTime, rfl⟩
    exact ⟨_, built, (abstention_accepted filled onTime).valid, rfl, rfl, rfl⟩

/-- Only a fallback result with the same code can take the place of one. -/
theorem abstains_code {rest : Except Thrown String} {other : AbstainCode}
    (abstains : Abstains (abstainWith readings requested startedAt code rest) other) :
    other = code := by
  rcases abstains with ⟨result, built, _, _, _, isCode⟩
  rcases abstainWith_eq_ok built with ⟨_, _, reason, _, same⟩
  rw [same] at isCode
  exact (Option.some.inj isCode).symm

theorem abstains_caught_iff (error : Thrown) :
    Abstains (caught requested startedAt error readings) .isolationProviderError ↔
      readings.Usable startedAt ∧ ∃ text, describeError readings.errorText error = .ok text := by
  rw [caught, abstains_abstainWith_iff]
  cases describeError readings.errorText error with
  | ok text => simp [Except.map]
  | error raised => simp [Except.map]

/-- The second fallback result never has the code of the first. -/
theorem abstains_guarded_iff (different : code ≠ .isolationProviderError) (rest : String)
    (first second : Readings) :
    Abstains (guarded requested startedAt code rest first second) code ↔
      first.Usable startedAt := by
  have alone := @abstains_abstainWith_iff first requested startedAt code (.ok rest)
  rw [guarded]
  constructor
  · intro abstains
    cases built : abstainWith first requested startedAt code (.ok rest) with
    | ok result => exact (abstainWith_eq_ok built).1
    | error error =>
        rw [built] at abstains
        exact absurd (abstains_code abstains) different
  · intro usable
    have built := alone.mpr ⟨usable, rest, rfl⟩
    rcases built with ⟨result, isOk, facts⟩
    exact ⟨result, by rw [isOk], facts⟩

end Answer

/-- The answer that a call should get once the schema has seen what the provider returned. -/
def MeetsParsed (answer : Except Thrown DecisionResult) : Parsed DecisionResult → Prop
  | .valid result =>
      answer = .ok result ∧ decisionResultSchema result.toUntyped = .valid result
  | .invalid => Abstains answer .isolationInvalidShape
  | .threw => Abstains answer .isolationProviderError

/-- The answer that a call should get. -/
def Meets (answer : Except Thrown DecisionResult) : Decided → Prop
  | .overloaded => Abstains answer .isolationOverloaded
  | .timedOut => Abstains answer .isolationTimeout
  | .resolved value _ => MeetsParsed answer (decisionResultSchema value)
  | .rejected _ => Abstains answer .isolationProviderError

def Describable (error : Thrown) (readings : Readings) : Prop :=
  ∃ text, describeError readings.errorText error = .ok text

/-- The fallback result can be built where one is needed. -/
def FallsBackParsed (startedAt : ℤ) (raised : Thrown) (readings : Readings) :
    Parsed DecisionResult → Prop
  | .valid _ => True
  | .invalid => readings.Usable startedAt
  | .threw => readings.Usable startedAt ∧ Describable raised readings

def FallsBack (startedAt : ℤ) (readings : Readings) : Decided → Prop
  | .overloaded => readings.Usable startedAt
  | .timedOut => readings.Usable startedAt
  | .resolved value raised =>
      FallsBackParsed startedAt raised readings (decisionResultSchema value)
  | .rejected error => readings.Usable startedAt ∧ Describable error readings

theorem meets_answer_iff (wording : Wording) (options : IsolatedProviderOptions)
    (requested startedAt : ℤ) (decided : Decided) (first second : Readings) :
    Meets (answer wording options requested startedAt decided first second) decided ↔
      FallsBack startedAt first decided := by
  cases decided with
  | overloaded =>
      rw [Meets, FallsBack, answer, abstains_abstainWith_iff]
      exact and_iff_left ⟨_, rfl⟩
  | timedOut =>
      rw [Meets, FallsBack, answer]
      exact abstains_guarded_iff (by decide) _ _ _
  | rejected error =>
      rw [Meets, FallsBack, answer]
      exact abstains_caught_iff error
  | resolved value raised =>
      rw [Meets, FallsBack, answer]
      cases parsed : decisionResultSchema value with
      | valid result =>
          exact iff_of_true ⟨rfl, decisionResultSchema_toUntyped parsed⟩ trivial
      | invalid => exact abstains_guarded_iff (by decide) _ _ _
      | threw => exact abstains_caught_iff raised

/-! ## The boundary -/

/-- What became of the call of the provider. A settlement is handled when the slot is freed. -/
inductive Invocation where
  | refused
  | running
  | settled
  | handled
  deriving DecidableEq, Repr

/-- A call of the wrapped `decide`. The race is what `Promise.race` has been decided by. -/
structure IsolatedCall where
  requested : ℤ
  startedAt : ℤ
  invocation : Invocation
  timer : Bool
  race : Option Decided
  readings : Option (Readings × Readings)
  answer : Option (Except Thrown DecisionResult)

structure IsolatedProvider where
  activeCalls : ℤ
  calls : ℕ → Option IsolatedCall
  log : SlotLog ℕ

/-- What happens next. A call brings the reading of the clock, the time of its context, if
that is valid, and the readings of a fallback result. -/
inductive IsolationEvent where
  | decide (id : ℕ) (startedAt : ℤ) (now : Option ℤ) (readings : Readings)
  | resolve (id : ℕ) (value : Untyped) (raised : Thrown)
  | reject (id : ℕ) (error : Thrown)
  | handle (id : ℕ)
  | timeout (id : ℕ)
  | resume (id : ℕ) (first second : Readings)

namespace IsolatedProvider

def init : IsolatedProvider := ⟨0, fun _ => none, ⟨[], [], [], []⟩⟩

def setCall (boundary : IsolatedProvider) (id : ℕ) (call : IsolatedCall) : IsolatedProvider :=
  { boundary with calls := Function.update boundary.calls id (some call) }

variable (wording : Wording) (options : IsolatedProviderOptions) (limit : ℕ)

/-- A call starts: it is refused, or its timer is set and the provider invoked. -/
def start (boundary : IsolatedProvider) (id : ℕ) (startedAt requested : ℤ) (readings : Readings) :
    IsolatedProvider :=
  let arrived := boundary.log.arrived ++ [id]
  if boundary.activeCalls ≥ limit then
    { boundary.setCall id {
        requested := requested
        startedAt := startedAt
        invocation := .refused
        timer := false
        race := some .overloaded
        readings := some (readings, readings)
        answer := some
          (answer wording options requested startedAt .overloaded readings readings) } with
      log := { boundary.log with arrived := arrived, refused := boundary.log.refused ++ [id] } }
  else
    { boundary.setCall id {
        requested := requested
        startedAt := startedAt
        invocation := .running
        timer := true
        race := none
        readings := none
        answer := none } with
      activeCalls := boundary.activeCalls + 1
      log := { boundary.log with arrived := arrived, granted := boundary.log.granted ++ [id] } }

/-- The promise of the provider settles. -/
def settle (boundary : IsolatedProvider) (id : ℕ) (decided : Decided) : Option IsolatedProvider :=
  match boundary.calls id with
  | none => none
  | some call =>
      if call.invocation = .running then
        some (boundary.setCall id { call with
          invocation := .settled, race := call.race.or (some decided) })
      else none

/-- The handler of the settlement frees the slot. -/
def handle (boundary : IsolatedProvider) (id : ℕ) : Option IsolatedProvider :=
  match boundary.calls id with
  | none => none
  | some call =>
      if call.invocation = .settled then
        some { boundary.setCall id { call with invocation := .handled } with
          activeCalls := boundary.activeCalls - 1
          log := { boundary.log with released := boundary.log.released ++ [id] } }
      else none

def timeout (boundary : IsolatedProvider) (id : ℕ) : Option IsolatedProvider :=
  match boundary.calls id with
  | none => none
  | some call =>
      if call.timer then
        some (boundary.setCall id { call with
          timer := false, race := call.race.or (some .timedOut) })
      else none

/-- A call goes on after its race. -/
def resume (boundary : IsolatedProvider) (id : ℕ) (first second : Readings) :
    Option IsolatedProvider :=
  match boundary.calls id with
  | none => none
  | some call =>
      match call.race, call.answer with
      | some decided, none =>
          some (boundary.setCall id { call with
            timer := false
            readings := some (first, second)
            answer := some
              (answer wording options call.requested call.startedAt decided first second) })
      | _, _ => none

def step (boundary : IsolatedProvider) : IsolationEvent → Option IsolatedProvider
  | .decide id startedAt now readings =>
      match boundary.calls id with
      | some _ => none
      | none =>
          some (boundary.start wording options limit id startedAt (now.getD startedAt) readings)
  | .resolve id value raised => boundary.settle id (.resolved value raised)
  | .reject id error => boundary.settle id (.rejected error)
  | .handle id => boundary.handle id
  | .timeout id => boundary.timeout id
  | .resume id first second => boundary.resume wording options id first second

end IsolatedProvider

/-- The wrapped provider, unless the options are refused. -/
def isolateProvider (wording : Wording) (options : IsolatedProviderOptions) :
    Option (Machine IsolatedProvider IsolationEvent) :=
  options.limit.map fun limit =>
    { init := IsolatedProvider.init
      step := IsolatedProvider.step wording options limit }

end BelugaManager.DomainApi
