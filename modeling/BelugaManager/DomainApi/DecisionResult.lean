import BelugaManager.Foundation.Untyped

/-!
# Results of a decision

The part of `decision/types.ts` that says what a decision provider returns.
-/

namespace BelugaManager.DomainApi

open Foundation

inductive Decision where
  | normal
  | computeBound
  | memoryBound
  | storageBound
  | networkBound
  | queryProblem
  | escalate
  | abstain
  deriving DecidableEq, Repr

def Decision.text : Decision → String
  | .normal => "NORMAL"
  | .computeBound => "COMPUTE_BOUND"
  | .memoryBound => "MEMORY_BOUND"
  | .storageBound => "STORAGE_BOUND"
  | .networkBound => "NETWORK_BOUND"
  | .queryProblem => "QUERY_PROBLEM"
  | .escalate => "ESCALATE"
  | .abstain => "ABSTAIN"

def Decision.read : String → Option Decision
  | "NORMAL" => some .normal
  | "COMPUTE_BOUND" => some .computeBound
  | "MEMORY_BOUND" => some .memoryBound
  | "STORAGE_BOUND" => some .storageBound
  | "NETWORK_BOUND" => some .networkBound
  | "QUERY_PROBLEM" => some .queryProblem
  | "ESCALATE" => some .escalate
  | "ABSTAIN" => some .abstain
  | _ => none

theorem Decision.read_text (decision : Decision) : read decision.text = some decision := by
  cases decision <;> rfl

inductive AbstainCode where
  | noTelemetry
  | missingRequiredSignal
  | staleTelemetry
  | isolationTimeout
  | isolationProviderError
  | isolationInvalidShape
  | isolationOverloaded
  deriving DecidableEq, Repr

def AbstainCode.text : AbstainCode → String
  | .noTelemetry => "NO_TELEMETRY"
  | .missingRequiredSignal => "MISSING_REQUIRED_SIGNAL"
  | .staleTelemetry => "STALE_TELEMETRY"
  | .isolationTimeout => "ISOLATION_TIMEOUT"
  | .isolationProviderError => "ISOLATION_PROVIDER_ERROR"
  | .isolationInvalidShape => "ISOLATION_INVALID_SHAPE"
  | .isolationOverloaded => "ISOLATION_OVERLOADED"

def AbstainCode.read : String → Option AbstainCode
  | "NO_TELEMETRY" => some .noTelemetry
  | "MISSING_REQUIRED_SIGNAL" => some .missingRequiredSignal
  | "STALE_TELEMETRY" => some .staleTelemetry
  | "ISOLATION_TIMEOUT" => some .isolationTimeout
  | "ISOLATION_PROVIDER_ERROR" => some .isolationProviderError
  | "ISOLATION_INVALID_SHAPE" => some .isolationInvalidShape
  | "ISOLATION_OVERLOADED" => some .isolationOverloaded
  | _ => none

theorem AbstainCode.read_text (code : AbstainCode) : read code.text = some code := by
  cases code <;> rfl

/-- The times are those of valid dates. -/
structure EvidenceRef where
  source : String
  observedAt : ℤ
  ingestedAt : ℤ
  freshnessDeadline : ℤ
  contentHash : String

structure DecisionResult where
  decision : Decision
  confidence : JsNumber
  abstained : Bool
  abstainCode : Option AbstainCode
  abstainReason : Option String
  evidenceRefs : List EvidenceRef
  provider : String
  providerVersion : String
  policyVersion : String
  decidedAt : ℤ
  latencyMs : JsNumber

def decisionSchema : Schema Decision := Schema.ofString Decision.read

def abstainCodeSchema : Schema AbstainCode := Schema.ofString AbstainCode.read

def evidenceRefSchema : Schema EvidenceRef :=
  Schema.strictObject ["source", "observedAt", "ingestedAt", "freshnessDeadline", "contentHash"]
    fun entries => EvidenceRef.mk <$> Schema.field "source" Schema.nonempty entries
      <*> Schema.field "observedAt" Schema.date entries
      <*> Schema.field "ingestedAt" Schema.date entries
      <*> Schema.field "freshnessDeadline" Schema.date entries
      <*> Schema.field "contentHash" Schema.nonempty entries

def inUnitInterval (n : JsNumber) : Bool :=
  JsNumber.atMost (.ofNat 0) n && JsNumber.atMost n (.ofNat 1)

def nonnegative (n : JsNumber) : Bool := JsNumber.atMost (.ofNat 0) n

def decisionResultSchema : Schema DecisionResult :=
  Schema.strictObject ["decision", "confidence", "abstained", "abstainCode", "abstainReason",
      "evidenceRefs", "provider", "providerVersion", "policyVersion", "decidedAt", "latencyMs"]
    fun entries => DecisionResult.mk <$> Schema.field "decision" decisionSchema entries
      <*> Schema.field "confidence" (Schema.number inUnitInterval) entries
      <*> Schema.field "abstained" Schema.boolean entries
      <*> Schema.field "abstainCode" (Schema.optional abstainCodeSchema) entries
      <*> Schema.field "abstainReason" (Schema.optional Schema.nonempty) entries
      <*> Schema.field "evidenceRefs" (Schema.array evidenceRefSchema) entries
      <*> Schema.field "provider" Schema.nonempty entries
      <*> Schema.field "providerVersion" Schema.nonempty entries
      <*> Schema.field "policyVersion" Schema.nonempty entries
      <*> Schema.field "decidedAt" Schema.date entries
      <*> Schema.field "latencyMs" (Schema.number nonnegative) entries

/-! ## Results as values -/

def EvidenceRef.toUntyped (ref : EvidenceRef) : Untyped :=
  .object [("source", .string ref.source), ("observedAt", .date (some ref.observedAt)),
    ("ingestedAt", .date (some ref.ingestedAt)),
    ("freshnessDeadline", .date (some ref.freshnessDeadline)),
    ("contentHash", .string ref.contentHash)]

def DecisionResult.toUntyped (result : DecisionResult) : Untyped :=
  .object [("decision", .string result.decision.text), ("confidence", .number result.confidence),
    ("abstained", .boolean result.abstained),
    ("abstainCode", result.abstainCode.elim .undefined fun code => .string code.text),
    ("abstainReason", result.abstainReason.elim .undefined .string),
    ("evidenceRefs", .array (result.evidenceRefs.map EvidenceRef.toUntyped)),
    ("provider", .string result.provider), ("providerVersion", .string result.providerVersion),
    ("policyVersion", .string result.policyVersion),
    ("decidedAt", .date (some result.decidedAt)), ("latencyMs", .number result.latencyMs)]

/-- What the schema demands of a typed reference. -/
structure EvidenceRef.Accepted (ref : EvidenceRef) : Prop where
  source : ref.source ≠ ""
  contentHash : ref.contentHash ≠ ""

/-- What the schema demands of a typed result. -/
structure DecisionResult.Accepted (result : DecisionResult) : Prop where
  confidence : result.confidence.isFinite = true ∧ inUnitInterval result.confidence = true
  abstainReason : result.abstainReason ≠ some ""
  evidenceRefs : ∀ ref ∈ result.evidenceRefs, ref.Accepted
  provider : result.provider ≠ ""
  providerVersion : result.providerVersion ≠ ""
  policyVersion : result.policyVersion ≠ ""
  latencyMs : result.latencyMs.isFinite = true ∧ nonnegative result.latencyMs = true

theorem EvidenceRef.accepted_of_valid {value : Untyped} {ref : EvidenceRef}
    (valid : evidenceRefSchema value = .valid ref) : ref.Accepted := by
  rcases Schema.strictObject_eq_valid_iff.mp valid with ⟨entries, _, fields, _⟩
  simp only [Parsed.seq_eq_valid_iff, Parsed.map_eq_valid_iff] at fields
  rcases fields with
    ⟨_, contentHash, ⟨_, _, ⟨_, _, ⟨_, _, ⟨source, isSource, rfl⟩, _, rfl⟩, _, rfl⟩,
    _, rfl⟩, isHash, rfl⟩
  exact ⟨(Schema.nonempty_eq_valid_iff.mp isSource).2, (Schema.nonempty_eq_valid_iff.mp isHash).2⟩

theorem EvidenceRef.Accepted.valid {ref : EvidenceRef} (accepted : ref.Accepted) :
    evidenceRefSchema ref.toUntyped = .valid ref := by
  simp [evidenceRefSchema, toUntyped, Schema.strictObject, Schema.field_cons,
    Schema.nonempty, Schema.ofString, Schema.date, accepted.source, accepted.contentHash]

theorem DecisionResult.accepted_of_valid {value : Untyped} {result : DecisionResult}
    (valid : decisionResultSchema value = .valid result) : result.Accepted := by
  rcases Schema.strictObject_eq_valid_iff.mp valid with ⟨entries, _, fields, _⟩
  simp only [Parsed.seq_eq_valid_iff, Parsed.map_eq_valid_iff] at fields
  rcases fields with ⟨_, latencyMs, ⟨_, decidedAt, ⟨_, policyVersion, ⟨_, providerVersion,
    ⟨_, provider, ⟨_, refs, ⟨_, reason, ⟨_, code, ⟨_, abstained, ⟨_, confidence,
    ⟨decision, _, rfl⟩, isConfidence, rfl⟩, _, rfl⟩, _, rfl⟩, isReason, rfl⟩, areRefs, rfl⟩,
    isProvider, rfl⟩, isVersion, rfl⟩, isPolicy, rfl⟩, _, rfl⟩, isLatency, rfl⟩
  constructor
  case confidence => exact (Schema.number_eq_valid_iff.mp isConfidence).2
  case abstainReason =>
    rcases Schema.optional_eq_valid_iff.mp isReason with ⟨_, rfl⟩ | ⟨_, found, isFound, rfl⟩
    · simp
    · simpa using (Schema.nonempty_eq_valid_iff.mp isFound).2
  case evidenceRefs =>
    intro ref member
    rcases Schema.array_eq_valid_iff.mp areRefs with ⟨values, _, all⟩
    rcases List.forall₂_iff_get.mp all with ⟨lengths, each⟩
    rcases List.mem_iff_get.mp member with ⟨i, rfl⟩
    exact EvidenceRef.accepted_of_valid (each i (by rw [lengths]; exact i.isLt) i.isLt)
  case provider => exact (Schema.nonempty_eq_valid_iff.mp isProvider).2
  case providerVersion => exact (Schema.nonempty_eq_valid_iff.mp isVersion).2
  case policyVersion => exact (Schema.nonempty_eq_valid_iff.mp isPolicy).2
  case latencyMs => exact (Schema.number_eq_valid_iff.mp isLatency).2

theorem DecisionResult.Accepted.valid {result : DecisionResult} (accepted : result.Accepted) :
    decisionResultSchema result.toUntyped = .valid result := by
  have decision : decisionSchema (.string result.decision.text) = .valid result.decision := by
    simp [decisionSchema, Schema.ofString, Decision.read_text]
  have confidence : Schema.number inUnitInterval (.number result.confidence) =
      .valid result.confidence := by
    simp [Schema.number, accepted.confidence]
  have abstainCode : Schema.optional abstainCodeSchema
      (result.abstainCode.elim .undefined fun code => .string code.text) =
        .valid result.abstainCode := by
    cases result.abstainCode with
    | none => rfl
    | some code => simp [Schema.optional, abstainCodeSchema, Schema.ofString, AbstainCode.read_text]
  have abstainReason : Schema.optional Schema.nonempty
      (result.abstainReason.elim .undefined .string) = .valid result.abstainReason := by
    have nonempty := accepted.abstainReason
    cases isReason : result.abstainReason with
    | none => rfl
    | some reason =>
        rw [isReason] at nonempty
        have filled : reason ≠ "" := fun empty => nonempty (by rw [empty])
        simp [Schema.optional, Schema.nonempty, Schema.ofString, filled]
  have evidenceRefs : Schema.array evidenceRefSchema
      (.array (result.evidenceRefs.map EvidenceRef.toUntyped)) = .valid result.evidenceRefs := by
    apply Schema.array_eq_valid_iff.mpr
    refine ⟨_, rfl, ?_⟩
    rw [List.forall₂_map_left_iff, List.forall₂_same]
    exact fun ref member => (accepted.evidenceRefs ref member).valid
  have latencyMs : Schema.number nonnegative (.number result.latencyMs) =
      .valid result.latencyMs := by
    simp [Schema.number, accepted.latencyMs]
  have provider := Schema.nonempty_eq_valid_iff.mpr ⟨rfl, accepted.provider⟩
  have providerVersion := Schema.nonempty_eq_valid_iff.mpr ⟨rfl, accepted.providerVersion⟩
  have policyVersion := Schema.nonempty_eq_valid_iff.mpr ⟨rfl, accepted.policyVersion⟩
  simp [decisionResultSchema, toUntyped, Schema.strictObject, Schema.field_cons, Schema.date,
    Schema.boolean, decision, confidence, abstainCode, abstainReason, evidenceRefs, provider,
    providerVersion, policyVersion, latencyMs]

/-- The schema accepts a typed result only with its own latency. -/
theorem nonnegative_of_valid {result found : DecisionResult}
    (valid : decisionResultSchema result.toUntyped = .valid found) :
    nonnegative result.latencyMs = true := by
  rcases Schema.strictObject_eq_valid_iff.mp valid with ⟨entries, same, fields, _⟩
  rw [DecisionResult.toUntyped, Untyped.object.injEq] at same
  rcases Parsed.seq_eq_valid_iff.mp fields with ⟨_, latencyMs, _, isLatency, _⟩
  rw [← same] at isLatency
  simp only [Schema.field_cons, String.reduceEq, if_false, if_true] at isLatency
  rcases Schema.number_eq_valid_iff.mp isLatency with ⟨isSame, _, passes⟩
  cases isSame
  exact passes

/-- What the schema returns it accepts again. -/
theorem decisionResultSchema_toUntyped {value : Untyped} {result : DecisionResult}
    (valid : decisionResultSchema value = .valid result) :
    decisionResultSchema result.toUntyped = .valid result :=
  (DecisionResult.accepted_of_valid valid).valid

end BelugaManager.DomainApi
