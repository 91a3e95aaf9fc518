import BelugaManager.DomainApi.Correlation
import BelugaManager.DomainApi.Envelope
import BelugaManager.Foundation.JsNumber

/-!
# Pipelines of Flink jobs

The mapping of `flink/mapping.ts` from what the service says of its jobs to pipelines, with
the schema that every pipeline passes.  How strings are put in lower case is a parameter.
The text of a time is told apart by the instant it stands for.
-/

namespace BelugaManager.DomainApi

open Foundation Foundation.JsString

/-- What `toISOString` writes. -/
structure IsoTime where
  epochMs : ℤ
  deriving DecidableEq, Repr

/-- `z.iso.datetime()` accepts years of four digits. -/
def IsoTime.isDatetime (time : IsoTime) : Bool :=
  -62167219200000 ≤ time.epochMs && time.epochMs ≤ 253402300799999

/-- The last instant of a date. -/
def MAX_INSTANT : ℚ := 8640000000000000

def isoOrNull : JsNumber → Option IsoTime
  | .finite ms => if ms ≤ 0 ∨ MAX_INSTANT < ms then none else some ⟨⌊ms⌋⟩
  | _ => none

/-! ## The schema of pipelines -/

inductive RunResult where
  | running
  | succeeded
  | failed
  | unknown
  deriving DecidableEq, Repr

inductive JobKind where
  | flink
  | airflow
  | cdc
  deriving DecidableEq, Repr

/-- A status may be undefined before it is checked. -/
structure PipelineStage where
  serviceId : JsString
  serviceType : ServiceType
  status : Option HealthStatus
  detail : Option JsString

structure LastRun where
  result : Option RunResult
  startedAt : IsoTime
  finishedAt : Option IsoTime
  failureReason : Option JsString

structure PipelineJob where
  id : JsString
  name : JsString
  kind : JobKind
  serviceId : JsString
  lastRun : Option LastRun
  relatedResourceIds : List JsString

structure PipelineCorrelation where
  confidence : ℚ
  method : JsString

structure PipelineCandidate where
  id : JsString
  name : JsString
  stages : List PipelineStage
  jobs : List PipelineJob
  correlationLinks : List CorrelationLink
  status : Option HealthStatus
  correlation : PipelineCorrelation
  lastUpdatedAt : IsoTime

/-- `z.number().min(0).max(1)` -/
def isConfidence (confidence : ℚ) : Bool := 0 ≤ confidence && confidence ≤ 1

def pipelineStageSchema (stage : PipelineStage) : Bool :=
  stage.serviceId ≠ [] && stage.status.isSome && stage.detail.all (· ≠ [])

def lastRunSchema (run : LastRun) : Bool :=
  run.result.isSome && run.startedAt.isDatetime && run.finishedAt.all IsoTime.isDatetime &&
    run.failureReason.all (· ≠ [])

def pipelineJobSchema (job : PipelineJob) : Bool :=
  job.id ≠ [] && job.name ≠ [] && job.serviceId ≠ [] && job.lastRun.all lastRunSchema &&
    job.relatedResourceIds.all (· ≠ [])

def correlationLinkSchema (link : CorrelationLink) : Bool :=
  link.id ≠ [] && link.source.id ≠ [] && link.target.id ≠ [] && isConfidence link.confidence &&
    link.evidence.all (· ≠ [])

def pipelineCorrelationSchema (correlation : PipelineCorrelation) : Bool :=
  isConfidence correlation.confidence && correlation.method ≠ []

def pipelineSchema (candidate : PipelineCandidate) : Bool :=
  candidate.id ≠ [] && candidate.name ≠ [] && candidate.stages.all pipelineStageSchema &&
    candidate.jobs.all pipelineJobSchema && candidate.correlationLinks.all correlationLinkSchema &&
      candidate.status.isSome && pipelineCorrelationSchema candidate.correlation &&
        candidate.lastUpdatedAt.isDatetime

/-- A candidate that passed the schema. -/
structure Pipeline extends PipelineCandidate where
  passed : pipelineSchema toPipelineCandidate = true

/-- `pipelineSchema.safeParse` -/
def safeParse (candidate : PipelineCandidate) : Option Pipeline :=
  if passed : pipelineSchema candidate = true then some ⟨candidate, passed⟩ else none

structure FlinkJobSummary where
  jid : JsString
  name : JsString
  state : JsString
  startTime : JsNumber
  endTime : JsNumber
  lastModification : JsNumber
  tasks : OrderedMap JsString JsNumber

structure FlinkVertex where
  name : JsString
  status : JsString

structure FlinkJobDetail where
  jid : JsString
  state : JsString
  vertices : List FlinkVertex

/-- A job of which the detail may be missing. -/
structure FlinkJobInput where
  summary : FlinkJobSummary
  detail : Option FlinkJobDetail

def FLINK_SERVICE_ID : JsString := ofString "svc-flink"

def ICEBERG_SERVICE_ID : JsString := ofString "svc-iceberg"

/-- Fields that a found object does not have are undefined. -/
structure StateMapping where
  health : Option HealthStatus
  result : Option RunResult
  deriving DecidableEq

def FLINK_STATE_MAPPING : List (String × StateMapping) :=
  [("RUNNING", ⟨some .healthy, some .running⟩),
    ("INITIALIZING", ⟨some .unknown, some .unknown⟩),
    ("CREATED", ⟨some .unknown, some .unknown⟩),
    ("RECONCILING", ⟨some .unknown, some .unknown⟩),
    ("RESTARTING", ⟨some .degraded, some .unknown⟩),
    ("FAILING", ⟨some .degraded, some .unknown⟩),
    ("FAILED", ⟨some .unavailable, some .failed⟩),
    ("CANCELLING", ⟨some .unknown, some .unknown⟩),
    ("CANCELED", ⟨some .unavailable, some .unknown⟩),
    ("SUSPENDED", ⟨some .unavailable, some .unknown⟩),
    ("FINISHED", ⟨some .healthy, some .succeeded⟩)]

def UNKNOWN_STATE : StateMapping := ⟨some .unknown, some .unknown⟩

def FAILURE_STATES : List JsString := ["RESTARTING", "FAILING", "FAILED"].map ofString

/-- A member that every record has, and which has neither field. -/
def isInherited (state : JsString) : Bool := (OBJECT_PROTOTYPE.map ofString).any (state = ·)

/-- `FLINK_STATE_MAPPING[state] ?? UNKNOWN_STATE` -/
def stateMapping (state : JsString) : StateMapping :=
  match FLINK_STATE_MAPPING.find? (ofString ·.1 = state) with
  | some entry => entry.2
  | none => if isInherited state then ⟨none, none⟩ else UNKNOWN_STATE

def mapState (state : JsString) (tasks : OrderedMap JsString JsNumber) : StateMapping :=
  if state = ofString "RUNNING" ∧
      JsNumber.less (.ofNat 0) ((tasks.get? (ofString "failed")).getD (.ofNat 0)) then
    ⟨some .degraded, some .running⟩
  else stateMapping state

def isSlugUnit (unit : UInt16) : Bool :=
  (ofChar 'a' ≤ unit && unit ≤ ofChar 'z') || (ofChar '0' ≤ unit && unit ≤ ofChar '9')

def dash : UInt16 := ofChar '-'

/-- Each run of other units becomes one dash. -/
def replaceRuns (inRun : Bool) : JsString → JsString
  | [] => []
  | unit :: rest =>
      if isSlugUnit unit then unit :: replaceRuns false rest
      else if inRun then replaceRuns true rest else dash :: replaceRuns true rest

/-- `replace(/^-+|-+$/g, "")` -/
def trimDashes (s : JsString) : JsString :=
  ((s.dropWhile (· = dash)).reverse.dropWhile (· = dash)).reverse

def slug (toLowerCase : JsString → JsString) (value : JsString) : JsString :=
  let s := trimDashes (replaceRuns false (toLowerCase value))
  if s = [] then ofString "unnamed" else s

def isTableUnit (unit : UInt16) : Bool :=
  (ofChar 'A' ≤ unit && unit ≤ ofChar 'Z') || isSlugUnit unit || unit = ofChar '_' ||
    unit = ofChar '.' || unit = dash

def SINK : JsString := ofString "IcebergSink"

/-- A match of `/IcebergSink\s+([A-Za-z0-9_.-]+)/` at the start: the group and the length. -/
def sinkTableAt (s : JsString) : Option (JsString × Nat) :=
  if SINK.isPrefixOf s then
    let after := s.drop SINK.length
    let blanks := after.takeWhile isSpaceUnit
    let table := (after.dropWhile isSpaceUnit).takeWhile isTableUnit
    if blanks = [] ∨ table = [] then none
    else some (table, SINK.length + blanks.length + table.length)
  else none

/-- The groups of all matches, the first `skipped` units being the rest of one. -/
def sinkTablesFrom : Nat → JsString → List JsString
  | _, [] => []
  | 0, unit :: rest =>
      match sinkTableAt (unit :: rest) with
      | some (table, length) => table :: sinkTablesFrom (length - 1) rest
      | none => sinkTablesFrom 0 rest
  | skipped + 1, _ :: rest => sinkTablesFrom skipped rest

def extractSinkTables : Option FlinkJobDetail → List JsString
  | none => []
  | some detail =>
      Text.sortBy byCodePoint
        (distinctItems (detail.vertices.flatMap fun vertex => sinkTablesFrom 0 vertex.name))

def stripPrefix (name prefixed : JsString) : JsString :=
  if prefixed ≠ [] ∧ prefixed.isPrefixOf name ∧ prefixed.length < name.length then
    name.drop prefixed.length
  else name

/-! ## Pipelines -/

def pipelineIdFor (jid : JsString) : JsString := ofString "pl-flink-" ++ jid

structure PipelineOptions where
  jobNamePrefix : JsString
  now : IsoTime

def flinkJob (input : FlinkJobInput) : PipelineJob :=
  let summary := input.summary
  { id := ofString "job-flink-" ++ summary.jid
    name := summary.name
    kind := .flink
    serviceId := FLINK_SERVICE_ID
    lastRun := (isoOrNull summary.startTime).map fun startedAt =>
      { result := (mapState summary.state summary.tasks).result
        startedAt := startedAt
        finishedAt := isoOrNull summary.endTime
        failureReason :=
          if FAILURE_STATES.any (summary.state = ·) then
            some (ofString "Flink reported job state " ++ summary.state)
          else none }
    relatedResourceIds := [] }

def flinkStages (input : FlinkJobInput) : List PipelineStage :=
  { serviceId := FLINK_SERVICE_ID
    serviceType := .flink
    status := (mapState input.summary.state input.summary.tasks).health
    detail := some (ofString "Flink job state " ++ input.summary.state) } ::
  (extractSinkTables input.detail).map fun table =>
    { serviceId := ICEBERG_SERVICE_ID
      serviceType := .iceberg
      status := some .unknown
      detail := some (ofString "Sink table " ++ table ++
        ofString " reported by the Flink job graph; not verified against the catalog") }

section Build

variable (toLowerCase : JsString → JsString) (options : PipelineOptions)

def jobEntity (summary : FlinkJobSummary) : CorrelationEntity where
  kind := .flinkJob
  id := ofString "job-flink-" ++ summary.jid
  name := stripPrefix summary.name options.jobNamePrefix
  labels := .empty

def tableId (table : JsString) : JsString := ofString "table-" ++ slug toLowerCase table

def tableEntity (table : JsString) : CorrelationEntity where
  kind := .icebergTable
  id := tableId toLowerCase table
  name := table
  labels := .empty

/-- `new Map(...)` of the tables by their ids: the last table of an id counts. -/
def tableByEntityId (tables : List JsString) (id : JsString) : Option JsString :=
  tables.reverse.find? (tableId toLowerCase · = id)

def sinkEvidence (name table : JsString) : JsString :=
  ofString "Flink job graph of '" ++ name ++ ofString "' reports an IcebergSink on '" ++ table ++
    ofString "'"

/-- Links to tables also say where the table was seen. -/
def withEvidence (name : JsString) (tables : List JsString) (link : CorrelationLink) :
    CorrelationLink :=
  if link.relation = .jobWritesTable then
    { link with
      evidence := link.evidence ++
        [sinkEvidence name
          ((tableByEntityId toLowerCase tables link.target.id).getD link.target.id)] }
  else link

def flinkLinks (input : FlinkJobInput) : List CorrelationLink :=
  let tables := extractSinkTables input.detail
  (correlate toLowerCase
    (jobEntity options input.summary :: tables.map (tableEntity toLowerCase))).map
      (withEvidence toLowerCase input.summary.name tables)

/-- The confidence of the weakest link. -/
def weakest : List CorrelationLink → ℚ
  | [] => AMBIGUOUS_CONFIDENCE
  | first :: rest => (rest.map CorrelationLink.confidence).foldl min first.confidence

def lastUpdatedAt (summary : FlinkJobSummary) : IsoTime :=
  ((isoOrNull summary.lastModification).or (isoOrNull summary.startTime)).getD options.now

def pipelineCandidate (input : FlinkJobInput) : PipelineCandidate where
  id := pipelineIdFor input.summary.jid
  name := input.summary.name
  stages := flinkStages input
  jobs := [flinkJob input]
  correlationLinks := flinkLinks toLowerCase options input
  status := (mapState input.summary.state input.summary.tasks).health
  correlation :=
    { confidence := weakest (flinkLinks toLowerCase options input)
      method := ofString "inferred" }
  lastUpdatedAt := lastUpdatedAt options input.summary

def mapJob (input : FlinkJobInput) : Option Pipeline :=
  safeParse (pipelineCandidate toLowerCase options input)

structure PipelinesResult where
  pipelines : List Pipeline
  skipped : Nat

def buildPipelines (inputs : List FlinkJobInput) : PipelinesResult where
  pipelines := Text.sortBy (fun a b => byCodePoint a.id b.id)
    (inputs.filterMap (mapJob toLowerCase options))
  skipped := inputs.countP fun input => (mapJob toLowerCase options input).isNone

end Build

end BelugaManager.DomainApi
