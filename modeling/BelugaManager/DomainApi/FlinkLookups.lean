import BelugaManager.DomainApi.FlinkLinks
import BelugaManager.DomainApi.FlinkSnapshots

/-!
# Looking up one pipeline

What `buildSnapshot` of `flink/adapter.ts` makes of the outcomes of its reads, and what
`getPipeline` answers from it: a pipeline, that there is none, or that this is not known.
-/

namespace BelugaManager.DomainApi

open Foundation Foundation.JsString

/-- How the reads of a build end: the overview, the detail of each listed job, and whether
the time budget was used up. -/
structure SnapshotOutcome where
  overview : Except FlinkFailure (List FlinkJobSummary)
  detail : ℕ → Except FlinkFailure FlinkJobDetail
  aborted : Bool

structure PipelineSnapshot where
  pipelines : List Pipeline
  warnings : List ListWarning
  incompletePipelineIds : List JsString

structure PipelineLookup where
  pipeline : Option Pipeline
  warnings : List ListWarning
  unavailable : Bool

def flinkWarning (code message : String) : ListWarning where
  code := code
  message := ofString message
  serviceId := some "svc-flink"

def warningFor (failure : FlinkFailure) : ListWarning :=
  flinkWarning "UPSTREAM_UNAVAILABLE" <|
    match failure with
    | .client .unreachable | .other =>
        "Flink JobManager is unreachable; live pipelines are unavailable"
    | .client .timeout => "Flink JobManager did not respond in time; live pipelines are unavailable"
    | .client .httpError =>
        "Flink JobManager returned an error response; live pipelines are unavailable"
    | .client .invalidResponse =>
        "Flink JobManager returned an unexpected response; live pipelines are unavailable"
    | .client .overloaded =>
        "Too many pending Flink JobManager requests; live pipelines are temporarily unavailable"

/-- A warning, if there is something to warn of. -/
def warnIf (condition : Bool) (code message : String) : List ListWarning :=
  if condition then [flinkWarning code message] else []

/-- The listed jobs that are read, with the outcomes of their reads. -/
def jobReads (outcome : SnapshotOutcome) (summaries : List FlinkJobSummary) :
    List (FlinkJobSummary × Except FlinkFailure FlinkJobDetail) :=
  (summaries.take MAX_JOBS).mapIdx fun i summary => (summary, outcome.detail i)

def isFailed (read : Except FlinkFailure FlinkJobDetail) : Bool :=
  match read with
  | .ok _ => false
  | .error _ => true

section Snapshot

variable (toLowerCase : JsString → JsString) (options : PipelineOptions)

def listedSnapshot (outcome : SnapshotOutcome) (summaries : List FlinkJobSummary) :
    PipelineSnapshot :=
  let reads := jobReads outcome summaries
  let incompletePipelineIds := (reads.filter fun read => isFailed read.2).map fun read =>
    pipelineIdFor read.1.jid
  let result := buildPipelines toLowerCase options
    (reads.map fun read => { summary := read.1, detail := read.2.toOption })
  { pipelines := result.pipelines
    warnings :=
      warnIf (MAX_JOBS < summaries.length) "TRUNCATED"
          ("Flink reports " ++ toString summaries.length ++ " jobs; only the first " ++
            toString MAX_JOBS ++ " are shown") ++
        warnIf (incompletePipelineIds ≠ []) "PARTIAL"
          ("Flink job details were unavailable for " ++ toString incompletePipelineIds.length ++
            " job(s)" ++ (if outcome.aborted then " (snapshot time budget exceeded)" else "") ++
              "; their sink tables are not shown") ++
        warnIf (0 < result.skipped) "INVALID_JOB"
          (toString result.skipped ++
            " Flink job(s) could not be mapped to a Pipeline and were skipped")
    incompletePipelineIds := incompletePipelineIds }

def buildSnapshot (outcome : SnapshotOutcome) : PipelineSnapshot :=
  match outcome.overview with
  | .error failure =>
      { pipelines := [], warnings := [warningFor failure], incompletePipelineIds := [] }
  | .ok summaries => listedSnapshot toLowerCase options outcome summaries

end Snapshot

def isHexUnit (unit : UInt16) : Bool :=
  (ofChar '0' ≤ unit && unit ≤ ofChar '9') || (ofChar 'a' ≤ unit && unit ≤ ofChar 'f')

/-- `PIPELINE_ID_PATTERN.test(id)` on code units. -/
def isPipelineId (id : JsString) : Bool :=
  (ofString "pl-flink-").isPrefixOf id && (id.drop 9).length = 32 && (id.drop 9).all isHexUnit

def getPipeline (snap : PipelineSnapshot) (id : JsString) : PipelineLookup :=
  if isPipelineId id = false then { pipeline := none, warnings := [], unavailable := false }
  else if snap.warnings.any (·.code = "UPSTREAM_UNAVAILABLE") then
    { pipeline := none, warnings := snap.warnings, unavailable := true }
  else
    let pipeline := snap.pipelines.find? (·.id = id)
    if pipeline.isSome && snap.incompletePipelineIds.any (id = ·) then
      { pipeline := none
        warnings := snap.warnings.filter (·.code = "PARTIAL")
        unavailable := true }
    else { pipeline := pipeline, warnings := [], unavailable := false }

/-! ## The three answers -/

/-- A job is listed at a place among the first hundred. -/
def ListedAt (outcome : SnapshotOutcome) (i : ℕ) (summary : FlinkJobSummary) : Prop :=
  i < MAX_JOBS ∧ ∃ summaries, outcome.overview = .ok summaries ∧ summaries[i]? = some summary

section Answers

variable (toLowerCase : JsString → JsString) (options : PipelineOptions)

/-- A pipeline is given for a job whose detail was read, it is not known when a read failed,
and there is none only where none is listed. -/
structure ThreeAnswers (outcome : SnapshotOutcome) (id : JsString) (lookup : PipelineLookup) :
    Prop where
  found : ∀ pipeline, lookup.pipeline = some pipeline → pipeline.id = id ∧
    ∃ i summary detail, ListedAt outcome i summary ∧ pipelineIdFor summary.jid = id ∧
      outcome.detail i = .ok detail ∧
        mapJob toLowerCase options ⟨summary, some detail⟩ = some pipeline
  unknown : isPipelineId id = true →
    (∃ failure, outcome.overview = .error failure) ∨
      (∃ i summary failure, ListedAt outcome i summary ∧ pipelineIdFor summary.jid = id ∧
        outcome.detail i = .error failure) → lookup.unavailable = true
  notFound : lookup.pipeline = none → lookup.unavailable = false →
    isPipelineId id = false ∨
      (∃ summaries, outcome.overview = .ok summaries) ∧
        ∀ i summary, ListedAt outcome i summary → pipelineIdFor summary.jid ≠ id

variable {toLowerCase options}

theorem mem_jobReads {outcome : SnapshotOutcome} {summaries : List FlinkJobSummary}
    {summary : FlinkJobSummary} {read : Except FlinkFailure FlinkJobDetail} :
    (summary, read) ∈ jobReads outcome summaries ↔
      ∃ i, i < MAX_JOBS ∧ summaries[i]? = some summary ∧ outcome.detail i = read := by
  rw [jobReads, List.mem_mapIdx]
  constructor
  · rintro ⟨i, inside, isRead⟩
    rw [List.length_take, lt_min_iff] at inside
    rw [List.getElem_take, Prod.mk.injEq] at isRead
    exact ⟨i, inside.1, List.getElem?_eq_some_iff.mpr ⟨inside.2, isRead.1⟩, isRead.2⟩
  · rintro ⟨i, few, found, isRead⟩
    rcases List.getElem?_eq_some_iff.mp found with ⟨inside, isSummary⟩
    refine ⟨i, ?_, ?_⟩
    · rw [List.length_take]
      exact lt_min few inside
    · rw [List.getElem_take, isSummary, isRead]

section Listed

variable {outcome : SnapshotOutcome} {summaries : List FlinkJobSummary}
  (read : outcome.overview = .ok summaries)

include read in
theorem listedAt_iff {i : ℕ} {summary : FlinkJobSummary} :
    ListedAt outcome i summary ↔ i < MAX_JOBS ∧ summaries[i]? = some summary := by
  constructor
  · rintro ⟨few, others, isRead, found⟩
    obtain rfl := Except.ok.inj (read.symm.trans isRead)
    exact ⟨few, found⟩
  · rintro ⟨few, found⟩
    exact ⟨few, summaries, read, found⟩

include read in
theorem mem_jobReads_iff {summary : FlinkJobSummary} {reply : Except FlinkFailure FlinkJobDetail} :
    (summary, reply) ∈ jobReads outcome summaries ↔
      ∃ i, ListedAt outcome i summary ∧ outcome.detail i = reply := by
  rw [mem_jobReads]
  simp only [listedAt_iff read, and_assoc]

include read in
theorem mem_pipelines_iff {pipeline : Pipeline} :
    pipeline ∈ (listedSnapshot toLowerCase options outcome summaries).pipelines ↔
      ∃ i summary, ListedAt outcome i summary ∧
        mapJob toLowerCase options ⟨summary, (outcome.detail i).toOption⟩ = some pipeline := by
  have members : pipeline ∈ (listedSnapshot toLowerCase options outcome summaries).pipelines ↔
      ∃ entry ∈ jobReads outcome summaries,
        mapJob toLowerCase options ⟨entry.1, entry.2.toOption⟩ = some pipeline := by
    simp [listedSnapshot, buildPipelines]
  rw [members]
  constructor
  · rintro ⟨⟨summary, reply⟩, inReads, mapped⟩
    rcases (mem_jobReads_iff read).mp inReads with ⟨i, listed, rfl⟩
    exact ⟨i, summary, listed, mapped⟩
  · rintro ⟨i, summary, listed, mapped⟩
    exact ⟨(summary, outcome.detail i), (mem_jobReads_iff read).mpr ⟨i, listed, rfl⟩, mapped⟩

include read in
theorem mem_incomplete_iff {id : JsString} :
    id ∈ (listedSnapshot toLowerCase options outcome summaries).incompletePipelineIds ↔
      ∃ i summary failure, ListedAt outcome i summary ∧ pipelineIdFor summary.jid = id ∧
        outcome.detail i = .error failure := by
  rw [listedSnapshot, List.mem_map]
  constructor
  · rintro ⟨⟨summary, reply⟩, inReads, rfl⟩
    rcases List.mem_filter.mp inReads with ⟨inReads, failed⟩
    rcases (mem_jobReads_iff read).mp inReads with ⟨i, listed, isReply⟩
    cases reply with
    | ok detail => cases failed
    | error failure => exact ⟨i, summary, failure, listed, rfl, isReply⟩
  · rintro ⟨i, summary, failure, listed, rfl, isReply⟩
    refine ⟨(summary, .error failure), List.mem_filter.mpr ⟨?_, rfl⟩, rfl⟩
    exact (mem_jobReads_iff read).mpr ⟨i, listed, isReply⟩

end Listed

/-- A snapshot of listed jobs does not say that the service is unavailable. -/
theorem listed_available (outcome : SnapshotOutcome) (summaries : List FlinkJobSummary) :
    (listedSnapshot toLowerCase options outcome summaries).warnings.any
      (·.code = "UPSTREAM_UNAVAILABLE") = false := by
  have other : ∀ (condition : Bool) (code message : String), code ≠ "UPSTREAM_UNAVAILABLE" →
      (warnIf condition code message).any (·.code = "UPSTREAM_UNAVAILABLE") = false := by
    intro condition code message differs
    cases condition with
    | true => simp [warnIf, flinkWarning, differs]
    | false => rfl
  rw [listedSnapshot, List.any_append, List.any_append, other _ _ _ (by decide),
    other _ _ _ (by decide), other _ _ _ (by decide)]
  rfl

theorem id_of_mapJob {input : FlinkJobInput} {pipeline : Pipeline}
    (mapped : mapJob toLowerCase options input = some pipeline) :
    pipeline.id = pipelineIdFor input.summary.jid := by
  rw [mapJob_eq_some_iff.mp mapped]
  rfl

/-- A text that is no id of a pipeline is not looked up. -/
theorem threeAnswers_of_not_isPipelineId {outcome : SnapshotOutcome} {id : JsString}
    (isOther : isPipelineId id = false) (snap : PipelineSnapshot) :
    ThreeAnswers toLowerCase options outcome id (getPipeline snap id) := by
  rw [getPipeline, if_pos isOther]
  constructor
  · nofun
  · intro isId
    rw [isOther] at isId
    cases isId
  · exact fun _ _ => Or.inl isOther

theorem threeAnswers_of_failed_overview {outcome : SnapshotOutcome} {failure : FlinkFailure}
    (failed : outcome.overview = .error failure) (id : JsString) :
    ThreeAnswers toLowerCase options outcome id
      (getPipeline (buildSnapshot toLowerCase options outcome) id) := by
  cases isId : isPipelineId id with
  | false => exact threeAnswers_of_not_isPipelineId isId _
  | true =>
      have warned : [warningFor failure].any (·.code = "UPSTREAM_UNAVAILABLE") = true := rfl
      rw [getPipeline, if_neg (by simp [isId]), buildSnapshot, failed]
      rw [if_pos warned]
      constructor
      · nofun
      · exact fun _ _ => rfl
      · nofun

/-- With the overview read, the answer depends on the pipeline of the id and on whether a
read of its detail failed. -/
theorem getPipeline_listed {id : JsString} (isId : isPipelineId id = true)
    (outcome : SnapshotOutcome) (summaries : List FlinkJobSummary) :
    let snap := listedSnapshot toLowerCase options outcome summaries
    getPipeline snap id =
      if (snap.pipelines.find? (·.id = id)).isSome && snap.incompletePipelineIds.any (id = ·) then
        ⟨none, snap.warnings.filter (·.code = "PARTIAL"), true⟩
      else ⟨snap.pipelines.find? (·.id = id), [], false⟩ := by
  intro snap
  rw [getPipeline, if_neg (by simp [isId]), if_neg (by simp [snap, listed_available])]

section Listed

variable {outcome : SnapshotOutcome} {summaries : List FlinkJobSummary} {id : JsString}
  (read : outcome.overview = .ok summaries)

include read in
theorem overview_not_failed : ¬∃ failure, outcome.overview = .error failure := by
  rintro ⟨failure, failed⟩
  rw [read] at failed
  cases failed

include read in
/-- Without a pipeline of the id, the answer is right if no job with the id is listed. -/
theorem threeAnswers_of_no_pipeline (isId : isPipelineId id = true)
    (found : (listedSnapshot toLowerCase options outcome summaries).pipelines.find? (·.id = id) =
      none) :
    ThreeAnswers toLowerCase options outcome id
        (getPipeline (listedSnapshot toLowerCase options outcome summaries) id) ↔
      ∀ i summary, ListedAt outcome i summary → pipelineIdFor summary.jid ≠ id := by
  rw [getPipeline_listed isId, found, if_neg (by simp)]
  constructor
  · intro answered
    rcases answered.notFound rfl rfl with isOther | ⟨_, notListed⟩
    · rw [isId] at isOther
      cases isOther
    · exact notListed
  · intro notListed
    constructor
    · nofun
    · rintro _ (failed | ⟨i, summary, failure, listed, isJob, _⟩)
      · exact absurd failed (overview_not_failed read)
      · exact absurd isJob (notListed i summary listed)
    · exact fun _ _ => Or.inr ⟨⟨summaries, read⟩, notListed⟩

include read in
/-- With a pipeline of the id, the answer is right. -/
theorem threeAnswers_of_pipeline (isId : isPipelineId id = true) {pipeline : Pipeline}
    (found : (listedSnapshot toLowerCase options outcome summaries).pipelines.find? (·.id = id) =
      some pipeline) :
    ThreeAnswers toLowerCase options outcome id
      (getPipeline (listedSnapshot toLowerCase options outcome summaries) id) := by
  have incomplete := @mem_incomplete_iff toLowerCase options outcome summaries read id
  have isPipeline := List.find?_some found
  rw [decide_eq_true_eq] at isPipeline
  rcases (mem_pipelines_iff read).mp (List.mem_of_find?_eq_some found) with
    ⟨i, summary, listed, mapped⟩
  have isJob : pipelineIdFor summary.jid = id := (id_of_mapJob mapped).symm.trans isPipeline
  rw [getPipeline_listed isId, found]
  by_cases missing :
      id ∈ (listedSnapshot toLowerCase options outcome summaries).incompletePipelineIds
  · have listedFailed : (listedSnapshot toLowerCase options outcome
        summaries).incompletePipelineIds.any (id = ·) = true := by simpa using missing
    rw [if_pos (by simp [listedFailed])]
    constructor
    · nofun
    · exact fun _ _ => rfl
    · nofun
  · have notFailed : (listedSnapshot toLowerCase options outcome
        summaries).incompletePipelineIds.any (id = ·) = false := by
      rw [List.any_eq_false]
      intro other inList sameId
      exact missing (of_decide_eq_true sameId ▸ inList)
    rw [if_neg (by simp [notFailed])]
    have noFailure : ∀ j other failure, ListedAt outcome j other →
        pipelineIdFor other.jid = id → outcome.detail j ≠ .error failure :=
      fun j other failure otherListed otherJob failed =>
        missing (incomplete.mpr ⟨j, other, failure, otherListed, otherJob, failed⟩)
    constructor
    · rintro _ ⟨⟩
      refine ⟨isPipeline, i, summary, ?_⟩
      cases detail : outcome.detail i with
      | error failure => exact absurd detail (noFailure i summary failure listed isJob)
      | ok value =>
          rw [detail] at mapped
          exact ⟨value, listed, isJob, rfl, mapped⟩
    · rintro _ (failed | ⟨j, other, failure, otherListed, otherJob, failed⟩)
      · exact absurd failed (overview_not_failed read)
      · exact absurd failed (noFailure j other failure otherListed otherJob)
    · nofun

include read in
/-- There is a pipeline of an id just when a listed job with it can be mapped. -/
theorem exists_pipeline_iff :
    (∃ pipeline, (listedSnapshot toLowerCase options outcome summaries).pipelines.find?
        (·.id = id) = some pipeline) ↔
      ∃ i summary, ListedAt outcome i summary ∧ pipelineIdFor summary.jid = id ∧
        Mappable options summary := by
  rw [← Option.isSome_iff_exists, List.find?_isSome]
  constructor
  · rintro ⟨pipeline, inSnap, isPipeline⟩
    rcases (mem_pipelines_iff read).mp inSnap with ⟨i, summary, listed, mapped⟩
    refine ⟨i, summary, listed, (id_of_mapJob mapped).symm.trans (of_decide_eq_true isPipeline), ?_⟩
    exact (exists_mapJob_iff _).mp ⟨pipeline, mapped⟩
  · rintro ⟨i, summary, listed, isJob, mappable⟩
    rcases (@exists_mapJob_iff toLowerCase options
      ⟨summary, (outcome.detail i).toOption⟩).mpr mappable with ⟨pipeline, mapped⟩
    refine ⟨pipeline, (mem_pipelines_iff read).mpr ⟨i, summary, listed, mapped⟩, ?_⟩
    exact decide_eq_true ((id_of_mapJob mapped).trans isJob)

end Listed

variable (toLowerCase options)

/-- The answers are right just when a listed job with the id can be mapped, if there is any
job with the id. -/
theorem threeAnswers_iff (outcome : SnapshotOutcome) (id : JsString) :
    ThreeAnswers toLowerCase options outcome id
        (getPipeline (buildSnapshot toLowerCase options outcome) id) ↔
      (isPipelineId id = true →
        (∃ i summary, ListedAt outcome i summary ∧ pipelineIdFor summary.jid = id) →
          ∃ i summary, ListedAt outcome i summary ∧ pipelineIdFor summary.jid = id ∧
            Mappable options summary) := by
  cases isId : isPipelineId id with
  | false =>
      refine ⟨fun _ => nofun, fun _ => threeAnswers_of_not_isPipelineId isId _⟩
  | true =>
      cases read : outcome.overview with
      | error failure =>
          refine ⟨?_, fun _ => threeAnswers_of_failed_overview read id⟩
          rintro _ _ ⟨i, summary, ⟨_, summaries, isRead, _⟩, _⟩
          rw [read] at isRead
          cases isRead
      | ok summaries =>
          have built : buildSnapshot toLowerCase options outcome =
              listedSnapshot toLowerCase options outcome summaries := by
            rw [buildSnapshot, read]
          have exists_iff := @exists_pipeline_iff toLowerCase options outcome summaries id read
          rw [built, ← exists_iff]
          cases found : (listedSnapshot toLowerCase options outcome summaries).pipelines.find?
              (·.id = id) with
          | none =>
              rw [threeAnswers_of_no_pipeline read isId found]
              constructor
              · rintro notListed _ ⟨i, summary, listed, isJob⟩
                exact absurd isJob (notListed i summary listed)
              · intro mappable i summary listed isJob
                rcases mappable rfl ⟨i, summary, listed, isJob⟩ with ⟨pipeline, isSome⟩
                cases isSome
          | some pipeline =>
              exact ⟨fun _ _ _ => ⟨pipeline, rfl⟩,
                fun _ => threeAnswers_of_pipeline read isId found⟩

end Answers

/-- A job in a state that is named like an inherited member. -/
def inheritedState : FlinkJobSummary :=
  { slugTwins.summary with state := ofString "constructor" }

/-- Such a job is listed and its detail is read, but there is said to be none. -/
theorem skipped_job_not_found :
    ¬ ∀ (options : PipelineOptions) (outcome : SnapshotOutcome) (id : JsString),
      ThreeAnswers (List.map lowerUnit) options outcome id
        (getPipeline (buildSnapshot (List.map lowerUnit) options outcome) id) := by
  intro always
  let options : PipelineOptions := ⟨[], ⟨0⟩⟩
  let outcome : SnapshotOutcome :=
    { overview := .ok [inheritedState]
      detail := fun _ => .ok ⟨inheritedState.jid, inheritedState.state, []⟩
      aborted := false }
  have read : outcome.overview = .ok [inheritedState] := rfl
  have isId : isPipelineId (pipelineIdFor inheritedState.jid) = true := by decide
  have listed : ListedAt outcome 0 inheritedState := (listedAt_iff read).mpr ⟨by decide, rfl⟩
  have noPipeline : (listedSnapshot (List.map lowerUnit) options outcome
      [inheritedState]).pipelines.find? (·.id = pipelineIdFor inheritedState.jid) = none := by
    rw [← Option.not_isSome_iff_eq_none, Option.isSome_iff_exists, exists_pipeline_iff read]
    rintro ⟨i, summary, inOverview, _, mappable⟩
    have single := ((listedAt_iff read).mp inOverview).2
    obtain rfl := List.mem_singleton.mp (List.mem_of_getElem? single)
    exact absurd mappable.ownState (by decide)
  have answered := always options outcome (pipelineIdFor inheritedState.jid)
  exact (threeAnswers_of_no_pipeline read isId noPipeline).mp answered 0 inheritedState listed rfl

end BelugaManager.DomainApi
