import BelugaManager.DomainApi.FlinkMapping
import Mathlib.Tactic.NormNum

/-!
# Links from Flink jobs to their tables

Each job is correlated with its own sink tables only.  A table takes part under an id made
from its slug, and what a link says of its table is found again by that id.
-/

namespace BelugaManager.DomainApi

open Foundation Foundation.JsString

section Job

variable {toLowerCase : JsString → JsString} {job : CorrelationEntity}
  {tables : List CorrelationEntity}

/-- The rule that links jobs to tables. -/
def writesRule (toLowerCase : JsString → JsString) : Rule where
  relation := .jobWritesTable
  sourceKind := .flinkJob
  targetKind := .icebergTable
  declaredOn := .source
  labelKey := ofString "beluga.io/sink-table"
  key := fun entity =>
    if entity.kind = .icebergTable then lastSegmentKey toLowerCase entity.name
    else firstSignificantToken toLowerCase entity.name

/-- The other rules ask for kinds that do not occur here. -/
theorem exists_rules (toLowerCase : JsString → JsString) : ∃ topic catalog dag,
    RULES toLowerCase = [topic, writesRule toLowerCase, catalog, dag] ∧
      topic.sourceKind = .kafkaTopic ∧ catalog.targetKind = .trinoCatalog ∧
        dag.sourceKind = .airflowDag :=
  ⟨_, _, _, rfl, rfl, rfl, rfl⟩

/-- A job without labels and tables without labels. -/
structure JobWithTables (job : CorrelationEntity) (tables : List CorrelationEntity) : Prop where
  isJob : job.kind = .flinkJob
  areTables : ∀ table ∈ tables, table.kind = .icebergTable
  unlabelled : ∀ entity ∈ job :: tables, entity.labels = .empty

theorem declaredLinks_eq_nil {rule : Rule} {sources targets : List CorrelationEntity}
    (unlabelled : ∀ entity ∈ sources ++ targets, entity.labels = .empty) :
    declaredLinks toLowerCase rule sources targets = [] := by
  apply List.filterMap_eq_nil_iff.mpr
  intro owner picked
  have listed : owner ∈ sources ++ targets := by
    rw [Side.pick] at picked
    split at picked
    · exact List.mem_append_left _ picked
    · exact List.mem_append_right _ picked
  rw [ownerLink, unlabelled owner listed]
  rfl

theorem declaredIds_eq_nil {rule : Rule} {sources targets : List CorrelationEntity}
    (unlabelled : ∀ entity ∈ sources ++ targets, entity.labels = .empty) :
    declaredIds rule sources targets = [] := by
  apply List.filterMap_eq_nil_iff.mpr
  intro owner picked
  have listed : owner ∈ sources ++ targets := by
    rw [Side.pick] at picked
    split at picked
    · exact List.mem_append_left _ picked
    · exact List.mem_append_right _ picked
  rw [unlabelled owner listed]
  rfl

/-- The targets that share the key of a source. -/
def sharing (rule : Rule) (source : CorrelationEntity) (targets : List CorrelationEntity) :
    List CorrelationEntity :=
  targets.filter fun target => rule.key source ≠ [] ∧ rule.key target = rule.key source

theorem keyPairs_single {rule : Rule} {source : CorrelationEntity}
    {targets : List CorrelationEntity}
    (unlabelled : ∀ entity ∈ [source] ++ targets, entity.labels = .empty) :
    keyPairs rule [source] targets =
      (sharing rule source targets).map fun target => (source, target, rule.key source) := by
  have sources : eligibleSources rule [source] targets = [source] := by
    simp [eligibleSources, declaredIds_eq_nil unlabelled]
  have all : eligibleTargets rule [source] targets = targets := by
    simp [eligibleTargets, declaredIds_eq_nil unlabelled]
  rw [keyPairs, sources, all, List.flatMap_singleton, sharing]
  by_cases noKey : rule.key source = []
  · simp [noKey]
  · simp [noKey]

/-- The links of a single source are ambiguous if there are several. -/
theorem guessedLinks_single {rule : Rule} {source : CorrelationEntity}
    {targets : List CorrelationEntity}
    (unlabelled : ∀ entity ∈ [source] ++ targets, entity.labels = .empty) :
    guessedLinks rule [source] targets =
      (sharing rule source targets).map fun target =>
        conventionLink rule source target (rule.key source)
          (1 < (sharing rule source targets).length) := by
  rw [guessedLinks, keyPairs_single unlabelled, List.map_map, List.map_map, List.map_map]
  apply List.map_congr_left
  intro target _
  have bySource : ((OrderedMap.tally ((sharing rule source targets).map fun _ => source.id)).get?
      source.id).getD 0 = (sharing rule source targets).length :=
    OrderedMap.get?_tally_map_const _ _
  have byTarget : ((OrderedMap.tally ((sharing rule source targets).map CorrelationEntity.id)).get?
      target.id).getD 0 ≤ (sharing rule source targets).length := by
    have atMost := OrderedMap.get?_tally_le ((sharing rule source targets).map CorrelationEntity.id)
      target.id
    rwa [List.length_map] at atMost
  have counted : (1 < (sharing rule source targets).length ∨
      1 < ((OrderedMap.tally ((sharing rule source targets).map CorrelationEntity.id)).get?
        target.id).getD 0) ↔ 1 < (sharing rule source targets).length := by
    omega
  simp only [Function.comp_apply, Function.comp_def, guessedLink]
  rw [bySource]
  congr 1
  rw [Bool.eq_iff_iff, Bool.or_eq_true, decide_eq_true_eq, decide_eq_true_eq]
  exact counted

variable (whole : JobWithTables job tables)

include whole in
theorem JobWithTables.ofKind_job : ofKind .flinkJob (sortById (job :: tables)) = [job] := by
  have perm := (Text.sortBy_perm (fun a b => byCodePoint a.id b.id) (job :: tables)).filter
    (·.kind = .flinkJob)
  have alone : (job :: tables).filter (·.kind = .flinkJob) = [job] := by
    rw [List.filter_cons_of_pos (by simp [whole.isJob]), List.filter_eq_nil_iff.mpr]
    intro table listed
    simp [whole.areTables table listed]
  rw [alone] at perm
  exact List.perm_singleton.mp perm

include whole in
theorem JobWithTables.ofKind_tables :
    (ofKind .icebergTable (sortById (job :: tables))).Perm tables := by
  have perm := (Text.sortBy_perm (fun a b => byCodePoint a.id b.id) (job :: tables)).filter
    (·.kind = .icebergTable)
  have others : (job :: tables).filter (·.kind = .icebergTable) = tables := by
    rw [List.filter_cons_of_neg (by simp [whole.isJob]), List.filter_eq_self]
    intro table listed
    simp [whole.areTables table listed]
  rw [others] at perm
  exact perm

include whole in
theorem JobWithTables.ofKind_other {kind : CorrelationEntityKind} (notJob : kind ≠ .flinkJob)
    (notTable : kind ≠ .icebergTable) : ofKind kind (sortById (job :: tables)) = [] := by
  apply List.filter_eq_nil_iff.mpr
  intro entity listed
  rw [sortById, Text.mem_sortBy] at listed
  rcases List.mem_cons.mp listed with rfl | inTables
  · simp [whole.isJob, notJob.symm]
  · simp [whole.areTables entity inTables, notTable.symm]

include whole in
theorem JobWithTables.unlabelled_ofKind (kind : CorrelationEntityKind) :
    ∀ entity ∈ ofKind kind (sortById (job :: tables)), entity.labels = .empty := by
  intro entity listed
  have inSorted := (List.mem_filter.mp listed).1
  rw [sortById, Text.mem_sortBy] at inSorted
  exact whole.unlabelled entity inSorted

include whole in
/-- The links of a job are those to the tables that share its key. -/
theorem JobWithTables.correlate_perm :
    (correlate toLowerCase (job :: tables)).Perm
      ((sharing (writesRule toLowerCase) job tables).map fun table =>
        conventionLink (writesRule toLowerCase) job table ((writesRule toLowerCase).key job)
          (1 < (sharing (writesRule toLowerCase) job tables).length)) := by
  have unlabelled : ∀ first second, ∀ entity ∈ ofKind first (sortById (job :: tables)) ++
      ofKind second (sortById (job :: tables)), entity.labels = .empty := by
    intro first second entity listed
    rcases List.mem_append.mp listed with inFirst | inSecond
    · exact whole.unlabelled_ofKind first entity inFirst
    · exact whole.unlabelled_ofKind second entity inSecond
  have noLinks : ∀ rule : Rule, rule.sourceKind ≠ .flinkJob ∧ rule.sourceKind ≠ .icebergTable ∨
      rule.targetKind ≠ .flinkJob ∧ rule.targetKind ≠ .icebergTable →
        ruleLinks toLowerCase (sortById (job :: tables)) rule = [] := by
    intro rule elsewhere
    rw [ruleLinks, declaredLinks_eq_nil (unlabelled _ _), List.nil_append]
    rcases elsewhere with ⟨notJob, notTable⟩ | ⟨notJob, notTable⟩
    · simp [whole.ofKind_other notJob notTable, guessedLinks, keyPairs, eligibleSources]
    · simp [whole.ofKind_other notJob notTable, guessedLinks, keyPairs, eligibleTargets]
  have writes : ruleLinks toLowerCase (sortById (job :: tables)) (writesRule toLowerCase) =
      (sharing (writesRule toLowerCase) job (ofKind .icebergTable (sortById (job :: tables)))).map
        fun table => conventionLink (writesRule toLowerCase) job table
          ((writesRule toLowerCase).key job)
          (1 < (sharing (writesRule toLowerCase) job
            (ofKind .icebergTable (sortById (job :: tables)))).length) := by
    have single := unlabelled .flinkJob .icebergTable
    rw [ruleLinks, declaredLinks_eq_nil (unlabelled _ _), List.nil_append]
    rw [whole.ofKind_job] at single
    change guessedLinks _ (ofKind .flinkJob _) (ofKind .icebergTable _) = _
    rw [whole.ofKind_job]
    exact guessedLinks_single single
  have rules : (RULES toLowerCase).flatMap (ruleLinks toLowerCase (sortById (job :: tables))) =
      ruleLinks toLowerCase (sortById (job :: tables)) (writesRule toLowerCase) := by
    rcases exists_rules toLowerCase with ⟨topic, catalog, dag, rules, fromTopic, toCatalog, fromDag⟩
    have noTopic := noLinks topic (Or.inl (by simp [fromTopic]))
    have noCatalog := noLinks catalog (Or.inr (by simp [toCatalog]))
    have noDag := noLinks dag (Or.inl (by simp [fromDag]))
    simp [rules, noTopic, noCatalog, noDag]
  have shared : (sharing (writesRule toLowerCase) job
      (ofKind .icebergTable (sortById (job :: tables)))).Perm
        (sharing (writesRule toLowerCase) job tables) :=
    whole.ofKind_tables.filter _
  rw [correlate, rules, writes, shared.length_eq]
  exact (Text.sortBy_perm _ _).trans (shared.map _)

end Job

/-! ## What the links are to say -/

section Links

variable (toLowerCase : JsString → JsString) (options : PipelineOptions)

/-- The key of a job, by its name without the common prefix. -/
def jobKey (summary : FlinkJobSummary) : JsString :=
  firstSignificantToken toLowerCase (stripPrefix summary.name options.jobNamePrefix)

def SharesKey (summary : FlinkJobSummary) (table : JsString) : Prop :=
  jobKey toLowerCase options summary ≠ [] ∧
    lastSegmentKey toLowerCase table = jobKey toLowerCase options summary

instance (summary : FlinkJobSummary) (table : JsString) :
    Decidable (SharesKey toLowerCase options summary table) :=
  inferInstanceAs (Decidable (_ ∧ _))

/-- The evidence of a link from a job to a table. -/
def tableEvidence (summary : FlinkJobSummary) (table : JsString) : List JsString :=
  [ofString "name key '" ++ jobKey toLowerCase options summary ++ ofString "' shared by " ++
      stripPrefix summary.name options.jobNamePrefix ++ ofString " and " ++ table,
    sinkEvidence summary.name table]

/-- Distinct links, each to one sink table of the job and with this table as its evidence,
of which only the link of a table that is alone with the key is trusted. -/
structure LinksFit (input : FlinkJobInput) (links : List CorrelationLink) : Prop where
  distinct : (links.map CorrelationLink.id).Nodup
  oneTable : ∀ link ∈ links, link.relation = .jobWritesTable → ∃ table,
    (∀ other, other ∈ extractSinkTables input.detail ∧ link.target.id = tableId toLowerCase other ↔
      other = table) ∧
    link.evidence = tableEvidence toLowerCase options input.summary table
  atMost : ∀ link ∈ links, link.confidence ≤ NAME_CONVENTION_CONFIDENCE
  alone : ∀ link ∈ links, link.confidence = NAME_CONVENTION_CONFIDENCE →
    ∃ table ∈ extractSinkTables input.detail, link.target.id = tableId toLowerCase table ∧
      ∀ other ∈ extractSinkTables input.detail,
        SharesKey toLowerCase options input.summary other ↔ other = table

/-- No table that shares the key of the job has the slug of another one. -/
def TablesApart (input : FlinkJobInput) : Prop :=
  ∀ table ∈ extractSinkTables input.detail, SharesKey toLowerCase options input.summary table →
    ∀ other ∈ extractSinkTables input.detail,
      slug toLowerCase other = slug toLowerCase table → other = table

theorem tableId_eq_iff (table other : JsString) :
    tableId toLowerCase table = tableId toLowerCase other ↔
      slug toLowerCase table = slug toLowerCase other :=
  List.append_right_inj _

/-- The sink tables that share the key of the job. -/
def linkedTables (input : FlinkJobInput) : List JsString :=
  (extractSinkTables input.detail).filter (SharesKey toLowerCase options input.summary)

/-- The link to a table. -/
def tableLink (input : FlinkJobInput) (table : JsString) : CorrelationLink :=
  withEvidence toLowerCase input.summary.name (extractSinkTables input.detail)
    (conventionLink (writesRule toLowerCase) (jobEntity options input.summary)
      (tableEntity toLowerCase table) (jobKey toLowerCase options input.summary)
      (1 < (linkedTables toLowerCase options input).length))

theorem nodup_extractSinkTables (detail : Option FlinkJobDetail) :
    (extractSinkTables detail).Nodup := by
  cases detail with
  | none => exact List.nodup_nil
  | some detail =>
      rw [extractSinkTables, (Text.sortBy_perm _ _).nodup_iff]
      exact nodup_distinctItems _

theorem flinkLinks_perm (input : FlinkJobInput) :
    (flinkLinks toLowerCase options input).Perm
      ((linkedTables toLowerCase options input).map (tableLink toLowerCase options input)) := by
  have whole : JobWithTables (jobEntity options input.summary)
      ((extractSinkTables input.detail).map (tableEntity toLowerCase)) := by
    constructor
    · rfl
    · rw [List.forall_mem_map]
      exact fun _ _ => rfl
    · rw [List.forall_mem_cons, List.forall_mem_map]
      exact ⟨rfl, fun _ _ => rfl⟩
  have shared : sharing (writesRule toLowerCase) (jobEntity options input.summary)
      ((extractSinkTables input.detail).map (tableEntity toLowerCase)) =
        (linkedTables toLowerCase options input).map (tableEntity toLowerCase) := by
    rw [sharing, List.filter_map, linkedTables]
    rfl
  have perm := (@JobWithTables.correlate_perm toLowerCase _ _ whole).map
    (withEvidence toLowerCase input.summary.name (extractSinkTables input.detail))
  rw [shared, List.map_map, List.map_map, List.length_map] at perm
  exact perm

variable {toLowerCase options}

theorem mem_linkedTables {input : FlinkJobInput} {table : JsString} :
    table ∈ linkedTables toLowerCase options input ↔
      table ∈ extractSinkTables input.detail ∧
        SharesKey toLowerCase options input.summary table := by
  rw [linkedTables, List.mem_filter, decide_eq_true_eq]

theorem tableLink_target (input : FlinkJobInput) (table : JsString) :
    (tableLink toLowerCase options input table).target.id = tableId toLowerCase table := rfl

theorem tableLink_id (input : FlinkJobInput) (table : JsString) :
    (tableLink toLowerCase options input table).id =
      ofString "job-writes-table" ++ ofString ":" ++ (ofString "job-flink-" ++ input.summary.jid) ++
        ofString "->" ++ tableId toLowerCase table := rfl

theorem tableLink_confidence (input : FlinkJobInput) (table : JsString) :
    (tableLink toLowerCase options input table).confidence =
      if 1 < (linkedTables toLowerCase options input).length then AMBIGUOUS_CONFIDENCE
      else NAME_CONVENTION_CONFIDENCE := by
  have unfolded : (tableLink toLowerCase options input table).confidence =
      if decide (1 < (linkedTables toLowerCase options input).length) = true
        then AMBIGUOUS_CONFIDENCE else NAME_CONVENTION_CONFIDENCE := rfl
  rw [unfolded]
  simp only [decide_eq_true_eq]

/-- The evidence of a link names the last table of its target. -/
theorem tableLink_evidence (input : FlinkJobInput) (table : JsString) :
    (tableLink toLowerCase options input table).evidence =
      [ofString "name key '" ++ jobKey toLowerCase options input.summary ++
          ofString "' shared by " ++ stripPrefix input.summary.name options.jobNamePrefix ++
            ofString " and " ++ table,
        sinkEvidence input.summary.name
          ((tableByEntityId toLowerCase (extractSinkTables input.detail)
            (tableId toLowerCase table)).getD (tableId toLowerCase table))] := rfl

/-- A table that is alone with its slug is found by its id. -/
theorem tableByEntityId_of_apart {tables : List JsString} {table : JsString}
    (listed : table ∈ tables)
    (apart : ∀ other ∈ tables, slug toLowerCase other = slug toLowerCase table → other = table) :
    tableByEntityId toLowerCase tables (tableId toLowerCase table) = some table := by
  rw [tableByEntityId]
  cases found : tables.reverse.find? (tableId toLowerCase · = tableId toLowerCase table) with
  | none =>
      have notFound := List.find?_eq_none.mp found table (List.mem_reverse.mpr listed)
      exact absurd (decide_eq_true rfl) notFound
  | some other =>
      have sameId := List.find?_some found
      rw [decide_eq_true_eq] at sameId
      have inTables := List.mem_reverse.mp (List.mem_of_find?_eq_some found)
      rw [apart other inTables ((tableId_eq_iff toLowerCase other table).mp sameId)]

theorem AMBIGUOUS_lt_NAME_CONVENTION : AMBIGUOUS_CONFIDENCE < NAME_CONVENTION_CONFIDENCE := by
  norm_num [AMBIGUOUS_CONFIDENCE, NAME_CONVENTION_CONFIDENCE]

variable (toLowerCase options)

theorem linksFit_iff (input : FlinkJobInput) :
    LinksFit toLowerCase options input (flinkLinks toLowerCase options input) ↔
      TablesApart toLowerCase options input := by
  have perm := flinkLinks_perm toLowerCase options input
  have links : ∀ link, link ∈ flinkLinks toLowerCase options input ↔
      ∃ table ∈ linkedTables toLowerCase options input,
        tableLink toLowerCase options input table = link := by
    intro link
    rw [perm.mem_iff, List.mem_map]
  constructor
  · intro fit table listed shares other otherListed sameSlug
    have linked := mem_linkedTables.mpr ⟨listed, shares⟩
    rcases fit.oneTable _ ((links _).mpr ⟨table, linked, rfl⟩) rfl with ⟨single, only, _⟩
    have isTable := (only table).mp ⟨listed, tableLink_target input table⟩
    have isOther := (only other).mp ⟨otherListed, by
      rw [tableLink_target, tableId_eq_iff, sameSlug]⟩
    rw [isTable, isOther]
  · intro apart
    constructor
    · rw [(perm.map CorrelationLink.id).nodup_iff, List.map_map]
      apply List.Nodup.map_on
      · intro table linked other otherLinked same
        rcases mem_linkedTables.mp linked with ⟨listed, shares⟩
        rcases mem_linkedTables.mp otherLinked with ⟨otherListed, otherShares⟩
        rw [Function.comp_apply, Function.comp_apply, tableLink_id, tableLink_id,
          List.append_right_inj, tableId_eq_iff] at same
        exact apart other otherListed otherShares table listed same
      · exact (nodup_extractSinkTables input.detail).filter _
    · intro link inLinks _
      rcases (links link).mp inLinks with ⟨table, linked, rfl⟩
      rcases mem_linkedTables.mp linked with ⟨listed, shares⟩
      refine ⟨table, ?_, ?_⟩
      · intro other
        rw [tableLink_target, tableId_eq_iff]
        constructor
        · rintro ⟨otherListed, sameSlug⟩
          exact apart table listed shares other otherListed sameSlug.symm
        · rintro rfl
          exact ⟨listed, rfl⟩
      · rw [tableLink_evidence, tableByEntityId_of_apart listed (apart table listed shares)]
        rfl
    · intro link inLinks
      rcases (links link).mp inLinks with ⟨table, _, rfl⟩
      rw [tableLink_confidence]
      split
      · exact le_of_lt AMBIGUOUS_lt_NAME_CONVENTION
      · exact le_refl _
    · intro link inLinks trusted
      rcases (links link).mp inLinks with ⟨table, linked, rfl⟩
      rw [tableLink_confidence] at trusted
      split at trusted
      · exact absurd trusted (ne_of_lt AMBIGUOUS_lt_NAME_CONVENTION)
      · rename_i few
        rcases mem_linkedTables.mp linked with ⟨listed, shares⟩
        refine ⟨table, listed, tableLink_target input table, ?_⟩
        intro other otherListed
        constructor
        · intro otherShares
          have otherLinked := mem_linkedTables.mpr ⟨otherListed, otherShares⟩
          rcases List.length_eq_one_iff.mp (Nat.le_antisymm (Nat.le_of_not_lt few)
            (List.length_pos_of_mem linked)) with ⟨single, isSingle⟩
          rw [isSingle, List.mem_singleton] at linked otherLinked
          rw [linked, otherLinked]
        · rintro rfl
          exact shares

/-! ## Which jobs are mapped -/

/-- What a job needs to be mapped: a name, a state that is no inherited member, and times
whose years have four digits. -/
structure Mappable (summary : FlinkJobSummary) : Prop where
  named : summary.name ≠ []
  ownState : isInherited summary.state = false
  times : ∀ startedAt, isoOrNull summary.startTime = some startedAt →
    startedAt.isDatetime = true ∧
      ∀ finishedAt, isoOrNull summary.endTime = some finishedAt → finishedAt.isDatetime = true
  updated : (lastUpdatedAt options summary).isDatetime = true

variable {toLowerCase options}

theorem stateMapping_isSome (state : JsString) :
    ((stateMapping state).health.isSome = true ↔ isInherited state = false) ∧
      ((stateMapping state).result.isSome = true ↔ isInherited state = false) := by
  have own : ∀ entry ∈ FLINK_STATE_MAPPING, isInherited (ofString entry.1) = false ∧
      entry.2.health.isSome = true ∧ entry.2.result.isSome = true := by
    decide
  rw [stateMapping]
  cases found : FLINK_STATE_MAPPING.find? (ofString ·.1 = state) with
  | none =>
      cases isInherited state with
      | true => decide
      | false => decide
  | some entry =>
      have isState := List.find?_some found
      rw [decide_eq_true_eq] at isState
      rcases own entry (List.mem_of_find?_eq_some found) with ⟨notInherited, health, result⟩
      rw [isState] at notInherited
      simp [notInherited, health, result]

theorem mapState_isSome (state : JsString) (tasks : OrderedMap JsString JsNumber) :
    ((mapState state tasks).health.isSome = true ↔ isInherited state = false) ∧
      ((mapState state tasks).result.isSome = true ↔ isInherited state = false) := by
  rw [mapState]
  split
  · rename_i failing
    rw [failing.1]
    decide
  · exact stateMapping_isSome state

theorem ofString_append_ne_nil {literal : String} (nonempty : ofString literal ≠ [])
    (rest : JsString) : ofString literal ++ rest ≠ [] :=
  List.append_ne_nil_of_left_ne_nil nonempty rest

theorem correlationLinkSchema_tableLink (input : FlinkJobInput) (table : JsString) :
    correlationLinkSchema (tableLink toLowerCase options input table) = true := by
  have confidence : isConfidence (tableLink toLowerCase options input table).confidence = true := by
    rw [tableLink_confidence]
    split
    · norm_num [isConfidence, AMBIGUOUS_CONFIDENCE]
    · norm_num [isConfidence, NAME_CONVENTION_CONFIDENCE]
  have ids : (tableLink toLowerCase options input table).id ≠ [] ∧
      (tableLink toLowerCase options input table).source.id ≠ [] ∧
        (tableLink toLowerCase options input table).target.id ≠ [] := by
    refine ⟨?_, ofString_append_ne_nil (by decide) _, ofString_append_ne_nil (by decide) _⟩
    rw [tableLink_id, List.append_assoc, List.append_assoc, List.append_assoc]
    exact ofString_append_ne_nil (by decide) _
  have evidence : (tableLink toLowerCase options input table).evidence.all (· ≠ []) = true := by
    rw [tableLink_evidence, sinkEvidence, List.append_assoc, List.append_assoc, List.append_assoc,
      List.append_assoc, List.append_assoc]
    simp [ofString_append_ne_nil (show ofString "name key '" ≠ [] by decide),
      ofString_append_ne_nil (show ofString "Flink job graph of '" ≠ [] by decide)]
  rw [correlationLinkSchema, confidence, evidence]
  simp [ids]

theorem isConfidence_foldl_min {first : ℚ} {rest : List ℚ} (isFirst : isConfidence first = true)
    (others : ∀ confidence ∈ rest, isConfidence confidence = true) :
    isConfidence (rest.foldl min first) = true := by
  induction rest generalizing first with
  | nil => exact isFirst
  | cons second rest ih =>
      rw [List.forall_mem_cons] at others
      apply ih _ others.2
      rcases min_choice first second with isMin | isMin
      · rw [isMin]
        exact isFirst
      · rw [isMin]
        exact others.1

theorem isConfidence_weakest {links : List CorrelationLink}
    (checked : ∀ link ∈ links, correlationLinkSchema link = true) :
    isConfidence (weakest links) = true := by
  have each : ∀ link ∈ links, isConfidence link.confidence = true := by
    intro link listed
    have all := checked link listed
    simp only [correlationLinkSchema, Bool.and_eq_true] at all
    exact all.1.2
  cases links with
  | nil => norm_num [weakest, isConfidence, AMBIGUOUS_CONFIDENCE]
  | cons first rest =>
      rw [List.forall_mem_cons] at each
      exact isConfidence_foldl_min each.1 (List.forall_mem_map.mpr each.2)

theorem lastRunSchema_iff (input : FlinkJobInput) :
    (flinkJob input).lastRun.all lastRunSchema = true ↔
      ∀ startedAt, isoOrNull input.summary.startTime = some startedAt →
        isInherited input.summary.state = false ∧ startedAt.isDatetime = true ∧
          ∀ finishedAt, isoOrNull input.summary.endTime = some finishedAt →
            finishedAt.isDatetime = true := by
  have reason : ∀ state : JsString, (if FAILURE_STATES.any (state = ·) then
      some (ofString "Flink reported job state " ++ state) else none).all (· ≠ []) = true := by
    intro state
    split
    · simp [ofString_append_ne_nil (show ofString "Flink reported job state " ≠ [] by decide)]
    · rfl
  have result := (mapState_isSome input.summary.state input.summary.tasks).2
  cases started : isoOrNull input.summary.startTime with
  | none => simp [flinkJob, started]
  | some startedAt =>
      have finished : (isoOrNull input.summary.endTime).all IsoTime.isDatetime = true ↔
          ∀ finishedAt, isoOrNull input.summary.endTime = some finishedAt →
            finishedAt.isDatetime = true := by
        cases isoOrNull input.summary.endTime with
        | none => simp
        | some finishedAt => simp
      simp only [flinkJob, started, Option.map_some, Option.all_some, lastRunSchema, reason,
        Bool.and_eq_true, result, finished, Option.some.injEq, forall_eq', and_assoc, and_true]

theorem flinkStages_schema (input : FlinkJobInput) :
    (flinkStages input).all pipelineStageSchema = true ↔
      isInherited input.summary.state = false := by
  have health := (mapState_isSome input.summary.state input.summary.tasks).1
  have tables : ∀ table, pipelineStageSchema
      { serviceId := ICEBERG_SERVICE_ID
        serviceType := .iceberg
        status := some .unknown
        detail := some (ofString "Sink table " ++ table ++
          ofString " reported by the Flink job graph; not verified against the catalog") } =
            true := by
    intro table
    have service : ICEBERG_SERVICE_ID ≠ [] := by decide
    rw [pipelineStageSchema, List.append_assoc]
    simp [ofString_append_ne_nil (show ofString "Sink table " ≠ [] by decide), service]
  have service : FLINK_SERVICE_ID ≠ [] := by decide
  rw [flinkStages, List.all_cons, List.all_map, Bool.and_eq_true, List.all_eq_true]
  simp only [Function.comp_apply, tables, implies_true, and_true]
  simp [pipelineStageSchema, service, health,
    ofString_append_ne_nil (show ofString "Flink job state " ≠ [] by decide)]

theorem pipelineSchema_iff (input : FlinkJobInput) :
    pipelineSchema (pipelineCandidate toLowerCase options input) = true ↔
      Mappable options input.summary := by
  have links : ∀ link ∈ flinkLinks toLowerCase options input,
      correlationLinkSchema link = true := by
    intro link listed
    rcases List.mem_map.mp ((flinkLinks_perm toLowerCase options input).mem_iff.mp listed) with
      ⟨table, _, rfl⟩
    exact correlationLinkSchema_tableLink input table
  have correlation : pipelineCorrelationSchema
      (pipelineCandidate toLowerCase options input).correlation = true := by
    have method : ofString "inferred" ≠ [] := by decide
    rw [pipelineCorrelationSchema, pipelineCandidate, isConfidence_weakest links]
    simp [method]
  have job : pipelineJobSchema (flinkJob input) = true ↔ input.summary.name ≠ [] ∧
      (flinkJob input).lastRun.all lastRunSchema = true := by
    have service : FLINK_SERVICE_ID ≠ [] := by decide
    have id : (flinkJob input).id ≠ [] := ofString_append_ne_nil (by decide) _
    have parts : (flinkJob input).name = input.summary.name ∧
        (flinkJob input).serviceId = FLINK_SERVICE_ID ∧
          (flinkJob input).relatedResourceIds = [] := ⟨rfl, rfl, rfl⟩
    rw [pipelineJobSchema, parts.1, parts.2.1, parts.2.2]
    simp [service, id]
  have id : (pipelineCandidate toLowerCase options input).id ≠ [] :=
    ofString_append_ne_nil (by decide) _
  have health := (mapState_isSome input.summary.state input.summary.tasks).1
  have whole : pipelineSchema (pipelineCandidate toLowerCase options input) = true ↔
      input.summary.name ≠ [] ∧ isInherited input.summary.state = false ∧
        pipelineJobSchema (flinkJob input) = true ∧
          (lastUpdatedAt options input.summary).isDatetime = true := by
    have parts : (pipelineCandidate toLowerCase options input).name = input.summary.name ∧
        (pipelineCandidate toLowerCase options input).stages = flinkStages input ∧
        (pipelineCandidate toLowerCase options input).jobs = [flinkJob input] ∧
        (pipelineCandidate toLowerCase options input).status =
          (mapState input.summary.state input.summary.tasks).health ∧
        (pipelineCandidate toLowerCase options input).lastUpdatedAt =
          lastUpdatedAt options input.summary := ⟨rfl, rfl, rfl, rfl, rfl⟩
    have allLinks : (pipelineCandidate toLowerCase options input).correlationLinks.all
        correlationLinkSchema = true := List.all_eq_true.mpr links
    simp only [pipelineSchema, correlation, allLinks, parts, List.all_cons, List.all_nil,
      Bool.and_eq_true, decide_eq_true_eq, flinkStages_schema, health]
    simp only [id, ne_eq, not_false_eq_true, true_and, and_true]
    tauto
  rw [whole, job, lastRunSchema_iff]
  constructor
  · intro ⟨named, ownState, ⟨_, times⟩, updated⟩
    exact ⟨named, ownState, fun startedAt started => (times startedAt started).2, updated⟩
  · intro mappable
    refine ⟨mappable.named, mappable.ownState, ⟨mappable.named, ?_⟩, mappable.updated⟩
    intro startedAt started
    exact ⟨mappable.ownState, mappable.times startedAt started⟩

theorem mapJob_eq_some_iff {input : FlinkJobInput} {pipeline : Pipeline} :
    mapJob toLowerCase options input = some pipeline ↔
      pipeline.toPipelineCandidate = pipelineCandidate toLowerCase options input := by
  rw [mapJob, safeParse]
  split
  · rename_i passed
    rw [Option.some.injEq]
    constructor
    · rintro rfl
      rfl
    · intro same
      cases pipeline with
      | mk candidate checked =>
          cases same
          rfl
  · rename_i refused
    refine ⟨nofun, ?_⟩
    intro same
    rw [← same] at refused
    exact absurd pipeline.passed refused

theorem exists_mapJob_iff (input : FlinkJobInput) :
    (∃ pipeline, mapJob toLowerCase options input = some pipeline) ↔
      Mappable options input.summary := by
  rw [← @pipelineSchema_iff toLowerCase, ← Option.isSome_iff_exists, mapJob, safeParse]
  split
  · simp_all
  · simp_all

theorem links_of_mapJob {input : FlinkJobInput} {pipeline : Pipeline}
    (mapped : mapJob toLowerCase options input = some pipeline) :
    pipeline.correlationLinks = flinkLinks toLowerCase options input := by
  rw [mapJob_eq_some_iff.mp mapped]
  rfl

/-! ## All pipelines -/

variable (toLowerCase options)

/-- Every input either gave one of the pipelines or was skipped. -/
structure AccountsFor (inputs : List FlinkJobInput) (result : PipelinesResult)
    (made : List (FlinkJobInput × Pipeline)) (left : List FlinkJobInput) : Prop where
  inputs : (made.map Prod.fst ++ left).Perm inputs
  pipelines : made.map Prod.snd = result.pipelines
  skipped : left.length = result.skipped
  own : ∀ entry ∈ made, mapJob toLowerCase options entry.1 = some entry.2
  unmapped : ∀ input ∈ left, mapJob toLowerCase options input = none

theorem exists_accountsFor (inputs : List FlinkJobInput) :
    ∃ made left, AccountsFor toLowerCase options inputs (buildPipelines toLowerCase options inputs)
      made left := by
  refine ⟨Text.sortBy (fun a b => byCodePoint a.2.id b.2.id) (inputs.filterMap fun input =>
      (mapJob toLowerCase options input).map (input, ·)),
    inputs.filter fun input => (mapJob toLowerCase options input).isNone, ?_⟩
  constructor
  · have split : ((inputs.filterMap fun input =>
        (mapJob toLowerCase options input).map (input, ·)).map Prod.fst) =
          inputs.filter fun input => (mapJob toLowerCase options input).isSome := by
      rw [List.map_filterMap, ← List.filterMap_eq_filter]
      apply List.filterMap_congr
      intro input _
      cases found : mapJob toLowerCase options input with
      | none => simp [Option.guard, found]
      | some pipeline => simp [Option.guard, found]
    apply ((Text.sortBy_perm _ _).map Prod.fst).append_right _ |>.trans
    rw [split]
    have parts := List.filter_append_perm
      (fun input => (mapJob toLowerCase options input).isSome) inputs
    simpa only [Option.not_isSome] using parts
  · rw [Text.sortBy_map (fun a b : Pipeline => byCodePoint a.id b.id), List.map_filterMap]
    simp [buildPipelines, Option.map_map, Function.comp_def]
  · rw [buildPipelines, List.countP_eq_length_filter]
  · intro entry listed
    rw [Text.mem_sortBy, List.mem_filterMap] at listed
    rcases listed with ⟨input, _, isEntry⟩
    rcases Option.map_eq_some_iff.mp isEntry with ⟨pipeline, found, rfl⟩
    exact found
  · intro input listed
    exact Option.isNone_iff_eq_none.mp (List.mem_filter.mp listed).2

/-- Each pipeline has the links of its own input, and these are as they are to be just when
the tables of every job that is mapped are apart. -/
theorem pipelines_fit_iff (inputs : List FlinkJobInput) :
    (∃ made left, AccountsFor toLowerCase options inputs
        (buildPipelines toLowerCase options inputs) made left ∧
      ∀ entry ∈ made, LinksFit toLowerCase options entry.1 entry.2.correlationLinks) ↔
      ∀ input ∈ inputs, Mappable options input.summary → TablesApart toLowerCase options input := by
  constructor
  · rintro ⟨made, left, accounted, fit⟩ input listed mappable
    rcases (@exists_mapJob_iff toLowerCase options input).mpr mappable with ⟨pipeline, mapped⟩
    rcases List.mem_append.mp (accounted.inputs.mem_iff.mpr listed) with inMade | inLeft
    · rcases List.mem_map.mp inMade with ⟨entry, inEntries, rfl⟩
      have links := fit entry inEntries
      rw [links_of_mapJob (accounted.own entry inEntries)] at links
      exact (linksFit_iff toLowerCase options entry.1).mp links
    · have unmapped := accounted.unmapped input inLeft
      rw [mapped] at unmapped
      cases unmapped
  · intro apart
    rcases exists_accountsFor toLowerCase options inputs with ⟨made, left, accounted⟩
    refine ⟨made, left, accounted, ?_⟩
    intro entry inMade
    have own := accounted.own entry inMade
    have listed : entry.1 ∈ inputs := accounted.inputs.mem_iff.mp
      (List.mem_append_left _ (List.mem_map_of_mem inMade))
    rw [links_of_mapJob own]
    apply (linksFit_iff toLowerCase options entry.1).mpr
    exact apart entry.1 listed (exists_mapJob_iff entry.1 |>.mp ⟨entry.2, own⟩)

end Links

/-- A job that writes to two tables with one slug. -/
def slugTwins : FlinkJobInput where
  summary :=
    { jid := ofString "00000000000000000000000000000001"
      name := ofString "orders-sync"
      state := ofString "RUNNING"
      startTime := .ofNat 1
      endTime := .finite (-1)
      lastModification := .ofNat 1
      tasks := .empty }
  detail := some
    { jid := ofString "00000000000000000000000000000001"
      state := ofString "RUNNING"
      vertices :=
        [⟨ofString "Sink: IcebergSink db.a.orders", ofString "RUNNING"⟩,
          ⟨ofString "Sink: IcebergSink db_a.orders", ofString "RUNNING"⟩] }

theorem slugTwins_mappable (options : PipelineOptions) : Mappable options slugTwins.summary := by
  have time : isoOrNull (.ofNat 1) = some ⟨1⟩ := by
    norm_num [isoOrNull, JsNumber.ofNat, MAX_INSTANT]
  have noEnd : isoOrNull slugTwins.summary.endTime = none := by
    norm_num [isoOrNull, slugTwins]
  constructor
  · decide
  · decide
  · intro startedAt started
    obtain rfl := Option.some.inj (started.symm.trans time)
    refine ⟨by decide, ?_⟩
    intro finishedAt ended
    rw [noEnd] at ended
    cases ended
  · rw [lastUpdatedAt, show isoOrNull slugTwins.summary.lastModification = some ⟨1⟩ from time]
    rfl

/-- Both links of such a job have one id. -/
theorem slug_twins_linked :
    ¬ ∀ (options : PipelineOptions) (inputs : List FlinkJobInput), ∃ made left,
      AccountsFor (List.map lowerUnit) options inputs
          (buildPipelines (List.map lowerUnit) options inputs) made left ∧
        ∀ entry ∈ made, LinksFit (List.map lowerUnit) options entry.1 entry.2.correlationLinks := by
  intro always
  let options : PipelineOptions := ⟨[], ⟨0⟩⟩
  rcases always options [slugTwins] with ⟨made, left, accounted, fit⟩
  rcases (@exists_mapJob_iff (List.map lowerUnit) options slugTwins).mpr (slugTwins_mappable _) with
    ⟨pipeline, mapped⟩
  rcases List.mem_append.mp (accounted.inputs.mem_iff.mpr (List.mem_singleton_self slugTwins)) with
    inMade | inLeft
  · rcases List.mem_map.mp inMade with ⟨entry, inEntries, isInput⟩
    have links := fit entry inEntries
    rw [links_of_mapJob (accounted.own entry inEntries), isInput] at links
    have apart := (linksFit_iff (List.map lowerUnit) options slugTwins).mp links
    have same := apart (ofString "db.a.orders") (by decide +kernel) (by decide +kernel)
      (ofString "db_a.orders") (by decide +kernel) (by decide +kernel)
    exact absurd same (by decide)
  · have unmapped := accounted.unmapped slugTwins inLeft
    rw [mapped] at unmapped
    cases unmapped

end BelugaManager.DomainApi
