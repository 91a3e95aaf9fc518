import BelugaManager.DomainApi.FlinkMapping
import BelugaManager.Foundation.PrefixCode
import BelugaManager.Web.TopologyGraph

/-!
# Graphs of a pipeline

`views/ArchitectureView.tsx` draws the stages of a pipeline in a row, and `views/PipelinesView.tsx`
the entities that its correlation links connect.  Titles and labels, which are translated, are left
out.
-/

namespace BelugaManager.DomainApi

def CorrelationEntityKind.text : CorrelationEntityKind → String
  | .kafkaTopic => "kafka-topic"
  | .flinkJob => "flink-job"
  | .icebergTable => "iceberg-table"
  | .trinoCatalog => "trino-catalog"
  | .airflowDag => "airflow-dag"

end BelugaManager.DomainApi

namespace BelugaManager.Web

open Foundation Foundation.JsString DomainApi

/-- Of a graph all of whose edges are attached only duplicates are reported. -/
theorem clean_iff_of_attached {nodes : List TopologyGraphNode} {edges : List GraphEdge}
    (attached : ∀ edge ∈ edges, isAttached nodes edge.toTopologyGraphEdge = true) :
    (sanitizeGraph nodes edges).danglingEdgeCount = 0 ∧
      (hasGraphDataIssues (sanitizeGraph nodes edges) = false ↔
        (nodes.map (·.id)).Nodup ∧ (edges.map (·.id)).Nodup) := by
  have result := sanitized nodes edges
  constructor
  · have total := result.dangling
    rw [sanitizeGraph_edges, List.filter_eq_self.mpr] at total
    · omega
    · exact fun edge member => attached edge ((firsts_sublist GraphEdge.id edges).subset member)
  · rw [hasGraphDataIssues_eq_false_iff]
    exact and_congr_right fun _ => and_iff_left attached

/-! ## Stages in a row -/

def stageNodeId (pipelineId serviceId : JsString) : JsString :=
  pipelineId ++ ofString "::" ++ serviceId

def stageNode (pipeline : PipelineCandidate) (entry : PipelineStage × ℕ) : TopologyGraphNode where
  id := stageNodeId pipeline.id entry.1.serviceId
  position := some {
    x := .ofNat (entry.2 * (GRAPH_NODE_WIDTH + GRAPH_GAP_X))
    y := .ofNat 0 }

def stageEdge (pipeline : PipelineCandidate) (stage next : PipelineStage) : GraphEdge where
  id := stageNodeId pipeline.id stage.serviceId ++ ofString "->" ++
    stageNodeId pipeline.id next.serviceId
  source := stageNodeId pipeline.id stage.serviceId
  target := stageNodeId pipeline.id next.serviceId

/-- Each stage but the last leads to the next. -/
def buildGraph (pipeline : PipelineCandidate) : List TopologyGraphNode × List GraphEdge :=
  (pipeline.stages.zipIdx.map (stageNode pipeline),
    (pipeline.stages.zip (pipeline.stages.drop 1)).map fun pair =>
      stageEdge pipeline pair.1 pair.2)

section Row

variable (pipeline : PipelineCandidate)

theorem buildGraph_ids : (buildGraph pipeline).1.map (·.id) =
    pipeline.stages.map fun stage => stageNodeId pipeline.id stage.serviceId := by
  rw [buildGraph, List.map_map]
  conv_rhs => rw [← List.zipIdx_map_fst 0 pipeline.stages, List.map_map]
  rfl

theorem buildGraph_attached : ∀ edge ∈ (buildGraph pipeline).2,
    isAttached (buildGraph pipeline).1 edge.toTopologyGraphEdge = true := by
  intro edge member
  rcases List.mem_map.mp member with ⟨pair, isPair, rfl⟩
  have ends := List.of_mem_zip isPair
  rw [isAttached_iff, buildGraph_ids]
  exact ⟨List.mem_map.mpr ⟨pair.1, ends.1, rfl⟩,
    List.mem_map.mpr ⟨pair.2, List.mem_of_mem_drop ends.2, rfl⟩⟩

theorem nodup_buildGraph_ids : ((buildGraph pipeline).1.map (·.id)).Nodup ↔
    (pipeline.stages.map (·.serviceId)).Nodup := by
  have same : (buildGraph pipeline).1.map (·.id) =
      (pipeline.stages.map (·.serviceId)).map (stageNodeId pipeline.id) := by
    rw [buildGraph_ids, List.map_map]
    rfl
  rw [same]
  apply List.nodup_map_iff
  intro first second equal
  exact List.append_cancel_left equal

/-- Edges have different ids if the stages have and no id looks like an arrow. -/
theorem nodup_edge_ids (plain : JsString.ofChar '>' ∉ pipeline.id)
    (plainStages : ∀ stage ∈ pipeline.stages, JsString.ofChar '>' ∉ stage.serviceId)
    (distinct : (pipeline.stages.map (·.serviceId)).Nodup) :
    ((buildGraph pipeline).2.map (·.id)).Nodup := by
  have targets : ((buildGraph pipeline).2.map (·.target)).Nodup := by
    have ofPairs : (buildGraph pipeline).2.map (·.target) =
        ((pipeline.stages.zip (pipeline.stages.drop 1)).map Prod.snd).map fun stage =>
          stageNodeId pipeline.id stage.serviceId := by
      rw [buildGraph, List.map_map, List.map_map]
      rfl
    rw [ofPairs, List.map_snd_zip (by simp), List.map_drop, ← buildGraph_ids]
    exact ((nodup_buildGraph_ids pipeline).mpr distinct).sublist (List.drop_sublist _ _)
  have spelled : ∀ edge ∈ (buildGraph pipeline).2,
      edge.id = (edge.source ++ [45]) ++ 62 :: edge.target ∧ 62 ∉ edge.source ++ [45] := by
    intro edge member
    rcases List.mem_map.mp member with ⟨pair, isPair, rfl⟩
    have arrow : ofString "->" = [45, 62] := by decide
    have colons : (62 : UInt16) ∉ ofString "::" := by decide
    have free : (62 : UInt16) ∉ (stageEdge pipeline pair.1 pair.2).source := by
      simp only [stageEdge, stageNodeId, List.mem_append, not_or]
      exact ⟨⟨plain, colons⟩, plainStages pair.1 (List.of_mem_zip isPair).1⟩
    constructor
    · simp [stageEdge, arrow]
    · rw [List.mem_append, not_or]
      exact ⟨free, by decide⟩
  apply List.Nodup.map_on _ (List.Nodup.of_map _ targets)
  intro first isFirst second isSecond sameId
  rw [(spelled first isFirst).1, (spelled second isSecond).1] at sameId
  have same := append_stop_inj (spelled first isFirst).2 (spelled second isSecond).2 sameId
  exact List.inj_on_of_nodup_map targets isFirst isSecond same.2

/-- The cells of the row. -/
def rowCells : List (JsString × Cell) :=
  pipeline.stages.zipIdx.map fun entry => (stageNodeId pipeline.id entry.1.serviceId, (entry.2, 0))

theorem buildGraph_placed : (buildGraph pipeline).1 = (rowCells pipeline).map placedNode := by
  rw [buildGraph, rowCells, List.map_map]
  apply List.map_congr_left
  intro entry member
  simp [stageNode, placedNode, gridPosition]

theorem shelves_rowCells :
    Shelves (firsts Prod.fst (rowCells pipeline)) pipeline.stages.length := by
  have isCell : ∀ item ∈ firsts Prod.fst (rowCells pipeline),
      item.2.1 < pipeline.stages.length ∧ item.2.2 = 0 := by
    intro item member
    rcases List.mem_map.mp ((firsts_sublist Prod.fst _).subset member) with ⟨entry, isEntry, rfl⟩
    have inside := List.snd_lt_of_mem_zipIdx isEntry
    exact ⟨by simpa using inside, rfl⟩
  have cells : ((rowCells pipeline).map Prod.snd).Nodup := by
    have columns : (rowCells pipeline).map Prod.snd =
        (List.range' 0 pipeline.stages.length).map fun column => (column, 0) := by
      rw [rowCells, List.map_map, ← List.zipIdx_map_snd 0 pipeline.stages, List.map_map]
      rfl
    rw [columns]
    apply List.Nodup.map _ List.nodup_range'
    intro first second same
    exact congrArg Prod.fst same
  constructor
  · constructor
    · exact nodup_keys_firsts Prod.fst _
    · exact cells.sublist ((firsts_sublist Prod.fst _).map _)
    · intro item member
      have cell := isCell item member
      omega
  · intro item member row isNext
    have cell := isCell item member
    omega

theorem buildGraph_draws (array : pipeline.stages.length < 2 ^ 32) :
    DrawsAt (buildGraph pipeline).1 (buildGraph pipeline).2
    (firsts Prod.fst (rowCells pipeline)) := by
  rw [buildGraph_placed]
  exact draws_of_placed _ (shelves_rowCells pipeline) (by omega)

/-- The cells of a row that are kept are those of the items whose key comes for the first time. -/
theorem mem_firsts_row {ι : Type} (key : ι → JsString) (items : List ι) (i : ℕ) (id : JsString) :
    (id, (i, 0)) ∈ firsts Prod.fst (items.zipIdx.map fun entry => (key entry.1, (entry.2, 0))) ↔
      ∃ item, items[i]? = some item ∧ key item = id ∧ id ∉ (items.take i).map key := by
  induction items using List.reverseRecOn with
  | nil => simp [firsts, firstsFrom]
  | append_singleton items last ih =>
      have keys : (items.zipIdx.map fun entry => (key entry.1, (entry.2, 0))).map Prod.fst =
          items.map key := by
        rw [List.map_map]
        conv_rhs => rw [← List.zipIdx_map_fst 0 items, List.map_map]
        rfl
      have joined : (items ++ [last]).zipIdx.map (fun entry => (key entry.1, (entry.2, 0))) =
          items.zipIdx.map (fun entry => (key entry.1, (entry.2, 0))) ++
            [(key last, (items.length, 0))] := by
        simp [List.zipIdx_append]
      rw [joined, firsts_concat, keys]
      rcases lt_trichotomy i items.length with before | isLast | beyond
      · rw [List.getElem?_append_left before, List.take_append_of_le_length before.le, ← ih]
        split
        · rfl
        · rw [List.mem_append, List.mem_singleton, Prod.mk.injEq, Prod.mk.injEq]
          exact or_iff_left fun same => before.ne same.2.1
      · subst isLast
        have notBefore : (id, (items.length, 0)) ∉
            firsts Prod.fst (items.zipIdx.map fun entry => (key entry.1, (entry.2, 0))) := by
          rw [ih]
          simp
        rw [List.take_left]
        split
        · next known =>
            apply iff_of_false notBefore
            rintro ⟨item, isItem, rfl, fresh⟩
            rw [List.getElem?_concat_length, Option.some.injEq] at isItem
            exact fresh (isItem ▸ known)
        · next fresh =>
            rw [List.mem_append, List.mem_singleton, or_iff_right notBefore, Prod.mk.injEq,
              List.getElem?_concat_length]
            constructor
            · rintro ⟨rfl, _⟩
              exact ⟨last, rfl, rfl, fresh⟩
            · rintro ⟨item, isItem, isKey, _⟩
              rw [Option.some.injEq] at isItem
              exact ⟨by rw [isItem, isKey], rfl⟩
      · have none' : (items ++ [last])[i]? = none := by
          apply List.getElem?_eq_none
          rw [List.length_append, List.length_singleton]
          exact beyond
        have notBefore : (id, (i, 0)) ∉
            firsts Prod.fst (items.zipIdx.map fun entry => (key entry.1, (entry.2, 0))) := by
          rw [ih, List.getElem?_eq_none beyond.le]
          simp
        rw [none']
        split
        · simpa using notBefore
        · rw [List.mem_append, or_iff_right notBefore, List.mem_singleton, Prod.mk.injEq,
            Prod.mk.injEq]
          simp [beyond.ne']

/-- What is drawn in a column is the stage there, unless an earlier stage has its service. -/
theorem mem_rowCells_firsts (i : ℕ) (id : JsString) :
    (id, (i, 0)) ∈ firsts Prod.fst (rowCells pipeline) ↔
      ∃ stage, pipeline.stages[i]? = some stage ∧ stageNodeId pipeline.id stage.serviceId = id ∧
        ∀ earlier ∈ pipeline.stages.take i, earlier.serviceId ≠ stage.serviceId := by
  rw [rowCells, mem_firsts_row fun stage : PipelineStage =>
    stageNodeId pipeline.id stage.serviceId]
  apply exists_congr
  intro stage
  apply and_congr_right
  intro _
  apply and_congr_right
  rintro rfl
  simp only [List.mem_map, not_exists, not_and, stageNodeId, List.append_cancel_left_eq]

/-- The row shows every service of the pipeline in the column of its first stage, also if one of
them comes twice, which is then all that is reported. -/
theorem buildGraph_shown (array : pipeline.stages.length < 2 ^ 32) :
    (∃ cells, DrawsAt (buildGraph pipeline).1 (buildGraph pipeline).2 cells ∧
      (∀ item ∈ cells, item.2.2 = 0) ∧ ∀ i id, (id, (i, 0)) ∈ cells ↔
        ∃ stage, pipeline.stages[i]? = some stage ∧
          stageNodeId pipeline.id stage.serviceId = id ∧
            ∀ earlier ∈ pipeline.stages.take i, earlier.serviceId ≠ stage.serviceId) ∧
      (sanitizeGraph (buildGraph pipeline).1 (buildGraph pipeline).2).danglingEdgeCount = 0 ∧
      (JsString.ofChar '>' ∉ pipeline.id →
        (∀ stage ∈ pipeline.stages, JsString.ofChar '>' ∉ stage.serviceId) →
          (hasGraphDataIssues (sanitizeGraph (buildGraph pipeline).1 (buildGraph pipeline).2) =
            false ↔ (pipeline.stages.map (·.serviceId)).Nodup)) := by
  have clean := clean_iff_of_attached (buildGraph_attached pipeline)
  refine ⟨⟨_, buildGraph_draws pipeline array, ?_, mem_rowCells_firsts pipeline⟩, clean.1, ?_⟩
  · intro item member
    rcases List.mem_map.mp ((firsts_sublist Prod.fst _).subset member) with ⟨entry, _, rfl⟩
    rfl
  · intro plain plainStages
    rw [clean.2, nodup_buildGraph_ids]
    exact and_iff_left_of_imp (nodup_edge_ids pipeline plain plainStages)

end Row

/-- A pipeline that returns to its first service. -/
def returning : PipelineCandidate where
  id := ofString "p"
  name := ofString "p"
  stages := [⟨ofString "k", .kafka, some .healthy, none⟩,
    ⟨ofString "f", .flink, some .healthy, none⟩,
    ⟨ofString "k", .kafka, some .healthy, none⟩]
  jobs := []
  correlationLinks := []
  status := some .healthy
  correlation := ⟨1, ofString "declared"⟩
  lastUpdatedAt := ⟨0⟩

theorem buildGraph_shown_returning :
    (∃ cells, DrawsAt (buildGraph returning).1 (buildGraph returning).2 cells ∧
      (∀ id, (id, (2, 0)) ∉ cells)) ∧
      hasGraphDataIssues (sanitizeGraph (buildGraph returning).1 (buildGraph returning).2) =
        true := by
  have shown := buildGraph_shown returning (by decide)
  have plainId : JsString.ofChar '>' ∉ returning.id := by decide
  have plainStages : ∀ stage ∈ returning.stages, JsString.ofChar '>' ∉ stage.serviceId := by decide
  have again : ¬ (returning.stages.map (·.serviceId)).Nodup := by decide
  constructor
  · rcases shown.1 with ⟨cells, draws, _, columns⟩
    refine ⟨cells, draws, ?_⟩
    intro id drawn
    rcases (columns 2 id).mp drawn with ⟨stage, isStage, _, fresh⟩
    obtain rfl := Option.some.inj isStage
    exact fresh _ List.mem_cons_self rfl
  · rw [← Bool.not_eq_false, shown.2.2 plainId plainStages]
    exact again

/-! ## Entities and their links -/

def inferJobStatus (job : PipelineJob) : HealthStatus :=
  match job.lastRun.bind (·.result) with
  | some .succeeded | some .running => .healthy
  | some .failed => .degraded
  | _ => .unknown

structure NodeStatus where
  status : Option HealthStatus
  detail : Option JsString

def inferCorrelationNodeStatus (pipeline : PipelineCandidate) (referenceId : JsString) :
    NodeStatus :=
  match pipeline.jobs.find? fun j => j.id = referenceId ∨ j.name = referenceId with
  | some job => ⟨some (inferJobStatus job), job.lastRun.bind (·.failureReason)⟩
  | none =>
      match pipeline.stages.find? (·.serviceId = referenceId) with
      | some stage => ⟨stage.status, stage.detail⟩
      | none => ⟨some .unknown, none⟩

structure CorrelationNode extends TopologyGraphNode, NodeStatus where
  subtitle : JsString
  badge : CorrelationEntityKind

structure CorrelationEdge extends GraphEdge where
  confidence : ℚ
  method : CorrelationMethod
  dashed : Bool
  evidence : List JsString

def correlationKey (reference : CorrelationEntityRef) : JsString :=
  ofString reference.kind.text ++ ofString ":" ++ reference.id

def correlationNode (pipeline : PipelineCandidate) (reference : CorrelationEntityRef) :
    CorrelationNode where
  id := correlationKey reference
  position := none
  toNodeStatus := inferCorrelationNodeStatus pipeline reference.id
  subtitle := reference.id
  badge := reference.kind

def correlationEdge (link : CorrelationLink) : CorrelationEdge where
  id := link.id
  source := correlationKey link.source
  target := correlationKey link.target
  confidence := link.confidence
  method := link.method
  dashed := link.method ≠ .declaredLabel
  evidence := link.evidence

def rememberNode (pipeline : PipelineCandidate) (nodeMap : OrderedMap JsString CorrelationNode)
    (reference : CorrelationEntityRef) : OrderedMap JsString CorrelationNode :=
  if (nodeMap.get? (correlationKey reference)).isSome then nodeMap
  else nodeMap.set (correlationKey reference) (correlationNode pipeline reference)

structure CorrelationLoop where
  nodeMap : OrderedMap JsString CorrelationNode
  edges : List CorrelationEdge

def addLink (pipeline : PipelineCandidate) (loop : CorrelationLoop) (link : CorrelationLink) :
    CorrelationLoop where
  nodeMap := rememberNode pipeline (rememberNode pipeline loop.nodeMap link.source) link.target
  edges := loop.edges ++ [correlationEdge link]

def buildPipelineCorrelationGraph (pipeline : PipelineCandidate) :
    List CorrelationNode × List CorrelationEdge :=
  if pipeline.correlationLinks.length = 0 then ([], [])
  else
    let loop := pipeline.correlationLinks.foldl (addLink pipeline) ⟨.empty, []⟩
    (loop.nodeMap.entries.map Prod.snd, loop.edges)

theorem text_inj {first second : CorrelationEntityKind}
    (same : ofString first.text = ofString second.text) : first = second := by
  revert same
  cases first <;> cases second <;> decide

theorem correlationKey_injective : Function.Injective correlationKey := by
  intro first second same
  have free : ∀ kind : CorrelationEntityKind, (58 : UInt16) ∉ ofString kind.text := by
    intro kind
    cases kind <;> decide
  have colon : ofString ":" = [58] := by decide
  rw [correlationKey, correlationKey, colon, List.append_assoc, List.append_assoc] at same
  have parts := append_stop_inj (free first.kind) (free second.kind) same
  cases first
  cases second
  cases text_inj parts.1
  cases parts.2
  rfl

/-! ### What the loop collects -/

/-- The ends of the links, in the order in which they are met. -/
def linkEnds (links : List CorrelationLink) : List CorrelationEntityRef :=
  links.flatMap fun link => [link.source, link.target]

theorem mem_linkEnds {links : List CorrelationLink} {reference : CorrelationEntityRef} :
    reference ∈ linkEnds links ↔
      ∃ link ∈ links, reference = link.source ∨ reference = link.target := by
  simp [linkEnds]

section Collected

variable (pipeline : PipelineCandidate)

/-- The nodes of some entities, each once. -/
def nodesOf (references : List CorrelationEntityRef) : List CorrelationNode :=
  (firsts correlationKey references).map (correlationNode pipeline)

theorem foldl_rememberNode (references : List CorrelationEntityRef) :
    (references.foldl (rememberNode pipeline) .empty).entries =
      (nodesOf pipeline references).map fun node => (node.id, node) := by
  induction references using List.reverseRecOn with
  | nil => rfl
  | append_singleton references reference ih =>
      rw [List.foldl_append, List.foldl_cons, List.foldl_nil]
      generalize references.foldl (rememberNode pipeline) .empty = nodeMap at ih
      have known : (nodeMap.get? (correlationKey reference)).isSome ↔
          correlationKey reference ∈ references.map correlationKey := by
        rw [Option.isSome_iff_exists, ← OrderedMap.mem_keys_iff, OrderedMap.keys, ih, nodesOf,
          List.map_map, List.map_map, ← mem_keys_firsts correlationKey]
        rfl
      rw [rememberNode, nodesOf, firsts_concat]
      by_cases inside : correlationKey reference ∈ references.map correlationKey
      · rw [if_pos (known.mpr inside), if_pos inside, ih]
        rfl
      · have absent : nodeMap.get? (correlationKey reference) = none := by
          rw [← Option.not_isSome_iff_eq_none, known]
          exact inside
        rw [if_neg (fun isKnown => inside (known.mp isKnown)), if_neg inside,
          OrderedMap.entries_set_of_absent _ _ absent, ih, List.map_append, List.map_append]
        rfl

theorem foldl_addLink (links : List CorrelationLink) :
    links.foldl (addLink pipeline) ⟨.empty, []⟩ =
      ⟨(linkEnds links).foldl (rememberNode pipeline) .empty, links.map correlationEdge⟩ := by
  induction links using List.reverseRecOn with
  | nil => rfl
  | append_singleton links link ih =>
      have ends : linkEnds (links ++ [link]) = linkEnds links ++ [link.source, link.target] := by
        simp [linkEnds]
      rw [List.foldl_append, List.foldl_cons, List.foldl_nil, ih, ends, List.foldl_append,
        List.map_append]
      rfl

theorem buildPipelineCorrelationGraph_eq : buildPipelineCorrelationGraph pipeline =
    (nodesOf pipeline (linkEnds pipeline.correlationLinks),
      pipeline.correlationLinks.map correlationEdge) := by
  unfold buildPipelineCorrelationGraph
  split
  case isTrue noLinks =>
    rw [List.eq_nil_of_length_eq_zero noLinks]
    rfl
  case isFalse =>
    rw [foldl_addLink]
    dsimp only
    rw [foldl_rememberNode, List.map_map]
    congr 1
    exact List.map_id _

end Collected

/-- A pipeline gives a reason to call something healthy: a run of the job of that name has not
failed, or the stage of that service is healthy. -/
def HealthEvidence (pipeline : PipelineCandidate) (referenceId : JsString) : Prop :=
  (∃ job ∈ pipeline.jobs, (job.id = referenceId ∨ job.name = referenceId) ∧
    ∃ run, job.lastRun = some run ∧ (run.result = some .succeeded ∨ run.result = some .running)) ∨
  ∃ stage ∈ pipeline.stages, stage.serviceId = referenceId ∧ stage.status = some .healthy

theorem inferJobStatus_healthy {job : PipelineJob} (healthy : inferJobStatus job = .healthy) :
    ∃ run, job.lastRun = some run ∧
    (run.result = some .succeeded ∨ run.result = some .running) := by
  unfold inferJobStatus at healthy
  split at healthy
  case h_1 result isResult =>
    rcases Option.bind_eq_some_iff.mp isResult with ⟨run, isRun, succeeded⟩
    exact ⟨run, isRun, Or.inl succeeded⟩
  case h_2 result isResult =>
    rcases Option.bind_eq_some_iff.mp isResult with ⟨run, isRun, running⟩
    exact ⟨run, isRun, Or.inr running⟩
  · cases healthy
  · cases healthy

theorem evidence_of_healthy (pipeline : PipelineCandidate) {referenceId : JsString}
    (healthy : (inferCorrelationNodeStatus pipeline referenceId).status = some .healthy) :
    HealthEvidence pipeline referenceId := by
  unfold inferCorrelationNodeStatus at healthy
  split at healthy
  case h_1 job found =>
    have accepted := List.find?_some found
    have runs := inferJobStatus_healthy (Option.some.inj healthy)
    exact Or.inl ⟨job, List.mem_of_find?_eq_some found, of_decide_eq_true accepted, runs⟩
  case h_2 =>
    split at healthy
    case h_1 stage found =>
      have accepted := List.find?_some found
      exact Or.inr ⟨stage, List.mem_of_find?_eq_some found, of_decide_eq_true accepted, healthy⟩
    case h_2 => cases healthy

/-- A node stands for an entity. -/
def CorrelationNode.IsFor (node : CorrelationNode) (reference : CorrelationEntityRef) : Prop :=
  node.badge = reference.kind ∧ node.subtitle = reference.id

/-- Every entity that is linked is one node, no node is healthy without evidence, and each link
joins the nodes of its ends. -/
structure ShowsLinks (pipeline : PipelineCandidate) (nodes : List CorrelationNode)
    (edges : List CorrelationEdge) : Prop where
  entities : ∀ reference : CorrelationEntityRef, (∃ node ∈ nodes, node.IsFor reference) ↔
    ∃ link ∈ pipeline.correlationLinks, reference = link.source ∨ reference = link.target
  once : (nodes.map fun node => (node.badge, node.subtitle)).Nodup
  honest : ∀ node ∈ nodes, node.status = some .healthy → HealthEvidence pipeline node.subtitle
  joined : List.Forall₂ (fun link edge => edge.id = link.id ∧
    (∃ source ∈ nodes, source.id = edge.source ∧ source.IsFor link.source) ∧
      (∃ target ∈ nodes, target.id = edge.target ∧ target.IsFor link.target) ∧
        (edge.dashed = false ↔ link.method = .declaredLabel)) pipeline.correlationLinks edges

section Links

variable (pipeline : PipelineCandidate)

theorem mem_nodesOf {references : List CorrelationEntityRef} {node : CorrelationNode} :
    node ∈ nodesOf pipeline references ↔
      ∃ reference ∈ references, correlationNode pipeline reference = node := by
  have everyFirst : ∀ reference,
      reference ∈ firsts correlationKey references ↔ reference ∈ references := by
    intro reference
    rw [← List.mem_map_of_injective correlationKey_injective, mem_keys_firsts correlationKey,
      List.mem_map_of_injective correlationKey_injective]
  rw [nodesOf, List.mem_map]
  exact exists_congr fun reference => and_congr_left' (everyFirst reference)

theorem node_of_end {link : CorrelationLink} (member : link ∈ pipeline.correlationLinks)
    {reference : CorrelationEntityRef} (isEnd : reference = link.source ∨ reference = link.target) :
    ∃ node ∈ nodesOf pipeline (linkEnds pipeline.correlationLinks),
      node.id = correlationKey reference ∧ node.IsFor reference :=
  ⟨correlationNode pipeline reference,
    (mem_nodesOf pipeline).mpr ⟨reference, mem_linkEnds.mpr ⟨link, member, isEnd⟩, rfl⟩,
    rfl, rfl, rfl⟩

theorem nodup_entities (references : List CorrelationEntityRef) :
    ((nodesOf pipeline references).map fun node => (node.badge, node.subtitle)).Nodup := by
  have distinct : (firsts correlationKey references).Nodup :=
    List.Nodup.of_map _ (nodup_keys_firsts correlationKey references)
  rw [nodesOf, List.map_map]
  apply List.Nodup.map _ distinct
  intro first second same
  rw [Function.comp_apply, Function.comp_apply, Prod.mk.injEq] at same
  cases first
  cases second
  cases same.1
  cases same.2
  rfl

theorem showsLinks : ShowsLinks pipeline (buildPipelineCorrelationGraph pipeline).1
    (buildPipelineCorrelationGraph pipeline).2 := by
  rw [buildPipelineCorrelationGraph_eq]
  constructor
  · intro reference
    constructor
    · intro shown
      rcases shown with ⟨node, member, isKind, isId⟩
      rcases (mem_nodesOf pipeline).mp member with ⟨other, isEnd, rfl⟩
      have same : reference = other := by
        cases reference
        cases other
        cases isKind
        cases isId
        rfl
      rw [same]
      exact mem_linkEnds.mp isEnd
    · intro linked
      rcases linked with ⟨link, member, isEnd⟩
      rcases node_of_end pipeline member isEnd with ⟨node, isNode, _, isFor⟩
      exact ⟨node, isNode, isFor⟩
  · exact nodup_entities pipeline _
  · intro node member healthy
    rcases (mem_nodesOf pipeline).mp member with ⟨reference, _, rfl⟩
    exact evidence_of_healthy pipeline healthy
  · rw [List.forall₂_map_right_iff, List.forall₂_same]
    intro link member
    exact ⟨rfl, node_of_end pipeline member (Or.inl rfl), node_of_end pipeline member (Or.inr rfl),
      by simp [correlationEdge]⟩

/-- What the graph is handed. -/
def flowNodes : List TopologyGraphNode :=
  (buildPipelineCorrelationGraph pipeline).1.map (·.toTopologyGraphNode)

def flowEdges : List GraphEdge :=
  (buildPipelineCorrelationGraph pipeline).2.map (·.toGraphEdge)

theorem flowEdges_attached : ∀ edge ∈ flowEdges pipeline,
    isAttached (flowNodes pipeline) edge.toTopologyGraphEdge = true := by
  intro edge member
  rw [flowEdges, buildPipelineCorrelationGraph_eq, List.map_map] at member
  rcases List.mem_map.mp member with ⟨link, isLink, rfl⟩
  have found : ∀ reference, reference = link.source ∨ reference = link.target →
      correlationKey reference ∈ (flowNodes pipeline).map (·.id) := by
    intro reference isEnd
    rcases node_of_end pipeline isLink isEnd with ⟨node, isNode, isKey, _⟩
    rw [flowNodes, buildPipelineCorrelationGraph_eq, List.map_map]
    exact List.mem_map.mpr ⟨node, isNode, isKey⟩
  rw [isAttached_iff]
  exact ⟨found _ (Or.inl rfl), found _ (Or.inr rfl)⟩

theorem nodup_flowNodes : ((flowNodes pipeline).map (·.id)).Nodup := by
  have keys : (flowNodes pipeline).map (·.id) =
      (firsts correlationKey (linkEnds pipeline.correlationLinks)).map correlationKey := by
    rw [flowNodes, buildPipelineCorrelationGraph_eq, List.map_map, nodesOf, List.map_map]
    rfl
  rw [keys]
  exact nodup_keys_firsts correlationKey _

/-- The correlation graph shows the links as they are, every entity can be reached, and only links
that share an id are reported. -/
theorem correlationGraph_shown :
    ShowsLinks pipeline (buildPipelineCorrelationGraph pipeline).1
        (buildPipelineCorrelationGraph pipeline).2 ∧
      Draws (flowNodes pipeline) (flowEdges pipeline) ∧
      (hasGraphDataIssues (sanitizeGraph (flowNodes pipeline) (flowEdges pipeline)) = false ↔
        (pipeline.correlationLinks.map (·.id)).Nodup) := by
  refine ⟨showsLinks pipeline, ?_, ?_⟩
  · apply draws_of_free
    intro node member
    rw [flowNodes, buildPipelineCorrelationGraph_eq, nodesOf, List.map_map] at member
    rcases List.mem_map.mp member with ⟨reference, _, rfl⟩
    rfl
  · have ids : (flowEdges pipeline).map (·.id) = pipeline.correlationLinks.map (·.id) := by
      rw [flowEdges, buildPipelineCorrelationGraph_eq, List.map_map, List.map_map]
      rfl
    rw [(clean_iff_of_attached (flowEdges_attached pipeline)).2, ids]
    exact and_iff_right (nodup_flowNodes pipeline)

end Links

end BelugaManager.Web
