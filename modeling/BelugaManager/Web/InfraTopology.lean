import BelugaManager.DomainApi.Envelope
import BelugaManager.Foundation.PrefixCode
import BelugaManager.Web.TopologyGraph

/-!
# The infrastructure topology

`views/infraTopology.ts` arranges resources in one column for each kind and links each of them to
the resource of its namespace.  `views/InfraTopologyPanel.tsx` hands the arrangement to the graph.
-/

namespace BelugaManager.Web

open Foundation Foundation.JsString DomainApi

inductive ResourceKind where
  | Namespace
  | Workload
  | Pod
  | Service
  | Endpoint
  | Job
  | PersistentVolumeClaim
  deriving DecidableEq, Repr

/-- The fields of a resource that its node shows. -/
structure Resource where
  id : JsString
  kind : ResourceKind
  name : JsString
  namespaceName : Option JsString
  status : HealthStatus

structure InfraNode where
  id : JsString
  resource : Resource
  column : ℕ
  row : ℕ

def KIND_ORDER : List ResourceKind :=
  [.Namespace, .Workload, .Pod, .Service, .Endpoint, .Job, .PersistentVolumeClaim]

theorem mem_KIND_ORDER (kind : ResourceKind) : kind ∈ KIND_ORDER := by
  cases kind <;> decide

def rememberNamespace (ids : OrderedMap JsString JsString) (resource : Resource) :
    OrderedMap JsString JsString :=
  if resource.kind = .Namespace ∧ (ids.get? resource.name).isNone then
    ids.set resource.name resource.id
  else ids

def namespaceIdByName (resources : List Resource) : OrderedMap JsString JsString :=
  resources.foldl rememberNamespace .empty

/-- The id of the resource of its namespace. -/
def namespaceId (ids : OrderedMap JsString JsString) (resource : Resource) : Option JsString :=
  if resource.kind ≠ .Namespace then
    (resource.namespaceName.filter (· ≠ [])).bind fun name => (ids.get? name).filter (· ≠ [])
  else none

/-- The edge to a resource from that of its namespace. -/
def namespaceEdge (ids : OrderedMap JsString JsString) (resource : Resource) : Option GraphEdge :=
  (namespaceId ids resource).map fun source =>
    { id := source ++ ofString "->" ++ resource.id, source := source, target := resource.id }

structure InfraLoop where
  rowByKind : OrderedMap ResourceKind ℕ
  seen : OrderedSet JsString
  nodes : List InfraNode
  edges : List GraphEdge

def InfraLoop.start : InfraLoop := ⟨.empty, .empty, [], []⟩

def arrangeResource (ids : OrderedMap JsString JsString) (loop : InfraLoop) (resource : Resource) :
    InfraLoop :=
  if loop.seen.has resource.id then loop
  else
    let row := (loop.rowByKind.get? resource.kind).getD 0
    { rowByKind := loop.rowByKind.set resource.kind (row + 1)
      seen := loop.seen.add resource.id
      nodes := loop.nodes ++ [⟨resource.id, resource, KIND_ORDER.idxOf resource.kind, row⟩]
      edges := loop.edges ++ (namespaceEdge ids resource).toList }

/-- The resources by kind, in the order of the columns. -/
def orderedResources (resources : List Resource) : List Resource :=
  KIND_ORDER.flatMap fun kind => resources.filter (·.kind = kind)

def buildInfraTopology (resources : List Resource) : List InfraNode × List GraphEdge :=
  let loop := (orderedResources resources).foldl
    (arrangeResource (namespaceIdByName resources)) .start
  (loop.nodes, loop.edges)

/-- `InfraTopologyPanel` -/
def panelNode (node : InfraNode) : TopologyGraphNode where
  id := node.id
  position := some {
    x := .ofNat (node.column * (GRAPH_NODE_WIDTH + GRAPH_GAP_X))
    y := .ofNat (node.row * (GRAPH_NODE_HEIGHT + GRAPH_GAP_Y)) }

/-! ## The loop over the resources -/

/-- The loop, as far as it has come: each column is filled from the top. -/
structure Arranged (ids : OrderedMap JsString JsString) (items : List Resource)
    (loop : InfraLoop) : Prop where
  seen : ∀ id, loop.seen.has id = true ↔ id ∈ items.map (·.id)
  resources : loop.nodes.map (·.resource) = firsts Resource.id items
  cells : ∀ node ∈ loop.nodes,
    node.id = node.resource.id ∧ node.column = KIND_ORDER.idxOf node.resource.kind
  rows : ∀ kind, (loop.nodes.filter (·.resource.kind = kind)).map (·.row) =
    List.range ((loop.rowByKind.get? kind).getD 0)
  edges : loop.edges = (firsts Resource.id items).filterMap (namespaceEdge ids)

theorem arranged_start (ids : OrderedMap JsString JsString) : Arranged ids [] .start := by
  constructor
  · intro id
    simp [InfraLoop.start]
  · rfl
  · intro node member
    exact absurd member List.not_mem_nil
  · intro kind
    rfl
  · rfl

theorem Arranged.step {ids : OrderedMap JsString JsString} {items : List Resource}
    {loop : InfraLoop} (arranged : Arranged ids items loop) (resource : Resource) :
    Arranged ids (items ++ [resource]) (arrangeResource ids loop resource) := by
  by_cases known : loop.seen.has resource.id = true
  · have inItems := (arranged.seen _).mp known
    rw [arrangeResource, if_pos known]
    constructor
    · intro id
      rw [arranged.seen, List.map_append, List.mem_append, List.map_singleton, List.mem_singleton]
      exact ⟨Or.inl, fun either => either.elim (fun member => member) fun same => same ▸ inItems⟩
    · rw [firsts_concat, if_pos inItems]
      exact arranged.resources
    · exact arranged.cells
    · exact arranged.rows
    · rw [firsts_concat, if_pos inItems]
      exact arranged.edges
  · have notInItems := fun member => known ((arranged.seen resource.id).mpr member)
    rw [arrangeResource, if_neg known]
    constructor
    · intro id
      rw [OrderedSet.has_add, arranged.seen, List.map_append, List.mem_append, List.map_singleton,
        List.mem_singleton, or_comm]
    · rw [firsts_concat, if_neg notInItems, List.map_append, arranged.resources]
      rfl
    · intro node member
      rcases List.mem_append.mp member with before | last
      · exact arranged.cells node before
      · rw [List.mem_singleton.mp last]
        exact ⟨rfl, rfl⟩
    · intro kind
      rw [List.filter_append, List.map_append, arranged.rows]
      by_cases ofKind : resource.kind = kind
      · subst ofKind
        simp [List.range_succ]
      · have differs : kind ≠ resource.kind := fun same => ofKind same.symm
        simp [ofKind, differs]
    · rw [firsts_concat, if_neg notInItems, List.filterMap_append, arranged.edges]
      congr 1

theorem foldl_arrangeResource (ids : OrderedMap JsString JsString) (items : List Resource) :
    Arranged ids items (items.foldl (arrangeResource ids) .start) := by
  induction items using List.reverseRecOn with
  | nil => exact arranged_start ids
  | append_singleton items resource ih =>
      rw [List.foldl_append, List.foldl_cons, List.foldl_nil]
      exact ih.step resource

namespace Arranged

variable {ids : OrderedMap JsString JsString} {items : List Resource} {loop : InfraLoop}
  (arranged : Arranged ids items loop)
include arranged

theorem node_ids : loop.nodes.map (·.id) = (firsts Resource.id items).map (·.id) := by
  rw [← arranged.resources, List.map_map]
  apply List.map_congr_left
  intro node member
  exact (arranged.cells node member).1

theorem nodup_node_ids : (loop.nodes.map (·.id)).Nodup := by
  rw [arranged.node_ids]
  exact nodup_keys_firsts Resource.id items

/-- The nodes of one column are those of one kind. -/
theorem sameKind {first second : InfraNode} (isFirst : first ∈ loop.nodes)
    (isSecond : second ∈ loop.nodes) (sameColumn : first.column = second.column) :
    first.resource.kind = second.resource.kind := by
  rw [(arranged.cells first isFirst).2, (arranged.cells second isSecond).2] at sameColumn
  exact (List.idxOf_inj (mem_KIND_ORDER _)).mp sameColumn

theorem mem_rows {node : InfraNode} (member : node ∈ loop.nodes) :
    node.row < (loop.rowByKind.get? node.resource.kind).getD 0 := by
  have inRows : node.row ∈
      (loop.nodes.filter (·.resource.kind = node.resource.kind)).map (·.row) :=
    List.mem_map_of_mem (List.mem_filter.mpr ⟨member, decide_eq_true rfl⟩)
  rw [arranged.rows] at inRows
  exact List.mem_range.mp inRows

theorem exists_row {kind : ResourceKind} {row : ℕ}
    (inside : row < (loop.rowByKind.get? kind).getD 0) :
    ∃ node ∈ loop.nodes, node.resource.kind = kind ∧ node.row = row := by
  have inRows := List.mem_range.mpr inside
  rw [← arranged.rows] at inRows
  rcases List.mem_map.mp inRows with ⟨node, inColumn, isRow⟩
  rcases List.mem_filter.mp inColumn with ⟨member, ofKind⟩
  exact ⟨node, member, of_decide_eq_true ofKind, isRow⟩

theorem rows_le (kind : ResourceKind) :
    (loop.rowByKind.get? kind).getD 0 ≤ loop.nodes.length := by
  have total := congrArg List.length (arranged.rows kind)
  rw [List.length_map, List.length_range] at total
  rw [← total]
  exact List.length_filter_le _ _

theorem cells_apart : (loop.nodes.map fun node => (node.column, node.row)).Nodup := by
  apply List.Nodup.map_on _ (List.Nodup.of_map _ arranged.nodup_node_ids)
  intro first isFirst second isSecond sameCell
  rw [Prod.mk.injEq] at sameCell
  have same := arranged.sameKind isFirst isSecond sameCell.1
  have rowsApart : ((loop.nodes.filter
      (·.resource.kind = second.resource.kind)).map (·.row)).Nodup := by
    rw [arranged.rows]
    exact List.nodup_range
  exact List.inj_on_of_nodup_map rowsApart
    (List.mem_filter.mpr ⟨isFirst, decide_eq_true same⟩)
    (List.mem_filter.mpr ⟨isSecond, decide_eq_true rfl⟩) sameCell.2

/-- Columns are filled from the top. -/
theorem shelves : Shelves (loop.nodes.map fun node => (node.id, (node.column, node.row)))
    (loop.nodes.length + KIND_ORDER.length) := by
  constructor
  · constructor
    · rw [List.map_map]
      exact arranged.nodup_node_ids
    · rw [List.map_map]
      exact arranged.cells_apart
    · intro item member
      rcases List.mem_map.mp member with ⟨node, isNode, rfl⟩
      have row := arranged.mem_rows isNode
      have total := arranged.rows_le node.resource.kind
      have column := List.idxOf_lt_length_iff.mpr (mem_KIND_ORDER node.resource.kind)
      rw [← (arranged.cells node isNode).2] at column
      dsimp only
      omega
  · intro item member row isNext
    rcases List.mem_map.mp member with ⟨node, isNode, rfl⟩
    dsimp only at isNext
    have below := arranged.mem_rows isNode
    rcases arranged.exists_row (show row < (loop.rowByKind.get? node.resource.kind).getD 0 by omega)
      with ⟨other, isOther, sameKind, isRow⟩
    refine ⟨(other.id, (other.column, other.row)), List.mem_map_of_mem isOther, ?_⟩
    rw [(arranged.cells other isOther).2, (arranged.cells node isNode).2, sameKind, isRow]

end Arranged

/-- A namespace goes by its first resource. -/
theorem get?_namespaceIdByName (resources : List Resource) (name : JsString) :
    (namespaceIdByName resources).get? name =
      (resources.find? fun r => r.kind = .Namespace ∧ r.name = name).map (·.id) := by
  induction resources using List.reverseRecOn with
  | nil => rfl
  | append_singleton resources resource ih =>
      unfold namespaceIdByName at ih ⊢
      rw [List.foldl_append, List.foldl_cons, List.foldl_nil, List.find?_append]
      generalize resources.foldl rememberNamespace .empty = ids at ih
      unfold rememberNamespace
      by_cases fresh : resource.kind = .Namespace ∧ (ids.get? resource.name).isNone
      · rw [if_pos fresh]
        by_cases sameName : name = resource.name
        · subst sameName
          rw [Option.isNone_iff_eq_none] at fresh
          rw [fresh.2, eq_comm, Option.map_eq_none_iff] at ih
          rw [ih]
          simp [fresh.1]
        · have differs : ¬ resource.name = name := fun same => sameName same.symm
          rw [OrderedMap.get?_set_of_ne _ _ sameName, ih]
          simp [differs]
      · rw [if_neg fresh, ih]
        cases found : resources.find? fun r => r.kind = .Namespace ∧ r.name = name with
        | some first => rfl
        | none =>
            have other : ¬ (resource.kind = .Namespace ∧ resource.name = name) := by
              intro both
              apply fresh
              rw [both.2, ih, found]
              exact ⟨both.1, rfl⟩
            simp [other]

section Arrangement

variable (resources : List Resource)

theorem mem_orderedResources {resource : Resource} :
    resource ∈ orderedResources resources ↔ resource ∈ resources := by
  simp [orderedResources, mem_KIND_ORDER]

theorem arranged : Arranged (namespaceIdByName resources) (orderedResources resources)
    ((orderedResources resources).foldl (arrangeResource (namespaceIdByName resources)) .start) :=
  foldl_arrangeResource _ _

/-- The resources that are shown. -/
def shownResources : List Resource := firsts Resource.id (orderedResources resources)

theorem buildInfraTopology_resources :
    (buildInfraTopology resources).1.map (·.resource) = shownResources resources :=
  (arranged resources).resources

theorem buildInfraTopology_edges : (buildInfraTopology resources).2 =
    (shownResources resources).filterMap (namespaceEdge (namespaceIdByName resources)) :=
  (arranged resources).edges

theorem mem_shown_ids {id : JsString} :
    id ∈ (shownResources resources).map (·.id) ↔ id ∈ resources.map (·.id) := by
  rw [shownResources, mem_keys_firsts Resource.id]
  simp only [List.mem_map, mem_orderedResources]

/-- An edge comes from the first resource of the namespace. -/
theorem namespaceEdge_eq_some_iff {resource : Resource} {edge : GraphEdge} :
    namespaceEdge (namespaceIdByName resources) resource = some edge ↔
      resource.kind ≠ .Namespace ∧ ∃ name, resource.namespaceName = some name ∧ name ≠ [] ∧
        ∃ owner, resources.find? (fun r => r.kind = .Namespace ∧ r.name = name) = some owner ∧
          owner.id ≠ [] ∧ edge = { id := owner.id ++ ofString "->" ++ resource.id,
                                   source := owner.id, target := resource.id } := by
  rw [namespaceEdge, namespaceId, Option.map_eq_some_iff]
  by_cases isNamespace : resource.kind = .Namespace
  · simp [isNamespace]
  · rw [if_pos isNamespace]
    simp only [Option.bind_eq_some_iff, Option.filter_eq_some_iff, get?_namespaceIdByName,
      Option.map_eq_some_iff, decide_eq_true_eq]
    constructor
    · intro made
      rcases made with ⟨_, ⟨name, ⟨isName, nonempty⟩, ⟨owner, found, rfl⟩, someId⟩, rfl⟩
      exact ⟨isNamespace, name, isName, nonempty, owner, found, someId, rfl⟩
    · intro made
      rcases made with ⟨_, name, isName, nonempty, owner, found, someId, rfl⟩
      exact ⟨owner.id, ⟨name, ⟨isName, nonempty⟩, ⟨owner, found, rfl⟩, someId⟩, rfl⟩

theorem map_target_sublist (ids : OrderedMap JsString JsString) (items : List Resource) :
    ((items.filterMap (namespaceEdge ids)).map (·.target)).Sublist (items.map (·.id)) := by
  induction items with
  | nil => exact .slnil
  | cons item items ih =>
      rw [List.filterMap_cons, List.map_cons]
      unfold namespaceEdge
      cases namespaceId ids item with
      | none => exact ih.cons _
      | some source => exact ih.cons_cons _

theorem nodup_targets : ((buildInfraTopology resources).2.map (·.target)).Nodup := by
  rw [buildInfraTopology_edges]
  exact (nodup_keys_firsts Resource.id _).sublist (map_target_sublist _ _)

/-- Namespaces come first. -/
theorem first_of_namespace {owner : Resource} (member : owner ∈ resources)
    (isNamespace : owner.kind = .Namespace) :
    ∃ first, (orderedResources resources).find? (·.id = owner.id) = some first ∧
      first.kind = .Namespace := by
  have inFirst : ((resources.filter (·.kind = .Namespace)).find? (·.id = owner.id)).isSome := by
    rw [List.find?_isSome]
    exact ⟨owner, List.mem_filter.mpr ⟨member, decide_eq_true isNamespace⟩, decide_eq_true rfl⟩
  rcases Option.isSome_iff_exists.mp inFirst with ⟨first, found⟩
  refine ⟨first, ?_, ?_⟩
  · rw [orderedResources, KIND_ORDER, List.flatMap_cons, List.find?_append, found]
    rfl
  · exact of_decide_eq_true (List.mem_filter.mp (List.mem_of_find?_eq_some found)).2

end Arrangement

/-! ## What the panel shows -/

/-- Every id is shown once, with the resource of the leftmost column, each kind has a column
that is filled from the top, and the edges lead from namespaces to the resources that name
them. -/
structure ShowsResources (resources : List Resource) (nodes : List InfraNode)
    (edges : List GraphEdge) : Prop where
  shown : ∀ id, id ∈ nodes.map (·.id) ↔ id ∈ resources.map (·.id)
  once : (nodes.map (·.id)).Nodup
  leftmost : ∀ node ∈ nodes,
    (orderedResources resources).find? (·.id = node.id) = some node.resource
  columns : ∀ node ∈ nodes, KIND_ORDER[node.column]? = some node.resource.kind
  rows : ∀ kind, (nodes.filter (·.resource.kind = kind)).map (·.row) =
    List.range (nodes.filter (·.resource.kind = kind)).length
  owned : ∀ edge, edge ∈ edges ↔ ∃ node ∈ nodes, node.resource.kind ≠ .Namespace ∧
    ∃ name, node.resource.namespaceName = some name ∧ name ≠ [] ∧
      ∃ owner, resources.find? (fun r => r.kind = .Namespace ∧ r.name = name) = some owner ∧
        owner.id ≠ [] ∧ edge = { id := owner.id ++ ofString "->" ++ node.id,
                                 source := owner.id, target := node.id }
  fromNamespaces : ∀ edge ∈ edges,
    ∃ node ∈ nodes, node.id = edge.source ∧ node.resource.kind = .Namespace
  oneOwner : (edges.map (·.target)).Nodup

section Panel

variable (resources : List Resource)

theorem showsResources : ShowsResources resources (buildInfraTopology resources).1
    (buildInfraTopology resources).2 := by
  have loop := arranged resources
  have nodeOf : ∀ resource, resource ∈ shownResources resources ↔
      ∃ node ∈ (buildInfraTopology resources).1, node.resource = resource := by
    intro resource
    rw [← buildInfraTopology_resources, List.mem_map]
  have owned : ∀ edge, edge ∈ (buildInfraTopology resources).2 ↔
      ∃ resource ∈ shownResources resources,
        namespaceEdge (namespaceIdByName resources) resource = some edge := by
    intro edge
    rw [buildInfraTopology_edges, List.mem_filterMap]
  constructor
  · intro id
    rw [← mem_shown_ids]
    exact iff_of_eq (congrArg (id ∈ ·) loop.node_ids)
  · exact loop.nodup_node_ids
  · intro node member
    rw [(loop.cells node member).1]
    exact (mem_firsts Resource.id).mp ((nodeOf _).mpr ⟨node, member, rfl⟩)
  · intro node member
    rw [(loop.cells node member).2]
    exact List.getElem?_idxOf (mem_KIND_ORDER node.resource.kind)
  · intro kind
    have filled := loop.rows kind
    have counted := congrArg List.length filled
    rw [List.length_map, List.length_range] at counted
    rw [← counted] at filled
    exact filled
  · intro edge
    rw [owned]
    constructor
    · intro made
      rcases made with ⟨resource, isShown, isEdge⟩
      rcases (nodeOf resource).mp isShown with ⟨node, member, rfl⟩
      rw [namespaceEdge_eq_some_iff, ← (loop.cells node member).1] at isEdge
      exact ⟨node, member, isEdge⟩
    · intro made
      rcases made with ⟨node, member, isEdge⟩
      refine ⟨node.resource, (nodeOf _).mpr ⟨node, member, rfl⟩, ?_⟩
      rw [namespaceEdge_eq_some_iff, ← (loop.cells node member).1]
      exact isEdge
  · intro edge member
    rcases (owned edge).mp member with ⟨resource, _, isEdge⟩
    rcases (namespaceEdge_eq_some_iff resources).mp isEdge with
      ⟨_, name, _, _, owner, found, _, rfl⟩
    have isOwner := List.find?_some found
    rw [decide_eq_true_eq] at isOwner
    rcases first_of_namespace resources (List.mem_of_find?_eq_some found) isOwner.1 with
      ⟨first, isFirst, isNamespace⟩
    have sameId : first.id = owner.id := by
      have accepted := List.find?_some isFirst
      exact of_decide_eq_true accepted
    rw [← sameId] at isFirst
    rcases (nodeOf first).mp ((mem_firsts Resource.id).mpr isFirst) with ⟨node, isNode, rfl⟩
    exact ⟨node, isNode, (loop.cells node isNode).1.trans sameId, isNamespace⟩
  · exact nodup_targets resources

theorem panelNode_ids (nodes : List InfraNode) :
    (nodes.map panelNode).map (·.id) = nodes.map (·.id) := by
  rw [List.map_map]
  rfl

/-- The graph has no issues if edges cannot share an id. -/
theorem panel_clean
    (plain : ∀ r ∈ resources, r.kind = .Namespace → JsString.ofChar '>' ∉ r.id) :
    hasGraphDataIssues (sanitizeGraph ((buildInfraTopology resources).1.map panelNode)
      (buildInfraTopology resources).2) = false := by
  have shows := showsResources resources
  have source_plain : ∀ edge ∈ (buildInfraTopology resources).2,
      edge.id = (edge.source ++ [45]) ++ 62 :: edge.target ∧ 62 ∉ edge.source ++ [45] := by
    intro edge member
    rcases (shows.owned edge).mp member with ⟨node, _, _, name, _, _, owner, found, _, rfl⟩
    have isOwner := List.find?_some found
    rw [decide_eq_true_eq] at isOwner
    have free := plain owner (List.mem_of_find?_eq_some found) isOwner.1
    have arrow : ofString "->" = [45, 62] := by decide
    constructor
    · simp [arrow]
    · rw [List.mem_append, not_or]
      exact ⟨free, by decide⟩
  rw [hasGraphDataIssues_eq_false_iff]
  refine ⟨?_, ?_, ?_⟩
  · rw [panelNode_ids]
    exact shows.once
  · apply List.Nodup.map_on _ (List.Nodup.of_map _ shows.oneOwner)
    intro first isFirst second isSecond sameId
    rw [(source_plain first isFirst).1, (source_plain second isSecond).1] at sameId
    have same := append_stop_inj (source_plain first isFirst).2 (source_plain second isSecond).2
      sameId
    exact List.inj_on_of_nodup_map shows.oneOwner isFirst isSecond same.2
  · intro edge member
    rw [isAttached_iff, panelNode_ids]
    rcases shows.fromNamespaces edge member with ⟨from_, isFrom, sourceId, _⟩
    rcases (shows.owned edge).mp member with ⟨node, isNode, _, _, _, _, _, _, _, rfl⟩
    exact ⟨List.mem_map.mpr ⟨from_, isFrom, sourceId⟩, List.mem_map_of_mem isNode⟩

/-- The cells of the nodes. -/
def nodeCells (nodes : List InfraNode) : List (JsString × Cell) :=
  nodes.map fun node => (node.id, (node.column, node.row))

theorem panel_draws :
    DrawsAt ((buildInfraTopology resources).1.map panelNode) (buildInfraTopology resources).2
      (nodeCells (buildInfraTopology resources).1) := by
  have loop := arranged resources
  have shelves := loop.shelves
  have kept := (firsts_eq_self_iff Prod.fst).mpr shelves.ids
  rw [← kept] at shelves
  have draws := draws_of_placed (buildInfraTopology resources).2 shelves (by
    rw [kept, List.length_map, KIND_ORDER]
    simp)
  rw [List.map_map, kept] at draws
  exact draws

/-- The panel shows every resource where the arrow keys reach it, in the cell of its column and
row, and no data issues unless an id of a namespace contains an arrow's head. -/
theorem infraTopology_shown :
    ShowsResources resources (buildInfraTopology resources).1 (buildInfraTopology resources).2 ∧
      DrawsAt ((buildInfraTopology resources).1.map panelNode) (buildInfraTopology resources).2
        (nodeCells (buildInfraTopology resources).1) ∧
      ((∀ r ∈ resources, r.kind = .Namespace → JsString.ofChar '>' ∉ r.id) →
        hasGraphDataIssues (sanitizeGraph ((buildInfraTopology resources).1.map panelNode)
          (buildInfraTopology resources).2) = false) :=
  ⟨showsResources resources, panel_draws resources, panel_clean resources⟩

end Panel

end BelugaManager.Web
