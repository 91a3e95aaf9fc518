import BelugaManager.Foundation.FirstOccurrences
import BelugaManager.Web.GraphLayout

/-!
# Malformed topology graphs

`components/graph/sanitize.ts`: of several nodes or edges with one id the first is kept, and
edges to missing nodes are dropped.  What was dropped is counted, so that a graph without
issues is a graph that was not touched.
-/

namespace BelugaManager.Web

open Foundation

/-- An edge with the id by which edges are told apart. -/
structure GraphEdge extends TopologyGraphEdge where
  id : JsString

@[ext] structure SanitizedGraph where
  nodes : List TopologyGraphNode
  edges : List GraphEdge
  duplicateNodeIds : List JsString
  duplicateEdgeIds : List JsString
  danglingEdgeCount : ℕ

structure NodeLoop where
  seenNodes : OrderedSet JsString
  dupNodes : OrderedSet JsString
  keptNodes : List TopologyGraphNode

def NodeLoop.start : NodeLoop := ⟨.empty, .empty, []⟩

def keepNode (loop : NodeLoop) (node : TopologyGraphNode) : NodeLoop :=
  if loop.seenNodes.has node.id then { loop with dupNodes := loop.dupNodes.add node.id }
  else
    { loop with
      seenNodes := loop.seenNodes.add node.id
      keptNodes := loop.keptNodes ++ [node] }

structure EdgeLoop where
  seenEdges : OrderedSet JsString
  dupEdges : OrderedSet JsString
  keptEdges : List GraphEdge
  dangling : ℕ

def EdgeLoop.start : EdgeLoop := ⟨.empty, .empty, [], 0⟩

def keepEdge (seenNodes : OrderedSet JsString) (loop : EdgeLoop) (edge : GraphEdge) : EdgeLoop :=
  if loop.seenEdges.has edge.id then { loop with dupEdges := loop.dupEdges.add edge.id }
  else if !seenNodes.has edge.source || !seenNodes.has edge.target then
    { loop with seenEdges := loop.seenEdges.add edge.id, dangling := loop.dangling + 1 }
  else
    { loop with
      seenEdges := loop.seenEdges.add edge.id
      keptEdges := loop.keptEdges ++ [edge] }

def sanitizeGraph (nodes : List TopologyGraphNode) (edges : List GraphEdge) : SanitizedGraph :=
  let ofNodes := nodes.foldl keepNode .start
  let ofEdges := edges.foldl (keepEdge ofNodes.seenNodes) .start
  { nodes := ofNodes.keptNodes
    edges := ofEdges.keptEdges
    duplicateNodeIds := ofNodes.dupNodes.keys
    duplicateEdgeIds := ofEdges.dupEdges.keys
    danglingEdgeCount := ofEdges.dangling }

def hasGraphDataIssues (g : SanitizedGraph) : Bool :=
  g.duplicateNodeIds.length > 0 || g.duplicateEdgeIds.length > 0 || g.danglingEdgeCount > 0

theorem hasGraphDataIssues_eq_false {g : SanitizedGraph} : hasGraphDataIssues g = false ↔
    g.duplicateNodeIds = [] ∧ g.duplicateEdgeIds = [] ∧ g.danglingEdgeCount = 0 := by
  simp [hasGraphDataIssues, and_assoc]

/-- Both ends of an edge are nodes. -/
def isAttached (nodes : List TopologyGraphNode) (edge : TopologyGraphEdge) : Bool :=
  nodes.any (·.id = edge.source) && nodes.any (·.id = edge.target)

theorem isAttached_iff {nodes : List TopologyGraphNode} {edge : TopologyGraphEdge} :
    isAttached nodes edge = true ↔
      edge.source ∈ nodes.map (·.id) ∧ edge.target ∈ nodes.map (·.id) := by
  simp [isAttached]

/-- The loop over the nodes, as far as it has come. -/
structure NodesKept (nodes : List TopologyGraphNode) (loop : NodeLoop) : Prop where
  sifted : Sifted (nodes.map (·.id)) loop.seenNodes loop.dupNodes
  kept : loop.keptNodes = firsts TopologyGraphNode.id nodes

theorem foldl_keepNode (nodes : List TopologyGraphNode) :
    NodesKept nodes (nodes.foldl keepNode .start) := by
  induction nodes using List.reverseRecOn with
  | nil => exact ⟨sifted_nil, rfl⟩
  | append_singleton nodes node ih =>
      rw [List.foldl_append, List.foldl_cons, List.foldl_nil]
      by_cases known : (nodes.foldl keepNode .start).seenNodes.has node.id = true
      · rw [keepNode, if_pos known]
        constructor
        · rw [List.map_append]
          exact ih.sifted.again known
        · rw [firsts_concat, if_pos ((ih.sifted.seen _).mp known)]
          exact ih.kept
      · rw [keepNode, if_neg known]
        constructor
        · rw [List.map_append]
          exact ih.sifted.fresh known
        · rw [firsts_concat, if_neg (fun member => known ((ih.sifted.seen _).mpr member)),
            ← ih.kept]

/-- The loop over the edges, as far as it has come. -/
structure EdgesKept (nodes : List TopologyGraphNode) (edges : List GraphEdge) (loop : EdgeLoop) :
    Prop where
  sifted : Sifted (edges.map (·.id)) loop.seenEdges loop.dupEdges
  kept : loop.keptEdges =
    (firsts GraphEdge.id edges).filter (isAttached nodes ·.toTopologyGraphEdge)
  dangling : loop.dangling + loop.keptEdges.length = (firsts GraphEdge.id edges).length

theorem foldl_keepEdge {nodes : List TopologyGraphNode} {seenNodes : OrderedSet JsString}
    (seen : ∀ id, seenNodes.has id = true ↔ id ∈ nodes.map (·.id)) (edges : List GraphEdge) :
    EdgesKept nodes edges (edges.foldl (keepEdge seenNodes) .start) := by
  have loose : ∀ edge : GraphEdge,
      (!seenNodes.has edge.source || !seenNodes.has edge.target) = true ↔
        ¬ isAttached nodes edge.toTopologyGraphEdge = true := by
    intro edge
    rw [isAttached_iff, ← seen, ← seen, Bool.or_eq_true, Bool.not_eq_true', Bool.not_eq_true',
      not_and_or, Bool.not_eq_true, Bool.not_eq_true]
  induction edges using List.reverseRecOn with
  | nil => exact ⟨sifted_nil, rfl, rfl⟩
  | append_singleton edges edge ih =>
      rw [List.foldl_append, List.foldl_cons, List.foldl_nil]
      generalize edges.foldl (keepEdge seenNodes) .start = loop at ih
      by_cases known : loop.seenEdges.has edge.id = true
      · have inEdges := (ih.sifted.seen _).mp known
        rw [keepEdge, if_pos known]
        constructor
        · rw [List.map_append]
          exact ih.sifted.again known
        · rw [firsts_concat, if_pos inEdges]
          exact ih.kept
        · rw [firsts_concat, if_pos inEdges]
          exact ih.dangling
      · have notInEdges := fun member => known ((ih.sifted.seen edge.id).mpr member)
        have total := ih.dangling
        rw [keepEdge, if_neg known]
        by_cases attached : isAttached nodes edge.toTopologyGraphEdge = true
        · have alone : [edge].filter (isAttached nodes ·.toTopologyGraphEdge) = [edge] := by
            simp [attached]
          rw [if_neg fun isLoose => (loose edge).mp isLoose attached]
          constructor
          · rw [List.map_append]
            exact ih.sifted.fresh known
          · rw [firsts_concat, if_neg notInEdges, List.filter_append, ← ih.kept, alone]
          · rw [firsts_concat, if_neg notInEdges, List.length_append, List.length_append]
            dsimp only
            omega
        · have none : [edge].filter (isAttached nodes ·.toTopologyGraphEdge) = [] := by
            simp [attached]
          rw [if_pos ((loose edge).mpr attached)]
          constructor
          · rw [List.map_append]
            exact ih.sifted.fresh known
          · rw [firsts_concat, if_neg notInEdges, List.filter_append, ← ih.kept, none,
              List.append_nil]
          · rw [firsts_concat, if_neg notInEdges, List.length_append, List.length_singleton]
            dsimp only
            omega

/-! ## The sanitized graph -/

/-- A graph is sanitized: of the nodes and edges of one id the first remains, in the order of the
input, edges to missing nodes are gone, and everything that is gone is counted. -/
structure Sanitized (nodes : List TopologyGraphNode) (edges : List GraphEdge)
    (g : SanitizedGraph) : Prop where
  nodesInOrder : g.nodes.Sublist nodes
  firstNodes : ∀ node, node ∈ g.nodes ↔ nodes.find? (·.id = node.id) = some node
  nodeIds : (g.nodes.map (·.id)).Nodup
  edgesInOrder : g.edges.Sublist edges
  firstEdges : ∀ edge, edge ∈ g.edges ↔ edges.find? (·.id = edge.id) = some edge ∧
    edge.source ∈ nodes.map (·.id) ∧ edge.target ∈ nodes.map (·.id)
  edgeIds : (g.edges.map (·.id)).Nodup
  duplicateNodes : ∀ id, id ∈ g.duplicateNodeIds ↔ List.Duplicate id (nodes.map (·.id))
  duplicateEdges : ∀ id, id ∈ g.duplicateEdgeIds ↔ List.Duplicate id (edges.map (·.id))
  listedOnce : g.duplicateNodeIds.Nodup ∧ g.duplicateEdgeIds.Nodup
  dangling : g.danglingEdgeCount + g.edges.length = (firsts GraphEdge.id edges).length

section Loops

variable (nodes : List TopologyGraphNode) (edges : List GraphEdge)

theorem sanitizeGraph_nodes :
    (sanitizeGraph nodes edges).nodes = firsts TopologyGraphNode.id nodes :=
  (foldl_keepNode nodes).kept

theorem edgesKept_sanitizeGraph : EdgesKept nodes edges
    (edges.foldl (keepEdge (nodes.foldl keepNode .start).seenNodes) .start) :=
  foldl_keepEdge (foldl_keepNode nodes).sifted.seen edges

theorem sanitizeGraph_edges : (sanitizeGraph nodes edges).edges =
    (firsts GraphEdge.id edges).filter (isAttached nodes ·.toTopologyGraphEdge) :=
  (edgesKept_sanitizeGraph nodes edges).kept

/-- There are no issues exactly if the ids are distinct and every edge is attached. -/
theorem hasGraphDataIssues_eq_false_iff :
    hasGraphDataIssues (sanitizeGraph nodes edges) = false ↔
      (nodes.map (·.id)).Nodup ∧ (edges.map (·.id)).Nodup ∧
        ∀ edge ∈ edges, isAttached nodes edge.toTopologyGraphEdge = true := by
  have ofNodes := foldl_keepNode nodes
  have ofEdges := edgesKept_sanitizeGraph nodes edges
  rw [hasGraphDataIssues_eq_false]
  refine and_congr ofNodes.sifted.dup_eq_nil_iff ?_
  rw [show (sanitizeGraph nodes edges).duplicateEdgeIds = [] ↔ (edges.map (·.id)).Nodup from
    ofEdges.sifted.dup_eq_nil_iff]
  apply and_congr_right
  intro distinct
  have total := ofEdges.dangling
  rw [ofEdges.kept, (firsts_eq_self_iff GraphEdge.id).mpr distinct] at total
  rw [← List.length_filter_eq_length_iff]
  change (EdgeLoop.dangling _ = 0) ↔ _
  omega

/-- A graph without issues was not touched, and a graph that was not touched has none. -/
theorem hasGraphDataIssues_eq_false_iff_unchanged :
    hasGraphDataIssues (sanitizeGraph nodes edges) = false ↔
      (sanitizeGraph nodes edges).nodes = nodes ∧ (sanitizeGraph nodes edges).edges = edges := by
  rw [hasGraphDataIssues_eq_false_iff, sanitizeGraph_nodes, sanitizeGraph_edges]
  constructor
  · intro clean
    rw [(firsts_eq_self_iff TopologyGraphNode.id).mpr clean.1,
      (firsts_eq_self_iff GraphEdge.id).mpr clean.2.1]
    exact ⟨rfl, List.filter_eq_self.mpr clean.2.2⟩
  · intro unchanged
    have distinct : (edges.map GraphEdge.id).Nodup := by
      rw [← unchanged.2]
      exact (nodup_keys_firsts GraphEdge.id edges).sublist (List.filter_sublist.map _)
    refine ⟨(firsts_eq_self_iff TopologyGraphNode.id).mp unchanged.1, distinct, ?_⟩
    rw [(firsts_eq_self_iff GraphEdge.id).mpr distinct] at unchanged
    exact List.filter_eq_self.mp unchanged.2

end Loops

theorem sanitized (nodes : List TopologyGraphNode) (edges : List GraphEdge) :
    Sanitized nodes edges (sanitizeGraph nodes edges) where
  nodesInOrder := by
    rw [sanitizeGraph_nodes]
    exact firsts_sublist TopologyGraphNode.id nodes
  firstNodes node := by
    rw [sanitizeGraph_nodes]
    exact mem_firsts TopologyGraphNode.id
  nodeIds := by
    rw [sanitizeGraph_nodes]
    exact nodup_keys_firsts TopologyGraphNode.id nodes
  edgesInOrder := by
    rw [sanitizeGraph_edges]
    exact List.filter_sublist.trans (firsts_sublist GraphEdge.id edges)
  firstEdges edge := by
    rw [sanitizeGraph_edges, List.mem_filter, isAttached_iff]
    exact and_congr_left' (mem_firsts GraphEdge.id)
  edgeIds := by
    rw [sanitizeGraph_edges]
    exact (nodup_keys_firsts GraphEdge.id edges).sublist (List.filter_sublist.map _)
  duplicateNodes := (foldl_keepNode nodes).sifted.dup
  duplicateEdges := (edgesKept_sanitizeGraph nodes edges).sifted.dup
  listedOnce := ⟨OrderedMap.keys_nodup _, OrderedMap.keys_nodup _⟩
  dangling := (edgesKept_sanitizeGraph nodes edges).dangling

/-- Whatever is passed in, the result is sanitized; it is the input exactly if there are no issues,
and sanitizing it again finds none. -/
theorem sanitizeGraph_sanitized (nodes : List TopologyGraphNode) (edges : List GraphEdge) :
    Sanitized nodes edges (sanitizeGraph nodes edges) ∧
      (hasGraphDataIssues (sanitizeGraph nodes edges) = false ↔
        (sanitizeGraph nodes edges).nodes = nodes ∧ (sanitizeGraph nodes edges).edges = edges) ∧
      sanitizeGraph (sanitizeGraph nodes edges).nodes (sanitizeGraph nodes edges).edges =
        { sanitizeGraph nodes edges with
          duplicateNodeIds := []
          duplicateEdgeIds := []
          danglingEdgeCount := 0 } := by
  have result := sanitized nodes edges
  refine ⟨result, hasGraphDataIssues_eq_false_iff_unchanged nodes edges, ?_⟩
  have attached : ∀ edge ∈ (sanitizeGraph nodes edges).edges,
      isAttached (sanitizeGraph nodes edges).nodes edge.toTopologyGraphEdge = true := by
    intro edge member
    have ends := ((result.firstEdges edge).mp member).2
    rw [isAttached_iff, sanitizeGraph_nodes]
    exact ⟨(mem_keys_firsts TopologyGraphNode.id).mpr ends.1,
      (mem_keys_firsts TopologyGraphNode.id).mpr ends.2⟩
  have clean := (hasGraphDataIssues_eq_false_iff _ _).mpr ⟨result.nodeIds, result.edgeIds, attached⟩
  have unchanged := (hasGraphDataIssues_eq_false_iff_unchanged _ _).mp clean
  have noIssues := hasGraphDataIssues_eq_false.mp clean
  exact SanitizedGraph.ext unchanged.1 unchanged.2 noIssues.1 noIssues.2.1 noIssues.2.2

end BelugaManager.Web
