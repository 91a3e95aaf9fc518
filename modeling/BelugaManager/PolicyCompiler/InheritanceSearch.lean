import BelugaManager.Foundation.SearchRuns
import BelugaManager.PolicyCompiler.Inheritance

/-!
# What the inheritance searches decide

`expandRoles` and `findCycle` on any declaration, with cyclic includes, references to
roles that are not declared, and several entries of one name.
-/

namespace BelugaManager.PolicyCompiler

open Foundation

/-- The entry that counts for a name: the last one that is declared under it. -/
def lastEntry (d : Declaration) (name : String) : Option Role :=
  (d.roles.filter (Role.name · = name)).getLast?

/-- The entry that counts for a name includes another name. -/
def Includes (d : Declaration) (name parent : String) : Prop :=
  ∃ role, lastEntry d name = some role ∧ parent ∈ role.parents

theorem edge_includesOf (d : Declaration) : Graph.Edge (includesOf d) = Includes d := by
  funext name parent
  rw [Graph.Edge, includesOf, rolesByName_get?, Includes, lastEntry]
  cases (d.roles.filter (Role.name · = name)).getLast? with
  | none => simp
  | some role => simp

/-- What the recursions of `expandRoles` and `findCycle` do on a declaration. -/
structure SearchesDecide (d : Declaration) : Prop where
  /-- The calls below `walk(roleName)` come to an end, and the visited names are sorted. -/
  expandEnds : ∀ roleName, ∃ seen, Graph.Traverses (includesOf d) [roleName] [] seen ∧
    expandRoles d roleName = Text.sortBy cmp seen
  expandSorted : ∀ roleName, (expandRoles d roleName).Pairwise Text.Before
  expandExact : ∀ roleName other,
    other ∈ expandRoles d roleName ↔ Relation.ReflTransGen (Includes d) roleName other
  /-- The calls of the sweep over the declared roles come to an end. -/
  cycleEnds : ∃ search, Graph.Searches (includesOf d) d.roleNames [] .start search ∧
    findCycle d = search.cycle
  cycleExact : findCycle d ≠ none ↔ ∃ name, Relation.TransGen (Includes d) name name
  cycleWalk : ∀ cycle, findCycle d = some cycle → cycle.IsChain (Includes d) ∧
    ∃ front last, cycle = front ++ [last] ∧ last ∈ front

variable (d : Declaration)

theorem expandRoles_nodup (roleName : String) : (expandRoles d roleName).Nodup := by
  rw [expandRoles, (Text.sortBy_perm cmp _).nodup_iff]
  apply Graph.visit_nodup (includesOf d) (includesRegion d [roleName])
  · simp [includesRegion]
  · exact includesRegion_card d [roleName] (by simp)

/-- Sorted and without duplicates is strictly increasing. -/
theorem expandRoles_increasing (roleName : String) :
    (expandRoles d roleName).Pairwise Text.Before := by
  have sorted : (expandRoles d roleName).Pairwise fun a b => Text.utf16 a ≤ Text.utf16 b :=
    Text.comparesBy_compareUnits.pairwise_sortBy _
  apply (sorted.and (expandRoles_nodup d roleName)).imp
  intro a b both
  exact lt_of_le_of_ne both.1 fun same => both.2 (Text.utf16_injective same)

theorem expandRoles_traverses (roleName : String) :
    ∃ seen, Graph.Traverses (includesOf d) [roleName] [] seen ∧
      expandRoles d roleName = Text.sortBy cmp seen := by
  refine ⟨_, ?_, rfl⟩
  apply Graph.visit_traverses (includesRegion d [roleName])
  · simp [includesRegion]
  · have few := includesRegion_card d [roleName] (by simp)
    exact Nat.lt_of_le_of_lt (Finset.card_filter_le _ _) few

theorem findCycle_searches : ∃ search,
    Graph.Searches (includesOf d) d.roleNames [] .start search ∧ findCycle d = search.cycle := by
  apply Graph.findCycle_searches (includesRegion d d.roleNames)
  · intro root member
    simp [includesRegion, member]
  · exact includesRegion_card d d.roleNames (by simp [Declaration.roleNames])

/-- What the sweep reports is a closed walk along the includes. -/
theorem closedWalk_of_findCycle {cycle : List String} (found : findCycle d = some cycle) :
    Graph.ClosedWalk (includesOf d) cycle := by
  rcases findCycle_searches d with ⟨search, searches, same⟩
  exact searches.closedWalk (same ▸ found)

theorem findCycle_ne_none_iff :
    findCycle d ≠ none ↔ ∃ name, Relation.TransGen (Includes d) name name := by
  rw [← edge_includesOf]
  constructor
  · intro reported
    cases found : findCycle d with
    | none => exact absurd found reported
    | some cycle => exact (closedWalk_of_findCycle d found).exists_cycle
  · intro cyclic quiet
    rcases cyclic with ⟨name, cycle⟩
    exact acyclic_of_findCycle_none quiet name cycle

/-- On every declaration both searches end, one with the sorted closure of the includes and
the other with a closed walk exactly when there is a cycle. -/
theorem searches_decide : SearchesDecide d where
  expandEnds := expandRoles_traverses d
  expandSorted := expandRoles_increasing d
  expandExact roleName other := by
    rw [mem_expandRoles, ← edge_includesOf]
  cycleEnds := findCycle_searches d
  cycleExact := findCycle_ne_none_iff d
  cycleWalk cycle found := by
    have closed := closedWalk_of_findCycle d found
    rw [← edge_includesOf]
    exact closed

end BelugaManager.PolicyCompiler
