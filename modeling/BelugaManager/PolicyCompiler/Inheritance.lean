import BelugaManager.Foundation.Graph
import BelugaManager.PolicyCompiler.Schema
import Mathlib.Data.Finset.Dedup

/-!
# Role inheritance

The recursive searches at the head of `validate.ts` along the `includes` lists.
Both are the searches of `Foundation.Graph` on the graph in which a role name
points to the names its last declared entry includes.
-/

namespace BelugaManager.PolicyCompiler

open Foundation

/-- The declared roles by name; of several entries the last one counts. -/
def rolesByName (d : Declaration) : OrderedMap String Role :=
  .accumulate Role.name (fun _ role => role) d.roles

/-- The names a role name includes, none for an undeclared name. -/
def includesOf (d : Declaration) (name : String) : List String :=
  ((rolesByName d).get? name).elim [] Role.parents

/-- Enough fuel for any search along the `includes` lists. -/
def inheritanceFuel (d : Declaration) : Nat :=
  d.roles.length + (d.roles.flatMap Role.parents).length + 2

/-- A role together with all roles it inherits, sorted. -/
def expandRoles (d : Declaration) (roleName : String) : List String :=
  Text.sortBy cmp (Graph.visit (includesOf d) (inheritanceFuel d) roleName [])

/-- The declared roles that have a role, directly or by inheritance. -/
def holdersOf (d : Declaration) (role : String) : List String :=
  (d.roles.filter fun holder => role ∈ expandRoles d holder.name).map Role.name

/-- All roles that the members of a group effectively have. -/
def groupEffectiveRoles (d : Declaration) (group : Group) : List String :=
  (group.roles.flatMap (expandRoles d)).eraseDups

/-- The first closed walk along `includes` that the search meets. -/
def findCycle (d : Declaration) : Option (List String) :=
  Graph.findCycle (includesOf d) (inheritanceFuel d) d.roleNames

/-! ## The inheritance graph -/

theorem foldl_last {ι : Type*} (items : List ι) (stored : Option ι) :
    items.foldl (fun _ item => some item) stored = items.getLast?.or stored := by
  induction items generalizing stored with
  | nil => rfl
  | cons item rest ih =>
      rw [List.foldl_cons, ih]
      cases rest with
      | nil => rfl
      | cons next rest => simp [List.getLast?_cons]

theorem rolesByName_get? (d : Declaration) (name : String) :
    (rolesByName d).get? name = (d.roles.filter (Role.name · = name)).getLast? := by
  rw [rolesByName, OrderedMap.get?_accumulate, foldl_last, Option.or_none]

/-- What a name includes is listed by a declared role of that name. -/
theorem mem_includesOf {d : Declaration} {name parent : String}
    (included : parent ∈ includesOf d name) :
    ∃ role ∈ d.roles, role.name = name ∧ parent ∈ role.parents := by
  rw [includesOf, rolesByName_get?] at included
  cases last : (d.roles.filter (Role.name · = name)).getLast? with
  | none => simp [last] at included
  | some role =>
      have member := List.mem_of_getLast? last
      rw [List.mem_filter, decide_eq_true_eq] at member
      simp only [last, Option.elim_some] at included
      exact ⟨role, member.1, member.2, included⟩

/-- With distinct role names every entry counts. -/
theorem includesOf_of_nodup {d : Declaration} (distinct : d.roleNames.Nodup) {role : Role}
    (declared : role ∈ d.roles) : includesOf d role.name = role.parents := by
  have stored : (rolesByName d).get? role.name = some role := by
    rw [rolesByName_get?]
    cases last : (d.roles.filter (Role.name · = role.name)).getLast? with
    | none =>
        rw [List.getLast?_eq_none_iff, List.filter_eq_nil_iff] at last
        exact absurd (decide_eq_true rfl) (last role declared)
    | some other =>
        have member := List.mem_of_getLast? last
        rw [List.mem_filter, decide_eq_true_eq] at member
        rw [List.inj_on_of_nodup_map distinct member.1 declared member.2]
  rw [includesOf, stored, Option.elim_some]

/-- A name and everything declared roles include, a set no edge leaves. -/
def includesRegion (d : Declaration) (names : List String) :
    Graph.Region (includesOf d) where
  nodes := (names ++ d.roles.flatMap Role.parents).toFinset
  closed := by
    intro name _ parent included
    rcases mem_includesOf included with ⟨role, declared, _, listed⟩
    rw [List.mem_toFinset, List.mem_append, List.mem_flatMap]
    exact Or.inr ⟨role, declared, listed⟩

theorem includesRegion_card (d : Declaration) (names : List String)
    (few : names.length ≤ d.roles.length + 1) :
    (includesRegion d names).nodes.card < inheritanceFuel d := by
  have bound := List.toFinset_card_le (names ++ d.roles.flatMap Role.parents)
  rw [List.length_append] at bound
  simp only [includesRegion, inheritanceFuel]
  omega

/-- `expandRoles` computes the reflexive-transitive closure of `includes`. -/
theorem mem_expandRoles (d : Declaration) (roleName other : String) :
    other ∈ expandRoles d roleName ↔ Graph.Reaches (includesOf d) roleName other := by
  rw [expandRoles, Text.mem_sortBy]
  apply Graph.mem_visit_iff (includesOf d) (includesRegion d [roleName])
  · simp [includesRegion]
  · exact includesRegion_card d [roleName] (by simp)

theorem self_mem_expandRoles (d : Declaration) (roleName : String) :
    roleName ∈ expandRoles d roleName :=
  (mem_expandRoles d roleName roleName).mpr .refl

theorem expandRoles_trans {d : Declaration} {roleName middle other : String}
    (first : middle ∈ expandRoles d roleName) (second : other ∈ expandRoles d middle) :
    other ∈ expandRoles d roleName := by
  rw [mem_expandRoles] at first second ⊢
  exact first.trans second

theorem mem_holdersOf (d : Declaration) (role holder : String) :
    holder ∈ holdersOf d role ↔ holder ∈ d.roleNames ∧ role ∈ expandRoles d holder := by
  simp only [holdersOf, Declaration.roleNames, List.mem_map, List.mem_filter,
    decide_eq_true_eq]
  constructor
  · intro member
    rcases member with ⟨entry, ⟨declared, has⟩, rfl⟩
    exact ⟨⟨entry, declared, rfl⟩, has⟩
  · intro member
    rcases member with ⟨⟨entry, declared, rfl⟩, has⟩
    exact ⟨entry, ⟨declared, has⟩, rfl⟩

theorem mem_holdersOf_self {d : Declaration} {name : String} (known : name ∈ d.roleNames) :
    name ∈ holdersOf d name :=
  (mem_holdersOf d name name).mpr ⟨known, self_mem_expandRoles d name⟩

theorem mem_groupEffectiveRoles (d : Declaration) (group : Group) (role : String) :
    role ∈ groupEffectiveRoles d group ↔ ∃ listed ∈ group.roles, role ∈ expandRoles d listed := by
  rw [groupEffectiveRoles, List.mem_eraseDups, List.mem_flatMap]

/-- Names that are not declared include nothing, so a declaration in which the
search finds no closed walk has none at all. -/
theorem acyclic_of_findCycle_none {d : Declaration} (quiet : findCycle d = none) :
    Graph.Acyclic (includesOf d) := by
  intro name cycle
  have declared : name ∈ d.roleNames := by
    rcases Relation.TransGen.head'_iff.mp cycle with ⟨parent, included, _⟩
    rcases mem_includesOf included with ⟨role, declared, rfl, _⟩
    exact List.mem_map_of_mem declared
  refine Graph.findCycle_none (includesOf d) (includesRegion d d.roleNames) ?_ ?_ quiet
    name declared cycle
  · intro root member
    simp [includesRegion, member]
  · exact includesRegion_card d d.roleNames (by simp [Declaration.roleNames])

/-- Some role of a token is in a list of roles. -/
def Meets (token roles : List String) : Prop := ∃ role ∈ token, role ∈ roles

instance (token roles : List String) : Decidable (Meets token roles) :=
  inferInstanceAs (Decidable (∃ role ∈ token, role ∈ roles))

/-- A token that holds a declared role also holds what the role includes. -/
def ClosedUnderIncludes (d : Declaration) (token : List String) : Prop :=
  ∀ role ∈ d.roles, role.name ∈ token → ∀ parent ∈ role.parents, parent ∈ token

instance (d : Declaration) (token : List String) : Decidable (ClosedUnderIncludes d token) :=
  inferInstanceAs (Decidable (∀ role ∈ d.roles, role.name ∈ token →
    ∀ parent ∈ role.parents, parent ∈ token))

theorem ClosedUnderIncludes.expandRoles_subset {d : Declaration} {token : List String}
    (closed : ClosedUnderIncludes d token) {name other : String} (held : name ∈ token)
    (inherited : other ∈ expandRoles d name) : other ∈ token := by
  rw [mem_expandRoles] at inherited
  induction inherited with
  | refl => exact held
  | tail _ edge ih =>
      rcases mem_includesOf edge with ⟨role, declared, rfl, listed⟩
      exact closed role declared ih _ listed

end BelugaManager.PolicyCompiler
