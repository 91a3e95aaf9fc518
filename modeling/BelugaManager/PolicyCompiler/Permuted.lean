import BelugaManager.Foundation.PermBy
import BelugaManager.PolicyCompiler.Rego
import BelugaManager.PolicyCompiler.MaskConflict

/-!
# Declarations that differ in the order of their lists

What the validator and the helpers make of such declarations.  Inheritance, holders and
validity depend on no order.
-/

namespace BelugaManager.PolicyCompiler

open Foundation

structure PermutedRole (r r' : Role) : Prop where
  name : r.name = r'.name
  includes : Option.Rel List.Perm r.includes r'.includes

structure PermutedGroup (g g' : Group) : Prop where
  name : g.name = g'.name
  roles : g.roles.Perm g'.roles

structure PermutedGrant (g g' : Grant) : Prop where
  roles : g.roles.Perm g'.roles
  privileges : g.privileges.Perm g'.privileges
  columnMask : g.columnMask = g'.columnMask
  rowFilter : g.rowFilter = g'.rowFilter
  allowUnmasked : g.allowUnmasked = g'.allowUnmasked

structure PermutedResource (res res' : Resource) : Prop where
  resource : res.resource = res'.resource
  classification : res.classification = res'.classification
  grants : PermBy PermutedGrant res.grants res'.grants
  sensitiveColumns : res.sensitiveColumns = res'.sensitiveColumns
  engine : res.engine = res'.engine

structure PermutedCatalogGrant (cg cg' : CatalogGrant) : Prop where
  catalog : cg.catalog = cg'.catalog
  roles : cg.roles.Perm cg'.roles
  operations : cg.operations.Perm cg'.operations

structure PermutedLogin (login login' : PgLogin) : Prop where
  name : login.name = login'.name
  memberOf : login.memberOf.Perm login'.memberOf
  database : login.database = login'.database

/-- The same declaration with its lists, and the lists in them, in another order. -/
structure Permuted (d d' : Declaration) : Prop where
  roles : PermBy PermutedRole d.roles d'.roles
  groups : PermBy PermutedGroup d.groups d'.groups
  resources : PermBy PermutedResource d.resources d'.resources
  catalogGrants : Option.Rel (PermBy PermutedCatalogGrant) d.catalogGrants d'.catalogGrants
  logins : Option.Rel (PermBy PermutedLogin) d.logins d'.logins

theorem PermutedRole.parents {r r' : Role} (permuted : PermutedRole r r') :
    r.parents.Perm r'.parents := getD_of_rel permuted.includes List.Perm.nil

theorem PermutedGrant.masks {g g' : Grant} (permuted : PermutedGrant g g') :
    g.masks = g'.masks := by
  rw [Grant.masks, Grant.masks, permuted.columnMask]

theorem PermutedGrant.optsOut {g g' : Grant} (permuted : PermutedGrant g g') :
    g.optsOut = g'.optsOut := by
  rw [Grant.optsOut, Grant.optsOut, permuted.allowUnmasked]

theorem PermutedResource.engineOrDefault {res res' : Resource}
    (permuted : PermutedResource res res') :
    res.engineOrDefault = res'.engineOrDefault := by
  rw [Resource.engineOrDefault, Resource.engineOrDefault, permuted.engine]

theorem PermutedResource.sensitive {res res' : Resource} (permuted : PermutedResource res res') :
    res.sensitive = res'.sensitive := by
  rw [Resource.sensitive, Resource.sensitive, permuted.sensitiveColumns]

theorem PermutedResource.key {res res' : Resource} (permuted : PermutedResource res res') :
    resourceKey res = resourceKey res' := by
  rw [resourceKey, resourceKey, permuted.engineOrDefault, permuted.resource]

theorem errorUnless_eq_nil_iff (condition : Prop) [Decidable condition] (code : ErrorCode)
    (message : String) : errorUnless condition code message = [] ↔ condition := by
  by_cases holds : condition
  · simp [errorUnless, holds]
  · simp [errorUnless, holds]

theorem roleReferenceErrors_eq_nil_iff (d : Declaration) (role unknown invalid : String) :
    roleReferenceErrors d role unknown invalid = [] ↔
      role ∈ d.roleNames ∧ ROLE_NAME.test role = true := by
  rw [roleReferenceErrors, List.append_eq_nil_iff, errorUnless_eq_nil_iff, errorUnless_eq_nil_iff]

theorem roleNameCollisionErrors_eq_nil_iff (d : Declaration) :
    roleNameCollisionErrors d = [] ↔ (d.roleNames.map toPgRole).Nodup := by
  simp only [roleNameCollisionErrors, List.flatMap_eq_nil_iff, Text.mem_sortBy,
    errorUnless_eq_nil_iff]
  exact ⟨OrderedMap.nodup_of_group_le_one toPgRole d.roleNames,
    OrderedMap.group_le_one_of_nodup toPgRole d.roleNames⟩

theorem duplicateResourceErrors_eq_nil_iff (d : Declaration) :
    duplicateResourceErrors d = [] ↔ (d.resources.map resourceKey).Nodup := by
  simp only [duplicateResourceErrors, List.flatMap_eq_nil_iff, Text.mem_sortBy,
    errorUnless_eq_nil_iff]
  exact ⟨OrderedMap.nodup_of_tally_le_one _, OrderedMap.tally_le_one_of_nodup _⟩

/-- The operations that the entries for catalogs list, with their catalogs. -/
def catalogOperations (d : Declaration) : List (String × QueryOperation) :=
  d.catalogGrantList.flatMap fun cg => cg.operations.map (cg.catalog, ·)

theorem duplicateCatalogGrantErrors_eq_nil_iff (d : Declaration) :
    duplicateCatalogGrantErrors d = [] ↔ (catalogOperations d).Nodup := by
  simp only [duplicateCatalogGrantErrors, List.flatMap_eq_nil_iff, Text.mem_sortBy,
    errorUnless_eq_nil_iff]
  exact ⟨OrderedMap.nodup_of_tally_le_one _, OrderedMap.tally_le_one_of_nodup _⟩

theorem rowFilterErrors_congr {res res' : Resource} (same : res.resource = res'.resource)
    (rowFilter : Option String) :
    rowFilterErrors res rowFilter = rowFilterErrors res' rowFilter := by
  cases rowFilter with
  | none => rfl
  | some filter => rw [rowFilterErrors, rowFilterErrors, same]

namespace Permuted

variable {d d' : Declaration} (permuted : Permuted d d')
include permuted

theorem catalogGrantList : PermBy PermutedCatalogGrant d.catalogGrantList d'.catalogGrantList :=
  getD_of_rel permuted.catalogGrants PermBy.nil

theorem loginList : PermBy PermutedLogin d.loginList d'.loginList :=
  getD_of_rel permuted.logins PermBy.nil

theorem roleNames : d.roleNames.Perm d'.roleNames :=
  permuted.roles.map_perm fun _ _ matches' => matches'.name

/-! ## Inheritance -/

section Inheritance

variable (distinct : d.roleNames.Nodup)
include distinct

theorem mem_includesOf (name parent : String) :
    parent ∈ includesOf d name ↔ parent ∈ includesOf d' name := by
  have distinct' : d'.roleNames.Nodup := permuted.roleNames.nodup_iff.mp distinct
  by_cases known : name ∈ d.roleNames
  · rcases List.mem_map.mp known with ⟨r, declared, rfl⟩
    rcases permuted.roles.exists_right declared with ⟨r', declared', matches'⟩
    rw [includesOf_of_nodup distinct declared, matches'.name,
      includesOf_of_nodup distinct' declared',
      matches'.parents.mem_iff]
  · have unknown : name ∉ d'.roleNames := fun member =>
      known (permuted.roleNames.mem_iff.mpr member)
    have absent : ∀ {e : Declaration}, name ∉ e.roleNames → parent ∉ includesOf e name := by
      intro e notDeclared included
      rcases PolicyCompiler.mem_includesOf included with ⟨r, declared, rfl, _⟩
      exact notDeclared (List.mem_map_of_mem declared)
    exact iff_of_false (absent known) (absent unknown)

theorem edge : Graph.Edge (includesOf d) = Graph.Edge (includesOf d') := by
  funext name parent
  exact propext (permuted.mem_includesOf distinct name parent)

theorem mem_expandRoles (name other : String) :
    other ∈ expandRoles d name ↔ other ∈ expandRoles d' name := by
  rw [PolicyCompiler.mem_expandRoles, PolicyCompiler.mem_expandRoles, Graph.Reaches, Graph.Reaches,
    permuted.edge distinct]

theorem acyclic : Graph.Acyclic (includesOf d) ↔ Graph.Acyclic (includesOf d') := by
  rw [Graph.Acyclic, Graph.Acyclic, Graph.ProperlyReaches, Graph.ProperlyReaches,
    permuted.edge distinct]

theorem mem_holdersOf (role holder : String) :
    holder ∈ holdersOf d role ↔ holder ∈ holdersOf d' role := by
  rw [PolicyCompiler.mem_holdersOf, PolicyCompiler.mem_holdersOf, permuted.roleNames.mem_iff,
    permuted.mem_expandRoles distinct]

theorem mem_groupEffectiveRoles {g g' : Group} (matches' : PermutedGroup g g') (role : String) :
    role ∈ groupEffectiveRoles d g ↔ role ∈ groupEffectiveRoles d' g' := by
  simp only [PolicyCompiler.mem_groupEffectiveRoles, permuted.mem_expandRoles distinct,
    matches'.roles.mem_iff]

theorem mem_holdersOfIncludingGroups (role holder : String) :
    holder ∈ holdersOfIncludingGroups d role ↔ holder ∈ holdersOfIncludingGroups d' role := by
  have groups : holder ∈ taggedGroupHolders d role ↔ holder ∈ taggedGroupHolders d' role := by
    have selected := permuted.groups.filter
      (p := fun group => decide (role ∈ groupEffectiveRoles d group))
      (q := fun group => decide (role ∈ groupEffectiveRoles d' group)) (by
        intro g g' matches'
        rw [decide_eq_decide]
        exact permuted.mem_groupEffectiveRoles distinct matches' role)
    exact (selected.map_perm fun g g' matches' => by rw [matches'.name]).mem_iff
  rw [holdersOfIncludingGroups, holdersOfIncludingGroups, List.mem_eraseDups, List.mem_eraseDups,
    List.mem_append, List.mem_append, permuted.mem_holdersOf distinct, groups]

theorem mem_grantHolders {g g' : Grant} (matches' : PermutedGrant g g') (holder : String) :
    holder ∈ grantHolders d g ↔ holder ∈ grantHolders d' g' := by
  simp only [grantHolders, List.mem_eraseDups, List.mem_flatMap, matches'.roles.mem_iff,
    permuted.mem_holdersOfIncludingGroups distinct]

theorem mem_resourceUnmasked {res res' : Resource} (matches' : PermutedResource res res')
    (holder : String) : holder ∈ resourceUnmasked d res ↔ holder ∈ resourceUnmasked d' res' := by
  simp only [resourceUnmasked, List.mem_eraseDups, List.mem_flatMap, List.mem_filter, and_assoc]
  apply matches'.grants.exists_iff
  intro g g' alike
  simp only [alike.optsOut, alike.roles.mem_iff, permuted.mem_holdersOfIncludingGroups distinct]

/-! ## Validity -/

theorem conflictErrors_eq_nil {res res' : Resource} (matches' : PermutedResource res res')
    (quiet : conflictErrors d res = []) : conflictErrors d' res' = [] := by
  by_contra reported
  rcases (conflictErrors_ne_nil_iff d' res').mp reported with ⟨column, a', b', holder, clash⟩
  rcases matches'.grants.exists_left clash.listed.1 with ⟨a, listedA, alikeA⟩
  rcases matches'.grants.exists_left clash.listed.2 with ⟨b, listedB, alikeB⟩
  apply (conflictErrors_ne_nil_iff d res).mpr ⟨column, a, b, holder, _⟩ quiet
  exact {
    listed := ⟨listedA, listedB⟩
    kinds := by
      rw [alikeA.masks, alikeB.masks]
      exact clash.kinds
    optsOut := by
      rw [alikeA.optsOut, alikeB.optsOut]
      exact clash.optsOut
    holders := ⟨(permuted.mem_grantHolders distinct alikeA holder).mpr clash.holders.1,
      (permuted.mem_grantHolders distinct alikeB holder).mpr clash.holders.2⟩
    masked := by
      rw [alikeA.optsOut, permuted.mem_resourceUnmasked distinct matches']
      exact clash.masked }

theorem cycleErrors_eq_nil (quiet : cycleErrors d = []) : cycleErrors d' = [] := by
  have acyclic : Graph.Acyclic (includesOf d) := by
    apply acyclic_of_findCycle_none
    cases search : findCycle d with
    | none => rfl
    | some cycle => simp [cycleErrors, search] at quiet
  have none' : findCycle d' = none :=
    Graph.findCycle_of_acyclic ((permuted.acyclic distinct).mp acyclic) _ _
  rw [cycleErrors, none']

omit distinct in
theorem roleErrors_eq_nil {r r' : Role} (matches' : PermutedRole r r')
    (quiet : roleErrors d r = []) : roleErrors d' r' = [] := by
  simp only [roleErrors, List.append_eq_nil_iff, List.flatMap_eq_nil_iff, errorUnless_eq_nil_iff,
    roleReferenceErrors_eq_nil_iff] at quiet ⊢
  simpa only [← matches'.name, ← matches'.parents.mem_iff, ← permuted.roleNames.mem_iff] using quiet

omit distinct in
theorem groupErrors_eq_nil {g g' : Group} (matches' : PermutedGroup g g')
    (quiet : groupErrors d g = []) : groupErrors d' g' = [] := by
  simp only [groupErrors, List.append_eq_nil_iff, List.flatMap_eq_nil_iff, errorUnless_eq_nil_iff,
    roleReferenceErrors_eq_nil_iff] at quiet ⊢
  simpa only [← matches'.name, ← matches'.roles.mem_iff, ← permuted.roleNames.mem_iff] using quiet

omit distinct in
theorem grantErrors_eq_nil {res res' : Resource} (matches' : PermutedResource res res')
    {g g' : Grant} (alike : PermutedGrant g g') (quiet : grantErrors d res g = []) :
    grantErrors d' res' g' = [] := by
  simp only [grantErrors, List.append_eq_nil_iff, List.flatMap_eq_nil_iff, errorUnless_eq_nil_iff,
    roleReferenceErrors_eq_nil_iff] at quiet ⊢
  rw [← rowFilterErrors_congr matches'.resource, ← matches'.engine, ← matches'.classification,
    ← matches'.sensitive, ← alike.masks, ← alike.columnMask, ← alike.rowFilter, ← alike.optsOut]
  simpa only [← alike.roles.mem_iff, ← alike.privileges.mem_iff, ← permuted.roleNames.mem_iff]
    using quiet

theorem resourceErrors_eq_nil {res res' : Resource} (matches' : PermutedResource res res')
    (quiet : resourceErrors d res = []) : resourceErrors d' res' = [] := by
  simp only [resourceErrors, List.append_eq_nil_iff, List.flatMap_eq_nil_iff,
    errorUnless_eq_nil_iff]
    at quiet ⊢
  rcases quiet with ⟨⟨named, grants⟩, conflicts⟩
  rw [← matches'.resource, ← matches'.sensitive, ← matches'.classification]
  refine ⟨⟨named, ?_⟩, permuted.conflictErrors_eq_nil distinct matches' conflicts⟩
  exact matches'.grants.forall_right grants fun _ _ alike =>
    permuted.grantErrors_eq_nil matches' alike

omit distinct in
theorem catalogGrantErrors_eq_nil {cg cg' : CatalogGrant} (matches' : PermutedCatalogGrant cg cg')
    (quiet : catalogGrantErrors d cg = []) : catalogGrantErrors d' cg' = [] := by
  simp only [catalogGrantErrors, List.append_eq_nil_iff, List.flatMap_eq_nil_iff,
    errorUnless_eq_nil_iff, roleReferenceErrors_eq_nil_iff] at quiet ⊢
  simpa only [← matches'.catalog, ← matches'.roles.mem_iff, ← permuted.roleNames.mem_iff]
    using quiet

omit distinct in
theorem loginErrors_eq_nil {login login' : PgLogin} (matches' : PermutedLogin login login')
    (quiet : loginErrors d login = []) : loginErrors d' login' = [] := by
  simp only [loginErrors, List.append_eq_nil_iff, List.flatMap_eq_nil_iff,
    errorUnless_eq_nil_iff] at quiet ⊢
  simpa only [← matches'.name, ← matches'.database, ← matches'.memberOf.mem_iff,
    ← permuted.roleNames.mem_iff, ← (permuted.roleNames.map toPgRole).mem_iff] using quiet

omit distinct in
theorem catalogOperations_perm : (catalogOperations d).Perm (catalogOperations d') := by
  apply permuted.catalogGrantList.flatMap_perm
  intro cg cg' matches'
  rw [matches'.catalog]
  exact matches'.operations.map _

/-- Validity does not depend on the order of the lists. -/
theorem validateDeclaration_eq_nil (valid : validateDeclaration d = []) :
    validateDeclaration d' = [] := by
  simp only [validateDeclaration, List.append_eq_nil_iff, List.flatMap_eq_nil_iff,
    roleNameCollisionErrors_eq_nil_iff, duplicateResourceErrors_eq_nil_iff,
    duplicateCatalogGrantErrors_eq_nil_iff] at valid ⊢
  rcases valid with ⟨⟨⟨⟨⟨⟨⟨⟨cycle, roles⟩, collision⟩, groups⟩, duplicate⟩, resources⟩, catalog⟩,
    operations⟩, logins⟩
  refine ⟨⟨⟨⟨⟨⟨⟨⟨permuted.cycleErrors_eq_nil distinct cycle, ?_⟩, ?_⟩, ?_⟩, ?_⟩, ?_⟩, ?_⟩, ?_⟩, ?_⟩
  · exact permuted.roles.forall_right roles fun _ _ => permuted.roleErrors_eq_nil
  · exact (permuted.roleNames.map toPgRole).nodup_iff.mp collision
  · exact permuted.groups.forall_right groups fun _ _ => permuted.groupErrors_eq_nil
  · exact (permuted.resources.map_perm fun _ _ matches' => matches'.key).nodup_iff.mp duplicate
  · exact permuted.resources.forall_right resources fun _ _ =>
      permuted.resourceErrors_eq_nil distinct
  · exact permuted.catalogGrantList.forall_right catalog fun _ _ =>
      permuted.catalogGrantErrors_eq_nil
  · exact permuted.catalogOperations_perm.nodup_iff.mp operations
  · exact permuted.loginList.forall_right logins fun _ _ => permuted.loginErrors_eq_nil

end Inheritance

end Permuted

end BelugaManager.PolicyCompiler
