import BelugaManager.PolicyCompiler.Validate

/-!
# Checked declarations

What a declaration without errors satisfies is collected in the structure
`Checked`, so that later modules never unfold the validator.
-/

namespace BelugaManager.PolicyCompiler

open Foundation

/-- The codes of all errors satisfy a condition. -/
def EveryCode (admitted : ErrorCode → Prop) (errors : List ValidationError) : Prop :=
  ∀ error ∈ errors, admitted error.code

theorem everyCode_append (admitted : ErrorCode → Prop) (left right : List ValidationError) :
    EveryCode admitted (left ++ right) ↔ EveryCode admitted left ∧ EveryCode admitted right :=
  List.forall_mem_append

theorem everyCode_flatMap {ι : Type*} (admitted : ErrorCode → Prop) (items : List ι)
    (errors : ι → List ValidationError) :
    EveryCode admitted (items.flatMap errors) ↔
      ∀ item ∈ items, EveryCode admitted (errors item) := by
  simp only [EveryCode, List.mem_flatMap]
  constructor
  · intro every item member error inErrors
    exact every error ⟨item, member, inErrors⟩
  · intro every error inSome
    rcases inSome with ⟨item, member, inErrors⟩
    exact every item member error inErrors

/-- A check that only reports admitted errors. -/
theorem everyCode_errorUnless (admitted : ErrorCode → Prop) {condition : Prop}
    [Decidable condition] {code : ErrorCode} (other : admitted code) (message : String) :
    EveryCode admitted (errorUnless condition code message) := by
  rw [errorUnless]
  split
  next => simp [EveryCode]
  next => simp [EveryCode, other]

/-- No error other than possibly a mask conflict. -/
def Clear (errors : List ValidationError) : Prop := EveryCode (· = .conflictingMask) errors

theorem clear_append (left right : List ValidationError) :
    Clear (left ++ right) ↔ Clear left ∧ Clear right := everyCode_append _ left right

theorem clear_flatMap {ι : Type*} (items : List ι) (errors : ι → List ValidationError) :
    Clear (items.flatMap errors) ↔ ∀ item ∈ items, Clear (errors item) :=
  everyCode_flatMap _ items errors

theorem clear_errorUnless {condition : Prop} [Decidable condition] {code : ErrorCode}
    (serious : code ≠ .conflictingMask) (message : String) :
    Clear (errorUnless condition code message) ↔ condition := by
  by_cases holds : condition
  · simp [Clear, EveryCode, errorUnless, holds]
  · simp [Clear, EveryCode, errorUnless, holds, serious]

theorem clear_roleReferenceErrors (d : Declaration) (role unknown invalid : String) :
    Clear (roleReferenceErrors d role unknown invalid) ↔
      role ∈ d.roleNames ∧ ROLE_NAME.test role = true := by
  rw [roleReferenceErrors, clear_append, clear_errorUnless (by decide),
    clear_errorUnless (by decide)]

/-- A declaration in which validation finds at most mask conflicts. -/
structure Checked (d : Declaration) : Prop where
  acyclic : Graph.Acyclic (includesOf d)
  roleName : ∀ role ∈ d.roles, ROLE_NAME.test role.name = true
  parentKnown : ∀ role ∈ d.roles, ∀ parent ∈ role.parents, parent ∈ d.roleNames
  pgRole_nodup : (d.roleNames.map toPgRole).Nodup
  groupName : ∀ group ∈ d.groups, ROLE_NAME.test group.name = true
  groupRoleKnown : ∀ group ∈ d.groups, ∀ role ∈ group.roles, role ∈ d.roleNames
  resourceKey_nodup : (d.resources.map resourceKey).Nodup
  schemaTable : ∀ res ∈ d.resources, isSchemaTable res.resource = true
  grantRoleKnown : ∀ res ∈ d.resources, ∀ grant ∈ res.grants, ∀ role ∈ grant.roles,
    role ∈ d.roleNames
  postgresUnmasked : ∀ res ∈ d.resources, res.engine = some .postgres →
    ∀ grant ∈ res.grants, grant.columnMask = none
  piiMasked : ∀ res ∈ d.resources, res.classification = .pii → ∀ grant ∈ res.grants,
    .select ∈ grant.privileges → grant.optsOut = false →
    ∀ column ∈ res.sensitive, column ∈ grant.masks.map Prod.fst
  catalogDeployed : ∀ cg ∈ d.catalogGrantList, cg.catalog = DEPLOYED_CATALOG
  catalogRoleKnown : ∀ cg ∈ d.catalogGrantList, ∀ role ∈ cg.roles, role ∈ d.roleNames
  loginName : ∀ login ∈ d.loginList, LOGIN_NAME.test login.name = true
  loginDatabase : ∀ login ∈ d.loginList, IDENTIFIER.test login.database = true
  loginFresh : ∀ login ∈ d.loginList, login.name ∉ d.roleNames.map toPgRole
  memberKnown : ∀ login ∈ d.loginList, ∀ role ∈ login.memberOf, role ∈ d.roleNames

theorem findCycle_none_of_clear {d : Declaration} (clear : Clear (cycleErrors d)) :
    findCycle d = none := by
  cases search : findCycle d with
  | none => rfl
  | some cycle => simp [Clear, EveryCode, cycleErrors, search] at clear

theorem pgRole_nodup_of_clear {d : Declaration}
    (clear : Clear (roleNameCollisionErrors d)) : (d.roleNames.map toPgRole).Nodup := by
  apply OrderedMap.nodup_of_group_le_one
  intro entry member
  simp only [roleNameCollisionErrors, clear_flatMap, Text.mem_sortBy] at clear
  exact (clear_errorUnless (by decide) _).mp (clear entry member)

theorem resourceKey_nodup_of_clear {d : Declaration}
    (clear : Clear (duplicateResourceErrors d)) : (d.resources.map resourceKey).Nodup := by
  apply OrderedMap.nodup_of_tally_le_one
  intro entry member
  simp only [duplicateResourceErrors, clear_flatMap, Text.mem_sortBy] at clear
  exact (clear_errorUnless (by decide) _).mp (clear entry member)

/-- The checks made on one grant, as far as later results rely on them. -/
theorem grant_of_clear {d : Declaration} {res : Resource} {grant : Grant}
    (clear : Clear (grantErrors d res grant)) :
    (res.engine = some .postgres → grant.columnMask = none) ∧
      (∀ role ∈ grant.roles, role ∈ d.roleNames) ∧
      (res.classification = .pii → .select ∈ grant.privileges → grant.optsOut = false →
        ∀ column ∈ res.sensitive, column ∈ grant.masks.map Prod.fst) := by
  simp only [grantErrors, clear_append, clear_flatMap, clear_roleReferenceErrors] at clear
  rcases clear with ⟨⟨⟨⟨⟨mask, _⟩, roles⟩, _⟩, _⟩, pii⟩
  rw [clear_errorUnless (by decide)] at mask pii
  refine ⟨?_, fun role member => (roles role member).1, ?_⟩
  · intro postgres
    simpa [postgres] using mask
  · intro isPii selects normal column sensitive
    simp only [isPii, selects, normal, ne_eq, true_and, not_not, List.filter_eq_nil_iff,
      decide_eq_true_eq] at pii
    exact pii column sensitive

theorem checked_of_clear {d : Declaration} (clear : Clear (validateDeclaration d)) :
    Checked d := by
  simp only [validateDeclaration, clear_append, clear_flatMap] at clear
  rcases clear with
    ⟨⟨⟨⟨⟨⟨⟨⟨cycle, roles⟩, collision⟩, groups⟩, duplicate⟩, resources⟩, catalog⟩, _⟩, logins⟩
  simp only [roleErrors, groupErrors, resourceErrors, catalogGrantErrors, loginErrors,
    clear_append, clear_flatMap, clear_roleReferenceErrors] at roles groups resources catalog logins
  have role := fun role member => roles role member
  exact {
    acyclic := acyclic_of_findCycle_none (findCycle_none_of_clear cycle)
    roleName := fun role member =>
      (clear_errorUnless (by decide) _).mp (roles role member).1
    parentKnown := fun role member parent listed => ((roles role member).2 parent listed).1
    pgRole_nodup := pgRole_nodup_of_clear collision
    groupName := fun group member =>
      (clear_errorUnless (by decide) _).mp (groups group member).1
    groupRoleKnown := fun group member role listed => ((groups group member).2 role listed).1
    resourceKey_nodup := resourceKey_nodup_of_clear duplicate
    schemaTable := fun res member =>
      (clear_errorUnless (by decide) _).mp (resources res member).1.1.1.1
    grantRoleKnown := fun res member grant listed =>
      (grant_of_clear ((resources res member).1.2 grant listed)).2.1
    postgresUnmasked := fun res member postgres grant listed =>
      (grant_of_clear ((resources res member).1.2 grant listed)).1 postgres
    piiMasked := fun res member isPii grant listed =>
      (grant_of_clear ((resources res member).1.2 grant listed)).2.2 isPii
    catalogDeployed := fun cg member =>
      (clear_errorUnless (by decide) _).mp (catalog cg member).1
    catalogRoleKnown := fun cg member role listed => ((catalog cg member).2 role listed).1
    loginName := fun login member =>
      (clear_errorUnless (by decide) _).mp (logins login member).1.1.1
    loginDatabase := fun login member =>
      (clear_errorUnless (by decide) _).mp (logins login member).1.1.2
    loginFresh := fun login member =>
      (clear_errorUnless (by decide) _).mp (logins login member).1.2
    memberKnown := fun login member role listed =>
      (clear_errorUnless (by decide) _).mp ((logins login member).2 role listed) }

theorem checked_of_valid {d : Declaration} (valid : validateDeclaration d = []) :
    Checked d := by
  apply checked_of_clear
  rw [valid]
  exact fun _ member => absurd member List.not_mem_nil

/-- A grant that allows reading. -/
def readGrant (roles : List String) (columnMask : Option (OrderedMap String MaskKind) := none)
    (rowFilter : Option String := none) : Grant where
  roles := roles
  privileges := [.select]
  columnMask := columnMask
  rowFilter := rowFilter

/-- A table with personal data, masked for one role and open to another. -/
def customers : Resource where
  resource := "lake.customers"
  classification := .pii
  sensitiveColumns := some ["email"]
  grants :=
    [{ roles := ["Engineers"], privileges := [.select, .insert], allowUnmasked := some true },
      readGrant ["analysts"] (some (.single "email" .hash)) (some "region = 'KR'")]

/-- A small lakehouse: one role inherits the other, one table holds personal data,
and one person logs in to PostgreSQL. -/
def lakehouse : Declaration where
  roles := [{ name := "analysts" }, { name := "Engineers", includes := some ["analysts"] }]
  groups := [{ name := "bi", roles := ["analysts"] }]
  resources :=
    [customers,
      { resource := "public.orders", classification := .internal, engine := some .postgres
        grants := [readGrant ["analysts"]] }]
  catalogGrants := some
    [{ catalog := "iceberg", roles := ["analysts"], operations := [.executeQuery, .accessCatalog] }]
  logins := some [{ name := "beluga-analyst", memberOf := ["analysts"], database := "beluga" }]

theorem lakehouse_valid : validateDeclaration lakehouse = [] := by decide +kernel

namespace Checked

variable {d : Declaration} (checked : Checked d)
include checked

theorem roleNames_nodup : d.roleNames.Nodup := checked.pgRole_nodup.of_map

theorem toPgRole_injective {left right : String} (leftKnown : left ∈ d.roleNames)
    (rightKnown : right ∈ d.roleNames) (same : toPgRole left = toPgRole right) :
    left = right :=
  List.inj_on_of_nodup_map checked.pgRole_nodup leftKnown rightKnown same

/-- A declared role only inherits declared roles. -/
theorem expandRoles_known {name other : String} (known : name ∈ d.roleNames)
    (inherited : other ∈ expandRoles d name) : other ∈ d.roleNames := by
  rw [mem_expandRoles] at inherited
  cases inherited with
  | refl => exact known
  | tail _ edge =>
      rcases mem_includesOf edge with ⟨role, declared, _, listed⟩
      exact checked.parentKnown role declared other listed

/-- Two resources of one engine with the same name are one. -/
theorem resource_unique {left right : Resource} (leftDeclared : left ∈ d.resources)
    (rightDeclared : right ∈ d.resources)
    (sameEngine : left.engineOrDefault = right.engineOrDefault)
    (sameName : left.resource = right.resource) : left = right := by
  apply List.inj_on_of_nodup_map checked.resourceKey_nodup leftDeclared rightDeclared
  rw [resourceKey, resourceKey, sameEngine, sameName]

end Checked

end BelugaManager.PolicyCompiler
