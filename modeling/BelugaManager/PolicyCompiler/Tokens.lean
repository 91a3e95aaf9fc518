import BelugaManager.PolicyCompiler.Keycloak
import BelugaManager.PolicyCompiler.Masking
import BelugaManager.PolicyCompiler.PgAccess
import BelugaManager.PolicyCompiler.RegoOrder

/-!
# The roles in a token

Keycloak expands composite roles when it issues a token, PostgreSQL follows memberships, and the
policy lists the holders of every role.  The three ways in which a declaration hands on its
inheritance agree, and the policy answers the tokens that Keycloak issues as declared.
-/

namespace BelugaManager.PolicyCompiler

open Foundation

/-! ## What Keycloak issues -/

namespace KeycloakSpec

/-- The roles that a composite role consists of. -/
def partsOf (spec : KeycloakSpec) (name : String) : List String :=
  (spec.realmRoles.filter fun role => role.name = name ∧ role.composite = true).flatMap
    KeycloakRole.composites

/-- The roles that the members of some groups are assigned. -/
def assigned (spec : KeycloakSpec) (groups : List String) : List String :=
  (spec.groups.filter (·.name ∈ groups)).flatMap KeycloakGroup.realmRoles

/-- Enough fuel to expand any role. -/
def expansionFuel (spec : KeycloakSpec) : ℕ :=
  (spec.realmRoles.flatMap KeycloakRole.composites).length + 2

/-- The roles in the token of a member of some groups. -/
def token (spec : KeycloakSpec) (groups : List String) : List String :=
  (spec.assigned groups).flatMap fun role => Graph.visit spec.partsOf spec.expansionFuel role []

theorem mem_partsOf (spec : KeycloakSpec) (name part : String) :
    part ∈ spec.partsOf name ↔
      ∃ role ∈ spec.realmRoles, role.name = name ∧ role.composite = true ∧
        part ∈ role.composites := by
  simp [partsOf, and_assoc]

/-- A role and all parts of composite roles, a set no edge leaves. -/
def region (spec : KeycloakSpec) (name : String) : Graph.Region spec.partsOf where
  nodes := (name :: spec.realmRoles.flatMap KeycloakRole.composites).toFinset
  closed := by
    intro node _ part isPart
    rcases (mem_partsOf spec node part).mp isPart with ⟨role, member, _, _, listed⟩
    rw [List.mem_toFinset, List.mem_cons, List.mem_flatMap]
    exact Or.inr ⟨role, member, listed⟩

theorem mem_token (spec : KeycloakSpec) (groups : List String) (role : String) :
    role ∈ spec.token groups ↔
      ∃ listed ∈ spec.assigned groups, Graph.Reaches spec.partsOf listed role := by
  rw [token, List.mem_flatMap]
  apply exists_congr
  intro listed
  apply and_congr_right
  intro _
  apply Graph.mem_visit_iff spec.partsOf (spec.region listed)
  · simp [region]
  · have bound := List.toFinset_card_le
      (listed :: spec.realmRoles.flatMap KeycloakRole.composites)
    rw [List.length_cons] at bound
    simp only [region, expansionFuel]
    omega

end KeycloakSpec

theorem mem_assigned (d : Declaration) (groups : List String) (role : String) :
    role ∈ (compileKeycloak d).assigned groups ↔
      ∃ group ∈ d.groups, group.name ∈ groups ∧ role ∈ group.roles := by
  simp only [KeycloakSpec.assigned, List.mem_flatMap, List.mem_filter, mem_keycloakGroups,
    decide_eq_true_eq]
  constructor
  · intro listed
    rcases listed with ⟨_, ⟨⟨group, declared, rfl⟩, inGroups⟩, listed⟩
    exact ⟨group, declared, inGroups, (Text.mem_sortBy ..).mp listed⟩
  · intro listed
    rcases listed with ⟨group, declared, inGroups, listed⟩
    exact ⟨_, ⟨⟨group, declared, rfl⟩, inGroups⟩, (Text.mem_sortBy ..).mpr listed⟩

section Issued

variable {d : Declaration} (checked : Checked d)
include checked

/-- The parts of a composite role are the roles it includes. -/
theorem Checked.edge_partsOf (name part : String) :
    part ∈ (compileKeycloak d).partsOf name ↔ part ∈ includesOf d name := by
  rw [KeycloakSpec.mem_partsOf]
  constructor
  · intro isPart
    rcases isPart with ⟨_, member, rfl, _, listed⟩
    rw [compileKeycloak, Text.mem_sortBy] at member
    rcases List.mem_map.mp member with ⟨role, declared, rfl⟩
    rw [includesOf_of_nodup checked.roleNames_nodup declared]
    exact (Text.mem_sortBy ..).mp listed
  · intro included
    rcases mem_includesOf included with ⟨role, declared, rfl, listed⟩
    refine ⟨⟨role.name, decide (role.parents.length > 0), Text.sortBy cmp role.parents⟩, ?_,
      rfl, decide_eq_true (List.length_pos_of_mem listed), (Text.mem_sortBy ..).mpr listed⟩
    rw [compileKeycloak, Text.mem_sortBy]
    exact List.mem_map_of_mem declared

theorem Checked.reaches_partsOf (name other : String) :
    Graph.Reaches (compileKeycloak d).partsOf name other ↔ other ∈ expandRoles d name := by
  have sameEdges : Graph.Edge (compileKeycloak d).partsOf = Graph.Edge (includesOf d) := by
    funext node part
    exact propext (checked.edge_partsOf node part)
  rw [mem_expandRoles, Graph.Reaches, Graph.Reaches, sameEdges]

/-- A token has what the roles of the groups inherit. -/
theorem Checked.mem_token (groups : List String) (role : String) :
    role ∈ (compileKeycloak d).token groups ↔
      ∃ listed ∈ (compileKeycloak d).assigned groups, role ∈ expandRoles d listed := by
  rw [KeycloakSpec.mem_token]
  simp only [checked.reaches_partsOf]

theorem Checked.mem_token_groups (groups : List String) (role : String) :
    role ∈ (compileKeycloak d).token groups ↔
      ∃ group ∈ d.groups, group.name ∈ groups ∧ role ∈ groupEffectiveRoles d group := by
  rw [checked.mem_token]
  simp only [mem_assigned, mem_groupEffectiveRoles]
  constructor
  · intro held
    rcases held with ⟨listed, ⟨group, declared, inGroups, inRoles⟩, inherited⟩
    exact ⟨group, declared, inGroups, listed, inRoles, inherited⟩
  · intro held
    rcases held with ⟨group, declared, inGroups, listed, inRoles, inherited⟩
    exact ⟨listed, ⟨group, declared, inGroups, inRoles⟩, inherited⟩

theorem Checked.assigned_known (groups : List String) :
    ∀ role ∈ (compileKeycloak d).assigned groups, role ∈ d.roleNames := by
  intro role listed
  rcases (mem_assigned d groups role).mp listed with ⟨group, declared, _, inRoles⟩
  exact checked.groupRoleKnown group declared role inRoles

theorem Checked.token_closed (groups : List String) :
    ClosedUnderIncludes d ((compileKeycloak d).token groups) := by
  intro role declared held parent listed
  rw [checked.mem_token] at held ⊢
  rcases held with ⟨base, isAssigned, inherited⟩
  refine ⟨base, isAssigned, expandRoles_trans inherited ?_⟩
  rw [mem_expandRoles]
  apply Relation.ReflTransGen.single
  rw [Graph.Edge, includesOf_of_nodup checked.roleNames_nodup declared]
  exact listed

/-- Holders of a role are found before the roles of a token are expanded or after. -/
theorem Checked.heldBy_token (groups roles : List String) :
    HeldBy d ((compileKeycloak d).token groups) roles ↔
      HeldBy d ((compileKeycloak d).assigned groups) roles := by
  constructor
  · intro held
    rcases held with ⟨role, listed, holder, inToken, holds⟩
    rcases (checked.mem_token groups holder).mp inToken with ⟨base, isAssigned, inherited⟩
    have reached := expandRoles_trans inherited ((mem_holdersOf d role holder).mp holds).2
    exact ⟨role, listed, base, isAssigned,
      (mem_holdersOf d role base).mpr ⟨checked.assigned_known groups base isAssigned, reached⟩⟩
  · intro held
    rcases held with ⟨role, listed, holder, isAssigned, holds⟩
    exact ⟨role, listed, holder,
      (checked.mem_token groups holder).mpr ⟨holder, isAssigned, self_mem_expandRoles d holder⟩,
      holds⟩

/-- A token that Keycloak issues holds a declared role exactly if it contains it. -/
theorem Checked.heldBy_iff_meets (groups : List String) {roles : List String}
    (known : ∀ role ∈ roles, role ∈ d.roleNames) :
    HeldBy d ((compileKeycloak d).token groups) roles ↔
      Meets ((compileKeycloak d).token groups) roles := by
  constructor
  · exact meets_of_heldBy (checked.token_closed groups)
  · intro meets
    rcases meets with ⟨role, inToken, listed⟩
    exact ⟨role, listed, role, inToken, mem_holdersOf_self (known role listed)⟩

end Issued

/-! ## What the policy answers -/

/-- The policy asks for the rows of a table to be filtered by an expression. -/
def Filtered (rules : List Rule) (request : Request) (expression : String) : Prop :=
  ∃ rule ∈ rules, rule.head = .rowFilters expression ∧ rule.Fires request

/-- The rule for one row filter. -/
def rowFilterRule (d : Declaration) (res : Resource) (schema table : String) (grant : Grant)
    (expression : String) : Rule where
  comment := sanitizeComment res.resource ++ " — 행 필터"
  head := .rowFilters expression
  body := tableGuards schema table ++ [.someGroupIn grant.roles] ++ unmaskedGuard d res grant

theorem mem_rowFilterRules (d : Declaration) (res : Resource) (schema table : String)
    (grant : Grant) (rule : Rule) :
    rule ∈ rowFilterRules d res schema table grant ↔
      ∃ expression, grant.rowFilter = some expression ∧ expression ≠ "" ∧
        rule = rowFilterRule d res schema table grant expression := by
  rw [rowFilterRules]
  cases grant.rowFilter with
  | none => simp
  | some expression =>
      by_cases blank : expression = ""
      · simp [blank]
      · simp [blank, rowFilterRule]

theorem rowFilterRule_fires_iff (d : Declaration) (res : Resource) (schema table : String)
    (grant : Grant) (expression : String) (request : Request) :
    (rowFilterRule d res schema table grant expression).Fires request ↔
      request.resource = .table DEPLOYED_CATALOG schema table ∧
        MaskInForce d res grant request.groups := by
  simp only [Rule.Fires, rowFilterRule, conditions_append, conditions_cons, conditions_nil,
    and_true, conditions_tableGuards, conditions_unmaskedGuard, Guard.Holds, MaskInForce, and_assoc]

/-- The tokens play no part in finding a place in a request. -/
theorem lookup_groups (path : Path) (operation : String) (resource : RequestResource)
    (token token' : List String) :
    path.lookup ⟨operation, resource, token⟩ = path.lookup ⟨operation, resource, token'⟩ := by
  cases path <;> rfl

section Answers

variable {d : Declaration} {rules : List Rule}
  (emitted : ∀ rule, rule ∈ rules ↔
    FromResource d rule ∨ ∃ cg ∈ d.catalogGrantList, rule ∈ catalogRules d cg)
include emitted

/-- Tokens that are held by the same roles are allowed the same. -/
theorem allowed_congr {token token' : List String}
    (same : ∀ roles, HeldBy d token roles ↔ HeldBy d token' roles) (operation : String)
    (resource : RequestResource) :
    Allowed rules ⟨operation, resource, token⟩ ↔ Allowed rules ⟨operation, resource, token'⟩ := by
  have sameNames : ∀ op catalog, NamesCatalog op catalog ⟨operation, resource, token⟩ ↔
      NamesCatalog op catalog ⟨operation, resource, token'⟩ := by
    intro op catalog
    apply forall_congr'
    intro shape
    rw [lookup_groups _ operation resource token token']
  rw [allowed_iff emitted, allowed_iff emitted]
  simp only [allowed_grantRules, allowed_catalogRules, same, sameNames, SystemCatalogRequest,
    SystemMetadataRequest]

/-- The filters that the policy asks for are those of the grants in force. -/
theorem filtered_iff (request : Request) (expression : String) :
    Filtered rules request expression ↔
      ∃ res ∈ d.resources, res.engineOrDefault = .trino ∧
        ∃ schema table, splitResource res.resource = .ok (schema, table) ∧
          ∃ grant ∈ res.grants, grant.rowFilter = some expression ∧ expression ≠ "" ∧
            request.resource = .table DEPLOYED_CATALOG schema table ∧
            MaskInForce d res grant request.groups := by
  constructor
  · intro filtered
    rcases filtered with ⟨rule, member, isFilter, fires⟩
    rcases (emitted rule).mp member with
      ⟨res, declared, isTrino, schema, table, splits, grant, listed, ofGrant⟩ |
      ⟨cg, _, ofCatalog⟩
    · rw [grantRules, List.mem_append, List.mem_append] at ofGrant
      rcases ofGrant with (ofAllow | ofRowFilter) | ofMask
      · simp [head_of_mem_allowRules ofAllow] at isFilter
      · rcases (mem_rowFilterRules ..).mp ofRowFilter with ⟨other, isActive, nonempty, rfl⟩
        cases Head.rowFilters.inj isFilter
        rcases (rowFilterRule_fires_iff ..).mp fires with ⟨resource, inForce⟩
        exact ⟨res, declared, isTrino, schema, table, splits, grant, listed, isActive, nonempty,
          resource, inForce⟩
      · rcases (mem_maskRules ..).mp ofMask with ⟨col, kind, _, rfl⟩
        simp [maskRule] at isFilter
    · simp [head_of_mem_catalogRules ofCatalog] at isFilter
  · intro filtered
    rcases filtered with ⟨res, declared, isTrino, schema, table, splits, grant, listed, isActive,
      nonempty, resource, inForce⟩
    have member := (mem_rowFilterRules d res schema table grant _).mpr
      ⟨expression, isActive, nonempty, rfl⟩
    refine ⟨_, ?_, rfl, (rowFilterRule_fires_iff ..).mpr ⟨resource, inForce⟩⟩
    exact (emitted _).mpr (Or.inl ⟨res, declared, isTrino, schema, table, splits, grant, listed,
      List.mem_append_left _ (List.mem_append_right _ member)⟩)

end Answers

/-- A grant applies to a token: it has one of the roles, and none of a grant that opts out of
masking unless the grant itself does. -/
def AppliesTo (res : Resource) (grant : Grant) (token : List String) : Prop :=
  Meets token grant.roles ∧
    (grant.optsOut = false → ∀ other ∈ res.grants, other.optsOut = true → ¬ Meets token other.roles)

/-- No operation on a table is one on catalogs. -/
theorem operationOf_ne_text (privilege : Privilege) (op : QueryOperation) :
    operationOf privilege ≠ op.text := by
  cases privilege <;> cases op <;> decide

section Issued

variable {d : Declaration} (checked : Checked d)
include checked

theorem Checked.splitResource_iff {res : Resource} (declared : res ∈ d.resources)
    (schema table : String) :
    splitResource res.resource = .ok (schema, table) ↔ res.resource = schema ++ "." ++ table := by
  constructor
  · exact fun splits => ((splitResource_eq_ok_iff _ _ _).mp splits).1
  · intro named
    rcases splitResource_of_isSchemaTable (checked.schemaTable res declared) with
      ⟨ownSchema, ownTable, splits, unique⟩
    rcases unique schema table named with ⟨rfl, rfl⟩
    exact splits

theorem Checked.maskInForce_token {res : Resource} (declared : res ∈ d.resources)
    (grant : Grant) (groups : List String) :
    MaskInForce d res grant ((compileKeycloak d).token groups) ↔
      AppliesTo res grant ((compileKeycloak d).token groups) := by
  have excused : Meets ((compileKeycloak d).token groups) (unmaskedGroups d res) ↔
      ∃ other ∈ res.grants, other.optsOut = true ∧
        Meets ((compileKeycloak d).token groups) other.roles := by
    rw [meets_unmaskedGroups]
    apply exists_congr
    intro other
    apply and_congr_right
    intro listed
    rw [checked.heldBy_iff_meets groups (checked.grantRoleKnown res declared other listed)]
  rw [MaskInForce, AppliesTo, excused]
  simp only [not_exists, not_and]

/-- Outside the information schema a table is opened by its grants alone. -/
theorem Checked.allowed_table_iff {rules : List Rule}
    (emitted : ∀ rule, rule ∈ rules ↔
      FromResource d rule ∨ ∃ cg ∈ d.catalogGrantList, rule ∈ catalogRules d cg)
    (privilege : Privilege) {schema : String} (inside : schema ≠ "information_schema")
    (table : String) (token : List String) :
    Allowed rules ⟨operationOf privilege, .table DEPLOYED_CATALOG schema table, token⟩ ↔
      ∃ res ∈ d.resources, res.engineOrDefault = .trino ∧ res.resource = schema ++ "." ++ table ∧
        ∃ grant ∈ res.grants, privilege ∈ grant.privileges ∧ HeldBy d token grant.roles := by
  have noCatalogRule : ¬ (CatalogEntitled d
        ⟨operationOf privilege, .table DEPLOYED_CATALOG schema table, token⟩ ∨
      InformationSchemaEntitled d
        ⟨operationOf privilege, .table DEPLOYED_CATALOG schema table, token⟩ ∨
      SystemEntitled d
        ⟨operationOf privilege, .table DEPLOYED_CATALOG schema table, token⟩) := by
    intro entitled
    rcases entitled with ⟨_, _, ⟨op, _, isOperation, _⟩, _⟩ | ⟨_, ⟨other, isTable⟩, _⟩ | ⟨system, _⟩
    · exact operationOf_ne_text privilege op isOperation
    · exact inside (RequestResource.table.inj isTable).2.1
    · rcases system with ofCatalog | ofMetadata
      · rcases ofCatalog with ⟨_, isCatalog⟩ | ⟨_, _, isSchema⟩
        · cases isCatalog
        · cases isSchema
      · rcases ofMetadata with ⟨_, _, ⟨_, isSchema⟩ | ⟨_, _, isTable⟩⟩
        · cases isSchema
        · exact absurd (RequestResource.table.inj isTable).1 (by decide)
  rw [allowed_iff emitted, checked.allowed_grantRules_iff, checked.allowed_catalogRules_iff,
    or_iff_left noCatalogRule]
  constructor
  · intro entitled
    rcases entitled with ⟨res, declared, isTrino, _, _, named, isTable, grant, listed,
      ⟨priv, granted, isOperation⟩, held⟩
    cases isTable
    rw [operationOf_injective isOperation]
    exact ⟨res, declared, isTrino, named, grant, listed, granted, held⟩
  · intro entitled
    rcases entitled with ⟨res, declared, isTrino, named, grant, listed, granted, held⟩
    exact ⟨res, declared, isTrino, schema, table, named, rfl, grant, listed,
      ⟨privilege, granted, rfl⟩, held⟩

end Issued

/-! ## The three artifacts together -/

/-- What the artifacts of a declaration make of one of its roles: Keycloak's expansion of the role
decides what the policy allows and what PostgreSQL grants. -/
structure RoleInherits (d : Declaration) (rules : List Rule) (catalog : PgCatalog)
    (name : String) : Prop where
  memberships : ∀ other ∈ d.roleNames, catalog.Inherits (toPgRole name) (toPgRole other) ↔
    Graph.Reaches (compileKeycloak d).partsOf name other
  policy : ∀ privilege schema table, schema ≠ "information_schema" →
    (Allowed rules ⟨operationOf privilege, .table DEPLOYED_CATALOG schema table, [name]⟩ ↔
      ∃ res ∈ d.resources, res.engineOrDefault = .trino ∧ res.resource = schema ++ "." ++ table ∧
        ∃ grant ∈ res.grants, privilege ∈ grant.privileges ∧
          ∃ role ∈ grant.roles, Graph.Reaches (compileKeycloak d).partsOf name role)
  database : ∀ res ∈ d.resources, res.engine = some .postgres → ∀ privilege,
    (catalog.Holds (toPgRole name) (.table privilege res.resource) ↔
      ∃ grant ∈ res.grants, privilege ∈ grant.privileges ∧
        ∃ role ∈ grant.roles, Graph.Reaches (compileKeycloak d).partsOf name role)

/-- Keycloak, the policy and PostgreSQL agree on what a role inherits. -/
theorem artifacts_inherit_alike (d : Declaration) (valid : validateDeclaration d = [])
    (start : PgCatalog) (ready : ReadyFor d start) :
    ∃ rules final, regoRules d = .ok rules ∧ start.run (pgCommands d) = some final ∧
      ∀ name ∈ d.roleNames, RoleInherits d rules final name := by
  have checked := checked_of_valid valid
  have ordered := checked.wellOrdered_pgCommands
  rcases checked.mem_regoRules with ⟨rules, compiled, emitted⟩
  rcases RoleCatalog.exists_run start ordered ready.fresh ready.objects with
    ⟨final, finished, after⟩
  refine ⟨rules, final, compiled, finished, ?_⟩
  intro name known
  constructor
  · intro other otherKnown
    have isNew : toPgRole name ∈ RoleCatalog.created (pgCommands d) :=
      (mem_created_pgCommands d _).mpr (Or.inl (List.mem_map_of_mem known))
    rw [after.inherits_iff ordered ready.fresh isNew, checked.reaches_toPgRole known,
      checked.reaches_partsOf]
    constructor
    · intro path
      rcases path with ⟨role, inherited, same⟩
      rwa [checked.toPgRole_injective otherKnown (checked.expandRoles_known known inherited) same]
    · exact fun inherited => ⟨other, inherited, rfl⟩
  · intro privilege schema table inside
    rw [checked.allowed_table_iff emitted privilege inside]
    simp only [HeldBy, Meets, List.mem_singleton, exists_eq_left, mem_holdersOf, known, true_and,
      checked.reaches_partsOf]
  · intro res declared isPostgres privilege
    rw [checked.role_holds_iff ready after known]
    simp only [checked.listed_table_iff declared isPostgres, checked.reaches_partsOf]
    constructor
    · intro holds
      rcases holds with ⟨role, inherited, grant, listed, granted, ofRole⟩
      exact ⟨grant, listed, granted, role, ofRole, inherited⟩
    · intro holds
      rcases holds with ⟨grant, listed, granted, role, ofRole, inherited⟩
      exact ⟨role, inherited, grant, listed, granted, ofRole⟩

theorem artifacts_inherit_alike_lakehouse :
    ∃ rules final, regoRules lakehouse = .ok rules ∧
      (freshServer "public" "public.orders" ["beluga"]).run (pgCommands lakehouse) = some final ∧
        ∀ name ∈ lakehouse.roleNames, RoleInherits lakehouse rules final name :=
  artifacts_inherit_alike lakehouse lakehouse_valid _ lakehouse_ready

/-- What the policy answers to the members of some groups. -/
structure AnswersMembers (d : Declaration) (rules : List Rule) (groups : List String) : Prop where
  token : ∀ role, role ∈ (compileKeycloak d).token groups ↔
    ∃ group ∈ d.groups, group.name ∈ groups ∧ role ∈ groupEffectiveRoles d group
  /-- It makes no difference for access whether composite roles have been expanded. -/
  unexpanded : ∀ operation resource,
    Allowed rules ⟨operation, resource, (compileKeycloak d).assigned groups⟩ ↔
      Allowed rules ⟨operation, resource, (compileKeycloak d).token groups⟩
  tables : ∀ privilege schema table, schema ≠ "information_schema" →
    (Allowed rules ⟨operationOf privilege, .table DEPLOYED_CATALOG schema table,
        (compileKeycloak d).token groups⟩ ↔
      ∃ res ∈ d.resources, res.engineOrDefault = .trino ∧ res.resource = schema ++ "." ++ table ∧
        ∃ grant ∈ res.grants, privilege ∈ grant.privileges ∧
          Meets ((compileKeycloak d).token groups) grant.roles)
  filters : ∀ operation resource expression,
    Filtered rules ⟨operation, resource, (compileKeycloak d).token groups⟩ expression ↔
      ∃ res ∈ d.resources, res.engineOrDefault = .trino ∧
        ∃ schema table, res.resource = schema ++ "." ++ table ∧
          resource = .table DEPLOYED_CATALOG schema table ∧
            ∃ grant ∈ res.grants, grant.rowFilter = some expression ∧ expression ≠ "" ∧
              AppliesTo res grant ((compileKeycloak d).token groups)
  masks : ∀ operation resource expression,
    Masked rules ⟨operation, resource, (compileKeycloak d).token groups⟩ expression ↔
      ∃ res ∈ d.resources, res.engineOrDefault = .trino ∧
        ∃ schema table col, res.resource = schema ++ "." ++ table ∧
          resource = .column DEPLOYED_CATALOG schema table col ∧
            ∃ grant ∈ res.grants, ∃ kind, (col, kind) ∈ grant.masks ∧
              expression = MASK_EXPR kind col ∧
              AppliesTo res grant ((compileKeycloak d).token groups)

theorem answersMembers {d : Declaration} (checked : Checked d) {rules : List Rule}
    (emitted : ∀ rule, rule ∈ rules ↔
      FromResource d rule ∨ ∃ cg ∈ d.catalogGrantList, rule ∈ catalogRules d cg)
    (groups : List String) : AnswersMembers d rules groups := by
  constructor
  · exact checked.mem_token_groups groups
  · intro operation resource
    exact (allowed_congr emitted (checked.heldBy_token groups) operation resource).symm
  · intro privilege schema table inside
    rw [checked.allowed_table_iff emitted privilege inside]
    constructor
    · intro entitled
      rcases entitled with ⟨res, declared, isTrino, named, grant, listed, granted, held⟩
      exact ⟨res, declared, isTrino, named, grant, listed, granted,
        (checked.heldBy_iff_meets groups
          (checked.grantRoleKnown res declared grant listed)).mp held⟩
    · intro entitled
      rcases entitled with ⟨res, declared, isTrino, named, grant, listed, granted, meets⟩
      exact ⟨res, declared, isTrino, named, grant, listed, granted,
        (checked.heldBy_iff_meets groups
          (checked.grantRoleKnown res declared grant listed)).mpr meets⟩
  · intro operation resource expression
    rw [filtered_iff emitted]
    constructor
    · intro filtered
      rcases filtered with ⟨res, declared, isTrino, schema, table, splits, grant, listed, isActive,
        nonempty, isTable, inForce⟩
      exact ⟨res, declared, isTrino, schema, table,
        (checked.splitResource_iff declared schema table).mp splits, isTable, grant, listed,
        isActive, nonempty, (checked.maskInForce_token declared grant groups).mp inForce⟩
    · intro filtered
      rcases filtered with ⟨res, declared, isTrino, schema, table, named, isTable, grant, listed,
        isActive, nonempty, applies⟩
      exact ⟨res, declared, isTrino, schema, table,
        (checked.splitResource_iff declared schema table).mpr named, grant, listed, isActive,
        nonempty, isTable, (checked.maskInForce_token declared grant groups).mpr applies⟩
  · intro operation resource expression
    rw [masked_iff emitted]
    constructor
    · intro masked
      rcases masked with ⟨res, declared, isTrino, schema, table, splits, grant, listed, col, kind,
        hasMask, isMask, isColumn, inForce⟩
      exact ⟨res, declared, isTrino, schema, table, col,
        (checked.splitResource_iff declared schema table).mp splits, isColumn, grant, listed, kind,
        hasMask, isMask, (checked.maskInForce_token declared grant groups).mp inForce⟩
    · intro masked
      rcases masked with ⟨res, declared, isTrino, schema, table, col, named, isColumn, grant,
        listed, kind, hasMask, isMask, applies⟩
      exact ⟨res, declared, isTrino, schema, table,
        (checked.splitResource_iff declared schema table).mpr named, grant, listed, col, kind,
        hasMask, isMask, isColumn, (checked.maskInForce_token declared grant groups).mpr applies⟩

/-- The policy of a valid declaration answers the members of any groups as the grants for their
roles say. -/
theorem policy_answers_members (d : Declaration) (valid : validateDeclaration d = [])
    (groups : List String) : ∃ rules, regoRules d = .ok rules ∧ AnswersMembers d rules groups := by
  have checked := checked_of_valid valid
  rcases checked.mem_regoRules with ⟨rules, compiled, emitted⟩
  exact ⟨rules, compiled, answersMembers checked emitted groups⟩

theorem policy_answers_members_lakehouse :
    ∃ rules, regoRules lakehouse = .ok rules ∧ AnswersMembers lakehouse rules ["bi"] :=
  policy_answers_members lakehouse lakehouse_valid ["bi"]

end BelugaManager.PolicyCompiler
