import BelugaManager.PolicyCompiler.Opa

/-!
# What the policy allows

The declaration says who may do what; `Entitled` spells that out without rules.
For a valid declaration the allow rules admit exactly the entitled requests.
-/

namespace BelugaManager.PolicyCompiler

open Foundation

/-- A grant on a table of the deployed catalog. -/
def TableEntitled (d : Declaration) (request : Request) : Prop :=
  ∃ res ∈ d.resources, res.engineOrDefault = .trino ∧
    ∃ schema table, res.resource = schema ++ "." ++ table ∧
      request.resource = .table DEPLOYED_CATALOG schema table ∧
      ∃ grant ∈ res.grants, (∃ priv ∈ grant.privileges, request.operation = operationOf priv) ∧
        HeldBy d request.groups grant.roles

/-- The request names a catalog in the shape that belongs to an operation. An
operation without a resource names none and is not asked to. -/
def NamesCatalog (op : QueryOperation) (catalog : String) (request : Request) : Prop :=
  ∀ shape, OPERATION_RESOURCE_SHAPE op = some shape →
    (CATALOG_GUARD_PATH shape).lookup request = some catalog

/-- An entry for a catalog lists the operation. -/
def CatalogEntitled (d : Declaration) (request : Request) : Prop :=
  ∃ cg ∈ d.catalogGrantList, (∃ op ∈ cg.operations,
      request.operation = op.text ∧ NamesCatalog op cg.catalog request) ∧
    HeldBy d request.groups cg.roles

/-- Reading the information schema of the deployed catalog, for everyone with an
entry for the catalog. -/
def InformationSchemaEntitled (d : Declaration) (request : Request) : Prop :=
  request.operation = "SelectFromColumns" ∧
    (∃ table, request.resource = .table DEPLOYED_CATALOG "information_schema" table) ∧
    ∃ cg ∈ d.catalogGrantList, HeldBy d request.groups cg.roles

/-- Seeing the built-in catalog and its schemas. -/
def SystemCatalogRequest (request : Request) : Prop :=
  (request.operation ∈ ["AccessCatalog", "FilterCatalogs", "ShowSchemas"] ∧
      request.resource = .catalog "system") ∨
    request.operation = "FilterSchemas" ∧ ∃ schema, request.resource = .schema "system" schema

/-- Browsing and reading the two metadata schemas of the built-in catalog. -/
def SystemMetadataRequest (request : Request) : Prop :=
  ∃ schema ∈ ["jdbc", "metadata"],
    (request.operation = "ShowTables" ∧ request.resource = .schema "system" schema) ∨
      request.operation ∈ ["FilterTables", "ShowColumns", "FilterColumns", "SelectFromColumns"] ∧
        ∃ table, request.resource = .table "system" schema table

/-- System metadata, for everyone who may access a catalog. -/
def SystemEntitled (d : Declaration) (request : Request) : Prop :=
  (SystemCatalogRequest request ∨ SystemMetadataRequest request) ∧
    ∃ cg ∈ d.catalogGrantList, .accessCatalog ∈ cg.operations ∧
      HeldBy d request.groups cg.roles

/-- Everything the declaration entitles the sender of a request to. -/
def Entitled (d : Declaration) (request : Request) : Prop :=
  TableEntitled d request ∨ CatalogEntitled d request ∨
    InformationSchemaEntitled d request ∨ SystemEntitled d request

/-! ## Allow rules -/

/-- Allow rules generated from a list admit what one of their bodies admits. -/
theorem allowed_map {ι : Type*} (rule : ι → Rule) (items : List ι) (request : Request)
    (allows : ∀ item, (rule item).head = .allow) :
    Allowed (items.map rule) request ↔
      ∃ item ∈ items, Conditions request (rule item).body := by
  simp only [Allowed, List.mem_map, Rule.Fires]
  constructor
  · intro allowed
    rcases allowed with ⟨_, ⟨item, member, rfl⟩, _, fires⟩
    exact ⟨item, member, fires⟩
  · intro fires
    rcases fires with ⟨item, member, fires⟩
    exact ⟨_, ⟨item, member, rfl⟩, allows item, fires⟩

/-- Rules that are no allow rules allow nothing. -/
theorem not_allowed_of_heads {rules : List Rule} (request : Request)
    (heads : ∀ rule ∈ rules, rule.head ≠ .allow) : ¬ Allowed rules request := by
  intro allowed
  rcases allowed with ⟨rule, member, allow, _⟩
  exact heads rule member allow

theorem rowFilterRules_not_allowed (d : Declaration) (res : Resource) (schema table : String)
    (grant : Grant) (request : Request) :
    ¬ Allowed (rowFilterRules d res schema table grant) request := by
  apply not_allowed_of_heads
  intro rule member
  rcases head_of_mem_rowFilterRules member with ⟨expression, isRowFilter⟩
  simp [isRowFilter]

theorem maskRules_not_allowed (d : Declaration) (res : Resource) (schema table : String)
    (grant : Grant) (request : Request) :
    ¬ Allowed (maskRules d res schema table grant) request := by
  apply not_allowed_of_heads
  intro rule member
  rcases List.mem_map.mp member with ⟨⟨col, kind⟩, _, rfl⟩
  simp [maskRule]

theorem allowed_allowRules (d : Declaration) (res : Resource) (schema table : String)
    (grant : Grant) (request : Request) :
    Allowed (allowRules d res schema table grant) request ↔
      request.resource = .table DEPLOYED_CATALOG schema table ∧
        (∃ priv ∈ grant.privileges, request.operation = operationOf priv) ∧
        HeldBy d request.groups grant.roles := by
  rw [allowRules, allowed_map _ _ _ fun _ => rfl]
  simp only [Text.mem_sortBy, conditions_cons, conditions_append, conditions_nil, and_true,
    conditions_tableGuards, Guard.Holds, Path.lookup, Option.some.injEq,
    meets_effectiveHolders, List.cons_append]
  constructor
  · intro allowed
    rcases allowed with ⟨priv, listed, operation, resource, held⟩
    exact ⟨resource, ⟨priv, listed, operation⟩, held⟩
  · intro entitled
    rcases entitled with ⟨resource, ⟨priv, listed, operation⟩, held⟩
    exact ⟨priv, listed, operation, resource, held⟩

theorem allowed_grantRules (d : Declaration) (res : Resource) (schema table : String)
    (grant : Grant) (request : Request) :
    Allowed (grantRules d res schema table grant) request ↔
      request.resource = .table DEPLOYED_CATALOG schema table ∧
        (∃ priv ∈ grant.privileges, request.operation = operationOf priv) ∧
        HeldBy d request.groups grant.roles := by
  rw [grantRules, allowed_append, allowed_append,
    or_iff_left (maskRules_not_allowed d res schema table grant request),
    or_iff_left (rowFilterRules_not_allowed d res schema table grant request),
    allowed_allowRules]

theorem conditions_resourceGuard (request : Request) (op : QueryOperation) (catalog : String) :
    Conditions request (resourceGuard catalog (OPERATION_RESOURCE_SHAPE op)) ↔
      NamesCatalog op catalog request := by
  cases shape : OPERATION_RESOURCE_SHAPE op with
  | none => simp [NamesCatalog, resourceGuard, shape]
  | some guarded => simp [NamesCatalog, resourceGuard, shape, Guard.Holds]

theorem allowed_operationRules (cg : CatalogGrant) (effective : List String)
    (effectiveComment : String) (request : Request) :
    Allowed (operationRules cg effective effectiveComment) request ↔
      (∃ op ∈ cg.operations, request.operation = op.text ∧ NamesCatalog op cg.catalog request) ∧
        Meets request.groups effective := by
  rw [operationRules, allowed_map _ _ _ fun _ => rfl]
  simp only [Text.mem_sortBy, List.cons_append, conditions_cons, conditions_append,
    conditions_nil, and_true, conditions_resourceGuard, Guard.Holds, Path.lookup,
    Option.some.injEq]
  constructor
  · intro allowed
    rcases allowed with ⟨op, listed, operation, names, held⟩
    exact ⟨⟨op, listed, operation, names⟩, held⟩
  · intro entitled
    rcases entitled with ⟨⟨op, listed, operation, names⟩, held⟩
    exact ⟨op, listed, operation, names, held⟩

theorem allowed_informationSchemaRule (cg : CatalogGrant) (effective : List String)
    (effectiveComment : String) (request : Request) :
    Allowed [informationSchemaRule cg effective effectiveComment] request ↔
      request.operation = "SelectFromColumns" ∧
        (∃ table, request.resource = .table cg.catalog "information_schema" table) ∧
        Meets request.groups effective := by
  simp only [Allowed, List.mem_singleton, exists_eq_left, informationSchemaRule, Rule.Fires,
    conditions_cons, conditions_nil, Guard.Holds, and_true, true_and]
  cases shape : request.resource <;> simp [Path.lookup, shape, and_assoc]

theorem conditions_systemCatalogOperations (effective : List String) (request : Request) :
    (∃ operation ∈ systemCatalogOperations, Conditions request
      [.equals .operation operation.1.text, .equals (CATALOG_GUARD_PATH operation.2) "system",
        .someGroupIn effective]) ↔
      SystemCatalogRequest request ∧ Meets request.groups effective := by
  simp only [systemCatalogOperations, List.mem_cons, List.not_mem_nil, or_false,
    exists_eq_or_imp, exists_eq_left, conditions_cons, conditions_nil, Guard.Holds, Path.lookup,
    Option.some.injEq, and_true, CATALOG_GUARD_PATH, QueryOperation.text, SystemCatalogRequest]
  cases request.resource <;> simp <;> tauto

theorem conditions_systemMetadataOperations (effective : List String) (request : Request) :
    (∃ operation ∈ systemMetadataOperations, Conditions request
      [.equals .operation operation.1,
        .equals (CATALOG_GUARD_PATH operation.2.guarded) "system",
        .oneOf (SYSTEM_METADATA_SCHEMA_GUARD_PATH operation.2) ["jdbc", "metadata"],
        .someGroupIn effective]) ↔
      SystemMetadataRequest request ∧ Meets request.groups effective := by
  simp only [systemMetadataOperations, List.mem_cons, List.not_mem_nil, or_false,
    exists_eq_or_imp, exists_eq_left, conditions_cons, conditions_nil, Guard.Holds, Path.lookup,
    Option.some.injEq, and_true, CATALOG_GUARD_PATH, SYSTEM_METADATA_SCHEMA_GUARD_PATH,
    MetadataShape.guarded, SystemMetadataRequest]
  cases request.resource <;> simp <;> tauto

theorem allowed_systemRules (effective : List String) (effectiveComment : String)
    (request : Request) :
    Allowed (systemRules effective effectiveComment) request ↔
      (SystemCatalogRequest request ∨ SystemMetadataRequest request) ∧
        Meets request.groups effective := by
  rw [systemRules, allowed_append, allowed_map _ _ _ fun _ => rfl,
    allowed_map _ _ _ fun _ => rfl, or_and_right]
  exact or_congr (conditions_systemCatalogOperations effective request)
    (conditions_systemMetadataOperations effective request)

/-- What the rules for one entry admit. -/
theorem allowed_catalogRules (d : Declaration) (cg : CatalogGrant) (request : Request) :
    Allowed (catalogRules d cg) request ↔
      HeldBy d request.groups cg.roles ∧
        ((∃ op ∈ cg.operations,
            request.operation = op.text ∧ NamesCatalog op cg.catalog request) ∨
          (request.operation = "SelectFromColumns" ∧
            ∃ table, request.resource = .table cg.catalog "information_schema" table) ∨
          .accessCatalog ∈ cg.operations ∧
            (SystemCatalogRequest request ∨ SystemMetadataRequest request)) := by
  simp only [catalogRules, allowed_append, allowed_operationRules,
    allowed_informationSchemaRule, meets_effectiveHolders]
  by_cases access : QueryOperation.accessCatalog ∈ cg.operations
  · rw [if_pos access, allowed_systemRules, meets_effectiveHolders]
    grind
  · have nothing : ¬ Allowed [] request := by simp [Allowed]
    rw [if_neg access]
    grind

theorem allowed_iff {rules : List Rule} {d : Declaration}
    (emitted : ∀ rule, rule ∈ rules ↔
      FromResource d rule ∨ ∃ cg ∈ d.catalogGrantList, rule ∈ catalogRules d cg)
    (request : Request) :
    Allowed rules request ↔
      (∃ res ∈ d.resources, res.engineOrDefault = .trino ∧
        ∃ schema table, splitResource res.resource = .ok (schema, table) ∧
          ∃ grant ∈ res.grants, Allowed (grantRules d res schema table grant) request) ∨
        ∃ cg ∈ d.catalogGrantList, Allowed (catalogRules d cg) request := by
  constructor
  · intro allowed
    rcases allowed with ⟨rule, member, fires⟩
    rcases (emitted rule).mp member with
      ⟨res, declared, isTrino, schema, table, splits, grant, listed, ofGrant⟩ |
      ⟨cg, declared, ofCatalog⟩
    · exact Or.inl ⟨res, declared, isTrino, schema, table, splits, grant, listed,
        rule, ofGrant, fires⟩
    · exact Or.inr ⟨cg, declared, rule, ofCatalog, fires⟩
  · intro allowed
    rcases allowed with
      ⟨res, declared, isTrino, schema, table, splits, grant, listed, rule, ofGrant, fires⟩ |
      ⟨cg, declared, rule, ofCatalog, fires⟩
    · exact ⟨rule, (emitted rule).mpr (Or.inl
        ⟨res, declared, isTrino, schema, table, splits, grant, listed, ofGrant⟩), fires⟩
    · exact ⟨rule, (emitted rule).mpr (Or.inr ⟨cg, declared, ofCatalog⟩), fires⟩

/-- The rules for resources admit what the grants entitle to. -/
theorem Checked.allowed_grantRules_iff {d : Declaration} (checked : Checked d)
    (request : Request) :
    (∃ res ∈ d.resources, res.engineOrDefault = .trino ∧
      ∃ schema table, splitResource res.resource = .ok (schema, table) ∧
        ∃ grant ∈ res.grants, Allowed (grantRules d res schema table grant) request) ↔
      TableEntitled d request := by
  simp only [allowed_grantRules, TableEntitled]
  constructor
  · intro allowed
    rcases allowed with
      ⟨res, declared, isTrino, schema, table, splits, grant, listed, resource, priv, held⟩
    exact ⟨res, declared, isTrino, schema, table,
      ((splitResource_eq_ok_iff _ _ _).mp splits).1, resource, grant, listed, priv, held⟩
  · intro entitled
    rcases entitled with
      ⟨res, declared, isTrino, schema, table, named, resource, grant, listed, priv, held⟩
    rcases splitResource_of_isSchemaTable (checked.schemaTable res declared) with
      ⟨ownSchema, ownTable, splits, unique⟩
    rcases unique schema table named with ⟨rfl, rfl⟩
    exact ⟨res, declared, isTrino, schema, table, splits, grant, listed, resource, priv, held⟩

/-- The rules for catalogs admit what the entries entitle to. The information
schema of every entry is that of the deployed catalog. -/
theorem Checked.allowed_catalogRules_iff {d : Declaration} (checked : Checked d)
    (request : Request) :
    (∃ cg ∈ d.catalogGrantList, Allowed (catalogRules d cg) request) ↔
      CatalogEntitled d request ∨ InformationSchemaEntitled d request ∨
        SystemEntitled d request := by
  simp only [allowed_catalogRules]
  constructor
  · intro allowed
    rcases allowed with ⟨cg, declared, held, operation | ⟨select, table⟩ | ⟨access, system⟩⟩
    · exact Or.inl ⟨cg, declared, operation, held⟩
    · rw [checked.catalogDeployed cg declared] at table
      exact Or.inr (Or.inl ⟨select, table, cg, declared, held⟩)
    · exact Or.inr (Or.inr ⟨system, cg, declared, access, held⟩)
  · intro entitled
    rcases entitled with
      ⟨cg, declared, operation, held⟩ | ⟨select, table, cg, declared, held⟩ |
      ⟨system, cg, declared, access, held⟩
    · exact ⟨cg, declared, held, Or.inl operation⟩
    · rw [← checked.catalogDeployed cg declared] at table
      exact ⟨cg, declared, held, Or.inr (Or.inl ⟨select, table⟩)⟩
    · exact ⟨cg, declared, held, Or.inr (Or.inr ⟨access, system⟩)⟩

/-- A valid declaration compiles to a policy that allows exactly the requests it
entitles to. -/
theorem allowed_iff_entitled (d : Declaration) (valid : validateDeclaration d = []) :
    ∃ rules, regoRules d = .ok rules ∧
      ∀ request, Allowed rules request ↔ Entitled d request := by
  have checked := checked_of_valid valid
  rcases checked.mem_regoRules with ⟨rules, compiled, emitted⟩
  refine ⟨rules, compiled, ?_⟩
  intro request
  rw [allowed_iff emitted, checked.allowed_grantRules_iff, checked.allowed_catalogRules_iff,
    Entitled]

theorem allowed_iff_entitled_lakehouse :
    validateDeclaration lakehouse = [] ∧ ∃ rules, regoRules lakehouse = .ok rules ∧
      ∀ request, Allowed rules request ↔ Entitled lakehouse request :=
  ⟨lakehouse_valid, allowed_iff_entitled lakehouse lakehouse_valid⟩

end BelugaManager.PolicyCompiler
