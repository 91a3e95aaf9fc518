import BelugaManager.PolicyCompiler.Checked

/-!
# The policy for Trino

`compileRego` of `rego.ts`.  A rule is kept as its comment, its head and the
conditions of its body; `regoRules` lists the rules in the order of the source, and
`compileRego` writes them out as text.
-/

namespace BelugaManager.PolicyCompiler

open Foundation

/-- The resource shapes that carry a catalog name. -/
inductive GuardedShape where
  | catalog
  | schema
  | table
  | catalogSessionProperty
  deriving DecidableEq, Repr

/-- A resource shape; `none` is the request without a resource. -/
abbrev ResourceShape := Option GuardedShape

def OPERATION_RESOURCE_SHAPE : QueryOperation → ResourceShape
  | .executeQuery => none
  | .accessCatalog => some .catalog
  | .showSchemas => some .catalog
  | .filterCatalogs => some .catalog
  | .showTables => some .schema
  | .filterSchemas => some .schema
  | .showFunctions => some .schema
  | .showColumns => some .table
  | .showCreateTable => some .table
  | .filterTables => some .table
  | .filterColumns => some .table
  | .setCatalogSessionProperty => some .catalogSessionProperty

/-- A place of the request document that a condition reads. -/
inductive Path where
  | operation
  | catalogName
  | schemaCatalog
  | schemaName
  | tableCatalog
  | tableSchema
  | tableName
  | columnCatalog
  | columnSchema
  | columnTable
  | columnName
  | sessionPropertyCatalog
  deriving DecidableEq, Repr

/-- The place as the policy spells it. -/
def Path.text : Path → String
  | .operation => "input.action.operation"
  | .catalogName => "input.action.resource.catalog.name"
  | .schemaCatalog => "input.action.resource.schema.catalogName"
  | .schemaName => "input.action.resource.schema.schemaName"
  | .tableCatalog => "input.action.resource.table.catalogName"
  | .tableSchema => "input.action.resource.table.schemaName"
  | .tableName => "input.action.resource.table.tableName"
  | .columnCatalog => "input.action.resource.column.catalogName"
  | .columnSchema => "input.action.resource.column.schemaName"
  | .columnTable => "input.action.resource.column.tableName"
  | .columnName => "input.action.resource.column.columnName"
  | .sessionPropertyCatalog => "input.action.resource.catalogSessionProperty.catalogName"

def CATALOG_GUARD_PATH : GuardedShape → Path
  | .catalog => .catalogName
  | .schema => .schemaCatalog
  | .table => .tableCatalog
  | .catalogSessionProperty => .sessionPropertyCatalog

/-- The two shapes in which system metadata is browsed. -/
inductive MetadataShape where
  | schema
  | table
  deriving DecidableEq, Repr

def MetadataShape.guarded : MetadataShape → GuardedShape
  | .schema => .schema
  | .table => .table

def SYSTEM_METADATA_SCHEMA_GUARD_PATH : MetadataShape → Path
  | .schema => .schemaName
  | .table => .tableSchema

/-! ## Rules -/

/-- One condition of a rule body. -/
inductive Guard where
  | equals (path : Path) (value : String)
  | oneOf (path : Path) (values : List String)
  | someGroupIn (roles : List String)
  | everyGroupNotIn (roles : List String)
  deriving DecidableEq, Repr

inductive Head where
  | allow
  | rowFilters (expression : String)
  | columnMask (expression : String)
  deriving DecidableEq, Repr

structure Rule where
  comment : String
  head : Head
  body : List Guard
  deriving DecidableEq, Repr

/-- The elements of a set literal. -/
def setElements (values : List String) : String :=
  Text.join ", " (values.map Text.jsonQuote)

def Guard.lines : Guard → List String
  | .equals path value => ["\t" ++ path.text ++ " == " ++ Text.jsonQuote value]
  | .oneOf path values => ["\t" ++ path.text ++ " in \x7b" ++ setElements values ++ "\x7d"]
  | .someGroupIn roles =>
      ["\tsome g in groups", "\tg in \x7b" ++ setElements roles ++ "\x7d"]
  | .everyGroupNotIn roles =>
      ["\tevery ug in groups \x7b not ug in \x7b" ++ setElements roles ++ "\x7d \x7d"]

def Head.line : Head → String
  | .allow => "allow if \x7b"
  | .rowFilters expression =>
      "rowFilters contains \x7b\"expression\": " ++ Text.jsonQuote expression ++ "\x7d if \x7b"
  | .columnMask expression =>
      "columnMask := \x7b\"expression\": " ++ Text.jsonQuote expression ++ "\x7d if \x7b"

def Rule.lines (rule : Rule) : List String :=
  ["# " ++ rule.comment, rule.head.line] ++ rule.body.flatMap Guard.lines ++ ["\x7d", ""]

def MASK_EXPR (kind : MaskKind) (col : String) : String :=
  match kind with
  | .hash => "to_hex(sha256(cast(" ++ col ++ " as varbinary)))"
  | .partialMask => "concat(substr(" ++ col ++ ", 1, 2), '***')"
  | .null => "null"

/-- The word for a privilege in a declaration. -/
def Privilege.text : Privilege → String
  | .select => "select"
  | .insert => "insert"
  | .update => "update"
  | .delete => "delete"

def operationOf : Privilege → String
  | .select => "SelectFromColumns"
  | .insert => "InsertIntoTable"
  | .update => "UpdateTableColumns"
  | .delete => "DeleteFromTable"

/-- Replace each run of line breaks by a space, so that a comment stays one line. -/
def sanitizeComment (value : String) : String :=
  String.ofList (replaceBreaks value.toList)
where
  replaceBreaks : List Char → List Char
    | [] => []
    | [c] => if isBreak c then [' '] else [c]
    | c :: next :: rest =>
        if isBreak c then
          if isBreak next then replaceBreaks (next :: rest)
          else ' ' :: replaceBreaks (next :: rest)
        else c :: replaceBreaks (next :: rest)
  isBreak (c : Char) : Bool := c = '\r' || c = '\n'

/-- A resource name taken apart at its last dot. -/
def splitResource (resource : String) : Except String (String × String) :=
  match Text.splitLast '.' resource.toList with
  | none => .error s!"리소스는 'schema.table' 형식이어야 한다: {resource}"
  | some (schema, table) => .ok (String.ofList schema, String.ofList table)

/-- Everyone who has one of the roles, directly or by inheritance. -/
def effectiveHolders (d : Declaration) (roles : List String) : List String :=
  Text.sortBy cmp (roles.flatMap (holdersOf d)).eraseDups

/-- The holders of the grants of a resource that opt out of masking. -/
def unmaskedGroups (d : Declaration) (res : Resource) : List String :=
  Text.sortBy cmp ((res.grants.filter Grant.optsOut).flatMap fun grant =>
    grant.roles.flatMap (holdersOf d)).eraseDups

/-- Keeps the unmasked holders away from a grant that masks. A grant that opts
out itself is never guarded. -/
def unmaskedGuard (d : Declaration) (res : Resource) (grant : Grant) : List Guard :=
  if grant.optsOut = false ∧ unmaskedGroups d res ≠ [] then
    [.everyGroupNotIn (unmaskedGroups d res)]
  else []

/-- The conditions on the table of a request. -/
def tableGuards (schema table : String) : List Guard :=
  [.equals .tableCatalog DEPLOYED_CATALOG, .equals .tableSchema schema,
    .equals .tableName table]

/-- The conditions on the column of a request. -/
def columnGuards (schema table col : String) : List Guard :=
  [.equals .columnCatalog DEPLOYED_CATALOG, .equals .columnSchema schema,
    .equals .columnTable table, .equals .columnName col]

def allowRules (d : Declaration) (res : Resource) (schema table : String) (grant : Grant) :
    List Rule :=
  let effective := effectiveHolders d grant.roles
  (Text.sortBy (fun a b => cmp a.text b.text) grant.privileges).map fun priv =>
    { comment := sanitizeComment res.resource ++ s!" — {priv.text} (" ++
        Text.join ", " (effective.map sanitizeComment) ++ ")"
      head := .allow
      body := .equals .operation (operationOf priv) :: tableGuards schema table ++
        [.someGroupIn effective] }

/-- An empty row filter counts as none. -/
def rowFilterRules (d : Declaration) (res : Resource) (schema table : String)
    (grant : Grant) : List Rule :=
  match grant.rowFilter with
  | none => []
  | some rowFilter =>
      if rowFilter = "" then []
      else
        [{ comment := sanitizeComment res.resource ++ " — 행 필터"
           head := .rowFilters rowFilter
           body := tableGuards schema table ++ [.someGroupIn grant.roles] ++
             unmaskedGuard d res grant }]

/-- A mask as the default sort compares it: its parts joined by a comma. -/
def maskText (entry : String × MaskKind) : String := entry.1 ++ "," ++ entry.2.text

def maskRule (d : Declaration) (res : Resource) (schema table : String) (grant : Grant)
    (col : String) (kind : MaskKind) : Rule where
  comment := sanitizeComment res.resource ++ "." ++ sanitizeComment col ++
    s!" — 마스킹({kind.text})"
  head := .columnMask (MASK_EXPR kind col)
  body := columnGuards schema table col ++ [.someGroupIn grant.roles] ++
    unmaskedGuard d res grant

def maskRules (d : Declaration) (res : Resource) (schema table : String) (grant : Grant) :
    List Rule :=
  (Text.sortBy (fun a b => cmp (maskText a) (maskText b)) grant.masks).map fun (col, kind) =>
    maskRule d res schema table grant col kind

/-- Everything that is emitted for one grant. -/
def grantRules (d : Declaration) (res : Resource) (schema table : String) (grant : Grant) :
    List Rule :=
  allowRules d res schema table grant ++ rowFilterRules d res schema table grant ++
    maskRules d res schema table grant

def resourceRules (d : Declaration) (res : Resource) : Except String (List Rule) := do
  let (schema, table) ← splitResource res.resource
  return (sortedGrants res).flatMap (grantRules d res schema table)

def systemCatalogOperations : List (QueryOperation × GuardedShape) :=
  [(.accessCatalog, .catalog), (.filterCatalogs, .catalog), (.showSchemas, .catalog),
    (.filterSchemas, .schema)]

def systemMetadataOperations : List (String × MetadataShape) :=
  [("ShowTables", .schema), ("FilterTables", .table), ("ShowColumns", .table),
    ("FilterColumns", .table), ("SelectFromColumns", .table)]

/-- The condition on the catalog of a request, where the shape has one. -/
def resourceGuard (catalog : String) : ResourceShape → List Guard
  | none => []
  | some shape => [.equals (CATALOG_GUARD_PATH shape) catalog]

/-- The rules for the operations that an entry lists. -/
def operationRules (cg : CatalogGrant) (effective : List String) (effectiveComment : String) :
    List Rule :=
  (Text.sortBy (fun a b => cmp a.text b.text) cg.operations).map fun op =>
    { comment := "카탈로그 " ++ sanitizeComment cg.catalog ++
        s!" — {op.text} ({effectiveComment})"
      head := .allow
      body := .equals .operation op.text ::
        resourceGuard cg.catalog (OPERATION_RESOURCE_SHAPE op) ++ [.someGroupIn effective] }

/-- Browsing a catalog needs its information schema. -/
def informationSchemaRule (cg : CatalogGrant) (effective : List String)
    (effectiveComment : String) : Rule where
  comment := "카탈로그 " ++ sanitizeComment cg.catalog ++
    s!" — information_schema SELECT ({effectiveComment}, SHOW TABLES/COLUMNS 등이 내부적으로 요구)"
  head := .allow
  body := [.equals .operation "SelectFromColumns", .equals .tableCatalog cg.catalog,
    .equals .tableSchema "information_schema", .someGroupIn effective]

/-- Access to a catalog opens the metadata of the built-in catalog, and nothing
else of it. -/
def systemRules (effective : List String) (effectiveComment : String) : List Rule :=
  (systemCatalogOperations.map fun (op, shape) =>
    { comment := s!"Trino 내장 system 카탈로그 — {op.text} ({effectiveComment}, Superset 메타데이터 검증용)"
      head := .allow
      body := [.equals .operation op.text, .equals (CATALOG_GUARD_PATH shape) "system",
        .someGroupIn effective] }) ++
    systemMetadataOperations.map fun (op, shape) =>
      { comment := s!"Trino 내장 system 메타데이터 — {op} ({effectiveComment}, metadata/jdbc만; runtime 제외)"
        head := .allow
        body := [.equals .operation op, .equals (CATALOG_GUARD_PATH shape.guarded) "system",
          .oneOf (SYSTEM_METADATA_SCHEMA_GUARD_PATH shape) ["jdbc", "metadata"],
          .someGroupIn effective] }

def catalogRules (d : Declaration) (cg : CatalogGrant) : List Rule :=
  let effective := effectiveHolders d cg.roles
  let effectiveComment :=
    if effective = [] then "알 수 없는 롤 — 검증 우회"
    else Text.join ", " (effective.map sanitizeComment)
  operationRules cg effective effectiveComment ++
    [informationSchemaRule cg effective effectiveComment] ++
    if .accessCatalog ∈ cg.operations then systemRules effective effectiveComment else []

/-- The resources of Trino by name. -/
def trinoResources (d : Declaration) : List Resource :=
  Text.sortBy (fun a b => cmp a.resource b.resource)
    (d.resources.filter (·.engineOrDefault = .trino))

/-- All rules of the policy, or the message of the exception. -/
def regoRules (d : Declaration) : Except String (List Rule) := do
  let forResources ← (trinoResources d).mapM (resourceRules d)
  let catalogGrants := Text.sortBy (fun a b => cmp a.catalog b.catalog) d.catalogGrantList
  return forResources.flatten ++ catalogGrants.flatMap (catalogRules d)

/-- The lines before the first rule. -/
def regoHeader : List String :=
  ["# 자동 생성 — 직접 수정하지 말 것. 원천: policies/*.yaml", "package trino", "",
    "import rego.v1", "", "default allow := false", "",
    "# 요청자의 그룹 (Trino OPA 입력의 실제 경로 — 라이브 실측: identity 키는 groups/user 뿐)",
    "groups := object.get(input, [\"context\", \"identity\", \"groups\"], [])", ""]

def compileRego (d : Declaration) : Except String String := do
  let rules ← regoRules d
  return Text.join "\n" (regoHeader ++ rules.flatMap Rule.lines)

/-! ## Which rules there are -/

@[simp] theorem mem_effectiveHolders (d : Declaration) (roles : List String) (holder : String) :
    holder ∈ effectiveHolders d roles ↔ ∃ role ∈ roles, holder ∈ holdersOf d role := by
  rw [effectiveHolders, Text.mem_sortBy, List.mem_eraseDups, List.mem_flatMap]

@[simp] theorem mem_unmaskedGroups (d : Declaration) (res : Resource) (holder : String) :
    holder ∈ unmaskedGroups d res ↔
      ∃ grant ∈ res.grants, grant.optsOut = true ∧
        ∃ role ∈ grant.roles, holder ∈ holdersOf d role := by
  simp only [unmaskedGroups, Text.mem_sortBy, List.mem_eraseDups, List.mem_flatMap,
    List.mem_filter, and_assoc]

theorem head_of_mem_allowRules {d : Declaration} {res : Resource} {schema table : String}
    {grant : Grant} {rule : Rule} (member : rule ∈ allowRules d res schema table grant) :
    rule.head = .allow := by
  rcases List.mem_map.mp member with ⟨priv, _, rfl⟩
  rfl

theorem head_of_mem_rowFilterRules {d : Declaration} {res : Resource} {schema table : String}
    {grant : Grant} {rule : Rule} (member : rule ∈ rowFilterRules d res schema table grant) :
    ∃ expression, rule.head = .rowFilters expression := by
  rw [rowFilterRules] at member
  split at member
  next => exact absurd member List.not_mem_nil
  next rowFilter _ =>
    split at member
    next => exact absurd member List.not_mem_nil
    next =>
      rw [List.mem_singleton.mp member]
      exact ⟨rowFilter, rfl⟩

theorem head_of_mem_catalogRules {d : Declaration} {cg : CatalogGrant} {rule : Rule}
    (member : rule ∈ catalogRules d cg) : rule.head = .allow := by
  simp only [catalogRules, operationRules, systemRules, List.mem_append, List.mem_map,
    List.mem_singleton, List.mem_ite_nil_right] at member
  rcases member with (⟨op, _, rfl⟩ | rfl) | ⟨_, ⟨operation, _, rfl⟩ | ⟨operation, _, rfl⟩⟩ <;>
    rfl

/-- A name is taken apart at its last dot, if it has one. -/
theorem splitResource_eq_ok_iff (resource schema table : String) :
    splitResource resource = .ok (schema, table) ↔
      resource = schema ++ "." ++ table ∧ '.' ∉ table.toList := by
  have atDot := Text.splitLast_eq_some_iff '.' resource.toList schema.toList table.toList
  have joined : resource.toList = schema.toList ++ '.' :: table.toList ↔
      resource = schema ++ "." ++ table := by
    rw [← String.toList_inj]
    simp
  rw [joined] at atDot
  rw [← atDot, splitResource]
  cases Text.splitLast '.' resource.toList with
  | none => simp
  | some pair =>
      simp only [Except.ok.injEq, Option.some.injEq, Prod.ext_iff, ← String.toList_inj,
        String.toList_ofList]

/-- A checked name has one dot only, at which it is taken apart. -/
theorem splitResource_of_isSchemaTable {resource : String}
    (named : isSchemaTable resource = true) :
    ∃ schema table, splitResource resource = .ok (schema, table) ∧
      ∀ otherSchema otherTable, resource = otherSchema ++ "." ++ otherTable →
        otherSchema = schema ∧ otherTable = table := by
  rcases parts_of_isSchemaTable named with ⟨schema, table, schemaId, tableId, rfl⟩
  have schemaFree := dot_notMem_of_identifier schemaId
  have tableFree := dot_notMem_of_identifier tableId
  refine ⟨schema, table, (splitResource_eq_ok_iff _ _ _).mpr ⟨rfl, tableFree⟩, ?_⟩
  intro otherSchema otherTable same
  have lists : schema.toList ++ '.' :: table.toList =
      otherSchema.toList ++ '.' :: otherTable.toList := by
    simpa using congrArg String.toList same
  rcases (List.append_cons_inj_of_notMem schemaFree tableFree).mp lists with
    ⟨sameSchema, _, sameTable⟩
  exact ⟨String.toList_inj.mp sameSchema.symm, String.toList_inj.mp sameTable.symm⟩

/-- A loop whose steps all succeed returns all their results. -/
theorem exists_mapM_eq_ok {ι β ε : Type*} (step : ι → Except ε β) (items : List ι)
    (succeeds : ∀ item ∈ items, ∃ result, step item = .ok result) :
    ∃ results, items.mapM step = .ok results ∧
      ∀ result, result ∈ results ↔ ∃ item ∈ items, step item = .ok result := by
  induction items with
  | nil => exact ⟨[], rfl, by simp⟩
  | cons item rest ih =>
      rcases succeeds item List.mem_cons_self with ⟨first, firstOk⟩
      rcases ih (fun other member => succeeds other (List.mem_cons_of_mem item member)) with
        ⟨results, restOk, members⟩
      refine ⟨first :: results, ?_, ?_⟩
      · rw [List.mapM_cons, firstOk, restOk]
        rfl
      · intro result
        simp only [List.mem_cons, members, exists_eq_or_imp, firstOk, Except.ok.injEq,
          eq_comm (a := result)]

/-- The rules that stem from the resources of Trino. -/
def FromResource (d : Declaration) (rule : Rule) : Prop :=
  ∃ res ∈ d.resources, res.engineOrDefault = .trino ∧
    ∃ schema table, splitResource res.resource = .ok (schema, table) ∧
      ∃ grant ∈ res.grants, rule ∈ grantRules d res schema table grant

/-- When every name can be taken apart the declaration compiles, and this is what the
policy consists of. -/
theorem mem_regoRules {d : Declaration}
    (splits : ∀ res ∈ d.resources, res.engineOrDefault = .trino →
      ∃ schema table, splitResource res.resource = .ok (schema, table)) :
    ∃ rules, regoRules d = .ok rules ∧ ∀ rule, rule ∈ rules ↔
      FromResource d rule ∨ ∃ cg ∈ d.catalogGrantList, rule ∈ catalogRules d cg := by
  have succeeds : ∀ res ∈ trinoResources d, ∃ rules, resourceRules d res = .ok rules := by
    intro res member
    rw [trinoResources, Text.mem_sortBy, List.mem_filter, decide_eq_true_eq] at member
    rcases splits res member.1 member.2 with ⟨schema, table, isSplit⟩
    exact ⟨_, by rw [resourceRules, isSplit]; rfl⟩
  rcases exists_mapM_eq_ok (resourceRules d) (trinoResources d) succeeds with
    ⟨forResources, mapped, members⟩
  refine ⟨_, by rw [regoRules, mapped]; rfl, ?_⟩
  intro rule
  simp only [List.mem_append, List.mem_flatten, List.mem_flatMap, Text.mem_sortBy, members]
  refine or_congr_left ⟨?_, ?_⟩
  · intro emitted
    rcases emitted with ⟨forResource, ⟨res, member, compiled⟩, inRules⟩
    rw [trinoResources, Text.mem_sortBy, List.mem_filter, decide_eq_true_eq] at member
    rcases splits res member.1 member.2 with ⟨schema, table, isSplit⟩
    rw [resourceRules, isSplit] at compiled
    cases compiled
    rcases List.mem_flatMap.mp inRules with ⟨grant, listed, ofGrant⟩
    rw [sortedGrants, Text.mem_sortBy] at listed
    exact ⟨res, member.1, member.2, schema, table, isSplit, grant, listed, ofGrant⟩
  · intro fromResource
    rcases fromResource with
      ⟨res, member, isTrino, schema, table, isSplit, grant, listed, ofGrant⟩
    refine ⟨_, ⟨res, ?_, by rw [resourceRules, isSplit]; rfl⟩, ?_⟩
    · rw [trinoResources, Text.mem_sortBy, List.mem_filter, decide_eq_true_eq]
      exact ⟨member, isTrino⟩
    · refine List.mem_flatMap.mpr ⟨grant, ?_, ofGrant⟩
      rw [sortedGrants, Text.mem_sortBy]
      exact listed

/-- A checked declaration compiles. -/
theorem Checked.mem_regoRules {d : Declaration} (checked : Checked d) :
    ∃ rules, regoRules d = .ok rules ∧ ∀ rule, rule ∈ rules ↔
      FromResource d rule ∨ ∃ cg ∈ d.catalogGrantList, rule ∈ catalogRules d cg := by
  apply PolicyCompiler.mem_regoRules
  intro res member _
  rcases splitResource_of_isSchemaTable (checked.schemaTable res member) with
    ⟨schema, table, isSplit, _⟩
  exact ⟨schema, table, isSplit⟩

/-- A name with a dot can be taken apart. -/
theorem splitResource_of_dot {resource : String} (dotted : '.' ∈ resource.toList) :
    ∃ schema table, splitResource resource = .ok (schema, table) := by
  cases isSplit : Text.splitLast '.' resource.toList with
  | none => exact absurd dotted ((Text.splitLast_eq_none_iff _ _).mp isSplit)
  | some pair => exact ⟨String.ofList pair.1, String.ofList pair.2, by rw [splitResource, isSplit]⟩

end BelugaManager.PolicyCompiler
