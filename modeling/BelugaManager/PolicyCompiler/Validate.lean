import BelugaManager.Foundation.Regex
import BelugaManager.PolicyCompiler.Inheritance

/-!
# Validation of declarations

`validateDeclaration` of `validate.ts`, section by section.  Each section is the
list of errors that one stretch of the source pushes, in the same order and with
the same texts.
-/

namespace BelugaManager.PolicyCompiler

open Foundation

inductive ErrorCode where
  | cyclicInheritance
  | invalidIdentifier
  | unknownRole
  | roleNameCollision
  | duplicateResource
  | piiNoSensitiveColumns
  | postgresUnsupportedMask
  | postgresUnsupportedRowFilter
  | rowFilterRejected
  | piiUnmasked
  | conflictingMask
  | unsupportedCatalog
  | duplicateCatalogGrant
  | loginNameCollision
  deriving DecidableEq, Repr

/-- The code as it stands in an error. -/
def ErrorCode.text : ErrorCode → String
  | .cyclicInheritance => "CYCLIC_INHERITANCE"
  | .invalidIdentifier => "INVALID_IDENTIFIER"
  | .unknownRole => "UNKNOWN_ROLE"
  | .roleNameCollision => "ROLE_NAME_COLLISION"
  | .duplicateResource => "DUPLICATE_RESOURCE"
  | .piiNoSensitiveColumns => "PII_NO_SENSITIVE_COLUMNS"
  | .postgresUnsupportedMask => "POSTGRES_UNSUPPORTED_MASK"
  | .postgresUnsupportedRowFilter => "POSTGRES_UNSUPPORTED_ROW_FILTER"
  | .rowFilterRejected => "ROW_FILTER_REJECTED"
  | .piiUnmasked => "PII_UNMASKED"
  | .conflictingMask => "CONFLICTING_MASK"
  | .unsupportedCatalog => "UNSUPPORTED_CATALOG"
  | .duplicateCatalogGrant => "DUPLICATE_CATALOG_GRANT"
  | .loginNameCollision => "LOGIN_NAME_COLLISION"

structure ValidationError where
  code : ErrorCode
  message : String
  deriving DecidableEq, Repr

/-- One error unless a condition holds. -/
def errorUnless (condition : Prop) [Decidable condition] (code : ErrorCode)
    (message : String) : List ValidationError :=
  if condition then [] else [⟨code, message⟩]

def isIdentStart (c : Char) : Bool := c.isAlpha || c = '_'

def isIdentPart (c : Char) : Bool := c.isAlphanum || c = '_'

def isNamePart (c : Char) : Bool := isIdentPart c || c = '-'

/-- `^[A-Za-z_][A-Za-z0-9_]*$` -/
def IDENTIFIER : Regex := .seq (.chars isIdentStart) (.star (.chars isIdentPart))

/-- `^[A-Za-z_][A-Za-z0-9_-]*$` -/
def ROLE_NAME : Regex := .seq (.chars isIdentStart) (.star (.chars isNamePart))

/-- `^[A-Za-z_][A-Za-z0-9_-]*$`, declared again for login names. -/
def LOGIN_NAME : Regex := .seq (.chars isIdentStart) (.star (.chars isNamePart))

/-- `\s*` and `\s+`. -/
def spaces : Regex := .star (.chars Text.isSpace)
def spaces1 : Regex := .plus (.chars Text.isSpace)

def IDENT : Regex := .seq IDENTIFIER (.opt (.seq (.char '.') IDENTIFIER))

def NUMBER : Regex :=
  .all [.opt (.char '-'), .plus (.chars Char.isDigit),
    .opt (.seq (.char '.') (.plus (.chars Char.isDigit)))]

def STRING : Regex :=
  .all [.char '\'', .star (.chars fun c => c ≠ '\'' ∧ c ≠ '\\'), .char '\'']

def SESSION : Regex := .word "current_user"

def VALUE : Regex := .any [NUMBER, STRING, SESSION]

def IN_LIST : Regex :=
  .all [.char '(', spaces, VALUE, .star (.all [spaces, .char ',', spaces, VALUE]), spaces,
    .char ')']

def COMPARISON : Regex :=
  .any [.word "<>", .word "!=", .word "<=", .word ">=", .char '=', .char '<', .char '>']

def TERM : Regex :=
  .any [.all [IDENT, spaces, COMPARISON, spaces, VALUE],
    .all [IDENT, spaces1, .word "IN", spaces, IN_LIST]]

/-- Terms joined by one connective; the pattern ignores case. -/
def chainOf (connective : String) : Regex :=
  .all [spaces, TERM, .star (.all [spaces1, .word connective, spaces1, TERM]), spaces]

def AND_CHAIN : Regex := chainOf "AND"

def OR_CHAIN : Regex := chainOf "OR"

def ROW_FILTER_MAX_LENGTH : Nat := 200

def cycleErrors (d : Declaration) : List ValidationError :=
  match findCycle d with
  | none => []
  | some cycle =>
      [⟨.cyclicInheritance, "롤 상속에 순환이 있다: " ++ Text.join " -> " cycle⟩]

/-- The two checks on a reference to a role, made wherever a role is named. -/
def roleReferenceErrors (d : Declaration) (role unknown invalid : String) :
    List ValidationError :=
  errorUnless (role ∈ d.roleNames) .unknownRole unknown ++
    errorUnless (ROLE_NAME.test role = true) .invalidIdentifier invalid

def roleErrors (d : Declaration) (role : Role) : List ValidationError :=
  errorUnless (ROLE_NAME.test role.name = true) .invalidIdentifier
      s!"롤 이름 '{role.name}'이 올바른 형식이 아니다([A-Za-z_][A-Za-z0-9_-]*)" ++
    role.parents.flatMap fun parent =>
      roleReferenceErrors d parent
        s!"롤 '{role.name}'이 없는 롤 '{parent}'을 상속한다"
        s!"롤 '{role.name}'의 includes 항목 '{parent}'이 올바른 형식이 아니다"

/-- Role names that are folded to one PostgreSQL role. -/
def roleNameCollisionErrors (d : Declaration) : List ValidationError :=
  let byPgRole := OrderedMap.group toPgRole d.roleNames
  (Text.sortBy (fun a b => cmp a.1 b.1) byPgRole.entries).flatMap fun (pg, names) =>
    let offenders := (Text.sortBy cmp names).map fun name => s!"'{name}'"
    errorUnless (names.length ≤ 1) .roleNameCollision
      ("롤 이름 " ++ Text.join ", " offenders ++
        s!"이(가) 모두 PG 롤 '{pg}'로 정규화된다 — 하나를 다른 이름으로 바꿔야 한다")

def groupErrors (d : Declaration) (group : Group) : List ValidationError :=
  errorUnless (ROLE_NAME.test group.name = true) .invalidIdentifier
      s!"그룹 이름 '{group.name}'이 올바른 형식이 아니다([A-Za-z_][A-Za-z0-9_-]*)" ++
    group.roles.flatMap fun role =>
      roleReferenceErrors d role
        s!"그룹 '{group.name}'이 없는 롤 '{role}'을 참조한다"
        s!"그룹 '{group.name}'의 롤 항목 '{role}'이 올바른 형식이 아니다"

/-- The key under which a resource is counted. -/
def resourceKey (res : Resource) : String := res.engineOrDefault.text ++ ":" ++ res.resource

def duplicateResourceErrors (d : Declaration) : List ValidationError :=
  let occurrences := OrderedMap.tally (d.resources.map resourceKey)
  (Text.sortBy (fun a b => cmp a.1 b.1) occurrences.entries).flatMap fun (key, count) =>
    let name := (Text.split ':' key).getD 1 "undefined"
    errorUnless (count ≤ 1) .duplicateResource
      (s!"리소스 '{name}'이 선언에서 {count}번 나온다 — 그랜트를 한 엔트리로 합쳐야 한다" ++
        "(엔트리를 나누면 서로의 그랜트가 비교되지 않아 마스킹 충돌 검사를 우회한다)")

/-- A resource is named `schema.table` by two identifiers. -/
def isSchemaTable (resource : String) : Bool :=
  let parts := Text.split '.' resource
  parts.length = 2 && parts.all IDENTIFIER.test

def rowFilterErrors (res : Resource) : Option String → List ValidationError
  | none => []
  | some rowFilter =>
      errorUnless ((AND_CHAIN.test rowFilter = true ∨ OR_CHAIN.test rowFilter = true) ∧
          Text.length rowFilter ≤ ROW_FILTER_MAX_LENGTH)
        .rowFilterRejected
        s!"리소스 '{res.resource}'의 rowFilter가 허용 문법이 아니다. AND와 OR을 섞을 수 없으며, 괄호는 미지원된다: {rowFilter}"

def grantErrors (d : Declaration) (res : Resource) (grant : Grant) : List ValidationError :=
  let masked := grant.masks.map Prod.fst
  let uncovered := res.sensitive.filter (· ∉ masked)
  errorUnless (¬ (res.engine = some .postgres ∧ grant.columnMask.isSome))
      .postgresUnsupportedMask
      s!"PostgreSQL 리소스 '{res.resource}'는 columnMask를 지원하지 않는다 — 표준 테이블 GRANT만 컴파일한다" ++
    errorUnless (¬ (res.engine = some .postgres ∧ grant.rowFilter.isSome))
      .postgresUnsupportedRowFilter
      s!"PostgreSQL 리소스 '{res.resource}'는 rowFilter를 지원하지 않는다 — 표준 테이블 GRANT만 컴파일한다" ++
    (grant.roles.flatMap fun role =>
      roleReferenceErrors d role
        s!"리소스 '{res.resource}'가 없는 롤 '{role}'을 참조한다"
        s!"리소스 '{res.resource}'의 그랜트 롤 '{role}'이 올바른 형식이 아니다") ++
    (masked.flatMap fun column =>
      errorUnless (IDENTIFIER.test column = true) .invalidIdentifier
        s!"리소스 '{res.resource}'의 columnMask 키 '{column}'이 식별자가 아니다") ++
    rowFilterErrors res grant.rowFilter ++
    errorUnless (¬ (res.classification = .pii ∧ .select ∈ grant.privileges ∧
        grant.optsOut = false ∧ uncovered ≠ []))
      .piiUnmasked
      (s!"PII 리소스 '{res.resource}'의 민감 컬럼 " ++ Text.join ", " uncovered ++
        "이(가) 마스킹되지 않은 채 select에 노출된다 (롤: " ++ Text.join ", " grant.roles ++ ")")

/-- The groups that effectively have a role, tagged to keep them apart from roles. -/
def taggedGroupHolders (d : Declaration) (role : String) : List String :=
  (d.groups.filter fun group => role ∈ groupEffectiveRoles d group).map fun group =>
    "group:" ++ group.name

def holdersOfIncludingGroups (d : Declaration) (role : String) : List String :=
  (holdersOf d role ++ taggedGroupHolders d role).eraseDups

/-- A holder for the reader of an error. -/
def describeHolder (holder : String) : String :=
  match holder.toList with
  | 'g' :: 'r' :: 'o' :: 'u' :: 'p' :: ':' :: name => "그룹 " ++ String.ofList name
  | _ => "롤 " ++ holder

/-- One grant's mask on a column, with everyone who holds the grant. -/
structure MaskEntry where
  grant : Grant
  holders : List String
  kind : MaskKind

def grantHolders (d : Declaration) (grant : Grant) : List String :=
  (grant.roles.flatMap (holdersOfIncludingGroups d)).eraseDups

/-- Everyone who holds a grant of the resource that opts out of masking. -/
def resourceUnmasked (d : Declaration) (res : Resource) : List String :=
  ((res.grants.filter Grant.optsOut).flatMap fun grant =>
    grant.roles.flatMap (holdersOfIncludingGroups d)).eraseDups

/-- The masks of a resource by column, in the order of grants. -/
def maskedBy (d : Declaration) (res : Resource) :
    OrderedMap String (List (String × MaskEntry)) :=
  .group Prod.fst <| res.grants.flatMap fun grant =>
    grant.masks.map fun (column, kind) => (column, ⟨grant, grantHolders d grant, kind⟩)

/-- All pairs of entries, the earlier one first. -/
def orderedPairs {ι : Type*} : List ι → List (ι × ι)
  | [] => []
  | first :: rest => rest.map (first, ·) ++ orderedPairs rest

/-- The holders for whom two masks of one column are both in force. Grants that
differ in opting out never meet: the guard of the one excludes the other's
holders. -/
def maskOverlap (unmasked : List String) (a b : MaskEntry) : List String :=
  if a.kind = b.kind ∨ a.grant.optsOut ≠ b.grant.optsOut then []
  else
    let shared := a.holders.filter (· ∈ b.holders)
    if a.grant.optsOut then shared else shared.filter (· ∉ unmasked)

def conflictErrors (d : Declaration) (res : Resource) : List ValidationError :=
  (Text.sortBy (fun a b => cmp a.1 b.1) (maskedBy d res).entries).flatMap
    fun (column, entries) =>
      (orderedPairs (entries.map Prod.snd)).flatMap fun (a, b) =>
        let overlap := maskOverlap (resourceUnmasked d res) a b
        let described := (Text.sortBy cmp overlap.eraseDups).map describeHolder
        errorUnless (overlap = []) .conflictingMask
          (s!"리소스 '{res.resource}'의 컬럼 '{column}'을 롤 [" ++
            Text.join ", " a.grant.roles ++ "] 그랜트와 롤 [" ++
            Text.join ", " b.grant.roles ++ "] 그랜트가 서로 다른 방식(" ++ a.kind.text ++
            "/" ++ b.kind.text ++ ")으로 마스킹하며, 그 보유자가 겹친다(" ++
            Text.join ", " described ++ ") — OPA가 평가 시 eval_conflict_error를 낸다")

def resourceErrors (d : Declaration) (res : Resource) : List ValidationError :=
  errorUnless (isSchemaTable res.resource = true) .invalidIdentifier
      s!"리소스 '{res.resource}'는 'schema.table' 형식이어야 하며 두 부분 모두 식별자([A-Za-z_][A-Za-z0-9_]*)여야 한다" ++
    (res.sensitive.flatMap fun column =>
      errorUnless (IDENTIFIER.test column = true) .invalidIdentifier
        s!"리소스 '{res.resource}'의 sensitiveColumns 항목 '{column}'이 식별자가 아니다") ++
    errorUnless (¬ (res.classification = .pii ∧ res.sensitive = []))
      .piiNoSensitiveColumns
      s!"PII 리소스 '{res.resource}'에 sensitiveColumns가 없다 — 무엇을 가려야 하는지 선언하지 않으면 마스킹을 강제할 수 없다" ++
    res.grants.flatMap (grantErrors d res) ++
    conflictErrors d res

def catalogGrantErrors (d : Declaration) (cg : CatalogGrant) : List ValidationError :=
  errorUnless (cg.catalog = DEPLOYED_CATALOG) .unsupportedCatalog
      (s!"카탈로그 그랜트가 '{cg.catalog}'를 참조하지만 이 프로젝트는 '{DEPLOYED_CATALOG}' 카탈로그 " ++
        "하나만 배포한다(src/schema.ts의 DEPLOYED_CATALOG). 두 번째 카탈로그가 실제로 배포되면 " ++
        "그 상수를 먼저 바꿀 것") ++
    cg.roles.flatMap fun role =>
      roleReferenceErrors d role
        s!"카탈로그 그랜트 '{cg.catalog}'가 없는 롤 '{role}'을 참조한다"
        s!"카탈로그 그랜트 '{cg.catalog}'의 롤 '{role}'이 올바른 형식이 아니다"

/-- The JSON text that stands for a catalog and an operation. -/
def catalogOperationKey (pair : String × QueryOperation) : String :=
  "[" ++ Text.jsonQuote pair.1 ++ "," ++ Text.jsonQuote pair.2.text ++ "]"

def duplicateCatalogGrantErrors (d : Declaration) : List ValidationError :=
  let occurrences := OrderedMap.tally <| d.catalogGrantList.flatMap fun cg =>
    cg.operations.map (cg.catalog, ·)
  (Text.sortBy (fun a b => cmp (catalogOperationKey a.1) (catalogOperationKey b.1))
      occurrences.entries).flatMap fun ((catalog, operation), count) =>
    errorUnless (count ≤ 1) .duplicateCatalogGrant
      (s!"카탈로그 '{catalog}'의 오퍼레이션 '{operation.text}'이 catalogGrants에서 {count}번 " ++
        "선언된다 — 같은 (카탈로그, 오퍼레이션) 조합을 여러 엔트리로 나누면 동일하거나 겹치는 " ++
        "allow 규칙이 중복 방출된다. 한 엔트리로 합칠 것")

def loginErrors (d : Declaration) (login : PgLogin) : List ValidationError :=
  errorUnless (LOGIN_NAME.test login.name = true) .invalidIdentifier
      s!"LOGIN 계정 이름 '{login.name}'이 올바른 형식이 아니다([A-Za-z_][A-Za-z0-9_-]*)" ++
    errorUnless (IDENTIFIER.test login.database = true) .invalidIdentifier
      (s!"LOGIN 계정 '{login.name}'의 database '{login.database}'이 올바른 형식이 아니다" ++
        "([A-Za-z_][A-Za-z0-9_]*)") ++
    errorUnless (login.name ∉ d.roleNames.map toPgRole) .loginNameCollision
      s!"LOGIN 계정 이름 '{login.name}'이 선언된 롤의 PG 롤 이름과 같다 — 레거시 특권 롤 별칭과 충돌한다" ++
    login.memberOf.flatMap fun role =>
      errorUnless (role ∈ d.roleNames) .unknownRole
        s!"LOGIN 계정 '{login.name}'이 없는 롤 '{role}'을 참조한다(memberOf)"

/-- All errors of a declaration, in the order in which they are found. -/
def validateDeclaration (d : Declaration) : List ValidationError :=
  cycleErrors d ++
    d.roles.flatMap (roleErrors d) ++
    roleNameCollisionErrors d ++
    d.groups.flatMap (groupErrors d) ++
    duplicateResourceErrors d ++
    d.resources.flatMap (resourceErrors d) ++
    d.catalogGrantList.flatMap (catalogGrantErrors d) ++
    duplicateCatalogGrantErrors d ++
    d.loginList.flatMap (loginErrors d)

/-! ## What the patterns accept -/

theorem isIdentPart_of_isIdentStart {c : Char} (start : isIdentStart c = true) :
    isIdentPart c = true := by
  simp only [isIdentStart, isIdentPart, Char.isAlphanum, Bool.or_eq_true] at start ⊢
  rcases start with alpha | underscore
  · exact Or.inl (Or.inl alpha)
  · exact Or.inr underscore

theorem identifier_chars {s : String} (identifier : IDENTIFIER.test s = true) :
    s ≠ "" ∧ ∀ c ∈ s.toList, isIdentPart c = true := by
  rcases (Regex.test_seq_star_iff _ _ s).mp identifier with ⟨first, rest, chars, start, parts⟩
  constructor
  · intro empty
    simp [empty] at chars
  · intro c member
    rw [chars] at member
    rcases List.mem_cons.mp member with isFirst | inRest
    · rw [isFirst]
      exact isIdentPart_of_isIdentStart start
    · exact parts c inRest

theorem dot_notMem_of_identifier {s : String} (identifier : IDENTIFIER.test s = true) :
    '.' ∉ s.toList := by
  intro member
  have part := (identifier_chars identifier).2 '.' member
  exact absurd part (by decide)

theorem roleName_chars {s : String} (name : ROLE_NAME.test s = true) :
    s ≠ "" ∧ ∀ c ∈ s.toList, isNamePart c = true := by
  rcases (Regex.test_seq_star_iff _ _ s).mp name with ⟨first, rest, chars, start, parts⟩
  constructor
  · intro empty
    simp [empty] at chars
  · intro c member
    rw [chars] at member
    rcases List.mem_cons.mp member with isFirst | inRest
    · rw [isFirst, isNamePart, isIdentPart_of_isIdentStart start, Bool.true_or]
    · exact parts c inRest

/-- A resource name that passes its check is two identifiers joined by a dot. -/
theorem parts_of_isSchemaTable {resource : String} (named : isSchemaTable resource = true) :
    ∃ schema table, IDENTIFIER.test schema = true ∧ IDENTIFIER.test table = true ∧
      resource = schema ++ "." ++ table := by
  simp only [isSchemaTable, Bool.and_eq_true, decide_eq_true_eq, List.all_eq_true] at named
  rcases named with ⟨two, identifiers⟩
  rcases List.length_eq_two.mp two with ⟨schema, table, parts⟩
  rw [parts] at identifiers
  refine ⟨schema, table, identifiers schema (by simp), identifiers table (by simp), ?_⟩
  rw [← Text.join_split '.' resource, parts, Text.join_pair]
  rfl

end BelugaManager.PolicyCompiler
