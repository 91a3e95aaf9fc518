import BelugaManager.Foundation.RoleCatalog
import BelugaManager.PolicyCompiler.Checked

/-!
# The script for PostgreSQL

`compilePgDdl` of `pgddl.ts`.  The script is kept as a list of statements between
lines of comment and is written out as text at the very end.  What the server makes
of a statement is a list of commands on a catalog of roles; schemas, tables and
databases are identified by the names the script uses for them.
-/

namespace BelugaManager.PolicyCompiler

open Foundation

def PRIV_SQL : Privilege → String
  | .select => "SELECT"
  | .insert => "INSERT"
  | .update => "UPDATE"
  | .delete => "DELETE"

def PRIVILEGE_ORDER : List Privilege := [.select, .insert, .update, .delete]

/-- A role name as the script writes it. -/
inductive PgName where
  | bare (name : String)
  | quoted (name : String)
  deriving DecidableEq, Repr

def PgName.text : PgName → String
  | .bare name => name
  | .quoted name => toPgLoginIdentifier name

/-- The name as the server stores it: unquoted identifiers are folded. -/
def PgName.stored : PgName → String
  | .bare name => Text.lowerAscii name
  | .quoted name => name

/-- Create a role unless the catalog has one of the tested name. -/
structure GuardedCreate where
  tested : String
  identifier : PgName
  canLogin : Bool
  deriving DecidableEq, Repr

inductive PgStatement where
  | createRoles (creates : List GuardedCreate)
  | grantRole (role member : PgName)
  | grantSchemaUsage (schema : String) (role : PgName)
  | grantTable (privileges : List Privilege) (table : String) (role : PgName)
  | grantSequences (schema : String) (role : PgName)
  | grantConnect (database : String) (role : PgName)
  deriving DecidableEq, Repr

def GuardedCreate.lines (create : GuardedCreate) : List String :=
  [s!"  IF NOT EXISTS (SELECT FROM pg_roles WHERE rolname = '{create.tested}') THEN",
    s!"    CREATE ROLE {create.identifier.text} WITH " ++
      (if create.canLogin then "LOGIN" else "NOLOGIN") ++ " INHERIT;",
    "  END IF;"]

/-- The words for a list of privileges, in the order in which they are given. -/
def privilegeWords (privileges : List Privilege) : String :=
  Text.join ", " (privileges.map PRIV_SQL)

def PgStatement.lines : PgStatement → List String
  | .createRoles creates =>
      ["DO $$", "BEGIN"] ++ creates.flatMap GuardedCreate.lines ++ ["END $$;"]
  | .grantRole role member => [s!"GRANT {role.text} TO {member.text};"]
  | .grantSchemaUsage schema role => [s!"GRANT USAGE ON SCHEMA {schema} TO {role.text};"]
  | .grantTable privileges table role =>
      [s!"GRANT {privilegeWords privileges} ON TABLE {table} TO {role.text};"]
  | .grantSequences schema role =>
      [s!"GRANT USAGE, SELECT ON ALL SEQUENCES IN SCHEMA {schema} TO {role.text};"]
  | .grantConnect database role => [s!"GRANT CONNECT ON DATABASE {database} TO {role.text};"]

/-- A piece of the script: a line of comment or a statement. -/
inductive PgItem where
  | line (text : String)
  | statement (content : PgStatement)

def PgItem.lines : PgItem → List String
  | .line text => [text]
  | .statement content => content.lines

def PgItem.statement? : PgItem → Option PgStatement
  | .line _ => none
  | .statement content => some content

/-! ## The sections of the script -/

/-- A role as a PostgreSQL name. -/
def roleName (role : String) : PgName := .bare (toPgRole role)

def sortedRoles (d : Declaration) : List Role :=
  Text.sortBy (fun a b => cmp a.name b.name) d.roles

def createRoleSection (d : Declaration) : List PgStatement :=
  (sortedRoles d).map fun r => .createRoles [⟨toPgRole r.name, roleName r.name, false⟩]

def inheritanceSection (d : Declaration) : List PgStatement :=
  (sortedRoles d).flatMap fun r =>
    (Text.sortBy cmp r.parents).map fun parent => .grantRole (roleName parent) (roleName r.name)

/-- The resources that say they belong to PostgreSQL, by name. -/
def postgresResources (d : Declaration) : List Resource :=
  Text.sortBy (fun a b => cmp a.resource b.resource)
    (d.resources.filter (·.engine = some .postgres))

/-- The part of a resource name before the first dot. -/
def schemaOf (res : Resource) : String := (Text.split '.' res.resource).getD 0 ""

def schemas (d : Declaration) : List String :=
  Text.sortBy cmp ((postgresResources d).map schemaOf).eraseDups

/-- The roles of all grants of a resource. -/
def grantRoles (res : Resource) : List String := res.grants.flatMap Grant.roles

/-- The roles of the grants of a resource that include inserting. -/
def insertRoles (res : Resource) : List String :=
  (res.grants.filter fun grant => .insert ∈ grant.privileges).flatMap Grant.roles

def schemaRoles (d : Declaration) : OrderedMap String (List String) :=
  .collect schemaOf grantRoles (postgresResources d)

def sequenceRoles (d : Declaration) : OrderedMap String (List String) :=
  .collect schemaOf insertRoles (postgresResources d)

def schemaSection (d : Declaration) : List PgStatement :=
  (schemas d).flatMap fun schema =>
    (Text.sortBy cmp (((schemaRoles d).get? schema).getD [])).map fun role =>
      .grantSchemaUsage schema (roleName role)

/-- Privileges in their canonical order. -/
def sortedPrivileges (grant : Grant) : List Privilege :=
  Text.sortBy (fun a b => (PRIVILEGE_ORDER.idxOf a : Int) - PRIVILEGE_ORDER.idxOf b)
    grant.privileges

def tableSection (d : Declaration) : List PgStatement :=
  (postgresResources d).flatMap fun res =>
    (sortedGrants res).flatMap fun grant =>
      (Text.sortBy cmp grant.roles).map fun role =>
        .grantTable (sortedPrivileges grant) res.resource (roleName role)

def sequenceSection (d : Declaration) : List PgStatement :=
  (schemas d).flatMap fun schema =>
    (Text.sortBy cmp (((sequenceRoles d).get? schema).getD [])).map fun role =>
      .grantSequences schema (roleName role)

def sortedLogins (d : Declaration) : List PgLogin :=
  Text.sortBy (fun a b => cmp a.name b.name) d.loginList

def loginSection (d : Declaration) : List PgStatement :=
  [.createRoles ((sortedLogins d).map fun login => ⟨login.name, .quoted login.name, true⟩)]

def bindingSection (d : Declaration) : List PgStatement :=
  (sortedLogins d).flatMap fun login =>
    (Text.sortBy cmp login.memberOf).map fun role =>
      .grantRole (roleName role) (.quoted login.name)

/-- The roles that some table grant of PostgreSQL lists. -/
def postgresGrantRoles (d : Declaration) : List String :=
  ((postgresResources d).flatMap grantRoles).eraseDups

/-- Per database, the roles that a login for the database reaches. -/
def rolesByDatabase (d : Declaration) : OrderedMap String (List String) :=
  .collect PgLogin.database (fun login => login.memberOf.flatMap (expandRoles d))
    (sortedLogins d)

def databases (d : Declaration) : List String := Text.sortBy cmp (rolesByDatabase d).keys

def connectSection (d : Declaration) : List PgStatement :=
  (databases d).flatMap fun database =>
    let reachableRoles := ((rolesByDatabase d).get? database).getD []
    (Text.sortBy cmp ((postgresGrantRoles d).filter (· ∈ reachableRoles))).map fun role =>
      .grantConnect database (roleName role)

/-- A blank line, the heading of a section and its statements. -/
def titled (title : String) (statements : List PgStatement) : List PgItem :=
  PgItem.line "" :: PgItem.line title :: statements.map PgItem.statement

def connectItems (d : Declaration) : List PgItem :=
  if postgresGrantRoles d ≠ [] ∧ databases d ≠ [] then
    titled "-- 6. CONNECT 권한 (테이블 그랜트 + 해당 DB의 LOGIN memberOf 교집합에서 유도)"
      (connectSection d)
  else []

/-- The sections for logins, left out when there are none. -/
def loginItems (d : Declaration) : List PgItem :=
  if sortedLogins d = [] then []
  else
    titled "-- 4. LOGIN 계정 (D20, LDAP uid — 하이픈 보존, toPgRole() 미적용)" (loginSection d) ++
      titled "-- 5. LOGIN 계정을 정책 롤에 바인딩" (bindingSection d) ++
      connectItems d

def pgItems (d : Declaration) : List PgItem :=
  [PgItem.line "-- 자동 생성 — 직접 수정하지 말 것. 원천: policies/*.yaml"] ++
    titled "-- 1. 권한 롤 (NOLOGIN, 상속 가능)" (createRoleSection d) ++
    titled "-- 2. 롤 상속 (D19)" (inheritanceSection d) ++
    titled "-- 3. 스키마 및 테이블 권한 (allow-by-role, 명시적 GRANT만)"
      (schemaSection d ++ tableSection d ++ sequenceSection d) ++
    loginItems d ++
    [PgItem.line ""]

def compilePgDdl (d : Declaration) : String :=
  Text.join "\n" ((pgItems d).flatMap PgItem.lines)

/-- The statements of the script in order. -/
def pgStatements (d : Declaration) : List PgStatement :=
  (pgItems d).filterMap PgItem.statement?

end BelugaManager.PolicyCompiler
