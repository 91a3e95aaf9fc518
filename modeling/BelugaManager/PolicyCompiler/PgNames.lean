import BelugaManager.PolicyCompiler.PgAccess
import BelugaManager.PolicyCompiler.PgReading

/-!
# What the names in the script denote

The script splices names into SQL, roles and objects without quotes and logins with
them.  A name denotes what PostgreSQL reads there: names without quotes are folded to
lower case, and the bare grantee `public` stands for every role.
-/

namespace BelugaManager.PolicyCompiler

open Foundation

/-- Whom a grant is made to. -/
inductive Grantee where
  | everyone
  | role (name : String)
  deriving DecidableEq, Repr

def PgName.grantee : PgName → Grantee
  | .bare name =>
      if Text.lowerAscii name = "public" then .everyone else .role (Text.lowerAscii name)
  | .quoted name => .role name

/-- The single name in a text. -/
def nameIn (text : String) : Option PgName := readGrantee text.toList

/-- The role or database that a text denotes. -/
def denotedName (text : String) : Option String := (nameIn text).map PgName.stored

def denotedGrantee (text : String) : Option Grantee := (nameIn text).map PgName.grantee

/-- The schema and the table that a text denotes. -/
def denotedTable (text : String) : Option (List String) :=
  (readNames .start text.toList).map (·.map PgName.stored)

/-- The roles that a statement creates. -/
def PgStatement.creates : PgStatement → List GuardedCreate
  | .createRoles creates => creates
  | _ => []

/-- The role that a grant is made of, and the one it is made to. -/
def PgStatement.roles : PgStatement → List PgName
  | .createRoles _ => []
  | .grantRole role member => [role, member]
  | .grantSchemaUsage _ role | .grantTable _ _ role | .grantSequences _ role
  | .grantConnect _ role => [role]

def PgStatement.grantee? : PgStatement → Option PgName
  | .createRoles _ => none
  | .grantRole _ member => some member
  | .grantSchemaUsage _ role | .grantTable _ _ role | .grantSequences _ role
  | .grantConnect _ role => some role

/-- The schema that a statement grants rights on. -/
def PgStatement.schema? : PgStatement → Option String
  | .grantSchemaUsage schema _ | .grantSequences schema _ => some schema
  | .createRoles _ | .grantRole _ _ | .grantTable _ _ _ | .grantConnect _ _ => none

/-- The names in the script denote what is declared. -/
structure NamesDenote (d : Declaration) : Prop where
  created : ∀ statement ∈ pgStatements d, ∀ create ∈ statement.creates,
    denotedName create.identifier.text = some create.tested
  mentioned : ∀ statement ∈ pgStatements d, ∀ name ∈ statement.roles,
    ∃ other ∈ pgStatements d, ∃ create ∈ other.creates,
      denotedName name.text = some create.tested
  rolesDistinct : ∀ role ∈ d.roleNames, ∀ other ∈ d.roleNames, role ≠ other →
    denotedName (roleName role).text ≠ denotedName (roleName other).text
  loginsDistinct : ∀ login ∈ d.loginList, ∀ other ∈ d.loginList, login.name ≠ other.name →
    denotedName (PgName.quoted login.name).text ≠ denotedName (PgName.quoted other.name).text
  accountsDistinct : ∀ role ∈ d.roleNames, ∀ login ∈ d.loginList,
    denotedName (roleName role).text ≠ denotedName (PgName.quoted login.name).text
  tablesDistinct : ∀ res ∈ postgresResources d, ∀ other ∈ postgresResources d,
    res.resource ≠ other.resource → denotedTable res.resource ≠ denotedTable other.resource
  schemas : ∀ statement ∈ pgStatements d, ∀ schema ∈ statement.schema?,
    ∃ res ∈ postgresResources d, schemaOf res = schema ∧
      ∃ table, denotedTable res.resource = (denotedName schema).map ([·, table])
  schemasDistinct : ∀ statement ∈ pgStatements d, ∀ other ∈ pgStatements d,
    ∀ schema ∈ statement.schema?, ∀ schema' ∈ other.schema?, schema ≠ schema' →
      denotedName schema ≠ denotedName schema'
  databases : ∀ database role, .grantConnect database role ∈ pgStatements d →
    denotedName database = some database
  grantees : ∀ statement ∈ pgStatements d, ∀ grantee ∈ statement.grantee?,
    denotedGrantee grantee.text ≠ some .everyone

/-- Whether a role is listed for a resource. -/
def Resource.IsGranted (res : Resource) : Prop := ∃ grant ∈ res.grants, grant.roles ≠ []

/-- What keeps the names apart: no grant is made to a role that is named like everyone, no
two tables and no two schemas of granted tables differ in case only, and the databases to
connect to are in lower case. -/
structure Unfolded (d : Declaration) : Prop where
  grantees : ∀ role ∈ d.roles, toPgRole role.name = "public" →
    role.parents = [] ∧ ¬GrantedInPostgres d role.name
  tables : ∀ res ∈ postgresResources d, ∀ other ∈ postgresResources d,
    Text.lowerAscii res.resource = Text.lowerAscii other.resource → res.resource = other.resource
  schemas : ∀ res ∈ postgresResources d, ∀ other ∈ postgresResources d,
    res.IsGranted → other.IsGranted →
      Text.lowerAscii (schemaOf res) = Text.lowerAscii (schemaOf other) →
        schemaOf res = schemaOf other
  databases : ∀ login ∈ d.loginList, (∃ role, GrantedInPostgres d role ∧ login.reaches d role) →
    Text.lowerAscii login.database = login.database

/-! ## The statements of the script -/

/-- Where a statement of the script comes from. -/
inductive Emitted (d : Declaration) : PgStatement → Prop where
  | createRole (r : Role) : r ∈ d.roles →
      Emitted d (.createRoles [⟨toPgRole r.name, roleName r.name, false⟩])
  | inherit (r : Role) (parent : String) : r ∈ d.roles → parent ∈ r.parents →
      Emitted d (.grantRole (roleName parent) (roleName r.name))
  | schemaUsage (res : Resource) (role : String) : res ∈ postgresResources d →
      role ∈ grantRoles res → Emitted d (.grantSchemaUsage (schemaOf res) (roleName role))
  | table (res : Resource) (grant : Grant) (role : String) : res ∈ postgresResources d →
      grant ∈ res.grants → role ∈ grant.roles →
      Emitted d (.grantTable (sortedPrivileges grant) res.resource (roleName role))
  | sequences (res : Resource) (role : String) : res ∈ postgresResources d →
      role ∈ insertRoles res → Emitted d (.grantSequences (schemaOf res) (roleName role))
  | createLogins : sortedLogins d ≠ [] → Emitted d (.createRoles
      ((sortedLogins d).map fun login => ⟨login.name, .quoted login.name, true⟩))
  | bind (login : PgLogin) (role : String) : login ∈ d.loginList → role ∈ login.memberOf →
      Emitted d (.grantRole (roleName role) (.quoted login.name))
  | connect (login : PgLogin) (role : String) : login ∈ d.loginList →
      GrantedInPostgres d role → login.reaches d role →
      Emitted d (.grantConnect login.database (roleName role))

theorem mem_perSchema_iff (d : Declaration) {values : Resource → List String}
    {make : String → String → PgStatement} {statement : PgStatement} :
    (statement ∈ (schemas d).flatMap fun schema => (Text.sortBy cmp
        (((OrderedMap.collect schemaOf values (postgresResources d)).get? schema).getD [])).map
          (make schema)) ↔
      ∃ res ∈ postgresResources d, ∃ role ∈ values res, make (schemaOf res) role = statement := by
  simp only [List.mem_flatMap, mem_schemas, List.mem_map, Text.mem_sortBy, OrderedMap.mem_collect]
  constructor
  · intro ⟨_, _, role, ⟨res, declared, isSchema, listed⟩, made⟩
    exact ⟨res, declared, role, listed, isSchema ▸ made⟩
  · intro ⟨res, declared, role, listed, made⟩
    exact ⟨schemaOf res, ⟨res, declared, rfl⟩, role, ⟨res, declared, rfl, listed⟩, made⟩

theorem mem_connectSection_iff (d : Declaration) {statement : PgStatement} :
    statement ∈ connectSection d ↔ ∃ login ∈ d.loginList, ∃ role, GrantedInPostgres d role ∧
      login.reaches d role ∧ .grantConnect login.database (roleName role) = statement := by
  simp only [connectSection, List.mem_flatMap, mem_databases, List.mem_map, Text.mem_sortBy,
    List.mem_filter, decide_eq_true_eq, mem_rolesByDatabase, mem_postgresGrantRoles]
  constructor
  · intro connected
    rcases connected with ⟨_, _, role, ⟨granted, login, declared, isDatabase, reached⟩, made⟩
    exact ⟨login, declared, role, granted, reached, isDatabase ▸ made⟩
  · intro reaching
    rcases reaching with ⟨login, declared, role, granted, reached, made⟩
    exact ⟨login.database, ⟨login, declared, rfl⟩, role,
      ⟨granted, login, declared, rfl, reached⟩, made⟩

theorem mem_pgStatements_iff (d : Declaration) {statement : PgStatement} :
    statement ∈ pgStatements d ↔ Emitted d statement := by
  rw [pgStatements_eq]
  simp only [List.mem_append]
  constructor
  · intro member
    rcases member with ((inCreate | inInherit) | ((inSchema | inTable) | inSequence)) |
      (inLogin | (inBind | inConnect))
    · rcases List.mem_map.mp inCreate with ⟨r, listed, rfl⟩
      exact .createRole r ((Text.mem_sortBy _ _ _).mp listed)
    · rcases List.mem_flatMap.mp inInherit with ⟨r, listed, inParents⟩
      rcases List.mem_map.mp inParents with ⟨parent, isParent, rfl⟩
      exact .inherit r parent ((Text.mem_sortBy _ _ _).mp listed)
        ((Text.mem_sortBy _ _ _).mp isParent)
    · rcases (mem_perSchema_iff d).mp inSchema with ⟨res, declared, role, listed, rfl⟩
      exact .schemaUsage res role declared listed
    · simp only [tableSection, sortedGrants, List.mem_flatMap, List.mem_map, Text.mem_sortBy]
        at inTable
      rcases inTable with ⟨res, declared, grant, granted, role, listed, rfl⟩
      exact .table res grant role declared granted listed
    · rcases (mem_perSchema_iff d).mp inSequence with ⟨res, declared, role, listed, rfl⟩
      exact .sequences res role declared listed
    · split_ifs at inLogin with none
      · exact absurd inLogin List.not_mem_nil
      · rw [List.mem_singleton.mp inLogin]
        exact .createLogins none
    · simp only [bindingSection, sortedLogins, List.mem_flatMap, List.mem_map, Text.mem_sortBy]
        at inBind
      rcases inBind with ⟨login, declared, role, listed, rfl⟩
      exact .bind login role declared listed
    · rcases (mem_connectSection_iff d).mp inConnect with
        ⟨login, declared, role, granted, reached, rfl⟩
      exact .connect login role declared granted reached
  · intro emitted
    cases emitted with
    | createRole r declared =>
        refine Or.inl (Or.inl (Or.inl (List.mem_map.mpr ⟨r, ?_, rfl⟩)))
        exact (Text.mem_sortBy _ _ _).mpr declared
    | inherit r parent declared listed =>
        refine Or.inl (Or.inl (Or.inr (List.mem_flatMap.mpr ⟨r, ?_, ?_⟩)))
        · exact (Text.mem_sortBy _ _ _).mpr declared
        · exact List.mem_map.mpr ⟨parent, (Text.mem_sortBy _ _ _).mpr listed, rfl⟩
    | schemaUsage res role declared listed =>
        refine Or.inl (Or.inr (Or.inl (Or.inl ?_)))
        exact (mem_perSchema_iff d).mpr ⟨res, declared, role, listed, rfl⟩
    | table res grant role declared granted listed =>
        refine Or.inl (Or.inr (Or.inl (Or.inr ?_)))
        simp only [tableSection, sortedGrants, List.mem_flatMap, List.mem_map, Text.mem_sortBy]
        exact ⟨res, declared, grant, granted, role, listed, rfl⟩
    | sequences res role declared listed =>
        refine Or.inl (Or.inr (Or.inr ?_))
        exact (mem_perSchema_iff d).mpr ⟨res, declared, role, listed, rfl⟩
    | createLogins some =>
        refine Or.inr (Or.inl ?_)
        rw [if_neg some]
        exact List.mem_cons_self
    | bind login role declared listed =>
        refine Or.inr (Or.inr (Or.inl ?_))
        simp only [bindingSection, sortedLogins, List.mem_flatMap, List.mem_map, Text.mem_sortBy]
        exact ⟨login, declared, role, listed, rfl⟩
    | connect login role declared granted reached =>
        refine Or.inr (Or.inr (Or.inr ?_))
        exact (mem_connectSection_iff d).mpr ⟨login, declared, role, granted, reached, rfl⟩

/-! ## Reading the names of a checked declaration -/

theorem readNames_quoted {name rest : List Char} (free : '"' ∉ rest)
    (nonempty : name ++ rest ≠ []) :
    readNames (.quoted name) (rest ++ ['"']) = some [.quoted (String.ofList (name ++ rest))] := by
  induction rest generalizing name with
  | nil =>
      rw [List.append_nil] at nonempty ⊢
      rw [List.nil_append, readNames, if_pos rfl, readNames, if_neg nonempty]
  | cons c rest ih =>
      have other : c ≠ '"' := fun same => free (same ▸ List.mem_cons_self)
      rw [List.cons_append, readNames, if_neg other,
        ih (fun member => free (List.mem_cons_of_mem c member)) (by simp)]
      simp

theorem nameIn_identifier {s : String} (identifier : IsIdentifier s) :
    nameIn s = some (.bare s) := by
  rw [nameIn, readGrantee, readNames_name identifier]

theorem nameIn_login {name : String} (declared : LOGIN_NAME.test name = true) :
    nameIn (PgName.quoted name).text = some (.quoted name) := by
  rcases roleName_chars declared with ⟨nonempty, parts⟩
  have free : '"' ∉ name.toList := by
    intro member
    exact absurd (parts '"' member) (by decide)
  have text : (PgName.quoted name).text.toList = '"' :: (name.toList ++ ['"']) := by
    simp [PgName.text, toPgLoginIdentifier]
  have filled : [] ++ name.toList ≠ [] := by
    rw [List.nil_append]
    exact fun empty => nonempty (String.toList_inj.mp empty)
  rw [nameIn, readGrantee, text, readNames, if_pos rfl, readNames_quoted free filled,
    List.nil_append, String.ofList_toList]

theorem denotedTable_eq {schema table : String} (schemaId : IDENTIFIER.test schema = true)
    (tableId : IDENTIFIER.test table = true) :
    denotedTable (schema ++ "." ++ table) =
      some [Text.lowerAscii schema, Text.lowerAscii table] := by
  rw [denotedTable, readNames_qualified (isIdentifier_of_identifier schemaId)
    (isIdentifier_of_identifier tableId)]
  rfl

/-- Two tables are one where their names differ in case only. -/
theorem denotedTable_eq_iff {first second : String} (firstNamed : isSchemaTable first = true)
    (secondNamed : isSchemaTable second = true) :
    denotedTable first = denotedTable second ↔
      Text.lowerAscii first = Text.lowerAscii second := by
  rcases parts_of_isSchemaTable firstNamed with ⟨schema, table, schemaId, tableId, rfl⟩
  rcases parts_of_isSchemaTable secondNamed with ⟨other, otherTable, otherId, otherTableId, rfl⟩
  have lowered : ∀ schema table : String, (Text.lowerAscii (schema ++ "." ++ table)).toList =
      (Text.lowerAscii schema).toList ++ '.' :: (Text.lowerAscii table).toList := by
    intro schema table
    simp [Text.lowerAscii]
  have noDot : ∀ name : String, IDENTIFIER.test name = true →
    '.' ∉ (Text.lowerAscii name).toList := by
    intro name identifier member
    rw [Text.lowerAscii, String.toList_ofList, List.mem_map] at member
    rcases member with ⟨c, inName, isDot⟩
    have plain := isPlain_toLower ((identifier_chars identifier).2 c inName)
    rw [isDot] at plain
    exact absurd plain (by decide)
  rw [denotedTable_eq schemaId tableId, denotedTable_eq otherId otherTableId, ← String.toList_inj,
    lowered, lowered, List.append_cons_inj_of_notMem (noDot schema schemaId) (noDot table tableId)]
  simp [String.toList_inj]

namespace Checked

variable {d : Declaration} (checked : Checked d)
include checked

theorem nameIn_role {role : String} (known : role ∈ d.roleNames) :
    nameIn (PolicyCompiler.roleName role).text = some (.bare (toPgRole role)) := by
  rcases List.mem_map.mp known with ⟨r, declared, rfl⟩
  exact nameIn_identifier (isIdentifier_toPgRole (checked.roleName r declared))

theorem denotedName_role {role : String} (known : role ∈ d.roleNames) :
    denotedName (PolicyCompiler.roleName role).text = some (toPgRole role) := by
  rw [denotedName, checked.nameIn_role known, Option.map_some, PgName.stored, lowerAscii_toPgRole]

theorem denotedName_login {login : PgLogin} (declared : login ∈ d.loginList) :
    denotedName (PgName.quoted login.name).text = some login.name := by
  rw [denotedName, nameIn_login (checked.loginName login declared)]
  rfl

theorem denotedName_database {login : PgLogin} (declared : login ∈ d.loginList) :
    denotedName login.database = some (Text.lowerAscii login.database) := by
  rw [denotedName,
    nameIn_identifier (isIdentifier_of_identifier (checked.loginDatabase login declared))]
  rfl

/-- A role is everyone exactly where its name folds to that word. -/
theorem denotedGrantee_role {role : String} (known : role ∈ d.roleNames) :
    denotedGrantee (PolicyCompiler.roleName role).text = some .everyone ↔
      toPgRole role = "public" := by
  rw [denotedGrantee, checked.nameIn_role known, Option.map_some, PgName.grantee,
    lowerAscii_toPgRole]
  split_ifs with isPublic
  · exact iff_of_true rfl isPublic
  · exact iff_of_false nofun isPublic

theorem denotedGrantee_login {login : PgLogin} (declared : login ∈ d.loginList) :
    denotedGrantee (PgName.quoted login.name).text ≠ some .everyone := by
  rw [denotedGrantee, nameIn_login (checked.loginName login declared)]
  nofun

theorem known_of_granted {role : String} (granted : GrantedInPostgres d role) :
    role ∈ d.roleNames := by
  rcases granted with ⟨res, declared, _, grant, inGrants, inRoles⟩
  exact checked.grantRoleKnown res declared grant inGrants role inRoles

end Checked

theorem granted_of_grantRoles {d : Declaration} {res : Resource} {role : String}
    (declared : res ∈ postgresResources d) (listed : role ∈ grantRoles res) :
    GrantedInPostgres d role := by
  rcases (mem_postgresResources d res).mp declared with ⟨inResources, isPostgres⟩
  exact ⟨res, inResources, isPostgres, (mem_grantRoles res role).mp listed⟩

theorem grantRoles_of_insertRoles {res : Resource} {role : String}
    (listed : role ∈ insertRoles res) : role ∈ grantRoles res := by
  rcases (mem_insertRoles res role).mp listed with ⟨grant, inGrants, _, inRoles⟩
  exact (mem_grantRoles res role).mpr ⟨grant, inGrants, inRoles⟩

/-- Whom the grants of the script are made to. -/
theorem Emitted.grantee_cases {d : Declaration} {statement : PgStatement}
    (emitted : Emitted d statement) {grantee : PgName} (isGrantee : grantee ∈ statement.grantee?) :
    (∃ r ∈ d.roles, r.parents ≠ [] ∧ grantee = roleName r.name) ∨
      (∃ role, GrantedInPostgres d role ∧ grantee = roleName role) ∨
      ∃ login ∈ d.loginList, grantee = .quoted login.name := by
  cases emitted with
  | createRole r declared => cases isGrantee
  | inherit r parent declared listed =>
      cases isGrantee
      exact Or.inl ⟨r, declared, List.ne_nil_of_mem listed, rfl⟩
  | schemaUsage res role declared listed =>
      cases isGrantee
      exact Or.inr (Or.inl ⟨role, granted_of_grantRoles declared listed, rfl⟩)
  | table res grant role declared granted listed =>
      cases isGrantee
      have inRoles := (mem_grantRoles res role).mpr ⟨grant, granted, listed⟩
      exact Or.inr (Or.inl ⟨role, granted_of_grantRoles declared inRoles, rfl⟩)
  | sequences res role declared listed =>
      cases isGrantee
      have inRoles := grantRoles_of_insertRoles listed
      exact Or.inr (Or.inl ⟨role, granted_of_grantRoles declared inRoles, rfl⟩)
  | createLogins some => cases isGrantee
  | bind login role declared listed =>
      cases isGrantee
      exact Or.inr (Or.inr ⟨login, declared, rfl⟩)
  | connect login role declared granted reached =>
      cases isGrantee
      exact Or.inr (Or.inl ⟨role, granted, rfl⟩)

/-- A schema in the script is the schema of a granted table. -/
theorem Emitted.schema {d : Declaration} {statement : PgStatement}
    (emitted : Emitted d statement) {schema : String} (isSchema : schema ∈ statement.schema?) :
    ∃ res ∈ postgresResources d, res.IsGranted ∧ schemaOf res = schema := by
  have isGranted : ∀ {res : Resource} {role : String}, role ∈ grantRoles res → res.IsGranted := by
    intro res role listed
    rcases (mem_grantRoles res role).mp listed with ⟨grant, inGrants, inRoles⟩
    exact ⟨grant, inGrants, List.ne_nil_of_mem inRoles⟩
  cases emitted with
  | schemaUsage res role declared listed =>
      cases isSchema
      exact ⟨res, declared, isGranted listed, rfl⟩
  | sequences res role declared listed =>
      cases isSchema
      exact ⟨res, declared, isGranted (grantRoles_of_insertRoles listed), rfl⟩
  | _ => cases isSchema

/-! ## Names of accounts -/

namespace Checked

variable {d : Declaration} (checked : Checked d)
include checked

theorem created_denote {statement : PgStatement} (emitted : Emitted d statement)
    {create : GuardedCreate} (inCreates : create ∈ statement.creates) :
    denotedName create.identifier.text = some create.tested := by
  cases emitted with
  | createRole r declared =>
      rw [List.mem_singleton.mp inCreates]
      exact checked.denotedName_role (List.mem_map_of_mem declared)
  | createLogins some =>
      rcases List.mem_map.mp inCreates with ⟨login, listed, rfl⟩
      exact checked.denotedName_login ((Text.mem_sortBy _ _ _).mp listed)
  | _ => exact absurd inCreates List.not_mem_nil

theorem role_created {role : String} (known : role ∈ d.roleNames) :
    ∃ other ∈ pgStatements d, ∃ create ∈ other.creates,
      denotedName (PolicyCompiler.roleName role).text = some create.tested := by
  rcases List.mem_map.mp known with ⟨r, declared, rfl⟩
  exact ⟨_, (mem_pgStatements_iff d).mpr (.createRole r declared), _, List.mem_cons_self,
    checked.denotedName_role known⟩

theorem login_created {login : PgLogin} (declared : login ∈ d.loginList) :
    ∃ other ∈ pgStatements d, ∃ create ∈ other.creates,
      denotedName (PgName.quoted login.name).text = some create.tested := by
  have listed : login ∈ sortedLogins d := (Text.mem_sortBy _ _ _).mpr declared
  exact ⟨_, (mem_pgStatements_iff d).mpr (.createLogins (List.ne_nil_of_mem listed)), _,
    List.mem_map_of_mem listed, checked.denotedName_login declared⟩

theorem mentioned_denote {statement : PgStatement} (emitted : Emitted d statement)
    {name : PgName} (inRoles : name ∈ statement.roles) :
    ∃ other ∈ pgStatements d, ∃ create ∈ other.creates,
      denotedName name.text = some create.tested := by
  cases emitted with
  | createRole r declared => exact absurd inRoles List.not_mem_nil
  | createLogins some => exact absurd inRoles List.not_mem_nil
  | inherit r parent declared listed =>
      rcases List.mem_cons.mp inRoles with rfl | isMember
      · exact checked.role_created (checked.parentKnown r declared parent listed)
      · rw [List.mem_singleton.mp isMember]
        exact checked.role_created (List.mem_map_of_mem declared)
  | schemaUsage res role declared listed =>
      rw [List.mem_singleton.mp inRoles]
      exact checked.role_created (checked.known_of_granted (granted_of_grantRoles declared listed))
  | table res grant role declared granted listed =>
      rw [List.mem_singleton.mp inRoles]
      exact checked.role_created (checked.known_of_granted
        (granted_of_grantRoles declared ((mem_grantRoles res role).mpr ⟨grant, granted, listed⟩)))
  | sequences res role declared listed =>
      rw [List.mem_singleton.mp inRoles]
      exact checked.role_created (checked.known_of_granted
        (granted_of_grantRoles declared (grantRoles_of_insertRoles listed)))
  | bind login role declared listed =>
      rcases List.mem_cons.mp inRoles with rfl | isMember
      · exact checked.role_created (checked.memberKnown login declared role listed)
      · rw [List.mem_singleton.mp isMember]
        exact checked.login_created declared
  | connect login role declared granted reached =>
      rw [List.mem_singleton.mp inRoles]
      exact checked.role_created (checked.known_of_granted granted)

theorem schemaOf_eq {res : Resource} (declared : res ∈ postgresResources d) :
    ∃ table, IDENTIFIER.test (schemaOf res) = true ∧ IDENTIFIER.test table = true ∧
      res.resource = schemaOf res ++ "." ++ table := by
  have named := checked.schemaTable res ((mem_postgresResources d res).mp declared).1
  simp only [isSchemaTable, Bool.and_eq_true, decide_eq_true_eq, List.all_eq_true] at named
  rcases named with ⟨two, identifiers⟩
  rcases List.length_eq_two.mp two with ⟨schema, table, parts⟩
  rw [parts] at identifiers
  have isSchema : schemaOf res = schema := by
    rw [schemaOf, parts]
    rfl
  rw [isSchema]
  refine ⟨table, identifiers schema (by simp), identifiers table (by simp), ?_⟩
  rw [← Text.join_split '.' res.resource, parts, Text.join_pair]
  rfl

theorem denotedName_schema {res : Resource} (declared : res ∈ postgresResources d) :
    denotedName (schemaOf res) = some (Text.lowerAscii (schemaOf res)) := by
  rcases checked.schemaOf_eq declared with ⟨_, schemaId, _⟩
  rw [denotedName, nameIn_identifier (isIdentifier_of_identifier schemaId)]
  rfl

/-- Without folding every name denotes what is declared. -/
theorem namesDenote (unfolded : Unfolded d) : NamesDenote d where
  created := fun _ member _ => checked.created_denote ((mem_pgStatements_iff d).mp member)
  mentioned := fun _ member _ => checked.mentioned_denote ((mem_pgStatements_iff d).mp member)
  rolesDistinct := by
    intro role known other otherKnown differ same
    rw [checked.denotedName_role known, checked.denotedName_role otherKnown,
      Option.some.injEq] at same
    exact differ (checked.toPgRole_injective known otherKnown same)
  loginsDistinct := by
    intro login declared other otherDeclared differ same
    rw [checked.denotedName_login declared, checked.denotedName_login otherDeclared,
      Option.some.injEq] at same
    exact differ same
  accountsDistinct := by
    intro role known login declared same
    rw [checked.denotedName_role known, checked.denotedName_login declared,
      Option.some.injEq] at same
    exact checked.loginFresh login declared (same ▸ List.mem_map_of_mem known)
  tablesDistinct := by
    intro res declared other otherDeclared differ same
    have named := checked.schemaTable res ((mem_postgresResources d res).mp declared).1
    have otherNamed :=
      checked.schemaTable other ((mem_postgresResources d other).mp otherDeclared).1
    exact differ (unfolded.tables res declared other otherDeclared
      ((denotedTable_eq_iff named otherNamed).mp same))
  schemas := by
    intro statement member schema isSchema
    rcases ((mem_pgStatements_iff d).mp member).schema isSchema with
      ⟨res, declared, _, rfl⟩
    rcases checked.schemaOf_eq declared with ⟨table, schemaId, tableId, written⟩
    refine ⟨res, declared, rfl, Text.lowerAscii table, ?_⟩
    rw [written, denotedTable_eq schemaId tableId, checked.denotedName_schema declared]
    rfl
  schemasDistinct := by
    intro statement member other otherMember schema isSchema schema' isSchema' differ same
    rcases ((mem_pgStatements_iff d).mp member).schema isSchema with
      ⟨res, declared, granted, rfl⟩
    rcases ((mem_pgStatements_iff d).mp otherMember).schema isSchema' with
      ⟨res', declared', granted', rfl⟩
    rw [checked.denotedName_schema declared, checked.denotedName_schema declared',
      Option.some.injEq] at same
    exact differ (unfolded.schemas res declared res' declared' granted granted' same)
  databases := by
    intro database role member
    have emitted := (mem_pgStatements_iff d).mp member
    cases emitted with
    | connect login role declared granted reached =>
        rw [checked.denotedName_database declared,
          unfolded.databases login declared ⟨role, granted, reached⟩]
  grantees := by
    intro statement member grantee isGrantee
    rcases ((mem_pgStatements_iff d).mp member).grantee_cases isGrantee with
      ⟨r, declared, hasParents, rfl⟩ | ⟨role, granted, rfl⟩ | ⟨login, declared, rfl⟩
    · rw [Ne, checked.denotedGrantee_role (List.mem_map_of_mem declared)]
      exact fun isPublic => hasParents (unfolded.grantees r declared isPublic).1
    · have known := checked.known_of_granted granted
      rw [Ne, checked.denotedGrantee_role known]
      rcases List.mem_map.mp known with ⟨r, declared, rfl⟩
      exact fun isPublic => (unfolded.grantees r declared isPublic).2 granted
    · exact checked.denotedGrantee_login declared

/-- Each kind of folding makes some name denote something else. -/
theorem unfolded_of_namesDenote (denote : NamesDenote d) : Unfolded d where
  grantees := by
    intro r declared isPublic
    have isEveryone := (checked.denotedGrantee_role (List.mem_map_of_mem declared)).mpr isPublic
    constructor
    · by_contra hasParents
      rcases List.exists_mem_of_ne_nil _ hasParents with ⟨parent, listed⟩
      exact denote.grantees _ ((mem_pgStatements_iff d).mpr (.inherit r parent declared listed)) _
        rfl isEveryone
    · intro ⟨res, inResources, isPostgres, grant, granted, listed⟩
      have inPostgres := (mem_postgresResources d res).mpr ⟨inResources, isPostgres⟩
      exact denote.grantees _
        ((mem_pgStatements_iff d).mpr (.table res grant r.name inPostgres granted listed)) _
        rfl isEveryone
  tables := by
    intro res declared other otherDeclared sameFolded
    by_contra differ
    have named := checked.schemaTable res ((mem_postgresResources d res).mp declared).1
    have otherNamed :=
      checked.schemaTable other ((mem_postgresResources d other).mp otherDeclared).1
    exact denote.tablesDistinct res declared other otherDeclared differ
      ((denotedTable_eq_iff named otherNamed).mpr sameFolded)
  schemas := by
    intro res declared other otherDeclared granted otherGranted sameFolded
    have spliced : ∀ {res : Resource}, res ∈ postgresResources d → res.IsGranted →
        ∃ role, .grantSchemaUsage (schemaOf res) (PolicyCompiler.roleName role) ∈
          pgStatements d := by
      intro res declared ⟨grant, inGrants, someRole⟩
      rcases List.exists_mem_of_ne_nil _ someRole with ⟨role, inRoles⟩
      have listed := (mem_grantRoles res role).mpr ⟨grant, inGrants, inRoles⟩
      exact ⟨role, (mem_pgStatements_iff d).mpr (.schemaUsage res role declared listed)⟩
    by_contra differ
    rcases spliced declared granted with ⟨_, member⟩
    rcases spliced otherDeclared otherGranted with ⟨_, otherMember⟩
    apply denote.schemasDistinct _ member _ otherMember _ rfl _ rfl differ
    rw [checked.denotedName_schema declared, checked.denotedName_schema otherDeclared, sameFolded]
  databases := by
    intro login declared ⟨role, granted, reached⟩
    have denoted := denote.databases login.database (PolicyCompiler.roleName role)
      ((mem_pgStatements_iff d).mpr (.connect login role declared granted reached))
    rw [checked.denotedName_database declared, Option.some.injEq] at denoted
    exact denoted

end Checked

/-- The names in the script denote what is declared exactly where none of them is folded
into another. -/
theorem namesDenote_iff (d : Declaration) (valid : validateDeclaration d = []) :
    NamesDenote d ↔ Unfolded d :=
  ⟨(checked_of_valid valid).unfolded_of_namesDenote, (checked_of_valid valid).namesDenote⟩

theorem lakehouse_unfolded : Unfolded lakehouse where
  grantees := by
    have named : ∀ role ∈ lakehouse.roles, toPgRole role.name ≠ "public" := by decide
    exact fun role declared isPublic => absurd isPublic (named role declared)
  tables := by decide
  schemas := by
    have same : ∀ res ∈ postgresResources lakehouse, ∀ other ∈ postgresResources lakehouse,
        Text.lowerAscii (schemaOf res) = Text.lowerAscii (schemaOf other) →
          schemaOf res = schemaOf other := by decide
    exact fun res declared other otherDeclared _ _ => same res declared other otherDeclared
  databases := by
    have lower : ∀ login ∈ lakehouse.loginList,
        Text.lowerAscii login.database = login.database := by decide
    exact fun login declared _ => lower login declared

theorem namesDenote_lakehouse : NamesDenote lakehouse :=
  (namesDenote_iff lakehouse lakehouse_valid).mpr lakehouse_unfolded

/-- A role named like everyone, two tables and two schemas that differ in case, and a
database in mixed case. -/
def folding : Declaration where
  roles := [{ name := "Public" }]
  groups := []
  resources :=
    [{ resource := "shop.Orders", classification := .internal, engine := some .postgres
       grants := [readGrant ["Public"]] },
      { resource := "shop.orders", classification := .internal, engine := some .postgres
        grants := [] },
      { resource := "Shop.items", classification := .internal, engine := some .postgres
        grants := [readGrant ["Public"]] }]
  logins := some [{ name := "alice", memberOf := ["Public"], database := "Shop" }]

/-- The checks let all four pass. -/
theorem folding_misnames :
    validateDeclaration folding = [] ∧
      (∃ statement ∈ pgStatements folding, ∃ grantee ∈ statement.grantee?,
        denotedGrantee grantee.text = some .everyone) ∧
      denotedTable "shop.Orders" = denotedTable "shop.orders" ∧
      .grantSchemaUsage "shop" (roleName "Public") ∈ pgStatements folding ∧
      .grantSchemaUsage "Shop" (roleName "Public") ∈ pgStatements folding ∧
      denotedName "Shop" = denotedName "shop" ∧
      .grantConnect "Shop" (roleName "Public") ∈ pgStatements folding ∧
      denotedName "Shop" = some "shop" ∧ ¬NamesDenote folding := by
  have statement : .grantConnect "Shop" (roleName "Public") ∈ pgStatements folding := by
    decide +kernel
  have everyone : denotedGrantee (roleName "Public").text = some .everyone := by decide +kernel
  refine ⟨by decide +kernel, ⟨_, statement, _, rfl, everyone⟩, by decide +kernel,
    by decide +kernel, by decide +kernel, by decide +kernel, statement, by decide +kernel, ?_⟩
  exact fun denote => denote.grantees _ statement _ rfl everyone

end BelugaManager.PolicyCompiler
