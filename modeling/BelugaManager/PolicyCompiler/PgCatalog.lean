import BelugaManager.PolicyCompiler.PgDdl

/-!
# What the script does to a server

The statements as commands on a catalog of roles, and what declared roles and logins
hold once the script has run.
-/

namespace BelugaManager.PolicyCompiler

open Foundation

/-- A right on one object. The two sequence rights are for all sequences of a schema. -/
inductive PgRight where
  | table (privilege : Privilege) (table : String)
  | schemaUsage (schema : String)
  | sequenceUsage (schema : String)
  | sequenceSelect (schema : String)
  | connect (database : String)
  deriving DecidableEq, Repr

inductive PgObject where
  | table (name : String)
  | schema (name : String)
  | database (name : String)
  deriving DecidableEq, Repr

abbrev PgCommand := RoleCatalog.Command String PgRight PgObject

abbrev PgCatalog := RoleCatalog String PgRight PgObject

def GuardedCreate.command (create : GuardedCreate) : PgCommand :=
  .create create.tested create.identifier.stored create.canLogin

def PgStatement.commands : PgStatement → List PgCommand
  | .createRoles creates => creates.map GuardedCreate.command
  | .grantRole role member => [.enroll member.stored role.stored]
  | .grantSchemaUsage schema role => [.grant [.schemaUsage schema] (.schema schema) role.stored]
  | .grantTable privileges table role =>
      [.grant (privileges.map (.table · table)) (.table table) role.stored]
  | .grantSequences schema role =>
      [.grant [.sequenceUsage schema, .sequenceSelect schema] (.schema schema) role.stored]
  | .grantConnect database role => [.grant [.connect database] (.database database) role.stored]

/-- All commands of the script in order. -/
def pgCommands (d : Declaration) : List PgCommand :=
  (pgStatements d).flatMap PgStatement.commands

theorem lowerAscii_toPgRole (name : String) : Text.lowerAscii (toPgRole name) = toPgRole name := by
  rw [toPgRole, Text.lowerAscii_lowerAscii]

@[simp] theorem roleName_stored (role : String) : (roleName role).stored = toPgRole role :=
  lowerAscii_toPgRole role

@[simp] theorem quoted_stored (name : String) : (PgName.quoted name).stored = name := rfl

/-- The statements of all sections, with nothing left out. -/
def allStatements (d : Declaration) : List PgStatement :=
  createRoleSection d ++ inheritanceSection d ++
    (schemaSection d ++ tableSection d ++ sequenceSection d) ++
    (loginSection d ++ bindingSection d ++ connectSection d)

theorem statements_titled (title : String) (statements : List PgStatement) :
    (titled title statements).filterMap PgItem.statement? = statements := by
  show (statements.map PgItem.statement).filterMap PgItem.statement? = statements
  rw [List.filterMap_map]
  exact List.filterMap_some

theorem statements_connectItems (d : Declaration) :
    (connectItems d).filterMap PgItem.statement? = connectSection d := by
  rw [connectItems]
  split
  next => exact statements_titled _ _
  next without =>
    rw [not_and_or, not_not, not_not] at without
    rcases without with noRoles | noDatabases
    · simp [connectSection, noRoles]
    · simp [connectSection, noDatabases]

theorem statements_loginItems (d : Declaration) :
    (loginItems d).filterMap PgItem.statement? =
      (if sortedLogins d = [] then [] else loginSection d) ++
        (bindingSection d ++ connectSection d) := by
  rw [loginItems]
  split
  next none =>
    simp [bindingSection, connectSection, databases, rolesByDatabase, none,
      OrderedMap.collect, OrderedMap.accumulate, OrderedMap.keys]
  next =>
    simp only [List.filterMap_append, statements_titled, statements_connectItems,
      List.append_assoc]

/-- The section of logins is the only one that is not just empty without logins. -/
theorem pgStatements_eq (d : Declaration) :
    pgStatements d = createRoleSection d ++ inheritanceSection d ++
      (schemaSection d ++ tableSection d ++ sequenceSection d) ++
      ((if sortedLogins d = [] then [] else loginSection d) ++
        (bindingSection d ++ connectSection d)) := by
  simp only [pgStatements, pgItems, List.filterMap_append, statements_titled,
    statements_loginItems, List.filterMap_cons, List.filterMap_nil, PgItem.statement?,
    List.nil_append, List.append_nil]

/-- The sections that are left out would be empty. -/
theorem commands_allStatements (d : Declaration) :
    pgCommands d = (allStatements d).flatMap PgStatement.commands := by
  have logins : (if sortedLogins d = [] then [] else loginSection d).flatMap
      PgStatement.commands = (loginSection d).flatMap PgStatement.commands := by
    split
    next none => simp [loginSection, none, PgStatement.commands]
    next => rfl
  simp only [pgCommands, pgStatements_eq, allStatements, List.flatMap_append, logins,
    List.append_assoc]

/-! ## What the script mentions -/

/-- A role is listed for a right by the grants of PostgreSQL resources, or, for
connecting, by such a grant and by the roles of some login for the database. -/
def Listed (d : Declaration) (right : PgRight) (role : String) : Prop :=
  match right with
  | .table privilege table =>
      ∃ res ∈ d.resources, res.engine = some .postgres ∧ res.resource = table ∧
        ∃ grant ∈ res.grants, privilege ∈ grant.privileges ∧ role ∈ grant.roles
  | .schemaUsage schema =>
      ∃ res ∈ d.resources, res.engine = some .postgres ∧ schemaOf res = schema ∧
        ∃ grant ∈ res.grants, role ∈ grant.roles
  | .sequenceUsage schema | .sequenceSelect schema =>
      ∃ res ∈ d.resources, res.engine = some .postgres ∧ schemaOf res = schema ∧
        ∃ grant ∈ res.grants, .insert ∈ grant.privileges ∧ role ∈ grant.roles
  | .connect database =>
      (∃ res ∈ d.resources, res.engine = some .postgres ∧
        ∃ grant ∈ res.grants, role ∈ grant.roles) ∧
      ∃ login ∈ d.loginList, login.database = database ∧
        ∃ member ∈ login.memberOf, role ∈ expandRoles d member

theorem mem_postgresResources (d : Declaration) (res : Resource) :
    res ∈ postgresResources d ↔ res ∈ d.resources ∧ res.engine = some .postgres := by
  rw [postgresResources, Text.mem_sortBy, List.mem_filter, decide_eq_true_eq]

theorem mem_grantRoles (res : Resource) (role : String) :
    role ∈ grantRoles res ↔ ∃ grant ∈ res.grants, role ∈ grant.roles := by
  rw [grantRoles, List.mem_flatMap]

theorem mem_insertRoles (res : Resource) (role : String) :
    role ∈ insertRoles res ↔
      ∃ grant ∈ res.grants, .insert ∈ grant.privileges ∧ role ∈ grant.roles := by
  simp only [insertRoles, List.mem_flatMap, List.mem_filter, decide_eq_true_eq, and_assoc]

/-- The commands of a section of grants, one for each listed role. -/
theorem mem_commands_map {roles : List String} {statement : String → PgStatement}
    {rights : List PgRight} {object : PgObject} (command : PgCommand)
    (single : ∀ role, (statement role).commands = [.grant rights object (toPgRole role)]) :
    command ∈ ((Text.sortBy cmp roles).map statement).flatMap PgStatement.commands ↔
      ∃ role ∈ roles, command = .grant rights object (toPgRole role) := by
  simp only [List.mem_flatMap, List.mem_map, Text.mem_sortBy]
  constructor
  · intro member
    rcases member with ⟨_, ⟨role, listed, rfl⟩, ofStatement⟩
    rw [single, List.mem_singleton] at ofStatement
    exact ⟨role, listed, ofStatement⟩
  · intro member
    rcases member with ⟨role, listed, rfl⟩
    exact ⟨_, ⟨role, listed, rfl⟩, by rw [single, List.mem_singleton]⟩

/-- The schemas of the script are those of the resources. -/
theorem mem_schemas (d : Declaration) (schema : String) :
    schema ∈ schemas d ↔ ∃ res ∈ postgresResources d, schemaOf res = schema := by
  rw [schemas, Text.mem_sortBy, List.mem_eraseDups, List.mem_map]

theorem mem_createRoleSection (d : Declaration) (command : PgCommand) :
    command ∈ (createRoleSection d).flatMap PgStatement.commands ↔
      ∃ r ∈ d.roles, command = .create (toPgRole r.name) (toPgRole r.name) false := by
  simp [createRoleSection, sortedRoles, PgStatement.commands, GuardedCreate.command]

theorem mem_inheritanceSection (d : Declaration) (command : PgCommand) :
    command ∈ (inheritanceSection d).flatMap PgStatement.commands ↔
      ∃ r ∈ d.roles, ∃ parent ∈ r.parents,
        command = .enroll (toPgRole r.name) (toPgRole parent) := by
  simp only [inheritanceSection, sortedRoles, List.flatMap_assoc, List.flatMap_map,
    PgStatement.commands, roleName_stored, List.mem_flatMap, Text.mem_sortBy,
    List.mem_singleton]

theorem mem_tableSection (d : Declaration) (command : PgCommand) :
    command ∈ (tableSection d).flatMap PgStatement.commands ↔
      ∃ res ∈ postgresResources d, ∃ grant ∈ res.grants, ∃ role ∈ grant.roles,
        command = .grant ((sortedPrivileges grant).map (.table · res.resource))
          (.table res.resource) (toPgRole role) := by
  simp only [tableSection, sortedGrants, List.flatMap_assoc, List.flatMap_map,
    PgStatement.commands, roleName_stored, List.mem_flatMap, Text.mem_sortBy,
    List.mem_singleton]

/-- Schema usage and sequences are granted in the same way. -/
theorem mem_perSchema (d : Declaration) {values : Resource → List String}
    {statement : String → String → PgStatement} (rights : String → List PgRight)
    (command : PgCommand)
    (single : ∀ schema role, (statement schema role).commands =
      [.grant (rights schema) (.schema schema) (toPgRole role)]) :
    command ∈ ((schemas d).flatMap fun schema => (Text.sortBy cmp
        (((OrderedMap.collect schemaOf values (postgresResources d)).get? schema).getD [])).map
          (statement schema)).flatMap PgStatement.commands ↔
      ∃ res ∈ postgresResources d, ∃ role ∈ values res,
        command = .grant (rights (schemaOf res)) (.schema (schemaOf res)) (toPgRole role) := by
  simp only [List.flatMap_assoc, List.mem_flatMap (l := schemas d), mem_schemas,
    mem_commands_map command (single _), OrderedMap.mem_collect]
  constructor
  · intro member
    rcases member with ⟨_, _, role, ⟨res, declared, rfl, listed⟩, rfl⟩
    exact ⟨res, declared, role, listed, rfl⟩
  · intro member
    rcases member with ⟨res, declared, role, listed, rfl⟩
    exact ⟨schemaOf res, ⟨res, declared, rfl⟩, role, ⟨res, declared, rfl, listed⟩, rfl⟩

theorem mem_schemaSection (d : Declaration) (command : PgCommand) :
    command ∈ (schemaSection d).flatMap PgStatement.commands ↔
      ∃ res ∈ postgresResources d, ∃ role ∈ grantRoles res,
        command = .grant [.schemaUsage (schemaOf res)] (.schema (schemaOf res)) (toPgRole role) :=
  mem_perSchema d (fun schema => [.schemaUsage schema]) command
    fun _ _ => by rw [PgStatement.commands, roleName_stored]

theorem mem_sequenceSection (d : Declaration) (command : PgCommand) :
    command ∈ (sequenceSection d).flatMap PgStatement.commands ↔
      ∃ res ∈ postgresResources d, ∃ role ∈ insertRoles res,
        command = .grant [.sequenceUsage (schemaOf res), .sequenceSelect (schemaOf res)]
          (.schema (schemaOf res)) (toPgRole role) :=
  mem_perSchema d (fun schema => [.sequenceUsage schema, .sequenceSelect schema])
    command fun _ _ => by rw [PgStatement.commands, roleName_stored]

theorem mem_loginSection (d : Declaration) (command : PgCommand) :
    command ∈ (loginSection d).flatMap PgStatement.commands ↔
      ∃ login ∈ d.loginList, command = .create login.name login.name true := by
  simp [loginSection, sortedLogins, PgStatement.commands, GuardedCreate.command, PgName.stored,
    eq_comm]

theorem mem_bindingSection (d : Declaration) (command : PgCommand) :
    command ∈ (bindingSection d).flatMap PgStatement.commands ↔
      ∃ login ∈ d.loginList, ∃ role ∈ login.memberOf,
        command = .enroll login.name (toPgRole role) := by
  simp only [bindingSection, sortedLogins, List.flatMap_assoc, List.flatMap_map,
    PgStatement.commands, roleName_stored, quoted_stored, List.mem_flatMap, Text.mem_sortBy,
    List.mem_singleton]

theorem mem_databases (d : Declaration) (database : String) :
    database ∈ databases d ↔ ∃ login ∈ d.loginList, login.database = database := by
  simp only [databases, rolesByDatabase, sortedLogins, Text.mem_sortBy,
    OrderedMap.mem_keys_collect]

theorem mem_rolesByDatabase (d : Declaration) (database role : String) :
    role ∈ ((rolesByDatabase d).get? database).getD [] ↔
      ∃ login ∈ d.loginList, login.database = database ∧
        ∃ member ∈ login.memberOf, role ∈ expandRoles d member := by
  simp only [rolesByDatabase, sortedLogins, OrderedMap.mem_collect, Text.mem_sortBy,
    List.mem_flatMap]

theorem mem_connectSection (d : Declaration) (command : PgCommand) :
    command ∈ (connectSection d).flatMap PgStatement.commands ↔
      ∃ login ∈ d.loginList, ∃ role ∈ postgresGrantRoles d,
        (∃ member ∈ login.memberOf, role ∈ expandRoles d member) ∧
          command = .grant [.connect login.database] (.database login.database)
            (toPgRole role) := by
  have single : ∀ database role, (PgStatement.grantConnect database (roleName role)).commands =
      [.grant [.connect database] (.database database) (toPgRole role)] := by
    intro database role
    rw [PgStatement.commands, roleName_stored]
  rw [connectSection, List.flatMap_assoc, List.mem_flatMap]
  simp only [mem_commands_map command (single _), List.mem_filter, decide_eq_true_eq,
    mem_databases, mem_rolesByDatabase]
  constructor
  · intro member
    rcases member with ⟨_, _, role, ⟨granted, login, declared, rfl, reaches⟩, rfl⟩
    exact ⟨login, declared, role, granted, reaches, rfl⟩
  · intro member
    rcases member with ⟨login, declared, role, granted, reaches, rfl⟩
    exact ⟨login.database, ⟨login, declared, rfl⟩, role,
      ⟨granted, login, declared, rfl, reaches⟩, rfl⟩

theorem mem_postgresGrantRoles (d : Declaration) (role : String) :
    role ∈ postgresGrantRoles d ↔ ∃ res ∈ d.resources, res.engine = some .postgres ∧
      ∃ grant ∈ res.grants, role ∈ grant.roles := by
  simp only [postgresGrantRoles, List.mem_eraseDups, List.mem_flatMap, mem_postgresResources,
    mem_grantRoles, and_assoc]

/-- Every command of the script belongs to one of the sections. -/
theorem mem_pgCommands (d : Declaration) (command : PgCommand) :
    command ∈ pgCommands d ↔
      (command ∈ (createRoleSection d).flatMap PgStatement.commands ∨
        command ∈ (inheritanceSection d).flatMap PgStatement.commands) ∨
      (command ∈ (schemaSection d).flatMap PgStatement.commands ∨
        command ∈ (tableSection d).flatMap PgStatement.commands ∨
        command ∈ (sequenceSection d).flatMap PgStatement.commands) ∨
      command ∈ (loginSection d).flatMap PgStatement.commands ∨
        command ∈ (bindingSection d).flatMap PgStatement.commands ∨
        command ∈ (connectSection d).flatMap PgStatement.commands := by
  simp only [commands_allStatements, allStatements, List.flatMap_append, List.mem_append, or_assoc]

theorem mem_created_pgCommands (d : Declaration) (name : String) :
    name ∈ RoleCatalog.created (pgCommands d) ↔
      name ∈ d.roleNames.map toPgRole ∨ name ∈ d.loginList.map PgLogin.name := by
  simp only [RoleCatalog.mem_created, mem_pgCommands, mem_createRoleSection,
    mem_inheritanceSection, mem_schemaSection, mem_tableSection, mem_sequenceSection,
    mem_loginSection, mem_bindingSection, mem_connectSection, RoleCatalog.Command.create.injEq,
    reduceCtorEq, and_false, exists_false, or_false, false_or, Declaration.roleNames,
    List.map_map, List.mem_map]
  constructor
  · intro member
    rcases member with ⟨_, _, ⟨r, declared, _, rfl, _⟩ | ⟨login, declared, _, rfl, _⟩⟩
    · exact Or.inl ⟨r, declared, rfl⟩
    · exact Or.inr ⟨login, declared, rfl⟩
  · intro member
    rcases member with ⟨r, declared, rfl⟩ | ⟨login, declared, rfl⟩
    · exact ⟨_, false, Or.inl ⟨r, declared, rfl, rfl, rfl⟩⟩
    · exact ⟨_, true, Or.inr ⟨login, declared, rfl, rfl, rfl⟩⟩

theorem mem_enrolled_pgCommands (d : Declaration) (member role : String) :
    (member, role) ∈ RoleCatalog.enrolled (pgCommands d) ↔
      (∃ r ∈ d.roles, ∃ parent ∈ r.parents,
        member = toPgRole r.name ∧ role = toPgRole parent) ∨
      ∃ login ∈ d.loginList, ∃ listed ∈ login.memberOf,
        member = login.name ∧ role = toPgRole listed := by
  simp only [RoleCatalog.mem_enrolled, mem_pgCommands, mem_createRoleSection,
    mem_inheritanceSection, mem_schemaSection, mem_tableSection, mem_sequenceSection,
    mem_loginSection, mem_bindingSection, mem_connectSection, RoleCatalog.Command.enroll.injEq,
    reduceCtorEq, and_false, exists_false, or_false, false_or]

theorem mem_granted_pgCommands (d : Declaration) (right : PgRight) (grantee : String) :
    (right, grantee) ∈ RoleCatalog.granted (pgCommands d) ↔
      ∃ role, grantee = toPgRole role ∧ Listed d right role := by
  simp only [RoleCatalog.mem_granted, mem_pgCommands, mem_createRoleSection,
    mem_inheritanceSection, mem_schemaSection, mem_tableSection, mem_sequenceSection,
    mem_loginSection, mem_bindingSection, mem_connectSection, RoleCatalog.Command.grant.injEq,
    reduceCtorEq, and_false, exists_false, or_false, false_or]
  simp only [mem_postgresResources, mem_grantRoles, mem_insertRoles]
  constructor
  · intro member
    rcases member with ⟨_, _,
      (⟨res, declared, role, listed, rfl, _, rfl⟩ |
        ⟨res, declared, grant, inGrants, role, listed, rfl, _, rfl⟩ |
        ⟨res, declared, role, listed, rfl, _, rfl⟩) |
      ⟨login, declared, role, granted, reached, rfl, _, rfl⟩, inRights⟩
    · rw [List.mem_singleton] at inRights
      subst inRights
      exact ⟨role, rfl, res, declared.1, declared.2, rfl, listed⟩
    · rcases List.mem_map.mp inRights with ⟨privilege, inPrivileges, rfl⟩
      rw [sortedPrivileges, Text.mem_sortBy] at inPrivileges
      exact ⟨role, rfl, res, declared.1, declared.2, rfl, grant, inGrants, inPrivileges, listed⟩
    · simp only [List.mem_cons, List.not_mem_nil, or_false] at inRights
      rcases inRights with rfl | rfl
      · exact ⟨role, rfl, res, declared.1, declared.2, rfl, listed⟩
      · exact ⟨role, rfl, res, declared.1, declared.2, rfl, listed⟩
    · rw [List.mem_singleton] at inRights
      subst inRights
      rw [mem_postgresGrantRoles] at granted
      exact ⟨role, rfl, granted, login, declared, rfl, reached⟩
  · intro member
    rcases member with ⟨role, rfl, listed⟩
    cases right with
    | table privilege table =>
        rcases listed with ⟨res, declared, engine, rfl, grant, inGrants, inPrivileges, inRoles⟩
        refine ⟨_, _, Or.inl (Or.inr (Or.inl
          ⟨res, ⟨declared, engine⟩, grant, inGrants, role, inRoles, rfl, rfl, rfl⟩)), ?_⟩
        refine List.mem_map.mpr ⟨privilege, ?_, rfl⟩
        rw [sortedPrivileges, Text.mem_sortBy]
        exact inPrivileges
    | schemaUsage schema =>
        rcases listed with ⟨res, declared, engine, rfl, listed⟩
        exact ⟨_, _, Or.inl (Or.inl ⟨res, ⟨declared, engine⟩, role, listed, rfl, rfl, rfl⟩),
          List.mem_cons_self⟩
    | sequenceUsage schema =>
        rcases listed with ⟨res, declared, engine, rfl, listed⟩
        exact ⟨_, _, Or.inl (Or.inr (Or.inr
          ⟨res, ⟨declared, engine⟩, role, listed, rfl, rfl, rfl⟩)), List.mem_cons_self⟩
    | sequenceSelect schema =>
        rcases listed with ⟨res, declared, engine, rfl, listed⟩
        exact ⟨_, _, Or.inl (Or.inr (Or.inr
          ⟨res, ⟨declared, engine⟩, role, listed, rfl, rfl, rfl⟩)),
          List.mem_cons_of_mem _ List.mem_cons_self⟩
    | connect database =>
        rcases listed with ⟨granted, login, declared, rfl, reached⟩
        rw [← mem_postgresGrantRoles] at granted
        exact ⟨_, _, Or.inr ⟨login, declared, role, granted, reached, rfl, rfl, rfl⟩,
          List.mem_cons_self⟩

/-! ## The script is well ordered -/

/-- Listed roles are declared. -/
theorem Checked.known_of_listed {d : Declaration} (checked : Checked d) {right : PgRight}
    {role : String} (listed : Listed d right role) : role ∈ d.roleNames := by
  have known := checked.grantRoleKnown
  cases right with
  | table privilege table =>
      rcases listed with ⟨res, declared, _, _, grant, inGrants, _, inRoles⟩
      exact known res declared grant inGrants role inRoles
  | schemaUsage schema =>
      rcases listed with ⟨res, declared, _, _, grant, inGrants, inRoles⟩
      exact known res declared grant inGrants role inRoles
  | sequenceUsage schema =>
      rcases listed with ⟨res, declared, _, _, grant, inGrants, _, inRoles⟩
      exact known res declared grant inGrants role inRoles
  | sequenceSelect schema =>
      rcases listed with ⟨res, declared, _, _, grant, inGrants, _, inRoles⟩
      exact known res declared grant inGrants role inRoles
  | connect database =>
      rcases listed with ⟨⟨res, declared, _, grant, inGrants, inRoles⟩, _⟩
      exact known res declared grant inGrants role inRoles

section Membership

variable {d : Declaration} (checked : Checked d)
include checked

theorem Checked.includes_known {name parent : String} (_ : name ∈ d.roleNames)
    (edge : Graph.Edge (includesOf d) name parent) : parent ∈ d.roleNames := by
  rcases mem_includesOf edge with ⟨r, declared, _, listed⟩
  exact checked.parentKnown r declared parent listed

/-- The memberships of a role in the script are what the role includes. -/
theorem Checked.edge_toPgRole {name : String} (known : name ∈ d.roleNames) (other : String) :
    Graph.Edge (RoleCatalog.rolesOf (RoleCatalog.enrolled (pgCommands d))) (toPgRole name) other ↔
      ∃ parent, Graph.Edge (includesOf d) name parent ∧ other = toPgRole parent := by
  rw [Graph.Edge, RoleCatalog.mem_rolesOf, mem_enrolled_pgCommands]
  constructor
  · intro edge
    rcases edge with ⟨r, declared, parent, listed, same, rfl⟩ |
      ⟨login, declared, listed, _, same, _⟩
    · have sameName := checked.toPgRole_injective known (List.mem_map_of_mem declared) same
      refine ⟨parent, ?_, rfl⟩
      rw [sameName, Graph.Edge, includesOf_of_nodup checked.roleNames_nodup declared]
      exact listed
    · exact absurd (List.mem_map.mpr ⟨name, known, same⟩) (checked.loginFresh login declared)
  · intro edge
    rcases edge with ⟨parent, edge, rfl⟩
    rcases mem_includesOf edge with ⟨r, declared, rfl, listed⟩
    exact Or.inl ⟨r, declared, parent, listed, rfl, rfl⟩

/-- Paths between roles in the script are paths between declared roles. -/
theorem Checked.reaches_toPgRole {name : String} (known : name ∈ d.roleNames) (other : String) :
    Graph.Reaches (RoleCatalog.rolesOf (RoleCatalog.enrolled (pgCommands d)))
        (toPgRole name) other ↔
      ∃ role ∈ expandRoles d name, other = toPgRole role := by
  rw [Graph.reaches_image_iff (· ∈ d.roleNames)
    (fun _ here _ edge => checked.includes_known here edge)
    (fun _ here other => checked.edge_toPgRole here other) known]
  simp only [mem_expandRoles]
  constructor
  · intro path
    rcases path with ⟨role, path, _, rfl⟩
    exact ⟨role, path, rfl⟩
  · intro path
    rcases path with ⟨role, path, rfl⟩
    exact ⟨role, path, checked.expandRoles_known known ((mem_expandRoles ..).mpr path), rfl⟩

/-- A login is directly a member of the roles its entries list. -/
theorem Checked.edge_login {login : PgLogin} (declared : login ∈ d.loginList) (other : String) :
    Graph.Edge (RoleCatalog.rolesOf (RoleCatalog.enrolled (pgCommands d))) login.name other ↔
      ∃ entry ∈ d.loginList, entry.name = login.name ∧
        ∃ role ∈ entry.memberOf, other = toPgRole role := by
  rw [Graph.Edge, RoleCatalog.mem_rolesOf, mem_enrolled_pgCommands]
  constructor
  · intro edge
    rcases edge with ⟨r, roleDeclared, _, _, same, _⟩ | ⟨entry, entered, role, listed, same, rfl⟩
    · have taken : login.name ∈ d.roleNames.map toPgRole := by
        rw [same]
        exact List.mem_map_of_mem (List.mem_map_of_mem roleDeclared)
      exact absurd taken (checked.loginFresh login declared)
    · exact ⟨entry, entered, same.symm, role, listed, rfl⟩
  · intro edge
    rcases edge with ⟨entry, entered, same, role, listed, rfl⟩
    exact Or.inr ⟨entry, entered, role, listed, same.symm, rfl⟩

/-- Every membership of the script leads to the PostgreSQL role of a declared role. -/
theorem Checked.edge_to_role {member other : String}
    (edge : Graph.Edge (RoleCatalog.rolesOf (RoleCatalog.enrolled (pgCommands d))) member other) :
    ∃ name ∈ d.roleNames, other = toPgRole name := by
  rw [Graph.Edge, RoleCatalog.mem_rolesOf, mem_enrolled_pgCommands] at edge
  rcases edge with ⟨r, declared, parent, listed, _, rfl⟩ | ⟨login, declared, role, listed, _, rfl⟩
  · exact ⟨parent, checked.parentKnown r declared parent listed, rfl⟩
  · exact ⟨role, checked.memberKnown login declared role listed, rfl⟩

/-- A circle in the script would end, and so start, at a role, and its image in the
declaration would be a circle of `includes`. -/
theorem Checked.enrolled_acyclic :
    Graph.Acyclic (RoleCatalog.rolesOf (RoleCatalog.enrolled (pgCommands d))) := by
  intro start circle
  rcases Relation.TransGen.tail'_iff.mp circle with ⟨last, _, edge⟩
  rcases checked.edge_to_role edge with ⟨name, known, rfl⟩
  rcases Graph.properlyReaches_image (· ∈ d.roleNames)
    (fun _ here _ edge => checked.includes_known here edge)
    (fun _ here other => checked.edge_toPgRole here other) known circle with
    ⟨role, path, roleKnown, same⟩
  have sameName := checked.toPgRole_injective known roleKnown same
  exact checked.acyclic name (sameName ▸ path)

end Membership

end BelugaManager.PolicyCompiler
