import BelugaManager.PolicyCompiler.PgCatalog

/-!
# Who holds what in PostgreSQL

A valid declaration's script runs through on a server that has the objects and none
of the accounts, a second run changes nothing, and afterwards declared roles and
logins hold what the declaration lists for the roles they inherit.
-/

namespace BelugaManager.PolicyCompiler

open Foundation

/-! ## Accounts come first -/

section Order

variable {d : Declaration} (checked : Checked d)

theorem toPgRole_created {name : String} (known : name ∈ d.roleNames) :
    toPgRole name ∈
      RoleCatalog.created ((createRoleSection d).flatMap PgStatement.commands) := by
  rcases List.mem_map.mp known with ⟨r, declared, rfl⟩
  rw [RoleCatalog.mem_created]
  exact ⟨_, _, (mem_createRoleSection d _).mpr ⟨r, declared, rfl⟩⟩

theorem login_created {login : PgLogin} (declared : login ∈ d.loginList) :
    login.name ∈ RoleCatalog.created ((loginSection d).flatMap PgStatement.commands) := by
  rw [RoleCatalog.mem_created]
  exact ⟨_, _, (mem_loginSection d _).mpr ⟨login, declared, rfl⟩⟩

include checked

/-- The grants of the first half mention roles only. -/
theorem Checked.mentions_role {command : PgCommand}
    (member : command ∈ (inheritanceSection d).flatMap PgStatement.commands ∨
      command ∈ (schemaSection d).flatMap PgStatement.commands ∨
      command ∈ (tableSection d).flatMap PgStatement.commands ∨
      command ∈ (sequenceSection d).flatMap PgStatement.commands)
    {name : String} (mentioned : name ∈ command.mentions) :
    ∃ role ∈ d.roleNames, name = toPgRole role := by
  simp only [mem_inheritanceSection, mem_schemaSection, mem_tableSection, mem_sequenceSection,
    mem_postgresResources, mem_grantRoles, mem_insertRoles] at member
  rcases member with ⟨r, declared, parent, listed, rfl⟩ |
    ⟨res, declared, role, ⟨grant, inGrants, inRoles⟩, rfl⟩ |
    ⟨res, declared, grant, inGrants, role, inRoles, rfl⟩ |
    ⟨res, declared, role, ⟨grant, inGrants, _, inRoles⟩, rfl⟩
  · simp only [RoleCatalog.Command.mentions, List.mem_cons, List.not_mem_nil, or_false]
      at mentioned
    rcases mentioned with rfl | rfl
    · exact ⟨r.name, List.mem_map_of_mem declared, rfl⟩
    · exact ⟨parent, checked.parentKnown r declared parent listed, rfl⟩
  · exact ⟨role, checked.grantRoleKnown res declared.1 grant inGrants role inRoles,
      List.mem_singleton.mp mentioned⟩
  · exact ⟨role, checked.grantRoleKnown res declared.1 grant inGrants role inRoles,
      List.mem_singleton.mp mentioned⟩
  · exact ⟨role, checked.grantRoleKnown res declared.1 grant inGrants role inRoles,
      List.mem_singleton.mp mentioned⟩

/-- The grants of the second half mention roles and logins. -/
theorem Checked.mentions_account {command : PgCommand}
    (member : command ∈ (bindingSection d).flatMap PgStatement.commands ∨
      command ∈ (connectSection d).flatMap PgStatement.commands)
    {name : String} (mentioned : name ∈ command.mentions) :
    (∃ role ∈ d.roleNames, name = toPgRole role) ∨ ∃ login ∈ d.loginList, name = login.name := by
  simp only [mem_bindingSection, mem_connectSection, mem_postgresGrantRoles] at member
  rcases member with ⟨login, declared, role, listed, rfl⟩ |
    ⟨login, declared, role, ⟨res, resDeclared, _, grant, inGrants, inRoles⟩, _, rfl⟩
  · simp only [RoleCatalog.Command.mentions, List.mem_cons, List.not_mem_nil, or_false]
      at mentioned
    rcases mentioned with rfl | rfl
    · exact Or.inr ⟨login, declared, rfl⟩
    · exact Or.inl ⟨role, checked.memberKnown login declared role listed, rfl⟩
  · exact Or.inl ⟨role, checked.grantRoleKnown res resDeclared grant inGrants role inRoles,
      List.mem_singleton.mp mentioned⟩

/-- Sections that create are followed by sections that grant, twice. -/
theorem Checked.declaredFirst_pgCommands : RoleCatalog.DeclaredFirst [] (pgCommands d) := by
  have noMentions : ∀ creates : List PgCommand,
      (∀ command ∈ creates, command.mentions = []) →
      ∀ known, RoleCatalog.DeclaredFirst known creates := by
    intro creates none known
    apply RoleCatalog.declaredFirst_of_known
    intro command member name mentioned
    rw [none command member] at mentioned
    exact absurd mentioned List.not_mem_nil
  have roles := noMentions ((createRoleSection d).flatMap PgStatement.commands) (by
    intro command member
    rcases (mem_createRoleSection d command).mp member with ⟨r, _, rfl⟩
    rfl)
  have logins := noMentions ((loginSection d).flatMap PgStatement.commands) (by
    intro command member
    rcases (mem_loginSection d command).mp member with ⟨login, _, rfl⟩
    rfl)
  have split : pgCommands d =
      ((createRoleSection d).flatMap PgStatement.commands ++
        (inheritanceSection d ++ (schemaSection d ++ tableSection d ++ sequenceSection d)).flatMap
          PgStatement.commands) ++
      ((loginSection d).flatMap PgStatement.commands ++
        (bindingSection d ++ connectSection d).flatMap PgStatement.commands) := by
    rw [commands_allStatements, allStatements]
    simp only [List.flatMap_append, List.append_assoc]
  rw [split]
  refine ((roles []).append (RoleCatalog.declaredFirst_of_known ?_)).append
    ((logins _).append (RoleCatalog.declaredFirst_of_known ?_))
  · intro command member name mentioned
    simp only [List.flatMap_append, List.mem_append, or_assoc] at member
    rcases checked.mentions_role member mentioned with ⟨role, known, rfl⟩
    exact toPgRole_created known
  · intro command member name mentioned
    rw [List.flatMap_append, List.mem_append] at member
    rcases checked.mentions_account member mentioned with ⟨role, known, rfl⟩ |
      ⟨login, declared, rfl⟩
    · apply List.mem_append_left
      rw [List.nil_append, RoleCatalog.created_append]
      exact List.mem_append_left _ (toPgRole_created known)
    · exact List.mem_append_right _ (login_created declared)

theorem Checked.wellOrdered_pgCommands : RoleCatalog.WellOrdered (pgCommands d) where
  tests tested name canLogin member := by
    simp only [mem_pgCommands, mem_createRoleSection, mem_inheritanceSection, mem_schemaSection,
      mem_tableSection, mem_sequenceSection, mem_loginSection, mem_bindingSection,
      mem_connectSection, RoleCatalog.Command.create.injEq, reduceCtorEq, and_false,
      exists_false, or_false, false_or] at member
    rcases member with ⟨r, _, rfl, rfl, _⟩ | ⟨login, _, rfl, rfl, _⟩
    · rfl
    · rfl
  declaredFirst before command after split name mentioned := by
    rcases checked.declaredFirst_pgCommands before command after split name mentioned with
      nothing | created
    · exact absurd nothing List.not_mem_nil
    · exact created
  acyclic := checked.enrolled_acyclic

end Order

/-- The server has the objects that the declaration names and none of its accounts. -/
structure ReadyFor (d : Declaration) (start : PgCatalog) : Prop where
  rolesFresh : ∀ name ∈ d.roleNames, toPgRole name ∉ start.names
  loginsFresh : ∀ login ∈ d.loginList, login.name ∉ start.names
  schemas : ∀ res ∈ d.resources, res.engine = some .postgres →
    PgObject.schema (schemaOf res) ∈ start.objects
  tables : ∀ res ∈ d.resources, res.engine = some .postgres →
    PgObject.table res.resource ∈ start.objects
  databases : ∀ login ∈ d.loginList, PgObject.database login.database ∈ start.objects

section Server

variable {d : Declaration} {start : PgCatalog} (ready : ReadyFor d start)
include ready

theorem ReadyFor.fresh : ∀ name ∈ RoleCatalog.created (pgCommands d), name ∉ start.names := by
  intro name created
  rcases (mem_created_pgCommands d name).mp created with isRole | isLogin
  · rcases List.mem_map.mp isRole with ⟨role, known, rfl⟩
    exact ready.rolesFresh role known
  · rcases List.mem_map.mp isLogin with ⟨login, declared, rfl⟩
    exact ready.loginsFresh login declared

theorem ReadyFor.objects : ∀ command ∈ pgCommands d, ∀ object ∈ command.object?,
    object ∈ start.objects := by
  intro command member object needed
  simp only [mem_pgCommands, mem_createRoleSection, mem_inheritanceSection, mem_schemaSection,
    mem_tableSection, mem_sequenceSection, mem_loginSection, mem_bindingSection,
    mem_connectSection, mem_postgresResources] at member
  rcases member with (⟨_, _, rfl⟩ | ⟨_, _, _, _, rfl⟩) |
    (⟨res, declared, _, _, rfl⟩ | ⟨res, declared, _, _, _, _, rfl⟩ | ⟨res, declared, _, _, rfl⟩) |
    ⟨_, _, rfl⟩ | ⟨_, _, _, _, rfl⟩ | ⟨login, declared, _, _, _, rfl⟩
  · simp [RoleCatalog.Command.object?] at needed
  · simp [RoleCatalog.Command.object?] at needed
  · cases needed
    exact ready.schemas res declared.1 declared.2
  · cases needed
    exact ready.tables res declared.1 declared.2
  · cases needed
    exact ready.schemas res declared.1 declared.2
  · simp [RoleCatalog.Command.object?] at needed
  · simp [RoleCatalog.Command.object?] at needed
  · cases needed
    exact ready.databases login declared

end Server

/-! ## Rights after the script -/

section Rights

variable {d : Declaration} (checked : Checked d) {start final : PgCatalog}
  (ready : ReadyFor d start) (after : RoleCatalog.After start (pgCommands d) final)
include checked ready after

/-- A declared role holds what is listed for the roles it inherits. -/
theorem Checked.role_holds_iff {name : String} (known : name ∈ d.roleNames) (right : PgRight) :
    final.Holds (toPgRole name) right ↔ ∃ role ∈ expandRoles d name, Listed d right role := by
  have isNew : toPgRole name ∈ RoleCatalog.created (pgCommands d) :=
    (mem_created_pgCommands d _).mpr (Or.inl (List.mem_map_of_mem known))
  rw [after.holds_iff checked.wellOrdered_pgCommands ready.fresh isNew]
  simp only [checked.reaches_toPgRole known, mem_granted_pgCommands]
  constructor
  · intro holds
    rcases holds with ⟨_, ⟨role, inherited, rfl⟩, other, same, listed⟩
    have sameRole := checked.toPgRole_injective (checked.expandRoles_known known inherited)
      (checked.known_of_listed listed) same
    exact ⟨role, inherited, sameRole ▸ listed⟩
  · intro holds
    rcases holds with ⟨role, inherited, listed⟩
    exact ⟨toPgRole role, ⟨role, inherited, rfl⟩, role, rfl, listed⟩

/-- A login holds what the roles of its entries hold. -/
theorem Checked.login_holds_iff {login : PgLogin} (declared : login ∈ d.loginList)
    (right : PgRight) :
    final.Holds login.name right ↔ ∃ entry ∈ d.loginList, entry.name = login.name ∧
      ∃ role ∈ entry.memberOf, final.Holds (toPgRole role) right := by
  have isNew : login.name ∈ RoleCatalog.created (pgCommands d) :=
    (mem_created_pgCommands d _).mpr (Or.inr (List.mem_map_of_mem declared))
  have roleNew : ∀ name ∈ d.roleNames, toPgRole name ∈ RoleCatalog.created (pgCommands d) :=
    fun name known =>
      (mem_created_pgCommands d _).mpr (Or.inl (List.mem_map_of_mem known))
  have ordered := checked.wellOrdered_pgCommands
  rw [after.holds_iff ordered ready.fresh isNew]
  constructor
  · intro holds
    rcases holds with ⟨holder, path, listed⟩
    rcases Relation.ReflTransGen.cases_head path with rfl | ⟨next, edge, rest⟩
    · -- nothing is granted to a login itself
      rcases (mem_granted_pgCommands d _ _).mp listed with ⟨role, same, ofRole⟩
      have taken : login.name ∈ d.roleNames.map toPgRole := by
        rw [same]
        exact List.mem_map_of_mem (checked.known_of_listed ofRole)
      exact absurd taken (checked.loginFresh login declared)
    · rcases (checked.edge_login declared next).mp edge with
        ⟨entry, entered, same, role, listed', rfl⟩
      have known := checked.memberKnown entry entered role listed'
      refine ⟨entry, entered, same, role, listed', ?_⟩
      exact (after.holds_iff ordered ready.fresh (roleNew role known) right).mpr
        ⟨holder, rest, listed⟩
  · intro holds
    rcases holds with ⟨entry, entered, same, role, listed, holds⟩
    have known := checked.memberKnown entry entered role listed
    rcases (after.holds_iff ordered ready.fresh (roleNew role known) right).mp holds with
      ⟨holder, path, ofHolder⟩
    have edge := (checked.edge_login declared (toPgRole role)).mpr
      ⟨entry, entered, same, role, listed, rfl⟩
    exact ⟨holder, .head edge path, ofHolder⟩

end Rights

/-- A table right is listed by the grants of the one resource of that name. -/
theorem Checked.listed_table_iff {d : Declaration} (checked : Checked d) {res : Resource}
    (declared : res ∈ d.resources) (isPostgres : res.engine = some .postgres)
    (privilege : Privilege) (role : String) :
    Listed d (.table privilege res.resource) role ↔
      ∃ grant ∈ res.grants, privilege ∈ grant.privileges ∧ role ∈ grant.roles := by
  constructor
  · intro listed
    rcases listed with ⟨other, otherDeclared, otherPostgres, sameName, granted⟩
    have same := checked.resource_unique otherDeclared declared
      (by rw [Resource.engineOrDefault, Resource.engineOrDefault, isPostgres, otherPostgres])
      sameName
    rw [same] at granted
    exact granted
  · intro granted
    exact ⟨res, declared, isPostgres, rfl, granted⟩

/-- What a declared role holds on tables, schemas and sequences, by the declaration. -/
structure RoleRights (d : Declaration) (catalog : PgCatalog) (name : String) : Prop where
  tables : ∀ res ∈ d.resources, res.engine = some .postgres → ∀ privilege,
    (catalog.Holds (toPgRole name) (.table privilege res.resource) ↔
      ∃ role ∈ expandRoles d name,
        ∃ grant ∈ res.grants, privilege ∈ grant.privileges ∧ role ∈ grant.roles)
  schemas : ∀ schema, catalog.Holds (toPgRole name) (.schemaUsage schema) ↔
    ∃ role ∈ expandRoles d name, ∃ res ∈ d.resources, res.engine = some .postgres ∧
      schemaOf res = schema ∧ ∃ grant ∈ res.grants, role ∈ grant.roles
  sequences : ∀ schema, ∀ right ∈ [.sequenceUsage schema, .sequenceSelect schema],
    (catalog.Holds (toPgRole name) right ↔
      ∃ role ∈ expandRoles d name, ∃ res ∈ d.resources, res.engine = some .postgres ∧
        schemaOf res = schema ∧
          ∃ grant ∈ res.grants, .insert ∈ grant.privileges ∧ role ∈ grant.roles)

/-- The script of a valid declaration mentions accounts only after it has created
them, changes nothing the second time, and grants what is declared. -/
theorem pgCommands_correct (d : Declaration) (valid : validateDeclaration d = [])
    (start : PgCatalog) (ready : ReadyFor d start) :
    (∀ before command after, pgCommands d = before ++ command :: after →
      ∀ name ∈ command.mentions, name ∈ RoleCatalog.created before) ∧
    ∃ final, start.run (pgCommands d) = some final ∧ final.run (pgCommands d) = some final ∧
      (∀ name ∈ d.roleNames, RoleRights d final name) ∧
      ∀ login ∈ d.loginList, ∀ right,
        (final.Holds login.name right ↔ ∃ entry ∈ d.loginList, entry.name = login.name ∧
          ∃ role ∈ entry.memberOf, final.Holds (toPgRole role) right) := by
  have checked := checked_of_valid valid
  have ordered := checked.wellOrdered_pgCommands
  rcases RoleCatalog.exists_run start ordered ready.fresh ready.objects with
    ⟨final, finished, after⟩
  refine ⟨ordered.declaredFirst, final, finished, after.run_again ordered ready.objects, ?_,
    fun login declared right => checked.login_holds_iff ready after declared right⟩
  intro name known
  have holds := checked.role_holds_iff ready after known
  refine ⟨?_, fun schema => holds _, ?_⟩
  · intro res declared isPostgres privilege
    rw [holds]
    simp only [checked.listed_table_iff declared isPostgres]
  · intro schema right member
    simp only [List.mem_cons, List.not_mem_nil, or_false] at member
    rcases member with rfl | rfl
    · exact holds _
    · exact holds _

/-- A server with one schema, one table and some databases, and only its own account. -/
def freshServer (schema table : String) (databases : List String) : PgCatalog where
  accounts := [("postgres", true)]
  memberships := []
  grants := []
  objects := .schema schema :: .table table :: databases.map .database
  members_known _ member := absurd member List.not_mem_nil
  grantees_known _ member := absurd member List.not_mem_nil
  acyclic _ circle := by
    rcases Relation.TransGen.head'_iff.mp circle with ⟨next, edge, _⟩
    exact absurd edge List.not_mem_nil

theorem lakehouse_ready : ReadyFor lakehouse (freshServer "public" "public.orders" ["beluga"]) where
  rolesFresh := by decide
  loginsFresh := by decide
  schemas := by decide
  tables := by decide
  databases := by decide

theorem pgCommands_correct_lakehouse :
    ∃ final, (freshServer "public" "public.orders" ["beluga"]).run (pgCommands lakehouse) =
        some final ∧ final.run (pgCommands lakehouse) = some final ∧
      ∀ name ∈ lakehouse.roleNames, RoleRights lakehouse final name := by
  rcases (pgCommands_correct lakehouse lakehouse_valid _ lakehouse_ready).2 with
    ⟨final, finished, again, rights, _⟩
  exact ⟨final, finished, again, rights⟩

/-! ## Connecting -/

/-- A role is listed in a grant of some PostgreSQL resource. -/
def GrantedInPostgres (d : Declaration) (role : String) : Prop :=
  ∃ res ∈ d.resources, res.engine = some .postgres ∧ ∃ grant ∈ res.grants, role ∈ grant.roles

/-- The roles of an entry reach a role by inheritance. -/
def PgLogin.reaches (d : Declaration) (entry : PgLogin) (role : String) : Prop :=
  ∃ member ∈ entry.memberOf, role ∈ expandRoles d member

theorem Checked.login_connects {d : Declaration} (checked : Checked d) {start final : PgCatalog}
    (ready : ReadyFor d start) (after : RoleCatalog.After start (pgCommands d) final)
    {login : PgLogin} (declared : login ∈ d.loginList) (database : String) :
    final.Holds login.name (.connect database) ↔
      ∃ role, GrantedInPostgres d role ∧
        (∃ entry ∈ d.loginList, entry.name = login.name ∧ entry.reaches d role) ∧
        ∃ entry ∈ d.loginList, entry.database = database ∧ entry.reaches d role := by
  rw [checked.login_holds_iff ready after declared]
  constructor
  · intro holds
    rcases holds with ⟨entry, entered, same, member, inMembers, holds⟩
    have known := checked.memberKnown entry entered member inMembers
    rcases (checked.role_holds_iff ready after known _).mp holds with
      ⟨role, inherited, granted, forDatabase⟩
    exact ⟨role, granted, ⟨entry, entered, same, member, inMembers, inherited⟩, forDatabase⟩
  · intro connects
    rcases connects with
      ⟨role, granted, ⟨entry, entered, same, member, inMembers, inherited⟩, forDatabase⟩
    have known := checked.memberKnown entry entered member inMembers
    exact ⟨entry, entered, same, member, inMembers,
      (checked.role_holds_iff ready after known _).mpr ⟨role, inherited, granted, forDatabase⟩⟩

/-- A login can connect to a database when a role granted in PostgreSQL is reached by an
entry of the login and by an entry, of whichever login, for the database. -/
theorem login_connects_iff (d : Declaration) (valid : validateDeclaration d = [])
    (start : PgCatalog) (ready : ReadyFor d start) :
    ∃ final, start.run (pgCommands d) = some final ∧
      ∀ login ∈ d.loginList, ∀ database,
        (final.Holds login.name (.connect database) ↔
          ∃ role, GrantedInPostgres d role ∧
            (∃ entry ∈ d.loginList, entry.name = login.name ∧ entry.reaches d role) ∧
            ∃ entry ∈ d.loginList, entry.database = database ∧ entry.reaches d role) := by
  have checked := checked_of_valid valid
  rcases RoleCatalog.exists_run start checked.wellOrdered_pgCommands ready.fresh ready.objects
    with ⟨final, finished, after⟩
  exact ⟨final, finished, fun login declared database =>
    checked.login_connects ready after declared database⟩

theorem login_connects_iff_lakehouse :
    ∃ final, (freshServer "public" "public.orders" ["beluga"]).run (pgCommands lakehouse) =
        some final ∧
      ∀ login ∈ lakehouse.loginList, ∀ database,
        (final.Holds login.name (.connect database) ↔
          ∃ role, GrantedInPostgres lakehouse role ∧
            (∃ entry ∈ lakehouse.loginList, entry.name = login.name ∧
              entry.reaches lakehouse role) ∧
            ∃ entry ∈ lakehouse.loginList, entry.database = database ∧
              entry.reaches lakehouse role) :=
  login_connects_iff lakehouse lakehouse_valid _ lakehouse_ready

/-- Two logins share a role and name different databases. -/
def twoDatabases : Declaration where
  roles := [{ name := "readers" }]
  groups := []
  resources :=
    [{ resource := "public.orders", classification := .internal, engine := some .postgres
       grants := [readGrant ["readers"]] }]
  logins := some
    [{ name := "alice", memberOf := ["readers"], database := "orders" },
      { name := "bob", memberOf := ["readers"], database := "billing" }]

theorem twoDatabases_valid : validateDeclaration twoDatabases = [] := by decide +kernel

theorem twoDatabases_ready :
    ReadyFor twoDatabases (freshServer "public" "public.orders" ["orders", "billing"]) where
  rolesFresh := by decide
  loginsFresh := by decide
  schemas := by decide
  tables := by decide
  databases := by decide

/-- The shared role carries the one login's database over to the other login. -/
theorem alice_connects_to_billing :
    ∃ final, (freshServer "public" "public.orders" ["orders", "billing"]).run
        (pgCommands twoDatabases) = some final ∧
      ¬ (final.Holds "alice" (.connect "billing") ↔
        ∃ entry ∈ twoDatabases.loginList, entry.name = "alice" ∧ entry.database = "billing" ∧
          ∃ role, GrantedInPostgres twoDatabases role ∧ entry.reaches twoDatabases role) := by
  have checked := checked_of_valid twoDatabases_valid
  rcases RoleCatalog.exists_run _ checked.wellOrdered_pgCommands twoDatabases_ready.fresh
    twoDatabases_ready.objects with ⟨final, finished, after⟩
  refine ⟨final, finished, ?_⟩
  intro sameAsDeclared
  have readers : ∀ entry ∈ twoDatabases.loginList, entry.reaches twoDatabases "readers" := by
    intro entry entered
    refine ⟨"readers", ?_, self_mem_expandRoles _ _⟩
    revert entry
    decide
  have granted : GrantedInPostgres twoDatabases "readers" :=
    ⟨_, List.mem_cons_self, rfl, _, List.mem_cons_self, List.mem_cons_self⟩
  have alice : PgLogin.mk "alice" ["readers"] "orders" ∈ twoDatabases.loginList :=
    List.mem_cons_self
  have bob : PgLogin.mk "bob" ["readers"] "billing" ∈ twoDatabases.loginList :=
    List.mem_cons_of_mem _ List.mem_cons_self
  have connects := (checked.login_connects twoDatabases_ready after alice "billing").mpr
    ⟨"readers", granted, ⟨_, alice, rfl, readers _ alice⟩, ⟨_, bob, rfl, readers _ bob⟩⟩
  rcases sameAsDeclared.mp connects with ⟨entry, entered, isAlice, isBilling, _⟩
  have elsewhere : ∀ entry ∈ twoDatabases.loginList, entry.name = "alice" →
      entry.database ≠ "billing" := by decide
  exact elsewhere entry entered isAlice isBilling

end BelugaManager.PolicyCompiler
