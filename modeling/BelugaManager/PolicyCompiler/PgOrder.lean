import BelugaManager.PolicyCompiler.GrantScript
import BelugaManager.PolicyCompiler.RegoOrder

/-!
# The script of a rearranged declaration

Every section of the script is a sorted set except two: the grants of a table are visited
in the order of their joined roles, and the logins of one name in the order in which they
are declared.
-/

namespace BelugaManager.PolicyCompiler

open Foundation

/-- What is granted on a table, in the order in which it is written. -/
def tableGrants (res : Resource) : List (List Privilege × String) :=
  (sortedGrants res).flatMap fun grant =>
    (Text.sortBy cmp grant.roles).map (sortedPrivileges grant, ·)

/-- The roles that the logins of a name are bound to, in the order in which it is written. -/
def loginRoles (d : Declaration) (name : String) : List String :=
  (d.loginList.filter (·.name = name)).flatMap fun login => Text.sortBy cmp login.memberOf

/-- All bindings of logins to roles, as they are written. -/
def bindings (d : Declaration) : List (String × String) :=
  (sortedLogins d).flatMap fun login => (Text.sortBy cmp login.memberOf).map (login.name, ·)

theorem tableSection_eq (d : Declaration) :
    tableSection d = (postgresResources d).flatMap fun res =>
      (tableGrants res).map fun (privileges, role) =>
        .grantTable privileges res.resource (roleName role) := by
  simp only [tableSection, tableGrants, List.map_flatMap, List.map_map, Function.comp_def]

theorem bindingSection_eq (d : Declaration) :
    bindingSection d =
      (bindings d).map fun (name, role) => .grantRole (roleName role) (.quoted name) := by
  simp only [bindingSection, bindings, List.map_flatMap, List.map_map, Function.comp_def]

/-- The bindings agree exactly when those of each name do. -/
theorem bindings_eq_iff (d d' : Declaration) :
    bindings d = bindings d' ↔ ∀ name, loginRoles d name = loginRoles d' name := by
  have ofName : ∀ (e : Declaration) (name : String),
      (bindings e).filter (·.1 = name) = (loginRoles e name).map (name, ·) := by
    intro e name
    have kept := (comparesBy_name PgLogin.name).filter_sortBy (Text.utf16 name) e.loginList
    simp only [Text.utf16_injective.eq_iff] at kept
    rw [bindings, loginRoles, ← kept, sortedLogins]
    induction Text.sortBy (fun a b => cmp a.name b.name) e.loginList with
    | nil => rfl
    | cons login rest ih =>
        by_cases named : login.name = name
        · simp [List.filter_cons_of_pos, named, ih, List.filter_map, Function.comp_def]
        · simp [named, ih, List.filter_map, Function.comp_def]
  have sorted : ∀ e : Declaration, (bindings e).Pairwise fun a b =>
    Text.utf16 a.1 ≤ Text.utf16 b.1 := by
    intro e
    rw [bindings, List.pairwise_flatMap]
    constructor
    · intro login _
      rw [List.pairwise_map]
      exact List.pairwise_of_forall_mem_list fun _ _ _ _ => le_refl _
    · apply ((comparesBy_name PgLogin.name).pairwise_sortBy e.loginList).imp
      intro login other before binding inLogin binding' inOther
      rcases List.mem_map.mp inLogin with ⟨_, _, rfl⟩
      rcases List.mem_map.mp inOther with ⟨_, _, rfl⟩
      exact before
  constructor
  · intro same name
    have here := congrArg (List.filter (·.1 = name)) same
    rw [ofName, ofName] at here
    exact (List.map_injective_iff.mpr fun _ _ pairs => (Prod.mk.inj pairs).2) here
  · intro same
    apply Text.eq_of_filter_eq (sorted d) (sorted d')
    intro binding
    simp only [Text.utf16_injective.eq_iff]
    rw [ofName, ofName, same]

namespace Permuted

variable {d d' : Declaration} (permuted : Permuted d d')
include permuted

section Sections

variable (checked : Checked d)
include checked

theorem sortedRoles_forall₂ : List.Forall₂ PermutedRole (sortedRoles d) (sortedRoles d') := by
  apply permuted.roles.sortBy_forall₂ (comparesBy_name Role.name) (comparesBy_name Role.name)
  · intro r r' matches'
    rw [matches'.name]
  · have distinct := checked.roleNames_nodup.map Text.utf16_injective
    rwa [Declaration.roleNames, List.map_map] at distinct

theorem createRoleSection_eq : createRoleSection d = createRoleSection d' := by
  apply map_eq_of_forall₂ (permuted.sortedRoles_forall₂ checked)
  intro r r' matches'
  rw [matches'.name]

theorem inheritanceSection_eq : inheritanceSection d = inheritanceSection d' := by
  apply flatMap_eq_of_forall₂ (permuted.sortedRoles_forall₂ checked)
  intro r r' matches'
  rw [matches'.name, show cmp = Text.compareUnits from rfl,
    Text.sortBy_compareUnits_eq_of_perm matches'.parents]

theorem postgresResources_forall₂ :
    List.Forall₂ PermutedResource (postgresResources d) (postgresResources d') := by
  have ofEngine : ∀ res : Resource, decide (res.engine = some .postgres) = true →
      res.engineOrDefault = .postgres := by
    intro res isPostgres
    rw [Resource.engineOrDefault, of_decide_eq_true isPostgres, Option.getD_some]
  apply permuted.resources_forall₂ checked ofEngine
  intro res res' matches'
  rw [matches'.engine]

theorem schemas_eq : schemas d = schemas d' := by
  have same : (postgresResources d).map schemaOf = (postgresResources d').map schemaOf := by
    apply map_eq_of_forall₂ (permuted.postgresResources_forall₂ checked)
    intro res res' matches'
    rw [schemaOf, schemaOf, matches'.resource]
  rw [schemas, schemas, same]

/-- What is collected per schema does not depend on the order. -/
theorem collect_eq {values : Resource → List String}
    (same : ∀ res res', PermutedResource res res' → ∀ role, role ∈ values res ↔ role ∈ values res')
    (schema : String) :
    Text.sortBy cmp
        (((OrderedMap.collect schemaOf values (postgresResources d)).get? schema).getD []) =
      Text.sortBy cmp
        (((OrderedMap.collect schemaOf values (postgresResources d')).get? schema).getD []) := by
  apply Text.sortBy_compareUnits_eq_of_mem_iff (OrderedMap.nodup_collect _ _ _ _)
    (OrderedMap.nodup_collect _ _ _ _)
  intro role
  rw [OrderedMap.mem_collect, OrderedMap.mem_collect]
  have paired : PermBy PermutedResource (postgresResources d) (postgresResources d') :=
    ⟨_, List.Perm.refl _, permuted.postgresResources_forall₂ checked⟩
  apply paired.exists_iff
  intro res res' matches'
  rw [schemaOf, schemaOf, matches'.resource, same res res' matches']

theorem schemaSection_eq : schemaSection d = schemaSection d' := by
  rw [schemaSection, schemaSection, permuted.schemas_eq checked]
  apply List.flatMap_congr
  intro schema _
  rw [schemaRoles, schemaRoles, permuted.collect_eq checked]
  intro res res' matches' role
  rw [mem_grantRoles, mem_grantRoles]
  exact matches'.grants.exists_iff fun _ _ alike => alike.roles.mem_iff

theorem sequenceSection_eq : sequenceSection d = sequenceSection d' := by
  rw [sequenceSection, sequenceSection, permuted.schemas_eq checked]
  apply List.flatMap_congr
  intro schema _
  rw [sequenceRoles, sequenceRoles, permuted.collect_eq checked]
  intro res res' matches' role
  rw [mem_insertRoles, mem_insertRoles]
  exact matches'.grants.exists_iff fun _ _ alike =>
    and_congr alike.privileges.mem_iff alike.roles.mem_iff

omit checked in
theorem mem_postgresGrantRoles (role : String) :
    role ∈ postgresGrantRoles d ↔ role ∈ postgresGrantRoles d' := by
  rw [PolicyCompiler.mem_postgresGrantRoles, PolicyCompiler.mem_postgresGrantRoles]
  apply permuted.resources.exists_iff
  intro res res' matches'
  rw [matches'.engine]
  exact and_congr_right fun _ => matches'.grants.exists_iff fun _ _ alike => alike.roles.mem_iff

end Sections

theorem loginNames : (d.loginList.map PgLogin.name).Perm (d'.loginList.map PgLogin.name) :=
  permuted.loginList.map_perm fun _ _ matches' => matches'.name

theorem loginSection_eq : loginSection d = loginSection d' := by
  have names : ∀ e : Declaration, (sortedLogins e).map PgLogin.name =
      Text.sortBy cmp (e.loginList.map PgLogin.name) := fun e => Text.map_sortBy _ _ _
  have same : (sortedLogins d).map PgLogin.name = (sortedLogins d').map PgLogin.name := by
    rw [names, names, show cmp = Text.compareUnits from rfl,
      Text.sortBy_compareUnits_eq_of_perm permuted.loginNames]
  have creates := congrArg (List.map fun name => GuardedCreate.mk name (.quoted name) true) same
  rw [List.map_map, List.map_map] at creates
  rw [loginSection, loginSection]
  exact congrArg (fun list => [PgStatement.createRoles list]) creates

theorem databases_eq : databases d = databases d' := by
  apply Text.sortBy_compareUnits_eq_of_mem_iff (OrderedMap.keys_nodup _) (OrderedMap.keys_nodup _)
  intro database
  have collected := PolicyCompiler.mem_databases d database
  have collected' := PolicyCompiler.mem_databases d' database
  rw [databases, Text.mem_sortBy] at collected collected'
  apply collected.trans (Iff.trans _ collected'.symm)
  apply permuted.loginList.exists_iff
  intro login login' matches'
  rw [matches'.database]

theorem connectSection_eq (checked : Checked d) : connectSection d = connectSection d' := by
  rw [connectSection, connectSection, permuted.databases_eq]
  apply List.flatMap_congr
  intro database _
  simp only
  rw [show cmp = Text.compareUnits from rfl, Text.sortBy_compareUnits_eq_of_mem_iff]
  · exact (nodup_eraseDups _).filter _
  · exact (nodup_eraseDups _).filter _
  · intro role
    have reached : role ∈ ((rolesByDatabase d).get? database).getD [] ↔
        role ∈ ((rolesByDatabase d').get? database).getD [] := by
      rw [mem_rolesByDatabase, mem_rolesByDatabase]
      apply permuted.loginList.exists_iff
      intro login login' matches'
      rw [matches'.database]
      simp only [matches'.memberOf.mem_iff, permuted.mem_expandRoles checked.roleNames_nodup]
    simp only [List.mem_filter, permuted.mem_postgresGrantRoles, reached]

theorem connectItems_eq (checked : Checked d) : connectItems d = connectItems d' := by
  have someRole : postgresGrantRoles d ≠ [] ↔ postgresGrantRoles d' ≠ [] := by
    rw [ne_eq, ne_eq, List.eq_nil_iff_forall_not_mem, List.eq_nil_iff_forall_not_mem]
    simp only [permuted.mem_postgresGrantRoles]
  simp only [connectItems, someRole, permuted.databases_eq, permuted.connectSection_eq checked]

end Permuted

/-! ## Lines that can be read back -/

/-- Lists agree when their images do under what tells their items apart. -/
theorem eq_of_map_eq {α β : Type*} {f : α → β} {left right : List α}
    (told : ∀ a ∈ left, ∀ b ∈ right, f a = f b → a = b) (same : left.map f = right.map f) :
    left = right := by
  induction left generalizing right with
  | nil => exact (List.map_eq_nil_iff.mp same.symm).symm
  | cons a left ih =>
      cases right with
      | nil => simp at same
      | cons b right =>
          rw [List.map_cons, List.map_cons, List.cons.injEq] at same
          rw [told a List.mem_cons_self b List.mem_cons_self same.1, ih _ same.2]
          intro a' inLeft b' inRight
          exact told a' (List.mem_cons_of_mem a inLeft) b' (List.mem_cons_of_mem b inRight)

theorem PRIV_SQL_injective : Function.Injective PRIV_SQL := by
  intro p q
  cases p <;> cases q <;> decide

/-- The line for privileges of a role on a table. -/
def grantLine (table : String) (granted : List Privilege × String) : String :=
  grantTableLine granted.1 table (toPgRole granted.2) ";"

theorem tableGrantLines_eq (d : Declaration) :
    tableGrantLines d = (postgresResources d).flatMap fun res =>
      (tableGrants res).map (grantLine res.resource) := by
  simp only [tableGrantLines, tableSection_eq, List.flatMap_assoc, List.map_eq_flatMap]
  rfl

/-- The line that binds a login to a role. -/
def bindingLine (binding : String × String) : String :=
  s!"GRANT {toPgRole binding.2} TO {toPgLoginIdentifier binding.1};"

theorem bindingLines_eq (d : Declaration) :
    (bindingSection d).flatMap PgStatement.lines = (bindings d).map bindingLine := by
  rw [bindingSection_eq, List.flatMap_map, List.map_eq_flatMap]
  rfl

namespace Checked

variable {d d' : Declaration} (checked : Checked d)
include checked

theorem of_mem_tableGrants {res : Resource} (declared : res ∈ d.resources)
    {granted : List Privilege × String} (member : granted ∈ tableGrants res) :
    granted.1 ≠ [] ∧ granted.2 ∈ d.roleNames := by
  simp only [tableGrants, sortedGrants, List.mem_flatMap, List.mem_map, Text.mem_sortBy] at member
  rcases member with ⟨grant, inGrants, role, listed, rfl⟩
  exact ⟨sortedPrivileges_ne_nil grant,
    checked.grantRoleKnown res declared grant inGrants role listed⟩

theorem grantLine_inj {table : String} (named : isSchemaTable table = true)
    {granted other : List Privilege × String} (some' : granted.1 ≠ []) (someOther : other.1 ≠ [])
    (known : granted.2 ∈ d.roleNames) (knownOther : other.2 ∈ d.roleNames)
    (same : grantLine table granted = grantLine table other) : granted = other := by
  have tableName := isName_of_isSchemaTable named
  have pieces := congrArg (grantPieces Text.isSpace) same
  rw [grantLine, grantLine,
    grantPieces_grantTableLine some' (Or.inr rfl) tableName (checked.isName_toPgRole known),
    grantPieces_grantTableLine someOther (Or.inr rfl) tableName
    (checked.isName_toPgRole knownOther)] at pieces
  simp only [Option.some.injEq, GrantPieces.mk.injEq, String.toList_inj, true_and, and_true]
    at pieces
  have privileges : granted.1.map PRIV_SQL = other.1.map PRIV_SQL := by
    rw [← trimmed_privilegeWords some', ← trimmed_privilegeWords someOther, pieces.1]
  exact Prod.ext (List.map_injective_iff.mpr PRIV_SQL_injective privileges)
    (checked.toPgRole_injective known knownOther pieces.2)

theorem bindingLine_inj {binding other : String × String} (known : binding.2 ∈ d.roleNames)
    (knownOther : other.2 ∈ d.roleNames) (same : bindingLine binding = bindingLine other) :
    binding = other := by
  have chars := congrArg String.toList same
  have blank : " TO ".toList = [' ', 'T', 'O', ' '] := by decide
  have free : ∀ {role : String}, role ∈ d.roleNames → ' ' ∉ (toPgRole role).toList := by
    intro role declared isBlank
    have noSpace := (checked.isName_toPgRole declared).isToken.2 ' ' isBlank
    exact absurd noSpace (by decide)
  simp only [bindingLine, toPgLoginIdentifier, toString, String.toList_append, blank,
    List.append_assoc,
    List.cons_append, List.nil_append, List.append_cancel_left_eq] at chars
  rcases append_stop_inj (free known) (free knownOther) chars with ⟨sameRole, sameRest⟩
  simp only [List.cons.injEq, true_and, List.append_cancel_left_eq, List.append_cancel_right_eq,
    String.toList_inj] at sameRest
  exact Prod.ext sameRest
    (checked.toPgRole_injective known knownOther (String.toList_inj.mp sameRole))

end Checked

/-! ## The whole script -/

/-- The script up to the grants on tables. -/
def beforeTables (d : Declaration) : List PgItem :=
  PgItem.line "-- 자동 생성 — 직접 수정하지 말 것. 원천: policies/*.yaml" ::
    (titled "-- 1. 권한 롤 (NOLOGIN, 상속 가능)" (createRoleSection d) ++
      titled "-- 2. 롤 상속 (D19)" (inheritanceSection d) ++
      titled "-- 3. 스키마 및 테이블 권한 (allow-by-role, 명시적 GRANT만)" (schemaSection d))

/-- The script from the logins up to their bindings. -/
def beforeBindings (d : Declaration) : List PgItem :=
  titled "-- 4. LOGIN 계정 (D20, LDAP uid — 하이픈 보존, toPgRole() 미적용)" (loginSection d) ++
    titled "-- 5. LOGIN 계정을 정책 롤에 바인딩" []

theorem lines_statements (statements : List PgStatement) :
    (statements.map PgItem.statement).flatMap PgItem.lines =
      statements.flatMap PgStatement.lines := by
  rw [List.flatMap_map]
  rfl

theorem lines_pgItems (d : Declaration) : (pgItems d).flatMap PgItem.lines =
    (beforeTables d).flatMap PgItem.lines ++ (tableGrantLines d ++
      ((sequenceSection d).flatMap PgStatement.lines ++
        ((loginItems d).flatMap PgItem.lines ++ [""]))) := by
  simp only [pgItems, beforeTables, titled, List.map_append, List.flatMap_append, List.flatMap_cons,
    lines_statements, tableGrantLines, List.append_assoc, List.cons_append, List.nil_append,
    PgItem.lines, List.flatMap_nil, List.append_nil]

theorem lines_loginItems {d : Declaration} (logins : sortedLogins d ≠ []) :
    (loginItems d).flatMap PgItem.lines = (beforeBindings d).flatMap PgItem.lines ++
      ((bindings d).map bindingLine ++ (connectItems d).flatMap PgItem.lines) := by
  rw [loginItems, if_neg logins, beforeBindings]
  simp only [titled, List.flatMap_append, List.flatMap_cons, lines_statements, bindingLines_eq,
    List.append_assoc, List.map_nil, List.flatMap_nil, List.append_nil]

theorem PermutedResource.length_tableGrants {res res' : Resource}
    (matches' : PermutedResource res res') :
    (tableGrants res).length = (tableGrants res').length := by
  have counted : ((sortedGrants res).map fun grant => grant.roles.length).Perm
      ((sortedGrants res').map fun grant => grant.roles.length) := by
    apply (matches'.grants.of_perm (Text.sortBy_perm _ _) (Text.sortBy_perm _ _).symm).map_perm
    intro g g' alike
    rw [alike.roles.length_eq]
  simp only [tableGrants, List.length_flatMap, List.length_map, (Text.sortBy_perm _ _).length_eq]
  exact counted.sum_nat

namespace Permuted

variable {d d' : Declaration} (permuted : Permuted d d') (checked : Checked d)
    (checked' : Checked d')
include permuted

theorem sortedLogins_eq_nil_iff : sortedLogins d = [] ↔ sortedLogins d' = [] := by
  have sameLength := permuted.loginNames.length_eq
  simp only [List.length_map] at sameLength
  rw [sortedLogins, sortedLogins, Text.sortBy_eq_nil, Text.sortBy_eq_nil, ← List.length_eq_zero_iff,
    ← List.length_eq_zero_iff, sameLength]

theorem beforeBindings_eq : beforeBindings d = beforeBindings d' := by
  rw [beforeBindings, beforeBindings, permuted.loginSection_eq]

include checked

theorem beforeTables_eq : beforeTables d = beforeTables d' := by
  rw [beforeTables, beforeTables, permuted.createRoleSection_eq checked,
    permuted.inheritanceSection_eq checked, permuted.schemaSection_eq checked]

include checked'

/-- The part of the script on logins is the same exactly when the bindings are. -/
theorem loginLines_eq_iff :
    (loginItems d).flatMap PgItem.lines = (loginItems d').flatMap PgItem.lines ↔
    bindings d = bindings d' := by
  have known : ∀ {e : Declaration}, Checked e →
    ∀ binding ∈ bindings e, binding.2 ∈ e.roleNames := by
    intro e checkedE binding member
    simp only [bindings, sortedLogins, List.mem_flatMap, List.mem_map, Text.mem_sortBy] at member
    rcases member with ⟨login, declared, role, listed, rfl⟩
    exact checkedE.memberKnown login declared role listed
  by_cases logins : sortedLogins d = []
  · have logins' := permuted.sortedLogins_eq_nil_iff.mp logins
    rw [loginItems, loginItems, if_pos logins, if_pos logins', bindings, bindings, logins, logins']
    exact iff_of_true rfl rfl
  · have logins' := mt permuted.sortedLogins_eq_nil_iff.mpr logins
    rw [lines_loginItems logins, lines_loginItems logins', permuted.beforeBindings_eq,
      permuted.connectItems_eq checked, List.append_cancel_left_eq, List.append_cancel_right_eq]
    constructor
    · intro same
      apply eq_of_map_eq _ same
      intro binding member other member'
      exact checked.bindingLine_inj (known checked binding member)
        (permuted.roleNames.mem_iff.mpr (known checked' other member'))
    · intro same
      rw [same]

/-- Two scripts agree if and only if the grants on each table and the bindings of logins do. -/
theorem compilePgDdl_eq_iff : compilePgDdl d = compilePgDdl d' ↔
    List.Forall₂ (fun res res' => PermutedResource res res' ∧ tableGrants res = tableGrants res')
        (postgresResources d) (postgresResources d') ∧
      bindings d = bindings d' := by
  have paired := permuted.postgresResources_forall₂ checked
  have asLines : compilePgDdl d = compilePgDdl d' ↔
      (pgItems d).flatMap PgItem.lines = (pgItems d').flatMap PgItem.lines := by
    constructor
    · intro same
      rw [← checked.split_compilePgDdl, same, checked'.split_compilePgDdl]
    · intro same
      rw [compilePgDdl, compilePgDdl, same]
  rw [asLines, lines_pgItems, lines_pgItems, permuted.beforeTables_eq checked,
    permuted.sequenceSection_eq checked, List.append_cancel_left_eq, tableGrantLines_eq,
    tableGrantLines_eq, ← permuted.loginLines_eq_iff checked checked']
  constructor
  · intro same
    have lengths : ∀ res res', PermutedResource res res' →
        ((tableGrants res).map (grantLine res.resource)).length =
          ((tableGrants res').map (grantLine res'.resource)).length := by
      intro res res' matches'
      rw [List.length_map, List.length_map, matches'.length_tableGrants]
    rcases flatMap_append_inj paired lengths same with ⟨tables, sameRest⟩
    rw [List.append_cancel_left_eq, List.append_cancel_right_eq] at sameRest
    refine ⟨?_, sameRest⟩
    have declared : ∀ {e : Declaration} {res : Resource}, res ∈ postgresResources e →
      res ∈ e.resources :=
      fun {e res} member => ((mem_postgresResources e res).mp member).1
    apply forall₂_imp_of_mem tables
    intro res inLeft res' inRight alike
    refine ⟨alike.1, ?_⟩
    have sameLines := alike.2
    rw [← alike.1.resource] at sameLines
    apply eq_of_map_eq _ sameLines
    intro granted inGrants other inGrants'
    rcases checked.of_mem_tableGrants (declared inLeft) inGrants with ⟨some', known⟩
    rcases checked'.of_mem_tableGrants (declared inRight) inGrants' with ⟨someOther, knownOther⟩
    exact checked.grantLine_inj (checked.schemaTable res (declared inLeft)) some' someOther known
      (permuted.roleNames.mem_iff.mpr knownOther)
  · intro alike
    rcases alike with ⟨tables, logins⟩
    rw [logins]
    congr 1
    apply flatMap_eq_of_forall₂ tables
    intro res res' both
    rw [both.2, both.1.resource]

end Permuted

end BelugaManager.PolicyCompiler
