import BelugaManager.PolicyCompiler.GrantScript

/-!
# The report on what was just applied

Applying the artifacts of a declaration and reading the systems back should leave
nothing to report.  Whether it does depends on the names of the tables, which are
compared as declared but stored in lower case, and on groups that list their roles
more than once.
-/

namespace BelugaManager.PolicyCompiler

open Foundation

/-- The line for one privilege as PostgreSQL reports it, with the names it stores. -/
def storedGrantLine (privilege : Privilege) (table role : String) : String :=
  s!"GRANT {PRIV_SQL privilege} ON TABLE {Text.lowerAscii table} TO {toPgRole role}"

/-- The state after the artifacts of a declaration were applied: the realm roles, for each
group the set of its roles, and a line for every directly granted privilege. -/
structure Applied (d : Declaration) (actual : ActualState) : Prop where
  roles : ∀ name, name ∈ actual.keycloakRoles ↔ name ∈ d.roleNames
  groupNames : ∀ name, name ∈ actual.keycloakGroups.keys ↔ name ∈ d.groups.map Group.name
  groupRoles : ∀ name roles, actual.keycloakGroups.get? name = some roles →
    roles.Nodup ∧ ∀ role, role ∈ roles ↔ ∃ group ∈ d.groups, group.name = name ∧ role ∈ group.roles
  grants : ∀ line, line ∈ actual.pgGrants ↔ ∃ table role privilege,
    Listed d (.table privilege table) role ∧ line = storedGrantLine privilege table role

/-- The declarations whose artifacts read back as they were printed: every table that is
granted has a lower-case name, no group lists a role twice, and the entries of one group
list the same roles. -/
structure ReadsBack (d : Declaration) : Prop where
  lowerCase : ∀ table role privilege, Listed d (.table privilege table) role →
    Text.lowerAscii table = table
  groupNodup : ∀ group ∈ d.groups, group.roles.Nodup
  sameGroup : ∀ group ∈ d.groups, ∀ other ∈ d.groups, group.name = other.name →
    ∀ role, role ∈ group.roles ↔ role ∈ other.roles

section

variable (upper : CaseMapping) {d : Declaration} (checked : Checked d) {actual : ActualState}
  (applied : Applied d actual)

/-! ## Roles and groups -/

include applied in
theorem Applied.roles_clean {artifacts : Artifacts}
    (compiled : artifacts.keycloak = compileKeycloak d) :
    diffKeycloakRoles artifacts actual.keycloakRoles = [] := by
  rw [diffKeycloakRoles_eq_nil_iff, compiled]
  intro name
  rw [mem_realmRoles, applied.roles]

include checked in
theorem Checked.isSeparate {role : String} (known : role ∈ d.roleNames) : IsSeparate role := by
  rcases List.mem_map.mp known with ⟨r, declared, rfl⟩
  rcases roleName_chars (checked.roleName r declared) with ⟨nonempty, parts⟩
  refine ⟨nonempty, ?_⟩
  intro comma
  exact absurd (parts ',' comma) (by decide)

include applied in
theorem Applied.exists_groupRoles {group : Group} (declared : group ∈ d.groups) :
    ∃ roles, actual.keycloakGroups.get? group.name = some roles :=
  (OrderedMap.mem_keys_iff _ _).mp ((applied.groupNames _).mpr (List.mem_map_of_mem declared))

include checked applied in
/-- The lists of a group agree when the entry lists every role of the group once. -/
theorem Applied.joinedRoles_eq_iff {group : Group} (declared : group ∈ d.groups)
    {roles : List String} (stored : actual.keycloakGroups.get? group.name = some roles) :
    joinedRoles (Text.sortBy cmp group.roles) = joinedRoles roles ↔
      group.roles.Nodup ∧ ∀ other ∈ d.groups, other.name = group.name →
        ∀ role ∈ other.roles, role ∈ group.roles := by
  rcases applied.groupRoles group.name roles stored with ⟨nodup, members⟩
  have known : ∀ other ∈ d.groups, ∀ role ∈ other.roles, IsSeparate role :=
    fun other member role listed =>
    checked.isSeparate (checked.groupRoleKnown other member role listed)
  rw [PolicyCompiler.joinedRoles_eq_iff]
  · constructor
    · intro perm
      have same := (Text.sortBy_perm cmp group.roles).symm.trans perm
      refine ⟨same.nodup_iff.mpr nodup, ?_⟩
      intro other member sameName role listed
      exact same.mem_iff.mpr ((members role).mpr ⟨other, member, sameName, listed⟩)
    · rintro ⟨groupNodup, included⟩
      apply (Text.sortBy_perm cmp group.roles).trans
      apply (List.perm_ext_iff_of_nodup groupNodup nodup).mpr
      intro role
      rw [members]
      constructor
      · exact fun listed => ⟨group, declared, rfl, listed⟩
      · rintro ⟨other, member, sameName, listed⟩
        exact included other member sameName role listed
  · intro role member
    exact known group declared role ((Text.mem_sortBy _ _ _).mp member)
  · intro role member
    rcases (members role).mp member with ⟨other, inGroups, _, listed⟩
    exact known other inGroups role listed

include checked applied in
theorem Applied.groups_clean_iff {artifacts : Artifacts}
    (compiled : artifacts.keycloak = compileKeycloak d) :
    diffKeycloakGroups artifacts actual.keycloakGroups = .ok [] ↔
      (∀ group ∈ d.groups, group.roles.Nodup) ∧
        ∀ group ∈ d.groups, ∀ other ∈ d.groups, group.name = other.name →
          ∀ role, role ∈ group.roles ↔ role ∈ other.roles := by
  rw [diffKeycloakGroups_eq_ok_nil_iff, compiled]
  constructor
  · rintro ⟨each, _⟩
    have clean : ∀ group ∈ d.groups, group.roles.Nodup ∧ ∀ other ∈ d.groups,
        other.name = group.name → ∀ role ∈ other.roles, role ∈ group.roles := by
      intro group declared
      rcases each _ ((mem_keycloakGroups d _).mpr ⟨group, declared, rfl⟩) with
        ⟨roles, stored, joined⟩
      exact (applied.joinedRoles_eq_iff checked declared stored).mp joined
    refine ⟨fun group declared => (clean group declared).1, ?_⟩
    intro group declared other otherDeclared sameName role
    exact ⟨(clean other otherDeclared).2 group declared sameName role,
      (clean group declared).2 other otherDeclared sameName.symm role⟩
  · rintro ⟨nodup, same⟩
    constructor
    · intro g member
      rcases (mem_keycloakGroups d g).mp member with ⟨group, declared, rfl⟩
      rcases applied.exists_groupRoles declared with ⟨roles, stored⟩
      refine ⟨roles, stored, (applied.joinedRoles_eq_iff checked declared stored).mpr ?_⟩
      refine ⟨nodup group declared, ?_⟩
      intro other otherDeclared sameName role
      exact (same other otherDeclared group declared sameName role).mp
    · intro name member
      exact (mem_keycloakGroupNames d name).mpr ((applied.groupNames name).mp member)

include applied in
/-- Every declared group is a key of the record, so no lookup leaves it. -/
theorem Applied.exists_diffKeycloakGroups {artifacts : Artifacts}
    (compiled : artifacts.keycloak = compileKeycloak d) :
    ∃ items, diffKeycloakGroups artifacts actual.keycloakGroups = .ok items := by
  have succeeds : ∀ g ∈ artifacts.keycloak.groups,
      ∃ items, diffKeycloakGroup actual.keycloakGroups g = .ok items := by
    intro g member
    rw [compiled] at member
    rcases (mem_keycloakGroups d g).mp member with ⟨group, declared, rfl⟩
    rcases applied.exists_groupRoles declared with ⟨roles, stored⟩
    rw [diffKeycloakGroup, stored]
    dsimp only
    split
    next => exact ⟨_, rfl⟩
    next => exact ⟨_, rfl⟩
  rcases exists_mapM_eq_ok _ _ succeeds with ⟨results, mapped, _⟩
  exact ⟨_, by rw [diffKeycloakGroups, mapped]; rfl⟩

/-! ## Grants -/

include checked in
theorem Checked.storedGrantLine_eq {table role : String} {privilege : Privilege}
    (listed : Listed d (.table privilege table) role) :
    IsName (Text.lowerAscii table) ∧ IsName (toPgRole role) := by
  rcases listed with ⟨res, declared, _, rfl, grant, inGrants, _, inRoles⟩
  rcases checked.isName_of_grant declared inGrants inRoles with ⟨⟨nonempty, chars⟩, roleName⟩
  refine ⟨⟨?_, ?_⟩, roleName⟩
  · intro empty
    apply nonempty
    rw [← String.toList_inj] at empty ⊢
    simpa [Text.lowerAscii] using empty
  · intro c member
    rw [Text.lowerAscii, String.toList_ofList] at member
    rcases List.mem_map.mp member with ⟨original, inTable, rfl⟩
    rcases chars original inTable with part | rfl
    · have plain := isPlain_toLower part
      rw [isPlain, Bool.and_eq_true] at plain
      exact Or.inl plain.1
    · exact Or.inr rfl

theorem storedGrantLine_text (privilege : Privilege) (table role : String) :
    storedGrantLine privilege table role =
      grantTableLine [privilege] (Text.lowerAscii table) (toPgRole role) "" := by
  rw [grantTableLine, privilegeWords, List.map_singleton, Text.join_singleton, String.append_empty]
  rfl

include checked in
theorem Checked.parse_storedGrantLine {table role : String} {privilege : Privilege}
    (listed : Listed d (.table privilege table) role) :
    ∃ g, parseGrantLine upper (storedGrantLine privilege table role) = some g ∧
      grantKey g = declaredKey (Text.lowerAscii table) role ∧
      ∀ p, p ∈ g.privileges ↔ PRIV_SQL privilege = p := by
  rcases checked.storedGrantLine_eq listed with ⟨tableName, roleName⟩
  rcases parseGrantLine_grantTableLine (List.cons_ne_nil privilege []) (Or.inl rfl) upper tableName
    roleName with ⟨g, parsed, sameTable, sameRole, privileges⟩
  refine ⟨g, by rw [storedGrantLine_text, parsed], ?_, ?_⟩
  · rw [grantKey, declaredKey, sameTable, sameRole]
  · intro p
    rw [privileges]
    simp

include checked applied in
/-- What the comparison reads in the lines that PostgreSQL reports. -/
theorem Applied.read_grants (key p : String) :
    (∃ g ∈ actual.pgGrants.filterMap (parseGrantLine upper),
        grantKey g = key ∧ p ∈ g.privileges) ↔
      ∃ table role privilege, Listed d (.table privilege table) role ∧
        declaredKey (Text.lowerAscii table) role = key ∧ PRIV_SQL privilege = p := by
  constructor
  · rintro ⟨g, parsed, rfl, inSet⟩
    rcases List.mem_filterMap.mp parsed with ⟨line, reported, read⟩
    rcases (applied.grants line).mp reported with ⟨table, role, privilege, listed, rfl⟩
    rcases checked.parse_storedGrantLine upper listed with ⟨found, isFound, key, privileges⟩
    obtain rfl : found = g := Option.some.inj (isFound.symm.trans read)
    exact ⟨table, role, privilege, listed, key.symm, (privileges p).mp inSet⟩
  · rintro ⟨table, role, privilege, listed, rfl, rfl⟩
    rcases checked.parse_storedGrantLine upper listed with ⟨found, isFound, key, privileges⟩
    refine ⟨found, List.mem_filterMap.mpr ⟨_, ?_, isFound⟩, key, (privileges _).mpr rfl⟩
    exact (applied.grants _).mpr ⟨table, role, privilege, listed, rfl⟩

include checked applied in
theorem Applied.grants_clean_iff {artifacts : Artifacts}
    (compiled : artifacts.pgddl = compilePgDdl d) :
    diffPgGrants upper artifacts actual.pgGrants = [] ↔
      ∀ table role privilege, Listed d (.table privilege table) role →
        Text.lowerAscii table = table := by
  rw [diffPgGrants_eq_nil_iff, compiled]
  constructor
  · rintro ⟨_, _, same⟩ table role privilege listed
    have read := (same (declaredKey table role) (PRIV_SQL privilege)).mp
      ((checked.read_script upper _ _).mpr ⟨table, role, privilege, listed, rfl, rfl⟩)
    rcases (applied.read_grants upper checked _ _).mp read with
      ⟨other, otherRole, otherPrivilege, otherListed, sameKey, _⟩
    rcases listed with ⟨res, declared, _, rfl, grant, inGrants, _, inRoles⟩
    rcases checked.isName_of_grant declared inGrants inRoles with ⟨tableName, roleName⟩
    rw [← (key_inj tableName roleName sameKey).1, Text.lowerAscii_lowerAscii]
  · intro lowerCase
    have same : ∀ key p, (∃ g ∈ (Text.split '\n' (compilePgDdl d)).filterMap
        (parseGrantLine upper), grantKey g = key ∧ p ∈ g.privileges) ↔
          ∃ g ∈ actual.pgGrants.filterMap (parseGrantLine upper),
            grantKey g = key ∧ p ∈ g.privileges := by
      intro key p
      rw [checked.read_script, applied.read_grants upper checked]
      constructor
      · rintro ⟨table, role, privilege, listed, sameKey, word⟩
        refine ⟨table, role, privilege, listed, ?_, word⟩
        rwa [lowerCase table role privilege listed]
      · rintro ⟨table, role, privilege, listed, sameKey, word⟩
        refine ⟨table, role, privilege, listed, ?_, word⟩
        rwa [lowerCase table role privilege listed] at sameKey
    have everyParsed : ∀ line ∈ actual.pgGrants, ∃ g, parseGrantLine upper line = some g ∧
        ∃ p, p ∈ g.privileges := by
      intro line reported
      rcases (applied.grants line).mp reported with ⟨table, role, privilege, listed, rfl⟩
      rcases checked.parse_storedGrantLine upper listed with ⟨g, parsed, _, privileges⟩
      exact ⟨g, parsed, PRIV_SQL privilege, (privileges _).mpr rfl⟩
    constructor
    · intro line reported
      rcases everyParsed line reported with ⟨g, parsed, _⟩
      simp [parsed]
    · apply sameGrants_of_privileges _ _ same
      · exact fun g parsed => checked.exists_privilege_of_script upper parsed
      · intro g parsed
        rcases List.mem_filterMap.mp parsed with ⟨line, reported, read⟩
        rcases everyParsed line reported with ⟨found, isFound, somePrivilege⟩
        obtain rfl : found = g := Option.some.inj (isFound.symm.trans read)
        exact somePrivilege

include checked applied in
/-- The report on the applied state is made, and it is empty exactly for the declarations
that read back as printed. -/
theorem Applied.report_clean_iff {artifacts : Artifacts}
    (keycloak : artifacts.keycloak = compileKeycloak d)
    (pgddl : artifacts.pgddl = compilePgDdl d) :
    ∃ report, diffState upper artifacts actual.whole = .ok report ∧
      (report.items = [] ↔ ReadsBack d) := by
  rcases applied.exists_diffKeycloakGroups keycloak with ⟨items, groups⟩
  have compared : ∃ report, diffState upper artifacts actual.whole = .ok report := by
    simp [diffState, ActualState.whole, groups, bind, Except.bind, pure, Except.pure]
  rcases compared with ⟨report, isReport⟩
  refine ⟨report, isReport, ?_⟩
  have whole := diffState_whole_iff upper artifacts actual
  simp only [isReport, Except.ok.injEq, exists_eq_left'] at whole
  rw [whole, applied.groups_clean_iff checked keycloak,
    applied.grants_clean_iff upper checked pgddl]
  constructor
  · rintro ⟨_, ⟨nodup, same⟩, lowerCase⟩
    exact ⟨lowerCase, nodup, same⟩
  · rintro ⟨lowerCase, nodup, same⟩
    exact ⟨applied.roles_clean keycloak, ⟨nodup, same⟩, lowerCase⟩

end

/-- A valid declaration compiles, the state after applying it is compared without an
exception, and nothing is reported exactly when the declaration reads back as printed. -/
theorem applied_report_clean_iff (upper : CaseMapping) {d : Declaration} {actual : ActualState}
    (valid : validateDeclaration d = []) (applied : Applied d actual) :
    ∃ artifacts report, compileAll d = .ok artifacts ∧
      diffState upper artifacts actual.whole = .ok report ∧
      (report.items = [] ↔ ReadsBack d) := by
  rcases exists_compileAll valid with ⟨artifacts, compiled⟩
  rcases compileAll_eq_ok compiled with ⟨_, keycloak, pgddl⟩
  rcases applied.report_clean_iff upper (checked_of_valid valid) keycloak pgddl with
    ⟨report, compared, clean⟩
  exact ⟨artifacts, report, compiled, compared, clean⟩

/-- One role may read one table of PostgreSQL. -/
def ordersPolicy (table : String) : Declaration where
  roles := [{ name := "analysts" }]
  groups := [{ name := "bi", roles := ["analysts"] }]
  resources :=
    [{ resource := table, classification := .internal, engine := some .postgres
       grants := [readGrant ["analysts"]] }]

/-- What the systems report when that policy is in force. -/
def ordersState : ActualState where
  keycloakRoles := ["analysts"]
  keycloakGroups := .single "bi" ["analysts"]
  pgGrants := ["GRANT SELECT ON TABLE public.orders TO analysts"]

theorem listed_ordersPolicy (table name role : String) (privilege : Privilege) :
    Listed (ordersPolicy table) (.table privilege name) role ↔
      table = name ∧ privilege = .select ∧ role = "analysts" := by
  simp [Listed, ordersPolicy, readGrant]

theorem ordersState_applied {table : String} (folded : Text.lowerAscii table = "public.orders") :
    Applied (ordersPolicy table) ordersState where
  roles := by
    intro name
    rfl
  groupNames := by
    intro name
    rfl
  groupRoles := by
    intro name roles stored
    rw [OrderedMap.get?_eq_some_iff] at stored
    obtain ⟨rfl, rfl⟩ := Prod.mk.inj (List.mem_singleton.mp stored)
    exact ⟨List.nodup_singleton _, by simp [ordersPolicy]⟩
  grants := by
    intro line
    simp only [listed_ordersPolicy, ordersState, List.mem_singleton]
    constructor
    · rintro rfl
      exact ⟨table, "analysts", .select, ⟨rfl, rfl, rfl⟩, by rw [storedGrantLine, folded]; decide⟩
    · rintro ⟨_, _, _, ⟨rfl, rfl, rfl⟩, rfl⟩
      rw [storedGrantLine, folded]
      decide

theorem ordersPolicy_valid : validateDeclaration (ordersPolicy "public.orders") = [] := by
  decide +kernel

theorem applied_report_clean_iff_orders :
    ∃ artifacts report, compileAll (ordersPolicy "public.orders") = .ok artifacts ∧
      diffState asciiCase artifacts ordersState.whole = .ok report ∧
      (report.items = [] ↔ ReadsBack (ordersPolicy "public.orders")) :=
  applied_report_clean_iff asciiCase ordersPolicy_valid (ordersState_applied (by decide))

/-- A table whose name has a capital is reported right after it was granted. -/
theorem capital_table_reported :
    ¬ ∀ (upper : CaseMapping) (d : Declaration) (actual : ActualState) (artifacts : Artifacts),
      validateDeclaration d = [] → Applied d actual → compileAll d = .ok artifacts →
        ∃ report, diffState upper artifacts actual.whole = .ok report ∧ report.items = [] := by
  intro always
  have valid : validateDeclaration (ordersPolicy "public.Orders") = [] := by decide +kernel
  have applied : Applied (ordersPolicy "public.Orders") ordersState :=
    ordersState_applied (by decide)
  rcases exists_compileAll valid with ⟨artifacts, compiled⟩
  rcases compileAll_eq_ok compiled with ⟨_, keycloak, pgddl⟩
  rcases applied.report_clean_iff asciiCase (checked_of_valid valid) keycloak pgddl with
    ⟨report, compared, clean⟩
  rcases always asciiCase _ _ artifacts valid applied compiled with ⟨other, otherCompared, empty⟩
  obtain rfl : report = other := Except.ok.inj (compared.symm.trans otherCompared)
  have lowerCase := (clean.mp empty).lowerCase "public.Orders" "analysts" .select
    ((listed_ordersPolicy _ _ _ _).mpr ⟨rfl, rfl, rfl⟩)
  exact absurd lowerCase (by decide)

end BelugaManager.PolicyCompiler
