import BelugaManager.Foundation.Reconciliation
import BelugaManager.PolicyCompiler.DriftApplied
import BelugaManager.PolicyCompiler.DriftSpelling

/-!
# What is reported about each name

The report sorts the names of each category that was read: declared and missing, there
without a declaration, different.  Roles and grants are always sorted exactly.  Groups are
looked up in a record, which also answers for the names that every record inherits, and
their roles are compared as one text.
-/

namespace BelugaManager.PolicyCompiler

open Foundation

/-! ## What is declared and what is there -/

/-- Realm roles have no members of their own. -/
def declaredRole (d : Declaration) (name : String) (members : Set String) : Prop :=
  name ∈ d.roleNames ∧ members = ∅

def actualRole (names : List String) (name : String) (members : Set String) : Prop :=
  name ∈ names ∧ members = ∅

/-- The declared groups of a name. -/
def groupsNamed (d : Declaration) (name : String) : List Group := d.groups.filter (·.name = name)

/-- The members of a group are the roles that the groups of its name list. -/
def declaredGroup (d : Declaration) (name : String) (members : Set String) : Prop :=
  groupsNamed d name ≠ [] ∧ members = {role | ∃ group ∈ groupsNamed d name, role ∈ group.roles}

def actualGroup (groups : OrderedMap String (List String)) (name : String)
    (members : Set String) : Prop :=
  ∃ roles, groups.get? name = some roles ∧ members = {role | role ∈ roles}

/-- The text by which the grants on one table to one role are merged. -/
def pairKey (pair : String × String) : String := pair.1 ++ "/" ++ pair.2

/-- The members of a pair of table and role are the privileges. -/
def declaredGrant (d : Declaration) (pair : String × String) (members : Set String) : Prop :=
  (∃ table role privilege, Listed d (.table privilege table) role ∧
    declaredKey table role = pairKey pair) ∧
  members = {p | ∃ table role privilege, Listed d (.table privilege table) role ∧
    declaredKey table role = pairKey pair ∧ PRIV_SQL privilege = p}

def actualGrant (upper : CaseMapping) (lines : List String) (pair : String × String)
    (members : Set String) : Prop :=
  (∃ g ∈ lines.filterMap (parseGrantLine upper), grantKey g = pairKey pair) ∧
  members = {p | ∃ g ∈ lines.filterMap (parseGrantLine upper),
    grantKey g = pairKey pair ∧ p ∈ g.privileges}

def roleTarget (name : String) : String := "keycloak.role/" ++ name

def groupTarget (name : String) : String := "keycloak.group/" ++ name

def grantTarget (pair : String × String) : String := "pg.grant/" ++ pairKey pair

/-- How many items of a kind are about a target. -/
def itemCount (items : List DriftItem) (kind : DriftKind) (target : String) : ℕ :=
  items.countP fun item => item.kind = kind ∧ item.target = target

/-- Each key is reported once under its target where it should be, and nowhere else. -/
def Sorts {ι : Type} (items : List DriftItem) (target : ι → String)
    (declared actual : ι → Set String → Prop) : Prop :=
  Reconciled declared actual (fun key => itemCount items .unapplied (target key))
    (fun key => itemCount items .manual (target key))
    (fun key => itemCount items .mismatch (target key))

/-- The item for a line that cannot be parsed. -/
def unparsedItem (line : String) : DriftItem where
  kind := .manual
  target := "pg.grant/unparsed"
  detail := "해석할 수 없는 실제 GRANT 문장 — 수동 검토 필요: " ++ Text.trim line

def PartialState.WasRead (actual : PartialState) : DriftCategory → Prop
  | .keycloakRoles => actual.keycloakRoles.isSome
  | .keycloakGroups => actual.keycloakGroups.isSome
  | .pgGrants => actual.pgGrants.isSome

/-- The targets of the items of a category. -/
def DriftCategory.Concerns : DriftCategory → String → Prop
  | .keycloakRoles, target => ∃ name, target = roleTarget name
  | .keycloakGroups, target => ∃ name, target = groupTarget name
  | .pgGrants, target => target = "pg.grant/unparsed" ∨ ∃ pair, target = grantTarget pair

/-- A report that sorts what was read and says nothing about the rest. -/
structure Exact (upper : CaseMapping) (d : Declaration) (actual : PartialState)
    (report : DriftReport) : Prop where
  roles : ∀ names, actual.keycloakRoles = some names →
    Sorts report.items roleTarget (declaredRole d) (actualRole names)
  groups : ∀ groups, actual.keycloakGroups = some groups →
    Sorts report.items groupTarget (declaredGroup d) (actualGroup groups)
  grants : ∀ lines, actual.pgGrants = some lines →
    Sorts report.items grantTarget (declaredGrant d) (actualGrant upper lines)
  unparsed : ∀ lines, actual.pgGrants = some lines →
    (report.items.filter (·.target = "pg.grant/unparsed")).Perm
      ((lines.filter fun line => parseGrantLine upper line = none).map unparsedItem)
  onlyRead : ∀ item ∈ report.items, ∃ category : DriftCategory,
    actual.WasRead category ∧ category.Concerns item.target
  checked : ∀ category, category ∈ report.checked ↔ actual.WasRead category

/-- The comparison is fit for a declared name.  If it is missing, one group has it, and it is
no member that every record inherits.  If it is there, every group of the name lists the roles
that are there, each as often; or other roles are there, and all groups of the name but one are
spelled like these. -/
def NameComparable (d : Declaration) (name : String) : Option (List String) → Prop
  | none => name ∉ OBJECT_PROTOTYPE ∧ ∃ group, groupsNamed d name = [group]
  | some roles =>
      (∀ group ∈ groupsNamed d name, group.roles.Perm roles) ∨
        ({role | ∃ group ∈ groupsNamed d name, role ∈ group.roles} ≠ {role | role ∈ roles} ∧
          ∃ before group after, groupsNamed d name = before ++ group :: after ∧
            ¬SpelledLike group.roles roles ∧
            ∀ other ∈ before ++ after, SpelledLike other.roles roles)

def GroupsComparable (d : Declaration) (groups : OrderedMap String (List String)) : Prop :=
  ∀ group ∈ d.groups, NameComparable d group.name (groups.get? group.name)

/-- Texts that differ where both still are in their first part differ. -/
theorem append_ne_append {left right : String} (n : ℕ) (inLeft : n < left.toList.length)
    (inRight : n < right.toList.length) (differ : left.toList[n]? ≠ right.toList[n]?)
    (rest otherRest : String) : left ++ rest ≠ right ++ otherRest := by
  intro same
  apply differ
  have lists := congrArg String.toList same
  rw [String.toList_append, String.toList_append] at lists
  calc left.toList[n]?
      = (left.toList ++ rest.toList)[n]? := (List.getElem?_append_left inLeft).symm
    _ = (right.toList ++ otherRest.toList)[n]? := by rw [lists]
    _ = right.toList[n]? := List.getElem?_append_left inRight

theorem roleTarget_ne_groupTarget (name other : String) : roleTarget name ≠ groupTarget other :=
  append_ne_append 9 (by decide) (by decide) (by decide) name other

theorem roleTarget_ne_pg (name rest : String) : roleTarget name ≠ "pg.grant/" ++ rest :=
  append_ne_append 0 (by decide) (by decide) (by decide) name rest

theorem groupTarget_ne_pg (name rest : String) : groupTarget name ≠ "pg.grant/" ++ rest :=
  append_ne_append 0 (by decide) (by decide) (by decide) name rest

theorem unparsed_eq : "pg.grant/unparsed" = "pg.grant/" ++ "unparsed" := by decide

theorem grantTarget_ne_unparsed (pair : String × String) :
    grantTarget pair ≠ "pg.grant/unparsed" := by
  rw [unparsed_eq, grantTarget]
  intro same
  have slash : '/' ∈ (pairKey pair).toList := by simp [pairKey]
  rw [(String.append_right_inj _).mp same] at slash
  exact absurd slash (by decide)

theorem itemCount_append (items others : List DriftItem) (kind : DriftKind) (target : String) :
    itemCount (items ++ others) kind target =
      itemCount items kind target + itemCount others kind target :=
  List.countP_append

theorem itemCount_eq_zero {items : List DriftItem} {kind : DriftKind} {target : String}
    (elsewhere : ∀ item ∈ items, item.target ≠ target ∨ item.kind ≠ kind) :
    itemCount items kind target = 0 := by
  apply List.countP_eq_zero.mpr
  intro item member counted
  rw [decide_eq_true_eq] at counted
  rcases elsewhere item member with otherTarget | otherKind
  · exact otherTarget counted.2
  · exact otherKind counted.1

/-! ## Roles -/

section

variable {d : Declaration} {artifacts : Artifacts}

theorem occurs_declaredRole (name : String) :
    Occurs (declaredRole d) name ↔ name ∈ d.roleNames := by
  simp [Occurs, declaredRole]

theorem occurs_actualRole (names : List String) (name : String) :
    Occurs (actualRole names) name ↔ name ∈ names := by
  simp [Occurs, actualRole]

/-- Of the items made of distinct names, one is about a name. -/
theorem once_itemCount {names : List String} (nodup : names.Nodup) (kind : DriftKind)
    (target detail : String → String) (injective : Function.Injective target) (name : String) :
    Once (itemCount (names.map fun name => ⟨kind, target name, detail name⟩) kind (target name))
      (name ∈ names) := by
  rw [itemCount, List.countP_map]
  apply once_countP nodup
  intro other _
  simp [injective.eq_iff]

theorem roleTarget_injective : Function.Injective roleTarget := fun _ _ same =>
  (String.append_right_inj _).mp same

theorem groupTarget_injective : Function.Injective groupTarget := fun _ _ same =>
  (String.append_right_inj _).mp same

theorem itemCount_map_of_ne {names : List String} (kind : DriftKind) {other : DriftKind}
    (different : kind ≠ other)
    (target detail : String → String) (about : String) :
    itemCount (names.map fun name => ⟨kind, target name, detail name⟩) other about = 0 := by
  apply itemCount_eq_zero
  intro item member
  rcases List.mem_map.mp member with ⟨name, _, rfl⟩
  exact Or.inr different

theorem Checked.sorts_roles (checked : Checked d)
    (compiled : artifacts.keycloak = compileKeycloak d)
    {names : List String} (distinct : names.Nodup) :
    Sorts (diffKeycloakRoles artifacts names) roleTarget (declaredRole d) (actualRole names) := by
  have sameNames : ∀ name, name ∈ artifacts.keycloak.realmRoles.map KeycloakRole.name ↔
      name ∈ d.roleNames := fun name => compiled ▸ mem_realmRoles d name
  have declaredNodup : (artifacts.keycloak.realmRoles.map KeycloakRole.name).Nodup := by
    have perm : ((compileKeycloak d).realmRoles.map KeycloakRole.name).Perm d.roleNames := by
      have sorted := ((Text.sortBy_perm (fun a b => cmp a.name b.name) (d.roles.map fun r =>
        ({ name := r.name, composite := decide (r.parents.length > 0)
           composites := Text.sortBy cmp r.parents } : KeycloakRole))).map KeycloakRole.name)
      rw [List.map_map] at sorted
      exact sorted
    rw [compiled]
    exact perm.nodup_iff.mpr checked.pgRole_nodup.of_map
  constructor
  · intro name
    rw [occurs_declaredRole, occurs_actualRole, diffKeycloakRoles, itemCount_append,
      itemCount_map_of_ne .manual (by decide), Nat.add_zero, ← sameNames]
    have found := once_itemCount (declaredNodup.filter (· ∉ names)) .unapplied roleTarget
      (fun _ => "선언됨, 실제 없음") roleTarget_injective name
    rw [List.mem_filter, decide_eq_true_eq] at found
    exact found
  · intro name
    rw [occurs_declaredRole, occurs_actualRole, diffKeycloakRoles, itemCount_append,
      itemCount_map_of_ne .unapplied (by decide), Nat.zero_add, ← sameNames]
    have found := once_itemCount (distinct.filter
      (· ∉ artifacts.keycloak.realmRoles.map KeycloakRole.name)) .manual roleTarget
      (fun _ => "실제에만 존재 — 수동 변경 의심") roleTarget_injective name
    rw [List.mem_filter, decide_eq_true_eq, and_comm] at found
    exact found
  · intro name left right isDeclared isThere
    have same : ¬left ≠ right := not_not.mpr (isDeclared.2.trans isThere.2.symm)
    rw [once_of_not same, diffKeycloakRoles, itemCount_append,
      itemCount_map_of_ne .unapplied (by decide), itemCount_map_of_ne .manual (by decide)]
  · intro name _
    rw [diffKeycloakRoles, itemCount_append,
      itemCount_map_of_ne .unapplied (by decide), itemCount_map_of_ne .manual (by decide)]

/-! ## Grants -/

variable (upper : CaseMapping)

/-- What lines grant on a table to a role is what is merged under the key of the two. -/
theorem actualGrant_iff (lines : List String) (pair : String × String) (members : Set String) :
    actualGrant upper lines pair members ↔ ∃ g,
      (mergeGrantLines upper lines).get? (pairKey pair) = some g ∧
        members = {p | p ∈ g.privileges} := by
  have privileges : ∀ g, (mergeGrantLines upper lines).get? (pairKey pair) = some g →
      {p | ∃ g ∈ lines.filterMap (parseGrantLine upper), grantKey g = pairKey pair ∧
        p ∈ g.privileges} = {p | p ∈ g.privileges} := by
    intro g stored
    ext p
    rw [Set.mem_ofPred_eq, ← mem_privileges_mergeGrantLines, stored]
    simp
  rw [actualGrant, ← mem_keys_mergeGrantLines, OrderedMap.mem_keys_iff]
  constructor
  · rintro ⟨⟨g, stored⟩, isSet⟩
    exact ⟨g, stored, isSet.trans (privileges g stored)⟩
  · rintro ⟨g, stored, isSet⟩
    exact ⟨⟨g, stored⟩, isSet.trans (privileges g stored).symm⟩

theorem occurs_actualGrant (lines : List String) (pair : String × String) :
    Occurs (actualGrant upper lines) pair ↔
      ∃ g, (mergeGrantLines upper lines).get? (pairKey pair) = some g := by
  simp only [Occurs, actualGrant_iff]
  constructor
  · rintro ⟨_, g, stored, _⟩
    exact ⟨g, stored⟩
  · rintro ⟨g, stored⟩
    exact ⟨_, g, stored, rfl⟩

/-- The script grants what is declared. -/
theorem Checked.declaredGrant_iff (checked : Checked d) (pair : String × String)
    (members : Set String) : declaredGrant d pair members ↔
      actualGrant upper (Text.split '\n' (compilePgDdl d)) pair members := by
  have occurs : (∃ g ∈ (Text.split '\n' (compilePgDdl d)).filterMap (parseGrantLine upper),
      grantKey g = pairKey pair) ↔ ∃ table role privilege, Listed d (.table privilege table) role ∧
        declaredKey table role = pairKey pair := by
    constructor
    · rintro ⟨g, parsed, isKey⟩
      rcases checked.exists_privilege_of_script upper parsed with ⟨p, inSet⟩
      rcases (checked.read_script upper _ p).mp ⟨g, parsed, isKey, inSet⟩ with
        ⟨table, role, privilege, listed, sameKey, _⟩
      exact ⟨table, role, privilege, listed, sameKey⟩
    · rintro ⟨table, role, privilege, listed, sameKey⟩
      rcases (checked.read_script upper _ _).mpr ⟨table, role, privilege, listed, sameKey, rfl⟩ with
        ⟨g, parsed, isKey, _⟩
      exact ⟨g, parsed, isKey⟩
  simp only [declaredGrant, actualGrant, occurs, checked.read_script]

theorem length_diffDeclaredGrant (actualByKey : OrderedMap String ParsedGrant)
    (declared : String × ParsedGrant) : (diffDeclaredGrant actualByKey declared).length ≤ 1 := by
  unfold diffDeclaredGrant
  split
  · exact le_refl 1
  · split
    · exact Nat.zero_le 1
    · exact le_refl 1

theorem target_diffDeclaredGrant {actualByKey : OrderedMap String ParsedGrant}
    {declared : String × ParsedGrant} {item : DriftItem}
    (member : item ∈ diffDeclaredGrant actualByKey declared) :
    item.target = "pg.grant/" ++ declared.1 := by
  unfold diffDeclaredGrant at member
  split at member
  · rw [List.mem_singleton.mp member]
  · split at member
    · exact absurd member List.not_mem_nil
    · rw [List.mem_singleton.mp member]

/-- The items about one key come from what is declared and reported under it. -/
theorem itemCount_diffPgGrants (lines : List String) (kind : DriftKind) (pair : String × String) :
    itemCount (diffPgGrants upper artifacts lines) kind (grantTarget pair) =
      (((desiredPgGrants upper artifacts).get? (pairKey pair)).map fun g =>
        if (diffDeclaredGrant (mergeGrantLines upper lines) (pairKey pair, g)).any
          (·.kind = kind) then 1 else 0).getD 0 +
      (((mergeGrantLines upper lines).get? (pairKey pair)).map fun _ =>
        if kind = .manual ∧ (desiredPgGrants upper artifacts).get? (pairKey pair) = none
          then 1 else 0).getD 0 := by
  have unparsed : itemCount ((unparsedLines upper lines).map unparsedItem) kind (grantTarget pair) =
      0 := by
    apply itemCount_eq_zero
    intro item member
    rcases List.mem_map.mp member with ⟨line, _, rfl⟩
    exact Or.inl (grantTarget_ne_unparsed pair).symm
  have declared : itemCount ((desiredPgGrants upper artifacts).entries.flatMap
      (diffDeclaredGrant (mergeGrantLines upper lines))) kind (grantTarget pair) =
      (((desiredPgGrants upper artifacts).get? (pairKey pair)).map fun g =>
        if (diffDeclaredGrant (mergeGrantLines upper lines) (pairKey pair, g)).any
          (·.kind = kind) then 1 else 0).getD 0 := by
    have only : ∀ entry ∈ (desiredPgGrants upper artifacts).entries,
        ((diffDeclaredGrant (mergeGrantLines upper lines) entry).any fun item =>
          item.kind = kind ∧ item.target = grantTarget pair) = true → entry.1 = pairKey pair := by
      intro entry _ counted
      rcases List.any_eq_true.mp counted with ⟨item, member, about⟩
      rw [decide_eq_true_eq, target_diffDeclaredGrant member] at about
      exact (String.append_right_inj _).mp about.2
    rw [itemCount, countP_flatMap_of_short (length_diffDeclaredGrant _),
      OrderedMap.countP_entries only]
    have target : ∀ g, ((diffDeclaredGrant (mergeGrantLines upper lines) (pairKey pair, g)).any
        fun item => item.kind = kind ∧ item.target = grantTarget pair) =
        (diffDeclaredGrant (mergeGrantLines upper lines) (pairKey pair, g)).any
        (·.kind = kind) := by
      intro g
      rw [Bool.eq_iff_iff, List.any_eq_true, List.any_eq_true]
      apply exists_congr
      intro item
      apply and_congr_right
      intro member
      simp [target_diffDeclaredGrant member, grantTarget]
    simp only [target]
  have manual : itemCount (((mergeGrantLines upper lines).entries.filter
        (·.1 ∉ (desiredPgGrants upper artifacts).keys)).map fun actual =>
      { kind := .manual, target := "pg.grant/" ++ actual.1
        detail := "실제에만 존재 — 수동 변경 의심 (" ++ formatPrivileges actual.2.privileges ++ ")" })
      kind (grantTarget pair) =
      (((mergeGrantLines upper lines).get? (pairKey pair)).map fun _ =>
        if kind = .manual ∧ (desiredPgGrants upper artifacts).get? (pairKey pair) = none
          then 1 else 0).getD 0 := by
    rw [itemCount, List.countP_map, List.countP_filter,
      @OrderedMap.countP_entries _ _ _ _ _ (pairKey pair)]
    · simp only [Function.comp_apply, grantTarget, and_true, Bool.and_eq_true, decide_eq_true_eq,
        OrderedMap.get?_eq_none_iff, @eq_comm _ DriftKind.manual]
    · intro entry _ counted
      simp only [Function.comp_apply, grantTarget, Bool.and_eq_true, decide_eq_true_eq] at counted
      exact (String.append_right_inj _).mp (of_decide_eq_true counted.1).2
  rw [diffPgGrants, itemCount_append, itemCount_append, manual]
  rw [declared]
  exact congrArg (· + _) ((congrArg (· + _) unparsed).trans (Nat.zero_add _))

theorem Checked.sorts_grants (checked : Checked d) (compiled : artifacts.pgddl = compilePgDdl d)
    (lines : List String) :
    Sorts (diffPgGrants upper artifacts lines) grantTarget (declaredGrant d)
      (actualGrant upper lines) := by
  have declared : ∀ pair members, declaredGrant d pair members ↔ ∃ g,
      (desiredPgGrants upper artifacts).get? (pairKey pair) = some g ∧
        members = {p | p ∈ g.privileges} := by
    intro pair members
    rw [checked.declaredGrant_iff upper, actualGrant_iff, desiredPgGrants, compiled]
  have occursDeclared : ∀ pair, Occurs (declaredGrant d) pair ↔ ∃ g,
      (desiredPgGrants upper artifacts).get? (pairKey pair) = some g := by
    intro pair
    rw [desiredPgGrants, compiled, ← occurs_actualGrant]
    exact exists_congr fun members => checked.declaredGrant_iff upper pair members
  constructor
  · intro pair
    rw [occursDeclared, occurs_actualGrant, itemCount_diffPgGrants]
    cases wanted : (desiredPgGrants upper artifacts).get? (pairKey pair) <;>
      cases there : (mergeGrantLines upper lines).get? (pairKey pair) <;>
        simp [Once, diffDeclaredGrant, there]
  · intro pair
    rw [occursDeclared, occurs_actualGrant, itemCount_diffPgGrants]
    cases wanted : (desiredPgGrants upper artifacts).get? (pairKey pair) <;>
      cases there : (mergeGrantLines upper lines).get? (pairKey pair) <;>
        simp [Once, diffDeclaredGrant, there]
  · intro pair left right isDeclared isThere
    rcases (declared pair left).mp isDeclared with ⟨g, wanted, rfl⟩
    rcases (actualGrant_iff upper lines pair right).mp isThere with ⟨a, there, rfl⟩
    have same : privilegesEqual a g = true ↔ {p | p ∈ g.privileges} = {p | p ∈ a.privileges} := by
      rw [privilegesEqual_iff, Set.ext_iff]
      exact forall_congr' fun p => iff_comm
    rw [itemCount_diffPgGrants, wanted, there, Ne, ← same]
    by_cases equal : privilegesEqual a g = true
    · simp [Once, diffDeclaredGrant, there, equal]
    · simp [Once, diffDeclaredGrant, there, equal]
  · intro pair oneSided
    rw [occursDeclared, occurs_actualGrant] at oneSided
    rw [itemCount_diffPgGrants]
    cases wanted : (desiredPgGrants upper artifacts).get? (pairKey pair) <;>
      cases there : (mergeGrantLines upper lines).get? (pairKey pair) <;>
        simp_all [diffDeclaredGrant]

/-! ## Groups -/

/-- The items about a declared group that is no inherited member. -/
def comparedGroup (groups : OrderedMap String (List String)) (g : KeycloakGroup) : List DriftItem :=
  match groups.get? g.name with
  | none =>
      [{ kind := .unapplied, target := groupTarget g.name, detail := "선언됨, 실제 없음" }]
  | some roles =>
      if joinedRoles g.realmRoles ≠ joinedRoles roles then
        [{ kind := .mismatch, target := groupTarget g.name
           detail := "롤 구성이 다르다 — 선언: [" ++ joinedRoles g.realmRoles ++ "], 실제: [" ++
            joinedRoles roles ++ "]" }]
      else []

/-- A group is taken for an inherited member. -/
def IsInherited (groups : OrderedMap String (List String)) (g : KeycloakGroup) : Prop :=
  groups.get? g.name = none ∧ g.name ∈ OBJECT_PROTOTYPE

instance (groups : OrderedMap String (List String)) (g : KeycloakGroup) :
    Decidable (IsInherited groups g) :=
  inferInstanceAs (Decidable (_ ∧ _))

theorem diffKeycloakGroup_eq (groups : OrderedMap String (List String)) (g : KeycloakGroup) :
    diffKeycloakGroup groups g =
      if IsInherited groups g then .error "actualRolesOfGroup is not iterable"
      else .ok (comparedGroup groups g) := by
  cases stored : groups.get? g.name with
  | none =>
      by_cases member : g.name ∈ OBJECT_PROTOTYPE
      · simp [diffKeycloakGroup, IsInherited, stored, member]
      · simp [diffKeycloakGroup, IsInherited, comparedGroup, groupTarget, stored, member]
  | some roles =>
      by_cases same : joinedRoles g.realmRoles = joinedRoles roles
      · simp [diffKeycloakGroup, IsInherited, comparedGroup, stored, same]
      · simp [diffKeycloakGroup, IsInherited, comparedGroup, groupTarget, stored, same]

/-- Steps that fail on some items succeed together when none of these is met. -/
theorem mapM_eq_ok_iff_forall {ι β ε : Type} {step : ι → Except ε β} {fails : ι → Prop}
    [DecidablePred fails] {failure : ε} {value : ι → β}
    (steps : ∀ item, step item = if fails item then .error failure else .ok (value item))
    (items : List ι) (results : List β) :
    items.mapM step = .ok results ↔ (∀ item ∈ items, ¬fails item) ∧ results = items.map value := by
  induction items generalizing results with
  | nil => simp [pure, Except.pure, eq_comm]
  | cons item rest ih =>
      rw [List.forall_mem_cons, List.mapM_cons, steps]
      by_cases failed : fails item
      · simp [failed, bind, Except.bind]
      · rw [if_neg failed]
        cases others : rest.mapM step with
        | error message =>
            have someFails : ¬∀ item ∈ rest, ¬fails item := by
              intro noneFails
              have succeeded := (ih (rest.map value)).mpr ⟨noneFails, rfl⟩
              rw [others] at succeeded
              cases succeeded
            simp [bind, Except.bind, someFails]
        | ok later =>
            rcases (ih later).mp others with ⟨noneFails, rfl⟩
            simp [bind, Except.bind, pure, Except.pure, failed]
            rw [and_iff_right noneFails]
            exact eq_comm

/-- The items about groups when nothing is raised. -/
def groupsItems (desired : Artifacts) (groups : OrderedMap String (List String)) : List DriftItem :=
  desired.keycloak.groups.flatMap (comparedGroup groups) ++
    (groups.keys.filter (· ∉ desired.keycloak.groups.map KeycloakGroup.name)).map fun name =>
      { kind := .manual, target := groupTarget name, detail := "실제에만 존재 — 수동 변경 의심" }

theorem diffKeycloakGroups_eq_ok_iff (groups : OrderedMap String (List String))
    (items : List DriftItem) : diffKeycloakGroups artifacts groups = .ok items ↔
      (∀ g ∈ artifacts.keycloak.groups, ¬IsInherited groups g) ∧
        items = groupsItems artifacts groups := by
  rw [diffKeycloakGroups]
  cases declared : artifacts.keycloak.groups.mapM (diffKeycloakGroup groups) with
  | error message =>
      have someInherited : ¬∀ g ∈ artifacts.keycloak.groups, ¬IsInherited groups g := by
        intro noneFails
        have succeeded :=
          (mapM_eq_ok_iff_forall (diffKeycloakGroup_eq groups) _ _).mpr ⟨noneFails, rfl⟩
        rw [declared] at succeeded
        cases succeeded
      simp [bind, Except.bind, someInherited]
  | ok found =>
      rcases (mapM_eq_ok_iff_forall (diffKeycloakGroup_eq groups) _ _).mp declared with
        ⟨noneFails, rfl⟩
      rw [and_iff_right noneFails]
      simp only [bind, Except.bind, pure, Except.pure, Except.ok.injEq, groupsItems,
        List.flatMap_def]
      exact eq_comm

theorem length_comparedGroup (groups : OrderedMap String (List String)) (g : KeycloakGroup) :
    (comparedGroup groups g).length ≤ 1 := by
  unfold comparedGroup
  split
  · exact le_refl 1
  · split
    · exact le_refl 1
    · exact Nat.zero_le 1

theorem target_comparedGroup {groups : OrderedMap String (List String)} {g : KeycloakGroup}
    {item : DriftItem} (member : item ∈ comparedGroup groups g) :
    item.target = groupTarget g.name := by
  unfold comparedGroup at member
  split at member
  · rw [List.mem_singleton.mp member]
  · split at member
    · rw [List.mem_singleton.mp member]
    · exact absurd member List.not_mem_nil

theorem joinedRoles_sortBy (roles : List String) :
    joinedRoles (Text.sortBy cmp roles) = joinedRoles roles :=
  congrArg (Text.join ",") (Text.sortBy_compareUnits_eq_of_perm (Text.sortBy_perm cmp roles))

theorem countP_compiled_groups (meets : KeycloakGroup → Bool) :
    (compileKeycloak d).groups.countP meets =
      d.groups.countP fun group => meets ⟨group.name, Text.sortBy cmp group.roles⟩ := by
  rw [compileKeycloak, (Text.sortBy_perm _ _).countP_eq, List.countP_map]
  rfl

/-- The items about one name come from the entries of this name. -/
theorem itemCount_comparedGroup (compiled : artifacts.keycloak = compileKeycloak d)
    (groups : OrderedMap String (List String)) (kind : DriftKind) (name : String) :
    itemCount (artifacts.keycloak.groups.flatMap (comparedGroup groups)) kind (groupTarget name) =
      d.groups.countP fun group => group.name = name ∧
        (comparedGroup groups ⟨group.name, Text.sortBy cmp group.roles⟩).any (·.kind = kind) := by
  rw [itemCount, countP_flatMap_of_short (length_comparedGroup groups), compiled,
    countP_compiled_groups]
  apply List.countP_congr
  intro group _
  rw [List.any_eq_true, decide_eq_true_eq, List.any_eq_true]
  constructor
  · rintro ⟨item, member, about⟩
    rw [decide_eq_true_eq, target_comparedGroup member] at about
    exact ⟨groupTarget_injective about.2, item, member, decide_eq_true about.1⟩
  · rintro ⟨sameName, item, member, isKind⟩
    refine ⟨item, member, decide_eq_true ⟨of_decide_eq_true isKind, ?_⟩⟩
    rw [target_comparedGroup member, ← sameName]

theorem unapplied_groupsItems (compiled : artifacts.keycloak = compileKeycloak d)
    (groups : OrderedMap String (List String)) (name : String) :
    itemCount (groupsItems artifacts groups) .unapplied (groupTarget name) =
      if groups.get? name = none then (groupsNamed d name).length else 0 := by
  rw [groupsItems, itemCount_append, itemCount_map_of_ne .manual (by decide), Nat.add_zero,
    itemCount_comparedGroup compiled]
  split
  · rename_i absent
    rw [groupsNamed, ← List.countP_eq_length_filter]
    apply List.countP_congr
    intro group _
    rw [decide_eq_true_eq, decide_eq_true_eq]
    refine ⟨And.left, fun sameName => ⟨sameName, ?_⟩⟩
    simp [comparedGroup, sameName, absent]
  · rename_i present
    rcases Option.ne_none_iff_exists'.mp present with ⟨roles, stored⟩
    apply List.countP_eq_zero.mpr
    intro group _
    rw [decide_eq_true_eq]
    rintro ⟨sameName, counted⟩
    by_cases same : joinedRoles (Text.sortBy cmp group.roles) = joinedRoles roles
    · simp [comparedGroup, sameName, stored, same] at counted
    · simp [comparedGroup, sameName, stored, same] at counted

theorem mismatch_groupsItems (compiled : artifacts.keycloak = compileKeycloak d)
    {groups : OrderedMap String (List String)} {name : String} {roles : List String}
    (stored : groups.get? name = some roles) :
    itemCount (groupsItems artifacts groups) .mismatch (groupTarget name) =
      (groupsNamed d name).countP fun group => joinedRoles group.roles ≠ joinedRoles roles := by
  rw [groupsItems, itemCount_append, itemCount_map_of_ne .manual (by decide), Nat.add_zero,
    itemCount_comparedGroup compiled, groupsNamed, List.countP_filter]
  apply List.countP_congr
  intro group _
  rw [decide_eq_true_eq, Bool.and_eq_true, decide_eq_true_eq, decide_eq_true_eq, and_comm]
  apply and_congr_left
  intro sameName
  by_cases same : joinedRoles group.roles = joinedRoles roles
  · simp [comparedGroup, sameName, stored, joinedRoles_sortBy, same]
  · simp [comparedGroup, sameName, stored, joinedRoles_sortBy, same]

theorem mismatch_groupsItems_of_none (compiled : artifacts.keycloak = compileKeycloak d)
    {groups : OrderedMap String (List String)} {name : String}
    (oneSided : groups.get? name = none ∨ name ∉ d.groups.map Group.name) :
    itemCount (groupsItems artifacts groups) .mismatch (groupTarget name) = 0 := by
  rw [groupsItems, itemCount_append, itemCount_map_of_ne .manual (by decide), Nat.add_zero,
    itemCount_comparedGroup compiled]
  apply List.countP_eq_zero.mpr
  intro group declared
  rw [decide_eq_true_eq]
  rintro ⟨sameName, counted⟩
  rcases oneSided with absent | undeclared
  · simp [comparedGroup, sameName, absent] at counted
  · exact undeclared (sameName ▸ List.mem_map_of_mem declared)

theorem manual_groupsItems (compiled : artifacts.keycloak = compileKeycloak d)
    (groups : OrderedMap String (List String)) (name : String) :
    Once (itemCount (groupsItems artifacts groups) .manual (groupTarget name))
      (name ∈ groups.keys ∧ name ∉ d.groups.map Group.name) := by
  have declared : itemCount (artifacts.keycloak.groups.flatMap (comparedGroup groups)) .manual
      (groupTarget name) = 0 := by
    rw [itemCount_comparedGroup compiled]
    apply List.countP_eq_zero.mpr
    intro group _
    rw [decide_eq_true_eq]
    rintro ⟨_, counted⟩
    unfold comparedGroup at counted
    split at counted
    · simp at counted
    · split at counted
      · simp at counted
      · simp at counted
  have keysNodup : groups.keys.Nodup := groups.keys_nodup
  have found := once_itemCount (keysNodup.filter
    (· ∉ artifacts.keycloak.groups.map KeycloakGroup.name)) .manual groupTarget
    (fun _ => "실제에만 존재 — 수동 변경 의심") groupTarget_injective name
  rw [List.mem_filter, decide_eq_true_eq, compiled, mem_keycloakGroupNames, ← compiled] at found
  rw [groupsItems, itemCount_append, declared, Nat.zero_add]
  exact found

theorem mem_groupsNamed {name : String} {group : Group} :
    group ∈ groupsNamed d name ↔ group ∈ d.groups ∧ group.name = name := by
  rw [groupsNamed, List.mem_filter, decide_eq_true_eq]

theorem groupsNamed_ne_nil_iff (name : String) :
    groupsNamed d name ≠ [] ↔ name ∈ d.groups.map Group.name := by
  rw [Ne, groupsNamed, List.filter_eq_nil_iff]
  simp

theorem occurs_declaredGroup (name : String) :
    Occurs (declaredGroup d) name ↔ name ∈ d.groups.map Group.name := by
  simp [Occurs, declaredGroup, groupsNamed_ne_nil_iff]

theorem occurs_actualGroup (groups : OrderedMap String (List String)) (name : String) :
    Occurs (actualGroup groups) name ↔ name ∈ groups.keys := by
  simp [Occurs, actualGroup, OrderedMap.mem_keys_iff]

theorem joinedRoles_eq_of_perm {left right : List String} (perm : left.Perm right) :
    joinedRoles left = joinedRoles right :=
  congrArg (Text.join ",") (Text.sortBy_compareUnits_eq_of_perm perm)

theorem Checked.groupRoles_separate (checked : Checked d) {name : String} {group : Group}
    (named : group ∈ groupsNamed d name) : ∀ role ∈ group.roles, IsSeparate role := by
  intro role listed
  exact checked.isSeparate (checked.groupRoleKnown group (mem_groupsNamed.mp named).1 role listed)

/-- The mismatches under a name are exact just when the comparison is fit for what is there. -/
theorem Checked.mismatch_once_iff (checked : Checked d) {name : String}
    (isDeclared : groupsNamed d name ≠ []) (roles : List String) :
    Once ((groupsNamed d name).countP fun group => joinedRoles group.roles ≠ joinedRoles roles)
        ({role | ∃ group ∈ groupsNamed d name, role ∈ group.roles} ≠ {role | role ∈ roles}) ↔
      NameComparable d name (some roles) := by
  have spelled : ∀ group ∈ groupsNamed d name,
      joinedRoles group.roles = joinedRoles roles ↔ SpelledLike group.roles roles :=
    fun group named => joinedRoles_eq_iff_spelledLike (checked.groupRoles_separate named)
  constructor
  · intro exactly
    by_cases same : {role | ∃ group ∈ groupsNamed d name, role ∈ group.roles} =
        {role | role ∈ roles}
    · left
      have zero := exactly.2 (not_not.mpr same)
      have separate : ∀ role ∈ roles, IsSeparate role := by
        intro role listed
        rcases (Set.ext_iff.mp same role).mpr listed with ⟨group, named, inGroup⟩
        exact checked.groupRoles_separate named role inGroup
      intro group named
      have notCounted := List.countP_eq_zero.mp zero group named
      rw [decide_eq_true_eq, not_not] at notCounted
      exact (joinedRoles_eq_iff (checked.groupRoles_separate named) separate).mp notCounted
    · right
      refine ⟨same, ?_⟩
      rcases countP_eq_one_iff.mp (exactly.1 same) with ⟨before, group, after, split, met, others⟩
      have named : ∀ other ∈ before ++ group :: after, other ∈ groupsNamed d name :=
        fun other member => split ▸ member
      refine ⟨before, group, after, split, ?_, ?_⟩
      · rw [← spelled group (named group (by simp))]
        exact of_decide_eq_true met
      · intro other member
        have inNamed := named other (by simp at member ⊢; tauto)
        rw [← spelled other inNamed]
        exact not_not.mp (of_decide_eq_false (others other member))
  · rintro (perms | ⟨differ, before, group, after, split, unlike, others⟩)
    · have same : {role | ∃ group ∈ groupsNamed d name, role ∈ group.roles} =
          {role | role ∈ roles} := by
        ext role
        constructor
        · rintro ⟨group, named, listed⟩
          exact (perms group named).mem_iff.mp listed
        · intro listed
          rcases List.exists_mem_of_ne_nil _ isDeclared with ⟨group, named⟩
          exact ⟨group, named, (perms group named).mem_iff.mpr listed⟩
      rw [once_of_not (not_not.mpr same)]
      apply List.countP_eq_zero.mpr
      intro group named
      rw [decide_eq_true_eq, not_not]
      exact joinedRoles_eq_of_perm (perms group named)
    · have named : ∀ other ∈ before ++ group :: after, other ∈ groupsNamed d name :=
        fun other member => split ▸ member
      rw [once_of differ]
      apply countP_eq_one_iff.mpr
      refine ⟨before, group, after, split, ?_, ?_⟩
      · rw [decide_eq_true_eq, Ne, spelled group (named group (by simp))]
        exact unlike
      · intro other member
        have inNamed := named other (by simp at member ⊢; tauto)
        rw [decide_eq_false_iff_not, not_not, spelled other inNamed]
        exact others other member

theorem Checked.groups_exact_iff (checked : Checked d)
    (compiled : artifacts.keycloak = compileKeycloak d) (groups : OrderedMap String (List String)) :
    (∀ g ∈ artifacts.keycloak.groups, ¬IsInherited groups g) ∧
        Sorts (groupsItems artifacts groups) groupTarget (declaredGroup d) (actualGroup groups) ↔
      GroupsComparable d groups := by
  constructor
  · rintro ⟨noneInherited, sorts⟩
    intro group declared
    have isDeclared : group.name ∈ d.groups.map Group.name := List.mem_map_of_mem declared
    cases stored : groups.get? group.name with
    | none =>
        have once := sorts.missing_once group.name
        rw [occurs_declaredGroup, occurs_actualGroup, ← OrderedMap.get?_eq_none_iff,
          unapplied_groupsItems compiled, if_pos stored, once_of ⟨isDeclared, stored⟩] at once
        refine ⟨?_, List.length_eq_one_iff.mp once⟩
        intro inherited
        rw [compiled] at noneInherited
        exact noneInherited _ ((mem_keycloakGroups d _).mpr ⟨group, declared, rfl⟩)
          ⟨stored, inherited⟩
    | some roles =>
        have isNamed := (groupsNamed_ne_nil_iff group.name).mpr isDeclared
        apply (checked.mismatch_once_iff isNamed roles).mp
        have once := sorts.different_once group.name _ _ ⟨isNamed, rfl⟩ ⟨roles, stored, rfl⟩
        rw [mismatch_groupsItems compiled stored] at once
        exact once
  · intro comparable
    constructor
    · intro g inGroups
      rw [compiled] at inGroups
      rcases (mem_keycloakGroups d g).mp inGroups with ⟨group, declared, rfl⟩
      rintro ⟨absent, inherited⟩
      have fit := comparable group declared
      rw [absent] at fit
      exact fit.1 inherited
    · constructor
      · intro name
        rw [occurs_declaredGroup, occurs_actualGroup, ← OrderedMap.get?_eq_none_iff,
          unapplied_groupsItems compiled]
        constructor
        · rintro ⟨isDeclared, absent⟩
          rcases List.mem_map.mp isDeclared with ⟨group, declared, rfl⟩
          have fit := comparable group declared
          rw [absent] at fit
          rw [if_pos absent]
          exact List.length_eq_one_iff.mpr fit.2
        · intro notMissing
          split
          · rename_i absent
            rw [List.length_eq_zero_iff]
            by_contra isNamed
            exact notMissing ⟨(groupsNamed_ne_nil_iff name).mp isNamed, absent⟩
          · rfl
      · intro name
        rw [occurs_declaredGroup, occurs_actualGroup, and_comm]
        exact manual_groupsItems compiled groups name
      · rintro name _ _ ⟨isNamed, rfl⟩ ⟨roles, stored, rfl⟩
        rcases List.exists_mem_of_ne_nil _ isNamed with ⟨group, named⟩
        rcases mem_groupsNamed.mp named with ⟨declared, sameName⟩
        have fit := comparable group declared
        rw [sameName, stored] at fit
        rw [mismatch_groupsItems compiled stored]
        exact (checked.mismatch_once_iff isNamed roles).mpr fit
      · intro name oneSided
        rw [occurs_declaredGroup, occurs_actualGroup, not_and_or,
          ← OrderedMap.get?_eq_none_iff] at oneSided
        exact mismatch_groupsItems_of_none compiled oneSided.symm

/-! ## The whole report -/

theorem target_diffKeycloakRoles {names : List String} {item : DriftItem}
    (member : item ∈ diffKeycloakRoles artifacts names) :
    ∃ name, item.target = roleTarget name := by
  rcases List.mem_append.mp member with missing | extra
  · rcases List.mem_map.mp missing with ⟨name, _, rfl⟩
    exact ⟨name, rfl⟩
  · rcases List.mem_map.mp extra with ⟨name, _, rfl⟩
    exact ⟨name, rfl⟩

theorem target_groupsItems {groups : OrderedMap String (List String)} {item : DriftItem}
    (member : item ∈ groupsItems artifacts groups) : ∃ name, item.target = groupTarget name := by
  rcases List.mem_append.mp member with declared | extra
  · rcases List.mem_flatMap.mp declared with ⟨g, _, inItems⟩
    exact ⟨g.name, target_comparedGroup inItems⟩
  · rcases List.mem_map.mp extra with ⟨name, _, rfl⟩
    exact ⟨name, rfl⟩

/-- The keys under which grants are merged are keys of pairs. -/
theorem exists_pairKey {lines : List String} {key : String}
    (isKey : key ∈ (mergeGrantLines upper lines).keys) : ∃ pair, key = pairKey pair := by
  rcases (mem_keys_mergeGrantLines upper lines key).mp isKey with ⟨g, _, rfl⟩
  exact ⟨(g.table, g.role), rfl⟩

theorem target_diffPgGrants {lines : List String} {item : DriftItem}
    (member : item ∈ diffPgGrants upper artifacts lines) :
    item.target = "pg.grant/unparsed" ∨ ∃ pair, item.target = grantTarget pair := by
  rcases List.mem_append.mp member with first | extra
  · rcases List.mem_append.mp first with unread | declared
    · rcases List.mem_map.mp unread with ⟨line, _, rfl⟩
      exact Or.inl rfl
    · rcases List.mem_flatMap.mp declared with ⟨entry, inEntries, inItems⟩
      rcases exists_pairKey upper (List.mem_map_of_mem inEntries) with ⟨pair, isKey⟩
      exact Or.inr ⟨pair, by rw [target_diffDeclaredGrant inItems, isKey, grantTarget]⟩
  · rcases List.mem_map.mp extra with ⟨entry, inFilter, rfl⟩
    rcases exists_pairKey upper (List.mem_map_of_mem (List.mem_filter.mp inFilter).1) with
      ⟨pair, isKey⟩
    exact Or.inr ⟨pair, by rw [grantTarget, ← isKey]⟩

theorem target_ne_of_pg {target : String}
    (concerns : target = "pg.grant/unparsed" ∨ ∃ pair, target = grantTarget pair) (name : String) :
    target ≠ roleTarget name ∧ target ≠ groupTarget name := by
  have spelled : ∃ rest, target = "pg.grant/" ++ rest := by
    rcases concerns with rfl | ⟨pair, rfl⟩
    · exact ⟨"unparsed", unparsed_eq⟩
    · exact ⟨pairKey pair, rfl⟩
  rcases spelled with ⟨rest, rfl⟩
  exact ⟨(roleTarget_ne_pg name rest).symm, (groupTarget_ne_pg name rest).symm⟩

/-- The items of a report before they are sorted. -/
def foundItems (desired : Artifacts) (actual : PartialState) : List DriftItem :=
  whenRead actual.keycloakRoles (diffKeycloakRoles desired) ++
    whenRead actual.keycloakGroups (groupsItems desired) ++
    whenRead actual.pgGrants (diffPgGrants upper desired)

theorem diffState_eq_ok_iff (actual : PartialState) (report : DriftReport) :
    diffState upper artifacts actual = .ok report ↔
      (∀ groups, actual.keycloakGroups = some groups →
        ∀ g ∈ artifacts.keycloak.groups, ¬IsInherited groups g) ∧
      report = ⟨Text.sortBy compareItems (foundItems upper artifacts actual),
        checkedCategories actual⟩ := by
  cases groups : actual.keycloakGroups with
  | none =>
      simp [diffState, foundItems, groups, whenRead, bind, Except.bind, pure, Except.pure, eq_comm]
  | some read =>
      cases compared : diffKeycloakGroups artifacts read with
      | error message =>
          have someInherited : ¬∀ g ∈ artifacts.keycloak.groups, ¬IsInherited read g := by
            intro noneInherited
            have succeeded := (diffKeycloakGroups_eq_ok_iff read _).mpr ⟨noneInherited, rfl⟩
            rw [compared] at succeeded
            cases succeeded
          simp [diffState, groups, compared, bind, Except.bind, someInherited]
      | ok items =>
          rcases (diffKeycloakGroups_eq_ok_iff read items).mp compared with ⟨noneInherited, rfl⟩
          have everyGroups : ∀ other, some read = some other →
              ∀ g ∈ artifacts.keycloak.groups, ¬IsInherited other g := by
            rintro _ ⟨⟩
            exact noneInherited
          rw [and_iff_right everyGroups]
          simp [diffState, foundItems, groups, compared, whenRead, bind, Except.bind, pure,
            Except.pure, eq_comm]

theorem mem_whenRead {ι : Type} {field : Option ι} {diff : ι → List DriftItem} {item : DriftItem} :
    item ∈ whenRead field diff ↔ ∃ value, field = some value ∧ item ∈ diff value := by
  cases field with
  | none => simp [whenRead]
  | some value => simp [whenRead]

theorem itemCount_whenRead {ι : Type} {field : Option ι} {diff : ι → List DriftItem}
    {target : String} (elsewhere : ∀ value, ∀ item ∈ diff value, item.target ≠ target)
    (kind : DriftKind) : itemCount (whenRead field diff) kind target = 0 := by
  apply itemCount_eq_zero
  intro item member
  rcases mem_whenRead.mp member with ⟨value, _, found⟩
  exact Or.inl (elsewhere value item found)

theorem itemCount_roles {actual : PartialState} {names : List String}
    (read : actual.keycloakRoles = some names) (kind : DriftKind) (name : String) :
    itemCount (foundItems upper artifacts actual) kind (roleTarget name) =
      itemCount (diffKeycloakRoles artifacts names) kind (roleTarget name) := by
  have noGroup : ∀ groups, ∀ item ∈ groupsItems artifacts groups,
      item.target ≠ roleTarget name := by
    intro groups item member
    rcases target_groupsItems member with ⟨other, isTarget⟩
    exact isTarget ▸ (roleTarget_ne_groupTarget name other).symm
  have noGrant : ∀ lines, ∀ item ∈ diffPgGrants upper artifacts lines,
      item.target ≠ roleTarget name := fun _ _ member =>
    (target_ne_of_pg (target_diffPgGrants upper member) name).1
  rw [foundItems, itemCount_append, itemCount_append, itemCount_whenRead noGroup,
    itemCount_whenRead noGrant, read]
  rfl

theorem itemCount_groups {actual : PartialState} {groups : OrderedMap String (List String)}
    (read : actual.keycloakGroups = some groups) (kind : DriftKind) (name : String) :
    itemCount (foundItems upper artifacts actual) kind (groupTarget name) =
      itemCount (groupsItems artifacts groups) kind (groupTarget name) := by
  have noRole : ∀ names, ∀ item ∈ diffKeycloakRoles artifacts names,
      item.target ≠ groupTarget name := by
    intro names item member
    rcases target_diffKeycloakRoles member with ⟨other, isTarget⟩
    exact isTarget ▸ roleTarget_ne_groupTarget other name
  have noGrant : ∀ lines, ∀ item ∈ diffPgGrants upper artifacts lines,
      item.target ≠ groupTarget name := fun _ _ member =>
    (target_ne_of_pg (target_diffPgGrants upper member) name).2
  rw [foundItems, itemCount_append, itemCount_append, itemCount_whenRead noRole,
    itemCount_whenRead noGrant, read, Nat.zero_add]
  rfl

theorem itemCount_grants {actual : PartialState} {lines : List String}
    (read : actual.pgGrants = some lines) (kind : DriftKind) (pair : String × String) :
    itemCount (foundItems upper artifacts actual) kind (grantTarget pair) =
      itemCount (diffPgGrants upper artifacts lines) kind (grantTarget pair) := by
  have noRole : ∀ names, ∀ item ∈ diffKeycloakRoles artifacts names,
      item.target ≠ grantTarget pair := by
    intro names item member
    rcases target_diffKeycloakRoles member with ⟨other, isTarget⟩
    exact isTarget ▸ roleTarget_ne_pg other (pairKey pair)
  have noGroup : ∀ groups, ∀ item ∈ groupsItems artifacts groups,
      item.target ≠ grantTarget pair := by
    intro groups item member
    rcases target_groupsItems member with ⟨other, isTarget⟩
    exact isTarget ▸ groupTarget_ne_pg other (pairKey pair)
  rw [foundItems, itemCount_append, itemCount_append, itemCount_whenRead noRole,
    itemCount_whenRead noGroup, read, Nat.zero_add]
  rfl

theorem filter_target_eq_nil {items : List DriftItem} {target : String}
    (elsewhere : ∀ item ∈ items, item.target ≠ target) :
    items.filter (·.target = target) = [] := by
  apply List.filter_eq_nil_iff.mpr
  intro item member
  rw [decide_eq_true_eq]
  exact elsewhere item member

theorem filter_unparsed_diffPgGrants (lines : List String) :
    (diffPgGrants upper artifacts lines).filter (·.target = "pg.grant/unparsed") =
      (unparsedLines upper lines).map unparsedItem := by
  have keyed : ∀ {read : List String} {key : String}, key ∈ (mergeGrantLines upper read).keys →
      "pg.grant/" ++ key ≠ "pg.grant/unparsed" := by
    intro read key isKey
    rcases exists_pairKey upper isKey with ⟨pair, rfl⟩
    exact grantTarget_ne_unparsed pair
  have unread : ((unparsedLines upper lines).map unparsedItem).filter
      (·.target = "pg.grant/unparsed") = (unparsedLines upper lines).map unparsedItem := by
    apply List.filter_eq_self.mpr
    intro item member
    rcases List.mem_map.mp member with ⟨line, _, rfl⟩
    exact decide_eq_true rfl
  have declared : ∀ item ∈ (desiredPgGrants upper artifacts).entries.flatMap
      (diffDeclaredGrant (mergeGrantLines upper lines)), item.target ≠ "pg.grant/unparsed" := by
    intro item member
    rcases List.mem_flatMap.mp member with ⟨entry, inEntries, inItems⟩
    rw [target_diffDeclaredGrant inItems]
    exact keyed (List.mem_map_of_mem inEntries)
  have manual : ∀ item ∈ ((mergeGrantLines upper lines).entries.filter
      (·.1 ∉ (desiredPgGrants upper artifacts).keys)).map fun actual =>
        ({ kind := .manual, target := "pg.grant/" ++ actual.1
           detail := "실제에만 존재 — 수동 변경 의심 (" ++
            formatPrivileges actual.2.privileges ++ ")" } : DriftItem),
      item.target ≠ "pg.grant/unparsed" := by
    intro item member
    rcases List.mem_map.mp member with ⟨entry, inFilter, rfl⟩
    exact keyed (List.mem_map_of_mem (List.mem_filter.mp inFilter).1)
  rw [diffPgGrants, List.filter_append, List.filter_append, filter_target_eq_nil declared,
    filter_target_eq_nil manual, List.append_nil, List.append_nil]
  exact unread

/-- The items for lines that cannot be parsed are made for these lines and for nothing else. -/
theorem filter_unparsed {actual : PartialState} {lines : List String}
    (read : actual.pgGrants = some lines) :
    (foundItems upper artifacts actual).filter (·.target = "pg.grant/unparsed") =
      (unparsedLines upper lines).map unparsedItem := by
  have role : ∀ item ∈ whenRead actual.keycloakRoles (diffKeycloakRoles artifacts),
      item.target ≠ "pg.grant/unparsed" := by
    intro item member
    rcases mem_whenRead.mp member with ⟨names, _, found⟩
    rcases target_diffKeycloakRoles found with ⟨name, isTarget⟩
    rw [isTarget, unparsed_eq]
    exact roleTarget_ne_pg name "unparsed"
  have group : ∀ item ∈ whenRead actual.keycloakGroups (groupsItems artifacts),
      item.target ≠ "pg.grant/unparsed" := by
    intro item member
    rcases mem_whenRead.mp member with ⟨groups, _, found⟩
    rcases target_groupsItems found with ⟨name, isTarget⟩
    rw [isTarget, unparsed_eq]
    exact groupTarget_ne_pg name "unparsed"
  rw [foundItems, List.filter_append, List.filter_append, filter_target_eq_nil role,
    filter_target_eq_nil group, read]
  exact filter_unparsed_diffPgGrants upper lines

theorem foundItems_onlyRead {actual : PartialState} {item : DriftItem}
    (member : item ∈ foundItems upper artifacts actual) : ∃ category : DriftCategory,
      actual.WasRead category ∧ category.Concerns item.target := by
  rcases List.mem_append.mp member with keycloak | grant
  · rcases List.mem_append.mp keycloak with role | group
    · rcases mem_whenRead.mp role with ⟨names, read, found⟩
      exact ⟨.keycloakRoles, Option.isSome_of_mem read, target_diffKeycloakRoles found⟩
    · rcases mem_whenRead.mp group with ⟨groups, read, found⟩
      exact ⟨.keycloakGroups, Option.isSome_of_mem read, target_groupsItems found⟩
  · rcases mem_whenRead.mp grant with ⟨lines, read, found⟩
    exact ⟨.pgGrants, Option.isSome_of_mem read, target_diffPgGrants upper found⟩

theorem mem_checkedCategories (actual : PartialState) (category : DriftCategory) :
    category ∈ checkedCategories actual ↔ actual.WasRead category := by
  cases category <;>
    cases actual.keycloakRoles.isSome <;> cases actual.keycloakGroups.isSome <;>
      cases actual.pgGrants.isSome <;> simp [checkedCategories, PartialState.WasRead]

/-- Whatever was read of the systems, the comparison with the artifacts of a valid declaration
succeeds and reports exactly, just when it is fit for the groups. -/
theorem report_exact_iff {d : Declaration} (valid : validateDeclaration d = [])
    (actual : PartialState)
    (distinct : ∀ names, actual.keycloakRoles = some names → names.Nodup) :
    ∃ artifacts, compileAll d = .ok artifacts ∧
      ((∃ report, diffState upper artifacts actual = .ok report ∧ Exact upper d actual report) ↔
        ∀ groups, actual.keycloakGroups = some groups → GroupsComparable d groups) := by
  rcases exists_compileAll valid with ⟨artifacts, compiled⟩
  refine ⟨artifacts, compiled, ?_⟩
  have checked := checked_of_valid valid
  rcases compileAll_eq_ok compiled with ⟨_, keycloak, pgddl⟩
  have sorted : ∀ kind target,
      itemCount (Text.sortBy compareItems (foundItems upper artifacts actual))
      kind target = itemCount (foundItems upper artifacts actual) kind target :=
    fun _ _ => (Text.sortBy_perm _ _).countP_eq _
  constructor
  · rintro ⟨report, compared, isExact⟩
    rcases (diffState_eq_ok_iff upper actual report).mp compared with ⟨noneInherited, rfl⟩
    intro groups read
    apply (checked.groups_exact_iff keycloak groups).mp
    refine ⟨noneInherited groups read, ?_⟩
    have sorts := isExact.groups groups read
    simp only [Sorts, sorted, itemCount_groups upper read] at sorts
    exact sorts
  · intro comparable
    have fit := fun groups read => (checked.groups_exact_iff keycloak groups).mpr
      (comparable groups read)
    refine ⟨_, (diffState_eq_ok_iff upper actual _).mpr
      ⟨fun groups read => (fit groups read).1, rfl⟩, ?_⟩
    constructor
    · intro names read
      simp only [Sorts, sorted, itemCount_roles upper read]
      exact checked.sorts_roles keycloak (distinct names read)
    · intro groups read
      simp only [Sorts, sorted, itemCount_groups upper read]
      exact (fit groups read).2
    · intro lines read
      simp only [Sorts, sorted, itemCount_grants upper read]
      exact checked.sorts_grants upper pgddl lines
    · intro lines read
      rw [← unparsedLines, ← filter_unparsed upper read]
      exact (Text.sortBy_perm _ _).filter _
    · intro item member
      exact foundItems_onlyRead upper ((Text.mem_sortBy _ _ _).mp member)
    · exact mem_checkedCategories actual

end

theorem report_exact_iff_orders :
    ∃ artifacts, compileAll (ordersPolicy "public.orders") = .ok artifacts ∧
      ∃ report, diffState asciiCase artifacts ordersState.whole = .ok report ∧
        Exact asciiCase (ordersPolicy "public.orders") ordersState.whole report := by
  have distinct : ∀ names, ordersState.whole.keycloakRoles = some names → names.Nodup := by
    rintro _ ⟨⟩
    decide
  have comparable : ∀ groups, ordersState.whole.keycloakGroups = some groups →
      GroupsComparable (ordersPolicy "public.orders") groups := by
    rintro _ ⟨⟩ group declared
    obtain rfl := List.mem_singleton.mp declared
    left
    intro other otherNamed
    obtain rfl := List.mem_singleton.mp (mem_groupsNamed.mp otherNamed).1
    exact List.Perm.refl _
  rcases report_exact_iff asciiCase ordersPolicy_valid ordersState.whole distinct with
    ⟨artifacts, compiled, exactly⟩
  exact ⟨artifacts, compiled, exactly.mpr comparable⟩

/-- One name for two groups. -/
def splitPolicy : Declaration where
  roles := [{ name := "a" }, { name := "b" }]
  groups := [{ name := "g", roles := ["a"] }, { name := "g", roles := ["b"] }]
  resources := []

/-- Where one role of the two is there, one mismatch is what should be reported. -/
example : NameComparable splitPolicy "g" (some ["a"]) := by
  right
  constructor
  · intro same
    have there : "b" ∈ {role | role ∈ ["a"]} := by
      rw [← same]
      exact ⟨_, List.mem_cons_of_mem _ List.mem_cons_self, List.mem_singleton_self "b"⟩
    exact absurd (List.mem_singleton.mp there) (by decide)
  · refine ⟨[{ name := "g", roles := ["a"] }], { name := "g", roles := ["b"] }, [], rfl, ?_, ?_⟩
    · unfold SpelledLike
      decide
    · intro other member
      obtain rfl := List.mem_singleton.mp member
      unfold SpelledLike
      decide

/-- A policy with one group, the name of which every record inherits. -/
def inheritedNamePolicy : Declaration where
  roles := []
  groups := [{ name := "constructor", roles := [] }]
  resources := []

/-- A missing group with such a name raises an error. -/
theorem inherited_name_raises :
    ¬ ∀ (upper : CaseMapping) (d : Declaration) (actual : PartialState),
      validateDeclaration d = [] →
      (∀ names, actual.keycloakRoles = some names → names.Nodup) →
        ∃ artifacts report, compileAll d = .ok artifacts ∧
          diffState upper artifacts actual = .ok report ∧ Exact upper d actual report := by
  intro always
  have valid : validateDeclaration inheritedNamePolicy = [] := by decide +kernel
  rcases always asciiCase inheritedNamePolicy { keycloakGroups := some .empty } valid nofun with
    ⟨artifacts, report, compiled, compared, _⟩
  rcases compileAll_eq_ok compiled with ⟨_, keycloak, _⟩
  have noneInherited := ((diffState_eq_ok_iff asciiCase _ report).mp compared).1 .empty rfl
  rw [keycloak] at noneInherited
  apply noneInherited ⟨"constructor", []⟩
  · exact (mem_keycloakGroups _ _).mpr ⟨_, List.mem_singleton_self _, rfl⟩
  · exact ⟨rfl, by decide⟩

end BelugaManager.PolicyCompiler
