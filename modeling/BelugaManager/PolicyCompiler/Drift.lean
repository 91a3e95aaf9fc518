import BelugaManager.PolicyCompiler.GrantLine
import BelugaManager.PolicyCompiler.Keycloak

/-!
# Drift between the declaration and the actual state

`diffState` of `drift.ts`.  Adapters report lists of lines and names without any
order; the comparison sorts what it finds by the content alone.  Looking up a group
in a record also finds what every record inherits, and spreading that raises a type
error, so the comparison is fallible.
-/

namespace BelugaManager.PolicyCompiler

open Foundation

inductive DriftKind where
  | unapplied
  | manual
  | mismatch
  deriving DecidableEq, Repr

/-- The kind as it stands in an item. -/
def DriftKind.text : DriftKind → String
  | .unapplied => "unapplied"
  | .manual => "manual"
  | .mismatch => "mismatch"

structure DriftItem where
  kind : DriftKind
  target : String
  detail : String
  deriving DecidableEq, Repr

inductive DriftCategory where
  | keycloakRoles
  | keycloakGroups
  | pgGrants
  deriving DecidableEq, Repr

structure DriftReport where
  items : List DriftItem
  checked : List DriftCategory
  deriving DecidableEq, Repr

/-- What all systems report together. -/
structure ActualState where
  keycloakRoles : List String
  keycloakGroups : OrderedMap String (List String)
  pgGrants : List String

/-- What has been read so far; a missing field was not read at all. -/
structure PartialState where
  keycloakRoles : Option (List String) := none
  keycloakGroups : Option (OrderedMap String (List String)) := none
  pgGrants : Option (List String) := none

/-- A state of which everything was read. -/
def ActualState.whole (actual : ActualState) : PartialState where
  keycloakRoles := some actual.keycloakRoles
  keycloakGroups := some actual.keycloakGroups
  pgGrants := some actual.pgGrants

def diffKeycloakRoles (desired : Artifacts) (actualRoles : List String) : List DriftItem :=
  let desiredNames := desired.keycloak.realmRoles.map KeycloakRole.name
  (desiredNames.filter (· ∉ actualRoles)).map (fun name =>
      { kind := .unapplied, target := "keycloak.role/" ++ name, detail := "선언됨, 실제 없음" }) ++
    (actualRoles.filter (· ∉ desiredNames)).map fun name =>
      { kind := .manual, target := "keycloak.role/" ++ name
        detail := "실제에만 존재 — 수동 변경 의심" }

/-- A list of roles in the form in which two of them are compared. -/
def joinedRoles (roles : List String) : String := Text.join "," (Text.sortBy cmp roles)

/-- The comparison of one declared group. -/
def diffKeycloakGroup (actualGroups : OrderedMap String (List String)) (g : KeycloakGroup) :
    Except String (List DriftItem) :=
  match actualGroups.get? g.name with
  | none =>
      if g.name ∈ OBJECT_PROTOTYPE then .error "actualRolesOfGroup is not iterable"
      else
        .ok [{ kind := .unapplied, target := "keycloak.group/" ++ g.name
               detail := "선언됨, 실제 없음" }]
  | some actualRolesOfGroup =>
      let want := joinedRoles g.realmRoles
      let have' := joinedRoles actualRolesOfGroup
      if want ≠ have' then
        .ok [{ kind := .mismatch, target := "keycloak.group/" ++ g.name
               detail := "롤 구성이 다르다 — 선언: [" ++ want ++ "], 실제: [" ++ have' ++ "]" }]
      else .ok []

def diffKeycloakGroups (desired : Artifacts) (actualGroups : OrderedMap String (List String)) :
    Except String (List DriftItem) := do
  let declared ← desired.keycloak.groups.mapM (diffKeycloakGroup actualGroups)
  let desiredGroupNames := desired.keycloak.groups.map KeycloakGroup.name
  return declared.flatten ++ (actualGroups.keys.filter (· ∉ desiredGroupNames)).map fun name =>
    { kind := .manual, target := "keycloak.group/" ++ name
      detail := "실제에만 존재 — 수동 변경 의심" }

/-- The key under which the lines for one table and role are merged. -/
def grantKey (g : ParsedGrant) : String := g.table ++ "/" ++ g.role

/-- Add the privileges of a further line. -/
def ParsedGrant.add (existing g : ParsedGrant) : ParsedGrant :=
  { existing with
    privileges := (existing.privileges ++ g.privileges).eraseDups
    privileges_nodup := nodup_eraseDups _ }

/-- The lines that can be parsed, merged by table and role. -/
def mergeGrantLines (upper : CaseMapping) (lines : List String) :
    OrderedMap String ParsedGrant :=
  .accumulate grantKey (fun existing g => (existing.map (·.add g)).getD g)
    (lines.filterMap (parseGrantLine upper))

/-- The lines that are handed to the callback for lines that cannot be parsed. -/
def unparsedLines (upper : CaseMapping) (lines : List String) : List String :=
  lines.filter fun line => parseGrantLine upper line = none

def formatPrivileges (privileges : List String) : String :=
  Text.join ", " (Text.sortBy cmp privileges)

def privilegesEqual (a b : ParsedGrant) : Bool :=
  a.privileges.length = b.privileges.length ∧ ∀ p ∈ a.privileges, p ∈ b.privileges

def desiredPgGrants (upper : CaseMapping) (desired : Artifacts) : OrderedMap String ParsedGrant :=
  mergeGrantLines upper (Text.split '\n' desired.pgddl)

/-- The comparison of what is declared under one key. -/
def diffDeclaredGrant (actualByKey : OrderedMap String ParsedGrant)
    (declared : String × ParsedGrant) : List DriftItem :=
  match actualByKey.get? declared.1 with
  | none =>
      [{ kind := .unapplied, target := "pg.grant/" ++ declared.1
         detail := "선언됨, 실제 없음 — " ++ formatPrivileges declared.2.privileges }]
  | some a =>
      if privilegesEqual a declared.2 then []
      else
        [{ kind := .mismatch, target := "pg.grant/" ++ declared.1
           detail := "권한 집합이 다르다 — 선언: [" ++ formatPrivileges declared.2.privileges ++
            "], 실제: [" ++ formatPrivileges a.privileges ++ "]" }]

def diffPgGrants (upper : CaseMapping) (desired : Artifacts) (actualGrants : List String) :
    List DriftItem :=
  let desiredByKey := desiredPgGrants upper desired
  let actualByKey := mergeGrantLines upper actualGrants
  (unparsedLines upper actualGrants).map (fun line =>
      { kind := .manual, target := "pg.grant/unparsed"
        detail := "해석할 수 없는 실제 GRANT 문장 — 수동 검토 필요: " ++ Text.trim line }) ++
    desiredByKey.entries.flatMap (diffDeclaredGrant actualByKey) ++
    (actualByKey.entries.filter (·.1 ∉ desiredByKey.keys)).map fun actual =>
      { kind := .manual, target := "pg.grant/" ++ actual.1
        detail := "실제에만 존재 — 수동 변경 의심 (" ++ formatPrivileges actual.2.privileges ++ ")" }

/-- The order of the items: by kind and target, then by detail. -/
def compareItems (a b : DriftItem) : Int :=
  let byTarget := cmp (a.kind.text ++ "|" ++ a.target) (b.kind.text ++ "|" ++ b.target)
  if byTarget ≠ 0 then byTarget else cmp a.detail b.detail

/-- The items of a category, none if it was not read. -/
def whenRead {ι : Type} (field : Option ι) (diff : ι → List DriftItem) : List DriftItem :=
  (field.map diff).getD []

def checkedCategories (actual : PartialState) : List DriftCategory :=
  (if actual.keycloakRoles.isSome then [.keycloakRoles] else []) ++
    (if actual.keycloakGroups.isSome then [.keycloakGroups] else []) ++
    (if actual.pgGrants.isSome then [.pgGrants] else [])

def diffState (upper : CaseMapping) (desired : Artifacts) (actual : PartialState) :
    Except String DriftReport := do
  let roles := whenRead actual.keycloakRoles (diffKeycloakRoles desired)
  let groups ← match actual.keycloakGroups with
    | none => .ok []
    | some actualGroups => diffKeycloakGroups desired actualGroups
  let grants := whenRead actual.pgGrants (diffPgGrants upper desired)
  return { items := Text.sortBy compareItems (roles ++ groups ++ grants)
           checked := checkedCategories actual }

/-! ## When nothing is reported -/

theorem diffKeycloakRoles_eq_nil_iff (desired : Artifacts) (actualRoles : List String) :
    diffKeycloakRoles desired actualRoles = [] ↔
      ∀ name, name ∈ desired.keycloak.realmRoles.map KeycloakRole.name ↔ name ∈ actualRoles := by
  simp only [diffKeycloakRoles, List.append_eq_nil_iff, List.map_eq_nil_iff,
    List.filter_eq_nil_iff, decide_eq_true_eq, not_not]
  constructor
  · rintro ⟨applied, declared⟩
    exact fun name => ⟨applied name, declared name⟩
  · intro same
    exact ⟨fun name => (same name).mp, fun name => (same name).mpr⟩

/-- A role name that a joined list of roles shows as one. -/
def IsSeparate (role : String) : Prop := role ≠ "" ∧ ',' ∉ role.toList

/-- Joined lists of separate names are equal when the lists are permutations. -/
theorem joinedRoles_eq_iff {left right : List String}
    (leftSeparate : ∀ role ∈ left, IsSeparate role)
    (rightSeparate : ∀ role ∈ right, IsSeparate role) :
    joinedRoles left = joinedRoles right ↔ left.Perm right := by
  have comma : "," = String.singleton ',' := by decide
  constructor
  · intro same
    rw [joinedRoles, joinedRoles, comma] at same
    have sorted : Text.sortBy cmp left = Text.sortBy cmp right := by
      apply Text.join_inj _ _ same
      · exact fun role member => leftSeparate role ((Text.mem_sortBy _ _ _).mp member)
      · exact fun role member => rightSeparate role ((Text.mem_sortBy _ _ _).mp member)
    exact (Text.sortBy_perm cmp left).symm.trans (sorted ▸ Text.sortBy_perm cmp right)
  · intro perm
    exact congrArg (Text.join ",") (Text.sortBy_compareUnits_eq_of_perm perm)

theorem diffKeycloakGroup_eq_ok_nil_iff (actualGroups : OrderedMap String (List String))
    (g : KeycloakGroup) :
    diffKeycloakGroup actualGroups g = .ok [] ↔
      ∃ roles, actualGroups.get? g.name = some roles ∧
        joinedRoles g.realmRoles = joinedRoles roles := by
  cases lookup : actualGroups.get? g.name with
  | none =>
      simp only [diffKeycloakGroup, lookup, reduceCtorEq, false_and, exists_false, iff_false]
      split <;> simp
  | some roles =>
      simp only [diffKeycloakGroup, lookup, Option.some.injEq, exists_eq_left']
      by_cases same : joinedRoles g.realmRoles = joinedRoles roles
      · simp [same]
      · simp [same]

theorem mapM_eq_ok_iff {ι β ε : Type} (step : ι → Except ε (List β)) (items : List ι) :
    (∃ results, items.mapM step = .ok results ∧ results.flatten = []) ↔
      ∀ item ∈ items, step item = .ok [] := by
  induction items with
  | nil => simp [pure, Except.pure]
  | cons item rest ih =>
      rw [List.forall_mem_cons, ← ih, List.mapM_cons]
      cases first : step item with
      | error message => simp [bind, Except.bind]
      | ok found =>
          cases others : rest.mapM step with
          | error message => simp [bind, Except.bind]
          | ok results => simp [bind, Except.bind, pure, Except.pure]

theorem diffKeycloakGroups_eq_ok_nil_iff (desired : Artifacts)
    (actualGroups : OrderedMap String (List String)) :
    diffKeycloakGroups desired actualGroups = .ok [] ↔
      (∀ g ∈ desired.keycloak.groups, ∃ roles, actualGroups.get? g.name = some roles ∧
        joinedRoles g.realmRoles = joinedRoles roles) ∧
      ∀ name ∈ actualGroups.keys, name ∈ desired.keycloak.groups.map KeycloakGroup.name := by
  have declared := mapM_eq_ok_iff (diffKeycloakGroup actualGroups) desired.keycloak.groups
  simp only [diffKeycloakGroup_eq_ok_nil_iff] at declared
  rw [← declared, diffKeycloakGroups]
  cases desired.keycloak.groups.mapM (diffKeycloakGroup actualGroups) with
  | error message => simp [bind, Except.bind]
  | ok results =>
      simp only [bind, Except.bind, pure, Except.pure, Except.ok.injEq, List.append_eq_nil_iff,
        List.map_eq_nil_iff, List.filter_eq_nil_iff, decide_eq_true_eq, not_not, exists_eq_left']

theorem privilegesEqual_iff (a b : ParsedGrant) :
    privilegesEqual a b = true ↔ ∀ p, p ∈ a.privileges ↔ p ∈ b.privileges := by
  rw [privilegesEqual, decide_eq_true_eq]
  exact same_members_iff a.privileges_nodup b.privileges_nodup

theorem mem_keys_mergeGrantLines (upper : CaseMapping) (lines : List String) (key : String) :
    key ∈ (mergeGrantLines upper lines).keys ↔
      ∃ g ∈ lines.filterMap (parseGrantLine upper), grantKey g = key :=
  OrderedMap.mem_keys_accumulate _ _ _ _

/-- Merging loses and adds no privilege. -/
theorem mem_privileges_mergeGrantLines (upper : CaseMapping) (lines : List String)
    (key p : String) :
    (∃ merged, (mergeGrantLines upper lines).get? key = some merged ∧ p ∈ merged.privileges) ↔
      ∃ g ∈ lines.filterMap (parseGrantLine upper), grantKey g = key ∧ p ∈ g.privileges := by
  have step : ∀ (items : List ParsedGrant) (stored : Option ParsedGrant),
      (∃ merged, items.foldl (fun stored g =>
          some ((stored.map (·.add g)).getD g)) stored = some merged ∧ p ∈ merged.privileges) ↔
        (∃ first, stored = some first ∧ p ∈ first.privileges) ∨ ∃ g ∈ items, p ∈ g.privileges := by
    intro items
    induction items with
    | nil => simp
    | cons g rest ih =>
        intro stored
        rw [List.foldl_cons, ih]
        cases stored with
        | none => simp
        | some first => simp [ParsedGrant.add, List.mem_eraseDups, or_assoc]
  rw [mergeGrantLines, OrderedMap.get?_accumulate, step]
  simp [and_assoc]

theorem diffDeclaredGrant_eq_nil_iff (actualByKey : OrderedMap String ParsedGrant)
    (declared : String × ParsedGrant) :
    diffDeclaredGrant actualByKey declared = [] ↔
      ∃ a, actualByKey.get? declared.1 = some a ∧
        ∀ p, p ∈ a.privileges ↔ p ∈ declared.2.privileges := by
  cases lookup : actualByKey.get? declared.1 with
  | none => simp [diffDeclaredGrant, lookup]
  | some a =>
      simp only [diffDeclaredGrant, lookup, Option.some.injEq, exists_eq_left',
        ← privilegesEqual_iff]
      by_cases same : privilegesEqual a declared.2 = true
      · simp [same]
      · simp [same]

/-- Two lists of lines with the same keys and, under each key, the same privileges. -/
def SameGrants (upper : CaseMapping) (left right : List String) : Prop :=
  (∀ key, (∃ g ∈ left.filterMap (parseGrantLine upper), grantKey g = key) ↔
    ∃ g ∈ right.filterMap (parseGrantLine upper), grantKey g = key) ∧
  ∀ key p, (∃ g ∈ left.filterMap (parseGrantLine upper), grantKey g = key ∧ p ∈ g.privileges) ↔
    ∃ g ∈ right.filterMap (parseGrantLine upper), grantKey g = key ∧ p ∈ g.privileges

theorem sameGrants_iff (upper : CaseMapping) (left right : List String) :
    SameGrants upper left right ↔
      (∀ entry ∈ (mergeGrantLines upper left).entries,
        diffDeclaredGrant (mergeGrantLines upper right) entry = []) ∧
      ∀ key ∈ (mergeGrantLines upper right).keys, key ∈ (mergeGrantLines upper left).keys := by
  simp only [SameGrants, ← mem_keys_mergeGrantLines, ← mem_privileges_mergeGrantLines,
    diffDeclaredGrant_eq_nil_iff]
  constructor
  · rintro ⟨sameKeys, samePrivileges⟩
    refine ⟨?_, fun key => (sameKeys key).mpr⟩
    intro entry member
    have stored := (OrderedMap.get?_eq_some_iff _ _ _).mpr member
    have known := (OrderedMap.mem_keys_iff _ _).mpr ⟨_, stored⟩
    rcases (OrderedMap.mem_keys_iff _ _).mp ((sameKeys entry.1).mp known) with ⟨a, lookup⟩
    refine ⟨a, lookup, ?_⟩
    intro p
    have same := samePrivileges entry.1 p
    simp only [stored, lookup, Option.some.injEq, exists_eq_left'] at same
    exact same.symm
  · rintro ⟨declared, known⟩
    have found : ∀ key merged, (mergeGrantLines upper left).get? key = some merged →
        ∃ a, (mergeGrantLines upper right).get? key = some a ∧
          ∀ p, p ∈ a.privileges ↔ p ∈ merged.privileges := fun key merged stored =>
      declared (key, merged) ((OrderedMap.get?_eq_some_iff _ _ _).mp stored)
    have sameKeys : ∀ key, key ∈ (mergeGrantLines upper left).keys ↔
        key ∈ (mergeGrantLines upper right).keys := by
      intro key
      refine ⟨?_, known key⟩
      intro member
      rcases (OrderedMap.mem_keys_iff _ _).mp member with ⟨merged, stored⟩
      rcases found key merged stored with ⟨a, lookup, _⟩
      exact (OrderedMap.mem_keys_iff _ _).mpr ⟨a, lookup⟩
    refine ⟨sameKeys, ?_⟩
    intro key p
    cases stored : (mergeGrantLines upper left).get? key with
    | none =>
        have absent : (mergeGrantLines upper right).get? key = none := by
          rw [OrderedMap.get?_eq_none_iff, ← sameKeys, ← OrderedMap.get?_eq_none_iff]
          exact stored
        simp [absent]
    | some merged =>
        rcases found key merged stored with ⟨a, lookup, same⟩
        simp [lookup, same p]

/-- Where every line grants something, the privileges determine the keys. -/
theorem sameGrants_of_privileges {upper : CaseMapping} {left right : List String}
    (leftSome : ∀ g ∈ left.filterMap (parseGrantLine upper), ∃ p, p ∈ g.privileges)
    (rightSome : ∀ g ∈ right.filterMap (parseGrantLine upper), ∃ p, p ∈ g.privileges)
    (same : ∀ key p,
      (∃ g ∈ left.filterMap (parseGrantLine upper), grantKey g = key ∧ p ∈ g.privileges) ↔
        ∃ g ∈ right.filterMap (parseGrantLine upper), grantKey g = key ∧ p ∈ g.privileges) :
    SameGrants upper left right := by
  refine ⟨?_, same⟩
  intro key
  constructor
  · rintro ⟨g, parsed, isKey⟩
    rcases leftSome g parsed with ⟨p, inSet⟩
    rcases (same key p).mp ⟨g, parsed, isKey, inSet⟩ with ⟨other, otherParsed, otherKey, _⟩
    exact ⟨other, otherParsed, otherKey⟩
  · rintro ⟨g, parsed, isKey⟩
    rcases rightSome g parsed with ⟨p, inSet⟩
    rcases (same key p).mpr ⟨g, parsed, isKey, inSet⟩ with ⟨other, otherParsed, otherKey, _⟩
    exact ⟨other, otherParsed, otherKey⟩

theorem diffPgGrants_eq_nil_iff (upper : CaseMapping) (desired : Artifacts)
    (actualGrants : List String) :
    diffPgGrants upper desired actualGrants = [] ↔
      (∀ line ∈ actualGrants, parseGrantLine upper line ≠ none) ∧
        SameGrants upper (Text.split '\n' desired.pgddl) actualGrants := by
  rw [sameGrants_iff, OrderedMap.forall_mem_keys, diffPgGrants, List.append_eq_nil_iff,
    List.append_eq_nil_iff, List.map_eq_nil_iff, List.map_eq_nil_iff, List.filter_eq_nil_iff,
    List.flatMap_eq_nil_iff, unparsedLines, List.filter_eq_nil_iff, and_assoc]
  simp only [decide_eq_true_eq, not_not, ne_eq]
  rfl

/-- The comparison depends on what is made of the lines alone. -/
theorem diffPgGrants_eq_nil_congr {upper : CaseMapping} (desired : Artifacts)
    {left right : List String}
    (same : left.map (parseGrantLine upper) = right.map (parseGrantLine upper)) :
    diffPgGrants upper desired left = [] ↔ diffPgGrants upper desired right = [] := by
  have parsed : ∀ lines : List String, lines.filterMap (parseGrantLine upper) =
      (lines.map (parseGrantLine upper)).filterMap id := by
    intro lines
    rw [List.filterMap_map, Function.id_comp]
  have parses : ∀ lines : List String, (∀ line ∈ lines, parseGrantLine upper line ≠ none) ↔
      none ∉ lines.map (parseGrantLine upper) := by
    intro lines
    simp
  simp only [diffPgGrants_eq_nil_iff, SameGrants, parsed, parses, same]

/-- The report on a whole state is empty when its three parts are. -/
theorem diffState_whole_iff (upper : CaseMapping) (desired : Artifacts) (actual : ActualState) :
    (∃ report, diffState upper desired actual.whole = .ok report ∧ report.items = []) ↔
      diffKeycloakRoles desired actual.keycloakRoles = [] ∧
        diffKeycloakGroups desired actual.keycloakGroups = .ok [] ∧
        diffPgGrants upper desired actual.pgGrants = [] := by
  simp only [diffState, ActualState.whole, whenRead, Option.map_some, Option.getD_some]
  cases diffKeycloakGroups desired actual.keycloakGroups with
  | error message => simp [bind, Except.bind]
  | ok groups =>
      simp [bind, Except.bind, pure, Except.pure]

end BelugaManager.PolicyCompiler
