import BelugaManager.Foundation.Graph
import Mathlib.Data.Finset.Dedup
import Mathlib.Data.List.Lattice

/-!
# Catalogs of roles, memberships and grants

A catalog knows accounts, which of them are members of which others, and which
rights have been granted to them on its objects.  A member has what its roles have.
Memberships never close a circle and only existing accounts occur in a catalog, so
both are part of its type.

A script is a list of commands.  The main results say when a script runs through on
a catalog that has none of the script's accounts, what the catalog contains
afterwards, that a second run changes nothing, and that what a new account holds
can be read off the script alone.
-/

namespace Foundation

/-! ## Scripts -/

namespace RoleCatalog

/-- A command of a script. An account is only created if a name is not taken. -/
inductive Command (ν ρ ω : Type*) where
  | create (tested name : ν) (canLogin : Bool)
  | enroll (member role : ν)
  | grant (rights : List ρ) (object : ω) (grantee : ν)

section Script

variable {ν ρ ω : Type*}

/-- The names of the accounts a script creates. -/
def created (script : List (Command ν ρ ω)) : List ν :=
  script.filterMap fun
    | .create _ name _ => some name
    | _ => none

/-- The memberships a script adds. -/
def enrolled (script : List (Command ν ρ ω)) : List (ν × ν) :=
  script.filterMap fun
    | .enroll member role => some (member, role)
    | _ => none

/-- The rights a script grants. -/
def granted (script : List (Command ν ρ ω)) : List (ρ × ν) :=
  script.flatMap fun
    | .grant rights _ grantee => rights.map (·, grantee)
    | _ => []

/-- The names of existing accounts that a command needs. -/
def Command.mentions : Command ν ρ ω → List ν
  | .create _ _ _ => []
  | .enroll member role => [member, role]
  | .grant _ _ grantee => [grantee]

/-- The object that a command needs, if it needs one. -/
def Command.object? : Command ν ρ ω → Option ω
  | .grant _ object _ => some object
  | _ => none

theorem created_append (before after : List (Command ν ρ ω)) :
    created (before ++ after) = created before ++ created after := List.filterMap_append

theorem enrolled_append (before after : List (Command ν ρ ω)) :
    enrolled (before ++ after) = enrolled before ++ enrolled after := List.filterMap_append

theorem granted_append (before after : List (Command ν ρ ω)) :
    granted (before ++ after) = granted before ++ granted after := List.flatMap_append

theorem mem_enrolled (script : List (Command ν ρ ω)) (member role : ν) :
    (member, role) ∈ enrolled script ↔ .enroll member role ∈ script := by
  simp only [enrolled, List.mem_filterMap]
  constructor
  · intro found
    rcases found with ⟨command, inScript, isEdge⟩
    cases command <;> simp at isEdge
    rcases isEdge with ⟨rfl, rfl⟩
    exact inScript
  · intro inScript
    exact ⟨_, inScript, rfl⟩

theorem mem_granted (script : List (Command ν ρ ω)) (right : ρ) (grantee : ν) :
    (right, grantee) ∈ granted script ↔
      ∃ rights object, .grant rights object grantee ∈ script ∧ right ∈ rights := by
  simp only [granted, List.mem_flatMap]
  constructor
  · intro found
    rcases found with ⟨command, inScript, isGrant⟩
    cases command <;> simp at isGrant
    rcases isGrant with ⟨listed, rfl⟩
    exact ⟨_, _, inScript, listed⟩
  · intro found
    rcases found with ⟨rights, object, inScript, listed⟩
    exact ⟨_, inScript, by simpa using listed⟩

theorem mem_created (script : List (Command ν ρ ω)) (name : ν) :
    name ∈ created script ↔ ∃ tested canLogin, .create tested name canLogin ∈ script := by
  simp only [created, List.mem_filterMap]
  constructor
  · intro found
    rcases found with ⟨command, inScript, isName⟩
    cases command <;> simp at isName
    subst isName
    exact ⟨_, _, inScript⟩
  · intro found
    rcases found with ⟨tested, canLogin, inScript⟩
    exact ⟨_, inScript, rfl⟩

/-- The roles that a name is directly a member of. -/
def rolesOf [DecidableEq ν] (memberships : List (ν × ν)) (name : ν) : List ν :=
  (memberships.filter (·.1 = name)).map Prod.snd

theorem mem_rolesOf [DecidableEq ν] (memberships : List (ν × ν)) (member role : ν) :
    role ∈ rolesOf memberships member ↔ (member, role) ∈ memberships := by
  simp [rolesOf]

/-- More memberships, more edges. -/
theorem rolesOf_mono [DecidableEq ν] {fewer more : List (ν × ν)}
    (subset : ∀ edge ∈ fewer, edge ∈ more) :
    Graph.Edge (rolesOf fewer) ≤ Graph.Edge (rolesOf more) := by
  intro member role edge
  rw [Graph.Edge, mem_rolesOf] at edge ⊢
  exact subset _ edge

/-- Every name that a command needs is known at the start or created before. -/
def DeclaredFirst (known : List ν) (script : List (Command ν ρ ω)) : Prop :=
  ∀ before command after, script = before ++ command :: after →
    ∀ name ∈ command.mentions, name ∈ known ∨ name ∈ created before

theorem declaredFirst_of_known {known : List ν} {script : List (Command ν ρ ω)}
    (mentioned : ∀ command ∈ script, ∀ name ∈ command.mentions, name ∈ known) :
    DeclaredFirst known script := by
  intro before command after split name member
  exact Or.inl (mentioned command (by rw [split]; simp) name member)

theorem DeclaredFirst.append {known : List ν} {left right : List (Command ν ρ ω)}
    (first : DeclaredFirst known left) (second : DeclaredFirst (known ++ created left) right) :
    DeclaredFirst known (left ++ right) := by
  intro before command after split name member
  rcases List.append_eq_append_iff.mp split with
    ⟨middle, isBefore, isRight⟩ | ⟨middle, isLeft, isTail⟩
  · rw [isBefore, created_append, List.mem_append, ← or_assoc, ← List.mem_append]
    exact second middle command after isRight name member
  · cases middle with
    | nil =>
        rw [List.append_nil] at isLeft
        rw [List.nil_append] at isTail
        have found := second [] command after isTail.symm name member
        rw [List.mem_append] at found
        rcases found with known | nothing
        · rw [← isLeft]
          exact known
        · simp [created] at nothing
    | cons head middle =>
        rw [List.cons_append] at isTail
        cases isTail
        exact first before command middle isLeft name member

/-- A script that tests the names it creates, mentions only accounts it has created
before, and closes no circle. -/
structure WellOrdered [DecidableEq ν] (script : List (Command ν ρ ω)) : Prop where
  tests : ∀ tested name canLogin, .create tested name canLogin ∈ script → tested = name
  declaredFirst : ∀ before command after, script = before ++ command :: after →
    ∀ name ∈ command.mentions, name ∈ created before
  acyclic : Graph.Acyclic (rolesOf (enrolled script))

theorem WellOrdered.of_append [DecidableEq ν] {before after : List (Command ν ρ ω)}
    (ordered : WellOrdered (before ++ after)) : WellOrdered before where
  tests tested name canLogin member :=
    ordered.tests tested name canLogin (List.mem_append_left after member)
  declaredFirst front command back split := by
    apply ordered.declaredFirst front command (back ++ after)
    rw [split, List.append_assoc, List.cons_append]
  acyclic name circle := ordered.acyclic name <|
    Relation.TransGen.mono (rolesOf_mono fun edge member => by
      rw [enrolled_append]
      exact List.mem_append_left _ member) name name circle

/-- What the script enrolls was created by it. -/
theorem WellOrdered.enrolled_created [DecidableEq ν] {script : List (Command ν ρ ω)}
    (ordered : WellOrdered script) {member role : ν} (edge : (member, role) ∈ enrolled script) :
    member ∈ created script ∧ role ∈ created script := by
  rw [mem_enrolled] at edge
  rcases List.append_of_mem edge with ⟨before, after, rfl⟩
  have known := ordered.declaredFirst before _ after rfl
  rw [created_append]
  exact ⟨List.mem_append_left _ (known member (by simp [Command.mentions])),
    List.mem_append_left _ (known role (by simp [Command.mentions]))⟩

end Script

end RoleCatalog

/-- Accounts with names in `ν`, memberships as pairs of member and role, grants as
pairs of right and grantee, and the objects that rights can be granted on. -/
structure RoleCatalog (ν ρ ω : Type*) [DecidableEq ν] where
  accounts : List (ν × Bool)
  memberships : List (ν × ν)
  grants : List (ρ × ν)
  objects : List ω
  members_known : ∀ edge ∈ memberships,
    edge.1 ∈ accounts.map Prod.fst ∧ edge.2 ∈ accounts.map Prod.fst
  grantees_known : ∀ grant ∈ grants, grant.2 ∈ accounts.map Prod.fst
  acyclic : Graph.Acyclic (RoleCatalog.rolesOf memberships)

namespace RoleCatalog

variable {ν ρ ω : Type*} [DecidableEq ν]

/-- The names of all accounts. -/
def names (catalog : RoleCatalog ν ρ ω) : List ν := catalog.accounts.map Prod.fst

@[ext] theorem ext {left right : RoleCatalog ν ρ ω} (accounts : left.accounts = right.accounts)
    (memberships : left.memberships = right.memberships) (grants : left.grants = right.grants)
    (objects : left.objects = right.objects) : left = right := by
  cases left
  cases right
  cases accounts
  cases memberships
  cases grants
  cases objects
  rfl

/-- A member has what its roles have, and what their roles have, and so on. -/
def Inherits (catalog : RoleCatalog ν ρ ω) : ν → ν → Prop :=
  Graph.Reaches (rolesOf catalog.memberships)

/-- An account has a right if it, or a role it inherits from, was granted it. -/
def Holds (catalog : RoleCatalog ν ρ ω) (name : ν) (right : ρ) : Prop :=
  ∃ holder, catalog.Inherits name holder ∧ (right, holder) ∈ catalog.grants

/-! ### Before and after a script -/

/-- What a catalog contains after the first commands of a script have run. -/
structure After (start : RoleCatalog ν ρ ω) (done : List (Command ν ρ ω))
    (catalog : RoleCatalog ν ρ ω) : Prop where
  names : ∀ name, name ∈ catalog.names ↔ name ∈ start.names ∨ name ∈ created done
  memberships : ∀ edge, edge ∈ catalog.memberships ↔
    edge ∈ start.memberships ∨ edge ∈ enrolled done
  grants : ∀ grant, grant ∈ catalog.grants ↔ grant ∈ start.grants ∨ grant ∈ granted done
  objects : catalog.objects = start.objects

section After

variable {script : List (Command ν ρ ω)} {start catalog : RoleCatalog ν ρ ω}

/-- From a name that the script creates, a path follows the script's memberships. -/
theorem After.inherits_iff (after : After start script catalog) (ordered : WellOrdered script)
    (fresh : ∀ name ∈ created script, name ∉ start.names) {name other : ν}
    (isNew : name ∈ created script) :
    catalog.Inherits name other ↔ Graph.Reaches (rolesOf (enrolled script)) name other := by
  constructor
  · intro path
    have stays : Graph.Reaches (rolesOf (enrolled script)) name other ∧
        other ∈ created script := by
      induction path with
      | refl => exact ⟨.refl, isNew⟩
      | tail _ edge ih =>
          rw [Graph.Edge, mem_rolesOf, after.memberships] at edge
          rcases edge with old | new
          · exact absurd (start.members_known _ old).1 (fresh _ ih.2)
          · refine ⟨ih.1.tail ?_, (ordered.enrolled_created new).2⟩
            rw [Graph.Edge, mem_rolesOf]
            exact new
    exact stays.1
  · exact Relation.ReflTransGen.mono (rolesOf_mono fun edge member =>
      (after.memberships edge).mpr (Or.inr member)) name other

theorem After.inherits_created (after : After start script catalog)
    (ordered : WellOrdered script) (fresh : ∀ name ∈ created script, name ∉ start.names)
    {name other : ν} (isNew : name ∈ created script) (path : catalog.Inherits name other) :
    other ∈ created script := by
  rw [after.inherits_iff ordered fresh isNew] at path
  cases path with
  | refl => exact isNew
  | tail _ edge =>
      rw [Graph.Edge, mem_rolesOf] at edge
      exact (ordered.enrolled_created edge).2

/-- What an account that the script creates holds, read off the script. -/
theorem After.holds_iff (after : After start script catalog) (ordered : WellOrdered script)
    (fresh : ∀ name ∈ created script, name ∉ start.names) {name : ν}
    (isNew : name ∈ created script) (right : ρ) :
    catalog.Holds name right ↔ ∃ holder, Graph.Reaches (rolesOf (enrolled script)) name holder ∧
      (right, holder) ∈ granted script := by
  constructor
  · intro holds
    rcases holds with ⟨holder, path, listed⟩
    refine ⟨holder, (after.inherits_iff ordered fresh isNew).mp path, ?_⟩
    rcases (after.grants _).mp listed with old | new
    · exact absurd (start.grantees_known _ old)
        (fresh holder (after.inherits_created ordered fresh isNew path))
    · exact new
  · intro holds
    rcases holds with ⟨holder, path, listed⟩
    exact ⟨holder, (after.inherits_iff ordered fresh isNew).mpr path,
      (after.grants _).mpr (Or.inr listed)⟩

theorem after_nil (start : RoleCatalog ν ρ ω) : After start [] start where
  names := by simp [created]
  memberships := by simp [enrolled]
  grants := by simp [granted]
  objects := rfl

end After

/-! ### Commands -/

/-- The names of the roles that a name inherits from, itself included. -/
def inherited (catalog : RoleCatalog ν ρ ω) (name : ν) : List ν :=
  Graph.visit (rolesOf catalog.memberships) (catalog.memberships.length + 2) name []

theorem mem_inherited (catalog : RoleCatalog ν ρ ω) (name role : ν) :
    role ∈ catalog.inherited name ↔ catalog.Inherits name role := by
  apply Graph.mem_visit_iff _
    { nodes := (name :: catalog.memberships.map Prod.snd).toFinset
      closed := by
        intro node _ next edge
        rw [mem_rolesOf] at edge
        rw [List.mem_toFinset]
        exact List.mem_cons_of_mem name (List.mem_map_of_mem edge) }
  · simp
  · have bound := List.toFinset_card_le (name :: catalog.memberships.map Prod.snd)
    simp only [List.length_cons, List.length_map] at bound
    exact Nat.lt_of_le_of_lt bound (Nat.lt_succ_self _)

/-- A new account. -/
def create (catalog : RoleCatalog ν ρ ω) (name : ν) (canLogin : Bool) : RoleCatalog ν ρ ω where
  accounts := catalog.accounts ++ [(name, canLogin)]
  memberships := catalog.memberships
  grants := catalog.grants
  objects := catalog.objects
  members_known edge member := by
    have known := catalog.members_known edge member
    rw [List.map_append]
    exact known.imp (List.mem_append_left _) (List.mem_append_left _)
  grantees_known grant member := by
    rw [List.map_append]
    exact List.mem_append_left _ (catalog.grantees_known grant member)
  acyclic := catalog.acyclic

/-- What has to hold for an account to become a member of a role. -/
structure Enrollable (catalog : RoleCatalog ν ρ ω) (member role : ν) : Prop where
  member_known : member ∈ catalog.names
  role_known : role ∈ catalog.names
  noCircle : ¬ catalog.Inherits role member

instance (catalog : RoleCatalog ν ρ ω) (member role : ν) :
    Decidable (catalog.Enrollable member role) :=
  decidable_of_iff (member ∈ catalog.names ∧ role ∈ catalog.names ∧
      member ∉ catalog.inherited role) <| by
    rw [mem_inherited]
    constructor
    · intro conditions
      exact ⟨conditions.1, conditions.2.1, conditions.2.2⟩
    · intro enrollable
      exact ⟨enrollable.member_known, enrollable.role_known, enrollable.noCircle⟩

/-- An edge that no path leads back along closes no circle. -/
theorem acyclic_insert {memberships : List (ν × ν)} {member role : ν}
    (acyclic : Graph.Acyclic (rolesOf memberships))
    (noCircle : ¬ Graph.Reaches (rolesOf memberships) role member) :
    Graph.Acyclic (rolesOf (memberships.insert (member, role))) := by
  apply acyclic.oneMoreEdge noCircle
  intro node next edge
  rw [Graph.Edge, mem_rolesOf, List.mem_insert_iff, Prod.mk.injEq] at edge
  rw [Graph.Edge, mem_rolesOf]
  exact edge.symm

/-- A new membership. -/
def enroll (catalog : RoleCatalog ν ρ ω) (member role : ν)
    (enrollable : catalog.Enrollable member role) : RoleCatalog ν ρ ω where
  accounts := catalog.accounts
  memberships := catalog.memberships.insert (member, role)
  grants := catalog.grants
  objects := catalog.objects
  members_known edge inserted := by
    rcases List.mem_insert_iff.mp inserted with rfl | old
    · exact ⟨enrollable.member_known, enrollable.role_known⟩
    · exact catalog.members_known edge old
  grantees_known := catalog.grantees_known
  acyclic := acyclic_insert catalog.acyclic enrollable.noCircle

variable [DecidableEq ρ]

/-- Rights for an existing account. -/
def grant (catalog : RoleCatalog ν ρ ω) (rights : List ρ) (grantee : ν)
    (known : grantee ∈ catalog.names) : RoleCatalog ν ρ ω where
  accounts := catalog.accounts
  memberships := catalog.memberships
  grants := rights.map (·, grantee) ∪ catalog.grants
  objects := catalog.objects
  members_known := catalog.members_known
  grantees_known grant granted := by
    rcases List.mem_union_iff.mp granted with new | old
    · rcases List.mem_map.mp new with ⟨right, _, rfl⟩
      exact known
    · exact catalog.grantees_known grant old
  acyclic := catalog.acyclic

variable [DecidableEq ω]

/-- Run one command; `none` is an error. -/
def exec (catalog : RoleCatalog ν ρ ω) : Command ν ρ ω → Option (RoleCatalog ν ρ ω)
  | .create tested name canLogin =>
      if tested ∈ catalog.names then some catalog
      else if name ∈ catalog.names then none
      else some (catalog.create name canLogin)
  | .enroll member role =>
      if enrollable : catalog.Enrollable member role then
        some (catalog.enroll member role enrollable)
      else none
  | .grant rights object grantee =>
      if known : grantee ∈ catalog.names then
        if object ∈ catalog.objects then some (catalog.grant rights grantee known) else none
      else none

/-- Run a script up to its first error. -/
def run (catalog : RoleCatalog ν ρ ω) (script : List (Command ν ρ ω)) :
    Option (RoleCatalog ν ρ ω) :=
  script.foldlM exec catalog

section Running

variable {done rest script : List (Command ν ρ ω)} {start catalog : RoleCatalog ν ρ ω}

/-- An account is created unless it exists. -/
theorem After.exec_create (after : After start done catalog) (name : ν) (canLogin : Bool) :
    ∃ next, catalog.exec (.create name name canLogin) = some next ∧
      After start (done ++ [.create name name canLogin]) next := by
  have grows : ∀ other, other ∈ created (done ++ [.create name name canLogin]) ↔
      other ∈ created done ∨ other = name := by
    simp [created]
  have edges : enrolled (done ++ [.create name name canLogin]) = enrolled done := by
    simp [enrolled]
  have rights : granted (done ++ [.create name name canLogin]) = granted done := by
    simp [granted]
  by_cases taken : name ∈ catalog.names
  · refine ⟨catalog, if_pos taken, ?_, ?_, ?_, after.objects⟩
    · intro other
      rw [grows, ← or_assoc, ← after.names]
      constructor
      · exact Or.inl
      · intro member
        rcases member with known | rfl
        · exact known
        · exact taken
    · rw [edges]
      exact after.memberships
    · rw [rights]
      exact after.grants
  · refine ⟨catalog.create name canLogin, ?_, ?_, ?_, ?_, after.objects⟩
    · rw [exec, if_neg taken, if_neg taken]
    · intro other
      rw [grows, ← or_assoc, ← after.names]
      simp [RoleCatalog.names, create]
    · rw [edges]
      exact after.memberships
    · rw [rights]
      exact after.grants

theorem After.exec_enroll (after : After start done catalog) {member role : ν}
    (enrollable : catalog.Enrollable member role) :
    ∃ next, catalog.exec (.enroll member role) = some next ∧
      After start (done ++ [.enroll member role]) next := by
  have names : created (done ++ [.enroll member role]) = created done := by simp [created]
  have rights : granted (done ++ [.enroll member role]) = granted done := by simp [granted]
  refine ⟨catalog.enroll member role enrollable, dif_pos enrollable, ?_, ?_, ?_, after.objects⟩
  · rw [names]
    exact after.names
  · intro edge
    rw [enrolled_append, List.mem_append, ← or_assoc, ← after.memberships, or_comm]
    exact List.mem_insert_iff.trans (or_congr_left List.mem_singleton.symm)
  · rw [rights]
    exact after.grants

theorem After.exec_grant (after : After start done catalog) {rights : List ρ} {object : ω}
    {grantee : ν} (known : grantee ∈ catalog.names) (exists_object : object ∈ catalog.objects) :
    ∃ next, catalog.exec (.grant rights object grantee) = some next ∧
      After start (done ++ [.grant rights object grantee]) next := by
  have names : created (done ++ [.grant rights object grantee]) = created done := by
    simp [created]
  have edges : enrolled (done ++ [.grant rights object grantee]) = enrolled done := by
    simp [enrolled]
  have new : granted [.grant rights object grantee] = rights.map (·, grantee) := by
    simp [granted]
  refine ⟨catalog.grant rights grantee known, ?_, ?_, ?_, ?_, after.objects⟩
  · rw [exec, dif_pos known, if_pos exists_object]
  · rw [names]
    exact after.names
  · rw [edges]
    exact after.memberships
  · intro listed
    rw [granted_append, List.mem_append, new, ← or_assoc, ← after.grants, or_comm]
    exact List.mem_union_iff

/-- One command of a well-ordered script succeeds and adds what it says. -/
theorem After.exec_next {command : Command ν ρ ω} (after : After start done catalog)
    (ordered : WellOrdered (done ++ command :: rest))
    (fresh : ∀ name ∈ created done, name ∉ start.names)
    (objects : ∀ object ∈ command.object?, object ∈ start.objects) :
    ∃ next, catalog.exec command = some next ∧ After start (done ++ [command]) next := by
  have mentioned := ordered.declaredFirst done command rest rfl
  have known : ∀ name ∈ command.mentions, name ∈ catalog.names := fun name member =>
    (after.names name).mpr (Or.inr (mentioned name member))
  cases command with
  | create tested name canLogin =>
      rw [ordered.tests tested name canLogin (by simp)]
      exact after.exec_create name canLogin
  | enroll member role =>
      apply after.exec_enroll
      refine ⟨known member (by simp [Command.mentions]),
        known role (by simp [Command.mentions]), ?_⟩
      -- a way back would close a circle in the script itself
      intro back
      have isNew := mentioned role (by simp [Command.mentions])
      rw [after.inherits_iff ordered.of_append fresh isNew] at back
      have subset : ∀ edge ∈ enrolled done,
          edge ∈ enrolled (done ++ .enroll member role :: rest) := by
        intro edge inDone
        rw [enrolled_append]
        exact List.mem_append_left _ inDone
      have whole := Relation.ReflTransGen.mono (rolesOf_mono subset) role member back
      refine ordered.acyclic member (Relation.TransGen.head' ?_ whole)
      rw [Graph.Edge, mem_rolesOf, mem_enrolled]
      simp
  | grant rights object grantee =>
      apply after.exec_grant (known grantee (by simp [Command.mentions]))
      rw [after.objects]
      exact objects object rfl

/-- A well-ordered script runs through on a catalog that has its objects and none of
its accounts. -/
theorem exists_run (start : RoleCatalog ν ρ ω) (ordered : WellOrdered script)
    (fresh : ∀ name ∈ created script, name ∉ start.names)
    (objects : ∀ command ∈ script, ∀ object ∈ command.object?, object ∈ start.objects) :
    ∃ final, start.run script = some final ∧ After start script final := by
  have remaining : ∀ (rest done : List (Command ν ρ ω)) (catalog : RoleCatalog ν ρ ω),
      script = done ++ rest → After start done catalog →
      ∃ final, catalog.run rest = some final ∧ After start script final := by
    intro rest
    induction rest with
    | nil =>
        intro done catalog split after
        rw [List.append_nil] at split
        exact ⟨catalog, rfl, split ▸ after⟩
    | cons command rest ih =>
        intro done catalog split after
        have freshDone : ∀ name ∈ created done, name ∉ start.names := by
          intro name member
          apply fresh
          rw [split, created_append]
          exact List.mem_append_left _ member
        rcases after.exec_next (split ▸ ordered) freshDone
          (objects command (by rw [split]; simp)) with ⟨next, executed, afterNext⟩
        rcases ih (done ++ [command]) next (by rw [split]; simp) afterNext with
          ⟨final, finished, afterFinal⟩
        refine ⟨final, ?_, afterFinal⟩
        rw [run, List.foldlM_cons, executed]
        exact finished
  exact remaining script [] start rfl (after_nil start)

/-- A second run finds everything done. -/
theorem After.run_again (after : After start script catalog) (ordered : WellOrdered script)
    (objects : ∀ command ∈ script, ∀ object ∈ command.object?, object ∈ start.objects) :
    catalog.run script = some catalog := by
  have unchanged : ∀ command ∈ script, catalog.exec command = some catalog := by
    intro command inScript
    rcases List.append_of_mem inScript with ⟨before, later, split⟩
    have known : ∀ name ∈ command.mentions, name ∈ catalog.names := by
      intro name member
      rw [after.names, split, created_append]
      exact Or.inr (List.mem_append_left _
        (ordered.declaredFirst before command later split name member))
    cases command with
    | create tested name canLogin =>
        apply if_pos
        rw [ordered.tests tested name canLogin inScript, after.names, mem_created]
        exact Or.inr ⟨tested, canLogin, inScript⟩
    | enroll member role =>
        have present : (member, role) ∈ catalog.memberships :=
          (after.memberships _).mpr (Or.inr ((mem_enrolled ..).mpr inScript))
        have enrollable : catalog.Enrollable member role := by
          refine ⟨known member (by simp [Command.mentions]),
            known role (by simp [Command.mentions]), ?_⟩
          intro back
          apply catalog.acyclic member (Relation.TransGen.head' _ back)
          rw [Graph.Edge, mem_rolesOf]
          exact present
        rw [exec, dif_pos enrollable, Option.some.injEq]
        exact RoleCatalog.ext rfl (List.insert_of_mem present) rfl rfl
    | grant rights object grantee =>
        have exists_object : object ∈ catalog.objects := by
          rw [after.objects]
          exact objects _ inScript object rfl
        have present : rights.map (·, grantee) ⊆ catalog.grants := by
          intro listed member
          rcases List.mem_map.mp member with ⟨right, inRights, rfl⟩
          exact (after.grants _).mpr (Or.inr
            ((mem_granted ..).mpr ⟨rights, object, inScript, inRights⟩))
        rw [exec, dif_pos (known grantee (by simp [Command.mentions])), if_pos exists_object,
          Option.some.injEq]
        refine RoleCatalog.ext rfl rfl ?_ rfl
        show rights.map (·, grantee) ∪ catalog.grants = catalog.grants
        convert List.Subset.union_eq_right present
  have idle : ∀ rest : List (Command ν ρ ω), (∀ command ∈ rest, command ∈ script) →
      catalog.run rest = some catalog := by
    intro rest
    induction rest with
    | nil => exact fun _ => rfl
    | cons command rest ih =>
        intro subset
        rw [run, List.foldlM_cons, unchanged command (subset command List.mem_cons_self)]
        exact ih fun other member => subset other (List.mem_cons_of_mem command member)
  exact idle script fun _ member => member

end Running

end RoleCatalog

end Foundation
