import BelugaManager.Foundation.Layering
import BelugaManager.PolicyCompiler.Rearranged

/-!
# The order that must be kept

Rearranging a valid declaration leaves its artifacts as they are when groups of one name,
logins of one name, entries for catalogs and the grants of a table as they are visited keep
their order.  Where nothing is granted twice, no less will do.
-/

namespace BelugaManager.PolicyCompiler

open Foundation

/-- The grants of a table by their roles, joined as they are listed.  Grants that list the
same roles stand as they are declared. -/
structure Visits (declared visited : List Grant) : Prop where
  perm : visited.Perm declared
  ascending : visited.Pairwise fun g h =>
    Text.utf16 (Text.join "," g.roles) ≤ Text.utf16 (Text.join "," h.roles)
  stable : ∀ grant : Grant,
    visited.filter (fun g => Text.join "," g.roles = Text.join "," grant.roles) =
      declared.filter (fun g => Text.join "," g.roles = Text.join "," grant.roles)

/-- Whether a grant filters rows or masks columns. -/
def Grant.Restricts (grant : Grant) : Prop :=
  (∃ expression ∈ grant.rowFilter, expression ≠ "") ∨ grant.masks ≠ []

/-- A grant and the same grant rearranged.  In the policy a restricting grant lists its roles
in one order. -/
structure SameGrant (engine : Engine) (g g' : Grant) : Prop extends PermutedGrant g g' where
  listed : engine = .trino → g.Restricts → g.roles = g'.roles

/-- What of the order is kept. -/
structure OrderKept (d d' : Declaration) : Prop where
  groups : ∀ name, List.Forall₂ PermutedGroup
    (d.groups.filter (·.name = name)) (d'.groups.filter (·.name = name))
  logins : ∀ name, List.Forall₂ PermutedLogin
    (d.loginList.filter (·.name = name)) (d'.loginList.filter (·.name = name))
  catalogs : List.Forall₂ PermutedCatalogGrant d.catalogGrantList d'.catalogGrantList
  tables : ∀ res ∈ d.resources, ∀ res' ∈ d'.resources, res.resource = res'.resource →
    res.engineOrDefault = res'.engineOrDefault →
      ∃ visited visited', Visits res.grants visited ∧ Visits res'.grants visited' ∧
        List.Forall₂ (SameGrant res.engineOrDefault) visited visited'

/-- Nothing is granted twice: no privilege on a table is listed for one role in two grants,
and no role for two logins of one name.  Lists of roles and operations have entries. -/
structure GrantsOnce (d : Declaration) : Prop where
  grants : ∀ res ∈ d.resources, res.grants.Pairwise fun g h =>
    g.privileges.Disjoint h.privileges ∨ g.roles.Disjoint h.roles
  logins : d.loginList.Pairwise fun login other =>
    login.name = other.name → login.memberOf.Disjoint other.memberOf
  roles : ∀ res ∈ d.resources, ∀ grant ∈ res.grants, grant.roles ≠ []
  memberOf : ∀ login ∈ d.loginList, login.memberOf ≠ []
  operations : ∀ cg ∈ d.catalogGrantList, cg.operations ≠ []

theorem comparesBy_joined : Text.ComparesBy
    (fun a b : Grant => cmp (Text.join "," a.roles) (Text.join "," b.roles))
    fun grant => Text.utf16 (Text.join "," grant.roles) :=
  fun _ _ => Text.comparesBy_compareUnits _ _

theorem visits_sortedGrants (res : Resource) : Visits res.grants (sortedGrants res) where
  perm := Text.sortBy_perm _ _
  ascending := comparesBy_joined.pairwise_sortBy res.grants
  stable := by
    intro grant
    have kept := comparesBy_joined.filter_sortBy (Text.utf16 (Text.join "," grant.roles)) res.grants
    simp only [Text.utf16_injective.eq_iff] at kept
    exact kept

/-- The order in which grants are visited is the only one of its kind. -/
theorem Visits.eq_sortedGrants {res : Resource} {visited : List Grant}
    (visits : Visits res.grants visited) : visited = sortedGrants res := by
  have sorted := visits_sortedGrants res
  apply Text.eq_of_filter_eq visits.ascending sorted.ascending
  intro grant
  simp only [Text.utf16_injective.eq_iff]
  rw [visits.stable grant, sorted.stable grant]

/-! ## What grants say -/

theorem PermutedGrant.sortedPrivileges_eq {g g' : Grant} (alike : PermutedGrant g g') :
    sortedPrivileges g = sortedPrivileges g' := by
  have compares : Text.ComparesBy
      (fun a b => (PRIVILEGE_ORDER.idxOf a : Int) - PRIVILEGE_ORDER.idxOf b)
      (PRIVILEGE_ORDER.idxOf (α := Privilege)) := by
    intro a b
    simp only
    omega
  apply compares.sortBy_eq_of_perm _ alike.privileges
  intro p _ q _
  cases p <;> cases q <;> decide

theorem PermutedGrant.tableGrants_eq {g g' : Grant} (alike : PermutedGrant g g') :
    (Text.sortBy cmp g.roles).map (sortedPrivileges g, ·) =
      (Text.sortBy cmp g'.roles).map (sortedPrivileges g', ·) := by
  rw [alike.sortedPrivileges_eq, show cmp = Text.compareUnits from rfl,
    Text.sortBy_compareUnits_eq_of_perm alike.roles]

namespace Permuted

variable {d d' : Declaration} (permuted : Permuted d d') (checked : Checked d)
include permuted checked

theorem effectiveHolders_eq {roles roles' : List String} (perm : roles.Perm roles') :
    effectiveHolders d roles = effectiveHolders d' roles' := by
  apply Text.sortBy_compareUnits_eq_of_mem_iff (nodup_eraseDups _) (nodup_eraseDups _)
  intro holder
  simp only [List.mem_eraseDups, List.mem_flatMap, perm.mem_iff,
    permuted.mem_holdersOf checked.roleNames_nodup]

theorem excludedHolders_eq {res res' : Resource} (matches' : PermutedResource res res')
    {g g' : Grant} (alike : PermutedGrant g g') :
    excludedHolders d res g = excludedHolders d' res' g' := by
  have unmasked : unmaskedGroups d res = unmaskedGroups d' res' := by
    apply Text.sortBy_compareUnits_eq_of_mem_iff (nodup_eraseDups _) (nodup_eraseDups _)
    intro holder
    simp only [List.mem_eraseDups, List.mem_flatMap, List.mem_filter, and_assoc]
    apply matches'.grants.exists_iff
    intro h h' alike'
    simp only [alike'.optsOut, alike'.roles.mem_iff,
      permuted.mem_holdersOf checked.roleNames_nodup]
  rw [excludedHolders, excludedHolders, alike.optsOut, unmasked]

theorem catalogEntry_eq {cg cg' : CatalogGrant} (matches' : PermutedCatalogGrant cg cg') :
    catalogEntry d cg = catalogEntry d' cg' := by
  rw [catalogEntry, catalogEntry, permuted.effectiveHolders_eq checked matches'.roles,
    (comparesBy_name QueryOperation.text).sortBy_eq_of_perm _ matches'.operations]
  intro op _ other _ same
  exact QueryOperation.text_injective (Text.utf16_injective same)

omit permuted checked in
/-- Where a grant restricts nothing, nothing is said that lists its roles. -/
theorem unrestricted {g : Grant} (free : ¬g.Restricts) : activeFilter g = none ∧ g.masks = [] := by
  rw [Grant.Restricts, not_or, not_not] at free
  refine ⟨?_, free.2⟩
  rw [activeFilter, Option.filter_eq_none_iff]
  intro expression inFilter active
  exact free.1 ⟨expression, inFilter, of_decide_eq_true active⟩

/-- Two arrangements of a grant say the same unless it lists the roles of a restriction in
another order. -/
theorem grantClauses_eq_iff {res res' : Resource} (matches' : PermutedResource res res')
    {g g' : Grant} (alike : PermutedGrant g g') :
    grantClauses d res g = grantClauses d' res' g' ↔ (g.Restricts → g.roles = g'.roles) := by
  have privileges : Text.sortBy (fun a b => cmp a.text b.text) g.privileges =
      Text.sortBy (fun a b => cmp a.text b.text) g'.privileges := by
    apply (comparesBy_name Privilege.text).sortBy_eq_of_perm _ alike.privileges
    intro p _ q _
    cases p <;> cases q <;> decide
  have active : activeFilter g = activeFilter g' := by
    rw [activeFilter, activeFilter, alike.rowFilter]
  rw [grantClauses, grantClauses, privileges, ← active, ← alike.masks,
    permuted.effectiveHolders_eq checked alike.roles,
    permuted.excludedHolders_eq checked matches' alike, List.append_assoc, List.append_assoc,
    List.append_cancel_left_eq]
  constructor
  · intro same restricts
    rcases List.append_inj same (by rw [List.length_map, List.length_map]) with ⟨filters, masks⟩
    rw [List.map_inj_left] at filters masks
    cases restricts with
    | inl filtered =>
        rcases filtered with ⟨expression, inFilter, nonempty⟩
        have isActive : activeFilter g = some expression := by
          rw [activeFilter, Option.mem_def.mp inFilter, Option.filter_some,
            if_pos (decide_eq_true nonempty)]
        have here := filters expression (by rw [isActive]; exact List.mem_cons_self)
        exact (Clause.rowFilter.inj here).2.1
    | inr masked =>
        rcases List.exists_mem_of_ne_nil _ masked with ⟨entry, listed⟩
        have here := masks entry ((Text.mem_sortBy _ _ _).mpr listed)
        exact (Clause.columnMask.inj here).2.2.1
  · intro listed
    by_cases restricts : g.Restricts
    · rw [listed restricts]
    · rw [(unrestricted restricts).1, (unrestricted restricts).2]
      rfl

omit checked in
/-- Resources of one name and engine are each other's counterparts. -/
theorem matches_of_name (checked' : Checked d') {res res' : Resource} (declared : res ∈ d.resources)
    (declared' : res' ∈ d'.resources) (sameName : res.resource = res'.resource)
    (sameEngine : res.engineOrDefault = res'.engineOrDefault) : PermutedResource res res' := by
  rcases permuted.resources.exists_right declared with ⟨partner, inRight, matches'⟩
  have isPartner : partner = res' := by
    apply checked'.resource_unique inRight declared'
    · rw [← matches'.engineOrDefault, sameEngine]
    · rw [← matches'.resource, sameName]
  rw [← isPartner]
  exact matches'

/-! ## Keeping the order is enough -/

/-- Two declarations that keep the order are printed alike. -/
theorem printedAlike (checked' : Checked d') (kept : OrderKept d d') : PrintedAlike d d' where
  groups := by
    intro name
    apply map_eq_of_forall₂ (kept.groups name)
    intro g g' matches'
    exact Text.sortBy_compareUnits_eq_of_perm matches'.roles
  logins := by
    intro name
    apply flatMap_eq_of_forall₂ (kept.logins name)
    intro login login' matches'
    exact Text.sortBy_compareUnits_eq_of_perm matches'.memberOf
  catalogs := map_eq_of_forall₂ kept.catalogs fun _ _ => permuted.catalogEntry_eq checked
  tables := by
    intro res declared res' declared' sameName isTrino isTrino'
    have sameEngine := isTrino.trans isTrino'.symm
    have matches' := permuted.matches_of_name checked' declared declared' sameName sameEngine
    rcases kept.tables res declared res' declared' sameName sameEngine with
      ⟨visited, visited', visits, visits', alike⟩
    rw [clauses, clauses, ← visits.eq_sortedGrants, ← visits'.eq_sortedGrants]
    apply flatMap_eq_of_forall₂ alike
    intro g g' same
    exact (permuted.grantClauses_eq_iff checked matches' same.toPermutedGrant).mpr
      (same.listed isTrino)
  pgTables := by
    intro res declared res' declared' sameName isPostgres isPostgres'
    have sameEngine : res.engineOrDefault = res'.engineOrDefault := by
      rw [Resource.engineOrDefault, Resource.engineOrDefault, isPostgres, isPostgres']
    rcases kept.tables res declared res' declared' sameName sameEngine with
      ⟨visited, visited', visits, visits', alike⟩
    rw [tableGrants, tableGrants, ← visits.eq_sortedGrants, ← visits'.eq_sortedGrants]
    apply flatMap_eq_of_forall₂ alike
    intro g g' same
    exact same.toPermutedGrant.tableGrants_eq

end Permuted

/-! ## Where nothing is granted twice it is necessary -/

theorem perm_of_sortBy_eq {ι : Type*} {compare : ι → ι → Int} {left right : List ι}
    (same : Text.sortBy compare left = Text.sortBy compare right) : left.Perm right :=
  (Text.sortBy_perm compare left).symm.trans (same ▸ Text.sortBy_perm compare right)

/-- Roles and other roles have different holders: among all of them one inherits none of
the others. -/
theorem Checked.effectiveHolders_ne {d : Declaration} (checked : Checked d)
    {roles others : List String} (known : ∀ role ∈ roles, role ∈ d.roleNames)
    (othersKnown : ∀ role ∈ others, role ∈ d.roleNames) (some' : roles ≠ [])
    (disjoint : roles.Disjoint others) : effectiveHolders d roles ≠ effectiveHolders d others := by
  intro same
  have holds : ∀ role, (∃ listed ∈ roles, role ∈ holdersOf d listed) ↔
      ∃ listed ∈ others, role ∈ holdersOf d listed := by
    intro role
    rw [← mem_effectiveHolders, ← mem_effectiveHolders, same]
  rcases List.exists_mem_of_ne_nil _ some' with ⟨first, inRoles⟩
  have nonempty : (roles ++ others).toFinset.Nonempty :=
    ⟨first, List.mem_toFinset.mpr (List.mem_append_left _ inRoles)⟩
  rcases checked.acyclic.exists_last nonempty with ⟨last, member, alone⟩
  have isLast : ∀ listed ∈ roles ++ others, last ∈ holdersOf d listed → listed = last := by
    intro listed inBoth held
    apply alone listed (List.mem_toFinset.mpr inBoth)
    exact (mem_expandRoles d last listed).mp ((mem_holdersOf d listed last).mp held).2
  rcases List.mem_append.mp (List.mem_toFinset.mp member) with inRoles | inOthers
  · rcases (holds last).mp ⟨last, inRoles, mem_holdersOf_self (known last inRoles)⟩ with
      ⟨listed, inOthers, held⟩
    have same := isLast listed (List.mem_append_right _ inOthers) held
    exact disjoint inRoles (same ▸ inOthers)
  · rcases (holds last).mpr ⟨last, inOthers, mem_holdersOf_self (othersKnown last inOthers)⟩ with
      ⟨listed, inRoles, held⟩
    have same := isLast listed (List.mem_append_left _ inRoles) held
    exact disjoint (same ▸ inRoles) inOthers

theorem head?_grantClauses (d : Declaration) (res : Resource) (g : Grant) {first : Clause}
    (isFirst : first ∈ (grantClauses d res g).head?) :
    ∃ privilege ∈ g.privileges, first = .allow privilege (effectiveHolders d g.roles) := by
  cases sorted : Text.sortBy (fun a b => cmp a.text b.text) g.privileges with
  | nil => exact absurd ((Text.sortBy_eq_nil _ _).mp sorted) g.privileges_nonempty
  | cons privilege rest =>
      rw [grantClauses, sorted] at isFirst
      refine ⟨privilege, (Text.mem_sortBy _ _ _).mp (sorted ▸ List.mem_cons_self), ?_⟩
      simpa using isFirst.symm

theorem allow_mem_grantClauses (d : Declaration) (res : Resource) (g : Grant)
    (privilege : Privilege) (holders : List String) :
    Clause.allow privilege holders ∈ grantClauses d res g ↔
      privilege ∈ g.privileges ∧ holders = effectiveHolders d g.roles := by
  simp [grantClauses, eq_comm]

theorem PermutedResource.sortedGrants_pairs {res res' : Resource}
    (matches' : PermutedResource res res') :
    PermBy PermutedGrant (sortedGrants res) (sortedGrants res') :=
  matches'.grants.of_perm (Text.sortBy_perm _ _) (Text.sortBy_perm _ _).symm

namespace GrantsOnce

variable {d d' : Declaration} (once : GrantsOnce d)
include once

theorem sortedGrants_apart {res : Resource} (declared : res ∈ d.resources) :
    (sortedGrants res).Pairwise fun g h =>
      g.privileges.Disjoint h.privileges ∨ g.roles.Disjoint h.roles := by
  refine (List.Perm.pairwise_iff ?_ (Text.sortBy_perm _ _)).mpr (once.grants res declared)
  intro g h apart
  exact apart.imp List.Disjoint.symm List.Disjoint.symm

theorem mem_sortedGrants_roles {res : Resource} (declared : res ∈ d.resources) {g : Grant}
    (member : g ∈ sortedGrants res) : g.roles ≠ [] :=
  once.roles res declared g ((Text.mem_sortBy _ _ _).mp member)

/-- The grants of a table are visited in the same order if the policy says the same of it. -/
theorem trino_forall₂ (permuted : Permuted d d') (checked : Checked d) {res res' : Resource}
    (declared : res ∈ d.resources) (matches' : PermutedResource res res')
    (same : clauses d res = clauses d' res') :
    List.Forall₂ (SameGrant .trino) (sortedGrants res) (sortedGrants res') := by
  have sameLength : ∀ g g', PermutedGrant g g' →
      (grantClauses d res g).length = (grantClauses d' res' g').length := by
    intro g g' alike
    rw [length_grantClauses, length_grantClauses, alike.privileges.length_eq, activeFilter,
      activeFilter, alike.rowFilter, alike.masks]
  have paired : List.Forall₂ PermutedGrant (sortedGrants res) (sortedGrants res') := by
    apply matches'.sortedGrants_pairs.forall₂_of_flatMap_eq sameLength _ _ _ same
    · intro g g' alike first isFirst
      rcases head?_grantClauses d' res' g' isFirst with ⟨privilege, listed, rfl⟩
      rw [allow_mem_grantClauses, permuted.effectiveHolders_eq checked alike.roles]
      exact ⟨alike.privileges.mem_iff.mpr listed, rfl⟩
    · intro g _ nothing
      have empty := congrArg List.length nothing
      rw [length_grantClauses, List.length_nil] at empty
      exact g.privileges_nonempty (List.length_eq_zero_iff.mp (by omega))
    · apply (once.sortedGrants_apart declared).imp_of_mem
      intro g h inSorted inSorted' apart first isFirst said
      rcases head?_grantClauses d res g isFirst with ⟨privilege, listed, rfl⟩
      rcases (allow_mem_grantClauses d res h _ _).mp said with ⟨alsoListed, sameHolders⟩
      have known : ∀ g ∈ sortedGrants res, ∀ role ∈ g.roles, role ∈ d.roleNames := by
        intro g member
        exact checked.grantRoleKnown res declared g ((Text.mem_sortBy _ _ _).mp member)
      cases apart with
      | inl privileges => exact privileges listed alsoListed
      | inr roles =>
          exact checked.effectiveHolders_ne (known g inSorted) (known h inSorted')
            (once.mem_sortedGrants_roles declared inSorted) roles sameHolders
  have both := (flatMap_append_inj paired sameLength (congrArg (· ++ []) same)).1
  apply both.imp
  intro g g' alike
  exact { alike.1 with
    listed := fun _ => (permuted.grantClauses_eq_iff checked matches' alike.1).mp alike.2 }

theorem postgres_forall₂ {res res' : Resource} (declared : res ∈ d.resources)
    (matches' : PermutedResource res res') (same : tableGrants res = tableGrants res') :
    List.Forall₂ PermutedGrant (sortedGrants res) (sortedGrants res') := by
  apply matches'.sortedGrants_pairs.forall₂_of_flatMap_eq _ _ _ _ same
  · intro g g' alike
    rw [alike.tableGrants_eq]
  · intro g g' alike first isFirst
    rw [alike.tableGrants_eq]
    exact List.mem_of_mem_head? isFirst
  · intro g member nothing
    rw [List.map_eq_nil_iff, Text.sortBy_eq_nil] at nothing
    exact once.mem_sortedGrants_roles declared member nothing
  · apply (once.sortedGrants_apart declared).imp
    intro g h apart first isFirst said
    rcases List.mem_map.mp (List.mem_of_mem_head? isFirst) with ⟨role, listed, rfl⟩
    rcases List.mem_map.mp said with ⟨role', alsoListed, samePair⟩
    rcases Prod.mk.inj samePair with ⟨samePrivileges, rfl⟩
    rw [Text.mem_sortBy] at listed alsoListed
    cases apart with
    | inl privileges =>
        rcases List.exists_mem_of_ne_nil _ (sortedPrivileges_ne_nil g) with ⟨privilege, inFirst⟩
        have inOther : privilege ∈ sortedPrivileges h := samePrivileges ▸ inFirst
        rw [sortedPrivileges, Text.mem_sortBy] at inFirst inOther
        exact privileges inFirst inOther
    | inr roles => exact roles listed alsoListed

theorem logins_forall₂ (permuted : Permuted d d') (name : String)
    (same : loginRoles d name = loginRoles d' name) :
    List.Forall₂ PermutedLogin (d.loginList.filter (·.name = name))
      (d'.loginList.filter (·.name = name)) := by
  have pairs : PermBy PermutedLogin (d.loginList.filter (·.name = name))
      (d'.loginList.filter (·.name = name)) :=
    permuted.loginList.filter fun login login' matches' => by rw [matches'.name]
  have ofName : ∀ login ∈ d.loginList.filter (·.name = name),
      login ∈ d.loginList ∧ login.name = name := by
    intro login member
    rwa [List.mem_filter, decide_eq_true_eq] at member
  apply pairs.forall₂_of_flatMap_eq _ _ _ _ same
  · intro login login' matches'
    rw [(Text.sortBy_perm _ _).length_eq, (Text.sortBy_perm _ _).length_eq,
      matches'.memberOf.length_eq]
  · intro login login' matches' first isFirst
    have listed := (Text.mem_sortBy _ _ _).mp (List.mem_of_mem_head? isFirst)
    exact (Text.mem_sortBy _ _ _).mpr (matches'.memberOf.mem_iff.mpr listed)
  · intro login member nothing
    exact once.memberOf login (ofName login member).1 ((Text.sortBy_eq_nil _ _).mp nothing)
  · apply (once.logins.filter _).imp_of_mem
    intro login other member member' apart first isFirst said
    have listed := (Text.mem_sortBy _ _ _).mp (List.mem_of_mem_head? isFirst)
    have sameName := (ofName login member).2.trans (ofName other member').2.symm
    exact apart sameName listed ((Text.mem_sortBy _ _ _).mp said)

theorem catalogs_forall₂ (valid : validateDeclaration d = []) (permuted : Permuted d d')
    (same : d.catalogGrantList.map (catalogEntry d) = d'.catalogGrantList.map (catalogEntry d')) :
    List.Forall₂ PermutedCatalogGrant d.catalogGrantList d'.catalogGrantList := by
  have checked := checked_of_valid valid
  have sameOperations := congrArg (List.flatMap Prod.fst) same
  rw [List.flatMap_map, List.flatMap_map] at sameOperations
  apply permuted.catalogGrantList.forall₂_of_flatMap_eq _ _ _ _ sameOperations
  · intro cg cg' matches'
    rw [catalogEntry, catalogEntry, (Text.sortBy_perm _ _).length_eq,
      (Text.sortBy_perm _ _).length_eq, matches'.operations.length_eq]
  · intro cg cg' matches' first isFirst
    have listed := (Text.mem_sortBy _ _ _).mp (List.mem_of_mem_head? isFirst)
    exact (Text.mem_sortBy _ _ _).mpr (matches'.operations.mem_iff.mpr listed)
  · intro cg member nothing
    exact once.operations cg member ((Text.sortBy_eq_nil _ _).mp nothing)
  · have distinct := valid
    simp only [validateDeclaration, List.append_eq_nil_iff,
      duplicateCatalogGrantErrors_eq_nil_iff] at distinct
    have apart := (List.nodup_flatMap.mp distinct.1.2).2
    apply apart.imp_of_mem
    intro cg other member member' disjoint first isFirst said
    have listed := (Text.mem_sortBy _ _ _).mp (List.mem_of_mem_head? isFirst)
    have alsoListed := (Text.mem_sortBy _ _ _).mp said
    have sameCatalog : cg.catalog = other.catalog := by
      rw [checked.catalogDeployed cg member, checked.catalogDeployed other member']
    apply disjoint (List.mem_map_of_mem listed)
    rw [sameCatalog]
    exact List.mem_map_of_mem alsoListed

/-- Where nothing is granted twice, declarations that are printed alike keep the order. -/
theorem orderKept (valid : validateDeclaration d = []) (permuted : Permuted d d')
    (checked' : Checked d') (printed : PrintedAlike d d') : OrderKept d d' where
  groups := by
    intro name
    apply forall₂_imp_of_mem (forall₂_of_map_eq (printed.groups name))
    intro g inLeft g' inRight sameRoles
    rw [List.mem_filter, decide_eq_true_eq] at inLeft inRight
    exact ⟨inLeft.2.trans inRight.2.symm, perm_of_sortBy_eq sameRoles⟩
  logins := fun name => once.logins_forall₂ permuted name (printed.logins name)
  catalogs := once.catalogs_forall₂ valid permuted printed.catalogs
  tables := by
    intro res declared res' declared' sameName sameEngine
    have matches' := permuted.matches_of_name checked' declared declared' sameName sameEngine
    refine ⟨_, _, visits_sortedGrants res, visits_sortedGrants res', ?_⟩
    cases isEngine : res.engineOrDefault with
    | trino =>
        apply once.trino_forall₂ permuted (checked_of_valid valid) declared matches'
        exact printed.tables res declared res' declared' sameName isEngine
          (sameEngine.symm.trans isEngine)
    | postgres =>
        have ofEngine : ∀ {res : Resource}, res.engineOrDefault = .postgres →
            res.engine = some .postgres := by
          intro res isPostgres
          cases written : res.engine with
          | none => simp [Resource.engineOrDefault, written] at isPostgres
          | some engine => simpa [Resource.engineOrDefault, written] using isPostgres
        have same := printed.pgTables res declared res' declared' sameName (ofEngine isEngine)
          (ofEngine (sameEngine.symm.trans isEngine))
        apply (once.postgres_forall₂ declared matches' same).imp
        intro g g' alike
        exact { alike with listed := fun isTrino => absurd isTrino (by decide) }

end GrantsOnce

/-- A rearranged declaration compiles to the same artifacts if the order is kept, and where
nothing is granted twice only then. -/
theorem compileAll_permuted {d d' : Declaration} (valid : validateDeclaration d = [])
    (permuted : Permuted d d') :
    (OrderKept d d' → compileAll d' = compileAll d) ∧
      (GrantsOnce d → compileAll d' = compileAll d → OrderKept d d') := by
  have checked := checked_of_valid valid
  have valid' := permuted.validateDeclaration_eq_nil checked.roleNames_nodup valid
  have checked' := checked_of_valid valid'
  constructor
  · intro kept
    exact (printedAlike_iff valid permuted).mpr (permuted.printedAlike checked checked' kept)
  · intro once same
    exact once.orderKept valid permuted checked' ((printedAlike_iff valid permuted).mp same)

/-- The example declaration with its roles and its resources the other way around. -/
def lakehouseReversed : Declaration :=
  { lakehouse with roles := lakehouse.roles.reverse, resources := lakehouse.resources.reverse }

theorem PermBy.of_reverse {ι : Type*} {related : ι → ι → Prop} (refl : ∀ item, related item item)
    (items : List ι) : PermBy related items items.reverse :=
  ⟨items.reverse, (List.reverse_perm items).symm, List.forall₂_same.mpr fun item _ => refl item⟩

theorem PermutedRole.refl (r : Role) : PermutedRole r r where
  name := rfl
  includes := by
    cases r.includes with
    | none => exact .none
    | some parents => exact .some (List.Perm.refl parents)

theorem PermutedResource.refl (res : Resource) : PermutedResource res res where
  resource := rfl
  classification := rfl
  grants := ⟨_, List.Perm.refl _, List.forall₂_same.mpr fun _ _ =>
    ⟨List.Perm.refl _, List.Perm.refl _, rfl, rfl, rfl⟩⟩
  sensitiveColumns := rfl
  engine := rfl

theorem lakehouse_permuted : Permuted lakehouse lakehouseReversed where
  roles := PermBy.of_reverse PermutedRole.refl _
  groups := ⟨_, List.Perm.refl _, List.forall₂_same.mpr fun _ _ => ⟨rfl, List.Perm.refl _⟩⟩
  resources := PermBy.of_reverse PermutedResource.refl _
  catalogGrants := .some ⟨_, List.Perm.refl _, List.forall₂_same.mpr fun _ _ =>
    ⟨rfl, List.Perm.refl _, List.Perm.refl _⟩⟩
  logins := .some ⟨_, List.Perm.refl _, List.forall₂_same.mpr fun _ _ =>
    ⟨rfl, List.Perm.refl _, rfl⟩⟩

/-- Resources, their grants included, stand in the same order under their own names. -/
theorem lakehouse_orderKept : OrderKept lakehouse lakehouseReversed where
  groups := fun _ => List.forall₂_same.mpr fun _ _ => ⟨rfl, List.Perm.refl _⟩
  logins := fun _ => List.forall₂_same.mpr fun _ _ => ⟨rfl, List.Perm.refl _, rfl⟩
  catalogs := List.forall₂_same.mpr fun _ _ => ⟨rfl, List.Perm.refl _, List.Perm.refl _⟩
  tables := by
    intro res declared res' declared' sameName sameEngine
    have checked := checked_of_valid lakehouse_valid
    have same :=
      checked.resource_unique declared (List.mem_reverse.mp declared') sameEngine sameName
    subst same
    refine ⟨_, _, visits_sortedGrants res, visits_sortedGrants res, ?_⟩
    apply List.forall₂_same.mpr
    intro g _
    exact ⟨⟨List.Perm.refl _, List.Perm.refl _, rfl, rfl, rfl⟩, fun _ _ => rfl⟩

theorem compileAll_lakehouseReversed :
    validateDeclaration lakehouse = [] ∧ Permuted lakehouse lakehouseReversed ∧
      OrderKept lakehouse lakehouseReversed ∧
      compileAll lakehouseReversed = compileAll lakehouse :=
  ⟨lakehouse_valid, lakehouse_permuted, lakehouse_orderKept,
    (compileAll_permuted lakehouse_valid lakehouse_permuted).1 lakehouse_orderKept⟩

/-- One table that two roles may read in part. -/
def filtered (roles : List String) : Declaration where
  roles := [{ name := "a" }, { name := "b" }]
  groups := []
  resources :=
    [{ resource := "s.t"
       classification := .internal
       grants := [readGrant roles none (some "x = 1")] }]

theorem filtered_permuted : Permuted (filtered ["a", "b"]) (filtered ["b", "a"]) where
  roles := ⟨_, List.Perm.refl _, List.forall₂_same.mpr fun r _ => PermutedRole.refl r⟩
  groups := PermBy.nil
  resources := ⟨_, List.Perm.refl _, .cons {
    resource := rfl
    classification := rfl
    grants := ⟨_, List.Perm.refl _, .cons ⟨.swap _ _ _, List.Perm.refl _, rfl, rfl, rfl⟩ .nil⟩
    sensitiveColumns := rfl
    engine := rfl } .nil⟩
  catalogGrants := .none
  logins := .none

/-- The roles of a grant that filters rows are written in the order in which they are listed. -/
theorem compileAll_shows_order : ∃ d d', validateDeclaration d = [] ∧ Permuted d d' ∧
    compileAll d' ≠ compileAll d := by
  have valid : validateDeclaration (filtered ["a", "b"]) = [] := by decide +kernel
  have valid' : validateDeclaration (filtered ["b", "a"]) = [] := by decide +kernel
  have checked := checked_of_valid valid
  have checked' := checked_of_valid valid'
  have differ :
      ((trinoResources (filtered ["a", "b"])).map fun res =>
        (clauses (filtered ["a", "b"]) res).map fun clause => (clause.rule "s.t" "s" "t").body) ≠
      (trinoResources (filtered ["b", "a"])).map fun res =>
        (clauses (filtered ["b", "a"]) res).map fun clause => (clause.rule "s.t" "s" "t").body := by
    decide +kernel
  refine ⟨filtered ["a", "b"], filtered ["b", "a"], valid, filtered_permuted, ?_⟩
  intro same
  have samePolicy := ((compileAll_eq_iff valid' valid).mp same).2.1
  have sameRules := (checked.compileRego_eq_iff checked').mp samePolicy.symm
  have tables := ((filtered_permuted.regoRules_eq_iff checked checked').mp sameRules).1
  apply differ
  apply map_eq_of_forall₂ tables
  intro res res' both
  exact congrArg (List.map fun clause => (clause.rule "s.t" "s" "t").body) both.2

end BelugaManager.PolicyCompiler
