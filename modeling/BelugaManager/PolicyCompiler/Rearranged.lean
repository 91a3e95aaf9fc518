import BelugaManager.PolicyCompiler.Keycloak
import BelugaManager.PolicyCompiler.PgOrder

/-!
# What the artifacts of a rearranged declaration print

Two orders of a valid declaration compile to the same artifacts exactly when they are
printed alike in five places: groups of one name, the grants of a table in the policy and
in the script, the entries for catalogs, and logins of one name.
-/

namespace BelugaManager.PolicyCompiler

open Foundation

/-- The roles of the groups of a name, in the order of the groups. -/
def groupRoles (d : Declaration) (name : String) : List (List String) :=
  (d.groups.filter (·.name = name)).map fun group => Text.sortBy cmp group.roles

theorem Permuted.realmRoles_eq {d d' : Declaration} (permuted : Permuted d d')
    (checked : Checked d) :
    (compileKeycloak d).realmRoles = (compileKeycloak d').realmRoles := by
  apply (comparesBy_name KeycloakRole.name).sortBy_eq_of_perm
  · intro a inA b inB same
    rcases List.mem_map.mp inA with ⟨r, declared, rfl⟩
    rcases List.mem_map.mp inB with ⟨other, declared', rfl⟩
    rw [List.inj_on_of_nodup_map checked.roleNames_nodup declared declared'
      (Text.utf16_injective same)]
  · apply permuted.roles.map_perm
    intro r r' matches'
    rw [matches'.name, matches'.parents.length_eq, show cmp = Text.compareUnits from rfl,
      Text.sortBy_compareUnits_eq_of_perm matches'.parents]

theorem keycloakGroups_eq_iff (d d' : Declaration) :
    (compileKeycloak d).groups = (compileKeycloak d').groups ↔
      ∀ name, groupRoles d name = groupRoles d' name := by
  have ofName : ∀ (e : Declaration) (name : String),
      (e.groups.map fun g => KeycloakGroup.mk g.name (Text.sortBy cmp g.roles)).filter
          (·.name = name) =
        (groupRoles e name).map (KeycloakGroup.mk name) := by
    intro e name
    rw [List.filter_map, groupRoles, List.map_map]
    apply List.map_congr_left
    intro group member
    have named : group.name = name := by simpa using (List.mem_filter.mp member).2
    rw [Function.comp_apply, named]
  have sorted := (comparesBy_name KeycloakGroup.name).sortBy_eq_iff
    (d.groups.map fun g => KeycloakGroup.mk g.name (Text.sortBy cmp g.roles))
    (d'.groups.map fun g => KeycloakGroup.mk g.name (Text.sortBy cmp g.roles))
  simp only [Text.utf16_injective.eq_iff, ofName] at sorted
  apply sorted.trans
  constructor
  · intro same name
    exact (List.map_injective_iff.mpr fun _ _ groups => (KeycloakGroup.mk.inj groups).2)
      (same ⟨name, []⟩)
  · intro same group
    rw [same]

/-! ## All artifacts -/

/-- What is printed alike for two declarations. -/
structure PrintedAlike (d d' : Declaration) : Prop where
  groups : ∀ name, groupRoles d name = groupRoles d' name
  tables : ∀ res ∈ d.resources, ∀ res' ∈ d'.resources, res.resource = res'.resource →
    res.engineOrDefault = .trino → res'.engineOrDefault = .trino → clauses d res = clauses d' res'
  pgTables : ∀ res ∈ d.resources, ∀ res' ∈ d'.resources, res.resource = res'.resource →
    res.engine = some .postgres → res'.engine = some .postgres → tableGrants res = tableGrants res'
  catalogs : d.catalogGrantList.map (catalogEntry d) = d'.catalogGrantList.map (catalogEntry d')
  logins : ∀ name, loginRoles d name = loginRoles d' name

theorem compileAll_eq {d : Declaration} (valid : validateDeclaration d = []) :
    ∃ rego, compileRego d = .ok rego ∧
      compileAll d =
        .ok { keycloak := compileKeycloak d, rego := rego, pgddl := compilePgDdl d } := by
  rcases (checked_of_valid valid).mem_regoRules with ⟨rules, compiled, _⟩
  have rego : compileRego d = .ok (Text.join "\n" (regoHeader ++ rules.flatMap Rule.lines)) := by
    rw [compileRego, compiled]
    rfl
  exact ⟨_, rego, by simp [compileAll, valid, rego, bind, Except.bind, pure, Except.pure]⟩

theorem compileAll_eq_iff {d d' : Declaration} (valid : validateDeclaration d = [])
    (valid' : validateDeclaration d' = []) : compileAll d = compileAll d' ↔
      compileKeycloak d = compileKeycloak d' ∧ compileRego d = compileRego d' ∧
        compilePgDdl d = compilePgDdl d' := by
  rcases compileAll_eq valid with ⟨rego, written, compiled⟩
  rcases compileAll_eq valid' with ⟨rego', written', compiled'⟩
  rw [compiled, compiled', written, written', Except.ok.injEq, Artifacts.mk.injEq, Except.ok.injEq]

/-- Resources that come in pairs of one name agree in pairs exactly when those of one name agree. -/
theorem forall₂_iff_of_name {γ : Type*} {left right : List Resource} {f g : Resource → γ}
    (paired : List.Forall₂ PermutedResource left right)
    (unique : ∀ a ∈ right, ∀ b ∈ right, a.resource = b.resource → a = b) :
    List.Forall₂ (fun res res' => PermutedResource res res' ∧ f res = g res') left right ↔
      ∀ res ∈ left, ∀ res' ∈ right, res.resource = res'.resource → f res = g res' := by
  constructor
  · intro alike res inLeft res' inRight sameName
    have pairs : PermBy (fun res res' => PermutedResource res res' ∧ f res = g res') left right :=
      ⟨_, List.Perm.refl _, alike⟩
    rcases pairs.exists_right inLeft with ⟨other, member, matches', same⟩
    rw [same, unique other member res' inRight (matches'.resource.symm.trans sameName)]
  · intro alike
    apply forall₂_imp_of_mem paired
    intro res inLeft res' inRight matches'
    exact ⟨matches', alike res inLeft res' inRight matches'.resource⟩

/-- Two orders of a valid declaration compile to the same artifacts if and only if they are
printed alike. -/
theorem printedAlike_iff {d d' : Declaration} (valid : validateDeclaration d = [])
    (permuted : Permuted d d') : compileAll d' = compileAll d ↔ PrintedAlike d d' := by
  have checked := checked_of_valid valid
  have valid' := permuted.validateDeclaration_eq_nil checked.roleNames_nodup valid
  have checked' := checked_of_valid valid'
  have keycloak : compileKeycloak d = compileKeycloak d' ↔
      ∀ name, groupRoles d name = groupRoles d' name := by
    rw [← keycloakGroups_eq_iff, compileKeycloak, compileKeycloak, KeycloakSpec.mk.injEq]
    exact and_iff_right (permuted.realmRoles_eq checked)
  have memTrino : ∀ {e : Declaration} (res : Resource),
      res ∈ trinoResources e ↔ res ∈ e.resources ∧ res.engineOrDefault = .trino := by
    intro e res
    rw [trinoResources, Text.mem_sortBy, List.mem_filter, decide_eq_true_eq]
  have tables := forall₂_iff_of_name (f := clauses d) (g := clauses d')
    (permuted.trinoResources_forall₂ checked) (by
      intro a inA b inB
      rcases (memTrino a).mp inA with ⟨declared, isTrino⟩
      rcases (memTrino b).mp inB with ⟨declared', isTrino'⟩
      exact checked'.resource_unique declared declared' (isTrino.trans isTrino'.symm))
  have pgTables := forall₂_iff_of_name (f := tableGrants) (g := tableGrants)
    (permuted.postgresResources_forall₂ checked) (by
      intro a inA b inB
      rcases (mem_postgresResources d' a).mp inA with ⟨declared, isPostgres⟩
      rcases (mem_postgresResources d' b).mp inB with ⟨declared', isPostgres'⟩
      apply checked'.resource_unique declared declared'
      rw [Resource.engineOrDefault, Resource.engineOrDefault, isPostgres, isPostgres'])
  rw [eq_comm, compileAll_eq_iff valid valid', checked.compileRego_eq_iff checked',
    permuted.regoRules_eq_iff checked checked', permuted.compilePgDdl_eq_iff checked checked',
    bindings_eq_iff, keycloak, tables, pgTables]
  simp only [memTrino, mem_postgresResources]
  constructor
  · intro same
    rcases same with ⟨groups, ⟨tables, catalogs⟩, pgTables, logins⟩
    exact {
      groups := groups
      tables := fun res declared res' declared' sameName isTrino isTrino' =>
        tables res ⟨declared, isTrino⟩ res' ⟨declared', isTrino'⟩ sameName
      pgTables := fun res declared res' declared' sameName isPostgres isPostgres' =>
        pgTables res ⟨declared, isPostgres⟩ res' ⟨declared', isPostgres'⟩ sameName
      catalogs := catalogs
      logins := logins }
  · intro alike
    refine ⟨alike.groups, ⟨?_, alike.catalogs⟩, ?_, alike.logins⟩
    · intro res isTrino res' isTrino' sameName
      exact alike.tables res isTrino.1 res' isTrino'.1 sameName isTrino.2 isTrino'.2
    · intro res isPostgres res' isPostgres' sameName
      exact alike.pgTables res isPostgres.1 res' isPostgres'.1 sameName isPostgres.2 isPostgres'.2

end BelugaManager.PolicyCompiler
