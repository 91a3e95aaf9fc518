import BelugaManager.PolicyCompiler.PgDdl
import BelugaManager.PolicyCompiler.Rego

/-!
# The specification for Keycloak and all artifacts together

`compileKeycloak` of `keycloak.ts` and `compileAll` of `compiler/index.ts`.
Inheritance becomes composite roles with the direct parents only; Keycloak expands
them when it issues tokens.
-/

namespace BelugaManager.PolicyCompiler

open Foundation

structure KeycloakRole where
  name : String
  composite : Bool
  composites : List String
  deriving DecidableEq, Repr

structure KeycloakGroup where
  name : String
  realmRoles : List String
  deriving DecidableEq, Repr

structure KeycloakSpec where
  realmRoles : List KeycloakRole
  groups : List KeycloakGroup
  deriving DecidableEq, Repr

def compileKeycloak (d : Declaration) : KeycloakSpec where
  realmRoles :=
    Text.sortBy (fun a b => cmp a.name b.name) <| d.roles.map fun r =>
      { name := r.name
        composite := decide (r.parents.length > 0)
        composites := Text.sortBy cmp r.parents }
  groups :=
    Text.sortBy (fun a b => cmp a.name b.name) <| d.groups.map fun g =>
      { name := g.name, realmRoles := Text.sortBy cmp g.roles }

structure Artifacts where
  keycloak : KeycloakSpec
  rego : String
  pgddl : String

/-- Validate a declaration, then compile it three ways; or the message of the exception. -/
def compileAll (d : Declaration) : Except String Artifacts := do
  let errors := validateDeclaration d
  if errors ≠ [] then
    throw ("선언 검증 실패:\n" ++
      Text.join "\n" (errors.map fun error => s!"  [{error.code.text}] {error.message}"))
  let rego ← compileRego d
  return { keycloak := compileKeycloak d, rego := rego, pgddl := compilePgDdl d }

theorem mem_realmRoles (d : Declaration) (name : String) :
    name ∈ (compileKeycloak d).realmRoles.map KeycloakRole.name ↔ name ∈ d.roleNames := by
  simp [compileKeycloak, Declaration.roleNames]

theorem mem_keycloakGroups (d : Declaration) (g : KeycloakGroup) :
    g ∈ (compileKeycloak d).groups ↔
      ∃ group ∈ d.groups, g = ⟨group.name, Text.sortBy cmp group.roles⟩ := by
  simp [compileKeycloak, eq_comm]

theorem mem_keycloakGroupNames (d : Declaration) (name : String) :
    name ∈ (compileKeycloak d).groups.map KeycloakGroup.name ↔ name ∈ d.groups.map Group.name := by
  simp [compileKeycloak]

/-- Artifacts come from valid declarations only. -/
theorem compileAll_eq_ok {d : Declaration} {artifacts : Artifacts}
    (compiled : compileAll d = .ok artifacts) :
    validateDeclaration d = [] ∧ artifacts.keycloak = compileKeycloak d ∧
      artifacts.pgddl = compilePgDdl d := by
  by_cases valid : validateDeclaration d = []
  · cases rego : compileRego d with
    | error message => simp [compileAll, valid, rego, bind, Except.bind] at compiled
    | ok text =>
        simp only [compileAll, valid, rego, bind, Except.bind, pure, Except.pure, ne_eq,
          not_true_eq_false, if_false, Except.ok.injEq] at compiled
        subst compiled
        exact ⟨valid, rfl, rfl⟩
  · simp [compileAll, valid, bind, Except.bind, throw, throwThe, MonadExceptOf.throw] at compiled

theorem exists_compileAll {d : Declaration} (valid : validateDeclaration d = []) :
    ∃ artifacts, compileAll d = .ok artifacts := by
  rcases (checked_of_valid valid).mem_regoRules with ⟨rules, compiled, _⟩
  simp [compileAll, compileRego, valid, compiled, bind, Except.bind, pure, Except.pure]

end BelugaManager.PolicyCompiler
