import BelugaManager.PolicyCompiler.Rego

/-!
# Requests and what the policy answers

The part of the policy engine that the emitted rules use.  A condition on a place
that a request does not have is not true, `some g in groups` with `g in S` asks for
a common element, and `every ug in groups` excludes one.
-/

namespace BelugaManager.PolicyCompiler

/-- The resource of a request, in one of the shapes in which the engine sends it. -/
inductive RequestResource where
  | none
  | catalog (name : String)
  | schema (catalogName schemaName : String)
  | table (catalogName schemaName tableName : String)
  | column (catalogName schemaName tableName columnName : String)
  | catalogSessionProperty (catalogName propertyName : String)
  deriving DecidableEq, Repr

/-- A request: an operation on a resource by someone with the given groups. -/
structure Request where
  operation : String
  resource : RequestResource
  groups : List String
  deriving DecidableEq, Repr

/-- What a request has at a place, if it has the place at all. -/
def Path.lookup (request : Request) : Path → Option String
  | .operation => some request.operation
  | .catalogName =>
      match request.resource with
      | .catalog name => some name
      | _ => none
  | .schemaCatalog =>
      match request.resource with
      | .schema catalog _ => some catalog
      | _ => none
  | .schemaName =>
      match request.resource with
      | .schema _ schema => some schema
      | _ => none
  | .tableCatalog =>
      match request.resource with
      | .table catalog _ _ => some catalog
      | _ => none
  | .tableSchema =>
      match request.resource with
      | .table _ schema _ => some schema
      | _ => none
  | .tableName =>
      match request.resource with
      | .table _ _ table => some table
      | _ => none
  | .columnCatalog =>
      match request.resource with
      | .column catalog _ _ _ => some catalog
      | _ => none
  | .columnSchema =>
      match request.resource with
      | .column _ schema _ _ => some schema
      | _ => none
  | .columnTable =>
      match request.resource with
      | .column _ _ table _ => some table
      | _ => none
  | .columnName =>
      match request.resource with
      | .column _ _ _ column => some column
      | _ => none
  | .sessionPropertyCatalog =>
      match request.resource with
      | .catalogSessionProperty catalog _ => some catalog
      | _ => none

/-- Whether a condition is true of a request. -/
def Guard.Holds (request : Request) : Guard → Prop
  | .equals path value => path.lookup request = some value
  | .oneOf path values => ∃ value ∈ values, path.lookup request = some value
  | .someGroupIn roles => Meets request.groups roles
  | .everyGroupNotIn roles => ¬ Meets request.groups roles

instance (request : Request) (guard : Guard) : Decidable (guard.Holds request) :=
  match guard with
  | .equals path value => inferInstanceAs (Decidable (path.lookup request = some value))
  | .oneOf path values =>
      inferInstanceAs (Decidable (∃ value ∈ values, path.lookup request = some value))
  | .someGroupIn roles => inferInstanceAs (Decidable (Meets request.groups roles))
  | .everyGroupNotIn roles => inferInstanceAs (Decidable (¬ Meets request.groups roles))

/-- Whether all conditions of a body are true of a request. -/
def Conditions (request : Request) (body : List Guard) : Prop :=
  ∀ guard ∈ body, guard.Holds request

instance (request : Request) (body : List Guard) : Decidable (Conditions request body) :=
  inferInstanceAs (Decidable (∀ guard ∈ body, guard.Holds request))

/-- The body of a rule is true of a request. -/
def Rule.Fires (rule : Rule) (request : Request) : Prop := Conditions request rule.body

instance (rule : Rule) (request : Request) : Decidable (rule.Fires request) :=
  inferInstanceAs (Decidable (Conditions request rule.body))

/-- The policy allows a request when any rule does. -/
def Allowed (rules : List Rule) (request : Request) : Prop :=
  ∃ rule ∈ rules, rule.head = .allow ∧ rule.Fires request

/-- The policy asks for a column to be replaced by an expression. -/
def Masked (rules : List Rule) (request : Request) (expression : String) : Prop :=
  ∃ rule ∈ rules, rule.head = .columnMask expression ∧ rule.Fires request

/-- Two values for the one mask of a column, an error of the engine. -/
def MaskConflict (rules : List Rule) (request : Request) : Prop :=
  ∃ left right, Masked rules request left ∧ Masked rules request right ∧ left ≠ right

/-! ## Bodies -/

@[simp] theorem conditions_nil (request : Request) : Conditions request [] := by
  simp [Conditions]

@[simp] theorem conditions_cons (request : Request) (guard : Guard) (body : List Guard) :
    Conditions request (guard :: body) ↔ guard.Holds request ∧ Conditions request body :=
  List.forall_mem_cons

@[simp] theorem conditions_append (request : Request) (left right : List Guard) :
    Conditions request (left ++ right) ↔
      Conditions request left ∧ Conditions request right :=
  List.forall_mem_append

/-- The conditions on a table single out one table of the deployed catalog. -/
theorem conditions_tableGuards (request : Request) (schema table : String) :
    Conditions request (tableGuards schema table) ↔
      request.resource = .table DEPLOYED_CATALOG schema table := by
  cases shape : request.resource <;>
    simp [tableGuards, Guard.Holds, Path.lookup, shape]

theorem conditions_columnGuards (request : Request) (schema table col : String) :
    Conditions request (columnGuards schema table col) ↔
      request.resource = .column DEPLOYED_CATALOG schema table col := by
  cases shape : request.resource <;>
    simp [columnGuards, Guard.Holds, Path.lookup, shape]

/-- A token contains a holder of one of the roles. -/
def HeldBy (d : Declaration) (token roles : List String) : Prop :=
  ∃ role ∈ roles, Meets token (holdersOf d role)

instance (d : Declaration) (token roles : List String) : Decidable (HeldBy d token roles) :=
  inferInstanceAs (Decidable (∃ role ∈ roles, Meets token (holdersOf d role)))

/-- A token meets the effective holders of some roles when it meets the holders of
one of them. -/
theorem meets_effectiveHolders (d : Declaration) (token roles : List String) :
    Meets token (effectiveHolders d roles) ↔ HeldBy d token roles := by
  simp only [Meets, HeldBy, mem_effectiveHolders]
  constructor
  · intro meets
    rcases meets with ⟨held, inToken, role, listed, holds⟩
    exact ⟨role, listed, held, inToken, holds⟩
  · intro meets
    rcases meets with ⟨role, listed, held, inToken, holds⟩
    exact ⟨held, inToken, role, listed, holds⟩

theorem allowed_append (left right : List Rule) (request : Request) :
    Allowed (left ++ right) request ↔ Allowed left request ∨ Allowed right request := by
  simp only [Allowed, List.mem_append, or_and_right, exists_or]

end BelugaManager.PolicyCompiler
