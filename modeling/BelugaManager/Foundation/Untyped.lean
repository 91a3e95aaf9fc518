import BelugaManager.Foundation.JsNumber

/-!
# Values without a type and schemas for them

A schema says of any value whether it has a shape, and gives the typed value if it does.
All parts of a value are looked at, so that a part that throws makes the whole throw even
if another part is already known to be wrong.
-/

namespace Foundation

/-- Values as far as schemas tell them apart. A date may be invalid, and there are values
that throw when they are looked at. -/
inductive Untyped where
  | undefined
  | null
  | boolean (value : Bool)
  | number (value : JsNumber)
  | string (value : String)
  | symbol (description : String)
  | date (time : Option ℤ)
  | array (items : List Untyped)
  | object (entries : List (String × Untyped))
  | hostile

/-- The outcome of a schema. -/
inductive Parsed (α : Type) where
  | valid (value : α)
  | invalid
  | threw

namespace Parsed

variable {α β : Type}

/-- Both parts are looked at. -/
def combine : Parsed (α → β) → Parsed α → Parsed β
  | .valid f, .valid a => .valid (f a)
  | .threw, _ => .threw
  | _, .threw => .threw
  | _, _ => .invalid

instance : Applicative Parsed where
  pure := .valid
  seq f a := combine f (a ())

theorem seq_eq_valid_iff {f : Parsed (α → β)} {a : Parsed α} {b : β} :
    f <*> a = .valid b ↔ ∃ g x, f = .valid g ∧ a = .valid x ∧ g x = b := by
  change combine f a = .valid b ↔ _
  cases f <;> cases a <;> simp [combine]

theorem map_eq_valid_iff {f : α → β} {a : Parsed α} {b : β} :
    f <$> a = .valid b ↔ ∃ x, a = .valid x ∧ f x = b := by
  change combine (.valid f) a = .valid b ↔ _
  cases a <;> simp [combine]

@[simp] theorem seq_valid (f : α → β) (a : α) :
    (Parsed.valid f <*> Parsed.valid a : Parsed β) = .valid (f a) := rfl

@[simp] theorem map_valid (f : α → β) (a : α) :
    (f <$> Parsed.valid a : Parsed β) = .valid (f a) := rfl

end Parsed

abbrev Schema (α : Type) := Untyped → Parsed α

namespace Schema

variable {α : Type}

/-- A string that passes a test, as something else. -/
def ofString (read : String → Option α) : Schema α
  | .string value => (read value).elim .invalid .valid
  | .hostile => .threw
  | _ => .invalid

/-- A string that is not empty. -/
def nonempty : Schema String := ofString fun value => if value = "" then none else some value

/-- A finite number that passes a test. -/
def number (test : JsNumber → Bool) : Schema JsNumber
  | .number value => if value.isFinite && test value then .valid value else .invalid
  | .hostile => .threw
  | _ => .invalid

def boolean : Schema Bool
  | .boolean value => .valid value
  | .hostile => .threw
  | _ => .invalid

/-- A date that is valid. -/
def date : Schema ℤ
  | .date (some time) => .valid time
  | .hostile => .threw
  | _ => .invalid

/-- A value that may be missing. -/
def optional (schema : Schema α) : Schema (Option α)
  | .undefined => .valid none
  | value => some <$> schema value

/-- All items in their order. -/
def items (schema : Schema α) : List Untyped → Parsed (List α)
  | [] => .valid []
  | item :: rest => List.cons <$> schema item <*> items schema rest

def array (schema : Schema α) : Schema (List α)
  | .array values => items schema values
  | .hostile => .threw
  | _ => .invalid

/-- The value under a name. -/
def field (name : String) (schema : Schema α) (entries : List (String × Untyped)) : Parsed α :=
  schema ((entries.lookup name).getD .undefined)

theorem field_cons (name other : String) (schema : Schema α) (value : Untyped)
    (entries : List (String × Untyped)) :
    field name schema ((other, value) :: entries) =
      if name = other then schema value else field name schema entries := by
  rw [field, List.lookup_cons]
  by_cases same : name = other
  · simp [same]
  · rw [beq_false_of_ne same, if_neg same]
    rfl

/-- An object without other names. -/
def strictObject (names : List String) (fields : List (String × Untyped) → Parsed α) : Schema α
  | .object entries =>
      match fields entries with
      | .valid value => if entries.all (·.1 ∈ names) then .valid value else .invalid
      | other => other
  | .hostile => .threw
  | _ => .invalid

theorem nonempty_eq_valid_iff {value : Untyped} {s : String} :
    nonempty value = .valid s ↔ value = .string s ∧ s ≠ "" := by
  cases value with
  | string found =>
      rw [nonempty, ofString]
      split_ifs with isEmpty
      · simp [isEmpty, eq_comm]
      · simp only [Option.elim_some, Parsed.valid.injEq, Untyped.string.injEq]
        constructor
        · rintro rfl
          exact ⟨rfl, isEmpty⟩
        · exact fun both => both.1
  | _ => simp [nonempty, ofString]

theorem number_eq_valid_iff {test : JsNumber → Bool} {value : Untyped} {n : JsNumber} :
    number test value = .valid n ↔ value = .number n ∧ n.isFinite = true ∧ test n = true := by
  cases value with
  | number found =>
      rw [number]
      split_ifs with passes
      · rw [Bool.and_eq_true] at passes
        simp only [Parsed.valid.injEq, Untyped.number.injEq]
        constructor
        · rintro rfl
          exact ⟨rfl, passes⟩
        · exact fun both => both.1
      · simp only [Untyped.number.injEq, false_iff, not_and]
        rintro rfl isFinite tested
        exact passes (by rw [isFinite, tested]; rfl)
  | _ => simp [number]

theorem items_eq_valid_iff {schema : Schema α} {values : List Untyped} {results : List α} :
    items schema values = .valid results ↔
      List.Forall₂ (fun value result => schema value = .valid result) values results := by
  induction values generalizing results with
  | nil => simp [items, eq_comm]
  | cons value rest ih =>
      rw [items, Parsed.seq_eq_valid_iff]
      constructor
      · rintro ⟨g, tail, head, parsedTail, rfl⟩
        rcases Parsed.map_eq_valid_iff.mp head with ⟨first, parsed, rfl⟩
        exact .cons parsed (ih.mp parsedTail)
      · intro all
        cases all with
        | cons parsed tail =>
            exact ⟨_, _, Parsed.map_eq_valid_iff.mpr ⟨_, parsed, rfl⟩, ih.mpr tail, rfl⟩

theorem array_eq_valid_iff {schema : Schema α} {value : Untyped} {results : List α} :
    array schema value = .valid results ↔ ∃ values, value = .array values ∧
      List.Forall₂ (fun value result => schema value = .valid result) values results := by
  cases value with
  | array values => simp [array, items_eq_valid_iff]
  | _ => simp [array]

theorem optional_eq_valid_iff {schema : Schema α} {value : Untyped} {result : Option α} :
    optional schema value = .valid result ↔ value = .undefined ∧ result = none ∨
      value ≠ .undefined ∧ ∃ found, schema value = .valid found ∧ result = some found := by
  have given : some <$> schema value = .valid result ↔
      ∃ found, schema value = .valid found ∧ result = some found := by
    simp only [Parsed.map_eq_valid_iff, eq_comm]
  cases value with
  | undefined => simp [optional, eq_comm]
  | _ => simpa [optional] using given

theorem strictObject_eq_valid_iff {names : List String}
    {fields : List (String × Untyped) → Parsed α} {value : Untyped} {result : α} :
    strictObject names fields value = .valid result ↔ ∃ entries, value = .object entries ∧
      fields entries = .valid result ∧ entries.all (·.1 ∈ names) = true := by
  cases value with
  | object entries =>
      have one : (∃ others, Untyped.object entries = .object others ∧
          fields others = .valid result ∧ others.all (·.1 ∈ names) = true) ↔
            fields entries = .valid result ∧ entries.all (·.1 ∈ names) = true := by
        constructor
        · intro ⟨others, same, both⟩
          cases same
          exact both
        · exact fun both => ⟨entries, rfl, both⟩
      rw [one, strictObject]
      cases fields entries with
      | valid found =>
          dsimp only
          split_ifs with known
          · exact ⟨fun same => ⟨same, known⟩, fun both => both.1⟩
          · constructor
            · intro same
              cases same
            · exact fun both => absurd both.2 known
      | invalid => simp
      | threw => simp
  | _ => simp [strictObject]

end Schema

end Foundation
