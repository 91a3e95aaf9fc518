import BelugaManager.PolicyCompiler.Drift

/-!
# Roles compared as text

The roles of a group are compared as one text, in which the comma that ends a name is not
told from a comma in a name.
-/

namespace BelugaManager.PolicyCompiler

open Foundation

theorem split_append_separator (separator : Char) (first rest : String) :
    Text.split separator (first ++ String.singleton separator ++ rest) =
      Text.split separator first ++ Text.split separator rest := by
  have chars : (first ++ String.singleton separator ++ rest).toList =
      first.toList ++ separator :: rest.toList := by
    simp
  have isSeparator : (separator == separator) = true := beq_self_eq_true separator
  simp only [Text.split, chars, List.splitOn_eq_splitOnP]
  rw [List.splitOnP_append_cons (p := (· == separator)) _ _ isSeparator, List.map_append]

/-- What is joined is cut at the separators between the pieces and at those in them. -/
theorem split_join_eq_flatMap (separator : Char) {pieces : List String} (nonempty : pieces ≠ []) :
    Text.split separator (Text.join (String.singleton separator) pieces) =
      pieces.flatMap (Text.split separator) := by
  induction pieces with
  | nil => exact absurd rfl nonempty
  | cons first rest ih =>
      cases rest with
      | nil => rw [Text.join_singleton, List.flatMap_singleton]
      | cons second rest =>
          have later := ih (List.cons_ne_nil _ _)
          rw [Text.join_cons_cons, split_append_separator, later, ← List.flatMap_cons]

/-- Roles are spelled like other names if these, put in order and cut at their commas, are the
roles in order; and no roles at all are spelled like one empty name. -/
def SpelledLike (roles names : List String) : Prop :=
  Text.sortBy cmp roles = (Text.sortBy cmp names).flatMap (Text.split ',') ∨
    roles = [] ∧ names = [""]

theorem sortBy_eq_singleton_iff {name : String} {names : List String} :
    Text.sortBy cmp names = [name] ↔ names = [name] := by
  have perm := Text.sortBy_perm cmp names
  constructor
  · intro sorted
    rw [sorted] at perm
    exact List.singleton_perm.mp perm |>.symm
  · rintro rfl
    exact List.perm_singleton.mp perm

/-- Role names that can be told apart are joined like other names when they are spelled like
them. -/
theorem joinedRoles_eq_iff_spelledLike {roles names : List String}
    (separate : ∀ role ∈ roles, IsSeparate role) :
    joinedRoles roles = joinedRoles names ↔ SpelledLike roles names := by
  have comma : "," = String.singleton ',' := by decide
  have sortedSeparate : ∀ role ∈ Text.sortBy cmp roles, role ≠ "" ∧ ',' ∉ role.toList :=
    fun role member => separate role ((Text.mem_sortBy _ _ _).mp member)
  have onlyEmpty : ∀ {pieces : List String}, pieces ≠ [] →
      (Text.join "," pieces = "" ↔ pieces = [""]) := by
    intro pieces nonempty
    constructor
    · intro empty
      cases pieces with
      | nil => exact absurd rfl nonempty
      | cons first rest =>
          cases rest with
          | nil => rw [← empty, Text.join_singleton]
          | cons second rest => simp [Text.join_cons_cons] at empty
    · rintro rfl
      rw [Text.join_singleton]
  have nothing : Text.join "," [] = "" := by decide
  rw [joinedRoles, joinedRoles, SpelledLike]
  by_cases noRoles : roles = []
  · subst noRoles
    by_cases noNames : names = []
    · subst noNames
      exact iff_of_true rfl (Or.inl rfl)
    · have someSorted : Text.sortBy cmp names ≠ [] := mt (Text.sortBy_eq_nil _ _).mp noNames
      have cut : (Text.sortBy cmp names).flatMap (Text.split ',') ≠ [] := by
        rw [← split_join_eq_flatMap ',' someSorted]
        exact Text.split_ne_nil _ _
      have noCut : ¬Text.sortBy cmp ([] : List String) =
          (Text.sortBy cmp names).flatMap (Text.split ',') := fun same => cut same.symm
      rw [or_iff_right noCut, and_iff_right rfl, ← sortBy_eq_singleton_iff, ← onlyEmpty someSorted]
      exact eq_comm
  · have someRoles : Text.sortBy cmp roles ≠ [] := mt (Text.sortBy_eq_nil _ _).mp noRoles
    rw [or_iff_left fun empty => noRoles empty.1]
    constructor
    · intro same
      have someNames : Text.sortBy cmp names ≠ [] := by
        intro noNames
        rw [noNames, nothing, onlyEmpty someRoles] at same
        exact (sortedSeparate "" (same ▸ List.mem_cons_self)).1 rfl
      rw [comma] at same
      rw [← Text.split_join someRoles fun role member => (sortedSeparate role member).2, same,
        split_join_eq_flatMap ',' someNames]
    · intro same
      have someNames : Text.sortBy cmp names ≠ [] := by
        intro noNames
        rw [noNames] at same
        exact someRoles same
      rw [same, comma, ← split_join_eq_flatMap ',' someNames, Text.join_split]

end BelugaManager.PolicyCompiler
