import BelugaManager.PolicyCompiler.RowFilterReading
import Mathlib.Algebra.GroupWithZero.Nat

/-!
# Outside the literals of a row filter

Apart from its string literals a row filter is made of names, numbers, keywords, comparisons,
commas, white space, the parentheses of its lists, and signs that stand before a digit.
-/

namespace BelugaManager.PolicyCompiler.RowFilter

open Foundation

/-- What a filter is made of outside its literals. -/
def isPlain (c : Char) : Bool :=
  Text.isSpace c || isDottedPart c || isComparisonPart c || c = '-' || c = ',' || c = '(' || c = ')'

/-- Every sign stands before a digit. -/
def SignsNumbers : List Char → Prop
  | [] => True
  | c :: rest => (c = '-' → ∃ d ∈ rest.head?, d.isDigit = true) ∧ SignsNumbers rest

/-- A text without literals, with the parentheses of a number of lists. -/
structure Harmless (lists : ℕ) (text : List Char) : Prop where
  plain : ∀ c ∈ text, isPlain c = true
  signs : SignsNumbers text
  opened : text.count '(' = lists
  closed : text.count ')' = lists

variable {m n : ℕ} {left right text : List Char}

theorem signsNumbers_append (signs : SignsNumbers left) (signs' : SignsNumbers right) :
    SignsNumbers (left ++ right) := by
  induction left with
  | nil => exact signs'
  | cons c left ih =>
      refine ⟨?_, ih signs.2⟩
      intro sign
      rcases signs.1 sign with ⟨d, first, digit⟩
      refine ⟨d, ?_, digit⟩
      cases left with
      | nil => cases first
      | cons other left => exact first

theorem signsNumbers_of_not_mem (noSign : '-' ∉ text) : SignsNumbers text := by
  induction text with
  | nil => exact trivial
  | cons c text ih =>
      rw [List.mem_cons, not_or] at noSign
      exact ⟨fun sign => absurd sign.symm noSign.1, ih noSign.2⟩

theorem SignsNumbers.no_dashes (signs : SignsNumbers text) : ¬['-', '-'] <:+: text := by
  intro inside
  rcases inside with ⟨before, after, rfl⟩
  rw [List.append_assoc] at signs
  induction before with
  | nil =>
      rcases signs.1 rfl with ⟨d, first, digit⟩
      cases first
      exact absurd digit (by decide)
  | cons c before ih => exact ih signs.2

namespace Harmless

theorem nil : Harmless 0 [] where
  plain := by simp
  signs := trivial
  opened := rfl
  closed := rfl

theorem append (harmless : Harmless m left) (harmless' : Harmless n right) :
    Harmless (m + n) (left ++ right) where
  plain := List.forall_mem_append.mpr ⟨harmless.plain, harmless'.plain⟩
  signs := signsNumbers_append harmless.signs harmless'.signs
  opened := by rw [List.count_append, harmless.opened, harmless'.opened]
  closed := by rw [List.count_append, harmless.closed, harmless'.closed]

/-- Text of a class without signs and parentheses. -/
theorem of_class {accepts : Char → Bool} (every : ∀ c ∈ text, accepts c = true)
    (narrow : ∀ c, accepts c = true → isPlain c = true)
    (without : accepts '-' = false ∧ accepts '(' = false ∧ accepts ')' = false) :
    Harmless 0 text := by
  have free : ∀ {c : Char}, accepts c = false → c ∉ text := by
    intro c outside member
    rw [every c member] at outside
    cases outside
  exact {
    plain := fun c member => narrow c (every c member)
    signs := signsNumbers_of_not_mem (free without.1)
    opened := List.count_eq_zero_of_not_mem (free without.2.1)
    closed := List.count_eq_zero_of_not_mem (free without.2.2) }

theorem flatMap {ι : Type*} {items : List ι} {shown : ι → List Char} {lists : ι → ℕ}
    (each : ∀ item ∈ items, Harmless (lists item) (shown item)) :
    Harmless (items.map lists).sum (items.flatMap shown) := by
  induction items with
  | nil => exact nil
  | cons item items ih =>
      rcases List.forall_mem_cons.mp each with ⟨first, later⟩
      rw [List.map_cons, List.sum_cons, List.flatMap_cons]
      exact first.append (ih later)

theorem parenthesized (harmless : Harmless 0 text) : Harmless 1 ('(' :: (text ++ [')'])) where
  plain := List.forall_mem_cons.mpr
    ⟨by decide, List.forall_mem_append.mpr
      ⟨harmless.plain, List.forall_mem_singleton.mpr (by decide)⟩⟩
  signs := by
    have stop : SignsNumbers [')'] := signsNumbers_of_not_mem (by decide)
    exact ⟨fun sign => absurd sign (by decide), signsNumbers_append harmless.signs stop⟩
  opened := by
    rw [List.count_cons_self, List.count_append, harmless.opened]
    rfl
  closed := by
    rw [List.count_cons_of_ne (by decide), List.count_append, harmless.closed]
    rfl

end Harmless

theorem isPlain_of_isSpace {c : Char} (space : Text.isSpace c = true) : isPlain c = true := by
  simp [isPlain, space]

theorem isPlain_of_isDottedPart {c : Char} (part : isDottedPart c = true) : isPlain c = true := by
  simp [isPlain, part]

/-! ## The parts of a filter -/

theorem harmless_space (space : ∀ c ∈ text, Text.isSpace c = true) : Harmless 0 text :=
  .of_class space (fun _ => isPlain_of_isSpace) (by decide)

theorem harmless_dotted (parts : ∀ c ∈ text, isDottedPart c = true) : Harmless 0 text :=
  .of_class parts (fun _ => isPlain_of_isDottedPart) (by decide)

theorem harmless_identifier (identifier : Identifier) : Harmless 0 identifier.text :=
  harmless_dotted fun c member => isDottedPart_of_isIdentPart (identifier.parts_text c member)

theorem harmless_digits (digits : Digits) : Harmless 0 digits.text :=
  harmless_dotted fun c member => isDottedPart_of_isDigit (digits.digits c member)

theorem harmless_optional {ι : Type*} {shown : ι → List Char}
    (each : ∀ item, Harmless 0 (shown item)) (item : Option ι) :
    Harmless 0 (dotted shown item) := by
  have dot : Harmless 0 ['.'] := harmless_dotted (List.forall_mem_singleton.mpr (by decide))
  cases item with
  | none => exact .nil
  | some item => exact dot.append (each item)

theorem harmless_column (column : Column) : Harmless 0 column.text :=
  (harmless_identifier column.first).append (harmless_optional harmless_identifier column.second)

theorem harmless_spelling {keyword : String} (spelling : Spelling keyword)
    (letters : keyword.toList.all isIdentStart = true) : Harmless 0 spelling.text :=
  harmless_dotted fun c member => isDottedPart_of_isIdentPart
    (isIdentPart_of_isIdentStart (spelling.text_parts letters c member))

theorem harmless_comparison (compared : Comparison) : Harmless 0 compared.text :=
  .of_class compared.text_parts (fun c part => by simp [isPlain, part]) (by decide)

theorem harmless_comma : Harmless 0 [','] where
  plain := List.forall_mem_singleton.mpr (by decide)
  signs := signsNumbers_of_not_mem (by decide)
  opened := rfl
  closed := rfl

theorem harmless_value (value : Value) : Harmless 0 value.outside := by
  cases value with
  | number negative whole fraction =>
      have unsigned := (harmless_digits whole).append (harmless_optional harmless_digits fraction)
      rw [Value.outside, List.append_assoc]
      cases negative with
      | false => exact unsigned
      | true =>
          rcases whole.text_start with ⟨c, tail, spelled, digit⟩
          exact {
            plain := List.forall_mem_cons.mpr ⟨by decide, unsigned.plain⟩
            signs := ⟨fun _ => ⟨c, by rw [spelled]; rfl, digit⟩, unsigned.signs⟩
            opened := unsigned.opened
            closed := unsigned.closed }
  | literal content => exact .nil
  | session spelling => exact harmless_spelling spelling (by decide)

theorem harmless_element (element : Element) : Harmless 0 (element.written Value.outside) := by
  have parts := ((harmless_space element.before.space).append harmless_comma).append
    ((harmless_space element.after.space).append (harmless_value element.value))
  simpa [Element.written] using parts

theorem harmless_inList (list : InList) : Harmless 1 (list.written Value.outside) := by
  have elements : Harmless 0 (list.more.flatMap (Element.written Value.outside)) := by
    have each := Harmless.flatMap fun element (_ : element ∈ list.more) => harmless_element element
    simpa using each
  have inside := ((harmless_space list.opened.space).append (harmless_value list.first)).append
    (elements.append (harmless_space list.closed.space))
  simpa [InList.written] using inside.parenthesized

/-- The list of a term, if it has one. -/
def Term.list? : Term → Option InList
  | .comparison _ _ _ _ _ => none
  | .oneOf _ _ _ _ list => some list

/-- The lists of a filter, in the order in which they stand. -/
def inLists (filter : RowFilter) : List InList := filter.terms.flatMap fun term => term.list?.toList

theorem harmless_term (term : Term) :
    Harmless term.list?.toList.length (term.written Value.outside) := by
  cases term with
  | comparison column before compared after value =>
      have parts := ((harmless_column column).append (harmless_space before.space)).append
        ((harmless_comparison compared).append
          ((harmless_space after.space).append (harmless_value value)))
      simpa [Term.written, Term.list?] using parts
  | oneOf column gap spelling after list =>
      have parts := ((harmless_column column).append (harmless_space gap.space)).append
        ((harmless_spelling spelling (by decide)).append
          ((harmless_space after.space).append (harmless_inList list)))
      simpa [Term.written, Term.list?] using parts

theorem harmless_link (link : Link) :
    Harmless link.term.list?.toList.length (link.written Value.outside) := by
  have letters : link.connective.word.toList.all isIdentStart = true := by
    cases link.connective <;> decide
  have parts := ((harmless_space link.before.space).append
    (harmless_spelling link.spelling letters)).append
      ((harmless_space link.after.space).append (harmless_term link.term))
  simpa [Link.written] using parts

/-- Outside its literals a filter has the parentheses of its lists and nothing else that could
open or close anything. -/
theorem harmless_outside (filter : RowFilter) : Harmless filter.inLists.length filter.outside := by
  have links := Harmless.flatMap fun link (_ : link ∈ filter.links) => harmless_link link
  have parts := ((harmless_space filter.before.space).append (harmless_term filter.first)).append
    (links.append (harmless_space filter.after.space))
  have counted : filter.inLists.length = filter.first.list?.toList.length +
      (filter.links.map fun link => link.term.list?.toList.length).sum := by
    rw [inLists, terms, List.flatMap_cons, List.length_append, List.flatMap_map,
      List.length_flatMap]
  rw [counted]
  simpa [outside, written] using parts

end BelugaManager.PolicyCompiler.RowFilter
