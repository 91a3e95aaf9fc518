import BelugaManager.PolicyCompiler.Validate

/-!
# The grammar of row filters

A row filter is a chain of terms joined by one connective.  Here the grammar is a family of
types whose values keep every character of the text they were written with, so that a value
is one way to read a text.  The patterns of the validation accept exactly the texts of
these values.
-/

namespace BelugaManager.PolicyCompiler

open Foundation Regex

namespace RowFilter

/-! ## The parts of a filter -/

/-- White space that may be missing. -/
@[ext]
structure Blank where
  text : List Char
  space : ∀ c ∈ text, Text.isSpace c = true

/-- White space that keeps two words apart. -/
@[ext]
structure Gap where
  text : List Char
  nonempty : text ≠ []
  space : ∀ c ∈ text, Text.isSpace c = true

@[ext]
structure Identifier where
  start : Char
  parts : List Char
  isStart : isIdentStart start = true
  areParts : ∀ c ∈ parts, isIdentPart c = true

def Identifier.text (identifier : Identifier) : List Char := identifier.start :: identifier.parts

/-- `identifier` or `identifier.identifier` -/
@[ext]
structure Column where
  first : Identifier
  second : Option Identifier

/-- What follows a dot, if there is one. -/
def dotted {ι : Type*} (text : ι → List Char) : Option ι → List Char
  | none => []
  | some part => '.' :: text part

def Column.text (column : Column) : List Char :=
  column.first.text ++ dotted Identifier.text column.second

@[ext]
structure Digits where
  text : List Char
  nonempty : text ≠ []
  digits : ∀ c ∈ text, c.isDigit = true

/-- A keyword in letters of either case. -/
@[ext]
structure Spelling (keyword : String) where
  text : List Char
  same : text.map Char.toLower = keyword.toList.map Char.toLower

/-- What stands between the quotes of a string literal. -/
@[ext]
structure Content where
  text : List Char
  plain : ∀ c ∈ text, c ≠ '\'' ∧ c ≠ '\\'

inductive Value where
  | number (negative : Bool) (whole : Digits) (fraction : Option Digits)
  | literal (content : Content)
  | session (spelling : Spelling "current_user")

def sign (negative : Bool) : List Char := if negative then ['-'] else []

def Value.text : Value → List Char
  | .number negative whole fraction => sign negative ++ whole.text ++ dotted Digits.text fraction
  | .literal content => '\'' :: content.text ++ ['\'']
  | .session spelling => spelling.text

/-- A value without what a string literal holds. -/
def Value.outside : Value → List Char
  | .number negative whole fraction => sign negative ++ whole.text ++ dotted Digits.text fraction
  | .literal _ => []
  | .session spelling => spelling.text

inductive Comparison where
  | unequal
  | differs
  | atMost
  | atLeast
  | equal
  | less
  | greater
  deriving DecidableEq, Repr

def Comparison.text : Comparison → List Char
  | .unequal => ['<', '>']
  | .differs => ['!', '=']
  | .atMost => ['<', '=']
  | .atLeast => ['>', '=']
  | .equal => ['=']
  | .less => ['<']
  | .greater => ['>']

/-- One more value of a list, with the comma before it. -/
structure Element where
  before : Blank
  after : Blank
  value : Value

structure InList where
  opened : Blank
  first : Value
  more : List Element
  closed : Blank

def InList.values (list : InList) : List Value := list.first :: list.more.map Element.value

inductive Term where
  | comparison (column : Column) (before : Blank) (compared : Comparison) (after : Blank)
      (value : Value)
  | oneOf (column : Column) (gap : Gap) (spelling : Spelling "IN") (after : Blank) (list : InList)

inductive Connective where
  | and
  | or
  deriving DecidableEq, Repr

def Connective.word : Connective → String
  | .and => "AND"
  | .or => "OR"

/-- One more term of a chain, with the connective before it. -/
structure Link where
  before : Gap
  connective : Connective
  spelling : Spelling connective.word
  after : Gap
  term : Term

end RowFilter

/-- A way to read a row filter: its terms are all joined by the same connective. -/
structure RowFilter where
  before : RowFilter.Blank
  first : RowFilter.Term
  links : List RowFilter.Link
  after : RowFilter.Blank
  uniform : ∃ connective, ∀ link ∈ links, link.connective = connective

namespace RowFilter

def Column.identifiers (column : Column) : List Identifier :=
  column.first :: column.second.toList

def Term.column : Term → Column
  | .comparison column _ _ _ _ => column
  | .oneOf column _ _ _ _ => column

def terms (filter : RowFilter) : List Term := filter.first :: filter.links.map Link.term

def identifiers (filter : RowFilter) : List Identifier :=
  filter.terms.flatMap fun term => term.column.identifiers

section Written

-- How a value is shown: all of it, or all but its literal.
variable (shown : Value → List Char)

def Element.written (element : Element) : List Char :=
  element.before.text ++ ',' :: element.after.text ++ shown element.value

def InList.written (list : InList) : List Char :=
  '(' :: list.opened.text ++ shown list.first ++ list.more.flatMap (Element.written shown) ++
    list.closed.text ++ [')']

def Term.written : Term → List Char
  | .comparison column before compared after value =>
      column.text ++ before.text ++ compared.text ++ after.text ++ shown value
  | .oneOf column gap spelling after list =>
      column.text ++ gap.text ++ spelling.text ++ after.text ++ list.written shown

def Link.written (link : Link) : List Char :=
  link.before.text ++ link.spelling.text ++ link.after.text ++ link.term.written shown

def written (filter : RowFilter) : List Char :=
  filter.before.text ++ filter.first.written shown ++ filter.links.flatMap (Link.written shown) ++
    filter.after.text

end Written

def text (filter : RowFilter) : List Char := filter.written Value.text

/-- What stands outside the string literals. -/
def outside (filter : RowFilter) : List Char := filter.written Value.outside

/-! ## What the patterns describe -/

theorem mem_lang_IDENTIFIER {w : List Char} :
    w ∈ IDENTIFIER.lang ↔ ∃ identifier : Identifier, identifier.text = w := by
  rw [IDENTIFIER, mem_lang_seq]
  simp only [mem_lang_chars, mem_lang_star_chars]
  constructor
  · intro spelled
    rcases spelled with ⟨_, ⟨start, isStart, rfl⟩, parts, areParts, rfl⟩
    exact ⟨⟨start, parts, isStart, areParts⟩, rfl⟩
  · intro read
    rcases read with ⟨identifier, rfl⟩
    exact ⟨[identifier.start], ⟨identifier.start, identifier.isStart, rfl⟩, identifier.parts,
      identifier.areParts, rfl⟩

theorem mem_lang_spaces {w : List Char} : w ∈ spaces.lang ↔ ∃ blank : Blank, blank.text = w := by
  rw [spaces, mem_lang_star_chars]
  constructor
  · intro space
    exact ⟨⟨w, space⟩, rfl⟩
  · intro read
    rcases read with ⟨blank, rfl⟩
    exact blank.space

theorem mem_lang_spaces1 {w : List Char} : w ∈ spaces1.lang ↔ ∃ gap : Gap, gap.text = w := by
  rw [spaces1, mem_lang_plus_chars]
  constructor
  · intro spelled
    exact ⟨⟨w, spelled.1, spelled.2⟩, rfl⟩
  · intro read
    rcases read with ⟨gap, rfl⟩
    exact ⟨gap.nonempty, gap.space⟩

theorem mem_lang_digits {w : List Char} :
    w ∈ (plus (chars Char.isDigit)).lang ↔ ∃ digits : Digits, digits.text = w := by
  rw [mem_lang_plus_chars]
  constructor
  · intro spelled
    exact ⟨⟨w, spelled.1, spelled.2⟩, rfl⟩
  · intro read
    rcases read with ⟨digits, rfl⟩
    exact ⟨digits.nonempty, digits.digits⟩

theorem mem_lang_spelling {keyword : String} {w : List Char} :
    w ∈ (word keyword).lang ↔ ∃ spelling : Spelling keyword, spelling.text = w := by
  rw [mem_lang_word]
  constructor
  · intro same
    exact ⟨⟨w, same⟩, rfl⟩
  · intro read
    rcases read with ⟨spelling, rfl⟩
    exact spelling.same

/-- An optional part after a dot. -/
theorem mem_lang_dotted {ι : Type*} {part : Regex} {text : ι → List Char}
    (describes : ∀ w, w ∈ part.lang ↔ ∃ item, text item = w) {w : List Char} :
    w ∈ (opt (seq (char '.') part)).lang ↔ ∃ item, dotted text item = w := by
  rw [mem_lang_opt, mem_lang_seq]
  simp only [mem_lang_char, describes]
  constructor
  · intro spelled
    rcases spelled with ⟨_, rfl, _, ⟨item, rfl⟩, rfl⟩ | rfl
    · exact ⟨some item, rfl⟩
    · exact ⟨none, rfl⟩
  · intro read
    rcases read with ⟨item, rfl⟩
    cases item with
    | none => exact Or.inr rfl
    | some item => exact Or.inl ⟨['.'], rfl, text item, ⟨item, rfl⟩, rfl⟩

theorem mem_lang_IDENT {w : List Char} :
    w ∈ IDENT.lang ↔ ∃ column : Column, column.text = w := by
  rw [IDENT, mem_lang_seq]
  simp only [mem_lang_IDENTIFIER, mem_lang_dotted fun _ => mem_lang_IDENTIFIER]
  constructor
  · intro spelled
    rcases spelled with ⟨_, ⟨first, rfl⟩, _, ⟨second, rfl⟩, rfl⟩
    exact ⟨⟨first, second⟩, rfl⟩
  · intro read
    rcases read with ⟨column, rfl⟩
    exact ⟨_, ⟨column.first, rfl⟩, _, ⟨column.second, rfl⟩, rfl⟩

theorem mem_lang_sign {w : List Char} :
    w ∈ (opt (char '-')).lang ↔ ∃ negative, sign negative = w := by
  rw [mem_lang_opt, mem_lang_char, Bool.exists_bool, or_comm]
  exact or_congr eq_comm eq_comm

theorem mem_lang_NUMBER {w : List Char} :
    w ∈ NUMBER.lang ↔
      ∃ negative whole fraction, (Value.number negative whole fraction).text = w := by
  rw [NUMBER, mem_lang_all_cons]
  simp only [mem_lang_all_cons, mem_lang_all_nil, mem_lang_sign, mem_lang_digits,
    mem_lang_dotted fun _ => mem_lang_digits]
  constructor
  · intro spelled
    rcases spelled with ⟨_, ⟨negative, rfl⟩, _, ⟨_, ⟨whole, rfl⟩, _, ⟨_, ⟨fraction, rfl⟩, _, rfl,
      rfl⟩, rfl⟩, rfl⟩
    refine ⟨negative, whole, fraction, ?_⟩
    rw [Value.text, List.append_nil, List.append_assoc]
  · intro read
    rcases read with ⟨negative, whole, fraction, rfl⟩
    refine ⟨_, ⟨negative, rfl⟩, _, ⟨_, ⟨whole, rfl⟩, _, ⟨_, ⟨fraction, rfl⟩, [], rfl, rfl⟩, rfl⟩,
      ?_⟩
    rw [Value.text, List.append_nil, List.append_assoc]

theorem mem_lang_STRING {w : List Char} :
    w ∈ STRING.lang ↔ ∃ content, (Value.literal content).text = w := by
  rw [STRING, mem_lang_all_cons]
  simp only [mem_lang_all_cons, mem_lang_all_nil, mem_lang_char, mem_lang_star_chars,
    decide_eq_true_eq]
  constructor
  · intro spelled
    rcases spelled with ⟨_, rfl, _, ⟨text, plain, _, ⟨_, rfl, _, rfl, rfl⟩, rfl⟩, rfl⟩
    exact ⟨⟨text, plain⟩, rfl⟩
  · intro read
    rcases read with ⟨content, rfl⟩
    exact ⟨_, rfl, _, ⟨content.text, content.plain, _, ⟨_, rfl, [], rfl, rfl⟩, rfl⟩, rfl⟩

theorem mem_lang_VALUE {w : List Char} : w ∈ VALUE.lang ↔ ∃ value : Value, value.text = w := by
  rw [VALUE, mem_lang_any_cons, mem_lang_any_cons, mem_lang_any_cons, mem_lang_NUMBER,
    mem_lang_STRING, SESSION, mem_lang_spelling]
  constructor
  · intro spelled
    rcases spelled with
      ⟨negative, whole, fraction, same⟩ | ⟨content, same⟩ | ⟨spelling, same⟩ | none
    · exact ⟨.number negative whole fraction, same⟩
    · exact ⟨.literal content, same⟩
    · exact ⟨.session spelling, same⟩
    · exact absurd none mem_lang_any_nil
  · intro read
    rcases read with ⟨value, same⟩
    cases value with
    | number negative whole fraction => exact Or.inl ⟨negative, whole, fraction, same⟩
    | literal content => exact Or.inr (Or.inl ⟨content, same⟩)
    | session spelling => exact Or.inr (Or.inr (Or.inl ⟨spelling, same⟩))

/-- Pieces of a repeated pattern are the texts of a list of items. -/
theorem mem_lang_items {ι : Type*} {part : Regex} {text : ι → List Char}
    (describes : ∀ w, w ∈ part.lang ↔ ∃ item, text item = w) {w : List Char} :
    w ∈ (star part).lang ↔ ∃ items : List ι, items.flatMap text = w := by
  rw [mem_lang_star]
  constructor
  · intro spelled
    rcases spelled with ⟨pieces, rfl, every⟩
    have listed : pieces ∈ Set.range (List.map text) := by
      rw [Set.range_list_map]
      intro piece member
      exact (describes piece).mp (every piece member)
    rcases listed with ⟨items, rfl⟩
    exact ⟨items, List.flatMap_def⟩
  · intro read
    rcases read with ⟨items, rfl⟩
    refine ⟨items.map text, List.flatMap_def, ?_⟩
    intro piece member
    rcases List.mem_map.mp member with ⟨item, _, same⟩
    exact (describes piece).mpr ⟨item, same⟩

/-- A word without letters is spelled in one way. -/
theorem mem_lang_symbol {symbol : String} {w : List Char}
    (noLetters : symbol.toList.all (!·.isAlpha) = true) :
    w ∈ (word symbol).lang ↔ w = symbol.toList := by
  rw [mem_lang_word]
  constructor
  · revert noLetters
    induction symbol.toList generalizing w with
    | nil =>
        intro _ same
        rwa [List.map_nil, List.map_eq_nil_iff] at same
    | cons c rest ih =>
        intro noLetters same
        rcases List.map_eq_cons_iff.mp same with ⟨other, later, rfl, sameChar, sameLater⟩
        rw [List.all_cons, Bool.and_eq_true, Bool.not_eq_true'] at noLetters
        rw [Text.eq_of_toLower_eq sameChar noLetters.1, ih noLetters.2 sameLater]
  · intro same
    rw [same]

theorem mem_lang_COMPARISON {w : List Char} :
    w ∈ COMPARISON.lang ↔ ∃ compared : Comparison, compared.text = w := by
  rw [COMPARISON]
  simp only [mem_lang_any_cons, mem_lang_any_nil, mem_lang_char, or_false]
  rw [mem_lang_symbol (by decide), mem_lang_symbol (by decide), mem_lang_symbol (by decide),
    mem_lang_symbol (by decide)]
  constructor
  · intro spelled
    rcases spelled with rfl | rfl | rfl | rfl | rfl | rfl | rfl
    · exact ⟨.unequal, by decide⟩
    · exact ⟨.differs, by decide⟩
    · exact ⟨.atMost, by decide⟩
    · exact ⟨.atLeast, by decide⟩
    · exact ⟨.equal, rfl⟩
    · exact ⟨.less, rfl⟩
    · exact ⟨.greater, rfl⟩
  · intro read
    rcases read with ⟨compared, rfl⟩
    cases compared <;> decide

theorem mem_lang_element {w : List Char} :
    w ∈ (all [spaces, char ',', spaces, VALUE]).lang ↔
      ∃ element : Element, element.written Value.text = w := by
  simp only [mem_lang_all_cons, mem_lang_all_nil, mem_lang_spaces, mem_lang_char, mem_lang_VALUE]
  constructor
  · intro spelled
    rcases spelled with ⟨_, ⟨before, rfl⟩, _, ⟨_, rfl, _, ⟨_, ⟨after, rfl⟩, _, ⟨_, ⟨value, rfl⟩,
      _, rfl, rfl⟩, rfl⟩, rfl⟩, rfl⟩
    exact ⟨⟨before, after, value⟩, by simp [Element.written]⟩
  · intro read
    rcases read with ⟨element, rfl⟩
    exact ⟨_, ⟨element.before, rfl⟩, _, ⟨_, rfl, _, ⟨_, ⟨element.after, rfl⟩, _,
      ⟨_, ⟨element.value, rfl⟩, [], rfl, rfl⟩, rfl⟩, rfl⟩, by simp [Element.written]⟩

theorem mem_lang_IN_LIST {w : List Char} :
    w ∈ IN_LIST.lang ↔ ∃ list : InList, list.written Value.text = w := by
  rw [IN_LIST]
  simp only [mem_lang_items fun _ => mem_lang_element, mem_lang_all_cons, mem_lang_all_nil,
    mem_lang_spaces, mem_lang_char, mem_lang_VALUE]
  constructor
  · intro spelled
    rcases spelled with ⟨_, rfl, _, ⟨_, ⟨opened, rfl⟩, _, ⟨_, ⟨first, rfl⟩, _, ⟨_, ⟨more, rfl⟩, _,
      ⟨_, ⟨closed, rfl⟩, _, ⟨_, rfl, _, rfl, rfl⟩, rfl⟩, rfl⟩, rfl⟩, rfl⟩, rfl⟩
    exact ⟨⟨opened, first, more, closed⟩, by simp [InList.written]⟩
  · intro read
    rcases read with ⟨list, rfl⟩
    exact ⟨_, rfl, _, ⟨_, ⟨list.opened, rfl⟩, _, ⟨_, ⟨list.first, rfl⟩, _, ⟨_, ⟨list.more, rfl⟩, _,
      ⟨_, ⟨list.closed, rfl⟩, _, ⟨_, rfl, [], rfl, rfl⟩, rfl⟩, rfl⟩, rfl⟩, rfl⟩,
      by simp [InList.written]⟩

theorem mem_lang_TERM {w : List Char} :
    w ∈ TERM.lang ↔ ∃ term : Term, term.written Value.text = w := by
  rw [TERM]
  simp only [mem_lang_any_cons, mem_lang_any_nil, or_false, mem_lang_all_cons, mem_lang_all_nil,
    mem_lang_IDENT, mem_lang_spaces, mem_lang_spaces1, mem_lang_COMPARISON, mem_lang_VALUE,
    mem_lang_spelling, mem_lang_IN_LIST]
  constructor
  · intro spelled
    cases spelled with
    | inl compares =>
        rcases compares with ⟨_, ⟨column, rfl⟩, _, ⟨_, ⟨before, rfl⟩, _, ⟨_, ⟨compared, rfl⟩, _,
          ⟨_, ⟨after, rfl⟩, _, ⟨_, ⟨value, rfl⟩, _, rfl, rfl⟩, rfl⟩, rfl⟩, rfl⟩, rfl⟩
        exact ⟨.comparison column before compared after value, by simp [Term.written]⟩
    | inr lists =>
        rcases lists with ⟨_, ⟨column, rfl⟩, _, ⟨_, ⟨gap, rfl⟩, _, ⟨_, ⟨spelling, rfl⟩, _,
          ⟨_, ⟨after, rfl⟩, _, ⟨_, ⟨list, rfl⟩, _, rfl, rfl⟩, rfl⟩, rfl⟩, rfl⟩, rfl⟩
        exact ⟨.oneOf column gap spelling after list, by simp [Term.written]⟩
  · intro read
    rcases read with ⟨term, rfl⟩
    cases term with
    | comparison column before compared after value =>
        exact Or.inl ⟨_, ⟨column, rfl⟩, _, ⟨_, ⟨before, rfl⟩, _, ⟨_, ⟨compared, rfl⟩, _,
          ⟨_, ⟨after, rfl⟩, _, ⟨_, ⟨value, rfl⟩, [], rfl, rfl⟩, rfl⟩, rfl⟩, rfl⟩,
          by simp [Term.written]⟩
    | oneOf column gap spelling after list =>
        exact Or.inr ⟨_, ⟨column, rfl⟩, _, ⟨_, ⟨gap, rfl⟩, _, ⟨_, ⟨spelling, rfl⟩, _,
          ⟨_, ⟨after, rfl⟩, _, ⟨_, ⟨list, rfl⟩, [], rfl, rfl⟩, rfl⟩, rfl⟩, rfl⟩,
          by simp [Term.written]⟩

theorem mem_lang_link (connective : Connective) {w : List Char} :
    w ∈ (all [spaces1, word connective.word, spaces1, TERM]).lang ↔
      ∃ link : { link : Link // link.connective = connective },
        link.1.written Value.text = w := by
  simp only [mem_lang_all_cons, mem_lang_all_nil, mem_lang_spaces1, mem_lang_spelling,
    mem_lang_TERM]
  constructor
  · intro spelled
    rcases spelled with ⟨_, ⟨before, rfl⟩, _, ⟨_, ⟨spelling, rfl⟩, _, ⟨_, ⟨after, rfl⟩, _,
      ⟨_, ⟨term, rfl⟩, _, rfl, rfl⟩, rfl⟩, rfl⟩, rfl⟩
    exact ⟨⟨⟨before, connective, spelling, after, term⟩, rfl⟩, by simp [Link.written]⟩
  · intro read
    rcases read with ⟨⟨link, rfl⟩, rfl⟩
    exact ⟨_, ⟨link.before, rfl⟩, _, ⟨_, ⟨link.spelling, rfl⟩, _, ⟨_, ⟨link.after, rfl⟩, _,
      ⟨_, ⟨link.term, rfl⟩, [], rfl, rfl⟩, rfl⟩, rfl⟩, by simp [Link.written]⟩

theorem mem_lang_chainOf (connective : Connective) {w : List Char} :
    w ∈ (chainOf connective.word).lang ↔ ∃ filter : RowFilter,
      (∀ link ∈ filter.links, link.connective = connective) ∧ filter.text = w := by
  rw [chainOf]
  simp only [mem_lang_items fun _ => mem_lang_link connective, mem_lang_all_cons, mem_lang_all_nil,
    mem_lang_spaces, mem_lang_TERM]
  constructor
  · intro spelled
    rcases spelled with ⟨_, ⟨before, rfl⟩, _, ⟨_, ⟨first, rfl⟩, _, ⟨_, ⟨links, rfl⟩, _,
      ⟨_, ⟨after, rfl⟩, _, rfl, rfl⟩, rfl⟩, rfl⟩, rfl⟩
    have same : ∀ link ∈ links.map Subtype.val, link.connective = connective := by
      intro link member
      rcases List.mem_map.mp member with ⟨joined, _, rfl⟩
      exact joined.2
    refine ⟨⟨before, first, links.map Subtype.val, after, connective, same⟩, same, ?_⟩
    simp [RowFilter.text, written]
  · intro read
    rcases read with ⟨filter, same, rfl⟩
    refine ⟨_, ⟨filter.before, rfl⟩, _, ⟨_, ⟨filter.first, rfl⟩, _,
      ⟨_, ⟨filter.links.attachWith _ same, rfl⟩, _, ⟨_, ⟨filter.after, rfl⟩, [], rfl, rfl⟩, rfl⟩,
      rfl⟩, ?_⟩
    have links : (filter.links.attachWith _ same).flatMap (fun link => link.1.written Value.text) =
        filter.links.flatMap (Link.written Value.text) := by
      rw [← List.flatMap_map, List.attachWith_map_subtype_val]
    simp [RowFilter.text, written, links]

/-- A text passes one of the two tests exactly if it can be read as a row filter. -/
theorem tests_iff {s : String} :
    AND_CHAIN.test s = true ∨ OR_CHAIN.test s = true ↔
      ∃ filter : RowFilter, filter.text = s.toList := by
  rw [test_iff, test_iff]
  have conjunction := @mem_lang_chainOf .and s.toList
  have disjunction := @mem_lang_chainOf .or s.toList
  constructor
  · intro passes
    cases passes with
    | inl inAnd =>
        rcases conjunction.mp inAnd with ⟨filter, _, same⟩
        exact ⟨filter, same⟩
    | inr inOr =>
        rcases disjunction.mp inOr with ⟨filter, _, same⟩
        exact ⟨filter, same⟩
  · intro read
    rcases read with ⟨filter, same⟩
    rcases filter.uniform with ⟨connective, joined⟩
    cases connective with
    | and => exact Or.inl (conjunction.mpr ⟨filter, joined, same⟩)
    | or => exact Or.inr (disjunction.mpr ⟨filter, joined, same⟩)

end RowFilter

end BelugaManager.PolicyCompiler
