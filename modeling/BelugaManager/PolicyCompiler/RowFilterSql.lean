import BelugaManager.Foundation.SqlParser
import BelugaManager.PolicyCompiler.RowFilterOutside

/-!
# Row filters as SQL

What SQL makes of a row filter: its tokens are those of the grammar, no comment and no
parenthesis is among them that the grammar does not name, and they are one conjunction or
one disjunction of predicates.
-/

namespace BelugaManager.PolicyCompiler.RowFilter

open Foundation Sql

def Column.tokens (column : Column) : List Token :=
  .word column.first.text ::
    column.second.toList.flatMap fun part => [.mark '.', .word part.text]

def Value.tokens : Value → List Token
  | .number negative whole fraction =>
      (if negative then [.mark '-'] else []) ++
        [.number (whole.text ++ dotted Digits.text fraction)]
  | .literal content => [.literal content.text]
  | .session spelling => [.word spelling.text]

def Element.tokens (element : Element) : List Token := .mark ',' :: element.value.tokens

def InList.tokens (list : InList) : List Token :=
  .mark '(' :: (list.first.tokens ++ list.more.flatMap Element.tokens) ++ [.mark ')']

def Term.tokens : Term → List Token
  | .comparison column _ compared _ value =>
      column.tokens ++ .operator compared.text :: value.tokens
  | .oneOf column _ spelling _ list => column.tokens ++ .word spelling.text :: list.tokens

def Link.tokens (link : Link) : List Token := .word link.spelling.text :: link.term.tokens

def tokens (filter : RowFilter) : List Token :=
  filter.first.tokens ++ filter.links.flatMap Link.tokens

def Column.operand (column : Column) : Operand :=
  .column (column.identifiers.map Identifier.text)

def Value.operand : Value → Operand
  | .number negative whole fraction =>
      let number := .number (whole.text ++ dotted Digits.text fraction)
      if negative then .minus number else number
  | .literal content => .literal content.text
  | .session _ => .currentUser

def Term.predicate : Term → Condition
  | .comparison column _ compared _ value =>
      .comparison column.operand compared.text value.operand
  | .oneOf column _ _ _ list => .membership column.operand (list.values.map Value.operand)

/-! ## Lexing -/

variable {rest : List Char} {following : List Token}

theorem isDottedPart_of_isNumberPart {c : Char} (part : isNumberPart c = true) :
    isDottedPart c = true := by
  simp only [isNumberPart, Bool.or_eq_true, decide_eq_true_eq] at part
  rcases part with (digit | rfl) | start
  · exact isDottedPart_of_isDigit digit
  · decide
  · exact isDottedPart_of_isIdentPart (isIdentPart_of_isIdentStart start)

theorem lex_identifier (identifier : Identifier) (ends : StartsOutside isIdentPart rest)
    (later : lex rest = some following) :
    lex (identifier.text ++ rest) = some (.word identifier.text :: following) :=
  lex_word identifier.isStart identifier.areParts ends later

theorem lex_column (column : Column) (ends : StartsOutside isDottedPart rest)
    (later : lex rest = some following) :
    lex (column.text ++ rest) = some (column.tokens ++ following) := by
  have noPart := ends.narrow fun _ => isDottedPart_of_isIdentPart
  rcases column with ⟨first, second⟩
  rw [Column.text, List.append_assoc]
  cases second with
  | none => exact lex_identifier first noPart later
  | some part =>
      apply lex_identifier first (startsOutside_cons _ (by decide))
      exact lex_mark (by decide) (lex_identifier part noPart later)

/-- A keyword is a word. -/
theorem lex_spelling {keyword : String} (spelling : Spelling keyword)
    (nonempty : keyword.toList ≠ []) (letters : keyword.toList.all isIdentStart = true)
    (ends : StartsOutside isIdentPart rest) (later : lex rest = some following) :
    lex (spelling.text ++ rest) = some (.word spelling.text :: following) := by
  have spelled : spelling.text ≠ [] := by
    intro empty
    have same := spelling.same
    rw [empty, List.map_nil, eq_comm, List.map_eq_nil_iff] at same
    exact nonempty same
  have starts := spelling.text_parts letters
  rcases List.exists_cons_of_ne_nil spelled with ⟨start, tail, text⟩
  rw [text] at starts ⊢
  rcases List.forall_mem_cons.mp starts with ⟨isStart, parts⟩
  exact lex_word isStart (fun c member => isIdentPart_of_isIdentStart (parts c member)) ends later

/-- What a value goes on with: a quote after a literal would belong to it. -/
def isValuePart (c : Char) : Bool := isDottedPart c || c = '\''

theorem noIdentPart_of_isSpace {c : Char} (space : Text.isSpace c = true) :
    isIdentPart c = false := by
  rw [← Bool.not_eq_true]
  intro part
  rw [isSpace_of_isDottedPart (isDottedPart_of_isIdentPart part)] at space
  cases space

theorem isValuePart_of_isSpace {c : Char} (space : Text.isSpace c = true) :
    isValuePart c = false := by
  rw [isValuePart, isDottedPart_of_isSpace space, Bool.false_or, decide_eq_false_iff_not]
  intro quote
  rw [quote] at space
  exact absurd space (by decide)

theorem lex_value (value : Value) (closes : StartsOutside isValuePart rest)
    (later : lex rest = some following) :
    lex (value.text ++ rest) = some (value.tokens ++ following) := by
  have ends : StartsOutside isDottedPart rest := closes.narrow fun c part => by
    rw [isValuePart, part, Bool.true_or]
  have noQuote : StartsOutside (· = '\'') rest := closes.narrow fun c quote => by
    rw [isValuePart, quote, Bool.or_true]
  cases value with
  | number negative whole fraction =>
      have noNumber := ends.narrow fun _ => isDottedPart_of_isNumberPart
      have unsigned : lex (whole.text ++ dotted Digits.text fraction ++ rest) =
          some (.number (whole.text ++ dotted Digits.text fraction) :: following) := by
        have digits := whole.digits
        rcases List.exists_cons_of_ne_nil whole.nonempty with ⟨start, tail, spelled⟩
        rw [spelled] at digits ⊢
        cases fraction with
        | none =>
            rw [dotted, List.append_nil]
            exact lex_whole digits noNumber later
        | some fraction => exact lex_fraction digits fraction.digits noNumber later
      cases negative with
      | false => exact unsigned
      | true =>
          apply lex_dash _ unsigned
          rcases whole.text_start with ⟨c, tail, spelled, digit⟩
          rw [spelled]
          exact startsOutside_cons _ (decide_eq_false (plain_of_isDigit digit).1)
  | literal content =>
      rw [Value.text, List.append_assoc]
      exact lex_literal (fun c member => (content.plain c member).1) noQuote later
  | session spelling =>
      have noPart := ends.narrow fun _ => isDottedPart_of_isIdentPart
      exact lex_spelling spelling (by decide) (by decide) noPart later

theorem lex_element (element : Element) (closes : StartsOutside isValuePart rest)
    (later : lex rest = some following) :
    lex (element.written Value.text ++ rest) = some (element.tokens ++ following) := by
  simp only [Element.written, List.append_assoc, List.cons_append]
  rw [lex_space element.before.space]
  apply lex_mark (by decide)
  rw [lex_space element.after.space]
  exact lex_value element.value closes later

theorem lex_elements (elements : List Element) (closes : StartsOutside isValuePart rest)
    (later : lex rest = some following) :
    StartsOutside isValuePart (elements.flatMap (Element.written Value.text) ++ rest) ∧
      lex (elements.flatMap (Element.written Value.text) ++ rest) =
        some (elements.flatMap Element.tokens ++ following) := by
  induction elements with
  | nil => exact ⟨closes, later⟩
  | cons element elements ih =>
      rw [List.flatMap_cons, List.flatMap_cons, List.append_assoc, List.append_assoc]
      refine ⟨?_, lex_element element ih.1 ih.2⟩
      simp only [Element.written, List.append_assoc, List.cons_append]
      exact startsOutside_space element.before.space (fun _ => isValuePart_of_isSpace)
        (startsOutside_cons _ (by decide))

theorem lex_inList (list : InList) (later : lex rest = some following) :
    lex (list.written Value.text ++ rest) = some (list.tokens ++ following) := by
  have closing : lex (list.closed.text ++ ')' :: rest) = some (.mark ')' :: following) := by
    rw [lex_space list.closed.space]
    exact lex_mark (by decide) later
  have closes : StartsOutside isValuePart (list.closed.text ++ ')' :: rest) :=
    startsOutside_space list.closed.space (fun _ => isValuePart_of_isSpace)
      (startsOutside_cons _ (by decide))
  have elements := lex_elements list.more closes closing
  simp only [InList.written, InList.tokens, List.append_assoc, List.cons_append, List.nil_append]
  apply lex_mark (by decide)
  rw [lex_space list.opened.space]
  exact lex_value list.first elements.1 elements.2

theorem lex_comparison (compared : Comparison) (ends : StartsOutside isOperatorPart rest)
    (later : lex rest = some following) :
    lex (compared.text ++ rest) = some (.operator compared.text :: following) := by
  have parts := compared.text_parts
  rcases compared.text_start with ⟨c, tail, spelled, _⟩
  rw [spelled] at parts ⊢
  exact lex_operator parts ends later

theorem lex_term (term : Term) (closes : StartsOutside isValuePart rest)
    (later : lex rest = some following) :
    lex (term.written Value.text ++ rest) = some (term.tokens ++ following) := by
  cases term with
  | comparison column before compared after value =>
      simp only [Term.written, Term.tokens, List.append_assoc, List.cons_append]
      apply lex_column column
      · apply startsOutside_space before.space fun _ => isDottedPart_of_isSpace
        cases compared <;> exact startsOutside_cons _ (by decide)
      · rw [lex_space before.space]
        apply lex_comparison compared (startsOutside_comparison after value rest)
        rw [lex_space after.space]
        exact lex_value value closes later
  | oneOf column gap spelling after list =>
      simp only [Term.written, Term.tokens, List.append_assoc, List.cons_append]
      apply lex_column column (gap.startsOutside (fun _ => isDottedPart_of_isSpace) _)
      rw [lex_space gap.space]
      apply lex_spelling spelling (by decide) (by decide)
      · apply startsOutside_space after.space fun _ => noIdentPart_of_isSpace
        exact startsOutside_cons _ (by decide)
      · rw [lex_space after.space]
        exact lex_inList list later

theorem lex_link (link : Link) (closes : StartsOutside isValuePart rest)
    (later : lex rest = some following) :
    lex (link.written Value.text ++ rest) = some (link.tokens ++ following) := by
  have keyword : ∀ connective : Connective, connective.word.toList ≠ [] ∧
      connective.word.toList.all isIdentStart = true := by
    intro connective
    cases connective <;> decide
  simp only [Link.written, Link.tokens, List.append_assoc, List.cons_append]
  rw [lex_space link.before.space]
  apply lex_spelling link.spelling (keyword _).1 (keyword _).2
    (link.after.startsOutside (fun _ => noIdentPart_of_isSpace) _)
  rw [lex_space link.after.space]
  exact lex_term link.term closes later

theorem lex_links (links : List Link) (closes : StartsOutside isValuePart rest)
    (later : lex rest = some following) :
    StartsOutside isValuePart (links.flatMap (Link.written Value.text) ++ rest) ∧
      lex (links.flatMap (Link.written Value.text) ++ rest) =
        some (links.flatMap Link.tokens ++ following) := by
  induction links with
  | nil => exact ⟨closes, later⟩
  | cons link links ih =>
      rw [List.flatMap_cons, List.flatMap_cons, List.append_assoc, List.append_assoc]
      refine ⟨?_, lex_link link ih.1 ih.2⟩
      simp only [Link.written, List.append_assoc]
      exact link.before.startsOutside (fun _ => isValuePart_of_isSpace) _

/-- The tokens of a filter are those of its grammar. -/
theorem lex_text (filter : RowFilter) : lex filter.text = some filter.tokens := by
  have atEnd : lex filter.after.text = some [] := by
    have space := @lex_space filter.after.text [] filter.after.space
    rwa [List.append_nil] at space
  have closes : StartsOutside isValuePart filter.after.text := by
    intro c first
    exact isValuePart_of_isSpace (filter.after.space c (List.mem_of_mem_head? first))
  have links := lex_links filter.links closes atEnd
  have whole := lex_term filter.first links.1 links.2
  simp only [RowFilter.text, written, List.append_assoc]
  rw [lex_space filter.before.space, whole, List.append_nil, tokens]

/-! ## Parsing -/

section Parsing

variable {dialect : Dialect} {left : List Token}

/-- A word that the dialect does not reserve is no keyword. -/
theorem noKeyword {text : List Char} (free : dialect.reserved text = false) (keyword : Keyword) :
    keyword.isSpelled text = false := by
  rw [← Bool.not_eq_true]
  intro spelled
  rw [dialect.keywords keyword text spelled] at free
  cases free

theorem Spelling.isSpelled {word : String} (spelling : Spelling word) (keyword : Keyword)
    (lowered : word.toList.map Char.toLower = keyword.text) :
    keyword.isSpelled spelling.text = true := by
  rw [Keyword.isSpelled, spelling.same, lowered, decide_eq_true rfl]

theorem name_eq {text : List Char} (free : dialect.reserved text = false) :
    name dialect (.word text :: left) = some (text, left) := by
  rw [name, free]
  rfl

/-- No identifier of a column is a reserved word. -/
def Column.Free (column : Column) (dialect : Dialect) : Prop :=
  ∀ identifier ∈ column.identifiers, dialect.reserved identifier.text = false

theorem column_eq {col : Column} (free : col.Free dialect)
    (noDot : StartsOutside (isMark '.') left) :
    column dialect (col.tokens ++ left) = some (col.operand, left) := by
  rcases List.forall_mem_cons.mp free with ⟨firstFree, secondFree⟩
  have names : chain (isMark '.') (name dialect) ([.word col.first.text] ++
      ((col.second.toList.flatMap fun part => [.mark '.', .word part.text]) ++ left)) =
      some (col.first.text :: col.second.toList.map Identifier.text, left) :=
    chain_eq (fun _ => True) (fun _ => .mark '.') (fun part => [.word part.text]) Identifier.text
      (fun _ _ => name_eq firstFree) (fun _ _ => by decide)
      (fun part member _ _ => name_eq (secondFree part member)) (fun _ _ _ => trivial) trivial
      noDot
  rw [column, Parser.map, Column.tokens, List.cons_append, ← List.singleton_append, names]
  rfl

theorem operand_column {col : Column} (free : col.Free dialect)
    (noDot : StartsOutside (isMark '.') left) :
    operand dialect (col.tokens ++ left) = some (col.operand, left) := by
  have noUser := noKeyword (free col.first List.mem_cons_self) .currentUser
  have read := column_eq free noDot
  rw [Column.tokens, List.cons_append] at read ⊢
  rw [operand_word, primary, noUser]
  exact read

theorem operand_value (value : Value) :
    operand dialect (value.tokens ++ left) = some (value.operand, left) := by
  cases value with
  | number negative whole fraction => cases negative <;> rfl
  | literal content => rfl
  | session spelling =>
      have user := spelling.isSpelled .currentUser (by decide)
      rw [Value.tokens, List.singleton_append, operand_word, primary, user]
      rfl

theorem relation_comparison (operand : Operand) (compared : Comparison) (value : Value) :
    relation dialect operand (.operator compared.text :: (value.tokens ++ left)) =
      some (.comparison operand compared.text value.operand, left) := by
  have known : compared.text ∈ comparisons := by
    cases compared <;> decide
  rw [relation, if_pos known, Parser.map, operand_value]
  rfl

theorem relation_membership (operand : Operand) (spelling : Spelling "IN") (list : InList) :
    relation dialect operand (.word spelling.text :: (list.tokens ++ left)) =
      some (.membership operand (list.values.map Value.operand), left) := by
  have isIn := spelling.isSpelled .membership (by decide)
  have values : chain (isMark ',') (Sql.operand dialect)
      (list.first.tokens ++ (list.more.flatMap Element.tokens ++ .mark ')' :: left)) =
      some (list.first.operand :: list.more.map fun element => element.value.operand,
        .mark ')' :: left) :=
    chain_eq (fun _ => True) (fun _ => .mark ',') (fun element : Element => element.value.tokens)
      (fun element => element.value.operand) (fun _ _ => operand_value _) (fun _ _ => by decide)
      (fun element _ _ _ => operand_value element.value) (fun _ _ _ => trivial) trivial
      (startsOutside_cons _ (by decide))
  simp only [InList.tokens, List.append_assoc, List.cons_append, List.nil_append]
  rw [relation, if_pos isIn, Parser.map, Parser.closed, values, InList.values, List.map_cons,
    List.map_map]
  rfl

theorem predicate_eq {term : Term} (free : term.column.Free dialect) :
    Sql.predicate dialect (term.tokens ++ left) = some (term.predicate, left) := by
  cases term with
  | comparison column before compared after value =>
      have columnFree : column.Free dialect := free
      simp only [Term.tokens, List.append_assoc, List.cons_append]
      rw [Sql.predicate, operand_column columnFree (startsOutside_cons _ rfl), Option.bind_some,
        relation_comparison]
      rfl
  | oneOf column gap spelling after list =>
      have columnFree : column.Free dialect := free
      simp only [Term.tokens, List.append_assoc, List.cons_append]
      rw [Sql.predicate, operand_column columnFree (startsOutside_cons _ rfl), Option.bind_some,
        relation_membership]
      rfl

/-- A term is a factor of its own, since its column is not called `NOT`. -/
theorem factor_eq {term : Term} (free : term.column.Free dialect) (nested : Parser Condition) :
    factor dialect nested (term.tokens ++ left) = some (term.predicate, left) := by
  have read := @predicate_eq dialect left term free
  have noNot := noKeyword (free term.column.first List.mem_cons_self) .not
  have starts : ∃ more, term.tokens = .word term.column.first.text :: more := by
    cases term <;> exact ⟨_, rfl⟩
  rcases starts with ⟨more, spelled⟩
  rw [spelled, List.cons_append] at read ⊢
  rw [factor, noNot]
  exact read

end Parsing

def Connective.keyword : Connective → Keyword
  | .and => .and
  | .or => .or

/-- What a connective makes of predicates. -/
def Connective.join : Connective → List Condition → Condition
  | .and => .all
  | .or => .any

theorem Link.isKeyword (link : Link) :
    isKeyword link.connective.keyword (.word link.spelling.text) = true := by
  rcases link with ⟨_, connective, spelling, _, _⟩
  cases connective with
  | and => exact spelling.isSpelled .and (by decide)
  | or => exact spelling.isSpelled .or (by decide)

/-- A filter is one conjunction or one disjunction of its terms. -/
theorem parse_tokens (filter : RowFilter) {dialect : Dialect}
    (free : ∀ identifier ∈ filter.identifiers, dialect.reserved identifier.text = false) :
    ∃ connective, (∀ link ∈ filter.links, link.connective = connective) ∧
      parse dialect filter.tokens =
        some (connective.join (filter.terms.map Term.predicate)) := by
  have termFree : ∀ term ∈ filter.terms, term.column.Free dialect := by
    intro term member identifier inColumn
    exact free identifier (List.mem_flatMap.mpr ⟨term, member, inColumn⟩)
  have nonempty : filter.first.tokens ≠ [] := by
    cases filter.first <;> exact List.cons_ne_nil _ _
  have first := fun nested left =>
    @factor_eq dialect left filter.first (termFree _ List.mem_cons_self) nested
  have later : ∀ link ∈ filter.links, ∀ nested left, factor dialect nested
      (link.term.tokens ++ left) = some (link.term.predicate, left) := by
    intro link member nested left
    exact factor_eq (termFree _ (List.mem_cons_of_mem _ (List.mem_map_of_mem member))) nested
  have predicates : filter.terms.map Term.predicate =
      filter.first.predicate :: filter.links.map fun link => link.term.predicate := by
    rw [terms, List.map_cons, List.map_map]
    rfl
  rcases filter.uniform with ⟨connective, uniform⟩
  refine ⟨connective, uniform, ?_⟩
  have joined : ∀ link ∈ filter.links,
      Sql.isKeyword connective.keyword (.word link.spelling.text) = true := by
    intro link member
    rw [← uniform link member]
    exact link.isKeyword
  rw [predicates]
  cases connective with
  | and => exact parse_conjunction nonempty first later joined
  | or => exact parse_disjunction nonempty first later joined

/-! ## What the validation accepts -/

theorem rowFilterErrors_eq_nil_iff (res : Resource) (s : String) :
    rowFilterErrors res (some s) = [] ↔
      Text.length s ≤ ROW_FILTER_MAX_LENGTH ∧ ∃ filter : RowFilter, filter.text = s.toList := by
  rw [← tests_iff, rowFilterErrors, errorUnless]
  split
  next accepted => exact iff_of_true rfl accepted.symm
  next rejected => exact iff_of_false (List.cons_ne_nil _ _) fun fits => rejected fits.symm

theorem filter_errorUnless {condition : Prop} [Decidable condition] {code : ErrorCode}
    (other : code ≠ .rowFilterRejected) (message : String) :
    (errorUnless condition code message).filter (·.code = .rowFilterRejected) = [] := by
  rw [errorUnless]
  split
  next => rfl
  next => exact List.filter_cons_of_neg (by simpa using other)

theorem filter_rowFilterErrors (res : Resource) (rowFilter : Option String) :
    (rowFilterErrors res rowFilter).filter (·.code = .rowFilterRejected) =
      rowFilterErrors res rowFilter := by
  cases rowFilter with
  | none => rfl
  | some s =>
      rw [rowFilterErrors, errorUnless]
      split
      next => rfl
      next => rfl

/-- Only the row filters of grants are rejected. -/
theorem filter_validateDeclaration (d : Declaration) :
    (validateDeclaration d).filter (·.code = .rowFilterRejected) =
      d.resources.flatMap fun res => res.grants.flatMap fun grant =>
        rowFilterErrors res grant.rowFilter := by
  have cycle : (cycleErrors d).filter (·.code = .rowFilterRejected) = [] := by
    rw [cycleErrors]
    split
    next => rfl
    next => rfl
  have nothing : ∀ {ι : Type} (items : List ι),
      (items.flatMap fun _ => ([] : List ValidationError)) = [] :=
    fun _ => List.flatMap_eq_nil_iff.mpr fun _ _ => rfl
  simp (disch := decide) only [validateDeclaration, List.filter_append, List.filter_flatMap, cycle,
    roleErrors, roleReferenceErrors, roleNameCollisionErrors, groupErrors, duplicateResourceErrors,
    resourceErrors, grantErrors, conflictErrors, catalogGrantErrors, duplicateCatalogGrantErrors,
    loginErrors, filter_errorUnless, filter_rowFilterErrors, nothing, List.append_nil,
    List.nil_append]

/-- Row filters are rejected unless they are short and can be read by the grammar. What can be
read is read in one way, is plain outside its literals, and is for SQL, in any dialect that
reserves none of its identifiers, one conjunction or one disjunction of its terms. -/
theorem rowFilter_grammar (d : Declaration) (res : Resource) (s : String) :
    (validateDeclaration d).filter (·.code = .rowFilterRejected) =
        (d.resources.flatMap fun res => res.grants.flatMap fun grant =>
          rowFilterErrors res grant.rowFilter) ∧
      (rowFilterErrors res (some s) = [] ↔
        Text.length s ≤ 200 ∧ ∃ filter : RowFilter, filter.text = s.toList) ∧
      ∀ filter : RowFilter, filter.text = s.toList →
        (∀ other : RowFilter, other.text = s.toList → other = filter) ∧
        ((∀ c ∈ [';', '\'', '"'], c ∉ filter.outside) ∧ ¬['-', '-'] <:+: filter.outside ∧
          ¬['/', '*'] <:+: filter.outside ∧ filter.outside.count '(' = filter.inLists.length ∧
          filter.outside.count ')' = filter.inLists.length) ∧
        lex s.toList = some filter.tokens ∧
        ∀ dialect : Dialect,
          (∀ identifier ∈ filter.identifiers, dialect.reserved identifier.text = false) →
          ∃ connective, (∀ link ∈ filter.links, link.connective = connective) ∧
            parse dialect filter.tokens =
              some (connective.join (filter.terms.map Term.predicate)) := by
  refine ⟨filter_validateDeclaration d, rowFilterErrors_eq_nil_iff res s, ?_⟩
  intro filter read
  have harmless := filter.harmless_outside
  have foreign : ∀ {c : Char}, isPlain c = false → c ∉ filter.outside := by
    intro c noPlain member
    rw [harmless.plain c member] at noPlain
    cases noPlain
  refine ⟨fun other same => text_injective (same.trans read.symm), ?_, ?_, ?_⟩
  · refine ⟨?_, harmless.signs.no_dashes, ?_, harmless.opened, harmless.closed⟩
    · intro c listed
      have noPlain : [';', '\'', '"'].all (!isPlain ·) = true := by decide
      have outside := List.all_eq_true.mp noPlain c listed
      rw [Bool.not_eq_true'] at outside
      exact foreign outside
    · intro inside
      exact foreign (by decide : isPlain '/' = false) (inside.subset List.mem_cons_self)
  · rw [← read]
    exact filter.lex_text
  · intro dialect free
    exact filter.parse_tokens free

end BelugaManager.PolicyCompiler.RowFilter
