import BelugaManager.PolicyCompiler.RowFilterSql
import BelugaManager.PolicyCompiler.Tokens

/-!
# The expressions in an answer

The policy answers with expressions that the query engine puts into its queries.  Those of a valid
declaration read as what the declaration says: a row filter is one conjunction or disjunction of
comparisons, and a mask is one function of the column it is for.
-/

namespace BelugaManager.PolicyCompiler

open Foundation Sql

/-- The tokens of the expression for a mask. -/
def maskTokens (kind : MaskKind) (col : List Char) : List Token :=
  match kind with
  | .hash =>
      [.word "to_hex".toList, .mark '(', .word "sha256".toList, .mark '(', .word "cast".toList,
        .mark '(', .word col, .word "as".toList, .word "varbinary".toList, .mark ')', .mark ')',
        .mark ')']
  | .partialMask =>
      [.word "concat".toList, .mark '(', .word "substr".toList, .mark '(', .word col, .mark ',',
        .number ['1'], .mark ',', .number ['2'], .mark ')', .mark ',', .literal "***".toList,
        .mark ')']
  | .null => [.word "null".toList]

/-- A word and the parenthesis after it. -/
theorem lex_call (start : Char) (text : List Char) {rest : List Char} {tokens : List Token}
    (starts : isWordStart start = true) (parts : text.all isWordPart = true)
    (later : lex rest = some tokens) :
    lex (start :: text ++ '(' :: rest) = some (.word (start :: text) :: .mark '(' :: tokens) :=
  lex_word starts (List.all_eq_true.mp parts) (startsOutside_cons rest (by decide))
    (lex_mark (by decide) later)

section Masks

variable {start : Char} {parts : List Char} (starts : isWordStart start = true)
  (areParts : ∀ c ∈ parts, isWordPart c = true)
include starts areParts

theorem lex_hash : lex ("to_hex(sha256(cast(".toList ++ (start :: parts) ++
    " as varbinary)))".toList) = some (maskTokens .hash (start :: parts)) := by
  have tail : lex " as varbinary)))".toList = some [.word "as".toList, .word "varbinary".toList,
      .mark ')', .mark ')', .mark ')'] := by decide +kernel
  have ends : StartsOutside isWordPart " as varbinary)))".toList := by
    rw [show " as varbinary)))".toList = ' ' :: "as varbinary)))".toList by simp]
    exact startsOutside_cons _ (by decide)
  have column := lex_word starts areParts ends tail
  have cast := lex_call 'c' "ast".toList (by decide) (by decide +kernel) column
  have sha256 := lex_call 's' "ha256".toList (by decide) (by decide +kernel) cast
  have to_hex := lex_call 't' "o_hex".toList (by decide) (by decide +kernel) sha256
  simpa [maskTokens] using to_hex

theorem lex_partialMask : lex ("concat(substr(".toList ++ (start :: parts) ++
    ", 1, 2), '***')".toList) = some (maskTokens .partialMask (start :: parts)) := by
  have tail : lex ", 1, 2), '***')".toList = some [.mark ',', .number ['1'], .mark ',',
      .number ['2'], .mark ')', .mark ',', .literal "***".toList, .mark ')'] := by decide +kernel
  have ends : StartsOutside isWordPart ", 1, 2), '***')".toList := by
    rw [show ", 1, 2), '***')".toList = ',' :: " 1, 2), '***')".toList by simp]
    exact startsOutside_cons _ (by decide)
  have column := lex_word starts areParts ends tail
  have substr := lex_call 's' "ubstr".toList (by decide) (by decide +kernel) column
  have concat := lex_call 'c' "oncat".toList (by decide) (by decide +kernel) substr
  simpa [maskTokens] using concat

end Masks

/-- A column is one word of its mask. -/
theorem lex_MASK_EXPR (kind : MaskKind) {col : String} (identifier : IDENTIFIER.test col = true) :
    lex (MASK_EXPR kind col).toList = some (maskTokens kind col.toList) := by
  rcases (Regex.test_seq_star_iff _ _ col).mp identifier with
    ⟨start, parts, chars, starts, areParts⟩
  have joined : ∀ before after : String,
      (before ++ col ++ after).toList = before.toList ++ (start :: parts) ++ after.toList := by
    intro before after
    rw [String.toList_append, String.toList_append, chars]
  rw [chars]
  cases kind with
  | hash => exact (congrArg lex (joined _ _)).trans (lex_hash starts areParts)
  | partialMask => exact (congrArg lex (joined _ _)).trans (lex_partialMask starts areParts)
  | null =>
      have word : lex "null".toList = some [.word "null".toList] := by decide +kernel
      exact word

section Valid

variable {d : Declaration} (valid : validateDeclaration d = [])
include valid

theorem rowFilter_read {res : Resource} (declared : res ∈ d.resources) {grant : Grant}
    (listed : grant ∈ res.grants) {expression : String}
    (isActive : grant.rowFilter = some expression) :
    Text.length expression ≤ ROW_FILTER_MAX_LENGTH ∧
      ∃ filter : RowFilter, filter.text = expression.toList := by
  have rejected := RowFilter.filter_validateDeclaration d
  rw [valid, List.filter_nil, eq_comm, List.flatMap_eq_nil_iff] at rejected
  have ofGrant := List.flatMap_eq_nil_iff.mp (rejected res declared) grant listed
  rw [isActive] at ofGrant
  exact (RowFilter.rowFilterErrors_eq_nil_iff res expression).mp ofGrant

theorem maskColumn_identifier {res : Resource} (declared : res ∈ d.resources) {grant : Grant}
    (listed : grant ∈ res.grants) {col : String} {kind : MaskKind}
    (hasMask : (col, kind) ∈ grant.masks) : IDENTIFIER.test col = true := by
  have clear : Clear (validateDeclaration d) := by
    rw [valid]
    exact fun _ member => absurd member List.not_mem_nil
  simp only [validateDeclaration, clear_append, clear_flatMap] at clear
  have ofResource := clear.1.1.1.2 res declared
  simp only [resourceErrors, clear_append, clear_flatMap] at ofResource
  have ofGrant := ofResource.1.2 grant listed
  simp only [grantErrors, clear_append, clear_flatMap] at ofGrant
  exact (clear_errorUnless (by decide) _).mp
    (ofGrant.1.1.2 col (List.mem_map.mpr ⟨(col, kind), hasMask, rfl⟩))

end Valid

/-! ## Every answer -/

/-- A row filter reads in one way, and for SQL it is one conjunction or disjunction of its
comparisons. -/
structure ReadsAsFilter (expression : String) (filter : RowFilter) : Prop where
  text : filter.text = expression.toList
  unique : ∀ other : RowFilter, other.text = expression.toList → other = filter
  tokens : lex expression.toList = some filter.tokens
  parsed : ∀ dialect : Dialect,
    (∀ identifier ∈ filter.identifiers, dialect.reserved identifier.text = false) →
      ∃ connective, (∀ link ∈ filter.links, link.connective = connective) ∧
        parse dialect filter.tokens =
          some (connective.join (filter.terms.map RowFilter.Term.predicate))

theorem readsAsFilter {expression : String} {filter : RowFilter}
    (text : filter.text = expression.toList) : ReadsAsFilter expression filter where
  text := text
  unique other same := RowFilter.text_injective (same.trans text.symm)
  tokens := by
    rw [← text]
    exact filter.lex_text
  parsed dialect free := filter.parse_tokens free

/-- Whoever asks for whatever: the filters and masks that the policy of a valid declaration asks
for read as filters, and as masks of the column that the request is about. -/
theorem answers_read (d : Declaration) (valid : validateDeclaration d = []) :
    ∃ rules, regoRules d = .ok rules ∧ ∀ request expression,
      (Filtered rules request expression → Text.length expression ≤ ROW_FILTER_MAX_LENGTH ∧
        ∃ filter, ReadsAsFilter expression filter) ∧
      (Masked rules request expression → ∃ kind schema table col,
        request.resource = .column DEPLOYED_CATALOG schema table col ∧
          lex expression.toList = some (maskTokens kind col.toList)) := by
  have checked := checked_of_valid valid
  rcases checked.mem_regoRules with ⟨rules, compiled, emitted⟩
  refine ⟨rules, compiled, ?_⟩
  intro request expression
  constructor
  · intro filtered
    rcases (filtered_iff emitted request expression).mp filtered with
      ⟨res, declared, _, _, _, _, grant, listed, isActive, _⟩
    rcases rowFilter_read valid declared listed isActive with ⟨short, filter, text⟩
    exact ⟨short, filter, readsAsFilter text⟩
  · intro masked
    rcases (masked_iff emitted request expression).mp masked with
      ⟨res, declared, _, schema, table, _, grant, listed, col, kind, hasMask, rfl, isColumn, _⟩
    exact ⟨kind, schema, table, col, isColumn,
      lex_MASK_EXPR kind (maskColumn_identifier valid declared listed hasMask)⟩

theorem answers_read_lakehouse :
    ∃ rules, regoRules lakehouse = .ok rules ∧ ∀ request expression,
      (Filtered rules request expression → Text.length expression ≤ ROW_FILTER_MAX_LENGTH ∧
        ∃ filter, ReadsAsFilter expression filter) ∧
      (Masked rules request expression → ∃ kind schema table col,
        request.resource = .column DEPLOYED_CATALOG schema table col ∧
          lex expression.toList = some (maskTokens kind col.toList)) :=
  answers_read lakehouse lakehouse_valid

end BelugaManager.PolicyCompiler
