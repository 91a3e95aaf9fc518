import BelugaManager.Foundation.PrefixCode
import BelugaManager.PolicyCompiler.Rego

/-!
# What the text of a policy says

The text of a policy determines its rules.  No line contains a line break, a blank line
ends each rule, and every line of a rule can be read back.
-/

namespace BelugaManager.PolicyCompiler

open Foundation

theorem toList_join_cons (separator first : String) (rest : List String) :
    (Text.join separator (first :: rest)).toList =
      first.toList ++ rest.flatMap fun piece => separator.toList ++ piece.toList := by
  induction rest generalizing first with
  | nil => simp
  | cons second rest ih => simp [Text.join_cons_cons, ih]

/-- A set literal ends at its closing brace. -/
theorem setElements_terminated {values others : List String} {rest rest' : List Char}
    (same : (setElements values).toList ++ '\x7d' :: rest =
      (setElements others).toList ++ '\x7d' :: rest') : values = others ∧ rest = rest' := by
  have quoted : ∀ s, (Text.jsonQuote s).toList =
    '"' :: (s.toList.flatMap Text.jsonEscape ++ ['"']) :=
    fun s => by simp [Text.jsonQuote]
  have code : PrefixFree fun s => (", ".toList ++ (Text.jsonQuote s).toList) ++ [] :=
    Text.prefixFree_jsonQuote.framed ", ".toList []
  simp only [List.append_nil] at code
  have starts : ∀ s, ∃ first tail,
      ", ".toList ++ (Text.jsonQuote s).toList = first :: tail ∧ first ≠ '\x7d' :=
    fun s => ⟨',', _, rfl, by decide⟩
  cases values with
  | nil =>
      cases others with
      | nil => exact ⟨rfl, (List.cons.inj same).2⟩
      | cons other others => 
          rw [setElements, setElements, List.map_cons, toList_join_cons, quoted] at same
          simp [Text.join] at same
  | cons value values =>
      cases others with
      | nil =>
          rw [setElements, setElements, List.map_cons, toList_join_cons, quoted] at same
          simp [Text.join] at same
      | cons other others =>
          simp only [setElements, List.map_cons, toList_join_cons, List.append_assoc,
            List.flatMap_map] at same
          rcases Text.prefixFree_jsonQuote value other _ _ same with ⟨rfl, sameRest⟩
          rcases code.terminated starts sameRest with ⟨rfl, sameEnd⟩
          exact ⟨rfl, sameEnd⟩

theorem Path.text_injective : Function.Injective Path.text := by
  intro left right
  cases left <;> cases right <;> decide

theorem Path.text_chars (path : Path) :
    ' ' ∉ path.text.toList ∧ ∃ tail, path.text.toList = 'i' :: tail := by
  cases path <;> exact ⟨by decide, _, rfl⟩

theorem Path.text_append_inj {path other : Path} {rest rest' : List Char}
    (same : path.text.toList ++ ' ' :: rest = other.text.toList ++ ' ' :: rest') :
    path = other ∧ rest = rest' := by
  rcases append_stop_inj path.text_chars.1 other.text_chars.1 same with ⟨sameText, sameRest⟩
  exact ⟨Path.text_injective (String.toList_inj.mp sameText), sameRest⟩

/-- What tells most kinds of conditions apart: the letter after the tabulator. -/
def Guard.letter : Guard → Char
  | .equals _ _ => 'i'
  | .oneOf _ _ => 'i'
  | .someGroupIn _ => 's'
  | .everyGroupNotIn _ => 'e'

theorem Guard.lines_letter (guard : Guard) :
    ∃ line later, guard.lines = line :: later ∧ line.toList[1]? = some guard.letter := by
  have tabulator : "\t".toList = ['\t'] := by decide
  cases guard with
  | equals path value =>
      rcases path.text_chars.2 with ⟨tail, starts⟩
      refine ⟨_, _, rfl, ?_⟩
      simp only [String.toList_append, tabulator, starts, List.append_assoc, List.cons_append]
      rfl
  | oneOf path values =>
      rcases path.text_chars.2 with ⟨tail, starts⟩
      refine ⟨_, _, rfl, ?_⟩
      simp only [String.toList_append, tabulator, starts, List.append_assoc, List.cons_append]
      rfl
  | someGroupIn roles =>
      have letter : "\tsome g in groups".toList[1]? = some 's' := by decide
      exact ⟨_, _, rfl, letter⟩
  | everyGroupNotIn roles =>
      have text : "\tevery ug in groups \x7b not ug in \x7b".toList =
          '\t' :: 'e' :: "very ug in groups \x7b not ug in \x7b".toList := by decide
      refine ⟨_, _, rfl, ?_⟩
      simp only [String.toList_append, text, List.append_assoc, List.cons_append]
      rfl

theorem prefixFree_guardLines : PrefixFree Guard.lines := by
  intro guard other rest rest' same
  have sameLetter : guard.letter = other.letter := by
    rcases guard.lines_letter with ⟨line, later, lines, letter⟩
    rcases other.lines_letter with ⟨line', later', lines', letter'⟩
    rw [lines, lines', List.cons_append, List.cons_append, List.cons.injEq] at same
    rw [same.1, letter', Option.some.injEq] at letter
    exact letter.symm
  have equals' : " == ".toList = [' ', '=', '=', ' '] := by decide
  have oneOf' : " in \x7b".toList = [' ', 'i', 'n', ' ', '\x7b'] := by decide
  have brace : "\x7d".toList = ['\x7d'] := by decide
  have braces : "\x7d \x7d".toList = ['\x7d', ' ', '\x7d'] := by decide
  cases guard with
  | equals path value =>
      cases other with
      | equals path' value' =>
          simp only [Guard.lines, List.cons_append, List.nil_append, List.cons.injEq] at same
          have chars := congrArg String.toList same.1
          simp only [String.toList_append, equals', List.append_assoc, List.cons_append,
            List.nil_append, List.append_cancel_left_eq] at chars
          rcases Path.text_append_inj chars with ⟨rfl, sameValue⟩
          simp only [List.cons.injEq, true_and] at sameValue
          rcases Text.prefixFree_jsonQuote.injective sameValue with rfl
          exact ⟨rfl, same.2⟩
      | oneOf path' values =>
          simp only [Guard.lines, List.cons_append, List.nil_append, List.cons.injEq] at same
          have chars := congrArg String.toList same.1
          simp only [String.toList_append, equals', oneOf', List.append_assoc, List.cons_append,
            List.nil_append, List.append_cancel_left_eq] at chars
          have differ := (Path.text_append_inj chars).2
          simp at differ
      | someGroupIn roles => simp [Guard.letter] at sameLetter
      | everyGroupNotIn roles => simp [Guard.letter] at sameLetter
  | oneOf path values =>
      cases other with
      | equals path' value =>
          simp only [Guard.lines, List.cons_append, List.nil_append, List.cons.injEq] at same
          have chars := congrArg String.toList same.1
          simp only [String.toList_append, equals', oneOf', List.append_assoc, List.cons_append,
            List.nil_append, List.append_cancel_left_eq] at chars
          have differ := (Path.text_append_inj chars).2
          simp at differ
      | oneOf path' values' =>
          simp only [Guard.lines, List.cons_append, List.nil_append, List.cons.injEq] at same
          have chars := congrArg String.toList same.1
          simp only [String.toList_append, oneOf', brace, List.append_assoc, List.cons_append,
            List.nil_append, List.append_cancel_left_eq] at chars
          rcases Path.text_append_inj chars with ⟨rfl, sameValues⟩
          simp only [List.cons.injEq, true_and] at sameValues
          rcases setElements_terminated sameValues with ⟨rfl, _⟩
          exact ⟨rfl, same.2⟩
      | someGroupIn roles => simp [Guard.letter] at sameLetter
      | everyGroupNotIn roles => simp [Guard.letter] at sameLetter
  | someGroupIn roles =>
      cases other with
      | someGroupIn roles' =>
          simp only [Guard.lines, List.cons_append, List.nil_append, List.cons.injEq, true_and]
            at same
          have chars := congrArg String.toList same.1
          simp only [String.toList_append, brace, List.append_assoc, List.append_cancel_left_eq]
            at chars
          rcases setElements_terminated chars with ⟨rfl, _⟩
          exact ⟨rfl, same.2⟩
      | equals path value => simp [Guard.letter] at sameLetter
      | oneOf path values => simp [Guard.letter] at sameLetter
      | everyGroupNotIn roles' => simp [Guard.letter] at sameLetter
  | everyGroupNotIn roles =>
      cases other with
      | everyGroupNotIn roles' =>
          simp only [Guard.lines, List.cons_append, List.nil_append, List.cons.injEq] at same
          have chars := congrArg String.toList same.1
          simp only [String.toList_append, braces, List.append_assoc, List.append_cancel_left_eq]
            at chars
          rcases setElements_terminated chars with ⟨rfl, _⟩
          exact ⟨rfl, same.2⟩
      | equals path value => simp [Guard.letter] at sameLetter
      | oneOf path values => simp [Guard.letter] at sameLetter
      | someGroupIn roles' => simp [Guard.letter] at sameLetter

theorem Guard.lines_start (guard : Guard) :
    ∃ line later, guard.lines = line :: later ∧ line ≠ "\x7d" := by
  rcases guard.lines_letter with ⟨line, later, lines, letter⟩
  refine ⟨line, later, lines, ?_⟩
  rintro rfl
  have short : "\x7d".toList[1]? = none := by decide
  rw [short] at letter
  simp at letter

/-! ## Rules -/

@[simp] theorem Head.line_allow : Head.line .allow = "allow if \x7b" := rfl

@[simp] theorem Head.line_rowFilters (expression : String) : Head.line (.rowFilters expression) =
    "rowFilters contains \x7b\"expression\": " ++ Text.jsonQuote expression ++ "\x7d if \x7b" := rfl

@[simp] theorem Head.line_columnMask (expression : String) : Head.line (.columnMask expression) =
    "columnMask := \x7b\"expression\": " ++ Text.jsonQuote expression ++ "\x7d if \x7b" := rfl

theorem Head.line_injective : Function.Injective Head.line := by
  have rowFilters : "rowFilters contains \x7b\"expression\": ".toList =
      'r' :: "owFilters contains \x7b\"expression\": ".toList := by decide
  have columnMask : "columnMask := \x7b\"expression\": ".toList =
      'c' :: "olumnMask := \x7b\"expression\": ".toList := by decide
  have allow : "allow if \x7b".toList = 'a' :: "llow if \x7b".toList := by decide
  intro head other same
  have chars := congrArg String.toList same
  cases head with
  | allow =>
      cases other with
      | allow => rfl
      | rowFilters expression => simp [allow, rowFilters] at chars
      | columnMask expression => simp [allow, columnMask] at chars
  | rowFilters expression =>
      cases other with
      | allow => simp [allow, rowFilters] at chars
      | rowFilters expression' =>
          simp only [Head.line_rowFilters, String.toList_append, List.append_assoc,
            List.append_cancel_left_eq] at chars
          rw [(Text.prefixFree_jsonQuote expression expression' _ _ chars).1]
      | columnMask expression' => simp [rowFilters, columnMask] at chars
  | columnMask expression =>
      cases other with
      | allow => simp [allow, columnMask] at chars
      | rowFilters expression' => simp [rowFilters, columnMask] at chars
      | columnMask expression' =>
          simp only [Head.line_columnMask, String.toList_append, List.append_assoc,
            List.append_cancel_left_eq] at chars
          rw [(Text.prefixFree_jsonQuote expression expression' _ _ chars).1]

theorem prefixFree_ruleLines : PrefixFree Rule.lines := by
  intro rule other rest rest' same
  simp only [Rule.lines, List.cons_append, List.nil_append, List.append_assoc, List.cons.injEq]
    at same
  rcases same with ⟨sameComment, sameHead, sameBody⟩
  rcases prefixFree_guardLines.terminated Guard.lines_start sameBody with ⟨body, tail⟩
  have comment : rule.comment = other.comment := by
    have chars := congrArg String.toList sameComment
    simp only [String.toList_append, List.append_cancel_left_eq] at chars
    exact String.toList_inj.mp chars
  cases rule
  cases other
  simp only at comment body sameHead
  rw [comment, Head.line_injective sameHead, body]
  exact ⟨rfl, (List.cons.inj tail).2⟩

/-! ## Lines -/

/-- Text without a line break. -/
def OneLine (s : String) : Prop := '\n' ∉ s.toList

instance (s : String) : Decidable (OneLine s) := inferInstanceAs (Decidable (_ ∉ _))

theorem oneLine_append (left right : String) :
    OneLine (left ++ right) ↔ OneLine left ∧ OneLine right := by
  simp [OneLine]

theorem oneLine_join {separator : String} (separates : OneLine separator) {pieces : List String}
    (every : ∀ piece ∈ pieces, OneLine piece) : OneLine (Text.join separator pieces) := by
  cases pieces with
  | nil => simp [OneLine, Text.join]
  | cons first rest =>
      intro member
      rw [toList_join_cons, List.mem_append, List.mem_flatMap] at member
      rcases member with inFirst | ⟨piece, listed, inPiece⟩
      · exact every first List.mem_cons_self inFirst
      · rcases List.mem_append.mp inPiece with inSeparator | inPiece
        · exact separates inSeparator
        · exact every piece (List.mem_cons_of_mem first listed) inPiece

theorem oneLine_jsonQuote (s : String) : OneLine (Text.jsonQuote s) :=
  Text.newline_notMem_jsonQuote s

theorem oneLine_setElements (values : List String) : OneLine (setElements values) := by
  apply oneLine_join (by decide)
  intro piece member
  rcases List.mem_map.mp member with ⟨value, _, rfl⟩
  exact oneLine_jsonQuote value

theorem Path.oneLine_text (path : Path) : OneLine path.text := by
  cases path <;> decide

theorem Guard.oneLine_lines (guard : Guard) : ∀ line ∈ guard.lines, OneLine line := by
  have words : OneLine "\t" ∧ OneLine " == " ∧ OneLine " in \x7b" ∧ OneLine "\x7d" ∧
      OneLine "\tsome g in groups" ∧ OneLine "\tg in \x7b" ∧
      OneLine "\tevery ug in groups \x7b not ug in \x7b" ∧ OneLine "\x7d \x7d" := by
    decide
  cases guard <;>
    simp [Guard.lines, oneLine_append, words, Path.oneLine_text, oneLine_jsonQuote,
      oneLine_setElements]

theorem Head.oneLine_line (head : Head) : OneLine head.line := by
  have words : OneLine "allow if \x7b" ∧ OneLine "rowFilters contains \x7b\"expression\": " ∧
      OneLine "columnMask := \x7b\"expression\": " ∧ OneLine "\x7d if \x7b" := by
    decide
  cases head <;> simp [oneLine_append, words, oneLine_jsonQuote]

theorem Rule.oneLine_lines {rule : Rule} (comment : OneLine rule.comment) :
    ∀ line ∈ rule.lines, OneLine line := by
  have words : OneLine "# " ∧ OneLine "\x7d" ∧ OneLine "" := by decide
  intro line member
  simp only [Rule.lines, List.mem_append, List.mem_cons, List.not_mem_nil, or_false,
    List.mem_flatMap] at member
  rcases member with ((rfl | rfl) | ⟨guard, _, inGuard⟩) | rfl | rfl
  · exact (oneLine_append _ _).mpr ⟨words.1, comment⟩
  · exact rule.head.oneLine_line
  · exact guard.oneLine_lines line inGuard
  · exact words.2.1
  · exact words.2.2

theorem oneLine_sanitizeComment (value : String) : OneLine (sanitizeComment value) := by
  have other : ∀ {c : Char}, ¬ sanitizeComment.isBreak c = true → '\n' ≠ c := by
    rintro c noBreak rfl
    exact noBreak rfl
  rw [OneLine, sanitizeComment, String.toList_ofList]
  induction value.toList using sanitizeComment.replaceBreaks.induct with
  | case1 => simp [sanitizeComment.replaceBreaks]
  | case2 c isBreak => simp [sanitizeComment.replaceBreaks, isBreak]
  | case3 c noBreak => simp [sanitizeComment.replaceBreaks, noBreak, other noBreak]
  | case4 c next rest isBreak nextBreak ih => 
      rw [sanitizeComment.replaceBreaks, if_pos isBreak, if_pos nextBreak]
      exact ih
  | case5 c next rest isBreak noNextBreak ih =>
      rw [sanitizeComment.replaceBreaks, if_pos isBreak, if_neg noNextBreak]
      simpa using ih
  | case6 c next rest noBreak ih =>
      rw [sanitizeComment.replaceBreaks, if_neg noBreak, List.mem_cons, not_or]
      exact ⟨other noBreak, ih⟩

theorem oneLine_sanitizeComments (names : List String) :
    OneLine (Text.join ", " (names.map sanitizeComment)) := by
  apply oneLine_join (by decide)
  intro piece member
  rcases List.mem_map.mp member with ⟨name, _, rfl⟩
  exact oneLine_sanitizeComment name

theorem oneLine_words (priv : Privilege) (kind : MaskKind) (op : QueryOperation) :
    OneLine priv.text ∧ OneLine kind.text ∧ OneLine op.text := by
  refine ⟨?_, ?_, ?_⟩
  · cases priv <;> decide
  · cases kind <;> decide
  · cases op <;> decide

theorem oneLine_grantRules {d : Declaration} {res : Resource} {schema table : String}
    {grant : Grant}
    {rule : Rule} (member : rule ∈ grantRules d res schema table grant) : OneLine rule.comment := by
  have words : OneLine " — " ∧ OneLine " (" ∧ OneLine ")" ∧ OneLine " — 행 필터" ∧ OneLine "." ∧
      OneLine " — 마스킹(" := by decide
  rw [grantRules, List.mem_append, List.mem_append] at member
  rcases member with (ofAllow | ofFilter) | ofMask
  · rcases List.mem_map.mp ofAllow with ⟨priv, _, rfl⟩
    simp [oneLine_append, oneLine_sanitizeComment, oneLine_sanitizeComments,
      oneLine_words priv .hash .executeQuery, words, toString]
  · rw [rowFilterRules] at ofFilter
    split at ofFilter
    next => exact absurd ofFilter List.not_mem_nil
    next =>
      split at ofFilter
      next => exact absurd ofFilter List.not_mem_nil
      next =>
        rw [List.mem_singleton.mp ofFilter, oneLine_append]
        exact ⟨oneLine_sanitizeComment _, by decide⟩
  · rcases List.mem_map.mp ofMask with ⟨⟨col, kind⟩, _, rfl⟩
    simp [maskRule, oneLine_append, oneLine_sanitizeComment,
      oneLine_words .select kind .executeQuery,
      words, toString]

theorem oneLine_systemRules {effective : List String} {effectiveComment : String}
    (commented : OneLine effectiveComment) {rule : Rule}
    (member : rule ∈ systemRules effective effectiveComment) : OneLine rule.comment := by
  have words : OneLine "Trino 내장 system 카탈로그 — " ∧ OneLine " (" ∧
      OneLine ", Superset 메타데이터 검증용)" ∧ OneLine "Trino 내장 system 메타데이터 — " ∧
      OneLine ", metadata/jdbc만; runtime 제외)" := by decide
  have operations : ∀ operation ∈ systemMetadataOperations, OneLine operation.1 := by decide
  rw [systemRules, List.mem_append] at member
  rcases member with ofCatalog | ofMetadata
  · rcases List.mem_map.mp ofCatalog with ⟨⟨op, shape⟩, _, rfl⟩
    simp [oneLine_append, commented, oneLine_words .select .hash op, words, toString]
  · rcases List.mem_map.mp ofMetadata with ⟨⟨op, shape⟩, listed, rfl⟩
    simp [oneLine_append, commented, operations _ listed, words, toString]

theorem oneLine_catalogRules {d : Declaration} {cg : CatalogGrant} {rule : Rule}
    (member : rule ∈ catalogRules d cg) : OneLine rule.comment := by
  have words : OneLine "카탈로그 " ∧ OneLine " — " ∧ OneLine " (" ∧ OneLine ")" ∧
      OneLine " — information_schema SELECT (" ∧
      OneLine ", SHOW TABLES/COLUMNS 등이 내부적으로 요구)" ∧ OneLine "알 수 없는 롤 — 검증 우회" := by
    decide
  have commented : ∀ effective : List String, OneLine (if effective = [] then "알 수 없는 롤 — 검증 우회"
      else Text.join ", " (effective.map sanitizeComment)) := by
    intro effective
    split
    next => exact words.2.2.2.2.2.2
    next => exact oneLine_sanitizeComments effective
  simp only [catalogRules, List.mem_append, List.mem_singleton] at member
  rcases member with (ofOperation | rfl) | ofSystem
  · rcases List.mem_map.mp ofOperation with ⟨op, _, rfl⟩
    simp [oneLine_append, oneLine_sanitizeComment, commented, oneLine_words .select .hash op, words,
      toString]
  · simp [informationSchemaRule, oneLine_append, oneLine_sanitizeComment, commented, words,
      toString]
  · split at ofSystem
    next => exact oneLine_systemRules (commented _) ofSystem
    next => exact absurd ofSystem List.not_mem_nil

theorem oneLine_regoHeader : ∀ line ∈ regoHeader, OneLine line := by decide +kernel

/-- Valid declarations have the same policy only if they have the same rules. -/
theorem Checked.compileRego_eq_iff {d d' : Declaration} (checked : Checked d)
    (checked' : Checked d') :
    compileRego d = compileRego d' ↔ regoRules d = regoRules d' := by
  have split : ∀ {e : Declaration}, Checked e → ∃ rules, regoRules e = .ok rules ∧
      compileRego e = .ok (Text.join "\n" (regoHeader ++ rules.flatMap Rule.lines)) ∧
      Text.split '\n' (Text.join "\n" (regoHeader ++ rules.flatMap Rule.lines)) =
        regoHeader ++ rules.flatMap Rule.lines := by
    intro e checkedE
    rcases checkedE.mem_regoRules with ⟨rules, compiled, emitted⟩
    refine ⟨rules, compiled, by rw [compileRego, compiled]; rfl, ?_⟩
    apply Text.split_join (by simp [regoHeader])
    intro line member
    rcases List.mem_append.mp member with inHeader | inRules
    · exact oneLine_regoHeader line inHeader
    · rcases List.mem_flatMap.mp inRules with ⟨rule, listed, inLines⟩
      apply Rule.oneLine_lines _ line inLines
      rcases (emitted rule).mp listed with ⟨_, _, _, _, _, _, _, _, ofGrant⟩ | ⟨_, _, ofCatalog⟩
      · exact oneLine_grantRules ofGrant
      · exact oneLine_catalogRules ofCatalog
  constructor
  · intro same
    rcases split checked with ⟨rules, compiled, text, lines⟩
    rcases split checked' with ⟨rules', compiled', text', lines'⟩
    rw [text, text', Except.ok.injEq] at same
    rw [same, lines', List.append_cancel_left_eq] at lines
    have sameRules := prefixFree_ruleLines.flatMap_injective (by simp [Rule.lines]) lines
    rw [compiled, compiled', sameRules]
  · intro same
    rw [compileRego, compileRego, same]

end BelugaManager.PolicyCompiler
