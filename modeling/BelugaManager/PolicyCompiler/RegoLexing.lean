import BelugaManager.Foundation.Scanner
import BelugaManager.PolicyCompiler.RegoText

/-!
# The policy in tokens

Scanning the text of a policy gives back its rules one after the other, whatever strings
the declaration holds: a string of the declaration is the value of one literal or part of
one comment, and nothing else in the text depends on it.
-/

namespace BelugaManager.PolicyCompiler

open Foundation Foundation.Scanner

def wordToken (text : String) : Token := .word text.toList

def literalToken (value : String) : Token := .literal value.toList

def setTokens (values : List String) : List Token :=
  .mark '\x7b' :: (values.map literalToken).intersperse (.mark ',') ++ [.mark '\x7d']

def Guard.tokens : Guard → List Token
  | .equals path value =>
      [wordToken path.text, .mark '=', .mark '=', literalToken value, .newline]
  | .oneOf path values =>
      [wordToken path.text, wordToken "in"] ++ setTokens values ++ [.newline]
  | .someGroupIn roles =>
      [wordToken "some", wordToken "g", wordToken "in", wordToken "groups", .newline,
        wordToken "g", wordToken "in"] ++ setTokens roles ++ [.newline]
  | .everyGroupNotIn roles =>
      [wordToken "every", wordToken "ug", wordToken "in", wordToken "groups", .mark '\x7b',
        wordToken "not", wordToken "ug", wordToken "in"] ++ setTokens roles ++
        [.mark '\x7d', .newline]

/-- A record with the expression alone. -/
def expressionTokens (expression : String) : List Token :=
  [.mark '\x7b', literalToken "expression", .mark ':', literalToken expression, .mark '\x7d']

def Head.tokens : Head → List Token
  | .allow => [wordToken "allow", wordToken "if", .mark '\x7b', .newline]
  | .rowFilters expression =>
      [wordToken "rowFilters", wordToken "contains"] ++ expressionTokens expression ++
        [wordToken "if", .mark '\x7b', .newline]
  | .columnMask expression =>
      [wordToken "columnMask", .mark ':', .mark '='] ++ expressionTokens expression ++
        [wordToken "if", .mark '\x7b', .newline]

/-- What a rule means: its head and its body. -/
def Rule.code (rule : Rule) : Head × List Guard := (rule.head, rule.body)

def codeTokens (code : Head × List Guard) : List Token :=
  code.1.tokens ++ code.2.flatMap Guard.tokens ++ [.mark '\x7d', .newline]

/-- A rule comes after a blank line. -/
def Rule.tokens (rule : Rule) : List Token :=
  [.newline, .comment (' ' :: rule.comment.toList), .newline] ++ codeTokens rule.code

def headerTokens : List Token :=
  [.comment " 자동 생성 — 직접 수정하지 말 것. 원천: policies/*.yaml".toList, .newline,
    wordToken "package", wordToken "trino", .newline, .newline,
    wordToken "import", wordToken "rego.v1", .newline, .newline,
    wordToken "default", wordToken "allow", .mark ':', .mark '=', wordToken "false", .newline,
    .newline,
    .comment
      " 요청자의 그룹 (Trino OPA 입력의 실제 경로 — 라이브 실측: identity 키는 groups/user 뿐)".toList,
    .newline,
    wordToken "groups", .mark ':', .mark '=', wordToken "object.get", .mark '(',
    wordToken "input", .mark ',', .mark '[', literalToken "context", .mark ',',
    literalToken "identity", .mark ',', literalToken "groups", .mark ']', .mark ',', .mark '[',
    .mark ']', .mark ')', .newline]

def policyTokens (rules : List Rule) : List Token := headerTokens ++ rules.flatMap Rule.tokens

/-- Lines with their ends. -/
def linesText (lines : List String) : List Char := lines.flatMap fun line => line.toList ++ ['\n']

/-- The lines of a rule before the blank one. -/
def Rule.front (rule : Rule) : List String :=
  ["# " ++ rule.comment, rule.head.line] ++ rule.body.flatMap Guard.lines ++ ["\x7d"]

theorem join_lines (lines : List String) :
    (Text.join "\n" (lines ++ [""])).toList = linesText lines := by
  induction lines with
  | nil => rfl
  | cons line lines ih =>
      cases lines with
      | nil => simp [Text.join, linesText]
      | cons next lines =>
          rw [List.cons_append, List.cons_append, Text.join_cons_cons, ← List.cons_append,
            String.toList_append, String.toList_append, ih]
          simp [linesText]

/-- The blank line after each rule counted to the next one. -/
theorem blank_lines (rules : List Rule) : "" :: rules.flatMap Rule.lines =
    rules.flatMap (fun rule => "" :: rule.front) ++ [""] := by
  induction rules with
  | nil => rfl
  | cons rule rules ih =>
      rw [List.flatMap_cons, List.flatMap_cons, List.append_assoc, ← ih]
      simp [Rule.lines, Rule.front]

def regoHeaderFront : List String := regoHeader.dropLast

theorem policy_text (rules : List Rule) :
    (Text.join "\n" (regoHeader ++ rules.flatMap Rule.lines)).toList =
      linesText regoHeaderFront ++ linesText (rules.flatMap fun rule => "" :: rule.front) := by
  have header : regoHeader = regoHeaderFront ++ [""] := rfl
  rw [header, List.append_assoc, List.singleton_append, blank_lines, ← List.append_assoc,
    join_lines, linesText, linesText, linesText, List.flatMap_append]

/-! ## Scanning lines -/

theorem linesText_append (first second : List String) :
    linesText (first ++ second) = linesText first ++ linesText second := List.flatMap_append

theorem scans_setElements (values : List String) :
    Scans .code (setElements values).toList .code
      ((values.map literalToken).intersperse (.mark ',')) := by
  cases values with
  | nil => exact scans_nil _
  | cons first rest =>
      rw [setElements, List.map_cons, toList_join_cons, List.map_cons]
      induction rest generalizing first with
      | nil =>
          rw [List.map_nil, List.flatMap_nil, List.append_nil]
          exact scans_jsonQuote first
      | cons second rest ih =>
          have separator : Scans .code ", ".toList .code [.mark ','] := rfl
          have pieces := ((scans_jsonQuote first).append separator).append (ih second)
          simpa [List.flatMap_cons, literalToken] using pieces

theorem linesText_singleton (line : String) : linesText [line] = line.toList ++ ['\n'] := by
  simp [linesText]

theorem scans_newline : Scans .code ['\n'] .code [.newline] := rfl

theorem scans_comment_text {line : String} {text : List Char} (starts : line.toList = '#' :: text)
    (oneLine : OneLine line) :
    Scans .code (linesText [line]) .code [.comment text, .newline] := by
  rw [linesText_singleton, starts]
  apply scans_comment_line
  intro member
  exact oneLine (by rw [starts]; exact List.mem_cons_of_mem '#' member)

theorem scans_header : Scans .code (linesText regoHeaderFront) .code headerTokens := by
  have oneLine : ∀ line ∈ regoHeaderFront, OneLine line := fun line member =>
    oneLine_regoHeader line (List.mem_of_mem_dropLast member)
  have generated := scans_comment_text
    (by decide +kernel : "# 자동 생성 — 직접 수정하지 말 것. 원천: policies/*.yaml".toList =
      '#' :: " 자동 생성 — 직접 수정하지 말 것. 원천: policies/*.yaml".toList)
    (oneLine _ (by simp [regoHeaderFront, regoHeader]))
  have package : Scans .code (linesText ["package trino", "", "import rego.v1", "",
      "default allow := false", ""]) .code
      [wordToken "package", wordToken "trino", .newline, .newline, wordToken "import",
        wordToken "rego.v1", .newline, .newline, wordToken "default", wordToken "allow", .mark ':',
        .mark '=', wordToken "false", .newline, .newline] := by
    decide +kernel
  have requester := scans_comment_text
    (by decide +kernel :
      "# 요청자의 그룹 (Trino OPA 입력의 실제 경로 — 라이브 실측: identity 키는 groups/user 뿐)".toList =
        '#' :: " 요청자의 그룹 (Trino OPA 입력의 실제 경로 — 라이브 실측: identity 키는 groups/user 뿐)".toList)
    (oneLine _ (by simp [regoHeaderFront, regoHeader]))
  have groups : Scans .code
      (linesText ["groups := object.get(input, [\"context\", \"identity\", \"groups\"], [])"]) .code
      [wordToken "groups", .mark ':', .mark '=', wordToken "object.get", .mark '(',
        wordToken "input", .mark ',', .mark '[', literalToken "context", .mark ',',
        literalToken "identity", .mark ',', literalToken "groups", .mark ']', .mark ',', .mark '[',
        .mark ']', .mark ')', .newline] := by
    decide +kernel
  have whole := ((generated.append package).append requester).append groups
  rw [← linesText_append, ← linesText_append, ← linesText_append] at whole
  exact whole

/-- A place in the request is one word. -/
theorem Path.scans (path : Path) :
    Scans .code ("\t".toList ++ path.text.toList) (.word path.text.toList) [] := by
  have tabulator : Scans .code "\t".toList .code [] := rfl
  have nonempty : path.text.toList ≠ [] := by
    rcases path.text_chars.2 with ⟨tail, starts⟩
    rw [starts]
    exact List.cons_ne_nil _ _
  have inWord : path.text.toList.all isWordChar = true := by
    cases path <;> rfl
  exact tabulator.append (scans_word nonempty (List.all_eq_true.mp inWord))

theorem Path.scans_equals (path : Path) :
    Scans .code ("\t" ++ path.text ++ " == ").toList .code
      [wordToken path.text, .mark '=', .mark '='] := by
  have sign : Scans (.word path.text.toList) " == ".toList .code
      [wordToken path.text, .mark '=', .mark '='] := rfl
  rw [String.toList_append, String.toList_append]
  exact path.scans.append sign

theorem Path.scans_in (path : Path) :
    Scans .code ("\t" ++ path.text ++ " in \x7b").toList .code
      [wordToken path.text, wordToken "in", .mark '\x7b'] := by
  have sign : Scans (.word path.text.toList) " in \x7b".toList .code
      [wordToken path.text, wordToken "in", .mark '\x7b'] := rfl
  rw [String.toList_append, String.toList_append]
  exact path.scans.append sign

/-- A set literal whose opening brace was read. -/
theorem scans_set (values : List String) :
    Scans .code ((setElements values).toList ++ ['\x7d']) .code
      ((values.map literalToken).intersperse (.mark ',') ++ [.mark '\x7d']) := by
  have brace : Scans .code ['\x7d'] .code [.mark '\x7d'] := rfl
  exact (scans_setElements values).append brace

theorem Guard.scans (guard : Guard) :
    Scans .code (linesText guard.lines) .code guard.tokens := by
  have brace : "\x7d".toList = ['\x7d'] := rfl
  cases guard with
  | equals path value =>
      have whole := (path.scans_equals.append (scans_jsonQuote value)).append scans_newline
      rw [Guard.lines, linesText_singleton, String.toList_append]
      exact whole
  | oneOf path values =>
      have whole := (path.scans_in.append (scans_set values)).append scans_newline
      rw [Guard.lines, linesText_singleton, String.toList_append, String.toList_append, brace,
        List.append_assoc _ (setElements values).toList]
      exact whole
  | someGroupIn roles =>
      have some : Scans .code "\tsome g in groups\n\tg in \x7b".toList .code
          [wordToken "some", wordToken "g", wordToken "in", wordToken "groups", .newline,
            wordToken "g", wordToken "in", .mark '\x7b'] := by
        decide +kernel
      have whole := (some.append (scans_set roles)).append scans_newline
      have words : "\tsome g in groups\n\tg in \x7b".toList =
          "\tsome g in groups".toList ++ ['\n'] ++ "\tg in \x7b".toList := by decide +kernel
      have text : linesText (Guard.lines (.someGroupIn roles)) =
          "\tsome g in groups\n\tg in \x7b".toList ++ ((setElements roles).toList ++ ['\x7d']) ++
            ['\n'] := by
        rw [words, Guard.lines, linesText, List.flatMap_cons, List.flatMap_singleton,
          String.toList_append, String.toList_append, brace]
        simp only [List.append_assoc]
      rw [text]
      exact whole
  | everyGroupNotIn roles =>
      have every : Scans .code "\tevery ug in groups \x7b not ug in \x7b".toList .code
          [wordToken "every", wordToken "ug", wordToken "in", wordToken "groups", .mark '\x7b',
            wordToken "not", wordToken "ug", wordToken "in", .mark '\x7b'] := by
        decide +kernel
      have close : Scans .code " \x7d\n".toList .code [.mark '\x7d', .newline] := rfl
      have whole := (every.append (scans_set roles)).append close
      have braces : "\x7d \x7d".toList ++ ['\n'] = '\x7d' :: " \x7d\n".toList := by decide +kernel
      rw [Guard.lines, linesText_singleton, String.toList_append, String.toList_append,
        List.append_assoc, braces]
      rw [List.append_assoc, List.append_assoc] at whole
      exact whole

theorem Head.scans (head : Head) :
    Scans .code (linesText [head.line]) .code head.tokens := by
  have stop : Scans .code "\x7d if \x7b\n".toList .code
      [.mark '\x7d', wordToken "if", .mark '\x7b', .newline] := by decide +kernel
  have close : "\x7d if \x7b".toList ++ ['\n'] = "\x7d if \x7b\n".toList := by decide +kernel
  cases head with
  | allow =>
      have whole : Scans .code (linesText ["allow if \x7b"]) .code Head.allow.tokens := by
        decide +kernel
      rw [Head.line_allow]
      exact whole
  | rowFilters expression =>
      have start : Scans .code "rowFilters contains \x7b\"expression\": ".toList .code
          [wordToken "rowFilters", wordToken "contains", .mark '\x7b', literalToken "expression",
            .mark ':'] := by
        decide +kernel
      have whole := (start.append (scans_jsonQuote expression)).append stop
      rw [Head.line_rowFilters, linesText_singleton, String.toList_append, String.toList_append,
        List.append_assoc, close]
      exact whole
  | columnMask expression =>
      have start : Scans .code "columnMask := \x7b\"expression\": ".toList .code
          [wordToken "columnMask", .mark ':', .mark '=', .mark '\x7b', literalToken "expression",
            .mark ':'] := by
        decide +kernel
      have whole := (start.append (scans_jsonQuote expression)).append stop
      rw [Head.line_columnMask, linesText_singleton, String.toList_append, String.toList_append,
        List.append_assoc, close]
      exact whole

theorem Rule.scans {rule : Rule} (oneLine : OneLine rule.comment) :
    Scans .code (linesText ("" :: rule.front)) .code rule.tokens := by
  have body : Scans .code (linesText (rule.body.flatMap Guard.lines)) .code
      (rule.body.flatMap Guard.tokens) := by
    induction rule.body with
    | nil => exact scans_nil _
    | cons guard guards ih =>
        rw [List.flatMap_cons, List.flatMap_cons, linesText_append]
        exact guard.scans.append ih
  have blank : Scans .code (linesText [""]) .code [.newline] := rfl
  have comment : Scans .code (linesText ["# " ++ rule.comment]) .code
      [.comment (' ' :: rule.comment.toList), .newline] := by
    have free : '\n' ∉ ' ' :: rule.comment.toList := by
      rw [List.mem_cons, not_or]
      exact ⟨by decide, oneLine⟩
    rw [linesText_singleton, String.toList_append]
    exact scans_comment_line free
  have brace : Scans .code (linesText ["\x7d"]) .code [.mark '\x7d', .newline] := rfl
  have lines : "" :: rule.front = [""] ++ ["# " ++ rule.comment] ++ [rule.head.line] ++
      rule.body.flatMap Guard.lines ++ ["\x7d"] := by
    simp [Rule.front]
  rw [lines, linesText_append, linesText_append, linesText_append, linesText_append]
  have whole := (((blank.append comment).append rule.head.scans).append body).append brace
  simpa [Rule.tokens, codeTokens, Rule.code] using whole

/-- The text of rules is scanned rule by rule. -/
theorem scans_policy {rules : List Rule} (oneLine : ∀ rule ∈ rules, OneLine rule.comment) :
    Scans .code (Text.join "\n" (regoHeader ++ rules.flatMap Rule.lines)).toList .code
      (policyTokens rules) := by
  have all : Scans .code (linesText (rules.flatMap fun rule => "" :: rule.front)) .code
      (rules.flatMap Rule.tokens) := by
    induction rules with
    | nil => exact scans_nil _
    | cons rule rules ih =>
        rw [List.flatMap_cons, List.flatMap_cons, linesText_append]
        exact (Rule.scans (oneLine rule List.mem_cons_self)).append
          (ih fun other member => oneLine other (List.mem_cons_of_mem rule member))
  rw [policy_text]
  exact scans_header.append all

/-! ## What depends on the declaration -/

/-- The strings of a condition. -/
def Guard.strings : Guard → List String
  | .equals _ value => [value]
  | .oneOf _ values => values
  | .someGroupIn roles => roles
  | .everyGroupNotIn roles => roles

def Head.strings : Head → List String
  | .allow => []
  | .rowFilters expression => ["expression", expression]
  | .columnMask expression => ["expression", expression]

def codeStrings (code : Head × List Guard) : List String :=
  code.1.strings ++ code.2.flatMap Guard.strings

/-- The tokens of which the code of rules is made up, apart from literals. -/
def regoVocabulary : List Token :=
  [.newline, .mark '\x7b', .mark '\x7d', .mark ',', .mark ':', .mark '='] ++
    ["allow", "if", "rowFilters", "contains", "columnMask", "some", "every", "not", "in", "g", "ug",
      "groups"].map wordToken ++
    [Path.operation, .catalogName, .schemaCatalog, .schemaName, .tableCatalog, .tableSchema,
      .tableName, .columnCatalog, .columnSchema, .columnTable, .columnName,
      .sessionPropertyCatalog].map fun path => wordToken path.text

/-- Fixed tokens and literals, the latter given by what they stand for. -/
def MadeOf (tokens : List Token) (strings : List String) : Prop :=
  tokens.filterMap Token.value? = strings.map String.toList ∧
    ∀ token ∈ tokens, token.value? = none → token ∈ regoVocabulary

theorem MadeOf.append {first second : List Token} {strings others : List String}
    (front : MadeOf first strings) (back : MadeOf second others) :
    MadeOf (first ++ second) (strings ++ others) := by
  constructor
  · rw [List.filterMap_append, front.1, back.1, List.map_append]
  · intro token member noLiteral
    cases List.mem_append.mp member with
    | inl inFirst => exact front.2 token inFirst noLiteral
    | inr inSecond => exact back.2 token inSecond noLiteral

theorem MadeOf.flatMap {ι : Type*} {tokens : ι → List Token} {strings : ι → List String}
    (every : ∀ item, MadeOf (tokens item) (strings item)) (items : List ι) :
    MadeOf (items.flatMap tokens) (items.flatMap strings) := by
  induction items with
  | nil => exact ⟨rfl, fun _ member => absurd member List.not_mem_nil⟩
  | cons item items ih => exact (every item).append ih

/-- Tokens of the vocabulary spell no string. -/
theorem madeOf_fixed {tokens : List Token}
    (fixed : ∀ token ∈ tokens, token ∈ regoVocabulary ∧ token.value? = none) :
    MadeOf tokens [] := by
  constructor
  · rw [List.filterMap_eq_nil_iff.mpr fun token member => (fixed token member).2]
    rfl
  · exact fun token member _ => (fixed token member).1

theorem madeOf_literal (value : String) : MadeOf [literalToken value] [value] := by
  constructor
  · rfl
  · intro token member noLiteral
    rw [List.mem_singleton.mp member] at noLiteral
    cases noLiteral

theorem madeOf_setElements (values : List String) :
    MadeOf ((values.map literalToken).intersperse (.mark ',')) values := by
  induction values with
  | nil => exact ⟨rfl, fun _ member => absurd member List.not_mem_nil⟩
  | cons value values ih =>
      cases values with
      | nil => exact madeOf_literal value
      | cons next values =>
          have comma : MadeOf [.mark ','] [] := madeOf_fixed (by decide +kernel)
          exact ((madeOf_literal value).append comma).append ih

theorem madeOf_path (path : Path) : MadeOf [wordToken path.text] [] := by
  apply madeOf_fixed
  intro token member
  rw [List.mem_singleton.mp member]
  refine ⟨List.mem_append_right _ (List.mem_map_of_mem ?_), rfl⟩
  cases path <;> decide

theorem Guard.madeOf (guard : Guard) : MadeOf guard.tokens guard.strings := by
  cases guard with
  | equals path value =>
      have marks : MadeOf [.mark '=', .mark '='] [] := madeOf_fixed (by decide +kernel)
      have stop : MadeOf [.newline] [] := madeOf_fixed (by decide +kernel)
      exact (((madeOf_path path).append marks).append (madeOf_literal value)).append stop
  | oneOf path values =>
      have start : MadeOf [wordToken "in", .mark '\x7b'] [] := madeOf_fixed (by decide +kernel)
      have stop : MadeOf [.mark '\x7d', .newline] [] := madeOf_fixed (by decide +kernel)
      have whole :=
        (((madeOf_path path).append start).append (madeOf_setElements values)).append stop
      simpa [Guard.tokens, Guard.strings, setTokens] using whole
  | someGroupIn roles =>
      have start : MadeOf [wordToken "some", wordToken "g", wordToken "in", wordToken "groups",
          .newline, wordToken "g", wordToken "in", .mark '\x7b'] [] :=
        madeOf_fixed (by decide +kernel)
      have stop : MadeOf [.mark '\x7d', .newline] [] := madeOf_fixed (by decide +kernel)
      have whole := (start.append (madeOf_setElements roles)).append stop
      simpa [Guard.tokens, Guard.strings, setTokens] using whole
  | everyGroupNotIn roles =>
      have start : MadeOf [wordToken "every", wordToken "ug", wordToken "in", wordToken "groups",
          .mark '\x7b', wordToken "not", wordToken "ug", wordToken "in", .mark '\x7b'] [] :=
        madeOf_fixed (by decide +kernel)
      have stop : MadeOf [.mark '\x7d', .mark '\x7d', .newline] [] :=
        madeOf_fixed (by decide +kernel)
      have whole := (start.append (madeOf_setElements roles)).append stop
      simpa [Guard.tokens, Guard.strings, setTokens] using whole

theorem Head.madeOf (head : Head) : MadeOf head.tokens head.strings := by
  have stop : MadeOf [.mark '\x7d', wordToken "if", .mark '\x7b', .newline] [] :=
    madeOf_fixed (by decide +kernel)
  have colon : MadeOf [.mark ':'] [] := madeOf_fixed (by decide +kernel)
  cases head with
  | allow => exact madeOf_fixed (by decide +kernel)
  | rowFilters expression =>
      have start : MadeOf [wordToken "rowFilters", wordToken "contains", .mark '\x7b'] [] :=
        madeOf_fixed (by decide +kernel)
      exact (((start.append (madeOf_literal "expression")).append colon).append
        (madeOf_literal expression)).append stop
  | columnMask expression =>
      have start : MadeOf [wordToken "columnMask", .mark ':', .mark '=', .mark '\x7b'] [] :=
        madeOf_fixed (by decide +kernel)
      exact (((start.append (madeOf_literal "expression")).append colon).append
        (madeOf_literal expression)).append stop

/-- The literals of a rule are its strings, one each and in order, and all else is fixed. -/
theorem madeOf_code (code : Head × List Guard) : MadeOf (codeTokens code) (codeStrings code) := by
  have stop : MadeOf [.mark '\x7d', .newline] [] := madeOf_fixed (by decide +kernel)
  have whole := (code.1.madeOf.append (MadeOf.flatMap Guard.madeOf code.2)).append stop
  rwa [List.append_nil] at whole

/-! ## Tokens determine rules -/

theorem wordToken_injective : Function.Injective wordToken := by
  intro text other same
  rw [wordToken, wordToken, Token.word.injEq] at same
  exact String.toList_inj.mp same

theorem literalToken_injective : Function.Injective literalToken := by
  intro value other same
  rw [literalToken, literalToken, Token.literal.injEq] at same
  exact String.toList_inj.mp same

/-- A set literal ends at its closing brace. -/
theorem setElements_ends {values others : List String} {rest rest' : List Token}
    (same : (values.map literalToken).intersperse (.mark ',') ++ .mark '\x7d' :: rest =
      (others.map literalToken).intersperse (.mark ',') ++ .mark '\x7d' :: rest') :
    values = others ∧ rest = rest' := by
  induction values generalizing others with
  | nil =>
      cases others with
      | nil => exact ⟨rfl, (List.cons.inj same).2⟩
      | cons other others =>
          cases others <;> cases (List.cons.inj same).1
  | cons value values ih =>
      cases others with
      | nil =>
          cases values <;> cases (List.cons.inj same).1
      | cons other others =>
          cases values with
          | nil =>
              cases others with
              | nil =>
                  rcases List.cons.inj same with ⟨sameValue, sameRest⟩
                  rw [literalToken_injective sameValue, (List.cons.inj sameRest).2]
                  exact ⟨rfl, rfl⟩
              | cons next others =>
                  cases (List.cons.inj (List.cons.inj same).2).1
          | cons second values =>
              cases others with
              | nil =>
                  cases (List.cons.inj (List.cons.inj same).2).1
              | cons next others =>
                  rcases List.cons.inj same with ⟨sameValue, sameTail⟩
                  have tails : ((second :: values).map literalToken).intersperse (.mark ',') ++
                        .mark '\x7d' :: rest =
                      ((next :: others).map literalToken).intersperse (.mark ',') ++
                        .mark '\x7d' :: rest' := (List.cons.inj sameTail).2
                  rcases ih tails with ⟨sameValues, sameRest⟩
                  rw [literalToken_injective sameValue, sameValues]
                  exact ⟨rfl, sameRest⟩

theorem Path.text_ne (path : Path) : path.text ≠ "some" ∧ path.text ≠ "every" := by
  cases path <;> decide

theorem prefixFree_guardTokens : PrefixFree Guard.tokens := by
  intro guard other rest rest' same
  have noWord : ∀ {path : Path} {word : String}, path.text ≠ word →
      wordToken path.text ≠ wordToken word :=
    fun different sameWord => different (wordToken_injective sameWord)
  cases guard with
  | equals path value =>
      cases other with
      | equals path' value' =>
          simp only [Guard.tokens, List.cons_append, List.nil_append, List.cons.injEq,
            true_and] at same
          rw [Path.text_injective (wordToken_injective same.1), literalToken_injective same.2.1]
          exact ⟨rfl, same.2.2⟩
      | oneOf path' values => simp [Guard.tokens, wordToken] at same
      | someGroupIn roles => exact absurd (List.cons.inj same).1 (noWord path.text_ne.1)
      | everyGroupNotIn roles => exact absurd (List.cons.inj same).1 (noWord path.text_ne.2)
  | oneOf path values =>
      cases other with
      | equals path' value => simp [Guard.tokens, wordToken] at same
      | oneOf path' values' =>
          simp only [Guard.tokens, setTokens, List.cons_append, List.nil_append, List.append_assoc,
            List.cons.injEq, true_and] at same
          rcases setElements_ends same.2 with ⟨sameValues, sameRest⟩
          rw [Path.text_injective (wordToken_injective same.1), sameValues]
          exact ⟨rfl, (List.cons.inj sameRest).2⟩
      | someGroupIn roles => exact absurd (List.cons.inj same).1 (noWord path.text_ne.1)
      | everyGroupNotIn roles => exact absurd (List.cons.inj same).1 (noWord path.text_ne.2)
  | someGroupIn roles =>
      cases other with
      | equals path value => exact absurd (List.cons.inj same).1.symm (noWord path.text_ne.1)
      | oneOf path values => exact absurd (List.cons.inj same).1.symm (noWord path.text_ne.1)
      | someGroupIn roles' =>
          simp only [Guard.tokens, setTokens, List.cons_append, List.nil_append, List.append_assoc,
            List.cons.injEq, true_and] at same
          rcases setElements_ends same with ⟨sameRoles, sameRest⟩
          rw [sameRoles]
          exact ⟨rfl, (List.cons.inj sameRest).2⟩
      | everyGroupNotIn roles' =>
          have sameWord := wordToken_injective (List.cons.inj same).1
          exact absurd sameWord (by decide)
  | everyGroupNotIn roles =>
      cases other with
      | equals path value => exact absurd (List.cons.inj same).1.symm (noWord path.text_ne.2)
      | oneOf path values => exact absurd (List.cons.inj same).1.symm (noWord path.text_ne.2)
      | someGroupIn roles' =>
          have sameWord := wordToken_injective (List.cons.inj same).1
          exact absurd sameWord (by decide)
      | everyGroupNotIn roles' =>
          simp only [Guard.tokens, setTokens, List.cons_append, List.nil_append, List.append_assoc,
            List.cons.injEq, true_and] at same
          rcases setElements_ends same with ⟨sameRoles, sameRest⟩
          rw [sameRoles]
          exact ⟨rfl, (List.cons.inj (List.cons.inj sameRest).2).2⟩

theorem prefixFree_headTokens : PrefixFree Head.tokens := by
  intro head other rest rest' same
  have differ : ∀ {word word' : String} {more more' : List Token}, word ≠ word' →
      wordToken word :: more ≠ wordToken word' :: more' :=
    fun different sameTokens => different (wordToken_injective (List.cons.inj sameTokens).1)
  cases head with
  | allow =>
      cases other with
      | allow => exact ⟨rfl, by simpa [Head.tokens] using same⟩
      | rowFilters expression => exact absurd same (differ (by decide))
      | columnMask expression => exact absurd same (differ (by decide))
  | rowFilters expression =>
      cases other with
      | allow => exact absurd same (differ (by decide))
      | rowFilters expression' =>
          simp only [Head.tokens, expressionTokens, List.cons_append, List.nil_append,
            List.cons.injEq, true_and] at same
          rw [literalToken_injective same.1]
          exact ⟨rfl, same.2⟩
      | columnMask expression' => exact absurd same (differ (by decide))
  | columnMask expression =>
      cases other with
      | allow => exact absurd same (differ (by decide))
      | rowFilters expression' => exact absurd same (differ (by decide))
      | columnMask expression' =>
          simp only [Head.tokens, expressionTokens, List.cons_append, List.nil_append,
            List.cons.injEq, true_and] at same
          rw [literalToken_injective same.1]
          exact ⟨rfl, same.2⟩

theorem prefixFree_codeTokens : PrefixFree codeTokens := by
  intro code other rest rest' same
  have starts : ∀ guard : Guard, ∃ first tail, guard.tokens = first :: tail ∧
      first ≠ Token.mark '\x7d' := by
    intro guard
    cases guard <;> exact ⟨_, _, rfl, by simp [wordToken]⟩
  simp only [codeTokens, List.append_assoc] at same
  rcases prefixFree_headTokens _ _ _ _ same with ⟨sameHead, sameBody⟩
  rcases prefixFree_guardTokens.terminated starts sameBody with ⟨sameGuards, sameRest⟩
  exact ⟨Prod.ext sameHead sameGuards, (List.cons.inj sameRest).2⟩

/-! ## The whole policy -/

/-- Tokens without the comments. -/
def withoutComments (tokens : List Token) : List Token :=
  tokens.filter fun token => !token.isComment

theorem codeTokens_withoutComments (code : Head × List Guard) :
    withoutComments (codeTokens code) = codeTokens code := by
  have vocabulary : ∀ token ∈ regoVocabulary, token.isComment = false := by decide +kernel
  apply List.filter_eq_self.mpr
  intro token member
  cases isLiteral : token.value? with
  | none =>
      rw [vocabulary token ((madeOf_code code).2 token member isLiteral)]
      rfl
  | some value =>
      cases token with
      | literal => rfl
      | _ => cases isLiteral

/-- Policies with the same code have the same rules up to comments. -/
theorem code_of_withoutComments {rules others : List Rule}
    (same : withoutComments (policyTokens others) = withoutComments (policyTokens rules)) :
    others.map Rule.code = rules.map Rule.code := by
  let encode : Head × List Guard → List Token := fun code =>
    [Token.newline, .newline] ++ codeTokens code ++ []
  have spelled : ∀ list : List Rule, withoutComments (list.flatMap Rule.tokens) =
      (list.map Rule.code).flatMap encode := by
    intro list
    induction list with
    | nil => rfl
    | cons rule list ih =>
        rw [List.flatMap_cons, List.map_cons, List.flatMap_cons, ← ih]
        simp only [encode, List.append_nil]
        conv_rhs => rw [← codeTokens_withoutComments rule.code]
        simp [withoutComments, Rule.tokens, Token.isComment]
  have code : PrefixFree encode := prefixFree_codeTokens.framed [.newline, .newline] []
  have nonempty : ∀ item, encode item ≠ [] := fun item => List.cons_ne_nil _ _
  apply code.flatMap_injective nonempty
  show (others.map Rule.code).flatMap encode = (rules.map Rule.code).flatMap encode
  rw [← spelled, ← spelled]
  simp only [withoutComments, policyTokens, List.filter_append] at same
  exact List.append_cancel_left same

/-- Scanning the policy of a declaration gives the header and the rules in order, whatever
its strings are.  Every string is the value of one literal or stands in a comment of one
line, all other tokens are fixed, and the code can be read as these rules only. -/
theorem compileRego_lexes (d : Declaration)
    (dotted : ∀ res ∈ d.resources, res.engineOrDefault = .trino → '.' ∈ res.resource.toList) :
    ∃ rules text, regoRules d = .ok rules ∧ compileRego d = .ok text ∧
      lex text.toList = some (policyTokens rules) ∧
      (∀ rule, rule ∈ rules ↔
        FromResource d rule ∨ ∃ cg ∈ d.catalogGrantList, rule ∈ catalogRules d cg) ∧
      (∀ rule ∈ rules, OneLine rule.comment ∧
        MadeOf (codeTokens rule.code) (codeStrings rule.code)) ∧
      ∀ others : List Rule,
        withoutComments (policyTokens others) = withoutComments (policyTokens rules) →
          others.map Rule.code = rules.map Rule.code := by
  rcases mem_regoRules fun res member isTrino => splitResource_of_dot (dotted res member isTrino)
    with ⟨rules, compiled, members⟩
  have oneLine : ∀ rule ∈ rules, OneLine rule.comment := by
    intro rule member
    rcases (members rule).mp member with ⟨_, _, _, _, _, _, _, _, ofGrant⟩ | ⟨_, _, ofCatalog⟩
    · exact oneLine_grantRules ofGrant
    · exact oneLine_catalogRules ofCatalog
  refine ⟨rules, Text.join "\n" (regoHeader ++ rules.flatMap Rule.lines), compiled, ?_, ?_,
    members, fun rule member => ⟨oneLine rule member, madeOf_code rule.code⟩,
    fun others same => code_of_withoutComments same⟩
  · rw [compileRego, compiled]
    rfl
  · exact (scans_policy oneLine).lex

theorem compileRego_lexes_breaks : ∃ rules text,
    regoRules
        { roles := [], groups := [],
          resources := [⟨"lake\n.\"e\"", .internal, [
            { roles := ["a\"\n\x7d"], privileges := [.select],
              rowFilter := some "x\"\x7d if \x7b\n" }],
            none, none⟩] } = .ok rules ∧
      lex (text : String).toList = some (policyTokens rules) := by
  rcases compileRego_lexes
    { roles := [], groups := [],
      resources := [⟨"lake\n.\"e\"", .internal, [
        { roles := ["a\"\n\x7d"], privileges := [.select],
          rowFilter := some "x\"\x7d if \x7b\n" }],
        none, none⟩] } (by decide) with
    ⟨rules, text, compiled, _, lexed, _⟩
  exact ⟨rules, text, compiled, lexed⟩

end BelugaManager.PolicyCompiler
