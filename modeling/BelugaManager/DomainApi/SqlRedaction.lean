import BelugaManager.DomainApi.SqlTokens
import Mathlib.Data.List.DropRight

/-!
# Redaction of literals in SQL

`redactSqlLiterals` of `sqlRedaction.ts`, a scanner in one pass.  It shows what the
tokens of the input show, so that literals and comments leave no trace; an identifier
that is left open does.
-/

namespace BelugaManager.DomainApi

open Foundation Foundation.JsString

/-- The loop inside quotes: the input after the closing quote. -/
def skipQuoted (quote : UInt16) : JsString → JsString
  | [] => []
  | [_] => []
  | unit :: next :: rest =>
      if unit = quote then
        if next = quote then skipQuoted quote rest else next :: rest
      else skipQuoted quote (next :: rest)

/-- The input after the first mark that closes a comment, or its end. -/
def afterMark : JsString → JsString
  | [] => []
  | [_] => []
  | unit :: next :: rest =>
      if unit = asterisk ∧ next = slash then rest else afterMark (next :: rest)

def questionMark : UInt16 := ofChar '?'

theorem length_skipQuoted (quote : UInt16) (s : JsString) :
    (skipQuoted quote s).length ≤ s.length := by
  fun_induction skipQuoted quote s with
  | case1 => rfl
  | case2 => simp
  | case3 rest ih => simp; omega
  | case4 next rest other => simp
  | case5 unit next rest other ih => simp at ih ⊢; omega

theorem length_afterMark (s : JsString) : (afterMark s).length ≤ s.length := by
  fun_induction afterMark s with
  | case1 => rfl
  | case2 => simp
  | case3 unit next rest marks => simp; omega
  | case4 unit next rest other ih => simp at ih ⊢; omega

/-- The main loop, with what it has put out. -/
def scan (out : JsString) : JsString → JsString
  | [] => out
  | ch :: rest =>
      if ch = singleQuote then scan (out ++ [questionMark]) (skipQuoted singleQuote rest)
      else if ch = doubleQuote then
        let after := skipQuoted doubleQuote rest
        scan (out ++ (ch :: rest).take ((ch :: rest).length - after.length)) after
      else if ch = hyphen ∧ rest.head? = some hyphen then
        scan (out ++ [space]) (rest.dropWhile (· ≠ lineFeed))
      else if ch = slash ∧ rest.head? = some asterisk then
        scan (out ++ [space]) (afterMark rest.tail)
      else if isDigitUnit ch ∧ ¬ out.getLast?.any isWordUnit then
        scan (out ++ [questionMark]) (rest.dropWhile isNumberUnit)
      else scan (out ++ [ch]) rest
termination_by s => s.length
decreasing_by
  · have := length_skipQuoted singleQuote rest
    simp
    omega
  · have := length_skipQuoted doubleQuote rest
    simp
    omega
  · exact Nat.lt_succ_of_le (List.dropWhile_suffix _).length_le
  · have := length_afterMark rest.tail
    simp at this ⊢
    omega
  · exact Nat.lt_succ_of_le (List.dropWhile_suffix _).length_le
  · simp

def redactSqlLiterals (sql : JsString) : JsString := trim (scan [] sql)

/-! ## What tokens show -/

/-- What is put out for a token. -/
def Token.shown : Token → JsString
  | .text unit => [unit]
  | .string _ _ => [questionMark]
  | .identifier body closed => (Token.identifier body closed).source
  | .lineComment _ => [space]
  | .blockComment _ _ => [space]
  | .number _ => [questionMark]

theorem skipQuoted_eq (quote : UInt16) (s : JsString) :
    skipQuoted quote s = (quoted quote s).2.getD [] := by
  fun_induction skipQuoted quote s with
  | case1 => rfl
  | case2 unit => by_cases closes : unit = quote <;> simp [quoted, closes]
  | case3 rest ih => simpa [quoted] using ih
  | case4 next rest other => simp [quoted, other]
  | case5 unit next rest other ih => simpa [quoted, other] using ih

theorem afterMark_eq (s : JsString) : afterMark s = (untilMark s).2.getD [] := by
  fun_induction afterMark s with
  | case1 => rfl
  | case2 unit => rfl
  | case3 unit next rest marks => simp [untilMark, marks]
  | case4 unit next rest other ih => simpa [untilMark, other] using ih

/-- One round of the loop puts out what the next token shows. -/
theorem scan_cons {out : JsString} {previous : Option UInt16} {ch : UInt16} {rest : JsString}
    (agree : isDigitUnit ch = true → out.getLast?.any isWordUnit = continuesWord previous) :
    scan out (ch :: rest) =
      scan (out ++ (nextToken previous ch rest).1.shown) (nextToken previous ch rest).2 := by
  rw [scan, nextToken]
  split_ifs with string identifier line block number number' number'
  · rw [closing, skipQuoted_eq]
    rfl
  · have token := nextToken_source previous ch rest
    rw [nextToken, if_neg string, if_pos identifier] at token
    have shown : (ch :: rest).take ((ch :: rest).length - (skipQuoted doubleQuote rest).length) =
        (closing Token.identifier (quoted doubleQuote rest)).1.source := by
      rw [skipQuoted_eq, ← token]
      simp [closing]
    simp only [shown]
    rw [skipQuoted_eq]
    rfl
  · rcases List.head?_eq_some_iff.mp line.2 with ⟨later, rfl⟩
    have mark : hyphen ≠ lineFeed := by decide
    rw [List.dropWhile_cons_of_pos (by simpa using mark)]
    rfl
  · rw [closing, afterMark_eq]
    rfl
  · rfl
  · exact absurd ⟨number.1, by simpa [agree number.1] using number.2⟩ number'
  · exact absurd ⟨number'.1, by simpa [agree number'.1] using number'.2⟩ number
  · rfl

/-- Whether a text starts with a digit. -/
def startsWithDigit (s : JsString) : Prop := ∃ unit ∈ s.head?, isDigitUnit unit = true

theorem not_startsWithDigit_dropWhile {p : UInt16 → Bool} (s : JsString)
    (covers : ∀ unit, isDigitUnit unit = true → p unit = true) :
    ¬ startsWithDigit (s.dropWhile p) := by
  rintro ⟨unit, first, isDigit⟩
  have stays := List.head?_dropWhile_not p s
  rw [Option.mem_def.mp first] at stays
  exact Bool.noConfusion (stays.symm.trans (covers unit isDigit))

theorem isDigitUnit_ne_lineFeed {unit : UInt16} (isDigit : isDigitUnit unit = true) :
    decide (unit ≠ lineFeed) = true := by
  apply decide_eq_true
  rintro rfl
  exact absurd isDigit (by decide)

theorem isNumberUnit_of_isDigitUnit {unit : UInt16} (isDigit : isDigitUnit unit = true) :
    isNumberUnit unit = true := by
  simp [isNumberUnit, isNameUnit, isDigit]

/-- The unit that a closed token ends with. -/
theorem getLast?_source_closed (body : JsString) :
    (Token.string body true).source.getLast? = some singleQuote ∧
      (Token.identifier body true).source.getLast? = some doubleQuote ∧
      (Token.blockComment body true).source.getLast? = some slash := by
  refine ⟨List.getLast?_concat, List.getLast?_concat, ?_⟩
  exact List.getLast?_append_of_ne_nil (slash :: asterisk :: body)
    (List.cons_ne_nil asterisk [slash])

/-- After a token, what is put out and what was read agree on whether a digit goes on with a
name, or no digit follows. -/
theorem agree_after (previous : Option UInt16) (ch : UInt16) (rest out : JsString)
    (digit : startsWithDigit (nextToken previous ch rest).2) :
    (out ++ (nextToken previous ch rest).1.shown).getLast?.any isWordUnit =
      continuesWord (nextToken previous ch rest).1.source.getLast? := by
  have last : ∀ unit, (out ++ [unit]).getLast? = some unit := fun unit => List.getLast?_concat
  revert digit
  rw [nextToken]
  split_ifs with string identifier line block number
  · cases found : (quoted singleQuote rest).2 with
    | none => simp [closing, found, startsWithDigit]
    | some after =>
        intro _
        simp only [closing, found, Option.isSome_some, Token.shown, last,
          (getLast?_source_closed _).1]
        decide
  · cases found : (quoted doubleQuote rest).2 with
    | none => simp [closing, found, startsWithDigit]
    | some after =>
        intro _
        have nonempty : (Token.identifier (quoted doubleQuote rest).1 true).source ≠ [] :=
          List.cons_ne_nil _ _
        simp only [closing, found, Option.isSome_some, Token.shown,
          List.getLast?_append_of_ne_nil _ nonempty]
        rfl
  · intro digit
    exact absurd digit (not_startsWithDigit_dropWhile _ fun _ => isDigitUnit_ne_lineFeed)
  · cases found : (untilMark rest.tail).2 with
    | none => simp [closing, found, startsWithDigit]
    | some after =>
        intro _
        simp only [closing, found, Option.isSome_some, Token.shown, last,
          (getLast?_source_closed _).2.2]
        decide
  · intro digit
    exact absurd digit (not_startsWithDigit_dropWhile _ fun _ => isNumberUnit_of_isDigitUnit)
  · intro _
    simp only [Token.shown, last, Token.source]
    rfl

/-- The scanner puts out what the tokens show. -/
theorem scan_eq (s : JsString) : ∀ (out : JsString) (previous : Option UInt16),
    (startsWithDigit s → out.getLast?.any isWordUnit = continuesWord previous) →
      scan out s = out ++ (lexFrom previous s).flatMap Token.shown := by
  induction length : s.length using Nat.strong_induction_on generalizing s with
  | _ bound ih =>
      intro out previous agree
      cases s with
      | nil => simp [scan, lexFrom]
      | cons ch rest =>
          have shorter := nextToken_shorter previous ch rest
          rw [scan_cons fun isDigit => agree ⟨ch, rfl, isDigit⟩, lexFrom, List.flatMap_cons,
            ih _ (by rw [← length]; exact shorter) _ rfl _ _ fun digit =>
            agree_after previous ch rest out digit,
            List.append_assoc]

theorem redactSqlLiterals_eq (sql : JsString) :
    redactSqlLiterals sql = trim ((lex sql).flatMap Token.shown) := by
  have whole := scan_eq sql [] none fun _ => rfl
  rw [redactSqlLiterals, whole]
  rfl

/-! ## What the output depends on -/

/-- A token without the contents that redaction is about. -/
def Token.erased : Token → Token
  | .text unit => .text unit
  | .string _ closed => .string [] closed
  | .identifier body closed => .identifier (if closed then body else []) closed
  | .lineComment _ => .lineComment []
  | .blockComment _ closed => .blockComment [] closed
  | .number _ => .number []

/-- Inputs that differ only in the contents of literals, comments and quoted constructs
that are left open. -/
def SameStructure (sql sql' : JsString) : Prop :=
  (lex sql).map Token.erased = (lex sql').map Token.erased

instance (sql sql' : JsString) : Decidable (SameStructure sql sql') :=
  inferInstanceAs (Decidable (_ = _))

/-- A text without its white space. -/
def visible (s : JsString) : JsString := s.filter (!isSpaceUnit ·)

/-- Nothing of what stands in a construct that is left open is put out. -/
def HidesOpen (sql : JsString) : Prop :=
  ∀ shown last, lex sql = shown ++ [last] → last.isOpen = true →
    redactSqlLiterals sql = trim (shown.flatMap Token.shown ++ last.erased.shown)

/-- Equal up to white space. -/
def UpToSpace (s s' : JsString) : Prop := visible s = visible s'

/-- Two inputs are redacted alike, nothing that is left open is shown, and redacting once more
changes nothing. -/
structure FailsClosed (sql sql' : JsString) : Prop where
  agree : UpToSpace (redactSqlLiterals sql) (redactSqlLiterals sql')
  hidden : HidesOpen sql ∧ HidesOpen sql'
  again : ∀ input ∈ [sql, sql'],
    redactSqlLiterals (redactSqlLiterals input) = redactSqlLiterals input

/-- The text of an identifier that is left open, if a list of tokens ends in one. -/
def openIdentifier : List Token → JsString
  | [] => []
  | [.identifier body false] => body
  | _ :: rest => openIdentifier rest

theorem visible_append (s s' : JsString) : visible (s ++ s') = visible s ++ visible s' :=
  List.filter_append s s'

theorem visible_dropWhile (s : JsString) : visible (s.dropWhile isSpaceUnit) = visible s := by
  induction s with
  | nil => rfl
  | cons unit rest ih =>
      cases isSpace : isSpaceUnit unit with
      | true =>
          rw [List.dropWhile_cons_of_pos isSpace, ih, visible, visible,
            List.filter_cons_of_neg (by simp [isSpace])]
      | false => rw [List.dropWhile_cons_of_neg (by simp [isSpace])]

theorem visible_trim (s : JsString) : visible (trim s) = visible s := by
  have reversed : ∀ s : JsString, visible s.reverse = (visible s).reverse := fun _ =>
    List.filter_reverse
  rw [trim, reversed, visible_dropWhile, reversed, List.reverse_reverse, visible_dropWhile]

/-- Tokens that agree but for contents show the same, an open identifier apart. -/
theorem shown_eq_of_erased {token other : Token} (same : token.erased = other.erased)
    (closed : token.isOpen = false) : token.shown = other.shown := by
  cases token <;> cases other <;> simp_all [Token.erased, Token.shown, Token.isOpen, Token.source]

theorem openIdentifier_cons (token second : Token) (rest : List Token) :
    openIdentifier (token :: second :: rest) = openIdentifier (second :: rest) := by
  cases token with
  | identifier body closed => cases closed <;> rfl
  | _ => rfl

/-- An identifier that is left open shows all it has. -/
theorem shown_agree_single {token other : Token} (same : token.erased = other.erased) :
    UpToSpace token.shown other.shown ↔
      UpToSpace (openIdentifier [token]) (openIdentifier [other]) := by
  cases token with
  | identifier body closed =>
      cases closed with
      | true =>
          rw [shown_eq_of_erased same rfl]
          cases other <;> simp_all [Token.erased, openIdentifier, UpToSpace]
      | false =>
          cases other with
          | identifier body' closed' =>
              simp only [Token.erased, Token.identifier.injEq] at same
              rw [← same.2, openIdentifier, openIdentifier, UpToSpace, Token.shown, Token.shown,
                Token.source, Token.source]
              simp only [visible_append, List.append_cancel_right_eq]
              rw [← List.singleton_append, visible_append, ← List.singleton_append (l := body'),
                visible_append, List.append_cancel_left_eq]
              rfl
          | _ => simp [Token.erased] at same
  | _ => cases other <;> simp_all [Token.erased, Token.shown, openIdentifier, UpToSpace]

/-- What tokens show agrees up to white space exactly when the open identifiers do. -/
theorem shown_agree_iff {tokens others : List Token}
    (closed : ∀ token ∈ tokens.dropLast, token.isOpen = false)
    (same : tokens.map Token.erased = others.map Token.erased) :
    UpToSpace (tokens.flatMap Token.shown) (others.flatMap Token.shown) ↔
      UpToSpace (openIdentifier tokens) (openIdentifier others) := by
  induction tokens generalizing others with
  | nil =>
      rw [List.map_nil] at same
      rw [List.map_eq_nil_iff.mp same.symm]
      exact iff_of_true rfl rfl
  | cons token rest ih =>
      cases others with
      | nil => simp at same
      | cons other others =>
          rw [List.map_cons, List.map_cons, List.cons.injEq] at same
          cases rest with
          | nil =>
              rw [List.map_nil] at same
              rw [List.map_eq_nil_iff.mp same.2.symm]
              simp only [List.flatMap_cons, List.flatMap_nil, List.append_nil]
              exact shown_agree_single same.1
          | cons second rest =>
              cases others with
              | nil => simp at same
              | cons second' others =>
                  have here := shown_eq_of_erased same.1 (closed token (by simp))
                  have later := ih (fun token member => closed token (by
                    rw [List.dropLast_cons_of_ne_nil (List.cons_ne_nil _ _)]
                    exact List.mem_cons_of_mem _ member)) same.2
                  rw [openIdentifier_cons, openIdentifier_cons, ← later, UpToSpace, UpToSpace,
                    @List.flatMap_cons _ _ token, @List.flatMap_cons _ _ other, here,
                    visible_append,
                    visible_append, List.append_cancel_left_eq]

/-! ## Redacted text -/

/-- Tokens that redaction leaves alone. -/
def Token.isKept : Token → Bool
  | .text _ => true
  | .identifier _ _ => true
  | _ => false

/-- A text in which there is nothing to redact. -/
def Redacted (previous : Option UInt16) (s : JsString) : Prop :=
  ∀ token ∈ lexFrom previous s, token.isKept = true

theorem shown_of_isKept {token : Token} (kept : token.isKept = true) :
    token.shown = token.source := by
  cases token <;> simp_all [Token.isKept, Token.shown, Token.source]

theorem shown_of_redacted {previous : Option UInt16} {s : JsString}
    (redacted : Redacted previous s) :
    (lexFrom previous s).flatMap Token.shown = s := by
  have sources := source_lexFrom previous s
  rwa [← List.flatMap_congr fun token member => shown_of_isKept (redacted token member)] at sources

theorem redacted_nil (previous : Option UInt16) : Redacted previous [] := by
  rw [Redacted, lexFrom]
  exact fun _ member => absurd member List.not_mem_nil

theorem redacted_cons (previous : Option UInt16) (unit : UInt16) (rest : JsString) :
    Redacted previous (unit :: rest) ↔ (nextToken previous unit rest).1.isKept = true ∧
      Redacted (nextToken previous unit rest).1.source.getLast?
      (nextToken previous unit rest).2 := by
  rw [Redacted, lexFrom, List.forall_mem_cons]
  rfl

/-- A unit that starts no token of its own is read as it is. -/
theorem nextToken_text {previous : Option UInt16} {unit : UInt16} {rest : JsString}
    (noString : unit ≠ singleQuote) (noIdentifier : unit ≠ doubleQuote)
    (noLine : ¬ (unit = hyphen ∧ rest.head? = some hyphen))
    (noBlock : ¬ (unit = slash ∧ rest.head? = some asterisk))
    (noNumber : ¬ (isDigitUnit unit = true ∧ continuesWord previous = false)) :
    nextToken previous unit rest = (.text unit, rest) := by
  rw [nextToken, if_neg noString, if_neg noIdentifier, if_neg noLine, if_neg noBlock,
    if_neg noNumber]

/-- The two ways in which a kept token is read. -/
theorem nextToken_kept {previous : Option UInt16} {unit : UInt16} {rest : JsString}
    (kept : (nextToken previous unit rest).1.isKept = true) :
    unit ≠ singleQuote ∧ (unit = doubleQuote ∨
      unit ≠ doubleQuote ∧ ¬ (unit = hyphen ∧ rest.head? = some hyphen) ∧
        ¬ (unit = slash ∧ rest.head? = some asterisk) ∧
        ¬ (isDigitUnit unit = true ∧ continuesWord previous = false)) := by
  revert kept
  rw [nextToken]
  split_ifs with string identifier line block number
  · simp [closing, Token.isKept]
  · exact fun _ => ⟨string, Or.inl identifier⟩
  · simp [Token.isKept]
  · simp [closing, Token.isKept]
  · simp [Token.isKept]
  · exact fun _ => ⟨string, Or.inr ⟨identifier, line, block, number⟩⟩

theorem nextToken_identifier (previous : Option UInt16) (rest : JsString) :
    nextToken previous doubleQuote rest = closing .identifier (quoted doubleQuote rest) := by
  have differs : doubleQuote ≠ singleQuote := by decide
  rw [nextToken, if_neg differs, if_pos rfl]

/-- The start of a redacted text is redacted. -/
theorem redacted_of_append {previous : Option UInt16} {s later : JsString}
    (redacted : Redacted previous (s ++ later)) : Redacted previous s := by
  induction length : s.length using Nat.strong_induction_on generalizing s previous with
  | _ bound ih =>
      cases s with
      | nil => exact redacted_nil previous
      | cons unit rest =>
          rw [List.cons_append, redacted_cons] at redacted
          rcases redacted with ⟨kept, redactedLater⟩
          rcases nextToken_kept kept with
            ⟨noString, rfl | ⟨noIdentifier, noLine, noBlock, noNumber⟩⟩
          · rw [redacted_cons, nextToken_identifier]
            refine ⟨rfl, ?_⟩
            rw [nextToken_identifier] at redactedLater
            cases found : (quoted doubleQuote rest).2 with
            | none => simpa [closing, found] using redacted_nil _
            | some after =>
                by_cases ended : after = []
                · simpa [closing, found, ended] using redacted_nil _
                · rw [quoted_append found ended later] at redactedLater
                  simp only [closing, found, Option.isSome_some, Option.getD_some]
                    at redactedLater ⊢
                  apply ih after.length _ redactedLater rfl
                  have whole := congrArg List.length (quoted_source doubleQuote rest)
                  simp only [found, Option.map_some, Option.getD_some, List.length_append,
                    List.length_cons] at whole
                  simp only [List.length_cons] at length
                  omega
          · have head : ∀ first, rest.head? = some first → (rest ++ later).head? = some first := by
              intro first isFirst
              rw [List.head?_append, isFirst]
              rfl
            rw [nextToken_text noString noIdentifier noLine noBlock noNumber] at redactedLater
            rw [redacted_cons, nextToken_text noString noIdentifier
              (fun line => noLine ⟨line.1, head _ line.2⟩)
              (fun block => noBlock ⟨block.1, head _ block.2⟩)
              noNumber]
            have shorter : rest.length < bound := by
              simp only [List.length_cons] at length
              omega
            exact ⟨rfl, ih rest.length shorter redactedLater rfl⟩

/-- White space starts no token and ends no word. -/
theorem isSpaceUnit_facts {unit : UInt16} (isSpace : isSpaceUnit unit = true) :
    unit ≠ singleQuote ∧ unit ≠ doubleQuote ∧ unit ≠ hyphen ∧ unit ≠ slash ∧
      isDigitUnit unit = false ∧ isWordUnit unit = false := by
  refine ⟨?_, ?_, ?_, ?_, ?_, ?_⟩
  · rintro rfl
    exact absurd isSpace (by decide)
  · rintro rfl
    exact absurd isSpace (by decide)
  · rintro rfl
    exact absurd isSpace (by decide)
  · rintro rfl
    exact absurd isSpace (by decide)
  · simp [isSpaceUnit] at isSpace
    simp [isDigitUnit]
    omega
  · simp [isSpaceUnit] at isSpace
    simp [isWordUnit, isNameUnit, isDigitUnit, ← UInt16.toNat_inj, ofChar]
    omega

theorem redacted_dropWhile {s : JsString} (redacted : Redacted none s) :
    Redacted none (s.dropWhile isSpaceUnit) := by
  induction s with
  | nil => exact redacted
  | cons unit rest ih =>
      cases isSpace : isSpaceUnit unit with
      | false => rwa [List.dropWhile_cons_of_neg (by simp [isSpace])]
      | true =>
          rw [List.dropWhile_cons_of_pos isSpace]
          apply ih
          rcases isSpaceUnit_facts isSpace with
            ⟨noString, noIdentifier, noLine, noBlock, noDigit, noWord⟩
          rw [redacted_cons, nextToken_text noString noIdentifier (fun line => noLine line.1)
            (fun block => noBlock block.1) (by simp [noDigit])] at redacted
          have blank : continuesWord (some unit) = continuesWord none := by
            simp [continuesWord, noWord]
          have later := redacted.2
          rwa [Redacted, Token.source, List.getLast?_singleton, lexFrom_congr rest blank] at later

theorem redacted_trim {s : JsString} (redacted : Redacted none s) : Redacted none (trim s) := by
  have isPrefix : trim s <+: s.dropWhile isSpaceUnit := by
    rw [trim, ← List.reverse_suffix, List.reverse_reverse]
    exact List.dropWhile_suffix _
  rcases isPrefix with ⟨later, joined⟩
  have whole := redacted_dropWhile redacted
  rw [← joined] at whole
  exact redacted_of_append whole

/-- What is shown starts like the input, or with a mark. -/
theorem head?_shown {previous : Option UInt16} {s : JsString} {first : UInt16}
    (isFirst : ((lexFrom previous s).flatMap Token.shown).head? = some first) :
    first = questionMark ∨ first = space ∨ s.head? = some first := by
  cases s with
  | nil => simp [lexFrom] at isFirst
  | cons unit rest =>
      have source := nextToken_source previous unit rest
      rw [lexFrom, List.flatMap_cons] at isFirst
      cases token : (nextToken previous unit rest).1 with
      | text shown =>
          rw [token] at isFirst source
          exact Or.inr (Or.inr (by simpa [Token.source, Token.shown, ← source] using isFirst))
      | string body closed =>
          rw [token] at isFirst
          exact Or.inl (Option.some.inj isFirst).symm
      | identifier body closed =>
          rw [token] at isFirst source
          exact Or.inr (Or.inr (by simpa [Token.source, Token.shown, ← source] using isFirst))
      | lineComment body =>
          rw [token] at isFirst
          exact Or.inr (Or.inl (Option.some.inj isFirst).symm)
      | blockComment body closed =>
          rw [token] at isFirst
          exact Or.inr (Or.inl (Option.some.inj isFirst).symm)
      | number body =>
          rw [token] at isFirst
          exact Or.inl (Option.some.inj isFirst).symm

/-- A mark is read as it is. -/
theorem nextToken_mark {mark : UInt16} (isMark : mark = questionMark ∨ mark = space)
    (previous : Option UInt16) (rest : JsString) :
    nextToken previous mark rest = (.text mark, rest) := by
  rcases isMark with rfl | rfl
  · apply nextToken_text (by decide) (by decide)
    · exact fun line => absurd line.1 (by decide)
    · exact fun block => absurd block.1 (by decide)
    · exact fun number => absurd number.1 (by decide)
  · apply nextToken_text (by decide) (by decide)
    · exact fun line => absurd line.1 (by decide)
    · exact fun block => absurd block.1 (by decide)
    · exact fun number => absurd number.1 (by decide)

/-- What is shown of a text token and what follows it starts no other token. -/
theorem redacted_text {previous other : Option UInt16} {unit : UInt16} {rest : JsString}
    (token : nextToken previous unit rest = (.text unit, rest))
    (agree : isDigitUnit unit = true → continuesWord other = continuesWord previous)
    (later : Redacted (some unit) ((lexFrom (some unit) rest).flatMap Token.shown)) :
    Redacted other (unit :: (lexFrom (some unit) rest).flatMap Token.shown) := by
  have kept : (nextToken previous unit rest).1.isKept = true := by
    rw [token]
    rfl
  rcases nextToken_kept kept with ⟨noString, rfl | ⟨noIdentifier, noLine, noBlock, noNumber⟩⟩
  · rw [nextToken_identifier, closing, Prod.mk.injEq] at token
    exact Token.noConfusion token.1
  · have read : nextToken other unit ((lexFrom (some unit) rest).flatMap Token.shown) =
        (.text unit, (lexFrom (some unit) rest).flatMap Token.shown) := by
      apply nextToken_text noString noIdentifier
      · rintro ⟨rfl, first⟩
        rcases head?_shown first with mark | mark | same
        · exact absurd mark (by decide)
        · exact absurd mark (by decide)
        · exact noLine ⟨rfl, same⟩
      · rintro ⟨rfl, first⟩
        rcases head?_shown first with mark | mark | same
        · exact absurd mark (by decide)
        · exact absurd mark (by decide)
        · exact noBlock ⟨rfl, same⟩
      · rintro ⟨isDigit, noWord⟩
        exact noNumber ⟨isDigit, (agree isDigit).symm.trans noWord⟩
    rw [redacted_cons, read]
    exact ⟨rfl, later⟩

/-- What is shown of an identifier is read as the identifier. -/
theorem redacted_identifier {previous : Option UInt16} {rest : JsString} {out : JsString}
    (start : out.head? ≠ some doubleQuote)
    (ends : (quoted doubleQuote rest).2 = none → out = [])
    (later : Redacted (some doubleQuote) out) :
    Redacted previous ((closing .identifier (quoted doubleQuote rest)).1.source ++ out) := by
  cases found : (quoted doubleQuote rest).2 with
  | none =>
      have whole := quoted_source doubleQuote rest
      rw [found, Option.map_none, Option.getD_none, List.append_nil] at whole
      rw [ends found, closing, found, List.append_nil]
      simp only [Option.isSome_none, Token.source, whole, Bool.false_eq_true, if_false,
        List.append_nil]
      rw [redacted_cons, nextToken_identifier, closing, found]
      exact ⟨rfl, redacted_nil _⟩
  | some after =>
      have read := quoted_replace found start
      rw [closing, found]
      simp only [Option.isSome_some, Token.source, if_true, List.cons_append, List.append_assoc,
        List.nil_append]
      rw [redacted_cons, nextToken_identifier, closing, read]
      refine ⟨rfl, ?_⟩
      simpa only [Option.isSome_some, Option.getD_some, (getLast?_source_closed _).2.1] using later

/-- In what is shown there is nothing left to redact. -/
theorem redacted_shown (s : JsString) : ∀ previous other : Option UInt16,
    (startsWithDigit s → continuesWord other = continuesWord previous) →
      Redacted other ((lexFrom previous s).flatMap Token.shown) := by
  induction length : s.length using Nat.strong_induction_on generalizing s with
  | _ bound ih =>
      intro previous other agree
      cases s with
      | nil => simpa [lexFrom] using redacted_nil other
      | cons unit rest =>
          have later : ∀ last : Option UInt16, (startsWithDigit (nextToken previous unit rest).2 →
              continuesWord last = continuesWord (nextToken previous unit rest).1.source.getLast?) →
              Redacted last ((lexFrom (nextToken previous unit rest).1.source.getLast?
                (nextToken previous unit rest).2).flatMap Token.shown) := by
            apply ih _ (by rw [← length]; exact nextToken_shorter previous unit rest) _ rfl
          have marked : ∀ mark : UInt16, mark = questionMark ∨ mark = space →
              (nextToken previous unit rest).1.shown = [mark] →
              Redacted other ((nextToken previous unit rest).1.shown ++
                (lexFrom (nextToken previous unit rest).1.source.getLast?
                  (nextToken previous unit rest).2).flatMap Token.shown) := by
            intro mark isMark shown
            rw [shown, List.singleton_append, redacted_cons, nextToken_mark isMark]
            refine ⟨rfl, later (some mark) ?_⟩
            intro digit
            have after := agree_after previous unit rest [] digit
            rwa [shown] at after
          rw [lexFrom, List.flatMap_cons]
          cases token : (nextToken previous unit rest).1 with
          | string body closed =>
              rw [← token]
              exact marked _ (Or.inl rfl) (by rw [token]; rfl)
          | lineComment body =>
              rw [← token]
              exact marked _ (Or.inr rfl) (by rw [token]; rfl)
          | blockComment body closed =>
              rw [← token]
              exact marked _ (Or.inr rfl) (by rw [token]; rfl)
          | number body =>
              rw [← token]
              exact marked _ (Or.inl rfl) (by rw [token]; rfl)
          | text shown =>
              have source := nextToken_source previous unit rest
              rw [token, Token.source, List.singleton_append, List.cons.injEq] at source
              have read : nextToken previous unit rest = (.text unit, rest) :=
                Prod.ext (by rw [token, source.1]) source.2
              have tail := later (some unit) (by simp [read, Token.source])
              rw [read, Token.source, List.getLast?_singleton] at tail
              rw [source.1, source.2]
              exact redacted_text read (fun isDigit => agree ⟨unit, rfl, isDigit⟩) tail
          | identifier body closed =>
              have kept : (nextToken previous unit rest).1.isKept = true := by
                rw [token]
                rfl
              rcases nextToken_kept kept with
                ⟨noString, rfl | ⟨noIdentifier, noLine, noBlock, noNumber⟩⟩
              · rw [nextToken_identifier] at later
                rw [← token, nextToken_identifier]
                apply redacted_identifier
                · intro start
                  rcases head?_shown start with mark | mark | same
                  · exact absurd mark (by decide)
                  · exact absurd mark (by decide)
                  · cases found : (quoted doubleQuote rest).2 with
                    | none => simp [closing, found] at same
                    | some after =>
                        exact head?_of_quoted found (by simpa [closing, found] using same)
                · intro found
                  simp [closing, found, lexFrom]
                · apply later
                  intro digit
                  cases found : (quoted doubleQuote rest).2 with
                  | none => simp [closing, found, startsWithDigit] at digit
                  | some after =>
                      simp only [closing, found, Option.isSome_some, (getLast?_source_closed _).2.1]
              · rw [nextToken_text noString noIdentifier noLine noBlock noNumber] at token
                exact Token.noConfusion token

theorem trim_trim (s : JsString) : trim (trim s) = trim s := by
  have start : (trim s).dropWhile isSpaceUnit = trim s := by
    have isPrefix : trim s <+: s.dropWhile isSpaceUnit := by
      rw [trim, ← List.reverse_suffix, List.reverse_reverse]
      exact List.dropWhile_suffix _
    cases core : trim s with
    | nil => rfl
    | cons unit rest =>
        rw [core] at isPrefix
        rcases isPrefix with ⟨later, joined⟩
        have stays := List.head?_dropWhile_not isSpaceUnit s
        rw [← joined] at stays
        have noSpace : isSpaceUnit unit = false := stays
        rw [List.dropWhile_cons_of_neg (by simp [noSpace])]
  rw [trim, start, trim, List.reverse_reverse, List.dropWhile_idempotent]

/-- Redacting once more changes nothing. -/
theorem redactSqlLiterals_idempotent (sql : JsString) :
    redactSqlLiterals (redactSqlLiterals sql) = redactSqlLiterals sql := by
  have redacted := redacted_trim (redacted_shown sql none none fun _ => rfl)
  have shown := shown_of_redacted redacted
  rw [redactSqlLiterals_eq (redactSqlLiterals sql), redactSqlLiterals_eq sql]
  simp only [lex]
  rw [shown, trim_trim]

/-! ## What is left open -/

theorem openIdentifier_concat (tokens : List Token) (last : Token) :
    openIdentifier (tokens ++ [last]) = openIdentifier [last] := by
  induction tokens with
  | nil => rfl
  | cons token rest ih =>
      cases joined : rest ++ [last] with
      | nil => simp at joined
      | cons second later => rw [List.cons_append, joined, openIdentifier_cons, ← joined, ih]

theorem visible_eq_nil_iff (s : JsString) :
    visible s = [] ↔ ∀ unit ∈ s, isSpaceUnit unit = true := by
  simp [visible]

theorem dropWhile_reverse_append {s blank : JsString}
    (spaces : ∀ unit ∈ blank, isSpaceUnit unit = true) :
    (s ++ blank).reverse.dropWhile isSpaceUnit = s.reverse.dropWhile isSpaceUnit := by
  rw [List.reverse_append, List.dropWhile_append_of_pos]
  intro unit member
  exact spaces unit (List.mem_reverse.mp member)

theorem trim_append_spaces {s blank : JsString}
    (spaces : ∀ unit ∈ blank, isSpaceUnit unit = true) : trim (s ++ blank) = trim s := by
  rw [trim, trim, List.dropWhile_append]
  split_ifs with empty
  · rw [List.isEmpty_iff] at empty
    rw [empty, List.dropWhile_eq_nil_iff.mpr spaces]
  · rw [dropWhile_reverse_append spaces]

/-- What is left open is shown where it is an identifier that has more than white space. -/
theorem hidesOpen_iff (sql : JsString) :
    HidesOpen sql ↔ visible (openIdentifier (lex sql)) = [] := by
  have output : ∀ shown last, lex sql = shown ++ [last] →
      redactSqlLiterals sql = trim (shown.flatMap Token.shown ++ last.shown) := by
    intro shown last tokens
    rw [redactSqlLiterals_eq, tokens, List.flatMap_append, List.flatMap_singleton]
  have quoteSeen : ∀ body, visible (doubleQuote :: body) = doubleQuote :: visible body := by
    intro body
    rw [visible, List.filter_cons_of_pos (by decide)]
    rfl
  constructor
  · intro hides
    rcases List.eq_nil_or_concat (lex sql) with nothing | ⟨shown, last, tokens⟩
    · rw [nothing]
      rfl
    · rw [List.concat_eq_append] at tokens
      rw [tokens, openIdentifier_concat]
      cases last with
      | identifier body closed =>
          cases closed with
          | true => rfl
          | false =>
              have same := congrArg visible (hides shown _ tokens rfl)
              rw [output shown _ tokens, visible_trim, visible_trim, visible_append, visible_append,
                List.append_cancel_left_eq] at same
              simp only [Token.shown, Token.erased, Token.source, Bool.false_eq_true, if_false,
                List.append_nil, quoteSeen, List.cons.injEq, true_and] at same
              exact same
      | _ => rfl
  · intro blank shown last tokens isOpen
    rw [output shown last tokens]
    rw [tokens, openIdentifier_concat] at blank
    cases last with
    | identifier body closed =>
        cases closed with
        | true => exact Bool.noConfusion isOpen
        | false =>
            have spaces := (visible_eq_nil_iff body).mp blank
            have written : (Token.identifier body false).shown = [doubleQuote] ++ body := by
              simp [Token.shown, Token.source]
            rw [written, ← List.append_assoc, trim_append_spaces spaces]
            rfl
    | _ => rfl

/-- Inputs of one structure are redacted as they should be if and only if neither leaves an
identifier open that has more than white space.  They are redacted alike exactly when the
identifiers they leave open are alike. -/
theorem redaction_agrees_iff (sql sql' : JsString) (same : SameStructure sql sql') :
    (FailsClosed sql sql' ↔
        visible (openIdentifier (lex sql)) = [] ∧ visible (openIdentifier (lex sql')) = []) ∧
      (UpToSpace (redactSqlLiterals sql) (redactSqlLiterals sql') ↔
        UpToSpace (openIdentifier (lex sql)) (openIdentifier (lex sql'))) ∧
      (HidesOpen sql ↔ visible (openIdentifier (lex sql)) = []) ∧
      redactSqlLiterals (redactSqlLiterals sql) = redactSqlLiterals sql ∧
      (lex sql).flatMap Token.source = sql := by
  have agree : UpToSpace (redactSqlLiterals sql) (redactSqlLiterals sql') ↔
      UpToSpace (openIdentifier (lex sql)) (openIdentifier (lex sql')) := by
    rw [redactSqlLiterals_eq, redactSqlLiterals_eq, UpToSpace, visible_trim, visible_trim]
    exact shown_agree_iff (fun _ member => isOpen_of_mem_dropLast member) same
  refine ⟨?_, agree, hidesOpen_iff sql, redactSqlLiterals_idempotent sql, source_lex sql⟩
  constructor
  · intro failsClosed
    exact ⟨(hidesOpen_iff sql).mp failsClosed.hidden.1,
      (hidesOpen_iff sql').mp failsClosed.hidden.2⟩
  · intro blank
    exact {
      agree := agree.mpr (blank.1.trans blank.2.symm)
      hidden := ⟨(hidesOpen_iff sql).mpr blank.1, (hidesOpen_iff sql').mpr blank.2⟩
      again := fun input _ => redactSqlLiterals_idempotent input }

instance (s s' : JsString) : Decidable (UpToSpace s s') := inferInstanceAs (Decidable (_ = _))

/-- A string that is left open is shown as a mark. -/
theorem redaction_agrees_iff_strings :
    SameStructure (ofString "SELECT 1, 'a") (ofString "SELECT 23, 'it''s") ∧
      FailsClosed (ofString "SELECT 1, 'a") (ofString "SELECT 23, 'it''s") := by
  have same : SameStructure (ofString "SELECT 1, 'a") (ofString "SELECT 23, 'it''s") := by
    decide +kernel
  have blank : visible (openIdentifier (lex (ofString "SELECT 1, 'a"))) = [] := by decide +kernel
  have blank' : visible (openIdentifier (lex (ofString "SELECT 23, 'it''s"))) = [] := by
    decide +kernel
  exact ⟨same, (redaction_agrees_iff _ _ same).1.mpr ⟨blank, blank'⟩⟩

/-- An identifier that is left open is shown. -/
theorem open_identifier_shown :
    SameStructure (ofString "SELECT \"a") (ofString "SELECT \"secret") ∧
      ¬ UpToSpace (redactSqlLiterals (ofString "SELECT \"a"))
        (redactSqlLiterals (ofString "SELECT \"secret")) := by
  constructor
  · decide +kernel
  · decide +kernel

end BelugaManager.DomainApi
