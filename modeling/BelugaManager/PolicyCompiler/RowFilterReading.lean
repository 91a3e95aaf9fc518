import BelugaManager.Foundation.PrefixCode
import BelugaManager.PolicyCompiler.RowFilter

/-!
# Row filters can be read in one way

Each part of a row filter ends where a character stands that the part cannot go on with.
So two filters that were written with the same text are the same filter.
-/

namespace BelugaManager.PolicyCompiler.RowFilter

open Foundation

variable {rest rest' : List Char}

/-- What names and numbers go on with. -/
def isDottedPart (c : Char) : Bool := isIdentPart c || c = '.'

def isComparisonPart (c : Char) : Bool := c = '<' || c = '>' || c = '!' || c = '='

theorem isDottedPart_of_isIdentPart {c : Char} (part : isIdentPart c = true) :
    isDottedPart c = true := by
  rw [isDottedPart, part, Bool.true_or]

theorem isDottedPart_of_isDigit {c : Char} (digit : c.isDigit = true) : isDottedPart c = true := by
  apply isDottedPart_of_isIdentPart
  rw [isIdentPart, Char.isAlphanum, digit, Bool.or_true, Bool.true_or]

theorem isSpace_of_isDottedPart {c : Char} (part : isDottedPart c = true) :
    Text.isSpace c = false := by
  simp only [isDottedPart, isIdentPart, Char.isAlphanum, Bool.or_eq_true, decide_eq_true_eq] at part
  rcases part with ((alpha | digit) | rfl) | rfl
  · exact Text.isSpace_eq_false_of_isAlpha alpha
  · exact Text.isSpace_eq_false_of_isDigit digit
  · decide
  · decide

theorem isDottedPart_of_isSpace {c : Char} (space : Text.isSpace c = true) :
    isDottedPart c = false := by
  rw [← Bool.not_eq_true]
  intro part
  rw [isSpace_of_isDottedPart part] at space
  cases space

/-- White space goes before what a part does not go on with. -/
theorem startsOutside_space {accepts : Char → Bool} {space : List Char}
    (every : ∀ c ∈ space, Text.isSpace c = true)
    (outside : ∀ c, Text.isSpace c = true → accepts c = false) (ends : StartsOutside accepts rest) :
    StartsOutside accepts (space ++ rest) := by
  cases space with
  | nil => exact ends
  | cons c space => exact startsOutside_cons _ (outside c (every c List.mem_cons_self))

theorem prefixFree_blank : PrefixFreeBefore (StartsOutside Text.isSpace) Blank.text := by
  intro blank other rest rest' ends ends' same
  rcases append_span_inj blank.space other.space ends ends' same with ⟨sameText, sameRest⟩
  exact ⟨Blank.ext sameText, sameRest⟩

theorem prefixFree_gap : PrefixFreeBefore (StartsOutside Text.isSpace) Gap.text := by
  intro gap other rest rest' ends ends' same
  rcases append_span_inj gap.space other.space ends ends' same with ⟨sameText, sameRest⟩
  exact ⟨Gap.ext sameText, sameRest⟩

theorem prefixFree_digits : PrefixFreeBefore (StartsOutside Char.isDigit) Digits.text := by
  intro digits other rest rest' ends ends' same
  rcases append_span_inj digits.digits other.digits ends ends' same with ⟨sameText, sameRest⟩
  exact ⟨Digits.ext sameText, sameRest⟩

theorem Identifier.parts_text (identifier : Identifier) :
    ∀ c ∈ identifier.text, isIdentPart c = true :=
  List.forall_mem_cons.mpr ⟨isIdentPart_of_isIdentStart identifier.isStart, identifier.areParts⟩

theorem prefixFree_identifier : PrefixFreeBefore (StartsOutside isIdentPart) Identifier.text := by
  intro identifier other rest rest' ends ends' same
  rcases append_span_inj identifier.parts_text other.parts_text ends ends' same with
    ⟨sameText, sameRest⟩
  rcases List.cons.inj sameText with ⟨sameStart, sameParts⟩
  exact ⟨Identifier.ext sameStart sameParts, sameRest⟩

/-- A part and an optional second part after a dot. -/
theorem prefixFree_dotted {ι : Type*} {accepts : Char → Bool} {text : ι → List Char}
    (code : PrefixFreeBefore (StartsOutside accepts) text) (noDot : accepts '.' = false)
    (narrow : ∀ c, accepts c = true → isDottedPart c = true) :
    PrefixFreeBefore (StartsOutside isDottedPart)
      fun item : ι × Option ι => text item.1 ++ dotted text item.2 := by
  have second : ∀ (item : Option ι) {rest : List Char}, StartsOutside isDottedPart rest →
      StartsOutside accepts (dotted text item ++ rest) := by
    intro item rest ends
    cases item with
    | none => exact ends.narrow narrow
    | some item => exact startsOutside_cons _ noDot
  have noPart : ∀ {rest tail : List Char}, StartsOutside isDottedPart rest →
    rest ≠ '.' :: tail := by
    intro rest tail ends same
    rw [same] at ends
    have outside := ends '.' rfl
    cases outside
  intro item other rest rest' ends ends' same
  rcases item with ⟨item, itemSecond⟩
  rcases other with ⟨other, otherSecond⟩
  simp only [List.append_assoc] at same
  rcases code item other _ _ (second itemSecond ends) (second otherSecond ends') same with
    ⟨rfl, sameSecond⟩
  cases itemSecond with
  | none =>
      cases otherSecond with
      | none => exact ⟨rfl, sameSecond⟩
      | some part => exact absurd sameSecond (noPart ends)
  | some part =>
      cases otherSecond with
      | none => exact absurd sameSecond.symm (noPart ends')
      | some otherPart =>
          rcases code part otherPart _ _ (ends.narrow narrow) (ends'.narrow narrow)
            (List.cons.inj sameSecond).2 with ⟨rfl, sameRest⟩
          exact ⟨rfl, sameRest⟩

theorem prefixFree_column : PrefixFreeBefore (StartsOutside isDottedPart) Column.text := by
  intro column other rest rest' ends ends' same
  rcases prefixFree_dotted prefixFree_identifier (by decide)
    (fun _ => isDottedPart_of_isIdentPart) (column.first, column.second)
    (other.first, other.second) _ _ ends ends' same with ⟨sameParts, sameRest⟩
  rw [Prod.mk.injEq] at sameParts
  exact ⟨Column.ext sameParts.1 sameParts.2, sameRest⟩

theorem prefixFree_spelling {keyword : String} :
    PrefixFree (Spelling.text : Spelling keyword → List Char) := by
  intro spelling other rest rest' same
  have lengths : spelling.text.length = other.text.length := by
    have lowered := congrArg List.length (spelling.same.trans other.same.symm)
    rwa [List.length_map, List.length_map] at lowered
  rcases List.append_inj same lengths with ⟨sameText, sameRest⟩
  exact ⟨Spelling.ext sameText, sameRest⟩

theorem Comparison.text_parts (compared : Comparison) :
    ∀ c ∈ compared.text, isComparisonPart c = true := by
  apply List.all_eq_true.mp
  cases compared <;> rfl

theorem prefixFree_comparison :
    PrefixFreeBefore (StartsOutside isComparisonPart) Comparison.text := by
  intro compared other rest rest' ends ends' same
  rcases append_span_inj compared.text_parts other.text_parts ends ends' same with
    ⟨sameText, sameRest⟩
  refine ⟨?_, sameRest⟩
  revert sameText
  cases compared <;> cases other <;> decide

/-! ## Values -/

theorem Digits.text_start (digits : Digits) :
    ∃ c tail, digits.text = c :: tail ∧ c.isDigit = true := by
  rcases List.exists_cons_of_ne_nil digits.nonempty with ⟨c, tail, spelled⟩
  refine ⟨c, tail, spelled, digits.digits c ?_⟩
  rw [spelled]
  exact List.mem_cons_self

theorem Spelling.text_start {keyword : String} (spelling : Spelling keyword) {letter : Char}
    {more : List Char} (spelled : keyword.toList = letter :: more) (alpha : letter.isAlpha = true) :
    ∃ c tail, spelling.text = c :: tail ∧ c.isAlpha = true ∧ c.toLower = letter.toLower := by
  have same := spelling.same
  rw [spelled, List.map_cons] at same
  rcases List.map_eq_cons_iff.mp same with ⟨c, tail, text, sameLetter, _⟩
  exact ⟨c, tail, text, Text.isAlpha_of_toLower_eq sameLetter alpha, sameLetter⟩

/-- A keyword of letters and underscores is spelled with such. -/
theorem Spelling.text_parts {keyword : String} (spelling : Spelling keyword)
    (letters : keyword.toList.all isIdentStart = true) :
    ∀ c ∈ spelling.text, isIdentStart c = true := by
  intro c member
  have lowered : c.toLower ∈ keyword.toList.map Char.toLower := by
    rw [← spelling.same]
    exact List.mem_map_of_mem member
  rcases List.mem_map.mp lowered with ⟨letter, inKeyword, sameLetter⟩
  have isStart := List.all_eq_true.mp letters letter inKeyword
  rw [isIdentStart, Bool.or_eq_true, decide_eq_true_eq] at isStart
  rcases isStart with isAlpha | rfl
  · rw [isIdentStart, Text.isAlpha_of_toLower_eq sameLetter.symm isAlpha, Bool.true_or]
  · rw [Text.eq_of_toLower_eq sameLetter.symm (by decide)]
    decide

/-- What the first character tells about a value. -/
def startKind (c : Char) : ℕ := if c = '\'' then 1 else if c.isAlpha then 2 else 0

def Value.kind : Value → ℕ
  | .number _ _ _ => 0
  | .literal _ => 1
  | .session _ => 2

theorem plain_of_isAlpha {c : Char} (alpha : c.isAlpha = true) :
    c ≠ '\'' ∧ Text.isSpace c = false ∧ isComparisonPart c = false := by
  have other : ∀ d : Char, d.isAlpha = false → c ≠ d := by
    intro d noLetter same
    rw [same, noLetter] at alpha
    cases alpha
  refine ⟨other _ (by decide), Text.isSpace_eq_false_of_isAlpha alpha, ?_⟩
  simp [isComparisonPart, other '<' (by decide), other '>' (by decide), other '!' (by decide),
    other '=' (by decide)]

theorem plain_of_isDigit {c : Char} (digit : c.isDigit = true) :
    c ≠ '-' ∧ startKind c = 0 ∧ Text.isSpace c = false ∧ isComparisonPart c = false := by
  have other : ∀ d : Char, d.isDigit = false → c ≠ d := by
    intro d noDigit same
    rw [same, noDigit] at digit
    cases digit
  refine ⟨other _ (by decide), ?_, Text.isSpace_eq_false_of_isDigit digit, ?_⟩
  · rw [startKind, if_neg (other _ (by decide)), Text.isAlpha_eq_false_of_isDigit digit]
    rfl
  · simp [isComparisonPart, other '<' (by decide), other '>' (by decide), other '!' (by decide),
      other '=' (by decide)]

theorem Value.text_start (value : Value) : ∃ c tail, value.text = c :: tail ∧
    startKind c = value.kind ∧ Text.isSpace c = false ∧ isComparisonPart c = false := by
  cases value with
  | number negative whole fraction =>
      cases negative with
      | false =>
          rcases whole.text_start with ⟨c, tail, spelled, digit⟩
          refine ⟨c, tail ++ dotted Digits.text fraction, ?_, (plain_of_isDigit digit).2⟩
          rw [Value.text, spelled]
          rfl
      | true => exact ⟨'-', whole.text ++ dotted Digits.text fraction, rfl, rfl, by decide⟩
  | literal content => exact ⟨'\'', content.text ++ ['\''], rfl, rfl, by decide⟩
  | session spelling =>
      have keyword : "current_user".toList = 'c' :: "urrent_user".toList := by decide
      rcases spelling.text_start keyword (by decide) with ⟨c, tail, spelled, alpha, _⟩
      rcases plain_of_isAlpha alpha with ⟨noQuote, noSpace, noComparison⟩
      refine ⟨c, tail, spelled, ?_, noSpace, noComparison⟩
      rw [startKind, if_neg noQuote, alpha]
      rfl

theorem prefixFree_number {negative negative' : Bool} {whole whole' : Digits}
    {fraction fraction' : Option Digits} (ends : StartsOutside isDottedPart rest)
    (ends' : StartsOutside isDottedPart rest')
    (same : (Value.number negative whole fraction).text ++ rest =
      (Value.number negative' whole' fraction').text ++ rest') :
    Value.number negative whole fraction = .number negative' whole' fraction' ∧ rest = rest' := by
  have unsigned : ∀ {digits : Digits} {more tail : List Char},
      digits.text ++ more ≠ '-' :: tail := by
    intro digits more tail same
    rcases digits.text_start with ⟨c, later, spelled, digit⟩
    rw [spelled, List.cons_append, List.cons.injEq] at same
    exact (plain_of_isDigit digit).1 same.1
  have sameSign : negative = negative' := by
    cases negative with
    | false =>
        cases negative' with
        | false => rfl
        | true =>
            simp only [Value.text, sign, List.append_assoc] at same
            exact absurd same unsigned
    | true =>
        cases negative' with
        | false =>
            simp only [Value.text, sign, List.append_assoc] at same
            exact absurd same.symm unsigned
        | true => rfl
  subst sameSign
  simp only [Value.text, List.append_assoc, List.append_cancel_left_eq] at same
  have parts := prefixFree_dotted prefixFree_digits (by decide) (fun _ => isDottedPart_of_isDigit)
    (whole, fraction) (whole', fraction') rest rest' ends ends'
  simp only [List.append_assoc] at parts
  rcases parts same with ⟨sameParts, sameRest⟩
  rw [Prod.mk.injEq] at sameParts
  rw [sameParts.1, sameParts.2]
  exact ⟨rfl, sameRest⟩

theorem prefixFree_value : PrefixFreeBefore (StartsOutside isDottedPart) Value.text := by
  intro value other rest rest' ends ends' same
  have sameKind : value.kind = other.kind := by
    rcases value.text_start with ⟨c, tail, spelled, kind, _⟩
    rcases other.text_start with ⟨c', tail', spelled', kind', _⟩
    rw [spelled, spelled', List.cons_append, List.cons_append, List.cons.injEq] at same
    rw [← kind, ← kind', same.1]
  cases value with
  | number negative whole fraction =>
      cases other with
      | number negative' whole' fraction' => exact prefixFree_number ends ends' same
      | literal => cases sameKind
      | session => cases sameKind
  | literal content =>
      cases other with
      | number => cases sameKind
      | literal content' =>
          have quoted : content.text ++ ['\''] ++ rest = content'.text ++ ['\''] ++ rest' :=
            (List.cons.inj same).2
          rw [List.append_assoc, List.append_assoc] at quoted
          have noQuote : ∀ content : Content, '\'' ∉ content.text := by
            intro content member
            exact (content.plain _ member).1 rfl
          rcases append_stop_inj (noQuote content) (noQuote content') quoted with
            ⟨sameText, sameRest⟩
          rw [Content.ext sameText]
          exact ⟨rfl, sameRest⟩
      | session => cases sameKind
  | session spelling =>
      cases other with
      | number => cases sameKind
      | literal => cases sameKind
      | session spelling' =>
          rcases prefixFree_spelling spelling spelling' rest rest' same with ⟨rfl, sameRest⟩
          exact ⟨rfl, sameRest⟩

/-! ## Lists -/

theorem Value.startsOutside_space (value : Value) (rest : List Char) :
    StartsOutside Text.isSpace (value.text ++ rest) := by
  rcases value.text_start with ⟨c, tail, spelled, _, noSpace, _⟩
  rw [spelled]
  exact startsOutside_cons _ noSpace

theorem noComparison_of_isSpace {c : Char} (space : Text.isSpace c = true) :
    isComparisonPart c = false := by
  rw [← Bool.not_eq_true]
  intro part
  simp only [isComparisonPart, Bool.or_eq_true, decide_eq_true_eq] at part
  rcases part with ((rfl | rfl) | rfl) | rfl
  · exact absurd space (by decide)
  · exact absurd space (by decide)
  · exact absurd space (by decide)
  · exact absurd space (by decide)

/-- A value after white space. -/
theorem prefixFree_padded : PrefixFreeBefore (StartsOutside isDottedPart)
    fun item : Blank × Value => item.1.text ++ item.2.text := by
  intro item other rest rest' ends ends' same
  simp only [List.append_assoc] at same
  rcases prefixFree_blank item.1 other.1 _ _ (item.2.startsOutside_space rest)
    (other.2.startsOutside_space rest') same with ⟨sameBlank, sameValue⟩
  rcases prefixFree_value item.2 other.2 rest rest' ends ends' sameValue with ⟨sameItem, sameRest⟩
  exact ⟨Prod.ext sameBlank sameItem, sameRest⟩

theorem prefixFree_element :
    PrefixFreeBefore (StartsOutside isDottedPart) (Element.written Value.text) := by
  intro element other rest rest' ends ends' same
  simp only [Element.written, List.append_assoc, List.cons_append] at same
  rcases prefixFree_blank element.before other.before _ _ (startsOutside_cons _ (by decide))
    (startsOutside_cons _ (by decide)) same with ⟨sameBefore, sameElement⟩
  have padded := prefixFree_padded (element.after, element.value) (other.after, other.value) rest
    rest' ends ends'
  simp only [List.append_assoc] at padded
  rcases padded (List.cons.inj sameElement).2 with ⟨sameItem, sameRest⟩
  rw [Prod.mk.injEq] at sameItem
  cases element
  cases other
  rw [Element.mk.injEq]
  exact ⟨⟨sameBefore, sameItem⟩, sameRest⟩

/-- What the end of a list looks like. -/
def ClosesList (rest : List Char) : Prop := ∃ (closed : Blank) (tail : List Char),
  rest = closed.text ++ ')' :: tail

theorem ClosesList.startsOutside (closes : ClosesList rest) :
    StartsOutside isDottedPart rest := by
  rcases closes with ⟨closed, tail, rfl⟩
  exact startsOutside_space closed.space (fun _ => isDottedPart_of_isSpace)
    (startsOutside_cons _ (by decide))

theorem Element.startsOutside (element : Element) (rest : List Char) :
    StartsOutside isDottedPart (element.written Value.text ++ rest) := by
  simp only [Element.written, List.append_assoc, List.cons_append]
  exact startsOutside_space element.before.space (fun _ => isDottedPart_of_isSpace)
    (startsOutside_cons _ (by decide))

theorem prefixFree_elements :
    PrefixFreeBefore ClosesList (List.flatMap (Element.written Value.text)) := by
  apply prefixFree_element.sequence
  · intro element rest stops
    rcases stops with ⟨closed, tail, same⟩
    simp only [Element.written, List.append_assoc, List.cons_append] at same
    have marks := (prefixFree_blank element.before closed _ _ (startsOutside_cons _ (by decide))
      (startsOutside_cons _ (by decide)) same).2
    exact absurd (List.cons.inj marks).1 (by decide)
  · exact Element.startsOutside
  · intro rest closes
    exact closes.startsOutside

theorem prefixFree_inList : PrefixFree (InList.written Value.text) := by
  have follows : ∀ (more : List Element) {rest : List Char}, ClosesList rest →
      StartsOutside isDottedPart (more.flatMap (Element.written Value.text) ++ rest) := by
    intro more rest stops
    cases more with
    | nil => exact stops.startsOutside
    | cons element more =>
        rw [List.flatMap_cons, List.append_assoc]
        exact element.startsOutside _
  intro list other rest rest' same
  simp only [InList.written, List.append_assoc, List.cons_append, List.nil_append] at same
  have stops : ClosesList (list.closed.text ++ ')' :: rest) := ⟨list.closed, rest, rfl⟩
  have stops' : ClosesList (other.closed.text ++ ')' :: rest') := ⟨other.closed, rest', rfl⟩
  have padded := prefixFree_padded (list.opened, list.first) (other.opened, other.first) _ _
    (follows list.more stops) (follows other.more stops')
  simp only [List.append_assoc] at padded
  rcases padded (List.cons.inj same).2 with ⟨sameFirst, sameMore⟩
  rcases prefixFree_elements list.more other.more _ _ stops stops' sameMore with
    ⟨sameElements, sameClosed⟩
  rcases prefixFree_blank list.closed other.closed _ _ (startsOutside_cons _ (by decide))
    (startsOutside_cons _ (by decide)) sameClosed with ⟨sameBlank, sameRest⟩
  rw [Prod.mk.injEq] at sameFirst
  cases list
  cases other
  rw [InList.mk.injEq]
  exact ⟨⟨sameFirst.1, sameFirst.2, sameElements, sameBlank⟩, (List.cons.inj sameRest).2⟩

/-! ## Terms and chains -/

theorem Comparison.text_start (compared : Comparison) :
    ∃ c tail, compared.text = c :: tail ∧ isComparisonPart c = true := by
  cases compared <;> exact ⟨_, _, rfl, by decide⟩

theorem Comparison.startsOutside_space (compared : Comparison) (rest : List Char) :
    StartsOutside Text.isSpace (compared.text ++ rest) := by
  rcases compared.text_start with ⟨c, tail, spelled, part⟩
  rw [spelled]
  apply startsOutside_cons
  rw [← Bool.not_eq_true]
  intro space
  rw [noComparison_of_isSpace space] at part
  cases part

theorem Spelling.startsOutside_space {keyword : String} (spelling : Spelling keyword)
    {letter : Char} {more : List Char} (spelled : keyword.toList = letter :: more)
    (alpha : letter.isAlpha = true) (rest : List Char) :
    StartsOutside Text.isSpace (spelling.text ++ rest) := by
  rcases spelling.text_start spelled alpha with ⟨c, tail, text, isAlpha, _⟩
  rw [text]
  exact startsOutside_cons _ (plain_of_isAlpha isAlpha).2.1

/-- After a comparison there is white space or a value. -/
theorem startsOutside_comparison (after : Blank) (value : Value) (rest : List Char) :
    StartsOutside isComparisonPart (after.text ++ (value.text ++ rest)) := by
  apply startsOutside_space after.space fun _ => noComparison_of_isSpace
  rcases value.text_start with ⟨c, tail, spelled, _, _, noComparison⟩
  rw [spelled]
  exact startsOutside_cons _ noComparison

theorem IN_start : "IN".toList = 'I' :: ['N'] := by decide

/-- What stands after the column tells the two kinds of terms apart. -/
theorem compared_ne_spelled (before : Blank) (compared : Comparison) (gap : Gap)
    (spelling : Spelling "IN") :
    before.text ++ (compared.text ++ rest) ≠ gap.text ++ (spelling.text ++ rest') := by
  intro same
  have marks := (append_span_inj before.space gap.space (compared.startsOutside_space rest)
    (spelling.startsOutside_space IN_start (by decide) rest') same).2
  rcases compared.text_start with ⟨c, tail, spelled, part⟩
  rcases spelling.text_start IN_start (by decide) with ⟨c', tail', spelled', alpha, _⟩
  rw [spelled, spelled', List.cons_append, List.cons_append, List.cons.injEq] at marks
  rw [marks.1, (plain_of_isAlpha alpha).2.2] at part
  cases part

theorem Gap.startsOutside {accepts : Char → Bool} (gap : Gap)
    (outside : ∀ c, Text.isSpace c = true → accepts c = false) (rest : List Char) :
    StartsOutside accepts (gap.text ++ rest) := by
  rcases List.exists_cons_of_ne_nil gap.nonempty with ⟨c, tail, spelled⟩
  have member : c ∈ gap.text := by
    rw [spelled]
    exact List.mem_cons_self
  rw [spelled]
  exact startsOutside_cons _ (outside c (gap.space c member))

theorem prefixFree_term :
    PrefixFreeBefore (StartsOutside isDottedPart) (Term.written Value.text) := by
  have afterColumn : ∀ (before : Blank) (compared : Comparison) (rest : List Char),
      StartsOutside isDottedPart (before.text ++ (compared.text ++ rest)) := by
    intro before compared rest
    apply startsOutside_space before.space fun _ => isDottedPart_of_isSpace
    cases compared <;> exact startsOutside_cons _ (by decide)
  have afterName : ∀ (gap : Gap) (rest : List Char),
      StartsOutside isDottedPart (gap.text ++ rest) :=
    fun gap => gap.startsOutside fun _ => isDottedPart_of_isSpace
  intro term other rest rest' ends ends' same
  cases term with
  | comparison column before compared after value =>
      cases other with
      | comparison column' before' compared' after' value' =>
          simp only [Term.written, List.append_assoc] at same
          rcases prefixFree_column column column' _ _ (afterColumn _ _ _) (afterColumn _ _ _) same
            with ⟨rfl, sameBefore⟩
          rcases prefixFree_blank before before' _ _ (compared.startsOutside_space _)
            (compared'.startsOutside_space _) sameBefore with ⟨rfl, sameCompared⟩
          rcases prefixFree_comparison compared compared' _ _ (startsOutside_comparison _ _ _)
            (startsOutside_comparison _ _ _) sameCompared with ⟨rfl, sameAfter⟩
          have padded := prefixFree_padded (after, value) (after', value') _ _ ends ends'
          simp only [List.append_assoc] at padded
          rcases padded sameAfter with ⟨sameValue, sameRest⟩
          rw [Prod.mk.injEq] at sameValue
          rw [sameValue.1, sameValue.2]
          exact ⟨rfl, sameRest⟩
      | oneOf column' gap spelling after' list =>
          simp only [Term.written, List.append_assoc] at same
          exact absurd (prefixFree_column column column' _ _ (afterColumn _ _ _) (afterName _ _)
            same).2 (compared_ne_spelled _ _ _ _)
  | oneOf column gap spelling after list =>
      cases other with
      | comparison column' before compared after' value =>
          simp only [Term.written, List.append_assoc] at same
          exact absurd (prefixFree_column column column' _ _ (afterName _ _) (afterColumn _ _ _)
            same).2.symm (compared_ne_spelled _ _ _ _)
      | oneOf column' gap' spelling' after' list' =>
          simp only [Term.written, List.append_assoc] at same
          rcases prefixFree_column column column' _ _ (afterName _ _) (afterName _ _) same with
            ⟨rfl, sameGap⟩
          rcases prefixFree_gap gap gap' _ _ (spelling.startsOutside_space IN_start (by decide) _)
            (spelling'.startsOutside_space IN_start (by decide) _) sameGap with ⟨rfl, sameSpelling⟩
          rcases prefixFree_spelling spelling spelling' _ _ sameSpelling with ⟨rfl, sameAfter⟩
          rcases prefixFree_blank after after' _ _ (startsOutside_cons _ (by decide))
            (startsOutside_cons _ (by decide)) sameAfter with ⟨rfl, sameList⟩
          rcases prefixFree_inList list list' rest rest' sameList with ⟨rfl, sameRest⟩
          exact ⟨rfl, sameRest⟩

/-- The first letter of a connective. -/
def Connective.letter : Connective → Char
  | .and => 'A'
  | .or => 'O'

theorem Connective.word_start (connective : Connective) :
    ∃ more, connective.word.toList = connective.letter :: more ∧
      connective.letter.isAlpha = true := by
  cases connective with
  | and => exact ⟨['N', 'D'], by decide⟩
  | or => exact ⟨['R'], by decide⟩

theorem Link.spelling_start (link : Link) : ∃ c tail, link.spelling.text = c :: tail ∧
    c.isAlpha = true ∧ c.toLower = link.connective.letter.toLower := by
  rcases link.connective.word_start with ⟨more, spelled, alpha⟩
  exact link.spelling.text_start spelled alpha

theorem Term.startsOutside_space (term : Term) (rest : List Char) :
    StartsOutside Text.isSpace (term.written Value.text ++ rest) := by
  have identifier : ∀ identifier : Identifier, Text.isSpace identifier.start = false := by
    intro identifier
    apply isSpace_of_isDottedPart
    apply isDottedPart_of_isIdentPart
    exact isIdentPart_of_isIdentStart identifier.isStart
  cases term with
  | comparison column => exact startsOutside_cons _ (identifier column.first)
  | oneOf column => exact startsOutside_cons _ (identifier column.first)

theorem prefixFree_link :
    PrefixFreeBefore (StartsOutside isDottedPart) (Link.written Value.text) := by
  have afterGap : ∀ (link : Link) (rest : List Char),
      StartsOutside Text.isSpace (link.spelling.text ++ rest) := by
    intro link rest
    rcases link.spelling_start with ⟨c, tail, spelled, alpha, _⟩
    rw [spelled]
    exact startsOutside_cons _ (plain_of_isAlpha alpha).2.1
  intro link other rest rest' ends ends' same
  simp only [Link.written, List.append_assoc] at same
  rcases prefixFree_gap link.before other.before _ _ (afterGap link _) (afterGap other _) same with
    ⟨sameBefore, sameSpelling⟩
  have sameConnective : link.connective = other.connective := by
    rcases link.spelling_start with ⟨c, tail, spelled, _, letter⟩
    rcases other.spelling_start with ⟨c', tail', spelled', _, letter'⟩
    rw [spelled, spelled', List.cons_append, List.cons_append, List.cons.injEq] at sameSpelling
    have sameLetter : link.connective.letter.toLower = other.connective.letter.toLower := by
      rw [← letter, ← letter', sameSpelling.1]
    revert sameLetter
    cases link.connective <;> cases other.connective <;> decide
  rcases link with ⟨before, connective, spelling, after, term⟩
  rcases other with ⟨before', connective', spelling', after', term'⟩
  subst sameBefore sameConnective
  rcases prefixFree_spelling spelling spelling' _ _ sameSpelling with ⟨rfl, sameAfter⟩
  rcases prefixFree_gap after after' _ _ (term.startsOutside_space _) (term'.startsOutside_space _)
    sameAfter with ⟨rfl, sameTerm⟩
  rcases prefixFree_term term term' rest rest' ends ends' sameTerm with ⟨rfl, sameRest⟩
  exact ⟨rfl, sameRest⟩

theorem Link.startsOutside (link : Link) (rest : List Char) :
    StartsOutside isDottedPart (link.written Value.text ++ rest) := by
  simp only [Link.written, List.append_assoc]
  exact link.before.startsOutside (fun _ => isDottedPart_of_isSpace) _

/-- Only white space is left. -/
def OnlySpace (rest : List Char) : Prop := ∀ c ∈ rest, Text.isSpace c = true

theorem OnlySpace.startsOutside (space : OnlySpace rest) : StartsOutside isDottedPart rest := by
  intro c first
  exact isDottedPart_of_isSpace (space c (List.mem_of_mem_head? first))

theorem prefixFree_links :
    PrefixFreeBefore OnlySpace (List.flatMap (Link.written Value.text)) := by
  apply prefixFree_link.sequence
  · intro link rest space
    rcases link.spelling_start with ⟨c, tail, spelled, alpha, _⟩
    have isSpace := space c (by simp [Link.written, spelled])
    rw [(plain_of_isAlpha alpha).2.1] at isSpace
    cases isSpace
  · exact Link.startsOutside
  · intro rest space
    exact space.startsOutside

/-- A text can be read as a row filter in one way at most. -/
theorem text_injective : Function.Injective RowFilter.text := by
  intro filter other same
  have atEnd : ∀ filter : RowFilter, OnlySpace filter.after.text := fun filter => filter.after.space
  have afterFirst : ∀ filter : RowFilter, StartsOutside isDottedPart
      (filter.links.flatMap (Link.written Value.text) ++ filter.after.text) := by
    intro filter
    cases filter.links with
    | nil => exact (atEnd filter).startsOutside
    | cons link links =>
        rw [List.flatMap_cons, List.append_assoc]
        exact link.startsOutside _
  simp only [RowFilter.text, written, List.append_assoc] at same
  rcases prefixFree_blank filter.before other.before _ _ (filter.first.startsOutside_space _)
    (other.first.startsOutside_space _) same with ⟨sameBefore, sameFirst⟩
  rcases prefixFree_term filter.first other.first _ _ (afterFirst filter) (afterFirst other)
    sameFirst with ⟨sameTerm, sameLinks⟩
  rcases prefixFree_links filter.links other.links _ _ (atEnd filter) (atEnd other) sameLinks with
    ⟨sameItems, sameAfter⟩
  cases filter
  cases other
  rw [RowFilter.mk.injEq]
  exact ⟨sameBefore, sameTerm, sameItems, Blank.ext sameAfter⟩

end BelugaManager.PolicyCompiler.RowFilter
