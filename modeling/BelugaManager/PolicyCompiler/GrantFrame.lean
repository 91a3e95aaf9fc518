import BelugaManager.PolicyCompiler.GrantLine
import Mathlib.Data.List.TakeWhile

/-!
# GRANT lines with other privileges

What a GRANT line says beside its privileges is read from the keyword `ON` on, and
counting the words shows that no earlier `ON` can be taken for it.  So the privileges of
a line can be replaced, and the line is taken apart as before with the others in their
place.
-/

namespace BelugaManager.PolicyCompiler

open Foundation

/-- The rest of the pattern after the white space that follows the privileges. -/
def onward : Pattern GrantPieces := do
  Pattern.word "ON"
  let _ ← Pattern.plus Text.isSpace
  let _ ← Pattern.opt (tableKeyword Text.isSpace)
  let rawTable ← Pattern.plus fun c => !Text.isSpace c
  between Text.isSpace "TO"
  let rawRole ← Pattern.lazyPlus fun c => !Text.isSpace c
  let grantOption ← Pattern.opt (grantOptionClause Text.isSpace)
  let _ ← Pattern.opt (Pattern.word ";")
  Pattern.atEnd
  return { rawPrivileges := [], rawTable := rawTable, rawRole := rawRole
           grantOption := grantOption.isSome }

/-- The captures with other privileges. -/
def GrantPieces.withPrivileges (m : GrantPieces) (raw : List Char) : GrantPieces :=
  { m with rawPrivileges := raw }

@[simp] theorem GrantPieces.withPrivileges_rawPrivileges (m : GrantPieces) (raw : List Char) :
    (m.withPrivileges raw).rawPrivileges = raw := rfl

/-- The pattern from the white space after the privileges on. -/
def afterPrivileges (raw : List Char) : Pattern GrantPieces :=
  Pattern.plus Text.isSpace >>= fun _ => onward >>= fun m => pure (m.withPrivileges raw)

theorem GRANT_LINE_RE_eq :
    GRANT_LINE_RE Text.isSpace = Pattern.word "GRANT" >>= fun _ => Pattern.plus Text.isSpace >>=
      fun _ => Pattern.lazyPlus (fun c => !isLineTerminator c) >>= fun raw =>
        afterPrivileges raw := by
  simp only [GRANT_LINE_RE, afterPrivileges, onward, between, bind_assoc, pure_bind,
    GrantPieces.withPrivileges]

theorem word_on_eq_nil {c : Char} (tail : List Char) (blank : Text.isSpace c = true) :
    Pattern.word "ON" (c :: tail) = [] := by
  have differs : ¬ Char.toLower 'O' = c.toLower := by
    intro same
    have alpha := Text.isAlpha_of_toLower_eq same.symm (by decide)
    rw [Text.isSpace_eq_false_of_isAlpha alpha] at blank
    exact Bool.noConfusion blank
  rw [Pattern.word, show "ON".toList = ['O', 'N'] from rfl, Pattern.letters, if_neg differs]

/-- The privileges are handed on and play no part in the rest of the match. -/
theorem afterPrivileges_eq (raw input : List Char) :
    afterPrivileges raw input =
      ((Pattern.plus Text.isSpace >>= fun _ => onward) input).map
        fun way => (way.1.withPrivileges raw, way.2) := by
  rw [afterPrivileges, ← bind_assoc]
  exact (Pattern.bind_apply _ _ input).trans List.map_eq_flatMap.symm

theorem rawPrivileges_of_mem {raw input : List Char} {way : GrantPieces × List Char}
    (member : way ∈ afterPrivileges raw input) : way.1.rawPrivileges = raw := by
  rw [afterPrivileges_eq] at member
  rcases List.mem_map.mp member with ⟨inner, _, rfl⟩
  rfl

/-- White space in any amount before the keyword. -/
theorem afterPrivileges_gap {raw gap rest : List Char} (isGap : IsGap Text.isSpace gap)
    (outside : ∀ c ∈ rest.head?, Text.isSpace c = false) :
    afterPrivileges raw (gap ++ rest) =
      (onward rest).map fun way => (way.1.withPrivileges raw, way.2) := by
  rw [afterPrivileges_eq, Pattern.plus_bind_all isGap.1 isGap.2 outside]
  intro c tail blank
  rw [onward, Pattern.bind_apply, word_on_eq_nil tail blank, List.flatMap_nil]

theorem Spells.differs {left right : String} {word : List Char} (spells : Spells left word)
    (different : left.toList.map Char.toLower ≠ right.toList.map Char.toLower) :
    ¬ Spells right word := fun other => different (spells.symm.trans other)

/-- The words from the keyword on do not end in such words again. -/
theorem EndsGrant.eq_nil_of_append {front ending : List (List Char)} (ends : EndsGrant ending)
    (again : EndsGrant (front ++ ending)) : front = [] := by
  rcases ends with ⟨onWord, key, table, toWord, role, rest, rfl, isOn, isKey, isTo, closes⟩
  rcases again with ⟨_, key', table', toWord', role', rest', joined, _, isKey', isTo', closes'⟩
  cases front with
  | nil => rfl
  | cons first front =>
      rw [List.cons_append, List.cons.injEq] at joined
      have size : (key ++ table :: toWord :: role :: rest).length ∈ [3, 4, 6, 7] := by
        rcases isKey with rfl | ⟨_, rfl, _⟩ <;> rcases closes with rfl | ⟨_, _, _, rfl, _⟩ <;> simp
      have third : ∀ word grant last, key ++ table :: toWord :: role :: rest = [word, grant, last] →
          ¬ Spells "GRANT" grant := by
        intro word grant last same
        apply Spells.differs _ (show "TO".toList.map Char.toLower ≠ _ by decide)
        rcases isKey with rfl | ⟨_, rfl, _⟩
        · rw [List.nil_append, List.cons.injEq, List.cons.injEq] at same
          exact same.2.1 ▸ isTo
        · simp at same
      have noTable := isOn.differs (show _ ≠ "TABLE".toList.map Char.toLower by decide)
      have noTo := isOn.differs (show _ ≠ "TO".toList.map Char.toLower by decide)
      generalize key ++ table :: toWord :: role :: rest = after at joined size third
      -- Too few words follow the table, and those before it are other keywords.
      have lengths := congrArg List.length joined.2
      rcases isKey' with rfl | ⟨tableWord, rfl, isTable⟩ <;>
        rcases closes' with rfl | ⟨word, grant, last, rfl, isGrant⟩ <;>
        rcases front with _ | ⟨a, _ | ⟨b, _ | ⟨c, _ | ⟨d, front⟩⟩⟩⟩ <;>
        simp at joined lengths <;> grind

theorem endsGrant_of_onward {input : List Char} {way : GrantPieces × List Char}
    (member : way ∈ onward input) : EndsGrant (Text.words Text.isSpace input) := by
  have gap : IsGap Text.isSpace [' '] := ⟨List.cons_ne_nil _ _, Text.forall_mem_of_all (by decide)⟩
  -- The rest of a line is read as that of a line with the one privilege x.
  have whole : (way.1.withPrivileges ['x'], way.2) ∈
      GRANT_LINE_RE Text.isSpace ("GRANT".toList ++ ([' '] ++ (['x'] ++ ([' '] ++ input)))) := by
    rw [GRANT_LINE_RE_eq, Pattern.word_bind]
    apply Pattern.mem_bind.mpr ⟨([' '], ['x'] ++ ([' '] ++ input)), Pattern.mem_plus.mpr ⟨rfl, gap⟩,
      _⟩
    apply Pattern.mem_bind.mpr ⟨(['x'], [' '] ++ input), Pattern.mem_prefixes.mpr ⟨rfl, ?_⟩, ?_⟩
    · exact ⟨List.cons_ne_nil _ _, List.forall_mem_singleton.mpr (by decide)⟩
    · apply Pattern.mem_bind.mpr ⟨([' '], input), Pattern.mem_plus.mpr ⟨rfl, gap⟩, _⟩
      exact Pattern.mem_bind.mpr ⟨way, member, List.mem_singleton.mpr rfl⟩
  rcases exists_cutInto whole with ⟨_, _, _, _, _, cut⟩
  rcases words_of_cutInto cut with ⟨grant, ending, words, ends⟩
  rw [Text.words_append_gap _ _ gap.1 gap.2, Text.words_append_gap _ _ gap.1 gap.2] at words
  have same : Text.words Text.isSpace input = ending :=
    List.append_cancel_left (List.cons.inj words).2
  rw [same]
  exact ends

/-! ## Lines around a text -/

/-- A text that can stand for the privileges: on one line, with no white space at its ends. -/
structure IsListing (raw : List Char) : Prop where
  nonempty : raw ≠ []
  oneLine : ∀ c ∈ raw, isLineTerminator c = false
  first : ∀ c ∈ raw.head?, Text.isSpace c = false
  last : ∀ c ∈ raw.getLast?, Text.isSpace c = false

/-- The same as a test on the text. -/
def isListing (raw : List Char) : Bool :=
  !raw.isEmpty && raw.all (fun c => !isLineTerminator c) &&
    raw.head?.all (fun c => !Text.isSpace c) && raw.getLast?.all fun c => !Text.isSpace c

theorem isListing_iff (raw : List Char) : isListing raw = true ↔ IsListing raw := by
  simp only [isListing, Bool.and_eq_true, Bool.not_eq_true', List.isEmpty_eq_false_iff,
    List.all_eq_true, Option.all_eq_true, and_assoc]
  constructor
  · rintro ⟨nonempty, oneLine, first, last⟩
    exact ⟨nonempty, oneLine, first, last⟩
  · rintro ⟨nonempty, oneLine, first, last⟩
    exact ⟨nonempty, oneLine, first, last⟩

instance (raw : List Char) : Decidable (IsListing raw) := decidable_of_iff _ (isListing_iff raw)

instance (space : Char → Bool) (gap : List Char) : Decidable (IsGap space gap) :=
  decidable_of_iff (gap ≠ [] ∧ gap.all space = true)
    (and_congr_right fun _ => List.all_eq_true)

/-- A GRANT line but for the privileges and the white space around them. -/
structure GrantFrame where
  lead : List Char
  word : List Char
  rest : List Char
  trail : List Char
  /-- What the pattern captures of the rest. -/
  pieces : GrantPieces
  lead_space : ∀ c ∈ lead, Text.isSpace c = true
  trail_space : ∀ c ∈ trail, Text.isSpace c = true
  spells : Spells "GRANT" word
  rest_first : ∀ c ∈ rest.head?, Text.isSpace c = false
  rest_last : ∀ c ∈ rest.getLast?, Text.isSpace c = false
  reads : onward.exec rest = some pieces

namespace GrantFrame

variable (frame : GrantFrame) {opening raw closing : List Char}

/-- The line without the white space around it. -/
def core (opening raw closing : List Char) : List Char :=
  frame.word ++ (opening ++ (raw ++ (closing ++ frame.rest)))

def line (opening raw closing : List Char) : String :=
  String.ofList (frame.lead ++ (frame.core opening raw closing ++ frame.trail))

theorem rest_ne_nil : frame.rest ≠ [] := by
  intro empty
  have reads := frame.reads
  rw [empty] at reads
  exact absurd reads (Option.some_ne_none _).symm

theorem word_ne_nil : frame.word ≠ [] := frame.spells.nonempty (by decide)

theorem trim_line : Text.trim (frame.line opening raw closing) =
    String.ofList (frame.core opening raw closing) := by
  apply Text.trimWith_surrounded frame.lead_space frame.trail_space
  · rw [core]
    exact List.append_ne_nil_of_left_ne_nil frame.word_ne_nil _
  · intro c first
    rw [core, List.head?_append_of_ne_nil _ frame.word_ne_nil] at first
    exact Text.isSpace_eq_false_of_isAlpha (frame.spells.letters
      (Text.forall_mem_of_all (by decide)) c (List.mem_of_head? first))
  · intro c last
    rw [core, ← List.append_assoc, ← List.append_assoc, ← List.append_assoc,
      List.getLast?_append_of_ne_nil _ frame.rest_ne_nil] at last
    exact frame.rest_last c last

/-- The keyword is not found in the privileges, since the words would not be enough. -/
theorem afterPrivileges_eq_nil (closes : IsGap Text.isSpace closing) (listing : IsListing raw)
    {before after : List Char} (joined : raw = before ++ after) (nonempty : after ≠ []) :
    afterPrivileges before (after ++ (closing ++ frame.rest)) = [] := by
  have someWord : Text.words Text.isSpace after ≠ [] := by
    have isLast : raw.getLast? = after.getLast? := by
      rw [joined, List.getLast?_append_of_ne_nil _ nonempty]
    have last := List.getLast?_eq_some_getLast nonempty
    exact Text.words_ne_nil (List.getLast_mem nonempty) (listing.last _ (isLast.trans last))
  apply Pattern.bind_eq_nil
  intro gap rest inGap
  rcases Pattern.mem_plus.mp inGap with ⟨cut, isGap⟩
  apply Pattern.bind_eq_nil
  intro m left inRest
  have words := Text.words_append_gap after frame.rest closes.1 closes.2
  rw [cut] at words
  have again := Text.words_append_gap [] rest isGap.1 isGap.2
  rw [List.nil_append] at again
  rw [again] at words
  have ends := endsGrant_of_onward inRest
  rcases Pattern.mem_of_exec frame.reads with ⟨_, member⟩
  exact absurd ((endsGrant_of_onward member).eq_nil_of_append (words ▸ ends)) someWord

/-- A line with other privileges is taken apart as before. -/
theorem grantPieces_line (opens : IsGap Text.isSpace opening) (closes : IsGap Text.isSpace closing)
    (listing : IsListing raw) :
    grantPieces Text.isSpace (frame.line opening raw closing) =
      some (frame.pieces.withPrivileges raw) := by
  rcases Option.map_eq_some_iff.mp frame.reads with ⟨way, preferred, isPieces⟩
  have here : (afterPrivileges raw (closing ++ frame.rest)).head? =
      some (way.1.withPrivileges raw, way.2) := by
    rw [afterPrivileges_gap closes frame.rest_first, List.head?_map, preferred]
    rfl
  have found : ((Pattern.lazyPlus (fun c => !isLineTerminator c) >>= fun raw => afterPrivileges raw)
      (raw ++ (closing ++ frame.rest))).head? = some (way.1.withPrivileges raw, way.2) := by
    apply Pattern.head?_lazyPlus_bind listing.nonempty
    · intro c member
      simp [listing.oneLine c member]
    · intro before after joined _ someAfter
      exact frame.afterPrivileges_eq_nil closes listing joined someAfter
    · exact here
  have trimmed := @trim_line frame opening raw closing
  rw [grantPieces, show Text.trimWith Text.isSpace _ = _ from trimmed, String.toList_ofList, core,
    Pattern.exec, GRANT_LINE_RE_eq, Pattern.word_bind_of_lower frame.spells]
  cases raw with
  | nil => exact absurd rfl listing.nonempty
  | cons c raw =>
      rw [List.cons_append] at found ⊢
      rw [Pattern.head?_plus_bind opens.1 opens.2 (listing.first c rfl) found, Option.map_some,
        isPieces]

end GrantFrame

/-! ## Every line that is taken apart -/

/-- Where white space is found, all of it can be taken. -/
theorem exists_gap {input : List Char} {way : List Char × List Char}
    (member : way ∈ Pattern.plus Text.isSpace input) :
    ∃ gap, input = gap ++ input.dropWhile Text.isSpace ∧ IsGap Text.isSpace gap ∧
      ∀ c ∈ (input.dropWhile Text.isSpace).head?, Text.isSpace c = false := by
  rcases Text.exists_leading Text.isSpace input with ⟨gap, cut, blank, outside⟩
  rcases Pattern.mem_plus.mp member with ⟨start, nonempty, every⟩
  refine ⟨gap, cut, ⟨?_, blank⟩, outside⟩
  intro empty
  rw [empty, List.nil_append] at cut
  rw [← cut, start, List.head?_append_of_ne_nil _ nonempty] at outside
  have first := List.head?_eq_some_head nonempty
  have isSpace := every _ (List.head_mem nonempty)
  rw [outside _ first] at isSpace
  exact Bool.noConfusion isSpace

/-- What stands after the privileges of a match: white space, then the rest. -/
theorem exists_onward_of_afterPrivileges {raw input : List Char} {found : GrantPieces × List Char}
    (first : (afterPrivileges raw input).head? = some found) :
    ∃ closing rest pieces, input = closing ++ rest ∧ IsGap Text.isSpace closing ∧
      (∀ c ∈ rest.head?, Text.isSpace c = false) ∧ onward.exec rest = some pieces ∧
      found.1 = pieces.withPrivileges raw := by
  rcases Pattern.mem_bind.mp (List.mem_of_head? first) with ⟨way, inGap, _⟩
  rcases exists_gap inGap with ⟨closing, cut, isGap, outside⟩
  rw [cut, afterPrivileges_gap isGap outside, List.head?_map] at first
  rcases Option.map_eq_some_iff.mp first with ⟨inner, preferred, rfl⟩
  refine ⟨closing, _, inner.1, cut, isGap, outside, ?_, rfl⟩
  rw [Pattern.exec, preferred]
  rfl

/-- The pattern from the privileges on. -/
def fromPrivileges : Pattern GrantPieces :=
  Pattern.lazyPlus (fun c => !isLineTerminator c) >>= fun raw => afterPrivileges raw

/-- The privileges of a match start where the white space ends, unless there are none. -/
theorem head?_fromPrivileges {input : List Char} {found : GrantPieces × List Char}
    (first : ((Pattern.plus Text.isSpace >>= fun _ => fromPrivileges) input).head? = some found)
    (filled : ∃ c ∈ found.1.rawPrivileges, Text.isSpace c = false) :
    ∃ opening rest, input = opening ++ rest ∧ IsGap Text.isSpace opening ∧
      (∀ c ∈ rest.head?, Text.isSpace c = false) ∧ (fromPrivileges rest).head? = some found := by
  rcases Pattern.mem_bind.mp (List.mem_of_head? first) with ⟨way, inGap, inRest⟩
  rcases exists_gap inGap with ⟨opening, cut, isGap, outside⟩
  refine ⟨opening, _, cut, isGap, outside, ?_⟩
  rcases Pattern.mem_bind.mp inRest with ⟨privileges, inPrivileges, inAfter⟩
  rcases Pattern.mem_prefixes.mp inPrivileges with ⟨cutPrivileges, _, every⟩
  have succeeds : fromPrivileges (input.dropWhile Text.isSpace) ≠ [] := by
    rw [rawPrivileges_of_mem inAfter] at filled
    have stays : privileges.1.dropWhile Text.isSpace ≠ [] := by
      intro empty
      rcases filled with ⟨c, inRaw, other⟩
      rw [List.dropWhile_eq_nil_iff.mp empty c inRaw] at other
      exact Bool.noConfusion other
    have shorter : afterPrivileges (privileges.1.dropWhile Text.isSpace) privileges.2 ≠ [] := by
      rw [afterPrivileges_eq] at inAfter ⊢
      rw [Ne, List.map_eq_nil_iff]
      rcases List.mem_map.mp inAfter with ⟨inner, member, _⟩
      exact List.ne_nil_of_mem member
    rcases Pattern.mem_plus.mp inGap with ⟨start, _, blank⟩
    rw [start, List.dropWhile_append_of_pos blank, cutPrivileges, List.dropWhile_append,
      if_neg (by simpa using stays)]
    rcases List.exists_mem_of_ne_nil _ shorter with ⟨found, inShorter⟩
    apply List.ne_nil_of_mem (Pattern.mem_bind.mpr ⟨(_, privileges.2),
      Pattern.mem_prefixes.mpr ⟨rfl, stays, ?_⟩, inShorter⟩)
    exact fun c member => every c ((List.dropWhile_suffix _).mem member)
  rcases List.exists_cons_of_ne_nil succeeds with ⟨preferred, others, isFirst⟩
  have head : (fromPrivileges (input.dropWhile Text.isSpace)).head? = some preferred := by
    rw [isFirst, List.head?_cons]
  generalize input.dropWhile Text.isSpace = rest at cut outside head
  cases rest with
  | nil => exact absurd head (Option.some_ne_none _).symm
  | cons stop rest =>
      rw [cut, Pattern.head?_plus_bind isGap.1 isGap.2 (outside stop rfl) head] at first
      rw [head, first]

/-- The privileges of a match end where the white space before the keyword starts. -/
theorem isListing_of_head? {input : List Char} {found : GrantPieces × List Char}
    (outside : ∀ c ∈ input.head?, Text.isSpace c = false)
    (first : (fromPrivileges input).head? = some found) :
    ∃ closing rest pieces, input = found.1.rawPrivileges ++ (closing ++ rest) ∧
      IsListing found.1.rawPrivileges ∧ IsGap Text.isSpace closing ∧
      (∀ c ∈ rest.head?, Text.isSpace c = false) ∧ onward.exec rest = some pieces := by
  rcases Pattern.exists_of_head?_lazyPlus_bind first with
    ⟨raw, after, cut, nonempty, every, fails, succeeds⟩
  rcases exists_onward_of_afterPrivileges succeeds with
    ⟨closing, rest, pieces, cutAfter, closes, restFirst, reads, isFound⟩
  rw [isFound, GrantPieces.withPrivileges_rawPrivileges]
  refine ⟨closing, rest, pieces, by rw [cut, cutAfter], ?_, closes, restFirst, reads⟩
  have starts : ∀ c ∈ raw.head?, Text.isSpace c = false := by
    rw [cut, List.head?_append_of_ne_nil _ nonempty] at outside
    exact outside
  refine ⟨nonempty, by simpa using every, starts, ?_⟩
  intro c last
  rcases List.getLast?_eq_some_iff.mp last with ⟨before, isRaw⟩
  cases blank : Text.isSpace c with
  | false => rfl
  | true =>
      have longer : IsGap Text.isSpace (c :: closing) :=
        ⟨List.cons_ne_nil _ _, List.forall_mem_cons.mpr ⟨blank, closes.2⟩⟩
      have earlier : before ≠ [] := by
        intro empty
        rw [isRaw, empty] at starts
        exact absurd (blank.symm.trans (starts c rfl)) Bool.noConfusion
      have none := fails before [c] isRaw earlier (List.cons_ne_nil _ _)
      rw [cutAfter, List.singleton_append, ← List.cons_append, afterPrivileges_gap longer restFirst,
        List.map_eq_nil_iff] at none
      rw [Pattern.exec, none] at reads
      exact absurd reads (Option.some_ne_none _).symm

/-- A line whose privileges are not blank is a frame around them. -/
theorem exists_frame {line : String} {m : GrantPieces}
    (parsed : grantPieces Text.isSpace line = some m)
    (filled : ∃ c ∈ m.rawPrivileges, Text.isSpace c = false) :
    ∃ (frame : GrantFrame) (opening closing : List Char), IsGap Text.isSpace opening ∧
      IsGap Text.isSpace closing ∧ IsListing m.rawPrivileges ∧
      line = frame.line opening m.rawPrivileges closing := by
  rcases Option.map_eq_some_iff.mp parsed with ⟨found, preferred, rfl⟩
  rcases Text.exists_trimWith Text.isSpace line with
    ⟨lead, trail, cutLine, leads, trails, _, last⟩
  generalize (Text.trimWith Text.isSpace line).toList = input at preferred cutLine last
  rw [GRANT_LINE_RE_eq] at preferred
  rcases Pattern.mem_bind.mp (List.mem_of_head? preferred) with ⟨_, inWord, _⟩
  rcases (Pattern.mem_word _).mp inWord with ⟨word, cutWord, spells⟩
  rw [cutWord, Pattern.word_bind_of_lower spells] at preferred
  rcases head?_fromPrivileges preferred filled with
    ⟨opening, after, cutOpening, opens, outside, first⟩
  rcases isListing_of_head? outside first with
    ⟨closing, rest, pieces, cutAfter, listing, closes, restFirst, reads⟩
  have restLast : ∀ c ∈ rest.getLast?, Text.isSpace c = false := by
    intro c inLast
    apply last c
    have nonempty : rest ≠ [] := by
      intro empty
      rw [empty] at inLast
      exact absurd inLast (Option.some_ne_none _).symm
    rw [cutWord, cutOpening, cutAfter]
    simp only [← List.append_assoc]
    rwa [List.getLast?_append_of_ne_nil _ nonempty]
  refine ⟨{ lead := lead, word := word, rest := rest, trail := trail, pieces := pieces
            lead_space := leads, trail_space := trails, spells := spells
            rest_first := restFirst, rest_last := restLast, reads := reads },
    opening, closing, opens, closes, listing, ?_⟩
  apply String.toList_inj.mp
  rw [GrantFrame.line, GrantFrame.core, String.toList_ofList, cutLine, cutWord, cutOpening,
    cutAfter]

/-! ## The privileges of a line -/

/-- The privileges between the commas as they are written. -/
def privilegeTexts (raw : List Char) : List String :=
  ((Text.split ',' (String.ofList raw)).map Text.trim).filter (· ≠ "")

/-- A text without a comma is one privilege. -/
theorem privilegeTexts_singleton {text : String} (nonempty : text ≠ "") (free : ',' ∉ text.toList)
    (trimmed : Text.trim text = text) : privilegeTexts text.toList = [text] := by
  have alone : Text.split ',' text = [text] := by
    have pieces :=
      @Text.split_join ',' [text] (List.cons_ne_nil _ _) (List.forall_mem_singleton.mpr free)
    rwa [Text.join_singleton] at pieces
  rw [privilegeTexts, String.ofList_toList, alone, List.map_singleton, trimmed,
    List.filter_cons_of_pos (by simpa using nonempty), List.filter_nil]

/-- A privilege of a line can stand alone. -/
theorem of_mem_privilegeTexts {raw : List Char} {text : String} (listing : IsListing raw)
    (member : text ∈ privilegeTexts raw) :
    IsListing text.toList ∧ privilegeTexts text.toList = [text] := by
  rw [privilegeTexts, List.mem_filter, decide_eq_true_eq] at member
  rcases member with ⟨inPieces, nonempty⟩
  rcases List.mem_map.mp inPieces with ⟨piece, inSplit, rfl⟩
  rcases Text.exists_trimWith Text.isSpace piece with ⟨_, _, _, _, _, first, last⟩
  have inPiece : ∀ c ∈ (Text.trim piece).toList, c ∈ piece.toList := fun c =>
    Text.mem_of_mem_trimWith
  constructor
  · refine ⟨fun empty => nonempty (String.toList_inj.mp empty), ?_, first, last⟩
    intro c inText
    have inRaw := Text.mem_of_mem_split inSplit (inPiece c inText)
    rw [String.toList_ofList] at inRaw
    exact listing.oneLine c inRaw
  · apply privilegeTexts_singleton nonempty
    · exact fun inText => Text.notMem_of_mem_split inSplit (inPiece ',' inText)
    · exact Text.trimWith_eq_self first last

/-- The privileges that a text stands for. -/
def Lists (upper : CaseMapping) (raw : List Char) (p : String) : Prop :=
  p ≠ "" ∧ ∃ text ∈ privilegeTexts raw, upper.toUpperCase text = p

theorem mem_listedPrivileges (upper : CaseMapping) (raw : List Char) (p : String) :
    p ∈ listedPrivileges upper (String.ofList raw) ↔ Lists upper raw p := by
  have empty : upper.toUpperCase "" = "" :=
    upper.ascii "" (fun c absent => absurd absent List.not_mem_nil)
  simp only [Lists, listedPrivileges, privilegeTexts, List.mem_filter, List.mem_map,
    decide_eq_true_eq]
  constructor
  · rintro ⟨⟨piece, inSplit, rfl⟩, nonempty⟩
    refine ⟨nonempty, Text.trim piece, ⟨⟨piece, inSplit, rfl⟩, ?_⟩, rfl⟩
    intro blank
    rw [blank, empty] at nonempty
    exact nonempty rfl
  · rintro ⟨nonempty, _, ⟨⟨piece, inSplit, rfl⟩, _⟩, rfl⟩
    exact ⟨⟨piece, inSplit, rfl⟩, nonempty⟩

namespace GrantFrame

variable (frame : GrantFrame) {opening raw closing : List Char}

theorem parseGrantLine_line (upper : CaseMapping) (opens : IsGap Text.isSpace opening)
    (closes : IsGap Text.isSpace closing) (listing : IsListing raw) :
    parseGrantLine upper (frame.line opening raw closing) =
      some (parsedGrant upper (frame.pieces.withPrivileges raw)) := by
  rw [parseGrantLine, frame.grantPieces_line opens closes listing, Option.map_some]

theorem mem_privileges (upper : CaseMapping) (p : String) :
    p ∈ (parsedGrant upper (frame.pieces.withPrivileges raw)).privileges ↔
      Lists upper raw p ∨ frame.pieces.grantOption = true ∧ p = "GRANT OPTION" := by
  rw [mem_parsedGrant_privileges, GrantPieces.withPrivileges_rawPrivileges, mem_listedPrivileges]
  exact Iff.rfl

end GrantFrame

end BelugaManager.PolicyCompiler
