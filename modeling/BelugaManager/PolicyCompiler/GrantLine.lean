import BelugaManager.Foundation.Backtrack
import BelugaManager.Foundation.OrderedMap
import Mathlib.Data.List.Chain
import BelugaManager.Foundation.Text

/-!
# GRANT lines

How `drift.ts` takes a GRANT line apart.  The pattern is kept over an arbitrary class
of white space, so that what another reader of the same line would capture can be
compared with it.
-/

namespace BelugaManager.PolicyCompiler

open Foundation

/-- The method `toUpperCase`. Beyond ASCII the letters it maps are left open. -/
structure CaseMapping where
  toUpperCase : String → String
  ascii : ∀ s : String, (∀ c ∈ s.toList, c.toNat < 128) → toUpperCase s = Text.upperAscii s

/-- The mapping that raises ASCII letters only. -/
def asciiCase : CaseMapping where
  toUpperCase := Text.upperAscii
  ascii := fun _ _ => rfl

/-- What the pattern captures. -/
structure GrantPieces where
  rawPrivileges : List Char
  rawTable : List Char
  rawRole : List Char
  grantOption : Bool
  deriving DecidableEq, Repr

/-- The characters that `.` does not match. -/
def isLineTerminator (c : Char) : Bool :=
  c = '\n' || c = '\r' || c.toNat = 0x2028 || c.toNat = 0x2029

section Pattern

variable (space : Char → Bool)

/-- A keyword between white space, as in `\s+ON\s+`. -/
def between (keyword : String) : Pattern Unit := do
  let _ ← Pattern.plus space
  Pattern.word keyword
  let _ ← Pattern.plus space
  return ()

/-- `TABLE\s+` -/
def tableKeyword : Pattern Unit := do
  Pattern.word "TABLE"
  let _ ← Pattern.plus space
  return ()

/-- `\s+WITH\s+GRANT\s+OPTION` -/
def grantOptionClause : Pattern Unit := do
  between space "WITH"
  Pattern.word "GRANT"
  let _ ← Pattern.plus space
  Pattern.word "OPTION"

/-- `^GRANT\s+(.+?)\s+ON\s+(?:TABLE\s+)?(\S+)\s+TO\s+(\S+?)(\s+WITH\s+GRANT\s+OPTION)?;?$`,
ignoring case. -/
def GRANT_LINE_RE : Pattern GrantPieces := do
  Pattern.word "GRANT"
  let _ ← Pattern.plus space
  let rawPrivileges ← Pattern.lazyPlus fun c => !isLineTerminator c
  between space "ON"
  let _ ← Pattern.opt (tableKeyword space)
  let rawTable ← Pattern.plus fun c => !space c
  between space "TO"
  let rawRole ← Pattern.lazyPlus fun c => !space c
  let grantOption ← Pattern.opt (grantOptionClause space)
  let _ ← Pattern.opt (Pattern.word ";")
  Pattern.atEnd
  return { rawPrivileges := rawPrivileges, rawTable := rawTable, rawRole := rawRole
           grantOption := grantOption.isSome }

end Pattern

/-- The pieces of a line without the white space around it. -/
def grantPieces (space : Char → Bool) (line : String) : Option GrantPieces :=
  (GRANT_LINE_RE space).exec (Text.trimWith space line).toList

def stripQuotes (ident : String) : String := Text.removeChar '"' ident

/-- A line taken apart; the privileges are a set. -/
structure ParsedGrant where
  table : String
  role : String
  privileges : List String
  privileges_nodup : privileges.Nodup
  deriving DecidableEq, Repr

/-- The privileges between the commas, in upper case. -/
def listedPrivileges (upper : CaseMapping) (rawPrivileges : String) : List String :=
  ((Text.split ',' rawPrivileges).map fun p => upper.toUpperCase (Text.trim p)).filter (· ≠ "")

/-- What is made of the captures: the grant option counts as one more privilege. -/
def parsedGrant (upper : CaseMapping) (m : GrantPieces) : ParsedGrant where
  table := stripQuotes (String.ofList m.rawTable)
  role := stripQuotes (String.ofList m.rawRole)
  privileges := (listedPrivileges upper (String.ofList m.rawPrivileges) ++
    if m.grantOption then ["GRANT OPTION"] else []).eraseDups
  privileges_nodup := nodup_eraseDups _

@[simp] theorem parsedGrant_table (upper : CaseMapping) (m : GrantPieces) :
    (parsedGrant upper m).table = stripQuotes (String.ofList m.rawTable) := rfl

@[simp] theorem parsedGrant_role (upper : CaseMapping) (m : GrantPieces) :
    (parsedGrant upper m).role = stripQuotes (String.ofList m.rawRole) := rfl

def parseGrantLine (upper : CaseMapping) (line : String) : Option ParsedGrant :=
  (grantPieces Text.isSpace line).map (parsedGrant upper)

theorem mem_parsedGrant_privileges (upper : CaseMapping) (m : GrantPieces) (p : String) :
    p ∈ (parsedGrant upper m).privileges ↔
      p ∈ listedPrivileges upper (String.ofList m.rawPrivileges) ∨
        m.grantOption = true ∧ p = "GRANT OPTION" := by
  rw [parsedGrant, List.mem_eraseDups, List.mem_append]
  cases m.grantOption <;> simp

/-! ## What a match looks like -/

section Match

variable {space : Char → Bool}

/-- White space between two words. -/
def IsGap (space : Char → Bool) (gap : List Char) : Prop :=
  gap ≠ [] ∧ ∀ c ∈ gap, space c = true

/-- A word that spells a keyword, in either case. -/
def Spells (keyword : String) (word : List Char) : Prop :=
  word.map Char.toLower = keyword.toList.map Char.toLower

instance (keyword : String) (word : List Char) : Decidable (Spells keyword word) :=
  inferInstanceAs (Decidable (_ = _))

/-- A keyword and the white space after it. -/
def Leading (space : Char → Bool) (keyword : String) (part : List Char) : Prop :=
  ∃ word gap, part = word ++ gap ∧ Spells keyword word ∧ IsGap space gap

/-- A keyword between white space. -/
def Surrounded (space : Char → Bool) (keyword : String) (part : List Char) : Prop :=
  ∃ gap rest, part = gap ++ rest ∧ IsGap space gap ∧ Leading space keyword rest

/-- What may follow the role. -/
def ClosesGrant (space : Char → Bool) (grantOption : Bool) (tail : List Char) : Prop :=
  ∃ semicolon, (semicolon = [] ∨ semicolon = [';']) ∧
    (grantOption = false ∧ tail = semicolon ∨
      ∃ withPart grantPart optionWord, tail = withPart ++ (grantPart ++ (optionWord ++ semicolon)) ∧
        Surrounded space "WITH" withPart ∧ Leading space "GRANT" grantPart ∧
        Spells "OPTION" optionWord)

/-- A line in the parts that the pattern finds. -/
structure CutInto (space : Char → Bool) (input : List Char) (m : GrantPieces)
    (grantPart onPart tablePart toPart tail : List Char) : Prop where
  joined : input = grantPart ++ (m.rawPrivileges ++ (onPart ++ (tablePart ++
    (m.rawTable ++ (toPart ++ (m.rawRole ++ tail))))))
  leadsGrant : Leading space "GRANT" grantPart
  surroundsOn : Surrounded space "ON" onPart
  leadsTable : tablePart = [] ∨ Leading space "TABLE" tablePart
  surroundsTo : Surrounded space "TO" toPart
  closes : ClosesGrant space m.grantOption tail
  tableNonempty : m.rawTable ≠ []
  tableFree : ∀ c ∈ m.rawTable, space c = false
  roleNonempty : m.rawRole ≠ []
  roleFree : ∀ c ∈ m.rawRole, space c = false

theorem mem_between {keyword : String} {input : List Char} {way : Unit × List Char}
    (member : way ∈ between space keyword input) :
    ∃ part, input = part ++ way.2 ∧ Surrounded space keyword part := by
  rw [between] at member
  rcases Pattern.mem_bind.mp member with ⟨first, inFirst, afterFirst⟩
  rcases Pattern.mem_bind.mp afterFirst with ⟨word, inWord, afterWord⟩
  rcases Pattern.mem_bind.mp afterWord with ⟨second, inSecond, final⟩
  rw [Pattern.pure_apply, List.mem_singleton] at final
  rcases Pattern.mem_plus.mp inFirst with ⟨cutFirst, firstGap⟩
  rcases (Pattern.mem_word keyword).mp inWord with ⟨spelling, cutWord, spells⟩
  rcases Pattern.mem_plus.mp inSecond with ⟨cutSecond, secondGap⟩
  refine ⟨first.1 ++ (spelling ++ second.1), ?_, first.1, _, rfl, firstGap, ?_⟩
  · rw [cutFirst, cutWord, cutSecond, final]
    simp
  · exact ⟨spelling, second.1, rfl, spells, secondGap⟩

theorem mem_tableKeyword {input : List Char} {way : Option Unit × List Char}
    (member : way ∈ Pattern.opt (tableKeyword space) input) :
    ∃ part, input = part ++ way.2 ∧ (part = [] ∨ Leading space "TABLE" part) := by
  rcases Pattern.mem_opt.mp member with rfl | ⟨inner, inBody, rfl⟩
  · exact ⟨[], rfl, Or.inl rfl⟩
  · rw [tableKeyword] at inBody
    rcases Pattern.mem_bind.mp inBody with ⟨word, inWord, afterWord⟩
    rcases Pattern.mem_bind.mp afterWord with ⟨gap, inGap, final⟩
    rw [Pattern.pure_apply, List.mem_singleton] at final
    rcases (Pattern.mem_word _).mp inWord with ⟨spelling, cutWord, spells⟩
    rcases Pattern.mem_plus.mp inGap with ⟨cutGap, isGap⟩
    refine ⟨spelling ++ gap.1, ?_, Or.inr ⟨spelling, gap.1, rfl, spells, isGap⟩⟩
    rw [cutWord, cutGap, final]
    simp

theorem mem_grantOptionClause {input : List Char} {way : Unit × List Char}
    (member : way ∈ grantOptionClause space input) :
    ∃ withPart grantPart optionWord, input = withPart ++ (grantPart ++ (optionWord ++ way.2)) ∧
      Surrounded space "WITH" withPart ∧ Leading space "GRANT" grantPart ∧
      Spells "OPTION" optionWord := by
  rw [grantOptionClause] at member
  rcases Pattern.mem_bind.mp member with ⟨start, inWith, afterWith⟩
  rcases Pattern.mem_bind.mp afterWith with ⟨word, inWord, afterWord⟩
  rcases Pattern.mem_bind.mp afterWord with ⟨gap, inGap, inOption⟩
  rcases mem_between inWith with ⟨withPart, cutWith, surrounded⟩
  rcases (Pattern.mem_word _).mp inWord with ⟨grant, cutGrant, spellsGrant⟩
  rcases Pattern.mem_plus.mp inGap with ⟨cutGap, isGap⟩
  rcases (Pattern.mem_word _).mp inOption with ⟨option, cutOption, spellsOption⟩
  refine ⟨withPart, grant ++ gap.1, option, ?_, surrounded,
    ⟨grant, gap.1, rfl, spellsGrant, isGap⟩, spellsOption⟩
  rw [cutWith, cutGrant, cutGap, cutOption]
  simp

theorem mem_semicolon {input : List Char} {way : Option Unit × List Char}
    (member : way ∈ Pattern.opt (Pattern.word ";") input) (atEnd : way.2 = []) :
    input = [] ∨ input = [';'] := by
  rcases Pattern.mem_opt.mp member with rfl | ⟨inner, inBody, rfl⟩
  · exact Or.inl atEnd
  · rcases (Pattern.mem_word _).mp inBody with ⟨word, joined, spells⟩
    have ends : inner.2 = [] := atEnd
    rw [ends, List.append_nil] at joined
    have alone : word.map Char.toLower = [Char.toLower ';'] := spells
    rcases List.map_eq_singleton_iff.mp alone with ⟨c, isWord, lowered⟩
    rw [joined, isWord, Text.eq_of_toLower_eq lowered (by decide)]
    exact Or.inr rfl

/-- A match cuts the line. -/
theorem exists_cutInto {input : List Char} {way : GrantPieces × List Char}
    (member : way ∈ GRANT_LINE_RE space input) :
    ∃ grantPart onPart tablePart toPart tail,
      CutInto space input way.1 grantPart onPart tablePart toPart tail := by
  rw [GRANT_LINE_RE] at member
  rcases Pattern.mem_bind.mp member with ⟨word, inWord, afterWord⟩
  rcases Pattern.mem_bind.mp afterWord with ⟨gap, inGap, afterGap⟩
  rcases Pattern.mem_bind.mp afterGap with ⟨privileges, inPrivileges, afterPrivileges⟩
  rcases Pattern.mem_bind.mp afterPrivileges with ⟨middle, inOn, afterOn⟩
  rcases Pattern.mem_bind.mp afterOn with ⟨keyword, inKeyword, afterKeyword⟩
  rcases Pattern.mem_bind.mp afterKeyword with ⟨table, inTable, afterTable⟩
  rcases Pattern.mem_bind.mp afterTable with ⟨finish, inTo, afterTo⟩
  rcases Pattern.mem_bind.mp afterTo with ⟨role, inRole, afterRole⟩
  rcases Pattern.mem_bind.mp afterRole with ⟨option, inOption, afterOption⟩
  rcases Pattern.mem_bind.mp afterOption with ⟨semicolon, inSemicolon, afterSemicolon⟩
  rcases Pattern.mem_bind.mp afterSemicolon with ⟨stop, inEnd, final⟩
  rw [Pattern.pure_apply, List.mem_singleton] at final
  rcases (Pattern.mem_word _).mp inWord with ⟨grant, cutGrant, spellsGrant⟩
  rcases Pattern.mem_plus.mp inGap with ⟨cutGap, isGap⟩
  rcases Pattern.mem_prefixes.mp inPrivileges with ⟨cutPrivileges, _⟩
  rcases mem_between inOn with ⟨onPart, cutOn, surroundsOn⟩
  rcases mem_tableKeyword inKeyword with ⟨tablePart, cutKeyword, leadsTable⟩
  rcases Pattern.mem_plus.mp inTable with ⟨cutTable, tableNonempty, tableFree⟩
  rcases mem_between inTo with ⟨toPart, cutTo, surroundsTo⟩
  rcases Pattern.mem_prefixes.mp inRole with ⟨cutRole, roleNonempty, roleFree⟩
  have closed := mem_semicolon inSemicolon (Pattern.mem_atEnd.mp inEnd).1
  have closes : ClosesGrant space option.1.isSome role.2 := by
    rcases Pattern.mem_opt.mp inOption with equal | ⟨inner, inBody, equal⟩
    · rw [equal] at closed ⊢
      exact ⟨role.2, closed, Or.inl ⟨rfl, rfl⟩⟩
    · rw [equal] at closed ⊢
      rcases mem_grantOptionClause inBody with ⟨withPart, grantPart, optionWord, cut, spelled⟩
      exact ⟨inner.2, closed, Or.inr ⟨withPart, grantPart, optionWord, cut, spelled⟩⟩
  rw [final]
  exact ⟨grant ++ gap.1, onPart, tablePart, toPart, role.2, {
    joined := by
      rw [cutGrant, cutGap, cutPrivileges, cutOn, cutKeyword, cutTable, cutTo, cutRole]
      simp only [List.append_assoc]
    leadsGrant := ⟨grant, gap.1, rfl, spellsGrant, isGap⟩
    surroundsOn := surroundsOn
    leadsTable := leadsTable
    surroundsTo := surroundsTo
    closes := closes
    tableNonempty := tableNonempty
    tableFree := by simpa using tableFree
    roleNonempty := roleNonempty
    roleFree := by simpa using roleFree }⟩

end Match

/-! ## The words of a line that matches -/

theorem Spells.letters {keyword : String} {word : List Char} (spells : Spells keyword word)
    (letters : ∀ c ∈ keyword.toList, c.isAlpha = true) : ∀ c ∈ word, c.isAlpha = true := by
  intro c member
  have lowered : c.toLower ∈ keyword.toList.map Char.toLower :=
    spells ▸ List.mem_map_of_mem member
  rcases List.mem_map.mp lowered with ⟨letter, inKeyword, same⟩
  exact Text.isAlpha_of_toLower_eq same.symm (letters letter inKeyword)

theorem Spells.nonempty {keyword : String} {word : List Char} (spells : Spells keyword word)
    (nonempty : keyword.toList ≠ []) : word ≠ [] := by
  intro empty
  rw [Spells, empty, List.map_nil] at spells
  exact nonempty (List.map_eq_nil_iff.mp spells.symm)

section Words

variable {keyword : String} {part : List Char} (nonempty : keyword.toList ≠ [])
  (letters : ∀ c ∈ keyword.toList, c.isAlpha = true)
include nonempty letters

theorem words_leading (leading : Leading Text.isSpace keyword part) :
    ∃ word, Spells keyword word ∧ ∀ after,
      Text.words Text.isSpace (part ++ after) = word :: Text.words Text.isSpace after := by
  rcases leading with ⟨word, gap, rfl, spells, gapNonempty, gapSpace⟩
  refine ⟨word, spells, ?_⟩
  intro after
  have free : ∀ c ∈ word, Text.isSpace c = false := fun c member =>
    Text.isSpace_eq_false_of_isAlpha (spells.letters letters c member)
  rw [List.append_assoc, Text.words_append_gap word after gapNonempty gapSpace,
    Text.words_eq_singleton (spells.nonempty nonempty) free, List.singleton_append]

theorem words_surrounded (surrounded : Surrounded Text.isSpace keyword part) :
    ∃ word, Spells keyword word ∧ ∀ before after,
      Text.words Text.isSpace (before ++ (part ++ after)) =
        Text.words Text.isSpace before ++ word :: Text.words Text.isSpace after := by
  rcases surrounded with ⟨gap, rest, rfl, ⟨gapNonempty, gapSpace⟩, leading⟩
  rcases words_leading nonempty letters leading with ⟨word, spells, words⟩
  refine ⟨word, spells, ?_⟩
  intro before after
  rw [List.append_assoc, Text.words_append_gap before _ gapNonempty gapSpace, words]

end Words

/-- The words from the role on. -/
theorem words_closing {m : GrantPieces} {tail : List Char}
    (closes : ClosesGrant Text.isSpace m.grantOption tail) (nonempty : m.rawRole ≠ [])
    (free : ∀ c ∈ m.rawRole, Text.isSpace c = false) :
    ∃ role rest, Text.words Text.isSpace (m.rawRole ++ tail) = role :: rest ∧
      (rest = [] ∨ ∃ word grant last, rest = [word, grant, last] ∧ Spells "GRANT" grant) := by
  rcases closes with ⟨semicolon, ends, closing⟩
  have semicolonFree : ∀ c ∈ semicolon, Text.isSpace c = false := by
    rcases ends with rfl | rfl
    · simp
    · exact Text.forall_mem_of_all (by decide)
  have closed : ∀ word : List Char, word ≠ [] → (∀ c ∈ word, Text.isSpace c = false) →
      Text.words Text.isSpace (word ++ semicolon) = [word ++ semicolon] := by
    intro word wordNonempty wordFree
    apply Text.words_eq_singleton (by simp [wordNonempty])
    intro c member
    rcases List.mem_append.mp member with inWord | inSemicolon
    · exact wordFree c inWord
    · exact semicolonFree c inSemicolon
  rcases closing with ⟨_, rfl⟩ | ⟨withPart, grantPart, optionWord, rfl, surrounded, leading, spells⟩
  · exact ⟨_, [], closed m.rawRole nonempty free, Or.inl rfl⟩
  · rcases words_surrounded (by decide) (Text.forall_mem_of_all (by decide)) surrounded with
      ⟨word, _, withWords⟩
    rcases words_leading (by decide) (Text.forall_mem_of_all (by decide)) leading with
      ⟨grant, spellsGrant, grantWords⟩
    have optionFree : ∀ c ∈ optionWord, Text.isSpace c = false := fun c member =>
      Text.isSpace_eq_false_of_isAlpha
      (spells.letters (Text.forall_mem_of_all (by decide)) c member)
    refine ⟨m.rawRole, _, ?_, Or.inr ⟨word, grant, optionWord ++ semicolon, rfl, spellsGrant⟩⟩
    rw [withWords, grantWords, closed optionWord (spells.nonempty (by decide)) optionFree,
      Text.words_eq_singleton nonempty free]
    rfl

/-- The words of a line from the keyword `ON` on. -/
def EndsGrant (words : List (List Char)) : Prop :=
  ∃ onWord key table toWord role rest, words = onWord :: (key ++ table :: toWord :: role :: rest) ∧
    Spells "ON" onWord ∧ (key = [] ∨ ∃ tableWord, key = [tableWord] ∧ Spells "TABLE" tableWord) ∧
    Spells "TO" toWord ∧
    (rest = [] ∨ ∃ word grant last, rest = [word, grant, last] ∧ Spells "GRANT" grant)

/-- The words of a cut line: one keyword, those of the privileges, and those that follow. -/
theorem words_of_cutInto {input : List Char} {m : GrantPieces}
    {grantPart onPart tablePart toPart tail : List Char}
    (cut : CutInto Text.isSpace input m grantPart onPart tablePart toPart tail) :
    ∃ grant ending, Text.words Text.isSpace input =
      grant :: (Text.words Text.isSpace m.rawPrivileges ++ ending) ∧ EndsGrant ending := by
  rcases words_leading (by decide) (Text.forall_mem_of_all (by decide)) cut.leadsGrant with
    ⟨grant, _, grantWords⟩
  rcases words_surrounded (by decide) (Text.forall_mem_of_all (by decide)) cut.surroundsOn with
    ⟨onWord, spellsOn, onWords⟩
  rcases words_surrounded (by decide) (Text.forall_mem_of_all (by decide)) cut.surroundsTo with
    ⟨toWord, spellsTo, toWords⟩
  rcases words_closing cut.closes cut.roleNonempty cut.roleFree with ⟨role, rest, closing, ends⟩
  have tableWords := Text.words_eq_singleton cut.tableNonempty cut.tableFree
  have whole : Text.words Text.isSpace input =
      grant :: (Text.words Text.isSpace m.rawPrivileges ++
        onWord :: Text.words Text.isSpace
        (tablePart ++ (m.rawTable ++ (toPart ++ (m.rawRole ++ tail))))) := by
    rw [cut.joined, grantWords, onWords]
  refine ⟨grant, _, whole, ?_⟩
  rcases cut.leadsTable with noKeyword | keyword
  · refine ⟨onWord, [], m.rawTable, toWord, role, rest, ?_, spellsOn, Or.inl rfl, spellsTo, ends⟩
    rw [noKeyword, List.nil_append, toWords, tableWords, closing]
    rfl
  · rcases words_leading (by decide) (Text.forall_mem_of_all (by decide)) keyword with
      ⟨key, spellsKey, keyWords⟩
    refine ⟨onWord, [key], m.rawTable, toWord, role, rest, ?_, spellsOn,
      Or.inr ⟨key, rfl, spellsKey⟩, spellsTo, ends⟩
    rw [keyWords, toWords, tableWords, closing]
    rfl

/-- The fourth word from the end of a match, or from where the grant option starts, is a
keyword. -/
theorem exists_words_of_match {line : String} {m : GrantPieces}
    (found : grantPieces Text.isSpace line = some m) :
    ∃ front key table toWord role rest,
      Text.words Text.isSpace (Text.trim line).toList =
        front ++ key :: table :: toWord :: role :: rest ∧
        (Spells "ON" key ∨ Spells "TABLE" key) ∧
        (rest = [] ∨ ∃ word grant last, rest = [word, grant, last] ∧ Spells "GRANT" grant) := by
  rcases Pattern.mem_of_exec found with ⟨_, member⟩
  rcases exists_cutInto member with ⟨_, _, _, _, _, cut⟩
  rcases words_of_cutInto cut with ⟨grant, _, whole, onWord, key, table, toWord, role, rest, rfl,
    spellsOn, keyword, _, ends⟩
  rcases keyword with rfl | ⟨tableWord, rfl, spellsTable⟩
  · exact ⟨grant :: Text.words Text.isSpace m.rawPrivileges, onWord, table, toWord, role, rest,
      whole, Or.inl spellsOn, ends⟩
  · refine ⟨grant :: (Text.words Text.isSpace m.rawPrivileges ++ [onWord]), tableWord, table,
      toWord,
      role, rest, ?_, Or.inr spellsTable, ends⟩
    rw [show Text.words Text.isSpace (Text.trim line).toList = _ from whole]
    simp

/-! ## The lines that are printed -/

/-- Neighbours between which no keyword `ON` starts after white space. -/
def NoKeyword (left right : Char) : Prop :=
  Text.isSpace left = true → Text.isSpace right = false ∧ right.toLower ≠ 'o'

/-- The text of a GRANT on a table. -/
def grantText (privileges table role semicolon : List Char) : List Char :=
  "GRANT".toList ++ ' ' :: (privileges ++ ' ' :: ("ON".toList ++ ' ' :: ("TABLE".toList ++
    ' ' :: (table ++ ' ' :: ("TO".toList ++ ' ' :: (role ++ semicolon))))))

theorem between_bind {keyword : String} {next : Unit → Pattern GrantPieces} {rest : List Char}
    (letters : ∀ c ∈ keyword.toList, c.isAlpha = true) (nonempty : keyword.toList ≠ [])
    (outside : ∀ c ∈ rest.head?, Text.isSpace c = false) :
    (between Text.isSpace keyword >>= next) (' ' :: (keyword.toList ++ ' ' :: rest)) =
      next () rest := by
  have keywordOutside : ∀ c ∈ (keyword.toList ++ ' ' :: rest).head?, Text.isSpace c = false := by
    intro c first
    rw [List.head?_append_of_ne_nil _ nonempty] at first
    exact Text.isSpace_eq_false_of_isAlpha (letters c (List.mem_of_head? first))
  rw [Pattern.bind_apply, between, Pattern.plus_bind_single (by decide) keywordOutside,
    Pattern.word_bind, Pattern.plus_bind_single (by decide) outside, Pattern.pure_apply,
    List.flatMap_singleton]

/-- The keyword is not found inside a list of privileges. -/
theorem between_on_eq_nil {after : List Char} (rest : List Char) (nonempty : after ≠ [])
    (chain : after.IsChain NoKeyword) (last : ∀ c ∈ after.getLast?, Text.isSpace c = false) :
    between Text.isSpace "ON" (after ++ rest) = [] := by
  cases after with
  | nil => exact absurd rfl nonempty
  | cons c tail =>
      by_cases isSpace : Text.isSpace c = true
      · cases tail with
        | nil => simp [last c rfl] at isSpace
        | cons second tail =>
            rcases (List.isChain_cons_cons.mp chain).1 isSpace with ⟨outside, noLetter⟩
            rw [List.cons_append, between,
              Pattern.plus_bind_single isSpace (by simpa using outside), Pattern.bind_apply,
              Pattern.word]
            have differs : ¬ Char.toLower 'O' = second.toLower := fun same => noLetter same.symm
            rw [show "ON".toList = ['O', 'N'] from rfl, List.cons_append, Pattern.letters,
              if_neg differs, List.flatMap_nil]
      · rw [List.cons_append, between, Pattern.bind_apply, Pattern.plus,
          Pattern.prefixes_eq_nil (by simpa using isSpace)]
        rfl

theorem grantOptionClause_eq_nil {input : List Char}
    (outside : ∀ c ∈ input.head?, Text.isSpace c = false) :
    grantOptionClause Text.isSpace input = [] := by
  rw [grantOptionClause, Pattern.bind_apply, between, Pattern.bind_apply, Pattern.plus,
    Pattern.prefixes_eq_nil outside]
  rfl

/-- What the pattern says about the rest of a line from the role on. -/
def closing (privileges table : List Char) : Pattern GrantPieces := do
  let rawRole ← Pattern.lazyPlus fun c => !Text.isSpace c
  let grantOption ← Pattern.opt (grantOptionClause Text.isSpace)
  let _ ← Pattern.opt (Pattern.word ";")
  Pattern.atEnd
  return { rawPrivileges := privileges, rawTable := table, rawRole := rawRole
           grantOption := grantOption.isSome }

/-- At most a semicolon follows the role, so the match ends where the role does. -/
theorem head?_closing (privileges table : List Char) {role semicolon : List Char}
    (isEnd : semicolon = [] ∨ semicolon = [';']) (nonempty : role ≠ [])
    (free : ∀ c ∈ role, Text.isSpace c = false ∧ c ≠ ';') :
    (closing privileges table (role ++ semicolon)).head? =
      some ({ rawPrivileges := privileges, rawTable := table, rawRole := role
              grantOption := false }, []) := by
  apply Pattern.head?_lazyPlus_bind nonempty
  · intro c member
    simp [(free c member).1]
  · intro before after joined _ someAfter
    cases after with
    | nil => exact absurd rfl someAfter
    | cons c after =>
        have inRole : c ∈ role := joined ▸ List.mem_append_right before List.mem_cons_self
        have noSemicolon : ¬ Char.toLower ';' = c.toLower := fun same =>
          (free c inRole).2 (Text.eq_of_toLower_eq same.symm (by decide))
        rw [List.cons_append, Pattern.opt_bind_none (grantOptionClause_eq_nil
          (by simpa using (free c inRole).1)), Pattern.opt_bind_none]
        · rfl
        · rw [Pattern.word, show ";".toList = [';'] from rfl, Pattern.letters,
            if_neg noSemicolon]
  · rcases isEnd with rfl | rfl
    · rfl
    · rfl

theorem head?_append_blank {chars rest : List Char} (nonempty : chars ≠ [])
    (outside : ∀ c ∈ chars, Text.isSpace c = false) :
    ∀ c ∈ (chars ++ rest).head?, Text.isSpace c = false := by
  intro c first
  rw [List.head?_append_of_ne_nil _ nonempty] at first
  exact outside c (List.mem_of_head? first)

theorem trim_grantText {privileges table role semicolon : List Char}
    (isEnd : semicolon = [] ∨ semicolon = [';']) (nonempty : role ≠ [])
    (free : ∀ c ∈ role, Text.isSpace c = false) :
    Text.trim (String.ofList (grantText privileges table role semicolon)) =
      String.ofList (grantText privileges table role semicolon) := by
  apply Text.trimWith_eq_self
  · intro c first
    rw [String.toList_ofList] at first
    obtain rfl : 'G' = c := Option.some.inj first
    decide
  · intro c last
    have ends : ∃ front, grantText privileges table role semicolon = front ++ (role ++ semicolon) :=
      ⟨"GRANT".toList ++ ' ' :: (privileges ++ ' ' :: ("ON".toList ++ ' ' :: ("TABLE".toList ++
        ' ' :: (table ++ ' ' :: ("TO".toList ++ [' ']))))), by simp [grantText]⟩
    rcases ends with ⟨front, cut⟩
    rw [String.toList_ofList, cut,
      List.getLast?_append_of_ne_nil _ (List.append_ne_nil_of_left_ne_nil nonempty _)] at last
    rcases isEnd with rfl | rfl
    · rw [List.append_nil] at last
      exact free c (List.mem_of_getLast? last)
    · rw [List.getLast?_append_of_ne_nil _ (List.cons_ne_nil _ _)] at last
      obtain rfl : ';' = c := Option.some.inj last
      decide

/-- Taking a printed line apart gives back what it was printed from. -/
theorem grantPieces_grantText {privileges table role semicolon : List Char}
    (isEnd : semicolon = [] ∨ semicolon = [';'])
    (privilegesNonempty : privileges ≠ [])
    (oneLine : ∀ c ∈ privileges, isLineTerminator c = false)
    (first : ∀ c ∈ privileges.head?, Text.isSpace c = false)
    (last : ∀ c ∈ privileges.getLast?, Text.isSpace c = false)
    (chain : privileges.IsChain NoKeyword)
    (tableNonempty : table ≠ []) (tableFree : ∀ c ∈ table, Text.isSpace c = false)
    (roleNonempty : role ≠ [])
    (roleFree : ∀ c ∈ role, Text.isSpace c = false ∧ c ≠ ';') :
    grantPieces Text.isSpace (String.ofList (grantText privileges table role semicolon)) =
      some { rawPrivileges := privileges, rawTable := table, rawRole := role
             grantOption := false } := by
  have trimmed := @trim_grantText privileges table role semicolon isEnd roleNonempty
    fun c member => (roleFree c member).1
  have tableHead := @head?_append_blank table (' ' :: ("TO".toList ++ ' ' :: (role ++ semicolon)))
    tableNonempty tableFree
  have keyword : tableKeyword Text.isSpace ("TABLE".toList ++ ' ' :: (table ++
      ' ' :: ("TO".toList ++ ' ' :: (role ++ semicolon)))) =
        [((), table ++ ' ' :: ("TO".toList ++ ' ' :: (role ++ semicolon)))] := by
    rw [tableKeyword, Pattern.word_bind, Pattern.plus_bind_single (by decide) tableHead]
    rfl
  have preferred : (GRANT_LINE_RE Text.isSpace (grantText privileges table role semicolon)).head? =
      some ({ rawPrivileges := privileges, rawTable := table, rawRole := role
              grantOption := false }, []) := by
    rw [GRANT_LINE_RE, grantText, Pattern.word_bind, Pattern.plus_bind_single (by decide)]
    · apply Pattern.head?_lazyPlus_bind privilegesNonempty
      · intro c member
        simp [oneLine c member]
      · intro before after joined _ someAfter
        have lastOfAfter : ∀ c ∈ after.getLast?, Text.isSpace c = false := by
          intro c inLast
          apply last c
          rw [joined, List.getLast?_append_of_ne_nil _ someAfter]
          exact inLast
        have chainOfAfter := List.IsChain.right_of_append (joined ▸ chain)
        rw [Pattern.bind_apply, between_on_eq_nil _ someAfter chainOfAfter lastOfAfter]
        rfl
      · rw [between_bind (Text.forall_mem_of_all (by decide)) (by decide)]
        · apply Pattern.head?_opt_bind_some keyword
          apply Pattern.head?_plus_bind tableNonempty
          · intro c member
            simp [tableFree c member]
          · decide
          · rw [between_bind (Text.forall_mem_of_all (by decide)) (by decide)]
            · exact head?_closing privileges table isEnd roleNonempty roleFree
            · exact head?_append_blank roleNonempty fun c member => (roleFree c member).1
        · intro c inHead
          obtain rfl : 'T' = c := Option.some.inj inHead
          decide
    · intro c inHead
      rw [List.head?_append_of_ne_nil _ privilegesNonempty] at inHead
      exact first c inHead
  rw [grantPieces, Pattern.exec, show Text.trimWith Text.isSpace _ = _ from trimmed,
    String.toList_ofList, preferred]
  rfl

end BelugaManager.PolicyCompiler
