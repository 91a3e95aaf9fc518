import BelugaManager.PolicyCompiler.Drift
import BelugaManager.PolicyCompiler.PgCatalog

/-!
# What the comparison reads in the script

Every GRANT on a table that the script prints is parsed back to its table, role and
privileges, and no other line of the script is taken for one.
-/

namespace BelugaManager.PolicyCompiler

open Foundation

/-! ## Names and tokens -/

/-- A name in identifier characters and dots. -/
def IsName (s : String) : Prop := s ≠ "" ∧ ∀ c ∈ s.toList, isIdentPart c = true ∨ c = '.'

/-- Text without white space. -/
def IsToken (s : String) : Prop := s ≠ "" ∧ ∀ c ∈ s.toList, Text.isSpace c = false

theorem isIdentPart_iff (c : Char) :
    isIdentPart c = true ↔ c.isAlpha = true ∨ 48 ≤ c.toNat ∧ c.toNat ≤ 57 ∨ c = '_' := by
  simp [isIdentPart, Char.isAlphanum, Char.isDigit, UInt32.le_iff_toNat_le, or_assoc]

/-- The characters of names are neither white space nor punctuation. -/
theorem nameChar_facts {c : Char} (nameChar : isIdentPart c = true ∨ c = '.') :
    Text.isSpace c = false ∧ c ≠ '"' ∧ c ≠ ';' ∧ c ≠ '/' ∧ c.toNat < 128 := by
  have codes : (65 ≤ c.toNat ∧ c.toNat ≤ 90 ∨ 97 ≤ c.toNat ∧ c.toNat ≤ 122) ∨
      (48 ≤ c.toNat ∧ c.toNat ≤ 57) ∨ c.toNat = 95 ∨ c.toNat = 46 := by
    rw [isIdentPart_iff, Text.isAlpha_iff] at nameChar
    rcases nameChar with (alpha | digit | rfl) | rfl
    · exact Or.inl alpha
    · exact Or.inr (Or.inl digit)
    · exact Or.inr (Or.inr (Or.inl rfl))
    · exact Or.inr (Or.inr (Or.inr rfl))
  refine ⟨?_, ?_, ?_, ?_, by omega⟩
  · simp [Text.isSpace]
    omega
  · rintro rfl
    revert codes
    decide
  · rintro rfl
    revert codes
    decide
  · rintro rfl
    revert codes
    decide

theorem IsName.isToken {s : String} (name : IsName s) : IsToken s :=
  ⟨name.1, fun c member => (nameChar_facts (name.2 c member)).1⟩

theorem isName_of_identifier {s : String} (identifier : IDENTIFIER.test s = true) : IsName s := by
  rcases identifier_chars identifier with ⟨nonempty, parts⟩
  exact ⟨nonempty, fun c member => Or.inl (parts c member)⟩

theorem isName_of_isSchemaTable {resource : String} (named : isSchemaTable resource = true) :
    IsName resource := by
  rcases parts_of_isSchemaTable named with ⟨schema, table, schemaId, tableId, rfl⟩
  refine ⟨by simp, ?_⟩
  intro c member
  simp only [String.toList_append, List.mem_append] at member
  rcases member with (inSchema | isDot) | inTable
  · exact Or.inl ((identifier_chars schemaId).2 c inSchema)
  · exact Or.inr (List.mem_singleton.mp isDot)
  · exact Or.inl ((identifier_chars tableId).2 c inTable)

/-- A lower-case letter, a digit or an underscore. -/
def isPlain (c : Char) : Bool := isIdentPart c && c.toLower = c

theorem isPlain_toLower {c : Char} (part : isIdentPart c = true) : isPlain c.toLower = true := by
  have lowered : isIdentPart c.toLower = true := by
    rw [isIdentPart_iff, Text.isAlpha_iff, ← Char.toNat_inj] at part ⊢
    rw [Text.toNat_toLower]
    split
    next upper =>
      exact Or.inl (Or.inr (by omega))
    next => exact part
  rw [isPlain, lowered, Text.toLower_toLower]
  simp

theorem toPgRole_plain {name : String} (declared : ROLE_NAME.test name = true) :
    toPgRole name ≠ "" ∧ ∀ c ∈ (toPgRole name).toList, isPlain c = true := by
  rcases roleName_chars declared with ⟨nonempty, parts⟩
  constructor
  · intro empty
    apply nonempty
    rw [← String.toList_inj] at empty ⊢
    simpa [toPgRole, Text.lowerAscii, Text.replaceChar] using empty
  · intro c member
    simp only [toPgRole, Text.lowerAscii, Text.replaceChar, String.toList_ofList, List.map_map,
      List.mem_map, Function.comp_apply] at member
    rcases member with ⟨original, inName, rfl⟩
    apply isPlain_toLower
    by_cases hyphen : original = '-'
    · rw [if_pos hyphen]
      decide
    · rw [if_neg hyphen]
      simpa [isNamePart, hyphen] using parts original inName

theorem isName_of_plain {s : String} (nonempty : s ≠ "")
    (plain : ∀ c ∈ s.toList, isPlain c = true) : IsName s := by
  refine ⟨nonempty, ?_⟩
  intro c member
  have part := plain c member
  rw [isPlain, Bool.and_eq_true] at part
  exact Or.inl part.1

theorem privSql_chars (p : Privilege) :
    (∀ c ∈ (PRIV_SQL p).toList, c.isAlpha = true) ∧ (PRIV_SQL p).toList ≠ [] ∧
      ∀ c ∈ (PRIV_SQL p).toList.head?, c.toLower ≠ 'o' := by
  cases p <;> refine ⟨Text.forall_mem_of_all (by decide), by decide, ?_⟩ <;>
    · intro c first
      cases first
      decide

theorem trim_privSql (p : Privilege) :
    Text.trim (PRIV_SQL p) = PRIV_SQL p ∧ Text.trim (" " ++ PRIV_SQL p) = PRIV_SQL p := by
  cases p <;> decide

theorem toUpperCase_privSql (upper : CaseMapping) (p : Privilege) :
    upper.toUpperCase (PRIV_SQL p) = PRIV_SQL p := by
  rw [upper.ascii _ (by cases p <;> exact Text.forall_mem_of_all (by decide))]
  cases p <;> decide

theorem privilegeWords_cons_cons (p q : Privilege) (rest : List Privilege) :
    privilegeWords (p :: q :: rest) = PRIV_SQL p ++ ", " ++ privilegeWords (q :: rest) :=
  Text.join_cons_cons _ _ _ _

/-- The words with their commas read like the pieces of a list joined by bare commas. -/
theorem privilegeWords_eq_join (p : Privilege) (rest : List Privilege) :
    privilegeWords (p :: rest) =
      Text.join (String.singleton ',') (PRIV_SQL p :: rest.map fun q => " " ++ PRIV_SQL q) := by
  induction rest generalizing p with
  | nil => rw [privilegeWords, List.map_nil, Text.join_singleton]; exact Text.join_singleton _ _
  | cons q rest ih =>
      have separator : ", " = String.singleton ',' ++ " " := by decide
      rw [privilegeWords_cons_cons, ih, List.map_cons, Text.join_cons_cons,
        Text.join_append_cons, separator]
      simp only [String.append_assoc]

theorem comma_notMem_privSql (p : Privilege) : ',' ∉ (PRIV_SQL p).toList := by
  cases p <;> decide

/-- Between the commas stand the words and white space. -/
theorem trimmed_privilegeWords {ps : List Privilege} (nonempty : ps ≠ []) :
    (Text.split ',' (privilegeWords ps)).map Text.trim = ps.map PRIV_SQL := by
  cases ps with
  | nil => exact absurd rfl nonempty
  | cons p rest =>
      have free : ∀ piece ∈ PRIV_SQL p :: rest.map (fun q => " " ++ PRIV_SQL q),
          ',' ∉ piece.toList := by
        intro piece member
        rcases List.mem_cons.mp member with rfl | inRest
        · exact comma_notMem_privSql p
        · rcases List.mem_map.mp inRest with ⟨q, _, rfl⟩
          simpa using comma_notMem_privSql q
      rw [privilegeWords_eq_join, Text.split_join (List.cons_ne_nil _ _) free]
      simp only [List.map_cons, List.map_map, Function.comp_def, (trim_privSql _).1,
        (trim_privSql _).2]

theorem privSql_ne_empty (p : Privilege) : PRIV_SQL p ≠ "" := by
  cases p <;> decide

theorem listedPrivileges_privilegeWords (upper : CaseMapping) {ps : List Privilege}
    (nonempty : ps ≠ []) : listedPrivileges upper (privilegeWords ps) = ps.map PRIV_SQL := by
  have raised :
    (Text.split ',' (privilegeWords ps)).map (fun p => upper.toUpperCase (Text.trim p)) =
      ps.map PRIV_SQL := by
    have twice := congrArg (List.map upper.toUpperCase) (trimmed_privilegeWords nonempty)
    simpa only [List.map_map, Function.comp_def, toUpperCase_privSql] using twice
  rw [listedPrivileges, raised, List.filter_eq_self]
  intro word member
  rcases List.mem_map.mp member with ⟨q, _, rfl⟩
  simpa using privSql_ne_empty q

theorem isChain_noKeyword {chars : List Char} (free : ∀ c ∈ chars, Text.isSpace c = false) :
    chars.IsChain NoKeyword := by
  apply List.Pairwise.isChain
  apply List.pairwise_of_forall_mem_list
  intro c member other _ isSpace
  simp [free c member] at isSpace

/-- The text of a list of privileges is one line that starts and ends with a letter and
in which no word after a blank starts like `ON`. -/
theorem privilegeWords_shape {ps : List Privilege} (nonempty : ps ≠ []) :
    (privilegeWords ps).toList ≠ [] ∧
      (∀ c ∈ (privilegeWords ps).toList, c.isAlpha = true ∨ c = ',' ∨ c = ' ') ∧
      (∀ c ∈ (privilegeWords ps).toList.head?, c.isAlpha = true ∧ c.toLower ≠ 'o') ∧
      (∀ c ∈ (privilegeWords ps).toList.getLast?, c.isAlpha = true) ∧
      (privilegeWords ps).toList.IsChain NoKeyword := by
  induction ps with
  | nil => exact absurd rfl nonempty
  | cons p rest ih =>
      rcases privSql_chars p with ⟨letters, someLetter, firstLetter⟩
      have free : ∀ c ∈ (PRIV_SQL p).toList, Text.isSpace c = false := fun c member =>
        Text.isSpace_eq_false_of_isAlpha (letters c member)
      cases rest with
      | nil =>
          rw [privilegeWords, List.map_cons, List.map_nil, Text.join_singleton]
          refine ⟨someLetter, fun c member => Or.inl (letters c member), ?_, ?_,
            isChain_noKeyword free⟩
          · intro c first
            exact ⟨letters c (List.mem_of_head? first), firstLetter c first⟩
          · intro c last
            exact letters c (List.mem_of_getLast? last)
      | cons q rest =>
          rcases ih (by simp) with ⟨restNonempty, restChars, restFirst, restLast, restChain⟩
          have text : (privilegeWords (p :: q :: rest)).toList =
              (PRIV_SQL p).toList ++ ([',', ' '] ++ (privilegeWords (q :: rest)).toList) := by
            simp [privilegeWords_cons_cons]
          rw [text]
          refine ⟨by simp, ?_, ?_, ?_, ?_⟩
          · intro c member
            rcases List.mem_append.mp member with inFirst | inRest
            · exact Or.inl (letters c inFirst)
            · rcases List.mem_append.mp inRest with separator | inRest
              · simp at separator
                exact Or.inr separator
              · exact restChars c inRest
          · intro c first
            rw [List.head?_append_of_ne_nil _ someLetter] at first
            exact ⟨letters c (List.mem_of_head? first), firstLetter c first⟩
          · intro c last
            rw [← List.append_assoc, List.getLast?_append_of_ne_nil _ restNonempty] at last
            exact restLast c last
          · apply List.IsChain.append (isChain_noKeyword free)
            · apply List.IsChain.append _ restChain
              · intro blank isBlank c first _
                exact ⟨Text.isSpace_eq_false_of_isAlpha (restFirst c first).1,
                  (restFirst c first).2⟩
              · simp [NoKeyword, Text.isSpace]
            · intro letter isLast c _ isSpace
              simp [free letter (List.mem_of_getLast? isLast)] at isSpace

/-! ## Printed lines -/

/-- The line that grants privileges on a table. -/
def grantTableLine (ps : List Privilege) (table role semicolon : String) : String :=
  "GRANT " ++ privilegeWords ps ++ " ON TABLE " ++ table ++ " TO " ++ role ++ semicolon

theorem lines_grantTable (ps : List Privilege) (table : String) (role : PgName) :
    (PgStatement.grantTable ps table role).lines = [grantTableLine ps table role.text ";"] := rfl

section Printed

variable {ps : List Privilege} (nonempty : ps ≠ []) {table role semicolon : String}
  (isEnd : semicolon = "" ∨ semicolon = ";")
include nonempty isEnd

theorem grantPieces_grantTableLine (tableName : IsName table) (roleName : IsName role) :
    grantPieces Text.isSpace (grantTableLine ps table role semicolon) =
      some { rawPrivileges := (privilegeWords ps).toList, rawTable := table.toList
             rawRole := role.toList, grantOption := false } := by
  have text : grantTableLine ps table role semicolon = String.ofList
      (grantText (privilegeWords ps).toList table.toList role.toList semicolon.toList) := by
    apply String.toList_inj.mp
    simp [grantTableLine, grantText]
  rcases privilegeWords_shape nonempty with ⟨someLetter, chars, first, last, chain⟩
  rw [text]
  apply grantPieces_grantText _ someLetter _ _ _ chain
  · simpa using tableName.1
  · exact tableName.isToken.2
  · simpa using roleName.1
  · exact fun c member =>
      ⟨roleName.isToken.2 c member, (nameChar_facts (roleName.2 c member)).2.2.1⟩
  · rcases isEnd with rfl | rfl
    · exact Or.inl rfl
    · exact Or.inr rfl
  · intro c member
    rcases chars c member with alpha | rfl | rfl
    · rw [Text.isAlpha_iff] at alpha
      simp [isLineTerminator, ← Char.toNat_inj]
      omega
    · decide
    · decide
  · exact fun c member => Text.isSpace_eq_false_of_isAlpha (first c member).1
  · exact fun c member => Text.isSpace_eq_false_of_isAlpha (last c member)

omit nonempty isEnd in
theorem stripQuotes_of_isName {name : String} (isName : IsName name) : stripQuotes name = name := by
  rw [stripQuotes, Text.removeChar, List.filter_eq_self.mpr, String.ofList_toList]
  intro c member
  simpa using (nameChar_facts (isName.2 c member)).2.1

theorem parseGrantLine_grantTableLine (upper : CaseMapping) (tableName : IsName table)
    (roleName : IsName role) :
    ∃ g, parseGrantLine upper (grantTableLine ps table role semicolon) = some g ∧
      g.table = table ∧ g.role = role ∧ ∀ p, p ∈ g.privileges ↔ ∃ q ∈ ps, PRIV_SQL q = p := by
  refine ⟨_, by rw [parseGrantLine, grantPieces_grantTableLine nonempty isEnd tableName roleName,
    Option.map_some], ?_, ?_, ?_⟩
  · rw [parsedGrant_table, String.ofList_toList, stripQuotes_of_isName tableName]
  · rw [parsedGrant_role, String.ofList_toList, stripQuotes_of_isName roleName]
  · intro p
    rw [mem_parsedGrant_privileges, String.ofList_toList,
      listedPrivileges_privilegeWords upper nonempty, List.mem_map]
    simp

end Printed

/-- A match starts with the first letter of the keyword. -/
theorem parseGrantLine_eq_none_of_first (upper : CaseMapping) {line : String} {c : Char}
    {rest : List Char} (starts : line.toList.dropWhile Text.isSpace = c :: rest)
    (other : c.toLower ≠ 'g') : parseGrantLine upper line = none := by
  rw [parseGrantLine, Option.map_eq_none_iff]
  cases found : grantPieces Text.isSpace line with
  | none => rfl
  | some m =>
      rcases Pattern.mem_of_exec found with ⟨_, member⟩
      rcases exists_cutInto member with ⟨grantPart, onPart, tablePart, toPart, tail, cut⟩
      rcases cut.leadsGrant with ⟨word, gap, rfl, spells, _⟩
      have isPrefix : (Text.trimWith Text.isSpace line).toList <+: c :: rest := by
        rw [Text.trimWith, String.toList_ofList, starts, ← List.reverse_suffix,
          List.reverse_reverse]
        exact List.dropWhile_suffix _
      cases word with
      | nil => exact absurd rfl (spells.nonempty (by decide))
      | cons letter word =>
          rw [cut.joined, List.append_assoc, List.cons_append, List.cons_prefix_cons] at isPrefix
          have lowered : letter.toLower = 'g' := (List.cons.inj spells).1
          exact absurd (isPrefix.1 ▸ lowered) other

/-- A line that ends in a target, `TO` and a grantee is no GRANT on a table unless the word
before them is a keyword for one. -/
theorem parseGrantLine_eq_none_of_words (upper : CaseMapping) {line : String}
    {front : List (List Char)} {key target toWord grantee : List Char}
    (words : Text.words Text.isSpace (Text.trim line).toList =
      front ++ [key, target, toWord, grantee])
    (noOn : ¬ Spells "ON" key) (noTable : ¬ Spells "TABLE" key) (isTo : ¬ Spells "GRANT" toWord) :
    parseGrantLine upper line = none := by
  rw [parseGrantLine, Option.map_eq_none_iff]
  cases found : grantPieces Text.isSpace line with
  | none => rfl
  | some m =>
      rcases exists_words_of_match found with
        ⟨start, key', table, to', role, rest, words', spells, ends⟩
      rw [words] at words'
      rcases ends with rfl | ⟨word, grant, last, rfl, spellsGrant⟩
      · have same := List.append_inj_right' words' rfl
        obtain ⟨rfl, _⟩ := List.cons.inj same
        exact (spells.elim noOn noTable).elim
      · have cut : (front ++ [key]) ++ [target, toWord, grantee] =
            (start ++ [key', table, to', role]) ++ [word, grant, last] := by
          simpa using words'
        have same := List.append_inj_right' cut rfl
        obtain ⟨_, rfl, _⟩ : target = word ∧ toWord = grant ∧ grantee = last := by
          simpa using same
        exact absurd spellsGrant isTo

/-- A line of its own that is not taken for a GRANT on a table. -/
def Unread (upper : CaseMapping) (line : String) : Prop :=
  '\n' ∉ line.toList ∧ parseGrantLine upper line = none

/-- A line that starts with another letter. -/
theorem unread_of_start (upper : CaseMapping) {start tail : String} {c : Char} {rest : List Char}
    (starts : start.toList.dropWhile Text.isSpace = c :: rest) (other : c.toLower ≠ 'g')
    (startLine : '\n' ∉ start.toList) (tailLine : '\n' ∉ tail.toList) :
    Unread upper (start ++ tail) := by
  have whole : (start ++ tail).toList.dropWhile Text.isSpace = c :: (rest ++ tail.toList) := by
    rw [String.toList_append, List.dropWhile_append, starts]
    rfl
  exact ⟨by simp [startLine, tailLine], parseGrantLine_eq_none_of_first upper whole other⟩

theorem IsToken.oneLine {s : String} (token : IsToken s) : '\n' ∉ s.toList := by
  intro member
  exact absurd (token.2 _ member) (by decide)

/-- A GRANT on something else than a table: the lead is all that comes before its target. -/
theorem unread_of_lead (upper : CaseMapping) {lead target grantee : String} {body : List Char}
    {front : List (List Char)} {key : List Char} (cut : lead.toList = body ++ [' '])
    (bodyWords : Text.words Text.isSpace body = front ++ [key])
    (noOn : ¬ Spells "ON" key) (noTable : ¬ Spells "TABLE" key)
    (first : lead.toList.head? = some 'G') (leadLine : '\n' ∉ lead.toList)
    (targetToken : IsToken target) (granteeToken : IsToken grantee) :
    Unread upper (lead ++ target ++ " TO " ++ grantee ++ ";") := by
  have text : (lead ++ target ++ " TO " ++ grantee ++ ";").toList =
      body ++ ' ' ::
        (target.toList ++ ' ' :: (['T', 'O'] ++ ' ' :: (grantee.toList ++ [';']))) := by
    simp [cut]
  have trimmed : Text.trim (lead ++ target ++ " TO " ++ grantee ++ ";") =
      lead ++ target ++ " TO " ++ grantee ++ ";" := by
    apply Text.trimWith_eq_self
    · intro c inHead
      simp only [String.toList_append, List.head?_append, first, Option.some_or] at inHead
      obtain rfl : 'G' = c := Option.some.inj inHead
      decide
    · intro c inLast
      rw [String.toList_append, List.getLast?_append_of_ne_nil _ (by decide)] at inLast
      obtain rfl : ';' = c := Option.some.inj inLast
      decide
  have isName : ∀ s : String, IsToken s → Text.words Text.isSpace s.toList = [s.toList] := by
    intro s token
    exact Text.words_eq_singleton (by simpa using token.1) token.2
  have closed : Text.words Text.isSpace (grantee.toList ++ [';']) = [grantee.toList ++ [';']] := by
    apply Text.words_eq_singleton (by simp)
    intro c member
    rcases List.mem_append.mp member with inGrantee | isSemicolon
    · exact granteeToken.2 c inGrantee
    · rw [List.mem_singleton.mp isSemicolon]
      decide
  constructor
  · have targetLine := targetToken.oneLine
    have granteeLine := granteeToken.oneLine
    simp [leadLine, targetLine, granteeLine]
  · have words : Text.words Text.isSpace
        (Text.trim (lead ++ target ++ " TO " ++ grantee ++ ";")).toList =
          front ++ [key, target.toList, ['T', 'O'], grantee.toList ++ [';']] := by
      rw [trimmed, text, Text.words_append_cons _ _ (by decide),
        Text.words_append_cons _ _ (by decide), Text.words_append_cons _ _ (by decide), bodyWords,
        isName target targetToken, closed,
        Text.words_eq_singleton (List.cons_ne_nil _ _) (Text.forall_mem_of_all (by decide))]
      simp
    exact parseGrantLine_eq_none_of_words upper words noOn noTable (by decide)

/-! ## The statements of a checked declaration -/

section Statements

variable (upper : CaseMapping)

theorem unread_grantRole {role member : PgName} (roleToken : IsToken role.text)
    (memberToken : IsToken member.text) :
    ∀ line ∈ (PgStatement.grantRole role member).lines, Unread upper line := by
  have words : Text.words Text.isSpace "GRANT".toList = [] ++ ["GRANT".toList] := by decide
  have cut : "GRANT ".toList = "GRANT".toList ++ [' '] := by decide
  exact List.forall_mem_singleton.mpr (unread_of_lead upper cut words (by decide) (by decide) rfl
    (by decide) roleToken memberToken)

theorem unread_grantSchemaUsage {schema : String} {role : PgName} (schemaToken : IsToken schema)
    (roleToken : IsToken role.text) :
    ∀ line ∈ (PgStatement.grantSchemaUsage schema role).lines, Unread upper line := by
  have words : Text.words Text.isSpace "GRANT USAGE ON SCHEMA".toList =
      ["GRANT".toList, "USAGE".toList, "ON".toList] ++ ["SCHEMA".toList] := by decide
  have cut : "GRANT USAGE ON SCHEMA ".toList = "GRANT USAGE ON SCHEMA".toList ++ [' '] := by decide
  exact List.forall_mem_singleton.mpr (unread_of_lead upper cut words (by decide) (by decide) rfl
    (by decide) schemaToken roleToken)

theorem unread_grantSequences {schema : String} {role : PgName} (schemaToken : IsToken schema)
    (roleToken : IsToken role.text) :
    ∀ line ∈ (PgStatement.grantSequences schema role).lines, Unread upper line := by
  have words : Text.words Text.isSpace "GRANT USAGE, SELECT ON ALL SEQUENCES IN SCHEMA".toList =
      ["GRANT".toList, "USAGE,".toList, "SELECT".toList, "ON".toList, "ALL".toList,
        "SEQUENCES".toList, "IN".toList] ++ ["SCHEMA".toList] := by decide
  have cut : "GRANT USAGE, SELECT ON ALL SEQUENCES IN SCHEMA ".toList =
      "GRANT USAGE, SELECT ON ALL SEQUENCES IN SCHEMA".toList ++ [' '] := by decide
  exact List.forall_mem_singleton.mpr (unread_of_lead upper cut words (by decide) (by decide) rfl
    (by decide) schemaToken roleToken)

theorem unread_grantConnect {database : String} {role : PgName}
    (databaseToken : IsToken database) (roleToken : IsToken role.text) :
    ∀ line ∈ (PgStatement.grantConnect database role).lines, Unread upper line := by
  have words : Text.words Text.isSpace "GRANT CONNECT ON DATABASE".toList =
      ["GRANT".toList, "CONNECT".toList, "ON".toList] ++ ["DATABASE".toList] := by decide
  have cut : "GRANT CONNECT ON DATABASE ".toList = "GRANT CONNECT ON DATABASE".toList ++ [' '] := by
    decide
  exact List.forall_mem_singleton.mpr (unread_of_lead upper cut words (by decide) (by decide) rfl
    (by decide) databaseToken roleToken)

/-- The block that creates roles has no line that starts with the keyword. -/
theorem unread_createRoles {creates : List GuardedCreate}
    (tokens : ∀ create ∈ creates, IsToken create.tested ∧ IsToken create.identifier.text) :
    ∀ line ∈ (PgStatement.createRoles creates).lines, Unread upper line := by
  have fixed : ∀ {start : String} {c : Char} {rest : List Char},
      start.toList.dropWhile Text.isSpace = c :: rest → c.toLower ≠ 'g' →
        '\n' ∉ start.toList → Unread upper start := by
    intro start c rest starts other oneLine
    have unread := @unread_of_start upper start "" c rest starts other oneLine (by decide)
    rwa [String.append_empty] at unread
  intro line member
  simp only [PgStatement.lines, List.mem_append, List.mem_cons, List.not_mem_nil, or_false,
    List.mem_flatMap, GuardedCreate.lines] at member
  rcases member with ((rfl | rfl) | ⟨create, listed, isTest | isCreate | rfl⟩) | rfl
  · exact fixed rfl (by decide) (by decide)
  · exact fixed rfl (by decide) (by decide)
  · have tested := (tokens create listed).1.oneLine
    have unread := @unread_of_start upper "  IF NOT EXISTS (SELECT FROM pg_roles WHERE rolname = '"
      (create.tested ++ "') THEN") _ _ rfl (by decide) (by decide) (by simp [tested])
    rw [isTest, String.append_assoc]
    exact unread
  · have identifier := (tokens create listed).2.oneLine
    have unread := @unread_of_start upper "    CREATE ROLE "
      (create.identifier.text ++ (" WITH " ++ ((if create.canLogin then "LOGIN" else "NOLOGIN") ++
        " INHERIT;"))) _ _ rfl (by decide) (by decide)
        (by cases create.canLogin <;> simp [identifier])
    rw [isCreate]
    simp only [String.append_assoc]
    exact unread
  · exact fixed rfl (by decide) (by decide)
  · exact fixed rfl (by decide) (by decide)

end Statements

/-! ## The whole script -/

/-- Every line of a list of items satisfies a condition. -/
def EveryLine (holds : String → Prop) (items : List PgItem) : Prop :=
  ∀ item ∈ items, ∀ line ∈ item.lines, holds line

theorem everyLine_append (holds : String → Prop) (left right : List PgItem) :
    EveryLine holds (left ++ right) ↔ EveryLine holds left ∧ EveryLine holds right :=
  List.forall_mem_append

theorem everyLine_line (holds : String → Prop) (text : String) :
    EveryLine holds [.line text] ↔ holds text := by
  simp [EveryLine, PgItem.lines]

theorem everyLine_titled {holds : String → Prop} {title : String} {statements : List PgStatement}
    (blank : holds "") (heading : holds title)
    (each : ∀ statement ∈ statements, ∀ line ∈ statement.lines, holds line) :
    EveryLine holds (titled title statements) := by
  intro item member line inItem
  rcases List.mem_cons.mp member with rfl | member
  · exact List.mem_singleton.mp inItem ▸ blank
  · rcases List.mem_cons.mp member with rfl | member
    · exact List.mem_singleton.mp inItem ▸ heading
    · rcases List.mem_map.mp member with ⟨statement, listed, rfl⟩
      exact each statement listed line inItem

/-- The lines that grant privileges on tables. -/
def tableGrantLines (d : Declaration) : List String :=
  (tableSection d).flatMap PgStatement.lines

/-- A line of the script is either not read or grants privileges on a table. -/
def Classified (upper : CaseMapping) (d : Declaration) (line : String) : Prop :=
  Unread upper line ∨ line ∈ tableGrantLines d

theorem mem_tableGrantLines (d : Declaration) (line : String) :
    line ∈ tableGrantLines d ↔ ∃ res ∈ d.resources, res.engine = some .postgres ∧
      ∃ grant ∈ res.grants, ∃ role ∈ grant.roles,
        line = grantTableLine (sortedPrivileges grant) res.resource (toPgRole role) ";" := by
  simp only [tableGrantLines, tableSection, sortedGrants, List.flatMap_assoc, List.flatMap_map,
    lines_grantTable, List.mem_flatMap, Text.mem_sortBy, List.mem_singleton,
    mem_postgresResources, and_assoc]
  rfl

section Script

variable (upper : CaseMapping) {d : Declaration} (checked : Checked d)
include checked

theorem Checked.isName_toPgRole {role : String} (known : role ∈ d.roleNames) :
    IsName (toPgRole role) := by
  rcases List.mem_map.mp known with ⟨r, declared, rfl⟩
  rcases toPgRole_plain (checked.roleName r declared) with ⟨nonempty, plain⟩
  exact isName_of_plain nonempty plain

theorem Checked.isToken_role {role : String} (known : role ∈ d.roleNames) :
    IsToken (PgName.bare (toPgRole role)).text := (checked.isName_toPgRole known).isToken

theorem Checked.isToken_schemaOf {res : Resource} (declared : res ∈ d.resources) :
    IsToken (schemaOf res) := by
  have named := checked.schemaTable res declared
  simp only [isSchemaTable, Bool.and_eq_true, decide_eq_true_eq, List.all_eq_true] at named
  rcases List.length_eq_two.mp named.1 with ⟨schema, table, parts⟩
  rw [schemaOf, parts]
  exact (isName_of_identifier (named.2 schema (by simp [parts]))).isToken

theorem Checked.isToken_login {login : PgLogin} (declared : login ∈ d.loginList) :
    IsToken login.name ∧ IsToken (PgName.quoted login.name).text := by
  rcases roleName_chars (checked.loginName login declared) with ⟨nonempty, parts⟩
  have free : ∀ c ∈ login.name.toList, Text.isSpace c = false := by
    intro c member
    have part := parts c member
    rw [isNamePart, Bool.or_eq_true, decide_eq_true_eq] at part
    rcases part with identPart | rfl
    · exact (nameChar_facts (Or.inl identPart)).1
    · decide
  refine ⟨⟨nonempty, free⟩, by simp [PgName.text, toPgLoginIdentifier], ?_⟩
  intro c member
  simp only [PgName.text, toPgLoginIdentifier, String.toList_append, List.mem_append] at member
  rcases member with (quote | inName) | quote
  · rw [List.mem_singleton.mp quote]
    decide
  · exact free c inName
  · rw [List.mem_singleton.mp quote]
    decide

theorem Checked.known_grantRoles {res : Resource} (declared : res ∈ postgresResources d)
    {role : String} (listed : role ∈ grantRoles res) : role ∈ d.roleNames := by
  rcases (mem_grantRoles res role).mp listed with ⟨grant, inGrants, inRoles⟩
  exact checked.grantRoleKnown res ((mem_postgresResources d res).mp declared).1 grant inGrants
    role inRoles

theorem Checked.unread_createRoleSection :
    ∀ statement ∈ createRoleSection d, ∀ line ∈ statement.lines, Unread upper line := by
  intro statement member
  simp only [createRoleSection, sortedRoles, List.mem_map, Text.mem_sortBy] at member
  rcases member with ⟨r, declared, rfl⟩
  have token := checked.isToken_role (List.mem_map_of_mem declared)
  exact unread_createRoles upper (by simpa using ⟨token, token⟩)

theorem Checked.unread_inheritanceSection :
    ∀ statement ∈ inheritanceSection d, ∀ line ∈ statement.lines, Unread upper line := by
  intro statement member
  simp only [inheritanceSection, sortedRoles, List.mem_flatMap, List.mem_map,
    Text.mem_sortBy] at member
  rcases member with ⟨r, declared, parent, listed, rfl⟩
  exact unread_grantRole upper
    (checked.isToken_role (checked.parentKnown r declared parent listed))
    (checked.isToken_role (List.mem_map_of_mem declared))

theorem Checked.unread_schemaSection :
    ∀ statement ∈ schemaSection d, ∀ line ∈ statement.lines, Unread upper line := by
  intro statement member
  simp only [schemaSection, schemaRoles, List.mem_flatMap, List.mem_map, Text.mem_sortBy,
    OrderedMap.mem_collect] at member
  rcases member with ⟨_, _, role, ⟨res, declared, rfl, listed⟩, rfl⟩
  exact unread_grantSchemaUsage upper
    (checked.isToken_schemaOf ((mem_postgresResources d res).mp declared).1)
    (checked.isToken_role (checked.known_grantRoles declared listed))

theorem Checked.unread_sequenceSection :
    ∀ statement ∈ sequenceSection d, ∀ line ∈ statement.lines, Unread upper line := by
  intro statement member
  simp only [sequenceSection, sequenceRoles, List.mem_flatMap, List.mem_map, Text.mem_sortBy,
    OrderedMap.mem_collect] at member
  rcases member with ⟨_, _, role, ⟨res, declared, rfl, listed⟩, rfl⟩
  rcases (mem_insertRoles res role).mp listed with ⟨grant, inGrants, _, inRoles⟩
  have granted := (mem_grantRoles res role).mpr ⟨grant, inGrants, inRoles⟩
  exact unread_grantSequences upper
    (checked.isToken_schemaOf ((mem_postgresResources d res).mp declared).1)
    (checked.isToken_role (checked.known_grantRoles declared granted))

theorem Checked.unread_loginSection :
    ∀ statement ∈ loginSection d, ∀ line ∈ statement.lines, Unread upper line := by
  intro statement member
  rw [List.mem_singleton.mp member]
  apply unread_createRoles upper
  intro create listed
  simp only [sortedLogins, List.mem_map, Text.mem_sortBy] at listed
  rcases listed with ⟨login, declared, rfl⟩
  exact checked.isToken_login declared

theorem Checked.unread_bindingSection :
    ∀ statement ∈ bindingSection d, ∀ line ∈ statement.lines, Unread upper line := by
  intro statement member
  simp only [bindingSection, sortedLogins, List.mem_flatMap, List.mem_map,
    Text.mem_sortBy] at member
  rcases member with ⟨login, declared, role, listed, rfl⟩
  exact unread_grantRole upper
    (checked.isToken_role (checked.memberKnown login declared role listed))
    (checked.isToken_login declared).2

theorem Checked.unread_connectSection :
    ∀ statement ∈ connectSection d, ∀ line ∈ statement.lines, Unread upper line := by
  intro statement member
  simp only [connectSection, List.mem_flatMap, List.mem_map, Text.mem_sortBy, mem_databases,
    List.mem_filter, mem_postgresGrantRoles] at member
  rcases member with ⟨_, ⟨login, declared, rfl⟩, role,
    ⟨⟨res, resDeclared, _, grant, inGrants, inRoles⟩, _⟩, rfl⟩
  exact unread_grantConnect upper
    (isName_of_identifier (checked.loginDatabase login declared)).isToken
    (checked.isToken_role (checked.grantRoleKnown res resDeclared grant inGrants role inRoles))

omit checked in
theorem unread_comment {text : String} {rest : List Char} (starts : text.toList = '-' :: rest)
    (oneLine : '\n' ∉ text.toList) : Unread upper text := by
  have kept : text.toList.dropWhile Text.isSpace = '-' :: rest := by
    rw [starts, List.dropWhile_cons_of_neg (by decide)]
  exact ⟨oneLine, parseGrantLine_eq_none_of_first upper kept (by decide)⟩

/-- Only the statements of one section are read. -/
theorem Checked.classified : EveryLine (Classified upper d) (pgItems d) := by
  have blank : Unread upper "" := ⟨by decide, rfl⟩
  have unread : ∀ {title : String} {rest : List Char} {statements : List PgStatement},
      title.toList = '-' :: rest → '\n' ∉ title.toList →
        (∀ statement ∈ statements, ∀ line ∈ statement.lines, Unread upper line) →
          EveryLine (Classified upper d) (titled title statements) := by
    intro title rest statements starts oneLine each
    refine everyLine_titled (Or.inl blank) (Or.inl (unread_comment upper starts oneLine)) ?_
    exact fun statement member line inLines => Or.inl (each statement member line inLines)
  have connect : EveryLine (Classified upper d) (connectItems d) := by
    rw [connectItems]
    split
    next => exact unread rfl (by decide) (checked.unread_connectSection upper)
    next => exact fun _ absent => absurd absent List.not_mem_nil
  have logins : EveryLine (Classified upper d) (loginItems d) := by
    rw [loginItems]
    split
    next => exact fun _ absent => absurd absent List.not_mem_nil
    next =>
      rw [everyLine_append, everyLine_append]
      exact ⟨⟨unread rfl (by decide) (checked.unread_loginSection upper),
        unread rfl (by decide) (checked.unread_bindingSection upper)⟩, connect⟩
  have privileges : EveryLine (Classified upper d)
      (titled "-- 3. 스키마 및 테이블 권한 (allow-by-role, 명시적 GRANT만)"
        (schemaSection d ++ tableSection d ++ sequenceSection d)) := by
    refine everyLine_titled (Or.inl blank) (Or.inl (unread_comment upper rfl (by decide))) ?_
    intro statement member line inLines
    rcases List.mem_append.mp member with schemaOrTable | inSequences
    · rcases List.mem_append.mp schemaOrTable with inSchemas | inTables
      · exact Or.inl (checked.unread_schemaSection upper statement inSchemas line inLines)
      · exact Or.inr (List.mem_flatMap.mpr ⟨statement, inTables, inLines⟩)
    · exact Or.inl (checked.unread_sequenceSection upper statement inSequences line inLines)
  rw [pgItems]
  simp only [everyLine_append, everyLine_line]
  exact ⟨⟨⟨⟨⟨Or.inl (unread_comment upper rfl (by decide)),
    unread rfl (by decide) (checked.unread_createRoleSection upper)⟩,
    unread rfl (by decide) (checked.unread_inheritanceSection upper)⟩, privileges⟩, logins⟩,
    Or.inl blank⟩

omit checked upper in
theorem sortedPrivileges_ne_nil (grant : Grant) : sortedPrivileges grant ≠ [] := by
  rw [sortedPrivileges, Ne, Text.sortBy_eq_nil]
  exact grant.privileges_nonempty

/-- The names in a line that grants privileges on a table. -/
theorem Checked.isName_of_grant {res : Resource} (declared : res ∈ d.resources) {grant : Grant}
    (inGrants : grant ∈ res.grants) {role : String} (listed : role ∈ grant.roles) :
    IsName res.resource ∧ IsName (toPgRole role) :=
  ⟨isName_of_isSchemaTable (checked.schemaTable res declared),
    checked.isName_toPgRole (checked.grantRoleKnown res declared grant inGrants role listed)⟩

theorem Checked.oneLine_tableGrantLines : ∀ line ∈ tableGrantLines d, '\n' ∉ line.toList := by
  intro line member
  rcases (mem_tableGrantLines d line).mp member with
    ⟨res, declared, _, grant, inGrants, role, listed, rfl⟩
  rcases checked.isName_of_grant declared inGrants listed with ⟨tableName, roleName⟩
  have words : '\n' ∉ (privilegeWords (sortedPrivileges grant)).toList := by
    intro newline
    rcases (privilegeWords_shape (sortedPrivileges_ne_nil grant)).2.1 _ newline with
      letter | comma | blank
    · exact absurd letter (by decide)
    · exact absurd comma (by decide)
    · exact absurd blank (by decide)
  simp [grantTableLine, words, tableName.isToken.oneLine, roleName.isToken.oneLine]

/-- The script is taken apart into the lines it was put together from. -/
theorem Checked.split_compilePgDdl :
    Text.split '\n' (compilePgDdl d) = (pgItems d).flatMap PgItem.lines := by
  apply Text.split_join
  · simp [pgItems, PgItem.lines]
  · intro line member
    rcases List.mem_flatMap.mp member with ⟨item, inItems, inLines⟩
    rcases checked.classified asciiCase item inItems line inLines with unread | inTable
    · exact unread.1
    · exact checked.oneLine_tableGrantLines line inTable

theorem Checked.mem_parsed_script (g : ParsedGrant) :
    g ∈ (Text.split '\n' (compilePgDdl d)).filterMap (parseGrantLine upper) ↔
      ∃ line ∈ tableGrantLines d, parseGrantLine upper line = some g := by
  rw [checked.split_compilePgDdl, List.mem_filterMap]
  constructor
  · rintro ⟨line, inScript, parsed⟩
    rcases List.mem_flatMap.mp inScript with ⟨item, inItems, inLines⟩
    rcases checked.classified upper item inItems line inLines with unread | inTable
    · simp [unread.2] at parsed
    · exact ⟨line, inTable, parsed⟩
  · rintro ⟨line, inTable, parsed⟩
    rcases List.mem_flatMap.mp inTable with ⟨statement, inSection, inLines⟩
    refine ⟨line, List.mem_flatMap.mpr ⟨.statement statement, ?_, inLines⟩, parsed⟩
    simp [pgItems, titled, inSection]

theorem Checked.exists_privilege_of_script {g : ParsedGrant}
    (parsed : g ∈ (Text.split '\n' (compilePgDdl d)).filterMap (parseGrantLine upper)) :
    ∃ p, p ∈ g.privileges := by
  rcases (checked.mem_parsed_script upper g).mp parsed with ⟨line, inTable, read⟩
  rcases (mem_tableGrantLines d line).mp inTable with
    ⟨res, declared, _, grant, inGrants, role, listed, rfl⟩
  rcases checked.isName_of_grant declared inGrants listed with ⟨tableName, roleName⟩
  rcases parseGrantLine_grantTableLine (sortedPrivileges_ne_nil grant) (Or.inr rfl) upper
    tableName roleName with ⟨found, isFound, _, _, privileges⟩
  obtain rfl : found = g := Option.some.inj (isFound.symm.trans read)
  rcases List.exists_mem_of_ne_nil _ (sortedPrivileges_ne_nil grant) with ⟨privilege, member⟩
  exact ⟨PRIV_SQL privilege, (privileges _).mpr ⟨privilege, member, rfl⟩⟩

/-- The key of a declared table and role. -/
def declaredKey (table role : String) : String := table ++ "/" ++ toPgRole role

omit checked upper in
/-- Table and role can be read off a key of names. -/
theorem key_inj {table role otherTable otherRole : String} (tableName : IsName table)
    (roleName : IsName role) (same : otherTable ++ "/" ++ otherRole = table ++ "/" ++ role) :
    otherTable = table ∧ otherRole = role := by
  have lists : table.toList ++ '/' :: role.toList =
      otherTable.toList ++ '/' :: otherRole.toList := by
    simpa using congrArg String.toList same.symm
  have noSlash : ∀ name : String, IsName name → '/' ∉ name.toList := by
    intro name isName member
    exact (nameChar_facts (isName.2 '/' member)).2.2.2.1 rfl
  rcases (List.append_cons_inj_of_notMem (noSlash table tableName) (noSlash role roleName)).mp
    lists with ⟨sameTable, _, sameRole⟩
  exact ⟨String.toList_inj.mp sameTable.symm, String.toList_inj.mp sameRole.symm⟩

/-- What the comparison reads under a key of the script is what is declared. -/
theorem Checked.read_script (key p : String) :
    (∃ g ∈ (Text.split '\n' (compilePgDdl d)).filterMap (parseGrantLine upper),
        grantKey g = key ∧ p ∈ g.privileges) ↔
      ∃ table role privilege, Listed d (.table privilege table) role ∧
        declaredKey table role = key ∧ PRIV_SQL privilege = p := by
  simp only [checked.mem_parsed_script, mem_tableGrantLines]
  constructor
  · rintro ⟨g, ⟨_, ⟨res, declared, engine, grant, inGrants, role, listed, rfl⟩, parsed⟩, rfl, inSet⟩
    rcases checked.isName_of_grant declared inGrants listed with ⟨tableName, roleName⟩
    rcases parseGrantLine_grantTableLine (sortedPrivileges_ne_nil grant) (Or.inr rfl) upper
      tableName roleName with ⟨read, isRead, sameTable, sameRole, privileges⟩
    obtain rfl : read = g := Option.some.inj (isRead.symm.trans parsed)
    rcases (privileges p).mp inSet with ⟨privilege, inGrant, rfl⟩
    rw [sortedPrivileges, Text.mem_sortBy] at inGrant
    refine ⟨res.resource, role, privilege,
      ⟨res, declared, engine, rfl, grant, inGrants, inGrant, listed⟩, ?_, rfl⟩
    rw [declaredKey, grantKey, sameTable, sameRole]
  · rintro ⟨_, role, privilege, ⟨res, declared, engine, rfl, grant, inGrants, inGrant, listed⟩,
      rfl, rfl⟩
    rcases checked.isName_of_grant declared inGrants listed with ⟨tableName, roleName⟩
    rcases parseGrantLine_grantTableLine (sortedPrivileges_ne_nil grant) (Or.inr rfl) upper
      tableName roleName with ⟨read, isRead, sameTable, sameRole, privileges⟩
    refine ⟨read, ⟨_, ⟨res, declared, engine, grant, inGrants, role, listed, rfl⟩, isRead⟩, ?_, ?_⟩
    · rw [declaredKey, grantKey, sameTable, sameRole]
    · apply (privileges _).mpr
      refine ⟨privilege, ?_, rfl⟩
      rw [sortedPrivileges, Text.mem_sortBy]
      exact inGrant

end Script

end BelugaManager.PolicyCompiler
