import Mathlib.Computability.Language

/-!
# Regular expressions over character classes

Anchored tests only ask whether a string belongs to the language of an
expression, so they are decided by taking derivatives, one character at a time.
-/

namespace Foundation

/-- Regular expressions whose letters are character classes. -/
inductive Regex where
  | empty
  | epsilon
  | chars (accepts : Char → Bool)
  | seq (first second : Regex)
  | alt (left right : Regex)
  | star (body : Regex)

namespace Regex

/-- At most one occurrence. -/
def opt (body : Regex) : Regex := .alt body .epsilon

/-- At least one occurrence. -/
def plus (body : Regex) : Regex := .seq body (.star body)

/-- One expression after the other. -/
def all (parts : List Regex) : Regex := parts.foldr .seq .epsilon

/-- Any one of the expressions. -/
def any (parts : List Regex) : Regex := parts.foldr .alt .empty

/-- One given character. -/
def char (c : Char) : Regex := .chars (· = c)

/-- A fixed word in ASCII letters of either case. -/
def word (text : String) : Regex :=
  all (text.toList.map fun c => .chars fun other => c.toLower = other.toLower)

/-- The strings an expression describes. -/
def lang : Regex → Language Char
  | .empty => 0
  | .epsilon => 1
  | .chars accepts => {w | ∃ c, accepts c = true ∧ w = [c]}
  | .seq first second => first.lang * second.lang
  | .alt left right => left.lang + right.lang
  | .star body => KStar.kstar body.lang

/-- Whether the empty string is described. -/
def nullable : Regex → Bool
  | .empty => false
  | .epsilon => true
  | .chars _ => false
  | .seq first second => first.nullable && second.nullable
  | .alt left right => left.nullable || right.nullable
  | .star _ => true

/-- What may follow after a first character. -/
def deriv (c : Char) : Regex → Regex
  | .empty => .empty
  | .epsilon => .empty
  | .chars accepts => if accepts c then .epsilon else .empty
  | .seq first second =>
      if first.nullable then .alt (.seq (first.deriv c) second) (second.deriv c)
      else .seq (first.deriv c) second
  | .alt left right => .alt (left.deriv c) (right.deriv c)
  | .star body => .seq (body.deriv c) (.star body)

/-- Whether the whole string is described. -/
def test (pattern : Regex) (s : String) : Bool :=
  (s.toList.foldl (fun pattern c => pattern.deriv c) pattern).nullable

theorem mem_lang_chars (accepts : Char → Bool) (w : List Char) :
    w ∈ (chars accepts).lang ↔ ∃ c, accepts c = true ∧ w = [c] := Iff.rfl

theorem nullable_iff (pattern : Regex) : pattern.nullable = true ↔ [] ∈ pattern.lang := by
  induction pattern with
  | empty => simp [nullable, lang]
  | epsilon => simp [nullable, lang, Language.mem_one]
  | chars accepts => simp [nullable, mem_lang_chars]
  | seq first second firstIH secondIH =>
      simp [nullable, lang, firstIH, secondIH, Language.mem_mul]
  | alt left right leftIH rightIH =>
      simp [nullable, lang, leftIH, rightIH, Language.mem_add]
  | star body => simp [nullable, lang, Language.nil_mem_kstar]

/-- The derivative describes what may follow its character. In a sequence the
character belongs to the second part only if the first part may be empty. -/
theorem mem_lang_deriv (pattern : Regex) (c : Char) (rest : List Char) :
    rest ∈ (pattern.deriv c).lang ↔ c :: rest ∈ pattern.lang := by
  induction pattern generalizing rest with
  | empty => simp [deriv, lang]
  | epsilon => simp [deriv, lang, Language.mem_one]
  | chars accepts =>
      by_cases accepted : accepts c = true
      · simp [deriv, lang.eq_2, mem_lang_chars, accepted, Language.mem_one]
      · rw [mem_lang_chars, deriv, if_neg accepted]
        simp only [lang, Language.notMem_zero, false_iff]
        rintro ⟨other, otherAccepted, equal⟩
        exact accepted ((List.cons.inj equal).1 ▸ otherAccepted)
  | seq first second firstIH secondIH =>
      have inFirst : rest ∈ (first.deriv c).lang * second.lang ↔
          ∃ front, c :: front ∈ first.lang ∧ ∃ back ∈ second.lang, front ++ back = rest := by
        simp only [Language.mem_mul, firstIH]
      have split : c :: rest ∈ first.lang * second.lang ↔
          ([] ∈ first.lang ∧ c :: rest ∈ second.lang) ∨
            ∃ front, c :: front ∈ first.lang ∧
              ∃ back ∈ second.lang, front ++ back = rest := by
        rw [Language.mem_mul]
        constructor
        · rintro ⟨front, frontMember, back, backMember, joined⟩
          cases front with
          | nil => exact Or.inl ⟨frontMember, joined ▸ backMember⟩
          | cons head front =>
              obtain ⟨isHead, isRest⟩ := List.cons.inj joined
              exact Or.inr ⟨front, isHead ▸ frontMember, back, backMember, isRest⟩
        · rintro (⟨frontMember, backMember⟩ | ⟨front, frontMember, back, backMember, joined⟩)
          · exact ⟨[], frontMember, c :: rest, backMember, rfl⟩
          · exact ⟨c :: front, frontMember, back, backMember, congrArg (c :: ·) joined⟩
      by_cases empty : first.nullable = true
      · simp [deriv, lang, empty, Language.mem_add, inFirst, secondIH, split,
          (nullable_iff first).mp empty, or_comm]
      · simp [deriv, lang, empty, inFirst, split, mt (nullable_iff first).mpr empty]
  | alt left right leftIH rightIH => simp [deriv, lang, leftIH, rightIH, Language.mem_add]
  | star body ih =>
      simp only [deriv, lang, Language.mem_mul, ih]
      constructor
      · rintro ⟨front, inBody, back, inStar, rfl⟩
        obtain ⟨pieces, rfl, members⟩ := Language.mem_kstar.mp inStar
        refine Language.mem_kstar.mpr ⟨(c :: front) :: pieces, rfl, ?_⟩
        intro piece member
        rcases List.mem_cons.mp member with rfl | later
        · exact inBody
        · exact members piece later
      · intro inStar
        obtain ⟨pieces, joined, members⟩ :=
          Language.mem_kstar_iff_exists_nonempty.mp inStar
        cases pieces with
        | nil => simp at joined
        | cons piece pieces =>
            cases piece with
            | nil => exact absurd rfl (members [] List.mem_cons_self).2
            | cons head front =>
                obtain ⟨rfl, rfl⟩ := List.cons.inj joined
                refine ⟨front, (members _ List.mem_cons_self).1, pieces.flatten, ?_, rfl⟩
                exact Language.mem_kstar.mpr ⟨pieces, rfl, fun other member =>
                  (members other (List.mem_cons_of_mem _ member)).1⟩

theorem test_iff (pattern : Regex) (s : String) :
    pattern.test s = true ↔ s.toList ∈ pattern.lang := by
  have run : ∀ (chars : List Char) (pattern : Regex),
      (chars.foldl (fun pattern c => pattern.deriv c) pattern).nullable = true ↔
        chars ∈ pattern.lang := by
    intro chars
    induction chars with
    | nil => exact nullable_iff
    | cons c rest ih =>
        intro pattern
        rw [List.foldl_cons, ih, mem_lang_deriv]
  exact run s.toList pattern

theorem mem_lang_star_chars (accepts : Char → Bool) (w : List Char) :
    w ∈ (star (chars accepts)).lang ↔ ∀ c ∈ w, accepts c = true := by
  induction w with
  | nil => exact iff_of_true (Language.nil_mem_kstar _) (by simp)
  | cons c rest ih =>
      rw [← mem_lang_deriv, deriv, List.forall_mem_cons, ← ih]
      by_cases accepted : accepts c = true
      · simp [deriv, lang, accepted]
      · simp [deriv, lang, accepted]

/-- A name: one character of a first class, then any number of a second class. -/
theorem test_seq_star_iff (first rest : Char → Bool) (s : String) :
    (seq (chars first) (star (chars rest))).test s = true ↔
      ∃ c tail, s.toList = c :: tail ∧ first c = true ∧ ∀ other ∈ tail, rest other = true := by
  rw [test_iff]
  simp only [lang.eq_4, Language.mem_mul, mem_lang_star_chars, mem_lang_chars]
  constructor
  · rintro ⟨_, ⟨c, accepted, rfl⟩, tail, members, joined⟩
    exact ⟨c, tail, joined.symm, accepted, members⟩
  · rintro ⟨c, tail, joined, accepted, members⟩
    exact ⟨[c], ⟨c, accepted, rfl⟩, tail, members, joined.symm⟩

/-! ## The texts of composed expressions -/

theorem mem_lang_seq {first second : Regex} {w : List Char} :
    w ∈ (seq first second).lang ↔ ∃ front ∈ first.lang, ∃ back ∈ second.lang, front ++ back = w :=
  Language.mem_mul

theorem mem_lang_alt {left right : Regex} {w : List Char} :
    w ∈ (alt left right).lang ↔ w ∈ left.lang ∨ w ∈ right.lang :=
  Language.mem_add _ _ _

theorem mem_lang_epsilon {w : List Char} : w ∈ epsilon.lang ↔ w = [] := Language.mem_one w

theorem mem_lang_star {body : Regex} {w : List Char} :
    w ∈ (star body).lang ↔ ∃ pieces : List (List Char), w = pieces.flatten ∧
      ∀ piece ∈ pieces, piece ∈ body.lang :=
  Language.mem_kstar

theorem mem_lang_opt {body : Regex} {w : List Char} :
    w ∈ (opt body).lang ↔ w ∈ body.lang ∨ w = [] := by
  rw [opt, mem_lang_alt, mem_lang_epsilon]

theorem mem_lang_all_nil {w : List Char} : w ∈ (all []).lang ↔ w = [] := mem_lang_epsilon

theorem mem_lang_all_cons {part : Regex} {parts : List Regex} {w : List Char} :
    w ∈ (all (part :: parts)).lang ↔
      ∃ front ∈ part.lang, ∃ back ∈ (all parts).lang, front ++ back = w :=
  mem_lang_seq

theorem mem_lang_any_nil {w : List Char} : w ∉ (any []).lang := Language.notMem_zero w

theorem mem_lang_any_cons {part : Regex} {parts : List Regex} {w : List Char} :
    w ∈ (any (part :: parts)).lang ↔ w ∈ part.lang ∨ w ∈ (any parts).lang :=
  mem_lang_alt

theorem mem_lang_char {c : Char} {w : List Char} : w ∈ (char c).lang ↔ w = [c] := by
  rw [char, mem_lang_chars]
  constructor
  · intro spelled
    rcases spelled with ⟨other, same, rfl⟩
    rw [of_decide_eq_true same]
  · intro spelled
    exact ⟨c, decide_eq_true rfl, spelled⟩

/-- At least one character of a class. -/
theorem mem_lang_plus_chars {accepts : Char → Bool} {w : List Char} :
    w ∈ (plus (chars accepts)).lang ↔ w ≠ [] ∧ ∀ c ∈ w, accepts c = true := by
  rw [plus, mem_lang_seq]
  simp only [mem_lang_star_chars, mem_lang_chars]
  constructor
  · intro spelled
    rcases spelled with ⟨_, ⟨c, accepted, rfl⟩, back, rest, rfl⟩
    exact ⟨List.cons_ne_nil _ _, List.forall_mem_cons.mpr ⟨accepted, rest⟩⟩
  · intro spelled
    rcases spelled with ⟨nonempty, every⟩
    rcases List.exists_cons_of_ne_nil nonempty with ⟨c, rest, rfl⟩
    rcases List.forall_mem_cons.mp every with ⟨accepted, later⟩
    exact ⟨[c], ⟨c, accepted, rfl⟩, rest, later, rfl⟩

theorem mem_lang_word {text : String} {w : List Char} :
    w ∈ (word text).lang ↔ w.map Char.toLower = text.toList.map Char.toLower := by
  rw [word]
  induction text.toList generalizing w with
  | nil => rw [List.map_nil, mem_lang_all_nil, List.map_nil, List.map_eq_nil_iff]
  | cons c rest ih =>
      rw [List.map_cons, mem_lang_all_cons, List.map_cons]
      simp only [ih, mem_lang_chars]
      constructor
      · intro spelled
        rcases spelled with ⟨_, ⟨other, same, rfl⟩, back, later, rfl⟩
        rw [List.singleton_append, List.map_cons, later, of_decide_eq_true same]
      · intro spelled
        rcases List.map_eq_cons_iff.mp spelled with ⟨other, back, rfl, same, later⟩
        exact ⟨[other], ⟨other, decide_eq_true same.symm, rfl⟩, back, later, rfl⟩

end Regex

end Foundation
