import Mathlib.Data.List.Basic

/-!
# Backtracking patterns with captures

A backtracking matcher tries the ways in which a pattern can match in a fixed
order and keeps the first that lets the rest of the pattern succeed.  Here a
pattern is the list of these ways: each is what the pattern captures and what it
leaves of the input.  Greedy and lazy repetition differ only in the order.
-/

namespace Foundation

/-- The ways to match a prefix of the input, the preferred one first. -/
def Pattern (α : Type) := List Char → List (α × List Char)

namespace Pattern

variable {α β : Type}

instance : Monad Pattern where
  pure value := fun input => [(value, input)]
  bind first next := fun input => (first input).flatMap fun way => next way.1 way.2

theorem pure_apply (value : α) (input : List Char) :
    (pure value : Pattern α) input = [(value, input)] := rfl

theorem bind_apply (first : Pattern α) (next : α → Pattern β) (input : List Char) :
    (first >>= next) input = (first input).flatMap fun way => next way.1 way.2 := rfl

instance : LawfulMonad Pattern := by
  apply LawfulMonad.mk' Pattern
  · intro α pattern
    funext input
    exact List.flatMap_singleton' (pattern input)
  · intro α β value next
    funext input
    exact List.flatMap_singleton _ _
  · intro α β γ pattern first second
    funext input
    exact List.flatMap_assoc

/-- A fixed word in ASCII letters of either case. -/
def letters : List Char → Pattern Unit
  | [], input => [((), input)]
  | _ :: _, [] => []
  | letter :: word, c :: rest => if letter.toLower = c.toLower then letters word rest else []

def word (text : String) : Pattern Unit := letters text.toList

/-- The nonempty prefixes in a character class, each with the rest, shortest first. -/
def prefixes (accepts : Char → Bool) : List Char → List (List Char × List Char)
  | [] => []
  | c :: rest =>
      if accepts c then
        ([c], rest) :: (prefixes accepts rest).map fun way => (c :: way.1, way.2)
      else []

/-- One character or more of a class, as many as possible. -/
def plus (accepts : Char → Bool) : Pattern (List Char) := fun input =>
  (prefixes accepts input).reverse

/-- One character or more of a class, as few as possible. -/
def lazyPlus (accepts : Char → Bool) : Pattern (List Char) := prefixes accepts

/-- The pattern if it matches, else nothing. -/
def opt (body : Pattern α) : Pattern (Option α) := fun input =>
  (body input).map (fun way => (some way.1, way.2)) ++ [(none, input)]

/-- The end of the input. -/
def atEnd : Pattern Unit := fun input => if input = [] then [((), [])] else []

/-- What the preferred way captures. -/
def exec (pattern : Pattern α) (input : List Char) : Option α :=
  (pattern input).head?.map Prod.fst

theorem mem_bind {first : Pattern α} {next : α → Pattern β} {input : List Char}
    {way : β × List Char} :
    way ∈ (first >>= next) input ↔ ∃ inner ∈ first input, way ∈ next inner.1 inner.2 :=
  List.mem_flatMap

theorem mem_letters (word : List Char) {input : List Char} {way : Unit × List Char} :
    way ∈ letters word input ↔
      ∃ front, input = front ++ way.2 ∧ front.map Char.toLower = word.map Char.toLower := by
  induction word generalizing input with
  | nil =>
      cases way
      simp [letters, eq_comm]
  | cons letter word ih =>
      cases input with
      | nil =>
          simp only [letters, List.not_mem_nil, false_iff]
          rintro ⟨front, joined, same⟩
          rw [List.nil_eq_append_iff] at joined
          simp [joined.1] at same
      | cons c rest =>
          rw [letters]
          constructor
          · intro member
            split at member
            next equal =>
              rcases ih.mp member with ⟨front, joined, same⟩
              exact ⟨c :: front, by rw [joined, List.cons_append], by simp [equal, same]⟩
            next => exact absurd member List.not_mem_nil
          · rintro ⟨front, joined, same⟩
            cases front with
            | nil => simp at same
            | cons head front =>
                obtain ⟨rfl, tail⟩ := List.cons.inj joined
                obtain ⟨equal, sameTail⟩ := List.cons.inj same
                rw [if_pos equal.symm]
                exact ih.mpr ⟨front, tail, sameTail⟩

theorem mem_word (text : String) {input : List Char} {way : Unit × List Char} :
    way ∈ word text input ↔
      ∃ front, input = front ++ way.2 ∧
        front.map Char.toLower = text.toList.map Char.toLower :=
  mem_letters text.toList

theorem mem_prefixes {accepts : Char → Bool} {input : List Char}
    {way : List Char × List Char} :
    way ∈ prefixes accepts input ↔
      input = way.1 ++ way.2 ∧ way.1 ≠ [] ∧ ∀ c ∈ way.1, accepts c = true := by
  induction input generalizing way with
  | nil =>
      simp only [prefixes, List.not_mem_nil, false_iff]
      rintro ⟨joined, nonempty, _⟩
      exact nonempty (List.nil_eq_append_iff.mp joined).1
  | cons c rest ih =>
      rw [prefixes]
      constructor
      · intro member
        split at member
        next accepted =>
          rcases List.mem_cons.mp member with rfl | member
          · simp [accepted]
          · rcases List.mem_map.mp member with ⟨shorter, inPrefixes, rfl⟩
            rcases ih.mp inPrefixes with ⟨joined, _, every⟩
            exact ⟨by rw [joined, List.cons_append], by simp, by simpa [accepted] using every⟩
        next => exact absurd member List.not_mem_nil
      · rcases way with ⟨front, back⟩
        rintro ⟨joined, nonempty, every⟩
        cases front with
        | nil => exact absurd rfl nonempty
        | cons head front =>
            obtain ⟨rfl, rfl⟩ := List.cons.inj joined
            rw [if_pos (every c List.mem_cons_self)]
            cases front with
            | nil => exact List.mem_cons_self
            | cons second front =>
                apply List.mem_cons_of_mem
                apply List.mem_map.mpr
                refine ⟨(second :: front, back), ih.mpr ⟨rfl, by simp, ?_⟩, rfl⟩
                intro other member
                exact every other (List.mem_cons_of_mem _ member)

theorem mem_plus {accepts : Char → Bool} {input : List Char} {way : List Char × List Char} :
    way ∈ plus accepts input ↔
      input = way.1 ++ way.2 ∧ way.1 ≠ [] ∧ ∀ c ∈ way.1, accepts c = true := by
  rw [plus, List.mem_reverse, mem_prefixes]

theorem mem_opt {body : Pattern α} {input : List Char} {way : Option α × List Char} :
    way ∈ opt body input ↔
      way = (none, input) ∨ ∃ inner ∈ body input, way = (some inner.1, inner.2) := by
  simp only [opt, List.mem_append, List.mem_map, List.mem_singleton, or_comm, eq_comm]

theorem mem_atEnd {input : List Char} {way : Unit × List Char} :
    way ∈ atEnd input ↔ input = [] ∧ way = ((), []) := by
  by_cases empty : input = []
  · simp [atEnd, empty]
  · simp [atEnd, empty]

theorem mem_of_exec {pattern : Pattern α} {input : List Char} {value : α}
    (found : pattern.exec input = some value) : ∃ rest, (value, rest) ∈ pattern input := by
  rcases Option.map_eq_some_iff.mp found with ⟨⟨_, rest⟩, first, rfl⟩
  exact ⟨rest, List.mem_of_head? first⟩

/-! ## The preferred way -/

/-- A word in whatever case is matched in one way. -/
theorem word_bind_of_lower {text : String} {spelling : List Char} {next : Unit → Pattern β}
    (spells : spelling.map Char.toLower = text.toList.map Char.toLower) (rest : List Char) :
    (word text >>= next) (spelling ++ rest) = next () rest := by
  have exact : ∀ word : List Char, spelling.map Char.toLower = word.map Char.toLower →
      letters word (spelling ++ rest) = [((), rest)] := by
    clear spells
    induction spelling with
    | nil =>
        intro word same
        rw [List.map_nil, eq_comm, List.map_eq_nil_iff] at same
        rw [same, List.nil_append, letters]
    | cons c spelling ih =>
        intro word same
        cases word with
        | nil => exact absurd same (List.cons_ne_nil _ _)
        | cons letter word =>
            rcases List.cons.inj same with ⟨first, others⟩
            rw [List.cons_append, letters, if_pos first.symm, ih word others]
  rw [bind_apply, word, exact text.toList spells, List.flatMap_singleton]

theorem word_bind (text : String) {next : Unit → Pattern β} (rest : List Char) :
    (word text >>= next) (text.toList ++ rest) = next () rest :=
  word_bind_of_lower rfl rest

/-- Nothing is repeated where the first character is outside the class. -/
theorem prefixes_eq_nil {accepts : Char → Bool} {input : List Char}
    (outside : ∀ c ∈ input.head?, accepts c = false) : prefixes accepts input = [] := by
  cases input with
  | nil => rfl
  | cons c rest => rw [prefixes, if_neg (by simp [outside c rfl])]

/-- One character of the class alone is repeated once. -/
theorem plus_bind_single {accepts : Char → Bool} {next : List Char → Pattern β} {c : Char}
    {rest : List Char} (accepted : accepts c = true)
    (outside : ∀ other ∈ rest.head?, accepts other = false) :
    (plus accepts >>= next) (c :: rest) = next [c] rest := by
  rw [bind_apply, plus, prefixes, if_pos accepted, prefixes_eq_nil outside]
  simp

/-- Where what follows cannot start inside the class, a repetition takes all of it. -/
theorem plus_bind_all {accepts : Char → Bool} {next : Pattern β} {front rest : List Char}
    (nonempty : front ≠ []) (every : ∀ c ∈ front, accepts c = true)
    (outside : ∀ c ∈ rest.head?, accepts c = false)
    (starts : ∀ c tail, accepts c = true → next (c :: tail) = []) :
    (plus accepts >>= fun _ => next) (front ++ rest) = next rest := by
  rw [bind_apply, plus]
  induction front with
  | nil => exact absurd rfl nonempty
  | cons c front ih =>
      rw [List.cons_append, prefixes, if_pos (every c List.mem_cons_self), List.reverse_cons,
        List.flatMap_append, List.flatMap_singleton, ← List.map_reverse, List.flatMap_map]
      cases front with
      | nil => rw [List.nil_append, prefixes_eq_nil outside, List.reverse_nil, List.flatMap_nil,
          List.nil_append]
      | cons second front =>
          rw [List.cons_append, starts second _ (every second (by simp)), List.append_nil]
          exact ih (List.cons_ne_nil _ _) fun other member =>
            every other (List.mem_cons_of_mem c member)

/-- A greedy repetition first takes everything up to a character outside the class. -/
theorem head?_plus_bind {accepts : Char → Bool} {next : List Char → Pattern β}
    {front rest : List Char} {stop : Char} {found : β × List Char} (nonempty : front ≠ [])
    (every : ∀ c ∈ front, accepts c = true) (stops : accepts stop = false)
    (first : (next front (stop :: rest)).head? = some found) :
    ((plus accepts >>= next) (front ++ stop :: rest)).head? = some found := by
  have longest : (plus accepts (front ++ stop :: rest)).head? = some (front, stop :: rest) := by
    rw [plus, List.head?_reverse]
    clear first
    induction front with
    | nil => exact absurd rfl nonempty
    | cons c front ih =>
        rw [List.cons_append, prefixes, if_pos (every c List.mem_cons_self)]
        cases front with
        | nil => simp [prefixes, stops]
        | cons second front =>
            have tail := ih (by simp) fun other member =>
              every other (List.mem_cons_of_mem _ member)
            rw [List.getLast?_cons, List.getLast?_map, tail]
            rfl
  rw [bind_apply, List.head?_flatMap]
  cases ways : plus accepts (front ++ stop :: rest) with
  | nil => simp [ways] at longest
  | cons way others =>
      rw [ways, List.head?_cons, Option.some.injEq] at longest
      rw [List.findSome?_cons, longest, first]

/-- A lazy repetition stops where what follows first succeeds. -/
theorem head?_lazyPlus_bind {accepts : Char → Bool} {next : List Char → Pattern β}
    {front rest : List Char} {found : β × List Char} (nonempty : front ≠ [])
    (every : ∀ c ∈ front, accepts c = true)
    (fails : ∀ before after, front = before ++ after → before ≠ [] → after ≠ [] →
      next before (after ++ rest) = [])
    (first : (next front rest).head? = some found) :
    ((lazyPlus accepts >>= next) (front ++ rest)).head? = some found := by
  rw [bind_apply, lazyPlus, List.head?_flatMap]
  induction front generalizing next with
  | nil => exact absurd rfl nonempty
  | cons c front ih =>
      rw [List.cons_append, prefixes, if_pos (every c List.mem_cons_self), List.findSome?_cons,
        List.findSome?_map]
      cases front with
      | nil => rw [List.nil_append, first]
      | cons second front =>
          have shortest := fails [c] (second :: front) rfl (by simp) (by simp)
          rw [shortest, List.head?_nil]
          apply @ih (fun taken => next (c :: taken)) (by simp)
          · intro other member
            exact every other (List.mem_cons_of_mem _ member)
          · intro before after joined someBefore someAfter
            exact fails (c :: before) after (by rw [joined, List.cons_append]) (by simp) someAfter
          · exact first

/-- Where a lazy repetition stopped, what follows succeeded first. -/
theorem exists_of_head?_lazyPlus_bind {accepts : Char → Bool} {next : List Char → Pattern β}
    {input : List Char} {found : β × List Char}
    (first : ((lazyPlus accepts >>= next) input).head? = some found) :
    ∃ front rest, input = front ++ rest ∧ front ≠ [] ∧ (∀ c ∈ front, accepts c = true) ∧
      (∀ before after, front = before ++ after → before ≠ [] → after ≠ [] →
        next before (after ++ rest) = []) ∧
      (next front rest).head? = some found := by
  rw [bind_apply, lazyPlus] at first
  induction input generalizing next with
  | nil => exact absurd first (by simp [prefixes])
  | cons c input ih =>
      rw [prefixes] at first
      by_cases accepted : accepts c = true
      · rw [if_pos accepted, List.flatMap_cons, List.flatMap_map] at first
        cases shortest : next [c] input with
        | cons way others =>
            rw [shortest, List.cons_append, List.head?_cons] at first
            refine ⟨[c], input, rfl, by simp, by simpa using accepted,
              ?_, by rw [shortest]; exact first⟩
            intro before after joined someBefore someAfter
            rcases List.append_eq_singleton_iff.mp joined.symm with ⟨empty, _⟩ | ⟨_, empty⟩
            · exact absurd empty someBefore
            · exact absurd empty someAfter
        | nil =>
            rw [shortest, List.nil_append] at first
            rcases @ih (fun taken => next (c :: taken)) first with
              ⟨front, rest, cut, nonempty, every, fails, succeeds⟩
            refine ⟨c :: front, rest, by rw [cut, List.cons_append], by simp, ?_, ?_, succeeds⟩
            · intro other member
              rcases List.mem_cons.mp member with rfl | later
              · exact accepted
              · exact every other later
            · intro before after joined someBefore someAfter
              cases before with
              | nil => exact absurd rfl someBefore
              | cons head before =>
                  rcases List.cons.inj joined with ⟨rfl, tail⟩
                  cases before with
                  | nil =>
                      obtain rfl : front = after := tail
                      rw [← cut]
                      exact shortest
                  | cons second before =>
                      exact fails (second :: before) after tail (by simp) someAfter
      · rw [if_neg accepted, List.flatMap_nil] at first
        exact absurd first (by simp)

/-- A pattern that matches here is preferred to skipping it. -/
theorem head?_opt_bind_some {body : Pattern α} {next : Option α → Pattern β}
    {input : List Char} {way : α × List Char} {found : β × List Char}
    (here : body input = [way]) (first : (next (some way.1) way.2).head? = some found) :
    ((opt body >>= next) input).head? = some found := by
  rw [bind_apply, opt, here, List.head?_flatMap]
  simp [first]

theorem opt_bind_none {body : Pattern α} {next : Option α → Pattern β} {input : List Char}
    (here : body input = []) : (opt body >>= next) input = next none input := by
  simp [bind_apply, opt, here]

theorem bind_eq_nil {first : Pattern α} {next : α → Pattern β} {input : List Char}
    (fails : ∀ value rest, (value, rest) ∈ first input → next value rest = []) :
    (first >>= next) input = [] := by
  rw [bind_apply, List.flatMap_eq_nil_iff]
  intro way member
  exact fails way.1 way.2 member

/-! ## Patterns that agree on the characters of an input -/

/-- Two patterns that match alike wherever only some characters occur, and leave only
such characters. -/
def AgreeOn (allowed : Char → Prop) (left right : Pattern α) : Prop :=
  ∀ input, (∀ c ∈ input, allowed c) →
    left input = right input ∧ ∀ way ∈ left input, ∀ c ∈ way.2, allowed c

variable {allowed : Char → Prop}

theorem agreeOn_pure (value : α) : AgreeOn allowed (pure value) (pure value) := by
  intro input every
  refine ⟨rfl, ?_⟩
  intro way member
  rw [pure_apply, List.mem_singleton] at member
  exact member ▸ every

theorem agreeOn_bind {left right : Pattern α} {leftNext rightNext : α → Pattern β}
    (first : AgreeOn allowed left right)
    (next : ∀ value, AgreeOn allowed (leftNext value) (rightNext value)) :
    AgreeOn allowed (left >>= leftNext) (right >>= rightNext) := by
  intro input every
  have here := first input every
  constructor
  · rw [bind_apply, bind_apply, ← here.1]
    apply List.flatMap_congr
    intro way member
    exact (next way.1 way.2 (here.2 way member)).1
  · intro way member
    rcases mem_bind.mp member with ⟨inner, inFirst, inNext⟩
    exact (next inner.1 inner.2 (here.2 inner inFirst)).2 way inNext

theorem agreeOn_word (text : String) : AgreeOn allowed (word text) (word text) := by
  intro input every
  refine ⟨rfl, ?_⟩
  intro way member c inRest
  rcases (mem_word text).mp member with ⟨front, joined, _⟩
  exact every c (joined ▸ List.mem_append_right front inRest)

theorem prefixes_congr {left right : Char → Bool} {input : List Char}
    (same : ∀ c ∈ input, left c = right c) : prefixes left input = prefixes right input := by
  induction input with
  | nil => rfl
  | cons c rest ih =>
      rw [prefixes, prefixes, same c List.mem_cons_self,
        ih fun other member => same other (List.mem_cons_of_mem _ member)]

theorem agreeOn_lazyPlus {left right : Char → Bool} (same : ∀ c, allowed c → left c = right c) :
    AgreeOn allowed (lazyPlus left) (lazyPlus right) := by
  intro input every
  refine ⟨prefixes_congr fun c member => same c (every c member), ?_⟩
  intro way member c inRest
  exact every c ((mem_prefixes.mp member).1 ▸ List.mem_append_right way.1 inRest)

theorem agreeOn_plus {left right : Char → Bool} (same : ∀ c, allowed c → left c = right c) :
    AgreeOn allowed (plus left) (plus right) := by
  intro input every
  have lazily := agreeOn_lazyPlus same input every
  refine ⟨congrArg List.reverse lazily.1, ?_⟩
  intro way member
  exact lazily.2 way (List.mem_reverse.mp member)

theorem agreeOn_opt {left right : Pattern α} (body : AgreeOn allowed left right) :
    AgreeOn allowed (opt left) (opt right) := by
  intro input every
  have here := body input every
  constructor
  · rw [opt, opt, here.1]
  · intro way member
    rcases mem_opt.mp member with rfl | ⟨inner, inBody, rfl⟩
    · exact every
    · exact here.2 inner inBody

theorem agreeOn_atEnd : AgreeOn allowed atEnd atEnd := by
  intro input every
  refine ⟨rfl, ?_⟩
  intro way member
  rcases mem_atEnd.mp member with ⟨_, rfl⟩
  exact fun c absent => absurd absent List.not_mem_nil

end Pattern

end Foundation
