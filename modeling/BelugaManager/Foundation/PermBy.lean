import BelugaManager.Foundation.Text
import Mathlib.Data.List.Perm.Basic

/-!
# Lists that agree up to order and up to a relation on their items

Two lists of records agree in this way when the records can be paired off so that
the two of each pair differ only in the order of lists of their own.
-/

namespace Foundation

variable {α β γ : Type*}

/-- Lists that are related item by item have equal images under what related items share. -/
theorem map_eq_of_forall₂ {related : α → β → Prop} {left : List α} {right : List β} {f : α → γ}
    {g : β → γ} (matched : List.Forall₂ related left right)
    (same : ∀ item other, related item other → f item = g other) : left.map f = right.map g := by
  induction matched with
  | nil => rfl
  | cons here later ih => rw [List.map_cons, List.map_cons, same _ _ here, ih]

theorem flatMap_eq_of_forall₂ {related : α → β → Prop} {left : List α} {right : List β}
    {f : α → List γ} {g : β → List γ} (matched : List.Forall₂ related left right)
    (same : ∀ item other, related item other → f item = g other) :
    left.flatMap f = right.flatMap g := by
  rw [List.flatMap_def, List.flatMap_def, map_eq_of_forall₂ matched same]

/-- Lists with equal images agree item by item. -/
theorem forall₂_of_map_eq {left : List α} {right : List β} {f : α → γ} {g : β → γ}
    (same : left.map f = right.map g) :
    List.Forall₂ (fun item other => f item = g other) left right := by
  rw [← List.forall₂_eq_eq_eq, List.forall₂_map_left_iff, List.forall₂_map_right_iff] at same
  exact same

/-- A relation may be replaced by one that the paired members satisfy. -/
theorem forall₂_imp_of_mem {related related' : α → β → Prop} {left : List α} {right : List β}
    (matched : List.Forall₂ related left right)
    (follows : ∀ item ∈ left, ∀ other ∈ right, related item other → related' item other) :
    List.Forall₂ related' left right := by
  induction matched with
  | nil => exact .nil
  | cons here later ih =>
      apply List.Forall₂.cons (follows _ List.mem_cons_self _ List.mem_cons_self here)
      apply ih
      intro item inLeft other inRight
      exact follows item (List.mem_cons_of_mem _ inLeft) other (List.mem_cons_of_mem _ inRight)

/-- Related optional values stay related when both are given related defaults. -/
theorem getD_of_rel {related : α → β → Prop} {left : Option α} {right : Option β}
    (matches' : Option.Rel related left right) {default : α} {default' : β}
    (defaults : related default default') : related (left.getD default) (right.getD default') := by
  cases matches' with
  | some here => exact here
  | none => exact defaults

/-- The items of the one list in some order are related to those of the other. -/
def PermBy (related : α → β → Prop) : List α → List β → Prop :=
  Relation.Comp List.Perm (List.Forall₂ related)

namespace PermBy

variable {related : α → β → Prop} {left : List α} {right : List β}

theorem nil : PermBy related [] [] := ⟨[], List.Perm.nil, .nil⟩

theorem exists_right (pairs : PermBy related left right) {item : α} (member : item ∈ left) :
    ∃ other ∈ right, related item other := by
  rcases pairs with ⟨middle, perm, matched⟩
  have inMiddle := perm.mem_iff.mp member
  clear perm member
  induction matched with
  | nil => exact absurd inMiddle List.not_mem_nil
  | cons here later ih =>
      rcases List.mem_cons.mp inMiddle with rfl | inRest
      · exact ⟨_, List.mem_cons_self, here⟩
      · rcases ih inRest with ⟨other, member, matches'⟩
        exact ⟨other, List.mem_cons_of_mem _ member, matches'⟩

theorem exists_left (pairs : PermBy related left right) {other : β} (member : other ∈ right) :
    ∃ item ∈ left, related item other := by
  rcases pairs with ⟨middle, perm, matched⟩
  have found : ∃ item ∈ middle, related item other := by
    clear perm
    induction matched with
    | nil => exact absurd member List.not_mem_nil
    | cons here later ih =>
        rcases List.mem_cons.mp member with rfl | inRest
        · exact ⟨_, List.mem_cons_self, here⟩
        · rcases ih inRest with ⟨item, inMiddle, matches'⟩
          exact ⟨item, List.mem_cons_of_mem _ inMiddle, matches'⟩
  rcases found with ⟨item, inMiddle, matches'⟩
  exact ⟨item, perm.mem_iff.mpr inMiddle, matches'⟩

theorem exists_iff (pairs : PermBy related left right) {holds : α → Prop} {holds' : β → Prop}
    (same : ∀ item other, related item other → (holds item ↔ holds' other)) :
    (∃ item ∈ left, holds item) ↔ ∃ other ∈ right, holds' other := by
  constructor
  · rintro ⟨item, member, here⟩
    rcases pairs.exists_right member with ⟨other, inRight, matches'⟩
    exact ⟨other, inRight, (same item other matches').mp here⟩
  · rintro ⟨other, member, here⟩
    rcases pairs.exists_left member with ⟨item, inLeft, matches'⟩
    exact ⟨item, inLeft, (same item other matches').mpr here⟩

/-- What holds of all items of the one list holds of all of the other if each pair hands it on. -/
theorem forall_right (pairs : PermBy related left right) {holds : α → Prop} {holds' : β → Prop}
    (every : ∀ item ∈ left, holds item)
    (same : ∀ item other, related item other → holds item → holds' other) :
    ∀ other ∈ right, holds' other := by
  intro other member
  rcases pairs.exists_left member with ⟨item, inLeft, matches'⟩
  exact same item other matches' (every item inLeft)

theorem flatMap_perm (pairs : PermBy related left right) {f : α → List γ} {g : β → List γ}
    (same : ∀ item other, related item other → (f item).Perm (g other)) :
    (left.flatMap f).Perm (right.flatMap g) := by
  rcases pairs with ⟨middle, perm, matched⟩
  apply (perm.flatMap_right f).trans
  clear perm
  induction matched with
  | nil => exact List.Perm.nil
  | cons here later ih =>
      rw [List.flatMap_cons, List.flatMap_cons]
      exact (same _ _ here).append ih

theorem map_perm (pairs : PermBy related left right) {f : α → γ} {g : β → γ}
    (same : ∀ item other, related item other → f item = g other) :
    (left.map f).Perm (right.map g) := by
  rcases pairs with ⟨middle, perm, matched⟩
  rw [← map_eq_of_forall₂ matched same]
  exact perm.map f

theorem filter (pairs : PermBy related left right) {p : α → Bool} {q : β → Bool}
    (same : ∀ item other, related item other → p item = q other) :
    PermBy related (left.filter p) (right.filter q) := by
  rcases pairs with ⟨middle, perm, matched⟩
  refine ⟨middle.filter p, perm.filter p, ?_⟩
  clear perm
  induction matched with
  | nil => exact .nil
  | @cons item other middle right here later ih =>
      cases selects : q other with
      | true =>
          rw [List.filter_cons_of_pos ((same _ _ here).trans selects),
            List.filter_cons_of_pos selects]
          exact .cons here ih
      | false =>
          rw [List.filter_cons_of_neg (by simp [same _ _ here, selects]),
            List.filter_cons_of_neg (by simp [selects])]
          exact ih

/-- Related lists stay related in whatever order they are put. -/
theorem of_perm (pairs : PermBy related left right) {left' : List α} {right' : List β}
    (permLeft : left'.Perm left) (permRight : right.Perm right') : PermBy related left' right' := by
  rcases pairs with ⟨middle, perm, matched⟩
  have moved : Relation.Comp (List.Forall₂ related) List.Perm middle right' :=
    ⟨right, matched, permRight⟩
  rw [List.forall₂_comp_perm_eq_perm_comp_forall₂] at moved
  rcases moved with ⟨last, permMiddle, matchedLast⟩
  exact ⟨last, permLeft.trans (perm.trans permMiddle), matchedLast⟩

/-- Sorting by keys that are shared by related items, and by no two items of a list, pairs the
items off. -/
theorem sortBy_forall₂ {κ : Type*} [LinearOrder κ] {compare : α → α → Int} {compare' : β → β → Int}
    {key : α → κ} {key' : β → κ} (compares : Text.ComparesBy compare key)
    (compares' : Text.ComparesBy compare' key') (pairs : PermBy related left right)
    (sameKey : ∀ item other, related item other → key item = key' other)
    (distinct : (left.map key).Nodup) :
    List.Forall₂ related (Text.sortBy compare left) (Text.sortBy compare' right) := by
  rcases pairs.of_perm (Text.sortBy_perm compare left) (Text.sortBy_perm compare' right).symm with
    ⟨middle, perm, matched⟩
  have keys := map_eq_of_forall₂ matched sameKey
  have sortedMiddle : middle.Pairwise fun a b => key a ≤ key b := by
    apply List.pairwise_map.mp
    rw [keys, List.pairwise_map]
    exact compares'.pairwise_sortBy right
  have same : Text.sortBy compare left = middle := by
    apply List.Perm.eq_of_pairwise _ (compares.pairwise_sortBy left) sortedMiddle perm
    intro a b inSorted inMiddle lower upper
    apply List.inj_on_of_nodup_map distinct ((Text.mem_sortBy _ _ _).mp inSorted)
      ((Text.mem_sortBy _ _ _).mp (perm.mem_iff.mpr inMiddle)) (le_antisymm lower upper)
  rw [same]
  exact matched

/-- Where what an item writes first is written by no later item, equal texts are written by
items that are paired off in their order. -/
theorem forall₂_of_flatMap_eq (pairs : PermBy related left right) {f : α → List γ}
    {g : β → List γ}
    (sameLength : ∀ item other, related item other → (f item).length = (g other).length)
    (leads : ∀ item other, related item other → ∀ first ∈ (g other).head?, first ∈ f item)
    (writes : ∀ item ∈ left, f item ≠ [])
    (apart : left.Pairwise fun item later => ∀ first ∈ (f item).head?, first ∉ f later)
    (same : left.flatMap f = right.flatMap g) : List.Forall₂ related left right := by
  rcases pairs with ⟨middle, perm, matched⟩
  induction matched generalizing left with
  | nil =>
      rw [perm.eq_nil]
      exact .nil
  | @cons partner other middle right here later ih =>
      cases left with
      | nil => exact absurd perm.symm.eq_nil (List.cons_ne_nil _ _)
      | cons item left =>
          rw [List.pairwise_cons] at apart
          rw [List.flatMap_cons, List.flatMap_cons] at same
          have member : partner ∈ item :: left := perm.mem_iff.mpr List.mem_cons_self
          have isItem : partner = item := by
            cases written : f item with
            | nil => exact absurd written (writes item List.mem_cons_self)
            | cons first rest =>
                cases written' : g other with
                | nil =>
                    have nothing := sameLength partner other here
                    rw [written', List.length_nil, List.length_eq_zero_iff] at nothing
                    exact absurd nothing (writes partner member)
                | cons first' rest' =>
                    rw [written, written', List.cons_append, List.cons_append,
                      List.cons.injEq] at same
                    rcases List.mem_cons.mp member with isItem | inLeft
                    · exact isItem
                    · have alsoThere := leads partner other here first' (by rw [written']; rfl)
                      rw [← same.1] at alsoThere
                      exact absurd alsoThere (apart.1 partner inLeft first (by rw [written]; rfl))
          subst isItem
          have sameRest := (List.append_inj same (sameLength partner other here)).2
          apply List.Forall₂.cons here
          exact ih (fun item inLeft => writes item (List.mem_cons_of_mem _ inLeft)) apart.2
            sameRest perm.cons_inv

end PermBy

end Foundation
