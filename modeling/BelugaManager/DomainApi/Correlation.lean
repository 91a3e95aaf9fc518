import BelugaManager.Foundation.CodeUnits
import BelugaManager.Foundation.OrderedMap
import Mathlib.Data.Rat.Defs

/-!
# Correlation of entities

Entities of several services are linked by rules: a label on one side declares the other
side by name, and without a label two entities with the same key are guessed to belong
together.  How strings are put in lower case is a parameter.
-/

namespace BelugaManager.DomainApi

open Foundation Foundation.JsString

inductive CorrelationEntityKind where
  | kafkaTopic
  | flinkJob
  | icebergTable
  | trinoCatalog
  | airflowDag
  deriving DecidableEq, Repr

inductive CorrelationRelation where
  | topicFeedsJob
  | jobWritesTable
  | tableServedByCatalog
  | dagTriggersJob
  deriving DecidableEq, Repr

def CorrelationRelation.text : CorrelationRelation → String
  | .topicFeedsJob => "topic-feeds-job"
  | .jobWritesTable => "job-writes-table"
  | .tableServedByCatalog => "table-served-by-catalog"
  | .dagTriggersJob => "dag-triggers-job"

inductive CorrelationMethod where
  | declaredLabel
  | nameConvention
  | ambiguousNameConvention
  deriving DecidableEq, Repr

structure CorrelationEntity where
  kind : CorrelationEntityKind
  id : JsString
  name : JsString
  labels : OrderedMap JsString JsString

structure CorrelationEntityRef where
  kind : CorrelationEntityKind
  id : JsString
  deriving DecidableEq, Repr

structure CorrelationLink where
  id : JsString
  source : CorrelationEntityRef
  target : CorrelationEntityRef
  relation : CorrelationRelation
  confidence : ℚ
  method : CorrelationMethod
  evidence : List JsString
  deriving DecidableEq, Repr

inductive Side where
  | source
  | target
  deriving DecidableEq, Repr

/-- What belongs to the side. -/
def Side.pick {α : Type} (side : Side) (source target : α) : α :=
  if side = .source then source else target

structure Rule where
  relation : CorrelationRelation
  sourceKind : CorrelationEntityKind
  targetKind : CorrelationEntityKind
  declaredOn : Side
  labelKey : JsString
  key : CorrelationEntity → JsString

def DECLARED_CONFIDENCE : ℚ := 95 / 100

def NAME_CONVENTION_CONFIDENCE : ℚ := 6 / 10

def AMBIGUOUS_CONFIDENCE : ℚ := 3 / 10

def GENERIC_TOKENS : List JsString :=
  ["dag", "job", "sync", "cdc", "daily", "report", "v1", "v2", "prod", "production", "dev", "test",
    "stg", "stage", "staging", "raw", "tmp", "temp", "default", "main", "new", "old",
    "data"].map ofString

/-- The units between tokens. -/
def isTokenSeparator (unit : UInt16) : Bool :=
  unit = ofChar '-' || unit = ofChar '_' || unit = ofChar '.'

section Rules

variable (toLowerCase : JsString → JsString)

def tokens (name : JsString) : List JsString :=
  ((toLowerCase name).splitOnP isTokenSeparator).filter (0 < ·.length)

def firstSignificantToken (name : JsString) : JsString :=
  ((tokens toLowerCase name).find? (· ∉ GENERIC_TOKENS)).getD []

def lastSegmentKey (name : JsString) : JsString :=
  firstSignificantToken toLowerCase
    ((split (ofChar '.') (toLowerCase name)).getLast?.getD [])

def RULES : List Rule :=
  [{ relation := .topicFeedsJob
     sourceKind := .kafkaTopic
     targetKind := .flinkJob
     declaredOn := .target
     labelKey := ofString "beluga.io/source-topic"
     key := fun entity => firstSignificantToken toLowerCase entity.name },
   { relation := .jobWritesTable
     sourceKind := .flinkJob
     targetKind := .icebergTable
     declaredOn := .source
     labelKey := ofString "beluga.io/sink-table"
     key := fun entity =>
       if entity.kind = .icebergTable then lastSegmentKey toLowerCase entity.name
       else firstSignificantToken toLowerCase entity.name },
   { relation := .tableServedByCatalog
     sourceKind := .icebergTable
     targetKind := .trinoCatalog
     declaredOn := .source
     labelKey := ofString "beluga.io/trino-catalog"
     key := fun entity => firstSignificantToken toLowerCase
       (if entity.kind = .icebergTable then (split (ofChar '.') entity.name).head?.getD []
        else entity.name) },
   { relation := .dagTriggersJob
     sourceKind := .airflowDag
     targetKind := .flinkJob
     declaredOn := .source
     labelKey := ofString "beluga.io/triggers-job"
     key := fun entity => firstSignificantToken toLowerCase entity.name }]

end Rules

def CorrelationEntity.ref (entity : CorrelationEntity) : CorrelationEntityRef :=
  ⟨entity.kind, entity.id⟩

def link (rule : Rule) (source target : CorrelationEntity) (confidence : ℚ)
    (method : CorrelationMethod) (evidence : JsString) : CorrelationLink where
  id := ofString rule.relation.text ++ ofString ":" ++ source.id ++ ofString "->" ++ target.id
  source := source.ref
  target := target.ref
  relation := rule.relation
  confidence := confidence
  method := method
  evidence := [evidence]

def byCodePoint : JsString → JsString → Int := Text.threeWay JsString.Before

section Correlate

variable (toLowerCase : JsString → JsString)

/-- The link of an owner to the entity its label names. -/
def declaredLink (rule : Rule) (owner other : CorrelationEntity) (declared : JsString) :
    CorrelationLink :=
  link rule (rule.declaredOn.pick owner other) (rule.declaredOn.pick other owner)
    DECLARED_CONFIDENCE .declaredLabel
    (ofString "label " ++ rule.labelKey ++ ofString "=" ++ declared)

/-- An owner is linked if its label names a single entity. -/
def ownerLink (rule : Rule) (named : List CorrelationEntity) (owner : CorrelationEntity) :
    Option CorrelationLink :=
  (owner.labels.get? rule.labelKey).bind fun declared =>
    match named.filter fun entity => toLowerCase entity.name = toLowerCase declared with
    | [other] => some (declaredLink rule owner other declared)
    | _ => none

def declaredLinks (rule : Rule) (sources targets : List CorrelationEntity) :
    List CorrelationLink :=
  (rule.declaredOn.pick sources targets).filterMap
    (ownerLink toLowerCase rule (rule.declaredOn.pick targets sources))

/-- The ids of the entities that carry the label. -/
def declaredIds (rule : Rule) (sources targets : List CorrelationEntity) : List JsString :=
  (rule.declaredOn.pick sources targets).filterMap fun owner =>
    (owner.labels.get? rule.labelKey).map fun _ => owner.id

def eligibleSources (rule : Rule) (sources targets : List CorrelationEntity) :
    List CorrelationEntity :=
  sources.filter fun source =>
    !(rule.declaredOn = .source && source.id ∈ declaredIds rule sources targets)

def eligibleTargets (rule : Rule) (sources targets : List CorrelationEntity) :
    List CorrelationEntity :=
  targets.filter fun target =>
    !(rule.declaredOn = .target && target.id ∈ declaredIds rule sources targets)

/-- The pairs with a common key. -/
def keyPairs (rule : Rule) (sources targets : List CorrelationEntity) :
    List (CorrelationEntity × CorrelationEntity × JsString) :=
  (eligibleSources rule sources targets).flatMap fun source =>
    if rule.key source = [] then []
    else ((eligibleTargets rule sources targets).filter fun target =>
        rule.key target = rule.key source).map fun target => (source, target, rule.key source)

def conventionLink (rule : Rule) (source target : CorrelationEntity) (key : JsString)
    (ambiguous : Bool) : CorrelationLink :=
  link rule source target
    (if ambiguous then AMBIGUOUS_CONFIDENCE else NAME_CONVENTION_CONFIDENCE)
    (if ambiguous then .ambiguousNameConvention else .nameConvention)
    (ofString "name key '" ++ key ++ ofString "' shared by " ++ source.name ++ ofString " and " ++
      target.name)

/-- The link of a pair, by how often its ends occur in pairs. -/
def guessedLink (rule : Rule) (perSource perTarget : OrderedMap JsString Nat) :
    CorrelationEntity × CorrelationEntity × JsString → CorrelationLink
  | (source, target, key) => conventionLink rule source target key
      (1 < (perSource.get? source.id).getD 0 || 1 < (perTarget.get? target.id).getD 0)

def guessedLinks (rule : Rule) (sources targets : List CorrelationEntity) :
    List CorrelationLink :=
  let pairs := keyPairs rule sources targets
  let perSource := OrderedMap.tally (pairs.map fun pair => pair.1.id)
  let perTarget := OrderedMap.tally (pairs.map fun pair => pair.2.1.id)
  pairs.map (guessedLink rule perSource perTarget)

def ofKind (kind : CorrelationEntityKind) (sorted : List CorrelationEntity) :
    List CorrelationEntity := sorted.filter (·.kind = kind)

def ruleLinks (sorted : List CorrelationEntity) (rule : Rule) : List CorrelationLink :=
  let sources := ofKind rule.sourceKind sorted
  let targets := ofKind rule.targetKind sorted
  declaredLinks toLowerCase rule sources targets ++ guessedLinks rule sources targets

def sortById (entities : List CorrelationEntity) : List CorrelationEntity :=
  Text.sortBy (fun a b => byCodePoint a.id b.id) entities

def correlate (entities : List CorrelationEntity) : List CorrelationLink :=
  Text.sortBy (fun a b => byCodePoint a.id b.id)
    ((RULES toLowerCase).flatMap (ruleLinks toLowerCase (sortById entities)))

end Correlate

/-! ## Which links there are to be -/

/-- The ids of the entities of one kind are distinct. -/
def DistinctIds (entities : List CorrelationEntity) : Prop :=
  entities.Pairwise fun a b => a.kind = b.kind → a.id ≠ b.id

instance (entities : List CorrelationEntity) : Decidable (DistinctIds entities) :=
  inferInstanceAs (Decidable (entities.Pairwise fun a b => a.kind = b.kind → a.id ≠ b.id))

def Rule.declaringKind (rule : Rule) : CorrelationEntityKind :=
  rule.declaredOn.pick rule.sourceKind rule.targetKind

def Rule.namedKind (rule : Rule) : CorrelationEntityKind :=
  rule.declaredOn.pick rule.targetKind rule.sourceKind

/-- The entity is the one of its kind whose name is the label. -/
structure NamedBy (toLowerCase : JsString → JsString) (entities : List CorrelationEntity)
    (kind : CorrelationEntityKind) (label : JsString) (entity : CorrelationEntity) : Prop where
  listed : entity ∈ entities
  isKind : entity.kind = kind
  name : toLowerCase entity.name = toLowerCase label
  single : ∀ other ∈ entities, other.kind = kind →
    toLowerCase other.name = toLowerCase label → other = entity

/-- A link by a label. -/
def Declared (toLowerCase : JsString → JsString) (entities : List CorrelationEntity) (rule : Rule)
    (found : CorrelationLink) : Prop :=
  ∃ owner ∈ entities, owner.kind = rule.declaringKind ∧
    ∃ label, owner.labels.get? rule.labelKey = some label ∧
      ∃ other, NamedBy toLowerCase entities rule.namedKind label other ∧
        found = declaredLink rule owner other label

/-- Two entities share a key, and no label speaks against it. -/
structure Pair (entities : List CorrelationEntity) (rule : Rule)
    (source target : CorrelationEntity) : Prop where
  sourceListed : source ∈ entities
  targetListed : target ∈ entities
  sourceKind : source.kind = rule.sourceKind
  targetKind : target.kind = rule.targetKind
  keys : rule.key target = rule.key source
  someKey : rule.key source ≠ []
  unlabelled : (rule.declaredOn.pick source target).labels.get? rule.labelKey = none

/-- Neither end occurs in another pair. -/
def Alone (entities : List CorrelationEntity) (rule : Rule)
    (source target : CorrelationEntity) : Prop :=
  ∀ otherSource otherTarget, Pair entities rule otherSource otherTarget →
    otherSource = source ∨ otherTarget = target → otherSource = source ∧ otherTarget = target

def keyEvidence (rule : Rule) (source target : CorrelationEntity) : JsString :=
  ofString "name key '" ++ rule.key source ++ ofString "' shared by " ++ source.name ++
    ofString " and " ++ target.name

/-- A link by a key. -/
def Guessed (entities : List CorrelationEntity) (rule : Rule) (found : CorrelationLink) : Prop :=
  ∃ source target, Pair entities rule source target ∧
    (Alone entities rule source target ∧ found = link rule source target
        NAME_CONVENTION_CONFIDENCE .nameConvention (keyEvidence rule source target) ∨
      ¬Alone entities rule source target ∧ found = link rule source target
        AMBIGUOUS_CONFIDENCE .ambiguousNameConvention (keyEvidence rule source target))

theorem DistinctIds.nodup_refs {entities : List CorrelationEntity}
    (distinct : DistinctIds entities) : (entities.map CorrelationEntity.ref).Nodup := by
  rw [List.Nodup, List.pairwise_map]
  apply List.Pairwise.imp _ distinct
  intro a b apart same
  exact apart (congrArg CorrelationEntityRef.kind same) (congrArg CorrelationEntityRef.id same)

theorem DistinctIds.nodup {entities : List CorrelationEntity} (distinct : DistinctIds entities) :
    entities.Nodup := distinct.nodup_refs.of_map

theorem DistinctIds.eq_of_ref_eq {entities : List CorrelationEntity}
    (distinct : DistinctIds entities) {a b : CorrelationEntity} (inFirst : a ∈ entities)
    (inSecond : b ∈ entities) (same : a.ref = b.ref) : a = b :=
  List.inj_on_of_nodup_map distinct.nodup_refs inFirst inSecond same

theorem DistinctIds.eq_of_id_eq {entities : List CorrelationEntity}
    (distinct : DistinctIds entities)
    {a b : CorrelationEntity} (inFirst : a ∈ entities) (inSecond : b ∈ entities)
    (kind : a.kind = b.kind) (id : a.id = b.id) : a = b :=
  distinct.eq_of_ref_eq inFirst inSecond (by rw [CorrelationEntity.ref, kind, id]; rfl)

theorem comparesBy_byCodePoint : Text.ComparesBy byCodePoint toNats :=
  @Text.comparesBy_threeWay _ _ _ JsString.Before _ toNats fun _ _ => Iff.rfl

theorem comparesBy_id : Text.ComparesBy
    (fun a b : CorrelationEntity => byCodePoint a.id b.id) fun entity => toNats entity.id :=
  fun a b => comparesBy_byCodePoint a.id b.id

theorem comparesBy_linkId : Text.ComparesBy
    (fun a b : CorrelationLink => byCodePoint a.id b.id) fun found => toNats found.id :=
  fun a b => comparesBy_byCodePoint a.id b.id

@[simp] theorem mem_ofKind_sortById {entities : List CorrelationEntity}
    {kind : CorrelationEntityKind} {entity : CorrelationEntity} :
    entity ∈ ofKind kind (sortById entities) ↔ entity ∈ entities ∧ entity.kind = kind := by
  rw [ofKind, List.mem_filter, sortById, Text.mem_sortBy, decide_eq_true_eq]

theorem nodup_ofKind_sortById {entities : List CorrelationEntity} (distinct : DistinctIds entities)
    (kind : CorrelationEntityKind) : (ofKind kind (sortById entities)).Nodup :=
  ((Text.sortBy_perm _ entities).nodup_iff.mpr distinct.nodup).filter _

/-- The entities of a kind come in the same order however the input is ordered. -/
theorem ofKind_sortById_eq_of_perm {entities others : List CorrelationEntity}
    (distinct : DistinctIds entities) (perm : entities.Perm others) (kind : CorrelationEntityKind) :
    ofKind kind (sortById entities) = ofKind kind (sortById others) := by
  apply comparesBy_id.filter_sortBy_eq_of_perm _ _ perm
  intro a inFirst b inSecond isKind alsoKind sameKey
  rw [decide_eq_true_eq] at isKind alsoKind
  exact distinct.eq_of_id_eq inFirst inSecond (isKind.trans alsoKind.symm)
    (toNats_injective sameKey)

theorem pick_ofKind (side : Side) (first second : CorrelationEntityKind)
    (sorted : List CorrelationEntity) :
    side.pick (ofKind first sorted) (ofKind second sorted) =
      ofKind (side.pick first second) sorted := by
  cases side <;> rfl

section Links

variable {toLowerCase : JsString → JsString} {entities : List CorrelationEntity} {rule : Rule}

theorem filter_eq_singleton_iff {α : Type} {items : List α} (nodup : items.Nodup) {test : α → Bool}
    {item : α} : items.filter test = [item] ↔
      item ∈ items ∧ test item = true ∧ ∀ other ∈ items, test other = true → other = item := by
  constructor
  · intro single
    have passes : ∀ other, other ∈ items ∧ test other = true ↔ other = item := by
      intro other
      rw [← List.mem_filter, single, List.mem_singleton]
    have isItem := (passes item).mpr rfl
    exact ⟨isItem.1, isItem.2, fun other listed passed => (passes other).mp ⟨listed, passed⟩⟩
  · intro ⟨listed, passed, single⟩
    apply List.perm_singleton.mp
    apply (List.perm_ext_iff_of_nodup (nodup.filter test) (List.nodup_singleton item)).mpr
    intro other
    rw [List.mem_filter, List.mem_singleton]
    constructor
    · exact fun both => single other both.1 both.2
    · intro same
      rw [same]
      exact ⟨listed, passed⟩

theorem filter_named_eq_singleton_iff (distinct : DistinctIds entities)
    {kind : CorrelationEntityKind} {label : JsString} {other : CorrelationEntity} :
    (ofKind kind (sortById entities)).filter
        (fun entity => toLowerCase entity.name = toLowerCase label) = [other] ↔
      NamedBy toLowerCase entities kind label other := by
  rw [filter_eq_singleton_iff (nodup_ofKind_sortById distinct kind)]
  simp only [mem_ofKind_sortById, decide_eq_true_eq]
  constructor
  · intro ⟨⟨listed, isKind⟩, name, single⟩
    exact ⟨listed, isKind, name, fun e inList ofKind same => single e ⟨inList, ofKind⟩ same⟩
  · intro named
    exact ⟨⟨named.listed, named.isKind⟩, named.name,
      fun e both same => named.single e both.1 both.2 same⟩

theorem ownerLink_eq_some_iff {named : List CorrelationEntity} {owner : CorrelationEntity}
    {found : CorrelationLink} : ownerLink toLowerCase rule named owner = some found ↔
      ∃ label, owner.labels.get? rule.labelKey = some label ∧
        ∃ other, named.filter (fun entity => toLowerCase entity.name = toLowerCase label) =
          [other] ∧
          found = declaredLink rule owner other label := by
  rw [ownerLink, Option.bind_eq_some_iff]
  apply exists_congr
  intro label
  apply and_congr_right
  intro _
  cases named.filter (fun entity => toLowerCase entity.name = toLowerCase label) with
  | nil => simp
  | cons other rest =>
      cases rest with
      | nil => simp [eq_comm]
      | cons second rest => simp

theorem mem_declaredLinks_iff (distinct : DistinctIds entities) {found : CorrelationLink} :
    found ∈ declaredLinks toLowerCase rule (ofKind rule.sourceKind (sortById entities))
        (ofKind rule.targetKind (sortById entities)) ↔
      Declared toLowerCase entities rule found := by
  rw [declaredLinks, pick_ofKind, pick_ofKind, List.mem_filterMap]
  simp only [mem_ofKind_sortById, ownerLink_eq_some_iff, filter_named_eq_singleton_iff distinct,
    and_assoc]
  rfl

/-! ## Links by keys -/

theorem mem_declaredIds_iff (distinct : DistinctIds entities) {owner : CorrelationEntity}
    (listed : owner ∈ entities) (declaring : owner.kind = rule.declaringKind) :
    owner.id ∈ declaredIds rule (ofKind rule.sourceKind (sortById entities))
        (ofKind rule.targetKind (sortById entities)) ↔
      owner.labels.get? rule.labelKey ≠ none := by
  rw [declaredIds, pick_ofKind, List.mem_filterMap]
  simp only [mem_ofKind_sortById, Option.map_eq_some_iff, Option.ne_none_iff_exists']
  constructor
  · intro declared
    rcases declared with ⟨other, ⟨inList, isKind⟩, label, carries, sameId⟩
    rw [distinct.eq_of_id_eq listed inList (declaring.trans isKind.symm) sameId.symm]
    exact ⟨label, carries⟩
  · intro labelled
    rcases labelled with ⟨label, carries⟩
    exact ⟨owner, ⟨listed, declaring⟩, label, carries, rfl⟩

theorem mem_eligibleSources_iff (distinct : DistinctIds entities) {source : CorrelationEntity} :
    source ∈ eligibleSources rule (ofKind rule.sourceKind (sortById entities))
        (ofKind rule.targetKind (sortById entities)) ↔
      source ∈ entities ∧ source.kind = rule.sourceKind ∧
        (rule.declaredOn = .source → source.labels.get? rule.labelKey = none) := by
  rw [eligibleSources, List.mem_filter, mem_ofKind_sortById, and_assoc]
  apply and_congr_right
  intro listed
  apply and_congr_right
  intro isKind
  rw [Bool.not_eq_true', Bool.and_eq_false_imp, decide_eq_true_eq]
  apply imp_congr_right
  intro side
  rw [decide_eq_false_iff_not,
    mem_declaredIds_iff distinct listed (by rw [isKind, Rule.declaringKind, side]; rfl), not_ne_iff]

theorem mem_eligibleTargets_iff (distinct : DistinctIds entities) {target : CorrelationEntity} :
    target ∈ eligibleTargets rule (ofKind rule.sourceKind (sortById entities))
        (ofKind rule.targetKind (sortById entities)) ↔
      target ∈ entities ∧ target.kind = rule.targetKind ∧
        (rule.declaredOn = .target → target.labels.get? rule.labelKey = none) := by
  rw [eligibleTargets, List.mem_filter, mem_ofKind_sortById, and_assoc]
  apply and_congr_right
  intro listed
  apply and_congr_right
  intro isKind
  rw [Bool.not_eq_true', Bool.and_eq_false_imp, decide_eq_true_eq]
  apply imp_congr_right
  intro side
  rw [decide_eq_false_iff_not,
    mem_declaredIds_iff distinct listed (by rw [isKind, Rule.declaringKind, side]; rfl), not_ne_iff]

theorem pick_unlabelled_iff {source target : CorrelationEntity} :
    (rule.declaredOn.pick source target).labels.get? rule.labelKey = none ↔
      (rule.declaredOn = .source → source.labels.get? rule.labelKey = none) ∧
        (rule.declaredOn = .target → target.labels.get? rule.labelKey = none) := by
  cases side : rule.declaredOn with
  | source => simp [Side.pick]
  | target => simp [Side.pick]

theorem mem_keyPairs_iff (distinct : DistinctIds entities) {source target : CorrelationEntity}
    {key : JsString} :
    (source, target, key) ∈ keyPairs rule (ofKind rule.sourceKind (sortById entities))
        (ofKind rule.targetKind (sortById entities)) ↔
      Pair entities rule source target ∧ key = rule.key source := by
  rw [keyPairs, List.mem_flatMap]
  constructor
  · intro ⟨first, eligible, member⟩
    split_ifs at member with empty
    · exact absurd member List.not_mem_nil
    · rcases List.mem_map.mp member with ⟨second, selected, same⟩
      rcases List.mem_filter.mp selected with ⟨eligibleToo, sameKey⟩
      cases same
      rcases (mem_eligibleSources_iff distinct).mp eligible with ⟨inList, isKind, free⟩
      rcases (mem_eligibleTargets_iff distinct).mp eligibleToo with ⟨alsoIn, isKindToo, freeToo⟩
      exact ⟨⟨inList, alsoIn, isKind, isKindToo, of_decide_eq_true sameKey, empty,
        pick_unlabelled_iff.mpr ⟨free, freeToo⟩⟩, rfl⟩
  · intro ⟨pair, isKey⟩
    rcases pick_unlabelled_iff.mp pair.unlabelled with ⟨free, freeToo⟩
    refine ⟨source, (mem_eligibleSources_iff distinct).mpr
      ⟨pair.sourceListed, pair.sourceKind, free⟩, ?_⟩
    rw [if_neg pair.someKey, isKey]
    apply List.mem_map_of_mem
    rw [List.mem_filter]
    exact ⟨(mem_eligibleTargets_iff distinct).mpr ⟨pair.targetListed, pair.targetKind, freeToo⟩,
      decide_eq_true pair.keys⟩

theorem nodup_keyPairs (distinct : DistinctIds entities) :
    (keyPairs rule (ofKind rule.sourceKind (sortById entities))
      (ofKind rule.targetKind (sortById entities))).Nodup := by
  rw [keyPairs, List.nodup_flatMap]
  constructor
  · intro source _
    split_ifs
    · exact List.nodup_nil
    · apply List.Nodup.map
      · exact fun first second same => congrArg (fun triple => triple.2.1) same
      · exact ((nodup_ofKind_sortById distinct _).filter _).filter _
  · apply List.Pairwise.imp _ ((nodup_ofKind_sortById distinct rule.sourceKind).filter _)
    intro first second differ triple inFirst inSecond
    have starts : ∀ source : CorrelationEntity, triple ∈ (if rule.key source = [] then [] else
        ((eligibleTargets rule (ofKind rule.sourceKind (sortById entities))
          (ofKind rule.targetKind (sortById entities))).filter
            fun target => rule.key target = rule.key source).map
              fun target => (source, target, rule.key source)) → triple.1 = source := by
      intro source member
      split_ifs at member
      · exact absurd member List.not_mem_nil
      · rcases List.mem_map.mp member with ⟨_, _, rfl⟩
        rfl
    exact differ ((starts first inFirst).symm.trans (starts second inSecond))

/-- An image is met more than once where another item has it. -/
theorem one_lt_tally_map_iff {α β : Type} [DecidableEq β] {items : List α} (nodup : items.Nodup)
    {image : α → β} {item : α} (member : item ∈ items) :
    1 < ((OrderedMap.tally (items.map image)).get? (image item)).getD 0 ↔
      ∃ other ∈ items, image other = image item ∧ other ≠ item := by
  rw [OrderedMap.get?_tally, List.count_eq_length_filter, List.filter_map, List.length_map]
  have selected : ∀ other, other ∈ items.filter ((· == image item) ∘ image) ↔
      other ∈ items ∧ image other = image item := by
    intro other
    rw [List.mem_filter, Function.comp_apply, beq_iff_eq]
  constructor
  · intro several
    by_contra none
    have alone : items.filter ((· == image item) ∘ image) = [item] := by
      apply (filter_eq_singleton_iff nodup).mpr
      refine ⟨member, beq_self_eq_true _, fun other listed same => ?_⟩
      by_contra differ
      exact none ⟨other, listed, beq_iff_eq.mp same, differ⟩
    rw [alone] at several
    exact absurd several (lt_irrefl 1)
  · intro ⟨other, listed, same, differ⟩
    have both : [item, other] ⊆ items.filter ((· == image item) ∘ image) := by
      intro one isOne
      rcases List.mem_cons.mp isOne with rfl | isOther
      · exact (selected one).mpr ⟨member, rfl⟩
      · rw [List.mem_singleton.mp isOther]
        exact (selected other).mpr ⟨listed, same⟩
    have two : [item, other].Nodup := by simpa using differ.symm
    exact (List.subperm_of_subset two both).length_le

/-- The counts say whether a pair stands alone. -/
theorem ambiguous_iff (distinct : DistinctIds entities) {source target : CorrelationEntity}
    (pair : Pair entities rule source target)
    {pairs : List (CorrelationEntity × CorrelationEntity × JsString)} (nodup : pairs.Nodup)
    (members : ∀ s t key, (s, t, key) ∈ pairs ↔ Pair entities rule s t ∧ key = rule.key s) :
    (1 < ((OrderedMap.tally (pairs.map fun pair => pair.1.id)).get? source.id).getD 0 ∨
        1 < ((OrderedMap.tally (pairs.map fun pair => pair.2.1.id)).get? target.id).getD 0) ↔
      ¬Alone entities rule source target := by
  have member := (members source target _).mpr ⟨pair, rfl⟩
  have bySource := @one_lt_tally_map_iff _ _ _ pairs nodup (fun pair => pair.1.id) _ member
  have byTarget := @one_lt_tally_map_iff _ _ _ pairs nodup (fun pair => pair.2.1.id) _ member
  apply (or_congr bySource byTarget).trans
  constructor
  · intro several alone
    rcases several with
      ⟨⟨s, t, key⟩, listed, sameId, differ⟩ | ⟨⟨s, t, key⟩, listed, sameId, differ⟩
    · rcases (members s t key).mp listed with ⟨other, rfl⟩
      have same := distinct.eq_of_id_eq other.sourceListed pair.sourceListed
        (other.sourceKind.trans pair.sourceKind.symm) sameId
      rcases alone s t other (Or.inl same) with ⟨rfl, rfl⟩
      exact differ rfl
    · rcases (members s t key).mp listed with ⟨other, rfl⟩
      have same := distinct.eq_of_id_eq other.targetListed pair.targetListed
        (other.targetKind.trans pair.targetKind.symm) sameId
      rcases alone s t other (Or.inr same) with ⟨rfl, rfl⟩
      exact differ rfl
  · intro shared
    simp only [Alone, not_forall] at shared
    rcases shared with ⟨s, t, other, shares, differ⟩
    have listed := (members s t _).mpr ⟨other, rfl⟩
    have apart : (s, t, rule.key s) ≠ (source, target, rule.key source) := by
      intro same
      cases same
      exact differ ⟨rfl, rfl⟩
    rcases shares with rfl | rfl
    · exact Or.inl ⟨_, listed, rfl, apart⟩
    · exact Or.inr ⟨_, listed, rfl, apart⟩

theorem mem_guessedLinks_iff (distinct : DistinctIds entities) {found : CorrelationLink} :
    found ∈ guessedLinks rule (ofKind rule.sourceKind (sortById entities))
        (ofKind rule.targetKind (sortById entities)) ↔
      Guessed entities rule found := by
  have members := fun s t key => @mem_keyPairs_iff entities rule distinct s t key
  have nodup := @nodup_keyPairs entities rule distinct
  rw [guessedLinks, List.mem_map]
  constructor
  · intro ⟨⟨source, target, key⟩, listed, isFound⟩
    rcases (members source target key).mp listed with ⟨pair, rfl⟩
    rw [guessedLink, ← Bool.decide_or] at isFound
    have counts := ambiguous_iff distinct pair nodup members
    refine ⟨source, target, pair, ?_⟩
    by_cases shared : Alone entities rule source target
    · rw [decide_eq_false fun several => counts.mp several shared] at isFound
      exact Or.inl ⟨shared, isFound.symm⟩
    · rw [decide_eq_true (counts.mpr shared)] at isFound
      exact Or.inr ⟨shared, isFound.symm⟩
  · intro ⟨source, target, pair, isFound⟩
    refine ⟨(source, target, rule.key source), (members source target _).mpr ⟨pair, rfl⟩, ?_⟩
    have counts := ambiguous_iff distinct pair nodup members
    rw [guessedLink, ← Bool.decide_or]
    rcases isFound with ⟨alone, rfl⟩ | ⟨shared, rfl⟩
    · rw [decide_eq_false fun several => counts.mp several alone]
      rfl
    · rw [decide_eq_true (counts.mpr shared)]
      rfl

/-! ## All links -/

theorem mem_ruleLinks_iff (distinct : DistinctIds entities) {found : CorrelationLink} :
    found ∈ ruleLinks toLowerCase (sortById entities) rule ↔
      Declared toLowerCase entities rule found ∨ Guessed entities rule found := by
  rw [ruleLinks, List.mem_append, mem_declaredLinks_iff distinct, mem_guessedLinks_iff distinct]

theorem mem_correlate_iff (distinct : DistinctIds entities) {found : CorrelationLink} :
    found ∈ correlate toLowerCase entities ↔ ∃ rule ∈ RULES toLowerCase,
      Declared toLowerCase entities rule found ∨ Guessed entities rule found := by
  rw [correlate, Text.mem_sortBy, List.mem_flatMap]
  apply exists_congr
  intro rule
  rw [mem_ruleLinks_iff distinct]

theorem pick_ref (side : Side) (owner other : CorrelationEntity) :
    side.pick (side.pick owner other).ref (side.pick other owner).ref = owner.ref := by
  cases side <;> rfl

/-- The end on the declaring side. -/
def Rule.declaringEnd (rule : Rule) (found : CorrelationLink) : CorrelationEntityRef :=
  rule.declaredOn.pick found.source found.target

/-- What a link by a label is made of. -/
theorem Declared.spec {found : CorrelationLink}
    (declared : Declared toLowerCase entities rule found) :
    found.relation = rule.relation ∧ found.method = .declaredLabel ∧
      ∃ source ∈ entities, ∃ target ∈ entities, source.kind = rule.sourceKind ∧
        target.kind = rule.targetKind ∧ found.source = source.ref ∧ found.target = target.ref := by
  rcases declared with ⟨owner, listed, isKind, label, _, other, named, rfl⟩
  refine ⟨rfl, rfl, ?_⟩
  have otherKind := named.isKind
  rw [Rule.declaringKind] at isKind
  rw [Rule.namedKind] at otherKind
  rw [declaredLink]
  cases side : rule.declaredOn with
  | source =>
      rw [side] at isKind otherKind
      exact ⟨owner, listed, other, named.listed, isKind, otherKind, rfl, rfl⟩
  | target =>
      rw [side] at isKind otherKind
      exact ⟨other, named.listed, owner, listed, otherKind, isKind, rfl, rfl⟩

/-- What a link by a key is made of. -/
theorem Guessed.spec {found : CorrelationLink} (guessed : Guessed entities rule found) :
    found.relation = rule.relation ∧ found.method ≠ .declaredLabel ∧
      ∃ source target, Pair entities rule source target ∧ found.source = source.ref ∧
        found.target = target.ref := by
  rcases guessed with ⟨source, target, pair, ⟨_, rfl⟩ | ⟨_, rfl⟩⟩
  · exact ⟨rfl, nofun, source, target, pair, rfl, rfl⟩
  · exact ⟨rfl, nofun, source, target, pair, rfl, rfl⟩

theorem ownerLink_declaringEnd {named : List CorrelationEntity} {owner : CorrelationEntity}
    {found : CorrelationLink} (isFound : ownerLink toLowerCase rule named owner = some found) :
    rule.declaringEnd found = owner.ref := by
  rcases ownerLink_eq_some_iff.mp isFound with ⟨label, _, other, _, rfl⟩
  exact pick_ref rule.declaredOn owner other

/-- The declaring end of a link tells whose label it comes from. -/
theorem nodup_declaredLinks (distinct : DistinctIds entities) :
    (declaredLinks toLowerCase rule (ofKind rule.sourceKind (sortById entities))
      (ofKind rule.targetKind (sortById entities))).Nodup := by
  rw [declaredLinks, pick_ofKind, pick_ofKind, List.Nodup, List.pairwise_filterMap]
  apply List.Pairwise.imp_of_mem _ (nodup_ofKind_sortById distinct _)
  intro first second inFirst inSecond differ found isFound other isOther same
  rw [mem_ofKind_sortById] at inFirst inSecond
  apply differ
  apply distinct.eq_of_ref_eq inFirst.1 inSecond.1
  rw [← ownerLink_declaringEnd isFound, same, ownerLink_declaringEnd isOther]

/-- The ends of a link tell which pair it comes from. -/
theorem nodup_guessedLinks (distinct : DistinctIds entities) :
    (guessedLinks rule (ofKind rule.sourceKind (sortById entities))
      (ofKind rule.targetKind (sortById entities))).Nodup := by
  rw [guessedLinks, List.Nodup, List.pairwise_map]
  apply List.Pairwise.imp_of_mem _ (@nodup_keyPairs entities rule distinct)
  intro ⟨source, target, key⟩ ⟨otherSource, otherTarget, otherKey⟩ inFirst inSecond differ same
  rcases (mem_keyPairs_iff distinct).mp inFirst with ⟨pair, rfl⟩
  rcases (mem_keyPairs_iff distinct).mp inSecond with ⟨other, rfl⟩
  have sameSource := distinct.eq_of_ref_eq pair.sourceListed other.sourceListed
    (congrArg CorrelationLink.source same)
  have sameTarget := distinct.eq_of_ref_eq pair.targetListed other.targetListed
    (congrArg CorrelationLink.target same)
  exact differ (by rw [sameSource, sameTarget])

theorem nodup_ruleLinks (distinct : DistinctIds entities) :
    (ruleLinks toLowerCase (sortById entities) rule).Nodup := by
  apply List.Nodup.append (nodup_declaredLinks distinct) (nodup_guessedLinks distinct)
  intro found byLabel byKey
  have declared := (mem_declaredLinks_iff distinct).mp byLabel
  have guessed := (mem_guessedLinks_iff distinct).mp byKey
  exact guessed.spec.2.1 declared.spec.2.1

theorem nodup_relations (toLowerCase : JsString → JsString) :
    ((RULES toLowerCase).map Rule.relation).Nodup := by
  have relations : (RULES toLowerCase).map Rule.relation =
      [.topicFeedsJob, .jobWritesTable, .tableServedByCatalog, .dagTriggersJob] := rfl
  rw [relations]
  decide

/-- A rule is known by its relation. -/
theorem eq_of_relation_eq {first second : Rule} (inFirst : first ∈ RULES toLowerCase)
    (inSecond : second ∈ RULES toLowerCase) (same : first.relation = second.relation) :
    first = second := List.inj_on_of_nodup_map (nodup_relations toLowerCase) inFirst inSecond same

theorem relation_of_mem_ruleLinks (distinct : DistinctIds entities) {found : CorrelationLink}
    (member : found ∈ ruleLinks toLowerCase (sortById entities) rule) :
    found.relation = rule.relation := by
  rcases (mem_ruleLinks_iff distinct).mp member with declared | guessed
  · exact declared.spec.1
  · exact guessed.spec.1

theorem nodup_correlate (distinct : DistinctIds entities) :
    (correlate toLowerCase entities).Nodup := by
  rw [correlate, (Text.sortBy_perm _ _).nodup_iff, List.nodup_flatMap]
  refine ⟨fun rule _ => nodup_ruleLinks distinct, ?_⟩
  have apart := nodup_relations toLowerCase
  rw [List.Nodup, List.pairwise_map] at apart
  apply apart.imp
  intro first second differ found inFirst inSecond
  exact differ ((relation_of_mem_ruleLinks distinct inFirst).symm.trans
    (relation_of_mem_ruleLinks distinct inSecond))

theorem correlate_eq_of_perm (distinct : DistinctIds entities) {others : List CorrelationEntity}
    (perm : entities.Perm others) :
    correlate toLowerCase others = correlate toLowerCase entities := by
  have same :
      ruleLinks toLowerCase (sortById others) = ruleLinks toLowerCase (sortById entities) := by
    funext rule
    rw [ruleLinks, ruleLinks, ofKind_sortById_eq_of_perm distinct perm,
      ofKind_sortById_eq_of_perm distinct perm]
  rw [correlate, correlate, same]

/-- A link whose declaring end carries the label of the rule comes from a label. -/
theorem method_of_labelled (distinct : DistinctIds entities) {owner : CorrelationEntity}
    {found : CorrelationLink} (inRules : rule ∈ RULES toLowerCase) (listed : owner ∈ entities)
    (carries : owner.labels.get? rule.labelKey ≠ none)
    (member : found ∈ correlate toLowerCase entities) (relation : found.relation = rule.relation)
    (declaring : rule.declaringEnd found = owner.ref) : found.method = .declaredLabel := by
  rcases (mem_correlate_iff distinct).mp member with ⟨other, inRulesToo, declared | guessed⟩
  · exact declared.spec.2.1
  · rcases guessed.spec with ⟨sameRelation, _, source, target, pair, isSource, isTarget⟩
    rw [eq_of_relation_eq inRulesToo inRules (sameRelation.symm.trans relation)] at pair
    have unlabelled := pair.unlabelled
    rw [Rule.declaringEnd, isSource, isTarget] at declaring
    cases side : rule.declaredOn with
    | source =>
        rw [side] at declaring unlabelled
        have same := distinct.eq_of_ref_eq pair.sourceListed listed declaring
        exact absurd (same ▸ unlabelled) carries
    | target =>
        rw [side] at declaring unlabelled
        have same := distinct.eq_of_ref_eq pair.targetListed listed declaring
        exact absurd (same ▸ unlabelled) carries

theorem ends_of_mem_correlate (distinct : DistinctIds entities) {found : CorrelationLink}
    (member : found ∈ correlate toLowerCase entities) :
    ∃ rule ∈ RULES toLowerCase, found.relation = rule.relation ∧
      ∃ source ∈ entities, ∃ target ∈ entities, source.kind = rule.sourceKind ∧
        target.kind = rule.targetKind ∧ found.source = source.ref ∧ found.target = target.ref := by
  rcases (mem_correlate_iff distinct).mp member with ⟨rule, inRules, declared | guessed⟩
  · exact ⟨rule, inRules, declared.spec.1, declared.spec.2.2⟩
  · rcases guessed.spec with ⟨relation, _, source, target, pair, isSource, isTarget⟩
    exact ⟨rule, inRules, relation, source, pair.sourceListed, target, pair.targetListed,
      pair.sourceKind, pair.targetKind, isSource, isTarget⟩

end Links

/-- The links are, in the order of their ids and each once, those by labels and by keys of
the rules. -/
theorem correlate_links (toLowerCase : JsString → JsString) (entities : List CorrelationEntity)
    (distinct : DistinctIds entities) :
    (correlate toLowerCase entities).Pairwise (fun a b => ¬JsString.Before b.id a.id) ∧
    (correlate toLowerCase entities).Nodup ∧
    (∀ found, found ∈ correlate toLowerCase entities ↔ ∃ rule ∈ RULES toLowerCase,
      Declared toLowerCase entities rule found ∨ Guessed entities rule found) ∧
    (∀ others, entities.Perm others →
      correlate toLowerCase others = correlate toLowerCase entities) ∧
    (∀ found ∈ correlate toLowerCase entities, ∃ rule ∈ RULES toLowerCase,
      found.relation = rule.relation ∧ ∃ source ∈ entities, ∃ target ∈ entities,
        source.kind = rule.sourceKind ∧ target.kind = rule.targetKind ∧
          found.source = source.ref ∧ found.target = target.ref) ∧
    ∀ rule ∈ RULES toLowerCase, ∀ owner ∈ entities, owner.kind = rule.declaringKind →
      owner.labels.get? rule.labelKey ≠ none → ∀ found ∈ correlate toLowerCase entities,
        found.relation = rule.relation → rule.declaringEnd found = owner.ref →
          found.method = .declaredLabel := by
  refine ⟨?_, nodup_correlate distinct, fun _ => mem_correlate_iff distinct,
    fun _ => correlate_eq_of_perm distinct, fun _ => ends_of_mem_correlate distinct, ?_⟩
  · exact (comparesBy_linkId.pairwise_sortBy _).imp fun {a b} ordered => not_lt_of_ge ordered
  · intro rule inRules owner listed _ carries found
    exact method_of_labelled distinct inRules listed carries

def ordersTopic : CorrelationEntity :=
  ⟨.kafkaTopic, ofString "topic-orders", ofString "orders.cdc", .empty⟩

def ordersJob : CorrelationEntity :=
  ⟨.flinkJob, ofString "job-orders", ofString "orders-sync", .empty⟩

/-- A topic and a job with a common first token, in either order. -/
theorem correlate_links_orders :
    DistinctIds [ordersTopic, ordersJob] ∧
      correlate id [ordersJob, ordersTopic] = correlate id [ordersTopic, ordersJob] ∧
      (correlate id [ordersTopic, ordersJob]).map (·.method) = [.nameConvention] := by
  have distinct : DistinctIds [ordersTopic, ordersJob] := by decide
  refine ⟨distinct, ?_, by decide +kernel⟩
  exact (correlate_links id [ordersTopic, ordersJob] distinct).2.2.2.1 _ (.swap _ _ _)

end BelugaManager.DomainApi
