import BelugaManager.Foundation.CodeUnits

/-!
# Asset ids

An asset id is `asset-<kind>-` and the escaped segments of the address with dots between
them.  Reading an id back undoes this for the names that are safe to use upstream, except
that the pattern stops at the two line separators that are not control characters; and it
also reads ids in which a percent sign starts no escape.
-/

namespace BelugaManager.DomainApi

open Foundation Foundation.JsString

inductive DataAssetKind where
  | table
  | topic
  | schema
  | catalog
  deriving DecidableEq, Repr

def DataAssetKind.text : DataAssetKind → String
  | .table => "table"
  | .topic => "topic"
  | .schema => "schema"
  | .catalog => "catalog"

def percent : UInt16 := ofChar '%'

def dot : UInt16 := ofChar '.'

/-- The percent sign first, so that the escapes of dots are not escaped again. -/
def encodeIdSegment (segment : JsString) : JsString :=
  replaceAll [dot] (ofString "%2E") (replaceAll [percent] (ofString "%25") segment)

/-- The percent sign last, so that what it starts is not taken for an escape. -/
def decodeIdSegment (segment : JsString) : JsString :=
  replaceAll (ofString "%25") [percent] (replaceAll (ofString "%2E") [dot] segment)

def idPrefix (kind : DataAssetKind) : JsString := ofString ("asset-" ++ kind.text ++ "-")

def deriveAssetId (kind : DataAssetKind) (segments : List JsString) : JsString :=
  idPrefix kind ++ join dot (segments.map encodeIdSegment)

def MAX_ASSET_ID_LENGTH : Nat := 256

/-- The units that a safe segment does not contain. -/
def isUnsafeUnit (unit : UInt16) : Bool :=
  unit ≤ 0x1F || unit = 0x7F || unit = ofChar '/' || unit = ofChar '\\'

def isSafeUpstreamSegment (segment : JsString) : Bool :=
  segment ≠ [] && segment ≠ [dot] && segment ≠ [dot, dot] && !segment.any isUnsafeUnit

/-- The kinds of assets with a readable id. -/
inductive AddressKind where
  | catalog
  | schema
  | table
  deriving DecidableEq, Repr

def AddressKind.assetKind : AddressKind → DataAssetKind
  | .catalog => .catalog
  | .schema => .schema
  | .table => .table

structure AssetAddress where
  kind : AddressKind
  segments : List JsString
  deriving DecidableEq, Repr

/-- The units that the dot of a pattern does not match. -/
def isLineTerminator (unit : UInt16) : Bool :=
  unit = 0x0A || unit = 0x0D || unit = 0x2028 || unit = 0x2029

/-- The rest of a string after a start. -/
def stripStart (start s : JsString) : Option JsString :=
  if start.isPrefixOf s then some (s.drop start.length) else none

/-- The pattern of one kind, to the end of the id. -/
def matchKind (id : JsString) (kind : AddressKind) : Option (AddressKind × JsString) :=
  (stripStart (idPrefix kind.assetKind) id).bind fun raw =>
    if raw ≠ [] && !raw.any isLineTerminator then some (kind, raw) else none

/-- The kinds are tried in the order of the pattern. -/
def matchAssetId (id : JsString) : Option (AddressKind × JsString) :=
  [AddressKind.catalog, .schema, .table].findSome? (matchKind id)

def minSegments : AddressKind → Nat
  | .catalog => 1
  | .schema => 2
  | .table => 3

/-- The checks on what the pattern found. -/
def readSegments (kind : AddressKind) (raw : JsString) : Option AssetAddress :=
  let segments := split dot raw
  if segments.any (· = []) then none
  else
    let decoded := segments.map decodeIdSegment
    if !decoded.all isSafeUpstreamSegment then none
    else if segments.length < minSegments kind ||
        (kind = .catalog && segments.length ≠ 1) then none
    else some ⟨kind, decoded⟩

def parseAssetId (id : JsString) : Option AssetAddress :=
  if MAX_ASSET_ID_LENGTH < id.length then none
  else (matchAssetId id).bind fun found => readSegments found.1 found.2

/-! ## Escaping -/

/-- The escape of one unit. -/
def escape (unit : UInt16) : JsString :=
  if unit = percent then ofString "%25"
  else if unit = dot then ofString "%2E" else [unit]

theorem encodeIdSegment_eq (segment : JsString) :
    encodeIdSegment segment = segment.flatMap escape := by
  rw [encodeIdSegment, replaceAll_singleton percent]
  apply replaceAll_flatMap
  intro unit rest
  rw [escape]
  by_cases isPercent : unit = percent
  · rw [if_pos isPercent, if_pos isPercent]
    have kept : ∀ tail : JsString, replaceAll [dot] (ofString "%2E") (ofString "%25" ++ tail) =
        ofString "%25" ++ replaceAll [dot] (ofString "%2E") tail := fun _ => rfl
    exact kept rest
  · rw [if_neg isPercent, if_neg isPercent]
    by_cases isDot : unit = dot
    · rw [if_pos isDot, isDot]
      exact replaceAll_append_pattern dot [] _ rest
    · rw [if_neg isDot]
      exact replaceAll_cons_of_ne _ _ _ isDot

theorem decodeIdSegment_encodeIdSegment (segment : JsString) :
    decodeIdSegment (encodeIdSegment segment) = segment := by
  have dots : replaceAll (ofString "%2E") [dot] (segment.flatMap escape) =
      segment.flatMap fun unit => if unit = percent then ofString "%25" else [unit] := by
    apply replaceAll_flatMap
    intro unit rest
    rw [escape]
    by_cases isPercent : unit = percent
    · rw [if_pos isPercent, if_pos isPercent]
      rfl
    · rw [if_neg isPercent, if_neg isPercent]
      by_cases isDot : unit = dot
      · rw [if_pos isDot, isDot]
        exact replaceAll_append_pattern percent (ofString "2E") [dot] rest
      · rw [if_neg isDot]
        exact replaceAll_cons_of_ne (ofString "2E") _ _ isPercent
  have percents : replaceAll (ofString "%25") [percent]
      (segment.flatMap fun unit => if unit = percent then ofString "%25" else [unit]) =
        segment.flatMap fun unit => [unit] := by
    apply replaceAll_flatMap
    intro unit rest
    by_cases isPercent : unit = percent
    · rw [if_pos isPercent, isPercent]
      exact replaceAll_append_pattern percent (ofString "25") [percent] rest
    · rw [if_neg isPercent]
      exact replaceAll_cons_of_ne (ofString "25") _ _ isPercent
  rw [encodeIdSegment_eq, decodeIdSegment, dots, percents, List.flatMap_singleton']

theorem dot_notMem_encodeIdSegment (segment : JsString) : dot ∉ encodeIdSegment segment := by
  rw [encodeIdSegment_eq]
  intro member
  rcases List.mem_flatMap.mp member with ⟨unit, _, inEscape⟩
  rw [escape] at inEscape
  split_ifs at inEscape with isPercent isDot
  · exact absurd inEscape (by decide)
  · exact absurd inEscape (by decide)
  · exact isDot (List.mem_singleton.mp inEscape).symm

theorem encodeIdSegment_ne_nil {segment : JsString} (nonempty : segment ≠ []) :
    encodeIdSegment segment ≠ [] := by
  intro empty
  apply nonempty
  rw [← decodeIdSegment_encodeIdSegment segment, empty]
  rfl

/-- Every percent sign starts an escape. -/
def WellEscaped : JsString → Prop
  | [] => True
  | unit :: rest =>
      (unit = percent → ofString "25" <+: rest ∨ ofString "2E" <+: rest) ∧ WellEscaped rest

instance decidableWellEscaped : (s : JsString) → Decidable (WellEscaped s)
  | [] => isTrue trivial
  | unit :: rest =>
      have := decidableWellEscaped rest
      inferInstanceAs (Decidable
        ((unit = percent → ofString "25" <+: rest ∨ ofString "2E" <+: rest) ∧ WellEscaped rest))

theorem wellEscaped_append_of_notMem {start : JsString} (rest : JsString)
    (free : percent ∉ start) : WellEscaped (start ++ rest) ↔ WellEscaped rest := by
  induction start with
  | nil => rfl
  | cons unit start ih =>
      have differs : unit ≠ percent := fun same => free (same ▸ List.mem_cons_self)
      rw [List.cons_append, WellEscaped, ih fun member => free (List.mem_cons_of_mem unit member)]
      exact ⟨fun both => both.2, fun escaped => ⟨fun same => absurd same differs, escaped⟩⟩

/-- A start without the separator does not reach beyond it. -/
theorem prefix_append_cons_iff {start first : JsString} (rest : JsString) (free : dot ∉ start) :
    start <+: first ++ dot :: rest ↔ start <+: first := by
  constructor
  · intro starts
    rcases List.prefix_or_prefix_of_prefix starts
      (show first ++ [dot] <+: first ++ dot :: rest from ⟨rest, by simp⟩) with inside | beyond
    · rcases List.prefix_concat_iff.mp inside with same | within
      · exact absurd (same ▸ List.mem_append_right first List.mem_cons_self) free
      · exact within
    · exact absurd (beyond.subset (List.mem_append_right first List.mem_cons_self)) free
  · exact fun starts => starts.trans (List.prefix_append first (dot :: rest))

theorem wellEscaped_append_dot (first rest : JsString) :
    WellEscaped (first ++ dot :: rest) ↔ WellEscaped first ∧ WellEscaped rest := by
  induction first with
  | nil =>
      rw [List.nil_append, WellEscaped]
      exact ⟨fun both => ⟨trivial, both.2⟩,
        fun both => ⟨fun same => absurd same (by decide), both.2⟩⟩
  | cons unit first ih =>
      rw [List.cons_append, WellEscaped, WellEscaped, ih,
        prefix_append_cons_iff rest (by decide), prefix_append_cons_iff rest (by decide), and_assoc]

theorem wellEscaped_join {pieces : List JsString} :
    WellEscaped (join dot pieces) ↔ ∀ piece ∈ pieces, WellEscaped piece := by
  induction pieces with
  | nil => exact ⟨fun _ _ member => absurd member List.not_mem_nil, fun _ => trivial⟩
  | cons first rest ih =>
      rw [List.forall_mem_cons]
      cases rest with
      | nil => simp
      | cons second rest => rw [join_cons_cons, wellEscaped_append_dot, ih]

theorem wellEscaped_encodeIdSegment (segment : JsString) :
    WellEscaped (encodeIdSegment segment) := by
  rw [encodeIdSegment_eq]
  induction segment with
  | nil => trivial
  | cons unit rest ih =>
      rw [List.flatMap_cons, escape]
      split_ifs with isPercent isDot
      · refine ⟨fun _ => Or.inl ⟨_, rfl⟩, ?_⟩
        exact (@wellEscaped_append_of_notMem (ofString "25") _ (by decide)).mpr ih
      · refine ⟨fun _ => Or.inr ⟨_, rfl⟩, ?_⟩
        exact (@wellEscaped_append_of_notMem (ofString "2E") _ (by decide)).mpr ih
      · exact ⟨fun same => absurd same isPercent, ih⟩

theorem exists_encodeIdSegment_eq {piece : JsString} (free : dot ∉ piece)
    (escaped : WellEscaped piece) : ∃ segment, encodeIdSegment segment = piece := by
  -- An escape takes three units, so the induction is on the length.
  induction size : piece.length using Nat.strong_induction_on generalizing piece with
  | _ n ih =>
      cases piece with
      | nil => exact ⟨[], rfl⟩
      | cons unit rest =>
          have restFree : dot ∉ rest := fun member => free (List.mem_cons_of_mem unit member)
          rw [List.length_cons] at size
          by_cases isPercent : unit = percent
          · have afterEscape : ∀ escaped tail : JsString, percent ∉ escaped →
                escaped ++ tail = rest → ∃ segment, encodeIdSegment segment = tail := by
              intro code tail clean same
              apply ih tail.length _ _ _ rfl
              · rw [← size, ← same, List.length_append]
                omega
              · exact fun member => restFree (same ▸ List.mem_append_right code member)
              · rw [← wellEscaped_append_of_notMem tail clean, same]
                exact escaped.2
            rcases escaped.1 isPercent with ⟨tail, same⟩ | ⟨tail, same⟩
            · rcases afterEscape (ofString "25") tail (by decide) same with ⟨segment, encodes⟩
              refine ⟨percent :: segment, ?_⟩
              rw [encodeIdSegment_eq] at encodes ⊢
              rw [List.flatMap_cons, encodes, isPercent, ← same]
              rfl
            · rcases afterEscape (ofString "2E") tail (by decide) same with ⟨segment, encodes⟩
              refine ⟨dot :: segment, ?_⟩
              rw [encodeIdSegment_eq] at encodes ⊢
              rw [List.flatMap_cons, encodes, isPercent, ← same]
              rfl
          · rcases ih rest.length (by omega) restFree escaped.2 rfl with ⟨segment, encodes⟩
            have isNotDot : unit ≠ dot := fun same => free (same ▸ List.mem_cons_self)
            refine ⟨unit :: segment, ?_⟩
            rw [encodeIdSegment_eq] at encodes ⊢
            rw [List.flatMap_cons, encodes, escape, if_neg isPercent, if_neg isNotDot]
            rfl

/-- Encoding undoes decoding exactly where every percent sign starts an escape. -/
theorem encodeIdSegment_decodeIdSegment_iff {piece : JsString} (free : dot ∉ piece) :
    encodeIdSegment (decodeIdSegment piece) = piece ↔ WellEscaped piece := by
  constructor
  · intro same
    rw [← same]
    exact wellEscaped_encodeIdSegment _
  · intro escaped
    rcases exists_encodeIdSegment_eq free escaped with ⟨segment, rfl⟩
    rw [decodeIdSegment_encodeIdSegment]

/-! ## Reading an id -/

theorem stripStart_eq_some_iff {start s rest : JsString} :
    stripStart start s = some rest ↔ s = start ++ rest := by
  rw [stripStart]
  constructor
  · intro found
    split_ifs at found with starts
    rcases List.isPrefixOf_iff_prefix.mp starts with ⟨others, rfl⟩
    rw [List.drop_left, Option.some.injEq] at found
    rw [found]
  · intro same
    rw [same, if_pos (List.isPrefixOf_iff_prefix.mpr (List.prefix_append start rest)),
      List.drop_left]

/-- An id starts with at most one kind. -/
theorem idPrefix_append_inj {kind other : AddressKind} {raw otherRaw : JsString}
    (same : idPrefix kind.assetKind ++ raw = idPrefix other.assetKind ++ otherRaw) :
    kind = other ∧ raw = otherRaw := by
  -- The kinds differ in the seventh unit.
  have seventh : (idPrefix kind.assetKind)[6]? = (idPrefix other.assetKind)[6]? := by
    have long : ∀ k : AddressKind, 6 < (idPrefix k.assetKind).length := by
      intro k
      cases k <;> decide
    rw [← List.getElem?_append_left (long kind), same, List.getElem?_append_left (long other)]
  have sameKind : kind = other := by
    revert seventh
    cases kind <;> cases other <;> decide
  rw [sameKind] at same
  exact ⟨sameKind, List.append_cancel_left same⟩

theorem matchKind_eq_some_iff {id raw : JsString} {kind found : AddressKind} :
    matchKind id kind = some (found, raw) ↔ found = kind ∧ id = idPrefix kind.assetKind ++ raw ∧
      raw ≠ [] ∧ ∀ unit ∈ raw, isLineTerminator unit = false := by
  rw [matchKind, Option.bind_eq_some_iff]
  simp only [stripStart_eq_some_iff, Option.ite_none_right_eq_some, Bool.and_eq_true,
    decide_eq_true_eq, Bool.not_eq_true', List.any_eq_false, Bool.not_eq_true, Option.some.injEq,
    Prod.mk.injEq]
  constructor
  · intro ⟨rest, same, both, isKind, isRest⟩
    rw [← isRest]
    exact ⟨isKind.symm, same, both.1, both.2⟩
  · intro ⟨isKind, same, nonempty, clean⟩
    exact ⟨raw, same, ⟨nonempty, clean⟩, isKind.symm, rfl⟩

theorem matchAssetId_eq_some_iff {id raw : JsString} {kind : AddressKind} :
    matchAssetId id = some (kind, raw) ↔ id = idPrefix kind.assetKind ++ raw ∧
      raw ≠ [] ∧ ∀ unit ∈ raw, isLineTerminator unit = false := by
  constructor
  · intro found
    rcases List.exists_of_findSome?_eq_some found with ⟨tried, _, matched⟩
    rcases matchKind_eq_some_iff.mp matched with ⟨rfl, facts⟩
    exact facts
  · intro facts
    have listed : kind ∈ [AddressKind.catalog, .schema, .table] := by
      cases kind <;> decide
    have matched := matchKind_eq_some_iff.mpr ⟨rfl, facts⟩
    cases found : matchAssetId id with
    | none =>
        rw [matchAssetId, List.findSome?_eq_none_iff] at found
        rw [found kind listed] at matched
        cases matched
    | some other =>
        rcases List.exists_of_findSome?_eq_some found with ⟨tried, _, matchedOther⟩
        rcases matchKind_eq_some_iff.mp matchedOther with ⟨isKind, same, _⟩
        rcases idPrefix_append_inj (facts.1.symm.trans same) with ⟨sameKind, sameRaw⟩
        rw [sameKind, sameRaw, ← isKind]

/-- The numbers of segments that an address of a kind may have. -/
def AddressKind.Admits : AddressKind → Nat → Prop
  | .catalog, n => n = 1
  | .schema, n => 2 ≤ n
  | .table, n => 3 ≤ n

instance : (kind : AddressKind) → (n : Nat) → Decidable (kind.Admits n)
  | .catalog, n => inferInstanceAs (Decidable (n = 1))
  | .schema, n => inferInstanceAs (Decidable (2 ≤ n))
  | .table, n => inferInstanceAs (Decidable (3 ≤ n))

theorem AddressKind.admits_iff {kind : AddressKind} {n : Nat} :
    kind.Admits n ↔ minSegments kind ≤ n ∧ (kind = .catalog → n = 1) := by
  cases kind with
  | catalog =>
      constructor
      · intro one
        exact ⟨le_of_eq (Eq.symm one), fun _ => one⟩
      · exact fun both => both.2 rfl
  | schema => exact ⟨fun enough => ⟨enough, nofun⟩, fun both => both.1⟩
  | table => exact ⟨fun enough => ⟨enough, nofun⟩, fun both => both.1⟩

theorem readSegments_eq_some_iff {kind : AddressKind} {raw : JsString} {address : AssetAddress} :
    readSegments kind raw = some address ↔ address = ⟨kind, (split dot raw).map decodeIdSegment⟩ ∧
      (∀ piece ∈ split dot raw, piece ≠ []) ∧
      (∀ segment ∈ address.segments, isSafeUpstreamSegment segment = true) ∧
      kind.Admits address.segments.length := by
  simp only [readSegments, Option.ite_none_left_eq_some, Option.some.injEq, AddressKind.admits_iff,
    List.any_eq_true, decide_eq_true_eq, Bool.not_eq_true', Bool.not_eq_false, List.all_eq_true,
    Bool.or_eq_true, Bool.and_eq_true, not_or, not_and, not_not, not_lt, not_exists]
  constructor
  · intro ⟨filled, safe, admitted, same⟩
    rw [← same, List.length_map]
    exact ⟨rfl, filled, safe, admitted⟩
  · intro ⟨same, filled, safe, admitted⟩
    rw [same] at safe admitted
    rw [List.length_map] at admitted
    exact ⟨filled, safe, admitted, same.symm⟩

/-- Which ids are read, and as what. -/
theorem parseAssetId_eq_some_iff {id : JsString} {address : AssetAddress} :
    parseAssetId id = some address ↔ id.length ≤ MAX_ASSET_ID_LENGTH ∧
      ∃ raw, id = idPrefix address.kind.assetKind ++ raw ∧
        raw ≠ [] ∧ (∀ unit ∈ raw, isLineTerminator unit = false) ∧
        (∀ piece ∈ split dot raw, piece ≠ []) ∧
        address.segments = (split dot raw).map decodeIdSegment ∧
        (∀ segment ∈ address.segments, isSafeUpstreamSegment segment = true) ∧
        address.kind.Admits address.segments.length := by
  rw [parseAssetId, Option.ite_none_left_eq_some, not_lt, Option.bind_eq_some_iff]
  apply and_congr_right
  intro _
  constructor
  · intro ⟨⟨kind, raw⟩, matched, read⟩
    rcases matchAssetId_eq_some_iff.mp matched with ⟨same, nonempty, clean⟩
    rcases readSegments_eq_some_iff.mp read with ⟨rfl, filled, safe, admitted⟩
    exact ⟨raw, same, nonempty, clean, filled, rfl, safe, admitted⟩
  · intro ⟨raw, same, nonempty, clean, filled, segments, safe, admitted⟩
    refine ⟨(address.kind, raw), matchAssetId_eq_some_iff.mpr ⟨same, nonempty, clean⟩, ?_⟩
    exact readSegments_eq_some_iff.mpr ⟨by rw [← segments], filled, safe, admitted⟩

/-! ## Both directions -/

theorem notMem_of_isSafeUpstreamSegment {segment : JsString} {unit : UInt16}
    (safe : isSafeUpstreamSegment segment = true) (member : unit ∈ segment) :
    isUnsafeUnit unit = false := by
  simp only [isSafeUpstreamSegment, Bool.and_eq_true, Bool.not_eq_true', List.any_eq_false,
    Bool.not_eq_true] at safe
  exact safe.2 unit member

theorem nonempty_of_isSafeUpstreamSegment {segment : JsString}
    (safe : isSafeUpstreamSegment segment = true) : segment ≠ [] := by
  simp only [isSafeUpstreamSegment, Bool.and_eq_true, decide_eq_true_eq] at safe
  exact safe.1.1.1

/-- Escaping neither adds nor removes what the dot of a pattern does not match. -/
theorem mem_encodeIdSegment_iff {segment : JsString} {unit : UInt16}
    (terminates : isLineTerminator unit = true) :
    unit ∈ encodeIdSegment segment ↔ unit ∈ segment := by
  have clean : ∀ code : JsString, (∀ u ∈ code, isLineTerminator u = false) → unit ∉ code := by
    intro code free member
    exact absurd (free unit member) (by simp [terminates])
  have escaped : ∀ other : UInt16, unit ∈ escape other ↔ unit = other := by
    intro other
    rw [escape]
    split_ifs with isPercent isDot
    · rw [isPercent]
      exact iff_of_false (clean _ (Text.forall_mem_of_all (by decide)))
        fun same => clean [percent] (Text.forall_mem_of_all (by decide)) (by simp [same])
    · rw [isDot]
      exact iff_of_false (clean _ (Text.forall_mem_of_all (by decide)))
        fun same => clean [dot] (Text.forall_mem_of_all (by decide)) (by simp [same])
    · exact List.mem_singleton
  rw [encodeIdSegment_eq, List.mem_flatMap]
  constructor
  · intro ⟨other, listed, member⟩
    rw [(escaped other).mp member]
    exact listed
  · exact fun member => ⟨unit, member, (escaped unit).mpr rfl⟩

/-- The line terminators that a safe segment may contain. -/
theorem isLineTerminator_iff_of_safe {unit : UInt16} (safe : isUnsafeUnit unit = false) :
    isLineTerminator unit = true ↔ unit = 0x2028 ∨ unit = 0x2029 := by
  simp only [isLineTerminator, Bool.or_eq_true, decide_eq_true_eq]
  constructor
  · intro terminates
    rcases terminates with ((isFeed | isReturn) | isLine) | isParagraph
    · rw [isFeed] at safe
      exact absurd safe (by decide)
    · rw [isReturn] at safe
      exact absurd safe (by decide)
    · exact Or.inl isLine
    · exact Or.inr isParagraph
  · intro separates
    rcases separates with isLine | isParagraph
    · exact Or.inl (Or.inr isLine)
    · exact Or.inr isParagraph

/-- A derived id is read back unless a segment contains a line separator. -/
theorem parseAssetId_deriveAssetId {kind : AddressKind} {segments : List JsString}
    (admitted : kind.Admits segments.length)
    (safe : ∀ segment ∈ segments, isSafeUpstreamSegment segment = true)
    (short : (deriveAssetId kind.assetKind segments).length ≤ MAX_ASSET_ID_LENGTH) :
    parseAssetId (deriveAssetId kind.assetKind segments) = some ⟨kind, segments⟩ ↔
      ∀ segment ∈ segments, 0x2028 ∉ segment ∧ 0x2029 ∉ segment := by
  have someSegment : segments ≠ [] := by
    intro none
    rw [none] at admitted
    cases kind <;> exact absurd admitted (by decide)
  have pieces : split dot (join dot (segments.map encodeIdSegment)) =
      segments.map encodeIdSegment := by
    apply split_join (by simpa using someSegment)
    intro piece listed
    rcases List.mem_map.mp listed with ⟨segment, _, rfl⟩
    exact dot_notMem_encodeIdSegment segment
  have decoded : (segments.map encodeIdSegment).map decodeIdSegment = segments := by
    rw [List.map_map]
    exact List.map_id'' decodeIdSegment_encodeIdSegment segments
  have clean : (∀ unit ∈ join dot (segments.map encodeIdSegment), isLineTerminator unit = false) ↔
      ∀ segment ∈ segments, 0x2028 ∉ segment ∧ 0x2029 ∉ segment := by
    constructor
    · intro free segment listed
      have absent : ∀ unit, isLineTerminator unit = true → unit ∉ segment := by
        intro unit terminates member
        have joined := @mem_join_of_mem dot _ _ _
          (List.mem_map_of_mem listed) ((mem_encodeIdSegment_iff terminates).mpr member)
        exact absurd (free unit joined) (by simp [terminates])
      exact ⟨absent 0x2028 (by decide), absent 0x2029 (by decide)⟩
    · intro free unit member
      by_contra terminates
      rw [Bool.not_eq_false] at terminates
      rcases mem_join member with isDot | ⟨piece, listed, inPiece⟩
      · rw [isDot] at terminates
        exact absurd terminates (by decide)
      · rcases List.mem_map.mp listed with ⟨segment, inSegments, rfl⟩
        have inSegment := (mem_encodeIdSegment_iff terminates).mp inPiece
        have isSafe := notMem_of_isSafeUpstreamSegment (safe segment inSegments) inSegment
        rcases (isLineTerminator_iff_of_safe isSafe).mp terminates with rfl | rfl
        · exact (free segment inSegments).1 inSegment
        · exact (free segment inSegments).2 inSegment
  rw [parseAssetId_eq_some_iff, ← clean]
  constructor
  · intro ⟨_, raw, same, _, free, _⟩
    rwa [List.append_cancel_left same]
  · intro free
    refine ⟨short, _, rfl, ?_, free, ?_, ?_, safe, admitted⟩
    · intro empty
      rw [empty] at pieces
      have one : [[]] = segments.map encodeIdSegment := pieces
      have listed : [] ∈ segments.map encodeIdSegment := one ▸ List.mem_cons_self
      rcases List.mem_map.mp listed with ⟨segment, inSegments, encodes⟩
      exact encodeIdSegment_ne_nil (nonempty_of_isSafeUpstreamSegment (safe segment inSegments))
        encodes
    · intro piece listed
      rw [pieces] at listed
      rcases List.mem_map.mp listed with ⟨segment, inSegments, rfl⟩
      exact encodeIdSegment_ne_nil (nonempty_of_isSafeUpstreamSegment (safe segment inSegments))
    · rw [pieces, decoded]

/-- An id that is read is the derived one where every percent sign starts an escape. -/
theorem deriveAssetId_of_parseAssetId {id : JsString} {address : AssetAddress}
    (read : parseAssetId id = some address) :
    deriveAssetId address.kind.assetKind address.segments = id ↔ WellEscaped id := by
  rcases parseAssetId_eq_some_iff.mp read with ⟨_, raw, same, _, _, _, segments, _⟩
  have percentFree : percent ∉ idPrefix address.kind.assetKind := by
    cases address.kind <;> decide
  rw [same, wellEscaped_append_of_notMem raw percentFree, deriveAssetId, List.append_cancel_left_eq,
    segments, List.map_map]
  rw [@join_map_split_iff dot (encodeIdSegment ∘ decodeIdSegment) raw
      fun piece => dot_notMem_encodeIdSegment (decodeIdSegment piece),
    ← congrArg WellEscaped (join_split dot raw), wellEscaped_join]
  apply forall₂_congr
  intro piece listed
  exact encodeIdSegment_decodeIdSegment_iff (notMem_of_mem_split listed)

/-- The two directions, each with its exact condition; ids whose percent signs all start
escapes are read as one asset only if they are one id. -/
theorem assetIds_inverse_iff (kind : AddressKind) (segments : List JsString) (id : JsString) :
    (kind.Admits segments.length →
      (∀ segment ∈ segments, isSafeUpstreamSegment segment = true) →
      (deriveAssetId kind.assetKind segments).length ≤ MAX_ASSET_ID_LENGTH →
      (parseAssetId (deriveAssetId kind.assetKind segments) = some ⟨kind, segments⟩ ↔
        ∀ segment ∈ segments, 0x2028 ∉ segment ∧ 0x2029 ∉ segment)) ∧
    (parseAssetId id = some ⟨kind, segments⟩ →
      (deriveAssetId kind.assetKind segments = id ↔ WellEscaped id)) ∧
    ∀ other : JsString, parseAssetId id = some ⟨kind, segments⟩ →
      parseAssetId other = some ⟨kind, segments⟩ → WellEscaped id → WellEscaped other →
        id = other := by
  refine ⟨parseAssetId_deriveAssetId, deriveAssetId_of_parseAssetId, ?_⟩
  intro other read readOther escaped escapedOther
  rw [← (deriveAssetId_of_parseAssetId read).mpr escaped,
    (deriveAssetId_of_parseAssetId readOther).mpr escapedOther]

/-- A table with a dot in its name. -/
theorem assetIds_inverse_orders :
    parseAssetId (ofString "asset-table-ice.a.orders%2Ev2") =
        some ⟨.table, [ofString "ice", ofString "a", ofString "orders.v2"]⟩ ∧
      deriveAssetId .table [ofString "ice", ofString "a", ofString "orders.v2"] =
        ofString "asset-table-ice.a.orders%2Ev2" := by
  have inverse := assetIds_inverse_iff .table [ofString "ice", ofString "a", ofString "orders.v2"]
    (ofString "asset-table-ice.a.orders%2Ev2")
  have read := (inverse.1 (by decide) (by decide) (by decide)).mpr (by decide)
  have derived : deriveAssetId .table [ofString "ice", ofString "a", ofString "orders.v2"] =
      ofString "asset-table-ice.a.orders%2Ev2" := by decide
  rw [AddressKind.assetKind, derived] at read
  exact ⟨read, (inverse.2.1 read).mpr (by decide)⟩

/-- A name with a line separator is safe but its id is not read; and `50%` is read from two
ids. -/
theorem assetIds_not_inverse :
    (isSafeUpstreamSegment [0x2028] = true ∧
      parseAssetId (deriveAssetId .catalog [[0x2028]]) = none) ∧
    parseAssetId (ofString "asset-catalog-50%") = some ⟨.catalog, [ofString "50%"]⟩ ∧
    parseAssetId (ofString "asset-catalog-50%25") = some ⟨.catalog, [ofString "50%"]⟩ ∧
    deriveAssetId .catalog [ofString "50%"] ≠ ofString "asset-catalog-50%" := by
  decide +kernel

end BelugaManager.DomainApi
