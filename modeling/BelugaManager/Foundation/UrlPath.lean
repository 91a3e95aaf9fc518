import BelugaManager.Foundation.PercentEncoding

/-!
# Paths of URLs

What setting the path of an `http` URL makes of a text: it is cut at slashes and
backslashes, each segment is percent-encoded, and dot segments are taken out, also where a
dot is spelled `%2e`.  A path made up of normal segments stays as it is, and every path
that was set is made up of such segments.
-/

namespace Foundation.JsString

def slashUnit : UInt16 := ofChar '/'

/-- What separates the segments of a path. -/
def isSlash (unit : UInt16) : Bool := unit = slashUnit || unit = ofChar '\\'

/-- The segments that stand for the one they are in. -/
def isSingleDot (segment : JsString) : Bool :=
  [ofString ".", ofString "%2e"].any (segment.map lowerUnit = ·)

/-- The segments that stand for the one above. -/
def isDoubleDot (segment : JsString) : Bool :=
  [ofString "..", ofString ".%2e", ofString "%2e.", ofString "%2e%2e"].any
    (segment.map lowerUnit = ·)

theorem any_eq_true_iff_mem (spelled : List JsString) (lowered : JsString) :
    spelled.any (lowered = ·) = true ↔ lowered ∈ spelled := by
  simp

/-- The code points of a string, with half of a surrogate pair replaced. -/
def scalarValues : JsString → List Nat
  | [] => []
  | [unit] => [if isHighSurrogate unit || isLowSurrogate unit then 0xFFFD else unit.toNat]
  | unit :: next :: rest =>
      if isHighSurrogate unit && isLowSurrogate next then pairPoint unit next :: scalarValues rest
      else (if isHighSurrogate unit || isLowSurrogate unit then 0xFFFD else unit.toNat) ::
        scalarValues (next :: rest)

/-- The percent-encode set of paths. -/
def isPathEncoded (point : Nat) : Bool :=
  point ≤ 0x1F || 0x7E < point || (toNats (ofString " \"#<>?^\x60\x7b\x7d")).contains point

def encodePathPoint (point : Nat) : JsString :=
  if isPathEncoded point then (utf8 point).flatMap percentByte else [UInt16.ofNat point]

def encodePathSegment (segment : JsString) : JsString :=
  (scalarValues segment).flatMap encodePathPoint

/-- The path after its next segments. A dot segment at the end leaves an empty one. -/
def resolvePath (path : List JsString) : List JsString → List JsString
  | [] => path
  | [last] =>
      if isDoubleDot last then path.dropLast ++ [[]]
      else if isSingleDot last then path ++ [[]] else path ++ [last]
  | segment :: next :: rest =>
      if isDoubleDot segment then resolvePath path.dropLast (next :: rest)
      else if isSingleDot segment then resolvePath path (next :: rest)
      else resolvePath (path ++ [segment]) (next :: rest)

/-- Tabs and line breaks, which are dropped. -/
def isDropped (unit : UInt16) : Bool := unit = 0x09 || unit = 0x0A || unit = 0x0D

/-- One slash at the start belongs to no segment. -/
def dropSlash : JsString → JsString
  | [] => []
  | unit :: rest => if isSlash unit then rest else unit :: rest

def pathname (path : List JsString) : JsString := path.flatMap (slashUnit :: ·)

/-- The path of a URL after it has been set to a text. -/
def setPathname (text : JsString) : JsString :=
  pathname (resolvePath []
    (((dropSlash (text.filter (!isDropped ·))).splitOnP isSlash).map encodePathSegment))

/-- A unit of a segment that stays as it is. -/
def isPathUnit (unit : UInt16) : Bool := !isPathEncoded unit.toNat && !isSlash unit

/-- A segment that stays as it is. -/
structure NormalSegment (segment : JsString) : Prop where
  units : ∀ unit ∈ segment, isPathUnit unit = true
  notSingle : isSingleDot segment = false
  notDouble : isDoubleDot segment = false

theorem normalSegment_of_all {segment : JsString} (units : segment.all isPathUnit = true)
    (notSingle : isSingleDot segment = false) (notDouble : isDoubleDot segment = false) :
    NormalSegment segment :=
  ⟨List.all_eq_true.mp units, notSingle, notDouble⟩

theorem pathUnit_range {unit : UInt16} (isUnit : isPathUnit unit = true) :
    0x1F < unit.toNat ∧ unit.toNat ≤ 0x7E := by
  simp only [isPathUnit, isPathEncoded, Bool.and_eq_true, Bool.not_eq_true', Bool.or_eq_false_iff,
    decide_eq_false_iff_not] at isUnit
  omega

theorem not_isSlash_of_pathUnit {unit : UInt16} (isUnit : isPathUnit unit = true) :
    isSlash unit = false := by
  simp only [isPathUnit, Bool.and_eq_true, Bool.not_eq_true'] at isUnit
  exact isUnit.2

theorem encodePathPoint_of_pathUnit {unit : UInt16} (isUnit : isPathUnit unit = true) :
    encodePathPoint unit.toNat = [unit] := by
  simp only [isPathUnit, Bool.and_eq_true, Bool.not_eq_true'] at isUnit
  rw [encodePathPoint, isUnit.1]
  simp

theorem scalarValues_of_ascii {segment : JsString} (ascii : ∀ unit ∈ segment, unit.toNat ≤ 0x7E) :
    scalarValues segment = segment.map UInt16.toNat := by
  have noHalf : ∀ unit : UInt16, unit.toNat ≤ 0x7E →
      isHighSurrogate unit = false ∧ isLowSurrogate unit = false := by
    intro unit small
    simp only [isHighSurrogate, isLowSurrogate, decide_eq_false_iff_not]
    omega
  fun_induction scalarValues segment with
  | case1 => rfl
  | case2 unit =>
      rcases noHalf unit (ascii unit List.mem_cons_self) with ⟨notHigh, notLow⟩
      simp [notHigh, notLow]
  | case3 unit next rest isPair ih =>
      rcases noHalf unit (ascii unit List.mem_cons_self) with ⟨notHigh, notLow⟩
      simp [notHigh] at isPair
  | case4 unit next rest notPair ih =>
      rcases noHalf unit (ascii unit List.mem_cons_self) with ⟨notHigh, notLow⟩
      rw [ih fun other member => ascii other (List.mem_cons_of_mem unit member)]
      simp [notHigh, notLow]

theorem NormalSegment.encode_eq {segment : JsString} (normal : NormalSegment segment) :
    encodePathSegment segment = segment := by
  rw [encodePathSegment, scalarValues_of_ascii fun unit member =>
    (pathUnit_range (normal.units unit member)).2, List.flatMap_map]
  calc segment.flatMap (fun unit => encodePathPoint unit.toNat)
      = segment.flatMap (fun unit => [unit]) :=
        List.flatMap_congr fun unit member => encodePathPoint_of_pathUnit (normal.units unit member)
    _ = segment := List.flatMap_singleton' segment

theorem resolvePath_normal {path segments : List JsString}
    (normal : ∀ segment ∈ segments, NormalSegment segment) :
    resolvePath path segments = path ++ segments := by
  fun_induction resolvePath path segments with
  | case1 => rw [List.append_nil]
  | case2 path last isDouble => simp [(normal last List.mem_cons_self).notDouble] at isDouble
  | case3 path last notDouble isSingle =>
      simp [(normal last List.mem_cons_self).notSingle] at isSingle
  | case4 => rfl
  | case5 path segment next rest isDouble =>
      simp [(normal segment List.mem_cons_self).notDouble] at isDouble
  | case6 path segment next rest notDouble isSingle =>
      simp [(normal segment List.mem_cons_self).notSingle] at isSingle
  | case7 path segment next rest notDouble notSingle ih =>
      rw [ih fun other member => normal other (List.mem_cons_of_mem segment member),
        List.append_assoc]
      rfl

theorem pathname_append (path more : List JsString) :
    pathname (path ++ more) = pathname path ++ pathname more := List.flatMap_append

/-- The segments of a path are what stands between its slashes. -/
theorem splitOnP_pathname {first : JsString} {rest : List JsString}
    (clean : ∀ segment ∈ first :: rest, ∀ unit ∈ segment, isSlash unit = false) :
    (dropSlash (pathname (first :: rest))).splitOnP isSlash = first :: rest := by
  have dropped : dropSlash (pathname (first :: rest)) = first ++ pathname rest := rfl
  rw [dropped]
  induction rest generalizing first with
  | nil =>
      rw [pathname, List.flatMap_nil, List.append_nil]
      exact List.splitOnP_eq_singleton (clean first List.mem_cons_self)
  | cons second rest ih =>
      have spelled : pathname (second :: rest) = slashUnit :: (second ++ pathname rest) := rfl
      rw [spelled, List.splitOnP_append_cons_of_forall_mem (clean first List.mem_cons_self)
        slashUnit rfl]
      rw [ih (fun segment member => clean segment (List.mem_cons_of_mem first member)) rfl]

/-- A path of normal segments stays as it is. -/
theorem setPathname_pathname {path : List JsString} (nonempty : path ≠ [])
    (normal : ∀ segment ∈ path, NormalSegment segment) :
    setPathname (pathname path) = pathname path := by
  cases path with
  | nil => exact absurd rfl nonempty
  | cons first rest =>
      have kept : (pathname (first :: rest)).filter (!isDropped ·) = pathname (first :: rest) := by
        apply List.filter_eq_self.mpr
        intro unit member
        rcases List.mem_flatMap.mp member with ⟨segment, listed, inSegment⟩
        rcases List.mem_cons.mp inSegment with rfl | inUnits
        · rfl
        · have range := pathUnit_range ((normal segment listed).units unit inUnits)
          have different : ∀ code : UInt16, code.toNat ≤ 0x1F → unit ≠ code := by
            intro code small same
            rw [same] at range
            omega
          simp [isDropped, different 0x09 (by decide), different 0x0A (by decide),
            different 0x0D (by decide)]
      have encoded : (first :: rest).map encodePathSegment = first :: rest := by
        rw [List.map_congr_left fun segment listed => (normal segment listed).encode_eq]
        exact List.map_id' (first :: rest)
      rw [setPathname, kept, splitOnP_pathname fun segment listed unit member =>
        not_isSlash_of_pathUnit ((normal segment listed).units unit member), encoded,
        resolvePath_normal normal, List.nil_append]

/-! ## Set paths are normal -/

theorem isPathUnit_of_isComponentUnit {unit : UInt16} (isUnit : isComponentUnit unit = true) :
    isPathUnit unit = true := by
  have small : unit.toNat < 128 := by
    by_contra big
    have plain : ∀ other ∈ ofString "-_.!~*'()", other.toNat < 128 :=
      Text.forall_mem_of_all (by decide)
    have notPlain : unit ∉ ofString "-_.!~*'()" := fun listed => big (plain unit listed)
    have notPercent : unit ≠ ofChar '%' := by
      intro same
      rw [same] at big
      exact absurd big (by decide)
    simp only [isComponentUnit, isUnreserved, Bool.or_eq_true, decide_eq_true_eq,
      List.contains_iff_mem, notPlain, notPercent, or_false] at isUnit
    omega
  have decided : ∀ n < 128, isComponentUnit (UInt16.ofNat n) = true →
      isPathUnit (UInt16.ofNat n) = true := by decide +kernel
  have found := decided unit.toNat small
  rw [UInt16.ofNat_toNat] at found
  exact found isUnit

/-- The small code points are units of the string. -/
theorem mem_of_mem_scalarValues {segment : JsString} {point : Nat}
    (member : point ∈ scalarValues segment) (small : point ≤ 0x7E) :
    UInt16.ofNat point ∈ segment := by
  have ofUnit : ∀ unit : UInt16, point =
      (if isHighSurrogate unit || isLowSurrogate unit then 0xFFFD else unit.toNat) →
        UInt16.ofNat point = unit := by
    intro unit same
    split_ifs at same
    · omega
    · rw [same, UInt16.ofNat_toNat]
  fun_induction scalarValues segment with
  | case1 => exact absurd member List.not_mem_nil
  | case2 unit =>
      rw [ofUnit unit (List.mem_singleton.mp member)]
      exact List.mem_cons_self
  | case3 unit next rest isPair ih =>
      rcases List.mem_cons.mp member with isPoint | later
      · unfold pairPoint at isPoint
        omega
      · exact List.mem_cons_of_mem unit (List.mem_cons_of_mem next (ih later))
  | case4 unit next rest notPair ih =>
      rcases List.mem_cons.mp member with isPoint | later
      · rw [ofUnit unit isPoint]
        exact List.mem_cons_self
      · exact List.mem_cons_of_mem unit (ih later)

theorem isPathUnit_of_mem_encodePathSegment {segment : JsString}
    (clean : ∀ unit ∈ segment, isSlash unit = false) :
    ∀ unit ∈ encodePathSegment segment, isPathUnit unit = true := by
  intro unit member
  rcases List.mem_flatMap.mp member with ⟨point, listed, inPoint⟩
  rw [encodePathPoint] at inPoint
  split_ifs at inPoint with isEncoded
  · rcases List.mem_flatMap.mp inPoint with ⟨byte, _, inByte⟩
    exact isPathUnit_of_isComponentUnit (isComponentUnit_of_mem_percentByte inByte)
  · have small : point ≤ 0x7E := by
      simp only [isPathEncoded, Bool.or_eq_true, decide_eq_true_eq, not_or] at isEncoded
      omega
    have isUnit := List.mem_singleton.mp inPoint
    have value : unit.toNat = point := by
      rw [isUnit, UInt16.toNat_ofNat']
      omega
    rw [isPathUnit, value, Bool.eq_false_iff.mpr isEncoded, isUnit,
      clean _ (mem_of_mem_scalarValues listed small)]
    rfl

/-- Resolving leaves normal segments, at least one. -/
theorem resolvePath_spec {path segments : List JsString}
    (pathNormal : ∀ segment ∈ path, NormalSegment segment)
    (units : ∀ segment ∈ segments, ∀ unit ∈ segment, isPathUnit unit = true) :
    (∀ segment ∈ resolvePath path segments, NormalSegment segment) ∧
      (segments ≠ [] → resolvePath path segments ≠ []) := by
  have emptyNormal : NormalSegment [] := ⟨by simp, by decide, by decide⟩
  fun_induction resolvePath path segments with
  | case1 => exact ⟨pathNormal, fun nonempty => absurd rfl nonempty⟩
  | case2 path last isDouble =>
      constructor
      · intro segment member
        rcases List.mem_append.mp member with inPath | isEmpty
        · exact pathNormal segment (List.dropLast_subset path inPath)
        · rwa [List.mem_singleton.mp isEmpty]
      · simp
  | case3 path last notDouble isSingle =>
      constructor
      · intro segment member
        rcases List.mem_append.mp member with inPath | isEmpty
        · exact pathNormal segment inPath
        · rwa [List.mem_singleton.mp isEmpty]
      · simp
  | case4 path last notDouble notSingle =>
      constructor
      · intro segment member
        rcases List.mem_append.mp member with inPath | isLast
        · exact pathNormal segment inPath
        · rw [List.mem_singleton.mp isLast]
          exact ⟨units last List.mem_cons_self, Bool.eq_false_iff.mpr notSingle,
            Bool.eq_false_iff.mpr notDouble⟩
      · simp
  | case5 path segment next rest isDouble ih =>
      have found := ih (fun other member => pathNormal other (List.dropLast_subset path member))
        fun other member => units other (List.mem_cons_of_mem segment member)
      exact ⟨found.1, fun _ => found.2 (List.cons_ne_nil next rest)⟩
  | case6 path segment next rest notDouble isSingle ih =>
      have found := ih pathNormal
        fun other member => units other (List.mem_cons_of_mem segment member)
      exact ⟨found.1, fun _ => found.2 (List.cons_ne_nil next rest)⟩
  | case7 path segment next rest notDouble notSingle ih =>
      have extended : ∀ other ∈ path ++ [segment], NormalSegment other := by
        intro other member
        rcases List.mem_append.mp member with inPath | isSegment
        · exact pathNormal other inPath
        · rw [List.mem_singleton.mp isSegment]
          exact ⟨units segment List.mem_cons_self, Bool.eq_false_iff.mpr notSingle,
            Bool.eq_false_iff.mpr notDouble⟩
      have found := ih extended fun other member =>
        units other (List.mem_cons_of_mem segment member)
      exact ⟨found.1, fun _ => found.2 (List.cons_ne_nil next rest)⟩

/-- What a path is after it has been set. -/
theorem exists_setPathname (text : JsString) :
    ∃ path, path ≠ [] ∧ (∀ segment ∈ path, NormalSegment segment) ∧
      setPathname text = pathname path := by
  have units : ∀ segment ∈ ((dropSlash (text.filter (!isDropped ·))).splitOnP isSlash).map
      encodePathSegment, ∀ unit ∈ segment, isPathUnit unit = true := by
    intro segment listed
    rcases List.mem_map.mp listed with ⟨piece, inPieces, rfl⟩
    exact isPathUnit_of_mem_encodePathSegment (Text.of_mem_splitOnP inPieces)
  have resolved := resolvePath_spec (List.forall_mem_nil _) units
  refine ⟨_, resolved.2 ?_, resolved.1, rfl⟩
  simp [List.splitOnP_ne_nil]

/-! ## Encoded components -/

/-- An encoded byte in lower case. -/
def loweredByte (byte : UInt8) : JsString := (encodeByte byte).map lowerUnit

theorem dot_of_loweredByte {byte : UInt8} {rest tail : JsString}
    (starts : loweredByte byte ++ rest = ofChar '.' :: tail) : byte = 0x2E ∧ rest = tail := by
  have decided : ∀ n < 256, (loweredByte (UInt8.ofNat n)).head? = some (ofChar '.') → n = 0x2E := by
    decide +kernel
  have bounded := byte.toNat_lt
  have isDot : byte = 0x2E := by
    have found := decided byte.toNat bounded
    rw [UInt8.ofNat_toNat] at found
    have head := congrArg List.head? starts
    rw [List.head?_append_of_ne_nil _ (by simp [loweredByte, encodeByte_ne_nil])] at head
    exact UInt8.toNat_inj.mp (found head)
  rw [isDot] at starts
  exact ⟨isDot, (List.cons.inj starts).2⟩

theorem not_dot_of_loweredByte {byte : UInt8} {rest tail : JsString} :
    loweredByte byte ++ rest ≠ ofString "%2e" ++ tail := by
  intro starts
  have decided : ∀ n < 256, (loweredByte (UInt8.ofNat n)).head? = some (ofChar '%') →
      (loweredByte (UInt8.ofNat n)).length = 3 ∧ loweredByte (UInt8.ofNat n) ≠ ofString "%2e" := by
    decide +kernel
  have found := decided byte.toNat byte.toNat_lt
  rw [UInt8.ofNat_toNat] at found
  have head := congrArg List.head? starts
  rw [List.head?_append_of_ne_nil _ (by simp [loweredByte, encodeByte_ne_nil])] at head
  rcases found head with ⟨three, differs⟩
  exact differs (List.append_inj_left starts three)

/-- A dot is never written in its longer spelling. -/
theorem dots_of_loweredBytes {bytes : List UInt8} :
    (bytes.flatMap loweredByte ∈ [ofString ".", ofString "%2e"] → bytes = [0x2E]) ∧
      (bytes.flatMap loweredByte ∈ [ofString "..", ofString ".%2e", ofString "%2e.",
        ofString "%2e%2e"] → bytes = [0x2E, 0x2E]) := by
  have nothing : ∀ {others : List UInt8}, others.flatMap loweredByte = [] → others = [] := by
    intro others empty
    cases others with
    | nil => rfl
    | cons byte others => simp [loweredByte, encodeByte_ne_nil] at empty
  have dotFirst : ∀ {others : List UInt8} (tail : JsString),
      others.flatMap loweredByte = ofChar '.' :: tail →
        ∃ later, others = 0x2E :: later ∧ later.flatMap loweredByte = tail := by
    intro others tail same
    cases others with
    | nil => simp at same
    | cons byte later =>
        rcases dot_of_loweredByte (List.flatMap_cons ▸ same) with ⟨rfl, sameTail⟩
        exact ⟨later, rfl, sameTail⟩
  have notLong : ∀ {others : List UInt8} (tail : JsString),
      others.flatMap loweredByte ≠ ofString "%2e" ++ tail := by
    intro others tail same
    cases others with
    | nil => exact absurd same.symm (List.append_ne_nil_of_left_ne_nil (by decide) tail)
    | cons byte later => exact not_dot_of_loweredByte (List.flatMap_cons ▸ same)
  constructor
  · intro listed
    simp only [List.mem_cons, List.not_mem_nil, or_false] at listed
    rcases listed with short | long
    · rcases dotFirst [] short with ⟨later, rfl, empty⟩
      rw [nothing empty]
    · exact absurd long (notLong [])
  · intro listed
    simp only [List.mem_cons, List.not_mem_nil, or_false] at listed
    rcases listed with both | second | first | neither
    · rcases dotFirst (ofString ".") both with ⟨later, rfl, more⟩
      rcases dotFirst [] more with ⟨rest, rfl, empty⟩
      rw [nothing empty]
    · rcases dotFirst (ofString "%2e") second with ⟨later, rfl, more⟩
      exact absurd more (notLong [])
    · exact absurd first (notLong (ofString "."))
    · exact absurd neither (notLong (ofString "%2e"))

/-- The encoding of a string is a dot segment only if the string is one. -/
theorem normalSegment_of_encodes {s encoded : JsString}
    (encodes : encodeURIComponent s = some encoded) (notDot : s ≠ ofString ".")
    (notDots : s ≠ ofString "..") : NormalSegment encoded := by
  have dotEncodes : encodeURIComponent (ofString ".") = some (ofString ".") := by decide
  have dotsEncode : encodeURIComponent (ofString "..") = some (ofString "..") := by decide
  have parts := Option.map_eq_some_iff.mp encodes
  rcases parts with ⟨points, read, rfl⟩
  have lowered : ((points.flatMap utf8).flatMap encodeByte).map lowerUnit =
      (points.flatMap utf8).flatMap loweredByte := List.map_flatMap
  constructor
  · intro unit member
    exact isPathUnit_of_isComponentUnit (isComponentUnit_of_mem encodes unit member)
  · by_contra isDot
    rw [Bool.not_eq_false, isSingleDot, any_eq_true_iff_mem, lowered] at isDot
    have bytes := dots_of_loweredBytes.1 isDot
    rw [bytes] at encodes
    exact notDot (encodeURIComponent_injective encodes dotEncodes)
  · by_contra isDots
    rw [Bool.not_eq_false, isDoubleDot, any_eq_true_iff_mem, lowered] at isDots
    have bytes := dots_of_loweredBytes.2 isDots
    rw [bytes] at encodes
    exact notDots (encodeURIComponent_injective encodes dotsEncode)

/-- A byte that is escaped takes up three units, of which only the first is a percent sign. -/
theorem loweredByte_facts (byte : UInt8) :
    ofChar '%' ∉ (loweredByte byte).tail ∧
      ((loweredByte byte).head? = some (ofChar '%') → (loweredByte byte).length = 3) := by
  have decided : ∀ n < 256, ofChar '%' ∉ (loweredByte (UInt8.ofNat n)).tail ∧
      ((loweredByte (UInt8.ofNat n)).head? = some (ofChar '%') →
        (loweredByte (UInt8.ofNat n)).length = 3) := by
    decide +kernel
  have found := decided byte.toNat byte.toNat_lt
  rwa [UInt8.ofNat_toNat] at found

/-- What looks like an escape in encoded bytes is the escape of one of them. -/
theorem exists_loweredByte {bytes : List UInt8} {before after : JsString} {high low : UInt16}
    (spelled : bytes.flatMap loweredByte = before ++ ofChar '%' :: high :: low :: after) :
    ∃ byte ∈ bytes, loweredByte byte = [ofChar '%', high, low] := by
  induction bytes generalizing before with
  | nil => simp at spelled
  | cons byte rest ih =>
      rw [List.flatMap_cons] at spelled
      rcases List.append_eq_append_iff.mp spelled with ⟨more, _, later⟩ | ⟨more, here, marked⟩
      · rcases ih later with ⟨other, listed, escaped⟩
        exact ⟨other, List.mem_cons_of_mem byte listed, escaped⟩
      · cases more with
        | nil =>
            rcases @ih [] marked.symm with ⟨other, listed, escaped⟩
            exact ⟨other, List.mem_cons_of_mem byte listed, escaped⟩
        | cons mark more =>
            rcases List.cons.inj marked with ⟨rfl, sameRest⟩
            have facts := loweredByte_facts byte
            cases before with
            | nil =>
                have three := facts.2 (by rw [here]; rfl)
                rw [here] at three
                rcases List.length_eq_two.mp (Nat.succ.inj three) with ⟨first, second, rfl⟩
                rcases List.cons.inj sameRest with ⟨rfl, sameLater⟩
                rcases List.cons.inj sameLater with ⟨rfl, _⟩
                exact ⟨byte, List.mem_cons_self, here⟩
            | cons unit before =>
                rw [here] at facts
                exact absurd (List.mem_append_right before List.mem_cons_self) facts.1

/-- No slash or backslash is spelled as an escape, which some servers read as one. -/
def NoEscapedSlash (segment : JsString) : Prop :=
  ∀ escape ∈ [ofString "%2f", ofString "%5c"], ¬escape <:+: segment.map lowerUnit

/-- The encoding of a string spells a slash only if there is one in the string. -/
theorem noEscapedSlash_of_encodes {s encoded : JsString}
    (encodes : encodeURIComponent s = some encoded) (free : ∀ unit ∈ s, isSlash unit = false) :
    NoEscapedSlash encoded := by
  rcases Option.map_eq_some_iff.mp encodes with ⟨points, read, rfl⟩
  intro escape listed ⟨before, after, spelled⟩
  have slashes : ∀ escape ∈ [ofString "%2f", ofString "%5c"],
      ∃ high low, escape = [ofChar '%', high, low] ∧
        ∀ n < 256, loweredByte (UInt8.ofNat n) = escape → isSlash (UInt16.ofNat n) = true := by
    rw [List.forall_mem_cons, List.forall_mem_singleton]
    exact ⟨⟨ofChar '2', ofChar 'f', by decide, by decide +kernel⟩,
      ⟨ofChar '5', ofChar 'c', by decide, by decide +kernel⟩⟩
  rcases slashes escape listed with ⟨high, low, rfl, isEscape⟩
  have lowered : ((points.flatMap utf8).flatMap encodeByte).map lowerUnit =
      (points.flatMap utf8).flatMap loweredByte := List.map_flatMap
  rw [lowered, List.append_assoc] at spelled
  rcases exists_loweredByte spelled.symm with ⟨byte, inBytes, escaped⟩
  rcases List.mem_flatMap.mp inBytes with ⟨point, inPoints, inPoint⟩
  have slash := isEscape byte.toNat byte.toNat_lt (by rw [UInt8.ofNat_toNat, escaped])
  have ascii : byte.toNat < 0x80 := by
    have decided : ∀ n < 256, isSlash (UInt16.ofNat n) = true → n < 0x80 := by decide +kernel
    exact decided byte.toNat byte.toNat_lt slash
  have isUnit : UInt16.ofNat byte.toNat ∈ s := by
    rw [← flatMap_pointUnits read, List.mem_flatMap]
    refine ⟨point, inPoints, ?_⟩
    rw [← eq_of_ascii_mem_utf8 (codePoints_lt read point inPoints) inPoint ascii, pointUnits,
      if_pos (by omega)]
    exact List.mem_singleton.mpr rfl
  exact Bool.noConfusion ((free _ isUnit).symm.trans slash)

end Foundation.JsString
