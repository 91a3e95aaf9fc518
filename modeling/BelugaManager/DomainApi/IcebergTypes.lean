import BelugaManager.Foundation.Json
import BelugaManager.Foundation.SeparatedCode

/-!
# Types of columns

`renderIcebergType` of `upstream/lakekeeperCatalog.ts` writes the type of a column as text, with
four levels of parts at most.  Types that are the same that far have the same text, and no others.
-/

namespace BelugaManager.DomainApi

open Foundation Foundation.JsString

def COMPLEX : JsString := ofString "complex"

def comma : UInt16 := ofChar ','

def colon : UInt16 := ofChar ':'

def openAngle : UInt16 := ofChar '<'

def closeAngle : UInt16 := ofChar '>'

def COMMA_SPACE : JsString := [comma, ofChar ' ']

def COLON_SPACE : JsString := [colon, ofChar ' ']

/-- The types that have parts. -/
inductive TypeKind where
  | struct
  | list
  | map
  deriving DecidableEq

def TypeKind.text : TypeKind → String
  | .struct => "struct"
  | .list => "list"
  | .map => "map"

/-- A type with the text of its parts. -/
def withParts (kind : TypeKind) (parts : JsString) : JsString :=
  ofString kind.text ++ openAngle :: (parts ++ [closeAngle])

section Render

variable (r : Rounding)

/-- `String(v)` of a member, which may be absent. -/
def memberText : Option Json → Option JsString
  | none => some (ofString "undefined")
  | some value => value.toText r

/-- `t["type"] === kind` -/
def isOfKind (type : Json) (kind : TypeKind) : Bool :=
  match type.member "type" with
  | some (.string text) => text = ofString kind.text
  | _ => false

/-- The items of a member that is an array. -/
def arrayItems : Option Json → List Json
  | some (.array items) => items
  | _ => []

/-- One field of a struct; there are no members of `null`. -/
def renderField (render : Option Json → Option JsString) :
    Json → Option JsString
  | .null => none
  | field => do
      let name ← memberText r (field.member "name")
      let type ← render (field.member "type")
      pure (name ++ COLON_SPACE ++ type)

/-- The text of a type with the levels that are left. Arrays have no members. -/
def renderLevels : ℕ → Option Json → Option JsString
  | _, some (.string text) => some text
  | levels + 1, some (.object entries) =>
      let type := Json.object entries
      if isOfKind type .struct then do
        let fields ← (arrayItems (type.member "fields")).mapM (renderField r (renderLevels levels))
        pure (withParts .struct (COMMA_SPACE.intercalate fields))
      else if isOfKind type .list then do
        let element ← renderLevels levels (type.member "element")
        pure (withParts .list element)
      else if isOfKind type .map then do
        let key ← renderLevels levels (type.member "key")
        let value ← renderLevels levels (type.member "value")
        pure (withParts .map (key ++ COMMA_SPACE ++ value))
      else some COMPLEX
  | _, _ => some COMPLEX

/-- The text of a type at a depth; nothing if it throws. -/
def renderIcebergType (type : Option Json) (depth : ℕ) : Option JsString :=
  renderLevels r (4 - depth) type

end Render

/-! ## Types -/

/-- A name that ends at the colon behind it and that is not taken for the end of a struct. -/
structure FieldName where
  text : JsString
  colonFree : colon ∉ text
  opens : text.head? ≠ some closeAngle

/-- What the word of a primitive type is made of. -/
def isTypeUnit (unit : UInt16) : Bool :=
  !(unit = openAngle || unit = closeAngle || unit = comma || unit = ofChar '(')

/-- A type without parts: a word, and what is in the parentheses behind it. -/
structure PrimitiveType where
  word : JsString
  arguments : Option JsString
  plain : ∀ unit ∈ word, isTypeUnit unit = true
  closes : ∀ inner ∈ arguments, ofChar ')' ∉ inner

namespace PrimitiveType

def argumentText : Option JsString → JsString
  | none => []
  | some inner => ofChar '(' :: (inner ++ [ofChar ')'])

def text (type : PrimitiveType) : JsString := type.word ++ argumentText type.arguments

end PrimitiveType

theorem isTypeUnit_of_mem_complex : ∀ unit ∈ COMPLEX, isTypeUnit unit = true :=
  List.all_eq_true.mp (by decide)

theorem notMem_of_mem_none {unit : UInt16} : ∀ inner ∈ (none : Option JsString), unit ∉ inner := by
  intro inner member
  cases member

/-- What stands for a type that lies too deep. -/
def complexType : PrimitiveType where
  word := COMPLEX
  arguments := none
  plain := isTypeUnit_of_mem_complex
  closes := notMem_of_mem_none

inductive IcebergType where
  | primitive (word : PrimitiveType)
  | struct (fields : List (FieldName × IcebergType))
  | list (element : IcebergType)
  | map (key value : IcebergType)

namespace IcebergType

/-- A type without what lies deeper than some levels. -/
def cut : ℕ → IcebergType → IcebergType
  | _, .primitive word => .primitive word
  | 0, _ => .primitive complexType
  | levels + 1, .struct fields => .struct (fields.map fun field => (field.1, field.2.cut levels))
  | levels + 1, .list element => .list (element.cut levels)
  | levels + 1, .map key value => .map (key.cut levels) (value.cut levels)

/-- The text of a type with some levels. -/
def text : ℕ → IcebergType → JsString
  | _, .primitive word => word.text
  | 0, _ => complexType.text
  | levels + 1, .struct fields =>
      withParts .struct (COMMA_SPACE.intercalate
        (fields.map fun field => field.1.text ++ (COLON_SPACE ++ field.2.text levels)))
  | levels + 1, .list element => withParts .list (element.text levels)
  | levels + 1, .map key value =>
      withParts .map (key.text levels ++ (COMMA_SPACE ++ value.text levels))

end IcebergType

/-- A value is the description of a type, whatever other members it has. -/
inductive Describes : Json → IcebergType → Prop
  | primitive (word : PrimitiveType) : Describes (.string word.text) (.primitive word)
  | struct {entries : List (JsString × Json)} {items types : List Json}
      {fields : List (FieldName × IcebergType)}
      (kind : (Json.object entries).member "type" =
        some (.string (ofString TypeKind.struct.text)))
      (listed : (Json.object entries).member "fields" = some (.array items))
      (named : items.map (·.member "name") = fields.map fun field => some (.string field.1.text))
      (typed : items.map (·.member "type") = types.map some)
      (described : List.Forall₂ (fun type field => Describes type field.2) types fields) :
      Describes (.object entries) (.struct fields)
  | list {entries : List (JsString × Json)} {element : Json}
      {type : IcebergType}
      (kind : (Json.object entries).member "type" =
        some (.string (ofString TypeKind.list.text)))
      (listed : (Json.object entries).member "element" = some element)
      (described : Describes element type) : Describes (.object entries) (.list type)
  | map {entries : List (JsString × Json)} {key value : Json}
      {keyType valueType : IcebergType}
      (kind : (Json.object entries).member "type" =
        some (.string (ofString TypeKind.map.text)))
      (keyed : (Json.object entries).member "key" = some key)
      (valued : (Json.object entries).member "value" = some value)
      (keyDescribed : Describes key keyType) (valueDescribed : Describes value valueType) :
      Describes (.object entries) (.map keyType valueType)

/-! ## What a text shows -/

/-- A type ends where its text does, at a comma or at the end of what it is a part of. -/
def EndsType (rest : JsString) : Prop := ∀ unit ∈ rest.head?, unit = comma ∨ unit = closeAngle

theorem EndsType.startsOutside {rest : JsString} (ends : EndsType rest) :
    StartsOutside isTypeUnit rest := by
  intro unit first
  rcases ends unit first with rfl | rfl
  · decide
  · decide

theorem endsType_of_head {rest : JsString} {unit : UInt16} (starts : rest.head? = some unit)
    (ends : unit = comma ∨ unit = closeAngle) : EndsType rest := by
  intro first isFirst
  rw [starts] at isFirst
  cases isFirst
  exact ends

/-- Neither the parts nor the arguments of a type are where a type can end. -/
theorem not_endsType {unit : UInt16} {rest : JsString}
    (other : unit = openAngle ∨ unit = ofChar '(') : ¬EndsType (unit :: rest) := by
  intro ends
  have isEnd := ends unit rfl
  rcases other with rfl | rfl
  · exact absurd isEnd (by decide)
  · exact absurd isEnd (by decide)

namespace PrimitiveType

theorem startsOutside_arguments (arguments : Option JsString) {rest : JsString}
    (ends : EndsType rest) : StartsOutside isTypeUnit (argumentText arguments ++ rest) := by
  cases arguments with
  | none => exact ends.startsOutside
  | some inner => exact startsOutside_cons _ (by decide)

theorem argumentText_inj {arguments others : Option JsString} {rest rest' : JsString}
    (closes : ∀ inner ∈ arguments, ofChar ')' ∉ inner)
    (closes' : ∀ inner ∈ others, ofChar ')' ∉ inner) (ends : EndsType rest)
    (ends' : EndsType rest')
    (same : argumentText arguments ++ rest = argumentText others ++ rest') :
    arguments = others ∧ rest = rest' := by
  cases arguments with
  | none =>
      cases others with
      | none => exact ⟨rfl, same⟩
      | some inner =>
          rw [argumentText, List.nil_append] at same
          rw [same] at ends
          exact absurd ends (not_endsType (.inr rfl))
  | some inner =>
      cases others with
      | none =>
          rw [argumentText, argumentText, List.nil_append] at same
          rw [← same] at ends'
          exact absurd ends' (not_endsType (.inr rfl))
      | some inner' =>
          rw [argumentText, argumentText, List.cons_append, List.cons_append, List.append_assoc,
            List.append_assoc] at same
          rcases append_stop_inj (closes inner rfl) (closes' inner' rfl) (List.cons.inj same).2 with
            ⟨rfl, sameRest⟩
          exact ⟨rfl, sameRest⟩

theorem tellsApart : TellsApart EndsType text id := by
  intro type other rest rest' ends ends' same
  rw [text, text, List.append_assoc, List.append_assoc] at same
  rcases append_span_inj type.plain other.plain (startsOutside_arguments _ ends)
    (startsOutside_arguments _ ends') same with ⟨sameWord, sameTail⟩
  rcases argumentText_inj type.closes other.closes ends ends' sameTail with
    ⟨sameArguments, sameRest⟩
  cases type
  cases other
  cases sameWord
  cases sameArguments
  exact ⟨rfl, sameRest⟩

end PrimitiveType

theorem FieldName.tellsApart :
    TellsApart (fun rest : JsString => rest.head? = some colon) FieldName.text id := by
  intro name other rest rest' ends ends' same
  rcases List.head?_eq_some_iff.mp ends with ⟨tail, rfl⟩
  rcases List.head?_eq_some_iff.mp ends' with ⟨tail', rfl⟩
  rcases append_stop_inj name.colonFree other.colonFree same with ⟨sameText, sameTail⟩
  cases name
  cases other
  cases sameText
  exact ⟨rfl, by rw [sameTail]⟩

theorem TypeKind.isTypeUnit_of_mem (kind : TypeKind) :
    ∀ unit ∈ ofString kind.text, isTypeUnit unit = true := by
  cases kind <;> exact List.all_eq_true.mp (by decide)

theorem TypeKind.eq_of_text {kind other : TypeKind}
    (same : ofString kind.text = ofString other.text) : kind = other := by
  cases kind <;> cases other <;> first | rfl | exact absurd same (by decide)

theorem withParts_append (kind : TypeKind) (parts rest : JsString) :
    withParts kind parts ++ rest =
      ofString kind.text ++ openAngle :: (parts ++ closeAngle :: rest) := by
  simp [withParts]

theorem withParts_inj {kind other : TypeKind} {parts parts' rest rest' : JsString}
    (same : withParts kind parts ++ rest = withParts other parts' ++ rest') :
    kind = other ∧ parts ++ closeAngle :: rest = parts' ++ closeAngle :: rest' := by
  rw [withParts_append, withParts_append] at same
  rcases append_span_inj kind.isTypeUnit_of_mem other.isTypeUnit_of_mem
    (startsOutside_cons _ (by decide)) (startsOutside_cons _ (by decide)) same with
    ⟨sameKind, sameTail⟩
  exact ⟨TypeKind.eq_of_text sameKind, (List.cons.inj sameTail).2⟩

/-- A type without parts is not followed by any. -/
theorem primitive_ne_withParts {word : PrimitiveType} {kind : TypeKind}
    {parts rest rest' : JsString} (ends : EndsType rest) :
    word.text ++ rest ≠ withParts kind parts ++ rest' := by
  intro same
  rw [withParts_append, PrimitiveType.text, List.append_assoc] at same
  have tails := (append_span_inj word.plain kind.isTypeUnit_of_mem
    (PrimitiveType.startsOutside_arguments _ ends) (startsOutside_cons _ (by decide)) same).2
  cases isGiven : word.arguments with
  | none =>
      rw [isGiven, PrimitiveType.argumentText, List.nil_append] at tails
      rw [tails] at ends
      exact not_endsType (.inl rfl) ends
  | some inner =>
      rw [isGiven, PrimitiveType.argumentText, List.cons_append] at tails
      exact absurd (List.cons.inj tails).1 (by decide)

namespace IcebergType

def fieldText (levels : ℕ) (field : FieldName × IcebergType) : JsString :=
  field.1.text ++ (COLON_SPACE ++ field.2.text levels)

/-- A part in front of another part ends where the comma stands. -/
theorem endsType_comma (rest : JsString) : EndsType (COMMA_SPACE ++ rest) :=
  endsType_of_head rfl (.inl rfl)

theorem endsType_close {rest : JsString} (starts : rest.head? = some closeAngle) : EndsType rest :=
  endsType_of_head starts (.inr rfl)

/-- A field does not start like the end of a struct. -/
theorem fieldText_head (levels : ℕ) (field : FieldName × IcebergType) (rest : JsString) :
    (fieldText levels field ++ rest).head? ≠ some closeAngle := by
  rcases field with ⟨name, type⟩
  rw [fieldText, List.append_assoc, List.append_assoc]
  intro starts
  cases isText : name.text with
  | nil =>
      rw [isText] at starts
      exact absurd (Option.some.inj starts) (by decide)
  | cons first others =>
      rw [isText] at starts
      exact name.opens (by rw [isText]; exact starts)

theorem fieldText_tellsApart {levels : ℕ}
    (types : TellsApart EndsType (text levels) (cut levels)) :
    TellsApart EndsType (fieldText levels) fun field => (field.1, field.2.cut levels) :=
  FieldName.tellsApart.pair (types.behind COLON_SPACE) fun _ _ => rfl

theorem fields_tellsApart {levels : ℕ}
    (types : TellsApart EndsType (text levels) (cut levels)) :
    TellsApart (fun rest : JsString => rest.head? = some closeAngle)
      (fun fields => COMMA_SPACE.intercalate (fields.map (fieldText levels)))
      (List.map fun field => (field.1, field.2.cut levels)) := by
  apply (fieldText_tellsApart types).separated
  · exact fieldText_head levels
  · intro rest starts
    exact absurd (Option.some.inj starts) (by decide)
  · exact endsType_comma
  · intro rest starts
    exact endsType_close starts

theorem keyValue_tellsApart {levels : ℕ}
    (types : TellsApart EndsType (text levels) (cut levels)) :
    TellsApart EndsType
      (fun both : IcebergType × IcebergType =>
        both.1.text levels ++ (COMMA_SPACE ++ both.2.text levels))
      fun both => (both.1.cut levels, both.2.cut levels) :=
  types.pair (types.behind COMMA_SPACE) fun _ _ => by
    rw [List.append_assoc]
    exact endsType_comma _

/-- The word that stands for a type when there are no levels left. -/
def leaf : IcebergType → PrimitiveType
  | .primitive word => word
  | _ => complexType

theorem text_zero (type : IcebergType) : type.text 0 = type.leaf.text := by
  cases type <;> rfl

theorem cut_zero (type : IcebergType) : type.cut 0 = .primitive type.leaf := by
  cases type <;> rfl

/-- One level more: types with parts are compared part by part. -/
theorem text_tellsApart_succ {levels : ℕ}
    (types : TellsApart EndsType (text levels) (cut levels)) :
    TellsApart EndsType (text (levels + 1)) (cut (levels + 1)) := by
  intro type other rest rest' ends ends' same
  cases type with
  | primitive word =>
      cases other with
      | primitive word' =>
          rcases PrimitiveType.tellsApart word word' rest rest' ends ends' same with
            ⟨sameWord, sameRest⟩
          exact ⟨congrArg primitive sameWord, sameRest⟩
      | struct fields => exact absurd same (primitive_ne_withParts ends)
      | list element => exact absurd same (primitive_ne_withParts ends)
      | map key value => exact absurd same (primitive_ne_withParts ends)
  | struct fields =>
      cases other with
      | primitive word => exact absurd same.symm (primitive_ne_withParts ends')
      | struct fields' =>
          rcases fields_tellsApart types fields fields' _ _ rfl rfl (withParts_inj same).2 with
            ⟨sameFields, sameTail⟩
          exact ⟨congrArg struct sameFields, (List.cons.inj sameTail).2⟩
      | list element => cases (withParts_inj same).1
      | map key value => cases (withParts_inj same).1
  | list element =>
      cases other with
      | primitive word => exact absurd same.symm (primitive_ne_withParts ends')
      | struct fields => cases (withParts_inj same).1
      | list element' =>
          rcases types element element' _ _ (endsType_close rfl) (endsType_close rfl)
            (withParts_inj same).2 with ⟨sameElement, sameTail⟩
          exact ⟨congrArg list sameElement, (List.cons.inj sameTail).2⟩
      | map key value => cases (withParts_inj same).1
  | map key value =>
      cases other with
      | primitive word => exact absurd same.symm (primitive_ne_withParts ends')
      | struct fields => cases (withParts_inj same).1
      | list element => cases (withParts_inj same).1
      | map key' value' =>
          rcases keyValue_tellsApart types (key, value) (key', value') _ _ (endsType_close rfl)
            (endsType_close rfl) (withParts_inj same).2 with ⟨sameParts, sameTail⟩
          exact ⟨congrArg₂ map (congrArg Prod.fst sameParts) (congrArg Prod.snd sameParts),
            (List.cons.inj sameTail).2⟩

theorem text_tellsApart (levels : ℕ) : TellsApart EndsType (text levels) (cut levels) := by
  induction levels with
  | zero =>
      intro type other rest rest' ends ends' same
      rw [text_zero, text_zero] at same
      rcases PrimitiveType.tellsApart type.leaf other.leaf rest rest' ends ends' same with
        ⟨sameLeaf, sameRest⟩
      rw [id, id] at sameLeaf
      exact ⟨by rw [cut_zero, cut_zero, sameLeaf], sameRest⟩
  | succ levels ih => exact text_tellsApart_succ ih

/-- Nothing of what is cut off is in the text. -/
theorem text_cut (levels : ℕ) (type : IcebergType) :
    (type.cut levels).text levels = type.text levels := by
  induction levels generalizing type with
  | zero => cases type <;> rfl
  | succ levels ih =>
      cases type with
      | primitive word => rfl
      | struct fields =>
          have sameFields : ((fields.map fun field => (field.1, field.2.cut levels)).map
              (fieldText levels)) = fields.map (fieldText levels) := by
            rw [List.map_map]
            apply List.map_congr_left
            intro field member
            exact congrArg (fun shown => field.1.text ++ (COLON_SPACE ++ shown)) (ih field.2)
          exact congrArg (withParts .struct <| COMMA_SPACE.intercalate ·) sameFields
      | list element => exact congrArg (withParts .list) (ih element)
      | map key value =>
          rw [cut, text, ih key, ih value]
          rfl

theorem text_eq_iff (levels : ℕ) (type other : IcebergType) :
    type.text levels = other.text levels ↔ type.cut levels = other.cut levels := by
  constructor
  · intro same
    have atEnd : EndsType [] := by
      intro unit first
      cases first
    exact (text_tellsApart levels).shown_eq atEnd same
  · intro same
    rw [← text_cut, same, text_cut]

end IcebergType

/-! ## Descriptions as text -/

section Descriptions

variable {r : Rounding}

theorem isOfKind_of_member {type : Json} {kind : TypeKind}
    (isKind : type.member "type" = some (.string (ofString kind.text))) (other : TypeKind) :
    isOfKind type other = decide (kind = other) := by
  simp only [isOfKind, isKind]
  exact decide_eq_decide.mpr ⟨TypeKind.eq_of_text, fun same => by rw [same]⟩

theorem renderField_eq {render : Option Json → Option JsString}
    {item type : Json} {field : FieldName × IcebergType} {levels : ℕ}
    (named : item.member "name" = some (.string field.1.text))
    (typed : item.member "type" = some type)
    (rendered : render (some type) = some (field.2.text levels)) :
    renderField r render item = some (IcebergType.fieldText levels field) := by
  cases item with
  | object entries =>
      rw [renderField, named, typed, rendered]
      · exact congrArg some (List.append_assoc _ _ _)
      · intro isNull
        cases isNull
  | null => cases named
  | boolean value => cases named
  | number value => cases named
  | string value => cases named
  | array items => cases named

/-- The fields of a struct, if every type that is described is rendered. -/
theorem renderFields_eq {levels : ℕ}
    (renders : ∀ {body : Json} {type : IcebergType}, Describes body type →
      renderLevels r levels (some body) = some (type.text levels))
    {types : List Json} {fields : List (FieldName × IcebergType)}
    (described : List.Forall₂ (fun type field => Describes type field.2) types fields)
    {items : List Json}
    (named : items.map (·.member "name") = fields.map fun field => some (.string field.1.text))
    (typed : items.map (·.member "type") = types.map some) :
    items.mapM (renderField r (renderLevels r levels)) =
      some (fields.map (IcebergType.fieldText levels)) := by
  induction described generalizing items with
  | nil =>
      rw [List.map_eq_nil_iff.mp typed]
      rfl
  | @cons type field types fields here later ih =>
      cases items with
      | nil => cases typed
      | cons item items =>
          rcases List.cons.inj named with ⟨namedHere, namedLater⟩
          rcases List.cons.inj typed with ⟨typedHere, typedLater⟩
          rw [List.mapM_cons, renderField_eq namedHere typedHere (renders here),
            ih namedLater typedLater]
          rfl

/-- What describes a type is rendered as its text. -/
theorem renderLevels_eq (levels : ℕ) {body : Json} {type : IcebergType}
    (describes : Describes body type) :
    renderLevels r levels (some body) = some (type.text levels) := by
  induction levels generalizing body type with
  | zero =>
      cases describes with
      | primitive word => rfl
      | struct kind listed named typed described => exact congrArg some (List.append_nil _).symm
      | list kind listed described => exact congrArg some (List.append_nil _).symm
      | map kind keyed valued keyDescribed valueDescribed =>
          exact congrArg some (List.append_nil _).symm
  | succ levels ih =>
      cases describes with
      | primitive word => rfl
      | struct kind listed named typed described =>
          simp only [renderLevels, isOfKind_of_member kind, listed, arrayItems,
            renderFields_eq ih described named typed]
          rfl
      | list kind listed described =>
          simp only [renderLevels, isOfKind_of_member kind, listed, ih described]
          rfl
      | map kind keyed valued keyDescribed valueDescribed =>
          simp only [renderLevels, isOfKind_of_member kind, keyed, valued, ih keyDescribed,
            ih valueDescribed]
          exact congrArg (fun parts => some (withParts .map parts)) (List.append_assoc _ _ _)

/-- Two columns show the same type exactly if their types are the same down to four levels. -/
theorem types_told_apart {body other : Json} {type type' : IcebergType}
    (describes : Describes body type) (describes' : Describes other type') :
    renderIcebergType r (some body) 0 = some (type.text 4) ∧
      (renderIcebergType r (some body) 0 = renderIcebergType r (some other) 0 ↔
        type.cut 4 = type'.cut 4) := by
  have rendered : renderIcebergType r (some body) 0 = some (type.text 4) :=
    renderLevels_eq 4 describes
  have rendered' : renderIcebergType r (some other) 0 = some (type'.text 4) :=
    renderLevels_eq 4 describes'
  refine ⟨rendered, ?_⟩
  rw [rendered, rendered', Option.some.injEq]
  exact IcebergType.text_eq_iff 4 type type'

end Descriptions

/-! A text of lists that lie in each other shows what they are lists of, unless that is too deep. -/

def listsOf : ℕ → JsString → Json
  | 0, word => .string word
  | count + 1, word => .object [(ofString "type", .string (ofString TypeKind.list.text)),
      (ofString "element-id", .number (.finite 1)), (ofString "element", listsOf count word)]

def IcebergType.lists : ℕ → PrimitiveType → IcebergType
  | 0, word => .primitive word
  | count + 1, word => .list (lists count word)

theorem describes_listsOf (count : ℕ) (word : PrimitiveType) :
    Describes (listsOf count word.text) (IcebergType.lists count word) := by
  induction count with
  | zero => exact .primitive word
  | succ count ih => exact .list rfl rfl ih

theorem isTypeUnit_of_mem_decimal : ∀ unit ∈ ofString "decimal", isTypeUnit unit = true :=
  List.all_eq_true.mp (by decide)

theorem notMem_of_mem_digits : ∀ inner ∈ some (ofString "9,2"), ofChar ')' ∉ inner := by
  intro inner member
  cases member
  decide

def decimalType : PrimitiveType where
  word := ofString "decimal"
  arguments := some (ofString "9,2")
  plain := isTypeUnit_of_mem_decimal
  closes := notMem_of_mem_digits

theorem types_told_apart_lists :
    renderIcebergType Rounding.lossless (some (listsOf 4 decimalType.text)) 0 ≠
        renderIcebergType Rounding.lossless (some (listsOf 4 complexType.text)) 0 ∧
      renderIcebergType Rounding.lossless (some (listsOf 5 decimalType.text)) 0 =
        renderIcebergType Rounding.lossless (some (listsOf 5 complexType.text)) 0 := by
  constructor
  · intro same
    have sameCut := (types_told_apart (describes_listsOf 4 decimalType)
      (describes_listsOf 4 complexType)).2.mp same
    exact absurd (congrArg (IcebergType.text 4) sameCut) (by decide)
  · exact (types_told_apart (describes_listsOf 5 decimalType)
      (describes_listsOf 5 complexType)).2.mpr rfl

end BelugaManager.DomainApi
