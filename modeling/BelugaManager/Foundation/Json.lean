import BelugaManager.Foundation.NumberText

/-!
# Values of JSON texts

What `JSON.parse` returns, with the ways in which untyped code looks at such values and the
schemas that read them.  An absent member is `none`; looking for a member of `null` throws.
-/

namespace Foundation

/-- The entries of an object stand in the order in which they are enumerated, each name
once. -/
inductive Json where
  | null
  | boolean (value : Bool)
  | number (value : JsNumber)
  | string (value : JsString)
  | array (items : List Json)
  | object (entries : List (JsString × Json))

namespace Json

/-- The member under a name. -/
def member (name : String) : Json → Option Json
  | .object entries => (entries.find? (·.1 = JsString.ofString name)).map Prod.snd
  | _ => none

/-- `typeof v === 'object' && v !== null` -/
def isObject : Json → Bool
  | .array _ => true
  | .object _ => true
  | _ => false

def isString : Json → Bool
  | .string _ => true
  | _ => false

def isTruthy : Json → Bool
  | .null => false
  | .boolean value => value
  | .number value => value ≠ .nan ∧ value ≠ .finite 0
  | .string value => value ≠ []
  | .array _ => true
  | .object _ => true

/-- `v || fallback` -/
def orElse (value : Option Json) (fallback : Json) : Json :=
  match value with
  | some found => if found.isTruthy then found else fallback
  | none => fallback

/-- `Object.entries(v)` of a value that is not `null`. -/
def entries : Json → List (JsString × Json)
  | .object entries => entries
  | .array items => items.zipIdx.map fun item => (JsString.ofString (toString item.2), item.1)
  | .string value =>
      value.zipIdx.map fun unit => (JsString.ofString (toString unit.2), .string [unit.1])
  | _ => []

section Schema

variable {α : Type}

/-- `z.string()` -/
def text : Json → Option JsString
  | .string value => some value
  | _ => none

/-- `z.string().min(1)` -/
def nonemptyText (body : Json) : Option JsString := body.text.filter (· ≠ [])

/-- `z.array(…)` -/
def listOf (read : Json → Option α) : Json → Option (List α)
  | .array items => items.mapM read
  | _ => none

/-- `z.record(z.string(), z.string())` -/
def record : Json → Option (List (JsString × JsString))
  | .object entries => entries.mapM fun entry => entry.2.text.map (entry.1, ·)
  | _ => none

/-- A key that may be missing. -/
def optionalField (name : String) (read : Json → Option α) (body : Json) : Option (Option α) :=
  match body.member name with
  | none => some none
  | some value => (read value).map some

/-- `….nullish()` -/
def nullish (read : Json → Option α) : Json → Option (Option α)
  | .null => some none
  | body => (read body).map some

/-- A key that may be missing or null. -/
def nullishField (name : String) (read : Json → Option α) (body : Json) : Option (Option α) :=
  (body.optionalField name (nullish read)).map Option.join

end Schema

section Text

variable (r : Rounding)

mutual

/-- `String(v)`; an object with a member `toString` throws. -/
def toText : Json → Option JsString
  | .null => some (JsString.ofString "null")
  | .boolean value => some (JsString.ofString (if value then "true" else "false"))
  | .number value => some (value.toText r)
  | .string value => some value
  | .array items => joinTexts items
  | .object entries =>
      if entries.any (·.1 = JsString.ofString "toString") then none
      else some (JsString.ofString "[object Object]")

/-- The items joined by commas, with nothing for `null`. -/
def joinTexts : List Json → Option JsString
  | [] => some []
  | .null :: rest =>
      (joinTexts rest).map fun tail => if rest.isEmpty then [] else JsString.ofChar ',' :: tail
  | item :: rest =>
      (toText item).bind fun text => (joinTexts rest).map fun tail =>
        if rest.isEmpty then text else text ++ JsString.ofChar ',' :: tail

end

end Text

end Json

end Foundation
