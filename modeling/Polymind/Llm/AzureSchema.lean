import Polymind.Lib.JsonSchema
import Polymind.Lib.Except

/-!
# Strict provider schemas

`provider_schema` of `llm/azure_schema.py`: the conversion of a closed application schema into the
strict subset, the count of its properties and the check of its depth.  Functions that call
themselves are given rounds; the rounds they are called with cannot be used up.  The interpreter's
own limit on recursion, which the source turns into the same failure, is not modelled.
-/

namespace Polymind.Llm.AzureSchema

open Json JsonSchema

/-- `PROFILE`. -/
def profile : Str := "azure-strict/1".toList

/-- How the conversion ends without a schema: with `fail()`, or never. -/
inductive SchemaFault where
  | configuration
  | diverges
deriving DecidableEq

/-- The message of the `InferenceConfigurationError` that `fail` raises. -/
def SchemaFault.message : String := "Unsupported strict provider schema configuration."

/-- `fail()`. -/
def fail {α : Type} : Except SchemaFault α := .error .configuration

/-! ### Conversion -/

def allowed : List String :=
  ["type", "properties", "required", "additionalProperties", "items", "$defs", "$ref", "anyOf", "enum",
    "const", "title", "description", "default", "format", "minLength", "maxLength", "pattern"]

/-- The keywords that are left out. -/
def dropped : List String := ["title", "default", "format", "minLength", "maxLength", "pattern"]

def kinds : List String := ["object", "array", "string", "integer", "number", "boolean", "null"]

/-- `key in names`. -/
def named (names : List String) (key : Str) : Bool := names.any fun name => key = name.toList

/-- `name in node`. -/
def has (node : Dict Str Json) (name : String) : Bool := (keyword? node name).isSome

/-- `kind == name`. -/
def is (kind : Option Json) (name : String) : Bool := kind.any (isText name)

def isString : Json → Bool
  | .str _ => true
  | _ => false

/-- `value is False`. -/
def isFalse : Json → Bool
  | .bool false => true
  | _ => false

/-- Every keyword is allowed, and the ones on strings stand in a schema of strings. -/
def admitted (node : Dict Str Json) : Bool :=
  node.all (fun p => named allowed p.1)
    && (!(["format", "minLength", "maxLength", "pattern"].any (has node))
      || is (keyword? node "type") "string" && (keyword? node "format").all (isText "uuid"))

/-- `const` becomes an `enum` of one value. -/
def constToEnum (out : Dict Str Json) : Except SchemaFault (Dict Str Json) :=
  match keyword? out "const" with
  | none => .ok out
  | some value =>
    if has out "enum" then fail
    else .ok (Dict.set (out.filter fun p => p.1 ≠ "const".toList) "enum".toList (.arr [value]))

section

variable (recur : Json → Except SchemaFault Json) (root : Bool) (kind : Option Json)

/-- `{k: convert(v) for k, v in fields.items()}`. -/
def convertFields (fields : Dict Str Json) : Except SchemaFault (Dict Str Json) :=
  fields.mapM fun p => (recur p.2).map fun schema => (p.1, schema)

/-- A reference stands alone, and so does a union; any other schema has a type. -/
def convertShape (out : Dict Str Json) : Except SchemaFault (Dict Str Json) :=
  if has out "$ref" then
    if (out.all fun p => p.1 = "$ref".toList) && (keyword? out "$ref").any isString then .ok out else fail
  else if has out "anyOf" then
    if !root && (out.all fun p => p.1 = "anyOf".toList) && !(elementsAt out "anyOf").isEmpty then do
      let alternatives ← (elementsAt out "anyOf").mapM recur
      .ok (Dict.set out "anyOf".toList (.arr alternatives))
    else fail
  else if kinds.any (is kind) then .ok out
  else fail

/-- `required` is a list of names of properties. -/
def requires (props : Dict Str Json) : Option Json → Bool
  | none => true
  | some (.arr names) => names.all fun name => props.any fun p =>
      match name with
      | .str s => s = p.1
      | _ => false
  | some _ => false

/-- An object is closed and requires all of its properties; nothing else has properties. -/
def convertObject (out : Dict Str Json) : Except SchemaFault (Dict Str Json) :=
  if is kind "object" then
    match keyword? out "properties" with
    | some (.obj props) =>
      if (keyword? out "additionalProperties").any isFalse && requires props (keyword? out "required") then do
        let converted ← convertFields recur props
        .ok (Dict.set (Dict.set out "properties".toList (.obj converted)) "required".toList
          (.arr (props.map fun p => .str p.1)))
      else fail
    | _ => fail
  else if ["properties", "required", "additionalProperties"].any (has out) then fail
  else .ok out

def convertArray (out : Dict Str Json) : Except SchemaFault (Dict Str Json) :=
  if is kind "array" then
    match keyword? out "items" with
    | none => fail
    | some items => do
      let items ← recur items
      .ok (Dict.set out "items".toList items)
  else if has out "items" then fail
  else .ok out

def convertDefs (out : Dict Str Json) : Except SchemaFault (Dict Str Json) :=
  match keyword? out "$defs" with
  | none => .ok out
  | some (.obj defs) =>
    if root then do
      let converted ← convertFields recur defs
      .ok (Dict.set out "$defs".toList (.obj converted))
    else fail
  | some _ => fail

/-- `isinstance(value, types[kind])`; a `bool` is an `int`. -/
def isInstance : Json → Bool
  | .null => is kind "null"
  | .bool _ => is kind "boolean" || is kind "integer" || is kind "number"
  | .int _ => is kind "integer" || is kind "number"
  | .float _ => is kind "number"
  | .str _ => is kind "string"
  | .arr _ | .obj _ => false

/-- An `enum` is a list of values of the type, which is not a container. -/
def convertEnum (out : Dict Str Json) : Except SchemaFault (Dict Str Json) :=
  match keyword? out "enum" with
  | none => .ok out
  | some (.arr values) =>
    if !values.isEmpty && values.all (isInstance kind) then .ok (Dict.set out "enum".toList (.arr values))
    else fail
  | some _ => fail

/-- `convert` on the keywords of a node, `recur` being `convert` on the nodes below it. -/
def convertNode (node : Dict Str Json) : Except SchemaFault (Dict Str Json) :=
  if admitted node then do
    let out ← constToEnum (node.filter fun p => !named dropped p.1)
    let kind := keyword? out "type"
    if root && !is kind "object" then fail
    else do
      let out ← convertShape recur root kind out
      let out ← convertObject recur kind out
      let out ← convertArray recur kind out
      let out ← convertDefs recur root out
      convertEnum kind out
  else fail

end

/-- `convert`. -/
def convert : Nat → Bool → Json → Except SchemaFault Json
  | 0, _, _ => .error .diverges
  | rounds + 1, root, .obj node => (convertNode (convert rounds false) root node).map .obj
  | _ + 1, _, _ => fail

/-! ### Properties and depth -/

/-- `count_properties`. -/
def countProperties : Nat → Json → Nat → Except SchemaFault Nat
  | 0, _, _ => .error .diverges
  | rounds + 1, node, count =>
    ((membersAt (members node) "properties").map Prod.snd ++ (definitions node).map Prod.snd
        ++ elementsAt (members node) "anyOf" ++ (keyword? (members node) "items").toList).foldlM
      (fun count child => countProperties rounds child count)
      (count + (membersAt (members node) "properties").length)

/-- `depth`.  The reference of a converted schema is a text. -/
def depth (defs : Dict Str Json) : Nat → Json → Int → List Str → Except SchemaFault Unit
  | 0, _, _, _ => .error .diverges
  | rounds + 1, node, level, seen =>
    match keyword? (members node) "$ref" with
    | some (.str ref) =>
      match resolve defs (.str ref) with
      | some target => if seen.contains ref then fail else depth defs rounds target level (seen ++ [ref])
      | none => fail
    | some _ => fail
    | none =>
      let level := if isContainer node then level + 1 else level
      if 5 < level then fail
      else (subschemas node).forM fun child => depth defs rounds child level seen

/-- `provider_schema`. -/
def providerSchema (schema : Json) : Except SchemaFault Json := do
  let result ← convert (height schema + 1) true schema
  let defs := definitions result
  let count ← countProperties (height result + 1) result 0
  if 100 < count then fail
  else do
    let rounds := (defs.length + 1) * (height result + 1)
    depth defs rounds result (-1) []
    defs.forM fun p => depth defs rounds p.2 (-1) []
    .ok result

end Polymind.Llm.AzureSchema
