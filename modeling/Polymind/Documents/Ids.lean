import Polymind.Lib.Json
import Mathlib.Data.Rat.Defs

/-!
# Identities, digests and object references

The identity and hash functions of the standard library are parameters: an `Ids U` names the type
`U` of UUIDs and gives `uuid5`, `str(uuid)`, `sha256(...).hexdigest()`, `float.__repr__`, the true
division of integers and `str.isprintable`.  `stableId` and `fingerprint` are the program's own
functions over them.

Two groups of facts about the parameters are used as hypotheses, never together:
`Ids.CollisionFree` (the identity and hash functions have no collisions, and `str(uuid)` is made
of hexadecimal digits and dashes) and `Ids.FixedWidth` (`str(uuid)` has 36 characters and a digest
64).
-/

namespace Polymind

open Json

/-- An object whose field names are written as string literals. -/
def Json.record (fields : List (String × Json)) : Json :=
  .obj (fields.map fun f => (f.1.toList, f.2))

/-- The functions of the standard library that identities, digests, floats and text statistics go
through. -/
structure Ids (U : Type) where
  /-- `uuid5(NAMESPACE_URL, name)`. -/
  uuid5 : Str → U
  /-- `str(uuid)`. -/
  uuidStr : U → Str
  /-- `hashlib.sha256(text.encode('utf-8')).hexdigest()`. -/
  sha256 : Str → Str
  /-- `float.__repr__`; floats are taken as the rationals they denote. -/
  floatRepr : ℚ → Str
  /-- `a / b` on integers, as the rational the resulting float denotes. -/
  divide : Nat → Nat → ℚ
  /-- `str.isprintable` on one character. -/
  isPrintable : Char → Bool

variable {U : Type}

namespace Ids

variable (ids : Ids U)

/-- `stable_id(*parts)`. -/
def stableId (parts : List Str) : U := ids.uuid5 (dumps true (.arr (parts.map .str)))

/-- `fingerprint(value)`. -/
def fingerprint (value : Json) : Str := ids.sha256 (canonical value)

def uuidJson (u : U) : Json := .str (ids.uuidStr u)

def uuidsJson (us : List U) : Json := .arr (us.map ids.uuidJson)

end Ids

/-- `None` as JSON `null`. -/
def Json.option {α : Type} (f : α → Json) : Option α → Json
  | none => .null
  | some a => f a

def Json.nat (n : Nat) : Json := .int (.ofNat n)

def Json.text (s : String) : Json := .str s.toList

/-- The alphabet of `str(uuid)` and of hexadecimal digests. -/
def isHexChar (c : Char) : Bool :=
  (48 ≤ c.toNat && c.toNat ≤ 57) || (97 ≤ c.toNat && c.toNat ≤ 102)

/-- `^[0-9a-f]{64}$`. -/
def isDigest (s : Str) : Bool := s.length == 64 && s.all isHexChar

/-- `stable_id`, `fingerprint` and `str(uuid)` have no collisions, and `str(uuid)` is a text over
hexadecimal digits and dashes. -/
structure Ids.CollisionFree (ids : Ids U) : Prop where
  stableId_injective : Function.Injective ids.stableId
  sha256_injective : Function.Injective ids.sha256
  uuidStr_injective : Function.Injective ids.uuidStr
  uuidStr_chars : ∀ u, ∀ c ∈ ids.uuidStr u, isHexChar c = true ∨ c = '-'

/-- `str(uuid)` is 36 characters over hexadecimal digits and dashes, and a digest is 64 hexadecimal
digits. -/
structure Ids.FixedWidth (ids : Ids U) : Prop where
  uuidStr_length : ∀ u, (ids.uuidStr u).length = 36
  uuidStr_chars : ∀ u, ∀ c ∈ ids.uuidStr u, isHexChar c = true ∨ c = '-'
  sha256_digest : ∀ s, isDigest (ids.sha256 s) = true

/-! ### Scopes and object references -/

inductive Mime where
  | textPlain | applicationPdf
deriving DecidableEq

def Mime.text : Mime → Str
  | .textPlain => "text/plain".toList
  | .applicationPdf => "application/pdf".toList

structure Scope (U : Type) where
  tenant : U
  owner : U
deriving DecidableEq

def Scope.identity (ids : Ids U) (scope : Scope U) : Str :=
  ids.uuidStr scope.tenant ++ ':' :: ids.uuidStr scope.owner

def Scope.modelDump (ids : Ids U) (scope : Scope U) : Json :=
  .record [("tenant", ids.uuidJson scope.tenant), ("owner", ids.uuidJson scope.owner)]

inductive ObjectKind where
  | source
  | artifact
deriving DecidableEq

def ObjectKind.text : ObjectKind → Str
  | .source => "source".toList
  | .artifact => "artifact".toList

structure ObjectRef (U : Type) where
  scope : Scope U
  kind : ObjectKind
  objectId : U
  key : U
  sha256 : Str
  byteSize : Nat
deriving DecidableEq

/-- Field patterns and `ObjectRef.valid_key`. -/
def ObjectRef.valid [DecidableEq U] (ids : Ids U) (ref : ObjectRef U) : Bool :=
  isDigest ref.sha256 &&
    ref.key == ids.stableId [ref.scope.identity ids, ref.kind.text, ids.uuidStr ref.objectId]

def ObjectRef.modelDump (ids : Ids U) (ref : ObjectRef U) : Json :=
  .record [("scope", ref.scope.modelDump ids), ("kind", .str ref.kind.text),
    ("object_id", ids.uuidJson ref.objectId), ("key", ids.uuidJson ref.key),
    ("sha256", .str ref.sha256), ("byte_size", .nat ref.byteSize),
    ("hash_algorithm", .text "sha256")]

end Polymind
