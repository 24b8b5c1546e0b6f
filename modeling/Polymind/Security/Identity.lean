import Polymind.Lib.Dict
import Polymind.Lib.Json
import Polymind.Security.Models
import Mathlib.Algebra.Order.Ring.Rat

/-!
# Signing keys

The key cache of `OIDCVerifier` in `security/identity.py`: the checks of a fetched JWKS document, `_key`
and `ready`.  `_key` runs under a lock, so a run is a sequence of calls.

`fetch` may raise or give any JSON document; what it gives is part of a call.  PyJWT is the parameter
`Jwk`.  A clock reading is a float, taken as the rational it denotes, and differences are exact.
-/

namespace Polymind.Security

/-! ### Settings -/

inductive TokenProfile where
  | oidc | entraV2
deriving DecidableEq

/-- A validated `OIDCSettings`: the fields `_key` reads. -/
structure OIDCSettings where
  tokenProfile : TokenProfile
  issuer : Str
  cacheSeconds : Nat
  refreshSeconds : Nat
  cacheSeconds_pos : 1 ≤ cacheSeconds
  cacheSeconds_le : cacheSeconds ≤ 3600
  refreshSeconds_pos : 1 ≤ refreshSeconds
  refreshSeconds_le : refreshSeconds ≤ 300

/-- `Field(default=300, ge=1, le=3600)`. -/
def defaultCacheSeconds : Nat := 300

theorem defaultCacheSeconds_pos : 1 ≤ defaultCacheSeconds := by decide

theorem defaultCacheSeconds_le : defaultCacheSeconds ≤ 3600 := by decide

/-- `Field(default=30, ge=1, le=300)`. -/
def defaultRefreshSeconds : Nat := 30

theorem defaultRefreshSeconds_pos : 1 ≤ defaultRefreshSeconds := by decide

theorem defaultRefreshSeconds_le : defaultRefreshSeconds ≤ 300 := by decide

/-- The settings of an issuer with every default. -/
def OIDCSettings.ofIssuer (issuer : Str) : OIDCSettings where
  tokenProfile := .oidc
  issuer := issuer
  cacheSeconds := defaultCacheSeconds
  refreshSeconds := defaultRefreshSeconds
  cacheSeconds_pos := defaultCacheSeconds_pos
  cacheSeconds_le := defaultCacheSeconds_le
  refreshSeconds_pos := defaultRefreshSeconds_pos
  refreshSeconds_le := defaultRefreshSeconds_le

variable {E K : Type}

/-- `jwt.PyJWK.from_dict(item, algorithm='RS256').key`, which may raise, and its `key_size`. -/
structure Jwk (E K : Type) where
  fromDict : Dict Str Json → Except E K
  keySize : K → Int

/-- What `_key` raises: a `SecurityError`, or an exception of `fetch` or of PyJWT. -/
inductive KeyError (E : Type) where
  | security (category : Category)
  | foreign (exception : E)
deriving DecidableEq

abbrev KeyError.unavailable : KeyError E := .security .securityUnavailable

/-! ### Documents -/

/-- `value == text`. -/
def isText (text : Str) : Json → Bool
  | .str s => s = text
  | _ => false

/-- `value == [text]`. -/
def isSingleton (text : Str) : Json → Bool
  | .arr [value] => isText text value
  | _ => false

/-- `type(value) is str and low <= len(value) <= high`. -/
def isTextOf (low high : Nat) : Json → Bool
  | .str s => low ≤ s.length && s.length ≤ high
  | _ => false

/-- The names that give a key away, or name another source of it. -/
def forbiddenNames : List String := ["d", "p", "q", "jku", "x5u", "k"]

/-- The second check of an item: an RSA key for verifying RS256 signatures. -/
def isSigningKey (item : Dict Str Json) : Bool :=
  (item.get? "kty".toList).any (isText "RSA".toList)
    && (item.get? "alg".toList).all (isText "RS256".toList)
    && (item.get? "use".toList).all (isText "sig".toList)
    && (item.get? "key_ops".toList).all (isSingleton "verify".toList)
    && !forbiddenNames.any fun name => item.has name.toList

/-- The third check of an item: the lengths of the modulus and of the exponent. -/
def hasNumbers (item : Dict Str Json) : Bool :=
  (item.get? "n".toList).any (isTextOf 256 1400) && (item.get? "e".toList).any (isTextOf 1 16)

def tenantTemplate : Str := "https://login.microsoftonline.com/\x7btenantid\x7d/v2.0".toList

/-- The fourth check of an item: the issuer it is scoped to. -/
def allowsIssuer (config : OIDCSettings) (item : Dict Str Json) : Bool :=
  config.tokenProfile != .entraV2
    || (item.get? "issuer".toList).all fun value =>
      isText config.issuer value || isText tenantTemplate value

/-- One iteration of the loop of `_key` over the items of a document. -/
def addKey (config : OIDCSettings) (jwk : Jwk E K) (keys : Dict Str K) (item : Json) :
    Except (KeyError E) (Dict Str K) :=
  match item with
  | .obj item =>
    match Dict.get? item "kid".toList with
    | some (.str keyId) =>
      if !(1 ≤ keyId.length && keyId.length ≤ 128) || keys.has keyId then .error .unavailable
      else if !isSigningKey item then .error .unavailable
      else if !hasNumbers item then .error .unavailable
      else if !allowsIssuer config item then .error .unavailable
      else match jwk.fromDict item with
        | .error e => .error (.foreign e)
        | .ok key =>
          if jwk.keySize key < 2048 || 8192 < jwk.keySize key then .error .unavailable
          else .ok (keys.set keyId key)
    | _ => .error .unavailable
  | _ => .error .unavailable

/-- The keys of a document. -/
def keysOf (config : OIDCSettings) (jwk : Jwk E K) (raw : Json) : Except (KeyError E) (Dict Str K) :=
  match raw with
  | .obj fields =>
    match Dict.get? fields "keys".toList with
    | some (.arr items) =>
      if 1 ≤ items.length && items.length ≤ 32 then items.foldlM (addKey config jwk) []
      else .error .unavailable
    | _ => .error .unavailable
  | _ => .error .unavailable

/-! ### The verifier -/

/-- A call of `fetch`: the reading at which it was made and what it gave. -/
structure Fetch (E : Type) where
  reading : ℚ
  response : Except E Json

/-- The state of a verifier.  `fetches` records the calls of `fetch`, the latest first. -/
structure OIDCVerifier (E K : Type) where
  keys : Dict Str K := []
  loaded : Option ℚ := none
  attempted : Option ℚ := none
  fetches : List (Fetch E) := []

/-- A call of `_key`: its argument, the reading of the clock and what `fetch` gives if it is called. -/
structure KeyCall (E : Type) where
  kid : Str
  now : ℚ
  response : Except E Json

/-- `since is None or now - since >= seconds`. -/
def elapsed (seconds : Nat) (now : ℚ) : Option ℚ → Bool
  | none => true
  | some since => (seconds : ℚ) ≤ now - since

namespace OIDCVerifier

variable (config : OIDCSettings) (jwk : Jwk E K)

/-- `self._attempted = now; raw = self.fetch()`. -/
def attempt (v : OIDCVerifier E K) (c : KeyCall E) : OIDCVerifier E K :=
  { v with attempted := some c.now, fetches := ⟨c.now, c.response⟩ :: v.fetches }

/-- The refresh of `_key`: the document is fetched, checked whole, and then takes the place of the
keys. -/
def refresh (v : OIDCVerifier E K) (c : KeyCall E) : Except (KeyError E) Unit × OIDCVerifier E K :=
  let v := v.attempt c
  match c.response with
  | .error e => (.error (.foreign e), v)
  | .ok raw =>
    match keysOf config jwk raw with
    | .error e => (.error e, v)
    | .ok keys => (.ok (), { v with keys, loaded := some c.now })

/-- The last lines of `_key`. -/
def lookup (v : OIDCVerifier E K) (kid : Str) : Except (KeyError E) K :=
  match v.keys.get? kid with
  | none => .error (.security .authenticationRequired)
  | some key => .ok key

/-- `_key`. -/
def key (v : OIDCVerifier E K) (c : KeyCall E) : Except (KeyError E) K × OIDCVerifier E K :=
  if elapsed config.cacheSeconds c.now v.loaded || !v.keys.has c.kid then
    let (refreshed, v) :=
      if elapsed config.refreshSeconds c.now v.attempted then v.refresh config jwk c else (.ok (), v)
    match refreshed with
    | .error e => (.error e, v)
    | .ok () =>
      if elapsed config.cacheSeconds c.now v.loaded then (.error .unavailable, v)
      else (v.lookup c.kid, v)
  else (v.lookup c.kid, v)

/-- The key id `ready` asks for: `next(iter(self._keys), '__readiness__')`. -/
def readinessKid (v : OIDCVerifier E K) : Str :=
  (v.keys.head?.map Prod.fst).getD "__readiness__".toList

/-- `ready`, whose second reading of the clock is `later`. -/
def ready (v : OIDCVerifier E K) (now later : ℚ) (response : Except E Json) :
    Bool × OIDCVerifier E K :=
  let v := (v.key config jwk ⟨v.readinessKid, now, response⟩).2
  (!v.keys.isEmpty && !elapsed config.cacheSeconds later v.loaded, v)

/-- The state after a call. -/
def next (v : OIDCVerifier E K) (c : KeyCall E) : OIDCVerifier E K := (v.key config jwk c).2

end OIDCVerifier

end Polymind.Security
