import Polymind.Documents.Ids
import Mathlib.Data.Finset.Basic

/-!
# Principals

The server-issued identities of `security/models.py`.  A `Principal` holds what its verifier sealed; its
scope is derived from it.
-/

namespace Polymind.Security

inductive Action where
  | documentRead | documentAnalyze | documentShare | documentDelete
  | jobRead | jobCancel | sessionRead | sessionWrite
  | publicationManage | usageRead | tenantAdmin
deriving DecidableEq

inductive Kind where
  | user | service
deriving DecidableEq

/-- The categories of a `SecurityError`. -/
inductive Category where
  | accessDenied | authenticationRequired | securityUnavailable | securityConfiguration
  | unsupportedExecution | mixedOwners
deriving DecidableEq

structure Principal where
  issuer : Str
  subject : Str
  tenantIdentity : Str
  permissions : Finset Action
  kind : Kind
  expires : Int
deriving DecidableEq

variable {U : Type}

/-- `principal.scope`. -/
def Principal.scope (ids : Ids U) (p : Principal) : Scope U where
  tenant := ids.stableId ["polymind-identity/1/tenant".toList, p.issuer, p.tenantIdentity]
  owner := ids.stableId
    ["polymind-identity/1/owner".toList, p.issuer, p.tenantIdentity, p.subject]

end Polymind.Security
