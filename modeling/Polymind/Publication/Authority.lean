import Polymind.Documents.Ids
import Polymind.Lib.Transaction
import Polymind.Lib.Table
import Polymind.Lib.Traces

/-!
# The publication authority

`SQLitePublicationAuthority` of `documents/publication/authority.py`: its three tables and the bodies
of `register`, `mark` and `activate`.  `Authority.next` runs one call as a serial transaction.

A JSON column holds the model it was written from, and `str(generation)` the generation: both texts
determine their value.  An integer column holds at most `2 ^ 63 - 1`; binding a larger one raises
`OverflowError`.
-/

namespace Polymind.Publication

/-- `ActivePublication`. -/
structure ActivePublication (U : Type) where
  generation : Option U
  epoch : Nat
deriving DecidableEq

inductive CandidateState where
  | preparing | ready | accepted | failed | stale
deriving DecidableEq

inductive Operation where
  | forward | rollback
deriving DecidableEq

/-- A row of `candidates`. -/
structure CandidateRow (U : Type) where
  generation : U
  manifest : ObjectRef U
  base : ActivePublication U
  state : CandidateState
  error : Option Str

/-- A row of `activations`. -/
structure ActivationRow (U : Type) where
  epoch : Nat
  generation : U
  expected : ActivePublication U
  operation : Operation
deriving DecidableEq

/-- The database: the row of `active`, and the rows of the two other tables in insertion order. -/
structure Authority (U : Type) where
  active : ActivePublication U
  candidates : List (CandidateRow U)
  activations : List (ActivationRow U)

/-- What a method raises: a `PublicationError` by its category, or the `OverflowError` of a binding. -/
inductive Raised where
  | invalidInput | staleCandidate | unavailable
  | overflow
deriving DecidableEq

/-- The part of a `PublicationManifest` that `register` reads. -/
structure Manifest (U : Type) where
  generation : U
  base : ActivePublication U

/-- The publication that an activation made active. -/
def ActivationRow.result {U : Type} (row : ActivationRow U) : ActivePublication U :=
  ⟨some row.generation, row.epoch⟩

namespace Authority

variable {U : Type} [DecidableEq U]

/-- The database that `__init__` creates. -/
def empty : Authority U := ⟨⟨none, 0⟩, [], []⟩

def candidate? (db : Authority U) (generation : U) : Option (CandidateRow U) :=
  Table.lookup CandidateRow.generation db.candidates generation

def activation? (db : Authority U) (epoch : Nat) : Option (ActivationRow U) :=
  Table.lookup ActivationRow.epoch db.activations epoch

/-- `register`. -/
def register (manifest : Manifest U) (ref : ObjectRef U) (db : Authority U) :
    Except Raised (Option (ActivePublication U) × Authority U) :=
  match db.candidate? manifest.generation with
  | some row => if row.manifest ≠ ref then .error .invalidInput else .ok (none, db)
  | none =>
    if db.active ≠ manifest.base then .error .staleCandidate
    else .ok (none, { db with candidates :=
      db.candidates ++ [⟨manifest.generation, ref, manifest.base, .preparing, none⟩] })

/-- The rows that `mark` updates. -/
def marks (generation : U) (row : CandidateRow U) : Bool :=
  decide (row.generation = generation) &&
    (row.state == .preparing || row.state == .ready || row.state == .failed)

/-- `mark`. -/
def mark (generation : U) (state : CandidateState) (error : Option Str) (db : Authority U) :
    Except Raised (Option (ActivePublication U) × Authority U) :=
  if state ≠ .ready ∧ state ≠ .failed ∧ state ≠ .stale then .error .invalidInput
  else .ok (none, { db with
    candidates := Table.update (marks generation) (fun row => { row with state, error }) db.candidates })

/-- The lost response of an activation: its result is still active and its event is on record. -/
def repeats (db : Authority U) (generation : U) (expected : ActivePublication U)
    (operation : Operation) : Bool :=
  decide (db.active = ⟨some generation, expected.epoch + 1⟩) &&
    (db.activation? (expected.epoch + 1)).any fun event =>
      decide (event = ⟨expected.epoch + 1, generation, expected, operation⟩)

/-- Whether the row of the candidate admits the operation. -/
def admits (expected : ActivePublication U) (operation : Operation) (row : CandidateRow U) : Bool :=
  match operation with
  | .rollback => row.state == .accepted
  | .forward => row.state == .ready && decide (row.base = expected)

/-- The writes of `activate`; the key of `activations` is its epoch. -/
def write (db : Authority U) (generation : U) (expected : ActivePublication U)
    (operation : Operation) : Except Raised (Option (ActivePublication U) × Authority U) :=
  let result : ActivePublication U := ⟨some generation, db.active.epoch + 1⟩
  if (db.activation? result.epoch).isSome then .error .unavailable
  else .ok (some result,
    { active := result
      candidates := Table.update (fun row => decide (row.generation = generation))
        (fun row => { row with state := .accepted, error := none }) db.candidates
      activations := db.activations ++ [⟨result.epoch, generation, expected, operation⟩] })

/-- `activate`. -/
def activate (generation : U) (expected : ActivePublication U) (operation : Operation)
    (db : Authority U) : Except Raised (Option (ActivePublication U) × Authority U) :=
  if 2 ^ 63 ≤ expected.epoch + 1 then .error .overflow
  else if db.repeats generation expected operation then .ok (some db.active, db)
  else if db.active ≠ expected then .error .staleCandidate
  else if (db.candidate? generation).any (admits expected operation) then
    db.write generation expected operation
  else .error .staleCandidate

/-- A call of one of the three methods. -/
inductive Call (U : Type) where
  | register (manifest : Manifest U) (ref : ObjectRef U)
  | mark (generation : U) (state : CandidateState) (error : Option Str)
  | activate (generation : U) (expected : ActivePublication U) (operation : Operation)

def Call.body : Call U → Authority U → Except Raised (Option (ActivePublication U) × Authority U)
  | .register manifest ref => Authority.register manifest ref
  | .mark generation state error => Authority.mark generation state error
  | .activate generation expected operation => Authority.activate generation expected operation

/-- One call as a serial transaction: its answer and the next database. -/
def step (db : Authority U) (c : Call U) : Except Raised (Option (ActivePublication U)) × Authority U :=
  transact c.body db

def next (db : Authority U) (c : Call U) : Authority U := (db.step c).2

/-- The database after a sequence of calls. -/
def run (db : Authority U) (calls : List (Call U)) : Authority U := Traces.exec next db calls

end Authority

end Polymind.Publication
