import Polymind.Documents.Ids
import Polymind.Lib.Traces
import Mathlib.Logic.Function.Basic

/-!
# The local object store

`LocalObjectStore` of `documents/storage.py` as processes that share a directory.  A process is one
call of `put`, `read` or `inspect`; each of its steps is one filesystem call with the Python code
around it, and `World.next` lets any process take its next step, or stops it for good.

A file is named by the `put` that created it, and so is its `.pending-` name: `uuid4` does not repeat
itself.  The names in the directory are those and the keys of objects.  An `fsync` has no effect here
but may fail, as every other call but the removal of a temporary may (`fault`).
-/

namespace Polymind.Storage

abbrev Bytes := List UInt8

/-- The parameters of the store: identities, and `hashlib.sha256(data).hexdigest()`. -/
structure StoreEnv (U : Type) extends Ids U where
  hexdigest : Bytes → Str

/-! ### Errors -/

/-- `Category` of `documents/errors.py`. -/
inductive Category where
  | unsupportedFormat | invalidDocument | encryptedDocument | sourceTooLarge | pageLimitExceeded
  | extractionLimitExceeded | extractionFailed | integrityError | storageError | objectConflict
  | objectNotFound | scopeMismatch | serializationError | invalidReference
deriving DecidableEq

/-- An exception inside the store: a `DocumentError`, another `Exception`, or neither. -/
inductive Thrown where
  | documentError (category : Category)
  | exception
  | baseException
deriving DecidableEq

/-- What a method raises. -/
inductive Raised where
  | documentError (category : Category)
  | baseException
deriving DecidableEq

/-- `except DocumentError: raise` and `except Exception: raise DocumentError("storage_error")`. -/
def Thrown.sanitized : Thrown → Raised
  | .documentError category => .documentError category
  | .exception => .documentError .storageError
  | .baseException => .baseException

/-- What `put` makes of an exception of the `_read` that verifies an existing object. -/
def Thrown.conflict : Thrown → Raised
  | .documentError .integrityError | .documentError .sourceTooLarge =>
    .documentError .objectConflict
  | e => e.sanitized

/-! ### The directory -/

variable {U I : Type}

inductive Name (U I : Type) where
  | pending (put : I)
  | final (key : U)
deriving DecidableEq

/-- The names in the directory with their files, and the bytes of each file. -/
structure Disk (U I : Type) where
  entries : List (Name U I × I)
  content : I → Bytes

namespace Disk

variable [DecidableEq U] [DecidableEq I] (disk : Disk U I)

def find? (name : Name U I) : Option I :=
  (disk.entries.find? fun entry => entry.1 = name).map Prod.snd

/-- `st_nlink`. -/
def nlink (file : I) : Nat := disk.entries.countP fun entry => entry.2 = file

/-- A new empty file of the `put`. -/
def create (put : I) : Disk U I :=
  ⟨disk.entries ++ [(.pending put, put)], Function.update disk.content put []⟩

def write (file : I) (chunk : Bytes) : Disk U I :=
  { disk with content := Function.update disk.content file (disk.content file ++ chunk) }

def link (file : I) (key : U) : Disk U I :=
  { disk with entries := disk.entries ++ [(.final key, file)] }

def unlink (name : Name U I) : Disk U I :=
  { disk with entries := disk.entries.filter fun entry => entry.1 ≠ name }

end Disk

variable [DecidableEq U] [DecidableEq I]

/-! ### `_read` -/

/-- Where a `_read` stands: before `os.open`, before `os.fstat`, or in the loop with the data so far. -/
inductive ReadAt (I : Type) where
  | opening
  | stating (file : I)
  | fetching (file : I) (data : Bytes)

/-- The next step of a `_read`: it goes on, or ends. -/
def readStep (env : StoreEnv U) (disk : Disk U I) (ref : ObjectRef U) (maxBytes : Nat)
    (fault : Bool) : ReadAt I → ReadAt I ⊕ Except Thrown Bytes
  | .opening =>
    if fault then .inr (.error .exception)
    else match disk.find? (.final ref.key) with
      | none => .inr (.error (.documentError .objectNotFound))
      | some file => .inl (.stating file)
  | .stating file =>
    if fault then .inr (.error .exception)
    else if disk.nlink file ≠ 1 then .inr (.error (.documentError .storageError))
    else if maxBytes < (disk.content file).length then .inr (.error (.documentError .sourceTooLarge))
    else .inl (.fetching file [])
  | .fetching file data =>
    let chunk := ((disk.content file).drop data.length).take (min 65536 (maxBytes - data.length + 1))
    if fault then .inr (.error .exception)
    else if chunk = [] then
      if data.length ≠ ref.byteSize ∨ env.hexdigest data ≠ ref.sha256 then
        .inr (.error (.documentError .integrityError))
      else .inr (.ok data)
    else if maxBytes < data.length + chunk.length then
      .inr (.error (.documentError .sourceTooLarge))
    else .inl (.fetching file (data ++ chunk))

/-! ### `put` -/

structure PutArgs (U : Type) where
  scope : Scope U
  kind : ObjectKind
  objectId : U
  maxBytes : Nat
  expectedSha256 : Option Str

def PutArgs.key (env : StoreEnv U) (args : PutArgs U) : U :=
  env.stableId [args.scope.identity env.toIds, args.kind.text, env.uuidStr args.objectId]

/-- The reference of the bytes a `put` has received. -/
def PutArgs.ref (env : StoreEnv U) (args : PutArgs U) (data : Bytes) : ObjectRef U :=
  ⟨args.scope, args.kind, args.objectId, args.key env, env.hexdigest data, data.length⟩

/-- What `stream.read` does: it returns bytes (none at the end; anything false counts as the end), it
returns something else, or it raises. -/
inductive Answer where
  | chunk (bytes : Bytes)
  | notBytes
  | raises (e : Thrown)

/-- Where a `put` stands; `data` is what it has copied, `cleanup` is its outermost `finally`. -/
inductive PutAt (U I : Type) where
  | directory
  | create
  | copy (data : Bytes)
  | sync (data : Bytes)
  | link (ref : ObjectRef U)
  | verify (ref : ObjectRef U) (reading : ReadAt I)
  | unlink (ref : ObjectRef U)
  | syncDirectory (ref : ObjectRef U)
  | cleanup (outcome : Except Raised (ObjectRef U))
  | finished (outcome : Except Raised (ObjectRef U))

/-- An `OSError`, on the way to the outermost `finally`. -/
def PutAt.failed : PutAt U I := .cleanup (.error (.documentError .storageError))

/-- The first lines of `put`. -/
def putStart (args : PutArgs U) : PutAt U I :=
  if args.maxBytes < 1 then .finished (.error (.documentError .invalidReference)) else .directory

/-- The next step of the `put` with this name. -/
def putStep (env : StoreEnv U) (put : I) (args : PutArgs U) (fault : Bool) (answer : Answer)
    (disk : Disk U I) : PutAt U I → Disk U I × PutAt U I
  | .directory =>
    -- without a descriptor there is nothing to clean up
    if fault then (disk, .finished (.error (.documentError .storageError))) else (disk, .create)
  | .create =>
    if fault || (disk.find? (.pending put)).isSome then (disk, .failed)
    else (disk.create put, .copy [])
  | .copy data =>
    match answer with
    | .raises e => (disk, .cleanup (.error e.sanitized))
    | .notBytes => (disk, .failed)
    | .chunk bytes =>
      if bytes = [] then (disk, .sync data)
      else if args.maxBytes < data.length + bytes.length then
        (disk, .cleanup (.error (.documentError .sourceTooLarge)))
      else if fault then (disk, .failed)
      else (disk.write put bytes, .copy (data ++ bytes))
  | .sync data =>
    if fault then (disk, .failed)
    else if args.expectedSha256.any fun expected => env.hexdigest data ≠ expected then
      (disk, .cleanup (.error (.documentError .integrityError)))
    else if (args.ref env data).valid env.toIds then (disk, .link (args.ref env data))
    else (disk, .failed)
  | .link ref =>
    match fault, disk.find? (.pending put) with
    | true, _ | _, none => (disk, .failed)
    | false, some file =>
      if (disk.find? (.final ref.key)).isSome then (disk, .verify ref .opening)
      else (disk.link file ref.key, .unlink ref)
  | .verify ref reading =>
    match readStep env disk ref args.maxBytes fault reading with
    | .inl reading => (disk, .verify ref reading)
    | .inr (.ok _) => (disk, .unlink ref)
    | .inr (.error e) => (disk, .cleanup (.error e.conflict))
  | .unlink ref =>
    if (disk.find? (.pending put)).isSome then (disk.unlink (.pending put), .syncDirectory ref)
    else (disk, .failed)
  | .syncDirectory ref => if fault then (disk, .failed) else (disk, .cleanup (.ok ref))
  | .cleanup outcome => (disk.unlink (.pending put), .finished outcome)
  | .finished outcome => (disk, .finished outcome)

/-! ### `read` and `inspect` -/

/-- `inspect` is a `read` that does not collect the bytes. -/
structure ReadArgs (U : Type) where
  scope : Scope U
  ref : ObjectRef U
  maxBytes : Nat
  collect : Bool

/-- `_check`. -/
def check (env : StoreEnv U) (args : ReadArgs U) : Except Raised Unit :=
  if args.scope ≠ args.ref.scope then .error (.documentError .scopeMismatch)
  else if args.maxBytes < 1 ∨ args.maxBytes < args.ref.byteSize then
    .error (.documentError .sourceTooLarge)
  else if args.ref.key ≠ env.stableId [args.scope.identity env.toIds, args.ref.kind.text,
      env.uuidStr args.ref.objectId] then .error (.documentError .invalidReference)
  else .ok ()

inductive AccessAt (I : Type) where
  | directory
  | reading (reading : ReadAt I)
  | finished (outcome : Except Raised Bytes)

/-- The first line of `_access`. -/
def accessStart (env : StoreEnv U) (args : ReadArgs U) : AccessAt I :=
  match check env args with
  | .ok () => .directory
  | .error e => .finished (.error e)

/-- The next step of `_access`. -/
def accessStep (env : StoreEnv U) (args : ReadArgs U) (fault : Bool) (disk : Disk U I) :
    AccessAt I → AccessAt I
  | .directory =>
    if fault then .finished (.error (.documentError .storageError)) else .reading .opening
  | .reading reading =>
    match readStep env disk args.ref args.maxBytes fault reading with
    | .inl reading => .reading reading
    | .inr (.ok data) => .finished (.ok (if args.collect then data else []))
    | .inr (.error e) => .finished (.error e.sanitized)
  | .finished outcome => .finished outcome

/-! ### Processes -/

inductive Op (U : Type) where
  | put (args : PutArgs U)
  | read (args : ReadArgs U)

inductive Proc (U I : Type) where
  | idle
  | put (args : PutArgs U) (phase : PutAt U I)
  | read (args : ReadArgs U) (phase : AccessAt I)

/-- The directory, the processes, and which of them were stopped for good. -/
structure World (U I : Type) where
  disk : Disk U I
  procs : I → Proc U I
  stopped : I → Bool

/-- A process calls a method, takes its next step, or is stopped.  A step comes with what the world
outside makes of it: whether its filesystem call fails, and what the stream answers if it is asked. -/
inductive Event (U I : Type) where
  | start (i : I) (op : Op U)
  | step (i : I) (fault : Bool) (answer : Answer)
  | crash (i : I)

namespace World

/-- An empty directory. -/
def empty : World U I := ⟨⟨[], fun _ => []⟩, fun _ => .idle, fun _ => false⟩

def setProc (w : World U I) (i : I) (p : Proc U I) : World U I :=
  { w with procs := Function.update w.procs i p }

/-- The state after an event; an event that cannot happen changes nothing. -/
def next (env : StoreEnv U) (w : World U I) : Event U I → World U I
  | .start i op =>
    match w.stopped i, w.procs i, op with
    | false, .idle, .put args => w.setProc i (.put args (putStart args))
    | false, .idle, .read args => w.setProc i (.read args (accessStart env args))
    | _, _, _ => w
  | .step i fault answer =>
    match w.stopped i, w.procs i with
    | false, .put args phase =>
      let (disk, phase) := putStep env i args fault answer w.disk phase
      { w with disk }.setProc i (.put args phase)
    | false, .read args phase => w.setProc i (.read args (accessStep env args fault w.disk phase))
    | _, _ => w
  | .crash i => { w with stopped := Function.update w.stopped i true }

/-- The state after a trace of events. -/
def run (env : StoreEnv U) (w : World U I) (es : List (Event U I)) : World U I :=
  Traces.exec (next env) w es

end World

end Polymind.Storage
