import Polymind.Lib.Dict
import Polymind.Lib.Json
import Polymind.Lib.Slices

/-!
# Conversation memory

`FileMemoryStore` and `RedisMemoryStore` of `memory/memory_store.py`.  The file holds the list that
was last written to it, and a value of a Redis list the message it is the JSON text of.  Redis has
its list commands and no others: with a TTL of 0 no `expire` is queued, and the client never raises.
-/

namespace Polymind.Memory

open Slices

/-- A dictionary made by `_message`. -/
structure Message where
  role : Str
  content : Str
  timestamp : Str
deriving DecidableEq

/-- `{'session_id': session_id, **item}`. -/
structure Entry where
  sessionId : Str
  message : Message
deriving DecidableEq

/-- The categories of a `MemoryError`. -/
inductive MemoryError where
  | protocol
deriving DecidableEq

/-- `datetime.now` for the two messages of an exchange. -/
abbrev Stamps := Str × Str

def user : Str := "user".toList

def assistant : Str := "assistant".toList

/-- The two messages of an exchange. -/
def exchange (query answer : Str) (now : Stamps) : List Message :=
  [⟨user, query, now.1⟩, ⟨assistant, answer, now.2⟩]

/-! ### The file -/

structure FileMemoryStore where
  historyLimit : Int
  /-- What the file holds, if it exists. -/
  file : Option (List Entry)
deriving DecidableEq

namespace FileMemoryStore

/-- `_read_unlocked`. -/
def read (store : FileMemoryStore) : List Entry := store.file.getD []

/-- `get_history`. -/
def getHistory (store : FileMemoryStore) (sessionId : Str) (limit : Option Int) : List Entry :=
  let history := store.read.filter fun item => item.sessionId = sessionId
  let effectiveLimit := limit.getD store.historyLimit
  if effectiveLimit ≠ 0 then sliceFrom history (-effectiveLimit) else []

/-- `append_exchange`. -/
def appendExchange (store : FileMemoryStore) (sessionId query answer : Str) (now : Stamps) :
    FileMemoryStore :=
  let data := store.read ++ (exchange query answer now).map (Entry.mk sessionId)
  let indexes := positions (fun item => item.sessionId = sessionId) data
  let remove := sliceTo indexes (-store.historyLimit)
  { store with file := some (if remove.isEmpty then data else without data remove) }

/-- `clear_session`. -/
def clearSession (store : FileMemoryStore) (sessionId : Str) : FileMemoryStore :=
  { store with file := some (store.read.filter fun item => item.sessionId ≠ sessionId) }

end FileMemoryStore

/-! ### Redis -/

/-- The lists of a Redis database; an empty list has no key. -/
abbrev Redis := Dict Str (List Message)

namespace Redis

/-- The values from one offset to another, both included.  Negative offsets count from the end, and
offsets out of range are no error. -/
def range (values : List Message) (start stop : Int) : List Message :=
  let start := max 0 (if start < 0 then start + values.length else start)
  let stop := if stop < 0 then stop + values.length else stop
  (values.drop start.toNat).take (stop + 1 - start).toNat

/-- `LRANGE`. -/
def lrange (db : Redis) (key : Str) (start stop : Int) : List Message :=
  range ((db.get? key).getD []) start stop

/-- `DEL`. -/
def delete (db : Redis) (key : Str) : Redis := db.filter fun item => item.1 ≠ key

/-- The commands that a pipeline queues. -/
inductive Command where
  | rpush (key : Str) (values : List Message)
  | ltrim (key : Str) (start stop : Int)

/-- A key is kept while its list has values. -/
def put (db : Redis) (key : Str) (values : List Message) : Redis :=
  if values.isEmpty then db.delete key else Dict.set db key values

def exec (db : Redis) : Command → Redis
  | .rpush key values => db.put key ((db.get? key).getD [] ++ values)
  | .ltrim key start stop => db.put key (db.lrange key start stop)

/-- `pipeline.execute()`. -/
def transaction (db : Redis) (commands : List Command) : Redis := commands.foldl exec db

end Redis

structure RedisMemoryStore where
  client : Redis
  historyLimit : Int
  keyPrefix : Str

namespace RedisMemoryStore

-- `hashlib.sha256(text.encode('utf-8')).hexdigest()`
variable (sha256 : Str → Str)

/-- `_key`. -/
def key (store : RedisMemoryStore) (sessionId : Str) : Str :=
  store.keyPrefix ++ ':' :: sha256 sessionId

/-- The check of one value in `get_history`. -/
def decode (message : Message) : Except MemoryError Message :=
  if message.role = user ∨ message.role = assistant then .ok message else .error .protocol

/-- `get_history`. -/
def getHistory (store : RedisMemoryStore) (sessionId : Str) (limit : Option Int) :
    Except MemoryError (List Message) :=
  let effectiveLimit := limit.getD store.historyLimit
  if effectiveLimit = 0 then .ok []
  else (store.client.lrange (store.key sha256 sessionId) (-effectiveLimit) (-1)).mapM decode

/-- `append_exchange`. -/
def appendExchange (store : RedisMemoryStore) (sessionId query answer : Str) (now : Stamps) :
    RedisMemoryStore :=
  let key := store.key sha256 sessionId
  let commands : List Redis.Command :=
    [.rpush key (exchange query answer now), .ltrim key (-store.historyLimit) (-1)]
  { store with client := store.client.transaction commands }

/-- `clear_session`. -/
def clearSession (store : RedisMemoryStore) (sessionId : Str) : RedisMemoryStore :=
  { store with client := store.client.delete (store.key sha256 sessionId) }

end RedisMemoryStore

/-! ### Calls and their answers -/

/-- A call on a `ConversationMemoryStore`. -/
inductive Call where
  | appendExchange (sessionId query answer : Str)
  | clearSession (sessionId : Str)
  | getHistory (sessionId : Str) (limit : Option Int)

def Call.sessionId : Call → Str
  | .appendExchange sessionId _ _ | .clearSession sessionId | .getHistory sessionId _ => sessionId

/-- `(message['role'], message['content'])` of each message. -/
def contents (messages : List Message) : List (Str × Str) := messages.map fun m => (m.role, m.content)

/-- What a call returns: a history, or `None`. -/
abbrev Answer := Option (Except MemoryError (List (Str × Str)))

/-- A call and the times it reads. -/
def FileMemoryStore.next (store : FileMemoryStore) : Stamps × Call → FileMemoryStore × Answer
  | (now, .appendExchange sessionId query answer) =>
    (store.appendExchange sessionId query answer now, none)
  | (_, .clearSession sessionId) => (store.clearSession sessionId, none)
  | (_, .getHistory sessionId limit) =>
    (store, some (.ok (contents ((store.getHistory sessionId limit).map Entry.message))))

def RedisMemoryStore.next (sha256 : Str → Str) (store : RedisMemoryStore) :
    Stamps × Call → RedisMemoryStore × Answer
  | (now, .appendExchange sessionId query answer) =>
    (store.appendExchange sha256 sessionId query answer now, none)
  | (_, .clearSession sessionId) => (store.clearSession sha256 sessionId, none)
  | (_, .getHistory sessionId limit) =>
    (store, some ((store.getHistory sha256 sessionId limit).map contents))

/-- The answers of a store to a sequence of calls. -/
def answers {S : Type} (next : S → Stamps × Call → S × Answer) : S → List (Stamps × Call) → List Answer
  | _, [] => []
  | store, c :: calls => (next store c).2 :: answers next (next store c).1 calls

end Polymind.Memory
