import DividendX.Lib.Monitor
import DividendX.Lib.Result
import DividendX.Lib.Run

/-!
# A JSON value at a path

`BlobJsonCasStore` and `mutateJson` of `packages/hosted-broker/src/json-store.ts`, over the two
calls of the blob SDK that they make. Any number of `mutateJson` calls on one path run at once: at
every moment one of them has its next call answered.

A `put` that fails may have taken effect, or may still do so later; the store is the list of
versions that were ever at the path. A `get` shows one of them, or nothing if there was nothing at
first. Two versions with one (strong) etag have the same text.
-/

namespace DividendX

namespace JsonStore

open Result

/-! ## Errors -/

/-- The classes of the SDK's errors that are told apart: `BlobError` itself, and those derived from
it. -/
inductive BlobErrorClass
  | plain
  | preconditionFailed
  | rateLimited
  | serviceNotAvailable
  | requestAborted
  | access
  | storeNotFound
  | storeSuspended
  | unknown
  | derived
deriving DecidableEq, Repr

/-- What a call of the SDK is rejected with. -/
inductive SdkError
  | blob (cls : BlobErrorClass) (message : String)
  | other
deriving DecidableEq, Repr

/-- `BlobOperation`. -/
inductive BlobOperation
  | READ
  | CREATE
  | CAS
deriving DecidableEq, Repr

/-- The text of an operation. -/
def BlobOperation.text : BlobOperation → String
  | .READ => "READ"
  | .CREATE => "CREATE"
  | .CAS => "CAS"

/-- What is thrown: a `JsonStoreFailure` with its code, or another error. -/
inductive Failure
  | store (code : String)
  | other
deriving DecidableEq, Repr

def CONDITIONAL_OPERATION_CONFLICT : String :=
  "Vercel Blob: The conditional request cannot succeed due to a conflicting operation against this resource."

def isConditionalOperationConflict : SdkError → Bool
  | .blob cls message => cls = .plain && message = CONDITIONAL_OPERATION_CONFLICT
  | .other => false

/-- A character of `\s`. -/
def isSpace (c : Char) : Bool :=
  9 ≤ c.toNat ∧ c.toNat ≤ 13 ∨ 0x2000 ≤ c.toNat ∧ c.toNat ≤ 0x200a
    ∨ c.toNat ∈ [0x20, 0xa0, 0x1680, 0x2028, 0x2029, 0x202f, 0x205f, 0x3000, 0xfeff]

/-- `/^Vercel Blob: Failed to fetch blob: (\d{3})(?:\s|$)/`: the three digits. -/
def fetchStatus (message : String) : Option (List Char) :=
  let head := "Vercel Blob: Failed to fetch blob: ".toList
  let rest := message.toList.drop head.length
  let digits := rest.take 3
  if head.isPrefixOf message.toList ∧ digits.length = 3 ∧ digits.all Char.isDigit
    ∧ (rest.drop 3).head?.all isSpace
  then some digits else none

def isTransientReadFailure : SdkError → Bool
  | .blob cls message =>
    cls = .serviceNotAvailable || (fetchStatus message).any fun digits => digits.head? = some '5'
  | .other => false

/-- `BlobSdkFailure`, by the class of an error. -/
def BlobErrorClass.failure : BlobErrorClass → String
  | .rateLimited => "RATE_LIMITED"
  | .serviceNotAvailable => "SERVICE_UNAVAILABLE"
  | .requestAborted => "REQUEST_ABORTED"
  | .access => "ACCESS_DENIED"
  | .storeNotFound => "STORE_NOT_FOUND"
  | .storeSuspended => "STORE_SUSPENDED"
  | .unknown => "UNKNOWN"
  | .plain | .preconditionFailed | .derived => "REJECTED"

/-- The code of a failed GET, by its status. -/
def readCode (digits : List Char) : String :=
  if digits = ['4', '2', '9'] then "BLOB_READ_HTTP_429"
  else if digits.head? = some '4' then "BLOB_READ_HTTP_4XX"
  else if digits.head? = some '5' then "BLOB_READ_HTTP_5XX"
  else "BLOB_READ_HTTP_OTHER"

/-- `classifySdkFailure`: what it throws. -/
def classifySdkFailure (operation : BlobOperation) : SdkError → Failure
  | .blob cls message =>
    match if operation = .READ then fetchStatus message else none with
    | some digits => .store (readCode digits)
    | none => .store ("BLOB_" ++ operation.text ++ "_" ++ cls.failure)
  | .other => .other

/-! ## Values and calls -/

/-- How values are written and read. -/
structure Format (T : Type) where
  /-- `JSON.stringify`, and what it throws -/
  stringify : T → Except Failure String
  /-- `JSON.parse` -/
  parse : String → Except Failure T
  /-- the value is `null` -/
  isNull : T → Bool

/-- The result of a `get` that found something; the stream may break off. -/
structure Found where
  statusCode : Nat
  stream : Option (Except Failure String)
  etag : String

/-- What a `mutateJson` call awaits. -/
inductive Call
  /-- `sdk.get` -/
  | get
  /-- `abortSignal.aborted` -/
  | aborted
  /-- a random time -/
  | sleep
  /-- `sdk.put`, with `ifMatch` or else without `allowOverwrite` -/
  | put (ifMatch : Option String) (body : String)

/-- What a call may be answered. -/
abbrev Answer : Call → Type
  | .get => Except SdkError (Option Found)
  | .aborted => Bool
  | .sleep => Unit
  | .put _ _ => Except SdkError Unit

/-- A promise. -/
abbrev Promise : Type → Type := ExceptT Failure (Async Call Answer)

def MAX_LEDGER_BYTES : Nat := 3 * 1_048_576

/-- The arguments of a `mutateJson` call but its store and path. `initial` and `mutate` may
throw. -/
structure Mutation (T : Type) where
  initial : Except Failure T
  mutate : T → Except Failure T
  attempts : Nat := 5
  maxBytes : Nat := MAX_LEDGER_BYTES

variable {T : Type}

/-! ## The store -/

/-- `encode`. -/
def encode (F : Format T) (value : T) (maxBytes : Nat) : Except Failure String := do
  let body ← F.stringify value
  require (body.utf8ByteSize ≤ maxBytes) (.store "BLOB_LEDGER_OVERSIZE")
  return body

/-- `/^W\//i.test`. -/
def isWeak (etag : String) : Bool :=
  etag.toList.take 2 = ['W', '/'] || etag.toList.take 2 = ['w', '/']

/-- `readBounded`. -/
def readBounded (stream : Except Failure String) (maxBytes : Nat) : Except Failure String := do
  let text ← stream
  require (text.utf8ByteSize ≤ maxBytes) (.store "BLOB_LEDGER_OVERSIZE")
  return text

/-- `read`, from the result of its GET: the value and its etag. -/
def readResult (F : Format T) (maxBytes : Nat) : Option Found → Except Failure (Option (T × String))
  | none => .ok none
  | some found => do
    require (found.statusCode = 200) (.store "BLOB_READ_STATUS")
    let stream ← okOr found.stream (.store "BLOB_READ_STATUS")
    let text ← readBounded stream maxBytes
    require (found.etag ≠ "") (.store "BLOB_ETAG_MISSING")
    require (isWeak found.etag = false) (.store "BLOB_ETAG_WEAK")
    let value ← F.parse text
    return some (value, found.etag)

/-- The second attempt of `read`. -/
def readAgain (F : Format T) (maxBytes : Nat) : Promise (Option (T × String)) := do
  let answer : Except SdkError (Option Found) ← Async.ask Call.get
  match answer with
  | .ok result => Async.sync (readResult F maxBytes result)
  | .error e => throw (classifySdkFailure .READ e)

/-- `read`, after its first attempt has failed. -/
def readFailed (F : Format T) (maxBytes : Nat) (e : SdkError) : Promise (Option (T × String)) := do
  if isTransientReadFailure e then
    let aborted : Bool ← Async.ask Call.aborted
    if aborted then throw (classifySdkFailure .READ e)
    else
      Async.ask Call.sleep
      let aborted : Bool ← Async.ask Call.aborted
      if aborted then throw (classifySdkFailure .READ e) else readAgain F maxBytes
  else throw (classifySdkFailure .READ e)

/-- `read`. -/
def read (F : Format T) (maxBytes : Nat) : Promise (Option (T × String)) := do
  let answer : Except SdkError (Option Found) ← Async.ask Call.get
  match answer with
  | .ok result => Async.sync (readResult F maxBytes result)
  | .error e => readFailed F maxBytes e

/-- `create`. -/
def create (F : Format T) (value : T) (maxBytes : Nat) : Promise Bool := do
  let body ← Async.sync (encode F value maxBytes)
  let answer : Except SdkError Unit ← Async.ask (Call.put none body)
  match answer with
  | .ok _ => return true
  | .error e => do
    -- What is found may be what the failed PUT has written.
    let found ← read F maxBytes
    match found with
    | some _ => return false
    | none => throw (classifySdkFailure .CREATE e)

/-- An error that `compareAndSwap` takes for a conflict. -/
def isConflict : SdkError → Bool
  | .blob .preconditionFailed _ => true
  | e => isConditionalOperationConflict e

/-- `compareAndSwap`, before its PUT. -/
def encodeSwap (F : Format T) (etag : String) (value : T) (maxBytes : Nat) :
    Except Failure String := do
  require (etag ≠ "") (.store "BLOB_ETAG_MISSING")
  require (isWeak etag = false) (.store "BLOB_ETAG_WEAK")
  encode F value maxBytes

/-- `compareAndSwap`. -/
def compareAndSwap (F : Format T) (etag : String) (value : T) (maxBytes : Nat) : Promise Bool := do
  let body ← Async.sync (encodeSwap F etag value maxBytes)
  let answer : Except SdkError Unit ← Async.ask (Call.put (some etag) body)
  match answer with
  | .ok _ => return true
  | .error e => if isConflict e then return false else throw (classifySdkFailure .CAS e)

/-! ## Mutations -/

/-- `mutate` of `current?.value ?? initial()`. -/
def Mutation.next (m : Mutation T) (F : Format T) (current : Option T) : Except Failure T :=
  match current with
  | some value => if F.isNull value then m.initial >>= m.mutate else m.mutate value
  | none => m.initial >>= m.mutate

/-- The write of an attempt. -/
def save (F : Format T) (m : Mutation T) (current : Option (T × String))
    (next : T) : Promise Bool :=
  match current with
  | some (_, etag) => compareAndSwap F etag next m.maxBytes
  | none => create F next m.maxBytes

/-- The loop of `mutateJson`, with so many attempts left. -/
def attempt (F : Format T) (m : Mutation T) : Nat → Promise T
  | 0 => throw (.store "JSON_LEDGER_BUSY")
  | n + 1 => do
    let current ← read F m.maxBytes
    let next ← Async.sync (m.next F (current.map Prod.fst))
    let saved ← save F m current next
    if saved then return next
    else
      Async.ask Call.sleep
      attempt F m n

/-- `mutateJson`. -/
def mutateJson (F : Format T) (m : Mutation T) : Promise T := attempt F m m.attempts

/-! ## The path and its callers -/

/-- A version of what is at the path. -/
structure Version where
  etag : String
  body : String
deriving DecidableEq, Repr

/-- A write that took effect, and the caller that had asked for it. -/
structure Write where
  caller : Nat
  version : Version
deriving DecidableEq, Repr

/-- A `put` that has failed and may still take effect. -/
structure Put where
  caller : Nat
  ifMatch : Option String
  body : String
deriving DecidableEq, Repr

/-- The path: what was there at first, the writes since, and those that may come late. -/
structure Blob where
  base : Option Version
  log : List Write
  inflight : List Put

namespace Blob

/-- All versions, oldest first. -/
def versions (b : Blob) : List Version := b.base.toList ++ b.log.map Write.version

/-- The condition of a `put` holds. -/
def admits (b : Blob) (ifMatch : Option String) : Bool :=
  ifMatch = b.versions.getLast?.map Version.etag

/-- An etag that a new version may get: those with the same one have the same text. -/
def allows (b : Blob) (version : Version) : Bool :=
  b.versions.all fun v => v.etag ≠ version.etag || v.body = version.body

/-- A `put` takes effect. -/
def write (b : Blob) (put : Put) (etag : String) : Option Blob :=
  if b.admits put.ifMatch ∧ b.allows ⟨etag, put.body⟩ then
    some { b with log := b.log ++ [⟨put.caller, ⟨etag, put.body⟩⟩] }
  else none

end Blob

/-- The version that a `get` shows, if `read` can make something of it. -/
def Found.version (found : Found) : Option Version :=
  match found.stream with
  | some (.ok text) =>
    if found.statusCode = 200 ∧ found.etag ≠ "" ∧ isWeak found.etag = false then
      some ⟨found.etag, text⟩ else none
  | _ => none

/-- A `get` may be answered so. -/
def Blob.shows (b : Blob) : Except SdkError (Option Found) → Bool
  | .ok none => b.base = none
  | .ok (some found) => found.version.all fun v => v ∈ b.versions
  | .error _ => true

/-- What a `put` that fails does. -/
inductive Effect
  | never
  | now (etag : String)
  | later

/-- How a `put` is answered. -/
inductive Outcome
  | saved (etag : String)
  | failed (e : SdkError) (effect : Effect)

/-- What the caller is told. -/
def Outcome.answer : Outcome → Except SdkError Unit
  | .saved _ => .ok ()
  | .failed e _ => .error e

/-- The path after a `put`. -/
def Blob.put (b : Blob) (put : Put) : Outcome → Option Blob
  | .saved etag => b.write put etag
  | .failed _ .never => some b
  | .failed _ (.now etag) => b.write put etag
  | .failed _ .later => some { b with inflight := b.inflight ++ [put] }

/-- A call of `mutateJson`, and what is left of it. -/
structure Caller (T : Type) where
  mutation : Mutation T
  rest : Async Call Answer (Except Failure T)

/-- The path and all calls that were made on it. -/
structure Site (T : Type) where
  blob : Blob
  callers : List (Caller T)

/-- What can happen. -/
inductive Event (T : Type)
  | calls (m : Mutation T)
  | get (i : Nat) (x : Except SdkError (Option Found))
  | aborted (i : Nat) (b : Bool)
  | slept (i : Nat)
  | put (i : Nat) (x : Outcome)
  /-- a `put` that failed takes effect -/
  | lands (put : Put) (etag : String)

namespace Site

/-- A call goes on. -/
def goOn (s : Site T) (i : Nat) (c : Caller T) (b : Blob)
    (rest : Async Call Answer (Except Failure T)) : Site T :=
  { blob := b, callers := s.callers.set i { c with rest := rest } }

/-- The next call of a caller is answered, if it can be. -/
def answer (s : Site T) (i : Nat) (c : Caller T) : Event T → Option (Site T)
  | .get _ x => match c.rest with
    | .await .get k => if s.blob.shows x then some (s.goOn i c s.blob (k x)) else none
    | _ => none
  | .aborted _ b => match c.rest with
    | .await .aborted k => some (s.goOn i c s.blob (k b))
    | _ => none
  | .slept _ => match c.rest with
    | .await .sleep k => some (s.goOn i c s.blob (k ()))
    | _ => none
  | .put _ x => match c.rest with
    | .await (.put ifMatch body) k =>
      (s.blob.put ⟨i, ifMatch, body⟩ x).map fun b => s.goOn i c b (k x.answer)
    | _ => none
  | _ => none

/-- One event, if it can happen. -/
def step (F : Format T) (s : Site T) (e : Event T) : Option (Site T) :=
  match e with
  | .calls m => some { s with callers := s.callers ++ [⟨m, (mutateJson F m).run⟩] }
  | .lands put etag =>
    if put ∈ s.blob.inflight then
      ({ s.blob with inflight := s.blob.inflight.erase put }.write put etag).map fun b =>
        { s with blob := b }
    else none
  | .get i _ | .aborted i _ | .slept i | .put i _ => match s.callers[i]? with
    | some c => s.answer i c e
    | none => none

/-- The path, with nobody there yet. -/
def start (base : Option Version) : Site T := ⟨⟨base, [], []⟩, []⟩

end Site

end JsonStore

end DividendX
