import DividendX.Broker.Contract
import DividendX.Lib.Utf16

/-!
# What sandboxes answer

The checks of `broker.ts` on the JSON a sandbox answers with, and on the requests a client sends
through the broker.
-/

namespace DividendX

namespace Broker

open JsonValue Result

/-! ## Identity of a runtime -/

/-- `new Error(text)`. -/
def plainError (text : String) : Failure := .other text

/-- `object`. -/
def object (value : JsonValue) : Except Failure Unit :=
  require (value.isPlain = true) (.http 502 "Sandbox returned an invalid response." none)

/-- `validateHealth`: the runtime id of a healthy gateway of this session. -/
def validateHealth (value : JsonValue) (record : SessionRecord) : Except Failure String := do
  object value
  require (isTrue (value.get? "ready") ∧ isString record.kind.text (value.get? "kind")
    ∧ isString record.expiresAt.toISOString (value.get? "expiresAt"))
    (plainError "gateway health identity mismatch")
  okOr (string? (value.get? "runtimeId")) (plainError "gateway health identity mismatch")

/-- `/^[0-9a-f]{64}$/`. -/
def isHex64 (s : String) : Bool :=
  s.toList.length = 64 && s.toList.all fun c => c.isDigit || ('a' ≤ c && c ≤ 'f')

/-- `stored && stored !== value`: a stored text that is neither missing nor empty, and another
one. -/
def differs (stored : Option String) (value : String) : Bool :=
  match stored with
  | none => false
  | some s => s ≠ "" && s ≠ value

/-- `validateWalletManifest`: genesis hash and deployment domain of a runtime of this session. -/
def validateWalletManifest (value : JsonValue) (record : SessionRecord) :
    Except Failure (String × String) := do
  object value
  let mismatch := plainError "wallet runtime identity mismatch"
  require (isNumber 1 (value.get? "schemaVersion") ∧ isString "surfnet" (value.get? "kind")
    ∧ string? (value.get? "runtimeId") = record.runtimeId
    ∧ isString programId (value.get? "programId")) mismatch
  let genesisHash ← okOr (string? (value.get? "genesisHash")) mismatch
  require (genesisHash ∉ publicGenesisHashes) mismatch
  let deploymentDomainHex ← okOr (string? (value.get? "deploymentDomainHex")) mismatch
  require (isHex64 deploymentDomainHex) mismatch
  require (differs record.genesisHash genesisHash = false
    ∧ differs record.deploymentDomainHex deploymentDomainHex = false)
    (plainError "wallet runtime identity changed")
  return (genesisHash, deploymentDomainHex)

/-- `validateGuidedState`: the genesis hash of the snapshot, if there is a snapshot with one. -/
def validateGuidedState (value : JsonValue) (record : SessionRecord) :
    Except Failure (Option String) := do
  object value
  require
    (isNumber 4 (value.get? "schemaVersion") ∧ string? (value.get? "runtimeId") = record.runtimeId)
    (plainError "guided runtime identity mismatch")
  if truthy (value.get? "snapshot") = false then return none
  let snapshot ← okOr ((value.get? "snapshot").filter isPlain)
    (plainError "guided snapshot is invalid")
  match snapshot.get? "genesisHash" with
  | none => return none
  | some genesis => do
    let genesisHash ← okOr (string? (some genesis)) (plainError "guided runtime identity changed")
    require (genesisHash ∉ publicGenesisHashes
      ∧ ¬ (record.genesisHash ≠ none ∧ record.genesisHash ≠ some genesisHash))
      (plainError "guided runtime identity changed")
    return some genesisHash

/-! ## What clients get to see -/

/-- `text.slice(0, 200)`, of code units; half a pair at its end reads as U+FFFD. -/
def slice200 (text : String) : String :=
  String.ofList (Utf16.scalars ((Utf16.ofString text).take 200))

/-- `cleanError`. -/
def cleanError (value : JsonValue) : JsonValue :=
  let message := match string? (value.get? "error") with
    | some s => slice200 s
    | none => "Sandbox request failed."
  .object [("error", .string message)]

mutual

/-- `cleanGuided`: socket addresses are dropped, RPC addresses replaced. -/
def cleanGuided (id : SessionId) : JsonValue → JsonValue
  | .array items => .array (cleanItems id items)
  | .object members => .object (cleanMembers id members)
  | value => value

/-- `cleanGuided` of every item. -/
def cleanItems (id : SessionId) : List JsonValue → List JsonValue
  | [] => []
  | item :: items => cleanGuided id item :: cleanItems id items

/-- `cleanGuided` of every member. -/
def cleanMembers (id : SessionId) : List (String × JsonValue) → List (String × JsonValue)
  | [] => []
  | (key, child) :: members =>
    if key = "wsUrl" then cleanMembers id members
    else if key = "rpcUrl" then
      (key, .string ("sandbox:" ++ SessionId.text id)) :: cleanMembers id members
    else (key, cleanGuided id child) :: cleanMembers id members

end

/-- The manifest of a wallet runtime, as the client gets it. -/
def cleanManifest (value : JsonValue) (record : SessionRecord) (id : SessionId) : JsonValue :=
  match value with
  | .object members =>
    let clean := members.filter fun m => m.1 ≠ "wsUrl" && m.1 ≠ "rpcUrl"
    .object
      (Record.assign "rpcUrl" (.string ("/api/sandbox/wallet/" ++ SessionId.text id ++ "/rpc"))
      (Record.assign "expiresAt" (.string record.expiresAt.toISOString)
        (Record.assign "hostedSessionId" (.string (SessionId.text id)) clean)))
  | value => value

/-! ## Requests -/

/-- A request body: its size and what it parses to, if it is JSON. -/
structure RequestBody where
  byteLength : Nat
  json : Option JsonValue

/-- The routes of a sandbox. -/
inductive Route
  | manifest
  | faucet
  | advance
  | rpc
  | state
  | receipt
  | start
  | step
deriving DecidableEq, Repr

/-- The path of a route. -/
def Route.path : Route → String
  | .manifest => "/manifest"
  | .faucet => "/faucet"
  | .advance => "/advance"
  | .rpc => "/rpc"
  | .state => "/state"
  | .receipt => "/receipt"
  | .start => "/start"
  | .step => "/step"

/-- `GET` and `POST`; other methods have no route. -/
inductive HttpMethod
  | get
  | post
deriving DecidableEq, Repr

/-- `SESSION_ROUTES`: the method of a route of a kind. -/
def sessionRoute : SandboxKind → Route → Option HttpMethod
  | .wallet, .manifest => some .get
  | .wallet, .faucet | .wallet, .advance | .wallet, .rpc => some .post
  | .guided, .state | .guided, .receipt => some .get
  | .guided, .start | .guided, .step => some .post
  | _, _ => none

/-- `KNOWN_UPSTREAM_STATUS`. -/
def knownUpstreamStatus : List Nat := [200, 201, 202, 400, 404, 409, 413, 415, 422, 429, 503]

/-- `RPC_METHODS`. -/
def rpcMethods : List String :=
  ["getGenesisHash", "getAccountInfo", "getMultipleAccounts", "getLatestBlockhash",
    "getSignatureStatuses", "getBlockHeight", "sendTransaction"]

/-- `[1-9A-HJ-NP-Za-km-z]`. -/
def isBase58 (c : Char) : Bool :=
  ('1' ≤ c && c ≤ '9') || ('A' ≤ c && c ≤ 'H') || ('J' ≤ c && c ≤ 'N') || ('P' ≤ c && c ≤ 'Z')
    || ('a' ≤ c && c ≤ 'k') || ('m' ≤ c && c ≤ 'z')

/-- A base58 text of a length between two bounds. -/
def isBase58Text (low high : Nat) : JsonValue → Bool
  | .string s => low ≤ s.toList.length && s.toList.length ≤ high && s.toList.all isBase58
  | _ => false

/-- `publicKey`. -/
def publicKey (value : JsonValue) : Bool := isBase58Text 32 44 value

/-- A list of 1 to 20 items that pass a test. -/
def isBatch (test : JsonValue → Bool) : Option JsonValue → Bool
  | some (.array items) => 1 ≤ items.length && items.length ≤ 20 && items.all test
  | _ => false

/-- `/^[A-Za-z0-9+/]+={0,2}$/`. -/
def isBase64 (s : List Char) : Bool :=
  let body := s.takeWhile fun c => c.isAlphanum || c = '+' || c = '/'
  let rest := s.dropWhile fun c => c.isAlphanum || c = '+' || c = '/'
  body ≠ [] && rest.length ≤ 2 && rest.all (· = '=')

/-- `String(value)`, when it can be the name of a method: an array of one text reads as that text.
Of an object whose own `toString` cannot be called `String(…)` throws a `TypeError`; no method is
allowed either way, but the refusal there is not the 403 of `validateCall`. -/
def coercedText : JsonValue → Option String
  | .string s => some s
  | .array [value] => coercedText value
  | _ => none

/-- A string, a number or `null`. -/
def isCallId : Option JsonValue → Bool
  | some (.string _) | some (.number _) | some .null => true
  | _ => false

/-- One call of `validateRpc`: whether it is a mutation. -/
def validateCall (call : JsonValue) : Except Failure Nat := do
  let invalid (what : String) : Failure := .http 400 ("RPC " ++ what ++ " invalid.") none
  object call
  let members := match call with
    | .object members => members
    | _ => []
  require (hasExactly ["id", "jsonrpc", "method"] members
    ∨ hasExactly ["id", "jsonrpc", "method", "params"] members) (invalid "fields are")
  require (isString "2.0" (call.get? "jsonrpc")
    ∧ (((call.get? "method").bind coercedText).any fun m => m ∈ rpcMethods)
    ∧ isCallId (call.get? "id")) (.http 403 "RPC method is not allowed." none)
  let named (name : String) : Bool := isString name (call.get? "method")
  let params ← match call.get? "params" with
    | none => pure []
    | some (.array params) => pure params
    | some _ => .error (invalid "parameters are")
  require (params.length ≤ 2) (invalid "parameters are")
  require (named "getGenesisHash" = true → params = []) (invalid "parameters are")
  require (named "getBlockHeight" = true → params.length ≤ 1) (invalid "parameters are")
  require (named "getLatestBlockhash" = true → params.length ≤ 1) (invalid "parameters are")
  require (named "getAccountInfo" = true → params.head?.any publicKey) (invalid "account is")
  require (named "getMultipleAccounts" = true → isBatch publicKey params.head?)
    (invalid "accounts are")
  require (named "getSignatureStatuses" = true → isBatch (isBase58Text 64 100) params.head?)
    (invalid "signatures are")
  require (∀ options ∈ params.tail.head?, options.isPlain = true) (invalid "options are")
  if named "sendTransaction" then do
    require (params.head?.any fun value => match value with
      | .string s => 4 ≤ s.toList.length && s.toList.length ≤ 2_000 && isBase64 s.toList
      | _ => false) (invalid "transaction is")
    return 1
  else return 0

/-- `validateRpc`: the number of mutations in a batch. -/
def validateRpc (body : RequestBody) : Except Failure Nat := do
  let value ← okOr body.json (.http 400 "RPC body must be valid JSON." none)
  let calls := match value with
    | .array calls => calls
    | value => [value]
  require (¬ (calls.length = 0 ∨ calls.length > 10)) (.http 400 "RPC batch size is invalid." none)
  calls.foldlM (fun mutationCount call => do
    let mutations ← validateCall call
    return mutationCount + mutations) 0

end Broker

end DividendX
