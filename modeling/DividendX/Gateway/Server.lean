import DividendX.Gateway.RpcPolicy
import DividendX.Gateway.Base58
import DividendX.Lib.Json
import DividendX.Lib.Run
import DividendX.Lib.Sha256

/-!
# The gateway of a sandbox

`HostedGateway` of `packages/hosted-gateway/src/server.mjs`, as a state machine: its fields, and
where every handler of a request stands between two jobs of the event loop. A job runs from one
`await` to the next; jobs that are ready run in any order, and the outside world answers when it
likes. A promise that was chained with `then` has its operation run once the one before it has
settled.

Of the outside a `Platform` says how addresses are parsed and values turned into texts. What a
request carries beyond what is checked here is handed on as it is.
-/

namespace DividendX

namespace Gateway

open JsonValue Result
open Broker (Route isHex64 SandboxKind programId sessionRoute HttpMethod)

/-! ## Constants and values -/

def UPGRADEABLE_LOADER_ID : String := "BPFLoaderUpgradeab1e11111111111111111111111"

/-- `PUBLIC_GENESIS`. -/
def PUBLIC_GENESIS : List String :=
  ["5eykt4UsFv8P8NJdTREpY1vzqKqZKvdpKuc147dw2N9d", "EtWTRABZaYq6iMfeYKouRu166VU2xqa1wcaWoxPkrZBG",
    "4uhcVJyU9pJkvQyS88uRDiswHXSCkY3zQawwpjk2NsNY"]

/-- `GUIDED_ASSETS`. -/
def GUIDED_ASSETS : List String := ["xstocks-test-kox", "backpack-test-mu", "ondo-test-ibm"]

def MAX_BODY_BYTES : Nat := 32 * 1_024
def MAX_RUNTIME_WRITE_BYTES : Nat := 4 * 1_024
def MAX_INFLIGHT : Int := 8
def MAX_MUTATIONS : Int := 4

/-- `URL`, as far as it is looked at. -/
structure Url where
  protocol : String
  hostname : String
  /-- the number that is written there, if any -/
  port : Option Nat
  pathname : String
  username : String
  password : String
  search : String
  hash : String
  href : String
deriving DecidableEq, Repr

/-- What the language's runtime decides. -/
structure Platform where
  /-- `new URL(value)`, if it does not throw -/
  url : Option JsonValue → Option Url
  /-- `String(value)` -/
  text : Option JsonValue → String

/-- What a handler throws: an error with a status, or another one. -/
inductive Failure
  | http (status : Nat) (message : String)
  | other
deriving DecidableEq, Repr

/-- `new HttpError(503, 'session unavailable')`. -/
def unavailable : Failure := .http 503 "session unavailable"

/-- `===` of two parsed values: objects and arrays are never the same. -/
def strictEqual : Option JsonValue → Option JsonValue → Bool
  | none, none => true
  | some .null, some .null => true
  | some (.bool b), some (.bool b') => b = b'
  | some (.number n), some (.number n') => n = n'
  | some (.string s), some (.string s') => s = s'
  | _, _ => false

/-- `RUNTIME_ID.test`. -/
def isRuntimeId (s : String) : Bool :=
  3 ≤ s.toList.length && s.toList.length ≤ 128
    && s.toList.all fun c => c.isAlphanum || c ∈ ['.', '_', ':', '-']

/-- `Buffer.from(bytes).toString('hex')`. -/
def toHex (bytes : List UInt8) : String :=
  String.ofList (bytes.flatMap fun byte =>
    [Json.hexDigit (byte.toNat / 16), Json.hexDigit (byte.toNat % 16)])

/-- `hashToken`. -/
def hashToken (value : String) : List UInt8 := (Sha256.hash value.toUTF8.toList).toList

/-- `authorized`. -/
def authorized (header : Option String) (expectedDigest : List UInt8) : Bool :=
  let candidate := match header with
    | some text =>
      if "Bearer ".toList.isPrefixOf text.toList then String.ofList (text.toList.drop 7) else ""
    | none => ""
  hashToken candidate = expectedDigest

/-- `safeRpcUrl`. -/
def safeRpcUrl (p : Platform) (value : Option JsonValue) : Except String String := do
  let url ← okOr (p.url value) "Invalid URL"
  require (url.protocol = "http:" ∧ url.hostname = "127.0.0.1"
    ∧ (url.port.any fun port => 1 ≤ port ∧ port ≤ 65_535) = true
    ∧ url.pathname = "/" ∧ url.username = "" ∧ url.password = "" ∧ url.search = "" ∧ url.hash = "")
    "runtime RPC endpoint is unsafe"
  return url.href

/-! ## Requests -/

/-- The head of a request. -/
structure Request where
  authorization : Option String
  method : String
  url : String
  contentLength : Option String := none
  transferEncoding : Option String := none
  contentType : Option String := none

/-- `request.headers['content-length'] && … !== '0'`, or a transfer encoding. -/
def Request.hasBody (r : Request) : Bool :=
  (match r.contentLength with
    | some text => text ≠ "" && text ≠ "0"
    | none => false)
  || (match r.transferEncoding with
    | some text => text ≠ ""
    | none => false)

/-- A character of `\s` in a header. -/
def isBlank (c : Char) : Bool := c.toNat ∈ [9, 10, 11, 12, 13, 32, 0xa0]

/-- `exactContentType`: `/^application\/json(?:\s*;\s*charset=utf-8)?$/i`. -/
def exactContentType (contentType : Option String) : Except Failure Unit :=
  let rest := (contentType.getD "").toList.map Char.toLower
  let prefixed := "application/json".toList.isPrefixOf rest
  let parameter := (rest.drop "application/json".length).dropWhile isBlank
  let charset := (parameter.drop 1).dropWhile isBlank
  require (prefixed = true ∧ (rest.length = "application/json".length
      ∨ parameter.head? = some ';' ∧ charset = "charset=utf-8".toList))
    (.http 415 "content-type must be application/json")

/-- How the reading of a body ends: the connection breaks, or it has a size and perhaps a value. -/
inductive BodyRead
  | aborted
  | read (size : Nat) (json : Option JsonValue)

/-- The bound of a body. -/
def maximumOf (route : Route) : Nat :=
  if route = .rpc then MAX_BODY_BYTES else MAX_RUNTIME_WRITE_BYTES

/-- `readBody`, before anything is awaited. -/
def readHead (r : Request) (maximum : Nat) : Except Failure Unit :=
  match r.contentLength with
  | some declared => require ((declared.toList ≠ [] ∧ declared.toList.all Char.isDigit = true)
      ∧ declared.toNat?.getD 0 ≤ maximum) (.http 413 "request body is too large")
  | none => .ok ()

/-- The check of a guided start. -/
def checkStart (p : Platform) (members : List (String × JsonValue)) : Except Failure Unit :=
  require
    (members.length = 3 ∧ hasExactly ["assetId", "expectedRevision", "runtimeId"] members = true
      ∧ isRuntimeId (p.text (Record.find "runtimeId" members)) = true
      ∧ (((Record.find "expectedRevision" members).bind safeInteger?).any fun n => 0 ≤ n) = true
      ∧ (string? (Record.find "assetId" members)).any (· ∈ GUIDED_ASSETS) = true)
    (.http 400 "invalid guided start request")

/-- What `handle` checks of a body, up to its operation: the envelope of a JSON-RPC request. -/
def checkBody (p : Platform) (kind : SandboxKind) (route : Route) (body : BodyRead) :
    Except Failure (Option Envelope) :=
  match body with
  | .aborted => .error .other
  | .read size json => do
    require (size ≤ maximumOf route) (.http 413 "request body is too large")
    let value ← okOr json (.http 400 "request body must be valid JSON")
    if route = .rpc then
      match validateRpcEnvelope value with
      | .ok envelope => return some envelope
      | .error message => .error (.http 400 message)
    else match value with
      | .object members => do
        checkWhen (kind = .guided ∧ route = .start) (checkStart p members)
        return none
      | _ => .error (.http 400 "request body must be an object")

/-- `route`. -/
def routeOf (kind : SandboxKind) (method url : String) : Option Route :=
  [Route.manifest, .faucet, .advance, .rpc, .state, .receipt, .start, .step].find? fun route =>
    url = route.path ∧ ((sessionRoute kind route = some .get ∧ method = "GET")
      ∨ (sessionRoute kind route = some .post ∧ method = "POST"))

/-! ## Identities -/

/-- `identity`; a field that is missing reads as `null`. -/
structure Identity where
  runtimeId : Option JsonValue := none
  genesisHash : Option String := none
  deploymentDomainHex : Option String := none
  rpcUrl : Option String := none

/-- A chain that is named by a runtime. -/
structure NamedChain where
  rpcUrl : String
  genesisHash : String
  deploymentDomainHex : String
deriving DecidableEq, Repr

/-- The chain an identity is pinned to. -/
def Identity.pinned (identity : Identity) : Option (String × Option String × Option String) :=
  identity.genesisHash.map fun genesisHash =>
    (genesisHash, identity.deploymentDomainHex, identity.rpcUrl)

/-- How a request to the runtime or its chain ends. -/
inductive Reply
  | rejected
  | tooLarge
  | response (status : Nat) (value : Option JsonValue)

/-- `response.ok`. -/
def isOk (status : Nat) : Bool := 200 ≤ status && status ≤ 299

/-- A call of `verifyRpc`: the identity it found, the chain to verify, and where its requests
went. -/
structure Verification where
  previous : Option Identity
  chain : NamedChain
  asked : List String

/-- What an answer means to a call of `verifyRpc`. -/
inductive Verdict
  | asks (next : Verification)
  | resolves
  | refuses

namespace Verification

/-- The answer to the request under way is the one that was hoped for. -/
def accepts (v : Verification) : Reply → Bool
  | .response status (some value) => isOk status &&
    (if v.asked.length = 1 then isString v.chain.genesisHash (value.get? "result")
    else
      let account := (value.get? "result").bind (·.get? "value")
      truthy account && isTrue (account.bind (·.get? "executable"))
        && isString UPGRADEABLE_LOADER_ID (account.bind (·.get? "owner")))
  | _ => false

/-- `verifyRpc`, from an answer to its next request or its end; that goes where `this.identity` says
by now, and `fetch` rejects without an address. -/
def answer (v : Verification) (endpoint : Option String) (reply : Reply) : Verdict :=
  if v.accepts reply then
    if v.asked.length = 1 then
      match endpoint with
      | some rpcUrl => .asks { v with asked := v.asked ++ [rpcUrl] }
      | none => .refuses
    else .resolves
  else .refuses

end Verification

/-! ## The gateway -/

/-- `phase`. -/
inductive Phase
  | starting
  | ready
  | expired
  | startupFailed
  | childExited
  | identityFailed
  | stopped
deriving DecidableEq, Repr

/-- Where a handler stands: what it awaits, or that it is over. -/
inductive Place
  /-- the body of the request -/
  | reading
  /-- the operation before its own in `mutationTail` -/
  | queued
  /-- the runtime, or its chain -/
  | forwarding
  /-- its turn to check the values that are left -/
  | validating (values : List JsonValue)
  /-- an answer to `verifyRpc`; values are left -/
  | verifying (v : Verification) (values : List JsonValue)
  /-- its turn, after `verifyRpc` has resolved -/
  | verified (v : Verification) (values : List JsonValue)
  /-- its turn, after a check has thrown -/
  | refused
  /-- its turn, after its operation has settled -/
  | returned (result : Except Failure Unit)
  /-- nothing; it has answered with a status, and with an error or what the runtime said -/
  | finished (status : Nat) (error : Option String)

/-- A handler is past its operation. -/
def Place.isOver : Place → Bool
  | .returned _ => true
  | .finished _ _ => true
  | _ => false

/-- A request that was given a slot. -/
structure Handler where
  route : Route
  /-- the parsed request of the route `rpc` -/
  envelope : Option Envelope := none
  /-- it was let into `mutate` -/
  mutation : Bool := false
  /-- `forward` was begun for it -/
  forwarded : Bool := false
  /-- `result.response.status` -/
  status : Nat := 0
  place : Place

/-- Where `discover` stands. -/
inductive Discovery
  /-- it is never called -/
  | absent
  /-- the manifest of a wallet, or the state of a guided demo -/
  | asking
  | verifying (v : Verification) (runtimeId : Option JsonValue)
  | verified (v : Verification) (runtimeId : Option JsonValue)
  /-- a tenth of a second -/
  | resting
  | over

/-- `HostedGateway`. -/
structure HostedGateway where
  kind : SandboxKind
  tokenDigest : List UInt8
  expiresAtMs : Int
  /-- `deadline` of `discover` -/
  deadline : Int
  /-- what `this.now()` reads -/
  now : Int
  phase : Phase := .starting
  runtimeId : Option JsonValue := none
  identity : Option Identity := none
  inflight : Int := 0
  mutationCount : Int := 0
  /-- the promises that were chained in `mutationTail`: whose operation each runs -/
  chain : List Nat := []
  guidedStartClaimed : Bool := false
  closing : Bool := false
  handlers : List Handler := []
  discovery : Discovery := .absent

/-- The constructor's `config` and `options`, as far as they matter. -/
structure Config where
  kind : SandboxKind
  token : String
  expiresAtMs : Int
  startupTimeoutMs : Int := 30_000

namespace HostedGateway

variable (s : HostedGateway)

/-! ### Phases -/

/-- `fail`. -/
def fail (phase : Phase) : HostedGateway :=
  if s.closing ∨ s.phase ∈ [Phase.expired, .startupFailed, .childExited, .identityFailed] then s
  else { s with phase := phase }

/-- `close`, with `'stopped'`. -/
def close : HostedGateway := if s.closing then s else { s with closing := true, phase := .stopped }

/-- `expire`, and `close('expired')`. -/
def expire : HostedGateway := if s.closing then s else { s with phase := .expired, closing := true }

/-- The listener for the child's `exit`, and for its `error`. -/
def childExited : HostedGateway :=
  s.fail (if s.phase = .starting then .startupFailed else .childExited)

/-! ### Handlers -/

/-- A handler moves on. -/
def put (i : Nat) (h : Handler) : HostedGateway := { s with handlers := s.handlers.set i h }

/-- What `handle` answers to an error. -/
def answerOf : Failure → Nat × String
  | .http status message => (status, message)
  | .other =>
    if s.phase = .identityFailed then (503, "session unavailable")
    else (502, "runtime request failed")

/-- `finally`: the slot is given back. -/
def finish (i : Nat) (h : Handler) (status : Nat) (error : Option String) : HostedGateway :=
  { s.put i { h with place := .finished status error } with inflight := s.inflight - 1 }

/-- An error ends a handler. -/
def throws (i : Nat) (h : Handler) (e : Failure) : HostedGateway :=
  s.finish i h (s.answerOf e).1 (some (s.answerOf e).2)

/-- An operation has settled. -/
def settle (i : Nat) (h : Handler) (result : Except Failure Unit) : HostedGateway :=
  s.put i { h with place := .returned result }

/-- `this.identity.rpcUrl`, if there is one. -/
def endpoint : Option String := s.identity.bind Identity.rpcUrl

/-- `forward`, up to its request. -/
def forward (i : Nat) (h : Handler) : HostedGateway :=
  if h.route = .rpc ∧ s.endpoint = none then
    s.settle i { h with forwarded := true } (.error .other)
  else s.put i { h with forwarded := true, place := .forwarding }

/-- `operation`. -/
def operate (i : Nat) (h : Handler) : HostedGateway :=
  if s.phase ≠ .ready then s.settle i h (.error unavailable)
  else if s.expiresAtMs ≤ s.now then s.expire.settle i h (.error unavailable)
  else if s.kind = .guided ∧ h.route = .start then
    if s.guidedStartClaimed then
      s.settle i h (.error (.http 409 "guided runtime already started"))
    else { s with guidedStartClaimed := true }.forward i h
  else s.forward i h

/-- `mutate`, up to its `await`. -/
def mutate (i : Nat) (h : Handler) : HostedGateway :=
  if MAX_MUTATIONS ≤ s.mutationCount then s.throws i h (.http 429 "mutation queue is full")
  else { s.put i { h with mutation := true, place := .queued } with
    mutationCount := s.mutationCount + 1, chain := s.chain ++ [i] }

/-- The checks of `handle` before a slot is taken. -/
def admission (r : Request) : Except Failure Route := do
  require (s.phase = .ready) unavailable
  require (¬ MAX_INFLIGHT ≤ s.inflight) (.http 429 "too many requests")
  okOr (routeOf s.kind r.method r.url) (.http 404 "route not found")

/-- A slot is taken. -/
def reserve (route : Route) : HostedGateway :=
  { s with inflight := s.inflight + 1,
           handlers := s.handlers ++ [{ route := route, place := .reading }] }

/-- `handle` of an admitted request, up to the body or, without one, to its operation. -/
def begin (i : Nat) (h : Handler) (r : Request) : HostedGateway :=
  if r.method = "POST" then
    match exactContentType r.contentType >>= fun _ => readHead r (maximumOf h.route) with
    | .error e => s.throws i h e
    | .ok _ => s
  else if r.hasBody then s.throws i h (.http 400 "GET requests cannot contain a body")
  else s.operate i h

/-- `handle`, up to its first `await`. What is answered without a slot is not kept. -/
def handle (r : Request) : HostedGateway :=
  if authorized r.authorization s.tokenDigest = false then s
  else if s.expiresAtMs ≤ s.now then s.expire
  else if r.method = "GET" ∧ r.url = "/health" then s
  else match s.admission r with
    | .error _ => s
    | .ok route => (s.reserve route).begin s.handlers.length { route := route, place := .reading } r

/-- `handle`, after the body. -/
def received (p : Platform) (i : Nat) (h : Handler) (body : BodyRead) : HostedGateway :=
  match checkBody p s.kind h.route body with
  | .error e => s.throws i h e
  | .ok envelope =>
    if isMutation h.route envelope then s.mutate i { h with envelope := envelope }
    else s.operate i { h with envelope := envelope }

/-- `handle`, after its operation; `mutate` lets go of the operation first. -/
def resume (i : Nat) (h : Handler) (result : Except Failure Unit) : HostedGateway :=
  let s := { s with mutationCount := if h.mutation then s.mutationCount - 1 else s.mutationCount }
  match result with
  | .error e => s.throws i h e
  | .ok _ =>
    if s.phase ≠ .ready ∨ s.expiresAtMs ≤ s.now then s.throws i h unavailable
    else s.finish i h h.status none

/-! ### Checks of what the runtime says -/

/-- `validateGuidedState`, up to `verifyRpc`: the chain to verify, if the identity is not pinned. -/
def checkGuidedState (p : Platform) (value : JsonValue) : Except String (Option NamedChain) := do
  let changed := "guided runtime identity changed"
  require (value.isPlain = true ∧ isNumber 4 (value.get? "schemaVersion") = true
    ∧ strictEqual (value.get? "runtimeId") s.runtimeId = true
    ∧ (isNull (value.get? "asset") = true ∨ (value.get? "asset").any isPlain = true
      ∧ (string? ((value.get? "asset").bind (·.get? "id"))).any (· ∈ GUIDED_ASSETS) = true)) changed
  if isNull (value.get? "snapshot") = true ∨ (value.get? "snapshot").isNone then return none
  let invalid := "guided chain identity is invalid"
  let snapshot ← okOr ((value.get? "snapshot").filter isPlain) invalid
  let asset ← okOr ((snapshot.get? "asset").filter isPlain) invalid
  require (strictEqual (asset.get? "id") ((value.get? "asset").bind (·.get? "id")) = true
    ∧ isString programId (snapshot.get? "dividendXProgram") = true) invalid
  let genesisHash ← okOr (string? (snapshot.get? "genesisHash")) invalid
  require (genesisHash ∉ PUBLIC_GENESIS) invalid
  let bytes ← base58Bytes (Utf16.ofString genesisHash)
  let rpcUrl ← safeRpcUrl p (snapshot.get? "rpcUrl")
  let named : NamedChain :=
    { rpcUrl := rpcUrl, genesisHash := genesisHash, deploymentDomainHex := toHex bytes }
  let identity ← okOr s.identity invalid
  match identity.pinned with
  | some pinned => do
    require (pinned = (genesisHash, some named.deploymentDomainHex, some rpcUrl))
      "guided chain identity changed"
    return none
  | none => return some named

/-- The state that `validateGuidedReceipt` makes of a checkpoint. -/
def stateOf (value checkpoint : JsonValue) : JsonValue :=
  .object (("schemaVersion", .number 4) :: [("runtimeId", value.get? "runtimeId"),
    ("asset", value.get? "asset"), ("snapshot", checkpoint.get? "snapshot")].filterMap
      fun m => m.2.map fun member => (m.1, member))

/-- `validateGuidedReceipt`, up to its loop: the states it checks. -/
def checkGuidedReceipt (value : JsonValue) : Except String (List JsonValue) := do
  require (value.isPlain = true ∧ isNumber 4 (value.get? "schemaVersion") = true
    ∧ strictEqual (value.get? "runtimeId") s.runtimeId = true
    ∧ (value.get? "asset").any isPlain = true
    ∧ (string? ((value.get? "asset").bind (·.get? "id"))).any (· ∈ GUIDED_ASSETS) = true)
    "guided receipt identity changed"
  match value.get? "checkpoints" with
  | some (.array checkpoints) =>
    let shown := checkpoints.filter fun checkpoint =>
      checkpoint.isPlain && truthy (checkpoint.get? "snapshot")
    return shown.map (stateOf value)
  | _ => return []

/-- The check of a wallet's manifest in `forward`. -/
def checkManifest (p : Platform) (value : JsonValue) : Except String Unit := do
  let changed := "wallet runtime identity changed"
  let identity ← okOr s.identity changed
  require (strictEqual (value.get? "runtimeId") identity.runtimeId = true
    ∧ string? (value.get? "genesisHash") = identity.genesisHash
    ∧ string? (value.get? "deploymentDomainHex") = identity.deploymentDomainHex) changed
  let rpcUrl ← safeRpcUrl p (value.get? "rpcUrl")
  require (some rpcUrl = identity.rpcUrl ∧ isString programId (value.get? "programId") = true)
    changed

/-- `verifyRpc`, up to its first `await`. -/
def verifyRpc (named : NamedChain) : HostedGateway × Verification :=
  ({ s with identity := some { s.identity.getD {} with rpcUrl := some named.rpcUrl } },
    { previous := s.identity, chain := named, asked := [named.rpcUrl] })

/-- `forward`, from the answer: what is checked at once, and what is checked in turn. -/
def replied (p : Platform) (i : Nat) (h : Handler) : Reply → HostedGateway
  | .rejected => s.settle i h (.error .other)
  | .tooLarge => s.settle i h (.error (.http 502 "runtime response is too large"))
  | .response status value =>
    if status < 200 ∨ 599 < status then
      s.settle i h (.error (.http 502 "runtime returned an invalid status"))
    else match value with
      | none => s.settle i h (.error (.http 502 "runtime returned invalid JSON"))
      | some value =>
        let h := { h with status := status }
        if isOk status = false then s.settle i h (.ok ())
        else match s.kind, h.route with
          | .guided, .receipt => match s.checkGuidedReceipt value with
            | .ok values => s.put i { h with place := .validating values }
            | .error _ => s.put i { h with place := .refused }
          | .guided, .state | .guided, .start | .guided, .step =>
            s.put i { h with place := .validating [value] }
          | _, .manifest => match s.checkManifest p value with
            | .ok _ => s.settle i h (.ok ())
            | .error _ => s.put i { h with place := .refused }
          | _, .rpc =>
            if h.envelope.any (fun e => e.method = "getGenesisHash")
              ∧ string? (value.get? "result") ≠ s.identity.bind Identity.genesisHash
            then s.put i { h with place := .refused } else s.settle i h (.ok ())
          | _, _ => s.settle i h (.ok ())

/-- A handler's turn: the next value is checked, what was verified is pinned, or the gateway
fails. -/
def proceed (p : Platform) (i : Nat) (h : Handler) : Option HostedGateway :=
  match h.place with
  | .validating [] => some (s.settle i h (.ok ()))
  | .validating (value :: values) => match s.checkGuidedState p value with
    | .error _ => some (s.put i { h with place := .refused })
    | .ok none => some (s.put i { h with place := .validating values })
    | .ok (some named) =>
      let begun := s.verifyRpc named
      some (begun.1.put i { h with place := .verifying begun.2 values })
  | .verified v values =>
    -- What another verification has pinned since this one began is not looked at.
    let identity : Identity := { s.identity.getD {} with
      genesisHash := some v.chain.genesisHash
      deploymentDomainHex := some v.chain.deploymentDomainHex
      rpcUrl := some v.chain.rpcUrl }
    some ({ s with identity := some identity }.put i { h with place := .validating values })
  | .refused => some ((s.fail .identityFailed).settle i h (.error unavailable))
  | _ => none

/-- An answer to `verifyRpc` of a handler; a refusal restores the identity that it found. -/
def answered (i : Nat) (h : Handler) (v : Verification) (values : List JsonValue) (reply : Reply) :
    HostedGateway :=
  match v.answer s.endpoint reply with
  | .asks next => s.put i { h with place := .verifying next values }
  | .resolves => s.put i { h with place := .verified v values }
  | .refuses => { s with identity := v.previous }.put i { h with place := .refused }

/-! ### Discovery -/

/-- The head of the loop of `discover`. -/
def loop : HostedGateway :=
  if s.phase = .starting ∧ s.now < s.deadline then { s with discovery := .asking }
  else if s.phase = .starting then { s.fail .startupFailed with discovery := .over }
  else { s with discovery := .over }

/-- A turn of the loop has found an identity. -/
def found (runtimeId : Option JsonValue) (identity : Identity) : HostedGateway :=
  { s with
    runtimeId := runtimeId
    identity := some identity
    phase := if s.phase = .starting then .ready else s.phase
    discovery := .over }

/-- `discoverWallet`, up to `verifyRpc`. -/
def checkWallet (p : Platform) (value : JsonValue) : Except String NamedChain := do
  let invalid := "manifest identity is invalid"
  require (value.isPlain = true ∧ isNumber 1 (value.get? "schemaVersion") = true
    ∧ isString "surfnet" (value.get? "kind") = true
    ∧ isRuntimeId (p.text (value.get? "runtimeId")) = true
    ∧ isString programId (value.get? "programId") = true) invalid
  let genesisHash ← okOr (string? (value.get? "genesisHash")) invalid
  require (genesisHash ∉ PUBLIC_GENESIS) invalid
  let deploymentDomainHex ← okOr (string? (value.get? "deploymentDomainHex")) invalid
  require (isHex64 deploymentDomainHex = true) invalid
  let _ ← base58Bytes (Utf16.ofString genesisHash)
  let rpcUrl ← safeRpcUrl p (value.get? "rpcUrl")
  return { rpcUrl := rpcUrl, genesisHash := genesisHash,
           deploymentDomainHex := deploymentDomainHex }

/-- The check of `discoverGuided`. -/
def checkInitialState (p : Platform) (value : JsonValue) : Except String Unit :=
  require (value.isPlain = true ∧ isNumber 4 (value.get? "schemaVersion") = true
    ∧ isRuntimeId (p.text (value.get? "runtimeId")) = true
      ∧ isString "idle" (value.get? "status") = true
    ∧ isNull (value.get? "asset") = true ∧ isNull (value.get? "snapshot") = true)
    "initial guided state is invalid"

/-- An answer of the runtime to `discover`. -/
def discovered (p : Platform) (reply : Reply) : HostedGateway :=
  match reply with
  | .response status (some value) =>
    if isOk status = false then { s with discovery := .resting }
    else match s.kind with
      | .guided => match checkInitialState p value with
        | .ok _ => s.found (value.get? "runtimeId") { runtimeId := value.get? "runtimeId" }
        | .error _ => { s with discovery := .resting }
      | .wallet => match checkWallet p value with
        | .ok named =>
          let begun := s.verifyRpc named
          { begun.1 with discovery := .verifying begun.2 (value.get? "runtimeId") }
        | .error _ => { s with discovery := .resting }
  | _ => { s with discovery := .resting }

/-- An answer to `verifyRpc` of `discover`. -/
def discoveredRpc (v : Verification) (runtimeId : Option JsonValue)
    (reply : Reply) : HostedGateway :=
  match v.answer s.endpoint reply with
  | .asks next => { s with discovery := .verifying next runtimeId }
  | .resolves => { s with discovery := .verified v runtimeId }
  | .refuses => { s with identity := v.previous, discovery := .resting }

/-! ### Runs -/

/-- What can happen. -/
inductive Event
  | request (r : Request)
  | body (i : Nat) (body : BodyRead)
  /-- an operation in the chain is run -/
  | turn (k : Nat)
  | reply (i : Nat) (reply : Reply)
  | proceed (i : Nat)
  | rpc (i : Nat) (reply : Reply)
  | resume (i : Nat)
  | discovered (reply : Reply)
  | discoveredRpc (reply : Reply)
  | discovers
  | childExited
  | timer
  | close
  | clock (now : Int)

/-- The operation before this one in the chain has settled. -/
def isNext (k : Nat) : Bool :=
  match k with
  | 0 => true
  | k + 1 => ((s.chain[k]?).bind (s.handlers[·]?)).any fun h => h.place.isOver

/-- One event, if it can happen. -/
def step (p : Platform) (s : HostedGateway) : Event → Option HostedGateway
  | .request r => some (s.handle r)
  | .body i body => match s.handlers[i]? with
    | some h => match h.place with
      | .reading => some (s.received p i h body)
      | _ => none
    | none => none
  | .turn k => match s.chain[k]? with
    | some i => match s.handlers[i]? with
      | some h => match h.place with
        | .queued => if s.isNext k then some (s.operate i h) else none
        | _ => none
      | none => none
    | none => none
  | .reply i reply => match s.handlers[i]? with
    | some h => match h.place with
      | .forwarding => some (s.replied p i h reply)
      | _ => none
    | none => none
  | .proceed i => match s.handlers[i]? with
    | some h => s.proceed p i h
    | none => none
  | .rpc i reply => match s.handlers[i]? with
    | some h => match h.place with
      | .verifying v values => some (s.answered i h v values reply)
      | _ => none
    | none => none
  | .resume i => match s.handlers[i]? with
    | some h => match h.place with
      | .returned result => some (s.resume i h result)
      | _ => none
    | none => none
  | .discovered reply => match s.discovery with
    | .asking => some (s.discovered p reply)
    | _ => none
  | .discoveredRpc reply => match s.discovery with
    | .verifying v runtimeId => some (s.discoveredRpc v runtimeId reply)
    | _ => none
  | .discovers => match s.discovery with
    | .resting => some s.loop
    | .verified v runtimeId => some (s.found runtimeId {
        runtimeId := runtimeId
        genesisHash := some v.chain.genesisHash
        deploymentDomainHex := some v.chain.deploymentDomainHex
        rpcUrl := some v.chain.rpcUrl })
    | _ => none
  | .childExited => match s.discovery with
    | .absent => none
    | _ => some s.childExited
  | .timer => match s.discovery with
    | .absent => none
    | _ => some s.expire
  | .close => some s.close
  | .clock now => some { s with now := now }

/-- `start`, from where it listens: the child was spawned, or `spawn` threw. -/
def start (config : Config) (now : Int) (spawned : Bool) : Option HostedGateway :=
  let s : HostedGateway :=
    { kind := config.kind
      tokenDigest := hashToken config.token
      expiresAtMs := config.expiresAtMs
      deadline := now + config.startupTimeoutMs
      now := now }
  if config.expiresAtMs ≤ now ∨ now + 20 * 60_000 < config.expiresAtMs then none
  else if spawned then some s.loop
  else some (s.fail .startupFailed)

end HostedGateway

end Gateway

end DividendX
