import DividendX.Broker.Responses

/-!
# What the gateway lets through to the chain

`rpc-policy.mjs`: the gateway inside a sandbox checks every JSON-RPC request again before it is
forwarded. It takes one call at a time, knows more methods than the broker and looks at every
option.

The broker has charged for the mutations of a request before it gets here, by its own reading of the
same bytes. `validateRpc_metered_iff` says when that reading can be relied on.
-/

namespace DividendX

namespace Gateway

open JsonValue Result
open Broker (isBase58Text Route)

/-! ## Checks -/

/-- A check fails with the message of an `RpcPolicyError`. -/
abbrev Checked := Except String

/-- `COMMITMENTS`. -/
def COMMITMENTS : List String := ["processed", "confirmed", "finalized"]

def MAX_TRANSACTION_BYTES : Nat := 1_232
def MAX_ACCOUNT_LIST : Nat := 32
def MAX_SIGNATURE_LIST : Nat := 32

/-- `record`: the members of an object. -/
def record (value : Option JsonValue) (label : String) : Checked (List (String × JsonValue)) :=
  match value with
  | some (.object members) => .ok members
  | _ => .error (label ++ " must be an object")

/-- `exactKeys`. -/
def exactKeys (members : List (String × JsonValue)) (allowed : List String)
    (label : String) : Checked Unit :=
  require (∀ m ∈ members, m.1 ∈ allowed) (label ++ " contains an unsupported field")

/-- `address`. -/
def address (value : JsonValue) : Checked Unit :=
  require (isBase58Text 32 44 value = true) "address is invalid"

/-- A text of a set, or nothing. -/
def isOneOf (texts : List String) (value : Option JsonValue) : Bool :=
  match value with
  | none => true
  | some (.string s) => s ∈ texts
  | some _ => false

/-- A safe integer from zero to a bound, or nothing. -/
def isCountUpTo (bound : Int) : Option JsonValue → Bool
  | none => true
  | some value => (safeInteger? value).any fun n => 0 ≤ n ∧ n ≤ bound

/-- `true` or `false`, or nothing. -/
def isBoolean : Option JsonValue → Bool
  | none | some (.bool _) => true
  | some _ => false

/-- `commitment`. -/
def commitment (value : Option JsonValue) : Checked Unit :=
  require (isOneOf COMMITMENTS value = true) "commitment is invalid"

/-- `minContextSlot`. -/
def minContextSlot (value : Option JsonValue) : Checked Unit :=
  require (isCountUpTo (2 ^ 53 - 1) value = true) "minContextSlot is invalid"

/-- `config`. -/
def config (value : Option JsonValue) (allowed : List String) :
    Checked (List (String × JsonValue)) := do
  let item ← record value "config"
  exactKeys item allowed "config"
  commitment (Record.find "commitment" item)
  minContextSlot (Record.find "minContextSlot" item)
  return item

/-- `optionalConfig`. -/
def optionalConfig (params : List JsonValue) (allowed : List String) : Checked Unit :=
  checkWhen (params.length = 2) (discard (config params[1]? allowed))

/-- `count`. -/
def count (params : List JsonValue) (minimum maximum : Nat) : Checked Unit :=
  require (minimum ≤ params.length ∧ params.length ≤ maximum) "parameter count is invalid"

/-! ### Base64 -/

/-- The characters of base64, in the order of their values. -/
def base64Alphabet : List Char :=
  "ABCDEFGHIJKLMNOPQRSTUVWXYZabcdefghijklmnopqrstuvwxyz0123456789+/".toList

/-- `/^(?:[A-Za-z0-9+/]{4})*(?:[A-Za-z0-9+/]{2}==|[A-Za-z0-9+/]{3}=)?$/`. -/
def isBase64Text : List Char → Bool
  | [] => true
  | [a, b, '=', '='] => [a, b].all (· ∈ base64Alphabet)
  | [a, b, c, '='] => [a, b, c].all (· ∈ base64Alphabet)
  | a :: b :: c :: d :: rest => [a, b, c, d].all (· ∈ base64Alphabet) && isBase64Text rest
  | _ => false

/-- The bits of a character, and of a byte, highest first. -/
def bitsOf (width n : Nat) : List Bool := (List.range width).reverse.map n.testBit

/-- The number with these bits. -/
def ofBits (bits : List Bool) : Nat := bits.foldl (fun n b => 2 * n + b.toNat) 0

/-- The pieces of a list, the last one perhaps short. -/
def pieces (width : Nat) (bits : List Bool) : List (List Bool) := bits.toChunks width

/-- `Buffer.from(value, 'base64')` of such a text: six bits a character, the bits that do not fill a
byte dropped. -/
def decodeBase64 (text : List Char) : List Nat :=
  let bits := (text.filter (· ≠ '=')).flatMap fun c => bitsOf 6 (base64Alphabet.idxOf c)
  ((pieces 8 bits).filter fun piece => piece.length = 8).map ofBits

/-- `toString('base64')`: the last character filled up with zero bits, the text with `=`. -/
def encodeBase64 (bytes : List Nat) : List Char :=
  let digits := (pieces 6 (bytes.flatMap (bitsOf 8))).map fun piece =>
    base64Alphabet.getD (ofBits (piece ++ List.replicate (6 - piece.length) false)) 'A'
  digits ++ List.replicate ((4 - digits.length % 4) % 4) '='

/-- `base64`. -/
def base64 (value : Option JsonValue) (label : String) : Checked Unit := do
  let limit := MAX_TRANSACTION_BYTES
  match value with
  | some (.string s) =>
    require (s.toList ≠ [] ∧ s.toList.length ≤ (limit + 2) / 3 * 4 ∧ isBase64Text s.toList = true)
      (label ++ " must be canonical base64")
    let decoded := decodeBase64 s.toList
    require (decoded.length ≤ limit ∧ encodeBase64 decoded = s.toList)
      (label ++ " is too large or malformed")
  | _ => .error (label ++ " must be canonical base64")

/-! ## The methods -/

/-- `ACCOUNT_CONFIG`. -/
def ACCOUNT_CONFIG : List String := ["commitment", "encoding", "minContextSlot"]

/-- `SIMPLE_CONFIG`. -/
def SIMPLE_CONFIG : List String := ["commitment", "minContextSlot"]

/-- `accountConfig`. -/
def accountConfig (value : Option JsonValue) : Checked Unit := do
  let item ← config value ACCOUNT_CONFIG
  require (isOneOf ["base64"] (Record.find "encoding" item) = true)
    "account encoding must be base64"

/-- A method that takes a config and nothing else. -/
def configOnly (allowed : List String) (params : List JsonValue) : Checked Unit := do
  count params 0 1
  checkWhen (params ≠ []) (discard (config params.head? allowed))

/-- The first parameter is a list of 1 to 32 items that all pass. -/
def batch (value : Option JsonValue) (maximum : Nat) (message : String)
    (check : JsonValue → Checked Unit) :
    Checked Unit :=
  match value with
  | some (.array items) => do
    require (1 ≤ items.length ∧ items.length ≤ maximum) message
    items.forM check
  | _ => .error message

def getGenesisHash : List JsonValue → Checked Unit := configOnly ["commitment"]

def getAccountInfo (params : List JsonValue) : Checked Unit := do
  count params 1 2
  address (params.headD .null)
  checkWhen (params.length = 2) (accountConfig params[1]?)

def getMultipleAccounts (params : List JsonValue) : Checked Unit := do
  count params 1 2
  batch params.head? MAX_ACCOUNT_LIST "account list must contain 1 to 32 addresses" address
  checkWhen (params.length = 2) (accountConfig params[1]?)

def getLatestBlockhash : List JsonValue → Checked Unit := configOnly SIMPLE_CONFIG

def getSignatureStatuses (params : List JsonValue) : Checked Unit := do
  count params 1 2
  batch params.head? MAX_SIGNATURE_LIST "signature list must contain 1 to 32 signatures" fun item =>
    require (isBase58Text 64 100 item = true) "signature is invalid"
  checkWhen (params.length = 2) do
    let item ← config params[1]? ["searchTransactionHistory"]
    require (isBoolean (Record.find "searchTransactionHistory" item) = true)
      "searchTransactionHistory is invalid"

def getBlockHeight : List JsonValue → Checked Unit := configOnly SIMPLE_CONFIG

def getBalance (params : List JsonValue) : Checked Unit := do
  count params 1 2
  address (params.headD .null)
  optionalConfig params SIMPLE_CONFIG

def getMinimumBalanceForRentExemption (params : List JsonValue) : Checked Unit := do
  count params 1 2
  require (isCountUpTo 1_048_576 params.head? = true) "account size is invalid"
  optionalConfig params ["commitment"]

def getFeeForMessage (params : List JsonValue) : Checked Unit := do
  count params 1 2
  base64 params.head? "message"
  optionalConfig params SIMPLE_CONFIG

def sendTransaction (params : List JsonValue) : Checked Unit := do
  count params 1 2
  base64 params.head? "transaction"
  checkWhen (params.length = 2) do
    let item ← config params[1]?
      ["encoding", "skipPreflight", "preflightCommitment", "maxRetries", "minContextSlot"]
    require (isOneOf ["base64"] (Record.find "encoding" item) = true)
      "transaction encoding must be base64"
    require (isBoolean (Record.find "skipPreflight" item) = true) "skipPreflight is invalid"
    require (isOneOf COMMITMENTS (Record.find "preflightCommitment" item) = true)
      "preflightCommitment is invalid"
    require (isCountUpTo 5 (Record.find "maxRetries" item) = true) "maxRetries is invalid"

/-- The `accounts` member of the options of a simulation. -/
def simulationAccounts (value : JsonValue) : Checked Unit := do
  let accounts ← record (some value) "accounts"
  exactKeys accounts ["encoding", "addresses"] "accounts"
  require (isString "base64" (Record.find "encoding" accounts) = true)
    "simulation account encoding must be base64"
  match Record.find "addresses" accounts with
  | some (.array addresses) =>
    require (addresses.length ≤ MAX_ACCOUNT_LIST) "simulation account list is too large"
    addresses.forM address
  | _ => .error "simulation account list is too large"

def simulateTransaction (params : List JsonValue) : Checked Unit := do
  count params 1 2
  base64 params.head? "transaction"
  checkWhen (params.length = 2) do
    let item ← config params[1]? ["encoding", "sigVerify", "replaceRecentBlockhash", "commitment",
      "minContextSlot", "accounts", "innerInstructions"]
    require (isOneOf ["base64"] (Record.find "encoding" item) = true)
      "transaction encoding must be base64"
    require (isBoolean (Record.find "sigVerify" item) = true) "sigVerify is invalid"
    require (isBoolean (Record.find "replaceRecentBlockhash" item) = true)
      "replaceRecentBlockhash is invalid"
    require (¬ (isTrue (Record.find "sigVerify" item) = true
        ∧ isTrue (Record.find "replaceRecentBlockhash" item) = true))
      "signature verification and blockhash replacement cannot both be enabled"
    require (isBoolean (Record.find "innerInstructions" item) = true) "innerInstructions is invalid"
    match Record.find "accounts" item with
    | none => return ()
    | some accounts => simulationAccounts accounts

def getSlot : List JsonValue → Checked Unit := configOnly SIMPLE_CONFIG

def getVersion (params : List JsonValue) : Checked Unit := count params 0 0

/-- `validators`. -/
def validators : List (String × (List JsonValue → Checked Unit)) :=
  [("getGenesisHash", getGenesisHash), ("getAccountInfo", getAccountInfo),
    ("getMultipleAccounts", getMultipleAccounts), ("getLatestBlockhash", getLatestBlockhash),
    ("getSignatureStatuses", getSignatureStatuses), ("getBlockHeight", getBlockHeight),
    ("getBalance", getBalance),
      ("getMinimumBalanceForRentExemption", getMinimumBalanceForRentExemption),
    ("getFeeForMessage", getFeeForMessage), ("sendTransaction", sendTransaction),
    ("simulateTransaction", simulateTransaction), ("getSlot", getSlot), ("getVersion", getVersion)]

/-- An id is a safe integer or a text of 1 to 64 code units. -/
def isEnvelopeId : Option JsonValue → Bool
  | some (.string s) =>
    let length := (s.toList.map fun c => if c.toNat < 0x10000 then 1 else 2).sum
    decide (1 ≤ length ∧ length ≤ 64)
  | some value => (safeInteger? value).isSome
  | none => false

/-- An accepted request. -/
structure Envelope where
  members : List (String × JsonValue)
  method : String
  params : List JsonValue

/-- `validateRpcEnvelope`. -/
def validateRpcEnvelope (value : JsonValue) : Checked Envelope := do
  let members ← record (some value) "JSON-RPC request"
  exactKeys members ["jsonrpc", "id", "method", "params"] "JSON-RPC request"
  require (members.length = 4 ∧ isString "2.0" (Record.find "jsonrpc" members) = true)
    "JSON-RPC envelope is invalid"
  require (isEnvelopeId (Record.find "id" members) = true) "JSON-RPC id is invalid"
  let method ← okOr (string? (Record.find "method" members)) "JSON-RPC method is not allowed"
  let validate ← okOr (validators.lookup method) "JSON-RPC method is not allowed"
  let params ← match Record.find "params" members with
    | some (.array params) => pure params
    | _ => .error "params must be an array"
  validate params
  return { members := members, method := method, params := params }

/-- `mutation` in `handle`: the requests that are queued one after the other. -/
def isMutation (route : Route) (envelope : Option Envelope) : Bool :=
  route ∈ [.faucet, .advance, .start, .step] ∨ route = .rpc ∧ envelope.any fun e =>
    e.method = "sendTransaction"

end Gateway

namespace Broker

open JsonValue Result

/-! ## What the broker charges for -/

/-- The calls of a body: a batch, or one call. -/
def callsOf : JsonValue → List JsonValue
  | .array calls => calls
  | value => [value]

/-- The parameters of a call. -/
def paramsOf (call : JsonValue) : Option (List JsonValue) :=
  match call.get? "params" with
  | none => some []
  | some (.array params) => some params
  | some _ => none

/-- A call of `sendTransaction`. -/
def isSend (call : JsonValue) : Bool := isString "sendTransaction" (call.get? "method")

/-- What the broker asks of the parameters of a method. -/
structure ParamsOk (method : String) (params : List JsonValue) : Prop where
  length : params.length ≤ 2
  genesis : method = "getGenesisHash" → params = []
  height : method = "getBlockHeight" → params.length ≤ 1
  blockhash : method = "getLatestBlockhash" → params.length ≤ 1
  account : method = "getAccountInfo" → params.head?.any publicKey = true
  accounts : method = "getMultipleAccounts" → isBatch publicKey params.head? = true
  signatures : method = "getSignatureStatuses" → isBatch (isBase58Text 64 100) params.head? = true
  options : ∀ options ∈ params.tail.head?, options.isPlain = true
  transaction : method = "sendTransaction" → ∃ s : String, params.head? = some (.string s) ∧
    4 ≤ s.toList.length ∧ s.toList.length ≤ 2_000 ∧ isBase64 s.toList = true

/-- A call of an allowed method, with the parameters it asks for. -/
def CallChecked (call : JsonValue) : Prop :=
  ∃ method params, call.get? "method" = some (.string method) ∧ method ∈ rpcMethods ∧
    paramsOf call = some params ∧ ParamsOk method params

/-- A body is metered: every call was checked, every mutation was counted, and the gateway agrees on
what a mutation is. -/
structure RpcMetered (value : JsonValue) (mutationCount : Nat) : Prop where
  checked : ∀ call ∈ callsOf value, CallChecked call
  counted : mutationCount = (callsOf value).countP isSend
  classified : ∀ envelope, Gateway.validateRpcEnvelope value = .ok envelope →
    (mutationCount = 1 ↔ Gateway.isMutation .rpc (some envelope) = true) ∧
    (mutationCount = 0 ↔ Gateway.isMutation .rpc (some envelope) = false)

variable {call value : JsonValue} {n : Nat} {method : String}

theorem isString_string {s t : String} : isString s (some (.string t)) = true ↔ t = s := by
  simp [isString, string?]

/-- A text that can be sent as a transaction. -/
def isTransaction : JsonValue → Bool
  | .string s => 4 ≤ s.toList.length && s.toList.length ≤ 2_000 && isBase64 s.toList
  | _ => false

/-- What `validateCall` has asked for when it returns. -/
structure CallOk (call : JsonValue) (params : List JsonValue) (n : Nat) : Prop where
  given : paramsOf call = some params
  length : params.length ≤ 2
  genesis : isString "getGenesisHash" (call.get? "method") = true → params = []
  height : isString "getBlockHeight" (call.get? "method") = true → params.length ≤ 1
  blockhash : isString "getLatestBlockhash" (call.get? "method") = true → params.length ≤ 1
  account : isString "getAccountInfo" (call.get? "method") = true →
    params.head?.any publicKey = true
  accounts : isString "getMultipleAccounts" (call.get? "method") = true →
    isBatch publicKey params.head? = true
  signatures : isString "getSignatureStatuses" (call.get? "method") = true →
    isBatch (isBase58Text 64 100) params.head? = true
  options : ∀ options ∈ params.tail.head?, options.isPlain = true
  transaction : isSend call = true → params.head?.any isTransaction = true
  count : n = if isSend call then 1 else 0

/-- The name in a call is allowed. -/
def isAllowed (call : JsonValue) : Bool :=
  ((call.get? "method").bind coercedText).any fun m => m ∈ rpcMethods

theorem send_eq_ok {params : List JsonValue} {f : Failure} :
    (if isSend call = true then do
      require (params.head?.any isTransaction = true) f
      pure 1
    else pure 0 : Except Failure Nat) = .ok n ↔
      (isSend call = true → params.head?.any isTransaction = true) ∧
        n = if isSend call then 1 else 0 := by
  cases hsend : isSend call with
  | true =>
    simp only [if_true, bind_eq_ok, require_eq_ok, exists_unit, pure_eq_ok, forall_const]
    rw [eq_comm (a := 1)]
  | false =>
    simp only [Bool.false_eq_true, if_false, pure_eq_ok, false_imp_iff, true_and]
    exact eq_comm

/-- **One call**: an allowed name, the checks of the method that is spelled out, and the count. -/
theorem validateCall_eq_ok {members : List (String × JsonValue)} :
    validateCall (.object members) = .ok n ↔
      (hasExactly ["id", "jsonrpc", "method"] members = true
        ∨ hasExactly ["id", "jsonrpc", "method", "params"] members = true) ∧
      isString "2.0" (Record.find "jsonrpc" members) = true ∧ isAllowed (.object members) = true ∧
      isCallId (Record.find "id" members) = true ∧ ∃ params, CallOk (.object members) params n := by
  have hobject : object (.object members) = .ok () := rfl
  simp only [validateCall, bind_eq_ok, require_eq_ok, exists_unit,
    hobject, eq_self, true_and, and_assoc]
  refine and_congr_right fun _ => and_congr_right fun _ => and_congr_right fun _ =>
    and_congr_right fun _ => ?_
  -- the rest of the function is the same whether or not parameters were given
  split
  · rename_i hget
    simp only [pure_bind, bind_eq_ok, require_eq_ok, exists_unit]
    have hp : paramsOf (.object members) = some [] := by rw [paramsOf, hget]
    constructor
    · rintro ⟨hlen, -, h2, h3, h4, h5, h6, h7, hlast⟩
      obtain ⟨ht, hn⟩ := send_eq_ok.mp hlast
      exact ⟨[], hp, hlen, fun _ => rfl, h2, h3, h4, h5, h6, h7, ht, hn⟩
    · rintro ⟨params, hcall⟩
      obtain rfl : [] = params := Option.some.inj (hp.symm.trans hcall.given)
      exact ⟨hcall.length, fun _ => trivial, hcall.height, hcall.blockhash,
        hcall.account, hcall.accounts,
        hcall.signatures, hcall.options, send_eq_ok.mpr ⟨hcall.transaction, hcall.count⟩⟩
  · rename_i params hget
    simp only [pure_bind, bind_eq_ok, require_eq_ok, exists_unit]
    have hp : paramsOf (.object members) = some params := by rw [paramsOf, hget]
    constructor
    · rintro ⟨hlen, h1, h2, h3, h4, h5, h6, h7, hlast⟩
      obtain ⟨ht, hn⟩ := send_eq_ok.mp hlast
      exact ⟨params, hp, hlen, h1, h2, h3, h4, h5, h6, h7, ht, hn⟩
    · rintro ⟨params', hcall⟩
      obtain rfl : params = params' := Option.some.inj (hp.symm.trans hcall.given)
      exact ⟨hcall.length, hcall.genesis, hcall.height, hcall.blockhash,
        hcall.account, hcall.accounts,
        hcall.signatures, hcall.options, send_eq_ok.mpr ⟨hcall.transaction, hcall.count⟩⟩
  · rename_i v hnot hget
    refine iff_of_false nofun ?_
    rintro ⟨params, hcall⟩
    have hnone : paramsOf (.object members) = none := by
      rw [paramsOf, hget]
      cases v with
      | array items => exact (hnot items rfl).elim
      | null | bool | number | string | object => rfl
    cases hnone.symm.trans hcall.given

theorem validateCall_ok (h : validateCall call = .ok n) :
    isAllowed call = true ∧ ∃ params, CallOk call params n := by
  cases call with
  | object members =>
    obtain ⟨-, -, hallowed, -, hparams⟩ := validateCall_eq_ok.mp h
    exact ⟨hallowed, hparams⟩
  | null | bool | number | string | array => cases h

theorem CallOk.paramsOk {params : List JsonValue} (h : CallOk call params n)
    (hmethod : call.get? "method" = some (.string method)) : ParamsOk method params := by
  have hnamed : ∀ {name : String}, method = name → isString name (call.get? "method") = true := by
    rintro name rfl
    rw [hmethod, isString_string]
  refine ⟨h.length, fun e => h.genesis (hnamed e), fun e => h.height (hnamed e),
    fun e => h.blockhash (hnamed e), fun e => h.account (hnamed e), fun e => h.accounts (hnamed e),
    fun e => h.signatures (hnamed e), h.options, fun e => ?_⟩
  obtain ⟨v, hv, htext⟩ := (Option.any_eq_true _ _).mp (h.transaction (hnamed e))
  cases v with
  | string s =>
    simp only [isTransaction, Bool.and_eq_true, decide_eq_true_eq] at htext
    exact ⟨s, hv, htext.1.1, htext.1.2, htext.2⟩
  | null | bool | number | array | object => cases htext

/-- Only a text or an array reads as the name of a method. -/
theorem eq_string_of_coercedText {v : JsonValue} (h : coercedText v = some method)
    (hnot : ∀ items, v ≠ .array items) : v = .string method := by
  cases v with
  | string s => rw [Option.some.inj h]
  | array items => exact absurd rfl (hnot items)
  | null | bool | number | object => cases h

/-- The loop adds up what the calls count for. -/
theorem foldlM_validateCall {calls : List JsonValue} {m : Nat}
    (h : calls.foldlM (fun mutationCount call => do
      let mutations ← validateCall call
      return mutationCount + mutations) m = .ok n) :
    n = m + calls.countP isSend ∧ ∀ call ∈ calls, ∃ k, validateCall call = .ok k := by
  induction calls generalizing m with
  | nil =>
    cases h
    exact ⟨rfl, nofun⟩
  | cons call calls ih =>
    simp only [List.foldlM_cons, bind_eq_ok, pure_eq_ok] at h
    obtain ⟨_, ⟨k, hk, rfl⟩, hrest⟩ := h
    obtain ⟨hn, hall⟩ := ih hrest
    obtain ⟨-, params, hcall⟩ := validateCall_ok hk
    refine ⟨?_, List.forall_mem_cons.mpr ⟨⟨k, hk⟩, hall⟩⟩
    rw [hn, hcall.count, List.countP_cons]
    omega

theorem validateRpc_eq_ok {size : Nat} :
    validateRpc ⟨size, some value⟩ = .ok n ↔
      ¬ ((callsOf value).length = 0 ∨ (callsOf value).length > 10) ∧
      (callsOf value).foldlM (fun mutationCount call => do
        let mutations ← validateCall call
        return mutationCount + mutations) 0 = .ok n := by
  simp only [validateRpc, bind_eq_ok, okOr_eq_ok, Option.some.injEq, exists_eq_left', require_eq_ok,
    exists_unit]
  rfl

theorem validateRpc_ok {size : Nat} (h : validateRpc ⟨size, some value⟩ = .ok n) :
    n = (callsOf value).countP isSend ∧ ∀ call ∈ callsOf value, ∃ k, validateCall call = .ok k := by
  have := foldlM_validateCall (validateRpc_eq_ok.mp h).2
  rwa [Nat.zero_add] at this

/-- What the gateway accepts is one call of a method that is spelled out. -/
theorem validateRpcEnvelope_method {envelope : Gateway.Envelope}
    (h : Gateway.validateRpcEnvelope value = .ok envelope) :
    callsOf value = [value] ∧ value.get? "method" = some (.string envelope.method) := by
  cases value with
  | object members =>
    simp only [Gateway.validateRpcEnvelope, Gateway.record, bind_eq_ok, Except.ok.injEq,
      exists_eq_left', require_eq_ok, exists_unit, okOr_eq_ok] at h
    obtain ⟨-, -, -, method, hmethod, validate, -, hrest⟩ := h
    have hget : (JsonValue.object members).get? "method" = some (.string method) := by
      change Record.find "method" members = _
      revert hmethod
      cases Record.find "method" members with
      | none => simp [string?]
      | some v => cases v <;> simp [string?]
    have henvelope : envelope.method = method := by
      split at hrest
      · simp only [pure_bind, bind_eq_ok, exists_unit, pure_eq_ok] at hrest
        obtain ⟨-, rfl⟩ := hrest
        rfl
      · cases hrest
    exact ⟨rfl, henvelope ▸ hget⟩
  | null | bool | number | string | array => cases h

/-- **Metering**: an accepted body is metered exactly if none of its calls has an array for a
method. `String(item.method)` reads an array of one text as that text, so the name is allowed, and
then no check of that method applies and no mutation is counted. -/
theorem validateRpc_metered_iff {size : Nat} (h : validateRpc ⟨size, some value⟩ = .ok n) :
    RpcMetered value n ↔ ∀ call ∈ callsOf value, ∀ items,
      call.get? "method" ≠ some (.array items) := by
  obtain ⟨hcount, hall⟩ := validateRpc_ok h
  constructor
  · intro hmetered call hmem items hitems
    obtain ⟨method, params, hmethod, -⟩ := hmetered.checked call hmem
    cases hmethod.symm.trans hitems
  · intro hnot
    refine ⟨fun call hmem => ?_, hcount, fun envelope henvelope => ?_⟩
    · obtain ⟨k, hk⟩ := hall call hmem
      obtain ⟨hname, params, hcall⟩ := validateCall_ok hk
      obtain ⟨method, htext, hallowed⟩ := (Option.any_eq_true _ _).mp hname
      obtain ⟨v, hv, hcoerced⟩ := Option.bind_eq_some_iff.mp htext
      have hstring : v = .string method :=
        eq_string_of_coercedText hcoerced fun items hitems => hnot call hmem items (hitems ▸ hv)
      rw [hstring] at hv
      exact ⟨method, params, hv, of_decide_eq_true hallowed, hcall.given, hcall.paramsOk hv⟩
    · obtain ⟨hsingle, hmethod⟩ := validateRpcEnvelope_method henvelope
      have hsend : Gateway.isMutation .rpc (some envelope) = isSend value := by
        simp [Gateway.isMutation, isSend, hmethod, isString, string?]
      rw [hsend, hcount, hsingle, List.countP_singleton]
      cases isSend value <;> simp

/-- Members that are in order have the keys they have. -/
theorem hasExactly_sorted {keys : List String} {members : List (String × JsonValue)}
    (hkeys : members.map Prod.fst = keys) (hsorted : keys.Pairwise (· ≤ ·)) :
    hasExactly keys members = true := by
  have hsame : (members.map Prod.fst).mergeSort (fun a b => decide (a ≤ b)) = keys := by
    rw [hkeys]
    exact List.mergeSort_of_pairwise (hsorted.imp fun h => decide_eq_true h)
  simp only [hasExactly, hsame, decide_true]

/-- A question. -/
def sampleHeight : JsonValue :=
  .object [("id", .number 1), ("jsonrpc", .string "2.0"), ("method", .string "getBlockHeight")]

/-- A mutation. -/
def sampleSend : JsonValue :=
  .object [("id", .number 2), ("jsonrpc", .string "2.0"), ("method", .string "sendTransaction"),
    ("params", .array [.string "AAAA"])]

/-- A batch of both. -/
def sampleBatch : JsonValue := .array [sampleHeight, sampleSend]

/-- The batch is charged one mutation; the mutation alone too, and the gateway takes it for one. -/
theorem validateRpc_metered_iff_sample :
    RpcMetered sampleBatch 1 ∧ validateRpc ⟨0, some sampleSend⟩ = .ok 1
    ∧ ∃ envelope, Gateway.validateRpcEnvelope sampleSend = .ok envelope
      ∧ Gateway.isMutation .rpc (some envelope) = true := by
  have hheight : validateCall sampleHeight = .ok 0 := by
    refine validateCall_eq_ok.mpr
      ⟨.inl (hasExactly_sorted rfl (by decide)), by decide, by decide, by decide, [], ?_⟩
    constructor <;> first | rfl | decide
  have hsend : validateCall sampleSend = .ok 1 := by
    refine validateCall_eq_ok.mpr
      ⟨.inr (hasExactly_sorted rfl (by decide)), by decide, by decide, by decide,
        [.string "AAAA"], ?_⟩
    constructor <;> first | rfl | decide
  have hbatch : validateRpc ⟨0, some sampleBatch⟩ = .ok 1 := by
    refine validateRpc_eq_ok.mpr ⟨by decide, ?_⟩
    simp only [sampleBatch, callsOf, List.foldlM_cons, hheight, hsend]
    rfl
  have hsingle : validateRpc ⟨0, some sampleSend⟩ = .ok 1 := by
    refine validateRpc_eq_ok.mpr ⟨by decide, ?_⟩
    change [sampleSend].foldlM _ 0 = _
    simp only [List.foldlM_cons, hsend]
    rfl
  have henvelope : (Gateway.validateRpcEnvelope sampleSend).toOption.isSome = true := by
    decide +kernel
  simp only [Option.isSome_iff_exists, Result.toOption_eq_some] at henvelope
  obtain ⟨envelope, henvelope⟩ := henvelope
  have hmetered : RpcMetered sampleSend 1 := by
    refine (validateRpc_metered_iff hsingle).mpr ?_
    simp [sampleSend, callsOf, JsonValue.get?, Record.find]
  refine ⟨(validateRpc_metered_iff hbatch).mpr ?_, hsingle, envelope, henvelope,
    (hmetered.classified envelope henvelope).1.mp rfl⟩
  simp [sampleBatch, sampleHeight, sampleSend, callsOf, JsonValue.get?, Record.find]

/-- A call whose method is a list with the name of a mutation in it. -/
def listedMethod : JsonValue :=
  .object [("id", .number 1), ("jsonrpc", .string "2.0"),
    ("method", .array [.string "sendTransaction"]), ("params", .array [])]

/-- The broker accepts it, charges nothing and asks for no transaction. -/
theorem validateRpc_not_metered : ∃ n, validateRpc ⟨0, some listedMethod⟩ = .ok n ∧
    ¬ RpcMetered listedMethod n := by
  have hcall : validateCall listedMethod = .ok 0 := by
    refine validateCall_eq_ok.mpr
      ⟨.inr (hasExactly_sorted rfl (by decide)), by decide, by decide, by decide, [], ?_⟩
    constructor <;> first | rfl | decide
  have haccepted : validateRpc ⟨0, some listedMethod⟩ = .ok 0 := by
    refine validateRpc_eq_ok.mpr ⟨by decide, ?_⟩
    change [listedMethod].foldlM _ 0 = _
    simp only [List.foldlM_cons, hcall]
    rfl
  refine ⟨0, haccepted, fun hmetered => ?_⟩
  obtain ⟨method, params, hmethod, -⟩ := hmetered.checked listedMethod (List.mem_singleton_self _)
  simp [listedMethod, JsonValue.get?, Record.find] at hmethod

end Broker

end DividendX
