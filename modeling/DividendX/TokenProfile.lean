import Mathlib.Data.List.Sort
import DividendX.Math
import DividendX.Token

/-!
# Mint profiles

`token_profile.rs`: the inspection of a collateral mint. It accepts only mints with understood
extensions, collects the scale tuple, and fingerprints every issuer control. Entries are visited
in the order of their type numbers, whatever the order they are stored in.

`inspectMint` also demands that both multipliers are admissible; `inspectMintForExit`, used on the
way out of a series, does not.
-/

namespace DividendX

open LittleEndian

/-! ## Extension types -/

def MINT_CLOSE_AUTHORITY : UInt16 := 3
def CONFIDENTIAL_TRANSFER_MINT : UInt16 := 4
def DEFAULT_ACCOUNT_STATE : UInt16 := 6
def PERMANENT_DELEGATE : UInt16 := 12
def TRANSFER_HOOK : UInt16 := 14
def METADATA_POINTER : UInt16 := 18
def TOKEN_METADATA : UInt16 := 19
def SCALED_UI_AMOUNT : UInt16 := 25

/-! ## Profiles -/

/-- The scale configuration of a mint and the multiplier in force. -/
structure ScaleTuple where
  currentBits : UInt64
  newBits : UInt64
  effectiveTimestamp : Int64
  activeBits : UInt64
  deriving DecidableEq

/-- What the program knows about a collateral mint. -/
structure MintProfile where
  decimals : UInt8
  extensionsMask : UInt64
  scale : ScaleTuple
  controlsFingerprint : Bytes32
  deriving DecidableEq

/-- `push_coption_pubkey`: a tag byte and thirty-two bytes. -/
def coptionPubkeyBytes (host : Host) : Option Pubkey → List UInt8
  | some key => 1 :: (host.addressBytes key).toList
  | none => 0 :: zero32.toList

/-- The payload of the first entry of a type, if it has the size of its layout. -/
def Mint.getExtension (mint : Mint) (type : UInt16) (size : Nat) : Outcome (List UInt8) := do
  let entry ← orError (mint.extensions.find? fun e => e.type == type) .invalidAccountData
  ensure (entry.data.length = size) .invalidAccountData
  return entry.data

/-- A word of eight bytes inside a payload. -/
def wordAt (data : List UInt8) (offset : Nat) : UInt64 :=
  UInt64.ofNat (ofBytes ((data.drop offset).take 8))

/-- The loop state of the inspection. -/
structure Inspection where
  mask : UInt64
  fingerprint : List UInt8
  scale : Option ScaleTuple

/-- Append control bytes to the fingerprint. -/
def Inspection.push (st : Inspection) (bytes : List UInt8) : Inspection :=
  { st with fingerprint := st.fingerprint ++ bytes }

/-- One turn of the loop of `inspect_mint_inner`, for one extension type. -/
def inspectExtension (mint : Mint) (unixTimestamp : Int64) (enforceFactorBounds : Bool)
    (st : Inspection) (type : UInt16) : Outcome Inspection := do
  ensure (type < 64) .unsupportedMintExtension
  let st : Inspection := { st with mask := st.mask ||| (1 <<< type.toUInt64) }
  let st := st.push (fixed 2 type.toNat)
  if type = SCALED_UI_AMOUNT then do
    let data ← mint.getExtension type 56
    let currentBits := wordAt data 32
    let effectiveTimestamp := (wordAt data 40).toInt64
    let newBits := wordAt data 48
    if enforceFactorBounds then
      let _ ← decodeMultiplier currentBits
      let _ ← decodeMultiplier newBits
    let activeBits := if effectiveTimestamp ≤ unixTimestamp then newBits else currentBits
    let st : Inspection :=
      { st with scale := some ⟨currentBits, newBits, effectiveTimestamp, activeBits⟩ }
    return st.push (data.take 32)
  else if type = METADATA_POINTER then do
    let data ← mint.getExtension type 64
    return st.push (data.take 32)
  else if type = TOKEN_METADATA then
    -- display metadata is no control
    return st
  else if type = MINT_CLOSE_AUTHORITY ∨ type = PERMANENT_DELEGATE then do
    let data ← mint.getExtension type 32
    return st.push data
  else if type = DEFAULT_ACCOUNT_STATE then do
    let data ← mint.getExtension type 1
    ensure (data = [1]) .defaultAccountStateNotInitialized
    return st.push data
  else if type = TRANSFER_HOOK then do
    let data ← mint.getExtension type 64
    -- a null program is thirty-two zero bytes
    ensure (data.drop 32 = List.replicate 32 0) .activeTransferHook
    return st.push data
  else if type = PAUSABLE then do
    let data ← mint.getExtension type 33
    ensure (data.drop 32 = [0]) .mintPaused
    return st.push (data.take 32)
  else if type = CONFIDENTIAL_TRANSFER_MINT then do
    let data ← mint.getExtension type 65
    return st.push data
  else
    .error (.custom .unsupportedMintExtension)

/-- The extension types in the order they are visited. -/
def Mint.sortedTypes (mint : Mint) : List UInt16 :=
  (mint.extensions.map Extension.type).insertionSort (· ≤ ·)

/-- The prefix of the fingerprint that comes from the mint itself. -/
def fingerprintBase (host : Host) (key : Pubkey) (mint : Mint) : List UInt8 :=
  "dividendx:mint-controls:v1".toUTF8.data.toList ++ (host.addressBytes key).toList
    ++ coptionPubkeyBytes host mint.mintAuthority ++ coptionPubkeyBytes host mint.freezeAuthority

/-- `inspect_mint_inner`. -/
def inspectMintInner (host : Host) (key : Pubkey) (mint : Mint) (unixTimestamp : Int64)
    (enforceFactorBounds : Bool) : Outcome MintProfile := do
  ensure (mint.tokenProgram = .token2022) .invalidTokenProgram
  -- unpacking refuses an uninitialized mint before the explicit test does
  ensure (mint.isInitialized = true) .invalidAccountData
  ensure (mint.isInitialized = true) .mintNotInitialized
  ensure (mint.decimals = 6 ∨ mint.decimals = 8 ∨ mint.decimals = 9) .unsupportedDecimals
  -- neighbours in sorted order are distinct
  ensure (mint.sortedTypes.IsChain (· ≠ ·)) .invalidAccountData
  let st ← mint.sortedTypes.foldlM (inspectExtension mint unixTimestamp enforceFactorBounds)
    { mask := 0, fingerprint := fingerprintBase host key mint, scale := none }
  let scale ← orError st.scale .missingScaledUiAmount
  return { decimals := mint.decimals, extensionsMask := st.mask, scale := scale,
           controlsFingerprint := host.sha256 st.fingerprint }

/-- `inspect_mint`. -/
def inspectMint (host : Host) (key : Pubkey) (mint : Mint) (unixTimestamp : Int64) :
    Outcome MintProfile :=
  inspectMintInner host key mint unixTimestamp true

/-- `inspect_mint_for_exit`. -/
def inspectMintForExit (host : Host) (key : Pubkey) (mint : Mint) (unixTimestamp : Int64) :
    Outcome MintProfile :=
  inspectMintInner host key mint unixTimestamp false

end DividendX
