import Mathlib.Logic.Function.Basic
import DividendX.State

/-!
# Token accounts, mints and the token programs

The two token programs are not part of the program: it calls them and relies on what they are
documented to do. They are kept as a parameter. A `Host` decides which token instruction it
accepts; an accepted one has the documented **effect**, moving exactly the requested amount, and
its documented **requirements** held (`Host.accepts_requires`). The host also supplies SHA-256
and the bytes of an address.

A host is **exact** when the requirements, together with the owner's signature, are also enough
for acceptance. Only results that promise success of a call use that.
-/

namespace DividendX

/-! ## Accounts of the token programs -/

/-- The program that owns a mint or token account. -/
inductive TokenProgramId : Type where
  /-- SPL Token, for the claim mints -/
  | token : TokenProgramId
  /-- Token-2022, for the collateral -/
  | token2022 : TokenProgramId
  deriving DecidableEq

/-- `AccountState`. -/
inductive AccountState : Type where
  | uninitialized : AccountState
  | initialized : AccountState
  | frozen : AccountState
  deriving DecidableEq

/-- A token account. -/
structure TokenAccount where
  tokenProgram : TokenProgramId
  mint : Pubkey
  owner : Pubkey
  amount : UInt64
  delegate : Option Pubkey
  state : AccountState
  closeAuthority : Option Pubkey
  deriving DecidableEq

/-- One entry of a mint's extension area. -/
structure Extension where
  type : UInt16
  data : List UInt8
  deriving DecidableEq

/-- A mint, with its extension entries in the order they are stored. -/
structure Mint where
  tokenProgram : TokenProgramId
  mintAuthority : Option Pubkey
  supply : UInt64
  decimals : UInt8
  isInitialized : Bool
  freezeAuthority : Option Pubkey
  extensions : List Extension
  deriving DecidableEq

/-- `ExtensionType::Pausable`. -/
def PAUSABLE : UInt16 := 26

/-- The paused flag, byte 32 of the pausable extension, is set. -/
def Mint.isPaused (m : Mint) : Bool :=
  m.extensions.any fun e => e.type == PAUSABLE && e.data.getD 32 0 != 0

/-- All token accounts and mints. -/
structure Bank where
  tokens : Pubkey → Option TokenAccount
  mints : Pubkey → Option Mint

namespace Bank

/-- Change the token account at `k`, if there is one. -/
def modifyToken (b : Bank) (k : Pubkey) (f : TokenAccount → TokenAccount) : Bank :=
  { b with tokens := Function.update b.tokens k ((b.tokens k).map f) }

/-- Change the mint at `k`, if there is one. -/
def modifyMint (b : Bank) (k : Pubkey) (f : Mint → Mint) : Bank :=
  { b with mints := Function.update b.mints k ((b.mints k).map f) }

/-- Add to a balance. -/
def credit (b : Bank) (k : Pubkey) (amount : UInt64) : Bank :=
  b.modifyToken k fun a => { a with amount := a.amount + amount }

/-- Take from a balance. -/
def debit (b : Bank) (k : Pubkey) (amount : UInt64) : Bank :=
  b.modifyToken k fun a => { a with amount := a.amount - amount }

@[simp] theorem modifyMint_tokens (b : Bank) (k : Pubkey) (f : Mint → Mint) :
    (b.modifyMint k f).tokens = b.tokens := rfl

/-- The account that is changed. -/
theorem modifyToken_self {b : Bank} {k : Pubkey} {f : TokenAccount → TokenAccount}
    {a : TokenAccount} (h : b.tokens k = some a) : (b.modifyToken k f).tokens k = some (f a) := by
  simp [modifyToken, h]

/-- The others stay. -/
theorem modifyToken_of_ne {b : Bank} {k k' : Pubkey} {f : TokenAccount → TokenAccount}
    (h : k' ≠ k) : (b.modifyToken k f).tokens k' = b.tokens k' := by
  simp [modifyToken, Function.update_of_ne h]

/-- The mint that is changed. -/
theorem modifyMint_self {b : Bank} {k : Pubkey} {f : Mint → Mint} {m : Mint}
    (h : b.mints k = some m) : (b.modifyMint k f).mints k = some (f m) := by
  simp [modifyMint, h]

/-- The others stay. -/
theorem modifyMint_of_ne {b : Bank} {k k' : Pubkey} {f : Mint → Mint} (h : k' ≠ k) :
    (b.modifyMint k f).mints k' = b.mints k' := by
  simp [modifyMint, Function.update_of_ne h]

end Bank

/-! ## Token instructions -/

/-- The instructions the program sends to a token program. -/
inductive TokenInstruction : Type where
  /-- source, mint, destination, authority, amount, decimals -/
  | transferChecked : Pubkey → Pubkey → Pubkey → Pubkey → UInt64 → UInt8 → TokenInstruction
  /-- mint, destination, authority, amount -/
  | mintTo : Pubkey → Pubkey → Pubkey → UInt64 → TokenInstruction
  /-- mint, source, authority, amount -/
  | burn : Pubkey → Pubkey → Pubkey → UInt64 → TokenInstruction
  /-- mint, current authority; the new mint authority is none -/
  | revokeMintAuthority : Pubkey → Pubkey → TokenInstruction

namespace TokenInstruction

/-- What an accepted instruction does. -/
def effect (b : Bank) : TokenInstruction → Bank
  | transferChecked source _ destination _ amount _ =>
      (b.debit source amount).credit destination amount
  | mintTo mint destination _ amount =>
      (b.credit destination amount).modifyMint mint fun m => { m with supply := m.supply + amount }
  | burn mint source _ amount =>
      (b.debit source amount).modifyMint mint fun m => { m with supply := m.supply - amount }
  | revokeMintAuthority mint _ => b.modifyMint mint fun m => { m with mintAuthority := none }

/-- What must hold for an instruction to be accepted: the accounts exist, are initialized, not
frozen and of the right mint, the mint is not paused, the balance suffices and no counter
leaves the word. -/
def Requires (b : Bank) : TokenInstruction → Prop
  | transferChecked source mint destination _ amount decimals =>
      ∃ src dst m, b.tokens source = some src ∧ b.tokens destination = some dst ∧
        b.mints mint = some m ∧ src.mint = mint ∧ dst.mint = mint ∧
        src.state = .initialized ∧ dst.state = .initialized ∧ m.isPaused = false ∧
        m.decimals = decimals ∧ amount.toNat ≤ src.amount.toNat ∧
        (source ≠ destination → dst.amount.toNat + amount.toNat < 2 ^ 64)
  | mintTo mint destination authority amount =>
      ∃ dst m, b.tokens destination = some dst ∧ b.mints mint = some m ∧ dst.mint = mint ∧
        dst.state = .initialized ∧ m.mintAuthority = some authority ∧
        m.supply.toNat + amount.toNat < 2 ^ 64 ∧ dst.amount.toNat + amount.toNat < 2 ^ 64
  | burn mint source _ amount =>
      ∃ src m, b.tokens source = some src ∧ b.mints mint = some m ∧ src.mint = mint ∧
        src.state = .initialized ∧ amount.toNat ≤ src.amount.toNat ∧
        amount.toNat ≤ m.supply.toNat
  | revokeMintAuthority mint authority =>
      ∃ m, b.mints mint = some m ∧ m.mintAuthority = some authority

/-- The authority that signs is the owner of the account it moves from. The mint authority is
among the requirements already. -/
def SignedByOwner (b : Bank) : TokenInstruction → Prop
  | transferChecked source _ _ authority _ _ =>
    ∃ src, b.tokens source = some src ∧ src.owner = authority
  | burn _ source authority _ => ∃ src, b.tokens source = some src ∧ src.owner = authority
  | mintTo _ _ _ _ => True
  | revokeMintAuthority _ _ => True

end TokenInstruction

/-! ## The host -/

/-- What the program runs on. -/
structure Host where
  /-- SHA-256 -/
  sha256 : List UInt8 → Bytes32
  /-- the bytes of an address -/
  addressBytes : Pubkey → Bytes32
  /-- the token programs' verdict on an instruction, with their error code -/
  accepts : Bank → TokenInstruction → Except UInt32 Unit
  /-- an accepted instruction met its requirements -/
  accepts_requires : ∀ b ix, accepts b ix = .ok () → ix.Requires b

/-- The documented requirements and the owner's signature are enough. -/
def Host.Exact (host : Host) : Prop :=
  ∀ b ix, ix.Requires b → ix.SignedByOwner b → host.accepts b ix = .ok ()

/-- A cross-program call to a token program. -/
def Host.invoke (host : Host) (b : Bank) (ix : TokenInstruction) : Outcome Bank :=
  match host.accepts b ix with
  | .ok _ => .ok (ix.effect b)
  | .error code => .error (.token code)

/-- A call takes effect if the token program accepts it. -/
theorem Host.invoke_eq_ok {host : Host} {b b' : Bank} {ix : TokenInstruction} :
    host.invoke b ix = .ok b' ↔ host.accepts b ix = .ok () ∧ ix.effect b = b' := by
  rw [invoke]
  split
  · rename_i u h
    simp [h]
  · rename_i c h
    simp [h]

/-- A failed call reports a token error, never one of the program's own. -/
theorem Host.invoke_ne_custom {host : Host} {b : Bank} {ix : TokenInstruction}
    {e : DividendXError} : host.invoke b ix ≠ .error (.custom e) := by
  rw [invoke]
  split <;> simp

end DividendX
