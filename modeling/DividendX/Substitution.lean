import DividendX.Standard

/-!
# Whose accounts an instruction touches

Callers fill the account slots of an instruction as they like: with accounts of another series, of
another asset over the same mint, with one account twice. `Instruction.PinnedTo` says what every
slot must hold for the instruction to succeed: the accounts created for the one series that is
named. `World.Confined` is the frame of a series instruction, account by account.
-/

namespace DividendX

/-! ## Slots -/

/-- The series an instruction is about. -/
def Instruction.series : Instruction → Option Pubkey
  | .deposit acc _ _ => some acc.series
  | .recombine acc _ _ => some acc.series
  | .upsertEvent acc _ => some acc.series
  | .beginFinalization acc _ _ _ => some acc.series
  | .accumulateEvent acc => some acc.series
  | .completeFinalization acc => some acc.series
  | .abortFinalization acc _ => some acc.series
  | .redeem acc _ _ _ _ => some acc.series
  | _ => none

/-- The token account at an address holds the given mint and belongs to a key pair. -/
def World.HeldBy (w : World) (key mint : Pubkey) (holder : Bytes32) : Prop :=
  ∃ t, w.bank.tokens key = some t ∧ t.mint = mint ∧ t.owner = .wallet holder

/-- The slots `Deposit` and `Recombine` share. -/
structure PairAccounts.PinnedTo (acc : PairAccounts) (w : World) (k : Pubkey) (s : Series) :
    Prop where
  assetPolicy : acc.assetPolicy = s.assetPolicy
  collateralMint : acc.collateralMint = s.collateralMint
  vault : acc.vault = .ata k s.collateralMint
  ptMint : acc.ptMint = .pt k
  drMint : acc.drMint = .dr k
  holderCollateral : w.HeldBy acc.holderCollateral s.collateralMint acc.holder
  holderPt : w.HeldBy acc.holderPt (.pt k) acc.holder
  holderDr : w.HeldBy acc.holderDr (.dr k) acc.holder

/-- The slots `BeginFinalization` and `CompleteFinalization` share. -/
structure StagePinned (k : Pubkey) (s : Series)
    (assetPolicy accumulator collateralMint vault ptMint drMint : Pubkey) : Prop where
  assetPolicy : assetPolicy = s.assetPolicy
  accumulator : accumulator = .accumulator k
  collateralMint : collateralMint = s.collateralMint
  vault : vault = .ata k s.collateralMint
  ptMint : ptMint = .pt k
  drMint : drMint = .dr k

/-- Every slot holds the account created for the series. The event accounts of `UpsertEvent` have no
slots of their own: they sit at the addresses derived from it. -/
def Instruction.PinnedTo (w : World) (k : Pubkey) (s : Series) : Instruction → Prop
  | .deposit acc _ _ => acc.PinnedTo w k s
  | .recombine acc _ _ => acc.PinnedTo w k s
  | .upsertEvent acc _ => acc.assetPolicy = s.assetPolicy
  | .beginFinalization acc _ _ _ => StagePinned k s acc.assetPolicy acc.accumulator
      acc.collateralMint acc.vault acc.ptMint acc.drMint
  | .accumulateEvent acc => acc.accumulator = .accumulator k ∧
      ∃ head, w.heads acc.eventHead = some head ∧ acc.eventHead = .event k head.eventId ∧
        acc.revision = .revision (.event k head.eventId) head.latestRevision
  | .completeFinalization acc => StagePinned k s acc.assetPolicy acc.accumulator
      acc.collateralMint acc.vault acc.ptMint acc.drMint
  | .abortFinalization acc _ =>
      acc.assetPolicy = s.assetPolicy ∧ acc.accumulator = .accumulator k
  | .redeem acc side _ _ _ => acc.assetPolicy = s.assetPolicy ∧
      acc.collateralMint = s.collateralMint ∧ acc.vault = .ata k s.collateralMint ∧
      acc.claimMint = claimMintOf k side ∧
      w.HeldBy acc.holderCollateral s.collateralMint acc.holder ∧
      w.HeldBy acc.holderClaim (claimMintOf k side) acc.holder
  | _ => False

/-- The claims of a side an instruction issues, negative where it takes them in. -/
def Instruction.issued (side : RedeemSide) : Instruction → ℤ
  | .deposit _ amount _ => amount.toNat
  | .recombine _ amount _ => -amount.toNat
  | .redeem _ side' amount _ _ => if side' = side then -amount.toNat else 0
  | _ => 0

/-- The same of a booked change. -/
def Change.issued (side : RedeemSide) : Change → ℤ
  | .deposit amount => amount.toNat
  | .recombine amount => -amount.toNat
  | .redeem side' amount _ => if side' = side then -amount.toNat else 0
  | .burn side' amount => if side' = side then -amount.toNat else 0
  | _ => 0

/-- The supply of a side moves by what the change issues on it. -/
theorem Books.Step.issued {host : Host} {k : Pubkey} {b b' : Books} {c : Change}
    (h : b.Step host k c b') (side : RedeemSide) :
    (b'.supply side : ℤ) = b.supply side + c.issued side := by
  cases h with
  | deposit _ _ _ _ _ _ _ _ _ => exact Int.natCast_add ..
  | recombine _ _ _ _ _ hs _ =>
    have := hs side
    simp only [Change.issued]
    omega
  | @redeem side' amount _ _ _ _ supply _ _ _ _ _ _ _ _ hs _ =>
    simp only [Change.issued]
    by_cases hside : side = side'
    · subst hside
      rw [Function.update_self, if_pos rfl]
      omega
    · rw [Function.update_of_ne hside, if_neg (Ne.symm hside), add_zero]
  | @burn side' amount supply hs =>
    simp only [Change.issued]
    by_cases hside : side = side'
    · subst hside
      rw [Function.update_self, if_pos rfl]
      omega
    · rw [Function.update_of_ne hside, if_neg (Ne.symm hside), add_zero]
  | _ => exact (add_zero _).symm

/-! ## Frames of token instructions -/

namespace TokenInstruction

/-- The token accounts an instruction writes. -/
def tokenKeys : TokenInstruction → List Pubkey
  | transferChecked source _ destination _ _ _ => [source, destination]
  | mintTo _ destination _ _ => [destination]
  | burn _ source _ _ => [source]
  | revokeMintAuthority _ _ => []

/-- The mints an instruction writes. -/
def mintKeys : TokenInstruction → List Pubkey
  | transferChecked _ _ _ _ _ _ => []
  | mintTo mint _ _ _ => [mint]
  | burn mint _ _ _ => [mint]
  | revokeMintAuthority mint _ => [mint]

end TokenInstruction

/-- Nothing but the listed accounts and mints was written. -/
structure Bank.Kept (b b' : Bank) (tokens mints : List Pubkey) : Prop where
  token : ∀ key, key ∉ tokens → b'.tokens key = b.tokens key
  mint : ∀ key, key ∉ mints → b'.mints key = b.mints key

/-- What neither of two changes touches is kept. -/
theorem Bank.Kept.trans {b b' b'' : Bank} {tokens tokens' mints mints' : List Pubkey}
    (h : b.Kept b' tokens mints) (h' : b'.Kept b'' tokens' mints') :
    b.Kept b'' (tokens ++ tokens') (mints ++ mints') := by
  refine ⟨fun key hkey => ?_, fun key hkey => ?_⟩
  · rw [List.mem_append, not_or] at hkey
    rw [h'.token key hkey.2, h.token key hkey.1]
  · rw [List.mem_append, not_or] at hkey
    rw [h'.mint key hkey.2, h.mint key hkey.1]

/-- A call of a token program keeps all accounts and mints it does not name. -/
theorem Host.invoke_kept {host : Host} {b b' : Bank} {ix : TokenInstruction}
    (h : host.invoke b ix = .ok b') : b.Kept b' ix.tokenKeys ix.mintKeys := by
  obtain ⟨-, rfl⟩ := Host.invoke_eq_ok.mp h
  cases ix with
  | transferChecked source mint destination authority amount decimals =>
    refine ⟨fun key hkey => ?_, fun _ _ => rfl⟩
    simp only [TokenInstruction.tokenKeys, List.mem_cons, List.not_mem_nil,
      or_false, not_or] at hkey
    rw [TokenInstruction.effect, Bank.credit, Bank.modifyToken_of_ne hkey.2, Bank.debit,
      Bank.modifyToken_of_ne hkey.1]
  | mintTo mint destination authority amount =>
    refine ⟨fun key hkey => ?_, fun key hkey => ?_⟩
    · rw [TokenInstruction.effect, Bank.modifyMint_tokens, Bank.credit,
        Bank.modifyToken_of_ne (List.ne_of_not_mem_cons hkey)]
    · rw [TokenInstruction.effect, Bank.modifyMint_of_ne (List.ne_of_not_mem_cons hkey)]
      rfl
  | burn mint source authority amount =>
    refine ⟨fun key hkey => ?_, fun key hkey => ?_⟩
    · rw [TokenInstruction.effect, Bank.modifyMint_tokens, Bank.debit,
        Bank.modifyToken_of_ne (List.ne_of_not_mem_cons hkey)]
    · rw [TokenInstruction.effect, Bank.modifyMint_of_ne (List.ne_of_not_mem_cons hkey)]
      rfl
  | revokeMintAuthority mint authority =>
    refine ⟨fun _ _ => rfl, fun key hkey => ?_⟩
    rw [TokenInstruction.effect, Bank.modifyMint_of_ne (List.ne_of_not_mem_cons hkey)]

/-! ## Frames of series instructions -/

namespace World

variable {host : Host} {w₀ w w' : World} {tr : List Action} {k : Pubkey} {s : Series}

/-- **The frame of a series instruction**: it writes the accounts of one series and the listed
token accounts. -/
structure Confined (w w' : World) (k : Pubkey) (tokens : List Pubkey) : Prop where
  clock : w'.clock = w.clock
  config : w'.config = w.config
  policies : w'.policies = w.policies
  series : ∀ key, key ≠ k → w'.series key = w.series key
  accumulators : ∀ key, key ≠ .accumulator k → w'.accumulators key = w.accumulators key
  heads : ∀ key, (∀ id, key ≠ .event k id) → w'.heads key = w.heads key
  revisions : ∀ key, (∀ id n, key ≠ .revision (.event k id) n) → w'.revisions key = w.revisions key
  mints : ∀ key, (∀ side, key ≠ claimMintOf k side) → w'.bank.mints key = w.bank.mints key
  tokens : ∀ key, key ∉ tokens → w'.bank.tokens key = w.bank.tokens key

namespace Confined

variable {tokens : List Pubkey}

theorem refl (w : World) (k : Pubkey) : Confined w w k [] :=
  ⟨rfl, rfl, rfl, fun _ _ => rfl, fun _ _ => rfl, fun _ _ => rfl, fun _ _ => rfl, fun _ _ => rfl,
    fun _ _ => rfl⟩

theorem putSeries (h : Confined w w' k tokens) (s : Series) :
    Confined w (w'.putSeries k s) k tokens :=
  { h with series := fun key hkey => (Function.update_of_ne hkey ..).trans (h.series key hkey) }

theorem putAccumulator (h : Confined w w' k tokens) (a : Accumulator) :
    Confined w (w'.putAccumulator (.accumulator k) a) k tokens :=
  { h with accumulators := fun key hkey =>
      (Function.update_of_ne hkey ..).trans (h.accumulators key hkey) }

theorem putHead (h : Confined w w' k tokens) (id : Bytes32) (head : EventHead) :
    Confined w (w'.putHead (.event k id) head) k tokens :=
  { h with heads := fun key hkey => (Function.update_of_ne (hkey id) ..).trans (h.heads key hkey) }

theorem putRevision (h : Confined w w' k tokens) (id : Bytes32) (n : UInt64) (r : EventRevision) :
    Confined w (w'.putRevision (.revision (.event k id) n) r) k tokens :=
  { h with revisions := fun key hkey =>
      (Function.update_of_ne (hkey id n) ..).trans (h.revisions key hkey) }

/-- Token instructions on the claim mints of the series. -/
theorem setBank {bank : Bank} {mints : List Pubkey} (hkept : w.bank.Kept bank tokens mints)
    (hmints : ∀ key ∈ mints, ∃ side, key = claimMintOf k side) :
    Confined w (w.setBank bank) k tokens := by
  refine { refl w k with mints := fun key hkey => ?_, tokens := fun key hkey => ?_ }
  · refine hkept.mint key fun hin => ?_
    obtain ⟨side, hside⟩ := hmints key hin
    exact hkey side hside
  · exact hkept.token key hkey

end Confined

/-- A token account a series instruction may write: the vault of the series, or an account of the
signer with collateral or claims of the series. -/
def Writable (w : World) (k : Pubkey) (s : Series) (key : Pubkey) : Prop :=
  key = s.vault ∨ ∃ holder mint, w.HeldBy key mint holder ∧
    (mint = s.collateralMint ∨ ∃ side, mint = claimMintOf k side)

/-- The accounts that belong to other series stay as they are: program accounts, vaults, claim mints
and everyone's claims. -/
structure OthersKept (w w' : World) (k : Pubkey) : Prop where
  policies : w'.policies = w.policies
  series : ∀ k', k' ≠ k → w'.series k' = w.series k'
  accumulators : ∀ k', k' ≠ k → w'.accumulators (.accumulator k') = w.accumulators (.accumulator k')
  heads : ∀ k' id, k' ≠ k → w'.heads (.event k' id) = w.heads (.event k' id)
  revisions : ∀ k' id n, k' ≠ k →
    w'.revisions (.revision (.event k' id) n) = w.revisions (.revision (.event k' id) n)
  vaults : ∀ k' s', k' ≠ k → w.series k' = some s' →
    w'.bank.tokens s'.vault = w.bank.tokens s'.vault
  claimMints : ∀ k' side, k' ≠ k →
    w'.bank.mints (claimMintOf k' side) = w.bank.mints (claimMintOf k' side)
  claims : ∀ k' side key t, k' ≠ k → w.bank.tokens key = some t → t.mint = claimMintOf k' side →
    w'.bank.tokens key = some t

/-- What is confined to one series keeps all others. -/
theorem Confined.othersKept {tokens : List Pubkey} (h : Confined w w' k tokens) (hl : w.Linked)
    (hs : w.series k = some s) (htokens : ∀ key ∈ tokens, w.Writable k s key) :
    OthersKept w w' k := by
  refine ⟨h.policies, fun k' hk => h.series k' hk, fun k' hk => h.accumulators _ ?_,
    fun k' id hk => h.heads _ ?_, fun k' id n hk => h.revisions _ ?_, fun k' s' hk hs' => ?_,
    fun k' side hk => h.mints _ ?_, fun k' side key t hk ht hmint => ?_⟩
  · exact fun heq => hk (Pubkey.accumulator.inj heq)
  · exact fun id' heq => hk (Pubkey.event.inj heq).1
  · exact fun id' n' heq => hk (Pubkey.event.inj (Pubkey.revision.inj heq).1).1
  · refine h.tokens _ fun hin => ?_
    rcases htokens _ hin with heq | ⟨holder, mint, ⟨t, ht, -, howner⟩, -⟩
    · exact hk (hl.vault_injective hs' hs heq)
    · exact hl.ne_vault hs' ht howner rfl
  · exact fun side' heq => hk (claimMintOf_injective heq).1
  · rw [h.tokens key fun hin => ?_]
    · exact ht
    · have hclaim : t.mint.isClaimMint = true := by
        rw [hmint]
        exact isClaimMint_claimMintOf k' side
      rcases htokens _ hin with rfl | ⟨holder, mint, ⟨t', ht', hmint', -⟩, hkind⟩
      · exact hl.ne_vault_of_claim hs ht hclaim rfl
      · cases ht.symm.trans ht'
        rcases hkind with hcollateral | ⟨side', hside⟩
        · have heq : claimMintOf k' side = s.collateralMint := by rw [← hmint, hmint', hcollateral]
          exact claimMintOf_ne_wallet side (hl.series hs).collateral heq
        · have heq : claimMintOf k' side = claimMintOf k side' := by rw [← hmint, hmint', hside]
          exact hk (claimMintOf_injective heq).1

/-! ## Instructions, one by one -/

/-- What one accepted instruction comes down to. -/
structure Settled (host : Host) (w w' : World) (k : Pubkey) (s : Series) (ix : Instruction) :
    Prop where
  pinned : ix.PinnedTo w k s
  confined : ∃ tokens, Confined w w' k tokens ∧ ∀ key ∈ tokens, w.Writable k s key
  moves : ∃ c, (∀ side, c.issued side = ix.issued side) ∧
    ∀ {b}, w.books k = some b → ∃ b', w'.books k = some b' ∧ b.Step host k c b'

/-- The slots of a validated vault and claim mints. -/
theorem Linked.vault_eq (hl : w.Linked) (hs : w.series k = some s) :
    s.vault = .ata k s.collateralMint := (hl.series hs).vaultKey

/-- A valid account of a holder is held by it. -/
theorem holder_heldBy {program : TokenProgramId} {key mint : Pubkey} {t : TokenAccount}
    {holder : Bytes32} (ht : w.bank.tokens key = some t)
    (hv : HolderValid program t (.wallet holder) mint) : w.HeldBy key mint holder :=
  ⟨t, ht, hv.mint, hv.owner⟩

/-- The accounts of a pair are the series' own. -/
theorem pair_pinned (hl : w.Linked) {acc : PairAccounts} {L : PairLoaded} (hL : L.From w acc)
    (hv : SeriesValid acc.series L.series acc.assetPolicy L.asset acc.collateralMint L.mint
      acc.vault L.vault acc.ptMint L.ptMint acc.drMint L.drMint)
    (hc : HolderValid .token2022 L.holderCollateral (.wallet acc.holder) acc.collateralMint)
    (hpt : HolderValid .token L.holderPt (.wallet acc.holder) acc.ptMint)
    (hdr : HolderValid .token L.holderDr (.wallet acc.holder) acc.drMint) :
    acc.PinnedTo w acc.series L.series := by
  have hptKey : acc.ptMint = .pt acc.series := hv.ptMint.trans (hl.claimMint_eq hL.series .pt)
  have hdrKey : acc.drMint = .dr acc.series := hv.drMint.trans (hl.claimMint_eq hL.series .dr)
  refine ⟨hL.hasOne.symm, hv.exit.collateralMint, hv.exit.vault.trans (hl.vault_eq hL.series),
    hptKey, hdrKey, ?_, ?_, ?_⟩
  · rw [← hv.exit.collateralMint]
    exact holder_heldBy hL.holderCollateral.1 hc
  · rw [← hptKey]
    exact holder_heldBy hL.holderPt.1.1 hpt
  · rw [← hdrKey]
    exact holder_heldBy hL.holderDr.1.1 hdr

/-- The four token accounts of a pair are writable. -/
theorem pair_writable {acc : PairAccounts}
    (h : acc.PinnedTo w k s) (hvault : s.vault = .ata k s.collateralMint) {key : Pubkey}
    (hkey : key = acc.vault ∨ key = acc.holderCollateral ∨ key = acc.holderPt ∨
      key = acc.holderDr) :
    w.Writable k s key := by
  rcases hkey with rfl | rfl | rfl | rfl
  · exact .inl (h.vault.trans hvault.symm)
  · exact .inr ⟨_, _, h.holderCollateral, .inl rfl⟩
  · exact .inr ⟨_, _, h.holderPt, .inr ⟨.pt, rfl⟩⟩
  · exact .inr ⟨_, _, h.holderDr, .inr ⟨.dr, rfl⟩⟩

/-- **A deposit** touches its own series and the holder's accounts. -/
theorem deposit_settled (hl : w.Linked) {acc : PairAccounts} {amount : UInt64} {guard : Guard}
    (hx : deposit host w acc amount guard = .ok w') : ∃ s, w.series acc.series = some s ∧
      Settled host w w' acc.series s (.deposit acc amount guard) := by
  have hmoves := deposit_moves hl hx
  obtain ⟨L, hL, hp, b₁, b₂, b₃, hb₁, hb₂, hb₃, nominal, v, hn, hv, rfl⟩ := deposit_eq_ok.mp hx
  have hpinned := pair_pinned hl hL hp.accounts hp.holderCollateral hp.holderPt hp.holderDr
  refine ⟨L.series, hL.series, hpinned, ⟨_, (Confined.setBank (((Host.invoke_kept hb₁).trans
    (Host.invoke_kept hb₂)).trans (Host.invoke_kept hb₃)) fun key hkey => ?_).putSeries _,
    fun key hkey => ?_⟩, .deposit amount, fun _ => rfl, hmoves.step⟩
  · simp only [TokenInstruction.mintKeys, List.nil_append, List.cons_append, List.mem_cons,
      List.not_mem_nil, or_false] at hkey
    rcases hkey with rfl | rfl
    · exact ⟨.pt, hpinned.ptMint⟩
    · exact ⟨.dr, hpinned.drMint⟩
  · simp only [TokenInstruction.tokenKeys, List.nil_append, List.cons_append, List.mem_cons,
      List.not_mem_nil, or_false] at hkey
    refine pair_writable hpinned (hl.vault_eq hL.series) ?_
    tauto

/-- **A recombination** touches its own series and the holder's accounts. -/
theorem recombine_settled (hl : w.Linked) {acc : PairAccounts} {amount : UInt64} {guard : Guard}
    (hx : recombine host w acc amount guard = .ok w') : ∃ s, w.series acc.series = some s ∧
      Settled host w w' acc.series s (.recombine acc amount guard) := by
  have hmoves := recombine_moves hl hx
  obtain ⟨L, hL, hp, b₁, b₂, b₃, hb₁, hb₂, hb₃, nominal, v, hn, hv, rfl⟩ := recombine_eq_ok.mp hx
  have hpinned := pair_pinned hl hL hp.accounts hp.holderCollateral hp.holderPt hp.holderDr
  refine ⟨L.series, hL.series, hpinned, ⟨_, (Confined.setBank (((Host.invoke_kept hb₁).trans
    (Host.invoke_kept hb₂)).trans (Host.invoke_kept hb₃)) fun key hkey => ?_).putSeries _,
    fun key hkey => ?_⟩, .recombine amount, fun _ => rfl, hmoves.step⟩
  · simp only [TokenInstruction.mintKeys, List.append_nil, List.cons_append, List.nil_append,
      List.mem_cons, List.not_mem_nil, or_false] at hkey
    rcases hkey with rfl | rfl
    · exact ⟨.pt, hpinned.ptMint⟩
    · exact ⟨.dr, hpinned.drMint⟩
  · simp only [TokenInstruction.tokenKeys, List.nil_append, List.cons_append, List.mem_cons,
      List.not_mem_nil, or_false] at hkey
    refine pair_writable hpinned (hl.vault_eq hL.series) ?_
    tauto

/-- **A record** touches its own series. -/
theorem upsertEvent_settled (hl : w.Linked) {acc : UpsertEventAccounts} {input : EventInput}
    (hx : upsertEvent host w acc input = .ok w') : ∃ s, w.series acc.series = some s ∧
      Settled host w w' acc.series s (.upsertEvent acc input) := by
  obtain ⟨p, s, resolved, inYear, hpass, ⟨-, rfl⟩ | ⟨head, isNew, s', hr⟩⟩ := upsertEvent_ok hx
  · exact ⟨s, hpass.series, hpass.hasOne.symm, ⟨[], .refl _ _, fun _ hin => by cases hin⟩, .idle,
      fun _ => rfl, fun {b} hb => ⟨b, hb, .idle⟩⟩
  · have hmoves := recorded_moves hl hpass hr
    refine ⟨s, hpass.series, hpass.hasOne.symm, ⟨[], ?_, fun _ hin => by cases hin⟩, .record input,
      fun _ => rfl, hmoves.step⟩
    rw [hr.written]
    exact (((Confined.refl w _).putRevision _ _ _).putHead _ _).putSeries _

/-- The accounts of a finalization are the series' own. -/
theorem stage_pinned (hl : w.Linked) {L : StageLoaded}
    {assetPolicy series accumulator collateralMint vault ptMint drMint : Pubkey}
    (hL : L.From w assetPolicy series accumulator collateralMint vault ptMint drMint)
    (hv : SeriesValid series L.series assetPolicy L.asset collateralMint L.mint vault L.vault ptMint
      L.ptMint drMint L.drMint) :
    StagePinned series L.series assetPolicy accumulator collateralMint vault ptMint drMint :=
  ⟨hL.hasOne.symm, hL.seeds, hv.exit.collateralMint,
    hv.exit.vault.trans (hl.vault_eq hL.loadedSeries),
    hv.ptMint.trans (hl.claimMint_eq hL.loadedSeries .pt),
    hv.drMint.trans (hl.claimMint_eq hL.loadedSeries .dr)⟩

/-- **The begin of a finalization** touches its own series. -/
theorem beginFinalization_settled (hl : w.Linked) {acc : BeginFinalizationAccounts}
    {version : UInt64} {hash coverage : Bytes32}
    (hx : beginFinalization host w acc version hash coverage = .ok w') :
    ∃ s, w.series acc.series = some s ∧
      Settled host w w' acc.series s (.beginFinalization acc version hash coverage) := by
  have hmoves := begin_moves hx
  obtain ⟨L, profile, hL, hp, v, hv, rfl⟩ := beginFinalization_eq_ok.mp hx
  refine ⟨L.series, hL.loadedSeries, stage_pinned hl hL hp.accounts,
    ⟨[], ?_, fun _ hin => by cases hin⟩, .begin, fun _ => rfl, hmoves.step⟩
  rw [hL.seeds]
  exact ((Confined.refl w _).putSeries _).putAccumulator _

/-- **An accumulation** touches its own series. -/
theorem accumulateEvent_settled (hl : w.Linked) {acc : AccumulateEventAccounts}
    (hx : accumulateEvent w acc = .ok w') : ∃ s, w.series acc.series = some s ∧
      Settled host w w' acc.series s (.accumulateEvent acc) := by
  obtain ⟨id, hmoves⟩ := @accumulate_moves host _ _ hl _ hx
  obtain ⟨s, a, head, r, hp, n, d, hfactor, cursor, v, hc, hv, rfl⟩ := accumulateEvent_eq_ok.mp hx
  have hhead : acc.eventHead = .event acc.series head.eventId := by
    rw [← hp.headSeries]
    exact (hl.heads hp.loadedHead).1
  refine ⟨s, hp.series, ⟨hp.seeds, head, hp.loadedHead, hhead, ?_⟩,
    ⟨[], ?_, fun _ hin => by cases hin⟩, .accumulate id, fun _ => rfl, hmoves.step⟩
  · rw [← hhead, ← hp.revisionHead, ← hp.latest.1]
    exact (hl.revisions hp.loadedRevision).1
  · rw [hp.seeds]
    exact ((Confined.refl w _).putSeries _).putAccumulator _

/-- **The end of a finalization** touches its own series. -/
theorem completeFinalization_settled (hl : w.Linked) {acc : CompleteFinalizationAccounts}
    (hx : completeFinalization host w acc = .ok w') : ∃ s, w.series acc.series = some s ∧
      Settled host w w' acc.series s (.completeFinalization acc) := by
  have hmoves := complete_moves hl hx
  obtain ⟨L, hL, hp, pt, dr, hsplit, b₁, b₂, hb₁, hb₂, v, hv, rfl⟩ :=
    completeFinalization_eq_ok.mp hx
  have hpinned := stage_pinned hl hL hp.accounts
  refine ⟨L.series, hL.loadedSeries, hpinned, ⟨_, (Confined.setBank ((Host.invoke_kept hb₁).trans
    (Host.invoke_kept hb₂)) fun key hkey => ?_).putSeries _, fun _ hin => by cases hin⟩, .complete,
    fun _ => rfl, hmoves.step⟩
  simp only [TokenInstruction.mintKeys, List.cons_append, List.nil_append, List.mem_cons,
    List.not_mem_nil, or_false] at hkey
  rcases hkey with rfl | rfl
  · exact ⟨.pt, hpinned.ptMint⟩
  · exact ⟨.dr, hpinned.drMint⟩

/-- **An abort** touches its own series. -/
theorem abortFinalization_settled {acc : AbortFinalizationAccounts} {reason : Bytes32}
    (hx : abortFinalization w acc reason = .ok w') : ∃ s, w.series acc.series = some s ∧
      Settled host w w' acc.series s (.abortFinalization acc reason) := by
  have hmoves := @abort_moves host _ _ _ _ hx
  have hslots : ∃ s, w.series acc.series = some s ∧ acc.assetPolicy = s.assetPolicy ∧
      acc.accumulator = .accumulator acc.series := by
    simp only [abortFinalization, Result.bind_eq_ok, Result.require_eq_ok, Result.exists_unit,
      World.load_eq_ok] at hx
    obtain ⟨p, -, s, hs, a, -, -, hone, hseeds, -⟩ := hx
    exact ⟨s, hs, hone.symm, hseeds⟩
  obtain ⟨s, hs, hpolicy, hseeds⟩ := hslots
  obtain ⟨s', a, hs', ha, -, hphase, v, hv, rfl⟩ := abortFinalization_ok hx
  exact ⟨s, hs, ⟨hpolicy, hseeds⟩, ⟨[], ((Confined.refl w _).putSeries _).putAccumulator _,
    fun _ hin => by cases hin⟩, .abort, fun _ => rfl, hmoves.step⟩

/-- **A redemption** touches its own series and the holder's accounts. -/
theorem redeem_settled (hl : w.Linked) {acc : RedeemAccounts} {side : RedeemSide} {amount : UInt64}
    {allowZero : Bool} {guard : Guard}
    (hx : redeem host w acc side amount allowZero guard = .ok w') :
    ∃ s, w.series acc.series = some s ∧
      Settled host w w' acc.series s (.redeem acc side amount allowZero guard) := by
  obtain ⟨payout, hmoves⟩ := redeem_moves hl hx
  obtain ⟨L, payout', hL, hp, b₁, b₂, hb₁, hb₂, r, paid, v, hr, hpaid, hv, rfl⟩ :=
    redeem_eq_ok.mp hx
  have hclaim : acc.claimMint = claimMintOf acc.series side :=
    hp.claimMint.trans (hl.claimMint_eq hL.series side)
  have hvault := hl.vault_eq hL.series
  have hcollateral : w.HeldBy acc.holderCollateral L.series.collateralMint acc.holder := by
    rw [← hp.accounts.collateralMint]
    exact holder_heldBy hL.holderCollateral.1 hp.holderCollateral
  have hheld : w.HeldBy acc.holderClaim (claimMintOf acc.series side) acc.holder := by
    rw [← hclaim]
    exact holder_heldBy hL.holderClaim.1.1 hp.holderClaim
  have hkept : w.bank.Kept b₂ [acc.holderClaim, acc.vault,
      acc.holderCollateral] [acc.claimMint] := by
    have hburn := Host.invoke_kept hb₁
    split at hb₂
    · exact hburn.trans (Host.invoke_kept hb₂)
    · cases hb₂
      exact hburn.trans ⟨fun _ _ => rfl, fun _ _ => rfl⟩
  refine ⟨L.series, hL.series, ⟨hL.hasOne.symm, hp.accounts.collateralMint,
    hp.accounts.vault.trans hvault, hclaim, hcollateral, hheld⟩,
    ⟨_, (Confined.setBank hkept fun key hkey => ?_).putSeries _, fun key hkey => ?_⟩,
    .redeem side amount payout, fun _ => rfl, hmoves.step⟩
  · exact ⟨side, (List.mem_singleton.mp hkey).trans hclaim⟩
  · simp only [List.mem_cons, List.not_mem_nil, or_false] at hkey
    rcases hkey with rfl | rfl | rfl
    · exact .inr ⟨_, _, hheld, .inr ⟨side, rfl⟩⟩
    · exact .inl hp.accounts.vault
    · exact .inr ⟨_, _, hcollateral, .inl rfl⟩

/-- **Whatever accounts are supplied.** -/
theorem execute_settled (hl : w.Linked) {ix : Instruction} (hix : ix.series = some k)
    (hx : w.execute host ix = .ok w') : ∃ s, w.series k = some s ∧ Settled host w w' k s ix := by
  cases ix with
  | deposit acc amount guard =>
    cases hix
    exact deposit_settled hl hx
  | recombine acc amount guard =>
    cases hix
    exact recombine_settled hl hx
  | upsertEvent acc input =>
    cases hix
    exact upsertEvent_settled hl hx
  | beginFinalization acc version hash coverage =>
    cases hix
    exact beginFinalization_settled hl hx
  | accumulateEvent acc =>
    cases hix
    exact accumulateEvent_settled hl hx
  | completeFinalization acc =>
    cases hix
    exact completeFinalization_settled hl hx
  | abortFinalization acc reason =>
    cases hix
    exact abortFinalization_settled hx
  | redeem acc side amount allowZero guard =>
    cases hix
    exact redeem_settled hl hx
  | _ => cases hix

/-- **Account substitution never crosses series.** If an instruction on a series succeeds, the
accounts in its slots are those created for that series, the claims it issues or takes in are the
series' own, on the stated side, and whatever belongs to another series is as it was. -/
theorem substitution_confined (h : History host w₀ tr w) {ix : Instruction}
    (hix : ix.series = some k) (hx : w.execute host ix = .ok w') :
    ∃ s, w.series k = some s ∧ k = .series s.assetPolicy s.year ∧ ix.PinnedTo w k s ∧
      (∀ side, (w'.bank.supply (claimMintOf k side) : ℤ) =
        w.bank.supply (claimMintOf k side) + ix.issued side) ∧
      (∀ key, (∀ side, key ≠ claimMintOf k side) → w'.bank.mints key = w.bank.mints key) ∧
      OthersKept w w' k := by
  have hl := h.linked
  obtain ⟨s, hs, hsettled⟩ := execute_settled hl hix hx
  obtain ⟨tokens, hconfined, hwritable⟩ := hsettled.confined
  obtain ⟨c, hissued, hmoves⟩ := hsettled.moves
  refine ⟨s, hs, (hl.series hs).key, hsettled.pinned, fun side => ?_, hconfined.mints,
    hconfined.othersKept hl hs hwritable⟩
  obtain ⟨b, hb, -⟩ := hl.exists_books hs
  obtain ⟨b', hb', hstep⟩ := hmoves hb
  rw [← books_supply hb', ← books_supply hb, ← hissued]
  exact hstep.issued side

/-- The redemption of the sample is pinned to its series. -/
theorem substitution_confined_sample : ∃ s, (Sample.world 16).series Sample.seriesKey = some s ∧
    (Instruction.redeem (Sample.redemption .dr) .dr 40000 false (Sample.guard 6)).PinnedTo
      (Sample.world 16) Sample.seriesKey s ∧
    OthersKept (Sample.world 16) (Sample.world 17) Sample.seriesKey := by
  have hstep := @Sample.step 16
    (.instruction (.redeem (Sample.redemption .dr) .dr 40000 false (Sample.guard 6))) rfl
  simp only [World.act, Result.toOption_eq_some] at hstep
  have hix : (Instruction.redeem (Sample.redemption .dr) .dr 40000 false (Sample.guard 6)).series =
      some Sample.seriesKey := rfl
  obtain ⟨s, hs, -, hpinned, -, -, hkept⟩ := substitution_confined (Sample.history 16) hix hstep
  exact ⟨s, hs, hpinned, hkept⟩

end World

end DividendX
