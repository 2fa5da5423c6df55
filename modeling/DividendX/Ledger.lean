import DividendX.Chain

/-!
# The ledger of the token programs

Balances, supplies and mint authorities as numbers, and what each accepted token instruction does
to them. Two facts carry through a whole history.

* **Frames.** A token instruction changes amounts, supplies and mint authorities and nothing else
  (`Bank.Alike`).
* **Conservation.** The balances of a claim mint add up to its supply (`Bank.Balanced`).
-/

namespace DividendX

/-! ## Numbers -/

namespace Bank

/-- The amount in a token account, zero if there is none. -/
def balance (b : Bank) (key : Pubkey) : Nat := (b.tokens key).elim 0 fun t => t.amount.toNat

/-- The supply of a mint, zero if there is none. -/
def supply (b : Bank) (mint : Pubkey) : Nat := (b.mints mint).elim 0 fun m => m.supply.toNat

/-- Who may mint. -/
def authority (b : Bank) (mint : Pubkey) : Option Pubkey := (b.mints mint).bind Mint.mintAuthority

/-- The amount of one mint in a token account. -/
def holding (b : Bank) (mint key : Pubkey) : Nat :=
  (b.tokens key).elim 0 fun t => if t.mint = mint then t.amount.toNat else 0

/-- What is in an account. -/
theorem balance_eq {b : Bank} {key : Pubkey} {t : TokenAccount} (h : b.tokens key = some t) :
    b.balance key = t.amount.toNat := by
  simp [balance, h]

/-- What a mint has issued. -/
theorem supply_eq {b : Bank} {mint : Pubkey} {m : Mint} (h : b.mints mint = some m) :
    b.supply mint = m.supply.toNat := by
  simp [supply, h]

/-- Who may issue. -/
theorem authority_eq {b : Bank} {mint : Pubkey} {m : Mint} (h : b.mints mint = some m) :
    b.authority mint = m.mintAuthority := by
  simp [authority, h]

/-- What an account holds of its own mint. -/
theorem holding_eq {b : Bank} {mint key : Pubkey} {t : TokenAccount} (h : b.tokens key = some t)
    (hm : t.mint = mint) : b.holding mint key = t.amount.toNat := by
  simp [holding, h, hm]

/-- The balances of every claim mint add up to its supply. -/
def Balanced (b : Bank) : Prop :=
  ∀ mint, mint.isClaimMint = true → HasTotal (b.holding mint) (b.supply mint)

/-- Nobody holds more than was issued. -/
theorem Balanced.amount_le {b : Bank} (h : b.Balanced) {mint key : Pubkey} {t : TokenAccount}
    (hmint : mint.isClaimMint = true) (ht : b.tokens key = some t) (hm : t.mint = mint) :
    t.amount.toNat ≤ b.supply mint := by
  rw [← holding_eq ht hm]
  exact (h mint hmint).le key

end Bank

/-! ## Frames -/

/-- A token account without its amount. -/
def TokenAccount.frame (t : TokenAccount) : TokenAccount := { t with amount := 0 }

/-- A mint without its supply and mint authority. -/
def Mint.frame (m : Mint) : Mint := { m with supply := 0, mintAuthority := none }

namespace Bank

/-- The same accounts and mints up to amounts, supplies and mint authorities. -/
structure Alike (b b' : Bank) : Prop where
  tokens : ∀ key, (b'.tokens key).map TokenAccount.frame = (b.tokens key).map TokenAccount.frame
  mints : ∀ key, (b'.mints key).map Mint.frame = (b.mints key).map Mint.frame

namespace Alike

variable {b b' b'' : Bank}

theorem refl (b : Bank) : b.Alike b := ⟨fun _ => rfl, fun _ => rfl⟩

theorem symm (h : b.Alike b') : b'.Alike b :=
  ⟨fun key => (h.tokens key).symm, fun key => (h.mints key).symm⟩

theorem trans (h : b.Alike b') (h' : b'.Alike b'') : b.Alike b'' :=
  ⟨fun key => (h'.tokens key).trans (h.tokens key), fun key => (h'.mints key).trans (h.mints key)⟩

/-- An account is still there, with what surrounds its amount. -/
theorem token (h : b.Alike b') {key : Pubkey} {t : TokenAccount} (ht : b.tokens key = some t) :
    ∃ t', b'.tokens key = some t' ∧ t'.frame = t.frame := by
  have hk := h.tokens key
  rw [ht, Option.map_some, Option.map_eq_some_iff] at hk
  exact hk

/-- So is a mint, with what surrounds its supply. -/
theorem mint (h : b.Alike b') {key : Pubkey} {m : Mint} (hm : b.mints key = some m) :
    ∃ m', b'.mints key = some m' ∧ m'.frame = m.frame := by
  have hk := h.mints key
  rw [hm, Option.map_some, Option.map_eq_some_iff] at hk
  exact hk

end Alike

/-- A change of amounts leaves everything else. -/
theorem modifyToken_alike (b : Bank) (key : Pubkey) {f : TokenAccount → TokenAccount}
    (hf : ∀ t, (f t).frame = t.frame) : b.Alike (b.modifyToken key f) := by
  refine ⟨fun key' => ?_, fun _ => rfl⟩
  by_cases h : key' = key
  · subst h
    simp only [modifyToken, Function.update_self, Option.map_map]
    congr 1
    funext t
    exact hf t
  · rw [modifyToken_of_ne h]

/-- So does a change of supplies. -/
theorem modifyMint_alike (b : Bank) (key : Pubkey) {f : Mint → Mint}
    (hf : ∀ m, (f m).frame = m.frame) : b.Alike (b.modifyMint key f) := by
  refine ⟨fun _ => rfl, fun key' => ?_⟩
  by_cases h : key' = key
  · subst h
    simp only [modifyMint, Function.update_self, Option.map_map]
    congr 1
    funext m
    exact hf m
  · rw [modifyMint_of_ne h]

theorem credit_alike (b : Bank) (key : Pubkey) (amount : UInt64) : b.Alike (b.credit key amount) :=
  modifyToken_alike b key fun _ => rfl

theorem debit_alike (b : Bank) (key : Pubkey) (amount : UInt64) : b.Alike (b.debit key amount) :=
  modifyToken_alike b key fun _ => rfl

/-! ## Single changes -/

variable {b : Bank} {key : Pubkey} {t : TokenAccount} {amount : UInt64}

/-- The account with more in it. -/
theorem credit_self (ht : b.tokens key = some t) :
    (b.credit key amount).tokens key = some { t with amount := t.amount + amount } :=
  modifyToken_self ht

/-- The account with less in it. -/
theorem debit_self (ht : b.tokens key = some t) :
    (b.debit key amount).tokens key = some { t with amount := t.amount - amount } :=
  modifyToken_self ht

/-- A sum that fits is added. -/
theorem balance_credit (ht : b.tokens key = some t)
    (hfit : t.amount.toNat + amount.toNat < 2 ^ 64) :
    (b.credit key amount).balance key = b.balance key + amount.toNat := by
  rw [balance_eq ht, balance_eq (credit_self ht)]
  exact Checked.toNat_add_of_lt hfit

/-- An amount that is there is taken. -/
theorem balance_debit (ht : b.tokens key = some t) (hle : amount.toNat ≤ t.amount.toNat) :
    (b.debit key amount).balance key + amount.toNat = b.balance key := by
  rw [balance_eq ht, balance_eq (debit_self ht)]
  change (t.amount - amount).toNat + amount.toNat = _
  rw [Checked.toNat_sub_of_le hle]
  omega

/-- Other accounts keep their balances. -/
theorem balance_modifyToken_of_ne {key' : Pubkey} {f : TokenAccount → TokenAccount}
    (h : key' ≠ key) : (b.modifyToken key f).balance key' = b.balance key' := by
  rw [balance, modifyToken_of_ne h, balance]

/-- And what they hold of any mint. -/
theorem holding_modifyToken_of_ne {mint key' : Pubkey} {f : TokenAccount → TokenAccount}
    (h : key' ≠ key) : (b.modifyToken key f).holding mint key' = b.holding mint key' := by
  rw [holding, modifyToken_of_ne h, holding]

/-- The holdings of another mint are not touched. -/
theorem holding_modifyToken_of_mint_ne {mint key' : Pubkey} {f : TokenAccount → TokenAccount}
    (ht : b.tokens key = some t) (hm : t.mint ≠ mint) (hf : (f t).mint = t.mint) :
    (b.modifyToken key f).holding mint key' = b.holding mint key' := by
  by_cases h : key' = key
  · subst h
    simp [holding, ht, modifyToken_self ht, hf, hm]
  · exact holding_modifyToken_of_ne h

theorem holding_credit (ht : b.tokens key = some t)
    (hfit : t.amount.toNat + amount.toNat < 2 ^ 64) :
    (b.credit key amount).holding t.mint key = b.holding t.mint key + amount.toNat := by
  rw [holding_eq ht rfl, holding_eq (credit_self ht) rfl]
  exact Checked.toNat_add_of_lt hfit

theorem holding_debit (ht : b.tokens key = some t) (hle : amount.toNat ≤ t.amount.toNat) :
    (b.debit key amount).holding t.mint key + amount.toNat = b.holding t.mint key := by
  rw [holding_eq ht rfl, holding_eq (debit_self ht) rfl]
  change (t.amount - amount).toNat + amount.toNat = _
  rw [Checked.toNat_sub_of_le hle]
  omega

end Bank

/-! ## Accepted token instructions -/

namespace Host

variable {host : Host} {b b' : Bank} {key : Pubkey}

/-- **A transfer** moves exactly the amount between two accounts of one mint. -/
structure Moved (b b' : Bank) (src mint dst : Pubkey) (amount : UInt64) : Prop where
  source : ∃ t, b.tokens src = some t ∧ t.mint = mint ∧ amount.toNat ≤ t.amount.toNat
  destination : ∃ t, b.tokens dst = some t ∧ t.mint = mint
  debited : src ≠ dst → b'.balance src + amount.toNat = b.balance src
  credited : src ≠ dst → b'.balance dst = b.balance dst + amount.toNat
  self : src = dst → b'.balance src = b.balance src
  fits : src ≠ dst → b.balance dst + amount.toNat < 2 ^ 64
  others : ∀ key, key ≠ src → key ≠ dst → b'.balance key = b.balance key
  supply : ∀ mint, b'.supply mint = b.supply mint
  authority : ∀ mint, b'.authority mint = b.authority mint
  alike : b.Alike b'
  balanced : b.Balanced → b'.Balanced

/-- **A transfer** that the token program makes. -/
theorem invoke_transfer {source mint destination authority : Pubkey} {amount : UInt64}
    {decimals : UInt8}
    (h : host.invoke b (.transferChecked source mint destination authority amount decimals) =
      .ok b') : Moved b b' source mint destination amount := by
  obtain ⟨haccept, rfl⟩ := invoke_eq_ok.mp h
  obtain ⟨src, dst, m, hsrc, hdst, hm, hsm, hdm, -, -, -, -, hle, hfit⟩ :=
    host.accepts_requires b _ haccept
  simp only [TokenInstruction.effect]
  by_cases hself : source = destination
  · -- debit and credit cancel on one account
    subst hself
    cases hsrc.symm.trans hdst
    have hsame : (b.debit source amount).credit source amount = b := by
      have htokens : ((b.debit source amount).credit source amount).tokens = b.tokens := by
        funext key
        by_cases hk : key = source
        · rw [hk, Bank.credit_self (Bank.debit_self hsrc), hsrc]
          simp
        · rw [Bank.credit, Bank.modifyToken_of_ne hk, Bank.debit, Bank.modifyToken_of_ne hk]
      exact congrArg (fun tokens => (⟨tokens, b.mints⟩ : Bank)) htokens
    rw [hsame]
    exact ⟨⟨src, hsrc, hsm, hle⟩, ⟨src, hsrc, hsm⟩, fun h => absurd rfl h, fun h => absurd rfl h,
      fun _ => rfl, fun h => absurd rfl h, fun _ _ _ => rfl, fun _ => rfl, fun _ => rfl,
      Bank.Alike.refl b, id⟩
  · have hdst' : (b.debit source amount).tokens destination = some dst := by
      rw [Bank.debit, Bank.modifyToken_of_ne (Ne.symm hself), hdst]
    have hfit' := hfit hself
    have hdebit : ((b.debit source amount).credit destination amount).balance source
        + amount.toNat = b.balance source := by
      rw [Bank.credit, Bank.balance_modifyToken_of_ne hself]
      exact Bank.balance_debit hsrc hle
    have hcredit : ((b.debit source amount).credit destination amount).balance destination =
        b.balance destination + amount.toNat := by
      rw [Bank.balance_credit hdst' hfit', Bank.debit,
        Bank.balance_modifyToken_of_ne (Ne.symm hself)]
    refine ⟨⟨src, hsrc, hsm, hle⟩, ⟨dst, hdst, hdm⟩, fun _ => hdebit, fun _ => hcredit,
      fun h => absurd h hself, fun _ => ?_, ?_, fun _ => rfl, fun _ => rfl, ?_, ?_⟩
    · rw [Bank.balance_eq hdst]
      exact hfit'
    · intro key hs hd
      rw [Bank.credit, Bank.balance_modifyToken_of_ne hd, Bank.debit,
        Bank.balance_modifyToken_of_ne hs]
    · exact (Bank.debit_alike b source amount).trans (Bank.credit_alike _ destination amount)
    · intro hbal mint' hclaim
      by_cases hmint : mint = mint'
      · -- the moved mint: one holding down, one up by the same amount
        rw [← hmint] at hclaim ⊢
        have hdown : HasTotal ((b.debit source amount).holding mint)
            (b.supply mint - amount.toNat) := by
          refine (hbal mint hclaim).decrease (fun j hj => Bank.holding_modifyToken_of_ne hj) ?_
          rw [← hsm]
          exact Bank.holding_debit hsrc hle
        have hup := hdown.increase
          (g := ((b.debit source amount).credit destination amount).holding mint)
          (fun j hj => Bank.holding_modifyToken_of_ne hj)
          (by rw [← hdm]; exact Bank.holding_credit hdst' hfit')
        have hsupply : amount.toNat ≤ b.supply mint := hle.trans (hbal.amount_le hclaim hsrc hsm)
        rw [Nat.sub_add_cancel hsupply] at hup
        exact hup
      · refine (hbal mint' hclaim).congr fun j => ?_
        rw [Bank.credit, Bank.holding_modifyToken_of_mint_ne hdst' (by rw [hdm]; exact hmint) rfl,
          Bank.debit, Bank.holding_modifyToken_of_mint_ne hsrc (by rw [hsm]; exact hmint) rfl]

/-- **An issue** adds the amount to one account and to the supply. -/
structure Issued (b b' : Bank) (mint dst authority : Pubkey) (amount : UInt64) : Prop where
  destination : ∃ t, b.tokens dst = some t ∧ t.mint = mint
  credited : b'.balance dst = b.balance dst + amount.toNat
  others : ∀ key, key ≠ dst → b'.balance key = b.balance key
  issued : b'.supply mint = b.supply mint + amount.toNat
  fits : b.supply mint + amount.toNat < 2 ^ 64
  otherSupplies : ∀ mint', mint' ≠ mint → b'.supply mint' = b.supply mint'
  entitled : b.authority mint = some authority
  authorities : ∀ mint, b'.authority mint = b.authority mint
  alike : b.Alike b'
  balanced : b.Balanced → b'.Balanced

/-- **An issue** that the token program makes. -/
theorem invoke_mintTo {mint destination authority : Pubkey} {amount : UInt64}
    (h : host.invoke b (.mintTo mint destination authority amount) = .ok b') :
    Issued b b' mint destination authority amount := by
  obtain ⟨haccept, rfl⟩ := invoke_eq_ok.mp h
  obtain ⟨dst, m, hdst, hm, hdm, -, hauth, hsup, hfit⟩ := host.accepts_requires b _ haccept
  simp only [TokenInstruction.effect]
  have hm' : (b.credit destination amount).mints mint = some m := hm
  have hissued : ((b.credit destination amount).modifyMint mint
      fun m => { m with supply := m.supply + amount }).supply mint =
      b.supply mint + amount.toNat := by
    rw [Bank.supply_eq (Bank.modifyMint_self hm'), Bank.supply_eq hm]
    exact Checked.toNat_add_of_lt hsup
  have hother : ∀ mint', mint' ≠ mint → ((b.credit destination amount).modifyMint mint
      fun m => { m with supply := m.supply + amount }).supply mint' = b.supply mint' := by
    intro mint' hne
    rw [Bank.supply, Bank.modifyMint_of_ne hne]
    rfl
  refine ⟨⟨dst, hdst, hdm⟩, Bank.balance_credit hdst hfit, ?_, hissued, ?_, hother, ?_, ?_, ?_, ?_⟩
  · exact fun key hk => Bank.balance_modifyToken_of_ne hk
  · rw [Bank.supply_eq hm]
    exact hsup
  · rw [Bank.authority_eq hm, hauth]
  · intro mint'
    by_cases hk : mint' = mint
    · rw [hk, Bank.authority_eq (Bank.modifyMint_self hm'), Bank.authority_eq hm]
    · rw [Bank.authority, Bank.modifyMint_of_ne hk]
      rfl
  · refine (Bank.credit_alike b destination amount).trans (Bank.modifyMint_alike _ mint ?_)
    exact fun _ => rfl
  · intro hbal mint' hclaim
    by_cases hmint : mint' = mint
    · -- the issued mint: the supply and one holding rise by the same amount
      rw [hmint] at hclaim ⊢
      rw [hissued]
      refine (hbal mint hclaim).increase (fun j hj => Bank.holding_modifyToken_of_ne hj) ?_
      rw [← hdm]
      exact Bank.holding_credit hdst hfit
    · rw [hother mint' hmint]
      exact (hbal mint' hclaim).congr fun j =>
        Bank.holding_modifyToken_of_mint_ne hdst (by rw [hdm]; exact Ne.symm hmint) rfl

/-- **A burn** takes the amount from one account and from the supply. -/
structure Burned (b b' : Bank) (mint src : Pubkey) (amount : UInt64) : Prop where
  source : ∃ t, b.tokens src = some t ∧ t.mint = mint ∧ amount.toNat ≤ t.amount.toNat
  debited : b'.balance src + amount.toNat = b.balance src
  others : ∀ key, key ≠ src → b'.balance key = b.balance key
  burned : b'.supply mint + amount.toNat = b.supply mint
  otherSupplies : ∀ mint', mint' ≠ mint → b'.supply mint' = b.supply mint'
  authorities : ∀ mint, b'.authority mint = b.authority mint
  alike : b.Alike b'
  balanced : b.Balanced → b'.Balanced

/-- **A burn** that the token program makes. -/
theorem invoke_burn {mint source authority : Pubkey} {amount : UInt64}
    (h : host.invoke b (.burn mint source authority amount) = .ok b') :
    Burned b b' mint source amount := by
  obtain ⟨haccept, rfl⟩ := invoke_eq_ok.mp h
  obtain ⟨src, m, hsrc, hm, hsm, -, hle, hsup⟩ := host.accepts_requires b _ haccept
  simp only [TokenInstruction.effect]
  have hm' : (b.debit source amount).mints mint = some m := hm
  have hburned : ((b.debit source amount).modifyMint mint
      fun m => { m with supply := m.supply - amount }).supply mint + amount.toNat =
      b.supply mint := by
    rw [Bank.supply_eq (Bank.modifyMint_self hm'), Bank.supply_eq hm]
    change (m.supply - amount).toNat + amount.toNat = _
    rw [Checked.toNat_sub_of_le hsup]
    omega
  have hother : ∀ mint', mint' ≠ mint → ((b.debit source amount).modifyMint mint
      fun m => { m with supply := m.supply - amount }).supply mint' = b.supply mint' := by
    intro mint' hne
    rw [Bank.supply, Bank.modifyMint_of_ne hne]
    rfl
  refine ⟨⟨src, hsrc, hsm, hle⟩, Bank.balance_debit hsrc hle, ?_, hburned, hother, ?_, ?_, ?_⟩
  · exact fun key hk => Bank.balance_modifyToken_of_ne hk
  · intro mint'
    by_cases hk : mint' = mint
    · rw [hk, Bank.authority_eq (Bank.modifyMint_self hm'), Bank.authority_eq hm]
    · rw [Bank.authority, Bank.modifyMint_of_ne hk]
      rfl
  · refine (Bank.debit_alike b source amount).trans (Bank.modifyMint_alike _ mint ?_)
    exact fun _ => rfl
  · intro hbal mint' hclaim
    by_cases hmint : mint' = mint
    · -- the burned mint: one holding and the supply fall by the same amount
      rw [hmint] at hclaim ⊢
      have htotal : HasTotal ((b.debit source amount).holding mint)
          (b.supply mint - amount.toNat) := by
        refine (hbal mint hclaim).decrease (fun j hj => Bank.holding_modifyToken_of_ne hj) ?_
        rw [← hsm]
        exact Bank.holding_debit hsrc hle
      rw [← hburned, Nat.add_sub_cancel] at htotal
      exact htotal
    · rw [hother mint' hmint]
      exact (hbal mint' hclaim).congr fun j =>
        Bank.holding_modifyToken_of_mint_ne hsrc (by rw [hsm]; exact Ne.symm hmint) rfl

/-- **A revocation** leaves a mint without authority. -/
structure Revoked (b b' : Bank) (mint authority : Pubkey) : Prop where
  entitled : b.authority mint = some authority
  revoked : b'.authority mint = none
  otherAuthorities : ∀ mint', mint' ≠ mint → b'.authority mint' = b.authority mint'
  supply : ∀ mint, b'.supply mint = b.supply mint
  balance : ∀ key, b'.balance key = b.balance key
  alike : b.Alike b'
  balanced : b.Balanced → b'.Balanced

/-- **The end of issuing.** -/
theorem invoke_revoke {mint authority : Pubkey}
    (h : host.invoke b (.revokeMintAuthority mint authority) = .ok b') :
    Revoked b b' mint authority := by
  obtain ⟨haccept, rfl⟩ := invoke_eq_ok.mp h
  obtain ⟨m, hm, hauth⟩ := host.accepts_requires b _ haccept
  simp only [TokenInstruction.effect]
  have hsupply : ∀ mint',
      (b.modifyMint mint fun m => { m with mintAuthority := none }).supply mint' =
      b.supply mint' := by
    intro mint'
    by_cases hk : mint' = mint
    · rw [hk, Bank.supply_eq (Bank.modifyMint_self hm), Bank.supply_eq hm]
    · rw [Bank.supply, Bank.modifyMint_of_ne hk, Bank.supply]
  refine ⟨?_, ?_, ?_, hsupply, fun _ => rfl, ?_, ?_⟩
  · rw [Bank.authority_eq hm, hauth]
  · rw [Bank.authority_eq (Bank.modifyMint_self hm)]
  · intro mint' hne
    rw [Bank.authority, Bank.modifyMint_of_ne hne, Bank.authority]
  · exact Bank.modifyMint_alike b mint fun _ => rfl
  · intro hbal mint' hclaim
    rw [hsupply]
    exact (hbal mint' hclaim).congr fun _ => rfl

end Host

end DividendX
