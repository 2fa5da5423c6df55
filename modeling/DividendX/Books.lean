import DividendX.Linked

/-!
# The books of one series

A series on its own, without addresses: its account, its accumulator, its journal by event id and
revision number, and what the token programs hold for it as plain numbers. `Books.Step` is the
machine these books run through. It is the abstract layer: every invariant of a series is proved
on it once.

`World.books` reads the books of a series off the chain, and `World.act_books` connects the two
layers: whatever is accepted on chain, the books of every series make exactly one labelled step,
and the label agrees with the action on everything that is counted along a history.
-/

namespace DividendX

/-- The books of one series. -/
structure Books where
  series : Series
  accumulator : Accumulator
  /-- the latest state of each event -/
  heads : Bytes32 → Option EventHead
  /-- every accepted record -/
  revisions : Bytes32 → UInt64 → Option EventRevision
  /-- collateral in the vault -/
  vault : Nat
  /-- outstanding claims -/
  supply : RedeemSide → Nat
  /-- who may mint claims -/
  authority : RedeemSide → Option Pubkey

/-- What can happen to the books. -/
inductive Change : Type where
  | idle : Change
  | deposit (amount : UInt64) : Change
  | recombine (amount : UInt64) : Change
  | record (input : EventInput) : Change
  | begin : Change
  | accumulate (eventId : Bytes32) : Change
  | complete : Change
  | abort : Change
  | redeem (side : RedeemSide) (amount payout : UInt64) : Change
  | burn (side : RedeemSide) (amount : UInt64) : Change
  | donate (amount : UInt64) : Change
  | seize (amount : UInt64) : Change

namespace Change

/-- Collateral that came in from outside. -/
def donation : Change → Nat
  | donate amount => amount.toNat
  | _ => 0

/-- Collateral that was taken out from outside. -/
def seizure : Change → Nat
  | seize amount => amount.toNat
  | _ => 0

/-- Claims of a side burned outside the program. -/
def burned (side : RedeemSide) : Change → Nat
  | burn side' amount => if side' = side then amount.toNat else 0
  | _ => 0

/-- Claims of a side redeemed. -/
def redeemed (side : RedeemSide) : Change → Nat
  | redeem side' amount _ => if side' = side then amount.toNat else 0
  | _ => 0

/-- The journal was sealed. -/
def isBegin : Change → Bool
  | begin => true
  | _ => false

/-- The series was finalized. -/
def isComplete : Change → Bool
  | complete => true
  | _ => false

/-- The change is the work of the program. -/
def isBooked : Change → Bool
  | idle => false
  | burn _ _ => false
  | donate _ => false
  | seize _ => false
  | _ => true

/-- The instruction a change of the program stands for. -/
def Names (k : Pubkey) : Change → Action → Prop
  | deposit amount, a => ∃ acc guard, a = .instruction (.deposit acc amount guard) ∧ acc.series = k
  | recombine amount, a =>
      ∃ acc guard, a = .instruction (.recombine acc amount guard) ∧ acc.series = k
  | record input, a => ∃ acc, a = .instruction (.upsertEvent acc input) ∧ acc.series = k
  | begin, a => ∃ acc version hash coverage,
      a = .instruction (.beginFinalization acc version hash coverage) ∧ acc.series = k
  | accumulate _, a => ∃ acc, a = .instruction (.accumulateEvent acc) ∧ acc.series = k
  | complete, a => ∃ acc, a = .instruction (.completeFinalization acc) ∧ acc.series = k
  | abort, a => ∃ acc reason, a = .instruction (.abortFinalization acc reason) ∧ acc.series = k
  | redeem side amount _, a => ∃ acc allowZero guard,
      a = .instruction (.redeem acc side amount allowZero guard) ∧ acc.series = k
  | _, _ => True

end Change

namespace Books

/-- Write one record. -/
def putRevision (b : Books) (id : Bytes32) (n : UInt64) (r : EventRevision) :
    Bytes32 → UInt64 → Option EventRevision :=
  Function.update b.revisions id (Function.update (b.revisions id) n (some r))

/-- The head a record builds on. -/
def headOf (b : Books) (id : Bytes32) : EventHead := (b.heads id).getD .zeroed

/-- The event has no record yet. -/
def isNew (b : Books) (id : Bytes32) : Bool := (b.heads id).isNone

/-- **The machine of one series.** -/
inductive Step (host : Host) (k : Pubkey) (b : Books) : Change → Books → Prop
  | idle : Step host k b .idle b
  | deposit {amount nominal v : UInt64} (positive : 0 < amount) (phase : b.series.phase = .open)
      (resolved : b.series.unresolvedCount = 0) (unaccrued : b.series.inYearQualifiedCount = 0)
      (covered : b.series.nominalBacking.toNat ≤ b.vault) (fits : b.vault + amount.toNat < 2 ^ 64)
      (entitled : ∀ side, b.authority side = some k)
      (hn : nominal.toNat = b.series.nominalBacking.toNat + amount.toNat)
      (hv : v.toNat = b.series.stateVersion.toNat + 1) :
      Step host k b (.deposit amount)
        { b with
          series := { b.series with nominalBacking := nominal, stateVersion := v }
          vault := b.vault + amount.toNat
          supply := fun side => b.supply side + amount.toNat }
  | recombine {amount nominal v : UInt64} {supply : RedeemSide → Nat} {vault : Nat}
      (positive : 0 < amount) (phase : b.series.phase ≠ .finalized)
      (covered : b.series.nominalBacking.toNat ≤ b.vault)
      (hn : b.series.nominalBacking.toNat = nominal.toNat + amount.toNat)
      (hv : v.toNat = b.series.stateVersion.toNat + 1)
      (hs : ∀ side, supply side + amount.toNat = b.supply side)
      (hvault : vault + amount.toNat = b.vault) :
      Step host k b (.recombine amount)
        { b with
          series := { b.series with nominalBacking := nominal, stateVersion := v }
          vault := vault
          supply := supply }
  | record {input : EventInput} {resolved inYear : Bool} {s : Series} {jv v : UInt64}
      (phase : b.series.phase = .open) (numbered : 0 < input.revision)
      (valid : ∃ clock, validateEventInput input b.series.year clock = .ok (resolved, inYear))
      (later : ∀ h, b.heads input.eventId = some h → h.latestRevision < input.revision)
      (limit : b.heads input.eventId = none → b.series.eventCount < MAX_EVENTS)
      (unused : b.revisions input.eventId input.revision = none)
      (counted : updateCounters b.series (b.headOf input.eventId) (b.isNew input.eventId) resolved
        inYear = .ok s)
      (hjv : jv.toNat = s.journalVersion.toNat + 1) (hv : v.toNat = s.stateVersion.toNat + 1) :
      Step host k b (.record input)
        { b with
          series := { s with
            journalVersion := jv
            journalHash := nextJournalHash host s.journalHash
              (hashEventRecord host k input (if b.isNew input.eventId then zero32
                else (b.headOf input.eventId).latestRecordHash))
            stateVersion := v }
          heads := Function.update b.heads input.eventId (some (recordedHead host k b.series
            (b.headOf input.eventId) (b.isNew input.eventId) input resolved inYear))
          revisions := b.putRevision input.eventId input.revision
            (recordedRevision host k (b.headOf input.eventId) (b.isNew input.eventId) input) }
  | begin {v : UInt64} {coverageDigest : Bytes32} {profile : MintProfile}
      (phase : b.series.phase = .open) (resolved : b.series.unresolvedCount = 0)
      (covered : b.series.nominalBacking.toNat ≤ b.vault)
      (hv : v.toNat = b.series.stateVersion.toNat + 1) :
      Step host k b .begin
        { b with
          series := { b.series.sealed b.series.journalVersion b.series.journalHash coverageDigest
            profile with stateVersion := v }
          accumulator := b.accumulator.reset }
  | accumulate {id : Bytes32} {head : EventHead} {r : EventRevision}
      {numerator denominator : List UInt8} {cursor : UInt8} {v : UInt64}
      (phase : b.series.phase = .sealing)
      (pending : b.accumulator.cursor < b.series.sealedEventCount)
      (hhead : b.heads id = some head) (index : head.index = b.accumulator.cursor)
      (hrevision : b.revisions id head.latestRevision = some r)
      (hfactor : factorStep b.accumulator head r = .ok (numerator, denominator))
      (hc : cursor.toNat = b.accumulator.cursor.toNat + 1)
      (hv : v.toNat = b.series.stateVersion.toNat + 1) :
      Step host k b (.accumulate id)
        { b with
          series := { b.series with stateVersion := v }
          accumulator := { b.accumulator with
            cursor := cursor, numerator := numerator, denominator := denominator } }
  | complete {ptPool drPool slot v : UInt64} (phase : b.series.phase = .sealing)
      (done : b.accumulator.cursor = b.series.sealedEventCount)
      (covered : b.series.nominalBacking.toNat ≤ b.vault)
      (entitled : ∀ side, b.authority side = some k)
      (pools : splitPools b.series.nominalBacking b.accumulator.numerator
        b.accumulator.denominator = .ok (ptPool, drPool))
      (hv : v.toNat = b.series.stateVersion.toNat + 1) :
      Step host k b .complete
        { b with
          series := { b.series.final ptPool drPool slot with stateVersion := v }
          authority := fun _ => none }
  | abort {v : UInt64} (phase : b.series.phase = .sealing)
      (hv : v.toNat = b.series.stateVersion.toNat + 1) :
      Step host k b .abort
        { b with
          series := { b.series.unsealed with stateVersion := v }
          accumulator := b.accumulator.reset }
  | redeem {side : RedeemSide} {amount payout redeemed paid v : UInt64} {supply vault : Nat}
      (positive : 0 < amount) (phase : b.series.phase = .finalized)
      (priced : redemptionPayout (b.series.redeemedNominal side) amount (b.series.pool side)
        b.series.finalSupply = .ok payout)
      (covered : ∃ obligations, remainingObligations b.series = .ok obligations ∧
        obligations.toNat ≤ b.vault)
      (hr : redeemed.toNat = (b.series.redeemedNominal side).toNat + amount.toNat)
      (hp : paid.toNat = (b.series.paid side).toNat + payout.toNat)
      (hv : v.toNat = b.series.stateVersion.toNat + 1)
      (hs : supply + amount.toNat = b.supply side) (hvault : vault + payout.toNat = b.vault) :
      Step host k b (.redeem side amount payout)
        { b with
          series := { b.series.setRedeemed side redeemed paid with stateVersion := v }
          vault := vault
          supply := Function.update b.supply side supply }
  | burn {side : RedeemSide} {amount : UInt64} {supply : Nat}
      (hs : supply + amount.toNat = b.supply side) :
      Step host k b (.burn side amount) { b with supply := Function.update b.supply side supply }
  | donate {amount : UInt64} (fits : b.vault + amount.toNat < 2 ^ 64) :
      Step host k b (.donate amount) { b with vault := b.vault + amount.toNat }
  | seize {amount : UInt64} {vault : Nat} (hvault : vault + amount.toNat = b.vault) :
      Step host k b (.seize amount) { b with vault := vault }

/-- No step changes what a series is. -/
theorem Step.identity {host : Host} {k : Pubkey} {b b' : Books} {c : Change}
    (h : b.Step host k c b') : b'.series.identity = b.series.identity := by
  cases h with
  | record _ _ _ _ _ _ counted _ _ =>
    have hid := World.identity_of_updateCounters counted
    exact hid
  | redeem _ _ _ _ _ _ _ _ _ => exact World.identity_setRedeemed ..
  | _ => rfl

theorem Step.vaultKey {host : Host} {k : Pubkey} {b b' : Books} {c : Change}
    (h : b.Step host k c b') : b'.series.vault = b.series.vault :=
  congrArg Identity.vault h.identity

/-- Every change the program makes raises the version by one, and nothing else does. -/
theorem Step.stateVersion {host : Host} {k : Pubkey} {b b' : Books} {c : Change}
    (h : b.Step host k c b') :
    b'.series.stateVersion.toNat = b.series.stateVersion.toNat + c.isBooked.toNat := by
  cases h with
  | record _ _ _ _ _ _ counted _ hv =>
    obtain ⟨_, _, _, _, _, -, -, -, -, -, rfl⟩ := updateCounters_eq_ok.mp counted
    exact hv
  | deposit _ _ _ _ _ _ _ _ hv => exact hv
  | recombine _ _ _ _ hv _ _ => exact hv
  | begin _ _ _ hv => exact hv
  | accumulate _ _ _ _ _ _ _ hv => exact hv
  | complete _ _ _ _ _ hv => exact hv
  | abort _ hv => exact hv
  | redeem _ _ _ _ _ _ hv _ _ => exact hv
  | _ => rfl

/-- The books a new series starts with. -/
structure Fresh (b : Books) (host : Host) (k : Pubkey) : Prop where
  series : ∃ assetKey asset year start maturity mintKey profile,
    b.series = freshSeries host k assetKey asset year start maturity mintKey profile
  accumulator : b.accumulator = ⟨k, 0, [1], [1]⟩
  heads : ∀ id, b.heads id = none
  revisions : ∀ id n, b.revisions id n = none
  vault : b.vault = 0
  supply : ∀ side, b.supply side = 0
  authority : ∀ side, b.authority side = some k

end Books

/-! ## Reading the books off the chain -/

/-- The books of a series with a given account and accumulator. -/
def World.view (w : World) (k : Pubkey) (s : Series) (a : Accumulator) : Books :=
  { series := s
    accumulator := a
    heads := fun id => w.heads (.event k id)
    revisions := fun id n => w.revisions (.revision (.event k id) n)
    vault := w.bank.balance s.vault
    supply := fun side => w.bank.supply (claimMintOf k side)
    authority := fun side => w.bank.authority (claimMintOf k side) }

/-- The books of the series at an address. -/
def World.books (w : World) (k : Pubkey) : Option Books :=
  match w.series k, w.accumulators (.accumulator k) with
  | some s, some a => some (w.view k s a)
  | _, _ => none

namespace World

variable {host : Host} {w w' : World} {k : Pubkey} {b : Books}

theorem books_eq_some : w.books k = some b ↔ ∃ s a, w.series k = some s ∧
    w.accumulators (.accumulator k) = some a ∧ b = w.view k s a := by
  rw [books]
  split
  · rename_i s a hs ha
    rw [Option.some.injEq]
    refine ⟨fun h => ⟨s, a, hs, ha, h.symm⟩, ?_⟩
    rintro ⟨s', a', hs', ha', rfl⟩
    cases hs.symm.trans hs'
    cases ha.symm.trans ha'
    rfl
  · rename_i hnone
    refine ⟨fun h => absurd h (by simp), ?_⟩
    rintro ⟨s, a, hs, ha, -⟩
    exact absurd ha (hnone s a hs)

/-- A series has books. -/
theorem Linked.exists_books (h : w.Linked) {s : Series} (hs : w.series k = some s) :
    ∃ b, w.books k = some b ∧ b.series = s := by
  obtain ⟨a, ha, -⟩ := (h.series hs).accumulator
  exact ⟨_, books_eq_some.mpr ⟨s, a, hs, ha, rfl⟩, rfl⟩

/-- Only the accounts of one series are touched. -/
structure Touches (w w' : World) (k₀ : Pubkey) : Prop where
  series : ∀ k, k ≠ k₀ → w'.series k = w.series k
  accumulators : ∀ k, k ≠ k₀ → w'.accumulators (.accumulator k) = w.accumulators (.accumulator k)
  heads : ∀ k id, k ≠ k₀ → w'.heads (.event k id) = w.heads (.event k id)
  revisions : ∀ k id n, k ≠ k₀ →
    w'.revisions (.revision (.event k id) n) = w.revisions (.revision (.event k id) n)
  balance : ∀ k s, k ≠ k₀ → w.series k = some s → w'.bank.balance s.vault = w.bank.balance s.vault
  supply : ∀ k side, k ≠ k₀ →
    w'.bank.supply (claimMintOf k side) = w.bank.supply (claimMintOf k side)
  authority : ∀ k side, k ≠ k₀ →
    w'.bank.authority (claimMintOf k side) = w.bank.authority (claimMintOf k side)

/-- The books of every other series stay as they were. -/
theorem Touches.books {k₀ : Pubkey} (h : Touches w w' k₀) (hk : k ≠ k₀)
    (hb : w.books k = some b) : w'.books k = some b := by
  obtain ⟨s, a, hs, ha, rfl⟩ := books_eq_some.mp hb
  refine books_eq_some.mpr ⟨s, a, (h.series k hk).trans hs, (h.accumulators k hk).trans ha, ?_⟩
  simp only [view, Books.mk.injEq, true_and]
  refine ⟨funext fun id => (h.heads k id hk).symm, funext fun id => funext fun n =>
    (h.revisions k id n hk).symm, (h.balance k s hk hs).symm, funext fun side =>
    (h.supply k side hk).symm, funext fun side => (h.authority k side hk).symm⟩

end World

end DividendX
