import DividendX.Devnet.Changes
import DividendX.Lib.Json
import DividendX.Lib.Run

/-!
# The stored text of the ledger

The ledger is stored as the text `JSON.stringify` makes of it, and `encode` of the store refuses a
text longer than `MAX_LEDGER_BYTES`. Each type of the ledger gets its text and the length of it, as
a sum over its parts.
-/

namespace DividendX

namespace Devnet

open Json

/-- `MAX_LEDGER_BYTES`. -/
def maxLedgerBytes : Nat := 1_048_576

/-- A string of the source. -/
def stringText (s : String) : Text := quote s.toList

/-- A time. -/
def instantText (t : Instant) : Text := quote t.isoChars

/-- The characters of a digest. -/
def Digest.hex (d : Digest) : Text :=
  d.toList.flatMap fun b => [hexDigit (b.toNat / 16), hexDigit (b.toNat % 16)]

/-- A digest. -/
def digestText (d : Digest) : Text := quote d.hex

/-- The characters of an operation id. -/
def OperationId.text : OperationId → Text
  | .grant d => "grant-".toList ++ d.hex
  | .observation d => "observation-".toList ++ d.hex

/-- The name of a kind. -/
def OperationKind.text : OperationKind → String
  | .faucet => "faucet"
  | .observation => "observation"

/-- The name of a state. -/
def OperationState.text : OperationState → String
  | .reserved => "reserved"
  | .prepared => "prepared"
  | .submitted => "submitted"
  | .confirmed => "confirmed"
  | .failed => "failed"
  | .expired => "expired"

/-- The intent of an attempt. -/
def intentText (intent : Record String String) : Text := table String.toList stringText intent

/-- The text of an attempt. -/
def SignedAttempt.stringify (a : SignedAttempt) : Text :=
  struct [
    ("signature", stringText a.signature),
    ("blockhash", stringText a.blockhash),
    ("lastValidBlockHeight", number a.lastValidBlockHeight),
    ("serializedTransactionBase64", stringText a.serializedTransactionBase64),
    ("preparedAt", stringText a.preparedAt),
    ("intent", intentText a.intent)]

/-- The text of an operation. -/
def DurableOperation.stringify (op : DurableOperation) : Text :=
  struct [
    ("id", quote op.id.text),
    ("kind", stringText op.kind.text),
    ("state", stringText op.state.text),
    ("reservationLamports", number op.reservationLamports),
    ("createdAt", instantText op.createdAt),
    ("day", stringText op.day),
    ("owner", nullable stringText op.owner),
    ("assetId", stringText op.assetId),
    ("visitorHash", nullable digestText op.visitorHash),
    ("ipHash", nullable digestText op.ipHash),
    ("bucket", nullable instantText op.bucket),
    ("fence", nullable number op.fence),
    ("attempt", nullable SignedAttempt.stringify op.attempt),
    ("submittedAt", nullable instantText op.submittedAt),
    ("completedAt", nullable instantText op.completedAt),
    ("errorCode", nullable stringText op.errorCode)]

/-- The text of a lease. -/
def PreparationLease.stringify (l : PreparationLease) : Text :=
  struct [
    ("operationId", quote l.operationId.text),
    ("holder", stringText l.holder),
    ("fence", number l.fence),
    ("expiresAt", instantText l.expiresAt)]

/-- The text of both leases. -/
def Leases.stringify (l : Leases) : Text :=
  struct [
    ("faucet", nullable PreparationLease.stringify l.faucet),
    ("observation", nullable PreparationLease.stringify l.observation)]

/-- The text of a quota. -/
def DailyQuota.stringify (q : DailyQuota) : Text :=
  struct [
    ("grants", number q.grants),
    ("lamports", number q.lamports),
    ("visitors", table Digest.hex number q.visitors),
    ("ips", table Digest.hex number q.ips)]

/-- The text of the ledger. -/
def HostedDevnetLedger.stringify (v : HostedDevnetLedger) : Text :=
  struct [
    ("schemaVersion", number v.schemaVersion),
    ("revision", number v.revision),
    ("nextFence", number v.nextFence),
    ("faucetDisabledReason", nullable stringText v.faucetDisabledReason),
    ("faucetLifetimeLamports", number v.faucetLifetimeLamports),
    ("observationLifetimeLamports", number v.observationLifetimeLamports),
    ("daily", table String.toList DailyQuota.stringify v.daily),
    ("leases", v.leases.stringify),
    ("operations", table OperationId.text DurableOperation.stringify v.operations)]

/-! ## Lengths -/

/-- The characters of a time are digits and signs, 24 of them or 27. -/
theorem Instant.plain_isoChars (t : Instant) : ∀ c ∈ t.isoChars, Plain c := by
  have hdigits : ∀ width n, ∀ c ∈ digits width n, Plain c := by
    intro width
    induction width with
    | zero => simp [digits]
    | succ width ih =>
      intro n c hc
      rcases List.mem_append.mp hc with hc | hc
      · exact ih _ c hc
      · rw [List.mem_singleton.mp hc]
        have hdigit : ∀ d < 10, Plain (Char.ofNat (48 + d)) := by decide
        exact hdigit _ (Nat.mod_lt n (by omega))
  have hyear : ∀ year, ∀ c ∈ yearText year, Plain c := by
    intro year c hc
    rw [yearText] at hc
    split at hc
    · exact hdigits _ _ c hc
    · rcases List.mem_cons.mp hc with rfl | hc
      · split <;> decide
      · exact hdigits _ _ c hc
  have hsigns : ∀ c ∈ ['-', 'T', ':', '.', 'Z'], Plain c := plain_of_all (by decide)
  intro c hc
  simp only [isoChars, List.mem_append, List.mem_cons, List.not_mem_nil, or_false] at hc
  have hdash := hsigns '-' (by decide)
  have hcolon := hsigns ':' (by decide)
  rcases hc
    with (((((((hc | rfl | hc) | rfl | hc) | rfl | hc) | rfl | hc) | rfl | hc) | rfl | hc) | rfl)
  · exact hyear _ c hc
  all_goals first
    | exact hdash
    | exact hcolon
    | exact hdigits _ _ c hc
    | exact hsigns _ (by decide)

/-- A year has four characters, or seven with a sign. -/
theorem Instant.length_isoChars (t : Instant) :
    24 ≤ t.isoChars.length ∧ t.isoChars.length ≤ 27 := by
  have hdigits : ∀ width n, (digits width n).length = width := by
    intro width
    induction width with
    | zero => simp [digits]
    | succ width ih =>
      intro n
      simp [digits, ih]
  have hyear : ∀ year, 4 ≤ (yearText year).length ∧ (yearText year).length ≤ 7 := by
    intro year
    rw [yearText]
    split <;> simp [hdigits]
  have h := hyear (civil (t.ms / 86_400_000)).1
  simp only [isoChars, List.length_append, List.length_cons, List.length_nil, hdigits]
  omega

/-- So an instant takes 26 to 29 bytes, in quotes. -/
theorem byteLength_instantText (t : Instant) :
    26 ≤ byteLength (instantText t) ∧ byteLength (instantText t) ≤ 29 := by
  have h := t.length_isoChars
  rw [instantText]
  rw [byteLength_quote_of_plain t.plain_isoChars]
  omega

/-- A day takes twelve. -/
theorem byteLength_utcDay (t : Instant) : byteLength (stringText (utcDay t)) = 12 := by
  have hplain : ∀ c ∈ t.isoChars.take 10, Plain c := fun c hc =>
    t.plain_isoChars c (List.mem_of_mem_take hc)
  have hlen := t.length_isoChars
  rw [stringText, utcDay]
  rw [String.toList_ofList, byteLength_quote_of_plain hplain, List.length_take]
  omega

/-- No character of a digest is escaped. -/
theorem Digest.plain_hex (d : Digest) : ∀ c ∈ d.hex, Plain c := by
  have hdigit : ∀ n < 16, Plain (hexDigit n) := by decide
  intro c hc
  obtain ⟨b, -, hb⟩ := List.mem_flatMap.mp hc
  have hlt := b.toNat_lt
  simp only [List.mem_cons, List.not_mem_nil, or_false] at hb
  rcases hb with rfl | rfl
  · exact hdigit _ (by omega)
  · exact hdigit _ (by omega)

theorem Digest.length_hex (d : Digest) : d.hex.length = 64 := by
  rw [Digest.hex]
  rw [List.length_flatMap]
  simp

theorem byteLength_digestText (d : Digest) : byteLength (digestText d) = 66 := by
  rw [digestText]
  rw [byteLength_quote_of_plain d.plain_hex, d.length_hex]

/-- The text of an id has one of two lengths. -/
theorem OperationId.byteLength_text (id : OperationId) :
    byteLength (quote id.text) = match id with
      | .grant _ => 72
      | .observation _ => 78 := by
  have hplain : ∀ (header : Text) (d : Digest), (∀ c ∈ header, Plain c) →
      byteLength (quote (header ++ d.hex)) = header.length + 66 := by
    intro header d hheader
    have h : ∀ c ∈ header ++ d.hex, Plain c := by
      intro c hc
      rcases List.mem_append.mp hc with hc | hc
      · exact hheader c hc
      · exact d.plain_hex c hc
    rw [byteLength_quote_of_plain h, List.length_append, d.length_hex]
  cases id with
  | grant d => exact hplain _ d (plain_of_all (by decide))
  | observation d => exact hplain _ d (plain_of_all (by decide))

theorem OperationState.byteLength_text (s : OperationState) :
    byteLength (stringText s.text) ≤ 11 := by
  cases s <;> decide

/-- The fixed text of an attempt, and its fields. -/
theorem SignedAttempt.byteLength_stringify (a : SignedAttempt) :
    byteLength a.stringify = 106 + byteLength (stringText a.signature)
      + byteLength (stringText a.blockhash) + byteLength (number a.lastValidBlockHeight)
      + byteLength (stringText a.serializedTransactionBase64) + byteLength (stringText a.preparedAt)
      + byteLength (intentText a.intent) := by
  rw [stringify]
  rw [byteLength_struct (n := 106) (by simp only [List.map_cons, List.map_nil]; decide)]
  simp [Nat.add_assoc]

/-- The fixed text of an operation, and its fields. -/
theorem DurableOperation.byteLength_stringify (op : DurableOperation) :
    byteLength op.stringify = 185 + byteLength (quote op.id.text)
      + byteLength (stringText op.kind.text) + byteLength (stringText op.state.text)
      + byteLength (number op.reservationLamports) + byteLength (instantText op.createdAt)
      + byteLength (stringText op.day) + byteLength (nullable stringText op.owner)
      + byteLength (stringText op.assetId) + byteLength (nullable digestText op.visitorHash)
      + byteLength (nullable digestText op.ipHash) + byteLength (nullable instantText op.bucket)
      + byteLength (nullable number op.fence)
      + byteLength (nullable SignedAttempt.stringify op.attempt)
      + byteLength (nullable instantText op.submittedAt)
      + byteLength (nullable instantText op.completedAt)
      + byteLength (nullable stringText op.errorCode) := by
  rw [stringify]
  rw [byteLength_struct (n := 185) (by simp only [List.map_cons, List.map_nil]; decide)]
  simp [Nat.add_assoc]

/-- The fixed text of a lease, and its fields. -/
theorem PreparationLease.byteLength_stringify (l : PreparationLease) :
    byteLength l.stringify = 48 + byteLength (quote l.operationId.text)
      + byteLength (stringText l.holder) + byteLength (number l.fence)
      + byteLength (instantText l.expiresAt) := by
  rw [stringify]
  rw [byteLength_struct (n := 48) (by simp only [List.map_cons, List.map_nil]; decide)]
  simp [Nat.add_assoc]

theorem Leases.byteLength_stringify (l : Leases) :
    byteLength l.stringify = 26 + byteLength (nullable PreparationLease.stringify l.faucet)
      + byteLength (nullable PreparationLease.stringify l.observation) := by
  rw [stringify]
  rw [byteLength_struct (n := 26) (by simp only [List.map_cons, List.map_nil]; decide)]
  simp [Nat.add_assoc]

/-- The fixed text of a day, and its fields and tables. -/
theorem DailyQuota.byteLength_stringify (q : DailyQuota) :
    byteLength q.stringify = 42 + byteLength (number q.grants) + byteLength (number q.lamports)
      + byteLength (table Digest.hex number q.visitors)
      + byteLength (table Digest.hex number q.ips) := by
  rw [stringify]
  rw [byteLength_struct (n := 42) (by simp only [List.map_cons, List.map_nil]; decide)]
  simp [Nat.add_assoc]

/-- The fixed text of a ledger, and its fields and tables. -/
theorem HostedDevnetLedger.byteLength_stringify (v : HostedDevnetLedger) :
    byteLength v.stringify = 157 + byteLength (number v.schemaVersion)
      + byteLength (number v.revision) + byteLength (number v.nextFence)
      + byteLength (nullable stringText v.faucetDisabledReason)
      + byteLength (number v.faucetLifetimeLamports)
      + byteLength (number v.observationLifetimeLamports)
      + byteLength (table String.toList DailyQuota.stringify v.daily)
      + byteLength v.leases.stringify
      + byteLength (table OperationId.text DurableOperation.stringify v.operations) := by
  rw [stringify]
  rw [byteLength_struct (n := 157) (by simp only [List.map_cons, List.map_nil]; decide)]
  simp [Nat.add_assoc]

/-! ## Writing -/

/-- `encode` of the store, under the limit of the ledger. -/
def encode (v : HostedDevnetLedger) : Except Failure Text :=
  if byteLength v.stringify > maxLedgerBytes then .error (.store "BLOB_LEDGER_OVERSIZE")
  else .ok v.stringify

/-- A change as it is written: what `mutate` makes of the ledger has to pass `encode`. -/
def Change.write (c : Change) (v : HostedDevnetLedger) : Except Failure HostedDevnetLedger := do
  let next ← c.mutate v
  let _ ← encode next
  return next

/-- The step of `mutate`, whatever it makes of the ledger. -/
def mutates (v : HostedDevnetLedger) (c : Change) : Option HostedDevnetLedger :=
  (c.mutate v).toOption

/-- The step of a write. -/
def writes (v : HostedDevnetLedger) (c : Change) : Option HostedDevnetLedger :=
  (c.write v).toOption

/-- A new observation within the budget is reserved. -/
theorem mutates_reserveObservation {v : HostedDevnetLedger} {assetId : String} {now : Instant}
    (hfresh : v.operations.get? (observationOperationId assetId (observationBucket now)) = none)
    (hbudget : v.observationLifetimeLamports + observationReservationLamports
      ≤ observationLifetimeLamports)
    (hschema : v.schemaVersion = 1) (hrevision : v.revision ≤ maxSafeInteger)
    (hfence : v.nextFence ≤ maxSafeInteger) :
    mutates v (.reserveObservation assetId now) = some { v with
      revision := v.revision + 1
      observationLifetimeLamports := v.observationLifetimeLamports + observationReservationLamports
      operations := v.operations.set (observationOperationId assetId (observationBucket now))
        (HostedDevnetLedger.observationOperation assetId now) } := by
  have happly : (Change.reserveObservation assetId now).apply v = .ok _ :=
    HostedDevnetLedger.reserveObservation_ok hfresh hbudget
  rw [mutates]
  rw [Change.mutate_of_apply happly hschema hrevision hfence]
  rfl

/-- A change whose text fits is written. -/
theorem write_eq_ok {c : Change} {v next : HostedDevnetLedger} (h : c.mutate v = .ok next)
    (hfits : byteLength next.stringify ≤ maxLedgerBytes) : c.write v = .ok next := by
  simp only [Change.write, encode]
  rw [h]
  simp only [bind, Except.bind, gt_iff_lt, Nat.not_lt.mpr hfits, if_false]
  rfl

/-- One whose text does not is refused. -/
theorem write_eq_oversize {c : Change} {v next : HostedDevnetLedger} (h : c.mutate v = .ok next)
    (hover : maxLedgerBytes < byteLength next.stringify) :
    c.write v = .error (.store "BLOB_LEDGER_OVERSIZE") := by
  simp only [Change.write, encode]
  rw [h]
  simp only [bind, Except.bind, gt_iff_lt, hover, if_true]

/-- A run that leads to a ledger over the limit has a first write that is refused. -/
theorem refused_of_oversize {tr : List Change} {v : HostedDevnetLedger}
    (h : Run mutates emptyLedger tr v) (hover : maxLedgerBytes < byteLength v.stringify) :
    ∃ front c back u next, tr = front ++ c :: back ∧ Run writes emptyLedger front u
      ∧ c.mutate u = .ok next ∧ c.write u = .error (.store "BLOB_LEDGER_OVERSIZE") := by
  -- either every write so far went through, or there was a first that did not
  have hcases : (Run writes emptyLedger tr v ∧ byteLength v.stringify ≤ maxLedgerBytes) ∨
      ∃ front c back u next, tr = front ++ c :: back ∧ Run writes emptyLedger front u
        ∧ c.mutate u = .ok next ∧ c.write u = .error (.store "BLOB_LEDGER_OVERSIZE") := by
    clear hover
    induction h with
    | nil => exact .inl ⟨.nil, by decide +kernel⟩
    | @snoc t u tr c hrun hstep ih =>
      have hm : c.mutate t = .ok u := Result.toOption_eq_some.mp hstep
      rcases ih with ⟨hwritten, -⟩ | ⟨front, c', back, t', next, rfl, hrest⟩
      · by_cases hfits : byteLength u.stringify ≤ maxLedgerBytes
        · have hwrite := Result.toOption_eq_some.mpr (write_eq_ok hm hfits)
          exact .inl ⟨.snoc hwritten hwrite, hfits⟩
        · exact .inr ⟨tr, c, [], t, u, rfl, hwritten, hm,
            write_eq_oversize hm (Nat.lt_of_not_le hfits)⟩
      · exact .inr ⟨front, c', back ++ [c], t', next, by simp, hrest⟩
  rcases hcases with ⟨-, hfits⟩ | hrefused
  · omega
  · exact hrefused

end Devnet

end DividendX
