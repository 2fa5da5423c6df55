import DividendX.Devnet.LedgerSize
import DividendX.Lib.Sha256Lanes

/-!
# A ledger that does not fit

One asset whose observation is refreshed in one six-hour window after the other, each refresh
reserved, signed, submitted and confirmed. Nothing is pruned, so after 755 of them, well within the
budget of a thousand, the text of the ledger is longer than the limit and a write is refused.
-/

namespace DividendX

namespace Devnet

open Json HostedDevnetLedger

namespace Refreshes

/-! ## The run -/

/-- The asset. -/
def asset : String := "xstocks-test-kox"

/-- The start of a six-hour window, counted from 18 September 2026. -/
def window (k : Nat) : Instant :=
  ⟨1_789_689_600_000 + 21_600_000 * (k % 1_000 : Nat), by omega⟩

/-- A signed refresh: a transaction of 284 bytes with one signature. -/
def attempt : SignedAttempt :=
  { signature := String.ofList (List.replicate 88 'A')
    blockhash := String.ofList (List.replicate 44 'A')
    lastValidBlockHeight := 420_000_000
    serializedTransactionBase64 := String.ofList (List.replicate 379 'A' ++ ['='])
    preparedAt := "2026-09-18T00:00:00.000Z"
    intent := ((((∅ : Record String String).set "operation" "refreshObservation").set
      "assetPolicy" (String.ofList (List.replicate 44 'A'))).set
      "evidenceDigestHex" (String.ofList (List.replicate 64 'a'))).set
      "validUntil" "1789732800" }

/-- The operation of a window. -/
def operationId (k : Nat) : OperationId :=
  observationOperationId asset (observationBucket (window k))

/-- The lease it is prepared under. -/
def lease (k : Nat) : PreparationLease :=
  { operationId := operationId k
    holder := "00000000-0000-4000-8000-000000000000"
    fence := k + 1
    expiresAt := ⟨1_789_689_600_000 + 21_600_000 * (k % 1_000 : Nat) + 45_000, by omega⟩ }

/-- The changes of one refresh. -/
def refresh (k : Nat) : List Change := [
  .reserveObservation asset (window k),
  .acquire (operationId k) .observation (lease k).holder (window k),
  .persistPrepared (operationId k) (lease k) attempt (window k),
  .release (lease k) (some .submitted) none (window k) (window k),
  .transition (operationId k) .confirmed none (window k)]

/-- The changes of the first `n` refreshes. -/
def history : Nat → List Change
  | 0 => []
  | n + 1 => history n ++ refresh n

/-- An operation after its refresh. -/
def refreshed (k : Nat) : DurableOperation :=
  { observationOperation asset (window k) with
    state := .confirmed, fence := some (k + 1), attempt := some attempt
    submittedAt := some (window k), completedAt := some (window k) }

/-- The operations after the first `n` refreshes. -/
def operations : Nat → Record OperationId DurableOperation
  | 0 => ∅
  | n + 1 => (operations n).set (operationId n) (refreshed n)

/-- The ledger after the first `n` refreshes. -/
def ledger (n : Nat) : HostedDevnetLedger :=
  { emptyLedger with
    revision := 5 * n, nextFence := n, observationLifetimeLamports := 10_000 * n
    operations := operations n }

/-- The operations of the first `n` windows are different. -/
def Distinct (n : Nat) : Prop := ((List.range n).map operationId).Nodup

theorem Distinct.pred {n : Nat} (h : Distinct (n + 1)) : Distinct n := by
  rw [Distinct] at h
  rw [List.range_succ, List.map_append, List.nodup_append] at h
  exact h.1

/-- Then the one after them is new. -/
theorem Distinct.fresh {n : Nat} (h : Distinct (n + 1)) :
    (operations n).get? (operationId n) = none := by
  have hnew : ∀ j < n, operationId n ≠ operationId j := by
    rw [Distinct] at h
    rw [List.range_succ, List.map_append, List.nodup_append] at h
    intro j hj heq
    exact h.2.2 _ (List.mem_map_of_mem (List.mem_range.mpr hj)) _ List.mem_cons_self heq.symm
  have hget : ∀ m ≤ n, (operations m).get? (operationId n) = none := by
    intro m hm
    induction m with
    | zero => rfl
    | succ m ih =>
      rw [operations, Record.get?_set, if_neg (hnew m hm)]
      exact ih (by omega)
  exact hget n (Nat.le_refl n)

/-- The ledger during the refresh after the first `n`. -/
def stage (n revision fence : Nat) (held : Option PreparationLease) (op : DurableOperation) :
    HostedDevnetLedger :=
  { ledger n with
    revision := revision, nextFence := fence, observationLifetimeLamports := 10_000 * (n + 1)
    leases := ⟨none, held⟩, operations := (operations n).set (operationId n) op }

theorem get?_stage (n revision fence : Nat) (held : Option PreparationLease)
    (op : DurableOperation) :
    (stage n revision fence held op).operations.get? (operationId n) = some op := by
  simp [stage]

/-- A change that passes its checks during a refresh is a step of the journal. -/
theorem mutates_stage {n revision fence : Nat} {held : Option PreparationLease}
    {op : DurableOperation} {c : Change} {next v : HostedDevnetLedger}
    (h : c.apply (stage n revision fence held op) = .ok next) (hrevision : revision ≤ 5_000)
    (hfence : fence ≤ 1_000) (heq : { next with revision := next.revision + 1 } = v) :
    mutates (stage n revision fence held op) c = some v := by
  have hmax : 5_000 ≤ maxSafeInteger := by decide
  rw [mutates]
  rw [Change.mutate_of_apply h rfl (hrevision.trans hmax) (hfence.trans (by omega)), heq]
  rfl

/-- One refresh, when its operation is new. -/
theorem run_refresh {n : Nat} (hn : n < 1_000)
    (hfresh : (operations n).get? (operationId n) = none) :
    Run mutates (ledger n) (refresh n) (ledger (n + 1)) := by
  have hlive : (window n).ms < (lease n).expiresAt.ms := by
    change (window n).ms < (window n).ms + 45_000
    omega
  have hexpires : Instant.ofMs? ((window n).ms + preparationLeaseMs) = some (lease n).expiresAt :=
    dif_pos (lease n).expiresAt.valid
  -- the operation as it is reserved, prepared and submitted
  let reserved : DurableOperation := observationOperation asset (window n)
  let prepared : DurableOperation := { reserved with
    state := .prepared, fence := some (n + 1), attempt := some attempt }
  let submitted : DurableOperation := { prepared with
    state := .submitted, submittedAt := some (window n) }
  have hreserve : mutates (ledger n) (.reserveObservation asset (window n))
      = some (stage n (5 * n + 1) n none reserved) := by
    have hbudget : 10_000 * n + 10_000 ≤ 10_000_000 := by omega
    have hmax : 5_000 ≤ maxSafeInteger := by decide
    have hrevision : 5 * n ≤ maxSafeInteger := by omega
    have hfence : n ≤ maxSafeInteger := by omega
    exact mutates_reserveObservation hfresh hbudget rfl hrevision hfence
  have hacquire : mutates (stage n (5 * n + 1) n none reserved)
      (.acquire (operationId n) .observation (lease n).holder (window n))
      = some (stage n (5 * n + 2) (n + 1) (some (lease n)) reserved) := by
    have hfree : ∀ l ∈ (none : Option PreparationLease), l.expiresAt.ms ≤ (window n).ms := by simp
    have happly : (Change.acquire (operationId n) .observation (lease n).holder (window n)).apply
        (stage n (5 * n + 1) n none reserved) = .ok _ :=
      acquire_ok (get?_stage ..) rfl hfree hexpires
    exact mutates_stage happly (by omega) (by omega) rfl
  have hprepare : mutates (stage n (5 * n + 2) (n + 1) (some (lease n)) reserved)
      (.persistPrepared (operationId n) (lease n) attempt (window n))
      = some (stage n (5 * n + 3) (n + 1) (some (lease n)) prepared) := by
    have happly : (Change.persistPrepared (operationId n) (lease n) attempt (window n)).apply
        (stage n (5 * n + 2) (n + 1) (some (lease n)) reserved) = .ok _ :=
      persistPrepared_ok (get?_stage ..) rfl rfl rfl hlive
    apply mutates_stage happly (by omega) (by omega)
    simp only [stage, Record.set_set]
    rfl
  have hsubmit : mutates (stage n (5 * n + 3) (n + 1) (some (lease n)) prepared)
      (.release (lease n) (some .submitted) none (window n) (window n))
      = some (stage n (5 * n + 4) (n + 1) none submitted) := by
    have happly : (Change.release (lease n) (some .submitted) none (window n) (window n)).apply
        (stage n (5 * n + 3) (n + 1) (some (lease n)) prepared) = .ok _ :=
      release_ok (get?_stage ..) rfl rfl rfl hlive
    apply mutates_stage happly (by omega) (by omega)
    simp only [stage, lease, Record.set_set]
    rfl
  have hconfirm : mutates (stage n (5 * n + 4) (n + 1) none submitted)
      (.transition (operationId n) .confirmed none (window n)) = some (ledger (n + 1)) := by
    have happly : (Change.transition (operationId n) .confirmed none (window n)).apply
        (stage n (5 * n + 4) (n + 1) none submitted) = .ok _ :=
      transition_ok (get?_stage ..) rfl rfl (.inr rfl)
    apply mutates_stage happly (by omega) (by omega)
    simp only [stage, Record.set_set]
    rfl
  exact .cons hreserve (.cons hacquire (.cons hprepare (.cons hsubmit (.single hconfirm))))

/-- The first `n` refreshes, when their operations differ. -/
theorem run_history {n : Nat} (hn : n ≤ 1_000) (hdistinct : Distinct n) :
    Run mutates emptyLedger (history n) (ledger n) := by
  induction n with
  | zero => exact .nil
  | succ n ih =>
    apply (ih (by omega) hdistinct.pred).append
    exact run_refresh (by omega) hdistinct.fresh

/-! ## Its length -/

theorem byteLength_replicate (n : Nat) {c : Char} (h : Plain c) :
    byteLength (stringText (String.ofList (List.replicate n c))) = n + 2 := by
  have hplain : ∀ d ∈ List.replicate n c, Plain d := fun d hd => by
    rw [List.eq_of_mem_replicate hd]
    exact h
  rw [stringText]
  rw [String.toList_ofList, byteLength_quote_of_plain hplain, List.length_replicate]

/-- The lengths of the parts of the signed refresh. -/
theorem attempt_lengths : byteLength (stringText attempt.signature) = 90
    ∧ byteLength (stringText attempt.blockhash) = 46
    ∧ byteLength (stringText attempt.serializedTransactionBase64) = 382
    ∧ byteLength (stringText attempt.preparedAt) = 26
    ∧ byteLength (intentText attempt.intent) = 208 := by
  have hA : Plain 'A' := by decide
  have htransaction : ∀ c ∈ List.replicate 379 'A' ++ ['='], Plain c := by
    intro c hc
    rcases List.mem_append.mp hc with hc | hc
    · rw [List.eq_of_mem_replicate hc]
      exact hA
    · rw [List.mem_singleton.mp hc]
      decide
  have hintent : attempt.intent.entries = [("operation", "refreshObservation"),
      ("assetPolicy", String.ofList (List.replicate 44 'A')),
      ("evidenceDigestHex", String.ofList (List.replicate 64 'a')),
        ("validUntil", "1789732800")] := by
    rfl
  refine ⟨byteLength_replicate 88 hA, byteLength_replicate 44 hA, ?_, by decide, ?_⟩
  · change byteLength (quote (String.ofList (List.replicate 379 'A' ++ ['='])).toList) = 382
    rw [String.toList_ofList, byteLength_quote_of_plain htransaction, List.length_append,
      List.length_replicate]
    rfl
  · have hpolicy := byteLength_replicate 44 hA
    have hdigest := byteLength_replicate 64 (by decide : Plain 'a')
    have hkeys : byteLength (quote "operation".toList) = 11
        ∧ byteLength (quote "assetPolicy".toList) = 13
        ∧ byteLength (quote "evidenceDigestHex".toList) = 19
        ∧ byteLength (quote "validUntil".toList) = 12 := by decide
    have hvalues : byteLength (stringText "refreshObservation") = 20
        ∧ byteLength (stringText "1789732800") = 12 := by decide
    rw [intentText, table]
    rw [hintent]
    simp only [List.map_cons, List.map_nil, byteLength_object_cons, membersLength_cons,
      membersLength_nil, byteLength_member, hkeys, hvalues, hpolicy, hdigest]

theorem byteLength_attempt : byteLength attempt.stringify = 867 := by
  obtain ⟨hsignature, hblockhash, htransaction, hprepared, hintent⟩ := attempt_lengths
  have hheight : byteLength (number attempt.lastValidBlockHeight) = 9 := by decide
  rw [SignedAttempt.byteLength_stringify, hsignature, hblockhash, hheight, htransaction, hprepared,
    hintent]

/-- What a refreshed operation takes up in the ledger. -/
theorem le_entryLength_refreshed (k : Nat) :
    1_390 ≤ entryLength OperationId.text DurableOperation.stringify
      (operationId k) (refreshed k) := by
  have hid : byteLength (quote (operationId k).text) = 78 := OperationId.byteLength_text _
  have hkind : byteLength (stringText "observation") = 13 := by decide
  have hstate : byteLength (stringText "confirmed") = 11 := by decide
  have hlamports : byteLength (number 10_000) = 5 := by decide
  have hasset : byteLength (stringText asset) = 18 := by decide
  have hattempt := byteLength_attempt
  have hnull : byteLength ['n', 'u', 'l', 'l'] = 4 := by decide
  have hday := byteLength_utcDay (window k)
  have hwindow := byteLength_instantText (window k)
  have hbucket := byteLength_instantText (observationBucket (window k))
  have hfence := byteLength_number_pos (k + 1)
  rw [entryLength]
  rw [DurableOperation.byteLength_stringify]
  simp only [refreshed, observationOperation, nullable, OperationKind.text, OperationState.text]
  change _ ≤ byteLength (quote (operationId k).text) + 2
    + (185 + byteLength (quote (operationId k).text) + _ + _ + byteLength
      (number 10_000) + _ + _ + _ + _ + _ + _ + _ + _ + _ + _ + _ + _)
  omega

theorem le_total_operations {n : Nat} (hdistinct : Distinct n) :
    1_390 * n ≤ (operations n).total (entryLength OperationId.text DurableOperation.stringify) := by
  induction n with
  | zero => exact Nat.zero_le _
  | succ n ih =>
    have hentry := le_entryLength_refreshed n
    have hrest := ih hdistinct.pred
    rw [operations, Record.total_set_fresh hdistinct.fresh]
    omega

/-- The text of the ledger grows by at least 1,390 bytes with every refresh. -/
theorem le_byteLength_ledger {n : Nat} (hdistinct : Distinct n) :
    1_390 * n ≤ byteLength (ledger n).stringify := by
  have htotal := le_total_operations hdistinct
  have htable := le_byteLength_table OperationId.text DurableOperation.stringify (operations n)
  rw [HostedDevnetLedger.byteLength_stringify]
  change _ ≤ _ + _ + _ + _ + _ + _ + _ + _ + _
    + byteLength (table OperationId.text DurableOperation.stringify (operations n))
  omega

/-! ## Its operations -/

/-- The date of a window. -/
def date (k : Nat) : Int × Nat × Nat := Instant.civil ((window k).ms / 86_400_000)

/-- The hour of a window. -/
def hour (k : Nat) : Nat := ((window k).ms % 86_400_000).toNat / 3_600_000

/-- The byte of the last digit of a number. -/
def digit (n : Nat) : UInt8 := (Char.ofNat (48 + n % 10)).val.toUInt8

theorem toNat_digit (n : Nat) : (digit n).toNat = 48 + n % 10 := by
  have h : ∀ d < 10, (Char.ofNat (48 + d)).val.toUInt8.toNat = 48 + d := by decide
  exact h _ (Nat.mod_lt n (by omega))

theorem ms_window (k : Nat) :
    (window k).ms = 1_789_689_600_000 + 21_600_000 * (k % 1_000 : Nat) := rfl

theorem observationBucket_window (k : Nat) : observationBucket (window k) = window k := by
  have hms : (window k).ms / 21_600_000 * 21_600_000 = (window k).ms := by
    rw [ms_window]
    omega
  rw [observationBucket]
  congr 1

/-- The year has four digits. -/
theorem year_window (k : Nat) : 0 ≤ (date k).1 ∧ (date k).1 ≤ 9_999 := by
  have hdays : 20_714 ≤ (window k).ms / 86_400_000 ∧ (window k).ms / 86_400_000 ≤ 20_964 := by
    rw [ms_window]
    omega
  rw [date, Instant.civil]
  generalize (window k).ms / 86_400_000 = days at hdays ⊢
  dsimp only
  split <;> omega

/-- The characters of a window. -/
theorem isoChars_window (k : Nat) : (window k).isoChars =
    Instant.digits 4 (date k).1.toNat ++ '-' :: Instant.digits 2 (date k).2.1
      ++ '-' :: Instant.digits 2 (date k).2.2 ++ 'T' :: Instant.digits 2 (hour k)
      ++ [':', '0', '0', ':', '0', '0', '.', '0', '0', '0', 'Z'] := by
  have hms : ((window k).ms % 86_400_000).toNat = 21_600_000 * (k % 1_000 % 4) := by
    rw [ms_window]
    omega
  have hminute : ((window k).ms % 86_400_000).toNat / 60_000 % 60 = 0 := by omega
  have hsecond : ((window k).ms % 86_400_000).toNat / 1_000 % 60 = 0 := by omega
  have hmilli : ((window k).ms % 86_400_000).toNat % 1_000 = 0 := by omega
  have hyear : Instant.yearText (date k).1 = Instant.digits 4 (date k).1.toNat :=
    if_pos (year_window k)
  have hzeros : Instant.digits 2 0 = ['0', '0'] ∧ Instant.digits 3 0 = ['0', '0', '0'] := by decide
  rw [Instant.isoChars]
  dsimp only
  change Instant.yearText (date k).1 ++ '-' :: Instant.digits 2 (date k).2.1
      ++ '-' :: Instant.digits 2 (date k).2.2 ++ 'T' :: Instant.digits 2
        (hour k) ++ _ ++ _ ++ _ ++ _ = _
  rw [hyear, hminute, hsecond, hmilli, hzeros.1, hzeros.2]
  simp

/-- The message whose digest is the id of a window. -/
def message (k : Nat) : List UInt8 :=
  ((observationBucket (window k)).toISOString ++ "\x00" ++ asset).toUTF8.toList

/-- Its bytes: date and hour vary, the rest does not. -/
theorem message_eq (k : Nat) : message k =
    [digit ((date k).1.toNat / 10 / 10 / 10), digit ((date k).1.toNat / 10 / 10),
      digit ((date k).1.toNat / 10), digit (date k).1.toNat, 45, digit ((date k).2.1 / 10),
      digit (date k).2.1, 45, digit ((date k).2.2 / 10), digit (date k).2.2,
        84, digit (hour k / 10),
      digit (hour k), 58, 48, 48, 58, 48, 48, 46, 48, 48, 48, 90, 0,
        120, 115, 116, 111, 99, 107, 115,
      45, 116, 101, 115, 116, 45, 107, 111, 120] := by
  have hchars : ((window k).toISOString ++ "\x00" ++ asset).toList
      = (window k).isoChars ++ '\x00' :: "xstocks-test-kox".toList := by
    simp [Instant.toISOString, asset]
  have hascii : ∀ c ∈ ((window k).toISOString ++ "\x00" ++ asset).toList, c.toNat < 128 := by
    intro c hc
    rw [hchars, List.mem_append] at hc
    rcases hc with hc | hc
    · exact Nat.lt_succ_of_lt ((window k).plain_isoChars c hc).2.1
    · rcases List.mem_cons.mp hc with rfl | hc
      · decide
      · exact Nat.lt_succ_of_lt (plain_of_all (by decide) c hc).2.1
  rw [message]
  rw [observationBucket_window, Sha256.bytes_of_ascii hascii, hchars, isoChars_window]
  rfl

open Sha256 in
/-- The words of a message, one function of the window for each. -/
def messageWords : List (Nat → UInt32) := [
  fun k => bigEndian (digit ((date k).1.toNat / 10 / 10 / 10)) (digit ((date k).1.toNat / 10 / 10))
    (digit ((date k).1.toNat / 10)) (digit (date k).1.toNat),
  fun k => bigEndian 45 (digit ((date k).2.1 / 10)) (digit (date k).2.1) 45,
  fun k => bigEndian (digit ((date k).2.2 / 10)) (digit (date k).2.2) 84 (digit (hour k / 10)),
  fun k => bigEndian (digit (hour k)) 58 48 48,
  fun _ => bigEndian 58 48 48 46, fun _ => bigEndian 48 48 48 90, fun _ => bigEndian 0 120 115 116,
  fun _ => bigEndian 111 99 107 115, fun _ => bigEndian 45 116 101 115,
    fun _ => bigEndian 116 45 107 111,
  fun _ => bigEndian 120 128 0 0, fun _ => bigEndian 0 0 0 0, fun _ => bigEndian 0 0 0 0,
  fun _ => bigEndian 0 0 0 0, fun _ => bigEndian 0 0 0 0, fun _ => bigEndian 0 0 1 72]

theorem words_message (k : Nat) :
    Sha256.words (Sha256.pad (message k)) = messageWords.map fun w => w k := by
  have hlength : ((List.range 8).map fun i => UInt8.ofNat ((41 * 8) >>> (8 * (7 - i))))
      = [0, 0, 0, 0, 0, 0, 1, 72] := by decide
  rw [message_eq, Sha256.pad]
  simp only [List.length_cons, List.length_nil, Nat.reduceAdd, hlength,
    Nat.reduceMod, Nat.reduceSub,
    List.replicate_succ, List.replicate_zero, List.cons_append, List.nil_append]
  rfl

/-- The columns of the message words of the first `n` windows, as numbers. -/
def messageColumns (n : Nat) : List Nat :=
  let digit (m : Nat) : Nat := 48 + m % 10
  [ Lanes.pack ((List.range n).map fun k =>
      ((digit ((date k).1.toNat / 10 / 10 / 10) * 256 + digit ((date k).1.toNat / 10 / 10)) * 256
        + digit ((date k).1.toNat / 10)) * 256 + digit (date k).1.toNat),
    Lanes.pack ((List.range n).map fun k =>
      ((45 * 256 + digit ((date k).2.1 / 10)) * 256 + digit (date k).2.1) * 256 + 45),
    Lanes.pack ((List.range n).map fun k =>
      ((digit ((date k).2.2 / 10) * 256 + digit (date k).2.2) * 256 + 84) * 256 + digit
        (hour k / 10)),
    Lanes.pack ((List.range n).map fun k => ((digit (hour k) * 256 + 58) * 256 + 48) * 256 + 48) ]
    ++ [0x3a30302e, 0x3030305a, 0x00787374, 0x6f636b73, 0x2d746573,
      0x742d6b6f, 0x78800000, 0, 0, 0, 0, 328].map fun w => w * Lanes.ones n

theorem columns_message (n : Nat) :
    messageWords.map (Sha256.column (List.range n)) = messageColumns n := by
  simp only [messageWords, messageColumns, List.map_cons, List.map_nil, Sha256.column,
    Sha256.toNat_bigEndian, toNat_digit, Lanes.pack_const, List.length_range, List.cons_append,
    List.nil_append]
  rfl

/-- Two windows with the same operation have the same first word in their digests. -/
theorem first_word_of_operationId {j k : Nat} (h : operationId j = operationId k) :
    (Sha256.block Sha256.initial (messageWords.map fun w => w j)).a
      = (Sha256.block Sha256.initial (messageWords.map fun w => w k)).a := by
  have hhash : Sha256.hash (message j) = Sha256.hash (message k) := OperationId.observation.inj h
  rw [← words_message, ← words_message]
  apply Sha256.first_word_of_hash hhash
  · rw [words_message]
    rfl
  · rw [words_message]
    rfl

/-- The operations of windows are different when the first words of their digests are. -/
theorem distinct_of_words {m n : Nat} (h : Lanes.distinct m 0
    (Lanes.unpack n (Sha256.laneDigest n (messageColumns n))) = true) : Distinct n := by
  let first (k : Nat) : UInt32 := (Sha256.block Sha256.initial (messageWords.map fun w => w k)).a
  have hwords : Sha256.column (List.range n) first = Sha256.laneDigest n (messageColumns n) := by
    have hblock := Sha256.column_block (List.range n) messageWords
    rw [columns_message, List.length_range] at hblock
    exact hblock
  have hunpack : Lanes.unpack n (Sha256.column (List.range n) first)
      = (List.range n).map fun k => (first k).toNat := by
    have hpack := Lanes.unpack_pack (fun k => Sha256.toNat_lt_lane (first k)) (List.range n)
    rw [List.length_range] at hpack
    exact hpack
  rw [← hwords, hunpack] at h
  have hnodup := (Lanes.nodup_of_distinct h).1
  rw [Distinct]
  rw [List.Nodup, List.pairwise_map] at hnodup ⊢
  apply hnodup.imp
  intro j k hne heq
  exact hne (congrArg UInt32.toNat (first_word_of_operationId heq))

/-- The operations of 755 windows are different. -/
theorem distinct : Distinct 755 := by
  -- the modulus is one under which the first words happen to differ
  apply distinct_of_words (m := 60_531)
  decide +kernel

/-- Every change of the history is made as the service makes it, with data of its format. -/
theorem formatted_history (n : Nat) : ∀ c ∈ history n, c.Permitted ∧ c.Formatted := by
  have hattempt : attempt.Formatted := by
    obtain ⟨hsignature, hblockhash, htransaction, hprepared, hintent⟩ := attempt_lengths
    constructor
    · rw [hsignature]
      decide
    · rw [hblockhash]
      decide
    · decide
    · rw [htransaction]
      decide
    · rw [hprepared]
      decide
    · rw [hintent]
      decide
  have hholder : ∀ k, byteLength (stringText (lease k).holder) ≤ holderBytes := by
    intro k
    change byteLength (stringText "00000000-0000-4000-8000-000000000000") ≤ 38
    decide
  induction n with
  | zero => simp [history]
  | succ n ih =>
    intro c hc
    rcases List.mem_append.mp hc with hc | hc
    · exact ih c hc
    · simp only [refresh, List.mem_cons, List.not_mem_nil, or_false] at hc
      rcases hc with rfl | rfl | rfl | rfl | rfl
      · exact ⟨trivial, trivial⟩
      · exact ⟨trivial, hholder n⟩
      · exact ⟨trivial, hattempt⟩
      · exact ⟨.inl rfl, fun e he => by cases he⟩
      · exact ⟨trivial, fun e he => by cases he⟩

end Refreshes

open Refreshes in
/-- **The budgets do not keep the ledger within its limit.** After 755 refreshes of one asset, each
with a transaction of 284 bytes and all within the budgets, the text of the ledger is longer than
the limit; on the way there a write that `mutate` allows is refused for its size. -/
theorem ledger_overflows : ∃ v, Run mutates emptyLedger (history 755) v
    ∧ (∀ c ∈ history 755, c.Permitted ∧ c.Formatted)
    ∧ v.faucetLifetimeLamports ≤ faucetLifetimeLamports
    ∧ v.observationLifetimeLamports ≤ observationLifetimeLamports
    ∧ maxLedgerBytes < byteLength v.stringify
    ∧ ∃ front c back u next, history 755 = front ++ c :: back ∧ Run writes emptyLedger front u
      ∧ c.mutate u = .ok next ∧ c.write u = .error (.store "BLOB_LEDGER_OVERSIZE") := by
  have hrun := run_history (by omega) distinct
  have hsize : maxLedgerBytes < byteLength (ledger 755).stringify :=
    Nat.lt_of_lt_of_le (by decide) (le_byteLength_ledger distinct)
  exact ⟨ledger 755, hrun, formatted_history 755, by decide, by decide, hsize,
    refused_of_oversize hrun hsize⟩

end Devnet

end DividendX
