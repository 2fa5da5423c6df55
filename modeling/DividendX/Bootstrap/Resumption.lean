import DividendX.Bootstrap.Transactions
import Mathlib.Data.List.ModifyLast

/-!
# What a resumable step promises

One step that may not be repeated, over every sequence of calls, crashes and restarts. The attempts
on disk are those in memory but perhaps for the last (`Kept`), and all but the last have failed on
the chain: a new attempt is kept only once the one before it can no longer succeed. So the
transactions sent for the step are attempts on disk, and at most one of them ever succeeds.
-/

namespace DividendX

namespace Bootstrap

open Async

/-! ## The attempts of a step -/

/-- An attempt, but for the time it was sent. -/
def StoredAttempt.unstamped (a : StoredAttempt) : StoredAttempt := { a with submittedAt := none }

@[simp] theorem unstamped_raw (a : StoredAttempt) : a.unstamped.raw = a.raw := rfl

namespace PrivateRuntimeState

/-- The attempts of a step, but for the times they were sent. -/
def kept (state : PrivateRuntimeState) (name : String) : List StoredAttempt :=
  (state.attempts name).map StoredAttempt.unstamped

variable {state state' : PrivateRuntimeState} {name other : String} {attempt : StoredAttempt}

/-- What is written for a step comes after its attempts. -/
theorem kept_push (h : state.push name attempt = some state') :
    state'.kept name = state.kept name ++ [attempt.unstamped] := by
  simp only [push, Option.ite_none_left_eq_some, Option.some.injEq] at h
  obtain ⟨-, rfl⟩ := h
  simp [kept, attempts]

/-- The attempts of the other steps stay. -/
theorem kept_push_of_ne (h : state.push other attempt = some state') (hne : name ≠ other) :
    state'.kept name = state.kept name := by
  simp only [push, Option.ite_none_left_eq_some, Option.some.injEq] at h
  obtain ⟨-, rfl⟩ := h
  simp [kept, attempts, hne]

theorem map_modifyLast {α β : Type} {f : α → α} {g : α → β} (h : ∀ a, g (f a) = g a) (l : List α) :
    (l.modifyLast f).map g = l.map g := by
  rcases List.eq_nil_or_concat l with rfl | ⟨l, a, rfl⟩
  · rfl
  · rw [List.concat_eq_append, List.modifyLast_concat, List.map_append,
      List.map_append, List.map_singleton, List.map_singleton, h]

/-- The time stamp is all that changes. -/
@[simp] theorem kept_stamp (date : String) (keep : Bool) :
    (state.stamp other date keep).kept name = state.kept name := by
  by_cases hname : name = other
  · subst hname
    simp only [kept, stamp, attempts, Record.get?_set, if_true, Option.getD_some]
    refine map_modifyLast (g := StoredAttempt.unstamped) ?_ _
    exact fun _ => rfl
  · simp [kept, stamp, attempts, hname]

theorem map_raw_kept : (state.kept name).map StoredAttempt.raw
    = (state.attempts name).map StoredAttempt.raw := by
  simp [kept, Function.comp_def]

end PrivateRuntimeState

/-! ## Signatures -/

/-- No digit is lost. -/
theorem addByte_ne_nil (digits : List Nat) (byte : Nat) (h : digits ≠ []) :
    addByte digits byte ≠ [] := by
  cases digits with
  | nil => exact absurd rfl h
  | cons digit digits => exact List.cons_ne_nil _ _

/-- Bytes have a text. -/
theorem base58Encode_ne_empty {input : List UInt8} (h : input ≠ []) : base58Encode input ≠ "" := by
  have hdigits : ∀ (l : List UInt8) (digits : List Nat), digits ≠ [] →
      l.foldl (fun digits byte => addByte digits byte.toNat) digits ≠ [] := by
    intro l
    induction l with
    | nil => exact fun digits hne => hne
    | cons byte l ih => exact fun digits hne => ih _ (addByte_ne_nil digits _ hne)
  have hne := hdigits input [0] (by simp)
  rw [base58Encode, if_neg h]
  intro hempty
  have hlist := congrArg String.toList hempty
  simp [hne] at hlist

/-- A new attempt is known by the signature that is kept with it. -/
theorem signature_prepareAttempt (wire : WireFormat) (latest : LatestBlockhash)
    (signed : VersionedTransaction) (date : String) :
    (prepareAttempt wire latest signed date).signature = wire.signatureOf
      (prepareAttempt wire latest signed date).raw := by
  simp [prepareAttempt, StoredAttempt.raw, Base64.decode_encode, wire.signatureOf_serialize]

/-- What is kept of a transaction are its bytes. -/
theorem raw_prepareAttempt (wire : WireFormat) (latest : LatestBlockhash)
    (signed : VersionedTransaction) (date : String) :
    (prepareAttempt wire latest signed date).raw = wire.serialize signed := by
  simp [prepareAttempt, StoredAttempt.raw, Base64.decode_encode]

/-- An attempt has a signature: that of its payer, in base 58. -/
theorem signature_prepareAttempt_ne (wire : WireFormat) (latest : LatestBlockhash)
    (signed : VersionedTransaction) (date : String) :
    (prepareAttempt wire latest signed date).signature ≠ "" := by
  refine base58Encode_ne_empty fun hnil => ?_
  have hlength := signed.payer.toList_length
  rw [hnil] at hlength
  cases hlength

/-! ## The contract -/

/-- What holds of the step `name` at every moment. -/
structure Kept (wire : WireFormat) (name : String) (w : World) : Prop where
  /-- the disk has what memory has, but perhaps the last -/
  onDisk : w.disk.kept name <+: w.memory.kept name
  signed : ∀ a ∈ w.memory.kept name, a.signature = wire.signatureOf a.raw ∧ a.signature ≠ ""
  settled : ∀ a ∈ (w.memory.kept name).dropLast, w.landed a.signature = some false
  sent : ∀ raw, (name, raw) ∈ w.sent → ∃ a ∈ w.disk.kept name, a.raw = raw

/-- When a call may be made: a new attempt is kept once all before it have failed, and what is sent
is the last attempt on disk. -/
def may (wire : WireFormat) (name : String) : Call → World → Prop
  | .push other attempt, w => other = name →
      (∀ a ∈ w.memory.kept name, w.landed a.signature = some false)
        ∧ attempt.signature = wire.signatureOf attempt.raw ∧ attempt.signature ≠ ""
  | .sendRawTransaction other raw, w => other = name →
      (w.disk.kept name).getLast?.map StoredAttempt.raw = some raw
  | _, _ => True

/-- The chain goes on: nothing else changes, and what was executed stays so. -/
def Goes (w w' : World) : Prop :=
  w'.memory = w.memory ∧ w'.disk = w.disk ∧ w'.sent = w.sent
    ∧ ∀ signature b, w.landed signature = some b → w'.landed signature = some b

theorem Goes.refl (w : World) : Goes w w := ⟨rfl, rfl, rfl, fun _ _ h => h⟩

theorem Goes.trans {w w' w'' : World} (h : Goes w w') (h' : Goes w' w'') : Goes w w'' :=
  ⟨h'.1.trans h.1, h'.2.1.trans h.2.1, h'.2.2.1.trans h.2.2.1,
    fun s b hb => h'.2.2.2 s b (h.2.2.2 s b hb)⟩

/-- What happens without the process leaves disk, memory and sends, and undoes no outcome. -/
theorem Drifts.goes {wire : WireFormat} {d : Drift} {w w' : World} (h : Drifts wire d w w') :
    Goes w w' := by
  cases h with
  | @lands _ _ raw succeeds _ hnone _ =>
    refine ⟨rfl, rfl, rfl, fun signature b hb => ?_⟩
    have hne : signature ≠ wire.signatureOf raw := by
      rintro rfl
      rw [hnone] at hb
      cases hb
    exact (Function.update_of_ne hne _ _).trans hb
  | block => exact ⟨rfl, rfl, rfl, fun _ _ h => h⟩

/-- So the attempts stay as they are kept. -/
theorem Kept.goes {wire : WireFormat} {name : String} {w w' : World} (h : Kept wire name w)
    (hgoes : Goes w w') : Kept wire name w' := by
  obtain ⟨hmemory, hdisk, hsent, hlanded⟩ := hgoes
  refine ⟨?_, ?_, ?_, ?_⟩
  · rw [hmemory, hdisk]
    exact h.onDisk
  · rw [hmemory]
    exact h.signed
  · rw [hmemory]
    exact fun a ha => hlanded _ _ (h.settled a ha)
  · rw [hdisk, hsent]
    exact h.sent

/-- **An allowed call** keeps them so. -/
theorem Kept.answered {wire : WireFormat} {name : String} {c : Call} {w w' : World} {x : Answer c}
    (h : Kept wire name w) (hmay : may wire name c w) (hx : Answers c w x w') :
    Kept wire name w' := by
  cases hx with
  | check => exact h
  | lastAttempt => exact h
  | getSignatureStatuses => exact h
  | getBlockHeight => exact h
  | getLatestBlockhash => exact h
  | simulateTransaction => exact h
  | initialAdminLamports => exact h
  | now => exact h
  | pushFails => exact h
  | writeFails => exact h
  | confirmTransaction => exact h
  | @push _ other attempt memory hpush =>
    -- An attempt of another step leaves those of this one alone.
    by_cases hname : other = name
    · subst hname
      obtain ⟨hfailed, hsigned⟩ := hmay rfl
      have hkept : memory.kept other = w.memory.kept other ++ [attempt.unstamped] :=
        PrivateRuntimeState.kept_push hpush
      refine ⟨?_, ?_, ?_, h.sent⟩
      · show w.disk.kept other <+: memory.kept other
        rw [hkept]
        exact h.onDisk.trans (List.prefix_append _ _)
      · show ∀ a ∈ memory.kept other, _
        rw [hkept]
        intro a ha
        rcases List.mem_append.mp ha with ha | ha
        · exact h.signed a ha
        · rw [List.mem_singleton.mp ha]
          exact hsigned
      · -- all that was there before has failed
        show ∀ a ∈ (memory.kept other).dropLast, _
        rw [hkept, List.dropLast_concat]
        exact hfailed
    · have hkept : memory.kept name = w.memory.kept name :=
        PrivateRuntimeState.kept_push_of_ne hpush (Ne.symm hname)
      refine ⟨?_, ?_, ?_, h.sent⟩
      · exact hkept.symm ▸ h.onDisk
      · exact hkept.symm ▸ h.signed
      · exact hkept.symm ▸ h.settled
  | @stamp _ other date keep =>
    have hkept : (w.memory.stamp other date keep).kept name = w.memory.kept name :=
      PrivateRuntimeState.kept_stamp date keep
    refine ⟨?_, ?_, ?_, h.sent⟩
    · exact hkept.symm ▸ h.onDisk
    · exact hkept.symm ▸ h.signed
    · exact hkept.symm ▸ h.settled
  | write =>
    refine ⟨List.prefix_refl _, h.signed, h.settled, fun raw hraw => ?_⟩
    obtain ⟨a, ha, hsame⟩ := h.sent raw hraw
    exact ⟨a, h.onDisk.subset ha, hsame⟩
  | @send _ other raw _ =>
    refine ⟨h.onDisk, h.signed, h.settled, fun raw' hraw => ?_⟩
    rcases List.mem_append.mp hraw with hraw | hraw
    · exact h.sent raw' hraw
    · simp only [List.mem_singleton, Prod.mk.injEq] at hraw
      obtain ⟨rfl, rfl⟩ := hraw
      obtain ⟨a, hlast, hsame⟩ := Option.map_eq_some_iff.mp (hmay rfl)
      exact ⟨a, List.mem_of_getLast? hlast, hsame⟩

/-- All but the last, of the shorter list first. -/
theorem dropLast_prefix_dropLast {α : Type} {l₁ l₂ : List α}
    (h : l₁ <+: l₂) : l₁.dropLast <+: l₂.dropLast := by
  obtain ⟨t, rfl⟩ := h
  cases t with
  | nil => rw [List.append_nil]
  | cons a t =>
    rw [List.dropLast_append_of_ne_nil (List.cons_ne_nil a t)]
    exact (List.dropLast_prefix l₁).trans (List.prefix_append _ _)

/-- What is on disk when memory is lost. -/
theorem Kept.restarted {wire : WireFormat} {name : String} {w : World} (h : Kept wire name w) :
    Kept wire name (restart w) :=
  { onDisk := List.prefix_refl _
    signed := fun a ha => h.signed a (h.onDisk.subset ha)
    settled := fun a ha => h.settled a ((dropLast_prefix_dropLast h.onDisk).subset ha)
    sent := h.sent }

/-- **The condition.** A status of one of the attempts of the step that carries an error is one at a
final level, and the step is taken up only with all its attempts on disk. -/
def fair (name : String) : (c : Call) → World → Answer c → Prop
  | .getSignatureStatuses signature, w, x =>
    (∃ a ∈ w.memory.attempts name, a.signature = signature) →
      ∀ status, x = .ok (some status) → status.failed = true → status.final = true
  | .lastAttempt other, w, _ => other = name → w.memory.kept name = w.disk.kept name
  | _, _, _ => True

/-- What a resumable step owes to one that may not be repeated. -/
def contract (name : String) (wire : WireFormat) :
    Contract ((machine name wire).restrict (fair name)) restart where
  inv := Kept wire name
  may := may wire name
  stable := Goes
  refl := Goes.refl
  trans := Goes.trans
  answered h hmay hx := h.answered hmay hx.2
  drifted h hd := ⟨h.goes (Drifts.goes hd), Drifts.goes hd⟩
  restarted := Kept.restarted

/-! ## The functions -/

section Functions

variable {name : String} {wire : WireFormat} {step : StepCall} {previous : StoredAttempt}
  {w w' : World} {P : World → Prop} {α : Type}

/-- Every attempt of the step has failed. -/
def AllFailed (name : String) (w : World) : Prop := ∀ a ∈ w.memory.kept name,
  w.landed a.signature = some false

/-- What has failed stays failed. -/
theorem AllFailed.goes (h : AllFailed name w) (hgoes : Goes w w') : AllFailed name w' := by
  obtain ⟨hmemory, -, -, hlanded⟩ := hgoes
  intro a ha
  rw [hmemory] at ha
  exact hlanded _ _ (h a ha)

/-- The attempts are on disk, and the last of them is known. -/
structure Known (name : String) (previous : StoredAttempt) (w : World) : Prop where
  onDisk : w.disk.kept name = w.memory.kept name
  last : (w.memory.kept name).getLast? = some previous.unstamped

/-- What is known of the previous attempt stays known. -/
theorem Known.goes (h : Known name previous w) (hgoes : Goes w w') : Known name previous w' := by
  obtain ⟨hmemory, hdisk, -, -⟩ := hgoes
  constructor
  · rw [hmemory, hdisk]
    exact h.onDisk
  · rw [hmemory]
    exact h.last

/-- Once the last attempt has failed, all have. -/
theorem Known.allFailed (h : Known name previous w) (hkept : Kept wire name w)
    (hfailed : w.landed previous.signature = some false) : AllFailed name w := by
  intro a ha
  obtain ⟨l, hl⟩ := List.getLast?_eq_some_iff.mp h.last
  have hsettled := hkept.settled
  rw [hl] at ha hsettled
  rw [List.dropLast_concat] at hsettled
  rcases List.mem_append.mp ha with ha | ha
  · exact hsettled a ha
  · rw [List.mem_singleton.mp ha]
    exact hfailed

/-- A call after which nothing has to be known. -/
theorem free {c : Call} {g : Answer c → Except Failure α} (hmay : ∀ w, may wire name c w) :
    (contract name wire).Gives (fun _ _ => True) (call c g) w :=
  Contract.Gives.call fun w' _ _ => ⟨hmay w', fun _ _ _ _ _ _ _ _ => trivial⟩

/-- A call that may always be made, of which nothing is needed. -/
theorem freeAsk {c : Call} (hmay : ∀ w, may wire name c w) :
    (contract name wire).Gives (fun _ _ => True) (ask c : Resumable (Answer c)) w :=
  Contract.Gives.ask fun w' _ _ => ⟨hmay w', fun _ _ _ _ _ _ => trivial⟩

/-- A call that only reads keeps what the chain keeps. -/
theorem reads {c : Call} {g : Answer c → Except Failure α}
    (hP : ∀ {w w'}, P w → Goes w w' → P w') (h : P w)
    (hmay : ∀ w, may wire name c w)
    (hreads : ∀ {w x w'}, Answers c w x w' → w' = w) :
    (contract name wire).Gives (fun _ => P) (call c g) w := by
  refine Contract.Gives.call fun w' hgoes _ => ⟨hmay w', ?_⟩
  rintro x w'' ⟨-, hx⟩ a - w₃ hgoes' -
  obtain rfl := hreads hx
  exact hP (hP h hgoes) hgoes'

/-- `check` keeps what it found. -/
theorem checks (hP : ∀ {w w'}, P w → Goes w w' → P w') (h : P w) :
    (contract name wire).Gives (fun _ => P) (call .check id : Resumable Bool) w :=
  reads hP h (fun _ => trivial) fun hx => by cases hx; rfl

/-- What does not await keeps it too. -/
theorem stays {x : Except Failure α} (hP : ∀ {w w'}, P w → Goes w w' → P w') (h : P w) :
    (contract name wire).Gives (fun a w => x = .ok a ∧ P w) (sync x) w :=
  Contract.Gives.sync fun _ _ hx hgoes _ => ⟨hx, hP h hgoes⟩

/-- `invariant` goes on only if its condition holds. -/
theorem invariant_gives {condition : Bool} {code message : String}
    (hP : ∀ {w w'}, P w → Goes w w' → P w')
    (h : P w) : (contract name wire).Gives (fun _ w => condition = true ∧ P w)
      (invariant condition code message) w := by
  refine (stays hP h).mono fun _ w' _ hx => ⟨?_, hx.2⟩
  by_contra hcondition
  rw [if_neg hcondition] at hx
  cases hx.1

/-- To confirm a step only questions are asked. -/
theorem confirmStep_gives (signature blockhash : String) (lastValidBlockHeight : Nat) :
    (contract name wire).Gives (fun _ _ => True)
      (confirmStep step signature blockhash lastValidBlockHeight) w := by
  refine Contract.Gives.bind (free fun _ => trivial) fun err w₁ _ _ => ?_
  refine (invariant_gives (P := fun _ => True) (fun _ _ => trivial) trivial).bind fun _ w₂ _ _ => ?_
  refine Contract.Gives.bind (free fun _ => trivial) fun reached w₃ _ _ => ?_
  exact (invariant_gives (P := fun _ => True) (fun _ _ => trivial) trivial).mono fun _ _ _ _ =>
    trivial

/-- What is known when an attempt was reconciled: it counts as done, or a new one may be signed. -/
def Reconciled (name : String) (step : StepCall) (r : Option String) (w : World) : Prop :=
  step.name = name → r.any (· ≠ "") = true ∨ AllFailed name w

theorem Reconciled.done {signature : String} (h : step.name = name → signature ≠ "") :
    Reconciled name step (some signature) w := fun hname => .inl (by simpa using h hname)

/-- A confirmed attempt of a step that may not be repeated is the last. -/
theorem reconcileConfirmed_gives {message : String}
    (honce : step.name = name → step.repeatableAfterConfirmed = false)
    (hsignature : step.name = name → previous.signature ≠ "") :
    (contract name wire).Gives (Reconciled name step)
      (reconcileConfirmed step previous message) w := by
  refine Contract.Gives.bind (free fun _ => trivial) fun reached w₁ _ _ =>
    .ite (fun _ => ?_) fun _ => ?_
  · exact Contract.Gives.pure fun _ _ _ => Reconciled.done hsignature
  · refine (invariant_gives (P := fun _ => True) (fun _ _ => trivial) trivial).bind
      fun _ w₂ _ hrepeat => ?_
    refine Contract.Gives.pure fun _ _ _ hname => ?_
    rw [honce hname] at hrepeat
    exact absurd hrepeat.1 Bool.false_ne_true

/-- A failed status has an error. -/
theorem isNone_err_of_failed {status : SignatureStatus} (h : status.failed = true) :
    status.err.isNone = false := by
  obtain ⟨err, level⟩ := status
  cases err with
  | none => cases h
  | some err => rfl

/-- An error tells that the attempt has failed for good. -/
theorem getSignatureStatuses_gives (h : step.name = name → Known name previous w) :
    (contract name wire).Gives
      (fun (status : Option SignatureStatus) w => (step.name = name → Known name previous w)
        ∧ (status.any SignatureStatus.failed = true → step.name = name → AllFailed name w))
      (call (.getSignatureStatuses previous.signature) id : Resumable (Option SignatureStatus))
        w := by
  refine Contract.Gives.call fun w' hgoes hkept => ⟨trivial, ?_⟩
  rintro x w'' ⟨hfair, hx⟩ status hok w₃ hgoes' -
  cases hx with
  | getSignatureStatuses htruthful =>
    change x = .ok status at hok
    refine ⟨fun hname => ((h hname).goes hgoes).goes hgoes', fun hfailed hname => ?_⟩
    obtain ⟨status, rfl, hfailed⟩ := (Option.any_eq_true _ _).mp hfailed
    have hknown := (h hname).goes hgoes
    have hmem : ∃ a ∈ w'.memory.attempts name, a.signature = previous.signature := by
      obtain ⟨a, ha, hsame⟩ := List.mem_map.mp (List.mem_of_getLast? hknown.last)
      have hsignature := congrArg StoredAttempt.signature hsame
      exact ⟨a, ha, hsignature⟩
    have hlanded := htruthful status hok (hfair hmem status hok hfailed)
    rw [isNone_err_of_failed hfailed] at hlanded
    exact (hknown.allFailed hkept hlanded).goes hgoes'

/-- The last status decides once the block height has passed. -/
theorem reconcileExpired_gives (honce : step.name = name → step.repeatableAfterConfirmed = false)
    (hsignature : step.name = name → previous.signature ≠ "")
    (h : step.name = name → Known name previous w) :
    (contract name wire).Gives (Reconciled name step) (reconcileExpired step previous) w := by
  refine (getSignatureStatuses_gives h).bind fun status w₁ _ hstatus =>
    .ite (fun hfailed => ?_) fun _ => ?_
  · exact Contract.Gives.pure fun _ hgoes _ hname => .inr ((hstatus.2 hfailed hname).goes hgoes)
  · exact .ite (fun _ => reconcileConfirmed_gives honce hsignature) fun _ => Contract.Gives.throw

/-- What is sent again is what is on disk. -/
theorem resend_gives (hsignature : step.name = name → previous.signature ≠ "")
    (h : step.name = name → Known name previous w) :
    (contract name wire).Gives (Reconciled name step) (resend step previous) w := by
  have hsend : (contract name wire).Gives (fun _ _ => True)
      (call (.sendRawTransaction step.name previous.raw) id : Resumable String) w := by
    refine Contract.Gives.call fun w' hgoes _ => ⟨fun hname => ?_, fun _ _ _ _ _ _ _ _ => trivial⟩
    have hknown := (h hname).goes hgoes
    rw [hknown.onDisk, hknown.last]
    rfl
  refine hsend.bind fun returned w₁ _ _ => ?_
  refine (invariant_gives (P := fun _ => True) (fun _ _ => trivial) trivial).bind fun _ w₂ _ _ => ?_
  refine Contract.Gives.bind (freeAsk fun _ => trivial) fun date w₃ _ _ => ?_
  refine Contract.Gives.bind (freeAsk fun _ => trivial) fun _ w₄ _ _ => ?_
  refine Contract.Gives.bind (free fun _ => trivial) fun _ w₅ _ _ => ?_
  refine (confirmStep_gives _ _ _).bind fun _ w₆ _ _ => ?_
  exact Contract.Gives.pure fun _ _ _ => Reconciled.done hsignature

/-- The first status decides, or the bytes are sent again. -/
theorem reconcileAttempt_gives (honce : step.name = name → step.repeatableAfterConfirmed = false)
    (hsignature : step.name = name → previous.signature ≠ "")
    (h : step.name = name → Known name previous w) :
    (contract name wire).Gives (Reconciled name step) (reconcileAttempt step previous) w := by
  refine (getSignatureStatuses_gives h).bind fun status w₁ _ hstatus =>
    .ite (fun hfailed => ?_) fun _ => ?_
  · exact Contract.Gives.pure fun _ hgoes _ hname => .inr ((hstatus.2 hfailed hname).goes hgoes)
  refine .ite (fun _ => reconcileConfirmed_gives honce hsignature) fun _ => ?_
  refine Contract.Gives.bind (reads (P := fun w => step.name = name → Known name previous w)
    (fun hP hgoes hname => (hP hname).goes hgoes) hstatus.1 (fun _ => trivial) fun hx => by
      cases hx; rfl)
    fun blockHeight w₂ _ hknown => ?_
  exact .ite (fun _ => reconcileExpired_gives honce hsignature hknown) fun _ =>
    resend_gives hsignature hknown

/-- Of an attempt that is kept: it succeeded, or all attempts have failed. -/
theorem reconcilePersistedAttempt_gives
    (honce : step.name = name → step.repeatableAfterConfirmed = false) :
    (contract name wire).Gives (Reconciled name step) (reconcilePersistedAttempt step) w := by
  have hlast : (contract name wire).Gives
      (fun (last : Option StoredAttempt) w => step.name = name →
        (last = none → AllFailed name w) ∧ ∀ previous, last = some previous →
          Known name previous w ∧ previous.signature ≠ "")
      (ask (Call.lastAttempt step.name) : Resumable (Option StoredAttempt)) w := by
    refine Contract.Gives.ask fun w' _ hkept => ⟨trivial, ?_⟩
    rintro last w'' ⟨hfair, hx⟩ w₃ hgoes - hname
    cases hx with
    | lastAttempt =>
      subst hname
      have hkeptLast : (w'.memory.kept step.name).getLast?
          = (w'.memory.attempts step.name).getLast?.map StoredAttempt.unstamped := List.getLast?_map
      refine ⟨fun hnone => ?_, fun previous hsome => ?_⟩
      · rw [hnone, Option.map_none, List.getLast?_eq_none_iff] at hkeptLast
        refine AllFailed.goes (fun a ha => ?_) hgoes
        rw [hkeptLast] at ha
        cases ha
      · rw [hsome] at hkeptLast
        have hmem := List.mem_of_getLast? hkeptLast
        exact ⟨Known.goes ⟨(hfair rfl).symm, hkeptLast⟩ hgoes, (hkept.signed _ hmem).2⟩
  refine hlast.bind fun last w₁ _ hknown => ?_
  cases last with
  | none =>
    exact Contract.Gives.pure fun _ hgoes _ hname => .inr (((hknown hname).1 rfl).goes hgoes)
  | some previous =>
    exact reconcileAttempt_gives honce (fun hname => ((hknown hname).2 previous rfl).2)
      fun hname => ((hknown hname).2 previous rfl).1

/-- Reading what the payer had writes it at most. -/
theorem initialLamports_gives (hP : ∀ {w w'}, P w → Goes w w' → P w') (h : P w) :
    (contract name wire).Gives (fun _ => P) (initialLamports step) w := by
  rw [initialLamports]
  cases step.budget with
  | some budget => exact Contract.Gives.pure fun _ hgoes _ => hP h hgoes
  | none =>
    have hask : (contract name wire).Gives (fun _ => P)
        (ask Call.initialAdminLamports : Resumable (Option String)) w := by
      refine Contract.Gives.ask fun w' hgoes _ => ⟨trivial, ?_⟩
      rintro x w'' ⟨-, hx⟩ w₃ hgoes' -
      cases hx with
      | initialAdminLamports => exact hP (hP h hgoes) hgoes'
    exact hask.bind fun _ w₁ _ h₁ => (stays hP h₁).mono fun _ _ _ hx => hx.2

/-- The simulation only asks. -/
theorem simulateWithinBudget_gives {signed : VersionedTransaction}
    (hP : ∀ {w w'}, P w → Goes w w' → P w')
    (h : P w) : (contract name wire).Gives (fun _ => P) (simulateWithinBudget step signed) w := by
  refine Contract.Gives.bind (reads hP h (fun _ => trivial) fun hx => by cases hx; rfl)
    fun simulation w₁ _ h₁ => ?_
  refine (invariant_gives hP h₁).bind fun _ w₂ _ h₂ => ?_
  have hprojected : (contract name wire).Gives (fun _ => P) (projectedLamports simulation) w₂ := by
    rw [projectedLamports]
    cases simulation.lamports with
    | some lamports =>
      exact (invariant_gives hP h₂.2).bind fun _ w₃ _ h₃ => Contract.Gives.pure fun _ hgoes _ =>
        hP h₃.2 hgoes
    | none => exact Contract.Gives.throw
  refine hprojected.bind fun projected w₃ _ h₃ => ?_
  refine (initialLamports_gives hP h₃).bind fun initial w₄ _ h₄ => ?_
  refine (invariant_gives hP h₄).bind fun _ w₅ _ h₅ => ?_
  exact (invariant_gives hP h₅.2).mono fun _ _ _ hx => hx.2

/-- A new attempt is kept only where all before it have failed, and sent only once it is on disk. -/
theorem submit_gives {latest : LatestBlockhash} {signed : VersionedTransaction}
    (h : step.name = name → AllFailed name w) :
    (contract name wire).Gives (fun _ _ => True) (submit wire step latest signed) w := by
  let attempt := prepareAttempt wire latest signed
  have hnow : (contract name wire).Gives (fun _ w => step.name = name → AllFailed name w)
      (ask Call.now : Resumable String) w := by
    refine Contract.Gives.ask fun w' hgoes _ => ⟨trivial, ?_⟩
    rintro date w'' ⟨-, hx⟩ w₃ hgoes' - hname
    cases hx with
    | now => exact ((h hname).goes hgoes).goes hgoes'
  refine hnow.bind fun preparedAt w₁ _ hfailed => ?_
  have hpush : (contract name wire).Gives
      (fun _ w => step.name = name → (w.memory.kept name).getLast?
        = some (attempt preparedAt).unstamped)
      (call (.push step.name (attempt preparedAt)) id : Resumable Unit) w₁ := by
    refine Contract.Gives.call fun w' hgoes _ => ⟨fun hname => ⟨(hfailed hname).goes hgoes,
      signature_prepareAttempt _ _ _ _, signature_prepareAttempt_ne _ _ _ _⟩, ?_⟩
    rintro x w'' ⟨-, hx⟩ _ hok w₃ hgoes' - hname
    cases hx with
    | push hpush =>
      rw [hgoes'.1, PrivateRuntimeState.kept_push (hname ▸ hpush)]
      exact List.getLast?_concat
    | pushFails => cases hok
  refine hpush.bind fun _ w₂ _ hlast => ?_
  have hwrite : (contract name wire).Gives
      (fun _ w => step.name = name → (w.disk.kept name).getLast? = some
        (attempt preparedAt).unstamped)
      (call .writePrivateJson id : Resumable Unit) w₂ := by
    refine Contract.Gives.call fun w' hgoes _ => ⟨trivial, ?_⟩
    rintro x w'' ⟨-, hx⟩ _ hok w₃ hgoes' - hname
    cases hx with
    | write =>
      rw [hgoes'.2.1]
      show (w'.memory.kept name).getLast? = _
      rw [hgoes.1]
      exact hlast hname
    | writeFails => cases hok
  refine hwrite.bind fun _ w₃ _ hlast => ?_
  have hsend : (contract name wire).Gives (fun _ _ => True)
      (call (.sendRawTransaction step.name (wire.serialize signed)) id : Resumable String) w₃ := by
    refine Contract.Gives.call fun w' hgoes _ => ⟨fun hname => ?_, fun _ _ _ _ _ _ _ _ => trivial⟩
    rw [hgoes.2.1, hlast hname, Option.map_some, unstamped_raw, raw_prepareAttempt]
  refine hsend.bind fun returned w₄ _ _ => ?_
  refine (invariant_gives (P := fun _ => True) (fun _ _ => trivial) trivial).bind fun _ w₅ _ _ => ?_
  refine Contract.Gives.bind (freeAsk fun _ => trivial) fun submittedAt w₆ _ _ => ?_
  refine Contract.Gives.bind (freeAsk fun _ => trivial) fun _ w₇ _ _ => ?_
  refine Contract.Gives.bind (free fun _ => trivial) fun _ w₈ _ _ => ?_
  refine (confirmStep_gives _ _ _).bind fun _ w₉ _ _ => ?_
  exact Contract.Gives.pure fun _ _ _ => trivial

/-- A new attempt is kept before it is sent, and only when all before it have failed. -/
theorem attemptStep_gives (h : step.name = name → AllFailed name w) :
    (contract name wire).Gives (fun _ _ => True) (attemptStep wire step) w := by
  have hP : ∀ {w w' : World}, (step.name = name → AllFailed name w) → Goes w w' →
      step.name = name → AllFailed name w' := fun hP hgoes hname => (hP hname).goes hgoes
  refine (checks hP h).bind fun present w₁ _ h₁ => .ite (fun _ => ?_) fun _ => ?_
  · exact Contract.Gives.pure fun _ _ _ => trivial
  refine Contract.Gives.bind (reads hP h₁ (fun _ => trivial) fun hx => by cases hx; rfl)
    fun latest w₂ _ h₂ => ?_
  refine (stays hP h₂).bind fun signed w₃ _ h₃ => ?_
  refine (simulateWithinBudget_gives hP h₃.2).bind fun _ w₄ _ h₄ => ?_
  exact submit_gives h₄

/-- **One call of `executeResumableStep`** makes only calls that are allowed. -/
theorem executeResumableStep_gives
    (honce : step.name = name → step.repeatableAfterConfirmed = false) :
    (contract name wire).Gives (fun _ _ => True) (executeResumableStep wire step) w := by
  refine Contract.Gives.bind (free fun _ => trivial) fun present w₁ _ _ =>
    .ite (fun _ => ?_) fun _ => ?_
  · exact Contract.Gives.pure fun _ _ _ => trivial
  refine (reconcilePersistedAttempt_gives honce).bind fun reconciled w₂ _ hreconciled => ?_
  refine .ite (fun _ => Contract.Gives.pure fun _ _ _ => trivial) fun hnone => ?_
  exact attemptStep_gives fun hname => (hreconciled hname).resolve_left hnone

end Functions

/-- What is allowed keeps what is kept. -/
theorem guards (name : String) (wire : WireFormat) : (contract name wire).Guards := by
  rintro p ⟨step, honce⟩ w -
  exact (executeResumableStep_gives honce).forget

/-! ## Every run -/

/-- At most one transaction sent for the step ever succeeds. -/
def AtMostOnce (wire : WireFormat) (name : String) (w : World) : Prop :=
  ∀ raw₁ raw₂, (name, raw₁) ∈ w.sent → (name, raw₂) ∈ w.sent →
    w.landed (wire.signatureOf raw₁) = some true → w.landed (wire.signatureOf raw₂) = some true →
      raw₁ = raw₂

/-- What was sent and has succeeded is the last attempt. -/
theorem Kept.last {wire : WireFormat} {name : String} {w : World} (h : Kept wire name w)
    {raw : List UInt8} (hsent : (name, raw) ∈ w.sent)
    (hlanded : w.landed (wire.signatureOf raw) = some true) :
    ((w.memory.kept name).getLast?).map StoredAttempt.raw = some raw := by
  obtain ⟨a, ha, rfl⟩ := h.sent raw hsent
  have hmem := h.onDisk.subset ha
  rcases List.eq_nil_or_concat (w.memory.kept name) with hnil | ⟨l, b, hl⟩
  · rw [hnil] at hmem
    cases hmem
  · rw [List.concat_eq_append] at hl
    have hsettled := h.settled
    rw [hl, List.dropLast_concat] at hsettled
    rw [hl] at hmem ⊢
    rcases List.mem_append.mp hmem with hold | hlast
    · -- an attempt before the last has failed
      have hfailed := hsettled a hold
      rw [(h.signed a (h.onDisk.subset ha)).1, hlanded] at hfailed
      cases hfailed
    · rw [List.mem_singleton.mp hlast, List.getLast?_concat]
      rfl

/-- Two attempts that took effect are the same one. -/
theorem Kept.atMostOnce {wire : WireFormat} {name : String} {w : World} (h : Kept wire name w) :
    AtMostOnce wire name w := by
  intro raw₁ raw₂ h₁ h₂ hlanded₁ hlanded₂
  exact Option.some.inj ((h.last h₁ hlanded₁).symm.trans (h.last h₂ hlanded₂))

/-- At the start nothing was sent. -/
theorem sound_start (name : String) (wire : WireFormat) (lamports : Option String) (height : Nat) :
    (contract name wire).Sound (start lamports height) where
  inv :=
    { onDisk := List.prefix_refl _
      signed := fun a ha => by cases ha
      settled := fun a ha => by cases ha
      sent := fun raw hraw => by cases hraw }
  running := fun _ _ _ => trivial

/-- **A resumable step takes effect at most once.** Whatever is sent for it is the last attempt on
disk at that moment, and of all that was ever sent for it at most one transaction succeeds. -/
theorem resumable_step_once (name : String) (wire : WireFormat) (lamports : Option String)
    (height : Nat) {s : Process World Call Answer}
    (h : ((machine name wire).restrict (fair name)).Turns restart (start lamports height) s) :
    AtMostOnce wire name s.world ∧ ∀ raw x s',
      (machine name wire).Turn restart s (.answered (.sendRawTransaction name raw) x) s' →
        ((s.world.disk.attempts name).map StoredAttempt.raw).getLast? = some raw := by
  have hsound := (sound_start name wire lamports height).turns (guards name wire) h
  refine ⟨hsound.inv.atMostOnce, fun raw x s' hturn => ?_⟩
  have hturn' : ((machine name wire).restrict (fair name)).Turn restart s
      (.answered (.sendRawTransaction name raw) x) s' := by
    cases hturn with
    | answer hx => exact .answer ⟨trivial, hx⟩
  have hlast : (s.world.disk.kept name).getLast?.map StoredAttempt.raw = some raw :=
    hsound.may hturn' rfl
  rw [← PrivateRuntimeState.map_raw_kept, List.getLast?_map]
  exact hlast

/-! ## Runs -/

/-- What the environment says. -/
inductive Reply
  | flag (b : Bool)
  | state
  | status (status : Option SignatureStatus)
  | height (n : Nat)
  | blockhash (latest : LatestBlockhash)
  | simulation (s : Simulation)
  | date
  | done
  | rejected (e : Failure)
  | returned (signature : String)
  | confirmation (err : Option String)

/-- The answer to a call and the world after it. -/
def World.answer (w : World) : (c : Call) → Reply → Option (Answer c × World)
  | .check, .flag b => some (.ok b, w)
  | .lastAttempt name, .state => some ((w.memory.attempts name).getLast?, w)
  | .getSignatureStatuses signature, .status status =>
    if status.all fun status => !status.final || w.landed signature = some status.err.isNone then
      some (.ok status, w) else none
  | .getBlockHeight _, .height n => some (.ok n, w)
  | .getLatestBlockhash _, .blockhash latest => some (.ok latest, w)
  | .simulateTransaction _ _ _, .simulation s => some (.ok s, w)
  | .initialAdminLamports, .state => some (w.memory.initialAdminLamports, w)
  | .now, .date => some ("2026-09-18T12:00:00.000Z", w)
  | .push name attempt, .state =>
    (w.memory.push name attempt).map fun memory => (.ok (), { w with memory := memory })
  | .stamp name date keep, .state => some ((), { w with memory := w.memory.stamp name date keep })
  | .writePrivateJson, .done => some (.ok (), { w with disk := w.memory })
  | .writePrivateJson, .rejected e => some (.error e, w)
  | .sendRawTransaction name raw, .returned signature =>
    some (.ok signature, { w with sent := w.sent ++ [(name, raw)] })
  | .confirmTransaction _ _ _ _, .confirmation err => some (.ok err, w)
  | _, _ => none

/-- The answers that are computed are answers the world can give. -/
theorem answers_of_answer {w w' : World} {c : Call} {r : Reply} {x : Answer c}
    (h : w.answer c r = some (x, w')) : Answers c w x w' := by
  cases c <;> cases r <;> simp only [World.answer, reduceCtorEq, Option.some.injEq,
    Prod.mk.injEq] at h
  case getSignatureStatuses.status signature status =>
    split at h
    · rename_i htruthful
      simp only [Option.some.injEq, Prod.mk.injEq] at h
      obtain ⟨rfl, rfl⟩ := h
      refine .getSignatureStatuses fun st hst hfinal => ?_
      cases hst
      simpa [hfinal] using htruthful
    · cases h
  case push.state name attempt =>
    obtain ⟨memory, hpush, heq⟩ := Option.map_eq_some_iff.mp h
    cases heq
    exact .push hpush
  case stamp.state =>
    obtain ⟨-, rfl⟩ := h
    exact .stamp
  all_goals
    obtain ⟨rfl, rfl⟩ := h
    constructor

/-- How the chain goes on. -/
def World.drift (wire : WireFormat) : Drift → World → Option World
  | .lands raw succeeds, w =>
    if w.sent.any (fun e => e.2 = raw) && (w.landed (wire.signatureOf raw)).isNone && w.height
      ≤ wire.validUntil raw then
      some { w with landed := Function.update w.landed (wire.signatureOf raw) (some succeeds) }
        else none
  | .block, w => some { w with height := w.height + 1 }

/-- What is computed to happen by itself is what can happen. -/
theorem drifts_of_drift {wire : WireFormat} {d : Drift} {w w' : World}
    (h : w.drift wire d = some w') : Drifts wire d w w' := by
  cases d with
  | lands raw succeeds =>
    simp only [World.drift, Option.ite_none_right_eq_some, Bool.and_eq_true, List.any_eq_true,
      decide_eq_true_eq, Option.isNone_iff_eq_none, Option.some.injEq] at h
    obtain ⟨⟨⟨⟨⟨name, _⟩, hmem, rfl⟩, hnone⟩, hvalid⟩, rfl⟩ := h
    exact .lands hmem hnone hvalid
  | block =>
    cases h
    exact .block

/-- Plays the environment. -/
def player (name : String) (wire : WireFormat) : Player (machine name wire) Reply where
  answer c r w := w.answer c r
  drift d w := w.drift wire d
  answers := answers_of_answer
  drifts := drifts_of_drift

/-- Whether an answer meets the condition. -/
def fairAnswer (name : String) : (c : Call) → World → Answer c → Bool
  | .getSignatureStatuses signature, w, x => match x with
    | .ok (some status) =>
      !status.failed || status.final || (w.memory.attempts name).all fun a =>
        a.signature ≠ signature
    | _ => true
  | .lastAttempt other, w, _ => other ≠ name || w.memory.kept name = w.disk.kept name
  | _, _, _ => true

/-- The test is for the condition. -/
theorem fair_of_fairAnswer {name : String} {c : Call} {w : World} {x : Answer c}
    (h : fairAnswer name c w x = true) : fair name c w x := by
  cases c with
  | getSignatureStatuses signature =>
    rintro ⟨a, ha, hsame⟩ status rfl hfailed
    simp only [fairAnswer, hfailed, Bool.not_true, Bool.false_or, Bool.or_eq_true, List.all_eq_true,
      decide_eq_true_eq] at h
    exact h.resolve_right fun hnone => hnone a ha hsame
  | lastAttempt other =>
    intro hname
    simpa [fairAnswer, hname] using h
  | _ => trivial

namespace Sample

/-- A transaction for a blockhash. -/
def signed (blockhash : String) : VersionedTransaction where
  payer := ⟨List.replicate 63 0 ++ [if blockhash = "first" then 1 else 2], by simp⟩
  others := []
  message := [128]

/-- A step that funds the authorities. -/
def fund : StepCall where
  name := "fund_separated_test_authorities"
  sign latest := .ok (signed latest.blockhash)
  repeatableAfterConfirmed := false
  commitment := "confirmed"
  adminAddress := "admin"
  budget := none

/-- The number of signatures, a byte while it is below 128, the signatures and the message. Every
transaction is good up to height 150. -/
def wire : WireFormat where
  serialize t := .ofNat (t.others.length + 1) ::
    ((t.payer :: t.others).map List.Vector.toList).flatten ++ t.message
  signatureOf raw := base58Encode ((raw.drop 1).take 64)
  validUntil _ := 150
  signatureOf_serialize t := by
    have hlength : t.payer.toList.length = 64 := t.payer.toList_length
    simp [hlength]

/-- A fresh state of an admin with one SOL. -/
def fresh : Process World Call Answer := start (some "1000000000") 100

/-- `fund` is called. -/
def called {M : Machine World Call Answer Drift}
    (h : M.starts (executeResumableStep wire fund).run.forget)
    (replies : List Reply) : List (Player.Cue M Reply) :=
  .start _ h :: replies.map .reply

/-- The step of the run may be called. -/
theorem starts_fund : Starts wire fund.name (executeResumableStep wire fund).run.forget :=
  .execute fund fun _ => rfl

/-- The attempt is signed, and kept if the write ends so. -/
def signs (blockhash : String) (written : Reply) : List Reply :=
  [.flag false, .blockhash ⟨blockhash, 150⟩, .simulation ⟨none, none, some 900000000⟩,
    .state, .date, .state, written]

/-- It is sent. -/
def sends (blockhash : String) : List Reply :=
  [.returned (base58Encode (signed blockhash).payer.toList), .date, .state, .done]

/-- Both checks before an attempt is looked for, and the attempt. -/
def looks : List Reply := [.flag false, .state]

/-- The step whose attempt is sent next. -/
def toSend : Async Call Answer Unit → Option String
  | .await (.sendRawTransaction name _) _ => some name
  | _ => none

theorem toSend_eq_some {name : String} {p : Async Call Answer Unit} (h : toSend p = some name) :
    ∃ raw k, p = .await (.sendRawTransaction name raw) k := by
  simp only [toSend] at h
  split at h
  · cases h
    exact ⟨_, _, rfl⟩
  · cases h

end Sample

open Sample

/-- A step whose process crashed after it was sent: the same bytes are sent again, and take effect
once. -/
theorem resumable_step_once_sample : ∃ s : Process World Call Answer,
    s.world.sent = [(fund.name, wire.serialize (signed "first")),
      (fund.name, wire.serialize (signed "first"))]
    ∧ s.world.landed (wire.signatureOf (wire.serialize (signed "first"))) = some true
    ∧ AtMostOnce wire fund.name s.world := by
  have hplay :
      (((player fund.name wire).restrict (fairAnswer fund.name) fair_of_fairAnswer).perform restart
      fresh (called starts_fund (looks ++ signs "first" .done ++ sends "first") ++ [.crash]
        ++ called starts_fund (looks ++ [.status none, .height 120] ++ sends "first")
        ++ [.drift (.lands (wire.serialize (signed "first")) true)])).any (fun s =>
          s.world.sent = [(fund.name, wire.serialize (signed "first")),
            (fund.name, wire.serialize (signed "first"))]
            && s.world.landed (wire.signatureOf (wire.serialize (signed "first")))
              = some true) = true := by
    decide +kernel
  obtain ⟨s, hs, htest⟩ := (Option.any_eq_true _ _).mp hplay
  simp only [Bool.and_eq_true, decide_eq_true_eq] at htest
  exact ⟨s, htest.1, htest.2,
    (resumable_step_once fund.name wire (some "1000000000") 100 (Player.turns_of_perform hs)).1⟩

/-- An error below the final levels lets a second transaction be signed while the first can still
succeed: both take effect. -/
theorem processed_error_doubles : ∃ s : Process World Call Answer,
    (machine fund.name wire).Turns restart fresh s ∧ ¬ AtMostOnce wire fund.name s.world := by
  have hplay : ((player fund.name wire).perform restart fresh
      (called starts_fund (looks ++ signs "first" .done ++ sends "first") ++ [.crash]
        ++ called starts_fund
          (looks ++ [.status (some ⟨some "\x7b\"InstructionError\":[0,\x7b\"Custom\":1\x7d]\x7d",
          some .processed⟩)] ++ signs "second" .done ++ sends "second")
        ++ [.drift (.lands (wire.serialize (signed "first")) true),
          .drift (.lands (wire.serialize (signed "second")) true)])).any
      (fun s => s.world.sent = [(fund.name, wire.serialize (signed "first")),
        (fund.name, wire.serialize (signed "second"))]
        && s.world.landed (wire.signatureOf (wire.serialize (signed "first"))) = some true
        && s.world.landed (wire.signatureOf (wire.serialize (signed "second")))
          = some true) = true := by
    decide +kernel
  obtain ⟨s, hs, htest⟩ := (Option.any_eq_true _ _).mp hplay
  simp only [Bool.and_eq_true, decide_eq_true_eq] at htest
  obtain ⟨⟨hsent, hfirst⟩, hsecond⟩ := htest
  refine ⟨s, Player.turns_of_perform hs, fun honce => ?_⟩
  have hsame := honce _ _ (by rw [hsent]; exact List.mem_cons_self)
    (by rw [hsent]; exact List.mem_cons_of_mem _ List.mem_cons_self) hfirst hsecond
  revert hsame
  decide +kernel

/-- After a write that was rejected, the next call in the same process sends an attempt that is not
on disk. -/
theorem unwritten_attempt_sent :
    ∃ (s s' : Process World Call Answer) (raw : List UInt8) (x : Except Failure String),
    (machine fund.name wire).Turns restart fresh s
    ∧ (machine fund.name wire).Turn restart s (.answered (.sendRawTransaction fund.name raw) x) s'
    ∧ s.world.disk.attempts fund.name = [] := by
  have hplay : ((player fund.name wire).perform restart fresh
      (called starts_fund (looks ++ signs "first" (.rejected (.other "ENOSPC")))
        ++ called starts_fund (looks ++ [.status none, .height 120]))).any (fun s =>
          toSend s.running = some fund.name && s.world.disk.attempts fund.name = []) = true := by
    decide
  obtain ⟨⟨w, p⟩, hs, htest⟩ := (Option.any_eq_true _ _).mp hplay
  simp only [Bool.and_eq_true, decide_eq_true_eq] at htest
  obtain ⟨hsends, hdisk⟩ := htest
  obtain ⟨raw, k, rfl⟩ := toSend_eq_some hsends
  exact ⟨_, _, raw, .ok "", Player.turns_of_perform hs, .answer (.send _), hdisk⟩

end Bootstrap

end DividendX
