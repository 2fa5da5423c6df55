import DividendX.Devnet.Network
import DividendX.Devnet.Safety

/-!
# Outcomes are truthful

Every operation that is recorded as finished was finished on a warrant: what the chain had shown by
then, and what it had shown is final. Two answers of the RPC are taken for final that are not: a
status with an error below the confirmed level, and a signature that is not that of the bytes. In a
run without them, or where they come for transactions that cannot succeed any more, every recorded
outcome is true and stays true.

The proof is a discipline over that of the journal (`Keeping`): a write that finishes an operation
needs its warrant, and warrants survive whatever the chain and the other instances do.
-/

namespace DividendX

namespace Devnet

open HostedDevnetLedger

/-- What a change makes of which operation. -/
def Change.target : Change → Option (OperationId × OperationState)
  | .release lease (some state) _ _ _ => some (lease.operationId, state)
  | .transition operationId state _ _ => some (operationId, state)
  | _ => none

namespace Change

variable {c : Change} {v next : HostedDevnetLedger} {id : OperationId} {op : DurableOperation}

/-- A change that settles nothing leaves no terminal state. -/
theorem not_terminal_of_target {state : OperationState} (h : c.settles = false)
    (htarget : c.target = some (id, state)) : state.terminal = false := by
  cases c with
  | release lease target errorCode checkedAt stampedAt =>
    cases target with
    | none => cases htarget
    | some target =>
      cases htarget
      exact h
  | transition operationId target errorCode stampedAt =>
    cases htarget
    exact h
  | reserveGrant | reserveObservation | acquire | persistPrepared | disableFaucet => cases htarget

/-- What is found after one entry was stored. -/
theorem get?_of_set {j : OperationId} {new : DurableOperation}
    (heq : next.operations = v.operations.set j new)
    (hop : next.operations.get? id = some op) :
    (id = j ∧ op = new) ∨ v.operations.get? id = some op := by
  rw [heq, Record.get?_set] at hop
  split at hop
  · rename_i hid
    cases hop
    exact .inl ⟨hid, rfl⟩
  · exact .inr hop

/-- **A finished operation** was finished before, or the change finishes it and leaves its
attempt. -/
theorem finished_of_apply (h : c.apply v = .ok next) (hop : next.operations.get? id = some op)
    (hterminal : op.state.terminal = true) :
    v.operations.get? id = some op ∨ ∃ op₀, v.operations.get? id = some op₀
      ∧ op.attempt = op₀.attempt ∧ c.target = some (id, op.state) := by
  -- an entry that is stored unfinished is another one
  have hother : ∀ {j new}, next.operations = v.operations.set j new → new.state.terminal = false →
      v.operations.get? id = some op := by
    intro j new heq hactive
    rcases get?_of_set heq hop with ⟨-, rfl⟩ | hold
    · rw [hactive] at hterminal
      cases hterminal
    · exact hold
  cases c with
  | reserveGrant owner assetId visitorHash ipHash day createdAt =>
    rcases reserveGrant_eq_ok h with ⟨rfl, -⟩ | hgrants
    · exact .inl hop
    · exact .inl (hother (congrArg operations hgrants.next) rfl)
  | reserveObservation assetId now =>
    rcases reserveObservation_eq_ok h with ⟨rfl, -⟩ | hobserves
    · exact .inl hop
    · exact .inl (hother (congrArg operations hobserves.next) rfl)
  | acquire operationId kind holder now =>
    obtain ⟨current, expiresAt, -, hactive, rfl⟩ := acquire_eq_ok h
    by_cases hreserved : current.state = .reserved
    · rw [show HostedDevnetLedger.operations _ = v.operations from if_pos hreserved] at hop
      exact .inl hop
    · exact .inl (hother (if_neg hreserved) hactive)
  | persistPrepared operationId lease attempt now =>
    obtain ⟨operation, current, -, -, -, -, rfl⟩ := persistPrepared_eq_ok h
    exact .inl (hother rfl rfl)
  | release lease state errorCode checkedAt stampedAt =>
    obtain ⟨operation, hoperation, rfl | ⟨target, rfl, -, -, rfl⟩⟩ := release_eq_ok h
    · exact .inl hop
    · rcases get?_of_set rfl hop with ⟨rfl, rfl⟩ | hold
      · exact .inr ⟨operation, hoperation, rfl, rfl⟩
      · exact .inl hold
  | transition operationId state errorCode stampedAt =>
    obtain ⟨operation, hoperation, ⟨-, rfl⟩ | ⟨-, -, -, rfl⟩⟩ := transition_eq_ok h
    · exact .inl hop
    · rcases get?_of_set rfl hop with ⟨rfl, rfl⟩ | hold
      · exact .inr ⟨operation, hoperation, rfl, rfl⟩
      · exact .inl hold
  | disableFaucet reason =>
    cases h
    exact .inl hop

end Change

/-- An answer leaves the store alone, or is that of a write. -/
theorem Answers.store {c : Call} {w w' : World} {x : Answer c} (h : Answers c w x w') :
    w'.store = w.store ∨ ∃ p y, c = .put p ∧ w.store.Puts (ε := Failure) p y w'.store := by
  cases h with
  | put hput => exact .inr ⟨_, _, rfl, hput⟩
  | now | randomUUID | writeDisabled | disableWrites | read | readFails | prepareFaucet
  | prepareObservation | verifyPrepared | sendExact | transactionStatus | blockHeight
  | verifyOutcome => exact .inl rfl

/-- The ledger is what the store shows. -/
theorem World.ledger_of_cell {w w' : World} (h : w'.store.cell = w.store.cell) :
    w'.ledger = w.ledger :=
  congrArg (CasStore.content emptyLedger) h

namespace Network

/-! ## Warrants -/

/-- What the chain must have shown for an operation to end in a state. -/
def Holds (n : Network) (id : OperationId) (a : SignedAttempt) : OperationState → Prop
  | .confirmed => n.fate a = some true ∧ (id, true) ∈ n.verified
  | .failed => n.CannotSucceed a ∨ n.fate a = some true ∧ (id, false) ∈ n.verified
  | .expired => n.Dead a
  | .reserved | .prepared | .submitted => True

/-- What every finished operation of a ledger says has been shown. -/
def Recorded (n : Network) (v : HostedDevnetLedger) : Prop :=
  ∀ id op, v.operations.get? id = some op → op.state.terminal = true →
    ∃ a, op.attempt = some a ∧ n.Holds id a op.state

/-- A change that finishes an operation does so on what has been shown of its attempt. -/
def Warranted (n : Network) (v : HostedDevnetLedger) (c : Change) : Prop :=
  ∀ id state, c.target = some (id, state) → state.terminal = true →
    ∃ op a, v.operations.get? id = some op ∧ op.attempt = some a ∧ n.Holds id a state

variable {n n' n'' : Network} {v v' : HostedDevnetLedger} {c : Change} {a : SignedAttempt}

/-- What an operation's state says of the chain stays true. -/
theorem Holds.onward {id : OperationId} {state : OperationState} (h : n.Holds id a state)
    (ho : n.Onward n') :
    n'.Holds id a state := by
  cases state with
  | confirmed => exact ⟨ho.fate h.1, ho.verified h.2⟩
  | failed =>
    rcases h with hcannot | ⟨hfate, hverified⟩
    · exact .inl (hcannot.onward ho)
    · exact .inr ⟨ho.fate hfate, ho.verified hverified⟩
  | expired => exact Dead.onward h ho
  | reserved | prepared | submitted => trivial

/-- So does what a ledger says. -/
theorem Recorded.onward (h : n.Recorded v) (ho : n.Onward n') : n'.Recorded v := by
  intro id op hop hterminal
  obtain ⟨a, ha, hholds⟩ := h id op hop hterminal
  exact ⟨a, ha, hholds.onward ho⟩

/-- And what a change will say. -/
theorem Warranted.later (h : n.Warranted v c) (ho : n.Onward n')
    (he : v.Evolves v') : n'.Warranted v' c := by
  intro id state htarget hterminal
  obtain ⟨op, a, hop, ha, hholds⟩ := h id state htarget hterminal
  obtain ⟨op', hop', hadv⟩ := he.operation hop
  exact ⟨op', a, hop', hadv.attempt a ha, hholds.onward ho⟩

/-- A change that settles nothing says nothing of the chain. -/
theorem warranted_free (h : c.settles = false) : n.Warranted v c := by
  intro id state htarget hterminal
  rw [Change.not_terminal_of_target h htarget] at hterminal
  cases hterminal

/-- **A warranted change** leaves a ledger that is true. -/
theorem Recorded.next (h : n.Recorded v) (hc : n.Warranted v c)
    (hnext : Next c v v') : n.Recorded v' := by
  obtain ⟨next, happly, rfl⟩ := Change.mutate_eq_ok hnext.2
  intro id op hop hterminal
  rcases Change.finished_of_apply happly hop hterminal with hold | ⟨op₀, hop₀, hattempt, htarget⟩
  · exact h id op hold hterminal
  · obtain ⟨op₁, a, hop₁, ha, hholds⟩ := hc id op.state htarget hterminal
    rw [hop₀] at hop₁
    cases hop₁
    exact ⟨a, hattempt.trans ha, hholds⟩

/-! ## The discipline -/

/-- No error is reported, and no other signature returned, for a transaction that may still
succeed. -/
def Spared (c : Call) (n : Network) (x : Answer c) : Prop :=
  match c, x with
  | .transactionStatus attempt, .ok status => status.state = .failed → n.CannotSucceed attempt
  | .sendExact _ attempt, .error e =>
    e.serviceError?.map ServiceError.code = some "SIGNATURE_MISMATCH" → n.CannotSucceed attempt
  | _, _ => True

/-- The service is in order, what the ledger says has been shown, and so has what a late write will
say. -/
structure Truth (n : Network) : Prop where
  service : Inv n.service
  recorded : n.Recorded n.service.ledger
  inflight : ∀ p ∈ n.service.store.inflight, n.Warranted n.service.ledger p.change

/-- The ledger evolves and the chain goes on. -/
structure Goes (n n' : Network) : Prop where
  service : Rely n.service n'.service
  chain : n.Onward n'

theorem Goes.refl (n : Network) : n.Goes n := ⟨.refl Evolves.refl _, .refl n⟩

theorem Goes.trans (h : n.Goes n') (h' : n'.Goes n'') : n.Goes n'' :=
  ⟨.trans Evolves.trans h.service h'.service, h.chain.trans h'.chain⟩

/-- What warrants a change keeps warranting it. -/
theorem Goes.warranted (h : n.Goes n') (hc : n.Warranted n.service.ledger c) :
    n'.Warranted n'.service.ledger c := hc.later h.chain h.service.evolves

/-- What must hold when a call is made. -/
def Asks (c : Call) (n : Network) : Prop :=
  May c n.service ∧ ∀ p, c = .put p → n.Warranted n.service.ledger p.change

variable (wire : WireFormat)

/-- **One call** of any instance keeps the truth. -/
theorem truth_answered {c : Call} {x : Answer c} (ht : n.Truth) (hmay : n.Asks c)
    (h : ((machine wire).restrict Spared).answers c n x n') : n'.Truth ∧ n.Goes n' := by
  obtain ⟨-, h⟩ := h
  have hchain := onward_answered wire h
  cases h with
  | @mk service hx hreports =>
    obtain ⟨hinv, hrely⟩ := inv_answered ht.service hmay.1 hx
    have hgoes : n.Goes { n with service := service, verified := n.verified ++ noted c x } :=
      ⟨hrely, hchain⟩
    refine ⟨⟨hinv, Recorded.onward ?_ hchain, fun q hq => hgoes.warranted ?_⟩, hgoes⟩
    · rcases hx.store with hsame | ⟨p, y, rfl, hput⟩
      · rw [World.ledger_of_cell (congrArg CasStore.cell hsame)]
        exact ht.recorded
      · rcases (hput.moves hmay.1).1 with hcell | hnext
        · rw [World.ledger_of_cell hcell]
          exact ht.recorded
        · exact ht.recorded.next (hmay.2 p rfl) hnext
    · rcases hx.store with hsame | ⟨p, y, rfl, hput⟩
      · rw [hsame] at hq
        exact ht.inflight q hq
      · rcases List.mem_cons.mp ((hput.moves hmay.1).2 hq) with rfl | hq
        · exact hmay.2 q rfl
        · exact ht.inflight q hq

/-- So does everything that happens without one. -/
theorem truth_drifted {d : Progress} (ht : n.Truth) (h : Drifts d n n') : n'.Truth ∧ n.Goes n' := by
  have hchain := onward_drifted h
  cases h with
  | @block _ transactions hvalid =>
    have hgoes :
        n.Goes { n with height := n.height + 1, confirmed := n.confirmed ++ transactions } :=
      ⟨.refl Evolves.refl _, hchain⟩
    exact ⟨⟨ht.service, ht.recorded.onward hchain, fun q hq => hgoes.warranted (ht.inflight q hq)⟩,
      hgoes⟩
  | @lands _ p service hlands =>
    obtain ⟨hinv, hrely⟩ := inv_drifted ht.service hlands
    have hgoes := Goes.mk hrely hchain
    cases hlands with
    | lands hlands =>
      refine ⟨⟨hinv, ?_, fun q hq => hgoes.warranted (ht.inflight q ?_)⟩, hgoes⟩
      · have hmem : p ∈ n.service.store.inflight := by
          cases hlands with
          | late hmem heq => exact hmem
        exact ht.recorded.next (ht.inflight p hmem) (hlands.change ht.service.orderly)
      · cases hlands with
        | late hmem heq => exact hq

/-- The discipline of the service beside its chain. -/
def discipline : Discipline ((machine wire).restrict Spared) where
  inv := Truth
  rely := Goes
  may := Asks
  refl := Goes.refl
  trans := Goes.trans
  answered := truth_answered wire
  drifted := truth_drifted

/-- The discipline is one of those the service's lemmas are for. -/
theorem keeping_discipline :
    Keeping (discipline wire) service fun c n => n.Warranted n.service.ledger c where
  answers h := by
    cases h.2 with
    | mk hx hreports => exact hx
  inv h := h.service
  rely h := h.service
  free h := warranted_free h
  later h hr := hr.warranted h
  may h hput := ⟨h, hput⟩

/-! ## What is shown before an operation is finished -/

section Shown

open Service DurableJournal HostedDevnetService SolanaChainAdapter

variable {wire} {n : Network} {operation current : DurableOperation} {a : SignedAttempt}

/-- A transaction that is reported as confirmed is final. -/
theorem final_of_confirmed {raw : Option Bootstrap.SignatureStatus}
    (h : (SolanaChainAdapter.transactionStatus raw).state = .confirmed) :
    ∃ status, raw = some status ∧ status.failed = false ∧ status.final = true := by
  cases raw with
  | none => cases h
  | some status =>
    simp only [SolanaChainAdapter.transactionStatus] at h
    split at h
    · cases h
    · rename_i hfailed
      split at h
      · rename_i hfinal
        exact ⟨status, rfl, Bool.eq_false_of_not_eq_true hfailed, hfinal⟩
      · cases h

/-- A call that changes nothing of the service, and what follows from its answer. -/
theorem gives_shown {α : Type} {c : Call} {f : Answer c → Except Failure α} {Q : α → Network → Prop}
    (hmay : ∀ w, May c w) (hput : ∀ p, c ≠ .put p)
    (h : ∀ {n₁ n₂ x r}, n.Goes n₁ → Spared c n₁ x → Answers wire c n₁ x n₂ → f x = .ok r →
      ∀ n₃, n₂.Onward n₃ → Q r n₃) : (discipline wire).Gives Q (call c f) n := by
  intro n₁ hr₁ _
  refine ⟨⟨hmay _, fun p hp => absurd hp (hput p)⟩, fun x n₂ hx n₃ hr₃ _ r hr => ?_⟩
  exact h hr₁ hx.1 hx.2 hr n₃ hr₃.chain

/-- What a status shows; that the transaction is dead only after its last valid height. -/
theorem gives_transactionStatus :
    (discipline wire).Gives (fun status n' => (status.state = .confirmed → n'.fate a = some true)
      ∧ (status.state = .failed → n'.CannotSucceed a)
      ∧ (a.lastValidBlockHeight < n.height → status.state ≠ .confirmed →
        status.state ≠ .failed → n'.Dead a))
      (call (.transactionStatus a) id) n := by
  refine gives_shown (fun _ => trivial) (fun _ h => by cases h)
    fun {n₁ n₂ x status} hgoes hspared hx hstatus n₃ ho => ?_
  obtain rfl : x = .ok status := hstatus
  have ho₁ : n₁.Onward n₃ := (onward_answered _ hx).trans ho
  cases hx with
  | mk _ hreports =>
    obtain ⟨raw, hlawful, rfl⟩ := hreports status rfl
    refine ⟨fun hconfirmed => ?_, fun hfailed => (hspared hfailed).onward ho₁,
      fun hlate hconfirmed hfailed => ?_⟩
    · obtain ⟨status, rfl, hfailed, hfinal⟩ := final_of_confirmed hconfirmed
      have hfate := hlawful.final status rfl hfinal
      rw [hfailed] at hfate
      exact ho₁.fate hfate
    · -- in a block it would have been reported
      have hlate₁ := hlate.trans_le hgoes.chain.height
      refine Dead.onward ⟨?_, hlate₁⟩ ho₁
      by_contra hfate
      rcases hlawful.reported hfate hlate₁ with h | h
      · exact hconfirmed h
      · exact hfailed h

/-- The height that is read has been reached. -/
theorem gives_blockHeight : (discipline wire).Gives (fun height n' => height ≤ n'.height)
    (call .blockHeight id) n := by
  refine gives_shown (fun _ => trivial) (fun _ h => by cases h)
    fun {n₁ n₂ x height} _ _ hx hheight n₃ ho => ?_
  obtain rfl : x = .ok height := hheight
  have ho₁ : n₁.Onward n₃ := (onward_answered _ hx).trans ho
  cases hx with
  | mk _ hreports => exact (hreports height rfl).trans ho₁.height

/-- A verified outcome is noted. -/
theorem gives_verifyOutcome : (discipline wire).Gives
    (fun verified n' => (operation.id, verified) ∈ n'.verified)
      (call (.verifyOutcome operation) id) n := by
  refine gives_shown (fun _ => trivial) (fun _ h => by cases h)
    fun {n₁ n₂ x verified} _ _ hx hverified n₃ ho => ?_
  obtain rfl : x = .ok verified := hverified
  cases hx with
  | mk => exact ho.verified (List.mem_append_right _ List.mem_cons_self)

/-- An operation may end where its warrant holds. -/
theorem gives_transition_of_holds {state : OperationState} {errorCode : Option String}
    (hknown : Known operation n.service) (ha : operation.attempt = some a)
    (hholds : n.Holds operation.id a state) :
    (discipline wire).Gives (fun op n' => Known op n'.service)
      (transition operation.id state errorCode) n := by
  refine gives_transition (keeping_discipline wire) fun stampedAt id state htarget _ => ?_
  cases htarget
  obtain ⟨op, hop, hattempt⟩ := hknown.attempt ha
  exact ⟨op, a, hop, hattempt, hholds⟩

/-- A transaction that was confirmed with success is recorded so. -/
theorem gives_reconcileConfirmed (hknown : Known operation n.service)
    (ha : operation.attempt = some a)
    (hfate : n.fate a = some true) :
    (discipline wire).Gives (fun op n' => Known op n'.service)
      (reconcileConfirmed operation) n := by
  refine gives_verifyOutcome.bind fun verified n₁ hr₁ _ hverified => ?_
  have hknown₁ := hknown.later hr₁.service
  have hfate₁ := hr₁.chain.fate hfate
  cases verified with
  | true => exact gives_transition_of_holds hknown₁ ha ⟨hfate₁, hverified⟩
  | false => exact gives_transition_of_holds hknown₁ ha (.inr ⟨hfate₁, hverified⟩)

/-- One without a status is recorded as what the chain allows. -/
theorem gives_reconcileUndecided (hknown : Known operation n.service)
    (ha : operation.attempt = some a) :
    (discipline wire).Gives (fun op n' => Known op n'.service)
      (reconcileUndecided operation a) n := by
  refine gives_blockHeight.bind fun height n₁ hr₁ _ hheight => .ite (fun hlate => ?_) fun _ => ?_
  · refine gives_transactionStatus.bind fun final n₂ hr₂ _ ⟨hconfirmed, hfailed, hdead⟩ => ?_
    have hknown₂ := (hknown.later hr₁.service).later hr₂.service
    have hlate₁ : a.lastValidBlockHeight < n₁.height := hlate.trans_le hheight
    cases hstate : final.state with
    | confirmed => exact gives_reconcileConfirmed hknown₂ ha (hconfirmed hstate)
    | failed => exact gives_transition_of_holds hknown₂ ha (.inl (hfailed hstate))
    | missing | pending =>
      rw [hstate] at hdead
      exact gives_transition_of_holds hknown₂ ha (hdead hlate₁ (nofun) (nofun))
  · exact .pure fun n' hr _ => (hknown.later hr₁.service).later hr.service

/-- **What ends an operation was shown.** -/
theorem gives_reconcile (hknown : Known operation n.service) :
    (discipline wire).Gives (fun op n' => Known op n'.service) (reconcile operation) n := by
  refine .ite (fun _ => .pure fun n' hr _ => hknown.later hr.service) fun _ => ?_
  split
  · exact .pure fun n' hr _ => hknown.later hr.service
  · rename_i attempt ha
    refine gives_transactionStatus.bind fun status n₁ hr₁ _ ⟨hconfirmed, hfailed, _⟩ => ?_
    have hknown₁ := hknown.later hr₁.service
    cases hstate : status.state with
    | confirmed => exact gives_reconcileConfirmed hknown₁ ha (hconfirmed hstate)
    | failed => exact gives_transition_of_holds hknown₁ ha (.inl (hfailed hstate))
    | missing | pending => exact gives_reconcileUndecided hknown₁ ha

/-- The stored bytes are sent, and another signature comes back only for what cannot succeed. -/
theorem gives_sendExact (hknown : Known current n.service) :
    (discipline wire).Gives (fun sent n' => ∀ e, sent = .error e →
      e.serviceError?.map ServiceError.code = some "SIGNATURE_MISMATCH" →
      ∃ a, current.attempt = some a
        ∧ n'.CannotSucceed a) (settle (HostedDevnetService.sendExact current)) n := by
  simp only [HostedDevnetService.sendExact]
  split
  · rename_i attempt hattempt
    intro n₁ hr₁ _
    have hmay := (hknown.later hr₁.service).attempt hattempt
    refine ⟨⟨hmay, fun p hp => by cases hp⟩,
      fun x n₂ hx n₃ hr₃ _ sent hsent e herror hmismatch => ?_⟩
    cases hsent
    obtain rfl : x = .error e := herror
    have hcannot : n₁.CannotSucceed attempt := hx.1 hmismatch
    exact ⟨attempt, hattempt, (hcannot.onward (onward_answered _ hx.2)).onward hr₃.chain⟩
  · -- no bytes, nothing sent
    refine fun n₁ _ _ sent hsent e herror hmismatch => ?_
    cases hsent
    cases herror
    cases hmismatch

/-- Reconciling and sending keep the truth. -/
theorem settling_discipline : Settling (discipline wire) service where
  reconcile := gives_reconcile
  send hknown hlease := (gives_sendExact hknown).bind fun sent n₁ hr₁ _ hsent => by
    have hknown₁ := hknown.later hr₁.service
    refine gives_afterSend (keeping_discipline wire) hknown₁ gives_reconcile
      fun e checkedAt stampedAt herror hmismatch id state htarget _ => ?_
    obtain ⟨a, ha, hcannot⟩ := hsent e herror hmismatch
    obtain ⟨op, hop, hattempt⟩ := hknown₁.attempt ha
    cases htarget
    rw [hlease]
    exact ⟨op, a, hop, hattempt, .inl hcannot⟩

end Shown

/-! ## All interleavings -/

/-- What is recorded of every finished operation is true and stays true: an expired transaction is
never confirmed; one of a confirmed operation was confirmed and `verifyOutcome` accepted its
outcome; one of a failed operation never succeeds, unless it has by then and `verifyOutcome`
rejected its outcome. -/
def Truthful (s : Site Network Call Answer) : Prop :=
  ∀ id op, s.world.service.ledger.operations.get? id = some op → op.state.terminal = true →
    ∃ a, op.attempt = some a
      ∧ (op.state = .expired → ∀ s', (machine wire).Steps s s' → s'.world.fate a = none)
      ∧ (op.state = .confirmed → s.world.fate a = some true ∧ (id, true) ∈ s.world.verified)
      ∧ (op.state = .failed → (∀ s', (machine wire).Steps s s' → s'.world.fate a ≠ some true)
        ∨ s.world.fate a = some true ∧ (id, false) ∈ s.world.verified)

/-- What may be called keeps the truth. -/
theorem discipline_guards : (discipline wire).Guards :=
  fun _ hp n _ => (keeping_discipline wire).starts settling_discipline hp n

/-- An empty ledger says nothing. -/
theorem sound_opening (height : Nat) (confirmed : List (SignedAttempt × Bool)) :
    (discipline wire).Sound (opening height confirmed) where
  inv :=
    { service := sound_start.inv
      recorded := fun id op hop => by
        simp [opening, start, World.ledger, CasStore.content, emptyLedger] at hop
      inflight := fun q hq => by cases hq }
  threads := fun p hp => by cases hp

/-- **Outcomes are truthful** in every run of any number of instances beside a chain, as long as an
error is reported, or another signature returned, only for a transaction that cannot succeed any
more. -/
theorem outcomes_truthful (height : Nat) (confirmed : List (SignedAttempt × Bool))
    {s : Site Network Call Answer}
    (h : ((machine wire).restrict Spared).Steps (opening height confirmed) s) :
    Truthful wire s := by
  have hsound := ((sound_opening wire height confirmed).steps (discipline_guards wire) h).1
  intro id op hop hterminal
  obtain ⟨a, ha, hholds⟩ := hsound.inv.recorded id op hop hterminal
  refine ⟨a, ha, fun hstate s' hsteps => ?_, fun hstate => ?_, fun hstate => ?_⟩
  · rw [hstate] at hholds
    exact (onward_steps wire hsteps).dead hholds
  · rw [hstate] at hholds
    exact hholds
  · rw [hstate] at hholds
    rcases hholds with hcannot | hrejected
    · exact .inl fun s' hsteps => (hcannot.onward (onward_steps wire hsteps)).fate_ne
    · exact .inr hrejected

/-! ## Two runs -/

/-- What the outside says in a run: the chain beside what a program alone is told. -/
inductive Hint
  | service (reply : Reply)
  | sent (returned : Except Failure String)
  | status (raw : Option Bootstrap.SignatureStatus)
  | height (height : Nat)

instance (n : Network) (a : SignedAttempt) (raw : Option Bootstrap.SignatureStatus) :
    Decidable (n.Lawful a raw) :=
  decidable_of_iff ((∀ status ∈ raw, status.final = true → n.fate a = some !status.failed)
      ∧ (n.fate a ≠ none → a.lastValidBlockHeight < n.height →
        (SolanaChainAdapter.transactionStatus raw).state = .confirmed
          ∨ (SolanaChainAdapter.transactionStatus raw).state = .failed))
    ⟨fun h => ⟨h.1, h.2⟩, fun h => ⟨h.final, h.reported⟩⟩

/-- A call that the chain answers. -/
def ofChain : Call → Bool
  | .sendExact _ _ | .transactionStatus _ | .blockHeight => true
  | _ => false

/-- The answer to a call, and the service after it. -/
def told (n : Network) : (c : Call) → Hint → Option (Answer c × World)
  | .sendExact _ attempt, .sent returned =>
    some (SolanaChainAdapter.sendExact wire attempt returned, n.service)
  | .transactionStatus attempt, .status raw =>
    if n.Lawful attempt raw then some (.ok (SolanaChainAdapter.transactionStatus raw), n.service)
      else none
  | .blockHeight, .height height => if height ≤ n.height then some (.ok height, n.service) else none
  | c, .service reply => if ofChain c then none else n.service.answer c reply
  | _, _ => none

/-- A call that is none of the chain's reports nothing of it. -/
theorem reports_of_not_ofChain {n : Network} {c : Call} {x : Answer c} (h : ofChain c = false) :
    n.Reports wire c x := by
  cases c with
  | sendExact | transactionStatus | blockHeight => cases h
  | now | randomUUID | writeDisabled | disableWrites | read | put | prepareFaucet
  | prepareObservation | verifyPrepared | verifyOutcome => trivial

/-- The answers that are computed are answers the network can give. -/
theorem answers_of_told {n : Network} {c : Call} {hint : Hint} {x : Answer c} {w : World}
    (h : n.told wire c hint = some (x, w)) :
    Devnet.Answers c n.service x w ∧ n.Reports wire c x := by
  cases hint with
  | service reply =>
    have hreply : (if ofChain c then none else n.service.answer c reply) = some (x, w) := by
      cases c <;> exact h
    split at hreply
    · cases hreply
    · rename_i hchain
      exact ⟨answers_of_answer hreply,
        reports_of_not_ofChain _ (Bool.eq_false_of_not_eq_true hchain)⟩
  | sent returned =>
    cases c with
    | sendExact operationId attempt =>
      cases h
      exact ⟨.sendExact _, returned, rfl⟩
    | _ => cases h
  | status raw =>
    cases c with
    | transactionStatus attempt =>
      simp only [told] at h
      split at h
      · rename_i hlawful
        cases h
        refine ⟨.transactionStatus _, fun status hstatus => ⟨raw, hlawful, ?_⟩⟩
        cases hstatus
        rfl
      · cases h
    | _ => cases h
  | height height =>
    cases c with
    | blockHeight =>
      simp only [told] at h
      split at h
      · rename_i hle
        cases h
        refine ⟨.blockHeight _, fun height hheight => ?_⟩
        cases hheight
        exact hle
      · cases h
    | _ => cases h

/-- Plays the service beside its chain; no write is left in flight. -/
def player : Player (machine wire) Hint where
  answer c hint n := (n.told wire c hint).map fun r =>
    (r.1, { n with service := r.2, verified := n.verified ++ noted c r.1 })
  drift d n := match d with
    | .lands _ => none
    | .block transactions =>
      if ∀ t ∈ transactions, n.height + 1 ≤ t.1.lastValidBlockHeight then
        some { n with height := n.height + 1, confirmed := n.confirmed ++ transactions }
      else none
  answers h := by
    obtain ⟨⟨x, w⟩, htold, heq⟩ := Option.map_eq_some_iff.mp h
    cases heq
    exact .mk (answers_of_told _ htold).1 (answers_of_told _ htold).2
  drifts {d n n'} h := by
    cases d with
    | lands p => cases h
    | block transactions =>
      simp only at h
      split at h
      · cases h
        exact .block ‹_›
      · cases h

namespace Sample

open Devnet.Sample (noon request digest)

/-- A signed transaction. -/
def transaction : VersionedTransaction := ⟨[List.Vector.replicate 64 7], [1, 2, 3]⟩

/-- The number of signatures, a byte while it is below 128, the signatures and the message; only
that transaction is ever read. -/
def library : WireFormat where
  serialize t := .ofNat t.signatures.length :: (t.signatures.map List.Vector.toList).flatten
    ++ t.message
  deserialize raw :=
    if raw = 1 :: List.replicate 64 7 ++ [1, 2, 3] then some transaction else none

/-- Its attempt. -/
def attempt : SignedAttempt :=
  { Devnet.Sample.attempt with
    signature := base58Encode (List.replicate 64 7)
    serializedTransactionBase64 := String.ofList (Base64.encode (library.serialize transaction)) }

/-- A request for funds, up to the moment its transaction is looked up. -/
def sending : List Hint :=
  [.service .flag, .service (.time noon), .service .store, .service (.time noon), .service .store,
    .service (.uuid "holder"), .service (.time noon), .service .store, .service .store,
    .service (.attempt attempt), .service (.time noon), .service .store,
    .service .store, .service .done,
    .service .store, .service (.time noon), .sent (.ok attempt.signature), .service .store,
    .service (.time noon), .service (.time noon), .service .store]

/-- The program of that request. -/
def program : Async Call Answer Unit :=
  (Devnet.Sample.service.fund request digest digest).run.forget

/-- Its first status is an error that is not confirmed. -/
def shaken : List Hint :=
  sending ++ [.status (some ⟨some "{}", some .processed⟩), .service .store,
    .service (.time noon), .service .store]

end Sample

/-- The operation of the sample request. -/
def Sample.operation (n : Network) : Option DurableOperation :=
  n.service.ledger.operations.get? (grantOperationId "owner" "asset" "2026-09-18")

/-- It is recorded as failed, and its transaction may still be confirmed. -/
def Sample.failedEarly (n : Network) : Bool :=
  n.height = 50 ∧ n.confirmed = [] ∧ (Sample.operation n).any fun op =>
    op.state = .failed ∧ op.attempt = some Sample.attempt

/-- **An error below the confirmed level** is recorded as a failure, and the transaction
succeeds. -/
theorem failed_then_confirmed : ∃ s, (machine Sample.library).Steps (opening 50 []) s
    ∧ ¬ Truthful Sample.library s := by
  have hplay : ((player Sample.library).play (opening 50 [])
      (.start Sample.program (.fund _ _ _ _) :: Sample.shaken.map (.reply 0))).any
        (fun s => Sample.failedEarly s.world) = true := by
    decide +kernel
  rw [Option.any_eq_true] at hplay
  obtain ⟨s, hplay, hearly⟩ := hplay
  refine ⟨s, Player.steps_of_play hplay, fun htruthful => ?_⟩
  simp only [Sample.failedEarly, Option.any_eq_true, Bool.decide_and, Bool.and_eq_true,
    decide_eq_true_eq] at hearly
  obtain ⟨hheight, hconfirmed, op, hop, hstate, hattempt⟩ := hearly
  obtain ⟨a, ha, -, -, hfailed⟩ := htruthful _ op hop (by rw [hstate]; rfl)
  obtain rfl : Sample.attempt = a := Option.some.inj (hattempt.symm.trans ha)
  have hfate : s.world.fate Sample.attempt = none := by rw [fate, hconfirmed]; rfl
  rcases hfailed hstate with hnever | ⟨hsucceeded, -⟩
  · -- the next block takes it
    have hblock : (machine Sample.library).Step s (.drifted (.block [(Sample.attempt, true)]))
        ⟨{ s.world with height := s.world.height + 1,
                        confirmed := s.world.confirmed ++ [(Sample.attempt, true)] },
          s.threads⟩ := by
      refine .drift (.block fun t ht => ?_)
      rw [List.mem_singleton.mp ht, hheight]
      decide
    exact hnever _ (.single ⟨_, hblock⟩) (fate_taken hfate true)
  · rw [hfate] at hsucceeded
    cases hsucceeded

/-- Whether an answer is one of those the discipline counts on. -/
def spares : (c : Call) → Network → Answer c → Bool
  | .transactionStatus _, _, .ok status => status.state ≠ .failed
  | .sendExact _ _, _, .error _ => false
  | _, _, _ => true

/-- The test is for the condition. -/
theorem spared_of_spares {c : Call} {n : Network} {x : Answer c}
    (h : spares c n x = true) : Spared c n x := by
  cases c with
  | transactionStatus attempt =>
    cases x with
    | ok status => exact fun hfailed => absurd hfailed (of_decide_eq_true h)
    | error e => trivial
  | sendExact operationId attempt =>
    cases x with
    | ok u => trivial
    | error e => cases h
  | now | randomUUID | writeDisabled | disableWrites | read | put | prepareFaucet
  | prepareObservation | verifyPrepared | blockHeight | verifyOutcome => trivial

/-- The operation is recorded as confirmed. -/
def Sample.funded (n : Network) : Bool :=
  (Sample.operation n).any fun op => op.state = .confirmed ∧ op.attempt = some Sample.attempt

/-- Its transaction is confirmed in the next block, and looked up. -/
theorem outcomes_truthful_sample : ∃ s,
  ((machine Sample.library).restrict Spared).Steps (opening 50 []) s
    ∧ Sample.funded s.world = true ∧ Truthful Sample.library s := by
  have hplay : (((player Sample.library).restrict spares spared_of_spares).play (opening 50 [])
      (.start Sample.program (.fund _ _ _ _) :: Sample.sending.map (.reply 0)
        ++ .drift (.block [(Sample.attempt, true)])
        :: [Hint.status (some ⟨none, some .finalized⟩), .service (.verified true), .service .store,
          .service (.time Devnet.Sample.noon), .service .store].map (.reply 0))).any
      (fun s => Sample.funded s.world) = true := by
    decide +kernel
  rw [Option.any_eq_true] at hplay
  obtain ⟨s, hplay, hfunded⟩ := hplay
  have hsteps := Player.steps_of_play hplay
  exact ⟨s, hsteps, hfunded, outcomes_truthful Sample.library 50 [] hsteps⟩

end Network

end Devnet

end DividendX
