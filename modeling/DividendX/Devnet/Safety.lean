import DividendX.Devnet.Budgets
import DividendX.Devnet.Service

/-!
# Safe programs

The discipline under which the service's programs run against one store. They owe two things: a
write carries out a change on the ledger it was computed from, and `sendExact` is called only with
the attempt stored for its operation. In return the ledger stays valid and within its budgets, and
only evolves, whatever the others do. Every function of the journal and of the service keeps to it,
so every interleaving of them does.
-/

namespace DividendX

namespace Devnet

open HostedDevnetLedger DurableOperation

/-- A change as the service makes it, carried out on a ledger. -/
def Next (c : Change) (v v' : HostedDevnetLedger) : Prop := c.Permitted ∧ c.mutate v = .ok v'

/-- A change keeps the ledger valid and within its budgets. -/
theorem Next.keeps {c : Change} {v v' : HostedDevnetLedger} (h : Next c v v') (hv : v.Valid)
    (hb : v.Budgeted) : v'.Valid ∧ v'.Budgeted ∧ v.Evolves v' := by
  obtain ⟨hpermitted, hmutate⟩ := h
  obtain ⟨next, happly, rfl⟩ := Change.mutate_eq_ok hmutate
  have heffect := Change.effect hv hpermitted happly
  have hvalid := heffect.valid hv
  have hbudgeted := heffect.budgeted hb
  have hevolves := Change.evolves hv hpermitted happly
  refine ⟨⟨hvalid.keyed, hvalid.coherent⟩, ?_, ⟨hevolves.fence, hevolves.operation, hevolves.lease⟩⟩
  exact ⟨hbudgeted.faucet, hbudgeted.faucet_le, hbudgeted.observation, hbudgeted.observation_le,
    hbudgeted.counts, hbudgeted.within⟩

/-- The store is in order and its ledger valid and within its budgets. -/
structure Inv (w : World) : Prop where
  orderly : CasStore.Orderly emptyLedger Next w.store
  valid : w.ledger.Valid
  budgeted : w.ledger.Budgeted

/-- The ledger evolves. -/
def Rely (w w' : World) : Prop := CasStore.Later emptyLedger Evolves w.store.cell w'.store.cell

/-- What must hold when a call is made. -/
def May : Call → World → Prop
  | .put p, w => CasStore.MayPut emptyLedger Next p w.store.cell
  | .sendExact operationId attempt, w =>
    ∃ op, w.ledger.operations.get? operationId = some op ∧ op.attempt = some attempt
  | _, _ => True

/-- **One call** of any instance keeps the service in order. -/
theorem inv_answered {c : Call} {w w' : World} {x : Answer c} (hi : Inv w) (hmay : May c w)
    (h : Answers c w x w') : Inv w' ∧ Rely w w' := by
  have hrefl : Rely w w := .refl Evolves.refl _
  cases h with
  | @put _ p _ store hput =>
    have hkeep : ∀ v, Next p.change (CasStore.content emptyLedger w.store.cell) v →
        v.Valid ∧ v.Budgeted ∧ w.ledger.Evolves v := fun v hv => hv.keeps hi.valid hi.budgeted
    refine ⟨⟨hput.orderly hi.orderly hmay, ?_, ?_⟩,
      hput.later Evolves.refl hmay fun v hv => (hkeep v hv).2.2⟩
    · cases hput with
      | saved heq => exact (hkeep _ (hmay.2 heq)).1
      | refused => exact hi.valid
      | lost e => exact hi.valid
    · cases hput with
      | saved heq => exact (hkeep _ (hmay.2 heq)).2.1
      | refused => exact hi.budgeted
      | lost e => exact hi.budgeted
  | disableWrites => exact ⟨⟨hi.orderly, hi.valid, hi.budgeted⟩, hrefl⟩
  | now | randomUUID | writeDisabled | read | readFails | prepareFaucet | prepareObservation
  | verifyPrepared | sendExact | transactionStatus | blockHeight | verifyOutcome =>
    exact ⟨hi, hrefl⟩

/-- So does a write that takes effect late. -/
theorem inv_drifted {p : Put Change HostedDevnetLedger} {w w' : World} (hi : Inv w)
    (h : Drifts p w w') : Inv w' ∧ Rely w w' := by
  cases h with
  | lands hlands =>
    have hkeep := (hlands.change hi.orderly).keeps hi.valid hi.budgeted
    refine ⟨⟨hlands.orderly hi.orderly, hkeep.1, hkeep.2.1⟩, hlands.later hi.orderly fun v hv => ?_⟩
    exact (hv.keeps hi.valid hi.budgeted).2.2

/-- The discipline of the service. -/
def discipline : Discipline machine where
  inv := Inv
  rely := Rely
  may := May
  refl _ := .refl Evolves.refl _
  trans h h' := .trans Evolves.trans h h'
  answered := inv_answered
  drifted := inv_drifted

theorem Rely.evolves {w w' : World} (h : Rely w w') : w.ledger.Evolves w'.ledger := h.2

/-! ## Disciplines of the journal

The service may run in a larger world, of which only a part is its own, and a discipline may ask for
more before an operation is settled. What the journal and the service do is safe in all of them.
-/

/-- A change that finishes an operation. -/
def Change.settles : Change → Bool
  | .release _ (some state) _ _ _ => state.terminal
  | .transition _ state _ _ => state.terminal
  | _ => false

/-- A discipline that keeps to that of the service, on the part `view` of its world. A change may be
asked for when it is `Ok`, as every change is that settles nothing. -/
structure Keeping {σ Drift : Type} {M : Machine σ Call Answer Drift}
    (D : Discipline M) (view : σ → World)
    (Ok : Change → σ → Prop) : Prop where
  answers : ∀ {c w x w'}, M.answers c w x w' → Answers c (view w) x (view w')
  inv : ∀ {w}, D.inv w → Inv (view w)
  rely : ∀ {w w'}, D.rely w w' → Rely (view w) (view w')
  free : ∀ {c w}, c.settles = false → Ok c w
  later : ∀ {c w w'}, Ok c w → D.rely w w' → Ok c w'
  may : ∀ {c w}, May c (view w) → (∀ p, c = .put p → Ok p.change w) → D.may c w

/-- The discipline itself is one of those the lemmas are for. -/
theorem keeping_discipline : Keeping discipline id fun _ _ => True where
  answers := id
  inv := id
  rely := id
  free _ := trivial
  later _ _ := trivial
  may h _ := h

/-! ## Journal -/

/-- A copy of an operation that was read at some time. -/
def Known (op : DurableOperation) (w : World) : Prop :=
  op.Coherent ∧ ∃ op', w.ledger.operations.get? op.id = some op' ∧ op.Advances op'

/-- An operation that was in the ledger is in it at any later time, no earlier in its life. -/
theorem Known.later {op : DurableOperation} {w w' : World} (h : Known op w) (hr : Rely w w') :
    Known op w' := by
  obtain ⟨hcoherent, op', hop', hadv⟩ := h
  obtain ⟨op'', hop'', hadv'⟩ := hr.evolves.operation hop'
  exact ⟨hcoherent, op'', hop'', hadv.trans hadv'⟩

/-- The attempt of a copy is the stored one. -/
theorem Known.attempt {op : DurableOperation} {a : SignedAttempt} {w : World} (h : Known op w)
    (ha : op.attempt = some a) :
    ∃ op', w.ledger.operations.get? op.id = some op' ∧ op'.attempt = some a := by
  obtain ⟨-, op', hop', hadv⟩ := h
  exact ⟨op', hop', hadv.attempt a ha⟩

section Generic

variable {σ Drift : Type} {M : Machine σ Call Answer Drift} {D : Discipline M} {view : σ → World}
  {Ok : Change → σ → Prop}

namespace Service

variable {α : Type} {w : σ}

/-- A call that needs nothing of the world. -/
theorem gives_call (hk : Keeping D view Ok) {c : Call} {f : Answer c → Except Failure α}
    (hmay : ∀ w, May c w)
    (hput : ∀ p, c ≠ .put p) : D.Gives (fun _ _ => True) (call c f) w :=
  fun _ _ _ => ⟨hk.may (hmay _) fun p hp => absurd hp (hput p), fun _ _ _ _ _ _ _ _ => trivial⟩

/-- A call that is no write may be made, and nothing need be known of its answer. -/
theorem gives_ask (hk : Keeping D view Ok) {c : Call} (hmay : ∀ w, May c w)
    (hput : ∀ p, c ≠ .put p) :
    D.Gives (fun _ _ => True) (ask c) w :=
  fun _ _ _ => ⟨hk.may (hmay _) fun p hp => absurd hp (hput p), fun _ _ _ _ _ _ _ _ => trivial⟩

theorem gives_now (hk : Keeping D view Ok) : D.Gives (fun _ _ => True) (ask .now) w :=
  gives_ask hk (fun _ => trivial) fun _ h => by cases h

/-- A value that is computed at once holds what it promises whatever others do meanwhile. -/
theorem gives_sync {x : Except Failure α} {Q : α → σ → Prop}
    (h : ∀ a w', x = .ok a → D.rely w w' → D.inv w' → Q a w') : D.Gives Q (sync x) w :=
  fun w' hr hi a ha => h a w' ha hr hi

end Service

namespace DurableJournal

open Service Discipline

variable {w : σ}

/-- What a read shows is a ledger of the history. -/
theorem gives_storeRead (hk : Keeping D view Ok) : D.Gives (fun cell w' =>
    CasStore.Later emptyLedger Evolves cell (view w').store.cell
      ∧ (CasStore.content emptyLedger cell).Valid
      ∧ (CasStore.content emptyLedger cell).Budgeted) storeRead w := by
  intro w₁ _ hi₁
  refine ⟨hk.may trivial (fun p hp => by cases hp), fun x w₂ hx w₃ hr₃ _ cell hcell => ?_⟩
  have hr := hk.rely hr₃
  have hinv := hk.inv hi₁
  have hx := hk.answers hx
  -- the store is where it was
  generalize view w₁ = v₁ at hx hinv
  generalize view w₂ = v₂ at hx hr
  cases hx with
  | read =>
    cases hcell
    exact ⟨hr, hinv.valid, hinv.budgeted⟩
  | readFails e => cases hcell

/-- **Read, change, write.** The ledger that `mutateJson` returns came from one change and was
stored at some time. -/
theorem gives_mutateJson (hk : Keeping D view Ok) {change : Service Change} {Q : Change → Prop}
    (hchange : ∀ w', D.rely w w' → D.Gives (fun c w'' => c.Permitted ∧ Q c ∧ Ok c w'') change w')
    (attempts : Nat) :
    D.Gives (fun v' w' => ∃ c v, Q c ∧ Next c v v' ∧ v.Valid ∧ v.Budgeted
      ∧ v'.Evolves (view w').ledger) (mutateJson change attempts) w := by
  induction attempts generalizing w with
  | zero => exact .throw
  | succ attempts ih =>
    refine (gives_storeRead hk).bind fun cell w₁ hr₁ _ ⟨hseen, hvalid, hbudgeted⟩ => ?_
    refine ((hchange w₁ hr₁).bind fun c w₂ hr₂ _ ⟨hpermitted, hq, hok⟩ => ?_)
    refine (gives_sync (Q := fun v' _ => Next c (CasStore.content emptyLedger cell) v')
      fun v' _ hv' _ _ => ⟨hpermitted, hv'⟩).bind fun v' w₃ hr₃ _ hnext => ?_
    have hseen₃ : CasStore.Later emptyLedger Evolves cell (view w₃).store.cell :=
      .trans Evolves.trans (.trans Evolves.trans hseen (hk.rely hr₂)) (hk.rely hr₃)
    -- the write may be made, and if it is acknowledged its ledger was stored
    have hput : D.Gives (fun saved w' => saved = true → v'.Evolves (view w').ledger)
        (storePut ⟨c, CasStore.etag cell, v'⟩) w₃ := by
      intro w₄ hr₄ _
      have hseen₄ : CasStore.Later emptyLedger Evolves cell (view w₄).store.cell :=
        .trans Evolves.trans hseen₃ (hk.rely hr₄)
      have hmay : May (.put ⟨c, CasStore.etag cell, v'⟩) (view w₄) :=
        CasStore.mayPut_of_read hseen₄ hnext
      refine ⟨hk.may hmay fun p hp => ?_, fun x w₅ hx w₆ hr₆ _ saved hsaved htrue => ?_⟩
      · cases hp
        exact hk.later hok (D.trans hr₃ hr₄)
      · have hr := hk.rely hr₆
        have hx := hk.answers hx
        generalize view w₄ = v₄ at hx
        generalize view w₅ = v₅ at hx hr
        cases hx with
        | put hp =>
          cases hp with
          | saved => exact hr.evolves
          | refused =>
            cases hsaved
            cases htrue
          | lost e => cases hsaved
    refine hput.bind fun saved w₄ hr₄ _ hsaved => .ite (fun htrue => ?_) fun _ => ?_
    · refine .pure fun w₅ hr₅ _ => ⟨c, _, hq, hnext, hvalid, hbudgeted, ?_⟩
      exact (hsaved htrue).trans (hk.rely hr₅).evolves
    · have hr : D.rely w w₄ := D.trans hr₁ (D.trans hr₂ (D.trans hr₃ hr₄))
      exact ih fun w' hr' => hchange w' (D.trans hr hr')

/-- **A change of the ledger**: it is written on the ledger it was computed from. -/
theorem gives_mutate (hk : Keeping D view Ok) {change : Service Change} {Q : Change → Prop}
    (hchange : ∀ w', D.rely w w' → D.Gives (fun c w'' => c.Permitted ∧ Q c ∧ Ok c w'') change w') :
    D.Gives (fun v' w' => ∃ c v, Q c ∧ Next c v v' ∧ v.Valid ∧ v.Budgeted
      ∧ v'.Evolves (view w').ledger) (mutate change) w :=
  gives_mutateJson hk hchange 8

theorem gives_read (hk : Keeping D view Ok) : D.Gives (fun _ _ => True) read w := by
  refine (gives_storeRead hk).bind fun cell w₁ _ _ _ => ?_
  refine (gives_sync (Q := fun _ _ => True) fun _ _ _ _ _ => trivial).bind fun _ _ _ _ _ => ?_
  exact .pure fun _ _ _ => trivial

/-- An operation of a returned ledger is known. -/
theorem gives_operationOf (hk : Keeping D view Ok) {v v' : HostedDevnetLedger}
    {c : Change} {id : OperationId}
    (hnext : Next c v v') (hv : v.Valid) (hb : v.Budgeted) (hevolves : v'.Evolves (view w).ledger) :
    D.Gives (fun op w' => Known op (view w') ∧ op.id = id) (operationOf v' id) w := by
  refine gives_sync fun op w' hop hr _ => ?_
  have hget := Result.okOr_eq_ok.mp hop
  have hvalid := (hnext.keeps hv hb).1
  obtain ⟨op', hop', hadv⟩ := (hevolves.trans (hk.rely hr).evolves).operation hget
  refine ⟨⟨hvalid.coherent hget, op', ?_, hadv⟩, hvalid.keyed hget⟩
  rw [hvalid.keyed hget]
  exact hop'

/-- A method that changes the ledger and returns an operation of it. -/
theorem gives_mutate_operationOf (hk : Keeping D view Ok) {change : Service Change}
    {id : OperationId}
    (hchange : ∀ w', D.rely w w' → D.Gives (fun c w'' => c.Permitted ∧ True ∧ Ok c w'') change w') :
    D.Gives (fun op w' => Known op (view w') ∧ op.id = id)
      (do let ledger ← mutate change; operationOf ledger id) w := by
  refine (gives_mutate (Q := fun _ => True) hk hchange).bind
    fun v' w₁ _ _ ⟨c, v, _, hnext, hv, hb, hevolves⟩ => ?_
  exact gives_operationOf hk hnext hv hb hevolves

/-- The operation that a change returns is in the ledger. -/
theorem gives_mutate_known (hk : Keeping D view Ok) {change : Service Change} {id : OperationId}
    (hchange : ∀ w', D.rely w w' → D.Gives (fun c w'' => c.Permitted ∧ True ∧ Ok c w'') change w') :
    D.Gives (fun op w' => Known op (view w'))
      (do let ledger ← mutate change; operationOf ledger id) w :=
  (gives_mutate_operationOf hk hchange).mono fun _ _ _ _ hop => hop.1

/-- A reserved grant is known. -/
theorem gives_reserveGrant (hk : Keeping D view Ok) {owner assetId : String}
    {visitorHash ipHash : Digest} :
    D.Gives (fun op w' => Known op (view w'))
      (reserveGrant owner assetId visitorHash ipHash) w := by
  refine (gives_now hk).bind fun now w₁ _ _ _ => gives_mutate_known hk fun w₂ _ => ?_
  refine (gives_now hk).bind fun createdAt w₃ _ _ _ => ?_
  exact .pure fun _ _ _ => ⟨trivial, trivial, hk.free rfl⟩

/-- So is a reserved observation. -/
theorem gives_reserveObservation (hk : Keeping D view Ok) {assetId : String} :
    D.Gives (fun op w' => Known op (view w')) (reserveObservation assetId) w := by
  refine (gives_now hk).bind fun now w₁ _ _ _ => gives_mutate_known hk fun w₂ _ => ?_
  exact .pure fun _ _ _ => ⟨trivial, trivial, hk.free rfl⟩

/-- A lease is handed out for the operation it was asked for. -/
theorem gives_acquire (hk : Keeping D view Ok) {operation : DurableOperation} :
    D.Gives (fun lease _ => lease.operationId = operation.id) (acquire operation) w := by
  refine .ite (fun _ => .throw) fun _ => ?_
  refine (gives_ask hk (c := .randomUUID) (fun _ => trivial) fun _ h => by cases h).bind
    fun holder w₁ _ _ _ => ?_
  refine (gives_now hk).bind fun now w₂ _ _ _ => ?_
  refine (gives_mutate hk (Q := (· = .acquire operation.id operation.kind holder now))
    fun w₃ _ => ?_).bind
    fun v' w₃ _ _ hnext => gives_sync fun lease w₄ hlease _ _ => ?_
  · exact .pure fun _ _ _ => ⟨trivial, rfl, hk.free rfl⟩
  · obtain ⟨_, v, rfl, ⟨-, hmutate⟩, -⟩ := hnext
    obtain ⟨next, happly, rfl⟩ := Change.mutate_eq_ok hmutate
    obtain ⟨current, expiresAt, -, -, rfl⟩ := acquire_eq_ok happly
    -- the lease read back is the one the change stored
    have hstored := Result.okOr_eq_ok.mp hlease
    rw [Leases.get_set, if_pos rfl] at hstored
    cases hstored
    rfl

/-- A prepared operation has its attempt. -/
theorem gives_persistPrepared (hk : Keeping D view Ok) {operationId : OperationId}
    {lease : PreparationLease}
    {attempt : SignedAttempt} :
    D.Gives (fun op w' => Known op (view w') ∧ op.id = operationId)
      (persistPrepared operationId lease attempt) w := by
  refine (gives_now hk).bind fun now w₁ _ _ _ => gives_mutate_operationOf hk fun w₂ _ => ?_
  exact .pure fun _ _ _ => ⟨trivial, trivial, hk.free rfl⟩

/-- The fence only reads. -/
theorem gives_assertSendFence (hk : Keeping D view Ok) {operationId : OperationId}
    {lease : PreparationLease} :
    D.Gives (fun _ _ => True) (assertSendFence operationId lease) w := by
  refine (gives_read hk).bind fun v w₁ _ _ _ => ?_
  refine (gives_now hk).bind fun now w₂ _ _ _ => ?_
  exact gives_sync fun _ _ _ _ _ => trivial

/-- A lease is given up, perhaps with a new state for its operation. -/
theorem gives_release (hk : Keeping D view Ok) {lease : PreparationLease}
    {state : Option OperationState}
    {errorCode : Option String} (hstate : ∀ s ∈ state, s = .submitted ∨ s.terminal = true)
    (hok : ∀ checkedAt stampedAt, Ok (.release lease state errorCode checkedAt stampedAt) w) :
    D.Gives (fun op w' => Known op (view w')) (release lease state errorCode) w := by
  refine gives_mutate_known hk fun w₁ hr₁ => ?_
  refine (gives_now hk).bind fun checkedAt w₂ hr₂ _ _ => ?_
  refine (gives_now hk).bind fun stampedAt w₃ hr₃ _ _ => ?_
  refine .pure fun w₄ hr₄ _ =>
    ⟨?_, trivial, hk.later (hok _ _) (D.trans hr₁ (D.trans hr₂ (D.trans hr₃ hr₄)))⟩
  cases state with
  | none => trivial
  | some s => exact hstate s rfl

/-- A release that finishes nothing. -/
theorem gives_releaseFree (hk : Keeping D view Ok) {lease : PreparationLease}
    {state : Option OperationState}
    {errorCode : Option String} (hstate : ∀ s ∈ state, s = .submitted) :
    D.Gives (fun op w' => Known op (view w')) (release lease state errorCode) w := by
  refine gives_release hk (fun s hs => .inl (hstate s hs)) fun _ _ => hk.free ?_
  cases state with
  | none => rfl
  | some s =>
    rw [hstate s rfl]
    rfl

/-- An operation moves on. -/
theorem gives_transition (hk : Keeping D view Ok) {operationId : OperationId}
    {state : OperationState}
    {errorCode : Option String}
    (hok : ∀ stampedAt, Ok (.transition operationId state errorCode stampedAt) w) :
    D.Gives (fun op w' => Known op (view w')) (transition operationId state errorCode) w := by
  refine gives_mutate_known hk fun w₁ hr₁ => ?_
  refine (gives_now hk).bind fun stampedAt w₂ hr₂ _ _ => ?_
  exact .pure fun w₃ hr₃ _ => ⟨trivial, trivial, hk.later (hok _) (D.trans hr₁ (D.trans hr₂ hr₃))⟩

theorem gives_disableFaucet (hk : Keeping D view Ok) {reason : String} :
    D.Gives (fun _ _ => True) (disableFaucet reason) w := by
  refine (gives_mutate hk (Q := fun _ => True) fun w₁ _ => ?_).bind fun v' w₁ _ _ _ => ?_
  · exact .pure fun _ _ _ => ⟨trivial, trivial, hk.free rfl⟩
  · exact .pure fun _ _ _ => trivial

end DurableJournal

/-! ## Service -/

/-- What is left to await is safe at any later time. -/
def Promised (D : Discipline M) (view : σ → World) (promise : Service DurableOperation)
    (w : σ) : Prop :=
  D.Gives (fun op w' => Known op (view w')) promise w

open Service HostedDevnetService in
/-- What a discipline has to say of the methods that may settle an operation. -/
structure Settling (D : Discipline M) (view : σ → World) : Prop where
  reconcile : ∀ {operation : DurableOperation} {w : σ}, Known operation (view w) →
    D.Gives (fun op w' => Known op (view w')) (reconcile operation) w
  send : ∀ {service : HostedDevnetService} {current : DurableOperation}
    {lease : PreparationLease} {w : σ},
    Known current (view w) → lease.operationId = current.id → D.Gives (Promised D view)
      (do let sent ← settle (sendExact current); service.afterSend current lease sent) w

namespace HostedDevnetService

open Service DurableJournal Discipline

variable {service : HostedDevnetService} {w : σ} {operation current : DurableOperation}
  {lease : PreparationLease} {prepare : Service SignedAttempt}

/-- Writes are disabled, once and for all. -/
theorem gives_disableWrites (hk : Keeping D view Ok) :
    D.Gives (fun _ _ => True) service.disableWrites w :=
  gives_ask hk (c := .disableWrites _) (fun _ => trivial) fun _ h => by cases h

/-- Whether the faucet has funds is asked of the chain. -/
theorem gives_faucetAvailable (hk : Keeping D view Ok) :
    D.Gives (fun _ _ => True) service.faucetAvailable w := by
  refine (gives_ask hk (c := .writeDisabled _) (fun _ => trivial) fun _ h => by cases h).bind
    fun disabled w₁ _ _ _ => .ite (fun _ => ?_) fun _ => ?_
  · exact .pure fun _ _ _ => trivial
  · refine .tryCatch ?_ fun e w₂ _ _ => ?_
    · refine (gives_read hk).bind fun v w₂ _ _ _ => ?_
      refine (gives_now hk).bind fun now w₃ _ _ _ => ?_
      exact .pure fun _ _ _ => trivial
    · exact (gives_disableWrites hk).bind fun _ _ _ _ _ => .pure fun _ _ _ => trivial

/-- The lease that is got is one of the operation. -/
theorem gives_acquireUnlessBusy (hk : Keeping D view Ok) :
    D.Gives (fun held _ => ∀ lease, held = some lease → lease.operationId = operation.id)
      (acquireUnlessBusy operation) w := by
  refine (gives_acquire hk).lift.bind fun r w₁ _ _ hr => ?_
  split
  · refine .pure fun _ _ _ lease hlease => ?_
    cases hlease
    exact hr _ rfl
  · exact .pure fun _ _ _ _ h => by cases h
  · exact .throw

/-- A lease that cannot be given up ends in disabled writes. -/
theorem gives_releaseOrDisable (hk : Keeping D view Ok) {state : OperationState}
    {errorCode : Option String}
    (hknown : Known current (view w)) (hstate : state = .submitted ∨ state.terminal = true)
    (hok : ∀ checkedAt stampedAt,
      Ok (.release lease (some state) errorCode checkedAt stampedAt) w) :
    D.Gives (fun op w' => Known op (view w'))
      (service.releaseOrDisable current lease state errorCode) w := by
  refine .tryCatch (gives_release hk (fun s hs => ?_) hok) fun e w₁ hr₁ _ => ?_
  · cases hs
    exact hstate
  · refine (gives_disableWrites hk).bind fun _ w₂ hr₂ _ _ => .pure fun w₃ hr₃ _ => ?_
    exact hknown.later (hk.rely (D.trans (D.trans hr₁ hr₂) hr₃))

/-- What a settled operation leaves to await. -/
theorem promised_pure (hk : Keeping D view Ok) (hknown : Known operation (view w)) :
    Promised D view (pure operation) w :=
  .pure fun _ hr _ => hknown.later (hk.rely hr)

/-- After a transaction was sent: once it is recorded as submitted, it is looked up. -/
theorem gives_afterSend (hk : Keeping D view Ok) {sent : Except Failure Unit}
    (hknown : Known current (view w))
    (hreconcile : ∀ {operation : DurableOperation} {w : σ}, Known operation (view w) →
      D.Gives (fun op w' => Known op (view w')) (reconcile operation) w)
    (hok : ∀ e checkedAt stampedAt, sent = .error e →
      (e.serviceError?.map ServiceError.code) = some "SIGNATURE_MISMATCH" →
      Ok (.release lease (some .failed) (some "SIGNATURE_MISMATCH") checkedAt stampedAt) w) :
    D.Gives (Promised D view) (service.afterSend current lease sent) w := by
  cases sent with
  | error e =>
    refine .ite (fun hmismatch => ?_) fun _ => ?_
    · refine (gives_releaseOrDisable hk hknown (.inr rfl) fun _ _ => hok e _ _ rfl hmismatch).bind
        fun op w₁ _ _ hop => ?_
      exact .pure fun w₂ hr₂ _ => promised_pure hk (hop.later (hk.rely hr₂))
    · refine (gives_releaseOrDisable hk hknown (.inl rfl) fun _ _ => hk.free rfl).bind
        fun op w₁ _ _ hop => ?_
      exact .pure fun w₂ hr₂ _ => promised_pure hk (hop.later (hk.rely hr₂))
  | ok u =>
    have hrelease : D.Gives (fun op w' => Known op (view w'))
        (release lease (some .submitted) none) w :=
      gives_releaseFree hk fun s hs => by
        cases hs
        rfl
    refine hrelease.lift.bind fun r w₁ hr₁ _ hr => ?_
    cases r with
    | ok op =>
      exact .pure fun w₂ hr₂ _ => hreconcile ((hr op rfl).later (hk.rely hr₂))
    | error e =>
      refine (gives_disableWrites hk).bind fun _ w₂ hr₂ _ _ => .pure fun w₃ hr₃ _ =>
        promised_pure hk ?_
      exact hknown.later (hk.rely (D.trans (D.trans hr₁ hr₂) hr₃))

/-- What is prepared under the lease is kept with the operation. -/
theorem gives_prepareReserved (hk : Keeping D view Ok)
    (hprepare : ∀ w, D.Gives (fun _ _ => True) prepare w)
    (hknown : Known current (view w)) :
    D.Gives (fun op w' => Known op (view w') ∧ op.id = current.id)
      (prepareReserved current lease prepare) w := by
  refine .ite (fun _ => ?_) fun _ => .pure fun w' hr _ => ⟨hknown.later (hk.rely hr), rfl⟩
  exact (hprepare w).bind fun attempt w₁ _ _ _ => gives_persistPrepared hk

/-- A prepared operation is sent once, and settled. -/
theorem gives_submit (hk : Keeping D view Ok) (hs : Settling D view)
    (hprepare : ∀ w, D.Gives (fun _ _ => True) prepare w) (hknown : Known current (view w))
    (hlease : lease.operationId = current.id) :
    D.Gives (Promised D view) (service.submit current lease prepare) w := by
  refine (gives_prepareReserved hk hprepare hknown).bind fun op w₁ _ _ ⟨hop, hid⟩ => ?_
  refine (gives_call hk (c := .verifyPrepared _) (fun _ => trivial) fun _ h => by cases h).bind
    fun _ w₂ hr₂ _ _ => ?_
  refine (gives_assertSendFence hk).bind fun _ w₃ hr₃ _ _ => ?_
  exact hs.send (hop.later (hk.rely (D.trans hr₂ hr₃))) (hlease.trans hid.symm)

/-- An operation whose preparation failed is given up. -/
theorem gives_abandon (hk : Keeping D view Ok) {e : Failure} :
    D.Gives (Promised D view) (service.abandon current lease e) w := by
  have hrelease : D.Gives (fun _ _ => True) (tryCatch (do
      let _ ← release lease none none
      pure ()) fun _ => service.disableWrites) w := by
    refine .tryCatch ?_ fun _ _ _ _ => gives_disableWrites hk
    refine (gives_releaseFree hk fun s hs => ?_).bind fun _ _ _ _ _ => .pure fun _ _ _ => trivial
    cases hs
  refine hrelease.bind fun _ w₁ _ _ _ => ?_
  split
  · refine .ite (fun _ => ?_) fun _ => .throw
    refine (gives_disableWrites hk).bind fun _ w₂ _ _ _ => ?_
    refine (Gives.tryCatch (gives_disableFaucet hk) fun _ _ _ _ => ?_).bind fun _ _ _ _ _ => .throw
    exact .pure fun _ _ _ => trivial
  · exact .throw

/-- **One operation**, from its reservation on. -/
theorem gives_execute (hk : Keeping D view Ok) (hs : Settling D view)
    (hprepare : ∀ w, D.Gives (fun _ _ => True) prepare w) (hknown : Known operation (view w)) :
    D.Gives (fun op w' => Known op (view w')) (service.execute operation prepare) w := by
  refine (hs.reconcile hknown).bind fun op w₁ _ _ hop => .ite (fun _ => ?_) fun _ => ?_
  · exact .pure fun w₂ hr₂ _ => hop.later (hk.rely hr₂)
  · refine (gives_acquireUnlessBusy hk).bind fun held w₂ hr₂ _ hlease => ?_
    have hop₂ := hop.later (hk.rely hr₂)
    split
    · exact .pure fun w₃ hr₃ _ => hop₂.later (hk.rely hr₃)
    · refine (Gives.tryCatch (gives_submit hk hs hprepare hop₂ (hlease _ rfl))
        fun e w₃ _ _ => ?_).bind
        fun promise w₃ _ _ hpromise => hpromise
      exact gives_abandon hk

/-- **One funding request.** -/
theorem gives_fund (hk : Keeping D view Ok) (hs : Settling D view) {request : FaucetRequest}
    {visitorHash ipHash : Digest} :
    D.Gives (fun _ _ => True) (service.fund request visitorHash ipHash) w := by
  refine (gives_ask hk (c := .writeDisabled _) (fun _ => trivial) fun _ h => by cases h).bind
    fun disabled w₁ _ _ _ => .ite (fun _ => .throw) fun _ => ?_
  refine .ite (fun _ => .throw) fun _ => ?_
  split
  · exact .throw
  · refine .ite (fun _ => .throw) fun _ => ?_
    have hbody : D.Gives (fun _ _ => True) (do
        let operation ← reserveGrant request.owner request.assetId visitorHash ipHash
        service.execute operation
          (call (.prepareFaucet request operation.reservationLamports) id)) w₁ := by
      refine (gives_reserveGrant hk).bind fun op w₂ _ _ hop => ?_
      refine (gives_execute hk hs (fun w => ?_) hop).mono fun _ _ _ _ _ => trivial
      exact gives_call hk (c := .prepareFaucet _ _) (fun _ => trivial) fun _ h => by cases h
    refine (Gives.tryCatch hbody fun e w₂ _ _ => ?_).bind fun _ _ _ _ _ =>
      .pure fun _ _ _ => trivial
    split
    · exact .throw
    · exact (gives_disableWrites hk).bind fun _ _ _ _ _ => .throw

/-- **One observation.** -/
theorem gives_refreshObservation (hk : Keeping D view Ok) (hs : Settling D view)
    {asset : RegistryAsset} :
    D.Gives (fun _ _ => True) (service.refreshObservation asset) w := by
  refine (gives_reserveObservation hk).bind fun op w₁ _ _ hop => ?_
  refine (gives_execute hk hs (fun w => ?_) hop).bind fun _ _ _ _ _ => .pure fun _ _ _ => trivial
  exact gives_call hk (c := .prepareObservation _ _) (fun _ => trivial) fun _ h => by cases h

/-- One after the other, whatever becomes of each. -/
theorem gives_refreshAssets (hk : Keeping D view Ok) (hs : Settling D view)
    (assets : List RegistryAsset) :
    D.Gives (fun _ _ => True) (service.refreshAssets assets) w := by
  induction assets generalizing w with
  | nil => exact .pure fun _ _ _ => trivial
  | cons asset rest ih =>
    refine (gives_refreshObservation hk hs).lift.bind fun r w₁ _ _ _ => ?_
    cases r with
    | error e => exact .pure fun _ _ _ => trivial
    | ok value =>
      refine .ite (fun _ => .pure fun _ _ _ => trivial) fun _ => ?_
      exact ih.bind fun _ _ _ _ _ => .pure fun _ _ _ => trivial

end HostedDevnetService

/-- **Every program that may be started is safe.** -/
theorem Keeping.starts (hk : Keeping D view Ok) (hs : Settling D view)
    {p : Async Call Answer Unit} (hp : Starts p)
    (w : σ) : D.Safe (fun _ _ => True) p w := by
  cases hp with
  | fund service request visitorHash ipHash => exact (HostedDevnetService.gives_fund hk hs).forget
  | refreshObservations service => exact (HostedDevnetService.gives_refreshAssets hk hs _).forget
  | faucetAvailable service => exact (HostedDevnetService.gives_faucetAvailable hk).forget
  | reserveGrant owner assetId visitorHash ipHash =>
    exact (DurableJournal.gives_reserveGrant hk).forget
  | reserveObservation assetId => exact (DurableJournal.gives_reserveObservation hk).forget

end Generic

/-! ## The service on its own -/

namespace HostedDevnetService

open Service DurableJournal Discipline

variable {w : World} {operation current : DurableOperation}

/-- The outcome of a confirmed operation is verified before it is recorded. -/
theorem gives_reconcileConfirmed : discipline.Gives Known (reconcileConfirmed operation) w := by
  refine (gives_call keeping_discipline (c := .verifyOutcome _) (fun _ => trivial)
    fun _ h => by cases h).bind
    fun verified w₁ _ _ _ => ?_
  exact .ite (fun _ => gives_transition keeping_discipline fun _ => trivial)
    fun _ => gives_transition keeping_discipline fun _ => trivial

/-- An operation without a status is settled once its blocks have passed. -/
theorem gives_reconcileUndecided {attempt : SignedAttempt} (hknown : Known operation w) :
    discipline.Gives Known (reconcileUndecided operation attempt) w := by
  refine (gives_call keeping_discipline (c := .blockHeight) (fun _ => trivial)
    fun _ h => by cases h).bind
    fun height w₁ hr₁ _ _ => .ite (fun _ => ?_) fun _ => ?_
  · refine (gives_call keeping_discipline (c := .transactionStatus _) (fun _ => trivial)
      fun _ h => by cases h).bind fun final w₂ _ _ _ => ?_
    cases final.state with
    | confirmed => exact gives_reconcileConfirmed
    | failed | missing | pending => exact gives_transition keeping_discipline fun _ => trivial
  · exact .pure fun w' hr _ => hknown.later (discipline.trans hr₁ hr)

/-- **One reconciliation.** -/
theorem gives_reconcile (hknown : Known operation w) :
    discipline.Gives Known (reconcile operation) w := by
  refine .ite (fun _ => .pure fun w' hr _ => hknown.later hr) fun _ => ?_
  split
  · exact .pure fun w' hr _ => hknown.later hr
  · rename_i attempt _
    refine (gives_call keeping_discipline (c := .transactionStatus _) (fun _ => trivial)
      fun _ h => by cases h).bind fun status w₁ hr₁ _ _ => ?_
    cases status.state with
    | confirmed => exact gives_reconcileConfirmed
    | failed => exact gives_transition keeping_discipline fun _ => trivial
    | missing | pending => exact gives_reconcileUndecided (hknown.later hr₁)

/-- **Only stored bytes are sent.** -/
theorem gives_sendExact (hknown : Known current w) :
    discipline.Gives (fun _ _ => True) (sendExact current) w := by
  rw [sendExact]
  split
  · rename_i attempt hattempt
    intro w₁ hr₁ _
    exact ⟨(hknown.later hr₁).attempt hattempt, fun _ _ _ _ _ _ _ _ => trivial⟩
  · exact .throw

theorem settling_discipline : Settling discipline id where
  reconcile := gives_reconcile
  send hknown _ := (gives_sendExact hknown).lift.bind fun _ _ hr₁ _ _ =>
    gives_afterSend keeping_discipline (hknown.later hr₁) gives_reconcile fun _ _ _ _ _ => trivial

end HostedDevnetService

/-! ## All interleavings -/

/-- What may be called keeps the service in order. -/
theorem discipline_guards : discipline.Guards :=
  fun _ hp w _ => keeping_discipline.starts HostedDevnetService.settling_discipline hp w

/-- An empty store, and nobody at work. -/
theorem sound_start : discipline.Sound start := by
  refine ⟨⟨fun p hp => ?_, valid_emptyLedger, budgeted_emptyLedger⟩, fun p hp => ?_⟩
  · cases hp
  · cases hp

/-- Every site that can be reached is in good order. -/
theorem sound_of_steps {s : Site World Call Answer} (h : machine.Steps start s) :
    discipline.Sound s :=
  (sound_start.steps discipline_guards h).1

end Devnet

end DividendX
