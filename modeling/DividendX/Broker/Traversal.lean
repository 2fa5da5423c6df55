import DividendX.Broker.Calls

/-!
# The broker's methods keep the discipline

What a call sees of a sandbox and what it may say of it: a sandbox that was seen has come alive, one
that was seen to have ended, or was stopped, is over, if it had come alive or its session is past
its end (`Seen`, `Stopped`).
-/

namespace DividendX

namespace Broker

open Devnet (Instant Digest)
open Result History Async

variable {deps : Deps} {rules : Rules} {w w' w₀ : World} {id : SessionId} {r r' : SessionRecord}
  {T T' R : Set Token}

/-- No rights are needed. -/
theorem noRights : (∅ : Set Token) ⊆ T := Set.empty_subset T

/-! ## The provider -/

/-- A view of the sandbox of a session, asked for at `w₀` or later. -/
structure Seen (deps : Deps) (rules : Rules) (w₀ w : World) (id : SessionId)
    (view : ProviderView) : Prop where
  domain : view.domain ≠ some ""
  born : Reliable deps rules → view.status ≠ .missing → Born deps w id
  ended : Reliable deps rules → view.status.terminal = true →
    (Born deps w₀ id ∨ Past w₀ id) ∨ view.status ≠ .missing → Over deps w id

/-- The sandbox of a session was stopped at `w₀` or later. -/
def Stopped (deps : Deps) (rules : Rules) (w₀ w : World) (id : SessionId) : Prop :=
  Reliable deps rules → Born deps w₀ id ∨ Past w₀ id → Over deps w id

/-- What was seen stays seen. -/
theorem Seen.later {view : ProviderView} (h : Seen deps rules w₀ w id view)
    (hm : Moves deps rules w w') :
    Seen deps rules w₀ w' id view :=
  ⟨h.domain, fun hr hne => (h.born hr hne).later hm,
    fun hr ht hc => hm.ended hr id (h.ended hr ht hc)⟩

/-- And was seen since any earlier moment. -/
theorem Seen.earlier {view : ProviderView} {w₁ : World} (h : Seen deps rules w₁ w id view)
    (hm : Moves deps rules w₀ w₁) : Seen deps rules w₀ w id view :=
  ⟨h.domain, h.born,
    fun hr ht hc => h.ended hr ht (hc.imp_left fun hb => bornOrPast_later hb hm hr.steady)⟩

/-- **A view** of a sandbox shows what it is. -/
theorem gives_get {name : String} (hR : R ⊆ T) (hname : name = deps.providerName id) :
    (ownership deps rules).Gives R (fun _ view w' => Seen deps rules w w' id view)
      (call (.get name) fun x => x) T w := by
  subst hname
  refine .call (fun _ => rfl) hR (fun _ _ _ => trivial)
    fun w₁ x w₂ view hr₁ _ hx hview w₃ hr₃ _ => ?_
  refine Seen.later (Seen.earlier ?_ hr₁.moves) hr₃.moves
  obtain ⟨hreplies, hrules⟩ := hx
  cases hreplies with
  | get hdomain =>
    cases hview
    refine ⟨hdomain view rfl, fun hr hne => (hr.get _ _ _ _ hrules).2.2 hne, fun hr ht hc => ?_⟩
    obtain ⟨-, hdead, hborn⟩ := hr.get _ _ _ _ hrules
    refine ⟨hdead ht, ?_⟩
    rcases hc with hold | hne
    · exact hold
    · exact .inl (hborn hne)

/-- An observation may fail, and then shows nothing. -/
theorem gives_observe {name : String} (hR : R ⊆ T) (hname : name = deps.providerName id) :
    (ownership deps rules).Gives R
      (fun _ result w' => ∀ view, result = some view → Seen deps rules w w' id view)
      (observe name) T w := by
  refine (gives_get hR hname).settle.bind (Set.Subset.refl R) hR
    fun T₁ result w₁ _ _ _ hresult => ?_
  cases result with
  | ok view =>
    refine .pure fun w₂ hr₂ _ view' heq => ?_
    cases heq
    exact (hresult view rfl).later hr₂.moves
  | error e => exact .pure fun _ _ _ => by simp

/-- **A stop** ends the sandbox. -/
theorem gives_stopAndDelete {name : String} (hR : R ⊆ T) :
    (ownership deps rules).Gives R
      (fun _ _ w' => ∀ id, name = deps.providerName id → Stopped deps rules w w' id)
      (call (.stopAndDelete name) fun x => x) T w := by
  refine .call (fun _ => rfl) hR (fun _ _ _ => trivial)
    fun w₁ x w₂ _ hr₁ _ hx hok w₃ hr₃ _ id hname hrel hb => ?_
  subst hname
  obtain ⟨hreplies, -⟩ := hx
  cases hreplies with
  | stops =>
    have hkill := Moves.kill deps rules w₁ (deps.providerName id)
    refine hr₃.moves.ended hrel id ⟨kill_ne_live w₁ _, ?_⟩
    exact bornOrPast_later hb (hr₁.moves.trans hkill) hrel.steady
  | stopFails e => cases hok
  | stopFailsLate e => cases hok

/-- If it cannot be stopped it is looked at. -/
theorem gives_stopOrObserve {name : String} (hR : R ⊆ T) (hname : name = deps.providerName id) :
    (ownership deps rules).Gives R
      (fun _ result w' => (result.1 = true → Stopped deps rules w w' id)
        ∧ ∀ view, result.2 = some view → Seen deps rules w w' id view)
      (stopOrObserve name) T w := by
  refine (gives_stopAndDelete hR).settle.bind (Set.Subset.refl R) hR
    fun T₁ result w₁ hR₁ hr₁ _ hresult => ?_
  cases result with
  | ok _ =>
    refine .pure fun w₂ hr₂ _ => ⟨fun _ hrel hb => ?_, by simp⟩
    exact hr₂.moves.ended hrel id (hresult () rfl id hname hrel hb)
  | error e =>
    refine (gives_observe hR₁ hname).bind (Set.Subset.refl R) hR₁
      fun T₂ observed w₂ _ _ _ hobserved => ?_
    refine .pure fun w₃ hr₃ _ => ⟨nofun, fun view heq => ?_⟩
    exact ((hobserved view heq).later hr₃.moves).earlier hr₁.moves

/-! ## Evidence -/

@[simp] theorem RecordedStatus.terminal_reported (s : ProviderStatus) :
    (RecordedStatus.reported s).terminal = s.terminal := by
  cases s <;> rfl

/-- What was seen or done to the sandbox of a session that had come alive or is past its end. -/
theorem over_of_recorded (stopped : Bool) {observed : Option ProviderView}
    (hrel : Reliable deps rules)
    (hb : Born deps w₀ id ∨ Past w₀ id) (hstopped : stopped = true → Stopped deps rules w₀ w id)
    (hseen : ∀ view, observed = some view → Seen deps rules w₀ w id view)
    (ht : (if stopped then RecordedStatus.deleted else observedStatus observed).terminal = true) :
    Over deps w id := by
  cases stopped with
  | true => exact hstopped rfl hrel hb
  | false =>
    cases observed with
    | none => cases ht
    | some view =>
      refine (hseen view rfl).ended hrel ?_ (.inl hb)
      simpa [observedStatus] using ht

/-- A change that records what was seen of the sandbox, and leaves the session failed. -/
theorem evidence_failed {m : Mutation} (hstatus : m.status? = some .failed)
    (hover : ∀ s, m.seen? = some s → s.terminal = true → Over deps w id)
    (hborn : ∀ s, m.seen? = some s → s ≠ .unknown → Born deps w id ∨ Past w id) :
    Evidence deps w id m := by
  refine ⟨hover, hborn, fun s hs hc => ?_, fun hs => ?_, fun view hm => ?_⟩
  · rw [hstatus] at hs
    cases hs
    rcases hc with hc | hc <;> cases hc
  · rw [hstatus] at hs
    cases hs
  · rw [hm] at hstatus
    cases hstatus

/-- A change that leaves the status. -/
theorem evidence_seen {m : Mutation} (hstatus : m.status? = none)
    (hover : ∀ s, m.seen? = some s → s.terminal = true → Over deps w id)
    (hborn : ∀ s, m.seen? = some s → s ≠ .unknown → Born deps w id ∨ Past w id)
    (hlaunched : ∀ view, m = .launchFence view → Born deps w id) : Evidence deps w id m := by
  refine ⟨hover, hborn, fun s hs => ?_, fun hs => ?_, hlaunched⟩
  · rw [hstatus] at hs
    cases hs
  · rw [hstatus] at hs
    cases hs

/-! ## Shared parts -/

/-- A session that fails is closed with what was seen of its sandbox. -/
theorem gives_failClosed {α : Type} {Q : Set Token → α → World → Prop} {code : String} (hR : R ⊆ T)
    (hname : r.providerName = deps.providerName r.id)
    (hb : Reliable deps rules → Born deps w r.id ∨ Past w r.id) :
    (ownership deps rules).Gives R Q (deps.failClosed r code) T w := by
  refine (gives_closeMeterOf hR).settle.bind (Set.Subset.refl R) hR fun T₁ _ w₁ hR₁ hr₁ _ _ => ?_
  refine (gives_stopOrObserve hR₁ hname).bind (Set.Subset.refl R) hR₁
    fun T₂ result w₂ hR₂ hr₂ _ ⟨hstopped, hseen⟩ => ?_
  obtain ⟨stopped, observed⟩ := result
  have hasks : ∀ w', Relies deps rules T₂ w₂ w' → Inv deps rules w' →
      Asks deps rules w'
        (.updateFenced r.id [.ready, .starting] true (.failClosed code stopped observed)) := by
    intro w' hr' _
    refine ⟨trivial, by simp [PublishedWith], fun hrel _ id m heq => ?_⟩
    cases heq
    have hb₁ := bornOrPast_later (hb hrel) hr₁.moves hrel.steady
    refine evidence_failed rfl (fun s hs ht => ?_) fun s hs hne => ?_
    · cases hs
      exact hr'.moves.ended hrel _ (over_of_recorded stopped hrel hb₁ hstopped hseen ht)
    · exact bornOrPast_later hb₁ (hr₂.moves.trans hr'.moves) hrel.steady
  have hloop := gives_transaction hR₂ (by simp [Request.token]) (by simp [Request.token])
    hasks
  exact hloop.bind (Set.Subset.refl R) hR₂ fun _ _ _ _ _ _ _ => .throw

/-- A request that is not on behalf of a client. -/
theorem gives_providerRequest {view : ProviderView} {method : HttpMethod} {path : String}
    {body : Option RequestBody} (hR : R ⊆ T) :
    (ownership deps rules).Gives R (fun _ _ _ => True)
      (deps.providerRequest r view false method path body) T w := by
  refine gives_sync.bind (Set.Subset.refl R) hR fun T₁ domain w₁ hR₁ _ _ _ => ?_
  refine gives_sync.bind (Set.Subset.refl R) hR₁ fun T₂ _ w₂ hR₂ _ _ _ => ?_
  refine .call (fun _ => rfl) hR₂ (fun _ _ _ => nofun) fun _ _ _ _ _ _ _ _ _ _ _ => trivial

/-- Under the condition no answer has an empty genesis hash. -/
theorem gives_boundedJson {response : Response} (hR : R ⊆ T) :
    (ownership deps rules).Gives R (fun _ value _ => Named rules → snapshotGenesis value ≠ some "")
      (call (.boundedJson response) fun x => x) T w := by
  refine .call (fun _ => rfl) hR (fun _ _ _ => trivial)
    fun w₁ x w₂ value _ _ hx hvalue _ _ _ hnamed => ?_
  cases hvalue
  exact hnamed _ _ _ _ hx.2

/-- Nor has what a runtime says of itself. -/
theorem gives_probe {view : ProviderView} (hR : R ⊆ T) :
    (ownership deps rules).Gives R
      (fun _ result _ => ∀ runtimeId identity, result = some (runtimeId, identity) →
        Named rules → snapshotGenesis identity ≠ some "")
      (deps.probe r view) T w := by
  refine (gives_providerRequest hR).bind (Set.Subset.refl R) hR fun T₁ response w₁ hR₁ _ _ _ => ?_
  refine .ite (fun _ => .pure fun _ _ _ => by simp) fun _ => ?_
  refine (gives_boundedJson hR₁).bind (Set.Subset.refl R) hR₁ fun T₂ value w₂ hR₂ _ _ _ => ?_
  refine gives_sync.bind (Set.Subset.refl R) hR₂ fun T₃ runtimeId w₃ hR₃ _ _ _ => ?_
  refine (gives_providerRequest hR₃).bind (Set.Subset.refl R) hR₃
    fun T₄ response' w₄ hR₄ _ _ _ => ?_
  refine .ite (fun _ => .pure fun _ _ _ => by simp) fun _ => ?_
  refine (gives_boundedJson hR₄).bind (Set.Subset.refl R) hR₄
    fun T₅ identity w₅ hR₅ _ _ hnamed => ?_
  refine .pure fun _ _ _ runtimeId' identity' heq => ?_
  cases heq
  exact hnamed

/-- `probeReady` publishes a session that was launched, with the meter it has created. -/
theorem gives_probeReady {view : ProviderView} (hR : R ⊆ T) (hk : Known deps rules w r)
    (hl : r.launchAttemptedAt ≠ none) (hd : r.providerDomain ≠ none) :
    (ownership deps rules).Gives R (fun _ record w' => Known deps rules w' record)
      (deps.probeReady r view) T w := by
  refine Ownership.Gives.tryCatch ?_ (Set.Subset.refl R) hR fun T' _ w' _ hr' _ => ?_
  · refine (gives_probe hR).bind (Set.Subset.refl R) hR fun T₁ result w₁ hR₁ hr₁ hi₁ hprobe => ?_
    cases result with
    | none => exact .pure fun w₂ hr₂ _ => hk.later (hr₁.moves.trans hr₂.moves)
    | some result =>
      obtain ⟨runtimeId, identity⟩ := result
      have hk₁ := hk.later hr₁.moves
      have hnamed := hprobe runtimeId identity rfl
      simp only [hk₁.meterVersion hi₁, if_true]
      refine (gives_initializeMeter hR₁).bind (Set.Subset.refl R) hR₁
        fun T₂ _ w₂ hR₂ hr₂ _ hbound => ?_
      have hasks : ∀ w', Relies deps rules T₂ w₂ w' → Inv deps rules w' →
          Asks deps rules w' (.updateFenced r.id [.starting] true (.ready runtimeId identity)) := by
        intro w' hr' hi'
        have hk' := hk₁.later (hr₂.moves.trans hr'.moves)
        refine ⟨⟨hnamed, rfl, rfl, fun r' hr' => hk'.launched hi' hl hd hr'⟩, ?_,
          fun _ _ id m heq => ?_⟩
        · intro id allowed requireLatest rt identity' heq
          cases heq
          obtain ⟨pre, r₀, hpre, hr₀, hrec⟩ := hk'.version
          refine ⟨pre, r₀, hpre, hr₀, ?_⟩
          have hbound' := hbound.later hr'.moves
          rcases hrec with rfl | ⟨now, rfl⟩
          · exact hbound'
          · have hentry := (advances_normalizeRecord True now r₀).entry
            exact hbound'.entry ⟨hentry.id.symm, hentry.meterVersion.symm, hentry.visitorHash.symm,
              hentry.kind.symm, hentry.providerName.symm, hentry.expiresAt.symm⟩
        · cases heq
          exact ⟨by simp [Mutation.seen?], by simp [Mutation.seen?], by simp [Mutation.status?],
            by simp [Mutation.status?], by simp⟩
      have hloop := gives_transaction hR₂ (by simp [Request.token])
        (by simp [Request.token]) hasks
      refine hloop.bind (Set.Subset.refl R) hR₂ fun T₃ outcome w₃ _ _ _ hret => ?_
      exact .pure fun w₄ hr₄ _ => hret.known.later hr₄.moves
  · exact .pure fun w'' hr'' _ => hk.later (hr'.moves.trans hr''.moves)

/-- A view that changes nothing shows the recorded domain. -/
theorem domain_of_unchanged {view : ProviderView} (h : providerViewChanged r view = false)
    (hrunning : view.status = .running) : r.providerDomain = view.domain := by
  simp only [providerViewChanged, hrunning, Bool.or_eq_false_iff, decide_eq_false_iff_not, not_not,
    decide_true, Bool.true_and] at h
  exact h.2

/-- A sandbox that runs is observed, and probed once. -/
theorem gives_reconcileRunning {view : ProviderView} (hR : R ⊆ T) (hk : Known deps rules w r)
    (hi : Inv deps rules w) (hseen : Seen deps rules w₀ w r.id view)
    (hrunning : view.status = .running) :
    (ownership deps rules).Gives R (fun _ record w' => Known deps rules w' record)
      (deps.reconcileRunning r view) T w := by
  have hborn : Reliable deps rules → Born deps w r.id := fun hrel =>
    hseen.born hrel (by rw [hrunning]; nofun)
  refine .ite (fun _ => gives_failClosed hR (hk.name hi) fun hrel => .inl (hborn hrel))
    fun hendpoint => ?_
  have hdomain : view.domain ≠ none := by
    intro hnone
    simp [endpoint, hnone] at hendpoint
  have hupdate : (ownership deps rules).Gives R (fun _ updated w' => Known deps rules w' updated
        ∧ updated.providerDomain ≠ none)
      (if providerViewChanged r view then deps.update r.id (.observeRunning view) else pure r)
        T w := by
    refine .ite (fun _ => ?_) fun hsame => .pure fun w' hr' _ => ⟨hk.later hr'.moves, ?_⟩
    · refine (gives_update_of_evidence (m := .observeRunning view) hR (fun _ => hseen.domain)
        fun hrel => ?_).mono hR
        fun _ record w' _ _ _ hupdated => ⟨hupdated.known, ?_⟩
      · refine evidence_seen rfl (fun s hs ht => ?_) (fun _ _ _ => .inl (hborn hrel)) (by simp)
        cases hs
        rw [RecordedStatus.terminal_reported, hrunning] at ht
        cases ht
      · obtain ⟨now, r₀, happly⟩ := hupdated.apply
        obtain ⟨tombstoneUntil, rfl⟩ := extendTombstone_eq_ok happly
        simp only
        split
        · exact Option.some_ne_none _
        · exact hdomain
    · rw [domain_of_unchanged (Bool.eq_false_iff.mpr hsame) hrunning]
      exact hdomain
  refine hupdate.bindIte (Set.Subset.refl R) hR fun T₁ updated w₁ hR₁ _ _ ⟨hknown, hd⟩ => ?_
  refine .ite (fun hstarting => gives_probeReady hR₁ hknown hstarting.2 hd) fun _ => ?_
  exact .pure fun w₂ hr₂ _ => hknown.later hr₂.moves

/-- Whether a moment is still to come. -/
theorem gives_future {t : Instant} (hR : R ⊆ T) :
    (ownership deps rules).Gives R
      (fun _ result w' => result = false → Steady rules → t.ms ≤ w'.clock.ms)
      (future (some t)) T w := by
  refine (gives_now hR).bind (Set.Subset.refl R) hR fun T₁ now w₁ _ _ _ ⟨_, _, hclock⟩ => ?_
  refine .pure fun w₂ hr₂ _ hfalse hs => ?_
  have hle := (hclock hs).2.trans (hr₂.moves.clock hs)
  simp only [isFuture, decide_eq_false_iff_not] at hfalse
  omega

/-- Reading the clock needs nothing. -/
theorem gives_future_true {t : Option Instant} (hR : R ⊆ T) :
    (ownership deps rules).Gives R (fun _ _ _ => True) (future t) T w := by
  cases t with
  | none => exact .pure fun _ _ _ => trivial
  | some t => exact (gives_future hR).mono hR fun _ _ _ _ _ _ _ => trivial

/-- A record with a provider status that says something. -/
theorem Known.bornOrPast (hk : Known deps rules w r) (hrel : Reliable deps rules)
    (h : unseen r = false) :
    Born deps w r.id ∨ Past w r.id := by
  simp only [unseen, Bool.or_eq_false_iff, decide_eq_false_iff_not] at h
  obtain ⟨s, hs⟩ := Option.ne_none_iff_exists'.mp h.1
  exact (hk.facts.observed hrel).seen s hs fun hunknown => h.2 (hunknown ▸ hs)

/-- **A reconciliation** writes only what was seen. -/
theorem gives_reconcile (hR : R ⊆ T) (hk : Known deps rules w r) (hi : Inv deps rules w) :
    (ownership deps rules).Gives R (fun _ record w' => Known deps rules w' record)
      (deps.reconcile r) T w := by
  refine (gives_observe hR (hk.name hi)).bind (Set.Subset.refl R) hR
    fun T₁ result w₁ hR₁ hr₁ hi₁ hresult => ?_
  cases result with
  | none => exact .pure fun w₂ hr₂ _ => hk.later (hr₁.moves.trans hr₂.moves)
  | some view =>
    have hseen := hresult view rfl
    have hk₁ := hk.later hr₁.moves
    refine .ite (fun _ => .pure fun w₂ hr₂ _ => hk₁.later hr₂.moves) fun hmissing => ?_
    refine .ite (fun hterminal => ?_) fun hterminal => ?_
    · -- an end that was seen, of a sandbox that had been seen before or is not missing
      refine (gives_closeMeterOf hR₁).bind (Set.Subset.refl R) hR₁ fun T₂ _ w₂ hR₂ hr₂ _ _ => ?_
      have hover : Reliable deps rules → Over deps w₂ r.id := by
        intro hrel
        refine hr₂.moves.ended hrel _ (hseen.ended hrel hterminal ?_)
        by_cases hm : view.status = .missing
        · exact .inl (hk.bornOrPast hrel (Bool.eq_false_iff.mpr fun hu => hmissing ⟨hm, hu⟩))
        · exact .inr hm
      refine (gives_update_of_evidence hR₂ (fun _ => by simp [Justified, Mutation.domain?])
        fun hrel => ?_).mono hR₂
        fun _ _ _ _ _ _ hupdated => hupdated.known
      exact evidence_failed rfl (fun _ _ _ => hover hrel) fun _ _ _ => (hover hrel).2
    · have hborn : Reliable deps rules → Born deps w₁ r.id := fun hrel =>
          hseen.born hrel fun hm => by
        rw [hm] at hterminal
        exact hterminal rfl
      have hfuture : (ownership deps rules).Gives R
          (fun _ running _ => running = true → view.status = .running)
          (if view.status = .running then future view.expiresAt else pure false) T₁ w₁ :=
        .ite (fun hrun => (gives_future_true hR₁).mono hR₁ fun _ _ _ _ _ _ _ _ => hrun)
          fun _ => .pure fun _ _ _ hfalse => by cases hfalse
      refine hfuture.bindIte (Set.Subset.refl R) hR₁ fun T₂ running w₂ hR₂ hr₂ hi₂ hrun => ?_
      have hk₂ := hk₁.later hr₂.moves
      refine .ite (fun _ => .ite (fun _ => ?_) fun _ => ?_) fun hnot => ?_
      · refine (gives_update_of_evidence hR₂ (fun _ => by simp [Justified, Mutation.domain?])
          fun hrel => ?_).mono
          hR₂ fun _ _ _ _ _ _ hupdated => hupdated.known
        refine evidence_seen rfl (fun s hs ht => ?_)
          (fun _ _ _ => .inl ((hborn hrel).later hr₂.moves)) (by simp)
        cases hs
        rw [RecordedStatus.terminal_reported] at ht
        exact absurd ht hterminal
      · exact .pure fun w₃ hr₃ _ => hk₂.later hr₃.moves
      · exact gives_reconcileRunning hR₂ hk₂ hi₂ (hseen.later hr₂.moves)
          (hrun (Bool.eq_true_of_not_eq_false hnot))

/-- Calls whose answers do not matter here. -/
theorem gives_dateNow (hR : R ⊆ T) :
    (ownership deps rules).Gives R (fun _ _ _ => True) (ask Call.dateNow : Promise Int) T w :=
  .ask (fun _ => rfl) hR (fun _ _ _ => trivial) fun _ _ _ _ _ _ _ _ _ => trivial

/-- Polling reconciles, turn after turn. -/
theorem gives_pollLoop {provisioningDeadline : Instant} {deadline : Int} {turns : Nat} (hR : R ⊆ T)
    (hk : Known deps rules w r) :
    (ownership deps rules).Gives R (fun _ record w' => Known deps rules w' record)
      (deps.pollLoop provisioningDeadline deadline turns r) T w := by
  induction turns generalizing T w r with
  | zero => exact .pure fun w' hr' _ => hk.later hr'.moves
  | succ turns ih =>
    refine (gives_dateNow hR).bind (Set.Subset.refl R) hR fun T₁ _ w₁ hR₁ hr₁ _ _ => ?_
    have hk₁ := hk.later hr₁.moves
    refine .ite (fun _ => ?_) fun _ => .pure fun w' hr' _ => hk₁.later hr'.moves
    refine (gives_now hR₁).bind (Set.Subset.refl R) hR₁ fun T₂ _ w₂ hR₂ hr₂ hi₂ _ => ?_
    have hk₂ := hk₁.later hr₂.moves
    refine .ite (fun _ => ?_) fun _ => .pure fun w' hr' _ => hk₂.later hr'.moves
    refine (gives_reconcile hR₂ hk₂ hi₂).bind (Set.Subset.refl R) hR₂
      fun T₃ latest w₃ hR₃ _ _ hlatest => ?_
    exact .ite (fun _ => .pure fun w' hr' _ => hlatest.later hr'.moves) fun _ => ih hR₃ hlatest

theorem gives_pollReady {turns : Nat} {durationMs : Int} (hR : R ⊆ T) (hk : Known deps rules w r) :
    (ownership deps rules).Gives R (fun _ record w' => Known deps rules w' record)
      (deps.pollReady turns r durationMs) T w :=
  (gives_dateNow hR).bind (Set.Subset.refl R) hR fun _ _ _ hR₁ hr₁ _ _ =>
    gives_pollLoop hR₁ (hk.later hr₁.moves)

/-! ## Methods -/

/-- A session is closed once it is past. -/
theorem gives_closeExpired (hR : R ⊆ T) (hk : Known deps rules w r) (hi : Inv deps rules w)
    (hpast : Steady rules → r.expiresAt.ms ≤ w.clock.ms) :
    (ownership deps rules).Gives R (fun _ record w' => Known deps rules w' record)
      (deps.closeExpired r) T w := by
  refine (gives_stopOrObserve hR (hk.name hi)).bind (Set.Subset.refl R) hR
    fun T₁ result w₁ hR₁ hr₁ _ ⟨hstopped, hseen⟩ => ?_
  obtain ⟨stopped, observed⟩ := result
  refine (gives_update_of_evidence (m := .close stopped observed) hR₁
    (fun _ => by simp [Justified, Mutation.domain?]) fun hrel => ?_).mono hR₁
    fun _ _ _ _ _ _ hupdated => hupdated.known
  have hend : Past w r.id := hk.past (hpast hrel.steady)
  have hend₁ : Past w₁ r.id := hend.later hr₁.moves hrel.steady
  refine ⟨fun s hs ht => ?_, fun _ _ _ => .inr hend₁, fun _ _ _ => .inr hend₁,
    fun _ => .inr hend₁, by simp⟩
  cases hs
  exact over_of_recorded stopped hrel (.inr hend) hstopped hseen ht

/-- **`current`** asks only for what is allowed. -/
theorem gives_current {visitorHash : Digest} {kind : SandboxKind} (hR : R ⊆ T) :
    (ownership deps rules).Gives R (fun _ _ _ => True) (deps.current visitorHash kind) T w := by
  refine (gives_currentRecord hR).bind (Set.Subset.refl R) hR
    fun T₁ result w₁ hR₁ _ _ hcurrent => ?_
  cases result with
  | none => exact .pure fun _ _ _ => trivial
  | some record =>
    have hk₁ := hcurrent record rfl
    refine (gives_future hR₁).bind (Set.Subset.refl R) hR₁
      fun T₂ unexpired w₂ hR₂ hr₂ hi₂ hpast => ?_
    have hk₂ := hk₁.later hr₂.moves
    refine .ite (fun hfalse => ?_) fun _ => ?_
    · refine (gives_closeMeterOf hR₂).bind (Set.Subset.refl R) hR₂ fun T₃ _ w₃ hR₃ hr₃ hi₃ _ => ?_
      refine (gives_closeExpired hR₃ (hk₂.later hr₃.moves) hi₃ fun hs => ?_).bind
        (Set.Subset.refl R) hR₃
        fun _ _ _ _ _ _ _ => .pure fun _ _ _ => trivial
      exact (hpast hfalse hs).trans (hr₃.moves.clock hs)
    · have htimeout : (ownership deps rules).Gives R
          (fun _ record' w' => Known deps rules w' record')
          (if timedOut record then do
              let stopped ← settle (call (.stopAndDelete record.providerName) id)
              deps.update record.id (.timeoutStopped stopped.isOk)
            else pure record) T₂ w₂ := by
        refine .ite (fun hout => ?_) fun _ => .pure fun w' hr' _ => hk₂.later hr'.moves
        have hunseen : unseen record = false := by
          simp only [timedOut, Bool.and_eq_true, Bool.not_eq_true'] at hout
          exact hout.2
        refine (gives_stopAndDelete hR₂).settle.bind (Set.Subset.refl R) hR₂
          fun T₃ stopped w₃ hR₃ hr₃ _ hstopped => ?_
        refine (gives_update_of_evidence (m := .timeoutStopped stopped.isOk) hR₃
          (fun _ => by simp [Justified, Mutation.domain?]) fun hrel => ?_).mono hR₃
          fun _ _ _ _ _ _ hupdated => hupdated.known
        have hb := hk₂.bornOrPast hrel hunseen
        refine evidence_seen rfl (fun s hs ht => ?_)
          (fun _ _ _ => bornOrPast_later hb hr₃.moves hrel.steady) (by simp)
        cases hs
        cases stopped with
        | ok u => exact hstopped u rfl record.id (hk₂.name hi₂) hrel hb
        | error e => cases ht
      refine htimeout.bindIte (Set.Subset.refl R) hR₂ fun T₃ record' w₃ hR₃ _ hi₃ hk₃ => ?_
      refine Ownership.Gives.bindIte (Q := fun _ _ _ => True) ?_ (Set.Subset.refl R) hR₃
        fun _ _ _ _ _ _ _ => .pure fun _ _ _ => trivial
      refine .ite (fun _ => ?_) fun _ => .pure fun _ _ _ => trivial
      exact (gives_reconcile hR₃ hk₃ hi₃).mono hR₃ fun _ _ _ _ _ _ _ => trivial

/-- The right to launch a session that nobody has used. -/
structure Unlaunched (T : Set Token) (w : World) (id : SessionId) : Prop where
  owned : (.launch, id) ∈ T
  unused : ¬ Pending w (.launch, id)

/-- A right to launch that is owned stays unused. -/
theorem Unlaunched.later (h : Unlaunched T w id) (hr : Relies deps rules T w w') :
    Unlaunched T w' id :=
  ⟨h.owned, hr.unused _ h.owned h.unused⟩

/-- `start`, after `create`: the session is launched once. -/
theorem gives_launch {turns : Nat} {created : ProviderView} (hR : R ⊆ T) (hkeep : (.launch, id) ∉ R)
    (hright : Unlaunched T w id) (hdomain : created.domain ≠ some "")
    (hborn : Reliable deps rules → Born deps w id)
    (hover : Reliable deps rules → created.status.terminal = true → Over deps w id) :
    (ownership deps rules).Gives R (fun _ _ _ => True) (deps.launch turns id created) T w := by
  have hasks : ∀ w', Relies deps rules T w w' → Inv deps rules w' →
      Asks deps rules w' (.updateFenced id [.starting] true (.launchFence created)) := by
    intro w' hr' _
    have hright' := hright.later hr'
    refine ⟨⟨hdomain, rfl, fun htaken => hright'.unused (.inl htaken)⟩, by simp [PublishedWith],
      fun hrel _ id' m heq => ?_⟩
    cases heq
    have hborn' := (hborn hrel).later hr'.moves
    refine evidence_seen rfl (fun s hs ht => ?_) (fun _ _ _ => .inl hborn') fun _ _ => hborn'
    cases hs
    rw [RecordedStatus.terminal_reported] at ht
    exact hr'.moves.ended hrel id (hover hrel ht)
  have hloop := gives_transaction hR
    (fun t ht => by rintro ⟨rfl⟩; exact hkeep ht)
      (fun t ht => by cases ht; exact hright.owned) hasks
  refine hloop.bind (Set.Subset.refl R) hR fun T₁ launchFence w₁ hR₁ hr₁ _ hret => ?_
  refine .ite (fun _ => ?_) fun _ => ?_
  · refine (gives_stopAndDelete hR₁).settle.bind (Set.Subset.refl R) hR₁ fun _ _ _ _ _ _ _ => ?_
    exact .pure fun _ _ _ => trivial
  · have hlaunch : (ownership deps rules).Gives R (fun _ _ _ => True)
        (call (.launch created.name) fun x => x) T₁ w₁ :=
      .call (fun _ => rfl) hR₁ (fun _ _ _ => trivial) fun _ _ _ _ _ _ _ _ _ _ _ => trivial
    refine hlaunch.settle.bind (Set.Subset.refl R) hR₁ fun T₂ result w₂ hR₂ hr₂ _ _ => ?_
    cases result with
    | error e =>
      refine (gives_update_of_evidence (m := .launchUnknown) hR₂
        (fun _ => by simp [Justified, Mutation.domain?])
        fun hrel => ?_).mono hR₂ fun _ _ _ _ _ _ _ => trivial
      refine evidence_failed rfl (fun s hs ht => ?_) fun _ _ _ => .inl ?_
      · cases hs
        cases ht
      · exact (hborn hrel).later (hr₁.moves.trans hr₂.moves)
    | ok _ =>
      exact (gives_pollReady hR₂ (hret.known.later hr₂.moves)).mono hR₂ fun _ _ _ _ _ _ _ => trivial

/-- `start`, of a session it has reserved. -/
theorem gives_create {turns : Nat} {kind : SandboxKind} (hR : R ⊆ T) (hkeep : (.launch, id) ∉ R)
    (hright : Unlaunched T w id) (hk : Known deps rules w r) (hi : Inv deps rules w)
    (hid : r.id = id) :
    (ownership deps rules).Gives R (fun _ _ _ => True) (deps.create turns id kind r) T w := by
  subst hid
  have hname := hk.name hi
  have hrequest : (ownership deps rules).Gives R (fun T' _ w' => T = T' ∧ Relies deps rules T w w')
      (ask (Call.requestCreate ⟨r.providerName, kind, deps.gatewayToken r.id, r.expiresAt⟩) :
        Promise Unit) T w := by
    refine .ask (fun _ => rfl) hR (fun w' hr' _ => ⟨r.id, hname, hk.expires.later hr'.moves.log⟩)
      fun w₁ _ w₂ hr₁ hi₁ hx w₃ hr₃ _ => ⟨rfl, ?_⟩
    refine (ownership deps rules).trans hr₁ ((ownership deps rules).trans ?_ hr₃)
    obtain ⟨hreplies, -⟩ := hx
    cases hreplies with
    | requestCreate =>
      exact ⟨⟨List.prefix_refl _, fun _ => List.prefix_refl _, fun _ => Int.le_refl _,
        fun _ hb => hb, fun _ _ ho => ho⟩, fun _ _ hn => hn⟩
  refine hrequest.bind (Set.Subset.refl R) hR fun T₁ _ w₁ _ _ _ ⟨hT₁, hr₁⟩ => ?_
  subst hT₁
  have hright₁ := hright.later hr₁
  have hcreate : (ownership deps rules).Gives T (fun _ created w' => created.domain ≠ some ""
      ∧ (Reliable deps rules → Born deps w' r.id)
      ∧ (Reliable deps rules → created.status.terminal = true → Over deps w' r.id))
      (call (.create ⟨r.providerName, kind, deps.gatewayToken r.id, r.expiresAt⟩) fun x => x)
        T w₁ := by
    refine .call (fun _ => rfl) (Set.Subset.refl T) (fun _ _ _ => trivial)
      fun w₂ x w₃ created hr₂ _ hx hcreated w₄ hr₄ _ => ?_
    obtain ⟨hreplies, hrules⟩ := hx
    cases hreplies with
    | create hdomain =>
      cases hcreated
      have hborn : Reliable deps rules → Born deps w₂ r.id := fun hrel => by
        rw [Born]
        rw [← hname]
        exact (hrel.create _ _ _ _ hrules).1
      refine ⟨hdomain created rfl, fun hrel => (hborn hrel).later hr₄.moves, fun hrel ht => ?_⟩
      refine hr₄.moves.ended hrel _ ⟨?_, .inl (hborn hrel)⟩
      rw [← hname]
      exact (hrel.create _ _ _ _ hrules).2 ht
  refine hcreate.settle.bind hR (Set.Subset.refl T) fun T₂ result w₂ hT₂ hr₂ hi₂ hresult => ?_
  -- Whatever the provider answers, the right to launch is still there and unused.
  have hright₂ : Unlaunched T₂ w₂ r.id := ⟨hT₂ hright.owned, (hright₁.later hr₂).unused⟩
  cases result with
  | error e =>
    refine (gives_observe hT₂ hname).bind hR hT₂ fun T₃ observed w₃ hT₃ hr₃ _ hobserved => ?_
    have hright₃ : Unlaunched T₃ w₃ r.id :=
      ⟨hT₃ hright.owned, hr₃.unused _ hright.owned hright₂.unused⟩
    refine (gives_update (m := .createUnknown observed) (hR.trans hT₃)
      (fun w' hr' _ => ⟨?_, fun htaken => ?_⟩)
      fun w' hr' _ hrel _ => ?_).mono (hR.trans hT₃) fun _ _ _ _ _ _ _ => trivial
    · cases observed with
      | none => simp
      | some view => exact (hobserved view rfl).domain
    · exact (hright₃.later hr').unused (.inl htaken)
    · cases observed with
      | none =>
        exact evidence_failed rfl (by rintro s ⟨⟩ ht; cases ht)
          (by rintro s ⟨⟩ hne; exact absurd rfl hne)
      | some view =>
        have hseen := (hobserved view rfl).later hr'.moves
        -- What is missing after a failed creation may still appear, so it is recorded as unknown.
        by_cases hm : view.status = .missing
        · have hunknown : (Mutation.createUnknown (some view)).seen? = some .unknown := by
            simp [Mutation.seen?, hm]
          refine evidence_failed rfl (fun s hs ht => ?_) fun s hs hne => ?_
          · rw [hunknown] at hs
            cases hs
            cases ht
          · rw [hunknown] at hs
            cases hs
            exact absurd rfl hne
        · refine evidence_failed rfl (fun s hs ht => ?_) fun _ _ _ => .inl (hseen.born hrel hm)
          simp only [Mutation.seen?, ne_eq, hm, not_false_eq_true, if_true, Option.some.injEq] at hs
          rw [← hs, RecordedStatus.terminal_reported] at ht
          exact hseen.ended hrel ht (.inr hm)
  | ok created =>
    obtain ⟨hdomain, hborn, hover⟩ := hresult created rfl
    exact gives_launch (hR.trans hT₂) hkeep hright₂ hdomain hborn hover

/-- A fresh id comes with both rights to it, and nobody has used them. -/
theorem gives_newSessionId :
    (ownership deps rules).Gives ∅ (fun T' id w' => ∀ t : Token, t.2 = id → t ∈ T' ∧ ¬ Pending w' t)
      (ask Call.newSessionId : Promise SessionId) T w := by
  intro w₁ _ hi₁ _
  refine ⟨trivial, fun id w₂ hx => ⟨Set.empty_subset _, fun w₃ hr₃ _ _ id' hid' t ht => ?_⟩⟩
  cases hid'
  have hmem : t ∈ rightsAfter T .newSessionId id := .inr ht
  obtain ⟨hreplies, -⟩ := hx
  cases hreplies with
  | newSessionId hfresh =>
    refine ⟨hmem, hr₃.unused t hmem fun hpending => hfresh ?_⟩
    exact ht ▸ hi₁.issued t hpending

/-- **`start`** draws an id, reserves it and launches it. -/
theorem gives_start {turns : Nat} {visitorHash ipHash : Digest} {kind : SandboxKind}
    {expectedSessionId : Option SessionId} :
    (ownership deps rules).Gives ∅ (fun _ _ _ => True)
      (deps.start turns visitorHash ipHash kind expectedSessionId) T w := by
  refine (gives_currentRecord noRights).bind noRights noRights fun T₁ current w₁ _ _ _ _ => ?_
  refine gives_sync.bind noRights noRights fun T₂ _ w₂ _ _ _ _ => ?_
  refine gives_newSessionId.bind noRights noRights fun T₃ id w₃ _ _ _ hrights => ?_
  obtain ⟨hreserve, hunreserved⟩ := hrights (.reserve, id) rfl
  obtain ⟨hlaunch, hunlaunched⟩ := hrights (.launch, id) rfl
  have hasks : ∀ w', Relies deps rules T₃ w₃ w' → Inv deps rules w' →
      Asks deps rules w' (.reserve ⟨id, visitorHash, ipHash, kind, deps.providerName id⟩) := by
    intro w' hr' _
    refine ⟨⟨rfl, fun htaken => ?_⟩, by simp [PublishedWith], by simp [Request.mutation?]⟩
    exact hr'.unused _ hreserve hunreserved (.inl htaken)
  have hkept : ({(.launch, id)} : Set Token) ⊆ T₃ := Set.singleton_subset_iff.mpr hlaunch
  have hloop := gives_transaction hkept
    (fun t ht => by rw [Set.mem_singleton_iff.mp ht]; simp [Request.token])
    (fun t ht => by cases ht; exact hreserve) hasks
  refine hloop.bind noRights hkept fun T₄ reserved w₄ hR₄ hr₄ hi₄ hret => ?_
  have hright : Unlaunched T₄ w₄ id :=
    ⟨hR₄ rfl, hr₄.unused _ (Set.mem_singleton _) hunlaunched⟩
  refine .ite (fun _ => ?_) fun happlied => ?_
  · refine Ownership.Gives.bindIte (Q := fun _ _ _ => True) ?_ noRights noRights
      fun _ _ _ _ _ _ _ => .pure fun _ _ _ => trivial
    refine .ite (fun _ => ?_) fun _ => .pure fun _ _ _ => trivial
    exact (gives_reconcile noRights hret.known hi₄).mono noRights fun _ _ _ _ _ _ _ => trivial
  · have hid := hret.reserve _ rfl (Bool.eq_true_of_not_eq_false happlied)
    refine (gives_create noRights (Set.notMem_empty _) hright hret.known hi₄ hid).bind
      noRights noRights
      fun _ _ _ _ _ _ _ => .pure fun _ _ _ => trivial

/-- A creation that is settled: the sandbox came alive, or its session is past its end, unless the
provider was never heard of it. -/
theorem gives_creationSettled (hR : R ⊆ T) :
    (ownership deps rules).Gives R (fun _ settled w' => settled = true → r.status ≠ .starting
        ∧ (r.status = .failed → r.providerStatus = some .unknown →
          Steady rules → r.expiresAt.ms ≤ w'.clock.ms))
      (creationSettled r) T w := by
  refine .ite (fun _ => .pure fun _ _ _ => nofun) fun hstarting =>
    .ite (fun hunknown => ?_) fun hknown => ?_
  · refine (gives_now hR).bind (Set.Subset.refl R) hR fun T₁ now w₁ _ _ _ ⟨_, _, hclock⟩ => ?_
    refine .pure fun w₂ hr₂ _ hsettled => ⟨hstarting, fun _ _ hs => ?_⟩
    have hfree : holdsCapacity r now = false := of_decide_eq_true hsettled
    have hle := (hclock hs).2.trans (hr₂.moves.clock hs)
    by_contra hnot
    have hfuture : isFuture r.expiresAt now = true := decide_eq_true (by omega)
    simp [holdsCapacity, hunknown.1, hunknown.2, hfuture, RecordedStatus.terminal] at hfree
  · exact .pure fun _ _ _ _ => ⟨hstarting, fun hf hu => absurd ⟨hf, hu⟩ hknown⟩

/-- What a reset may say of the sandbox of the record it has read. -/
theorem Known.bornOrPast_of_settled (hk : Known deps rules w r) (hi : Inv deps rules w)
    (hrel : Reliable deps rules) (hstarting : r.status ≠ .starting)
    (hunknown : r.status = .failed → r.providerStatus = some .unknown → r.expiresAt.ms ≤ w.clock.ms)
    (hregular : r.providerStatus ≠ none ∨ r.expiresAt.ms ≤ w.clock.ms) :
    Born deps w r.id ∨ Past w r.id := by
  rcases hregular with hne | hle
  · obtain ⟨s, hs⟩ := Option.ne_none_iff_exists'.mp hne
    have hobserved := hk.facts.observed hrel
    by_cases hu : s = .unknown
    · subst hu
      cases hstatus : r.status with
      | starting => exact absurd hstatus hstarting
      | ready => exact .inl (hk.born hi hstatus hrel)
      | failed => exact .inr (hk.past (hunknown hstatus hs))
      | resetting => exact hobserved.closed (.inr hstatus)
      | expired => exact hobserved.closed (.inl hstatus)
    · exact hobserved.seen s hs hu
  · exact .inr (hk.past hle)

/-- **`reset`** asks only for what is allowed. -/
theorem gives_reset {turns : Nat} {visitorHash ipHash : Digest} {kind : SandboxKind}
    {expectedSessionId : Option SessionId} :
    (ownership deps rules).Gives ∅ (fun _ _ _ => True)
      (deps.reset turns visitorHash ipHash kind expectedSessionId) T w := by
  refine (gives_currentRecord noRights).bind noRights noRights
    fun T₁ current w₁ _ _ _ hcurrent => ?_
  refine gives_sync.bind noRights noRights fun T₂ record w₂ _ hr₂ _ hsome => ?_
  have hk₂ := (hcurrent record (okOr_eq_ok.mp hsome.1)).later hr₂.moves
  refine gives_sync.bind noRights noRights fun T₃ _ w₃ _ hr₃ _ _ => ?_
  refine (gives_creationSettled noRights).bind noRights noRights
    fun T₄ settled w₄ _ hr₄ _ hsettled => ?_
  refine gives_sync.bind noRights noRights fun T₅ _ w₅ _ hr₅ _ hyes => ?_
  obtain ⟨hstarting, hunknown⟩ := hsettled (require_eq_ok.mp hyes.1)
  refine (gives_now noRights).bind noRights noRights fun T₆ _ w₆ _ hr₆ _ _ => ?_
  refine gives_sync.bind noRights noRights fun T₇ _ w₇ _ hr₇ _ _ => ?_
  refine (gives_closeMeterOf noRights).bind noRights noRights fun T₈ _ w₈ _ hr₈ _ _ => ?_
  have hm₄₈ := hr₅.moves.trans (hr₆.moves.trans (hr₇.moves.trans hr₈.moves))
  have hk₈ := hk₂.later (hr₃.moves.trans (hr₄.moves.trans hm₄₈))
  -- The creation is settled by now: the sandbox is there, or it can no longer come.
  have hb : ∀ w', Moves deps rules w₈ w' → Inv deps rules w' → Reliable deps rules →
      RegularRequest w' (.update record.id (.resetting record)) →
      Born deps w' record.id ∨ Past w' record.id := by
    intro w' hm' hi' hrel hregular
    refine (hk₈.later hm').bornOrPast_of_settled hi' hrel hstarting (fun hf hu => ?_) hregular
    exact (hunknown hf hu hrel.steady).trans ((hm₄₈.trans hm').clock hrel.steady)
  refine (gives_update (m := .resetting record) noRights
    (fun _ _ _ => by simp [Justified, Mutation.domain?])
    fun w' hr' hi' hrel hregular => ?_).bind noRights noRights fun T₉ _ w₉ _ hr₉ hi₉ hupdated => ?_
  · refine ⟨by simp [Mutation.seen?], by simp [Mutation.seen?],
      fun _ _ _ => hb w' hr'.moves hi' hrel hregular, by simp [Mutation.status?], by simp⟩
  · have hb₉ : Reliable deps rules → Born deps w₉ record.id ∨ Past w₉ record.id := fun hrel =>
      hb w₉ hr₉.moves hi₉ hrel (hupdated.regular hrel)
    have hname := (hk₈.later hr₉.moves).name hi₉
    refine (gives_stopOrObserve noRights hname).bind noRights noRights
      fun T₁₀ result w₁₀ _ hr₁₀ _ hresult => ?_
    obtain ⟨hstopped, hseen⟩ := hresult
    obtain ⟨stopped, observed⟩ := result
    cases stopped with
    | false =>
      refine (gives_update_of_evidence (m := .resetFailed observed) noRights
        (fun _ => by simp [Justified, Mutation.domain?]) fun hrel => ?_).bind noRights noRights
        fun _ _ _ _ _ _ _ => .pure fun _ _ _ => trivial
      refine evidence_failed rfl (fun s hs ht => ?_) fun _ _ _ =>
        bornOrPast_later (hb₉ hrel) hr₁₀.moves hrel.steady
      cases hs
      exact over_of_recorded false hrel (hb₉ hrel) (by simp) hseen ht
    | true =>
      refine (gives_update_of_evidence (m := .resetDone) noRights
        (fun _ => by simp [Justified, Mutation.domain?]) fun hrel => ?_).bind noRights noRights
        fun _ _ _ _ _ _ _ => gives_start
      have hover := hstopped rfl hrel (hb₉ hrel)
      exact ⟨fun _ _ _ => hover, fun _ _ _ => hover.2, fun _ _ _ => hover.2,
        fun _ => .inl hover, by simp⟩

/-! ## The proxy -/

variable {request : ClientRequest}

/-- A refusal closes the session if it is past, and throws. -/
theorem gives_refuse {Q : Set Token → SessionRecord → World → Prop} {error : Failure} (hR : R ⊆ T) :
    (ownership deps rules).Gives R Q (deps.refuse request error) T w := by
  simp only [Deps.refuse]
  split
  · refine (gives_byId hR).bind (Set.Subset.refl R) hR fun T₁ result w₁ hR₁ _ _ hread => ?_
    cases result with
    | none => exact .throw
    | some record =>
      have hk₁ := hread record rfl
      refine gives_sync.bind (Set.Subset.refl R) hR₁ fun T₂ _ w₂ hR₂ hr₂ _ _ => ?_
      refine (gives_future hR₂).bind (Set.Subset.refl R) hR₂
        fun T₃ unexpired w₃ hR₃ hr₃ hi₃ hpast => ?_
      have hk₃ := hk₁.later (hr₂.moves.trans hr₃.moves)
      refine .ite (fun hfalse => ?_) fun _ => .throw
      exact (gives_closeExpired hR₃ hk₃ hi₃ (hpast hfalse)).bind (Set.Subset.refl R) hR₃
        fun _ _ _ _ _ _ _ => .throw
  · exact .throw

/-- The sandbox of a session that may be used came alive. -/
theorem Usable.born {kind : SandboxKind} (h : Usable deps rules w id kind r) (hi : Inv deps rules w)
    (hrel : Reliable deps rules) : Born deps w id :=
  h.keyed ▸ h.known.born hi h.ready hrel

/-- A request that is let through is of a usable session. -/
theorem gives_forwardable (hR : R ⊆ T) (hu : Usable deps rules w request.id request.kind r)
    (hi : Inv deps rules w) :
    (ownership deps rules).Gives R (fun _ _ w' => Usable deps rules w' request.id request.kind r)
      (deps.forwardable request r) T w := by
  have hname : r.providerName = deps.providerName request.id := hu.keyed ▸ hu.known.name hi
  refine (gives_observe hR hname).bind (Set.Subset.refl R) hR
    fun T₁ result w₁ hR₁ hr₁ hi₁ hresult => ?_
  cases result with
  | none => exact .throw
  | some view =>
    have hseen := hresult view rfl
    have hu₁ := hu.later hr₁.moves
    refine .ite (fun hwait => ?_) fun _ => ?_
    · refine (gives_update_of_evidence (m := .observe view) hR₁
        (fun _ => by simp [Justified, Mutation.domain?])
        fun hrel => ?_).bind (Set.Subset.refl R) hR₁ fun _ _ _ _ _ _ _ => .throw
      have hborn := hu₁.born hi₁ hrel
      refine evidence_seen rfl (fun s hs ht => ?_) (fun _ _ _ => .inl hborn) (by simp)
      cases hs
      rw [RecordedStatus.terminal_reported] at ht
      -- a status that is waited for is no end
      rcases hwait with hwait | hwait <;> rw [hwait] at ht <;> cases ht
    · refine Ownership.Gives.bindIte (Q := fun _ _ _ => True)
        (.ite (fun _ => gives_future_true hR₁) fun _ => .pure fun _ _ _ => trivial)
          (Set.Subset.refl R) hR₁
        fun T₂ running w₂ hR₂ hr₂ hi₂ _ => ?_
      have hu₂ := hu₁.later hr₂.moves
      have hseen₂ := hseen.later hr₂.moves
      refine .ite (fun _ => ?_) fun _ => ?_
      · refine (gives_closeMeterOf hR₂).bind (Set.Subset.refl R) hR₂ fun T₃ _ w₃ hR₃ hr₃ hi₃ _ => ?_
        refine (gives_update (m := .gone view) hR₃
          (fun _ _ _ => by simp [Justified, Mutation.domain?])
          fun w' hr' hi' hrel hregular => ?_).bind (Set.Subset.refl R) hR₃
            fun _ _ _ _ _ _ _ => .throw
        have hterminal : view.status.terminal = true := hregular
        have hover : Over deps w' request.id :=
          ((hseen₂.later hr₃.moves).later hr'.moves).ended hrel hterminal
            (.inl (.inl (hu.born hi hrel)))
        refine evidence_failed (by simp [Mutation.status?, hterminal]) (fun _ _ _ => hover)
          fun _ _ _ => hover.2
      · refine .ite (fun _ => ?_) fun _ => ?_
        · refine (gives_assertMeterForwardable hR₂).bind (Set.Subset.refl R) hR₂
            fun T₃ _ w₃ hR₃ hr₃ _ _ => ?_
          have hu₃ := hu₂.later hr₃.moves
          refine .ite (fun _ => ?_) fun _ => .pure fun w' hr' _ => hu₃.later hr'.moves
          refine (gives_assertForwardable hR₃).bind (Set.Subset.refl R) hR₃
            fun T₄ _ w₄ _ hr₄ _ _ => ?_
          exact .pure fun w' hr' _ => hu₃.later (hr₄.moves.trans hr'.moves)
        · refine (gives_assertForwardable hR₂).bind (Set.Subset.refl R) hR₂
            fun T₃ _ w₃ _ hr₃ _ _ => ?_
          exact .pure fun w' hr' _ => hu₂.later (hr₃.moves.trans hr'.moves)

/-- The endpoint of a session that may be used is its recorded domain. -/
theorem Usable.domain {kind : SandboxKind} (h : Usable deps rules w id kind r)
    (hi : Inv deps rules w)
    {view : ProviderView} {domain : String} (hd : endpoint r view = some domain) :
    r.providerDomain = some domain := by
  obtain ⟨pre, hshape⟩ := h.known.shape hi
  obtain ⟨d, hrec⟩ := Option.ne_none_iff_exists'.mp (hshape.published (hshape.ready h.ready)).2
  obtain ⟨-, hok⟩ := Option.filter_eq_some_iff.mp hd
  simp only [Bool.and_eq_true, Bool.not_eq_true', hrec] at hok
  rw [hrec, eq_of_differs hok.2 fun hempty => hshape.domain (hempty ▸ hrec)]

/-- **A client's request** goes to the recorded domain. -/
theorem gives_forward {view : ProviderView} {method : HttpMethod} {path : String}
    {body : Option RequestBody}
    {kind : SandboxKind} (hR : R ⊆ T) (hu : Usable deps rules w id kind r) :
    (ownership deps rules).Gives R (fun _ _ _ => True)
      (deps.providerRequest r view true method path body) T w := by
  refine gives_sync.bind (Set.Subset.refl R) hR fun T₁ domain w₁ hR₁ hr₁ _ ⟨hdomain, _, _⟩ => ?_
  refine gives_sync.bind (Set.Subset.refl R) hR₁ fun T₂ _ w₂ hR₂ hr₂ _ _ => ?_
  refine .call (fun _ => rfl) hR₂ (fun w₃ hr₃ hi₃ _ => ?_) fun _ _ _ _ _ _ _ _ _ _ _ => trivial
  have hu₃ := hu.later (hr₁.moves.trans (hr₂.moves.trans hr₃.moves))
  obtain ⟨pre, hshape⟩ := hu₃.known.shape hi₃
  obtain ⟨rt, hrt⟩ := Option.ne_none_iff_exists'.mp (hshape.ready hu₃.ready)
  exact ⟨hu₃.known, hu₃.ready, hu₃.domain hi₃ (okOr_eq_ok.mp hdomain),
    rt, hrt, hu₃.known.facts.bound rt hrt⟩

/-- A guided state's genesis hash is pinned to a record that is still the one that was ready. -/
theorem gives_pinGenesis {value : JsonValue} (hR : R ⊆ T)
    (hu : Usable deps rules w request.id request.kind r)
    (hkind : request.kind = .guided) (hnamed : Named rules → snapshotGenesis value ≠ some "") :
    (ownership deps rules).Gives R (fun _ _ _ => True) (do
      match ← sync (validateGuidedState value r) with
      | none => pure ()
      | some genesisHash =>
        if absent r.genesisHash then do
          let _ ← deps.update request.id (.pinGenesis genesisHash)
        else pure ()) T w := by
  refine gives_sync.bind (Set.Subset.refl R) hR fun T₁ genesisHash w₁ hR₁ hr₁ _ hvalid => ?_
  cases genesisHash with
  | none => exact .pure fun _ _ _ => trivial
  | some g =>
    refine .ite (fun _ => ?_) fun _ => .pure fun _ _ _ => trivial
    refine (gives_update (m := .pinGenesis g) hR₁
      (fun w' hr' hi' => ⟨fun hn hempty => ?_, fun r' hr'' => ?_⟩)
      fun _ _ _ _ _ => ?_).bind (Set.Subset.refl R) hR₁ fun _ _ _ _ _ _ _ =>
        .pure fun _ _ _ => trivial
    · exact hnamed hn (hempty ▸ validateGuidedState_eq_ok hvalid.1)
    · have hk' := hu.known.later (hr₁.moves.trans hr'.moves)
      rw [← hu.keyed] at hr''
      obtain ⟨hkind', hstatus⟩ := hk'.ready hi' hu.ready hr''
      exact ⟨hkind'.trans (hu.kind.trans hkind), hstatus⟩
    · exact evidence_seen rfl (by simp [Mutation.seen?]) (by simp [Mutation.seen?]) (by simp)

/-- A response may pin the genesis hash of its session, once. -/
theorem gives_respond {response : Response} {value : JsonValue} (hR : R ⊆ T)
    (hu : Usable deps rules w request.id request.kind r) (hi : Inv deps rules w)
    (hnamed : Named rules → snapshotGenesis value ≠ some "") :
    (ownership deps rules).Gives R (fun _ _ _ => True)
      (deps.respond request r response value) T w := by
  have hfail : ∀ {T : Set Token} {w' : World}, R ⊆ T → Moves deps rules w w' → Inv deps rules w' →
      (ownership deps rules).Gives R (fun _ _ _ => True)
        (deps.failClosed r "identity_changed" : Promise ProxyResult) T w' := by
    intro T w' hR hm hi'
    refine gives_failClosed hR (hu.known.name hi) fun hrel => .inl ?_
    exact (hu.known.later hm).born hi' hu.ready hrel
  unfold Deps.respond
  simp only
  refine .ite (fun _ => .pure fun _ _ _ => trivial) fun _ => ?_
  split
  · split
    · exact .pure fun _ _ _ => trivial
    · exact hfail hR (.refl w) hi
  · rename_i hkind _
    have hpin := gives_pinGenesis hR hu hkind hnamed
    refine hpin.settle.bind (Set.Subset.refl R) hR fun T₁ checked w₁ hR₁ hr₁ hi₁ _ => ?_
    cases checked with
    | ok _ => exact .pure fun _ _ _ => trivial
    | error e => exact hfail hR₁ hr₁.moves hi₁
  · refine gives_sync.bind (Set.Subset.refl R) hR fun T₁ _ w₁ hR₁ hr₁ hi₁ _ => ?_
    split
    · exact .pure fun _ _ _ => trivial
    · refine .ite (fun _ => .pure fun _ _ _ => trivial) fun _ => hfail hR₁ hr₁.moves hi₁
  · exact .pure fun _ _ _ => trivial
  · exact .pure fun _ _ _ => trivial

/-- **`proxy`** asks only for what is allowed. -/
theorem gives_proxy (hR : R ⊆ T) :
    (ownership deps rules).Gives R (fun _ _ _ => True) (deps.proxy request) T w := by
  refine gives_sync.bind (Set.Subset.refl R) hR fun T₁ mutationCount w₁ hR₁ _ _ _ => ?_
  refine Ownership.Gives.bind
    (Q := fun _ record w' => Usable deps rules w' request.id request.kind record)
    ?_ (Set.Subset.refl R) hR₁ fun T₂ charged w₂ hR₂ _ hi₂ hu₂ => ?_
  · exact (gives_charge hR₁).tryCatch (Set.Subset.refl R) hR₁ fun _ _ _ hR' _ _ => gives_refuse hR'
  · refine (gives_forwardable hR₂ hu₂ hi₂).bind (Set.Subset.refl R) hR₂
      fun T₃ view w₃ hR₃ _ _ hu₃ => ?_
    refine Ownership.Gives.bind (Q := fun _ _ _ => True) ?_ (Set.Subset.refl R) hR₃
      fun T₄ response w₄ hR₄ hr₄ _ _ => ?_
    · refine (gives_forward hR₃ hu₃).tryCatch (Set.Subset.refl R) hR₃ fun _ error _ _ _ _ => ?_
      split <;> exact .throw
    · refine (gives_boundedJson hR₄).bind (Set.Subset.refl R) hR₄
        fun T₅ value w₅ hR₅ hr₅ hi₅ hnamed => ?_
      exact gives_respond hR₅ (hu₃.later (hr₄.moves.trans hr₅.moves)) hi₅ hnamed

/-! ## All interleavings -/

/-- What may be called keeps the invariant. -/
theorem ownership_guards : (ownership deps rules).Guards := by
  intro p hp w _
  cases hp with
  | current => exact (gives_current noRights).forget
  | start => exact gives_start.forget
  | reset => exact gives_reset.forget
  | proxy => exact (gives_proxy noRights).forget
  | initializeMeter => exact (gives_initializeMeter noRights).forget
  | closeMeter => exact (gives_closeMeter noRights).forget
  | charge => exact (gives_charge noRights).forget

/-- At the start nothing is stored, alive or under way. -/
theorem Inv.empty (clock : Instant) : Inv deps rules (World.empty clock) := by
  refine ⟨⟨.nil, by simp [World.empty]⟩, fun _ => ⟨.nil, by simp [World.empty]⟩,
    fun _ => by simp [World.empty],
    fun _ => by simp [World.empty], fun t ht => ?_, by simp [World.empty], by simp [World.empty],
      fun id r hr => ?_, by simp [World.empty]⟩
  · rcases ht with ⟨v, hv, -⟩ | ⟨p, hp, -⟩
    · exact (List.not_mem_nil hv).elim
    · exact (List.not_mem_nil hp).elim
  · simp [World.empty, stored, emptyLedger] at hr

/-- **Any interleaving of broker calls is in good order.** -/
theorem ownership_sound {clock : Instant} {s : Site World Call Answer}
    (h : (machine rules (Starts deps)).Steps (launched clock) s) :
    (ownership deps rules).Sound s := by
  have hstart : (ownership deps rules).Sound (launched clock) :=
    ⟨Inv.empty clock, [], rfl, List.Pairwise.nil, fun e he => (List.not_mem_nil he).elim⟩
  exact (hstart.steps ownership_guards h).1

end Broker

end DividendX
