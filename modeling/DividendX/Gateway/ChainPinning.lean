import DividendX.Gateway.Lifecycle

/-!
# The pinned chain of a guided gateway

A guided gateway learns its chain from the first state that names one: `verifyRpc` asks the chain
twice, and then the identity is pinned to it. Calls of `verifyRpc` that overlap share
`this.identity`. As long as they are about one chain, and none is refused once the identity is
pinned, they agree about it; two that are about different chains redirect each other's requests, and
pin the identity one after the other.
-/

namespace DividendX

namespace Gateway

open JsonValue
open Broker (Route SandboxKind programId)

/-! ## Verifications under way -/

/-- A call of `verifyRpc` that has not settled, or whose chain is not pinned yet. -/
def Place.verification : Place → Option Verification
  | .verifying v _ => some v
  | .verified v _ => some v
  | _ => none

/-- What an identity is pinned to, after a chain was verified. -/
def NamedChain.pin (chain : NamedChain) : String × Option String × Option String :=
  (chain.genesisHash, some chain.deploymentDomainHex, some chain.rpcUrl)

namespace HostedGateway

variable {p : Platform} {s s' s'' : HostedGateway} {i : Nat} {h n : Handler} {v w : Verification}

/-- `identity.genesisHash`, if it is not `null`, with `deploymentDomainHex` and `rpcUrl`. -/
def pinned (s : HostedGateway) : Option (String × Option String × Option String) :=
  s.identity.bind Identity.pinned

/-- The verifications of all handlers but one. -/
def others (s : HostedGateway) (i : Nat) : List Verification :=
  (s.handlers.eraseIdx i).filterMap fun h => h.place.verification

/-- A verification is begun while those under way are about the same chain. One is refused while the
identity is not pinned, and restores no other endpoint under one that is under way. -/
def spared (p : Platform) (s : HostedGateway) : Event → Bool
  | .proceed i => match s.handlers[i]? with
    | some h => match h.place with
      | .validating (value :: _) => match s.checkGuidedState p value with
        | .ok (some named) => (s.others i).all fun v => v.chain = named
        | _ => true
      | _ => true
    | none => true
  | .rpc i reply => match s.handlers[i]? with
    | some h => match h.place with
      | .verifying v _ => match v.answer s.endpoint reply with
        | .refuses => (s.phase ≠ .ready || s.pinned = none)
          && ((s.others i).isEmpty || v.previous.bind Identity.rpcUrl ∈ [none, some v.chain.rpcUrl])
        | _ => true
      | _ => true
    | none => true
  | _ => true

/-- A spared event, if it can happen. -/
def stepSpared (p : Platform) (s : HostedGateway) (e : Event) : Option HostedGateway :=
  if s.spared p e then s.step p e else none

/-- A handler is at a verification. -/
def Verifies (s : HostedGateway) (v : Verification) : Prop :=
  ∃ h ∈ s.handlers, h.place.verification = some v

/-- Of a guided gateway: every verification is about one chain, its requests went there, and
`identity` says nothing else. -/
structure Agreed (s : HostedGateway) : Prop where
  kind : s.kind = .guided
  early : s.handlers ≠ [] ∨ s.phase = .ready ∨ s.pinned ≠ none → s.discovery matches .over
  chainless : ¬ (s.discovery matches .verifying _ _ | .verified _ _)
  one : ∀ v w, s.Verifies v → s.Verifies w → v.chain = w.chain
  fresh : ∀ v, s.Verifies v → v.previous.bind Identity.pinned = none
  pinned : ∀ x v, s.pinned = some x → s.Verifies v → x = v.chain.pin
  endpoint : ∀ v, s.Verifies v → s.endpoint = none ∨ s.endpoint = some v.chain.rpcUrl
  asked : ∀ v, s.Verifies v → v.asked = [v.chain.rpcUrl]
    ∨ v.asked = [v.chain.rpcUrl, v.chain.rpcUrl]
  resolved : ∀ h ∈ s.handlers, ∀ v values, h.place = .verified v values →
    v.asked = [v.chain.rpcUrl, v.chain.rpcUrl]

/-! ## Steps without a verification -/

/-- Nothing happened to the identity, and no verification was begun. -/
structure Calm (s s' : HostedGateway) : Prop where
  kind : s'.kind = s.kind
  identity : s'.identity = s.identity
  discovery : s'.discovery = s.discovery
  phase : s'.phase = .ready → s.phase = .ready
  handlers : s'.handlers ≠ [] → s.handlers ≠ [] ∨ s.phase = .ready
  places : ∀ h' ∈ s'.handlers, h'.place.verification = none ∨ ∃ h ∈ s.handlers, h.place = h'.place

theorem Calm.refl (s : HostedGateway) : Calm s s :=
  ⟨rfl, rfl, rfl, id, .inl, fun h hmem => .inr ⟨h, hmem, rfl⟩⟩

/-- A verification that is under way was under way. -/
theorem Calm.verifies (hc : Calm s s') (hv : s'.Verifies v) : s.Verifies v := by
  obtain ⟨h', hmem, hplace⟩ := hv
  rcases hc.places h' hmem with hnone | ⟨h, hmem', heq⟩
  · rw [hnone] at hplace
    cases hplace
  · exact ⟨h, hmem', by rwa [heq]⟩

/-- Nothing new is pinned. -/
theorem Calm.pinned (hc : Calm s s') : s'.pinned = s.pinned := by
  simp only [HostedGateway.pinned, hc.identity]

/-- So everyone who agreed still does. -/
theorem Agreed.calm (ha : Agreed s) (hc : Calm s s') : Agreed s' := by
  have hpinned := hc.pinned
  have hendpoint : s'.endpoint = s.endpoint := by simp only [HostedGateway.endpoint, hc.identity]
  refine ⟨hc.kind.trans ha.kind, fun hearly => ?_, ?_,
    fun v w hv hw => ha.one v w (hc.verifies hv) (hc.verifies hw),
    fun v hv => ha.fresh v (hc.verifies hv), fun x v hx hv =>
      ha.pinned x v (hpinned ▸ hx) (hc.verifies hv),
    fun v hv => hendpoint ▸ ha.endpoint v (hc.verifies hv), fun v hv => ha.asked v (hc.verifies hv),
    fun h hmem v values hplace => ?_⟩
  · rw [hc.discovery]
    refine ha.early ?_
    rcases hearly with hhandlers | hready | hsome
    · rcases hc.handlers hhandlers with hhandlers | hready
      · exact .inl hhandlers
      · exact .inr (.inl hready)
    · exact .inr (.inl (hc.phase hready))
    · exact .inr (.inr (hpinned ▸ hsome))
  · rw [hc.discovery]
    exact ha.chainless
  · rcases hc.places h hmem with hnone | ⟨h', hmem', heq⟩
    · rw [hplace] at hnone
      cases hnone
    · exact ha.resolved h' hmem' v values (heq.trans hplace)

/-- A handler that is no longer, or not yet, at a verification. -/
theorem Calm.put (hc : Calm s s') (hplace : n.place.verification = none) : Calm s (s'.put i n) where
  kind := hc.kind
  identity := hc.identity
  discovery := hc.discovery
  phase := hc.phase
  handlers := fun hne => hc.handlers fun hnil => hne (by simp [HostedGateway.put, hnil])
  places := by
    intro h' hmem
    rcases List.mem_or_eq_of_mem_set hmem with hmem | rfl
    · exact hc.places h' hmem
    · exact .inl hplace

theorem Calm.settle (hc : Calm s s') (result : Except Failure Unit) :
    Calm s (s'.settle i h result) := hc.put rfl

/-- The fields that matter, and those alone. -/
theorem Calm.of_fields (hc : Calm s s') (hkind : s''.kind = s'.kind)
    (hidentity : s''.identity = s'.identity)
    (hdiscovery : s''.discovery = s'.discovery) (hphase : s''.phase = .ready → s'.phase = .ready)
    (hhandlers : s''.handlers = s'.handlers) : Calm s s'' where
  kind := hkind.trans hc.kind
  identity := hidentity.trans hc.identity
  discovery := hdiscovery.trans hc.discovery
  phase := hc.phase ∘ hphase
  handlers := by
    rw [hhandlers]
    exact hc.handlers
  places := by
    rw [hhandlers]
    exact hc.places

theorem Calm.expire (hc : Calm s s') : Calm s s'.expire := by
  simp only [HostedGateway.expire]
  split
  · exact hc
  · exact hc.of_fields rfl rfl rfl (fun h => by cases h) rfl

theorem Calm.close (hc : Calm s s') : Calm s s'.close := by
  simp only [HostedGateway.close]
  split
  · exact hc
  · exact hc.of_fields rfl rfl rfl (fun h => by cases h) rfl

/-- A gateway that fails is not ready any more. -/
theorem Calm.fail (hc : Calm s s') {phase : Phase} (hphase : phase ≠ .ready) :
    Calm s (s'.fail phase) := by
  simp only [HostedGateway.fail]
  split
  · exact hc
  · exact hc.of_fields rfl rfl rfl (fun h => absurd h hphase) rfl

theorem Calm.finish (hc : Calm s s') (status : Nat) (error : Option String) :
    Calm s (s'.finish i h status error) := by
  have hput : Calm s (s'.put i { h with place := .finished status error }) := hc.put rfl
  exact hput.of_fields rfl rfl rfl id rfl

theorem Calm.throws (hc : Calm s s') (e : Failure) : Calm s (s'.throws i h e) := hc.finish _ _

/-- Forwarding pins nothing. -/
theorem Calm.forward (hc : Calm s s') : Calm s (s'.forward i h) := by
  simp only [HostedGateway.forward]
  split
  · exact hc.settle _
  · exact hc.put rfl

/-- Nor does running an operation. -/
theorem Calm.operate (hc : Calm s s') : Calm s (s'.operate i h) := by
  simp only [HostedGateway.operate]
  split_ifs
  · exact hc.settle _
  · exact hc.expire.settle _
  · exact hc.settle _
  · have hclaimed : Calm s { s' with guidedStartClaimed := true } := hc.of_fields rfl rfl rfl id rfl
    exact hclaimed.forward
  · exact hc.forward

/-- Nor does queueing one. -/
theorem Calm.mutate (hc : Calm s s') : Calm s (s'.mutate i h) := by
  simp only [HostedGateway.mutate]
  split
  · exact hc.throws _
  · have hput : Calm s (s'.put i { h with mutation := true, place := .queued }) := hc.put rfl
    exact hput.of_fields rfl rfl rfl id rfl

/-- A body that was read pins nothing. -/
theorem calm_received (i : Nat) (h : Handler) (body : BodyRead) :
    Calm s (s.received p i h body) := by
  simp only [received]
  split
  · exact (Calm.refl s).throws _
  · split
    · exact (Calm.refl s).mutate
    · exact (Calm.refl s).operate

/-- Nor does the end of the operation before. -/
theorem calm_resume (i : Nat) (h : Handler) (result : Except Failure Unit) :
    Calm s (s.resume i h result) := by
  have hcount : Calm s
      { s with mutationCount := if h.mutation then s.mutationCount - 1 else s.mutationCount } :=
    (Calm.refl s).of_fields rfl rfl rfl id rfl
  simp only [resume]
  split
  · exact hcount.throws _
  · split
    · exact hcount.throws _
    · exact hcount.finish _ _

/-- The slot of a request is taken while the gateway is ready. -/
theorem calm_handle (r : Request) : Calm s (s.handle r) := by
  simp only [handle]
  split_ifs
  · exact .refl s
  · exact (Calm.refl s).expire
  · exact .refl s
  split
  · exact .refl s
  · rename_i route hadmitted
    have hready := (admission_eq_ok hadmitted).1
    have hreserved : Calm s (s.reserve route) := by
      refine ⟨rfl, rfl, rfl, id, fun _ => .inr hready, fun h' hmem => ?_⟩
      simp only [reserve, List.mem_append, List.mem_singleton] at hmem
      rcases hmem with hmem | rfl
      · exact .inr ⟨h', hmem, rfl⟩
      · exact .inl rfl
    simp only [begin]
    split_ifs
    · split
      · exact hreserved.throws _
      · exact hreserved
    · exact hreserved.throws _
    · exact hreserved.operate

/-- The answer of the child pins nothing. -/
theorem calm_replied (i : Nat) (h : Handler) (reply : Reply) : Calm s (s.replied p i h reply) := by
  cases reply with
  | rejected => exact (Calm.refl s).settle _
  | tooLarge => exact (Calm.refl s).settle _
  | response status value =>
    simp only [replied]
    repeat' split
    all_goals first | exact (Calm.refl s).settle _ | exact (Calm.refl s).put rfl

/-! ## Steps of a verification -/

/-- The verifications of other requests are verifications. -/
theorem verifies_of_others (hv : v ∈ s.others i) : s.Verifies v := by
  obtain ⟨h, hmem, hplace⟩ := List.mem_filterMap.mp hv
  exact ⟨h, List.mem_of_mem_eraseIdx hmem, hplace⟩

/-- After a request has moved on, a verification is its own or another's. -/
theorem verifies_set (hhandlers : s'.handlers = s.handlers.set i n) (hv : s'.Verifies v) :
    n.place.verification = some v ∨ v ∈ s.others i := by
  obtain ⟨h, hmem, hplace⟩ := hv
  rw [hhandlers] at hmem
  obtain ⟨j, hj⟩ := List.mem_iff_getElem?.mp hmem
  rw [List.getElem?_set] at hj
  split_ifs at hj with hij hlt
  · cases hj
    exact .inl hplace
  · refine .inr (List.mem_filterMap.mpr ⟨h, ?_, hplace⟩)
    exact List.mem_eraseIdx_iff_getElem?.mpr ⟨j, fun heq => hij heq.symm, hj⟩

/-- A handler moves on with its verification, and the identity follows it. -/
theorem Agreed.verifying (ha : Agreed s) (hfound : s.handlers[i]? = some h)
    (hhandlers : s'.handlers = s.handlers.set i n) (hkind : s'.kind = s.kind)
    (hdiscovery : s'.discovery = s.discovery)
    (hchain : ∀ v, n.place.verification = some v → ∀ w ∈ s.others i, w.chain = v.chain)
    (hfresh : ∀ v, n.place.verification = some v → v.previous.bind Identity.pinned = none)
    (hpinned : ∀ x v, s'.pinned = some x → s'.Verifies v → x = v.chain.pin)
    (hendpoint : ∀ v, s'.Verifies v → s'.endpoint = none ∨ s'.endpoint = some v.chain.rpcUrl)
    (hasked : ∀ v, n.place.verification = some v →
      v.asked = [v.chain.rpcUrl] ∨ v.asked = [v.chain.rpcUrl, v.chain.rpcUrl])
    (hresolved : ∀ v values, n.place = .verified v values →
      v.asked = [v.chain.rpcUrl, v.chain.rpcUrl]) :
    Agreed s' := by
  -- There are handlers only once the discovery is over.
  have hover : s.discovery matches .over := ha.early (.inl fun hnil => by simp [hnil] at hfound)
  refine ⟨hkind.trans ha.kind, fun _ => hdiscovery ▸ hover, hdiscovery ▸ ha.chainless,
    fun v w hv hw => ?_,
    fun v hv => ?_, hpinned, hendpoint, fun v hv => ?_, fun g hmem v values hplace => ?_⟩
  · rcases verifies_set hhandlers hv with hv | hv <;> rcases verifies_set hhandlers hw with hw | hw
    · rw [hv] at hw
      cases hw
      rfl
    · exact (hchain v hv w hw).symm
    · exact hchain w hw v hv
    · exact ha.one v w (verifies_of_others hv) (verifies_of_others hw)
  · rcases verifies_set hhandlers hv with hv | hv
    · exact hfresh v hv
    · exact ha.fresh v (verifies_of_others hv)
  · rcases verifies_set hhandlers hv with hv | hv
    · exact hasked v hv
    · exact ha.asked v (verifies_of_others hv)
  · rw [hhandlers] at hmem
    rcases List.mem_or_eq_of_mem_set hmem with hmem | rfl
    · exact ha.resolved g hmem v values hplace
    · exact hresolved v values hplace

/-- A handler is done with its verification, and the identity changes. -/
theorem Agreed.leaves (ha : Agreed s) (hfound : s.handlers[i]? = some h)
    (hhandlers : s'.handlers = s.handlers.set i n) (hkind : s'.kind = s.kind)
    (hdiscovery : s'.discovery = s.discovery)
    (hplace : n.place.verification = none)
    (hpinned : ∀ x, s'.pinned = some x → ∀ v ∈ s.others i, x = v.chain.pin)
    (hendpoint : ∀ v ∈ s.others i, s'.endpoint = none ∨ s'.endpoint = some v.chain.rpcUrl) :
    Agreed s' := by
  have hnot : ∀ v, n.place.verification ≠ some v := fun v hv => by
    rw [hplace] at hv
    cases hv
  refine ha.verifying hfound hhandlers hkind hdiscovery (fun v hv => absurd hv (hnot v))
    (fun v hv => absurd hv (hnot v)) (fun x v hx hv => ?_) (fun v hv => ?_)
      (fun v hv => absurd hv (hnot v))
    fun v values hv => absurd (by rw [hv]; rfl) (hnot v)
  · exact hpinned x hx v ((verifies_set hhandlers hv).resolve_left (hnot v))
  · exact hendpoint v ((verifies_set hhandlers hv).resolve_left (hnot v))

/-- A chain is verified only while none is pinned. -/
theorem checkGuidedState_eq_some {value : JsonValue} {named : NamedChain}
    (hcheck : s.checkGuidedState p value = .ok (some named)) : s.pinned = none := by
  simp only [checkGuidedState] at hcheck
  obtain ⟨-, -, hcheck⟩ := Result.bind_eq_ok.mp hcheck
  split_ifs at hcheck
  · cases hcheck
  · simp only [Result.bind_eq_ok] at hcheck
    obtain ⟨_, -, _, -, _, -, _, -, _, -, _, -, _, -, identity, hidentity, hcheck⟩ := hcheck
    rw [Result.okOr_eq_ok] at hidentity
    simp only [pinned, hidentity, Option.bind_some]
    cases hpinned : identity.pinned with
    | none => rfl
    | some x =>
      rw [hpinned] at hcheck
      obtain ⟨-, -, hcheck⟩ := Result.bind_eq_ok.mp hcheck
      cases hcheck

/-- Where the gateway stands after a step: everyone agrees, and what was pinned while it was ready
still is. -/
structure Kept (s s' : HostedGateway) : Prop where
  agreed : Agreed s'
  pinned : ∀ x, s.pinned = some x → s.phase = .ready → s'.phase = .ready → s'.pinned = some x

/-- A calm step keeps the pin. -/
theorem Agreed.kept_calm (ha : Agreed s) (hc : Calm s s') : Kept s s' :=
  ⟨ha.calm hc, fun _ hx _ _ => hc.pinned.trans hx⟩

/-- `verifyRpc` is begun: the identity names its endpoint from now on. -/
theorem Agreed.begun (ha : Agreed s) (hfound : s.handlers[i]? = some h)
    {named : NamedChain} {values : List JsonValue}
    (hnone : s.pinned = none) (hspared : ∀ w ∈ s.others i, w.chain = named) :
    Kept s
      ((s.verifyRpc named).1.put i
        { h with place := .verifying (s.verifyRpc named).2 values }) := by
  refine ⟨ha.verifying hfound rfl rfl rfl ?_ ?_ ?_ ?_ ?_ ?_, fun x hx _ _ => ?_⟩
  · intro v hv w hw
    cases hv
    exact hspared w hw
  · intro v hv
    cases hv
    exact hnone
  · intro x v hx _
    -- the fields of the identity are those it had, but for the endpoint
    have hstill : (s.identity.getD {}).genesisHash = none := by
      cases hidentity : s.identity with
      | none => rfl
      | some identity =>
        simp only [HostedGateway.pinned, hidentity, Option.bind_some,
          Identity.pinned, Option.map_eq_none_iff] at hnone
        exact hnone
    simp only [HostedGateway.pinned, put, verifyRpc, Option.bind_some,
      Identity.pinned, hstill, Option.map_none] at hx
    cases hx
  · intro v hv
    refine .inr ?_
    rcases verifies_set rfl hv with hv | hv
    · cases hv
      rfl
    · rw [hspared v hv]
      rfl
  · intro v hv
    cases hv
    exact .inl rfl
  · intro v values hplace
    cases hplace
  · rw [hnone] at hx
    cases hx

/-- A verified chain is pinned. -/
theorem Agreed.pins (ha : Agreed s) (hfound : s.handlers[i]? = some h) {values : List JsonValue}
    (hplace : h.place = .verified v values) {identity : Identity}
    (hpin : identity.pinned = some v.chain.pin)
    (hrpcUrl : identity.rpcUrl = some v.chain.rpcUrl) :
    Kept s ({ s with identity := some identity }.put i { h with place := .validating values }) := by
  have hv : s.Verifies v := ⟨h, List.mem_of_getElem? hfound, by rw [hplace]; rfl⟩
  refine ⟨ha.leaves hfound rfl rfl rfl rfl (fun x hx w hw => ?_) fun w hw => .inr ?_,
    fun x hx _ _ => ?_⟩
  · simp only [HostedGateway.pinned, put, Option.bind_some, hpin, Option.some.injEq] at hx
    rw [← hx, ha.one w v (verifies_of_others hw) hv]
  · rw [ha.one w v (verifies_of_others hw) hv]
    simpa only [HostedGateway.endpoint, put, Option.bind_some] using hrpcUrl
  · simp only [HostedGateway.pinned, put, Option.bind_some, hpin]
    rw [ha.pinned x v hx hv]

/-- A request that goes on keeps the agreement and the pin. -/
theorem Agreed.proceed (ha : Agreed s) (hfound : s.handlers[i]? = some h)
    (hspared : s.spared p (.proceed i) = true)
    (hstep : s.proceed p i h = some s') : Kept s s' := by
  simp only [HostedGateway.proceed] at hstep
  split at hstep
  · cases hstep
    exact ha.kept_calm ((Calm.refl s).settle _)
  · rename_i value values hplace
    split at hstep
    · cases hstep
      exact ha.kept_calm ((Calm.refl s).put rfl)
    · cases hstep
      exact ha.kept_calm ((Calm.refl s).put rfl)
    · rename_i named hcheck
      cases hstep
      simp only [spared, hfound, hplace, hcheck, List.all_eq_true, decide_eq_true_eq] at hspared
      exact ha.begun hfound (checkGuidedState_eq_some hcheck) hspared
  · rename_i v values hplace
    cases hstep
    exact ha.pins hfound hplace rfl rfl
  · cases hstep
    exact ha.kept_calm (((Calm.refl s).fail (by simp)).settle _)
  · cases hstep

/-- An answer to a verification pins what the others verify too. -/
theorem Agreed.answered (ha : Agreed s) (hfound : s.handlers[i]? = some h)
    {values : List JsonValue} {reply : Reply}
    (hplace : h.place = .verifying v values) (hspared : s.spared p (.rpc i reply) = true) :
    Kept s (s.answered i h v values reply) := by
  have hv : s.Verifies v := ⟨h, List.mem_of_getElem? hfound, by rw [hplace]; rfl⟩
  simp only [HostedGateway.answered]
  split
  · rename_i next hverdict
    -- the next request goes where the identity says, which is where this one went
    have hnext : next = { v with asked := [v.chain.rpcUrl, v.chain.rpcUrl] } := by
      simp only [Verification.answer] at hverdict
      split_ifs at hverdict with haccepts hone
      split at hverdict
      · rename_i rpcUrl hrpcUrl
        cases hverdict
        rcases ha.endpoint v hv with hnone | hsome
        · rw [hnone] at hrpcUrl
          cases hrpcUrl
        · rw [hsome] at hrpcUrl
          cases hrpcUrl
          rcases ha.asked v hv with hasked | hasked
          · rw [hasked]
            rfl
          · rw [hasked] at hone
            cases hone
      · cases hverdict
    subst hnext
    have hold : ∀ w,
        (s.put i
          { h with place := .verifying { v with asked := [v.chain.rpcUrl, v.chain.rpcUrl] } values
        }).Verifies w → ∃ u, s.Verifies u ∧ w.chain = u.chain := by
      intro w hw
      rcases verifies_set rfl hw with hw | hw
      · cases hw
        exact ⟨v, hv, rfl⟩
      · exact ⟨w, verifies_of_others hw, rfl⟩
    refine ⟨ha.verifying hfound rfl rfl rfl ?_ ?_ ?_ ?_ ?_ ?_, fun x hx _ _ => hx⟩
    · intro w hw u hu
      cases hw
      exact ha.one u v (verifies_of_others hu) hv
    · intro w hw
      cases hw
      exact ha.fresh v hv
    · intro x w hx hw
      obtain ⟨u, hu, hchain⟩ := hold w hw
      rw [hchain]
      exact ha.pinned x u hx hu
    · intro w hw
      obtain ⟨u, hu, hchain⟩ := hold w hw
      rw [hchain]
      exact ha.endpoint u hu
    · intro w hw
      cases hw
      exact .inr rfl
    · intro w values hplace
      cases hplace
  · rename_i hverdict
    have htwice : v.asked = [v.chain.rpcUrl, v.chain.rpcUrl] := by
      rcases ha.asked v hv with hasked | hasked
      · simp only [Verification.answer, hasked, List.length_singleton, if_true] at hverdict
        split_ifs at hverdict
        split at hverdict <;> cases hverdict
      · exact hasked
    have hold : ∀ w, (s.put i { h with place := .verified v values }).Verifies w →
        s.Verifies w := by
      intro w hw
      rcases verifies_set rfl hw with hw | hw
      · cases hw
        exact hv
      · exact verifies_of_others hw
    refine ⟨ha.verifying hfound rfl rfl rfl ?_ ?_ ?_ ?_ ?_ ?_, fun x hx _ _ => hx⟩
    · intro w hw u hu
      cases hw
      exact ha.one u v (verifies_of_others hu) hv
    · intro w hw
      cases hw
      exact ha.fresh v hv
    · exact fun x w hx hw => ha.pinned x w hx (hold w hw)
    · exact fun w hw => ha.endpoint w (hold w hw)
    · intro w hw
      cases hw
      exact .inr htwice
    · intro w values hplace
      cases hplace
      exact htwice
  · rename_i hverdict
    simp only [spared, hfound, hplace, hverdict, Bool.and_eq_true,
      Bool.or_eq_true, decide_eq_true_eq, List.isEmpty_iff] at hspared
    obtain ⟨hpinned, hrestores⟩ := hspared
    refine ⟨ha.leaves hfound rfl rfl rfl rfl (fun x hx => ?_) fun w hw => ?_,
      fun x hx hready _ => ?_⟩
    · rw [HostedGateway.pinned, put, ha.fresh v hv] at hx
      cases hx
    · rcases hrestores with hnil | hrestores
      · rw [hnil] at hw
        cases hw
      · rw [ha.one w v (verifies_of_others hw) hv]
        simpa only [HostedGateway.endpoint, put, List.mem_cons, List.not_mem_nil,
          or_false] using hrestores
    · rcases hpinned with hnot | hnone
      · exact absurd hready hnot
      · rw [hnone] at hx
        cases hx

/-! ## Runs -/

/-- Until a guided gateway is discovered, nothing is pinned and nobody is served. -/
theorem Agreed.undiscovered (ha : Agreed s) (hdiscovery : ¬ (s.discovery matches .over))
    (hhandlers : s'.handlers = s.handlers) (hkind : s'.kind = s.kind) (hpinned : s'.pinned = none)
    (hphase : s'.phase = .ready → s.phase = .ready ∨ (s'.discovery matches .over))
    (hchainless : ¬ (s'.discovery matches .verifying _ _ | .verified _ _)) : Kept s s' := by
  have hnil : s.handlers = [] := by
    by_contra hne
    exact hdiscovery (ha.early (.inl hne))
  have hnot : ∀ v, ¬ s'.Verifies v := by
    rintro v ⟨h, hmem, -⟩
    rw [hhandlers, hnil] at hmem
    cases hmem
  refine ⟨⟨hkind.trans ha.kind, ?_, hchainless, fun v _ hv => absurd hv (hnot v),
    fun v hv => absurd hv (hnot v),
    fun x v _ hv => absurd hv (hnot v), fun v hv => absurd hv (hnot v),
      fun v hv => absurd hv (hnot v), ?_⟩, ?_⟩
  · rintro (hne | hready | hsome)
    · exact absurd (hhandlers.trans hnil) hne
    · rcases hphase hready with hready | hover
      · exact absurd (ha.early (.inr (.inl hready))) hdiscovery
      · exact hover
    · exact absurd hpinned hsome
  · intro h hmem
    rw [hhandlers, hnil] at hmem
    cases hmem
  · intro x _ hready
    exact absurd (ha.early (.inr (.inl hready))) hdiscovery

/-- Before discovery is over nothing is pinned. -/
theorem Agreed.unpinned (ha : Agreed s) (hdiscovery : ¬ (s.discovery matches .over)) :
    s.pinned = none := by
  by_contra hsome
  exact hdiscovery (ha.early (.inr (.inr hsome)))

/-- The state of a guided demo is looked at. -/
theorem Agreed.discovered (ha : Agreed s) (hasking : s.discovery = .asking) (reply : Reply) :
    Kept s (s.discovered p reply) := by
  have hnot : ¬ (s.discovery matches .over) := by
    rw [hasking]
    exact Bool.false_ne_true
  have hresting : Kept s { s with discovery := .resting } :=
    ha.undiscovered hnot rfl rfl (ha.unpinned hnot) .inl (by simp)
  cases reply with
  | rejected => exact hresting
  | tooLarge => exact hresting
  | response status value =>
    cases value with
    | none => exact hresting
    | some value =>
      simp only [HostedGateway.discovered]
      split
      · exact hresting
      split
      · split
        · exact ha.undiscovered hnot rfl rfl rfl (fun _ => .inr rfl) (by simp [found])
        · exact hresting
      · rename_i hwallet
        rw [ha.kind] at hwallet
        cases hwallet

/-- Discovery starts again, with nothing pinned. -/
theorem Agreed.loop (ha : Agreed s) (hresting : s.discovery = .resting) : Kept s s.loop := by
  have hnot : ¬ (s.discovery matches .over) := by
    rw [hresting]
    exact Bool.false_ne_true
  simp only [HostedGateway.loop]
  split_ifs
  · exact ha.undiscovered hnot rfl rfl (ha.unpinned hnot) .inl (by simp)
  · have hfail : Calm s (s.fail .startupFailed) := (Calm.refl s).fail (by simp)
    exact ha.undiscovered hnot (quiet_fail _).handlers hfail.kind
      (hfail.pinned.trans (ha.unpinned hnot))
      (.inl ∘ hfail.phase) (by simp)
  · exact ha.undiscovered hnot rfl rfl (ha.unpinned hnot) .inl (by simp)

/-- **One event** that meets the condition keeps the agreement and the pin. -/
theorem Agreed.step (ha : Agreed s) {e : Event} (hspared : s.spared p e = true)
    (hstep : s.step p e = some s') :
    Kept s s' := by
  cases e with
  | request r =>
    cases hstep
    exact ha.kept_calm (calm_handle r)
  | body i body =>
    simp only [HostedGateway.step] at hstep
    split at hstep
    · split at hstep
      · cases hstep
        exact ha.kept_calm (calm_received _ _ _)
      · cases hstep
    · cases hstep
  | turn k =>
    simp only [HostedGateway.step] at hstep
    repeat' split at hstep
    · cases hstep
      exact ha.kept_calm (Calm.refl s).operate
    all_goals cases hstep
  | reply i reply =>
    simp only [HostedGateway.step] at hstep
    split at hstep
    · split at hstep
      · cases hstep
        exact ha.kept_calm (calm_replied _ _ _)
      · cases hstep
    · cases hstep
  | proceed i =>
    simp only [HostedGateway.step] at hstep
    split at hstep
    · rename_i h hfound
      exact ha.proceed hfound hspared hstep
    · cases hstep
  | rpc i reply =>
    simp only [HostedGateway.step] at hstep
    split at hstep
    · rename_i h hfound
      split at hstep
      · rename_i v values hplace
        cases hstep
        exact ha.answered hfound hplace hspared
      · cases hstep
    · cases hstep
  | resume i =>
    simp only [HostedGateway.step] at hstep
    split at hstep
    · split at hstep
      · cases hstep
        exact ha.kept_calm (calm_resume _ _ _)
      · cases hstep
    · cases hstep
  | discovered reply =>
    simp only [HostedGateway.step] at hstep
    split at hstep
    · rename_i hasking
      cases hstep
      exact ha.discovered hasking reply
    · cases hstep
  | discoveredRpc reply =>
    simp only [HostedGateway.step] at hstep
    split at hstep
    · rename_i v runtimeId hverifying
      -- the discovery of a guided gateway verifies no chain
      exact absurd (by rw [hverifying]) ha.chainless
    · cases hstep
  | discovers =>
    simp only [HostedGateway.step] at hstep
    split at hstep
    · rename_i hresting
      cases hstep
      exact ha.loop hresting
    · rename_i v runtimeId hverified
      exact absurd (by rw [hverified]) ha.chainless
    · cases hstep
  | childExited =>
    simp only [HostedGateway.step] at hstep
    split at hstep
    · cases hstep
    · cases hstep
      refine ha.kept_calm ((Calm.refl s).fail ?_)
      split <;> simp
  | timer =>
    simp only [HostedGateway.step] at hstep
    split at hstep
    · cases hstep
    · cases hstep
      exact ha.kept_calm (Calm.refl s).expire
  | close =>
    cases hstep
    exact ha.kept_calm (Calm.refl s).close
  | clock now =>
    cases hstep
    exact ha.kept_calm ((Calm.refl s).of_fields rfl rfl rfl id rfl)

/-- At the start nothing is pinned and nothing verified. -/
theorem agreed_start {config : Config} {now : Int} {spawned : Bool} (hkind : config.kind = .guided)
    (h : start config now spawned = some s) : Agreed s := by
  -- Without handlers there is no verification, so every clause about one holds of none.
  have hfirst : ∀ {t : HostedGateway}, t.kind = .guided → t.handlers = [] →
      t.identity = none → t.phase ≠ .ready →
      ¬ (t.discovery matches .verifying _ _ | .verified _ _) → Agreed t := by
    intro t hguided hhandlers hidentity hphase hchainless
    have hnot : ∀ v, ¬ t.Verifies v := by
      rintro v ⟨h, hmem, -⟩
      rw [hhandlers] at hmem
      cases hmem
    refine ⟨hguided, ?_, hchainless, fun v _ hv => absurd hv (hnot v),
      fun v hv => absurd hv (hnot v),
      fun x v _ hv => absurd hv (hnot v), fun v hv => absurd hv (hnot v),
        fun v hv => absurd hv (hnot v), ?_⟩
    · rintro (hne | hready | hsome)
      · exact absurd hhandlers hne
      · exact absurd hready hphase
      · exact absurd (by rw [HostedGateway.pinned, hidentity, Option.bind_none]) hsome
    · intro h hmem
      rw [hhandlers] at hmem
      cases hmem
  simp only [start] at h
  split_ifs at h
  · rw [Option.some.injEq] at h
    subst h
    simp only [loop]
    split_ifs
    · exact hfirst hkind rfl rfl (by simp) (by simp)
    · exact hfirst hkind rfl rfl (by simp [fail]) (by simp)
  · rw [Option.some.injEq] at h
    subst h
    exact hfirst hkind rfl rfl (by simp [fail]) (by simp [fail])

/-- A step that is spared is a step. -/
theorem step_of_stepSpared {e : Event} (h : s.stepSpared p e = some s') :
    s.spared p e = true ∧ s.step p e = some s' := by
  simp only [stepSpared, Option.ite_none_right_eq_some] at h
  exact h

/-- **Every run** does. -/
theorem Agreed.run {tr : List Event} (ha : Agreed s) (hrun : Run (stepSpared p) s tr s') :
    Agreed s' :=
  hrun.invariant ha fun _ _ _ ht hstep =>
    (ht.step (step_of_stepSpared hstep).1 (step_of_stepSpared hstep).2).agreed

/-- What is pinned stays pinned until the gateway is not ready any more. -/
theorem Agreed.pinned_run {tr : List Event} {x : String × Option String × Option String}
    (ha : Agreed s)
    (hrun : Run (stepSpared p) s tr s') (hx : s.pinned = some x) (hready : s.phase = .ready)
    (hstill : s'.phase = .ready) : s'.pinned = some x := by
  induction hrun with
  | nil => exact hx
  | @snoc t u tr e hrun hstep ih =>
    obtain ⟨hspared, hstep⟩ := step_of_stepSpared hstep
    have hleads : Run (HostedGateway.step p) s tr t := hrun.mono fun _ _ _ h =>
      (step_of_stepSpared h).2
    have ht : t.phase = .ready := by
      by_contra hnot
      have hbefore := leads_run hleads
      rw [hready] at hbefore
      exact hbefore.left (effect_step hstep).leads hnot hstill
    exact ((ha.run hrun).step hspared hstep).pinned x (ih ht) ht hstill

/-- **One chain.** In a run of a guided gateway whose events are all spared, what its identity is
pinned to does not change while it is ready; and when `verifyRpc` has resolved, both of its requests
went to the endpoint that it was given. -/
theorem chain_pinned (p : Platform) {config : Config} (hkind : config.kind = .guided)
    {now : Int} {spawned : Bool}
    {s₀ : HostedGateway} (hstart : start config now spawned = some s₀)
    {tr : List Event} {s : HostedGateway}
    (hrun : Run (stepSpared p) s₀ tr s) :
    (∀ {x : String × Option String × Option String} {tr' : List Event} {s' : HostedGateway},
      s.pinned = some x →
      s.phase = .ready → Run (stepSpared p) s tr' s' → s'.phase = .ready → s'.pinned = some x)
    ∧ ∀ {i : Nat} {h : Handler} {v : Verification} {values : List JsonValue},
      s.handlers[i]? = some h →
      h.place = .verified v values → v.asked = [v.chain.rpcUrl, v.chain.rpcUrl] := by
  have ha := (agreed_start hkind hstart).run hrun
  refine ⟨fun hx hready hrun' hstill => ha.pinned_run hrun' hx hready hstill,
    fun {i h v values} hh hplace => ?_⟩
  exact ha.resolved h (List.mem_of_getElem? hh) v values hplace

end HostedGateway

namespace Sample

/-- The chain of a first validator. -/
def first : NamedChain where
  rpcUrl := "http://127.0.0.1:19001/"
  genesisHash := "11111111111111111111111111111112"
  deploymentDomainHex := "0000000000000000000000000000000000000000000000000000000000000001"

/-- The chain of a second one. -/
def second : NamedChain where
  rpcUrl := "http://127.0.0.1:19002/"
  genesisHash := "11111111111111111111111111111113"
  deploymentDomainHex := "0000000000000000000000000000000000000000000000000000000000000002"

/-- The state of a guided demo on a chain. -/
def stateOn (chain : NamedChain) : Reply :=
  .response 200 (some (.object [("schemaVersion", .number 4), ("runtimeId", .string "guided-a"),
    ("status", .string "ready"), ("asset", .object [("id", .string "xstocks-test-kox")]),
    ("snapshot", .object [("asset", .object [("id", .string "xstocks-test-kox")]),
      ("dividendXProgram", .string programId), ("genesisHash", .string chain.genesisHash),
      ("rpcUrl", .string chain.rpcUrl)])]))

/-- What a chain answers to `getGenesisHash`. -/
def genesis (chain : NamedChain) : Reply :=
  .response 200 (some (.object [("result", .string chain.genesisHash)]))

/-- What a chain answers to `getAccountInfo`. -/
def program : Reply :=
  .response 200 (some (.object [("result", .object [("value",
    .object [("executable", .bool true), ("owner", .string UPGRADEABLE_LOADER_ID)])])]))

/-- Two states are read at once, which name a chain each. Both verifications have begun when the
chains answer; in the end that of the first one has resolved. -/
def reads (one other : NamedChain) : List HostedGateway.Event :=
  [.discovered (state "guided-a" "idle"), .request (request "GET" "/state" none),
    .request (request "GET" "/state" none), .reply 0 (stateOn one), .reply 1 (stateOn other),
    .proceed 0, .proceed 1, .rpc 0 (genesis one), .rpc 1 (genesis other), .rpc 0 program]

/-- The second one resolves, too. -/
def resolves : List HostedGateway.Event := [.rpc 1 program, .proceed 1]

end Sample

namespace HostedGateway

/-- Two reads of one state at once. -/
theorem chain_pinned_sample : ∃ s₀ s s', start Sample.config 0 true = some s₀
    ∧ Run (stepSpared Sample.platform) s₀ (Sample.reads Sample.first Sample.first ++ [.proceed 0]) s
    ∧ s.pinned = some Sample.first.pin ∧ Run (stepSpared Sample.platform) s Sample.resolves s'
    ∧ s'.pinned = some Sample.first.pin := by
  have hsample : (start Sample.config 0 true).any (fun s₀ =>
      (runAll (stepSpared Sample.platform) s₀
          (Sample.reads Sample.first Sample.first ++ [.proceed 0])).any fun s =>
        s.pinned = some Sample.first.pin && s.phase = .ready
          && (runAll (stepSpared Sample.platform) s Sample.resolves).any fun s' =>
            s'.phase = .ready) = true := by
    decide +kernel
  rw [Option.any_eq_true] at hsample
  obtain ⟨s₀, hstart, hsample⟩ := hsample
  rw [Option.any_eq_true] at hsample
  obtain ⟨s, hrun, hvalues⟩ := hsample
  rw [Bool.and_eq_true, Bool.and_eq_true, decide_eq_true_eq, decide_eq_true_eq,
    Option.any_eq_true] at hvalues
  obtain ⟨⟨hpinned, hready⟩, s', hrun', hstill⟩ := hvalues
  have hrun := runAll_eq_some.mp hrun
  have hrun' := runAll_eq_some.mp hrun'
  have hkept := (chain_pinned Sample.platform rfl hstart hrun).1 hpinned hready hrun'
    (of_decide_eq_true hstill)
  exact ⟨s₀, s, s', hstart, hrun, hpinned, hrun', hkept⟩

/-- Two reads at once that name two chains: the first verification's second request goes to the
second chain, and the gateway is ready while what it is pinned to changes. -/
theorem overlapping_chains : ∃ s₀ s₁ s s', start Sample.config 0 true = some s₀
    ∧ Run (step Sample.platform) s₀ (Sample.reads Sample.first Sample.second) s₁
    ∧ (∃ h v values, s₁.handlers[0]? = some h ∧ h.place = .verified v values
      ∧ v.chain = Sample.first ∧ v.asked = [Sample.first.rpcUrl, Sample.second.rpcUrl])
    ∧ s₁.step Sample.platform (.proceed 0) = some s ∧ s.phase = .ready
      ∧ s.pinned = some Sample.first.pin
    ∧ Run (step Sample.platform) s Sample.resolves s' ∧ s'.phase = .ready
    ∧ s'.pinned = some Sample.second.pin := by
  have hsample : (start Sample.config 0 true).any (fun s₀ =>
      (runAll (step Sample.platform) s₀ (Sample.reads Sample.first Sample.second)).any fun s₁ =>
        (s₁.handlers[0]?.any fun h => match h.place with
          | .verified v _ =>
            v.chain = Sample.first && v.asked = [Sample.first.rpcUrl, Sample.second.rpcUrl]
          | _ => false)
        && (s₁.step Sample.platform (.proceed 0)).any fun s =>
          (s.phase = .ready && s.pinned = some Sample.first.pin)
          && (runAll (step Sample.platform) s Sample.resolves).any fun s' =>
            s'.phase = .ready && s'.pinned = some Sample.second.pin) = true := by
    decide +kernel
  rw [Option.any_eq_true] at hsample
  obtain ⟨s₀, hstart, hsample⟩ := hsample
  rw [Option.any_eq_true] at hsample
  obtain ⟨s₁, hrun₁, hsample⟩ := hsample
  rw [Bool.and_eq_true, Option.any_eq_true, Option.any_eq_true] at hsample
  obtain ⟨⟨h, hh, hverified⟩, s, hproceed, hsample⟩ := hsample
  rw [Bool.and_eq_true, Bool.and_eq_true, decide_eq_true_eq, decide_eq_true_eq,
    Option.any_eq_true] at hsample
  obtain ⟨⟨hready, hpinned⟩, s', hrun', hvalues⟩ := hsample
  rw [Bool.and_eq_true, decide_eq_true_eq, decide_eq_true_eq] at hvalues
  have hasked : ∃ v values, h.place = .verified v values ∧ v.chain = Sample.first
      ∧ v.asked = [Sample.first.rpcUrl, Sample.second.rpcUrl] := by
    split at hverified
    · rename_i v values hplace
      rw [Bool.and_eq_true, decide_eq_true_eq, decide_eq_true_eq] at hverified
      exact ⟨v, values, hplace, hverified⟩
    · cases hverified
  obtain ⟨v, values, hasked⟩ := hasked
  exact ⟨s₀, s₁, s, s', hstart, runAll_eq_some.mp hrun₁, ⟨h, v, values, hh, hasked⟩,
    hproceed, hready, hpinned, runAll_eq_some.mp hrun', hvalues⟩

end HostedGateway

end Gateway

end DividendX
