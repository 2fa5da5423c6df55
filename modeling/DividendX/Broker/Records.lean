import DividendX.Broker.Effects
import DividendX.Broker.Repository
import DividendX.Lib.History

/-!
# The life of a session record

What any change can do to a record, and what that leaves between two versions of one record in the
history of the ledger (`Advances`): the entry stays, a status is left for good, and from the moment
the session is launched or ready what identifies it is pinned.

The changes are those the broker asks for (`Justified`): it draws a fresh id for every reservation,
launches a session once, and publishes it only after that.
-/

namespace DividendX

namespace Broker

open Devnet (Instant Digest)
open Result History

/-! ## Changes of a record -/

namespace Mutation

/-- The status a change sets. -/
def status? : Mutation → Option StoredSessionStatus
  | .close stopped _ => some (if stopped then .expired else .failed)
  | .createUnknown _ | .launchUnknown | .resetFailed _ | .providerStopped _ | .failClosed _ _ _ =>
    some .failed
  | .resetting _ => some .resetting
  | .resetDone => some .expired
  | .ready _ _ => some .ready
  | .gone view => some (if view.status.terminal then .failed else .expired)
  | .timeoutStopped _ | .launchFence _ | .observe _ | .observeRunning _ | .pinGenesis _ => none

/-- The provider status a change records. -/
def seen? : Mutation → Option RecordedStatus
  | .close stopped observed | .failClosed _ stopped observed =>
    some (if stopped then .deleted else observedStatus observed)
  | .timeoutStopped stopped => some (if stopped then .deleted else .unknown)
  | .createUnknown observed => some (match observed with
    | some view => if view.status ≠ .missing then .reported view.status else .unknown
    | none => .unknown)
  | .launchFence view | .observe view | .observeRunning view | .gone view =>
    some (.reported view.status)
  | .launchUnknown => some (.reported .running)
  | .resetFailed observed => some (observedStatus observed)
  | .resetDone => some .deleted
  | .providerStopped status => some (.reported status)
  | .resetting _ | .ready _ _ | .pinGenesis _ => none

/-- The domain a change brings. -/
def domain? : Mutation → Option String
  | .launchFence view | .observeRunning view => view.domain
  | .createUnknown observed => observed.bind ProviderView.domain
  | _ => none

end Mutation

/-- The genesis hash of the snapshot in a guided state. -/
def snapshotGenesis (value : JsonValue) : Option String :=
  (value.get? "snapshot").bind fun snapshot =>
    (snapshot.get? "genesisHash").bind fun genesis => JsonValue.string? (some genesis)

/-- What a record keeps for good. -/
structure SessionRecord.SameEntry (r r' : SessionRecord) : Prop where
  id : r'.id = r.id
  meterVersion : r'.meterVersion = r.meterVersion
  visitorHash : r'.visitorHash = r.visitorHash
  kind : r'.kind = r.kind
  providerName : r'.providerName = r.providerName
  expiresAt : r'.expiresAt = r.expiresAt

theorem SessionRecord.SameEntry.refl (r : SessionRecord) : r.SameEntry r :=
  ⟨rfl, rfl, rfl, rfl, rfl, rfl⟩

theorem SessionRecord.SameEntry.trans {r r' r'' : SessionRecord} (h : r.SameEntry r')
    (h' : r'.SameEntry r'') : r.SameEntry r'' :=
  ⟨h'.id.trans h.id, h'.meterVersion.trans h.meterVersion, h'.visitorHash.trans h.visitorHash,
    h'.kind.trans h.kind, h'.providerName.trans h.providerName, h'.expiresAt.trans h.expiresAt⟩

variable {limits : Limits} {now : Instant} {r r' : SessionRecord} {m : Mutation}

/-- `extendTombstone` only moves the tombstone. -/
theorem extendTombstone_eq_ok {expiresAt : Option Instant}
    (h : extendTombstone r expiresAt limits = .ok r') :
    ∃ tombstoneUntil, r' = { r with tombstoneUntil := tombstoneUntil } := by
  unfold extendTombstone at h
  split at h
  · cases h
    exact ⟨_, rfl⟩
  · simp only at h
    split at h
    · simp only [bind_eq_ok, pure_eq_ok] at h
      obtain ⟨tombstoneUntil, -, rfl⟩ := h
      exact ⟨tombstoneUntil, rfl⟩
    · cases h
      exact ⟨_, rfl⟩

/-- What a change leaves of a record. -/
structure Changed (m : Mutation) (r r' : SessionRecord) : Prop where
  entry : r.SameEntry r'
  status : r'.status = m.status?.getD r.status
  providerStatus : r'.providerStatus = m.seen?.or r.providerStatus
  providerExpiresAt : m.seen? = none → r'.providerExpiresAt = r.providerExpiresAt
  launched : r'.launchAttemptedAt ≠ none ↔
    (r.launchAttemptedAt ≠ none ∨ ∃ view, m = .launchFence view)
  domain : ∀ d, r'.providerDomain = some d → r.providerDomain = some d ∨ m.domain? = some d
  providerDomain : (∀ view, m ≠ .launchFence view) → (∀ observed, m ≠ .createUnknown observed) →
    ∀ d, r.providerDomain = some d → r'.providerDomain = some d
  runtimeId : (∀ rt identity, m ≠ .ready rt identity) →
    r'.runtimeId = r.runtimeId ∧ r'.deploymentDomainHex = r.deploymentDomainHex
  genesisHash : (∀ rt identity, m ≠ .ready rt identity) → (∀ g, m ≠ .pinGenesis g) →
    r'.genesisHash = r.genesisHash

/-- `validateGuidedState` returns the genesis hash of the snapshot. -/
theorem validateGuidedState_eq_ok {value : JsonValue} {g : String}
    (h : validateGuidedState value r = .ok (some g)) : snapshotGenesis value = some g := by
  rw [validateGuidedState] at h
  simp only [bind_eq_ok, require_eq_ok] at h
  obtain ⟨-, -, -, -, h⟩ := h
  split at h
  · cases h
  · obtain ⟨snapshot, hsnapshot, h⟩ := bind_eq_ok.mp h
    rw [okOr_eq_ok, Option.filter_eq_some_iff] at hsnapshot
    split at h
    · cases h
    · rename_i genesis hgenesis
      simp only [bind_eq_ok, require_eq_ok, okOr_eq_ok, pure_eq_ok] at h
      obtain ⟨g', hg', -, -, heq⟩ := h
      cases heq
      simp only [snapshotGenesis, hsnapshot.1, hgenesis, Option.bind_some, hg']

/-- A record that is published: its runtime is recorded, with the identity the runtime gave. -/
theorem ready_eq_ok {rt : String} {identity : JsonValue}
    (h : (Mutation.ready rt identity).apply limits now r = .ok r') :
    ∃ genesisHash deploymentDomainHex,
      r' = { r with
        runtimeId := some rt
        genesisHash := genesisHash
        deploymentDomainHex := deploymentDomainHex
        status := .ready
        errorCode := none }
      ∧ (r.kind = .guided →
        genesisHash = r.genesisHash ∨ genesisHash = snapshotGenesis identity) := by
  cases hkind : r.kind with
  | wallet =>
    simp only [Mutation.apply, hkind, bind_eq_ok, pure_eq_ok] at h
    obtain ⟨⟨genesisHash, deploymentDomainHex⟩, -, _, rfl, rfl⟩ := h
    exact ⟨some genesisHash, some deploymentDomainHex, rfl, fun hguided => by cases hguided⟩
  | guided =>
    simp only [Mutation.apply, hkind, bind_eq_ok, pure_eq_ok] at h
    obtain ⟨genesisHash, hvalid, _, rfl, rfl⟩ := h
    cases genesisHash with
    | none => exact ⟨r.genesisHash, r.deploymentDomainHex, rfl, fun _ => .inl rfl⟩
    | some g =>
      exact ⟨some
        g, r.deploymentDomainHex, rfl, fun _ => .inr (validateGuidedState_eq_ok hvalid).symm⟩

/-- A genesis hash is pinned unless it differs from the one that is there. -/
theorem pinGenesis_eq_ok {g : String} (h : (Mutation.pinGenesis g).apply limits now r = .ok r') :
    differs r.genesisHash g = false ∧ r' = { r with genesisHash := some g } := by
  simp only [Mutation.apply, bind_eq_ok, pure_eq_ok, require_eq_ok] at h
  obtain ⟨-, hsame, rfl⟩ := h
  exact ⟨hsame, rfl⟩

/-- **What a change can do to a record.** -/
theorem Mutation.changed (h : m.apply limits now r = .ok r') : Changed m r r' := by
  cases m with
  | launchFence view =>
    simp only [apply, bind_eq_ok, pure_eq_ok] at h
    obtain ⟨r₁, hr₁, rfl⟩ := h
    obtain ⟨tombstoneUntil, rfl⟩ := extendTombstone_eq_ok hr₁
    exact ⟨⟨rfl, rfl, rfl, rfl, rfl, rfl⟩, rfl, rfl, by simp [seen?], by simp,
      fun d hd => .inr hd, by simp, by simp, by simp⟩
  | ready rt identity =>
    obtain ⟨genesisHash, deploymentDomainHex, rfl, -⟩ := ready_eq_ok h
    exact ⟨⟨rfl, rfl, rfl, rfl, rfl, rfl⟩, rfl, rfl, fun _ => rfl, by simp,
      fun d hd => .inl hd, by simp, by simp, by simp⟩
  | pinGenesis g =>
    obtain ⟨-, rfl⟩ := pinGenesis_eq_ok h
    exact ⟨⟨rfl, rfl, rfl, rfl, rfl, rfl⟩, rfl, rfl, fun _ => rfl, by simp,
      fun d hd => .inl hd, by simp, by simp, by simp⟩
  | observeRunning view =>
    obtain ⟨tombstoneUntil, rfl⟩ := extendTombstone_eq_ok h
    refine ⟨⟨rfl, rfl, rfl, rfl, rfl, rfl⟩, rfl, rfl, by simp [seen?], by simp,
      fun d hd => ?_, fun _ _ d hd => ?_, by simp, by simp⟩
    · cases hdomain : r.providerDomain with
      | none =>
        simp only [hdomain] at hd
        exact .inr hd
      | some d' =>
        simp only [hdomain] at hd
        exact .inl hd
    · simp only [hd]
  | createUnknown observed =>
    obtain ⟨tombstoneUntil, rfl⟩ := extendTombstone_eq_ok h
    exact ⟨⟨rfl, rfl, rfl, rfl, rfl, rfl⟩, rfl, rfl, by simp [seen?], by simp,
      fun d hd => .inr hd, by simp, by simp, by simp⟩
  | close stopped observed | resetFailed observed | observe view
  | failClosed code stopped observed =>
    obtain ⟨tombstoneUntil, rfl⟩ := extendTombstone_eq_ok h
    exact ⟨⟨rfl, rfl, rfl, rfl, rfl, rfl⟩, rfl, rfl, by simp [seen?], by simp,
      fun d hd => .inl hd, by simp, by simp, by simp⟩
  | timeoutStopped stopped | launchUnknown | resetting current | resetDone | providerStopped status
  | gone view =>
    cases h
    exact ⟨⟨rfl, rfl, rfl, rfl, rfl, rfl⟩, rfl, rfl, by simp [seen?], by simp,
      fun d hd => .inl hd, by simp, by simp, by simp⟩

/-! ## Where a stored record comes from -/

/-- A request changes a record that its fence lets it change. -/
inductive Request.Changes (latest : Record (Digest × SandboxKind) SessionId) (id : SessionId)
    (m : Mutation) (now : Instant) (r : SessionRecord) : Request → Prop
  | update : Changes latest id m now r (.update id m)
  | updateFenced {allowed : List StoredSessionStatus} {requireLatest : Bool} : r.status ∈ allowed →
      (requireLatest = true → latest.get? (r.visitorHash, r.kind) = some id) →
      isFuture r.expiresAt now = true → Changes latest id m now r
        (.updateFenced id allowed requireLatest m)

/-- A record after a transaction: it is as before, up to normalization, or it was changed, or it is
new. -/
inductive Origin (limits : Limits) (ledger : SessionLedger) (t : Transaction) (id : SessionId)
    (r' : SessionRecord) : Prop
  | kept {r : SessionRecord} : ledger.sessions.get? id = some r → r' = normalizeRecord t.now r →
      Origin limits ledger t id r'
  | changed {r : SessionRecord} {m : Mutation} {latest : Record (Digest × SandboxKind) SessionId} :
      ledger.sessions.get? id = some r →
      (∀ k, latest.get? k = some id → ledger.latest.get? k = some id) →
      t.request.Changes latest id m t.now (normalizeRecord t.now r) →
      m.apply limits t.now (normalizeRecord t.now r) = .ok r' → Origin limits ledger t id r'
  | created {input : ReserveInput} : t.request = .reserve input → input.id = id →
      newRecord limits input t.now = .ok r' → Origin limits ledger t id r'
  | charged {r : SessionRecord} : ledger.sessions.get? id = some r → r.meterVersion = none →
      Origin limits ledger t id r'

variable {ledger next : SessionLedger} {outcome : Outcome} {t : Transaction} {id : SessionId}

theorem meterVersion_normalizeRecord (now : Instant) (r : SessionRecord) :
    (normalizeRecord now r).meterVersion = r.meterVersion := by
  rw [normalizeRecord]
  split
  · rfl
  · split <;> rfl

/-- A new record is starting, and nothing has happened to it. -/
theorem newRecord_eq_ok {input : ReserveInput} (h : newRecord limits input now = .ok r) :
    r.id = input.id ∧ r.meterVersion = some 1 ∧ r.visitorHash = input.visitorHash
      ∧ r.kind = input.kind
      ∧ r.providerName = input.providerName ∧ r.status = .starting ∧ r.launchAttemptedAt = none
      ∧ r.providerStatus = none ∧ r.providerExpiresAt = none ∧ r.providerDomain = none
      ∧ r.runtimeId = none ∧ r.genesisHash = none ∧ r.deploymentDomainHex = none := by
  simp only [newRecord, bind_eq_ok, pure_eq_ok] at h
  obtain ⟨_, -, _, -, _, -, rfl⟩ := h
  exact ⟨rfl, rfl, rfl, rfl, rfl, rfl, rfl, rfl, rfl, rfl, rfl, rfl, rfl⟩

/-- **Where a stored record comes from**: it is new, or the one before, changed. -/
theorem Transaction.origin (h : t.apply limits ledger = .ok (next, outcome))
    (hget : next.sessions.get? id = some r') : Origin limits ledger t id r' := by
  obtain ⟨cutoff, mid, -, hrequest, rfl⟩ := apply_eq_ok h
  -- What the request does not touch is the record before, normalized.
  have hkept : (normalized ledger t.now cutoff).sessions.get? id = some r' →
      Origin limits ledger t id r' := by
    intro hnorm
    obtain ⟨r, hr, heq, -⟩ := get?_normalizeSessions.mp hnorm
    exact .kept hr heq
  have hlatest : ∀ k, (normalized ledger t.now cutoff).latest.get? k = some id →
      ledger.latest.get? k = some id := by
    intro k hk
    simp only [normalized, Record.get?_filter, Option.filter_eq_some_iff] at hk
    exact hk.1
  obtain ⟨now, request⟩ := t
  cases request with
  | reserve input =>
    -- the visitor's session in use is returned, or a new one is added
    rcases reserve_eq_ok hrequest with ⟨rfl, -⟩ | ⟨-, hcreates⟩
    · exact hkept hget
    · rw [hcreates.next] at hget
      simp only [Record.get?_set] at hget
      split at hget
      · rename_i hid
        cases hget
        exact .created rfl (((newRecord_eq_ok hcreates.made).1).symm.trans hid.symm) hcreates.made
      · exact hkept hget
  | update id' m =>
    obtain ⟨r, hr, happly, -, rfl⟩ := update_eq_ok hrequest
    simp only [Record.get?_set] at hget
    split at hget
    · rename_i hid
      subst hid
      cases hget
      obtain ⟨r₀, hr₀, rfl, -⟩ := get?_normalizeSessions.mp hr
      exact .changed hr₀ hlatest .update happly
    · exact hkept hget
  | updateFenced id' allowed requireLatest m =>
    obtain ⟨r, hr, ⟨rfl, -⟩ | ⟨hstatus, hfence, hfuture, happly, -, rfl⟩⟩ :=
      updateFenced_eq_ok hrequest
    · exact hkept hget
    · simp only [Record.get?_set] at hget
      split at hget
      · rename_i hid
        subst hid
        cases hget
        obtain ⟨r₀, hr₀, rfl, -⟩ := get?_normalizeSessions.mp hr
        exact .changed hr₀ hlatest (.updateFenced hstatus hfence hfuture) happly
      · exact hkept hget
  | charge id' visitorHash kind mutationCount =>
    obtain ⟨r, _, _, _, _, hr, hmeter, -, rfl⟩ := charge_eq_ok hrequest
    simp only [Record.get?_set] at hget
    split at hget
    · rename_i hid
      subst hid
      obtain ⟨r₀, hr₀, rfl, -⟩ := get?_normalizeSessions.mp hr
      exact .charged hr₀ ((meterVersion_normalizeRecord now r₀).symm.trans hmeter)
    · exact hkept hget

/-! ## Requests of the broker -/

/-- What only the call that drew a session id may do with it. -/
inductive Right
  | reserve
  | launch
deriving DecidableEq

/-- A right to a session id. -/
abbrev Token : Type := Right × SessionId

/-- The right a request makes use of. -/
def Request.token : Request → Option Token
  | .reserve input => some (.reserve, input.id)
  | .updateFenced id _ _ (.launchFence _) => some (.launch, id)
  | _ => none

/-- Some write has made use of a right. -/
def Taken (log : List (Write Transaction SessionLedger)) (token : Token) : Prop :=
  ∃ w ∈ log, w.change.request.token = some token

/-- The stored record of a session. -/
def stored (log : List (Write Transaction SessionLedger)) (id : SessionId) : Option SessionRecord :=
  (content emptyLedger log).sessions.get? id

/-- Requests as the broker makes them, after some writes. `named` stands for guided snapshots that
never show an empty genesis hash. -/
def Justified (deps : Deps) (named : Prop) (log : List (Write Transaction SessionLedger)) :
    Request → Prop
  | .reserve input =>
    input.providerName = deps.providerName input.id ∧ ¬ Taken log (.reserve, input.id)
  | .update id m => match m with
    | .pinGenesis g => (named → g ≠ "")
      ∧ ∀ r, stored log id = some r → r.kind = .guided ∧ r.status ≠ .starting
    | .createUnknown observed =>
      observed.bind ProviderView.domain ≠ some "" ∧ ¬ Taken log (.launch, id)
    | .launchFence _ | .ready _ _ => False
    | m => m.domain? ≠ some ""
  | .updateFenced id allowed requireLatest m => match m with
    | .launchFence created =>
      created.domain ≠ some "" ∧ allowed = [.starting] ∧ ¬ Taken log (.launch, id)
    | .ready _ identity => (named → snapshotGenesis identity ≠ some "")
      ∧ allowed = [.starting] ∧ requireLatest = true
      ∧ ∀ r, stored log id = some r → r.launchAttemptedAt ≠ none ∧ r.providerDomain ≠ none
    | .failClosed _ _ _ => True
    | _ => False
  | .charge _ _ _ _ => True

/-- A write that a broker's transaction makes on the ledger it read. -/
def Allowed (deps : Deps) (named : Prop) (log : List (Write Transaction SessionLedger))
    (w : Write Transaction SessionLedger) : Prop :=
  Justified deps named log w.change.request
    ∧ ∃ outcome, w.change.apply deps.limits (content emptyLedger log) = .ok (w.value, outcome)

/-- What holds of every stored record. -/
structure Shape (deps : Deps) (named : Prop) (log : List (Write Transaction SessionLedger))
    (id : SessionId)
    (r : SessionRecord) : Prop where
  keyed : r.id = id
  meterVersion : r.meterVersion = some 1
  providerName : r.providerName = deps.providerName id
  reserved : Taken log (.reserve, id)
  launched : r.launchAttemptedAt ≠ none → Taken log (.launch, id) ∧ r.providerStatus ≠ none
  starting : r.status = .starting →
    r.runtimeId = none ∧ r.genesisHash = none ∧ r.deploymentDomainHex = none
  published : r.runtimeId ≠ none → r.launchAttemptedAt ≠ none ∧ r.providerDomain ≠ none
  ready : r.status = .ready → r.runtimeId ≠ none
  domain : r.providerDomain ≠ some ""
  expiry : r.providerStatus = none → r.providerExpiresAt = none
  genesis : named → r.kind = .guided → r.genesisHash ≠ some ""

/-- Two versions of one record, the second the later. -/
structure Advances (named : Prop) (r r' : SessionRecord) : Prop where
  entry : r.SameEntry r'
  starting : r'.status = .starting → r.status = .starting
  ready : r'.status = .ready → r.status = .starting ∨ r.status = .ready
  launched : r.launchAttemptedAt ≠ none → r'.launchAttemptedAt ≠ none
  domain : r.launchAttemptedAt ≠ none → ∀ d, r.providerDomain = some d → r'.providerDomain = some d
  runtime : r.status ≠ .starting →
    r'.runtimeId = r.runtimeId ∧ r'.deploymentDomainHex = r.deploymentDomainHex
  genesis : named → ∀ g, r.genesisHash = some g → r'.genesisHash = some g

variable {deps : Deps} {named : Prop} {log : List (Write Transaction SessionLedger)}
  {w : Write Transaction SessionLedger} {r'' : SessionRecord}

theorem Advances.refl (named : Prop) (r : SessionRecord) : Advances named r r :=
  ⟨.refl r, fun h => h, .inr, fun h => h, fun _ _ h => h, fun _ => ⟨rfl, rfl⟩, fun _ _ h => h⟩

theorem Advances.trans (h : Advances named r r') (h' : Advances named r' r'') :
    Advances named r r'' := by
  refine ⟨h.entry.trans h'.entry, fun hs => h.starting (h'.starting hs), fun hs => ?_,
    fun hl => h'.launched (h.launched hl), fun hl d hd =>
      h'.domain (h.launched hl) d (h.domain hl d hd),
    fun hs => ?_, fun hn g hg => h'.genesis hn g (h.genesis hn g hg)⟩
  · rcases h'.ready hs with hstarting | hready
    · exact .inl (h.starting hstarting)
    · exact h.ready hready
  · obtain ⟨h₁, h₂⟩ := h.runtime hs
    obtain ⟨h₁', h₂'⟩ := h'.runtime fun hs' => hs (h.starting hs')
    exact ⟨h₁'.trans h₁, h₂'.trans h₂⟩

/-- A right that was taken stays taken. -/
theorem Taken.append {token : Token} (h : Taken log token) (w : Write Transaction SessionLedger) :
    Taken (log ++ [w]) token := by
  obtain ⟨v, hv, htoken⟩ := h
  exact ⟨v, List.mem_append_left _ hv, htoken⟩

/-! ## One more write -/

/-- Normalizing leaves a record, or ends it. -/
theorem normalizeRecord_cases (now : Instant) (r : SessionRecord) : normalizeRecord now r = r ∨
    (isFuture r.expiresAt now = false
      ∧ normalizeRecord now r = { r with status := .expired, errorCode := some "expired" }) ∨
    (r.status = .starting
      ∧ normalizeRecord now r
        = { r with status := .failed, errorCode := some "provisioning_timeout" }) := by
  rw [normalizeRecord]
  split
  · rename_i h
    exact .inr (.inl ⟨h.1, rfl⟩)
  · split
    · rename_i h
      exact .inr (.inr ⟨h.1, rfl⟩)
    · exact .inl rfl

/-- Normalizing only expires. -/
theorem advances_normalizeRecord (named : Prop) (now : Instant) (r : SessionRecord) :
    Advances named r (normalizeRecord now r) := by
  rcases normalizeRecord_cases now r with heq | ⟨-, heq⟩ | ⟨-, heq⟩
  · rw [heq]
    exact .refl named r
  · rw [heq]
    exact ⟨⟨rfl, rfl, rfl, rfl, rfl, rfl⟩, nofun, nofun, fun h => h,
      fun _ _ h => h, fun _ => ⟨rfl, rfl⟩, fun _ _ h => h⟩
  · rw [heq]
    exact ⟨⟨rfl, rfl, rfl, rfl, rfl, rfl⟩, nofun, nofun, fun h => h,
      fun _ _ h => h, fun _ => ⟨rfl, rfl⟩, fun _ _ h => h⟩

/-- And keeps the shape of a record. -/
theorem Shape.normalize (h : Shape deps named log id r) (now : Instant) :
    Shape deps named log id (normalizeRecord now r) := by
  rcases normalizeRecord_cases now r with heq | ⟨-, heq⟩ | ⟨-, heq⟩
  · rw [heq]
    exact h
  · rw [heq]
    exact ⟨h.keyed, h.meterVersion, h.providerName, h.reserved, h.launched,
      nofun, h.published, nofun, h.domain, h.expiry, h.genesis⟩
  · rw [heq]
    exact ⟨h.keyed, h.meterVersion, h.providerName, h.reserved, h.launched,
      nofun, h.published, nofun, h.domain, h.expiry, h.genesis⟩

/-- The shape of a record does not depend on later writes. -/
theorem Shape.append (h : Shape deps named log id r) (w : Write Transaction SessionLedger) :
    Shape deps named (log ++ [w]) id r :=
  ⟨h.keyed, h.meterVersion, h.providerName, h.reserved.append w,
    fun hl => ⟨(h.launched hl).1.append w, (h.launched hl).2⟩, h.starting,
      h.published, h.ready, h.domain,
    h.expiry, h.genesis⟩

/-- What a justified change may count on. -/
structure Fair (named : Prop) (m : Mutation) (r : SessionRecord) : Prop where
  launchFence : ∀ view, m = .launchFence view → r.status = .starting ∧ r.launchAttemptedAt = none
  createUnknown : ∀ observed, m = .createUnknown observed → r.launchAttemptedAt = none
  ready : ∀ rt identity, m = .ready rt identity → r.status = .starting ∧ r.launchAttemptedAt ≠ none
    ∧ r.providerDomain ≠ none ∧ (named → snapshotGenesis identity ≠ some "")
  pinGenesis : ∀ g, m = .pinGenesis g → r.kind = .guided ∧ r.status ≠ .starting ∧ (named → g ≠ "")
  domain : m.domain? ≠ some ""

/-- A justified change is fair to the record it changes. -/
theorem fair_of_justified {request : Request} {latest : Record (Digest × SandboxKind) SessionId}
    {r₀ : SessionRecord} (h : Shape deps named log id r) (hjust : Justified deps named log request)
    (hch : request.Changes latest id m now r) (hr₀ : stored log id = some r₀)
    (heq : r = normalizeRecord now r₀) : Fair named m r := by
  have hadv := advances_normalizeRecord named now r₀
  rw [← heq] at hadv
  -- What no write of the log has launched is not launched.
  have hunlaunched : ¬ Taken log (.launch, id) → r.launchAttemptedAt = none := fun hnot =>
    Decidable.not_not.mp fun hl => hnot (h.launched hl).1
  cases hch with
  | update =>
    cases m with
    | launchFence view => exact hjust.elim
    | ready rt identity => exact hjust.elim
    | pinGenesis g =>
      obtain ⟨hg, hall⟩ := hjust
      obtain ⟨hkind, hstatus⟩ := hall r₀ hr₀
      refine ⟨by simp, by simp, by simp, fun g' hg' => ?_, by simp [Mutation.domain?]⟩
      cases hg'
      exact ⟨hadv.entry.kind.trans hkind, fun hs => hstatus (hadv.starting hs), hg⟩
    | createUnknown observed =>
      obtain ⟨hdomain, hnot⟩ := hjust
      exact ⟨by simp, fun _ _ => hunlaunched hnot, by simp, by simp, hdomain⟩
    | close | timeoutStopped | launchUnknown | resetting | resetFailed | resetDone | providerStopped
    | observe | observeRunning | failClosed | gone =>
      exact ⟨by simp, by simp, by simp, by simp, hjust⟩
  | updateFenced hstatus _ _ =>
    cases m with
    | launchFence view =>
      obtain ⟨hdomain, rfl, hnot⟩ := hjust
      refine ⟨fun _ _ =>
        ⟨List.mem_singleton.mp hstatus, hunlaunched hnot⟩, by simp, by simp, by simp, hdomain⟩
    | ready rt identity =>
      obtain ⟨hnamed, rfl, -, hall⟩ := hjust
      obtain ⟨hlaunched, hdomain⟩ := hall r₀ hr₀
      refine ⟨by simp, by simp, fun rt' identity' hm => ?_, by simp, by simp [Mutation.domain?]⟩
      cases hm
      obtain ⟨d, hd⟩ := Option.ne_none_iff_exists'.mp hdomain
      exact ⟨List.mem_singleton.mp hstatus, hadv.launched hlaunched,
        by rw [hadv.domain hlaunched d hd]; exact Option.some_ne_none d, hnamed⟩
    | failClosed code stopped observed =>
      exact ⟨by simp, by simp, by simp, by simp, by simp [Mutation.domain?]⟩
    | close | timeoutStopped | launchUnknown | resetting | resetFailed | resetDone | providerStopped
    | observe | observeRunning | gone | createUnknown | pinGenesis => exact hjust.elim

/-- No mutation starts a session again. -/
theorem Mutation.status?_ne_starting (m : Mutation) : m.status? ≠ some .starting := by
  cases m with
  | close stopped observed => cases stopped <;> simp [Mutation.status?]
  | gone view =>
    simp only [Mutation.status?]
    split <;> simp
  | createUnknown | launchUnknown | resetFailed | providerStopped | failClosed | resetting
  | resetDone | timeoutStopped | launchFence | observe | observeRunning | pinGenesis | ready =>
    simp [Mutation.status?]

/-- Only one makes it ready. -/
theorem Mutation.ready_of_status? (h : m.status? = some .ready) : ∃ rt identity,
    m = .ready rt identity := by
  cases m with
  | ready rt identity => exact ⟨rt, identity, rfl⟩
  | close stopped observed => cases stopped <;> cases h
  | gone view =>
    simp only [Mutation.status?] at h
    split at h <;> cases h
  | createUnknown | launchUnknown | resetFailed | providerStopped | failClosed | resetting
  | resetDone | timeoutStopped | launchFence | observe | observeRunning | pinGenesis => cases h

/-- A text that does not differ from one that is there is the same. -/
theorem eq_of_differs {g g' : String} (h : differs (some g) g' = false) (hg : g ≠ "") : g = g' := by
  simp only [differs, Bool.and_eq_false_iff, decide_eq_false_iff_not, not_not] at h
  exact h.resolve_left hg

/-- A fair change of a record advances it. -/
theorem Fair.advances (h : Fair named m r) (hshape : Shape deps named log id r)
    (happly : m.apply limits now r = .ok r') : Advances named r r' := by
  have hc := Mutation.changed happly
  refine ⟨hc.entry, fun hs => ?_, fun hs => ?_, fun hl => hc.launched.mpr (.inl hl),
    fun hl d hd => ?_,
    fun hs => hc.runtimeId fun rt identity hm => hs (h.ready rt identity hm).1, fun hn g hg => ?_⟩
  · have hstatus := hc.status
    cases hm : m.status? with
    | none =>
      rw [hm, Option.getD_none] at hstatus
      rw [← hstatus]
      exact hs
    | some status =>
      rw [hm, Option.getD_some, hs] at hstatus
      exact absurd (hstatus ▸ hm) m.status?_ne_starting
  · have hstatus := hc.status
    cases hm : m.status? with
    | none =>
      rw [hm, Option.getD_none] at hstatus
      exact .inr (hstatus ▸ hs)
    | some status =>
      rw [hm, Option.getD_some, hs] at hstatus
      obtain ⟨rt, identity, heq⟩ := Mutation.ready_of_status? (hstatus ▸ hm)
      exact .inl (h.ready rt identity heq).1
  · refine hc.providerDomain (fun view hm => ?_) (fun observed hm => ?_) d hd
    · exact hl (h.launchFence view hm).2
    · exact hl (h.createUnknown observed hm)
  · -- a record with a genesis hash is not published again, and takes no other one
    by_cases hready : ∃ rt identity, m = .ready rt identity
    · obtain ⟨rt, identity, hm⟩ := hready
      have hnone := (hshape.starting (h.ready rt identity hm).1).2.1
      rw [hnone] at hg
      cases hg
    · by_cases hpin : ∃ g', m = .pinGenesis g'
      · obtain ⟨g', rfl⟩ := hpin
        obtain ⟨hsame, rfl⟩ := pinGenesis_eq_ok happly
        rw [hg] at hsame
        have hne : g ≠ "" := fun hempty => hshape.genesis hn (h.pinGenesis g' rfl).1 (hempty ▸ hg)
        exact congrArg some (eq_of_differs hsame hne).symm
      · rw [hc.genesisHash (fun rt identity hm => hready ⟨rt, identity, hm⟩)
          fun g' hm => hpin ⟨g', hm⟩]
        exact hg

/-- A fair change keeps the shape of a record. -/
theorem Fair.shape (h : Fair named m r) (hshape : Shape deps named log id r)
    (happly : m.apply limits now r = .ok r')
    (hlaunch : ∀ view, m = .launchFence view → w.change.request.token = some (.launch, id)) :
    Shape deps named (log ++ [w]) id r' := by
  have hc := Mutation.changed happly
  have hadv := h.advances hshape happly
  -- A record that is ready was so before, or this change makes it so.
  have hwas : r'.status ≠ .ready ∨ (∃ rt identity, m = .ready rt identity) ∨ r.status = .ready := by
    by_cases hs : r'.status = .ready
    · have hstatus := hc.status
      cases hm : m.status? with
      | none =>
        rw [hm, Option.getD_none] at hstatus
        exact .inr (.inr (hstatus ▸ hs))
      | some status =>
        rw [hm, Option.getD_some, hs] at hstatus
        exact .inr (.inl (Mutation.ready_of_status? (hstatus ▸ hm)))
    · exact .inl hs
  refine ⟨hc.entry.id.trans hshape.keyed, hc.entry.meterVersion.trans hshape.meterVersion,
    hc.entry.providerName.trans hshape.providerName, hshape.reserved.append w, fun hl => ?_,
    fun hs => ?_, fun hrt => ?_, fun hs => ?_, fun hd => ?_, fun hps => ?_, fun hn hkind => ?_⟩
  · rcases hc.launched.mp hl with hold | ⟨view, hm⟩
    · refine ⟨(hshape.launched hold).1.append w, ?_⟩
      rw [hc.providerStatus]
      cases m.seen? with
      | none => exact (hshape.launched hold).2
      | some s => exact Option.some_ne_none s
    · refine ⟨⟨w, by simp, hlaunch view hm⟩, ?_⟩
      rw [hc.providerStatus, hm]
      exact Option.some_ne_none _
  · have hready : ∀ rt identity, m ≠ .ready rt identity := by
      rintro rt identity rfl
      have hstatus := hc.status
      rw [hs] at hstatus
      cases hstatus
    have hpin : ∀ g, m ≠ .pinGenesis g := fun g hm => (h.pinGenesis g hm).2.1 (hadv.starting hs)
    obtain ⟨hrt, hdep⟩ := hc.runtimeId hready
    rw [hrt, hdep, hc.genesisHash hready hpin]
    exact hshape.starting (hadv.starting hs)
  · -- An identity is published only after the launch and the domain are recorded.
    have hpublished : r.launchAttemptedAt ≠ none ∧ r.providerDomain ≠ none := by
      by_cases hready : ∃ rt identity, m = .ready rt identity
      · obtain ⟨rt, identity, hm⟩ := hready
        exact ⟨(h.ready rt identity hm).2.1, (h.ready rt identity hm).2.2.1⟩
      · refine hshape.published ?_
        rw [← (hc.runtimeId fun rt identity hm => hready ⟨rt, identity, hm⟩).1]
        exact hrt
    obtain ⟨d, hd⟩ := Option.ne_none_iff_exists'.mp hpublished.2
    refine ⟨hadv.launched hpublished.1, ?_⟩
    rw [hadv.domain hpublished.1 d hd]
    exact Option.some_ne_none d
  · rcases hwas with hnot | ⟨rt, identity, rfl⟩ | hold
    · exact absurd hs hnot
    · obtain ⟨_, _, rfl, -⟩ := ready_eq_ok happly
      exact Option.some_ne_none rt
    · rw [(hadv.runtime (by rw [hold]; nofun)).1]
      exact hshape.ready hold
  · rcases hc.domain "" hd with hold | hnew
    · exact hshape.domain hold
    · exact h.domain hnew
  · rw [hc.providerStatus] at hps
    obtain ⟨hm, hold⟩ := Option.or_eq_none_iff.mp hps
    rw [hc.providerExpiresAt hm]
    exact hshape.expiry hold
  · have hkind' : r.kind = .guided := hc.entry.kind.symm.trans hkind
    -- The genesis is written by `ready` and by `pinGenesis`, and by neither as the empty text.
    have hold := hshape.genesis hn hkind'
    by_cases hready : ∃ rt identity, m = .ready rt identity
    · obtain ⟨rt, identity, rfl⟩ := hready
      obtain ⟨genesisHash, _, rfl, hgenesis⟩ := ready_eq_ok happly
      rcases hgenesis hkind' with heq | heq
      · exact heq ▸ hold
      · exact heq ▸ (h.ready rt identity rfl).2.2.2 hn
    · by_cases hpin : ∃ g', m = .pinGenesis g'
      · obtain ⟨g', rfl⟩ := hpin
        obtain ⟨-, rfl⟩ := pinGenesis_eq_ok happly
        exact fun hempty => (h.pinGenesis g' rfl).2.2 hn (Option.some.inj hempty)
      · rw [hc.genesisHash (fun rt identity hm => hready ⟨rt, identity, hm⟩)
          fun g' hm => hpin ⟨g', hm⟩]
        exact hold

/-! ## The history of the ledger -/

/-- Every stored record has its shape. -/
def LogShape (deps : Deps) (named : Prop) (log : List (Write Transaction SessionLedger)) : Prop :=
  ∀ id r, stored log id = some r → Shape deps named log id r

/-- The last write says what is stored. -/
theorem stored_append (log : List (Write Transaction SessionLedger))
    (w : Write Transaction SessionLedger)
    (id : SessionId) : stored (log ++ [w]) id = w.value.sessions.get? id := by
  rw [stored, content_append]

/-- **One more write**: shapes are kept, records only advance, and only a fresh id is added. -/
theorem Allowed.step (h : Allowed deps named log w) (hlog : LogShape deps named log) :
    LogShape deps named (log ++ [w]) ∧ ∀ id r', stored (log ++ [w]) id = some r' →
      (∃ r, stored log id = some r ∧ Advances named r r') ∨ ¬ Taken log (.reserve, id) := by
  obtain ⟨hjust, outcome, happly⟩ := h
  have hmain : ∀ id r', stored (log ++ [w]) id = some r' → Shape deps named (log ++ [w]) id r' ∧
      ((∃ r, stored log id = some r ∧ Advances named r r') ∨ ¬ Taken log (.reserve, id)) := by
    intro id r' hr'
    rw [stored_append] at hr'
    cases Transaction.origin happly hr' with
    | @kept r hr heq =>
      subst heq
      exact ⟨((hlog id r hr).normalize _).append w,
        .inl ⟨r, hr, advances_normalizeRecord named _ r⟩⟩
    | @changed r m latest hr hlatest hch hm =>
      have hshape := (hlog id r hr).normalize w.change.now
      have hfair := fair_of_justified hshape hjust hch hr rfl
      refine ⟨hfair.shape hshape hm fun view hview => ?_, .inl ⟨r, hr, ?_⟩⟩
      · subst hview
        generalize w.change.request = request at hch hjust
        cases hch with
        | update => exact hjust.elim
        | updateFenced => rfl
      · exact (advances_normalizeRecord named _ r).trans (hfair.advances hshape hm)
    | @created input hrequest hid hrecord =>
      rw [hrequest] at hjust
      obtain ⟨hname, hfresh⟩ := hjust
      obtain ⟨h₁, h₂, -, -, h₃, h₄, h₅, h₆, h₇, h₈, h₉, h₁₀, h₁₁⟩ := newRecord_eq_ok hrecord
      subst hid
      refine ⟨⟨h₁, h₂, h₃.trans hname, ⟨w, by simp, by rw [hrequest]; rfl⟩, by simp [h₅],
        fun _ => ⟨h₉, h₁₀, h₁₁⟩, by simp [h₉], by simp [h₄], by simp [h₈],
          fun _ => h₇, by simp [h₁₀]⟩,
        .inr hfresh⟩
    | @charged r hr hmeter =>
      have hshape := hlog id r hr
      -- sessions here are metered apart, and none is charged in the ledger
      rw [hshape.meterVersion] at hmeter
      cases hmeter
  exact ⟨fun id r' hr' => (hmain id r' hr').1, fun id r' hr' => (hmain id r' hr').2⟩

/-- **Every legal history** keeps the shape of its records. -/
theorem logShape_of_legal (h : Legal (Allowed deps named) log) : LogShape deps named log := by
  induction h with
  | nil =>
    intro id r hr
    simp [stored, emptyLedger] at hr
  | snoc _ hw ih => exact (hw.step ih).1

/-- **Two moments of one history**: a record that is there at both has advanced in between. -/
theorem advances_of_legal {log' : List (Write Transaction SessionLedger)}
    (h : Legal (Allowed deps named) log') (hpre : log <+: log') (hr : stored log id = some r)
    (hr' : stored log' id = some r') : Advances named r r' := by
  induction h generalizing r' with
  | nil =>
    obtain rfl := List.prefix_nil.mp hpre
    rw [hr] at hr'
    cases hr'
    exact .refl named r
  | @snoc log' w hlegal hw ih =>
    rcases List.prefix_concat_iff.mp hpre with heq | hpre
    · rw [heq, hr'] at hr
      cases hr
      exact .refl named r
    · rcases (hw.step (logShape_of_legal hlegal)).2 id r' hr' with ⟨r₁, hr₁, hadv⟩ | hfresh
      · exact (ih hpre hr₁).trans hadv
      · obtain ⟨v, hv, htoken⟩ := (logShape_of_legal (hlegal.of_prefix hpre) id r hr).reserved
        exact absurd ⟨v, hpre.subset hv, htoken⟩ hfresh

end Broker

end DividendX
