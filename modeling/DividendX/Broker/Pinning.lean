import DividendX.Broker.Traversal

/-!
# Sessions do not come back, and their identity is pinned

The versions of a session record, in the order they were stored: a session is published once, while
it is its visitor's latest and not past its end, and what identifies it stays from then on. Client
requests go where the record says.

One case is excluded: a guided snapshot with an empty genesis hash. `validateGuidedState` compares
with a stored hash that is not `null`, but the update that pins the hash compares only with one that
is not empty, so an empty hash that was pinned is replaced by the next one
(`empty_genesis_replaced`).
-/

namespace DividendX

namespace Broker

open Devnet (Instant Digest)
open History Async

variable {deps : Deps} {rules : Rules} {id : SessionId} {r r' : SessionRecord}
  {log pre : List (Write Transaction SessionLedger)}

/-- Two versions of one record, the second the later one. -/
structure Pinned (r r' : SessionRecord) : Prop where
  starting : r.status ≠ .starting → r'.status ≠ .starting
  ready : r.status ≠ .starting → r.status ≠ .ready → r'.status ≠ .ready
  runtimeId : r.status = .ready → r'.runtimeId = r.runtimeId
  deploymentDomainHex : r.status = .ready → r'.deploymentDomainHex = r.deploymentDomainHex
  providerDomain : r.status = .ready → r'.providerDomain = r.providerDomain
  genesisHash : ∀ g, r.genesisHash = some g → r'.genesisHash = some g

/-- A record that was ready before a write, or was starting, its visitor's latest and unexpired. -/
def MayBecomeReady (ledger : SessionLedger) (now : Instant) (id : SessionId)
    (r : SessionRecord) : Prop :=
  r.status = .ready ∨ (r.status = .starting ∧ ledger.latest.get? (r.visitorHash, r.kind) = some id
    ∧ isFuture r.expiresAt now = true)

/-- A request goes to the domain that was recorded of a ready session, whose meter was created with
its runtime. -/
def ForwardsTo (w : World) (request : ProviderRequest) : Prop :=
  ∃ pre r runtimeId u, pre <+: w.ledger.log ∧ stored pre request.record.id = some r
    ∧ r.status = .ready ∧ r.providerDomain = some request.domain ∧ r.runtimeId = some runtimeId
    ∧ (w.meters r.id).log.head? = some u ∧ u.value.runtimeId = runtimeId

/-- Snapshots with an empty genesis hash are not answered, in no JSON answer at all. -/
def named : Rules
  | .boundedJson _, _, (x : Except Failure JsonValue), _ =>
    ∀ value, x = .ok value → snapshotGenesis value ≠ some ""
  | _, _, _, _ => True

theorem named_named : Named named := fun _ _ value _ h => h value rfl

theorem Advances.pinned (h : Advances True r r') (hshape : Shape deps True log id r) :
    Pinned r r' := by
  refine ⟨fun hs hs' => hs (h.starting hs'), fun hs hr hr' => ?_, fun hr => (h.runtime ?_).1,
    fun hr => (h.runtime ?_).2, fun hr => ?_, fun g hg => h.genesis trivial g hg⟩
  · exact (h.ready hr').elim hs hr
  · rw [hr]
    nofun
  · rw [hr]
    nofun
  · obtain ⟨hlaunched, hdomain⟩ := hshape.published (hshape.ready hr)
    obtain ⟨d, hd⟩ := Option.ne_none_iff_exists'.mp hdomain
    rw [hd]
    exact h.domain hlaunched d hd

theorem status_normalizeRecord {now : Instant} {status : StoredSessionStatus}
    (h : (normalizeRecord now r).status = status) (hlive : status = .ready ∨ status = .starting) :
    normalizeRecord now r = r := by
  rcases normalizeRecord_cases now r with heq | ⟨-, heq⟩ | ⟨-, heq⟩
  · exact heq
  · rw [heq] at h
    subst h
    rcases hlive with hlive | hlive <;> cases hlive
  · rw [heq] at h
    subst h
    rcases hlive with hlive | hlive <;> cases hlive

/-- **One more write**: a record is published only by the fenced update of `probeReady`. -/
theorem Allowed.ready {v : Write Transaction SessionLedger} {named : Prop}
    (h : Allowed deps named pre v)
    (hlog : LogShape deps named pre) (hr' : stored (pre ++ [v]) id = some r')
    (hready : r'.status = .ready) :
    ∃ r, stored pre id = some r ∧ MayBecomeReady (content emptyLedger pre) v.change.now id r := by
  obtain ⟨hjust, outcome, happly⟩ := h
  rw [stored_append] at hr'
  cases Transaction.origin happly hr' with
  | @kept r hr heq =>
    subst heq
    exact ⟨r, hr, .inl (status_normalizeRecord hready (.inl rfl) ▸ hready)⟩
  | @changed r m latest hr hlatest hch hm =>
    refine ⟨r, hr, ?_⟩
    have hstatus := (Mutation.changed hm).status
    rw [hready] at hstatus
    cases hset : m.status? with
    | none =>
      rw [hset, Option.getD_none] at hstatus
      exact .inl (status_normalizeRecord hstatus.symm (.inl rfl) ▸ hstatus.symm)
    | some status =>
      -- only a publication sets this status, and its fence was passed
      rw [hset, Option.getD_some] at hstatus
      obtain ⟨rt, identity, rfl⟩ := Mutation.ready_of_status? (hstatus ▸ hset)
      generalize v.change.request = request at hch hjust
      cases hch with
      | update => exact hjust.elim
      | updateFenced hmem hfence hfuture =>
        obtain ⟨-, rfl, rfl, -⟩ := hjust
        have hstarting := List.mem_singleton.mp hmem
        have hsame := status_normalizeRecord hstarting (.inr rfl)
        rw [hsame] at hstarting hfence hfuture
        exact .inr ⟨hstarting, hlatest _ (hfence rfl), hfuture⟩
  | created _ _ hrecord =>
    obtain ⟨-, -, -, -, -, hstarting, -⟩ := newRecord_eq_ok hrecord
    rw [hstarting] at hready
    cases hready
  | @charged r hr hmeter =>
    rw [(hlog id r hr).meterVersion] at hmeter
    cases hmeter

theorem MayForward.forwardsTo {w : World} {request : ProviderRequest}
    (h : MayForward deps rules w request) :
    ForwardsTo w request := by
  obtain ⟨rt, hrt, -, u, hu, hbound⟩ := h.runtime
  obtain ⟨pre, r₀, hpre, hr₀, heq⟩ := h.known.version
  have hsame : request.record = r₀ := by
    rcases heq with heq | ⟨now, heq⟩
    · exact heq
    · have hready := h.ready
      rw [heq] at hready
      exact heq.trans (status_normalizeRecord hready (.inl rfl))
  rw [hsame] at hu hrt
  exact ⟨pre, r₀, rt, u, hpre, hr₀, hsame ▸ h.ready, hsame ▸ h.domain, hrt, hu, hbound.runtimeId⟩

/-- **No resurrection, pinned identity.** In every interleaving of broker calls, over any store,
clock and provider, as long as no guided snapshot with an empty genesis hash is answered:

* of two versions of a record the later one has not come back to `starting` or `ready`, and from a
  ready one on its runtime, deployment domain and provider domain stay, as does its genesis hash
  once it is there;
* a version that is ready was ready before, or starting, unexpired and its visitor's latest;
* a client's request that is passed on goes to the recorded domain of a ready session, whose meter
  was created with its runtime.
-/
theorem sessions_pinned {deps : Deps} {clock : Instant} {s : Site World Call Answer}
    (h : (machine named (Starts deps)).Steps (launched clock) s) :
    (∀ id pre pre' r r', pre <+: pre' → pre' <+: s.world.ledger.log → stored pre id = some r →
      stored pre' id = some r' → Pinned r r')
    ∧ (∀ id pre v r', pre ++ [v] <+: s.world.ledger.log → stored (pre ++ [v]) id = some r' →
      r'.status = .ready →
      ∃ r, stored pre id = some r ∧ MayBecomeReady (content emptyLedger pre) v.change.now id r)
    ∧ ∀ request k, .await (.fetch request) k ∈ s.threads → request.forwarded = true →
      ForwardsTo s.world request := by
  have hsound := ownership_sound h
  have hlegal : Legal (Allowed deps True) s.world.ledger.log := by
    refine hsound.inv.ledger.legal.mono fun pre v hv => ?_
    rwa [eq_true named_named] at hv
  refine ⟨fun id pre pre' r r' hle hpre' hr hr' => ?_, fun id pre v r' hpre hr' hready => ?_,
    fun request k hk hforwarded => ?_⟩
  · have hlegal' := hlegal.of_prefix hpre'
    exact (advances_of_legal hlegal' hle hr hr').pinned
      (logShape_of_legal (hlegal'.of_prefix hle) id r hr)
  · obtain ⟨hbefore, hv⟩ := (hlegal.of_prefix hpre).of_append
    exact hv.ready (logShape_of_legal hbefore) hr' hready
  · obtain ⟨T, -, hmay⟩ := hsound.awaits hk
    exact MayForward.forwardsTo (hmay hforwarded)

/-! ## A guided session, and two requests for its state -/

/-- 2026-09-18T12:00:00.000Z. -/
def midday : Instant := ⟨1_789_732_800_000, Instant.noon_valid⟩

/-- 2026-09-18T12:15:00.000Z, the end of a session that was reserved at midday. -/
def sessionEnd : Instant := ⟨1_789_733_700_000, by decide⟩

/-- Sandboxes that are named by the digits of their session. -/
def sampleDeps : Deps :=
  { limits := defaultLimits, providerName := SessionId.text, gatewayToken := SessionId.text
    validRoute := fun _ _ => true }

/-- The sandbox of session 1, running. -/
def runningView : ProviderView :=
  ⟨SessionId.text 1, .running, some sessionEnd, some "https://one.vercel.run"⟩

/-- The answer of a healthy gateway. -/
def healthJson : JsonValue :=
  .object [("ready", .bool true), ("kind", .string "guided"), ("runtimeId", .string "runtime"),
    ("expiresAt", .string sessionEnd.toISOString)]

/-- A guided state with the genesis hash of its snapshot, if there is one. -/
def stateJson (genesisHash : Option String) : JsonValue :=
  .object [("schemaVersion", .number 4), ("runtimeId", .string "runtime"),
    ("snapshot", match genesisHash with
    | none => .null
    | some g => .object [("genesisHash", .string g)])]

/-- A visitor. -/
def sampleVisitor : Digest := List.Vector.replicate 32 7

/-- One attempt of a transaction, of the call with this number. -/
def transactionSteps {M : Machine World Call Answer Drift} (index : Nat) : List (Entry M Hint) :=
  [.reply index .store, .reply index (.now midday), .reply index .store]

/-- Session 1 is started and becomes ready. -/
def guidedStart (rules : Rules) : List (Entry (machine rules (Starts sampleDeps)) Hint) :=
  [.start _ (Starts.start 1 sampleVisitor sampleVisitor .guided none),
    .reply 0 .store, .reply 0 (.issue 1)]
  ++ transactionSteps 0 ++ [.reply 0 .accept, .reply 0 (.view (.ok runningView))]
    ++ transactionSteps 0
  ++ [.reply 0 (.settle (.ok ())), .reply 0 (.date 0), .reply 0 (.date 0), .reply 0 (.now midday),
    .reply 0 (.view (.ok runningView)), .reply 0 (.now midday), .reply 0 (.response (.ok ⟨200⟩)),
    .reply 0 (.json (.ok healthJson)), .reply 0 (.response (.ok ⟨200⟩)),
    .reply 0 (.json (.ok (stateJson none))), .reply 0 (.now midday), .reply 0 .store]
  ++ transactionSteps 0

/-- A request for the state of session 1. -/
def stateRequest : ClientRequest := ⟨sampleVisitor, .guided, 1, .get, .state, none⟩

/-- The request is charged and passed on; it waits for its answer. -/
def stateCharged {M : Machine World Call Answer Drift} (index : Nat) : List (Entry M Hint) :=
  [.reply index .store, .reply index (.now midday), .reply index .store, .reply index .store,
    .reply index (.now midday), .reply index .store, .reply index (.view (.ok runningView)),
    .reply index (.now midday), .reply index (.now midday), .reply index .store]

/-- It is answered. -/
def stateAnswered {M : Machine World Call Answer Drift} (index : Nat) (genesisHash : String) :
    List (Entry M Hint) :=
  [.reply index (.response (.ok ⟨200⟩)), .reply index (.json (.ok (stateJson (some genesisHash))))]
  ++ transactionSteps index

/-- Two requests for the state are passed on, then both are answered. -/
def twoStates (rules : Rules) (first second : String) :
    List (Entry (machine rules (Starts sampleDeps)) Hint) :=
  guidedStart rules ++ [.start _ (Starts.proxy stateRequest)] ++ stateCharged 1
  ++ [.start _ (Starts.proxy stateRequest)] ++ stateCharged 2
    ++ stateAnswered 1 first ++ stateAnswered 2 second

/-- The rules, checked. -/
def namedLegal : (c : Call) → World → Answer c → World → Bool
  | .boundedJson _, _, (x : Except Failure JsonValue), _ => match x with
    | .ok value => snapshotGenesis value ≠ some ""
    | .error _ => true
  | _, _, _, _ => true

theorem named_of_legal (c : Call) (w : World) (x : Answer c) (w' : World)
    (h : namedLegal c w x w' = true) : named c w x w' := by
  cases c
  case boundedJson =>
    rintro value rfl
    exact of_decide_eq_true h
  all_goals trivial

/-- Two states with one genesis hash. -/
theorem sessions_pinned_sample : ∃ s, (machine named (Starts sampleDeps)).Steps (launched midday) s
    ∧ ∃ r r', stored (s.world.ledger.log.take 3) 1 = some r ∧ stored s.world.ledger.log 1 = some r'
      ∧ r.status = .ready ∧ r'.genesisHash = some "genesis" ∧ Pinned r r' := by
  have hplay : ((player named (Starts sampleDeps) namedLegal named_of_legal).play (launched midday)
      (twoStates named "genesis" "genesis")).any (fun s =>
        (stored (s.world.ledger.log.take 3) 1).any (·.status = .ready)
          && (stored s.world.ledger.log 1).any (·.genesisHash = some "genesis")) = true := by
    decide +kernel
  obtain ⟨s, hs, hfacts⟩ := (Option.any_eq_true _ _).mp hplay
  simp only [Bool.and_eq_true, Option.any_eq_true, decide_eq_true_eq] at hfacts
  obtain ⟨⟨r, hr, hready⟩, r', hr', hgenesis⟩ := hfacts
  have hsteps := Player.steps_of_play hs
  exact ⟨s, hsteps, r, r', hr, hr', hready, hgenesis,
    (sessions_pinned hsteps).1 1 _ _ r r' (List.take_prefix _ _) (List.prefix_refl _) hr hr'⟩

/-- Nothing is relied on. -/
def unruled : Rules := fun _ _ _ _ => True

/-- Two requests for the state are charged while no genesis hash is recorded. The first is answered
with an empty one, which is pinned, and the second with another, which takes its place. -/
theorem empty_genesis_replaced : ∃ deps clock s,
  (machine unruled (Starts deps)).Steps (launched clock) s
    ∧ ∃ id pre r r', pre <+: s.world.ledger.log ∧ stored pre id = some r
      ∧ stored s.world.ledger.log id = some r' ∧ r.status = .ready ∧ r'.status = .ready
      ∧ r.genesisHash = some "" ∧ r'.genesisHash = some "genesis" ∧ ¬ Pinned r r' := by
  have hplay :
      ((player unruled (Starts sampleDeps) (fun _ _ _ _ => true) fun _ _ _ _ _ => trivial).play
      (launched midday) (twoStates unruled "" "genesis")).any (fun s =>
        (stored (s.world.ledger.log.take 4) 1).any
          (fun r => r.status = .ready && r.genesisHash = some "")
          && (stored s.world.ledger.log 1).any
            (fun r => r.status = .ready && r.genesisHash = some "genesis")) = true := by
    decide +kernel
  obtain ⟨s, hs, hfacts⟩ := (Option.any_eq_true _ _).mp hplay
  simp only [Bool.and_eq_true, Option.any_eq_true, decide_eq_true_eq] at hfacts
  obtain ⟨⟨r, hr, hready, hempty⟩, r', hr', hready', hgenesis⟩ := hfacts
  refine ⟨sampleDeps, midday, s, Player.steps_of_play hs, 1, _, r,
    r', List.take_prefix 4 _, hr, hr', hready, hready', hempty, hgenesis, fun hpinned => ?_⟩
  rw [hpinned.genesisHash "" hempty] at hgenesis
  exact absurd hgenesis (by decide)

end Broker

end DividendX
