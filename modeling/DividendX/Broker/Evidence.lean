import DividendX.Broker.Meters
import DividendX.Broker.Records
import DividendX.Broker.World
import DividendX.Lib.Owned

/-!
# What the broker's calls know

The discipline under which any number of broker calls run over one world. A call owes that every
write carries out a justified change on the document it was computed from, and, where the provider
can be relied on, that it says of a sandbox only what the call has seen: that it came alive, that
its session is past its end, that it is over (`Evidence`). In return records only advance, meters
keep their binding, and what a record says of its sandbox is true (`RecordFacts`).

The id of a session is drawn by one call, which alone reserves and launches it: these are the tokens
of the discipline.
-/

namespace DividendX

namespace Broker

open Devnet (Instant Digest)
open History Async

variable {deps : Deps} {rules : Rules} {w w' w'' : World} {id : SessionId} {r r' : SessionRecord}

/-! ## Rules -/

/-- The clock does not go back. -/
def Steady (rules : Rules) : Prop := ∀ w t w', rules .now w t w' → w.clock.ms ≤ Instant.ms t

/-- No response shows a guided snapshot with an empty genesis hash. -/
def Named (rules : Rules) : Prop := ∀ response w value w',
  rules (.boundedJson response) w (.ok value) w' → snapshotGenesis value ≠ some ""

/-- Requests that free no capacity while a sandbox may be alive: a reset of a record without a
provider status waits for its end, and a session is given up only for a sandbox that has stopped. -/
def RegularRequest (w : World) : Request → Prop
  | .update _ (.resetting current) =>
    current.providerStatus ≠ none ∨ current.expiresAt.ms ≤ w.clock.ms
  | .update _ (.gone view) => view.status.terminal = true
  | _ => True

/-- A clock that does not go back, ids whose sandboxes have names of their own, a provider that
tells the truth at the moment it is asked, and requests that are regular. -/
structure Reliable (deps : Deps) (rules : Rules) : Prop where
  steady : Steady rules
  drawn : ∀ w id w', rules .newSessionId w id w' → ∀ id' ∈ w.issued,
    deps.providerName id' ≠ deps.providerName id
  get : ∀ name w view w', rules (.get name) w (.ok view) w' →
    (view.status.terminal = false → w.sandbox name = .live)
    ∧ (view.status.terminal = true → w.sandbox name ≠ .live)
    ∧ (view.status ≠ .missing → w.sandbox name ≠ .unborn)
  create : ∀ input w view w', rules (.create input) w (.ok view) w' →
    w.sandbox input.name ≠ .unborn ∧ (view.status.terminal = true → w.sandbox input.name ≠ .live)
  regular : ∀ p w x w', rules (.putLedger p) w x w' → RegularRequest w p.change.request

/-! ## Facts about a session -/

/-- Some version of the record of a session had this end. -/
def Expires (log : List (Write Transaction SessionLedger)) (id : SessionId)
    (expiresAt : Instant) : Prop :=
  ∃ pre r, pre <+: log ∧ stored pre id = some r ∧ r.expiresAt = expiresAt

/-- The session is past its end. -/
def Past (w : World) (id : SessionId) : Prop :=
  ∃ expiresAt, Expires w.ledger.log id expiresAt ∧ expiresAt.ms ≤ w.clock.ms

/-- The sandbox of the session came alive. -/
def Born (deps : Deps) (w : World) (id : SessionId) : Prop :=
  w.sandbox (deps.providerName id) ≠ .unborn

/-- The sandbox of the session is not alive and never will be. -/
def Over (deps : Deps) (w : World) (id : SessionId) : Prop :=
  w.sandbox (deps.providerName id) ≠ .live ∧ (Born deps w id ∨ Past w id)

/-- The meter of the session was created for this record and runtime. -/
def MeterBound (w : World) (r : SessionRecord) (runtimeId : String) : Prop :=
  runtimeId ≠ "" ∧ ∃ u, (w.meters r.id).log.head? = some u ∧ BoundTo u.value r runtimeId

/-- What a change says of the sandbox is so. -/
structure Evidence (deps : Deps) (w : World) (id : SessionId) (m : Mutation) : Prop where
  terminal : ∀ s, m.seen? = some s → s.terminal = true → Over deps w id
  seen : ∀ s, m.seen? = some s → s ≠ .unknown → Born deps w id ∨ Past w id
  closed : ∀ s, m.status? = some s → s = .expired ∨ s = .resetting → Born deps w id ∨ Past w id
  expired : m.status? = some .expired → Over deps w id ∨ Past w id
  launched : ∀ view, m = .launchFence view → Born deps w id

/-- What a record says of its sandbox is so. -/
structure Observed (deps : Deps) (w : World) (r : SessionRecord) : Prop where
  terminal : ∀ s, r.providerStatus = some s → s.terminal = true → Over deps w r.id
  seen : ∀ s, r.providerStatus = some s → s ≠ .unknown → Born deps w r.id ∨ Past w r.id
  closed : r.status = .expired ∨ r.status = .resetting → Born deps w r.id ∨ Past w r.id
  expired : r.status = .expired → Over deps w r.id ∨ Past w r.id
  launched : r.launchAttemptedAt ≠ none → Born deps w r.id

/-- What is known of a stored record. -/
structure RecordFacts (deps : Deps) (rules : Rules) (w : World) (r : SessionRecord) : Prop where
  bound : ∀ runtimeId, r.runtimeId = some runtimeId → MeterBound w r runtimeId
  observed : Reliable deps rules → Observed deps w r

/-- The record and the change of a request. -/
def Request.mutation? : Request → Option (SessionId × Mutation)
  | .update id m | .updateFenced id _ _ m => some (id, m)
  | .reserve _ | .charge _ _ _ _ => none

/-- A session is published with a meter that was created for it. -/
def PublishedWith (w : World) (request : Request) : Prop :=
  ∀ id allowed requireLatest runtimeId identity,
    request = .updateFenced id allowed requireLatest (.ready runtimeId identity) →
    ∃ pre r, pre <+: w.ledger.log ∧ stored pre id = some r ∧ MeterBound w r runtimeId

/-- What is known of a request that is written. -/
structure RequestFacts (deps : Deps) (rules : Rules) (w : World) (request : Request) : Prop where
  published : PublishedWith w request
  evidence : Reliable deps rules → ∀ id m, request.mutation? = some (id, m) → Evidence deps w id m

/-- A record, or its normal form, that was stored at some time. -/
structure Known (deps : Deps) (rules : Rules) (w : World) (r : SessionRecord) : Prop where
  version : ∃ pre r₀, pre <+: w.ledger.log ∧ stored pre r.id = some r₀
    ∧ (r = r₀ ∨ ∃ now, r = normalizeRecord now r₀)
  facts : RecordFacts deps rules w r

/-! ## What others leave -/

/-- A right is used by a write, or by one in flight. -/
def Pending (w : World) (token : Token) : Prop :=
  Taken w.ledger.log token ∨ ∃ p ∈ w.ledger.inflight, p.change.request.token = some token

/-- How the world moves. -/
structure Moves (deps : Deps) (rules : Rules) (w w' : World) : Prop where
  log : w.ledger.log <+: w'.ledger.log
  meters : ∀ id, (w.meters id).log <+: (w'.meters id).log
  clock : Steady rules → w.clock.ms ≤ w'.clock.ms
  born : ∀ name, w.sandbox name ≠ .unborn → w'.sandbox name ≠ .unborn
  ended : Reliable deps rules → ∀ id, Over deps w id → Over deps w' id

/-- What a call may count on, with the rights it owns. -/
structure Relies (deps : Deps) (rules : Rules) (T : Set Token) (w w' : World) : Prop where
  moves : Moves deps rules w w'
  unused : ∀ t ∈ T, ¬ Pending w t → ¬ Pending w' t

theorem Moves.refl (w : World) : Moves deps rules w w :=
  ⟨List.prefix_refl _, fun _ => List.prefix_refl _, fun _ => Int.le_refl _,
    fun _ h => h, fun _ _ h => h⟩

theorem Moves.trans (h : Moves deps rules w w') (h' : Moves deps rules w' w'') :
    Moves deps rules w w'' :=
  ⟨h.log.trans h'.log, fun id => (h.meters id).trans (h'.meters id),
    fun hs => (h.clock hs).trans (h'.clock hs), fun name hb => h'.born name (h.born name hb),
    fun hr id ho => h'.ended hr id (h.ended hr id ho)⟩

/-- The end that was recorded for a session stays recorded. -/
theorem Expires.later {log log' : List (Write Transaction SessionLedger)} {expiresAt : Instant}
    (h : Expires log id expiresAt) (hl : log <+: log') : Expires log' id expiresAt := by
  obtain ⟨pre, r, hpre, hr, he⟩ := h
  exact ⟨pre, r, hpre.trans hl, hr, he⟩

/-- A session that is past stays past. -/
theorem Past.later (h : Past w id) (hm : Moves deps rules w w')
    (hs : Steady rules) : Past w' id := by
  obtain ⟨expiresAt, he, hle⟩ := h
  exact ⟨expiresAt, he.later hm.log, hle.trans (hm.clock hs)⟩

theorem Born.later (h : Born deps w id) (hm : Moves deps rules w w') :
    Born deps w' id := hm.born _ h

/-- A sandbox that has come alive, or whose session is past, stays so. -/
theorem bornOrPast_later (h : Born deps w id ∨ Past w id) (hm : Moves deps rules w w')
    (hs : Steady rules) :
    Born deps w' id ∨ Past w' id := h.imp (·.later hm) (·.later hm hs)

/-- A sandbox that is over, or whose session is past, stays so. -/
theorem overOrPast_later (h : Over deps w id ∨ Past w id) (hm : Moves deps rules w w')
    (hr : Reliable deps rules) : Over deps w' id ∨ Past w' id :=
  h.imp (hm.ended hr id) (·.later hm hr.steady)

/-- A meter stays bound to its record and runtime. -/
theorem MeterBound.later {runtimeId : String} (h : MeterBound w r runtimeId)
    (hm : Moves deps rules w w') : MeterBound w' r runtimeId := by
  obtain ⟨hne, u, hu, hbound⟩ := h
  obtain ⟨more, hmore⟩ := hm.meters r.id
  refine ⟨hne, u, ?_, hbound⟩
  rw [← hmore, List.head?_append, hu]
  rfl

/-- What was seen of a sandbox stays true. -/
theorem Observed.later (h : Observed deps w r) (hm : Moves deps rules w w')
    (hr : Reliable deps rules) :
    Observed deps w' r :=
  ⟨fun s hs ht => hm.ended hr _ (h.terminal s hs ht),
    fun s hs hne => bornOrPast_later (h.seen s hs hne) hm hr.steady,
    fun hs => bornOrPast_later (h.closed hs) hm hr.steady,
    fun hs => overOrPast_later (h.expired hs) hm hr, fun hl => (h.launched hl).later hm⟩

/-- What is known of a record stays known. -/
theorem RecordFacts.later (h : RecordFacts deps rules w r) (hm : Moves deps rules w w') :
    RecordFacts deps rules w' r :=
  ⟨fun rt hrt => (h.bound rt hrt).later hm, fun hr => (h.observed hr).later hm hr⟩

/-- What a mutation writes stays true. -/
theorem Evidence.later {m : Mutation} (h : Evidence deps w id m) (hm : Moves deps rules w w')
    (hr : Reliable deps rules) : Evidence deps w' id m :=
  ⟨fun s hs ht => hm.ended hr _ (h.terminal s hs ht),
    fun s hs hne => bornOrPast_later (h.seen s hs hne) hm hr.steady,
    fun s hs hc => bornOrPast_later (h.closed s hs hc) hm hr.steady,
    fun hs => overOrPast_later (h.expired hs) hm hr, fun view hl => (h.launched view hl).later hm⟩

theorem RequestFacts.later {request : Request} (h : RequestFacts deps rules w request)
    (hm : Moves deps rules w w') : RequestFacts deps rules w' request := by
  refine ⟨fun id allowed requireLatest rt identity heq => ?_,
    fun hr id m hm' => (h.evidence hr id m hm').later hm hr⟩
  obtain ⟨pre, r, hpre, hstored, hbound⟩ := h.published id allowed requireLatest rt identity heq
  exact ⟨pre, r, hpre.trans hm.log, hstored, hbound.later hm⟩

/-- A record that was stored stays a stored one. -/
theorem Known.later (h : Known deps rules w r) (hm : Moves deps rules w w') :
    Known deps rules w' r := by
  obtain ⟨⟨pre, r₀, hpre, hr₀, heq⟩, hfacts⟩ := h
  exact ⟨⟨pre, r₀, hpre.trans hm.log, hr₀, heq⟩, hfacts.later hm⟩

/-! ## The invariant -/

/-- What holds of the world at every moment. -/
structure Inv (deps : Deps) (rules : Rules) (w : World) : Prop where
  ledger : w.ledger.Orderly (Allowed deps (Named rules))
  meters : ∀ id, (w.meters id).Orderly (MeterAllowed deps.limits (Steady rules) id)
  ledgerPast : Steady rules → (∀ v ∈ w.ledger.log, v.change.now.ms ≤ w.clock.ms)
    ∧ ∀ p ∈ w.ledger.inflight, p.change.now.ms ≤ w.clock.ms
  meterPast : Steady rules → ∀ id,
    (∀ v ∈ (w.meters id).log, ∀ t, v.change.chargedAt = some t → t.ms ≤ w.clock.ms)
    ∧ ∀ p ∈ (w.meters id).inflight, ∀ t, p.change.chargedAt = some t → t.ms ≤ w.clock.ms
  issued : ∀ t, Pending w t → t.2 ∈ w.issued
  distinct : Reliable deps rules → ∀ id ∈ w.issued, ∀ id' ∈ w.issued,
    deps.providerName id = deps.providerName id' → id = id'
  requested : ∀ name expiresAt, w.requested name = some expiresAt →
    ∃ id, name = deps.providerName id ∧ Expires w.ledger.log id expiresAt
  known : ∀ id r, stored w.ledger.log id = some r → RecordFacts deps rules w r
  inflight : ∀ p ∈ w.ledger.inflight, RequestFacts deps rules w p.change.request

theorem Inv.logShape (hi : Inv deps rules w) : LogShape deps (Named rules) w.ledger.log :=
  logShape_of_legal hi.ledger.legal

/-- A meter is bound to the entry, whatever else the record says. -/
theorem BoundTo.entry {meter : SessionMeter} {runtimeId : String} (h : BoundTo meter r runtimeId)
    (he : r.SameEntry r') : BoundTo meter r' runtimeId :=
  ⟨h.id.trans he.id.symm, h.visitorHash.trans he.visitorHash.symm, h.kind.trans he.kind.symm,
    h.providerName.trans he.providerName.symm, h.runtimeId, h.expiresAt.trans he.expiresAt.symm⟩

theorem MeterBound.entry {runtimeId : String} (h : MeterBound w r runtimeId) (he : r.SameEntry r') :
    MeterBound w r' runtimeId := by
  obtain ⟨hne, u, hu, hbound⟩ := h
  exact ⟨hne, u, by rw [he.id]; exact hu, hbound.entry he⟩

/-- The end of a session does not change. -/
theorem Expires.unique {log : List (Write Transaction SessionLedger)}
    {named : Prop} {e e' : Instant}
    (hlegal : Legal (Allowed deps named) log) (h : Expires log id e)
    (h' : Expires log id e') : e = e' := by
  obtain ⟨pre, r, hpre, hr, rfl⟩ := h
  obtain ⟨pre', r', hpre', hr', rfl⟩ := h'
  rcases List.prefix_or_prefix_of_prefix hpre hpre' with hle | hle
  · exact (advances_of_legal (hlegal.of_prefix hpre') hle hr hr').entry.expiresAt.symm
  · exact (advances_of_legal (hlegal.of_prefix hpre) hle hr' hr).entry.expiresAt

/-- Normalizing a record says nothing of its sandbox but that it is past its end. -/
theorem RecordFacts.normalize {now : Instant} (h : RecordFacts deps rules w r)
    (he : Expires w.ledger.log r.id r.expiresAt) (hnow : Steady rules → now.ms ≤ w.clock.ms) :
    RecordFacts deps rules w (normalizeRecord now r) := by
  have hadv := advances_normalizeRecord True now r
  rcases normalizeRecord_cases now r with heq | ⟨hpast, heq⟩ | ⟨-, heq⟩
  · rw [heq]
    exact h
  · rw [heq] at hadv ⊢
    refine ⟨fun rt hrt => (h.bound rt hrt).entry hadv.entry, fun hr => ?_⟩
    have hold := h.observed hr
    have hend : Past w r.id := by
      refine ⟨r.expiresAt, he, ?_⟩
      have hle := hnow hr.steady
      simp only [isFuture, decide_eq_false_iff_not] at hpast
      omega
    exact ⟨hold.terminal, hold.seen, fun _ => .inr hend, fun _ => .inr hend, hold.launched⟩
  · rw [heq] at hadv ⊢
    refine ⟨fun rt hrt => (h.bound rt hrt).entry hadv.entry, fun hr => ?_⟩
    have hold := h.observed hr
    exact ⟨hold.terminal, hold.seen, by simp, by simp, hold.launched⟩

/-- What a change leaves is so, if what it says is so. -/
theorem Observed.change {m : Mutation} (h : Observed deps w r) (he : Evidence deps w r.id m)
    (hc : Changed m r r') : Observed deps w r' := by
  have hid := hc.entry.id
  -- A status that is recorded was seen with this change or before it.
  have hseen : ∀ s, r'.providerStatus = some s → m.seen? = some s ∨ r.providerStatus = some s := by
    intro s hs
    rw [hc.providerStatus] at hs
    cases hm : m.seen? with
    | none =>
      rw [hm, Option.none_or] at hs
      exact .inr hs
    | some s' =>
      rw [hm, Option.some_or] at hs
      exact .inl hs
  have hstatus : ∀ s, r'.status = s → m.status? = some s ∨ r.status = s := by
    intro s hs
    rw [hc.status] at hs
    cases hm : m.status? with
    | none =>
      rw [hm, Option.getD_none] at hs
      exact .inr hs
    | some s' =>
      rw [hm, Option.getD_some] at hs
      exact .inl (congrArg some hs)
  refine ⟨fun s hs ht => ?_, fun s hs hne => ?_, fun hs => ?_, fun hs => ?_, fun hl => ?_⟩
  · rw [hid]
    rcases hseen s hs with hnew | hold
    · exact he.terminal s hnew ht
    · exact h.terminal s hold ht
  · rw [hid]
    rcases hseen s hs with hnew | hold
    · exact he.seen s hnew hne
    · exact h.seen s hold hne
  · rw [hid]
    rcases hstatus _ rfl with hnew | hold
    · exact he.closed _ hnew hs
    · exact h.closed (hold ▸ hs)
  · rw [hid]
    rcases hstatus _ hs with hnew | hold
    · exact he.expired hnew
    · exact h.expired hold
  · rw [hid]
    rcases hc.launched.mp hl with hold | ⟨view, hm⟩
    · exact h.launched hold
    · exact he.launched view hm

/-- A record that is not closed, published or seen has nothing to be known of. -/
theorem RecordFacts.created {input : ReserveInput} {limits : Limits} {now : Instant}
    (h : newRecord limits input now = .ok r) : RecordFacts deps rules w r := by
  obtain ⟨-, -, -, -, -, hstatus, hlaunch, hseen, -, -, hruntime, -, -⟩ := newRecord_eq_ok h
  refine ⟨by simp [hruntime], fun _ => ⟨by simp [hseen], by simp [hseen], by simp [hstatus],
    by simp [hstatus], by simp [hlaunch]⟩⟩

/-! ## Writes of the ledger -/

/-- The world with another ledger. -/
theorem Moves.ledger {ledger : History Transaction SessionLedger}
    (h : w.ledger.log <+: ledger.log) :
    Moves deps rules w { w with ledger := ledger } := by
  refine ⟨h, fun _ => List.prefix_refl _, fun _ => Int.le_refl _, fun _ hb => hb,
    fun hr id ho => ?_⟩
  obtain ⟨hlive, hborn | ⟨e, he, hle⟩⟩ := ho
  · exact ⟨hlive, .inl hborn⟩
  · exact ⟨hlive, .inr ⟨e, he.later h, hle⟩⟩

/-- A session is published with the runtime its meter was created for. -/
theorem Changed.bound {m : Mutation} {limits : Limits} {now : Instant}
    (h : ∀ runtimeId, r.runtimeId = some runtimeId → MeterBound w r runtimeId)
    (hready : ∀ runtimeId identity, m = .ready runtimeId identity → MeterBound w r runtimeId)
    (happly : m.apply limits now r = .ok r') (rt : String) (hrt : r'.runtimeId = some rt) :
    MeterBound w r' rt := by
  have hc := Mutation.changed happly
  by_cases hm : ∃ runtimeId identity, m = .ready runtimeId identity
  · obtain ⟨runtimeId, identity, rfl⟩ := hm
    obtain ⟨_, _, rfl, -⟩ := ready_eq_ok happly
    cases hrt
    exact (hready rt identity rfl).entry hc.entry
  · rw [(hc.runtimeId fun rt identity heq => hm ⟨rt, identity, heq⟩).1] at hrt
    exact (h rt hrt).entry hc.entry

/-- The change of a request and the record it is made to. -/
theorem Request.Changes.mutation? {latest : Record (Digest × SandboxKind) SessionId} {m : Mutation}
    {now : Instant} {request : Request} (h : request.Changes latest id m now r) :
    request.mutation? = some (id, m) := by
  cases h <;> rfl

/-- **What is known of the records after one more write.** -/
theorem Inv.recordFacts (hi : Inv deps rules w) {v : Write Transaction SessionLedger}
    (hallowed : Allowed deps (Named rules) w.ledger.log v)
    (hfacts : RequestFacts deps rules w v.change.request)
    (hpast : Steady rules → v.change.now.ms ≤ w.clock.ms)
    (hr' : stored (w.ledger.log ++ [v]) id = some r') : RecordFacts deps rules w r' := by
  obtain ⟨hjust, outcome, happly⟩ := hallowed
  rw [stored_append] at hr'
  have hnormal : ∀ r, stored w.ledger.log id = some r →
      RecordFacts deps rules w (normalizeRecord v.change.now r) := by
    intro r hr
    refine (hi.known id r hr).normalize ⟨_, r, List.prefix_refl _, ?_, rfl⟩ hpast
    rw [(hi.logShape id r hr).keyed]
    exact hr
  cases Transaction.origin happly hr' with
  | @kept r hr heq =>
    rw [heq]
    exact hnormal r hr
  | @changed r m latest hr hlatest hch hm =>
    have hold := hnormal r hr
    have hentry := (advances_normalizeRecord True v.change.now r).entry
    have hid : (normalizeRecord v.change.now r).id = id :=
      hentry.id.trans (hi.logShape id r hr).keyed
    refine ⟨Changed.bound hold.bound (fun rt identity heq => ?_) hm, fun hrel => ?_⟩
    · subst heq
      generalize hrequest : v.change.request = request at hch hfacts hjust
      cases hch with
      | update => exact hjust.elim
      | @updateFenced allowed requireLatest =>
        obtain ⟨pre, r₀, hpre, hr₀, hbound⟩ :=
          hfacts.published id allowed requireLatest rt identity rfl
        exact hbound.entry ((advances_of_legal hi.ledger.legal hpre hr₀ hr).entry.trans hentry)
    · refine (hold.observed hrel).change ?_ (Mutation.changed hm)
      rw [hid]
      exact hfacts.evidence hrel id m hch.mutation?
  | created hrequest hid hrecord => exact .created hrecord
  | @charged r hr hmeter =>
    rw [(hi.logShape id r hr).meterVersion] at hmeter
    cases hmeter

/-- A write of the ledger as it may be asked for. -/
structure MayWrite (deps : Deps) (rules : Rules) (T : Set Token) (w : World)
    (p : Put Transaction SessionLedger) : Prop where
  owned : ∀ t, p.change.request.token = some t → t ∈ T
  basis : Basis (Allowed deps (Named rules)) w.ledger.log p
  published : PublishedWith w p.change.request
  evidence : Reliable deps rules → RegularRequest w p.change.request →
    ∀ id m, p.change.request.mutation? = some (id, m) → Evidence deps w id m
  past : Steady rules → p.change.now.ms ≤ w.clock.ms

/-- A write that is in order takes effect. -/
theorem Inv.append (hi : Inv deps rules w) {p : Put Transaction SessionLedger}
    {ledger : History Transaction SessionLedger}
    (hlog : ledger.log = w.ledger.log ++ [⟨p.change, p.value⟩])
    (hinflight : ledger.inflight = w.ledger.inflight)
    (horderly : ledger.Orderly (Allowed deps (Named rules)))
    (hallowed : Allowed deps (Named rules) w.ledger.log ⟨p.change, p.value⟩)
    (hfacts : RequestFacts deps rules w p.change.request)
    (hpast : Steady rules → p.change.now.ms ≤ w.clock.ms)
    (hissued : ∀ t, p.change.request.token = some t → t.2 ∈ w.issued) :
    Inv deps rules { w with ledger := ledger } := by
  have hbegins : w.ledger.log <+: ledger.log := hlog ▸ List.prefix_append _ _
  have hmoves : Moves deps rules w { w with ledger := ledger } := Moves.ledger hbegins
  refine ⟨horderly, hi.meters, fun hs => ⟨fun v hv => ?_, fun q hq => ?_⟩,
    hi.meterPast, fun t ht => ?_,
    hi.distinct, fun name e he => ?_, fun id r' hr' => ?_, fun q hq => ?_⟩
  · simp only [hlog] at hv
    rcases List.mem_append.mp hv with hv | hv
    · exact (hi.ledgerPast hs).1 v hv
    · rw [List.mem_singleton.mp hv]
      exact hpast hs
  · simp only [hinflight] at hq
    exact (hi.ledgerPast hs).2 q hq
  · rcases ht with ⟨v, hv, htoken⟩ | ⟨q, hq, htoken⟩
    · simp only [hlog] at hv
      rcases List.mem_append.mp hv with hv | hv
      · exact hi.issued t (.inl ⟨v, hv, htoken⟩)
      · rw [List.mem_singleton.mp hv] at htoken
        exact hissued t htoken
    · simp only [hinflight] at hq
      exact hi.issued t (.inr ⟨q, hq, htoken⟩)
  · obtain ⟨id, hname, hexpires⟩ := hi.requested name e he
    exact ⟨id, hname, hexpires.later hbegins⟩
  · simp only [hlog] at hr'
    exact (hi.recordFacts hallowed hfacts hpast hr').later hmoves
  · simp only [hinflight] at hq
    exact (hi.inflight q hq).later hmoves

/-- **A write of the ledger** keeps the invariant. -/
theorem Inv.puts (hi : Inv deps rules w) {T : Set Token} (hT : ∀ t ∈ T, t.2 ∈ w.issued)
    {p : Put Transaction SessionLedger} {x : Except Failure Bool}
    {ledger : History Transaction SessionLedger} (hmay : MayWrite deps rules T w p)
    (hregular : Reliable deps rules → RegularRequest w p.change.request)
    (hputs : w.ledger.Puts p x ledger) : Inv deps rules { w with ledger := ledger } := by
  have hfacts : RequestFacts deps rules w p.change.request :=
    ⟨hmay.published, fun hr => hmay.evidence hr (hregular hr)⟩
  have hissued : ∀ t, p.change.request.token = some t → t.2 ∈ w.issued :=
    fun t ht => hT t (hmay.owned t ht)
  have horderly := (hi.ledger.puts hmay.basis hputs).1
  cases hputs with
  | saved heq => exact hi.append rfl rfl horderly (hmay.basis.allowed heq) hfacts hmay.past hissued
  | refused => exact hi
  | lost e =>
    -- A write that is lost is in flight, and has to be in order whenever it lands.
    have hmoves : Moves deps rules w
        { w with ledger := { w.ledger with inflight := p :: w.ledger.inflight } } :=
      Moves.ledger (List.prefix_refl _)
    refine ⟨horderly, hi.meters, fun hs => ⟨(hi.ledgerPast hs).1, fun q hq => ?_⟩, hi.meterPast,
      fun t ht => ?_, hi.distinct, hi.requested, fun id r hr => (hi.known id r hr).later hmoves,
      fun q hq => ?_⟩
    · rcases List.mem_cons.mp hq with rfl | hq
      · exact hmay.past hs
      · exact (hi.ledgerPast hs).2 q hq
    · rcases ht with htaken | ⟨q, hq, htoken⟩
      · exact hi.issued t (.inl htaken)
      · rcases List.mem_cons.mp hq with rfl | hq
        · exact hissued t htoken
        · exact hi.issued t (.inr ⟨q, hq, htoken⟩)
    · rcases List.mem_cons.mp hq with rfl | hq
      · exact hfacts.later hmoves
      · exact (hi.inflight q hq).later hmoves

/-- So does a write that takes effect late. -/
theorem Inv.lands (hi : Inv deps rules w) {p : Put Transaction SessionLedger}
    {ledger : History Transaction SessionLedger} (hlands : w.ledger.Lands p ledger) :
    Inv deps rules { w with ledger := ledger } := by
  have horderly := (hi.ledger.lands hlands).1
  have hallowed := (hlands.log_eq hi.ledger.inflight).2
  cases hlands with
  | late hmem heq =>
    exact hi.append rfl rfl horderly hallowed (hi.inflight p hmem)
      (fun hs => (hi.ledgerPast hs).2 p hmem)
      fun t ht => hi.issued t (.inr ⟨p, hmem, ht⟩)

/-- The rights that are in use after an answer. -/
theorem pending_of_puts {p : Put Transaction SessionLedger} {x : Except Failure Bool}
    {ledger : History Transaction SessionLedger} (hputs : w.ledger.Puts p x ledger) {t : Token}
    (h : Pending { w with ledger := ledger } t) :
    Pending w t ∨ (x ≠ .ok false ∧ p.change.request.token = some t) := by
  cases hputs with
  | saved heq =>
    rcases h with ⟨v, hv, htoken⟩ | ⟨q, hq, htoken⟩
    · rcases List.mem_append.mp hv with hv | hv
      · exact .inl (.inl ⟨v, hv, htoken⟩)
      · rw [List.mem_singleton.mp hv] at htoken
        exact .inr ⟨nofun, htoken⟩
    · exact .inl (.inr ⟨q, hq, htoken⟩)
  | refused => exact .inl h
  | lost e =>
    rcases h with htaken | ⟨q, hq, htoken⟩
    · exact .inl (.inl htaken)
    · rcases List.mem_cons.mp hq with rfl | hq
      · exact .inr ⟨nofun, htoken⟩
      · exact .inl (.inr ⟨q, hq, htoken⟩)

/-- A write that has taken effect leaves its right used up. -/
theorem pending_of_lands {p : Put Transaction SessionLedger}
    {ledger : History Transaction SessionLedger} (hlands : w.ledger.Lands p ledger) {t : Token}
    (h : Pending { w with ledger := ledger } t) : Pending w t := by
  cases hlands with
  | late hmem heq =>
    rcases h with ⟨v, hv, htoken⟩ | ⟨q, hq, htoken⟩
    · rcases List.mem_append.mp hv with hv | hv
      · exact .inl ⟨v, hv, htoken⟩
      · rw [List.mem_singleton.mp hv] at htoken
        exact .inr ⟨p, hmem, htoken⟩
    · exact .inr ⟨q, hq, htoken⟩

/-! ## Writes of a meter, sandboxes and the clock -/

/-- A write of a meter as it may be asked for. -/
structure MayMeter (deps : Deps) (rules : Rules) (w : World) (id : SessionId)
    (p : Put MeterChange SessionMeter) : Prop where
  basis : Basis (MeterAllowed deps.limits (Steady rules) id) (w.meters id).log p
  past : Steady rules → ∀ t, p.change.chargedAt = some t → t.ms ≤ w.clock.ms

/-- A meter only grows. -/
theorem Moves.meter {meter : History MeterChange SessionMeter}
    (h : (w.meters id).log <+: meter.log) :
    Moves deps rules w { w with meters := Function.update w.meters id meter } := by
  refine ⟨List.prefix_refl _, fun id' => ?_, fun _ => Int.le_refl _,
    fun _ hb => hb, fun _ _ ho => ho⟩
  by_cases hid : id' = id
  · subst hid
    simpa using h
  · simp [hid]

/-- A meter in order takes the place of the one before. -/
theorem Inv.meter (hi : Inv deps rules w) {meter : History MeterChange SessionMeter}
    (horderly : meter.Orderly (MeterAllowed deps.limits (Steady rules) id))
    (hbegins : (w.meters id).log <+: meter.log)
    (hpast : Steady rules → (∀ v ∈ meter.log, ∀ t, v.change.chargedAt = some t → t.ms ≤ w.clock.ms)
      ∧ ∀ p ∈ meter.inflight, ∀ t, p.change.chargedAt = some t → t.ms ≤ w.clock.ms) :
    Inv deps rules { w with meters := Function.update w.meters id meter } := by
  have hmoves : Moves deps rules w { w with meters := Function.update w.meters id meter } :=
    Moves.meter hbegins
  refine ⟨hi.ledger, fun id' => ?_, hi.ledgerPast, fun hs id' => ?_,
    hi.issued, hi.distinct, hi.requested,
    fun id' r hr => (hi.known id' r hr).later hmoves, fun p hp => (hi.inflight p hp).later hmoves⟩
  · by_cases hid : id' = id
    · subst hid
      simpa using horderly
    · simpa [hid] using hi.meters id'
  · by_cases hid : id' = id
    · subst hid
      simpa using hpast hs
    · simpa [hid] using hi.meterPast hs id'

/-- **A write of a meter** keeps the invariant. -/
theorem Inv.putsMeter (hi : Inv deps rules w) {p : Put MeterChange SessionMeter}
    {x : Except Failure Bool} {meter : History MeterChange SessionMeter}
    (hmay : MayMeter deps rules w id p) (hputs : (w.meters id).Puts p x meter) :
    Inv deps rules { w with meters := Function.update w.meters id meter } := by
  obtain ⟨horderly, hbegins⟩ := (hi.meters id).puts hmay.basis hputs
  refine hi.meter horderly hbegins fun hs => ?_
  obtain ⟨hlog, hinflight⟩ := hi.meterPast hs id
  cases hputs with
  | saved heq =>
    refine ⟨fun v hv => ?_, hinflight⟩
    rcases List.mem_append.mp hv with hv | hv
    · exact hlog v hv
    · rw [List.mem_singleton.mp hv]
      exact hmay.past hs
  | refused => exact ⟨hlog, hinflight⟩
  | lost e =>
    refine ⟨hlog, fun q hq => ?_⟩
    rcases List.mem_cons.mp hq with rfl | hq
    · exact hmay.past hs
    · exact hinflight q hq

/-- So does a write that takes effect late. -/
theorem Inv.landsMeter (hi : Inv deps rules w) {p : Put MeterChange SessionMeter}
    {meter : History MeterChange SessionMeter} (hlands : (w.meters id).Lands p meter) :
    Inv deps rules { w with meters := Function.update w.meters id meter } := by
  obtain ⟨horderly, hbegins⟩ := (hi.meters id).lands hlands
  refine hi.meter horderly hbegins fun hs => ?_
  obtain ⟨hlog, hinflight⟩ := hi.meterPast hs id
  cases hlands with
  | late hmem heq =>
    refine ⟨fun v hv => ?_, hinflight⟩
    rcases List.mem_append.mp hv with hv | hv
    · exact hlog v hv
    · rw [List.mem_singleton.mp hv]
      exact hinflight p hmem

/-- The documents stay as they are. -/
theorem Inv.moves (hi : Inv deps rules w) (hm : Moves deps rules w w')
    (hledger : w'.ledger = w.ledger)
    (hmeters : w'.meters = w.meters) (hissued : w.issued ⊆ w'.issued)
    (hdistinct : Reliable deps rules → ∀ id ∈ w'.issued, ∀ id' ∈ w'.issued,
      deps.providerName id = deps.providerName id' → id = id')
    (hrequested : ∀ name e, w'.requested name = some e →
      ∃ id, name = deps.providerName id ∧ Expires w.ledger.log id e) : Inv deps rules w' := by
  refine ⟨hledger ▸ hi.ledger, hmeters ▸ hi.meters, fun hs => ?_, fun hs => ?_,
    fun t ht => ?_, hdistinct, hledger ▸ hrequested, fun id r hr => ?_, fun p hp => ?_⟩
  · rw [hledger]
    obtain ⟨hlog, hinflight⟩ := hi.ledgerPast hs
    exact ⟨fun v hv => (hlog v hv).trans (hm.clock hs),
      fun p hp => (hinflight p hp).trans (hm.clock hs)⟩
  · rw [hmeters]
    intro id
    obtain ⟨hlog, hinflight⟩ := hi.meterPast hs id
    exact ⟨fun v hv t ht => (hlog v hv t ht).trans (hm.clock hs),
      fun p hp t ht => (hinflight p hp t ht).trans (hm.clock hs)⟩
  · refine hissued (hi.issued t ?_)
    rw [Pending] at ht ⊢
    rwa [hledger] at ht
  · rw [hledger] at hr
    exact (hi.known id r hr).later hm
  · rw [hledger] at hp
    exact (hi.inflight p hp).later hm

/-- A later reading of the clock. -/
theorem Moves.clock_to {t : Instant} (h : Steady rules → w.clock.ms ≤ t.ms) :
    Moves deps rules w { w with clock := t } := by
  refine ⟨List.prefix_refl _, fun _ => List.prefix_refl _, h, fun _ hb => hb, fun hr id ho => ?_⟩
  obtain ⟨hlive, hborn | ⟨e, he, hle⟩⟩ := ho
  · exact ⟨hlive, .inl hborn⟩
  · exact ⟨hlive, .inr ⟨e, he, hle.trans (h hr.steady)⟩⟩

theorem Stage.stopped_ne_live (s : Stage) : s.stopped ≠ .live := by
  cases s <;> nofun

theorem Stage.stopped_ne_unborn {s : Stage} (h : s ≠ .unborn) : s.stopped ≠ .unborn := by
  cases s
  · exact absurd rfl h
  · nofun
  · nofun

theorem kill_ne_live (w : World) (name : String) : (w.kill name).sandbox name ≠ .live := by
  simp only [World.kill, Function.update_self]
  exact Stage.stopped_ne_live _

/-- A sandbox is stopped. -/
theorem Moves.kill (deps : Deps) (rules : Rules) (w : World)
    (name : String) : Moves deps rules w (w.kill name) := by
  have hborn : ∀ name', w.sandbox name' ≠ .unborn → (w.kill name).sandbox name' ≠ .unborn := by
    intro name' hb
    by_cases hname : name' = name
    · subst hname
      simp only [World.kill, Function.update_self]
      exact Stage.stopped_ne_unborn hb
    · simpa [World.kill, hname] using hb
  refine ⟨List.prefix_refl _, fun _ => List.prefix_refl _, fun _ => Int.le_refl _,
    hborn, fun hr id ho => ?_⟩
  refine ⟨?_, ho.2.imp (hborn _) fun hp => hp⟩
  by_cases hname : deps.providerName id = name
  · rw [hname]
    exact kill_ne_live w name
  · simpa [World.kill, hname] using ho.1

/-- The id of a session that was stored was drawn. -/
theorem Inv.drawn (hi : Inv deps rules w) {e : Instant} (h : Expires w.ledger.log id e) :
    id ∈ w.issued := by
  obtain ⟨pre, r, hpre, hr, -⟩ := h
  obtain ⟨v, hv, htoken⟩ := (logShape_of_legal (hi.ledger.legal.of_prefix hpre) id r hr).reserved
  exact hi.issued (.reserve, id) (.inl ⟨v, hpre.subset hv, htoken⟩)

/-- A sandbox that comes alive was not over. -/
theorem Moves.alive (hi : Inv deps rules w) {name : String} {e : Instant}
    (hrequested : w.requested name = some e) (hclock : w.clock.ms < e.ms)
    (hunborn : w.sandbox name = .unborn) :
    Moves deps rules w { w with sandbox := Function.update w.sandbox name .live } := by
  refine ⟨List.prefix_refl _, fun _ => List.prefix_refl _, fun _ => Int.le_refl _,
    fun name' hb => ?_, fun hr id ho => ?_⟩
  · by_cases hname : name' = name
    · subst hname
      simp
    · simpa [hname] using hb
  · have hname : deps.providerName id ≠ name := by
      intro hname
      obtain ⟨id', hname', he⟩ := hi.requested name e hrequested
      obtain ⟨-, hborn | ⟨e', he', hle⟩⟩ := ho
      · exact hborn (hname ▸ hunborn)
      · obtain rfl := hi.distinct hr id (hi.drawn he') id' (hi.drawn he) (hname.trans hname')
        rw [he.unique hi.ledger.legal he'] at hclock
        omega
    refine ⟨by simpa [hname] using ho.1, ho.2.imp (fun hb => ?_) fun hp => hp⟩
    simpa [Born, hname] using hb

end Broker

end DividendX
