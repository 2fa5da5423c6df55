import DividendX.Broker.Rights

/-!
# Every call keeps the discipline

The functions of the broker one by one, from the transaction of the repository up to `proxy`: each
makes its calls only where it may, and what it returns is known of the world it returns in. From any
interleaving of them the invariant follows (`ownership_sound`).
-/

namespace DividendX

namespace Broker

open Devnet (Instant Digest)
open Result History Async

variable {deps : Deps} {rules : Rules} {w w' w₀ : World} {id : SessionId} {r r' : SessionRecord}
  {T T' R : Set Token}

/-! ## What is known of a record that was read -/

/-- A known record has the shape of a stored one. -/
theorem Known.shape (hk : Known deps rules w r) (hi : Inv deps rules w) :
    ∃ pre, Shape deps (Named rules) pre r.id r := by
  obtain ⟨pre, r₀, hpre, hr₀, heq⟩ := hk.version
  have hshape := logShape_of_legal (hi.ledger.legal.of_prefix hpre) r.id r₀ hr₀
  rcases heq with rfl | ⟨now, rfl⟩
  · exact ⟨pre, hshape⟩
  · exact ⟨pre, hshape.normalize now⟩

/-- It is of the sandbox that is named after it. -/
theorem Known.name (hk : Known deps rules w r) (hi : Inv deps rules w) :
    r.providerName = deps.providerName r.id := by
  obtain ⟨pre, hshape⟩ := hk.shape hi
  exact hshape.providerName

/-- It has a meter. -/
theorem Known.meterVersion (hk : Known deps rules w r) (hi : Inv deps rules w) :
    r.meterVersion = some 1 := by
  obtain ⟨pre, hshape⟩ := hk.shape hi
  exact hshape.meterVersion

/-- Its end is the one that was recorded for the session. -/
theorem Known.expires (hk : Known deps rules w r) : Expires w.ledger.log r.id r.expiresAt := by
  obtain ⟨pre, r₀, hpre, hr₀, heq⟩ := hk.version
  refine ⟨pre, r₀, hpre, hr₀, ?_⟩
  rcases heq with rfl | ⟨now, rfl⟩
  · rfl
  · exact (advances_normalizeRecord True now r₀).entry.expiresAt.symm

/-- A stored record has advanced from the version that was read. -/
theorem Known.advances (hk : Known deps rules w r) (hi : Inv deps rules w)
    (hr' : stored w.ledger.log r.id = some r') :
    ∃ r₀, Advances (Named rules) r₀ r' ∧ (r = r₀ ∨ ∃ now, r = normalizeRecord now r₀) := by
  obtain ⟨pre, r₀, hpre, hr₀, heq⟩ := hk.version
  exact ⟨r₀, advances_of_legal hi.ledger.legal hpre hr₀ hr', heq⟩

/-- Normalizing leaves the launch. -/
theorem launch_normalizeRecord (now : Instant) (r : SessionRecord) :
    (normalizeRecord now r).launchAttemptedAt = r.launchAttemptedAt
      ∧ (normalizeRecord now r).providerDomain = r.providerDomain := by
  rw [normalizeRecord]
  split
  · exact ⟨rfl, rfl⟩
  · split <;> exact ⟨rfl, rfl⟩

/-- And makes nothing ready. -/
theorem ready_normalizeRecord {now : Instant} (h : (normalizeRecord now r).status = .ready) :
    r.status = .ready := by
  rcases normalizeRecord_cases now r with heq | ⟨-, heq⟩ | ⟨-, heq⟩
  · exact heq ▸ h
  · rw [heq] at h
    cases h
  · rw [heq] at h
    cases h

/-- A session that was launched at a domain stays so. -/
theorem Known.launched (hk : Known deps rules w r) (hi : Inv deps rules w)
    (hl : r.launchAttemptedAt ≠ none) (hd : r.providerDomain ≠ none)
    (hr' : stored w.ledger.log r.id = some r') :
    r'.launchAttemptedAt ≠ none ∧ r'.providerDomain ≠ none := by
  obtain ⟨r₀, hadv, heq⟩ := hk.advances hi hr'
  have hold : r₀.launchAttemptedAt ≠ none ∧ r₀.providerDomain ≠ none := by
    rcases heq with rfl | ⟨now, rfl⟩
    · exact ⟨hl, hd⟩
    · rw [(launch_normalizeRecord now r₀).1] at hl
      rw [(launch_normalizeRecord now r₀).2] at hd
      exact ⟨hl, hd⟩
  obtain ⟨d, hd⟩ := Option.ne_none_iff_exists'.mp hold.2
  refine ⟨hadv.launched hold.1, ?_⟩
  rw [hadv.domain hold.1 d hd]
  exact Option.some_ne_none d

/-- A session that was ready does not start again. -/
theorem Known.ready (hk : Known deps rules w r) (hi : Inv deps rules w) (hs : r.status = .ready)
    (hr' : stored w.ledger.log r.id = some r') : r'.kind = r.kind ∧ r'.status ≠ .starting := by
  obtain ⟨r₀, hadv, heq⟩ := hk.advances hi hr'
  have hold : r₀.status = .ready ∧ r₀.kind = r.kind := by
    rcases heq with rfl | ⟨now, rfl⟩
    · exact ⟨hs, rfl⟩
    · exact ⟨ready_normalizeRecord hs, (advances_normalizeRecord True now r₀).entry.kind.symm⟩
  refine ⟨hadv.entry.kind.trans hold.2, fun hstarting => ?_⟩
  rw [hadv.starting hstarting] at hold
  cases hold.1

/-- The sandbox of a session that was ready came alive. -/
theorem Known.born (hk : Known deps rules w r) (hi : Inv deps rules w) (hs : r.status = .ready)
    (hr : Reliable deps rules) : Born deps w r.id := by
  obtain ⟨pre, hshape⟩ := hk.shape hi
  exact (hk.facts.observed hr).launched (hshape.published (hshape.ready hs)).1

/-- The end of a session is past when its time is. -/
theorem Known.past (hk : Known deps rules w r) (hle : r.expiresAt.ms ≤ w.clock.ms) : Past w r.id :=
  ⟨r.expiresAt, hk.expires, hle⟩

/-! ## Transactions -/

/-- A request that may be written. -/
structure Asks (deps : Deps) (rules : Rules) (w : World) (request : Request) : Prop where
  justified : Justified deps (Named rules) w.ledger.log request
  published : PublishedWith w request
  evidence : Reliable deps rules → RegularRequest w request →
    ∀ id m, request.mutation? = some (id, m) → Evidence deps w id m

/-- What a transaction returns. -/
structure Returned (deps : Deps) (rules : Rules) (w : World) (request : Request)
    (outcome : Outcome) :
    Prop where
  known : Known deps rules w outcome.record
  id : ∀ id m, request.mutation? = some (id, m) → outcome.record.id = id
  update : ∀ id m, request = .update id m → ∃ now r, m.apply deps.limits now r = .ok outcome.record
  reserve : ∀ input, request = .reserve input → outcome.applied = true →
    outcome.record.id = input.id
  regular : Reliable deps rules → RegularRequest w request

theorem RegularRequest.later {request : Request} (h : RegularRequest w request)
    (hm : Moves deps rules w w')
    (hs : Steady rules) : RegularRequest w' request := by
  cases request with
  | update id m =>
    cases m with
    | resetting current =>
      exact Or.imp (fun hne => hne) (fun hle => Int.le_trans hle (hm.clock hs)) h
    | gone view => exact h
    | _ => trivial
  | _ => trivial

theorem Returned.later {request : Request} {outcome : Outcome}
    (h : Returned deps rules w request outcome)
    (hm : Moves deps rules w w') : Returned deps rules w' request outcome :=
  ⟨h.known.later hm, h.id, h.update, h.reserve, fun hr => (h.regular hr).later hm hr.steady⟩

/-- The returned record is the stored one. -/
theorem outcome_stored {log : List (Write Transaction SessionLedger)}
    {named : Prop} {t : Transaction}
    {next : SessionLedger} {outcome : Outcome} {limits : Limits} (hlog : LogShape deps named log)
    (h : t.apply limits (content emptyLedger log) = .ok (next, outcome)) :
    next.sessions.get? outcome.record.id = some outcome.record
      ∧ (∀ id m, t.request.mutation? = some (id, m) → outcome.record.id = id)
      ∧ (∀ id m, t.request = .update id m → ∃ now r, m.apply limits now r = .ok outcome.record)
      ∧ ∀ input, t.request = .reserve input → outcome.applied = true →
        outcome.record.id = input.id := by
  obtain ⟨cutoff, mid, -, hrequest, rfl⟩ := Transaction.apply_eq_ok h
  have hkeyed : ∀ id r,
      (normalized (content emptyLedger log) t.now cutoff).sessions.get? id = some r →
      r.id = id := by
    intro id r hr
    obtain ⟨r₀, hr₀, rfl, -⟩ := get?_normalizeSessions.mp hr
    exact (advances_normalizeRecord True t.now r₀).entry.id.trans (hlog id r₀ hr₀).keyed
  obtain ⟨now, request⟩ := t
  cases request with
  | reserve input =>
    rcases reserve_eq_ok hrequest with ⟨rfl, hnot, hlatest, -⟩ | ⟨-, hcreates⟩
    · obtain ⟨id, -, hget⟩ := Option.bind_eq_some_iff.mp hlatest
      refine ⟨?_, by simp [Request.mutation?], by simp, fun _ _ happlied => ?_⟩
      · rw [hkeyed id _ hget]
        exact hget
      · rw [hnot] at happlied
        cases happlied
    · refine ⟨?_, by simp [Request.mutation?], by simp, fun input' heq _ => ?_⟩
      · rw [hcreates.next]
        simp
      · cases heq
        exact (newRecord_eq_ok hcreates.made).1
  | update id m =>
    obtain ⟨r, hr, happly, -, rfl⟩ := update_eq_ok hrequest
    have hid : outcome.record.id = id := (Mutation.changed happly).entry.id.trans (hkeyed id r hr)
    refine ⟨by simp [hid], fun id' m' heq => ?_, fun id' m' heq => ?_, by simp⟩
    · cases heq
      exact hid
    · cases heq
      exact ⟨_, _, happly⟩
  | updateFenced id allowed requireLatest m =>
    obtain ⟨r, hr, ⟨rfl, rfl⟩ | ⟨-, -, -, happly, -, rfl⟩⟩ := updateFenced_eq_ok hrequest
    · have hid : r.id = id := hkeyed id r hr
      refine ⟨by simpa [hid] using hr, fun id' m' heq => ?_, by simp, by simp⟩
      cases heq
      exact hid
    · have hid : outcome.record.id = id := (Mutation.changed happly).entry.id.trans (hkeyed id r hr)
      refine ⟨by simp [hid], fun id' m' heq => ?_, by simp, by simp⟩
      cases heq
      exact hid
  | charge id visitorHash kind mutationCount =>
    obtain ⟨r, _, _, _, _, hr, hmeter, -, -⟩ := charge_eq_ok hrequest
    obtain ⟨r₀, hr₀, rfl, -⟩ := get?_normalizeSessions.mp hr
    -- sessions here are metered apart, and none is charged in the ledger
    rw [meterVersion_normalizeRecord, (hlog id r₀ hr₀).meterVersion] at hmeter
    cases hmeter

/-- The answer to a write. -/
theorem gives_putLedger {p : Put Transaction SessionLedger} (hR : R ⊆ T)
    (hkeep : ∀ t ∈ R, p.change.request.token ≠ some t)
    (hmay : ∀ w', Relies deps rules T w w' → Inv deps rules w' → MayWrite deps rules T w' p) :
    (ownership deps rules).Gives R
      (fun T' saved w' => (saved = false → T ⊆ T' ∧ Relies deps rules T w w')
        ∧ (saved = true → ∃ w₁, Inv deps rules w₁ ∧ Moves deps rules w₁ w'
          ∧ (Reliable deps rules → RegularRequest w₁ p.change.request)
          ∧ ∃ pre, w.ledger.log <+: pre ∧ version p.expected = pre.length
            ∧ w₁.ledger.log = pre ++ [⟨p.change, p.value⟩]))
      (call (.putLedger p) fun x => x) T w := by
  intro w₁ hr₁ hi₁ hT₁
  have hmay₁ := hmay w₁ hr₁ hi₁
  refine ⟨hmay₁, fun x w₂ hx => ⟨fun t ht => ⟨hR ht, .inr (hkeep t ht)⟩, ?_⟩⟩
  intro w₃ hr₃ hi₃ _ saved hsaved
  obtain ⟨hi₂, hmoves, -⟩ := Inv.answered (c := .putLedger p) hi₁ hT₁ hmay₁ hx
  obtain ⟨hreplies, hrules⟩ := hx
  cases hreplies with
  | @putLedger _ _ _ ledger hputs =>
    cases hputs with
    | saved heq =>
      cases hsaved
      refine ⟨nofun, fun _ => ⟨_, hi₂, hr₃.moves, fun hr => ?_, w₁.ledger.log,
        hr₁.moves.log, heq, rfl⟩⟩
      exact RegularRequest.later (hr.regular _ _ _ _ hrules) hmoves hr.steady
    | refused =>
      cases hsaved
      have hall : T ⊆ rightsAfter T (.putLedger p) (.ok false) := fun t ht => ⟨ht, .inl rfl⟩
      refine ⟨fun _ =>
        ⟨hall, (ownership deps rules).trans hr₁ ((ownership deps rules).anti hall hr₃)⟩, nofun⟩
    | lost e => cases hsaved

/-- Reading a document. -/
theorem gives_readLedger (hR : R ⊆ T) :
    (ownership deps rules).Gives R (fun T' cell w' => T = T' ∧ Relies deps rules T w w' ∧
        ∃ w₁, Inv deps rules w₁ ∧ Relies deps rules T w w₁ ∧ Relies deps rules T w₁ w'
          ∧ cell = w₁.ledger.cell)
      (call .readLedger fun x => x) T w := by
  refine .call (fun _ => rfl) hR (fun _ _ _ => trivial)
    fun w₁ x w₂ cell hr₁ hi₁ hx hcell w₃ hr₃ _ => ?_
  obtain ⟨hreplies, -⟩ := hx
  cases hreplies with
  | readLedger =>
    cases hcell
    exact ⟨rfl, (ownership deps rules).trans hr₁ hr₃, w₁, hi₁, hr₁, hr₃, rfl⟩
  | readLedgerFails e => cases hcell

/-- Reading the clock. -/
theorem gives_now (hR : R ⊆ T) :
    (ownership deps rules).Gives R (fun T' (t : Instant) w' => T = T' ∧ Relies deps rules T w w'
        ∧ (Steady rules → w.clock.ms ≤ t.ms ∧ t.ms ≤ w'.clock.ms))
      (ask Call.now : Promise Instant) T w := by
  refine .ask (fun _ => rfl) hR (fun _ _ _ => trivial) fun w₁ t w₂ hr₁ hi₁ hx w₃ hr₃ _ => ?_
  obtain ⟨hreplies, hrules⟩ := hx
  cases hreplies with
  | now t =>
    have hstep : Relies deps rules T w₁ { w₁ with clock := t } :=
      ⟨.clock_to fun hs => hs _ _ _ hrules, fun _ _ h => h⟩
    refine ⟨rfl, (ownership deps rules).trans hr₁ ((ownership deps rules).trans hstep hr₃),
      fun hs => ?_⟩
    exact ⟨(hr₁.moves.clock hs).trans (hs _ _ _ hrules), hr₃.moves.clock hs⟩

/-- Synchronous code. -/
theorem gives_sync {α : Type} {x : Except Failure α} :
    (ownership deps rules).Gives R (fun T' a w' => x = .ok a ∧ T = T' ∧ Relies deps rules T w w')
      (sync x : Promise α) T w :=
  .sync fun _ _ heq hr _ => ⟨heq, rfl, hr⟩

/-- Every attempt of a transaction writes what it computed from the ledger it read. -/
theorem gives_attempts {request : Request} {attempts : Nat} (hR : R ⊆ T)
    (hkeep : ∀ t ∈ R, request.token ≠ some t) (howned : ∀ t, request.token = some t → t ∈ T)
    (hasks : ∀ w', Relies deps rules T w w' → Inv deps rules w' → Asks deps rules w' request) :
    (ownership deps rules).Gives R (fun _ outcome w' => Returned deps rules w' request outcome)
      (transactionLoop deps.limits request attempts) T w := by
  induction attempts generalizing T w with
  | zero => exact .throw
  | succ attempts ih =>
    refine (gives_readLedger hR).bind (Set.Subset.refl R) hR
      fun T₁ cell w₁ _ _ _ ⟨hT₁, hr₁, w₀, hi₀, hr₀, hr₀₁, hcell⟩ => ?_
    subst hT₁ hcell
    refine (gives_now hR).bind (Set.Subset.refl R) hR fun T₂ t w₂ _ _ hi₂ ⟨hT₂, hr₂, hclock⟩ => ?_
    subst hT₂
    refine gives_sync.bind (Set.Subset.refl R) hR fun T₃ result w₃ _ _ _ ⟨happly, hT₃, hr₃⟩ => ?_
    subst hT₃
    obtain ⟨next, outcome⟩ := result
    rw [content_cell] at happly
    have hr₀₃ : Relies deps rules T w₀ w₃ :=
      (ownership deps rules).trans hr₀₁ ((ownership deps rules).trans hr₂ hr₃)
    have hrw₃ : Relies deps rules T w w₃ := (ownership deps rules).trans hr₀ hr₀₃
    have hallowed : Allowed deps (Named rules) w₀.ledger.log ⟨⟨t, request⟩, next⟩ :=
      ⟨(hasks w₀ hr₀ hi₀).justified, outcome, happly⟩
    refine (gives_putLedger hR hkeep fun w₄ hr₄ hi₄ => ?_).bind (Set.Subset.refl R) hR
      fun T₅ saved w₅ hR₅ _ hi₅ ⟨hrefused, hsaved⟩ => ?_
    · have hask := hasks w₄ ((ownership deps rules).trans hrw₃ hr₄) hi₄
      refine ⟨howned, basis_of_read (hr₀₃.moves.log.trans hr₄.moves.log) hallowed, hask.published,
        hask.evidence, fun hs => ?_⟩
      exact (hclock hs).2.trans ((hr₃.moves.clock hs).trans (hr₄.moves.clock hs))
    · cases saved with
      | true =>
        obtain ⟨w₄, hi₄, hmoves, hregular, pre, hbegins, hversion, hlog⟩ := hsaved rfl
        refine .pure fun w₆ hr₆ _ => Returned.later ?_ (hmoves.trans hr₆.moves)
        rw [version_cell] at hversion
        -- The store took the write for the version read, so nothing was written in between.
        obtain rfl := (hr₀₃.moves.log.trans hbegins).eq_of_length hversion
        obtain ⟨hstored, hid, hupdate, hreserve⟩ := outcome_stored hi₀.logShape happly
        have hget : stored w₄.ledger.log outcome.record.id = some outcome.record := by
          rw [hlog, stored_append]
          exact hstored
        exact ⟨⟨⟨_, _, List.prefix_refl _, hget, .inl rfl⟩, hi₄.known _ _ hget⟩,
          hid, hupdate, hreserve, hregular⟩
      | false =>
        obtain ⟨hT, hr₅⟩ := hrefused rfl
        have hrw₅ : Relies deps rules T w w₅ := (ownership deps rules).trans hrw₃ hr₅
        refine ih (hR.trans hT) (fun t ht => hT (howned t ht)) fun w₆ hr₆ => ?_
        exact hasks w₆ ((ownership deps rules).trans hrw₅ ((ownership deps rules).anti hT hr₆))

/-- **A transaction.** -/
theorem gives_transaction {request : Request} (hR : R ⊆ T) (hkeep : ∀ t ∈ R, request.token ≠ some t)
    (howned : ∀ t, request.token = some t → t ∈ T)
    (hasks : ∀ w', Relies deps rules T w w' → Inv deps rules w' → Asks deps rules w' request) :
    (ownership deps rules).Gives R (fun _ outcome w' => Returned deps rules w' request outcome)
      (transaction deps.limits request) T w :=
  gives_attempts hR hkeep howned hasks

/-- What `update` returns. -/
structure Updated (deps : Deps) (rules : Rules) (w : World) (id : SessionId) (m : Mutation)
    (record : SessionRecord) : Prop where
  known : Known deps rules w record
  keyed : record.id = id
  apply : ∃ now r, m.apply deps.limits now r = .ok record
  regular : Reliable deps rules → RegularRequest w (.update id m)

/-- No `update` publishes a session. -/
theorem publishedWith_update {m : Mutation} : PublishedWith w (.update id m) := nofun

/-- **An update** whose mutation is justified, on what is stored by then. -/
theorem gives_update {m : Mutation} (hR : R ⊆ T)
    (hjust : ∀ w', Relies deps rules T w w' → Inv deps rules w' →
      Justified deps (Named rules) w'.ledger.log (.update id m))
    (he : ∀ w', Relies deps rules T w w' → Inv deps rules w' → Reliable deps rules →
      RegularRequest w' (.update id m) → Evidence deps w' id m) :
    (ownership deps rules).Gives R (fun _ record w' => Updated deps rules w' id m record)
      (deps.update id m) T w := by
  have hasks : ∀ w', Relies deps rules T w w' → Inv deps rules w' →
      Asks deps rules w' (.update id m) := by
    intro w' hr hi
    refine ⟨hjust w' hr hi, publishedWith_update, fun hrel hreg id' m' heq => ?_⟩
    cases heq
    exact he w' hr hi hrel hreg
  have hloop := gives_transaction hR (by simp [Request.token]) (by simp [Request.token]) hasks
  refine hloop.bind (Set.Subset.refl R) hR fun T₁ outcome w₁ _ _ _ hret => .pure fun w₂ hr₂ _ => ?_
  have hret₂ := hret.later hr₂.moves
  exact ⟨hret₂.known, hret₂.id id m rfl, hret₂.update id m rfl, hret₂.regular⟩

/-- An update that is justified whatever was written before, with evidence from before. -/
theorem gives_update_of_evidence {m : Mutation} (hR : R ⊆ T)
    (hjust : ∀ log, Justified deps (Named rules) log (.update id m))
    (he : Reliable deps rules → Evidence deps w id m) :
    (ownership deps rules).Gives R (fun _ record w' => Updated deps rules w' id m record)
      (deps.update id m) T w :=
  gives_update hR (fun _ _ _ => hjust _) fun _ hr _ hrel _ => (he hrel).later hr.moves hrel

/-! ## Reading the ledger -/

/-- What is read is a normal form of what is stored. -/
theorem gives_readNormalized (hR : R ⊆ T) :
    (ownership deps rules).Gives R (fun _ result w' => ∀ ledger now, result = some (ledger, now) →
        ∀ id r, ledger.sessions.get? id = some r → Known deps rules w' r ∧ r.id = id)
      readNormalized T w := by
  refine (gives_readLedger hR).bind (Set.Subset.refl R) hR
    fun T₁ cell w₁ _ _ _ hread => ?_
  obtain ⟨rfl, -, w₀, hi₀, -, hr₀₁, hcell⟩ := hread
  cases cell with
  | none => exact .pure fun _ _ _ => by simp
  | some current =>
    refine (gives_now hR).bind (Set.Subset.refl R) hR fun T₂ t w₂ _ _ _ hnow => ?_
    obtain ⟨rfl, hr₂, hclock⟩ := hnow
    refine gives_sync.bind (Set.Subset.refl R) hR fun T₃ ledger w₃ _ _ _ hnormal => ?_
    obtain ⟨hledger, rfl, hr₃⟩ := hnormal
    refine .pure fun w₄ hr₄ _ ledger' now heq id r hr => ?_
    cases heq
    obtain ⟨cutoff, -, rfl⟩ := normalizeLedger_eq_ok hledger
    obtain ⟨r₀, hr₀, rfl, -⟩ := get?_normalizeSessions.mp hr
    have hstored : stored w₀.ledger.log id = some r₀ := by
      have hcontent := content_cell emptyLedger w₀.ledger
      rw [← hcell] at hcontent
      rw [stored, ← hcontent]
      exact hr₀
    have hentry := (advances_normalizeRecord True t r₀).entry
    have hid : (normalizeRecord t r₀).id = id := hentry.id.trans (hi₀.logShape id r₀ hstored).keyed
    have hmoves : Moves deps rules w₀ w₄ :=
      (hr₀₁.moves.trans hr₂.moves).trans (hr₃.moves.trans hr₄.moves)
    have hfacts : RecordFacts deps rules w₄ (normalizeRecord t r₀) := by
      refine ((hi₀.known id r₀ hstored).later hmoves).normalize ⟨_, r₀, hmoves.log, ?_, rfl⟩
        fun hs => ?_
      · rw [← hentry.id, hid]
        exact hstored
      · exact (hclock hs).2.trans ((hr₃.moves.trans hr₄.moves).clock hs)
    exact ⟨⟨⟨_, r₀, hmoves.log, by rw [hid]; exact hstored, .inr ⟨t, rfl⟩⟩, hfacts⟩, hid⟩

/-- The visitor's latest record is known. -/
theorem gives_currentRecord {visitorHash : Digest} {kind : SandboxKind} (hR : R ⊆ T) :
    (ownership deps rules).Gives R (fun _ result w' => ∀ r, result = some r → Known deps rules w' r)
      (currentRecord visitorHash kind) T w := by
  refine (gives_readNormalized hR).bind (Set.Subset.refl R) hR fun T₁ result w₁ _ _ _ hread => ?_
  cases result with
  | none => exact .pure fun _ _ _ => by simp
  | some result =>
    refine .pure fun w₂ hr₂ _ r hr => ?_
    obtain ⟨id, -, hget⟩ := Option.bind_eq_some_iff.mp hr
    exact (hread result.1 result.2 rfl id r hget).1.later hr₂.moves

/-- So is a record that is found by its id. -/
theorem gives_byId (hR : R ⊆ T) :
    (ownership deps rules).Gives R (fun _ result w' => ∀ r, result = some r → Known deps rules w' r)
      (byId id) T w := by
  refine (gives_readNormalized hR).bind (Set.Subset.refl R) hR fun T₁ result w₁ _ _ _ hread => ?_
  cases result with
  | none => exact .pure fun _ _ _ => by simp
  | some result =>
    exact .pure fun w₂ hr₂ _ r hr => (hread result.1 result.2 rfl id r hr).1.later hr₂.moves

/-! ## Meters -/

/-- A meter that was read was written. -/
theorem gives_readMeterCell (hR : R ⊆ T) :
    (ownership deps rules).Gives R (fun T' cell w' => T = T' ∧ Relies deps rules T w w' ∧
        ∃ w₁, Inv deps rules w₁ ∧ Relies deps rules T w₁ w' ∧ cell = (w₁.meters id).cell)
      (call (.readMeter id) fun x => x) T w := by
  refine .call (fun _ => rfl) hR (fun _ _ _ => trivial)
    fun w₁ x w₂ cell hr₁ hi₁ hx hcell w₃ hr₃ _ => ?_
  obtain ⟨hreplies, -⟩ := hx
  cases hreplies with
  | readMeter =>
    cases hcell
    exact ⟨rfl, (ownership deps rules).trans hr₁ hr₃, w₁, hi₁, hr₃, rfl⟩
  | readMeterFails e => cases hcell

/-- A meter that is read was written. -/
theorem gives_readMeter (hR : R ⊆ T) :
    (ownership deps rules).Gives R (fun T' result w' => T = T' ∧ Relies deps rules T w w' ∧
        ∀ meter, result = some meter → ∃ v ∈ (w'.meters id).log, v.value = meter)
      (readMeter id) T w := by
  refine (gives_readMeterCell hR).bind (Set.Subset.refl R) hR
    fun T₁ cell w₁ _ _ _ ⟨hT₁, hr₁, w₀, _, hr₀₁, hcell⟩ => ?_
  subst hT₁
  cases cell with
  | none => exact .pure fun w₂ hr₂ _ => ⟨rfl, (ownership deps rules).trans hr₁ hr₂, by simp⟩
  | some current =>
    refine gives_sync.bind (Set.Subset.refl R) hR fun T₂ _ w₂ _ _ _ ⟨_, hT₂, hr₂⟩ => ?_
    subst hT₂
    refine .pure fun w₃ hr₃ _ =>
      ⟨rfl, (ownership deps rules).trans hr₁ ((ownership deps rules).trans hr₂ hr₃),
        fun meter heq => ?_⟩
    cases heq
    obtain ⟨v, hv, heq⟩ := Option.map_eq_some_iff.mp hcell.symm
    refine ⟨v, ?_, by rw [← heq]⟩
    exact ((hr₀₁.moves.trans hr₂.moves).trans hr₃.moves).meters id |>.subset
      (List.mem_of_getLast? hv)

/-- A write of a meter. -/
theorem gives_putMeter {p : Put MeterChange SessionMeter} (hR : R ⊆ T)
    (hmay : ∀ w', Relies deps rules T w w' → Inv deps rules w' → MayMeter deps rules w' id p) :
    (ownership deps rules).Gives R (fun T' saved w' => T = T' ∧ Relies deps rules T w w' ∧
        (saved = true → ∃ pre, version p.expected = pre.length
          ∧ pre ++ [⟨p.change, p.value⟩] <+: (w'.meters id).log))
      (call (.putMeter id p) fun x => x) T w := by
  refine .call (fun _ => rfl) hR hmay fun w₁ x w₂ saved hr₁ hi₁ hx hsaved w₃ hr₃ _ => ?_
  obtain ⟨hreplies, -⟩ := hx
  cases hreplies with
  | @putMeter _ _ _ _ meter hputs =>
    have hmay₁ : MayMeter deps rules w₁ id p := hmay w₁ hr₁ hi₁
    have hstep : Relies deps rules T w₁ { w₁ with meters := Function.update w₁.meters id meter } :=
      ⟨.meter ((hi₁.meters id).puts hmay₁.basis hputs).2, fun _ _ h => h⟩
    refine ⟨rfl, (ownership deps rules).trans hr₁ ((ownership deps rules).trans hstep hr₃), ?_⟩
    rintro rfl
    cases hputs with
    | saved heq =>
      refine ⟨(w₁.meters id).log, heq, ?_⟩
      have hlog := hr₃.moves.meters id
      simpa using hlog
    | refused => cases hsaved
    | lost e => cases hsaved

/-- A meter of the history that is bound to a record was created for it. -/
theorem meterBound_of_mem (hi : Inv deps rules w) {runtimeId : String}
    {v : Write MeterChange SessionMeter}
    (hv : v ∈ (w.meters r.id).log) (hbound : BoundTo v.value r runtimeId) (hne : runtimeId ≠ "") :
    MeterBound w r runtimeId := by
  have hhistory := meterHistory_of_legal (hi.meters r.id).legal
  cases hlog : (w.meters r.id).log with
  | nil =>
    rw [hlog] at hv
    cases hv
  | cons u rest =>
    have hhead : (w.meters r.id).log.head? = some u := by rw [hlog]; rfl
    have hsame := hhistory.bound u hhead v hv
    exact ⟨hne, u, hhead,
      ⟨hsame.id.symm.trans hbound.id, hsame.visitorHash.symm.trans hbound.visitorHash,
      hsame.kind.symm.trans hbound.kind, hsame.providerName.symm.trans hbound.providerName,
      hsame.runtimeId.symm.trans hbound.runtimeId, hsame.expiresAt.symm.trans hbound.expiresAt⟩⟩

/-- The test is for the binding. -/
theorem boundTo_of_matches {meter : SessionMeter} {runtimeId : String}
    (h : meterBindingMatches meter r (some runtimeId) = true) : BoundTo meter r runtimeId := by
  simp only [meterBindingMatches, Bool.and_eq_true, decide_eq_true_eq, Option.some.injEq] at h
  obtain ⟨⟨⟨⟨⟨h₁, h₂⟩, h₃⟩, h₄⟩, h₅⟩, h₆⟩ := h
  exact ⟨h₁, h₂, h₃, h₄, h₅, h₆⟩

/-- `initializeMeter` returns when the meter of the record was created for this runtime. -/
theorem gives_initializeMeter {runtimeId : String} (hR : R ⊆ T) :
    (ownership deps rules).Gives R (fun _ _ w' => MeterBound w' r runtimeId)
      (initializeMeter r runtimeId) T w := by
  refine gives_sync.bind (Set.Subset.refl R) hR fun T₁ _ w₁ _ _ _ hchecked => ?_
  obtain ⟨hrequire, rfl, -⟩ := hchecked
  obtain ⟨-, -, hne⟩ := require_eq_ok.mp hrequire
  refine (gives_now hR).bind (Set.Subset.refl R) hR fun T₂ now w₂ _ _ _ hnow => ?_
  obtain ⟨rfl, -, -⟩ := hnow
  have hmay : ∀ w', Relies deps rules T w₂ w' → Inv deps rules w' →
      MayMeter deps rules w' r.id ⟨.create, none, newMeter r runtimeId now⟩ := by
    intro w' _ _
    refine ⟨⟨Nat.zero_le _, ?_⟩, by simp [MeterChange.chargedAt]⟩
    exact ⟨rfl, r, runtimeId, now, rfl, rfl⟩
  refine (gives_putMeter hR hmay).bind (Set.Subset.refl R) hR
    fun T₃ saved w₃ _ _ _ hput => ?_
  obtain ⟨rfl, -, hsaved⟩ := hput
  cases saved with
  | true =>
    refine .pure fun w₄ hr₄ hi₄ => ?_
    obtain ⟨pre, -, hbegins⟩ := hsaved rfl
    have hmem :=
      ((hbegins.trans (hr₄.moves.meters r.id)).subset
        (List.mem_append_right pre List.mem_cons_self))
    exact meterBound_of_mem hi₄ hmem ⟨rfl, rfl, rfl, rfl, rfl, rfl⟩ hne
  | false =>
    refine (gives_readMeter hR).bind (Set.Subset.refl R) hR
      fun T₄ existing w₄ _ _ _ hread => ?_
    obtain ⟨rfl, -, hexisting⟩ := hread
    refine .sync fun _ w₅ hopen hr₅ hi₅ => ?_
    have hany := require_eq_ok.mp hopen
    obtain ⟨meter, hmeter, hok⟩ := (Option.any_eq_true _ _).mp hany
    obtain ⟨v, hv, rfl⟩ := hexisting meter hmeter
    rw [Bool.and_eq_true] at hok
    exact meterBound_of_mem hi₅ ((hr₅.moves.meters r.id).subset hv) (boundTo_of_matches hok.1) hne

/-- A meter that was read is the last one of the history. -/
theorem getLast?_of_cell {s : History MeterChange SessionMeter} {P : SessionMeter → Bool}
    {meter : SessionMeter} (h : (s.cell.map Versioned.value).filter P = some meter) :
    P meter = true ∧ ∃ v, s.log.getLast? = some v ∧ v.value = meter := by
  obtain ⟨hmap, hp⟩ := Option.filter_eq_some_iff.mp h
  obtain ⟨cell, hcell, rfl⟩ := Option.map_eq_some_iff.mp hmap
  obtain ⟨v, hv, rfl⟩ := Option.map_eq_some_iff.mp hcell
  exact ⟨hp, v, hv, rfl⟩

/-- Closing a meter needs no right. -/
theorem gives_closeLoop {attempts : Nat} (hR : R ⊆ T) :
    (ownership deps rules).Gives R (fun _ _ _ => True) (closeLoop r attempts) T w := by
  induction attempts generalizing w with
  | zero => exact .throw
  | succ attempts ih =>
    refine (gives_readMeterCell hR).bind (Set.Subset.refl R) hR
      fun T₁ cell w₁ _ _ _ ⟨hT₁, _, w₀, _, hr₀₁, hcell⟩ => ?_
    subst hT₁ hcell
    refine gives_sync.bind (Set.Subset.refl R) hR fun T₂ meter w₂ _ _ _ ⟨hmeter, hT₂, hr₂⟩ => ?_
    subst hT₂
    obtain ⟨-, v, hlast, rfl⟩ := getLast?_of_cell (okOr_eq_ok.mp hmeter)
    refine .ite (fun _ => .pure fun _ _ _ => trivial) fun _ => ?_
    refine (gives_putMeter hR fun w' hr _ => ?_).bind (Set.Subset.refl R) hR
      fun T₃ saved w₃ _ _ _ ⟨hT₃, _, _⟩ => ?_
    · have hlog := (hr₀₁.moves.trans (hr₂.moves.trans hr.moves)).meters r.id
      exact ⟨basis_of_read hlog ⟨v, hlast, rfl⟩, by simp [MeterChange.chargedAt]⟩
    · subst hT₃
      exact .ite (fun _ => .pure fun _ _ _ => trivial) fun _ => ih

theorem gives_closeMeter (hR : R ⊆ T) :
    (ownership deps rules).Gives R (fun _ _ _ => True) (closeMeter r) T w := by
  rw [closeMeter]
  split
  · exact .pure fun _ _ _ => trivial
  · refine gives_sync.bind (Set.Subset.refl R) hR fun T₁ _ w₁ _ _ _ ⟨_, hT₁, _⟩ => ?_
    subst hT₁
    exact gives_closeLoop hR

theorem gives_closeMeterOf (hR : R ⊆ T) :
    (ownership deps rules).Gives R (fun _ _ _ => True) (closeMeterOf r) T w :=
  .ite (fun _ => gives_closeMeter hR) fun _ => .pure fun _ _ _ => trivial

/-- Reading one neither. -/
theorem gives_assertMeter (hR : R ⊆ T) :
    (ownership deps rules).Gives R (fun _ _ _ => True) (assertMeter r) T w := by
  rw [assertMeter]
  split
  · exact .pure fun _ _ _ => trivial
  · refine gives_sync.bind (Set.Subset.refl R) hR fun T₁ _ w₁ _ _ _ ⟨_, hT₁, _⟩ => ?_
    subst hT₁
    refine (gives_readMeter hR).bind (Set.Subset.refl R) hR fun T₂ meter w₂ _ _ _ _ => ?_
    exact .sync fun _ _ _ _ _ => trivial

theorem gives_assertForwardable (hR : R ⊆ T) :
    (ownership deps rules).Gives R (fun _ _ _ => True) (assertForwardable r) T w := by
  refine (gives_readNormalized hR).bind (Set.Subset.refl R) hR fun T₁ result w₁ hR₁ _ _ _ => ?_
  cases result with
  | none => exact .throw
  | some result =>
    refine gives_sync.bind (Set.Subset.refl R) hR₁ fun T₂ latest w₂ hR₂ _ _ _ => ?_
    refine gives_sync.bind (Set.Subset.refl R) hR₂ fun T₃ _ w₃ hR₃ _ _ _ => ?_
    refine (gives_assertMeter hR₃).bind (Set.Subset.refl R) hR₃ fun T₄ _ w₄ _ _ _ _ => ?_
    exact .pure fun _ _ _ => trivial

theorem gives_assertMeterForwardable (hR : R ⊆ T) :
    (ownership deps rules).Gives R (fun _ _ _ => True) (assertMeterForwardable r) T w := by
  refine gives_sync.bind (Set.Subset.refl R) hR fun T₁ _ w₁ hR₁ _ _ _ => ?_
  refine (gives_now hR₁).bind (Set.Subset.refl R) hR₁ fun T₂ _ w₂ hR₂ _ _ _ => ?_
  refine gives_sync.bind (Set.Subset.refl R) hR₂ fun T₃ _ w₃ hR₃ _ _ _ => ?_
  refine (gives_readMeter hR₃).bind (Set.Subset.refl R) hR₃ fun T₄ meter w₄ _ _ _ _ => ?_
  exact .sync fun _ _ _ _ _ => trivial

/-- A session that may be used. -/
structure Usable (deps : Deps) (rules : Rules) (w : World) (id : SessionId) (kind : SandboxKind)
    (record : SessionRecord) : Prop where
  known : Known deps rules w record
  keyed : record.id = id
  kind : record.kind = kind
  ready : record.status = .ready
  runtime : noRuntime record = false

/-- A usable session stays usable. -/
theorem Usable.later {kind : SandboxKind} (h : Usable deps rules w id kind r)
    (hm : Moves deps rules w w') :
    Usable deps rules w' id kind r :=
  ⟨h.known.later hm, h.keyed, h.kind, h.ready, h.runtime⟩

/-- A record that may be passed on is usable. -/
theorem gives_forwardableById {visitorHash : Digest} {kind : SandboxKind} (hR : R ⊆ T) :
    (ownership deps rules).Gives R (fun _ record w' => Usable deps rules w' id kind record)
      (forwardableById id visitorHash kind) T w := by
  refine (gives_readNormalized hR).bind (Set.Subset.refl R) hR fun T₁ result w₁ hR₁ _ _ hread => ?_
  cases result with
  | none => exact .throw
  | some result =>
    refine gives_sync.bind (Set.Subset.refl R) hR₁ fun T₂ record w₂ hR₂ hr₂ _ ⟨hrecord, _, _⟩ => ?_
    refine gives_sync.bind (Set.Subset.refl R) hR₂ fun T₃ _ w₃ hR₃ hr₃ _ ⟨hcheck, _, _⟩ => ?_
    refine (gives_assertMeter hR₃).bind (Set.Subset.refl R) hR₃ fun T₄ _ w₄ _ hr₄ _ _ => ?_
    refine .pure fun w₅ hr₅ _ =>
      Usable.later ?_ (hr₂.moves.trans (hr₃.moves.trans (hr₄.moves.trans hr₅.moves)))
    obtain ⟨hknown, hid⟩ := hread result.1 result.2 rfl id record (okOr_eq_ok.mp hrecord)
    obtain ⟨-, hkind, -, hready, -, hruntime⟩ := require_eq_ok.mp hcheck
    exact ⟨hknown, hid, hkind, hready, hruntime⟩

/-- **A charge** is computed from the meter that was read. -/
theorem gives_chargeLoop {mutationCount attempts : Nat} (hR : R ⊆ T) :
    (ownership deps rules).Gives R (fun _ record _ => record = r)
      (chargeLoop deps.limits r id mutationCount attempts) T w := by
  induction attempts generalizing w with
  | zero => exact .throw
  | succ attempts ih =>
    refine (gives_readMeterCell hR).bind (Set.Subset.refl R) hR
      fun T₁ cell w₁ _ _ _ ⟨hT₁, _, w₀, hi₀, hr₀₁, hcell⟩ => ?_
    subst hT₁ hcell
    refine gives_sync.bind (Set.Subset.refl R) hR fun T₂ meter w₂ _ _ _ ⟨hmeter, hT₂, hr₂⟩ => ?_
    subst hT₂
    obtain ⟨hok, v, hlast, rfl⟩ := getLast?_of_cell (okOr_eq_ok.mp hmeter)
    rw [Bool.and_eq_true] at hok
    refine (gives_now hR).bind (Set.Subset.refl R) hR fun T₃ now w₃ _ _ _ ⟨hT₃, hr₃, hclock⟩ => ?_
    subst hT₃
    refine gives_sync.bind (Set.Subset.refl R) hR fun T₄ charged w₄ _ _ _ ⟨hcharge, hT₄, hr₄⟩ => ?_
    subst hT₄
    refine (gives_putMeter hR fun w' hr _ => ?_).bind (Set.Subset.refl R) hR
      fun T₅ saved w₅ _ _ _ ⟨hT₅, _, _⟩ => ?_
    · have hmoves := hr₀₁.moves.trans (hr₂.moves.trans (hr₃.moves.trans (hr₄.moves.trans hr.moves)))
      refine ⟨basis_of_read (hmoves.meters id) ⟨fun hs u hu t ht => ?_, v, hlast, hok.2, hcharge⟩,
        fun hs t ht => ?_⟩
      · exact ((hi₀.meterPast hs id).1 u hu t ht).trans
          (((hr₀₁.moves.trans hr₂.moves).clock hs).trans (hclock hs).1)
      · cases ht
        exact (hclock hs).2.trans ((hr₄.moves.trans hr.moves).clock hs)
    · subst hT₅
      exact .ite (fun _ => .pure fun _ _ _ => rfl) fun _ => ih

/-- **A charge** is for a usable session. -/
theorem gives_charge {visitorHash : Digest} {kind : SandboxKind} {mutationCount : Nat}
    (hR : R ⊆ T) :
    (ownership deps rules).Gives R (fun _ record w' => Usable deps rules w' id kind record)
      (deps.charge id visitorHash kind mutationCount) T w := by
  refine gives_sync.bind (Set.Subset.refl R) hR fun T₁ _ w₁ hR₁ _ _ _ => ?_
  refine (gives_forwardableById hR₁).bind (Set.Subset.refl R) hR₁
    fun T₂ snapshot w₂ hR₂ _ hi₂ husable => ?_
  rw [husable.known.meterVersion hi₂]
  refine gives_sync.bind (Set.Subset.refl R) hR₂ fun T₃ _ w₃ hR₃ hr₃ _ _ => ?_
  refine (gives_chargeLoop hR₃).mono hR₃ fun T₄ record w₄ _ hr₄ _ heq => ?_
  rw [heq]
  exact husable.later (hr₃.moves.trans hr₄.moves)

end Broker

end DividendX
