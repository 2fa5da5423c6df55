import DividendX.Broker.Traversal

/-!
# Live sandboxes stay within the capacity

A sandbox counts from the moment its session is reserved, since from then on it may be asked for and
come alive at any time before the session's end (`Potential`). The record of such a sandbox is
always stored, is its visitor's latest of its kind and holds capacity; so a reservation that finds
room among the records that hold capacity finds room among the sandboxes.

This rests on what the record says of its sandbox being so (`Observed`), and that fails in two
places: `reset` takes a record without a provider status for one whose creation is settled, and
`proxy` closes a session as expired when the provider still reports its sandbox. Requests that do
not come from these are regular.
-/

namespace DividendX

namespace Broker

open Devnet (Instant Digest)
open History Async

variable {deps : Deps} {rules : Rules} {w w' : World} {id : SessionId} {r r' : SessionRecord}

/-! ## Sandboxes and their time -/

/-- A sandbox is not alive past the end of its session and the last recorded end of the sandbox. -/
def Timely (deps : Deps) (w : World) : Prop :=
  ∀ id r, stored w.ledger.log id = some r → w.sandbox (deps.providerName id) = .live →
    w.clock.ms < r.expiresAt.ms ∨ ∃ e, r.providerExpiresAt = some e ∧ w.clock.ms < e.ms

/-- The sandbox of a session that was reserved is alive, or may still come alive. -/
def Potential (deps : Deps) (w : World) (id : SessionId) : Prop :=
  ∃ e, Expires w.ledger.log id e ∧ (w.sandbox (deps.providerName id) = .live
    ∨ (w.sandbox (deps.providerName id) = .unborn ∧ w.clock.ms < e.ms))

/-- What is over is not alive and will not be. -/
theorem Over.not_potential {named : Prop} (h : Over deps w id)
    (hlegal : Legal (Allowed deps named) w.ledger.log) :
    ¬ Potential deps w id := by
  rintro ⟨e, he, hlive | ⟨hunborn, hlt⟩⟩
  · exact h.1 hlive
  · obtain hborn | ⟨e', he', hle⟩ := h.2
    · exact hborn hunborn
    · rw [he.unique hlegal he'] at hlt
      omega

/-- `holdsCapacity`, spelled out. -/
theorem holdsCapacity_iff {now : Instant} : holdsCapacity r now = true ↔
    (r.providerStatus.any (fun s => !s.terminal) = true
      ∧ r.providerExpiresAt.any (isFuture · now) = true)
    ∨ (isFuture r.expiresAt now = true
      ∧ ((r.status = .starting ∨ r.status = .ready ∨ r.status = .resetting)
        ∨ (r.status = .failed ∧ (r.providerStatus.getD .unknown).terminal = false))) := by
  rw [holdsCapacity]
  generalize r.providerStatus.any (fun s => !s.terminal) = mayBeLive
  generalize r.providerExpiresAt.any (isFuture · now) = future
  generalize isFuture r.expiresAt now = unexpired
  generalize (r.providerStatus.getD .unknown).terminal = ended
  cases mayBeLive <;> cases future <;> cases unexpired <;> cases ended <;> cases r.status <;> simp

/-- **A record whose sandbox is or may come alive holds capacity.** -/
theorem holdsCapacity_of_potential {named : Prop} (hlegal : Legal (Allowed deps named) w.ledger.log)
    (hobserved : Observed deps w r) (hexpires : Expires w.ledger.log r.id r.expiresAt)
    (hexpiry : r.providerStatus = none → r.providerExpiresAt = none)
    (htimely : w.sandbox (deps.providerName r.id) = .live →
      w.clock.ms < r.expiresAt.ms ∨ ∃ e, r.providerExpiresAt = some e ∧ w.clock.ms < e.ms)
    (hp : Potential deps w r.id) : holdsCapacity r w.clock = true := by
  have hnotOver : ¬ Over deps w r.id := fun hover => hover.not_potential hlegal hp
  have hnotTerminal : ∀ s, r.providerStatus = some s → s.terminal = false := by
    intro s hs
    by_contra ht
    exact hnotOver (hobserved.terminal s hs (Bool.eq_true_of_not_eq_false ht))
  have htime : w.clock.ms < r.expiresAt.ms ∨ ∃ e, r.providerExpiresAt = some e
      ∧ w.clock.ms < e.ms := by
    obtain ⟨e, he, hlive | ⟨-, hlt⟩⟩ := hp
    · exact htimely hlive
    · exact .inl (hexpires.unique hlegal he ▸ hlt)
  by_cases hfuture : w.clock.ms < r.expiresAt.ms
  · -- before the end of the session its status decides
    have hisFuture : isFuture r.expiresAt w.clock = true := decide_eq_true hfuture
    have hnotPast : ¬ Past w r.id := by
      rintro ⟨e, he, hle⟩
      rw [he.unique hlegal hexpires] at hle
      omega
    refine holdsCapacity_iff.mpr (.inr ⟨hisFuture, ?_⟩)
    have hunended : (r.providerStatus.getD .unknown).terminal = false := by
      cases hps : r.providerStatus with
      | none => rfl
      | some s => exact hnotTerminal s hps
    cases hs : r.status with
    | failed => exact .inr ⟨rfl, hunended⟩
    | expired => exact ((hobserved.expired hs).elim hnotOver hnotPast).elim
    | starting | ready | resetting => simp
  · -- after it, the recorded end of the sandbox
    obtain ⟨e, he, hlt⟩ := htime.resolve_left hfuture
    obtain ⟨s, hs⟩ := Option.ne_none_iff_exists'.mp fun hnone => by
      rw [hexpiry hnone] at he
      cases he
    have hisFuture : isFuture e w.clock = true := decide_eq_true hlt
    refine holdsCapacity_iff.mpr (.inl ⟨?_, ?_⟩)
    · simp [hs, hnotTerminal s hs]
    · simp [he, hisFuture]

/-- Capacity is given back with time, not taken. -/
theorem holdsCapacity_earlier {now later : Instant} (hle : now.ms ≤ later.ms)
    (h : holdsCapacity r later = true) : holdsCapacity r now = true := by
  have hfuture : ∀ t : Instant, isFuture t later = true → isFuture t now = true := by
    intro t ht
    simp only [isFuture, decide_eq_true_eq] at ht ⊢
    omega
  rcases holdsCapacity_iff.mp h with ⟨hmay, hexpiry⟩ | ⟨hexpires, hstatus⟩
  · obtain ⟨e, he, hlt⟩ := (Option.any_eq_true _ _).mp hexpiry
    exact holdsCapacity_iff.mpr (.inl ⟨hmay, (Option.any_eq_true _ _).mpr ⟨e, he, hfuture e hlt⟩⟩)
  · exact holdsCapacity_iff.mpr (.inr ⟨hfuture _ hexpires, hstatus⟩)

/-! ## The invariant -/

/-- Every sandbox that is or may come alive has a stored record, its visitor's latest, and there are
no more of them than the capacity. -/
structure Capacity (deps : Deps) (w : World) : Prop where
  named : ∀ name, w.sandbox name ≠ .unborn →
    ∃ id e, name = deps.providerName id ∧ Expires w.ledger.log id e
  latest : ∀ id, Potential deps w id → ∃ r, stored w.ledger.log id = some r
    ∧ w.sessionLedger.latest.get? (r.visitorHash, r.kind) = some id
  count : ∀ ids : Finset SessionId, (∀ id ∈ ids, Potential deps w id) →
    ids.card ≤ deps.limits.active

/-- No sandbox is added. -/
theorem Capacity.shrink (h : Capacity deps w) (hlog : w'.ledger.log = w.ledger.log)
    (hpotential : ∀ id, Potential deps w' id → Potential deps w id)
    (hnamed : ∀ name, w'.sandbox name ≠ .unborn →
      ∃ id e, name = deps.providerName id ∧ Expires w.ledger.log id e) : Capacity deps w' := by
  refine ⟨hlog ▸ hnamed, fun id hp => ?_, fun ids hids => h.count ids fun id hid =>
    hpotential id (hids id hid)⟩
  rw [World.sessionLedger]
  rw [hlog]
  exact h.latest id (hpotential id hp)

/-- Sandboxes are stopped, the clock goes on. -/
theorem Capacity.settle (h : Capacity deps w) (hlog : w'.ledger.log = w.ledger.log)
    (hclock : w.clock.ms ≤ w'.clock.ms)
    (hlive : ∀ name, w'.sandbox name = .live → w.sandbox name = .live)
    (hunborn : ∀ name, w'.sandbox name = .unborn ↔ w.sandbox name = .unborn) :
    Capacity deps w' := by
  refine h.shrink hlog (fun id hp => ?_) fun name hne => h.named name fun heq =>
    hne ((hunborn name).mpr heq)
  obtain ⟨e, he, hcase⟩ := hp
  rw [hlog] at he
  refine ⟨e, he, hcase.imp (hlive _) fun ⟨hu, hlt⟩ => ⟨(hunborn _).mp hu, by omega⟩⟩

theorem Capacity.kill (h : Capacity deps w) (name : String) : Capacity deps (w.kill name) := by
  refine h.settle rfl (Int.le_refl _) (fun name' hlive => ?_) fun name' => ?_
  · by_cases hname : name' = name
    · subst hname
      exact absurd hlive (kill_ne_live w name')
    · simpa [World.kill, hname] using hlive
  · by_cases hname : name' = name
    · subst hname
      simp only [World.kill, Function.update_self]
      cases w.sandbox name' <;> simp [Stage.stopped]
    · simp [World.kill, hname]

/-- A sandbox that comes alive was one that might. -/
theorem Capacity.alive (h : Capacity deps w) (hi : Inv deps rules w) (hrel : Reliable deps rules)
    {name : String} {e : Instant} (hrequested : w.requested name = some e)
    (hclock : w.clock.ms < e.ms)
    (hunborn : w.sandbox name = .unborn) :
    Capacity deps { w with sandbox := Function.update w.sandbox name .live } := by
  obtain ⟨id, hname, he⟩ := hi.requested name e hrequested
  refine h.shrink rfl (fun id' hp => ?_) fun name' hne => ?_
  · obtain ⟨e', he', hcase⟩ := hp
    by_cases hsame : deps.providerName id' = name
    · obtain rfl := hi.distinct hrel id' (hi.drawn he') id (hi.drawn he) (hsame.trans hname)
      exact ⟨e, he, .inr ⟨hsame ▸ hunborn, hclock⟩⟩
    · simp only [Function.update_of_ne hsame] at hcase
      exact ⟨e', he', hcase⟩
  · by_cases hsame : name' = name
    · exact ⟨id, e, hsame.trans hname, he⟩
    · simp only [Function.update_of_ne hsame] at hne
      exact h.named name' hne

/-! ## Writes of the ledger -/

variable {v : Write Transaction SessionLedger}

/-- What a write finds of a session whose sandbox is or may come alive, in the ledger as it
normalizes it. -/
theorem Capacity.found (h : Capacity deps w) (hi : Inv deps rules w) (hrel : Reliable deps rules)
    (htimely : Timely deps w) {now : Instant} (hnow : now.ms ≤ w.clock.ms)
    (hp : Potential deps w id)
    (cutoff : Instant) :
    ∃ r, stored w.ledger.log id = some r
      ∧ (normalized (content emptyLedger w.ledger.log) now cutoff).sessions.get? id
        = some (normalizeRecord now r)
      ∧ (normalized (content emptyLedger w.ledger.log) now cutoff).latest.get?
        (r.visitorHash, r.kind) = some id
      ∧ holdsCapacity (normalizeRecord now r) now = true := by
  obtain ⟨r, hr, hlatest⟩ := h.latest id hp
  have hshape := hi.logShape id r hr
  have hentry := (advances_normalizeRecord True now r).entry
  have hid : (normalizeRecord now r).id = id := hentry.id.trans hshape.keyed
  have hexpires : Expires w.ledger.log id r.expiresAt := ⟨_, r, List.prefix_refl _, hr, rfl⟩
  have hnormal := hshape.normalize now
  have hfacts := (hi.known id r hr).normalize (hshape.keyed ▸ hexpires) fun _ => hnow
  have hsame : (normalizeRecord now r).providerExpiresAt = r.providerExpiresAt := by
    rcases normalizeRecord_cases now r with heq | ⟨-, heq⟩ | ⟨-, heq⟩ <;> rw [heq]
  have hholds : holdsCapacity (normalizeRecord now r) w.clock = true := by
    refine holdsCapacity_of_potential hi.ledger.legal (hfacts.observed hrel) ?_ hnormal.expiry ?_
      (hid ▸ hp)
    · rw [hid, hentry.expiresAt]
      exact hexpires
    · rw [hid, hentry.expiresAt, hsame]
      exact htimely id r hr
  have hearlier := holdsCapacity_earlier hnow hholds
  have hkept : kept now (normalizeRecord now r) = true := by
    rw [kept, hearlier, Bool.or_true]
  have hget : (normalized (content emptyLedger w.ledger.log) now cutoff).sessions.get? id
      = some (normalizeRecord now r) :=
    get?_normalizeSessions.mpr ⟨r, hr, rfl, hkept⟩
  refine ⟨r, hr, hget, ?_, hearlier⟩
  simp only [normalized, Record.get?_filter, Option.filter_eq_some_iff]
  refine ⟨hlatest, ?_⟩
  rw [show (normalizeSessions (content emptyLedger w.ledger.log).sessions now).get? id = _
    from hget]
  rfl

/-- A record that was not there before was created. -/
structure New (deps : Deps) (log : List (Write Transaction SessionLedger))
    (v : Write Transaction SessionLedger)
    (id : SessionId) (input : ReserveInput) : Prop where
  request : v.change.request = .reserve input
  id : input.id = id
  creates : ∃ cutoff r,
  Creates deps.limits (normalized (content emptyLedger log) v.change.now cutoff)
    { v.value with revision := (content emptyLedger log).revision } input v.change.now r

theorem new_of_stored {named : Prop} {log : List (Write Transaction SessionLedger)}
    (hallowed : Allowed deps named log v) (hr' : stored (log ++ [v]) id = some r')
    (hnone : stored log id = none) : ∃ input, New deps log v id input := by
  obtain ⟨-, outcome, happly⟩ := hallowed
  rw [stored_append] at hr'
  have hold : ∀ cutoff r,
      (normalized (content emptyLedger log) v.change.now cutoff).sessions.get? id ≠ some r := by
    intro cutoff r hget
    obtain ⟨r₀, hr₀, -, -⟩ := get?_normalizeSessions.mp hget
    have hstored : stored log id = some r₀ := hr₀
    rw [hnone] at hstored
    cases hstored
  cases Transaction.effect happly with
  | @created cutoff mid input hcutoff hrequest happlied hcreates hvalue =>
    rw [hvalue, hcreates.next] at hr'
    simp only [Record.get?_set] at hr'
    split at hr'
    · rename_i hid
      refine ⟨input, hrequest, (newRecord_eq_ok hcreates.made).1.symm.trans hid.symm,
        cutoff, outcome.record, ?_⟩
      have hmid : { v.value with revision := (content emptyLedger log).revision } = mid := by
        rw [hvalue, hcreates.next]
        rfl
      rw [hmid]
      exact hcreates
    · exact absurd hr' (hold cutoff r')
  | @replaced cutoff id' r₀ r₀' hcutoff hnot hget₀ hvalue =>
    rw [hvalue] at hr'
    simp only [Record.get?_set] at hr'
    split at hr'
    · rename_i hid
      exact absurd (hid ▸ hget₀) (hold cutoff r₀)
    · exact absurd hr' (hold cutoff r')
  | @kept cutoff hcutoff hnot hvalue =>
    rw [hvalue] at hr'
    exact absurd hr' (hold cutoff r')

/-- A version of a session that was not there before is one that was created. -/
theorem Expires.of_append {e : Instant} {named : Prop}
    {log : List (Write Transaction SessionLedger)}
    (hlegal : Legal (Allowed deps named) log) (hallowed : Allowed deps named log v)
    (h : Expires (log ++ [v]) id e) : Expires log id e ∨ ∃ input, New deps log v id input := by
  obtain ⟨pre, r', hpre, hr', rfl⟩ := h
  rcases List.prefix_concat_iff.mp hpre with rfl | hpre
  · cases hr : stored log id with
    | some r =>
      have hadv := advances_of_legal (.snoc hlegal hallowed) (List.prefix_append log [v]) hr hr'
      exact .inl ⟨log, r, List.prefix_refl _, hr, hadv.entry.expiresAt.symm⟩
    | none => exact .inr (new_of_stored hallowed hr' hr)
  · exact .inl ⟨pre, r', hpre, hr', rfl⟩

/-- A session whose sandbox is or may come alive stays its visitor's latest. -/
theorem Capacity.stays (h : Capacity deps w) (hi : Inv deps rules w) (hrel : Reliable deps rules)
    (htimely : Timely deps w) (hallowed : Allowed deps (Named rules) w.ledger.log v)
    (hnow : v.change.now.ms ≤ w.clock.ms) (hp : Potential deps w id) :
    ∃ r', stored (w.ledger.log ++ [v]) id = some r'
      ∧ v.value.latest.get? (r'.visitorHash, r'.kind) = some id := by
  have hlegal : Legal (Allowed deps (Named rules)) (w.ledger.log ++ [v]) :=
    .snoc hi.ledger.legal hallowed
  obtain ⟨-, outcome, happly⟩ := hallowed
  -- it is enough to know that it is stored and the latest of the key it had
  suffices hmain : ∀ r, stored w.ledger.log id = some r →
      (∃ r', v.value.sessions.get? id = some r') →
        v.value.latest.get? (r.visitorHash, r.kind) = some id →
      ∃ r', stored (w.ledger.log ++ [v]) id = some r'
        ∧ v.value.latest.get? (r'.visitorHash, r'.kind) = some id by
    cases Transaction.effect happly with
    | @created cutoff mid input hcutoff hrequest happlied hcreates hvalue =>
      obtain ⟨r, hr, hget, hlatest, hholds⟩ := h.found hi hrel htimely hnow hp cutoff
      refine hmain r hr ?_ ?_
      · rw [hvalue, hcreates.next]
        simp only [Record.get?_set]
        split
        · exact ⟨_, rfl⟩
        · exact ⟨_, hget⟩
      · rw [hvalue, hcreates.next]
        simp only [Record.get?_set]
        split
        · rename_i hkey
          have hfree := hcreates.free (normalizeRecord v.change.now r) (by
            rw [← hkey, hlatest]
            exact hget)
          rw [hholds] at hfree
          cases hfree
        · exact hlatest
    | @replaced cutoff id' r₀ r₀' hcutoff hnot hget₀ hvalue =>
      obtain ⟨r, hr, hget, hlatest, -⟩ := h.found hi hrel htimely hnow hp cutoff
      refine hmain r hr ?_ (by rw [hvalue]; exact hlatest)
      rw [hvalue]
      simp only [Record.get?_set]
      split
      · exact ⟨_, rfl⟩
      · exact ⟨_, hget⟩
    | @kept cutoff hcutoff hnot hvalue =>
      obtain ⟨r, hr, hget, hlatest, -⟩ := h.found hi hrel htimely hnow hp cutoff
      exact hmain r hr ⟨_, by rw [hvalue]; exact hget⟩ (by rw [hvalue]; exact hlatest)
  rintro r hr ⟨r', hr'⟩ hlatest
  rw [← stored_append w.ledger.log v id] at hr'
  have hentry := (advances_of_legal hlegal (List.prefix_append _ _) hr hr').entry
  exact ⟨r', hr', by rw [hentry.visitorHash, hentry.kind]; exact hlatest⟩

/-- A session that was created is its visitor's latest. -/
theorem New.latest {log : List (Write Transaction SessionLedger)} {input : ReserveInput}
    (h : New deps log v id input) : ∃ r, stored (log ++ [v]) id = some r
      ∧ v.value.latest.get? (r.visitorHash, r.kind) = some id := by
  obtain ⟨cutoff, r, hcreates⟩ := h.creates
  obtain ⟨hid, -, hvisitor, hkind, -⟩ := newRecord_eq_ok hcreates.made
  have hsessions := congrArg SessionLedger.sessions hcreates.next
  have hlatest := congrArg SessionLedger.latest hcreates.next
  simp only at hsessions hlatest
  refine ⟨r, ?_, ?_⟩
  · rw [stored_append, hsessions, hid, h.id]
    simp
  · rw [hlatest, hvisitor, hkind, hid, h.id]
    simp

/-- **One more write of the ledger.** -/
theorem Capacity.append (h : Capacity deps w) (hi : Inv deps rules w) (hrel : Reliable deps rules)
    (htimely : Timely deps w) {ledger : History Transaction SessionLedger}
    (hallowed : Allowed deps (Named rules) w.ledger.log v) (hnow : v.change.now.ms ≤ w.clock.ms)
    (hlog : ledger.log = w.ledger.log ++ [v]) : Capacity deps { w with ledger := ledger } := by
  have hpotential : ∀ id, Potential deps { w with ledger := ledger } id →
      Potential deps w id ∨ ∃ input, New deps w.ledger.log v id input := by
    rintro id ⟨e, he, hcase⟩
    simp only [hlog] at he
    exact (he.of_append hi.ledger.legal hallowed).imp_left fun he => ⟨e, he, hcase⟩
  refine ⟨fun name hne => ?_, fun id hp => ?_, fun ids hids => ?_⟩
  · obtain ⟨id, e, hname, he⟩ := h.named name hne
    exact ⟨id, e, hname, he.later (hlog ▸ List.prefix_append _ _)⟩
  · rw [World.sessionLedger]
    simp only [hlog, content_append]
    rcases hpotential id hp with hold | ⟨input, hnew⟩
    · exact h.stays hi hrel htimely hallowed hnow hold
    · exact hnew.latest
  · by_cases hnew : ∃ id₀ ∈ ids, ∃ input, New deps w.ledger.log v id₀ input
    · -- the others were found when the room for the new one was counted
      obtain ⟨id₀, hid₀, input, hnew⟩ := hnew
      obtain ⟨cutoff, r, hcreates⟩ := hnew.creates
      have hothers : (ids.erase id₀).card
          ≤ activeCount (normalized (content emptyLedger w.ledger.log) v.change.now cutoff)
            v.change.now := by
        refine Record.card_le_count fun id hid => ?_
        obtain ⟨hne, hmem⟩ := Finset.mem_erase.mp hid
        rcases hpotential id (hids id hmem) with hold | ⟨input', hnew'⟩
        · obtain ⟨r, -, hget, -, hholds⟩ := h.found hi hrel htimely hnow hold cutoff
          exact ⟨_, hget, hholds⟩
        · have hsame := hnew'.request
          rw [hnew.request] at hsame
          cases hsame
          exact absurd (hnew'.id.symm.trans hnew.id) hne
      have hroom := hcreates.active
      have hcard := Finset.card_erase_add_one hid₀
      omega
    · refine h.count ids fun id hid => (hpotential id (hids id hid)).resolve_right fun hnew' => ?_
      exact hnew ⟨id, hid, hnew'⟩

/-! ## All interleavings -/

/-- A clock that does not go back, ids whose sandboxes have names of their own, and a provider whose
answers are true at the moment they are given. -/
def truthful (deps : Deps) : Rules
  | .now, w, (t : Instant), _ => w.clock.ms ≤ t.ms
  | .newSessionId, w, (id : SessionId), _ =>
    ∀ id' ∈ w.issued, deps.providerName id' ≠ deps.providerName id
  | .get name, w, (x : Except Failure ProviderView), _ => ∀ view, x = .ok view →
    (view.status.terminal = false → w.sandbox name = .live)
    ∧ (view.status.terminal = true → w.sandbox name ≠ .live)
    ∧ (view.status ≠ .missing → w.sandbox name ≠ .unborn)
  | .create input, w, (x : Except Failure ProviderView), _ => ∀ view, x = .ok view →
    w.sandbox input.name ≠ .unborn ∧ (view.status.terminal = true → w.sandbox input.name ≠ .live)
  | _, _, _, _ => True

/-- Also, every request that is written is regular. -/
def regular (deps : Deps) : Rules := fun c w x w' =>
  truthful deps c w x w' ∧ ∀ p, c = .putLedger p → RegularRequest w p.change.request

/-- A machine of the broker whose sandboxes die in time. -/
def timelyMachine (deps : Deps) (rules : Rules) : Machine World Call Answer Drift :=
  { answers := fun c w x w' => Answers rules c w x w' ∧ Timely deps w'
    drifts := fun d w w' => Drifts d w w' ∧ Timely deps w'
    starts := Starts deps }

theorem regular_reliable (deps : Deps) : Reliable deps (regular deps) where
  steady _ _ _ h := h.1
  drawn _ _ _ h := h.1
  get _ _ view _ h := h.1 view rfl
  create _ _ view _ h := h.1 view rfl
  regular p _ _ _ h := h.2 p rfl

theorem steps_of_timely {s s' : Site World Call Answer}
    (h : (timelyMachine deps rules).Steps s s') :
    (machine rules (Starts deps)).Steps s s' := by
  refine Machine.Steps.mono (M := timelyMachine deps rules) (fun _ _ _ _ hx => ?_)
    (fun _ _ _ hd => ?_) (fun _ hp => hp) h
  · exact hx.1
  · exact hd.1

/-- **One answer.** -/
theorem Capacity.answered {c : Call} {x : Answer c} {T : Set Token} (h : Capacity deps w)
    (hi : Inv deps rules w) (hrel : Reliable deps rules) (htimely : Timely deps w)
    (hmay : May deps rules T c w) (hx : Answers rules c w x w') : Capacity deps w' := by
  obtain ⟨hreplies, hrules⟩ := hx
  have hsame : ∀ {w' : World}, w'.ledger.log = w.ledger.log → w'.clock = w.clock →
      w'.sandbox = w.sandbox → Capacity deps w' := by
    intro w' hlog hclock hsandbox
    exact h.settle hlog (by rw [hclock]) (fun name hl => by rwa [hsandbox] at hl) fun name => by
      rw [hsandbox]
  cases hreplies with
  | now t => exact h.settle rfl (hrel.steady _ _ _ hrules) (fun _ hl => hl) fun _ => Iff.rfl
  | @putLedger _ p _ ledger hputs =>
    have hmay' : MayWrite deps rules T w p := hmay
    cases hputs with
    | saved heq =>
      exact h.append hi hrel htimely (hmay'.basis.allowed heq) (hmay'.past hrel.steady) rfl
    | refused => exact h
    | lost e => exact hsame rfl rfl rfl
  | @stops _ name => exact h.kill name
  | @stopFailsLate _ name e => exact h.kill name
  | newSessionId | putMeter | requestCreate => exact hsame rfl rfl rfl
  | dateNow | readLedger | readLedgerFails | readMeter | readMeterFails | create | launch | get
  | stopFails | fetch | boundedJson => exact h

theorem Capacity.drifted {d : Drift} (h : Capacity deps w) (hi : Inv deps rules w)
    (hrel : Reliable deps rules) (htimely : Timely deps w)
    (hd : Drifts d w w') : Capacity deps w' := by
  cases hd with
  | @ledger _ p ledger hlands =>
    have hallowed := (hlands.log_eq hi.ledger.inflight).2
    cases hlands with
    | late hmem heq =>
      exact h.append hi hrel htimely hallowed ((hi.ledgerPast hrel.steady).2 p hmem) rfl
  | meter hlands => exact h.settle rfl (Int.le_refl _) (fun _ hl => hl) fun _ => Iff.rfl
  | born hrequested hclock hunborn => exact h.alive hi hrel hrequested hclock hunborn
  | died hlive => exact h.kill _

/-- **Any number of moments.** -/
theorem capacity_of_steps {clock : Instant} {s : Site World Call Answer}
    (hrel : Reliable deps rules)
    (h : (timelyMachine deps rules).Steps (launched clock) s) :
    Capacity deps s.world ∧ Timely deps s.world := by
  induction h with
  | refl =>
    refine ⟨⟨by simp [launched, World.empty], ?_, ?_⟩, ?_⟩
    · rintro id ⟨e, ⟨pre, r, hpre, hr, -⟩, -⟩
      rw [List.prefix_nil.mp hpre] at hr
      simp [stored, emptyLedger] at hr
    · intro ids hids
      rcases ids.eq_empty_or_nonempty with rfl | ⟨id, hid⟩
      · simp
      · obtain ⟨e, ⟨pre, r, hpre, hr, -⟩, -⟩ := hids id hid
        rw [List.prefix_nil.mp hpre] at hr
        simp [stored, emptyLedger] at hr
    · intro id r hr
      simp [launched, World.empty, stored, emptyLedger] at hr
  | tail hsteps hstep ih =>
    obtain ⟨hcapacity, htimely⟩ := ih
    obtain ⟨e, hstep⟩ := hstep
    have hsound := ownership_sound (steps_of_timely hsteps)
    cases hstep with
    | start | crash => exact ⟨hcapacity, htimely⟩
    | answer hx =>
      obtain ⟨T, -, hmay⟩ := hsound.awaits (List.mem_append_right _ List.mem_cons_self)
      exact ⟨hcapacity.answered hsound.inv hrel htimely hmay hx.1, hx.2⟩
    | drift hd => exact ⟨hcapacity.drifted hsound.inv hrel htimely hd.1, hd.2⟩

/-- The sandbox may still come alive: it was asked for and its time is not over. -/
def MayComeAlive (w : World) (name : String) : Prop :=
  w.sandbox name = .unborn ∧ ∃ e, w.requested name = some e ∧ w.clock.ms < e.ms

/-- Every sandbox that is or may come alive is one of a session. -/
theorem potential_of_name (hi : Inv deps rules w) (h : Capacity deps w) {name : String}
    (hname : w.sandbox name = .live ∨ MayComeAlive w name) :
    ∃ id, name = deps.providerName id ∧ Potential deps w id := by
  rcases hname with hlive | ⟨hunborn, e, hrequested, hlt⟩
  · obtain ⟨id, e, rfl, he⟩ := h.named name (by rw [hlive]; nofun)
    exact ⟨id, rfl, e, he, .inl hlive⟩
  · obtain ⟨id, rfl, he⟩ := hi.requested name e hrequested
    exact ⟨id, rfl, e, he, .inr ⟨hunborn, hlt⟩⟩

/-- **Capacity.** In every interleaving of broker calls, with a clock that does not go back and a
provider that answers truthfully and whose sandboxes die in time, as long as every request that is
written is regular:

* at most `limits.active` sandboxes are alive, and at most one for a visitor and kind;
* every sandbox that is alive or may still come alive belongs to a stored record that holds
  capacity.
-/
theorem sandboxes_within_capacity {deps : Deps} {clock : Instant} {s : Site World Call Answer}
    (h : (timelyMachine deps (regular deps)).Steps (launched clock) s) :
    (∀ names : Finset String, (∀ name ∈ names, s.world.sandbox name = .live) →
      names.card ≤ deps.limits.active)
    ∧ (∀ id id' r r', s.world.sandbox (deps.providerName id) = .live →
      s.world.sandbox (deps.providerName id') = .live → stored s.world.ledger.log id = some r →
      stored s.world.ledger.log id' = some r' → r.visitorHash = r'.visitorHash →
        r.kind = r'.kind → id = id')
    ∧ ∀ name, s.world.sandbox name = .live ∨ MayComeAlive s.world name →
      ∃ id r, name = deps.providerName id ∧ stored s.world.ledger.log id = some r
        ∧ holdsCapacity r s.world.clock = true := by
  have hrel := regular_reliable deps
  obtain ⟨hcapacity, htimely⟩ := capacity_of_steps hrel h
  have hi := (ownership_sound (steps_of_timely h)).inv
  refine ⟨fun names hnames => ?_, fun id id' r r' hlive hlive' hr hr' hvisitor hkind => ?_,
    fun name hname => ?_⟩
  · -- Every sandbox is counted as the session it is named after.
    have hid : ∀ name ∈ names, ∃ id, name = deps.providerName id ∧ Potential deps s.world id :=
      fun name hname => potential_of_name hi hcapacity (.inl (hnames name hname))
    choose! idOf hidOf using hid
    have hinjective : Set.InjOn idOf names := by
      intro a ha b hb heq
      rw [(hidOf a ha).1, (hidOf b hb).1, heq]
    rw [← Finset.card_image_of_injOn hinjective]
    refine hcapacity.count _ fun id hid => ?_
    obtain ⟨name, hname, rfl⟩ := Finset.mem_image.mp hid
    exact (hidOf name hname).2
  · -- A live sandbox is that of its visitor's latest session of the kind.
    have hlatest : ∀ id r, s.world.sandbox (deps.providerName id) = .live →
        stored s.world.ledger.log id = some r →
        s.world.sessionLedger.latest.get? (r.visitorHash, r.kind) = some id := by
      intro id r hlive hr
      obtain ⟨r₁, hr₁, hkey⟩ :=
        hcapacity.latest id ⟨r.expiresAt, ⟨_, r, List.prefix_refl _, hr, rfl⟩, .inl hlive⟩
      rw [hr] at hr₁
      cases hr₁
      exact hkey
    have hone := hlatest id r hlive hr
    have htwo := hlatest id' r' hlive' hr'
    rw [hvisitor, hkind, htwo] at hone
    cases hone
    rfl
  · obtain ⟨id, rfl, hp⟩ := potential_of_name hi hcapacity hname
    obtain ⟨r, hr, -⟩ := hcapacity.latest id hp
    have hshape := hi.logShape id r hr
    refine ⟨id, r, rfl, hr, ?_⟩
    refine holdsCapacity_of_potential hi.ledger.legal ((hi.known id r hr).observed hrel)
      ⟨_, r, List.prefix_refl _, ?_, rfl⟩ hshape.expiry ?_ ?_
    · rw [hshape.keyed]
      exact hr
    · rw [hshape.keyed]
      exact htimely id r hr
    · rw [hshape.keyed]
      exact hp

/-! ## A creation that is under way when its session is reset -/

/-- `Timely`, checked. -/
def timely (deps : Deps) (w : World) : Bool :=
  w.sessionLedger.sessions.entries.all fun e => w.sandbox (deps.providerName e.1) ≠ .live
    || decide (w.clock.ms < e.2.expiresAt.ms) || e.2.providerExpiresAt.any fun t =>
      w.clock.ms < t.ms

theorem timely_of_check (h : timely deps w = true) : Timely deps w := by
  intro id r hr hlive
  have hmem := List.all_eq_true.mp h (id, r) (Record.mem_of_get? hr)
  simp only [hlive, ne_eq, not_true_eq_false, decide_false, Bool.false_or,
    Bool.or_eq_true, decide_eq_true_eq, Option.any_eq_true] at hmem
  exact hmem

/-- `truthful`, checked. -/
def truthfulLegal (deps : Deps) : (c : Call) → World → Answer c → World → Bool
  | .now, w, (t : Instant), _ => w.clock.ms ≤ t.ms
  | .newSessionId, w, (id : SessionId), _ =>
    w.issued.all fun id' => deps.providerName id' ≠ deps.providerName id
  | .get name, w, (x : Except Failure ProviderView), _ => match x with
    | .ok view => (view.status.terminal || w.sandbox name = .live)
      && (!view.status.terminal || w.sandbox name ≠ .live)
      && (view.status = .missing || w.sandbox name ≠ .unborn)
    | .error _ => true
  | .create input, w, (x : Except Failure ProviderView), _ => match x with
    | .ok view =>
      w.sandbox input.name ≠ .unborn && (!view.status.terminal || w.sandbox input.name ≠ .live)
    | .error _ => true
  | _, _, _, _ => true

theorem truthful_of_legal (deps : Deps) (c : Call) (w : World) (x : Answer c) (w' : World)
    (h : truthfulLegal deps c w x w' = true) : truthful deps c w x w' := by
  cases c
  case now => exact (decide_eq_true_iff (p := w.clock.ms ≤ Instant.ms x)).mp h
  case newSessionId =>
    intro id' hid'
    exact of_decide_eq_true (List.all_eq_true.mp h id' hid')
  case get name =>
    rintro view rfl
    simp only [truthfulLegal, Bool.and_eq_true, Bool.or_eq_true, decide_eq_true_eq,
      Bool.not_eq_true'] at h
    obtain ⟨⟨h₁, h₂⟩, h₃⟩ := h
    refine ⟨fun hf => h₁.resolve_left (by simp [hf]), fun ht => h₂.resolve_left (by simp [ht]),
      h₃.resolve_left⟩
  case create input =>
    rintro view rfl
    simp only [truthfulLegal, Bool.and_eq_true, Bool.or_eq_true, decide_eq_true_eq,
      Bool.not_eq_true'] at h
    exact ⟨h.1, fun ht => h.2.resolve_left (by simp [ht])⟩
  all_goals trivial

/-- `RegularRequest`, checked. -/
def regularRequest (w : World) : Request → Bool
  | .update _ (.resetting current) =>
    current.providerStatus ≠ none || decide (current.expiresAt.ms ≤ w.clock.ms)
  | .update _ (.gone view) => view.status.terminal
  | _ => true

theorem regularRequest_of_check {request : Request} (h : regularRequest w request = true) :
    RegularRequest w request := by
  cases request with
  | update id m =>
    cases m with
    | resetting current => simpa [regularRequest, RegularRequest] using h
    | gone view => exact h
    | _ => trivial
  | _ => trivial

/-- `regular`, checked. -/
def regularLegal (deps : Deps) (c : Call) (w : World) (x : Answer c) (w' : World) : Bool :=
  truthfulLegal deps c w x w' && match c with
    | .putLedger p => regularRequest w p.change.request
    | _ => true

theorem regular_of_legal (deps : Deps) (c : Call) (w : World) (x : Answer c) (w' : World)
    (h : regularLegal deps c w x w' = true) : regular deps c w x w' := by
  obtain ⟨htrue, hregular⟩ := Bool.and_eq_true_iff.mp h
  refine ⟨truthful_of_legal deps c w x w' htrue, ?_⟩
  rintro p rfl
  exact regularRequest_of_check hregular

/-- Plays schedules of a timely machine. -/
def timelyPlayer (deps : Deps) (rules : Rules)
    (legal : (c : Call) → World → Answer c → World → Bool)
    (hlegal : ∀ c w x w', legal c w x w' = true → rules c w x w') :
    Player (timelyMachine deps rules) Hint where
  answer c hint w := (w.answer c hint).filter fun r => legal c w r.1 r.2 && timely deps r.2
  drift d w := (w.drift d).filter (timely deps)
  answers h := by
    obtain ⟨hanswer, hok⟩ := Option.filter_eq_some_iff.mp h
    obtain ⟨hok, htimely⟩ := Bool.and_eq_true_iff.mp hok
    exact ⟨⟨World.replies_of_answer hanswer, hlegal _ _ _ _ hok⟩, timely_of_check htimely⟩
  drifts h := by
    obtain ⟨hdrift, htimely⟩ := Option.filter_eq_some_iff.mp h
    exact ⟨World.drifts_of_drift hdrift, timely_of_check htimely⟩

/-- 2026-09-18T12:00:00.000Z. -/
def opening : Instant := ⟨1_789_732_800_000, Instant.noon_valid⟩

/-- 100 seconds later: a session that is not ready by then has failed. -/
def afterDeadline : Instant := ⟨1_789_732_900_000, by decide⟩

/-- Room for one sandbox. -/
def oneSandbox : Deps :=
  { limits := { defaultLimits with active := 1 }, providerName := SessionId.text
    gatewayToken := SessionId.text, validRoute := fun _ _ => true }

/-- A visitor. -/
def oneVisitor : Digest := List.Vector.replicate 32 7

/-- One attempt of a transaction at some time. -/
def attemptAt {M : Machine World Call Answer Drift} (index : Nat)
    (now : Instant) : List (Entry M Hint) :=
  [.reply index .store, .reply index (.now now), .reply index .store]

/-- Session 1 is reserved and its sandbox asked for. -/
def reserveOne (rules : Rules) : List (Entry (timelyMachine oneSandbox rules) Hint) :=
  [.start _ (Starts.start 0 oneVisitor oneVisitor .wallet none), .reply 0 .store,
    .reply 0 (.issue 1)]
  ++ attemptAt 0 opening ++ [.reply 0 .accept]

/-- While the creation is under way, session 1 is reset, and session 2 reserved and asked for. -/
def resetOne (rules : Rules) : List (Entry (timelyMachine oneSandbox rules) Hint) :=
  [.start _ (Starts.reset 0 oneVisitor oneVisitor .wallet (some 1)), .reply 1 .store,
    .reply 1 (.now afterDeadline), .reply 1 (.now afterDeadline)] ++ attemptAt 1 afterDeadline
  ++ [.reply 1 (.settle (.ok ()))] ++ attemptAt 1 afterDeadline
  ++ [.reply 1 .store, .reply 1 (.now afterDeadline),
    .reply 1 (.issue 2)] ++ attemptAt 1 afterDeadline
  ++ [.reply 1 .accept]

/-- One session: its sandbox comes alive while `create` is unanswered, and its record holds
capacity. -/
theorem sandboxes_within_capacity_sample : ∃ s,
    (timelyMachine oneSandbox (regular oneSandbox)).Steps (launched opening) s
    ∧ s.world.sandbox (SessionId.text 1) = .live
    ∧ (∀ names : Finset String, (∀ name ∈ names, s.world.sandbox name = .live) → names.card ≤ 1)
    ∧ ∃ id r, SessionId.text 1 = SessionId.text id ∧ stored s.world.ledger.log id = some r
      ∧ holdsCapacity r s.world.clock = true := by
  have hplay : ((timelyPlayer oneSandbox (regular oneSandbox) (regularLegal oneSandbox)
      (regular_of_legal oneSandbox)).play (launched opening)
      (reserveOne (regular oneSandbox) ++ [.drift (.born (SessionId.text 1))])).any (fun s =>
        s.world.sandbox (SessionId.text 1) = .live) = true := by
    decide +kernel
  obtain ⟨s, hs, hlive⟩ := (Option.any_eq_true _ _).mp hplay
  have hlive := of_decide_eq_true hlive
  have hsteps := Player.steps_of_play hs
  obtain ⟨hcount, -, hholds⟩ := sandboxes_within_capacity hsteps
  exact ⟨s, hsteps, hlive, hcount, hholds _ (.inl hlive)⟩

/-- With room for one sandbox, two are alive: the creation of the first was still under way when its
session, failed by then and without a provider status, was reset. -/
theorem reset_exceeds_capacity : ∃ deps clock s,
    (timelyMachine deps (truthful deps)).Steps (launched clock) s
    ∧ ∃ names : Finset String, (∀ name ∈ names, s.world.sandbox name = .live)
      ∧ deps.limits.active < names.card := by
  have hplay : ((timelyPlayer oneSandbox (truthful oneSandbox) (truthfulLegal oneSandbox)
      (truthful_of_legal oneSandbox)).play (launched opening)
      (reserveOne (truthful oneSandbox) ++ resetOne (truthful oneSandbox)
        ++ [.drift (.born (SessionId.text 1)), .drift (.born (SessionId.text 2))])).any (fun s =>
          s.world.sandbox (SessionId.text 1) = .live && s.world.sandbox
            (SessionId.text 2) = .live) = true := by
    decide +kernel
  obtain ⟨s, hs, hlive⟩ := (Option.any_eq_true _ _).mp hplay
  simp only [Bool.and_eq_true, decide_eq_true_eq] at hlive
  refine ⟨oneSandbox, opening, s, Player.steps_of_play hs,
    {SessionId.text 1, SessionId.text 2}, ?_, ?_⟩
  · intro name hname
    rcases Finset.mem_insert.mp hname with rfl | hname
    · exact hlive.1
    · rw [Finset.mem_singleton.mp hname]
      exact hlive.2
  · decide +kernel

end Broker

end DividendX
