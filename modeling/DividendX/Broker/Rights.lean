import DividendX.Broker.Evidence

/-!
# The discipline of the broker

Which calls a broker may make and what each call leaves, as an `Ownership` of the rights to session
ids. Drawing an id hands out both rights to it; a write that uses a right gives it away unless it
was refused.
-/

namespace DividendX

namespace Broker

open Devnet (Instant Digest)
open History Async

variable {deps : Deps} {rules : Rules} {w w' : World} {T T' : Set Token}

/-- A request of a client is passed on to the recorded domain of a session that was ready, whose
meter was created for its runtime. -/
structure MayForward (deps : Deps) (rules : Rules) (w : World)
    (request : ProviderRequest) : Prop where
  known : Known deps rules w request.record
  ready : request.record.status = .ready
  domain : request.record.providerDomain = some request.domain
  runtime : ∃ runtimeId, request.record.runtimeId = some runtimeId
    ∧ MeterBound w request.record runtimeId

/-- What must hold when a call is made. -/
def May (deps : Deps) (rules : Rules) (T : Set Token) : Call → World → Prop
  | .putLedger p, w => MayWrite deps rules T w p
  | .putMeter id p, w => MayMeter deps rules w id p
  | .requestCreate input, w =>
    ∃ id, input.name = deps.providerName id ∧ Expires w.ledger.log id input.expiresAt
  | .fetch request, w => request.forwarded = true → MayForward deps rules w request
  | _, _ => True

/-- The rights that are left after an answer. -/
def rightsAfter (T : Set Token) : (c : Call) → Answer c → Set Token
  | .newSessionId, (id : SessionId) => T ∪ {t | t.2 = id}
  | .putLedger p, (x : Except Failure Bool) =>
    {t ∈ T | x = .ok false ∨ p.change.request.token ≠ some t}
  | _, _ => T

/-- Rights to ids that were drawn. -/
def issuedRights (w : World) : Set Token := {t | t.2 ∈ w.issued}

/-- Calls that only read, or whose answer changes nothing that is kept here. -/
theorem Inv.answered {c : Call} {x : Answer c} (hi : Inv deps rules w) (hT : T ⊆ issuedRights w)
    (hmay : May deps rules T c w) (h : Answers rules c w x w') :
    Inv deps rules w' ∧ Moves deps rules w w' ∧ w.issued ⊆ w'.issued := by
  obtain ⟨hreplies, hrules⟩ := h
  cases hreplies with
  | now t =>
    have hmoves : Moves deps rules w { w with clock := t } := .clock_to fun hs => hs _ _ _ hrules
    exact ⟨hi.moves hmoves rfl rfl (List.Subset.refl _) hi.distinct hi.requested,
      hmoves, List.Subset.refl _⟩
  | @newSessionId _ id hfresh =>
    have hmoves : Moves deps rules w { w with issued := id :: w.issued } :=
      ⟨List.prefix_refl _, fun _ => List.prefix_refl _, fun _ => Int.le_refl _, fun _ hb => hb,
        fun _ _ ho => ho⟩
    have hsub : w.issued ⊆ id :: w.issued := List.subset_cons_self _ _
    refine ⟨hi.moves hmoves rfl rfl hsub (fun hr id₁ h₁ id₂ h₂ heq => ?_) hi.requested,
      hmoves, hsub⟩
    -- The name of an id that is drawn is that of no id drawn before.
    have hnew := hr.drawn _ _ _ hrules
    rcases List.mem_cons.mp h₁ with rfl | hold₁
    · rcases List.mem_cons.mp h₂ with rfl | hold₂
      · rfl
      · exact absurd heq.symm (hnew id₂ hold₂)
    · rcases List.mem_cons.mp h₂ with rfl | hold₂
      · exact absurd heq (hnew id₁ hold₁)
      · exact hi.distinct hr id₁ hold₁ id₂ hold₂ heq
  | @putLedger _ p _ ledger hputs =>
    have hmay' : MayWrite deps rules T w p := hmay
    exact ⟨hi.puts hT hmay' (fun hr => hr.regular _ _ _ _ hrules) hputs,
      .ledger (hi.ledger.puts hmay'.basis hputs).2, List.Subset.refl _⟩
  | @putMeter _ id p _ meter hputs =>
    have hmay' : MayMeter deps rules w id p := hmay
    exact ⟨hi.putsMeter hmay' hputs, .meter ((hi.meters id).puts hmay'.basis hputs).2,
      List.Subset.refl _⟩
  | @requestCreate _ input =>
    have hmoves : Moves deps rules w
        { w with requested := Function.update w.requested input.name (some input.expiresAt) } :=
      ⟨List.prefix_refl _, fun _ => List.prefix_refl _, fun _ => Int.le_refl _, fun _ hb => hb,
        fun _ _ ho => ho⟩
    refine ⟨hi.moves hmoves rfl rfl (List.Subset.refl _) hi.distinct fun name e he => ?_,
      hmoves, List.Subset.refl _⟩
    by_cases hname : name = input.name
    · subst hname
      simp only [Function.update_self, Option.some.injEq] at he
      subst he
      exact hmay
    · simp only [Function.update_of_ne hname] at he
      exact hi.requested name e he
  | @stops _ name =>
    have hmoves := Moves.kill deps rules w name
    exact ⟨hi.moves hmoves rfl rfl (List.Subset.refl _) hi.distinct hi.requested,
      hmoves, List.Subset.refl _⟩
  | @stopFailsLate _ name e =>
    have hmoves := Moves.kill deps rules w name
    exact ⟨hi.moves hmoves rfl rfl (List.Subset.refl _) hi.distinct hi.requested,
      hmoves, List.Subset.refl _⟩
  | dateNow | readLedger | readLedgerFails | readMeter | readMeterFails | create | launch | get
  | stopFails | fetch | boundedJson => exact ⟨hi, .refl w, List.Subset.refl _⟩

theorem Inv.drifted {d : Drift} (hi : Inv deps rules w) (h : Drifts d w w') :
    Inv deps rules w' ∧ Moves deps rules w w' ∧ w.issued ⊆ w'.issued
      ∧ ∀ t, Pending w' t → Pending w t := by
  cases h with
  | ledger hlands =>
    exact ⟨hi.lands hlands, .ledger (hi.ledger.lands hlands).2, List.Subset.refl _,
      fun t => pending_of_lands hlands⟩
  | @meter _ id p meter hlands =>
    exact ⟨hi.landsMeter hlands, .meter ((hi.meters id).lands hlands).2,
      List.Subset.refl _, fun _ ht => ht⟩
  | born hrequested hclock hunborn =>
    have hmoves := Moves.alive hi hrequested hclock hunborn
    exact ⟨hi.moves hmoves rfl rfl (List.Subset.refl _) hi.distinct hi.requested,
      hmoves, List.Subset.refl _, fun _ ht => ht⟩
  | @died _ name hlive =>
    have hmoves := Moves.kill deps rules w name
    exact ⟨hi.moves hmoves rfl rfl (List.Subset.refl _) hi.distinct hi.requested,
      hmoves, List.Subset.refl _, fun _ ht => ht⟩

/-- The rights in use after a call: those before, and the one its write uses. -/
theorem pending_of_answers {c : Call} {x : Answer c} (h : Answers rules c w x w') {t : Token}
    (ht : Pending w' t) : Pending w t ∨
      ∃ p, ∃ hc : c = .putLedger p, (hc ▸ x : Answer (.putLedger p)) ≠ .ok false
        ∧ p.change.request.token = some t := by
  obtain ⟨hreplies, -⟩ := h
  cases hreplies with
  | @putLedger _ p _ ledger hputs =>
    rcases pending_of_puts hputs ht with hold | ⟨hne, htoken⟩
    · exact .inl hold
    · exact .inr ⟨p, rfl, hne, htoken⟩
  | now | newSessionId | putMeter | requestCreate | stops | stopFailsLate | dateNow | readLedger
  | readLedgerFails | readMeter | readMeterFails | create | launch | get | stopFails | fetch
  | boundedJson =>
    exact .inl ht

/-- The discipline of the broker. -/
def ownership (deps : Deps) (rules : Rules) : Ownership (machine rules (Starts deps)) Token where
  inv := Inv deps rules
  issued := issuedRights
  rely := Relies deps rules
  may := May deps rules
  after := rightsAfter
  refl _ w := ⟨.refl w, fun _ _ h => h⟩
  trans h h' := ⟨h.moves.trans h'.moves, fun t ht hn => h'.unused t ht (h.unused t ht hn)⟩
  anti hsub h := ⟨h.moves, fun t ht => h.unused t (hsub ht)⟩
  answered := by
    intro T c w x w' hi hT hmay hx
    obtain ⟨hi', -, hissued⟩ := hi.answered hT hmay hx
    refine ⟨hi', fun t ht => hissued ht, fun t ht => ?_⟩
    cases c
    case newSessionId =>
      obtain ⟨hreplies, -⟩ := hx
      cases hreplies with
      | newSessionId hfresh =>
        rcases ht with ht | ht
        · exact hissued (hT ht)
        · exact List.mem_cons.mpr (.inl ht)
    case putLedger => exact hissued (hT ht.1)
    all_goals exact hissued (hT ht)
  fresh := by
    intro T c w x w' _ hx t ht
    cases c
    case newSessionId =>
      obtain ⟨hreplies, -⟩ := hx
      cases hreplies with
      | newSessionId hfresh =>
        refine ht.imp_right fun heq hissued => hfresh ?_
        have hid : t.2 = _ := heq
        exact hid ▸ hissued
    case putLedger => exact .inl ht.1
    all_goals exact .inl ht
  guarantee := by
    intro T T' c w x w' hi hT hmay hx _ hcase
    refine ⟨(hi.answered hT hmay hx).2.1, fun t ht hnot hpending => ?_⟩
    rcases pending_of_answers hx hpending with hold | ⟨p, rfl, hne, htoken⟩
    · exact hnot hold
    · rcases hcase with hdisjoint | hkept
      · exact Set.disjoint_left.mp hdisjoint (MayWrite.owned hmay t htoken) ht
      · exact (hkept ht).2.elim hne fun hother => hother htoken
  drifted := by
    intro d w w' hi hd
    obtain ⟨hi', hmoves, hissued, hpending⟩ := hi.drifted hd
    exact ⟨hi', fun t ht => hissued ht, fun T _ => ⟨hmoves, fun t _ hn hp => hn (hpending t hp)⟩⟩

end Broker

end DividendX
