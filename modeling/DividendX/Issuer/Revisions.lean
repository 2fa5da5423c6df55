import DividendX.Lib.Grouping
import DividendX.Lib.Json
import DividendX.Lib.Result

/-!
# Revisions of issuer events

An issuer's history lists revisions of events; one revision may be listed more than once. The reader
(`xstocks.ts`) and the qualification review (`qualification.ts`) each reduce such a list: they keep
the first record of every event and version, and of these the greatest version of every event.
Records of one event and version that say different things are a conflict; the reader throws on the
first one, the review collects the events.

The two agree, and but for which of several equal records is kept nothing depends on the order of
the list or on how often a record is listed (`reduceRevisions_rearranged`).
-/

namespace DividendX

namespace Issuer

open Result

/-- A text of the source. -/
abbrev Text := List Char

/-- `XstocksEventRevision`. The three fields with a single value (`officialExDate`,
`settlementClassification`, `sourceFinalityAttested`) are written by `semanticRevision`. -/
structure XstocksEventRevision where
  eventId : String
  sourceVersion : Int
  symbol : String
  xstockIsin : String
  spvSymbol : String
  spvIsin : String
  action : String
  status : String
  multiplierOld : String
  multiplierNew : String
  createdTime : String
  effectiveTime : String
  grossCashflowUsd : Option String
  netCashflowUsd : Option String
  withholdingTaxRate : Option String
  fromUnits : Option String
  toUnits : Option String
  redemptionPriceUsd : Option String
  notes : Option String
  sourceDigest : String
  deriving DecidableEq

namespace XstocksEventRevision

/-- A version as a template literal and `JSON.stringify` write it. -/
def versionText (version : Int) : Text :=
  if version < 0 then '-' :: Json.number version.natAbs else Json.number version.natAbs

/-- The event, a zero character and the version. -/
def key (record : XstocksEventRevision) : Text :=
  record.eventId.toList ++ '\x00' :: versionText record.sourceVersion

/-- The event and the version. -/
def pair (record : XstocksEventRevision) : String × Int := (record.eventId, record.sourceVersion)

/-- A string, quoted. -/
def quoted (s : String) : Text := Json.quote s.toList

/-- `semanticRevision`: `stableJson` of all but the digest, the members in alphabetical order. -/
def semanticRevision (record : XstocksEventRevision) : Text :=
  Json.struct
    [("action", quoted record.action), ("createdTime", quoted record.createdTime),
      ("effectiveTime", quoted record.effectiveTime), ("eventId", quoted record.eventId),
      ("fromUnits", Json.nullable quoted record.fromUnits),
      ("grossCashflowUsd", Json.nullable quoted record.grossCashflowUsd),
      ("multiplierNew", quoted record.multiplierNew),
        ("multiplierOld", quoted record.multiplierOld),
      ("netCashflowUsd", Json.nullable quoted record.netCashflowUsd),
      ("notes", Json.nullable quoted record.notes), ("officialExDate", "null".toList),
      ("redemptionPriceUsd", Json.nullable quoted record.redemptionPriceUsd),
      ("settlementClassification", "null".toList), ("sourceFinalityAttested", "false".toList),
      ("sourceVersion", versionText record.sourceVersion), ("spvIsin", quoted record.spvIsin),
      ("spvSymbol", quoted record.spvSymbol), ("status", quoted record.status),
      ("symbol", quoted record.symbol), ("toUnits", Json.nullable quoted record.toUnits),
      ("withholdingTaxRate", Json.nullable quoted record.withholdingTaxRate),
      ("xstockIsin", quoted record.xstockIsin)]

end XstocksEventRevision

open XstocksEventRevision

/-! ## The two reducers -/

/-- The last loop of both: the greatest version of every event. -/
def latestHeads (records : List XstocksEventRevision) : Record String XstocksEventRevision :=
  records.foldl (fun heads record =>
    match heads.get? record.eventId with
    | none => heads.set record.eventId record
    | some current =>
      if record.sourceVersion > current.sourceVersion then heads.set record.eventId record
      else heads) ∅

/-- What `reduceXstocksRevisions` returns. -/
structure ReducedRevisions where
  records : List XstocksEventRevision
  latestObservedHeads : List XstocksEventRevision
  deriving DecidableEq

/-- One turn of the first loop of `reduceXstocksRevisions`. -/
def keepUnique (unique : Record Text XstocksEventRevision) (record : XstocksEventRevision) :
    Except String (Record Text XstocksEventRevision) := do
  match unique.get? record.key with
  | some existing =>
    require (semanticRevision existing = semanticRevision record)
      "xstocks_conflicting_event_revision"
    return unique
  | none => return unique.set record.key record

/-- `reduceXstocksRevisions`. -/
def reduceXstocksRevisions (input : List XstocksEventRevision) :
    Except String ReducedRevisions := do
  let unique ← input.foldlM keepUnique ∅
  let records := unique.values
  return { records := records, latestObservedHeads := (latestHeads records).values }

/-- What `reduceRevisions` returns; the conflicts are a set in the order of insertion. -/
structure RevisionReview where
  revisions : List XstocksEventRevision
  heads : Record String XstocksEventRevision
  conflicts : List String

/-- `Set.add`. -/
def addConflict (conflicts : List String) (eventId : String) : List String :=
  if eventId ∈ conflicts then conflicts else conflicts ++ [eventId]

/-- One turn of the first loop of `reduceRevisions`. -/
def reviewRevision (st : Record Text XstocksEventRevision × List String)
    (record : XstocksEventRevision) :
    Record Text XstocksEventRevision × List String :=
  match st.1.get? record.key with
  | some prior =>
    (st.1,
      if semanticRevision prior ≠ semanticRevision record then addConflict st.2 record.eventId
      else st.2)
  | none => (st.1.set record.key record, st.2)

/-- `reduceRevisions`. -/
def reduceRevisions (records : List XstocksEventRevision) : RevisionReview :=
  let st := records.foldl reviewRevision (∅, [])
  let revisions := st.1.values
  { revisions := revisions, heads := latestHeads revisions, conflicts := st.2 }

/-! ## Keys -/

variable {l l' : List XstocksEventRevision} {a b : XstocksEventRevision} {e : String}

/-- The separator of a key is in no version. -/
theorem zero_notMem_versionText (v : Int) : '\x00' ∉ versionText v := by
  have hdigits : '\x00' ∉ Json.number v.natAbs := fun h => by
    have := Json.isDigit_of_mem_number h
    revert this
    decide
  rw [versionText]
  split
  · simp [hdigits]
  · exact hdigits

/-- Different versions are written differently. -/
theorem versionText_injective {v w : Int} (h : versionText v = versionText w) : v = w := by
  have hminus : ∀ n, '-' ∉ Json.number n := fun n hmem => by
    have := Json.isDigit_of_mem_number hmem
    revert this
    decide
  simp only [versionText] at h
  split at h <;> split at h
  · have := Json.number_injective (List.cons.inj h).2
    omega
  · exact absurd (h ▸ List.mem_cons_self) (hminus _)
  · exact absurd (h.symm ▸ List.mem_cons_self) (hminus _)
  · have := Json.number_injective h
    omega

/-- **Keys are pairs**, whatever characters an event id has. -/
theorem key_eq_iff : a.key = b.key ↔ a.pair = b.pair := by
  constructor
  · intro h
    obtain ⟨hid, hversion⟩ :=
      Json.append_separator_inj (zero_notMem_versionText _) (zero_notMem_versionText _) h
    exact Prod.ext (String.toList_inj.mp hid) (versionText_injective hversion)
  · intro h
    rw [key, key, show a.eventId = b.eventId from congrArg Prod.fst h,
      show a.sourceVersion = b.sourceVersion from congrArg Prod.snd h]

/-! ## The loops -/

/-- The heads are the greatest of each event. -/
theorem latestHeads_eq (records : List XstocksEventRevision) :
    latestHeads records = Record.tops eventId sourceVersion records := by
  rw [latestHeads, Record.tops]
  congr 1
  funext heads record
  rw [Record.raise]
  cases heads.get? record.eventId with
  | none => rfl
  | some current => simp only [gt_iff_lt]

/-- The first of each key is kept. -/
theorem reviewRevision_fst (st : Record Text XstocksEventRevision × List String)
    (a : XstocksEventRevision) :
    (reviewRevision st a).1 = Record.keep key st.1 a := by
  cases h : st.1.get? a.key <;> simp only [reviewRevision, Record.keep, h]

/-- All along the list. -/
theorem foldl_reviewRevision_fst (l : List XstocksEventRevision)
    (st : Record Text XstocksEventRevision × List String) :
    (l.foldl reviewRevision st).1 = l.foldl (Record.keep key) st.1 := by
  induction l generalizing st with
  | nil => rfl
  | cons a l ih => rw [List.foldl_cons, List.foldl_cons, ih, reviewRevision_fst]

/-- The revisions are the first of each key. -/
theorem revisions_eq (l : List XstocksEventRevision) :
    (reduceRevisions l).revisions = (Record.firsts key l).values := by
  rw [reduceRevisions, foldl_reviewRevision_fst]
  rfl

/-- Two records of one event and version that say different things. -/
def Conflicting (l : List XstocksEventRevision) (eventId : String) : Prop :=
  ∃ a ∈ l, ∃ b ∈ l, a.eventId = eventId ∧ a.pair = b.pair ∧ semanticRevision a ≠ semanticRevision b

/-- The prior record of the last one, where they say different things. -/
def ConflictsWithPrior (l : List XstocksEventRevision) (a : XstocksEventRevision) : Prop :=
  ∃ prior, (Record.firsts key l).get? a.key = some prior ∧
    semanticRevision prior ≠ semanticRevision a

/-- A conflict is noted once. -/
theorem mem_addConflict {c : List String} {e e' : String} : e ∈ addConflict c e' ↔
    e ∈ c ∨ e = e' := by
  rw [addConflict]
  split
  · rename_i hmem
    constructor
    · exact .inl
    · rintro (h | rfl)
      · exact h
      · exact hmem
  · rw [List.mem_append, List.mem_singleton]

/-- One record more: a conflict is new only if it is with the prior record of the last one. -/
theorem conflicting_snoc : Conflicting (l ++ [a]) e ↔
    Conflicting l e ∨ (ConflictsWithPrior l a ∧ e = a.eventId) := by
  have hlast : a ∈ l ++ [a] := List.mem_append_right l (List.mem_singleton_self a)
  have hearlier : ∀ {c}, c ∈ l → c ∈ l ++ [a] := fun h => List.mem_append_left [a] h
  have hpair : ∀ {c d : XstocksEventRevision}, c.pair = d.pair → c.eventId = d.eventId :=
    congrArg Prod.fst
  -- a record of `l` against the last one
  have hnew : ∀ b ∈ l, b.pair = a.pair → semanticRevision b ≠ semanticRevision a →
      Conflicting l a.eventId ∨ ConflictsWithPrior l a := by
    intro b hb hsame hne
    obtain ⟨prior, hprior⟩ := Record.exists_get?_firsts key hb
    obtain ⟨hmem, hkey⟩ := Record.key_of_get?_firsts key hprior
    rw [key_eq_iff.mpr hsame] at hprior
    by_cases hsay : semanticRevision prior = semanticRevision a
    · refine .inl ⟨prior, hmem, b, hb, ?_, key_eq_iff.mp hkey, ?_⟩
      · exact (hpair (key_eq_iff.mp hkey)).trans (hpair hsame)
      · rw [hsay]
        exact hne.symm
    · exact .inr ⟨prior, hprior, hsay⟩
  constructor
  · rintro ⟨c, hc, d, hd, rfl, hsame, hne⟩
    rcases List.mem_append.mp hc with hcl | hca <;> rcases List.mem_append.mp hd with hdl | hda
    · exact .inl ⟨c, hcl, d, hdl, rfl, hsame, hne⟩
    · obtain rfl := List.mem_singleton.mp hda
      rw [hpair hsame]
      exact (hnew c hcl hsame hne).imp_right fun h => ⟨h, rfl⟩
    · obtain rfl := List.mem_singleton.mp hca
      exact (hnew d hdl hsame.symm hne.symm).imp_right fun h => ⟨h, rfl⟩
    · obtain rfl := List.mem_singleton.mp hca
      obtain rfl := List.mem_singleton.mp hda
      exact absurd rfl hne
  · rintro (⟨c, hc, d, hd, hrest⟩ | ⟨⟨prior, hprior, hne⟩, rfl⟩)
    · exact ⟨c, hearlier hc, d, hearlier hd, hrest⟩
    · obtain ⟨hmem, hkey⟩ := Record.key_of_get?_firsts key hprior
      have hsame := key_eq_iff.mp hkey
      exact ⟨prior, hearlier hmem, a, hlast, hpair hsame, hsame, hne⟩

/-- The loop, by its two results. -/
theorem foldl_reviewRevision (l : List XstocksEventRevision) :
    l.foldl reviewRevision (∅, []) = (Record.firsts key l, (reduceRevisions l).conflicts) :=
  Prod.ext (foldl_reviewRevision_fst l (∅, [])) rfl

/-- One more record conflicts with those before it, or does not. -/
theorem conflicts_snoc (l : List XstocksEventRevision) (a : XstocksEventRevision) :
    (ConflictsWithPrior l a ∧ (reduceRevisions (l ++ [a])).conflicts
      = addConflict (reduceRevisions l).conflicts a.eventId) ∨
    (¬ ConflictsWithPrior l a ∧ (reduceRevisions (l ++ [a])).conflicts =
      (reduceRevisions l).conflicts) := by
  have hlast : (reduceRevisions (l ++ [a])).conflicts
      = (reviewRevision (Record.firsts key l, (reduceRevisions l).conflicts) a).2 := by
    rw [← foldl_reviewRevision, reduceRevisions, List.foldl_append]
    rfl
  rw [hlast]
  cases h : (Record.firsts key l).get? a.key with
  | none =>
    refine .inr ⟨?_, by simp only [reviewRevision, h]⟩
    rintro ⟨prior, hprior, -⟩
    cases h.symm.trans hprior
  | some prior =>
    by_cases hsay : semanticRevision prior = semanticRevision a
    · refine .inr ⟨?_, by simp only [reviewRevision, h, hsay, ne_eq, not_true_eq_false, if_false]⟩
      rintro ⟨prior', hprior', hne⟩
      cases h.symm.trans hprior'
      exact hne hsay
    · refine .inl ⟨⟨prior, h, hsay⟩, ?_⟩
      simp only [reviewRevision, h, ne_eq, hsay, not_false_eq_true, if_true]

/-- **Conflicts** are about the list as a whole. -/
theorem mem_conflicts_iff : e ∈ (reduceRevisions l).conflicts ↔ Conflicting l e := by
  induction l using List.reverseRecOn with
  | nil => exact iff_of_false nofun (by rintro ⟨a, ha, -⟩; cases ha)
  | append_singleton l a ih =>
    rw [conflicting_snoc, ← ih]
    rcases conflicts_snoc l a with ⟨hprior, hc⟩ | ⟨hprior, hc⟩
    · rw [hc, mem_addConflict, and_iff_right hprior]
    · rw [hc, or_iff_left fun h => hprior h.1]

/-- The reader throws exactly where the review notes a conflict. -/
theorem foldlM_keepUnique (l : List XstocksEventRevision) :
    l.foldlM keepUnique ∅ = if (reduceRevisions l).conflicts = [] then .ok (Record.firsts key l)
      else .error "xstocks_conflicting_event_revision" := by
  induction l using List.reverseRecOn with
  | nil => rfl
  | append_singleton l a ih =>
    rw [List.foldlM_append, ih]
    have hfirsts : Record.firsts key (l ++ [a]) = Record.keep key (Record.firsts key l) a := by
      rw [Record.firsts, List.foldl_append]
      rfl
    rcases conflicts_snoc l a with ⟨⟨prior, hprior, hsay⟩, hc⟩ | ⟨hnone, hc⟩
    · have hne : addConflict (reduceRevisions l).conflicts a.eventId ≠ [] :=
        List.ne_nil_of_mem (mem_addConflict.mpr (.inr rfl))
      rw [hc, if_neg hne]
      split
      · change keepUnique (Record.firsts key l) a >>= _ = _
        simp only [keepUnique, hprior, require, if_neg hsay]
        rfl
      · rfl
    · rw [hc]
      split
      · rw [hfirsts]
        change keepUnique (Record.firsts key l) a >>= _ = _
        cases hprior : (Record.firsts key l).get? a.key with
        | none =>
          simp only [keepUnique, hprior, Record.keep]
          rfl
        | some prior =>
          have hsay : semanticRevision prior = semanticRevision a := by
            by_contra hne
            exact hnone ⟨prior, hprior, hne⟩
          simp only [keepUnique, hprior, Record.keep, require, if_pos hsay]
          rfl
      · rfl

/-- The strict reducer is the other one, without conflicts. -/
theorem reduceXstocksRevisions_eq (l : List XstocksEventRevision) :
    reduceXstocksRevisions l = if (reduceRevisions l).conflicts = []
      then .ok ⟨(reduceRevisions l).revisions, (reduceRevisions l).heads.values⟩
      else .error "xstocks_conflicting_event_revision" := by
  rw [reduceXstocksRevisions, foldlM_keepUnique]
  split
  · rw [revisions_eq]
    change Except.ok _ = Except.ok _
    rw [reduceRevisions, foldl_reviewRevision_fst]
    rfl
  · rfl

/-! ## Orders and repetitions -/

/-- Records that are equal but for the digest of the page they were read from. -/
def SameRevision (a b : XstocksEventRevision) : Prop :=
  { a with sourceDigest := b.sourceDigest } = b

/-- Another order of a list, with records listed again. -/
inductive Rearranged : List XstocksEventRevision → List XstocksEventRevision → Prop
  | perm {l l' : List XstocksEventRevision} : l.Perm l' → Rearranged l l'
  | insert {a b : XstocksEventRevision} {l₁ l₂ : List XstocksEventRevision} :
    a ∈ l₁ ++ l₂ → SameRevision a b → Rearranged (l₁ ++ l₂) (l₁ ++ b :: l₂)
  | trans {l l' l'' : List XstocksEventRevision} : Rearranged l l' →
    Rearranged l' l'' → Rearranged l l''

/-- Every record of one list is in the other, up to the digest. -/
def Covers (l l' : List XstocksEventRevision) : Prop := ∀ a ∈ l, ∃ b ∈ l', SameRevision a b

/-- The same revision is of the same event and version. -/
theorem SameRevision.pair (h : SameRevision a b) : a.pair = b.pair := by
  rw [← h]
  rfl

/-- And says the same. -/
theorem SameRevision.semantic (h : SameRevision a b) : semanticRevision a = semanticRevision b := by
  rw [← h]
  rfl

theorem SameRevision.refl (a : XstocksEventRevision) : SameRevision a a := rfl

theorem SameRevision.symm (h : SameRevision a b) : SameRevision b a := by
  rw [SameRevision] at *
  rw [← h]

theorem SameRevision.trans {c : XstocksEventRevision} (h : SameRevision a b)
    (h' : SameRevision b c) :
    SameRevision a c := by
  rw [SameRevision] at *
  rw [← h', ← h]

/-- Covering goes on. -/
theorem Covers.trans {l'' : List XstocksEventRevision} (h : Covers l l') (h' : Covers l' l'') :
    Covers l l'' := by
  intro a ha
  obtain ⟨b, hb, hab⟩ := h a ha
  obtain ⟨c, hc, hbc⟩ := h' b hb
  exact ⟨c, hc, hab.trans hbc⟩

/-- A list and its rearrangement cover each other. -/
theorem Rearranged.covers (h : Rearranged l l') : Covers l l' ∧ Covers l' l := by
  induction h with
  | perm h =>
    exact ⟨fun a ha => ⟨a, h.mem_iff.mp ha, .refl a⟩, fun a ha => ⟨a, h.mem_iff.mpr ha, .refl a⟩⟩
  | insert ha hab =>
    constructor
    · intro c hc
      refine ⟨c, ?_, .refl c⟩
      rcases List.mem_append.mp hc with hc | hc
      · exact List.mem_append_left _ hc
      · exact List.mem_append_right _ (List.mem_cons_of_mem _ hc)
    · intro c hc
      rcases List.mem_append.mp hc with hc | hc
      · exact ⟨c, List.mem_append_left _ hc, .refl c⟩
      · rcases List.mem_cons.mp hc with rfl | hc
        · exact ⟨_, ha, hab.symm⟩
        · exact ⟨c, List.mem_append_right _ hc, .refl c⟩
  | trans _ _ ih ih' => exact ⟨ih.1.trans ih'.1, ih'.2.trans ih.2⟩

/-- A conflict is one in every list that covers. -/
theorem Conflicting.covers (h : Conflicting l e) (hcover : Covers l l') : Conflicting l' e := by
  obtain ⟨a, ha, b, hb, rfl, hpair, hne⟩ := h
  obtain ⟨a', ha', haa'⟩ := hcover a ha
  obtain ⟨b', hb', hbb'⟩ := hcover b hb
  refine ⟨a', ha', b', hb', ?_, ?_, ?_⟩
  · exact congrArg Prod.fst haa'.pair.symm
  · rw [← haa'.pair, ← hbb'.pair, hpair]
  · rw [← haa'.semantic, ← hbb'.semantic]
    exact hne

/-- The kept records have the pairs of the list. -/
theorem mem_pairs_iff {p : String × Int} :
    (∃ r ∈ (reduceRevisions l).revisions, r.pair = p) ↔ ∃ r ∈ l, r.pair = p := by
  rw [revisions_eq]
  constructor
  · rintro ⟨r, hr, rfl⟩
    obtain ⟨k, hk⟩ := Record.mem_values.mp hr
    exact ⟨r, (Record.key_of_get?_firsts key hk).1, rfl⟩
  · rintro ⟨r, hr, rfl⟩
    obtain ⟨b, hb⟩ := Record.exists_get?_firsts key hr
    exact ⟨b, Record.mem_values.mpr ⟨_, hb⟩, key_eq_iff.mp (Record.key_of_get?_firsts key hb).2⟩

/-- **Heads**: of its event, of the list, and of the greatest version there. -/
theorem heads_spec {head : XstocksEventRevision}
    (h : (reduceRevisions l).heads.get? e = some head) :
    head.eventId = e ∧ head ∈ l ∧ ∀ r ∈ l, r.eventId = e →
      r.sourceVersion ≤ head.sourceVersion := by
  have hspec := Record.tops_spec eventId sourceVersion (reduceRevisions l).revisions
  rw [← latestHeads_eq] at hspec
  obtain ⟨hmem, hid⟩ := hspec.found e head h
  refine ⟨hid, ?_, ?_⟩
  · rw [revisions_eq] at hmem
    obtain ⟨k, hk⟩ := Record.mem_values.mp hmem
    exact (Record.key_of_get?_firsts key hk).1
  · rintro r hr rfl
    obtain ⟨b, hb, hpair⟩ := mem_pairs_iff.mpr ⟨r, hr, rfl⟩
    obtain ⟨top, htop, hle⟩ := hspec.greatest b hb
    rw [show b.eventId = r.eventId from congrArg Prod.fst hpair] at htop
    rw [Option.some.inj (h.symm.trans htop),
      ← show b.sourceVersion = r.sourceVersion from congrArg Prod.snd hpair]
    exact hle

/-- Every record has a head. -/
theorem exists_head (h : a ∈ l) : ∃ head, (reduceRevisions l).heads.get? a.eventId = some head := by
  have hspec := Record.tops_spec eventId sourceVersion (reduceRevisions l).revisions
  rw [← latestHeads_eq] at hspec
  obtain ⟨b, hb, hpair⟩ := mem_pairs_iff.mpr ⟨a, h, rfl⟩
  obtain ⟨top, htop, -⟩ := hspec.greatest b hb
  rw [show b.eventId = a.eventId from congrArg Prod.fst hpair] at htop
  exact ⟨top, htop⟩

/-- The version of a head is at most that of the head in a list that covers this one. -/
theorem head_le {head : XstocksEventRevision} (hcover : Covers l l')
    (h : (reduceRevisions l).heads.get? e = some head) :
    ∃ head', (reduceRevisions l').heads.get? e = some head' ∧
      head.sourceVersion ≤ head'.sourceVersion := by
  obtain ⟨rfl, hmem, -⟩ := heads_spec h
  obtain ⟨b, hb, hsame⟩ := hcover head hmem
  have hid : b.eventId = head.eventId := congrArg Prod.fst hsame.pair.symm
  have hversion : b.sourceVersion = head.sourceVersion := congrArg Prod.snd hsame.pair.symm
  obtain ⟨head', hhead'⟩ := exists_head hb
  rw [hid] at hhead'
  exact ⟨head', hhead', hversion ▸ (heads_spec hhead').2.2 b hb hid⟩

/-- Lists that cover each other have heads of the same versions. -/
theorem headVersion_eq (hcover : Covers l l') (hcover' : Covers l' l) (e : String) :
    ((reduceRevisions l).heads.get? e).map sourceVersion
      = ((reduceRevisions l').heads.get? e).map sourceVersion := by
  cases h : (reduceRevisions l).heads.get? e with
  | none =>
    cases h' : (reduceRevisions l').heads.get? e with
    | none => rfl
    | some head' =>
      obtain ⟨head, hhead, -⟩ := head_le hcover' h'
      cases h.symm.trans hhead
  | some head =>
    obtain ⟨head', h', hle⟩ := head_le hcover h
    obtain ⟨head₂, h₂, hle'⟩ := head_le hcover' h'
    cases h.symm.trans h₂
    rw [h', Option.map_some, Option.map_some, le_antisymm hle hle']

/-- **One reduction**: the reader throws exactly if the review finds a conflict, and else they
return the same revisions and heads. No order and no repetition changes the conflicts, the pairs of
event and version, or the version of a head, which is the greatest of its event. -/
theorem reduceRevisions_rearranged :
    (∀ l, ((∃ code, reduceXstocksRevisions l = .error code) ↔ (reduceRevisions l).conflicts ≠ []) ∧
      ∀ reduced, reduceXstocksRevisions l = .ok reduced →
        reduced.records = (reduceRevisions l).revisions ∧
        reduced.latestObservedHeads = (reduceRevisions l).heads.values) ∧
    (∀ l l', Rearranged l l' →
      (∀ e, e ∈ (reduceRevisions l).conflicts ↔ e ∈ (reduceRevisions l').conflicts) ∧
      (∀ p, (∃ r ∈ (reduceRevisions l).revisions, r.pair = p) ↔
        ∃ r ∈ (reduceRevisions l').revisions, r.pair = p) ∧
      ∀ e, ((reduceRevisions l).heads.get? e).map sourceVersion
        = ((reduceRevisions l').heads.get? e).map sourceVersion) ∧
    ∀ l, (∀ e head, (reduceRevisions l).heads.get? e = some head →
        head.eventId = e ∧ head ∈ l ∧ ∀ r ∈ l, r.eventId = e →
          r.sourceVersion ≤ head.sourceVersion) ∧
      ∀ r ∈ l, ∃ head, (reduceRevisions l).heads.get? r.eventId = some head := by
  refine ⟨fun l => ?_, fun l l' h => ?_, fun l => ⟨fun e head => heads_spec, fun r => exists_head⟩⟩
  · rw [reduceXstocksRevisions_eq]
    by_cases hnone : (reduceRevisions l).conflicts = []
    · rw [if_pos hnone]
      refine ⟨iff_of_false nofun fun h => h hnone, fun reduced h => ?_⟩
      obtain rfl := Except.ok.inj h
      exact ⟨rfl, rfl⟩
    · rw [if_neg hnone]
      exact ⟨iff_of_true ⟨_, rfl⟩ hnone, nofun⟩
  · obtain ⟨hcover, hcover'⟩ := h.covers
    refine ⟨fun e => ?_, fun p => ?_, headVersion_eq hcover hcover'⟩
    · rw [mem_conflicts_iff, mem_conflicts_iff]
      exact ⟨fun h => h.covers hcover, fun h => h.covers hcover'⟩
    · rw [mem_pairs_iff, mem_pairs_iff]
      constructor
      · rintro ⟨r, hr, rfl⟩
        obtain ⟨b, hb, hsame⟩ := hcover r hr
        exact ⟨b, hb, hsame.pair.symm⟩
      · rintro ⟨r, hr, rfl⟩
        obtain ⟨b, hb, hsame⟩ := hcover' r hr
        exact ⟨b, hb, hsame.pair.symm⟩

/-- A dividend of the sample history, in two versions. -/
def sampleRevision (version : Int) (digest : String) : XstocksEventRevision where
  eventId := "KO-2026-Q3"
  sourceVersion := version
  symbol := "KOx"
  xstockIsin := "CH1"
  spvSymbol := "KO"
  spvIsin := "US1"
  action := "CashDividend"
  status := "Initial"
  multiplierOld := "1.0183310000000000"
  multiplierNew := "1.0225000000000000"
  createdTime := "2026-09-14T22:00:00Z"
  effectiveTime := "2026-09-15T00:00:00Z"
  grossCashflowUsd := some "0.5100"
  netCashflowUsd := none
  withholdingTaxRate := none
  fromUnits := none
  toUnits := none
  redemptionPriceUsd := none
  notes := none
  sourceDigest := digest

/-- The versions the other way round, one of them listed again: the head is the second. -/
theorem reduceRevisions_rearranged_sample :
    ((reduceRevisions [sampleRevision 2 "b", sampleRevision 1 "a", sampleRevision 1 "c"]).heads.get?
      "KO-2026-Q3").map sourceVersion = some 2 := by
  have hrearranged : Rearranged [sampleRevision 1 "a", sampleRevision 2 "b"]
      [sampleRevision 2 "b", sampleRevision 1 "a", sampleRevision 1 "c"] := by
    refine .trans (.perm (.swap _ _ [])) ?_
    have hlisted : sampleRevision 1 "a" ∈ [sampleRevision 2 "b",
      sampleRevision 1 "a"] ++ [] := by decide
    exact .insert hlisted rfl
  rw [← (reduceRevisions_rearranged.2.1 _ _ hrearranged).2.2]
  decide +kernel

end Issuer

end DividendX
