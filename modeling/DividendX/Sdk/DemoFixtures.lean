import DividendX.Sdk.Amounts
import DividendX.Lib.Grouping

/-!
# Fixtures of the demo

`validateFixtures` and the three maps a client keeps of the fixtures it accepts. The loops fill maps
of their own, by which they refuse what they met before; the client's maps are built once more from
the lists. What the two have in common is `Catalog.Pinned`: an asset and its event name each other.
-/

namespace DividendX

namespace Demo

/-- `AssetDescriptor`, as far as a client reads it. -/
structure AssetDescriptor where
  id : String
  symbol : String
  issuerId : String
  mint : String
  decimals : Int
  effectiveMultiplier : String
  eventFixtureId : Option String
deriving DecidableEq

/-- `EventDescriptor`, as far as a client reads it. -/
structure EventDescriptor where
  id : String
  assetId : String
  kind : String
  m0 : String
  m1 : String
  sourceUrls : List String
  evidencePaths : List String
  sourceDigest : String
  finality : String
deriving DecidableEq

/-! ## Validation -/

/-- One turn of the loop over the assets. -/
def checkAsset (assetsById : Record String AssetDescriptor) (asset : AssetDescriptor) :
    Thrown (Record String AssetDescriptor) := do
  demand (asset.id ≠ "" ∧ assetsById.get? asset.id = none) .invalidFixture
    ("Duplicate or empty asset ID: " ++ asset.id)
  demand (asset.issuerId = "xstocks" ∨ asset.issuerId = "backpack" ∨ asset.issuerId = "ondo")
    .invalidFixture ("Unsupported issuer for asset " ++ asset.id)
  demand (asset.id = asset.issuerId ++ ":" ++ asset.mint) .invalidFixture
    ("Asset " ++ asset.id ++ " does not match issuer and mint identity")
  demand (¬ (asset.decimals < 0 ∨ 18 < asset.decimals)) .invalidFixture
    ("Invalid decimals for " ++ asset.id)
  let _ ← factor asset.effectiveMultiplier
  return assetsById.set asset.id asset

/-- What the loop over the events fills. -/
structure EventMaps where
  eventsById : Record String EventDescriptor
  assetEventCounts : Record String Nat

/-- One turn of the loop over the events. -/
def checkEvent (assetsById : Record String AssetDescriptor) (maps : EventMaps)
    (event : EventDescriptor) : Thrown EventMaps := do
  demand (event.id ≠ "" ∧ maps.eventsById.get? event.id = none) .invalidFixture
    ("Duplicate or empty event ID: " ++ event.id)
  let asset ← Result.okOr (assetsById.get? event.assetId) (.demoError .invalidFixture
    ("Event " ++ event.id ++ " references unknown asset " ++ event.assetId))
  demand (asset.eventFixtureId = some event.id) .invalidFixture
    ("Event " ++ event.id ++ " is not pinned by asset " ++ asset.id)
  demand (event.kind = "cash_dividend") .invalidFixture ("Unsupported event kind: " ++ event.kind)
  demand (event.finality = "trusted_frozen_replay") .invalidFixture
    ("Event " ++ event.id ++ " is not a trusted frozen replay")
  demand
    (¬ (event.sourceDigest = "" ∨ event.sourceUrls.length = 0 ∨ event.evidencePaths.length = 0))
    .invalidFixture ("Event " ++ event.id ++ " is missing source evidence")
  let pools ← allocate 1_000_000_000_000 event.m0 event.m1
  demand (pools.drPoolRaw ≠ 0) .invalidFixture
    ("Event " ++ event.id ++ " has no positive dividend allocation")
  return {
    eventsById := maps.eventsById.set event.id event
    assetEventCounts := maps.assetEventCounts.set event.assetId
      ((maps.assetEventCounts.get? event.assetId).getD 0 + 1) }

/-- The second loop over the assets, one of them. -/
def checkPin (maps : EventMaps) (asset : AssetDescriptor) : Thrown Unit := do
  demand (∀ eventId ∈ asset.eventFixtureId, maps.eventsById.get? eventId ≠ none) .invalidFixture
    ("Asset " ++ asset.id ++ " references missing event " ++ asset.eventFixtureId.getD "")
  demand (¬ 1 < (maps.assetEventCounts.get? asset.id).getD 0) .invalidFixture
    ("Asset " ++ asset.id ++ " has duplicate events")

/-- `validateFixtures`. -/
def validateFixtures (assets : List AssetDescriptor) (events : List EventDescriptor) :
    Thrown Unit := do
  let assetsById ← assets.foldlM checkAsset ∅
  let maps ← events.foldlM (checkEvent assetsById) ⟨∅, ∅⟩
  assets.forM (checkPin maps)

/-! ## The maps of a client -/

/-- The maps `assets`, `events` and `eventForAsset`. -/
structure Catalog where
  assets : Record String AssetDescriptor
  events : Record String EventDescriptor
  eventForAsset : Record String String
deriving DecidableEq

/-- The maps of two lists of fixtures. -/
def Catalog.of (sourceAssets : List AssetDescriptor) (sourceEvents : List EventDescriptor) :
    Catalog where
  assets := Record.ofList AssetDescriptor.id id sourceAssets
  events := Record.ofList EventDescriptor.id id sourceEvents
  eventForAsset := Record.ofList EventDescriptor.assetId EventDescriptor.id sourceEvents

/-- An asset and an event of the catalog that name each other. -/
structure Catalog.Pinned (catalog : Catalog) (asset : AssetDescriptor) (event : EventDescriptor) :
    Prop where
  assetKnown : catalog.assets.get? event.assetId = some asset
  eventKnown : catalog.events.get? event.id = some event
  pin : asset.eventFixtureId = some event.id

/-- Every asset that has an event is pinned to it. -/
def Catalog.Sound (catalog : Catalog) : Prop :=
  ∀ assetId eventId, catalog.eventForAsset.get? assetId = some eventId →
    ∃ asset event, catalog.Pinned asset event ∧ event.assetId = assetId ∧ event.id = eventId

/-! ## What the loops have seen -/

variable {assets : List AssetDescriptor} {events : List EventDescriptor}

/-- The loop over the assets fills its map with them. -/
theorem foldlM_checkAsset {assetsById : Record String AssetDescriptor}
    (h : assets.foldlM checkAsset ∅ = .ok assetsById) :
    (assets.map AssetDescriptor.id).Nodup
      ∧ ∀ id asset, assetsById.get? id = some asset ↔ asset ∈ assets ∧ asset.id = id := by
  refine Result.foldlM_prefix (P := fun met byId => (met.map AssetDescriptor.id).Nodup
    ∧ ∀ id asset, byId.get? id = some asset ↔ asset ∈ met ∧ asset.id = id) ?_ ?_ h
  · simp
  · rintro met asset byId byId' ⟨hnodup, hfound⟩ hturn
    simp only [checkAsset, Result.bind_eq_ok, Result.exists_unit, Result.pure_eq_ok,
      demand_eq_ok] at hturn
    obtain ⟨⟨-, hfresh⟩, -, -, -, -, -, rfl⟩ := hturn
    have hnew : ∀ other ∈ met, other.id ≠ asset.id := by
      intro other hmem heq
      have hother := (hfound asset.id other).mpr ⟨hmem, heq⟩
      rw [hfresh] at hother
      cases hother
    constructor
    · rw [List.map_append, List.nodup_append]
      refine ⟨hnodup, List.nodup_singleton _, fun a ha b hb => ?_⟩
      obtain ⟨other, hmem, rfl⟩ := List.mem_map.mp ha
      rw [List.map_singleton, List.mem_singleton] at hb
      rw [hb]
      exact hnew other hmem
    · intro id other
      rw [Record.get?_set, List.mem_append, List.mem_singleton]
      by_cases hid : id = asset.id
      · rw [if_pos hid]
        constructor
        · intro hsome
          cases hsome
          exact ⟨.inr rfl, hid.symm⟩
        · rintro ⟨hmem | rfl, hother⟩
          · exact absurd (hother.trans hid) (hnew other hmem)
          · rfl
      · rw [if_neg hid, hfound id other]
        constructor
        · rintro ⟨hmem, hother⟩
          exact ⟨.inl hmem, hother⟩
        · rintro ⟨hmem | rfl, hother⟩
          · exact ⟨hmem, hother⟩
          · exact absurd hother.symm hid

/-- The loop over the events lets each pass once, and only if its asset pins it. -/
theorem foldlM_checkEvent {assetsById : Record String AssetDescriptor} {maps : EventMaps}
    (h : events.foldlM (checkEvent assetsById) ⟨∅, ∅⟩ = .ok maps) :
    (events.map EventDescriptor.id).Nodup
      ∧ ∀ event ∈ events, ∃ asset, assetsById.get? event.assetId = some asset
        ∧ asset.eventFixtureId = some event.id := by
  have hall := Result.foldlM_prefix (P := fun met (maps : EventMaps) =>
    (met.map EventDescriptor.id).Nodup
      ∧ (∀ event ∈ met, ∃ other, maps.eventsById.get? event.id = some other)
      ∧ ∀ event ∈ met, ∃ asset, assetsById.get? event.assetId = some asset
        ∧ asset.eventFixtureId = some event.id) ?_ ?_ h
  · exact ⟨hall.1, hall.2.2⟩
  · simp
  · rintro met event maps maps' ⟨hnodup, hfound, hpinned⟩ hturn
    simp only [checkEvent, Result.bind_eq_ok, Result.exists_unit, Result.pure_eq_ok,
      demand_eq_ok, Result.okOr_eq_ok] at hturn
    obtain ⟨⟨-, hfresh⟩, asset, hasset, hpin, -, -, -, _, -, -, rfl⟩ := hturn
    refine ⟨?_, ?_, ?_⟩
    · rw [List.map_append, List.nodup_append]
      refine ⟨hnodup, List.nodup_singleton _, fun a ha b hb heq => ?_⟩
      obtain ⟨earlier, hmem, rfl⟩ := List.mem_map.mp ha
      rw [List.map_singleton, List.mem_singleton] at hb
      obtain ⟨other, hother⟩ := hfound earlier hmem
      rw [heq, hb, hfresh] at hother
      cases hother
    · intro other hother
      rw [Record.get?_set]
      split
      · exact ⟨event, rfl⟩
      · rename_i hid
        rcases List.mem_append.mp hother with hmem | hlast
        · exact hfound other hmem
        · exact absurd (congrArg EventDescriptor.id (List.mem_singleton.mp hlast)) hid
    · intro other hother
      rcases List.mem_append.mp hother with hmem | hlast
      · exact hpinned other hmem
      · rw [List.mem_singleton.mp hlast]
        exact ⟨asset, hasset, hpin⟩

/-- **Accepted fixtures.** In the maps of fixtures that pass, every event is pinned by its asset. -/
theorem sound_of_validateFixtures (h : validateFixtures assets events = .ok ()) :
    (Catalog.of assets events).Sound := by
  simp only [validateFixtures, Result.bind_eq_ok] at h
  obtain ⟨assetsById, hassets, maps, hevents, -⟩ := h
  obtain ⟨hassetIds, hassetsById⟩ := foldlM_checkAsset hassets
  obtain ⟨heventIds, hpinned⟩ := foldlM_checkEvent hevents
  intro assetId eventId hevent
  obtain ⟨event, hmem, rfl, rfl⟩ := Record.exists_of_get?_ofList hevent
  obtain ⟨asset, hasset, hpin⟩ := hpinned event hmem
  obtain ⟨hassetMem, hassetId⟩ := (hassetsById _ _).mp hasset
  refine ⟨asset, event, ⟨?_, ?_, hpin⟩, rfl, rfl⟩
  · rw [← hassetId]
    exact Record.get?_ofList hassetIds hassetMem
  · exact Record.get?_ofList heventIds hmem

end Demo

end DividendX
