import DividendX.Issuer.Revisions
import DividendX.Lib.JsonValue

/-!
# Reading an issuer's history page by page

`xstocks.ts`: for each selected asset the reader fetches the registry entry and then the pages of
its history, until a page says it is the last. The history is called fully fetched if no page failed
and the pages together have as many records as the issuer says there are.

Pages come from different requests, and a history that grows in between shifts the pages that
follow. The records are counted before repetitions are dropped, so a record that is listed twice can
stand for one that was never seen (`readXstocks_overlap`); without repetitions nothing is missing
(`readXstocks_complete_iff`).

`Date.parse` is a parameter: what it makes of a text that is no ISO date is up to the engine.
-/

namespace DividendX

namespace Issuer

open JsonValue Result
open XstocksEventRevision (pair key semanticRevision)

/-! ## Schema -/

/-- A check fails with the code of a `ReaderError`. -/
abbrev Read := Except String

/-- `object`. -/
def object (value : Option JsonValue) (code : String) : Read (List (String × JsonValue)) :=
  match value with
  | some (.object members) => .ok members
  | _ => .error code

/-- `array`. -/
def array (value : Option JsonValue) (code : String) : Read (List JsonValue) :=
  match value with
  | some (.array items) => .ok items
  | _ => .error code

/-- `string`. -/
def string (value : Option JsonValue) (code : String) : Read String :=
  match value with
  | some (.string s) => .ok s
  | _ => .error code

/-- `bool`. -/
def bool (value : Option JsonValue) (code : String) : Read Bool :=
  match value with
  | some (.bool b) => .ok b
  | _ => .error code

/-- `integer`. -/
def integer (value : Option JsonValue) (code : String) : Read Int :=
  okOr (value.bind safeInteger?) code

/-- `/^\d{4}-\d{2}-\d{2}T.*(?:Z|[+-]\d{2}:\d{2})$/`; the dot stands for no line terminator. -/
def isTimestamp (text : List Char) : Bool :=
  let digits (s : List Char) : Bool := s.all Char.isDigit
  let rest := text.drop 11
  match text.take 11 with
  | [y₁, y₂, y₃, y₄, '-', m₁, m₂, '-', d₁, d₂, 'T'] =>
    digits [y₁, y₂, y₃, y₄, m₁, m₂, d₁, d₂] && rest.all
      (fun c => c ∉ ['\n', '\r', '\u2028', '\u2029'])
      && (rest.getLast? = some 'Z'
        || match rest.drop (rest.length - 6) with
          | [sign, h₁, h₂, ':', s₁, s₂] => (sign = '+' || sign = '-') && digits [h₁, h₂, s₁, s₂]
          | _ => false)
  | _ => false

/-- `exactDecimal`, with at most 1000 digits after the point. -/
def exactDecimal (value : Option JsonValue) (positive : Bool) : Read String :=
  match value with
  | some (.string s) => do
    let whole := s.toList.takeWhile (· ≠ '.')
    let tail := s.toList.dropWhile (· ≠ '.')
    require (whole ≠ [] ∧ whole.all Char.isDigit = true ∧ (whole = ['0'] ∨ whole.head? ≠ some '0')
      ∧ (tail = [] ∨ tail.tail ≠ [] ∧ tail.tail.all Char.isDigit = true)
      ∧ tail.tail.length ≤ 1000) "invalid_decimal_string"
    require (¬ (positive = true ∧ whole = ['0'] ∧ tail.tail.all (· = '0') = true))
      "invalid_decimal_string"
    return s
  | _ => .error "numeric_factor_not_exact_string"

/-- `nullableExact`. -/
def nullableExact (value : Option JsonValue) : Read (Option String) :=
  if isNull value then return none
  else do
    let s ← exactDecimal value false
    return some s

section Parse

variable (dateParses : String → Bool)

/-- `timestamp`. -/
def timestamp (value : Option JsonValue) : Read String := do
  let result ← string value "malformed_timestamp"
  require (isTimestamp result.toList = true ∧ dateParses result = true) "malformed_timestamp"
  return result

/-! ## One page -/

/-- `XstocksPage`. -/
structure XstocksPage where
  currentPage : Int
  pageSize : Int
  totalPages : Int
  totalNodes : Int
  hasNextPage : Bool
  hasPreviousPage : Bool
  records : List XstocksEventRevision
  deriving DecidableEq

/-- The code of most failures of a page. -/
def malformed : String := "xstocks_history_malformed"

/-- One node of a page. -/
def parseNode (symbol sourceDigest : String) (item : JsonValue) : Read XstocksEventRevision := do
  let node ← object (some item) malformed
  let field (name : String) : Option JsonValue := Record.find name node
  let nodeSymbol ← string (field "xstockSymbol") malformed
  require (nodeSymbol = symbol) "xstocks_event_symbol_mismatch"
  let spvSymbol ← string (field "spvSymbol") malformed
  let xstockIsin ← string (field "xstockIsin") malformed
  let spvIsin ← string (field "spvIsin") malformed
  let eventId ← string (field "eventId") malformed
  let sourceVersion ← integer (field "version") malformed
  let action ← string (field "caType") malformed
  let status ← string (field "status") malformed
  let multiplierOld ← exactDecimal (field "multiplierOld") true
  let multiplierNew ← exactDecimal (field "multiplierNew") true
  let createdTime ← timestamp dateParses (field "createdTimeUtc")
  let effectiveTime ← timestamp dateParses (field "effectiveTimeUtc")
  let grossCashflowUsd ← nullableExact (field "grossCashflowUsd")
  let netCashflowUsd ← nullableExact (field "netCashflowUsd")
  let withholdingTaxRate ← nullableExact (field "withholdingTaxRate")
  let fromUnits ← nullableExact (field "fromUnits")
  let toUnits ← nullableExact (field "toUnits")
  let redemptionPriceUsd ← nullableExact (field "redemptionPriceUsd")
  let notes ← if isNull (field "notes") then pure none
    else some <$> string (field "notes") malformed
  return { eventId := eventId, sourceVersion := sourceVersion, symbol := nodeSymbol,
           xstockIsin := xstockIsin, spvSymbol := spvSymbol, spvIsin := spvIsin, action := action,
           status := status, multiplierOld := multiplierOld, multiplierNew := multiplierNew,
           createdTime := createdTime, effectiveTime := effectiveTime,
           grossCashflowUsd := grossCashflowUsd, netCashflowUsd := netCashflowUsd,
           withholdingTaxRate := withholdingTaxRate, fromUnits := fromUnits, toUnits := toUnits,
           redemptionPriceUsd := redemptionPriceUsd, notes := notes, sourceDigest := sourceDigest }

/-- `Math.ceil(totalNodes / pageSize)`. The quotient of a safe integer by at most a hundred is never
rounded down to an integer. -/
def ceilDiv (totalNodes pageSize : Int) : Int := (totalNodes + pageSize - 1) / pageSize

/-- The counters of a page fit together, and it is the page that was asked for. -/
def Consistent (p : XstocksPage) (requestedPage : Int) : Prop :=
  p.currentPage = requestedPage ∧ 1 ≤ p.pageSize ∧ p.pageSize ≤ 100 ∧ 1 ≤ p.totalPages ∧
    0 ≤ p.totalNodes ∧ (p.hasNextPage = true ↔ p.currentPage < p.totalPages) ∧
    (p.hasPreviousPage = true ↔ 1 < p.currentPage) ∧ p.currentPage ≤ p.totalPages

instance (p : XstocksPage) (requestedPage : Int) : Decidable (Consistent p requestedPage) :=
  inferInstanceAs (Decidable (_ ∧ _))

/-- `parseXstocksHistoryPage`. -/
def parseXstocksHistoryPage (value : JsonValue) (requestedPage : Int)
    (symbol sourceDigest : String) :
    Read XstocksPage := do
  let root ← object (some value) malformed
  let pagination ← object (Record.find "page" root) malformed
  let currentPage ← integer (Record.find "currentPage" pagination) malformed
  let pageSize ← integer (Record.find "pageSize" pagination) malformed
  let totalPages ← integer (Record.find "totalPages" pagination) malformed
  let totalNodes ← integer (Record.find "totalNodes" pagination) malformed
  let hasNextPage ← bool (Record.find "hasNextPage" pagination) malformed
  let hasPreviousPage ← bool (Record.find "hasPreviousPage" pagination) malformed
  let page : XstocksPage :=
    ⟨currentPage, pageSize, totalPages, totalNodes, hasNextPage, hasPreviousPage, []⟩
  require (Consistent page requestedPage) "xstocks_pagination_inconsistent"
  require (totalPages = max 1 (ceilDiv totalNodes pageSize)) "xstocks_pagination_inconsistent"
  let nodes ← array (Record.find "nodes" root) malformed
  require ((nodes.length : Int) ≤ pageSize ∧ (nodes.length : Int) ≤ totalNodes)
    "xstocks_pagination_inconsistent"
  let records ← nodes.mapM (parseNode dateParses symbol sourceDigest)
  require (∀ record ∈ records, record.eventId ≠ "" ∧ 0 ≤ record.sourceVersion) malformed
  return { page with records := records }

/-! ## The registry -/

/-- The issuers. -/
inductive IssuerId
  | xstocks
  | backpack
  | ondo
deriving DecidableEq

/-- `SelectedAsset`, as far as this reader looks at it; there is one chain. -/
structure SelectedAsset where
  issuerId : IssuerId
  symbol : String
  underlying : String
  mint : String
deriving DecidableEq

/-- The underlying of a registry entry. -/
structure Underlying where
  symbol : String
  isin : String
  listingCountry : String
deriving DecidableEq

/-- A registry entry that passed. -/
structure Registry where
  id : String
  isin : String
  isTradingHalted : Bool
  underlying : Option Underlying
deriving DecidableEq

/-- `parseXstocksRegistry`. -/
def parseXstocksRegistry (value : JsonValue) (asset : SelectedAsset) : Read Registry := do
  let code := "xstocks_registry_malformed"
  require (asset.issuerId = .xstocks) "asset_identity_family_mismatch"
  let root ← object (some value) code
  let id ← string (Record.find "id" root) code
  let symbol ← string (Record.find "symbol" root) code
  let isin ← string (Record.find "isin" root) code
  require (symbol = asset.symbol) "xstocks_symbol_mismatch"
  let underlying ← if isNull (Record.find "underlying" root) then pure none else do
    let source ← object (Record.find "underlying" root) code
    let symbol ← string (Record.find "symbol" source) code
    let isin ← string (Record.find "isin" source) code
    let listingCountry ← string (Record.find "listingCountry" source) code
    pure (some ⟨symbol, isin, listingCountry⟩)
  let isTradingHalted ← bool (Record.find "isTradingHalted" root) code
  let deployments ← array (Record.find "deployments" root) code
  let items ← deployments.mapM fun item => object (some item) code
  let matching ← items.filterMapM fun item => do
    let network ← string (Record.find "network" item) code
    return if network = "Solana" then some item else none
  match matching with
  | [] => .error "xstocks_solana_deployment_missing"
  | [deployment] =>
    let observedMint ← string (Record.find "address" deployment) code
    require (observedMint = asset.mint) "xstocks_mint_mismatch"
    return { id := id, isin := isin, isTradingHalted := isTradingHalted, underlying := underlying }
  | _ => .error "xstocks_solana_deployment_duplicate"

/-- `validateEventRelationships`. -/
def validateEventRelationships (records : List XstocksEventRevision) (registry : Registry)
    (asset : SelectedAsset) : Read Unit :=
  records.forM fun record => do
    require (record.xstockIsin = registry.isin) "xstocks_event_identity_mismatch"
    require (∀ underlying ∈ registry.underlying, record.spvSymbol = asset.underlying
      ∧ record.spvSymbol = underlying.symbol ∧ record.spvIsin = underlying.isin)
      "xstocks_event_identity_mismatch"

/-! ## The page loop -/

/-- What `observePublicJson` comes back with. -/
inductive Fetched
  | threw (code : String)
  | answered (status : Nat) (dataDigest error : Option String) (value : Option JsonValue)

/-- `stopCode`. -/
def stopCode (status : Nat) : Option String :=
  if status = 401 ∨ status = 403 then some "issuer_authentication_failed"
  else if status = 429 then some "issuer_rate_limited"
  else none

/-- `XSTOCKS_MAX_PAGES`. -/
def XSTOCKS_MAX_PAGES : Nat := 100

/-- The signature of a page: `stableJson` of its records without their digests. -/
def pageSignature (records : List XstocksEventRevision) : Text :=
  '[' :: [','].intercalate (records.map semanticRevision) ++ [']']

/-- The variables after the page loop, and the pages that were asked for. -/
structure PageLoop where
  pages : List XstocksPage
  historyFailure : Option String
  stopped : Option String
  requested : List Nat

/-- The checks on a parsed page that look at the pages before. -/
def admitPage (pages : List XstocksPage) (pageSignatures : List Text)
    (parsed : XstocksPage) : Read Unit := do
  require (pageSignature parsed.records ∉ pageSignatures) "xstocks_repeated_page"
  require (∀ first ∈ pages.head?, parsed.totalPages = first.totalPages
    ∧ parsed.totalNodes = first.totalNodes ∧ parsed.pageSize = first.pageSize)
    "xstocks_pagination_inconsistent"

/-- The page loop of `readXstocks`, from a page on. `remaining` counts down to the page limit:
`page > maxPages` once none remain. -/
def readPages (respond : Nat → Fetched) (symbol : String) :
    Nat → Nat → List XstocksPage → List Text → PageLoop
  | 0, _, pages, _ => ⟨pages, some "xstocks_page_limit_exceeded", none, []⟩
  | remaining + 1, page, pages, pageSignatures =>
    match respond page with
    | .threw code => ⟨pages, some code, none, [page]⟩
    | .answered status dataDigest error value =>
      match stopCode status with
      | some code => ⟨pages, some code, some code, [page]⟩
      | none =>
        match value.filter (fun v => truthy (some v)), dataDigest with
        | some value, some digest =>
          match (do
            let parsed ← parseXstocksHistoryPage dateParses value page symbol digest
            admitPage pages pageSignatures parsed
            return parsed : Read XstocksPage) with
          | .error code => ⟨pages, some code, none, [page]⟩
          | .ok parsed =>
            if parsed.hasNextPage = false then ⟨pages ++ [parsed], none, none, [page]⟩
            else
              let rest := readPages respond symbol remaining (page + 1) (pages ++ [parsed])
                (pageSignature parsed.records :: pageSignatures)
              { rest with requested := page :: rest.requested }
        | _, _ => ⟨pages, some (error.getD "xstocks_history_unavailable"), none, [page]⟩

/-- The corporate actions of an asset. -/
inductive CorporateActions
  | observed (value : ReducedRevisions)
  | incomplete (code : String) (value : ReducedRevisions)
  | failed (code : String)
  | skipped (code : String)
deriving DecidableEq

/-- Reduce the records and join them with the registry. -/
def reduceHistory (pages : List XstocksPage) (registry : Registry) (asset : SelectedAsset) :
    Read ReducedRevisions := do
  let reduced ← reduceXstocksRevisions (pages.flatMap XstocksPage.records)
  validateEventRelationships reduced.records registry asset
  return reduced

/-- The corporate actions after the page loop. -/
def corporateActions (loop : PageLoop) (registry : Registry)
    (asset : SelectedAsset) : CorporateActions :=
  match loop.historyFailure with
  | some failure =>
    if loop.pages = [] then .failed failure
    else
      match reduceHistory loop.pages registry asset with
      | .ok reduced => .incomplete failure reduced
      | .error code => .failed code
  | none =>
    match (do
      let all := loop.pages.flatMap XstocksPage.records
      require (∃ first ∈ loop.pages.head?, (all.length : Int) = first.totalNodes)
        "xstocks_pagination_inconsistent"
      reduceHistory loop.pages registry asset : Read ReducedRevisions) with
    | .ok reduced => .observed reduced
    | .error code => .failed code

/-! ## All selected assets -/

/-- `IssuerAssetObservation`: the registry entry, or why there is none, and the corporate
actions. -/
structure AssetObservation where
  asset : SelectedAsset
  registry : Except String Registry
  corporateActions : CorporateActions

/-- `assetFailure`. -/
def assetFailure (asset : SelectedAsset) (code : String) : AssetObservation :=
  ⟨asset, .error code, .skipped "identity_not_verified"⟩

/-- One turn of the loop of `readXstocks`: what was observed, and why no further request is made. -/
def readAsset (registryResponse : Fetched) (respond : Nat → Fetched)
    (maxPages : Nat) (asset : SelectedAsset) :
    AssetObservation × Option String :=
  match registryResponse with
  | .threw code => (assetFailure asset code, none)
  | .answered status _ error value =>
    match stopCode status with
    | some code => (assetFailure asset code, some code)
    | none =>
      match value.filter (fun v => truthy (some v)) with
      | none => (assetFailure asset (error.getD "xstocks_registry_unavailable"), none)
      | some value =>
        match parseXstocksRegistry value asset with
        | .error code => (assetFailure asset code, none)
        | .ok registry =>
          let loop := readPages dateParses respond asset.symbol maxPages 1 [] []
          (⟨asset, .ok registry, corporateActions loop registry asset⟩, loop.stopped)

/-- The loop over the assets: after a stop the others are skipped. -/
def readAssets (registryResponse : Nat → Fetched) (respond : Nat → Nat → Fetched) (maxPages : Nat) :
    Nat → List SelectedAsset → List AssetObservation
  | _, [] => []
  | index, asset :: rest =>
    match readAsset dateParses (registryResponse index) (respond index) maxPages asset with
    | (observation, some _) =>
      observation :: rest.map fun asset => assetFailure asset "issuer_requests_stopped"
    | (observation, none) =>
      observation :: readAssets registryResponse respond maxPages (index + 1) rest

/-- `readXstocks`: the responses are numbered by asset, those of the history by page. -/
def readXstocks (assets : List SelectedAsset) (registryResponse : Nat → Fetched)
    (respond : Nat → Nat → Fetched) (maxPages : Option Nat) : Read (List AssetObservation) := do
  require (∀ asset ∈ assets, asset.issuerId = .xstocks) "asset_identity_family_mismatch"
  return readAssets dateParses registryResponse respond (maxPages.getD XSTOCKS_MAX_PAGES) 0 assets

/-! ## What the page loop has seen -/

variable {dateParses} {respond : Nat → Fetched} {symbol digest : String} {value : JsonValue}
  {remaining page maxPages : Nat} {requestedPage : Int} {pages : List XstocksPage}
  {parsed : XstocksPage}
  {pageSignatures : List Text}

/-- The pages so far, each but the last with a page to follow, all of one pagination. -/
structure Turned (pages : List XstocksPage) : Prop where
  numbered : ∀ (i : Nat) p, pages[i]? = some p → Consistent p (i + 1)
  same : ∀ first ∈ pages.head?, ∀ p ∈ pages, p.totalPages = first.totalPages ∧
    p.totalNodes = first.totalNodes ∧ p.pageSize = first.pageSize

/-- A page that parses is consistent. -/
theorem parseXstocksHistoryPage_consistent
    (h : parseXstocksHistoryPage dateParses value requestedPage symbol digest = .ok parsed) :
    Consistent parsed requestedPage := by
  simp only [parseXstocksHistoryPage, bind_eq_ok, require_eq_ok, exists_unit, pure_eq_ok] at h
  obtain ⟨root, -, pagination, -, currentPage, -, pageSize, -, totalPages,
    -, totalNodes, -, hasNextPage, -,
    hasPreviousPage, -, hconsistent, -, nodes, -, -, records, -, -, rfl⟩ := h
  exact hconsistent

/-- A page that is admitted follows those before it. -/
theorem Turned.snoc (h : Turned pages) (hparsed : Consistent parsed (pages.length + 1))
    (hchecked : admitPage pages pageSignatures parsed = .ok ()) : Turned (pages ++ [parsed]) := by
  simp only [admitPage, bind_eq_ok, require_eq_ok, exists_unit] at hchecked
  obtain ⟨-, hsame⟩ := hchecked
  constructor
  · intro i p hp
    rcases Nat.lt_trichotomy i pages.length with hlt | rfl | hgt
    · rw [List.getElem?_append_left hlt] at hp
      exact h.numbered i p hp
    · rw [List.getElem?_concat_length] at hp
      cases hp
      exact hparsed
    · rw [List.getElem?_eq_none (by simp; omega)] at hp
      cases hp
  · cases pages with
    | nil => simp
    | cons first rest =>
      intro q hq p hp
      cases hq
      rcases List.mem_append.mp hp with hp | hp
      · exact h.same first rfl p hp
      · rw [List.mem_singleton.mp hp]
        exact hsame first rfl

/-- **One turn of the page loop**: it fails and keeps the pages it has, or reads a page that follows
them, the last one or one with more to come. -/
theorem readPages_turn (dateParses : String → Bool) (respond : Nat → Fetched) (symbol : String)
    (remaining page : Nat) (pages : List XstocksPage) (pageSignatures : List Text) :
    (∃ code stopped, readPages dateParses respond symbol (remaining + 1) page pages pageSignatures
      = ⟨pages, some code, stopped, [page]⟩) ∨
    ∃ parsed, Consistent parsed page ∧ admitPage pages pageSignatures parsed = .ok () ∧
      ((parsed.hasNextPage = false ∧
        readPages dateParses respond symbol (remaining + 1) page pages pageSignatures
          = ⟨pages ++ [parsed], none, none, [page]⟩) ∨
      readPages dateParses respond symbol (remaining + 1) page pages pageSignatures
        = { readPages dateParses respond symbol remaining (page + 1) (pages ++ [parsed])
              (pageSignature parsed.records :: pageSignatures) with
            requested := page :: (readPages dateParses respond symbol remaining (page + 1)
              (pages ++ [parsed])
                (pageSignature parsed.records :: pageSignatures)).requested }) := by
  simp only [readPages]
  split
  · exact .inl ⟨_, _, rfl⟩
  · split
    · exact .inl ⟨_, _, rfl⟩
    · split
      · split
        · exact .inl ⟨_, _, rfl⟩
        · rename_i parsed hparsed
          simp only [bind_eq_ok, exists_unit, pure_eq_ok] at hparsed
          obtain ⟨parsed', hparse, hchecked, rfl⟩ := hparsed
          refine .inr ⟨parsed', parseXstocksHistoryPage_consistent hparse, hchecked, ?_⟩
          by_cases hlast : parsed'.hasNextPage = false
          · exact .inl ⟨hlast, if_pos hlast⟩
          · exact .inr (if_neg hlast)
      · exact .inl ⟨_, _, rfl⟩

/-- A loop that came to its end has turned every page. -/
structure Finished (pages : List XstocksPage) : Prop extends Turned pages where
  last : ∃ p ∈ pages.getLast?, p.hasNextPage = false

/-- The loop ends without a failure only after the last page. -/
theorem readPages_finished (hturned : Turned pages) (hpage : page = pages.length + 1)
    (h : (readPages dateParses respond symbol remaining page pages pageSignatures).historyFailure =
      none) :
    Finished (readPages dateParses respond symbol remaining page pages pageSignatures).pages := by
  induction remaining generalizing page pages pageSignatures with
  | zero => cases h
  | succ remaining ih =>
    rcases readPages_turn dateParses respond symbol remaining page pages pageSignatures with
      ⟨code, stopped, hturn⟩ | ⟨parsed, hparsed, hchecked, ⟨hlast, hturn⟩ | hturn⟩
    · rw [hturn] at h
      cases h
    · rw [hturn]
      subst hpage
      exact ⟨hturned.snoc (by exact_mod_cast hparsed) hchecked, parsed, List.getLast?_concat, hlast⟩
    · rw [hturn] at h ⊢
      subst hpage
      refine ih (hturned.snoc (by exact_mod_cast hparsed) hchecked) ?_ h
      rw [List.length_append, List.length_singleton]

/-- **The loop ends**: no more pages are asked for than there may be, in order. -/
theorem readPages_requested (dateParses : String → Bool) (respond : Nat → Fetched) (symbol : String)
    (remaining page : Nat) (pages : List XstocksPage) (pageSignatures : List Text) :
    ∃ n ≤ remaining,
      (readPages dateParses respond symbol remaining page pages pageSignatures).requested
      = List.range' page n := by
  induction remaining generalizing page pages pageSignatures with
  | zero => exact ⟨0, Nat.le_refl 0, rfl⟩
  | succ remaining ih =>
    rcases readPages_turn dateParses respond symbol remaining page pages pageSignatures with
      ⟨code, stopped, hturn⟩ | ⟨parsed, -, -, ⟨-, hturn⟩ | hturn⟩
    · exact ⟨1, Nat.le_add_left 1 remaining, by rw [hturn]; rfl⟩
    · exact ⟨1, Nat.le_add_left 1 remaining, by rw [hturn]; rfl⟩
    · obtain ⟨n, hle, hrest⟩ := ih (page + 1) (pages ++ [parsed])
        (pageSignature parsed.records :: pageSignatures)
      refine ⟨n + 1, Nat.succ_le_succ hle, ?_⟩
      rw [hturn, List.range'_succ]
      exact congrArg (page :: ·) hrest

/-! ## Completeness -/

/-- The pages are the pages 1 to P of one pagination. -/
def OnePagination (pages : List XstocksPage) : Prop :=
  ∃ totalNodes pageSize : Int, ∀ (i : Nat) p, pages[i]? = some p →
    p.currentPage = i + 1 ∧ p.totalPages = pages.length ∧ p.totalNodes = totalNodes ∧
      p.pageSize = pageSize

/-- The reduced records are as many revisions as the issuer says there are. -/
def NothingLost (pages : List XstocksPage) (reduced : ReducedRevisions) : Prop :=
  ∃ first ∈ pages.head?, ((reduced.records.map pair).toFinset.card : Int) = first.totalNodes

/-- The pages it has read are of one pagination. -/
theorem Finished.onePagination (h : Finished pages) : OnePagination pages := by
  obtain ⟨last, hlast, hend⟩ := h.last
  cases pages with
  | nil => cases hlast
  | cons first rest =>
    have hindex : (first :: rest)[(first :: rest).length - 1]? = some last := by
      rw [← List.getLast?_eq_getElem?]
      exact hlast
    obtain ⟨hcurrent, -, -, -, -, hnext, -, hle⟩ := h.numbered _ last hindex
    have hmem : last ∈ first :: rest := List.mem_of_getElem? hindex
    have htotal := (h.same first rfl last hmem).1
    have hstop : ¬ last.currentPage < last.totalPages := fun hlt => by
      rw [hnext.mpr hlt] at hend
      cases hend
    refine ⟨first.totalNodes, first.pageSize, fun i p hp => ?_⟩
    obtain ⟨hp1, -⟩ := h.numbered i p hp
    obtain ⟨hp2, hp3, hp4⟩ := h.same first rfl p (List.mem_of_getElem? hp)
    refine ⟨hp1, ?_, hp3, hp4⟩
    rw [List.length_cons] at *
    omega

/-- The kept records have different pairs. -/
theorem nodup_pairs_firsts (l : List XstocksEventRevision) :
    ((Record.firsts key l).values.map pair).Nodup := by
  have hkeys : (Record.firsts key l).values.map key =
      (Record.firsts key l).entries.map Prod.fst := by
    rw [Record.values, List.map_map]
    refine List.map_congr_left fun e he => ?_
    exact (Record.key_of_get?_firsts key (Record.get?_of_mem he)).2
  have hnodup : ((Record.firsts key l).values.map key).Nodup := hkeys ▸ (Record.firsts key l).nodup
  rw [List.nodup_map_iff_inj_on hnodup.of_map]
  intro a ha b hb hpair
  exact List.inj_on_of_nodup_map hnodup ha hb (key_eq_iff.mpr hpair)

/-- A key is an event and a version. -/
theorem nodup_keys_iff {l : List XstocksEventRevision} : (l.map key).Nodup ↔
    (l.map pair).Nodup := by
  simp only [List.Nodup, List.pairwise_map, ne_eq, key_eq_iff]

/-- As many revisions are kept as there are records exactly if none is listed twice. -/
theorem card_pairs_eq_length {l : List XstocksEventRevision} {reduced : ReducedRevisions}
    (h : reduceXstocksRevisions l = .ok reduced) :
    (reduced.records.map pair).toFinset.card = l.length ↔ (l.map pair).Nodup := by
  have hrecords : reduced.records = (Record.firsts key l).values := by
    rw [reduceXstocksRevisions_eq] at h
    split at h
    · obtain rfl := Except.ok.inj h
      exact revisions_eq l
    · cases h
  rw [hrecords, List.toFinset_card_of_nodup (nodup_pairs_firsts l), List.length_map, Record.values,
    List.length_map, Record.length_firsts, nodup_keys_iff]

/-- An observed history is one that was read without a failure. -/
theorem corporateActions_eq_observed {loop : PageLoop} {registry : Registry} {asset : SelectedAsset}
    {reduced : ReducedRevisions} (h : corporateActions loop registry asset = .observed reduced) :
    loop.historyFailure = none ∧
      (∃ first ∈ loop.pages.head?,
        ((loop.pages.flatMap XstocksPage.records).length : Int) = first.totalNodes) ∧
      reduceXstocksRevisions (loop.pages.flatMap XstocksPage.records) = .ok reduced := by
  rw [corporateActions] at h
  split at h
  · split at h
    · cases h
    · split at h <;> cases h
  · rename_i hnone
    split at h
    · rename_i reduced' hreduced
      cases h
      simp only [bind_eq_ok, require_eq_ok, exists_unit, reduceHistory, pure_eq_ok] at hreduced
      obtain ⟨hcount, _, hreduce, -, rfl⟩ := hreduced
      exact ⟨hnone, hcount, hreduce⟩
    · cases h

/-- What an observed history comes from: the page loop of that asset. -/
theorem readAsset_observed {registryResponse : Fetched} {asset : SelectedAsset}
    {reduced : ReducedRevisions}
    (h : (readAsset dateParses registryResponse respond maxPages asset).1.corporateActions =
      .observed reduced) :
    ∃ registry,
      corporateActions (readPages dateParses respond asset.symbol maxPages 1 [] []) registry asset
      = .observed reduced := by
  simp only [readAsset] at h
  split at h
  · cases h
  · split at h
    · cases h
    · split at h
      · cases h
      · split at h
        · cases h
        · rename_i registry _
          exact ⟨registry, h⟩

theorem readAsset_asset {registryResponse : Fetched} {asset : SelectedAsset} :
    (readAsset dateParses registryResponse respond maxPages asset).1.asset = asset := by
  simp only [readAsset]
  split
  · rfl
  · split
    · rfl
    · split
      · rfl
      · split <;> rfl

/-- An observation is of the asset at its place. -/
theorem readAssets_observed {registryResponse : Nat → Fetched} {responses : Nat → Nat → Fetched}
    {index i : Nat} {assets : List SelectedAsset} {observation : AssetObservation}
    {reduced : ReducedRevisions}
    (h : (readAssets dateParses registryResponse responses maxPages index assets)[i]? =
      some observation)
    (hobserved : observation.corporateActions = .observed reduced) :
    ∃ registry, corporateActions
      (readPages dateParses (responses (index + i)) observation.asset.symbol maxPages 1 [] [])
        registry
      observation.asset = .observed reduced := by
  induction assets generalizing index i with
  | nil => simp [readAssets] at h
  | cons asset rest ih =>
    have hfirst : ∀ {observation},
        (readAsset dateParses (registryResponse index) (responses index) maxPages
        asset).1 = observation → observation.corporateActions = .observed reduced →
        ∃ registry, corporateActions
          (readPages dateParses (responses index) observation.asset.symbol maxPages 1 [] [])
            registry
          observation.asset = .observed reduced := by
      rintro _ rfl hobserved
      rw [readAsset_asset]
      exact readAsset_observed hobserved
    rw [readAssets] at h
    split at h
    · rename_i first code hread
      cases i with
      | zero =>
        cases h
        exact hfirst (congrArg Prod.fst hread) hobserved
      | succ i =>
        -- what was skipped was not observed
        rw [List.getElem?_cons_succ, List.getElem?_map] at h
        obtain ⟨asset', -, rfl⟩ := Option.map_eq_some_iff.mp h
        cases hobserved
    · rename_i first hread
      cases i with
      | zero =>
        cases h
        exact hfirst (congrArg Prod.fst hread) hobserved
      | succ i =>
        rw [List.getElem?_cons_succ] at h
        rw [← Nat.add_assoc, Nat.add_right_comm]
        exact ih h

end Parse

/-- The history of an asset as it was read: all pages of one pagination, and nothing lost. -/
structure Complete (loop : PageLoop) (reduced : ReducedRevisions) : Prop where
  pagination : OnePagination loop.pages
  nothingLost : NothingLost loop.pages reduced

/-- The page loop of an asset of `readXstocks`. -/
def historyOf (dateParses : String → Bool) (responses : Nat → Nat → Fetched) (maxPages : Option Nat)
    (index : Nat) (symbol : String) : PageLoop :=
  readPages dateParses (responses index) symbol (maxPages.getD XSTOCKS_MAX_PAGES) 1 [] []

/-- **Completeness**: whatever the responses are, no more pages are asked for than there may be. A
history that is called fully fetched is complete exactly if no revision is listed twice in its
pages. -/
theorem readXstocks_complete_iff {dateParses : String → Bool} {assets : List SelectedAsset}
    {registryResponse : Nat → Fetched} {responses : Nat → Nat → Fetched} {maxPages : Option Nat}
    {observations : List AssetObservation}
    (h : readXstocks dateParses assets registryResponse responses maxPages = .ok observations) :
    (∀ index symbol, (historyOf dateParses responses maxPages index symbol).requested.length
      ≤ maxPages.getD XSTOCKS_MAX_PAGES) ∧
    ∀ index observation reduced, observations[index]? = some observation →
      observation.corporateActions = .observed reduced →
      (Complete (historyOf dateParses responses maxPages index observation.asset.symbol) reduced ↔
        (((historyOf dateParses responses maxPages index observation.asset.symbol).pages.flatMap
          XstocksPage.records).map pair).Nodup) := by
  constructor
  · intro index symbol
    obtain ⟨n, hle, hrequested⟩ := readPages_requested dateParses (responses index) symbol
      (maxPages.getD XSTOCKS_MAX_PAGES) 1 [] []
    rw [historyOf, hrequested, List.length_range']
    exact hle
  · intro index observation reduced hget hobserved
    simp only [readXstocks, bind_eq_ok, require_eq_ok, exists_unit, pure_eq_ok] at h
    obtain ⟨-, rfl⟩ := h
    obtain ⟨registry, hactions⟩ := readAssets_observed hget hobserved
    rw [Nat.zero_add] at hactions
    change corporateActions
      (historyOf dateParses responses maxPages index observation.asset.symbol) _ _ = _
      at hactions
    obtain ⟨hnone, ⟨first, hfirst, hcount⟩, hreduce⟩ := corporateActions_eq_observed hactions
    rw [← card_pairs_eq_length hreduce]
    have hstart : Turned [] := ⟨fun i p hp => by simp at hp, fun p hp => by simp at hp⟩
    have hfinished := readPages_finished hstart rfl hnone
    constructor
    · rintro ⟨-, first', hfirst', hcard⟩
      cases Option.mem_unique hfirst hfirst'
      exact_mod_cast hcard.trans hcount.symm
    · intro hcard
      exact ⟨hfinished.onePagination, first, hfirst, by rw [hcard, hcount]⟩

namespace Sample

/-- The asset of the sample history. -/
def asset : SelectedAsset := ⟨.xstocks, "KOx", "KO", "mint"⟩

/-- Its registry entry. -/
def registryEntry : JsonValue :=
  .object [("id", .string "1"), ("symbol", .string "KOx"), ("isin", .string "CH1"),
    ("underlying", .null), ("isTradingHalted", .bool false),
    ("deployments", .array [.object [("network", .string "Solana"), ("address", .string "mint")]])]

/-- A node of its history. -/
def node (eventId : String) : JsonValue :=
  .object [("xstockSymbol", .string "KOx"), ("spvSymbol", .string "KO"),
    ("xstockIsin", .string "CH1"),
    ("spvIsin", .string "US1"), ("eventId", .string eventId), ("version", .number 1),
    ("caType", .string "CashDividend"), ("status", .string "Initial"),
    ("multiplierOld", .string "1.018"), ("multiplierNew", .string "1.022"),
    ("createdTimeUtc", .string "2026-09-14T22:00:00Z"),
      ("effectiveTimeUtc", .string "2026-09-15T00:00:00Z"),
    ("grossCashflowUsd", .string "0.51"), ("netCashflowUsd", .null), ("withholdingTaxRate", .null),
    ("fromUnits", .null), ("toUnits", .null), ("redemptionPriceUsd", .null), ("notes", .null)]

/-- A page of two of the three records the issuer says there are. -/
def page (current : Nat) (nodes : List JsonValue) : Fetched :=
  .answered 200 (some "sha256") none (some (.object
    [("page",
      .object [("currentPage", .number current), ("pageSize", .number 2), ("totalPages", .number 2),
      ("totalNodes", .number 3), ("hasNextPage", .bool (current = 1)),
        ("hasPreviousPage", .bool (current = 2))]),
     ("nodes", .array nodes)]))

/-- The history in two pages. -/
def history (index : Nat) : Fetched :=
  if index = 1 then page 1 [node "a", node "b"] else page 2 [node "c"]

/-- The same after the pages have shifted by one: the last record is seen again, and one is not
seen. -/
def shifted (index : Nat) : Fetched :=
  if index = 1 then page 1 [node "a", node "b"] else page 2 [node "b"]

/-- What is read of the sample asset. -/
def observe (respond : Nat → Fetched) : Read (List AssetObservation) :=
  readXstocks (fun _ => true) [asset]
    (fun _ => .answered 200 (some "sha256") none (some registryEntry))
    (fun _ => respond) none

/-- The asset and its history, if that is called fully fetched. -/
def observed? (respond : Nat → Fetched) : Option (SelectedAsset × ReducedRevisions) :=
  match observe respond with
  | .ok [⟨asset, _, .observed reduced⟩] => some (asset, reduced)
  | _ => none

theorem observed_iff {respond : Nat → Fetched} {asset : SelectedAsset} {reduced : ReducedRevisions}
    (h : observed? respond = some (asset, reduced)) :
    ∃ registry, observe respond = .ok [⟨asset, registry, .observed reduced⟩] := by
  rw [observed?] at h
  split at h
  · rename_i asset' registry reduced' hread
    cases h
    exact ⟨registry, hread⟩
  · cases h

end Sample

/-- The sample history is complete. -/
theorem readXstocks_complete_iff_sample :
    ∃ reduced,
      (∃ registry,
        Sample.observe Sample.history = .ok [⟨Sample.asset, registry, .observed reduced⟩]) ∧
      Complete (historyOf (fun _ => true) (fun _ => Sample.history) none 0 "KOx") reduced := by
  have hasset : (Sample.observed? Sample.history).map Prod.fst = some Sample.asset := by
    decide +kernel
  obtain ⟨⟨_, reduced⟩, hobserved, rfl⟩ := Option.map_eq_some_iff.mp hasset
  obtain ⟨registry, hread⟩ := Sample.observed_iff hobserved
  have hdistinct :
      (((historyOf (fun _ => true) (fun _ => Sample.history) none 0 "KOx").pages.flatMap
      XstocksPage.records).map pair).Nodup := by
    decide +kernel
  exact ⟨reduced, ⟨registry, hread⟩,
    ((readXstocks_complete_iff hread).2 0 _ reduced rfl rfl).mpr hdistinct⟩

/-- The shifted history is called fully fetched, but one of its three records is not there. -/
theorem readXstocks_overlap :
    ∃ reduced,
      (∃ registry,
        Sample.observe Sample.shifted = .ok [⟨Sample.asset, registry, .observed reduced⟩]) ∧
      ¬ Complete (historyOf (fun _ => true) (fun _ => Sample.shifted) none 0 "KOx") reduced := by
  have hread :
      ((Sample.observed? Sample.shifted).map fun o => (o.1, (o.2.records.map pair).toFinset.card))
      = some (Sample.asset, 2) := by
    decide +kernel
  obtain ⟨⟨_, reduced⟩, hobserved, hsame⟩ := Option.map_eq_some_iff.mp hread
  obtain ⟨rfl, htwo⟩ := Prod.mk.inj hsame
  refine ⟨reduced, Sample.observed_iff hobserved, ?_⟩
  rintro ⟨-, first, hfirst, hcard⟩
  have hthree : (historyOf (fun _ => true) (fun _ => Sample.shifted) none 0 "KOx").pages.head?.map
      XstocksPage.totalNodes = some 3 := by
    decide +kernel
  rw [hfirst, Option.map_some] at hthree
  rw [Option.some.inj hthree, show (reduced.records.map pair).toFinset.card = 2 from htwo] at hcard
  cases hcard

end Issuer

end DividendX
