import DividendX.Sdk.DemoCalls
import DividendX.Lib.Json

/-!
# Sessions of the demo

What one call can do to a client (`Effect`), and from it what holds after any sequence of calls. The
version of the state goes up with every change of it, so a quote whose version is still the current
one was given in the very state it is taken in; and a quote id carries a number that is never used
again, so a quote that was taken stays taken.
-/

namespace DividendX

namespace Demo

open Method

variable {catalog : Catalog} {initial : DemoState} {c c' : Client} {operation : Operation}
  {answer : Except Failure Returned}

/-! ## What a call can do -/

/-- Calls that only read. -/
def Operation.reads : Operation → Bool
  | .getState | .preview .. | .previewRedemption .. => true
  | _ => false

/-- Calls that are answered by a receipt, sales apart. -/
def Operation.posts : Operation → Bool
  | .deposit .. | .closeDeposits .. | .settle .. | .redeem .. | .recombine .. => true
  | _ => false

/-- What they return. -/
def Returned.reading : Returned → Bool
  | .state _ | .allocation _ | .payout _ => true
  | _ => false

/-- What a call can do: the answer it gives and the client it leaves. -/
inductive Effect (catalog : Catalog) (initial : DemoState) (c : Client) :
    Operation → Except Failure Returned → Client → Prop
  | refused {operation : Operation} {e : Failure} {c' : Client} (notReset : operation ≠ .reset)
      (state : c'.state = c.state) (quoteCounter : c'.quoteCounter = c.quoteCounter)
      (quotes : ∀ {id q}, c'.quotes.get? id = some q → c.quotes.get? id = some q) :
      Effect catalog initial c operation (.error e) c'
  | answered {operation : Operation} {a : Returned} (reads : operation.reads = true)
      (reading : a.reading = true) : Effect catalog initial c operation (.ok a) c
  | quoted {seriesId : String} {drRaw usdcTotalRaw now : Int} {q : SaleQuote}
      (id : q.id = quoteId c.generation (c.quoteCounter + 1))
      (terms : q.seriesId = seriesId ∧ q.drRaw = drRaw ∧ q.usdcTotalRaw = usdcTotalRaw)
      (version : q.version = c.state.version) (expiry : q.expiresAt = now + QUOTE_TTL_MS) :
      Effect catalog initial c (.quoteSale seriesId drRaw usdcTotalRaw now) (.ok (.quote q))
        { c with quoteCounter := c.quoteCounter + 1, quotes := c.quotes.set q.id q }
  | posted {operation : Operation} {r : DemoReceipt} {c' : Client} (posts : operation.posts = true)
      (posted : Posted catalog initial c r c') :
      Effect catalog initial c operation (.ok (.receipt r)) c'
  | sold {quoteId : String} {now stamp : Int} {quote : SaleQuote} {r : DemoReceipt} {c' : Client}
      (posted : Posted catalog initial c r c') (sold : Sold c quoteId now quote r c') :
      Effect catalog initial c (.acceptSale quoteId false now stamp) (.ok (.receipt r)) c'
  | conditioned {text : String} {condition : DemoCondition} :
      Effect catalog initial c (.setCondition text) (.ok .nothing)
        { c with state := { c.state with condition := condition, version := c.state.version + 1 } }
  | reset : Effect catalog initial c .reset (.ok .nothing)
      { c with generation := c.generation + 1, quotes := ∅, state := initial }

theorem Effect.of_settles {α : Type} {m : Operate α} {f : α → Returned} {R : α → Client → Prop}
    (hreset : operation ≠ .reset) (hm : Settles c m c R)
    (hok : ∀ a c', R a c' → Effect catalog initial c operation (.ok (f a)) c') :
    Effect catalog initial c operation ((m >>= fun a => pure (f a)) c).1
      ((m >>= fun a => pure (f a)) c).2 := by
  simp only [bind]
  cases hresult : m c with
  | mk r c' =>
    cases r with
    | ok a => exact hok a c' (hm.of_ok hresult)
    | error e =>
      obtain rfl := hm.of_error hresult
      exact .refused hreset rfl rfl id

theorem Effect.of_check {α : Type} {x : Thrown α} {f : α → Returned}
    (hreads : operation.reads = true) (hreading : ∀ a, (f a).reading = true) :
    Effect catalog initial c operation
      ((check x >>= fun a => pure (f a) : Operate Returned) c).1
      ((check x >>= fun a => pure (f a) : Operate Returned) c).2 := by
  cases x with
  | ok a => exact .answered hreads (hreading a)
  | error e =>
    refine .refused (fun hreset => ?_) rfl rfl id
    rw [hreset] at hreads
    cases hreads

theorem quoteSale_settles {seriesId : String} {drRaw usdcTotalRaw now : Int} :
    Settles c (quoteSale seriesId drRaw usdcTotalRaw now) c fun q c' =>
      Effect catalog initial c (.quoteSale seriesId drRaw usdcTotalRaw now)
        (.ok (.quote q)) c' := by
  refine .this (.check fun _ _ => .check fun _ _ => .check fun _ _ => .check fun _ _ =>
    .check fun _ _ => .check fun _ _ => .check fun _ _ => .assign (.this (.assign (.pure ?_))))
  exact .quoted rfl ⟨rfl, rfl, rfl⟩ rfl rfl

/-- **One call.** -/
theorem Operation.effect (hcatalog : catalog.Sound)
    (hinitial : makeInitialState catalog = .ok initial)
    (h : Books catalog initial c.state) (operation : Operation) :
    Effect catalog initial c operation (operation.apply catalog c).1
      (operation.apply catalog c).2 := by
  cases operation with
  | getState => exact .answered rfl rfl
  | preview assetId stockAmount => exact .of_check rfl fun _ => rfl
  | previewRedemption seriesId walletId side claimRaw => exact .of_check rfl fun _ => rfl
  | deposit assetId stockAmount now =>
    exact .of_settles (by simp) (deposit_settles hcatalog h) fun _ _ => .posted rfl
  | quoteSale seriesId drRaw usdcTotalRaw now =>
    exact .of_settles (by simp) quoteSale_settles fun _ _ heffect => heffect
  | acceptSale quoteId reject now stamp =>
    cases reject with
    | true =>
      -- the quote is dropped before the refusal
      refine .refused (by simp) rfl rfl fun {id q} hget => ?_
      have hkept : (c.dropQuote quoteId).quotes.get? id = some q := hget
      rw [Client.dropQuote, Record.get?_filter] at hkept
      exact (Option.filter_eq_some_iff.mp hkept).1
    | false =>
      refine .of_settles (by simp) (acceptSale_settles h) fun r c' hr => ?_
      obtain ⟨hposted, quote, hsold⟩ := hr
      exact .sold hposted hsold
  | closeDeposits seriesId now =>
    exact .of_settles (by simp) (closeDeposits_settles h) fun _ _ => .posted rfl
  | settle seriesId now =>
    exact .of_settles (by simp) (settle_settles h) fun _ _ => .posted rfl
  | redeem seriesId walletId side claimRaw now =>
    exact .of_settles (by simp) (redeem_settles h) fun _ _ => .posted rfl
  | recombine seriesId walletId claimRaw now =>
    exact .of_settles (by simp) (recombine_settles h) fun _ _ => .posted rfl
  | setCondition text =>
    have hsettles : Settles c (Demo.setCondition text) c fun _ c' =>
        Effect catalog initial c (.setCondition text) (.ok .nothing) c' :=
      .check fun condition _ => .assign (.done .conditioned)
    exact .of_settles (by simp) hsettles fun _ _ heffect => heffect
  | reset =>
    have hreturns : (Operation.reset.apply catalog) c =
        (.ok .nothing,
          { c with generation := c.generation + 1, quotes := ∅, state := initial }) := by
      simp [Operation.apply, Demo.reset, bind, assign, check, hinitial, pure]
    rw [hreturns]
    exact .reset

/-! ## What every call keeps -/

theorem Effect.books (heffect : Effect catalog initial c operation answer c')
    (hinitial : Books catalog initial initial) (h : Books catalog initial c.state) :
    Books catalog initial c'.state := by
  cases heffect with
  | refused _ hstate => rwa [hstate]
  | answered => exact h
  | quoted => exact h
  | posted _ hposted => exact hposted.books
  | sold hposted => exact hposted.books
  | conditioned => exact h.congr rfl rfl
  | reset => exact hinitial

/-- Within a session the state stays as it is, or its version goes up. -/
theorem Effect.state (heffect : Effect catalog initial c operation answer c')
    (hreset : operation ≠ .reset) : c'.state = c.state ∨ c.state.version < c'.state.version := by
  cases heffect with
  | refused _ hstate => exact .inl hstate
  | answered => exact .inl rfl
  | quoted => exact .inl rfl
  | posted _ hposted => exact .inr (hposted.version ▸ Nat.lt_succ_self _)
  | sold hposted => exact .inr (hposted.version ▸ Nat.lt_succ_self _)
  | conditioned => exact .inr (Nat.lt_succ_self _)
  | reset => exact absurd rfl hreset

/-- Receipts are appended, one by each call that returns one; a reset drops them. -/
theorem Effect.receipts (heffect : Effect catalog initial c operation answer c') {r : DemoReceipt}
    (hempty : initial.receipts = []) (hr : r ∈ c'.state.receipts) :
    r ∈ c.state.receipts ∨ answer = .ok (.receipt r) := by
  have happended : ∀ {r'}, Posted catalog initial c r' c' → r ∈ c.state.receipts ∨ r = r' := by
    intro r' hposted
    rw [hposted.receipts, List.mem_append, List.mem_singleton] at hr
    exact hr
  cases heffect with
  | refused _ hstate =>
    rw [hstate] at hr
    exact .inl hr
  | answered => exact .inl hr
  | quoted => exact .inl hr
  | posted _ hposted =>
    rcases happended hposted with hold | rfl
    · exact .inl hold
    · exact .inr rfl
  | sold hposted =>
    rcases happended hposted with hold | rfl
    · exact .inl hold
    · exact .inr rfl
  | conditioned => exact .inl hr
  | reset =>
    dsimp only at hr
    rw [hempty] at hr
    exact absurd hr List.not_mem_nil

/-- A receipt tells what its call has changed. -/
theorem Effect.explains {r : DemoReceipt}
    (heffect : Effect catalog initial c operation (.ok (.receipt r)) c') :
    Explains r.changes c.state c'.state ∧ c'.state.receipts = c.state.receipts ++ [r] := by
  cases heffect with
  | answered _ hreading => cases hreading
  | posted _ hposted => exact ⟨hposted.explains, hposted.receipts⟩
  | sold hposted => exact ⟨hposted.explains, hposted.receipts⟩

/-! ## Quotes -/

theorem toList_quoteId (generation counter : Nat) : (quoteId generation counter).toList =
    ("quote-".toList ++ Json.number generation) ++ '-' :: Json.number counter := by
  simp [quoteId, String.toList_append, Nat.toString_eq_repr, Nat.toList_repr, Json.number]

/-- The counter of a quote can be read off its id. -/
theorem quoteId_counter {g g' n n' : Nat} (h : quoteId g n = quoteId g' n') : n = n' := by
  have hminus : ∀ k, '-' ∉ Json.number k := by
    intro k hmem
    exact absurd (Json.isDigit_of_mem_number hmem) (by decide)
  have htexts := congrArg String.toList h
  rw [toList_quoteId, toList_quoteId] at htexts
  exact Json.number_injective (Json.append_separator_inj (hminus n) (hminus n') htexts).2

/-- Every quote of a client has an id that was numbered. -/
def Numbered (c : Client) : Prop :=
  ∀ {id q}, c.quotes.get? id = some q → ∃ g n, n ≤ c.quoteCounter ∧ id = quoteId g n

/-- An id that no quote has, and none will have. -/
structure Spent (c : Client) (id : String) : Prop where
  absent : c.quotes.get? id = none
  used : ∀ g n, c.quoteCounter < n → quoteId g n ≠ id

/-- A call keeps all quotes or fewer, but for the one that is given. -/
theorem Effect.quotes (heffect : Effect catalog initial c operation answer c') {id : String}
    {q : SaleQuote} (hget : c'.quotes.get? id = some q) :
    (c.quotes.get? id = some q ∧ operation ≠ .reset) ∨ (answer = .ok (.quote q) ∧ q.id = id) := by
  cases heffect with
  | refused hreset _ _ hquotes => exact .inl ⟨hquotes hget, hreset⟩
  | answered hreads =>
    refine .inl ⟨hget, fun hreset => ?_⟩
    rw [hreset] at hreads
    cases hreads
  | quoted =>
    rw [Record.get?_set] at hget
    split at hget
    · rename_i hid
      cases hget
      exact .inr ⟨rfl, hid.symm⟩
    · exact .inl ⟨hget, by simp⟩
  | posted hposts hposted =>
    refine .inl ⟨hposted.quotes hget, fun hreset => ?_⟩
    rw [hreset] at hposts
    cases hposts
  | sold hposted => exact .inl ⟨hposted.quotes hget, by simp⟩
  | conditioned => exact .inl ⟨hget, by simp⟩
  | reset => cases hget

/-- The counter goes up with every quote that is given, and is the number in its id. -/
theorem Effect.quoteCounter (heffect : Effect catalog initial c operation answer c') :
    c.quoteCounter ≤ c'.quoteCounter ∧ ∀ q, answer = .ok (.quote q) →
      ∃ g, q.id = quoteId g c'.quoteCounter ∧ c.quoteCounter < c'.quoteCounter := by
  cases heffect with
  | refused _ _ hcounter => exact ⟨hcounter.ge, fun q hq => nomatch hq⟩
  | answered _ hreading =>
    refine ⟨le_rfl, fun q hq => ?_⟩
    cases hq
    cases hreading
  | quoted hid =>
    refine ⟨Nat.le_succ _, fun q hq => ?_⟩
    cases hq
    exact ⟨_, hid, Nat.lt_succ_self _⟩
  | posted _ hposted => exact ⟨hposted.quoteCounter.ge, fun q hq => nomatch hq⟩
  | sold hposted => exact ⟨hposted.quoteCounter.ge, fun q hq => nomatch hq⟩
  | conditioned => exact ⟨le_rfl, fun q hq => nomatch hq⟩
  | reset => exact ⟨le_rfl, fun q hq => nomatch hq⟩

theorem Effect.numbered (heffect : Effect catalog initial c operation answer c') (h : Numbered c) :
    Numbered c' := by
  intro id q hget
  obtain ⟨hle, hnew⟩ := heffect.quoteCounter
  rcases heffect.quotes hget with ⟨hold, -⟩ | ⟨hanswer, rfl⟩
  · obtain ⟨g, n, hn, hid⟩ := h hold
    exact ⟨g, n, hn.trans hle, hid⟩
  · obtain ⟨g, hid, -⟩ := hnew q hanswer
    exact ⟨g, c'.quoteCounter, le_rfl, hid⟩

/-- Once spent, an id stays spent. -/
theorem Effect.spent (heffect : Effect catalog initial c operation answer c') {id : String}
    (h : Spent c id) : Spent c' id := by
  obtain ⟨hle, hnew⟩ := heffect.quoteCounter
  constructor
  · by_contra hsome
    obtain ⟨q, hget⟩ := Option.ne_none_iff_exists'.mp hsome
    rcases heffect.quotes hget with ⟨hold, -⟩ | ⟨hanswer, rfl⟩
    · rw [h.absent] at hold
      cases hold
    · obtain ⟨g, hid, hlt⟩ := hnew q hanswer
      exact h.used g c'.quoteCounter hlt hid.symm
  · intro g n hn
    exact h.used g n (hle.trans_lt hn)

/-- A sale spends its quote. -/
theorem Effect.spent_of_sale {quoteId : String} {reject : Bool} {now stamp : Int} {a : Returned}
    (heffect : Effect catalog initial c (.acceptSale quoteId reject now stamp) (.ok a) c')
    (h : Numbered c) : Spent c' quoteId ∧ ∃ r quote, a = .receipt r ∧ Posted catalog initial c r c'
      ∧ Sold c quoteId now quote r c' := by
  cases heffect with
  | answered hreads => cases hreads
  | posted hposts => cases hposts
  | @sold _ _ _ quote r _ hposted hsold =>
    refine ⟨⟨hsold.spent, fun g n hn hid => ?_⟩, r, quote, rfl, hposted, hsold⟩
    obtain ⟨g', n', hle, hid'⟩ := h hsold.quoted
    have hsame := quoteId_counter (hid.trans hid')
    rw [hposted.quoteCounter] at hn
    omega

/-! ## Runs -/

theorem books_initial (h : makeInitialState catalog = .ok initial) :
    Books catalog initial initial ∧ initial.receipts = [] := by
  simp only [makeInitialState, Result.bind_eq_ok, Result.pure_eq_ok] at h
  obtain ⟨filled, -, usdc, -, rfl⟩ := h
  have hclaims : ∀ walletId id side, DemoState.balance
      { version := 0, condition := .ready, series := ∅, receipts := []
        wallets := { seller := { collateral := filled.1, usdc := 0, claims := ∅ }
                     buyer := { collateral := filled.2, usdc := usdc, claims := ∅ } } }
      (.claims walletId id side) = 0 := by
    intro walletId id side
    cases walletId <;> cases side <;> rfl
  refine ⟨⟨fun hget => ?_, fun _ walletId side => hclaims walletId _ side,
    fun walletId id side => (hclaims walletId id side).ge, fun _ => rfl, rfl⟩, rfl⟩
  cases hget

/-- A client as it is made, over fixtures that were accepted. -/
structure Began (catalog : Catalog) (initial : DemoState) (client₀ : Client) : Prop where
  sound : catalog.Sound
  made : makeInitialState catalog = .ok initial
  state : client₀.state = initial
  quotes : client₀.quotes = ∅

theorem began_of_createDemoClient {assets : List AssetDescriptor} {events : List EventDescriptor}
    {client₀ : Client} (h : createDemoClient assets events = .ok client₀) :
    Began (Catalog.of assets events) client₀.state client₀ := by
  simp only [createDemoClient, Result.bind_eq_ok, Result.exists_unit, Result.pure_eq_ok] at h
  obtain ⟨hvalid, state, hstate, rfl⟩ := h
  exact ⟨sound_of_validateFixtures hvalid, hstate, rfl, rfl⟩

theorem Client.afterAll_concat (c : Client) (operations : List Operation) (operation : Operation) :
    c.afterAll catalog (operations ++ [operation]) =
      (operation.apply catalog (c.afterAll catalog operations)).2 := by
  simp [Client.afterAll, List.foldl_append]

namespace Began

variable {client₀ : Client}

theorem books (h : Began catalog initial client₀) (operations : List Operation) :
    Books catalog initial (client₀.afterAll catalog operations).state := by
  induction operations using List.reverseRecOn with
  | nil =>
    rw [Client.afterAll, List.foldl_nil, h.state]
    exact (books_initial h.made).1
  | append_singleton operations operation ih =>
    rw [Client.afterAll_concat]
    exact (operation.effect h.sound h.made ih).books (books_initial h.made).1 ih

/-- **One call of a run.** -/
theorem effect (h : Began catalog initial client₀) (operations : List Operation)
    (operation : Operation) :
    Effect catalog initial (client₀.afterAll catalog operations) operation
      (operation.apply catalog (client₀.afterAll catalog operations)).1
      (client₀.afterAll catalog (operations ++ [operation])) := by
  rw [Client.afterAll_concat]
  exact operation.effect h.sound h.made (h.books operations)

theorem numbered (h : Began catalog initial client₀) (operations : List Operation) :
    Numbered (client₀.afterAll catalog operations) := by
  induction operations using List.reverseRecOn with
  | nil =>
    intro id q hget
    rw [Client.afterAll, List.foldl_nil, h.quotes] at hget
    cases hget
  | append_singleton operations operation ih => exact (h.effect operations operation).numbered ih

/-- Within a session the state is what it was, or its version is higher. -/
theorem session (h : Began catalog initial client₀) (earlier later : List Operation)
    (hreset : Operation.reset ∉ later) :
    (client₀.afterAll catalog (earlier ++ later)).state = (client₀.afterAll catalog earlier).state
      ∨ (client₀.afterAll catalog earlier).state.version <
        (client₀.afterAll catalog (earlier ++ later)).state.version := by
  induction later using List.reverseRecOn with
  | nil =>
    rw [List.append_nil]
    exact .inl rfl
  | append_singleton later operation ih =>
    rw [List.mem_append, List.mem_singleton, not_or] at hreset
    have hstep := (h.effect (earlier ++ later) operation).state (Ne.symm hreset.2)
    rw [← List.append_assoc]
    rcases ih hreset.1 with hsame | hlt
    · rw [← hsame]
      exact hstep
    · rcases hstep with hsame | hlt'
      · rw [hsame]
        exact .inr hlt
      · exact .inr (hlt.trans hlt')

/-- What is spent after some calls is spent after all. -/
theorem spent (h : Began catalog initial client₀) {earlier : List Operation}
    (later : List Operation)
    {id : String}
    (hspent : Spent (client₀.afterAll catalog earlier) id) :
    Spent (client₀.afterAll catalog (earlier ++ later)) id := by
  induction later using List.reverseRecOn with
  | nil => rwa [List.append_nil]
  | append_singleton later operation ih =>
    rw [← List.append_assoc]
    exact (h.effect (earlier ++ later) operation).spent ih

/-- **Every quote a client has was given** in the session it is in. -/
theorem quoted (h : Began catalog initial client₀) (operations : List Operation)
    {id : String} {q : SaleQuote}
    (hget : (client₀.afterAll catalog operations).quotes.get? id = some q) :
    ∃ earlier operation later, operations = earlier ++ operation :: later
      ∧ (operation.apply catalog (client₀.afterAll catalog earlier)).1 = .ok (.quote q)
      ∧ Operation.reset ∉ later ∧ q.id = id := by
  induction operations using List.reverseRecOn with
  | nil =>
    rw [Client.afterAll, List.foldl_nil, h.quotes] at hget
    cases hget
  | append_singleton operations operation ih =>
    rcases (h.effect operations operation).quotes hget with ⟨hold, hreset⟩ | ⟨hanswer, hid⟩
    · obtain ⟨earlier, asked, later, rfl, hquote, hlater, hid⟩ := ih hold
      refine ⟨earlier, asked, later ++ [operation], by simp, hquote, ?_, hid⟩
      rw [List.mem_append, List.mem_singleton, not_or]
      exact ⟨hlater, Ne.symm hreset⟩
    · exact ⟨operations, operation, [], rfl, hanswer, List.not_mem_nil, hid⟩

/-- **Every receipt of a state** was returned by a call and tells what it has changed. -/
theorem receipts (h : Began catalog initial client₀) (operations : List Operation) {r : DemoReceipt}
    (hr : r ∈ (client₀.afterAll catalog operations).state.receipts) :
    ∃ earlier operation later, operations = earlier ++ operation :: later
      ∧ (operation.apply catalog (client₀.afterAll catalog earlier)).1 = .ok (.receipt r)
      ∧ Explains r.changes (client₀.afterAll catalog earlier).state
        (client₀.afterAll catalog (earlier ++ [operation])).state := by
  have hempty := (books_initial h.made).2
  induction operations using List.reverseRecOn with
  | nil =>
    rw [Client.afterAll, List.foldl_nil, h.state, hempty] at hr
    exact absurd hr List.not_mem_nil
  | append_singleton operations operation ih =>
    have heffect := h.effect operations operation
    rcases heffect.receipts hempty hr with hold | hanswer
    · obtain ⟨earlier, asked, later, rfl, hfound⟩ := ih hold
      exact ⟨earlier, asked, later ++ [operation], by simp, hfound⟩
    · rw [hanswer] at heffect
      exact ⟨operations, operation, [], rfl, hanswer, heffect.explains.1⟩

end Began

/-- A quote that was given in this session, in the state it has come to after `operations`. -/
def QuotedHere (catalog : Catalog) (client₀ : Client) (operations : List Operation)
    (quote : SaleQuote) : Prop :=
  ∃ earlier seriesId drRaw usdcTotalRaw time later,
    operations = earlier ++ .quoteSale seriesId drRaw usdcTotalRaw time :: later
    ∧ ((Operation.quoteSale seriesId drRaw usdcTotalRaw time).apply catalog
        (client₀.afterAll catalog earlier)).1 = .ok (.quote quote)
    ∧ Operation.reset ∉ later
    ∧ (client₀.afterAll catalog earlier).state = (client₀.afterAll catalog operations).state
    ∧ quote.seriesId = seriesId ∧ quote.drRaw = drRaw ∧ quote.usdcTotalRaw = usdcTotalRaw
    ∧ quote.expiresAt = time + QUOTE_TTL_MS

theorem Began.quotedHere {client₀ : Client} (h : Began catalog initial client₀)
    (operations : List Operation) {id : String} {q : SaleQuote}
    (hget : (client₀.afterAll catalog operations).quotes.get? id = some q)
    (hversion : q.version = (client₀.afterAll catalog operations).state.version) :
    QuotedHere catalog client₀ operations q ∧ q.id = id := by
  obtain ⟨earlier, operation, later, rfl, hanswer, hlater, hid⟩ := h.quoted operations hget
  have heffect := h.effect earlier operation
  have hsession := h.session (earlier ++ [operation]) later hlater
  rw [List.append_assoc, List.singleton_append] at hsession
  rw [hanswer] at heffect
  generalize hnext : client₀.afterAll catalog (earlier ++ [operation]) = next at heffect hsession
  cases heffect with
  | answered _ hreading => cases hreading
  | @quoted seriesId drRaw usdcTotalRaw time _ _ hterms hgiven hexpiry =>
    refine ⟨⟨earlier, seriesId, drRaw, usdcTotalRaw, time, later, rfl,
      hanswer, hlater, ?_, hterms.1, hterms.2.1, hterms.2.2, hexpiry⟩, hid⟩
    rcases hsession with hsame | hlt
    · exact hsame.symm
    · rw [← hversion, hgiven] at hlt
      exact absurd hlt (lt_irrefl _)

/-- **The demo client conserves.** Over any fixtures it accepts, after any calls:

* of every asset, the wallets' collateral and what its series account for add up to what they did at
  first, and so does all test USDC;
* the supplies of a series are the sums of the wallets' claims; while it is open or closed both are
  its accounted collateral, and a closed one can be settled in ready condition; once it is settled,
  each pool is what it was less the floor of the burned share, and together they are the accounted
  collateral;
* every receipt, and every receipt the next call returns, tells exactly what its call has changed;
* a call that throws leaves the state as it was;
* a sale takes a quote that was given in this very state, in time, for what was quoted, and no call
  has taken it before.
-/
theorem demo_client_conserves {assets : List AssetDescriptor} {events : List EventDescriptor}
    {client₀ : Client} (h : createDemoClient assets events = .ok client₀)
    (operations : List Operation) (c : Client)
    (hc : c = client₀.afterAll (Catalog.of assets events) operations) :
    (∀ assetId, c.state.totalOf assetId = client₀.state.totalOf assetId)
    ∧ c.state.totalUsdc = client₀.state.totalUsdc
    ∧ (∀ id series, c.state.series.get? id = some series →
      (∀ side, series.supply side = c.state.balance (.claims .seller id side)
        + c.state.balance (.claims .buyer id side))
      ∧ (series.phase = .open ∨ series.phase = .closed →
        ∀ side, series.accountedCollateralRaw = series.supply side)
      ∧ (series.phase = .closed → c.state.condition = .ready →
        ∀ now, ∃ r c', settle (Catalog.of assets events) id now c = (.ok r, c'))
      ∧ (series.phase = .settled ∨ series.phase = .complete →
        (∀ side, series.pool side = series.originalPool side
          - series.cumulativeBurned side * series.originalPool side / series.originalSupplyRaw)
        ∧ series.pool .pt + series.pool .dr = series.accountedCollateralRaw))
    ∧ (∀ r ∈ c.state.receipts, ∃ earlier operation later, operations = earlier ++ operation :: later
      ∧ (operation.apply (Catalog.of assets events)
        (client₀.afterAll (Catalog.of assets events) earlier)).1 = .ok (.receipt r)
      ∧ Explains r.changes (client₀.afterAll (Catalog.of assets events) earlier).state
        (client₀.afterAll (Catalog.of assets events) (earlier ++ [operation])).state)
    ∧ (∀ (operation : Operation) r c',
      operation.apply (Catalog.of assets events) c = (.ok (.receipt r), c') →
      Explains r.changes c.state c'.state ∧ c'.state.receipts = c.state.receipts ++ [r])
    ∧ (∀ (operation : Operation) e c',
      operation.apply (Catalog.of assets events) c = (.error e, c') → c'.state = c.state)
    ∧ (∀ quoteId reject now stamp a c',
      (Operation.acceptSale quoteId reject now stamp).apply (Catalog.of assets events) c
        = (.ok a, c') →
      ∃ quote r, a = .receipt r ∧ r.changes = quote.changes ∧ quote.id = quoteId
        ∧ QuotedHere (Catalog.of assets events) client₀ operations quote
        ∧ quote.version = c.state.version ∧ now < quote.expiresAt
        ∧ ∀ earlier reject' now' stamp' later,
          operations = earlier ++ .acceptSale quoteId reject' now' stamp' :: later →
          ∃ e, ((Operation.acceptSale quoteId reject' now' stamp').apply (Catalog.of assets events)
            (client₀.afterAll (Catalog.of assets events) earlier)).1 = .error e) := by
  subst hc
  have hbegan := began_of_createDemoClient h
  have hbooks := hbegan.books operations
  refine ⟨hbooks.collateral, hbooks.usdc, fun id series hget => ?_,
    fun r => hbegan.receipts operations,
    fun operation r c' hcall => ?_, fun operation e c' hcall => ?_,
    fun quoteId reject now stamp a c' hcall => ?_⟩
  · obtain ⟨-, -, ⟨asset, event, -, -, -, hstands⟩, hsupply⟩ := hbooks.series hget
    refine ⟨hsupply, fun hphase side => ?_, fun hclosed hready now => ?_, fun hphase => ?_⟩
    · exact ((hstands.paired hphase).supply side).symm
    · obtain ⟨r, c', hsettle, -⟩ := settle_returns hbooks hget hclosed hready now
      exact ⟨r, c', hsettle⟩
    · have hfrozen := hstands.frozen hphase
      exact ⟨hfrozen.pool, hfrozen.accounted⟩
  · have heffect := hbegan.effect operations operation
    rw [Client.afterAll_concat, hcall] at heffect
    exact heffect.explains
  · have heffect := hbegan.effect operations operation
    rw [Client.afterAll_concat, hcall] at heffect
    cases heffect with
    | refused _ hstate => exact hstate
  · have heffect := hbegan.effect operations (.acceptSale quoteId reject now stamp)
    rw [Client.afterAll_concat, hcall] at heffect
    obtain ⟨-, r, quote, rfl, -, hsold⟩ := heffect.spent_of_sale (hbegan.numbered operations)
    obtain ⟨hquoted, hid⟩ := hbegan.quotedHere operations hsold.quoted hsold.version
    refine ⟨quote, r, rfl, hsold.changes, hid, hquoted, hsold.version, hsold.fresh,
      fun earlier reject' now' stamp' later hsplit => ?_⟩
    have hfirst := hbegan.effect earlier (.acceptSale quoteId reject' now' stamp')
    cases hanswer :
        ((Operation.acceptSale quoteId reject' now' stamp').apply (Catalog.of assets events)
        (client₀.afterAll (Catalog.of assets events) earlier)).1 with
    | error e => exact ⟨e, rfl⟩
    | ok a' =>
      -- a quote that was taken before is spent by now
      rw [hanswer] at hfirst
      have hspent := hbegan.spent later (hfirst.spent_of_sale (hbegan.numbered earlier)).1
      rw [List.append_assoc, List.singleton_append, ← hsplit] at hspent
      have hquoted := hsold.quoted
      rw [hspent.absent] at hquoted
      cases hquoted

namespace Sample

/-- A stock token with a frozen dividend. -/
def asset : AssetDescriptor :=
  { id := "xstocks:XsaBXg8dU5cPM6ehmVctMkVqoiRG2ZjMo1cyBJ3AykQ", symbol := "KOx",
    issuerId := "xstocks"
    mint := "XsaBXg8dU5cPM6ehmVctMkVqoiRG2ZjMo1cyBJ3AykQ", decimals := 8
    effectiveMultiplier := "1.0225601246249238", eventFixtureId := some "xstocks-kox-2026-09-15" }

/-- Its dividend. -/
def dividend : EventDescriptor :=
  { id := "xstocks-kox-2026-09-15", assetId := "xstocks:XsaBXg8dU5cPM6ehmVctMkVqoiRG2ZjMo1cyBJ3AykQ"
    kind := "cash_dividend", m0 := "1.0183317967386898", m1 := "1.0225601246249238"
    sourceUrls := ["https://example.test/event"], evidencePaths := ["event.json"]
    sourceDigest := "sha256:test", finality := "trusted_frozen_replay" }

/-- A deposit, a sale that is tried twice, the cutoff, settlement and the buyer's redemption. -/
def rehearsal : List Operation :=
  [.deposit "xstocks:XsaBXg8dU5cPM6ehmVctMkVqoiRG2ZjMo1cyBJ3AykQ" "100" 1000,
    .quoteSale "xstocks-kox-2026-09-15" 1_000_000 30_000_000 1000,
    .acceptSale "quote-1-1" false 1001 1001, .acceptSale "quote-1-1" false 1002 1002,
    .closeDeposits "xstocks-kox-2026-09-15" 1003, .settle "xstocks-kox-2026-09-15" 1004,
    .redeem "xstocks-kox-2026-09-15" .buyer .dr 1_000_000 1005]

end Sample

/-- The rehearsal in numbers: five receipts for seven calls, and a dividend of 4135 raw units. -/
theorem demo_client_conserves_sample : ∃ client₀,
    createDemoClient [Sample.asset] [Sample.dividend] = .ok client₀
    ∧ (client₀.afterAll (Catalog.of [Sample.asset] [Sample.dividend])
      Sample.rehearsal).state.totalUsdc = client₀.state.totalUsdc
    ∧ (client₀.afterAll (Catalog.of [Sample.asset] [Sample.dividend])
      Sample.rehearsal).state.receipts.length = 5
    ∧ (client₀.afterAll (Catalog.of [Sample.asset] [Sample.dividend])
      Sample.rehearsal).state.balance
      (.collateral .buyer Sample.asset.id) = 4135 := by
  have hrun : (createDemoClient [Sample.asset] [Sample.dividend]).toOption.any (fun client₀ =>
      (client₀.afterAll (Catalog.of [Sample.asset] [Sample.dividend])
        Sample.rehearsal).state.receipts.length
          = 5
        ∧ (client₀.afterAll (Catalog.of [Sample.asset] [Sample.dividend])
          Sample.rehearsal).state.balance
          (.collateral .buyer Sample.asset.id) = 4135) = true := by
    decide +kernel
  rw [Option.any_eq_true] at hrun
  obtain ⟨client₀, hclient₀, hvalues⟩ := hrun
  obtain ⟨hreceipts, hdividend⟩ := of_decide_eq_true hvalues
  have hok := Result.toOption_eq_some.mp hclient₀
  exact ⟨client₀, hok, (demo_client_conserves hok Sample.rehearsal _ rfl).2.1, hreceipts, hdividend⟩

end Demo

end DividendX
