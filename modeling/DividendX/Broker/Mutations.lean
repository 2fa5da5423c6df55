import DividendX.Broker.JsonStore

/-!
# Mutations are applied once

What `mutateJson` calls store at a path is one mutation after another, each applied to what the one
before it left: a `put` takes effect only on the version that its caller has read. That each is
applied at most once takes more than that: a caller tries again after what it takes for a conflict,
and a `put` that took effect but was answered with such an error is tried again, too.
-/

namespace DividendX

namespace JsonStore

variable {T : Type} {F : Format T} {m : Mutation T}

/-- A mutation, from the text at the path to the text that is stored. -/
def Mutation.apply (F : Format T) (m : Mutation T) (current : Option String) :
    Except Failure String := do
  let value ← match current with
    | some text => some <$> F.parse text
    | none => pure none
  let next ← m.next F value
  F.stringify next

/-! ## One caller -/

/-- How a caller's mutation stands. -/
inductive Standing
  /-- it is not stored and will not be; what was read since -/
  | idle (seen : Option (Option Version))
  /-- a `put` that expects nothing at the path has failed -/
  | created
  /-- another `put` has failed, and not with a conflict -/
  | lost
  /-- it is stored -/
  | saved (body : String)

/-- What a read has shown. -/
def seenOf : Except SdkError (Option Found) → Option (Option Version)
  | .ok none => some none
  | .ok (some found) => found.version.map some
  | .error _ => none

/-- The standing after a read. A version at the path means that nothing was created. -/
def Standing.read (x : Except SdkError (Option Found)) : Standing → Standing
  | .idle _ => .idle (seenOf x)
  | .created => match seenOf x with
    | some (some v) => .idle (some (some v))
    | _ => .created
  | s => s

/-- The standing after a `put`. -/
def Standing.put (ifMatch : Option String) (body : String) : Except SdkError Unit → Standing
  | .ok _ => .saved body
  | .error e => match ifMatch with
    | none => .created
    | some _ => if isConflict e then .idle none else .lost

/-- A `put` is asked for by a caller whose mutation is not stored, for what it read last. -/
def watch (F : Format T) (m : Mutation T) : Monitor Standing Call Answer where
  may s c := match c with
    | .put ifMatch body =>
      ∃ seen : Option Version, s = .idle (some seen) ∧ ifMatch = seen.map Version.etag
      ∧ m.apply F (seen.map Version.body) = .ok body
    | _ => True
  next s c x := match c, x with
    | .get, x => s.read x
    | .put ifMatch body, x => Standing.put ifMatch body x
    | _, _ => s

/-- What holds when a call has returned. -/
def Returned (F : Format T) (value : T) (s : Standing) : Prop :=
  ∃ body, s = .saved body ∧ F.stringify value = .ok body

/-- What a read gives. -/
def Shown (F : Format T) (before : Standing) (r : Option (T × String)) (s : Standing) : Prop :=
  match r with
  | some (value, etag) => ∃ text, s = .idle (some (some ⟨etag, text⟩)) ∧ F.parse text = .ok value
  | none => (∃ seen, before = .idle seen) → s = .idle (some none)

/-- A value that is read is that of a version that was shown. -/
theorem readResult_eq_some {maxBytes : Nat} {x : Option Found} {value : T} {etag : String}
    (h : readResult F maxBytes x = .ok (some (value, etag))) :
    ∃ text, seenOf (.ok x) = some (some ⟨etag, text⟩) ∧ F.parse text = .ok value := by
  cases x with
  | none => cases h
  | some found =>
    simp only [readResult, Result.bind_eq_ok, Result.exists_unit, Result.require_eq_ok,
      Result.okOr_eq_ok] at h
    obtain ⟨hstatus, stream, hstream, text, htext, hpresent, hstrong, parsed, hparse, heq⟩ := h
    simp only [readBounded, Result.bind_eq_ok, Result.exists_unit, Result.require_eq_ok] at htext
    obtain ⟨body, rfl, -, hbody⟩ := htext
    cases hbody
    cases heq
    refine ⟨text, ?_, hparse⟩
    simp only [seenOf, Found.version, hstream, hstatus, hpresent, hstrong,
      ne_eq, not_false_eq_true, and_self, if_true, Option.map_some]

/-- Nothing is read only where nothing is stored. -/
theorem readResult_eq_none {maxBytes : Nat} {x : Option Found}
    (h : readResult F maxBytes x = .ok none) : x = none := by
  cases x with
  | none => rfl
  | some found =>
    simp only [readResult, Result.bind_eq_ok, Result.exists_unit] at h
    obtain ⟨-, _, -, _, -, -, -, _, -, heq⟩ := h
    cases heq

variable {s : Standing} {maxBytes : Nat}

/-- A result of a GET, after it was shown. -/
theorem shown_result (hs : (∃ seen, s = .idle seen) ∨ s = .created)
    {x : Option Found} {r : Option (T × String)}
    (h : readResult F maxBytes x = .ok r) : Shown F s r (s.read (.ok x)) := by
  cases r with
  | some r =>
    obtain ⟨value, etag⟩ := r
    obtain ⟨text, hseen, hparse⟩ := readResult_eq_some h
    refine ⟨text, ?_, hparse⟩
    rcases hs with ⟨seen, rfl⟩ | rfl
    · simp only [Standing.read, hseen]
    · simp only [Standing.read, hseen]
  | none =>
    rintro ⟨seen, rfl⟩
    rw [readResult_eq_none h]
    rfl

/-- A failed read changes no standing. -/
theorem read_error (hs : (∃ seen, s = .idle seen) ∨ s = .created) (e : SdkError) :
    (∃ seen, s.read (.error e) = .idle seen) ∨ s.read (.error e) = .created ∧ s = .created := by
  rcases hs with ⟨seen, rfl⟩ | rfl
  · exact .inl ⟨_, rfl⟩
  · exact .inr ⟨rfl, rfl⟩

/-- A read again: what it returns was shown. -/
theorem readAgain_gives (hs : (∃ seen, s = .idle seen) ∨ s = .created) :
    (watch F m).Gives (Shown F s) (fun _ => True) (readAgain F maxBytes) s := by
  refine .bind (Q := fun (x : Except SdkError (Option Found)) s' => s' = s.read x)
    (.ask trivial fun x => rfl) ?_
  rintro x s' rfl
  cases x with
  | ok x => exact .sync (fun r hr => shown_result hs hr) trivial
  | error e => exact .throw trivial

/-- A read shows the version at the path, and leaves the caller idle if it does. -/
theorem read_gives (hs : (∃ seen, s = .idle seen) ∨ s = .created) :
    (watch F m).Gives (Shown F s) (fun _ => True) (read F maxBytes) s := by
  refine .bind (Q := fun (x : Except SdkError (Option Found)) s' => s' = s.read x)
    (.ask trivial fun x => rfl) ?_
  rintro x s' rfl
  cases x with
  | ok x => exact .sync (fun r hr => shown_result hs hr) trivial
  | error e =>
    have hagain : (watch F m).Gives (Shown F s) (fun _ => True) (readAgain F maxBytes)
        (s.read (.error e)) := by
      have hthen := read_error hs e
      refine (readAgain_gives (hthen.imp_right And.left)).mono (fun r s' hr => ?_) fun _ _ =>
        trivial
      cases r with
      | some r => exact hr
      | none =>
        rintro ⟨seen, rfl⟩
        exact hr ⟨_, rfl⟩
    refine .ite (fun _ => ?_) fun _ => .throw trivial
    refine .bind (Q := fun _ s' => s' = s.read (.error e)) (.ask trivial fun _ => rfl) ?_
    rintro aborted s' rfl
    refine .ite (fun _ => .throw trivial) fun _ => ?_
    refine .bind (Q := fun _ s' => s' = s.read (.error e)) (.ask trivial fun _ => rfl) ?_
    rintro _ s' rfl
    refine .bind (Q := fun _ s' => s' = s.read (.error e)) (.ask trivial fun _ => rfl) ?_
    rintro aborted s' rfl
    exact .ite (fun _ => .throw trivial) fun _ => hagain

/-- What an attempt to store a value gives. -/
def Settled (F : Format T) (next : T) (saved : Bool) (s : Standing) : Prop :=
  if saved then Returned F next s else ∃ seen, s = .idle seen

/-- What is encoded is the text of the value. -/
theorem encode_eq_ok {value : T} {body : String} (h : encode F value maxBytes = .ok body) :
    F.stringify value = .ok body := by
  simp only [encode, Result.bind_eq_ok, Result.exists_unit, Result.require_eq_ok] at h
  obtain ⟨text, htext, -, heq⟩ := h
  cases heq
  exact htext

/-- What is stored is what the mutation makes of the text that was read. -/
theorem apply_of_next (seen : Option Version) {current : Option T} {next : T} {body : String}
    (hparse : ∀ v, seen = some v → ∃ value, current = some value ∧ F.parse v.body = .ok value)
    (hnone : seen = none → current = none) (hnext : m.next F current = .ok next)
    (hbody : F.stringify next = .ok body) :
    m.apply F (seen.map Version.body) = .ok body := by
  cases seen with
  | none =>
    rw [hnone rfl] at hnext
    simp only [Mutation.apply, Option.map_none, pure_bind, hnext]
    exact hbody
  | some v =>
    obtain ⟨value, rfl, hvalue⟩ := hparse v rfl
    simp only [Mutation.apply, Option.map_some, hvalue]
    change (m.next F (some value) >>= F.stringify) = .ok body
    rw [hnext]
    exact hbody

/-- The path is created, by a caller that was shown it empty. -/
theorem create_gives {next : T} (hnext : m.next F none = .ok next) :
    (watch F m).Gives (Settled F next) (fun _ => True) (create F next maxBytes)
      (.idle (some none)) := by
  refine .bind (Q := fun body s' => s' = .idle (some none) ∧ F.stringify next = .ok body)
    (.sync (fun body hbody => ⟨rfl, encode_eq_ok hbody⟩) trivial) ?_
  rintro body _ ⟨rfl, hbody⟩
  have happly : m.apply F none = .ok body := apply_of_next none (by simp) (fun _ => rfl) hnext hbody
  refine .bind (Q := fun (x : Except SdkError Unit) s' => s' = Standing.put none body x)
    (.ask ⟨none, rfl, rfl, happly⟩ fun x => rfl) ?_
  rintro x s' rfl
  cases x with
  | ok u => exact .pure ⟨body, rfl, hbody⟩
  | error e =>
    refine .bind (read_gives (.inr rfl)) ?_
    intro found s' hfound
    cases found with
    | some found =>
      obtain ⟨text, rfl, -⟩ := hfound
      exact .pure ⟨_, rfl⟩
    | none => exact .throw trivial

/-- The version that was shown is replaced. -/
theorem compareAndSwap_gives {v : Version} {value next : T} (hparse : F.parse v.body = .ok value)
    (hnext : m.next F (some value) = .ok next) :
    (watch F m).Gives (Settled F next) (fun _ => True) (compareAndSwap F v.etag next maxBytes)
      (.idle (some (some v))) := by
  refine .bind (Q := fun body s' => s' = .idle (some (some v)) ∧ F.stringify next = .ok body)
    (.sync (fun body hbody => ⟨rfl, ?_⟩) trivial) ?_
  · simp only [encodeSwap, Result.bind_eq_ok, Result.exists_unit] at hbody
    exact encode_eq_ok hbody.2.2
  rintro body _ ⟨rfl, hbody⟩
  have happly : m.apply F (some v.body) = .ok body :=
    apply_of_next (some v) (fun w hw => ⟨value, rfl, by cases hw; exact hparse⟩)
      (by simp) hnext hbody
  refine .bind (Q := fun (x : Except SdkError Unit) s' => s' = Standing.put (some v.etag) body x)
    (.ask ⟨some v, rfl, rfl, happly⟩ fun x => rfl) ?_
  rintro x s' rfl
  cases x with
  | ok u => exact .pure ⟨body, rfl, hbody⟩
  | error e =>
    refine .ite (fun hconflict => .pure ⟨none, ?_⟩) fun _ => .throw trivial
    simp only [Standing.put, hconflict, if_true]

/-- **A value is saved** over what was shown. -/
theorem save_gives {current : Option (T × String)} {next : T}
    (hshown : Shown F (.idle none) current s)
    (hnext : m.next F (current.map Prod.fst) = .ok next) :
    (watch F m).Gives (Settled F next) (fun _ => True) (save F m current next) s := by
  cases current with
  | none =>
    obtain rfl := hshown ⟨none, rfl⟩
    exact create_gives hnext
  | some r =>
    obtain ⟨value, etag⟩ := r
    obtain ⟨text, rfl, hparse⟩ := hshown
    exact compareAndSwap_gives (v := ⟨etag, text⟩) hparse hnext

/-- The loop, from a caller that is idle. -/
theorem attempt_gives (n : Nat) (hs : ∃ seen, s = .idle seen) :
    (watch F m).Gives (Returned F) (fun _ => True) (attempt F m n) s := by
  induction n generalizing s with
  | zero => exact .throw trivial
  | succ n ih =>
    refine .bind (read_gives (.inl hs)) ?_
    intro current s' hshown
    have hfrom : Shown F (.idle none) current s' := by
      cases current with
      | some r => exact hshown
      | none => exact fun _ => hshown hs
    refine .bind (Q := fun next t => t = s' ∧ m.next F (current.map Prod.fst) = .ok next)
      (.sync (fun next hnext => ⟨rfl, hnext⟩) trivial) ?_
    rintro next _ ⟨rfl, hnext⟩
    refine .bind (save_gives hfrom hnext) ?_
    intro saved t hsettled
    cases saved with
    | true => exact .pure hsettled
    | false =>
      refine .bind (Q := fun _ t' => t' = t) (.ask trivial fun _ => rfl) ?_
      rintro _ t' rfl
      exact ih hsettled

/-- **One caller.** Every `put` of a `mutateJson` call is for the version it read last, and is asked
for only while the mutation is not stored; when the call has returned it is stored. -/
theorem mutateJson_gives : (watch F m).Gives (Returned F) (fun _ => True)
    (mutateJson F m) (.idle none) :=
  attempt_gives _ ⟨none, rfl⟩

/-! ## The path -/

namespace Blob

/-- A `put` in flight may still take effect. -/
def live (b : Blob) (put : Put) : Bool := put.ifMatch.isSome || b.versions.isEmpty

/-- The callers of what may still take effect. -/
def pending (b : Blob) : List Nat := (b.inflight.filter b.live).map Put.caller

/-- The text after so many writes. -/
def textAt (b : Blob) (k : Nat) : Option String :=
  ((b.base.toList ++ (b.log.take k).map Write.version).getLast?).map Version.body

variable {b b' : Blob} {put : Put} {etag : String}

/-- A `put` that takes effect appends its write. -/
theorem write_eq_some (h : b.write put etag = some b') :
    b' = { b with log := b.log ++ [⟨put.caller, ⟨etag, put.body⟩⟩] }
      ∧ put.ifMatch = b.versions.getLast?.map Version.etag
      ∧ ∀ v ∈ b.versions, v.etag = etag → v.body = put.body := by
  simp only [write, Option.ite_none_right_eq_some, Option.some.injEq] at h
  obtain ⟨⟨hadmits, hallows⟩, rfl⟩ := h
  refine ⟨rfl, of_decide_eq_true hadmits, fun v hv heq => ?_⟩
  simp only [allows, List.all_eq_true, Bool.or_eq_true, decide_eq_true_eq] at hallows
  exact (hallows v hv).resolve_left fun hne => hne heq

/-- With one more version. -/
theorem versions_write (w : Write) :
    ({ b with log := b.log ++ [w] } : Blob).versions = b.versions ++ [w.version] := by
  simp only [versions, List.map_append, List.map_cons, List.map_nil, List.append_assoc]

/-- A `put` that is admitted may take effect. -/
theorem live_of_admits (h : put.ifMatch = b.versions.getLast?.map Version.etag) :
    b.live put = true := by
  cases hlast : b.versions.getLast? with
  | none =>
    rw [List.getLast?_eq_none_iff] at hlast
    simp [live, hlast]
  | some v =>
    rw [hlast] at h
    simp [live, h]

end Blob

/-- A `put` stores what its mutation makes of a version that was there. -/
def Based (F : Format T) (m : Mutation T) (b : Blob) (put : Put) : Prop :=
  ∃ seen : Option Version, put.ifMatch = seen.map Version.etag
    ∧ (∀ v, seen = some v → v ∈ b.versions) ∧ m.apply F (seen.map Version.body) = .ok put.body

/-- How the path looks to a caller. -/
def Linked (b : Blob) (i : Nat) : Standing → Prop
  | .idle seen =>
    i ∉ b.log.map Write.caller ∧ i ∉ b.pending ∧ ∀ v, seen = some (some v) → v ∈ b.versions
  | .created => ∀ put ∈ b.inflight, put.caller = i → b.live put = true → put.ifMatch = none
  | .lost => True
  | .saved body => ∃ w ∈ b.log, w.caller = i ∧ w.version.body = body

/-- The mutations of the callers. -/
def Site.mutations (s : Site T) (i : Nat) : Option (Mutation T) := s.callers[i]?.map Caller.mutation

/-- Every write carries out its caller's mutation on the text at the path. -/
def Serial (F : Format T) (mutations : Nat → Option (Mutation T)) (b : Blob) : Prop :=
  ∀ k (w : Write), b.log[k]? = some w → ∃ m : Mutation T, mutations w.caller = some m
    ∧ m.apply F (b.textAt k) = .ok w.version.body

/-- The path in order: no caller has two writes, stored or to come. -/
structure Filed (F : Format T) (mutations : Nat → Option (Mutation T)) (b : Blob) : Prop where
  strong : ∀ v ∈ b.versions, ∀ w ∈ b.versions, v.etag = w.etag → v.body = w.body
  serial : Serial F mutations b
  once : (b.log.map Write.caller ++ b.pending).Nodup
  based : ∀ put ∈ b.inflight, b.live put = true → ∃ m : Mutation T,
    mutations put.caller = some m ∧ Based F m b put

/-- What a call was left with. -/
def Ended (F : Format T) (r : Except Failure T) (s : Standing) : Prop :=
  match r with
  | .ok value => Returned F value s
  | .error _ => True

/-- The path and its callers, in order. -/
structure Orderly (F : Format T) (s : Site T) : Prop where
  filed : Filed F s.mutations s.blob
  watched : ∀ i (c : Caller T), s.callers[i]? = some c → ∃ st,
    (watch F c.mutation).Obeys (Ended F) c.rest st ∧ Linked s.blob i st

/-- What happens at the path on behalf of one caller. -/
structure Grows (b b' : Blob) (who : Nat) : Prop where
  versions : b.versions <+: b'.versions
  log : b.log <+: b'.log
  written : ∀ w ∈ b'.log, w ∈ b.log ∨ w.caller = who
  asked : ∀ put ∈ b'.inflight, put ∈ b.inflight ∨ put.caller = who

variable {b b' : Blob} {i j : Nat} {st : Standing} {put : Put}

/-- What can still be written could be. -/
theorem Grows.live (hg : Grows b b' i) (h : b'.live put = true) : b.live put = true := by
  simp only [Blob.live, Bool.or_eq_true, List.isEmpty_iff] at h ⊢
  refine h.imp_right fun hnil => ?_
  have hpre := hg.versions
  rw [hnil] at hpre
  exact List.prefix_nil.mp hpre

/-- No caller but one has a new `put` under way. -/
theorem Grows.pending (hg : Grows b b' i) {k : Nat} (hk : k ∈ b'.pending) :
    k ∈ b.pending ∨ k = i := by
  obtain ⟨put, hput, rfl⟩ := List.mem_map.mp hk
  obtain ⟨hmem, hlive⟩ := List.mem_filter.mp hput
  rcases hg.asked put hmem with hold | hwho
  · exact .inl (List.mem_map.mpr ⟨put, List.mem_filter.mpr ⟨hold, hg.live hlive⟩, rfl⟩)
  · exact .inr hwho

/-- The other callers see nothing but more versions. -/
theorem Linked.other (hl : Linked b j st) (hg : Grows b b' i) (hij : j ≠ i) : Linked b' j st := by
  cases st with
  | idle seen =>
    obtain ⟨hlog, hpending, hseen⟩ := hl
    refine ⟨fun hmem => ?_, fun hmem => ?_, fun v hv => hg.versions.subset (hseen v hv)⟩
    · obtain ⟨w, hw, heq⟩ := List.mem_map.mp hmem
      rcases hg.written w hw with hold | hwho
      · exact hlog (List.mem_map.mpr ⟨w, hold, heq⟩)
      · exact hij (heq.symm.trans hwho)
    · exact (hg.pending hmem).elim hpending hij
  | created =>
    intro put hput hcaller hlive
    rcases hg.asked put hput with hold | hwho
    · exact hl put hold hcaller (hg.live hlive)
    · exact absurd (hcaller.symm.trans hwho) hij
  | lost => trivial
  | saved body =>
    obtain ⟨w, hw, hrest⟩ := hl
    exact ⟨w, hg.log.subset hw, hrest⟩

/-- What a `put` was based on stays. -/
theorem Based.grows (hb : Based F m b put) (hg : Grows b b' i) : Based F m b' put := by
  obtain ⟨seen, hmatch, hseen, happly⟩ := hb
  exact ⟨seen, hmatch, fun v hv => hg.versions.subset (hseen v hv), happly⟩

theorem grows_refl (b : Blob) (i : Nat) : Grows b b i :=
  ⟨List.prefix_rfl, List.prefix_rfl, fun _ h => .inl h, fun _ h => .inl h⟩

/-- A write is growth by its caller. -/
theorem grows_write (b : Blob) (w : Write) : Grows b { b with log := b.log ++ [w] } w.caller where
  versions := by
    rw [Blob.versions_write]
    exact List.prefix_append _ _
  log := List.prefix_append _ _
  written := by
    intro w' hw'
    rcases List.mem_append.mp hw' with hw' | hw'
    · exact .inl hw'
    · rw [List.mem_singleton] at hw'
      exact .inr (by rw [hw'])
  asked := fun _ h => .inl h

/-- So is a `put` that is asked for. -/
theorem grows_ask (b : Blob) (put : Put) :
    Grows b { b with inflight := b.inflight ++ [put] } put.caller where
  versions := List.prefix_rfl
  log := List.prefix_rfl
  written := fun _ h => .inl h
  asked := by
    intro p hp
    rcases List.mem_append.mp hp with hp | hp
    · exact .inl hp
    · rw [List.mem_singleton] at hp
      exact .inr (by rw [hp])

/-! ### Writes -/

section Filed

variable {mutations : Nat → Option (Mutation T)} {etag : String}

/-- What was stored at a moment stays so. -/
theorem textAt_write {k : Nat} {w : Write} (hk : k ≤ b.log.length) :
    ({ b with log := b.log ++ [w] } : Blob).textAt k = b.textAt k := by
  simp only [Blob.textAt, List.take_append_of_le_length hk]

/-- Now the last version is stored. -/
theorem textAt_length : b.textAt b.log.length = b.versions.getLast?.map Version.body := by
  simp only [Blob.textAt, Blob.versions, List.take_length]

/-- What is written is made of the text that is there. -/
theorem Based.current (hb : Based F m b put) (hf : Filed F mutations b)
    (hadmits : put.ifMatch = b.versions.getLast?.map Version.etag) :
    m.apply F (b.textAt b.log.length) = .ok put.body := by
  obtain ⟨seen, hmatch, hseen, happly⟩ := hb
  rw [textAt_length]
  cases hlast : b.versions.getLast? with
  | none =>
    rw [hadmits, hlast] at hmatch
    cases seen with
    | none => exact happly
    | some v => cases hmatch
  | some u =>
    rw [hadmits, hlast] at hmatch
    cases seen with
    | none => cases hmatch
    | some v =>
      have hsame := hf.strong u (List.mem_of_getLast? hlast) v (hseen v rfl)
        (Option.some.inj hmatch)
      rw [Option.map_some, hsame]
      exact happly

/-- **A write** is filed under its caller. -/
theorem Filed.write (hf : Filed F mutations b) (hwho : mutations put.caller = some m)
    (hb : Based F m b put)
    (hwrite : b.write put etag = some b') (hlog : put.caller ∉ b.log.map Write.caller)
    (hpending : put.caller ∉ b.pending) : Filed F mutations b' := by
  obtain ⟨rfl, hadmits, hallows⟩ := Blob.write_eq_some hwrite
  -- What is live after the write was live before it, so no put joins those that are pending.
  have hg := grows_write b ⟨put.caller, ⟨etag, put.body⟩⟩
  refine ⟨fun v hv w hw heq => ?_, fun k w hk => ?_, ?_, fun q hq hlive => ?_⟩
  · rw [Blob.versions_write, List.mem_append, List.mem_singleton] at hv hw
    rcases hv with hv | rfl <;> rcases hw with hw | rfl
    · exact hf.strong v hv w hw heq
    · exact hallows v hv heq
    · exact (hallows w hw heq.symm).symm
    · rfl
  · rw [List.getElem?_append] at hk
    split_ifs at hk with hlt
    · rw [textAt_write (Nat.le_of_lt hlt)]
      exact hf.serial k w hk
    · obtain ⟨hle, hw⟩ := List.getElem?_eq_some_iff.mp hk
      rw [List.length_singleton] at hle
      obtain rfl : k = b.log.length := by omega
      rw [List.getElem_singleton] at hw
      subst hw
      rw [textAt_write (Nat.le_refl _)]
      exact ⟨m, hwho, hb.current hf hadmits⟩
  · rw [List.map_append, List.map_singleton, List.append_assoc, List.singleton_append]
    have hsub : ({ b with log := b.log ++ [⟨put.caller, ⟨etag, put.body⟩⟩] } : Blob).pending.Sublist
        b.pending :=
      (List.monotone_filter_right _ fun q hq => hg.live hq).map _
    have hnodup : (put.caller :: (b.log.map Write.caller ++ b.pending)).Nodup := by
      refine List.nodup_cons.mpr ⟨fun hmem => ?_, hf.once⟩
      exact (List.mem_append.mp hmem).elim hlog hpending
    have hperm := List.perm_middle.nodup_iff.mpr hnodup
    exact hperm.sublist ((List.Sublist.refl _).append (hsub.cons_cons _))
  · obtain ⟨m', hm', hbased⟩ := hf.based q hq (hg.live hlive)
    exact ⟨m', hm', hbased.grows hg⟩

/-- So is a `put` that is asked for. -/
theorem Filed.ask (hf : Filed F mutations b) (hwho : mutations put.caller = some m)
    (hb : Based F m b put)
    (hlog : put.caller ∉ b.log.map Write.caller) (hpending : put.caller ∉ b.pending) :
    Filed F mutations { b with inflight := b.inflight ++ [put] } := by
  have hlive : ({ b with inflight := b.inflight ++ [put] } : Blob).live = b.live := rfl
  refine ⟨hf.strong, hf.serial, ?_, fun q hq hq' => ?_⟩
  · have hpend : ({ b with inflight := b.inflight ++ [put] } : Blob).pending =
        b.pending ++ ([put].filter b.live).map Put.caller := by
      simp only [Blob.pending, hlive, List.filter_append, List.map_append]
    rw [hpend, ← List.append_assoc]
    refine List.nodup_append.mpr ⟨hf.once, ?_, fun x hx y hy => ?_⟩
    · have hsingle : ([put].map Put.caller).Nodup :=
        List.nodup_cons.mpr ⟨List.not_mem_nil, List.nodup_nil⟩
      exact hsingle.sublist (List.filter_sublist.map Put.caller)
    · obtain ⟨q, hq, rfl⟩ := List.mem_map.mp hy
      rw [List.mem_singleton.mp (List.mem_of_mem_filter hq)]
      rintro rfl
      exact (List.mem_append.mp hx).elim hlog hpending
  · rcases List.mem_append.mp hq with hq | hq
    · exact hf.based q hq hq'
    · rw [List.mem_singleton] at hq
      subst hq
      exact ⟨m, hwho, hb⟩

/-- A late `put` leaves the list of those in flight before it takes effect. -/
theorem Filed.erase (hf : Filed F mutations b) (hput : put ∈ b.inflight)
    (hlive : b.live put = true) :
    Filed F mutations { b with inflight := b.inflight.erase put }
      ∧ put.caller ∉ b.log.map Write.caller
      ∧ put.caller ∉ ({ b with inflight := b.inflight.erase put } : Blob).pending := by
  have hsame : ({ b with inflight := b.inflight.erase put } : Blob).live = b.live := rfl
  have hperm : b.pending.Perm
      (put.caller :: ({ b with inflight := b.inflight.erase put } : Blob).pending) := by
    have hfilter := ((List.perm_cons_erase hput).filter b.live).map Put.caller
    rw [List.filter_cons_of_pos hlive, List.map_cons] at hfilter
    exact hfilter
  have hnodup := (hperm.append_left (b.log.map Write.caller)).nodup_iff.mp hf.once
  have hmiddle := List.nodup_cons.mp (List.perm_middle.nodup_iff.mp hnodup)
  refine ⟨⟨hf.strong, hf.serial, hmiddle.2,
    fun q hq hq' => hf.based q (List.mem_of_mem_erase hq) hq'⟩, ?_, ?_⟩
  · exact fun hmem => hmiddle.1 (List.mem_append_left _ hmem)
  · exact fun hmem => hmiddle.1 (List.mem_append_right _ hmem)

/-- More callers take nothing away. -/
theorem Filed.mono {mutations' : Nat → Option (Mutation T)} (hf : Filed F mutations b)
    (hmono : ∀ i m, mutations i = some m → mutations' i = some m) : Filed F mutations' b where
  strong := hf.strong
  serial := fun k w hk => by
    obtain ⟨m, hm, happly⟩ := hf.serial k w hk
    exact ⟨m, hmono _ _ hm, happly⟩
  once := hf.once
  based := fun q hq hlive => by
    obtain ⟨m, hm, hb⟩ := hf.based q hq hlive
    exact ⟨m, hmono _ _ hm, hb⟩

end Filed

/-! ### Steps -/

/-- A version is shown to no caller whose mutation is stored; and a `put` for a version that fails
with what is taken for a conflict has no effect, then or later. -/
def Site.spared (s : Site T) : Event T → Bool
  | .get i (.ok (some found)) => found.version.isNone || s.blob.log.all fun w => w.caller ≠ i
  | .put i (.failed e effect) => match s.callers[i]? with
    | some c => match c.rest with
      | .await (.put (some _) _) _ => !isConflict e || match effect with
        | .never => true
        | _ => false
      | _ => true
    | none => true
  | _ => true

/-- A spared event, if it can happen. -/
def Site.stepSpared (F : Format T) (s : Site T) (e : Event T) : Option (Site T) :=
  if s.spared e then s.step F e else none

variable {s s' : Site T} {c : Caller T} {rest : Async Call Answer (Except Failure T)}

/-- A caller that goes on keeps its mutation. -/
theorem mutations_goOn (hc : s.callers[i]? = some c) (k : Nat) :
    (s.goOn i c b rest).mutations k = s.mutations k := by
  simp only [Site.mutations, Site.goOn, List.getElem?_set]
  split_ifs with hik hlt
  · subst hik
    rw [hc]
    rfl
  · subst hik
    rw [List.getElem?_eq_none (Nat.le_of_not_lt hlt)]
  · rfl

/-- One caller has gone on, at a path that grew on its behalf. -/
theorem Orderly.goOn (ho : Orderly F s) (hc : s.callers[i]? = some c) (hg : Grows s.blob b i)
    (hf : Filed F s.mutations b) (hobeys : (watch F c.mutation).Obeys (Ended F) rest st)
    (hl : Linked b i st) :
    Orderly F (s.goOn i c b rest) := by
  refine ⟨?_, fun j d hd => ?_⟩
  · exact hf.mono fun k m hm => (mutations_goOn hc k).trans hm
  · simp only [Site.goOn, List.getElem?_set] at hd
    split_ifs at hd with hij hlt
    · cases hd
      subst hij
      exact ⟨st, hobeys, hl⟩
    · obtain ⟨st', hobeys', hl'⟩ := ho.watched j d hd
      exact ⟨st', hobeys', hl'.other hg fun heq => hij heq.symm⟩

/-- What a `get` shows is a version of the path. -/
theorem mem_versions_of_shows {x : Except SdkError (Option Found)}
    {v : Version} (h : b.shows x = true)
    (hv : seenOf x = some (some v)) : v ∈ b.versions := by
  cases x with
  | error e => cases hv
  | ok x =>
    cases x with
    | none => cases hv
    | some found =>
      simp only [seenOf, Option.map_eq_some_iff, Option.some.injEq, exists_eq_right] at hv
      simp only [Blob.shows, hv, Option.all_some, decide_eq_true_eq] at h
      exact h

/-- A read. -/
theorem Linked.read {x : Except SdkError (Option Found)} (hl : Linked b i st)
    (hshows : b.shows x = true)
    (hspared : ∀ v, seenOf x = some (some v) → i ∉ b.log.map Write.caller) :
    Linked b i (st.read x) := by
  cases st with
  | idle seen =>
    obtain ⟨hlog, hpending, -⟩ := hl
    exact ⟨hlog, hpending, fun v hv => mem_versions_of_shows hshows hv⟩
  | created =>
    simp only [Standing.read]
    split
    · rename_i v hv
      have hmem := mem_versions_of_shows hshows hv
      refine ⟨hspared v hv, fun hpending => ?_, fun w hw => ?_⟩
      · -- what expects nothing at the path cannot take effect any more
        obtain ⟨put, hput, hcaller⟩ := List.mem_map.mp hpending
        obtain ⟨hin, hlive⟩ := List.mem_filter.mp hput
        have hnone := hl put hin hcaller hlive
        simp only [Blob.live, hnone, Option.isSome_none, Bool.false_or, List.isEmpty_iff] at hlive
        rw [hlive] at hmem
        cases hmem
      · cases hw
        exact hmem
    · exact hl
  | lost => trivial
  | saved body => exact hl

/-- A `put` that its caller was allowed to ask for: what it did to the path, and where the caller
stands. -/
theorem Filed.puts {mutations : Nat → Option (Mutation T)} {ifMatch : Option String}
    {body : String} {x : Outcome}
    (hf : Filed F mutations b) (hwho : mutations i = some m)
    (hmay : (watch F m).may st (.put ifMatch body))
    (hl : Linked b i st) (hput : b.put ⟨i, ifMatch, body⟩ x = some b')
    (hspared : ∀ e effect, x = .failed e effect → ifMatch ≠ none →
      isConflict e = true → effect = .never) :
    Filed F mutations b' ∧ Grows b b' i ∧ Linked b' i (Standing.put ifMatch body x.answer) := by
  obtain ⟨seen, rfl, hmatch, happly⟩ := hmay
  obtain ⟨hlog, hpending, hseen⟩ := hl
  have hbased : Based F m b ⟨i, ifMatch, body⟩ :=
    ⟨seen, hmatch, fun v hv => hseen v (by rw [hv]), happly⟩
  have hnotLive : ∀ put ∈ b.inflight, put.caller = i → b.live put = false := by
    intro put hin hcaller
    by_contra hlive
    rw [Bool.not_eq_false] at hlive
    exact hpending (List.mem_map.mpr ⟨put, List.mem_filter.mpr ⟨hin, hlive⟩, hcaller⟩)
  have hwrites : ∀ {etag : String}, b.write ⟨i, ifMatch, body⟩ etag = some b' →
      Filed F mutations b' ∧ Grows b b' i ∧ (∃ w ∈ b'.log, w.caller = i ∧ w.version.body = body)
        ∧ Linked b' i .created := by
    intro etag hwrite
    obtain ⟨rfl, -⟩ := Blob.write_eq_some hwrite
    have hg := grows_write b ⟨i, ⟨etag, body⟩⟩
    refine ⟨hf.write hwho hbased hwrite hlog hpending, hg,
      ⟨_, List.mem_append_right _ List.mem_cons_self, rfl, rfl⟩, fun put hin hcaller hlive => ?_⟩
    have hold := hg.live hlive
    rw [hnotLive put hin hcaller] at hold
    cases hold
  cases x with
  | saved etag =>
    obtain ⟨hf', hg, hw, -⟩ := hwrites hput
    exact ⟨hf', hg, hw⟩
  | failed e effect =>
    -- a `put` for a version is not tried again unless it had no effect
    have hlost : effect ≠ .never → ifMatch.isSome = true →
        Standing.put ifMatch body (Outcome.failed e effect).answer = .lost := by
      intro heffect hsome
      cases ifMatch with
      | none => cases hsome
      | some etag =>
        have hconflict : isConflict e = false := by
          by_contra htrue
          rw [Bool.not_eq_false] at htrue
          exact heffect (hspared e effect rfl (by simp) htrue)
        simp [Standing.put, Outcome.answer, hconflict]
    cases effect with
    | never =>
      cases hput
      refine ⟨hf, grows_refl _ _, ?_⟩
      cases ifMatch with
      | none =>
        intro put hin hcaller hlive
        rw [hnotLive put hin hcaller] at hlive
        cases hlive
      | some etag =>
        simp only [Standing.put, Outcome.answer]
        split
        · exact ⟨hlog, hpending, by simp⟩
        · trivial
    | now etag =>
      obtain ⟨hf', hg, -, hcreated⟩ := hwrites hput
      refine ⟨hf', hg, ?_⟩
      cases ifMatch with
      | none => exact hcreated
      | some etag' =>
        rw [hlost (by simp) rfl]
        trivial
    | later =>
      cases hput
      refine ⟨hf.ask hwho hbased hlog hpending, grows_ask b ⟨i, ifMatch, body⟩, ?_⟩
      cases ifMatch with
      | none =>
        intro put hin hcaller hlive
        rcases List.mem_append.mp hin with hin | hin
        · have hold : b.live put = true := hlive
          rw [hnotLive put hin hcaller] at hold
          cases hold
        · rw [List.mem_singleton.mp hin]
      | some etag =>
        rw [hlost (by simp) rfl]
        trivial

/-- A late `put` leaves every caller where it stands. -/
theorem Linked.lands {put : Put} {etag : String} (hl : Linked b i st) (hin : put ∈ b.inflight)
    (hlive : b.live put = true)
    (hwrite : ({ b with inflight := b.inflight.erase put } : Blob).write put etag = some b') :
    Linked b' i st := by
  obtain ⟨rfl, -⟩ := Blob.write_eq_some hwrite
  have hg := grows_write { b with inflight := b.inflight.erase put } ⟨put.caller, ⟨etag, put.body⟩⟩
  have hg' : Grows b ⟨b.base, b.log ++ [⟨put.caller, ⟨etag, put.body⟩⟩],
      b.inflight.erase put⟩ put.caller :=
    ⟨hg.versions, hg.log, hg.written, fun q hq => .inl (List.mem_of_mem_erase hq)⟩
  by_cases hi : i = put.caller
  · subst hi
    cases st with
    | idle seen =>
      obtain ⟨-, hpending, -⟩ := hl
      exact absurd (List.mem_map.mpr ⟨put, List.mem_filter.mpr ⟨hin, hlive⟩, rfl⟩) hpending
    | created =>
      exact fun q hq hcaller hq' => hl q (List.mem_of_mem_erase hq) hcaller (hg'.live hq')
    | lost => trivial
    | saved body =>
      obtain ⟨w, hw, hrest⟩ := hl
      exact ⟨w, hg'.log.subset hw, hrest⟩
  · exact hl.other hg' hi

/-- Under the condition a caller is not shown its own write. -/
theorem not_stored_of_spared {x : Except SdkError (Option Found)} {v : Version}
    (h : s.spared (.get i x) = true)
    (hv : seenOf x = some (some v)) : i ∉ s.blob.log.map Write.caller := by
  cases x with
  | error e => cases hv
  | ok x =>
    cases x with
    | none => cases hv
    | some found =>
      simp only [seenOf, Option.map_eq_some_iff, Option.some.injEq, exists_eq_right] at hv
      simp only [Site.spared, hv, Option.isNone_some, Bool.false_or,
        List.all_eq_true, decide_eq_true_eq] at h
      intro hmem
      obtain ⟨w, hw, heq⟩ := List.mem_map.mp hmem
      exact h w hw heq

/-- And a failed `put` of which the caller is not told took no effect. -/
theorem never_of_spared {ifMatch : Option String} {body : String} {e : SdkError} {effect : Effect}
    {k : Except SdkError Unit → Async Call Answer (Except Failure T)}
    (h : s.spared (.put i (.failed e effect)) = true)
    (hc : s.callers[i]? = some c) (hrest : c.rest = .await (.put ifMatch body) k)
    (hsome : ifMatch ≠ none)
    (hconflict : isConflict e = true) : effect = .never := by
  cases ifMatch with
  | none => exact absurd rfl hsome
  | some etag =>
    simp only [Site.spared, hc, hrest, hconflict, Bool.not_true, Bool.false_or] at h
    cases effect with
    | never => rfl
    | now etag => cases h
    | later => cases h

/-- **One event** keeps the path and its callers in order. -/
theorem Orderly.step (ho : Orderly F s) {e : Event T} (hstep : s.stepSpared F e = some s') :
    Orderly F s' := by
  simp only [Site.stepSpared, Option.ite_none_right_eq_some] at hstep
  obtain ⟨hspared, hstep⟩ := hstep
  cases e with
  | calls m =>
    cases hstep
    have hmono : ∀ i m', s.mutations i = some m' →
        ({ s with callers := s.callers ++ [⟨m, (mutateJson F m).run⟩] } : Site T).mutations i
          = some m' := by
      intro i m' hm
      obtain ⟨c, hc, rfl⟩ := Option.map_eq_some_iff.mp hm
      have hlt := (List.getElem?_eq_some_iff.mp hc).1
      simp only [Site.mutations, List.getElem?_append_left hlt, hc, Option.map_some]
    refine ⟨ho.filed.mono hmono, fun i c hc => ?_⟩
    rcases Nat.lt_or_ge i s.callers.length with hlt | hle
    · rw [List.getElem?_append_left hlt] at hc
      exact ho.watched i c hc
    · -- nobody has written on behalf of the new caller
      have hnobody : s.mutations i = none := by
        simp only [Site.mutations, List.getElem?_eq_none hle, Option.map_none]
      rw [List.getElem?_append_right hle] at hc
      obtain rfl := List.mem_singleton.mp (List.mem_of_getElem? hc)
      have hobeys : (watch F m).Obeys (Ended F) (mutateJson F m).run (.idle none) :=
        Monitor.Obeys.mono mutateJson_gives fun r st hr => match r, hr with
          | .ok _, hr => hr
          | .error _, _ => trivial
      refine ⟨.idle none, hobeys, fun hlog => ?_, fun hpending => ?_, by simp⟩
      · obtain ⟨w, hw, rfl⟩ := List.mem_map.mp hlog
        obtain ⟨k, hk⟩ := List.mem_iff_getElem?.mp hw
        obtain ⟨m', hm', -⟩ := ho.filed.serial k w hk
        rw [hnobody] at hm'
        cases hm'
      · obtain ⟨put, hput, rfl⟩ := List.mem_map.mp hpending
        obtain ⟨hin, hlive⟩ := List.mem_filter.mp hput
        obtain ⟨m', hm', -⟩ := ho.filed.based put hin hlive
        rw [hnobody] at hm'
        cases hm'
  | get i x =>
    simp only [Site.step] at hstep
    split at hstep
    · rename_i c hc
      obtain ⟨st, hobeys, hl⟩ := ho.watched i c hc
      simp only [Site.answer] at hstep
      split at hstep
      · rename_i k hrest
        rw [Option.ite_none_right_eq_some, Option.some.injEq] at hstep
        obtain ⟨hshows, rfl⟩ := hstep
        rw [hrest] at hobeys
        -- The condition: whoever is shown a version has not stored its mutation yet.
        refine ho.goOn hc (grows_refl _ _) ho.filed (hobeys.2 x) (hl.read hshows fun v hv => ?_)
        exact not_stored_of_spared hspared hv
      · cases hstep
    · cases hstep
  | aborted i a =>
    simp only [Site.step] at hstep
    split at hstep
    · rename_i c hc
      obtain ⟨st, hobeys, hl⟩ := ho.watched i c hc
      simp only [Site.answer] at hstep
      split at hstep
      · rename_i k hrest
        cases hstep
        rw [hrest] at hobeys
        exact ho.goOn hc (grows_refl _ _) ho.filed (hobeys.2 a) hl
      · cases hstep
    · cases hstep
  | slept i =>
    simp only [Site.step] at hstep
    split at hstep
    · rename_i c hc
      obtain ⟨st, hobeys, hl⟩ := ho.watched i c hc
      simp only [Site.answer] at hstep
      split at hstep
      · rename_i k hrest
        cases hstep
        rw [hrest] at hobeys
        exact ho.goOn hc (grows_refl _ _) ho.filed (hobeys.2 ()) hl
      · cases hstep
    · cases hstep
  | put i x =>
    simp only [Site.step] at hstep
    split at hstep
    · rename_i c hc
      obtain ⟨st, hobeys, hl⟩ := ho.watched i c hc
      simp only [Site.answer] at hstep
      split at hstep
      · rename_i ifMatch body k hrest
        obtain ⟨b', hput, rfl⟩ := Option.map_eq_some_iff.mp hstep
        rw [hrest] at hobeys
        obtain ⟨hmay, hnext⟩ := hobeys
        have hwho : s.mutations i = some c.mutation := by
          simp only [Site.mutations, hc, Option.map_some]
        -- The condition: what is taken for a conflict has no effect.
        obtain ⟨hf, hg, hl'⟩ := ho.filed.puts hwho hmay hl hput
            fun e effect hx hsome hconflict => by
          subst hx
          exact never_of_spared hspared hc hrest hsome hconflict
        exact ho.goOn hc hg hf (hnext x.answer) hl'
      · cases hstep
    · cases hstep
  | lands put etag =>
    simp only [Site.step, Option.ite_none_right_eq_some] at hstep
    obtain ⟨hin, hstep⟩ := hstep
    obtain ⟨b', hwrite, rfl⟩ := Option.map_eq_some_iff.mp hstep
    have hlive : s.blob.live put = true := Blob.live_of_admits (Blob.write_eq_some hwrite).2.1
    obtain ⟨m, hm, hbased⟩ := ho.filed.based put hin hlive
    obtain ⟨hf, hlog, hpending⟩ := ho.filed.erase hin hlive
    refine ⟨hf.write hm hbased hwrite hlog hpending, fun i c hc => ?_⟩
    obtain ⟨st, hobeys, hl⟩ := ho.watched i c hc
    exact ⟨st, hobeys, hl.lands hin hlive hwrite⟩

/-- At the start nobody has asked for anything. -/
theorem orderly_start (F : Format T) (base : Option Version) : Orderly F (Site.start base) := by
  refine ⟨⟨fun v hv w hw _ => ?_, ?_, List.nodup_nil, ?_⟩, ?_⟩
  · cases base with
    | none => cases hv
    | some u =>
      simp only [Site.start, Blob.versions, Option.toList_some, List.map_nil,
        List.append_nil, List.mem_singleton]
        at hv hw
      rw [hv, hw]
  · intro k w hk
    cases hk
  · intro put hput
    cases hput
  · intro i c hc
    cases hc

/-- **Once, one after another.** In a run whose events are all spared, the texts at the path are
made by the mutations of the calls, each applied to the text before and at most once; and the
mutation of a call that has returned was applied, once, and stored what it returned. -/
theorem mutateJson_once (F : Format T) {base : Option Version} {tr : List (Event T)} {s : Site T}
    (hrun : Run (Site.stepSpared F) (Site.start base) tr s) :
    (∀ k (w : Write), s.blob.log[k]? = some w → ∃ c : Caller T, s.callers[w.caller]? = some c
      ∧ c.mutation.apply F (s.blob.textAt k) = .ok w.version.body)
    ∧ (∀ i, (s.blob.log.map Write.caller).count i ≤ 1)
    ∧ ∀ i (c : Caller T) (value : T), s.callers[i]? = some c → c.rest = .done (.ok value) →
      (s.blob.log.map Write.caller).count i = 1
      ∧ ∃ w ∈ s.blob.log, w.caller = i ∧ F.stringify value = .ok w.version.body := by
  have ho : Orderly F s := hrun.invariant (orderly_start F base) fun t e u ht hstep => ht.step hstep
  have hnodup : (s.blob.log.map Write.caller).Nodup :=
    ho.filed.once.sublist (List.sublist_append_left _ _)
  refine ⟨fun k w hk => ?_, fun i => List.nodup_iff_count.mp hnodup i, fun i c value hc hdone => ?_⟩
  · obtain ⟨m, hm, happly⟩ := ho.filed.serial k w hk
    obtain ⟨c, hc, rfl⟩ := Option.map_eq_some_iff.mp hm
    exact ⟨c, hc, happly⟩
  · obtain ⟨st, hobeys, hl⟩ := ho.watched i c hc
    rw [hdone] at hobeys
    obtain ⟨body, rfl, hbody⟩ := hobeys
    obtain ⟨w, hw, rfl, rfl⟩ := hl
    have hmem : w.caller ∈ s.blob.log.map Write.caller := List.mem_map.mpr ⟨w, hw, rfl⟩
    have hpos := List.count_pos_iff.mpr hmem
    have hle := List.nodup_iff_count.mp hnodup w.caller
    exact ⟨by omega, w, hw, rfl, hbody⟩

namespace Sample

/-- Texts that are written as they are. -/
def format : Format String where
  stringify := .ok
  parse := .ok
  isNull _ := false

/-- One more stroke. -/
def stroke : Mutation String where
  initial := .ok ""
  mutate text := .ok (text ++ "/")

/-- A version is shown. -/
def shows (etag body : String) : Except SdkError (Option Found) :=
  .ok (some ⟨200, some (.ok body), etag⟩)

/-- Two calls find nothing at the path. The second one's `put` fails, and it tries again. -/
def race : List (Event String) :=
  [.calls stroke, .calls stroke, .get 0 (.ok none), .get 1 (.ok none), .put 0 (.saved "a"),
    .put 1 (.failed (.blob .plain "Vercel Blob: This blob already exists") .never),
    .get 1 (shows "a" "/"), .slept 1, .get 1 (shows "a" "/"), .put 1 (.saved "b")]

/-- A call creates the value, but the answer is lost. It finds its own value, and tries again. -/
def ambiguous : List (Event String) :=
  [.calls stroke, .get 0 (.ok none), .put 0 (.failed (.blob .serviceNotAvailable "") (.now "a")),
    .get 0 (shows "a" "/"), .slept 0, .get 0 (shows "a" "/"), .put 0 (.saved "b")]

/-- Whether a call has returned a text. -/
def returned (text : String) (c : Caller String) : Bool :=
  match c.rest with
  | .done (.ok result) => result = text
  | _ => false

/-- A caller that has returned is done. -/
theorem rest_of_returned {text : String} {c : Caller String} (h : returned text c = true) :
    c.rest = .done (.ok text) := by
  rw [returned] at h
  split at h
  · rename_i result hdone
    rw [hdone, of_decide_eq_true h]
  · cases h

end Sample

/-- Both strokes are there. -/
theorem mutateJson_once_race : ∃ s : Site String,
  Run (Site.stepSpared Sample.format) (Site.start none) Sample.race s
    ∧ s.blob.log.map Write.version = [⟨"a", "/"⟩, ⟨"b", "//"⟩]
      ∧ (s.blob.log.map Write.caller).count 0 = 1
    ∧ (s.blob.log.map Write.caller).count 1 = 1 := by
  have hsample : (runAll (Site.stepSpared Sample.format) (Site.start none) Sample.race).any
      (fun s => s.blob.log.map Write.version = [⟨"a", "/"⟩, ⟨"b", "//"⟩]
        && s.callers[0]?.any (Sample.returned "/")
        && s.callers[1]?.any (Sample.returned "//")) = true := by
    decide +kernel
  rw [Option.any_eq_true] at hsample
  obtain ⟨s, hrun, hsample⟩ := hsample
  have hrun := runAll_eq_some.mp hrun
  rw [Bool.and_eq_true, Bool.and_eq_true, Option.any_eq_true, Option.any_eq_true,
    decide_eq_true_eq] at hsample
  obtain ⟨⟨hlog, c, hc, hfirst⟩, d, hd, hsecond⟩ := hsample
  have honce := (mutateJson_once Sample.format hrun).2.2
  exact ⟨s, hrun, hlog, (honce 0 c _ hc (Sample.rest_of_returned hfirst)).1,
    (honce 1 d _ hd (Sample.rest_of_returned hsecond)).1⟩

/-- One call, which returns, and two strokes of its own. -/
theorem mutateJson_twice : ∃ (s : Site String) (c : Caller String),
    Run (Site.step Sample.format) (Site.start none) Sample.ambiguous s
    ∧ s.callers[0]? = some c ∧ c.rest = .done (.ok "//")
    ∧ s.blob.log = [⟨0, ⟨"a", "/"⟩⟩, ⟨0, ⟨"b", "//"⟩⟩] := by
  have hsample : (runAll (Site.step Sample.format) (Site.start none) Sample.ambiguous).any (fun s =>
      s.blob.log = [⟨0, ⟨"a", "/"⟩⟩, ⟨0, ⟨"b", "//"⟩⟩]
        && s.callers[0]?.any (Sample.returned "//")) = true := by
    decide +kernel
  rw [Option.any_eq_true] at hsample
  obtain ⟨s, hrun, hsample⟩ := hsample
  rw [Bool.and_eq_true, Option.any_eq_true, decide_eq_true_eq] at hsample
  obtain ⟨hlog, c, hc, hdone⟩ := hsample
  exact ⟨s, c, runAll_eq_some.mp hrun, hc, Sample.rest_of_returned hdone, hlog⟩

end JsonStore

end DividendX
