import DividendX.Lib.Json
import DividendX.Lib.Sha256
import DividendX.Lib.Utf16
import DividendX.Sdk.Bytes
import DividendX.Sdk.EventInputs

/-!
# Identity hashes

`identity.ts` and `discovery.ts` of the transaction SDK. An identity is hashed over its kind, its
cluster domain and its source identifier, each behind its length; a term over the genesis hash,
behind its length, and parts of fixed width. The texts are those of the language: lists of UTF-16
code units that nothing requires to be well formed.

The framing is unambiguous, so a preimage gives back the bytes of every part. It does not give back
the texts: the text encoder writes U+FFFD for a lone surrogate, and normalization lets lone
surrogates pass.
-/

namespace DividendX

open LittleEndian

namespace Sdk

/-! ## What is hashed -/

/-- A text literal of the source. -/
def literal (s : String) : List UInt16 := Utf16.ofString s

/-- `IDENTITY_PREFIX`. -/
def identityTag : List UInt8 := Utf16.utf8 (literal "dividendx:identity:v1")

/-- `canonicalComponent`, with the normalization `nfc`. -/
def canonicalComponent (nfc : List UInt16 → List UInt16) (value : List UInt16) (label : String) :
    Thrown (List UInt8) := do
  invariant (0 < value.length) .invalidIdentity (label ++ " cannot be empty")
  invariant (value = nfc value) .invalidIdentity (label ++ " must use Unicode NFC")
  let bytes := Utf16.utf8 value
  invariant (bytes.length ≤ 1024) .invalidIdentity
    (label ++ " must encode to at most 1024 UTF-8 bytes")
  let length ← u32Le bytes.length
  return concatBytes [length, bytes]

/-- The arguments of `identityHash`. -/
structure Identity where
  kind : List UInt16
  clusterDomain : List UInt16
  sourceIdentifier : List UInt16
  deriving DecidableEq

/-- The preimage of `identityHash`. -/
def identityPreimage (nfc : List UInt16 → List UInt16) (identity : Identity) :
    Thrown (List UInt8) := do
  let kind ← canonicalComponent nfc identity.kind "identity kind"
  let clusterDomain ← canonicalComponent nfc identity.clusterDomain "cluster domain"
  let sourceIdentifier ← canonicalComponent nfc identity.sourceIdentifier "source identifier"
  return concatBytes [identityTag, kind, clusterDomain, sourceIdentifier]

/-- `identityHash`. The label of its last check is the text of the kind, read as characters. -/
def identityHash (nfc : List UInt16 → List UInt16) (identity : Identity) : Thrown (List UInt8) := do
  let preimage ← identityPreimage nfc identity
  let digest := (Sha256.hash preimage).toList
  checkedDigest digest (String.ofList (Utf16.scalars identity.kind) ++ " identity hash")
  return digest

/-- `issuerIdentityHash`. -/
def issuerIdentityHash (nfc : List UInt16 → List UInt16)
    (clusterDomain sourceIssuerId : List UInt16) :
    Thrown (List UInt8) :=
  identityHash nfc ⟨literal "issuer", clusterDomain, sourceIssuerId⟩

/-- `eventIdentityHash`. -/
def eventIdentityHash (nfc : List UInt16 → List UInt16)
    (clusterDomain sourceEventId : List UInt16) :
    Thrown (List UInt8) :=
  identityHash nfc ⟨literal "event", clusterDomain, sourceEventId⟩

/-- `DeploymentIdentity` and `TermDiscoveryIdentity`. -/
structure TermDiscoveryIdentity where
  clusterGenesisHash : List UInt16
  programId : Bytes32
  deploymentDomain : List UInt8
  issuerId : List UInt8
  collateralMint : Bytes32
  year : Int
  deriving DecidableEq

/-- `stringBytes`. -/
def stringBytes (value : List UInt16) : Thrown (List UInt8) := do
  let bytes := Utf16.utf8 value
  let length ← u32Le bytes.length
  return concatBytes [length, bytes]

/-- The preimage of `termDiscoveryId`. -/
def termDiscoveryPreimage (identity : TermDiscoveryIdentity) : Thrown (List UInt8) := do
  invariant (0 < identity.clusterGenesisHash.length) .invalidIdentity
    "cluster genesis hash is required"
  invariant (2020 ≤ identity.year ∧ identity.year ≤ 2100) .invalidIdentity "year must be 2020-2100"
  let clusterGenesisHash ← stringBytes identity.clusterGenesisHash
  checkedDigest identity.deploymentDomain "deployment domain"
  checkedDigest identity.issuerId "issuer ID"
  let year ← u16Le identity.year
  return concatBytes [Utf16.utf8 (literal "dividendx:term:v1"), clusterGenesisHash,
    identity.programId.toList,
    identity.deploymentDomain, identity.issuerId, identity.collateralMint.toList, year]

/-- `hex`. -/
def hex (bytes : List UInt8) : String :=
  String.ofList
    (bytes.flatMap fun byte => [Json.hexDigit (byte.toNat / 16), Json.hexDigit (byte.toNat % 16)])

/-- `termDiscoveryId`. -/
def termDiscoveryId (identity : TermDiscoveryIdentity) : Thrown String := do
  let preimage ← termDiscoveryPreimage identity
  return hex (Sha256.hash preimage).toList

/-- The digest of an issuer that the package's own test expects. -/
example :
    (issuerIdentityHash id (literal "localnet:test-genesis") (literal "issuer:example")).map hex
    = .ok "a87659d78ced88659c6e667f6a191c352f7ebb373f181b8456cbfd645e9eed54" := by
  decide +kernel

/-! ## The framing -/

/-- What a text has to be to be a part of an identity. -/
def Canonical (nfc : List UInt16 → List UInt16) (value : List UInt16) : Prop :=
  0 < value.length ∧ value = nfc value ∧ (Utf16.utf8 value).length ≤ 1024

/-- A part is framed if its length fits in four bytes. -/
theorem delimited_eq_ok {text bytes : List UInt8} :
    (u32Le text.length >>= fun length => pure (concatBytes [length, text])) = .ok bytes
      ↔ text.length < 256 ^ 4 ∧ delimited 4 text = bytes := by
  have hbound : (0 ≤ (text.length : Int) ∧ (text.length : Int) ≤ 0xffff_ffff) ↔
      text.length < 256 ^ 4 := by
    norm_num
    omega
  simp only [Result.bind_eq_ok, u32Le_eq_ok, Result.pure_eq_ok, hbound, Int.toNat_natCast]
  constructor
  · rintro ⟨_, ⟨hlt, rfl⟩, rfl⟩
    exact ⟨hlt, by simp [concatBytes, delimited]⟩
  · rintro ⟨hlt, rfl⟩
    exact ⟨_, ⟨hlt, rfl⟩, by simp [concatBytes, delimited]⟩

/-- A component is framed if it is canonical. -/
theorem canonicalComponent_eq_ok {nfc : List UInt16 → List UInt16}
    {value : List UInt16} {label : String}
    {bytes : List UInt8} :
    canonicalComponent nfc value label = .ok bytes
      ↔ Canonical nfc value ∧ delimited 4 (Utf16.utf8 value) = bytes := by
  rw [canonicalComponent]
  simp only [Result.bind_eq_ok (x := invariant _ _ _), Result.exists_unit,
    invariant_eq_ok, delimited_eq_ok, Canonical]
  constructor
  · rintro ⟨hlength, hnfc, hbound, -, hbytes⟩
    exact ⟨⟨hlength, hnfc, hbound⟩, hbytes⟩
  · rintro ⟨⟨hlength, hnfc, hbound⟩, hbytes⟩
    exact ⟨hlength, hnfc, hbound, by omega, hbytes⟩

theorem stringBytes_eq_ok {value : List UInt16} {bytes : List UInt8} :
    stringBytes value = .ok bytes
      ↔ (Utf16.utf8 value).length < 256 ^ 4 ∧ delimited 4 (Utf16.utf8 value) = bytes :=
  delimited_eq_ok

/-- An identity has a preimage if all its components are canonical. -/
theorem identityPreimage_eq_ok {nfc : List UInt16 → List UInt16} {identity : Identity}
    {preimage : List UInt8} :
    identityPreimage nfc identity = .ok preimage
      ↔ (Canonical nfc identity.kind ∧ Canonical nfc identity.clusterDomain
        ∧ Canonical nfc identity.sourceIdentifier) ∧ identityTag
          ++ (delimited 4 (Utf16.utf8 identity.kind)
            ++ (delimited 4 (Utf16.utf8 identity.clusterDomain)
          ++ (delimited 4 (Utf16.utf8 identity.sourceIdentifier) ++ []))) = preimage := by
  simp only [identityPreimage, Result.bind_eq_ok, canonicalComponent_eq_ok,
    Result.pure_eq_ok, concatBytes, List.flatten_cons, List.flatten_nil]
  constructor
  · rintro ⟨_, ⟨hkind, rfl⟩, _, ⟨hdomain, rfl⟩, _, ⟨hsource, rfl⟩, rfl⟩
    exact ⟨⟨hkind, hdomain, hsource⟩, rfl⟩
  · rintro ⟨⟨hkind, hdomain, hsource⟩, rfl⟩
    exact ⟨_, ⟨hkind, rfl⟩, _, ⟨hdomain, rfl⟩, _, ⟨hsource, rfl⟩, rfl⟩

/-! ## What a preimage tells -/

/-- The identity with every lone surrogate replaced. -/
def Identity.toWellFormed (identity : Identity) : Identity :=
  ⟨Utf16.toWellFormed identity.kind, Utf16.toWellFormed identity.clusterDomain,
    Utf16.toWellFormed identity.sourceIdentifier⟩

/-- The identity with every lone surrogate replaced. -/
def TermDiscoveryIdentity.toWellFormed (identity : TermDiscoveryIdentity) : TermDiscoveryIdentity :=
  { identity with clusterGenesisHash := Utf16.toWellFormed identity.clusterGenesisHash }

theorem Canonical.length_lt {nfc : List UInt16 → List UInt16} {value : List UInt16}
    (h : Canonical nfc value) :
    (Utf16.utf8 value).length < 256 ^ 4 := by
  have hbound := h.2.2
  omega

/-- **An identity's preimage** tells its texts up to lone surrogates. -/
theorem identityPreimage_eq_iff {nfc : List UInt16 → List UInt16} {a b : Identity}
    {preimage preimage' : List UInt8}
    (ha : identityPreimage nfc a = .ok preimage) (hb : identityPreimage nfc b = .ok preimage') :
    preimage = preimage' ↔ a.toWellFormed = b.toWellFormed := by
  obtain ⟨⟨hkind, hdomain, hsource⟩, rfl⟩ := identityPreimage_eq_ok.mp ha
  obtain ⟨⟨hkind', hdomain', hsource'⟩, rfl⟩ := identityPreimage_eq_ok.mp hb
  simp only [Identity.toWellFormed, Identity.mk.injEq, ← Utf16.utf8_eq_iff]
  constructor
  · intro h
    have hparts := List.append_cancel_left h
    obtain ⟨hk, hparts⟩ := delimited_append_injective hkind.length_lt hkind'.length_lt hparts
    obtain ⟨hd, hparts⟩ := delimited_append_injective hdomain.length_lt hdomain'.length_lt hparts
    obtain ⟨hs, -⟩ := delimited_append_injective hsource.length_lt hsource'.length_lt hparts
    exact ⟨hk, hd, hs⟩
  · rintro ⟨hk, hd, hs⟩
    rw [hk, hd, hs]

/-- What an identity of a term has to be. -/
def TermDiscoveryIdentity.Accepted (identity : TermDiscoveryIdentity) : Prop :=
  (Utf16.utf8 identity.clusterGenesisHash).length < 256 ^ 4
    ∧ identity.deploymentDomain.length = 32 ∧ identity.issuerId.length = 32
    ∧ 2020 ≤ identity.year ∧ identity.year ≤ 2100

/-- A term has one only if it is accepted. -/
theorem termDiscoveryPreimage_eq_ok {identity : TermDiscoveryIdentity} {preimage : List UInt8}
    (h : termDiscoveryPreimage identity = .ok preimage) :
    identity.Accepted
      ∧ Utf16.utf8 (literal "dividendx:term:v1")
        ++ (delimited 4 (Utf16.utf8 identity.clusterGenesisHash)
        ++ (identity.programId.toList ++ (identity.deploymentDomain ++ (identity.issuerId
          ++ (identity.collateralMint.toList ++ fixed 2 identity.year.toNat))))) = preimage := by
  simp only [termDiscoveryPreimage, checkedDigest, Result.bind_eq_ok,
    Result.exists_unit, invariant_eq_ok, stringBytes_eq_ok, u16Le_eq_ok, Result.pure_eq_ok] at h
  obtain ⟨-, hyear, _, ⟨hgenesis, rfl⟩, ⟨hdomain, -⟩, ⟨hissuer, -⟩, _, ⟨-, rfl⟩, rfl⟩ := h
  refine ⟨⟨hgenesis, hdomain, hissuer, hyear⟩, ?_⟩
  simp only [concatBytes, List.flatten_cons, List.flatten_nil, List.append_nil]

/-- **A term's preimage** tells its parts, the genesis hash up to lone surrogates. -/
theorem termDiscoveryPreimage_eq_iff {a b : TermDiscoveryIdentity} {preimage preimage' : List UInt8}
    (ha : termDiscoveryPreimage a = .ok preimage) (hb : termDiscoveryPreimage b = .ok preimage') :
    preimage = preimage' ↔ a.toWellFormed = b.toWellFormed := by
  obtain ⟨⟨hgenesis, hdomain, hissuer, hyear⟩, rfl⟩ := termDiscoveryPreimage_eq_ok ha
  obtain ⟨⟨hgenesis', hdomain', hissuer', hyear'⟩, rfl⟩ := termDiscoveryPreimage_eq_ok hb
  simp only [TermDiscoveryIdentity.toWellFormed, TermDiscoveryIdentity.mk.injEq,
    ← Utf16.utf8_eq_iff]
  constructor
  · intro h
    have hparts := List.append_cancel_left h
    obtain ⟨hg, hparts⟩ := delimited_append_injective hgenesis hgenesis' hparts
    -- the other parts have one width each
    obtain ⟨hprogram, hparts⟩ := List.append_inj hparts (by simp)
    obtain ⟨hd, hparts⟩ := List.append_inj hparts (by rw [hdomain, hdomain'])
    obtain ⟨hi, hparts⟩ := List.append_inj hparts (by rw [hissuer, hissuer'])
    obtain ⟨hmint, hyears⟩ := List.append_inj hparts (by simp)
    have hy : a.year.toNat = b.year.toNat := fixed_injective (by omega) (by omega) hyears
    exact ⟨hg, List.Vector.eq _ _ hprogram, hd, hi, List.Vector.eq _ _ hmint, by omega⟩
  · rintro ⟨hg, hprogram, hd, hi, hmint, hy⟩
    rw [hg, hprogram, hd, hi, hmint, hy]

/-- An identity hash is accepted with its preimage. -/
theorem identityPreimage_of_hash {nfc : List UInt16 → List UInt16}
    {identity : Identity} {digest : List UInt8}
    (h : identityHash nfc identity = .ok digest) : ∃ preimage,
    identityPreimage nfc identity = .ok preimage := by
  obtain ⟨preimage, hpreimage, -⟩ := Result.bind_eq_ok.mp h
  exact ⟨preimage, hpreimage⟩

/-- An id is that of a preimage. -/
theorem termDiscoveryPreimage_of_id {identity : TermDiscoveryIdentity} {hash : String}
    (h : termDiscoveryId identity = .ok hash) : ∃ preimage,
    termDiscoveryPreimage identity = .ok preimage := by
  obtain ⟨preimage, hpreimage, -⟩ := Result.bind_eq_ok.mp h
  exact ⟨preimage, hpreimage⟩

/-- **What is separated**: two accepted identities with equal preimages are equal, unless they
differ in lone surrogates alone; and so are two accepted identities of terms. -/
theorem preimages_separate (nfc : List UInt16 → List UInt16) :
    (∀ a b digest digest', identityHash nfc a = .ok digest → identityHash nfc b = .ok digest' →
      ((identityPreimage nfc a = identityPreimage nfc b → a = b) ↔
        (a.toWellFormed = b.toWellFormed → a = b)))
      ∧ ∀ a b hash hash', termDiscoveryId a = .ok hash → termDiscoveryId b = .ok hash' →
        ((termDiscoveryPreimage a = termDiscoveryPreimage b → a = b)
          ↔ (a.toWellFormed = b.toWellFormed → a = b)) := by
  constructor
  · intro a b digest digest' ha hb
    obtain ⟨preimage, ha⟩ := identityPreimage_of_hash ha
    obtain ⟨preimage', hb⟩ := identityPreimage_of_hash hb
    rw [← identityPreimage_eq_iff ha hb, ha, hb, Except.ok.injEq]
  · intro a b hash hash' ha hb
    obtain ⟨preimage, ha⟩ := termDiscoveryPreimage_of_id ha
    obtain ⟨preimage', hb⟩ := termDiscoveryPreimage_of_id hb
    rw [← termDiscoveryPreimage_eq_iff ha hb, ha, hb, Except.ok.injEq]

/-- An event of the local cluster. -/
def localEvent (sourceIdentifier : List UInt16) : Identity :=
  ⟨literal "event", literal "localnet", sourceIdentifier⟩

/-- A term of a cluster. -/
def clusterTerm (clusterGenesisHash : List UInt16) : TermDiscoveryIdentity where
  clusterGenesisHash
  programId := List.Vector.replicate 32 1
  deploymentDomain := List.replicate 32 2
  issuerId := List.replicate 32 3
  collateralMint := List.Vector.replicate 32 4
  year := 2027

theorem localEvent_accepted (sourceIdentifier : List UInt16)
    (h : (identityHash id (localEvent sourceIdentifier)).toOption.isSome
      = true := by decide +kernel) :
    ∃ digest, identityHash id (localEvent sourceIdentifier) = .ok digest := by
  obtain ⟨digest, hdigest⟩ := Option.isSome_iff_exists.mp h
  exact ⟨digest, Result.toOption_eq_some.mp hdigest⟩

theorem clusterTerm_accepted (clusterGenesisHash : List UInt16)
    (h : (termDiscoveryId (clusterTerm clusterGenesisHash)).toOption.isSome
      = true := by decide +kernel) :
    ∃ hash, termDiscoveryId (clusterTerm clusterGenesisHash) = .ok hash := by
  obtain ⟨hash, hhash⟩ := Option.isSome_iff_exists.mp h
  exact ⟨hash, Result.toOption_eq_some.mp hhash⟩

theorem preimages_separate_sample :
    identityPreimage id (localEvent (literal "a")) ≠ identityPreimage id (localEvent (literal "b"))
      ∧ termDiscoveryPreimage (clusterTerm (literal "a")) ≠ termDiscoveryPreimage
        (clusterTerm (literal "b")) := by
  obtain ⟨_, ha⟩ := localEvent_accepted (literal "a")
  obtain ⟨_, hb⟩ := localEvent_accepted (literal "b")
  obtain ⟨_, hta⟩ := clusterTerm_accepted (literal "a")
  obtain ⟨_, htb⟩ := clusterTerm_accepted (literal "b")
  constructor
  · intro h
    exact absurd (((preimages_separate id).1 _ _ _ _ ha hb).mpr (by decide) h) (by decide)
  · intro h
    exact absurd (((preimages_separate id).2 _ _ _ _ hta htb).mpr (by decide) h) (by decide)

/-- Two accepted events, and two accepted terms, that differ in a lone surrogate. -/
theorem lone_surrogates_collide :
    ((∃ digest, identityHash id (localEvent [0xd800]) = .ok digest)
        ∧ (∃ digest, identityHash id (localEvent [0xd801]) = .ok digest)
        ∧ identityPreimage id (localEvent [0xd800]) = identityPreimage id (localEvent [0xd801])
        ∧ localEvent [0xd800] ≠ localEvent [0xd801])
      ∧ (∃ hash, termDiscoveryId (clusterTerm [0xd800]) = .ok hash)
      ∧ (∃ hash, termDiscoveryId (clusterTerm [0xd801]) = .ok hash)
      ∧ termDiscoveryPreimage (clusterTerm [0xd800]) = termDiscoveryPreimage (clusterTerm [0xd801])
      ∧ clusterTerm [0xd800] ≠ clusterTerm [0xd801] :=
  ⟨⟨localEvent_accepted _, localEvent_accepted _, by decide +kernel, by decide⟩,
    clusterTerm_accepted _, clusterTerm_accepted _, by decide +kernel, by decide⟩

end Sdk

end DividendX
