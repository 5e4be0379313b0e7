import ScorecardInfra.Server.Operations

/-!
# The transparency log entry and the certificate of a payload

A request to publish a payload is authenticated by an entry of the Rekor transparency log.
`extractAndVerifyCertForPayload` looks the entry up, by its index or by the hash of the payload, and
checks it; `extractCertInfo` reads the certificate's extensions.

The lookup is a program (`findEntry`), the checks are a function of the entry (`verifyEntry`). What
a checked entry satisfies is `VerifiedEntry`: it records the payload's hash, Rekor signed it, and
its only certificate chains to the Fulcio roots and was valid when the entry was made.

## Main definitions

* `getUUIDsByPayload`, `getTLogEntryFromURL`, `findEntry`, `extractAndVerifyCertForPayload`.
* `TlogEntry.rekord`, `HashedRekord.matchesBlob`, `HashedRekord.certs`, `verifyInclusionProof`,
  `verifyCert`, `verifyEntry`, `VerifiedEntry`.
* `CertInfo`, `extractCertInfo`, `Certificate.extension`.

## Main results

* `verifiedEntry_of_verifyEntry`, `of_extractCertInfo`.
* `exec_extractAndVerifyCertForPayload_ok`.

Sources: `api/app/server/post_results.go`, lines 292–621;
`api/app/server/internal/hashedrekord/hashedrekord.go`.
-/

namespace ScorecardInfra.Server

open GoStd Interaction

variable (L : Libraries)

/-- The error of a pure function, with a context. -/
def inContext {α : Type} (context : String) (x : Except ServerError α) : Except ServerError α :=
  x.mapError (.wrapf context)

/-- The error of a library function, with a context. -/
def libraryResult {α : Type} (context : String) (x : Except String α) : Except ServerError α :=
  x.mapError fun message => .wrapf context (.text message)

/-! ### Looking up an entry -/

/-- Make a request and send it with the default client. -/
def sendRequest (newRequest doRequest : String) (req : HttpRequest) : Api HttpResponse := do
  Interaction.ofExcept (libraryResult newRequest (L.newRequest req.method req.url))
  let answer ← performApi (.send req)
  Interaction.ofExcept (libraryResult doRequest answer)

/-- The request to the search index. -/
def indexRequest (payload : String) : HttpRequest where
  method := "POST"
  url := "https://rekor.sigstore.dev/api/v1/index/retrieve"
  headers := [("Content-Type", "application/json"), ("accept", "application/json")]
  body := "\x7b\"hash\":\"sha256:" ++ Hex.encodeToString (L.sha256 payload) ++ "\"\x7d"

/-- `getUUIDsByPayload`.

Source: `api/app/server/post_results.go`, lines 352–396. -/
def getUUIDsByPayload (payload : String) : Api (List String) := do
  let resp ← sendRequest L "creating new HTTP request" "looking up Rekor index"
    (indexRequest L payload)
  failIf (resp.statusCode != 200) (.wrap "" (.sentinel .errRekorSearchUnavailable)
    (": status " ++ toString resp.statusCode ++ ": " ++
      Strings.trimSpace (String.ofList (resp.body.toList.take 512))))
  Interaction.ofExcept ((L.decodeStrings resp.body).mapError fun message =>
    .wrapBoth (.sentinel .errRekorSearchUnavailable) ": decoding response: " (.text message))

/-- The request for an entry. -/
def entryRequest (url : String) : HttpRequest where
  method := "GET"
  url := url
  headers := [("accept", "application/json")]
  body := ""

/-- The entry that the loop of `getTLogEntryFromURL` meets first. -/
def firstEntry : List (Σ _ : String, TlogEntry) → Except ServerError (String × TlogEntry)
  | [] => .error (.sentinel .errNoTlogEntry)
  | ⟨uuid, res⟩ :: _ => .ok (uuid, res)

/-- `getTLogEntryFromURL`.

Source: `api/app/server/post_results.go`, lines 399–420. -/
def getTLogEntryFromURL (url : String) : Api (String × TlogEntry) := do
  let resp ← sendRequest L "creating new HTTP request" "looking up Rekor index" (entryRequest url)
  let rekorResult ← Interaction.ofExcept
    (libraryResult "decoding Rekor response" (L.decodeEntries resp.body))
  let order ← performApi (.range rekorResult.entries.length)
  Interaction.ofExcept (firstEntry (rekorResult.visit order))

/-- The address of the log's entries. -/
def logEntries : String := "https://rekor.sigstore.dev/api/v1/log/entries"

/-- `getTLogEntryByIndex`. -/
def getTLogEntryByIndex (index : Int) : Api (String × TlogEntry) :=
  getTLogEntryFromURL L (logEntries ++ "?logIndex=" ++ toString index)

/-- `getTLogEntryByUUID`. -/
def getTLogEntryByUUID (uuid : String) : Api TlogEntry :=
  Prod.snd <$> getTLogEntryFromURL L (logEntries ++ "/" ++ uuid)

/-- The most recent of the entries found for a payload. -/
def lastUUID (uuids : List String) : Except ServerError String :=
  match uuids.getLast? with
  | none => .error (.wrapNil "error finding tlog entries corresponding to payload")
  | some uuid => .ok uuid

/-- The first part of `extractAndVerifyCertForPayload`: the entry with its identifier, by the index
of the request or, for index 0, by the hash of the payload.

Source: `api/app/server/post_results.go`, lines 297–316. -/
def findEntry (payload : String) (tlogIndex : Int) : Api (String × TlogEntry) :=
  if tlogIndex = 0 then do
    let uuids ← annotate (.wrapf "error finding tlog entries corresponding to payload")
      (getUUIDsByPayload L payload)
    let uuid ← Interaction.ofExcept (lastUUID uuids)
    let entry ← annotate (.wrapf "error fetching tlog entry") (getTLogEntryByUUID L uuid)
    return (uuid, entry)
  else annotate (.wrapf "error fetching tlog entry") (getTLogEntryByIndex L tlogIndex)

/-! ### Checking an entry -/

/-- `rekord`: the record in the body of an entry.

Source: `api/app/server/post_results.go`, lines 608–621. -/
def TlogEntry.rekord (t : TlogEntry) : Except ServerError HashedRekord := do
  let b ← libraryResult "decode rekord body" (L.base64Decode t.body)
  let body ← libraryResult "unmarshal rekord body" (L.unmarshalBody b)
  refuseIf (body.kind != "hashedrekord") (.sentinel .errNotRekordEntry)
  return body

/-- `Matches`: the record is about the SHA-256 hash of `blob`.

Source: `api/app/server/internal/hashedrekord/hashedrekord.go`, lines 59–68. -/
def HashedRekord.matchesBlob (b : HashedRekord) (blob : String) : Bool :=
  b.algorithm == "sha256" && Hex.encodeToString (L.sha256 blob) == b.hashValue

/-- The loop of `Certs`, over the rest of the public key. The number bounds its length: each block
that is decoded consumes input, so the bound is not reached (`certsLoop_mono`). -/
def certsLoop : Nat → String → Except ServerError (List Certificate)
  | 0, _ => .ok []
  | n + 1, remaining =>
    if remaining = "" then .ok [] else
      match L.pemDecode remaining with
      | none => .error (.wrapNil "error during PEM decoding")
      | some (der, rest) => do
        let cert ← libraryResult "error during certificate parsing" (L.parseCertificate der)
        let certs ← certsLoop n rest
        return cert :: certs

/-- `Certs`: the certificates in the record's public key.

Source: `api/app/server/internal/hashedrekord/hashedrekord.go`, lines 71–94. -/
def HashedRekord.certs (b : HashedRekord) : Except ServerError (List Certificate) := do
  let publicKey ← libraryResult "decode rekord public key" (L.base64Decode b.publicKey)
  certsLoop L publicKey.toList.length publicKey

/-- `hex.DecodeString` with its error in a context. -/
def hexDecode (context s : String) : Except ServerError String :=
  match Hex.decodeString s with
  | none => .error (.wrapf context (.text (L.hexErrorText s)))
  | some b => .ok b

/-- The leaf hash that an identifier of an entry stands for: its last 32 bytes. -/
def leafHash (uuid : String) : Except ServerError String := do
  let leafHash ← hexDecode L "error decoding hex encoded leaf hash" uuid
  let size := leafHash.toList.length
  refuseIf (size < 32) (.text ("leafHash has unexpected size " ++ toString size ++ ", want 32"))
  return String.ofList (leafHash.toList.drop (size - 32))

/-- The Merkle proof of an entry. -/
def verifyMerkleProof (uuid : String) (proof : InclusionProof) : Except ServerError Unit := do
  let rootHash ← hexDecode L "error decoding hex encoded root hash" proof.rootHash
  let leafHash ← leafHash L uuid
  let hashes ← proof.hashes.mapM (hexDecode L "error decoding inclusion proof hashes")
  (L.verifyInclusion proof.logIndex proof.treeSize leafHash hashes rootHash).mapError fun message =>
    .wrap "" (.text message) ": verifying inclusion proof"

/-- The bytes of the embedded key. -/
def rekorKeyBytes : Except ServerError String :=
  match L.pemDecode L.rekorPub with
  | none => .error (.text "PEM decoding failed")
  | some (der, _) => .ok der

/-- The embedded key as an ECDSA key. -/
def ecdsaKey (der : String) : Except ServerError L.EcdsaKey := do
  match ← libraryResult "parsing Rekor pub key" (L.parsePKIXPublicKey der) with
  | none => .error (.text "public key retrieved from Rekor is not an ECDSA key")
  | some key => .ok key

/-- Rekor's signature over an entry. -/
def verifyTimestamp (e : TlogEntry) (signedEntryTimestamp : String) : Except ServerError Unit := do
  let der ← rekorKeyBytes L
  let key ← ecdsaKey L der
  let jsonPayload ← libraryResult "json marshalling Rekor payload"
    (L.marshalPayload e.signedPayload)
  let jsonCanonicalized ← libraryResult "json canonicalizer" (L.canonicalize jsonPayload)
  refuseIf (!L.verifyASN1 key (L.sha256 jsonCanonicalized) signedEntryTimestamp)
    (.text "unable to verify")

/-- The inclusion proof of an entry and its timestamp, if the entry has both. -/
def TlogEntry.proofSection (e : TlogEntry) : Option (InclusionProof × String) := do
  let v ← e.verification
  let proof ← v.inclusionProof
  return (proof, v.signedEntryTimestamp)

/-- `verifyInclusionProof`.

Source: `api/app/server/post_results.go`, lines 439–512. -/
def verifyInclusionProof (uuid : String) (e : TlogEntry) : Except ServerError Unit :=
  match e.proofSection with
  | none => .error (.text "no inclusion proof provided")
  | some (proof, signedEntryTimestamp) => do
    verifyMerkleProof L uuid proof
    verifyTimestamp L e signedEntryTimestamp

/-- `getCertPool`. -/
def getCertPool (cert : String) : Except ServerError L.CertPool :=
  match L.certPoolFromPEM cert with
  | none => .error (.wrapf "retrieving Fulcio root" (.text "unmarshalling PEM certificate"))
  | some pool => .ok pool

/-- `verifyCert`: the chain of the certificate, and that it was valid at a time.

Source: `api/app/server/post_results.go`, lines 518–549. -/
def verifyCert (cert : Certificate) (integratedTime : Int) : Except ServerError Unit := do
  let roots ← getCertPool L L.fulcioRoot
  let intermediates ← getCertPool L L.fulcioIntermediate
  libraryResult "verifying Fulcio issued certificate"
    (L.verifyChain cert roots intermediates cert.notBefore)
  refuseIf (cert.notAfter < integratedTime)
    (.text ("certificate expired before signatures were entered in log: " ++
      L.timeText cert.notAfter ++ " is before " ++ L.timeText integratedTime))
  refuseIf (integratedTime < cert.notBefore)
    (.text ("certificate was issued after signatures were entered in log: " ++
      L.timeText cert.notAfter ++ " is after " ++ L.timeText integratedTime))

/-- The only certificate of a record. -/
def singleCert : List Certificate → Except ServerError Certificate
  | [] => .error (.wrapNil "error extracting certificate from entry")
  | [cert] => .ok cert
  | _ => .error (.sentinel .errMultipleCerts)

/-- The second part of `extractAndVerifyCertForPayload`: the checks of the entry.

Source: `api/app/server/post_results.go`, lines 318–345. -/
def verifyEntry (payload uuid : String) (entry : TlogEntry) : Except ServerError Certificate := do
  let rekordBody ← entry.rekord L
  refuseIf (!rekordBody.matchesBlob L payload) (.sentinel .errMismatchedTlogEntry)
  inContext "unable to verify rekor inclusion proof" (verifyInclusionProof L uuid entry)
  let certs ← inContext "error extracting certificate from entry" (rekordBody.certs L)
  let cert ← singleCert certs
  inContext "verifying cert" (verifyCert L cert entry.integratedTime)
  return cert

/-- `extractAndVerifyCertForPayload`.

Source: `api/app/server/post_results.go`, lines 292–346. -/
def extractAndVerifyCertForPayload (payload : String) (tlogIndex : Int) : Api Certificate := do
  let r ← findEntry L payload tlogIndex
  Interaction.ofExcept (verifyEntry L payload r.1 r.2)

/-! ### The certificate's information -/

/-- `certInfo`. -/
structure CertInfo where
  repoFullName : String
  repoBranchRef : String
  repoSHA : String
  workflowPath : String
  workflowRef : String
  issuer : String
  deriving DecidableEq, Repr

/-- `fulcioRepoRefKey`. -/
def fulcioRepoRefKey : String := "1.3.6.1.4.1.57264.1.6"

/-- `fulcioRepoPathKey`. -/
def fulcioRepoPathKey : String := "1.3.6.1.4.1.57264.1.5"

/-- `fulcioRepoSHAKey`. -/
def fulcioRepoSHAKey : String := "1.3.6.1.4.1.57264.1.3"

/-- `fulcioIssuerKey`. -/
def fulcioIssuerKey : String := "1.3.6.1.4.1.57264.1.1"

/-- `githubOIDCIssuer`. -/
def githubOIDCIssuer : String := "https://token.actions.githubusercontent.com"

/-- The loop body of `extractCertInfo`, for one extension. -/
def readExtension (ret : CertInfo) (ext : String × String) : Except ServerError CertInfo :=
  if ext.1 = fulcioRepoRefKey then
    if ext.2 = "" then .error (.sentinel .errEmptyCertRef)
    else .ok { ret with repoBranchRef := ext.2 }
  else if ext.1 = fulcioRepoPathKey then
    if ext.2 = "" then .error (.sentinel .errEmptyCertPath)
    else .ok { ret with repoFullName := ext.2 }
  else if ext.1 = fulcioRepoSHAKey then .ok { ret with repoSHA := ext.2 }
  else if ext.1 = fulcioIssuerKey then .ok { ret with issuer := ext.2 }
  else .ok ret

/-- The path and ref of the workflow in the certificate's first URI. -/
def workflowOfURIs : List String → Except ServerError (String × String)
  | [] => .error (.sentinel .errCertMissingURI)
  | workflowRef :: _ =>
    if workflowRef = "" then .error (.sentinel .errCertWorkflowPathEmpty)
    else
      let workflowPath := Strings.trimLeft workflowRef '/'
      .ok ((Strings.cut workflowPath '@').getD (workflowPath, ""))

/-- `extractCertInfo`.

Source: `api/app/server/post_results.go`, lines 554–597. -/
def extractCertInfo (cert : Certificate) : Except ServerError CertInfo := do
  let ret ← cert.extensions.foldlM readExtension ⟨"", "", "", "", "", ""⟩
  refuseIf (ret.issuer != githubOIDCIssuer) (.sentinel .errNotOIDC)
  let workflow ← workflowOfURIs cert.uriPaths
  return { ret with workflowPath := workflow.1, workflowRef := workflow.2 }

/-! ### What a checked entry satisfies -/

section

variable {L}

/-- Beyond the length of the public key, the bound of the loop does not matter. -/
theorem certsLoop_mono : (n m : Nat) → (remaining : String) → remaining.toList.length ≤ n →
    remaining.toList.length ≤ m → certsLoop L n remaining = certsLoop L m remaining
  | 0, 0, _, _, _ => rfl
  | 0, m + 1, remaining, hn, _ => by
    have hnil : remaining = "" := by
      rw [← String.toList_inj]
      exact List.length_eq_zero_iff.mp (by omega)
    rw [certsLoop, certsLoop, if_pos hnil]
  | n + 1, 0, remaining, _, hm => by
    have hnil : remaining = "" := by
      rw [← String.toList_inj]
      exact List.length_eq_zero_iff.mp (by omega)
    rw [certsLoop, certsLoop, if_pos hnil]
  | n + 1, m + 1, remaining, hn, hm => by
    rw [certsLoop, certsLoop]
    split
    · rfl
    · split
      · rfl
      · rename_i der rest hdecode
        have hlt := L.pemDecode_lt _ _ _ hdecode
        rw [certsLoop_mono n m rest (by omega) (by omega)]

theorem libraryResult_eq_ok {α : Type} {context : String} {x : Except String α} {a : α} :
    libraryResult context x = .ok a ↔ x = .ok a :=
  mapError_eq_ok

theorem inContext_eq_ok {α : Type} {context : String} {x : Except ServerError α} {a : α} :
    inContext context x = .ok a ↔ x = .ok a :=
  mapError_eq_ok

theorem singleCert_eq_ok {certs : List Certificate} {cert : Certificate} :
    singleCert certs = .ok cert ↔ certs = [cert] := by
  match certs with
  | [] => simp [singleCert]
  | [c] => simp [singleCert]
  | _ :: _ :: _ => simp [singleCert]

/-- The record of an entry is a `hashedrekord`. -/
theorem rekord_eq_ok {t : TlogEntry} {body : HashedRekord} : t.rekord L = .ok body ↔
    ∃ b, L.base64Decode t.body = .ok b ∧ L.unmarshalBody b = .ok body ∧
      body.kind = "hashedrekord" := by
  simp only [TlogEntry.rekord, except_bind_eq_ok, libraryResult_eq_ok, refuseIf_eq_ok]
  constructor
  · rintro ⟨b, hb, body', hbody, u, hkind, hret⟩
    obtain rfl := Except.ok.inj hret
    exact ⟨b, hb, hbody, by simpa using hkind⟩
  · rintro ⟨b, hb, hbody, hkind⟩
    exact ⟨b, hb, body, hbody, (), by simpa using hkind, rfl⟩

/-- Rekor's key verifies `signature` over exactly the signed part of the entry. -/
def SignedByRekor (L : Libraries) (entry : TlogEntry) (signature : String) : Prop :=
  ∃ der rest key json canonical, L.pemDecode L.rekorPub = some (der, rest) ∧
    L.parsePKIXPublicKey der = .ok (some key) ∧ L.marshalPayload entry.signedPayload = .ok json ∧
    L.canonicalize json = .ok canonical ∧ L.verifyASN1 key (L.sha256 canonical) signature = true

theorem signedByRekor_of_verifyTimestamp {e : TlogEntry} {signature : String} {u : Unit}
    (h : verifyTimestamp L e signature = .ok u) : SignedByRekor L e signature := by
  simp only [verifyTimestamp, except_bind_eq_ok, libraryResult_eq_ok, refuseIf_eq_ok] at h
  obtain ⟨der, hder, key, hkey, json, hjson, canonical, hcanonical, hverify⟩ := h
  rw [Bool.not_eq_false'] at hverify
  simp only [ecdsaKey, except_bind_eq_ok, libraryResult_eq_ok] at hkey
  obtain ⟨key', hparse, hkey'⟩ := hkey
  cases key' with
  | none => cases hkey'
  | some k =>
    obtain rfl := Except.ok.inj hkey'
    cases hdecode : L.pemDecode L.rekorPub with
    | none => simp [rekorKeyBytes, hdecode] at hder
    | some p =>
      obtain ⟨der', rest⟩ := p
      simp only [rekorKeyBytes, hdecode, Except.ok.injEq] at hder
      subst hder
      exact ⟨der', rest, k, json, canonical, hdecode, hparse, hjson, hcanonical, hverify⟩

/-- The certificate chains to the embedded roots for code signing. -/
def ChainsToFulcio (L : Libraries) (cert : Certificate) : Prop :=
  ∃ roots intermediates, L.certPoolFromPEM L.fulcioRoot = some roots ∧
    L.certPoolFromPEM L.fulcioIntermediate = some intermediates ∧
    L.verifyChain cert roots intermediates cert.notBefore = .ok ()

theorem getCertPool_eq_ok {cert : String} {pool : L.CertPool} :
    getCertPool L cert = .ok pool ↔ L.certPoolFromPEM cert = some pool := by
  unfold getCertPool
  cases L.certPoolFromPEM cert <;> simp

theorem of_verifyCert_eq_ok {cert : Certificate} {integratedTime : Int} {u : Unit}
    (h : verifyCert L cert integratedTime = .ok u) : ChainsToFulcio L cert ∧
      cert.notBefore ≤ integratedTime ∧ integratedTime ≤ cert.notAfter := by
  simp only [verifyCert, except_bind_eq_ok, getCertPool_eq_ok, libraryResult_eq_ok,
    refuseIf_eq_ok, decide_eq_false_iff_not] at h
  obtain ⟨roots, hroots, intermediates, hinter, u', hchain, _, hafter, hbefore⟩ := h
  exact ⟨⟨roots, intermediates, hroots, hinter, hchain⟩, by omega, by omega⟩

/-- What the checks establish about an entry, for a payload and a certificate. -/
structure VerifiedEntry (L : Libraries) (payload : String) (entry : TlogEntry)
    (cert : Certificate) : Prop where
  /-- The body records the payload's SHA-256 hash, and holds exactly this certificate. -/
  record : ∃ b record, L.base64Decode entry.body = .ok b ∧ L.unmarshalBody b = .ok record ∧
    record.kind = "hashedrekord" ∧ record.algorithm = "sha256" ∧
    record.hashValue = Hex.encodeToString (L.sha256 payload) ∧ record.certs L = .ok [cert]
  /-- The entry's timestamp is Rekor's signature over it. -/
  signed : ∃ proof signature, entry.proofSection = some (proof, signature) ∧
    SignedByRekor L entry signature
  chain : ChainsToFulcio L cert
  notBefore_le : cert.notBefore ≤ entry.integratedTime
  le_notAfter : entry.integratedTime ≤ cert.notAfter

/-- **Checked entries.** An entry that passes the checks is verified, for the payload and the
certificate that is returned. -/
theorem verifiedEntry_of_verifyEntry {payload uuid : String} {entry : TlogEntry}
    {cert : Certificate} (h : verifyEntry L payload uuid entry = .ok cert) :
    VerifiedEntry L payload entry cert := by
  simp only [verifyEntry, except_bind_eq_ok, inContext_eq_ok, refuseIf_eq_ok, rekord_eq_ok,
    singleCert_eq_ok] at h
  obtain ⟨record, ⟨b, hb, hbody, hkind⟩, u, hmatches, u', hproof, certs, hcerts, cert', rfl, u'',
    hcert, hret⟩ := h
  obtain rfl := Except.ok.inj hret
  simp only [Bool.not_eq_false', HashedRekord.matchesBlob, Bool.and_eq_true, beq_iff_eq]
    at hmatches
  obtain ⟨hchain, hbefore, hafter⟩ := of_verifyCert_eq_ok hcert
  refine ⟨⟨b, record, hb, hbody, hkind, hmatches.1, hmatches.2.symm, hcerts⟩, ?_, hchain, hbefore,
    hafter⟩
  unfold verifyInclusionProof at hproof
  split at hproof
  · cases hproof
  · rename_i proof signature hsection
    obtain ⟨_, -, htime⟩ := except_bind_eq_ok.mp hproof
    exact ⟨proof, signature, hsection, signedByRekor_of_verifyTimestamp htime⟩

/-! ### What the certificate's information says -/

/-- The last of the extensions with the identifier `key`. -/
def extensionIn (key : String) : List (String × String) → Option String
  | [] => none
  | ext :: rest => (extensionIn key rest).or (if ext.1 = key then some ext.2 else none)

/-- The certificate's extension with the identifier `key`. -/
def Certificate.extension (cert : Certificate) (key : String) : Option String :=
  extensionIn key cert.extensions

/-- One extension sets the field of its identifier. -/
theorem of_readExtension {ret ret' : CertInfo} {ext : String × String}
    (h : readExtension ret ext = .ok ret') :
    ret'.repoBranchRef = (if ext.1 = fulcioRepoRefKey then ext.2 else ret.repoBranchRef) ∧
      ret'.repoFullName = (if ext.1 = fulcioRepoPathKey then ext.2 else ret.repoFullName) ∧
      ret'.repoSHA = (if ext.1 = fulcioRepoSHAKey then ext.2 else ret.repoSHA) ∧
      ret'.issuer = (if ext.1 = fulcioIssuerKey then ext.2 else ret.issuer) := by
  have hkeys : fulcioRepoRefKey ≠ fulcioRepoPathKey ∧ fulcioRepoRefKey ≠ fulcioRepoSHAKey ∧
      fulcioRepoRefKey ≠ fulcioIssuerKey ∧ fulcioRepoPathKey ≠ fulcioRepoSHAKey ∧
      fulcioRepoPathKey ≠ fulcioIssuerKey ∧ fulcioRepoSHAKey ≠ fulcioIssuerKey := by decide
  obtain ⟨h₁, h₂, h₃, h₄, h₅, h₆⟩ := hkeys
  unfold readExtension at h
  by_cases href : ext.1 = fulcioRepoRefKey
  · by_cases hv : ext.2 = "" <;> simp only [href, hv, if_true, if_false] at h <;> cases h
    simp [href, h₁, h₂, h₃]
  by_cases hpath : ext.1 = fulcioRepoPathKey
  · rw [if_neg href, if_pos hpath] at h
    by_cases hv : ext.2 = "" <;> simp only [hv, if_true, if_false] at h <;> cases h
    simp [hpath, h₁.symm, h₄, h₅]
  by_cases hsha : ext.1 = fulcioRepoSHAKey
  · rw [if_neg href, if_neg hpath, if_pos hsha] at h
    cases h
    simp [hsha, h₂.symm, h₄.symm, h₆]
  by_cases hissuer : ext.1 = fulcioIssuerKey
  · rw [if_neg href, if_neg hpath, if_neg hsha, if_pos hissuer] at h
    cases h
    simp [hissuer, h₃.symm, h₅.symm, h₆.symm]
  · rw [if_neg href, if_neg hpath, if_neg hsha, if_neg hissuer] at h
    cases h
    simp [href, hpath, hsha, hissuer]

theorem extensionIn_cons_getD (key : String) (ext : String × String)
    (rest : List (String × String)) (v : String) :
    (extensionIn key (ext :: rest)).getD v =
      (extensionIn key rest).getD (if ext.1 = key then ext.2 else v) := by
  rw [extensionIn]
  cases extensionIn key rest with
  | none => by_cases h : ext.1 = key <;> simp [h]
  | some w => rfl

/-- Each field of the information is the value of its last extension, if there is one. -/
theorem of_foldlM_readExtension : {exts : List (String × String)} → {ret ret' : CertInfo} →
    exts.foldlM readExtension ret = .ok ret' →
      ret'.repoBranchRef = (extensionIn fulcioRepoRefKey exts).getD ret.repoBranchRef ∧
      ret'.repoFullName = (extensionIn fulcioRepoPathKey exts).getD ret.repoFullName ∧
      ret'.repoSHA = (extensionIn fulcioRepoSHAKey exts).getD ret.repoSHA ∧
      ret'.issuer = (extensionIn fulcioIssuerKey exts).getD ret.issuer
  | [], ret, ret', h => by
    obtain rfl := Except.ok.inj h
    exact ⟨rfl, rfl, rfl, rfl⟩
  | ext :: rest, ret, ret', h => by
    rw [List.foldlM_cons, except_bind_eq_ok] at h
    obtain ⟨mid, hread, hrest⟩ := h
    obtain ⟨href, hpath, hsha, hissuer⟩ := of_foldlM_readExtension hrest
    obtain ⟨href', hpath', hsha', hissuer'⟩ := of_readExtension hread
    simp only [extensionIn_cons_getD]
    rw [← href', ← hpath', ← hsha', ← hissuer']
    exact ⟨href, hpath, hsha, hissuer⟩

/-- **The certificate's information.** The issuer is GitHub's, and the fields are the certificate's
extensions. -/
theorem of_extractCertInfo {cert : Certificate} {info : CertInfo}
    (h : extractCertInfo cert = .ok info) :
    cert.extension fulcioIssuerKey = some githubOIDCIssuer ∧
      info.repoBranchRef = (cert.extension fulcioRepoRefKey).getD "" ∧
      info.repoFullName = (cert.extension fulcioRepoPathKey).getD "" ∧
      info.repoSHA = (cert.extension fulcioRepoSHAKey).getD "" := by
  simp only [extractCertInfo, except_bind_eq_ok, refuseIf_eq_ok] at h
  obtain ⟨ret, hfold, u, hissuer, workflow, -, hret⟩ := h
  obtain rfl := Except.ok.inj hret
  obtain ⟨href, hpath, hsha, hissuer'⟩ := of_foldlM_readExtension hfold
  refine ⟨?_, href, hpath, hsha⟩
  rw [bne_eq_false_iff_eq, hissuer'] at hissuer
  change extensionIn fulcioIssuerKey cert.extensions = _
  cases hext : extensionIn fulcioIssuerKey cert.extensions with
  | none =>
    rw [hext, Option.getD_none] at hissuer
    exact absurd hissuer (by decide)
  | some v => rw [← hissuer, hext, Option.getD_some]

/-! ### Runs of the lookup -/

/-- Requests sent with the default client, and ranging over maps. -/
def LooksUp : ApiOp → Prop
  | .send _ | .range _ => True
  | _ => False

theorem performs_sendRequest (newRequest doRequest : String) (req : HttpRequest) :
    (sendRequest L newRequest doRequest req).run.Performs LooksUp :=
  performs_run_bind trivial fun _ =>
    performs_run_bind ((performs_run_perform _ _).mpr trivial) fun _ => trivial

theorem performs_getTLogEntryFromURL (url : String) :
    (getTLogEntryFromURL L url).run.Performs LooksUp :=
  performs_run_bind (performs_sendRequest _ _ _) fun _ => performs_run_bind trivial fun _ =>
    performs_run_bind ((performs_run_perform _ _).mpr trivial) fun _ => trivial

theorem performs_findEntry (payload : String) (tlogIndex : Int) :
    (findEntry L payload tlogIndex).run.Performs LooksUp := by
  unfold findEntry
  split
  · refine performs_run_bind (performs_annotate ?_) fun uuids => performs_run_bind trivial
      fun uuid => performs_run_bind (performs_annotate ?_) fun entry => trivial
    · exact performs_run_bind (performs_sendRequest _ _ _) fun _ => performs_run_bind trivial
        fun _ => trivial
    · exact performs_map (performs_getTLogEntryFromURL _)
  · exact performs_annotate (performs_getTLogEntryFromURL _)

theorem performs_extractAndVerifyCertForPayload (payload : String) (tlogIndex : Int) :
    (extractAndVerifyCertForPayload L payload tlogIndex).run.Performs LooksUp :=
  performs_run_bind (performs_findEntry _ _) fun _ => trivial

/-- Rekor's answer to a request for entries holds the entry. -/
def AnsweredByRekor (L : Libraries) (t : Trace ApiSig) (entry : TlogEntry) : Prop :=
  ∃ query resp entries uuid, ⟨.send (entryRequest (logEntries ++ query)), .ok resp⟩ ∈ t ∧
    L.decodeEntries resp.body = .ok entries ∧ ⟨uuid, entry⟩ ∈ entries.entries

theorem AnsweredByRekor.mono {t t' : Trace ApiSig} {entry : TlogEntry}
    (h : AnsweredByRekor L t entry) (hsub : t ⊆ t') : AnsweredByRekor L t' entry := by
  obtain ⟨query, resp, entries, uuid, hmem, hdecode, hentry⟩ := h
  exact ⟨query, resp, entries, uuid, hsub hmem, hdecode, hentry⟩

theorem exec_sendRequest_ok {newRequest doRequest : String} {req : HttpRequest} {t : Trace ApiSig}
    {resp : HttpResponse}
    (h : Exec (sendRequest L newRequest doRequest req).run t (some (.ok resp))) :
    t = [⟨.send req, .ok resp⟩] := by
  obtain ⟨t₁, u, t₂, rfl, h₁, h⟩ := exec_run_bind_ok.mp h
  obtain ⟨t₃, answer, t₄, rfl, h₃, h₄⟩ := exec_run_bind_ok.mp h
  obtain ⟨rfl, -⟩ := exec_ofExcept_ok.mp h₁
  obtain ⟨rfl, hanswer⟩ := exec_ofExcept_ok.mp h₄
  rw [exec_run_perform_ok.mp h₃, libraryResult_eq_ok.mp hanswer]
  rfl

theorem answeredByRekor_of_exec {query : String} {t : Trace ApiSig} {r : String × TlogEntry}
    (h : Exec (getTLogEntryFromURL L (logEntries ++ query)).run t (some (.ok r))) :
    AnsweredByRekor L t r.2 := by
  obtain ⟨t₁, resp, t₂, rfl, h₁, h⟩ := exec_run_bind_ok.mp h
  obtain ⟨t₃, entries, t₄, rfl, h₃, h⟩ := exec_run_bind_ok.mp h
  obtain ⟨t₅, order, t₆, rfl, -, h₆⟩ := exec_run_bind_ok.mp h
  have hdecode := libraryResult_eq_ok.mp (exec_ofExcept_ok.mp h₃).2
  have hfirst := (exec_ofExcept_ok.mp h₆).2
  rw [exec_sendRequest_ok h₁]
  cases hvisit : entries.visit order with
  | nil => simp [hvisit, firstEntry] at hfirst
  | cons e rest =>
    simp only [hvisit, firstEntry, Except.ok.injEq] at hfirst
    refine ⟨query, resp, entries, e.1, by simp, hdecode, ?_⟩
    rw [← hfirst, ← GoMap.mem_visit, hvisit]
    exact List.mem_cons_self

/-- The entry that is found is one that Rekor answered. -/
theorem exec_findEntry_ok {payload : String} {tlogIndex : Int} {t : Trace ApiSig}
    {r : String × TlogEntry} (h : Exec (findEntry L payload tlogIndex).run t (some (.ok r))) :
    AnsweredByRekor L t r.2 := by
  unfold findEntry at h
  split at h
  · obtain ⟨t₁, uuids, t₂, rfl, -, h⟩ := exec_run_bind_ok.mp h
    obtain ⟨t₃, uuid, t₄, rfl, -, h⟩ := exec_run_bind_ok.mp h
    obtain ⟨t₅, entry, t₆, rfl, h₅, h₆⟩ := exec_run_bind_ok.mp h
    obtain ⟨-, rfl⟩ := exec_pure_ok.mp h₆
    obtain ⟨r', hr', rfl⟩ := exec_map_ok.mp (exec_annotate_ok.mp h₅)
    rw [String.append_assoc] at hr'
    exact (answeredByRekor_of_exec hr').mono fun e he => by simp [he]
  · have h' := exec_annotate_ok.mp h
    unfold getTLogEntryByIndex at h'
    rw [String.append_assoc] at h'
    exact answeredByRekor_of_exec h'

/-- **The certificate of a payload.** Where a certificate is returned, Rekor answered a verified
entry for it. -/
theorem exec_extractAndVerifyCertForPayload_ok {payload : String} {tlogIndex : Int}
    {t : Trace ApiSig} {cert : Certificate}
    (h : Exec (extractAndVerifyCertForPayload L payload tlogIndex).run t (some (.ok cert))) :
    ∃ entry, AnsweredByRekor L t entry ∧ VerifiedEntry L payload entry cert := by
  obtain ⟨t₁, r, t₂, rfl, h₁, h₂⟩ := exec_run_bind_ok.mp h
  obtain ⟨rfl, hcert⟩ := exec_ofExcept_ok.mp h₂
  rw [List.append_nil]
  exact ⟨r.2, exec_findEntry_ok h₁, verifiedEntry_of_verifyEntry hcert⟩

end

end ScorecardInfra.Server
