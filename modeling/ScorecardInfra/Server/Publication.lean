import ScorecardInfra.Server.PostResults
import ScorecardInfra.Server.WorkflowPolicy

/-!
# What a request can publish

Three properties of `processRequest`, over every run of it: whatever Rekor, GitHub, the bucket and
the libraries answer, and wherever the run stops.

* A write to the bucket carries the request's result, and comes after all checks of one log entry
  for it: the record of the payload's hash, Rekor's signature, the certificate with its chain and
  validity, the certificate's issuer and repository, and the workflow (`write_authorized`).
* The keys that are written lie in the namespace of the certified repository, except where the
  platform of the request, which is compared with nothing, is not `github.com` or the certificate
  has no commit (`writtenKeys_inNamespace_iff`).
* The two comparisons of branches accept two spellings each, and together let through results of
  two refs that are not the default branch (`defaultBranch_only_iff`).

## Main definitions

* `BucketOp.key`, `writtenKeys`, `Authorized`, `InNamespace`, `CertifiedBy`.
* `fetchWorkflowContent`.
-/

namespace ScorecardInfra.Server

open GoStd Interaction

variable {L : Libraries}

/-! ### Writes -/

/-- The key of the object that an operation writes. -/
def BucketOp.key : BucketOp → Option String
  | newWriter _ filename | write _ filename _ | closeWriter _ filename => some filename
  | openBucket _ | closeBucket _ => none

/-- The key of the object that an operation writes. -/
def ApiOp.writtenKey : ApiOp → Option String
  | bucket op => op.key
  | _ => none

/-- The keys that a run writes. -/
def writtenKeys (t : Trace ApiSig) : List String := t.filterMap fun e => e.op.writtenKey

theorem mem_writtenKeys {t : Trace ApiSig} {key : String} :
    key ∈ writtenKeys t ↔ ∃ e ∈ t, e.op.writtenKey = some key :=
  List.mem_filterMap

/-- No object is written. -/
def WritesNothing (o : ApiOp) : Prop := o.writtenKey = none

/-- Objects are written under the given keys and with the given data only, and no GitHub client is
used. -/
def PublishesOnly (keys : List String) (result : String) : ApiOp → Prop
  | .bucket (.newWriter _ key) | .bucket (.closeWriter _ key) => key ∈ keys
  | .bucket (.write _ key data) => key ∈ keys ∧ data = result
  | .setTransport _ | .newGithubClient | .github _ _ => False
  | .bucket (.openBucket _) | .bucket (.closeBucket _) | .send _ | .getenv _ | .range _ => True

theorem PublishesOnly.mem {keys : List String} {result key : String} :
    {o : ApiOp} → PublishesOnly keys result o → o.writtenKey = some key → key ∈ keys
  | .bucket (.newWriter _ _), h, rfl | .bucket (.closeWriter _ _), h, rfl => h
  | .bucket (.write _ _ _), h, rfl => h.1

theorem PublishesOnly.mono {keys keys' : List String} {result : String} (hsub : keys ⊆ keys') :
    (o : ApiOp) → PublishesOnly keys result o → PublishesOnly keys' result o
  | .bucket (.newWriter _ _), h | .bucket (.closeWriter _ _), h => hsub h
  | .bucket (.write _ _ _), h => ⟨hsub h.1, h.2⟩
  | .bucket (.openBucket _), _ | .bucket (.closeBucket _), _ | .send _, _ | .getenv _, _
  | .range _, _ => trivial

/-! ### The operations of the parts -/

theorem performs_performApi {P : ApiOp → Prop} {o : ApiOp} (h : P o) :
    (performApi o).run.Performs P :=
  ⟨h, fun _ => trivial⟩

theorem writesNothing_of_looksUp : (o : ApiOp) → LooksUp o → WritesNothing o
  | .send _, _ | .range _, _ => rfl

theorem writesNothing_of_callsThrough {client : GithubClient} :
    (o : ApiOp) → CallsThrough client o → WritesNothing o
  | .github _ _, _ | .range _, _ => rfl

/-- The workflow is verified through the client only. -/
theorem performs_verifyContentWith (client : GithubClient)
    (scorecardResult : VerifiedScorecardResult) (info : CertInfo) :
    (verifyContentWith L client scorecardResult info).run.Performs (CallsThrough client) := by
  have horError : ∀ {α : Type} (message : String) (o : Option α),
      (orError message o).run.Performs (CallsThrough client) := by
    intro α message o
    cases o <;> trivial
  refine performs_run_bind (horError _ _) fun name => performs_run_bind
    (performs_performApi rfl) fun answer => performs_run_bind trivial fun defaultBranch =>
    performs_run_bind trivial fun _ => performs_run_bind (horError _ _) fun path =>
    performs_run_bind (performs_performApi rfl) fun answer => performs_run_bind trivial
    fun contents => performs_run_bind ?_ fun workflowContent => performs_verifyWithGithub _ _ _
  cases contents <;> trivial

theorem performs_useAccessToken {P : ApiOp → Prop} {accessToken : String}
    (h : accessToken ≠ "" → P (.setTransport accessToken)) :
    (useAccessToken accessToken).run.Performs P := by
  unfold useAccessToken
  split
  · trivial
  · rename_i hne
    exact performs_performApi (h hne)

theorem performs_getAndVerifyWorkflowContent (scorecardResult : VerifiedScorecardResult)
    (info : CertInfo) :
    (getAndVerifyWorkflowContent L scorecardResult info).run.Performs WritesNothing :=
  performs_run_bind (performs_useAccessToken fun _ => rfl) fun _ =>
    performs_run_bind (performs_performApi rfl) fun _ =>
      (performs_verifyContentWith _ _ _).mono writesNothing_of_callsThrough

/-- Nothing is written before the request is verified. -/
theorem performs_verifyRequest (org repo : String) (scorecardResult : VerifiedScorecardResult) :
    (verifyRequest L org repo scorecardResult).run.Performs WritesNothing := by
  refine performs_run_bind (performs_annotate ?_) fun cert => performs_run_bind trivial fun info =>
    performs_run_bind trivial fun _ => performs_run_bind (performs_annotate ?_) fun _ => trivial
  · exact (performs_extractAndVerifyCertForPayload _ _).mono writesNothing_of_looksUp
  · exact performs_getAndVerifyWorkflowContent _ _

theorem performs_bucketStep {P : ApiOp → Prop} {context : String} {op : BucketOp}
    (h : P (.bucket op)) : (bucketStep context op).run.Performs P :=
  performs_run_bind (performs_performApi h) fun _ => trivial

theorem performs_writeToBlobStore (bucketURL filename data : String) :
    (writeToBlobStore bucketURL filename data).run.Performs (PublishesOnly [filename] data) := by
  have hwrite : (writeObject bucketURL filename data).run.Performs
      (PublishesOnly [filename] data) :=
    performs_run_bind (performs_bucketStep List.mem_cons_self) fun _ =>
      performs_run_bind (performs_bucketStep ⟨List.mem_cons_self, rfl⟩) fun _ =>
        performs_bucketStep List.mem_cons_self
  exact performs_run_bind (performs_bucketStep trivial) fun _ =>
    performs_run_bind (performs_attempt hwrite) fun _ =>
      performs_run_bind (performs_performApi trivial) fun _ => trivial

theorem performs_getPurger (keys : List String) (result : String) :
    getPurger.run.Performs (PublishesOnly keys result) := by
  refine performs_run_bind (performs_performApi trivial) fun host => ?_
  split
  · trivial
  refine performs_run_bind (performs_performApi trivial) fun url => ?_
  split
  · trivial
  refine performs_run_bind (performs_performApi trivial) fun token => ?_
  split <;> trivial

theorem performs_purge (keys : List String) (result path : String) (purger : Purger) :
    (purger.purge L path).run.Performs (PublishesOnly keys result) := by
  have hlooks : ∀ o, LooksUp o → PublishesOnly keys result o
    | .send _, _ | .range _, _ => trivial
  cases purger with
  | noOpClient => trivial
  | fastlyClient token baseURL =>
    exact performs_run_bind ((performs_sendRequest _ _ _).mono hlooks) fun _ => trivial

/-- The two keys under which a result is published. -/
def publishedKeys (host org repo sha : String) : List String :=
  [objectPath host org repo, commitObjectPath host org repo sha]

theorem performs_publishResult (host org repo : String) (info : CertInfo) (result : String) :
    (publishResult L host org repo info result).run.Performs
      (PublishesOnly (publishedKeys host org repo info.repoSHA) result) := by
  refine performs_run_bind (performs_run_bind (performs_performApi trivial) fun _ => trivial)
    fun bucketURL => performs_run_bind (performs_annotate ?_) fun _ =>
    performs_run_bind (performs_getPurger _ _) fun purger =>
    performs_run_bind (performs_attempt (performs_purge _ _ _ _)) fun _ =>
    performs_run_bind (performs_annotate ?_) fun _ =>
    performs_run_bind (performs_attempt (performs_purge _ _ _ _)) fun _ => trivial
  · exact (performs_writeToBlobStore _ _ _).mono (PublishesOnly.mono (by simp [publishedKeys]))
  · exact (performs_writeToBlobStore _ _ _).mono (PublishesOnly.mono (by simp [publishedKeys]))

/-! ### Verified requests -/

theorem certMatchesRequest_iff {info : CertInfo} {org repo branch : String} :
    certMatchesRequest info org repo branch = true ↔ info.repoFullName = fullName org repo ∧
      (info.repoBranchRef = branch ∨ info.repoBranchRef = "refs/heads/" ++ branch) := by
  simp only [certMatchesRequest, Bool.not_eq_true', Bool.or_eq_false_iff, bne_eq_false_iff_eq,
    Bool.and_eq_false_iff]

theorem isDefaultBranch_iff {branch defaultBranch : String} :
    isDefaultBranch branch defaultBranch = true ↔
      branch = defaultBranch ∨ branch = "refs/heads/" ++ defaultBranch := by
  simp only [isDefaultBranch, Bool.not_eq_true', Bool.and_eq_false_iff, bne_eq_false_iff_eq]

theorem fullName_ne_empty (org repo : String) : fullName org repo ≠ "" := by
  intro h
  have := congrArg String.toList h
  simp [fullName] at this

/-- The part of `getAndVerifyWorkflowContent` before the verification: the text of the workflow, and
the client that it was downloaded with.

Source: `api/app/server/post_results.go`, lines 218–266. -/
def fetchWorkflowContent (scorecardResult : VerifiedScorecardResult) (info : CertInfo) :
    Api (String × GithubClient) := do
  useAccessToken scorecardResult.accessToken
  let client ← performApi .newGithubClient
  let name ← orError "cert repository name is malformed" (splitRepoName info.repoFullName)
  let answer ← callGithub client (.get name.1 name.2)
  let defaultBranch ← orFail "error getting repository" answer
  failIf (!isDefaultBranch scorecardResult.branch (defaultBranch.getD ""))
    (.verification (.sentinel .errNotDefaultBranch))
  let path ← orError "cert workflow path is malformed" (splitFullPath info.workflowPath)
  let answer ← callGithub client (.getContents path.1 path.2.1 path.2.2
    (workflowFileRef info (fullName path.1 path.2.1)))
  let contents ← orFail "error downloading workflow contents from repo" answer
  let workflowContent ← fileContent contents
  return (workflowContent, client)

/-- What is fetched is what is verified. -/
theorem getAndVerifyWorkflowContent_eq (L : Libraries) (scorecardResult : VerifiedScorecardResult)
    (info : CertInfo) :
    getAndVerifyWorkflowContent L scorecardResult info =
      fetchWorkflowContent scorecardResult info >>= fun p => verifyWithGithub L p.1 p.2 := by
  simp only [getAndVerifyWorkflowContent, verifyContentWith, fetchWorkflowContent, bind_assoc,
    pure_bind]

theorem orError_eq_ok {α : Type} {message : String} {o : Option α} {t : Trace ApiSig} {a : α}
    (h : Exec (orError message o).run t (some (.ok a))) : o = some a := by
  cases o with
  | none => exact absurd h exec_fail_ok
  | some b => exact congrArg some (exec_pure_ok.mp h).2.symm

/-- The fetched text is a file that GitHub returned: that of the certificate's information, at the
ref that is chosen. -/
theorem exec_fetchWorkflowContent_ok {scorecardResult : VerifiedScorecardResult} {info : CertInfo}
    {t : Trace ApiSig} {text : String} {client : GithubClient}
    (h : Exec (fetchWorkflowContent scorecardResult info).run t (some (.ok (text, client)))) :
    ∃ owner repo path, splitFullPath info.workflowPath = some (owner, repo, path) ∧
      ⟨.github client (.getContents owner repo path
        (workflowFileRef info (fullName owner repo))), .ok (some (.ok text))⟩ ∈ t := by
  obtain ⟨t₁, _, t', rfl, -, h⟩ := exec_run_bind_ok.mp h
  obtain ⟨t₂, client', t', rfl, -, h⟩ := exec_run_bind_ok.mp h
  obtain ⟨t₃, name, t', rfl, -, h⟩ := exec_run_bind_ok.mp h
  obtain ⟨t₄, answer, t', rfl, -, h⟩ := exec_run_bind_ok.mp h
  obtain ⟨t₅, defaultBranch, t', rfl, -, h⟩ := exec_run_bind_ok.mp h
  obtain ⟨t₆, _, t', rfl, -, h⟩ := exec_run_bind_ok.mp h
  obtain ⟨t₇, path, t', rfl, h₇, h⟩ := exec_run_bind_ok.mp h
  obtain ⟨t₈, answer', t', rfl, h₈, h⟩ := exec_run_bind_ok.mp h
  obtain ⟨t₉, contents, t', rfl, h₉, h⟩ := exec_run_bind_ok.mp h
  obtain ⟨t₁₀, workflowContent, t', rfl, h₁₀, h⟩ := exec_run_bind_ok.mp h
  obtain ⟨rfl, htext⟩ := exec_pure_ok.mp h
  obtain ⟨rfl, rfl⟩ := Prod.mk.inj htext
  have hanswer : answer' = .ok contents := mapError_eq_ok.mp (exec_ofExcept_ok.mp h₉).2
  have hcontents : contents = some (.ok text) := by
    cases contents with
    | none => exact absurd h₁₀ exec_crash_ok
    | some content => rw [libraryResult_eq_ok.mp (exec_ofExcept_ok.mp h₁₀).2]
  refine ⟨path.1, path.2.1, path.2.2, orError_eq_ok h₇, ?_⟩
  rw [exec_run_perform_ok.mp h₈, hanswer, hcontents]
  simp

/-- The verifier of workflows returned nil for a file that GitHub returned. -/
def WorkflowVerified (L : Libraries) (t : Trace ApiSig) : Prop :=
  ∃ t₁ t₂ client owner repo path ref workflowContent, t = t₁ ++ t₂ ∧
    ⟨.github client (.getContents owner repo path ref), .ok (some (.ok workflowContent))⟩ ∈ t₁ ∧
    Exec (verifyWithGithub L workflowContent client).run t₂ (some (.ok ()))

theorem workflowVerified_of_exec {scorecardResult : VerifiedScorecardResult} {info : CertInfo}
    {t : Trace ApiSig}
    (h : Exec (getAndVerifyWorkflowContent L scorecardResult info).run t (some (.ok ()))) :
    WorkflowVerified L t := by
  rw [getAndVerifyWorkflowContent_eq] at h
  obtain ⟨t₁, ⟨text, client⟩, t₂, rfl, h₁, h₂⟩ := exec_run_bind_ok.mp h
  obtain ⟨owner, repo, path, -, hmem⟩ := exec_fetchWorkflowContent_ok h₁
  exact ⟨t₁, t₂, client, owner, repo, path, _, text, rfl, hmem, h₂⟩

/-- `CertifiedBy L scorecardResult t cert`: in the run along `t`, `cert` is the certificate that was
extracted for the payload. -/
def CertifiedBy (L : Libraries) (scorecardResult : VerifiedScorecardResult) (t : Trace ApiSig)
    (cert : Certificate) : Prop :=
  ∃ t₁ t₂, t = t₁ ++ t₂ ∧ Exec (extractAndVerifyCertForPayload L scorecardResult.result
    scorecardResult.tlogIndex).run t₁ (some (.ok cert))

/-- A verified request: its certificate, information and workflow. -/
theorem exec_verifyRequest_ok {org repo : String} {scorecardResult : VerifiedScorecardResult}
    {info : CertInfo} {t : Trace ApiSig}
    (h : Exec (verifyRequest L org repo scorecardResult).run t (some (.ok info))) :
    ∃ cert, CertifiedBy L scorecardResult t cert ∧ extractCertInfo cert = .ok info ∧
      certMatchesRequest info org repo scorecardResult.branch = true ∧
      ∃ t₁ t₂, t = t₁ ++ t₂ ∧ WorkflowVerified L t₂ := by
  obtain ⟨t₁, cert, t', rfl, h₁, h⟩ := exec_run_bind_ok.mp h
  obtain ⟨t₂, info', t', rfl, h₂, h⟩ := exec_run_bind_ok.mp h
  obtain ⟨t₃, u₃, t', rfl, h₃, h⟩ := exec_run_bind_ok.mp h
  obtain ⟨t₄, u₄, t', rfl, h₄, h⟩ := exec_run_bind_ok.mp h
  obtain ⟨rfl, rfl⟩ := exec_pure_ok.mp h
  have hinfo := inContext_eq_ok.mp (exec_ofExcept_ok.mp h₂).2
  have hmatch := (exec_failIf_ok.mp h₃).2
  rw [Bool.not_eq_false'] at hmatch
  exact ⟨cert, ⟨t₁, _, rfl, exec_annotate_ok.mp h₁⟩, hinfo, hmatch,
    t₁ ++ (t₂ ++ t₃), t₄, by simp, workflowVerified_of_exec (exec_annotate_ok.mp h₄)⟩

/-! ### A sample request -/

/-- The hexadecimal SHA-256 hash of the payload `\x7b\x7d`. -/
def sampleHash : String := "44136fa355b3678a1146ad16f7e8649e94fb4fc21fe77e8310c060f61caaff8a"

/-- A certificate in PEM form, and its base64 encoding. -/
def samplePEM : String := "-----BEGIN CERTIFICATE-----\nY2VydA==\n-----END CERTIFICATE-----\n"

/-- The base64 encoding of `samplePEM`. -/
def samplePublicKey : String :=
  "LS0tLS1CRUdJTiBDRVJUSUZJQ0FURS0tLS0tClkyVnlkQT09Ci0tLS0tRU5EIENFUlRJRklDQVRFLS0tLS0K"

/-- The commit of the certificate. -/
def sampleCommit : String := "da39a3ee5e6b4b0d3255bfef95601890afd80709"

/-- The body of the log entry. -/
def sampleBody : String :=
  "\x7b\"kind\":\"hashedrekord\",\"spec\":\x7b\"data\":\x7b\"hash\":\x7b\"algorithm\":\"sha256\"," ++
    "\"value\":\"" ++ sampleHash ++ "\"\x7d\x7d,\"signature\":\x7b\"publicKey\":\x7b\"content\":\"" ++
    samplePublicKey ++ "\"\x7d\x7d\x7d\x7d"

/-- A log entry for the payload, alone in its tree. -/
def sampleEntry : TlogEntry where
  body := "eyJraW5kIjoiaGFzaGVkcmVrb3JkIn0="
  integratedTime := 1700000000
  logID := "log"
  logIndex := 1
  verification := some ⟨some ⟨[], sampleHash, 1, 0⟩, "signature"⟩

/-- A certificate for the branch `main` of `org/repo`. -/
def sampleCert : Certificate where
  raw := "cert"
  notBefore := 1699999700
  notAfter := 1700000300
  extensions := [(fulcioIssuerKey, githubOIDCIssuer), (fulcioRepoSHAKey, sampleCommit),
    (fulcioRepoPathKey, "org/repo"), (fulcioRepoRefKey, "refs/heads/main")]
  uriPaths := ["/org/repo/.github/workflows/scorecard.yml@refs/heads/main"]

/-- Libraries that know the sample entry, accept its proof, signature and certificate, and parse
workflows as the sample workflow. -/
def sampleLibraries : Libraries where
  workflowParser := sampleParser (sampleWorkflow scorecardJob (lintJob none))
  sha256 _ := (Hex.decodeString sampleHash).getD ""
  base64Decode s := .ok (if s = samplePublicKey then samplePEM else sampleBody)
  hexErrorText _ := "encoding/hex: invalid byte"
  decodeStrings _ := .ok [sampleHash]
  decodeEntries _ := .ok ⟨[⟨sampleHash, sampleEntry⟩], by simp [List.NodupKeys, List.keys]⟩
  unmarshalBody _ := .ok ⟨"hashedrekord", "sha256", sampleHash, samplePublicKey⟩
  marshalPayload _ := .ok "payload"
  canonicalize := .ok
  newRequest _ _ := .ok ()
  pemDecode s := if s = "" then none else some ("cert", "")
  pemDecode_lt s block rest h := by
    split_ifs at h with hs
    obtain ⟨-, rfl⟩ := Prod.mk.inj (Option.some.inj h)
    rw [← String.toList_inj] at hs
    exact List.length_pos_of_ne_nil hs
  parseCertificate _ := .ok sampleCert
  CertPool := Unit
  certPoolFromPEM _ := some ()
  verifyChain _ _ _ _ := .ok ()
  EcdsaKey := Unit
  parsePKIXPublicKey _ := .ok (some ())
  verifyASN1 _ _ _ := true
  verifyInclusion _ _ _ _ _ := .ok ()
  timeText := toString
  semverIsValid _ := false
  semverCompare _ _ := .eq
  semverMajor s := s
  maxSlice := 2 ^ 44
  fulcioRoot := samplePEM
  fulcioIntermediate := samplePEM
  rekorPub := samplePEM

/-- Rekor answers with the sample entry, GitHub with the default branch `main` and a file, the
bucket accepts everything, and no environment variable is set. -/
def sampleAnswer : (o : ApiOp) → ApiSig.Ans o
  | .setTransport _ => ()
  | .newGithubClient => ⟨none⟩
  | .send _ => .ok ⟨200, "200 OK", ""⟩
  | .github _ (.get _ _) => .ok (some "main")
  | .github _ (.getContents _ _ _ _) => .ok (some (.ok "on: push"))
  | .github _ (.listTags _ _ _) => .ok []
  | .github _ (.listReleases _ _ _) => .ok []
  | .github _ (.compareCommits _ _ _ _ _) => .ok "identical"
  | .bucket _ => .ok ()
  | .getenv _ => ""
  | .range n => GoMap.Order.listed n

/-- A request with the index of the sample entry. -/
def sampleResult : VerifiedScorecardResult where
  result := "\x7b\x7d"
  branch := "main"
  accessToken := ""
  tlogIndex := 1

/-- The run of the sample request for a platform. -/
def sampleTrace (host : String) : Trace ApiSig :=
  ((processRequest sampleLibraries host "org" "repo" sampleResult).run.runWith
    (fun _ o => some (sampleAnswer o)) []).1

theorem exec_sampleTrace (host : String) :
    Exec (processRequest sampleLibraries host "org" "repo" sampleResult).run (sampleTrace host)
      (some (.ok ())) := by
  have hrun := exec_runWith (fun _ o => some (sampleAnswer o))
    (processRequest sampleLibraries host "org" "repo" sampleResult).run []
  have hok : ((processRequest sampleLibraries host "org" "repo" sampleResult).run.runWith
      (fun _ o => some (sampleAnswer o)) []).2 = some (.ok ()) := rfl
  rwa [hok] at hrun

theorem sampleTrace_certifiedBy (host : String) :
    CertifiedBy sampleLibraries sampleResult (sampleTrace host) sampleCert := by
  have hrun := exec_runWith (fun _ o => some (sampleAnswer o))
    (extractAndVerifyCertForPayload sampleLibraries
    sampleResult.result sampleResult.tlogIndex).run []
  have hok : ((extractAndVerifyCertForPayload sampleLibraries sampleResult.result
      sampleResult.tlogIndex).run.runWith (fun _ o => some (sampleAnswer o)) []).2 =
        some (.ok sampleCert) := rfl
  rw [hok] at hrun
  exact ⟨_, (sampleTrace host).drop 2, rfl, hrun⟩

/-! ### What stands behind a write -/

/-- What has been checked before a write: one entry that Rekor answered is verified for the
result, with a certificate of GitHub's issuer for the repository of the request, and a workflow has
been verified. -/
structure Authorized (L : Libraries) (org repo : String)
    (scorecardResult : VerifiedScorecardResult) (t : Trace ApiSig) (entry : TlogEntry)
    (cert : Certificate) : Prop where
  answered : AnsweredByRekor L t entry
  verified : VerifiedEntry L scorecardResult.result entry cert
  issuer : cert.extension fulcioIssuerKey = some githubOIDCIssuer
  repository : cert.extension fulcioRepoPathKey = some (fullName org repo)
  workflow : ∃ t₁ t₂ t₃, t = t₁ ++ t₂ ++ t₃ ∧ WorkflowVerified L t₂

theorem extension_repoPath {cert : Certificate} {info : CertInfo} {org repo branch : String}
    (hinfo : extractCertInfo cert = .ok info)
    (hmatch : certMatchesRequest info org repo branch = true) :
    cert.extension fulcioRepoPathKey = some (fullName org repo) := by
  obtain ⟨-, -, hpath, -⟩ := of_extractCertInfo hinfo
  rw [(certMatchesRequest_iff.mp hmatch).1] at hpath
  cases hext : cert.extension fulcioRepoPathKey with
  | none => exact absurd (hpath.trans (by rw [hext]; rfl)) (fullName_ne_empty org repo)
  | some v => rw [hpath, hext, Option.getD_some]

/-- A verified request is authorized, by the certificate whose information is returned. -/
theorem exists_authorized_info {org repo : String}
    {scorecardResult : VerifiedScorecardResult} {info : CertInfo} {t u : Trace ApiSig}
    (h : Exec (verifyRequest L org repo scorecardResult).run t (some (.ok info))) :
    ∃ entry cert, Authorized L org repo scorecardResult (t ++ u) entry cert ∧
      info.repoSHA = (cert.extension fulcioRepoSHAKey).getD "" := by
  obtain ⟨cert, ⟨t₁, t₂, ht, hcert⟩, hinfo, hmatch, t₃, t₄, ht', hworkflow⟩ :=
    exec_verifyRequest_ok h
  obtain ⟨entry, hanswered, hverified⟩ := exec_extractAndVerifyCertForPayload_ok hcert
  obtain ⟨hissuer, -, -, hsha⟩ := of_extractCertInfo hinfo
  refine ⟨entry, cert, ⟨hanswered.mono ?_, hverified, hissuer, extension_repoPath hinfo hmatch,
    t₃, t₄, u, by rw [ht'], hworkflow⟩, hsha⟩
  rw [ht]
  intro e he
  simp [he]

theorem exists_authorized {org repo : String} {scorecardResult : VerifiedScorecardResult}
    {info : CertInfo} {t u : Trace ApiSig}
    (h : Exec (verifyRequest L org repo scorecardResult).run t (some (.ok info))) :
    ∃ entry cert, Authorized L org repo scorecardResult (t ++ u) entry cert := by
  obtain ⟨entry, cert, hauthorized, -⟩ := exists_authorized_info (u := u) h
  exact ⟨entry, cert, hauthorized⟩

/-- **What stands behind a write.** Where a run of `processRequest` writes to the bucket, the data
is the request's result, and the checks of one entry and of the workflow have all succeeded
before. -/
theorem write_authorized (L : Libraries) (host org repo : String)
    (scorecardResult : VerifiedScorecardResult) (pre post : Trace ApiSig) (e : Event ApiSig)
    (r : Option (Except (Stop ServerError) Unit))
    (h : Exec (processRequest L host org repo scorecardResult).run (pre ++ e :: post) r)
    (hwrite : e.op.writtenKey ≠ none) :
    (∀ bucketURL key data, e.op = .bucket (.write bucketURL key data) →
      data = scorecardResult.result) ∧
    ∃ entry cert, Authorized L org repo scorecardResult pre entry cert := by
  obtain ⟨t₁, info, pre', rfl, h₁, h₂⟩ :=
    h.split_run_bind (performs_verifyRequest org repo scorecardResult) hwrite
  have hop := h₂.mem_performs (performs_publishResult _ _ _ _ _) e (by simp)
  refine ⟨fun bucketURL key data he => ?_, exists_authorized h₁⟩
  rw [he] at hop
  exact hop.2

/-- The first write of the sample request. -/
theorem sampleTrace_authorized : ∃ pre post e, sampleTrace "github.com" = pre ++ e :: post ∧
    e.op = .bucket (.write "gs://ossf-scorecard-results" "github.com/org/repo/results.json"
      sampleResult.result) ∧
    ∃ entry cert, Authorized sampleLibraries "org" "repo" sampleResult pre entry cert := by
  let e : Event ApiSig := ⟨.bucket (.write "gs://ossf-scorecard-results"
    "github.com/org/repo/results.json" sampleResult.result), .ok ()⟩
  have hget : (sampleTrace "github.com")[10]? = some e := rfl
  obtain ⟨pre, post, ht⟩ := List.append_of_mem (List.mem_of_getElem? hget)
  have hrun := exec_sampleTrace "github.com"
  rw [ht] at hrun
  exact ⟨pre, post, e, ht, rfl,
    (write_authorized _ _ _ _ _ _ _ _ _ hrun (Option.some_ne_none _)).2⟩

/-! ### The keys of a request -/

/-- The key lies in the namespace of the certified repository: it is the repository's key on GitHub,
or its key at the certified commit. -/
def InNamespace (cert : Certificate) (key : String) : Prop :=
  ∃ full, cert.extension fulcioRepoPathKey = some full ∧
    (key = "github.com/" ++ full ++ "/" ++ resultsFile ∨
      ∃ sha, cert.extension fulcioRepoSHAKey = some sha ∧ sha ≠ "" ∧
        key = "github.com/" ++ full ++ "/" ++ sha ++ "/" ++ resultsFile)

/-- The platform is GitHub, and the certificate has a commit. -/
def CertifiedPlatform (host : String) (cert : Certificate) : Prop :=
  host = "github.com" ∧ ∃ sha, cert.extension fulcioRepoSHAKey = some sha ∧ sha ≠ ""

/-- A path below a platform other than GitHub, and long enough, is not below GitHub. -/
private theorem eq_of_append_cons_eq (host github rest rest' : List Char) (hg : '/' ∉ github)
    (hlen : rest'.length ≤ rest.length) (h : host ++ '/' :: rest = github ++ '/' :: rest') :
    host = github ∧ rest = rest' := by
  have hle : host.length + rest.length = github.length + rest'.length := by
    have := congrArg List.length h
    simp only [List.length_append, List.length_cons] at this
    omega
  by_cases heq : host.length = github.length
  · obtain ⟨rfl, hcons⟩ := List.append_inj h heq
    exact ⟨rfl, (List.cons_eq_cons.mp hcons).2⟩
  · -- the separator after `host` falls inside `github`
    have hwhole : host ++ ['/'] <+: github ++ '/' :: rest' :=
      ⟨rest, by rw [← h, List.append_assoc, List.singleton_append]⟩
    have hpre : host ++ ['/'] <+: github := by
      refine List.prefix_of_prefix_length_le hwhole (List.prefix_append _ _) ?_
      rw [List.length_append, List.length_singleton]
      omega
    exact absurd (hpre.subset (by simp)) hg

/-- The key at a commit lies in the namespace only below GitHub, and with a commit. -/
theorem certifiedPlatform_of_inNamespace {host org repo : String} {cert : Certificate}
    (hpath : cert.extension fulcioRepoPathKey = some (fullName org repo))
    (h : InNamespace cert
      (commitObjectPath host org repo ((cert.extension fulcioRepoSHAKey).getD ""))) :
    CertifiedPlatform host cert := by
  obtain ⟨full, hfull, hkey⟩ := h
  obtain rfl := Option.some.inj (hpath.symm.trans hfull)
  have hgithub : '/' ∉ "github.com".toList := by decide
  rcases hkey with hkey | ⟨sha, hsha, hne, hkey⟩
  · have hlist := congrArg String.toList hkey
    simp only [commitObjectPath, fullName, String.toList_append] at hlist
    have h := eq_of_append_cons_eq host.toList "github.com".toList
      (org.toList ++ '/' :: repo.toList ++ '/' ::
        ((cert.extension fulcioRepoSHAKey).getD "").toList ++ '/' :: resultsFile.toList)
      (org.toList ++ '/' :: repo.toList ++ '/' :: resultsFile.toList) hgithub
      (by simp only [List.length_append, List.length_cons]; omega) (by simpa using hlist)
    have hlen := congrArg List.length h.2
    simp only [List.length_append, List.length_cons] at hlen
    omega
  · have hlist := congrArg String.toList hkey
    rw [hsha, Option.getD_some] at hlist
    simp only [commitObjectPath, fullName, String.toList_append] at hlist
    have h := eq_of_append_cons_eq host.toList "github.com".toList
      (org.toList ++ '/' :: repo.toList ++ '/' :: sha.toList ++ '/' :: resultsFile.toList)
      (org.toList ++ '/' :: repo.toList ++ '/' :: sha.toList ++ '/' :: resultsFile.toList) hgithub
      le_rfl (by simpa using hlist)
    exact ⟨String.toList_inj.mp h.1, sha, hsha, hne⟩

/-- Below GitHub, and with a commit, both keys lie in the namespace. -/
theorem CertifiedPlatform.inNamespace {host org repo key : String} {cert : Certificate}
    (h : CertifiedPlatform host cert)
    (hpath : cert.extension fulcioRepoPathKey = some (fullName org repo))
    (hkey : key ∈ publishedKeys host org repo ((cert.extension fulcioRepoSHAKey).getD "")) :
    InNamespace cert key := by
  obtain ⟨rfl, sha, hsha, hne⟩ := h
  rw [hsha, Option.getD_some] at hkey
  refine ⟨_, hpath, ?_⟩
  rcases List.mem_cons.mp hkey with rfl | hkey
  · refine Or.inl ?_
    simp only [objectPath, fullName, String.append_assoc]
    rfl
  · rw [List.mem_singleton.mp hkey]
    refine Or.inr ⟨sha, hsha, hne, ?_⟩
    simp only [commitObjectPath, fullName, String.append_assoc]
    rfl

/-- A run extracts one certificate at most. -/
theorem CertifiedBy.unique {scorecardResult : VerifiedScorecardResult} {t : Trace ApiSig}
    {cert cert' : Certificate} (h : CertifiedBy L scorecardResult t cert)
    (h' : CertifiedBy L scorecardResult t cert') : cert = cert' := by
  obtain ⟨t₁, t₂, rfl, h₁⟩ := h
  obtain ⟨t₃, t₄, ht, h₃⟩ := h'
  exact Except.ok.inj (h₁.complete_unique h₃ ht).2

/-- In a run that returned from the verification, the information is that of the certificate. -/
theorem CertifiedBy.info {org repo : String} {scorecardResult : VerifiedScorecardResult}
    {info : CertInfo} {t u : Trace ApiSig} {cert : Certificate}
    (hcert : CertifiedBy L scorecardResult (t ++ u) cert)
    (h : Exec (verifyRequest L org repo scorecardResult).run t (some (.ok info))) :
    cert.extension fulcioRepoPathKey = some (fullName org repo) ∧
      info.repoSHA = (cert.extension fulcioRepoSHAKey).getD "" := by
  obtain ⟨cert', ⟨t₁, t₂, rfl, h₁⟩, hinfo, hmatch, -⟩ := exec_verifyRequest_ok h
  obtain rfl := hcert.unique ⟨t₁, t₂ ++ u, by rw [List.append_assoc], h₁⟩
  exact ⟨extension_repoPath hinfo hmatch, (of_extractCertInfo hinfo).2.2.2⟩

/-- A successful write is one of its object. -/
theorem mem_writtenKeys_of_exec {bucketURL filename data : String} {t : Trace ApiSig} {u : Unit}
    (h : Exec (writeToBlobStore bucketURL filename data).run t (some (.ok u))) :
    filename ∈ writtenKeys t := by
  obtain ⟨t₁, u₁, t', rfl, -, h⟩ := exec_run_bind_ok.mp h
  obtain ⟨t₂, written, t', rfl, h₂, h⟩ := exec_run_bind_ok.mp h
  obtain ⟨t₃, u₃, t₄, rfl, -, h₄⟩ := exec_run_bind_ok.mp h
  obtain ⟨rfl, rfl⟩ := exec_ofExcept_ok.mp h₄
  obtain ⟨t₅, u₅, t', rfl, h₅, -⟩ := exec_run_bind_ok.mp (exec_attempt_ok.mp h₂)
  obtain ⟨t₆, answer, t₇, rfl, h₆, -⟩ := exec_run_bind_ok.mp h₅
  rw [exec_run_perform_ok.mp h₆]
  exact mem_writtenKeys.mpr ⟨⟨.bucket (.newWriter bucketURL filename), answer⟩, by simp, rfl⟩

theorem mem_writtenKeys_append {t u : Trace ApiSig} {key : String} :
    key ∈ writtenKeys (t ++ u) ↔ key ∈ writtenKeys t ∨ key ∈ writtenKeys u := by
  rw [writtenKeys, List.filterMap_append, List.mem_append]
  rfl

/-- A successful publication writes the key at the commit. -/
theorem commitObjectPath_mem_writtenKeys {host org repo result : String} {info : CertInfo}
    {t : Trace ApiSig} {u : Unit}
    (h : Exec (publishResult L host org repo info result).run t (some (.ok u))) :
    commitObjectPath host org repo info.repoSHA ∈ writtenKeys t := by
  obtain ⟨t₁, u₁, t', rfl, -, h⟩ := exec_run_bind_ok.mp h
  obtain ⟨t₂, u₂, t', rfl, -, h⟩ := exec_run_bind_ok.mp h
  obtain ⟨t₃, u₃, t', rfl, -, h⟩ := exec_run_bind_ok.mp h
  obtain ⟨t₄, u₄, t', rfl, -, h⟩ := exec_run_bind_ok.mp h
  obtain ⟨t₅, u₅, t', rfl, h₅, -⟩ := exec_run_bind_ok.mp h
  have hkey := mem_writtenKeys_of_exec (exec_annotate_ok.mp h₅)
  simp only [mem_writtenKeys_append]
  tauto

/-- **The keys of a request.** If the platform is GitHub and the certificate has a commit, then a
run writes keys in the namespace of the certified repository only; and a run that returns nil does
so only in this case. -/
theorem writtenKeys_inNamespace_iff (L : Libraries) (host org repo : String)
    (scorecardResult : VerifiedScorecardResult) (t : Trace ApiSig)
    (r : Option (Except (Stop ServerError) Unit))
    (h : Exec (processRequest L host org repo scorecardResult).run t r) :
    ((∀ cert, CertifiedBy L scorecardResult t cert → CertifiedPlatform host cert) →
      ∀ key ∈ writtenKeys t, ∃ cert, CertifiedBy L scorecardResult t cert ∧ InNamespace cert key) ∧
    (r = some (.ok ()) →
      (∀ key ∈ writtenKeys t, ∃ cert, CertifiedBy L scorecardResult t cert ∧
        InNamespace cert key) →
      ∀ cert, CertifiedBy L scorecardResult t cert → CertifiedPlatform host cert) := by
  constructor
  · intro hplatform key hkey
    obtain ⟨e, he, hekey⟩ := mem_writtenKeys.mp hkey
    obtain ⟨pre, post, rfl⟩ := List.append_of_mem he
    have hwrite : ¬WritesNothing e.op := by simp [WritesNothing, hekey]
    obtain ⟨t₁, info, pre', rfl, h₁, h₂⟩ :=
      h.split_run_bind (performs_verifyRequest org repo scorecardResult) hwrite
    obtain ⟨cert, ⟨t₃, t₄, ht, h₃⟩, -⟩ := exec_verifyRequest_ok h₁
    have hcert : CertifiedBy L scorecardResult (t₁ ++ (pre' ++ e :: post)) cert :=
      ⟨t₃, t₄ ++ (pre' ++ e :: post), by rw [ht, List.append_assoc], h₃⟩
    rw [List.append_assoc] at hplatform ⊢
    obtain ⟨hpath, hsha⟩ := hcert.info h₁
    have hop := h₂.mem_performs (performs_publishResult _ _ _ _ _) e (by simp)
    exact ⟨cert, hcert, (hplatform cert hcert).inNamespace hpath (hsha ▸ hop.mem hekey)⟩
  · rintro rfl hkeys cert hcert
    obtain ⟨t₁, info, t₂, rfl, h₁, h₂⟩ := exec_run_bind_ok.mp h
    obtain ⟨hpath, hsha⟩ := hcert.info h₁
    have hmem := commitObjectPath_mem_writtenKeys h₂
    obtain ⟨cert', hcert', hns⟩ := hkeys _ (mem_writtenKeys_append.mpr (Or.inr hmem))
    obtain rfl := hcert.unique hcert'
    exact certifiedPlatform_of_inNamespace hpath (hsha ▸ hns)

/-- The sample request on GitHub writes in its namespace only. -/
theorem sampleTrace_inNamespace :
    ∃ cert, CertifiedBy sampleLibraries sampleResult (sampleTrace "github.com") cert ∧
      ∀ key ∈ writtenKeys (sampleTrace "github.com"), InNamespace cert key := by
  refine ⟨_, sampleTrace_certifiedBy _, fun key hkey => ?_⟩
  have hall := (writtenKeys_inNamespace_iff _ _ _ _ _ _ _ (exec_sampleTrace "github.com")).1 (by
    intro cert hcert
    obtain rfl := hcert.unique (sampleTrace_certifiedBy _)
    exact ⟨rfl, sampleCommit, rfl, by decide⟩)
  obtain ⟨cert, hcert, hns⟩ := hall key hkey
  obtain rfl := hcert.unique (sampleTrace_certifiedBy _)
  exact hns

/-- The same request for another platform writes below that platform. -/
theorem exists_written_not_inNamespace : ¬∀ L host org repo scorecardResult t r,
    Exec (processRequest L host org repo scorecardResult).run t r → ∀ key ∈ writtenKeys t,
      ∃ cert, CertifiedBy L scorecardResult t cert ∧ InNamespace cert key := by
  intro h
  have hrun := exec_sampleTrace "gitlab.com"
  have hall := h _ _ _ _ _ _ _ hrun
  obtain ⟨t₁, info, t₂, ht, h₁, h₂⟩ := exec_run_bind_ok.mp hrun
  rw [ht] at hall
  obtain ⟨cert, hcert, hns⟩ := hall _
    (mem_writtenKeys_append.mpr (Or.inr (commitObjectPath_mem_writtenKeys h₂)))
  obtain ⟨hpath, hsha⟩ := hcert.info h₁
  exact absurd (certifiedPlatform_of_inNamespace hpath (hsha ▸ hns)).1 (by decide)

/-! ### The branch of a request -/

theorem ne_refs_heads (s : String) : s ≠ "refs/heads/" ++ s := by
  intro h
  have hlen := congrArg (fun s => s.toList.length) h
  simp only [String.toList_append, List.length_append] at hlen
  have : "refs/heads/".toList.length = 11 := by decide
  omega

/-- **Results of the default branch.** For a certificate of the request's repository, the two
comparisons let through nothing but the default branch's ref, whatever branch the request names,
exactly when the certificate's ref is neither the bare name of the default branch nor its name after
two prefixes. -/
theorem defaultBranch_only_iff (info : CertInfo) (org repo d : String)
    (hrepo : info.repoFullName = fullName org repo) :
    (∀ branch, certMatchesRequest info org repo branch = true → isDefaultBranch branch d = true →
      info.repoBranchRef = "refs/heads/" ++ d) ↔
      info.repoBranchRef ≠ d ∧ info.repoBranchRef ≠ "refs/heads/" ++ ("refs/heads/" ++ d) := by
  simp only [certMatchesRequest_iff, isDefaultBranch_iff, hrepo, true_and]
  constructor
  · intro h
    constructor
    · intro hd
      exact ne_refs_heads d (hd.symm.trans (h d (Or.inl hd) (Or.inl rfl)))
    · intro hd
      have hinitial := hd.symm.trans (h ("refs/heads/" ++ d) (Or.inr hd) (Or.inr rfl))
      exact ne_refs_heads _ hinitial.symm
  · rintro ⟨hbare, htwice⟩ branch hcert (rfl | rfl)
    · exact hcert.resolve_left hbare
    · exact hcert.resolve_right htwice

/-- A certificate for the default branch `main` passes, as one of that branch. -/
theorem refs_heads_main_only :
    (certMatchesRequest ⟨"org/repo", "refs/heads/main", "", "", "", ""⟩ "org" "repo" "main" = true ∧
      isDefaultBranch "main" "main" = true) ∧
    ∀ branch,
      certMatchesRequest ⟨"org/repo", "refs/heads/main", "", "", "", ""⟩ "org" "repo" branch =
        true →
        isDefaultBranch branch "main" = true → "refs/heads/main" = "refs/heads/" ++ "main" :=
  ⟨by decide, (defaultBranch_only_iff ⟨"org/repo", "refs/heads/main", "", "", "", ""⟩ "org" "repo"
    "main" (by decide)).mpr ⟨by decide, by decide⟩⟩

/-- Where the default branch is called `refs/heads/main`, results of the branch `main` pass. -/
theorem exists_other_branch_passes : ¬∀ (info : CertInfo) (org repo branch d : String),
    Strings.hasPrefix info.repoBranchRef "refs/" = true → d ≠ "" →
      certMatchesRequest info org repo branch = true → isDefaultBranch branch d = true →
        info.repoBranchRef = "refs/heads/" ++ d := by
  intro h
  have hmain := h ⟨"org/repo", "refs/heads/main", "", "", "", ""⟩ "org" "repo" "refs/heads/main"
    "refs/heads/main" (by decide) (by decide) (by decide) (by decide)
  exact absurd hmain (by decide)

end ScorecardInfra.Server
