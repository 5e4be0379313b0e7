import ScorecardInfra.GoStd.Maps
import ScorecardInfra.Interaction.Failure
import ScorecardInfra.Server.Errors
import ScorecardInfra.Server.VerifyWorkflow

/-!
# What the API server does to the world, and the libraries it calls

A handler is a program over `ApiSig`: it sends requests with the process-wide default client, makes
GitHub clients and calls through them, writes objects to a bucket, reads environment variables and
ranges over maps. The process-wide state that these operations share is the transport of
`http.DefaultClient`: `setTransport` assigns it, `send` uses it, and `newGithubClient` copies it
into the client that it returns.

`Libraries` are the functions from outside the repository, together with the embedded key files:
hashes, signatures, certificate chains, Merkle proofs and the decoders of JSON, base64 and PEM. They
are opaque; the only law required of them is that PEM decoding consumes input.

Sources: `api/app/server/post_results.go`; `github_verifier.go`; `github_transport.go`;
`internal/cdn/cdn.go`; `config.go`.
-/

namespace ScorecardInfra.Server

open GoStd Interaction

/-! ### HTTP and GitHub -/

/-- A request sent with `http.DefaultClient`. -/
structure HttpRequest where
  method : String
  url : String
  headers : List (String × String)
  body : String
  deriving DecidableEq, Repr

/-- A response. -/
structure HttpResponse where
  statusCode : Nat
  status : String
  body : String
  deriving DecidableEq, Repr

/-- A `github.Client`: the bearer token that the transport it was made with adds to its requests. -/
structure GithubClient where
  token : Option String
  deriving DecidableEq, Repr

/-- An error of a GitHub call, with the status of the response if there was one. -/
structure GithubError where
  message : String
  statusCode : Option Nat
  deriving DecidableEq, Repr

/-- A tag: its name, and the hash of its commit if both are set. -/
structure Tag where
  name : String
  commitSHA : Option String
  deriving DecidableEq, Repr

/-- The calls of the GitHub API. -/
inductive GithubCall : Type
  | get (owner repo : String)
  | getContents (owner repo path ref : String)
  | listTags (owner repo : String) (perPage : Nat)
  | listReleases (owner repo : String) (perPage : Nat)
  | compareCommits (owner repo base head : String) (perPage : Nat)
  deriving DecidableEq, Repr

/-- What the calls return: the default branch, if set; a file with what its `GetContent` returns, or
`none` for a directory; tags; target commitishes; and the status of a comparison. -/
abbrev GithubCall.Result : GithubCall → Type
  | get _ _ => Option String
  | getContents _ _ _ _ => Option (Except String String)
  | listTags _ _ _ => List Tag
  | listReleases _ _ _ => List (Option String)
  | compareCommits _ _ _ _ _ => String

/-! ### Operations -/

/-- The operations of a bucket. An object exists once its writer is closed. -/
inductive BucketOp : Type
  | openBucket (bucketURL : String)
  | newWriter (bucketURL filename : String)
  | write (bucketURL filename data : String)
  | closeWriter (bucketURL filename : String)
  | closeBucket (bucketURL : String)
  deriving DecidableEq, Repr

/-- The operations of the handlers. -/
inductive ApiOp : Type
  /-- `http.DefaultClient.Transport = githubTransport{token: token}`. -/
  | setTransport (token : String)
  /-- `github.NewClient(http.DefaultClient)`. -/
  | newGithubClient
  /-- `http.DefaultClient.Do(req)`. -/
  | send (req : HttpRequest)
  /-- A call through a GitHub client. -/
  | github (client : GithubClient) (call : GithubCall)
  /-- An operation of a bucket. -/
  | bucket (op : BucketOp)
  /-- `os.Getenv`. -/
  | getenv (name : String)
  /-- Range over a map with `n` entries. -/
  | range (n : Nat)

/-- The operations of the handlers with their answers. -/
abbrev ApiSig : Signature where
  Op := ApiOp
  Ans
    | .setTransport _ => Unit
    | .newGithubClient => GithubClient
    | .send _ => Except String HttpResponse
    | .github _ call => Except GithubError call.Result
    | .bucket _ => Except String Unit
    | .getenv _ => String
    | .range n => GoMap.Order n

/-- Programs of the handlers. -/
abbrev Api (α : Type) : Type := Fallible ServerError (Prog ApiSig) α

/-- Perform one operation. -/
def performApi (o : ApiOp) : Api (ApiSig.Ans o) := Fallible.perform (S := ApiSig) o

/-- A call through a GitHub client. -/
def callGithub (client : GithubClient) (call : GithubCall) : Api (Except GithubError call.Result) :=
  performApi (.github client call)

/-! ### Entries of the transparency log -/

/-- The inclusion proof of an entry. -/
structure InclusionProof where
  hashes : List String
  rootHash : String
  treeSize : Nat
  logIndex : Nat
  deriving DecidableEq, Repr

/-- The verification section of an entry. -/
structure Verification where
  inclusionProof : Option InclusionProof
  signedEntryTimestamp : String
  deriving DecidableEq, Repr

/-- `tlogEntry`. -/
structure TlogEntry where
  body : String
  integratedTime : Int
  logID : String
  logIndex : Int
  verification : Option Verification
  deriving DecidableEq, Repr

/-- The part of an entry that Rekor signs. -/
structure SignedPayload where
  body : String
  integratedTime : Int
  logID : String
  logIndex : Int
  deriving DecidableEq, Repr

/-- The signed part of an entry. -/
def TlogEntry.signedPayload (e : TlogEntry) : SignedPayload :=
  ⟨e.body, e.integratedTime, e.logID, e.logIndex⟩

/-- The fields of `hashedrekord.Body` that the package reads. -/
structure HashedRekord where
  kind : String
  algorithm : String
  hashValue : String
  publicKey : String
  deriving DecidableEq, Repr

/-- A parsed certificate: its encoding, validity in seconds, extensions with their identifiers in
dotted form, and the paths of its URIs. -/
structure Certificate where
  raw : String
  notBefore : Int
  notAfter : Int
  extensions : List (String × String)
  uriPaths : List String
  deriving DecidableEq, Repr

/-! ### Libraries -/

/-- The functions from outside the repository, and the embedded files. -/
structure Libraries where
  /-- `actionlint.Parse` and `yaml.Unmarshal`. -/
  workflowParser : WorkflowParser
  /-- `sha256.Sum256`. -/
  sha256 : String → String
  /-- `base64.StdEncoding.DecodeString`. -/
  base64Decode : String → Except String String
  /-- The text of the error of `hex.DecodeString`. -/
  hexErrorText : String → String
  /-- The JSON decoder at the type `[]string`. -/
  decodeStrings : String → Except String (List String)
  /-- The JSON decoder at the type `map[string]tlogEntry`. -/
  decodeEntries : String → Except String (GoMap String TlogEntry)
  /-- `json.Unmarshal` at the type `hashedrekord.Body`. -/
  unmarshalBody : String → Except String HashedRekord
  /-- `json.Marshal` of the signed part of an entry. -/
  marshalPayload : SignedPayload → Except String String
  /-- `jsoncanonicalizer.Transform`. -/
  canonicalize : String → Except String String
  /-- `http.NewRequestWithContext`: the error for a malformed method or URL. -/
  newRequest : String → String → Except String Unit
  /-- `pem.Decode`: the bytes of the first block and the rest. -/
  pemDecode : String → Option (String × String)
  pemDecode_lt : ∀ s block rest, pemDecode s = some (block, rest) →
    rest.toList.length < s.toList.length
  /-- `x509.ParseCertificate`. -/
  parseCertificate : String → Except String Certificate
  CertPool : Type
  /-- `AppendCertsFromPEM` to a new pool. -/
  certPoolFromPEM : String → Option CertPool
  /-- `Certificate.Verify` for code signing with roots, intermediates and a current time. -/
  verifyChain : Certificate → CertPool → CertPool → Int → Except String Unit
  EcdsaKey : Type
  /-- `x509.ParsePKIXPublicKey`: the key if it is an ECDSA key. -/
  parsePKIXPublicKey : String → Except String (Option EcdsaKey)
  /-- `ecdsa.VerifyASN1` of a hash and a signature. -/
  verifyASN1 : EcdsaKey → String → String → Bool
  /-- `merkleproof.VerifyInclusion` with index, size, leaf hash, proof and root. -/
  verifyInclusion : Nat → Nat → String → List String → String → Except String Unit
  /-- The text of a time in seconds. -/
  timeText : Int → String
  /-- `semver.IsValid`, `semver.Compare` and `semver.Major`. -/
  semverIsValid : String → Bool
  semverCompare : String → String → Ordering
  semverMajor : String → String
  /-- The greatest length of a slice of strings that `make` can allocate. -/
  maxSlice : Nat
  fulcioRoot : String
  fulcioIntermediate : String
  rekorPub : String

end ScorecardInfra.Server
