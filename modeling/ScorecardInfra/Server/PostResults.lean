import ScorecardInfra.Server.GetResults
import ScorecardInfra.Server.GithubVerifier
import ScorecardInfra.Server.Transparency

/-!
# Publishing a result

`processRequest` verifies a request and publishes its result: it finds the certificate of the
payload, compares it with the request, verifies the workflow that produced the payload, and writes
the payload under two keys, one of them with the commit.

## Main definitions

* `VerifiedScorecardResult`, `PostRequest`, `PostResponse`.
* `certMatchesRequest`, `isDefaultBranch`, `getAndVerifyWorkflowContent`.
* `writeToBlobStore`, `Purger`, `getPurger`.
* `verifyRequest`, `publishResult`, `processRequest`, `postResultsHandler`.

Sources: `api/app/server/post_results.go`, lines 120–290 and 623–647;
`api/app/server/internal/cdn/cdn.go`; `api/app/server/config.go`.
-/

namespace ScorecardInfra.Server

open GoStd Interaction

variable (L : Libraries)

/-! ### Requests and responses -/

/-- `models.VerifiedScorecardResult`. -/
structure VerifiedScorecardResult where
  result : String
  branch : String
  accessToken : String
  tlogIndex : Int
  deriving DecidableEq, Repr

/-- The parameters of a request; `publish` is nil without a body. -/
structure PostRequest where
  platform : String
  org : String
  repo : String
  publish : Option VerifiedScorecardResult
  deriving DecidableEq, Repr

/-- The responses. A panic aborts the connection. -/
inductive PostResponse : Type
  | created (payload : String)
  | badRequest (message : String)
  | internalServerError (message : String)
  | aborted (message : String)
  deriving DecidableEq, Repr

/-! ### Names of repositories and branches -/

/-- `fullName`. -/
def fullName (org repo : String) : String := org ++ "/" ++ repo

/-- `splitFullPath`. -/
def splitFullPath (path : String) : Option (String × String × String) :=
  match Strings.splitN '/' 3 path with
  | [org, repo, subPath] => some (org, repo, subPath)
  | _ => none

/-- `splitRepoName`. -/
def splitRepoName (path : String) : Option (String × String) :=
  match Strings.splitN '/' 2 path with
  | [org, repo] => some (org, repo)
  | _ => none

/-- The negation of the test in `processRequest`: the certificate's repository is that of the
request, and its ref is the request's branch, bare or after `refs/heads/`.

Source: `api/app/server/post_results.go`, lines 156–160. -/
def certMatchesRequest (info : CertInfo) (org repo branch : String) : Bool :=
  !(info.repoFullName != fullName org repo ||
    (info.repoBranchRef != branch && info.repoBranchRef != "refs/heads/" ++ branch))

/-- The negation of the test in `getAndVerifyWorkflowContent`: the request's branch is the default
branch, bare or after `refs/heads/`.

Source: `api/app/server/post_results.go`, lines 237–241. -/
def isDefaultBranch (branch defaultBranch : String) : Bool :=
  !(branch != defaultBranch && branch != "refs/heads/" ++ defaultBranch)

/-! ### The workflow of the certificate -/

/-- A value, or the error for its absence. -/
def orError {α : Type} (message : String) : Option α → Api α
  | none => fail (.text message)
  | some a => pure a

/-- `GetContent` of a downloaded file; for a directory there is no file. -/
def fileContent : Option (Except String String) → Api String
  | none => crash nilDereference
  | some content => Interaction.ofExcept (libraryResult "error decoding workflow contents" content)

/-- The assignment of the default client's transport, if the request has a token. -/
def useAccessToken (accessToken : String) : Api Unit :=
  if accessToken = "" then pure () else performApi (.setTransport accessToken)

/-- The ref at which the workflow file is read: the certificate's commit for a file of the
repository itself. -/
def workflowFileRef (info : CertInfo) (workflowRepoFullName : String) : String :=
  if workflowRepoFullName = info.repoFullName then info.repoSHA else info.workflowRef

/-- The part of `getAndVerifyWorkflowContent` that talks to GitHub.

Source: `api/app/server/post_results.go`, lines 226–270. -/
def verifyContentWith (client : GithubClient) (scorecardResult : VerifiedScorecardResult)
    (info : CertInfo) : Api Unit := do
  let name ← orError "cert repository name is malformed" (splitRepoName info.repoFullName)
  let answer ← callGithub client (.get name.1 name.2)
  let defaultBranch ← orFail "error getting repository" answer
  failIf (!isDefaultBranch scorecardResult.branch (defaultBranch.getD ""))
    (.verification (.sentinel .errNotDefaultBranch))
  let path ← orError "cert workflow path is malformed" (splitFullPath info.workflowPath)
  let answer ← callGithub client (.getContents path.1 path.2.1 path.2.2
    (workflowFileRef info (fullName path.1 path.2.1)))
  let contents ← orFail "error downloading workflow contents from repo" answer
  let workflowContent ← fileContent contents
  verifyWithGithub L workflowContent client

/-- `getAndVerifyWorkflowContent`.

Source: `api/app/server/post_results.go`, lines 215–270. -/
def getAndVerifyWorkflowContent (scorecardResult : VerifiedScorecardResult) (info : CertInfo) :
    Api Unit := do
  useAccessToken scorecardResult.accessToken
  let client ← performApi .newGithubClient
  verifyContentWith L client scorecardResult info

/-! ### Writing and purging -/

/-- `envOr`. -/
def envOr (name default : String) : Api String := do
  let v ← performApi (.getenv name)
  return if v = "" then default else v

/-- `resultsBucketURL`. -/
def resultsBucketURL : Api String :=
  envOr "SCORECARD_RESULTS_BUCKET_URL" "gs://ossf-scorecard-results"

/-- An operation of a bucket, with its error in a context. -/
def bucketStep (context : String) (op : BucketOp) : Api Unit := do
  let answer ← performApi (.bucket op)
  Interaction.ofExcept (libraryResult context answer)

/-- The part of `writeToBlobStore` with the bucket open. -/
def writeObject (bucketURL filename data : String) : Api Unit := do
  bucketStep "error from bucket.NewWriter" (.newWriter bucketURL filename)
  bucketStep "error from blobWriter.Write" (.write bucketURL filename data)
  bucketStep "error from blobWriter.Close" (.closeWriter bucketURL filename)

/-- `writeToBlobStore`. The bucket is closed on every path, and the error of that is dropped.

Source: `api/app/server/post_results.go`, lines 272–290. -/
def writeToBlobStore (bucketURL filename data : String) : Api Unit := do
  bucketStep "error from blob.OpenBucket" (.openBucket bucketURL)
  let written ← attempt (writeObject bucketURL filename data)
  let _ ← performApi (.bucket (.closeBucket bucketURL))
  Interaction.ofExcept written

/-- `cdn.Purger`. -/
inductive Purger : Type
  | noOpClient
  | fastlyClient (token baseURL : String)
  deriving DecidableEq, Repr

/-- `NewFastlyClient`. -/
def newFastlyClient (token baseURL : String) : Purger :=
  .fastlyClient token (Strings.trimSuffix baseURL '/')

/-- `Purge`.

Source: `api/app/server/internal/cdn/cdn.go`, lines 47–64. -/
def Purger.purge (path : String) : Purger → Api Unit
  | noOpClient => pure ()
  | fastlyClient token baseURL => do
    let resp ← sendRequest L "http.NewRequest" "http.Do"
      ⟨"PURGE", baseURL ++ path, [("Fastly-Key", token)], ""⟩
    failIf (resp.statusCode != 200) (.wrap "" (.sentinel .errPurgeFailed) (": " ++ resp.status))

/-- `getPurger`.

Source: `api/app/server/post_results.go`, lines 625–647. -/
def getPurger : Api Purger := do
  let emulatorHost ← performApi (.getenv "STORAGE_EMULATOR_HOST")
  if emulatorHost ≠ "" then return .noOpClient
  let apiBaseURL ← performApi (.getenv "API_BASE_URL")
  if apiBaseURL = "" then return .noOpClient
  let purgeToken ← performApi (.getenv "FASTLY_PURGE_TOKEN")
  if purgeToken = "" then return .noOpClient
  return newFastlyClient purgeToken apiBaseURL

/-! ### The request -/

/-- The part of `processRequest` before the first write: the certificate's information.

Source: `api/app/server/post_results.go`, lines 146–164. -/
def verifyRequest (org repo : String) (scorecardResult : VerifiedScorecardResult) :
    Api CertInfo := do
  let cert ← annotate (.wrapf "error extracting cert")
    (extractAndVerifyCertForPayload L scorecardResult.result scorecardResult.tlogIndex)
  let info ← Interaction.ofExcept (inContext "error extracting cert info" (extractCertInfo cert))
  failIf (!certMatchesRequest info org repo scorecardResult.branch)
    (.verification (.sentinel .errMismatchedCertAndRequest))
  annotate (.wrapf "workflow verification failed")
    (getAndVerifyWorkflowContent L scorecardResult info)
  return info

/-- `fmt.Errorf("%w: %v", errWritingBucket, err)`. -/
def writingError (err : ServerError) : ServerError :=
  .wrap "" (.sentinel .errWritingBucket) (": " ++ err.message)

/-- The key of the result. -/
def objectPath (host org repo : String) : String :=
  host ++ "/" ++ org ++ "/" ++ repo ++ "/" ++ resultsFile

/-- The key of the result at a commit. -/
def commitObjectPath (host org repo sha : String) : String :=
  host ++ "/" ++ org ++ "/" ++ repo ++ "/" ++ sha ++ "/" ++ resultsFile

/-- The part of `processRequest` from the first write on. Errors of the purger are logged only.

Source: `api/app/server/post_results.go`, lines 166–187. -/
def publishResult (host org repo : String) (info : CertInfo) (result : String) : Api Unit := do
  let bucketURL ← resultsBucketURL
  annotate writingError (writeToBlobStore bucketURL (objectPath host org repo) result)
  let purger ← getPurger
  let path := "/projects/" ++ host ++ "/" ++ org ++ "/" ++ repo
  let _ ← attempt (purger.purge L path)
  annotate writingError
    (writeToBlobStore bucketURL (commitObjectPath host org repo info.repoSHA) result)
  let _ ← attempt (purger.purge L (path ++ "?commit=" ++ info.repoSHA))
  pure ()

/-- `processRequest`, for a request with a body.

Source: `api/app/server/post_results.go`, lines 145–188. -/
def processRequest (host org repo : String) (scorecardResult : VerifiedScorecardResult) :
    Api Unit := do
  let info ← verifyRequest L org repo scorecardResult
  publishResult L host org repo info scorecardResult.result

/-- The response to the outcome of a request. -/
def respond : Except (Stop ServerError) Unit → PostResponse
  | .ok () => .created "successfully verified and published ScorecardResult"
  | .error (.panic message) => .aborted message
  | .error (.error err) =>
    if err.asVerification || err.is .errWorkflowParse || err.is .errNotOIDC then
      .badRequest err.message
    else .internalServerError "something went wrong and we are looking into it."

/-- The handling of a request; without a body the result is a nil pointer. -/
def handleRequest (params : PostRequest) : Api Unit :=
  match params.publish with
  | none => crash nilDereference
  | some scorecardResult =>
    processRequest L params.platform params.org params.repo scorecardResult

/-- `PostResultsHandler`.

Source: `api/app/server/post_results.go`, lines 120–143. -/
def postResultsHandler (params : PostRequest) : Prog ApiSig PostResponse :=
  respond <$> (handleRequest L params).run

end ScorecardInfra.Server
