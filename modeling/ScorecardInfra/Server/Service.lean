import ScorecardInfra.Cron.Exports
import ScorecardInfra.Interaction.Interleaving
import ScorecardInfra.Interaction.Sum
import ScorecardInfra.Server.ReadAfterWrite

/-!
# The results service

Requests that publish results and requests that read them are handled at the same time, by any
number of processes, while the workers of the batch pipeline export results to the bucket that is
read if the first one has no object. All of them share the objects of the buckets. A writer keeps
its data to itself until it is closed, when the object appears at once.

A program that reads opens and reads the two buckets one after the other, the second one only if
the first one gave no object. What it returns is settled by what it has seen of them
(`exec_getResults`).

## Main definitions

* `ReadOp`, `ServiceSig`, `GetRequest`, `GetRequest.getResults`.
* `Service`, `Service.Answer`, `Service.world`.

## Main results

* `exec_getResults`, `Service.Answer.objects`.

Sources: `api/app/server/get_results.go`, lines 44–101; `api/app/server/config.go`.
-/

namespace ScorecardInfra.Server

open GoStd Interaction

/-! ### Reading -/

/-- The operations of a request that reads. -/
inductive ReadOp : Type
  | openBucket (bucketURL : String)
  | readAll (bucketURL key : String)
  deriving DecidableEq, Repr

/-- The operations with their answers. -/
abbrev ReadSig : Signature where
  Op := ReadOp
  Ans
    | .openBucket _ => Except String Unit
    | .readAll _ _ => Except ReadError String

/-- The operations of the service. -/
abbrev ServiceSig : Signature := ApiSig.sum ReadSig

/-- `cronResultsBucketURL`. -/
def cronResultsBucketURL : Api String :=
  envOr "SCORECARD_CRON_RESULTS_BUCKET_URL" "gs://ossf-scorecard-cron-results"

/-- The URL of the bucket of the batch pipeline, in an environment. -/
def cronResultsURL (env : String → String) : String :=
  if env "SCORECARD_CRON_RESULTS_BUCKET_URL" = "" then "gs://ossf-scorecard-cron-results"
  else env "SCORECARD_CRON_RESULTS_BUCKET_URL"

/-- The programs of the requests that read. -/
abbrev Reader (α : Type) : Type := Fallible ServerError (Prog ServiceSig) α

/-- A program of `api/app/server/config.go`. -/
def ofApi {α : Type} (x : Api α) : Reader α := ExceptT.mk x.run.inl

/-- Open a bucket and read an object. -/
def readBucket (bucketURL key : String) : Reader (Except ReadError String) := do
  match ← Fallible.perform (S := ServiceSig) (.inr (.openBucket bucketURL)) with
  | .error message => return .error (.failed message)
  | .ok () => Fallible.perform (S := ServiceSig) (.inr (.readAll bucketURL key))

/-- The parameters of a request. -/
structure GetRequest where
  platform : String
  org : String
  repo : String
  commit : Option String
  deriving DecidableEq, Repr

namespace GetRequest

variable (params : GetRequest)

/-- `sanitizeInputs` of the parameters. -/
def key : Except ServerError String :=
  sanitizeInputs params.platform params.org params.repo params.commit

/-- `getResults`, with its operations on the buckets.

Source: `api/app/server/get_results.go`, lines 72–101. -/
def getResults : Reader String := do
  let cleanResultsFile ← Interaction.ofExcept params.key
  let bucketURL ← ofApi resultsBucketURL
  match ← readBucket bucketURL cleanResultsFile with
  | .ok results => return results
  | .error _ =>
    let cleanResultsFile2 ← Interaction.ofExcept params.key
    let cronURL ← ofApi cronResultsBucketURL
    match ← readBucket cronURL cleanResultsFile2 with
    | .ok results => return results
    | .error _ => fail (.sentinel .errNotFound)

end GetRequest

/-- The response to the outcome of `getResults`. -/
def readResponse {ρ : Type} (unmarshalBinary : String → Except String ρ) :
    Except ServerError String → GetResultResponse ρ
  | .error err =>
    if err.is .errNotFound then .notFound fastlyTTL browserCacheTTL
    else if err.is .errInvalidInputs then .badRequest fastlyTTL browserCacheTTL
    else .default 500 err.message
  | .ok res => match unmarshalBinary res with
    | .ok ret => .ok ret fastlyTTL browserCacheTTL
    | .error err => .default 500 err

theorem getResultHandler_eq {ρ : Type} (primary cron : BucketAccess)
    (host orgName repoName : String) (commit : Option String)
    (unmarshalBinary : String → Except String ρ) :
    getResultHandler primary cron host orgName repoName commit unmarshalBinary =
      readResponse unmarshalBinary (getResults primary cron host orgName repoName commit) := rfl

/-- `GetResultHandler`, with its operations on the buckets.

Source: `api/app/server/get_results.go`, lines 44–70. -/
def GetRequest.getResultHandler {ρ : Type} (params : GetRequest)
    (unmarshalBinary : String → Except String ρ) : Reader (GetResultResponse ρ) := do
  let res ← attempt params.getResults
  return readResponse unmarshalBinary res

/-! ### Runs of a request that reads -/

/-- A look at an object of the bucket whose URL is in the environment under `name`, and what it
gives. -/
inductive Looks (name default key : String) : Trace ServiceSig → Except ReadError String → Prop
  | unopened (v message : String) : Looks name default key
      [⟨.inl (.getenv name), v⟩,
        ⟨.inr (.openBucket (if v = "" then default else v)), .error message⟩]
      (.error (.failed message))
  | read (v : String) (x : Except ReadError String) : Looks name default key
      [⟨.inl (.getenv name), v⟩, ⟨.inr (.openBucket (if v = "" then default else v)), .ok ()⟩,
        ⟨.inr (.readAll (if v = "" then default else v) key), x⟩] x

/-- A look at the bucket of results. -/
abbrev LooksPrimary : String → Trace ServiceSig → Except ReadError String → Prop :=
  Looks "SCORECARD_RESULTS_BUCKET_URL" "gs://ossf-scorecard-results"

/-- A look at the bucket of the batch pipeline. -/
abbrev LooksCron : String → Trace ServiceSig → Except ReadError String → Prop :=
  Looks "SCORECARD_CRON_RESULTS_BUCKET_URL" "gs://ossf-scorecard-cron-results"

/-- The bucket is opened and read after its URL. -/
theorem exec_look {α : Type} {name default key : String}
    {f : Except ReadError String → Reader α} {t : Trace ServiceSig}
    {r : Except (Stop ServerError) α}
    (h : Exec (ofApi (envOr name default) >>= fun url => readBucket url key >>= f).run t
      (some r)) :
    ∃ t₁ x t₂, t = t₁ ++ t₂ ∧ Looks name default key t₁ x ∧ Exec (f x).run t₂ (some r) := by
  cases h with
  | @op _ _ v t r h =>
  cases h with
  | @op _ _ opened t r h =>
  cases opened with
  | error message => exact ⟨_, _, t, rfl, .unopened v message, h⟩
  | ok u =>
    cases h with
    | @op _ _ x t r h => exact ⟨_, _, t, rfl, .read v x, h⟩

/-- What `getResults` returns of what it has seen. -/
theorem exec_getResults {params : GetRequest} {t : Trace ServiceSig}
    {r : Except (Stop ServerError) String} (h : Exec params.getResults.run t (some r)) :
    (∃ err, params.key = .error err ∧ t = [] ∧ r = .error (.error err)) ∨
      ∃ key t₁ x, params.key = .ok key ∧ LooksPrimary key t₁ x ∧
        ((∃ data, x = .ok data ∧ t = t₁ ∧ r = .ok data) ∨
          ∃ e t₂ y, x = .error e ∧ LooksCron key t₂ y ∧ t = t₁ ++ t₂ ∧
            r = (y.mapError fun _ => .error (.sentinel .errNotFound))) := by
  unfold GetRequest.getResults at h
  cases hkey : params.key with
  | error err =>
    rw [hkey] at h
    obtain ⟨rfl, rfl⟩ := exec_ret_some.mp h
    exact Or.inl ⟨err, rfl, rfl, rfl⟩
  | ok key =>
    rw [hkey] at h
    obtain ⟨t₁, x, t', rfl, hlook, h⟩ := exec_look h
    refine Or.inr ⟨key, t₁, x, rfl, hlook, ?_⟩
    cases x with
    | ok data =>
      obtain ⟨rfl, rfl⟩ := exec_ret_some.mp h
      exact Or.inl ⟨data, rfl, List.append_nil _, rfl⟩
    | error e =>
      obtain ⟨t₂, y, t', rfl, hlook', h⟩ := exec_look h
      refine Or.inr ⟨e, t₂, y, rfl, hlook', ?_⟩
      cases y with
      | ok data =>
        obtain ⟨rfl, rfl⟩ := exec_ret_some.mp h
        exact ⟨by rw [List.append_nil], rfl⟩
      | error e' =>
        obtain ⟨rfl, rfl⟩ := exec_ret_some.mp h
        exact ⟨by rw [List.append_nil], rfl⟩

/-! ### The service -/

/-- The objects of all buckets, by the URL of the bucket and the key. -/
abbrev Objects : Type := GoMap (String × String) String

/-- What reading an object may give: the object as it is, or a failure. -/
def Objects.MayRead (s : Objects) (bucketURL key : String) : Except ReadError String → Prop
  | .ok data => s.lookup (bucketURL, key) = some data
  | .error .notFound => s.lookup (bucketURL, key) = none
  | .error (.failed _) => True

/-- The data of a writer that has performed `past`. -/
def written (past : Trace ServiceSig) (bucketURL key : String) : String :=
  (Writers.after ∅ (Trace.lefts past)).written bucketURL key

/-- The operations that do not depend on the buckets or the environment. -/
def ApiOp.IsOutside : ApiOp → Prop
  | .getenv _ | .bucket (.closeWriter _ _) => False
  | _ => True

/-- The libraries and the environment of the processes, the requests that publish and those that
read, and the workers of the batch pipeline. -/
structure Service (R G W ρ : Type) where
  libraries : Libraries
  env : String → String
  unmarshalBinary : String → Except String ρ
  posts : R → PostRequest
  gets : G → GetRequest
  workers : W → Cron.ScorecardWorker

namespace Service

variable {R G W ρ : Type} (svc : Service R G W ρ)

/-- The answers that a request may get. Closing a writer makes the object, if it succeeds, and may
have made it if it fails. -/
inductive Answer : R ⊕ G → Trace ServiceSig → Objects → Event ServiceSig → Objects → Prop
  | getenv {i past s} (name : String) : Answer i past s ⟨.inl (.getenv name), svc.env name⟩ s
  | outside {i past s} (e : Event ApiSig) (h : e.op.IsOutside) : Answer i past s e.inl s
  | closed {r past s} (bucketURL key : String) (x : Except String Unit) :
      Answer (.inl r) past s ⟨.inl (.bucket (.closeWriter bucketURL key)), x⟩
        (s.insert (bucketURL, key) (written past bucketURL key))
  | notClosed {r past s} (bucketURL key message : String) :
      Answer (.inl r) past s ⟨.inl (.bucket (.closeWriter bucketURL key)), .error message⟩ s
  | openBucket {i past s} (bucketURL : String) (x : Except String Unit) :
      Answer i past s ⟨.inr (.openBucket bucketURL), x⟩ s
  | readAll {i past} {s : Objects} (bucketURL key : String) (x : Except ReadError String)
      (h : s.MayRead bucketURL key x) : Answer i past s ⟨.inr (.readAll bucketURL key), x⟩ s

variable {svc} in
/-- What is read is what is stored. -/
theorem Answer.mayRead {i : R ⊕ G} {past : Trace ServiceSig} {s s' : Objects}
    {bucketURL key : String} {x : Except ReadError String}
    (h : svc.Answer i past s ⟨.inr (.readAll bucketURL key), x⟩ s') :
    s.MayRead bucketURL key x := by
  generalize he : (⟨.inr (.readAll bucketURL key), x⟩ : Event ServiceSig) = e at h
  cases h with
  | readAll bucketURL key x h =>
    cases he
    exact h
  | _ => cases he

variable {svc} in
/-- Closing a writer stores its data, if it succeeds. -/
theorem Answer.eq_insert {r : R} {past : Trace ServiceSig} {s s' : Objects}
    {bucketURL key : String}
    (h : svc.Answer (.inl r) past s ⟨.inl (.bucket (.closeWriter bucketURL key)), .ok ()⟩ s') :
    s' = s.insert (bucketURL, key) (written past bucketURL key) := by
  generalize he : (⟨.inl (.bucket (.closeWriter bucketURL key)), .ok ()⟩ : Event ServiceSig) = e
    at h
  cases h with
  | closed bucketURL key x =>
    cases he
    rfl
  | outside e ho =>
    obtain ⟨op, x⟩ := e
    cases he
    exact ho.elim
  | _ => cases he

variable {svc} in
/-- The objects change where a writer is closed. -/
theorem Answer.objects {i : R ⊕ G} {past : Trace ServiceSig} {s s' : Objects}
    {e : Event ServiceSig} (h : svc.Answer i past s e s') :
    s' = s ∨ ∃ r bucketURL key, i = .inl r ∧ e.op = .inl (.bucket (.closeWriter bucketURL key)) ∧
      s' = s.insert (bucketURL, key) (written past bucketURL key) := by
  cases h with
  | closed bucketURL key x => exact Or.inr ⟨_, bucketURL, key, rfl, rfl, rfl⟩
  | _ => exact Or.inl rfl

/-- What a worker may do to the objects. -/
def Exports (s s' : Objects) : Prop :=
  ∃ w bucketURL key data, (svc.workers w).Exported bucketURL key data ∧
    s' = s.insert (bucketURL, key) data

/-- What the requests respond: those that publish, and those that read. -/
abbrev Responses (ρ : Type) : Type := PostResponse ⊕ Except (Stop ServerError) (GetResultResponse ρ)

/-- The service. -/
def world : World ServiceSig (R ⊕ G) Objects (Responses ρ) where
  start
    | .inl r => Sum.inl <$> (postResultsHandler svc.libraries (svc.posts r)).inl
    | .inr g => Sum.inr <$> ((svc.gets g).getResultHandler svc.unmarshalBinary).run
  answer := svc.Answer
  restarts _ := False
  surroundings := svc.Exports

end Service

end ScorecardInfra.Server
