import ScorecardInfra.Server.ReadAfterWrite

/-!
# Requests that are rejected

`processRequest` writes the result under the key of the latest result, and after that under the key
with the commit. There is no way back from a write: if the second one fails, the request is answered
with an error, and the latest object is the result of the request. Closing a writer may also report
an error although the object has been stored.

Up to that, a rejected request changes nothing (`rejected_publish`). An object that it has changed
is the latest one, and its writer was closed; or it is the one with the commit, the write of the
latest one was completed, and closing its own writer reported an error. Either object holds the
result of the request then, which was verified.

## Main definitions

* `publishCommit`: the part of `processRequest` after the first write.
* `Kept`, `MayReplace`, `ChangesOnly`.

## Main results

* `changesOnly_of_publishTo_error`, `rejected_publish`.

Source: `api/app/server/post_results.go`, lines 120–188 and 272–290.
-/

namespace ScorecardInfra.Server

open GoStd Interaction

variable {L : Libraries} {landed : String × String → Bool} {s : Buckets}

/-! ### After the first write -/

/-- The part of `processRequest` after the first write, at the URL of the bucket. -/
def publishCommit (L : Libraries) (host org repo : String) (info : CertInfo) (result url : String) :
    Api Unit := do
  let purger ← getPurger
  let path := "/projects/" ++ host ++ "/" ++ org ++ "/" ++ repo
  let _ ← attempt (purger.purge L path)
  annotate writingError
    (writeToBlobStore url (commitObjectPath host org repo info.repoSHA) result)
  let _ ← attempt (purger.purge L (path ++ "?commit=" ++ info.repoSHA))
  pure ()

theorem publishTo_eq (host org repo : String) (info : CertInfo) (result url : String) :
    publishTo L host org repo info result url =
      annotate writingError (writeToBlobStore url (objectPath host org repo) result) >>= fun _ =>
        publishCommit L host org repo info result url := rfl

/-- The purger is found without an error. -/
theorem ensures_getPurger :
    Ensures (Buckets.monitor landed) s getPurger (fun _ s' => s'.objects = s.objects)
      fun _ _ => False := by
  refine ensures_perform_bind trivial fun host => ?_
  split
  · exact ensures_pure rfl
  refine ensures_perform_bind trivial fun url => ?_
  split
  · exact ensures_pure rfl
  refine ensures_perform_bind trivial fun token => ?_
  split
  · exact ensures_pure rfl
  · exact ensures_pure rfl

/-- A purge returns, and its error is only logged. -/
theorem ensures_attempt_purge (purger : Purger) (path : String) :
    Ensures (Buckets.monitor landed) s (attempt (purger.purge L path))
      (fun _ s' => s'.objects = s.objects)
      fun _ _ => False := by
  refine ensures_attempt (R := fun _ (s' : Buckets) => s'.objects = s.objects) ?_
  cases purger with
  | noOpClient => exact ensures_pure rfl
  | fastlyClient token baseURL =>
    refine Ensures.bind (Q := fun _ s' => s'.objects = s.objects) ?_ fun resp s' hs' =>
      ensures_failIf (fun _ => hs') fun _ => hs'
    refine Ensures.bind (Q := fun _ s' => s'.objects = s.objects) ?_ fun _ s' hs' => ?_
    · exact ensures_ofExcept (fun _ _ => rfl) fun _ _ => rfl
    · refine ensures_perform_bind trivial fun answer => ?_
      exact ensures_ofExcept (fun _ _ => hs') fun _ _ => hs'

/-- A write that fails, with a context to its error. -/
theorem objects_of_write_error {url key data : String} {t : Trace ApiSig} {stop : Stop ServerError}
    (landed : String × String → Bool) (s : Buckets)
    (h : Exec (annotate writingError (writeToBlobStore url key data)).run t (some (.error stop))) :
    (s.after landed t).objects = s.objects ∨
      (∃ message, ⟨.bucket (.closeWriter url key), .error message⟩ ∈ t) ∧
        (s.after landed t).objects = s.objects.insert (url, key) data := by
  obtain ⟨r, hrun, hr⟩ := exec_annotate_some h
  rcases exec_writeToBlobStore landed s hrun with ⟨rfl, -⟩ | ⟨stop', -, hobjects⟩
  · cases hr
  · exact hobjects

/-- A write that succeeds has closed its writer. -/
theorem closeWriter_mem {url key data : String} {t : Trace ApiSig}
    (h : Exec (writeToBlobStore url key data).run t (some (.ok ()))) :
    ⟨.bucket (.closeWriter url key), .ok ()⟩ ∈ t := by
  rcases exec_writeToBlobStore (fun _ => false) .empty h with
    ⟨-, hclosed, -⟩ | ⟨stop, hstop, -⟩
  · exact hclosed
  · cases hstop

/-- **After the first write** a failure changes no object, except that closing the writer of the
object with the commit may have stored it and reported an error. -/
theorem objects_of_publishCommit_error {host org repo url result : String} {info : CertInfo}
    {t : Trace ApiSig} {stop : Stop ServerError} (landed : String × String → Bool) (s : Buckets)
    (h : Exec (publishCommit L host org repo info result url).run t (some (.error stop))) :
    (s.after landed t).objects = s.objects ∨
      (∃ message, ⟨.bucket (.closeWriter url (commitObjectPath host org repo info.repoSHA)),
        .error message⟩ ∈ t) ∧
        (s.after landed t).objects =
          s.objects.insert (url, commitObjectPath host org repo info.repoSHA) result := by
  rcases exec_run_bind_error h with h | ⟨t₁, purger, t', rfl, h₁, h⟩
  · exact (h.post (@ensures_getPurger landed s)).elim
  have hs₁ : (s.after landed t₁).objects = s.objects := h₁.post ensures_getPurger
  rcases exec_run_bind_error h with h | ⟨t₂, _, t', rfl, h₂, h⟩
  · exact (h.post (@ensures_attempt_purge L landed s _ _)).elim
  have hs₂ : ((s.after landed t₁).after landed t₂).objects = (s.after landed t₁).objects :=
    h₂.post (ensures_attempt_purge _ _)
  rcases exec_run_bind_error h with h | ⟨t₃, _, t', rfl, -, h⟩
  · rw [Buckets.after_append, Buckets.after_append]
    rcases objects_of_write_error landed ((s.after landed t₁).after landed t₂) h with
      hsame | ⟨⟨message, hclosed⟩, hstored⟩
    · exact Or.inl (by rw [hsame, hs₂, hs₁])
    · exact Or.inr ⟨⟨message, by simp [hclosed]⟩, by rw [hstored, hs₂, hs₁]⟩
  · -- the last purge does not fail
    rcases exec_run_bind_error h with h | ⟨t₄, _, t', rfl, -, h⟩
    · exact (h.post (@ensures_attempt_purge L landed s _ _)).elim
    · cases (exec_ret_some.mp h).2

/-! ### Rejected requests -/

/-- A run that writes nothing leaves the objects alone, however it ends. -/
theorem objects_of_writesNothing {α : Type} {x : Api α} {t : Trace ApiSig}
    {r : Except (Stop ServerError) α} (landed : String × String → Bool) (s : Buckets)
    (h : Exec x.run t (some r)) (hx : x.run.Performs WritesNothing) :
    (s.after landed t).objects = s.objects := by
  have hpost := h.post (@ensures_of_writesNothing landed s _ _ _ _ hx (fun _ h => h) rfl)
  rcases r with stop | a
  exacts [hpost, hpost]

/-- The keys of the objects that a rejected request may have replaced: the latest one, if its writer
was closed; after the write of that one the one with the commit, if closing its writer reported an
error. -/
inductive MayReplace (host org repo sha url : String) (t : Trace ApiSig) : String → Prop
  | latest (x : Except String Unit)
      (h : ⟨.bucket (.closeWriter url (objectPath host org repo)), x⟩ ∈ t) :
      MayReplace host org repo sha url t (objectPath host org repo)
  | commit (message : String)
      (hlatest : ⟨.bucket (.closeWriter url (objectPath host org repo)), .ok ()⟩ ∈ t)
      (h : ⟨.bucket (.closeWriter url (commitObjectPath host org repo sha)), .error message⟩ ∈ t) :
      MayReplace host org repo sha url t (commitObjectPath host org repo sha)

theorem MayReplace.mono {host org repo sha url key : String} {t t' : Trace ApiSig} (ht : t ⊆ t') :
    MayReplace host org repo sha url t key → MayReplace host org repo sha url t' key
  | .latest x h => .latest x (ht h)
  | .commit message hlatest h => .commit message (ht hlatest) (ht h)

/-- The object under a key is as it was. -/
def Kept (s s' : Buckets) (key : String × String) : Prop :=
  s'.objects.lookup key = s.objects.lookup key

/-- The objects that a rejected request has changed hold its result. -/
def ChangesOnly (host org repo sha url result : String) (t : Trace ApiSig) (s s' : Buckets) :
    Prop :=
  ∀ key, Kept s s' key ∨
    key.1 = url ∧ MayReplace host org repo sha url t key.2 ∧ s'.objects.lookup key = some result

section ChangesOnly

variable {host org repo sha url result key : String} {t t' : Trace ApiSig} {s s' s'' : Buckets}

theorem changesOnly_of_eq (h : s'.objects = s.objects) :
    ChangesOnly host org repo sha url result t s s' :=
  fun key => Or.inl (by rw [Kept, h])

theorem ChangesOnly.mono (ht : t ⊆ t') (h : ChangesOnly host org repo sha url result t s s') :
    ChangesOnly host org repo sha url result t' s s' :=
  fun key => (h key).imp_right fun ⟨hurl, hmay, hdata⟩ => ⟨hurl, hmay.mono ht, hdata⟩

/-- One more object that holds the result. -/
theorem ChangesOnly.insert (h : ChangesOnly host org repo sha url result t s s')
    (hkey : MayReplace host org repo sha url t key)
    (hobjects : s''.objects = s'.objects.insert (url, key) result) :
    ChangesOnly host org repo sha url result t s s'' := by
  intro k
  by_cases hk : k = (url, key)
  · subst hk
    exact Or.inr ⟨rfl, hkey, by rw [hobjects, AList.lookup_insert]⟩
  · rw [Kept, hobjects, AList.lookup_insert_ne hk]
    exact h k

end ChangesOnly

/-- **A publication that stops**, at the URL of the bucket. -/
theorem changesOnly_of_publishTo_error {host org repo url result : String} {info : CertInfo}
    {t : Trace ApiSig} {stop : Stop ServerError} (landed : String × String → Bool) (s : Buckets)
    (h : Exec (publishTo L host org repo info result url).run t (some (.error stop))) :
    ChangesOnly host org repo info.repoSHA url result t s (s.after landed t) := by
  rw [publishTo_eq] at h
  rcases exec_run_bind_error h with h | ⟨t₁, _, t₂, rfl, h₁, h⟩
  · rcases objects_of_write_error landed s h with
      hsame | ⟨⟨message, hclosed⟩, hstored⟩
    · exact changesOnly_of_eq hsame
    · exact (changesOnly_of_eq rfl).insert (.latest _ hclosed) hstored
  · rcases exec_writeToBlobStore landed s (exec_annotate_ok.mp h₁) with
      ⟨-, hclosed, hstored⟩ | ⟨_, hstop, -⟩
    swap
    · cases hstop
    have hlatest : ChangesOnly host org repo info.repoSHA url result (t₁ ++ t₂) s
        (s.after landed t₁) :=
      (changesOnly_of_eq rfl).insert (.latest (.ok ()) (by simp [hclosed])) hstored
    rw [Buckets.after_append]
    rcases objects_of_publishCommit_error landed (s.after landed t₁) h with
      hsame | ⟨⟨message, hfailed⟩, hstored'⟩
    · intro key
      rw [Kept, hsame]
      exact hlatest key
    · exact hlatest.insert (.commit message (by simp [hclosed]) (by simp [hfailed])) hstored'

/-- **Rejected requests.** For every request, and whatever the operations answer: if the request is
not answered with 201, then no object has changed, or the request was verified and the objects that
have changed are among those of `MayReplace` and hold its result. -/
theorem rejected_publish (L : Libraries) (landed : String × String → Bool) (params : PostRequest)
    (s : Buckets) (t : Trace ApiSig) (response : PostResponse)
    (h : Exec (postResultsHandler L params) t (some response))
    (hrejected : ∀ payload, response ≠ .created payload) :
    (∀ key, Kept s (s.after landed t) key) ∨
      ∃ url scorecardResult info t₁ t₂, params.publish = some scorecardResult ∧ t = t₁ ++ t₂ ∧
        Exec (verifyRequest L params.org params.repo scorecardResult).run t₁ (some (.ok info)) ∧
        ChangesOnly params.platform params.org params.repo info.repoSHA url scorecardResult.result t
          s (s.after landed t) := by
  obtain ⟨r, hrun, hresponse⟩ := exec_map_some.mp h
  have hstop : ∃ stop, r = .error stop := by
    rcases r with stop | ⟨⟩
    · exact ⟨stop, rfl⟩
    · exact absurd hresponse.symm (hrejected _)
  obtain ⟨stop, rfl⟩ := hstop
  have hkept : (s.after landed t).objects = s.objects → ∀ key, Kept s (s.after landed t) key :=
    fun h key => by rw [Kept, h]
  unfold handleRequest at hrun
  split at hrun
  · obtain ⟨rfl, -⟩ := exec_ret_some.mp hrun
    exact Or.inl fun _ => rfl
  rename_i scorecardResult hpublish
  rcases exec_run_bind_error hrun with hrun | ⟨t₁, info, t₂, rfl, h₁, h₂⟩
  · exact Or.inl (hkept (objects_of_writesNothing landed s hrun (performs_verifyRequest _ _ _)))
  have hs₁ := objects_of_writesNothing landed s h₁ (performs_verifyRequest _ _ _)
  have hurl : resultsBucketURL.run.Performs WritesNothing :=
    performs_run_bind (performs_performApi rfl) fun _ => trivial
  rw [publishResult_eq] at h₂
  rcases exec_run_bind_error h₂ with h₂ | ⟨t₃, url, t₄, rfl, h₃, h₄⟩
  · refine Or.inl (hkept ?_)
    rw [Buckets.after_append, objects_of_writesNothing _ _ h₂ hurl, hs₁]
  have hs₃ := objects_of_writesNothing landed (s.after landed t₁) h₃ hurl
  have hchanges :=
    changesOnly_of_publishTo_error landed ((s.after landed t₁).after landed t₃) h₄
  refine Or.inr ⟨url, scorecardResult, info, t₁, t₃ ++ t₄, hpublish, rfl, h₁, fun key => ?_⟩
  rw [Kept, Buckets.after_append, Buckets.after_append, ← hs₁, ← hs₃]
  exact hchanges.mono (by simp) key

/-! ### A second write that fails -/

/-- The sample request for GitHub. -/
def sampleRequest : PostRequest where
  platform := "github.com"
  org := "org"
  repo := "repo"
  publish := some sampleResult

/-- The answers of a bucket that only writes the latest object, and fails otherwise: where a writer
is made, or where it is closed. -/
def refusingAnswer (atClose : Bool) : (o : ApiOp) → ApiSig.Ans o
  | .bucket (.newWriter _ key) =>
    if key = "github.com/org/repo/results.json" ∨ atClose then .ok () else .error "quota exceeded"
  | .bucket (.closeWriter _ key) =>
    if key = "github.com/org/repo/results.json" then .ok () else .error "deadline exceeded"
  | o => sampleAnswer o

/-- The run of the sample request then. -/
def rejectedTrace (atClose : Bool) : Trace ApiSig :=
  ((postResultsHandler sampleLibraries sampleRequest).runWith
    (fun _ o => some (refusingAnswer atClose o)) []).1

/-- The response then. -/
def rejectedResponse : PostResponse :=
  .internalServerError "something went wrong and we are looking into it."

theorem exec_rejectedTrace (atClose : Bool) :
    Exec (postResultsHandler sampleLibraries sampleRequest) (rejectedTrace atClose)
      (some rejectedResponse) := by
  have hrun := exec_runWith (fun _ o => some (refusingAnswer atClose o))
    (postResultsHandler sampleLibraries sampleRequest) []
  have hanswer : ((postResultsHandler sampleLibraries sampleRequest).runWith
      (fun _ o => some (refusingAnswer atClose o)) []).2 = some rejectedResponse := by
    cases atClose <;> rfl
  rwa [hanswer] at hrun

/-- Closing the writer of the object with the commit reports an error, and the object is stored. -/
theorem rejected_publish_sample :
    (Buckets.empty.after (fun _ => true) (rejectedTrace true)).objects.lookup
        ("gs://ossf-scorecard-results", commitObjectPath "github.com" "org" "repo" sampleCommit) =
      some sampleResult.result ∧
    ∃ url scorecardResult info t₁ t₂, sampleRequest.publish = some scorecardResult ∧
      rejectedTrace true = t₁ ++ t₂ ∧
      Exec (verifyRequest sampleLibraries "org" "repo" scorecardResult).run t₁ (some (.ok info)) ∧
      ChangesOnly "github.com" "org" "repo" info.repoSHA url scorecardResult.result
        (rejectedTrace true) .empty (Buckets.empty.after (fun _ => true) (rejectedTrace true)) := by
  have hstored : (Buckets.empty.after (fun _ => true) (rejectedTrace true)).objects.lookup
      ("gs://ossf-scorecard-results", commitObjectPath "github.com" "org" "repo" sampleCommit) =
        some sampleResult.result := by decide +kernel
  refine ⟨hstored, ?_⟩
  refine (rejected_publish sampleLibraries (fun _ => true) sampleRequest .empty (rejectedTrace true)
    rejectedResponse (exec_rejectedTrace true) nofun).resolve_left fun hkept => ?_
  cases hstored.symm.trans (hkept _)

/-- The latest object is written and stays, in a bucket that was empty, also where operations that
fail change nothing. -/
theorem exists_rejected_changed : ∃ params t response,
    Exec (postResultsHandler sampleLibraries params) t (some response) ∧
      (∀ payload, response ≠ .created payload) ∧
      ∀ landed, ¬Kept Buckets.empty (Buckets.empty.after landed t) ("gs://ossf-scorecard-results",
        objectPath params.platform params.org params.repo) := by
  refine ⟨sampleRequest, rejectedTrace false, rejectedResponse, exec_rejectedTrace false, nofun,
    fun landed h => ?_⟩
  have hwritten : (Buckets.empty.after landed (rejectedTrace false)).objects.lookup
      ("gs://ossf-scorecard-results", "github.com/org/repo/results.json") = some "\x7b\x7d" := rfl
  have hbefore : Buckets.empty.objects.lookup
      ("gs://ossf-scorecard-results", "github.com/org/repo/results.json") = none := rfl
  have hkept := hwritten.symm.trans (h.trans hbefore)
  cases hkept

end ScorecardInfra.Server
