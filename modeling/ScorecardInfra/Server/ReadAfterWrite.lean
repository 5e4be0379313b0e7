import ScorecardInfra.Interaction.Monitor
import ScorecardInfra.Server.Publication
import ScorecardInfra.Server.ReadResults

/-!
# Reading a published result

`processRequest` makes its two keys by concatenation, `getResults` by joining, cleaning and deleting
CR and LF. A published result is found again if the key of the latest result is one that this leaves
alone (`Canonical`). At a commit it is found under the spelling of the certificate only, so that all
spellings that the contract admits find it exactly if the commit has no letter
(`published_readable_iff`).

A writer stores its object when it is closed. If closing it reports an error, the object may have
been stored or not; what is proved holds in either case.

## Main definitions

* `Writers`, `Buckets`, `Buckets.after`, `Buckets.access`.
* `Canonical`, `Readable`.

## Main results

* `exec_writeToBlobStore`, `exec_processRequest_objects`, `published_readable_iff`.

Sources: `api/app/server/post_results.go`, lines 166–188; `api/app/server/get_results.go`, lines
72–122.
-/

namespace ScorecardInfra.Server

open GoStd GoStd.Filepath Interaction

/-! ### The objects of the buckets -/

/-- The data of the writers that are open, by the URL of the bucket and the key. -/
abbrev Writers : Type := GoMap (String × String) String

namespace Writers

/-- What has been written to a writer. -/
def written (w : Writers) (url key : String) : String := (w.lookup (url, key)).getD ""

@[simp] theorem written_insert {w : Writers} {url key data : String} :
    Writers.written (w.insert (url, key) data) url key = data := by
  simp [written]

/-- The writers after an operation. -/
def next (w : Writers) : Event ApiSig → Writers
  | ⟨.bucket (.newWriter url key), .ok ()⟩ => w.insert (url, key) ""
  | ⟨.bucket (.write url key data), .ok ()⟩ => w.insert (url, key) (w.written url key ++ data)
  | _ => w

/-- The writers after a run. -/
def after (w : Writers) (t : Trace ApiSig) : Writers := t.foldl next w

end Writers

/-- The objects of all buckets, and the data of the writers that are open. -/
structure Buckets where
  pending : Writers
  objects : GoMap (String × String) String

namespace Buckets

/-- No objects. -/
def empty : Buckets := ⟨∅, ∅⟩

/-- The object of a writer is stored. -/
def store (s : Buckets) (url key : String) : Buckets :=
  { s with objects := s.objects.insert (url, key) (s.pending.written url key) }

/-- The buckets after an operation. Closing a writer stores its object. If closing it reports an
error, the object may have been stored all the same, and `landed` says whether it has. -/
def next (landed : String × String → Bool) (s : Buckets) : Event ApiSig → Buckets
  | ⟨.bucket (.closeWriter url key), .ok ()⟩ => s.store url key
  | ⟨.bucket (.closeWriter url key), .error _⟩ => if landed (url, key) then s.store url key else s
  | e => { s with pending := s.pending.next e }

/-- The buckets follow the operations. -/
def monitor (landed : String × String → Bool) : Monitor ApiSig Buckets :=
  ⟨fun _ _ => True, next landed⟩

/-- The buckets after a run. -/
def after (landed : String × String → Bool) (s : Buckets) (t : Trace ApiSig) : Buckets :=
  (monitor landed).after s t

variable {landed : String × String → Bool} {s : Buckets}

@[simp] theorem after_nil : s.after landed [] = s := rfl

@[simp] theorem after_cons (e : Event ApiSig) (t : Trace ApiSig) :
    s.after landed (e :: t) = (s.next landed e).after landed t := rfl

theorem after_append (t u : Trace ApiSig) :
    s.after landed (t ++ u) = (s.after landed t).after landed u :=
  Monitor.after_append _ _ _ _

/-- A writer that is made, written to and closed. -/
theorem objects_after_close {url key data : String} {closed : Except String Unit} :
    (s.after landed [⟨.bucket (.newWriter url key), .ok ()⟩,
      ⟨.bucket (.write url key data), .ok ()⟩, ⟨.bucket (.closeWriter url key), closed⟩]).objects =
        if closed = .ok () ∨ landed (url, key) then s.objects.insert (url, key) data
        else s.objects := by
  rcases closed with message | ⟨⟩
  · cases hlanded : landed (url, key) <;> simp [next, store, Writers.next, hlanded]
  · simp [next, store, Writers.next]

/-- A bucket that can be read. -/
def access (s : Buckets) (url : String) : BucketAccess :=
  .ofObjects fun key => s.objects.lookup (url, key)

theorem access_holds {url key data : String} :
    (s.access url).Holds key data ↔ s.objects.lookup (url, key) = some data :=
  BucketAccess.ofObjects_holds

end Buckets

/-! ### What a request writes -/

section Writes

variable {landed : String × String → Bool} {s : Buckets}

/-- **A write** makes the object if it succeeds. Otherwise it leaves the objects alone, unless
closing the writer has reported an error: then it may have made the object. -/
theorem exec_writeToBlobStore {url key data : String} {t : Trace ApiSig}
    {r : Except (Stop ServerError) Unit} (landed : String × String → Bool) (s : Buckets)
    (h : Exec (writeToBlobStore url key data).run t (some r)) :
    (r = .ok () ∧ ⟨.bucket (.closeWriter url key), .ok ()⟩ ∈ t ∧
        (s.after landed t).objects = s.objects.insert (url, key) data) ∨
      ∃ stop, r = .error stop ∧ ((s.after landed t).objects = s.objects ∨
        (∃ message, ⟨.bucket (.closeWriter url key), .error message⟩ ∈ t) ∧
          (s.after landed t).objects = s.objects.insert (url, key) data) := by
  cases h with
  | @op _ _ opened t r h =>
  rcases opened with message | ⟨⟩
  · obtain ⟨rfl, rfl⟩ := exec_ret_some.mp h
    exact Or.inr ⟨_, rfl, Or.inl rfl⟩
  cases h with
  | @op _ _ made t r h =>
  rcases made with message | ⟨⟩
  · cases h with
    | @op _ _ x t r h =>
    obtain ⟨rfl, rfl⟩ := exec_ret_some.mp h
    exact Or.inr ⟨_, rfl, Or.inl (by cases x <;> rfl)⟩
  cases h with
  | @op _ _ wrote t r h =>
  rcases wrote with message | ⟨⟩
  · -- the writer is not closed then
    cases h with
    | @op _ _ x t r h =>
    obtain ⟨rfl, rfl⟩ := exec_ret_some.mp h
    exact Or.inr ⟨_, rfl, Or.inl (by cases x <;> rfl)⟩
  cases h with
  | @op _ _ closed t r h =>
  have hobjects : ∀ x, (s.after landed [⟨.bucket (.openBucket url), .ok ()⟩,
      ⟨.bucket (.newWriter url key), .ok ()⟩, ⟨.bucket (.write url key data), .ok ()⟩,
      ⟨.bucket (.closeWriter url key), closed⟩, ⟨.bucket (.closeBucket url), x⟩]).objects =
        if closed = .ok () ∨ landed (url, key) then s.objects.insert (url, key) data
        else s.objects := by
    intro x
    rw [← Buckets.objects_after_close]
    cases x <;> rfl
  rcases closed with message | ⟨⟩
  · cases h with
    | @op _ _ x t r h =>
    obtain ⟨rfl, rfl⟩ := exec_ret_some.mp h
    refine Or.inr ⟨_, rfl, ?_⟩
    rw [hobjects x]
    by_cases hlanded : landed (url, key) = true
    · exact Or.inr ⟨⟨message, by simp⟩, if_pos (Or.inr hlanded)⟩
    · exact Or.inl (if_neg (by simp [hlanded]))
  · cases h with
    | @op _ _ x t r h =>
    obtain ⟨rfl, rfl⟩ := exec_ret_some.mp h
    exact Or.inl ⟨rfl, by simp, (hobjects x).trans (if_pos (Or.inl rfl))⟩

theorem ensures_writeToBlobStore {url key data : String} :
    Ensures (Buckets.monitor landed) s (writeToBlobStore url key data)
      (fun _ s' => s'.objects = s.objects.insert (url, key) data) fun _ _ => True :=
  Prog.Safe.of_exec (fun _ _ => trivial) _ s fun t r h => by
    rcases exec_writeToBlobStore landed s h with ⟨rfl, -, hs⟩ | ⟨stop, rfl, -⟩
    exacts [hs, trivial]

/-- Operations that write nothing leave the objects alone. -/
theorem ensures_of_writesNothing {α : Type} {P : ApiOp → Prop} {x : Api α} {objects}
    (hx : x.run.Performs P) (hP : ∀ o, P o → WritesNothing o) (hs : s.objects = objects) :
    Ensures (Buckets.monitor landed) s x (fun _ s' => s'.objects = objects)
      fun _ s' => s'.objects = objects := by
  refine hx.ensures (fun o s' ho hs' => ⟨trivial, fun y => ?_⟩) hs
  have hnothing := hP o ho
  rcases o with _ | _ | _ | _ | op | _ | _
  case bucket =>
    rcases op with _ | _ | _ | _ | _
    case openBucket | closeBucket => exact hs'
    all_goals cases hnothing
  all_goals exact hs'

theorem writesNothing_of_publishesOnly_nil {result : String} :
    (o : ApiOp) → PublishesOnly [] result o → WritesNothing o
  | .bucket (.openBucket _), _ | .bucket (.closeBucket _), _ | .send _, _ | .getenv _, _
  | .range _, _ => rfl
  | .bucket (.newWriter _ _), h | .bucket (.closeWriter _ _), h => absurd h List.not_mem_nil
  | .bucket (.write _ _ _), h => absurd h.1 List.not_mem_nil

/-- What is published once the bucket's URL is known. -/
def publishTo (L : Libraries) (host org repo : String) (info : CertInfo) (result url : String) :
    Api Unit := do
  annotate writingError (writeToBlobStore url (objectPath host org repo) result)
  let purger ← getPurger
  let path := "/projects/" ++ host ++ "/" ++ org ++ "/" ++ repo
  let _ ← attempt (purger.purge L path)
  annotate writingError
    (writeToBlobStore url (commitObjectPath host org repo info.repoSHA) result)
  let _ ← attempt (purger.purge L (path ++ "?commit=" ++ info.repoSHA))
  pure ()

theorem publishResult_eq (L : Libraries) (host org repo : String) (info : CertInfo)
    (result : String) :
    publishResult L host org repo info result =
      resultsBucketURL >>= publishTo L host org repo info result := rfl

/-- **A successful publication** makes the two objects and no other. -/
theorem ensures_publishTo (L : Libraries) {host org repo url result : String} {info : CertInfo}
    (landed : String × String → Bool) (s : Buckets) :
    Ensures (Buckets.monitor landed) s (publishTo L host org repo info result url)
      (fun _ s' => s'.objects =
        (s.objects.insert (url, objectPath host org repo) result).insert
          (url, commitObjectPath host org repo info.repoSHA) result) fun _ _ => True := by
  have hpurge : ∀ {s' objects} (purger : Purger) (path : String), s'.objects = objects →
      Ensures (Buckets.monitor landed) s' (attempt (purger.purge L path))
        (fun _ s' => s'.objects = objects) fun _ _ => True := fun purger path hs' =>
    (ensures_of_writesNothing (performs_attempt (performs_purge [] "" path purger))
      writesNothing_of_publishesOnly_nil hs').mono (fun _ _ h => h) fun _ _ _ => trivial
  refine (ensures_annotate ensures_writeToBlobStore).bind fun _ s₁ h₁ => ?_
  refine ((ensures_of_writesNothing (performs_getPurger [] "")
    writesNothing_of_publishesOnly_nil h₁).mono (fun _ _ h => h) fun _ _ _ => trivial).bind
    fun purger s₂ h₂ => ?_
  refine (hpurge purger _ h₂).bind fun _ s₃ h₃ => ?_
  refine (ensures_annotate ensures_writeToBlobStore).bind fun _ s₄ h₄ => ?_
  refine (hpurge purger _ (h₄.trans (by rw [h₃]))).bind fun _ s₅ h₅ => h₅

end Writes

/-! ### The environment -/

/-- The variables of the environment have the values that the run reads. -/
def Reads (t : Trace ApiSig) (env : String → String) : Prop :=
  ∀ name v, ⟨.getenv name, v⟩ ∈ t → v = env name

/-- The URL of the bucket of results, in an environment. -/
def resultsURL (env : String → String) : String :=
  if env "SCORECARD_RESULTS_BUCKET_URL" = "" then "gs://ossf-scorecard-results"
  else env "SCORECARD_RESULTS_BUCKET_URL"

theorem exec_resultsBucketURL {t : Trace ApiSig} {env : String → String} {url : String}
    (h : Exec resultsBucketURL.run t (some (.ok url))) (henv : Reads t env) :
    url = resultsURL env := by
  obtain ⟨t₁, v, t₂, rfl, h₁, h₂⟩ := exec_run_bind_ok.mp h
  obtain rfl := exec_run_perform_ok.mp h₁
  obtain ⟨rfl, rfl⟩ := exec_pure_ok.mp h₂
  rw [resultsURL, ← henv _ v (by simp)]

/-- **The objects after a successful request**: its two objects, and those from before. -/
theorem exec_processRequest_objects {L : Libraries} {host org repo : String}
    {scorecardResult : VerifiedScorecardResult} {t : Trace ApiSig} {env : String → String}
    {cert : Certificate} (landed : String × String → Bool) (s : Buckets)
    (h : Exec (processRequest L host org repo scorecardResult).run t (some (.ok ())))
    (henv : Reads t env) (hcert : CertifiedBy L scorecardResult t cert) :
    (s.after landed t).objects =
      (s.objects.insert (resultsURL env, objectPath host org repo) scorecardResult.result).insert
        (resultsURL env, commitObjectPath host org repo ((cert.extension fulcioRepoSHAKey).getD ""))
        scorecardResult.result := by
  obtain ⟨t₁, info, t₂, rfl, h₁, h₂⟩ := exec_run_bind_ok.mp h
  have hsha := (hcert.info h₁).2
  rw [publishResult_eq] at h₂
  obtain ⟨t₃, url, t₄, rfl, h₃, h₄⟩ := exec_run_bind_ok.mp h₂
  obtain rfl := exec_resultsBucketURL h₃ fun name v hv => henv name v (by simp [hv])
  have hverify : (s.after landed t₁).objects = s.objects := h₁.post
    (ensures_of_writesNothing (performs_verifyRequest org repo scorecardResult) (fun _ h => h) rfl)
  have hurl : ((s.after landed t₁).after landed t₃).objects = (s.after landed t₁).objects := by
    refine h₃.post (ensures_of_writesNothing (P := WritesNothing) ?_ (fun _ h => h) rfl)
    exact performs_run_bind (performs_performApi rfl) fun _ => trivial
  have hpublish := h₄.post (ensures_publishTo L landed ((s.after landed t₁).after landed t₃))
  rw [← hsha, Buckets.after_append, Buckets.after_append]
  rw [hurl, hverify] at hpublish
  exact hpublish

/-! ### Keys -/

/-- A path that sanitizing leaves as it is. -/
def Canonical (p : String) : Prop := stripNewlines (clean p) = p

instance : DecidablePred Canonical := fun p =>
  inferInstanceAs (Decidable (stripNewlines (clean p) = p))

/-- The segments of a request's key. -/
def keySegments (host org repo : String) (commit : Option String) : List Segment :=
  (keyElements host org repo commit).map String.toList

theorem objectPath_eq (host org repo : String) :
    objectPath host org repo = ofSegments (keySegments host org repo none) := by
  refine String.toList_inj.mp ?_
  simp [objectPath, keySegments, keyElements, List.intercalate]

theorem commitObjectPath_eq (host org repo sha : String) :
    commitObjectPath host org repo sha = ofSegments (keySegments host org repo (some sha)) := by
  refine String.toList_inj.mp ?_
  simp [commitObjectPath, keySegments, keyElements, List.intercalate]

/-- Canonical paths: cleaning leaves their segments alone, and they have no CR or LF. -/
theorem canonical_ofSegments_iff {segs : List Segment} (hslash : ∀ seg ∈ segs, '/' ∉ seg)
    (hfirst : segs.head? ≠ some []) (hfile : resultsFile.toList ∈ segs) :
    Canonical (ofSegments segs) ↔
      cleanSegments false segs = segs ∧ ∀ seg ∈ segs, '\n' ∉ seg ∧ '\r' ∉ seg := by
  have hsegs : segments (ofSegments segs) = segs :=
    segments_ofSegments hslash (List.ne_nil_of_mem hfile)
  have habs : isAbs (ofSegments segs) = false := by
    rw [← Bool.not_eq_true, isAbs_iff, hsegs]
    rintro ⟨rest, -, rfl⟩
    exact hfirst rfl
  have hdot : ofSegments segs ≠ "." := by
    intro h
    rw [h] at hsegs
    rw [← hsegs] at hfile
    exact absurd hfile (by decide)
  have hclean := clean_eq_self_iff habs hdot
  rw [hsegs] at hclean
  constructor
  · intro h
    have hnewline : ∀ seg ∈ segs, '\n' ∉ seg ∧ '\r' ∉ seg := by
      rw [← hsegs, ← show stripNewlines (clean (ofSegments segs)) = ofSegments segs from h,
        segments_stripNewlines]
      intro seg' hseg'
      obtain ⟨seg, -, rfl⟩ := List.mem_map.mp hseg'
      exact newline_notMem_filter seg
    -- cleaning adds no segment, so there is nothing to delete after it
    have hkept : stripNewlines (clean (ofSegments segs)) = clean (ofSegments segs) := by
      refine stripNewlines_eq_self fun seg hseg => ?_
      by_cases hnil : cleanSegments false (segments (ofSegments segs)) = []
      · simp only [clean, habs, hnil, Bool.false_eq_true, if_false, if_true] at hseg
        have hall : ∀ seg ∈ segments ".", '\n' ∉ seg ∧ '\r' ∉ seg := by decide
        exact hall seg hseg
      · rw [segments_clean_of_not_isAbs habs hnil, hsegs] at hseg
        exact hnewline seg (mem_of_mem_cleanSegments hseg)
    exact ⟨hclean.mp (hkept.symm.trans h), hnewline⟩
  · rintro ⟨hcs, hnewline⟩
    rw [Canonical, hclean.mpr hcs]
    exact stripNewlines_eq_self (by rwa [hsegs])

/-- A segment of a request's path. -/
def IsSegment (seg : String) : Prop := seg ≠ "" ∧ '/' ∉ seg.toList

section Keys

variable {host org repo sha : String} {commit : Option String}

/-- A commit is a name without CR and LF. -/
theorem isName_of_isCommitHash (h : isCommitHash sha = true) :
    IsName sha.toList ∧ '\n' ∉ sha.toList ∧ '\r' ∉ sha.toList := by
  simp only [isCommitHash, Bool.and_eq_true, beq_iff_eq, List.all_eq_true] at h
  have hmem : ∀ c, Hex.isDigit c = false → c ∉ sha.toList := by
    intro c hc hin
    rw [h.2 c hin] at hc
    cases hc
  refine ⟨⟨?_, ?_, ?_, hmem _ (by decide)⟩, hmem _ (by decide), hmem _ (by decide)⟩
  · intro hnil
    rw [hnil] at h
    exact absurd h.1 (by decide)
  · intro hdot
    rw [hdot] at h
    exact absurd h.1 (by decide)
  · intro hdotdot
    rw [hdotdot] at h
    exact absurd h.1 (by decide)

theorem isName_resultsFile : IsName resultsFile.toList :=
  ⟨by decide, by decide, by decide, by decide⟩

/-- The segments of a key of proper segments. -/
theorem segments_key (hsegs : ∀ e ∈ keyElements host org repo commit, IsSegment e) :
    segments (ofSegments (keySegments host org repo commit)) =
      keySegments host org repo commit := by
  refine segments_ofSegments (fun seg hseg => ?_)
    (by cases commit <;> simp [keySegments, keyElements])
  obtain ⟨e, he, rfl⟩ := List.mem_map.mp hseg
  exact (hsegs e he).2

/-- The sanitized key of proper segments. -/
theorem sanitizeInputs_eq (hsegs : ∀ e ∈ keyElements host org repo commit, IsSegment e)
    {key : String}
    (h : sanitizeInputs host org repo commit = .ok key) :
    key = stripNewlines (clean (ofSegments (keySegments host org repo commit))) := by
  have hne : keyElements host org repo commit ≠ [] := by cases commit <;> simp [keyElements]
  rw [(sanitizeInputs_eq_ok.mp h).1, join_eq_clean hne fun e he => (hsegs e he).1, clean_clean]
  rfl

/-- A canonical key is accepted. -/
theorem sanitizeInputs_of_canonical (hsegs : ∀ e ∈ keyElements host org repo commit, IsSegment e)
    (h : Canonical (ofSegments (keySegments host org repo commit))) :
    sanitizeInputs host org repo commit = .ok (ofSegments (keySegments host org repo commit)) := by
  have hne : keyElements host org repo commit ≠ [] := by cases commit <;> simp [keyElements]
  refine sanitizeInputs_eq_ok.mpr ⟨?_, ?_⟩
  · rw [join_eq_clean hne fun e he => (hsegs e he).1, clean_clean]
    exact h.symm
  · rw [segments_key hsegs]
    cases commit with
    | none => exact ⟨[host.toList, org.toList, repo.toList], rfl, rfl⟩
    | some sha => exact ⟨[host.toList, org.toList, repo.toList, sha.toList], rfl, rfl⟩

theorem canonical_key_iff (hsegs : ∀ e ∈ keyElements host org repo commit, IsSegment e) :
    Canonical (ofSegments (keySegments host org repo commit)) ↔
      cleanSegments false (keySegments host org repo commit) = keySegments host org repo commit ∧
        ∀ seg ∈ keySegments host org repo commit, '\n' ∉ seg ∧ '\r' ∉ seg := by
  refine canonical_ofSegments_iff (fun seg hseg => ?_) ?_ ?_
  · obtain ⟨e, he, rfl⟩ := List.mem_map.mp hseg
    exact (hsegs e he).2
  · have hhost : host.toList ≠ [] := by
      have := (hsegs host (by cases commit <;> simp [keyElements])).1
      simpa using this
    cases commit <;> simpa [keySegments, keyElements] using hhost
  · cases commit <;> simp [keySegments, keyElements]

/-- The key at a commit is canonical if the latest one is. -/
theorem canonical_commitObjectPath (hsegs : ∀ seg ∈ [host, org, repo], IsSegment seg)
    (hsha : isCommitHash sha = true) (h : Canonical (objectPath host org repo)) :
    Canonical (commitObjectPath host org repo sha) := by
  obtain ⟨hname, hnl, hcr⟩ := isName_of_isCommitHash hsha
  have hfile : IsSegment resultsFile := ⟨by decide, by decide⟩
  have hsha' : IsSegment sha := ⟨fun h => hname.ne_nil (by rw [h]; rfl), hname.slash_notMem⟩
  simp only [List.forall_mem_cons] at hsegs
  rw [objectPath_eq, canonical_key_iff (by simp [keyElements, hsegs, hfile])] at h
  rw [commitObjectPath_eq, canonical_key_iff (by simp [keyElements, hsegs, hfile, hsha'])]
  obtain ⟨hclean, hnewline⟩ := h
  have hlatest : keySegments host org repo none =
      [host.toList, org.toList, repo.toList] ++ [resultsFile.toList] := rfl
  have hpinned : keySegments host org repo (some sha) =
      [host.toList, org.toList, repo.toList] ++ [sha.toList] ++ [resultsFile.toList] := rfl
  rw [hlatest, cleanSegments_snoc _ _ isName_resultsFile, List.append_left_inj] at hclean
  constructor
  · rw [hpinned, cleanSegments_snoc _ _ isName_resultsFile, cleanSegments_snoc _ _ hname, hclean]
  · simp only [hlatest, hpinned, List.forall_mem_append, List.forall_mem_singleton] at hnewline ⊢
    exact ⟨⟨hnewline.1, hnl, hcr⟩, hnewline.2⟩

end Keys

/-! ### Published results -/

/-- The result is the answer for the latest result, and for every spelling of its commit. -/
def Readable (primary cron : BucketAccess) (host org repo sha result : String) : Prop :=
  getResults primary cron host org repo none = .ok result ∧
    ∀ c, isCommitHash c = true → Strings.toLower c = sha →
      getResults primary cron host org repo (some c) = .ok result

/-- A commit without letters has one spelling. -/
theorem eq_of_toLower_eq {c sha : String} (hc : isCommitHash c = true)
    (hsha : ∀ ch ∈ sha.toList, ch.isDigit = true) (h : Strings.toLower c = sha) : c = sha := by
  simp only [isCommitHash, Bool.and_eq_true, List.all_eq_true] at hc
  subst h
  refine String.toList_inj.mp ?_
  have hmap : c.toList.map Char.toLower = c.toList.map id := by
    refine List.map_congr_left fun ch hch => Hex.eq_of_toLower_isDigit (hc.2 ch hch) (hsha _ ?_)
    rw [Strings.toLower, String.toList_map]
    exact List.mem_map_of_mem hch
  rw [Strings.toLower, String.toList_map, hmap, List.map_id]

/-- The spelling of a commit in capitals. -/
theorem toUpper_spelling {sha : String} (h : isCommitHash sha = true)
    (hlower : Strings.toLower sha = sha) :
    isCommitHash (sha.map Char.toUpper) = true ∧ Strings.toLower (sha.map Char.toUpper) = sha := by
  simp only [isCommitHash, Bool.and_eq_true, List.all_eq_true, beq_iff_eq] at h ⊢
  simp only [String.toList_map, List.length_map, List.forall_mem_map]
  refine ⟨⟨h.1, fun ch hch => Hex.isDigit_toUpper (h.2 ch hch)⟩, ?_⟩
  conv_rhs => rw [← hlower]
  refine String.toList_inj.mp ?_
  simp only [Strings.toLower, String.toList_map, List.map_map]
  exact List.map_congr_left fun ch hch => Hex.toLower_toUpper (h.2 ch hch)

/-- The objects of a first request. -/
theorem lookup_two {url k₁ k₂ key data data' : String}
    (h : (((∅ : GoMap (String × String) String).insert (url, k₁) data).insert (url, k₂) data).lookup
      (url, key) = some data') : key = k₁ ∨ key = k₂ := by
  by_cases h₂ : key = k₂
  · exact Or.inr h₂
  · rw [AList.lookup_insert_ne (by simp [h₂])] at h
    by_cases h₁ : key = k₁
    · exact Or.inl h₁
    · rw [AList.lookup_insert_ne (by simp [h₁])] at h
      cases h

/-- **Published results are readable**, in every spelling of the commit and whatever else the
buckets hold, exactly if sanitizing leaves the key of the latest result alone and the commit has no
letter. -/
theorem published_readable_iff (L : Libraries) (landed : String × String → Bool)
    (host org repo : String)
    (scorecardResult : VerifiedScorecardResult) (t : Trace ApiSig) (env : String → String)
    (cert : Certificate) (sha : String)
    (hrun : Exec (processRequest L host org repo scorecardResult).run t (some (.ok ())))
    (henv : Reads t env) (hcert : CertifiedBy L scorecardResult t cert)
    (hsha : cert.extension fulcioRepoSHAKey = some sha) (hcommit : isCommitHash sha = true)
    (hlower : Strings.toLower sha = sha) (hsegs : ∀ seg ∈ [host, org, repo], IsSegment seg) :
    (∀ (s : Buckets) (cron : BucketAccess),
      Readable ((s.after landed t).access (resultsURL env)) cron host org repo sha
        scorecardResult.result) ↔
      Canonical (objectPath host org repo) ∧ ∀ ch ∈ sha.toList, ch.isDigit = true := by
  have hobjects := fun s => exec_processRequest_objects landed s hrun henv hcert
  rw [hsha, Option.getD_some] at hobjects
  have hfile : IsSegment resultsFile := ⟨by decide, by decide⟩
  have hsegment : ∀ {c}, isCommitHash c = true → IsSegment c := fun hc =>
    ⟨fun h => (isName_of_isCommitHash hc).1.ne_nil (by rw [h]; rfl),
      (isName_of_isCommitHash hc).1.slash_notMem⟩
  have hsegs' := hsegs
  simp only [List.forall_mem_cons] at hsegs'
  have helems : ∀ e ∈ keyElements host org repo none, IsSegment e := by
    simp [keyElements, hsegs', hfile]
  have helems' : ∀ {c}, isCommitHash c = true →
      ∀ e ∈ keyElements host org repo (some c), IsSegment e := by
    intro c hc
    simp [keyElements, hsegs', hfile, hsegment hc]
  constructor
  · intro h
    obtain ⟨hlatest, hpinned⟩ := h .empty (.ofObjects fun _ => none)
    -- what is read from the objects of this request alone has one of its two keys
    have hread : ∀ {commit}, getResults ((Buckets.empty.after landed t).access (resultsURL env))
        (.ofObjects fun _ => none) host org repo commit = .ok scorecardResult.result →
        ∃ key, sanitizeInputs host org repo commit = .ok key ∧
          (key = objectPath host org repo ∨ key = commitObjectPath host org repo sha) := by
      intro commit hget
      cases hkey : sanitizeInputs host org repo commit with
      | error e =>
        rw [getResults, hkey] at hget
        cases hget
      | ok key =>
        refine ⟨key, rfl, ?_⟩
        rcases getResults_eq_ok hkey hget with hholds | ⟨-, hholds⟩
        · rw [Buckets.access_holds, hobjects] at hholds
          exact lookup_two hholds
        · cases BucketAccess.ofObjects_holds.mp hholds
    have hcanonical : Canonical (objectPath host org repo) := by
      obtain ⟨key, hkey, hcase⟩ := hread hlatest
      obtain ⟨segs, hlen, hsegments⟩ := (sanitizeInputs_eq_ok.mp hkey).2
      have hkey' := sanitizeInputs_eq helems hkey
      rcases hcase with rfl | rfl
      · rw [objectPath_eq] at hkey' ⊢
        exact hkey'.symm
      · rw [commitObjectPath_eq, segments_key (helems' hcommit)] at hsegments
        have := congrArg List.length hsegments
        rw [List.length_append, hlen] at this
        simp [keySegments, keyElements, keyDepth] at this
    refine ⟨hcanonical, fun ch hch => ?_⟩
    obtain ⟨hupper, hspelling⟩ := toUpper_spelling hcommit hlower
    obtain ⟨key, hkey, hcase⟩ := hread (hpinned _ hupper hspelling)
    have hkey' := sanitizeInputs_eq (helems' hupper) hkey
    have hcanonical' := canonical_commitObjectPath hsegs hupper hcanonical
    rw [← commitObjectPath_eq, show stripNewlines (clean _) = _ from hcanonical'] at hkey'
    have hsame : keySegments host org repo (some (sha.map Char.toUpper)) =
        keySegments host org repo (some sha) := by
      rcases hcase with rfl | rfl
      · have hseg := congrArg segments hkey'
        rw [objectPath_eq, commitObjectPath_eq, segments_key helems, segments_key (helems' hupper)]
          at hseg
        have := congrArg List.length hseg
        simp [keySegments, keyElements] at this
      · have hseg := congrArg segments hkey'
        rwa [commitObjectPath_eq, commitObjectPath_eq, segments_key (helems' hcommit),
          segments_key (helems' hupper), eq_comm] at hseg
    have hupper_eq : sha.toList.map Char.toUpper = sha.toList.map id := by
      simpa [keySegments, keyElements] using hsame
    have hlower_eq : sha.toList.map Char.toLower = sha.toList.map id := by
      have := congrArg String.toList hlower
      rwa [Strings.toLower, String.toList_map, ← List.map_id sha.toList, List.map_map] at this
    simp only [isCommitHash, Bool.and_eq_true, List.all_eq_true] at hcommit
    exact Hex.isDigit_of_toUpper_eq (hcommit.2 ch hch) (List.map_inj_left.mp hlower_eq ch hch)
      (List.map_inj_left.mp hupper_eq ch hch)
  · rintro ⟨hcanonical, hdigits⟩ s cron
    have hcanonical' := canonical_commitObjectPath hsegs hcommit hcanonical
    constructor
    · rw [objectPath_eq] at hcanonical
      refine getResults_of_holds (sanitizeInputs_of_canonical helems hcanonical) ?_
      rw [Buckets.access_holds, hobjects, ← objectPath_eq]
      by_cases heq : objectPath host org repo = commitObjectPath host org repo sha
      · rw [heq, AList.lookup_insert]
      · rw [AList.lookup_insert_ne (by simp [heq]), AList.lookup_insert]
    · intro c hc hspelling
      obtain rfl := eq_of_toLower_eq hc hdigits hspelling
      rw [commitObjectPath_eq] at hcanonical'
      refine getResults_of_holds (sanitizeInputs_of_canonical (helems' hc) hcanonical') ?_
      rw [Buckets.access_holds, hobjects, ← commitObjectPath_eq, AList.lookup_insert]

/-- A certificate with a commit of decimal digits. -/
def decimalCert : Certificate :=
  { sampleCert with extensions := [(fulcioIssuerKey, githubOIDCIssuer),
      (fulcioRepoSHAKey, "0123456789012345678901234567890123456789"),
      (fulcioRepoPathKey, "org/repo"), (fulcioRepoRefKey, "refs/heads/main")] }

/-- The sample libraries with this certificate. -/
def decimalLibraries : Libraries :=
  { sampleLibraries with parseCertificate := fun _ => .ok decimalCert }

/-- The run of the sample request with this certificate. -/
def decimalTrace : Trace ApiSig :=
  ((processRequest decimalLibraries "github.com" "org" "repo" sampleResult).run.runWith
    (fun _ o => some (sampleAnswer o)) []).1

theorem decimalTrace_certifiedBy :
    CertifiedBy decimalLibraries sampleResult decimalTrace decimalCert := by
  have hrun := exec_runWith (fun _ o => some (sampleAnswer o))
    (extractAndVerifyCertForPayload decimalLibraries sampleResult.result
      sampleResult.tlogIndex).run []
  have hok : ((extractAndVerifyCertForPayload decimalLibraries sampleResult.result
      sampleResult.tlogIndex).run.runWith (fun _ o => some (sampleAnswer o)) []).2 =
        some (.ok decimalCert) := rfl
  rw [hok] at hrun
  exact ⟨_, decimalTrace.drop 2, rfl, hrun⟩

/-- What answers like the sample environment reads no variables. -/
theorem reads_runWith_sampleAnswer {α : Type} (p : Prog ApiSig α) :
    Reads (p.runWith (fun _ o => some (sampleAnswer o)) []).1 fun _ => "" := by
  intro name v hv
  obtain ⟨past, h⟩ := exists_eq_of_mem_runWith hv
  exact (Option.some.inj h).symm

/-- With a commit of decimal digits the published result is readable. -/
theorem decimalTrace_readable : ∃ cron,
    Readable ((Buckets.empty.after (fun _ => false) decimalTrace).access
      "gs://ossf-scorecard-results") cron "github.com" "org" "repo"
      "0123456789012345678901234567890123456789" sampleResult.result := by
  have hrun := exec_runWith (fun _ o => some (sampleAnswer o))
    (processRequest decimalLibraries "github.com" "org" "repo" sampleResult).run []
  have hok : ((processRequest decimalLibraries "github.com" "org" "repo" sampleResult).run.runWith
      (fun _ o => some (sampleAnswer o)) []).2 = some (.ok ()) := rfl
  rw [hok] at hrun
  have hiff := published_readable_iff _ (fun _ => false) _ _ _ _ _ _ _
    "0123456789012345678901234567890123456789" hrun
    (reads_runWith_sampleAnswer _) decimalTrace_certifiedBy rfl (by decide)
    (Strings.toLower_eq_self (Strings.forall_mem_of_all (by decide)))
    (by simp only [IsSegment, List.forall_mem_cons]; decide)
  exact ⟨_, hiff.mpr ⟨by decide, Strings.forall_mem_of_all (by decide)⟩ .empty
    (.ofObjects fun _ => none)⟩

/-- The sample request's commit is not found in capitals. -/
theorem exists_published_not_readable : ¬∀ (L : Libraries) (host org repo : String)
    (scorecardResult : VerifiedScorecardResult) (t : Trace ApiSig) (env : String → String)
    (cert : Certificate) (sha : String),
    Exec (processRequest L host org repo scorecardResult).run t (some (.ok ())) → Reads t env →
    CertifiedBy L scorecardResult t cert → cert.extension fulcioRepoSHAKey = some sha →
    isCommitHash sha = true → Strings.toLower sha = sha →
      (∀ seg ∈ [host, org, repo], IsSegment seg) →
    ∀ (landed : String × String → Bool) (s : Buckets) (cron : BucketAccess),
      Readable ((s.after landed t).access (resultsURL env)) cron host org
      repo sha scorecardResult.result := by
  intro h
  have hlower : Strings.toLower sampleCommit = sampleCommit :=
    Strings.toLower_eq_self (Strings.forall_mem_of_all (by decide))
  obtain ⟨hupper, hspelling⟩ := toUpper_spelling (by decide) hlower
  have hcapitals : sampleCommit.map Char.toUpper = "DA39A3EE5E6B4B0D3255BFEF95601890AFD80709" := by
    rw [← String.toList_inj, String.toList_map]
    decide
  have hsegs : ∀ seg ∈ ["github.com", "org", "repo"], IsSegment seg := by
    simp only [IsSegment, List.forall_mem_cons]
    decide
  have hread := (h sampleLibraries "github.com" "org" "repo" sampleResult _ _ _ sampleCommit
    (exec_sampleTrace "github.com") (reads_runWith_sampleAnswer _) (sampleTrace_certifiedBy _) rfl
    (by decide) hlower hsegs (fun _ => false) .empty (.ofObjects fun _ => none)).2 _ hupper
    hspelling
  rw [hcapitals] at hread hupper
  have hkey : sanitizeInputs "github.com" "org" "repo"
      (some "DA39A3EE5E6B4B0D3255BFEF95601890AFD80709") =
        .ok (commitObjectPath "github.com" "org" "repo"
          "DA39A3EE5E6B4B0D3255BFEF95601890AFD80709") := by
    rw [commitObjectPath_eq]
    refine sanitizeInputs_of_canonical ?_ ?_
    · simp only [IsSegment, keyElements, List.forall_mem_cons]
      decide
    · rw [← commitObjectPath_eq]
      exact canonical_commitObjectPath hsegs hupper (by decide)
  have hobjects := exec_processRequest_objects (fun _ => false) .empty
    (exec_sampleTrace "github.com") (reads_runWith_sampleAnswer _) (sampleTrace_certifiedBy _)
  rcases getResults_eq_ok hkey hread with hholds | ⟨-, hholds⟩
  · rw [Buckets.access_holds, hobjects] at hholds
    rcases lookup_two hholds with h | h
    · exact absurd h (by decide)
    · exact absurd h (by decide)
  · cases BucketAccess.ofObjects_holds.mp hholds

end ScorecardInfra.Server
