import ScorecardInfra.Server.Service

/-!
# What the service serves

A request closes a writer only with the result that it was sent, under one of its two keys, and only
once it is authorized (`publishes_of_exec`). So in every order of the operations of requests and
workers, an object was there from the start, or such a request has published it, or a worker exports
it (`Service.allSupplied_reachable`).

What a request that reads answers with 200 is the decoded object under its key
(`Service.results_served`). If a request has published it, then for the repository of the key
(`Publishes.certifiedKey`): this takes a certificate that names an owner and a name with one slash
between them, and at a commit a platform without a slash.

## Main definitions

* `Writers.filled`, `Publishes`, `CertifiedKey`.
* `Service.Supplied`, `Service.AllSupplied`, `Service.Served`.

## Main results

* `publishes_of_exec`, `Publishes.certifiedKey`, `Service.results_served`.

Sources: `api/app/server/get_results.go`, lines 44–101; `api/app/server/post_results.go`, lines
120–188.
-/

namespace ScorecardInfra.Server

open GoStd GoStd.Filepath Interaction

/-- The response is the one to what `getResults` returns. -/
theorem exec_getResultHandler {ρ : Type} {params : GetRequest}
    {unmarshalBinary : String → Except String ρ} {t : Trace ServiceSig}
    {r : Except (Stop ServerError) (GetResultResponse ρ)}
    (h : Exec (params.getResultHandler unmarshalBinary).run t (some r)) :
    ∃ res : Except ServerError String, Exec params.getResults.run t (some (res.mapError .error)) ∧
      r = .ok (readResponse unmarshalBinary res) := by
  rw [GetRequest.getResultHandler, run_bind_eq, exec_bind_some] at h
  obtain ⟨t₁, r₁, t₂, rfl, h₁, h₂⟩ := h
  rw [run_attempt, exec_map_some] at h₁
  obtain ⟨a, hrun, rfl⟩ := h₁
  have hres : ∃ res : Except ServerError String, a = res.mapError .error := by
    rcases exec_getResults hrun with ⟨err, -, -, rfl⟩ | ⟨key, t, x, -, -, hrest⟩
    · exact ⟨.error err, rfl⟩
    · rcases hrest with ⟨data, -, -, rfl⟩ | ⟨e, u, _ | data, -, -, -, rfl⟩
      · exact ⟨.ok data, rfl⟩
      · exact ⟨.error (.sentinel .errNotFound), rfl⟩
      · exact ⟨.ok data, rfl⟩
  obtain ⟨res, rfl⟩ := hres
  have hreturned : Stop.returned (res.mapError Stop.error) = .ok res := by
    cases res <;> rfl
  rw [hreturned] at h₂
  obtain ⟨rfl, rfl⟩ := exec_ret_some.mp h₂
  exact ⟨res, by rwa [List.append_nil], rfl⟩

/-- A payload is decoded from the data. -/
theorem readResponse_eq_ok {ρ : Type} {unmarshalBinary : String → Except String ρ}
    {res : Except ServerError String} {payload : ρ} {surrogateControl cacheControl : String}
    (h : readResponse unmarshalBinary res = .ok payload surrogateControl cacheControl) :
    ∃ data, res = .ok data ∧ unmarshalBinary data = .ok payload := by
  unfold readResponse at h
  cases res with
  | error err =>
    dsimp only at h
    split_ifs at h
  | ok data =>
    refine ⟨data, rfl, ?_⟩
    dsimp only at h
    split at h
    · rename_i ret hret
      cases h
      exact hret
    · cases h

/-! ### Closing a writer -/

/-- Follows the writers. A writer is closed only with the data `result` and under one of the keys.
-/
def Writers.filled (keys : List String) (result : String) : Monitor ApiSig Writers where
  allows
    | w, .bucket (.closeWriter bucketURL key) =>
      key ∈ keys ∧ w.written bucketURL key = result
    | _, _ => True
  next := Writers.next

section Closing

variable {w : Writers} {keys : List String} {result key bucketURL : String}

/-- The programs that close writers only so. -/
abbrev Fills {α : Type} (w : Writers) (keys : List String) (result : String) (x : Api α) : Prop :=
  Ensures (Writers.filled keys result) w x (fun _ _ => True) fun _ _ => True

theorem fills_of_writesNothing {α : Type} {P : ApiOp → Prop} {x : Api α} (hx : x.run.Performs P)
    (hP : ∀ o, P o → WritesNothing o) : Fills w keys result x := by
  refine (hx.ensures (I := fun _ => True) (fun o g ho _ => ⟨?_, fun _ => trivial⟩) trivial).mono
    (fun _ _ _ => trivial) fun _ _ _ => trivial
  have hnothing := hP o ho
  rcases o with _ | _ | _ | _ | op | _ | _
  case bucket =>
    rcases op with _ | _ | _ | _ | _
    case closeWriter => cases hnothing
    all_goals trivial
  all_goals trivial

theorem fills_writeObject (hkey : key ∈ keys) :
    Fills w keys result (writeObject bucketURL key result) := by
  refine ensures_perform_bind trivial fun made => ?_
  refine ensures_mapError_bind (fun u hu => ?_) fun _ _ => trivial
  obtain rfl := hu
  refine ensures_perform_bind trivial fun wrote => ?_
  refine ensures_mapError_bind (fun u hu => ?_) fun _ _ => trivial
  obtain rfl := hu
  refine ensures_perform_bind ⟨hkey, ?_⟩ fun closed => ?_
  · simp [Writers.filled, Writers.next]
  · exact (ensures_ofExcept (Q := fun _ _ => True) (fun _ _ => trivial) fun _ _ => trivial)

theorem fills_writeToBlobStore (hkey : key ∈ keys) :
    Fills w keys result (writeToBlobStore bucketURL key result) := by
  refine ensures_perform_bind trivial fun opened => ?_
  refine ensures_mapError_bind (fun u _ => ?_) fun _ _ => trivial
  refine (ensures_attempt (R := fun _ _ => True) ((fills_writeObject hkey).mono
    (fun _ _ _ => trivial) ?_)).bind fun written s' _ => ?_
  · rintro (_ | _) _ _ <;> trivial
  · refine ensures_perform_bind trivial fun closed => ?_
    exact (ensures_ofExcept (Q := fun _ _ => True) (fun _ _ => trivial) fun _ _ => trivial)

/-- **A publication** closes writers with the result and under its keys. -/
theorem fills_publishResult (L : Libraries) (host org repo : String) (info : CertInfo)
    (result : String) :
    Fills w (publishedKeys host org repo info.repoSHA) result
      (publishResult L host org repo info result) := by
  have hpurge : ∀ {g} (purger : Purger) (path : String),
      Fills g (publishedKeys host org repo info.repoSHA) result (attempt (purger.purge L path)) :=
    fun purger path => fills_of_writesNothing (performs_attempt (performs_purge [] "" path purger))
      writesNothing_of_publishesOnly_nil
  have hwrite : ∀ {g url key}, key ∈ publishedKeys host org repo info.repoSHA →
      Fills g (publishedKeys host org repo info.repoSHA) result
        (annotate writingError (writeToBlobStore url key result)) :=
    fun hkey => ensures_annotate (fills_writeToBlobStore hkey)
  have hurl : resultsBucketURL.run.Performs WritesNothing :=
    performs_run_bind (performs_performApi rfl) fun _ => trivial
  rw [publishResult_eq]
  refine (fills_of_writesNothing hurl fun _ h => h).bind fun url _ _ => ?_
  exact (hwrite (by simp [publishedKeys])).bind fun _ _ _ =>
    (fills_of_writesNothing (performs_getPurger [] "") writesNothing_of_publishesOnly_nil).bind
      fun purger _ _ => (hpurge purger _).bind fun _ _ _ =>
        (hwrite (by simp [publishedKeys])).bind fun _ _ _ =>
          (hpurge purger _).bind fun _ _ _ => trivial

end Closing

/-- **What a request has published** when its writer for the key is closed: it is authorized for its
repository, and the key is one of its two. -/
structure Publishes (L : Libraries) (params : PostRequest) (past : Trace ApiSig)
    (key data : String) (cert : Certificate) : Prop where
  authorized : ∃ scorecardResult entry, params.publish = some scorecardResult ∧
    data = scorecardResult.result ∧
    Authorized L params.org params.repo scorecardResult past entry cert
  key_mem : key ∈ publishedKeys params.platform params.org params.repo
    ((cert.extension fulcioRepoSHAKey).getD "")

/-- **Closing a writer.** A request closes a writer only with its result, once it is authorized. -/
theorem publishes_of_exec {L : Libraries} {params : PostRequest} {pre post : Trace ApiSig}
    {bucketURL key : String} {x : Except String Unit} {r : Option PostResponse}
    (h : Exec (postResultsHandler L params)
      (pre ++ ⟨.bucket (.closeWriter bucketURL key), x⟩ :: post) r) :
    ∃ cert, Publishes L params pre key ((Writers.after ∅ pre).written bucketURL key) cert := by
  obtain ⟨r', h⟩ := h.of_map
  rw [handleRequest] at h
  cases hpublish : params.publish with
  | none =>
    rw [hpublish] at h
    have hnil := (exec_ret_iff.mp h).1
    simp at hnil
  | some scorecardResult =>
    rw [hpublish] at h
    obtain ⟨t₁, info, pre', rfl, h₁, h₂⟩ :=
      h.split_run_bind (performs_verifyRequest params.org params.repo scorecardResult)
        (P := WritesNothing) (by simp [WritesNothing, ApiOp.writtenKey, BucketOp.key])
    obtain ⟨entry, cert, hauthorized, hsha⟩ := exists_authorized_info (u := pre') h₁
    obtain ⟨hkey, hdata⟩ := h₂.allows (fills_publishResult (w := Writers.after ∅ t₁) L
      params.platform params.org params.repo info scorecardResult.result)
    have hwritten : (Writers.after ∅ (t₁ ++ pre')).written bucketURL key =
        scorecardResult.result := by
      rw [Writers.after, List.foldl_append]
      exact hdata
    exact ⟨cert, ⟨scorecardResult, entry, hpublish, hwritten, hauthorized⟩, hsha ▸ hkey⟩

/-! ### What is behind an object -/

namespace Service

variable {R G W ρ : Type} (svc : Service R G W ρ)

/-- A configuration of the service. -/
abbrev Configuration : Type := Interaction.Config Objects svc.world.start

/-- **What is behind an object** of a bucket: it was there from the start, or a request has
published it, or a worker exports it. -/
inductive Supplied (s₀ : Objects) (c : svc.Configuration) (bucketURL key data : String) : Prop
  | initial (h : s₀.lookup (bucketURL, key) = some data)
  | published (r : R) (past : Trace ApiSig) (cert : Certificate)
      (hpast : past <+: Trace.lefts (c.thread (.inl r)).trace)
      (h : Publishes svc.libraries (svc.posts r) past key data cert)
  | exported (w : W) (h : (svc.workers w).Exported bucketURL key data)

/-- Everything that is stored or has been read was supplied. -/
structure AllSupplied (s₀ : Objects) (c : svc.Configuration) : Prop where
  objects : ∀ bucketURL key data, c.shared.lookup (bucketURL, key) = some data →
    svc.Supplied s₀ c bucketURL key data
  reads : ∀ i bucketURL key data, ⟨.inr (.readAll bucketURL key), .ok data⟩ ∈ (c.thread i).trace →
    svc.Supplied s₀ c bucketURL key data

variable {svc} {s₀ : Objects} {c c' : svc.Configuration} {bucketURL key data : String}

theorem not_restarts (i : R ⊕ G) : ¬svc.world.restarts i := id

/-- What a request is about to store, it publishes. -/
theorem exists_publishes {r : R}
    {k : Except String Unit → Prog ServiceSig (Responses ρ)}
    (hrest : (c.thread (.inl r)).rest = .op (.inl (.bucket (.closeWriter bucketURL key))) k) :
    ∃ cert, Publishes svc.libraries (svc.posts r) (Trace.lefts (c.thread (.inl r)).trace) key
      (written (c.thread (.inl r)).trace bucketURL key) cert := by
  let e : Event ServiceSig := ⟨.inl (.bucket (.closeWriter bucketURL key)), .ok ()⟩
  have hnext : Exec (c.thread (.inl r)).rest [e] none := by
    rw [hrest]
    exact Exec.op (S := ServiceSig) _ (.cut _)
  have hrun := (c.thread (.inl r)).leads.exec hnext
  obtain ⟨r', hrun⟩ := hrun.of_map
  have hlefts := hrun.lefts
  rw [Trace.lefts_append] at hlefts
  exact publishes_of_exec hlefts

/-- What is under a key after an object has been stored. -/
theorem lookup_insert_eq_some {s : Objects} {k k' : String × String} {data data' : String}
    (h : (s.insert k data).lookup k' = some data') :
    k' = k ∧ data' = data ∨ s.lookup k' = some data' := by
  by_cases hk : k' = k
  · subst hk
    rw [AList.lookup_insert] at h
    exact Or.inl ⟨rfl, (Option.some.inj h).symm⟩
  · rw [AList.lookup_insert_ne hk] at h
    exact Or.inr h

variable [DecidableEq R] [DecidableEq G]

theorem Supplied.step (h : svc.Supplied s₀ c bucketURL key data) (hstep : svc.world.Step c c') :
    svc.Supplied s₀ c' bucketURL key data := by
  cases h with
  | initial h => exact .initial h
  | exported w h => exact .exported w h
  | published r past cert hpast h =>
    refine .published r past cert (hpast.trans ?_) h
    exact (hstep.trace_prefix not_restarts (.inl r)).filterMap _

/-- **Supplies.** A step keeps what is behind the objects. -/
theorem AllSupplied.step (h : svc.AllSupplied s₀ c) (hstep : svc.world.Step c c') :
    svc.AllSupplied s₀ c' := by
  have hmono : ∀ {bucketURL key data}, svc.Supplied s₀ c bucketURL key data →
      svc.Supplied s₀ c' bucketURL key data :=
    fun h => h.step hstep
  obtain @⟨i, o, k, hrest, x, s', ha⟩ | ⟨i, hi⟩ | ⟨s', w, url, key', data', hexported, rfl⟩ := hstep
  · refine ⟨fun bucketURL key data hdata => hmono ?_, fun j bucketURL key data hmem => hmono ?_⟩
    · rcases ha.objects with rfl | ⟨r, url, key', rfl, ho, rfl⟩
      · exact h.objects _ _ _ hdata
      · obtain rfl := ho
        rcases lookup_insert_eq_some hdata with ⟨hkey, rfl⟩ | hdata
        · obtain ⟨rfl, rfl⟩ := Prod.mk.inj hkey
          obtain ⟨cert, hpublishes⟩ := exists_publishes hrest
          exact .published r _ cert List.prefix_rfl hpublishes
        · exact h.objects _ _ _ hdata
    · by_cases hij : j = i
      · subst hij
        simp only [Function.update_self, Thread.advance_trace, List.mem_append,
          List.mem_singleton] at hmem
        rcases hmem with hmem | hmem
        · exact h.reads _ _ _ _ hmem
        · exact h.objects _ _ _ (hmem ▸ ha).mayRead
      · exact h.reads _ _ _ _ (by simpa [hij] using hmem)
  · exact absurd hi (not_restarts i)
  · refine ⟨fun bucketURL key data hdata => hmono ?_, fun i bucketURL key data hmem =>
      hmono (h.reads i bucketURL key data hmem)⟩
    rcases lookup_insert_eq_some hdata with ⟨hkey, rfl⟩ | hdata
    · obtain ⟨rfl, rfl⟩ := Prod.mk.inj hkey
      exact .exported w hexported
    · exact h.objects _ _ _ hdata

theorem allSupplied_reachable (h : svc.world.Reachable s₀ c) : svc.AllSupplied s₀ c :=
  h.induct ⟨fun _ _ _ hdata => .initial hdata,
    fun _ _ _ _ hmem => absurd hmem List.not_mem_nil⟩ fun _ _ h hstep => h.step hstep

end Service

/-! ### The repository of a published result -/

/-- An owner and a name, with one slash between them. -/
def IsRepoName (full : String) : Prop :=
  ∃ owner name, full = fullName owner name ∧ '/' ∉ owner.toList ∧ '/' ∉ name.toList

theorem segments_append_slash (a b : String) :
    segments (a ++ "/" ++ b) = segments a ++ segments b := by
  rw [segments, String.toList_append, String.toList_append, List.append_assoc]
  exact List.splitOn_append_cons_self _ _

theorem IsRepoName.length_segments {full : String} (h : IsRepoName full) :
    (segments full).length = 2 := by
  obtain ⟨owner, name, rfl, howner, hname⟩ := h
  rw [fullName, segments_append_slash, segments, segments, List.splitOn_eq_singleton howner,
    List.splitOn_eq_singleton hname]
  rfl

theorem length_segments_pos (p : String) : 0 < (segments p).length :=
  List.length_pos_iff.mpr (segments_ne_nil p)

theorem slash_notMem_of_length_segments {p : String} (h : (segments p).length = 1) :
    '/' ∉ p.toList := by
  obtain ⟨seg, hseg⟩ := List.length_eq_one_iff.mp h
  have hmem : '/' ∉ seg := slash_notMem_of_mem_segments (p := p) (by simp [hseg])
  have hp := ofSegments_segments p
  rw [hseg] at hp
  rw [← hp]
  simpa using hmem

/-- **The key certifies the repository.** What is published under the key of a latest result is
published for the repository of the key; at a commit, unless the platform has a slash. -/
def CertifiedKey (platform full sha : String) (key : String) : Option String → Prop
  | none => '/' ∉ platform.toList ∧ key = platform ++ "/" ++ full ++ "/" ++ resultsFile
  | some _ => '/' ∉ platform.toList →
    key = platform ++ "/" ++ full ++ "/" ++ sha ++ "/" ++ resultsFile

theorem length_segments_of_slash_notMem {p : String} (h : '/' ∉ p.toList) :
    (segments p).length = 1 := by
  rw [segments, List.splitOn_eq_singleton h]
  rfl

/-- What is published under a key that is read is published for the repository of the key. -/
theorem Publishes.certifiedKey {L : Libraries} {params : PostRequest} {past : Trace ApiSig}
    {key data full : String} {cert : Certificate} {get : GetRequest}
    (h : Publishes L params past key data cert) (hkey : get.key = .ok key)
    (hfull : cert.extension fulcioRepoPathKey = some full) (hname : IsRepoName full) :
    CertifiedKey params.platform full ((cert.extension fulcioRepoSHAKey).getD "") key
      get.commit := by
  obtain ⟨scorecardResult, entry, -, -, hauthorized⟩ := h.authorized
  obtain rfl := Option.some.inj (hauthorized.repository.symm.trans hfull)
  obtain ⟨-, segs, hlen, hsegs⟩ := sanitizeInputs_eq_ok.mp hkey
  have hdepth := congrArg List.length hsegs
  rw [List.length_append, hlen, List.length_singleton] at hdepth
  have hresults : (segments resultsFile).length = 1 :=
    length_segments_of_slash_notMem (by decide)
  have hplatform := length_segments_pos params.platform
  have hsha := length_segments_pos ((cert.extension fulcioRepoSHAKey).getD "")
  have htwo := hname.length_segments
  have hobject : objectPath params.platform params.org params.repo =
      params.platform ++ "/" ++ fullName params.org params.repo ++ "/" ++ resultsFile := by
    simp only [objectPath, fullName, resultsFile, String.append_assoc]
  have hcommit : ∀ sha, commitObjectPath params.platform params.org params.repo sha =
      params.platform ++ "/" ++ fullName params.org params.repo ++ "/" ++ sha ++ "/" ++
        resultsFile := by
    intro sha
    simp only [commitObjectPath, fullName, resultsFile, String.append_assoc]
  have hmem := h.key_mem
  rw [publishedKeys, hobject, hcommit, List.mem_cons, List.mem_singleton] at hmem
  rcases hmem with rfl | rfl
  · simp only [segments_append_slash, List.length_append] at hdepth
    cases hget : get.commit with
    | none =>
      rw [hget, keyDepth] at hdepth
      exact ⟨slash_notMem_of_length_segments (by omega), rfl⟩
    | some commit =>
      rw [hget, keyDepth] at hdepth
      intro hslash
      have := length_segments_of_slash_notMem hslash
      omega
  · simp only [segments_append_slash, List.length_append] at hdepth
    cases hget : get.commit with
    | none =>
      rw [hget, keyDepth] at hdepth
      omega
    | some commit => exact fun _ => rfl

/-! ### Results that are served -/

/-- The URL of the bucket is the one of the environment. -/
theorem Looks.readAll_mem {name default key data : String} {t : Trace ServiceSig}
    {env : String → String} (h : Looks name default key t (.ok data))
    (henv : Reads (Trace.lefts t) env) :
    ⟨.inr (.readAll (if env name = "" then default else env name) key), .ok data⟩ ∈ t := by
  generalize hx : (.ok data : Except ReadError String) = x at h
  cases h with
  | unopened v message => cases hx
  | read v x =>
    obtain rfl := henv name v List.mem_cons_self
    subst hx
    simp

/-- The data that is returned has been read. -/
theorem exists_readAll_mem {params : GetRequest} {t : Trace ServiceSig} {env : String → String}
    {data : String} (h : Exec params.getResults.run t (some (.ok data)))
    (henv : Reads (Trace.lefts t) env) :
    ∃ key, params.key = .ok key ∧ ∃ bucketURL ∈ [resultsURL env, cronResultsURL env],
      ⟨.inr (.readAll bucketURL key), .ok data⟩ ∈ t := by
  rcases exec_getResults h with ⟨err, -, -, hr⟩ | ⟨key, t₁, x, hkey, hlooks, hrest⟩
  · cases hr
  refine ⟨key, hkey, ?_⟩
  rcases hrest with ⟨data', rfl, rfl, hr⟩ | ⟨e, t₂, y, rfl, hlooks', rfl, hr⟩
  · obtain rfl := Except.ok.inj hr
    exact ⟨_, List.mem_cons_self, hlooks.readAll_mem henv⟩
  · cases y with
    | error e' => cases hr
    | ok data' =>
      obtain rfl := Except.ok.inj hr
      refine ⟨_, List.mem_cons_of_mem _ List.mem_cons_self, List.mem_append_right _ ?_⟩
      exact hlooks'.readAll_mem fun name v hv => henv name v (by simp [hv])

/-- An accepted key ends in the name of the file. -/
theorem GetRequest.exists_dir {params : GetRequest} {key : String} (h : params.key = .ok key) :
    ∃ dir, key = dir ++ "/" ++ resultsFile := by
  obtain ⟨-, segs, hlen, hsegs⟩ := sanitizeInputs_eq_ok.mp h
  have hne : segs ≠ [] := by
    rintro rfl
    cases hcommit : params.commit <;> simp [hcommit, keyDepth] at hlen
  have hslash : ∀ seg ∈ segs, '/' ∉ seg := fun seg hseg =>
    slash_notMem_of_mem_segments (p := key) (by simp [hsegs, hseg])
  have hfile : segments resultsFile = [resultsFile.toList] :=
    List.splitOn_eq_singleton (by decide)
  refine ⟨ofSegments segs, ?_⟩
  rw [← ofSegments_segments key, hsegs, ← hfile, ← segments_ofSegments hslash hne,
    ← segments_append_slash, ofSegments_segments, segments_ofSegments hslash hne]

namespace Service

variable {R G W ρ : Type} {svc : Service R G W ρ} {s₀ : Objects} {c : svc.Configuration} {g : G}

/-- A request that reads and has returned has run. -/
theorem exec_of_returned {r : Except (Stop ServerError) (GetResultResponse ρ)}
    (h : (c.thread (.inr g)).Returned (.inr r)) :
    Exec ((svc.gets g).getResultHandler svc.unmarshalBinary).run (c.thread (.inr g)).trace
      (some r) := by
  have hrun := (c.thread (.inr g)).leads.exec (h ▸ Exec.ret (Sum.inr r))
  rw [List.append_nil] at hrun
  obtain ⟨r', hrun, hr⟩ := exec_map_some.mp hrun
  exact Sum.inr.inj hr ▸ hrun

/-- So has one that publishes. -/
theorem exec_of_answered {r : R} {response : PostResponse}
    (h : (c.thread (.inl r)).Returned (.inl response)) :
    Exec (postResultsHandler svc.libraries (svc.posts r)) (Trace.lefts (c.thread (.inl r)).trace)
      (some response) := by
  have hrun := (c.thread (.inl r)).leads.exec (h ▸ Exec.ret (Sum.inl response))
  rw [List.append_nil] at hrun
  obtain ⟨response', hrun, hr⟩ := exec_map_some.mp hrun
  exact Sum.inl.inj hr ▸ hrun.lefts

/-- **What is behind a result** that is served from a bucket: the object was there from the start;
or a request has published it, and was authorized for the repository of the key; or it is the JSON
of a scan of a worker, in the bucket that the worker exports to. -/
inductive Served (svc : Service R G W ρ) (s₀ : Objects) (c : svc.Configuration) (get : GetRequest)
    (bucketURL key data : String) : Prop
  | initial (h : s₀.lookup (bucketURL, key) = some data)
  | published (r : R) (past : Trace ApiSig) (cert : Certificate)
      (hpast : past <+: Trace.lefts (c.thread (.inl r)).trace)
      (h : Publishes svc.libraries (svc.posts r) past key data cert)
      (hkey : ∀ full, cert.extension fulcioRepoPathKey = some full → IsRepoName full →
        CertifiedKey (svc.posts r).platform full ((cert.extension fulcioRepoSHAKey).getD "") key
          get.commit)
  | exported (w : W) (req : Cron.ScorecardBatchRequest) (resultsURL : String)
      (t : Trace Cron.BatchSig) (r : Option (Except (Stop Cron.CronError) Unit))
      (hurl : bucketURL = (svc.workers w).apiBucketURL)
      (hrun : Exec ((svc.workers w).processRequest req resultsURL).run t r)
      (scan : Cron.ScorecardWorker.Scan req.getJobTime t)
      (h : scan.IsResults (svc.workers w) key data)

/-- What is supplied under the key of a request is what it may be served. -/
theorem Supplied.served {get : GetRequest} {bucketURL key data : String}
    (h : svc.Supplied s₀ c bucketURL key data) (hkey : get.key = .ok key) :
    Served svc s₀ c get bucketURL key data := by
  cases h with
  | initial h => exact .initial h
  | published r past cert hpast h =>
    exact .published r past cert hpast h fun full hfull hname => h.certifiedKey hkey hfull hname
  | exported w h =>
    obtain ⟨dir, rfl⟩ := GetRequest.exists_dir hkey
    rw [String.append_assoc] at h ⊢
    obtain ⟨hurl, req, resultsURL, t, r, hrun, scan, hresults⟩ := Cron.exported_results h
    exact .exported w req resultsURL t r hurl hrun scan hresults

variable [DecidableEq R] [DecidableEq G]

/-- All processes read one environment. -/
theorem reads_env (h : svc.world.Reachable s₀ c) (i : R ⊕ G) :
    Reads (Trace.lefts (c.thread i).trace) svc.env := by
  have hanswer : ∀ i past s e s', svc.world.answer i past s e s' →
      ∀ name v, e.left? = some ⟨.getenv name, v⟩ → v = svc.env name := by
    rintro i past s e s' (name | ⟨⟨o, x⟩, ho⟩ | _ | _ | _ | _) name' v hleft
    case getenv =>
      cases hleft
      rfl
    case outside =>
      cases hleft
      exact ho.elim
    all_goals cases hleft
  intro name v hv
  obtain ⟨e, he, hleft⟩ := List.mem_filterMap.mp hv
  exact h.mem_trace hanswer i e he name v hleft

/-- **Results that are served.** In every order of the operations of requests and workers: what a
request answers with 200 is the decoded object under its key in one of the two buckets, which was
there from the start, or published by a request that was authorized for the repository of the key,
or exported by a worker as the result of a scan. -/
theorem results_served (svc : Service R G W ρ) (s₀ : Objects) (c : svc.Configuration) (g : G)
    (payload : ρ) (surrogateControl cacheControl : String) (h : svc.world.Reachable s₀ c)
    (hreturned : (c.thread (.inr g)).Returned
      (.inr (.ok (.ok payload surrogateControl cacheControl)))) :
    ∃ key data, (svc.gets g).key = .ok key ∧ svc.unmarshalBinary data = .ok payload ∧
      ∃ bucketURL ∈ [resultsURL svc.env, cronResultsURL svc.env],
        Served svc s₀ c (svc.gets g) bucketURL key data := by
  obtain ⟨res, hrun, hres⟩ := exec_getResultHandler (exec_of_returned hreturned)
  obtain ⟨data, rfl, hdata⟩ := readResponse_eq_ok (Except.ok.inj hres).symm
  obtain ⟨key, hkey, bucketURL, hurl, hmem⟩ := exists_readAll_mem hrun (reads_env h _)
  exact ⟨key, data, hkey, hdata, bucketURL, hurl,
    ((allSupplied_reachable h).reads _ _ _ _ hmem).served hkey⟩

end Service

end ScorecardInfra.Server
