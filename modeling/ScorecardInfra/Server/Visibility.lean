import ScorecardInfra.Server.Rejection
import ScorecardInfra.Server.Serving

/-!
# What a request sees of the others

A request that reads performs its operations one after the other, while others publish and workers
export. It answers as `getResultHandler` does for the bucket of results as it is at one moment of
the request and the bucket of the batch pipeline as it is at a later one (`get_linearized`).

No object is removed. So what has been published is visible: if a request has been answered with
201, then a request that starts later, reads one of its two keys, and has no operation fail, answers
with an object that has been stored since the first request started (`published_visible`).

## Main definitions

* `BucketAccess.Shows`, `Service.Stored`, `ReadsSucceed`.

## Main results

* `get_linearized`, `published_visible`.

Sources: `api/app/server/get_results.go`, lines 44–101; `api/app/server/post_results.go`, lines
120–188.
-/

namespace ScorecardInfra.Server

open GoStd Interaction Relation

/-! ### Buckets at one moment -/

namespace BucketAccess

/-- Reading the bucket gives the objects as they are, or fails. -/
def Shows (b : BucketAccess) (s : Objects) (bucketURL : String) : Prop :=
  ∀ key, s.MayRead bucketURL key (b.get key)

/-- A bucket where reading one object gives `x`, and reading another one fails. -/
def atKey (key : String) (x : Except ReadError String) : BucketAccess where
  openBucket := .ok ()
  readAll key' := if key' = key then x else .error (.failed "")

variable {s : Objects} {bucketURL key : String} {x : Except ReadError String}

@[simp] theorem get_atKey : (atKey key x).get key = x := if_pos rfl

theorem shows_unreachable (message : String) : (unreachable message).Shows s bucketURL :=
  fun _ => trivial

theorem shows_atKey (h : s.MayRead bucketURL key x) : (atKey key x).Shows s bucketURL := by
  intro key'
  by_cases hkey : key' = key
  · subst hkey
    rwa [get_atKey]
  · have hfails : (atKey key x).get key' = .error (.failed "") := if_neg hkey
    rw [hfails]
    trivial

end BucketAccess

/-- An error of the server is told apart from a panic. -/
theorem mapError_error_injective {α : Type} :
    Function.Injective (Except.mapError Stop.error :
      Except ServerError α → Except (Stop ServerError) α) := by
  rintro (err | a) (err' | a') h
  · exact congrArg Except.error (Stop.error.inj (Except.error.inj h))
  · cases h
  · cases h
  · exact congrArg Except.ok (Except.ok.inj h)

namespace Service

variable {R G W ρ : Type} {svc : Service R G W ρ}

/-- What a look gives is what a bucket shows when its last operation is answered. -/
theorem Looks.exists_shows (svc : Service R G W ρ) {name default key : String}
    {t : Trace ServiceSig} {x : Except ReadError String} {env : String → String}
    (h : Looks name default key t x) (henv : Reads (Trace.lefts t) env) :
    ∃ t' e, t = t' ++ [e] ∧ ∀ i past s s', svc.Answer i past s e s' →
      ∃ b : BucketAccess, b.Shows s (if env name = "" then default else env name) ∧
        b.get key = x := by
  cases h with
  | unopened v message =>
    exact ⟨[_], _, rfl, fun _ _ _ _ _ =>
      ⟨.unreachable message, BucketAccess.shows_unreachable message, rfl⟩⟩
  | read v x =>
    obtain rfl := henv name v List.mem_cons_self
    exact ⟨[_, _], _, rfl, fun _ _ _ _ ha =>
      ⟨.atKey key x, BucketAccess.shows_atKey ha.mayRead, BucketAccess.get_atKey⟩⟩

variable [DecidableEq R] [DecidableEq G] {s₀ : Objects} {c c' c₀ c₁ c₂ : svc.Configuration} {g : G}

/-- A look sees a bucket as it is in a configuration. -/
theorem Looks.exists_answered {name default key : String} {t : Trace ServiceSig}
    {x : Except ReadError String} {env : String → String} {i : R ⊕ G} (post : Trace ServiceSig)
    (hlooks : Looks name default key t x) (henv : Reads (Trace.lefts t) env)
    (h : ReflTransGen svc.world.Step c₁ c₂)
    (htrace : (c₂.thread i).trace = (c₁.thread i).trace ++ t ++ post) :
    ∃ d d' : svc.Configuration, ReflTransGen svc.world.Step c₁ d ∧ svc.world.Step d d' ∧
      ReflTransGen svc.world.Step d' c₂ ∧ (d'.thread i).trace = (c₁.thread i).trace ++ t ∧
      ∃ b : BucketAccess, b.Shows d.shared (if env name = "" then default else env name) ∧
        b.get key = x := by
  obtain ⟨t', e, rfl, hshows⟩ := Looks.exists_shows svc hlooks henv
  rw [← List.append_assoc, List.append_assoc _ [e] post] at htrace
  obtain ⟨d, d', hd, -, ha, hstep, hd', hc₂⟩ := World.exists_answered h (not_restarts i) htrace
  exact ⟨d, d', hd, hstep, hc₂, by rw [hd', List.append_assoc], hshows _ _ _ _ ha⟩

/-- **Reading beside writers.** A request that starts and returns while others run answers as
`getResultHandler` does: for the bucket of results as it is at one moment in between, and for the
bucket of the batch pipeline as it is at that moment or a later one. -/
theorem get_linearized (svc : Service R G W ρ) (s₀ : Objects) (c₁ c₂ : svc.Configuration) (g : G)
    (r : Except (Stop ServerError) (GetResultResponse ρ)) (hc₁ : svc.world.Reachable s₀ c₁)
    (h : ReflTransGen svc.world.Step c₁ c₂) (hstart : (c₁.thread (.inr g)).trace = [])
    (hreturned : (c₂.thread (.inr g)).Returned (.inr r)) :
    ∃ d₁ d₂ : svc.Configuration, ReflTransGen svc.world.Step c₁ d₁ ∧
      ReflTransGen svc.world.Step d₁ d₂ ∧ ReflTransGen svc.world.Step d₂ c₂ ∧
      ∃ primary cron : BucketAccess, primary.Shows d₁.shared (resultsURL svc.env) ∧
        cron.Shows d₂.shared (cronResultsURL svc.env) ∧
        r = .ok (getResultHandler primary cron (svc.gets g).platform (svc.gets g).org
          (svc.gets g).repo (svc.gets g).commit svc.unmarshalBinary) := by
  have henv := reads_env (hc₁.trans h) (.inr g)
  obtain ⟨res, hrun, rfl⟩ := exec_getResultHandler (exec_of_returned hreturned)
  simp only [getResultHandler_eq]
  have hunreachable : ∀ {s url}, (BucketAccess.unreachable "").Shows s url :=
    BucketAccess.shows_unreachable ""
  rcases exec_getResults hrun with ⟨err, hkey, -, hr⟩ | ⟨key, t₁, x, hkey, hlooks, hrest⟩
  · -- the key is not accepted: nothing is read
    refine ⟨c₁, c₁, .refl, .refl, h, .unreachable "", .unreachable "", hunreachable, hunreachable,
      ?_⟩
    have hres : res = .error err := mapError_error_injective hr
    rw [hres, getResults, show sanitizeInputs _ _ _ _ = _ from hkey]
    rfl
  rcases hrest with ⟨data, rfl, ht, hr⟩ | ⟨e, t₂, y, rfl, hlooks', ht, hr⟩
  · obtain ⟨d, d', hd, hstep, hc₂, -, b, hb, hget⟩ := Looks.exists_answered [] hlooks
      (ht ▸ henv) h (by rw [hstart, ht, List.nil_append, List.append_nil])
    refine ⟨d, d, hd, .refl, .head hstep hc₂, b, .unreachable "", hb, hunreachable, ?_⟩
    have hres : res = .ok data := mapError_error_injective hr
    rw [hres, getResults_of_holds hkey hget]
  · rw [ht, Trace.lefts_append] at henv
    obtain ⟨d, d', hd, hstep, hc₂, htrace, b, hb, hget⟩ := Looks.exists_answered t₂
      hlooks (fun name v hv => henv name v (List.mem_append_left _ hv)) h
      (by rw [hstart, ht, List.nil_append])
    obtain ⟨d₂, d₂', hd₂, hstep₂, hc₂, -, b₂, hb₂, hget₂⟩ := Looks.exists_answered []
      hlooks' (fun name v hv => henv name v (List.mem_append_right _ hv)) hc₂
      (by rw [htrace, hstart, ht, List.nil_append, List.append_nil])
    refine ⟨d, d₂, hd, .head hstep hd₂, .head hstep₂ hc₂, b, b₂, hb, hb₂, ?_⟩
    cases y with
    | error e' =>
      have hres : res = .error (.sentinel .errNotFound) := mapError_error_injective hr
      rw [hres, getResults_of_errors hkey hget hget₂]
    | ok data =>
      have hres : res = .ok data := mapError_error_injective hr
      rw [hres, getResults_of_cron hkey hget hget₂]

/-! ### Objects that are stored -/

/-- An object was stored between the two configurations. -/
def Stored (c c' : svc.Configuration) (k : String × String) (data : String) : Prop :=
  ∃ d d' : svc.Configuration, ReflTransGen svc.world.Step c d ∧ svc.world.Step d d' ∧
    d'.shared = d.shared.insert k data ∧ ReflTransGen svc.world.Step d' c'

theorem Stored.mono {k : String × String} {data : String} (h : Stored c c' k data)
    (h₀ : ReflTransGen svc.world.Step c₀ c) (h₁ : ReflTransGen svc.world.Step c' c₁) :
    Stored c₀ c₁ k data := by
  obtain ⟨d, d', hd, hstep, hshared, hd'⟩ := h
  exact ⟨d, d', h₀.trans hd, hstep, hshared, hd'.trans h₁⟩

/-- A step changes no object, or stores one. -/
theorem objects_of_step (h : svc.world.Step c c') :
    c'.shared = c.shared ∨ ∃ k data, c'.shared = c.shared.insert k data := by
  obtain ⟨i, hrest, x, s', ha⟩ | ⟨i, hi⟩ | ⟨s', w, url, key, data, -, rfl⟩ := h
  · rcases ha.objects with rfl | ⟨r, url, key, -, -, rfl⟩
    · exact Or.inl rfl
    · exact Or.inr ⟨_, _, rfl⟩
  · exact Or.inl rfl
  · exact Or.inr ⟨_, _, rfl⟩

/-- **Objects stay.** What is under a key of an object later is the object or was stored in
between. -/
theorem exists_lookup {k : String × String} {data : String}
    (h : ReflTransGen svc.world.Step c c') (hdata : c.shared.lookup k = some data) :
    ∃ data', c'.shared.lookup k = some data' ∧ (data' = data ∨ Stored c c' k data') := by
  induction h with
  | refl => exact ⟨data, hdata, Or.inl rfl⟩
  | @tail c' c'' hsteps hstep ih =>
    obtain ⟨data', hdata', horigin⟩ := ih
    rcases objects_of_step hstep with hshared | ⟨k', stored, hshared⟩
    · rw [hshared]
      exact ⟨data', hdata', horigin.imp_right fun h => h.mono .refl (.single hstep)⟩
    · rw [hshared]
      by_cases hk : k = k'
      · subst hk
        exact ⟨stored, AList.lookup_insert _, Or.inr ⟨c', c'', hsteps, hstep, hshared, .refl⟩⟩
      · rw [AList.lookup_insert_ne hk]
        exact ⟨data', hdata', horigin.imp_right fun h => h.mono .refl (.single hstep)⟩

/-- A writer that was closed has stored its object. -/
theorem exists_lookup_of_closeWriter {r : R} {bucketURL key : String}
    (h : ReflTransGen svc.world.Step c₀ c₁) (hstart : (c₀.thread (.inl r)).trace = [])
    (hclosed : ⟨.inl (.bucket (.closeWriter bucketURL key)), .ok ()⟩ ∈ (c₁.thread (.inl r)).trace) :
    ∃ data, c₁.shared.lookup (bucketURL, key) = some data ∧
      Stored c₀ c₁ (bucketURL, key) data := by
  obtain ⟨pre, post, htrace⟩ := List.append_of_mem hclosed
  have hpre : (c₀.thread (.inl r)).trace ++ pre = pre := by rw [hstart, List.nil_append]
  rw [← hpre] at htrace
  obtain ⟨d, d', hd, -, ha, hstep, -, hd'⟩ :=
    World.exists_answered h (not_restarts (.inl r)) htrace
  have hshared := ha.eq_insert
  obtain ⟨data, hdata, horigin⟩ := exists_lookup hd' (by rw [hshared, AList.lookup_insert])
  refine ⟨data, hdata, ?_⟩
  rcases horigin with rfl | hstored
  · exact ⟨d, d', hd, hstep, hshared, hd'⟩
  · exact hstored.mono (hd.tail hstep) .refl

/-! ### Published results are visible -/

/-- A request that has published its result has closed a writer for each of its keys. -/
theorem closeWriter_mem_of_created {L : Libraries} {params : PostRequest} {t : Trace ApiSig}
    {payload key : String} {scorecardResult : VerifiedScorecardResult} {cert : Certificate}
    {env : String → String}
    (h : Exec (postResultsHandler L params) t (some (.created payload))) (henv : Reads t env)
    (hpublish : params.publish = some scorecardResult)
    (hcert : CertifiedBy L scorecardResult t cert)
    (hkey : key ∈ publishedKeys params.platform params.org params.repo
      ((cert.extension fulcioRepoSHAKey).getD "")) :
    ⟨.bucket (.closeWriter (resultsURL env) key), .ok ()⟩ ∈ t := by
  obtain ⟨r, hrun, hr⟩ := exec_map_some.mp h
  have hok : r = .ok () := by
    rcases r with (err | message) | ⟨⟩
    · rw [respond] at hr
      split_ifs at hr
    · cases hr
    · rfl
  subst hok
  rw [handleRequest, hpublish] at hrun
  obtain ⟨t₁, info, t₂, rfl, h₁, h₂⟩ := exec_run_bind_ok.mp hrun
  rw [← (hcert.info h₁).2] at hkey
  rw [publishResult_eq] at h₂
  obtain ⟨t₃, url, t₄, rfl, h₃, h₄⟩ := exec_run_bind_ok.mp h₂
  obtain rfl := exec_resultsBucketURL h₃ fun name v hv => henv name v (by simp [hv])
  rw [publishTo_eq] at h₄
  obtain ⟨t₅, ⟨⟩, t₆, rfl, h₅, h₆⟩ := exec_run_bind_ok.mp h₄
  obtain ⟨t₇, purger, t', rfl, -, h₆⟩ := exec_run_bind_ok.mp h₆
  obtain ⟨t₈, _, t', rfl, -, h₆⟩ := exec_run_bind_ok.mp h₆
  obtain ⟨t₉, ⟨⟩, t', rfl, h₉, -⟩ := exec_run_bind_ok.mp h₆
  have hlatest := closeWriter_mem (exec_annotate_ok.mp h₅)
  have hcommit := closeWriter_mem (exec_annotate_ok.mp h₉)
  rw [publishedKeys, List.mem_cons, List.mem_singleton] at hkey
  rcases hkey with rfl | rfl
  · simp [hlatest]
  · simp [hcommit]

/-- No operation of a request that reads has failed. -/
def ReadsSucceed (t : Trace ServiceSig) : Prop :=
  ∀ bucketURL key message, ⟨.inr (.openBucket bucketURL), .error message⟩ ∉ t ∧
    ⟨.inr (.readAll bucketURL key), .error (.failed message)⟩ ∉ t

/-- A look that succeeds at an object gives it. -/
theorem Looks.exists_lookup {name default key : String} {t : Trace ServiceSig}
    {x : Except ReadError String} {env : String → String} {i : R ⊕ G} {data : String}
    (post : Trace ServiceSig) (hlooks : Looks name default key t x)
    (henv : Reads (Trace.lefts t) env) (h : ReflTransGen svc.world.Step c₁ c₂)
    (htrace : (c₂.thread i).trace = (c₁.thread i).trace ++ t ++ post) (hreads : ReadsSucceed t)
    (hdata : c₁.shared.lookup (if env name = "" then default else env name, key) = some data) :
    ∃ d : svc.Configuration, ReflTransGen svc.world.Step c₁ d ∧
      ReflTransGen svc.world.Step d c₂ ∧ ∃ data', x = .ok data' ∧
        d.shared.lookup (if env name = "" then default else env name, key) = some data' := by
  obtain ⟨d, d', hd, hstep, hc₂, -, b, hb, hget⟩ :=
    Looks.exists_answered post hlooks henv h htrace
  obtain ⟨data', hdata', -⟩ := Service.exists_lookup hd hdata
  refine ⟨d, hd, .head hstep hc₂, ?_⟩
  have hmay := hget ▸ hb key
  cases hlooks with
  | unopened v message =>
    exact absurd (List.mem_cons_of_mem _ List.mem_cons_self) (hreads _ key message).1
  | read v x =>
    rcases x with (_ | message) | data'
    · cases hdata'.symm.trans hmay
    · exact absurd (List.mem_cons_of_mem _ (List.mem_cons_of_mem _ List.mem_cons_self))
        (hreads _ key message).2
    · exact ⟨data', rfl, hmay⟩

/-- **Published results are visible.** Let a request that publishes have started after `c₀` and have
been answered with 201 before `c₁`, and let another one start after `c₁`, read one of the two keys,
and return without a failed operation. Whatever the others do, it answers with an object of the
bucket of results that was stored since `c₀`. -/
theorem published_visible (svc : Service R G W ρ) (s₀ : Objects) (c₀ c₁ c₂ : svc.Configuration)
    (r : R) (g : G) (payload key : String) (scorecardResult : VerifiedScorecardResult)
    (cert : Certificate) (response : Except (Stop ServerError) (GetResultResponse ρ))
    (hc₀ : svc.world.Reachable s₀ c₀) (h₁ : ReflTransGen svc.world.Step c₀ c₁)
    (h₂ : ReflTransGen svc.world.Step c₁ c₂) (hpost : (c₀.thread (.inl r)).trace = [])
    (hcreated : (c₁.thread (.inl r)).Returned (.inl (.created payload)))
    (hpublish : (svc.posts r).publish = some scorecardResult)
    (hcert : CertifiedBy svc.libraries scorecardResult
      (Trace.lefts (c₁.thread (.inl r)).trace) cert)
    (hpublished : key ∈ publishedKeys (svc.posts r).platform (svc.posts r).org (svc.posts r).repo
      ((cert.extension fulcioRepoSHAKey).getD ""))
    (hkey : (svc.gets g).key = .ok key) (hget : (c₁.thread (.inr g)).trace = [])
    (hreturned : (c₂.thread (.inr g)).Returned (.inr response))
    (hreads : ReadsSucceed (c₂.thread (.inr g)).trace) :
    ∃ d : svc.Configuration, ReflTransGen svc.world.Step c₁ d ∧
      ReflTransGen svc.world.Step d c₂ ∧ ∃ data,
        response = .ok (readResponse svc.unmarshalBinary (.ok data)) ∧
        d.shared.lookup (resultsURL svc.env, key) = some data ∧
        Stored c₀ d (resultsURL svc.env, key) data := by
  have henv := reads_env ((hc₀.trans h₁).trans h₂) (.inr g)
  have hclosed := closeWriter_mem_of_created (exec_of_answered hcreated)
    (reads_env (hc₀.trans h₁) _) hpublish hcert hpublished
  obtain ⟨data, hdata, hstored⟩ :=
    exists_lookup_of_closeWriter h₁ hpost (Trace.mem_lefts.mp hclosed)
  obtain ⟨res, hrun, rfl⟩ := exec_getResultHandler (exec_of_returned hreturned)
  rcases exec_getResults hrun with ⟨err, hkey', -, -⟩ | ⟨key', t₁, x, hkey', hlooks, hrest⟩
  · cases hkey.symm.trans hkey'
  obtain rfl := Except.ok.inj (hkey.symm.trans hkey')
  obtain ⟨post, htrace⟩ : ∃ post, (c₂.thread (.inr g)).trace = t₁ ++ post := by
    rcases hrest with ⟨_, -, ht, -⟩ | ⟨_, t₂, _, -, -, ht, -⟩
    exacts [⟨[], by rw [ht, List.append_nil]⟩, ⟨t₂, ht⟩]
  rw [htrace] at henv hreads
  obtain ⟨d, hd, hd', data', rfl, hdata'⟩ := Looks.exists_lookup post hlooks
    (fun name v hv => henv name v (by simp [hv])) h₂ (by rw [hget, htrace, List.nil_append])
    (fun bucketURL key message => ⟨fun h => (hreads bucketURL key message).1 (by simp [h]),
      fun h => (hreads bucketURL key message).2 (by simp [h])⟩) hdata
  refine ⟨d, hd, hd', data', ?_, hdata', ?_⟩
  · rcases hrest with ⟨_, hx, -, hr⟩ | ⟨_, _, _, hx, -⟩
    · obtain rfl := Except.ok.inj hx
      have hres : res = .ok data' := mapError_error_injective hr
      rw [hres]
    · cases hx
  · obtain ⟨data'', hdata'', horigin⟩ := exists_lookup hd hdata
    obtain rfl := Option.some.inj (hdata'.symm.trans hdata'')
    rcases horigin with rfl | hlater
    exacts [hstored.mono .refl hd, hlater.mono h₁ .refl]

end Service

end ScorecardInfra.Server
