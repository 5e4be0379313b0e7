import ScorecardInfra.Cache.Flights

/-!
# Objects of a request's own repository

The commit that an object is filed under comes from the answer that it is made of. The upstream
client takes it from the body as it is, and `Key` cleans it into the key, so that a body with the
commit `../scorecard-action` for the repository `scorecard` is stored as the latest result of
`scorecard-action`. A request writes objects of its own repository only, each at the latest key or
at the commit that the object's body names, exactly if every upstream body names no commit, a full
SHA or the latest key itself, and every scanned body names the commit that it was scanned for
(`ownWrites_iff`).

## Main definitions

* `commitOf`, `OwnWrite`, `OwnAnswer`, `Resolved`.

## Main results

* `ownWrites_iff`, `exists_foreign_write`.

Source: `internal/fallback/fallback.go`, lines 107–123; `internal/orchestrator/orchestrator.go`,
lines 278–314; `internal/store/store.go`, lines 137–145, 199–211.
-/

namespace ScorecardInfra.Cache

open GoStd Interaction

variable {R : Type}

/-! ### Own objects -/

/-- The commit that a body names. -/
def commitOf (body : String) : Option String :=
  match parse body with
  | .error _ => none
  | .ok parsed => some parsed.repo.commit

/-- A write of an object of the repository: at the latest key, or at a full SHA that the body names,
and at no key of another repository. -/
structure OwnWrite (ref : RepoRef) (k : String) (object : Object) : Prop where
  own : k = key ref "" ∨
    ∃ c, isFullSHA c = true ∧ k = key ref c ∧ commitOf object.body = some c
  not_foreign : ∀ ref' (c : Commit), ref' ≠ ref → k ≠ key ref' c.sha

/-- An object at an own key is no object of another repository. -/
theorem ownWrite_of_own {ref : RepoRef} {k : String} {object : Object} (h : k = key ref "" ∨
    ∃ c, isFullSHA c = true ∧ k = key ref c ∧ commitOf object.body = some c) :
    OwnWrite ref k object := by
  refine ⟨h, fun ref' c hne hk => hne ?_⟩
  rcases h with rfl | ⟨c', hc', rfl, -⟩
  · exact ((key_inj (Or.inl rfl) c.valid_sha).mp hk).1.symm
  · exact ((key_inj (Or.inr hc') c.valid_sha).mp hk).1.symm

/-- An answer whose commits are of the repository: the upstream's body names no other key, and the
scanner's body names the commit that it was scanned for. -/
def OwnAnswer (o : Wired) (ref : RepoRef) (commit : String) : Event (CacheSig R) → Prop
  | ⟨.get _, (answer, now)⟩ => ∀ c res, o.fallback = some c → c.fetch now ref answer = .ok res →
      key ref res.resolvedCommit = key ref "" ∨ isFullSHA res.resolvedCommit = true
  | ⟨.scan _ _, .ok res⟩ =>
    commitOf res.json2 = some (if commit = "" then res.resolvedCommit else commit)
  | _ => True

/-- Every scan resolves to a full SHA. -/
def Resolved (t : Trace (CacheSig R)) : Prop :=
  ∀ ref commit res, ⟨.scan ref commit, .ok res⟩ ∈ t → isFullSHA res.resolvedCommit = true

/-- The commit of a fetched result is the one that its body names. -/
theorem commitOf_fetch {c : Client} {now : Int} {ref : RepoRef} {answer : HTTPAnswer}
    {res : ScanResult} (h : c.fetch now ref answer = .ok res) :
    commitOf res.json2 = some res.resolvedCommit := by
  obtain ⟨parsed, hparse, -, hcommit, -⟩ := Client.fetch_eq_ok h
  rw [commitOf, hparse, hcommit]

section Answers

variable {o : Wired} {ref : RepoRef} {commit : Commit} {e : Event (CacheSig R)}

/-- What an own answer supplies is written as an own object. -/
theorem ownWrite_of_supplied (h : OwnAnswer o ref commit.sha e)
    (hresolved : ∀ ref' commit' res, e = ⟨.scan ref' commit', .ok res⟩ →
      isFullSHA res.resolvedCommit = true) {w : String × Object}
    (hw : w ∈ supplied o.fallback ref commit.sha e) : OwnWrite ref (key ref w.1) w.2 := by
  refine ownWrite_of_own ?_
  rcases e with ⟨op, x⟩
  cases op with
  | get url =>
    rcases x with ⟨answer, now⟩
    rcases hfallback : o.fallback with _ | c
    · simp [supplied, hfallback] at hw
    rcases hres : c.fetch now ref answer with err | res
    · simp [supplied, hfallback, hres] at hw
    · simp only [supplied, hfallback, hres] at hw
      obtain ⟨hc | hc, hobject⟩ := body_filed hw
      · exact Or.inl (by rw [hc])
      · rw [hc, hobject]
        refine (h c res hfallback hres).imp id fun hsha => ?_
        exact ⟨_, hsha, rfl, commitOf_fetch hres⟩
  | scan ref' commit' =>
    rcases x with err | res
    · simp [supplied] at hw
    have hsha := hresolved ref' commit' res rfl
    simp only [OwnAnswer] at h
    simp only [supplied] at hw
    split_ifs at h hw with hlatest
    · obtain ⟨hc | hc, hobject⟩ := body_filed hw
      · exact Or.inl (by rw [hc])
      · rw [hc, hobject]
        exact Or.inr ⟨_, hsha, rfl, h⟩
    · rw [List.mem_singleton.mp hw]
      exact Or.inr ⟨_, commit.valid_sha.resolve_left hlatest, rfl, h⟩
  | _ => simp [supplied] at hw

/-- An answer is own if its first object is. -/
theorem ownAnswer_of_head
    (hresolved : ∀ ref' commit' res, e = ⟨.scan ref' commit', .ok res⟩ →
      isFullSHA res.resolvedCommit = true)
    (h : ∀ w, (supplied o.fallback ref commit.sha e).head? = some w → w.1 ≠ "" →
      OwnWrite ref (key ref w.1) w.2) : OwnAnswer o ref commit.sha e := by
  -- a scanned body at a full SHA names it
  have hscan : ∀ {c : String} {body : String} {origin : Origin}, isFullSHA c = true →
      OwnWrite ref (key ref c) (objectOf body origin) → commitOf body = some c := by
    intro c body origin hsha hown
    rcases hown.own with hk | ⟨c', hsha', hk, hbody⟩
    · have hempty := ((key_inj (Or.inr hsha) (Or.inl rfl)).mp hk).2
      exact absurd (hempty ▸ hsha) (by decide)
    · rw [((key_inj (Or.inr hsha) (Or.inr hsha')).mp hk).2]
      exact hbody
  rcases e with ⟨op, x⟩
  cases op with
  | get url =>
    rcases x with ⟨answer, now⟩
    intro c res hfallback hres
    by_cases hc : res.resolvedCommit = ""
    · exact Or.inl (by rw [hc])
    · have hown := h (res.resolvedCommit, objectOf res.json2 .originUpstream)
        (by simp only [supplied, hfallback, hres]; exact head_filed hc) hc
      refine hown.own.imp id ?_
      rintro ⟨c', hsha, -, hbody⟩
      obtain rfl : res.resolvedCommit = c' :=
        Option.some.inj ((commitOf_fetch hres).symm.trans hbody)
      exact hsha
  | scan ref' commit' =>
    rcases x with err | res
    · trivial
    have hsha := hresolved ref' commit' res rfl
    have hne : res.resolvedCommit ≠ "" := by
      rintro hempty
      exact absurd (hempty ▸ hsha) (by decide)
    simp only [OwnAnswer]
    split_ifs with hlatest
    · exact hscan hsha (h (res.resolvedCommit, objectOf res.json2 .originLocal)
        (by simp only [supplied, if_pos hlatest]; exact head_filed hne) hne)
    · exact hscan (commit.valid_sha.resolve_left hlatest)
        (h (commit.sha, objectOf res.json2 .originLocal)
          (by simp only [supplied, if_neg hlatest]; rfl) hlatest)
  | _ => trivial

end Answers

/-- **Own objects.** A complete run of a request or of a flight, in which every scan resolves to a
full SHA, writes objects of its own repository only, each at the latest key or at the full SHA that
its body names, exactly if its answers are own. -/
theorem ownWrites_iff (o : Wired) (ref : RepoRef) (commit : Commit) {t : Trace (CacheSig R)}
    {reply : Reply} (h : Exec (o.getOrProduce ref commit.sha) t (some reply) ∨
      Exec (flight ref commit.sha) t (some reply)) (hresolved : Resolved t) :
    (∀ k object x, ⟨.writeAll k object, x⟩ ∈ t → OwnWrite ref k object) ↔
      ∀ e ∈ t, OwnAnswer o ref commit.sha e := by
  have hscan : ∀ e ∈ t, ∀ ref' commit' res, e = ⟨.scan ref' commit', .ok res⟩ →
      isFullSHA res.resolvedCommit = true := fun e he ref' commit' res heq =>
    hresolved ref' commit' res (heq ▸ he)
  have hsettled : Settled o.fallback ref commit.sha t [] := by
    rcases h with h | h
    · have hpost := h.post (safe_getOrProduce (R := R))
      rw [Monitor.after_history] at hpost
      exact hpost.settled
    · have hpost := h.post (safe_flight (R := R) o.fallback)
      rwa [Monitor.after_history] at hpost
  have hallows : ∀ pre e post, t = pre ++ e :: post →
      Allows o.fallback ref commit.sha pre e.op := by
    rintro pre e post rfl
    rcases h with h | h
    · have hallows := h.allows (safe_getOrProduce (R := R))
      rwa [Monitor.after_history] at hallows
    · have hallows := h.allows (safe_flight (R := R) o.fallback)
      rwa [Monitor.after_history] at hallows
  constructor
  · intro hwrites e he
    refine ownAnswer_of_head (hscan e he) fun w hw hne => ?_
    rcases hsettled e he w hw hne with hpending | ⟨x, hx⟩
    exacts [absurd hpending List.not_mem_nil, hwrites _ _ x hx]
  · intro hanswers k object x hwrite
    obtain ⟨pre, post, ht⟩ := List.append_of_mem hwrite
    obtain ⟨e, he, c, hsupplied, rfl⟩ := hallows pre _ post ht
    have het : e ∈ t := by
      rw [ht]
      exact List.mem_append_left _ he
    exact ownWrite_of_supplied (hanswers e het) (hscan e het) hsupplied

/-! ### A foreign write -/

section Upstream

variable {o : Wired} {c : Client} {ref : RepoRef} {res : ScanResult} {parsed : Result}

/-- A successful backfill of a result with a commit. -/
theorem exec_backfill (hne : res.resolvedCommit ≠ "") : Exec (backfill (R := R) ref res)
    [⟨.writeAll (key ref res.resolvedCommit) (objectOf res.json2 .originUpstream), .ok ()⟩,
      ⟨.writeAll (key ref "") (objectOf res.json2 .originUpstream), .ok ()⟩] (some (.ok ())) := by
  rw [backfill, if_neg hne, putLatestAndCommitWithOrigin, if_neg hne]
  exact .op _ (.op _ (.ret _))

theorem exec_tryFallback {answer : HTTPAnswer} {now : Int}
    (hfetch : c.fetch now ref answer = .ok res)
    (hparse : parse res.json2 = .ok parsed) (hne : res.resolvedCommit ≠ "") :
    Exec (tryFallback (R := R) c ref) [⟨.get (c.endpoint ref), (answer, now)⟩,
      ⟨.writeAll (key ref res.resolvedCommit) (objectOf res.json2 .originUpstream), .ok ()⟩,
      ⟨.writeAll (key ref "") (objectOf res.json2 .originUpstream), .ok ()⟩]
      (some (some (.ready (provenanceFrom parsed .upstream res.complete) res.json2))) := by
  have hget : Exec (fetch (R := R) c ref) [⟨.get (c.endpoint ref), (answer, now)⟩]
      (some (.ok res)) := by
    rw [← hfetch]
    exact .op _ (.ret _)
  refine hget.bind ((exec_backfill hne).bind (?_ : Exec _ [] _))
  rw [hparse]
  exact .ret _

/-- A request that finds nothing and is answered by the upstream. -/
theorem exec_getOrProduce_upstream {answer : HTTPAnswer} {now : Int} (ho : o.fallback = some c)
    (hflags : o.hasFlags = false) (hfetch : c.fetch now ref answer = .ok res)
    (hparse : parse res.json2 = .ok parsed) (hne : res.resolvedCommit ≠ "") :
    Exec (o.getOrProduce (R := R) ref "") [⟨.readAll (key ref ""), .error .notFound⟩,
      ⟨.get (c.endpoint ref), (answer, now)⟩,
      ⟨.writeAll (key ref res.resolvedCommit) (objectOf res.json2 .originUpstream), .ok ()⟩,
      ⟨.writeAll (key ref "") (objectOf res.json2 .originUpstream), .ok ()⟩]
      (some (.ok (.ready (provenanceFrom parsed .upstream res.complete) res.json2))) := by
  have hdecision : Exec (o.fallbackDecision (R := R) "") [] (some (some (c, modeFetchFirst))) := by
    rw [Wired.fallbackDecision, ho]
    dsimp only
    rw [if_neg (not_not.mpr rfl), if_pos hflags]
    exact .ret _
  refine .op _ (hdecision.bind ?_)
  dsimp only
  rw [if_pos rfl]
  exact (exec_tryFallback hfetch hparse hne).bind (.ret _ : Exec _ [] _)

end Upstream

/-- The repository of the sample's GitHub action. -/
def sampleActionRef : RepoRef where
  host := hostGitHub
  org := "ossf"
  repo := "scorecard-action"
  host_supported := sampleRef.host_supported
  org_valid := sampleRef.org_valid
  repo_valid := ⟨⟨by decide, by decide, by decide, by decide⟩, by decide,
    Strings.forall_mem_of_all (by decide)⟩

/-- The commit of a body that makes the latest key of the action. -/
def foreignCommit : String := "../scorecard-action"

/-- A body for the repository `scorecard` with that commit. -/
def foreignBody : String :=
  "\x7b\"date\":\"2026-09-28T00:00:00Z\",\"repo\":\x7b\"commit\":\"../scorecard-action\"\x7d\x7d"

/-- What the body is read as. -/
def foreignResult : Result :=
  { Result.zero with date := "2026-09-28T00:00:00Z", repo := ⟨"", foreignCommit⟩ }

/-- The upstream client. -/
def sampleClient : Client := ⟨"https://api.scorecard.dev", defaultFallbackMaxAge⟩

theorem parse_foreignBody : parse foreignBody = .ok foreignResult := by
  have h : (parse foreignBody).toOption = some foreignResult := by decide +kernel
  rcases hparse : parse foreignBody with err | parsed
  · rw [hparse] at h
    cases h
  · rw [hparse] at h
    rw [Option.some.inj h]

/-- The key of the commit is the latest key of the action. -/
theorem key_foreignCommit : key sampleRef foreignCommit = key sampleActionRef "" := by
  decide +kernel

theorem fetch_foreignBody : sampleClient.fetch sampleDay.midnight sampleRef
    (.response 200 (.ok foreignBody)) = .ok ⟨foreignCommit, foreignBody, true⟩ := by
  refine Client.fetch_of_parse ?_ parse_foreignBody ?_
  · decide +kernel
  · decide +kernel

/-- **A foreign write.** The upstream's answer for `scorecard` is stored as the latest result of
`scorecard-action`. -/
theorem exists_foreign_write : ¬∀ (o : Wired) (ref : RepoRef) (commit : Commit)
    (t : Trace (CacheSig Unit)) (reply : Reply),
    (Exec (o.getOrProduce ref commit.sha) t (some reply) ∨
      Exec (flight ref commit.sha) t (some reply)) →
      Resolved t → ∀ k object x, ⟨.writeAll k object, x⟩ ∈ t → OwnWrite ref k object := by
  intro h
  have hexec :=
    exec_getOrProduce_upstream (R := Unit) (o := sampleWired (some sampleClient)) rfl rfl
    fetch_foreignBody parse_foreignBody (by decide)
  have hown := h _ sampleRef .latest _ _ (Or.inl hexec) (by simp [Resolved])
    (key sampleRef foreignCommit) (objectOf foreignBody .originUpstream) (.ok ()) (by simp)
  exact hown.not_foreign sampleActionRef .latest (by decide) key_foreignCommit

/-- A body that names the sample commit. -/
def ownBody : String := "\x7b\"repo\":\x7b\"commit\":\"0123456789abcdef0123456789abcdef01234567\"\x7d\x7d"

theorem commitOf_ownBody : commitOf ownBody = some sampleCommit.sha := by decide +kernel

/-- A flight at a commit whose scan and write succeed. -/
theorem exec_flight_stored (ref : RepoRef) {commit : String} (hc : commit ≠ "") (res : ScanResult) :
    Exec (flight (R := R) ref commit) [⟨.acquire, .ok ()⟩, ⟨.scan ref commit, .ok res⟩,
      ⟨.release, ()⟩, ⟨.writeAll (key ref commit) (objectOf res.json2 .originLocal), .ok ()⟩,
      ⟨.finish (liveOutcome res), ()⟩] (some (liveOutcome res)) := by
  have hpersist : Exec (persist (R := R) ref commit res)
      [⟨.writeAll (key ref commit) (objectOf res.json2 .originLocal), .ok ()⟩] (some (.ok ())) := by
    rw [persist, if_neg hc]
    exact .op _ (.ret _)
  have hscan : Exec (scanAndStore (R := R) ref commit) [⟨.acquire, .ok ()⟩,
      ⟨.scan ref commit, .ok res⟩, ⟨.release, ()⟩,
      ⟨.writeAll (key ref commit) (objectOf res.json2 .originLocal), .ok ()⟩]
      (some (liveOutcome res)) :=
    exec_poolDo.bind (hpersist.bind (.ret _ : Exec _ [] _))
  have hfinish : Exec (performCache (R := R) (.finish (liveOutcome res)) >>= fun _ =>
      pure (liveOutcome res)) [⟨.finish (liveOutcome res), ()⟩] (some (liveOutcome res)) := by
    refine .op _ ?_
    exact .ret _
  exact hscan.bind hfinish

/-- A flight at the sample commit whose scanned body names it writes own objects. -/
theorem ownWrites_sampleCommit : ∃ (t : Trace (CacheSig Unit)) (reply : Reply),
    Exec (flight sampleRef sampleCommit.sha) t (some reply) ∧
      ∀ k object x, ⟨.writeAll k object, x⟩ ∈ t → OwnWrite sampleRef k object := by
  have hne : sampleCommit.sha ≠ "" := by decide
  have hexec := exec_flight_stored (R := Unit) sampleRef hne ⟨sampleCommit.sha, ownBody, true⟩
  refine ⟨_, _, hexec, (ownWrites_iff (sampleWired none) sampleRef sampleCommit (Or.inr hexec)
    ?_).mpr ?_⟩
  · rintro ref commit res hmem
    simp only [List.mem_cons, Event.mk.injEq, reduceCtorEq, CacheOp.scan.injEq, List.not_mem_nil,
      false_and, false_or, or_false] at hmem
    obtain ⟨-, hres⟩ := hmem
    rw [Except.ok.inj (eq_of_heq hres)]
    exact sampleCommit.valid_sha.resolve_left hne
  · simp [OwnAnswer, commitOf_ownBody, hne]

end ScorecardInfra.Cache
