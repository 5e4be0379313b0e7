import ScorecardInfra.Cache.Orchestrator

/-!
# What requests and flights write back

An answer of the upstream or of the scanner supplies objects for commits: for the latest result, and
for the commit that the result names or that was asked for (`supplied`). Every write of a request or
a flight stores an object for a commit that an answer supplied it for, every flight ends with a body
that its scan supplied, and a request answers with a body that it read under its own key, that its
upstream supplied, or that its flight ended with (`safe_getOrProduce`, `safe_flight`). When they
return, the first object of every answer has been written, or its write has failed (`Settled`).

## Main definitions

* `filed`, `supplied`, `Supplies`: what answers supply.
* `Allows`, `Settled`, `Answered`: what programs perform, and what holds when they return.

## Main results

* `safe_getOrProduce`, `safe_flight`.

Source: `internal/orchestrator/orchestrator.go`, lines 278–393.
-/

namespace ScorecardInfra.Cache

open GoStd Interaction

variable {R : Type}

/-! ### What answers supply -/

/-- The commits that a result of the latest commit stands for, with its object. -/
def filed (res : ScanResult) (origin : Origin) : List (String × Object) :=
  if res.resolvedCommit = "" then [("", objectOf res.json2 origin)]
  else [(res.resolvedCommit, objectOf res.json2 origin), ("", objectOf res.json2 origin)]

section Request

variable (fallback : Option Client) (ref : RepoRef) (commit : String)

/-- The commits of `ref` that an event supplies an object for, to a request for `commit` or to its
flight. -/
def supplied : Event (CacheSig R) → List (String × Object)
  | ⟨.get _, (answer, now)⟩ =>
    match fallback with
    | none => []
    | some c =>
      match c.fetch now ref answer with
      | .error _ => []
      | .ok res => filed res .originUpstream
  | ⟨.scan _ _, .ok res⟩ =>
    if commit = "" then filed res .originLocal else [(commit, objectOf res.json2 .originLocal)]
  | _ => []

/-- An event of the trace supplies the body for the commit `c`. -/
def Supplies (t : Trace (CacheSig R)) (c body : String) : Prop :=
  ∃ e ∈ t, ∃ object, (c, object) ∈ supplied fallback ref commit e ∧ object.body = body

/-- The operations of a request for `commit` and of its flight. -/
def Allows (past : Trace (CacheSig R)) : CacheOp R → Prop
  | .readAll k => k = key ref commit
  | .attributes k => k = key ref commit
  | .doChan k => k = key ref commit
  | .await ch => ⟨.doChan (key ref commit), ch⟩ ∈ past
  | .get _ => commit = ""
  | .scan ref' commit' => ref' = ref ∧ commit' = commit
  | .writeAll k object =>
    ∃ e ∈ past, ∃ c, (c, object) ∈ supplied fallback ref commit e ∧ k = key ref c
  | .finish reply =>
    ∀ p body, reply = .ok (.ready p body) → Supplies fallback ref commit past commit body
  | _ => True

/-- The write of an object for a commit was performed. -/
def Attempted (past : Trace (CacheSig R)) (w : String × Object) : Prop :=
  ∃ x, ⟨.writeAll (key ref w.1) w.2, x⟩ ∈ past

/-- The first object of each answer, unless it is for the latest commit only, is pending or its
write was performed. -/
def Settled (past : Trace (CacheSig R)) (pending : List (String × Object)) : Prop :=
  ∀ e ∈ past, ∀ w, (supplied fallback ref commit e).head? = some w → w.1 ≠ "" →
    w ∈ pending ∨ Attempted ref past w

/-- What holds when a request has returned. -/
structure Answered (reply : Reply) (past : Trace (CacheSig R)) : Prop where
  settled : Settled fallback ref commit past []
  body : ∀ p body, reply = .ok (.ready p body) →
    ⟨.readAll (key ref commit), .ok body⟩ ∈ past ∨
    (commit = "" ∧ Supplies fallback ref commit past "" body) ∨
    ∃ ch, ⟨.doChan (key ref commit), ch⟩ ∈ past ∧ ⟨.await ch, .result reply⟩ ∈ past

end Request

variable {fallback : Option Client} {ref : RepoRef} {commit : String} {past : Trace (CacheSig R)}
  {pending : List (String × Object)}

/-- A result's objects are at its commit and at the latest one, and have its body. -/
theorem body_filed {res : ScanResult} {origin : Origin} {w : String × Object}
    (h : w ∈ filed res origin) :
    (w.1 = "" ∨ w.1 = res.resolvedCommit) ∧ w.2 = objectOf res.json2 origin := by
  rw [filed] at h
  split_ifs at h
  · rw [List.mem_singleton.mp h]
    exact ⟨Or.inl rfl, rfl⟩
  · rcases List.mem_pair.mp h with rfl | rfl
    exacts [⟨Or.inr rfl, rfl⟩, ⟨Or.inl rfl, rfl⟩]

/-- The first object of a result is at the commit of the result, if it has one. -/
theorem head_filed {res : ScanResult} {origin : Origin} (h : res.resolvedCommit ≠ "") :
    (filed res origin).head? = some (res.resolvedCommit, objectOf res.json2 origin) := by
  rw [filed, if_neg h]
  rfl

/-- What a request or its flight obtains for a commit it obtains for the latest commit too, unless
the request is for that commit. -/
theorem supplied_latest {e : Event (CacheSig R)} {c : String} {object : Object}
    (h : (c, object) ∈ supplied fallback ref commit e) :
    c = commit ∨ ("", object) ∈ supplied fallback ref commit e := by
  have hfiled : ∀ {res : ScanResult} {origin}, (c, object) ∈ filed res origin →
      ("", object) ∈ filed res origin := by
    intro res origin hmem
    obtain ⟨-, rfl⟩ := body_filed hmem
    rw [filed]
    split_ifs <;> simp
  rcases e with ⟨op, x⟩
  cases op with
  | get url =>
    rcases x with ⟨answer, now⟩
    refine Or.inr ?_
    rcases fallback with _ | client
    · simp [supplied] at h
    rcases hres : client.fetch now ref answer with err | res
    · simp [supplied, hres] at h
    · simp only [supplied, hres] at h ⊢
      exact hfiled h
  | scan ref' commit' =>
    rcases x with err | res
    · simp [supplied] at h
    simp only [supplied] at h ⊢
    split_ifs at h ⊢
    · exact Or.inr (hfiled h)
    · exact Or.inl (Prod.mk.inj (List.mem_singleton.mp h)).1
  | _ => simp [supplied] at h

/-- Objects are supplied by the upstream or by the scanner. -/
theorem supplied_cases {e : Event (CacheSig R)} {c : String} {object : Object}
    (h : (c, object) ∈ supplied fallback ref commit e) : (∃ url x, e = ⟨.get url, x⟩) ∨
      ∃ ref' commit' res, e = ⟨.scan ref' commit', .ok res⟩ ∧
        object = objectOf res.json2 .originLocal := by
  rcases e with ⟨op, x⟩
  cases op with
  | get url => exact Or.inl ⟨url, x, rfl⟩
  | scan ref' commit' =>
    rcases x with err | res
    · simp [supplied] at h
    refine Or.inr ⟨ref', commit', res, rfl, ?_⟩
    simp only [supplied] at h
    split_ifs at h
    · exact (body_filed h).2
    · exact (Prod.mk.inj (List.mem_singleton.mp h)).2
  | _ => simp [supplied] at h

theorem Supplies.mono {t t' : Trace (CacheSig R)} {c body : String}
    (h : Supplies fallback ref commit t c body) (ht : t <+: t') :
    Supplies fallback ref commit t' c body := by
  obtain ⟨e, he, hsupplied⟩ := h
  exact ⟨e, ht.subset he, hsupplied⟩

theorem settled_nil : Settled (R := R) fallback ref commit [] [] :=
  fun _ he => absurd he List.not_mem_nil

/-- What an event supplies is pending after it. -/
theorem Settled.snoc (h : Settled fallback ref commit past pending) (e : Event (CacheSig R)) :
    Settled fallback ref commit (past ++ [e]) (supplied fallback ref commit e ++ pending) := by
  intro e' he' w hw hne
  rcases List.mem_append.mp he' with he' | he'
  · rcases h e' he' w hw hne with hpending | ⟨x, hx⟩
    exacts [Or.inl (List.mem_append_right _ hpending), Or.inr ⟨x, List.mem_append_left _ hx⟩]
  · rw [List.mem_singleton.mp he'] at hw
    exact Or.inl (List.mem_append_left _ (List.mem_of_mem_head? hw))

/-- A write is no longer pending once it is performed. -/
theorem Settled.attempt {c : String} {object : Object} {x : Except String Unit}
    (h : Settled fallback ref commit past ((c, object) :: pending)) :
    Settled fallback ref commit (past ++ [⟨.writeAll (key ref c) object, x⟩]) pending := by
  intro e he w hw hne
  rcases h.snoc ⟨.writeAll (key ref c) object, x⟩ e he w hw hne with hpending | hattempted
  · rcases List.mem_cons.mp hpending with rfl | hpending
    exacts [Or.inr ⟨x, List.mem_append_right _ (List.mem_singleton.mpr rfl)⟩, Or.inl hpending]
  · exact Or.inr hattempted

/-- Objects for the latest commit are not waited for. -/
theorem Settled.latest {object : Object}
    (h : Settled fallback ref commit past (("", object) :: pending)) :
    Settled fallback ref commit past pending := by
  intro e he w hw hne
  refine (h e he w hw hne).imp_left fun hpending => ?_
  rcases List.mem_cons.mp hpending with rfl | hpending
  exacts [absurd rfl hne, hpending]

/-! ### Writes -/

section Writes

/-- The monitor of a request for `commit` and of its flight. -/
abbrev accounting (R : Type) (fallback : Option Client) (ref : RepoRef) (commit : String) :
    Monitor (CacheSig R) (Trace (CacheSig R)) :=
  .history (Allows fallback ref commit)

variable {origin : Origin} {res : ScanResult}

theorem safe_write {e : Event (CacheSig R)} {c body : String} (he : e ∈ past)
    (hmem : (c, objectOf body origin) ∈ supplied fallback ref commit e)
    (h : Settled fallback ref commit past ((c, objectOf body origin) :: pending)) :
    (write (key ref c) body origin).Safe (accounting R fallback ref commit)
      (fun _ past' => e ∈ past' ∧ Settled fallback ref commit past' pending) past := by
  refine safe_perform_bind ⟨e, he, c, hmem, rfl⟩ ?_
  have hdone : ∀ x, e ∈ past ++ [⟨.writeAll (key ref c) (objectOf body origin), x⟩] ∧
      Settled fallback ref commit (past ++ [⟨.writeAll (key ref c) (objectOf body origin), x⟩])
        pending :=
    fun _ => ⟨List.mem_append_left _ he, h.attempt⟩
  rintro (message | ⟨⟩)
  exacts [hdone _, hdone _]

/-- The objects of a result of the latest commit, the pinned one first. -/
theorem safe_putLatestAndCommitWithOrigin {e : Event (CacheSig R)} (he : e ∈ past)
    (hfiled : supplied fallback ref commit e = filed res origin)
    (h : Settled fallback ref commit past (filed res origin)) :
    (putLatestAndCommitWithOrigin ref res.resolvedCommit res.json2 origin).Safe
      (accounting R fallback ref commit)
      (fun _ past' => Settled fallback ref commit past' []) past := by
  rw [putLatestAndCommitWithOrigin]
  by_cases hc : res.resolvedCommit = ""
  · rw [filed, if_pos hc] at h
    rw [if_pos hc]
    exact h.latest
  · rw [filed, if_neg hc] at h hfiled
    rw [if_neg hc]
    refine (safe_write he (by simp [hfiled]) h).bind fun written past' hpast' => ?_
    rcases written with err | ⟨⟩
    · exact hpast'.2.latest
    · exact (safe_write hpast'.1 (by simp [hfiled]) hpast'.2).mono fun _ _ h' => h'.2

theorem safe_backfill {e : Event (CacheSig R)} (he : e ∈ past)
    (hfiled : supplied fallback ref commit e = filed res .originUpstream)
    (h : Settled fallback ref commit past (filed res .originUpstream)) :
    (backfill ref res).Safe (accounting R fallback ref commit)
      (fun _ past' => Settled fallback ref commit past' []) past := by
  rw [backfill]
  by_cases hc : res.resolvedCommit = ""
  · rw [filed, if_pos hc] at h hfiled
    rw [if_pos hc]
    exact (safe_write he (by simp [hfiled]) h).mono fun _ _ h' => h'.2
  · rw [if_neg hc]
    exact safe_putLatestAndCommitWithOrigin he hfiled h

theorem safe_persist {ref' : RepoRef} {commit' : String}
    (he : ⟨.scan ref' commit', .ok res⟩ ∈ past)
    (h : Settled fallback ref commit past
      (supplied (R := R) fallback ref commit ⟨.scan ref' commit', .ok res⟩)) :
    (persist ref commit res).Safe (accounting R fallback ref commit)
      (fun _ past' => Settled fallback ref commit past' []) past := by
  rw [persist]
  by_cases hc : commit = ""
  · rw [if_pos hc]
    have hfiled : supplied (R := R) fallback ref commit ⟨.scan ref' commit', .ok res⟩ =
        filed res .originLocal := if_pos hc
    exact safe_putLatestAndCommitWithOrigin he hfiled (hfiled ▸ h)
  · rw [if_neg hc]
    have hfiled : supplied (R := R) fallback ref commit ⟨.scan ref' commit', .ok res⟩ =
        [(commit, objectOf res.json2 .originLocal)] := if_neg hc
    exact (safe_write he (by simp [hfiled]) (hfiled ▸ h)).mono fun _ _ h' => h'.2

end Writes

/-! ### Flights -/

/-- An operation that supplies nothing. -/
theorem Settled.snoc_nil {e : Event (CacheSig R)} (h : Settled fallback ref commit past pending)
    (he : supplied fallback ref commit e = []) :
    Settled fallback ref commit (past ++ [e]) pending := by
  have hsnoc := h.snoc e
  rwa [he] at hsnoc

theorem safe_poolDo (h : Settled fallback ref commit past []) :
    (poolDo ref commit).Safe (accounting R fallback ref commit)
      (fun
        | .error _, past' => Settled fallback ref commit past' []
        | .ok res, past' => ⟨.scan ref commit, .ok res⟩ ∈ past' ∧ Settled fallback ref commit past'
            (supplied (R := R) fallback ref commit ⟨.scan ref commit, .ok res⟩)) past := by
  refine safe_perform_bind trivial ?_
  rintro (message | ⟨⟩)
  · exact h.snoc_nil rfl
  · refine safe_perform_bind ⟨rfl, rfl⟩ fun scanned => safe_perform_bind trivial fun _ => ?_
    rcases scanned with err | res
    · exact ((h.snoc_nil rfl).snoc_nil rfl).snoc_nil rfl
    · refine ⟨by simp, ?_⟩
      have hscan := (h.snoc_nil (e := ⟨.acquire, .ok ()⟩) rfl).snoc ⟨.scan ref commit, .ok res⟩
      rw [List.append_nil] at hscan
      exact hscan.snoc_nil rfl

/-- The scan of a flight supplies its body for its commit. -/
theorem supplies_of_scan {res : ScanResult} (h : ⟨.scan ref commit, .ok res⟩ ∈ past) :
    Supplies fallback ref commit past commit res.json2 := by
  refine ⟨_, h, objectOf res.json2 .originLocal, ?_, rfl⟩
  by_cases hc : commit = ""
  · simp only [supplied, if_pos hc, filed]
    split <;> simp [hc]
  · simp [supplied, if_neg hc]

theorem safe_scanAndStore (h : Settled fallback ref commit past []) :
    (scanAndStore ref commit).Safe (accounting R fallback ref commit)
      (fun reply past' => Settled fallback ref commit past' [] ∧
        ∀ p body, reply = .ok (.ready p body) → Supplies fallback ref commit past' commit body)
      past := by
  refine (safe_poolDo h).bind fun scanned past₁ h₁ => ?_
  rcases scanned with err | res
  · exact ⟨h₁, nofun⟩
  · obtain ⟨hscan, hsettled⟩ := h₁
    refine (safe_persist hscan hsettled).keeps_history.bind fun _ past₂ h₂ => ?_
    refine ⟨h₂.1, fun p body hreply => ?_⟩
    rw [(liveOutcome_eq_ready hreply).1]
    exact (supplies_of_scan hscan).mono h₂.2

/-- **Flights** write what their scan supplies, and end with a body that it supplied. -/
theorem safe_flight (fallback : Option Client) :
    (flight ref commit).Safe (accounting R fallback ref commit)
    (fun _ past => Settled fallback ref commit past []) [] := by
  refine (safe_scanAndStore settled_nil).bind fun reply past hpast => ?_
  exact safe_perform_bind hpast.2 fun _ => hpast.1.snoc_nil rfl

/-! ### Requests -/

theorem safe_tryFallback {c : Client} (hc : commit = "")
    (h : Settled (some c) ref commit past []) :
    (tryFallback c ref).Safe (accounting R (some c) ref commit)
      (fun out past' => Settled (some c) ref commit past' [] ∧
        ∀ p body, out = some (.ready p body) → Supplies (some c) ref commit past' "" body)
          past := by
  rw [tryFallback, fetch, bind_assoc]
  refine safe_perform_bind hc ?_
  rintro ⟨answer, now⟩
  have hsnoc := h.snoc ⟨.get (c.endpoint ref), (answer, now)⟩
  rw [List.append_nil] at hsnoc
  dsimp only [Prog.pure_eq, Prog.ret_bind]
  rcases hres : c.fetch now ref answer with err | res
  · simp only [supplied, hres] at hsnoc
    exact ⟨hsnoc, nofun⟩
  · have hfiled : supplied (R := R) (some c) ref commit ⟨.get (c.endpoint ref), (answer, now)⟩ =
        filed res .originUpstream := by simp only [supplied, hres]
    rw [hfiled] at hsnoc
    have hmem : ⟨.get (c.endpoint ref), (answer, now)⟩ ∈
        past ++ [(⟨.get (c.endpoint ref), (answer, now)⟩ : Event (CacheSig R))] := by simp
    refine (safe_backfill hmem hfiled hsnoc).keeps_history.bind fun _ past' hpast' => ?_
    rcases parse res.json2 with err | parsed
    · exact ⟨hpast'.1, nofun⟩
    · refine ⟨hpast'.1, fun p body hout => ?_⟩
      obtain ⟨-, rfl⟩ := Outcome.ready.inj (Option.some.inj hout)
      refine ⟨_, hpast'.2.subset hmem, objectOf res.json2 .originUpstream, ?_, rfl⟩
      rw [hfiled, filed]
      split <;> simp

section Wired

variable {o : Wired}

theorem safe_scanOutcome (h : Settled o.fallback ref commit past []) :
    (o.scanOutcome ref commit).Safe (accounting R o.fallback ref commit)
      (Answered o.fallback ref commit) past := by
  refine safe_perform_bind rfl fun ch => ?_
  have hch : ⟨.doChan (key ref commit), ch⟩ ∈
      past ++ [(⟨.doChan (key ref commit), ch⟩ : Event (CacheSig R))] := by simp
  refine safe_perform_bind hch ?_
  rintro (reply | ⟨⟩ | message)
  · exact ⟨(h.snoc_nil rfl).snoc_nil rfl, fun p body hreply =>
      Or.inr (Or.inr ⟨ch, List.mem_append_left _ hch, by simp⟩)⟩
  · exact ⟨(h.snoc_nil rfl).snoc_nil rfl, nofun⟩
  · exact ⟨(h.snoc_nil rfl).snoc_nil rfl, nofun⟩

theorem safe_fallbackDecision (h : Settled o.fallback ref commit past []) :
    (o.fallbackDecision commit).Safe (accounting R o.fallback ref commit)
      (fun decision past' => Settled o.fallback ref commit past' [] ∧
        ∀ d, decision = some d → o.fallback = some d.1 ∧ commit = "") past := by
  rw [Wired.fallbackDecision]
  rcases hfallback : o.fallback with _ | c
  · exact ⟨hfallback ▸ h, nofun⟩
  rw [hfallback] at h
  dsimp only
  by_cases hc : commit = ""
  · rw [if_neg (not_not.mpr hc)]
    split_ifs
    · exact ⟨h, fun d hd => ⟨by rw [← Option.some.inj hd], hc⟩⟩
    · refine safe_perform_bind trivial fun enabled => ?_
      split_ifs
      · exact ⟨h.snoc_nil rfl, nofun⟩
      · refine safe_perform_bind trivial fun mode => ?_
        exact ⟨(h.snoc_nil rfl).snoc_nil rfl, fun d hd => ⟨by rw [← Option.some.inj hd], hc⟩⟩
  · rw [if_pos hc]
    exact ⟨h, nofun⟩

theorem safe_produce (h : Settled o.fallback ref commit past []) :
    (o.produce ref commit).Safe (accounting R o.fallback ref commit)
      (Answered o.fallback ref commit) past := by
  refine (safe_fallbackDecision h).bind fun decision past₁ h₁ => ?_
  rcases decision with _ | ⟨c, mode⟩
  · exact safe_scanOutcome h₁.1
  obtain ⟨hfallback, hc⟩ := h₁.2 _ rfl
  have htry : ∀ {past'}, Settled o.fallback ref commit past' [] →
      (tryFallback c ref).Safe (accounting R o.fallback ref commit)
        (fun out past' => Settled o.fallback ref commit past' [] ∧
          ∀ p body, out = some (.ready p body) → Supplies o.fallback ref commit past' "" body)
        past' := by
    intro past' h'
    rw [hfallback] at h' ⊢
    exact safe_tryFallback hc h'
  dsimp only
  by_cases hmode : mode = modeFetchFirst
  · rw [if_pos hmode]
    refine (htry h₁.1).bind fun out past₂ h₂ => ?_
    rcases out with _ | out
    · exact safe_scanOutcome h₂.1
    · exact ⟨h₂.1, fun p body hreply => Or.inr (Or.inl ⟨hc, h₂.2 p body (by cases hreply; rfl)⟩)⟩
  · rw [if_neg hmode]
    refine (safe_scanOutcome h₁.1).bind fun reply past₂ h₂ => ?_
    rcases reply with err | out
    · dsimp only
      split_ifs
      · refine (htry h₂.settled).bind fun out past₃ h₃ => ?_
        rcases out with _ | out
        · exact ⟨h₃.1, nofun⟩
        · exact ⟨h₃.1, fun p body hreply =>
            Or.inr (Or.inl ⟨hc, h₃.2 p body (by cases hreply; rfl)⟩)⟩
      · exact ⟨h₂.settled, nofun⟩
    · exact h₂

/-- What a stored body makes the request return. -/
theorem answered_cachedOutcome {body : String} {origin : Origin}
    (h : Settled o.fallback ref commit past [])
    (hbody : ⟨.readAll (key ref commit), .ok body⟩ ∈ past) :
    Answered o.fallback ref commit (cachedOutcome body origin) past := by
  refine ⟨h, fun p body' hreply => Or.inl ?_⟩
  rwa [(cachedOutcome_eq_ready hreply).1]

/-- **Requests** write what their upstream supplies, and answer with a body that they read under
their own key, that their upstream supplied, or that their flight ended with. -/
theorem safe_getOrProduce : (o.getOrProduce ref commit).Safe (accounting R o.fallback ref commit)
    (Answered o.fallback ref commit) [] := by
  rw [Wired.getOrProduce, getWithOrigin, bind_assoc]
  have h : Settled (R := R) o.fallback ref commit [] [] := settled_nil
  refine safe_perform_bind rfl ?_
  rintro ((⟨⟩ | message) | body)
  · exact safe_produce (h.snoc_nil rfl)
  · exact ⟨h.snoc_nil rfl, nofun⟩
  · rw [bind_assoc]
    refine safe_perform_bind rfl fun attrs => ?_
    have hsettled := (h.snoc_nil (e := ⟨.readAll (key ref commit), .ok body⟩) rfl).snoc_nil
      (e := ⟨.attributes (key ref commit), attrs⟩) rfl
    dsimp only [Prog.pure_eq, Prog.ret_bind]
    split_ifs with hc
    · exact answered_cachedOutcome hsettled (by simp)
    · refine safe_perform_bind trivial fun now => ?_
      split_ifs
      · exact answered_cachedOutcome (hsettled.snoc_nil rfl) (by simp)
      · exact safe_produce (hsettled.snoc_nil rfl)

end Wired

end ScorecardInfra.Cache
