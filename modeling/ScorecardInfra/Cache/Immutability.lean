import ScorecardInfra.Cache.Flights

/-!
# Results at a commit

A result at a commit is served without a new scan once it is stored, but it is stored by every
request that obtains a result for the commit: by a scan at the commit, by a scan of the latest
commit that resolves to it, and by an answer of the upstream that names it. Two scans of one commit
have different bytes if they run on different days, so a later one replaces the object of the
earlier one (`exists_pinned_replaced`). The object never changes, and two requests for the commit
that are answered from the store get identical bodies, if all the results that are obtained for the
commit have the same bytes and the same origin (`pinned_unchanged`).

## Main definitions

* `Unchanged`, `FromStore`, `Agrees`.

## Main results

* `pinned_unchanged`, `exists_pinned_replaced`.

Source: `internal/store/store.go`, lines 176–228; `internal/orchestrator/orchestrator.go`,
lines 302–393.
-/

namespace ScorecardInfra.Cache

open GoStd Interaction

variable {R : Type} [DecidableEq R]

/-- Once an object exists at the key, every later configuration has it. -/
def Unchanged (W : World (CacheSig R) (R ⊕ R) (Shared R) Reply) (s₀ : Shared R) (k : String) :
    Prop :=
  ∀ cfg cfg' object, W.Reachable s₀ cfg → Relation.ReflTransGen W.Step cfg cfg' →
    cfg.shared.bucket k = some object → cfg'.shared.bucket k = some object

/-- A request at a commit that is answered without a flight. -/
def FromStore {p : CacheProg R Reply} (th : Thread p) : Prop :=
  ∀ k ch, (⟨.doChan k, ch⟩ : Event (CacheSig R)) ∉ th.trace

/-- What an answer supplies for the key is the object. -/
def Agrees (o : Wired) (req : R → Request) (k : String) (object : Object) (i : R ⊕ R)
    (e : Event (CacheSig R)) : Prop :=
  ∀ w ∈ supplied o.fallback (req (owner i)).ref (req (owner i)).commit.sha e,
    key (req (owner i)).ref w.1 = k → w.2 = object

/-! ### One object for a key -/

section Agreement

variable {o : Wired} {req : R → Request} {k : String} {object : Object}

/-- The only object that the key may have is `object`, and only its body has been read there. -/
structure Holds (k : String) (object : Object)
    (cfg : Interaction.Config (Shared R) (cacheWorld o req).start) :
    Prop where
  bucket : ∀ x, cfg.shared.bucket k = some x → x = object
  read : ∀ i body, ⟨.readAll k, .ok body⟩ ∈ (cfg.thread i).trace → body = object.body

variable {s₀ : Shared R}

theorem holds_reachable (hbucket : ∀ x, s₀.bucket k = some x → x = object)
    {cfg : Interaction.Config (Shared R) (cacheWorld o req).start}
    (h : ((cacheWorld o req).constrain (Agrees o req k object)).Reachable s₀ cfg) :
    Holds k object cfg := by
  induction h with
  | refl => exact ⟨hbucket, fun _ _ he => absurd he List.not_mem_nil⟩
  | @tail cfg cfg' hreach hstep ih =>
    have hevents := World.Reachable.mem_trace hreach fun _ _ _ _ _ ha => ha.1
    obtain ⟨j, e, hstepped⟩ := step_cases hstep
    refine ⟨fun x hx => ?_, fun i body hread => ?_⟩
    · rcases hstepped.bucket hx with hx | ⟨e', he', c, hk, hsupplied⟩
      exacts [ih.bucket x hx, hevents j e' he' _ hsupplied hk.symm]
    · rcases hstepped.read hread with hread | ⟨x, hx, rfl⟩
      · exact ih.read i body hread
      · rw [ih.bucket x hx]

theorem unchanged_of_agrees (hbucket : ∀ x, s₀.bucket k = some x → x = object) :
    Unchanged ((cacheWorld o req).constrain (Agrees o req k object)) s₀ k := by
  intro cfg cfg' x hreach hsteps hx
  have hexists : ∃ y, cfg'.shared.bucket k = some y := by
    clear hreach
    induction hsteps with
    | refl => exact ⟨x, hx⟩
    | tail _ hstep ih =>
      obtain ⟨y, hy⟩ := ih
      obtain ⟨j, e, hstepped⟩ := step_cases hstep
      exact hstepped.exists_bucket hy
  obtain ⟨y, hy⟩ := hexists
  rw [(holds_reachable hbucket hreach).bucket x hx, hy,
    (holds_reachable hbucket (hreach.trans hsteps)).bucket y hy]

/-- A request at a commit that is answered from the store has the object's body. -/
theorem body_of_fromStore {cfg : Interaction.Config (Shared R) (cacheWorld o req).start}
    (h : Holds k object cfg) {r : R} (hk : (req r).key = k) (hpinned : (req r).commit.sha ≠ "")
    (hstore : FromStore (cfg.thread (.inl r))) {p : Provenance} {body : String}
    (hreturned : (cfg.thread (.inl r)).Returned (.ok (.ready p body))) : body = object.body := by
  rcases (answered hreturned).body p body rfl with hread | ⟨hlatest, -⟩ | ⟨ch, hch, -⟩
  · refine h.read (.inl r) body ?_
    rwa [← hk]
  · exact absurd hlatest hpinned
  · exact absurd hch (hstore _ _)

/-- **Results at a commit.** If all the results that are obtained for a commit have the same bytes
and the same origin, then the object at its key never changes once it exists, and any two requests
for the commit that are answered from the store get identical bodies. -/
theorem pinned_unchanged (o : Wired) (req : R → Request) (s₀ : Shared R) (ref : RepoRef)
    (c : String)
    (hc : c ≠ "") (object : Object) (hbucket : ∀ x, s₀.bucket (key ref c) = some x → x = object) :
    Unchanged ((cacheWorld o req).constrain (Agrees o req (key ref c) object)) s₀ (key ref c) ∧
    ∀ cfg, ((cacheWorld o req).constrain (Agrees o req (key ref c) object)).Reachable s₀ cfg →
      ∀ r r' p p' body body', (req r).ref = ref → (req r).commit.sha = c → (req r').ref = ref →
        (req r').commit.sha = c →
        FromStore (cfg.thread (.inl r)) → (cfg.thread (.inl r)).Returned (.ok (.ready p body)) →
        FromStore (cfg.thread (.inl r')) → (cfg.thread (.inl r')).Returned (.ok (.ready p' body')) →
        body = body' := by
  refine ⟨unchanged_of_agrees hbucket, ?_⟩
  rintro cfg hcfg r r' p p' body body' hr hrc hr' hrc' hstore hreturned hstore' hreturned'
  have hholds := holds_reachable hbucket hcfg
  rw [body_of_fromStore hholds (by rw [Request.key, hr, hrc]) (hrc ▸ hc) hstore hreturned,
    body_of_fromStore hholds (by rw [Request.key, hr', hrc']) (hrc' ▸ hc) hstore' hreturned']

end Agreement

/-! ### Objects that are written twice -/

section Replaced

omit [DecidableEq R]

variable {ref : RepoRef} {commit : String} {res : ScanResult}

/-- The beginning of a flight whose scan succeeds, up to its first write. -/
theorem exec_flight {w : Event (CacheSig R)} (h : Exec (persist ref commit res) [w] none) :
    Exec (flight ref commit)
      [⟨.acquire, .ok ()⟩, ⟨.scan ref commit, .ok res⟩, ⟨.release, ()⟩, w] none := by
  exact exec_bind.mpr (Or.inl ⟨rfl, exec_poolDo.bind (exec_bind.mpr (Or.inl ⟨rfl, h⟩))⟩)

/-- A result of a commit is stored at the commit. -/
theorem exec_persist_pinned (hc : commit ≠ "") : Exec (persist (R := R) ref commit res)
    [⟨.writeAll (key ref commit) (objectOf res.json2 .originLocal), .ok ()⟩] none := by
  rw [persist, if_neg hc]
  exact .op _ (.cut _)

/-- A result of the latest commit is first stored at the commit that it resolved to. -/
theorem exec_persist_latest (hres : res.resolvedCommit ≠ "") : Exec (persist (R := R) ref "" res)
    [⟨.writeAll (key ref res.resolvedCommit) (objectOf res.json2 .originLocal), .ok ()⟩] none := by
  rw [persist, if_pos rfl, putLatestAndCommit, putLatestAndCommitWithOrigin, if_neg hres]
  exact .op _ (.cut _)

/-- A request without a fallback joins a flight. -/
theorem exec_produce_join {o : Wired} (ho : o.fallback = none) (ch : R) :
    Exec (o.produce ref commit) [⟨.doChan (key ref commit), ch⟩] none := by
  rw [Wired.produce, Wired.fallbackDecision, ho]
  exact .op _ (.cut _)

/-- A request that finds nothing and has no fallback does so after its lookup. -/
theorem exec_getOrProduce_miss {o : Wired} (ho : o.fallback = none) (ch : R) :
    Exec (o.getOrProduce ref commit)
      [⟨.readAll (key ref commit), .error .notFound⟩, ⟨.doChan (key ref commit), ch⟩] none :=
  .op _ (exec_produce_join ho ch)

/-- A request for a commit that is stored. -/
theorem exec_getOrProduce_pinned {o : Wired} {ref : RepoRef} {commit body tag : String}
    (hc : commit ≠ "") :
    Exec (o.getOrProduce (R := R) ref commit) [⟨.readAll (key ref commit), .ok body⟩,
      ⟨.attributes (key ref commit), .ok tag⟩]
      (some (cachedOutcome body (originOf (.ok tag)))) := by
  refine .op _ (.op _ ?_)
  dsimp only [Prog.bind, Prog.pure_eq, Prog.ret_bind]
  rw [if_pos hc]
  exact .ret _

end Replaced

/-- The scanner answers with the result, and nothing is fetched. -/
def Scans (res : ScanResult) : Event (CacheSig R) → Prop
  | ⟨.scan _ _, scanned⟩ => scanned = .ok res
  | ⟨.get _, _⟩ => False
  | _ => True

omit [DecidableEq R] in
theorem Scans.agrees {o : Wired} {req : R → Request} {k : String} {res : ScanResult} {i : R ⊕ R}
    {e : Event (CacheSig R)} (h : Scans res e) :
    Agrees o req k (objectOf res.json2 .originLocal) i e := by
  rintro ⟨c, object⟩ hw -
  rcases supplied_cases hw with ⟨url, x, rfl⟩ | ⟨ref, commit, res', rfl, rfl⟩
  · exact h.elim
  · obtain rfl := Except.ok.inj h
    rfl

/-- A request that finds nothing, and then its flight up to the first write, without the others. -/
theorem exists_stored {o : Wired} {req : R → Request} (r : R) (res : ScanResult) {k : String}
    {object : Object}
    {A : R ⊕ R → Trace (CacheSig R) → Shared R → Event (CacheSig R) → Shared R → Prop}
    (cfg : Interaction.Config (Shared R) (answeredBy o req A).start)
    (hA : ∀ i past s e s', Scans res e → Answer o i s e s' → A i past s e s')
    (ho : o.fallback = none)
    (hpersist : Exec (persist (req r).ref (req r).commit.sha res)
      [(⟨.writeAll k object, .ok ()⟩ : Event (CacheSig R))] none)
    (hrequest : cfg.thread (.inl r) = .start _) (hflight : cfg.thread (.inr r) = .start _)
    (hbucket : cfg.shared.bucket (req r).key = none) (hcalls : cfg.shared.calls (req r).key = none)
    (hbusy : cfg.shared.busy = 0) :
    ∃ cfg', Relation.ReflTransGen (answeredBy o req A).Step cfg cfg' ∧
      cfg'.shared.bucket = Function.update cfg.shared.bucket k (some object) ∧
      cfg'.shared.calls = Function.update cfg.shared.calls (req r).key (some r) ∧
      cfg'.shared.busy = 0 ∧
      ⟨.writeAll k object, .ok ()⟩ ∈ (cfg'.thread (.inr r)).trace ∧
      ∀ i, i ≠ .inl r → i ≠ .inr r → cfg'.thread i = cfg.thread i := by
  obtain ⟨cfg₁, hsteps₁, hshared₁, -, -, hothers₁⟩ := World.exists_run (W := answeredBy o req A)
    (c := cfg) (i := .inl r) (exec_getOrProduce_miss ho r)
    (.cons (hA _ _ _ _ _ trivial (.readNone hbucket))
      (.cons (hA _ _ _ _ _ trivial (.launch hcalls)) (.nil _ _)))
    (by rw [hrequest]; rfl) (by rw [hrequest]) rfl
  have hflight₁ : cfg₁.thread (.inr r) = .start _ := (hothers₁ _ Sum.inr_ne_inl).trans hflight
  have hlaunched : cfg₁.shared.launched r := by simp [hshared₁]
  have hpool : cfg₁.shared.busy < o.pool := by
    rw [hshared₁]
    exact hbusy ▸ o.pool_pos
  obtain ⟨cfg₂, hsteps₂, hshared₂, htrace₂, -, hothers₂⟩ := World.exists_run
    (W := answeredBy o req A) (c := cfg₁) (i := .inr r) (exec_flight hpersist)
    (.cons (hA _ _ _ _ _ trivial (.acquire hlaunched hpool))
      (.cons (hA _ _ _ _ _ rfl (.scan _ _ _)) (.cons (hA _ _ _ _ _ trivial .release)
        (.cons (hA _ _ _ _ _ trivial (.written k object)) (.nil _ _)))))
    (by rw [hflight₁]; rfl) (by rw [hflight₁]) rfl
  refine ⟨cfg₂, hsteps₁.trans hsteps₂, ?_, ?_, ?_, ?_, ?_⟩
  · simp [hshared₂, hshared₁, Shared.store]
  · simp [hshared₂, hshared₁, Shared.store, Request.key]
  · simp [hshared₂, hshared₁, Shared.store, hbusy]
  · simp [htrace₂]
  · exact fun i hl hr => (hothers₂ i hr).trans (hothers₁ i hl)

/-- A request for a commit that is stored is answered with it. -/
theorem exists_fromStore {o : Wired} {req : R → Request} (r : R) {object : Object}
    {A : R ⊕ R → Trace (CacheSig R) → Shared R → Event (CacheSig R) → Shared R → Prop}
    (cfg : Interaction.Config (Shared R) (answeredBy o req A).start)
    (hread : A (.inl r) [] cfg.shared ⟨.readAll (req r).key, .ok object.body⟩ cfg.shared)
    (hattributes : A (.inl r) [⟨.readAll (req r).key, .ok object.body⟩] cfg.shared
      ⟨.attributes (req r).key, .ok object.origin⟩ cfg.shared)
    (hc : (req r).commit.sha ≠ "") (hrequest : cfg.thread (.inl r) = .start _) :
    ∃ cfg', Relation.ReflTransGen (answeredBy o req A).Step cfg cfg' ∧ cfg'.shared = cfg.shared ∧
      FromStore (cfg'.thread (.inl r)) ∧
      (cfg'.thread (.inl r)).Returned (cachedOutcome object.body (originOf (.ok object.origin))) ∧
      ∀ i, i ≠ .inl r → cfg'.thread i = cfg.thread i := by
  obtain ⟨cfg', hsteps, hshared, htrace, hreturned, hothers⟩ := World.exists_run
    (W := answeredBy o req A) (c := cfg) (i := .inl r) (exec_getOrProduce_pinned hc)
    (.cons hread (.cons hattributes (.nil _ _))) (by rw [hrequest]; rfl) (by rw [hrequest]; rfl) rfl
  refine ⟨cfg', hsteps, hshared, fun k ch => ?_, hreturned _ rfl, hothers⟩
  rw [htrace]
  simp

/-- A request for the sample commit, and one for the latest. -/
def sampleRequests (latest : Bool) : Request :=
  ⟨sampleRef, if latest then .latest else sampleCommit⟩

theorem sampleRequests_key_ne : (sampleRequests true).key ≠ (sampleRequests false).key :=
  fun hkey => absurd (congrArg Request.commit (Request.key_inj.mp hkey)) (by decide)

/-- A scan's result. -/
def sampleResult : ScanResult :=
  ⟨sampleCommit.sha, "\x7b\"date\":\"2026-09-28T00:00:00Z\"\x7d", true⟩

theorem parse_sampleResult : parse sampleResult.json2 =
    .ok { Result.zero with date := "2026-09-28T00:00:00Z" } := by
  have h : (parse sampleResult.json2).toOption =
      some { Result.zero with date := "2026-09-28T00:00:00Z" } := by decide +kernel
  rcases hparse : parse sampleResult.json2 with err | parsed
  · rw [hparse] at h
    cases h
  · rw [hparse] at h
    rw [Option.some.inj h]

/-- The second of four requests is for the latest commit. -/
def fourRequests (r : Fin 4) : Request := sampleRequests (r = 1)

/-- A scan of the commit stores its object, a scan of the latest commit that resolves to it writes
it again, and two requests for the commit are answered with it. -/
theorem pinned_unchanged_sampleCommit :
    let W := (cacheWorld (sampleWired none) fourRequests).constrain (Agrees (sampleWired none)
      fourRequests (key sampleRef sampleCommit.sha) (objectOf sampleResult.json2 .originLocal))
    ∃ cfg cfg' : Interaction.Config (Shared (Fin 4)) W.start,
      Relation.ReflTransGen W.Step cfg cfg' ∧
      cfg.shared.bucket (key sampleRef sampleCommit.sha) =
        some (objectOf sampleResult.json2 .originLocal) ∧
      (cfg.thread (.inr 1)).trace = [] ∧
      ⟨.writeAll (key sampleRef sampleCommit.sha) (objectOf sampleResult.json2 .originLocal),
        .ok ()⟩ ∈ (cfg'.thread (.inr 1)).trace ∧
      cfg'.shared.bucket (key sampleRef sampleCommit.sha) =
        some (objectOf sampleResult.json2 .originLocal) ∧
      ∃ p p' body body', (cfg'.thread (.inl 2)).Returned (.ok (.ready p body)) ∧
        (cfg'.thread (.inl 3)).Returned (.ok (.ready p' body')) ∧ body = body' := by
  intro W
  have hne : sampleCommit.sha ≠ "" := by decide
  have hA : ∀ i past s e s', Scans sampleResult e → Answer (sampleWired none) i s e s' →
      W.answer i past s e s' := fun i past s e s' hscans ha => ⟨hscans.agrees, ha⟩
  obtain ⟨cfg₁, hsteps₁, hbucket₁, hcalls₁, hbusy₁, -, hothers₁⟩ := exists_stored (A := W.answer)
    0 sampleResult (.initial W.start (.initial fun _ => none)) hA rfl (exec_persist_pinned hne)
    rfl rfl rfl rfl rfl
  have hstored : cfg₁.shared.bucket (key sampleRef sampleCommit.sha) =
      some (objectOf sampleResult.json2 .originLocal) := by
    rw [hbucket₁]
    exact Function.update_self ..
  obtain ⟨cfg₂, hsteps₂, hbucket₂, -, -, hwritten, hothers₂⟩ := exists_stored (A := W.answer) 1
    sampleResult cfg₁ hA rfl (exec_persist_latest hne) (hothers₁ _ (by decide) (by decide))
    (hothers₁ _ (by decide) (by decide)) 
    (by rw [hbucket₁]; exact Function.update_of_ne sampleRequests_key_ne ..)
    (by rw [hcalls₁]; exact Function.update_of_ne sampleRequests_key_ne ..) hbusy₁
  have hthread : ∀ r : Fin 4, r ≠ 0 → r ≠ 1 → cfg₂.thread (.inl r) = .start _ := fun r h₀ h₁ =>
    (hothers₂ (.inl r) (fun h => h₁ (Sum.inl_injective h)) Sum.inl_ne_inr).trans
      (hothers₁ (.inl r) (fun h => h₀ (Sum.inl_injective h)) Sum.inl_ne_inr)
  -- the object has not changed
  have hunchanged := pinned_unchanged (sampleWired none) fourRequests (.initial fun _ => none)
    sampleRef sampleCommit.sha hne (objectOf sampleResult.json2 .originLocal)
    (by simp [Shared.initial])
  have hbucket := hunchanged.1 cfg₁ cfg₂ _ hsteps₁ hsteps₂ hstored
  obtain ⟨cfg₃, hsteps₃, hshared₃, hstore₃, hreturned₃, hothers₃⟩ := exists_fromStore
    (A := W.answer) 2 cfg₂ (hA _ _ _ _ _ trivial (.read hbucket))
    (hA _ _ _ _ _ trivial (.attributes hbucket)) hne (hthread 2 (by decide) (by decide))
  rw [← hshared₃] at hbucket
  obtain ⟨cfg₄, hsteps₄, -, hstore₄, hreturned₄, hothers₄⟩ := exists_fromStore
    (A := W.answer) 3 cfg₃ (hA _ _ _ _ _ trivial (.read hbucket))
    (hA _ _ _ _ _ trivial (.attributes hbucket)) hne
    ((hothers₃ _ (by decide)).trans (hthread 3 (by decide) (by decide)))
  obtain ⟨p, hready⟩ : ∃ p, cachedOutcome sampleResult.json2
      (originOf (.ok (objectOf sampleResult.json2 .originLocal).origin)) =
        .ok (.ready p sampleResult.json2) := by
    rw [cachedOutcome, parse_sampleResult]
    exact ⟨_, rfl⟩
  have hsame : cfg₄.thread (.inl 2) = cfg₃.thread (.inl 2) := hothers₄ _ (by decide)
  have hreturned : (cfg₄.thread (.inl 2)).Returned (.ok (.ready p sampleResult.json2)) := by
    rw [hsame, ← hready]
    exact hreturned₃
  have hreturned' : (cfg₄.thread (.inl 3)).Returned (.ok (.ready p sampleResult.json2)) := by
    rw [← hready]
    exact hreturned₄
  have hsteps := hsteps₂.trans (hsteps₃.trans hsteps₄)
  have hflight : cfg₁.thread (.inr 1) = .start _ := hothers₁ (.inr 1) (by decide) (by decide)
  have hflight' : cfg₄.thread (.inr 1) = cfg₂.thread (.inr 1) :=
    (hothers₄ (.inr 1) (by decide)).trans (hothers₃ (.inr 1) (by decide))
  refine ⟨cfg₁, cfg₄, hsteps, hstored, congrArg Thread.trace hflight, ?_,
    hunchanged.1 cfg₁ cfg₄ _ hsteps₁ hsteps hstored, p, p, _, _, hreturned, hreturned',
    hunchanged.2 cfg₄ (hsteps₁.trans hsteps) 2 3 p p _ _ rfl rfl rfl rfl ?_ hreturned hstore₄
      hreturned'⟩
  · exact (congrArg Thread.trace hflight').symm ▸ hwritten
  · exact hsame.symm ▸ hstore₃

/-- **A replaced object.** A scan at a commit stores a result; when the latest commit is scanned
while the branch still points there, the new result replaces it. -/
theorem exists_pinned_replaced : ¬∀ (o : Wired) (req : Bool → Request) (ref : RepoRef) (c : String),
    c ≠ "" → Unchanged (cacheWorld o req) (.initial fun _ => none) (key ref c) := by
  intro h
  let o := sampleWired none
  let first : ScanResult :=
    ⟨sampleCommit.sha, "\x7b\"date\":\"2026-09-28T10:00:00Z\"\x7d", true⟩
  let second : ScanResult :=
    ⟨sampleCommit.sha, "\x7b\"date\":\"2026-09-29T10:00:00Z\"\x7d", true⟩
  have hne : sampleCommit.sha ≠ "" := by decide
  obtain ⟨cfg₁, hsteps₁, hbucket₁, hcalls₁, hbusy₁, -, hothers₁⟩ := exists_stored false first
    (.initial (cacheWorld o sampleRequests).start (.initial fun _ => none))
    (fun _ _ _ _ _ _ ha => ha) rfl (exec_persist_pinned hne) rfl rfl rfl rfl rfl
  obtain ⟨cfg₂, hsteps₂, hbucket₂, -⟩ := exists_stored true second cfg₁ (fun _ _ _ _ _ _ ha => ha)
    rfl (exec_persist_latest hne) (hothers₁ _ nofun nofun) (hothers₁ _ nofun nofun)
    (by rw [hbucket₁]; exact Function.update_of_ne sampleRequests_key_ne ..)
    (by rw [hcalls₁]; exact Function.update_of_ne sampleRequests_key_ne ..) hbusy₁
  have hfirst : cfg₁.shared.bucket (key sampleRef sampleCommit.sha) =
      some (objectOf first.json2 .originLocal) := by
    rw [hbucket₁]
    exact Function.update_self ..
  have hsecond : cfg₂.shared.bucket (key sampleRef sampleCommit.sha) =
      some (objectOf second.json2 .originLocal) := by
    rw [hbucket₂]
    exact Function.update_self ..
  have hunchanged := h o sampleRequests sampleRef sampleCommit.sha hne cfg₁ cfg₂ _ hsteps₁
    hsteps₂ hfirst
  rw [hsecond] at hunchanged
  exact absurd (congrArg Object.body (Option.some.inj hunchanged)) (by decide)

end ScorecardInfra.Cache
