import ScorecardInfra.Cache.Isolation

/-!
# Keys as identities

The key of a request is the address of its object and the name of its flight. Two requests have one
key only if they are for the same repository and commit. An object, however, is filed under the
commit that its answer names, which no parser has seen; where such a commit makes the key of another
request, that request is answered with the object (`exists_collision`). If no answer names such a
commit, then in every interleaving every request is answered with a body that was stored at its key
from the start or was obtained for its repository and commit (`identities`).

## Main definitions

* `Confined`, `Own`, `Owned`.

## Main results

* `identities`, `exists_collision`.

Source: `internal/store/store.go`, lines 137–145; `internal/model/ref.go`, lines 50–110;
`internal/orchestrator/orchestrator.go`, lines 316–345.
-/

namespace ScorecardInfra.Cache

open GoStd Interaction

variable {R : Type} [DecidableEq R]

/-! ### Bodies of a request's own -/

/-- The key of the commit is the key of no other request: of none for another repository, and of
none for another commit of this one, except the latest. -/
def Confined (ref : RepoRef) (c : String) : Prop :=
  ∀ q : Request, key ref c = q.key → q.ref = ref ∧ (q.commit.sha = c ∨ q.commit.sha = "")

/-- The answer names confined commits only. -/
def NamesConfined (o : Wired) (req : R → Request) (i : R ⊕ R) (e : Event (CacheSig R)) : Prop :=
  ∀ w ∈ supplied o.fallback (req (owner i)).ref (req (owner i)).commit.sha e,
    Confined (req (owner i)).ref w.1

section Own

variable (o : Wired) (req : R → Request) (stored : String → Option Object)

/-- The body was stored at the request's key from the start, or was obtained for its repository and
commit. -/
def Own (cfg : Interaction.Config (Shared R) (cacheWorld o req).start) (q : Request)
    (body : String) :
    Prop :=
  (∃ object, stored q.key = some object ∧ object.body = body) ∨
    ∃ i, (req (owner i)).ref = q.ref ∧ Supplies o.fallback (req (owner i)).ref
      (req (owner i)).commit.sha (cfg.thread i).trace q.commit.sha body

/-- Everything that a request can be answered with is its own: objects, bodies that were read, the
flights that are open or joined, and the replies of those that have closed. -/
structure Owned (cfg : Interaction.Config (Shared R) (cacheWorld o req).start) : Prop where
  bucket : ∀ (q : Request) object, cfg.shared.bucket q.key = some object →
    Own o req stored cfg q object.body
  read : ∀ i (q : Request) body, ⟨.readAll q.key, .ok body⟩ ∈ (cfg.thread i).trace →
    Own o req stored cfg q body
  calls : ∀ k ch, cfg.shared.calls k = some ch → (req ch).key = k
  joined : ∀ i k ch, ⟨.doChan k, ch⟩ ∈ (cfg.thread i).trace → (req ch).key = k
  replies : ∀ ch p body, cfg.shared.replies ch = some (.ok (.ready p body)) →
    Own o req stored cfg (req ch) body
  awaited : ∀ i ch p body, ⟨.await ch, .result (.ok (.ready p body))⟩ ∈ (cfg.thread i).trace →
    Own o req stored cfg (req ch) body

end Own

variable {o : Wired} {req : R → Request} {stored : String → Option Object}
  {P : R ⊕ R → Event (CacheSig R) → Prop} {j : R ⊕ R} {e : Event (CacheSig R)}
  {cfg cfg' : Interaction.Config (Shared R) (cacheWorld o req).start}

theorem Own.mono {q : Request} {body : String} (h : Own o req stored cfg q body)
    (hstep : Stepped o req P cfg cfg' j e) : Own o req stored cfg' q body := by
  refine h.imp_right ?_
  rintro ⟨i, href, hsupplies⟩
  exact ⟨i, href, hsupplies.mono (hstep.trace_extends i)⟩

/-! ### Objects -/

/-- An object that is supplied for a confined commit is own to every request at its key. -/
theorem own_of_supplied {i : R ⊕ R} {q : Request} {c : String} {object : Object}
    (he : e ∈ (cfg.thread i).trace)
    (hsupplied : (c, object) ∈ supplied o.fallback (req (owner i)).ref (req (owner i)).commit.sha e)
    (hconfined : Confined (req (owner i)).ref c) (hk : q.key = key (req (owner i)).ref c) :
    Own o req stored cfg q object.body := by
  obtain ⟨href, hcommit⟩ := hconfined q hk.symm
  have hown : ∀ {c'}, q.commit.sha = c' →
      (c', object) ∈ supplied o.fallback (req (owner i)).ref (req (owner i)).commit.sha e →
      Own o req stored cfg q object.body := by
    rintro c' rfl hmem
    exact Or.inr ⟨i, href.symm, e, he, object, hmem, rfl⟩
  rcases hcommit with hc | hlatest
  · exact hown hc hsupplied
  · rcases supplied_latest hsupplied with hpinned | hmem
    · -- the object of a commit that was asked for is at the key of that commit only
      rw [Request.key, hpinned, key_inj q.commit.valid_sha (req (owner i)).commit.valid_sha] at hk
      exact hown (hk.2.trans hpinned.symm) hsupplied
    · exact hown hlatest hmem

/-! ### Steps and runs -/

theorem Owned.step (h : Owned o req stored cfg) (hstep : Stepped o req P cfg cfg' j e)
    (hconfined : ∀ i, ∀ e' ∈ (cfg.thread i).trace, NamesConfined o req i e') :
    Owned o req stored cfg' where
  bucket q object hk := by
    rcases hstep.bucket hk with hk | ⟨e', he', c, hkey, hsupplied⟩
    · exact (h.bucket q object hk).mono hstep
    · exact (own_of_supplied he' hsupplied (hconfined j e' he' _ hsupplied) hkey).mono hstep
  read i q body hread := by
    rcases hstep.read hread with hread | ⟨object, hk, rfl⟩
    · exact (h.read i q body hread).mono hstep
    · exact (h.bucket q object hk).mono hstep
  calls k ch hk := by
    rcases hstep.answer.calls_eq hk with hk | ⟨rfl, hop⟩
    · exact h.calls k ch hk
    · have hallows := hstep.allows
      rw [hop] at hallows
      exact hallows.symm
  joined i k ch hjoined := by
    rcases hstep.mem_trace hjoined with hjoined | ⟨rfl, rfl⟩
    · exact h.joined i k ch hjoined
    · rcases hstep.answer.doChan_cases with hk | rfl
      exacts [h.calls k ch hk, hstep.allows.symm]
  replies ch p body hreply := by
    rcases hstep.answer.replies_eq hreply with hreply | ⟨rfl, hop⟩
    · exact (h.replies ch p body hreply).mono hstep
    · have hallows := hstep.allows
      rw [hop] at hallows
      exact Own.mono (Or.inr ⟨.inr ch, rfl, hallows p body rfl⟩) hstep
  awaited i ch p body hawait := by
    rcases hstep.mem_trace hawait with hawait | ⟨rfl, rfl⟩
    · exact (h.awaited i ch p body hawait).mono hstep
    · exact (h.replies ch p body hstep.answer.await_eq).mono hstep

theorem owned_reachable
    (h : ((cacheWorld o req).constrain (NamesConfined o req)).Reachable (.initial stored) cfg) :
    Owned o req stored cfg := by
  induction h with
  | refl =>
    exact ⟨fun q object hk => Or.inl ⟨object, hk, rfl⟩, fun _ _ _ he => absurd he List.not_mem_nil,
      nofun, fun _ _ _ he => absurd he List.not_mem_nil, nofun,
      fun _ _ _ _ he => absurd he List.not_mem_nil⟩
  | tail hreach hstep ih =>
    obtain ⟨j, e, hstepped⟩ := step_cases hstep
    exact ih.step hstepped fun i => World.Reachable.mem_trace hreach (fun _ _ _ _ _ ha => ha.1) i

/-- **Identities.** Two requests have one key exactly if they are for the same repository and
commit; and in every run whose answers name confined commits, every request is answered with a body
that was stored at its key from the start, or was obtained for its repository and commit. -/
theorem identities (o : Wired) (req : R → Request) (stored : String → Option Object) :
    (∀ q q' : Request, key q.ref q.commit.sha = key q'.ref q'.commit.sha ↔ q = q') ∧
    ∀ cfg, ((cacheWorld o req).constrain (NamesConfined o req)).Reachable (.initial stored) cfg →
      ∀ r p body, (cfg.thread (.inl r)).Returned (.ok (.ready p body)) →
        Own o req stored cfg (req r) body := by
  refine ⟨fun q q' => Request.key_inj, fun cfg hcfg r p body hreturned => ?_⟩
  have howned := owned_reachable hcfg
  rcases (answered hreturned).body p body rfl with hread | ⟨hlatest, hsupplies⟩ | ⟨ch, hch, hawait⟩
  · exact howned.read (.inl r) (req r) body hread
  · refine Or.inr ⟨.inl r, rfl, ?_⟩
    rw [hlatest]
    exact hsupplies
  · have hflight : req ch = req r := Request.key_inj.mp (howned.joined _ _ _ hch)
    exact hflight ▸ howned.awaited _ ch p body hawait

/-! ### A collision -/

omit [DecidableEq R] in
/-- A request for the latest result that finds a fresh one. -/
theorem exec_getOrProduce_fresh {ref : RepoRef} {body tag : String} {origin : Origin} {now : Int}
    (htag : originOf (.ok tag) = origin) (hfresh : o.fresh now body origin = true) :
    Exec (o.getOrProduce (R := R) ref "") [⟨.readAll (key ref ""), .ok body⟩,
      ⟨.attributes (key ref ""), .ok tag⟩, ⟨.now, now⟩] (some (cachedOutcome body origin)) := by
  subst htag
  refine .op _ (.op _ ?_)
  dsimp only [Prog.bind, Prog.pure_eq, Prog.ret_bind]
  rw [if_neg (not_not.mpr rfl)]
  refine .op _ ?_
  dsimp only [Prog.bind]
  rw [if_pos hfresh]
  exact .ret _

/-- The upstream's body as the orchestrator reads it back. -/
theorem cachedOutcome_foreignBody : cachedOutcome foreignBody .originUpstream =
    .ok (.ready (provenanceFrom foreignResult .upstream true) foreignBody) := by
  rw [cachedOutcome, parse_foreignBody]
  rfl

theorem originOf_upstream : originOf (.ok (objectOf foreignBody .originUpstream).origin) =
    .originUpstream := by decide

theorem fresh_foreignBody (fallback : Option Client) :
    (sampleWired fallback).fresh sampleDay.midnight foreignBody .originUpstream = true := by
  have hdate : parseRFC3339 foreignResult.date.toList = .ok sampleDay.midnight := by decide +kernel
  have hwindow : (sampleWired fallback).window .originUpstream = defaultFallbackMaxAge := rfl
  rw [Orchestrator.fresh, parse_foreignBody]
  dsimp only
  rw [hdate, hwindow]
  decide

/-- **A collision.** A request for `scorecard-action` is answered with the body that the upstream
gave for `scorecard`. -/
theorem exists_collision : ¬∀ (o : Wired) (req : Bool → Request)
    (cfg : Interaction.Config (Shared Bool) (cacheWorld o req).start),
    (cacheWorld o req).Reachable (.initial fun _ => none) cfg →
      ∀ r p body, (cfg.thread (.inl r)).Returned (.ok (.ready p body)) →
        Own o req (fun _ => none) cfg (req r) body := by
  intro h
  let o := sampleWired (some sampleClient)
  let req : Bool → Request := fun action => ⟨if action then sampleActionRef else sampleRef, .latest⟩
  have hkeys : key sampleActionRef "" ≠ key sampleRef "" := fun hkey =>
    absurd ((key_inj (Or.inl rfl) (Or.inl rfl)).mp hkey).1 (by decide)
  obtain ⟨cfg₁, hsteps₁, hshared₁, -, -, hothers₁⟩ := World.exists_run (W := cacheWorld o req)
    (c := .initial _ (.initial fun _ => none)) (i := .inl false)
    (exec_getOrProduce_upstream (o := o) rfl rfl fetch_foreignBody parse_foreignBody (by decide))
    (.cons (.readNone rfl) (.cons (.get _ _) (.cons (.written _ _)
      (.cons (.written _ _) (.nil _ _)))))
    rfl rfl rfl
  have hbucket : cfg₁.shared.bucket (key sampleActionRef "") =
      some (objectOf foreignBody .originUpstream) := by
    rw [hshared₁, Shared.store, Shared.store]
    dsimp only
    rw [Function.update_of_ne hkeys, ← key_foreignCommit]
    exact Function.update_self ..
  have hthread : cfg₁.thread (.inl true) = .start _ := hothers₁ _ (by decide)
  obtain ⟨cfg₂, hsteps₂, -, htrace, hreturned, hothers₂⟩ := World.exists_run (W := cacheWorld o req)
    (c := cfg₁) (i := .inl true) (exec_getOrProduce_fresh originOf_upstream (fresh_foreignBody _))
    (.cons (.read hbucket) (.cons (.attributes hbucket) (.cons (.now _) (.nil _ _))))
    (by rw [hthread]; rfl) (by rw [hthread]) rfl
  rw [cachedOutcome_foreignBody] at hreturned
  have hown := h o req cfg₂ (hsteps₁.trans hsteps₂) true _ foreignBody (hreturned _ rfl)
  rcases hown with ⟨object, hobject, -⟩ | ⟨i, href, e, he, object, hsupplied, -⟩
  · cases hobject
  · -- the threads of the request for the action have read only
    rcases i with r | r <;> cases r
    · exact absurd href (by decide)
    · rw [htrace] at he
      simp only [Thread.start_trace, List.nil_append, List.mem_cons, List.not_mem_nil,
        or_false] at he
      rcases he with rfl | rfl | rfl <;> exact List.not_mem_nil hsupplied
    · exact absurd href (by decide)
    · rw [hothers₂ _ (by decide), hothers₁ _ (by decide)] at he
      exact List.not_mem_nil he

end ScorecardInfra.Cache
