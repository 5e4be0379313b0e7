import ScorecardInfra.Cache.Coalescing
import ScorecardInfra.Cache.Identity
import ScorecardInfra.Cache.Responses
import ScorecardInfra.Interaction.Network

/-!
# Servers that are each other's upstreams

The upstream of a server may be another one of these servers: what `Fetch` gets is then a response
that the other one has made for a request of its own. Every server has a bucket, a scanner and any
number of requests with their flights, and the steps of all of them come in any order; two servers
may be upstreams of each other.

A body that a server answers with has been copied from one server to the next and between their
buckets. It has been obtained somewhere for the repository that the request is for: it was stored
for it from the start, scanned for it, or given for it by an upstream outside; apart from the limit
of what `Fetch` reads (`network_serves`). For this every server has to ask its upstream for the
repository of the request, and what is obtained has to name no commit or a full SHA, since a body
is stored under the commit that it names.

## Main definitions

* `Servers`, `Servers.Hears`, `Servers.network`: the servers and what they may be answered.
* `Servers.Obtained`: where bodies come from.

## Main results

* `network_serves`.

Source: `internal/fallback/fallback.go`, lines 77–123; `internal/httpapi/server.go`, lines 182–223;
`internal/orchestrator/orchestrator.go`, lines 183–393; `internal/store/store.go`;
`internal/scan/engine.go`.
-/

namespace ScorecardInfra.Cache

open GoStd Interaction

/-! ### The network -/

/-- Servers with their requests, and the server behind the base URL of each one's fallback, if it is
one of them. -/
structure Servers (K R : Type) where
  wired : K → Wired
  scanner : K → EngineScanner
  req : K → R → Request
  upstream : K → Option K
  /-- `url.Parse` of an authority, for a scheme. -/
  parseAuthority : List Char → List Char → Option (List Char)

/-- What the orchestrator is told of the end of a scan. -/
inductive Reports : Except (Stop EngineError) ScanResult → Except ScanError ScanResult → Prop
  | ok (res : ScanResult) : Reports (.ok res) (.ok res)
  | skipped : Reports (.error (.error .skipped)) (.error .skipped)
  | failed {e : EngineError} (h : e ≠ .skipped) (message : String) :
      Reports (.error (.error e)) (.error (.failed message))

namespace Servers

variable {K R : Type} [DecidableEq R] (n : Servers K R)

/-- A configuration of each server. -/
abbrev Configs : Type :=
  (k : K) → Interaction.Config (Shared R) (cacheWorld (n.wired k) (n.req k)).start

/-- What a client gets for a URL from the server `l`: no response, one that cannot be read to its
end, one that the router makes for a URL that the pattern does not match, a refusal, or the response
to a request that has returned. -/
inductive Answers (l : K)
    (cfg : Interaction.Config (Shared R) (cacheWorld (n.wired l) (n.req l)).start) (url : String) :
    HTTPAnswer → Prop
  | failed (message : String) : Answers l cfg url (.failed message)
  | unread (status : Nat) (message : String) :
      Answers l cfg url (.response status (.error message))
  | unmatched (h : (Url.parse n.parseAuthority url.toList).bind readRequest = none) (status : Nat)
      (body : String) : Answers l cfg url (.response status (.ok body))
  | refused {b : BadRequest}
      (h : (Url.parse n.parseAuthority url.toList).bind readRequest = some (.error b)) :
      Answers l cfg url (.response b.response.status (.ok b.response.body))
  | responded {r : R} {reply : Reply}
      (h : (Url.parse n.parseAuthority url.toList).bind readRequest =
        some (.ok ((n.req l r).ref, (n.req l r).commit)))
      (hreturned : (cfg.thread (.inl r)).Returned reply) :
      Answers l cfg url (.response (respond reply).status (.ok (respond reply).body))

/-- What a thread of the server `k` may be answered: a scan ends as the scanner's, and a request to
the upstream as the upstream answers it; an upstream outside answers as it likes. -/
inductive Hears (c : n.Configs) (k : K) : R ⊕ R → Event (CacheSig R) → Prop
  | scanned {i : R ⊕ R} {ref : RepoRef} {commit : String} {t : Trace EngineSig}
      {r : Except (Stop EngineError) ScanResult} {x : Except ScanError ScanResult}
      (h : Exec ((n.scanner k).scan ref commit).run t (some r)) (hx : Reports r x) :
      Hears c k i ⟨.scan ref commit, x⟩
  | outside {i : R ⊕ R} {url : String} (h : n.upstream k = none) (x : HTTPAnswer × Int) :
      Hears c k i ⟨.get url, x⟩
  | answered {i : R ⊕ R} {url : String} {l : K} {answer : HTTPAnswer} (h : n.upstream k = some l)
      (hanswer : n.Answers l (c l) url answer) (now : Int) : Hears c k i ⟨.get url, (answer, now)⟩
  | other {i : R ⊕ R} {e : Event (CacheSig R)} (hscan : ∀ ref commit, e.op ≠ .scan ref commit)
      (hget : ∀ url, e.op ≠ .get url) : Hears c k i e

/-- The servers side by side. -/
def network : Network (CacheSig R) K (R ⊕ R) (Shared R) Reply where
  world k := cacheWorld (n.wired k) (n.req k)
  hears := n.Hears

/-! ### Where bodies come from -/

/-- What `Fetch` reads of a body. -/
def cut (body : String) : String := String.ofList (body.toList.take maxResponseBytes)

/-- What is heard of other servers does not depend on the server itself. -/
theorem Hears.update [DecidableEq K] {n : Servers K R} {c : n.Configs} {k : K} {i : R ⊕ R}
    {e : Event (CacheSig R)} (h : n.Hears c k i e) (hk : n.upstream k ≠ some k)
    (d : Interaction.Config (Shared R) (cacheWorld (n.wired k) (n.req k)).start) :
    n.Hears (Function.update c k d) k i e := by
  cases h with
  | scanned h hx => exact .scanned h hx
  | outside h x => exact .outside h x
  | @answered _ l _ h hanswer now =>
    refine .answered h ?_ now
    rwa [Function.update_of_ne]
    rintro rfl
    exact hk h
  | other hscan hget => exact .other hscan hget

/-- The bodies that the network has obtained for the repository: what was stored for it from the
start, what was scanned for it, what an upstream outside gave for it, and what a client reads of
such a body. -/
inductive Obtained (stored : K → String → Option Object) (c : n.Configs) (ref : RepoRef) :
    String → Prop
  | stored {k : K} {commit : Commit} {object : Object}
      (h : stored k (key ref commit.sha) = some object) : Obtained stored c ref object.body
  | scanned {k : K} {i : R ⊕ R} {commit : String} {res : ScanResult}
      (h : ⟨.scan ref commit, .ok res⟩ ∈ ((c k).thread i).trace) : Obtained stored c ref res.json2
  | outside {k : K} {i : R ⊕ R} {client : Client} {body : String} {now : Int}
      (h : n.upstream k = none) (hclient : (n.wired k).fallback = some client)
      (hget : ⟨.get (client.endpoint ref), (.response 200 (.ok body), now)⟩ ∈
        ((c k).thread i).trace) : Obtained stored c ref (cut body)
  | cut {body : String} (h : Obtained stored c ref body) : Obtained stored c ref (cut body)

/-- The body names no commit, or a full SHA. -/
def NamesSHA (body : String) : Prop :=
  ∀ parsed, parse body = .ok parsed →
    parsed.repo.commit = "" ∨ isFullSHA parsed.repo.commit = true

/-- The assumption of a server about its answers: what an answer supplies was obtained for the
repository, under a commit that is the key of no other one; and scans are consistent. -/
structure Sourced (stored : K → String → Option Object) (c : n.Configs) (k : K) (i : R ⊕ R)
    (e : Event (CacheSig R)) : Prop where
  obtained : ∀ w ∈ supplied (n.wired k).fallback (n.req k (owner i)).ref
    (n.req k (owner i)).commit.sha e, n.Obtained stored c (n.req k (owner i)).ref w.2.body
  confined : NamesConfined (n.wired k) (n.req k) i e
  consistent : ∀ ref commit res, e = ⟨.scan ref commit, .ok res⟩ → res.Consistent

end Servers

/-! ### One server -/

/-- The key of no commit or of a full SHA is the key of no other request. -/
theorem confined_of_valid {ref : RepoRef} {c : String} (h : c = "" ∨ isFullSHA c = true) :
    Confined ref c := by
  intro q hq
  obtain ⟨href, hcommit⟩ := (key_inj h q.commit.valid_sha).mp hq
  exact ⟨href.symm, Or.inl hcommit.symm⟩

/-- What a fetched result is made of. -/
theorem Client.json2_of_fetch {c : Client} {now : Int} {ref : RepoRef} {answer : HTTPAnswer}
    {res : ScanResult} (h : c.fetch now ref answer = .ok res) :
    ∃ body, answer = .response 200 (.ok body) ∧ res.json2 = Servers.cut body := by
  rcases answer with message | ⟨status, body⟩
  · cases h
  dsimp only [fetch] at h
  split_ifs at h with hstatus
  rcases body with message | body
  · cases h
  dsimp only [ofBody] at h
  split at h
  · cases h
  · split_ifs at h
    cases h
    exact ⟨body, by rw [hstatus], rfl⟩

section World

variable {R : Type} [DecidableEq R] {o : Wired} {req : R → Request}
  {stored : String → Option Object}
  {cfg : Interaction.Config (Shared R) (cacheWorld o req).start}

/-- A request is answered with a body of its own. -/
theorem Owned.returned (h : Owned o req stored cfg) {r : R} {p : Provenance} {body : String}
    (hreturned : (cfg.thread (.inl r)).Returned (.ok (.ready p body))) :
    Own o req stored cfg (req r) body := by
  rcases (answered hreturned).body p body rfl with hread | ⟨hlatest, hsupplies⟩ | ⟨ch, hch, hawait⟩
  · exact h.read (.inl r) (req r) body hread
  · exact Or.inr ⟨.inl r, rfl, by rwa [hlatest]⟩
  · rw [← Request.key_inj.mp (h.joined _ _ _ hch)]
    exact h.awaited _ ch p body hawait

/-- Only requests for the latest result ask the upstream, for their own repository. -/
theorem get_cases {i : R ⊕ R} (th : Thread ((cacheWorld o req).start i)) {url : String}
    {k : HTTPAnswer × Int → CacheProg R Reply} (h : th.rest = .op (.get url) k) :
    ∃ client, o.fallback = some client ∧ (req (owner i)).commit.sha = "" ∧
      url = client.endpoint (req (owner i)).ref := by
  have hperforms := threadPerforms th h
  rcases i with r | r
  · obtain ⟨-, client, hactive, hurl⟩ := hperforms
    exact ⟨client, hactive.fallback, hactive.latest, hurl⟩
  · exact hperforms.elim

end World

namespace Servers

variable {K R : Type} [DecidableEq R] {n : Servers K R} {stored : K → String → Option Object}
  {c : n.Configs}

section Server

variable {l : K} {cfg : Interaction.Config (Shared R) (cacheWorld (n.wired l) (n.req l)).start}

/-- What is a request's own was obtained. -/
theorem obtained_of_own
    (hsourced : ∀ i, ∀ e ∈ (cfg.thread i).trace, n.Sourced stored c l i e) {q : Request}
    {body : String} (h : Own (n.wired l) (n.req l) (stored l) cfg q body) :
    n.Obtained stored c q.ref body := by
  rcases h with ⟨object, hobject, rfl⟩ | ⟨i, href, e, he, object, hmem, rfl⟩
  · exact .stored hobject
  · rw [← href]
    exact (hsourced i e he).obtained _ hmem

/-- **One server** under its assumption answers with bodies that were obtained. -/
theorem obtained_of_returned (h : ((cacheWorld (n.wired l) (n.req l)).constrain
      (n.Sourced stored c l)).Reachable (.initial (stored l)) cfg) {r : R} {p : Provenance}
    {body : String} (hreturned : (cfg.thread (.inl r)).Returned (.ok (.ready p body))) :
    n.Obtained stored c (n.req l r).ref body := by
  have howned := owned_reachable (h.constrain fun _ _ => Sourced.confined)
  refine obtained_of_own (fun i => ?_) (howned.returned hreturned)
  exact World.Reachable.mem_trace h (fun _ _ _ _ _ ha => ha.1) i

end Server

/-! ### What is heard -/

section Hears

variable {k : K} {i : R ⊕ R}

/-- A response of the upstream, if what is fetched was obtained. -/
theorem sourced_of_fetch (hnames : ∀ ref body, n.Obtained stored c ref body → NamesSHA body)
    {client : Client} (hclient : (n.wired k).fallback = some client) {url : String}
    {answer : HTTPAnswer} {now : Int}
    (h : ∀ res, client.fetch now (n.req k (owner i)).ref answer = .ok res →
      n.Obtained stored c (n.req k (owner i)).ref res.json2) :
    n.Sourced stored c k i ⟨.get url, (answer, now)⟩ := by
  -- what is supplied is a fetched result
  have hsupplied : ∀ w ∈ supplied (R := R) (n.wired k).fallback (n.req k (owner i)).ref
      (n.req k (owner i)).commit.sha ⟨.get url, (answer, now)⟩,
      ∃ res, client.fetch now (n.req k (owner i)).ref answer = .ok res ∧
        w ∈ filed res .originUpstream := by
    intro w hw
    rcases hres : client.fetch now (n.req k (owner i)).ref answer with err | res
    · simp [supplied, hclient, hres] at hw
    · exact ⟨res, rfl, by simpa [supplied, hclient, hres] using hw⟩
  refine ⟨fun w hw => ?_, fun w hw => ?_, ?_⟩
  · obtain ⟨res, hres, hfiled⟩ := hsupplied w hw
    rw [(body_filed hfiled).2]
    exact h res hres
  · obtain ⟨res, hres, hfiled⟩ := hsupplied w hw
    obtain ⟨parsed, hparse, -, hcommit, -⟩ := Client.fetch_eq_ok hres
    rcases (body_filed hfiled).1 with hw | hw
    · exact confined_of_valid (Or.inl hw)
    · rw [hw, hcommit]
      exact confined_of_valid (hnames _ _ (h res hres) parsed hparse)
  · rintro ref commit res ⟨⟩

/-- The end of a scan, if it is one of the run. -/
theorem sourced_of_scan (hnames : ∀ ref body, n.Obtained stored c ref body → NamesSHA body)
    {ref : RepoRef} {commit : String} (href : ref = (n.req k (owner i)).ref)
    {t : Trace EngineSig} {r : Except (Stop EngineError) ScanResult}
    (hexec : Exec ((n.scanner k).scan ref commit).run t (some r))
    {x : Except ScanError ScanResult} (hx : Reports r x)
    (hmem : ⟨.scan ref commit, x⟩ ∈ ((c k).thread i).trace) :
    n.Sourced stored c k i ⟨.scan ref commit, x⟩ := by
  cases hx with
  | skipped => exact ⟨nofun, nofun, nofun⟩
  | failed => exact ⟨nofun, nofun, nofun⟩
  | ok res =>
    have hconsistent := EngineScanner.consistent_of_exec hexec
    have hobtained : n.Obtained stored c (n.req k (owner i)).ref res.json2 := by
      rw [← href]
      exact .scanned hmem
    refine ⟨fun w hw => ?_, fun w hw => ?_, ?_⟩
    · simp only [supplied] at hw
      split_ifs at hw
      · rw [(body_filed hw).2]
        exact hobtained
      · rw [List.mem_singleton.mp hw]
        exact hobtained
    · simp only [supplied] at hw
      split_ifs at hw
      · obtain ⟨parsed, hparse, hcommit, -⟩ := hconsistent
        rcases (body_filed hw).1 with hw | hw
        · exact confined_of_valid (Or.inl hw)
        · rw [hw, hcommit]
          exact confined_of_valid (hnames _ _ hobtained parsed hparse)
      · rw [List.mem_singleton.mp hw]
        exact confined_of_valid (n.req k (owner i)).commit.valid_sha
    · rintro _ _ _ ⟨⟩
      exact hconsistent

/-- The response of one of the servers, if the client asks it for the repository. -/
theorem obtained_of_answers {l : K}
    {cfg : Interaction.Config (Shared R) (cacheWorld (n.wired l) (n.req l)).start}
    (hcfg : ((cacheWorld (n.wired l) (n.req l)).constrain
      (n.Sourced stored c l)).Reachable (.initial (stored l)) cfg) {client : Client} {ref : RepoRef}
    (hasks : AsksFor n.parseAuthority client ref) {answer : HTTPAnswer}
    (h : n.Answers l cfg (client.endpoint ref) answer) {now : Int} {res : ScanResult}
    (hres : client.fetch now ref answer = .ok res) : n.Obtained stored c ref res.json2 := by
  obtain ⟨body, hanswer, hbody⟩ := Client.json2_of_fetch hres
  unfold AsksFor requested at hasks
  cases h with
  | failed => cases hanswer
  | unread => cases hanswer
  | unmatched h => cases h.symm.trans hasks
  | refused h => cases h.symm.trans hasks
  | responded h hreturned =>
    obtain ⟨hstatus, hok⟩ := HTTPAnswer.response.inj hanswer
    obtain ⟨p, body', rfl⟩ := status_respond.mp hstatus
    obtain ⟨href, -⟩ := Prod.mk.inj (Except.ok.inj (Option.some.inj (h.symm.trans hasks)))
    rw [hbody, ← href, ← Except.ok.inj hok]
    exact .cut (obtained_of_returned hcfg hreturned)

/-- **What is heard** of servers under their assumptions satisfies the assumption. -/
theorem sourced_of_hears (hnames : ∀ ref body, n.Obtained stored c ref body → NamesSHA body)
    (hasks : ∀ k l client, n.upstream k = some l → (n.wired k).fallback = some client →
      ∀ r, AsksFor n.parseAuthority client (n.req k r).ref)
    {d : n.Configs} (hd : ∀ l, ((cacheWorld (n.wired l) (n.req l)).constrain
      (n.Sourced stored c l)).Reachable (.initial (stored l)) (d l))
    {e : Event (CacheSig R)} (hrest : ∃ q, ((d k).thread i).rest = .op e.op q)
    (hmem : e ∈ ((c k).thread i).trace) (h : n.Hears d k i e) : n.Sourced stored c k i e := by
  obtain ⟨q, hrest⟩ := hrest
  cases h with
  | scanned hexec hx =>
    have hallows := allowed ((d k).thread i) hrest
    exact sourced_of_scan hnames hallows.1 hexec hx hmem
  | outside hup x =>
    obtain ⟨client, hclient, -, rfl⟩ := get_cases _ hrest
    obtain ⟨answer, now⟩ := x
    refine sourced_of_fetch hnames hclient fun res hres => ?_
    obtain ⟨body, rfl, hbody⟩ := Client.json2_of_fetch hres
    rw [hbody]
    exact .outside hup hclient hmem
  | answered hup hanswer now =>
    obtain ⟨client, hclient, -, rfl⟩ := get_cases _ hrest
    exact sourced_of_fetch hnames hclient fun res hres =>
      obtained_of_answers (hd _) (hasks _ _ client hup hclient _) hanswer hres
  | other hscan hget =>
    have hnil : supplied (n.wired k).fallback (n.req k (owner i)).ref
        (n.req k (owner i)).commit.sha e = [] := by
      obtain ⟨op, x⟩ := e
      cases op with
      | get url => exact absurd rfl (hget url)
      | scan ref commit => exact absurd rfl (hscan ref commit)
      | _ => rfl
    refine ⟨fun w hw => ?_, fun w hw => ?_, ?_⟩
    · exact absurd (hnil ▸ hw) List.not_mem_nil
    · exact absurd (hnil ▸ hw) List.not_mem_nil
    · rintro ref commit res rfl
      exact absurd rfl (hscan ref commit)

end Hears

end Servers

/-! ### Runs -/

/-- **A network of servers.** In every run in which what has been obtained names no commit or a full
SHA, every response with the status 200 has a body that was obtained for the repository of the
request, and headers that describe it. -/
theorem network_serves {K R : Type} [DecidableEq K] [DecidableEq R] (n : Servers K R)
    (stored : K → String → Option Object)
    (hasks : ∀ k l client, n.upstream k = some l → (n.wired k).fallback = some client →
      ∀ r, AsksFor n.parseAuthority client (n.req k r).ref)
    (c : n.Configs) (hc : n.network.Reachable (fun k => .initial (stored k)) c)
    (hnames : ∀ ref body, n.Obtained stored c ref body → Servers.NamesSHA body) (k : K) (r : R)
    (reply : Reply) (hreturned : ((c k).thread (.inl r)).Returned reply)
    (hok : (respond reply).status = 200) :
    n.Obtained stored c (n.req k r).ref (respond reply).body ∧
      ∃ parsed, (respond reply).Describes parsed := by
  have hsourced : ∀ k, ((cacheWorld (n.wired k) (n.req k)).constrain
      (n.Sourced stored c k)).Reachable (.initial (stored k)) (c k) := by
    refine (hc.of_traces fun _ _ => id).component fun d hd k i e hrest h => ?_
    exact Servers.sourced_of_hears hnames hasks hd hrest h.1 h.2
  refine ⟨?_, ?_⟩
  · obtain ⟨p, body, rfl⟩ := status_respond.mp hok
    exact Servers.obtained_of_returned (hsourced k) hreturned
  · have hevents := World.Reachable.mem_trace (hsourced k) fun _ _ _ _ _ ha => ha.1
    refine (flown_reachable (fun _ _ _ _ _ ha => ha.2) (hsourced k)).describes ?_ hreturned hok
    exact fun i ref commit res hscan => (hevents i _ hscan).consistent ref commit res rfl

/-! ### A body that is copied -/

/-- A body that names the sample commit. -/
def copiedBody : String :=
  "\x7b\"date\":\"2026-09-28T00:00:00Z\",\"repo\":\x7b\"commit\":\"0123456789abcdef0123456789abcdef01234567\"\x7d\x7d"

/-- What the body is read as. -/
def copiedResult : Result :=
  { Result.zero with date := "2026-09-28T00:00:00Z", repo := ⟨"", sampleCommit.sha⟩ }

theorem parse_copiedBody : parse copiedBody = .ok copiedResult := by
  have h : (parse copiedBody).toOption = some copiedResult := by decide +kernel
  rcases hparse : parse copiedBody with err | parsed
  · rw [hparse] at h
    cases h
  · rw [hparse] at h
    rw [Option.some.inj h]

theorem length_copiedBody : copiedBody.toList.length ≤ maxResponseBytes := by decide +kernel

theorem cut_copiedBody : Servers.cut copiedBody = copiedBody := by
  rw [Servers.cut, List.take_of_length_le length_copiedBody, String.ofList_toList]

theorem fetch_copiedBody : sampleClient.fetch sampleDay.midnight sampleRef
    (.response 200 (.ok copiedBody)) = .ok ⟨sampleCommit.sha, copiedBody, true⟩ := by
  refine Client.fetch_of_parse length_copiedBody parse_copiedBody ?_
  decide +kernel

theorem fresh_copiedBody : (sampleWired none).fresh sampleDay.midnight copiedBody .originLocal =
    true := by
  have hdate : parseRFC3339 copiedResult.date.toList = .ok sampleDay.midnight := by decide +kernel
  have hwindow : (sampleWired none).window .originLocal = 0 := rfl
  rw [Orchestrator.fresh, parse_copiedBody]
  dsimp only
  rw [hdate, hwindow]
  decide

theorem cachedOutcome_copiedBody : cachedOutcome copiedBody .originLocal =
    .ok (.ready (provenanceFrom copiedResult .cached true) copiedBody) := by
  rw [cachedOutcome, parse_copiedBody]
  rfl

/-- Two servers with a request each; the first one is the upstream of the second one. -/
def twoServers : Servers Bool Unit where
  wired second := sampleWired (if second then some sampleClient else none)
  scanner _ := sampleEngine
  req _ _ := sampleRequest
  upstream second := if second then some false else none
  parseAuthority := hostOnly

/-- The first server has a result. -/
def copiedStored (second : Bool) : String → Option Object :=
  if second then fun _ => none
  else Function.update (fun _ => none) (key sampleRef "") (some (objectOf copiedBody .originLocal))

theorem copiedStored_latest : copiedStored false (key sampleRef "") =
    some (objectOf copiedBody .originLocal) := by
  rw [copiedStored, if_neg Bool.false_ne_true, Function.update_self]

theorem body_of_copiedStored {second : Bool} {k : String} {object : Object}
    (h : copiedStored second k = some object) : object.body = copiedBody := by
  cases second
  · by_cases hk : k = key sampleRef ""
    · rw [hk, copiedStored_latest] at h
      rw [← Option.some.inj h]
      rfl
    · rw [copiedStored, if_neg Bool.false_ne_true, Function.update_of_ne hk] at h
      cases h
  · cases h

theorem asks_sampleClient : AsksFor hostOnly sampleClient sampleRef := by
  have hread : requested hostOnly sampleClient sampleRef =
      some (.ok (sampleRef, Commit.latest)) := by decide +kernel
  exact hread

/-- The operations that are answered within a server. -/
def IsOwn (_ : Unit ⊕ Unit) (e : Event (CacheSig Unit)) : Prop :=
  (∀ ref commit, e.op ≠ .scan ref commit) ∧ ∀ url, e.op ≠ .get url

/-- Nothing has been scanned. -/
def ScansNothing {start : Unit ⊕ Unit → CacheProg Unit Reply}
    (cfg : Interaction.Config (Shared Unit) start) : Prop :=
  ∀ i ref commit x, ⟨.scan ref commit, x⟩ ∉ (cfg.thread i).trace

/-- The first server's request is answered from its bucket. -/
theorem exists_cached : ∃ d, Relation.ReflTransGen
    ((cacheWorld (R := Unit) (sampleWired none) fun _ => sampleRequest).constrain IsOwn).Step
      (.initial _ (.initial (copiedStored false))) d ∧
    (d.thread (.inl ())).Returned
      (.ok (.ready (provenanceFrom copiedResult .cached true) copiedBody)) ∧ ScansNothing d := by
  let s : Shared Unit := .initial (copiedStored false)
  have hread : Answer (R := Unit) (sampleWired none) (.inl ()) s
      ⟨.readAll (key sampleRef ""), .ok (objectOf copiedBody .originLocal).body⟩ s :=
    .read copiedStored_latest
  have hattrs : Answer (R := Unit) (sampleWired none) (.inl ()) s
      ⟨.attributes (key sampleRef ""), .ok (objectOf copiedBody .originLocal).origin⟩ s :=
    .attributes copiedStored_latest
  have hexec : Exec ((sampleWired none).getOrProduce (R := Unit) sampleRef "") _ _ :=
    exec_getOrProduce_fresh (source_objectOf_local copiedBody) fresh_copiedBody
  rw [cachedOutcome_copiedBody] at hexec
  obtain ⟨d, hsteps, -, htrace, hreturned, hothers⟩ := World.exists_run
    (W := (cacheWorld (R := Unit) (sampleWired none) fun _ => sampleRequest).constrain IsOwn)
    (c := .initial _ s) (i := .inl ()) hexec
    (.cons ⟨⟨nofun, nofun⟩, hread⟩ (.cons ⟨⟨nofun, nofun⟩, hattrs⟩
      (.cons ⟨⟨nofun, nofun⟩, .now _⟩ (.nil _ _))))
    rfl rfl rfl
  refine ⟨d, hsteps, hreturned _ rfl, ?_⟩
  rintro (r | r) ref commit x
  · have htrace : (d.thread (.inl r)).trace = _ := htrace
    rw [htrace]
    simp [Config.initial]
  · rw [hothers (.inr r) nofun]
    exact List.not_mem_nil

/-- The second server's request is answered with what its upstream gives. -/
theorem exists_fetched (c : twoServers.Configs)
    (hanswer : twoServers.Answers false (c false) (sampleClient.endpoint sampleRef)
      (.response 200 (.ok copiedBody))) : ∃ d, Relation.ReflTransGen
    ((cacheWorld (R := Unit) (sampleWired (some sampleClient)) fun _ => sampleRequest).constrain
      (twoServers.Hears c true)).Step (.initial _ (.initial (copiedStored true))) d ∧
    (d.thread (.inl ())).Returned
      (.ok (.ready (provenanceFrom copiedResult .upstream true) copiedBody)) ∧ ScansNothing d := by
  obtain ⟨d, hsteps, -, htrace, hreturned, hothers⟩ := World.exists_run
    (W := (cacheWorld (R := Unit) (sampleWired (some sampleClient))
      fun _ => sampleRequest).constrain (twoServers.Hears c true))
    (c := .initial _ (.initial (copiedStored true))) (i := .inl ())
    (exec_getOrProduce_upstream (o := sampleWired (some sampleClient)) rfl rfl fetch_copiedBody
      parse_copiedBody (by decide))
    (.cons ⟨.other nofun nofun, .readNone rfl⟩
      (.cons ⟨.answered rfl hanswer sampleDay.midnight, .get _ _⟩
        (.cons ⟨.other nofun nofun, .written _ _⟩
          (.cons ⟨.other nofun nofun, .written _ _⟩ (.nil _ _)))))
    rfl rfl rfl
  refine ⟨d, hsteps, hreturned _ rfl, ?_⟩
  rintro (r | r) ref commit x
  · have htrace : (d.thread (.inl r)).trace = _ := htrace
    rw [htrace]
    simp [Config.initial]
  · rw [hothers (.inr r) nofun]
    exact List.not_mem_nil

/-- The second server's request is answered with the body that the first one has stored. -/
theorem twoServers_serve : ∃ c : twoServers.Configs,
    twoServers.network.Reachable (fun k => .initial (copiedStored k)) c ∧
    ((c true).thread (.inl ())).Returned
      (.ok (.ready (provenanceFrom copiedResult .upstream true) copiedBody)) ∧
    twoServers.Obtained copiedStored c sampleRef copiedBody ∧
    ∃ parsed, (respond (.ok (.ready (provenanceFrom copiedResult .upstream true)
      copiedBody))).Describes parsed := by
  obtain ⟨d₁, hsteps₁, hreturned₁, hscans₁⟩ := exists_cached
  let c₁ : twoServers.Configs :=
    Function.update (twoServers.network.initial fun k => .initial (copiedStored k)) false d₁
  have hc₁ : twoServers.network.Reachable (fun k => .initial (copiedStored k)) c₁ :=
    Network.reflTransGen_update (N := twoServers.network) (P := IsOwn)
      (fun _ _ _ h => Servers.Hears.other h.1 h.2) hsteps₁
  have hfalse : c₁ false = d₁ := Function.update_self ..
  have hanswer := Servers.Answers.responded (n := twoServers) (l := false) (r := ())
    asks_sampleClient hreturned₁
  rw [← hfalse] at hanswer
  obtain ⟨d₂, hsteps₂, hreturned₂, hscans₂⟩ := exists_fetched c₁ hanswer
  let c₂ : twoServers.Configs := Function.update c₁ true d₂
  have hc₂ : twoServers.network.Reachable (fun k => .initial (copiedStored k)) c₂ :=
    hc₁.trans (Network.reflTransGen_update (N := twoServers.network)
      (fun d _ _ h => Servers.Hears.update h (by decide) d) hsteps₂)
  have hscans : ∀ k, ScansNothing (c₂ k) := by
    rintro (_ | _)
    · exact hscans₁
    · exact hscans₂
  have hnames : ∀ ref body, twoServers.Obtained copiedStored c₂ ref body → body = copiedBody := by
    intro ref body h
    induction h with
    | stored h => exact body_of_copiedStored h
    | scanned h => exact absurd h (hscans _ _ _ _ _)
    | @outside k _ _ _ _ hup hclient =>
      cases k
      · cases hclient
      · cases hup
    | cut h ih => rw [ih, cut_copiedBody]
  have htrue : ((c₂ true).thread (.inl ())).Returned _ := hreturned₂
  refine ⟨c₂, hc₂, htrue, network_serves twoServers copiedStored ?_ c₂ hc₂ ?_ true () _ htrue rfl⟩
  · intro k l client hup hclient r
    cases k
    · cases hup
    · obtain rfl := Option.some.inj hclient
      exact asks_sampleClient
  · intro ref body h parsed hparse
    rw [hnames ref body h, parse_copiedBody] at hparse
    obtain rfl := Except.ok.inj hparse
    exact sampleCommit.valid_sha

end ScorecardInfra.Cache
