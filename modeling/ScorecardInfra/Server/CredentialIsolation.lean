import ScorecardInfra.Interaction.Interleaving
import ScorecardInfra.Server.Publication

/-!
# Whose access token a request carries

Requests are handled in any order of their steps, by one process. They share the process-wide
default client: `getAndVerifyWorkflowContent` assigns its transport, and the lookups in the
transparency log and the purger send through it. The transport is never assigned back, so after one
request with an access token every other request of the process sends this token along, to Rekor and
the CDN too (`exists_not_isolated`).

A step is undisturbed if it does not use a transport that somebody else has assigned, and does not
send through the default client once the transport has been assigned at all (`Undisturbed`). In runs
of undisturbed steps every message carries no token or the token of its own request, the latter in
GitHub calls only, and a request's messages and response do not depend on the other requests
(`isolated_of_undisturbed`).

## Main definitions

* `Message`, `Sent`, `ServerState`, `Outside`, `apiServer`, `Undisturbed`, `Sent.Isolated`.

Sources: `api/app/server/post_results.go`, lines 215–233 and 352–420;
`api/app/server/github_transport.go`; `api/app/server/internal/cdn/cdn.go`, lines 47–64.
-/

namespace ScorecardInfra.Server

open GoStd Interaction

variable {L : Libraries}

/-! ### The process -/

/-- What a request sends. -/
inductive Message : Type
  | http (req : HttpRequest)
  | github (call : GithubCall)
  deriving DecidableEq, Repr

/-- A message, with the request in whose handling it is sent and the bearer token it carries. -/
structure Sent where
  request : Nat
  message : Message
  bearer : Option String
  deriving DecidableEq, Repr

/-- The token of the default client's transport, nil at first, and the messages sent so far. -/
structure ServerState where
  transport : Option String
  sent : List Sent
  deriving DecidableEq, Repr

/-- The state when the process starts. -/
def ServerState.initial : ServerState := ⟨none, []⟩

/-- How the outside answers a request, from what it has performed so far, the bearer token of the
message and the operation. -/
abbrev Outside : Type := Nat → Trace ApiSig → Option String → (o : ApiOp) → ApiSig.Ans o

/-- What an operation of the request `r` sends, if the default client's transport is `transport`.

Source: `api/app/server/github_transport.go`, lines 26–29. -/
def ApiOp.sent (r : Nat) (transport : Option String) : ApiOp → List Sent
  | send req => [⟨r, .http req, transport⟩]
  | github client call => [⟨r, .github call, client.token⟩]
  | _ => []

/-- The transport after an operation. -/
def ApiOp.transport (transport : Option String) : ApiOp → Option String
  | setTransport token => some token
  | _ => transport

/-- The answer to an operation. A client that is made takes over the transport, as it is. -/
def Outside.answer (E : Outside) (r : Nat) (past : Trace ApiSig) (transport : Option String) :
    (o : ApiOp) → ApiSig.Ans o
  | .setTransport _ => ()
  | .newGithubClient => ⟨transport⟩
  | .send req => E r past transport (.send req)
  | .github client call => E r past client.token (.github client call)
  | .bucket op => E r past none (.bucket op)
  | .getenv name => E r past none (.getenv name)
  | .range n => E r past none (.range n)

/-- The state after an operation. -/
def ServerState.after (r : Nat) (o : ApiOp) (s : ServerState) : ServerState :=
  ⟨o.transport s.transport, s.sent ++ o.sent r s.transport⟩

/-- The process that handles the requests. -/
def apiServer (L : Libraries) (E : Outside) (requests : Nat → PostRequest) :
    World ApiSig Nat ServerState PostResponse where
  start r := postResultsHandler L (requests r)
  answer r past s e s' := e.ans = E.answer r past s.transport e.op ∧ s' = s.after r e.op
  restarts _ := False
  surroundings _ _ := False

/-- The next operation of the request `r`, as the process performs it. -/
def Outside.perform (E : Outside) (r : Nat) (past : Trace ApiSig) (s : ServerState) (o : ApiOp) :
    Option (ApiSig.Ans o × ServerState) :=
  some (E.answer r past s.transport o, s.after r o)

/-! ### Isolation -/

/-- The access token of a request, if it has one. -/
def PostRequest.token (params : PostRequest) : Option String :=
  match params.publish with
  | none => none
  | some scorecardResult =>
    if scorecardResult.accessToken = "" then none else some scorecardResult.accessToken

/-- The message carries no token, or is a GitHub call with the token of its own request. -/
def Sent.Isolated (requests : Nat → PostRequest) (m : Sent) : Prop :=
  m.bearer = none ∨
    (∃ call, m.message = .github call) ∧ m.bearer = (requests m.request).token

/-- The step that comes next is not disturbed: it does not send with the default client once its
transport has been assigned, and does not make a GitHub client from another request's transport. -/
def Undisturbed (requests : Nat → PostRequest) (r : Nat) (_past : Trace ApiSig) (s : ServerState) :
    ApiOp → Prop
  | .send _ => s.transport = none
  | .newGithubClient => s.transport = (requests r).token
  | _ => True

instance (requests : Nat → PostRequest) (r : Nat) (past : Trace ApiSig) (s : ServerState) :
    DecidablePred (Undisturbed requests r past s)
  | .send _ => inferInstanceAs (Decidable (s.transport = none))
  | .newGithubClient => inferInstanceAs (Decidable (s.transport = (requests r).token))
  | .setTransport _ | .github _ _ | .bucket _ | .getenv _ | .range _ =>
    inferInstanceAs (Decidable True)

/-- The messages of one request. -/
def ServerState.sentBy (r : Nat) (s : ServerState) : List Sent := s.sent.filter (·.request = r)

/-! ### The client of a request -/

/-- Follows the GitHub client that a request has made; calls go through this client. -/
def clientMonitor : Monitor ApiSig (Option GithubClient) where
  allows g
    | .github client _ => g = some client
    | _ => True
  next g
    | ⟨.newGithubClient, client⟩ => some client
    | _ => g

theorem clientMonitor_next {g : Option GithubClient} :
    {o : ApiOp} → (x : ApiSig.Ans o) → o ≠ .newGithubClient → clientMonitor.next g ⟨o, x⟩ = g
  | .newGithubClient, _, h => absurd rfl h
  | .setTransport _, _, _ | .send _, _, _ | .github _ _, _, _ | .bucket _, _, _ | .getenv _, _, _
  | .range _, _, _ => rfl

/-- The client of a state was the answer when it was made. -/
theorem mem_of_clientMonitor_after {client : GithubClient} :
    (t : Trace ApiSig) → (g : Option GithubClient) → clientMonitor.after g t = some client →
      g = some client ∨ ⟨.newGithubClient, client⟩ ∈ t
  | [], _, h => Or.inl h
  | ⟨o, x⟩ :: t, g, h => by
    rcases mem_of_clientMonitor_after t _ h with h' | h'
    · by_cases ho : o = .newGithubClient
      · subst ho
        rw [← Option.some.inj h']
        exact Or.inr List.mem_cons_self
      · rw [clientMonitor_next x ho] at h'
        exact Or.inl h'
    · exact Or.inr (List.mem_cons_of_mem _ h')

/-- Operations that do not depend on the client. -/
theorem ensures_of_performs {α : Type} {P : ApiOp → Prop} {x : Api α} {g : Option GithubClient}
    (hx : x.run.Performs P) (h : ∀ o, P o → clientMonitor.allows g o ∧ o ≠ .newGithubClient) :
    Ensures clientMonitor g x (fun _ g' => g' = g) fun _ _ => True := by
  refine (hx.ensures (I := (· = g)) ?_ rfl).mono (fun _ _ h => h) fun _ _ _ => trivial
  rintro o _ ho rfl
  exact ⟨(h o ho).1, fun y => clientMonitor_next y (h o ho).2⟩

/-- A request calls GitHub through the client that it has made. -/
theorem ensures_getAndVerifyWorkflowContent (scorecardResult : VerifiedScorecardResult)
    (info : CertInfo) (g : Option GithubClient) :
    Ensures clientMonitor g (getAndVerifyWorkflowContent L scorecardResult info) (fun _ _ => True)
      fun _ _ => True := by
  have htoken : (useAccessToken scorecardResult.accessToken).run.Performs
      fun o : ApiOp => ∃ token, o = .setTransport token := performs_useAccessToken fun _ => ⟨_, rfl⟩
  refine (ensures_of_performs (g := g) htoken ?_).bind fun _ g _ => ?_
  · rintro o ⟨token, rfl⟩
    exact ⟨trivial, nofun⟩
  have hclient : Ensures clientMonitor g (performApi .newGithubClient)
      (fun client g' => g' = some client) fun _ _ => True := ensures_perform trivial fun _ => rfl
  refine hclient.bind ?_
  rintro client g' rfl
  refine (ensures_of_performs (performs_verifyContentWith client scorecardResult info) ?_).mono
    (fun _ _ _ => trivial) fun _ _ h => h
  rintro (_ | _ | _ | _ | _ | _ | _) ho
  all_goals first
    | exact ho.elim
    | exact ⟨trivial, nofun⟩
    | exact ⟨congrArg some ho.symm, nofun⟩

theorem ensures_verifyRequest (org repo : String) (scorecardResult : VerifiedScorecardResult) :
    Ensures clientMonitor none (verifyRequest L org repo scorecardResult) (fun _ _ => True)
      fun _ _ => True := by
  have hcert := performs_extractAndVerifyCertForPayload (L := L) scorecardResult.result
    scorecardResult.tlogIndex
  refine (ensures_annotate (ensures_of_performs hcert ?_)).bind fun cert g _ => ?_
  · rintro (_ | _ | _ | _ | _ | _ | _) ho
    all_goals first
      | exact ho.elim
      | exact ⟨trivial, nofun⟩
  refine (ensures_ofExcept (Q := fun _ _ => True) (fun _ _ => trivial) fun _ _ => trivial).bind
    fun info g _ => ?_
  refine (ensures_failIf (Q := fun _ _ => True) (fun _ => trivial) fun _ => trivial).bind
    fun _ g _ => ?_
  exact (ensures_annotate (ensures_getAndVerifyWorkflowContent _ _ _)).bind
    fun _ _ _ => ensures_pure trivial

theorem ensures_handleRequest (L : Libraries) (params : PostRequest) :
    Ensures clientMonitor none (handleRequest L params) (fun _ _ => True) fun _ _ => True := by
  unfold handleRequest
  cases params.publish with
  | none => exact ensures_crash trivial
  | some scorecardResult =>
    refine (ensures_verifyRequest _ _ _).bind fun info g _ => ?_
    refine (ensures_of_performs (performs_publishResult _ _ _ info _) ?_).mono
      (fun _ _ _ => trivial) fun _ _ h => h
    rintro (_ | _ | _ | _ | _ | _ | _) ho
    all_goals first
      | exact ho.elim
      | exact ⟨trivial, nofun⟩

theorem safe_postResultsHandler (L : Libraries) (params : PostRequest) :
    (postResultsHandler L params).Safe clientMonitor (fun _ _ => True) none := by
  rw [postResultsHandler, map_eq_pure_bind]
  exact Prog.Safe.bind (ensures_handleRequest L params) fun _ _ _ => trivial

/-! ### Undisturbed runs -/

/-- How a request is answered when nobody disturbs it. -/
def Outside.alone (E : Outside) (params : PostRequest) (r : Nat) (past : Trace ApiSig) :
    (o : ApiOp) → ApiSig.Ans o
  | .newGithubClient => ⟨params.token⟩
  | .send req => E r past none (.send req)
  | o => E.answer r past none o

/-- What an operation sends when nobody disturbs its request. -/
abbrev sentAlone (r : Nat) (t : Trace ApiSig) : List Sent := t.flatMap fun e => e.op.sent r none

section Undisturbed

variable {E : Outside} {requests : Nat → PostRequest}
  {c : Config ServerState fun r => postResultsHandler L (requests r)}

/-- A request is answered as if it were alone. -/
theorem follows_alone
    (hc : ((apiServer L E requests).restrict (Undisturbed requests)).Reachable .initial c)
    (r : Nat) :
    Follows (fun past o => some (E.alone (requests r) r past o)) (c.thread r).trace := by
  refine hc.follows (f := fun r past o => some (E.alone (requests r) r past o)) ?_ r
  rintro i past s ⟨o, x⟩ s' ⟨hu, hx, -⟩
  refine congrArg some ?_
  rw [hx]
  cases o with
  | send req => exact congrArg (E i past · (.send req)) hu.symm
  | newGithubClient => exact congrArg GithubClient.mk hu.symm
  | _ => rfl

/-- A request sends what it would send if it were alone. -/
theorem sentBy_eq
    (hc : ((apiServer L E requests).restrict (Undisturbed requests)).Reachable .initial c) :
    ∀ r, c.shared.sentBy r = sentAlone r (c.thread r).trace := by
  refine hc.induct (I := fun c => ∀ r, c.shared.sentBy r = sentAlone r (c.thread r).trace)
    (fun _ => rfl) ?_
  rintro c c' ih (⟨i, hrest, x, s', hu, -, rfl⟩ | ⟨i, hi⟩ | ⟨s', hs⟩) r
  · rename_i o k
    have hsent : o.sent i c.shared.transport = o.sent i none := by
      cases o with
      | send req => exact congrArg (ApiOp.sent i · (.send req)) hu
      | _ => rfl
    have hown : ∀ m ∈ o.sent i none, m.request = i := by
      intro m hm
      cases o <;> simp_all [ApiOp.sent]
    have hafter : (c.shared.after i o).sentBy r =
        c.shared.sentBy r ++ (o.sent i none).filter (·.request = r) := by
      rw [ServerState.sentBy, ServerState.after, List.filter_append, hsent]
      rfl
    rw [hafter, ih r]
    by_cases hir : r = i
    · subst hir
      rw [List.filter_eq_self.mpr (by simpa using hown)]
      simp [sentAlone]
    · have hnone : (o.sent i none).filter (·.request = r) = [] := by
        rw [List.filter_eq_nil_iff]
        intro m hm
        rw [decide_eq_true_eq, hown m hm]
        exact fun h => hir h.symm
      simp [hnone, hir]
  · exact hi.elim
  · exact hs.elim

/-- A request calls GitHub with its own token. -/
theorem client_eq_own
    (hc : ((apiServer L E requests).restrict (Undisturbed requests)).Reachable .initial c) {r : Nat}
    {client : GithubClient} {call : GithubCall} {x : ApiSig.Ans (.github client call)}
    (he : ⟨.github client call, x⟩ ∈ (c.thread r).trace) : client = ⟨(requests r).token⟩ := by
  obtain ⟨pre, post, htrace⟩ := List.append_of_mem he
  have hexec := (c.thread r).leads.exec (.cut _)
  rw [htrace, List.append_assoc, List.cons_append] at hexec
  have hclient := hexec.allows (safe_postResultsHandler L (requests r))
  have hmade : ⟨.newGithubClient, client⟩ ∈ pre :=
    (mem_of_clientMonitor_after pre none hclient).resolve_left nofun
  obtain ⟨past, heq⟩ := (follows_alone hc r).exists_eq
    (htrace ▸ List.mem_append_left _ hmade)
  exact (Option.some.inj heq).symm

/-- Every message is isolated. -/
theorem isolated_of_mem_sent
    (hc : ((apiServer L E requests).restrict (Undisturbed requests)).Reachable .initial c)
    {m : Sent}
    (hm : m ∈ c.shared.sent) : m.Isolated requests := by
  have hown : m ∈ c.shared.sentBy m.request := List.mem_filter.mpr ⟨hm, by simp⟩
  rw [sentBy_eq hc, List.mem_flatMap] at hown
  obtain ⟨⟨o, x⟩, he, hm⟩ := hown
  cases o with
  | send req =>
    rw [List.mem_singleton.mp hm]
    exact Or.inl rfl
  | github client call =>
    rw [client_eq_own hc he] at hm
    exact Or.inr ⟨⟨call, by rw [List.mem_singleton.mp hm]⟩, by rw [List.mem_singleton.mp hm]⟩
  | _ => exact absurd hm List.not_mem_nil

end Undisturbed

/-- The request `r` goes the same way in two configurations: the messages of one are the first
messages of the other, and once it has responded in both the messages and responses are equal. -/
def SameOutcome {start start' : Nat → Prog ApiSig PostResponse} (r : Nat)
    (c : Config ServerState start) (c' : Config ServerState start') : Prop :=
  (c.shared.sentBy r <+: c'.shared.sentBy r ∨ c'.shared.sentBy r <+: c.shared.sentBy r) ∧
    ∀ response response', (c.thread r).Returned response → (c'.thread r).Returned response' →
      c.shared.sentBy r = c'.shared.sentBy r ∧ response = response'

/-- **Credential isolation of undisturbed runs.** In every run of undisturbed steps each message
carries no token, or is a GitHub call with its own request's token; and in any two such runs that
agree on the request `r`, whatever the other requests are, `r` sends the same messages and gets the
same response. -/
theorem isolated_of_undisturbed (L : Libraries) (E : Outside) (requests : Nat → PostRequest)
    (c : Config ServerState fun r => postResultsHandler L (requests r))
    (hc : ((apiServer L E requests).restrict (Undisturbed requests)).Reachable .initial c) :
    (∀ m ∈ c.shared.sent, m.Isolated requests) ∧
    ∀ (r : Nat) (requests' : Nat → PostRequest), requests' r = requests r →
      ∀ c', ((apiServer L E requests').restrict (Undisturbed requests')).Reachable .initial c' →
        SameOutcome r c c' := by
  refine ⟨fun m hm => isolated_of_mem_sent hc hm, fun r requests' hr c' hc' => ?_⟩
  have hrun := (c.thread r).leads.runWith_eq (follows_alone hc r)
  have hrun' := (c'.thread r).leads.runWith_eq (follows_alone hc' r)
  change (postResultsHandler L (requests' r)).runWith _ _ = _ at hrun'
  rw [hr] at hrun'
  obtain ⟨htrace, hresponse⟩ := Prod.mk.inj (hrun.symm.trans hrun')
  rw [SameOutcome, sentBy_eq hc, sentBy_eq hc']
  constructor
  · have hinitial : (c.thread r).trace <+: (c'.thread r).trace ∨
        (c'.thread r).trace <+: (c.thread r).trace :=
      List.prefix_or_prefix_of_prefix ⟨_, htrace⟩ (List.prefix_append _ _)
    refine hinitial.imp ?_ ?_
    · rintro ⟨rest, h⟩
      exact ⟨_, by rw [← h, sentAlone, sentAlone, List.flatMap_append]⟩
    · rintro ⟨rest, h⟩
      exact ⟨_, by rw [← h, sentAlone, sentAlone, List.flatMap_append]⟩
  · intro response response' hret hret'
    rw [Thread.Returned] at hret hret'
    rw [hret, hret', Prog.runWith, Prog.runWith, List.append_nil, List.append_nil] at htrace
    rw [hret, hret', Prog.runWith, Prog.runWith] at hresponse
    exact ⟨congrArg _ htrace, Option.some.inj hresponse⟩

/-! ### Two requests -/

/-- The sample request, first with an access token and then without one. -/
def sampleRequests (accessToken : String) (r : Nat) : PostRequest where
  platform := "github.com"
  org := "org"
  repo := "repo"
  publish := some { sampleResult with accessToken := if r = 0 then accessToken else "" }

/-- The outside of the sample requests. -/
def sampleOutside : Outside := fun _ _ _ => sampleAnswer

/-- A schedule of the sample requests, of which only undisturbed steps are taken. -/
def undisturbedRun (accessToken : String) (schedule : List Nat) :
    Config ServerState fun r => postResultsHandler sampleLibraries (sampleRequests accessToken r) :=
  schedule.foldl (Config.perform fun r past s o =>
    if Undisturbed (sampleRequests accessToken) r past s o then sampleOutside.perform r past s o
    else none) (.initial _ .initial)

theorem reachable_undisturbedRun (accessToken : String) (schedule : List Nat) :
    ((apiServer sampleLibraries sampleOutside (sampleRequests accessToken)).restrict
      (Undisturbed (sampleRequests accessToken))).Reachable .initial
        (undisturbedRun accessToken schedule) := by
  refine World.reachable_schedule _ ?_ schedule .refl
  intro r past s o x s' h
  split_ifs at h with hu
  obtain ⟨rfl, rfl⟩ := Prod.mk.inj (Option.some.inj h)
  exact ⟨hu, rfl, rfl⟩

/-- The second request looks its entry up before the first one assigns its token. -/
theorem undisturbedRun_isolated :
    ((undisturbedRun "tok" [1, 0, 0, 0, 0, 0]).shared.sent.map (·.bearer) =
      [none, none, some "tok"] ∧
      ∀ m ∈ (undisturbedRun "tok" [1, 0, 0, 0, 0, 0]).shared.sent,
        m.Isolated (sampleRequests "tok")) ∧
    SameOutcome 1 (undisturbedRun "tok" [1, 0, 0, 0, 0, 0])
      (undisturbedRun "other" [1, 0, 0, 0, 0, 0]) := by
  have h := isolated_of_undisturbed sampleLibraries sampleOutside (sampleRequests "tok") _
    (reachable_undisturbedRun "tok" [1, 0, 0, 0, 0, 0])
  exact ⟨⟨rfl, h.1⟩, h.2 1 (sampleRequests "other") rfl _ (reachable_undisturbedRun _ _)⟩

/-- In the other order its lookup carries the first one's token. -/
theorem exists_not_isolated : ¬∀ (L : Libraries) (E : Outside) (requests : Nat → PostRequest)
    (c : Config ServerState fun r => postResultsHandler L (requests r)),
    (apiServer L E requests).Reachable .initial c → ∀ m ∈ c.shared.sent, m.Isolated requests := by
  intro h
  have hperform : ∀ r past s o x s', sampleOutside.perform r past s o = some (x, s') →
      (apiServer sampleLibraries sampleOutside (sampleRequests "tok")).answer r past s
        ⟨o, x⟩ s' := by
    intro r past s o x s' h
    obtain ⟨rfl, rfl⟩ := Prod.mk.inj (Option.some.inj h)
    exact ⟨rfl, rfl⟩
  have hreach := World.reachable_schedule _ hperform [0, 0, 0, 1]
    (World.reachable_initial _ .initial)
  have hlast := h _ _ _ _ hreach
    ⟨1, .http (entryRequest (logEntries ++ "?logIndex=" ++ toString (1 : Int))), some "tok"⟩
    (List.mem_of_getElem? (i := 1) rfl)
  rcases hlast with hnone | ⟨⟨call, hcall⟩, -⟩
  · cases hnone
  · cases hcall

end ScorecardInfra.Server
