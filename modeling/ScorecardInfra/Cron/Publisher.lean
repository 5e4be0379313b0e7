import ScorecardInfra.Cron.CsvIterator
import ScorecardInfra.Interaction.Interleaving

/-!
# The publisher

`Publish` sends each message in a goroutine of its own, which counts a failure; `Close` waits for
them and returns an error if one was counted. The controller and the goroutines are the threads of a
world over the topic (`Topic`).

The requests that the controller publishes are the blocks of `shardSize` data rows, in order and
numbered from 0 (`ensures_publications`). If it returns the number of the last one, each of them has
been sent once, and a failed send makes it return an error (`sharding_loses_nothing`); the number is
right up to 2³¹ requests, which is what the type of a shard's number has.

## Main definitions

* `PubOp`, `publisherAnswer`, `sendMessage`, `Topic`, `topicWorld`.
* `Controller.shardRows`, `Controller.Messages`.

## Main results

* `Controller.ensures_publications`, `sharding_loses_nothing`.

Sources: `cron/internal/pubsub/publisher.go`, lines 69–104; `cron/internal/controller/main.go`,
lines 37–84.
-/

namespace ScorecardInfra.Cron

open GoStd Interaction

/-! ### What the controller publishes -/

namespace Controller

variable (ct : Controller)

/-- The rows of the request `i`. -/
def shardRows {α : Type} (rows : List α) (i : Nat) : List α :=
  (rows.drop (i * ct.reposPerShard)).take ct.reposPerShard

/-- The request `i` for these rows. -/
def shardRequest (rows : List RepoFormat) (i : Nat) : ScorecardBatchRequest :=
  ct.request ((ct.shardRows rows i).map toRepo) (Int32.ofNat i)

/-- The messages for these rows. -/
structure Messages (rows : List RepoFormat) (bodies : List String) : Prop where
  length : bodies.length = ct.numShards rows.length
  body : ∀ i body, bodies[i]? = some body → ct.requestCodec.marshal (ct.shardRequest rows i) =
    .ok body

variable {ct}

theorem length_shardRows {α : Type} {rows : List α} {i : Nat} :
    (ct.shardRows rows i).length = min ct.reposPerShard (rows.length - i * ct.reposPerShard) := by
  rw [shardRows, List.length_take, List.length_drop]

/-- No request is empty. -/
theorem shardRows_ne_nil {α : Type} {rows : List α} {i : Nat} (h : i < ct.numShards rows.length) :
    ct.shardRows rows i ≠ [] := by
  have hpos := ct.reposPerShard_pos
  have hlt : (i + 1) * ct.reposPerShard ≤ rows.length + ct.reposPerShard - 1 := by
    rwa [numShards, ← Nat.add_one_le_iff, Nat.le_div_iff_mul_le hpos] at h
  rw [Nat.succ_mul] at hlt
  refine List.ne_nil_of_length_pos ?_
  rw [length_shardRows]
  omega

/-- Full requests do not change when more rows are read. -/
theorem shardRows_append {α : Type} {rows : List α} {i : Nat} (rest : List α)
    (h : (i + 1) * ct.reposPerShard ≤ rows.length) :
    ct.shardRows (rows ++ rest) i = ct.shardRows rows i := by
  rw [Nat.succ_mul] at h
  rw [shardRows, List.drop_append_of_le_length (by omega), List.take_append_of_le_length]
  · rfl
  · rw [List.length_drop]
    omega

/-- **The requests together** have every row once, in order. -/
theorem flatMap_shardRows {α : Type} (rows : List α) :
    (List.range (ct.numShards rows.length)).flatMap (ct.shardRows rows) = rows := by
  have hpos := ct.reposPerShard_pos
  have hinitial : ∀ k, (List.range k).flatMap (ct.shardRows rows) =
      rows.take (k * ct.reposPerShard) := by
    intro k
    induction k with
    | zero => simp
    | succ k ih =>
      rw [List.range_succ, List.flatMap_append, ih, List.flatMap_singleton, Nat.succ_mul,
        List.take_add]
      rfl
  rw [hinitial, List.take_of_length_le]
  have hlt := Nat.lt_div_mul_add (a := rows.length + ct.reposPerShard - 1) hpos
  rw [numShards]
  omega

/-- The messages and the repositories of the next one, after some rows. -/
structure Progress (ct : Controller) (rows : List RepoFormat) (bodies : List String)
    (repos : List Repo) : Prop where
  repos_eq : repos = (rows.drop (bodies.length * ct.reposPerShard)).map toRepo
  length_eq : bodies.length * ct.reposPerShard + repos.length = rows.length
  lt : repos.length < ct.reposPerShard
  body : ∀ i body, bodies[i]? = some body → ct.requestCodec.marshal (ct.shardRequest rows i) =
    .ok body

variable {rows : List RepoFormat} {bodies : List String} {repos : List Repo} {body : String}
  {repoURL : RepoFormat}

theorem progress_nil (ct : Controller) : ct.Progress [] [] [] :=
  ⟨by simp, by simp, ct.reposPerShard_pos, by simp⟩

/-- Messages that are complete do not change. -/
theorem Progress.body_append (h : ct.Progress rows bodies repos) (i : Nat) (body : String)
    (hi : bodies[i]? = some body) :
    ct.requestCodec.marshal (ct.shardRequest (rows ++ [repoURL]) i) = .ok body := by
  obtain ⟨hlt, -⟩ := List.getElem?_eq_some_iff.mp hi
  have hle : (i + 1) * ct.reposPerShard ≤ rows.length :=
    (Nat.mul_le_mul_right _ hlt).trans (by have := h.length_eq; omega)
  rw [shardRequest, shardRows_append _ hle]
  exact h.body i body hi

/-- A row that does not fill the request. -/
theorem Progress.add (h : ct.Progress rows bodies repos)
    (hlt : repos.length + 1 < ct.reposPerShard) :
    ct.Progress (rows ++ [repoURL]) bodies (repos ++ [toRepo repoURL]) := by
  have hle : bodies.length * ct.reposPerShard ≤ rows.length := by
    have := h.length_eq
    omega
  refine ⟨?_, ?_, by simpa using hlt, fun i body => h.body_append i body⟩
  · rw [List.drop_append_of_le_length hle, List.map_append, ← h.repos_eq]
    rfl
  · have := h.length_eq
    simp only [List.length_append, List.length_singleton]
    omega

/-- The request that is published next. -/
theorem Progress.request_eq (h : ct.Progress rows bodies repos) :
    ct.request repos (Int32.ofNat bodies.length) = ct.shardRequest rows bodies.length := by
  have hlen := h.length_eq
  have hlt := h.lt
  rw [shardRequest, shardRows, List.take_of_length_le, ← h.repos_eq]
  rw [List.length_drop]
  omega

/-- A row that fills the request. -/
theorem Progress.request_full (h : ct.Progress rows bodies repos)
    (hfull : repos.length + 1 = ct.reposPerShard) :
    ct.request (repos ++ [toRepo repoURL]) (Int32.ofNat bodies.length) =
      ct.shardRequest (rows ++ [repoURL]) bodies.length := by
  have hlen := h.length_eq
  have hle : bodies.length * ct.reposPerShard ≤ rows.length := by omega
  rw [shardRequest, shardRows, List.take_of_length_le, List.drop_append_of_le_length hle,
    List.map_append,
    ← h.repos_eq]
  · rfl
  · simp only [List.length_drop, List.length_append, List.length_singleton]
    omega

theorem body_snoc {n : Nat} (hn : n = bodies.length)
    (h : ∀ i body, bodies[i]? = some body → ct.requestCodec.marshal (ct.shardRequest rows i) =
      .ok body)
    (hbody : ct.requestCodec.marshal (ct.shardRequest rows n) = .ok body) (i : Nat) (b : String)
    (hi : (bodies ++ [body])[i]? = some b) :
    ct.requestCodec.marshal (ct.shardRequest rows i) = .ok b := by
  rcases Nat.lt_trichotomy i bodies.length with hlt | rfl | hgt
  · rw [List.getElem?_append_left hlt] at hi
    exact h i b hi
  · rw [List.getElem?_concat_length] at hi
    obtain rfl := Option.some.inj hi
    exact hn ▸ hbody
  · rw [List.getElem?_eq_none (by rw [List.length_append]; exact hgt)] at hi
    cases hi

theorem Progress.publish (h : ct.Progress rows bodies repos)
    (hfull : repos.length + 1 = ct.reposPerShard)
    (hbody : ct.requestCodec.marshal (ct.shardRequest (rows ++ [repoURL]) bodies.length) =
      .ok body) :
    ct.Progress (rows ++ [repoURL]) (bodies ++ [body]) [] := by
  have hlen := h.length_eq
  refine ⟨?_, ?_, ct.reposPerShard_pos, body_snoc rfl (fun i body => h.body_append i body) hbody⟩
  · rw [List.drop_of_length_le, List.map_nil]
    simp only [List.length_append, List.length_singleton, Nat.succ_mul]
    omega
  · simp only [List.length_append, List.length_singleton, List.length_nil, Nat.succ_mul]
    omega

/-- The messages, if no repositories are left. -/
theorem Progress.messages (h : ct.Progress rows bodies []) : ct.Messages rows bodies :=
  ⟨by rw [numShards_eq h.lt h.length_eq]; rfl, h.body⟩

/-- The messages, with one for the repositories that are left. -/
theorem Progress.messages_snoc (h : ct.Progress rows bodies repos) (hpos : 0 < repos.length)
    (hbody : ct.requestCodec.marshal (ct.shardRequest rows bodies.length) = .ok body) :
    ct.Messages rows (bodies ++ [body]) :=
  ⟨by rw [numShards_eq h.lt h.length_eq, if_pos hpos, List.length_append]; rfl,
    body_snoc rfl h.body hbody⟩

/-- What has been published, and what `Close` has returned. -/
structure Publications where
  bodies : List String
  closed : Option (Except CronError Unit)

/-- Follows the publications of the controller. -/
def publications : Monitor BatchSig Publications where
  allows
    | g, .publish _ | g, .closePublisher => g.closed = none
    | _, _ => False
  next
    | g, ⟨.publish body, _⟩ => { g with bodies := g.bodies ++ [body] }
    | g, ⟨.closePublisher, closed⟩ => { g with closed := some closed }
    | g, _ => g

/-- Why publishing may fail: a row has no value, a request cannot be encoded, or `Close` fails. -/
def Fails (ct : Controller) (iter : List (Except CronError RepoFormat)) (g : Publications) : Prop :=
  (∃ e, .error e ∈ iter) ∨
    (∃ rows i e, List.map .ok rows <+: iter ∧ ct.shardRows rows i ≠ [] ∧
      ct.requestCodec.marshal (ct.shardRequest rows i) = .error e) ∨
    ∃ e, g.closed = some (.error e)

theorem ensures_publish_body {request : ScorecardBatchRequest}
    {E : Stop CronError → Publications → Prop}
    (hE : ∀ s e, ct.requestCodec.marshal request = .error e → E s ⟨bodies, none⟩) :
    Ensures publications ⟨bodies, none⟩
      (annotate (.wrapf "error running topicPublisher.Publish") (ct.publish request))
      (fun _ g => ∃ body, ct.requestCodec.marshal request = .ok body ∧ g = ⟨bodies ++ [body], none⟩)
      E := by
  refine ensures_annotate ?_
  rw [publish]
  cases hbody : ct.requestCodec.marshal request with
  | error e => exact hE _ e hbody
  | ok body => exact ensures_perform rfl fun _ => ⟨body, rfl, rfl⟩

/-- **The loop** publishes the full requests, and leaves the rest. -/
theorem ensures_publishLoop_bodies : (iter : List (Except CronError RepoFormat)) →
    (rows : List RepoFormat) → (bodies : List String) → (repos : List Repo) →
      ct.Progress rows bodies repos →
      Ensures publications ⟨bodies, none⟩ (ct.publishLoop iter repos (Int32.ofNat bodies.length))
        (fun r g => ∃ rows', List.map .ok rows ++ iter = List.map .ok rows' ∧ g.closed = none ∧
          ct.Progress rows' g.bodies r.1 ∧ r.2 = Int32.ofNat g.bodies.length)
        fun _ g => ct.Fails (List.map .ok rows ++ iter) g
  | [], rows, bodies, repos, h => ⟨rows, List.append_nil _, rfl, h, rfl⟩
  | .error e :: _, _, _, _, _ => Or.inl ⟨e, List.mem_append_right _ List.mem_cons_self⟩
  | .ok repoURL :: iter, rows, bodies, repos, h => by
    have hall : List.map .ok rows ++ .ok repoURL :: iter =
        List.map (Except.ok (ε := CronError)) (rows ++ [repoURL]) ++ iter := by simp
    rw [hall]
    change Ensures _ _ (if ((repos ++ [toRepo repoURL]).length : Int) < ct.shardSize then _ else _)
      _ _
    have hlen : (repos ++ [toRepo repoURL]).length = repos.length + 1 := List.length_append
    have hlt := h.lt
    split_ifs with hsize
    · refine ensures_publishLoop_bodies iter _ _ _ (h.add ?_)
      unfold reposPerShard
      omega
    · have hfull : repos.length + 1 = ct.reposPerShard := by
        unfold reposPerShard at hlt ⊢
        omega
      have hnonempty : ct.shardRows (rows ++ [repoURL]) bodies.length ≠ [] := by
        refine shardRows_ne_nil (lt_numShards (Nat.succ_pos repos.length) ?_)
        have hprogress := h.length_eq
        rw [List.length_append, List.length_singleton]
        omega
      rw [h.request_full hfull]
      refine (ensures_publish_body fun _ e he =>
        Or.inr (Or.inl ⟨_, _, e, List.prefix_append _ _, hnonempty, he⟩)).bind ?_
      rintro _ _ ⟨body, hbody, rfl⟩
      have hnum : Int32.ofNat bodies.length + 1 = Int32.ofNat (bodies ++ [body]).length := by
        rw [List.length_append]
        exact (Int32.ofNat_add bodies.length 1).symm
      rw [hnum]
      exact ensures_publishLoop_bodies iter _ _ _ (h.publish hfull hbody)

/-- **What is published**: the blocks of the rows that the iterator returns. -/
theorem ensures_publications (ct : Controller) (iter : List (Except CronError RepoFormat)) :
    Ensures publications ⟨[], none⟩ (ct.publishToRepoRequestTopic iter)
      (fun shardNum g => g.closed = some (.ok ()) ∧ shardNum + 1 = Int32.ofNat g.bodies.length ∧
        ∃ rows, iter = List.map .ok rows ∧ ct.Messages rows g.bodies)
      fun _ g => ct.Fails iter g := by
  refine (ensures_publishLoop_bodies iter [] [] [] (progress_nil ct)).bind ?_
  rintro ⟨repos, shardNum⟩ ⟨bodies, closed⟩ ⟨rows, hiter, hclosed, hprogress, hnum⟩
  obtain rfl : iter = List.map .ok rows := hiter
  obtain rfl : closed = none := hclosed
  obtain rfl : shardNum = Int32.ofNat bodies.length := hnum
  refine Ensures.bind (Q := fun shardNum g => g.closed = none ∧
    shardNum + 1 = Int32.ofNat g.bodies.length ∧ ct.Messages rows g.bodies) ?_ ?_
  · rw [publishRest]
    split_ifs with hpos
    · rw [hprogress.request_eq]
      refine (ensures_publish_body fun _ e he => Or.inr (Or.inl ⟨_, _, e, List.prefix_refl _,
        shardRows_ne_nil (lt_numShards hpos hprogress.length_eq.le), he⟩)).bind ?_
      rintro _ _ ⟨body, hbody, rfl⟩
      refine ⟨rfl, ?_, hprogress.messages_snoc hpos hbody⟩
      rw [List.length_append]
      exact (Int32.ofNat_add bodies.length 1).symm
    · obtain rfl : repos = [] := List.length_eq_zero_iff.mp (by omega)
      exact ⟨rfl, Int32.sub_add_cancel _ _, hprogress.messages⟩
  · rintro shardNum g ⟨hclosed, hnum, hmessages⟩
    refine ensures_perform_bind hclosed ?_
    rintro (e | _)
    · exact Or.inr (Or.inr ⟨e, rfl⟩)
    · exact ⟨rfl, hnum, rows, rfl, hmessages⟩

end Controller

/-! ### The publisher and its goroutines -/

/-- The operations of the controller and of the goroutines of its publisher. -/
inductive PubOp : Type
  /-- `wg.Add(1)` and `go`, with the message. -/
  | spawn (msg : String)
  /-- `wg.Wait()`. -/
  | wgWait
  /-- Read `totalErrors`. -/
  | loadErrors
  /-- Another operation of a batch program. -/
  | other (o : BatchOp)
  /-- A goroutine begins, with its message. -/
  | begin
  /-- `topic.Send`. -/
  | send (msg : String)
  /-- `atomic.AddUint64(&totalErrors, 1)`. -/
  | addError
  /-- `wg.Done()`. -/
  | wgDone
  deriving DecidableEq

/-- The operations with their answers. -/
abbrev PubSig : Signature where
  Op := PubOp
  Ans
    | .spawn _ | .wgWait | .addError | .wgDone => Unit
    | .loadErrors => UInt64
    | .other o => BatchSig.Ans o
    | .begin => String
    | .send _ => Except String Unit

/-- Programs of the threads. -/
abbrev Pub (α : Type) : Type := Fallible CronError (Prog PubSig) α

/-- Perform one operation. -/
def performPub (o : PubOp) : Pub (PubSig.Ans o) := Fallible.perform (S := PubSig) o

/-- `publishError`. -/
def publishError (count : UInt64) : CronError :=
  .text ("total errors when publishing: " ++ toString count.toNat)

/-- `Close`. -/
def publisherClose : Pub (Except CronError Unit) := do
  performPub .wgWait
  let totalErrors ← performPub .loadErrors
  return refuseIf (0 < totalErrors) (publishError totalErrors)

/-- The publisher, as an implementation of the operations that the controller uses. -/
def publisherAnswer : (o : BatchOp) → Unit → Pub (BatchSig.Ans o × Unit)
  | .publish msg, _ => do
    performPub (.spawn msg)
    return ((), ())
  | .closePublisher, _ => do
    let closed ← publisherClose
    return (closed, ())
  | o, _ => do
    let x ← performPub (.other o)
    return (x, ())

/-- The controller's thread; it returns the number of the last request. -/
def publishing (ct : Controller) (iter : List (Except CronError RepoFormat)) :
    Pub (Option Int32) := do
  let r ← handle publisherAnswer (ct.publishToRepoRequestTopic iter).run ()
  let shardNum ← Interaction.ofOutcome r.1
  return some shardNum

/-- A goroutine of `Publish`.

Source: `cron/internal/pubsub/publisher.go`, lines 82–94. -/
def sendMessage : Pub (Option Int32) := do
  let msg ← performPub .begin
  match ← performPub (.send msg) with
  | .error _ => performPub .addError
  | .ok () => pure ()
  performPub .wgDone
  return none

/-- What the threads share: the messages of the goroutines, which of these are alive, the wait
group, the sends that have succeeded and those that have failed, and the errors counted. -/
structure Topic where
  started : List String
  alive : List Nat
  wg : Int
  sent : List (Nat × String)
  failed : List Nat
  counted : List Nat
  totalErrors : UInt64

namespace Topic

/-- Nothing has been published. -/
def initial : Topic := ⟨[], [], 0, [], [], [], 0⟩

/-- A goroutine is started. -/
def spawn (q : Topic) (msg : String) : Topic :=
  { q with
    started := q.started ++ [msg]
    alive := q.alive ++ [q.started.length]
    wg := q.wg + 1 }

/-- An operation of the controller. -/
def Serves (q : Topic) : (o : PubOp) → PubSig.Ans o → Topic → Prop
  | .spawn msg, _, q' => q' = q.spawn msg
  | .wgWait, _, q' => q.wg = 0 ∧ q' = q
  | .loadErrors, totalErrors, q' => totalErrors = q.totalErrors ∧ q' = q
  | .other _, _, q' => q' = q
  | _, _, _ => False

/-- The result of a send. -/
def record (q : Topic) (i : Nat) (msg : String) : Except String Unit → Topic
  | .ok () => { q with sent := q.sent ++ [(i, msg)] }
  | .error _ => { q with failed := q.failed ++ [i] }

/-- A failure is counted. -/
def count (q : Topic) (i : Nat) : Topic :=
  { q with counted := q.counted ++ [i], totalErrors := q.totalErrors + 1 }

/-- A goroutine returns. -/
def finish (q : Topic) (i : Nat) : Topic := { q with alive := q.alive.erase i, wg := q.wg - 1 }

/-- An operation of the goroutine `i`. -/
def Goes (q : Topic) (i : Nat) : (o : PubOp) → PubSig.Ans o → Topic → Prop
  | .begin, msg, q' => q.started[i]? = some msg ∧ q' = q
  | .send msg, answer, q' => q' = q.record i msg answer
  | .addError, _, q' => q' = q.count i
  | .wgDone, _, q' => q' = q.finish i
  | _, _, _ => False

end Topic

/-- The controller, which is the thread `none`, and the goroutines. -/
def topicWorld (ct : Controller) (iter : List (Except CronError RepoFormat)) :
    World PubSig (Option Nat) Topic (Except (Stop CronError) (Option Int32)) where
  start
    | none => (publishing ct iter).run
    | some _ => sendMessage.run
  answer
    | none, _, q, ⟨o, x⟩, q' => q.Serves o x q'
    | some i, _, q, ⟨o, x⟩, q' => q.Goes i o x q'
  restarts _ := False
  surroundings _ _ := False

/-! ### The controller's thread -/

/-- How far the controller is with `Close`. -/
inductive Closing : Type
  | publishing
  | waited
  | loaded (totalErrors : UInt64)
  deriving DecidableEq

/-- Follows the controller: the messages that it has published, and `Close`. -/
def controllerMonitor : Monitor PubSig (List String × Closing) where
  allows
    | g, .spawn _ | g, .wgWait => g.2 = .publishing
    | g, .loadErrors => g.2 = .waited
    | _, _ => False
  next
    | g, ⟨.spawn msg, _⟩ => (g.1 ++ [msg], g.2)
    | g, ⟨.wgWait, _⟩ => (g.1, .waited)
    | g, ⟨.loadErrors, totalErrors⟩ => (g.1, .loaded totalErrors)
    | g, _ => g

/-- What has been published, and the messages of the goroutines. -/
def Agree (g : Controller.Publications) (_ : Unit) (g' : List String × Closing) : Prop :=
  g'.1 = g.bodies ∧ match g.closed with
    | none => g'.2 = .publishing
    | some (.ok ()) => g'.2 = .loaded 0
    | some (.error _) => ∃ totalErrors, g'.2 = .loaded totalErrors ∧ totalErrors ≠ 0

theorem ensures_publisherClose {bodies : List String}
    {E : Stop CronError → List String × Closing → Prop} :
    Ensures controllerMonitor (bodies, .publishing) publisherClose
      (fun closed g => Agree ⟨bodies, some closed⟩ () g) E := by
  refine ensures_perform_bind rfl fun _ => ensures_perform_bind rfl fun totalErrors => ?_
  by_cases hzero : totalErrors = 0
  · subst hzero
    exact ⟨rfl, rfl⟩
  · have hpos : decide (0 < totalErrors) = true := decide_eq_true (UInt64.pos_iff_ne_zero.mpr hzero)
    rw [hpos]
    exact ⟨rfl, totalErrors, rfl, hzero⟩

/-- The publisher does what the controller asks for. -/
theorem ensures_publisherAnswer {E : Stop CronError → List String × Closing → Prop} (o : BatchOp)
    (g : Controller.Publications) (u : Unit) (g' : List String × Closing) (h : Agree g u g')
    (ho : Controller.publications.allows g o) :
    Ensures controllerMonitor g' (publisherAnswer o u)
      (fun p g' => Agree (Controller.publications.next g ⟨o, p.1⟩) p.2 g') E := by
  obtain ⟨bodies, closed⟩ := g
  obtain ⟨started, closing⟩ := g'
  obtain ⟨rfl, hclosing⟩ := h
  match o, ho with
  | .publish msg, ho =>
    obtain rfl : closed = none := ho
    obtain rfl : closing = .publishing := hclosing
    exact ensures_perform_bind rfl fun _ => ⟨rfl, rfl⟩
  | .closePublisher, ho =>
    obtain rfl : closed = none := ho
    obtain rfl : closing = .publishing := hclosing
    exact ensures_publisherClose.bind fun _ _ h => h

/-- **The controller's thread**: if it returns a number, all goroutines have been waited for, no
error has been counted, and the messages are the blocks of the rows. -/
theorem ensures_publishing (ct : Controller) (iter : List (Except CronError RepoFormat)) :
    Ensures controllerMonitor ([], .publishing) (publishing ct iter)
      (fun r g => g.2 = .loaded 0 ∧ ∃ shardNum rows, r = some shardNum ∧ iter = List.map .ok rows ∧
        shardNum + 1 = Int32.ofNat g.1.length ∧ ct.Messages rows g.1)
      fun _ g => ∃ p : Controller.Publications, ct.Fails iter p ∧ Agree p () g := by
  refine (ensures_handle Agree (fun o g u g' h ho => ensures_publisherAnswer o g u g' h ho) _ ()
    ⟨[], none⟩ _ (Controller.ensures_publications ct iter) ⟨rfl, rfl⟩).bind ?_
  rintro ⟨r, ⟨⟩⟩ ⟨started, closing⟩ ⟨g, hpost, hagree⟩
  cases r with
  | error s => exact ⟨g, hpost, hagree⟩
  | ok shardNum =>
    obtain ⟨hclosed, hnum, rows, hiter, hmessages⟩ := hpost
    obtain ⟨hstarted, hclosing⟩ := hagree
    rw [hclosed] at hclosing
    obtain rfl : started = g.bodies := hstarted
    exact ⟨hclosing, shardNum, rows, rfl, hiter, hnum, hmessages⟩

/-! ### The goroutines' threads -/

/-- Where a goroutine is. -/
inductive SendStage : Type
  | fresh
  | ready (msg : String)
  | delivered
  | failed
  | counted
  | finished (ok : Bool)
  deriving DecidableEq

namespace SendStage

/-- The message has been sent. -/
def Sent : SendStage → Prop
  | delivered | finished true => True
  | fresh | ready _ | failed | counted | finished false => False

/-- The send has failed. -/
def Failed : SendStage → Prop
  | failed | counted | finished false => True
  | fresh | ready _ | delivered | finished true => False

/-- The failure has been counted. -/
def Counted : SendStage → Prop
  | counted | finished false => True
  | fresh | ready _ | delivered | failed | finished true => False

/-- The stage after an operation. -/
def after (stage : SendStage) : (o : PubOp) → PubSig.Ans o → SendStage
  | .begin, msg => ready msg
  | .send _, .ok () => delivered
  | .send _, .error _ => failed
  | .addError, _ => counted
  | .wgDone, _ => match stage with
    | delivered => finished true
    | _ => finished false
  | .spawn _, _ | .wgWait, _ | .loadErrors, _ | .other _, _ => stage

/-- The operations of a goroutine in its stages. -/
def Allows : SendStage → PubOp → Prop
  | fresh, .begin | failed, .addError | delivered, .wgDone | counted, .wgDone => True
  | ready msg, .send msg' => msg' = msg
  | _, _ => False

end SendStage

/-- Follows a goroutine. -/
def sendMonitor : Monitor PubSig SendStage where
  allows := SendStage.Allows
  next stage e := stage.after e.op e.ans

theorem ensures_sendMessage :
    Ensures sendMonitor .fresh sendMessage (fun _ _ => True) fun _ _ => True := by
  refine ensures_perform_bind trivial fun msg => ensures_perform_bind rfl ?_
  rintro (_ | _)
  · exact ensures_perform_bind trivial fun _ => ensures_perform_bind trivial fun _ => trivial
  · exact ensures_perform_bind trivial fun _ => trivial

/-! ### The invariant -/

/-- What holds of the shared state. -/
structure Topic.Sound (q : Topic) : Prop where
  wg : q.wg = q.alive.length
  sent : q.sent.Nodup
  counted : q.counted.Nodup
  totalErrors : q.totalErrors = UInt64.ofNat q.counted.length

/-- What the shared state has to do with a goroutine. -/
structure Topic.Knows (q : Topic) (i : Nat) (stage : SendStage) : Prop where
  alive : i < q.started.length → (∀ ok, stage ≠ .finished ok) → i ∈ q.alive
  lt : stage ≠ .fresh → i < q.started.length
  ready : ∀ msg, stage = .ready msg → q.started[i]? = some msg
  sent : ∀ msg, (i, msg) ∈ q.sent ↔ stage.Sent ∧ q.started[i]? = some msg
  failed : i ∈ q.failed ↔ stage.Failed
  counted : i ∈ q.counted ↔ stage.Counted

namespace Topic

variable {q : Topic} {stage : SendStage} {i j : Nat} {msg : String}

theorem Sound.spawn (h : q.Sound) (msg : String) : (q.spawn msg).Sound := by
  refine ⟨?_, h.sent, h.counted, h.totalErrors⟩
  simp [Topic.spawn, h.wg]

/-- A new goroutine does not touch the others, and is alive itself. -/
theorem Knows.spawn (h : q.Knows i stage) (msg : String) : (q.spawn msg).Knows i stage := by
  have hstarted : i < q.started.length → (q.spawn msg).started[i]? = q.started[i]? := fun hlt =>
    List.getElem?_append_left hlt
  have hlen : (q.spawn msg).started.length = q.started.length + 1 := List.length_append
  refine ⟨fun hi hrun => ?_, fun hne => hlen ▸ Nat.lt_succ_of_lt (h.lt hne), fun msg' hready => ?_,
    fun msg' => ?_, h.failed, h.counted⟩
  · by_cases hlt : i < q.started.length
    · exact List.mem_append_left _ (h.alive hlt hrun)
    · obtain rfl : i = q.started.length := by omega
      exact List.mem_append_right _ List.mem_cons_self
  · rw [hstarted (h.lt (by rw [hready]; exact nofun))]
    exact h.ready msg' hready
  · show (i, msg') ∈ q.sent ↔ _
    rw [h.sent msg']
    refine and_congr_right fun hsent => ?_
    rw [hstarted (h.lt (by rintro rfl; exact hsent))]

/-- A step of the goroutine `i`: its stage before and after it, and the shared state after it. -/
inductive Takes (q : Topic) (i : Nat) : SendStage → SendStage → Topic → Prop
  | begin {msg : String} (h : q.started[i]? = some msg) : q.Takes i .fresh (.ready msg) q
  | deliver (msg : String) : q.Takes i (.ready msg) .delivered (q.record i msg (.ok ()))
  | fail (msg err : String) : q.Takes i (.ready msg) .failed (q.record i msg (.error err))
  | count : q.Takes i .failed .counted (q.count i)
  | finishDelivered : q.Takes i .delivered (.finished true) (q.finish i)
  | finishCounted : q.Takes i .counted (.finished false) (q.finish i)

/-- **What a goroutine can do** in each of its stages. -/
theorem takes_of_goes {q' : Topic} {o : PubOp} {x : PubSig.Ans o} (ho : stage.Allows o)
    (hgoes : q.Goes i o x q') : q.Takes i stage (stage.after o x) q' := by
  cases o with
  | begin =>
    cases stage with
    | fresh =>
      obtain ⟨hmsg, rfl⟩ := hgoes
      exact .begin hmsg
    | ready msg | delivered | failed | counted | finished ok => exact ho.elim
  | send msg =>
    cases stage with
    | ready msg' =>
      obtain rfl : msg = msg' := ho
      obtain rfl := hgoes
      cases x with
      | ok u => exact .deliver msg
      | error err => exact .fail msg err
    | fresh | delivered | failed | counted | finished ok => exact ho.elim
  | addError =>
    cases stage with
    | failed =>
      obtain rfl := hgoes
      exact .count
    | fresh | ready msg | delivered | counted | finished ok => exact ho.elim
  | wgDone =>
    obtain rfl := hgoes
    cases stage with
    | delivered => exact .finishDelivered
    | counted => exact .finishCounted
    | fresh | ready msg | failed | finished ok => exact ho.elim
  | spawn msg | wgWait | loadErrors | other o => exact hgoes.elim

/-- The goroutine that does something is alive. -/
theorem Knows.mem_alive {q' : Topic} {stage' : SendStage} (h : q.Knows i stage)
    (htakes : q.Takes i stage stage' q') : i ∈ q.alive := by
  cases htakes with
  | begin hmsg =>
    obtain ⟨hlt, -⟩ := List.getElem?_eq_some_iff.mp hmsg
    exact h.alive hlt nofun
  | deliver | fail | count | finishDelivered | finishCounted => exact h.alive (h.lt nofun) nofun

theorem nodup_snoc {β : Type} {l : List β} {b : β} (hl : l.Nodup) (hb : b ∉ l) :
    (l ++ [b]).Nodup := by
  rw [← List.concat_eq_append]
  exact List.Nodup.concat hb hl

/-- The other goroutines do not notice. -/
theorem Knows.record (h : q.Knows j stage) (hij : j ≠ i) (answer : Except String Unit) :
    (q.record i msg answer).Knows j stage := by
  rcases answer with _ | _
  · exact ⟨h.alive, h.lt, h.ready, h.sent, by simpa [Topic.record, hij] using h.failed, h.counted⟩
  · exact ⟨h.alive, h.lt, h.ready, by simpa [Topic.record, hij] using h.sent, h.failed, h.counted⟩

theorem Knows.count (h : q.Knows j stage) (hij : j ≠ i) : (q.count i).Knows j stage :=
  ⟨h.alive, h.lt, h.ready, h.sent, h.failed, by simpa [Topic.count, hij] using h.counted⟩

theorem Knows.finish (h : q.Knows j stage) (hij : j ≠ i) : (q.finish i).Knows j stage :=
  ⟨fun hj hrun => (List.mem_erase_of_ne hij).mpr (h.alive hj hrun), h.lt, h.ready, h.sent, h.failed,
    h.counted⟩

theorem Sound.finish (h : q.Sound) (hi : i ∈ q.alive) : (q.finish i).Sound := by
  refine ⟨?_, h.sent, h.counted, h.totalErrors⟩
  have hlen := List.length_erase_of_mem hi
  have hpos := List.length_pos_of_mem hi
  have hwg := h.wg
  simp only [Topic.finish]
  omega

/-- **A step of a goroutine** keeps the shared state sound, and what is known of each of them. -/
theorem Sound.takes {q' : Topic} {stage' : SendStage} (h : q.Sound) (hi : q.Knows i stage)
    (htakes : q.Takes i stage stage' q') :
    q'.Sound ∧ q'.Knows i stage' ∧ q'.started = q.started ∧
      ∀ j stage, j ≠ i → q.Knows j stage → q'.Knows j stage := by
  have halive := hi.mem_alive htakes
  cases htakes with
  | begin hmsg =>
    obtain ⟨hlt, -⟩ := List.getElem?_eq_some_iff.mp hmsg
    refine ⟨h, ⟨fun _ _ => halive, fun _ => hlt, ?_, hi.sent, hi.failed, hi.counted⟩, rfl,
      fun _ _ _ hj => hj⟩
    rintro msg' hready
    obtain rfl := SendStage.ready.inj hready
    exact hmsg
  | deliver msg =>
    have hmsg := hi.ready _ rfl
    have hnew : ∀ msg', (i, msg') ∉ q.sent := fun msg' h => ((hi.sent msg').mp h).1
    refine ⟨⟨h.wg, nodup_snoc h.sent (hnew _), h.counted, h.totalErrors⟩,
      ⟨fun _ _ => halive, fun _ => hi.lt nofun, nofun, fun msg' => ?_, hi.failed, hi.counted⟩, rfl,
      fun _ _ hij hj => hj.record hij _⟩
    simp [Topic.record, hnew, hmsg, SendStage.Sent, eq_comm]
  | fail msg err =>
    refine ⟨⟨h.wg, h.sent, h.counted, h.totalErrors⟩,
      ⟨fun _ _ => halive, fun _ => hi.lt nofun, nofun, hi.sent, ?_, hi.counted⟩, rfl,
      fun _ _ hij hj => hj.record hij _⟩
    simp [Topic.record, SendStage.Failed]
  | count =>
    refine ⟨⟨h.wg, h.sent, nodup_snoc h.counted hi.counted.mp, ?_⟩,
      ⟨fun _ _ => halive, fun _ => hi.lt nofun, nofun, hi.sent, hi.failed, ?_⟩, rfl,
      fun _ _ hij hj => hj.count hij⟩
    · rw [Topic.count, h.totalErrors, List.length_append]
      exact (UInt64.ofNat_add q.counted.length 1).symm
    · simp [Topic.count, SendStage.Counted]
  | finishDelivered | finishCounted =>
    exact ⟨h.finish halive,
      ⟨fun _ hrun => absurd rfl (hrun _), fun _ => hi.lt nofun, nofun, hi.sent, hi.failed,
        hi.counted⟩, rfl, fun _ _ hij hj => hj.finish hij⟩

/-- What the shared state has to do with the controller. -/
structure Linked (q : Topic) (g : List String × Closing) : Prop where
  started : q.started = g.1
  waited : g.2 ≠ .publishing → q.alive = []
  loaded : ∀ n, g.2 = .loaded n → q.totalErrors = n

/-- **An operation of the controller.** -/
theorem Linked.serves {q' : Topic} {g : List String × Closing} {o : PubOp} {x : PubSig.Ans o}
    (h : q.Linked g) (hsound : q.Sound) (ho : controllerMonitor.allows g o) (hx : q.Serves o x q') :
    q'.Linked (controllerMonitor.next g ⟨o, x⟩) ∧ q'.Sound ∧
      ∀ i stage, q.Knows i stage → q'.Knows i stage := by
  obtain ⟨started, closing⟩ := g
  match o, x, ho with
  | .spawn msg, _, ho =>
    obtain rfl : closing = .publishing := ho
    obtain rfl := hx
    exact ⟨⟨by rw [Topic.spawn, h.started]; rfl, fun hne => absurd rfl hne, nofun⟩,
      hsound.spawn msg,
      fun i stage hi => hi.spawn msg⟩
  | .wgWait, _, ho =>
    obtain rfl : closing = .publishing := ho
    obtain ⟨hwg, rfl⟩ := hx
    have hsum := hsound.wg
    exact ⟨⟨h.started, fun _ => List.length_eq_zero_iff.mp (by omega), nofun⟩, hsound,
      fun _ _ hi => hi⟩
  | .loadErrors, n, ho =>
    obtain rfl : closing = .waited := ho
    obtain ⟨rfl, rfl⟩ := hx
    refine ⟨⟨h.started, fun _ => h.waited nofun, fun n hn => ?_⟩, hsound, fun _ _ hi => hi⟩
    exact Closing.loaded.inj hn

end Topic

section World

variable {ct : Controller} {iter : List (Except CronError RepoFormat)}

/-- What is known in a configuration. -/
structure TopicInvariant (c : Config Topic (topicWorld ct iter).start) : Prop where
  sound : c.shared.Sound
  linked : c.shared.Linked (controllerMonitor.after ([], .publishing) (c.thread none).trace)
  goroutine : ∀ i, c.shared.Knows i (sendMonitor.after .fresh (c.thread (some i)).trace)

/-- The invariant holds in every reachable configuration. -/
theorem invariant_of_reachable_topic {c : Config Topic (topicWorld ct iter).start}
    (h : (topicWorld ct iter).Reachable .initial c) : TopicInvariant c := by
  have hinit : ∀ i, Topic.initial.Knows i .fresh := fun i =>
    ⟨nofun, fun hne => absurd rfl hne, nofun, fun msg => by simp [Topic.initial, SendStage.Sent],
      by simp [Topic.initial, SendStage.Failed], by simp [Topic.initial, SendStage.Counted]⟩
  refine h.induct ⟨⟨rfl, .nil, .nil, rfl⟩, ⟨rfl, fun _ => rfl, nofun⟩, hinit⟩ ?_
  rintro c c' ⟨hsound, hlinked, hgoroutine⟩ (⟨i, hrest, x, q', ha⟩ | ⟨i, hi⟩ | ⟨q', hq'⟩)
  · cases i with
    | none =>
      have hsafe := (c.thread none).safe (ensures_publishing ct iter)
      rw [hrest] at hsafe
      obtain ⟨hlinked', hsound', hothers⟩ := hlinked.serves hsound hsafe.1 ha
      refine ⟨hsound', ?_, fun i => ?_⟩
      · simpa [Monitor.after_append] using hlinked'
      · simpa using hothers i _ (hgoroutine i)
    | some i =>
      have hsafe := (c.thread (some i)).safe ensures_sendMessage
      rw [hrest] at hsafe
      have htakes := Topic.takes_of_goes hsafe.1 ha
      have halive := (hgoroutine i).mem_alive htakes
      obtain ⟨hsound', hown, hstarted, hothers⟩ := hsound.takes (hgoroutine i) htakes
      refine ⟨hsound', ?_, fun j => ?_⟩
      · have hpublishing : (controllerMonitor.after ([], .publishing) (c.thread none).trace).2 =
            .publishing := by
          by_contra hne
          rw [hlinked.waited hne] at halive
          exact List.not_mem_nil halive
        refine ⟨?_, ?_, ?_⟩
        · simpa [hstarted] using hlinked.started
        · simp [hpublishing]
        · simp [hpublishing]
      · by_cases hij : j = i
        · subst hij
          have hknows : q'.Knows j (sendMonitor.next _ ⟨_, x⟩) := hown
          simpa [Monitor.after_append] using hknows
        · simpa [hij] using hothers j _ hij (hgoroutine j)
  · exact hi.elim
  · exact hq'.elim

/-- When all goroutines have returned and no error is counted, every message has been sent once. -/
theorem TopicInvariant.sent {c : Config Topic (topicWorld ct iter).start} (h : TopicInvariant c)
    (halive : c.shared.alive = []) (hzero : c.shared.totalErrors = 0)
    (hlen : c.shared.started.length ≤ 2 ^ 31) :
    c.shared.failed = [] ∧ (c.shared.sent.map Prod.snd).Perm c.shared.started := by
  have hcounted : c.shared.counted = [] := by
    have hsub : c.shared.counted.length ≤ c.shared.started.length := by
      rw [← List.length_range (n := c.shared.started.length)]
      refine (List.subperm_of_subset h.sound.counted fun i hi => ?_).length_le
      refine List.mem_range.mpr ((h.goroutine i).lt fun hfresh => ?_)
      have hstage := (h.goroutine i).counted.mp hi
      rwa [hfresh] at hstage
    have herrors := congrArg UInt64.toNat (h.sound.totalErrors.symm.trans hzero)
    rw [UInt64.toNat_ofNat', UInt64.toNat_zero, Nat.mod_eq_of_lt (by omega)] at herrors
    exact List.length_eq_zero_iff.mp herrors
  have hstage : ∀ i, (sendMonitor.after .fresh (c.thread (some i)).trace).Failed → False := by
    intro i hfailed
    have hi := h.goroutine i
    generalize sendMonitor.after .fresh (c.thread (some i)).trace = stage at hfailed hi
    cases stage with
    | fresh | ready | delivered => exact hfailed
    | failed =>
      have := hi.alive (hi.lt nofun) nofun
      simp [halive] at this
    | counted =>
      have := hi.counted.mpr trivial
      simp [hcounted] at this
    | finished ok =>
      cases ok
      · have := hi.counted.mpr trivial
        simp [hcounted] at this
      · exact hfailed
  refine ⟨List.eq_nil_iff_forall_not_mem.mpr fun i hi => hstage i ((h.goroutine i).failed.mp hi),
    ?_⟩
  -- the sends are those of the goroutines, in some order
  have hmem : ∀ p, p ∈ c.shared.sent ↔ p ∈ c.shared.started.zipIdx.map Prod.swap := by
    rintro ⟨i, msg⟩
    rw [(h.goroutine i).sent msg]
    have hindex : (i, msg) ∈ c.shared.started.zipIdx.map Prod.swap ↔
        c.shared.started[i]? = some msg := by
      rw [← List.mem_zipIdx_iff_getElem? (x := (msg, i))]
      constructor
      · intro hp
        obtain ⟨p, hp, heq⟩ := List.mem_map.mp hp
        rwa [← Prod.swap_swap p, heq] at hp
      · exact fun hp => List.mem_map.mpr ⟨_, hp, rfl⟩
    rw [hindex]
    refine and_iff_right_of_imp fun hmsg => ?_
    obtain ⟨hlt, -⟩ := List.getElem?_eq_some_iff.mp hmsg
    have hi := h.goroutine i
    have hnot := hstage i
    generalize sendMonitor.after .fresh (c.thread (some i)).trace = stage at hnot hi
    cases stage with
    | fresh | ready =>
      have := hi.alive hlt nofun
      simp [halive] at this
    | delivered => exact trivial
    | failed | counted => exact (hnot trivial).elim
    | finished ok =>
      cases ok
      exacts [(hnot trivial).elim, trivial]
  have hnodup : (c.shared.started.zipIdx.map Prod.swap).Nodup := by
    refine List.Nodup.of_map Prod.fst ?_
    rw [List.map_map]
    have hrange : c.shared.started.zipIdx.map (Prod.fst ∘ Prod.swap) =
        List.range' 0 c.shared.started.length := List.zipIdx_map_snd 0 _
    rw [hrange]
    exact List.nodup_range'
  have hperm := ((List.perm_ext_iff_of_nodup h.sound.sent hnodup).mpr hmem).map Prod.snd
  rw [List.map_map] at hperm
  exact hperm.trans (List.Perm.of_eq (List.zipIdx_map_fst 0 _))

end World

/-- Rows whose values the nested iterator returns are valid. -/
theorem map_inContext_eq {m : RepoMakers} {context : String} : {rows : List CsvRow} →
    {values : List RepoFormat} →
      rows.map (fun row => inContext context (row.value m)) = List.map .ok values →
        rows.map (CsvRow.value m) = List.map .ok values
  | [], [], _ => rfl
  | row :: rows, value :: values, h => by
    obtain ⟨hrow, hrows⟩ := List.cons_eq_cons.mp h
    rw [List.map_cons, List.map_cons, inContext_eq_ok.mp hrow, map_inContext_eq hrows]

/-- The number of the last of at most 2³¹ requests. -/
theorem toInt_add_one {last : Int32} {k : Nat} (hk : k ≤ 2 ^ 31) (h : last + 1 = Int32.ofNat k) :
    last.toInt + 1 = k := by
  have hmod := congrArg Int32.toInt h
  have hlt := last.toInt_lt
  have hle := last.le_toInt
  have hsize : Int32.size = 2 ^ 32 := rfl
  rw [Int32.toInt_add, Int32.toInt_ofNat', Int32.toInt_one, hsize, Int.bmod_def,
    Int.bmod_def] at hmod
  split_ifs at hmod <;> omega

/-- **Sharding loses and duplicates nothing.** Let the controller read CSV files with at most as
many rows as make 2³¹ requests. If it returns the number of its last request, no send has failed,
all data rows are valid, and the messages sent are those of the blocks of the rows, each once. -/
theorem sharding_loses_nothing (ct : Controller) (m : RepoMakers) (files : List (List CsvRow))
    (hk : ct.numShards (files.flatMap dataRows).length ≤ 2 ^ 31)
    (c : Config Topic (topicWorld ct ((NestedIterator.new files).drain m)).start)
    (h : (topicWorld ct ((NestedIterator.new files).drain m)).Reachable .initial c) (last : Int32)
    (hret : (c.thread none).Returned (.ok (some last))) :
    c.shared.failed = [] ∧ ∃ (rows : List RepoFormat) (bodies : List String),
      (files.flatMap dataRows).map (CsvRow.value m) = List.map .ok rows ∧
      last.toInt + 1 = bodies.length ∧ bodies.length = ct.numShards rows.length ∧
      (∀ i body, bodies[i]? = some body →
        ct.requestCodec.marshal (ct.shardRequest rows i) = .ok body ∧
        (ct.shardRequest rows i).getShardNum.toInt = i ∧ ct.shardRows rows i ≠ []) ∧
      (List.range bodies.length).flatMap (ct.shardRows rows) = rows ∧
      (c.shared.sent.map Prod.snd).Perm bodies := by
  have hinv := invariant_of_reachable_topic h
  have hsafe := (c.thread none).safe (ensures_publishing ct ((NestedIterator.new files).drain m))
  rw [show (c.thread none).rest = .ret (.ok (some last)) from hret] at hsafe
  obtain ⟨hloaded, shardNum, rows, hlast, hiter, hnum, hmessages⟩ := hsafe
  obtain rfl := Option.some.inj hlast
  rw [NestedIterator.drain_new] at hiter
  have hlinked := hinv.linked
  generalize controllerMonitor.after ([], .publishing) (c.thread none).trace = g at *
  obtain ⟨bodies, closing⟩ := g
  obtain rfl : closing = .loaded 0 := hloaded
  have hstarted : c.shared.started = bodies := hlinked.started
  have hrows := map_inContext_eq hiter
  have hlen : (files.flatMap dataRows).length = rows.length := by
    simpa using congrArg List.length hrows
  rw [hlen] at hk
  have hbound : bodies.length ≤ 2 ^ 31 := hmessages.length.trans_le hk
  obtain ⟨hfailed, hperm⟩ := hinv.sent (hlinked.waited nofun) (hlinked.loaded 0 rfl)
    (by rwa [hstarted])
  refine ⟨hfailed, rows, bodies, hrows, toInt_add_one hbound hnum, hmessages.length, ?_, ?_, ?_⟩
  · intro i body hi
    obtain ⟨hlt, -⟩ := List.getElem?_eq_some_iff.mp hi
    refine ⟨hmessages.body i body hi, Int32.toInt_ofNat_of_lt (hlt.trans_le hbound), ?_⟩
    exact Controller.shardRows_ne_nil (hmessages.length ▸ hlt)
  · rw [hmessages.length]
    exact Controller.flatMap_shardRows rows
  · rwa [hstarted] at hperm

/-! ### Runs in which every send succeeds -/

section Runs

variable {ct : Controller} {iter : List (Except CronError RepoFormat)}

/-- A goroutine that has been started can send its message and return. -/
theorem exists_sent {c : Config Topic (topicWorld ct iter).start}
    (h : (topicWorld ct iter).Reachable .initial c) {n : Nat} {msg : String}
    (hmsg : c.shared.started[n]? = some msg) (hrest : (c.thread (some n)).rest = sendMessage.run) :
    ∃ c' : Config Topic (topicWorld ct iter).start, (topicWorld ct iter).Reachable .initial c' ∧
      c'.shared = (c.shared.record n msg (.ok ())).finish n ∧
      ∀ i, i ≠ some n → c'.thread i = c.thread i := by
  have h₁ := h.tail (World.Step.perform (some n) (o := PubOp.begin) hrest msg c.shared
    (by exact ⟨hmsg, rfl⟩))
  have h₂ := h₁.tail (World.Step.perform (some n) (o := PubOp.send msg) (by simp; rfl)
    (Except.ok () : Except String Unit) (c.shared.record n msg (.ok ())) (by exact rfl))
  have h₃ := h₂.tail (World.Step.perform (some n) (o := PubOp.wgDone) (by simp; rfl) ()
    ((c.shared.record n msg (.ok ())).finish n) (by exact rfl))
  refine ⟨_, h₃, rfl, fun i hi => ?_⟩
  simp [hi]

/-- Nothing is going on, and no error has been counted. -/
structure Quiet (c : Config Topic (topicWorld ct iter).start) : Prop where
  reachable : (topicWorld ct iter).Reachable .initial c
  wg : c.shared.wg = 0
  totalErrors : c.shared.totalErrors = 0
  fresh : ∀ i, c.shared.started.length ≤ i → (c.thread (some i)).rest = sendMessage.run

/-- The controller can run to its end while every send succeeds. -/
theorem exists_quiet_returned (q : Prog PubSig (Except (Stop CronError) (Option Int32)))
    (c : Config Topic (topicWorld ct iter).start) (hc : Quiet c)
    (hrest : (c.thread none).rest = q) :
    ∃ (c' : Config Topic (topicWorld ct iter).start) (r : _),
      Quiet c' ∧ (c'.thread none).Returned r := by
  induction q generalizing c with
  | ret r => exact ⟨c, r, hc, hrest⟩
  | op o k ih =>
    have hsafe := (c.thread none).safe (ensures_publishing ct iter)
    rw [hrest] at hsafe
    match o, k, hrest, ih, hsafe.1 with
    | .spawn msg, k, hrest, ih, _ =>
      have h₁ := hc.reachable.tail (World.Step.perform none hrest () (c.shared.spawn msg) rfl)
      obtain ⟨c', hreach, hshared, hthread⟩ := exists_sent h₁ (n := c.shared.started.length)
        (List.getElem?_concat_length) (by simpa using hc.fresh _ le_rfl)
      refine ih () c' ⟨hreach, ?_, ?_, fun i hi => ?_⟩ ?_
      · simp [hshared, Topic.finish, Topic.record, Topic.spawn, hc.wg]
      · simp [hshared, Topic.finish, Topic.record, Topic.spawn, hc.totalErrors]
      · have hlt : c.shared.started.length < i := by
          simpa [hshared, Topic.finish, Topic.record, Topic.spawn, Nat.succ_le_iff] using hi
        have hne : some i ≠ some c.shared.started.length := fun h => hlt.ne' (Option.some.inj h)
        simpa [hthread _ hne] using hc.fresh i hlt.le
      · simp [hthread none (Option.some_ne_none _).symm]
    | .wgWait, k, hrest, ih, _ =>
      have h₁ := hc.reachable.tail (World.Step.perform none hrest () c.shared ⟨hc.wg, rfl⟩)
      exact ih () _ ⟨h₁, hc.wg, hc.totalErrors, fun i hi => by simpa using hc.fresh i hi⟩ (by simp)
    | .loadErrors, k, hrest, ih, _ =>
      have h₁ := hc.reachable.tail (World.Step.perform none hrest c.shared.totalErrors c.shared
        ⟨rfl, rfl⟩)
      exact ih c.shared.totalErrors _ ⟨h₁, hc.wg, hc.totalErrors,
        fun i hi => by simpa using hc.fresh i hi⟩ (by simp)

/-- **A job whose rows are valid and whose requests can be encoded** can be published. -/
theorem exists_published (hiter : ∀ e, .error e ∉ iter)
    (hmarshal : ∀ rows i, List.map .ok rows <+: iter → ct.shardRows rows i ≠ [] →
      ∃ body, ct.requestCodec.marshal (ct.shardRequest rows i) = .ok body) :
    ∃ (c : Config Topic (topicWorld ct iter).start) (last : Int32),
      (topicWorld ct iter).Reachable .initial c ∧ (c.thread none).Returned (.ok (some last)) ∧
      ∃ rows, iter = List.map .ok rows ∧ last + 1 = Int32.ofNat (ct.numShards rows.length) := by
  obtain ⟨c, r, hc, hret⟩ := exists_quiet_returned _
    (Config.initial (topicWorld ct iter).start .initial)
      ⟨World.reachable_initial _ _, rfl, rfl, fun _ _ => rfl⟩ rfl
  have hlinked := (invariant_of_reachable_topic hc.reachable).linked
  have hsafe := (c.thread none).safe (ensures_publishing ct iter)
  rw [show (c.thread none).rest = .ret r from hret] at hsafe
  cases r with
  | error s =>
    obtain ⟨p, ⟨e, he⟩ | ⟨rows, i, e, hinitial, hne, he⟩ | ⟨e, he⟩, -, hclosing⟩ := hsafe
    · exact absurd he (hiter e)
    · obtain ⟨body, hbody⟩ := hmarshal rows i hinitial hne
      cases hbody.symm.trans he
    · rw [he] at hclosing
      obtain ⟨n, hn, hne⟩ := hclosing
      exact absurd ((hlinked.loaded n hn).symm.trans hc.totalErrors) hne
  | ok result =>
    obtain ⟨-, last, rows, rfl, hiter, hnum, hmessages⟩ := hsafe
    exact ⟨c, last, hc.reachable, hret, rows, hiter, hmessages.length ▸ hnum⟩

end Runs

/-! ### Sample jobs -/

/-- The row of the sample jobs. -/
def sampleRow : CsvRow := ⟨["github.com/org/repo", ""], .ok ⟨"github.com/org/repo", []⟩⟩

/-- The request with this row and a number. -/
def sampleShard (shardNum : Int32) : ScorecardBatchRequest :=
  ⟨[⟨some "github.com/org/repo", some headSHA, []⟩], some shardNum, some epoch⟩

/-- A controller with requests of one row, which are encoded by their number. -/
def sampleController : Controller where
  shardSize := 1
  bucket := "s3://results"
  rawBucket := ""
  gitCommit := "c0ffee"
  datetime := epoch
  requestCodec :=
    { marshal := fun request =>
        if request = sampleShard request.getShardNum then
          .ok (String.ofList (appendInt 1 request.getShardNum.toUInt32.toNat))
        else .error "unknown"
      unmarshal := fun data =>
        .ok (sampleShard (UInt32.ofNat (Nat.ofDigitChars 10 data.toList 0)).toInt32)
      unmarshal_marshal := fun request data h => by
        split_ifs at h with hr
        obtain rfl := Except.ok.inj h
        rw [String.toList_ofList, ofDigitChars_appendInt, UInt32.ofNat_toNat,
          Int32.toInt32_toUInt32, ← hr] }
  metadataCodec := ⟨fun _ => .error "not used", fun _ => .error "not used", fun _ _ h => nomatch h⟩

/-- All URLs are on GitHub. -/
def sampleMakers : RepoMakers := ⟨fun _ => .error "not on GitLab", fun _ => .ok ()⟩

theorem dataRows_replicate (n : Nat) :
    dataRows (List.replicate n sampleRow) = List.replicate n sampleRow := by
  cases n with
  | zero => rfl
  | succ n =>
    rw [List.replicate_succ, dataRows, if_neg]
    decide

/-- A sample job can be published. -/
theorem exists_published_sample (n : Nat) :
    ∃ (c : Config Topic (topicWorld sampleController
        ((NestedIterator.new [List.replicate n sampleRow]).drain sampleMakers)).start)
      (last : Int32),
      (topicWorld sampleController
        ((NestedIterator.new [List.replicate n sampleRow]).drain sampleMakers)).Reachable
          .initial c ∧
      (c.thread none).Returned (.ok (some last)) ∧ last + 1 = Int32.ofNat n := by
  have hdrain : (NestedIterator.new [List.replicate n sampleRow]).drain sampleMakers =
      List.replicate n (.ok ⟨"github.com/org/repo", []⟩) := by
    rw [NestedIterator.drain_new, List.flatMap_singleton, dataRows_replicate, List.map_replicate]
    rfl
  have hvalid : ∀ e,
      .error e ∉ (NestedIterator.new [List.replicate n sampleRow]).drain sampleMakers := by
    intro e he
    rw [hdrain] at he
    cases List.eq_of_mem_replicate he
  have hmarshal : ∀ rows i,
      List.map .ok rows <+: (NestedIterator.new [List.replicate n sampleRow]).drain sampleMakers →
      sampleController.shardRows rows i ≠ [] →
      ∃ body, sampleController.requestCodec.marshal (sampleController.shardRequest rows i) =
        .ok body := by
    intro rows i hinitial hne
    rw [hdrain] at hinitial
    have hrow : ∀ row ∈ rows, row = ⟨"github.com/org/repo", []⟩ := fun row hrow =>
      Except.ok.inj (List.eq_of_mem_replicate (hinitial.subset (List.mem_map_of_mem hrow)))
    obtain ⟨row, hsingle⟩ : ∃ row, sampleController.shardRows rows i = [row] := by
      refine List.length_eq_one_iff.mp (le_antisymm ?_ (List.length_pos_of_ne_nil hne))
      exact List.length_take_le _ _
    have hmem : row ∈ rows := by
      refine List.mem_of_mem_drop (List.mem_of_mem_take
        (?_ : row ∈ sampleController.shardRows rows i))
      rw [hsingle]
      exact List.mem_singleton_self row
    obtain rfl := hrow row hmem
    refine ⟨_, if_pos ?_⟩
    rw [Controller.shardRequest, hsingle]
    rfl
  obtain ⟨c, last, hreach, hret, rows, hrows, hnum⟩ := exists_published hvalid hmarshal
  refine ⟨c, last, hreach, hret, ?_⟩
  have hlen : rows.length = n := by
    have := congrArg List.length (hdrain.symm.trans hrows)
    simpa using this.symm
  have hshards : sampleController.numShards n = n := by
    have hone : sampleController.reposPerShard = 1 := rfl
    rw [Controller.numShards, hone]
    omega
  rw [hnum, hlen, hshards]

/-- What the row says. -/
def sampleFormat : RepoFormat := ⟨"github.com/org/repo", []⟩

/-- The two requests of a sample job are sent, one for each of its rows. -/
theorem exists_two_sent : ∃ c : Config Topic (topicWorld sampleController
      ((NestedIterator.new [List.replicate 2 sampleRow]).drain sampleMakers)).start,
    c.shared.failed = [] ∧
      (List.range 2).flatMap (sampleController.shardRows [sampleFormat, sampleFormat]) =
        [sampleFormat, sampleFormat] ∧
      (c.shared.sent.map Prod.snd).Perm ["0", "1"] := by
  obtain ⟨c, last, hreach, hret, hlast⟩ := exists_published_sample 2
  obtain ⟨hfailed, rows, bodies, hrows, -, hlen, hbodies, hflat, hperm⟩ :=
    sharding_loses_nothing sampleController sampleMakers [List.replicate 2 sampleRow] (by decide) c
      hreach last hret
  obtain rfl : rows = [sampleFormat, sampleFormat] :=
    List.map_injective_iff.mpr (fun _ _ => Except.ok.inj) hrows.symm
  obtain ⟨first, second, rfl⟩ := List.length_eq_two.mp (hlen.trans (by decide))
  obtain rfl : "0" = first := Except.ok.inj (hbodies 0 first rfl).1
  obtain rfl : "1" = second := Except.ok.inj (hbodies 1 second rfl).1
  exact ⟨c, hfailed, hflat, hperm⟩

/-- With more than 2³¹ requests the number returned is not that of the last one. -/
theorem not_last_of_overflow : ¬∀ (ct : Controller) (m : RepoMakers) (files : List (List CsvRow))
    (c : Config Topic (topicWorld ct ((NestedIterator.new files).drain m)).start),
    (topicWorld ct ((NestedIterator.new files).drain m)).Reachable .initial c → ∀ last : Int32,
      (c.thread none).Returned (.ok (some last)) → last.toInt + 1 = c.shared.sent.length := by
  intro h
  obtain ⟨c, last, hreach, hret, hlast⟩ := exists_published_sample (2 ^ 31 + 1)
  have hlength := h sampleController sampleMakers [List.replicate (2 ^ 31 + 1) sampleRow] c
    hreach last hret
  have hnegative : last = Int32.ofNat (2 ^ 31 + 1) - 1 := by
    rw [← hlast, Int32.add_sub_cancel]
  rw [hnegative, show (Int32.ofNat (2 ^ 31 + 1) - 1).toInt = -2147483648 by decide] at hlength
  omega

end ScorecardInfra.Cron
