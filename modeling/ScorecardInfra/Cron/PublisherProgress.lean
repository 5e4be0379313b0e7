import ScorecardInfra.Cron.Publisher
import ScorecardInfra.Interaction.Progress

/-!
# `Close` does not wait forever

`Publish` adds to the wait group before it starts a goroutine, and each goroutine is done once,
whether its send succeeds or fails. Hence `Close` waits for finitely many goroutines that all
return. No run of the controller and its goroutines is infinite, and at the end of each the
controller has returned, and every message that was published either has been sent or is counted as
a failure (`publishing_endsIn`).

## Main definitions

* `Topic.Roster`, `Drained`.

## Main results

* `staffed_reachable`, `publishing_endsIn`.

Source: `cron/internal/pubsub/publisher.go`, lines 69–104.
-/

namespace ScorecardInfra.Cron

open GoStd Interaction

/-- A goroutine returns once it is done. -/
theorem ensures_sendMessage_finished :
    Ensures sendMonitor .fresh sendMessage (fun _ stage => ∃ ok, stage = .finished ok)
      fun _ _ => False := by
  refine ensures_perform_bind trivial fun msg => ensures_perform_bind rfl ?_
  rintro (_ | _)
  · exact ensures_perform_bind trivial fun _ => ensures_perform_bind trivial fun _ => ⟨false, rfl⟩
  · exact ensures_perform_bind trivial fun _ => ⟨true, rfl⟩

/-- The goroutines that are alive have been started, each once, and are not done. -/
structure Topic.Roster (q : Topic) (stage : Nat → SendStage) : Prop where
  nodup : q.alive.Nodup
  alive : ∀ i ∈ q.alive, i < q.started.length ∧ ∀ ok, stage i ≠ .finished ok

namespace Topic

variable {q q' : Topic} {stage : Nat → SendStage} {i : Nat}

/-- A goroutine that is started has not done anything. -/
theorem Roster.spawn (h : q.Roster stage) (hfresh : stage q.started.length = .fresh)
    (msg : String) : (q.spawn msg).Roster stage := by
  have hlen : (q.spawn msg).started.length = q.started.length + 1 := List.length_append
  refine ⟨nodup_snoc h.nodup fun hmem => lt_irrefl _ (h.alive _ hmem).1, fun i hi => ?_⟩
  rcases List.mem_append.mp hi with hold | hnew
  · exact ⟨hlen ▸ Nat.lt_succ_of_lt (h.alive i hold).1, (h.alive i hold).2⟩
  · obtain rfl := List.mem_singleton.mp hnew
    exact ⟨hlen ▸ Nat.lt_succ_self _, fun ok => by rw [hfresh]; exact nofun⟩

/-- A step of a goroutine. -/
theorem Roster.takes {stage' : SendStage} (h : q.Roster stage)
    (htakes : q.Takes i (stage i) stage' q') : q'.Roster (Function.update stage i stage') := by
  have hkeep : (∀ ok, stage' ≠ .finished ok) → q.Roster (Function.update stage i stage') := by
    refine fun hrun => ⟨h.nodup, fun j hj => ⟨(h.alive j hj).1, fun ok => ?_⟩⟩
    by_cases hij : j = i
    · subst hij
      rw [Function.update_self]
      exact hrun ok
    · rw [Function.update_of_ne hij]
      exact (h.alive j hj).2 ok
  have hfinish : ∀ ok, (q.finish i).Roster (Function.update stage i (.finished ok)) := by
    refine fun ok => ⟨h.nodup.erase i, fun j hj => ?_⟩
    obtain ⟨hij, hold⟩ := h.nodup.mem_erase_iff.mp hj
    rw [Function.update_of_ne hij]
    exact h.alive j hold
  generalize stage i = before at htakes
  cases htakes with
  | begin => exact hkeep nofun
  | deliver | fail | count => exact ⟨(hkeep nofun).nodup, (hkeep nofun).alive⟩
  | finishDelivered => exact hfinish true
  | finishCounted => exact hfinish false

end Topic

section World

variable {ct : Controller} {iter : List (Except CronError RepoFormat)}
  {c c' : Config Topic (topicWorld ct iter).start}

/-- The stage of each goroutine. -/
def stages (c : Config Topic (topicWorld ct iter).start) (i : Nat) : SendStage :=
  sendMonitor.after .fresh (c.thread (some i)).trace

/-- The invariant of the shared state, with the goroutines that are alive. -/
def Staffed (c : Config Topic (topicWorld ct iter).start) : Prop :=
  (topicWorld ct iter).Reachable .initial c ∧ c.shared.Roster (stages c)

/-- The controller's operations are those of the publisher. -/
theorem serves_of_step {o : PubOp} {k : PubSig.Ans o → Prog PubSig _} {x : PubSig.Ans o}
    {q' : Topic} (hrest : (c.thread none).rest = .op o k)
    (ha : (topicWorld ct iter).answer none (c.thread none).trace c.shared ⟨o, x⟩ q') :
    (∃ msg, o = .spawn msg ∧ q' = c.shared.spawn msg) ∨ q' = c.shared := by
  have hallows := (c.thread none).allows (ensures_publishing ct iter) hrest
  cases o with
  | spawn msg => exact Or.inl ⟨msg, rfl, ha⟩
  | wgWait | loadErrors => exact Or.inr ha.2
  | other | begin | send | addError | wgDone => exact hallows.elim

theorem staffed_step (h : Staffed c) (hstep : (topicWorld ct iter).Step c c') : Staffed c' := by
  refine ⟨h.1.tail hstep, ?_⟩
  obtain ⟨hreach, hroster⟩ := h
  have hinv := invariant_of_reachable_topic hreach
  obtain @⟨i, o, k, hrest, x, q', ha⟩ | ⟨i, hi⟩ | ⟨q', hq'⟩ := hstep
  · cases i with
    | none =>
      have hstages : stages ⟨q', Function.update c.thread none
          ((c.thread none).advance hrest x)⟩ = stages c := by
        funext i
        simp [stages]
      rw [hstages]
      rcases serves_of_step hrest ha with ⟨msg, -, rfl⟩ | rfl
      · refine hroster.spawn ?_ msg
        by_contra hne
        exact lt_irrefl _ ((hinv.goroutine _).lt hne)
      · exact hroster
    | some i =>
      have hsafe := (c.thread (some i)).safe ensures_sendMessage
      rw [hrest] at hsafe
      have htakes := Topic.takes_of_goes hsafe.1 ha
      have hstages : stages ⟨q', Function.update c.thread (some i)
          ((c.thread (some i)).advance hrest x)⟩ =
            Function.update (stages c) i ((stages c i).after o x) := by
        funext j
        by_cases hij : j = i
        · subst hij
          simp [stages, Monitor.after_append, sendMonitor]
        · simp [stages, hij]
      rw [hstages]
      exact hroster.takes htakes
  · exact hi.elim
  · exact hq'.elim

theorem staffed_reachable (h : (topicWorld ct iter).Reachable .initial c) : Staffed c :=
  h.induct ⟨World.reachable_initial _ _, .nil, fun _ hi => absurd hi List.not_mem_nil⟩
    fun _ _ => staffed_step

/-! ### Progress -/

/-- The controller and all goroutines that it has started have returned, and each message has been
sent or is counted as a failure. -/
structure Drained (c : Config Topic (topicWorld ct iter).start) : Prop where
  controller : ∃ r, (c.thread none).Returned r
  goroutines : ∀ i < c.shared.started.length, ∃ r, (c.thread (some i)).Returned r
  wg : c.shared.wg = 0
  accounted : ∀ i msg, c.shared.started[i]? = some msg →
    ((i, msg) ∈ c.shared.sent ↔ i ∉ c.shared.counted)

/-- A goroutine that has been started and has not returned can go on. -/
theorem exists_goes {q : Topic} {i : Nat} {stage : SendStage} {o : PubOp} (ho : stage.Allows o)
    (hlt : i < q.started.length) : ∃ x q', q.Goes i o x q' := by
  cases o with
  | begin => exact ⟨q.started[i], q, List.getElem?_eq_getElem hlt, rfl⟩
  | send msg => exact ⟨Except.ok (), _, rfl⟩
  | addError | wgDone => exact ⟨(), _, rfl⟩
  | spawn | wgWait | loadErrors | other => cases stage <;> exact ho.elim

/-- The controller can go on unless it waits for the goroutines. -/
theorem exists_serves {q : Topic} {g : List String × Closing} {o : PubOp}
    (ho : controllerMonitor.allows g o) (hwg : q.wg = 0) : ∃ x q', q.Serves o x q' := by
  cases o with
  | spawn msg => exact ⟨(), _, rfl⟩
  | wgWait => exact ⟨(), q, hwg, rfl⟩
  | loadErrors => exact ⟨q.totalErrors, q, rfl, rfl⟩
  | other | begin | send | addError | wgDone => exact ho.elim

theorem drained_of_stuck (h : (topicWorld ct iter).Reachable .initial c)
    (hstuck : ∀ c', ¬(topicWorld ct iter).Step c c') : Drained c := by
  have hinv := invariant_of_reachable_topic h
  obtain ⟨-, hroster⟩ := staffed_reachable h
  have hgoroutines : ∀ i < c.shared.started.length,
      (∃ r, (c.thread (some i)).Returned r) ∧ ∃ ok, stages c i = .finished ok := by
    intro i hlt
    have hsafe := (c.thread (some i)).safe ensures_sendMessage_finished
    rcases hrest : (c.thread (some i)).rest with r | ⟨o, k⟩
    · rw [hrest] at hsafe
      rcases r with s | r
      · exact hsafe.elim
      · exact ⟨⟨_, hrest⟩, hsafe⟩
    · rw [hrest] at hsafe
      obtain ⟨x, q', hgoes⟩ := exists_goes hsafe.1 hlt
      exact absurd (World.Step.perform (some i) hrest x q' hgoes) (hstuck _)
  have halive : c.shared.alive = [] := by
    refine List.eq_nil_iff_forall_not_mem.mpr fun i hi => ?_
    obtain ⟨hlt, hrunning⟩ := hroster.alive i hi
    obtain ⟨-, ok, hfinished⟩ := hgoroutines i hlt
    exact hrunning ok hfinished
  have hwg : c.shared.wg = 0 := by rw [hinv.sound.wg, halive]; rfl
  refine ⟨?_, fun i hlt => (hgoroutines i hlt).1, hwg, fun i msg hmsg => ?_⟩
  · rcases hrest : (c.thread none).rest with r | ⟨o, k⟩
    · exact ⟨r, hrest⟩
    · have hallows := (c.thread none).allows (ensures_publishing ct iter) hrest
      obtain ⟨x, q', hserves⟩ := exists_serves hallows hwg
      exact absurd (World.Step.perform none hrest x q' hserves) (hstuck _)
  · obtain ⟨hlt, -⟩ := List.getElem?_eq_some_iff.mp hmsg
    obtain ⟨-, ok, hfinished⟩ := hgoroutines i hlt
    have hknows := hinv.goroutine i
    rw [show sendMonitor.after .fresh (c.thread (some i)).trace = _ from hfinished] at hknows
    rw [hknows.sent msg, hknows.counted]
    cases ok <;> simp [SendStage.Sent, SendStage.Counted, hmsg]

/-- **`Close` returns.** However the goroutines of the publisher are interleaved with the controller
and whichever sends fail, no run is infinite, and at its end the controller has returned, all
goroutines have, and each message has been sent or is counted as a failure. -/
theorem publishing_endsIn (ct : Controller) (iter : List (Except CronError RepoFormat)) :
    EndsIn (topicWorld ct iter).Step Drained (.initial _ .initial) := by
  refine endsIn_of_acc ?_ fun c h hstuck => drained_of_stuck h hstuck
  refine World.acc_step (M := {none})
    (A := fun q => some '' {i | i < q.started.length}) (I := Staffed) (Set.finite_singleton _)
    (fun q => (Set.finite_lt_nat _).image _) (fun _ => id) (fun _ _ => id)
    (fun _ _ => staffed_step) ?_ (staffed_reachable (World.reachable_initial _ _))
  intro c i o k x q' hc hrest ha hi
  cases i with
  | none => exact absurd rfl hi
  | some i =>
    have hinv := invariant_of_reachable_topic hc.1
    have hsafe := (c.thread (some i)).safe ensures_sendMessage
    rw [hrest] at hsafe
    have htakes := Topic.takes_of_goes hsafe.1 ha
    obtain ⟨hlt, -⟩ := hc.2.alive i ((hinv.goroutine i).mem_alive htakes)
    obtain ⟨-, -, hstarted, -⟩ := hinv.sound.takes (hinv.goroutine i) htakes
    exact ⟨⟨i, hlt, rfl⟩, by rw [hstarted]⟩

end World

end ScorecardInfra.Cron
