import ScorecardInfra.Cache.Flights

/-!
# The body and the origin tag of a stored result

`GetWithOrigin` reads the body of an object and then its attributes. A writer may replace the object
in between, and the second read may fail, which counts as the origin of a local scan. The call then
returns the body of one object with the origin of another (`exists_mixed`). It returns what one
write stored exactly if the object whose body was read has the origin that is in force when the
attributes are read, or another object with that body and that origin was stored (`paired_iff`).

Which objects the two reads met, and which were ever stored, is recorded in an auxiliary variable.

## Main definitions

* `storeWorld`: a call of `GetWithOrigin` among writers.
* `Sightings`, `Undisturbed`, `Paired`.

## Main results

* `paired_iff`, `exists_mixed`.

Source: `internal/store/store.go`, lines 155–228.
-/

namespace ScorecardInfra.Cache

open GoStd Interaction

/-! ### A reader among writers -/

/-- What a writer passes to `PutWithOrigin`. -/
structure Put where
  body : String
  origin : Origin

section World

variable {ι : Type} (o : Wired) (ref : RepoRef) (commit : String) (puts : ι → Put)

/-- One call of `GetWithOrigin`, and any number of writers at the same key. -/
def storeWorld : World (CacheSig Unit) (Option ι) (Shared Unit)
    (Option (Except StoreError (String × Origin))) where
  start
    | none => do
      let read ← getWithOrigin ref commit
      return some read
    | some w => do
      let _ ← putWithOrigin ref commit (puts w).body (puts w).origin
      return none
  answer _ _ := Answer o (.inl ())
  restarts _ := False
  surroundings _ _ := False

/-- The objects that were at the key so far, and those that the reader's two operations met. -/
structure Sightings where
  stored : List Object
  atBody : Option Object
  atTag : Option Object

/-- No operation was performed. -/
def Sightings.initial (x : Option Object) : Sightings := ⟨x.toList, none, none⟩

/-- What an operation adds. -/
def sight (k : String) (_ : Option ι) (s : Shared Unit) (e : Event (CacheSig Unit))
    (s' : Shared Unit)
    (g : Sightings) : Sightings :=
  match e.op with
  | .readAll _ => { g with atBody := s.bucket k }
  | .attributes _ => { g with atTag := s.bucket k }
  | _ => { g with stored := (s'.bucket k).toList ++ g.stored }

/-- The world with its sightings. -/
abbrev sightedWorld : World (CacheSig Unit) (Option ι) (Shared Unit × Sightings)
    (Option (Except StoreError (String × Origin))) :=
  (storeWorld o ref commit puts).observe (sight (key ref commit))

end World

/-- The origin in force when the attributes are read: that of the object at the key, or local if the
read fails. -/
def Sightings.inForce (g : Sightings) (failed : Bool) : Origin :=
  match g.atTag with
  | some y => if failed then .originLocal else y.source
  | none => .originLocal

/-- The object whose body was read has the origin in force when the attributes are read, or another
object with its bytes and that origin was stored. -/
def Undisturbed (g : Sightings) (failed : Bool) : Prop :=
  ∃ x, g.atBody = some x ∧ (x.source = g.inForce failed ∨
    ∃ z ∈ g.stored, z ≠ x ∧ z.body = x.body ∧ z.source = g.inForce failed)

/-- One object was stored with the body and the origin. -/
def Paired (g : Sightings) (body : String) (origin : Origin) : Prop :=
  ∃ z ∈ g.stored, z.body = body ∧ z.source = origin

/-! ### What the threads perform -/

section Threads

variable {ref : RepoRef} {commit : String}

/-- The reader reads the body first, and then the attributes. -/
def Reads (ref : RepoRef) (commit : String) (past : Trace (CacheSig Unit)) : CacheOp Unit → Prop
  | .readAll k => k = key ref commit ∧ past = []
  | .attributes k => k = key ref commit ∧ ∃ body, past = [⟨.readAll (key ref commit), .ok body⟩]
  | _ => False

theorem safe_reader : (do return some (← getWithOrigin (R := Unit) ref commit) :
    CacheProg Unit (Option (Except StoreError (String × Origin)))).Safe
      (.history (Reads ref commit))
    (fun read past => ∀ body origin, read = some (.ok (body, origin)) →
      LookedUp ref commit past (.ok (body, origin))) [] := by
  refine (safe_getWithOrigin ⟨rfl, rfl⟩ fun body => ⟨rfl, body, rfl⟩).bind fun read past hpast => ?_
  intro body origin hread
  rwa [Option.some.inj hread] at hpast

/-- A writer writes at the key. -/
def Writes (ref : RepoRef) (commit : String) (_ : Trace (CacheSig Unit)) : CacheOp Unit → Prop
  | .writeAll k _ => k = key ref commit
  | _ => False

theorem safe_writer (put : Put) : (do
    let _ ← putWithOrigin (R := Unit) ref commit put.body put.origin
    return none : CacheProg Unit (Option (Except StoreError (String × Origin)))).Safe
    (.history (Writes ref commit)) (fun _ _ => True) [] := by
  rw [putWithOrigin, write, bind_assoc]
  refine safe_perform_bind rfl ?_
  rintro (message | ⟨⟩)
  · trivial
  · trivial

end Threads

/-! ### Runs -/

section Runs

variable {ι : Type} [DecidableEq ι] {o : Wired} {ref : RepoRef} {commit : String} {puts : ι → Put}
  {cfg cfg' : Interaction.Config (Shared Unit × Sightings) (sightedWorld o ref commit puts).start}

/-- The sightings are those of the run. -/
structure Sighted (cfg : Interaction.Config (Shared Unit × Sightings)
    (sightedWorld o ref commit puts).start) : Prop where
  bucket : ∀ x, cfg.shared.1.bucket (key ref commit) = some x → x ∈ cfg.shared.2.stored
  body : ∀ body, ⟨.readAll (key ref commit), .ok body⟩ ∈ (cfg.thread none).trace →
    ∃ x ∈ cfg.shared.2.stored, cfg.shared.2.atBody = some x ∧ x.body = body
  tag : ∀ attrs, ⟨.attributes (key ref commit), attrs⟩ ∈ (cfg.thread none).trace →
    originOf attrs = cfg.shared.2.inForce (!attrs.isOk)

omit [DecidableEq ι] in
/-- What is stored now is among what was ever stored. -/
theorem Sighted.bucket_of_answer (h : Sighted cfg) (i : Option ι) {s' : Shared Unit}
    {e : Event (CacheSig Unit)} (ha : Answer o (.inl ()) cfg.shared.1 e s') :
    ∀ x, s'.bucket (key ref commit) = some x →
      x ∈ (sight (key ref commit) i cfg.shared.1 e s' cfg.shared.2).stored := by
  intro x hx
  rcases ha.bucket_eq (k := key ref commit) with hsame | ⟨y, hop, hy⟩
  · have hold := h.bucket x (hsame ▸ hx)
    rw [sight]
    split
    exacts [hold, hold, List.mem_append_right _ hold]
  · rw [sight, hop]
    dsimp only
    rw [hx]
    exact List.mem_append_left _ (by simp)

/-- A step of the reader. -/
theorem Sighted.step_reader (h : Sighted cfg) {s' : Shared Unit × Sightings} {op : CacheOp Unit}
    {k : op.Ans → CacheProg Unit (Option (Except StoreError (String × Origin)))} {x : op.Ans}
    (hrest : (cfg.thread none).rest = .op op k)
    (ha : (sightedWorld o ref commit puts).answer none (cfg.thread none).trace cfg.shared ⟨op, x⟩
      s') :
    Sighted ⟨s', Function.update cfg.thread none ((cfg.thread none).advance hrest x)⟩ := by
  obtain ⟨s', g'⟩ := s'
  obtain ⟨ha, hg⟩ := ha
  dsimp only at ha hg
  subst hg
  have hallows := (cfg.thread none).allows safe_reader hrest
  rw [Monitor.after_history, List.nil_append] at hallows
  refine ⟨h.bucket_of_answer none ha, fun body hbody => ?_, fun attrs hattrs => ?_⟩
  · simp only [Function.update_self, Thread.advance_trace, List.mem_append,
      List.mem_singleton] at hbody
    cases op with
    | readAll k =>
      obtain ⟨rfl, hpast⟩ := hallows
      rcases hbody with hbody | hbody
      · rw [hpast] at hbody
        exact absurd hbody List.not_mem_nil
      · cases hbody
        obtain ⟨y, hy, hbody⟩ := ha.read_eq
        exact ⟨y, h.bucket y hy, hy, hbody⟩
    | attributes k =>
      rcases hbody with hbody | hbody
      · exact h.body body hbody
      · cases hbody
    | _ => exact hallows.elim
  · simp only [Function.update_self, Thread.advance_trace, List.mem_append,
      List.mem_singleton] at hattrs
    cases op with
    | readAll k =>
      rw [hallows.2] at hattrs
      exact absurd hattrs (by simp)
    | attributes k =>
      obtain ⟨rfl, body, hpast⟩ := hallows
      rcases hattrs with hattrs | hattrs
      · rw [hpast] at hattrs
        exact absurd hattrs (by simp)
      · cases hattrs
        rcases attrs with message | tag
        · rw [Sightings.inForce]
          split <;> rfl
        · obtain ⟨y, hy, rfl⟩ := ha.attributes_eq
          rw [Sightings.inForce]
          simp [sight, hy, Object.source, Except.isOk, Except.toBool]
    | _ => exact hallows.elim

/-- A step of a writer. -/
theorem Sighted.step_writer (h : Sighted cfg) {w : ι} {s' : Shared Unit × Sightings}
    {op : CacheOp Unit} {k : op.Ans → CacheProg Unit (Option (Except StoreError (String × Origin)))}
    {x : op.Ans} (hrest : (cfg.thread (some w)).rest = .op op k)
    (ha : (sightedWorld o ref commit puts).answer (some w) (cfg.thread (some w)).trace cfg.shared
      ⟨op, x⟩ s') :
    Sighted ⟨s', Function.update cfg.thread (some w) ((cfg.thread (some w)).advance hrest x)⟩ := by
  obtain ⟨s', g'⟩ := s'
  obtain ⟨ha, hg⟩ := ha
  dsimp only at ha hg
  subst hg
  have hallows := (cfg.thread (some w)).allows (safe_writer (puts w)) hrest
  have hne : (none : Option ι) ≠ some w := nofun
  refine ⟨h.bucket_of_answer (some w) ha, fun body hbody => ?_, fun attrs hattrs => ?_⟩
  · dsimp only at hbody
    rw [Function.update_of_ne hne] at hbody
    obtain ⟨y, hy, hat⟩ := h.body body hbody
    cases op with
    | writeAll k object => exact ⟨y, List.mem_append_right _ hy, hat⟩
    | _ => exact hallows.elim
  · dsimp only at hattrs
    rw [Function.update_of_ne hne] at hattrs
    have htag := h.tag attrs hattrs
    cases op with
    | writeAll k object => exact htag
    | _ => exact hallows.elim

theorem sighted_reachable {stored : String → Option Object}
    (h : (sightedWorld o ref commit puts).Reachable
      (.initial stored, .initial (stored (key ref commit))) cfg) : Sighted cfg := by
  refine h.induct (I := Sighted) ⟨fun x hx => ?_, fun _ he => absurd he List.not_mem_nil,
    fun _ he => absurd he List.not_mem_nil⟩ ?_
  · exact Option.mem_toList.mpr hx
  · rintro cfg cfg' ih (⟨i, hrest, x, s', ha⟩ | ⟨i, ⟨⟩⟩ | ⟨s', ⟨⟨⟩, -⟩⟩)
    rcases i with _ | w
    exacts [ih.step_reader hrest ha, ih.step_writer hrest ha]

/-- **The body and its origin.** In every run in which `GetWithOrigin` returns a body and an origin,
one object was stored with both exactly if the object whose body was read has the origin in force
when the attributes are read, or another object with its bytes and that origin was stored. -/
theorem paired_iff (o : Wired) (ref : RepoRef) (commit : String) (puts : ι → Put)
    (stored : String → Option Object)
    (cfg : Interaction.Config (Shared Unit × Sightings) (sightedWorld o ref commit puts).start)
    (hcfg : (sightedWorld o ref commit puts).Reachable
      (.initial stored, .initial (stored (key ref commit))) cfg)
    (body : String) (origin : Origin)
    (hreturned : (cfg.thread none).Returned (some (.ok (body, origin)))) :
    ∃ attrs, ⟨.attributes (key ref commit), attrs⟩ ∈ (cfg.thread none).trace ∧
      (Paired cfg.shared.2 body origin ↔ Undisturbed cfg.shared.2 (!attrs.isOk)) := by
  have hsighted := sighted_reachable hcfg
  obtain ⟨attrs, horigin, htrace⟩ := hreturned.post safe_reader body origin rfl
  rw [Monitor.after_history, List.nil_append] at htrace
  have hattrs : ⟨.attributes (key ref commit), attrs⟩ ∈ (cfg.thread none).trace := by simp [htrace]
  obtain ⟨x, hx, hat, hbody⟩ := hsighted.body body (by simp [htrace])
  have hforce : origin = cfg.shared.2.inForce (!attrs.isOk) :=
    horigin.trans (hsighted.tag attrs hattrs)
  refine ⟨attrs, hattrs, ?_, ?_⟩
  · rintro ⟨z, hz, hzbody, hzorigin⟩
    refine ⟨x, hat, ?_⟩
    by_cases hzx : z = x
    · exact Or.inl (by rw [← hzx, hzorigin, hforce])
    · exact Or.inr ⟨z, hz, hzx, hzbody.trans hbody.symm, hzorigin.trans hforce⟩
  · rintro ⟨x', hat', hsource | ⟨z, hz, -, hzbody, hzorigin⟩⟩
    · obtain rfl : x = x' := Option.some.inj (hat.symm.trans hat')
      exact ⟨x, hx, hbody, hsource.trans hforce.symm⟩
    · obtain rfl : x = x' := Option.some.inj (hat.symm.trans hat')
      exact ⟨z, hz, hzbody.trans hbody, hzorigin.trans hforce.symm⟩

end Runs

/-! ### A write between the two reads -/

/-- A result of the upstream, as it is stored. -/
def backfilled : Object := objectOf "\x7b\"date\":\"2026-09-25T10:00:00Z\"\x7d" .originUpstream

/-- A local scan. -/
def localPut (_ : Unit) : Put := ⟨"\x7b\"date\":\"2026-09-28T10:00:00Z\"\x7d", .originLocal⟩

/-- The reader and the writer of a local scan over a result of the upstream. -/
abbrev sampleWorld : World (CacheSig Unit) (Option Unit) (Shared Unit × Sightings)
    (Option (Except StoreError (String × Origin))) :=
  sightedWorld (sampleWired none) sampleRef "" localPut

/-- The first state of the sample. -/
def sampleStore : Shared Unit × Sightings :=
  (.initial fun _ => some backfilled, .initial (some backfilled))

/-- The write comes between the two reads. -/
theorem exists_mixed_run : ∃ cfg, sampleWorld.Reachable sampleStore cfg ∧
    (cfg.thread none).Returned (some (.ok (backfilled.body, .originLocal))) ∧
    cfg.shared.2.stored = [objectOf (localPut ()).body .originLocal, backfilled] ∧
    (cfg.thread none).trace = [⟨.readAll (key sampleRef ""), .ok backfilled.body⟩,
      ⟨.attributes (key sampleRef ""), .ok "local"⟩] := by
  let scanned := objectOf (localPut ()).body .originLocal
  have hscanned : (sampleStore.1.store (key sampleRef "") scanned).bucket (key sampleRef "") =
      some scanned := by simp [Shared.store]
  have hread := Relation.ReflTransGen.refl.tail (World.Step.perform (W := sampleWorld)
    (c := .initial _ sampleStore) none (o := .readAll (key sampleRef "")) rfl (.ok backfilled.body)
    (sampleStore.1, ⟨[backfilled], some backfilled, none⟩) ⟨.read rfl, rfl⟩)
  have hwrite := hread.tail (World.Step.perform (W := sampleWorld) (some ())
    (o := .writeAll (key sampleRef "") scanned) rfl (.ok ())
    (sampleStore.1.store (key sampleRef "") scanned, ⟨[scanned, backfilled], some backfilled, none⟩)
    ⟨.written _ _, rfl⟩)
  have hattrs := hwrite.tail (World.Step.perform (W := sampleWorld) none
    (o := .attributes (key sampleRef "")) rfl (.ok scanned.origin)
    (sampleStore.1.store (key sampleRef "") scanned,
      ⟨[scanned, backfilled], some backfilled, some scanned⟩)
    ⟨.attributes hscanned, rfl⟩)
  exact ⟨_, hattrs, rfl, rfl, rfl⟩

/-- The result of the upstream passes for a local scan in the state of that run. -/
theorem paired_iff_mixed_run : ∃ cfg, sampleWorld.Reachable sampleStore cfg ∧
    ∃ attrs, ⟨.attributes (key sampleRef ""), attrs⟩ ∈ (cfg.thread none).trace ∧
      (Paired cfg.shared.2 backfilled.body .originLocal ↔
        Undisturbed cfg.shared.2 (!attrs.isOk)) := by
  obtain ⟨cfg, hcfg, hreturned, -⟩ := exists_mixed_run
  exact ⟨cfg, hcfg, paired_iff (sampleWired none) sampleRef "" localPut _ cfg hcfg _ _ hreturned⟩

/-- **Mixed pairs.** A local scan is stored between the two reads, and the call returns the body of
the upstream as that of a local scan. -/
theorem exists_mixed : ¬∀ (o : Wired) (ref : RepoRef) (commit : String) (puts : Unit → Put)
    (stored : String → Option Object)
    (cfg : Interaction.Config (Shared Unit × Sightings) (sightedWorld o ref commit puts).start),
    (sightedWorld o ref commit puts).Reachable
      (.initial stored, .initial (stored (key ref commit))) cfg →
    ∀ body origin, (cfg.thread none).Returned (some (.ok (body, origin))) →
      Paired cfg.shared.2 body origin := by
  intro h
  obtain ⟨cfg, hcfg, hreturned, hstored, -⟩ := exists_mixed_run
  obtain ⟨z, hz, hbody, hsource⟩ := h (sampleWired none) sampleRef "" localPut _ cfg hcfg
    _ _ hreturned
  rw [hstored, List.mem_pair] at hz
  rcases hz with rfl | rfl
  · exact absurd hbody (by decide)
  · exact absurd hsource (by decide)

end ScorecardInfra.Cache
