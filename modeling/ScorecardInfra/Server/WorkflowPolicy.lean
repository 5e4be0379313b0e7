import ScorecardInfra.Server.VerifyWorkflow

/-!
# What an accepted workflow satisfies

Three questions about the workflow verifier, for every parser, workflow and answers of the commit
verifier.

* Which jobs of an accepted workflow may obtain an identity token? The scorecard job only, apart
  from jobs whose own permissions block is `write-all`: the loop over the other jobs looks at their
  scope maps, and such a block has none (`otherJobs_not_granted_iff`).
* Which steps does the scorecard job of an accepted workflow have? Allow-listed actions and images,
  and the two spellings that `parseStep` maps to the same names: an image called like an action and
  an action called like an image (`steps_claimed_iff`).
* Does the verdict depend on the order in which the jobs are met? The first job with a scorecard
  step is the one that is checked, so it does, unless the workflow fails before, or all such jobs
  pass or fail alike (`orderIndependent_iff`).

## Main definitions

* `Accepts`, `Permissions.Grants`, `GrantedIdToken`, `ClaimedStep`, `OrderIndependent`, `JobsAgree`.
-/

namespace ScorecardInfra.Server

open GoStd Interaction

variable {Q : Event VerifySig → Prop}

/-! ### Ranging over a map -/

theorem exec_rangeMap_ok {κ ν : Type} {m : GoMap κ ν} {t : Trace VerifySig}
    {l : List (Σ _ : κ, ν)} : Exec (rangeMap m).run t (some (.ok l)) ↔
      ∃ order : GoMap.Order m.entries.length,
        t = [⟨.range m.entries.length, order⟩] ∧ l = m.visit order := by
  rw [rangeMap, exec_run_bind_ok]
  constructor
  · rintro ⟨t₁, order, t₂, rfl, h₁, h₂⟩
    obtain ⟨rfl, rfl⟩ := exec_pure_ok.mp h₂
    rw [exec_run_perform_ok.mp h₁]
    exact ⟨order, by simp, rfl⟩
  · rintro ⟨order, rfl, rfl⟩
    exact ⟨_, order, [], by simp, exec_run_perform_ok.mpr rfl, exec_pure_ok.mpr ⟨rfl, rfl⟩⟩

/-- A check of a map's entries whose outcome is the same in every order. -/
theorem decides_rangeMap_bind {κ ν : Type} {m : GoMap κ ν}
    {f : List (Σ _ : κ, ν) → Verify Unit} {P : Prop}
    (h : ∀ order, Decides Q (f (m.visit order)) P) : Decides Q (rangeMap m >>= f) P := by
  rw [rangeMap, bind_assoc]
  refine decides_perform_bind fun order _ => ?_
  rw [pure_bind]
  exact h order

/-! ### The global checks -/

/-- The permissions block is not `write-all` and sets no scope to `write`. -/
def Permissions.Restricted (p : Permissions) : Prop :=
  p.all ≠ some "write-all" ∧ ∀ e ∈ p.scopes.entries, e.2.value ≠ "write"

/-- The workflow has no global variables, defaults or write permissions. -/
def GlobalsRestricted (w : Workflow) : Prop :=
  (w.env || w.defaults) = false ∧ ∀ p, w.permissions = some p → p.Restricted

theorem decides_checkGlobalScopes : (scopes : List (Σ _ : String, PermissionScope)) →
    Decides Q (checkGlobalScopes scopes) (∀ e ∈ scopes, e.2.value ≠ "write")
  | [] => decides_pure.congr (by simp)
  | ⟨_, val⟩ :: rest => by
    rw [checkGlobalScopes]
    refine ((decides_failIf _ _).bind fun _ => decides_checkGlobalScopes rest).congr ?_
    rw [List.forall_mem_cons, beq_eq_false_iff_ne]

theorem decides_checkGlobalPermissions (permissions : Option Permissions) :
    Decides Q (checkGlobalPermissions permissions)
      (∀ p, permissions = some p → p.Restricted) := by
  cases permissions with
  | none => exact decides_pure.congr (by simp)
  | some p =>
    have hscopes : Decides Q (rangeMap p.scopes >>= checkGlobalScopes)
        (∀ e ∈ p.scopes.entries, e.2.value ≠ "write") := by
      refine decides_rangeMap_bind fun order => (decides_checkGlobalScopes _).congr ?_
      exact forall_congr' fun e => imp_congr_left GoMap.mem_visit
    refine ((decides_failIf _ _).bind fun _ => hscopes).congr ?_
    rw [beq_eq_false_iff_ne]
    exact ⟨fun h q hq => Option.some.inj hq ▸ h, fun h => h p rfl⟩

theorem decides_checkGlobals (w : Workflow) : Decides Q (checkGlobals w) (GlobalsRestricted w) :=
  (decides_failIf _ _).bind fun _ => decides_checkGlobalPermissions w.permissions

/-! ### The selected job -/

/-- A job of the workflow with a step that calls the scorecard action. -/
def IsCandidate (w : Workflow) (job : SelectedJob) : Prop :=
  ⟨job.1, some job.2⟩ ∈ w.jobs.entries ∧ job.2.steps.any callsScorecard = true

/-- The selected job is one of those met, and calls the scorecard action. -/
theorem of_findScorecardJob_eq_some {job : SelectedJob} :
    {jobs : List (Σ _ : String, Option Job)} → findScorecardJob jobs = some job →
      ⟨job.1, some job.2⟩ ∈ jobs ∧ job.2.steps.any callsScorecard = true
  | [], h => by simp [findScorecardJob] at h
  | ⟨id, none⟩ :: rest, h => by
    rw [findScorecardJob] at h
    obtain ⟨hmem, hcalls⟩ := of_findScorecardJob_eq_some h
    exact ⟨List.mem_cons_of_mem _ hmem, hcalls⟩
  | ⟨id, some j⟩ :: rest, h => by
    rw [findScorecardJob] at h
    by_cases hj : j.steps.any callsScorecard = true
    · rw [if_pos hj] at h
      obtain rfl := Option.some.inj h
      exact ⟨List.mem_cons_self, hj⟩
    · rw [if_neg hj] at h
      obtain ⟨hmem, hcalls⟩ := of_findScorecardJob_eq_some h
      exact ⟨List.mem_cons_of_mem _ hmem, hcalls⟩

/-- A job is found if one of those met calls the scorecard action. -/
theorem findScorecardJob_ne_none {job : SelectedJob}
    (hcalls : job.2.steps.any callsScorecard = true) :
    {jobs : List (Σ _ : String, Option Job)} → ⟨job.1, some job.2⟩ ∈ jobs →
      findScorecardJob jobs ≠ none
  | ⟨id, none⟩ :: rest, h => by
    rcases List.mem_cons.mp h with h | h
    · simp at h
    · rw [findScorecardJob]
      exact findScorecardJob_ne_none hcalls h
  | ⟨id, some j⟩ :: rest, h => by
    rw [findScorecardJob]
    by_cases hj : j.steps.any callsScorecard = true
    · simp [hj]
    · rw [if_neg hj]
      rcases List.mem_cons.mp h with h | h
      · obtain ⟨-, hjob⟩ := Sigma.mk.inj h
        obtain rfl := Option.some.inj (eq_of_heq hjob)
        exact absurd hcalls hj
      · exact findScorecardJob_ne_none hcalls h

theorem exec_selectedOrFail_ok {o : Option SelectedJob} {job : SelectedJob}
    {t : Trace VerifySig} :
    Exec (selectedOrFail o).run t (some (.ok job)) ↔ t = [] ∧ o = some job := by
  cases o with
  | none => exact iff_of_false exec_fail_ok (by simp)
  | some j =>
    rw [selectedOrFail, exec_pure_ok, Option.some.injEq, eq_comm (a := job)]

/-- A run that selects a job: the global checks pass and the job is found in some order. -/
theorem exec_selectScorecardJob_ok {w : Workflow} {job : SelectedJob} {t : Trace VerifySig}
    (h : Exec (selectScorecardJob w).run t (some (.ok job))) :
    GlobalsRestricted w ∧ IsCandidate w job := by
  rw [selectScorecardJob, exec_run_bind_ok] at h
  obtain ⟨t₁, u, t₂, rfl, h₁, h⟩ := h
  obtain ⟨t₃, jobs, t₄, rfl, h₃, h₄⟩ := exec_run_bind_ok.mp h
  obtain ⟨order, -, rfl⟩ := exec_rangeMap_ok.mp h₃
  obtain ⟨hmem, hcalls⟩ := of_findScorecardJob_eq_some (exec_selectedOrFail_ok.mp h₄).2
  have hQ : ∀ e ∈ t₁, (fun _ => True) e := fun _ _ => trivial
  exact ⟨(decides_checkGlobals w t₁ _ h₁ hQ).mp rfl, GoMap.mem_visit.mp hmem, hcalls⟩

/-- `Accepts P content w job t`: in the run along `t` the content is parsed as `w`, `job` is
selected as the scorecard job, and the workflow is accepted. -/
def Accepts (P : WorkflowParser) (workflowContent : String) (w : Workflow) (job : SelectedJob)
    (t : Trace VerifySig) : Prop :=
  parsedWorkflow P workflowContent = .ok w ∧ ∃ t₁ t₂, t = t₁ ++ t₂ ∧
    Exec (selectScorecardJob w).run t₁ (some (.ok job)) ∧
    Exec (checkScorecardJob w job).run t₂ (some (.ok ()))

/-! ### Sample workflows -/

/-- Answers of the commit verifier together with one order for each size of map. -/
def answerWith (answers : Commit → Except ServerError Bool) (orders : (n : Nat) → GoMap.Order n) :
    (o : VerifyOp) → VerifySig.Ans o
  | .contains c => answers c
  | .range n => orders n

/-- A job on the runner `label` with the given permissions block and steps. -/
def sampleJob (permissions : Option Permissions) (label : String) (uses : List String) : Job where
  permissions := permissions
  container := false
  services := none
  runsOn := some ⟨[label]⟩
  env := false
  defaults := false
  steps := uses.map fun s => ⟨some (.action (some s))⟩

/-- A workflow with two jobs. -/
def sampleWorkflow (analysis other : Job) : Workflow where
  env := false
  defaults := false
  permissions := none
  jobs := ⟨[⟨"analysis", some analysis⟩, ⟨"other", some other⟩], by
    simp [List.NodupKeys, List.keys]⟩

/-- The parser that parses every content as `w`. -/
def sampleParser (w : Workflow) : WorkflowParser where
  parse _ := (some w, [])
  yaml _ := none

/-- A job that calls the scorecard action. -/
def scorecardJob : Job :=
  sampleJob none "ubuntu-latest" ["actions/checkout@v4", "ossf/scorecard-action@v2"]

/-- A job that calls no action of the lists. -/
def lintJob (permissions : Option Permissions) : Job :=
  sampleJob permissions "ubuntu-latest" ["golangci/golangci-lint-action@v6"]

/-- A sample workflow is accepted if the verifier says so where every commit is contained and the
maps are ranged over in the order in which they are listed. -/
theorem exists_accepts {w : Workflow} {job : SelectedJob}
    (hselect : ((selectScorecardJob w).run.runWith
      (fun _ o => some (answerWith (fun _ => .ok true) GoMap.Order.listed o)) []).2 =
        some (.ok job))
    (hcheck : ((checkScorecardJob w job).run.runWith
      (fun _ o => some (answerWith (fun _ => .ok true) GoMap.Order.listed o)) []).2 =
        some (.ok ())) :
    ∃ t, Accepts (sampleParser w) "" w job t := by
  have h₁ := exec_runWith (fun _ o => some (answerWith (fun _ => .ok true) GoMap.Order.listed o))
    (selectScorecardJob w).run []
  have h₂ := exec_runWith (fun _ o => some (answerWith (fun _ => .ok true) GoMap.Order.listed o))
    (checkScorecardJob w job).run []
  rw [hselect] at h₁
  rw [hcheck] at h₂
  exact ⟨_, rfl, _, _, rfl, h₁, h₂⟩

/-! ### Tokens of the other jobs -/

/-- The block grants `id-token: write`. -/
def Permissions.Grants (p : Permissions) : Prop :=
  p.all = some "write-all" ∨ ∃ idToken, p.scopes.lookup "id-token" = some idToken ∧
    idToken.value = "write"

/-- A job is granted `id-token: write`, by its own block if it has one and by the workflow's
otherwise. -/
def GrantedIdToken (w : Workflow) (job : Job) : Prop :=
  ∃ p, job.permissions.or w.permissions = some p ∧ p.Grants

theorem hasTokenWrite_eq_false {job : Job} : hasTokenWrite job = false ↔
    ∀ p, job.permissions = some p → ∀ idToken, p.scopes.lookup "id-token" = some idToken →
      idToken.value ≠ "write" := by
  rw [hasTokenWrite]
  cases job.permissions with
  | none => simp
  | some p =>
    cases hlookup : p.scopes.lookup "id-token" <;> simp [hlookup]

/-- A restricted workflow grants no token to a job without a block of its own. -/
theorem Permissions.Restricted.not_grants {p : Permissions} (h : p.Restricted) : ¬p.Grants := by
  rintro (hall | ⟨idToken, hlookup, hwrite⟩)
  · exact h.1 hall
  · exact h.2 _ (AList.mem_lookup_iff.mp hlookup) hwrite

theorem decides_checkOtherJobs (scorecardJob : SelectedJob) :
    (jobs : List (Σ _ : String, Option Job)) → Decides Q (checkOtherJobs scorecardJob jobs)
      (∀ e ∈ jobs, ∃ job, e.2 = some job ∧ (e.1 ≠ scorecardJob.1 → hasTokenWrite job = false))
  | [] => decides_pure.congr (by simp)
  | ⟨_, none⟩ :: rest => (decides_crash _).congr (by simp)
  | ⟨id, some job⟩ :: rest => by
    rw [checkOtherJobs]
    refine ((decides_failIf _ _).bind fun _ => decides_checkOtherJobs scorecardJob rest).congr ?_
    rw [List.forall_mem_cons]
    by_cases hid : id = scorecardJob.1 <;> simp [hid]

/-- The other jobs of an accepted workflow are not nil and set no `id-token` scope to `write`. -/
theorem Accepts.otherJobs {P : WorkflowParser} {workflowContent : String} {w : Workflow}
    {job : SelectedJob} {t : Trace VerifySig} (h : Accepts P workflowContent w job t) :
    ∀ e ∈ w.jobs.entries, ∃ other, e.2 = some other ∧
      (e.1 ≠ job.1 → hasTokenWrite other = false) := by
  obtain ⟨-, t₁, t₂, -, -, h⟩ := h
  obtain ⟨t₃, jobs, t₄, rfl, h₃, h₄⟩ := exec_run_bind_ok.mp h
  obtain ⟨order, -, rfl⟩ := exec_rangeMap_ok.mp h₃
  obtain ⟨t₅, u, t₆, rfl, h₅, -⟩ := exec_run_bind_ok.mp h₄
  have hQ : ∀ e ∈ t₅, (fun _ => True) e := fun _ _ => trivial
  intro e he
  exact (decides_checkOtherJobs job _ t₅ _ h₅ hQ).mp rfl e (GoMap.mem_visit.mpr he)

/-- **Token permissions.** In an accepted workflow no other job is granted `id-token: write` exactly
when no other job has a permissions block of its own that is `write-all`. -/
theorem otherJobs_not_granted_iff (P : WorkflowParser) (workflowContent : String) (w : Workflow)
    (job : SelectedJob) (t : Trace VerifySig) (h : Accepts P workflowContent w job t) :
    (∀ id other, ⟨id, some other⟩ ∈ w.jobs.entries → id ≠ job.1 → ¬GrantedIdToken w other) ↔
      ∀ id other, ⟨id, some other⟩ ∈ w.jobs.entries → id ≠ job.1 →
        ∀ p, other.permissions = some p → p.all ≠ some "write-all" := by
  have hglobals : GlobalsRestricted w := by
    obtain ⟨-, t₁, t₂, -, h₁, -⟩ := h
    exact (exec_selectScorecardJob_ok h₁).1
  refine forall_congr' fun id => forall_congr' fun other => imp_congr_right fun hmem =>
    imp_congr_right fun hid => ?_
  constructor
  · intro hgranted p hp hall
    exact hgranted ⟨p, by rw [hp, Option.some_or], Or.inl hall⟩
  · rintro hown ⟨p, hp, hgrants⟩
    cases hperm : other.permissions with
    | none =>
      rw [hperm, Option.none_or] at hp
      exact (hglobals.2 p hp).not_grants hgrants
    | some q =>
      rw [hperm, Option.some_or] at hp
      obtain rfl := Option.some.inj hp
      rcases hgrants with hall | ⟨idToken, hlookup, hwrite⟩
      · exact hown q hperm hall
      · obtain ⟨other', hother', htoken⟩ := h.otherJobs _ hmem
        obtain rfl := Option.some.inj hother'
        exact hasTokenWrite_eq_false.mp (htoken hid) q hperm idToken hlookup hwrite

/-- A workflow whose other job has no permissions block. -/
theorem sampleWorkflow_not_granted : ∃ t,
    Accepts (sampleParser (sampleWorkflow scorecardJob (lintJob none))) ""
      (sampleWorkflow scorecardJob (lintJob none)) ⟨"analysis", scorecardJob⟩ t ∧
    ∀ id other, ⟨id, some other⟩ ∈ (sampleWorkflow scorecardJob (lintJob none)).jobs.entries →
      id ≠ "analysis" → ¬GrantedIdToken (sampleWorkflow scorecardJob (lintJob none)) other := by
  obtain ⟨t, ht⟩ : ∃ t, Accepts _ "" (sampleWorkflow scorecardJob (lintJob none))
      ⟨"analysis", scorecardJob⟩ t := exists_accepts rfl rfl
  refine ⟨t, ht, (otherJobs_not_granted_iff _ _ _ _ t ht).mpr ?_⟩
  intro id other hmem _ p hp
  have hnone : other.permissions = none := by
    rcases List.mem_cons.mp hmem with h | h
    · cases h
      rfl
    · cases List.mem_singleton.mp h
      rfl
  simp [hnone] at hp

/-- A job whose own block is `write-all` is granted the token in an accepted workflow. -/
theorem exists_accepted_granted : ¬∀ P workflowContent w job t,
    Accepts P workflowContent w job t → ∀ id other, ⟨id, some other⟩ ∈ w.jobs.entries →
      id ≠ job.1 → ¬GrantedIdToken w other := by
  intro h
  let writeAll : Permissions := ⟨some "write-all", ∅⟩
  obtain ⟨t, ht⟩ : ∃ t, Accepts _ "" (sampleWorkflow scorecardJob (lintJob (some writeAll)))
      ⟨"analysis", scorecardJob⟩ t := exists_accepts rfl rfl
  refine h _ _ _ _ t ht "other" (lintJob (some writeAll)) ?_ (by decide) ⟨writeAll, rfl, Or.inl rfl⟩
  exact List.mem_cons_of_mem _ List.mem_cons_self

/-! ### The steps of the scorecard job -/

/-- The `uses` string is an allow-listed action with a ref, which the commit verifier confirmed if
it is a commit hash, or a docker reference to an allow-listed image with a tag. -/
def ClaimedStep (t : Trace VerifySig) (step : Step) : Prop :=
  ∃ uses, getStepUses step = some uses ∧
    ((∃ name ∈ allowedActions, ∃ ref, uses = name ++ "@" ++ ref ∧
        (isCommitHash ref = true → ⟨.contains (actionCommit name ref), .ok true⟩ ∈ t)) ∨
      ∃ image ∈ allowedImages, ∃ tag, uses = "docker://" ++ image ++ ":" ++ tag)

/-- A docker reference to an image that is called like an allow-listed action. -/
def IsDockerAction (uses : String) : Prop :=
  ∃ name ∈ allowedActions, ∃ tag, uses = "docker://" ++ name ++ ":" ++ tag

/-- An action reference whose name is that of an allow-listed image. -/
def IsImageAction (uses : String) : Prop :=
  ∃ image ∈ allowedImages, ∃ ref, uses = image ++ "@" ++ ref

theorem refMatches_eq_some {step name ref : String} (h : refMatches step = some (name, ref)) :
    step = name ++ "@" ++ ref := by
  rw [refMatches, Option.filter_eq_some_iff] at h
  exact (Strings.cut_eq_some.mp h.1).1

theorem dockerMatches_eq_some {step name : String} (h : dockerMatches step = some name) :
    ∃ tag, step = "docker://" ++ name ++ ":" ++ tag := by
  simp only [dockerMatches, Option.bind_eq_bind, Option.bind_eq_some_iff, Option.pure_def,
    Option.some.injEq, Option.filter_eq_some_iff] at h
  obtain ⟨image, himage, ⟨name', tag⟩, ⟨hcut, -⟩, rfl⟩ := h
  refine ⟨tag, ?_⟩
  rw [Strings.cutPrefix_eq_some.mp himage, (Strings.cut_eq_some.mp hcut).1]
  simp only [String.append_assoc]
  rfl

/-- The two spellings of a step's name. -/
theorem parseStep_eq {step name ref : String} (h : parseStep step = (name, ref)) (hne : name ≠ "") :
    step = name ++ "@" ++ ref ∨ ref = "" ∧ ∃ tag, step = "docker://" ++ name ++ ":" ++ tag := by
  unfold parseStep at h
  split at h
  · rename_i p hp
    exact Or.inl (refMatches_eq_some (h ▸ hp))
  · rename_i hdocker
    obtain ⟨rfl, rfl⟩ := Prod.mk.inj h
    exact Or.inr ⟨rfl, dockerMatches_eq_some hdocker⟩
  · exact absurd (Prod.mk.inj h).1.symm hne

/-- A checked ref that is a commit hash was confirmed. -/
theorem contains_of_exec_verifyRef {name ref : String} {t : Trace VerifySig}
    (h : Exec (verifyRef name ref).run t (some (.ok ()))) (href : isCommitHash ref = true) :
    ⟨.contains (actionCommit name ref), .ok true⟩ ∈ t := by
  rw [verifyRef, if_pos href] at h
  obtain ⟨t₁, answer, t₂, rfl, h₁, h⟩ := exec_run_bind_ok.mp h
  obtain ⟨t₃, contains, t₄, rfl, h₃, h₄⟩ := exec_run_bind_ok.mp h
  obtain ⟨-, rfl⟩ := exec_ofExcept_ok.mp h₃
  obtain ⟨-, hc⟩ := exec_failIf_ok.mp h₄
  rw [Bool.not_eq_false'] at hc
  rw [exec_run_perform_ok.mp h₁, hc]
  exact List.mem_append_left _ List.mem_cons_self

/-- An accepted step is a claimed one, or one of the two other spellings. -/
theorem claimedStep_or {step : Step} {t : Trace VerifySig}
    (h : Exec (verifyUses (getStepUses step)).run t (some (.ok ()))) :
    ClaimedStep t step ∨
      ∃ uses, getStepUses step = some uses ∧ (IsDockerAction uses ∨ IsImageAction uses) := by
  cases huses : getStepUses step with
  | none =>
    rw [huses] at h
    exact absurd h exec_fail_ok
  | some uses =>
    rw [huses, verifyUses, verifyStepName] at h
    generalize hparse : parseStep uses = p at h
    obtain ⟨name, ref⟩ := p
    dsimp only at h
    by_cases hname : allowedActions.contains name = true
    · rw [if_pos hname] at h
      rw [List.contains_iff_mem] at hname
      have hne : name ≠ "" := by
        rintro rfl
        exact absurd hname (by decide)
      rcases parseStep_eq hparse hne with heq | ⟨-, tag, heq⟩
      · refine Or.inl ⟨uses, huses, Or.inl ⟨name, hname, ref, heq, ?_⟩⟩
        exact contains_of_exec_verifyRef h
      · exact Or.inr ⟨uses, rfl, Or.inl ⟨name, hname, tag, heq⟩⟩
    · rw [if_neg hname] at h
      by_cases himage : allowedImages.contains name = true
      · rw [List.contains_iff_mem] at himage
        have hne : name ≠ "" := by
          rintro rfl
          exact absurd himage (by decide)
        rcases parseStep_eq hparse hne with heq | ⟨-, tag, heq⟩
        · exact Or.inr ⟨uses, rfl, Or.inr ⟨name, himage, ref, heq⟩⟩
        · exact Or.inl ⟨uses, huses, Or.inr ⟨name, himage, tag, heq⟩⟩
      · rw [if_neg himage] at h
        exact absurd h exec_fail_ok

/-- Every step of an accepted workflow's scorecard job is checked. -/
theorem exec_verifySteps_ok {u : Unit} : {steps : List Step} → {t : Trace VerifySig} →
    Exec (verifySteps steps).run t (some (.ok u)) →
      ∀ step ∈ steps, ∃ t' ⊆ t, Exec (verifyUses (getStepUses step)).run t' (some (.ok ()))
  | [], _, _ => by simp
  | step :: rest, t, h => by
    obtain ⟨t₁, u, t₂, rfl, h₁, h₂⟩ := exec_run_bind_ok.mp h
    intro step' hstep
    rcases List.mem_cons.mp hstep with rfl | hstep
    · exact ⟨t₁, List.subset_append_left _ _, h₁⟩
    · obtain ⟨t', hsub, h'⟩ := exec_verifySteps_ok h₂ step' hstep
      exact ⟨t', List.subset_append_of_subset_right _ hsub, h'⟩

theorem Accepts.steps {P : WorkflowParser} {workflowContent : String} {w : Workflow}
    {job : SelectedJob} {t : Trace VerifySig} (h : Accepts P workflowContent w job t) :
    ∀ step ∈ job.2.steps, ∃ t' ⊆ t, Exec (verifyUses (getStepUses step)).run t'
      (some (.ok ())) := by
  obtain ⟨-, t₁, t₂, rfl, -, h⟩ := h
  obtain ⟨t₃, jobs, t₄, rfl, -, h⟩ := exec_run_bind_ok.mp h
  obtain ⟨t₅, u₅, t₆, rfl, -, h⟩ := exec_run_bind_ok.mp h
  obtain ⟨t₇, u₇, t₈, rfl, -, h⟩ := exec_run_bind_ok.mp h
  obtain ⟨t₉, u₉, t₁₀, rfl, -, h⟩ := exec_run_bind_ok.mp h
  obtain ⟨t₁₁, u₁₁, t₁₂, rfl, -, h⟩ := exec_run_bind_ok.mp h
  obtain ⟨t₁₃, u₁₃, t₁₄, rfl, -, h⟩ := exec_run_bind_ok.mp h
  intro step hstep
  obtain ⟨t', hsub, h'⟩ := exec_verifySteps_ok h step hstep
  refine ⟨t', fun e he => ?_, h'⟩
  simp [hsub he]

theorem ClaimedStep.mono {t t' : Trace VerifySig} {step : Step} (h : ClaimedStep t step)
    (hsub : t ⊆ t') : ClaimedStep t' step := by
  obtain ⟨uses, huses, ⟨name, hname, ref, heq, href⟩ | himage⟩ := h
  · exact ⟨uses, huses, Or.inl ⟨name, hname, ref, heq, fun hr => hsub (href hr)⟩⟩
  · exact ⟨uses, huses, Or.inr himage⟩

/-! The two other spellings are never claimed ones. -/

private theorem ref_ne_docker {name ref image tag : String}
    (hname : name ∈ allowedActions ++ allowedImages) :
    name ++ "@" ++ ref ≠ "docker://" ++ image ++ ":" ++ tag := by
  intro h
  have hhead := congrArg (fun s => s.toList.head?) h
  revert name
  simp only [allowedActions, allowedImages, List.cons_append, List.nil_append, List.forall_mem_cons]
  simp

private theorem refName_inj {name name' ref ref' : String}
    (hname : name ∈ allowedActions ++ allowedImages)
    (hname' : name' ∈ allowedActions ++ allowedImages)
    (h : name ++ "@" ++ ref = name' ++ "@" ++ ref') : name = name' := by
  have hfree : ∀ n ∈ allowedActions ++ allowedImages, '@' ∉ n.toList := by decide
  have hlist : name.toList ++ '@' :: ref.toList = name'.toList ++ '@' :: ref'.toList := by
    simpa using congrArg String.toList h
  exact String.toList_inj.mp (append_cons_inj_of_notMem (hfree _ hname) (hfree _ hname') hlist).1

private theorem imageName_inj {name name' tag tag' : String}
    (hname : name ∈ allowedActions ++ allowedImages)
    (hname' : name' ∈ allowedActions ++ allowedImages)
    (h : "docker://" ++ name ++ ":" ++ tag = "docker://" ++ name' ++ ":" ++ tag') :
    name = name' := by
  have hfree : ∀ n ∈ allowedActions ++ allowedImages, ':' ∉ n.toList := by decide
  have hlist : name.toList ++ ':' :: tag.toList = name'.toList ++ ':' :: tag'.toList := by
    simpa using congrArg String.toList h
  exact String.toList_inj.mp (append_cons_inj_of_notMem (hfree _ hname) (hfree _ hname') hlist).1

private theorem action_ne_image {name image : String} (hname : name ∈ allowedActions)
    (himage : image ∈ allowedImages) : name ≠ image := by
  have h : ∀ n ∈ allowedActions, ∀ i ∈ allowedImages, n ≠ i := by decide
  exact h name hname image himage

theorem ClaimedStep.not_other {t : Trace VerifySig} {step : Step} (h : ClaimedStep t step)
    {uses : String} (huses : getStepUses step = some uses) :
    ¬IsDockerAction uses ∧ ¬IsImageAction uses := by
  obtain ⟨uses', huses', h⟩ := h
  obtain rfl := Option.some.inj (huses.symm.trans huses')
  have hact := fun {n : String} (hn : n ∈ allowedActions) => List.mem_append_left allowedImages hn
  have himg := fun {n : String} (hn : n ∈ allowedImages) => List.mem_append_right allowedActions hn
  rcases h with ⟨name, hname, ref, heq, -⟩ | ⟨image, himage, tag, heq⟩
  · constructor
    · rintro ⟨name', -, tag, heq'⟩
      exact ref_ne_docker (hact hname) (heq.symm.trans heq')
    · rintro ⟨image, himage, ref', heq'⟩
      exact action_ne_image hname himage
        (refName_inj (hact hname) (himg himage) (heq.symm.trans heq'))
  · constructor
    · rintro ⟨name, hname, tag', heq'⟩
      exact action_ne_image hname himage
        (imageName_inj (hact hname) (himg himage) (heq'.symm.trans heq))
    · rintro ⟨image', himage', ref, heq'⟩
      exact ref_ne_docker (himg himage') (heq'.symm.trans heq)

/-- **Allow-listed steps.** Every step of an accepted workflow's scorecard job is an allow-listed
action or image exactly when no step is a docker reference to an image called like an allow-listed
action, nor an action reference called like an allow-listed image. -/
theorem steps_claimed_iff (P : WorkflowParser) (workflowContent : String) (w : Workflow)
    (job : SelectedJob) (t : Trace VerifySig) (h : Accepts P workflowContent w job t) :
    (∀ step ∈ job.2.steps, ClaimedStep t step) ↔
      ∀ step ∈ job.2.steps, ∀ uses, getStepUses step = some uses →
        ¬IsDockerAction uses ∧ ¬IsImageAction uses := by
  constructor
  · intro hclaimed step hstep uses huses
    exact (hclaimed step hstep).not_other huses
  · intro hother step hstep
    obtain ⟨t', hsub, hrun⟩ := h.steps step hstep
    rcases claimedStep_or hrun with hclaimed | ⟨uses, huses, hbad | hbad⟩
    · exact hclaimed.mono hsub
    · exact absurd hbad (hother step hstep uses huses).1
    · exact absurd hbad (hother step hstep uses huses).2

/-- The steps of an ordinary scorecard job. -/
theorem scorecardJob_claimed : ∃ t,
    Accepts (sampleParser (sampleWorkflow scorecardJob (lintJob none))) ""
      (sampleWorkflow scorecardJob (lintJob none)) ⟨"analysis", scorecardJob⟩ t ∧
    ∀ step ∈ scorecardJob.steps, ClaimedStep t step := by
  obtain ⟨t, ht⟩ : ∃ t, Accepts _ "" (sampleWorkflow scorecardJob (lintJob none))
      ⟨"analysis", scorecardJob⟩ t := exists_accepts rfl rfl
  refine ⟨t, ht, (steps_claimed_iff _ _ _ _ t ht).mpr ?_⟩
  intro step hstep uses huses
  have hmem : uses ∈ ["actions/checkout@v4", "ossf/scorecard-action@v2"] := by
    obtain ⟨u, hu, rfl⟩ := List.mem_map.mp hstep
    rwa [← Option.some.inj huses]
  have hclaimed : ClaimedStep [] ⟨some (.action (some uses))⟩ := by
    refine ⟨uses, rfl, Or.inl ?_⟩
    rcases List.mem_cons.mp hmem with rfl | hmem
    · exact ⟨"actions/checkout", by decide, "v4", by decide, fun h => absurd h (by decide)⟩
    · rw [List.mem_singleton.mp hmem]
      exact ⟨"ossf/scorecard-action", by decide, "v2", by decide, fun h => absurd h (by decide)⟩
  exact hclaimed.not_other rfl

/-- A scorecard job with a docker image called like an action. -/
def dockerCheckoutJob : Job :=
  sampleJob none "ubuntu-latest" ["docker://actions/checkout:v4", "ossf/scorecard-action@v2"]

/-- The docker image `actions/checkout` passes for the action. -/
theorem exists_accepted_not_claimed : ¬∀ P workflowContent w job t,
    Accepts P workflowContent w job t → ∀ step ∈ job.2.steps, ClaimedStep t step := by
  intro h
  obtain ⟨t, ht⟩ : ∃ t, Accepts _ "" (sampleWorkflow dockerCheckoutJob (lintJob none))
      ⟨"analysis", dockerCheckoutJob⟩ t := exists_accepts rfl rfl
  refine ((h _ _ _ _ t ht _ List.mem_cons_self).not_other rfl).1 ?_
  exact ⟨"actions/checkout", by decide, "v4", by decide⟩

/-! ### The order in which the jobs are met -/

/-- The commit verifier answers as `answers` says. -/
def Answered (answers : Commit → Except ServerError Bool) : Event VerifySig → Prop
  | ⟨.contains c, x⟩ => x = answers c
  | ⟨.range _, _⟩ => True

/-- The verdict on a content is the same in all runs with the same answers of the commit verifier,
whatever the orders in which the maps are ranged over. -/
def OrderIndependent (P : WorkflowParser) (workflowContent : String)
    (answers : Commit → Except ServerError Bool) : Prop :=
  ∀ t₁ t₂ r₁ r₂, Exec (verifyScorecardWorkflow P workflowContent).run t₁ (some r₁) →
    Exec (verifyScorecardWorkflow P workflowContent).run t₂ (some r₂) →
    (∀ e ∈ t₁, Answered answers e) → (∀ e ∈ t₂, Answered answers e) →
    (r₁ = .ok () ↔ r₂ = .ok ())

/-- A step is allow-listed, and its commit confirmed by the commit verifier. -/
def StepAllowed (answers : Commit → Except ServerError Bool) (step : Step) : Prop :=
  ∃ uses, getStepUses step = some uses ∧
    ((parseStep uses).1 ∈ allowedActions ∧ (isCommitHash (parseStep uses).2 = true →
        answers (actionCommit (parseStep uses).1 (parseStep uses).2) = .ok true) ∨
      (parseStep uses).1 ∈ allowedImages)

/-- A job meets the restrictions on a scorecard job. -/
def JobAllowed (answers : Commit → Except ServerError Bool) (job : Job) : Prop :=
  (job.container || hasServices job) = false ∧
    (∃ label, job.runsOn = some ⟨[label]⟩ ∧ isSupportedUbuntuRunner label = true) ∧
    job.env = false ∧ job.defaults = false ∧ ∀ step ∈ job.steps, StepAllowed answers step

/-- With `job` as the scorecard job, no job is nil, no other job sets the scope `id-token` to
`write`, and `job` meets the restrictions. -/
def JobPasses (answers : Commit → Except ServerError Bool) (w : Workflow) (job : SelectedJob) :
    Prop :=
  (∀ e ∈ w.jobs.entries, ∃ other, e.2 = some other ∧
    (e.1 ≠ job.1 → hasTokenWrite other = false)) ∧ JobAllowed answers job.2

/-- The global checks fail, or the jobs that call the scorecard action agree on whether they
pass. -/
def JobsAgree (answers : Commit → Except ServerError Bool) (w : Workflow) : Prop :=
  GlobalsRestricted w → ∀ job job', IsCandidate w job → IsCandidate w job' →
    (JobPasses answers w job ↔ JobPasses answers w job')

section Verdict

variable {answers : Commit → Except ServerError Bool}

theorem decides_verifyRef (name ref : String) : Decides (Answered answers) (verifyRef name ref)
    (isCommitHash ref = true → answers (actionCommit name ref) = .ok true) := by
  rw [verifyRef]
  by_cases href : isCommitHash ref = true
  · rw [if_pos href]
    refine decides_perform_bind fun x hx => ?_
    have hx : x = answers (actionCommit name ref) := hx
    refine decides_ofExcept (fun b hb => (decides_failIf _ _).congr ?_) (fun e he => ?_)
    · rw [← hx, hb]
      simp [href]
    · rw [← hx, he]
      simp [href]
  · rw [if_neg href]
    exact decides_pure.congr (by simp [href])

theorem decides_verifyUses (step : Step) :
    Decides (Answered answers) (verifyUses (getStepUses step)) (StepAllowed answers step) := by
  unfold StepAllowed
  cases getStepUses step with
  | none => exact (decides_fail _).congr (by simp)
  | some uses =>
    rw [verifyUses, verifyStepName]
    have hdisj : ∀ name ∈ allowedActions, name ∉ allowedImages := by decide
    by_cases hname : allowedActions.contains (parseStep uses).1 = true
    · rw [if_pos hname]
      rw [List.contains_iff_mem] at hname
      exact (decides_verifyRef _ _).congr (by simp [hname, hdisj _ hname])
    · rw [if_neg hname]
      rw [List.contains_iff_mem] at hname
      by_cases himage : allowedImages.contains (parseStep uses).1 = true
      · rw [if_pos himage]
        rw [List.contains_iff_mem] at himage
        exact decides_pure.congr (by simp [himage])
      · rw [if_neg himage]
        rw [List.contains_iff_mem] at himage
        exact (decides_fail _).congr (by simp [hname, himage])

theorem decides_verifySteps : (steps : List Step) →
    Decides (Answered answers) (verifySteps steps) (∀ step ∈ steps, StepAllowed answers step)
  | [] => decides_pure.congr (by simp)
  | step :: rest => by
    rw [verifySteps]
    refine ((decides_verifyUses step).bind fun _ => decides_verifySteps rest).congr ?_
    rw [List.forall_mem_cons]

theorem decides_checkRunner (runsOn : Option Runner) : Decides Q (checkRunner runsOn)
    (∃ label, runsOn = some ⟨[label]⟩ ∧ isSupportedUbuntuRunner label = true) := by
  match runsOn with
  | none => exact (decides_crash _).congr (by simp)
  | some ⟨[]⟩ => exact (decides_fail _).congr (by simp)
  | some ⟨[label]⟩ => exact (decides_failIf _ _).congr (by simp)
  | some ⟨_ :: _ :: _⟩ => exact (decides_fail _).congr (by simp)

theorem decides_checkJob (job : Job) :
    Decides (Answered answers) (checkJob job) (JobAllowed answers job) :=
  (decides_failIf _ _).bind fun _ => (decides_checkRunner _).bind fun _ =>
    (decides_failIf _ _).bind fun _ => (decides_failIf _ _).bind fun _ => decides_verifySteps _

theorem decides_checkScorecardJob (w : Workflow) (job : SelectedJob) :
    Decides (Answered answers) (checkScorecardJob w job) (JobPasses answers w job) := by
  refine decides_rangeMap_bind fun order => ?_
  have hothers := (decides_checkOtherJobs (Q := Answered answers) job (w.jobs.visit order)).congr
    (forall_congr' fun e => imp_congr_left GoMap.mem_visit)
  exact hothers.bind fun _ => decides_checkJob job.2

end Verdict

theorem answered_runWith {α : Type} (answers : Commit → Except ServerError Bool)
    (orders : (n : Nat) → GoMap.Order n) (p : Prog VerifySig α) :
    ∀ e ∈ (p.runWith (fun _ o => some (answerWith answers orders o)) []).1, Answered answers e := by
  intro e he
  obtain ⟨past, h⟩ := exists_eq_of_mem_runWith he
  obtain ⟨o, x⟩ := e
  obtain rfl : answerWith answers orders o = x := Option.some.inj h
  cases o with
  | contains c => exact rfl
  | range n => trivial

/-- Every job that calls the scorecard action is the selected one in some run. -/
theorem exists_exec_selectScorecardJob (answers : Commit → Except ServerError Bool) {w : Workflow}
    {job : SelectedJob} (hw : GlobalsRestricted w) (hjob : IsCandidate w job) :
    ∃ t, Exec (selectScorecardJob w).run t (some (.ok job)) ∧ ∀ e ∈ t, Answered answers e := by
  obtain ⟨r, hglobals⟩ := exists_exec_runWith (fun _ => answerWith answers GoMap.Order.listed)
    (checkGlobals w).run []
  have hanswered := answered_runWith answers GoMap.Order.listed (checkGlobals w).run
  obtain rfl := (decides_checkGlobals w _ _ hglobals hanswered).mpr hw
  obtain ⟨order, rest, horder⟩ := GoMap.exists_visit_head hjob.1
  have hfind : findScorecardJob (w.jobs.visit order) = some job := by
    rw [horder, findScorecardJob, if_pos hjob.2]
  refine ⟨_, hglobals.run_bind ((exec_rangeMap_ok.mpr ⟨order, rfl, rfl⟩).run_bind
    (exec_selectedOrFail_ok.mpr ⟨rfl, hfind⟩)), ?_⟩
  rw [List.forall_mem_append]
  refine ⟨hanswered, ?_⟩
  simp [Answered]

/-- Where the jobs agree, the verdict is whether the global checks and some job pass. -/
theorem decides_selectScorecardJob_bind {answers : Commit → Except ServerError Bool} {w : Workflow}
    (hagree : JobsAgree answers w) :
    Decides (Answered answers) (selectScorecardJob w >>= checkScorecardJob w)
      (GlobalsRestricted w ∧ ∃ job, IsCandidate w job ∧ JobPasses answers w job) := by
  rw [selectScorecardJob, bind_assoc]
  refine (decides_checkGlobals w).bind fun hw => ?_
  rw [bind_assoc]
  refine decides_rangeMap_bind fun order => ?_
  cases hfind : findScorecardJob (w.jobs.visit order) with
  | none =>
    refine (decides_fail _).congr (iff_of_false id ?_)
    rintro ⟨job, hjob, -⟩
    exact findScorecardJob_ne_none hjob.2 (GoMap.mem_visit.mpr hjob.1) hfind
  | some job =>
    obtain ⟨hmem, hcalls⟩ := of_findScorecardJob_eq_some hfind
    have hjob : IsCandidate w job := ⟨GoMap.mem_visit.mp hmem, hcalls⟩
    rw [selectedOrFail, pure_bind]
    refine (decides_checkScorecardJob w job).congr ⟨fun h => ⟨job, hjob, h⟩, ?_⟩
    rintro ⟨job', hjob', h⟩
    exact (hagree hw job' job hjob' hjob).mp h

/-- The other direction of `orderIndependent_iff`, for a run that selects one of the jobs. -/
private theorem jobPasses_of_orderIndependent {P : WorkflowParser} {workflowContent : String}
    {answers : Commit → Except ServerError Bool} {w : Workflow} {job job' : SelectedJob}
    (hind : OrderIndependent P workflowContent answers)
    (hparsed : parsedWorkflow P workflowContent = .ok w) (hw : GlobalsRestricted w)
    (hjob : IsCandidate w job) (hjob' : IsCandidate w job') (h : JobPasses answers w job) :
    JobPasses answers w job' := by
  -- a run that selects `j` and ends in the verdict on `j`
  have hrun : ∀ j, IsCandidate w j → ∃ t r,
      Exec (verifyScorecardWorkflow P workflowContent).run t (some r) ∧
        (∀ e ∈ t, Answered answers e) ∧ (r = .ok () ↔ JobPasses answers w j) := by
    intro j hj
    obtain ⟨t₁, h₁, ht₁⟩ := exists_exec_selectScorecardJob answers hw hj
    obtain ⟨r, h₂⟩ := exists_exec_runWith (fun _ => answerWith answers GoMap.Order.listed)
      (checkScorecardJob w j).run []
    have ht₂ := answered_runWith answers GoMap.Order.listed (checkScorecardJob w j).run
    refine ⟨_, _, (exec_ofExcept_ok.mpr ⟨rfl, hparsed⟩).run_bind (h₁.run_bind h₂), ?_,
      decides_checkScorecardJob w j _ _ h₂ ht₂⟩
    rw [List.nil_append, List.forall_mem_append]
    exact ⟨ht₁, ht₂⟩
  obtain ⟨t, r, hr, ht, hverdict⟩ := hrun job hjob
  obtain ⟨t', r', hr', ht', hverdict'⟩ := hrun job' hjob'
  exact hverdict'.mp ((hind t t' r r' hr hr' ht ht').mp (hverdict.mpr h))

/-- **Order of the jobs.** The verdict on a content does not depend on the orders of the maps
exactly when the content does not parse, the workflow fails the global checks, or the jobs that call
the scorecard action all pass or all fail. -/
theorem orderIndependent_iff (P : WorkflowParser) (workflowContent : String)
    (answers : Commit → Except ServerError Bool) :
    OrderIndependent P workflowContent answers ↔
      ∀ w, parsedWorkflow P workflowContent = .ok w → JobsAgree answers w := by
  constructor
  · intro hind w hparsed hw job job' hjob hjob'
    exact ⟨jobPasses_of_orderIndependent hind hparsed hw hjob hjob',
      jobPasses_of_orderIndependent hind hparsed hw hjob' hjob⟩
  · intro hagree t₁ t₂ r₁ r₂ h₁ h₂ ht₁ ht₂
    have hdecides : Decides (Answered answers) (verifyScorecardWorkflow P workflowContent)
        (∃ w, parsedWorkflow P workflowContent = .ok w ∧ GlobalsRestricted w ∧
          ∃ job, IsCandidate w job ∧ JobPasses answers w job) := by
      refine decides_ofExcept (fun w hw => ?_) (fun e he => ?_)
      · refine (decides_selectScorecardJob_bind (hagree w hw)).congr ?_
        simp [hw]
      · simp [he]
    rw [hdecides t₁ r₁ h₁ ht₁, hdecides t₂ r₂ h₂ ht₂]

/-- A job that calls the scorecard action on a runner of its own. -/
def selfHostedJob : Job := sampleJob none "self-hosted" ["ossf/scorecard-action@v2"]

/-- Two jobs call the scorecard action, and only one of them meets the restrictions: the verdict
depends on which of them is met first. -/
theorem exists_not_orderIndependent : ¬OrderIndependent
    (sampleParser (sampleWorkflow scorecardJob selfHostedJob)) "" fun _ => .ok true := by
  intro h
  let P := sampleParser (sampleWorkflow scorecardJob selfHostedJob)
  have h₁ := exec_runWith (fun _ o => some (answerWith (fun _ => .ok true) GoMap.Order.listed o))
    (verifyScorecardWorkflow P "").run []
  have h₂ := exec_runWith (fun _ o => some (answerWith (fun _ => .ok true) GoMap.Order.reversed o))
    (verifyScorecardWorkflow P "").run []
  have haccepted : ((verifyScorecardWorkflow P "").run.runWith
      (fun _ o => some (answerWith (fun _ => .ok true) GoMap.Order.listed o)) []).2 =
      some (.ok ()) := rfl
  have hrejected : ((verifyScorecardWorkflow P "").run.runWith
      (fun _ o => some (answerWith (fun _ => .ok true) GoMap.Order.reversed o)) []).2 =
      some (.error (.error (.verification
        (.wrap "" (.sentinel .errInvalidRunnerLabel) ": 'self-hosted'")))) := rfl
  rw [haccepted] at h₁
  rw [hrejected] at h₂
  cases (h _ _ _ _ h₁ h₂ (answered_runWith _ _ _) (answered_runWith _ _ _)).mp rfl

end ScorecardInfra.Server
