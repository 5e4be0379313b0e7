import ScorecardInfra.Server.Publication

/-!
# The workflow that is verified

`getAndVerifyWorkflowContent` downloads one file and verifies its text. The certificate names the
file by the path of the workflow, and the ref of the workflow; it also names the repository of the
run with its ref and its commit. A file of that repository is read at the commit, whatever the ref
of the workflow; a file of another repository is read at the ref of the workflow
(`verified_content`).

A reusable workflow of the repository itself that was called at another ref is therefore read at the
commit of the run too (`exists_verified_other`).

## Main definitions

* `ServesContent`, `CertNames`.

## Main results

* `verified_content`.

Source: `api/app/server/post_results.go`, lines 194–201, 215–270 and 583–597.
-/

namespace ScorecardInfra.Server

open GoStd Interaction

/-- The files that GitHub returns have the contents of the repositories. -/
def ServesContent (content : String → String → String → String → String) (t : Trace ApiSig) :
    Prop :=
  ∀ client owner repo path ref text,
    ⟨.github client (.getContents owner repo path ref), .ok (some (.ok text))⟩ ∈ t →
      text = content owner repo path ref

/-- The workflow of the certificate's information is that of its first URI. -/
theorem workflowOfURIs_of_extractCertInfo {cert : Certificate} {info : CertInfo}
    (h : extractCertInfo cert = .ok info) :
    workflowOfURIs cert.uriPaths = .ok (info.workflowPath, info.workflowRef) := by
  simp only [extractCertInfo, except_bind_eq_ok] at h
  obtain ⟨ret, -, u, -, workflow, hworkflow, hret⟩ := h
  obtain rfl := Except.ok.inj hret
  exact hworkflow

/-- What a certificate names: the file of the workflow and its ref, in the first URI, and the
repository of the run with its commit. -/
structure CertNames (cert : Certificate) (owner repo path workflowRef repository sha : String) :
    Prop where
  workflow : ∃ workflowPath, workflowOfURIs cert.uriPaths = .ok (workflowPath, workflowRef) ∧
    splitFullPath workflowPath = some (owner, repo, path)
  repository : repository = (cert.extension fulcioRepoPathKey).getD ""
  sha : sha = (cert.extension fulcioRepoSHAKey).getD ""

/-- **The workflow that is verified.** What `getAndVerifyWorkflowContent` verifies is what it
fetches. For every certificate with its information, and every run that fetches a text, that text is
the content of the certificate's workflow: at the certificate's commit if the workflow lies in the
certificate's repository, and at the ref of the workflow otherwise. -/
theorem verified_content (L : Libraries) (cert : Certificate) (info : CertInfo)
    (scorecardResult : VerifiedScorecardResult) (hinfo : extractCertInfo cert = .ok info) :
    getAndVerifyWorkflowContent L scorecardResult info =
        (fetchWorkflowContent scorecardResult info >>= fun p => verifyWithGithub L p.1 p.2) ∧
      ∀ content t text client, ServesContent content t →
        Exec (fetchWorkflowContent scorecardResult info).run t (some (.ok (text, client))) →
        ∃ owner repo path workflowRef repository sha,
          CertNames cert owner repo path workflowRef repository sha ∧
          text = if fullName owner repo = repository then content owner repo path sha
            else content owner repo path workflowRef := by
  refine ⟨getAndVerifyWorkflowContent_eq L scorecardResult info,
    fun content t text client hserves h => ?_⟩
  obtain ⟨owner, repo, path, hpath, hmem⟩ := exec_fetchWorkflowContent_ok h
  have htext := hserves _ _ _ _ _ _ hmem
  obtain ⟨-, -, hrepository, hsha⟩ := of_extractCertInfo hinfo
  refine ⟨owner, repo, path, info.workflowRef, info.repoFullName, info.repoSHA,
    ⟨⟨info.workflowPath, workflowOfURIs_of_extractCertInfo hinfo, hpath⟩, hrepository, hsha⟩, ?_⟩
  rw [htext, workflowFileRef]
  split_ifs
  · rfl
  · rfl

/-! ### A reusable workflow of the repository itself -/

/-- A certificate for a run on `main` of a workflow that was called at the tag `v1`. -/
def reusableCert : Certificate :=
  { sampleCert with uriPaths := ["/org/repo/.github/workflows/scorecard.yml@refs/tags/v1"] }

/-- Its information. -/
def reusableInfo : CertInfo where
  repoFullName := "org/repo"
  repoBranchRef := "refs/heads/main"
  repoSHA := sampleCommit
  workflowPath := "org/repo/.github/workflows/scorecard.yml"
  workflowRef := "refs/tags/v1"
  issuer := githubOIDCIssuer

theorem extractCertInfo_reusableCert : extractCertInfo reusableCert = .ok reusableInfo := by decide

/-- The file has one text at the commit and another one at every ref. -/
def reusableContent (_ _ _ ref : String) : String :=
  if ref = sampleCommit then "on: push" else "on: workflow_call"

/-- The run that fetches it. -/
def reusableTrace : Trace ApiSig :=
  ((fetchWorkflowContent sampleResult reusableInfo).run.runWith
    (fun _ o => some (sampleAnswer o)) []).1

theorem exec_reusableTrace : Exec (fetchWorkflowContent sampleResult reusableInfo).run reusableTrace
    (some (.ok ("on: push", ⟨none⟩))) := by
  have hrun := exec_runWith (fun _ o => some (sampleAnswer o))
    (fetchWorkflowContent sampleResult reusableInfo).run []
  have hanswer : ((fetchWorkflowContent sampleResult reusableInfo).run.runWith
      (fun _ o => some (sampleAnswer o)) []).2 = some (.ok ("on: push", ⟨none⟩)) := rfl
  rwa [hanswer] at hrun

theorem servesContent_reusableTrace : ServesContent reusableContent reusableTrace := by
  have htrace : reusableTrace = [⟨.newGithubClient, ⟨none⟩⟩,
      ⟨.github ⟨none⟩ (.get "org" "repo"), .ok (some "main")⟩,
      ⟨.github ⟨none⟩ (.getContents "org" "repo" ".github/workflows/scorecard.yml" sampleCommit),
        .ok (some (.ok "on: push"))⟩] := rfl
  intro client owner repo path ref text hmem
  rw [htrace, List.mem_cons, List.mem_cons, List.mem_singleton] at hmem
  rcases hmem with hmem | hmem | hmem
  · cases hmem
  · cases hmem
  · cases hmem
    exact (if_pos rfl).symm

/-- The text of that run is the content that the certificate names. -/
theorem verified_content_reusableCert : ∃ owner repo path workflowRef repository sha,
    CertNames reusableCert owner repo path workflowRef repository sha ∧
      "on: push" = if fullName owner repo = repository then reusableContent owner repo path sha
        else reusableContent owner repo path workflowRef :=
  (verified_content sampleLibraries reusableCert reusableInfo sampleResult
    extractCertInfo_reusableCert).2 reusableContent reusableTrace "on: push" ⟨none⟩
    servesContent_reusableTrace exec_reusableTrace

/-- It is not the content at the ref of the workflow, which was called at another ref than that of
the run. -/
theorem exists_verified_other : ∃ cert info scorecardResult content t text client owner repo path,
    extractCertInfo cert = .ok info ∧ ServesContent content t ∧
      Exec (fetchWorkflowContent scorecardResult info).run t (some (.ok (text, client))) ∧
      splitFullPath info.workflowPath = some (owner, repo, path) ∧
      fullName owner repo = info.repoFullName ∧ info.workflowRef ≠ info.repoBranchRef ∧
      text ≠ content owner repo path info.workflowRef :=
  ⟨reusableCert, reusableInfo, sampleResult, reusableContent, reusableTrace, "on: push", ⟨none⟩,
    "org", "repo", ".github/workflows/scorecard.yml", extractCertInfo_reusableCert,
    servesContent_reusableTrace, exec_reusableTrace, by decide, by decide, by decide, by decide⟩

end ScorecardInfra.Server
