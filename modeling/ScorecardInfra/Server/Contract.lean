import ScorecardInfra.Cron.Format
import ScorecardInfra.Server.ReadResults

/-!
# The batch results and the API's contract

`GetResultHandler` decodes a stored result into the generated `models.ScorecardResult`, a record of
its own beside the one that `AsJSON2` encodes. The two agree on all fields but the metadata: the
batch record has a list of strings where the contract has a string. So the API can read a batch
result exactly if its metadata are the nil slice, and gives back its strings exactly if they are
valid UTF-8 (`batchResult_readable_iff`).

## Main definitions

* `ScorecardResult`, `decodeScorecardResult`, `unmarshalBinary`.
* `ReadsBack`: the decoded result has the data of the scan's result.

## Main results

* `unmarshalBinary_marshal`: what the contract decodes from an encoded batch record.
* `batchResult_readable_iff`.

Source: `api/app/generated/models`, `api/openapi.yaml`, lines 232–310.
-/

namespace ScorecardInfra.Server.Models

open GoStd Interaction Cron.Format

/-! ### The contract -/

/-- `models.Repo`. -/
structure Repo where
  name : String
  commit : String
  deriving DecidableEq

/-- `models.ScorecardVersion`. -/
structure ScorecardVersion where
  version : String
  commit : String
  deriving DecidableEq

/-- `models.ScorecardCheckDocumentation`. -/
structure ScorecardCheckDocumentation where
  url : String
  short : String
  deriving DecidableEq

/-- `models.ScorecardCheck`. -/
structure ScorecardCheck where
  name : String
  score : Int64
  reason : String
  details : Option (List String)
  documentation : Option ScorecardCheckDocumentation
  deriving DecidableEq

/-- `models.ScorecardResult`. -/
structure ScorecardResult where
  date : String
  repo : Option Repo
  scorecard : Option ScorecardVersion
  score : NumLit
  checks : Option (List (Option ScorecardCheck))
  metadata : String
  deriving DecidableEq

/-- Decode a `Repo`. -/
def decodeRepo : Decoder Repo := decodeStruct "models" "Repo" [
  field "name" Repo.name (fun s r => { r with name := s }) decodeString,
  field "commit" Repo.commit (fun s r => { r with commit := s }) decodeString]

/-- Decode a `ScorecardVersion`. -/
def decodeScorecardVersion : Decoder ScorecardVersion := decodeStruct "models" "ScorecardVersion" [
  field "version" ScorecardVersion.version (fun s v => { v with version := s }) decodeString,
  field "commit" ScorecardVersion.commit (fun s v => { v with commit := s }) decodeString]

/-- Decode a `ScorecardCheckDocumentation`. -/
def decodeDocumentation : Decoder ScorecardCheckDocumentation :=
  decodeStruct "models" "ScorecardCheckDocumentation" [
    field "url" ScorecardCheckDocumentation.url (fun s d => { d with url := s }) decodeString,
    field "short" ScorecardCheckDocumentation.short (fun s d => { d with short := s }) decodeString]

/-- Decode a `ScorecardCheck`. -/
def decodeScorecardCheck : Decoder ScorecardCheck := decodeStruct "models" "ScorecardCheck" [
  field "name" ScorecardCheck.name (fun s c => { c with name := s }) decodeString,
  field "score" ScorecardCheck.score (fun n c => { c with score := n }) (decodeInt "int64"),
  field "reason" ScorecardCheck.reason (fun s c => { c with reason := s }) decodeString,
  field "details" ScorecardCheck.details (fun l c => { c with details := l })
    (decodeSlice "[]string" "" decodeString),
  field "documentation" ScorecardCheck.documentation (fun d c => { c with documentation := d })
    (decodePtr ⟨"", ""⟩ decodeDocumentation)]

/-- The zero `ScorecardCheck`. -/
def ScorecardCheck.zero : ScorecardCheck := ⟨"", 0, "", none, none⟩

/-- Decode a `ScorecardResult`. -/
def decodeScorecardResult : Decoder ScorecardResult := decodeStruct "models" "ScorecardResult" [
  field "date" ScorecardResult.date (fun s r => { r with date := s }) decodeString,
  field "repo" ScorecardResult.repo (fun p r => { r with repo := p })
    (decodePtr ⟨"", ""⟩ decodeRepo),
  field "scorecard" ScorecardResult.scorecard (fun p r => { r with scorecard := p })
    (decodePtr ⟨"", ""⟩ decodeScorecardVersion),
  field "score" ScorecardResult.score (fun x r => { r with score := x }) decodeFloat64,
  field "checks" ScorecardResult.checks (fun l r => { r with checks := l })
    (decodeSlice "[]*models.ScorecardCheck" none (decodePtr .zero decodeScorecardCheck)),
  field "metadata" ScorecardResult.metadata (fun s r => { r with metadata := s }) decodeString]

/-- The zero `ScorecardResult`. -/
def ScorecardResult.zero : ScorecardResult := ⟨"", none, none, .zero, none, ""⟩

/-- `UnmarshalBinary`. -/
def unmarshalBinary (text : String) : Except DecodeError ScorecardResult :=
  unmarshal decodeScorecardResult .zero text

/-! ### What the contract decodes -/

/-- A check of the batch record as the contract has it. -/
def ofCheckResultV2 (c : JsonCheckResultV2) : ScorecardCheck :=
  ⟨c.name, c.score, c.reason, c.details, some ⟨c.doc.url, c.doc.short⟩⟩

/-- A batch record without metadata as the contract has it. -/
def ofScorecardResultV2 (r : JsonScorecardResultV2) : ScorecardResult where
  date := r.date
  repo := some ⟨r.repo.name, r.repo.commit⟩
  scorecard := some ⟨r.scorecard.version, r.scorecard.commit⟩
  score := r.aggregateScore
  checks := r.checks.map (List.map fun c => some (ofCheckResultV2 c))
  metadata := ""

theorem decodeRepo_toJson (place : Place) (r : JsonRepoV2) :
    decodePtr ⟨"", ""⟩ decodeRepo place none r.toJson = .ok (some ⟨r.name, r.commit⟩) := rfl

theorem decodeScorecardVersion_toJson (place : Place) (s : JsonScorecardV2) :
    decodePtr ⟨"", ""⟩ decodeScorecardVersion place none s.toJson =
      .ok (some ⟨s.version, s.commit⟩) := rfl

theorem decodeDocumentation_toJson (place : Place) (d : JsonCheckDocumentationV2) :
    decodePtr ⟨"", ""⟩ decodeDocumentation place none d.toJson = .ok (some ⟨d.url, d.short⟩) := rfl

theorem decodeScorecardCheck_toJson (place : Place) (c : JsonCheckResultV2) :
    decodePtr .zero decodeScorecardCheck place none c.toJson = .ok (some (ofCheckResultV2 c)) := by
  have hdetails : ∀ place, decodeSlice "[]string" "" decodeString place none
      (jsonSlice .str c.details) = .ok c.details := by
    intro place
    rw [decodeSlice_jsonSlice (f := id) fun _ => rfl, List.map_id_fun, Option.map_id_fun, id]
  have hscore : ∀ place cur, decodeInt "int64" place cur (.num (.ofInt c.score.toInt)) =
      .ok c.score := by
    intro place cur
    rw [decodeInt, NumLit.parseInt_ofInt]
  rw [JsonCheckResultV2.toJson, decodePtr, Option.getD_none, decodeScorecardCheck, decodeStruct,
    decodeMembers_cons rfl (hdetails _), decodeMembers_cons rfl (hscore _ _),
    decodeMembers_cons (v := c.reason) rfl rfl, decodeMembers_cons (v := c.name) rfl rfl,
    decodeMembers_cons rfl (decodeDocumentation_toJson _ c.doc), decodeMembers]
  · rfl
  · intro h
    cases h

private theorem decodeChecks_toJson (place : Place) (l : Option (List JsonCheckResultV2)) :
    decodeSlice "[]*models.ScorecardCheck" none (decodePtr .zero decodeScorecardCheck) place none
      (jsonSlice JsonCheckResultV2.toJson l) =
        .ok (l.map (List.map fun c => some (ofCheckResultV2 c))) :=
  decodeSlice_jsonSlice (decodeScorecardCheck_toJson place) l

/-- The fields before the metadata are decoded; the metadata are, if they are `null`. -/
theorem decodeScorecardResult_toJson (r : JsonScorecardResultV2)
    (hscore : r.aggregateScore.isFloat = true) :
    decodeScorecardResult ⟨"", []⟩ .zero r.toJson =
      match r.metadata with
      | none => .ok (ofScorecardResultV2 r)
      | some _ => .error (.unmarshalType "array" "string" ⟨"ScorecardResult", ["metadata"]⟩) := by
  have hfloat : ∀ place cur, decodeFloat64 place cur (.num r.aggregateScore) =
      .ok r.aggregateScore := fun place cur => if_pos hscore
  rw [JsonScorecardResultV2.toJson, decodeScorecardResult, decodeStruct,
    decodeMembers_cons (v := r.date) rfl rfl, decodeMembers_cons rfl (decodeRepo_toJson _ r.repo),
    decodeMembers_cons rfl (decodeScorecardVersion_toJson _ r.scorecard),
    decodeMembers_cons rfl (hfloat _ _), decodeMembers_cons rfl (decodeChecks_toJson _ r.checks)]
  cases r.metadata with
  | none => rfl
  | some l => rfl

/-- **The contract.** What it decodes from an encoded batch record. -/
theorem unmarshalBinary_marshal (r : JsonScorecardResultV2)
    (hscore : r.aggregateScore.isFloat = true) :
    unmarshalBinary r.toJson.marshal =
      match r.metadata with
      | none => .ok (ofScorecardResultV2 r.coerce)
      | some _ => .error (.unmarshalType "array" "string" ⟨"ScorecardResult", ["metadata"]⟩) := by
  rw [unmarshalBinary, unmarshal_marshal _ _ r.depth_toJson_le, r.coerce_toJson,
    decodeScorecardResult_toJson r.coerce hscore, JsonScorecardResultV2.coerce]
  cases r.metadata <;> rfl

/-- Where the stored object is a batch record with metadata, the handler answers with an error. -/
theorem getResultHandler_metadata {primary cron : BucketAccess} {host orgName repoName : String}
    {commit : Option String} {r : JsonScorecardResultV2} {metadata : List String}
    (h : getResults primary cron host orgName repoName commit = .ok r.toJson.marshal)
    (hscore : r.aggregateScore.isFloat = true) (hm : r.metadata = some metadata) :
    getResultHandler primary cron host orgName repoName commit
        (fun b => (unmarshalBinary b).mapError DecodeError.message) =
      .default 500 (DecodeError.message
        (.unmarshalType "array" "string" ⟨"ScorecardResult", ["metadata"]⟩)) := by
  have hdecode := unmarshalBinary_marshal r hscore
  rw [hm] at hdecode
  rw [getResultHandler, h]
  dsimp only
  rw [hdecode]
  rfl

/-! ### Reading batch results -/

section Batch

variable {Detail Level : Type} (e : Engine Detail Level) (showDetails : Bool) (logLevel : Level)

/-- The decoded result has the date, the repository, the version, the score and the checks of the
scan's result. -/
structure ReadsBack (r : Result Detail) (d : ScorecardResult) : Prop where
  date_eq : d.date = String.ofList r.date.date.format
  repo_eq : d.repo = some ⟨r.repoName, r.repoCommitSHA⟩
  scorecard_eq : d.scorecard = some ⟨r.scorecardVersion, r.scorecardCommitSHA⟩
  score_eq : ∃ score, e.getAggregateScore r = .ok score ∧ score.fixed1 = .ok d.score
  checks_eq : ∃ checks, r.checks.mapM (checkResultV2 e showDetails logLevel r) = .ok checks ∧
    d.checks.getD [] = checks.map fun c => some (ofCheckResultV2 c)

variable {e showDetails logLevel} {r : Result Detail} {text : String}

theorem ofCheckResultV2_injective : Function.Injective ofCheckResultV2 := by
  rintro ⟨details, score, reason, name, doc⟩ ⟨details', score', reason', name', doc'⟩ h
  simp only [ofCheckResultV2, ScorecardCheck.mk.injEq, Option.some.injEq,
    ScorecardCheckDocumentation.mk.injEq] at h
  obtain ⟨rfl, rfl, rfl, rfl, hurl, hshort⟩ := h
  exact congrArg _ (JsonCheckDocumentationV2.ext hurl hshort)

private theorem coerceChecks_iff {cs : List (CheckResult Detail)} {checks : List JsonCheckResultV2}
    (h : List.Forall₂ (fun c c' => checkResultV2 e showDetails logLevel r c = .ok c') cs checks) :
    (checks.map fun c => some (ofCheckResultV2 c.coerce)) =
      (checks.map fun c => some (ofCheckResultV2 c)) ↔
        ∀ c ∈ cs, ∀ s ∈ checkStrings e showDetails logLevel r c, validUTF8 s = true := by
  induction h with
  | nil => exact iff_of_true rfl fun c hc => absurd hc List.not_mem_nil
  | cons hc _ ih =>
    rw [List.map_cons, List.map_cons, List.cons.injEq, Option.some.injEq,
      ofCheckResultV2_injective.eq_iff, coerce_eq_self_iff hc, ih, List.forall_mem_cons]

/-- What is read back has the data of the result exactly if the coercion changes none of its
strings. -/
theorem readsBack_coerce_iff {out : JsonScorecardResultV2}
    (h : scorecardResultV2 e showDetails logLevel r = .ok out) :
    ReadsBack e showDetails logLevel r (ofScorecardResultV2 out.coerce) ↔
      ∀ s ∈ writtenStrings e showDetails logLevel r, validUTF8 s = true := by
  obtain ⟨score, checks, number, hscore, hchecks, hnumber, rfl⟩ := scorecardResultV2_eq_ok.mp h
  have hall := mapM_eq_ok.mp hchecks
  have hdate : toValidUTF8 (String.ofList r.date.date.format) = String.ofList r.date.date.format :=
    toValidUTF8_eq_self_iff.mpr (Utf8.valid_of_ascii (by simpa using r.date.date.ascii_format))
  have hread : (ofScorecardResultV2 (JsonScorecardResultV2.coerce
      ⟨String.ofList r.date.date.format, ⟨r.repoName, r.repoCommitSHA⟩,
        ⟨r.scorecardVersion, r.scorecardCommitSHA⟩, number, appended checks,
        r.metadata⟩)).checks.getD
          [] = checks.map fun c => some (ofCheckResultV2 c.coerce) := by
    rw [ofScorecardResultV2, JsonScorecardResultV2.coerce]
    dsimp only
    rw [appended_map, appended_map, getD_appended, List.map_map]
    rfl
  simp only [writtenStrings, List.forall_mem_append, List.forall_mem_cons, List.forall_mem_flatMap,
    ← coerceChecks_iff hall]
  constructor
  · intro hback
    obtain ⟨checks', hchecks', heq⟩ := hback.checks_eq
    obtain rfl := Except.ok.inj (hchecks.symm.trans hchecks')
    have hrepo := hback.repo_eq
    have hversion := hback.scorecard_eq
    simp only [ofScorecardResultV2, JsonScorecardResultV2.coerce, Option.some.injEq, Repo.mk.injEq,
      ScorecardVersion.mk.injEq, toValidUTF8_eq_self_iff] at hrepo hversion
    exact ⟨⟨hrepo.1, hrepo.2, hversion.1, hversion.2, by simp⟩, hread.symm.trans heq⟩
  · rintro ⟨⟨hname, hcommit, hversion, hscorecard, -⟩, hchecks'⟩
    refine ⟨hdate, ?_, ?_, ⟨score, hscore, hnumber⟩, checks, hchecks, hread.trans hchecks'⟩
    · rw [← toValidUTF8_eq_self_iff] at hname hcommit
      simp only [ofScorecardResultV2, JsonScorecardResultV2.coerce, hname, hcommit]
    · rw [← toValidUTF8_eq_self_iff] at hversion hscorecard
      simp only [ofScorecardResultV2, JsonScorecardResultV2.coerce, hversion, hscorecard]

/-- **The batch pipeline and the API.** The API reads what the batch pipeline writes for a result,
with the result's data, exactly if the metadata are the nil slice and the written strings are valid
UTF-8. -/
theorem batchResult_readable_iff (h : asJSON2 e showDetails logLevel r = .ok text) :
    (∃ d, unmarshalBinary text = .ok d ∧ ReadsBack e showDetails logLevel r d) ↔
      r.metadata = none ∧
        ∀ s ∈ writtenStrings e showDetails logLevel r, validUTF8 s = true := by
  obtain ⟨out, hout, rfl⟩ := asJSON2_eq_ok.mp h
  obtain ⟨score, checks, number, hscore, hchecks, hnumber, hrecord⟩ :=
    scorecardResultV2_eq_ok.mp hout
  have hfloat : out.aggregateScore.isFloat = true := by
    rw [hrecord]
    exact Float64.isFloat_fixed1 hnumber
  have hmetadata : out.metadata = r.metadata := by rw [hrecord]
  rw [unmarshalBinary_marshal out hfloat, hmetadata]
  cases r.metadata with
  | none =>
    constructor
    · rintro ⟨d, hd, hback⟩
      obtain rfl := Except.ok.inj hd
      exact ⟨rfl, (readsBack_coerce_iff hout).mp hback⟩
    · rintro ⟨-, hvalid⟩
      exact ⟨_, rfl, (readsBack_coerce_iff hout).mpr hvalid⟩
  | some metadata =>
    constructor
    · rintro ⟨d, hd, -⟩
      cases hd
    · rintro ⟨hnone, -⟩
      cases hnone

end Batch

/-- A result without metadata is read. -/
theorem sampleResult_readable : ∃ text,
    asJSON2 sampleEngine true () (sampleResult none) = .ok text ∧
    ∃ d, unmarshalBinary text = .ok d ∧ ReadsBack sampleEngine true () (sampleResult none) d :=
  ⟨_, rfl, (batchResult_readable_iff rfl).mpr ⟨rfl, by decide⟩⟩

/-- A result with metadata is written and not read. -/
theorem exists_batchResult_not_readable :
    ¬∀ (r : Result String) (text : String), asJSON2 sampleEngine true () r = .ok text →
      ∃ d, unmarshalBinary text = .ok d ∧ ReadsBack sampleEngine true () r d := by
  intro h
  obtain ⟨d, hd, -⟩ := h (sampleResult (some ["num_dependents_deps.dev:0"])) _ rfl
  rw [unmarshalBinary_marshal _ (Float64.isFloat_fixed1 (x := sampleScore) rfl)] at hd
  cases hd

end ScorecardInfra.Server.Models
