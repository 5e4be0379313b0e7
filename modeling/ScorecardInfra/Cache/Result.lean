import ScorecardInfra.Cron.Format

/-!
# Results as the server reads them

The server keeps a result's JSON as it came and decodes it to look into it (`model.Parse`). Its
record has the metadata as a list of strings, so it reads every batch result (`parse_asJSON2`).

## Main definitions

* `Result`, `parse`: `model.Result` and `model.Parse`.
* `ScanResult`, `complete`: a produced result, and whether every check has a conclusive score.

## Main results

* `parse_marshal`, `parse_asJSON2`.

Source: `internal/model/result.go`, `internal/scan/scan.go`.
-/

namespace ScorecardInfra.Cache

open GoStd Interaction Cron.Format

/-! ### The record -/

/-- `model.Documentation`. -/
structure Documentation where
  url : String
  short : String
  deriving DecidableEq

/-- `model.Check`. -/
structure Check where
  details : Option (List String)
  score : Int64
  reason : String
  name : String
  documentation : Documentation
  annotations : Option (List String)
  deriving DecidableEq

/-- `model.Repo`. -/
structure Repo where
  name : String
  commit : String
  deriving DecidableEq

/-- `model.Scorecard`. -/
structure Scorecard where
  version : String
  commit : String
  deriving DecidableEq

/-- `model.Result`. -/
structure Result where
  date : String
  repo : Repo
  scorecard : Scorecard
  score : NumLit
  checks : Option (List Check)
  metadata : Option (List String)
  deriving DecidableEq

/-- Decode a `Documentation`. -/
def decodeDocumentation : Decoder Documentation := decodeStruct "model" "Documentation" [
  field "url" Documentation.url (fun s d => { d with url := s }) decodeString,
  field "short" Documentation.short (fun s d => { d with short := s }) decodeString]

/-- Decode a `Check`. -/
def decodeCheck : Decoder Check := decodeStruct "model" "Check" [
  field "details" Check.details (fun l c => { c with details := l })
    (decodeSlice "[]string" "" decodeString),
  field "score" Check.score (fun n c => { c with score := n }) (decodeInt "int"),
  field "reason" Check.reason (fun s c => { c with reason := s }) decodeString,
  field "name" Check.name (fun s c => { c with name := s }) decodeString,
  field "documentation" Check.documentation (fun d c => { c with documentation := d })
    decodeDocumentation,
  field "annotations" Check.annotations (fun l c => { c with annotations := l })
    (decodeSlice "[]string" "" decodeString)]

/-- Decode a `Repo`. -/
def decodeRepo : Decoder Repo := decodeStruct "model" "Repo" [
  field "name" Repo.name (fun s r => { r with name := s }) decodeString,
  field "commit" Repo.commit (fun s r => { r with commit := s }) decodeString]

/-- Decode a `Scorecard`. -/
def decodeScorecard : Decoder Scorecard := decodeStruct "model" "Scorecard" [
  field "version" Scorecard.version (fun s v => { v with version := s }) decodeString,
  field "commit" Scorecard.commit (fun s v => { v with commit := s }) decodeString]

/-- The zero `Check`. -/
def Check.zero : Check := ⟨none, 0, "", "", ⟨"", ""⟩, none⟩

/-- Decode a `Result`. -/
def decodeResult : Decoder Result := decodeStruct "model" "Result" [
  field "date" Result.date (fun s r => { r with date := s }) decodeString,
  field "repo" Result.repo (fun p r => { r with repo := p }) decodeRepo,
  field "scorecard" Result.scorecard (fun p r => { r with scorecard := p }) decodeScorecard,
  field "score" Result.score (fun x r => { r with score := x }) decodeFloat64,
  field "checks" Result.checks (fun l r => { r with checks := l })
    (decodeSlice "[]model.Check" .zero decodeCheck),
  field "metadata" Result.metadata (fun l r => { r with metadata := l })
    (decodeSlice "[]string" "" decodeString)]

/-- The zero `Result`. -/
def Result.zero : Result := ⟨"", ⟨"", ""⟩, ⟨"", ""⟩, .zero, none, none⟩

/-- `model.Parse`; the error is the wrapped one's. -/
def parse (data : String) : Except DecodeError Result := unmarshal decodeResult .zero data

/-- `scan.Complete`. -/
def complete (checks : Option (List Check)) : Bool :=
  (checks.getD []).all fun c => decide (0 ≤ c.score.toInt)

/-- `scan.Result`. -/
structure ScanResult where
  resolvedCommit : String
  json2 : String
  complete : Bool
  deriving DecidableEq

/-! ### Batch results -/

/-- A check of the batch record as the server has it. -/
def ofCheckResultV2 (c : JsonCheckResultV2) : Check :=
  ⟨c.details, c.score, c.reason, c.name, ⟨c.doc.url, c.doc.short⟩, none⟩

/-- A batch record as the server has it. -/
def ofScorecardResultV2 (r : JsonScorecardResultV2) : Result where
  date := r.date
  repo := ⟨r.repo.name, r.repo.commit⟩
  scorecard := ⟨r.scorecard.version, r.scorecard.commit⟩
  score := r.aggregateScore
  checks := r.checks.map (List.map ofCheckResultV2)
  metadata := r.metadata

theorem decodeStrings (place : Place) (l : Option (List String)) :
    decodeSlice "[]string" "" decodeString place none (jsonSlice .str l) = .ok l := by
  rw [decodeSlice_jsonSlice (f := id) fun _ => rfl, List.map_id_fun, Option.map_id_fun, id]

theorem decodeCheck_toJson (place : Place) (c : JsonCheckResultV2) :
    decodeCheck place .zero c.toJson = .ok (ofCheckResultV2 c) := by
  have hscore : ∀ place cur, decodeInt "int" place cur (.num (.ofInt c.score.toInt)) =
      .ok c.score := by
    intro place cur
    rw [decodeInt, NumLit.parseInt_ofInt]
  have hdoc : ∀ place cur, decodeDocumentation place cur c.doc.toJson =
      .ok ⟨c.doc.url, c.doc.short⟩ := fun _ _ => rfl
  rw [JsonCheckResultV2.toJson, decodeCheck, decodeStruct,
    decodeMembers_cons rfl (decodeStrings _ c.details), decodeMembers_cons rfl (hscore _ _),
    decodeMembers_cons (v := c.reason) rfl rfl, decodeMembers_cons (v := c.name) rfl rfl,
    decodeMembers_cons rfl (hdoc _ _), decodeMembers]
  rfl

/-- **Batch records** are read with all their data. -/
theorem parse_marshal (r : JsonScorecardResultV2) (hscore : r.aggregateScore.isFloat = true) :
    parse r.toJson.marshal = .ok (ofScorecardResultV2 r.coerce) := by
  have hfloat : ∀ place cur, decodeFloat64 place cur (.num r.coerce.aggregateScore) =
      .ok r.coerce.aggregateScore := fun _ _ => if_pos hscore
  have hrepo : ∀ place cur, decodeRepo place cur r.coerce.repo.toJson =
      .ok ⟨r.coerce.repo.name, r.coerce.repo.commit⟩ := fun _ _ => rfl
  have hscorecard : ∀ place cur, decodeScorecard place cur r.coerce.scorecard.toJson =
      .ok ⟨r.coerce.scorecard.version, r.coerce.scorecard.commit⟩ := fun _ _ => rfl
  have hchecks : ∀ place, decodeSlice "[]model.Check" .zero decodeCheck place none
      (jsonSlice JsonCheckResultV2.toJson r.coerce.checks) =
        .ok (r.coerce.checks.map (List.map ofCheckResultV2)) :=
    fun place => decodeSlice_jsonSlice (decodeCheck_toJson place) _
  rw [parse, unmarshal_marshal _ _ r.depth_toJson_le, r.coerce_toJson, JsonScorecardResultV2.toJson,
    decodeResult, decodeStruct, decodeMembers_cons (v := r.coerce.date) rfl rfl,
    decodeMembers_cons rfl (hrepo _ _), decodeMembers_cons rfl (hscorecard _ _),
    decodeMembers_cons rfl (hfloat _ _), decodeMembers_cons rfl (hchecks _),
    decodeMembers_cons rfl (decodeStrings _ r.coerce.metadata), decodeMembers]
  rfl

/-- **Batch results.** The server reads what `AsJSON2` writes, with its date, whatever the metadata
are. -/
theorem parse_asJSON2 {Detail Level : Type} {e : Engine Detail Level} {showDetails : Bool}
    {logLevel : Level} {r : Cron.Format.Result Detail} {text : String}
    (h : asJSON2 e showDetails logLevel r = .ok text) :
    ∃ d, parse text = .ok d ∧ d.date = String.ofList r.date.date.format ∧
      d.metadata = r.metadata.map (List.map toValidUTF8) := by
  obtain ⟨out, hout, rfl⟩ := asJSON2_eq_ok.mp h
  obtain ⟨score, checks, number, -, -, hnumber, rfl⟩ := scorecardResultV2_eq_ok.mp hout
  refine ⟨_, parse_marshal _ (Float64.isFloat_fixed1 hnumber), ?_, rfl⟩
  exact toValidUTF8_eq_self_iff.mpr (Utf8.valid_of_ascii (by simpa using r.date.date.ascii_format))

end ScorecardInfra.Cache
