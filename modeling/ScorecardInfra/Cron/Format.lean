import ScorecardInfra.GoStd.Calendar
import ScorecardInfra.GoStd.Float

/-!
# The batch results as JSON

`AsJSON2` turns the result of a scan into a record with one field for each member of the JSON object
and encodes it. A slice to which nothing was appended is nil and encoded as `null`; the metadata of
the result are encoded as they are.

## Main definitions

* `Result`, `Engine`: the result of a scan, and what the serializer calls.
* `JsonScorecardResultV2`, `JsonScorecardResultV2.toJson`.
* `scorecardResultV2`, `asJSON2`.

## Main results

* `asJSON2_eq_ok`: what is written is the text of the record's tree.
* `JsonScorecardResultV2.coerce_toJson`, `JsonScorecardResultV2.depth_toJson_le`.

Source: `cron/internal/format/json.go`, lines 44–176.
-/

namespace ScorecardInfra.Cron.Format

open GoStd Interaction

/-! ### The result of a scan -/

/-- `checker.CheckResult`. -/
structure CheckResult (Detail : Type) where
  name : String
  score : Int64
  reason : String
  details : List Detail

/-- `scorecard.Result`; `none` is the nil slice. -/
structure Result (Detail : Type) where
  repoName : String
  repoCommitSHA : String
  scorecardVersion : String
  scorecardCommitSHA : String
  date : DateTime
  checks : List (CheckResult Detail)
  metadata : Option (List String)

/-- `docs.CheckDoc`. -/
structure CheckDoc where
  getDocumentationURL : String → String
  getShort : String

/-- The functions of the scorecard module that the serializer calls. -/
structure Engine (Detail Level : Type) where
  getAggregateScore : Result Detail → Except String Float64
  getCheck : String → Except String CheckDoc
  detailToString : Detail → Level → String

/-! ### The record -/

/-- `jsonCheckDocumentationV2`. -/
@[ext] structure JsonCheckDocumentationV2 where
  url : String
  short : String

/-- `jsonCheckResultV2`. -/
@[ext] structure JsonCheckResultV2 where
  details : Option (List String)
  score : Int64
  reason : String
  name : String
  doc : JsonCheckDocumentationV2

/-- `jsonRepoV2`. -/
@[ext] structure JsonRepoV2 where
  name : String
  commit : String

/-- `jsonScorecardV2`. -/
@[ext] structure JsonScorecardV2 where
  version : String
  commit : String

/-- `jsonScorecardResultV2`; the score is the number that `MarshalJSON` writes. -/
@[ext] structure JsonScorecardResultV2 where
  date : String
  repo : JsonRepoV2
  scorecard : JsonScorecardV2
  aggregateScore : NumLit
  checks : Option (List JsonCheckResultV2)
  metadata : Option (List String)

/-- The encoding of `jsonCheckDocumentationV2`. -/
def JsonCheckDocumentationV2.toJson (d : JsonCheckDocumentationV2) : Json :=
  .obj [("url", .str d.url), ("short", .str d.short)]

/-- The encoding of `jsonCheckResultV2`. -/
def JsonCheckResultV2.toJson (c : JsonCheckResultV2) : Json :=
  .obj [("details", jsonSlice .str c.details), ("score", .num (.ofInt c.score.toInt)),
    ("reason", .str c.reason), ("name", .str c.name), ("documentation", c.doc.toJson)]

/-- The encoding of `jsonRepoV2`. -/
def JsonRepoV2.toJson (r : JsonRepoV2) : Json :=
  .obj [("name", .str r.name), ("commit", .str r.commit)]

/-- The encoding of `jsonScorecardV2`. -/
def JsonScorecardV2.toJson (s : JsonScorecardV2) : Json :=
  .obj [("version", .str s.version), ("commit", .str s.commit)]

/-- The encoding of `jsonScorecardResultV2`. -/
def JsonScorecardResultV2.toJson (r : JsonScorecardResultV2) : Json :=
  .obj [("date", .str r.date), ("repo", r.repo.toJson), ("scorecard", r.scorecard.toJson),
    ("score", .num r.aggregateScore), ("checks", jsonSlice JsonCheckResultV2.toJson r.checks),
    ("metadata", jsonSlice .str r.metadata)]

/-- The record with its strings coerced to valid UTF-8. -/
def JsonCheckDocumentationV2.coerce (d : JsonCheckDocumentationV2) : JsonCheckDocumentationV2 :=
  ⟨toValidUTF8 d.url, toValidUTF8 d.short⟩

/-- The record with its strings coerced to valid UTF-8. -/
def JsonCheckResultV2.coerce (c : JsonCheckResultV2) : JsonCheckResultV2 :=
  ⟨c.details.map (List.map toValidUTF8), c.score, toValidUTF8 c.reason, toValidUTF8 c.name,
    c.doc.coerce⟩

/-- The record with its strings coerced to valid UTF-8. -/
def JsonScorecardResultV2.coerce (r : JsonScorecardResultV2) : JsonScorecardResultV2 :=
  ⟨toValidUTF8 r.date, ⟨toValidUTF8 r.repo.name, toValidUTF8 r.repo.commit⟩,
    ⟨toValidUTF8 r.scorecard.version, toValidUTF8 r.scorecard.commit⟩, r.aggregateScore,
    r.checks.map (List.map JsonCheckResultV2.coerce), r.metadata.map (List.map toValidUTF8)⟩

theorem coerce_strings (l : Option (List String)) :
    (jsonSlice Json.str l).coerce = jsonSlice Json.str (l.map (List.map toValidUTF8)) := by
  rw [coerce_jsonSlice]
  cases l with
  | none => rfl
  | some l => rw [jsonSlice, Option.map_some, jsonSlice, List.map_map]; rfl

theorem JsonCheckResultV2.coerce_toJson (c : JsonCheckResultV2) :
    c.toJson.coerce = c.coerce.toJson := by
  simp (disch := decide) only [JsonCheckResultV2.toJson,
    JsonCheckDocumentationV2.toJson, Json.coerce,
    coerceMembers_cons, Json.coerceMembers.eq_1, coerce_strings, JsonCheckResultV2.coerce,
    JsonCheckDocumentationV2.coerce]

/-- The encoding coerces the strings of the record. -/
theorem JsonScorecardResultV2.coerce_toJson (r : JsonScorecardResultV2) :
    r.toJson.coerce = r.coerce.toJson := by
  have hchecks : (jsonSlice JsonCheckResultV2.toJson r.checks).coerce =
      jsonSlice JsonCheckResultV2.toJson (r.checks.map (List.map JsonCheckResultV2.coerce)) := by
    rw [coerce_jsonSlice, funext JsonCheckResultV2.coerce_toJson]
    cases r.checks with
    | none => rfl
    | some l => rw [jsonSlice, Option.map_some, jsonSlice, List.map_map]; rfl
  simp (disch := decide) only [JsonScorecardResultV2.toJson, JsonRepoV2.toJson,
    JsonScorecardV2.toJson, Json.coerce, coerceMembers_cons, Json.coerceMembers.eq_1,
    coerce_strings,
    hchecks, JsonScorecardResultV2.coerce]

/-- The encoding is nested in a few levels only. -/
theorem JsonScorecardResultV2.depth_toJson_le (r : JsonScorecardResultV2) :
    r.toJson.depth ≤ maxNestingDepth := by
  have hstrings : ∀ l, (jsonSlice Json.str l).depth ≤ 1 := depth_jsonSlice_le fun _ => Nat.zero_le 0
  have hcheck : ∀ c : JsonCheckResultV2, c.toJson.depth ≤ 2 := by
    intro c
    have hdetails := hstrings c.details
    simp only [JsonCheckResultV2.toJson, JsonCheckDocumentationV2.toJson, Json.depth,
      Json.depthMembers]
    omega
  have hchecks := depth_jsonSlice_le hcheck r.checks
  have hmetadata := hstrings r.metadata
  simp only [JsonScorecardResultV2.toJson, JsonRepoV2.toJson, JsonScorecardV2.toJson, Json.depth,
    Json.depthMembers, maxNestingDepth]
  omega

/-! ### The serializer -/

/-- The errors of `AsJSON2`: that of `GetAggregateScore`, or an `ErrScorecardInternal` with a
message. -/
inductive FormatError : Type
  | aggregateScore (message : String)
  | internal (message : String)
  deriving DecidableEq, Repr

/-- What appending to the nil slice gives. -/
def appended {α : Type} : List α → Option (List α)
  | [] => none
  | x :: l => some (x :: l)

theorem getD_appended {α : Type} (l : List α) : (appended l).getD [] = l := by cases l <;> rfl

theorem appended_map {α β : Type} (f : α → β) (l : List α) :
    (appended l).map (List.map f) = appended (l.map f) := by cases l <;> rfl

section Serializer

variable {Detail Level : Type} (e : Engine Detail Level) (showDetails : Bool) (logLevel : Level)

/-- The details that have a text. -/
def detailTexts (details : List Detail) : List String :=
  if showDetails then (details.map fun d => e.detailToString d logLevel).filter (· ≠ "") else []

/-- The body of the loop over the checks. -/
def checkResultV2 (r : Result Detail) (c : CheckResult Detail) :
    Except FormatError JsonCheckResultV2 := do
  let doc ← (e.getCheck c.name).mapError fun m => .internal ("GetCheck: " ++ c.name ++ ": " ++ m)
  return {
    details := appended (detailTexts e showDetails logLevel c.details)
    score := c.score
    reason := c.reason
    name := c.name
    doc := ⟨doc.getDocumentationURL r.scorecardCommitSHA, doc.getShort⟩ }

/-- The text before the message of an error of `MarshalJSON`. -/
def marshalerError : String :=
  "encoder.Encode: json: error calling MarshalJSON for type format.jsonFloatScore: "

/-- `AsJSON2`, up to the encoder; the record's score is encoded here.

Source: `cron/internal/format/json.go`, lines 119–170. -/
def scorecardResultV2 (r : Result Detail) : Except FormatError JsonScorecardResultV2 := do
  let score ← (e.getAggregateScore r).mapError .aggregateScore
  let checks ← r.checks.mapM (checkResultV2 e showDetails logLevel r)
  let aggregateScore ← score.fixed1.mapError fun m => .internal (marshalerError ++ m)
  return {
    date := String.ofList r.date.date.format
    repo := ⟨r.repoName, r.repoCommitSHA⟩
    scorecard := ⟨r.scorecardVersion, r.scorecardCommitSHA⟩
    aggregateScore := aggregateScore
    checks := appended checks
    metadata := r.metadata }

/-- `AsJSON2`: what it writes.

Source: `cron/internal/format/json.go`, lines 119–176. -/
def asJSON2 (r : Result Detail) : Except FormatError String := do
  let out ← scorecardResultV2 e showDetails logLevel r
  return out.toJson.marshal

/-- The strings that the loop writes for a check. -/
def checkStrings (r : Result Detail) (c : CheckResult Detail) : List String :=
  [c.name, c.reason] ++
    (match e.getCheck c.name with
    | .ok doc => [doc.getDocumentationURL r.scorecardCommitSHA, doc.getShort]
    | .error _ => []) ++ detailTexts e showDetails logLevel c.details

/-- The strings of the result that are written, without the date and the metadata. -/
def writtenStrings (r : Result Detail) : List String :=
  [r.repoName, r.repoCommitSHA, r.scorecardVersion, r.scorecardCommitSHA] ++
    r.checks.flatMap (checkStrings e showDetails logLevel r)

variable {e showDetails logLevel} {r : Result Detail}

theorem asJSON2_eq_ok {text : String} : asJSON2 e showDetails logLevel r = .ok text ↔
    ∃ out, scorecardResultV2 e showDetails logLevel r = .ok out ∧ text = out.toJson.marshal := by
  rw [asJSON2, except_bind_eq_ok]
  exact exists_congr fun out => and_congr_right fun _ => ⟨fun h => (Except.ok.inj h).symm,
    fun h => h ▸ rfl⟩

/-- **The record.** Where there is one, its fields are those of the result. -/
theorem scorecardResultV2_eq_ok {out : JsonScorecardResultV2} :
    scorecardResultV2 e showDetails logLevel r = .ok out ↔
      ∃ score checks number, e.getAggregateScore r = .ok score ∧
        r.checks.mapM (checkResultV2 e showDetails logLevel r) = .ok checks ∧
        score.fixed1 = .ok number ∧
        out = ⟨String.ofList r.date.date.format, ⟨r.repoName, r.repoCommitSHA⟩,
          ⟨r.scorecardVersion, r.scorecardCommitSHA⟩, number, appended checks, r.metadata⟩ := by
  simp only [scorecardResultV2, except_bind_eq_ok, mapError_eq_ok]
  constructor
  · rintro ⟨score, hscore, checks, hchecks, number, hnumber, hout⟩
    exact ⟨score, checks, number, hscore, hchecks, hnumber, (Except.ok.inj hout).symm⟩
  · rintro ⟨score, checks, number, hscore, hchecks, hnumber, rfl⟩
    exact ⟨score, hscore, checks, hchecks, number, hnumber, rfl⟩

/-- The coercion leaves the record of a check as it is exactly if its strings are valid. -/
theorem coerce_eq_self_iff {c : CheckResult Detail} {c' : JsonCheckResultV2}
    (h : checkResultV2 e showDetails logLevel r c = .ok c') :
    c'.coerce = c' ↔ ∀ s ∈ checkStrings e showDetails logLevel r c, validUTF8 s = true := by
  rw [checkResultV2, except_bind_eq_ok] at h
  obtain ⟨doc, hdoc, h⟩ := h
  rw [mapError_eq_ok] at hdoc
  obtain rfl := (Except.ok.inj h)
  have hdetails : ∀ l : List String, appended (l.map toValidUTF8) = appended l ↔
      ∀ s ∈ l, validUTF8 s = true := by
    intro l
    have hinj : appended (l.map toValidUTF8) = appended l ↔ l.map toValidUTF8 = l := by
      refine ⟨fun h => ?_, fun h => congrArg appended h⟩
      rw [← getD_appended (l.map toValidUTF8), h, getD_appended]
    rw [hinj]
    constructor
    · intro h s hs
      exact toValidUTF8_eq_self_iff.mp (List.map_inj_left.mp (h.trans (List.map_id l).symm) s hs)
    · intro h
      calc l.map toValidUTF8 = l.map id :=
            List.map_congr_left fun s hs => toValidUTF8_eq_self_iff.mpr (h s hs)
        _ = l := List.map_id l
  simp only [checkStrings, hdoc, JsonCheckResultV2.coerce, JsonCheckDocumentationV2.coerce,
    JsonCheckResultV2.mk.injEq, JsonCheckDocumentationV2.mk.injEq, appended_map, hdetails,
    toValidUTF8_eq_self_iff, List.forall_mem_append, List.forall_mem_cons, List.not_mem_nil,
    false_imp_iff, implies_true, and_true, true_and]
  constructor
  · rintro ⟨hdetails, hreason, hname, hdoc⟩
    exact ⟨⟨⟨hname, hreason⟩, hdoc⟩, hdetails⟩
  · rintro ⟨⟨⟨hname, hreason⟩, hdoc⟩, hdetails⟩
    exact ⟨hdetails, hreason, hname, hdoc⟩

end Serializer

/-! ### A sample -/

/-- A result with a score of 7.5 and a check without a conclusive score. -/
def sampleResult (metadata : Option (List String)) : Result String where
  repoName := "github.com/ossf/scorecard"
  repoCommitSHA := "e3ba0b8cd1d4f1ea8d3d3e0d2b1e2c5a6f7b8c9d"
  scorecardVersion := "v5.3.0"
  scorecardCommitSHA := "c22063e786c11f9dd714d777a687ff7c4599b600"
  date := ⟨⟨2026, 9, 28, by decide, by decide⟩, 0, by decide⟩
  checks := [⟨"Fuzzing", -1, "no fuzzing data", ["", "Info: no fuzzer found"]⟩]
  metadata := metadata

/-- 7.5. -/
def sampleScore : Float64 := .finite false 15 (-1) (by decide) (by decide)

/-- Documentation for every check. -/
def sampleEngine : Engine String Unit where
  getAggregateScore _ := .ok sampleScore
  getCheck _ := .ok ⟨fun _ => "https://github.com/ossf/scorecard/blob/main/docs/checks.md#fuzzing",
    "Determines if the project uses fuzzing."⟩
  detailToString d _ := d

/-- The sample is written. -/
theorem exists_asJSON2_sampleResult (metadata : Option (List String)) :
    ∃ text, asJSON2 sampleEngine true () (sampleResult metadata) = .ok text := ⟨_, rfl⟩

end ScorecardInfra.Cron.Format
