import ScorecardInfra.Server.GetResults

/-!
# Reading a result: the two buckets

`getResults` reads the object of a request's key from the bucket of results, and from the bucket of
the batch results where that gives nothing. Whatever reading gives other than an object is treated
as a missing object: the answer is honest about a failure exactly when no failure could have changed
it (`getResults_honest_iff`).

## Main definitions

* `ReadError`, `BucketAccess`, `getResults`, `GetResultResponse`, `getResultHandler`.
* `HonestAnswer`.

## Main results

* `getResults_honest_iff`.

Source: `api/app/server/get_results.go`, lines 36–101.
-/

namespace ScorecardInfra.Server

open GoStd

/-! ### Buckets -/

/-- Why an object cannot be read. -/
inductive ReadError : Type
  | notFound
  | failed (message : String)
  deriving DecidableEq, Repr

/-- A bucket as a request finds it: what opening it and reading its objects gives. -/
structure BucketAccess where
  openBucket : Except String Unit
  readAll : String → Except ReadError String

namespace BucketAccess

/-- Open the bucket and read an object. -/
def get (b : BucketAccess) (key : String) : Except ReadError String :=
  match b.openBucket with
  | .error message => .error (.failed message)
  | .ok () => b.readAll key

variable (b : BucketAccess) (key : String)

/-- The bucket was read, and holds the object. -/
def Holds (data : String) : Prop := b.get key = .ok data

/-- The bucket was read, and has no such object. -/
def Absent : Prop := b.get key = .error .notFound

/-- The bucket could not be opened or read. -/
def Fails : Prop := ∃ message, b.get key = .error (.failed message)

/-- A bucket that can be read and has these objects. -/
def ofObjects (objects : String → Option String) : BucketAccess where
  openBucket := .ok ()
  readAll key := ((objects key).map .ok).getD (.error ReadError.notFound)

/-- A bucket that cannot be opened. -/
def unreachable (message : String) : BucketAccess where
  openBucket := .error message
  readAll _ := .error (.failed message)

variable {b key}

theorem cases_get (b : BucketAccess) (key : String) :
    (∃ data, b.Holds key data) ∨ b.Absent key ∨ b.Fails key := by
  unfold Holds Absent Fails
  rcases b.get key with (_ | message) | data
  · exact Or.inr (Or.inl rfl)
  · exact Or.inr (Or.inr ⟨message, rfl⟩)
  · exact Or.inl ⟨data, rfl⟩

theorem Absent.not_fails (h : b.Absent key) : ¬b.Fails key := by
  rintro ⟨message, hfails⟩
  cases h.symm.trans hfails

theorem Holds.not_fails {data : String} (h : b.Holds key data) : ¬b.Fails key := by
  rintro ⟨message, hfails⟩
  cases h.symm.trans hfails

theorem ofObjects_holds {objects : String → Option String} {data : String} :
    (ofObjects objects).Holds key data ↔ objects key = some data := by
  change ((objects key).map Except.ok).getD (Except.error ReadError.notFound) = .ok data ↔ _
  cases objects key <;> simp

end BucketAccess

/-! ### The handler -/

variable (primary cron : BucketAccess) (host orgName repoName : String) (commit : Option String)

/-- `getResults`.

Source: `api/app/server/get_results.go`, lines 72–101. -/
def getResults : Except ServerError String := do
  let cleanResultsFile ← sanitizeInputs host orgName repoName commit
  match primary.get cleanResultsFile with
  | .ok results => return results
  | .error _ => do
    let cleanResultsFile2 ← sanitizeInputs host orgName repoName commit
    match cron.get cleanResultsFile2 with
    | .ok results => return results
    | .error _ => .error (.sentinel .errNotFound)

/-- `fastlyTTL`. -/
def fastlyTTL : String := "max-age=31557600"

/-- `browserCacheTTL`. -/
def browserCacheTTL : String := "max-age=600"

/-- The responses, with their headers `Surrogate-Control` and `Cache-Control`. -/
inductive GetResultResponse (ρ : Type) : Type
  | ok (payload : ρ) (surrogateControl cacheControl : String)
  | notFound (surrogateControl cacheControl : String)
  | badRequest (surrogateControl cacheControl : String)
  | default (code : Nat) (message : String)

/-- `GetResultHandler`; `unmarshalBinary` decodes the payload.

Source: `api/app/server/get_results.go`, lines 44–70. -/
def getResultHandler {ρ : Type} (unmarshalBinary : String → Except String ρ) :
    GetResultResponse ρ :=
  match getResults primary cron host orgName repoName commit with
  | .error err =>
    if err.is .errNotFound then .notFound fastlyTTL browserCacheTTL
    else if err.is .errInvalidInputs then .badRequest fastlyTTL browserCacheTTL
    else .default 500 err.message
  | .ok res => match unmarshalBinary res with
    | .ok ret => .ok ret fastlyTTL browserCacheTTL
    | .error err => .default 500 err

variable {primary cron host orgName repoName commit} {key data : String}

/-! ### What is answered -/

/-- The answer by what the two buckets gave. -/
theorem getResults_eq (h : sanitizeInputs host orgName repoName commit = .ok key) :
    getResults primary cron host orgName repoName commit = match primary.get key with
      | .ok results => .ok results
      | .error _ => match cron.get key with
        | .ok results => .ok results
        | .error _ => .error (.sentinel .errNotFound) := by
  rw [getResults, h]
  rfl

theorem getResults_of_holds (h : sanitizeInputs host orgName repoName commit = .ok key)
    (hprimary : primary.Holds key data) :
    getResults primary cron host orgName repoName commit = .ok data := by
  rw [getResults_eq h, hprimary]

theorem getResults_of_cron {e : ReadError}
    (h : sanitizeInputs host orgName repoName commit = .ok key)
    (hprimary : primary.get key = .error e) (hcron : cron.Holds key data) :
    getResults primary cron host orgName repoName commit = .ok data := by
  rw [getResults_eq h, hprimary, hcron]

theorem getResults_of_errors {e e' : ReadError}
    (h : sanitizeInputs host orgName repoName commit = .ok key)
    (hprimary : primary.get key = .error e) (hcron : cron.get key = .error e') :
    getResults primary cron host orgName repoName commit = .error (.sentinel .errNotFound) := by
  rw [getResults_eq h, hprimary, hcron]

/-- Where one of the buckets holds the object, or both fail, that is what an answer tells. -/
theorem getResults_eq_ok (h : sanitizeInputs host orgName repoName commit = .ok key)
    (hr : getResults primary cron host orgName repoName commit = .ok data) :
    primary.Holds key data ∨ (∃ e, primary.get key = .error e) ∧ cron.Holds key data := by
  rw [getResults_eq h] at hr
  rcases hprimary : primary.get key with e | results
  · rw [hprimary] at hr
    rcases hcron : cron.get key with e' | results
    · rw [hcron] at hr
      cases hr
    · rw [hcron] at hr
      obtain rfl := Except.ok.inj hr
      exact Or.inr ⟨⟨e, rfl⟩, hcron⟩
  · rw [hprimary] at hr
    obtain rfl := Except.ok.inj hr
    exact Or.inl hprimary

/-- The answer says that there is no object only where both buckets were read and have none, returns
the batch results only where the bucket of results was read and has none, and reports the failures
that matter. -/
structure HonestAnswer (primary cron : BucketAccess) (key : String)
    (r : Except ServerError String) :
    Prop where
  notFound : ∀ err, r = .error err → err.is .errNotFound = true →
    primary.Absent key ∧ cron.Absent key
  found : ∀ data, r = .ok data →
    primary.Holds key data ∨ primary.Absent key ∧ cron.Holds key data
  failed : primary.Fails key ∨ primary.Absent key ∧ cron.Fails key →
    ∃ err, r = .error err ∧ err.is .errNotFound = false

/-- **Honest answers.** An answer is honest exactly if the bucket of results did not fail, and the
bucket of batch results did not fail where it was needed. -/
theorem getResults_honest_iff (primary cron : BucketAccess) (host orgName repoName : String)
    (commit : Option String) (key : String)
    (h : sanitizeInputs host orgName repoName commit = .ok key) :
    HonestAnswer primary cron key (getResults primary cron host orgName repoName commit) ↔
      ¬primary.Fails key ∧ (primary.Absent key → ¬cron.Fails key) := by
  constructor
  · intro hr
    -- a failure that is not reported ends in another bucket's object, or in no object
    have hreported : ¬(primary.Fails key ∨ primary.Absent key ∧ cron.Fails key) := by
      intro hfails
      obtain ⟨err, herr, hne⟩ := hr.failed hfails
      have hgot : ∃ e, primary.get key = .error e := by
        rcases hfails with ⟨message, hp⟩ | ⟨hp, -⟩
        exacts [⟨_, hp⟩, ⟨_, hp⟩]
      obtain ⟨e, hp⟩ := hgot
      rcases hc : cron.get key with e' | data
      · rw [getResults_of_errors h hp hc] at herr
        obtain rfl := Except.error.inj herr
        cases hne
      · rw [getResults_of_cron h hp hc] at herr
        cases herr
    exact ⟨fun hp => hreported (Or.inl hp), fun hp hc => hreported (Or.inr ⟨hp, hc⟩)⟩
  · rintro ⟨hprimary, hcron⟩
    refine ⟨fun err herr hnotFound => ?_, fun data hdata => ?_, fun hfails => ?_⟩
    · rcases primary.cases_get key with ⟨data, hp⟩ | hp | hp
      · rw [getResults_of_holds h hp] at herr
        cases herr
      · refine ⟨hp, ?_⟩
        rcases cron.cases_get key with ⟨data, hc⟩ | hc | hc
        · rw [getResults_of_cron h hp hc] at herr
          cases herr
        · exact hc
        · exact absurd hc (hcron hp)
      · exact absurd hp hprimary
    · refine (getResults_eq_ok h hdata).imp_right ?_
      rintro ⟨⟨e, he⟩, hc⟩
      refine ⟨?_, hc⟩
      rcases primary.cases_get key with ⟨data', hp⟩ | hp | hp
      · cases he.symm.trans hp
      · exact hp
      · exact absurd hp hprimary
    · rcases hfails with hp | ⟨hp, hc⟩
      · exact absurd hp hprimary
      · exact absurd hc (hcron hp)

/-- With an empty bucket of results the batch results are an honest answer. -/
theorem honest_batch_results :
    getResults (.ofObjects fun _ => none) (.ofObjects fun _ => some "batch")
      "github.com" "org" "repo"
      none = .ok "batch" ∧
    HonestAnswer (.ofObjects fun _ => none) (.ofObjects fun _ => some "batch")
      "github.com/org/repo/results.json"
      (getResults (.ofObjects fun _ => none) (.ofObjects fun _ => some "batch") "github.com" "org"
        "repo" none) := by
  have hkey : sanitizeInputs "github.com" "org" "repo" none =
      .ok "github.com/org/repo/results.json" := by decide
  have hprimary : (BucketAccess.ofObjects fun _ => none).Absent
    "github.com/org/repo/results.json" := rfl
  have hcron : (BucketAccess.ofObjects fun _ => some "batch").Holds
    "github.com/org/repo/results.json" "batch" := rfl
  exact ⟨getResults_of_cron hkey hprimary hcron,
    (getResults_honest_iff _ _ _ _ _ _ _ hkey).mpr ⟨hprimary.not_fails, fun _ => hcron.not_fails⟩⟩

/-- Where neither bucket can be opened, there is no such object. -/
theorem exists_not_honest : ¬∀ (primary cron : BucketAccess) (host orgName repoName : String)
    (commit : Option String) (key : String),
    sanitizeInputs host orgName repoName commit = .ok key →
      HonestAnswer primary cron key (getResults primary cron host orgName repoName commit) := by
  intro h
  have hkey : sanitizeInputs "github.com" "org" "repo" none =
      .ok "github.com/org/repo/results.json" := by decide
  have hanswer := h (.unreachable "timeout") (.unreachable "timeout") _ _ _ _ _ hkey
  have hfails : (BucketAccess.unreachable "timeout").get "github.com/org/repo/results.json" =
      .error (.failed "timeout") := rfl
  have hnotFound := getResults_of_errors hkey hfails hfails
  cases (hanswer.notFound _ hnotFound rfl).1

/-- A missing object is what the CDN is told, exactly where `getResults` says so. -/
theorem getResultHandler_notFound_iff {ρ : Type} {unmarshalBinary : String → Except String ρ} :
    getResultHandler primary cron host orgName repoName commit unmarshalBinary =
        .notFound fastlyTTL browserCacheTTL ↔
      ∃ err, getResults primary cron host orgName repoName commit = .error err ∧
        err.is .errNotFound = true := by
  rw [getResultHandler]
  rcases getResults primary cron host orgName repoName commit with err | res
  · by_cases herr : err.is .errNotFound = true
    · simp [herr]
    · simp only [herr, Bool.false_eq_true, if_false]
      split_ifs <;> simp [herr]
  · simp only [reduceCtorEq, false_and, exists_false, iff_false]
    split <;> nofun

end ScorecardInfra.Server
