import ScorecardInfra.GoStd.Filepath
import ScorecardInfra.Server.Errors

/-!
# Reading a result: the object key

The read path of the API turns the request's platform, organisation, repository and optional commit
into the key of an object (`sanitizeInputs`). It joins and cleans the parts, deletes CR and LF, and
accepts what matches a pattern of three or four starred directories and the file name.

A key is *safe* (`SafeKey`) when it consists of that many proper names followed by `results.json`.
Not every accepted key is safe: the pattern's `*` matches the segment `..` and the empty segment,
and a segment such as LF or `.LF.` becomes empty or `..` only after the cleaning. The accepted keys
that are safe are exactly those whose joined path is local and hides no such segment behind CR or
LF (`sanitizeInputs_safeKey_iff`).

Source: `api/app/server/get_results.go`, lines 103–122.
-/

namespace ScorecardInfra.Server

open GoStd GoStd.Filepath

/-- The file name at the end of every key. -/
def resultsFile : String := "results.json"

/-- The elements that `sanitizeInputs` joins. -/
def keyElements (host orgName repoName : String) : Option String → List String
  | none => [host, orgName, repoName, resultsFile]
  | some commit => [host, orgName, repoName, commit, resultsFile]

/-- Delete LF and CR. -/
def stripNewlines (p : String) : String := Strings.remove (Strings.remove p '\n') '\r'

/-- The pattern that `sanitizeInputs` matches the key against. -/
def keyPattern : Option String → String
  | none => "*/*/*/results.json"
  | some _ => "*/*/*/*/results.json"

/-- `sanitizeInputs`: the object key of a request.

Source: `api/app/server/get_results.go`, lines 103–122. -/
def sanitizeInputs (host orgName repoName : String) (commit : Option String) :
    Except ServerError String :=
  let resultsFile := join (keyElements host orgName repoName commit)
  let cleanResultsFile := stripNewlines (clean resultsFile)
  if globMatch (keyPattern commit).toList cleanResultsFile.toList then .ok cleanResultsFile
  else .error (.sentinel .errInvalidInputs)

/-- The number of names in a key before the file name. -/
def keyDepth : Option String → Nat
  | none => 3
  | some _ => 4

/-- A key of `n` proper names without CR and LF, followed by the file name, that `clean` leaves
alone. -/
structure SafeKey (n : Nat) (p : String) : Prop where
  segments_eq : ∃ names : List Segment, names.length = n ∧
    (∀ seg ∈ names, IsName seg ∧ '\n' ∉ seg ∧ '\r' ∉ seg) ∧
    p = ofSegments (names ++ [resultsFile.toList])
  clean_eq : clean p = p

/-- A segment that contains CR or LF and is empty, `.` or `..` without them. -/
def HidesDots (seg : Segment) : Prop :=
  ('\n' ∈ seg ∨ '\r' ∈ seg) ∧
    seg.filter (fun c => c != '\n' && c != '\r') ∈ [[], dot, dotdot]

/-! ### Segments of an accepted key -/

/-- The characters other than LF and CR. -/
def isKept (c : Char) : Bool := c != '\n' && c != '\r'

theorem stripNewlines_eq (p : String) :
    stripNewlines p = String.ofList (p.toList.filter isKept) := by
  rw [stripNewlines, Strings.remove, Strings.remove, String.toList_ofList, List.filter_filter]
  congr 2
  funext c
  exact Bool.and_comm _ _

theorem segments_stripNewlines (p : String) :
    segments (stripNewlines p) = (segments p).map (List.filter isKept) := by
  rw [stripNewlines_eq, segments_filter isKept (by decide)]

theorem filter_isKept_eq_self {seg : Segment} (hn : '\n' ∉ seg) (hr : '\r' ∉ seg) :
    seg.filter isKept = seg := by
  rw [List.filter_eq_self]
  intro c hc
  simp only [isKept, Bool.and_eq_true, bne_iff_ne, ne_eq]
  exact ⟨fun h => hn (h ▸ hc), fun h => hr (h ▸ hc)⟩

theorem newline_notMem_filter (seg : Segment) :
    '\n' ∉ seg.filter isKept ∧ '\r' ∉ seg.filter isKept := by
  constructor <;> simp [List.mem_filter, isKept]

/-- A path without CR and LF. -/
theorem stripNewlines_eq_self {p : String} (h : ∀ seg ∈ segments p, '\n' ∉ seg ∧ '\r' ∉ seg) :
    stripNewlines p = p := by
  have hmap : (segments p).map (List.filter isKept) = (segments p).map id :=
    List.map_congr_left fun seg hseg => filter_isKept_eq_self (h seg hseg).1 (h seg hseg).2
  rw [← ofSegments_segments (stripNewlines p), segments_stripNewlines, hmap, List.map_id,
    ofSegments_segments]

private theorem keyPattern_eq (commit : Option String) :
    (keyPattern commit).toList = starDirs resultsFile.toList (keyDepth commit) := by
  cases commit with
  | none => rfl
  | some c =>
    change "*/*/*/*/results.json".toList = starDirs resultsFile.toList 4
    decide

/-- An accepted key is the cleaned path without CR and LF, and has the right number of segments. -/
theorem sanitizeInputs_eq_ok {host orgName repoName : String} {commit : Option String}
    {p : String} : sanitizeInputs host orgName repoName commit = .ok p ↔
      p = stripNewlines (clean (join (keyElements host orgName repoName commit))) ∧
        ∃ segs, segs.length = keyDepth commit ∧ segments p = segs ++ [resultsFile.toList] := by
  simp only [sanitizeInputs, keyPattern_eq]
  constructor
  · intro h
    split_ifs at h with hm
    obtain rfl := Except.ok.inj h
    exact ⟨rfl, (globMatch_starDirs (by decide) (by decide) _ _).mp hm⟩
  · rintro ⟨rfl, hsegs⟩
    rw [if_pos ((globMatch_starDirs (by decide) (by decide) _ _).mpr hsegs)]

/-! ### Which accepted keys are safe -/

/-- A relative path that does not start with `..` is cleaned to names only. -/
private theorem isName_of_isLocal {p : String} (h : isLocal p = true)
    (hlen : 1 < (segments (clean p)).length) : ∀ seg ∈ segments (clean p), IsName seg := by
  simp only [isLocal, Bool.and_eq_true, Bool.not_eq_true', bne_iff_ne, ne_eq] at h
  obtain ⟨⟨⟨habs, -⟩, -⟩, hup⟩ := h
  have hslash := fun seg (hs : seg ∈ segments p) => slash_notMem_of_mem_segments hs
  have hne : cleanSegments false (segments p) ≠ [] := by
    intro hnil
    have hdot : clean p = "." := by simp [clean, habs, hnil]
    rw [hdot] at hlen
    exact absurd hlen (by decide)
  have hsegs := segments_clean_of_not_isAbs habs hne
  obtain ⟨k, names, hout, hn, -⟩ := cleanSegments_form false hslash
  cases k with
  | zero =>
    rw [hsegs, hout]
    simpa using hn
  | succ k =>
    -- a leading `..` with a segment after it makes the cleaned path start with `../`
    rw [List.replicate_succ, List.cons_append] at hout
    rw [hsegs, hout, List.length_cons] at hlen
    have hrest : List.replicate k dotdot ++ names ≠ [] := by
      intro h
      simp [h] at hlen
    have hp := ofSegments_segments (clean p)
    rw [hsegs, hout] at hp
    refine absurd ?_ (Bool.eq_false_iff.mp hup)
    rw [← hp, Strings.hasPrefix, toList_ofSegments, List.intercalate_cons_of_ne_nil hrest]
    simp [dotdot]

/-- A clean path whose segments are names, once CR and LF are deleted, is local. -/
private theorem isLocal_of_isName {p : String} (hclean : clean p = p)
    (hlen : 1 < (segments p).length) (h : ∀ seg ∈ segments p, IsName (seg.filter isKept)) :
    isLocal p = true := by
  have habs : isAbs p = false := by
    rw [← Bool.not_eq_true, isAbs_iff]
    rintro ⟨segs, -, hs⟩
    exact (h [] (by simp [hs])).ne_nil rfl
  have hup : Strings.hasPrefix p "../" = false := by
    rw [← Bool.not_eq_true]
    intro hpre
    obtain ⟨t, ht⟩ := List.isPrefixOf_iff_prefix.mp hpre
    have hs : segments p = dotdot :: t.splitOn '/' := by
      have hslash : '/' ∉ dotdot := by decide
      rw [segments, ← ht]
      exact List.splitOn_append_cons_self_of_not_mem hslash t
    exact (h dotdot (by simp [hs])).ne_dotdot rfl
  have hne : p ≠ "" := by
    rintro rfl
    exact absurd hlen (by decide)
  have hne' : p ≠ ".." := by
    rintro rfl
    exact absurd hlen (by decide)
  simp [isLocal, hclean, habs, hup, hne, hne']

/-- A name that hides nothing stays a name when CR and LF are deleted. -/
private theorem isName_filter {seg : Segment} (h : IsName seg) (hhide : ¬HidesDots seg) :
    IsName (seg.filter isKept) := by
  by_cases hnl : '\n' ∈ seg ∨ '\r' ∈ seg
  · have hgood : seg.filter isKept ∉ [[], dot, dotdot] := fun hbad => hhide ⟨hnl, hbad⟩
    simp only [List.mem_cons, List.not_mem_nil, or_false, not_or] at hgood
    exact ⟨hgood.1, hgood.2.1, hgood.2.2, fun hs => h.slash_notMem (List.mem_filter.mp hs).1⟩
  · rw [not_or] at hnl
    rwa [filter_isKept_eq_self hnl.1 hnl.2]

/-- **Safe keys.** An accepted key is safe exactly when the joined path is local and no segment of
the cleaned path hides an empty segment, `.` or `..` behind CR or LF. -/
theorem sanitizeInputs_safeKey_iff (host orgName repoName : String) (commit : Option String)
    (p : String) (h : sanitizeInputs host orgName repoName commit = .ok p) :
    SafeKey (keyDepth commit) p ↔
      isLocal (join (keyElements host orgName repoName commit)) = true ∧
        ∀ seg ∈ segments (join (keyElements host orgName repoName commit)), ¬HidesDots seg := by
  obtain ⟨hp, segs, hlen, hsegs⟩ := sanitizeInputs_eq_ok.mp h
  have hmem : resultsFile ∈ keyElements host orgName repoName commit := by
    cases commit <;> simp [keyElements]
  have hclean := clean_join hmem (by decide)
  rw [hclean] at hp
  generalize join (keyElements host orgName repoName commit) = path at hp hclean ⊢
  have hdepth : 1 ≤ keyDepth commit := by cases commit <;> simp [keyDepth]
  have hmap : segs ++ [resultsFile.toList] = (segments path).map (List.filter isKept) := by
    rw [← hsegs, hp, segments_stripNewlines]
  have hlen' : 1 < (segments path).length := by
    have := congrArg List.length hmap
    rw [List.length_append, List.length_map, hlen, List.length_singleton] at this
    omega
  have hfile : IsName resultsFile.toList := ⟨by decide, by decide, by decide, by decide⟩
  constructor
  · rintro ⟨⟨names, hnlen, hnames, hpn⟩, -⟩
    have hnsegs : segments p = names ++ [resultsFile.toList] := by
      rw [hpn]
      refine segments_ofSegments (fun seg hs => ?_) (by simp)
      rcases List.mem_append.mp hs with hs | hs
      · exact (hnames seg hs).1.slash_notMem
      · rw [List.mem_singleton.mp hs]
        exact hfile.slash_notMem
    have hall : ∀ seg ∈ segments path, IsName (seg.filter isKept) := by
      intro seg hs
      have hmem : seg.filter isKept ∈ names ++ [resultsFile.toList] := by
        rw [← hnsegs, hsegs, hmap]
        exact List.mem_map_of_mem hs
      rcases List.mem_append.mp hmem with hmem | hmem
      · exact (hnames _ hmem).1
      · rw [List.mem_singleton.mp hmem]
        exact hfile
    refine ⟨isLocal_of_isName hclean hlen' hall, fun seg hs hhide => ?_⟩
    · have hn := hall seg hs
      have hbad := hhide.2
      simp only [List.mem_cons, List.not_mem_nil, or_false] at hbad
      rcases hbad with hbad | hbad | hbad
      exacts [hn.ne_nil hbad, hn.ne_dot hbad, hn.ne_dotdot hbad]
  · rintro ⟨hlocal, hhide⟩
    have hnames := isName_of_isLocal hlocal (by rwa [hclean])
    rw [hclean] at hnames
    have hkept : ∀ seg ∈ segments p, IsName seg ∧ '\n' ∉ seg ∧ '\r' ∉ seg := by
      rw [hsegs, hmap]
      intro seg' hs'
      obtain ⟨seg, hs, rfl⟩ := List.mem_map.mp hs'
      exact ⟨isName_filter (hnames seg hs) (hhide seg hs), newline_notMem_filter seg⟩
    refine ⟨⟨segs, hlen, fun seg hs => hkept seg (by simp [hsegs, hs]), ?_⟩,
      clean_eq_self fun seg hs => (hkept seg hs).1⟩
    rw [← hsegs, ofSegments_segments]

/-- The key of an ordinary request is safe. -/
theorem safeKey_github_org_repo : SafeKey 3 "github.com/org/repo/results.json" := by
  refine (sanitizeInputs_safeKey_iff "github.com" "\rorg" "repo\n" none
    "github.com/org/repo/results.json" (by decide)).mpr ⟨by decide, ?_⟩
  rw [show segments (join (keyElements "github.com" "\rorg" "repo\n" none)) =
    ["github.com".toList, "\rorg".toList, "repo\n".toList, resultsFile.toList] by decide]
  simp only [HidesDots, List.forall_mem_cons]
  decide

/-- The organisation `.LF.` is `..` once LF is deleted, and the key leaves the platform's
directory. -/
theorem exists_accepted_not_safeKey :
    sanitizeInputs "github.com" ".\n." "repo" none = .ok "github.com/../repo/results.json" ∧
      ¬SafeKey 3 "github.com/../repo/results.json" :=
  ⟨by decide, fun h => absurd h.clean_eq (by decide)⟩

end ScorecardInfra.Server
