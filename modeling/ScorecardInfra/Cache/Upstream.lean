import ScorecardInfra.Cache.Freshness
import ScorecardInfra.GoStd.Url

/-!
# The repository that the upstream is asked for

`Fetch` puts the segments of a reference into the text of a URL as they are. The upstream serves the
same contract: it reads the URL, matches `GET /projects/{host}/{org}/{repo}`, and parses the path
values and the commit of the query. What it reads is the reference, and no commit, exactly if the
base URL has no path and neither segment has a `?`, a `#` or a `%` (`asks_iff`): the first two end
the path, and an escape is read as the byte it stands for, which makes the path shorter, or is
refused.

## Main definitions

* `validFallbackURL`, `refFromPath`, `requested`, `AsksFor`.
* `IsPlain`: a segment without the characters that a URL reads.

## Main results

* `asks_iff`.

Source: `internal/fallback/fallback.go`, lines 80–88, `internal/httpapi/server.go`, lines 171–198,
`internal/config/config.go`, lines 184–189.
-/

namespace ScorecardInfra.Cache

open GoStd GoStd.Filepath GoStd.Url Interaction

/-! ### The server -/

/-- The response with status 400 that `refFromPath` writes. -/
structure BadRequest where
  msg : String
  detail : String
  deriving DecidableEq

/-- The response for an error of `ParseRepoRef`. -/
def invalidReference : BadRequest where
  msg := "invalid repository reference"
  detail := "expected /projects/\x7bhost\x7d/\x7borg\x7d/\x7brepo\x7d with host github.com or gitlab.com"

/-- The response for an error of `ParseCommit`. -/
def invalidCommit : BadRequest where
  msg := "invalid commit"
  detail := "commit must be a 40-character hex SHA"

/-- `refFromPath`, of the path values and the first value of `commit` in the query.

Source: `internal/httpapi/server.go`, lines 182–198. -/
def refFromPath (host org repo commit : String) : Except BadRequest (RepoRef × Commit) := do
  let ref ← (parseRepoRef host org repo).mapError fun _ => invalidReference
  let commit ← (parseCommit commit).mapError fun _ => invalidCommit
  return (ref, commit)

/-- The pattern of `handleResult`. -/
def projectsPattern : List PatternSegment :=
  [.literal "projects".toList, .wildcard, .wildcard, .wildcard]

/-- The reference and the commit that `handleResult` reads from a URL; `none` for a URL that the
pattern does not match. -/
def readRequest (u : URL) : Option (Except BadRequest (RepoRef × Commit)) :=
  match pathValues projectsPattern u with
  | some [host, org, repo] =>
    some (refFromPath (String.ofList host) (String.ofList org) (String.ofList repo)
      (String.ofList (u.queryGet "commit".toList)))
  | _ => none

section Client

variable (parseAuthority : List Char → List Char → Option (List Char))

/-- The check of the fallback URL in `validate`.

Source: `internal/config/config.go`, lines 184–189. -/
def validFallbackURL (baseURL : String) : Bool :=
  (Url.parse parseAuthority baseURL.toList).any fun u =>
    (u.scheme == "http".toList || u.scheme == "https".toList) && u.host != []

/-- What the server reads from the URL that `Fetch` builds. -/
def requested (c : Client) (ref : RepoRef) : Option (Except BadRequest (RepoRef × Commit)) :=
  (Url.parse parseAuthority (c.endpoint ref).toList).bind readRequest

/-- The server reads the reference, and asks for its latest result. -/
def AsksFor (c : Client) (ref : RepoRef) : Prop :=
  requested parseAuthority c ref = some (.ok (ref, Commit.latest))

/-- The base URL has no path. -/
def Client.NoPath (c : Client) : Prop :=
  (Url.parse parseAuthority c.baseURL.toList).map URL.path = some []

end Client

/-- A text without the characters that a URL reads. -/
structure IsPlain (s : List Char) : Prop where
  query_notMem : '?' ∉ s
  fragment_notMem : '#' ∉ s
  percent_notMem : '%' ∉ s

theorem isPlain_append_cons {c : Char} {a b : List Char} (h : IsPlain [c]) :
    IsPlain (a ++ c :: b) ↔ IsPlain a ∧ IsPlain b := by
  obtain ⟨hq, hf, hp⟩ := h
  rw [List.mem_singleton] at hq hf hp
  constructor
  · rintro ⟨hquery, hfragment, hpercent⟩
    simp only [List.mem_append, List.mem_cons, not_or] at hquery hfragment hpercent
    exact ⟨⟨hquery.1, hfragment.1, hpercent.1⟩, ⟨hquery.2.2, hfragment.2.2, hpercent.2.2⟩⟩
  · rintro ⟨ha, hb⟩
    constructor
    · simp [ha.query_notMem, hb.query_notMem, hq]
    · simp [ha.fragment_notMem, hb.fragment_notMem, hf]
    · simp [ha.percent_notMem, hb.percent_notMem, hp]

/-! ### References that are read -/

theorem lowerHost_host (ref : RepoRef) : lowerHost ref.host = ref.host := by
  rcases ref.host_supported with h | h
  · rw [h]
    decide
  · rw [h]
    decide

theorem check_eq_ok {kind s : String} (h : ValidSegment s) : check kind s = .ok ⟨h⟩ := by
  rw [check]
  split
  · rfl
  · rename_i e he
    have hok : validateSegment kind s = .ok () := validateSegment_eq_ok.mpr h
    rw [he] at hok
    cases hok

/-- `ParseRepoRef` lowers the host, and returns the segments as they are. -/
theorem parseRepoRef_eq_ok {host org repo : String} {ref : RepoRef} :
    parseRepoRef host org repo = .ok ref ↔
      lowerHost (if host = "" then hostGitHub else host) = ref.host ∧ org = ref.org ∧
        repo = ref.repo := by
  unfold parseRepoRef
  dsimp only
  generalize lowerHost (if host = "" then hostGitHub else host) = host'
  constructor
  · intro h
    split_ifs at h
    obtain ⟨_, -, h⟩ := except_bind_eq_ok.mp h
    obtain ⟨_, -, h⟩ := except_bind_eq_ok.mp h
    obtain rfl := Except.ok.inj h
    exact ⟨rfl, rfl, rfl⟩
  · rintro ⟨hhost, rfl, rfl⟩
    rw [dif_pos (hhost ▸ ref.host_supported), check_eq_ok ref.org_valid, check_eq_ok ref.repo_valid]
    exact congrArg Except.ok (RepoRef.ext hhost rfl rfl)

theorem refFromPath_eq_ok {host org repo commit : String} {ref : RepoRef} {c : Commit} :
    refFromPath host org repo commit = .ok (ref, c) ↔
      parseRepoRef host org repo = .ok ref ∧ parseCommit commit = .ok c := by
  cases href : parseRepoRef host org repo with
  | error e => simp [refFromPath, href, Except.mapError, bind, Except.bind]
  | ok ref' =>
    cases hc : parseCommit commit with
    | error e => simp [refFromPath, href, hc, Except.mapError, bind, Except.bind]
    | ok c' => simp [refFromPath, href, hc, Except.mapError, bind, Except.bind, pure, Except.pure]

/-! ### The text of the URL -/

/-- The text of the path between its first slash and the segments. -/
def frontText (host : List Char) : List Char := "projects".toList ++ '/' :: (host ++ ['/'])

/-- The text of the segments. -/
def segmentsText (ref : RepoRef) : List Char := ref.org.toList ++ '/' :: ref.repo.toList

theorem toList_endpoint (c : Client) (ref : RepoRef) :
    (c.endpoint ref).toList =
      c.baseURL.toList ++ '/' :: (frontText ref.host.toList ++ segmentsText ref) := by
  have hprojects : "/projects/".toList = '/' :: ("projects".toList ++ ['/']) := by decide
  have hslash : "/".toList = ['/'] := by decide
  unfold Client.endpoint frontText segmentsText
  simp only [String.toList_append]
  rw [hprojects, hslash]
  simp only [List.append_assoc, List.cons_append, List.nil_append]

private theorem frontText_plain (ref : RepoRef) :
    (∀ c ∈ frontText ref.host.toList, shouldEscape c = false) ∧
      IsPlain (frontText ref.host.toList) := by
  rcases ref.host_supported with h | h
  · rw [h]
    exact ⟨Strings.forall_mem_of_all (by decide +kernel), ⟨by decide, by decide, by decide⟩⟩
  · rw [h]
    exact ⟨Strings.forall_mem_of_all (by decide +kernel), ⟨by decide, by decide, by decide⟩⟩

private theorem not_control_of_valid {s : String} (h : ValidSegment s) :
    ∀ c ∈ s.toList, isControl c = false := by
  intro c hc
  obtain ⟨hlow, hdel⟩ := h.not_control c hc
  rw [isControl, Bool.or_eq_false_iff, decide_eq_false_iff_not, beq_eq_false_iff_ne]
  exact ⟨by omega, hdel⟩

theorem not_control_path (ref : RepoRef) :
    ∀ c ∈ '/' :: (frontText ref.host.toList ++ segmentsText ref), isControl c = false := by
  have hslash : isControl '/' = false := by decide
  have hfront : ∀ c ∈ frontText ref.host.toList, isControl c = false := by
    rcases ref.host_supported with h | h
    · rw [h]
      exact Strings.forall_mem_of_all (by decide)
    · rw [h]
      exact Strings.forall_mem_of_all (by decide)
  intro c hc
  rw [List.mem_cons, List.mem_append, segmentsText, List.mem_append, List.mem_cons] at hc
  rcases hc with rfl | hc | hc | rfl | hc
  exacts [hslash, hfront c hc, not_control_of_valid ref.org_valid c hc, hslash,
    not_control_of_valid ref.repo_valid c hc]

/-- The part of the segments' text that belongs to the path. -/
def pathText (ref : RepoRef) : List Char := before '?' (before '#' (segmentsText ref))

/-- The path is cut off unless neither character is in the segments. -/
theorem eq_of_length_pathText {ref : RepoRef}
    (h : (segmentsText ref).length ≤ (pathText ref).length) :
    pathText ref = segmentsText ref ∧ '?' ∉ segmentsText ref ∧ '#' ∉ segmentsText ref := by
  have hquery := before_sublist '?' (before '#' (segmentsText ref))
  have hfragment := before_sublist '#' (segmentsText ref)
  have hpath : pathText ref = segmentsText ref := (hquery.trans hfragment).eq_of_length_le h
  have hcut : before '#' (segmentsText ref) = segmentsText ref :=
    hfragment.eq_of_length_le (h.trans hquery.length_le)
  refine ⟨hpath, fun hmem => ?_, fun hmem => ?_⟩
  · exact notMem_before '?' _ (hpath.symm ▸ hmem : '?' ∈ pathText ref)
  · exact notMem_before '#' (segmentsText ref) (hcut.symm ▸ hmem)

theorem pathText_of_isPlain {ref : RepoRef} (h : IsPlain (segmentsText ref)) :
    pathText ref = segmentsText ref := by
  rw [pathText, before_eq_self h.fragment_notMem, before_eq_self h.query_notMem]

section Client

variable {parseAuthority : List Char → List Char → Option (List Char)} {c : Client}

/-- The URL that `Fetch` builds over a base with the path `p`. -/
theorem parse_endpoint {scheme authority p : List Char} (ref : RepoRef)
    (hbase : IsBase scheme authority) (hurl : c.baseURL.toList = baseText scheme authority ++ p)
    (hp : p = [] ∨ p.head? = some '/') (hcontrol : ∀ d ∈ p, isControl d = false)
    (hquery : '?' ∉ p) (hfragment : '#' ∉ p) :
    Url.parse parseAuthority (c.endpoint ref).toList =
      ((parseAuthority (scheme.map Char.toLower) authority).bind fun host =>
        URL.setPath { scheme := scheme.map Char.toLower, host := host,
                      rawQuery := after '?' (before '#' (segmentsText ref)) }
          (p ++ '/' :: (frontText ref.host.toList ++ pathText ref))).bind
        fun u => (unescape (after '#' (segmentsText ref))).map fun _ => u := by
  have hplain := (frontText_plain ref).2
  have hq : '?' ∉ p ++ '/' :: frontText ref.host.toList := by
    simp [hquery, hplain.query_notMem]
  have hf : '#' ∉ p ++ '/' :: frontText ref.host.toList := by
    simp [hfragment, hplain.fragment_notMem]
  have hsplit : ∀ t, p ++ '/' :: (frontText ref.host.toList ++ t) =
      (p ++ '/' :: frontText ref.host.toList) ++ t := by simp
  have hhead : p ++ '/' :: (frontText ref.host.toList ++ segmentsText ref) = [] ∨
      (p ++ '/' :: (frontText ref.host.toList ++ segmentsText ref)).head? = some '/' := by
    rcases hp with rfl | hp
    · exact Or.inr rfl
    · obtain ⟨t, rfl⟩ := List.head?_eq_some_iff.mp hp
      exact Or.inr rfl
  have hall : ∀ d ∈ before '#' (p ++ '/' :: (frontText ref.host.toList ++ segmentsText ref)),
      isControl d = false := by
    intro d hd
    rcases List.mem_append.mp (mem_of_mem_before hd) with hd | hd
    · exact hcontrol d hd
    · exact not_control_path ref d hd
  rw [toList_endpoint, hurl, List.append_assoc, parse_base_append hbase hhead hall]
  rw [hsplit (segmentsText ref), before_append hf, after_append hf, before_append hq,
    after_append hq, hsplit (pathText ref), pathText]

end Client

/-- The escaped path of such a URL: the base's, the front, and the segments' text or its reading
escaped again. -/
theorem exists_escapedPath {v u : URL} {p text : List Char} {ref : RepoRef}
    (h : v.setPath (p ++ '/' :: (frontText ref.host.toList ++ text)) = some u)
    (hp : p = [] ∨ p.head? = some '/') :
    ∃ base segs text', unescape text = some text' ∧ (segs = text ∨ segs = escape text') ∧
      u.escapedPath = base ++ '/' :: (frontText ref.host.toList ++ segs) ∧
      (base = [] ↔ p = []) ∧ (base = [] ∨ base.head? = some '/') := by
  obtain ⟨hfront, hplain⟩ := frontText_plain ref
  have hstar : u.path ≠ ['*'] := by
    intro hpath
    obtain ⟨path, hread, rfl⟩ := Option.map_eq_some_iff.mp h
    obtain ⟨a, b, -, -, rfl⟩ := unescape_slash hread
    have hmem : '/' ∈ ['*'] := hpath ▸ (by simp : '/' ∈ a ++ '/' :: b)
    exact absurd hmem (by decide)
  obtain ⟨hread, hcases⟩ := escapedPath_cases h hstar
  obtain ⟨p', b, hp', hb, hpath⟩ := unescape_slash hread
  rw [unescape_append hplain.percent_notMem] at hb
  obtain ⟨text', htext, rfl⟩ := Option.map_eq_some_iff.mp hb
  rcases hcases with hcase | hcase
  · exact ⟨p, text, text', htext, Or.inl rfl, hcase, Iff.rfl, hp⟩
  · have hslash : escape ('/' :: (frontText ref.host.toList ++ text')) =
        '/' :: (frontText ref.host.toList ++ escape text') := by
      rw [← List.cons_append, escape_append, escape_eq_self]
      · rfl
      · intro c hc
        rcases List.mem_cons.mp hc with rfl | hc
        exacts [by decide, hfront c hc]
    refine ⟨escape p', escape text', text', htext, Or.inr rfl, ?_, ?_⟩
    · rw [hcase, hpath, escape_append, hslash]
    · rcases hp with rfl | hp
      · cases hp'
        exact ⟨Iff.rfl, Or.inl rfl⟩
      · obtain ⟨t, rfl⟩ := List.head?_eq_some_iff.mp hp
        rw [unescape_cons (by decide)] at hp'
        obtain ⟨t', -, rfl⟩ := Option.map_eq_some_iff.mp hp'
        have hescape : escape ('/' :: t') = '/' :: escape t' := rfl
        rw [hescape]
        exact ⟨⟨nofun, nofun⟩, Or.inr rfl⟩

/-- The segments of a path with that front. -/
theorem splitOn_front (ref : RepoRef) (base segs : List Char) :
    (base ++ '/' :: (frontText ref.host.toList ++ segs)).splitOn '/' =
      base.splitOn '/' ++ "projects".toList :: ref.host.toList :: segs.splitOn '/' := by
  have hprojects : '/' ∉ "projects".toList := by decide
  have hhost : '/' ∉ ref.host.toList := by
    rcases ref.host_supported with h | h
    · rw [h]
      decide
    · rw [h]
      decide
  unfold frontText
  generalize "projects".toList = projects at hprojects ⊢
  rw [List.splitOn_append_cons_self, List.append_assoc, List.cons_append, List.append_assoc,
    List.singleton_append, List.splitOn_append_cons_self, List.splitOn_append_cons_self,
    List.splitOn_eq_singleton hprojects, List.splitOn_eq_singleton hhost, List.singleton_append,
    List.singleton_append]

/-! ### What the server reads -/

theorem readRequest_eq_ok {u : URL} {ref : RepoRef} {c : Commit}
    (h : readRequest u = some (.ok (ref, c))) :
    ∃ segs host org repo, u.escapedPath.splitOn '/' = [] :: segs ∧
      matchSegments projectsPattern segs = some [host, org, repo] ∧
      lowerHost (if String.ofList host = "" then hostGitHub else String.ofList host) = ref.host ∧
      org = ref.org.toList ∧ repo = ref.repo.toList := by
  unfold readRequest at h
  split at h
  · rename_i host org repo hvalues
    obtain ⟨segs, hsegs, hmatch⟩ := exists_of_pathValues hvalues
    obtain ⟨hhost, horg, hrepo⟩ :=
      parseRepoRef_eq_ok.mp (refFromPath_eq_ok.mp (Option.some.inj h)).1
    exact ⟨segs, host, org, repo, hsegs, hmatch, hhost, by rw [← horg, String.toList_ofList],
      by rw [← hrepo, String.toList_ofList]⟩
  · cases h

section Client

variable {parseAuthority : List Char → List Char → Option (List Char)} {c : Client}

/-- A text that reads as the segments, of the part of their text that belongs to the path, is that
text, and has no character that a URL reads. -/
theorem isPlain_of_reads {ref : RepoRef} {e e' text segs : List Char}
    (htext : unescape (pathText ref) = some text) (hread : unescape segs = some text)
    (hsplit : segs.splitOn '/' = [e, e']) (horg : pathUnescape e = ref.org.toList)
    (hrepo : pathUnescape e' = ref.repo.toList) : IsPlain (segmentsText ref) := by
  have hjoin : segs = e ++ '/' :: e' := by
    have hinter : ['/'].intercalate (segs.splitOn '/') = segs := List.intercalate_splitOn '/'
    rw [hsplit] at hinter
    simpa using hinter.symm
  rw [hjoin] at hread
  obtain ⟨a, b, ha, hb, rfl⟩ := unescape_slash hread
  have htext' : a ++ '/' :: b = segmentsText ref := by
    rw [pathUnescape, ha, Option.getD_some] at horg
    rw [pathUnescape, hb, Option.getD_some] at hrepo
    rw [horg, hrepo, segmentsText]
  rw [htext'] at htext
  -- reading and cutting shorten the text, and here the length is kept
  obtain ⟨hle, hlt⟩ := length_unescape htext
  obtain ⟨heq, hquery, hfragment⟩ := eq_of_length_pathText hle
  refine ⟨hquery, hfragment, fun hmem => ?_⟩
  have hshort := hlt (heq.symm ▸ hmem)
  rw [heq] at hshort
  exact absurd hshort (lt_irrefl _)

/-- `projects` is no host. -/
theorem not_host_projects (ref : RepoRef) {host : List Char}
    (h : pathUnescape "projects".toList = host) :
    lowerHost (if String.ofList host = "" then hostGitHub else String.ofList host) ≠ ref.host := by
  have hprojects : lowerHost (if String.ofList (pathUnescape "projects".toList) = "" then hostGitHub
      else String.ofList (pathUnescape "projects".toList)) = "projects" := by decide +kernel
  rw [← h, hprojects]
  rcases ref.host_supported with hhost | hhost
  · rw [hhost]
    decide
  · rw [hhost]
    decide

/-- If the server reads the reference, then the base has no path, and the URL reads no character of
the segments. -/
theorem isPlain_of_readRequest {v u : URL} {p : List Char} {ref : RepoRef} {commit : Commit}
    (hset : v.setPath (p ++ '/' :: (frontText ref.host.toList ++ pathText ref)) = some u)
    (hp : p = [] ∨ p.head? = some '/') (h : readRequest u = some (.ok (ref, commit))) :
    p = [] ∧ IsPlain (segmentsText ref) := by
  obtain ⟨base, segs, text, htext, hsegs, hescaped, hbase, hhead⟩ := exists_escapedPath hset hp
  obtain ⟨path, host, org, repo, hpath, hmatch, hhost, rfl, rfl⟩ := readRequest_eq_ok h
  rw [hescaped, splitOn_front] at hpath
  have hlength := length_eq_of_matchSegments hmatch
  have hread : unescape segs = some text := by
    rcases hsegs with rfl | rfl
    · exact htext
    · exact unescape_escape text
  rcases hhead with rfl | hhead
  · -- without a path of the base, the segments' text is cut in two
    refine ⟨hbase.mp rfl, ?_⟩
    rw [List.splitOn_nil, List.singleton_append] at hpath
    obtain rfl := (List.cons.inj hpath).2
    obtain ⟨-, hmatch⟩ := of_matchSegments_wildcard (of_matchSegments_literal hmatch)
    have htwo : (segs.splitOn '/').length = 2 := by
      simpa [projectsPattern] using hlength
    obtain ⟨e, e', hsplit⟩ := List.length_eq_two.mp htwo
    rw [hsplit] at hmatch
    obtain ⟨horg, hmatch⟩ := of_matchSegments_wildcard hmatch
    obtain ⟨hrepo, -⟩ := of_matchSegments_wildcard hmatch
    exact isPlain_of_reads htext hread hsplit horg hrepo
  · -- with one, the literal of the client is read as the host
    exfalso
    obtain ⟨t, rfl⟩ := List.head?_eq_some_iff.mp hhead
    have hsplit : ('/' :: t).splitOn '/' = [] :: t.splitOn '/' := by
      have happ := List.splitOn_append_cons_self (a := '/') [] t
      rwa [List.nil_append, List.splitOn_nil, List.singleton_append] at happ
    rw [hsplit, List.cons_append] at hpath
    obtain rfl := (List.cons.inj hpath).2
    have hpos : ∀ s : List Char, 0 < (s.splitOn '/').length := fun s =>
      List.length_pos_iff.mpr (List.splitOn_ne_nil _ _)
    have hone : (t.splitOn '/').length = 1 := by
      simp only [projectsPattern, List.length_append, List.length_cons, List.length_nil] at hlength
      have hbase := hpos t
      have hsegs := hpos segs
      omega
    obtain ⟨e, he⟩ := List.length_eq_one_iff.mp hone
    rw [he, List.singleton_append] at hmatch
    exact not_host_projects ref (of_matchSegments_wildcard (of_matchSegments_literal hmatch)).1
      hhost

/-- The pattern matches a path of four names, and the server reads the reference and no commit. -/
theorem readRequest_of_segments {u : URL} {ref : RepoRef} {e e' : Segment}
    (hsegs : u.escapedPath.splitOn '/' = [[], "projects".toList, ref.host.toList, e, e'])
    (he : IsName e) (he' : IsName e') (horg : pathUnescape e = ref.org.toList)
    (hrepo : pathUnescape e' = ref.repo.toList) (hquery : u.rawQuery = []) :
    readRequest u = some (.ok (ref, Commit.latest)) := by
  have hhost : IsName ref.host.toList ∧ pathUnescape ref.host.toList = ref.host.toList ∧
      ref.host ≠ "" := by
    rcases ref.host_supported with h | h
    · rw [h]
      exact ⟨⟨by decide, by decide, by decide, by decide⟩, pathUnescape_eq_self (by decide),
        by decide⟩
    · rw [h]
      exact ⟨⟨by decide, by decide, by decide, by decide⟩, pathUnescape_eq_self (by decide),
        by decide⟩
  have hprojects : IsName "projects".toList ∧ pathUnescape "projects".toList = "projects".toList :=
    ⟨⟨by decide, by decide, by decide, by decide⟩, pathUnescape_eq_self (by decide)⟩
  have hnames : ∀ seg ∈ ["projects".toList, ref.host.toList, e, e'], IsName seg := by
    intro seg hseg
    simp only [List.mem_cons, List.not_mem_nil, or_false] at hseg
    rcases hseg with rfl | rfl | rfl | rfl
    exacts [hprojects.1, hhost.1, he, he']
  have hslash : ∀ {seg : Segment} {s : String}, IsName seg → pathUnescape seg = s.toList →
      '/' ∉ s.toList → ¬(seg = [] ∨ pathUnescape seg = ['/']) := by
    rintro seg s hseg hread hmem (hnil | hread')
    · exact hseg.ne_nil hnil
    · rw [hread] at hread'
      exact hmem (by rw [hread']; exact List.mem_singleton_self _)
  have hvalues : pathValues projectsPattern u =
      some [ref.host.toList, ref.org.toList, ref.repo.toList] := by
    rw [pathValues_of_isName hsegs (List.cons_ne_nil _ _) hnames, projectsPattern]
    generalize "projects".toList = projects at hprojects ⊢
    rw [matchSegments_literal hprojects.2,
      matchSegments_wildcard (hslash hhost.1 hhost.2.1 hhost.1.slash_notMem),
      matchSegments_wildcard (hslash he horg ref.org_valid.isName.slash_notMem),
      matchSegments_wildcard (hslash he' hrepo ref.repo_valid.isName.slash_notMem), hhost.2.1, horg,
      hrepo]
    rfl
  have hcommit : String.ofList (u.queryGet "commit".toList) = "" := by
    have hget : u.queryGet "commit".toList = [] := URL.queryGet_of_rawQuery hquery _
    rw [hget, String.ofList_nil]
  have href : parseRepoRef ref.host ref.org ref.repo = .ok ref :=
    parseRepoRef_eq_ok.mpr ⟨by rw [if_neg hhost.2.2, lowerHost_host], rfl, rfl⟩
  have hread : refFromPath ref.host ref.org ref.repo "" = .ok (ref, Commit.latest) :=
    refFromPath_eq_ok.mpr ⟨href, if_pos rfl⟩
  rw [readRequest, hvalues]
  dsimp only
  rw [hcommit, String.ofList_toList, String.ofList_toList, String.ofList_toList, hread]

/-- The server reads a reference of whose segments the URL reads no character. -/
theorem readRequest_of_isPlain {v u : URL} {ref : RepoRef}
    (hset : v.setPath ('/' :: (frontText ref.host.toList ++ pathText ref)) = some u)
    (hplain : IsPlain (segmentsText ref)) (hquery : v.rawQuery = []) :
    readRequest u = some (.ok (ref, Commit.latest)) := by
  have hu : u.rawQuery = v.rawQuery := by
    obtain ⟨path, -, rfl⟩ := Option.map_eq_some_iff.mp hset
    rfl
  obtain ⟨base, segs, text, htext, hsegs, hescaped, hbase, -⟩ :=
    exists_escapedPath (p := []) hset (Or.inl rfl)
  obtain rfl := hbase.mpr rfl
  rw [pathText_of_isPlain hplain] at htext hsegs
  rw [unescape_eq_self hplain.percent_notMem] at htext
  obtain rfl := Option.some.inj htext
  have hpercent : '%' ∉ ref.org.toList ∧ '%' ∉ ref.repo.toList := by
    have hmem := hplain.percent_notMem
    rw [segmentsText, List.mem_append, List.mem_cons, not_or, not_or] at hmem
    exact ⟨hmem.1, hmem.2.2⟩
  have horg := ref.org_valid.isName
  have hrepo := ref.repo_valid.isName
  rw [hu.symm] at hquery
  have hpath : ∀ {e e' : Segment}, segs = e ++ '/' :: e' → '/' ∉ e → '/' ∉ e' →
      u.escapedPath.splitOn '/' = [[], "projects".toList, ref.host.toList, e, e'] := by
    intro e e' hjoin he he'
    rw [hescaped, splitOn_front, List.splitOn_nil, hjoin, List.splitOn_append_cons_self,
      List.splitOn_eq_singleton he, List.splitOn_eq_singleton he', List.singleton_append,
      List.singleton_append]
  rcases hsegs with hsegs | hsegs
  · exact readRequest_of_segments (hpath hsegs horg.slash_notMem hrepo.slash_notMem) horg hrepo
      (pathUnescape_eq_self hpercent.1) (pathUnescape_eq_self hpercent.2) hquery
  · have hescape : segs = escape ref.org.toList ++ '/' :: escape ref.repo.toList := by
      rw [hsegs, segmentsText, escape_append]
      rfl
    have horg' := isName_escape horg
    have hrepo' := isName_escape hrepo
    exact readRequest_of_segments (hpath hescape horg'.slash_notMem hrepo'.slash_notMem) horg'
      hrepo'
      (pathUnescape_escape _) (pathUnescape_escape _) hquery

/-- The base URL, as a base and a path. -/
theorem exists_base (hvalid : validFallbackURL parseAuthority c.baseURL = true)
    (hquery : '?' ∉ c.baseURL.toList) (hfragment : '#' ∉ c.baseURL.toList) :
    ∃ scheme authority p host, IsBase scheme authority ∧
      c.baseURL.toList = baseText scheme authority ++ p ∧ (p = [] ∨ p.head? = some '/') ∧
      (∀ d ∈ p, isControl d = false) ∧
      parseAuthority (scheme.map Char.toLower) authority = some host ∧
      (c.NoPath parseAuthority ↔ p = []) := by
  unfold validFallbackURL at hvalid
  cases hb : Url.parse parseAuthority c.baseURL.toList with
  | none =>
    rw [hb] at hvalid
    cases hvalid
  | some u =>
    rw [hb, Option.any_some, Bool.and_eq_true, Bool.or_eq_true, beq_iff_eq, beq_iff_eq,
      bne_iff_ne] at hvalid
    have hscheme : u.scheme ≠ [] := by
      intro hnil
      rw [hnil] at hvalid
      exact absurd hvalid.1 (by decide)
    obtain ⟨scheme, authority, p, hbase, hurl, hp, hcontrol, hauthority, hpath⟩ :=
      exists_isBase hb hscheme hvalid.2 hquery hfragment
    refine ⟨scheme, authority, p, u.host, hbase, hurl, hp, hcontrol, hauthority, ?_⟩
    rw [Client.NoPath, hb, Option.map_some, Option.some_inj]
    rcases hp with rfl | hp
    · exact ⟨fun _ => rfl, fun _ => (Option.some.inj hpath).symm⟩
    · obtain ⟨t, rfl⟩ := List.head?_eq_some_iff.mp hp
      rw [unescape_cons (by decide)] at hpath
      obtain ⟨t', -, ht'⟩ := Option.map_eq_some_iff.mp hpath
      rw [← ht']
      exact ⟨nofun, nofun⟩

/-- **The repository that is asked for.** For every client whose base URL the configuration accepts
and that has no query and no fragment, and every reference: the server reads from the URL that
`Fetch` builds that reference and no commit if and only if the base URL has no path, and neither
segment has a `?`, a `#` or a `%`. -/
theorem asks_iff (c : Client) (ref : RepoRef)
    (hvalid : validFallbackURL parseAuthority c.baseURL = true)
    (hquery : '?' ∉ c.baseURL.toList) (hfragment : '#' ∉ c.baseURL.toList) :
    AsksFor parseAuthority c ref ↔
      c.NoPath parseAuthority ∧ IsPlain ref.org.toList ∧ IsPlain ref.repo.toList := by
  obtain ⟨scheme, authority, p, host, hbase, hurl, hp, hcontrol, hauthority, hpath⟩ :=
    exists_base hvalid hquery hfragment
  have hmem : ∀ d ∈ p, d ∈ c.baseURL.toList := fun d hd => hurl ▸ List.mem_append_right _ hd
  have hparse : Url.parse parseAuthority (c.endpoint ref).toList = _ :=
    parse_endpoint ref hbase hurl hp hcontrol (fun h => hquery (hmem _ h))
      (fun h => hfragment (hmem _ h))
  have hslash : IsPlain ['/'] := ⟨by decide, by decide, by decide⟩
  rw [hauthority, Option.bind_some] at hparse
  rw [hpath, ← isPlain_append_cons hslash, AsksFor, requested, hparse]
  constructor
  · intro h
    obtain ⟨u, hu, hread⟩ := Option.bind_eq_some_iff.mp h
    obtain ⟨u', hset, hu⟩ := Option.bind_eq_some_iff.mp hu
    obtain ⟨-, -, rfl⟩ := Option.map_eq_some_iff.mp hu
    exact isPlain_of_readRequest hset hp hread
  · rintro ⟨rfl, (hplain : IsPlain (segmentsText ref))⟩
    have hfront := (frontText_plain ref).2.percent_notMem
    have hpercent : '%' ∉ '/' :: (frontText ref.host.toList ++ segmentsText ref) := by
      rw [List.mem_cons, List.mem_append, not_or, not_or]
      exact ⟨by decide, hfront, hplain.percent_notMem⟩
    rw [before_eq_self hplain.fragment_notMem, after_eq_nil hplain.query_notMem,
      after_eq_nil hplain.fragment_notMem, List.nil_append]
    generalize hv : ({ scheme := scheme.map Char.toLower, host := host, rawQuery := [] } : URL) = v
    have hset : ∃ u, v.setPath ('/' :: (frontText ref.host.toList ++ pathText ref)) = some u := by
      rw [pathText_of_isPlain hplain, URL.setPath, unescape_eq_self hpercent]
      exact ⟨_, rfl⟩
    obtain ⟨u, hset⟩ := hset
    rw [hset, Option.bind_some, unescape_nil, Option.map_some, Option.bind_some]
    exact readRequest_of_isPlain hset hplain (by rw [← hv])

end Client

/-! ### Runs -/

/-- An authority that is a host alone. -/
def hostOnly : List Char → List Char → Option (List Char) := fun _ authority => some authority

/-- A client of the public API. -/
def publicClient : Client where
  baseURL := "https://api.scorecard.dev"
  maxAge := 0

/-- The client asks for the sample reference. -/
theorem asks_iff_sampleRef : AsksFor hostOnly publicClient sampleRef ↔
    publicClient.NoPath hostOnly ∧ IsPlain sampleRef.org.toList ∧ IsPlain sampleRef.repo.toList :=
  asks_iff publicClient sampleRef (by decide +kernel) (by decide) (by decide)

/-- A repository with a question mark in its name. -/
def questionRef : RepoRef where
  host := hostGitHub
  org := "ossf"
  repo := "scorecard?x"
  host_supported := sampleRef.host_supported
  org_valid := sampleRef.org_valid
  repo_valid := ⟨⟨by decide, by decide, by decide, by decide⟩, by decide,
    Strings.forall_mem_of_all (by decide)⟩

/-- `ParseRepoRef` accepts it, and the server reads the name of another repository. -/
theorem exists_requested_other :
    ∃ ref, parseRepoRef "github.com" "ossf" "scorecard?x" = .ok ref ∧
      requested hostOnly publicClient ref = some (.ok (sampleRef, Commit.latest)) ∧
      sampleRef ≠ ref ∧ ¬AsksFor hostOnly publicClient ref := by
  have hread : requested hostOnly publicClient questionRef =
      some (.ok (sampleRef, Commit.latest)) := by decide +kernel
  have hne : sampleRef ≠ questionRef := by decide +kernel
  refine ⟨questionRef, by decide +kernel, hread, hne, fun h => hne ?_⟩
  rw [AsksFor, hread] at h
  exact congrArg Prod.fst (Except.ok.inj (Option.some.inj h))

end ScorecardInfra.Cache
