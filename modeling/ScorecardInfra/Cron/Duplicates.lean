import ScorecardInfra.Cron.Inventory

/-!
# Repositories that occur twice in an inventory

`getRepoURLs` takes two rows for one repository if the lower-cased hosts and paths of their URLs
agree, while the scanner asks the engine's parsers, for which a URL need not have a scheme. Without
one, the host is a part of the path: a URL with a scheme and the same URL without one have different
keys, and both rows are left. The metadata of the first row are kept as they are, repetitions and
empty names included.

So one row is left for each repository, with the URL of its first row and the names of all its rows,
if and only if all URLs can be parsed, the first rows for the keys are the first rows of the
repositories and have no empty or repeated names, and the rows for a key list the names that the
rows of the repository list (`leavesOneRow_iff`).

## Main definitions

* `RepoID`, `RepoParsers`, `RepoParsers.repository`, `names`.
* `OneRowEach`, `LeavesOneRow`: one row for each repository.
* `FirstOf`, `KeysMatch`: the keys and the repositories of the rows.

## Main results

* `foldl_addMetadata_eq`, `MergedRows.mem_iff_first`: the rows that are left.
* `keysMatch_of_agree`, `leavesOneRow_iff`: when one row is left for each repository.

Source: `cron/internal/data/add/main.go`, lines 69–104.
-/

namespace ScorecardInfra.Cron

open GoStd Interaction

/-! ### Repositories -/

/-- What identifies a repository. -/
structure RepoID where
  host : String
  owner : String
  name : String
  deriving DecidableEq

/-- The engine's parsers of a URL, `MakeGitlabRepo` and `MakeGithubRepo`. -/
structure RepoParsers where
  gitlab : String → Except String RepoID
  github : String → Except String RepoID

/-- The parsers as checks. -/
def RepoParsers.makers (parsers : RepoParsers) : RepoMakers where
  makeGitlabRepo repoURI := (parsers.gitlab repoURI).map fun _ => ()
  makeGithubRepo repoURI := (parsers.github repoURI).map fun _ => ()

/-- The repository of a URL: what the first parser that accepts it makes of it. -/
def RepoParsers.identify (parsers : RepoParsers) (repoURI : String) : Option RepoID :=
  match parsers.gitlab repoURI with
  | .ok id => some id
  | .error _ => (parsers.github repoURI).toOption

/-- The repository of a row, without regard to upper and lower case. -/
def RepoParsers.repository (parsers : RepoParsers) (toLower : String → String)
    (r : RepoFormat) : Option RepoID :=
  (parsers.identify r.repo).map fun id => ⟨toLower id.host, toLower id.owner, toLower id.name⟩

/-! ### One row for each repository -/

/-- The names that rows list, without the empty ones, in the order of their first appearance. -/
def names (rows : List RepoFormat) : List String :=
  ((rows.flatMap RepoFormat.metadata).filter (· ≠ "")).eraseDups

section Kinds

variable {κ ι : Type} [DecidableEq κ] [DecidableEq ι]

/-- The first row of its kind. -/
def FirstOf (f : RepoFormat → ι) (repos : List RepoFormat) (r : RepoFormat) : Prop :=
  repos.find? (fun r' => f r' = f r) = some r

/-- The rows of one kind. -/
def kind (f : RepoFormat → ι) (repos : List RepoFormat) (r : RepoFormat) : List RepoFormat :=
  repos.filter fun r' => f r' = f r

/-- **One row for each repository**, with the URL of its first row and the names that its rows list.
-/
structure OneRowEach (repository : RepoFormat → ι) (repos out : List RepoFormat) : Prop where
  distinct : out.Pairwise fun r r' => repository r ≠ repository r'
  complete : ∀ r ∈ repos, ∃ r' ∈ out, repository r' = repository r
  survivor : ∀ r ∈ out, ∃ first, repos.find? (fun r' => repository r' = repository r) = some first ∧
    r.repo = first.repo ∧ r.metadata = names (kind repository repos r)

/-- **The keys match the repositories**: the first rows for the keys are those of the repositories,
their names are neither empty nor repeated, and the rows for a key list the names that the rows of
the repository list. -/
structure KeysMatch (key : RepoFormat → κ) (repository : RepoFormat → ι)
    (repos : List RepoFormat) : Prop where
  first_iff : ∀ r ∈ repos, FirstOf key repos r ↔ FirstOf repository repos r
  clean : ∀ r ∈ repos, FirstOf repository repos r → r.metadata.Nodup ∧ "" ∉ r.metadata
  names_eq : ∀ r ∈ repos, FirstOf repository repos r →
    names (kind key repos r) = names (kind repository repos r)

end Kinds

/-! ### Names -/

/-- **Adding names** appends those that are new, without the empty ones. -/
theorem foldl_addMetadata_eq (metadata ms : List String) : ms.foldl addMetadata metadata =
    metadata ++ ((ms.filter (· ≠ "")).filter fun m => !metadata.contains m).eraseDups := by
  rw [← foldl_insert_eq_append_eraseDups, List.foldl_filter]
  congr 1
  funext metadata m
  by_cases hempty : m = "" <;> by_cases hm : m ∈ metadata <;> simp [addMetadata, hempty, hm]

theorem nodup_names (rows : List RepoFormat) : (names rows).Nodup := nodup_eraseDups _

theorem empty_notMem_names (rows : List RepoFormat) : "" ∉ names rows := by
  simp [names, List.mem_eraseDups]

/-- The names of a first row that has neither empty nor repeated names, and of the others. -/
theorem foldl_addMetadata_eq_names {r : RepoFormat} {rs : List RepoFormat}
    (hnodup : r.metadata.Nodup) (hempty : "" ∉ r.metadata) :
    (rs.flatMap RepoFormat.metadata).foldl addMetadata r.metadata = names (r :: rs) := by
  have hfilter : r.metadata.filter (· ≠ "") = r.metadata := by
    refine List.filter_eq_self.mpr fun m hm => decide_eq_true ?_
    rintro rfl
    exact hempty hm
  rw [foldl_addMetadata_eq, names, List.flatMap_cons, List.filter_append, hfilter,
    List.eraseDups_append, eraseDups_of_nodup hnodup]
  rfl

/-! ### The rows that are left -/

section Rows

variable {κ ι : Type} [DecidableEq κ] [DecidableEq ι]

/-- The first row of a kind comes before the others. -/
theorem FirstOf.kind_eq {f : RepoFormat → ι} {repos : List RepoFormat} {r : RepoFormat}
    (h : FirstOf f repos r) : kind f repos r = r :: (kind f repos r).tail := by
  have hhead : (kind f repos r).head? = some r := by
    rw [kind, List.head?_filter]
    exact h
  cases hkind : kind f repos r with
  | nil =>
    rw [hkind] at hhead
    cases hhead
  | cons first rest =>
    rw [hkind] at hhead
    rw [Option.some.inj hhead, List.tail_cons]

/-- There is one first row of a kind. -/
theorem FirstOf.unique {f : RepoFormat → ι} {repos : List RepoFormat} {r r' : RepoFormat}
    (h : FirstOf f repos r) (h' : FirstOf f repos r') (heq : f r = f r') : r = r' := by
  rw [FirstOf, heq] at h
  exact Option.some.inj (h.symm.trans h')

/-- Every row has a first one of its kind. -/
theorem exists_firstOf (f : RepoFormat → ι) {repos : List RepoFormat} {r : RepoFormat}
    (hr : r ∈ repos) : ∃ first ∈ repos, FirstOf f repos first ∧ f first = f r := by
  have hfound : (repos.find? fun r' => f r' = f r).isSome :=
    List.find?_isSome.mpr ⟨r, hr, decide_eq_true rfl⟩
  obtain ⟨first, hfirst⟩ := Option.isSome_iff_exists.mp hfound
  have hkind : f first = f r := by simpa using List.find?_some hfirst
  refine ⟨first, List.mem_of_find?_eq_some hfirst, ?_, hkind⟩
  rw [FirstOf, hkind]
  exact hfirst

/-- Rows for which the keys agree exactly if the repositories do. -/
theorem keysMatch_of_agree {key : RepoFormat → κ} {repository : RepoFormat → ι}
    {repos : List RepoFormat}
    (hagree : ∀ r ∈ repos, ∀ r' ∈ repos, key r' = key r ↔ repository r' = repository r)
    (hclean : ∀ r ∈ repos, r.metadata.Nodup ∧ "" ∉ r.metadata) :
    KeysMatch key repository repos := by
  have hkind : ∀ r ∈ repos, kind key repos r = kind repository repos r := fun r hr =>
    List.filter_congr fun r' hr' => decide_eq_decide.mpr (hagree r hr r' hr')
  refine ⟨fun r hr => ?_, fun r hr _ => hclean r hr, fun r hr _ => by rw [hkind r hr]⟩
  rw [FirstOf, FirstOf, ← List.head?_filter, ← List.head?_filter, ← kind, ← kind, hkind r hr]

/-- The row that is left for a key. -/
def mergedRow (key : RepoFormat → κ) (repos : List RepoFormat) (r : RepoFormat) : RepoFormat :=
  { r with metadata :=
      ((kind key repos r).tail.flatMap RepoFormat.metadata).foldl addMetadata r.metadata }

theorem FirstOf.merged_eq {key : RepoFormat → κ} {repos : List RepoFormat} {r : RepoFormat}
    (h : FirstOf key repos r) : merged (kind key repos r) = some (mergedRow key repos r) := by
  rw [h.kind_eq]
  rfl

end Rows

namespace MergedRows

variable {key : RepoFormat → Option String} {repos out : List RepoFormat}

/-- **The rows that are left** are those of the first rows for the keys. -/
theorem mem_iff_first (h : MergedRows key repos out) (hkeys : ∀ r ∈ repos, (key r).isSome)
    (r : RepoFormat) : r ∈ out ↔
      ∃ first ∈ repos, FirstOf key repos first ∧ r = mergedRow key repos first := by
  rw [h.mem_iff]
  constructor
  · rintro ⟨k, hk⟩
    cases hrows : repos.filter fun r' => key r' = some k with
    | nil =>
      rw [hrows] at hk
      cases hk
    | cons first rest =>
      have hmem : first ∈ repos.filter fun r' => key r' = some k := by
        rw [hrows]
        exact List.mem_cons_self
      obtain ⟨hfirst, hkey⟩ := List.mem_filter.mp hmem
      have hkey : key first = some k := of_decide_eq_true hkey
      have hfirstOf : FirstOf key repos first := by
        rw [FirstOf, hkey, ← List.head?_filter, hrows]
        rfl
      have hmerged := hfirstOf.merged_eq
      rw [kind, hkey] at hmerged
      exact ⟨first, hfirst, hfirstOf, Option.some.inj (hk.symm.trans hmerged)⟩
  · rintro ⟨first, hfirst, hfirstOf, rfl⟩
    obtain ⟨k, hk⟩ := Option.isSome_iff_exists.mp (hkeys first hfirst)
    have hmerged := hfirstOf.merged_eq
    rw [kind, hk] at hmerged
    exact ⟨k, hmerged⟩

variable {ι : Type} [DecidableEq ι] {repository : RepoFormat → ι}

/-- If the first rows agree, one row is left for each repository. -/
theorem oneRowEach_of_keysMatch (h : MergedRows key repos out)
    (hkeys : ∀ r ∈ repos, (key r).isSome)
    (hrepository : ∀ r r', r.repo = r'.repo → repository r = repository r')
    (hmatch : KeysMatch key repository repos) : OneRowEach repository repos out := by
  have hout := h.mem_iff_first hkeys
  have hmergedRow : ∀ r, repository (mergedRow key repos r) = repository r :=
    fun r => hrepository _ r rfl
  refine ⟨?_, fun r hr => ?_, fun r hr => ?_⟩
  · refine h.pairwise.imp_of_mem fun {r r'} hr hr' hne heq => hne ?_
    obtain ⟨first, hfirst, hfirstOf, rfl⟩ := (hout r).mp hr
    obtain ⟨first', hfirst', hfirstOf', rfl⟩ := (hout r').mp hr'
    rw [hmergedRow, hmergedRow] at heq
    rw [((hmatch.first_iff first hfirst).mp hfirstOf).unique
      ((hmatch.first_iff first' hfirst').mp hfirstOf') heq]
  · obtain ⟨first, hfirst, hfirstOf, heq⟩ := exists_firstOf repository hr
    refine ⟨mergedRow key repos first, (hout _).mpr
      ⟨first, hfirst, (hmatch.first_iff first hfirst).mpr hfirstOf, rfl⟩, ?_⟩
    exact (hmergedRow first).trans heq
  · obtain ⟨first, hfirst, hfirstOf, rfl⟩ := (hout r).mp hr
    have hfirstOf' := (hmatch.first_iff first hfirst).mp hfirstOf
    obtain ⟨hnodup, hempty⟩ := hmatch.clean first hfirst hfirstOf'
    refine ⟨first, by rw [hmergedRow]; exact hfirstOf', rfl, ?_⟩
    rw [kind, hmergedRow, ← kind, ← hmatch.names_eq first hfirst hfirstOf', hfirstOf.kind_eq,
      ← foldl_addMetadata_eq_names hnodup hempty]
    rfl

/-- If one row is left for each repository, the first rows agree. -/
theorem keysMatch_of_oneRowEach (h : MergedRows key repos out)
    (hkeys : ∀ r ∈ repos, (key r).isSome)
    (hkey : ∀ r r', r.repo = r'.repo → key r = key r')
    (hrepository : ∀ r r', r.repo = r'.repo → repository r = repository r')
    (hone : OneRowEach repository repos out) : KeysMatch key repository repos := by
  have hout := h.mem_iff_first hkeys
  have hmergedRow : ∀ r, repository (mergedRow key repos r) = repository r :=
    fun r => hrepository _ r rfl
  have hleft : ∀ first ∈ repos, FirstOf key repos first → FirstOf repository repos first ∧
      (mergedRow key repos first).metadata = names (kind repository repos first) := by
    intro first hfirst hfirstOf
    obtain ⟨first', hfound, hrepo, hmetadata⟩ :=
      hone.survivor _ ((hout _).mpr ⟨first, hfirst, hfirstOf, rfl⟩)
    rw [hmergedRow] at hfound
    -- the first row for the key has the URL of the first row of the repository
    obtain rfl : first = first' := eq_of_find?_eq_some hfirstOf hfound
      (decide_eq_true (hkey _ _ hrepo.symm)) (decide_eq_true rfl)
    rw [kind, hmergedRow] at hmetadata
    exact ⟨hfound, hmetadata⟩
  have hfirst : ∀ r ∈ repos, FirstOf repository repos r → FirstOf key repos r := by
    intro r hr hfirstOf
    obtain ⟨r', hr', heq⟩ := hone.complete r hr
    obtain ⟨first, hmem, hfirst, rfl⟩ := (hout r').mp hr'
    rw [hmergedRow] at heq
    rwa [← (hleft first hmem hfirst).1.unique hfirstOf heq]
  have hclean : ∀ r ∈ repos, FirstOf repository repos r → r.metadata.Nodup ∧ "" ∉ r.metadata := by
    intro r hr hfirstOf
    have hnames := (hleft r hr (hfirst r hr hfirstOf)).2
    have hnodup := nodup_names (kind repository repos r)
    have hempty := empty_notMem_names (kind repository repos r)
    rw [← hnames, mergedRow, foldl_addMetadata_eq] at hnodup hempty
    exact ⟨hnodup.of_append_left, fun hmem => hempty (List.mem_append_left _ hmem)⟩
  refine ⟨fun r hr => ⟨fun h => (hleft r hr h).1, hfirst r hr⟩, hclean, fun r hr hfirstOf => ?_⟩
  have hkeyFirst := hfirst r hr hfirstOf
  obtain ⟨hnodup, hempty⟩ := hclean r hr hfirstOf
  rw [← (hleft r hr hkeyFirst).2, hkeyFirst.kind_eq, ← foldl_addMetadata_eq_names hnodup hempty]
  rfl

end MergedRows

/-! ### The rows that the tool leaves -/

/-- The tool with the engine's parsers as its checks. -/
def RepoParsers.addTool (parsers : RepoParsers) (tool : AddTool) : AddTool :=
  { tool with makers := parsers.makers }

/-- One row is left for each repository, whatever the order of the range. -/
def LeavesOneRow (parsers : RepoParsers) (tool : AddTool) (file : List Char)
    (repos : List RepoFormat) : Prop :=
  ∀ order, ∃ out, (parsers.addTool tool).getRepoURLs ((parsers.addTool tool).iterate file) order =
    .ok out ∧ OneRowEach (parsers.repository tool.toLower) repos out

section Leaves

variable {parsers : RepoParsers} {tool : AddTool} {file : List Char} {repos : List RepoFormat}

theorem repository_congr {toLower : String → String} (r r' : RepoFormat) (h : r.repo = r'.repo) :
    parsers.repository toLower r = parsers.repository toLower r' := by
  rw [RepoParsers.repository, h, ← RepoParsers.repository]

theorem keysMatch_of_leavesOneRow (h : (parsers.addTool tool).iterate file = repos.map .ok)
    (hone : LeavesOneRow parsers tool file repos) : (∀ r ∈ repos, (tool.rowKey r).isSome) ∧
      KeysMatch tool.rowKey (parsers.repository tool.toLower) repos := by
  obtain ⟨out, hrun, hone⟩ := hone fun n => .listed n
  obtain ⟨repos', heq, hkeys, hmerged⟩ := AddTool.getRepoURLs_eq_ok hrun
  obtain rfl : repos = repos' :=
    List.map_injective_iff.mpr (fun _ _ => Except.ok.inj) (h.symm.trans heq)
  exact ⟨hkeys, hmerged.keysMatch_of_oneRowEach hkeys (fun _ _ => congrArg tool.mapURL)
    repository_congr hone⟩

/-- **One row for each repository** is left exactly if all URLs can be parsed and the keys match the
repositories. -/
theorem leavesOneRow_iff (h : (parsers.addTool tool).iterate file = repos.map .ok) :
    LeavesOneRow parsers tool file repos ↔
      (∀ r ∈ repos, (tool.rowKey r).isSome) ∧
        KeysMatch tool.rowKey (parsers.repository tool.toLower) repos := by
  refine ⟨keysMatch_of_leavesOneRow h, fun ⟨hkeys, hmatch⟩ order => ?_⟩
  have hkeys' : ∀ r ∈ repos, ((parsers.addTool tool).rowKey r).isSome := hkeys
  obtain ⟨out, hrun, hmerged⟩ := AddTool.exists_getRepoURLs_eq_ok hkeys' order
  rw [h]
  exact ⟨out, hrun, hmerged.oneRowEach_of_keysMatch hkeys repository_congr hmatch⟩

end Leaves

/-! ### Small inventories -/

/-- Parsers that accept the repositories of one host. -/
def sampleParsers : RepoParsers where
  gitlab _ := .error "not a gitlab repository"
  github repoURI :=
    let rest := (Strings.cutPrefix repoURI "https://").getD repoURI
    match (Strings.split rest '/').filter (· ≠ "") with
    | [host, owner, name] => cond (host == "github.com") (.ok ⟨host, owner, name⟩) (.error "host")
    | _ => .error "invalid"

/-- A repository in lower and in upper case. -/
def caseInventory : List Char := "repo,metadata\ngithub.com/a/a,m\ngithub.com/A/A,m\n".toList

/-- The rows of the inventory. -/
def caseRows : List RepoFormat := [⟨"github.com/a/a", ["m"]⟩, ⟨"github.com/A/A", ["m"]⟩]

/-- Upper and lower case are not told apart. -/
theorem leavesOneRow_caseInventory :
    LeavesOneRow sampleParsers sampleTool caseInventory caseRows := by
  have hiterate : (sampleParsers.addTool sampleTool).iterate caseInventory =
      caseRows.map .ok := by
    rw [AddTool.iterate_eq]
    decide +kernel
  have hkey : ∀ r ∈ caseRows, sampleTool.rowKey r = some "/github.com/a/a" := by decide +kernel
  have hrepository : ∀ r ∈ caseRows, sampleParsers.repository sampleTool.toLower r =
      some ⟨"github.com", "a", "a"⟩ := by decide +kernel
  refine (leavesOneRow_iff hiterate).mpr ⟨fun r hr => by rw [hkey r hr]; rfl, ?_⟩
  refine keysMatch_of_agree (fun r hr r' hr' => ?_) (by decide)
  rw [hkey r hr, hkey r' hr', hrepository r hr, hrepository r' hr']
  exact iff_of_true rfl rfl

/-- A repository without and with a scheme. -/
def twiceInventory : List Char :=
  "repo,metadata\ngithub.com/a/b,\nhttps://github.com/a/b,\n".toList

/-- The rows of the inventory. -/
def twiceRows : List RepoFormat := [⟨"github.com/a/b", []⟩, ⟨"https://github.com/a/b", []⟩]

theorem iterate_twiceInventory :
    (sampleParsers.addTool sampleTool).iterate twiceInventory = twiceRows.map .ok := by
  rw [AddTool.iterate_eq]
  decide +kernel

/-- The row with a scheme is the first for its key, and not of its repository. -/
theorem not_leavesOneRow_twiceInventory :
    (sampleParsers.addTool sampleTool).iterate twiceInventory = twiceRows.map .ok ∧
      ¬LeavesOneRow sampleParsers sampleTool twiceInventory twiceRows := by
  refine ⟨iterate_twiceInventory, fun h => ?_⟩
  have hmatch := (keysMatch_of_leavesOneRow iterate_twiceInventory h).2
  have hfirst := hmatch.first_iff ⟨"https://github.com/a/b", []⟩
    (List.mem_cons_of_mem _ List.mem_cons_self)
  have hkey : FirstOf sampleTool.rowKey twiceRows ⟨"https://github.com/a/b", []⟩ := by
    rw [FirstOf]
    decide +kernel
  have hrepository := hfirst.mp hkey
  rw [FirstOf] at hrepository
  revert hrepository
  decide +kernel

end ScorecardInfra.Cron
