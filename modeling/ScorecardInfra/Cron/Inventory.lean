import Mathlib.Data.Finset.Dedup
import Mathlib.Data.Finset.Insert
import ScorecardInfra.Cron.InventoryWriter
import ScorecardInfra.GoStd.Url

/-!
# Adding repositories to an inventory

`getRepoURLs` keeps the first row of each key, the lower-cased host and path of its URL, and adds to
it the metadata of the later rows with the same key. The rows leave a Go map in any order;
`SortAndAppendTo` sorts them by their URL. Rows with one URL have one key, so no two rows that leave
the map tie, and the sorted list is the same for every order (`sortedByRepo_eq`).

## Main definitions

* `AddTool`, `mapURL`, `Inventory`, `Inventory.add`, `getRepoURLs`, `addProjects`.
* `merged`: the row that rows with one key are merged to.

## Main results

* `collect_eq_ok`, `getRepoURLs_eq_ok`: what the maps hold after a list of rows, and what is left.
* `addProjects_stable`: the order of the range is irrelevant, the rows are sorted, and the tool
  leaves its own output as it is.

Source: `cron/internal/data/add/main.go`.
-/

namespace ScorecardInfra.Cron

open GoStd Interaction

/-- What the add tool calls: the checks of a URL, `strings.ToLower`, how `url.Parse` reads an
authority, what the reader of `encoding/csv` makes of a file, and whether `csvutil` writes the
header for an empty list. -/
structure AddTool where
  makers : RepoMakers
  toLower : String → String
  parseAuthority : List Char → List Char → Option (List Char)
  read : List Char → List (Except String (List String))
  headerOfNone : Bool

/-- What `csvutil` makes of a record, with the header that it is given. -/
def CsvRow.ofRecord : Except String (List String) → CsvRow
  | .error e => ⟨[], .error e⟩
  | .ok [repo, metadata] => ⟨[repo, metadata], .ok ⟨repo, unmarshalCSV metadata⟩⟩
  | .ok record => ⟨record, .error "wrong number of fields in record"⟩

/-! ### The maps -/

/-- The maps of `getRepoURLs`: the rows to be returned and the metadata seen, by key. -/
structure Inventory where
  repoURLs : GoMap String RepoFormat
  repoMap : GoMap String (Finset String)

namespace Inventory

/-- No rows. -/
def empty : Inventory := ⟨∅, ∅⟩

/-- One step of the loop over the metadata of a later row. -/
def appendMetadata (p : RepoFormat × Finset String) (metadata : String) :
    RepoFormat × Finset String :=
  if metadata ∉ p.2 ∧ metadata ≠ "" then
    ({ p.1 with metadata := p.1.metadata ++ [metadata] }, insert metadata p.2)
  else p

/-- A row with the key `mapURL`.

Source: `cron/internal/data/add/main.go`, lines 82–96. -/
def add (inv : Inventory) (mapURL : String) (repo : RepoFormat) : Inventory :=
  match inv.repoMap.lookup mapURL, inv.repoURLs.lookup mapURL with
  | some seen, some repoURL =>
    let (repoURL, seen) := repo.metadata.foldl appendMetadata (repoURL, seen)
    ⟨inv.repoURLs.insert mapURL repoURL, inv.repoMap.insert mapURL seen⟩
  | _, _ => ⟨inv.repoURLs.insert mapURL repo, inv.repoMap.insert mapURL repo.metadata.toFinset⟩

end Inventory

namespace AddTool

variable (tool : AddTool)

/-- The key of a URL; `none` if it cannot be parsed. -/
def mapURL (repo : String) : Option String :=
  (Url.parse tool.parseAuthority (tool.toLower repo).toList).map fun parsedURL =>
    String.ofList (parsedURL.host ++ '/' :: parsedURL.path)

/-- The loop of `getRepoURLs` over what the iterator returns. A URL that cannot be parsed panics
with the error of `url.Parse`, of which the reason is left out.

Source: `cron/internal/data/add/main.go`, lines 72–97. -/
def collect : List (Except CronError RepoFormat) → Inventory → Except (Stop CronError) Inventory
  | [], inv => .ok inv
  | .error err :: _, _ => .error (.error (.wrapf "iter.Next" err))
  | .ok repo :: iter, inv => match tool.mapURL repo.repo with
    | none => .error (.panic ("parse " ++ tool.toLower repo.repo))
    | some mapURL => collect iter (inv.add mapURL repo)

/-- `getRepoURLs`, with the order of the range over the map.

Source: `cron/internal/data/add/main.go`, lines 69–104. -/
def getRepoURLs (iter : List (Except CronError RepoFormat)) (order : (n : Nat) → GoMap.Order n) :
    Except (Stop CronError) (List RepoFormat) :=
  (tool.collect iter Inventory.empty).map fun inv =>
    (inv.repoURLs.visit (order _)).map fun e => e.2

/-- What the iterator over a file returns. -/
def iterate (file : List Char) : List (Except CronError RepoFormat) :=
  (CsvIterator.new ((tool.read file).map CsvRow.ofRecord)).drain tool.makers

/-- `main` up to the output file: the bytes of its buffer, which accepts all bytes. It panics with
every error.

Source: `cron/internal/data/add/main.go`, lines 41–57. -/
def addProjects (file : List Char) (order : (n : Nat) → GoMap.Order n) :
    Except (Stop CronError) (List Char) := do
  let repoURLs ← tool.getRepoURLs (tool.iterate file) order
  match sortAndAppendTo tool.headerOfNone buffer repoURLs [] with
  | (some err, _) => .error (.error err)
  | (none, buf) => .ok buf.accepted

end AddTool

/-! ### Merged rows -/

/-- The metadata of a row after those of a later row have been added. -/
def addMetadata (metadata : List String) (m : String) : List String :=
  if m ∉ metadata ∧ m ≠ "" then metadata ++ [m] else metadata

/-- The row that rows with one key are merged to. -/
def merged : List RepoFormat → Option RepoFormat
  | [] => none
  | r :: rs =>
    some { r with metadata := (rs.flatMap RepoFormat.metadata).foldl addMetadata r.metadata }

namespace Inventory

variable {inv : Inventory} {k : String} {repos : List RepoFormat}

theorem appendMetadata_eq (r : RepoFormat) (m : String) :
    appendMetadata (r, r.metadata.toFinset) m =
      ({ r with metadata := addMetadata r.metadata m }, (addMetadata r.metadata m).toFinset) := by
  simp only [appendMetadata, addMetadata, List.mem_toFinset]
  split_ifs
  · have hinsert : insert m r.metadata.toFinset = (r.metadata ++ [m]).toFinset := by
      ext x
      simp
    rw [hinsert]
  · rfl

theorem foldl_appendMetadata (names : List String) (r : RepoFormat) :
    names.foldl appendMetadata (r, r.metadata.toFinset) =
      ({ r with metadata := names.foldl addMetadata r.metadata },
        (names.foldl addMetadata r.metadata).toFinset) := by
  induction names generalizing r with
  | nil => rfl
  | cons m names ih => rw [List.foldl_cons, List.foldl_cons, appendMetadata_eq, ih]

theorem merged_append_singleton (repos : List RepoFormat) (repo : RepoFormat) :
    merged (repos ++ [repo]) = some ((merged repos).elim repo fun r =>
      { r with metadata := repo.metadata.foldl addMetadata r.metadata }) := by
  cases repos with
  | nil => rfl
  | cons r rs => simp [merged]

/-- The maps hold the rows `repos`, of which `key` is the key. -/
def Holds (key : RepoFormat → Option String) (repos : List RepoFormat) (inv : Inventory) : Prop :=
  ∀ k, inv.repoURLs.lookup k = merged (repos.filter fun r => key r = some k) ∧
    inv.repoMap.lookup k = (merged (repos.filter fun r => key r = some k)).map fun r =>
      r.metadata.toFinset

theorem holds_empty (key : RepoFormat → Option String) : Holds key [] empty := fun _ => ⟨rfl, rfl⟩

/-- **One row** more. -/
theorem Holds.add {key : RepoFormat → Option String} (h : Holds key repos inv) {repo : RepoFormat}
    (hk : key repo = some k) : Holds key (repos ++ [repo]) (inv.add k repo) := by
  intro k'
  obtain ⟨hrow, hseen⟩ := h k
  by_cases hkey : k' = k
  · subst hkey
    have hfilter : (repos ++ [repo]).filter (fun r => key r = some k') =
        repos.filter (fun r => key r = some k') ++ [repo] := by
      simp [List.filter_append, hk]
    rw [hfilter, merged_append_singleton, Inventory.add, hrow, hseen]
    cases merged (repos.filter fun r => key r = some k') with
    | none => exact ⟨AList.lookup_insert _, AList.lookup_insert _⟩
    | some r =>
      simp only [Option.map_some, foldl_appendMetadata]
      exact ⟨AList.lookup_insert _, AList.lookup_insert _⟩
  · have hfilter : (repos ++ [repo]).filter (fun r => key r = some k') =
        repos.filter fun r => key r = some k' := by
      simp [List.filter_append, hk, Ne.symm hkey]
    have hother : (inv.add k repo).repoURLs.lookup k' = inv.repoURLs.lookup k' ∧
        (inv.add k repo).repoMap.lookup k' = inv.repoMap.lookup k' := by
      unfold Inventory.add
      split <;> exact ⟨AList.lookup_insert_ne hkey, AList.lookup_insert_ne hkey⟩
    rw [hfilter, hother.1, hother.2]
    exact h k'

end Inventory

namespace AddTool

variable {tool : AddTool} {repos : List RepoFormat} {order : (n : Nat) → GoMap.Order n}

/-- The key of a row. -/
def rowKey (tool : AddTool) (repo : RepoFormat) : Option String := tool.mapURL repo.repo

/-- **The loop** ends without an error only if every row is valid and its URL can be parsed. -/
theorem collect_eq_ok {iter : List (Except CronError RepoFormat)} {inv inv' : Inventory}
    {before : List RepoFormat} (h : inv.Holds tool.rowKey before)
    (hrun : tool.collect iter inv = .ok inv') : ∃ repos, iter = repos.map .ok ∧
      (∀ r ∈ repos, (tool.rowKey r).isSome) ∧ inv'.Holds tool.rowKey (before ++ repos) := by
  induction iter generalizing inv before with
  | nil =>
    obtain rfl := Except.ok.inj hrun
    exact ⟨[], rfl, nofun, by rwa [List.append_nil]⟩
  | cons next iter ih =>
    cases next with
    | error err => cases hrun
    | ok repo =>
      rw [collect] at hrun
      split at hrun
      · cases hrun
      · rename_i k hk
        have hadd : (inv.add k repo).Holds tool.rowKey (before ++ [repo]) := h.add hk
        obtain ⟨repos, rfl, hkeys, hholds⟩ := ih hadd hrun
        refine ⟨repo :: repos, rfl, ?_, by rwa [List.append_assoc] at hholds⟩
        exact List.forall_mem_cons.mpr ⟨Option.isSome_iff_exists.mpr ⟨k, hk⟩, hkeys⟩

/-- The loop ends without an error if all rows are valid and their URLs can be parsed. -/
theorem exists_collect_eq_ok (hkeys : ∀ r ∈ repos, (tool.rowKey r).isSome) (inv : Inventory) :
    ∃ inv', tool.collect (repos.map .ok) inv = .ok inv' := by
  induction repos generalizing inv with
  | nil => exact ⟨inv, rfl⟩
  | cons repo repos ih =>
    obtain ⟨hrepo, hrepos⟩ := List.forall_mem_cons.mp hkeys
    obtain ⟨k, hk⟩ := Option.isSome_iff_exists.mp hrepo
    have hstep : tool.collect ((repo :: repos).map .ok) inv =
        tool.collect (repos.map .ok) (inv.add k repo) := by
      rw [List.map_cons, collect, show tool.mapURL repo.repo = some k from hk]
    rw [hstep]
    exact ih hrepos _

end AddTool

/-! ### Rows that are left -/

/-- One row is left for each key, merged from the rows with that key. -/
structure MergedRows (key : RepoFormat → Option String) (repos out : List RepoFormat) : Prop where
  pairwise : out.Pairwise fun r r' => key r ≠ key r'
  mem_iff : ∀ r, r ∈ out ↔ ∃ k, merged (repos.filter fun r' => key r' = some k) = some r

/-- A merged row has the URL of one of the rows. -/
theorem exists_of_merged {repos : List RepoFormat} {r : RepoFormat} (h : merged repos = some r) :
    ∃ r₀ ∈ repos, r.repo = r₀.repo := by
  cases repos with
  | nil => cases h
  | cons r₀ rs =>
    obtain rfl := Option.some.inj h
    exact ⟨r₀, List.mem_cons_self, rfl⟩

theorem isDecoded_addMetadata {metadata : List String} {m : String} (h : IsDecoded metadata)
    (hm : ',' ∉ m.toList) : IsDecoded (addMetadata metadata m) := by
  unfold addMetadata
  split_ifs with hnew
  · refine ⟨fun heq => hnew.2 ?_, fun m' hm' => ?_⟩
    · have hlast := congrArg List.getLast? heq
      simpa using hlast
    · rcases List.mem_append.mp hm' with hm' | hm'
      · exact h.2 m' hm'
      · rwa [List.mem_singleton.mp hm']
  · exact h

/-- A merged row has metadata that can be read back, if the rows do. -/
theorem isDecoded_of_merged {repos : List RepoFormat} {r : RepoFormat} (h : merged repos = some r)
    (hrepos : ∀ r ∈ repos, IsDecoded r.metadata) : IsDecoded r.metadata := by
  cases repos with
  | nil => cases h
  | cons r₀ rs =>
    obtain rfl := Option.some.inj h
    obtain ⟨hfirst, hrest⟩ := List.forall_mem_cons.mp hrepos
    have hnames : ∀ m ∈ rs.flatMap RepoFormat.metadata, ',' ∉ m.toList := by
      intro m hm
      obtain ⟨r, hr, hm⟩ := List.mem_flatMap.mp hm
      exact (hrest r hr).2 m hm
    revert hnames
    generalize rs.flatMap RepoFormat.metadata = names
    generalize r₀.metadata = metadata at hfirst
    intro hnames
    induction names generalizing metadata with
    | nil => exact hfirst
    | cons m names ih =>
      obtain ⟨hm, hnames⟩ := List.forall_mem_cons.mp hnames
      exact ih _ (isDecoded_addMetadata hfirst hm) hnames

namespace MergedRows

variable {key : RepoFormat → Option String} {repos out out' : List RepoFormat}

theorem nodup (h : MergedRows key repos out) : out.Nodup :=
  h.pairwise.imp fun hne heq => hne (congrArg key heq)

/-- The rows are the same, up to their order. -/
theorem perm (h : MergedRows key repos out) (h' : MergedRows key repos out') : out.Perm out' :=
  (List.perm_ext_iff_of_nodup h.nodup h'.nodup).mpr fun r => (h.mem_iff r).trans (h'.mem_iff r).symm

/-- Rows with different keys are left as they are. -/
theorem self (hpairwise : out.Pairwise fun r r' => key r ≠ key r')
    (hkeys : ∀ r ∈ out, (key r).isSome) : MergedRows key out out := by
  have hfilter : ∀ r ∈ out, ∀ k, key r = some k →
      out.filter (fun r' => key r' = some k) = [r] := by
    intro r hr k hk
    have hnodup : (out.filter fun r' => key r' = some k).Nodup :=
      (hpairwise.imp fun hne heq => hne (congrArg key heq)).filter _
    refine List.perm_singleton.mp ((List.perm_ext_iff_of_nodup hnodup
      (List.nodup_singleton r)).mpr fun r' => ?_)
    rw [List.mem_filter, List.mem_singleton, decide_eq_true_eq]
    constructor
    · rintro ⟨hr', hk'⟩
      exact List.inj_on_of_nodup_map (List.pairwise_map.mpr hpairwise) hr' hr (hk'.trans hk.symm)
    · rintro rfl
      exact ⟨hr, hk⟩
  refine ⟨hpairwise, fun r => ⟨fun hr => ?_, ?_⟩⟩
  · obtain ⟨k, hk⟩ := Option.isSome_iff_exists.mp (hkeys r hr)
    exact ⟨k, by rw [hfilter r hr k hk]; rfl⟩
  · rintro ⟨k, hmerged⟩
    obtain ⟨r₀, hr₀, -⟩ := exists_of_merged hmerged
    obtain ⟨hr₀, hk⟩ := List.mem_filter.mp hr₀
    rw [hfilter r₀ hr₀ k (of_decide_eq_true hk)] at hmerged
    obtain rfl : r₀ = r := Option.some.inj hmerged
    exact hr₀

end MergedRows

namespace AddTool

variable {tool : AddTool} {repos out : List RepoFormat} {order : (n : Nat) → GoMap.Order n}

/-- **`getRepoURLs`** leaves one row for each key. -/
theorem getRepoURLs_eq_ok {iter : List (Except CronError RepoFormat)}
    (h : tool.getRepoURLs iter order = .ok out) : ∃ repos, iter = repos.map .ok ∧
      (∀ r ∈ repos, (tool.rowKey r).isSome) ∧ MergedRows tool.rowKey repos out := by
  rw [getRepoURLs] at h
  cases hcollect : tool.collect iter Inventory.empty with
  | error stop =>
    rw [hcollect] at h
    cases h
  | ok inv =>
    rw [hcollect] at h
    obtain rfl := Except.ok.inj h
    obtain ⟨repos, rfl, hkeys, hholds⟩ :=
      collect_eq_ok (Inventory.holds_empty tool.rowKey) hcollect
    rw [List.nil_append] at hholds
    have hmem : ∀ e, e ∈ inv.repoURLs.visit (order _) ↔
        merged (repos.filter fun r => tool.rowKey r = some e.1) = some e.2 := by
      intro e
      rw [GoMap.mem_visit, ← (hholds e.1).1]
      exact AList.mem_lookup_iff.symm
    have hkey : ∀ e ∈ inv.repoURLs.visit (order _), tool.rowKey e.2 = some e.1 := by
      intro e he
      obtain ⟨r₀, hr₀, hrepo⟩ := exists_of_merged ((hmem e).mp he)
      have hr₀ := of_decide_eq_true (List.mem_filter.mp hr₀).2
      rwa [rowKey, hrepo]
    have hnodup : (inv.repoURLs.visit (order _)).NodupKeys :=
      (List.perm_nodupKeys (GoMap.visit_perm _ _)).mpr inv.repoURLs.nodupKeys
    refine ⟨repos, rfl, hkeys, ?_, fun r => ?_⟩
    · rw [List.pairwise_map]
      refine hnodup.pairwise_ne.imp_of_mem fun {e e'} he he' hne heq => hne ?_
      rw [hkey e he, hkey e' he'] at heq
      exact Option.some.inj heq
    · rw [List.mem_map]
      constructor
      · rintro ⟨e, he, rfl⟩
        exact ⟨e.1, (hmem e).mp he⟩
      · rintro ⟨k, hk⟩
        exact ⟨⟨k, r⟩, (hmem ⟨k, r⟩).mpr hk, rfl⟩

/-- Rows whose URLs can be parsed are collected. -/
theorem exists_getRepoURLs_eq_ok (hkeys : ∀ r ∈ repos, (tool.rowKey r).isSome)
    (order : (n : Nat) → GoMap.Order n) :
    ∃ out, tool.getRepoURLs (repos.map .ok) order = .ok out ∧
      MergedRows tool.rowKey repos out := by
  obtain ⟨inv, hinv⟩ := exists_collect_eq_ok hkeys Inventory.empty
  obtain ⟨out, hrun⟩ : ∃ out, tool.getRepoURLs (repos.map .ok) order = .ok out := by
    rw [getRepoURLs, hinv]
    exact ⟨_, rfl⟩
  obtain ⟨repos', heq, -, hmerged⟩ := getRepoURLs_eq_ok hrun
  obtain rfl : repos = repos' := List.map_injective_iff.mpr (fun _ _ => Except.ok.inj) heq
  exact ⟨out, hrun, hmerged⟩

/-- The URLs of the rows that are left can be parsed. -/
theorem isSome_rowKey_of_merged (h : MergedRows tool.rowKey repos out)
    (hkeys : ∀ r ∈ repos, (tool.rowKey r).isSome) {r : RepoFormat} (hr : r ∈ out) :
    (tool.rowKey r).isSome := by
  obtain ⟨k, hk⟩ := (h.mem_iff r).mp hr
  obtain ⟨r₀, hr₀, hrepo⟩ := exists_of_merged hk
  rw [rowKey, hrepo]
  exact hkeys r₀ (List.mem_filter.mp hr₀).1

/-- No two rows that are left have one URL. -/
theorem nodup_repo (h : MergedRows tool.rowKey repos out) : (out.map RepoFormat.repo).Nodup :=
  List.pairwise_map.mpr (h.pairwise.imp fun hne heq => hne (congrArg tool.mapURL heq))

/-! ### The bytes of the tool -/

/-- The tool writes what `getRepoURLs` returns in the order of the URLs. -/
theorem addProjects_eq (file : List Char) : tool.addProjects file order =
    (tool.getRepoURLs (tool.iterate file) order).map fun repoURLs =>
      encoding tool.headerOfNone (sortedByRepo repoURLs) := by
  rw [addProjects]
  cases tool.getRepoURLs (tool.iterate file) order with
  | error stop => rfl
  | ok repoURLs =>
    have hwrite := writeTo_buffer tool.headerOfNone (sortedByRepo (repoURLs ++ []))
    change (match writeTo tool.headerOfNone buffer (sortedByRepo (repoURLs ++ [])) with
      | (some err, _) => Except.error (Stop.error err)
      | (none, buf) => Except.ok buf.accepted) = _
    generalize writeTo tool.headerOfNone buffer (sortedByRepo (repoURLs ++ [])) = result
      at hwrite ⊢
    obtain ⟨err, buf⟩ := result
    obtain ⟨rfl, haccepted⟩ := hwrite
    rw [List.append_nil] at haccepted
    exact congrArg Except.ok haccepted

/-- Two orders of the range end alike. -/
theorem addProjects_order (file : List Char) (order order' : (n : Nat) → GoMap.Order n) :
    tool.addProjects file order = tool.addProjects file order' := by
  rw [addProjects_eq, addProjects_eq]
  cases hrun : tool.getRepoURLs (tool.iterate file) order with
  | error stop =>
    rw [getRepoURLs] at hrun ⊢
    cases hcollect : tool.collect (tool.iterate file) Inventory.empty with
    | error stop' =>
      rw [hcollect] at hrun
      rw [← hrun]
      rfl
    | ok inv =>
      rw [hcollect] at hrun
      cases hrun
  | ok out =>
    obtain ⟨repos, hiter, hkeys, hmerged⟩ := getRepoURLs_eq_ok hrun
    obtain ⟨out', hrun', hmerged'⟩ := exists_getRepoURLs_eq_ok hkeys order'
    rw [hiter, hrun']
    exact congrArg (fun l => Except.ok (encoding tool.headerOfNone l))
      (sortedByRepo_eq (hmerged.perm hmerged') (nodup_repo hmerged))

/-! ### Reading back -/

/-- What the reader makes of these records is the records. -/
def ReadsBack (tool : AddTool) (records : List (List String)) : Prop :=
  tool.read (Csv.text records) = records.map .ok

/-- A row that the tool accepts: its URL is valid, and its metadata have been decoded. -/
structure Valid (tool : AddTool) (r : RepoFormat) : Prop where
  validate : CsvIterator.validate tool.makers r.repo = .ok ()
  isDecoded : IsDecoded r.metadata

theorem valid_of_value {x : Except String (List String)} {r : RepoFormat}
    (h : (CsvRow.ofRecord x).value tool.makers = .ok r) : tool.Valid r := by
  unfold CsvRow.ofRecord at h
  split at h
  · cases h
  · rename_i repo metadata
    rw [CsvRow.value] at h
    cases hvalidate : CsvIterator.validate tool.makers repo with
    | error err =>
      simp only [hvalidate] at h
      cases h
    | ok u =>
      simp only [hvalidate] at h
      obtain rfl := Except.ok.inj h
      exact ⟨hvalidate, isDecoded_unmarshalCSV metadata⟩
  · cases h

theorem value_record {r : RepoFormat} (h : tool.Valid r) :
    (CsvRow.ofRecord (.ok r.record)).value tool.makers = .ok r := by
  rw [RepoFormat.record, CsvRow.ofRecord, CsvRow.value, unmarshalCSV_marshalCSV h.isDecoded]
  simp only [h.validate]
  rfl

theorem iterate_eq (file : List Char) : tool.iterate file =
    (dataRows ((tool.read file).map CsvRow.ofRecord)).map fun row => row.value tool.makers :=
  CsvIterator.drain_new _ _

theorem valid_of_iterate {file : List Char} (h : tool.iterate file = repos.map .ok) :
    ∀ r ∈ repos, tool.Valid r := by
  intro r hr
  have hmem : Except.ok r ∈ tool.iterate file := by
    rw [h]
    exact List.mem_map_of_mem hr
  rw [iterate_eq] at hmem
  obtain ⟨row, hrow, hvalue⟩ := List.mem_map.mp hmem
  obtain ⟨x, -, rfl⟩ := List.mem_map.mp (mem_of_mem_dataRows hrow)
  exact valid_of_value hvalue

/-- **Reading the output** returns its rows. -/
theorem iterate_encoding (hread : tool.ReadsBack (inventoryRecords tool.headerOfNone out))
    (hvalid : ∀ r ∈ out, tool.Valid r) :
    tool.iterate (encoding tool.headerOfNone out) = out.map .ok := by
  have hrows : dataRows ((inventoryRecords tool.headerOfNone out).map
      fun record => CsvRow.ofRecord (.ok record)) =
        out.map fun r => CsvRow.ofRecord (.ok r.record) := by
    rw [inventoryRecords]
    split_ifs with hnone
    · rw [hnone.1]
      rfl
    · have hheader : (CsvRow.ofRecord (.ok csvHeader)).record = csvHeader := rfl
      rw [List.singleton_append, List.map_cons, dataRows, if_pos hheader, List.map_map]
      rfl
  rw [iterate_eq, encoding, hread, List.map_map]
  change (dataRows ((inventoryRecords tool.headerOfNone out).map
    fun record => CsvRow.ofRecord (.ok record))).map _ = _
  rw [hrows, List.map_map]
  exact List.map_congr_left fun r hr => value_record (hvalid r hr)

/-- The rows that are left are valid. -/
theorem valid_of_merged (h : MergedRows tool.rowKey repos out)
    (hvalid : ∀ r ∈ repos, tool.Valid r) : ∀ r ∈ out, tool.Valid r := by
  intro r hr
  obtain ⟨k, hk⟩ := (h.mem_iff r).mp hr
  obtain ⟨r₀, hr₀, hrepo⟩ := exists_of_merged hk
  refine ⟨?_, isDecoded_of_merged hk fun r' hr' =>
    (hvalid r' (List.mem_filter.mp hr').1).isDecoded⟩
  rw [hrepo]
  exact (hvalid r₀ (List.mem_filter.mp hr₀).1).validate

/-- **The tool on its own output.** The bytes are the same for every order of the range, the rows
are in the order of their URLs, and the tool leaves its own output as it is, if it is read back. -/
theorem addProjects_stable (tool : AddTool) (file : List Char) :
    (∀ order order', tool.addProjects file order = tool.addProjects file order') ∧
    ∀ order bytes, tool.addProjects file order = .ok bytes →
      ∃ repoURLs, tool.getRepoURLs (tool.iterate file) order = .ok repoURLs ∧
        bytes = encoding tool.headerOfNone (sortedByRepo repoURLs) ∧
        (sortedByRepo repoURLs).Pairwise (fun r r' => r.repo ≤ r'.repo) ∧
        (tool.ReadsBack (inventoryRecords tool.headerOfNone (sortedByRepo repoURLs)) →
          ∀ order', tool.addProjects bytes order' = .ok bytes) := by
  refine ⟨addProjects_order file, fun order bytes h => ?_⟩
  rw [addProjects_eq] at h
  cases hrun : tool.getRepoURLs (tool.iterate file) order with
  | error stop =>
    rw [hrun] at h
    cases h
  | ok left =>
    rw [hrun] at h
    obtain rfl := Except.ok.inj h
    obtain ⟨repos, hiter, hkeys, hmerged⟩ := getRepoURLs_eq_ok hrun
    have hvalid := valid_of_merged hmerged (valid_of_iterate hiter)
    have hleft := sortedByRepo_perm left
    refine ⟨left, rfl, rfl, sortedByRepo_pairwise left, fun hread order' => ?_⟩
    -- the rows of the output have different keys, so the second run merges nothing
    have hiter' := iterate_encoding hread fun r hr => hvalid r (hleft.mem_iff.mp hr)
    have hpairwise : (sortedByRepo left).Pairwise fun r r' => tool.rowKey r ≠ tool.rowKey r' :=
      (hleft.pairwise_iff fun hne => hne.symm).mpr hmerged.pairwise
    have hkeys' : ∀ r ∈ sortedByRepo left, (tool.rowKey r).isSome := fun r hr =>
      isSome_rowKey_of_merged hmerged hkeys (hleft.mem_iff.mp hr)
    obtain ⟨out, hrun', hmerged'⟩ := exists_getRepoURLs_eq_ok hkeys' order'
    have hout : sortedByRepo out = sortedByRepo left := by
      rw [sortedByRepo_eq (hmerged'.perm (.self hpairwise hkeys')) (nodup_repo hmerged'),
        sortedByRepo_of_pairwise (sortedByRepo_pairwise left)]
    rw [addProjects_eq, hiter', hrun']
    exact congrArg (fun l => Except.ok (encoding tool.headerOfNone l)) hout

end AddTool

/-! ### A small inventory -/

/-- A tool that accepts the URLs with a slash, and reads files without quotes. -/
def sampleTool : AddTool where
  makers := {
    makeGitlabRepo := fun _ => .error "not a gitlab repository"
    makeGithubRepo := fun repo => cond (Strings.contains repo "/") (.ok ()) (.error "invalid") }
  toLower := Strings.toLower
  parseAuthority := fun _ authority => some authority
  read := fun file => ((file.splitOn '\n').filter (· ≠ [])).map fun line =>
    .ok ((line.splitOn ',').map String.ofList)
  headerOfNone := true

/-- An inventory with two rows of one repository. -/
def sampleInventory : List Char :=
  "repo,metadata\ngithub.com/b/b,\ngithub.com/a/a,m\ngithub.com/A/A,m\n".toList

/-- The rows that are left. -/
def sampleLeft : List RepoFormat := [⟨"github.com/a/a", ["m"]⟩, ⟨"github.com/b/b", []⟩]

theorem iterate_sampleInventory : sampleTool.iterate sampleInventory =
    [.ok ⟨"github.com/b/b", []⟩, .ok ⟨"github.com/a/a", ["m"]⟩,
      .ok ⟨"github.com/A/A", ["m"]⟩] := by
  rw [AddTool.iterate_eq]
  decide +kernel

theorem getRepoURLs_sampleInventory :
    sampleTool.getRepoURLs (sampleTool.iterate sampleInventory) (fun n => .listed n) =
      .ok sampleLeft := by
  have hb : sampleTool.mapURL "github.com/b/b" = some "/github.com/b/b" := by decide +kernel
  have ha : sampleTool.mapURL "github.com/a/a" = some "/github.com/a/a" := by decide +kernel
  have hA : sampleTool.mapURL "github.com/A/A" = some "/github.com/a/a" := by decide +kernel
  simp only [iterate_sampleInventory, AddTool.getRepoURLs, AddTool.collect, hb, ha, hA, Except.map,
    GoMap.visit_listed]
  refine congrArg Except.ok ?_
  decide +kernel

theorem sortedByRepo_sampleLeft : sortedByRepo sampleLeft = sampleLeft := by
  refine sortedByRepo_of_pairwise ?_
  decide +kernel

theorem addProjects_sampleInventory :
    sampleTool.addProjects sampleInventory (fun n => .listed n) =
      .ok (encoding true sampleLeft) := by
  rw [AddTool.addProjects_eq, getRepoURLs_sampleInventory]
  exact congrArg (fun l => Except.ok (encoding true l)) sortedByRepo_sampleLeft

/-- The output of the tool for the inventory is left as it is. -/
theorem addProjects_stable_sampleInventory :
    sampleTool.addProjects (encoding true sampleLeft) (fun n => .listed n) =
      .ok (encoding true sampleLeft) := by
  obtain ⟨left, hleft, -, -, hstable⟩ :=
    (AddTool.addProjects_stable sampleTool sampleInventory).2 _ _ addProjects_sampleInventory
  obtain rfl := Except.ok.inj (getRepoURLs_sampleInventory.symm.trans hleft)
  refine hstable ?_ _
  rw [sortedByRepo_sampleLeft, AddTool.ReadsBack]
  decide +kernel

end ScorecardInfra.Cron
