import Mathlib.Data.List.Nodup
import ScorecardInfra.GoStd.Strings

/-!
# Parser diagnostics that reject a workflow

The workflow parser reports keys that it does not know. `unreviewedDiagnostics` lets such a
diagnostic through when the key was reviewed and the workflow's YAML sets it, at the diagnostic's
position, to the reviewed value; every other diagnostic is kept.

Both parsers are outside the repository. `WorkflowParser` takes what they return for a content as a
parameter, and `Diagnostic` and `YamlNode` have the fields that the package reads.

## Main definitions

* `Diagnostic`, `YamlNode`, `unreviewedDiagnostics`.
* `YamlNode.HasEntry`, `Reviewed`.

## Main results

* `valueAt_eq`: the search for a key finds the first entry of the tree that has it at the position.
* `unreviewedDiagnostics_exact`: the diagnostics that are kept are those that are not reviewed.

Source: `api/app/server/verify_diagnostics.go`.
-/

namespace ScorecardInfra.Server

open GoStd

/-- A diagnostic of the workflow parser, with the text that its method `Error` returns. -/
structure Diagnostic where
  message : String
  kind : String
  line : Int
  column : Int
  text : String
  deriving DecidableEq, Repr

/-- The kinds of YAML nodes. -/
inductive YamlKind : Type
  | documentNode | sequenceNode | mappingNode | scalarNode | aliasNode
  deriving DecidableEq, Repr

/-- A YAML node with its position. -/
inductive YamlNode : Type
  | mk (kind : YamlKind) (value : String) (line column : Int) (content : List YamlNode)

namespace YamlNode

/-- The field `Kind`. -/
def kind : YamlNode → YamlKind
  | mk kind _ _ _ _ => kind

/-- The field `Value`. -/
def value : YamlNode → String
  | mk _ value _ _ _ => value

/-- Whether a node is the key `key` at the position. -/
def isKeyAt (line column : Int) (key : String) : YamlNode → Bool
  | mk _ value l c _ => l == line && c == column && value == key

/-- The first loop of `valueAt`: the value after the first key node that is `key` at the
position. -/
def entryAt (line column : Int) (key : String) : List YamlNode → Option YamlNode
  | k :: v :: rest => cond (k.isKeyAt line column key) (some v) (entryAt line column key rest)
  | _ => none

mutual

/-- `valueAt`: the value of the mapping entry whose key node is `key` at the position.

Source: `api/app/server/verify_diagnostics.go`, lines 87–104. -/
def valueAt (line column : Int) (key : String) : YamlNode → Option YamlNode
  | mk kind _ _ _ content =>
    (if kind = .mappingNode then entryAt line column key content else none).orElse fun _ =>
      valueInContent line column key content

/-- The second loop of `valueAt`, over the children of a node. -/
def valueInContent (line column : Int) (key : String) : List YamlNode → Option YamlNode
  | [] => none
  | c :: rest => (valueAt line column key c).orElse fun _ => valueInContent line column key rest

end

end YamlNode

/-- A key that, set to `value`, can only take capability away. -/
structure ReviewedKey where
  key : String
  sectionName : String
  value : String
  deriving DecidableEq, Repr

/-- `reviewedKeys`. -/
def reviewedKeys : List ReviewedKey :=
  [⟨"cache-mode", "workflow", "none"⟩, ⟨"cache-mode", "job", "none"⟩]

/-- The submatches of `unexpectedKeyRE`, `^unexpected key "([^"]+)" for "([^"]+)" section`. -/
def unexpectedKey (message : String) : Option (String × String) := do
  let s ← Strings.cutPrefix message "unexpected key \""
  let (key, s) ← Strings.cut s '"'
  let s ← Strings.cutPrefix s " for \""
  let (sectionName, s) ← Strings.cut s '"'
  let _ ← Strings.cutPrefix s " section"
  if key = "" ∨ sectionName = "" then none else some (key, sectionName)

/-- `isReviewed`.

Source: `api/app/server/verify_diagnostics.go`, lines 67–85. -/
def isReviewed (root : YamlNode) (d : Diagnostic) : Bool :=
  d.kind == "syntax-check" &&
    match unexpectedKey d.message with
    | none => false
    | some (key, sectionName) =>
      match root.valueAt d.line d.column key with
      | none => false
      | some value => value.kind == .scalarNode &&
          reviewedKeys.contains ⟨key, sectionName, value.value⟩

/-- `unreviewedDiagnostics`: the diagnostics that still reject the workflow, given the parsed YAML
or `none` where it does not parse.

Source: `api/app/server/verify_diagnostics.go`, lines 50–65. -/
def unreviewedDiagnostics (root : Option YamlNode) (diags : List Diagnostic) : List Diagnostic :=
  match root with
  | none => diags
  | some root => diags.filter fun d => !isReviewed root d

/-! ### Which diagnostics are reviewed -/

namespace YamlNode

/-- The fields `Line` and `Column`. -/
def position : YamlNode → Int × Int
  | mk _ _ line column _ => (line, column)

/-- The keys and values of a mapping with these children. -/
def pairs : List YamlNode → List (YamlNode × YamlNode)
  | k :: v :: rest => (k, v) :: pairs rest
  | _ => []

mutual

/-- The mapping entries of a tree, at any depth: those of a mapping before those of its children. -/
def entries : YamlNode → List (YamlNode × YamlNode)
  | mk kind _ _ _ content =>
    (if kind = .mappingNode then pairs content else []) ++ entriesInContent content

/-- The mapping entries of the children of a node. -/
def entriesInContent : List YamlNode → List (YamlNode × YamlNode)
  | [] => []
  | c :: rest => entries c ++ entriesInContent rest

end

/-- `HasEntry n k v`: the tree of `n` contains a mapping, at any depth, with the key node `k` and
its value node `v`. -/
inductive HasEntry : YamlNode → YamlNode → YamlNode → Prop
  | own {value : String} {line column : Int} {content : List YamlNode} {k v : YamlNode}
      (h : (k, v) ∈ pairs content) : HasEntry (mk .mappingNode value line column content) k v
  | child {kind : YamlKind} {value : String} {line column : Int} {content : List YamlNode}
      {c k v : YamlNode} (hc : c ∈ content) (h : HasEntry c k v) :
      HasEntry (mk kind value line column content) k v

/-- No two key nodes of mappings share a position. -/
def KeysApart (n : YamlNode) : Prop := (n.entries.map fun e => e.1.position).Nodup

instance (n : YamlNode) : Decidable n.KeysApart := inferInstanceAs (Decidable (List.Nodup _))

theorem isKeyAt_iff {line column : Int} {key : String} {k : YamlNode} :
    k.isKeyAt line column key = true ↔ k.position = (line, column) ∧ k.value = key := by
  obtain ⟨_, _, _, _, _⟩ := k
  simp only [isKeyAt, position, value, Bool.and_eq_true, beq_iff_eq, Prod.mk.injEq]

mutual

theorem mem_entries {k v : YamlNode} : (n : YamlNode) → ((k, v) ∈ n.entries ↔ HasEntry n k v)
  | mk kind value line column content => by
    rw [entries, List.mem_append, mem_entriesInContent content]
    constructor
    · rintro (h | ⟨c, hc, h⟩)
      · split_ifs at h with hkind
        · rw [hkind]
          exact .own h
        · cases h
      · exact .child hc h
    · intro h
      cases h with
      | own h => exact Or.inl h
      | child hc h => exact Or.inr ⟨_, hc, h⟩

theorem mem_entriesInContent {k v : YamlNode} : (content : List YamlNode) →
    ((k, v) ∈ entriesInContent content ↔ ∃ c ∈ content, HasEntry c k v)
  | [] => by simp [entriesInContent]
  | c :: rest => by
    rw [entriesInContent, List.mem_append, mem_entries c, mem_entriesInContent rest,
      List.exists_mem_cons_iff]

end

theorem entryAt_eq (line column : Int) (key : String) : (content : List YamlNode) →
    entryAt line column key content =
      ((pairs content).find? fun e => e.1.isKeyAt line column key).map Prod.snd
  | [] => rfl
  | [_] => rfl
  | k :: v :: rest => by
    rw [entryAt, pairs, List.find?_cons, entryAt_eq line column key rest]
    cases k.isKeyAt line column key <;> rfl

mutual

/-- **The search** finds the first entry of the tree with the key at the position. -/
theorem valueAt_eq (line column : Int) (key : String) : (n : YamlNode) →
    n.valueAt line column key =
      (n.entries.find? fun e => e.1.isKeyAt line column key).map Prod.snd
  | mk kind value l c content => by
    rw [valueAt, entries, List.find?_append, valueInContent_eq line column key content]
    split_ifs
    · rw [entryAt_eq]
      cases (pairs content).find? _ <;> rfl
    · rfl

theorem valueInContent_eq (line column : Int) (key : String) : (content : List YamlNode) →
    valueInContent line column key content =
      ((entriesInContent content).find? fun e => e.1.isKeyAt line column key).map Prod.snd
  | [] => rfl
  | c :: rest => by
    rw [valueInContent, entriesInContent, List.find?_append, valueAt_eq line column key c,
      valueInContent_eq line column key rest]
    cases c.entries.find? _ <;> rfl

end

/-- **Precisely the entry.** Where key nodes have different positions, the search finds the value of
the only entry with the key at the position. -/
theorem valueAt_eq_some_iff {n : YamlNode} (h : n.KeysApart) {line column : Int} {key : String}
    {v : YamlNode} : n.valueAt line column key = some v ↔
      ∃ k, n.HasEntry k v ∧ k.position = (line, column) ∧ k.value = key := by
  rw [valueAt_eq, Option.map_eq_some_iff]
  constructor
  · rintro ⟨⟨k, _⟩, hfind, rfl⟩
    exact ⟨k, (mem_entries n).mp (List.mem_of_find?_eq_some hfind),
      isKeyAt_iff.mp (List.find?_some hfind :)⟩
  · rintro ⟨k, hentry, hkey⟩
    have hmem := (mem_entries n).mpr hentry
    have hsome : (n.entries.find? fun e => e.1.isKeyAt line column key).isSome = true :=
      List.find?_isSome.mpr ⟨_, hmem, isKeyAt_iff.mpr hkey⟩
    obtain ⟨e, he⟩ := Option.isSome_iff_exists.mp hsome
    have hpos : e.1.position = k.position :=
      (isKeyAt_iff.mp (List.find?_some he :)).1.trans hkey.1.symm
    have heq : e = (k, v) := List.inj_on_of_nodup_map h (List.mem_of_find?_eq_some he) hmem hpos
    exact ⟨e, he, congrArg Prod.snd heq⟩

end YamlNode

/-- The message says that `key` is unexpected in the section. -/
def IsUnexpectedKey (message key sectionName : String) : Prop :=
  ∃ rest,
    message = "unexpected key \"" ++ key ++ "\" for \"" ++ sectionName ++ "\" section" ++ rest ∧
    key ≠ "" ∧ '"' ∉ key.toList ∧ sectionName ≠ "" ∧ '"' ∉ sectionName.toList

theorem unexpectedKey_eq_some {message key sectionName : String} :
    unexpectedKey message = some (key, sectionName) ↔
      IsUnexpectedKey message key sectionName := by
  have hquote : String.singleton '"' = "\"" := rfl
  simp only [unexpectedKey, Option.bind_eq_bind, Option.bind_eq_some_iff, Prod.exists,
    Strings.cutPrefix_eq_some, Strings.cut_eq_some, hquote]
  constructor
  · rintro ⟨_, rfl, k, _, ⟨rfl, hk⟩, _, rfl, s, _, ⟨rfl, hs⟩, rest, rfl, h⟩
    split_ifs at h with hempty
    obtain ⟨rfl, rfl⟩ := Prod.mk.inj (Option.some.inj h)
    rw [not_or] at hempty
    refine ⟨rest, ?_, hempty.1, hk, hempty.2, hs⟩
    simp [← String.toList_inj]
  · rintro ⟨rest, rfl, hkey, hk, hsection, hs⟩
    refine ⟨_, ?_, key, _, ⟨rfl, hk⟩, _, rfl, sectionName, _, ⟨rfl, hs⟩, rest, rfl, ?_⟩
    · simp [← String.toList_inj]
    · rw [if_neg (not_or.mpr ⟨hkey, hsection⟩)]

/-- **A reviewed diagnostic** is a syntax check about an unexpected key that a mapping of the tree,
at any depth, has at the diagnostic's position, with a scalar for which the key is reviewed. -/
def Reviewed (root : YamlNode) (d : Diagnostic) : Prop :=
  d.kind = "syntax-check" ∧ ∃ key sectionName, IsUnexpectedKey d.message key sectionName ∧
    ∃ k v, root.HasEntry k v ∧ k.position = (d.line, d.column) ∧ k.value = key ∧
      v.kind = .scalarNode ∧ ⟨key, sectionName, v.value⟩ ∈ reviewedKeys

theorem isReviewed_iff {root : YamlNode} (h : root.KeysApart) (d : Diagnostic) :
    isReviewed root d = true ↔ Reviewed root d := by
  rw [isReviewed, Bool.and_eq_true, beq_iff_eq, Reviewed]
  refine and_congr_right fun _ => ?_
  simp only [← unexpectedKey_eq_some]
  constructor
  · intro hreviewed
    split at hreviewed
    · cases hreviewed
    · rename_i key sectionName hkey
      split at hreviewed
      · cases hreviewed
      · rename_i v hvalue
        rw [Bool.and_eq_true, beq_iff_eq, List.contains_iff_mem] at hreviewed
        obtain ⟨k, hentry, hpos, hk⟩ := (YamlNode.valueAt_eq_some_iff h).mp hvalue
        exact ⟨key, sectionName, hkey, k, v, hentry, hpos, hk, hreviewed⟩
  · rintro ⟨key, sectionName, hkey, k, v, hentry, hpos, hk, hscalar, hmem⟩
    have hvalue := (YamlNode.valueAt_eq_some_iff h).mpr ⟨k, hentry, hpos, hk⟩
    rw [hkey]
    dsimp only
    rw [hvalue, Bool.and_eq_true, beq_iff_eq, List.contains_iff_mem]
    exact ⟨hscalar, hmem⟩

open Classical in
/-- **Only reviewed diagnostics are dropped.** The diagnostics that still reject a workflow are
those that are not reviewed, in their order; all of them where the content is no YAML. -/
theorem unreviewedDiagnostics_exact (diags : List Diagnostic) :
    (∀ root : YamlNode, root.KeysApart →
      unreviewedDiagnostics (some root) diags = diags.filter (fun d => ¬Reviewed root d) ∧
        (unreviewedDiagnostics (some root) diags = [] ↔ ∀ d ∈ diags, Reviewed root d)) ∧
      unreviewedDiagnostics none diags = diags := by
  refine ⟨fun root h => ?_, rfl⟩
  have hfilter : unreviewedDiagnostics (some root) diags =
      diags.filter (fun d => ¬Reviewed root d) := by
    refine List.filter_congr fun d _ => ?_
    rw [← isReviewed_iff h]
    cases isReviewed root d <;> simp
  refine ⟨hfilter, ?_⟩
  rw [hfilter, List.filter_eq_nil_iff]
  simp

/-- A workflow with the key `cache-mode` in its second line. -/
def cacheModeTree : YamlNode :=
  .mk .documentNode "" 1 1 [.mk .mappingNode "" 1 1 [
    .mk .scalarNode "on" 1 1 [], .mk .scalarNode "push" 1 5 [],
    .mk .scalarNode "cache-mode" 2 1 [], .mk .scalarNode "none" 2 13 []]]

theorem keysApart_cacheModeTree : cacheModeTree.KeysApart := by decide

/-- The diagnostic for that key. -/
def cacheModeDiagnostic : Diagnostic where
  message := "unexpected key \"cache-mode\" for \"workflow\" section. expected one of \"env\", \"on\""
  kind := "syntax-check"
  line := 2
  column := 1
  text := ""

open Classical in
theorem unreviewedDiagnostics_exact_cacheMode :
    unreviewedDiagnostics (some cacheModeTree) [cacheModeDiagnostic] =
        [cacheModeDiagnostic].filter (fun d => ¬Reviewed cacheModeTree d) ∧
      (unreviewedDiagnostics (some cacheModeTree) [cacheModeDiagnostic] = [] ↔
        ∀ d ∈ [cacheModeDiagnostic], Reviewed cacheModeTree d) :=
  (unreviewedDiagnostics_exact [cacheModeDiagnostic]).1 cacheModeTree keysApart_cacheModeTree

end ScorecardInfra.Server
