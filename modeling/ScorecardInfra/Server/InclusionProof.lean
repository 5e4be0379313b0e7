import ScorecardInfra.Server.Publication

/-!
# The leaf of the inclusion proof

`verifyInclusionProof` takes the leaf from the identifier of the entry: the last 32 bytes that its
digits stand for. The identifier is the key of Rekor's response, or for a request without an index
the last one of the search index, and nothing compares it with the entry. So the proof is about the
body of the entry, by the leaf hash of RFC 6962, exactly if the identifier ends in the digits of
that hash (`leaf_of_entry_iff`).

## Main definitions

* `rfc6962LeafHash`, `NamesBody`, `CheckedLeaf`.

## Main results

* `leafHash_eq_iff`, `leaf_of_entry_iff`.

Source: `api/app/server/post_results.go`, lines 292–346 and 398–472.
-/

namespace ScorecardInfra.Server

open GoStd Interaction

/-! ### Leaves -/

/-- SHA-256 returns 32 bytes. -/
structure HashSize (sha256 : String → String) : Prop where
  length_eq : ∀ s, (sha256 s).toList.length = 32
  bytes : ∀ s, ∀ c ∈ (sha256 s).toList, c.toNat < 256

/-- The hash of a leaf in RFC 6962: that of its data after a zero byte. -/
def rfc6962LeafHash (L : Libraries) (data : String) : String :=
  L.sha256 (String.ofList ('\x00' :: data.toList))

/-- The identifier, in lower case, ends in the digits of the leaf hash of the body. -/
def NamesBody (L : Libraries) (uuid body : String) : Prop :=
  (Hex.encodeToString (rfc6962LeafHash L body)).toList <:+ (Strings.toLower uuid).toList

theorem length_flatMap_digits (b : List Char) : (b.flatMap Hex.digits).length = 2 * b.length := by
  induction b with
  | nil => rfl
  | cons c b ih =>
    rw [List.flatMap_cons, List.length_append, ih, List.length_cons]
    simp only [Hex.digits, List.length_cons, List.length_nil]
    omega

variable {L : Libraries}

/-- The leaf is the end of the identifier. -/
theorem leafHash_eq_ok {uuid leaf : String} (h : leafHash L uuid = .ok leaf) :
    leaf.toList.length = 32 ∧ (∀ c ∈ leaf.toList, c.toNat < 256) ∧
      leaf.toList.flatMap Hex.digits <:+ (Strings.toLower uuid).toList := by
  simp only [leafHash, except_bind_eq_ok, refuseIf_eq_ok, decide_eq_false_iff_not, Nat.not_lt] at h
  obtain ⟨b, hb, u, hsize, hleaf⟩ := h
  obtain rfl := Except.ok.inj hleaf
  have hdecode : Hex.decodeDigits uuid.toList = some b.toList := by
    unfold hexDecode at hb
    split at hb
    · cases hb
    · rename_i b' hb'
      obtain rfl := Except.ok.inj hb
      obtain ⟨l, hl, rfl⟩ := Option.map_eq_some_iff.mp hb'
      rw [hl, String.toList_ofList]
  obtain ⟨htext, hbytes⟩ := Hex.of_decodeDigits hdecode
  rw [String.toList_ofList]
  refine ⟨?_, fun c hc => hbytes c (List.mem_of_mem_drop hc), ?_⟩
  · rw [List.length_drop]
    omega
  · rw [Strings.toLower, String.toList_map, ← htext]
    refine ⟨(b.toList.take (b.toList.length - 32)).flatMap Hex.digits, ?_⟩
    rw [← List.flatMap_append, List.take_append_drop]

/-- **Leaves.** The leaf of an identifier is the leaf hash of a body exactly if the identifier names
the body. -/
theorem leafHash_eq_iff (hsha : HashSize L.sha256) {uuid leaf body : String}
    (h : leafHash L uuid = .ok leaf) :
    leaf = rfc6962LeafHash L body ↔ NamesBody L uuid body := by
  obtain ⟨hlength, hbytes, hsuffix⟩ := leafHash_eq_ok h
  rw [NamesBody, Hex.toList_encodeToString]
  constructor
  · rintro rfl
    exact hsuffix
  · intro hnames
    have hhash : (rfc6962LeafHash L body).toList.length = 32 := hsha.length_eq _
    have hbody : ∀ c ∈ (rfc6962LeafHash L body).toList, c.toNat < 256 := hsha.bytes _
    have hsame : (leaf.toList.flatMap Hex.digits).length =
        ((rfc6962LeafHash L body).toList.flatMap Hex.digits).length := by
      rw [length_flatMap_digits, length_flatMap_digits, hlength, hhash]
    have heq := (List.suffix_of_suffix_length_le hsuffix hnames hsame.le).eq_of_length hsame
    have hdecode := Hex.decodeDigits_flatMap hbytes
    rw [heq, Hex.decodeDigits_flatMap hbody] at hdecode
    exact String.toList_inj.mp (Option.some.inj hdecode).symm

/-! ### The leaf that is checked -/

/-- The leaf was passed to the Merkle verifier with the entry's proof, and was accepted. -/
def CheckedLeaf (L : Libraries) (entry : TlogEntry) (leaf : String) : Prop :=
  ∃ proof signature hashes rootHash, entry.proofSection = some (proof, signature) ∧
    L.verifyInclusion proof.logIndex proof.treeSize leaf hashes rootHash = .ok ()

theorem checkedLeaf_of_verifyInclusionProof {uuid : String} {entry : TlogEntry} {u : Unit}
    (h : verifyInclusionProof L uuid entry = .ok u) :
    ∃ leaf, leafHash L uuid = .ok leaf ∧ CheckedLeaf L entry leaf := by
  unfold verifyInclusionProof at h
  split at h
  · cases h
  rename_i proof signature hsection
  obtain ⟨_, hproof, -⟩ := except_bind_eq_ok.mp h
  simp only [verifyMerkleProof, except_bind_eq_ok] at hproof
  obtain ⟨rootHash, -, leaf, hleaf, hashes, -, hverify⟩ := hproof
  exact ⟨leaf, hleaf, proof, signature, hashes, rootHash, hsection, mapError_eq_ok.mp hverify⟩

/-- **The leaf of the inclusion proof.** For every payload, index and run that returns a
certificate: the entry that was found has a body, the leaf of its identifier was checked against its
proof, and that leaf is the leaf hash of the body if and only if the identifier names the body. -/
theorem leaf_of_entry_iff (hsha : HashSize L.sha256) (payload : String) (tlogIndex : Int)
    (t : Trace ApiSig) (cert : Certificate)
    (h : Exec (extractAndVerifyCertForPayload L payload tlogIndex).run t (some (.ok cert))) :
    ∃ uuid entry body leaf, Exec (findEntry L payload tlogIndex).run t (some (.ok (uuid, entry))) ∧
      L.base64Decode entry.body = .ok body ∧ leafHash L uuid = .ok leaf ∧ CheckedLeaf L entry leaf ∧
      (leaf = rfc6962LeafHash L body ↔ NamesBody L uuid body) := by
  obtain ⟨t₁, ⟨uuid, entry⟩, t₂, rfl, h₁, h₂⟩ := exec_run_bind_ok.mp h
  obtain ⟨rfl, hverify⟩ := exec_ofExcept_ok.mp h₂
  simp only [verifyEntry, except_bind_eq_ok, inContext_eq_ok, rekord_eq_ok] at hverify
  obtain ⟨record, ⟨body, hbody, -, -⟩, _, -, _, hproof, -⟩ := hverify
  obtain ⟨leaf, hleaf, hchecked⟩ := checkedLeaf_of_verifyInclusionProof hproof
  rw [List.append_nil]
  exact ⟨uuid, entry, body, leaf, h₁, hbody, hleaf, hchecked, leafHash_eq_iff hsha hleaf⟩

/-! ### An entry under the key of another one -/

/-- The leaf hash of the sample body. -/
def sampleLeaf : String := "37aa005c997ba20bc24a20bb086346bf24f0f2badf930d9f29ed2b32315d4484"

/-- The sample libraries, with SHA-256 also of the sample body as a leaf. -/
def leafLibraries : Libraries :=
  { sampleLibraries with
    sha256 := fun s => (Hex.decodeString (if s.toList.head? = some '\x00' then sampleLeaf
      else sampleHash)).getD "" }

/-- Rekor answers with the sample entry under a key that is the hash of the payload. -/
def misnamedTrace : Trace ApiSig :=
  ((extractAndVerifyCertForPayload leafLibraries sampleResult.result
    sampleResult.tlogIndex).run.runWith (fun _ o => some (sampleAnswer o)) []).1

theorem exec_misnamedTrace : Exec (extractAndVerifyCertForPayload leafLibraries sampleResult.result
    sampleResult.tlogIndex).run misnamedTrace (some (.ok sampleCert)) := by
  have hrun := exec_runWith (fun _ o => some (sampleAnswer o)) (extractAndVerifyCertForPayload
    leafLibraries sampleResult.result sampleResult.tlogIndex).run []
  have hok : ((extractAndVerifyCertForPayload leafLibraries sampleResult.result
      sampleResult.tlogIndex).run.runWith (fun _ o => some (sampleAnswer o)) []).2 =
        some (.ok sampleCert) := rfl
  rwa [hok] at hrun

theorem rfc6962LeafHash_leafLibraries (data : String) :
    rfc6962LeafHash leafLibraries data = (Hex.decodeString sampleLeaf).getD "" := by
  have hhead : (String.ofList ('\x00' :: data.toList)).toList.head? = some '\x00' := by
    rw [String.toList_ofList, List.head?_cons]
  simp only [rfc6962LeafHash, leafLibraries, if_pos hhead]

theorem hashSize_leafLibraries : HashSize leafLibraries.sha256 := by
  have hall : ∀ digits ∈ [sampleLeaf, sampleHash],
      ((Hex.decodeString digits).getD "").toList.length = 32 ∧
        ((Hex.decodeString digits).getD "").toList.all (fun c => decide (c.toNat < 256)) =
          true := by
    decide +kernel
  have hone : ∀ s, ∃ digits ∈ [sampleLeaf, sampleHash],
      leafLibraries.sha256 s = (Hex.decodeString digits).getD "" := by
    intro s
    by_cases hs : s.toList.head? = some '\x00'
    · exact ⟨sampleLeaf, by simp, congrArg (fun d => (Hex.decodeString d).getD "") (if_pos hs)⟩
    · exact ⟨sampleHash, by simp, congrArg (fun d => (Hex.decodeString d).getD "") (if_neg hs)⟩
  constructor
  · intro s
    obtain ⟨digits, hdigits, hs⟩ := hone s
    rw [hs]
    exact (hall digits hdigits).1
  · intro s
    obtain ⟨digits, hdigits, hs⟩ := hone s
    rw [hs]
    exact Strings.forall_mem_of_all (hall digits hdigits).2

/-- The leaf of that run is the leaf hash of the body if the key names the body. -/
theorem leaf_of_entry_iff_misnamed : ∃ uuid entry body leaf,
    Exec (findEntry leafLibraries sampleResult.result sampleResult.tlogIndex).run misnamedTrace
      (some (.ok (uuid, entry))) ∧
    leafLibraries.base64Decode entry.body = .ok body ∧ leafHash leafLibraries uuid = .ok leaf ∧
    CheckedLeaf leafLibraries entry leaf ∧
    (leaf = rfc6962LeafHash leafLibraries body ↔ NamesBody leafLibraries uuid body) :=
  leaf_of_entry_iff hashSize_leafLibraries sampleResult.result sampleResult.tlogIndex misnamedTrace
    sampleCert exec_misnamedTrace

/-- It does not, and the certificate is returned. -/
theorem exists_other_leaf : ∃ (L : Libraries) (payload : String) (tlogIndex : Int)
    (t : Trace ApiSig) (cert : Certificate) (uuid : String) (entry : TlogEntry)
    (body leaf : String),
    HashSize L.sha256 ∧
    Exec (extractAndVerifyCertForPayload L payload tlogIndex).run t (some (.ok cert)) ∧
    Exec (findEntry L payload tlogIndex).run t (some (.ok (uuid, entry))) ∧
    L.base64Decode entry.body = .ok body ∧ leafHash L uuid = .ok leaf ∧ CheckedLeaf L entry leaf ∧
    leaf ≠ rfc6962LeafHash L body := by
  have hfound : Exec (findEntry leafLibraries sampleResult.result sampleResult.tlogIndex).run
      misnamedTrace (some (.ok (sampleHash, sampleEntry))) := by
    have hrun := exec_runWith (fun _ o => some (sampleAnswer o)) (findEntry leafLibraries
      sampleResult.result sampleResult.tlogIndex).run []
    have htrace : ((findEntry leafLibraries sampleResult.result sampleResult.tlogIndex).run.runWith
        (fun _ o => some (sampleAnswer o)) []).1 = misnamedTrace := rfl
    have hok : ((findEntry leafLibraries sampleResult.result sampleResult.tlogIndex).run.runWith
        (fun _ o => some (sampleAnswer o)) []).2 = some (.ok (sampleHash, sampleEntry)) := rfl
    rwa [htrace, hok] at hrun
  have hleaf : leafHash leafLibraries sampleHash = .ok ((Hex.decodeString sampleHash).getD "") := by
    decide +kernel
  have hother : (Hex.decodeString sampleHash).getD "" ≠
      rfc6962LeafHash leafLibraries sampleBody := by
    rw [rfc6962LeafHash_leafLibraries]
    decide +kernel
  exact ⟨leafLibraries, sampleResult.result, sampleResult.tlogIndex, misnamedTrace, sampleCert,
    sampleHash, sampleEntry, sampleBody, _, hashSize_leafLibraries, exec_misnamedTrace, hfound, rfl,
    hleaf, ⟨⟨[], sampleHash, 1, 0⟩, "signature", [], sampleHash, rfl, rfl⟩, hother⟩

end ScorecardInfra.Server
