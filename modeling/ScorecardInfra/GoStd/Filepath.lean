import ScorecardInfra.GoStd.Strings
import Mathlib.Data.List.TakeWhile

/-!
# Slash-separated paths

The lexical functions of `path/filepath` on Linux: `clean`, `join`, `isLocal` and `globMatch`. A
path is read as the list of its segments, the pieces between slashes (`segments`, `ofSegments`).

`clean` drops empty segments and `.`, lets `..` cancel the segment before it, and drops `..` at the
root of an absolute path. What it leaves is a number of `..`, none for an absolute path, followed
by proper names (`cleanSegments_form`); `clean` changes nothing in a path of that shape
(`clean_eq_self`, `clean_clean`).

The patterns of `globMatch` use no special character but `*`, which matches any run of characters
other than a slash; a pattern of `n` starred directories and a literal file name matches the paths
of `n + 1` segments that end in that name (`globMatch_starDirs`).

## Main definitions

* `Filepath.segments`, `Filepath.ofSegments`, `Filepath.IsName`, `Filepath.cleanSegments`.
* `Filepath.clean`, `Filepath.join`, `Filepath.isLocal`, `Filepath.globMatch`.

## Main results

* `cleanSegments_form`, `segments_clean_of_isAbs`, `segments_clean_of_not_isAbs`, `clean_clean`,
  `clean_eq_self`.
* `globMatch_starDirs`, `segments_filter`.
-/

namespace ScorecardInfra.GoStd.Filepath

/-- A piece of a path between slashes. -/
abbrev Segment : Type := List Char

/-- The segment `.`. -/
def dot : Segment := ['.']

/-- The segment `..`. -/
def dotdot : Segment := ['.', '.']

/-- The segments of a path. -/
def segments (p : String) : List Segment := p.toList.splitOn '/'

/-- The path with the given segments. -/
def ofSegments (segs : List Segment) : String := String.ofList (['/'].intercalate segs)

/-- A segment that names something: not empty, not `.` or `..`, and without a slash. -/
structure IsName (seg : Segment) : Prop where
  ne_nil : seg ≠ []
  ne_dot : seg ≠ dot
  ne_dotdot : seg ≠ dotdot
  slash_notMem : '/' ∉ seg

/-! ### Segments -/

@[simp] theorem toList_ofSegments (segs : List Segment) :
    (ofSegments segs).toList = ['/'].intercalate segs := String.toList_ofList

theorem ofSegments_segments (p : String) : ofSegments (segments p) = p := by
  rw [ofSegments, segments, List.intercalate_splitOn, String.ofList_toList]

theorem segments_ne_nil (p : String) : segments p ≠ [] := List.splitOn_ne_nil _ _

theorem segments_ofSegments {segs : List Segment} (h : ∀ seg ∈ segs, '/' ∉ seg)
    (hne : segs ≠ []) : segments (ofSegments segs) = segs := by
  rw [segments, toList_ofSegments, List.splitOn_intercalate '/' h hne]

theorem slash_notMem_of_mem_segments {p : String} {seg : Segment} (h : seg ∈ segments p) :
    '/' ∉ seg := notMem_of_mem_splitOn h

/-- Dropping characters other than the slash drops them in every segment. -/
theorem segments_filter (q : Char → Bool) (hq : q '/' = true) (p : String) :
    segments (String.ofList (p.toList.filter q)) = (segments p).map (List.filter q) := by
  rw [segments, segments, String.toList_ofList]
  generalize p.toList = l
  induction l with
  | nil => simp
  | cons c l ih =>
    obtain ⟨s, segs, hs⟩ := List.exists_cons_of_ne_nil (List.splitOn_ne_nil '/' l)
    rw [hs] at ih
    by_cases hc : c = '/'
    · subst hc
      simp [hq, List.splitOn_cons_eq_if_modifyHead, hs, ih]
    · by_cases hcq : q c = true <;>
        simp [hcq, List.splitOn_cons_eq_if_modifyHead, hc, hs, ih]

/-! ### Clean -/

/-- `..` cancels the segment before it, is kept after other `..`, and is dropped at the root. -/
def pushDotdot (rooted : Bool) : List Segment → List Segment
  | [] => cond rooted [] [dotdot]
  | top :: rest => if top = dotdot then dotdot :: top :: rest else rest

/-- One step of `clean` on the segments kept so far, the last one first. -/
def pushSegment (rooted : Bool) (out : List Segment) (seg : Segment) : List Segment :=
  if seg = [] ∨ seg = dot then out
  else if seg = dotdot then pushDotdot rooted out
  else seg :: out

/-- The segments that `clean` keeps, in order. -/
def cleanSegments (rooted : Bool) (segs : List Segment) : List Segment :=
  (segs.foldl (pushSegment rooted) []).reverse

/-- `filepath.IsAbs`. -/
def isAbs (p : String) : Bool := p.toList.head? == some '/'

/-- `filepath.Clean`: the shortest path lexically equal to `p`. -/
def clean (p : String) : String :=
  let out := cleanSegments (isAbs p) (segments p)
  if isAbs p then ofSegments ([] :: cond out.isEmpty [[]] out)
  else if out = [] then "." else ofSegments out

/-- `filepath.Join`: the elements from the first non-empty one on, joined by slashes, cleaned. -/
def join (elems : List String) : String :=
  match elems.dropWhile (· == "") with
  | [] => ""
  | es => clean (ofSegments (es.map String.toList))

/-- `filepath.IsLocal`: relative, not empty, and not leading out of the current directory. -/
def isLocal (p : String) : Bool :=
  !isAbs p && p != "" && clean p != ".." && !Strings.hasPrefix (clean p) "../"

theorem pushSegment_of_isName {rooted : Bool} {out : List Segment} {seg : Segment}
    (h : IsName seg) : pushSegment rooted out seg = seg :: out := by
  rw [pushSegment, if_neg (by simp [h.ne_nil, h.ne_dot]), if_neg h.ne_dotdot]

private theorem pushSegment_form {rooted : Bool} {out : List Segment} {seg : Segment}
    (hseg : '/' ∉ seg)
    (h : ∃ k names, out = names ++ List.replicate k dotdot ∧ (∀ n ∈ names, IsName n) ∧
      (rooted = true → k = 0)) :
    ∃ k names, pushSegment rooted out seg = names ++ List.replicate k dotdot ∧
      (∀ n ∈ names, IsName n) ∧ (rooted = true → k = 0) := by
  obtain ⟨k, names, rfl, hn, hk⟩ := h
  by_cases h₁ : seg = [] ∨ seg = dot
  · exact ⟨k, names, by rw [pushSegment, if_pos h₁], hn, hk⟩
  obtain ⟨hnil, hdot⟩ := not_or.mp h₁
  by_cases h₂ : seg = dotdot
  · rw [pushSegment, if_neg h₁, if_pos h₂]
    cases names with
    | cons n names =>
      refine ⟨k, names, ?_, fun m hm => hn m (List.mem_cons_of_mem _ hm), hk⟩
      simp [pushDotdot, (hn n List.mem_cons_self).ne_dotdot]
    | nil =>
      cases rooted with
      | true => exact ⟨0, [], by simp [pushDotdot, hk rfl], by simp, fun _ => rfl⟩
      | false =>
        refine ⟨k + 1, [], ?_, by simp, by simp⟩
        cases k <;> simp [pushDotdot, List.replicate_succ]
  · refine ⟨k, seg :: names, ?_, ?_, hk⟩
    · rw [pushSegment, if_neg h₁, if_neg h₂, List.cons_append]
    · rintro n hm
      rcases List.mem_cons.mp hm with rfl | hm
      exacts [⟨hnil, hdot, h₂, hseg⟩, hn n hm]

/-- **The shape of a cleaned path.** A number of `..`, none in an absolute path, and then names. -/
theorem cleanSegments_form (rooted : Bool) {segs : List Segment} (h : ∀ seg ∈ segs, '/' ∉ seg) :
    ∃ k names, cleanSegments rooted segs = List.replicate k dotdot ++ names ∧
      (∀ n ∈ names, IsName n) ∧ (rooted = true → k = 0) := by
  have hfold : ∃ k names, segs.foldl (pushSegment rooted) [] = names ++ List.replicate k dotdot ∧
      (∀ n ∈ names, IsName n) ∧ (rooted = true → k = 0) := by
    refine List.foldlRecOn segs (pushSegment rooted)
      (motive := fun out => ∃ k names, out = names ++ List.replicate k dotdot ∧
        (∀ n ∈ names, IsName n) ∧ (rooted = true → k = 0)) ⟨0, [], by simp⟩ ?_
    exact fun out hout seg hseg => pushSegment_form (h seg hseg) hout
  obtain ⟨k, names, hout, hn, hk⟩ := hfold
  refine ⟨k, names.reverse, ?_, fun n hm => hn n (List.mem_reverse.mp hm), hk⟩
  rw [cleanSegments, hout, List.reverse_append, List.reverse_replicate]

theorem slash_notMem_of_mem_cleanSegments (rooted : Bool) {segs : List Segment}
    (h : ∀ seg ∈ segs, '/' ∉ seg) : ∀ seg ∈ cleanSegments rooted segs, '/' ∉ seg := by
  obtain ⟨k, names, hout, hn, -⟩ := cleanSegments_form rooted h
  rw [hout]
  intro seg hseg
  rcases List.mem_append.mp hseg with hseg | hseg
  · rw [List.eq_of_mem_replicate hseg]
    decide
  · exact (hn seg hseg).slash_notMem

private theorem foldl_pushSegment_names (rooted : Bool) :
    (names out : List Segment) → (∀ n ∈ names, IsName n) →
      names.foldl (pushSegment rooted) out = names.reverse ++ out
  | [], _, _ => rfl
  | n :: names, out, h => by
      rw [List.foldl_cons, pushSegment_of_isName (h n List.mem_cons_self),
        foldl_pushSegment_names rooted names _ fun m hm => h m (List.mem_cons_of_mem _ hm)]
      simp

/-- Names survive cleaning. -/
theorem cleanSegments_of_isName (rooted : Bool) {segs : List Segment} (h : ∀ n ∈ segs, IsName n) :
    cleanSegments rooted segs = segs := by
  rw [cleanSegments, foldl_pushSegment_names rooted segs [] h, List.append_nil,
    List.reverse_reverse]

/-- A name at the end stays there. -/
theorem cleanSegments_snoc (rooted : Bool) (segs : List Segment) {seg : Segment} (h : IsName seg) :
    cleanSegments rooted (segs ++ [seg]) = cleanSegments rooted segs ++ [seg] := by
  rw [cleanSegments, List.foldl_append, List.foldl_cons, List.foldl_nil, pushSegment_of_isName h,
    List.reverse_cons, cleanSegments]

private theorem mem_foldl_pushSegment {rooted : Bool} {seg : Segment} :
    (segs out : List Segment) → seg ∈ segs.foldl (pushSegment rooted) out → seg ∈ segs ∨ seg ∈ out
  | [], _, h => Or.inr h
  | s :: segs, out, h => by
    rcases mem_foldl_pushSegment segs _ h with h | h
    · exact Or.inl (List.mem_cons_of_mem _ h)
    · unfold pushSegment at h
      split_ifs at h with h₁ h₂
      · exact Or.inr h
      · rw [h₂, List.mem_cons]
        cases out with
        | nil =>
          cases rooted with
          | true => exact absurd h List.not_mem_nil
          | false => exact Or.inl (Or.inl (List.mem_singleton.mp h))
        | cons top rest =>
          rw [pushDotdot] at h
          split_ifs at h
          · rcases List.mem_cons.mp h with h | h
            exacts [Or.inl (Or.inl h), Or.inr h]
          · exact Or.inr (List.mem_cons_of_mem _ h)
      · rcases List.mem_cons.mp h with h | h
        exacts [Or.inl (h ▸ List.mem_cons_self), Or.inr h]

/-- Cleaning adds no segment. -/
theorem mem_of_mem_cleanSegments {rooted : Bool} {segs : List Segment} {seg : Segment}
    (h : seg ∈ cleanSegments rooted segs) : seg ∈ segs :=
  (mem_foldl_pushSegment segs [] (List.mem_reverse.mp h)).resolve_right List.not_mem_nil

theorem isAbs_iff {p : String} : isAbs p = true ↔ ∃ segs, segs ≠ [] ∧ segments p = [] :: segs := by
  rw [isAbs, segments]
  cases h : p.toList with
  | nil => simp
  | cons c l =>
    obtain ⟨s, segs, hs⟩ := List.exists_cons_of_ne_nil (List.splitOn_ne_nil '/' l)
    rw [List.splitOn_cons_eq_if_modifyHead, hs]
    by_cases hc : c = '/' <;> simp [hc]

theorem segments_clean_of_not_isAbs {p : String} (hp : isAbs p = false)
    (hne : cleanSegments false (segments p) ≠ []) :
    segments (clean p) = cleanSegments false (segments p) := by
  have hs := slash_notMem_of_mem_cleanSegments false
    fun seg (h : seg ∈ segments p) => slash_notMem_of_mem_segments h
  simp only [clean, hp, Bool.false_eq_true, if_false, if_neg hne]
  exact segments_ofSegments hs hne

theorem segments_clean_of_isAbs {p : String} (hp : isAbs p = true) :
    ∃ segs, segs ≠ [] ∧ segments (clean p) = [] :: segs := by
  have hs := slash_notMem_of_mem_cleanSegments true
    fun seg (h : seg ∈ segments p) => slash_notMem_of_mem_segments h
  simp only [clean, hp, if_true]
  cases hout : cleanSegments true (segments p) with
  | nil => exact ⟨[[]], by simp, rfl⟩
  | cons s segs =>
    refine ⟨s :: segs, by simp, segments_ofSegments ?_ (by simp)⟩
    rw [hout] at hs
    intro seg hseg
    rcases List.mem_cons.mp hseg with rfl | hseg
    exacts [List.not_mem_nil, hs seg hseg]

private theorem foldl_pushSegment_dotdot (k : ℕ) (out : List Segment) (h : ∀ o ∈ out, o = dotdot) :
    (List.replicate k dotdot).foldl (pushSegment false) out = List.replicate k dotdot ++ out := by
  induction k generalizing out with
  | zero => rfl
  | succ k ih =>
    have hpush : pushSegment false out dotdot = dotdot :: out := by
      cases out with
      | nil => rfl
      | cons o out =>
        obtain rfl := h o List.mem_cons_self
        rfl
    have happ : List.replicate (k + 1) dotdot ++ out =
        List.replicate k dotdot ++ dotdot :: out := by
      rw [List.replicate_succ', List.append_assoc, List.singleton_append]
    rw [happ, List.replicate_succ, List.foldl_cons, hpush, ih _ (by simpa using h)]

/-- Segments that `clean` leaves are left alone by it. -/
theorem cleanSegments_cleanSegments (rooted : Bool) {segs : List Segment}
    (h : ∀ seg ∈ segs, '/' ∉ seg) :
    cleanSegments rooted (cleanSegments rooted segs) = cleanSegments rooted segs := by
  obtain ⟨k, names, hout, hn, hk⟩ := cleanSegments_form rooted h
  rw [hout]
  cases rooted with
  | true =>
    rw [hk rfl, List.replicate_zero, List.nil_append, cleanSegments_of_isName true hn]
  | false =>
    rw [cleanSegments, List.foldl_append, foldl_pushSegment_dotdot k [] (by simp), List.append_nil,
      foldl_pushSegment_names false names _ hn, List.reverse_append, List.reverse_replicate,
      List.reverse_reverse]

/-- `clean` is idempotent. -/
theorem clean_clean (p : String) : clean (clean p) = clean p := by
  have hs := fun seg (h : seg ∈ segments p) => slash_notMem_of_mem_segments h
  cases hp : isAbs p with
  | true =>
    obtain ⟨segs, hne, hsegs⟩ := segments_clean_of_isAbs hp
    have habs : isAbs (clean p) = true := isAbs_iff.mpr ⟨segs, hne, hsegs⟩
    have hnil : cleanSegments true (segments (clean p)) = cleanSegments true (segments p) := by
      conv_rhs => rw [← cleanSegments_cleanSegments true hs]
      have hout : clean p = ofSegments ([] :: cond (cleanSegments true (segments p)).isEmpty [[]]
          (cleanSegments true (segments p))) := by rw [clean]; simp only [hp, if_true]
      rw [hout]
      cases h : cleanSegments true (segments p) with
      | nil => rfl
      | cons s l =>
        rw [segments_ofSegments _ (by simp)]
        · rfl
        · have := slash_notMem_of_mem_cleanSegments true hs
          simpa [h] using this
    rw [clean, habs, hnil]
    simp only [if_true]
    rw [clean, hp]
    simp only [if_true]
  | false =>
    by_cases hne : cleanSegments false (segments p) = []
    · have hdot : clean p = "." := by simp [clean, hp, hne]
      rw [hdot]
      decide
    · have hsegs := segments_clean_of_not_isAbs hp hne
      have habs : isAbs (clean p) = false := by
        rw [← Bool.not_eq_true, isAbs_iff, hsegs]
        rintro ⟨segs, -, h⟩
        obtain ⟨k, names, hout, hn, -⟩ := cleanSegments_form false hs
        have hmem : [] ∈ List.replicate k dotdot ++ names := by simp [← hout, h]
        rcases List.mem_append.mp hmem with hmem | hmem
        · exact absurd (List.eq_of_mem_replicate hmem) (by decide)
        · exact (hn [] hmem).ne_nil rfl
      conv_lhs => rw [clean]
      simp only [habs, hsegs, cleanSegments_cleanSegments false hs, if_neg hne, Bool.false_eq_true,
        if_false]
      simp only [clean, hp, if_neg hne, Bool.false_eq_true, if_false]

/-- A path of names is clean. -/
theorem clean_eq_self {p : String} (h : ∀ seg ∈ segments p, IsName seg) : clean p = p := by
  have hp : isAbs p = false := by
    rw [← Bool.not_eq_true, isAbs_iff]
    rintro ⟨segs, -, hs⟩
    exact (h [] (by simp [hs])).ne_nil rfl
  simp only [clean, hp, Bool.false_eq_true, if_false, cleanSegments_of_isName false h,
    if_neg (segments_ne_nil p), ofSegments_segments]

/-- A slash and names survive cleaning. -/
theorem clean_eq_self_of_isAbs {p : String} {names : List Segment} (hp : segments p = [] :: names)
    (hne : names ≠ []) (h : ∀ seg ∈ names, IsName seg) : clean p = p := by
  have habs : isAbs p = true := isAbs_iff.mpr ⟨names, hne, hp⟩
  have hclean : cleanSegments true (segments p) = names := by
    rw [hp]
    calc cleanSegments true ([] :: names) = cleanSegments true names := rfl
      _ = names := cleanSegments_of_isName true h
  have hcond : cond names.isEmpty [[]] names = names := by
    rw [List.isEmpty_eq_false_iff.mpr hne]
    rfl
  rw [clean, habs]
  simp only [if_true]
  rw [hclean, hcond, ← hp, ofSegments_segments]

/-- A path whose first segment is not empty is clean if its segments are. -/
theorem clean_eq_self_iff {p : String} (habs : isAbs p = false) (hne : p ≠ ".") :
    clean p = p ↔ cleanSegments false (segments p) = segments p := by
  have hslash := fun seg (h : seg ∈ segments p) => slash_notMem_of_mem_segments h
  constructor
  · intro h
    by_cases hnil : cleanSegments false (segments p) = []
    · simp only [clean, habs, hnil, Bool.false_eq_true, if_false, if_true] at h
      exact absurd h.symm hne
    · rw [← segments_clean_of_not_isAbs habs hnil, h]
  · intro h
    simp only [clean, habs, Bool.false_eq_true, if_false, h, if_neg (segments_ne_nil p),
      ofSegments_segments]

/-- Joined paths are clean. -/
theorem clean_join {elems : List String} {e : String} (he : e ∈ elems) (hne : e ≠ "") :
    clean (join elems) = join elems := by
  rw [join]
  split
  · rename_i h
    rw [List.dropWhile_eq_nil_iff] at h
    exact absurd (beq_iff_eq.mp (h e he)) hne
  · exact clean_clean _

/-- Elements that are not empty are joined with slashes. -/
theorem join_eq_clean {elems : List String} (hne : elems ≠ []) (h : ∀ e ∈ elems, e ≠ "") :
    join elems = clean (ofSegments (elems.map String.toList)) := by
  obtain ⟨e, es, rfl⟩ := List.exists_cons_of_ne_nil hne
  rw [join, List.dropWhile_cons_of_neg (by simpa using h e List.mem_cons_self)]

/-! ### Glob patterns -/

/-- `*` in a pattern: skip characters other than the slash, then match the rest. -/
def globStar (rest : List Char → Bool) : List Char → Bool
  | [] => rest []
  | c :: s => rest (c :: s) || (c != '/' && globStar rest s)

/-- A literal character in a pattern: take it off, then match the rest. -/
def globChar (c : Char) (rest : List Char → Bool) : List Char → Bool
  | [] => false
  | c' :: s => c' == c && rest s

/-- `filepath.Match` for patterns whose only special character is `*`. -/
def globMatch : List Char → List Char → Bool
  | [], s => s.isEmpty
  | c :: p, s => if c = '*' then globStar (globMatch p) s else globChar c (globMatch p) s

theorem globStar_iff {rest : List Char → Bool} {s : List Char} :
    globStar rest s = true ↔ ∃ a b, s = a ++ b ∧ '/' ∉ a ∧ rest b = true := by
  constructor
  · intro h
    induction s with
    | nil => exact ⟨[], [], rfl, List.not_mem_nil, h⟩
    | cons c s ih =>
      rcases Bool.or_eq_true_iff.mp h with h | h
      · exact ⟨[], c :: s, rfl, List.not_mem_nil, h⟩
      · obtain ⟨hc, h⟩ := Bool.and_eq_true_iff.mp h
        obtain ⟨a, b, rfl, ha, hb⟩ := ih h
        refine ⟨c :: a, b, rfl, ?_, hb⟩
        rw [List.mem_cons, not_or]
        exact ⟨fun h => by simp [← h] at hc, ha⟩
  · rintro ⟨a, b, rfl, ha, hb⟩
    induction a with
    | nil => cases b <;> simp_all [globStar]
    | cons c a ih =>
      rw [List.mem_cons, not_or] at ha
      simp [globStar, ih ha.2, Ne.symm ha.1]

/-- A pattern without `*` matches itself only. -/
theorem globMatch_literal {p : List Char} (hp : '*' ∉ p) {s : List Char} :
    globMatch p s = true ↔ s = p := by
  induction p generalizing s with
  | nil => simp [globMatch]
  | cons c p ih =>
    rw [List.mem_cons, not_or] at hp
    rw [globMatch, if_neg (Ne.symm hp.1)]
    cases s with
    | nil => simp [globChar]
    | cons c' s => simp [globChar, ih hp.2]

theorem globMatch_star_slash {p s : List Char} : globMatch ('*' :: '/' :: p) s = true ↔
    ∃ a b, s = a ++ '/' :: b ∧ '/' ∉ a ∧ globMatch p b = true := by
  rw [globMatch, if_pos rfl, globStar_iff]
  constructor
  · rintro ⟨a, b, rfl, ha, hb⟩
    rw [globMatch, if_neg (by decide)] at hb
    cases b with
    | nil => simp [globChar] at hb
    | cons c b =>
      obtain ⟨hc, hb⟩ := Bool.and_eq_true_iff.mp hb
      obtain rfl := beq_iff_eq.mp hc
      exact ⟨a, b, rfl, ha, hb⟩
  · rintro ⟨a, b, rfl, ha, hb⟩
    exact ⟨a, '/' :: b, rfl, ha, by simp [globMatch, globChar, hb]⟩

/-- The pattern of `n` starred directories followed by `file`. -/
def starDirs (file : List Char) : Nat → List Char
  | 0 => file
  | n + 1 => '*' :: '/' :: starDirs file n

/-- **Starred directories.** The pattern `*/…/*/file` with `n` stars matches the paths of `n + 1`
segments, empty ones included, whose last segment is `file`. -/
theorem globMatch_starDirs {file : Segment} (hstar : '*' ∉ file) (hslash : '/' ∉ file) (n : Nat)
    (p : String) : globMatch (starDirs file n) p.toList = true ↔
      ∃ segs, segs.length = n ∧ segments p = segs ++ [file] := by
  rw [segments]
  generalize p.toList = l
  induction n generalizing l with
  | zero =>
    rw [starDirs, globMatch_literal hstar]
    constructor
    · rintro rfl
      exact ⟨[], rfl, List.splitOn_eq_singleton hslash⟩
    · rintro ⟨segs, hlen, hs⟩
      obtain rfl := List.length_eq_zero_iff.mp hlen
      have hl : ['/'].intercalate (l.splitOn '/') = l := List.intercalate_splitOn '/'
      rw [← hl, hs]
      simp
  | succ n ih =>
    rw [starDirs, globMatch_star_slash]
    constructor
    · rintro ⟨a, b, rfl, ha, hb⟩
      obtain ⟨segs, hlen, hs⟩ := (ih b).mp hb
      refine ⟨a :: segs, by simp [hlen], ?_⟩
      rw [List.splitOn_append_cons_self_of_not_mem ha, hs, List.cons_append]
    · rintro ⟨segs, hlen, hs⟩
      obtain ⟨a, segs, rfl⟩ := List.exists_cons_of_length_eq_add_one hlen
      have hb : ['/'].intercalate (l.splitOn '/') = l := List.intercalate_splitOn '/'
      rw [hs, List.cons_append, List.intercalate_cons_of_ne_nil (by simp)] at hb
      have ha : '/' ∉ a := notMem_of_mem_splitOn (s := l) (by simp [hs])
      refine ⟨a, ['/'].intercalate (segs ++ [file]), by simpa using hb.symm, ha, ?_⟩
      refine (ih _).mpr ⟨segs, by simpa using hlen, ?_⟩
      refine List.splitOn_intercalate '/' (fun seg hseg => ?_) (by simp)
      exact notMem_of_mem_splitOn (s := l)
        (by rw [hs, List.cons_append]; exact List.mem_cons_of_mem _ hseg)

end ScorecardInfra.GoStd.Filepath
