import Mathlib.Algebra.GroupWithZero.Nat
import Mathlib.Data.List.TakeDrop
import Mathlib.Tactic.Common

/-!
# Buffered output

`bufio.Writer` collects what is written and hands it on when its buffer is full. Its first error is
kept, every later call returns it, and what the buffer still holds is handed on by `Flush`.

The writer below accepts some number of bytes and then fails. What a buffer hands on before it is
flushed depends only on the lengths of what was written (`kept`, `handedOn`): a buffer that has not
handed on more than the writer accepts has met no error.

## Main definitions

* `Sink`, `Sink.write`, `Writer`, `Writer.flush`, `Writer.writeByte`, `Writer.writeString`.
* `Call`, `Writer.calls`, `keptAfter`, `kept`, `handedOn`.

## Main results

* `Holds.writeString`, `Holds.calls`: what is accepted, and when an error is met.
* `handedOn_eq`: full buffers are handed on, unless a long text bypasses the buffer.
-/

namespace ScorecardInfra.GoStd.Bufio

variable {ε α : Type}

/-! ### The writer below -/

/-- A writer that accepts `capacity` bytes and then fails with `fault`, or that never fails;
`stringWriter` tells whether it implements `io.StringWriter`. -/
structure Sink (ε α : Type) where
  capacity : Option Nat
  stringWriter : Bool
  fault : ε
  accepted : List α

namespace Sink

/-- A writer that has accepted nothing. -/
def new (capacity : Option Nat) (stringWriter : Bool) (fault : ε) : Sink ε α :=
  ⟨capacity, stringWriter, fault, []⟩

/-- There is room for `n` bytes. -/
def hasRoom (w : Sink ε α) (n : Nat) : Bool := w.capacity.all fun capacity => n ≤ capacity

/-- The bytes for which there is room. -/
def cut (w : Sink ε α) (s : List α) : List α := w.capacity.elim s fun capacity => s.take capacity

/-- `Write` and `WriteString`: the bytes as far as there is room for them, and the error. -/
def write (w : Sink ε α) (p : List α) : Option ε × Sink ε α :=
  (if w.hasRoom (w.accepted.length + p.length) then none else some w.fault,
    { w with accepted := w.cut (w.accepted ++ p) })

variable {w : Sink ε α} {s t : List α}

@[simp] theorem hasRoom_new_some {n m : Nat} {stringWriter : Bool} {fault : ε} :
    (new (some n) stringWriter fault : Sink ε α).hasRoom m = decide (m ≤ n) := rfl

theorem hasRoom_of_le {m n : Nat} (h : w.hasRoom n = true) (hle : m ≤ n) :
    w.hasRoom m = true := by
  cases hcapacity : w.capacity with
  | none => simp [hasRoom, hcapacity]
  | some capacity =>
    simp only [hasRoom, hcapacity, Option.all_some, decide_eq_true_eq] at h ⊢
    exact Nat.le_trans hle h

/-- The bytes are all accepted if there is room for them. -/
theorem cut_eq_self_iff : w.cut s = s ↔ w.hasRoom s.length = true := by
  cases hcapacity : w.capacity with
  | none => simp [cut, hasRoom, hcapacity]
  | some capacity => simp [cut, hasRoom, hcapacity]

theorem cut_append (h : w.hasRoom s.length = false) : w.cut (s ++ t) = w.cut s := by
  cases hcapacity : w.capacity with
  | none => simp [hasRoom, hcapacity] at h
  | some capacity =>
    simp only [hasRoom, hcapacity, Option.all_some, decide_eq_false_iff_not, Nat.not_le] at h
    simp [cut, hcapacity, List.take_append_of_le_length (Nat.le_of_lt h)]

/-- There is room for the bytes. -/
theorem write_of_hasRoom (h : w.hasRoom (s ++ t).length = true) (hw : w.accepted = s) :
    w.write t = (none, { w with accepted := s ++ t }) := by
  rw [write, hw, cut_eq_self_iff.mpr h, ← List.length_append, h, if_pos rfl]

/-- There is no room for all of the bytes. -/
theorem write_of_not_hasRoom (h : w.hasRoom (s ++ t).length = false) (hw : w.accepted = s) :
    w.write t = (some w.fault, { w with accepted := w.cut (s ++ t) }) := by
  rw [write, hw, ← List.length_append, h, if_neg Bool.false_ne_true]

end Sink

/-! ### The buffer -/

/-- `bufio.Writer`: what the buffer holds, and the error that is kept. -/
structure Writer (ε α : Type) where
  sink : Sink ε α
  pending : List α
  err : Option ε

namespace Writer

/-- `NewWriter`. -/
def new (sink : Sink ε α) : Writer ε α := ⟨sink, [], none⟩

/-- `Flush`: after an error the bytes that were not accepted stay in the buffer. -/
def flush (b : Writer ε α) : Writer ε α :=
  if b.err.isSome ∨ b.pending = [] then b
  else match b.sink.write b.pending with
    | (none, sink) => ⟨sink, [], none⟩
    | (some err, sink) =>
      ⟨sink, b.pending.drop (sink.accepted.length - b.sink.accepted.length), some err⟩

variable (size : Nat)

/-- `Available`. -/
def available (b : Writer ε α) : Nat := size - b.pending.length

/-- `WriteByte`. -/
def writeByte (b : Writer ε α) (c : α) : Writer ε α :=
  if b.err.isSome then b
  else if b.available size = 0 then
    if b.flush.err.isSome then b.flush else { b.flush with pending := b.flush.pending ++ [c] }
  else { b with pending := b.pending ++ [c] }

/-- The copy of the text into the free part of the buffer. -/
def fill (b : Writer ε α) (s : List α) : Writer ε α :=
  { b with pending := b.pending ++ s.take (b.available size) }

/-- Handing on a text without copying it to the buffer. -/
def forward (b : Writer ε α) (s : List α) : Writer ε α :=
  ⟨(b.sink.write s).2, b.pending, (b.sink.write s).1⟩

/-- The length of the text that is left, with what the buffer holds. -/
def remaining (b : Writer ε α) (s : List α) : Nat :=
  if b.err.isSome then 0 else b.pending.length + s.length + 1

theorem flush_of_err_eq_none {b : Writer ε α} (h : b.err = none) :
    b.flush.err = none ∧ b.flush.pending = [] ∨ b.flush.err.isSome := by
  unfold flush
  split_ifs with hdone
  · left
    rcases hdone with hdone | hdone
    · simp [h] at hdone
    · exact ⟨h, hdone⟩
  · split
    · exact Or.inl ⟨rfl, rfl⟩
    · exact Or.inr rfl

theorem remaining_flush_fill_lt [NeZero size] {b : Writer ε α} {s : List α} (h : b.err = none)
    (hs : b.available size < s.length) :
    (b.fill size s).flush.remaining (s.drop (b.available size)) < b.remaining s := by
  have hsize : 0 < size := Nat.pos_of_neZero size
  have hfill : (b.fill size s).err = none := h
  rw [available] at hs ⊢
  rcases flush_of_err_eq_none hfill with ⟨herr, hpending⟩ | herr
  · simp only [remaining, herr, hpending, h, List.length_drop, Option.isSome_none,
      Bool.false_eq_true, if_false, List.length_nil]
    omega
  · simp only [remaining, herr, h, Option.isSome_none, Bool.false_eq_true, if_false, if_true]
    omega

/-- `WriteString`: an empty buffer is bypassed by a long text if the writer below takes strings. -/
def writeString [NeZero size] (b : Writer ε α) (s : List α) : Writer ε α :=
  if _h : b.err = none ∧ b.available size < s.length then
    if b.pending = [] ∧ b.sink.stringWriter = true then b.forward s
    else writeString (b.fill size s).flush (s.drop (b.available size))
  else if b.err.isSome then b
  else { b with pending := b.pending ++ s }
termination_by b.remaining s
decreasing_by exact remaining_flush_fill_lt size _h.1 _h.2

end Writer

/-! ### Calls of the buffer -/

/-- A call of one of the buffer's methods. -/
inductive Call (α : Type) : Type
  | byte (c : α)
  | string (s : List α)

/-- The text of a call. -/
def Call.text : Call α → List α
  | .byte c => [c]
  | .string s => s

/-- The call. -/
def Writer.call (size : Nat) [NeZero size] (b : Writer ε α) : Call α → Writer ε α
  | .byte c => b.writeByte size c
  | .string s => b.writeString size s

/-- The calls of a function that returns at the first error. -/
def Writer.calls (size : Nat) [NeZero size] (b : Writer ε α) : List (Call α) → Writer ε α
  | [] => b
  | c :: cs => if (b.call size c).err.isSome then b.call size c else (b.call size c).calls size cs

/-! ### What a buffer keeps -/

/-- How much a buffer of `size` bytes that holds `k` bytes holds after `n` more are written. -/
def keptAfter (size : Nat) (stringWriter : Bool) (k n : Nat) : Nat :=
  if k + n ≤ size then k + n
  else if stringWriter = true then if k = 0 ∨ 2 * size < k + n then 0 else k + n - size
  else (k + n - 1) % size + 1

/-- How much a buffer holds after texts of these lengths are written. -/
def kept (size : Nat) (stringWriter : Bool) (lengths : List Nat) : Nat :=
  lengths.foldl (keptAfter size stringWriter) 0

/-- How much a buffer has handed on after texts of these lengths are written. -/
def handedOn (size : Nat) (stringWriter : Bool) (lengths : List Nat) : Nat :=
  lengths.sum - kept size stringWriter lengths

variable {size : Nat} {stringWriter : Bool} {k n : Nat}

theorem keptAfter_le (size : Nat) [NeZero size] (stringWriter : Bool) (k n : Nat) :
    keptAfter size stringWriter k n ≤ size := by
  have hmod := Nat.mod_lt (k + n - 1) (Nat.pos_of_neZero size)
  unfold keptAfter
  split_ifs <;> omega

theorem keptAfter_le_add [NeZero size] : keptAfter size stringWriter k n ≤ k + n := by
  have hmod := Nat.mod_le (k + n - 1) size
  have hsize := Nat.pos_of_neZero size
  unfold keptAfter
  split_ifs <;> omega

/-- A full buffer is handed on before more is written. -/
theorem keptAfter_zero_sub [NeZero size] (hk : k ≤ size) (h : size < k + n)
    (hbuffer : ¬(k = 0 ∧ stringWriter = true)) :
    keptAfter size stringWriter 0 (k + n - size) = keptAfter size stringWriter k n := by
  have hsize := Nat.pos_of_neZero size
  cases stringWriter with
  | true =>
    have hk : k ≠ 0 := fun hk => hbuffer ⟨hk, rfl⟩
    simp only [keptAfter, Nat.zero_add, if_true, true_or]
    split_ifs <;> omega
  | false =>
    have hmod : (k + n - 1) % size = (k + n - size - 1) % size := by
      rw [Nat.mod_eq_sub_mod (by omega)]
      congr 1
      omega
    simp only [keptAfter, Nat.zero_add, if_neg (Nat.not_le.mpr h), Bool.false_eq_true, if_false,
      hmod]
    split_ifs with hrest
    · rw [Nat.mod_eq_of_lt (by omega)]
      omega
    · rfl

theorem keptAfter_full [NeZero size] : keptAfter size stringWriter size 1 = 1 := by
  have hsize := Nat.pos_of_neZero size
  cases stringWriter with
  | true =>
    simp only [keptAfter, if_true]
    split_ifs <;> omega
  | false =>
    simp only [keptAfter, if_neg (Nat.not_le.mpr (Nat.lt_succ_self size)), Bool.false_eq_true,
      if_false, Nat.add_sub_cancel, Nat.mod_self, Nat.zero_add]

theorem foldl_keptAfter_le [NeZero size] (stringWriter : Bool) (hk : k ≤ size)
    (lengths : List Nat) :
    lengths.foldl (keptAfter size stringWriter) k ≤ size ∧
      lengths.foldl (keptAfter size stringWriter) k ≤ k + lengths.sum := by
  induction lengths generalizing k with
  | nil => exact ⟨hk, Nat.le_add_right k 0⟩
  | cons n lengths ih =>
    obtain ⟨hsize, hsum⟩ := ih (keptAfter_le size stringWriter k n)
    have hstep : keptAfter size stringWriter k n ≤ k + n := keptAfter_le_add
    rw [List.foldl_cons, List.sum_cons]
    exact ⟨hsize, by omega⟩

/-- Full buffers have been handed on. -/
theorem keptAfter_eq [NeZero size] (hk : k ≤ size) (hbuffer : stringWriter = false ∨ n ≤ size) :
    keptAfter size stringWriter k n = k + n - size * ((k + n - 1) / size) := by
  have hsize := Nat.pos_of_neZero size
  unfold keptAfter
  split_ifs with hfits hstring hbypass
  · rw [Nat.div_eq_of_lt (by omega), Nat.mul_zero, Nat.sub_zero]
  · have hn := hbuffer.resolve_left (by simp [hstring])
    omega
  · have hn := hbuffer.resolve_left (by simp [hstring])
    rw [Nat.div_eq_of_lt_le (k := 1) (by omega) (by omega), Nat.mul_one]
  · have hmod := Nat.mod_add_div (k + n - 1) size
    omega

theorem foldl_keptAfter_eq [NeZero size] {lengths : List Nat} (hk : k ≤ size)
    (hbuffer : stringWriter = false ∨ ∀ n ∈ lengths, n ≤ size) :
    lengths.foldl (keptAfter size stringWriter) k =
      k + lengths.sum - size * ((k + lengths.sum - 1) / size) := by
  have hsize := Nat.pos_of_neZero size
  induction lengths generalizing k with
  | nil =>
    rw [List.foldl_nil, List.sum_nil, Nat.add_zero, Nat.div_eq_of_lt (by omega), Nat.mul_zero,
      Nat.sub_zero]
  | cons n lengths ih =>
    have hn : stringWriter = false ∨ n ≤ size := hbuffer.imp_right fun h => h n List.mem_cons_self
    have hstep := keptAfter_eq hk hn
    have hrest := ih (keptAfter_le size stringWriter k n)
      (hbuffer.imp_right fun h m hm => h m (List.mem_cons_of_mem n hm))
    rw [List.foldl_cons, List.sum_cons, hrest]
    generalize keptAfter size stringWriter k n = k' at hstep
    have hle := Nat.mul_div_le (k + n - 1) size
    have hmod := Nat.mod_lt (k + n - 1) hsize
    have hdiv := Nat.mod_add_div (k + n - 1) size
    by_cases hpos : k + n = 0
    · obtain ⟨rfl, rfl⟩ : k = 0 ∧ n = 0 := by omega
      rw [hstep]
      simp
    · have htotal : k + (n + lengths.sum) - 1 =
          k' + lengths.sum - 1 + size * ((k + n - 1) / size) := by omega
      rw [htotal, Nat.add_mul_div_left _ _ hsize, Nat.mul_add]
      omega

/-- **What is handed on** without a flush are full buffers, unless a long text bypasses the buffer:
the last byte stays in the buffer. -/
theorem handedOn_eq [NeZero size] {lengths : List Nat}
    (hbuffer : stringWriter = false ∨ ∀ n ∈ lengths, n ≤ size) :
    handedOn size stringWriter lengths = size * ((lengths.sum - 1) / size) := by
  have hle := Nat.mul_div_le (lengths.sum - 1) size
  rw [handedOn, kept, foldl_keptAfter_eq (Nat.zero_le size) hbuffer, Nat.zero_add]
  omega

/-! ### What a buffer has been given -/

/-- The buffer over `w` has been given `text` and keeps the last `k` bytes of it, or `w` has no room
for the others and an error has been met. -/
structure Holds (size : Nat) (w : Sink ε α) (text : List α) (k : Nat) (b : Writer ε α) : Prop where
  le_size : k ≤ size
  le_length : k ≤ text.length
  sink : b.sink = { w with accepted := b.sink.accepted }
  ok : w.hasRoom (text.length - k) = true →
    b.err = none ∧ b.sink.accepted ++ b.pending = text ∧ b.pending.length = k
  failed : w.hasRoom (text.length - k) = false →
    b.err = some w.fault ∧ b.sink.accepted = w.cut text

namespace Holds

variable {w : Sink ε α} {text s : List α} {b : Writer ε α}

theorem new (size : Nat) (w : Sink ε α) (hw : w.accepted = []) :
    Holds size w [] 0 (Writer.new w) where
  le_size := Nat.zero_le size
  le_length := Nat.le_refl 0
  sink := rfl
  ok := fun _ => ⟨rfl, by rw [Writer.new, hw]; rfl, rfl⟩
  failed := fun h => by
    cases hcapacity : w.capacity <;> simp [Sink.hasRoom, hcapacity] at h

/-- There is room for what has been handed on exactly if no error has been met. -/
theorem err_eq_none_iff (h : Holds size w text k b) :
    b.err = none ↔ w.hasRoom (text.length - k) = true := by
  refine ⟨fun herr => ?_, fun hroom => (h.ok hroom).1⟩
  by_contra hroom
  rw [(h.failed (Bool.not_eq_true _ ▸ hroom)).1] at herr
  cases herr

/-- After an error nothing changes. -/
theorem of_err (h : Holds size w text k b) (herr : b.err ≠ none) (hn : n ≤ size)
    (hlength : n ≤ k + s.length) : Holds size w (text ++ s) n b := by
  have hle := h.le_length
  have hfull : w.hasRoom (text.length - k) = false :=
    Bool.eq_false_iff.mpr fun hroom => herr (h.err_eq_none_iff.mpr hroom)
  have htext : w.hasRoom text.length = false :=
    Bool.eq_false_iff.mpr fun hroom =>
      Bool.eq_false_iff.mp hfull (Sink.hasRoom_of_le hroom (Nat.sub_le _ _))
  refine ⟨hn, ?_, h.sink, fun hroom => ?_, fun _ => ?_⟩
  · rw [List.length_append]
    omega
  · have hmore : text.length - k ≤ (text ++ s).length - n := by
      rw [List.length_append]
      omega
    exact absurd (Sink.hasRoom_of_le hroom hmore) (Bool.eq_false_iff.mp hfull)
  · rw [Sink.cut_append htext]
    exact h.failed hfull

/-- More is put into the buffer. -/
theorem append (h : Holds size w text k b) (herr : b.err = none) (hs : k + s.length ≤ size) :
    Holds size w (text ++ s) (k + s.length) { b with pending := b.pending ++ s } := by
  have hle := h.le_length
  have hroom := h.err_eq_none_iff.mp herr
  obtain ⟨-, htext, hlength⟩ := h.ok hroom
  have hsame : (text ++ s).length - (k + s.length) = text.length - k := by
    rw [List.length_append]
    omega
  refine ⟨hs, ?_, h.sink, fun _ => ⟨herr, ?_, ?_⟩, fun hfull => ?_⟩
  · rw [List.length_append]
    omega
  · rw [← List.append_assoc, htext]
  · rw [List.length_append, hlength]
  · rw [hsame, hroom] at hfull
    cases hfull

/-- All of the text has been handed on. -/
theorem of_write {v : Sink ε α} (hv : v = { w with accepted := v.accepted })
    (htext : v.accepted ++ s = text) (hsink : b.sink = (v.write s).2)
    (herr : b.err = (v.write s).1) (hpending : b.err = none → b.pending = []) :
    Holds size w text 0 b := by
  have hroom : v.hasRoom = w.hasRoom := by rw [hv]; rfl
  have hcut : v.cut = w.cut := by rw [hv]; rfl
  refine ⟨Nat.zero_le size, Nat.zero_le _, ?_, fun h => ?_, fun h => ?_⟩
  · rw [hsink, Sink.write, hv]
  · rw [Nat.sub_zero, ← hroom, ← htext] at h
    rw [Sink.write_of_hasRoom h rfl] at hsink herr
    exact ⟨herr, by rw [hsink, hpending herr, List.append_nil, htext], by rw [hpending herr]; rfl⟩
  · rw [Nat.sub_zero, ← hroom, ← htext] at h
    rw [Sink.write_of_not_hasRoom h rfl] at hsink herr
    exact ⟨by rw [herr, hv], by rw [hsink, htext, hcut]⟩

/-- The buffer is bypassed. -/
theorem forward (h : Holds size w text k b) (herr : b.err = none) (hpending : b.pending = [])
    (s : List α) : Holds size w (text ++ s) 0 (b.forward s) := by
  obtain ⟨-, htext, -⟩ := h.ok (h.err_eq_none_iff.mp herr)
  rw [hpending, List.append_nil] at htext
  exact of_write h.sink (by rw [htext]) rfl rfl fun _ => hpending

/-- The buffer hands on what it keeps. -/
theorem flush (h : Holds size w text k b) : Holds size w text 0 b.flush := by
  by_cases herr : b.err = none
  · obtain ⟨-, htext, hlength⟩ := h.ok (h.err_eq_none_iff.mp herr)
    by_cases hpending : b.pending = []
    · have hflush : b.flush = b := by rw [Writer.flush, if_pos (Or.inr hpending)]
      rw [hpending, List.length_nil] at hlength
      rwa [hflush, hlength]
    · have hwrite := @of_write ε α size w text b.pending b.flush b.sink h.sink htext
      have hdone : ¬(b.err.isSome ∨ b.pending = []) := by simp [herr, hpending]
      rw [Writer.flush, if_neg hdone] at hwrite ⊢
      cases hw : b.sink.write b.pending with
      | mk err sink =>
        rw [hw] at hwrite
        cases err with
        | none => exact hwrite rfl rfl fun _ => rfl
        | some err => exact hwrite rfl rfl nofun
  · have hflush : b.flush = b := by
      rw [Writer.flush, if_pos (Or.inl (Option.isSome_iff_ne_none.mpr herr))]
    rw [hflush]
    have hb := h.of_err (s := []) herr (Nat.zero_le size) (Nat.zero_le _)
    rwa [List.append_nil] at hb

/-- What has been accepted when nothing is kept. -/
theorem accepted_eq (h : Holds size w text 0 b) : b.sink.accepted = w.cut text := by
  by_cases hroom : w.hasRoom text.length = true
  · obtain ⟨-, htext, hpending⟩ := h.ok hroom
    rw [List.length_eq_zero_iff.mp hpending, List.append_nil] at htext
    rw [htext, Sink.cut_eq_self_iff.mpr hroom]
  · exact (h.failed (Bool.eq_false_iff.mpr hroom)).2

variable [NeZero size]

/-- **`WriteString`** hands on full buffers and what bypasses the buffer. -/
theorem writeString (h : Holds size w text k b) :
    Holds size w (text ++ s) (keptAfter size w.stringWriter k s.length) (b.writeString size s) := by
  have hstring : b.sink.stringWriter = w.stringWriter := by rw [h.sink]
  induction b, s using Writer.writeString.induct size generalizing text k with
  | case1 b s hlong hbypass =>
    obtain ⟨-, -, hk⟩ := h.ok (h.err_eq_none_iff.mp hlong.1)
    have hkept : keptAfter size w.stringWriter k s.length = 0 := by
      rw [hbypass.1, List.length_nil] at hk
      rw [← hk, keptAfter, ← hstring, hbypass.2]
      rw [Writer.available, hbypass.1, List.length_nil] at hlong
      simp [show ¬s.length ≤ size by omega]
    rw [Writer.writeString, dif_pos hlong, if_pos hbypass, hkept]
    exact h.forward hlong.1 hbypass.1 s
  | case2 b s hlong hbuffer ih =>
    obtain ⟨-, -, hk⟩ := h.ok (h.err_eq_none_iff.mp hlong.1)
    have hsize := h.le_size
    have havailable : b.available size = size - k := by rw [Writer.available, hk]
    have hfree := hlong.2
    have hkept : keptAfter size w.stringWriter 0 (s.drop (b.available size)).length =
        keptAfter size w.stringWriter k s.length := by
      rw [List.length_drop, show s.length - b.available size = k + s.length - size by omega]
      refine keptAfter_zero_sub hsize (by omega) ?_
      rintro ⟨rfl, htrue⟩
      exact hbuffer ⟨List.length_eq_zero_iff.mp hk, hstring.trans htrue⟩
    have hfill : Holds size w (text ++ s.take (b.available size)) _ (b.fill size s) :=
      h.append hlong.1 (by rw [List.length_take]; omega)
    have hflush := hfill.flush
    have hrest := ih hflush (by rw [hflush.sink])
    rw [Writer.writeString, dif_pos hlong, if_neg hbuffer]
    rwa [List.append_assoc, List.take_append_drop, hkept] at hrest
  | case3 b s hshort herr =>
    rw [Writer.writeString, dif_neg hshort, if_pos herr]
    exact h.of_err (Option.isSome_iff_ne_none.mp herr) (keptAfter_le ..) keptAfter_le_add
  | case4 b s hshort herr =>
    have hnone : b.err = none := Option.not_isSome_iff_eq_none.mp herr
    obtain ⟨-, -, hk⟩ := h.ok (h.err_eq_none_iff.mp hnone)
    have hsize := h.le_size
    have hfits : k + s.length ≤ size := by
      by_contra hlong
      exact hshort ⟨hnone, by rw [Writer.available, hk]; omega⟩
    rw [Writer.writeString, dif_neg hshort, if_neg herr, keptAfter, if_pos hfits]
    exact h.append hnone hfits

/-- `WriteByte`. -/
theorem writeByte (h : Holds size w text k b) (c : α) :
    Holds size w (text ++ [c]) (keptAfter size w.stringWriter k 1) (b.writeByte size c) := by
  have hpos := Nat.pos_of_neZero size
  have hsize := h.le_size
  rw [Writer.writeByte]
  split_ifs with herr hfull hflush
  · exact h.of_err (Option.isSome_iff_ne_none.mp herr) (keptAfter_le ..) keptAfter_le_add
  all_goals
    have hnone : b.err = none := Option.not_isSome_iff_eq_none.mp herr
    obtain ⟨-, -, hk⟩ := h.ok (h.err_eq_none_iff.mp hnone)
    rw [Writer.available, hk] at hfull
  · rw [show k = size by omega, keptAfter_full]
    exact h.flush.of_err (Option.isSome_iff_ne_none.mp hflush) hpos (Nat.le_refl 1)
  · rw [show k = size by omega, keptAfter_full]
    exact h.flush.append (Option.not_isSome_iff_eq_none.mp hflush) hpos
  · have hfits : k + 1 ≤ size := by omega
    rw [keptAfter, if_pos hfits]
    exact h.append hnone hfits

/-- One call. -/
theorem call (h : Holds size w text k b) (c : Call α) :
    Holds size w (text ++ c.text) (keptAfter size w.stringWriter k c.text.length)
      (b.call size c) := by
  cases c with
  | byte c => exact h.writeByte c
  | string s => exact h.writeString

/-- **The calls of a function** that returns at the first error. -/
theorem calls (h : Holds size w text k b) (cs : List (Call α)) :
    Holds size w (text ++ cs.flatMap Call.text)
      ((cs.map fun c => c.text.length).foldl (keptAfter size w.stringWriter) k)
      (b.calls size cs) := by
  induction cs generalizing text k b with
  | nil => simpa [Writer.calls] using h
  | cons c cs ih =>
    have hcall := h.call c
    rw [Writer.calls, List.flatMap_cons, List.map_cons, List.foldl_cons, ← List.append_assoc]
    split_ifs with herr
    · obtain ⟨hsize, hsum⟩ := foldl_keptAfter_le w.stringWriter hcall.le_size
        (cs.map fun c => c.text.length)
      refine hcall.of_err (Option.isSome_iff_ne_none.mp herr) hsize ?_
      rwa [List.length_flatMap]
    · exact ih hcall

end Holds

end ScorecardInfra.GoStd.Bufio
