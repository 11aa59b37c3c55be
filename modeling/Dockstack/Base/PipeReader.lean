import Mathlib.Data.List.TakeWhile
import Dockstack.Base.LineScanner

/-!
# A line scanner on a bounded pipe

The read end of an operating-system pipe and the buffer of Go's `bufio.Scanner` on it. The
scanner looks for a line in its buffer first, gives up on a full buffer, and otherwise
waits for more bytes or for the end of the input.
-/

namespace Dockstack.Base

/-- Bytes in the pipe, and bytes in the scanner's buffer that belong to no returned line. -/
structure PipeReader where
  pipe : Bytes
  buf : Bytes
  deriving DecidableEq

namespace PipeReader

/-- What a scan comes to: a line, an over-long line, or the end of the input. -/
inductive Scan where
  | token (text : Bytes) (rest : PipeReader)
  | tooLong
  | done
  deriving DecidableEq

/-- Nothing written yet. -/
def empty : PipeReader := ⟨[], []⟩

/-- The bytes that the scanner has yet to turn into lines. -/
def unread (r : PipeReader) : Bytes := r.buf ++ r.pipe

/-- What reading and scanning the rest costs at most: two steps for each byte that is to be
scanned, and one more while it is in the pipe. -/
def work (r : PipeReader) : Nat := 3 * r.pipe.length + 2 * r.buf.length

/-- The writer puts one byte into the pipe; it waits while the pipe is full. -/
def write (cap : Nat) (b : UInt8) (r : PipeReader) : Option PipeReader :=
  if r.pipe.length < cap then some { r with pipe := r.pipe ++ [b] } else none

/-- The scanner moves `n` bytes to its buffer. -/
def read (max n : Nat) (r : PipeReader) : Option PipeReader :=
  if newline ∉ r.buf ∧ 0 < n ∧ n ≤ r.pipe.length ∧ r.buf.length + n ≤ max then
    some ⟨r.pipe.drop n, r.buf ++ r.pipe.take n⟩
  else none

/-- `Scan` comes to a result without reading; `closed` says that the writer is gone. -/
def scan (max : Nat) (closed : Bool) (r : PipeReader) : Option Scan :=
  if newline ∈ r.buf then
    some (.token (dropCR (r.buf.takeWhile (· != newline)))
      { r with buf := (r.buf.dropWhile (· != newline)).tail })
  else if max ≤ r.buf.length then some .tooLong
  else if closed = true ∧ r.pipe = [] then
    if r.buf = [] then some .done else some (.token (dropCR r.buf) ⟨[], []⟩)
  else none

variable {max cap : Nat} {closed : Bool} {r r' : PipeReader}

/-- A byte that is written is yet to be read. -/
theorem unread_write {b : UInt8} (h : r.write cap b = some r') :
    r'.unread = r.unread ++ [b] := by
  unfold write at h
  split at h
  · obtain rfl := Option.some.inj h
    simp only [unread, List.append_assoc]
  · contradiction

/-- A write adds one byte to the pipe. -/
theorem length_pipe_write {b : UInt8} (h : r.write cap b = some r') :
    r'.pipe.length = r.pipe.length + 1 := by
  unfold write at h
  split at h
  · obtain rfl := Option.some.inj h
    exact List.length_append
  · contradiction

/-- A write succeeds while there is room. -/
theorem write_of_lt (b : UInt8) (h : r.pipe.length < cap) :
    r.write cap b = some { r with pipe := r.pipe ++ [b] } := if_pos h

/-- Reading only moves bytes. -/
theorem unread_read {n : Nat} (h : r.read max n = some r') : r'.unread = r.unread := by
  unfold read at h
  split at h
  · obtain rfl := Option.some.inj h
    simp only [unread, List.append_assoc, List.take_append_drop]
  · contradiction

/-- A byte that is written is work. -/
theorem work_write {b : UInt8} (h : r.write cap b = some r') : r'.work = r.work + 3 := by
  unfold write at h
  split at h
  · obtain rfl := Option.some.inj h
    simp only [work, List.length_append, List.length_singleton]
    omega
  · contradiction

/-- Reading takes from the work. -/
theorem work_read {n : Nat} (h : r.read max n = some r') : r'.work < r.work := by
  unfold read at h
  split at h
  · next hn =>
    obtain rfl := Option.some.inj h
    simp only [work, List.length_append, List.length_drop, List.length_take]
    omega
  · contradiction

/-- A write leaves the buffer alone. -/
theorem buf_write {b : UInt8} (h : r.write cap b = some r') : r'.buf = r.buf := by
  obtain ⟨-, ⟨⟩⟩ := Option.ite_none_right_eq_some.mp h
  rfl

/-- A read leaves the buffer within its bound. -/
theorem length_buf_read {n : Nat} (h : r.read max n = some r') : r'.buf.length ≤ max := by
  obtain ⟨⟨-, -, hpipe, hmax⟩, ⟨⟩⟩ := Option.ite_none_right_eq_some.mp h
  rwa [List.length_append, List.length_take_of_le hpipe]

/-- What is returned from a buffer within its bound is a line that fits, and so does the rest. -/
theorem isLine_token {text : Bytes} (hbuf : r.buf.length ≤ max)
    (h : r.scan max closed = some (.token text r')) :
    IsLine max text ∧ r'.buf.length ≤ max := by
  unfold scan at h
  split at h
  · next hmem =>
    obtain ⟨rfl, rfl⟩ := Scan.token.inj (Option.some.inj h)
    obtain ⟨l, rest, heq, hl⟩ := List.eq_append_cons_of_mem hmem
    have hp : ∀ b ∈ l, (b != newline) = true := by
      intro b hb
      exact bne_iff_ne.mpr (fun heq ↦ hl (heq ▸ hb))
    rw [heq, List.length_append, List.length_cons] at hbuf
    rw [heq, List.takeWhile_append_of_pos hp, List.dropWhile_append_of_pos hp]
    simp only [bne_self_eq_false, Bool.false_eq_true, not_false_eq_true,
      List.takeWhile_cons_of_neg, List.dropWhile_cons_of_neg, List.append_nil, List.tail_cons]
    exact ⟨isLine_dropCR ⟨hl, by omega⟩, by omega⟩
  · next hmem =>
    split at h
    · cases h
    · next hlt =>
      split at h
      · split at h
        · cases h
        · obtain ⟨rfl, rfl⟩ := Scan.token.inj (Option.some.inj h)
          exact ⟨isLine_dropCR ⟨hmem, Nat.lt_of_not_le hlt⟩, Nat.zero_le max⟩
      · contradiction

/-- A line takes two from the work at least. -/
theorem work_token {text : Bytes} (h : r.scan max closed = some (.token text r')) :
    r'.work + 2 ≤ r.work := by
  unfold scan at h
  split at h
  · next hmem =>
    obtain ⟨-, rfl⟩ := Scan.token.inj (Option.some.inj h)
    have hne : r.buf.dropWhile (· != newline) ≠ [] := by
      intro hnil
      simpa using List.dropWhile_eq_nil_iff.mp hnil newline hmem
    have hle := List.length_dropWhile_le (· != newline) r.buf
    have hpos := List.length_pos_iff.mpr hne
    simp only [work, List.length_tail]
    omega
  · split at h
    · cases h
    · split at h
      · next hend =>
        split at h
        · cases h
        · next hne =>
          obtain ⟨-, rfl⟩ := Scan.token.inj (Option.some.inj h)
          have hpos := List.length_pos_iff.mpr hne
          simp only [work, List.length_nil]
          omega
      · contradiction

/-- A line that is returned is the next of the input, or the rest of a finished one. -/
theorem scan_eq_token {text : Bytes} (h : r.scan max closed = some (.token text r')) :
    (∃ l, newline ∉ l ∧ text = dropCR l ∧ r.unread = l ++ newline :: r'.unread) ∨
      (closed = true ∧ newline ∉ r.unread ∧ r.unread ≠ [] ∧ text = dropCR r.unread ∧
        r'.unread = []) := by
  unfold scan at h
  split at h
  · next hmem =>
    obtain ⟨rfl, rfl⟩ := Scan.token.inj (Option.some.inj h)
    obtain ⟨l, rest, hbuf, hl⟩ := List.eq_append_cons_of_mem hmem
    have hp : ∀ b ∈ l, (b != newline) = true := by
      intro b hb
      exact bne_iff_ne.mpr (fun heq ↦ hl (heq ▸ hb))
    refine .inl ⟨l, hl, ?_, ?_⟩
    · rw [hbuf, List.takeWhile_append_of_pos hp]
      simp
    · rw [unread, unread, hbuf, List.dropWhile_append_of_pos hp]
      simp
  · next hmem =>
    split at h
    · cases h
    · split at h
      · next hend =>
        split at h
        · cases h
        · next hne =>
          obtain ⟨rfl, rfl⟩ := Scan.token.inj (Option.some.inj h)
          have hunread : r.unread = r.buf := by rw [unread, hend.2, List.append_nil]
          rw [hunread]
          exact .inr ⟨hend.1, hmem, hne, rfl, rfl⟩
      · contradiction

/-- What is unread after a line was unread before it. -/
theorem unread_token {text : Bytes} (h : r.scan max closed = some (.token text r')) :
    ∃ l, r.unread = l ++ r'.unread := by
  rcases scan_eq_token h with ⟨l, -, -, heq⟩ | ⟨-, -, -, -, hrest⟩
  · exact ⟨l ++ [newline], by rw [heq, List.append_assoc, List.singleton_append]⟩
  · exact ⟨r.unread, by rw [hrest, List.append_nil]⟩

/-- A returned line is the first of the lines that the rest of the input has. -/
theorem scanLines_token {text : Bytes} (h : r.scan max closed = some (.token text r'))
    {x : Bytes} (hx : closed = true → x = []) :
    scanLines (r.unread ++ x) = text :: scanLines (r'.unread ++ x) := by
  rcases scan_eq_token h with ⟨l, hl, rfl, heq⟩ | ⟨hclosed, hn, hne, rfl, hrest⟩
  · rw [heq, List.append_assoc, List.cons_append, scanLines_append hl]
  · rw [hx hclosed, hrest, List.append_nil, List.append_nil, scanLines_of_notMem hn hne,
      scanLines_nil]

/-- The end is reported when everything was read and the writer is gone. -/
theorem scan_eq_done (h : r.scan max closed = some .done) : closed = true ∧ r.unread = [] := by
  unfold scan at h
  split at h
  · cases h
  · split at h
    · cases h
    · split at h
      · next hend =>
        split at h
        · next hbuf => exact ⟨hend.1, by rw [unread, hbuf, hend.2, List.append_nil]⟩
        · cases h
      · contradiction

/-- A line is reported as over-long only if the input does not fit the buffer. -/
theorem scan_ne_tooLong (h : Fits max r.unread) : r.scan max closed ≠ some .tooLong := by
  unfold scan
  split
  · simp
  · next hmem =>
    have hlt : r.buf.length < max := h [] r.buf r.pipe rfl hmem
    rw [if_neg (Nat.not_le.mpr hlt)]
    split
    · split <;> simp
    · simp

/-- A scanner that can neither finish a scan nor read waits for the writer. -/
theorem scan_or_read (max : Nat) (closed : Bool) (r : PipeReader) :
    (∃ res, r.scan max closed = some res) ∨ (∃ n r', r.read max n = some r') ∨
      (closed = false ∧ r.pipe = []) := by
  unfold scan read
  by_cases hmem : newline ∈ r.buf
  · exact .inl ⟨_, if_pos hmem⟩
  · by_cases hmax : max ≤ r.buf.length
    · exact .inl ⟨.tooLong, by rw [if_neg hmem, if_pos hmax]⟩
    · by_cases hpipe : r.pipe = []
      · cases closed with
        | true =>
          left
          rw [if_neg hmem, if_neg hmax, if_pos ⟨rfl, hpipe⟩]
          split
          · exact ⟨_, rfl⟩
          · exact ⟨_, rfl⟩
        | false => exact .inr (.inr ⟨rfl, hpipe⟩)
      · have hpos : 0 < r.pipe.length := List.length_pos_iff.mpr hpipe
        exact .inr (.inl ⟨1, _, if_pos ⟨hmem, Nat.one_pos, hpos, by omega⟩⟩)

end PipeReader

end Dockstack.Base
