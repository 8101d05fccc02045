import Mathlib

/-!
# Bounded lines

`read_bounded_line` of `fmctl`, which its server calls until the input ends. A `BufRead` shows a part
of what is left of the stream; how large a part is its own choice at every call.
-/
namespace OptoSync.Rpc

def maxRequestBytes : ℕ := 1024 * 1024

def newline : UInt8 := 10

structure BufRead where
  /-- What is left of the stream. -/
  stream : List UInt8
  /-- How many bytes the coming calls of `fill_buf` show beyond the first one. -/
  shown : ℕ → ℕ

namespace BufRead

def fillBuf (reader : BufRead) : List UInt8 := reader.stream.take (reader.shown 0 + 1)

def consume (reader : BufRead) (amount : ℕ) : BufRead :=
  { stream := reader.stream.drop amount, shown := fun call => reader.shown (call + 1) }

end BufRead

inductive BoundedLine
  | line
  | oversized
  | eof
  deriving DecidableEq, Repr

/-- The bytes up to the first newline, with it, or all of them. -/
def consumedOf (available : List UInt8) : ℕ :=
  (available.findIdx? (· = newline)).elim available.length (· + 1)

/-- What is copied of the consumed bytes. -/
def copy (available : List UInt8) (consumed : ℕ) (line : List UInt8) (oversized : Bool) :
    List UInt8 × Bool :=
  if oversized then (line, oversized)
  else
    let remaining := maxRequestBytes - line.length
    let copied := min consumed remaining
    (line ++ available.take copied, copied < consumed)

theorem consumedOf_pos {available : List UInt8} (h : available ≠ []) : 0 < consumedOf available := by
  unfold consumedOf
  cases available.findIdx? (· = newline) with
  | none => exact List.length_pos_iff.mpr h
  | some index => exact Nat.succ_pos index

theorem fillBuf_eq_nil {reader : BufRead} : reader.fillBuf = [] ↔ reader.stream = [] := by
  rw [BufRead.fillBuf, List.take_eq_nil_iff]
  simp

/-- The loop of `read_bounded_line`. -/
def readLoop (reader : BufRead) (line : List UInt8) (oversized : Bool) :
    BoundedLine × List UInt8 × BufRead :=
  let available := reader.fillBuf
  if _hend : available = [] then
    (if line = [] ∧ oversized = false then .eof else if oversized then .oversized else .line,
      line, reader)
  else
    let consumed := consumedOf available
    let copied := copy available consumed line oversized
    if available[consumed - 1]? = some newline then
      (if copied.2 then .oversized else .line, copied.1, reader.consume consumed)
    else readLoop (reader.consume consumed) copied.1 copied.2
termination_by reader.stream.length
decreasing_by
  have hpos : 0 < consumedOf reader.fillBuf := consumedOf_pos _hend
  have hstream := List.length_pos_iff.mpr (mt fillBuf_eq_nil.mpr _hend)
  rw [BufRead.consume, List.length_drop]
  omega

def readBoundedLine (reader : BufRead) : BoundedLine × List UInt8 × BufRead := readLoop reader [] false

/-- The stream split after its newlines. -/
def lines : List UInt8 → List (List UInt8)
  | [] => []
  | b :: bs =>
    if b = newline then [b] :: lines bs
    else match lines bs with
      | [] => [[b]]
      | line :: rest => (b :: line) :: rest

theorem lines_body {body : List UInt8} (hbody : newline ∉ body) (rest : List UInt8) :
    lines (body ++ newline :: rest) = (body ++ [newline]) :: lines rest := by
  induction body with
  | nil => simp [lines]
  | cons b body ih =>
    obtain ⟨hne, hbody⟩ := not_or.mp (mt List.mem_cons.mpr hbody)
    rw [List.cons_append, lines, if_neg (Ne.symm hne), ih hbody]
    rfl

theorem lines_last {body : List UInt8} (hne : body ≠ []) (hbody : newline ∉ body) :
    lines body = [body] := by
  induction body with
  | nil => exact absurd rfl hne
  | cons b body ih =>
    obtain ⟨hb, hbody⟩ := not_or.mp (mt List.mem_cons.mpr hbody)
    rw [lines, if_neg (Ne.symm hb)]
    cases body with
    | nil => rfl
    | cons c body => rw [ih (List.cons_ne_nil c body) hbody]

/-- What is reported of a line, its newline counted. -/
def verdict (line : List UInt8) : BoundedLine :=
  if maxRequestBytes < line.length then .oversized else .line

/-- The buffer holds the beginning of the bytes so far, and knows whether there were more. -/
theorem copy_take (bytes available : List UInt8) (consumed : ℕ) (h : consumed ≤ available.length) :
    copy available consumed (bytes.take maxRequestBytes) (maxRequestBytes < bytes.length) =
      ((bytes ++ available.take consumed).take maxRequestBytes,
        decide (maxRequestBytes < (bytes ++ available.take consumed).length)) := by
  have hlength : (available.take consumed).length = consumed := List.length_take_of_le h
  unfold copy
  by_cases hlong : maxRequestBytes < bytes.length
  · have hlonger : maxRequestBytes < (bytes ++ available.take consumed).length := by
      rw [List.length_append]
      omega
    rw [decide_eq_true hlong, decide_eq_true hlonger, if_pos rfl,
      List.take_append_of_le_length hlong.le]
  · have hall : bytes.take maxRequestBytes = bytes := List.take_of_length_le (not_lt.mp hlong)
    rw [decide_eq_false hlong, if_neg Bool.false_ne_true, hall]
    refine Prod.ext ?_ ?_
    · rw [List.take_append, hall, List.take_take, Nat.min_comm]
    · refine decide_eq_decide.mpr ?_
      rw [List.length_append, hlength]
      omega

theorem consumedOf_le (available : List UInt8) : consumedOf available ≤ available.length := by
  unfold consumedOf
  cases hfind : available.findIdx? (· = newline) with
  | none => exact Nat.le_refl _
  | some index =>
    obtain ⟨hlt, -, -⟩ := List.findIdx?_eq_some_iff_getElem.mp hfind
    exact hlt

/-- What is consumed either has no newline or is the rest of one line. -/
theorem consumedOf_cases (available : List UInt8) :
    (newline ∉ available.take (consumedOf available) ∧
        available[consumedOf available - 1]? ≠ some newline) ∨
      ∃ body, newline ∉ body ∧ available.take (consumedOf available) = body ++ [newline] ∧
        available[consumedOf available - 1]? = some newline := by
  unfold consumedOf
  cases hfind : available.findIdx? (· = newline) with
  | none =>
    have hnot : newline ∉ available := by
      intro hmem
      simpa using List.findIdx?_eq_none_iff.mp hfind newline hmem
    exact Or.inl ⟨fun hmem => hnot (List.mem_of_mem_take hmem),
      fun hget => hnot (List.mem_of_getElem? hget)⟩
  | some index =>
    obtain ⟨hlt, hat, hbefore⟩ := List.findIdx?_eq_some_iff_getElem.mp hfind
    have hget : available[index] = newline := of_decide_eq_true hat
    refine Or.inr ⟨available.take index, ?_, ?_, ?_⟩
    · intro hmem
      obtain ⟨k, hk, heq⟩ := List.mem_take_iff_getElem.mp hmem
      have hno := hbefore k (by omega)
      rw [heq] at hno
      exact hno (decide_eq_true rfl)
    · rw [Option.elim_some, ← hget, List.take_append_getElem]
    · rw [Option.elim_some, Nat.add_sub_cancel, List.getElem?_eq_getElem hlt, hget]

theorem BufRead.take_append_consume {reader : BufRead} {amount : ℕ}
    (h : amount ≤ reader.fillBuf.length) :
    reader.fillBuf.take amount ++ (reader.consume amount).stream = reader.stream := by
  have hle : amount ≤ reader.shown 0 + 1 := h.trans (List.length_take_le _ _)
  rw [fillBuf, consume, List.take_take, Nat.min_eq_left hle, List.take_append_drop]

/-- The first line of a nonempty stream, and the stream after it. -/
theorem readLoop_line (reader : BufRead) (bytes : List UInt8) {line : List UInt8}
    {rest : List (List UInt8)} (hbytes : newline ∉ bytes)
    (h : lines (bytes ++ reader.stream) = line :: rest) :
    ∃ after : BufRead, readLoop reader (bytes.take maxRequestBytes)
        (maxRequestBytes < bytes.length) =
      (verdict line, line.take maxRequestBytes, after) ∧ lines after.stream = rest := by
  induction hlength : reader.stream.length using Nat.strong_induction_on
    generalizing reader bytes with
  | _ n ih =>
    rw [readLoop]
    by_cases hend : reader.fillBuf = []
    · have hstream := fillBuf_eq_nil.mp hend
      rw [hstream, List.append_nil] at h
      have hne : bytes ≠ [] := by
        rintro rfl
        cases h
      rw [lines_last hne hbytes] at h
      obtain ⟨rfl, rfl⟩ := List.cons.inj h
      have htake : bytes.take maxRequestBytes ≠ [] := by
        rw [ne_eq, List.take_eq_nil_iff]
        exact not_or.mpr ⟨by decide, hne⟩
      refine ⟨reader, ?_, by rw [hstream, lines]⟩
      simp only [hend, dite_true, htake, false_and, if_false, verdict, decide_eq_true_eq]
    · rw [dif_neg hend]
      have hle := consumedOf_le reader.fillBuf
      have hsplit := BufRead.take_append_consume hle
      rw [← hsplit, ← List.append_assoc] at h
      obtain ⟨hnot, hlast⟩ | ⟨body, hbody, htake, hlast⟩ := consumedOf_cases reader.fillBuf
      · -- the line goes on after what the reader shows
        rw [if_neg hlast, copy_take _ _ _ hle]
        have hfree : newline ∉ bytes ++ reader.fillBuf.take (consumedOf reader.fillBuf) :=
          fun hmem => (List.mem_append.mp hmem).elim hbytes hnot
        have hshorter : (reader.consume (consumedOf reader.fillBuf)).stream.length < n := by
          have hpos := consumedOf_pos hend
          have hsum := congrArg List.length hsplit
          rw [List.length_append, List.length_take_of_le hle] at hsum
          omega
        exact ih _ hshorter _ _ hfree h rfl
      · -- the line ends in what the reader shows
        have hfree : newline ∉ bytes ++ body :=
          fun hmem => (List.mem_append.mp hmem).elim hbytes hbody
        rw [htake, ← List.append_assoc, List.append_assoc (bytes ++ body), List.singleton_append,
          lines_body hfree] at h
        obtain ⟨rfl, rfl⟩ := List.cons.inj h
        rw [if_pos hlast, copy_take _ _ _ hle, htake, ← List.append_assoc]
        refine ⟨reader.consume (consumedOf reader.fillBuf), ?_, rfl⟩
        simp only [verdict, decide_eq_true_eq]

theorem readLoop_eof {reader : BufRead} (h : reader.stream = []) :
    readLoop reader [] false = (.eof, [], reader) := by
  rw [readLoop]
  simp [fillBuf_eq_nil.mpr h]

theorem flatten_lines (stream : List UInt8) : (lines stream).flatten = stream := by
  induction stream with
  | nil => rfl
  | cons b bs ih =>
    rw [lines]
    split
    · rw [List.flatten_cons, ih]
      rfl
    · cases hlines : lines bs with
      | nil =>
        rw [hlines] at ih
        rw [← ih]
        rfl
      | cons line rest =>
        rw [hlines] at ih
        rw [← ih]
        rfl

theorem ne_nil_of_mem_lines {stream line : List UInt8} (h : line ∈ lines stream) : line ≠ [] := by
  induction stream generalizing line with
  | nil => cases h
  | cons b bs ih =>
    rw [lines] at h
    split at h
    · rcases List.mem_cons.mp h with rfl | h
      · exact List.cons_ne_nil _ _
      · exact ih h
    · split at h
      · rw [List.mem_singleton.mp h]
        exact List.cons_ne_nil _ _
      · rename_i first rest hlines
        rcases List.mem_cons.mp h with rfl | h
        · exact List.cons_ne_nil _ _
        · exact ih (hlines ▸ List.mem_cons_of_mem _ h)

theorem readBoundedLine_nil {reader : BufRead} (h : reader.stream = []) :
    readBoundedLine reader = (.eof, [], reader) := readLoop_eof h

/-- A call reads one line, however much of it the reader shows at a time. -/
theorem readBoundedLine_lines (reader : BufRead) {line : List UInt8} {rest : List (List UInt8)}
    (h : lines reader.stream = line :: rest) :
    ∃ after : BufRead, readBoundedLine reader =
      (verdict line, line.take maxRequestBytes, after) ∧ lines after.stream = rest :=
  readLoop_line reader [] List.not_mem_nil h

theorem verdict_ne_eof (line : List UInt8) : verdict line ≠ .eof := by
  unfold verdict
  split <;> exact BoundedLine.noConfusion

theorem readBoundedLine_shorter {reader : BufRead} (h : (readBoundedLine reader).1 ≠ .eof) :
    (readBoundedLine reader).2.2.stream.length < reader.stream.length := by
  have hflatten := flatten_lines reader.stream
  cases hlines : lines reader.stream with
  | nil =>
    rw [hlines] at hflatten
    rw [readBoundedLine_nil hflatten.symm] at h
    exact absurd rfl h
  | cons line rest =>
    obtain ⟨after, hread, hafter⟩ := readBoundedLine_lines reader hlines
    have hline := List.length_pos_iff.mpr
      (ne_nil_of_mem_lines (hlines ▸ List.mem_cons_self : line ∈ lines reader.stream))
    rw [hread, ← hflatten, hlines, List.flatten_cons, List.length_append,
      ← flatten_lines after.stream, hafter]
    omega

/-- What a call reports. The bytes of an oversized line are not looked at. -/
inductive Reported
  | line (bytes : List UInt8)
  | oversized
  | eof
  deriving DecidableEq, Repr

def report (result : BoundedLine) (line : List UInt8) : Reported :=
  match result with
  | .line => .line line
  | .oversized => .oversized
  | .eof => .eof

/-- The reports of one call after the other, until the end of the input. -/
def results (reader : BufRead) : List Reported :=
  let read := readBoundedLine reader
  if _hend : read.1 = .eof then [.eof]
  else report read.1 read.2.1 :: results read.2.2
termination_by reader.stream.length
decreasing_by exact readBoundedLine_shorter _hend

/-- The newline counts. -/
def reported (line : List UInt8) : Reported :=
  if maxRequestBytes < line.length then .oversized else .line line

theorem report_verdict (line : List UInt8) :
    report (verdict line) (line.take maxRequestBytes) = reported line := by
  unfold verdict reported
  split
  · rfl
  · rename_i hshort
    rw [List.take_of_length_le (not_lt.mp hshort)]
    rfl

theorem results_eq (reader : BufRead) :
    results reader = (lines reader.stream).map reported ++ [.eof] := by
  induction hlines : lines reader.stream generalizing reader with
  | nil =>
    have hstream : reader.stream = [] := by
      rw [← flatten_lines reader.stream, hlines]
      rfl
    rw [results]
    simp [readBoundedLine_nil hstream]
  | cons line rest ih =>
    obtain ⟨after, hread, hafter⟩ := readBoundedLine_lines reader hlines
    rw [results]
    simp only [hread, verdict_ne_eof, dite_false, report_verdict, ih after hafter, List.map_cons,
      List.cons_append]

/-- How the stream is split into parts makes no difference. -/
theorem results_unsplit {a b : BufRead} (h : a.stream = b.stream) : results a = results b := by
  rw [results_eq, results_eq, h]

def content (line : List UInt8) : List UInt8 :=
  if line.getLast? = some newline then line.dropLast else line

/-- What is to be reported of a line: its newline is no part of the request. -/
def expected (line : List UInt8) : Reported :=
  if (content line).length ≤ maxRequestBytes then .line line else .oversized

theorem reported_eq_expected_iff (line : List UInt8) :
    reported line = expected line ↔
      ¬(line.getLast? = some newline ∧ (content line).length = maxRequestBytes) := by
  unfold reported expected content
  by_cases hlast : line.getLast? = some newline
  · have hne : line ≠ [] := by
      rintro rfl
      cases hlast
    have hpos := List.length_pos_iff.mpr hne
    rw [if_pos hlast, List.length_dropLast]
    split_ifs with hlong hshort hshort
    · refine iff_of_false not_false ?_
      rw [not_not]
      exact ⟨hlast, by omega⟩
    · refine iff_of_true rfl ?_
      omega
    · refine iff_of_true rfl ?_
      omega
    · omega
  · rw [if_neg hlast]
    split_ifs with hlong hshort hshort
    · omega
    · exact iff_of_true rfl fun h => hlast h.1
    · exact iff_of_true rfl fun h => hlast h.1
    · omega

/-- The calls report the lines of the stream and then its end, however it is split, exactly if no
line has as many bytes as a request may have and a newline after them. -/
theorem results_expected_iff (reader : BufRead) :
    results reader = (lines reader.stream).map expected ++ [.eof] ↔
      ∀ line ∈ lines reader.stream,
        ¬(line.getLast? = some newline ∧ (content line).length = maxRequestBytes) := by
  rw [results_eq, List.append_cancel_right_eq, List.map_inj_left]
  exact forall₂_congr fun line _ => reported_eq_expected_iff line

/-- A line that is refused for its newline. -/
def full : List UInt8 := List.replicate maxRequestBytes 120 ++ [newline]

theorem results_full : results ⟨full, fun _ => 8191⟩ = [.oversized, .eof] ∧
    (lines full).map expected = [.line full] := by
  have hbody : newline ∉ List.replicate maxRequestBytes (120 : UInt8) := by
    rw [List.mem_replicate]
    exact fun h => absurd h.2 (by decide)
  have hlines : lines full = [full] := lines_body hbody []
  have hlength : full.length = maxRequestBytes + 1 := by
    rw [full, List.length_append, List.length_replicate]
    rfl
  have hcontent : content full = List.replicate maxRequestBytes 120 := by
    rw [content, full, if_pos List.getLast?_concat, List.dropLast_concat]
  constructor
  · rw [results_eq, hlines, List.map_singleton, reported, if_pos (by omega)]
    rfl
  · rw [hlines, List.map_singleton, expected, hcontent, List.length_replicate, if_pos le_rfl]

end OptoSync.Rpc
