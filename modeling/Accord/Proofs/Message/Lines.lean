import Accord.Message.Frame
import Accord.Proofs.Basic

/-! # The frames of an input

What readers give is said here without a reader. The input is cut at its newlines; lines that are
too long are dropped, and so are those that are no UTF-8 text and those of which nothing is left
without the carriage returns at their end. A reader of whole inputs takes a line at a time, and one
that is fed takes a byte at a time. Both give exactly these frames, however the input is cut into
pieces. -/
namespace Accord

namespace Frame

open Text (toByteArray_eq fromUTF8?_eq_some_iff toNat_of_mem_utf8EncodeChar)

/-! ## Lines -/

/-- The lines of some bytes. The last one may lack its newline, but is not empty then. -/
def lines : List UInt8 → List (List UInt8)
  | [] => []
  | b :: bytes =>
    if b = newline then [] :: lines bytes
    else (b :: (lines bytes).headD []) :: (lines bytes).tail

/-- A text without the carriage returns at its end. -/
def withoutReturns (text : String) : String :=
  String.ofList (text.toList.rdropWhile (· == '\r'))

/-- The frames of some bytes. -/
def frames (limit : Nat) (bytes : List UInt8) : List String :=
  let short := (lines bytes).filter (·.length ≤ limit)
  let texts := short.filterMap fun line => String.fromUTF8? line.toByteArray
  (texts.map withoutReturns).filter (· ≠ "")

variable {line bytes : List UInt8}

theorem lines_line (h : newline ∉ line) (bytes : List UInt8) :
    lines (line ++ newline :: bytes) = line :: lines bytes := by
  induction line with
  | nil => simp [lines]
  | cons b line ih =>
    rw [List.mem_cons, not_or] at h
    rw [List.cons_append, lines, if_neg (Ne.symm h.1), ih h.2]
    rfl

theorem lines_last (h : newline ∉ line) (hne : line ≠ []) : lines line = [line] := by
  induction line with
  | nil => exact absurd rfl hne
  | cons b line ih =>
    rw [List.mem_cons, not_or] at h
    rw [lines, if_neg (Ne.symm h.1)]
    cases line with
    | nil => rfl
    | cons c line => rw [ih h.2 (List.cons_ne_nil c line)]; rfl

/-! ## Texts of lines -/

/-- The byte of a carriage return stands for nothing else. -/
theorem eq_return_of_mem {c : Char} (h : carriageReturn ∈ String.utf8EncodeChar c) : c = '\r' := by
  rcases toNat_of_mem_utf8EncodeChar h with hc | hhigh
  · exact Char.ext (UInt32.toNat_inj.mp hc.symm)
  · exact absurd hhigh (by decide)

theorem flatMap_push_return (s : String) :
    (s.push '\r').toList.flatMap String.utf8EncodeChar =
      s.toList.flatMap String.utf8EncodeChar ++ [carriageReturn] := by
  rw [String.toList_push, List.flatMap_append, List.flatMap_singleton]
  rfl

/-- The texts of bytes that end with a carriage return. -/
theorem toByteArray_eq_concat_return {s : String} :
    s.toByteArray = (line ++ [carriageReturn]).toByteArray ↔
      ∃ t : String, t.toByteArray = line.toByteArray ∧ t.push '\r' = s := by
  simp only [toByteArray_eq, List.toByteArray_inj]
  constructor
  · intro h
    rcases List.eq_nil_or_concat' s.toList with hs | ⟨init, c, hs⟩
    · rw [hs] at h
      exact absurd h.symm (by simp)
    · rw [hs, List.flatMap_append, List.flatMap_singleton] at h
      have hlast := congrArg List.getLast? h
      rw [List.getLast?_concat, List.getLast?_append_of_ne_nil _ String.utf8EncodeChar_ne_nil]
        at hlast
      have hc := eq_return_of_mem (List.mem_of_getLast? hlast)
      subst hc
      have hpush : (String.ofList init).push '\r' = s := by
        rw [← String.toList_inj, hs, String.toList_push, String.toList_ofList]
      refine ⟨String.ofList init, ?_, hpush⟩
      rw [String.toList_ofList]
      exact List.append_cancel_right h
  · rintro ⟨t, ht, rfl⟩
    rw [flatMap_push_return, ht]

theorem withoutReturns_push (s : String) : withoutReturns (s.push '\r') = withoutReturns s := by
  rw [withoutReturns, String.toList_push, List.rdropWhile_concat_pos _ _ _ (by decide)]
  rfl

theorem withoutReturns_of_ne {s : String} (h : ∀ t : String, s ≠ t.push '\r') :
    withoutReturns s = s := by
  have hkeep : s.toList.rdropWhile (· == '\r') = s.toList := by
    rw [List.rdropWhile_eq_self_iff]
    intro hne hlast
    rw [beq_iff_eq] at hlast
    apply h (String.ofList s.toList.dropLast)
    rw [← String.toList_inj, String.toList_push, String.toList_ofList, ← hlast,
      List.dropLast_concat_getLast]
  rw [withoutReturns, hkeep, String.ofList_toList]

/-- How long a line is without its returns depends on the bytes before them only. -/
theorem lengthWithoutReturns_append (line tail : ByteArray) {n : Nat} (hn : n ≤ line.size) :
    lengthWithoutReturns (line ++ tail) n = lengthWithoutReturns line n := by
  induction n with
  | zero => rfl
  | succ n ih =>
    have hget : (line ++ tail).data[n]? = line.data[n]? := by
      rw [ByteArray.data_append, Array.getElem?_append_left (Nat.lt_of_succ_le hn)]
    rw [lengthWithoutReturns, lengthWithoutReturns, hget, ih (Nat.le_of_succ_le hn)]

theorem lengthWithoutReturns_le (line : ByteArray) (n : Nat) : lengthWithoutReturns line n ≤ n := by
  induction n with
  | zero => exact Nat.le_refl 0
  | succ n ih =>
    rw [lengthWithoutReturns]
    split
    · exact Nat.le_succ_of_le ih
    · exact Nat.le_refl _

theorem ofLine?_concat_return (line : List UInt8) :
    ofLine? (line ++ [carriageReturn]).toByteArray = ofLine? line.toByteArray := by
  have hlength : lengthWithoutReturns (line.toByteArray ++ [carriageReturn].toByteArray)
      (line.length + 1) = lengthWithoutReturns line.toByteArray line.length := by
    rw [lengthWithoutReturns, if_pos (by simp), lengthWithoutReturns_append _ _ (by simp)]
  have hle := lengthWithoutReturns_le line.toByteArray line.length
  have hcontent : (line.toByteArray ++ [carriageReturn].toByteArray).extract 0
      (lengthWithoutReturns line.toByteArray line.length) =
        line.toByteArray.extract 0 (lengthWithoutReturns line.toByteArray line.length) := by
    rw [ByteArray.extract_append, List.size_toByteArray, Nat.sub_eq_zero_of_le hle,
      Nat.zero_sub, ByteArray.extract_same, ByteArray.append_empty]
  rw [ofLine?, ofLine?, List.toByteArray_append, ByteArray.size_append, List.size_toByteArray,
    List.size_toByteArray, List.length_singleton, hlength, hcontent]

theorem ofLine?_concat_of_ne {b : UInt8} (hb : b ≠ carriageReturn) (line : List UInt8) :
    ofLine? (line ++ [b]).toByteArray = String.fromUTF8? (line ++ [b]).toByteArray := by
  have hlength : lengthWithoutReturns (line ++ [b]).toByteArray (line.length + 1) =
      (line ++ [b]).toByteArray.size := by
    rw [lengthWithoutReturns, if_neg (by simpa using hb)]
    simp
  rw [ofLine?, List.size_toByteArray, List.length_append, List.length_singleton, hlength,
    ByteArray.extract_zero_size]
  exact if_neg (by simp [ByteArray.isEmpty])

/-- The frame of a line is its text without the returns at its end, unless that is empty. -/
theorem ofLine?_eq (line : List UInt8) : ofLine? line.toByteArray =
    ((String.fromUTF8? line.toByteArray).map withoutReturns).filter (· ≠ "") := by
  induction line using List.reverseRecOn with
  | nil => decide
  | append_singleton line b ih =>
    by_cases hb : b = carriageReturn
    · subst hb
      have hread : String.fromUTF8? (line ++ [carriageReturn]).toByteArray =
          (String.fromUTF8? line.toByteArray).map (·.push '\r') := by
        ext s
        simp only [fromUTF8?_eq_some_iff, toByteArray_eq_concat_return, Option.map_eq_some_iff]
      rw [ofLine?_concat_return, ih, hread, Option.map_map]
      congr 2
      exact funext fun s => (withoutReturns_push s).symm
    · rw [ofLine?_concat_of_ne hb]
      cases hread : String.fromUTF8? (line ++ [b]).toByteArray with
      | none => rfl
      | some s =>
        rw [fromUTF8?_eq_some_iff] at hread
        have hs : withoutReturns s = s := by
          apply withoutReturns_of_ne
          rintro t rfl
          rw [toByteArray_eq, flatMap_push_return, List.toByteArray_inj] at hread
          have hlast := congrArg List.getLast? hread
          rw [List.getLast?_concat, List.getLast?_concat] at hlast
          exact hb (Option.some.inj hlast).symm
        have hne : s ≠ "" := by
          rintro rfl
          have hsize := congrArg ByteArray.size hread
          simp at hsize
        rw [Option.map_some, hs, Option.filter_some, if_pos (by simpa using hne)]

/-! ## Frames of lines -/

/-- The frame of a line, if it has one. -/
def frame? (limit : Nat) (line : List UInt8) : Option String :=
  if line.length ≤ limit then ofLine? line.toByteArray else none

theorem frames_eq (limit : Nat) (bytes : List UInt8) :
    frames limit bytes = (lines bytes).filterMap (frame? limit) := by
  rw [frames, List.filterMap_filter, List.map_filterMap, List.filter_filterMap]
  refine List.filterMap_congr fun line _ => ?_
  rw [frame?, ofLine?_eq]
  by_cases hlength : line.length ≤ limit
  · simp [hlength]
  · simp [hlength]

variable {limit : Nat}

theorem frames_line (h : newline ∉ line) (bytes : List UInt8) :
    frames limit (line ++ newline :: bytes) =
      (frame? limit line).toList ++ frames limit bytes := by
  rw [frames_eq, frames_eq, lines_line h, List.filterMap_cons]
  cases frame? limit line <;> rfl

theorem frames_last (h : newline ∉ line) : frames limit line = (frame? limit line).toList := by
  by_cases hne : line = []
  · subst hne
    rw [frame?, if_pos (by simp)]
    rfl
  · rw [frames_eq, lines_last h hne, List.filterMap_cons]
    cases frame? limit line <;> rfl

theorem frame?_long (h : limit < line.length) : frame? limit line = none :=
  if_neg (Nat.not_le_of_lt h)

/-! ## A reader that is fed -/

namespace Reader

/-- The reader has taken `line` of a line that has not ended. -/
inductive Holds : Reader → List UInt8 → Prop
  | keeping (limit : Nat) (fs : Array String) {line : List UInt8} :
      newline ∉ line → line.length ≤ limit → Holds ⟨limit, line.toByteArray, false, fs⟩ line
  | skipping (limit : Nat) (fs : Array String) {line : List UInt8} :
      newline ∉ line → limit < line.length → Holds ⟨limit, ByteArray.empty, true, fs⟩ line

variable {r : Reader}

theorem holds_nil (limit : Nat) (fs : Array String) :
    Holds ⟨limit, ByteArray.empty, false, fs⟩ [] :=
  .keeping limit fs List.not_mem_nil (Nat.zero_le limit)

theorem Holds.unended (h : r.Holds line) : newline ∉ line := by
  cases h with
  | keeping _ _ hline _ => exact hline
  | skipping _ _ hline _ => exact hline

theorem emit_toList (fs : Array String) (line : ByteArray) :
    (emit fs line).toList = fs.toList ++ (ofLine? line).toList := by
  rw [emit]
  cases ofLine? line with
  | none => simp
  | some frame => simp

/-- The end of the input ends the line. -/
theorem Holds.finish (h : r.Holds line) :
    r.finish = r.frames.toList ++ (frame? r.limit line).toList := by
  cases h with
  | keeping limit fs _ hshort =>
    rw [Reader.finish, frame?, if_pos hshort, if_neg Bool.false_ne_true, emit_toList]
  | skipping limit fs _ hlong =>
    rw [Reader.finish, frame?_long hlong, if_pos rfl]
    simp

theorem Holds.push (h : r.Holds line) {b : UInt8} (hb : b ≠ newline) :
    (r.push b).Holds (line ++ [b]) ∧ (r.push b).frames = r.frames ∧ (r.push b).limit = r.limit := by
  have hmore : newline ∉ line ++ [b] := by simp [h.unended, hb.symm]
  have hlength : (line ++ [b]).length = line.length + 1 := by simp
  cases h with
  | keeping limit fs _ hshort =>
    rw [Reader.push, if_neg (by simpa using hb), List.size_toByteArray]
    by_cases hroom : line.length < limit
    · rw [if_pos hroom, ← ByteArray.append_toByteArray_singleton, ← List.toByteArray_append]
      exact ⟨.keeping limit fs hmore (by omega), rfl, rfl⟩
    · rw [if_neg hroom]
      exact ⟨.skipping limit fs hmore (by omega), rfl, rfl⟩
  | skipping limit fs _ hlong =>
    rw [Reader.push, bne_iff_ne.mpr hb]
    exact ⟨.skipping limit fs hmore (by omega), rfl, rfl⟩

theorem Holds.push_newline (h : r.Holds line) : (r.push newline).Holds [] ∧
    (r.push newline).limit = r.limit ∧ (r.push newline).frames.toList = r.finish := by
  cases h with
  | keeping limit fs => exact ⟨holds_nil limit _, rfl, rfl⟩
  | skipping limit fs => exact ⟨holds_nil limit fs, rfl, rfl⟩

/-- What a reader gives in the end, if it is fed the rest of the input. -/
theorem Holds.finish_feed (h : r.Holds line) (bytes : List UInt8) :
    (r.feed bytes).finish = r.frames.toList ++ Frame.frames r.limit (line ++ bytes) := by
  induction bytes generalizing r line with
  | nil => rw [feed, List.foldl_nil, h.finish, List.append_nil, frames_last h.unended]
  | cons b bytes ih =>
    rw [feed, List.foldl_cons, ← feed]
    by_cases hb : b = newline
    · subst hb
      obtain ⟨hnext, hlimit, hframes⟩ := h.push_newline
      rw [ih hnext, hframes, hlimit, h.finish, frames_line h.unended, List.nil_append,
        List.append_assoc]
    · obtain ⟨hnext, hframes, hlimit⟩ := h.push hb
      rw [ih hnext, hframes, hlimit, List.append_assoc, List.singleton_append]

theorem finish_feed_start (limit : Nat) (bytes : List UInt8) :
    ((start limit).feed bytes).finish = Frame.frames limit bytes :=
  (holds_nil limit #[]).finish_feed bytes

end Reader

/-! ## A reader of whole inputs -/

namespace Input

/-- What a read up to a newline, of at most `limit` bytes, takes off the front of the input: a line
with its newline, or a part of a line that has the limit as its length, or all there is. -/
inductive Taken (limit : Nat) : List UInt8 → List UInt8 → List UInt8 → Prop
  | line {line : List UInt8} (rest : List UInt8) : newline ∉ line → line.length < limit →
      Taken limit (line ++ newline :: rest) (line ++ [newline]) rest
  | part {line : List UInt8} (rest : List UInt8) : newline ∉ line → line.length = limit →
      Taken limit (line ++ rest) line rest
  | all {line : List UInt8} : newline ∉ line → line.length < limit → Taken limit line line []

theorem Taken.prepend {piece taken rest : List UInt8} (hpiece : newline ∉ piece)
    (hlength : piece.length < limit) (h : Taken (limit - piece.length) bytes taken rest) :
    Taken limit (piece ++ bytes) (piece ++ taken) rest := by
  cases h with
  | @line line _ hline hshort =>
    rw [← List.append_assoc, ← List.append_assoc]
    exact .line rest (by simp [hpiece, hline]) (by simp; omega)
  | @part line _ hline hfull =>
    rw [← List.append_assoc]
    exact .part rest (by simp [hpiece, hline]) (by simp; omega)
  | all hline hshort => exact .all (by simp [hpiece, hline]) (by simp; omega)

/-- A piece is cut behind its first newline. -/
theorem cut_of_idxOf? {piece : List UInt8} {i : Nat} (h : piece.idxOf? newline = some i) :
    newline ∉ piece.take i ∧ piece.take (i + 1) = piece.take i ++ [newline] ∧
      ∀ bytes, piece ++ bytes = piece.take i ++ newline :: (piece.drop (i + 1) ++ bytes) := by
  obtain ⟨hi, hat, hbefore⟩ := List.idxOf?_eq_some_iff.mp h
  have hcut : piece.take (i + 1) = piece.take i ++ [newline] := by
    rw [List.take_succ_eq_append_getElem hi, hat]
  refine ⟨?_, hcut, ?_⟩
  · intro hmem
    obtain ⟨j, hj, hget⟩ := List.getElem_of_mem hmem
    rw [List.length_take] at hj
    rw [List.getElem_take] at hget
    exact hbefore j (by omega) hget
  · intro bytes
    rw [List.append_cons, ← hcut, ← List.append_assoc, List.take_append_drop]

theorem readUntil_taken (hlimit : 0 < limit) (line : ByteArray) (input : Input) :
    ∃ taken, (readUntil limit line input).1 = line ++ taken.toByteArray ∧
      Taken limit input.flatten taken (readUntil limit line input).2.flatten := by
  induction input generalizing limit line with
  | nil => exact ⟨[], by simp [readUntil], .all List.not_mem_nil hlimit⟩
  | cons piece rest ih =>
    rw [readUntil, List.flatten_cons]
    cases hfind : (piece.take limit).idxOf? newline with
    | some i =>
      -- a newline in the part of the piece that may be read is the first one of the piece
      have hpiece : piece.idxOf? newline = some i := by
        rw [List.idxOf?] at hfind ⊢
        rw [← List.take_append_drop limit piece, List.findIdx?_append, hfind]
        rfl
      obtain ⟨hopen, hcut, hsplit⟩ := cut_of_idxOf? hpiece
      obtain ⟨hi, -⟩ := List.idxOf?_eq_some_iff.mp hfind
      rw [List.length_take] at hi
      refine ⟨piece.take i ++ [newline], ?_, ?_⟩
      · simp only [hcut]
      · rw [hsplit]
        exact .line _ hopen (by rw [List.length_take]; omega)
    | none =>
      rw [List.idxOf?_eq_none_iff] at hfind
      by_cases hless : piece.length < limit
      · rw [List.take_of_length_le hless.le] at hfind
        simp only [hless, if_true]
        obtain ⟨taken, hread, htaken⟩ := ih (Nat.sub_pos_of_lt hless) (line ++ piece.toByteArray)
        refine ⟨piece ++ taken, ?_, htaken.prepend hfind hless⟩
        rw [hread, ByteArray.append_assoc, List.toByteArray_append]
      · simp only [hless, if_false]
        have hbytes : piece ++ rest.flatten =
            piece.take limit ++ (piece.drop limit ++ rest.flatten) := by
          rw [← List.append_assoc, List.take_append_drop]
        refine ⟨piece.take limit, rfl, ?_⟩
        rw [hbytes]
        exact .part _ hfind (by rw [List.length_take]; omega)

/-- Of a line that is too long already nothing is left behind. -/
theorem frames_skipLine (hline : newline ∉ line) (hlong : limit < line.length) (input : Input) :
    frames limit (line ++ input.flatten) = frames limit (skipLine input).flatten := by
  induction input generalizing line with
  | nil =>
    rw [List.flatten_nil, List.append_nil, frames_last hline, frame?_long hlong]
    rfl
  | cons piece rest ih =>
    rw [skipLine, List.flatten_cons]
    cases hfind : piece.idxOf? newline with
    | some i =>
      obtain ⟨hopen, -, hsplit⟩ := cut_of_idxOf? hfind
      have hmore : newline ∉ line ++ piece.take i := by simp [hline, hopen]
      have hlonger : limit < (line ++ piece.take i).length := by
        rw [List.length_append]
        omega
      rw [hsplit, ← List.append_assoc, frames_line hmore, frame?_long hlonger]
      rfl
    | none =>
      rw [List.idxOf?_eq_none_iff] at hfind
      rw [← List.append_assoc]
      refine ih (by simp [hline, hfind]) ?_
      rw [List.length_append]
      omega

/-- A read of one line gives the first frame or passes over a line that has none. -/
theorem frames_readLine (limit : Nat) (input : Input) : frames limit input.flatten =
    (readLine limit input).elim [] fun read => read.1.toList ++ frames limit read.2.flatten := by
  obtain ⟨taken, hread, htaken⟩ := readUntil_taken limit.succ_pos ByteArray.empty input
  rw [readLine]
  generalize readUntil (limit + 1) ByteArray.empty input = read at hread htaken
  obtain ⟨line, rest⟩ := read
  simp only [ByteArray.empty_append] at hread htaken
  subst hread
  have hempty : taken.toByteArray.isEmpty = decide (taken = []) := by
    rw [ByteArray.isEmpty, List.size_toByteArray]
    cases taken <;> rfl
  have hback : taken.toByteArray.data.back? = taken.getLast? := by
    rw [List.data_toByteArray, List.back?_toArray]
  simp only [hempty, hback, List.size_toByteArray]
  generalize hbehind : rest.flatten = behind at htaken
  generalize input.flatten = bytes at htaken ⊢
  cases htaken with
  | @line line _ hline hshort =>
    have hended : (line ++ [newline]).getLast? = some newline := List.getLast?_concat
    have hcut : (line ++ [newline]).toByteArray.extract 0 ((line ++ [newline]).length - 1) =
        line.toByteArray := by
      rw [List.toByteArray_append]
      exact ByteArray.extract_append_eq_left (by simp)
    rw [frames_line hline, frame?, if_pos (Nat.le_of_lt_succ hshort), ← hbehind]
    simp only [hended, hcut]
    simp
  | part _ hline hfull =>
    -- no newline among one byte more than the limit
    have hlast : taken.getLast? ≠ some newline := fun h => hline (List.mem_of_getLast? h)
    have hne : taken ≠ [] := by
      rintro rfl
      cases hfull
    rw [← hbehind, frames_skipLine hline (by omega)]
    simp [hne, hlast, hfull]
  | all hline hshort =>
    have hlast : taken.getLast? ≠ some newline := fun h => hline (List.mem_of_getLast? h)
    rw [frames_last hline, frame?, if_pos (Nat.le_of_lt_succ hshort)]
    by_cases hne : taken = []
    · subst hne
      rfl
    · have hrest : frames limit rest.flatten = [] := by rw [hbehind]; rfl
      simp [hne, hlast, Nat.not_lt_of_le (Nat.le_of_lt_succ hshort), hrest]

/-- Lines are read until one has a frame. -/
theorem frames_nextFrame? (limit : Nat) (input : Input) : frames limit input.flatten =
    (nextFrame? limit input).elim [] fun next => next.1 :: frames limit next.2.flatten := by
  fun_induction nextFrame? limit input with
  | case1 input hline => rw [frames_readLine, hline]; rfl
  | case2 input frame rest hline => rw [frames_readLine, hline]; rfl
  | case3 input rest hline _ ih => rw [frames_readLine, hline, ← ih]; rfl

end Input

/-- Frames are read until the input ends. -/
theorem readAll_eq_frames (limit : Nat) (input : Input) :
    readAll limit input = frames limit input.flatten := by
  fun_induction readAll limit input with
  | case1 input hnext => rw [Input.frames_nextFrame?, hnext]; rfl
  | case2 input frame rest hnext _ ih => rw [Input.frames_nextFrame?, hnext, ih]; rfl

/-- Whether an input is read as a whole or fed to a reader, and however it is cut into pieces, the
frames are those of its lines: no line that is too long or no text, and none that is empty without
its returns. -/
theorem readers_give_frames (limit : Nat) (input : Input) :
    readAll limit input = frames limit input.flatten ∧
      (input.foldl Reader.feed (Reader.start limit)).finish = frames limit input.flatten := by
  refine ⟨readAll_eq_frames limit input, ?_⟩
  rw [← Reader.finish_feed_start, Reader.feed, List.foldl_flatten]
  rfl

end Frame
end Accord
