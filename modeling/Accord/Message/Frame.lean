import Accord.Message.Codec

/-! # Frames

Messages travel as lines of bytes. A reader takes the bytes in pieces of any size and gives the
text of each line. Lines that are too long, that are no UTF-8 text or that are empty are passed
over, and carriage returns at the end of a line are cut off. `Reader` is fed the pieces as they
come; `readAll` asks an input for them, a line at a time. -/
namespace Accord

/-- The bytes that a message is sent as. -/
def Message.frame (m : Message) : String :=
  m.text ++ "\n"

namespace Frame

/-- The longest line that is read, its newline not counted. -/
def maxLength : Nat := 8 * 1024 * 1024

def newline : UInt8 := 10

def carriageReturn : UInt8 := 13

/-- How many of the first `n` bytes are left without the carriage returns at their end. -/
def lengthWithoutReturns (line : ByteArray) : Nat → Nat
  | 0 => 0
  | n + 1 => if line.data[n]? = some carriageReturn then lengthWithoutReturns line n else n + 1

/-- The text of a line of bytes, if it is a frame. -/
def ofLine? (line : ByteArray) : Option String :=
  let content := line.extract 0 (lengthWithoutReturns line line.size)
  if content.isEmpty then none else String.fromUTF8? content

/-- The state of a reader in the middle of its input. -/
structure Reader where
  limit : Nat
  /-- The bytes of the current line. -/
  line : ByteArray
  /-- Whether the current line is too long already. -/
  skipping : Bool
  frames : Array String

namespace Reader

def start (limit : Nat) : Reader :=
  ⟨limit, ByteArray.empty, false, #[]⟩

def emit (frames : Array String) (line : ByteArray) : Array String :=
  match ofLine? line with
  | some frame => frames.push frame
  | none => frames

/-- Takes one byte. -/
def push : Reader → UInt8 → Reader
  | ⟨limit, line, true, frames⟩, b => ⟨limit, line, b != newline, frames⟩
  | ⟨limit, line, false, frames⟩, b =>
    if b == newline then ⟨limit, ByteArray.empty, false, emit frames line⟩
    else if line.size < limit then ⟨limit, line.push b, false, frames⟩
    else ⟨limit, ByteArray.empty, true, frames⟩

/-- Takes the next piece of the input. -/
def feed (r : Reader) (chunk : List UInt8) : Reader :=
  chunk.foldl push r

/-- The frames of the whole input; a last line may lack its newline. -/
def finish (r : Reader) : List String :=
  (if r.skipping then r.frames else emit r.frames r.line).toList

end Reader

/-! ## Whole inputs -/

/-- An input that is read piece by piece, what is left of the current piece first. -/
abbrev Input := List (List UInt8)

namespace Input

/-- The number of bytes that are left. -/
def size : Input → Nat
  | [] => 0
  | piece :: rest => piece.length + size rest

/-- Reads behind `line` up to the next newline and with it, but no more than `limit` bytes. -/
def readUntil (limit : Nat) (line : ByteArray) : Input → ByteArray × Input
  | [] => (line, [])
  | piece :: rest =>
    match (piece.take limit).idxOf? newline with
    | some i => (line ++ (piece.take (i + 1)).toByteArray, piece.drop (i + 1) :: rest)
    | none =>
      if piece.length < limit then readUntil (limit - piece.length) (line ++ piece.toByteArray) rest
      else (line ++ (piece.take limit).toByteArray, piece.drop limit :: rest)

/-- Passes over the input up to the next newline and over the newline. -/
def skipLine : Input → Input
  | [] => []
  | piece :: rest =>
    match piece.idxOf? newline with
    | some i => piece.drop (i + 1) :: rest
    | none => skipLine rest

/-- Reads one line: none at the end of the input, and else the frame of the line, if it has one, and
what is behind it. A line is too long if one byte more than the limit has no newline at its end. -/
def readLine (limit : Nat) (input : Input) : Option (Option String × Input) :=
  let (line, rest) := readUntil (limit + 1) ByteArray.empty input
  let ended := line.data.back? == some newline
  if line.isEmpty then none
  else if limit < line.size && !ended then some (none, skipLine rest)
  else some (ofLine? (if ended then line.extract 0 (line.size - 1) else line), rest)

theorem size_readUntil (limit : Nat) (line : ByteArray) (input : Input) :
    (readUntil limit line input).1.size + size (readUntil limit line input).2 =
      line.size + size input := by
  induction input generalizing limit line with
  | nil => rfl
  | cons piece rest ih =>
    have hcut (k : Nat) : (piece.take k).length + (piece.drop k).length = piece.length := by
      rw [← List.length_append, List.take_append_drop]
    rw [readUntil]
    split
    · rename_i i _
      simp only [size, ByteArray.size_append, List.size_toByteArray]
      have := hcut (i + 1)
      omega
    · split
      · rw [ih, ByteArray.size_append, List.size_toByteArray, size]
        omega
      · simp only [size, ByteArray.size_append, List.size_toByteArray]
        have := hcut limit
        omega

theorem size_skipLine_le (input : Input) : size (skipLine input) ≤ size input := by
  induction input with
  | nil => exact Nat.le_refl _
  | cons piece rest ih =>
    rw [skipLine]
    split
    · simp only [size, List.length_drop]
      omega
    · rw [size]
      omega

/-- A line that is read leaves less to read. -/
theorem size_readLine_lt {limit : Nat} {input rest : Input} {frame : Option String}
    (h : readLine limit input = some (frame, rest)) : size rest < size input := by
  have hsize := size_readUntil (limit + 1) ByteArray.empty input
  rw [readLine] at h
  generalize readUntil (limit + 1) ByteArray.empty input = read at h hsize
  obtain ⟨line, behind⟩ := read
  simp only at h hsize
  split at h
  · cases h
  · rename_i hsome
    have hline : line.size ≠ 0 := by simpa [ByteArray.isEmpty] using hsome
    have hempty : ByteArray.empty.size = 0 := rfl
    split at h
    · simp only [Option.some.injEq, Prod.mk.injEq] at h
      have hskip := size_skipLine_le behind
      rw [← h.2]
      omega
    · simp only [Option.some.injEq, Prod.mk.injEq] at h
      rw [← h.2]
      omega

/-- The next frame and what is behind it, none at the end of the input. -/
def nextFrame? (limit : Nat) (input : Input) : Option (String × Input) :=
  match h : readLine limit input with
  | none => none
  | some (some frame, rest) => some (frame, rest)
  | some (none, rest) =>
    have := size_readLine_lt h
    nextFrame? limit rest
termination_by size input

theorem size_nextFrame?_lt {limit : Nat} {input rest : Input} {frame : String}
    (h : nextFrame? limit input = some (frame, rest)) : size rest < size input := by
  fun_induction nextFrame? limit input with
  | case1 => cases h
  | case2 input next behind hline =>
    cases h
    exact size_readLine_lt hline
  | case3 input behind hline hless ih => exact Nat.lt_trans (ih h) hless

end Input

/-- The frames of an input, read one after another until there is none. -/
def readAll (limit : Nat) (input : Input) : List String :=
  match h : input.nextFrame? limit with
  | none => []
  | some (frame, rest) =>
    have := Input.size_nextFrame?_lt h
    frame :: readAll limit rest
termination_by input.size

end Frame
end Accord
