import Accord.Proofs.Message.Lines
import Accord.Proofs.Message.Portable

/-! # Frames are read as the messages that were sent

The text of a message has no control characters: those of its strings are escaped. So none of its
bytes is a newline or a carriage return, and its frame ends where its newline stands. However the
bytes of some messages are cut into pieces, a reader gives their texts, one by one and in their
order, and each text is read as its message. -/
namespace Accord

/-! ## Texts without control characters -/

/-- A character that is no control character. -/
def Text.isPlain (c : Char) : Bool := 0x20 ≤ c.toNat

namespace Json

open Text (isPlain)

theorem isPlain_digitChar {d : Nat} (h : d < 16) : isPlain (Nat.digitChar d) = true := by
  interval_cases d <;> rfl

theorem all_isPlain_escape (c : Char) : (escape c).all isPlain = true := by
  unfold escape
  split
  · rfl
  · rfl
  · rfl
  · rfl
  · rfl
  · split
    · rfl
    · split
      · rfl
      · split
        · rename_i hcontrol
          simp only [List.all_cons, List.all_nil, Bool.and_true,
            isPlain_digitChar (show c.toNat / 16 < 16 by omega),
            isPlain_digitChar (show c.toNat % 16 < 16 by omega)]
          rfl
        · rename_i hplain
          simp only [List.all_cons, List.all_nil, Bool.and_true, isPlain, decide_eq_true_eq]
          omega

theorem all_isPlain_quote (s : String) : (quote s).all isPlain = true := by
  have hinner : (s.toList.flatMap escape).all isPlain = true := by
    rw [List.all_flatMap, List.all_eq_true]
    intro c _
    exact all_isPlain_escape c
  rw [quote, List.cons_append, List.all_cons, List.all_append, hinner]
  rfl

theorem all_isPlain_number (n : JsonNumber) : n.write.all isPlain = true := by
  rw [List.all_eq_true]
  intro c hc
  have hnumeral := isNumeralChar_of_mem_number hc
  simp only [isNumeralChar, Bool.or_eq_true, beq_iff_eq] at hnumeral
  rcases hnumeral with ((((hdigit | rfl) | rfl) | rfl) | rfl) | rfl
  · rw [isPlain, decide_eq_true_eq]
    have hzero : '0'.toNat = 48 := rfl
    have hlow := (Char.isDigit_iff_toNat.mp hdigit).1
    omega
  · rfl
  · rfl
  · rfl
  · rfl
  · rfl

mutual

theorem all_isPlain_render (v : Json) : (render v).all isPlain = true := by
  match v with
  | .null => rfl
  | .bool true => rfl
  | .bool false => rfl
  | .number n => exact all_isPlain_number n
  | .string s => exact all_isPlain_quote s
  | .array [] => rfl
  | .array (v :: vs) =>
    rw [render, List.all_cons, List.all_append, all_isPlain_render v, all_isPlain_renderItems vs]
    rfl
  | .object [] => rfl
  | .object ((k, v) :: fs) =>
    rw [render, List.all_cons, List.all_append, List.all_cons, List.all_append,
      all_isPlain_quote k, all_isPlain_render v, all_isPlain_renderFields fs]
    rfl

theorem all_isPlain_renderItems (vs : List Json) : (renderItems vs).all isPlain = true := by
  match vs with
  | [] => rfl
  | v :: vs =>
    rw [renderItems, List.all_cons, List.all_append, all_isPlain_render v,
      all_isPlain_renderItems vs]
    rfl

theorem all_isPlain_renderFields (fs : List (String × Json)) :
    (renderFields fs).all isPlain = true := by
  match fs with
  | [] => rfl
  | (k, v) :: fs =>
    rw [renderFields, List.all_cons, List.all_append, List.all_cons, List.all_append,
      all_isPlain_quote k, all_isPlain_render v, all_isPlain_renderFields fs]
    rfl

end

end Json

/-! ## Bytes -/

/-- The bytes of a character that is no control character are not those of one either. -/
theorem Text.le_of_mem_utf8EncodeChar {c : Char} (h : Text.isPlain c = true) {b : UInt8}
    (hb : b ∈ String.utf8EncodeChar c) : 0x20 ≤ b.toNat := by
  rw [isPlain, decide_eq_true_eq] at h
  rcases toNat_of_mem_utf8EncodeChar hb with hc | hhigh
  · omega
  · omega

namespace Text

/-- Without control characters there are none of their bytes. -/
theorem ne_of_mem_toUTF8 {s : String} (h : s.toList.all isPlain = true) {control : UInt8}
    (hc : control.toNat < 0x20) : ∀ b ∈ s.toUTF8.toList, b ≠ control := by
  intro b hb heq
  rw [toList_toUTF8, List.mem_flatMap] at hb
  obtain ⟨c, hmem, hb⟩ := hb
  have hlow := le_of_mem_utf8EncodeChar (List.all_eq_true.mp h c hmem) hb
  rw [heq] at hlow
  omega

end Text

namespace Frame

variable {s : String} {limit : Nat}

theorem withoutReturns_of_isPlain (h : s.toList.all Text.isPlain = true) :
    withoutReturns s = s := by
  apply withoutReturns_of_ne
  rintro t rfl
  rw [String.toList_push, List.all_append, Bool.and_eq_true] at h
  exact absurd h.2 (by decide)

/-- A line of text without control characters is a frame. -/
theorem frame?_text (hne : s ≠ "") (hplain : s.toList.all Text.isPlain = true)
    (hl : s.utf8ByteSize ≤ limit) : frame? limit s.toUTF8.toList = some s := by
  have hline : s.toUTF8.toList.toByteArray = s.toByteArray := by
    rw [String.toUTF8_eq_toByteArray, Text.toList_bytes]
    exact ByteArray.ext List.data_toByteArray
  have hlength : s.toUTF8.toList.length ≤ limit := by
    rw [← List.size_toByteArray, hline, String.size_toByteArray]
    exact hl
  rw [frame?, if_pos hlength, ofLine?_eq, hline, Text.fromUTF8?_eq_some_iff.mpr rfl,
    Option.map_some, withoutReturns_of_isPlain hplain, Option.filter_some]
  exact if_pos (by simpa using hne)

theorem frames_text (hne : s ≠ "") (hplain : s.toList.all Text.isPlain = true)
    (hl : s.utf8ByteSize ≤ limit) (bytes : List UInt8) :
    frames limit ((s ++ "\n").toUTF8.toList ++ bytes) = s :: frames limit bytes := by
  have hbytes : (s ++ "\n").toUTF8.toList = s.toUTF8.toList ++ [newline] := by
    rw [Text.toList_toUTF8, Text.toList_toUTF8, String.toList_append, List.flatMap_append]
    rfl
  have hopen : newline ∉ s.toUTF8.toList := fun hmem =>
    Text.ne_of_mem_toUTF8 hplain (show newline.toNat < 0x20 by decide) newline hmem rfl
  rw [hbytes, List.append_assoc, List.singleton_append, frames_line hopen,
    frame?_text hne hplain hl]
  rfl

end Frame

/-! ## Messages -/

namespace Message

/-- The bytes that a message is sent as. -/
def bytes (m : Message) : List UInt8 := m.frame.toUTF8.toList

/-- A message that can be sent: it can be written, the texts of its floats are read as those floats,
it is not nested too deeply, and its line is not too long. -/
structure Sendable (m : Message) : Prop where
  portable : m.isPortable = true
  floats : ∀ x ∈ Json.itemFloats m.values, x.ReadsBack
  height : m.encoded.height ≤ Json.nestingLimit
  length : m.text.utf8ByteSize ≤ Frame.maxLength

theorem text_ne_empty (m : Message) : m.text ≠ "" := by
  intro h
  have hlist := congrArg String.toList h
  rw [text, textWith, Json.text, String.toList_ofList, Json.render] at hlist
  cases hlist

theorem all_isPlain_text (m : Message) : m.text.toList.all Text.isPlain = true := by
  rw [text, textWith, Json.text, String.toList_ofList]
  exact Json.all_isPlain_render _

/-- The bytes of some messages have the texts of these messages as their frames. -/
theorem frames_flatMap_bytes {ms : List Message} (h : ∀ m ∈ ms, m.Sendable) :
    Frame.frames Frame.maxLength (ms.flatMap bytes) = ms.map text := by
  induction ms with
  | nil => rfl
  | cons m ms ih =>
    obtain ⟨hm, hms⟩ := List.forall_mem_cons.mp h
    rw [List.flatMap_cons, List.map_cons, ← ih hms]
    exact Frame.frames_text m.text_ne_empty m.all_isPlain_text hm.length _

/-- Messages that are sent one after another arrive as they are, however their bytes are cut into
pieces: there is one frame for each of them, in their order, and it is read as that message. -/
theorem readAll_messages {ms : List Message} (h : ∀ m ∈ ms, m.Sendable)
    {chunks : List (List UInt8)} (hc : chunks.flatten = ms.flatMap bytes) :
    Frame.readAll Frame.maxLength chunks = ms.map text ∧
      (Frame.readAll Frame.maxLength chunks).map ofText = ms.map Except.ok := by
  have hread : Frame.readAll Frame.maxLength chunks = ms.map text := by
    rw [Frame.readAll_eq_frames, hc, frames_flatMap_bytes h]
  have hofText : ∀ m ∈ ms, ofText (text m) = .ok m := by
    intro m hm
    exact ofText_text (h m hm).portable (h m hm).floats (h m hm).height
  refine ⟨hread, ?_⟩
  rw [hread, List.map_map, Function.comp_def]
  exact List.map_congr_left hofText

theorem tenth_finite : 4591870180066957722 < Number.infinityCode := by decide

/-- A float that has no short binary form. -/
def tenth : Number.Binary64 := ⟨false, 4591870180066957722, tenth_finite⟩

/-- Messages with what is hard to write: the bounds of numbers, characters that are escaped or have
several bytes, fields that are left out or null, nested values, a float and a leap second. -/
def assorted : List Message :=
  [.heartbeat 18446744073709551615 (-1),
   .vote 2 true none,
   .roundRequest .post ⟨"insert\n\"é\"", some [.null, .integer (-9223372036854775808),
     .number (.float tenth), .object [("a", .array []), ("b", .string "\\\r")]]⟩ (some 7),
   .roundRequest .get ⟨"", none⟩ none,
   .batch 3 [⟨1, "\x7b\x7d", ⟨2016, 12, 31, 86399, 1500000000⟩⟩]]

theorem tenth_readsBack : tenth.ReadsBack :=
  (Json.ofText?_text (v := .number (.float tenth)) (by decide +kernel)).trans (if_pos (by decide))

theorem assorted_sendable : ∀ m ∈ assorted, m.Sendable := by
  have hportable : assorted.all (·.isPortable) = true := by decide +kernel
  have hheight : assorted.all (·.encoded.height ≤ Json.nestingLimit) = true := by decide +kernel
  have hlength : assorted.all (·.text.utf8ByteSize ≤ Frame.maxLength) = true := by decide +kernel
  have hfloats : assorted.flatMap (fun m => Json.itemFloats m.values) = [tenth] := by decide +kernel
  simp only [List.all_eq_true, decide_eq_true_eq] at hportable hheight hlength
  intro m hm
  refine ⟨hportable m hm, ?_, hheight m hm, hlength m hm⟩
  intro x hx
  have hmem : x ∈ assorted.flatMap fun m => Json.itemFloats m.values :=
    List.mem_flatMap.mpr ⟨m, hm, hx⟩
  rw [hfloats, List.mem_singleton] at hmem
  rw [hmem]
  exact tenth_readsBack

theorem assorted_messages_arrive : (∀ m ∈ assorted, m.Sendable) ∧
    Frame.readAll Frame.maxLength ((assorted.flatMap bytes).map fun b => [b]) =
      assorted.map text ∧
    (Frame.readAll Frame.maxLength ((assorted.flatMap bytes).map fun b => [b])).map ofText =
      assorted.map Except.ok := by
  have hbytewise (bs : List UInt8) : (bs.map fun b => [b]).flatten = bs :=
    List.flatMap_singleton' bs
  exact ⟨assorted_sendable, readAll_messages assorted_sendable (hbytewise _)⟩

end Message
end Accord
