import Accord.Proofs.Json.Numeral

/-! # Written values are read as they are written

The tokens of a rendered value are `tokensOf`, and the machine gathers them into the tree
`writtenOf`. Both hold for every value; whether the tree has the value again is a question of its
numbers and its depth. -/
namespace Accord.Json
open Text (digits digitValues)

/-! ## Characters of numbers -/

theorem isNumeralChar_of_isDigit {c : Char} (h : c.isDigit = true) : isNumeralChar c = true := by
  simp [isNumeralChar, h]

theorem isNumeralChar_of_mem_digits {n : Nat} {c : Char} (h : c ∈ digits n) :
    isNumeralChar c = true := isNumeralChar_of_isDigit (Text.isDigit_of_mem_digits h)

theorem isNumeralChar_of_mem_placePoint {n : Nat} {whole : Int} {c : Char}
    (h : c ∈ placePoint (digits n) whole) : isNumeralChar c = true := by
  simp only [placePoint] at h
  split at h
  · simp only [List.cons_append, List.mem_cons, List.mem_append] at h
    rcases h with rfl | rfl | h | h
    · rfl
    · rfl
    · exact isNumeralChar_of_isDigit (isDigit_of_mem_zeros h)
    · exact isNumeralChar_of_mem_digits h
  · split at h
    · simp only [List.mem_append, List.mem_cons, List.not_mem_nil, or_false] at h
      rcases h with (h | h) | rfl | rfl
      · exact isNumeralChar_of_mem_digits h
      · exact isNumeralChar_of_isDigit (isDigit_of_mem_zeros h)
      · rfl
      · rfl
    · simp only [List.mem_append, List.mem_cons] at h
      rcases h with h | rfl | h
      · exact isNumeralChar_of_mem_digits (List.mem_of_mem_take h)
      · rfl
      · exact isNumeralChar_of_mem_digits (List.mem_of_mem_drop h)

theorem isNumeralChar_of_mem_write {format : FloatFormat} {d : Number.Decimal} {c : Char}
    (h : c ∈ format.write d) : isNumeralChar c = true := by
  simp only [FloatFormat.write] at h
  split at h
  · exact isNumeralChar_of_mem_placePoint h
  · simp only [List.mem_append, List.mem_cons] at h
    rcases h with (h | h) | rfl | rfl | h
    · exact isNumeralChar_of_mem_digits (List.mem_of_mem_take h)
    · split at h
      · cases h
      · rcases List.mem_cons.mp h with rfl | h
        · rfl
        · exact isNumeralChar_of_mem_digits (List.mem_of_mem_drop h)
    · rfl
    · split <;> rfl
    · exact isNumeralChar_of_mem_digits h

theorem isNumeralChar_of_mem_number {n : JsonNumber} {c : Char} (h : c ∈ n.write) :
    isNumeralChar c = true := by
  match n with
  | .integer (.ofNat m) => exact isNumeralChar_of_mem_digits h
  | .integer (.negSucc m) =>
    rcases List.mem_cons.mp h with rfl | h
    · rfl
    · exact isNumeralChar_of_mem_digits h
  | .float x =>
    simp only [JsonNumber.write, Number.Binary64.write] at h
    have hu : ∀ c ∈ (if x.isZero = true then ['0', '.', '0']
        else floatFormat.write (Number.shortest x.code)), isNumeralChar c = true := by
      intro c hc
      split at hc
      · simp only [List.mem_cons, List.not_mem_nil, or_false] at hc
        rcases hc with rfl | rfl | rfl <;> rfl
      · exact isNumeralChar_of_mem_write hc
    split at h
    · rcases List.mem_cons.mp h with rfl | h
      · rfl
      · exact hu c h
    · exact hu c h

/-- A number begins with a digit or a minus sign. -/
theorem head_number (n : JsonNumber) :
    ∃ c cs, n.write = c :: cs ∧ (c.isDigit || c == '-') = true := by
  have h := n.readNumeral_write
  unfold readNumeral at h
  split at h
  · rename_i cs hc
    exact ⟨'-', cs, hc, rfl⟩
  · obtain ⟨c, t, hc, hd⟩ := Whole.of_readUnsigned h
    exact ⟨c, t, hc, by simp [hd]⟩

/-! ## Tokens -/

/-- How a character of a quoted text is taken in: most control characters are written as units. -/
def pieceOf (c : Char) : Piece :=
  if c.toNat < 0x20 && c != '\n' && c != '\r' && c != '\t' && c.toNat != 0x8 && c.toNat != 0xC then
    .unit c.toNat
  else .char c

def piecesOf (s : String) : List Piece := s.toList.map pieceOf

mutual

/-- The tokens of a value. -/
def tokensOf : Json → List Token
  | .null => [.null]
  | .bool b => [.bool b]
  | .number n => [.number n.numeral]
  | .string s => [.string (piecesOf s)]
  | .array [] => [.openArray, .closeArray]
  | .array (v :: vs) => .openArray :: (tokensOf v ++ itemTokens vs)
  | .object [] => [.openObject, .closeObject]
  | .object ((k, v) :: fs) =>
    .openObject :: .string (piecesOf k) :: .colon :: (tokensOf v ++ fieldTokens fs)

def itemTokens : List Json → List Token
  | [] => [.closeArray]
  | v :: vs => .comma :: (tokensOf v ++ itemTokens vs)

def fieldTokens : List (String × Json) → List Token
  | [] => [.closeObject]
  | (k, v) :: fs => .comma :: .string (piecesOf k) :: .colon :: (tokensOf v ++ fieldTokens fs)

end

/-- The tokens of a text that is scanned from some point on. -/
def scanFrom (s : Scanner) (cs : List Char) : Option (List Token) :=
  (cs.foldlM Scanner.step s).bind fun s => s.settle.map List.reverse

theorem scanFrom_cons (s : Scanner) (c : Char) (cs : List Char) :
    scanFrom s (c :: cs) = (s.step c).bind fun t => scanFrom t cs := by
  simp only [scanFrom, List.foldlM_cons]
  cases s.step c <;> rfl

/-- What ends a word or a numeral. -/
def Delimits (rest : List Char) : Prop :=
  ∀ c cs, rest = c :: cs → c = ',' ∨ c = ']' ∨ c = '\x7d'

theorem delimits_nil : Delimits [] := by intro c cs h; cases h

theorem delimits_cons {c : Char} (h : c = ',' ∨ c = ']' ∨ c = '\x7d') (cs : List Char) :
    Delimits (c :: cs) := by
  intro d ds he
  rw [← (List.cons.inj he).1]
  exact h

theorem Delimits.not_numeral {c : Char} {cs : List Char} (h : Delimits (c :: cs)) :
    isNumeralChar c = false := by
  rcases h c cs rfl with rfl | rfl | rfl <;> rfl

theorem Delimits.not_lower {c : Char} {cs : List Char} (h : Delimits (c :: cs)) :
    c.isLower = false := by
  rcases h c cs rfl with rfl | rfl | rfl <;> rfl

/-! ## Scanning words, numbers and quoted texts -/

/-- A word or a numeral that is settled by what follows. -/
theorem scanFrom_settled {s : Scanner} {ts : List Token} (hs : s.settle = some ts) :
    ∀ {rest : List Char}, (∀ c cs, rest = c :: cs →
        s.step c = s.settle.bind fun tokens => Scanner.begin tokens c) →
      scanFrom s rest = scanFrom ⟨ts, .between⟩ rest
  | [], _ => by
    rw [scanFrom, scanFrom, List.foldlM_nil, List.foldlM_nil]
    simp only [pure, Option.bind_some, hs]
    rfl
  | c :: cs, hc => by
    rw [scanFrom_cons, scanFrom_cons, hc c cs rfl, hs]
    rfl

theorem scanFrom_numeral (ts : List Token) {more rest : List Char} (hr : Delimits rest)
    (hm : ∀ c ∈ more, isNumeralChar c = true) (n : Numeral) :
    ∀ {chars : List Char}, readNumeral (chars.reverse ++ more) = some n →
      scanFrom ⟨ts, .numeral chars⟩ (more ++ rest) = scanFrom ⟨.number n :: ts, .between⟩ rest := by
  induction more with
  | nil =>
    intro chars hn
    rw [List.append_nil] at hn
    refine scanFrom_settled (by simp [Scanner.settle, hn]) ?_
    rintro c cs rfl
    simp [Scanner.step, hr.not_numeral]
  | cons c more ih =>
    intro chars hn
    have hc := hm c List.mem_cons_self
    rw [List.cons_append, scanFrom_cons]
    simp only [Scanner.step, hc, if_true, Option.bind_some]
    refine ih (fun d hd => hm d (List.mem_cons_of_mem c hd)) ?_
    rwa [List.reverse_cons, List.append_assoc, List.singleton_append]

theorem begin_number {c : Char} (ts : List Token) (h : (c.isDigit || c == '-') = true) :
    Scanner.begin ts c = some ⟨ts, .numeral [c]⟩ := by
  have hs : isSpace c = false := by
    by_contra hs
    simp only [Bool.not_eq_false, isSpace, Bool.or_eq_true, beq_iff_eq] at hs
    rcases hs with ((rfl | rfl) | rfl) | rfl <;> cases h
  unfold Scanner.begin
  split
  case h_8 => rw [if_neg (by simp [hs]), if_pos h]
  all_goals cases h

theorem scanFrom_number (ts : List Token) {rest : List Char} (hr : Delimits rest) (n : JsonNumber) :
    scanFrom ⟨ts, .between⟩ (n.write ++ rest) =
      scanFrom ⟨.number n.numeral :: ts, .between⟩ rest := by
  obtain ⟨c, cs, hc, hd⟩ := head_number n
  have hn := n.readNumeral_write
  have hm : ∀ d ∈ cs, isNumeralChar d = true := fun d hd =>
    isNumeralChar_of_mem_number (hc ▸ List.mem_cons_of_mem c hd)
  rw [hc] at hn ⊢
  rw [List.cons_append, scanFrom_cons]
  simp only [Scanner.step, begin_number ts hd, Option.bind_some]
  exact scanFrom_numeral ts hr hm _ hn

theorem scanFrom_word (ts : List Token) {rest : List Char} (hr : Delimits rest)
    {l : List Char} {t : Token} (ht : wordToken? l.reverse = some t) :
    scanFrom ⟨ts, .word l⟩ rest = scanFrom ⟨t :: ts, .between⟩ rest := by
  refine scanFrom_settled (by simp [Scanner.settle, ht]) ?_
  rintro c cs rfl
  simp [Scanner.step, hr.not_lower]


theorem hexDigit?_digitChar {d : Nat} (h : d < 16) : Text.hexDigit? (Nat.digitChar d) = some d := by
  revert d
  decide

theorem scanFrom_escape (ts : List Token) (ps : List Piece) (c : Char) (rest : List Char) :
    scanFrom ⟨ts, .string ps⟩ (escape c ++ rest) =
      scanFrom ⟨ts, .string (pieceOf c :: ps)⟩ rest := by
  unfold escape
  split
  · rfl
  · rfl
  · rfl
  · rfl
  · rfl
  · rename_i hq hb hn hr ht
    simp only [imp_false] at hq hb hn hr ht
    split
    · rename_i h8
      have hc : c = Char.ofNat 0x8 := by rw [← h8, Char.ofNat_toNat]
      subst hc
      rfl
    split
    · rename_i h8 hC
      have hc : c = Char.ofNat 0xC := by rw [← hC, Char.ofNat_toNat]
      subst hc
      rfl
    split
    · rename_i h8 hC h20
      have hp : pieceOf c = .unit c.toNat := by simp [pieceOf, h8, hC, h20, hn, hr, ht]
      have h1 := hexDigit?_digitChar (show c.toNat / 16 < 16 by omega)
      have h2 := hexDigit?_digitChar (show c.toNat % 16 < 16 by omega)
      have hv : 16 * (c.toNat / 16) + c.toNat % 16 = c.toNat := by omega
      have h0 : Text.hexDigit? '0' = some 0 := rfl
      simp [scanFrom_cons, Scanner.step, h0, h1, h2, hv, hp]
    · rename_i h8 hC h20
      have hp : pieceOf c = .char c := by simp [pieceOf, h20]
      simp [scanFrom_cons, Scanner.step, hq, hb, h20, hp]

theorem scanFrom_pieces (ts : List Token) (rest : List Char) (cs : List Char) :
    ∀ ps : List Piece, scanFrom ⟨ts, .string ps⟩ (cs.flatMap escape ++ '"' :: rest) =
      scanFrom ⟨.string (ps.reverse ++ cs.map pieceOf) :: ts, .between⟩ rest := by
  induction cs with
  | nil =>
    intro ps
    simp [scanFrom_cons, Scanner.step]
  | cons c cs ih =>
    intro ps
    rw [List.flatMap_cons, List.append_assoc, scanFrom_escape, ih]
    simp

theorem scanFrom_quote (ts : List Token) (s : String) (rest : List Char) :
    scanFrom ⟨ts, .between⟩ (quote s ++ rest) =
      scanFrom ⟨.string (piecesOf s) :: ts, .between⟩ rest := by
  rw [quote, List.append_assoc, List.cons_append, List.singleton_append, scanFrom_cons]
  exact scanFrom_pieces ts rest s.toList []

/-! ## Scanning values -/

theorem scanFrom_mark {ts : List Token} {c : Char} {t : Token} (rest : List Char)
    (h : Scanner.begin ts c = some ⟨t :: ts, .between⟩) :
    scanFrom ⟨ts, .between⟩ (c :: rest) = scanFrom ⟨t :: ts, .between⟩ rest := by
  rw [scanFrom_cons]
  simp only [Scanner.step, h, Option.bind_some]

theorem scanFrom_comma (ts : List Token) (rest : List Char) :
    scanFrom ⟨ts, .between⟩ (',' :: rest) = scanFrom ⟨.comma :: ts, .between⟩ rest :=
  scanFrom_mark rest rfl

theorem scanFrom_colon (ts : List Token) (rest : List Char) :
    scanFrom ⟨ts, .between⟩ (':' :: rest) = scanFrom ⟨.colon :: ts, .between⟩ rest :=
  scanFrom_mark rest rfl

theorem delimits_renderItems (vs : List Json) (rest : List Char) :
    Delimits (renderItems vs ++ rest) := by
  cases vs <;> rw [renderItems] <;> exact delimits_cons (by simp) _

theorem delimits_renderFields (fs : List (String × Json)) (rest : List Char) :
    Delimits (renderFields fs ++ rest) := by
  cases fs <;> rw [renderFields] <;> exact delimits_cons (by simp) _

mutual

theorem scanFrom_render (ts : List Token) {rest : List Char} (hr : Delimits rest) (v : Json) :
    scanFrom ⟨ts, .between⟩ (render v ++ rest) =
      scanFrom ⟨(tokensOf v).reverse ++ ts, .between⟩ rest := by
  match v with
  | .null => exact scanFrom_word ts hr (l := ['l', 'l', 'u', 'n']) rfl
  | .bool true => exact scanFrom_word ts hr (l := ['e', 'u', 'r', 't']) rfl
  | .bool false => exact scanFrom_word ts hr (l := ['e', 's', 'l', 'a', 'f']) rfl
  | .number n => exact scanFrom_number ts hr n
  | .string s => exact scanFrom_quote ts s rest
  | .array [] => rfl
  | .array (v :: vs) =>
    rw [render, List.cons_append, List.append_assoc, scanFrom_mark _ rfl,
      scanFrom_render _ (delimits_renderItems vs rest) v, scanFrom_renderItems, tokensOf]
    simp
  | .object [] => rfl
  | .object ((k, v) :: fs) =>
    rw [render, List.cons_append, List.append_assoc, List.cons_append, List.append_assoc,
      scanFrom_mark _ rfl, scanFrom_quote, scanFrom_colon,
      scanFrom_render _ (delimits_renderFields fs rest) v, scanFrom_renderFields, tokensOf]
    simp

theorem scanFrom_renderItems (ts : List Token) (rest : List Char) (vs : List Json) :
    scanFrom ⟨ts, .between⟩ (renderItems vs ++ rest) =
      scanFrom ⟨(itemTokens vs).reverse ++ ts, .between⟩ rest := by
  match vs with
  | [] => exact scanFrom_mark rest rfl
  | v :: vs =>
    rw [renderItems, List.cons_append, List.append_assoc, scanFrom_comma,
      scanFrom_render _ (delimits_renderItems vs rest) v, scanFrom_renderItems, itemTokens]
    simp

theorem scanFrom_renderFields (ts : List Token) (rest : List Char) (fs : List (String × Json)) :
    scanFrom ⟨ts, .between⟩ (renderFields fs ++ rest) =
      scanFrom ⟨(fieldTokens fs).reverse ++ ts, .between⟩ rest := by
  match fs with
  | [] => exact scanFrom_mark rest rfl
  | (k, v) :: fs =>
    rw [renderFields, List.cons_append, List.append_assoc, List.cons_append, List.append_assoc,
      scanFrom_comma, scanFrom_quote, scanFrom_colon,
      scanFrom_render _ (delimits_renderFields fs rest) v, scanFrom_renderFields, fieldTokens]
    simp

end

theorem tokens?_render (v : Json) : tokens? (render v) = some (tokensOf v) := by
  have h := scanFrom_render [] delimits_nil v
  rw [List.append_nil, List.append_nil] at h
  refine h.trans ?_
  simp [scanFrom, Scanner.settle]

/-! ## Gathering the tokens -/

mutual

/-- What is written for a value. -/
def writtenOf : Json → Written
  | .null => .null
  | .bool b => .bool b
  | .number n => .number n.numeral
  | .string s => .string (piecesOf s)
  | .array vs => .array (writtenItems vs)
  | .object fs => .object (writtenFields fs)

def writtenItems : List Json → List Written
  | [] => []
  | v :: vs => writtenOf v :: writtenItems vs

def writtenFields : List (String × Json) → List (List Piece × Written)
  | [] => []
  | (k, v) :: fs => (piecesOf k, writtenOf v) :: writtenFields fs

end

/-- The machine after some tokens. -/
def gather (m : Machine) (ts : List Token) : Option Machine :=
  ts.foldlM Machine.step m

theorem gather_cons (m : Machine) (t : Token) (ts : List Token) :
    gather m (t :: ts) = (m.step t).bind fun m => gather m ts := by
  simp only [gather, List.foldlM_cons]
  cases m.step t <;> rfl

/-- A value is gathered alike where any value may stand and where the first item may. -/
theorem step_firstItem (stack : List Open) (v : Json) (rest : List Token) :
    gather ⟨stack, .firstItem⟩ (tokensOf v ++ rest) =
      gather ⟨.array [] :: stack, .value⟩ (tokensOf v ++ rest) := by
  cases v with
  | array vs => cases vs <;> rfl
  | object fs =>
    match fs with
    | [] => rfl
    | (k, v) :: fs => rfl
  | _ => rfl

mutual

theorem gather_tokensOf (stack : List Open) (v : Json) (rest : List Token) :
    gather ⟨stack, .value⟩ (tokensOf v ++ rest) = gather ⟨stack, .more (writtenOf v)⟩ rest := by
  match v with
  | .null => rfl
  | .bool b => rfl
  | .number n => rfl
  | .string s => rfl
  | .array [] => rfl
  | .array (v :: vs) =>
    rw [tokensOf, List.cons_append, List.append_assoc, gather_cons]
    simp only [Machine.step, Machine.beginValue, Option.bind_some]
    rw [step_firstItem, gather_tokensOf _ v, gather_itemTokens]
    rfl
  | .object [] => rfl
  | .object ((k, v) :: fs) =>
    rw [tokensOf, List.cons_append, List.cons_append, List.cons_append, List.append_assoc]
    simp only [gather_cons, Machine.step, Machine.beginValue, Option.bind_some]
    rw [gather_tokensOf _ v, gather_fieldTokens]
    rfl

theorem gather_itemTokens (stack : List Open) (items : List Written) (w : Written)
    (vs : List Json) (rest : List Token) :
    gather ⟨.array items :: stack, .more w⟩ (itemTokens vs ++ rest) =
      gather ⟨stack, .more (.array (items.reverse ++ w :: writtenItems vs))⟩ rest := by
  match vs with
  | [] =>
    rw [itemTokens, List.singleton_append, gather_cons]
    simp [Machine.step, writtenItems]
  | v :: vs =>
    rw [itemTokens, List.cons_append, List.append_assoc, gather_cons]
    simp only [Machine.step, Option.bind_some]
    rw [gather_tokensOf _ v, gather_itemTokens, writtenItems]
    simp

theorem gather_fieldTokens (stack : List Open) (fields : List (List Piece × Written))
    (name : List Piece) (w : Written) (fs : List (String × Json)) (rest : List Token) :
    gather ⟨.object fields name :: stack, .more w⟩ (fieldTokens fs ++ rest) =
      gather ⟨stack, .more (.object (fields.reverse ++ (name, w) :: writtenFields fs))⟩ rest := by
  match fs with
  | [] =>
    rw [fieldTokens, List.singleton_append, gather_cons]
    simp [Machine.step, writtenFields]
  | (k, v) :: fs =>
    rw [fieldTokens, List.cons_append, List.cons_append, List.cons_append, List.append_assoc]
    simp only [gather_cons, Machine.step, Option.bind_some]
    rw [gather_tokensOf _ v, gather_fieldTokens, writtenFields]
    simp

end

/-- Every value that is written is read as the tree of what was written. -/
theorem read?_render (v : Json) : Written.read? (render v) = some (writtenOf v) := by
  have h := gather_tokensOf [] v []
  rw [List.append_nil] at h
  rw [Written.read?, tokens?_render, Option.bind_some, Written.ofTokens?]
  change (gather _ _).bind _ = _
  rw [h]
  rfl

/-! ## No two values are written alike -/

theorem pieceOf_injective {c d : Char} (h : pieceOf c = pieceOf d) : c = d := by
  unfold pieceOf at h
  split at h <;> split at h
  · exact Char.toNat_inj.mp (Piece.unit.inj h)
  · cases h
  · cases h
  · exact Piece.char.inj h

theorem piecesOf_injective {s t : String} (h : piecesOf s = piecesOf t) : s = t :=
  String.toList_inj.mp (List.map_injective_iff.mpr (fun _ _ => pieceOf_injective) h)

mutual

theorem writtenOf_injective : ∀ {v w : Json}, writtenOf v = writtenOf w → v = w
  | .null, w, h => by cases w <;> first | rfl | cases h
  | .bool b, w, h => by cases w <;> cases h; rfl
  | .number m, w, h => by
    cases w <;> try cases h
    rw [JsonNumber.numeral_injective (Written.number.inj h)]
  | .string s, w, h => by
    cases w <;> try cases h
    rw [piecesOf_injective (Written.string.inj h)]
  | .array vs, w, h => by
    cases w <;> try cases h
    rw [writtenItems_injective (Written.array.inj h)]
  | .object fs, w, h => by
    cases w <;> try cases h
    rw [writtenFields_injective (Written.object.inj h)]

theorem writtenItems_injective : ∀ {vs ws : List Json}, writtenItems vs = writtenItems ws → vs = ws
  | [], [], _ => rfl
  | [], _ :: _, h => by cases h
  | _ :: _, [], h => by cases h
  | v :: vs, w :: ws, h => by
    obtain ⟨hv, hs⟩ := List.cons.inj h
    rw [writtenOf_injective hv, writtenItems_injective hs]

theorem writtenFields_injective : ∀ {fs gs : List (String × Json)},
    writtenFields fs = writtenFields gs → fs = gs
  | [], [], _ => rfl
  | [], _ :: _, h => by cases h
  | _ :: _, [], h => by cases h
  | (k, v) :: fs, (l, w) :: gs, h => by
    obtain ⟨hf, hs⟩ := List.cons.inj h
    obtain ⟨hk, hv⟩ := Prod.mk.inj hf
    rw [piecesOf_injective hk, writtenOf_injective hv, writtenFields_injective hs]

end

/-- The text of a value determines the value. -/
theorem text_injective {v w : Json} (h : v.text = w.text) : v = w := by
  have hr : render v = render w := String.ofList_injective h
  have hw := read?_render v
  rw [hr, read?_render] at hw
  exact writtenOf_injective (Option.some.inj hw).symm

end Accord.Json
