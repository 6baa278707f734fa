import Accord.Proofs.Basic
import Accord.Proofs.Json.Reading
import Accord.Sql.Token

/-! # Texts of lexemes

A lexeme is one of the parts that a statement is written with. It can be written in several ways:
a keyword in capitals and small letters, a name between either of two marks. A text of some lexemes
has blanks or semicolons behind each of them. Whatever the ways that are chosen, such a text is cut
into one token for each lexeme. -/
namespace Accord.Sql

/-- A part of a statement. -/
inductive Lexeme where
  | keyword (k : String)
  | name (s : String)
  | text (s : String)
  | number (n : JsonNumber)
  | mark (c : Char)
  deriving DecidableEq

def keywords : List String :=
  ["CREATE", "TABLE", "IF", "NOT", "EXISTS", "INSERT", "INTO", "VALUES", "SELECT", "FROM", "WHERE",
   "DELETE", "NULL", "TRUE", "FALSE"]

def marks : List Char := ['(', ')', ',', '*', '=', '?']

/-- A character of a text between single quotes. -/
def double (c : Char) : List Char := if c = '\'' then [c, c] else [c]

/-- What may be written for a lexeme. -/
def Lexeme.Spelling : Lexeme → List Char → Prop
  -- each letter is capital or small
  | .keyword k, cs => k ∈ keywords ∧ List.Forall₂ (fun c l => c = l ∨ c = l.toLower) cs k.toList
  -- the mark on both sides does not occur in the name
  | .name s, cs => ∃ q ∈ ['\x60', '"'], q ∉ s.toList ∧ cs = q :: (s.toList ++ [q])
  | .text s, cs => cs = '\'' :: (s.toList.flatMap double ++ ['\''])
  | .number n, cs => cs = n.write
  | .mark c, cs => c ∈ marks ∧ cs = [c]

instance Lexeme.decidableSpelling : (l : Lexeme) → (cs : List Char) → Decidable (l.Spelling cs)
  | .keyword k, cs => inferInstanceAs (Decidable (k ∈ keywords ∧
      List.Forall₂ (fun c l => c = l ∨ c = l.toLower) cs k.toList))
  -- the mark is looked for in the list and not among all characters
  | .name s, cs => List.decidableBEx (fun q => q ∉ s.toList ∧ cs = q :: (s.toList ++ [q])) _
  | .text s, cs => inferInstanceAs (Decidable (cs = '\'' :: (s.toList.flatMap double ++ ['\''])))
  | .number n, cs => inferInstanceAs (Decidable (cs = n.write))
  | .mark c, cs => inferInstanceAs (Decidable (c ∈ marks ∧ cs = [c]))

/-- What separates lexemes. -/
def isGap (c : Char) : Bool := Text.isBlank c || c == ';'

/-- The end of a text, or a gap. -/
def Parted (cs : List Char) : Prop := ∀ c ∈ cs.head?, isGap c = true

/-- A text of some lexemes, with at least one gap between any two of them. -/
inductive Written : List Lexeme → List Char → Prop
  | nil : Written [] []
  | gap {c : Char} {ls : List Lexeme} {cs : List Char} (hc : isGap c = true) (h : Written ls cs) :
      Written ls (c :: cs)
  | lexeme {l : Lexeme} {ls : List Lexeme} {cs rest : List Char} (hl : l.Spelling cs)
      (hr : Parted rest) (h : Written ls rest) : Written (l :: ls) (cs ++ rest)

/-- The tokens that a lexeme may be read as. -/
def Lexeme.ReadAs : Lexeme → Token → Prop
  | .keyword k, t => t.spells k = true
  | .name s, t => t = .word s
  | .text s, t => t = .text s
  | .number n, t => t = .number (String.ofList n.write)
  | .mark c, t => markToken? c = some t

/-! ## Characters -/

/-- The code points of gaps. -/
def gapCodes : List Nat :=
  List.range' 0x9 5 ++ List.range' 0x2000 11 ++
    [0x20, 0x3B, 0x85, 0xA0, 0x1680, 0x2028, 0x2029, 0x202F, 0x205F, 0x3000]

theorem mem_gapCodes {c : Char} (h : isGap c = true) : c.toNat ∈ gapCodes := by
  simp only [isGap, Text.isBlank, Bool.or_eq_true, Bool.and_eq_true, decide_eq_true_eq,
    beq_iff_eq] at h
  rcases h with hblank | hsemicolon
  · simp only [gapCodes, List.mem_append, List.mem_range'_1, List.mem_cons, List.not_mem_nil,
      or_false]
    grind
  · rw [hsemicolon]
    decide

/-- No gap is a letter or a number of any script. -/
theorem not_isAlphanumeric_of_isGap {c : Char} (h : isGap c = true) :
    Text.isAlphanumeric c = false := by
  have hcodes : ∀ n ∈ gapCodes, (Text.alphanumericRanges.any fun range =>
      range.1 ≤ n && n ≤ range.2) = false := by decide +kernel
  exact hcodes c.toNat (mem_gapCodes h)

theorem ne_of_isGap {c d : Char} (h : isGap c = true) (hd : isGap d = false) : c ≠ d := by
  intro hcd
  rw [hcd, hd] at h
  cases h

theorem not_isWordChar_of_isGap {c : Char} (h : isGap c = true) : isWordChar c = false := by
  have hunderscore : c ≠ '_' := ne_of_isGap h rfl
  have hpoint : c ≠ '.' := ne_of_isGap h rfl
  simp [isWordChar, isWordStart, not_isAlphanumeric_of_isGap h, hunderscore, hpoint]

theorem not_isDigit_of_isGap {c : Char} (h : isGap c = true) : c.isDigit = false := by
  have hcodes : ∀ n ∈ gapCodes, ¬ (48 ≤ n ∧ n ≤ 57) := by decide
  have hc := hcodes c.toNat (mem_gapCodes h)
  rw [← Bool.not_eq_true, Char.isDigit_iff_toNat]
  exact hc

theorem not_isNumberChar_of_isGap {c : Char} (h : isGap c = true) : isNumberChar c = false := by
  have hminus : c ≠ '-' := ne_of_isGap h rfl
  have hplus : c ≠ '+' := ne_of_isGap h rfl
  have hpoint : c ≠ '.' := ne_of_isGap h rfl
  have hsmall : c ≠ 'e' := ne_of_isGap h rfl
  have hcapital : c ≠ 'E' := ne_of_isGap h rfl
  simp [isNumberChar, not_isDigit_of_isGap h, hminus, hplus, hpoint, hsmall, hcapital]

theorem isAlphanumeric_of_isAlpha {c : Char} (h : c.isAlpha = true) :
    Text.isAlphanumeric c = true := by
  rw [Text.isAlphanumeric, List.any_eq_true]
  rcases Text.isAlpha_iff_toNat.mp h with hupper | hlower
  · exact ⟨(0x41, 0x5A), by decide, by simp; omega⟩
  · exact ⟨(0x61, 0x7A), by decide, by simp; omega⟩

/-! ## Beginnings of tokens -/

/-- The tokens of a text that is scanned from some point on. -/
def scanFrom (s : Scanner) (cs : List Char) : Except SqlError (List Token) :=
  (cs.foldlM Scanner.step s).bind fun s => s.settle.map List.reverse

theorem scanFrom_cons (s : Scanner) (c : Char) (cs : List Char) :
    scanFrom s (c :: cs) = (s.step c).bind fun t => scanFrom t cs := by
  simp only [scanFrom, List.foldlM_cons]
  cases s.step c <;> rfl

variable (ts : List Token)

theorem scanFrom_begin {c : Char} {s : Scanner} (h : Scanner.begin ts c = .ok s)
    (rest : List Char) : scanFrom ⟨ts, .between⟩ (c :: rest) = scanFrom s rest := by
  rw [scanFrom_cons]
  simp only [Scanner.step, h]
  rfl

theorem begin_gap {c : Char} (h : isGap c = true) : Scanner.begin ts c = .ok ⟨ts, .between⟩ := by
  have hgap : (Text.isBlank c || c == ';') = true := h
  rw [Scanner.begin, if_pos hgap]

theorem begin_mark {c : Char} (h : c ∈ marks) :
    ∃ t, markToken? c = some t ∧ Scanner.begin ts c = .ok ⟨t :: ts, .between⟩ := by
  simp only [marks, List.mem_cons, List.not_mem_nil, or_false] at h
  rcases h with rfl | rfl | rfl | rfl | rfl | rfl <;> exact ⟨_, rfl, rfl⟩

/-- A character with a property that no mark has. -/
theorem markToken?_eq_none (p : Char → Bool) (hp : marks.any p = false) {c : Char}
    (h : p c = true) : markToken? c = none := by
  have hc : c ∉ marks := by
    intro hm
    rw [List.any_eq_true.mpr ⟨c, hm, h⟩] at hp
    cases hp
  unfold markToken?
  split
  case h_7 => rfl
  all_goals exact absurd (by decide) hc

/-- A character that is neither a gap nor a mark. -/
theorem begin_other {c : Char} (hg : isGap c = false) (hm : markToken? c = none)
    (hq : c ≠ '\'') : Scanner.begin ts c =
      if isNumberStart c then .ok ⟨ts, .number [c]⟩
      else if isWordMark c then .ok ⟨ts, .quotedWord c []⟩
      else if isWordStart c then .ok ⟨ts, .word [c]⟩
      else .error (.misplaced c.toString "a statement token") := by
  have hgap : ¬ (Text.isBlank c || c == ';') = true := by
    rw [← isGap, hg]
    exact Bool.false_ne_true
  rw [Scanner.begin, if_neg hgap]
  simp only [hm]
  rw [if_neg (by simpa using hq)]

theorem begin_letter {c : Char} (h : c.isAlpha = true) :
    Scanner.begin ts c = .ok ⟨ts, .word [c]⟩ := by
  have hne {d : Char} (hd : d.isAlpha = false) : c ≠ d := by
    intro hcd
    rw [hcd, hd] at h
    cases h
  have hword := isAlphanumeric_of_isAlpha h
  have hgap : isGap c = false := by
    rw [← Bool.not_eq_true]
    intro hg
    rw [not_isAlphanumeric_of_isGap hg] at hword
    cases hword
  have hmark : markToken? c = none := markToken?_eq_none Char.isAlpha rfl h
  have hdigit : c.isDigit = false := by
    rw [← Bool.not_eq_true]
    intro hd
    have hrange : 48 ≤ c.toNat ∧ c.toNat ≤ 57 := Char.isDigit_iff_toNat.mp hd
    have hletter := Text.isAlpha_iff_toNat.mp h
    omega
  have hnumber : isNumberStart c = false := by
    simp [isNumberStart, hdigit, hne (d := '-') rfl, hne (d := '.') rfl]
  have hquote : isWordMark c = false := by
    simp [isWordMark, hne (d := '\x60') rfl, hne (d := '"') rfl]
  have hstart : isWordStart c = true := by simp [isWordStart, hword]
  rw [begin_other ts hgap hmark (hne rfl), hnumber, hquote, hstart]
  rfl

theorem begin_number {c : Char} (h : (c.isDigit || c == '-') = true) :
    Scanner.begin ts c = .ok ⟨ts, .number [c]⟩ := by
  have hstart : isNumberStart c = true := by
    rw [isNumberStart, h, Bool.true_or]
  have hgap : isGap c = false := by
    rw [← Bool.not_eq_true]
    intro hg
    rw [not_isDigit_of_isGap hg, Bool.false_or, beq_iff_eq] at h
    exact ne_of_isGap hg rfl h
  have hmark : markToken? c = none :=
    markToken?_eq_none (fun d => d.isDigit || d == '-') rfl h
  have hquote : c ≠ '\'' := by
    intro hc
    rw [hc] at h
    cases h
  rw [begin_other ts hgap hmark hquote, if_pos hstart]

/-! ## Ends of tokens -/

/-- A token that is settled by what follows it. -/
theorem scanFrom_settled {s : Scanner} {ts : List Token} (hs : s.settle = .ok ts)
    {rest : List Char} (hr : ∀ c ∈ rest.head?,
      s.step c = s.settle.bind fun tokens => Scanner.begin tokens c) :
    scanFrom s rest = scanFrom ⟨ts, .between⟩ rest := by
  cases rest with
  | nil =>
    rw [scanFrom, scanFrom, List.foldlM_nil, List.foldlM_nil]
    simp only [pure, Except.pure, Except.bind, hs]
    rfl
  | cons c cs =>
    rw [scanFrom_cons, scanFrom_cons, hr c rfl, hs]
    rfl

/-- Words and numbers go on as long as their characters do. -/
theorem scanFrom_run (part : List Char → Scan) (token : String → Token) (belongs : Char → Bool)
    (hsettle : ∀ chars, Scanner.settle ⟨ts, part chars⟩ =
      .ok (token (String.ofList chars.reverse) :: ts))
    (hstep : ∀ chars c, Scanner.step ⟨ts, part chars⟩ c =
      if belongs c then .ok ⟨ts, part (c :: chars)⟩
      else (Scanner.settle ⟨ts, part chars⟩).bind fun tokens => Scanner.begin tokens c)
    {more rest : List Char} (hm : ∀ c ∈ more, belongs c = true)
    (hr : ∀ c ∈ rest.head?, belongs c = false) (chars : List Char) :
    scanFrom ⟨ts, part chars⟩ (more ++ rest) =
      scanFrom ⟨token (String.ofList (chars.reverse ++ more)) :: ts, .between⟩ rest := by
  induction more generalizing chars with
  | nil =>
    rw [List.append_nil]
    refine scanFrom_settled (hsettle chars) ?_
    intro c hc
    rw [hstep, hr c hc]
    rfl
  | cons c more ih =>
    obtain ⟨hc, hmore⟩ := List.forall_mem_cons.mp hm
    rw [List.cons_append, scanFrom_cons, hstep, hc, if_pos rfl]
    simp only [Except.bind]
    rw [ih hmore, List.reverse_cons, List.append_assoc, List.singleton_append]

theorem scanFrom_text {rest : List Char} (hr : Parted rest) (cs chars : List Char) :
    scanFrom ⟨ts, .text chars⟩ (cs.flatMap double ++ '\'' :: rest) =
      scanFrom ⟨.text (String.ofList (chars.reverse ++ cs)) :: ts, .between⟩ rest := by
  induction cs generalizing chars with
  | nil =>
    have hquote : scanFrom ⟨ts, .text chars⟩ ('\'' :: rest) =
        scanFrom ⟨ts, .textQuote chars⟩ rest := scanFrom_cons ..
    rw [List.flatMap_nil, List.nil_append, hquote, List.append_nil]
    refine scanFrom_settled rfl ?_
    intro c hc
    have hne : (c == '\'') = false := beq_false_of_ne (ne_of_isGap (hr c hc) rfl)
    simp only [Scanner.step, hne]
    rfl
  | cons c cs ih =>
    have hstep : scanFrom ⟨ts, .text chars⟩ (double c ++ (cs.flatMap double ++ '\'' :: rest)) =
        scanFrom ⟨ts, .text (c :: chars)⟩ (cs.flatMap double ++ '\'' :: rest) := by
      by_cases hc : c = '\''
      · subst hc
        rfl
      · have hne : (c == '\'') = false := beq_false_of_ne hc
        rw [double, if_neg hc, List.singleton_append, scanFrom_cons]
        simp only [Scanner.step, hne]
        rfl
    rw [List.flatMap_cons, List.append_assoc, hstep, ih, List.reverse_cons, List.append_assoc,
      List.singleton_append]

theorem scanFrom_quotedWord {q : Char} {cs : List Char} (hq : q ∉ cs) (chars rest : List Char) :
    scanFrom ⟨ts, .quotedWord q chars⟩ (cs ++ q :: rest) =
      scanFrom ⟨.word (String.ofList (chars.reverse ++ cs)) :: ts, .between⟩ rest := by
  induction cs generalizing chars with
  | nil =>
    rw [List.nil_append, scanFrom_cons, List.append_nil]
    simp only [Scanner.step, beq_self_eq_true]
    rfl
  | cons c cs ih =>
    rw [List.mem_cons, not_or] at hq
    have hne : (c == q) = false := beq_false_of_ne (Ne.symm hq.1)
    rw [List.cons_append, scanFrom_cons]
    simp only [Scanner.step, hne]
    refine (ih hq.2 (c :: chars)).trans ?_
    rw [List.reverse_cons, List.append_assoc, List.singleton_append]

/-! ## Scanning lexemes -/

theorem upper_of_mem_keywords {k : String} (h : k ∈ keywords) :
    k.toList ≠ [] ∧ ∀ l ∈ k.toList, l.isUpper = true := by
  have hall : ∀ k ∈ keywords, k.toList ≠ [] ∧ ∀ l ∈ k.toList, l.isUpper = true := by
    simp [keywords]
  exact hall k h

/-- A keyword in any mixture of cases is a word of letters, and it is taken for that keyword. -/
theorem spells_of_forall₂ {k : String} {cs : List Char}
    (h : List.Forall₂ (fun c l => c = l ∨ c = l.toLower) cs k.toList) :
    (Token.word (String.ofList cs)).spells k = true := by
  have hlower : cs.map Char.toLower = k.toList.map Char.toLower := by
    rw [← List.forall₂_eq_eq_eq, List.forall₂_map_left_iff, List.forall₂_map_right_iff]
    refine h.imp ?_
    intro c l hcl
    rcases hcl with rfl | rfl
    · rfl
    · exact Char.toLower_toLower_eq_toLower l
  rw [Token.spells, Text.sameKeyword, String.toList_ofList, hlower]
  exact beq_self_eq_true _

theorem isAlpha_of_forall₂ {ls cs : List Char} (hl : ∀ l ∈ ls, l.isUpper = true)
    (h : List.Forall₂ (fun c l => c = l ∨ c = l.toLower) cs ls) : ∀ c ∈ cs, c.isAlpha = true := by
  induction h with
  | nil => exact List.forall_mem_nil _
  | @cons c l _ _ hcl _ ih =>
    obtain ⟨hupper, hls⟩ := List.forall_mem_cons.mp hl
    have halpha : l.isAlpha = true := by rw [Char.isAlpha, hupper, Bool.true_or]
    refine List.forall_mem_cons.mpr ⟨?_, ih hls⟩
    rcases hcl with rfl | rfl
    · exact halpha
    · rw [Char.isAlpha_toLower_eq_isAlpha]
      exact halpha

theorem scanFrom_keyword {k : String} {cs rest : List Char} (hk : k ∈ keywords)
    (h : List.Forall₂ (fun c l => c = l ∨ c = l.toLower) cs k.toList) (hr : Parted rest) :
    scanFrom ⟨ts, .between⟩ (cs ++ rest) =
      scanFrom ⟨.word (String.ofList cs) :: ts, .between⟩ rest := by
  obtain ⟨hne, hupper⟩ := upper_of_mem_keywords hk
  have hletters := isAlpha_of_forall₂ hupper h
  cases cs with
  | nil => exact absurd (List.forall₂_nil_left_iff.mp h) hne
  | cons c cs =>
    obtain ⟨hc, hcs⟩ := List.forall_mem_cons.mp hletters
    have hword : ∀ d ∈ cs, isWordChar d = true := by
      intro d hd
      simp [isWordChar, isWordStart, isAlphanumeric_of_isAlpha (hcs d hd)]
    rw [List.cons_append, scanFrom_begin ts (begin_letter ts hc),
      scanFrom_run ts .word .word isWordChar (fun _ => rfl) (fun _ _ => rfl) hword
        fun d hd => not_isWordChar_of_isGap (hr d hd)]
    rfl

theorem scanFrom_number (n : JsonNumber) {rest : List Char} (hr : Parted rest) :
    scanFrom ⟨ts, .between⟩ (n.write ++ rest) =
      scanFrom ⟨.number (String.ofList n.write) :: ts, .between⟩ rest := by
  obtain ⟨c, cs, hwrite, hc⟩ := Json.head_number n
  have hnumber : ∀ d ∈ cs, isNumberChar d = true := by
    intro d hd
    have hmem : d ∈ n.write := hwrite ▸ List.mem_cons_of_mem c hd
    exact Json.isNumeralChar_of_mem_number hmem
  rw [hwrite, List.cons_append, scanFrom_begin ts (begin_number ts hc),
    scanFrom_run ts .number .number isNumberChar (fun _ => rfl) (fun _ _ => rfl) hnumber
      fun d hd => not_isNumberChar_of_isGap (hr d hd)]
  rfl

/-- A lexeme in front of a gap is cut off as one token. -/
theorem scanFrom_lexeme {l : Lexeme} {cs rest : List Char} (h : l.Spelling cs)
    (hr : Parted rest) : ∃ t, l.ReadAs t ∧
      scanFrom ⟨ts, .between⟩ (cs ++ rest) = scanFrom ⟨t :: ts, .between⟩ rest := by
  cases l with
  | keyword k => exact ⟨_, spells_of_forall₂ h.2, scanFrom_keyword ts h.1 h.2 hr⟩
  | name s =>
    obtain ⟨q, hq, hs, rfl⟩ := h
    have hbegin : Scanner.begin ts q = .ok ⟨ts, .quotedWord q []⟩ := by
      rcases List.mem_pair.mp hq with rfl | rfl <;> rfl
    refine ⟨.word s, rfl, ?_⟩
    rw [List.cons_append, List.append_assoc, List.singleton_append, scanFrom_begin ts hbegin,
      scanFrom_quotedWord ts hs, List.reverse_nil, List.nil_append, String.ofList_toList]
  | text s =>
    obtain rfl := h
    refine ⟨.text s, rfl, ?_⟩
    rw [List.cons_append, List.append_assoc, List.singleton_append,
      scanFrom_begin ts (s := ⟨ts, .text []⟩) rfl, scanFrom_text ts hr, List.reverse_nil,
      List.nil_append, String.ofList_toList]
  | number n =>
    obtain rfl := h
    exact ⟨_, rfl, scanFrom_number ts n hr⟩
  | mark c =>
    obtain ⟨hc, rfl⟩ := h
    obtain ⟨t, ht, hbegin⟩ := begin_mark ts hc
    exact ⟨t, ht, scanFrom_begin ts hbegin rest⟩

theorem scanFrom_written {ls : List Lexeme} {cs : List Char} (h : Written ls cs) :
    ∃ read, List.Forall₂ Lexeme.ReadAs ls read ∧
      scanFrom ⟨ts, .between⟩ cs = .ok (ts.reverse ++ read) := by
  induction h generalizing ts with
  | nil =>
    refine ⟨[], .nil, ?_⟩
    rw [List.append_nil]
    rfl
  | gap hc _ ih =>
    obtain ⟨read, hread, hscan⟩ := ih ts
    exact ⟨read, hread, (scanFrom_begin ts (begin_gap ts hc) _).trans hscan⟩
  | lexeme hl hr _ ih =>
    obtain ⟨t, ht, hlexeme⟩ := scanFrom_lexeme ts hl hr
    obtain ⟨read, hread, hscan⟩ := ih (t :: ts)
    refine ⟨t :: read, .cons ht hread, ?_⟩
    rw [hlexeme, hscan, List.reverse_cons, List.append_assoc, List.singleton_append]

/-- A text of some lexemes has one token for each of them. -/
theorem tokenize_written {ls : List Lexeme} {cs : List Char} (h : Written ls cs) :
    ∃ read, List.Forall₂ Lexeme.ReadAs ls read ∧ tokenize cs = .ok read :=
  scanFrom_written [] h

/-! ## Every lexeme can be written -/

/-- A name that one of the two marks does not occur in; keywords and marks are those of
statements. -/
def Lexeme.isWritable : Lexeme → Bool
  | .keyword k => keywords.contains k
  | .name s => !s.toList.contains '\x60' || !s.toList.contains '"'
  | .mark c => marks.contains c
  | _ => true

theorem Lexeme.exists_spelling {l : Lexeme} (h : l.isWritable = true) : ∃ cs, l.Spelling cs := by
  cases l with
  | keyword k =>
    have hsame : List.Forall₂ (fun c l : Char => c = l ∨ c = l.toLower) k.toList k.toList :=
      List.forall₂_same.mpr fun c _ => .inl rfl
    exact ⟨k.toList, by simpa [isWritable] using h, hsame⟩
  | name s =>
    simp only [isWritable, Bool.or_eq_true, Bool.not_eq_true', List.contains_eq_mem,
      decide_eq_false_iff_not] at h
    rcases h with hs | hs
    · exact ⟨_, '\x60', by simp, hs, rfl⟩
    · exact ⟨_, '"', by simp, hs, rfl⟩
  | text s => exact ⟨_, rfl⟩
  | number n => exact ⟨_, rfl⟩
  | mark c => exact ⟨_, by simpa [isWritable] using h, rfl⟩

/-- A lexeme and the gaps behind it. -/
def Spaced (l : Lexeme) (piece : List Char × List Char) : Prop :=
  l.Spelling piece.1 ∧ piece.2 ≠ [] ∧ piece.2.all isGap = true

instance (l : Lexeme) (piece : List Char × List Char) : Decidable (Spaced l piece) :=
  inferInstanceAs (Decidable (l.Spelling piece.1 ∧ piece.2 ≠ [] ∧ piece.2.all isGap = true))

theorem Written.gaps {ls : List Lexeme} {gaps cs : List Char} (hg : gaps.all isGap = true)
    (h : Written ls cs) : Written ls (gaps ++ cs) := by
  induction gaps with
  | nil => exact h
  | cons c gaps ih =>
    simp only [List.all_cons, Bool.and_eq_true] at hg
    exact .gap hg.1 (ih hg.2)

theorem written_pieces {ls : List Lexeme} {pieces : List (List Char × List Char)}
    (h : List.Forall₂ Spaced ls pieces) : Written ls (pieces.flatMap fun p => p.1 ++ p.2) := by
  induction h with
  | nil => exact .nil
  | @cons l piece ls pieces hl _ ih =>
    obtain ⟨hspelling, hne, hgaps⟩ := hl
    rw [List.flatMap_cons, List.append_assoc]
    refine .lexeme hspelling ?_ (.gaps hgaps ih)
    intro c hc
    rw [List.head?_append_of_ne_nil _ hne] at hc
    exact List.all_eq_true.mp hgaps c (List.mem_of_mem_head? hc)

theorem exists_written {ls : List Lexeme} (h : ∀ l ∈ ls, l.isWritable = true) :
    ∃ cs, Written ls cs := by
  have hpieces : ∃ pieces, List.Forall₂ Spaced ls pieces := by
    induction ls with
    | nil => exact ⟨[], .nil⟩
    | cons l ls ih =>
      obtain ⟨hl, hls⟩ := List.forall_mem_cons.mp h
      obtain ⟨cs, hcs⟩ := Lexeme.exists_spelling hl
      obtain ⟨pieces, hpieces⟩ := ih hls
      exact ⟨(cs, [' ']) :: pieces, .cons ⟨hcs, by simp, rfl⟩ hpieces⟩
  obtain ⟨pieces, hpieces⟩ := hpieces
  exact ⟨_, written_pieces hpieces⟩

end Accord.Sql
