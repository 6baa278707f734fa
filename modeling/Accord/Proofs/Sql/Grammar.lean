import Accord.Proofs.Json.Value
import Accord.Proofs.Sql.Lexemes
import Accord.Proofs.Sql.Placeholders

/-! # The grammar of statements

`Statement.lexemes` says what a statement is written with. Each function of the parser takes the
tokens of its own lexemes and leaves those of the lexemes behind them, so a text of a statement is
read as that statement. Quoted names are words like keywords, but the parser asks for a keyword only
where no name can stand, with one exception: a table called like the first word of the clause on
absence. -/
namespace Accord

/-- The text of a number is read as that number. -/
def JsonNumber.ReadsBack (n : JsonNumber) : Prop :=
  Json.ofText? (Json.text (.number n)) = some (.number n)

theorem JsonNumber.ReadsBack.value? {n : JsonNumber} (h : n.ReadsBack) :
    (Json.readNumeral n.write).bind Json.Numeral.value? = some n := by
  rw [n.readNumeral_write, Option.bind_some, Json.numeral_value?_of_ofText? h]

namespace Sql

/-! ## Lexemes of statements -/

/-- Lexemes with commas between them. -/
def listed (ls : List Lexeme) : List Lexeme := ls.intersperse (.mark ',')

/-- The lexeme of an operand. Arrays and objects have none. -/
def Operand.lexeme? : Operand → Option Lexeme
  | .placeholder _ => some (.mark '?')
  | .literal .null => some (.keyword "NULL")
  | .literal (.bool true) => some (.keyword "TRUE")
  | .literal (.bool false) => some (.keyword "FALSE")
  | .literal (.number n) => some (.number n)
  | .literal (.string s) => some (.text s)
  | .literal (.array _) => none
  | .literal (.object _) => none

def Filter.lexemes (f : Filter) : List Lexeme :=
  [.keyword "WHERE", .name f.column, .mark '='] ++ f.value.lexeme?.toList

def Projection.lexemes : Projection → List Lexeme
  | .all => [.mark '*']
  | .columns names => listed (names.map .name)

namespace Statement

/-- The lexemes of a statement, from left to right. -/
def lexemes : Statement → List Lexeme
  | .create table columns ifAbsent =>
    [.keyword "CREATE", .keyword "TABLE"] ++
      (if ifAbsent then [.keyword "IF", .keyword "NOT", .keyword "EXISTS"] else []) ++
      [.name table, .mark '('] ++ listed (columns.map .name) ++ [.mark ')']
  | .insert table columns values =>
    [.keyword "INSERT", .keyword "INTO", .name table, .mark '('] ++ listed (columns.map .name) ++
      [.mark ')', .keyword "VALUES", .mark '('] ++ listed (values.filterMap Operand.lexeme?) ++
      [.mark ')']
  | .select table projection filter =>
    [.keyword "SELECT"] ++ projection.lexemes ++ [.keyword "FROM", .name table] ++
      filter.toList.flatMap Filter.lexemes
  | .delete table filter =>
    [.keyword "DELETE", .keyword "FROM", .name table] ++ filter.toList.flatMap Filter.lexemes

/-- The texts of a statement. -/
def WrittenAs (s : Statement) (sql : String) : Prop := Written s.lexemes sql.toList

/-- A statement whose parts fit together. Without the clause on absence a table must not be called
like the first word of that clause. -/
def isComplete : Statement → Bool
  | .create table _ ifAbsent => ifAbsent || !(["IF", "If", "iF", "if"].contains table)
  | .insert _ columns values => columns.length == values.length && !columns.isEmpty
  | .select _ (.columns names) _ => !names.isEmpty
  | _ => true

/-- A statement that the grammar has. -/
structure Grammatical (s : Statement) : Prop where
  /-- One of the two marks does not occur in a name. -/
  names : ∀ name, .name name ∈ s.lexemes → '\x60' ∉ name.toList ∨ '"' ∉ name.toList
  complete : s.isComplete = true
  literals : ∀ v, .literal v ∈ s.operands → v.isScalar = true
  numbers : ∀ n, .literal (.number n) ∈ s.operands → n.ReadsBack
  /-- Placeholders are numbered from left to right. -/
  placeholders : s.placeholders = List.range s.placeholders.length

end Statement

/-! ## Keywords, names and marks -/

/-- Tokens that were read for some lexemes. -/
abbrev Carried (ls : List Lexeme) (ts : List Token) : Prop := List.Forall₂ Lexeme.ReadAs ls ts

variable {ls : List Lexeme} {ts : List Token}

theorem keyword_carried {k : String} (h : Carried (.keyword k :: ls) ts) :
    ∃ rest, keyword k ts = .ok rest ∧ Carried ls rest := by
  obtain ⟨t, rest, ht, hrest, rfl⟩ := List.forall₂_cons_left_iff.mp h
  exact ⟨rest, if_pos ht, hrest⟩

theorem mark_carried {c : Char} {t : Token} (hc : markToken? c = some t)
    (h : Carried (.mark c :: ls) ts) : ∃ rest, ts = t :: rest ∧ Carried ls rest := by
  obtain ⟨u, rest, hu, hrest, rfl⟩ := List.forall₂_cons_left_iff.mp h
  obtain rfl : t = u := Option.some.inj (hc.symm.trans hu)
  exact ⟨rest, rfl, hrest⟩

theorem name_carried {s : String} (h : Carried (.name s :: ls) ts) :
    ∃ rest, ts = .word s :: rest ∧ Carried ls rest := by
  obtain ⟨t, rest, rfl, hrest, rfl⟩ := List.forall₂_cons_left_iff.mp h
  exact ⟨rest, rfl, hrest⟩

theorem exists_word_of_spells {t : Token} {k : String} (h : t.spells k = true) :
    ∃ w, t = .word w ∧ Text.sameKeyword w k = true := by
  cases t with
  | word w => exact ⟨w, rfl, h⟩
  | _ => cases h

/-- A word is at most one keyword. -/
theorem not_sameKeyword {w k l : String} (h : Text.sameKeyword w k = true)
    (hne : Text.sameKeyword k l = false) : Text.sameKeyword w l = false := by
  simp only [Text.sameKeyword, beq_iff_eq] at h
  rw [Text.sameKeyword, h]
  exact hne

/-! ## Lists of names -/

/-- The tokens of names with commas between them. -/
def nameTokens (names : List String) : List Token := (names.map Token.word).intersperse .comma

theorem names_carried (names : List String)
    (h : Carried (listed (names.map .name) ++ ls) ts) :
    ∃ rest, ts = nameTokens names ++ rest ∧ Carried ls rest := by
  induction names generalizing ts with
  | nil => exact ⟨ts, rfl, h⟩
  | cons name names ih =>
    cases names with
    | nil =>
      obtain ⟨rest, rfl, hrest⟩ := name_carried h
      exact ⟨rest, rfl, hrest⟩
    | cons next names =>
      obtain ⟨behind, rfl, hcomma⟩ := name_carried h
      obtain ⟨tail, rfl, hnext⟩ := mark_carried rfl hcomma
      obtain ⟨rest, rfl, hrest⟩ := ih hnext
      exact ⟨rest, rfl, hrest⟩

theorem columnDefinitions_names (names : List String) (rest : List Token) :
    columnDefinitions 0 true (nameTokens names ++ .closeParen :: rest) = .ok (names, rest) := by
  induction names with
  | nil => rfl
  | cons name names ih =>
    cases names with
    | nil => rfl
    | cons next names =>
      show (columnDefinitions 0 true (nameTokens (next :: names) ++ _)).map _ = _
      rw [ih]
      rfl

theorem columnNames_names {names : List String} (h : names ≠ []) (rest : List Token) :
    columnNames (nameTokens names ++ .closeParen :: rest) = .ok (names, rest) := by
  induction names with
  | nil => exact absurd rfl h
  | cons name names ih =>
    cases names with
    | nil => rfl
    | cons next names =>
      show (columnNames (nameTokens (next :: names) ++ _)).map _ = _
      rw [ih (List.cons_ne_nil next names)]
      rfl

theorem selectedNames_names {names : List String} (h : names ≠ []) (w : String)
    (rest : List Token) :
    selectedNames (nameTokens names ++ .word w :: rest) = .ok (names, .word w :: rest) := by
  induction names with
  | nil => exact absurd rfl h
  | cons name names ih =>
    cases names with
    | nil => rfl
    | cons next names =>
      show (selectedNames (nameTokens (next :: names) ++ _)).map _ = _
      rw [ih (List.cons_ne_nil next names)]
      rfl

/-! ## Operands -/

theorem Operand.lexeme?_isSome {o : Operand} (h : ∀ v, o = .literal v → v.isScalar = true) :
    ∃ l, o.lexeme? = some l := by
  cases o with
  | placeholder index => exact ⟨_, rfl⟩
  | literal v =>
    have hv := h v rfl
    cases v with
    | array items => cases hv
    | object fields => cases hv
    | bool b => cases b <;> exact ⟨_, rfl⟩
    | _ => exact ⟨_, rfl⟩

/-- An operand is read with the number of its placeholder. -/
theorem operand_carried {index next : Nat} {o : Operand} {l : Lexeme} {t : Token}
    (hn : Numbered index [o] next) (hf : ∀ n, o = .literal (.number n) → n.ReadsBack)
    (hl : o.lexeme? = some l) (ht : l.ReadAs t) : operand index t = .ok (o, next) := by
  cases o with
  | placeholder i =>
    cases hl
    cases ht
    have hle := hn.le
    have hindices : [i] = List.range' index (next - index) := hn.indices
    have hlength : next - index = 1 := by simpa using (congrArg List.length hindices).symm
    obtain rfl : next = index + 1 := by omega
    rw [hlength] at hindices
    cases hindices
    rfl
  | literal v =>
    obtain rfl := hn.eq_of_indices_nil rfl
    cases v with
    | null =>
      cases hl
      obtain ⟨w, rfl, hw⟩ := exists_word_of_spells ht
      exact if_pos hw
    | bool b =>
      cases b with
      | true =>
        cases hl
        obtain ⟨w, rfl, hw⟩ := exists_word_of_spells ht
        simp [operand, hw, not_sameKeyword hw (l := "NULL") rfl]
      | false =>
        cases hl
        obtain ⟨w, rfl, hw⟩ := exists_word_of_spells ht
        simp [operand, hw, not_sameKeyword hw (l := "NULL") rfl,
          not_sameKeyword hw (l := "TRUE") rfl]
    | number n =>
      cases hl
      cases ht
      simp only [operand, String.toList_ofList, (hf n rfl).value?]
    | string s =>
      cases hl
      cases ht
      rfl
    | array items => cases hl
    | object fields => cases hl

theorem operands_carried {index next : Nat} {values : List Operand} (hne : values ≠ [])
    (hn : Numbered index values next) (hf : ∀ n, .literal (.number n) ∈ values → n.ReadsBack)
    (h : Carried (listed (values.filterMap Operand.lexeme?) ++ .mark ')' :: ls) ts) :
    ∃ rest, operands index ts = .ok ((values, next), rest) ∧ Carried ls rest := by
  induction values generalizing index ts with
  | nil => exact absurd rfl hne
  | cons o os ih =>
    obtain ⟨l, hl⟩ := Operand.lexeme?_isSome (o := o) fun v hv =>
      hn.scalar v (hv ▸ List.mem_cons_self)
    obtain ⟨middle, ho, hos⟩ := hn.uncons
    have hfo : ∀ n, o = .literal (.number n) → n.ReadsBack := fun n hn =>
      hf n (hn ▸ List.mem_cons_self)
    rw [List.filterMap_cons_some hl] at h
    cases os with
    | nil =>
      obtain ⟨t, tail, ht, htail, rfl⟩ := List.forall₂_cons_left_iff.mp h
      obtain ⟨rest, rfl, hrest⟩ := mark_carried rfl htail
      obtain rfl := hos.eq_of_indices_nil rfl
      refine ⟨rest, ?_, hrest⟩
      simp only [operands, operand_carried ho hfo hl ht]
      rfl
    | cons p os =>
      -- only a second lexeme brings the comma that the parser looks for
      obtain ⟨m, hm⟩ := Operand.lexeme?_isSome (o := p) fun v hv =>
        hos.scalar v (hv ▸ List.mem_cons_self)
      rw [List.filterMap_cons_some hm] at h ih
      obtain ⟨t, tail, ht, htail, rfl⟩ := List.forall₂_cons_left_iff.mp h
      obtain ⟨behind, rfl, hbehind⟩ := mark_carried rfl htail
      obtain ⟨rest, hoperands, hrest⟩ := ih (List.cons_ne_nil p os) hos
        (fun n hn => hf n (List.mem_cons_of_mem o hn)) hbehind
      refine ⟨rest, ?_, hrest⟩
      simp only [operands, operand_carried ho hfo hl ht]
      show (operands middle behind >>= _) = _
      rw [hoperands]
      rfl

/-! ## Statements -/

theorem filter_carried {filter? : Option Filter} {count : Nat}
    (hn : Numbered 0 (filter?.toList.map (·.value)) count)
    (hf : ∀ n, .literal (.number n) ∈ filter?.toList.map (·.value) → n.ReadsBack)
    (h : Carried (filter?.toList.flatMap Filter.lexemes) ts) :
    filter ts = .ok ((filter?, count), []) := by
  cases filter? with
  | none =>
    obtain rfl := List.forall₂_nil_left_iff.mp h
    obtain rfl := hn.eq_of_indices_nil rfl
    rfl
  | some f =>
    obtain ⟨column, value⟩ := f
    obtain ⟨l, hl⟩ := Operand.lexeme?_isSome (o := value) fun v hv =>
      hn.scalar v (hv ▸ List.mem_cons_self)
    have hvalue : ∀ n, value = .literal (.number n) → n.ReadsBack := fun n hv =>
      hf n (hv ▸ List.mem_cons_self)
    simp only [Option.toList_some, List.flatMap_singleton, Filter.lexemes, hl] at h
    obtain ⟨t, behind, ht, hname, rfl⟩ := List.forall₂_cons_left_iff.mp h
    obtain ⟨tail, rfl, hequals⟩ := name_carried hname
    obtain ⟨rest, rfl, hrest⟩ := mark_carried rfl hequals
    obtain ⟨u, last, hu, hlast, rfl⟩ := List.forall₂_cons_left_iff.mp hrest
    obtain rfl := List.forall₂_nil_left_iff.mp hlast
    have hkeyword : t.spells "WHERE" = true := ht
    simp only [filter, isKeywordNext, keyword, if_pos hkeyword]
    show (operand 0 u >>= _) = _
    rw [operand_carried hn hvalue hl hu]
    rfl

theorem projection_carried {p : Projection} {k : String}
    (hp : ∀ names, p = .columns names → names ≠ [])
    (h : Carried (p.lexemes ++ .keyword k :: ls) ts) :
    ∃ rest, projection ts = .ok (p, rest) ∧ Carried (.keyword k :: ls) rest := by
  cases p with
  | all =>
    obtain ⟨rest, rfl, hrest⟩ := mark_carried rfl h
    exact ⟨rest, rfl, hrest⟩
  | columns names =>
    obtain ⟨rest, rfl, hrest⟩ := names_carried names h
    obtain ⟨t, behind, ht, hbehind, rfl⟩ := List.forall₂_cons_left_iff.mp hrest
    obtain ⟨w, rfl, hw⟩ := exists_word_of_spells ht
    refine ⟨_, ?_, hrest⟩
    cases names with
    | nil => exact absurd rfl (hp [] rfl)
    | cons name names =>
      have hselected := selectedNames_names (hp _ rfl) w behind
      cases names with
      | nil => rfl
      | cons next names =>
        show (selectedNames (nameTokens (name :: next :: names) ++ _)).map _ = _
        rw [hselected]
        rfl

theorem eq_or_eq_toUpper {c l : Char} (h : c.toLower = l) : c = l ∨ c = l.toUpper := by
  subst h
  rw [Char.toUpper_toLower_eq_toUpper]
  by_cases hc : c.isUpper = true
  · exact .inr (Char.toUpper_eq_of_not_isLower (Char.not_isLower_of_isUpper hc)).symm
  · exact .inl (Char.toLower_eq_of_not_isUpper hc).symm

/-- The spellings of a word of two letters. -/
theorem mem_of_sameKeyword_if {w : String} (h : Text.sameKeyword w "IF" = true) :
    w ∈ ["IF", "If", "iF", "if"] := by
  have hletters : w.toList.map Char.toLower = ['i', 'f'] := eq_of_beq h
  obtain ⟨i, rest, hw, hi, hrest⟩ := List.map_eq_cons_iff.mp hletters
  obtain ⟨f, last, rfl, hf, hlast⟩ := List.map_eq_cons_iff.mp hrest
  obtain rfl := List.map_eq_nil_iff.mp hlast
  rw [← String.ofList_toList (s := w), hw]
  obtain rfl | rfl := eq_or_eq_toUpper hi <;> obtain rfl | rfl := eq_or_eq_toUpper hf <;> decide

/-- A table and the names of its columns. -/
theorem definition_carried {table : String} {columns : List String}
    (h : Carried (.name table :: .mark '(' :: (listed (columns.map .name) ++ [.mark ')'])) ts) :
    ts = .word table :: .openParen :: (nameTokens columns ++ [.closeParen]) := by
  obtain ⟨behind, rfl, hopen⟩ := name_carried h
  obtain ⟨tail, rfl, hcolumns⟩ := mark_carried rfl hopen
  obtain ⟨rest, rfl, hclose⟩ := names_carried columns hcolumns
  obtain ⟨last, rfl, hlast⟩ := mark_carried rfl hclose
  obtain rfl := List.forall₂_nil_left_iff.mp hlast
  rfl

theorem leadingStatement_create {t : Token} (h : t.spells "CREATE" = true) (rest : List Token) :
    leadingStatement (t :: rest) = create rest := if_pos h

theorem leadingStatement_insert {t : Token} (h : t.spells "INSERT" = true) (rest : List Token) :
    leadingStatement (t :: rest) = insert rest := by
  obtain ⟨w, rfl, hw⟩ := exists_word_of_spells h
  simp [leadingStatement, Token.spells, hw, not_sameKeyword hw (l := "CREATE") rfl]

theorem leadingStatement_select {t : Token} (h : t.spells "SELECT" = true) (rest : List Token) :
    leadingStatement (t :: rest) = select rest := by
  obtain ⟨w, rfl, hw⟩ := exists_word_of_spells h
  simp [leadingStatement, Token.spells, hw, not_sameKeyword hw (l := "CREATE") rfl,
    not_sameKeyword hw (l := "INSERT") rfl]

theorem leadingStatement_delete {t : Token} (h : t.spells "DELETE" = true) (rest : List Token) :
    leadingStatement (t :: rest) = delete rest := by
  obtain ⟨w, rfl, hw⟩ := exists_word_of_spells h
  simp [leadingStatement, Token.spells, hw, not_sameKeyword hw (l := "CREATE") rfl,
    not_sameKeyword hw (l := "INSERT") rfl, not_sameKeyword hw (l := "SELECT") rfl]

theorem create_carried {table : String} {columns : List String} {ifAbsent : Bool}
    (hc : (Statement.create table columns ifAbsent).isComplete = true)
    (h : Carried (Statement.create table columns ifAbsent).lexemes ts) :
    leadingStatement ts = .ok ((.create table columns ifAbsent, 0), []) := by
  cases ifAbsent with
  | true =>
    simp only [Statement.lexemes, if_true, List.cons_append, List.nil_append] at h
    obtain ⟨t, _, ht, hrest, rfl⟩ := List.forall₂_cons_left_iff.mp h
    obtain ⟨_, htable, hclause⟩ := keyword_carried hrest
    -- the parser looks at this word before it takes it
    obtain ⟨u, behind, hu, hnot, rfl⟩ := List.forall₂_cons_left_iff.mp hclause
    obtain ⟨_, hnot, hexists⟩ := keyword_carried hnot
    obtain ⟨_, hexists, hdefinition⟩ := keyword_carried hexists
    obtain rfl := definition_carried hdefinition
    have hnext : isKeywordNext "IF" (u :: behind) = true := hu
    have hif : keyword "IF" (u :: behind) = .ok behind := if_pos hu
    rw [leadingStatement_create ht]
    simp only [create, htable, hnext, hif, if_true, bind, Except.bind, hnot, hexists, identifier, mark,
      columnDefinitions_names]
    rfl
  | false =>
    simp only [Statement.lexemes, Bool.false_eq_true, if_false, List.cons_append,
      List.nil_append] at h
    obtain ⟨t, _, ht, hrest, rfl⟩ := List.forall₂_cons_left_iff.mp h
    obtain ⟨_, htable, hdefinition⟩ := keyword_carried hrest
    obtain rfl := definition_carried hdefinition
    have hif : Text.sameKeyword table "IF" = false := by
      rw [← Bool.not_eq_true]
      intro hif
      have hcontains := List.contains_iff_mem.mpr (mem_of_sameKeyword_if hif)
      simp only [Statement.isComplete, hcontains, Bool.false_or, Bool.not_true] at hc
      cases hc
    rw [leadingStatement_create ht]
    simp only [create, htable, isKeywordNext, Token.spells, hif, Bool.false_eq_true, if_false, bind,
      Except.bind, identifier, mark, if_true, columnDefinitions_names]
    rfl

theorem insert_carried {table : String} {columns : List String} {values : List Operand}
    {count : Nat} (hc : (Statement.insert table columns values).isComplete = true)
    (hn : Numbered 0 values count) (hf : ∀ n, .literal (.number n) ∈ values → n.ReadsBack)
    (h : Carried (Statement.insert table columns values).lexemes ts) :
    leadingStatement ts = .ok ((.insert table columns values, count), []) := by
  simp only [Statement.isComplete, Bool.and_eq_true, beq_iff_eq, Bool.not_eq_true',
    List.isEmpty_eq_false_iff] at hc
  obtain ⟨hlength, hcolumns⟩ := hc
  have hvalues : values ≠ [] := by
    intro hnil
    rw [hnil, List.length_nil, List.length_eq_zero_iff] at hlength
    exact hcolumns hlength
  simp only [Statement.lexemes, List.append_assoc, List.cons_append, List.nil_append] at h
  obtain ⟨t, _, ht, hrest, rfl⟩ := List.forall₂_cons_left_iff.mp h
  obtain ⟨_, hinto, hname⟩ := keyword_carried hrest
  obtain ⟨_, rfl, hopen⟩ := name_carried hname
  obtain ⟨_, rfl, hnames⟩ := mark_carried rfl hopen
  obtain ⟨_, rfl, hclose⟩ := names_carried columns hnames
  obtain ⟨_, rfl, hword⟩ := mark_carried rfl hclose
  obtain ⟨_, hword, hopen⟩ := keyword_carried hword
  obtain ⟨_, rfl, hoperands⟩ := mark_carried rfl hopen
  obtain ⟨_, hoperands, hlast⟩ := operands_carried hvalues hn hf hoperands
  obtain rfl := List.forall₂_nil_left_iff.mp hlast
  rw [leadingStatement_insert ht]
  simp only [insert, hinto, identifier, mark, if_true, bind, Except.bind,
    columnNames_names hcolumns, hword, hoperands, hlength]
  rfl

theorem select_carried {table : String} {p : Projection} {filter? : Option Filter} {count : Nat}
    (hc : (Statement.select table p filter?).isComplete = true)
    (hn : Numbered 0 (filter?.toList.map (·.value)) count)
    (hf : ∀ n, .literal (.number n) ∈ filter?.toList.map (·.value) → n.ReadsBack)
    (h : Carried (Statement.select table p filter?).lexemes ts) :
    leadingStatement ts = .ok ((.select table p filter?, count), []) := by
  have hp : ∀ names, p = .columns names → names ≠ [] := by
    intro names hp
    subst hp
    simpa [Statement.isComplete] using hc
  simp only [Statement.lexemes, List.append_assoc, List.cons_append, List.nil_append] at h
  obtain ⟨t, _, ht, hrest, rfl⟩ := List.forall₂_cons_left_iff.mp h
  obtain ⟨_, hprojection, hfrom⟩ := projection_carried hp hrest
  obtain ⟨_, hfrom, hname⟩ := keyword_carried hfrom
  obtain ⟨_, rfl, hfilter⟩ := name_carried hname
  rw [leadingStatement_select ht]
  simp only [select, hprojection, hfrom, identifier, bind, Except.bind, filter_carried hn hf hfilter]
  rfl

theorem delete_carried {table : String} {filter? : Option Filter} {count : Nat}
    (hn : Numbered 0 (filter?.toList.map (·.value)) count)
    (hf : ∀ n, .literal (.number n) ∈ filter?.toList.map (·.value) → n.ReadsBack)
    (h : Carried (Statement.delete table filter?).lexemes ts) :
    leadingStatement ts = .ok ((.delete table filter?, count), []) := by
  simp only [Statement.lexemes, List.cons_append, List.nil_append] at h
  obtain ⟨t, _, ht, hrest, rfl⟩ := List.forall₂_cons_left_iff.mp h
  obtain ⟨_, hfrom, hname⟩ := keyword_carried hrest
  obtain ⟨_, rfl, hfilter⟩ := name_carried hname
  rw [leadingStatement_delete ht]
  simp only [delete, hfrom, identifier, bind, Except.bind, filter_carried hn hf hfilter]
  rfl

namespace Statement

theorem Grammatical.numbered {s : Statement} (h : s.Grammatical) :
    Numbered 0 s.operands s.placeholders.length where
  le := Nat.zero_le _
  indices := by
    rw [Nat.sub_zero, ← List.range_eq_range']
    exact h.placeholders
  scalar := h.literals

theorem Grammatical.leadingStatement_carried {s : Statement} (hs : s.Grammatical)
    (h : Carried s.lexemes ts) : leadingStatement ts = .ok ((s, s.placeholders.length), []) := by
  have hn := hs.numbered
  cases s with
  | create table columns ifAbsent => exact create_carried hs.complete h
  | insert table columns values => exact insert_carried hs.complete hn hs.numbers h
  | select table projection filter => exact select_carried hs.complete hn hs.numbers h
  | delete table filter => exact delete_carried hn hs.numbers h

/-- Every text of a statement is parsed as that statement. -/
theorem Grammatical.parse_writtenAs {s : Statement} (hs : s.Grammatical) {sql : String}
    (h : s.WrittenAs sql) : parse sql = .ok (s, s.placeholders.length) := by
  obtain ⟨ts, hts, htokens⟩ := tokenize_written h
  rw [parse, htokens]
  show statement ts = _
  rw [statement, hs.leadingStatement_carried hts]
  rfl

end Statement

/-! ## Every statement has a text -/

/-- A name, or a lexeme that can be written. -/
def Lexeme.isKnown : Lexeme → Bool
  | .name _ => true
  | l => l.isWritable

theorem all_isKnown_listed (h : ls.all Lexeme.isKnown = true) :
    (listed ls).all Lexeme.isKnown = true := by
  induction ls with
  | nil => rfl
  | cons l ls ih =>
    simp only [List.all_cons, Bool.and_eq_true] at h
    cases ls with
    | nil => simp [listed, h.1]
    | cons m ls =>
      have hcomma : (Lexeme.mark ',').isKnown = true := rfl
      show (l :: .mark ',' :: listed (m :: ls)).all Lexeme.isKnown = true
      rw [List.all_cons, List.all_cons, h.1, hcomma, ih h.2]
      rfl

theorem all_isKnown_names (names : List String) :
    (listed (names.map .name)).all Lexeme.isKnown = true :=
  all_isKnown_listed (by simp [Lexeme.isKnown])

theorem isKnown_of_lexeme? {o : Operand} {l : Lexeme} (h : o.lexeme? = some l) :
    l.isKnown = true := by
  revert h
  fun_cases Operand.lexeme? o <;> intro h <;> cases h <;> rfl

theorem all_isKnown_operands (values : List Operand) :
    (listed (values.filterMap Operand.lexeme?)).all Lexeme.isKnown = true := by
  refine all_isKnown_listed (List.all_eq_true.mpr fun l hl => ?_)
  obtain ⟨o, _, ho⟩ := List.mem_filterMap.mp hl
  exact isKnown_of_lexeme? ho

theorem Filter.all_isKnown (filter? : Option Filter) :
    (filter?.toList.flatMap Filter.lexemes).all Lexeme.isKnown = true := by
  cases filter? with
  | none => rfl
  | some f =>
    have hvalue : f.value.lexeme?.toList.all Lexeme.isKnown = true := by
      cases hl : f.value.lexeme? with
      | none => rfl
      | some l => simp [isKnown_of_lexeme? hl]
    simp only [Option.toList_some, List.flatMap_singleton, Filter.lexemes, List.all_append, hvalue]
    rfl

theorem Projection.all_isKnown (p : Projection) : p.lexemes.all Lexeme.isKnown = true := by
  cases p with
  | all => rfl
  | columns names => exact all_isKnown_names names

theorem Statement.all_isKnown (s : Statement) : s.lexemes.all Lexeme.isKnown = true := by
  cases s with
  | create table columns ifAbsent =>
    simp only [lexemes, List.all_append, all_isKnown_names]
    cases ifAbsent <;> rfl
  | insert table columns values =>
    simp only [lexemes, List.all_append, all_isKnown_names, all_isKnown_operands]
    rfl
  | select table projection filter? =>
    simp only [lexemes, List.all_append, projection.all_isKnown, Filter.all_isKnown]
    rfl
  | delete table filter? =>
    simp only [lexemes, List.all_append, Filter.all_isKnown]
    rfl

theorem Statement.Grammatical.exists_writtenAs {s : Statement} (hs : s.Grammatical) :
    ∃ sql, s.WrittenAs sql := by
  have hwritable : ∀ l ∈ s.lexemes, l.isWritable = true := by
    intro l hl
    have hknown := List.all_eq_true.mp s.all_isKnown l hl
    cases l with
    | name name => simpa [Lexeme.isWritable] using hs.names name hl
    | _ => exact hknown
  obtain ⟨cs, hcs⟩ := exists_written hwritable
  exact ⟨String.ofList cs, by rwa [WrittenAs, String.toList_ofList]⟩

/-- Every statement of the grammar has a text, and each of its texts is prepared as that statement
when as many values are bound as it has placeholders. -/
theorem prepare_writtenAs {s : Statement} (hs : s.Grammatical) :
    (∃ sql, s.WrittenAs sql) ∧
      ∀ sql, s.WrittenAs sql → ∀ bound : List Json, bound.length = s.placeholders.length →
        prepare sql bound = .ok s := by
  refine ⟨hs.exists_writtenAs, fun sql h bound hbound => ?_⟩
  rw [prepare_of_parse bound (hs.parse_writtenAs h), if_pos hbound.symm]

/-- An insertion whose names are keywords and marks. -/
def disguised : Statement :=
  .insert "values" [")", "null", "\""]
    [.literal (.string "it's"), .placeholder 0, .literal (.number (.integer (-5)))]

theorem disguised_grammatical : disguised.Grammatical where
  names := by
    have hnames : disguised.lexemes.all Lexeme.isWritable = true := by decide +kernel
    intro name hname
    simpa [Lexeme.isWritable] using List.all_eq_true.mp hnames _ hname
  complete := rfl
  literals := by simp [disguised, Statement.operands, Json.isScalar]
  numbers := by
    intro n hn
    obtain rfl : n = .integer (-5) := by simpa [disguised, Statement.operands] using hn
    exact (Json.ofText?_text (v := .integer (-5)) (by decide +kernel)).trans (if_pos (by decide))
  placeholders := rfl

/-- What is written for each of its parts, and behind it. -/
def disguisedPieces : List (List Char × List Char) :=
  [("iNsErT", "\t"), ("InTo", " "), ("\"values\"", " ;"), ("(", " "), ("`)`", " "), (",", " "),
   ("`null`", ";;"), (",", " "), ("`\"`", "\n"), (")", " "), ("VALUEs", ";"), ("(", "\x0C"),
   ("'it''s'", " "), (",", " "), ("?", "\u3000"), (",", " "), ("-5", " "), (")", "; ")].map
    fun p => (p.1.toList, p.2.toList)

theorem disguisedPieces_spaced : List.Forall₂ Spaced disguised.lexemes disguisedPieces := by
  decide +kernel

def disguisedText : String :=
  "iNsErT\tInTo \"values\" ;( `)` , `null`;;, `\"`\n) VALUEs;(\x0C'it''s' , ?\u3000, -5 ); "

theorem disguisedText_written : disguised.WrittenAs disguisedText := by
  have htext : disguisedText.toList = disguisedPieces.flatMap fun p => p.1 ++ p.2 := by
    decide +kernel
  rw [Statement.WrittenAs, htext]
  exact written_pieces disguisedPieces_spaced

theorem disguised_prepared :
    disguised.Grammatical ∧ disguised.WrittenAs disguisedText ∧
      prepare disguisedText [.null] = .ok disguised :=
  ⟨disguised_grammatical, disguisedText_written,
    (prepare_writtenAs disguised_grammatical).2 disguisedText disguisedText_written [.null] rfl⟩

end Sql
end Accord
