import Accord.Proofs.Json.Reading

/-! # Ends of texts

No end of the text of an array is the text of an array. An end that begins inside a quoted text
takes every later quote the other way round, so one of the two is left with an open quote. An end
that begins at a token leaves out tokens that open a container, so the container is closed by
nothing or by a token too many. -/
namespace Accord.Json

/-! ## Quotes -/

namespace Scan

/-- Inside a quoted text, and not behind a backslash. -/
def isQuoted : Scan → Bool
  | .string _ => true
  | _ => false

/-- Outside of quoted texts. -/
def isPlain : Scan → Bool
  | .between | .word _ | .numeral _ => true
  | _ => false

/-- Of two passes over the same characters one is inside a quoted text and the other one is not. -/
def Opposed (a b : Scan) : Prop :=
  (a.isQuoted = true ∧ b.isPlain = true) ∨ (a.isPlain = true ∧ b.isQuoted = true)

theorem Opposed.symm {a b : Scan} (h : a.Opposed b) : b.Opposed a := by
  rcases h with ⟨ha, hb⟩ | ⟨ha, hb⟩
  · exact .inr ⟨hb, ha⟩
  · exact .inl ⟨hb, ha⟩

end Scan

namespace Scanner

variable {s s' : Scanner} {c : Char}

/-- A character that belongs to no word and no numeral ends them. -/
theorem step_mark (hs : s.scan.isPlain = true) (hword : c.isLower = false)
    (hnumeral : isNumeralChar c = false) :
    s.step c = s.settle.bind fun tokens => begin tokens c := by
  obtain ⟨tokens, scan⟩ := s
  cases scan with
  | between => rfl
  | word letters => simp [step, hword]
  | numeral chars => simp [step, hnumeral]
  | string pieces => cases hs
  | escape pieces => cases hs
  | hex pieces missing value => cases hs

theorem isPlain_begin {tokens : List Token} (h : begin tokens c = some s) (hc : c ≠ '"') :
    s.scan.isPlain = true := by
  unfold begin at h
  split at h
  case h_7 => exact absurd rfl hc
  case h_8 =>
    split at h
    · obtain rfl := Option.some.inj h
      rfl
    split at h
    · obtain rfl := Option.some.inj h
      rfl
    split at h
    · obtain rfl := Option.some.inj h
      rfl
    · cases h
  all_goals
    obtain rfl := Option.some.inj h
    rfl

/-- Only a quote leads into a quoted text. -/
theorem isPlain_step (hs : s.scan.isPlain = true) (h : s.step c = some s') (hc : c ≠ '"') :
    s'.scan.isPlain = true := by
  obtain ⟨tokens, scan⟩ := s
  cases scan with
  | between => exact isPlain_begin h hc
  | word letters =>
    simp only [step] at h
    split at h
    · obtain rfl := Option.some.inj h
      rfl
    · obtain ⟨ts, -, hbegin⟩ := Option.bind_eq_some_iff.mp h
      exact isPlain_begin hbegin hc
  | numeral chars =>
    simp only [step] at h
    split at h
    · obtain rfl := Option.some.inj h
      rfl
    · obtain ⟨ts, -, hbegin⟩ := Option.bind_eq_some_iff.mp h
      exact isPlain_begin hbegin hc
  | string pieces => cases hs
  | escape pieces => cases hs
  | hex pieces missing value => cases hs

/-- A quote leads out of a quoted text, a backslash behind itself and any other character on. -/
theorem isQuoted_step (hs : s.scan.isQuoted = true) (h : s.step c = some s') (hc : c ≠ '\\') :
    if c = '"' then s'.scan.isPlain = true else s'.scan.isQuoted = true := by
  obtain ⟨tokens, scan⟩ := s
  cases scan with
  | string pieces =>
    simp only [step, if_neg hc] at h
    by_cases hquote : c = '"'
    · rw [if_pos hquote] at h ⊢
      obtain rfl := Option.some.inj h
      rfl
    · rw [if_neg hquote] at h ⊢
      split at h
      · cases h
      · obtain rfl := Option.some.inj h
        rfl
  | _ => cases hs

/-- A quote swaps the two sides, and a backslash is no character outside of quoted texts. -/
theorem opposed_step {a b a' b' : Scanner} (h : a.scan.Opposed b.scan) (ha : a.step c = some a')
    (hb : b.step c = some b') : a'.scan.Opposed b'.scan := by
  wlog hside : a.scan.isQuoted = true ∧ b.scan.isPlain = true generalizing a b a' b'
  · exact (this h.symm hb ha (h.resolve_left hside).symm).symm
  obtain ⟨hquoted, hplain⟩ := hside
  by_cases hquote : c = '"'
  · subst hquote
    have ha' := isQuoted_step hquoted ha (by decide)
    rw [step_mark hplain rfl rfl] at hb
    obtain ⟨ts, -, hbegin⟩ := Option.bind_eq_some_iff.mp hb
    obtain rfl := Option.some.inj hbegin
    exact .inr ⟨ha', rfl⟩
  · have hslash : c ≠ '\\' := by
      rintro rfl
      rw [step_mark hplain rfl rfl] at hb
      obtain ⟨ts, -, hbegin⟩ := Option.bind_eq_some_iff.mp hb
      cases hbegin
    have ha' := isQuoted_step hquoted ha hslash
    rw [if_neg hquote] at ha'
    exact .inl ⟨ha', isPlain_step hplain hb hquote⟩

/-! ## Tokens in front -/

/-- A scanner with tokens in front of its own. -/
def behind (base : List Token) (s : Scanner) : Scanner :=
  ⟨s.tokens ++ base, s.scan⟩

theorem begin_append (tokens base : List Token) (c : Char) :
    begin (tokens ++ base) c = (begin tokens c).map (behind base) := by
  unfold begin
  split
  case h_8 =>
    split
    · rfl
    split
    · rfl
    split <;> rfl
  all_goals rfl

theorem settle_behind (base : List Token) (s : Scanner) :
    (s.behind base).settle = s.settle.map (· ++ base) := by
  obtain ⟨tokens, scan⟩ := s
  cases scan with
  | word letters =>
    simp only [settle, behind, Option.map_map]
    rfl
  | numeral chars =>
    simp only [settle, behind, Option.map_map]
    rfl
  | _ => rfl

theorem step_behind (base : List Token) (s : Scanner) (c : Char) :
    (s.behind base).step c = (s.step c).map (behind base) := by
  have hsettled (scan : Scan) :
      ((settle ⟨s.tokens ++ base, scan⟩).bind fun tokens => begin tokens c) =
        ((settle ⟨s.tokens, scan⟩).bind fun tokens => begin tokens c).map (behind base) := by
    have h := settle_behind base ⟨s.tokens, scan⟩
    rw [behind] at h
    rw [h]
    cases settle ⟨s.tokens, scan⟩ with
    | none => rfl
    | some tokens => exact begin_append tokens base c
  obtain ⟨tokens, scan⟩ := s
  cases scan with
  | between => exact begin_append tokens base c
  | word letters =>
    simp only [step, behind]
    split
    · rfl
    · exact hsettled _
  | numeral chars =>
    simp only [step, behind]
    split
    · rfl
    · exact hsettled _
  | string pieces =>
    simp only [step, behind]
    split
    · rfl
    split
    · rfl
    split <;> rfl
  | escape pieces =>
    simp only [step, behind]
    split
    · rfl
    · cases unescape? c <;> rfl
  | hex pieces missing value =>
    simp only [step, behind]
    cases Text.hexDigit? c with
    | none => rfl
    | some d =>
      simp only [Option.map_some]
      split <;> rfl

end Scanner

theorem scanFrom_nil (s : Scanner) : scanFrom s [] = s.settle.map List.reverse := rfl

theorem scanFrom_behind (base : List Token) (s : Scanner) (cs : List Char) :
    scanFrom (s.behind base) cs = (scanFrom s cs).map (base.reverse ++ ·) := by
  induction cs generalizing s with
  | nil =>
    rw [scanFrom_nil, scanFrom_nil, Scanner.settle_behind]
    cases s.settle with
    | none => rfl
    | some tokens => simp
  | cons c cs ih =>
    rw [scanFrom_cons, scanFrom_cons, Scanner.step_behind]
    cases s.step c with
    | none => rfl
    | some s' => exact ih s'

theorem scanFrom_append (s : Scanner) (cs rest : List Char) :
    scanFrom s (cs ++ rest) = (cs.foldlM Scanner.step s).bind fun t => scanFrom t rest := by
  simp only [scanFrom, List.foldlM_append, bind, Option.bind_assoc]

/-- Two passes that take the quotes the other way round do not both come to an end. -/
theorem scanFrom_opposed {a b : Scanner} (h : a.scan.Opposed b.scan) {cs : List Char}
    {ts : List Token} (ha : scanFrom a cs = some ts) : scanFrom b cs = none := by
  have hopen {s : Scanner} (hs : s.scan.isQuoted = true) : s.settle = none := by
    obtain ⟨tokens, scan⟩ := s
    cases scan <;> first | rfl | cases hs
  induction cs generalizing a b with
  | nil =>
    rw [scanFrom_nil] at ha ⊢
    rcases h with ⟨hquoted, -⟩ | ⟨-, hquoted⟩
    · rw [hopen hquoted] at ha
      cases ha
    · rw [hopen hquoted]
      rfl
  | cons c cs ih =>
    rw [scanFrom_cons] at ha ⊢
    obtain ⟨a', hstep, ha'⟩ := Option.bind_eq_some_iff.mp ha
    cases hb : b.step c with
    | none => rfl
    | some b' => exact ih (Scanner.opposed_step h hstep hb) ha'

/-- The tokens of an end that begins with a bracket, if it has any, are the last of the text. -/
theorem scanFrom_end {s : Scanner} {cs rest : List Char} {ts inner : List Token}
    (h : scanFrom s (cs ++ '[' :: rest) = some ts) (hinner : tokens? ('[' :: rest) = some inner) :
    ∃ outer, ts = outer ++ inner := by
  have hfresh : scanFrom ⟨[.openArray], .between⟩ rest = some inner :=
    (scanFrom_mark rest rfl).symm.trans hinner
  rw [scanFrom_append] at h
  obtain ⟨t, -, ht⟩ := Option.bind_eq_some_iff.mp h
  rw [scanFrom_cons] at ht
  obtain ⟨t', hstep, ht'⟩ := Option.bind_eq_some_iff.mp ht
  by_cases hplain : t.scan.isPlain = true
  · rw [Scanner.step_mark hplain rfl rfl] at hstep
    obtain ⟨base, -, hbegin⟩ := Option.bind_eq_some_iff.mp hstep
    obtain rfl := Option.some.inj hbegin
    have hts := scanFrom_behind base ⟨[.openArray], .between⟩ rest
    rw [hfresh] at hts
    exact ⟨base.reverse, Option.some.inj (ht'.symm.trans hts)⟩
  · -- Behind a backslash there is no bracket, so the bracket stands inside a quoted text.
    have hquoted : t'.scan.isQuoted = true := by
      obtain ⟨tokens, scan⟩ := t
      cases scan with
      | string pieces => exact Scanner.isQuoted_step (c := '[') rfl hstep (by decide)
      | escape pieces => cases hstep
      | hex pieces missing value => cases hstep
      | _ => exact absurd rfl hplain
    have hnone := scanFrom_opposed (b := ⟨[.openArray], .between⟩) (.inl ⟨hquoted, rfl⟩) ht'
    rw [hfresh] at hnone
    cases hnone

/-! ## Levels -/

/-- Whether what comes next belongs to a container that is not on the stack yet. -/
def Want.inside : Want → Nat
  | .firstItem | .firstName | .name _ | .colon _ _ => 1
  | .value | .more _ => 0

/-- How many containers a token opens. -/
def Token.rise : Token → Int
  | .openArray | .openObject => 1
  | .closeArray | .closeObject => -1
  | _ => 0

namespace Machine

variable {m m' n n' : Machine} {t : Token} {ts : List Token}

/-- How many containers are open. -/
def level (m : Machine) : Nat :=
  m.stack.length + m.want.inside

theorem level_beginValue {stack : List Open} (h : beginValue stack t = some m) :
    (m.level : Int) = stack.length + t.rise := by
  cases t <;> cases h <;> simp [level, Want.inside, Token.rise]

theorem level_step (h : m.step t = some m') : (m'.level : Int) = m.level + t.rise := by
  obtain ⟨stack, want⟩ := m
  cases want with
  | value => simpa [level, Want.inside] using level_beginValue h
  | firstItem =>
    simp only [step] at h
    split at h
    · cases h
      simp [level, Want.inside, Token.rise]
    · simpa [level, Want.inside] using level_beginValue h
  | firstName => cases t <;> cases h <;> simp [level, Want.inside, Token.rise]
  | name fields =>
    cases t <;> cases h
    simp [level, Want.inside, Token.rise]
  | colon fields name =>
    cases t <;> cases h
    simp [level, Want.inside, Token.rise]
  | more v =>
    cases stack with
    | nil => cases h
    | cons container stack =>
      cases container <;> cases t <;> cases h <;> simp [level, Want.inside, Token.rise]

/-- The same tokens raise all machines alike. -/
theorem level_gather (hm : gather m ts = some m') (hn : gather n ts = some n') :
    m'.level + n.level = n'.level + m.level := by
  induction ts generalizing m n with
  | nil =>
    obtain rfl := Option.some.inj hm
    obtain rfl := Option.some.inj hn
    exact Nat.add_comm _ _
  | cons t ts ih =>
    rw [gather_cons] at hm hn
    obtain ⟨m₁, hm₁, hm'⟩ := Option.bind_eq_some_iff.mp hm
    obtain ⟨n₁, hn₁, hn'⟩ := Option.bind_eq_some_iff.mp hn
    have h := ih hm' hn'
    have hmt := level_step hm₁
    have hnt := level_step hn₁
    omega

theorem beginValue_ne_start {stack : List Open} : beginValue stack t ≠ some ⟨[], .value⟩ := by
  cases t <;> simp [beginValue]

theorem step_ne_start (m : Machine) (t : Token) : m.step t ≠ some ⟨[], .value⟩ := by
  obtain ⟨stack, want⟩ := m
  cases want with
  | value => exact beginValue_ne_start
  | firstItem =>
    simp only [step]
    split
    · simp
    · exact beginValue_ne_start
  | more v =>
    cases stack with
    | nil => simp [step]
    | cons container stack => cases container <;> cases t <;> simp [step]
  | _ => cases t <;> simp [step]

theorem gather_ne_start (m : Machine) (t : Token) (ts : List Token) :
    gather m (t :: ts) ≠ some ⟨[], .value⟩ := by
  induction ts generalizing m t with
  | nil =>
    rw [gather_cons]
    intro h
    obtain ⟨m', hstep, hm'⟩ := Option.bind_eq_some_iff.mp h
    obtain rfl := Option.some.inj hm'
    exact step_ne_start m t hstep
  | cons t' ts ih =>
    rw [gather_cons]
    intro h
    obtain ⟨m', -, hm'⟩ := Option.bind_eq_some_iff.mp h
    exact ih m' t' hm'

theorem result?_eq_some {w : Written} (h : m.result? = some w) : m = ⟨[], .more w⟩ := by
  unfold result? at h
  split at h
  · rw [Option.some.inj h]
  · cases h

/-- Where no container is open, something has been read unless it is the start. -/
theorem complete_of_level (hlevel : m.level = 0) (hm : m ≠ ⟨[], .value⟩) :
    ∃ v, m = ⟨[], .more v⟩ := by
  obtain ⟨stack, want⟩ := m
  obtain ⟨hstack, hwant⟩ := Nat.add_eq_zero_iff.mp hlevel
  obtain rfl := List.length_eq_zero_iff.mp hstack
  cases want with
  | value => exact absurd rfl hm
  | more v => exact ⟨v, rfl⟩
  | _ => cases hwant

end Machine

/-- No end of the tokens of a value but all of them are the tokens of a value. -/
theorem ofTokens?_end {t : Token} {outer inner : List Token} {w : Written}
    (h : Written.ofTokens? (t :: outer ++ inner) = some w) : Written.ofTokens? inner = none := by
  by_contra hinner
  obtain ⟨v, hv⟩ := Option.ne_none_iff_exists'.mp hinner
  obtain ⟨n, hn, hv⟩ := Option.bind_eq_some_iff.mp hv
  obtain ⟨m', hm', hw⟩ := Option.bind_eq_some_iff.mp h
  obtain rfl := Machine.result?_eq_some hv
  obtain rfl := Machine.result?_eq_some hw
  rw [List.foldlM_append] at hm'
  obtain ⟨m, hm, hm'⟩ := Option.bind_eq_some_iff.mp hm'
  have hlevel : m.level = 0 := by
    have h := Machine.level_gather hm' hn
    simpa [Machine.level, Want.inside] using h.symm
  obtain ⟨u, rfl⟩ := Machine.complete_of_level hlevel fun hstart =>
    Machine.gather_ne_start _ t outer (hstart ▸ hm)
  -- Behind a whole value no token may follow, and no tokens are no value.
  cases inner with
  | nil => cases hn
  | cons t' inner => cases hm'

/-- No end of the text of an array is the text of an array. -/
theorem read?_end {cs rest : List Char} {w : Written}
    (h : Written.read? ('[' :: (cs ++ '[' :: rest)) = some w) :
    Written.read? ('[' :: rest) = none := by
  obtain ⟨ts, hts, hw⟩ := Option.bind_eq_some_iff.mp h
  have hfirst : tokens? ('[' :: (cs ++ '[' :: rest)) =
      (scanFrom ⟨[], .between⟩ (cs ++ '[' :: rest)).map ([.openArray] ++ ·) :=
    (scanFrom_mark _ rfl).trans (scanFrom_behind [.openArray] ⟨[], .between⟩ _)
  rw [hfirst] at hts
  obtain ⟨later, hlater, rfl⟩ := Option.map_eq_some_iff.mp hts
  cases hinner : tokens? ('[' :: rest) with
  | none => rw [Written.read?, hinner, Option.bind_none]
  | some inner =>
    obtain ⟨outer, rfl⟩ := scanFrom_end hlater hinner
    rw [Written.read?, hinner, Option.bind_some]
    exact ofTokens?_end hw

end Accord.Json
