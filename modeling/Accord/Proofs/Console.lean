import Accord.Console
import Accord.Proofs.Json.Ends
import Accord.Proofs.Message.Frames
import Accord.Proofs.Sql.Lexemes

/-! # Values behind a statement

An operator types a word, a statement and an array with the values of its placeholders. The array is
found by trying each of its brackets from the right; since no end of an array's text is an array's
text, the first one that fits is the one that was meant, whatever the statement and the quoted texts
among the values hold. -/
namespace Accord

namespace Text

/-! ## Blank ends -/

/-- A text that neither begins nor ends with a blank. -/
def Trimmed (cs : List Char) : Prop :=
  (∀ c ∈ cs.head?, isBlank c = false) ∧ ∀ c ∈ cs.getLast?, isBlank c = false

theorem Trimmed.reverse {cs : List Char} (h : Trimmed cs) : Trimmed cs.reverse := by
  rw [Trimmed, List.head?_reverse, List.getLast?_reverse]
  exact h.symm

theorem Trimmed.append_cons {cs ds : List Char} (hcs : Trimmed cs) (hds : Trimmed ds)
    (hcs' : cs ≠ []) (hds' : ds ≠ []) (c : Char) : Trimmed (cs ++ c :: ds) := by
  refine ⟨?_, ?_⟩
  · rw [List.head?_append_of_ne_nil _ hcs']
    exact hcs.1
  · rw [List.append_cons, List.getLast?_append_of_ne_nil _ hds']
    exact hds.2

/-- A text without any blanks. -/
theorem trimmed_of_forall {cs : List Char} (h : ∀ c ∈ cs, isBlank c = false) : Trimmed cs :=
  ⟨fun c hc => h c (List.mem_of_head? hc), fun c hc => h c (List.mem_of_getLast? hc)⟩

theorem trimmed_brackets (cs : List Char) : Trimmed ('[' :: (cs ++ [']'])) := by
  refine ⟨?_, ?_⟩
  · rintro c ⟨⟩
    rfl
  · intro c hc
    rw [← List.cons_append, List.getLast?_concat] at hc
    obtain rfl := Option.some.inj hc
    rfl

theorem trimStart_blanks {blanks : List Char} (hblank : ∀ c ∈ blanks, isBlank c = true)
    {cs : List Char} (hcs : ∀ c ∈ cs.head?, isBlank c = false) :
    trimStart (blanks ++ cs) = cs := by
  rw [trimStart, List.dropWhile_append_of_pos hblank]
  cases cs with
  | nil => rfl
  | cons c cs => exact trimStart_of_not_isBlank (hcs c rfl) cs

/-- Blanks are cut from both ends, and nothing else. -/
theorem trim_blanks {before after : List Char} (hbefore : ∀ c ∈ before, isBlank c = true)
    (hafter : ∀ c ∈ after, isBlank c = true) {cs : List Char} (hcs : Trimmed cs) (hne : cs ≠ []) :
    trim (before ++ cs ++ after) = cs := by
  have hend : trimEnd (cs ++ after) = cs := by
    have hblank : ∀ c ∈ after.reverse, isBlank c = true := by simpa using hafter
    have h : (after.reverse ++ cs.reverse).dropWhile isBlank = cs.reverse :=
      trimStart_blanks hblank hcs.reverse.1
    rw [trimEnd, List.reverse_append, h, List.reverse_reverse]
  have hhead : ∀ c ∈ (cs ++ after).head?, isBlank c = false := by
    rw [List.head?_append_of_ne_nil cs hne]
    exact hcs.1
  rw [trim, List.append_assoc, trimStart_blanks hbefore hhead, hend]

theorem trim_eq_self {cs : List Char} (h : Trimmed cs) : trim cs = cs := by
  by_cases hne : cs = []
  · subst hne
    rfl
  · have htrim := trim_blanks (List.forall_mem_nil _) (List.forall_mem_nil _) h hne
    rwa [List.nil_append, List.append_nil] at htrim

/-! ## Words -/

theorem isBlank_of_isAlpha {c : Char} (h : c.isAlpha = true) : isBlank c = false := by
  have hrange := isAlpha_iff_toNat.mp h
  simp only [isBlank, Bool.or_eq_false_iff, Bool.and_eq_false_iff, decide_eq_false_iff_not,
    beq_eq_false_iff_ne]
  omega

theorem capitals_of_isAlpha {c : Char} (h : c.isAlpha = true) : capitals c = [c.toUpper] := by
  have hrange := isAlpha_iff_toNat.mp h
  unfold capitals
  split <;> first | omega | rfl

/-- A word in any case is capitalized to the word in capitals. -/
theorem capitalize_of_toLower_eq {cs ds : List Char}
    (h : cs.map Char.toLower = ds.map Char.toLower) (hupper : ∀ d ∈ ds, d.isUpper = true) :
    capitalize cs = ds ∧ ∀ c ∈ cs, isBlank c = false := by
  induction ds generalizing cs with
  | nil =>
    obtain rfl := List.map_eq_nil_iff.mp h
    exact ⟨rfl, List.forall_mem_nil _⟩
  | cons d ds ih =>
    obtain ⟨c, cs, rfl, hc, hcs⟩ := List.map_eq_cons_iff.mp h
    have hd : d.isUpper = true := hupper d List.mem_cons_self
    have halpha : c.isAlpha = true := by
      rw [← Char.isAlpha_toLower_eq_isAlpha, hc, Char.isAlpha_toLower_eq_isAlpha, Char.isAlpha, hd,
        Bool.true_or]
    have hcapital : c.toUpper = d := by
      rw [← Char.toUpper_toLower_eq_toUpper, hc, Char.toUpper_toLower_eq_toUpper]
      exact Char.toUpper_eq_of_not_isLower (Char.not_isLower_of_isUpper hd)
    obtain ⟨hcapitals, hblank⟩ := ih hcs fun e he => hupper e (List.mem_cons_of_mem d he)
    refine ⟨?_, List.forall_mem_cons.mpr ⟨isBlank_of_isAlpha halpha, hblank⟩⟩
    rw [capitalize, List.flatMap_cons, capitals_of_isAlpha halpha, hcapital]
    exact congrArg (d :: ·) hcapitals

end Text

/-! ## Lines -/

/-- The words that ask for a method, in capitals. -/
def Method.words : Method → List String
  | .get => ["GET", "G"]
  | .post => ["POST", "P"]

/-- A word that asks for a method, in any case. -/
def Method.AskedBy (method : Method) (word : String) : Prop :=
  ∃ name ∈ method.words, Text.sameKeyword word name = true

namespace ConsoleInput

theorem isUpper_of_mem_words {method : Method} {name : String} (h : name ∈ method.words) :
    (∀ c ∈ name.toList, c.isUpper = true) ∧ name.toList ≠ [] := by
  have hall : ∀ name ∈ method.words, name.toList.all Char.isUpper = true ∧ name.toList ≠ [] := by
    cases method <;> decide
  exact ⟨List.all_eq_true.mp (hall name h).1, (hall name h).2⟩

/-- Behind a word that asks for a method stands a command. -/
theorem parse_asked {method : Method} {word : String} (hword : method.AskedBy word)
    {rest : List Char} (hrest : Text.Trimmed rest) (hne : rest ≠ []) :
    parse (String.ofList (word.toList ++ ' ' :: rest)) = .ok (.run method (splitCommand rest)) := by
  obtain ⟨name, hname, hsame⟩ := hword
  obtain ⟨hupper, hsome⟩ := isUpper_of_mem_words hname
  obtain ⟨hcapital, hplain⟩ := Text.capitalize_of_toLower_eq (eq_of_beq hsame) hupper
  have hplain' : ∀ c ∈ word.toList, (!Text.isBlank c) = true := by
    simpa using hplain
  have hw : word.toList ≠ [] := by
    intro h
    rw [h] at hcapital
    exact hsome hcapital.symm
  have htrim : Text.trim (word.toList ++ ' ' :: rest) = word.toList ++ ' ' :: rest :=
    Text.trim_eq_self ((Text.trimmed_of_forall hplain).append_cons hrest hw hne ' ')
  have hquery : Text.trim (' ' :: rest) = rest := by
    have hblank : ∀ c ∈ [' '], Text.isBlank c = true := List.forall_mem_singleton.mpr rfl
    have h := Text.trim_blanks hblank (List.forall_mem_nil _) hrest hne
    rwa [List.append_nil] at h
  have htake : (word.toList ++ ' ' :: rest).takeWhile (!Text.isBlank ·) = word.toList := by
    rw [List.takeWhile_append_of_pos hplain']
    exact List.append_nil _
  have hdrop : (word.toList ++ ' ' :: rest).dropWhile (!Text.isBlank ·) = ' ' :: rest := by
    rw [List.dropWhile_append_of_pos hplain']
    rfl
  have hwith (method : Method) :
      withQuery method rest = .ok (.run method (splitCommand rest)) := by
    rw [withQuery, if_neg (by simpa using hne)]
  rw [parse, String.toList_ofList, htrim]
  simp only [htake, hdrop, hcapital, hquery, String.ofList_toList]
  rw [if_neg (by simp)]
  cases method with
  | get =>
    obtain rfl | rfl : name = "GET" ∨ name = "G" := by simpa [Method.words] using hname
    · exact hwith .get
    · exact hwith .get
  | post =>
    obtain rfl | rfl : name = "POST" ∨ name = "P" := by simpa [Method.words] using hname
    · exact hwith .post
    · exact hwith .post

/-! ## The split -/

variable {cs before behind : List Char}

/-- Brackets at which no array begins are passed over. -/
theorem valuesAtEnd?_skip
    (h : ∀ front back, cs = front ++ '[' :: back → values? ('[' :: (back ++ behind)) = none) :
    valuesAtEnd? (cs.reverse ++ before) behind = valuesAtEnd? before (cs ++ behind) := by
  induction cs using List.reverseRecOn generalizing behind with
  | nil => rfl
  | append_singleton cs c ih =>
    have hc : (if c = '[' then values? (c :: behind) else none) = none := by
      split
      · subst c
        exact h cs [] rfl
      · rfl
    have hih : valuesAtEnd? (cs.reverse ++ before) (c :: behind) =
        valuesAtEnd? before (cs ++ c :: behind) := by
      refine ih ?_
      rintro front back rfl
      have hback := h front (back ++ [c]) (by simp)
      rwa [List.append_assoc] at hback
    rw [List.reverse_append, List.append_assoc, List.append_assoc]
    simp only [List.reverse_singleton, List.cons_append, List.nil_append]
    rw [valuesAtEnd?, hc]
    exact hih

/-- A text that is read as an array is split off, whatever it and the statement hold. -/
theorem splitCommand_values {query array : List Char} {vs : List Json}
    (hquery : Text.Trimmed query) (hne : query ≠ [])
    (harray : values? ('[' :: (array ++ [']'])) = some vs) :
    splitCommand (query ++ ' ' :: '[' :: (array ++ [']'])) = ⟨String.ofList query, some vs⟩ := by
  have hread : ∃ w, Json.Written.read? ('[' :: (array ++ [']'])) = some w := by
    obtain ⟨v, hv, -⟩ := Option.bind_eq_some_iff.mp harray
    obtain ⟨w, hw, -⟩ := Option.bind_eq_some_iff.mp hv
    exact ⟨w, hw⟩
  have hinner : ∀ front back, array ++ [']'] = front ++ '[' :: back →
      values? ('[' :: (back ++ [])) = none := by
    intro front back hcut
    obtain ⟨w, hw⟩ := hread
    rw [hcut] at hw
    rw [List.append_nil, values?, Json.parse?, Json.read?_end hw]
    rfl
  have hlast : (query ++ ' ' :: '[' :: (array ++ [']'])).getLast? = some ']' := by
    rw [List.getLast?_append_of_ne_nil _ (List.cons_ne_nil _ _)]
    exact List.getLast?_concat (l := ' ' :: '[' :: array)
  have hreverse : (query ++ ' ' :: '[' :: (array ++ [']'])).reverse =
      (array ++ [']']).reverse ++ '[' :: (query ++ [' ']).reverse := by simp
  have htrim : Text.trim (query ++ [' ']) = query :=
    Text.trim_blanks (List.forall_mem_nil _) (List.forall_mem_singleton.mpr rfl) hquery hne
  have hfound : valuesAtEnd? ('[' :: (query ++ [' ']).reverse) (array ++ [']']) =
      some (query, vs) := by
    rw [valuesAtEnd?, if_pos rfl, harray]
    simp only [List.reverse_reverse, htrim]
    rw [if_neg (by simpa using hne)]
  rw [splitCommand, if_pos hlast, hreverse, valuesAtEnd?_skip hinner, List.append_nil, hfound]

end ConsoleInput

namespace Json

/-- The text of an array stands in brackets. -/
theorem render_array (vs : List Json) : ∃ inner, render (.array vs) = '[' :: (inner ++ [']']) := by
  have hitems : ∀ vs, ∃ inner, renderItems vs = inner ++ [']'] := by
    intro vs
    induction vs with
    | nil => exact ⟨[], by rw [renderItems]; rfl⟩
    | cons v vs ih =>
      obtain ⟨inner, hinner⟩ := ih
      exact ⟨',' :: (render v ++ inner), by rw [renderItems, hinner]; simp⟩
  cases vs with
  | nil => exact ⟨[], by rw [render]; rfl⟩
  | cons v vs =>
    obtain ⟨inner, hinner⟩ := hitems vs
    exact ⟨render v ++ inner, by rw [render, hinner]; simp⟩

end Json

namespace ConsoleInput

/-- The text of an array that is not nested too deeply is read as that array. -/
theorem values?_render {vs : List Json} (hproper : ∀ v ∈ vs, v.isProper = true)
    (hheight : ∀ v ∈ vs, v.height ≤ 126) (hfloats : ∀ v ∈ vs, ∀ x ∈ v.floats, x.ReadsBack) :
    values? (Json.render (.array vs)) = some vs := by
  have hfaithful : (Json.array vs).isFaithful = true := by
    rw [Json.isFaithful, Json.itemsFaithful_iff]
    intro v hv
    exact Json.isFaithful_of_isProper v (hproper v hv) (hfloats v hv)
  have hshallow : (Json.array vs).height ≤ Json.nestingLimit := by
    rw [Json.height]
    exact Nat.succ_le_succ (Json.itemsHeight_le_iff.mpr hheight)
  have hread : Json.parse? (Json.render (.array vs)) = some (.array vs) := by
    rw [Json.parse?, Json.read?_render, Option.bind_some, Json.value?_writtenOf _ _ hfaithful,
      if_pos hshallow]
  rw [values?, hread]
  rfl

/-- The values behind a statement are told from it: a word that asks for a method, a statement and
the text of an array are read as that statement with these values, and a statement that does not end
with a bracket has none. -/
theorem parse_tells_values {method : Method} {word query : String} (hword : method.AskedBy word)
    (hne : query ≠ "") (htrimmed : Text.Trimmed query.toList) :
    (∀ vs : List Json, (∀ v ∈ vs, v.isProper = true) → (∀ v ∈ vs, v.height ≤ 126) →
      (∀ v ∈ vs, ∀ x ∈ v.floats, x.ReadsBack) →
      parse (word ++ " " ++ query ++ " " ++ (Json.array vs).text) =
        .ok (.run method ⟨query, some vs⟩)) ∧
    (query.toList.getLast? ≠ some ']' →
      parse (word ++ " " ++ query) = .ok (.run method ⟨query, none⟩)) := by
  have hquery : query.toList ≠ [] := by
    intro h
    exact hne (String.toList_inj.mp h)
  refine ⟨?_, ?_⟩
  · intro vs hproper hheight hfloats
    obtain ⟨inner, hinner⟩ := Json.render_array vs
    have hvalues := values?_render hproper hheight hfloats
    rw [hinner] at hvalues
    have hline : word ++ " " ++ query ++ " " ++ (Json.array vs).text =
        String.ofList (word.toList ++ ' ' :: (query.toList ++ ' ' :: '[' :: (inner ++ [']']))) := by
      refine String.toList_inj.mp ?_
      simp [Json.text, hinner]
    have hrest : Text.Trimmed (query.toList ++ ' ' :: '[' :: (inner ++ [']'])) :=
      htrimmed.append_cons (Text.trimmed_brackets inner) hquery (List.cons_ne_nil _ _) ' '
    rw [hline, parse_asked hword hrest (by simp),
      splitCommand_values htrimmed hquery hvalues,
      String.ofList_toList]
  · intro hlast
    have hline : word ++ " " ++ query = String.ofList (word.toList ++ ' ' :: query.toList) := by
      refine String.toList_inj.mp ?_
      simp
    rw [hline, parse_asked hword htrimmed hquery, splitCommand, if_neg hlast,
      String.ofList_toList]

/-- Values with brackets inside quoted texts, behind quotes and backslashes, and a float. -/
def bracketed : List Json :=
  [.string "]\"[", .array [.array [], .string "[\\"], .object [("[", .array [.integer (-1)])],
   .number (.float Message.tenth)]

theorem bracketed_text : (Json.array bracketed).text =
    "[\"]\\\"[\",[[],\"[\\\\\"],\x7b\"[\":[-1]\x7d,0.1]" := by decide +kernel

theorem bracketed_values_told :
    parse "pOsT INSERT \"[\" [1] ' VALUES (?) [\"]\\\"[\",[[],\"[\\\\\"],\x7b\"[\":[-1]\x7d,0.1]" =
      .ok (.run .post ⟨"INSERT \"[\" [1] ' VALUES (?)", some bracketed⟩) ∧
    parse "pOsT INSERT \"[\" [1] ' VALUES (?)" =
      .ok (.run .post ⟨"INSERT \"[\" [1] ' VALUES (?)", none⟩) := by
  have hword : Method.post.AskedBy "pOsT" := ⟨"POST", List.mem_cons_self, by decide⟩
  have hhead : "INSERT \"[\" [1] ' VALUES (?)".toList.head? = some 'I' := by decide
  have hlast : "INSERT \"[\" [1] ' VALUES (?)".toList.getLast? = some ')' := by decide +kernel
  have htrimmed : Text.Trimmed "INSERT \"[\" [1] ' VALUES (?)".toList := by
    rw [Text.Trimmed, hhead, hlast]
    simp only [Option.mem_some_iff, forall_eq']
    decide
  have hproper : bracketed.all (·.isProper) = true := by decide +kernel
  have hheight : bracketed.all (·.height ≤ 126) = true := by decide +kernel
  have hfloats : bracketed.flatMap Json.floats = [Message.tenth] := by decide +kernel
  simp only [List.all_eq_true, decide_eq_true_eq] at hproper hheight
  obtain ⟨hvalues, hnone⟩ := parse_tells_values hword (by decide) htrimmed
  refine ⟨?_, ?_⟩
  · have h := hvalues bracketed hproper hheight (by
      intro v hv x hx
      have hmem : x ∈ bracketed.flatMap Json.floats := List.mem_flatMap.mpr ⟨v, hv, hx⟩
      rw [hfloats, List.mem_singleton] at hmem
      rw [hmem]
      exact Message.tenth_readsBack)
    rw [bracketed_text] at h
    exact h
  · refine hnone ?_
    rw [hlast]
    decide

end ConsoleInput
end Accord
