import Accord.Proofs.Node.Reads
import Accord.Proofs.Store.Rivals

/-! # Tables keep their shape

Every row has exactly the columns of its table, whatever columns a table was made with and whichever
of them a row was given. `Tables.Done` says once what a statement that succeeds reports and leaves
behind; all that is shown here of statements is read off it. A statement that fails leaves the whole
store as it was, and a statement on one table leaves the others alone. -/
namespace Accord

/-! ## Rows -/

/-- A row with exactly these columns, in ascending order and so each of them once. -/
structure Row.Fits (columns : List String) (row : Row) : Prop where
  ascending : (Keyed.keys row).Pairwise (· < ·)
  columns : ∀ column, column ∈ Keyed.keys row ↔ column ∈ columns

/-- A row that a filter selects: it holds the value of the filter in its column. -/
def Row.Chosen (filter : Option Sql.Filter) (bound : List Json) (row : Row) : Prop :=
  ∀ f, filter = some f →
    ∃ held, Keyed.get? f.column row = some held ∧ held.same (f.value.resolve bound) = true

theorem Row.meets_iff {t : Table} {name : String} {filter : Option Sql.Filter} {bound : List Json}
    {condition : Condition} (h : t.condition name filter bound = .ok condition) (row : Row) :
    row.meets condition = true ↔ row.Chosen filter bound := by
  cases filter with
  | none =>
    cases h
    simp [Row.meets, Row.Chosen]
  | some f =>
    have hcheck : (t.checkColumns name [f.column]).map
        (fun _ => some (f.column, f.value.resolve bound)) = .ok condition := h
    cases hc : t.checkColumns name [f.column] with
    | error e =>
      rw [hc] at hcheck
      cases hcheck
    | ok _ =>
      rw [hc] at hcheck
      cases hcheck
      simp only [Row.meets, Row.Chosen, Option.some.injEq, forall_eq']
      cases Keyed.get? f.column row with
      | none => simp
      | some held => simp

namespace Table

variable {t : Table}

theorem fits_blankRow (t : Table) : t.blankRow.Fits t.columns where
  ascending := Keyed.pairwise_keys_foldl_put _ List.Pairwise.nil
  columns := by
    intro column
    rw [blankRow, Keyed.ofList, Keyed.mem_keys_foldl_put]
    simp [Keyed.keys]

/-- Values that are put into columns of the table do not add any column. -/
theorem fits_rowOf {columns : List String} (h : ∀ column ∈ columns, column ∈ t.columns)
    (values : List Json) : (t.rowOf columns values).Fits t.columns where
  ascending := Keyed.pairwise_keys_foldl_put _ t.fits_blankRow.ascending
  columns := by
    intro column
    rw [rowOf, Keyed.mem_keys_foldl_put, t.fits_blankRow.columns]
    refine or_iff_right_of_imp fun hm => ?_
    obtain ⟨entry, he, rfl⟩ := List.mem_map.mp hm
    exact h _ (List.of_mem_zip he).1

theorem checkColumns_eq_ok {name : String} {columns : List String}
    (h : t.checkColumns name columns = .ok ()) : ∀ column ∈ columns, column ∈ t.columns := by
  unfold checkColumns at h
  split at h
  · cases h
  · rename_i hnone
    intro column hc
    simpa using List.find?_eq_none.mp hnone column hc

/-- All rows have the columns of the table. -/
def Shaped (t : Table) : Prop := ∀ row ∈ t.rows, row.Fits t.columns

theorem shaped_empty (columns : List String) : (empty columns).Shaped := List.forall_mem_nil _

theorem Shaped.insert (h : t.Shaped) {columns : List String}
    (hc : ∀ column ∈ columns, column ∈ t.columns) (values : List Json) :
    Shaped { t with rows := t.rows ++ [t.rowOf columns values] } := by
  intro row hr
  rcases List.mem_append.mp hr with hr | hr
  · exact h row hr
  · rw [List.mem_singleton.mp hr]
    exact fits_rowOf hc values

theorem Shaped.filter (h : t.Shaped) (keep : Row → Bool) :
    Shaped { t with rows := t.rows.filter keep } :=
  fun row hr => h row (List.mem_filter.mp hr).1

end Table

/-! ## Statements -/

/-- The table that a statement is about. -/
def Sql.Statement.table : Statement → String
  | .create table _ _ => table
  | .insert table _ _ => table
  | .select table _ _ => table
  | .delete table _ => table

namespace Tables

variable {bound : List Json} {tables after : Tables} {statement : Sql.Statement} {result : Json}

/-- What a statement that succeeds reports, and the tables after it. -/
inductive Done (bound : List Json) (tables : Tables) : Sql.Statement → Json → Tables → Prop
  | created {name : String} {columns : List String} {ifAbsent : Bool}
      (h : Keyed.get? name tables = none) : Done bound tables (.create name columns ifAbsent)
        (affectedRows 0) (Keyed.put name (.empty columns) tables)
  | present {name : String} {columns : List String} :
      Done bound tables (.create name columns true) (affectedRows 0) tables
  | inserted {name : String} {columns : List String} {values : List Sql.Operand} {t : Table}
      (h : Keyed.get? name tables = some t) (hc : ∀ column ∈ columns, column ∈ t.columns) :
      Done bound tables (.insert name columns values) (affectedRows 1) (Keyed.put name
        { t with rows := t.rows ++ [t.rowOf columns (values.map (·.resolve bound))] } tables)
  | selected {name : String} {projection : Sql.Projection} {filter : Option Sql.Filter}
      {result : Json} (h : select name projection filter bound tables = .ok result) :
      Done bound tables (.select name projection filter) result tables
  | deleted {name : String} {filter : Option Sql.Filter} {t : Table} {condition : Condition}
      (h : Keyed.get? name tables = some t) (hc : t.condition name filter bound = .ok condition) :
      Done bound tables (.delete name filter)
        (affectedRows (t.rows.filter (Row.meets condition)).length) (Keyed.put name
          { t with rows := t.rows.filter fun row => !Row.meets condition row } tables)

theorem find_eq (name : String) (tables : Tables) :
    find name tables = (Keyed.get? name tables).elim (.error (.noTable name)) .ok := by
  unfold find
  cases Keyed.get? name tables with
  | none => rfl
  | some t => rfl

/-- Exactly the rows that meet a condition are counted as deleted. -/
theorem delete_eq {name : String} {filter : Option Sql.Filter} {t : Table} {condition : Condition}
    (h : Keyed.get? name tables = some t) (hc : t.condition name filter bound = .ok condition) :
    delete name filter bound tables =
      .ok (affectedRows (t.rows.filter (Row.meets condition)).length, Keyed.put name
        { t with rows := t.rows.filter fun row => !Row.meets condition row } tables) := by
  have hcount := List.length_eq_length_filter_add (l := t.rows) (Row.meets condition)
  have hgone : t.rows.length - (t.rows.filter fun row => !Row.meets condition row).length =
      (t.rows.filter (Row.meets condition)).length := by omega
  rw [delete, find_eq, h, Option.elim_some]
  simp only [bind, Except.bind, hc, hgone]
  rfl

theorem select_all_eq {name : String} {filter : Option Sql.Filter} {t : Table}
    {condition : Condition} (h : Keyed.get? name tables = some t)
    (hc : t.condition name filter bound = .ok condition) :
    select name .all filter bound tables =
      .ok (.array ((t.rows.filter (Row.meets condition)).map Json.object)) := by
  rw [select, find_eq, h, Option.elim_some]
  simp only [bind, Except.bind, hc]
  rfl

theorem done (h : tables.run statement bound = .ok (result, after)) :
    Done bound tables statement result after := by
  cases statement with
  | create name columns ifAbsent =>
    rw [run, create] at h
    split at h
    · rename_i hno
      cases h
      refine .created ?_
      simpa [Keyed.contains] using hno
    · cases ifAbsent with
      | false => cases h
      | true =>
        cases h
        exact .present
  | insert name columns values =>
    rw [run, insert, find_eq] at h
    cases hg : Keyed.get? name tables with
    | none =>
      rw [hg] at h
      cases h
    | some t =>
      rw [hg, Option.elim_some] at h
      simp only [bind, Except.bind] at h
      cases hc : t.checkColumns name columns with
      | error e =>
        rw [hc] at h
        cases h
      | ok _ =>
        rw [hc] at h
        cases h
        exact .inserted hg (Table.checkColumns_eq_ok hc)
  | select name projection filter =>
    rw [run] at h
    cases hs : select name projection filter bound tables with
    | error e =>
      rw [hs] at h
      cases h
    | ok rows =>
      rw [hs] at h
      cases h
      exact .selected hs
  | delete name filter =>
    rw [run] at h
    cases hg : Keyed.get? name tables with
    | none =>
      rw [delete, find_eq, hg] at h
      cases h
    | some t =>
      cases hc : t.condition name filter bound with
      | error e =>
        rw [delete, find_eq, hg, Option.elim_some] at h
        simp only [bind, Except.bind, hc] at h
        cases h
      | ok condition =>
        rw [delete_eq hg hc] at h
        cases h
        exact .deleted hg hc

/-- Each table has its name to itself, and all its rows have its columns. -/
structure Shaped (tables : Tables) : Prop where
  names : (Keyed.keys tables).Pairwise (· < ·)
  tables : ∀ entry ∈ tables, entry.2.Shaped

theorem Shaped.get? (h : Shaped tables) {name : String} {t : Table}
    (hg : Keyed.get? name tables = some t) : t.Shaped := h.tables _ (Keyed.mem_of_get? hg)

theorem Shaped.put (h : Shaped tables) (name : String) {t : Table} (ht : t.Shaped) :
    Shaped (Keyed.put name t tables) where
  names := Keyed.pairwise_keys_put h.names name t
  tables := by
    intro entry he
    rcases Keyed.mem_put he with rfl | he
    · exact ht
    · exact h.tables entry he

theorem Done.shaped (h : Done bound tables statement result after) (hs : Shaped tables) :
    Shaped after := by
  cases h with
  | created => exact hs.put _ (Table.shaped_empty _)
  | present => exact hs
  | inserted hg hc => exact hs.put _ ((hs.get? hg).insert hc _)
  | selected => exact hs
  | deleted hg => exact hs.put _ ((hs.get? hg).filter _)

theorem Done.other (h : Done bound tables statement result after) {other : String}
    (hne : other ≠ statement.table) : Keyed.get? other after = Keyed.get? other tables := by
  cases h with
  | created => exact Keyed.get?_put_of_ne hne _ _
  | present => rfl
  | inserted => exact Keyed.get?_put_of_ne hne _ _
  | selected => rfl
  | deleted => exact Keyed.get?_put_of_ne hne _ _

end Tables

/-! ## Stores -/

namespace Store

variable {query : String} {bound : List Json} {s : Store}

/-- What becomes of a store on which a text is executed: nothing if that fails. -/
inductive Executed (query : String) (bound : List Json) (s : Store) : Outcome Json → Prop
  | failed (e : StoreError) : Executed query bound s (.error e, s)
  | done {statement : Sql.Statement} {result : Json} {tables : Tables}
      (hp : Sql.prepare query bound = .ok statement) (ha : s.available = true)
      (hd : s.tables.Done bound statement result tables) :
      Executed query bound s (.ok result, { s with tables })

theorem executed (query : String) (bound : List Json) (s : Store) :
    Executed query bound s (s.execute query bound) := by
  unfold execute
  cases hp : Sql.prepare query bound with
  | error cause => exact .failed _
  | ok statement =>
    by_cases ha : s.available = true
    · simp only [if_pos ha]
      cases hr : s.tables.run statement bound with
      | error e => exact .failed e
      | ok pair => exact .done hp ha (Tables.done hr)
    · simp only [if_neg ha]
      exact .failed _

theorem execute_failed {e : StoreError} (h : (s.execute query bound).1 = .error e) :
    (s.execute query bound).2 = s := by
  have hx := executed query bound s
  generalize s.execute query bound = outcome at h hx
  cases hx with
  | failed => rfl
  | done => cases h

theorem execute_other {statement : Sql.Statement} (hp : Sql.prepare query bound = .ok statement)
    {other : String} (hne : other ≠ statement.table) :
    Keyed.get? other (s.execute query bound).2.tables = Keyed.get? other s.tables := by
  have hx := executed query bound s
  generalize s.execute query bound = outcome at hx
  cases hx with
  | failed => rfl
  | done hp' _ hd =>
    rw [hp] at hp'
    cases hp'
    exact hd.other hne

theorem shaped_execute (query : String) (bound : List Json) (h : s.tables.Shaped) :
    (s.execute query bound).2.tables.Shaped := by
  have hx := executed query bound s
  generalize s.execute query bound = outcome at hx
  cases hx with
  | failed => exact h
  | done _ _ hd => exact hd.shaped h

/-! Of all that can happen to a store, only a query and a replay can change its tables. -/

theorem appendText_tables (command : String) (time : Instant) (s : Store) :
    (s.appendText command time).2.tables = s.tables := by
  unfold appendText
  split
  · rfl
  · rfl

theorem truncate_tables (id : Nat) (s : Store) : (s.truncate id).2.tables = s.tables := by
  rcases truncate_log id s with h | h
  · rw [h]
  · rw [h]

theorem adopt_tables (e : Entry) (s : Store) : (s.adopt e).2.tables = s.tables := by
  have happend := appendText_tables e.command e.time s
  unfold adopt
  split
  · rfl
  · split
    · rfl
    · split
      · rename_i heq
        rw [heq] at happend
        exact happend
      · rename_i assigned taken heq
        rw [heq] at happend
        have htruncate := truncate_tables assigned taken
        split
        · exact happend
        · split
          · rename_i heq'
            rw [heq'] at htruncate
            exact htruncate.trans happend
          · rename_i heq'
            rw [heq'] at htruncate
            exact htruncate.trans happend

theorem shaped_apply (id : Nat) (h : s.tables.Shaped) : (s.apply id).2.tables.Shaped := by
  rw [apply]
  cases s.command id with
  | error failure => exact h
  | ok command => exact shaped_execute command.query command.bound h

theorem shaped_run (h : s.tables.Shaped) (u : Usage) : (u.run s).tables.Shaped := by
  cases u with
  | race rivals => exact h
  | act a =>
    cases a with
    | vote command time =>
      rw [Usage.run, Act.run, append, appendText_tables]
      exact h
    | propose command time =>
      rw [Usage.run, Act.run, append, appendText_tables]
      exact h
    | adopt e =>
      rw [Usage.run, Act.run, adopt_tables]
      exact h
    | replay id => exact shaped_apply id h
    | remove id =>
      rw [Usage.run, Act.run, truncate_tables]
      exact h
    | query command => exact shaped_execute command.query command.bound h
    | reach available => exact h

theorem shaped_used (h : s.tables.Shaped) (usages : List Usage) :
    (s.used usages).tables.Shaped := by
  induction usages generalizing s with
  | nil => exact h
  | cons u rest ih => exact ih (shaped_run h u)

theorem shaped_tables_empty : Store.empty.tables.Shaped where
  names := List.Pairwise.nil
  tables := List.forall_mem_nil _

/-! ## Selecting and deleting -/

theorem execute_of_prepare {statement : Sql.Statement}
    (hp : Sql.prepare query bound = .ok statement) (ha : s.available = true) :
    s.execute query bound = match s.tables.run statement bound with
      | .error e => (.error e, s)
      | .ok (result, tables) => (.ok result, { s with tables }) := by
  rw [execute, hp]
  exact if_pos ha

/-- A table's rows are selected and deleted by the same choice. -/
theorem execute_delete {deletion selection name : String} {filter : Option Sql.Filter}
    (hd : Sql.prepare deletion bound = .ok (.delete name filter))
    (hs : Sql.prepare selection bound = .ok (.select name .all filter)) :
    (∃ e, s.execute selection bound = (.error e, s) ∧ s.execute deletion bound = (.error e, s)) ∨
    ∃ t chosen, Keyed.get? name s.tables = some t ∧
      (∀ row, chosen row = true ↔ row.Chosen filter bound) ∧
      s.execute selection bound =
        (.ok (.array ((t.rows.filter chosen).map Json.object)), s) ∧
      s.execute deletion bound = (.ok (affectedRows (t.rows.filter chosen).length), { s with
        tables := Keyed.put name { t with rows := t.rows.filter fun row => !chosen row }
          s.tables }) := by
  by_cases ha : s.available = true
  · rw [execute_of_prepare hd ha, execute_of_prepare hs ha, Tables.run, Tables.run]
    cases hg : Keyed.get? name s.tables with
    | none =>
      refine .inl ⟨.noTable name, ?_, ?_⟩
      · rw [Tables.select, Tables.find_eq, hg]
        rfl
      · rw [Tables.delete, Tables.find_eq, hg]
        rfl
    | some t =>
      cases hc : t.condition name filter bound with
      | error e =>
        refine .inl ⟨e, ?_, ?_⟩
        · rw [Tables.select, Tables.find_eq, hg, Option.elim_some]
          simp only [bind, Except.bind, hc]
          rfl
        · rw [Tables.delete, Tables.find_eq, hg, Option.elim_some]
          simp only [bind, Except.bind, hc]
      | ok condition =>
        refine .inr ⟨t, Row.meets condition, rfl, fun row => Row.meets_iff hc row, ?_, ?_⟩
        · rw [Tables.select_all_eq hg hc]
          rfl
        · rw [Tables.delete_eq hg hc]
  · refine .inl ⟨.unavailable, ?_, ?_⟩
    · rw [execute, hs]
      exact if_neg ha
    · rw [execute, hd]
      exact if_neg ha

/-- Whatever happens to a store that was empty, every row of every table has exactly the columns of
the table. A text that fails to execute leaves the store as it was, and so does a selection. A
statement leaves the log alone and every table but its own. A deletion reports how many rows a
selection by the same filter would give, takes out exactly these rows and keeps the others in their
order; it fails when that selection does. -/
theorem statements_respect_tables (usages : List Usage) :
    let s := Store.empty.used usages
    (∀ name t, Keyed.get? name s.tables = some t → ∀ row ∈ t.rows, row.Fits t.columns) ∧
    (∀ query bound e, (s.execute query bound).1 = .error e → (s.execute query bound).2 = s) ∧
    (∀ query bound statement, Sql.prepare query bound = .ok statement →
      (statement.isRead = true → (s.execute query bound).2 = s) ∧
      (s.execute query bound).2.log = s.log ∧
      ∀ other, other ≠ statement.table →
        Keyed.get? other (s.execute query bound).2.tables = Keyed.get? other s.tables) ∧
    ∀ deletion selection bound name filter,
      Sql.prepare deletion bound = .ok (.delete name filter) →
      Sql.prepare selection bound = .ok (.select name .all filter) →
      (∃ e, s.execute selection bound = (.error e, s) ∧
        s.execute deletion bound = (.error e, s)) ∨
      ∃ t chosen, Keyed.get? name s.tables = some t ∧
        (∀ row, chosen row = true ↔ row.Chosen filter bound) ∧
        s.execute selection bound =
          (.ok (.array ((t.rows.filter chosen).map Json.object)), s) ∧
        s.execute deletion bound = (.ok (affectedRows (t.rows.filter chosen).length), { s with
          tables := Keyed.put name { t with rows := t.rows.filter fun row => !chosen row }
            s.tables }) := by
  intro s
  have hshaped : s.tables.Shaped := shaped_used shaped_tables_empty usages
  refine ⟨?_, ?_, ?_, ?_⟩
  · intro name t hg
    exact hshaped.get? hg
  · intro query bound e h
    exact execute_failed h
  · intro query bound statement hp
    refine ⟨?_, ?_, ?_⟩
    · intro hread
      refine (queried_execute ⟨query, some bound⟩ s).eq_of_isRead ?_
      intro statement' hp'
      have hsame : statement = statement' := Except.ok.inj (hp.symm.trans hp')
      rw [← hsame]
      exact hread
    · rw [execute_tables]
    · intro other hne
      exact execute_other hp hne
  · intro deletion selection bound name filter hd hs
    exact execute_delete hd hs

/-- A table with a column that is named twice. One row lacks a value, the other one has two. -/
def stocked : List Usage :=
  [.act (.query ⟨"CREATE TABLE t (a, v, a)", none⟩),
   .act (.query ⟨"INSERT INTO t (v) VALUES (?)", some [.null]⟩),
   .act (.reach false), .act (.remove 1), .act (.reach true),
   .act (.query ⟨"INSERT INTO t (a, v, a) VALUES (1, ?, 2)", some [.bool true]⟩)]

theorem prepare_unstocking : Sql.prepare "DELETE FROM t WHERE v = ?" [.null] =
      .ok (.delete "t" (some ⟨"v", .placeholder 0⟩)) ∧
    Sql.prepare "SELECT * FROM t WHERE v = ?" [.null] =
      .ok (.select "t" .all (some ⟨"v", .placeholder 0⟩)) := by
  have hdelete : Sql.tokenize "DELETE FROM t WHERE v = ?".toList = .ok [.word "DELETE",
      .word "FROM", .word "t", .word "WHERE", .word "v", .equals, .placeholder] := by
    decide +kernel
  have hselect : Sql.tokenize "SELECT * FROM t WHERE v = ?".toList = .ok [.word "SELECT", .star,
      .word "FROM", .word "t", .word "WHERE", .word "v", .equals, .placeholder] := by
    decide +kernel
  constructor
  · rw [Sql.prepare, Sql.parse, hdelete]
    rfl
  · rw [Sql.prepare, Sql.parse, hselect]
    rfl

theorem stocked_row_deleted :
    let s := Store.empty.used stocked
    let after := s.execute "DELETE FROM t WHERE v = ?" [.null]
    (s.rows? "t").map List.length = some 2 ∧ (after.2.rows? "t").map List.length = some 1 ∧
    ∃ t chosen, Keyed.get? "t" s.tables = some t ∧ (∀ row ∈ t.rows, row.Fits t.columns) ∧
      s.execute "SELECT * FROM t WHERE v = ?" [.null] =
        (.ok (.array ((t.rows.filter chosen).map Json.object)), s) ∧
      after = (.ok (affectedRows (t.rows.filter chosen).length), { s with
        tables := Keyed.put "t" { t with rows := t.rows.filter fun row => !chosen row }
          s.tables }) := by
  have hcounts : ((Store.empty.used stocked).rows? "t").map List.length = some 2 ∧
      (((Store.empty.used stocked).execute "DELETE FROM t WHERE v = ?" [.null]).2.rows? "t").map
        List.length = some 1 := by decide +kernel
  have hrespects := statements_respect_tables stocked
  revert hcounts hrespects
  -- From here on the store is any one with these counts: unification must not run the statements.
  generalize Store.empty.used stocked = s
  rintro ⟨hrows, hafter⟩ ⟨hfits, -, -, hdelete⟩
  refine ⟨hrows, hafter, ?_⟩
  rcases hdelete _ _ _ _ _ prepare_unstocking.1 prepare_unstocking.2 with
    ⟨e, -, hfailed⟩ | ⟨t, chosen, hg, -, hselected, hdeleted⟩
  · rw [hfailed, hrows] at hafter
    exact absurd hafter (by decide)
  · exact ⟨t, chosen, hg, hfits "t" t hg, hselected, hdeleted⟩

end Store
end Accord
