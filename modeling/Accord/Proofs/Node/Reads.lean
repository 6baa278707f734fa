import Accord.Proofs.Node.Write

/-! # What reads write

A read is executed at once, by the leader when its round begins and by each peer when it is asked.
It never touches the log. The text of a read may be any statement, though, and nothing keeps one
that writes from changing the tables; these changes are in no log, so no other node can catch up
with them. A read that only selects leaves the whole store as it is. -/
namespace Accord

theorem Tables.run_of_isRead {statement : Sql.Statement} {bound : List Json} {tables after : Tables}
    {result : Json} (hs : statement.isRead = true)
    (hr : tables.run statement bound = .ok (result, after)) : after = tables := by
  cases statement with
  | select table projection filter =>
    simp only [run] at hr
    cases hrows : select table projection filter bound tables with
    | error e =>
      rw [hrows] at hr
      cases hr
    | ok rows =>
      rw [hrows] at hr
      cases hr
      rfl
  | _ => cases hs

namespace Store

/-- What a store can be after a command was executed on it. Only the tables of a store in reach
change, and only by a statement that writes and can be run. -/
inductive Queried (command : Command) (s : Store) : Store → Prop
  | kept : Queried command s s
  | updated {statement : Sql.Statement} {result : Json} {tables : Tables}
      (hp : Sql.prepare command.query command.bound = .ok statement)
      (hw : statement.isRead = false) (ha : s.available = true)
      (hr : s.tables.run statement command.bound = .ok (result, tables)) :
      Queried command s { s with tables }

variable {command : Command} {s t : Store}

theorem queried_execute (command : Command) (s : Store) :
    Queried command s (s.execute command.query command.bound).2 := by
  unfold execute
  cases hp : Sql.prepare command.query command.bound with
  | error cause => exact .kept
  | ok statement =>
    simp only
    split
    · rename_i ha
      cases hr : s.tables.run statement command.bound with
      | error e => exact .kept
      | ok done =>
        obtain ⟨result, tables⟩ := done
        cases hw : statement.isRead with
        | false => exact .updated hp hw ha hr
        | true =>
          obtain rfl := Tables.run_of_isRead hw hr
          exact .kept
    · exact .kept

theorem Queried.log (h : Queried command s t) : t.log = s.log := by
  cases h <;> rfl

/-- A command that is no statement, or one that only selects, leaves a store as it is. -/
theorem Queried.eq_of_isRead (h : Queried command s t)
    (hs : ∀ statement, Sql.prepare command.query command.bound = .ok statement →
      statement.isRead = true) : t = s := by
  cases h with
  | kept => rfl
  | updated hp hw =>
    rw [hs _ hp] at hw
    cases hw

end Store

namespace Node

/-- The leader executes a read when its round begins, unless it is cut off. -/
theorem queried_openRound (number : Nat) (command : Command) (n : Node) :
    n.store.Queried command (n.openRound ⟨number, .get, command⟩).store := by
  have ho := opened ⟨number, .get, command⟩ n
  generalize n.openRound ⟨number, .get, command⟩ = m at ho
  cases ho with
  | cutOff => exact .kept
  | read => exact Store.queried_execute command n.store
  | unwritten _ hm => cases hm
  | write _ hm => cases hm

/-- A peer executes a read when it is asked for its outcome. -/
theorem queried_onRoundRequest (sender : MemberId) (command : Command) (round : Option Nat)
    (n : Node) :
    n.store.Queried command (n.onMessage sender (.roundRequest .get command round)).store :=
  Store.queried_execute command n.store

/-- Reads leave the log alone, at the leader and at its peers. They leave the tables alone, too,
unless their text is a statement that writes: then it is run like any other. -/
theorem reads_keep_log_and_select (n : Node) (command : Command) (number : Nat) (sender : MemberId)
    (round : Option Nat) :
    ((n.openRound ⟨number, .get, command⟩).store.log = n.store.log ∧
      n.store.Queried command (n.openRound ⟨number, .get, command⟩).store) ∧
    ((n.onMessage sender (.roundRequest .get command round)).store.log = n.store.log ∧
      n.store.Queried command (n.onMessage sender (.roundRequest .get command round)).store) ∧
    ((∀ statement, Sql.prepare command.query command.bound = .ok statement →
        statement.isRead = true) →
      (n.openRound ⟨number, .get, command⟩).store = n.store ∧
        (n.onMessage sender (.roundRequest .get command round)).store = n.store) := by
  have hleader := queried_openRound number command n
  have hpeer := queried_onRoundRequest sender command round n
  exact ⟨⟨hleader.log, hleader⟩, ⟨hpeer.log, hpeer⟩, fun hs =>
    ⟨hleader.eq_of_isRead hs, hpeer.eq_of_isRead hs⟩⟩

/-- The first node of two with an empty table. -/
def tabled : Node := { ofTwo with store := { Store.empty with tables := [("t", .empty ["v"])] } }

/-- A read that inserts a row. -/
def insertion : Command := ⟨"INSERT INTO t (v) VALUES (1)", none⟩

theorem read_inserts_row :
    (tabled.openRound ⟨0, .get, insertion⟩).store.tables ≠ tabled.store.tables ∧
    (tabled.onMessage 2 (.roundRequest .get insertion (some 1))).store.tables ≠
      tabled.store.tables := by
  have hbefore : (tabled.store.rows? "t").map List.length = some 0 := by decide +kernel
  have hleader : ((tabled.openRound ⟨0, .get, insertion⟩).store.rows? "t").map List.length =
      some 1 := by decide +kernel
  have hpeer : ((tabled.onMessage 2 (.roundRequest .get insertion (some 1))).store.rows? "t").map
      List.length = some 1 := by decide +kernel
  refine ⟨fun h => ?_, fun h => ?_⟩
  · rw [Store.rows?, h, ← Store.rows?, hbefore] at hleader
    cases hleader
  · rw [Store.rows?, h, ← Store.rows?, hbefore] at hpeer
    cases hpeer

end Node
end Accord
