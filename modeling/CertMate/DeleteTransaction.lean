import CertMate.CallTrees
import CertMate.SqliteStore

/-!
# The transaction of a deletion

`DeleteCertificateWithAudit` of `internal/store/sqlite/store.go`, one call of
`database/sql` at a time. The transaction works on a copy of the database; only
a commit puts the copy in its place.
-/
namespace DeleteTransaction
open CertificateModel CallTrees SqliteStore

inductive Sql where
  | beginTx
  | insertEvent (event : Event)
  | deleteCertificate (id : Id)
  | rowsAffected
  | commit
  | rollback
  deriving DecidableEq, Repr

abbrev Value : Sql → Type
  | .rowsAffected => Nat
  | _ => Unit

abbrev Answer (e : Sql) : Type := Except Error (Value e)

/-- The database, the copy that an open transaction works on, the rows its last
statement has changed, and the number of calls. -/
structure Connection where
  db : Db
  working : Option Db
  affected : Nat
  calls : Nat

namespace Connection

def opened (db : Db) : Connection := ⟨db, none, 0, 0⟩

def tick (c : Connection) : Connection := { c with calls := c.calls + 1 }

end Connection

/-- How a call fails; a failure may be the end of the transaction, as that of a
commit always is. -/
structure Failure where
  err : Error
  done : Bool

/-- `sql.ErrTxDone`. -/
def txDone : Error := .new "sql: transaction has already been committed or rolled back"

/-- A call that goes through. -/
def act : (e : Sql) → Connection → Answer e × Connection
  | .beginTx, c => (.ok (), { c with working := some c.db })
  | .insertEvent event, c =>
    match c.working with
    | none => (.error txDone, c)
    | some db =>
      if referenced db event.certificateID then
        (.ok (), { c with working := some (db.insertEvent event), affected := 1 })
      else (.error (.database "FOREIGN KEY constraint failed" false), c)
  | .deleteCertificate id, c =>
    match c.working with
    | none => (.error txDone, c)
    | some db =>
      (.ok (), { c with
        working := some (db.deleteCertificate id)
        affected := if (db.row id).isSome then 1 else 0 })
  | .rowsAffected, c => (.ok c.affected, c)
  | .commit, c =>
    match c.working with
    | none => (.error txDone, c)
    | some db => (.ok (), { c with db := db, working := none })
  | .rollback, c =>
    match c.working with
    | none => (.error txDone, c)
    | some _ => (.ok (), { c with working := none })

def exec (fails : Nat → Option Failure) (e : Sql) (c : Connection) : Answer e × Connection :=
  match fails c.calls with
  | some refusal =>
    (.error refusal.err,
      { c.tick with working := if refusal.done ∨ e = .commit then none else c.working })
  | none => ((act e c).1, (act e c).2.tick)

abbrev Transaction (α : Type) := Prog Sql Answer α

section Calls

abbrev beginTx : Transaction (Except Error Unit) := Prog.perform Sql.beginTx
abbrev insertEvent (event : Event) : Transaction (Except Error Unit) :=
  Prog.perform (Sql.insertEvent event)
abbrev deleteRow (id : Id) : Transaction (Except Error Unit) :=
  Prog.perform (Sql.deleteCertificate id)
abbrev rowsAffected : Transaction (Except Error Nat) := Prog.perform Sql.rowsAffected
abbrev commit : Transaction (Except Error Unit) := Prog.perform Sql.commit

end Calls

/-- The closure of the method. -/
def rollback (operationErr : Error) : Transaction (Except Error Unit) := do
  match ← (Prog.perform Sql.rollback : Transaction (Except Error Unit)) with
  | .error rollbackErr =>
    if rollbackErr = txDone then return .error operationErr
    else return .error (.join operationErr (.wrap "回滚删除证书事务" rollbackErr))
  | .ok () => return .error operationErr

/-- From the creation time of the event on. -/
def deleteCertificateWithAudit (id : Id) (event : Event) : Transaction (Except Error Unit) := do
  match ← beginTx with
  | .error err => return .error (.wrap "开始删除证书事务" err)
  | .ok () =>
    match ← insertEvent event with
    | .error err => rollback (.wrap "创建删除审计记录" err)
    | .ok () =>
      match ← deleteRow id with
      | .error err => rollback (.wrap "删除证书记录" err)
      | .ok () =>
        match ← rowsAffected with
        | .error err => rollback (.wrap "读取删除证书结果" err)
        | .ok count =>
          if count = 0 then rollback .notFound
          else
            match ← commit with
            | .error err => rollback (.wrap "提交删除证书事务" err)
            | .ok () => return .ok ()

section Steps
variable {fails : Nat → Option Failure} {c c' : Connection}

theorem exec_ok {e : Sql} {v : Value e} (made : exec fails e c = (.ok v, c')) :
    (act e c).1 = .ok v ∧ c' = (act e c).2.tick := by
  unfold exec at made
  split at made
  · cases made
  · exact ⟨congrArg Prod.fst made, (congrArg Prod.snd made).symm⟩

/-- Only a commit changes the database. -/
theorem exec_db {e : Sql} {a : Answer e} (other : e ≠ .commit)
    (made : exec fails e c = (a, c')) : c'.db = c.db := by
  have after : (exec fails e c).2 = c' := congrArg Prod.snd made
  rw [← after]
  unfold exec
  split
  · rfl
  · cases e with
    | commit => exact absurd rfl other
    | beginTx => rfl
    | rowsAffected => rfl
    | insertEvent event =>
      simp only [act]
      repeat' first | rfl | split
    | deleteCertificate id =>
      simp only [act]
      split <;> rfl
    | rollback =>
      simp only [act]
      split <;> rfl

theorem commit_error {err : Error} (made : exec fails .commit c = (.error err, c')) :
    c'.db = c.db := by
  unfold exec at made
  split at made
  · cases made
    rfl
  · obtain ⟨answer, rfl⟩ := Prod.mk.inj made
    simp only [act] at answer ⊢
    split at answer
    · rfl
    · cases answer

theorem rollback_run (operationErr : Error) : ∃ err c', c'.db = c.db ∧
    run (exec fails) (rollback operationErr) c = (.error err, c') := by
  unfold rollback
  rw [Prog.perform_bind, run_call]
  generalize made : exec fails .rollback c = r
  obtain ⟨a, c₁⟩ := r
  have same := exec_db (by decide) made
  cases a with
  | error err =>
    dsimp only
    split
    · exact ⟨_, c₁, same, rfl⟩
    · exact ⟨_, c₁, same, rfl⟩
  | ok _ => exact ⟨_, c₁, same, rfl⟩

end Steps

/-- Either all of it has been done, or nothing and an error is returned. -/
inductive Atomic (id : Id) (event : Event) (db : Db) : Except Error Unit → Db → Prop
  | done (known : referenced db event.certificateID = true) (there : (db.row id).isSome = true) :
    Atomic id event db (.ok ()) ((db.insertEvent event).deleteCertificate id)
  | undone (err : Error) : Atomic id event db (.error err) db

/-- Whatever call of the transaction fails, and however. -/
theorem transaction_atomic (fails : Nat → Option Failure) (id : Id) (event : Event) (db : Db) :
    Atomic id event db
      (run (exec fails) (deleteCertificateWithAudit id event) (.opened db)).1
      (run (exec fails) (deleteCertificateWithAudit id event) (.opened db)).2.db := by
  have back : ∀ {c : Connection} {err : Error}, c.db = db → Atomic id event db
      (run (exec fails) (rollback err) c).1 (run (exec fails) (rollback err) c).2.db := by
    intro c err same
    obtain ⟨err', c', kept, ran⟩ := @rollback_run fails c err
    rw [ran]
    dsimp only
    rw [kept, same]
    exact .undone err'
  unfold deleteCertificateWithAudit
  rw [Prog.perform_bind, run_call]
  generalize begun : exec fails .beginTx (.opened db) = r
  obtain ⟨a, c₁⟩ := r
  have db₁ : c₁.db = db := exec_db (by decide) begun
  cases a with
  | error err =>
    dsimp only
    rw [Prog.pure_eq, run_ret]
    exact db₁ ▸ .undone _
  | ok _ =>
    have working₁ : c₁.working = some db := by
      rw [(exec_ok begun).2]
      rfl
    dsimp only
    rw [Prog.perform_bind, run_call]
    generalize inserted : exec fails (.insertEvent event) c₁ = r
    obtain ⟨a, c₂⟩ := r
    have db₂ : c₂.db = db := (exec_db (by exact nofun) inserted).trans db₁
    cases a with
    | error err => exact back db₂
    | ok _ =>
      obtain ⟨known, working₂⟩ : referenced db event.certificateID = true ∧
          c₂.working = some (db.insertEvent event) := by
        obtain ⟨answer, state⟩ := exec_ok inserted
        rw [state]
        simp only [act, working₁] at answer ⊢
        split at answer
        · rename_i known
          rw [if_pos known]
          exact ⟨known, rfl⟩
        · cases answer
      dsimp only
      rw [Prog.perform_bind, run_call]
      generalize deleted : exec fails (.deleteCertificate id) c₂ = r
      obtain ⟨a, c₃⟩ := r
      have db₃ : c₃.db = db := (exec_db (by exact nofun) deleted).trans db₂
      cases a with
      | error err => exact back db₃
      | ok _ =>
        obtain ⟨working₃, affected₃⟩ :
            c₃.working = some ((db.insertEvent event).deleteCertificate id) ∧
              c₃.affected = if (db.row id).isSome then 1 else 0 := by
          rw [(exec_ok deleted).2]
          simp only [act, working₂]
          exact ⟨rfl, rfl⟩
        dsimp only
        rw [Prog.perform_bind, run_call]
        generalize counted : exec fails .rowsAffected c₃ = r
        obtain ⟨a, c₄⟩ := r
        have db₄ : c₄.db = db := (exec_db (by decide) counted).trans db₃
        cases a with
        | error err => exact back db₄
        | ok count =>
          obtain ⟨same, state⟩ := exec_ok counted
          have working₄ : c₄.working = some ((db.insertEvent event).deleteCertificate id) := by
            rw [state]
            exact working₃
          dsimp only
          split
          · exact back db₄
          · rename_i some_
            rw [Prog.perform_bind, run_call]
            generalize committed : exec fails .commit c₄ = r
            obtain ⟨a, c₅⟩ := r
            cases a with
            | error err => exact back ((commit_error committed).trans db₄)
            | ok _ =>
              have there : (db.row id).isSome = true := by
                have counted : count = c₃.affected := (Except.ok.inj same).symm
                rw [counted, affected₃] at some_
                by_contra absent
                rw [if_neg absent] at some_
                exact some_ rfl
              have final : c₅.db = (db.insertEvent event).deleteCertificate id := by
                rw [(exec_ok committed).2]
                simp only [act, working₄]
                rfl
              dsimp only
              rw [Prog.pure_eq, run_ret]
              rw [final]
              exact .done known there

/-- With no call failing the transaction is the one call of the store that it is
taken for. -/
theorem transaction_calm (B : Backend) (id : Id) (event : Event) (db : Db) :
    (run (exec fun _ => none) (deleteCertificateWithAudit id (newEvent (B.clock db.calls) event))
        (.opened db)).1 = (SqliteStore.act B (.deleteCertificateWithAudit id event) db).1 ∧
      (run (exec fun _ => none) (deleteCertificateWithAudit id (newEvent (B.clock db.calls) event))
        (.opened db)).2.db = (SqliteStore.act B (.deleteCertificateWithAudit id event) db).2 := by
  by_cases known : referenced db event.certificateID = true
  · have known' : referenced db (newEvent (B.clock db.calls) event).certificateID = true := known
    cases found : db.row id with
    | none =>
      have counted : ((db.insertEvent (newEvent (B.clock db.calls) event)).row id).isSome = false := by
        rw [Db.row_insertEvent, found]
        rfl
      simp only [deleteCertificateWithAudit, Prog.perform_bind, run_call, exec, act,
        Connection.opened, Connection.tick, SqliteStore.act, known, known', if_true, found, counted,
        rollback]
      exact ⟨rfl, rfl⟩
    | some value =>
      have counted : ((db.insertEvent (newEvent (B.clock db.calls) event)).row id).isSome = true := by
        rw [Db.row_insertEvent, found]
        rfl
      simp only [deleteCertificateWithAudit, Prog.perform_bind, run_call, exec, act,
        Connection.opened, Connection.tick, SqliteStore.act, known, known', if_true, found, counted]
      exact ⟨rfl, rfl⟩
  · have known' : ¬ referenced db (newEvent (B.clock db.calls) event).certificateID = true := known
    simp only [deleteCertificateWithAudit, Prog.perform_bind, run_call, exec, act,
      Connection.opened, Connection.tick, SqliteStore.act, if_neg known, if_neg known', rollback]
    exact ⟨rfl, rfl⟩

end DeleteTransaction
