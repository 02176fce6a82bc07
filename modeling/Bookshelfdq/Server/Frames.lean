import Bookshelfdq.Server.Numbering
import Bookshelfdq.Server.Account

/-! # Frames of the connection

What a use of the connection leaves alone is a relation between the connection before and after it.
A relation that the library calls respect is respected by every function that makes no others, and
one that also allows new tables by every function that writes. -/

namespace Bookshelfdq

/-! ## Relations -/

namespace Mysql

/-- Calls succeed or fail. -/
structure CallFrame (relation : Mysql → Mysql → Prop) : Prop where
  refl : ∀ db, relation db db
  trans : ∀ {first second third}, relation first second → relation second third →
    relation first third
  advance : ∀ db, relation db db.advance
  fail : ∀ db, relation db db.fail

/-- The accounts may change as well. -/
structure AccountFrame (relation : Mysql → Mysql → Prop) : Prop extends CallFrame relation where
  accounts : ∀ db rows, relation db { db with accounts := rows }

/-- Every table may change. -/
structure TableFrame (relation : Mysql → Mysql → Prop) : Prop extends AccountFrame relation where
  archive : ∀ db new, relation db { db with archive := new }
  affectedRows : ∀ db count, relation db { db with affectedRows := count }

end Mysql

/-! ## Queries -/

section Calls

variable {relation : Mysql → Mysql → Prop} (frame : Mysql.CallFrame relation)

include frame

theorem mysqlQuery_framed {statement : Mysql → Option Mysql}
    (respects : ∀ db after, statement db = some after → relation db after) (db : Mysql) :
    relation db (mysqlQuery statement db).2 := by
  rcases mysqlQuery_cases statement db with failed | ⟨after, accepted, result⟩
  · rw [failed]
    exact frame.fail db
  · rw [result]
    exact frame.trans (frame.advance db) (respects _ _ accepted)

theorem mysqlSelect_framed (db : Mysql) : relation db (mysqlSelect db).2 := by
  rcases mysqlSelect_cases db with failed | selected
  · rw [failed]
    exact frame.fail db
  · rw [selected]
    exact frame.advance db

theorem getSimpleResult_framed (value : Option α) (db : Mysql) :
    relation db (getSimpleResult value db).2 := by
  rcases getSimpleResult_cases value db with failed | fetched
  · rw [failed]
    exact frame.fail db
  · rw [fetched]
    exact frame.advance db

theorem execute_framed {statement : Mysql → Option Mysql}
    (respects : ∀ db after, statement db = some after → relation db after)
    (msg : MessageCs) (db : Mysql) : relation db (execute msg statement db).2 := by
  rw [execute]
  split
  · exact frame.refl db
  · exact mysqlQuery_framed frame respects db

theorem mysqlSelect_eq_framed {db after : Mysql} {accepted : Bool}
    (result : mysqlSelect db = (accepted, after)) : relation db after := by
  have framed := mysqlSelect_framed frame db
  rwa [result] at framed

theorem getSimpleResult_eq_framed {value found : Option α} {db after : Mysql}
    (result : getSimpleResult value db = (found, after)) : relation db after := by
  have framed := getSimpleResult_framed frame value db
  rwa [result] at framed

/-! ## Accounts -/

theorem srvdbAccountVerify_framed (bcrypt : Bcrypt) (msg : MessageCs) (db : Mysql) :
    relation db (srvdbAccountVerify bcrypt msg db).2.2 := by
  rw [srvdbAccountVerify]
  split
  · exact frame.refl db
  · split
    · exact mysqlSelect_eq_framed frame ‹_›
    · rename_i result
      have asked := mysqlSelect_eq_framed frame result
      split
      · exact frame.trans asked (getSimpleResult_eq_framed frame ‹_›)
      · rename_i result
        have typed := frame.trans asked (getSimpleResult_eq_framed frame result)
        split
        · exact typed
        · split
          · exact frame.trans typed (mysqlSelect_eq_framed frame ‹_›)
          · rename_i result
            have asked := frame.trans typed (mysqlSelect_eq_framed frame result)
            split
            · exact frame.trans asked (getSimpleResult_eq_framed frame ‹_›)
            · rename_i result
              have hashed := frame.trans asked (getSimpleResult_eq_framed frame result)
              split
              · exact hashed
              · split <;> exact hashed

theorem srvdbUserArchiveInit_framed (db : Mysql) : relation db (srvdbUserArchiveInit db).2 := by
  rw [srvdbUserArchiveInit]
  split
  · exact mysqlSelect_eq_framed frame ‹_›
  · rename_i created result
    exact frame.trans (mysqlSelect_eq_framed frame result) (mysqlSelect_framed frame created)

end Calls

section Enrolment

variable {relation : Mysql → Mysql → Prop} (frame : Mysql.AccountFrame relation)

include frame

theorem insertAccount_framed (account : AccountEntry) (hash : String) (db after : Mysql)
    (accepted : insertAccount account hash db = some after) : relation db after := by
  rcases Option.bind_eq_some_iff.mp accepted with ⟨name, _, stored⟩
  rcases Option.map_eq_some_iff.mp stored with ⟨password, _, rfl⟩
  exact frame.accounts db _

theorem srvdbAccountRegister_framed (bcrypt : Bcrypt) (salt : Option String) (msg : MessageCs)
    (db : Mysql) : relation db (srvdbAccountRegister bcrypt salt msg db).2.2 := by
  have calls := frame.toCallFrame
  rw [srvdbAccountRegister]
  dsimp only
  split
  · exact calls.refl db
  · split
    · exact mysqlSelect_eq_framed calls ‹_›
    · rename_i result
      have asked := mysqlSelect_eq_framed calls result
      split
      · exact calls.trans asked (getSimpleResult_eq_framed calls ‹_›)
      · rename_i result
        have counted := calls.trans asked (getSimpleResult_eq_framed calls result)
        split
        · exact counted
        · split
          · exact calls.trans counted (mysqlSelect_eq_framed calls ‹_›)
          · rename_i result
            have asked := calls.trans counted (mysqlSelect_eq_framed calls result)
            split
            · exact calls.trans asked (getSimpleResult_eq_framed calls ‹_›)
            · rename_i result
              have compared := calls.trans asked (getSimpleResult_eq_framed calls result)
              split
              · exact compared
              · split
                · exact compared
                · exact calls.trans compared
                    (mysqlQuery_framed calls (insertAccount_framed frame _ _) _)

end Enrolment

/-! ## The writing functions -/

section Tables

variable {relation : Mysql → Mysql → Prop} (frame : Mysql.TableFrame relation)

include frame

theorem Mysql.TableFrame.written (db : Mysql) (archive : Archive) (count : Nat) :
    relation db { db with archive := archive, affectedRows := count } :=
  frame.trans (frame.archive db archive) (frame.affectedRows _ count)

theorem updateBooks_framed (selected : BookRow → Bool) (change : BookRow → Option BookRow)
    (db after : Mysql) (accepted : updateBooks selected change db = some after) :
    relation db after := by
  rcases Option.map_eq_some_iff.mp accepted with ⟨books, _, rfl⟩
  exact frame.written db _ _

theorem updateShelves_framed (selected : ShelfRow → Bool) (change : ShelfRow → Option ShelfRow)
    (db after : Mysql) (accepted : updateShelves selected change db = some after) :
    relation db after := by
  rcases Option.map_eq_some_iff.mp accepted with ⟨shelves, _, rfl⟩
  exact frame.written db _ _

namespace Allocation

variable {Row : Type} [DecidableEq Row] (alloc : Allocation Row)

theorem updateStatement_framed (number : Int) (db after : Mysql)
    (accepted : alloc.updateStatement number db = some after) : relation db after := by
  rw [updateStatement] at accepted
  split at accepted
  · rcases Option.map_eq_some_iff.mp accepted with ⟨rows, _, rfl⟩
    exact frame.written db _ _
  · cases accepted

omit [DecidableEq Row] in
theorem insertStatement_framed (number : Int) (db after : Mysql)
    (accepted : alloc.insertStatement number db = some after) : relation db after := by
  rw [insertStatement] at accepted
  split at accepted
  · rcases Option.bind_eq_some_iff.mp accepted with ⟨row, _, inserted⟩
    rcases Option.map_eq_some_iff.mp inserted with ⟨rows, _, rfl⟩
    exact frame.written db _ _
  · cases accepted

theorem reuse_framed (msg : MessageCs) (db : Mysql) : relation db (alloc.reuse msg db).2 := by
  have calls := frame.toCallFrame
  have selected := mysqlSelect_framed calls db
  rw [reuse]
  split
  · rename_i result
    rwa [result] at selected
  · rename_i queried result
    rw [result] at selected
    have reached := calls.trans selected
      (getSimpleResult_framed calls (alloc.smallestDeleted queried.archive) queried)
    split
    · rename_i result
      rwa [result] at reached
    · rename_i number fetched result
      rw [result] at reached
      have updated := calls.trans reached
        (mysqlQuery_framed calls (updateStatement_framed frame alloc number) fetched)
      split
      · rename_i result
        rwa [result] at updated
      · rename_i result
        rw [result] at updated
        split <;> exact updated

omit [DecidableEq Row] in
theorem insertAt_framed (number : Int) (msg : MessageCs) (db : Mysql) :
    relation db (alloc.insertAt number msg db).2.2 := by
  have inserted := mysqlQuery_framed frame.toCallFrame (insertStatement_framed frame alloc number) db
  rw [insertAt]
  split
  · rename_i result
    rwa [result] at inserted
  · rename_i result
    rwa [result] at inserted

omit [DecidableEq Row] in
theorem extend_framed (msg : MessageCs) (db : Mysql) : relation db (alloc.extend msg db).2.2 := by
  have calls := frame.toCallFrame
  have selected := mysqlSelect_framed calls db
  rw [extend]
  split
  · rename_i result
    rwa [result] at selected
  · rename_i queried result
    rw [result] at selected
    have reached := calls.trans selected
      (getSimpleResult_framed calls (alloc.largest queried.archive) queried)
    split
    · rename_i number fetched result
      rw [result] at reached
      split
      · exact reached
      · exact calls.trans reached (insertAt_framed frame alloc (number + 1) msg fetched)
    · rename_i fetched result
      rw [result] at reached
      exact calls.trans reached (insertAt_framed frame alloc 1 msg fetched)

theorem allocate_framed (msg : MessageCs) (db : Mysql) :
    relation db (alloc.allocate msg db).2.2 := by
  have reused := reuse_framed frame alloc msg db
  rw [allocate]
  split
  · exact frame.refl db
  · split
    · rename_i result
      rwa [result] at reused
    · rename_i middle result
      rw [result] at reused
      exact frame.trans reused (extend_framed frame alloc msg middle)

end Allocation

theorem ArchiveRequest.perform_framed (db : Mysql) (request : ArchiveRequest) :
    relation db (request.perform db).2.2 := by
  have calls := frame.toCallFrame
  cases request with
  | bookInsert msg => exact Allocation.allocate_framed frame _ msg db
  | bookDelete msg => exact execute_framed calls (updateBooks_framed frame _ _) msg db
  | bookUpdate msg =>
      simp only [perform, srvdbBookUpdate]
      split
      · exact execute_framed calls (updateBooks_framed frame _ _) msg db
      · apply execute_framed calls
        intro db after accepted
        split at accepted
        · exact updateBooks_framed frame _ _ db after accepted
        · cases accepted
  | shelfBuild msg => exact Allocation.allocate_framed frame _ msg db
  | shelfRemove msg => exact execute_framed calls (updateShelves_framed frame _ _) msg db

end Tables

end Bookshelfdq
