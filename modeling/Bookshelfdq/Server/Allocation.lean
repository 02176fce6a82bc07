import Bookshelfdq.Foundation.Numbering
import Bookshelfdq.Server.Mysql

/-! # Handing out numbers

`srvdb_book_insert` and `srvdb_shelf_build` are one algorithm on two tables. A
number marked deleted is reused by an `UPDATE`, the smallest first; otherwise the
number after the largest one is tried with an `INSERT`. Every failure on the first
path falls through to the second, where a failed fetch is read as an empty
table. -/

namespace Bookshelfdq

/-- What differs between the two tables: where the rows are, what the `SET` and
`VALUES` lists make of a row (`none` for a value that does not fit), whether the
values spliced in without escaping leave a well-formed statement, the limit, and
the texts of the two refusals. -/
structure Allocation (Row : Type) where
  rows : Archive → List Row
  replace : List Row → Archive → Archive
  number : Row → Int
  deleted : Row → Bool
  available : Row → Bool
  wellFormed : Bool
  renew : Row → Option Row
  create : Int → Option Row
  capacity : Nat
  record : Int → MessageCs → MessageCs
  fullText : String
  failText : String
  capacity_pos : 1 ≤ capacity
  rows_replace : ∀ new archive, rows (replace new archive) = new
  replace_rows : ∀ archive, replace (rows archive) archive = archive
  number_renew : ∀ row renewed, renew row = some renewed → number renewed = number row
  available_renew : ∀ row renewed, renew row = some renewed → available renewed = true
  number_create : ∀ next row, create next = some row → number row = next
  available_create : ∀ next row, create next = some row → available row = true
  deleted_of_available : ∀ row, available row = true → deleted row = false

namespace Allocation

variable {Row : Type}

def updateStatement [DecidableEq Row] (alloc : Allocation Row) (number : Int)
    (db : Mysql) : Option Mysql :=
  if alloc.wellFormed then
    (Table.update (fun row => alloc.number row == number) alloc.renew
        (alloc.rows db.archive)).map fun rows =>
      { db with
        archive := alloc.replace rows db.archive
        affectedRows := Table.affected (fun row => alloc.number row == number) alloc.renew
          (alloc.rows db.archive) }
  else none

def insertStatement (alloc : Allocation Row) (number : Int) (db : Mysql) : Option Mysql :=
  if alloc.wellFormed then
    (alloc.create number).bind fun row =>
      (Table.insert alloc.number row (alloc.rows db.archive)).map fun rows =>
        { db with archive := alloc.replace rows db.archive, affectedRows := 1 }
  else none

def smallestDeleted (alloc : Allocation Row) (archive : Archive) : Option Int :=
  (((alloc.rows archive).filter alloc.deleted).map alloc.number).min?

def largest (alloc : Allocation Row) (archive : Archive) : Option Int :=
  ((alloc.rows archive).map alloc.number).max?

/-- The first path, up to its `return(1)`. -/
def reuse [DecidableEq Row] (alloc : Allocation Row) (msg : MessageCs) (db : Mysql) :
    Option MessageCs × Mysql :=
  match mysqlSelect db with
  | (false, db) => (none, db)
  | (true, db) =>
      match getSimpleResult (alloc.smallestDeleted db.archive) db with
      | (none, db) => (none, db)
      | (some number, db) =>
          match mysqlQuery (alloc.updateStatement number) db with
          | (false, db) => (none, db)
          | (true, db) =>
              if db.affectedRows = 1 then (some (alloc.record number msg), db)
              else (none, db)

def insertAt (alloc : Allocation Row) (number : Int) (msg : MessageCs) (db : Mysql) :
    Bool × MessageCs × Mysql :=
  match mysqlQuery (alloc.insertStatement number) db with
  | (true, db) => (true, alloc.record number msg, db)
  | (false, db) => (false, { alloc.record number msg with errorText := alloc.failText }, db)

/-- The second path. -/
def extend (alloc : Allocation Row) (msg : MessageCs) (db : Mysql) :
    Bool × MessageCs × Mysql :=
  match mysqlSelect db with
  | (false, db) => (false, msg, db)
  | (true, db) =>
      match getSimpleResult (alloc.largest db.archive) db with
      | (some number, db) =>
          if (alloc.capacity : Int) ≤ number then
            (false, { msg with errorText := alloc.fullText }, db)
          else alloc.insertAt (number + 1) msg db
      | (none, db) => alloc.insertAt 1 msg db

def allocate [DecidableEq Row] (alloc : Allocation Row) (msg : MessageCs) (db : Mysql) :
    Bool × MessageCs × Mysql :=
  if msg.user = "" then (false, msg, db)
  else match alloc.reuse msg db with
    | (some msg, db) => (true, msg, db)
    | (none, db) => alloc.extend msg db

/-! ## What an allocation can do -/

/-- The archive after a deleted number has been given out again. -/
def Renewed (alloc : Allocation Row) (number : Int) (before after : Archive) : Prop :=
  alloc.smallestDeleted before = some number ∧
    ∃ rows, Table.update (fun row => alloc.number row == number) alloc.renew
      (alloc.rows before) = some rows ∧ after = alloc.replace rows before

/-- The archive after a new number has been given out. -/
def Extended (alloc : Allocation Row) (number : Int) (before after : Archive) : Prop :=
  number ∉ (alloc.rows before).map alloc.number ∧
    (number = 1 ∨ ∃ last, alloc.largest before = some last ∧ last < alloc.capacity ∧
      number = last + 1) ∧
    ∃ row, alloc.create number = some row ∧
      after = alloc.replace (alloc.rows before ++ [row]) before

theorem updateStatement_eq_some [DecidableEq Row] {alloc : Allocation Row}
    {number : Int} {db after : Mysql}
    (accepted : alloc.updateStatement number db = some after) :
    (∃ rows, Table.update (fun row => alloc.number row == number) alloc.renew
      (alloc.rows db.archive) = some rows ∧
      after.archive = alloc.replace rows db.archive) ∧
    after.affectedRows = Table.affected (fun row => alloc.number row == number) alloc.renew
      (alloc.rows db.archive) ∧
    after.failed = db.failed := by
  rw [updateStatement] at accepted
  split at accepted
  · rcases Option.map_eq_some_iff.mp accepted with ⟨rows, updated, rfl⟩
    exact ⟨⟨rows, updated, rfl⟩, rfl, rfl⟩
  · cases accepted

theorem insertStatement_eq_some {alloc : Allocation Row} {number : Int} {db after : Mysql}
    (accepted : alloc.insertStatement number db = some after) :
    (∃ row, alloc.create number = some row ∧
      number ∉ (alloc.rows db.archive).map alloc.number ∧
      after.archive = alloc.replace (alloc.rows db.archive ++ [row]) db.archive) ∧
    after.failed = db.failed := by
  rw [insertStatement] at accepted
  split at accepted
  · rcases Option.bind_eq_some_iff.mp accepted with ⟨row, created, inserted⟩
    rcases Option.map_eq_some_iff.mp inserted with ⟨rows, fresh, rfl⟩
    rcases Table.insert_eq_some_iff.mp fresh with ⟨absent, rfl⟩
    rw [alloc.number_create number row created] at absent
    exact ⟨⟨row, created, absent, rfl⟩, rfl⟩
  · cases accepted

theorem smallestDeleted_eq_some {alloc : Allocation Row} {archive : Archive} {number : Int}
    (smallest : alloc.smallestDeleted archive = some number) :
    ∃ row ∈ alloc.rows archive, alloc.deleted row = true ∧ alloc.number row = number :=
  Table.smallest_eq_some smallest

/-- The reused row really changes, so that the check of the affected rows always
passes after a successful `UPDATE`. -/
theorem affected_renew_eq_one [DecidableEq Row] (alloc : Allocation Row)
    {archive : Archive} {number : Int}
    (nodup : ((alloc.rows archive).map alloc.number).Nodup)
    (smallest : alloc.smallestDeleted archive = some number) :
    Table.affected (fun row => alloc.number row == number) alloc.renew
      (alloc.rows archive) = 1 := by
  apply Table.affected_smallest_eq_one nodup _ smallest
  intro row renewed renews
  exact alloc.deleted_of_available renewed (alloc.available_renew row renewed renews)

theorem reuse_cases [DecidableEq Row] (alloc : Allocation Row) (msg : MessageCs) (db : Mysql)
    (nodup : ((alloc.rows db.archive).map alloc.number).Nodup) :
    (∃ number after, alloc.reuse msg db = (some (alloc.record number msg), after) ∧
      alloc.Renewed number db.archive after.archive ∧ after.failed = db.failed) ∨
    (∃ after, alloc.reuse msg db = (none, after) ∧ after.archive = db.archive ∧
      (after.failed = false →
        db.failed = false ∧ alloc.smallestDeleted db.archive = none)) := by
  rw [reuse]
  rcases mysqlSelect_cases db with selected | selected <;> rw [selected]
  · exact .inr ⟨db.fail, rfl, rfl, fun healthy => by simp at healthy⟩
  · dsimp only [Mysql.advance_archive]
    rcases getSimpleResult_cases (alloc.smallestDeleted db.archive) db.advance with
      fetched | fetched <;> rw [fetched]
    · exact .inr ⟨_, rfl, rfl, fun healthy => by simp at healthy⟩
    · cases smallest : alloc.smallestDeleted db.archive with
      | none => exact .inr ⟨_, rfl, rfl, fun healthy => ⟨healthy, rfl⟩⟩
      | some number =>
          dsimp only
          rcases mysqlQuery_cases (alloc.updateStatement number) db.advance.advance with
            rejected | ⟨after, accepted, result⟩
          · rw [rejected]
            exact .inr ⟨_, rfl, rfl, fun healthy => by simp at healthy⟩
          · rw [result]
            rcases updateStatement_eq_some accepted with
              ⟨⟨rows, updated, archive⟩, count, failed⟩
            have one := alloc.affected_renew_eq_one nodup smallest
            have counted : after.affectedRows = 1 := count.trans one
            dsimp only
            rw [if_pos counted]
            exact .inl ⟨number, after, rfl, ⟨smallest, rows, updated, archive⟩, failed⟩

theorem insertAt_cases (alloc : Allocation Row) (number : Int) (msg : MessageCs) (db : Mysql) :
    (∃ row after, alloc.insertAt number msg db = (true, alloc.record number msg, after) ∧
      alloc.create number = some row ∧
      number ∉ (alloc.rows db.archive).map alloc.number ∧
      after.archive = alloc.replace (alloc.rows db.archive ++ [row]) db.archive ∧
      after.failed = db.failed) ∨
    (∃ after, alloc.insertAt number msg db =
        (false, { alloc.record number msg with errorText := alloc.failText }, after) ∧
      after.archive = db.archive ∧ after.failed = true) := by
  rw [insertAt]
  rcases mysqlQuery_cases (alloc.insertStatement number) db with
    rejected | ⟨after, accepted, result⟩
  · rw [rejected]
    exact .inr ⟨db.fail, rfl, rfl, rfl⟩
  · rw [result]
    rcases insertStatement_eq_some accepted with ⟨⟨row, created, absent, archive⟩, failed⟩
    exact .inl ⟨row, after, rfl, created, absent, archive, failed⟩

/-- How a call of the second path can end. The last case is the only one in which
a refusal comes without a failed query. -/
theorem extend_cases (alloc : Allocation Row) (msg : MessageCs) (db : Mysql) :
    (∃ number after, alloc.extend msg db = (true, alloc.record number msg, after) ∧
      alloc.Extended number db.archive after.archive ∧
      (after.failed = false → db.failed = false ∧
        ∀ last, alloc.largest db.archive = some last → last < alloc.capacity)) ∨
    (∃ answer after, alloc.extend msg db = (false, answer, after) ∧
      after.archive = db.archive ∧ after.failed = true) ∨
    (∃ last after, alloc.extend msg db =
        (false, { msg with errorText := alloc.fullText }, after) ∧
      after.archive = db.archive ∧ after.failed = db.failed ∧
      alloc.largest db.archive = some last ∧ alloc.capacity ≤ last) := by
  rw [extend]
  rcases mysqlSelect_cases db with selected | selected <;> rw [selected]
  · exact .inr (.inl ⟨_, _, rfl, rfl, rfl⟩)
  · dsimp only [Mysql.advance_archive]
    rcases getSimpleResult_cases (alloc.largest db.archive) db.advance with
      fetched | fetched <;> rw [fetched]
    · -- the failed fetch is taken for an empty table
      dsimp only
      rcases alloc.insertAt_cases 1 msg db.advance.fail with
        ⟨row, after, result, created, absent, archive, failed⟩ |
        ⟨after, result, archive, failed⟩
      · refine .inl ⟨1, after, result, ⟨absent, .inl rfl, row, created, archive⟩, ?_⟩
        intro healthy
        rw [failed] at healthy
        cases healthy
      · exact .inr (.inl ⟨_, after, result, archive, failed⟩)
    · cases biggest : alloc.largest db.archive with
      | none =>
          dsimp only
          rcases alloc.insertAt_cases 1 msg db.advance.advance with
            ⟨row, after, result, created, absent, archive, failed⟩ |
            ⟨after, result, archive, failed⟩
          · refine .inl ⟨1, after, result, ⟨absent, .inl rfl, row, created, archive⟩, ?_⟩
            intro healthy
            exact ⟨failed ▸ healthy, nofun⟩
          · exact .inr (.inl ⟨_, after, result, archive, failed⟩)
      | some last =>
          dsimp only
          split
          · rename_i full
            exact .inr (.inr ⟨last, _, rfl, rfl, rfl, rfl, full⟩)
          · rename_i room
            rcases alloc.insertAt_cases (last + 1) msg db.advance.advance with
              ⟨row, after, result, created, absent, archive, failed⟩ |
              ⟨after, result, archive, failed⟩
            · refine .inl ⟨last + 1, after, result,
                ⟨absent, .inr ⟨last, biggest, by omega, rfl⟩, row, created, archive⟩, ?_⟩
              intro healthy
              refine ⟨failed ▸ healthy, fun other equal => ?_⟩
              obtain rfl := Option.some.inj equal
              omega
            · exact .inr (.inl ⟨_, after, result, archive, failed⟩)

theorem allocate_cases [DecidableEq Row] (alloc : Allocation Row) (msg : MessageCs) (db : Mysql)
    (nodup : ((alloc.rows db.archive).map alloc.number).Nodup) :
    (∃ number after, alloc.allocate msg db = (true, alloc.record number msg, after) ∧
      (alloc.Renewed number db.archive after.archive ∨
        alloc.Extended number db.archive after.archive)) ∨
    (∃ answer after, alloc.allocate msg db = (false, answer, after) ∧
      after.archive = db.archive) := by
  rw [allocate]
  split
  · exact .inr ⟨msg, db, rfl, rfl⟩
  · rcases alloc.reuse_cases msg db nodup with
      ⟨number, after, result, renewed, _⟩ | ⟨middle, result, same, _⟩ <;> rw [result]
    · exact .inl ⟨number, after, rfl, .inl renewed⟩
    · dsimp only
      rw [← same]
      rcases alloc.extend_cases msg middle with
        ⟨number, after, result, extended, _⟩ | ⟨answer, after, result, archive, _⟩ |
        ⟨last, after, result, archive, _⟩
      · exact .inl ⟨number, after, result, .inr extended⟩
      · exact .inr ⟨answer, after, result, archive⟩
      · exact .inr ⟨_, after, result, archive⟩

/-! ## Numbering is kept -/

/-- The numbers in use are `1, …, count` with `count` within the capacity. -/
def WellNumbered (alloc : Allocation Row) (archive : Archive) : Prop :=
  ∃ count : Nat, count ≤ alloc.capacity ∧
    Table.Numbered alloc.number count (alloc.rows archive)

/-- Every number the table can hold is in use and not deleted. -/
def Full (alloc : Allocation Row) (archive : Archive) : Prop :=
  ∀ number : Int, 1 ≤ number → number ≤ alloc.capacity →
    ∃ row ∈ alloc.rows archive, alloc.number row = number ∧ alloc.deleted row = false

/-- The number `number` was free before and is given to an available row, and
nothing else has changed. -/
structure Given (alloc : Allocation Row) (number : Int) (before after : Archive) : Prop where
  free : ∀ row ∈ alloc.rows before, alloc.number row = number → alloc.deleted row = true
  taken : ∃ row ∈ alloc.rows after, alloc.number row = number ∧ alloc.available row = true
  others : (alloc.rows after).filter (fun row => alloc.number row != number) =
    (alloc.rows before).filter (fun row => alloc.number row != number)
  only : after = alloc.replace (alloc.rows after) before

theorem WellNumbered.nodup {alloc : Allocation Row} {archive : Archive}
    (numbered : alloc.WellNumbered archive) :
    ((alloc.rows archive).map alloc.number).Nodup := by
  have within : Table.Within alloc.number alloc.capacity (alloc.rows archive) := numbered
  exact within.nodup

theorem Renewed.wellNumbered {alloc : Allocation Row} {number : Int}
    {before after : Archive} (renewed : alloc.Renewed number before after)
    (numbered : alloc.WellNumbered before) : alloc.WellNumbered after := by
  rcases renewed with ⟨_, rows, updated, rfl⟩
  rw [WellNumbered, alloc.rows_replace]
  exact Table.Within.update alloc.number_renew numbered updated

theorem Extended.wellNumbered {alloc : Allocation Row} {number : Int}
    {before after : Archive} (extended : alloc.Extended number before after)
    (numbered : alloc.WellNumbered before) : alloc.WellNumbered after := by
  rcases extended with ⟨absent, next, row, created, rfl⟩
  obtain rfl := alloc.number_create number row created
  rw [WellNumbered, alloc.rows_replace]
  exact Table.Within.append numbered alloc.capacity_pos absent next

theorem Renewed.given {alloc : Allocation Row} {number : Int} {before after : Archive}
    (renewed : alloc.Renewed number before after)
    (numbered : alloc.WellNumbered before) : alloc.Given number before after := by
  rcases renewed with ⟨smallest, rows, updated, rfl⟩
  have taken := Table.taken_of_update alloc.number_renew numbered alloc.available_renew smallest
    updated
  rw [← alloc.rows_replace rows before] at taken
  exact ⟨taken.free, taken.taken, taken.others, by rw [alloc.rows_replace]⟩

theorem Extended.given {alloc : Allocation Row} {number : Int} {before after : Archive}
    (extended : alloc.Extended number before after) : alloc.Given number before after := by
  rcases extended with ⟨absent, _, row, created, rfl⟩
  obtain rfl := alloc.number_create number row created
  have taken := @Table.taken_of_append _ _ alloc.deleted _ _ _ absent
    (alloc.available_create _ row created)
  rw [← alloc.rows_replace (alloc.rows before ++ [row]) before] at taken
  exact ⟨taken.free, taken.taken, taken.others, by rw [alloc.rows_replace]⟩

theorem Given.keeps {alloc : Allocation Row} {number : Int} {before after : Archive}
    (given : alloc.Given number before after) {row : Row} (member : row ∈ alloc.rows before)
    (kept : alloc.number row ≠ number ∨ alloc.deleted row = false) : row ∈ alloc.rows after := by
  have different : alloc.number row ≠ number := by
    rcases kept with different | alive
    · exact different
    · intro equal
      rw [given.free row member equal] at alive
      cases alive
  have filtered : row ∈ (alloc.rows before).filter (fun row => alloc.number row != number) :=
    List.mem_filter.mpr ⟨member, by simpa using different⟩
  rw [← given.others] at filtered
  exact (List.mem_filter.mp filtered).1

/-- Where the rows after an allocation come from. -/
theorem allocate_mem [DecidableEq Row] (alloc : Allocation Row) (msg : MessageCs) (db : Mysql)
    (numbered : alloc.WellNumbered db.archive) {row : Row}
    (member : row ∈ alloc.rows (alloc.allocate msg db).2.2.archive) :
    row ∈ alloc.rows db.archive ∨ (∃ old, alloc.renew old = some row) ∨
      ∃ number, alloc.create number = some row := by
  rcases alloc.allocate_cases msg db numbered.nodup with
    ⟨number, after, result, renewed | extended⟩ | ⟨answer, after, result, same⟩ <;>
    rw [result] at member
  · rcases renewed with ⟨_, rows, updated, archive⟩
    rw [archive, alloc.rows_replace] at member
    rcases Table.exists_source_of_mem updated member with ⟨old, oldMem, becomes⟩
    rw [Table.Becomes] at becomes
    split at becomes
    · exact .inr (.inl ⟨old, becomes⟩)
    · exact .inl (Option.some.inj becomes ▸ oldMem)
  · rcases extended with ⟨_, _, created, creates, archive⟩
    rw [archive, alloc.rows_replace] at member
    rcases List.mem_append.mp member with old | new
    · exact .inl old
    · exact .inr (.inr ⟨number, List.mem_singleton.mp new ▸ creates⟩)
  · rw [same] at member
    exact .inl member

/-- With numbers `1, …, count`, the table is full exactly when nothing is deleted
and the largest number has reached the capacity. -/
theorem full_iff {alloc : Allocation Row} {archive : Archive}
    (numbered : alloc.WellNumbered archive) :
    alloc.Full archive ↔ alloc.smallestDeleted archive = none ∧
      ∃ last, alloc.largest archive = some last ∧ (alloc.capacity : Int) ≤ last := by
  have within : Table.Within alloc.number alloc.capacity (alloc.rows archive) := numbered
  exact Table.full_iff within alloc.capacity_pos

/-- The contract of `srvdb_book_insert` and `srvdb_shelf_build` on a well-numbered
table. -/
structure Contract (alloc : Allocation Row) (msg : MessageCs) (before : Archive)
    (result : Bool × MessageCs × Mysql) : Prop where
  numbered : alloc.WellNumbered result.2.2.archive
  given : result.1 = true → ∃ number, result.2.1 = alloc.record number msg ∧
    alloc.Given number before result.2.2.archive
  unchanged : result.1 = false → result.2.2.archive = before
  refusal : msg.user ≠ "" → result.2.2.failed = false →
    (result.1 = false ∧ result.2.1.errorText = alloc.fullText ↔ alloc.Full before)

theorem allocate_contract [DecidableEq Row] (alloc : Allocation Row) (msg : MessageCs) (db : Mysql)
    (numbered : alloc.WellNumbered db.archive) :
    alloc.Contract msg db.archive (alloc.allocate msg db) := by
  rw [allocate]
  by_cases anonymous : msg.user = ""
  · rw [if_pos anonymous]
    exact ⟨numbered, nofun, fun _ => rfl,
      fun named => absurd anonymous named⟩
  · rw [if_neg anonymous]
    have full := full_iff numbered
    rcases alloc.reuse_cases msg db numbered.nodup with
      ⟨number, after, result, renewed, _⟩ | ⟨middle, result, same, healthy⟩ <;> rw [result]
    · refine ⟨renewed.wellNumbered numbered, ?_, nofun, ?_⟩
      · intro _
        exact ⟨number, rfl, renewed.given numbered⟩
      · intro _ _
        constructor
        · intro refused
          cases refused.1
        · intro isFull
          have none := (full.mp isFull).1
          rw [renewed.1] at none
          cases none
    · dsimp only
      rw [← same] at numbered full healthy ⊢
      rcases alloc.extend_cases msg middle with
        ⟨number, after, result, extended, room⟩ | ⟨answer, after, result, archive, failed⟩ |
        ⟨last, after, result, archive, failed, biggest, reached⟩ <;> rw [result]
      · refine ⟨extended.wellNumbered numbered, ?_,
          nofun, ?_⟩
        · intro _
          exact ⟨number, rfl, extended.given⟩
        · intro _ success
          constructor
          · intro refused
            cases refused.1
          · intro isFull
            rcases (full.mp isFull).2 with ⟨last, biggest, reached⟩
            have below := (room success).2 last biggest
            omega
      · refine ⟨archive ▸ numbered, nofun, fun _ => archive, ?_⟩
        intro _ success
        rw [failed] at success
        cases success
      · refine ⟨archive ▸ numbered, nofun, fun _ => archive, ?_⟩
        intro _ success
        rw [failed] at success
        constructor
        · intro _
          exact full.mpr ⟨(healthy success).2, last, biggest, reached⟩
        · intro _
          exact ⟨rfl, rfl⟩

/-! ## When nothing fails -/

section Healthy

variable (alloc : Allocation Row) (msg : MessageCs) {db : Mysql} (healthy : db.faults = [])
  (wellFormed : alloc.wellFormed = true)
include healthy wellFormed

theorem reuse_of_healthy [DecidableEq Row] (numbered : alloc.WellNumbered db.archive)
    {number : Int} (smallest : alloc.smallestDeleted db.archive = some number)
    (fits : ∀ row, ∃ renewed, alloc.renew row = some renewed) :
    ∃ after, alloc.reuse msg db = (some (alloc.record number msg), after) := by
  obtain ⟨rows, updated⟩ := Table.exists_update (fun row => alloc.number row == number)
    (fun row (_ : row ∈ alloc.rows db.archive) => fits row)
  have one := alloc.affected_renew_eq_one numbered.nodup smallest
  have accepted : alloc.updateStatement number db = some { db with
      archive := alloc.replace rows db.archive, affectedRows := 1 } := by
    rw [updateStatement, if_pos wellFormed, updated, one]
    rfl
  rw [reuse, mysqlSelect_of_faultless healthy]
  dsimp only
  rw [getSimpleResult_of_faultless healthy, smallest]
  dsimp only
  rw [mysqlQuery_of_faultless healthy accepted]
  exact ⟨_, if_pos rfl⟩

theorem insertAt_of_healthy {number : Int} {row : Row} (created : alloc.create number = some row)
    (absent : number ∉ (alloc.rows db.archive).map alloc.number) :
    (alloc.insertAt number msg db).1 = true := by
  have inserted : Table.insert alloc.number row (alloc.rows db.archive) =
      some (alloc.rows db.archive ++ [row]) := by
    rw [Table.insert_eq_some_iff, alloc.number_create number row created]
    exact ⟨absent, rfl⟩
  have accepted : alloc.insertStatement number db = some { db with
      archive := alloc.replace (alloc.rows db.archive ++ [row]) db.archive
      affectedRows := 1 } := by
    rw [insertStatement, if_pos wellFormed, created, Option.bind_some, inserted]
    rfl
  rw [insertAt, mysqlQuery_of_faultless healthy accepted]

theorem extend_of_healthy (numbered : alloc.WellNumbered db.archive)
    (room : ∀ last, alloc.largest db.archive = some last → last < alloc.capacity)
    (fits : ∀ number, ∃ row, alloc.create number = some row) :
    (alloc.extend msg db).1 = true := by
  obtain ⟨count, bound, keys⟩ := numbered
  have keys : (alloc.rows db.archive).map alloc.number = Table.numbers count := keys
  have biggest : alloc.largest db.archive = if count = 0 then none else some (count : Int) := by
    rw [largest, keys, Table.numbers_max?]
  have absent : (count : Int) + 1 ∉ (alloc.rows db.archive).map alloc.number := by
    rw [keys, Table.mem_numbers]
    omega
  obtain ⟨row, created⟩ := fits (count + 1)
  have inserted := alloc.insertAt_of_healthy msg healthy wellFormed created absent
  rw [extend, mysqlSelect_of_faultless healthy]
  dsimp only
  rw [getSimpleResult_of_faultless healthy, biggest]
  by_cases empty : count = 0
  · rw [if_pos empty]
    subst empty
    exact inserted
  · rw [if_neg empty] at biggest ⊢
    have below := room count biggest
    dsimp only
    rw [if_neg (by omega)]
    exact inserted

/-- A value that fits is given a number as long as one is left. -/
theorem allocate_of_healthy [DecidableEq Row] (named : msg.user ≠ "")
    (numbered : alloc.WellNumbered db.archive) (room : ¬ alloc.Full db.archive)
    (renews : ∀ row, alloc.renew row = alloc.create (alloc.number row))
    (fits : ∀ number, ∃ row, alloc.create number = some row) :
    (alloc.allocate msg db).1 = true := by
  rw [allocate, if_neg named]
  cases smallest : alloc.smallestDeleted db.archive with
  | some number =>
      obtain ⟨after, reused⟩ := alloc.reuse_of_healthy msg healthy wellFormed numbered smallest
        (fun row => renews row ▸ fits _)
      rw [reused]
  | none =>
      have kept : alloc.reuse msg db = (none, db) := by
        rw [reuse, mysqlSelect_of_faultless healthy]
        dsimp only
        rw [getSimpleResult_of_faultless healthy, smallest]
      rw [kept]
      apply alloc.extend_of_healthy msg healthy wellFormed numbered _ fits
      intro last biggest
      by_contra reached
      exact room ((full_iff numbered).mpr ⟨smallest, last, biggest, by omega⟩)

end Healthy

/-- The row that a successful allocation leaves behind. -/
theorem allocate_row [DecidableEq Row] (alloc : Allocation Row) (msg : MessageCs)
    (db : Mysql) (numbered : alloc.WellNumbered db.archive)
    (renews : ∀ row, alloc.renew row = alloc.create (alloc.number row))
    (succeeds : (alloc.allocate msg db).1 = true) :
    ∃ number row, (alloc.allocate msg db).2.1 = alloc.record number msg ∧
      alloc.create number = some row ∧ row ∈ alloc.rows (alloc.allocate msg db).2.2.archive := by
  rcases alloc.allocate_cases msg db numbered.nodup with
    ⟨number, after, result, renewed | extended⟩ | ⟨answer, after, result, same⟩
  · obtain ⟨smallest, rows, updated, archive⟩ := renewed
    obtain ⟨old, member, _, equal⟩ := smallestDeleted_eq_some smallest
    obtain ⟨row, rowMem, becomes⟩ := Table.exists_becomes_of_mem updated member
    rw [Table.Becomes, if_pos (by simpa using equal), renews, equal] at becomes
    rw [result, archive, alloc.rows_replace]
    exact ⟨number, row, rfl, becomes, rowMem⟩
  · obtain ⟨_, _, row, created, archive⟩ := extended
    rw [result, archive, alloc.rows_replace]
    exact ⟨number, row, rfl, created, by simp⟩
  · rw [result] at succeeds
    cases succeeds

end Allocation

end Bookshelfdq
