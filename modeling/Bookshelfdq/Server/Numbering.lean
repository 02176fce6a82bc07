import Bookshelfdq.Foundation.Execution
import Bookshelfdq.Server.Effects

/-! # Numbering of books and shelves

Any sequence of the five writing functions, on any messages of `Clisrv` and with any pattern
of failing queries and fetches, keeps the numbers in both tables gap free and
within their limits. -/

namespace Bookshelfdq

inductive ArchiveRequest
  | bookInsert (msg : MessageCs)
  | bookDelete (msg : MessageCs)
  | bookUpdate (msg : MessageCs)
  | shelfBuild (msg : MessageCs)
  | shelfRemove (msg : MessageCs)

namespace ArchiveRequest

/-- Result, message and connection after one call. -/
def perform (db : Mysql) : ArchiveRequest → Bool × MessageCs × Mysql
  | bookInsert msg => srvdbBookInsert msg db
  | bookDelete msg => let result := srvdbBookDelete msg db; (result.1, msg, result.2)
  | bookUpdate msg => let result := srvdbBookUpdate msg db; (result.1, msg, result.2)
  | shelfBuild msg => srvdbShelfBuild msg db
  | shelfRemove msg => let result := srvdbShelfRemove msg db; (result.1, msg, result.2)

/-- `failed` is cleared first, so that afterwards it speaks about this call. -/
def call (db : Mysql) (request : ArchiveRequest) : Bool × MessageCs × Mysql :=
  request.perform { db with failed := false }

def step (db : Mysql) (request : ArchiveRequest) : Mysql := (request.call db).2.2

end ArchiveRequest

namespace Archive

def BooksNumbered (archive : Archive) : Prop :=
  ∃ count ≤ maxBookNum, Table.Numbered BookRow.bookno count archive.books

def ShelvesNumbered (archive : Archive) : Prop :=
  ∃ count ≤ maxShelfNum, Table.Numbered ShelfRow.shelfno count archive.shelves

def WellNumbered (archive : Archive) : Prop :=
  archive.BooksNumbered ∧ archive.ShelvesNumbered

theorem wellNumbered_empty : WellNumbered ⟨[], []⟩ :=
  ⟨⟨0, by omega, rfl⟩, ⟨0, by omega, rfl⟩⟩

theorem WellNumbered.ordered {archive : Archive} (numbered : archive.WellNumbered)
    (selected : BookRow → Bool) :
    (archive.books.filter selected).Pairwise fun left right => left.bookno < right.bookno := by
  rcases numbered with ⟨⟨count, _, numbered⟩, _⟩
  exact numbered.pairwise_lt.filter _

theorem WellNumbered.bookno_bounds {archive : Archive} (numbered : archive.WellNumbered)
    {row : BookRow} (member : row ∈ archive.books) :
    0 < row.bookno ∧ row.bookno < breakLimitInt := by
  rcases numbered with ⟨⟨count, bound, numbered⟩, _⟩
  have bounds := (numbered.mem_iff row.bookno).mp ⟨row, member, rfl⟩
  have limit : breakLimitInt = 10001 := by decide
  have capacity : maxBookNum = 10000 := rfl
  omega

theorem BooksNumbered.update {archive : Archive} {selected : BookRow → Bool}
    {change : BookRow → Option BookRow} {books : List BookRow}
    (numbered : archive.BooksNumbered)
    (keeps : ∀ row changed, change row = some changed → changed.bookno = row.bookno)
    (updated : Table.update selected change archive.books = some books) :
    BooksNumbered { archive with books := books } := by
  rcases numbered with ⟨count, bound, numbered⟩
  exact ⟨count, bound, numbered.update keeps updated⟩

theorem WellNumbered.cleanBooks {archive : Archive} (numbered : archive.WellNumbered)
    (cleaned : BookCleaned) (selected : BookRow → Bool) :
    (archive.cleanBooks cleaned selected).WellNumbered := by
  have updated := Table.update_total selected (BookRow.clean cleaned) archive.books
  refine ⟨numbered.1.update ?_ updated, numbered.2⟩
  intro row changed equal
  rw [← Option.some.inj equal]
  rfl

theorem WellNumbered.cleanShelf {archive : Archive} (numbered : archive.WellNumbered)
    (shelfno : Int) : (archive.cleanShelf shelfno).WellNumbered := by
  rcases numbered with ⟨books, count, bound, shelves⟩
  have updated := Table.update_total (fun row : ShelfRow => row.shelfno == shelfno)
    (ShelfRow.clean .del) archive.shelves
  refine ⟨books, count, bound, shelves.update ?_ updated⟩
  intro row changed equal
  rw [← Option.some.inj equal]
  rfl

end Archive

theorem srvdbBookInsert_contract (msg : MessageCs) (db : Mysql)
    (numbered : db.archive.BooksNumbered) :
    (bookAllocation db.mode msg.stuff.book).Contract msg db.archive
      (srvdbBookInsert msg db) :=
  Allocation.allocate_contract _ msg db numbered

theorem srvdbShelfBuild_contract (msg : MessageCs) (db : Mysql)
    (numbered : db.archive.ShelvesNumbered) :
    (shelfAllocation db.mode msg.stuff.shelf).Contract msg db.archive
      (srvdbShelfBuild msg db) :=
  Allocation.allocate_contract _ msg db numbered

theorem Allocation.Contract.archive_eq {Row : Type} {alloc : Allocation Row}
    {msg : MessageCs} {before : Archive} {result : Bool × MessageCs × Mysql}
    (contract : alloc.Contract msg before result) :
    result.2.2.archive = alloc.replace (alloc.rows result.2.2.archive) before := by
  cases outcome : result.1 with
  | true =>
      rcases contract.given outcome with ⟨number, _, given⟩
      exact given.only
  | false =>
      rw [contract.unchanged outcome]
      exact (alloc.replace_rows before).symm

theorem srvdbBookInsert_shelves (msg : MessageCs) (db : Mysql)
    (numbered : db.archive.BooksNumbered) :
    (srvdbBookInsert msg db).2.2.archive.shelves = db.archive.shelves := by
  rw [(srvdbBookInsert_contract msg db numbered).archive_eq]
  rfl

theorem srvdbShelfBuild_books (msg : MessageCs) (db : Mysql)
    (numbered : db.archive.ShelvesNumbered) :
    (srvdbShelfBuild msg db).2.2.archive.books = db.archive.books := by
  rw [(srvdbShelfBuild_contract msg db numbered).archive_eq]
  rfl

theorem srvdbBookDelete_wellNumbered (msg : MessageCs) (db : Mysql)
    (numbered : db.archive.WellNumbered) :
    (srvdbBookDelete msg db).2.archive.WellNumbered := by
  rcases srvdbBookDelete_cases msg db with ⟨after, result, archive⟩ | ⟨after, result, archive⟩
  · rw [result, archive]
    exact numbered
  · rw [result, archive]
    exact numbered.cleanBooks _ _

theorem srvdbBookUpdate_wellNumbered (msg : MessageCs) (db : Mysql)
    (numbered : db.archive.WellNumbered) :
    (srvdbBookUpdate msg db).2.archive.WellNumbered := by
  rcases srvdbBookUpdate_cases msg db with ⟨after, result, archive⟩ |
    ⟨after, result, _, archive⟩ | ⟨after, books, result, _, updated, archive⟩
  · rw [result, archive]
    exact numbered
  · rw [result, archive]
    exact numbered.cleanBooks _ _
  · rw [result, archive]
    refine ⟨numbered.1.update ?_ updated, numbered.2⟩
    intro row changed fits
    exact (BookEntry.row_eq_some fits).1

theorem srvdbShelfRemove_wellNumbered (msg : MessageCs) (db : Mysql)
    (numbered : db.archive.WellNumbered) :
    (srvdbShelfRemove msg db).2.archive.WellNumbered := by
  rcases srvdbShelfRemove_cases msg db with ⟨after, result, archive⟩ | ⟨after, result, archive⟩
  · rw [result, archive]
    exact numbered
  · rw [result, archive]
    exact numbered.cleanShelf _

namespace ArchiveRequest

theorem perform_wellNumbered (db : Mysql) (request : ArchiveRequest)
    (numbered : db.archive.WellNumbered) :
    (request.perform db).2.2.archive.WellNumbered := by
  cases request with
  | bookInsert msg =>
      refine ⟨(srvdbBookInsert_contract msg db numbered.1).numbered, ?_⟩
      have shelves := srvdbBookInsert_shelves msg db numbered.1
      rw [Archive.ShelvesNumbered]
      exact shelves ▸ numbered.2
  | bookDelete msg => exact srvdbBookDelete_wellNumbered msg db numbered
  | bookUpdate msg => exact srvdbBookUpdate_wellNumbered msg db numbered
  | shelfBuild msg =>
      refine ⟨?_, (srvdbShelfBuild_contract msg db numbered.2).numbered⟩
      have books := srvdbShelfBuild_books msg db numbered.2
      rw [Archive.BooksNumbered]
      exact books ▸ numbered.1
  | shelfRemove msg => exact srvdbShelfRemove_wellNumbered msg db numbered

theorem step_wellNumbered (db : Mysql) (request : ArchiveRequest)
    (numbered : db.archive.WellNumbered) : (step db request).archive.WellNumbered :=
  perform_wellNumbered { db with failed := false } request numbered

theorem run_wellNumbered {mode : SqlMode} {collation : Char → Char → Bool}
    {accounts : List AccountRow} {faults : List Bool} {history : List ArchiveRequest} {db : Mysql}
    (reached : db = Execution.run step (Mysql.fresh mode collation accounts faults) history) :
    db.archive.WellNumbered := by
  have start : (Mysql.fresh mode collation accounts faults).archive.WellNumbered :=
    Archive.wellNumbered_empty
  rw [reached]
  exact Execution.run_invariant step_wellNumbered start history

end ArchiveRequest

end Bookshelfdq
