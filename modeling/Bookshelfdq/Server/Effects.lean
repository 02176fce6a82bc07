import Bookshelfdq.Server.Srvdb

/-! # What the requests do to the archive

One inversion lemma for each request that writes: it fails and leaves the archive
alone, or it succeeds with one known change. Every invariant of the archive is
derived from these. -/

namespace Bookshelfdq

/-! ## The statements -/

theorem updateBooks_eq_some {selected : BookRow → Bool}
    {change : BookRow → Option BookRow} {db after : Mysql}
    (accepted : updateBooks selected change db = some after) :
    ∃ books, Table.update selected change db.archive.books = some books ∧
      after.archive = { db.archive with books := books } := by
  rcases Option.map_eq_some_iff.mp accepted with ⟨books, updated, rfl⟩
  exact ⟨books, updated, rfl⟩

theorem execute_cases (msg : MessageCs) (statement : Mysql → Option Mysql) (db : Mysql) :
    (∃ after, execute msg statement db = (false, after) ∧ after.archive = db.archive) ∨
    (∃ after, execute msg statement db = (true, after) ∧
      statement db.advance = some after) := by
  rw [execute]
  split
  · exact .inl ⟨db, rfl, rfl⟩
  · rcases mysqlQuery_cases statement db with failed | ⟨after, accepted, result⟩
    · exact .inl ⟨db.fail, failed, rfl⟩
    · exact .inr ⟨after, result, accepted⟩

/-- A statement that MySQL accepts is carried out when nothing fails. -/
theorem execute_of_healthy {msg : MessageCs} {statement : Mysql → Option Mysql}
    {db after : Mysql} (named : msg.user ≠ "") (healthy : db.nextFault = false)
    (accepted : statement db.advance = some after) :
    execute msg statement db = (true, after) := by
  simp [execute, mysqlQuery, named, healthy, accepted]

/-! ## The requests -/

def Archive.cleanBooks (cleaned : BookCleaned) (selected : BookRow → Bool)
    (archive : Archive) : Archive :=
  { archive with books := archive.books.map fun row =>
      if selected row then row.clean cleaned else row }

def Archive.cleanShelf (shelfno : Int) (archive : Archive) : Archive :=
  { archive with shelves := archive.shelves.map fun row =>
      if row.shelfno == shelfno then row.clean .del else row }

theorem updateBooks_clean (cleaned : BookCleaned) (selected : BookRow → Bool) (db : Mysql) :
    ∃ after, updateBooks selected (fun row => some (row.clean cleaned)) db = some after ∧
      after.archive = db.archive.cleanBooks cleaned selected := by
  rw [updateBooks, Table.update_total]
  exact ⟨_, rfl, rfl⟩

theorem updateShelves_clean (shelfno : Int) (db : Mysql) :
    ∃ after, updateShelves (fun row => row.shelfno == shelfno)
        (fun row => some (row.clean .del)) db = some after ∧
      after.archive = db.archive.cleanShelf shelfno := by
  rw [updateShelves, Table.update_total]
  exact ⟨_, rfl, rfl⟩

/-- The rows a delete request marks. -/
def BookEntry.deletes (book : BookEntry) (row : BookRow) : Bool :=
  if book.namesShelf then row.shelfno == book.shelfno else row.bookno == book.bookno

theorem srvdbBookDelete_cases (msg : MessageCs) (db : Mysql) :
    (∃ after, srvdbBookDelete msg db = (false, after) ∧ after.archive = db.archive) ∨
    (∃ after, srvdbBookDelete msg db = (true, after) ∧
      after.archive = db.archive.cleanBooks .del msg.stuff.book.deletes) := by
  rcases execute_cases msg (updateBooks msg.stuff.book.deletes
    (fun row => some (row.clean .del))) db with failed | ⟨after, result, accepted⟩
  · exact .inl failed
  · rcases updateBooks_clean .del msg.stuff.book.deletes db.advance with
      ⟨expected, accepts, archive⟩
    rw [accepts] at accepted
    obtain rfl := Option.some.inj accepted
    exact .inr ⟨expected, result, archive⟩

theorem srvdbBookDelete_of_healthy {msg : MessageCs} {db : Mysql} (named : msg.user ≠ "")
    (healthy : db.nextFault = false) :
    ∃ after, srvdbBookDelete msg db = (true, after) ∧
      after.archive = db.archive.cleanBooks .del msg.stuff.book.deletes := by
  rcases updateBooks_clean .del msg.stuff.book.deletes db.advance with
    ⟨after, accepts, archive⟩
  exact ⟨after, execute_of_healthy named healthy accepts, archive⟩

theorem srvdbBookUpdate_cases (msg : MessageCs) (db : Mysql) :
    (∃ after, srvdbBookUpdate msg db = (false, after) ∧ after.archive = db.archive) ∨
    (∃ after, srvdbBookUpdate msg db = (true, after) ∧ msg.stuff.book.namesShelf = true ∧
      after.archive = db.archive.cleanBooks .unsorted
        (fun row => row.shelfno == msg.stuff.book.shelfno)) ∨
    (∃ after books, srvdbBookUpdate msg db = (true, after) ∧
      msg.stuff.book.namesShelf = false ∧
      Table.update (fun row => row.bookno == msg.stuff.book.bookno)
        (fun row => msg.stuff.book.row db.mode row.bookno) db.archive.books = some books ∧
      after.archive = { db.archive with books := books }) := by
  cases whole : msg.stuff.book.namesShelf with
  | true =>
      simp only [srvdbBookUpdate, whole, if_true]
      rcases execute_cases msg (updateBooks (fun row => row.shelfno == msg.stuff.book.shelfno)
        (fun row => some (row.clean .unsorted))) db with failed | ⟨after, result, accepted⟩
      · exact .inl failed
      · rcases updateBooks_clean .unsorted (fun row => row.shelfno == msg.stuff.book.shelfno)
          db.advance with ⟨expected, accepts, archive⟩
        rw [accepts] at accepted
        obtain rfl := Option.some.inj accepted
        exact .inr (.inl ⟨expected, result, trivial, archive⟩)
  | false =>
      simp only [srvdbBookUpdate, whole, Bool.false_eq_true, if_false]
      rcases execute_cases msg (fun db => if msg.stuff.book.wellFormed then
          updateBooks (fun row => row.bookno == msg.stuff.book.bookno)
            (fun row => msg.stuff.book.row db.mode row.bookno) db
        else none) db with failed | ⟨after, result, accepted⟩
      · exact .inl failed
      · split at accepted
        · rcases updateBooks_eq_some accepted with ⟨books, updated, archive⟩
          exact .inr (.inr ⟨after, books, result, trivial, updated, archive⟩)
        · cases accepted

theorem srvdbShelfRemove_cases (msg : MessageCs) (db : Mysql) :
    (∃ after, srvdbShelfRemove msg db = (false, after) ∧ after.archive = db.archive) ∨
    (∃ after, srvdbShelfRemove msg db = (true, after) ∧
      after.archive = db.archive.cleanShelf msg.stuff.shelf.code) := by
  rcases execute_cases msg (updateShelves (fun row => row.shelfno == msg.stuff.shelf.code)
    (fun row => some (row.clean .del))) db with failed | ⟨after, result, accepted⟩
  · exact .inl failed
  · rcases updateShelves_clean msg.stuff.shelf.code db.advance with
      ⟨expected, accepts, archive⟩
    rw [accepts] at accepted
    obtain rfl := Option.some.inj accepted
    exact .inr ⟨expected, result, archive⟩

end Bookshelfdq
