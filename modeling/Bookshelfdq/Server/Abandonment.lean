import Bookshelfdq.Server.ShelfIntegrity

/-! # Abandoning the books of a shelf

The request that gives up a shelf's books selects rows by the shelf number alone.
Unsorted books keep the number of the shelf they once stood on, and a number comes
back into use when a new shelf is built, so that the request also reaches books
that stand nowhere. -/

namespace Bookshelfdq

/-- Exactly the books standing on the shelf have a new `cleaned` flag. -/
def AbandonsStanding (shelfno : Int) (before after : List BookRow) : Prop :=
  List.Forall₂ (fun old new => new.cleaned ≠ old.cleaned ↔
    old.shelfno = shelfno ∧ old.cleaned = .avl) before after

instance (shelfno : Int) (before after : List BookRow) :
    Decidable (AbandonsStanding shelfno before after) :=
  inferInstanceAs (Decidable (List.Forall₂ _ before after))

theorem clientShelfAbandonBooks_deletes {loginUser : String} {shelfno : Int}
    (real : shelfno ≠ nonSenseInt) (row : BookRow) :
    (clientShelfAbandonBooksMsg loginUser shelfno).stuff.book.deletes row =
      (row.shelfno == shelfno) := by
  simp [clientShelfAbandonBooksMsg, wholeShelfMsg, BookEntry.deletes, BookEntry.namesShelf, real]

theorem step_abandonBooks {server : Server} {loginUser : String} {shelfno : Int}
    (named : loginUser ≠ "") (real : shelfno ≠ nonSenseInt)
    (healthy : server.db.nextFault = false) :
    (server.step (clientShelfAbandonBooksMsg loginUser shelfno)).db.archive =
      server.db.archive.cleanBooks .del (fun row => row.shelfno == shelfno) := by
  have written : (clientShelfAbandonBooksMsg loginUser shelfno).archiveRequest =
      some (.bookDelete (clientShelfAbandonBooksMsg loginUser shelfno)) := rfl
  have selection : (clientShelfAbandonBooksMsg loginUser shelfno).stuff.book.deletes =
      fun row => row.shelfno == shelfno := by
    funext row
    exact clientShelfAbandonBooks_deletes real row
  have sender : (clientShelfAbandonBooksMsg loginUser shelfno).user ≠ "" := named
  rcases srvdbBookDelete_of_healthy sender healthy with ⟨after, result, archive⟩
  rw [Server.step_of_archiveRequest written, ArchiveRequest.perform, result, archive, selection]

/-- A deleted flag written over one row is the change asked for, unless the row is
unsorted and stood on the shelf. -/
theorem clean_del_changes_iff (shelfno : Int) (row : BookRow) :
    (((if row.shelfno == shelfno then row.clean .del else row).cleaned ≠ row.cleaned ↔
        row.shelfno = shelfno ∧ row.cleaned = .avl) ↔
      (row.shelfno = shelfno → row.cleaned ≠ .unsorted)) := by
  by_cases standing : row.shelfno = shelfno
  · cases flag : row.cleaned <;> simp [standing, BookRow.clean]
  · simp [standing]

theorem abandonsStanding_cleanBooks_iff (shelfno : Int) (archive : Archive) :
    AbandonsStanding shelfno archive.books
        (archive.cleanBooks .del (fun row => row.shelfno == shelfno)).books ↔
      ∀ row ∈ archive.books, row.shelfno = shelfno → row.cleaned ≠ .unsorted := by
  rw [AbandonsStanding, Archive.cleanBooks, List.forall₂_map_right_iff, List.forall₂_same]
  apply forall₂_congr
  intro row _
  exact clean_del_changes_iff shelfno row

/-- The request of `client_shelf_abandon_books` is confined to the books standing
on the shelf exactly in the states in which no unsorted book bears its number. -/
theorem abandon_confined_iff (server : Server) (loginUser : String) (shelfno : Int)
    (named : loginUser ≠ "") (real : shelfno ≠ nonSenseInt)
    (healthy : server.db.nextFault = false) :
    AbandonsStanding shelfno server.db.archive.books
        (server.step (clientShelfAbandonBooksMsg loginUser shelfno)).db.archive.books ↔
      ∀ row ∈ server.db.archive.books, row.shelfno = shelfno → row.cleaned ≠ .unsorted := by
  rw [step_abandonBooks named real healthy]
  exact abandonsStanding_cleanBooks_iff shelfno server.db.archive

/-- A book of the first shelf 1 is left unsorted, the shelf is removed and its
number given to a new one: abandoning the new shelf's books deletes the old book. -/
theorem abandon_reaches_unsorted :
    ¬ AbandonsStanding 1
      (Execution.run Server.step Server.sample
        [clientBuildShelfMsg "reader" Server.sampleTime Server.sampleShelf,
          clientShelfInsertBookMsg "reader" Server.sampleTime (Server.sampleBook 1),
          clientShelfUnsortedBooksMsg "reader" 1,
          clientShelfDeleteItselfMsg "reader" 1,
          clientBuildShelfMsg "reader" Server.sampleTime Server.sampleShelf]).db.archive.books
      (Execution.run Server.step Server.sample
        [clientBuildShelfMsg "reader" Server.sampleTime Server.sampleShelf,
          clientShelfInsertBookMsg "reader" Server.sampleTime (Server.sampleBook 1),
          clientShelfUnsortedBooksMsg "reader" 1,
          clientShelfDeleteItselfMsg "reader" 1,
          clientBuildShelfMsg "reader" Server.sampleTime Server.sampleShelf,
          clientShelfAbandonBooksMsg "reader" 1]).db.archive.books := by
  decide

/-- Two shelves with a book each: only the book of the first one is given up. -/
theorem abandon_confined_on_full_shelves :
    AbandonsStanding 1
      (Execution.run Server.step Server.sample
        [clientBuildShelfMsg "reader" Server.sampleTime Server.sampleShelf,
          clientBuildShelfMsg "reader" Server.sampleTime Server.sampleShelf,
          clientShelfInsertBookMsg "reader" Server.sampleTime (Server.sampleBook 1),
          clientShelfInsertBookMsg "reader" Server.sampleTime
            (Server.sampleBook 2)]).db.archive.books
      ((Execution.run Server.step Server.sample
        [clientBuildShelfMsg "reader" Server.sampleTime Server.sampleShelf,
          clientBuildShelfMsg "reader" Server.sampleTime Server.sampleShelf,
          clientShelfInsertBookMsg "reader" Server.sampleTime (Server.sampleBook 1),
          clientShelfInsertBookMsg "reader" Server.sampleTime
            (Server.sampleBook 2)]).step
        (clientShelfAbandonBooksMsg "reader" 1)).db.archive.books :=
  (abandon_confined_iff _ _ _ (by decide) (by decide) (by decide)).mpr (by decide)

end Bookshelfdq
