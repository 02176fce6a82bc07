import Bookshelfdq.Client.Requests
import Bookshelfdq.Server.Service

/-! # Books stand on shelves that exist

Every request but one keeps each available book on an available shelf. Removing a
shelf was meant to set its books unsorted, but the statement for that is never
sent, so that a removal keeps the law only where no available book is left on the
shelf. -/

namespace Bookshelfdq

/-! ## The law -/

namespace Archive

def ShelfAvailable (archive : Archive) (shelfno : Int) : Prop :=
  ∃ shelf ∈ archive.shelves, shelf.shelfno = shelfno ∧ shelf.cleaned = .avl

def Integrity (archive : Archive) : Prop :=
  ∀ book ∈ archive.books, book.cleaned = .avl → archive.ShelfAvailable book.shelfno

/-- No available book stands on the shelf. -/
def Cleared (archive : Archive) (shelfno : Int) : Prop :=
  ∀ book ∈ archive.books, book.cleaned = .avl → book.shelfno ≠ shelfno

instance (archive : Archive) (shelfno : Int) : Decidable (archive.ShelfAvailable shelfno) :=
  inferInstanceAs (Decidable (∃ shelf ∈ archive.shelves, _))

instance (archive : Archive) : Decidable archive.Integrity :=
  inferInstanceAs (Decidable (∀ book ∈ archive.books, _))

instance (archive : Archive) (shelfno : Int) : Decidable (archive.Cleared shelfno) :=
  inferInstanceAs (Decidable (∀ book ∈ archive.books, _))

theorem Integrity.of_books {before after : Archive} (integrity : before.Integrity)
    (shelves : after.shelves = before.shelves)
    (books : ∀ book ∈ after.books, book.cleaned = .avl →
      book ∈ before.books ∨ before.ShelfAvailable book.shelfno) : after.Integrity := by
  intro book member available
  rw [ShelfAvailable, shelves]
  rcases books book member available with old | standing
  · exact integrity book old available
  · exact standing

theorem Integrity.cleanBooks {archive : Archive} (integrity : archive.Integrity)
    {cleaned : BookCleaned} (withdrawn : cleaned ≠ .avl) (selected : BookRow → Bool) :
    (archive.cleanBooks cleaned selected).Integrity := by
  refine integrity.of_books rfl ?_
  intro book member available
  rcases List.mem_map.mp member with ⟨row, rowMem, equal⟩
  split at equal
  · rw [← equal] at available
    exact absurd available withdrawn
  · exact .inl (equal ▸ rowMem)

theorem Integrity.cleanShelf {archive : Archive} (integrity : archive.Integrity)
    {shelfno : Int} (cleared : archive.Cleared shelfno) :
    (archive.cleanShelf shelfno).Integrity := by
  intro book member available
  rcases integrity book member available with ⟨shelf, shelfMem, number, standing⟩
  have different : shelf.shelfno ≠ shelfno := number ▸ cleared book member available
  refine ⟨shelf, ?_, number, standing⟩
  exact List.mem_map.mpr ⟨shelf, shelfMem, by simp [different]⟩

end Archive

/-! ## The requests -/

theorem srvdbBookInsert_integrity {msg : MessageCs} {db : Mysql}
    (numbered : db.archive.WellNumbered) (integrity : db.archive.Integrity)
    (named : db.archive.ShelfAvailable msg.stuff.book.shelfno) :
    (srvdbBookInsert msg db).2.2.archive.Integrity := by
  apply integrity.of_books (srvdbBookInsert_shelves msg db numbered.1)
  intro book member _
  rcases (bookAllocation db.mode msg.stuff.book).allocate_mem msg db numbered.1 member with
    old | ⟨old, renews⟩ | ⟨number, creates⟩
  · exact .inl old
  · exact .inr ((BookEntry.row_eq_some renews).2.1 ▸ named)
  · exact .inr ((BookEntry.row_eq_some creates).2.1 ▸ named)

theorem srvdbBookDelete_integrity {msg : MessageCs} {db : Mysql}
    (integrity : db.archive.Integrity) : (srvdbBookDelete msg db).2.archive.Integrity := by
  rcases srvdbBookDelete_cases msg db with ⟨after, result, archive⟩ | ⟨after, result, archive⟩
  · rw [result, archive]
    exact integrity
  · rw [result, archive]
    exact integrity.cleanBooks (by decide) _

theorem srvdbBookUpdate_integrity {msg : MessageCs} {db : Mysql}
    (integrity : db.archive.Integrity) (named : msg.stuff.book.namesShelf = false →
      db.archive.ShelfAvailable msg.stuff.book.shelfno) :
    (srvdbBookUpdate msg db).2.archive.Integrity := by
  rcases srvdbBookUpdate_cases msg db with ⟨after, result, archive⟩ |
    ⟨after, result, _, archive⟩ | ⟨after, books, result, single, updated, archive⟩
  · rw [result, archive]
    exact integrity
  · rw [result, archive]
    exact integrity.cleanBooks (by decide) _
  · rw [result, archive]
    refine integrity.of_books rfl ?_
    intro book member _
    rcases Table.exists_source_of_mem updated member with ⟨old, oldMem, becomes⟩
    rw [Table.Becomes] at becomes
    split at becomes
    · exact .inr ((BookEntry.row_eq_some becomes).2.1 ▸ named single)
    · exact .inl (Option.some.inj becomes ▸ oldMem)

theorem srvdbShelfBuild_integrity {msg : MessageCs} {db : Mysql}
    (numbered : db.archive.WellNumbered) (integrity : db.archive.Integrity) :
    (srvdbShelfBuild msg db).2.2.archive.Integrity := by
  have contract := srvdbShelfBuild_contract msg db numbered.2
  intro book member available
  rw [srvdbShelfBuild_books msg db numbered.2] at member
  rcases integrity book member available with ⟨shelf, shelfMem, number, standing⟩
  refine ⟨shelf, ?_, number, standing⟩
  cases outcome : (srvdbShelfBuild msg db).1 with
  | false =>
      rw [contract.unchanged outcome]
      exact shelfMem
  | true =>
      rcases contract.given outcome with ⟨fresh, _, given⟩
      exact given.keeps shelfMem (.inr (by simp [shelfAllocation, standing]))

theorem srvdbShelfRemove_books (msg : MessageCs) (db : Mysql) :
    (srvdbShelfRemove msg db).2.archive.books = db.archive.books := by
  rcases srvdbShelfRemove_cases msg db with ⟨after, result, archive⟩ | ⟨after, result, archive⟩
  · rw [result, archive]
  · rw [result, archive]
    rfl

theorem srvdbShelfRemove_integrity {msg : MessageCs} {db : Mysql}
    (integrity : db.archive.Integrity)
    (cleared : msg.user ≠ "" → db.archive.Cleared msg.stuff.shelf.code) :
    (srvdbShelfRemove msg db).2.archive.Integrity := by
  by_cases anonymous : msg.user = ""
  · rw [srvdbShelfRemove, execute, if_pos anonymous]
    exact integrity
  · rcases srvdbShelfRemove_cases msg db with
      ⟨after, result, archive⟩ | ⟨after, result, archive⟩
    · rw [result, archive]
      exact integrity
    · rw [result, archive]
      exact integrity.cleanShelf (cleared anonymous)

namespace Server

/-- An insertion and an update of a single book name an available shelf. -/
def NamesAvailable (server : Server) (request : MessageCs) : Prop :=
  request.request = .insertBook ∨
      request.request = .updateBook ∧ request.stuff.book.namesShelf = false →
    server.db.archive.ShelfAvailable request.stuff.book.shelfno

/-- A shelf is removed only when no available book is left on it. -/
def RemovesCleared (server : Server) (request : MessageCs) : Prop :=
  request.request = .removeShelf → request.user ≠ "" →
    server.db.archive.Cleared request.stuff.shelf.code

theorem step_integrity {server : Server} {request : MessageCs}
    (numbered : server.db.archive.WellNumbered) (integrity : server.db.archive.Integrity)
    (named : server.NamesAvailable request) (cleared : server.RemovesCleared request) :
    (server.step request).db.archive.Integrity := by
  cases written : request.archiveRequest with
  | none =>
      rw [(step_reads written).archive]
      exact integrity
  | some operation =>
      rw [step_of_archiveRequest written]
      cases kind : request.request <;>
        simp only [MessageCs.archiveRequest, kind, Option.some.injEq, reduceCtorEq] at written <;>
        subst written
      · exact srvdbBookInsert_integrity numbered integrity (named (.inl kind))
      · exact srvdbBookDelete_integrity integrity
      · exact srvdbBookUpdate_integrity integrity fun single => named (.inr ⟨kind, single⟩)
      · exact srvdbShelfBuild_integrity numbered integrity
      · exact srvdbShelfRemove_integrity integrity (cleared kind)

theorem step_removeShelf_books {server : Server} {request : MessageCs}
    (kind : request.request = .removeShelf) :
    (server.step request).db.archive.books = server.db.archive.books := by
  have written : request.archiveRequest =
      some (.shelfRemove { request with response := .success, errorText := "" }) := by
    simp [MessageCs.archiveRequest, kind]
  rw [step_of_archiveRequest written]
  exact srvdbShelfRemove_books _ _

instance (server : Server) (request : MessageCs) : Decidable (server.NamesAvailable request) :=
  inferInstanceAs (Decidable (_ → _))

instance (server : Server) (request : MessageCs) : Decidable (server.RemovesCleared request) :=
  inferInstanceAs (Decidable (_ → _ → _))

/-! A small installation to run requests on. -/

def sample : Server :=
  fresh .strict (fun left right => left == right) [] ⟨fun _ _ => none, fun _ _ => -1⟩ [] []

def sampleTime : PlainText := ⟨"18-05-01 10h", by decide⟩

def sampleShelf : ShelfEntry where
  code := 0
  name := "study"
  nfloors := 2
  ndepth := [1, 2]
  buildingTime := .empty

def sampleBook (shelfno : Int) : BookEntry where
  shelfno := shelfno
  floorno := 17
  bookno := 0
  name := "Stories"
  author := "writer"
  label := ""
  borrowed := '0'
  onReading := '0'
  encodingTime := .empty

end Server

end Bookshelfdq
