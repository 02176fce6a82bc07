import Mathlib.Algebra.Ring.Int.Defs
import Bookshelfdq.Server.Numbering
import Bookshelfdq.Server.Replies

/-! # Counting books

`srvdb_book_count` runs `srvdb_book_find` four times on one message. Each run is
steered by flags that this run, an earlier one or the client has set. -/

namespace Bookshelfdq

/-! ## What is to be counted -/

namespace Archive

def borrowedIn (shelfno : Int) (archive : Archive) : Nat :=
  (archive.books.filter fun row =>
    row.borrowed == '1' && row.cleaned == .avl && inScope shelfno row).length

def onReadingIn (shelfno : Int) (archive : Archive) : Nat :=
  (archive.books.filter fun row =>
    row.onReading == '1' && row.cleaned == .avl && inScope shelfno row).length

def unsortedIn (shelfno : Int) (archive : Archive) : Nat :=
  (archive.books.filter fun row => row.cleaned == .unsorted && inScope shelfno row).length

def availableIn (shelfno : Int) (archive : Archive) : Nat :=
  (archive.books.filter fun row => row.cleaned == .avl && inScope shelfno row).length

/-- The counts of a shelf, or of all shelves for `NON_SENSE_INT`. -/
def bookCount (shelfno : Int) (archive : Archive) : BookCount where
  booksAll := archive.availableIn shelfno + archive.unsortedIn shelfno
  booksOnReading := archive.onReadingIn shelfno
  booksBorrowed := archive.borrowedIn shelfno
  booksUnsorted := archive.unsortedIn shelfno

end Archive

/-! ## One find -/

/-- A find without limit returns the number of every matching row. -/
theorem selectBooks_of_breakLimit {archive : Archive} (numbered : archive.WellNumbered)
    {collation : Char → Char → Bool} {book : BookEntry} (counting : book.bookno = breakLimitInt)
    {selected : BookRow → Bool} (condition : bookWhere collation book = some selected) :
    selectBooks collation book archive.books =
      some ((archive.books.filter selected).map fun row => .bookno row.bookno) := by
  have listed : pointsAtBook book = false := pointsAtBook_of_nonneg (counting.symm ▸ by decide)
  have rows : archive.books.filter (fun row => selected row && decide (row.bookno > nonSenseInt)) =
      archive.books.filter selected := by
    apply List.filter_congr
    intro row member
    have positive : row.bookno > nonSenseInt := (numbered.bookno_bounds member).1
    simp [positive]
  have few : (archive.books.filter selected).length ≤ maxBookNum := by
    rcases numbered with ⟨⟨count, bound, numbered⟩, _⟩
    have whole := numbered.length
    have part := List.length_filter_le selected archive.books
    omega
  simp only [selectBooks, listed, condition, counting, Option.map_some, Bool.false_eq_true,
    if_false, if_true, rows]
  rw [Table.orderBy_of_pairwise (numbered.ordered selected), List.take_of_length_le few]

/-- The connection between the finds of one count, `count` of which are to come. -/
structure Mysql.Counting (archive : Archive) (collation : Char → Char → Bool) (count : Nat)
    (db : Mysql) : Prop where
  archive_eq : db.archive = archive
  collation_eq : db.collation = collation
  healthy : healthyFor (2 * count) db.faults = true

theorem Mysql.Counting.find {archive : Archive} {collation : Char → Char → Bool} {count : Nat}
    {db : Mysql} (ready : db.Counting archive collation (count + 1))
    (numbered : archive.WellNumbered) (msg : MessageCs) (named : msg.user ≠ "")
    (counting : msg.stuff.book.bookno = breakLimitInt) {selected : BookRow → Bool}
    (condition : bookWhere collation msg.stuff.book = some selected) :
    ∃ after, srvdbBookFind msg db = (some (archive.books.filter selected).length, after) ∧
      after.Counting archive collation count := by
  rcases ready with ⟨rfl, rfl, healthy⟩
  have double : 2 * (count + 1) = 2 * count + 1 + 1 := by omega
  rw [double, healthyFor_succ, healthyFor_succ, ← Bool.and_assoc, Bool.and_eq_true] at healthy
  have two : healthyFor 2 db.faults = true := by
    rw [healthyFor_succ, healthyFor_succ, ← Bool.and_assoc, healthy.1]
    rfl
  have selects := selectBooks_of_breakLimit numbered counting condition
  have found := srvdbBookFind_of_finds ⟨named, selects, two⟩
  rw [if_pos counting, List.length_map] at found
  exact ⟨_, found, rfl, rfl, healthy.2⟩

/-! ## The four conditions -/

section Conditions

variable (collation : Char → Char → Bool) (msg : MessageCs)

/-- The first find does not clear `borrowed`, and this flag takes precedence. -/
theorem bookWhere_countOnReading :
    bookWhere collation msg.countOnReading.stuff.book =
      some (if msg.stuff.book.borrowed = flagBorrowed then
        fun row => row.borrowed == '1' && row.cleaned == .avl && inScope msg.stuff.book.shelfno row
      else fun row =>
        row.onReading == '1' && row.cleaned == .avl && inScope msg.stuff.book.shelfno row) := by
  have other : flagOnReading ≠ flagFindUnsorted := by decide
  by_cases borrowed : msg.stuff.book.borrowed = flagBorrowed
  · simp [bookWhere, MessageCs.countOnReading, borrowed, other]
  · simp [bookWhere, MessageCs.countOnReading, borrowed, other]

theorem bookWhere_countBorrowed :
    bookWhere collation msg.countBorrowed.stuff.book =
      some fun row => row.borrowed == '1' && row.cleaned == .avl &&
        inScope msg.stuff.book.shelfno row := by
  have other : nulChar ≠ flagFindUnsorted := by decide
  simp [bookWhere, MessageCs.countBorrowed, other]

theorem bookWhere_countUnsorted :
    bookWhere collation msg.countUnsorted.stuff.book =
      some fun row => row.cleaned == .unsorted && inScope msg.stuff.book.shelfno row := by
  simp [bookWhere, MessageCs.countUnsorted]

theorem likeChars_any (text : List Char) : likeChars collation ['%', '%'] text = true := by
  cases text with
  | nil => simp [likeChars]
  | cons character text => simp [likeChars]

theorem sqlContains_empty (column : String) : sqlContains collation column "" = true :=
  likeChars_any collation column.toList

/-- The three texts `"0"` leave no criterion but the shelf. -/
theorem bookWhere_countAll (anyFloor : msg.stuff.book.floorno = nonSenseInt) :
    bookWhere collation msg.countAll.stuff.book =
      some fun row => row.cleaned == .avl && inScope msg.stuff.book.shelfno row := by
  have zero : criterion "0" = some ⟨false, fun collation column =>
      sqlContains collation column ""⟩ := rfl
  have listed : nulChar ≠ flagFindUnsorted ∧ nulChar ≠ flagBorrowed ∧ nulChar ≠ flagOnReading := by
    decide
  simp [bookWhere, MessageCs.countAll, zero, anyFloor, listed, criteriaHold, sqlContains_empty,
    Bool.and_comm]

end Conditions

/-! ## The count -/

/-- The field `books_on_reading` as the first find computes it. -/
def Archive.firstCount (book : BookEntry) (archive : Archive) : Nat :=
  if book.borrowed = flagBorrowed then archive.borrowedIn book.shelfno
  else archive.onReadingIn book.shelfno

/-- What a request is told: no count, or the four numbers of the reply. -/
def countAnswer (msg : MessageCs) (db : Mysql) : Option BookCount :=
  if (srvdbBookCount msg db).1 then some (srvdbBookCount msg db).2.1.bookCount else none

section Count

variable {msg : MessageCs} {db : Mysql}

theorem countAnswer_of_healthy (named : msg.user ≠ "") (numbered : db.archive.WellNumbered)
    (anyFloor : msg.stuff.book.floorno = nonSenseInt) (healthy : healthyFor 8 db.faults = true) :
    countAnswer msg db = some { db.archive.bookCount msg.stuff.book.shelfno with
      booksOnReading := db.archive.firstCount msg.stuff.book } := by
  have ready : db.Counting db.archive db.collation 4 := ⟨rfl, rfl, healthy⟩
  rcases ready.find numbered msg.countOnReading named rfl
    (bookWhere_countOnReading db.collation msg) with ⟨first, reading, ready⟩
  rcases ready.find numbered msg.countOnReading.countBorrowed named rfl
    (bookWhere_countBorrowed db.collation msg.countOnReading) with ⟨second, borrowed, ready⟩
  rcases ready.find numbered msg.countOnReading.countBorrowed.countUnsorted named rfl
    (bookWhere_countUnsorted db.collation msg.countOnReading.countBorrowed) with
    ⟨third, unsorted, ready⟩
  rcases ready.find numbered msg.countOnReading.countBorrowed.countUnsorted.countAll
    named rfl (bookWhere_countAll db.collation msg.countOnReading.countBorrowed.countUnsorted
      anyFloor) with ⟨fourth, all, _⟩
  have onReading : Archive.firstCount msg.stuff.book db.archive =
      (db.archive.books.filter (if msg.stuff.book.borrowed = flagBorrowed then
        fun row => row.borrowed == '1' && row.cleaned == .avl && inScope msg.stuff.book.shelfno row
      else fun row => row.onReading == '1' && row.cleaned == .avl &&
        inScope msg.stuff.book.shelfno row)).length := by
    rw [Archive.firstCount]
    split <;> rfl
  rw [countAnswer, srvdbBookCount]
  simp only [reading, borrowed, unsorted, all, if_true]
  rw [onReading]
  rfl

theorem countAnswer_of_anonymous (anonymous : msg.user = "") : countAnswer msg db = none := by
  have refused : srvdbBookFind msg.countOnReading db = (none, db) := by
    rw [srvdbBookFind]
    exact if_pos anonymous
  rw [countAnswer, srvdbBookCount]
  simp only [refused, Bool.false_eq_true, if_false]

end Count

/-- The rows in scope are borrowed and on reading in equal numbers. -/
def Archive.FlagsEven (archive : Archive) (shelfno : Int) : Prop :=
  archive.borrowedIn shelfno = archive.onReadingIn shelfno

/-- On every reachable table a count is right exactly when the flag `borrowed` of its
request is not set or makes no difference, and two requests about one shelf get the same
counts exactly when they agree on this. -/
theorem bookCount_exact_iff {mode : SqlMode} {collation : Char → Char → Bool}
    {accounts : List AccountRow} {faults : List Bool} {history : List ArchiveRequest}
    {db : Mysql} (reached : db = Execution.run ArchiveRequest.step
      (Mysql.fresh mode collation accounts faults) history)
    (healthy : healthyFor 8 db.faults = true) :
    (∀ msg, msg.stuff.book.floorno = nonSenseInt →
      (countAnswer msg db = some (db.archive.bookCount msg.stuff.book.shelfno) ↔
        msg.user ≠ "" ∧ (msg.stuff.book.borrowed ≠ flagBorrowed ∨
          db.archive.FlagsEven msg.stuff.book.shelfno))) ∧
    (∀ msg other, msg.user ≠ "" → other.user ≠ "" →
      msg.stuff.book.floorno = nonSenseInt → other.stuff.book.floorno = nonSenseInt →
      msg.stuff.book.shelfno = other.stuff.book.shelfno →
      (countAnswer msg db = countAnswer other db ↔
        ((msg.stuff.book.borrowed = flagBorrowed ↔ other.stuff.book.borrowed = flagBorrowed) ∨
          db.archive.FlagsEven msg.stuff.book.shelfno))) := by
  have numbered := ArchiveRequest.run_wellNumbered reached
  constructor
  · intro msg anyFloor
    by_cases named : msg.user = ""
    · simp [countAnswer_of_anonymous named, named]
    · rw [countAnswer_of_healthy named numbered anyFloor healthy]
      by_cases flag : msg.stuff.book.borrowed = flagBorrowed
      · simp [named, flag, Archive.bookCount, Archive.firstCount, Archive.FlagsEven]
      · simp [named, flag, Archive.bookCount, Archive.firstCount]
  · intro msg other named otherNamed anyFloor otherFloor shelf
    rw [countAnswer_of_healthy named numbered anyFloor healthy,
      countAnswer_of_healthy otherNamed numbered otherFloor healthy, shelf]
    by_cases flag : msg.stuff.book.borrowed = flagBorrowed <;>
      by_cases otherFlag : other.stuff.book.borrowed = flagBorrowed <;>
      simp [flag, otherFlag, shelf, Archive.bookCount, Archive.firstCount, Archive.FlagsEven,
        eq_comm]

/-! One book of shelf 1 is being read and none is lent out. The two requests differ in
the flag `borrowed` only. -/

def sampleReading : Mysql :=
  Execution.run ArchiveRequest.step (Mysql.fresh .strict (fun left right => left == right) [] [])
    [.bookInsert { (MessageCs.zeroed.setBook { BookEntry.zeroed with
      shelfno := 1, name := "Stories", author := "writer", borrowed := '0', onReading := '1' })
      with user := "reader" }]

def sampleCount (borrowed : Char) : MessageCs :=
  { (MessageCs.zeroed.setBook { BookEntry.zeroed with shelfno := 1, borrowed := borrowed })
    with user := "reader" }

theorem bookCount_exact_for_zeroed :
    countAnswer (sampleCount nulChar) sampleReading =
      some (sampleReading.archive.bookCount (sampleCount nulChar).stuff.book.shelfno) :=
  ((bookCount_exact_iff rfl (by decide)).1 (sampleCount nulChar) rfl).mpr
    ⟨by decide, .inl (by decide)⟩

theorem bookCount_misled_by_flag :
    countAnswer (sampleCount '1') sampleReading = some ⟨1, 0, 0, 0⟩ ∧
      sampleReading.archive.bookCount 1 = ⟨1, 1, 0, 0⟩ ∧
      countAnswer (sampleCount '1') sampleReading ≠
        countAnswer (sampleCount nulChar) sampleReading := by
  decide

end Bookshelfdq
