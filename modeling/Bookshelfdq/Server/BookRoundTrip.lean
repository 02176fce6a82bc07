import Bookshelfdq.Server.RoundTrips

/-! # The round trip of a book

A book passes through a message field, a statement and a column, each with a width of
its own. -/

namespace Bookshelfdq

/-! ## The statement buffer

The statements are written into `char is[1024]` by `sprintf`. What happens when one is
longer is undefined. -/

def statementSize : Nat := 1024

/-- `mysql_escape_string` puts a backslash before the characters that would end or
alter a literal. -/
def escapeChar (character : Char) : List Char :=
  if character = Char.ofNat 0 then [Char.ofNat 92, '0']
  else if character = Char.ofNat 10 then [Char.ofNat 92, 'n']
  else if character = Char.ofNat 13 then [Char.ofNat 92, 'r']
  else if character = Char.ofNat 26 then [Char.ofNat 92, 'Z']
  else if character = Char.ofNat 34 ∨ character = Char.ofNat 39 ∨ character = Char.ofNat 92 then
    [Char.ofNat 92, character]
  else [character]

def mysqlEscapeString (text : String) : String := String.ofList (text.toList.flatMap escapeChar)

/-- The blanks with which a continued line of a literal begins. -/
def indentation (width : Nat) : String := String.ofList (List.replicate width ' ')

section Statements

variable (user : String) (book : BookEntry) (bookno : Int)

/-- The `UPDATE` of `srvdb_book_insert`. -/
def bookRenewText : String :=
  String.join ["UPDATE ", user, "_books SET cleaned=0,shelfno=", toString book.shelfno,
    ",floorno=", toString book.floorno, ",name='", mysqlEscapeString book.name, "',author='",
    mysqlEscapeString book.author, "',", indentation 24, "label='",
    mysqlEscapeString book.label, "',borrowed=", String.singleton book.borrowed,
    ",on_reading=", String.singleton book.onReading, ",encoding_time='",
    book.encodingTime.text, "' WHERE bookno=", toString bookno]

/-- The `INSERT` of `srvdb_book_insert`. -/
def bookCreateText : String :=
  String.join ["INSERT INTO ", user, "_books(shelfno, floorno, bookno, name, author, label, ",
    "borrowed, on_reading, cleaned, encoding_time)", indentation 12, "VALUES(",
    toString book.shelfno, ", ", toString book.floorno, ", ", toString bookno, ", '",
    mysqlEscapeString book.name, "', '", mysqlEscapeString book.author, "', '",
    mysqlEscapeString book.label, "', ", String.singleton book.borrowed, ", ",
    String.singleton book.onReading, ", 0, '", book.encodingTime.text, "')"]

/-- The single-book `UPDATE` of `srvdb_book_update`. -/
def bookUpdateText : String :=
  String.join ["UPDATE ", user, "_books SET shelfno=", toString book.shelfno, ", floorno=",
    toString book.floorno, ", name='", mysqlEscapeString book.name, "', author='",
    mysqlEscapeString book.author, "',", indentation 16, "label='",
    mysqlEscapeString book.label, "', borrowed=", String.singleton book.borrowed,
    ", on_reading=", String.singleton book.onReading, ", cleaned=0, encoding_time='",
    book.encodingTime.text, "' WHERE bookno=", toString bookno]

end Statements

/-- The longest statement that an insertion without failures writes. -/
def bookInsertText (msg : MessageCs) (db : Mysql) : String :=
  let alloc := bookAllocation db.mode msg.stuff.book
  match alloc.smallestDeleted db.archive with
  | some bookno => bookRenewText msg.user msg.stuff.book bookno
  | none => bookCreateText msg.user msg.stuff.book ((alloc.largest db.archive).getD 0 + 1)

/-! ## Books -/

/-- The books that a client can submit. -/
structure BookEntry.Submittable (book : BookEntry) : Prop where
  name_pos : 1 ≤ strlen book.name
  name_le : strlen book.name ≤ bookNameLen
  author_pos : 1 ≤ strlen book.author
  author_le : strlen book.author ≤ authorNameLen
  label_le : strlen book.label ≤ maxLabelNum * (labelNameLen + 1)
  narrow : ∀ character ∈ book.name.toList ++ book.author.toList ++ book.label.toList,
    character.utf8Size ≤ 3
  borrowed : book.borrowed = '0' ∨ book.borrowed = '1'
  onReading : book.onReading = '0' ∨ book.onReading = '1'
  time : strlen book.encodingTime.text < 20
  shelf_pos : 1 ≤ book.shelfno
  shelf_le : book.shelfno ≤ maxShelfNum

section Books

variable {book : BookEntry} (submittable : book.Submittable)
include submittable

theorem BookEntry.Submittable.name_fits : book.name.length ≤ 200 := by
  have bytes := length_le_strlen book.name
  have limit := submittable.name_le
  have width : bookNameLen = 192 := rfl
  omega

theorem BookEntry.Submittable.label_fits : book.label.length ≤ 200 := by
  have bytes := length_le_strlen book.label
  have limit := submittable.label_le
  have width : maxLabelNum * (labelNameLen + 1) = 190 := rfl
  omega

theorem BookEntry.Submittable.wellFormed : book.wellFormed = true := by
  rw [BookEntry.wellFormed]
  rcases submittable.borrowed with borrowed | borrowed <;>
    rcases submittable.onReading with onReading | onReading <;>
    rw [borrowed, onReading] <;> decide

theorem BookEntry.Submittable.exists_row (short : book.author.length ≤ 70) (mode : SqlMode)
    (bookno : Int) : ∃ row, book.row mode bookno = some row := by
  rw [BookEntry.row, SqlMode.store_of_fits submittable.name_fits, SqlMode.store_of_fits short,
    SqlMode.store_of_fits submittable.label_fits]
  exact ⟨_, rfl⟩

theorem BookEntry.Submittable.entry_eq_iff {mode : SqlMode} {bookno : Int} {row : BookRow}
    (created : book.row mode bookno = some row) :
    row.entry = { book with bookno := bookno } ↔ book.author.length ≤ 70 := by
  rw [BookEntry.row, SqlMode.store_of_fits submittable.name_fits,
    SqlMode.store_of_fits submittable.label_fits, Option.bind_some] at created
  obtain ⟨author, stored, filled⟩ := Option.bind_eq_some_iff.mp created
  obtain rfl := Option.some.inj filled
  rw [← SqlMode.store_eq_iff stored]
  simp [BookRow.entry]

end Books

/-- A book is found under its number, at once and after any requests that spare it. -/
def Mysql.HoldsBook (db : Mysql) (book : BookEntry) : Prop :=
  ∀ faults requests msg, (∀ request ∈ requests, request.sparesBook book = true) →
    msg.user ≠ "" → pointsAtBook msg.stuff.book = true → msg.stuff.book.bookno = -book.bookno →
    fetchBook msg (db.later faults requests) = some book

theorem Mysql.holdsBook_iff {db : Mysql} {row : BookRow} {book : BookEntry}
    (numbered : db.archive.WellNumbered) (member : row ∈ db.archive.books)
    (live : row.cleaned = .avl) (number : row.bookno = book.bookno) :
    db.HoldsBook book ↔ row.entry = book := by
  have fetched : ∀ faults requests msg,
      (∀ request ∈ requests, request.sparesBook row.entry = true) → msg.user ≠ "" →
      pointsAtBook msg.stuff.book = true → msg.stuff.book.bookno = -row.bookno →
      fetchBook msg (db.later faults requests) = some row.entry := by
    intro faults requests msg spared named pointed number
    have numbering : (db.facing faults).archive.WellNumbered := numbered
    apply fetchBook_of_mem (later_wellNumbered numbered faults requests) rfl _ named pointed number
    exact ArchiveRequest.run_mem_books numbering member live spared
  constructor
  · intro held
    let msg := { MessageCs.zeroed.setBookno (-row.bookno) with user := "reader" }
    have named : msg.user ≠ "" := by simp [msg]
    have pointed : pointsAtBook msg.stuff.book = true := by
      have positive := (numbered.bookno_bounds member).1
      have listed : nulChar ≠ flagFindUnsorted ∧ nulChar ≠ flagBorrowed ∧
        nulChar ≠ flagOnReading := by decide
      simp [pointsAtBook, msg, MessageCs.setBookno, MessageCs.zeroed, BookEntry.zeroed, listed,
        positive]
    have found := held [] [] msg (fun request member => absurd member List.not_mem_nil) named
      pointed (congrArg Int.neg number)
    rw [fetched [] [] msg (fun request member => absurd member List.not_mem_nil) named pointed rfl]
      at found
    exact Option.some.inj found
  · rintro rfl
    exact fetched

/-- A request that writes its statement within the buffer, succeeds, and leaves the book
to be found as it is. -/
structure BookReturns (text : String) (succeeds : Bool) (db : Mysql) (book : BookEntry) :
    Prop where
  within : strlen text < statementSize
  succeeds : succeeds = true
  held : db.HoldsBook book

def BookInsertReturns (msg : MessageCs) (db : Mysql) : Prop :=
  BookReturns (bookInsertText msg db) (srvdbBookInsert msg db).1 (srvdbBookInsert msg db).2.2
    { msg.stuff.book with bookno := (srvdbBookInsert msg db).2.1.stuff.book.bookno }

def BookUpdateReturns (msg : MessageCs) (db : Mysql) : Prop :=
  BookReturns (bookUpdateText msg.user msg.stuff.book msg.stuff.book.bookno)
    (srvdbBookUpdate msg db).1 (srvdbBookUpdate msg db).2 msg.stuff.book

section Requests

variable {msg : MessageCs} {db : Mysql} (numbered : db.archive.WellNumbered)
  (submittable : msg.stuff.book.Submittable)
include numbered submittable

theorem srvdbBookInsert_held_iff (succeeds : (srvdbBookInsert msg db).1 = true) :
    (srvdbBookInsert msg db).2.2.HoldsBook
        { msg.stuff.book with bookno := (srvdbBookInsert msg db).2.1.stuff.book.bookno } ↔
      msg.stuff.book.author.length ≤ 70 := by
  have after : (srvdbBookInsert msg db).2.2.archive.WellNumbered :=
    ArchiveRequest.perform_wellNumbered db (.bookInsert msg) numbered
  obtain ⟨bookno, row, recorded, created, member⟩ :=
    (bookAllocation db.mode msg.stuff.book).allocate_row msg db numbered.1 (fun _ => rfl) succeeds
  have given := BookEntry.row_eq_some created
  have number : (srvdbBookInsert msg db).2.1.stuff.book.bookno = bookno :=
    congrArg (fun reply => reply.stuff.book.bookno) recorded
  rw [number, Mysql.holdsBook_iff after member given.2.2 given.1]
  exact submittable.entry_eq_iff created

variable (existing : ∃ row ∈ db.archive.books, row.bookno = msg.stuff.book.bookno)
include existing

theorem srvdbBookUpdate_held_iff (succeeds : (srvdbBookUpdate msg db).1 = true) :
    (srvdbBookUpdate msg db).2.HoldsBook msg.stuff.book ↔
      msg.stuff.book.author.length ≤ 70 := by
  have after : (srvdbBookUpdate msg db).2.archive.WellNumbered :=
    srvdbBookUpdate_wellNumbered msg db numbered
  obtain ⟨old, oldMem, number⟩ := existing
  have positive := numbered.bookno_bounds oldMem
  rcases srvdbBookUpdate_cases msg db with ⟨_, result, _⟩ | ⟨_, result, whole, _⟩ |
    ⟨_, books, result, _, updated, archive⟩
  · rw [result] at succeeds
    cases succeeds
  · have absent : msg.stuff.book.bookno = nonSenseInt := by
      simp only [BookEntry.namesShelf, Bool.and_eq_true, beq_iff_eq] at whole
      exact whole.1
    have zero : nonSenseInt = 0 := rfl
    omega
  · obtain ⟨row, member, becomes⟩ := Table.exists_becomes_of_mem updated oldMem
    rw [Table.Becomes, if_pos (by simpa using number)] at becomes
    have given := BookEntry.row_eq_some becomes
    rw [result] at after ⊢
    have stored : row ∈ (srvdbBookUpdate msg db).2.archive.books := by
      rw [result, archive]
      exact member
    rw [result] at stored
    rw [Mysql.holdsBook_iff after stored given.2.2 (given.1.trans number)]
    have same : { msg.stuff.book with bookno := old.bookno } = msg.stuff.book := by
      rw [number]
    have entry := submittable.entry_eq_iff becomes
    rw [same] at entry
    exact entry

theorem srvdbBookUpdate_of_healthy (healthy : db.faults = []) (named : msg.user ≠ "")
    (short : msg.stuff.book.author.length ≤ 70) : (srvdbBookUpdate msg db).1 = true := by
  obtain ⟨old, oldMem, number⟩ := existing
  have positive := numbered.bookno_bounds oldMem
  have single : msg.stuff.book.namesShelf = false := by
    have different : msg.stuff.book.bookno ≠ nonSenseInt := by
      have zero : nonSenseInt = 0 := rfl
      omega
    simp [BookEntry.namesShelf, different]
  obtain ⟨books, updated⟩ := Table.exists_update
    (fun row : BookRow => row.bookno == msg.stuff.book.bookno)
    (fun row (_ : row ∈ db.archive.books) => submittable.exists_row short db.mode row.bookno)
  rw [srvdbBookUpdate, single, if_neg Bool.false_ne_true, execute, if_neg named]
  obtain ⟨after, accepted⟩ : ∃ after, (if msg.stuff.book.wellFormed then
      updateBooks (fun row => row.bookno == msg.stuff.book.bookno)
        (fun row => msg.stuff.book.row db.mode row.bookno) db
      else none) = some after := by
    rw [if_pos submittable.wellFormed, updateBooks, updated]
    exact ⟨_, rfl⟩
  rw [mysqlQuery_of_faultless healthy accepted]

end Requests

/-- A book comes back as it was submitted exactly when the author's name fits its column,
which is narrower than the field of the message, and the statement fits the buffer. -/
theorem bookReturns_iff {mode : SqlMode} {collation : Char → Char → Bool}
    {accounts : List AccountRow} {faults : List Bool} {history : List ArchiveRequest}
    {db : Mysql} (reached : db = Execution.run ArchiveRequest.step
      (Mysql.fresh mode collation accounts faults) history)
    {msg : MessageCs} (named : msg.user ≠ "") (submittable : msg.stuff.book.Submittable) :
    (¬ (bookAllocation db.mode msg.stuff.book).Full db.archive →
      (BookInsertReturns msg (db.facing []) ↔ msg.stuff.book.author.length ≤ 70 ∧
        strlen (bookInsertText msg db) < statementSize)) ∧
    ((∃ row ∈ db.archive.books, row.bookno = msg.stuff.book.bookno) →
      (BookUpdateReturns msg (db.facing []) ↔ msg.stuff.book.author.length ≤ 70 ∧
        strlen (bookUpdateText msg.user msg.stuff.book msg.stuff.book.bookno) <
          statementSize)) := by
  have known := ArchiveRequest.run_wellNumbered reached
  have numbered : (db.facing []).archive.WellNumbered := known
  have healthy : (db.facing []).faults = [] := rfl
  constructor
  · intro room
    constructor
    · intro returns
      exact ⟨(srvdbBookInsert_held_iff numbered submittable returns.succeeds).mp returns.held,
        returns.within⟩
    · rintro ⟨short, within⟩
      have succeeds : (srvdbBookInsert msg (db.facing [])).1 = true :=
        (bookAllocation db.mode msg.stuff.book).allocate_of_healthy msg healthy
          submittable.wellFormed named numbered.1 room (fun _ => rfl)
          (submittable.exists_row short db.mode)
      exact ⟨within, succeeds,
        (srvdbBookInsert_held_iff numbered submittable succeeds).mpr short⟩
  · intro existing
    constructor
    · intro returns
      exact ⟨(srvdbBookUpdate_held_iff numbered submittable existing returns.succeeds).mp
        returns.held, returns.within⟩
    · rintro ⟨short, within⟩
      have succeeds := srvdbBookUpdate_of_healthy numbered submittable existing healthy named short
      exact ⟨within, succeeds,
        (srvdbBookUpdate_held_iff numbered submittable existing succeeds).mpr short⟩

theorem strlen_append (left right : String) :
    strlen (left ++ right) = strlen left + strlen right := by
  simp [strlen]

/-- A literal is the list of its characters. -/
theorem strlen_ofList (characters : List Char) :
    strlen (String.ofList characters) = (characters.map Char.utf8Size).sum := by
  rw [strlen, String.toList_ofList]

theorem strlen_join (texts : List String) :
    strlen (String.join texts) = (texts.map strlen).sum := by
  induction texts with
  | nil => rfl
  | cons text texts induction =>
      rw [String.join_cons, strlen_append, induction, List.map_cons, List.sum_cons]

/-- The length of an `INSERT`: of its own 158 bytes, and what it is filled with. -/
theorem strlen_bookCreateText (user : String) (book : BookEntry) (bookno : Int) :
    strlen (bookCreateText user book bookno) = 158 + strlen user +
      strlen (toString book.shelfno) + strlen (toString book.floorno) + strlen (toString bookno) +
      strlen (mysqlEscapeString book.name) + strlen (mysqlEscapeString book.author) +
      strlen (mysqlEscapeString book.label) + book.borrowed.utf8Size + book.onReading.utf8Size +
      strlen book.encodingTime.text := by
  have into : strlen "INSERT INTO " = 12 := strlen_ofList _
  have columns : strlen "_books(shelfno, floorno, bookno, name, author, label, " = 54 := strlen_ofList _
  have moreColumns : strlen "borrowed, on_reading, cleaned, encoding_time)" = 45 := strlen_ofList _
  have blanks : strlen (indentation 12) = 12 := strlen_ofList _
  have values : strlen "VALUES(" = 7 := strlen_ofList _
  have comma : strlen ", " = 2 := strlen_ofList _
  have opening : strlen ", '" = 3 := strlen_ofList _
  have between : strlen "', '" = 4 := strlen_ofList _
  have closing : strlen "', " = 3 := strlen_ofList _
  have available : strlen ", 0, '" = 6 := strlen_ofList _
  have last : strlen "')" = 2 := strlen_ofList _
  have flag (character : Char) : strlen (String.singleton character) = character.utf8Size := by
    simp [strlen]
  rw [bookCreateText, strlen_join]
  simp only [List.map_cons, List.map_nil, List.sum_cons, List.sum_nil, into, columns, moreColumns,
    blanks, values, comma, opening, between, closing, available, last, flag]
  clear into columns moreColumns blanks values comma opening between closing available last flag
  omega

/-! Books whose texts repeat one character. -/

def repeated (character : Char) (count : Nat) : String :=
  String.ofList (List.replicate count character)

theorem strlen_repeated {character : Char} (ascii : character.utf8Size = 1) (count : Nat) :
    strlen (repeated character count) = count := by
  simp [strlen, repeated, ascii]

theorem length_repeated (character : Char) (count : Nat) :
    (repeated character count).length = count := by
  rw [repeated, String.length_ofList, List.length_replicate]

def sampleSubmission (character : Char) (count : Nat) : MessageCs :=
  { MessageCs.zeroed.setBook { BookEntry.zeroed with
      shelfno := 1, floorno := 17, name := repeated character bookNameLen
      author := repeated character count, label := repeated character 190
      borrowed := '0', onReading := '0', encodingTime := ⟨"18-05-02 10h", by decide⟩ }
    with user := "reader" }

theorem sampleSubmission_submittable {character : Char} {count : Nat}
    (ascii : character.utf8Size = 1) (positive : 1 ≤ count) (bound : count ≤ authorNameLen) :
    (sampleSubmission character count).stuff.book.Submittable where
  name_pos := (strlen_repeated ascii bookNameLen).symm ▸ by decide
  name_le := (strlen_repeated ascii bookNameLen).le
  author_pos := (strlen_repeated ascii count).symm ▸ positive
  author_le := (strlen_repeated ascii count).symm ▸ bound
  label_le := (strlen_repeated ascii 190).le
  narrow other member := by
    have same : other = character := by
      simp only [sampleSubmission, MessageCs.setBook_book, repeated, String.toList_ofList,
        List.mem_append, List.mem_replicate] at member
      rcases member with (⟨_, same⟩ | ⟨_, same⟩) | ⟨_, same⟩ <;> exact same
    rw [same, ascii]
    decide
  borrowed := .inl rfl
  onReading := .inl rfl
  time := by
    show strlen "18-05-02 10h" < 20
    decide
  shelf_pos := le_refl _
  shelf_le := by
    show (1 : Int) ≤ maxShelfNum
    decide

theorem strlen_escape_repeated (character : Char) (count : Nat) :
    strlen (mysqlEscapeString (repeated character count)) =
      count * ((escapeChar character).map Char.utf8Size).sum := by
  induction count with
  | zero => simp [strlen, mysqlEscapeString, repeated]
  | succ count induction =>
      simp only [strlen, mysqlEscapeString, repeated, String.toList_ofList] at induction ⊢
      rw [List.replicate_succ, List.flatMap_cons, List.map_append, List.sum_append, induction,
        Nat.succ_mul, Nat.add_comm]

theorem strlen_sampleSubmission (character : Char) (count : Nat) (mode : SqlMode) :
    strlen (bookInsertText (sampleSubmission character count) (sampleTables mode)) =
      182 + (382 + count) * ((escapeChar character).map Char.utf8Size).sum := by
  show strlen (bookCreateText "reader" (sampleSubmission character count).stuff.book 1) = _
  have user : strlen "reader" = 6 := strlen_ofList _
  have time : strlen "18-05-02 10h" = 12 := strlen_ofList _
  have one : strlen (toString (1 : Int)) = 1 := by decide
  have floor : strlen (toString (17 : Int)) = 2 := by decide
  have flag : Char.utf8Size '0' = 1 := by decide
  rw [strlen_bookCreateText]
  simp only [sampleSubmission, MessageCs.setBook_book, strlen_escape_repeated, user, time, one,
    floor, flag]
  clear user time one floor flag
  generalize ((escapeChar character).map Char.utf8Size).sum = each
  have width : bookNameLen = 192 := rfl
  rw [Nat.add_mul, width]
  omega

theorem not_full_of_no_books (book : BookEntry) (mode : SqlMode) :
    ¬ (bookAllocation mode book).Full (sampleTables mode).archive := by
  intro full
  have one : (1 : Int) ≤ maxBookNum := by decide
  obtain ⟨row, member, _⟩ := full 1 (le_refl 1) one
  cases member

theorem bookReturns_with_seventy_letters :
    BookInsertReturns (sampleSubmission 'a' 70) ((sampleTables .strict).facing []) := by
  have reached : sampleTables .strict =
      Execution.run ArchiveRequest.step (sampleTables .strict) [] := rfl
  apply ((bookReturns_iff reached (by decide)
    (sampleSubmission_submittable (by decide) (by decide) (by decide))).1
      (not_full_of_no_books _ _)).mpr
  rw [strlen_sampleSubmission]
  exact ⟨(length_repeated 'a' 70).le, by decide⟩

/-- An author of 71 letters is refused or cut, and a book full of quotes overruns the
buffer. -/
theorem book_of_long_author_lost :
    (sampleSubmission 'a' 71).stuff.book.Submittable ∧
      (∀ mode, ¬ BookInsertReturns (sampleSubmission 'a' 71) (sampleTables mode)) ∧
      (sampleSubmission '"' 70).stuff.book.Submittable ∧
      (∀ mode, ¬ BookInsertReturns (sampleSubmission '"' 70) (sampleTables mode)) := by
  have long : (sampleSubmission 'a' 71).stuff.book.Submittable :=
    sampleSubmission_submittable (by decide) (by decide) (by decide)
  have quotes : (sampleSubmission '"' 70).stuff.book.Submittable :=
    sampleSubmission_submittable (by decide) (by decide) (by decide)
  refine ⟨long, ?_, quotes, ?_⟩
  · intro mode returns
    have numbered : (sampleTables mode).archive.WellNumbered := Archive.wellNumbered_empty
    have short := (srvdbBookInsert_held_iff numbered long returns.succeeds).mp returns.held
    have length : (sampleSubmission 'a' 71).stuff.book.author.length = 71 :=
      length_repeated 'a' 71
    omega
  · intro mode returns
    have within := returns.within
    rw [strlen_sampleSubmission] at within
    exact absurd within (by decide)

end Bookshelfdq
