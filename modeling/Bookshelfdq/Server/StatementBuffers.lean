import Bookshelfdq.Server.BookRoundTrip

/-! # The buffers of the statements

What `srvdb_book_insert`, `srvdb_book_update` and `srvdb_book_find` write with `sprintf`, in the
order in which they write it. -/

namespace Bookshelfdq

/-! ## Buffers -/

inductive SqlBuffer
  | is
  | esNameSql
  | esAuthorSql
  | esLabelSql
  | floorSql
deriving DecidableEq

def SqlBuffer.size : SqlBuffer → Nat
  | .is => statementSize
  | .esNameSql => bookNameLen * 2 + 32 + 1
  | .esAuthorSql => authorNameLen * 2 + 32 + 1
  | .esLabelSql => maxLabelNum * (labelNameLen + 1) * 2 + 32 + 1
  | .floorSql => 32

/-- A text written into a buffer. -/
structure SqlFormat where
  buffer : SqlBuffer
  text : String
deriving DecidableEq

def SqlFormat.Fits (format : SqlFormat) : Prop := strlen format.text < format.buffer.size

/-! ## `srvdb_book_insert` -/

/-- What the queries of an insertion give: the smallest number of a deleted book, whether its row
could be renewed, and the largest number, which is missing in an empty table. The query for the
largest number may fail. -/
structure InsertAnswers where
  smallest : Option Int
  renewed : Bool
  largest : Option (Option Int)

namespace InsertAnswers

/-- The number that the `INSERT` gives. -/
def number (answers : InsertAnswers) : Option Int :=
  match answers.largest with
  | none => none
  | some none => some 1
  | some (some bookno) => if bookno ≥ maxBookNum then none else some (bookno + 1)

def finished (answers : InsertAnswers) : Bool := answers.smallest.isSome && answers.renewed

end InsertAnswers

def bookMinText (user : String) : String :=
  String.join ["SELECT MIN(bookno) FROM ", user, "_books WHERE cleaned=1"]

def bookMaxText (user : String) : String :=
  String.join ["SELECT MAX(bookno) FROM ", user, "_books"]

def insertFormats (answers : InsertAnswers) (user : String) (book : BookEntry) : List SqlFormat :=
  if user = "" then []
  else
    [⟨.is, bookMinText user⟩] ++
      answers.smallest.toList.map (fun bookno => ⟨.is, bookRenewText user book bookno⟩) ++
      (if answers.finished then []
      else [⟨.is, bookMaxText user⟩] ++
        answers.number.toList.map fun bookno => ⟨.is, bookCreateText user book bookno⟩)

/-! ## `srvdb_book_update` -/

def shelfUpdateText (user : String) (book : BookEntry) : String :=
  String.join ["UPDATE ", user, "_books SET cleaned=2 WHERE shelfno=", toString book.shelfno]

def updateFormats (user : String) (book : BookEntry) : List SqlFormat :=
  if user = "" then []
  else if book.namesShelf then [⟨.is, shelfUpdateText user book⟩]
  else [⟨.is, bookUpdateText user book book.bookno⟩]

/-! ## `srvdb_book_find` -/

/-- What stands around the text looked for, by the mode. -/
def nameFrame : Char → Option (String × String)
  | '0' => some (" AND (name LIKE '%", "%' ")
  | '-' => some (" AND (name LIKE '%", "%' ")
  | '+' => some (" AND (name LIKE '%", "%' ")
  | '=' => some (" AND (name='", "' ")
  | _ => none

def authorFrame : Char → Option (String × String)
  | '-' => some (" OR author LIKE '%", "%' ")
  | '0' => some (" AND author LIKE '%", "%' ")
  | '+' => some (" AND author LIKE '%", "%' ")
  | '=' => some (" AND author='", "' ")
  | _ => none

def labelFrame : Char → Option (String × String)
  | '-' => some (" OR label LIKE '%", "%') ")
  | '0' => some (" AND label LIKE '%", "%') ")
  | '+' => some (" AND label LIKE '%", "%') ")
  | '=' => some (" AND label='", "') ")
  | _ => none

/-- A field without its mode. -/
def searchedText (field : String) : String := String.ofList field.toList.tail

/-- The clause for a field. In an empty field `strlen` less one is no length, and the function does
not come to the clause. -/
def searchSql (frame : Char → Option (String × String)) (field : String) : Option String :=
  (field.toList.head?.bind frame).map fun around =>
    around.1 ++ mysqlEscapeString (searchedText field) ++ around.2

def floorText (book : BookEntry) : Option String :=
  if book.floorno ≠ nonSenseInt ∧ book.shelfno ≠ nonSenseInt then
    some (String.join [" and floorno=", toString book.floorno, " "])
  else none

section Find

variable (user : String) (book : BookEntry)

def findSymbol : String := if book.shelfno = nonSenseInt then ">" else "="

def findStart : Int := if book.bookno = breakLimitInt then nonSenseInt else book.bookno

def findColumns : String := if book.bookno = breakLimitInt then "bookno" else "*"

def findLimit : Nat := if book.bookno = breakLimitInt then maxBookNum else defaultFinds

def listingText (condition : String) : String :=
  String.join ["SELECT ", findColumns book, " FROM ", user, "_books WHERE ", condition,
    " and shelfno", findSymbol book, toString book.shelfno, " and bookno>",
    toString (findStart book), " ORDER BY bookno LIMIT ", toString (findLimit book)]

def pointText : String :=
  String.join ["SELECT ", findColumns book, " FROM ", user, "_books WHERE bookno=",
    toString (-findStart book)]

def keywordText (nameSql authorSql labelSql : String) : String :=
  String.join ["SELECT ", findColumns book, " FROM ", user, "_books WHERE shelfno",
    findSymbol book, toString book.shelfno, " AND cleaned=0 AND bookno>",
    toString (findStart book), " ", (floorText book).getD "", nameSql, authorSql, labelSql,
    " ORDER BY bookno LIMIT ", toString (findLimit book)]

/-- The search for keywords. An unknown mode ends it. -/
def keywordFormats : List SqlFormat :=
  match searchSql nameFrame book.name with
  | none => []
  | some nameSql => ⟨.esNameSql, nameSql⟩ ::
      match searchSql authorFrame book.author with
      | none => []
      | some authorSql => ⟨.esAuthorSql, authorSql⟩ ::
          match searchSql labelFrame book.label with
          | none => []
          | some labelSql => ⟨.esLabelSql, labelSql⟩ ::
              ((floorText book).toList.map (fun text => ⟨.floorSql, text⟩) ++
                [⟨.is, keywordText user book nameSql authorSql labelSql⟩])

def findFormats : List SqlFormat :=
  if user = "" then []
  else if book.borrowed = flagFindUnsorted ∧ book.onReading = flagFindUnsorted then
    [⟨.is, listingText user book "cleaned=2"⟩]
  else if book.borrowed = flagBorrowed then
    [⟨.is, listingText user book "borrowed=1 and cleaned=0"⟩]
  else if book.onReading = flagOnReading then
    [⟨.is, listingText user book "on_reading=1 and cleaned=0"⟩]
  else if findStart book < 0 then [⟨.is, pointText user book⟩]
  else keywordFormats user book

end Find

/-! ## The room that is needed -/

/-- The bytes of a text that is escaped. -/
def escapes (character : Char) : Bool :=
  character ∈ [0, 10, 13, 26, 34, 39, 92].map Char.ofNat

def escapedBytes (text : String) : Nat := strlen text + text.toList.countP escapes

def numeralBytes (number : Int) : Nat := strlen (toString number)

/-- What the statements for a single book are filled with, its number apart. -/
def filledBytes (user : String) (book : BookEntry) : Nat :=
  strlen user + numeralBytes book.shelfno + numeralBytes book.floorno + escapedBytes book.name +
    escapedBytes book.author + escapedBytes book.label + book.borrowed.utf8Size +
    book.onReading.utf8Size + strlen book.encodingTime.text

/-- Room for the `UPDATE` and the `INSERT` of an insertion, where these are written. -/
structure InsertRoom (answers : InsertAnswers) (user : String) (book : BookEntry) : Prop where
  renew : ∀ bookno, answers.smallest = some bookno →
    149 + filledBytes user book + numeralBytes bookno < statementSize
  create : answers.finished = false → ∀ bookno, answers.number = some bookno →
    158 + filledBytes user book + numeralBytes bookno < statementSize

/-- The texts around what is looked for, and what is looked for. -/
def searchBytes (frame : Char → Option (String × String)) (field : String) : Option Nat :=
  (field.toList.head?.bind frame).map fun around =>
    strlen around.1 + strlen around.2 + escapedBytes (searchedText field)

def floorBytes (book : BookEntry) : Nat :=
  if book.floorno ≠ nonSenseInt ∧ book.shelfno ≠ nonSenseInt then 14 + numeralBytes book.floorno
  else 0

/-- The search is neither for a flag nor for a number. -/
def BookEntry.SearchesKeywords (book : BookEntry) : Prop :=
  ¬(book.borrowed = flagFindUnsorted ∧ book.onReading = flagFindUnsorted) ∧
    book.borrowed ≠ flagBorrowed ∧ book.onReading ≠ flagOnReading ∧ 0 ≤ findStart book

/-- Room for a search for keywords of known modes. -/
def FindRoom (user : String) (book : BookEntry) : Prop :=
  book.SearchesKeywords → ∀ name author label, searchBytes nameFrame book.name = some name →
    searchBytes authorFrame book.author = some author →
    searchBytes labelFrame book.label = some label →
    84 + strlen user + strlen (findColumns book) + numeralBytes book.shelfno +
      numeralBytes (findStart book) + floorBytes book + name + author + label +
      numeralBytes (findLimit book) < statementSize

/-! ## Lengths -/

theorem strlen_escapeChar (character : Char) :
    ((escapeChar character).map Char.utf8Size).sum =
      character.utf8Size + if escapes character then 1 else 0 := by
  rw [escapeChar]
  split
  case isTrue same => rw [same]; decide
  case isFalse zero =>
    split
    case isTrue same => rw [same]; decide
    case isFalse newline =>
      split
      case isTrue same => rw [same]; decide
      case isFalse carriage =>
        split
        case isTrue same => rw [same]; decide
        case isFalse substitute =>
          split
          case isTrue quoted =>
            rcases quoted with same | same | same <;> rw [same] <;> decide
          case isFalse plain =>
            have kept : escapes character = false := by
              simp only [not_or] at plain
              simp [escapes, zero, newline, carriage, substitute, plain]
            simp [kept]

theorem strlen_mysqlEscapeString (text : String) :
    strlen (mysqlEscapeString text) = escapedBytes text := by
  rw [strlen, mysqlEscapeString, String.toList_ofList, escapedBytes, strlen]
  induction text.toList with
  | nil => rfl
  | cons character characters induction =>
      rw [List.flatMap_cons, List.map_append, List.sum_append, induction, strlen_escapeChar,
        List.map_cons, List.sum_cons, List.countP_cons]
      omega

theorem escapedBytes_le (text : String) : escapedBytes text ≤ 2 * strlen text := by
  have counted : text.toList.countP escapes ≤ text.length :=
    List.countP_le_length.trans (by rw [String.length_toList])
  have bytes := length_le_strlen text
  rw [escapedBytes]
  omega

/-- The mode takes a byte at least. -/
theorem strlen_searchedText {field : String} {mode : Char} (head : field.toList.head? = some mode) :
    strlen (searchedText field) + 1 ≤ strlen field := by
  cases characters : field.toList with
  | nil =>
      rw [characters] at head
      cases head
  | cons first rest =>
      have positive := Char.utf8Size_pos first
      rw [strlen, searchedText, strlen, String.toList_ofList, characters, List.tail_cons,
        List.map_cons, List.sum_cons]
      omega

/-- An `int`. -/
def IsInt (number : Int) : Prop := -2147483648 ≤ number ∧ number ≤ 2147483647

theorem strlen_natRepr_le {number : Nat} (bound : number < 10 ^ 10) : strlen number.repr ≤ 10 := by
  have each : ∀ character ∈ Nat.toDigits 10 number, character.utf8Size = 1 := by
    intro character member
    have digit := Nat.isDigit_of_mem_toDigits (by decide) (by decide) member
    simp only [Char.isDigit, Bool.and_eq_true, decide_eq_true_eq] at digit
    have last : character.val ≤ 57 := digit.2
    exact Char.utf8Size_eq_one_iff.mpr (UInt32.le_trans last (by decide))
  have ones : (Nat.toDigits 10 number).map Char.utf8Size =
      List.replicate (Nat.toDigits 10 number).length 1 :=
    List.map_eq_replicate_iff.mpr each
  rw [strlen, Nat.toList_repr, ones, List.sum_replicate_nat, Nat.mul_one]
  exact (Nat.length_toDigits_le_iff (by decide) (by decide)).mpr bound

theorem numeralBytes_le {number : Int} (lower : -10000000000 < number)
    (upper : number < 10000000000) : numeralBytes number ≤ 11 := by
  cases number with
  | ofNat number =>
      have short := strlen_natRepr_le (Int.ofNat_lt.mp upper)
      exact short.trans (by decide)
  | negSucc number =>
      have bound : number.succ < 10 ^ 10 := by
        rw [Int.negSucc_eq] at lower
        omega
      have short := strlen_natRepr_le bound
      have text : toString (Int.negSucc number) = "-" ++ number.succ.repr := rfl
      have minus : strlen "-" = 1 := strlen_ofList _
      rw [numeralBytes, text, strlen_append, minus]
      omega

theorem IsInt.numeralBytes_le {number : Int} (fits : IsInt number) : numeralBytes number ≤ 11 := by
  rcases fits with ⟨lower, upper⟩
  exact Bookshelfdq.numeralBytes_le (by omega) (by omega)

/-! ## The statements for a single book -/

theorem strlen_singleton (character : Char) :
    strlen (String.singleton character) = character.utf8Size := by
  simp [strlen]

section Single

variable (user : String) (book : BookEntry) (bookno : Int)

theorem strlen_bookRenewText : strlen (bookRenewText user book bookno) =
    149 + filledBytes user book + numeralBytes bookno := by
  have update : strlen "UPDATE " = 7 := strlen_ofList _
  have shelfno : strlen "_books SET cleaned=0,shelfno=" = 29 := strlen_ofList _
  have floorno : strlen ",floorno=" = 9 := strlen_ofList _
  have name : strlen ",name='" = 7 := strlen_ofList _
  have author : strlen "',author='" = 10 := strlen_ofList _
  have closing : strlen "'," = 2 := strlen_ofList _
  have blanks : strlen (indentation 24) = 24 := strlen_ofList _
  have label : strlen "label='" = 7 := strlen_ofList _
  have borrowed : strlen "',borrowed=" = 11 := strlen_ofList _
  have onReading : strlen ",on_reading=" = 12 := strlen_ofList _
  have time : strlen ",encoding_time='" = 16 := strlen_ofList _
  have number : strlen "' WHERE bookno=" = 15 := strlen_ofList _
  rw [bookRenewText, strlen_join]
  simp only [List.map_cons, List.map_nil, List.sum_cons, List.sum_nil, update, shelfno, floorno,
    name, author, closing, blanks, label, borrowed, onReading, time, number, strlen_singleton,
    strlen_mysqlEscapeString]
  rw [filledBytes, numeralBytes, numeralBytes, numeralBytes]
  clear update shelfno floorno name author closing blanks label borrowed onReading time number
  omega

theorem strlen_bookCreateText_filled : strlen (bookCreateText user book bookno) =
    158 + filledBytes user book + numeralBytes bookno := by
  rw [strlen_bookCreateText, filledBytes, numeralBytes, numeralBytes, numeralBytes,
    strlen_mysqlEscapeString, strlen_mysqlEscapeString, strlen_mysqlEscapeString]
  omega

theorem strlen_bookUpdateText : strlen (bookUpdateText user book bookno) =
    148 + filledBytes user book + numeralBytes bookno := by
  have update : strlen "UPDATE " = 7 := strlen_ofList _
  have shelfno : strlen "_books SET shelfno=" = 19 := strlen_ofList _
  have floorno : strlen ", floorno=" = 10 := strlen_ofList _
  have name : strlen ", name='" = 8 := strlen_ofList _
  have author : strlen "', author='" = 11 := strlen_ofList _
  have closing : strlen "'," = 2 := strlen_ofList _
  have blanks : strlen (indentation 16) = 16 := strlen_ofList _
  have label : strlen "label='" = 7 := strlen_ofList _
  have borrowed : strlen "', borrowed=" = 12 := strlen_ofList _
  have onReading : strlen ", on_reading=" = 13 := strlen_ofList _
  have time : strlen ", cleaned=0, encoding_time='" = 28 := strlen_ofList _
  have number : strlen "' WHERE bookno=" = 15 := strlen_ofList _
  rw [bookUpdateText, strlen_join]
  simp only [List.map_cons, List.map_nil, List.sum_cons, List.sum_nil, update, shelfno, floorno,
    name, author, closing, blanks, label, borrowed, onReading, time, number, strlen_singleton,
    strlen_mysqlEscapeString]
  rw [filledBytes, numeralBytes, numeralBytes, numeralBytes]
  clear update shelfno floorno name author closing blanks label borrowed onReading time number
  omega

end Single

/-! ## The short statements -/

/-- A character has four bytes at most. -/
theorem strlen_le (text : String) : strlen text ≤ 4 * text.length := by
  rw [strlen, ← String.length_toList]
  induction text.toList with
  | nil => exact Nat.le_refl 0
  | cons character characters induction =>
      have bytes := Char.utf8Size_le_four character
      rw [List.map_cons, List.sum_cons, List.length_cons]
      omega

theorem findColumns_le (book : BookEntry) : strlen (findColumns book) ≤ 6 := by
  rw [findColumns]
  split
  · exact (strlen_ofList _).le
  · exact (strlen_ofList _).le.trans (by decide)

theorem findSymbol_size (book : BookEntry) : strlen (findSymbol book) = 1 := by
  rw [findSymbol]
  split
  · exact strlen_ofList _
  · exact strlen_ofList _

theorem findStart_isInt {book : BookEntry} (bookno : IsInt book.bookno) :
    IsInt (findStart book) := by
  rw [findStart]
  split
  · exact ⟨by decide, by decide⟩
  · exact bookno

theorem findLimit_le (book : BookEntry) : strlen (toString (findLimit book)) ≤ 5 := by
  rw [findLimit]
  split <;> decide

section Short

variable {user : String} (short : strlen user ≤ 80)

include short

theorem bookMinText_fits : SqlFormat.Fits ⟨.is, bookMinText user⟩ := by
  have opening : strlen "SELECT MIN(bookno) FROM " = 24 := strlen_ofList _
  have closing : strlen "_books WHERE cleaned=1" = 22 := strlen_ofList _
  show strlen (bookMinText user) < 1024
  rw [bookMinText, strlen_join]
  simp only [List.map_cons, List.map_nil, List.sum_cons, List.sum_nil, opening, closing]
  omega

theorem bookMaxText_fits : SqlFormat.Fits ⟨.is, bookMaxText user⟩ := by
  have opening : strlen "SELECT MAX(bookno) FROM " = 24 := strlen_ofList _
  have closing : strlen "_books" = 6 := strlen_ofList _
  show strlen (bookMaxText user) < 1024
  rw [bookMaxText, strlen_join]
  simp only [List.map_cons, List.map_nil, List.sum_cons, List.sum_nil, opening, closing]
  omega

theorem shelfUpdateText_fits {book : BookEntry} (shelfno : IsInt book.shelfno) :
    SqlFormat.Fits ⟨.is, shelfUpdateText user book⟩ := by
  have opening : strlen "UPDATE " = 7 := strlen_ofList _
  have closing : strlen "_books SET cleaned=2 WHERE shelfno=" = 35 := strlen_ofList _
  have number : strlen (toString book.shelfno) ≤ 11 := shelfno.numeralBytes_le
  show strlen (shelfUpdateText user book) < 1024
  rw [shelfUpdateText, strlen_join]
  simp only [List.map_cons, List.map_nil, List.sum_cons, List.sum_nil, opening, closing]
  omega

theorem listingText_fits {book : BookEntry} (shelfno : IsInt book.shelfno)
    (bookno : IsInt book.bookno) {condition : String} (brief : strlen condition ≤ 26) :
    SqlFormat.Fits ⟨.is, listingText user book condition⟩ := by
  have select : strlen "SELECT " = 7 := strlen_ofList _
  have table : strlen " FROM " = 6 := strlen_ofList _
  have opening : strlen "_books WHERE " = 13 := strlen_ofList _
  have shelf : strlen " and shelfno" = 12 := strlen_ofList _
  have number : strlen " and bookno>" = 12 := strlen_ofList _
  have order : strlen " ORDER BY bookno LIMIT " = 23 := strlen_ofList _
  have columns := findColumns_le book
  have symbol := findSymbol_size book
  have limit := findLimit_le book
  have shelfBytes : strlen (toString book.shelfno) ≤ 11 := shelfno.numeralBytes_le
  have startBytes : strlen (toString (findStart book)) ≤ 11 :=
    (findStart_isInt bookno).numeralBytes_le
  show strlen (listingText user book condition) < 1024
  rw [listingText, strlen_join]
  simp only [List.map_cons, List.map_nil, List.sum_cons, List.sum_nil, select, table, opening,
    shelf, number, order, symbol]
  omega

theorem pointText_fits {book : BookEntry} (bookno : IsInt book.bookno)
    (negative : findStart book < 0) : SqlFormat.Fits ⟨.is, pointText user book⟩ := by
  have select : strlen "SELECT " = 7 := strlen_ofList _
  have table : strlen " FROM " = 6 := strlen_ofList _
  have opening : strlen "_books WHERE bookno=" = 20 := strlen_ofList _
  have columns := findColumns_le book
  have number : strlen (toString (-findStart book)) ≤ 11 := by
    have start := (findStart_isInt bookno).1
    exact numeralBytes_le (by omega) (by omega)
  show strlen (pointText user book) < 1024
  rw [pointText, strlen_join]
  simp only [List.map_cons, List.map_nil, List.sum_cons, List.sum_nil, select, table, opening]
  omega

end Short

/-! ## The clauses of a search -/

theorem searchBytes_eq (frame : Char → Option (String × String)) (field : String) :
    searchBytes frame field = (searchSql frame field).map strlen := by
  rw [searchSql, searchBytes, Option.map_map]
  apply congrArg (fun bytes => (field.toList.head?.bind frame).map bytes)
  funext around
  rw [Function.comp_apply, strlen_append, strlen_append, strlen_mysqlEscapeString]
  omega

/-- The buffer of a clause is twice as long as the field and leaves 32 bytes for the texts
around it. -/
theorem searchSql_le {frame : Char → Option (String × String)} {field sql : String} {bound : Nat}
    (around : ∀ mode opening closing, frame mode = some (opening, closing) →
      strlen opening + strlen closing ≤ 22)
    (short : strlen field ≤ bound) (clause : searchSql frame field = some sql) :
    strlen sql ≤ 20 + 2 * bound := by
  rcases Option.map_eq_some_iff.mp clause with ⟨⟨opening, closing⟩, framed, rfl⟩
  rcases Option.bind_eq_some_iff.mp framed with ⟨mode, head, modeFrame⟩
  have texts := around mode opening closing modeFrame
  have less := strlen_searchedText head
  have escaped := escapedBytes_le (searchedText field)
  rw [strlen_append, strlen_append, strlen_mysqlEscapeString]
  dsimp only
  omega

theorem nameFrame_le (mode : Char) (opening closing : String)
    (frame : nameFrame mode = some (opening, closing)) : strlen opening + strlen closing ≤ 22 := by
  rw [nameFrame.eq_def] at frame
  split at frame <;> cases frame <;>
    exact (Nat.add_le_add (strlen_ofList _).le (strlen_ofList _).le).trans (by decide)

theorem authorFrame_le (mode : Char) (opening closing : String)
    (frame : authorFrame mode = some (opening, closing)) :
    strlen opening + strlen closing ≤ 22 := by
  rw [authorFrame.eq_def] at frame
  split at frame <;> cases frame <;>
    exact (Nat.add_le_add (strlen_ofList _).le (strlen_ofList _).le).trans (by decide)

theorem labelFrame_le (mode : Char) (opening closing : String)
    (frame : labelFrame mode = some (opening, closing)) :
    strlen opening + strlen closing ≤ 22 := by
  rw [labelFrame.eq_def] at frame
  split at frame <;> cases frame <;>
    exact (Nat.add_le_add (strlen_ofList _).le (strlen_ofList _).le).trans (by decide)

theorem strlen_floorText (book : BookEntry) :
    (∀ text, floorText book = some text → strlen text = 14 + numeralBytes book.floorno) ∧
      strlen ((floorText book).getD "") = floorBytes book := by
  have opening : strlen " and floorno=" = 13 := strlen_ofList _
  have closing : strlen " " = 1 := strlen_ofList _
  have length : strlen (String.join [" and floorno=", toString book.floorno, " "]) =
      14 + numeralBytes book.floorno := by
    rw [strlen_join, numeralBytes]
    simp only [List.map_cons, List.map_nil, List.sum_cons, List.sum_nil, opening, closing]
    omega
  rw [floorText, floorBytes]
  split
  · refine ⟨?_, length⟩
    rintro text same
    cases same
    exact length
  · refine ⟨?_, rfl⟩
    intro text same
    cases same

theorem strlen_keywordText (user : String) (book : BookEntry) (nameSql authorSql labelSql : String) :
    strlen (keywordText user book nameSql authorSql labelSql) =
      84 + strlen user + strlen (findColumns book) + numeralBytes book.shelfno +
        numeralBytes (findStart book) + floorBytes book + strlen nameSql + strlen authorSql +
        strlen labelSql + numeralBytes (findLimit book) := by
  have select : strlen "SELECT " = 7 := strlen_ofList _
  have table : strlen " FROM " = 6 := strlen_ofList _
  have opening : strlen "_books WHERE shelfno" = 20 := strlen_ofList _
  have number : strlen " AND cleaned=0 AND bookno>" = 26 := strlen_ofList _
  have blank : strlen " " = 1 := strlen_ofList _
  have order : strlen " ORDER BY bookno LIMIT " = 23 := strlen_ofList _
  have limit : toString (findLimit book) = toString (findLimit book : Int) := rfl
  rw [keywordText, strlen_join]
  simp only [List.map_cons, List.map_nil, List.sum_cons, List.sum_nil, select, table, opening,
    number, blank, order, findSymbol_size, (strlen_floorText book).2]
  rw [numeralBytes, numeralBytes, numeralBytes, limit]
  clear select table opening number blank order limit
  omega

/-! ## All statements -/

def FormatsFit (formats : List SqlFormat) : Prop := ∀ format ∈ formats, format.Fits

theorem formatsFit_cons {format : SqlFormat} {formats : List SqlFormat} :
    FormatsFit (format :: formats) ↔ format.Fits ∧ FormatsFit formats :=
  List.forall_mem_cons

theorem formatsFit_append {first second : List SqlFormat} :
    FormatsFit (first ++ second) ↔ FormatsFit first ∧ FormatsFit second :=
  List.forall_mem_append

theorem formatsFit_nil : FormatsFit [] := fun _ member => absurd member List.not_mem_nil

theorem formatsFit_toList {Item : Type} {filled : Option Item} {format : Item → SqlFormat} :
    FormatsFit (filled.toList.map format) ↔ ∀ item, filled = some item → (format item).Fits := by
  constructor
  · rintro fit item rfl
    exact fit _ List.mem_cons_self
  · intro fits format member
    rcases List.mem_map.mp member with ⟨item, given, rfl⟩
    exact fits item (Option.mem_toList.mp given)

/-- What the client lets into an entry. -/
structure BookEntry.Limited (book : BookEntry) : Prop where
  name : strlen book.name ≤ bookNameLen
  author : strlen book.author ≤ authorNameLen
  label : strlen book.label ≤ maxLabelNum * (labelNameLen + 1)
  shelfno : IsInt book.shelfno
  floorno : IsInt book.floorno
  bookno : IsInt book.bookno

section Limits

variable {user : String} (short : strlen user ≤ 80) {book : BookEntry}

include short

theorem insertFormats_fit_iff (answers : InsertAnswers) :
    FormatsFit (insertFormats answers user book) ↔
      (user ≠ "" → InsertRoom answers user book) := by
  by_cases named : user = ""
  · rw [insertFormats, if_pos named]
    exact ⟨fun _ other => absurd named other, fun _ => formatsFit_nil⟩
  · have renew (bookno : Int) : SqlFormat.Fits ⟨.is, bookRenewText user book bookno⟩ ↔
        149 + filledBytes user book + numeralBytes bookno < statementSize := by
      rw [← strlen_bookRenewText]
      rfl
    have create (bookno : Int) : SqlFormat.Fits ⟨.is, bookCreateText user book bookno⟩ ↔
        158 + filledBytes user book + numeralBytes bookno < statementSize := by
      rw [← strlen_bookCreateText_filled]
      rfl
    have least : FormatsFit [⟨.is, bookMinText user⟩] :=
      formatsFit_cons.mpr ⟨bookMinText_fits short, formatsFit_nil⟩
    have largest : FormatsFit [⟨.is, bookMaxText user⟩] :=
      formatsFit_cons.mpr ⟨bookMaxText_fits short, formatsFit_nil⟩
    rw [insertFormats, if_neg named, formatsFit_append, formatsFit_append, formatsFit_toList]
    simp only [renew]
    cases finished : answers.finished with
    | true =>
        rw [if_pos rfl]
        constructor
        · exact fun fit _ => ⟨fit.1.2, fun unfinished => absurd (finished.symm.trans unfinished)
            (by decide)⟩
        · exact fun room => ⟨⟨least, (room named).renew⟩, formatsFit_nil⟩
    | false =>
        rw [if_neg Bool.false_ne_true, formatsFit_append, formatsFit_toList]
        simp only [create]
        constructor
        · exact fun fit _ => ⟨fit.1.2, fun _ => fit.2.2⟩
        · exact fun room => ⟨⟨least, (room named).renew⟩, largest, (room named).create finished⟩

variable (limited : book.Limited)

include limited

theorem updateFormats_fit_iff :
    FormatsFit (updateFormats user book) ↔
      (user ≠ "" → book.namesShelf = false →
        148 + filledBytes user book + numeralBytes book.bookno < statementSize) := by
  by_cases named : user = ""
  · rw [updateFormats, if_pos named]
    exact ⟨fun _ other => absurd named other, fun _ => formatsFit_nil⟩
  · rw [updateFormats, if_neg named]
    cases whole : book.namesShelf with
    | true =>
        rw [if_pos rfl]
        exact ⟨fun _ _ single => absurd single.symm Bool.false_ne_true, fun _ =>
          formatsFit_cons.mpr ⟨shelfUpdateText_fits short limited.shelfno, formatsFit_nil⟩⟩
    | false =>
        rw [if_neg Bool.false_ne_true, ← strlen_bookUpdateText]
        exact ⟨fun fit _ _ => (formatsFit_cons.mp fit).1, fun room =>
          formatsFit_cons.mpr ⟨room named rfl, formatsFit_nil⟩⟩

omit short in
theorem keywordFormats_fit_iff :
    FormatsFit (keywordFormats user book) ↔
      ∀ name author label, searchBytes nameFrame book.name = some name →
        searchBytes authorFrame book.author = some author →
        searchBytes labelFrame book.label = some label →
        84 + strlen user + strlen (findColumns book) + numeralBytes book.shelfno +
          numeralBytes (findStart book) + floorBytes book + name + author + label +
          numeralBytes (findLimit book) < statementSize := by
  have nameFits : ∀ sql, searchSql nameFrame book.name = some sql →
      SqlFormat.Fits ⟨.esNameSql, sql⟩ := fun _ clause =>
    Nat.lt_of_le_of_lt (searchSql_le nameFrame_le limited.name clause)
      (show 20 + 2 * bookNameLen < SqlBuffer.esNameSql.size by decide)
  have authorFits : ∀ sql, searchSql authorFrame book.author = some sql →
      SqlFormat.Fits ⟨.esAuthorSql, sql⟩ := fun _ clause =>
    Nat.lt_of_le_of_lt (searchSql_le authorFrame_le limited.author clause)
      (show 20 + 2 * authorNameLen < SqlBuffer.esAuthorSql.size by decide)
  have labelFits : ∀ sql, searchSql labelFrame book.label = some sql →
      SqlFormat.Fits ⟨.esLabelSql, sql⟩ := fun _ clause =>
    Nat.lt_of_le_of_lt (searchSql_le labelFrame_le limited.label clause)
      (show 20 + 2 * (maxLabelNum * (labelNameLen + 1)) < SqlBuffer.esLabelSql.size by decide)
  have floorFits : FormatsFit ((floorText book).toList.map fun text => ⟨.floorSql, text⟩) := by
    apply formatsFit_toList.mpr
    intro text given
    have bytes := limited.floorno.numeralBytes_le
    rw [SqlFormat.Fits, (strlen_floorText book).1 text given]
    exact Nat.lt_of_le_of_lt (Nat.add_le_add_left bytes 14)
      (show 14 + 11 < SqlBuffer.floorSql.size by decide)
  rw [keywordFormats, searchBytes_eq, searchBytes_eq, searchBytes_eq]
  cases named : searchSql nameFrame book.name with
  | none =>
      refine ⟨fun _ _ _ _ unknown => ?_, fun _ => formatsFit_nil⟩
      cases unknown
  | some nameSql =>
      rw [formatsFit_cons, and_iff_right (nameFits nameSql named)]
      cases authored : searchSql authorFrame book.author with
      | none =>
          refine ⟨fun _ _ _ _ _ unknown => ?_, fun _ => formatsFit_nil⟩
          cases unknown
      | some authorSql =>
          rw [formatsFit_cons, and_iff_right (authorFits authorSql authored)]
          cases labelled : searchSql labelFrame book.label with
          | none =>
              refine ⟨fun _ _ _ _ _ _ unknown => ?_, fun _ => formatsFit_nil⟩
              cases unknown
          | some labelSql =>
              rw [formatsFit_cons, and_iff_right (labelFits labelSql labelled),
                formatsFit_append, and_iff_right floorFits, formatsFit_cons,
                and_iff_left formatsFit_nil, SqlFormat.Fits, strlen_keywordText]
              constructor
              · rintro fits name author label same sameAuthor sameLabel
                cases same
                cases sameAuthor
                cases sameLabel
                exact fits
              · exact fun room => room _ _ _ rfl rfl rfl

theorem findFormats_fit_iff :
    FormatsFit (findFormats user book) ↔ (user ≠ "" → FindRoom user book) := by
  have listing {condition : String} (brief : strlen condition ≤ 26) :
      FormatsFit [⟨.is, listingText user book condition⟩] :=
    formatsFit_cons.mpr ⟨listingText_fits short limited.shelfno limited.bookno brief,
      formatsFit_nil⟩
  by_cases named : user = ""
  · rw [findFormats, if_pos named]
    exact ⟨fun _ other => absurd named other, fun _ => formatsFit_nil⟩
  · rw [findFormats, if_neg named, FindRoom, BookEntry.SearchesKeywords]
    by_cases unsorted : book.borrowed = flagFindUnsorted ∧ book.onReading = flagFindUnsorted
    · rw [if_pos unsorted]
      exact ⟨fun _ _ searches => absurd unsorted searches.1,
        fun _ => listing ((strlen_ofList _).le.trans (by decide))⟩
    · rw [if_neg unsorted]
      by_cases borrowed : book.borrowed = flagBorrowed
      · rw [if_pos borrowed]
        exact ⟨fun _ _ searches => absurd borrowed searches.2.1,
          fun _ => listing ((strlen_ofList _).le.trans (by decide))⟩
      · rw [if_neg borrowed]
        by_cases onReading : book.onReading = flagOnReading
        · rw [if_pos onReading]
          exact ⟨fun _ _ searches => absurd onReading searches.2.2.1,
            fun _ => listing ((strlen_ofList _).le.trans (by decide))⟩
        · rw [if_neg onReading]
          by_cases negative : findStart book < 0
          · rw [if_pos negative]
            exact ⟨fun _ _ searches => absurd searches.2.2.2 (Int.not_le.mpr negative),
              fun _ => formatsFit_cons.mpr
                ⟨pointText_fits short limited.bookno negative, formatsFit_nil⟩⟩
          · rw [if_neg negative, keywordFormats_fit_iff limited]
            exact ⟨fun fits _ _ => fits, fun room =>
              room named ⟨unsorted, borrowed, onReading, Int.not_lt.mp negative⟩⟩

end Limits

/-- Each clause fits its buffer. A statement fits `is` if and only if the entry leaves room for its
constant text, where a character that is escaped counts twice. -/
theorem sql_statements_fit_iff {user : String} (short : user.length ≤ 20) {book : BookEntry}
    (limited : book.Limited) :
    (∀ answers, FormatsFit (insertFormats answers user book) ↔
      (user ≠ "" → InsertRoom answers user book)) ∧
    (FormatsFit (updateFormats user book) ↔
      (user ≠ "" → book.namesShelf = false →
        148 + filledBytes user book + numeralBytes book.bookno < statementSize)) ∧
    (FormatsFit (findFormats user book) ↔ (user ≠ "" → FindRoom user book)) := by
  have bytes : strlen user ≤ 80 := (strlen_le user).trans (Nat.mul_le_mul_left 4 short)
  exact ⟨insertFormats_fit_iff bytes, updateFormats_fit_iff bytes limited,
    findFormats_fit_iff bytes limited⟩

/-- A book, and a search for it by its name. -/
def plainBook : BookEntry :=
  { BookEntry.zeroed with
    shelfno := 1, floorno := 17, name := "=Dune", author := "0", label := "0"
    borrowed := '0', onReading := '0' }

theorem plain_book_fits :
    FormatsFit (insertFormats ⟨some 3, false, some (some 9)⟩ "reader" plainBook) ∧
      FormatsFit (updateFormats "reader" plainBook) ∧
      FormatsFit (findFormats "reader" plainBook) := by
  have limited : plainBook.Limited := by
    refine ⟨?_, ?_, ?_, ⟨?_, ?_⟩, ⟨?_, ?_⟩, ⟨?_, ?_⟩⟩ <;> decide +kernel
  have filled : filledBytes "reader" plainBook = 18 := by decide +kernel
  rcases @sql_statements_fit_iff "reader" (by decide +kernel) plainBook limited with
    ⟨inserts, updates, finds⟩
  have name : searchBytes nameFrame plainBook.name = some 18 := by decide +kernel
  have author : searchBytes authorFrame plainBook.author = some 22 := by decide +kernel
  have label : searchBytes labelFrame plainBook.label = some 22 := by decide +kernel
  refine ⟨(inserts _).mpr fun _ => ⟨?_, ?_⟩, updates.mpr ?_, finds.mpr ?_⟩
  · rintro bookno ⟨⟩
    rw [filled]
    decide +kernel
  · rintro _ bookno ⟨⟩
    rw [filled]
    decide +kernel
  · intro _ _
    rw [filled]
    decide +kernel
  · intro _ _ nameBytes authorBytes labelBytes named authored labelled
    rw [← Option.some.inj (name.symm.trans named), ← Option.some.inj (author.symm.trans authored),
      ← Option.some.inj (label.symm.trans labelled)]
    decide +kernel

theorem escapedBytes_ofList (characters : List Char) : escapedBytes (String.ofList characters) =
    (characters.map Char.utf8Size).sum + characters.countP escapes := by
  rw [escapedBytes, strlen, String.toList_ofList]

/-- Ten labels of quotes. -/
def quotedLabels : List Char :=
  List.intercalate [','] (List.replicate maxLabelNum (List.replicate labelNameLen (Char.ofNat 39)))

def quotedBook : BookEntry :=
  { BookEntry.zeroed with
    shelfno := 1, floorno := 17, name := repeated (Char.ofNat 39) bookNameLen
    author := repeated (Char.ofNat 39) authorNameLen, label := String.ofList quotedLabels
    borrowed := '0', onReading := '0' }

/-- The `INSERT` of a book whose title, author and labels are quotes is too long. -/
theorem quoted_book_overflows :
    ¬∀ user book, user.length ≤ 20 → book.Limited → ∀ answers,
      FormatsFit (insertFormats answers user book) := by
  intro all
  have quote : Char.utf8Size (Char.ofNat 39) = 1 := by decide
  have limited : quotedBook.Limited := by
    refine ⟨(strlen_repeated quote _).le, (strlen_repeated quote _).le, ?_, ⟨?_, ?_⟩, ⟨?_, ?_⟩,
      ⟨?_, ?_⟩⟩
    · rw [strlen, show quotedBook.label.toList = quotedLabels from String.toList_ofList]
      decide +kernel
    all_goals decide +kernel
  have fits := all "reader" quotedBook (by decide +kernel) limited ⟨none, false, some none⟩
    ⟨.is, bookCreateText "reader" quotedBook 1⟩ (List.mem_append_right _
      (List.mem_append_right _ List.mem_cons_self))
  have name : escapedBytes quotedBook.name = 384 :=
    (escapedBytes_ofList _).trans (by decide +kernel)
  have author : escapedBytes quotedBook.author = 192 :=
    (escapedBytes_ofList _).trans (by decide +kernel)
  have label : escapedBytes quotedBook.label = 369 :=
    (escapedBytes_ofList _).trans (by decide +kernel)
  have long : 945 ≤ filledBytes "reader" quotedBook := by
    rw [filledBytes, name, author, label]
    omega
  rw [SqlFormat.Fits, strlen_bookCreateText_filled] at fits
  have room : 158 + filledBytes "reader" quotedBook + numeralBytes 1 < 1024 := fits
  omega

end Bookshelfdq
