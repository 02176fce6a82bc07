import Mathlib.Algebra.GroupWithZero.Nat
import Mathlib.Data.List.Basic

/-! # The messages shared by client and server

Constants and records of `clisrv.h`. A C string is the text before its
terminator. The three entries of a book's `code` array are named after what the
server reads from them. -/

namespace Bookshelfdq

/-! ## Limits and special values

The macros of the header under their own names. `nonSenseInt` stands for an
absent shelf or book number and `breakLimitInt`, a number no book can have, asks
for a count; `nulChar` is the byte that `memset` leaves in a flag. -/

@[reducible] def maxBookNum : Nat := 10000

@[reducible] def maxShelfNum : Nat := 15

@[reducible] def maxUserNum : Nat := 16

@[reducible] def bookNameLen : Nat := 64 * 3

@[reducible] def authorNameLen : Nat := 32 * 3

@[reducible] def maxLabelNum : Nat := 10

@[reducible] def labelNameLen : Nat := 6 * 3

@[reducible] def shelfNameLen : Nat := 64 * 3

@[reducible] def maxFloors : Nat := 15

@[reducible] def maxDepth : Nat := 5

@[reducible] def defaultFinds : Nat := 30

@[reducible] def nonSenseInt : Int := 0

@[reducible] def breakLimitInt : Int := maxBookNum + 1

@[reducible] def extraInfoSize : Nat := 7

@[reducible] def flagBorrowed : Char := '1'

@[reducible] def flagOnReading : Char := '1'

@[reducible] def flagFindUnsorted : Char := '2'

@[reducible] def nulChar : Char := Char.ofNat 0

/-! ## Texts -/

/-- The bytes of a text, which is UTF-8 everywhere. -/
def strlen (text : String) : Nat := (text.toList.map Char.utf8Size).sum

theorem length_le_strlen (text : String) : text.length ≤ strlen text := by
  have each : ∀ characters : List Char,
      characters.length ≤ (characters.map Char.utf8Size).sum := by
    intro characters
    induction characters with
    | nil => exact Nat.le_refl 0
    | cons character characters induction =>
        have positive := character.utf8Size_pos
        rw [List.map_cons, List.sum_cons, List.length_cons]
        omega
  rw [← String.length_toList]
  exact each text.toList

/-! ## Entries -/

def breaksLiteral (character : Char) : Bool :=
  character == Char.ofNat 39 || character == Char.ofNat 92

/-- Text that may stand between the quotes of an SQL literal as it is. The
server splices the two time stamps into its statements unescaped; the client
writes them with `sprintf("%02d-%02d-%02d %02dh")`. -/
structure PlainText where
  text : String
  plain : text.toList.any breaksLiteral = false
deriving DecidableEq

/-- `book_entry_t`, with `code[0]`, `code[1]` and `code[2]` in this order. The
floor number keeps the floor in its high nibble and the row in its low one. -/
structure BookEntry where
  shelfno : Int
  floorno : Int
  bookno : Int
  name : String
  author : String
  label : String
  borrowed : Char
  onReading : Char
  encodingTime : PlainText
deriving DecidableEq

structure BookCount where
  booksAll : Int
  booksOnReading : Int
  booksBorrowed : Int
  booksUnsorted : Int
deriving DecidableEq

/-- `shelf_entry_t`. Of the array `ndepth` only the first `nfloors` bytes are
ever read; they are the list here. -/
structure ShelfEntry where
  code : Int
  name : String
  nfloors : Nat
  ndepth : List Nat
  buildingTime : PlainText
deriving DecidableEq

inductive AccountType
  | admin
  | user
deriving DecidableEq

structure AccountEntry where
  type : AccountType
  name : String
  password : String
deriving DecidableEq

/-! ## Messages -/

inductive ClientRequest
  | insertBook
  | deleteBook
  | updateBook
  | findBook
  | countBook
  | buildShelf
  | removeShelf
  | findShelf
  | countShelf
  | verifyAccount
  | registerAccount
  | heartbeat
deriving DecidableEq

inductive ServerResponse
  | success
  | failed
  | findEndMore
  | findEnd
deriving DecidableEq

/-- `trans_stuff_un`. Every function reads only the member its request kind
names, so the members of the union are kept side by side. -/
structure TransStuff where
  shelf : ShelfEntry
  book : BookEntry
  account : AccountEntry
deriving DecidableEq

structure MessageCs where
  user : String
  request : ClientRequest
  stuff : TransStuff
  response : ServerResponse
  errorText : String
  extraInfo : List Int
deriving DecidableEq

/-! ## Zeroed storage -/

def PlainText.empty : PlainText := ⟨"", by decide⟩

def BookEntry.zeroed : BookEntry where
  shelfno := 0
  floorno := 0
  bookno := 0
  name := ""
  author := ""
  label := ""
  borrowed := nulChar
  onReading := nulChar
  encodingTime := .empty

def ShelfEntry.zeroed : ShelfEntry where
  code := 0
  name := ""
  nfloors := 0
  ndepth := []
  buildingTime := .empty

def AccountEntry.zeroed : AccountEntry where
  type := .admin
  name := ""
  password := ""

/-- A message after `memset(&msg, '\0', sizeof(message_cs_t))`. -/
def MessageCs.zeroed : MessageCs where
  user := ""
  request := .insertBook
  stuff := ⟨.zeroed, .zeroed, .zeroed⟩
  response := .success
  errorText := ""
  extraInfo := List.replicate extraInfoSize 0

namespace MessageCs

/-! ## Single fields

`setBookno` and `setShelfno` write `code[2]` and `code`, `setExtra` writes
`extra_info[0]`; a book count is overlaid on the first four extra integers. -/

def setBook (msg : MessageCs) (book : BookEntry) : MessageCs :=
  { msg with stuff := { msg.stuff with book := book } }

def setShelf (msg : MessageCs) (shelf : ShelfEntry) : MessageCs :=
  { msg with stuff := { msg.stuff with shelf := shelf } }

def setBookno (number : Int) (msg : MessageCs) : MessageCs :=
  msg.setBook { msg.stuff.book with bookno := number }

def setShelfno (number : Int) (msg : MessageCs) : MessageCs :=
  msg.setShelf { msg.stuff.shelf with code := number }

def setExtra (msg : MessageCs) (value : Int) : MessageCs :=
  { msg with extraInfo := msg.extraInfo.set 0 value }

def setBookCount (msg : MessageCs) (count : BookCount) : MessageCs :=
  { msg with extraInfo := [count.booksAll, count.booksOnReading, count.booksBorrowed,
      count.booksUnsorted] ++ msg.extraInfo.drop 4 }

def respond (response : ServerResponse) (msg : MessageCs) : MessageCs :=
  { msg with response := response }

def bookCount (msg : MessageCs) : BookCount where
  booksAll := msg.extraInfo.getD 0 0
  booksOnReading := msg.extraInfo.getD 1 0
  booksBorrowed := msg.extraInfo.getD 2 0
  booksUnsorted := msg.extraInfo.getD 3 0

@[simp] theorem setBook_request (msg : MessageCs) (book : BookEntry) :
    (msg.setBook book).request = msg.request := rfl

@[simp] theorem setBook_book (msg : MessageCs) (book : BookEntry) :
    (msg.setBook book).stuff.book = book := rfl

@[simp] theorem respond_response (response : ServerResponse) (msg : MessageCs) :
    (msg.respond response).response = response := rfl

@[simp] theorem respond_request (response : ServerResponse) (msg : MessageCs) :
    (msg.respond response).request = msg.request := rfl

@[simp] theorem respond_stuff (response : ServerResponse) (msg : MessageCs) :
    (msg.respond response).stuff = msg.stuff := rfl

@[simp] theorem respond_extraInfo (response : ServerResponse) (msg : MessageCs) :
    (msg.respond response).extraInfo = msg.extraInfo := rfl

end MessageCs

end Bookshelfdq
