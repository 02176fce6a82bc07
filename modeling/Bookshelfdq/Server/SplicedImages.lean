import Bookshelfdq.Client.SearchBytes
import Bookshelfdq.Server.RoundTrips
import Bookshelfdq.Server.SplicedEffects

/-! # Rows in bytes

What the rows and messages of the typed functions are in the tables and messages of the spliced
statements, and what a server has to make of the values for the two to agree. -/

namespace Bookshelfdq.Spliced

open Sql

/-! ## Texts -/

def bytes (text : String) : List UInt8 := utf8 text.toList

theorem bytes_injective : Function.Injective bytes :=
  fun _ _ same => String.toList_injective (utf8_injective same)

theorem cString_bytes {text : String} (solid : nulChar ∉ text.toList) :
    cString (bytes text) = bytes text := by
  rw [cString, Terminated.text, List.takeWhile_eq_self_iff]
  intro byte member
  apply decide_eq_true
  rintro rfl
  exact solid ((@mem_utf8_iff nulChar (by decide) _).mp member)

theorem plainText_bytes {text : String} (plain : text.toList.any breaksLiteral = false) :
    plainText (bytes text) = true := by
  rw [plainText, List.all_eq_true]
  intro byte member
  have plain := List.any_eq_false.mp plain
  rw [Bool.and_eq_true, bne_iff_ne, bne_iff_ne]
  constructor
  · rintro rfl
    exact plain _ ((@mem_utf8_iff (Char.ofNat 39) (by decide) _).mp member) rfl
  · rintro rfl
    exact plain _ ((@mem_utf8_iff (Char.ofNat 92) (by decide) _).mp member) rfl

/-- What `%c` writes. -/
def flagByte (flag : Char) : UInt8 := UInt8.ofNat flag.toNat

theorem byteValue_flagByte {flag : Char} (small : flag.toNat < 256) :
    byteValue (flagByte flag) =
      if unquoted flag then .means (.number ((flag.toNat : Int) - 48)) else .refused := by
  have value : (flagByte flag).toNat = flag.toNat := by
    rw [flagByte, UInt8.toNat_ofNat']
    exact Nat.mod_eq_of_lt small
  have digit : isDigit (flagByte flag) = unquoted flag := by
    rw [Bool.eq_iff_iff, unquoted, Char.isDigit_iff_toNat, isDigit, Bool.and_eq_true,
      decide_eq_true_iff, decide_eq_true_iff, UInt8.le_iff_toNat_le, UInt8.le_iff_toNat_le, value]
    rfl
  rw [byteValue, digit]
  split
  case isTrue isDigit =>
    have low : 48 ≤ flag.toNat := (Char.isDigit_iff_toNat.mp isDigit).1
    rw [readNumber, List.foldl_cons, List.foldl_nil, value]
    congr 2
    omega
  case isFalse => rfl

theorem utf8EncodeChar_ofNat {number : Nat} (ascii : number < 128) :
    String.utf8EncodeChar (Char.ofNat number) = [UInt8.ofNat number] := by
  have value : (Char.ofNat number).toNat = number := by
    have valid : number.isValidChar := .inl (by omega)
    rw [Char.ofNat, dif_pos valid]
    exact UInt32.toNat_ofNatLT
  rcases utf8EncodeChar_cases (Char.ofNat number) with ⟨_, encoded⟩ | ⟨wide, _⟩
  · rw [encoded, value]
  · omega

/-! ## Rows -/

def BookCleaned.number : BookCleaned → Int
  | .avl => avl
  | .del => del
  | .unsorted => unsorted

def ShelfCleaned.number : ShelfCleaned → Int
  | .avl => avl
  | .del => del

def bookRow (row : BookRow) : Row BookColumn where
  number := row.bookno
  cells
    | .shelfno => .number row.shelfno
    | .floorno => .number row.floorno
    | .name => .text (bytes row.name)
    | .author => .text (bytes row.author)
    | .label => .text (bytes row.label)
    | .borrowed => .number ((row.borrowed.toNat : Int) - 48)
    | .onReading => .number ((row.onReading.toNat : Int) - 48)
    | .cleaned => .number (BookCleaned.number row.cleaned)
    | .encodingTime => .text (bytes row.encodingTime.text)

def shelfRow (row : ShelfRow) : Row ShelfColumn where
  number := row.shelfno
  cells
    | .name => .text (bytes row.name)
    | .nfloors => .text (bytes row.nfloors)
    | .floorDepth => .text (bytes row.floorDepth)
    | .cleaned => .number (ShelfCleaned.number row.cleaned)
    | .buildingTime => .text (bytes row.buildingTime.text)

theorem PlainText.ext {left right : PlainText} (same : bytes left.text = bytes right.text) :
    left = right := by
  rcases left with ⟨text, _⟩
  rcases right with ⟨other, _⟩
  cases bytes_injective same
  rfl

theorem bookRow_injective : Function.Injective bookRow := by
  intro left right same
  have number := congrArg Row.number same
  have cell (column : BookColumn) := congrFun (congrArg Row.cells same) column
  have text {left right : String} (same : Value.text (bytes left) = .text (bytes right)) :
      left = right := bytes_injective (Value.text.inj same)
  have flag {left right : Char}
      (same : Value.number ((left.toNat : Int) - 48) = .number ((right.toNat : Int) - 48)) :
      left = right := by
    have equal := Value.number.inj same
    exact Char.toNat_inj.mp (by omega)
  have cleaned : left.cleaned = right.cleaned := by
    have equal : BookCleaned.number left.cleaned = BookCleaned.number right.cleaned :=
      Value.number.inj (cell .cleaned)
    revert equal
    cases left.cleaned <;> cases right.cleaned <;> decide
  have time : left.encodingTime = right.encodingTime :=
    PlainText.ext (Value.text.inj (cell .encodingTime))
  rcases left with ⟨shelfno, floorno, bookno, name, author, label, borrowed, onReading, _, _⟩
  rcases right with ⟨_, _, _, _, _, _, _, _, _, _⟩
  rw [BookRow.mk.injEq]
  exact ⟨Value.number.inj (cell .shelfno), Value.number.inj (cell .floorno), number,
    text (cell .name), text (cell .author), text (cell .label), flag (cell .borrowed),
    flag (cell .onReading), cleaned, time⟩

theorem shelfRow_injective : Function.Injective shelfRow := by
  intro left right same
  have number := congrArg Row.number same
  have cell (column : ShelfColumn) := congrFun (congrArg Row.cells same) column
  have text {left right : String} (same : Value.text (bytes left) = .text (bytes right)) :
      left = right := bytes_injective (Value.text.inj same)
  have cleaned : left.cleaned = right.cleaned := by
    have equal : ShelfCleaned.number left.cleaned = ShelfCleaned.number right.cleaned :=
      Value.number.inj (cell .cleaned)
    revert equal
    cases left.cleaned <;> cases right.cleaned <;> decide
  have time : left.buildingTime = right.buildingTime :=
    PlainText.ext (Value.text.inj (cell .buildingTime))
  rcases left with ⟨_, _, _, _, _, _⟩
  rcases right with ⟨_, _, _, _, _, _⟩
  rw [ShelfRow.mk.injEq]
  exact ⟨number, text (cell .name), text (cell .nfloors), text (cell .floorDepth), cleaned, time⟩

def archiveTables (archive : Archive) : Tables where
  shelves := archive.shelves.map shelfRow
  books := archive.books.map bookRow

/-! ## Columns

What MySQL makes of the values. A number written to a `CHAR` column is kept as its text, and a
comparison with a number reads it back. -/

def InInt (number : Int) : Prop := -2147483648 ≤ number ∧ number < 2147483648

/-- A `VARCHAR` column of the given width. -/
def storeText (mode : SqlMode) (width : Nat) (text : String) : Option Value :=
  (mode.store width text).map fun stored => .text (bytes stored)

structure Server.Columns (server : Server) (mode : SqlMode) : Prop where
  bookPlace : ∀ column, column = .shelfno ∨ column = .floorno → ∀ number, InInt number →
    server.bookStore column (.number number) = some (.number number)
  bookDigit : ∀ column, column = .borrowed ∨ column = .onReading ∨ column = .cleaned →
    ∀ digit, 0 ≤ digit → digit ≤ 9 →
      server.bookStore column (.number digit) = some (.number digit)
  bookName : ∀ text, server.bookStore .name (.text (bytes text)) = storeText mode 200 text
  bookAuthor : ∀ text, server.bookStore .author (.text (bytes text)) = storeText mode 70 text
  bookLabel : ∀ text, server.bookStore .label (.text (bytes text)) = storeText mode 200 text
  bookTime : ∀ text, server.bookStore .encodingTime (.text (bytes text)) = storeText mode 20 text
  shelfName : ∀ text, server.shelfStore .name (.text (bytes text)) = storeText mode 200 text
  shelfFloors : ∀ number : Nat,
    server.shelfStore .nfloors (.number number) = storeText mode 1 (toString number)
  shelfDepth : ∀ text,
    server.shelfStore .floorDepth (.text (bytes text)) = storeText mode 50 text
  shelfCleaned : ∀ digit, 0 ≤ digit → digit ≤ 9 →
    server.shelfStore .cleaned (.number digit) = some (.number digit)
  shelfTime : ∀ text,
    server.shelfStore .buildingTime (.text (bytes text)) = storeText mode 20 text

theorem Server.Columns.keeps {server : Server} {mode : SqlMode} (columns : server.Columns mode) :
    server.KeepsAvailable :=
  ⟨columns.bookDigit .cleaned (.inr (.inr rfl)) avl (by decide) (by decide),
    columns.shelfCleaned avl (by decide) (by decide)⟩

/-! ## Entries -/

/-- A text as a character array can hold it. -/
def Terminable (text : String) : Prop := nulChar ∉ text.toList

/-- A flag that is one byte and opens nothing. -/
def PlainFlag (flag : Char) : Prop := flag.toNat < 256 ∧ opens (flagByte flag) = false

/-- A time stamp that its array can hold. -/
def PlainTime (time : PlainText) : Prop := Terminable time.text ∧ time.text.length ≤ 20

structure WrittenBook (book : BookEntry) : Prop where
  shelfno : InInt book.shelfno
  floorno : InInt book.floorno
  name : Terminable book.name
  author : Terminable book.author
  label : Terminable book.label
  borrowed : PlainFlag book.borrowed
  onReading : PlainFlag book.onReading
  encodingTime : PlainTime book.encodingTime

/-- The depths are characters in front of the backslash, or behind it. -/
structure WrittenShelf (shelf : ShelfEntry) : Prop where
  name : Terminable shelf.name
  floors : 1 ≤ shelf.nfloors ∧ shelf.nfloors ≤ 15
  depths : ∀ depth ∈ shelf.ndepth, depth < 80 ∧ depth ≠ 44
  buildingTime : PlainTime shelf.buildingTime

def bookFields (book : BookEntry) : BookFields where
  shelfno := book.shelfno
  floorno := book.floorno
  bookno := book.bookno
  name := bytes book.name
  author := bytes book.author
  label := bytes book.label
  borrowed := flagByte book.borrowed
  onReading := flagByte book.onReading
  encodingTime := bytes book.encodingTime.text

def shelfFields (shelf : ShelfEntry) : ShelfFields where
  code := shelf.code
  name := bytes shelf.name
  nfloors := UInt8.ofNat shelf.nfloors
  ndepth := shelf.ndepth.map UInt8.ofNat
  buildingTime := bytes shelf.buildingTime.text

/-! ### Books -/

def bookValues (book : BookEntry) : BookColumn → Value
  | .shelfno => .number book.shelfno
  | .floorno => .number book.floorno
  | .name => .text (bytes book.name)
  | .author => .text (bytes book.author)
  | .label => .text (bytes book.label)
  | .borrowed => .number ((book.borrowed.toNat : Int) - 48)
  | .onReading => .number ((book.onReading.toNat : Int) - 48)
  | .cleaned => .number avl
  | .encodingTime => .text (bytes book.encodingTime.text)

theorem WrittenBook.plain {book : BookEntry} (written : WrittenBook book) :
    (bookFields book).Plain := by
  refine ⟨written.borrowed.2, written.onReading.2, ?_⟩
  show plainText (cString (bytes book.encodingTime.text)) = true
  rw [cString_bytes written.encodingTime.1]
  exact plainText_bytes book.encodingTime.plain

theorem flag_digit {flag : Char} (digit : unquoted flag = true) :
    0 ≤ (flag.toNat : Int) - 48 ∧ (flag.toNat : Int) - 48 ≤ 9 := by
  rcases Char.isDigit_iff_toNat.mp digit with ⟨low, high⟩
  have low : 48 ≤ flag.toNat := low
  have high : flag.toNat ≤ 57 := high
  omega

/-- Both make the same row of a book, or none. -/
theorem assign_book {server : Server} {mode : SqlMode} (columns : server.Columns mode)
    {book : BookEntry} (written : WrittenBook book) (formed : book.wellFormed = true)
    {listed : List BookColumn} (all : ∀ column, column ∈ listed) (row : Row BookColumn) :
    server.books.assign (listed.map fun column => (column, bookValues book column)) row =
      (book.row mode row.number).map bookRow := by
  rw [BookEntry.wellFormed, Bool.and_eq_true] at formed
  have borrowed := flag_digit formed.1
  have onReading := flag_digit formed.2
  rw [BookEntry.row]
  cases name : mode.store 200 book.name with
  | none =>
      refine Schema.assign_values_refused (all .name) ?_ row
      exact (columns.bookName book.name).trans (congrArg _ name)
  | some storedName =>
      cases author : mode.store 70 book.author with
      | none =>
          refine Schema.assign_values_refused (all .author) ?_ row
          exact (columns.bookAuthor book.author).trans (congrArg _ author)
      | some storedAuthor =>
          cases label : mode.store 200 book.label with
          | none =>
              refine Schema.assign_values_refused (all .label) ?_ row
              exact (columns.bookLabel book.label).trans (congrArg _ label)
          | some storedLabel =>
              refine Schema.assign_values all row fun column => ?_
              cases column with
              | shelfno => exact columns.bookPlace _ (.inl rfl) _ written.shelfno
              | floorno => exact columns.bookPlace _ (.inr rfl) _ written.floorno
              | name => exact (columns.bookName book.name).trans (congrArg _ name)
              | author => exact (columns.bookAuthor book.author).trans (congrArg _ author)
              | label => exact (columns.bookLabel book.label).trans (congrArg _ label)
              | borrowed => exact columns.bookDigit _ (.inl rfl) _ borrowed.1 borrowed.2
              | onReading =>
                  exact columns.bookDigit _ (.inr (.inl rfl)) _ onReading.1 onReading.2
              | cleaned => exact columns.keeps.book
              | encodingTime =>
                  have fits := @SqlMode.store_of_fits mode _ _ written.encodingTime.2
                  exact (columns.bookTime book.encodingTime.text).trans (congrArg _ fits)

/-! ### Shelves -/

def shelfValues (shelf : ShelfEntry) : ShelfColumn → Value
  | .name => .text (bytes shelf.name)
  | .nfloors => .number shelf.nfloors
  | .floorDepth => .text (bytes (floorDepthText (shelf.ndepth.take shelf.nfloors)))
  | .cleaned => .number avl
  | .buildingTime => .text (bytes shelf.buildingTime.text)

theorem assign_shelf {server : Server} {mode : SqlMode} (columns : server.Columns mode)
    {shelf : ShelfEntry} (written : WrittenShelf shelf) {listed : List ShelfColumn}
    (all : ∀ column, column ∈ listed) (row : Row ShelfColumn) :
    server.shelves.assign (listed.map fun column => (column, shelfValues shelf column)) row =
      (shelf.row mode row.number).map shelfRow := by
  rw [ShelfEntry.row]
  cases name : mode.store 200 shelf.name with
  | none =>
      refine Schema.assign_values_refused (all .name) ?_ row
      exact (columns.shelfName shelf.name).trans (congrArg _ name)
  | some storedName =>
      cases floors : mode.store 1 (toString shelf.nfloors) with
      | none =>
          refine Schema.assign_values_refused (all .nfloors) ?_ row
          exact (columns.shelfFloors shelf.nfloors).trans (congrArg _ floors)
      | some storedFloors =>
          cases depth : mode.store 50 (floorDepthText (shelf.ndepth.take shelf.nfloors)) with
          | none =>
              refine Schema.assign_values_refused (all .floorDepth) ?_ row
              exact (columns.shelfDepth _).trans (congrArg _ depth)
          | some storedDepth =>
              refine Schema.assign_values all row fun column => ?_
              cases column with
              | name => exact (columns.shelfName shelf.name).trans (congrArg _ name)
              | nfloors => exact (columns.shelfFloors shelf.nfloors).trans (congrArg _ floors)
              | floorDepth => exact (columns.shelfDepth _).trans (congrArg _ depth)
              | cleaned => exact columns.keeps.shelf
              | buildingTime =>
                  have fits := @SqlMode.store_of_fits mode _ _ written.buildingTime.2
                  exact (columns.shelfTime shelf.buildingTime.text).trans (congrArg _ fits)

/-- A depth is one byte in the text. -/
theorem utf8_depths {depths : List Nat} (small : ∀ depth ∈ depths, depth < 80) :
    utf8 (List.intersperse ',' (depths.map fun depth => Char.ofNat ((depth + 48) % 256))) =
      ((depths.map UInt8.ofNat).map (· + 48)).intersperse 44 := by
  induction depths with
  | nil => rfl
  | cons depth rest induction =>
      have low := small depth List.mem_cons_self
      have encoded : String.utf8EncodeChar (Char.ofNat ((depth + 48) % 256)) =
          [UInt8.ofNat depth + 48] := by
        rw [Nat.mod_eq_of_lt (by omega), utf8EncodeChar_ofNat (by omega), UInt8.ofNat_add]
        rfl
      cases rest with
      | nil =>
          show String.utf8EncodeChar _ ++ [] = _
          rw [encoded]
          rfl
      | cons next rest =>
          have later := induction fun depth member => small depth (List.mem_cons_of_mem _ member)
          rw [List.map_cons] at later
          rw [List.map_cons, List.map_cons, List.intersperse_cons_cons, utf8_cons, utf8_cons, later,
            encoded]
          rfl

section Depths

variable {shelf : ShelfEntry} (written : WrittenShelf shelf)
include written

/-- The characters of the depths that are written. -/
theorem WrittenShelf.depth_char {character : Char}
    (member : character ∈ (shelf.ndepth.take shelf.nfloors).map fun depth =>
      Char.ofNat ((depth + 48) % 256)) :
    breaksLiteral character = false ∧ (character != nulChar) = true := by
  rcases List.mem_map.mp member with ⟨depth, depthMem, rfl⟩
  rcases written.depths depth (List.mem_of_mem_take depthMem) with ⟨small, solid⟩
  have all : ∀ depth < 80, depth ≠ 44 →
      breaksLiteral (Char.ofNat ((depth + 48) % 256)) = false ∧
        (Char.ofNat ((depth + 48) % 256) != nulChar) = true := by decide
  exact all depth small solid

/-- With the commas between them. -/
theorem WrittenShelf.mem_depths {character : Char}
    (member : character ∈ List.intersperse ',' ((shelf.ndepth.take shelf.nfloors).map fun depth =>
      Char.ofNat ((depth + 48) % 256))) :
    breaksLiteral character = false ∧ (character != nulChar) = true := by
  have broken := @any_intersperse _ (fun character => breaksLiteral character) ',' (by decide) _
    fun character member => (written.depth_char member).1
  have zero := @any_intersperse _ (fun character => !(character != nulChar)) ',' (by decide) _
    fun character member => congrArg not (written.depth_char member).2
  have solid := List.any_eq_false.mp zero character member
  exact ⟨Bool.eq_false_iff.mpr (List.any_eq_false.mp broken character member), by simpa using solid⟩

theorem WrittenShelf.floorDepthText_toList :
    (floorDepthText (shelf.ndepth.take shelf.nfloors)).toList =
      List.intersperse ',' ((shelf.ndepth.take shelf.nfloors).map fun depth =>
        Char.ofNat ((depth + 48) % 256)) := by
  rw [floorDepthText, String.toList_ofList, List.takeWhile_eq_self_iff]
  exact fun character member => (written.mem_depths member).2

theorem WrittenShelf.wellFormed : shelf.wellFormed = true := by
  rw [ShelfEntry.wellFormed, written.floorDepthText_toList, Bool.not_eq_true', List.any_eq_false]
  exact fun character member => Bool.eq_false_iff.mp (written.mem_depths member).1

theorem WrittenShelf.floorDepthText_terminable :
    Terminable (floorDepthText (shelf.ndepth.take shelf.nfloors)) := by
  rw [Terminable, written.floorDepthText_toList]
  exact fun member => absurd (written.mem_depths member).2 (by decide)

theorem WrittenShelf.nfloors_toNat : (shelfFields shelf).nfloors.toNat = shelf.nfloors := by
  have most := written.floors.2
  show (UInt8.ofNat shelf.nfloors).toNat = shelf.nfloors
  rw [UInt8.toNat_ofNat']
  exact Nat.mod_eq_of_lt (by omega)

theorem WrittenShelf.floorDepthStr (stack : List UInt8) :
    Spliced.floorDepthStr stack (shelfFields shelf) =
      bytes (floorDepthText (shelf.ndepth.take shelf.nfloors)) := by
  have some : ¬((shelfFields shelf).nfloors = 0 ∨ 15 < (shelfFields shelf).nfloors) := by
    have floors := written.floors
    rw [← UInt8.toNat_inj, UInt8.lt_iff_toNat_lt, written.nfloors_toNat]
    show ¬(shelf.nfloors = 0 ∨ 15 < shelf.nfloors)
    omega
  rw [Spliced.floorDepthStr, if_neg some, written.nfloors_toNat, bytes,
    written.floorDepthText_toList,
    utf8_depths fun depth member => (written.depths depth (List.mem_of_mem_take member)).1]
  exact congrArg (fun depths : List UInt8 => (depths.map (· + 48)).intersperse 44)
    List.map_take.symm

theorem WrittenShelf.plain : (shelfFields shelf).Plain := by
  refine ⟨?_, ?_, ?_⟩
  · have floors := written.floors
    have value := written.nfloors_toNat
    constructor
    · intro none
      rw [none] at value
      exact absurd floors.1 (by rw [← value]; decide)
    · rw [UInt8.le_iff_toNat_le, value]
      exact floors.2
  · have formed := written.wellFormed
    rw [ShelfEntry.wellFormed, Bool.not_eq_true'] at formed
    rw [written.floorDepthStr, cString_bytes written.floorDepthText_terminable]
    exact plainText_bytes formed
  · show plainText (cString (bytes shelf.buildingTime.text)) = true
    rw [cString_bytes written.buildingTime.1]
    exact plainText_bytes shelf.buildingTime.plain

end Depths

end Bookshelfdq.Spliced
