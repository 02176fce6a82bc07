import Bookshelfdq.Server.SplicedStatements

/-! # What the statements mean

Where nothing that is spliced in opens or ends a literal, each text means the statement that its
function is about, or it is refused for a flag that is no value. -/

namespace Bookshelfdq.Spliced

open Sql

/-! ## Plain messages -/

/-- A name for which the server keeps tables: letters, digits, `_` and `$`, and not the beginning of
a number with an exponent. -/
structure IsName (user : List UInt8) : Prop where
  letters : user.all (fun byte => isWordByte byte && byte < 128) = true
  books : isSpecialNumber (booksName user) = false
  shelves : isSpecialNumber (shelvesName user) = false

/-- The columns of the two `INSERT`s. -/
def bookNames : List Name :=
  [ascii "shelfno", ascii "floorno", ascii "bookno", ascii "name", ascii "author", ascii "label",
    ascii "borrowed", ascii "on_reading", ascii "cleaned", ascii "encoding_time"]

def shelfNames : List Name :=
  [ascii "shelfno", ascii "name", ascii "nfloors", ascii "floor_depth", ascii "cleaned",
    ascii "building_time"]

/-- What is spliced in for a book neither opens nor ends a literal. -/
structure BookFields.Plain (book : BookFields) : Prop where
  borrowed : opens book.borrowed = false
  onReading : opens book.onReading = false
  encodingTime : plainText (cString book.encodingTime) = true

/-- The same for a shelf that has floors, and no more than there are depths. -/
structure ShelfFields.Plain (shelf : ShelfFields) : Prop where
  floors : shelf.nfloors ≠ 0 ∧ shelf.nfloors ≤ 15
  depths : plainText (cString (floorDepthStr [] shelf)) = true
  buildingTime : plainText (cString shelf.buildingTime) = true

/-! ## Words -/

theorem lexes_spliced {array : List UInt8} (plain : plainText (cString array) = true) :
    Lexes (spliced array) [.literal (cString array)] :=
  lexes_plainText (Terminated.not_mem_text array) plain

theorem lexes_escapedArray (array : List UInt8) :
    Lexes (escaped array) [.literal (cString array)] :=
  lexes_escaped (cString array)

theorem lexes_name {user suffix : List UInt8}
    (letters : user.all (fun byte => isWordByte byte && byte < 128) = true)
    (some : suffix ≠ []) (words : suffix.all isWordByte = true)
    (name : isSpecialNumber (user ++ suffix) = false) :
    Lexes (user ++ suffix) [.word (user ++ suffix)] := by
  apply lexes_word _ _ name
  · exact fun none => some (List.append_eq_nil_iff.mp none).2
  · rw [List.all_append, words, Bool.and_true, List.all_eq_true]
    intro byte member
    exact (Bool.and_eq_true_iff.mp (List.all_eq_true.mp letters byte member)).1

theorem IsName.lexes_books {user : List UInt8} (named : IsName user) :
    Lexes (booksName user) [.word (booksName user)] :=
  lexes_name named.letters (by decide) (by decide) named.books

theorem IsName.lexes_shelves {user : List UInt8} (named : IsName user) :
    Lexes (shelvesName user) [.word (shelvesName user)] :=
  lexes_name named.letters (by decide) (by decide) named.shelves

theorem lexes_column {column : String} (some : ascii column ≠ [])
    (words : (ascii column).all isWordByte = true)
    (name : isSpecialNumber (ascii column) = false) :
    Lexes (ascii column) [.word (ascii column)] :=
  lexes_word some words name

/-! ## The meaning of a text -/

def meaning (chunks : Chunks) : Meaning Statement :=
  (tokens chunks.text).elim .unknown readStatement

theorem meaning_of_spells {chunks : Chunks} {pieces : List (List Token)}
    (spells : Spells chunks pieces) : meaning chunks = readStatement pieces.flatten := by
  rw [Spells] at spells
  rw [meaning, Chunks.text, cString, tokens_text, spells]
  rfl

section Mark

variable {table column : Name} (tabled : Lexes table [.word table])
  (columned : Lexes column [.word column])
include tabled columned

theorem markText_spells (cleaned number : Int) :
    Spells (markText table cleaned column number)
      [[.word (ascii "UPDATE")], [.word table],
        [.word (ascii "SET"), .word (ascii "cleaned"), .symbol 61], numberTokens cleaned,
        [.word wordWhere], [.word column], [.symbol 61], numberTokens number] := by
  apply Spells.fixed (by rfl)
  apply Spells.item tabled (by rfl)
  apply Spells.fixed (by rfl)
  apply Spells.item (lexes_formatInt _) (by rfl)
  apply Spells.fixed (by rfl)
  apply Spells.item columned (by rfl)
  apply Spells.fixed (by rfl)
  exact spells_last (lexes_formatInt _)

theorem markText_meaning (cleaned number : Int) :
    meaning (markText table cleaned column number) =
      .means (.update table [(ascii "cleaned", .number cleaned)]
        (some (column, .number number))) := by
  rw [meaning_of_spells (markText_spells tabled columned cleaned number)]
  simp only [List.flatten_cons, List.flatten_nil, readStatement_update, readPairs_number,
    readPairs_where_word, readPairs_end]
  rfl

theorem minText_spells :
    Spells (minText table column)
      [[.word (ascii "SELECT"), .word (ascii "MIN"), .symbol 40], [.word column],
        [.symbol 41, .word (ascii "FROM")], [.word table], whereColumn (ascii "cleaned"),
        numberTokens del] := by
  apply Spells.fixed (by rfl)
  apply Spells.item columned (by rfl)
  apply Spells.fixed (by rfl)
  apply Spells.item tabled (by rfl)
  apply Spells.fixed (by rfl)
  exact spells_last (lexes_formatInt _)

theorem minText_meaning :
    meaning (minText table column) =
      .means (.smallest table column (ascii "cleaned", .number del)) := by
  rw [meaning_of_spells (minText_spells tabled columned)]
  simp only [List.flatten_cons, List.flatten_nil, readStatement_min, readPairs_number,
    readPairs_end]
  rfl

theorem maxText_spells :
    Spells (maxText table column)
      [[.word (ascii "SELECT"), .word (ascii "MAX"), .symbol 40], [.word column],
        [.symbol 41, .word (ascii "FROM")], [.word table]] := by
  apply Spells.fixed (by rfl)
  apply Spells.item columned (by rfl)
  apply Spells.fixed (by rfl)
  exact spells_last tabled

theorem maxText_meaning : meaning (maxText table column) = .means (.largest table column) := by
  rw [meaning_of_spells (maxText_spells tabled columned)]
  simp only [List.flatten_cons, List.flatten_nil, readStatement_max]

end Mark

section Books

variable {user : List UInt8} (named : IsName user) {book : BookFields} (plain : book.Plain)
include named plain

theorem bookRenewText_spells (number : Int) :
    Spells (bookRenewText user book number)
      ([.word (ascii "UPDATE")] :: [.word (booksName user)] ::
        [.word (ascii "SET"), .word (ascii "cleaned"), .symbol 61] :: numberTokens avl ::
        nextColumn (ascii "shelfno") :: numberTokens book.shelfno ::
        nextColumn (ascii "floorno") :: numberTokens book.floorno ::
        nextColumn (ascii "name") :: [.literal (cString book.name)] ::
        nextColumn (ascii "author") :: [.literal (cString book.author)] ::
        nextColumn (ascii "label") :: [.literal (cString book.label)] ::
        nextColumn (ascii "borrowed") :: bytePieces book.borrowed
          (nextColumn (ascii "on_reading") :: bytePieces book.onReading
            (nextColumn (ascii "encoding_time") :: [.literal (cString book.encodingTime)] ::
              whereColumn (ascii "bookno") :: [numberTokens number]))) := by
  apply Spells.fixed (by rfl)
  apply Spells.item named.lexes_books (by rfl)
  apply Spells.fixed (by rfl)
  apply Spells.item (lexes_formatInt _) (by rfl)
  apply Spells.fixed (by rfl)
  apply Spells.item (lexes_formatInt _) (by rfl)
  apply Spells.fixed (by rfl)
  apply Spells.item (lexes_formatInt _) (by rfl)
  apply Spells.fixed (by rfl)
  apply Spells.item (lexes_escapedArray _) (by rfl)
  apply Spells.fixed (by rfl)
  apply Spells.item (lexes_escapedArray _) (by rfl)
  apply Spells.fixed (by rfl)
  apply Spells.item (lexes_escapedArray _) (by rfl)
  apply Spells.fixed (by rfl)
  apply Spells.byte plain.borrowed (by rfl)
  apply Spells.fixed (by rfl)
  apply Spells.byte plain.onReading (by rfl)
  apply Spells.fixed (by rfl)
  apply Spells.item (lexes_spliced plain.encodingTime) (by rfl)
  apply Spells.fixed (by rfl)
  exact spells_last (lexes_formatInt _)

theorem bookRenewText_meaning (number : Int) :
    meaning (bookRenewText user book number) =
      (byteValue book.borrowed).bind fun borrowed =>
        (byteValue book.onReading).bind fun onReading =>
          .means (.update (booksName user)
            [(ascii "cleaned", .number avl), (ascii "shelfno", .number book.shelfno),
              (ascii "floorno", .number book.floorno), (ascii "name", .text (cString book.name)),
              (ascii "author", .text (cString book.author)),
              (ascii "label", .text (cString book.label)), (ascii "borrowed", borrowed),
              (ascii "on_reading", onReading),
              (ascii "encoding_time", .text (cString book.encodingTime))]
            (some (ascii "bookno", .number number))) := by
  rw [meaning_of_spells (bookRenewText_spells named plain number)]
  simp only [List.flatten_cons, List.flatten_nil, readStatement_update, readPairs_number,
    readPairs_next, readPairs_literal, readPairs_byte, readPairs_where, readPairs_end]
  cases byteValue book.borrowed with
  | refused => rfl
  | unknown => rfl
  | means borrowed => cases byteValue book.onReading <;> rfl

theorem bookUpdateText_spells (single : book.namesShelf = false) :
    Spells (bookUpdateText user book)
      ([.word (ascii "UPDATE")] :: [.word (booksName user)] ::
        [.word (ascii "SET"), .word (ascii "shelfno"), .symbol 61] :: numberTokens book.shelfno ::
        nextColumn (ascii "floorno") :: numberTokens book.floorno ::
        nextColumn (ascii "name") :: [.literal (cString book.name)] ::
        nextColumn (ascii "author") :: [.literal (cString book.author)] ::
        nextColumn (ascii "label") :: [.literal (cString book.label)] ::
        nextColumn (ascii "borrowed") :: bytePieces book.borrowed
          (nextColumn (ascii "on_reading") :: bytePieces book.onReading
            (nextColumn (ascii "cleaned") :: numberTokens avl ::
              nextColumn (ascii "encoding_time") :: [.literal (cString book.encodingTime)] ::
              whereColumn (ascii "bookno") :: [numberTokens book.bookno]))) := by
  rw [bookUpdateText, single, if_neg Bool.false_ne_true]
  apply Spells.fixed (by rfl)
  apply Spells.item named.lexes_books (by rfl)
  apply Spells.fixed (by rfl)
  apply Spells.item (lexes_formatInt _) (by rfl)
  apply Spells.fixed (by rfl)
  apply Spells.item (lexes_formatInt _) (by rfl)
  apply Spells.fixed (by rfl)
  apply Spells.item (lexes_escapedArray _) (by rfl)
  apply Spells.fixed (by rfl)
  apply Spells.item (lexes_escapedArray _) (by rfl)
  apply Spells.fixed (by rfl)
  apply Spells.item (lexes_escapedArray _) (by rfl)
  apply Spells.fixed (by rfl)
  apply Spells.byte plain.borrowed (by rfl)
  apply Spells.fixed (by rfl)
  apply Spells.byte plain.onReading (by rfl)
  apply Spells.fixed (by rfl)
  apply Spells.item (lexes_formatInt _) (by rfl)
  apply Spells.fixed (by rfl)
  apply Spells.item (lexes_spliced plain.encodingTime) (by rfl)
  apply Spells.fixed (by rfl)
  exact spells_last (lexes_formatInt _)

theorem bookUpdateText_meaning (single : book.namesShelf = false) :
    meaning (bookUpdateText user book) =
      (byteValue book.borrowed).bind fun borrowed =>
        (byteValue book.onReading).bind fun onReading =>
          .means (.update (booksName user)
            [(ascii "shelfno", .number book.shelfno), (ascii "floorno", .number book.floorno),
              (ascii "name", .text (cString book.name)),
              (ascii "author", .text (cString book.author)),
              (ascii "label", .text (cString book.label)), (ascii "borrowed", borrowed),
              (ascii "on_reading", onReading), (ascii "cleaned", .number avl),
              (ascii "encoding_time", .text (cString book.encodingTime))]
            (some (ascii "bookno", .number book.bookno))) := by
  rw [meaning_of_spells (bookUpdateText_spells named plain single)]
  simp only [List.flatten_cons, List.flatten_nil, readStatement_update, readPairs_number,
    readPairs_next, readPairs_literal, readPairs_byte, readPairs_where, readPairs_end]
  cases byteValue book.borrowed with
  | refused => rfl
  | unknown => rfl
  | means borrowed => cases byteValue book.onReading <;> rfl

theorem bookCreateText_spells (number : Int) :
    Spells (bookCreateText user book number)
      ([.word (ascii "INSERT"), .word (ascii "INTO")] :: [.word (booksName user)] ::
        (.symbol 40 :: listed [ascii "shelfno", ascii "floorno", ascii "bookno", ascii "name",
          ascii "author"]) ::
        listed [ascii "label", ascii "borrowed", ascii "on_reading", ascii "cleaned"] ::
        [.word (ascii "encoding_time"), .symbol 41] :: [.word (ascii "VALUES"), .symbol 40] ::
        numberTokens book.shelfno :: [.symbol 44] :: numberTokens book.floorno :: [.symbol 44] ::
        numberTokens number :: [.symbol 44] :: [.literal (cString book.name)] :: [.symbol 44] ::
        [.literal (cString book.author)] :: [.symbol 44] :: [.literal (cString book.label)] ::
        [.symbol 44] :: bytePieces book.borrowed ([.symbol 44] :: bytePieces book.onReading
          ([.symbol 44] :: numberTokens avl :: [.symbol 44] ::
            [.literal (cString book.encodingTime)] :: [[.symbol 41]]))) := by
  apply Spells.fixed (by rfl)
  apply Spells.item named.lexes_books (by rfl)
  apply Spells.fixed (by rfl)
  apply Spells.fixed (by rfl)
  apply Spells.fixed (by rfl)
  apply Spells.fixed (by rfl)
  apply Spells.item (lexes_formatInt _) (by rfl)
  apply Spells.fixed (by rfl)
  apply Spells.item (lexes_formatInt _) (by rfl)
  apply Spells.fixed (by rfl)
  apply Spells.item (lexes_formatInt _) (by rfl)
  apply Spells.fixed (by rfl)
  apply Spells.item (lexes_escapedArray _) (by rfl)
  apply Spells.fixed (by rfl)
  apply Spells.item (lexes_escapedArray _) (by rfl)
  apply Spells.fixed (by rfl)
  apply Spells.item (lexes_escapedArray _) (by rfl)
  apply Spells.fixed (by rfl)
  apply Spells.byte plain.borrowed (by rfl)
  apply Spells.fixed (by rfl)
  apply Spells.byte plain.onReading (by rfl)
  apply Spells.fixed (by rfl)
  apply Spells.item (lexes_formatInt _) (by rfl)
  apply Spells.fixed (by rfl)
  apply Spells.item (lexes_spliced plain.encodingTime) (by rfl)
  apply Spells.fixed (by rfl)
  exact spells_nil

theorem bookCreateText_meaning (number : Int) :
    meaning (bookCreateText user book number) =
      (byteValue book.borrowed).bind fun borrowed =>
        (byteValue book.onReading).bind fun onReading =>
          .means (.insert (booksName user) bookNames
            [.number book.shelfno, .number book.floorno, .number number,
              .text (cString book.name), .text (cString book.author), .text (cString book.label),
              borrowed, onReading, .number avl, .text (cString book.encodingTime)]) := by
  have read : ∀ rest, readStatement ([.word (ascii "INSERT"), .word (ascii "INTO")] ++
      ([.word (booksName user)] ++ ((.symbol 40 :: listed [ascii "shelfno", ascii "floorno",
        ascii "bookno", ascii "name", ascii "author"]) ++ (listed [ascii "label",
          ascii "borrowed", ascii "on_reading", ascii "cleaned"] ++
            ([.word (ascii "encoding_time"), .symbol 41] ++
              ([.word (ascii "VALUES"), .symbol 40] ++ rest)))))) =
      (readValues [] .value rest).bind fun values =>
        .means (.insert (booksName user) bookNames values) := fun _ => rfl
  rw [meaning_of_spells (bookCreateText_spells named plain number)]
  simp only [List.flatten_cons, List.flatten_nil, read, readValues_number, readValues_next,
    readValues_literal, readValues_byte, readValues_end]
  cases byteValue book.borrowed with
  | refused => rfl
  | unknown => rfl
  | means borrowed => cases byteValue book.onReading <;> rfl

end Books

section Shelves

variable {user : List UInt8} (named : IsName user) {stack : List UInt8} {shelf : ShelfFields}
  (plain : shelf.Plain)
include plain

theorem ShelfFields.Plain.floorDepthStr_eq :
    floorDepthStr stack shelf = floorDepthStr [] shelf := by
  have floors : ¬(shelf.nfloors = 0 ∨ 15 < shelf.nfloors) := by
    rintro (none | many)
    · exact plain.floors.1 none
    · exact absurd many (UInt8.not_lt.mpr plain.floors.2)
  rw [floorDepthStr, if_neg floors, floorDepthStr, if_neg floors]

include named

theorem shelfRenewText_spells (number : Int) :
    Spells (shelfRenewText user stack shelf number)
      [[.word (ascii "UPDATE")], [.word (shelvesName user)],
        [.word (ascii "SET"), .word (ascii "cleaned"), .symbol 61], numberTokens avl,
        nextColumn (ascii "name"), [.literal (cString shelf.name)],
        nextColumn (ascii "nfloors"), numberTokens shelf.nfloors.toNat,
        nextColumn (ascii "floor_depth"), [.literal (cString (floorDepthStr [] shelf))],
        nextColumn (ascii "building_time"), [.literal (cString shelf.buildingTime)],
        whereColumn (ascii "shelfno"), numberTokens number] := by
  rw [shelfRenewText, plain.floorDepthStr_eq]
  apply Spells.fixed (by rfl)
  apply Spells.item named.lexes_shelves (by rfl)
  apply Spells.fixed (by rfl)
  apply Spells.item (lexes_formatInt _) (by rfl)
  apply Spells.fixed (by rfl)
  apply Spells.item (lexes_escapedArray _) (by rfl)
  apply Spells.fixed (by rfl)
  apply Spells.item (lexes_formatInt _) (by rfl)
  apply Spells.fixed (by rfl)
  apply Spells.item (lexes_spliced plain.depths) (by rfl)
  apply Spells.fixed (by rfl)
  apply Spells.item (lexes_spliced plain.buildingTime) (by rfl)
  apply Spells.fixed (by rfl)
  exact spells_last (lexes_formatInt _)

theorem shelfRenewText_meaning (number : Int) :
    meaning (shelfRenewText user stack shelf number) =
      .means (.update (shelvesName user)
        [(ascii "cleaned", .number avl), (ascii "name", .text (cString shelf.name)),
          (ascii "nfloors", .number shelf.nfloors.toNat),
          (ascii "floor_depth", .text (cString (floorDepthStr [] shelf))),
          (ascii "building_time", .text (cString shelf.buildingTime))]
        (some (ascii "shelfno", .number number))) := by
  rw [meaning_of_spells (shelfRenewText_spells named plain number)]
  simp only [List.flatten_cons, List.flatten_nil, readStatement_update, readPairs_number,
    readPairs_next, readPairs_literal, readPairs_where, readPairs_end]
  rfl

theorem shelfCreateText_spells (number : Int) :
    Spells (shelfCreateText user stack shelf number)
      [[.word (ascii "INSERT"), .word (ascii "INTO")], [.word (shelvesName user)],
        .symbol 40 :: listed [ascii "shelfno", ascii "name", ascii "nfloors", ascii "floor_depth"],
        listed [ascii "cleaned"] ++ [.word (ascii "building_time"), .symbol 41],
        [.word (ascii "VALUES"), .symbol 40], numberTokens number, [.symbol 44],
        [.literal (cString shelf.name)], [.symbol 44], numberTokens shelf.nfloors.toNat,
        [.symbol 44], [.literal (cString (floorDepthStr [] shelf))], [.symbol 44],
        numberTokens avl, [.symbol 44], [.literal (cString shelf.buildingTime)],
        [.symbol 41]] := by
  rw [shelfCreateText, plain.floorDepthStr_eq]
  apply Spells.fixed (by rfl)
  apply Spells.item named.lexes_shelves (by rfl)
  apply Spells.fixed (by rfl)
  apply Spells.fixed (by rfl)
  apply Spells.fixed (by rfl)
  apply Spells.item (lexes_formatInt _) (by rfl)
  apply Spells.fixed (by rfl)
  apply Spells.item (lexes_escapedArray _) (by rfl)
  apply Spells.fixed (by rfl)
  apply Spells.item (lexes_formatInt _) (by rfl)
  apply Spells.fixed (by rfl)
  apply Spells.item (lexes_spliced plain.depths) (by rfl)
  apply Spells.fixed (by rfl)
  apply Spells.item (lexes_formatInt _) (by rfl)
  apply Spells.fixed (by rfl)
  apply Spells.item (lexes_spliced plain.buildingTime) (by rfl)
  apply Spells.fixed (by rfl)
  exact spells_nil

theorem shelfCreateText_meaning (number : Int) :
    meaning (shelfCreateText user stack shelf number) =
      .means (.insert (shelvesName user) shelfNames
        [.number number, .text (cString shelf.name), .number shelf.nfloors.toNat,
          .text (cString (floorDepthStr [] shelf)), .number avl,
          .text (cString shelf.buildingTime)]) := by
  have read : ∀ rest, readStatement ([.word (ascii "INSERT"), .word (ascii "INTO")] ++
      ([.word (shelvesName user)] ++ ((.symbol 40 :: listed [ascii "shelfno", ascii "name",
        ascii "nfloors", ascii "floor_depth"]) ++ ((listed [ascii "cleaned"] ++
          [.word (ascii "building_time"), .symbol 41]) ++
            ([.word (ascii "VALUES"), .symbol 40] ++ rest))))) =
      (readValues [] .value rest).bind fun values =>
        .means (.insert (shelvesName user) shelfNames values) := fun _ => rfl
  rw [meaning_of_spells (shelfCreateText_spells named plain number)]
  simp only [List.flatten_cons, List.flatten_nil, read, readValues_number, readValues_next,
    readValues_literal, readValues_end]
  rfl

end Shelves

end Bookshelfdq.Spliced
