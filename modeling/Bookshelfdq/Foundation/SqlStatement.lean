import Bookshelfdq.Foundation.SqlLexer
import Bookshelfdq.Foundation.Table
import Mathlib.Data.Fintype.Basic

/-! # Statements on one table

What an `UPDATE`, an `INSERT` and the selection of a smallest or largest key mean to a table with an
integer key. The grammar is the part of SQL in which values are numbers and literals and a condition
compares a column with a number. -/

namespace Bookshelfdq.Sql

abbrev Name := List UInt8

def ascii (text : String) : List UInt8 := text.toList.map fun letter => UInt8.ofNat letter.toNat

inductive Value
  | number (value : Int)
  | text (bytes : List UInt8)
deriving DecidableEq

inductive Statement
  | update (table : Name) (assigned : List (Name × Value)) (condition : Option (Name × Value))
  | insert (table : Name) (columns : List Name) (values : List Value)
  | smallest (table column : Name) (condition : Name × Value)
  | largest (table column : Name)
deriving DecidableEq

def Statement.table : Statement → Name
  | update table _ _ => table
  | insert table _ _ => table
  | smallest table _ _ => table
  | largest table _ => table

/-- What is known of a text: its meaning, that the server refuses it, or nothing. -/
inductive Meaning (Item : Type u)
  | means (item : Item)
  | refused
  | unknown
deriving DecidableEq

namespace Meaning

def bind (meaning : Meaning Item) (next : Item → Meaning Other) : Meaning Other :=
  match meaning with
  | means item => next item
  | refused => refused
  | unknown => unknown

@[simp] theorem bind_means (item : Item) (next : Item → Meaning Other) :
    (means item).bind next = next item := rfl

@[simp] theorem bind_refused (next : Item → Meaning Other) :
    (refused : Meaning Item).bind next = refused := rfl

def ofOption : Option Item → Meaning Item
  | some item => means item
  | none => unknown

end Meaning

/-! ## Values -/

/-- What may follow in a place for a value. -/
inductive ValuePlace
  | value
  | digits
  | separator (value : Value)
  | nothing
deriving DecidableEq

/-- The next token. A word of one letter is neither a column nor a function, and a symbol in front
of a comma or a bracket is no value. -/
def ValuePlace.next : ValuePlace → Token → Meaning ValuePlace
  | value, .literal text => .means (.separator (.text text))
  | value, .word bytes =>
      if bytes.all isDigit then .means (.separator (.number (readNumber bytes)))
      else if bytes.length = 1 then .refused
      else .unknown
  | value, .symbol byte =>
      if byte = 44 ∨ byte = 41 then .refused
      else if byte = 45 then .means .digits
      else .means .nothing
  | digits, .word bytes =>
      if bytes.all isDigit then .means (.separator (.number (-readNumber bytes)))
      else .unknown
  | digits, .symbol byte => if byte = 44 ∨ byte = 41 then .refused else .unknown
  | nothing, .symbol byte => if byte = 44 ∨ byte = 41 then .refused else .unknown
  | _, _ => .unknown

/-! ## Lists -/

inductive PairPlace
  | column
  | equals (column : Name)
  | value (column : Name) (place : ValuePlace)

abbrev Pairs := List (Name × Value)

def wordWhere : Name := ascii "WHERE"

/-- Columns and their values, up to the end, and those in front of `WHERE`. -/
def readPairs : Option Pairs → Pairs → PairPlace → List Token → Meaning (Option Pairs × Pairs)
  | front, pairs, .value column (.separator value), [] => .means (front, pairs ++ [(column, value)])
  | _, _, _, [] => .refused
  | front, pairs, .column, .word column :: rest => readPairs front pairs (.equals column) rest
  | front, pairs, .equals column, .symbol 61 :: rest =>
      readPairs front pairs (.value column .value) rest
  | front, pairs, .value column (.separator value), .symbol 44 :: rest =>
      readPairs front (pairs ++ [(column, value)]) .column rest
  | none, pairs, .value column (.separator value), .word bytes :: rest =>
      if bytes = wordWhere then
        readPairs (some (pairs ++ [(column, value)])) [] .column rest
      else .unknown
  | front, pairs, .value column place, token :: rest =>
      (place.next token).bind fun place => readPairs front pairs (.value column place) rest
  | _, _, _, _ => .unknown

def readColumns : List Name → List Token → Option (List Name × List Token)
  | columns, .word column :: .symbol 44 :: rest => readColumns (columns ++ [column]) rest
  | columns, .word column :: .symbol 41 :: rest => some (columns ++ [column], rest)
  | _, _ => none

/-- Values up to the bracket at the end. -/
def readValues : List Value → ValuePlace → List Token → Meaning (List Value)
  | _, _, [] => .refused
  | values, .separator value, .symbol 44 :: rest => readValues (values ++ [value]) .value rest
  | values, .separator value, .symbol 41 :: rest =>
      if rest = [] then .means (values ++ [value]) else .unknown
  | values, place, token :: rest =>
      (place.next token).bind fun place => readValues values place rest

/-! ## Statements -/

/-- An `UPDATE` of what has been read. -/
def updateOf (table : Name) : Option Pairs × Pairs → Meaning Statement
  | (none, pairs) => .means (.update table pairs none)
  | (some pairs, [condition]) => .means (.update table pairs (some condition))
  | _ => .unknown

/-- The selection of the smallest key under what has been read. -/
def smallestOf (table column : Name) : Option Pairs × Pairs → Meaning Statement
  | (none, [condition]) => .means (.smallest table column condition)
  | _ => .unknown

def readUpdate (table : Name) (tokens : List Token) : Meaning Statement :=
  (readPairs none [] .column tokens).bind (updateOf table)

def readInsert (table : Name) (tokens : List Token) : Meaning Statement :=
  (Meaning.ofOption (readColumns [] tokens)).bind fun read =>
    match read.2 with
    | .word bytes :: .symbol 40 :: rest =>
        if bytes = ascii "VALUES" then
          (readValues [] .value rest).bind fun values => .means (.insert table read.1 values)
        else .unknown
    | _ => .unknown

def readSelect : List Token → Meaning Statement
  | .word function :: .symbol 40 :: .word column :: .symbol 41 :: .word source :: .word table ::
      rest =>
      if source = ascii "FROM" then
        match rest with
        | [] => if function = ascii "MAX" then .means (.largest table column) else .unknown
        | .word bytes :: condition =>
            if function = ascii "MIN" ∧ bytes = wordWhere then
              (readPairs none [] .column condition).bind (smallestOf table column)
            else .unknown
        | _ => .unknown
      else .unknown
  | _ => .unknown

def readStatement : List Token → Meaning Statement
  | .word verb :: rest =>
      if verb = ascii "SELECT" then readSelect rest
      else
        match rest with
        | .word table :: .word bytes :: rest =>
            if verb = ascii "UPDATE" ∧ bytes = ascii "SET" then readUpdate table rest
            else
              match rest with
              | .symbol 40 :: rest =>
                  if verb = ascii "INSERT" ∧ table = ascii "INTO" then readInsert bytes rest
                  else .unknown
              | _ => .unknown
        | _ => .unknown
  | _ => .unknown

/-! ### Values in their places -/

theorem next_decimal (number : Nat) :
    ValuePlace.value.next (.word (decimal number)) = .means (.separator (.number number)) := by
  rw [ValuePlace.next, if_pos (decimal_digits number), readNumber_decimal]

theorem next_minus_decimal (number : Nat) :
    ValuePlace.digits.next (.word (decimal (number + 1))) =
      .means (.separator (.number (Int.negSucc number))) := by
  rw [ValuePlace.next, if_pos (decimal_digits _), readNumber_decimal]
  rfl

/-- One byte in front of a comma is a digit, or it is refused. -/
def byteValue (byte : UInt8) : Meaning Value :=
  if isDigit byte then .means (.number (readNumber [byte])) else .refused

theorem next_byteWord (byte : UInt8) :
    ValuePlace.value.next (.word [byte]) =
      (byteValue byte).bind fun value => .means (.separator value) := by
  have all : [byte].all isDigit = isDigit byte := by rw [List.all_cons, List.all_nil, Bool.and_true]
  rw [ValuePlace.next, byteValue, all]
  split
  case isTrue => rfl
  case isFalse => rw [if_pos (List.length_singleton)]; rfl

theorem byteValue_of_not_word {byte : UInt8} (other : ¬isWordByte byte = true) :
    byteValue byte = .refused :=
  if_neg fun digit => other (isWordByte_of_isDigit digit)

/-- A place where the value has not been read. -/
def ValuePlace.isOpen : ValuePlace → Bool
  | .separator _ => false
  | _ => true

/-- A symbol is refused, at once or with the comma behind it. -/
theorem next_byteSymbol (byte : UInt8) :
    ValuePlace.value.next (.symbol byte) = .refused ∨
      ∃ place : ValuePlace, place.isOpen = true ∧
        ValuePlace.value.next (.symbol byte) = .means place ∧
          place.next (.symbol 44) = .refused := by
  rw [ValuePlace.next]
  by_cases ends : byte = 44 ∨ byte = 41
  · exact .inl (if_pos ends)
  · rw [if_neg ends]
    right
    by_cases minus : byte = 45
    · exact ⟨.digits, rfl, if_pos minus, rfl⟩
    · exact ⟨.nothing, rfl, if_neg minus, rfl⟩

section Items

variable {read : ValuePlace → List Token → Meaning Item}
  (steps : ∀ place token rest, place.isOpen = true →
    read place (token :: rest) = (place.next token).bind fun place => read place rest)
include steps

theorem read_number (number : Int) (rest : List Token) :
    read .value (numberTokens number ++ rest) = read (.separator (.number number)) rest := by
  cases number with
  | ofNat number =>
      rw [numberTokens, List.singleton_append, steps _ _ _ rfl, next_decimal]
      rfl
  | negSucc number =>
      have minus : ValuePlace.value.next (.symbol 45) = .means .digits := rfl
      rw [numberTokens, List.cons_append, List.singleton_append, steps _ _ _ rfl, minus,
        Meaning.bind_means, steps _ _ _ rfl, next_minus_decimal]
      rfl

theorem read_byte (byte : UInt8) (rest : List Token) :
    read .value (byteTokens byte ++ .symbol 44 :: rest) =
      (byteValue byte).bind fun value => read (.separator value) (.symbol 44 :: rest) := by
  rw [byteTokens]
  by_cases word : isWordByte byte = true
  · rw [if_pos word, List.singleton_append, steps _ _ _ rfl, next_byteWord]
    cases byteValue byte <;> rfl
  · rw [if_neg word, byteValue_of_not_word word]
    by_cases space : isSpace byte = true
    · rw [if_pos space, List.nil_append, steps _ _ _ rfl]
      rfl
    · rw [if_neg space, List.singleton_append, steps _ _ _ rfl]
      rcases next_byteSymbol byte with refused | ⟨place, opened, begun, refuses⟩
      · rw [refused]
        rfl
      · rw [begun, Meaning.bind_means, steps _ _ _ opened, refuses]
        rfl

end Items

/-! ### Pieces of a statement -/

def nextColumn (column : Name) : List Token := [.symbol 44, .word column, .symbol 61]

def whereColumn (column : Name) : List Token := [.word wordWhere, .word column, .symbol 61]

/-- Names in a list, each with its comma. -/
def listed (names : List Name) : List Token := names.flatMap fun name => [.word name, .symbol 44]

theorem readStatement_update (table column : Name) (rest : List Token) :
    readStatement ([.word (ascii "UPDATE")] ++ ([.word table] ++
      ([.word (ascii "SET"), .word column, .symbol 61] ++ rest))) =
      (readPairs none [] (.value column .value) rest).bind (updateOf table) := rfl

theorem readStatement_min (table key column : Name) (rest : List Token) :
    readStatement ([.word (ascii "SELECT"), .word (ascii "MIN"), .symbol 40] ++ ([.word key] ++
      ([.symbol 41, .word (ascii "FROM")] ++ ([.word table] ++ (whereColumn column ++ rest))))) =
      (readPairs none [] (.value column .value) rest).bind (smallestOf table key) := rfl

theorem readStatement_max (table key : Name) :
    readStatement ([.word (ascii "SELECT"), .word (ascii "MAX"), .symbol 40] ++ ([.word key] ++
      ([.symbol 41, .word (ascii "FROM")] ++ ([.word table] ++ [])))) =
      .means (.largest table key) := rfl

section Pairs

variable (front : Option Pairs) (pairs : Pairs) (column next : Name) (value : Value)
  (rest : List Token)

theorem readPairs_place (place : ValuePlace) (token : Token) (opened : place.isOpen = true) :
    readPairs front pairs (.value column place) (token :: rest) =
      (place.next token).bind fun place => readPairs front pairs (.value column place) rest := by
  cases place with
  | separator value => cases opened
  | value => cases front <;> cases token <;> rfl
  | digits => cases front <;> cases token <;> rfl
  | nothing => cases front <;> cases token <;> rfl

theorem readPairs_number (number : Int) :
    readPairs front pairs (.value column .value) (numberTokens number ++ rest) =
      readPairs front pairs (.value column (.separator (.number number))) rest :=
  @read_number _ (fun place => readPairs front pairs (.value column place))
    (fun place token rest => readPairs_place front pairs column rest place token) number rest

theorem readPairs_literal (text : List UInt8) :
    readPairs front pairs (.value column .value) ([.literal text] ++ rest) =
      readPairs front pairs (.value column (.separator (.text text))) rest :=
  readPairs_place front pairs column rest .value (.literal text) rfl

theorem readPairs_next :
    readPairs front pairs (.value column (.separator value)) (nextColumn next ++ rest) =
      readPairs front (pairs ++ [(column, value)]) (.value next .value) rest := by
  cases front <;> rfl

theorem readPairs_where :
    readPairs none pairs (.value column (.separator value)) (whereColumn next ++ rest) =
      readPairs (some (pairs ++ [(column, value)])) [] (.value next .value) rest := by
  rw [whereColumn, List.cons_append, readPairs, if_pos rfl]
  rfl

/-- The column of the condition may be a piece of its own. -/
theorem readPairs_where_word :
    readPairs none pairs (.value column (.separator value))
        ([.word wordWhere] ++ ([.word next] ++ ([.symbol 61] ++ rest))) =
      readPairs (some (pairs ++ [(column, value)])) [] (.value next .value) rest :=
  readPairs_where pairs column next value rest

theorem readPairs_end :
    readPairs front pairs (.value column (.separator value)) [] =
      .means (front, pairs ++ [(column, value)]) := by
  cases front <;> rfl

theorem readPairs_byte (byte : UInt8) (pieces : List (List Token)) :
    readPairs front pairs (.value column .value)
        (bytePieces byte (nextColumn next :: pieces)).flatten =
      (byteValue byte).bind fun value =>
        readPairs front (pairs ++ [(column, value)]) (.value next .value) pieces.flatten := by
  rw [bytePieces]
  split
  case isTrue zero =>
    rw [zero]
    cases front <;> rfl
  case isFalse =>
    have read := @read_byte _ (fun place => readPairs front pairs (.value column place))
      (fun place token rest => readPairs_place front pairs column rest place token) byte
      (.word next :: .symbol 61 :: pieces.flatten)
    rw [List.flatten_cons, List.flatten_cons]
    refine read.trans ?_
    cases front <;> rfl

end Pairs

section Values

variable (values : List Value) (value : Value) (rest : List Token)

theorem readValues_place (place : ValuePlace) (token : Token) (opened : place.isOpen = true) :
    readValues values place (token :: rest) =
      (place.next token).bind fun place => readValues values place rest := by
  cases place with
  | separator value => cases opened
  | value => simp only [readValues]
  | digits => simp only [readValues]
  | nothing => simp only [readValues]

theorem readValues_number (number : Int) :
    readValues values .value (numberTokens number ++ rest) =
      readValues values (.separator (.number number)) rest :=
  @read_number _ (readValues values)
    (fun place token rest => readValues_place values rest place token) number rest

theorem readValues_literal (text : List UInt8) :
    readValues values .value ([.literal text] ++ rest) =
      readValues values (.separator (.text text)) rest :=
  readValues_place values rest .value (.literal text) rfl

theorem readValues_next :
    readValues values (.separator value) ([.symbol 44] ++ rest) =
      readValues (values ++ [value]) .value rest := rfl

theorem readValues_end :
    readValues values (.separator value) ([.symbol 41] ++ []) = .means (values ++ [value]) := rfl

theorem readValues_byte (byte : UInt8) (pieces : List (List Token)) :
    readValues values .value (bytePieces byte ([.symbol 44] :: pieces)).flatten =
      (byteValue byte).bind fun value =>
        readValues (values ++ [value]) .value pieces.flatten := by
  rw [bytePieces]
  split
  case isTrue zero =>
    rw [zero]
    rfl
  case isFalse =>
    rw [List.flatten_cons, List.flatten_cons]
    exact @read_byte _ (readValues values)
      (fun place token rest => readValues_place values rest place token) byte pieces.flatten

end Values

end Bookshelfdq.Sql
