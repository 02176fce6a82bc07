import Mathlib.Data.List.Basic
import Bookshelfdq.Foundation.Terminated

/-! # The words of an SQL statement

How MySQL cuts the bytes of a statement into words, literals and symbols. What it treats in a way of
its own, a quoted name, a variable, a comment that is not behind `#`, or a number that is not in
decimal digits, is not read here. A statement ends at a zero. -/

namespace Bookshelfdq.Sql

inductive Token
  | word (bytes : List UInt8)
  | literal (text : List UInt8)
  | symbol (byte : UInt8)
deriving DecidableEq

/-! ## Bytes -/

def isDigit (byte : UInt8) : Bool := 48 ≤ byte && byte ≤ 57

/-- Letters, digits, `_` and `$`, and the bytes of any character beyond ASCII. -/
def isWordByte (byte : UInt8) : Bool :=
  isDigit byte || (65 ≤ byte && byte ≤ 90) || (97 ≤ byte && byte ≤ 122) || byte == 95 ||
    byte == 36 || 128 ≤ byte

def isSpace (byte : UInt8) : Bool := byte == 32 || (9 ≤ byte && byte ≤ 13)

def isQuote (byte : UInt8) : Bool := byte == 39 || byte == 34

/-- A byte that ends the token before it, whatever that is. -/
def separates (byte : UInt8) : Bool :=
  !isWordByte byte && !isQuote byte && byte != 45 && byte != 42 && byte != 0

theorem separates_iff {byte : UInt8} :
    separates byte = true ↔
      isWordByte byte = false ∧ isQuote byte = false ∧ byte ≠ 45 ∧ byte ≠ 42 ∧ byte ≠ 0 := by
  rw [separates, Bool.and_eq_true, Bool.and_eq_true, Bool.and_eq_true, Bool.and_eq_true,
    Bool.not_eq_true', Bool.not_eq_true', bne_iff_ne, bne_iff_ne, bne_iff_ne, and_assoc, and_assoc,
    and_assoc]

def isHexDigit (byte : UInt8) : Bool :=
  isDigit byte || (65 ≤ byte && byte ≤ 70) || (97 ≤ byte && byte ≤ 102)

/-- A number with an exponent, or in another base. -/
def isSpecialNumber (bytes : List UInt8) : Bool :=
  match bytes.dropWhile isDigit with
  | [] => false
  | letter :: rest =>
      bytes.head?.any isDigit &&
        ((letter == 101 || letter == 69) && rest.head?.all isDigit ||
          (letter == 120 || letter == 98) && rest.all isHexDigit)

/-! ## Reading -/

/-- What has been read of a token that has not ended. -/
inductive Reading
  | between
  | word (bytes : List UInt8)
  | operator (byte : UInt8)
  | literal (delimiter : UInt8) (text : List UInt8)
  | escape (delimiter : UInt8) (text : List UInt8)
  | closed (delimiter : UInt8) (text : List UInt8)
  | comment

/-- What a byte behind a backslash stands for. -/
def unescape (byte : UInt8) : List UInt8 :=
  if byte = 48 then [0]
  else if byte = 98 then [8]
  else if byte = 116 then [9]
  else if byte = 110 then [10]
  else if byte = 114 then [13]
  else if byte = 90 then [26]
  else if byte = 37 ∨ byte = 95 then [92, byte]
  else [byte]

/-- A byte that begins a token. -/
def begin (byte : UInt8) : Option (List Token × Reading) :=
  if isWordByte byte then some ([], .word [byte])
  else if isSpace byte then some ([], .between)
  else if isQuote byte then some ([], .literal byte [])
  else if byte = 35 then some ([], .comment)
  else if byte = 45 ∨ byte = 47 then some ([], .operator byte)
  else if byte = 64 ∨ byte = 96 then none
  else some ([.symbol byte], .between)

/-- The next byte begins a token behind one that it ends. -/
def endToken (token : Token) (byte : UInt8) : Option (List Token × Reading) :=
  (begin byte).map fun begun => (token :: begun.1, begun.2)

/-- A byte that is not zero. -/
def take : Reading → UInt8 → Option (List Token × Reading)
  | .between, byte => begin byte
  | .word bytes, byte =>
      if isWordByte byte then some ([], .word (bytes ++ [byte]))
      else if isSpecialNumber bytes || isQuote byte then none
      else endToken (.word bytes) byte
  | .operator first, byte =>
      if first = 45 ∧ byte = 45 ∨ first = 47 ∧ byte = 42 then none
      else endToken (.symbol first) byte
  | .literal delimiter text, byte =>
      if byte = delimiter then some ([], .closed delimiter text)
      else if byte = 92 then some ([], .escape delimiter text)
      else some ([], .literal delimiter (text ++ [byte]))
  | .escape delimiter text, byte => some ([], .literal delimiter (text ++ unescape byte))
  | .closed delimiter text, byte =>
      if byte = delimiter then some ([], .literal delimiter (text ++ [byte]))
      else endToken (.literal text) byte
  | .comment, byte => some ([], if byte = 10 then .between else .comment)

def step (reading : Reading) (byte : UInt8) : Option (List Token × Reading) :=
  if byte = 0 then none else take reading byte

/-- The tokens that end in some bytes, and what is being read behind them. -/
def lexFrom : Reading → List UInt8 → Option (List Token × Reading)
  | reading, [] => some ([], reading)
  | reading, byte :: rest =>
      (step reading byte).bind fun begun =>
        (lexFrom begun.2 rest).map fun read => (begun.1 ++ read.1, read.2)

/-- The token that the end of a statement ends. -/
def finish : Reading → Option (List Token)
  | .between => some []
  | .word bytes => if isSpecialNumber bytes then none else some [.word bytes]
  | .operator byte => some [.symbol byte]
  | .literal _ _ => none
  | .escape _ _ => none
  | .closed _ text => some [.literal text]
  | .comment => some []

def tokensFrom (reading : Reading) (bytes : List UInt8) : Option (List Token) :=
  (lexFrom reading (Terminated.text 0 bytes)).bind fun read => (finish read.2).map (read.1 ++ ·)

def tokens (bytes : List UInt8) : Option (List Token) := tokensFrom .between bytes

theorem step_of_ne {byte : UInt8} (other : byte ≠ 0) (reading : Reading) :
    step reading byte = take reading byte :=
  if_neg other

/-- What is read has no zero. -/
theorem zero_not_mem_of_lexFrom {reading : Reading} {bytes : List UInt8}
    {read : List Token × Reading} (lexed : lexFrom reading bytes = some read) : 0 ∉ bytes := by
  induction bytes generalizing reading read with
  | nil => exact List.not_mem_nil
  | cons byte bytes induction =>
      rcases Option.bind_eq_some_iff.mp lexed with ⟨begun, stepped, behind⟩
      rcases Option.map_eq_some_iff.mp behind with ⟨rest, later, _⟩
      intro member
      rcases List.mem_cons.mp member with rfl | inside
      · cases stepped
      · exact induction later inside

theorem lexFrom_append (reading : Reading) (front behind : List UInt8) :
    lexFrom reading (front ++ behind) = (lexFrom reading front).bind fun read =>
      (lexFrom read.2 behind).map fun rest => (read.1 ++ rest.1, rest.2) := by
  induction front generalizing reading with
  | nil =>
      rw [List.nil_append, lexFrom, Option.bind_some]
      cases lexFrom reading behind <;> rfl
  | cons byte front induction =>
      rw [List.cons_append, lexFrom, lexFrom]
      cases step reading byte with
      | none => rfl
      | some begun =>
          rw [Option.bind_some, Option.bind_some, induction]
          cases lexFrom begun.2 front with
          | none => rfl
          | some read =>
              rw [Option.bind_some, Option.map_some, Option.bind_some]
              cases lexFrom read.2 behind with
              | none => rfl
              | some rest =>
                  rw [Option.map_some, Option.map_some, Option.map_some, List.append_assoc]

theorem text_of_lexFrom {reading : Reading} {front : List UInt8} {read : List Token × Reading}
    (lexed : lexFrom reading front = some read) (behind : List UInt8) :
    Terminated.text 0 (front ++ behind) = front ++ Terminated.text 0 behind := by
  have passed : ∀ byte ∈ front, decide (byte ≠ 0) = true := by
    intro byte member
    exact decide_eq_true fun zero => zero_not_mem_of_lexFrom lexed (zero ▸ member)
  rw [Terminated.text, List.takeWhile_append_of_pos passed, Terminated.text]

theorem tokens_of_lexFrom {bytes : List UInt8} {read : List Token} {reading : Reading}
    (lexed : lexFrom .between bytes = some (read, reading)) :
    tokens bytes = (finish reading).map (read ++ ·) := by
  have whole : Terminated.text 0 bytes = bytes := by
    have split := text_of_lexFrom lexed []
    rw [List.append_nil] at split
    exact split.trans (List.append_nil bytes)
  rw [tokens, tokensFrom, whole, lexed]
  rfl

/-- What stands behind a zero is not read. -/
theorem tokens_text (bytes : List UInt8) : tokens (Terminated.text 0 bytes) = tokens bytes := by
  rw [tokens, tokensFrom, tokens, tokensFrom, Terminated.text, Terminated.text,
    List.takeWhile_idem]

theorem tokensFrom_append {reading middle : Reading} {front : List UInt8} {read : List Token}
    (lexed : lexFrom reading front = some (read, middle)) (behind : List UInt8) :
    tokensFrom reading (front ++ behind) = (tokensFrom middle behind).map (read ++ ·) := by
  rw [tokensFrom, tokensFrom, text_of_lexFrom lexed, lexFrom_append, lexed, Option.bind_some]
  cases lexFrom middle (Terminated.text 0 behind) with
  | none => rfl
  | some rest =>
      rw [Option.map_some, Option.bind_some, Option.bind_some, Option.map_map]
      cases finish rest.2 with
      | none => rfl
      | some last => exact congrArg some (List.append_assoc _ _ _)

/-! ## Chunks

A statement is put together from chunks that end between two tokens, and from items that are read as
their own tokens whatever follows, as long as it separates. -/

structure Lexes (item : List UInt8) (read : List Token) : Prop where
  last : tokens item = some read
  before : ∀ byte rest, separates byte = true →
    tokens (item ++ byte :: rest) = (tokens (byte :: rest)).map (read ++ ·)

/-- The tokens of a statement that is put together from chunks. -/
def Spells (chunks : List (List UInt8)) (pieces : List (List Token)) : Prop :=
  tokens chunks.flatten = some pieces.flatten

theorem spells_nil : Spells [] [] := rfl

theorem spells_zero (chunks : List (List UInt8)) : Spells ([0] :: chunks) [] := rfl

section Spells

variable {chunks : List (List UInt8)} {pieces : List (List Token)}

theorem Spells.fixed {fixed : List UInt8} {front : List Token}
    (lexed : lexFrom .between fixed = some (front, .between)) (rest : Spells chunks pieces) :
    Spells (fixed :: chunks) (front :: pieces) := by
  rw [Spells] at rest
  rw [Spells, List.flatten_cons, tokens, tokensFrom_append lexed, ← tokens, rest]
  rfl

theorem Spells.item {item fixed : List UInt8} {front : List Token} (lexes : Lexes item front)
    (separated : fixed.head?.any separates = true) (rest : Spells (fixed :: chunks) pieces) :
    Spells (item :: fixed :: chunks) (front :: pieces) := by
  cases fixed with
  | nil => cases separated
  | cons byte fixed =>
      rw [Spells] at rest
      have split := lexes.before byte (fixed ++ chunks.flatten) separated
      rw [← List.cons_append, ← List.flatten_cons, rest] at split
      exact split

theorem spells_last {item : List UInt8} {front : List Token} (lexes : Lexes item front) :
    Spells [item] [front] := by
  rw [Spells, List.flatten_singleton, List.flatten_singleton]
  exact lexes.last

end Spells

/-- An item that ends with a token which any separator ends. -/
theorem Lexes.of_ended {item : List UInt8} {read : List Token} {reading : Reading} {token : Token}
    (lexed : lexFrom .between item = some (read, reading)) (last : finish reading = some [token])
    (ends : ∀ byte, separates byte = true → step reading byte = endToken token byte) :
    Lexes item (read ++ [token]) where
  last := by
    rw [tokens_of_lexFrom lexed, last]
    rfl
  before := by
    intro byte rest separated
    rcases separates_iff.mp separated with ⟨_, _, _, _, other⟩
    have next : step .between byte = begin byte := step_of_ne other .between
    have begun : tokensFrom reading (byte :: rest) =
        (tokensFrom .between (byte :: rest)).map (token :: ·) := by
      rw [tokensFrom, tokensFrom, Terminated.text_cons other, lexFrom, lexFrom,
        ends byte separated, endToken, next]
      cases begin byte with
      | none => rfl
      | some begun =>
          rw [Option.map_some, Option.bind_some, Option.bind_some]
          cases lexFrom begun.2 (Terminated.text 0 rest) with
          | none => rfl
          | some behind =>
              rw [Option.map_some, Option.map_some, Option.bind_some, Option.bind_some]
              cases finish behind.2 <;> rfl
    rw [tokens, tokensFrom_append lexed, begun, Option.map_map]
    congr 1
    funext rest
    exact List.append_cons read token rest

/-- An item that ends between two tokens. -/
theorem Lexes.of_between {item : List UInt8} {read : List Token}
    (lexed : lexFrom .between item = some (read, .between)) : Lexes item read where
  last := by
    rw [tokens_of_lexFrom lexed]
    exact congrArg some (List.append_nil read)
  before byte rest _ := tokensFrom_append lexed (byte :: rest)

/-! ## Words -/

theorem ne_zero_of_isWordByte {byte : UInt8} (word : isWordByte byte = true) : byte ≠ 0 := by
  rintro rfl
  exact absurd word (by decide)

/-- A byte that goes on with a word, and one that ends it. -/
theorem step_word {bytes : List UInt8} {byte : UInt8} (word : isWordByte byte = true) :
    step (.word bytes) byte = some ([], .word (bytes ++ [byte])) := by
  rw [step_of_ne (ne_zero_of_isWordByte word), take, if_pos word]

theorem step_word_end {bytes : List UInt8} {byte : UInt8} (name : isSpecialNumber bytes = false)
    (separated : separates byte = true) :
    step (.word bytes) byte = endToken (.word bytes) byte := by
  rcases separates_iff.mp separated with ⟨other, unquoted, _, _, solid⟩
  rw [step_of_ne solid, take, other, if_neg Bool.false_ne_true, name, unquoted]
  rfl

theorem lexFrom_word {bytes : List UInt8} (words : bytes.all isWordByte = true)
    (front : List UInt8) : lexFrom (.word front) bytes = some ([], .word (front ++ bytes)) := by
  induction bytes generalizing front with
  | nil => rw [lexFrom, List.append_nil]
  | cons byte bytes induction =>
      rw [List.all_cons, Bool.and_eq_true] at words
      rw [lexFrom, step_word words.1, Option.bind_some, induction words.2, Option.map_some,
        List.append_assoc]
      rfl

theorem lexes_word {bytes : List UInt8} (some : bytes ≠ []) (words : bytes.all isWordByte = true)
    (name : isSpecialNumber bytes = false) : Lexes bytes [.word bytes] := by
  rcases List.exists_cons_of_ne_nil some with ⟨byte, rest, rfl⟩
  rw [List.all_cons, Bool.and_eq_true] at words
  refine @Lexes.of_ended _ [] (.word (byte :: rest)) (.word (byte :: rest)) ?_ ?_ ?_
  · rw [lexFrom, step_of_ne (ne_zero_of_isWordByte words.1), take, begin, if_pos words.1,
      Option.bind_some, lexFrom_word words.2]
    rfl
  · rw [finish, name, if_neg Bool.false_ne_true]
  · exact fun next separated => step_word_end name separated

/-! ## Numbers -/

/-- The digits of a number. -/
def decimal (number : Nat) : List UInt8 :=
  (Nat.toDigits 10 number).map fun digit => UInt8.ofNat digit.toNat

/-- What `%d` writes. -/
def formatInt : Int → List UInt8
  | .ofNat number => decimal number
  | .negSucc number => 45 :: decimal (number + 1)

def readNumber (digits : List UInt8) : Nat :=
  digits.foldl (fun value digit => 10 * value + (digit.toNat - 48)) 0

def numberTokens : Int → List Token
  | .ofNat number => [.word (decimal number)]
  | .negSucc number => [.symbol 45, .word (decimal (number + 1))]

theorem toNat_of_isDigit {digit : Char} (ten : digit.isDigit = true) :
    (UInt8.ofNat digit.toNat).toNat = digit.toNat ∧ 48 ≤ digit.toNat ∧ digit.toNat ≤ 57 := by
  have bounds : 48 ≤ digit.toNat ∧ digit.toNat ≤ 57 := Char.isDigit_iff_toNat.mp ten
  refine ⟨?_, bounds⟩
  rw [UInt8.toNat_ofNat']
  exact Nat.mod_eq_of_lt (by omega)

theorem decimal_digits (number : Nat) : (decimal number).all isDigit = true := by
  rw [List.all_eq_true]
  intro byte member
  rcases List.mem_map.mp member with ⟨digit, inside, rfl⟩
  have ten := Nat.isDigit_of_mem_toDigits (by decide) (by decide) inside
  rcases toNat_of_isDigit ten with ⟨same, low, high⟩
  rw [isDigit, Bool.and_eq_true, decide_eq_true_iff, decide_eq_true_iff, UInt8.le_iff_toNat_le,
    UInt8.le_iff_toNat_le, same]
  exact ⟨low, high⟩

theorem decimal_ne_nil (number : Nat) : decimal number ≠ [] :=
  fun none => Nat.toDigits_ne_nil (List.map_eq_nil_iff.mp none)

@[simp] theorem readNumber_decimal (number : Nat) : readNumber (decimal number) = number := by
  have digits : ∀ digit ∈ Nat.toDigits 10 number,
      (UInt8.ofNat digit.toNat).toNat = digit.toNat := fun digit member =>
    (toNat_of_isDigit (Nat.isDigit_of_mem_toDigits (by decide) (by decide) member)).1
  have value := @Nat.ofDigitChars_ten_toDigits number
  rw [Nat.ofDigitChars_eq_foldl] at value
  rw [readNumber, decimal, List.foldl_map]
  refine Eq.trans ?_ value
  apply List.foldl_ext
  intro sofar digit member
  rw [digits digit member]
  rfl

theorem isWordByte_of_isDigit {byte : UInt8} (digit : isDigit byte = true) :
    isWordByte byte = true := by
  rw [isWordByte, digit]
  rfl

theorem words_of_digits {bytes : List UInt8} (digits : bytes.all isDigit = true) :
    bytes.all isWordByte = true :=
  List.all_eq_true.mpr fun byte member =>
    isWordByte_of_isDigit (List.all_eq_true.mp digits byte member)

theorem not_special_of_digits {bytes : List UInt8} (digits : bytes.all isDigit = true) :
    isSpecialNumber bytes = false := by
  have none : bytes.dropWhile isDigit = [] :=
    List.dropWhile_eq_nil_iff.mpr (List.all_eq_true.mp digits)
  rw [isSpecialNumber, none]

theorem lexes_formatInt (number : Int) : Lexes (formatInt number) (numberTokens number) := by
  cases number with
  | ofNat number =>
      have digits := decimal_digits number
      exact lexes_word (decimal_ne_nil number) (words_of_digits digits)
        (not_special_of_digits digits)
  | negSucc number =>
      have digits := decimal_digits (number + 1)
      rcases List.exists_cons_of_ne_nil (decimal_ne_nil (number + 1)) with ⟨first, rest, split⟩
      rw [formatInt, numberTokens]
      rw [split] at digits ⊢
      have word := words_of_digits digits
      have name := not_special_of_digits digits
      rw [List.all_cons, Bool.and_eq_true] at digits word
      have positive : first ≠ 45 := by
        rintro rfl
        exact absurd digits.1 (by decide)
      refine @Lexes.of_ended _ [.symbol 45] (.word (first :: rest)) (.word (first :: rest)) ?_ ?_ ?_
      · have minus : step .between 45 = some ([], .operator 45) := rfl
        have single : ¬((45 : UInt8) = 45 ∧ first = 45 ∨ (45 : UInt8) = 47 ∧ first = 42) := by
          rintro (⟨_, again⟩ | ⟨other, _⟩)
          · exact positive again
          · exact absurd other (by decide)
        rw [lexFrom, minus, Option.bind_some, lexFrom,
          step_of_ne (ne_zero_of_isWordByte word.1), take, if_neg single, endToken, begin,
          if_pos word.1, Option.map_some, Option.bind_some, lexFrom_word word.2]
        rfl
      · rw [finish, name, if_neg Bool.false_ne_true]
      · exact fun next separated => step_word_end name separated

/-! ## Literals -/

/-- `mysql_escape_string`. -/
def escapeByte (byte : UInt8) : List UInt8 :=
  if byte = 0 then [92, 48]
  else if byte = 10 then [92, 110]
  else if byte = 13 then [92, 114]
  else if byte = 26 then [92, 90]
  else if byte = 34 ∨ byte = 39 ∨ byte = 92 then [92, byte]
  else [byte]

def mysqlEscapeString (text : List UInt8) : List UInt8 := text.flatMap escapeByte

/-- An escaped byte is read as the byte. -/
theorem lexFrom_escapeByte (byte : UInt8) (front : List UInt8) :
    lexFrom (.literal 39 front) (escapeByte byte) = some ([], .literal 39 (front ++ [byte])) := by
  rw [escapeByte]
  split
  case isTrue zero =>
    subst zero
    rfl
  case isFalse solid =>
    split
    case isTrue newline =>
      subst newline
      rfl
    split
    case isTrue carriage =>
      subst carriage
      rfl
    split
    case isTrue substitute =>
      subst substitute
      rfl
    split
    case isTrue special =>
      rcases special with rfl | rfl | rfl <;> rfl
    case isFalse plain =>
      rw [not_or, not_or] at plain
      rw [lexFrom, step_of_ne solid, take, if_neg plain.2.1, if_neg plain.2.2]
      rfl

theorem lexFrom_mysqlEscapeString (text front : List UInt8) :
    lexFrom (.literal 39 front) (mysqlEscapeString text) =
      some ([], .literal 39 (front ++ text)) := by
  induction text generalizing front with
  | nil => rw [mysqlEscapeString, List.flatMap_nil, lexFrom, List.append_nil]
  | cons byte text induction =>
      rw [mysqlEscapeString, List.flatMap_cons, lexFrom_append, lexFrom_escapeByte,
        Option.bind_some]
      change (lexFrom (.literal 39 (front ++ [byte])) (mysqlEscapeString text)).map _ = _
      rw [induction, Option.map_some, List.append_assoc]
      rfl

/-- A text that stands in a literal as it is. -/
def plainText (text : List UInt8) : Bool := text.all fun byte => byte != 39 && byte != 92

theorem lexFrom_plainText {text : List UInt8} (solid : 0 ∉ text) (plain : plainText text = true)
    (front : List UInt8) :
    lexFrom (.literal 39 front) text = some ([], .literal 39 (front ++ text)) := by
  induction text generalizing front with
  | nil => rw [lexFrom, List.append_nil]
  | cons byte text induction =>
      rw [plainText, List.all_cons, Bool.and_eq_true, Bool.and_eq_true, bne_iff_ne,
        bne_iff_ne] at plain
      rw [List.mem_cons, not_or] at solid
      rw [lexFrom, step_of_ne (Ne.symm solid.1), take, if_neg plain.1.1, if_neg plain.1.2,
        Option.bind_some, induction solid.2 plain.2, Option.map_some, List.append_assoc]
      rfl

/-- A literal between its quotes. -/
def quoted (written : List UInt8) : List UInt8 := 39 :: (written ++ [39])

theorem lexes_quoted {written text : List UInt8}
    (lexed : lexFrom (.literal 39 []) written = some ([], .literal 39 text)) :
    Lexes (quoted written) [.literal text] := by
  refine @Lexes.of_ended _ [] (.closed 39 text) (.literal text) ?_ rfl ?_
  · have opened : step .between 39 = some ([], .literal 39 []) := rfl
    rw [quoted, lexFrom, opened, Option.bind_some, lexFrom_append, lexed]
    rfl
  · intro next separated
    have other : next ≠ 39 := by
      rintro rfl
      cases separated
    rcases separates_iff.mp separated with ⟨_, _, _, _, solid⟩
    rw [step_of_ne solid, take, if_neg other]

theorem lexes_escaped (text : List UInt8) :
    Lexes (quoted (mysqlEscapeString text)) [.literal text] :=
  lexes_quoted (lexFrom_mysqlEscapeString text [])

theorem lexes_plainText {text : List UInt8} (solid : 0 ∉ text) (plain : plainText text = true) :
    Lexes (quoted text) [.literal text] :=
  lexes_quoted (lexFrom_plainText solid plain [])

/-! ## Single bytes -/

/-- A byte that begins a literal, a quoted name, a variable or a comment. -/
def opens (byte : UInt8) : Bool :=
  isQuote byte || byte == 96 || byte == 64 || byte == 35

/-- What a byte is that does not open anything. -/
def byteTokens (byte : UInt8) : List Token :=
  if isWordByte byte then [.word [byte]] else if isSpace byte then [] else [.symbol byte]

theorem lexes_byte {byte : UInt8} (solid : byte ≠ 0) (plain : opens byte = false) :
    Lexes [byte] (byteTokens byte) := by
  rw [opens, Bool.or_eq_false_iff, Bool.or_eq_false_iff, Bool.or_eq_false_iff, beq_eq_false_iff_ne,
    beq_eq_false_iff_ne, beq_eq_false_iff_ne] at plain
  rcases plain with ⟨⟨⟨quote, name⟩, variable_⟩, comment⟩
  rw [byteTokens]
  by_cases word : isWordByte byte = true
  · rw [if_pos word]
    refine lexes_word (List.cons_ne_nil _ _) (by rw [List.all_cons, word]; rfl) ?_
    rw [isSpecialNumber, List.dropWhile_cons]
    cases digit : isDigit byte with
    | true => rfl
    | false =>
        have none : [byte].head?.any isDigit = false := digit
        rw [if_neg Bool.false_ne_true]
        dsimp only
        rw [none, Bool.false_and]
  · have read : lexFrom .between [byte] = (begin byte).bind fun begun =>
        some (begun.1 ++ [], begun.2) := by
      rw [lexFrom, step_of_ne solid]
      rfl
    rw [if_neg word]
    rw [begin, if_neg word, quote, if_neg comment, if_neg (not_or.mpr ⟨variable_, name⟩)] at read
    by_cases space : isSpace byte = true
    · rw [if_pos space] at read ⊢
      exact Lexes.of_between read
    · rw [if_neg space, if_neg Bool.false_ne_true] at read
      rw [if_neg space]
      by_cases operator : byte = 45 ∨ byte = 47
      · rw [if_pos operator] at read
        refine Lexes.of_ended read rfl ?_
        intro next separated
        rcases separates_iff.mp separated with ⟨_, _, noMinus, noStar, behind⟩
        have single : ¬(byte = 45 ∧ next = 45 ∨ byte = 47 ∧ next = 42) := by
          rintro (⟨_, minus⟩ | ⟨_, star⟩)
          · exact noMinus minus
          · exact noStar star
        rw [step_of_ne behind, take, if_neg single]
      · rw [if_neg operator] at read
        exact Lexes.of_between read

/-- What stands behind a byte that ends the statement where it is zero. -/
def bytePieces (byte : UInt8) (pieces : List (List Token)) : List (List Token) :=
  if byte = 0 then [] else byteTokens byte :: pieces

theorem Spells.byte {byte : UInt8} {fixed : List UInt8} {chunks : List (List UInt8)}
    {pieces : List (List Token)} (plain : opens byte = false)
    (separated : fixed.head?.any separates = true) (rest : Spells (fixed :: chunks) pieces) :
    Spells ([byte] :: fixed :: chunks) (bytePieces byte pieces) := by
  by_cases zero : byte = 0
  · rw [zero]
    exact spells_zero (fixed :: chunks)
  · rw [bytePieces, if_neg zero]
    exact rest.item (lexes_byte zero plain) separated

end Bookshelfdq.Sql
