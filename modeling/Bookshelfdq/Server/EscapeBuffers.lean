import Bookshelfdq.Foundation.Terminated
import Bookshelfdq.Server.StatementBuffers

/-! # Escaping into buffers

What the functions of `srvdb.c` pass to `mysql_escape_string`. The server takes every message that
it can decrypt: its character arrays are terminated, and nothing else is known of them. -/

namespace Bookshelfdq

namespace Escaping

/-! ## Messages in memory -/

/-- A character array with a terminator in it. -/
structure CharArray (size : Nat) where
  memory : List UInt8
  whole : memory.length = size
  terminated : 0 ∈ memory

namespace CharArray

variable {size : Nat} (array : CharArray size)

def strlen : Nat := (Terminated.text 0 array.memory).length

/-- `array[0]`. -/
def first : UInt8 := array.memory.headD 0

/-- A text, and terminators behind it. -/
def filled (text : List UInt8) (fits : text.length < size) : CharArray size where
  memory := text ++ List.replicate (size - text.length) 0
  whole := by
    rw [List.length_append, List.length_replicate]
    omega
  terminated :=
    List.mem_append_right _ (List.mem_replicate.mpr ⟨Nat.sub_ne_zero_of_lt fits, rfl⟩)

end CharArray

/-- `USER_NAME_LEN` and `BCRYPT_HASHSIZE`. -/
def userNameLen : Nat := 64

def bcryptHashsize : Nat := 64

/-- What a search reads of a `book_entry_t` before it has its statement. -/
structure SearchedBook where
  bookno : Int
  name : CharArray (bookNameLen + 1)
  author : CharArray (authorNameLen + 1)
  label : CharArray (maxLabelNum * (labelNameLen + 1) + 1)
  borrowed : UInt8
  onReading : UInt8

/-- The character arrays of an `account_entry_t`. -/
structure AccountTexts where
  name : CharArray (bcryptHashsize + 1)
  password : CharArray (bcryptHashsize + 1)

/-- The part of the union that belongs to the request. -/
inductive EscapingRequest
  | findBook (book : SearchedBook)
  | countBook (book : SearchedBook)
  | verifyAccount (account : AccountTexts)
  | registerAccount (account : AccountTexts)
  | updateAccount (account : AccountTexts)

structure EscapingMessage where
  user : CharArray (userNameLen + 1)
  request : EscapingRequest

/-! ## Calls -/

/-- A call of `mysql_escape_string`: the size of the array that is written, the memory that is read,
and the length, which is an `unsigned long`. -/
structure EscapeCall where
  room : Nat
  source : List UInt8
  length : Nat

/-- No more than the text is escaped, and there is room for all of it with a backslash each. -/
structure EscapeCall.Bounded (call : EscapeCall) : Prop where
  inside : call.length ≤ (Terminated.text 0 call.source).length
  fits : 2 * call.length + 1 ≤ call.room

/-! ## `srvdb_book_find` -/

def esTempSize : Nat := bookNameLen * 2 + 1

/-- The text behind the mode, and `strlen` less one. -/
def behindMode {size : Nat} (field : CharArray size) : EscapeCall where
  room := esTempSize
  source := field.memory.drop 1
  length := (field.strlen + 18446744073709551615) % 18446744073709551616

/-- The `case`s of a `switch` on the mode. -/
def KnownMode {size : Nat} (frame : Char → Option (String × String)) (field : CharArray size) :
    Prop := (frame (Char.ofNat field.first.toNat)).isSome

instance {size : Nat} (frame : Char → Option (String × String)) (field : CharArray size) :
    Decidable (KnownMode frame field) := inferInstanceAs (Decidable (_ = true))

namespace SearchedBook

def start (book : SearchedBook) : Int :=
  if book.bookno = breakLimitInt then nonSenseInt else book.bookno

/-- The search is neither for a flag nor for a number. -/
def SearchesKeywords (book : SearchedBook) : Prop :=
  ¬(book.borrowed = 50 ∧ book.onReading = 50) ∧ book.borrowed ≠ 49 ∧ book.onReading ≠ 49 ∧
    0 ≤ book.start

/-- A mode that no `switch` knows. -/
def Malformed (book : SearchedBook) : Prop :=
  ¬(KnownMode nameFrame book.name ∧ KnownMode authorFrame book.author ∧
    KnownMode labelFrame book.label)

end SearchedBook

/-- The calls, and the result, which is the one of the query where there is a statement. -/
def keywordFind (found : Bool) (book : SearchedBook) : List EscapeCall × Bool :=
  if KnownMode nameFrame book.name then
    if KnownMode authorFrame book.author then
      if KnownMode labelFrame book.label then
        ([behindMode book.name, behindMode book.author, behindMode book.label], found)
      else ([behindMode book.name, behindMode book.author, behindMode book.label], false)
    else ([behindMode book.name, behindMode book.author], false)
  else ([behindMode book.name], false)

def srvdbBookFind (found : Bool) (user : CharArray (userNameLen + 1)) (book : SearchedBook) :
    List EscapeCall × Bool :=
  if user.first = 0 then ([], false)
  else if book.borrowed = 50 ∧ book.onReading = 50 then ([], found)
  else if book.borrowed = 49 then ([], found)
  else if book.onReading = 49 then ([], found)
  else if book.start < 0 then ([], found)
  else keywordFind found book

/-! ## `srvdb_book_count`

Its finds are asked with one message, which is changed in place. -/

def SearchedBook.countOnReading (book : SearchedBook) : SearchedBook :=
  { book with bookno := breakLimitInt, onReading := 49 }

def SearchedBook.countBorrowed (book : SearchedBook) : SearchedBook :=
  { book with onReading := 0, borrowed := 49 }

def SearchedBook.countUnsorted (book : SearchedBook) : SearchedBook :=
  { book with borrowed := 50, onReading := 50 }

theorem CharArray.length_withMode {size : Nat} (array : CharArray size) (room : 2 ≤ size) :
    (Terminated.store array.memory 0 [48, 0]).length = size := by
  rw [Terminated.store, List.length_append, List.length_append, List.length_take,
    List.length_drop, array.whole]
  show min 0 size + 2 + (size - 2) = size
  omega

theorem CharArray.terminated_withMode {size : Nat} (array : CharArray size) :
    0 ∈ Terminated.store array.memory 0 [48, 0] := by
  rw [Terminated.store, List.mem_append, List.mem_append]
  exact .inl (.inr (List.mem_cons_of_mem _ List.mem_cons_self))

/-- `strcpy(array, "0")`. -/
def CharArray.withMode {size : Nat} (array : CharArray size) (room : 2 ≤ size) :
    CharArray size where
  memory := Terminated.store array.memory 0 [48, 0]
  whole := array.length_withMode room
  terminated := array.terminated_withMode

theorem CharArray.first_withMode {size : Nat} (array : CharArray size) (room : 2 ≤ size) :
    (array.withMode room).first ≠ 0 := by
  have mode : (array.withMode room).first = 48 := rfl
  rw [mode]
  decide

def SearchedBook.countAll (book : SearchedBook) : SearchedBook :=
  { book with
    borrowed := 0
    onReading := 0
    name := book.name.withMode (by decide)
    author := book.author.withMode (by decide)
    label := book.label.withMode (by decide) }

/-- One find after another, up to the first that fails. -/
def finds (found : Nat → Bool) (user : CharArray (userNameLen + 1)) :
    List SearchedBook → List EscapeCall
  | [] => []
  | book :: rest =>
      let find := srvdbBookFind (found rest.length) user book
      find.1 ++ if find.2 then finds found user rest else []

def srvdbBookCount (found : Nat → Bool) (user : CharArray (userNameLen + 1))
    (book : SearchedBook) : List EscapeCall :=
  let onReading := book.countOnReading
  let borrowed := onReading.countBorrowed
  let unsorted := borrowed.countUnsorted
  finds found user [onReading, borrowed, unsorted, unsorted.countAll]

/-! ## The account functions -/

/-- What the database and the library answer. A number that is read with `sscanf` is missing where
the query fails, and is not read from an empty text. -/
structure Answers where
  found : Bool
  counted : Nat → Bool
  users : Option (Option Int)
  namesakes : Option (Option Int)
  hash : Option (CharArray bcryptHashsize)

/-- A function returns at a number. -/
def returnsAt (stop : Int → Bool) : Option (Option Int) → Bool
  | none => true
  | some none => false
  | some (some number) => stop number

def escapeWhole (room : Nat) {size : Nat} (array : CharArray size) : EscapeCall where
  room := room
  source := array.memory
  length := array.strlen

/-- `BCRYPT_HASHSIZE*+1`. -/
def verifiedNameSize : Nat := bcryptHashsize * 1

def esNameSize : Nat := bcryptHashsize * 2 + 1

def esPasswordSize : Nat := bcryptHashsize * 2 + 1

def srvdbAccountVerify (user : CharArray (userNameLen + 1)) (account : AccountTexts) :
    List EscapeCall :=
  if user.first = 0 then [] else [escapeWhole verifiedNameSize account.name]

def srvdbAccountRegister (answers : Answers) (user : CharArray (userNameLen + 1))
    (account : AccountTexts) : List EscapeCall :=
  if user.first = 0 then []
  else if returnsAt (fun users => users ≥ maxUserNum) answers.users then []
  else escapeWhole esNameSize account.name ::
    if returnsAt (fun namesakes => namesakes ≠ 0) answers.namesakes then []
    else answers.hash.toList.map (escapeWhole esPasswordSize)

def srvdbAccountUpdate (answers : Answers) (user : CharArray (userNameLen + 1))
    (account : AccountTexts) : List EscapeCall :=
  if user.first = 0 then []
  else escapeWhole esNameSize account.name ::
    if returnsAt (fun namesakes => namesakes = 0) answers.namesakes then []
    else answers.hash.toList.map (escapeWhole esPasswordSize)

/-! ## Escaping is bounded -/

def escapeCalls (answers : Answers) (message : EscapingMessage) : List EscapeCall :=
  match message.request with
  | .findBook book => (srvdbBookFind answers.found message.user book).1
  | .countBook book => srvdbBookCount answers.counted message.user book
  | .verifyAccount account => srvdbAccountVerify message.user account
  | .registerAccount account => srvdbAccountRegister answers message.user account
  | .updateAccount account => srvdbAccountUpdate answers message.user account

/-- Whatever is answered, each call is bounded, and a search of an unknown mode finds nothing. -/
structure EscapesBounded (message : EscapingMessage) : Prop where
  bounded : ∀ answers, ∀ call ∈ escapeCalls answers message, call.Bounded
  refused : ∀ book, message.request = .findBook book → book.SearchesKeywords → book.Malformed →
    ∀ found, (srvdbBookFind found message.user book).2 = false

/-- The fields of a search for keywords that are read have a mode at least, and the name of an
account that is to be verified has half the room it is given. -/
def HasModes (book : SearchedBook) : Prop :=
  book.name.first ≠ 0 ∧ (KnownMode nameFrame book.name →
    book.author.first ≠ 0 ∧ (KnownMode authorFrame book.author → book.label.first ≠ 0))

def EscapesFit (message : EscapingMessage) : Prop :=
  message.user.first = 0 ∨
    match message.request with
    | .findBook book => book.SearchesKeywords → HasModes book
    | .countBook _ => True
    | .verifyAccount account => account.name.strlen ≤ 31
    | .registerAccount _ => True
    | .updateAccount _ => True

/-! ## Arrays -/

namespace CharArray

variable {size : Nat} (array : CharArray size)

theorem strlen_lt : array.strlen < size := by
  rcases List.getElem?_of_mem array.terminated with ⟨index, ends⟩
  have inside := (List.getElem?_eq_some_iff.mp ends).1
  rw [array.whole] at inside
  exact (Terminated.length_text_le ends).trans_lt inside

/-- The text is empty, or has a first character and the text behind it. -/
theorem strlen_cases :
    (array.first = 0 ∧ array.strlen = 0) ∨
      (array.first ≠ 0 ∧
        array.strlen = (Terminated.text 0 (array.memory.drop 1)).length + 1) := by
  rcases array with ⟨memory, whole, terminated⟩
  cases memory with
  | nil => exact absurd terminated List.not_mem_nil
  | cons byte rest =>
      by_cases zero : byte = 0
      · left
        subst zero
        exact ⟨rfl, rfl⟩
      · right
        refine ⟨zero, ?_⟩
        rw [strlen]
        dsimp only
        rw [Terminated.text_cons zero]
        rfl

end CharArray

theorem CharArray.strlen_filled {size : Nat} {text : List UInt8} (solid : 0 ∉ text)
    (fits : text.length < size) : (CharArray.filled text fits).strlen = text.length := by
  have zeros : List.replicate (size - text.length) (0 : UInt8) =
      0 :: List.replicate (size - text.length - 1) 0 := by
    rw [← List.replicate_succ]
    congr 1
    omega
  rw [CharArray.strlen, CharArray.filled]
  dsimp only
  rw [zeros, Terminated.text_append solid]

/-! ## The calls one by one -/

theorem behindMode_bounded_iff {size : Nat} (small : size ≤ 194) (field : CharArray size) :
    (behindMode field).Bounded ↔ field.first ≠ 0 := by
  have shorter := field.strlen_lt
  have room : esTempSize = 385 := rfl
  rcases field.strlen_cases with ⟨zero, empty⟩ | ⟨mode, length⟩
  · have wrapped : (behindMode field).length = 18446744073709551615 := by
      rw [behindMode, empty]
    constructor
    · intro bounded
      have fits := bounded.fits
      have roomy : (behindMode field).room = 385 := rfl
      omega
    · exact fun mode => absurd zero mode
  · have behind : (behindMode field).length =
        (Terminated.text 0 (field.memory.drop 1)).length := by
      rw [behindMode, length]
      dsimp only
      omega
    refine ⟨fun _ => mode, fun _ => ⟨behind.le, ?_⟩⟩
    have roomy : (behindMode field).room = 385 := rfl
    omega

theorem escapeWhole_bounded_iff {size : Nat} (room : Nat) (array : CharArray size) :
    (escapeWhole room array).Bounded ↔ 2 * array.strlen + 1 ≤ room :=
  ⟨fun bounded => bounded.fits, fun fits => ⟨Nat.le_refl _, fits⟩⟩

/-! ## The functions -/

theorem keywordFind_bounded_iff (found : Bool) (book : SearchedBook) :
    (∀ call ∈ (keywordFind found book).1, call.Bounded) ↔ HasModes book := by
  have name := behindMode_bounded_iff (by decide) book.name
  have author := behindMode_bounded_iff (by decide) book.author
  have label := behindMode_bounded_iff (by decide) book.label
  by_cases nameKnown : KnownMode nameFrame book.name
  · by_cases authorKnown : KnownMode authorFrame book.author
    · have calls : (keywordFind found book).1 =
          [behindMode book.name, behindMode book.author, behindMode book.label] := by
        rw [keywordFind, if_pos nameKnown, if_pos authorKnown]
        split <;> rfl
      simp [calls, HasModes, nameKnown, authorKnown, name, author, label]
    · simp [keywordFind, HasModes, nameKnown, authorKnown, name, author]
  · simp [keywordFind, HasModes, nameKnown, name]

theorem keywordFind_refused {book : SearchedBook} (malformed : book.Malformed) (found : Bool) :
    (keywordFind found book).2 = false := by
  rw [keywordFind]
  split
  case isFalse => rfl
  case isTrue nameKnown =>
    split
    case isFalse => rfl
    case isTrue authorKnown =>
      split
      case isFalse => rfl
      case isTrue labelKnown => exact absurd ⟨nameKnown, authorKnown, labelKnown⟩ malformed

theorem srvdbBookFind_keywords {book : SearchedBook} (searches : book.SearchesKeywords)
    {user : CharArray (userNameLen + 1)} (named : user.first ≠ 0) (found : Bool) :
    srvdbBookFind found user book = keywordFind found book := by
  rcases searches with ⟨unsorted, borrowed, onReading, start⟩
  rw [srvdbBookFind, if_neg named, if_neg unsorted, if_neg borrowed, if_neg onReading,
    if_neg (Int.not_lt.mpr start)]

theorem srvdbBookFind_plain {book : SearchedBook} (other : ¬book.SearchesKeywords)
    (user : CharArray (userNameLen + 1)) (found : Bool) :
    (srvdbBookFind found user book).1 = [] := by
  rw [srvdbBookFind]
  split
  case isTrue => rfl
  case isFalse =>
    split
    case isTrue => rfl
    case isFalse unsorted =>
      split
      case isTrue => rfl
      case isFalse borrowed =>
        split
        case isTrue => rfl
        case isFalse onReading =>
          split
          case isTrue => rfl
          case isFalse start =>
            exact absurd ⟨unsorted, borrowed, onReading, Int.not_lt.mp start⟩ other

theorem srvdbBookFind_bounded_iff {user : CharArray (userNameLen + 1)} (named : user.first ≠ 0)
    (book : SearchedBook) (found : Bool) :
    (∀ call ∈ (srvdbBookFind found user book).1, call.Bounded) ↔
      (book.SearchesKeywords → HasModes book) := by
  by_cases searches : book.SearchesKeywords
  · rw [srvdbBookFind_keywords searches named, keywordFind_bounded_iff]
    exact ⟨fun modes _ => modes, fun modes => modes searches⟩
  · rw [srvdbBookFind_plain searches]
    exact ⟨fun _ search => absurd search searches,
      fun _ call member => absurd member List.not_mem_nil⟩

theorem finds_bounded {user : CharArray (userNameLen + 1)} (named : user.first ≠ 0)
    (found : Nat → Bool) {books : List SearchedBook}
    (modes : ∀ book ∈ books, book.SearchesKeywords → HasModes book) :
    ∀ call ∈ finds found user books, call.Bounded := by
  induction books with
  | nil => exact fun call none => absurd none List.not_mem_nil
  | cons book rest induction =>
      rcases List.forall_mem_cons.mp modes with ⟨first, later⟩
      intro call member
      rw [finds] at member
      rcases List.mem_append.mp member with own | behind
      · exact (srvdbBookFind_bounded_iff named book _).mpr first call own
      · split at behind
        case isTrue => exact induction later call behind
        case isFalse => exact absurd behind List.not_mem_nil

/-- Three of the finds are for a flag, and the last has a mode in each field. -/
theorem srvdbBookCount_bounded {user : CharArray (userNameLen + 1)} (named : user.first ≠ 0)
    (found : Nat → Bool) (book : SearchedBook) :
    ∀ call ∈ srvdbBookCount found user book, call.Bounded := by
  apply finds_bounded named
  intro asked member searches
  rcases searches with ⟨unsorted, borrowed, onReading, start⟩
  rcases List.mem_cons.mp member with rfl | member
  · exact absurd rfl onReading
  rcases List.mem_cons.mp member with rfl | member
  · exact absurd rfl borrowed
  rcases List.mem_cons.mp member with rfl | member
  · exact absurd ⟨rfl, rfl⟩ unsorted
  obtain rfl := List.mem_singleton.mp member
  exact ⟨CharArray.first_withMode _ (by decide), fun _ =>
    ⟨CharArray.first_withMode _ (by decide), fun _ => CharArray.first_withMode _ (by decide)⟩⟩

theorem passwords_bounded (hash : Option (CharArray bcryptHashsize)) :
    ∀ call ∈ hash.toList.map (escapeWhole esPasswordSize), call.Bounded := by
  intro call member
  rcases List.mem_map.mp member with ⟨array, _, rfl⟩
  have short : array.strlen < 64 := array.strlen_lt
  have room : esPasswordSize = 129 := rfl
  rw [escapeWhole_bounded_iff]
  omega

theorem name_bounded (account : AccountTexts) :
    (escapeWhole esNameSize account.name).Bounded := by
  have short : account.name.strlen < 65 := account.name.strlen_lt
  have room : esNameSize = 129 := rfl
  rw [escapeWhole_bounded_iff]
  omega

/-- The name is escaped, and then the hash unless the function stops before. -/
theorem account_bounded (account : AccountTexts) (stopped : Bool)
    (hash : Option (CharArray bcryptHashsize)) :
    ∀ call ∈ escapeWhole esNameSize account.name ::
      (if stopped then [] else hash.toList.map (escapeWhole esPasswordSize)), call.Bounded := by
  refine List.forall_mem_cons.mpr ⟨name_bounded account, ?_⟩
  cases stopped with
  | true => exact fun call none => absurd none List.not_mem_nil
  | false => exact passwords_bounded hash

theorem register_bounded (answers : Answers) (user : CharArray (userNameLen + 1))
    (account : AccountTexts) :
    ∀ call ∈ srvdbAccountRegister answers user account, call.Bounded := by
  rw [srvdbAccountRegister]
  split
  case isTrue => exact fun call none => absurd none List.not_mem_nil
  case isFalse =>
    split
    case isTrue => exact fun call none => absurd none List.not_mem_nil
    case isFalse => exact account_bounded account _ answers.hash

theorem update_bounded (answers : Answers) (user : CharArray (userNameLen + 1))
    (account : AccountTexts) :
    ∀ call ∈ srvdbAccountUpdate answers user account, call.Bounded := by
  rw [srvdbAccountUpdate]
  split
  case isTrue => exact fun call none => absurd none List.not_mem_nil
  case isFalse => exact account_bounded account _ answers.hash

/-! ## Messages -/

theorem unnamed_calls {message : EscapingMessage} (unnamed : message.user.first = 0)
    (answers : Answers) : escapeCalls answers message = [] := by
  rw [escapeCalls]
  split
  case h_1 => rw [srvdbBookFind, if_pos unnamed]
  case h_2 =>
    rw [srvdbBookCount, finds, srvdbBookFind, if_pos unnamed]
    rfl
  case h_3 => rw [srvdbAccountVerify, if_pos unnamed]
  case h_4 => rw [srvdbAccountRegister, if_pos unnamed]
  case h_5 => rw [srvdbAccountUpdate, if_pos unnamed]

theorem find_refused {book : SearchedBook} (searches : book.SearchesKeywords)
    (malformed : book.Malformed) (user : CharArray (userNameLen + 1)) (found : Bool) :
    (srvdbBookFind found user book).2 = false := by
  by_cases unnamed : user.first = 0
  · rw [srvdbBookFind, if_pos unnamed]
  · rw [srvdbBookFind_keywords searches unnamed]
    exact keywordFind_refused malformed found

theorem calls_bounded_iff (message : EscapingMessage) (answers : Answers) :
    (∀ call ∈ escapeCalls answers message, call.Bounded) ↔ EscapesFit message := by
  rcases message with ⟨user, request⟩
  by_cases unnamed : user.first = 0
  · have none := @unnamed_calls ⟨user, request⟩ unnamed answers
    rw [none]
    exact ⟨fun _ => .inl unnamed, fun _ call member => absurd member List.not_mem_nil⟩
  · have named : ∀ condition : Prop, (user.first = 0 ∨ condition) ↔ condition :=
      fun condition => or_iff_right unnamed
    cases request with
    | findBook book =>
        rw [EscapesFit, named, escapeCalls]
        exact srvdbBookFind_bounded_iff unnamed book answers.found
    | countBook book =>
        rw [EscapesFit, named]
        exact ⟨fun _ => trivial, fun _ => srvdbBookCount_bounded unnamed answers.counted book⟩
    | verifyAccount account =>
        rw [EscapesFit, named, escapeCalls]
        dsimp only
        rw [srvdbAccountVerify, if_neg unnamed, List.forall_mem_singleton, escapeWhole_bounded_iff]
        have room : verifiedNameSize = 64 := rfl
        omega
    | registerAccount account =>
        rw [EscapesFit, named]
        exact ⟨fun _ => trivial, fun _ => register_bounded answers user account⟩
    | updateAccount account =>
        rw [EscapesFit, named]
        exact ⟨fun _ => trivial, fun _ => update_bounded answers user account⟩

/-- The buffer for the name in `srvdb_account_verify` is half as long as in its neighbours, and an
empty field of a search has no text behind its mode. -/
theorem escapes_bounded_iff (message : EscapingMessage) :
    EscapesBounded message ↔ EscapesFit message := by
  constructor
  · intro bounded
    exact (calls_bounded_iff message ⟨true, fun _ => true, none, none, none⟩).mp (bounded.bounded _)
  · intro fit
    refine ⟨fun answers => (calls_bounded_iff message answers).mpr fit, ?_⟩
    intro book _ searches malformed found
    exact find_refused searches malformed message.user found

/-- `"u"`, and a name of 32 characters. -/
def longNameMessage : EscapingMessage where
  user := .filled [117] (by decide)
  request := .verifyAccount
    { name := .filled (List.replicate 32 97) (by decide)
      password := .filled [] (by decide) }

def emptySearch : SearchedBook where
  bookno := 0
  name := .filled [] (by decide)
  author := .filled [] (by decide)
  label := .filled [] (by decide)
  borrowed := 0
  onReading := 0

theorem escapes_beyond_buffers :
    ¬EscapesBounded longNameMessage ∧
      ¬EscapesBounded ⟨.filled [117] (by decide), .findBook emptySearch⟩ := by
  constructor
  · intro bounded
    have letters : (0 : UInt8) ∉ List.replicate 32 (97 : UInt8) := by
      intro member
      exact absurd (List.mem_replicate.mp member).2 (by decide)
    have fit : EscapesFit longNameMessage :=
      (calls_bounded_iff longNameMessage ⟨true, fun _ => true, none, none, none⟩).mp (bounded.bounded _)
    rcases fit with unnamed | short
    · exact absurd unnamed (by decide)
    · have length := @CharArray.strlen_filled (bcryptHashsize + 1) _ letters (by decide)
      exact absurd (length.ge.trans short) (by decide)
  · intro bounded
    have fit : EscapesFit ⟨.filled [117] (by decide), .findBook emptySearch⟩ :=
      (calls_bounded_iff _ ⟨true, fun _ => true, none, none, none⟩).mp (bounded.bounded _)
    rcases fit with unnamed | modes
    · exact absurd unnamed (by decide)
    · exact (modes ⟨by decide, by decide, by decide, by decide⟩).1 rfl

end Escaping

end Bookshelfdq
