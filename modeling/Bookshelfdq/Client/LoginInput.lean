import Bookshelfdq.Clisrv
import Mathlib.Data.List.TakeWhile

/-! # Typing names and passwords

`get_login_input` of `ncgui.c`. It edits a buffer in place, from the end of the text that
the buffer holds when it is called. -/

namespace Bookshelfdq

/-! ## What the login pages admit -/

/-- `check_login_input_char` for a name, without its limit of one underscore. -/
def loginNameChar (character : Char) : Bool := character.isAlphanum || character == '_'

def loginPasswordChar (character : Char) : Bool :=
  decide (0x21 ≤ character.toNat) && decide (character.toNat ≤ 0x7E)

def minPwLen : Nat := 6

def defaultInputLen : Nat := 20

structure NameAdmitted (name : String) : Prop where
  chars : name.toList.all loginNameChar = true
  atLeast : minPwLen ≤ name.length
  atMost : name.length ≤ defaultInputLen

structure PasswordAdmitted (password : String) : Prop where
  chars : password.toList.all loginPasswordChar = true
  atLeast : minPwLen ≤ password.length
  atMost : password.length ≤ defaultInputLen

def AccountEntry.Admitted (account : AccountEntry) : Prop :=
  NameAdmitted account.name ∧ PasswordAdmitted account.password

/-! ## The editor -/

inductive LoginOption
  | name
  | password
deriving DecidableEq

/-- A key other than the one that ends the input. -/
inductive LoginKey
  | character (character : Char)
  | backspace
  | other
deriving DecidableEq

/-- The size of the three buffers that are edited. -/
def inputSize : Nat := 65

/-- The text of a buffer: its bytes before the terminator. -/
def cString (cells : List Char) : List Char := cells.takeWhile fun character => character != nulChar

def LoginOption.char : LoginOption → Char → Bool
  | .name => loginNameChar
  | .password => loginPasswordChar

/-- A name takes one underscore. -/
def checkLoginInputChar (cells : List Char) (character : Char) : LoginOption → Bool
  | .name => loginNameChar character && !(character == '_' && (cString cells).contains '_')
  | .password => loginPasswordChar character

/-- What one key makes of the buffer and the position `i`. -/
def loginKey (option : LoginOption) (input : List Char × Nat) : LoginKey → List Char × Nat
  | .character character =>
      if checkLoginInputChar input.1 character option ∧ input.2 < defaultInputLen then
        (input.1.set input.2 character, input.2 + 1)
      else input
  | .backspace => (input.1.set (input.2 - 1) nulChar, input.2 - 1)
  | .other => input

def loginKeys (option : LoginOption) (cells : List Char) (keys : List LoginKey) :
    List Char × Nat :=
  keys.foldl (loginKey option) (cells, (cString cells).length)

/-- `get_login_input` for the keys typed before the end of the line. -/
def getLoginInput (option : LoginOption) (cells : List Char) (keys : List LoginKey) :
    Bool × List Char :=
  let input := loginKeys option cells keys
  if input.2 < minPwLen then (false, input.1.set 0 nulChar)
  else (true, input.1.set input.2 nulChar)

/-! ## The text that is typed -/

/-- The text after one key, as the user sees it. -/
def typeKey (admits : Char → Bool) (text : List Char) : LoginKey → List Char
  | .character character =>
      if admits character ∧ text.length < defaultInputLen then text ++ [character] else text
  | .backspace => text.dropLast
  | .other => text

/-- What the keys enter as a password when nothing stands in the field. -/
def typedPassword (keys : List LoginKey) : List Char := keys.foldl (typeKey loginPasswordChar) []

/-- The text typed so far stands at the start of the buffer; behind it the buffer may
hold anything. -/
structure Typing (option : LoginOption) (text : List Char) (input : List Char × Nat) : Prop where
  size : input.1.length = inputSize
  position : input.2 = text.length
  stands : input.1.take text.length = text
  chars : text.all option.char = true
  atMost : text.length ≤ defaultInputLen

theorem LoginOption.char_nul (option : LoginOption) : option.char nulChar = false := by
  cases option with
  | name =>
      show loginNameChar nulChar = false
      decide
  | password =>
      show loginPasswordChar nulChar = false
      decide

theorem LoginOption.solid {option : LoginOption} {text : List Char}
    (chars : text.all option.char = true) : nulChar ∉ text := by
  intro member
  have admitted := List.all_eq_true.mp chars nulChar member
  rw [option.char_nul] at admitted
  exact Bool.false_ne_true admitted

theorem checkLoginInputChar_char {cells : List Char} {character : Char} {option : LoginOption}
    (accepted : checkLoginInputChar cells character option = true) :
    option.char character = true := by
  cases option with
  | name => exact (Bool.and_eq_true_iff.mp accepted).1
  | password => exact accepted

theorem set_eq_append {cells : List Char} {position : Nat} (inside : position < cells.length)
    (character : Char) :
    cells.set position character =
      cells.take position ++ character :: cells.drop (position + 1) :=
  List.set_eq_take_append_cons_drop.trans (if_pos inside)

theorem Typing.inside {option : LoginOption} {text : List Char} {input : List Char × Nat}
    (typing : Typing option text input) : text.length < input.1.length := by
  rw [typing.size]
  exact Nat.lt_of_le_of_lt typing.atMost (by decide)

theorem Typing.key {option : LoginOption} {text : List Char} {input : List Char × Nat}
    (typing : Typing option text input) (key : LoginKey) :
    Typing option (typeKey (fun character => checkLoginInputChar input.1 character option) text key)
      (loginKey option input key) := by
  have within := typing.inside
  rcases input with ⟨cells, position⟩
  rcases typing with ⟨size, rfl, stands, chars, atMost⟩
  cases key with
  | character character =>
      rw [typeKey, loginKey]
      by_cases accepted : checkLoginInputChar cells character option ∧
        text.length < defaultInputLen
      · rw [if_pos accepted, if_pos accepted]
        refine ⟨?_, ?_, ?_, ?_, ?_⟩
        · rw [List.length_set]
          exact size
        · rw [List.length_append]
          rfl
        · rw [set_eq_append within, stands, List.length_append, List.length_singleton,
            List.take_length_add_append]
          rfl
        · rw [List.all_append, chars, List.all_cons, checkLoginInputChar_char accepted.1]
          rfl
        · rw [List.length_append]
          exact accepted.2
      · rw [if_neg accepted, if_neg accepted]
        exact ⟨size, rfl, stands, chars, atMost⟩
  | backspace =>
      refine ⟨?_, List.length_dropLast.symm, ?_, ?_, ?_⟩
      · rw [loginKey, List.length_set]
        exact size
      · have shorter := congrArg (List.take (text.length - 1)) stands
        rw [List.take_take, Nat.min_eq_left (Nat.sub_le _ _)] at shorter
        rw [loginKey, typeKey, List.length_dropLast, List.take_set_of_le (Nat.le_refl _),
          List.dropLast_eq_take]
        exact shorter
      · apply List.all_eq_true.mpr
        intro character member
        exact List.all_eq_true.mp chars character (List.dropLast_subset _ member)
      · rw [typeKey, List.length_dropLast]
        exact (Nat.sub_le _ _).trans atMost
  | other => exact ⟨size, rfl, stands, chars, atMost⟩

theorem Typing.keys {option : LoginOption} {text : List Char} {input : List Char × Nat}
    (typing : Typing option text input) (keys : List LoginKey) :
    ∃ typed, Typing option typed (keys.foldl (loginKey option) input) := by
  induction keys generalizing text input with
  | nil => exact ⟨text, typing⟩
  | cons key keys induction => exact induction (typing.key key)

theorem Typing.passwordKeys {text : List Char} {input : List Char × Nat}
    (typing : Typing .password text input) (keys : List LoginKey) :
    Typing .password (keys.foldl (typeKey loginPasswordChar) text)
      (keys.foldl (loginKey .password) input) := by
  induction keys generalizing text input with
  | nil => exact typing
  | cons key keys induction => exact induction (typing.key key)

theorem cString_append {text rest : List Char} (solid : nulChar ∉ text) :
    cString (text ++ nulChar :: rest) = text := by
  induction text with
  | nil => rfl
  | cons character text induction =>
      have first : (character != nulChar) = true := by
        rw [bne_iff_ne]
        intro equal
        exact solid (equal ▸ List.mem_cons_self)
      have later : nulChar ∉ text := fun member => solid (List.mem_cons_of_mem _ member)
      rw [List.cons_append, cString, List.takeWhile_cons, if_pos first]
      exact congrArg (character :: ·) (induction later)

theorem cString_cleared {cells : List Char} (size : cells.length = inputSize) :
    cString (cells.set 0 nulChar) = [] := by
  rw [set_eq_append (size ▸ by decide)]
  rfl

theorem Typing.cString_terminated {option : LoginOption} {text : List Char}
    {input : List Char × Nat} (typing : Typing option text input) :
    cString (input.1.set input.2 nulChar) = text := by
  rw [typing.position, set_eq_append typing.inside, typing.stands,
    cString_append (LoginOption.solid typing.chars)]

/-! ## The buffers between calls -/

/-- A buffer that is empty or holds what `get_login_input` has accepted. -/
structure Entered (option : LoginOption) (cells : List Char) : Prop where
  size : cells.length = inputSize
  chars : (cString cells).all option.char = true
  atLeast : cString cells = [] ∨ minPwLen ≤ (cString cells).length
  atMost : (cString cells).length ≤ defaultInputLen

theorem Entered.cleared {option : LoginOption} {cells : List Char}
    (size : cells.length = inputSize) : Entered option (cells.set 0 nulChar) where
  size := List.length_set.trans size
  chars := by
    rw [cString_cleared size]
    rfl
  atLeast := .inl (cString_cleared size)
  atMost := by
    rw [cString_cleared size]
    exact Nat.zero_le _

theorem Entered.typing {option : LoginOption} {cells : List Char}
    (entered : Entered option cells) :
    Typing option (cString cells) (cells, (cString cells).length) where
  size := entered.size
  position := rfl
  stands := (List.prefix_iff_eq_take.mp (List.takeWhile_prefix _)).symm
  chars := entered.chars
  atMost := entered.atMost

/-- What is left in the buffer, by the text at the end of the line. -/
theorem getLoginInput_of_typing {option : LoginOption} {cells : List Char}
    {keys : List LoginKey} {text : List Char}
    (typing : Typing option text (loginKeys option cells keys)) :
    (getLoginInput option cells keys).1 = decide (minPwLen ≤ text.length) ∧
      Entered option (getLoginInput option cells keys).2 ∧
      cString (getLoginInput option cells keys).2 =
        if minPwLen ≤ text.length then text else [] := by
  by_cases long : minPwLen ≤ text.length
  · have kept : ¬(loginKeys option cells keys).2 < minPwLen := by
      rw [typing.position]
      exact Nat.not_lt.mpr long
    have stored := typing.cString_terminated
    rw [getLoginInput, if_neg kept, if_pos long]
    refine ⟨(decide_eq_true long).symm, ⟨?_, ?_, ?_, ?_⟩, stored⟩
    · rw [List.length_set]
      exact typing.size
    · rw [stored]
      exact typing.chars
    · rw [stored]
      exact .inr long
    · rw [stored]
      exact typing.atMost
  · have refused : (loginKeys option cells keys).2 < minPwLen := by
      rw [typing.position]
      exact Nat.not_le.mp long
    rw [getLoginInput, if_pos refused, if_neg long]
    exact ⟨(decide_eq_false long).symm, .cleared typing.size, cString_cleared typing.size⟩

theorem Entered.getLoginInput {option : LoginOption} {cells : List Char}
    (entered : Entered option cells) (keys : List LoginKey) :
    Entered option (getLoginInput option cells keys).2 := by
  rcases entered.typing.keys keys with ⟨typed, typing⟩
  exact (getLoginInput_of_typing typing).2.1

/-- Into a field that is cleared first goes what the keys enter. -/
theorem typing_cleared {cells : List Char} (size : cells.length = inputSize)
    (keys : List LoginKey) :
    Typing .password (typedPassword keys)
      (loginKeys .password (cells.set 0 nulChar) keys) := by
  have start : Typing .password [] (cells.set 0 nulChar, (cString (cells.set 0 nulChar)).length) := by
    have typing := (Entered.cleared size : Entered .password _).typing
    rw [cString_cleared size] at typing ⊢
    exact typing
  exact start.passwordKeys keys

theorem Entered.nameAdmitted {cells : List Char} (entered : Entered .name cells)
    (present : cString cells ≠ []) : NameAdmitted (String.ofList (cString cells)) := by
  rcases entered.atLeast with empty | long
  · exact absurd empty present
  · refine ⟨?_, ?_, ?_⟩
    · rw [String.toList_ofList]
      exact entered.chars
    · rw [String.length_ofList]
      exact long
    · rw [String.length_ofList]
      exact entered.atMost

theorem Entered.passwordAdmitted {cells : List Char} (entered : Entered .password cells)
    (present : cString cells ≠ []) : PasswordAdmitted (String.ofList (cString cells)) := by
  rcases entered.atLeast with empty | long
  · exact absurd empty present
  · refine ⟨?_, ?_, ?_⟩
    · rw [String.toList_ofList]
      exact entered.chars
    · rw [String.length_ofList]
      exact long
    · rw [String.length_ofList]
      exact entered.atMost

end Bookshelfdq
