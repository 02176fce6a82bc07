import Bookshelfdq.Client.RegisterPage
import Mathlib.Data.List.Induction

/-! # The line of a name or password

`get_login_input` edits a buffer, and a line of the screen that it takes to show what the buffer
holds when it is called. -/

namespace Bookshelfdq

/-- Each character of a text is one that `check_login_input_char` admits behind the ones before
it. -/
def LoginOption.Admissible (option : LoginOption) (text : List Char) : Prop :=
  ∀ front character rest, text = front ++ character :: rest →
    checkLoginInputChar front character option = true

/-- What `waddch` shows for a character. -/
def LoginOption.echo : LoginOption → Char → Char
  | .name, character => character
  | .password, _ => '*'

/-- The buffer, the position `i`, the columns of the window, and the indices written. -/
structure LoginLine where
  cells : List Char
  i : Nat
  line : List Char
  written : List Nat

namespace LoginLine

/-- The window has `DEFAULT_INPUT_LEN+1` columns and one row. -/
def lineWidth : Nat := defaultInputLen + 1

/-- A window after `wclear`. -/
def blankLine : List Char := List.replicate lineWidth ' '

/-- The line in which exactly a text is visible. -/
def visible (option : LoginOption) (text : List Char) : List Char :=
  text.map option.echo ++ List.replicate (lineWidth - text.length) ' '

def start (cells line : List Char) : LoginLine where
  cells := cells
  i := (cString cells).length
  line := line
  written := []

/-- `waddch` writes at column `i`, and `wdelch` closes the gap at its column. -/
def press (option : LoginOption) (state : LoginLine) : LoginKey → LoginLine
  | .character character =>
      if checkLoginInputChar state.cells character option ∧ state.i < defaultInputLen then
        { cells := state.cells.set state.i character
          i := state.i + 1
          line := state.line.set state.i (option.echo character)
          written := state.written ++ [state.i] }
      else state
  | .backspace =>
      { cells := state.cells.set (state.i - 1) nulChar
        i := state.i - 1
        line := state.line.eraseIdx (state.i - 1) ++ [' ']
        written := state.written ++ [state.i - 1] }
  | .other => state

/-- The end of the line. A short text is cleared with the window. -/
def enter (state : LoginLine) : Bool × LoginLine :=
  if state.i < minPwLen then
    (false, { state with
      cells := state.cells.set 0 nulChar
      line := blankLine
      written := state.written ++ [0] })
  else
    (true, { state with
      cells := state.cells.set state.i nulChar
      written := state.written ++ [state.i] })

/-- `get_login_input` with its line. -/
def input (option : LoginOption) (cells line : List Char) (keys : List LoginKey) :
    Bool × LoginLine :=
  (Execution.run (press option) (start cells line) keys).enter

/-- What `get_login_input` is called on: a text of at most `DEFAULT_INPUT_LEN` admissible characters,
with anything behind its terminator. -/
structure Ready (option : LoginOption) (cells : List Char) : Prop where
  size : cells.length = inputSize
  admissible : option.Admissible (cString cells)
  short : (cString cells).length ≤ defaultInputLen

/-- A buffer that is accepted holds exactly the text left visible in the line: 6 to 20 printable
characters of a password, or letters, digits and at most one underscore of a name. A buffer that is
refused is empty, and nothing is written behind index `DEFAULT_INPUT_LEN`. -/
structure Accepts (option : LoginOption) (cells line : List Char) (keys : List LoginKey) : Prop where
  same : ((input option cells line keys).1, (input option cells line keys).2.cells) =
    getLoginInput option cells keys
  shown : (getLoginInput option cells keys).1 = true →
    (input option cells line keys).2.line =
      visible option (cString (getLoginInput option cells keys).2)
  text : (getLoginInput option cells keys).1 = true →
    minPwLen ≤ (cString (getLoginInput option cells keys).2).length ∧
      (cString (getLoginInput option cells keys).2).length ≤ defaultInputLen ∧
      (cString (getLoginInput option cells keys).2).all option.char = true ∧
      (option = .name → (cString (getLoginInput option cells keys).2).count '_' ≤ 1)
  refused : (getLoginInput option cells keys).1 = false →
    cString (getLoginInput option cells keys).2 = []
  written : ∀ index ∈ (input option cells line keys).2.written, index ≤ defaultInputLen
  behind : (getLoginInput option cells keys).2.drop (defaultInputLen + 1) =
    cells.drop (defaultInputLen + 1)

/-- The line shows the text. Behind a text that is too short to be accepted, stale characters may
stand in the columns that have to be written first. -/
structure Shows (option : LoginOption) (text line : List Char) : Prop where
  text_eq : line.take text.length = text.map option.echo
  blank : line.drop (max text.length minPwLen) =
    List.replicate (lineWidth - max text.length minPwLen) ' '

end LoginLine

/-! ## Admissible texts -/

theorem cString_of_solid {text : List Char} (solid : nulChar ∉ text) : cString text = text :=
  List.takeWhile_eq_self_iff.mpr fun _ member =>
    bne_iff_ne.mpr fun same => solid (same ▸ member)

/-- A name takes an underscore when there is none. -/
theorem checkLoginInputChar_name {cells : List Char} {character : Char} :
    checkLoginInputChar cells character .name = true ↔
      loginNameChar character = true ∧ (character = '_' → '_' ∉ cString cells) := by
  rw [checkLoginInputChar, Bool.and_eq_true_iff, Bool.not_eq_true', Bool.and_eq_false_imp,
    beq_iff_eq, List.contains_eq_mem, decide_eq_false_iff_not]

/-- What a text may be extended by, it may be extended by when less is in the buffer. -/
theorem checkLoginInputChar_subset {cells text : List Char} {character : Char}
    {option : LoginOption} (subset : cString text ⊆ cString cells)
    (admits : checkLoginInputChar cells character option = true) :
    checkLoginInputChar text character option = true := by
  cases option with
  | name =>
      have admitted := checkLoginInputChar_name.mp admits
      exact checkLoginInputChar_name.mpr
        ⟨admitted.1, fun underscore member => admitted.2 underscore (subset member)⟩
  | password => exact admits

namespace LoginOption.Admissible

variable {option : LoginOption} {text : List Char}

theorem of_append (admissible : option.Admissible text) {front rest : List Char}
    (split : text = front ++ rest) : option.Admissible front := by
  intro before character behind begins
  apply admissible before character (behind ++ rest)
  rw [split, begins, List.append_assoc, List.cons_append]

theorem dropLast (admissible : option.Admissible text) : option.Admissible text.dropLast := by
  rcases List.eq_nil_or_concat' text with rfl | ⟨front, last, rfl⟩
  · exact admissible
  · rw [List.dropLast_concat]
    exact admissible.of_append rfl

theorem concat (admissible : option.Admissible text) {character : Char}
    (admits : checkLoginInputChar text character option = true) :
    option.Admissible (text ++ [character]) := by
  intro front other rest split
  rcases List.eq_nil_or_concat' rest with rfl | ⟨rest, last, rfl⟩
  · rcases List.append_inj' split rfl with ⟨rfl, same⟩
    rw [← (List.cons.inj same).1]
    exact admits
  · rw [← List.cons_append, ← List.append_assoc] at split
    exact admissible front other rest (List.append_inj' split rfl).1

theorem chars (admissible : option.Admissible text) : text.all option.char = true := by
  apply List.all_eq_true.mpr
  intro character member
  rcases List.append_of_mem member with ⟨front, rest, split⟩
  exact checkLoginInputChar_char (admissible front character rest split)

theorem underscores (admissible : LoginOption.name.Admissible text) : text.count '_' ≤ 1 := by
  induction text using List.reverseRecOn with
  | nil => exact Nat.zero_le 1
  | append_singleton text last induction =>
      have before := admissible.of_append rfl
      have admits := checkLoginInputChar_name.mp (admissible text last [] rfl)
      rw [cString_of_solid (LoginOption.solid before.chars)] at admits
      rw [List.count_append, List.count_singleton]
      by_cases underscore : last = '_'
      · rw [List.count_eq_zero.mpr (admits.2 underscore), Nat.zero_add]
        split
        · exact Nat.le_refl 1
        · exact Nat.zero_le 1
      · rw [beq_eq_false_iff_ne.mpr underscore]
        exact induction before

end LoginOption.Admissible

/-- The admissible texts by their characters. -/
theorem LoginOption.admissible_iff {option : LoginOption} {text : List Char} :
    option.Admissible text ↔
      text.all option.char = true ∧ (option = .name → text.count '_' ≤ 1) := by
  constructor
  · intro admissible
    refine ⟨admissible.chars, ?_⟩
    rintro rfl
    exact admissible.underscores
  · rintro ⟨chars, underscores⟩ front character rest split
    have admitted : option.char character = true :=
      List.all_eq_true.mp chars character (split ▸ List.mem_append_cons_self)
    cases option with
    | name =>
        refine checkLoginInputChar_name.mpr ⟨admitted, ?_⟩
        rintro rfl member
        have once := underscores rfl
        have before : 0 < front.count '_' :=
          List.count_pos_iff.mpr ((List.takeWhile_subset _) member)
        rw [split, List.count_append, List.count_cons_self] at once
        omega
    | password => exact admitted

/-! ## The line -/

theorem LoginOption.char_letter (option : LoginOption) : option.char 'a' = true := by
  cases option with
  | name =>
      show loginNameChar 'a' = true
      decide
  | password =>
      show loginPasswordChar 'a' = true
      decide

theorem checkLoginInputChar_letter (cells : List Char) (option : LoginOption) :
    checkLoginInputChar cells 'a' option = true := by
  cases option with
  | name =>
      exact checkLoginInputChar_name.mpr
        ⟨LoginOption.char_letter .name, fun underscore => absurd underscore (by decide)⟩
  | password => exact LoginOption.char_letter .password

namespace LoginLine

section Shows

variable {option : LoginOption} {text line : List Char}

theorem Shows.blank_of_le (shows : Shows option text line) {column : Nat}
    (later : max text.length minPwLen ≤ column) :
    line.drop column = List.replicate (lineWidth - column) ' ' := by
  have split : column = max text.length minPwLen + (column - max text.length minPwLen) := by omega
  rw [split, ← List.drop_drop, shows.blank, List.drop_replicate, Nat.sub_sub]

/-- A character is written behind the text. -/
theorem Shows.type (shows : Shows option text line) (width : line.length = lineWidth)
    (room : text.length < defaultInputLen) (character : Char) :
    Shows option (text ++ [character]) (line.set text.length (option.echo character)) := by
  have inside : text.length < line.length := by
    rw [width]
    exact Nat.lt_succ_of_lt room
  have front : (line.take text.length).length = text.length :=
    List.length_take.trans (Nat.min_eq_left inside.le)
  refine ⟨?_, ?_⟩
  · rw [set_eq_append inside, List.length_append, List.take_append, front, Nat.add_sub_cancel_left,
      List.take_of_length_le (by rw [front]; exact Nat.le_add_right _ _), shows.text_eq,
      List.map_append]
    rfl
  · have later : max text.length minPwLen ≤ max (text ++ [character]).length minPwLen := by
      rw [List.length_append]
      omega
    have behind : text.length < max (text ++ [character]).length minPwLen := by
      rw [List.length_append, List.length_singleton]
      omega
    rw [List.drop_set_of_lt behind]
    exact shows.blank_of_le later

/-- The last character goes, and what stands behind it moves up. -/
theorem Shows.erase (shows : Shows option text line) (width : line.length = lineWidth)
    (short : text.length ≤ defaultInputLen) :
    Shows option text.dropLast (line.eraseIdx (text.length - 1) ++ [' ']) := by
  have size : lineWidth = defaultInputLen + 1 := rfl
  have least : minPwLen < defaultInputLen := by decide
  have length : text.dropLast.length = text.length - 1 := List.length_dropLast
  have front : (line.take (text.length - 1)).length = text.length - 1 := by
    rw [List.length_take]
    omega
  have shifted : line.eraseIdx (text.length - 1) ++ [' '] =
      line.take (text.length - 1) ++ (line.drop (text.length - 1 + 1) ++ [' ']) := by
    rw [List.eraseIdx_eq_take_drop_succ, List.append_assoc]
  refine ⟨?_, ?_⟩
  · have shorter := congrArg (List.take (text.length - 1)) shows.text_eq
    rw [List.take_take, Nat.min_eq_left (Nat.sub_le _ _), ← List.map_take] at shorter
    rw [shifted, length, List.take_append_of_le_length front.ge, List.take_of_length_le front.le,
      shorter, List.dropLast_eq_take]
  · have gap : text.length - 1 + 1 + (max (text.length - 1) minPwLen - (text.length - 1)) =
        max (text.length - 1) minPwLen + 1 := by omega
    have inside : max (text.length - 1) minPwLen - (text.length - 1) ≤
        (line.drop (text.length - 1 + 1)).length := by
      rw [List.length_drop]
      omega
    rw [shifted, length, List.drop_append, front,
      List.drop_eq_nil_of_le (by rw [front]; exact le_max_left _ _), List.nil_append,
      List.drop_append_of_le_length inside, List.drop_drop, gap,
      shows.blank_of_le (by omega), ← List.replicate_succ']
    congr 1
    omega

/-- A text that is long enough is all that the line shows. -/
theorem Shows.visible (shows : Shows option text line) (long : minPwLen ≤ text.length) :
    line = visible option text := by
  have blank := shows.blank
  rw [Nat.max_eq_left long] at blank
  rw [LoginLine.visible, ← shows.text_eq, ← blank, List.take_append_drop]

end Shows

/-! ## The buffer and the line -/

/-- A text stands at the start of the buffer, and nothing was written behind index
`DEFAULT_INPUT_LEN`. -/
structure Follows (option : LoginOption) (behind text : List Char) (state : LoginLine) : Prop where
  typing : Typing option text (state.cells, state.i)
  admissible : option.Admissible text
  written : ∀ index ∈ state.written, index ≤ defaultInputLen
  behind : state.cells.drop (defaultInputLen + 1) = behind
  width : state.line.length = lineWidth

/-- The text after a key. -/
def typed (option : LoginOption) (state : LoginLine) (text : List Char) (key : LoginKey) :
    List Char :=
  typeKey (fun character => checkLoginInputChar state.cells character option) text key

theorem press_cells (option : LoginOption) (state : LoginLine) (key : LoginKey) :
    ((press option state key).cells, (press option state key).i) =
      loginKey option (state.cells, state.i) key := by
  cases key with
  | character character =>
      rw [press, loginKey]
      split
      · rfl
      · rfl
  | backspace => rfl
  | other => rfl

section Follows

variable {option : LoginOption} {behind text : List Char} {state : LoginLine}
  (follows : Follows option behind text state)
include follows

theorem Follows.position : state.i = text.length := follows.typing.position

theorem Follows.inside : state.i ≤ defaultInputLen :=
  follows.position.le.trans follows.typing.atMost

/-- The text is part of what the raw buffer holds. -/
theorem Follows.subset : cString text ⊆ cString state.cells := by
  have split := List.take_append_drop text.length state.cells
  rw [follows.typing.stands] at split
  have solid : ∀ character ∈ text, (character != nulChar) = true := by
    intro character member
    rw [bne_iff_ne]
    rintro rfl
    exact LoginOption.solid follows.typing.chars member
  rw [← split, cString_of_solid (LoginOption.solid follows.typing.chars), cString,
    List.takeWhile_append_of_pos solid]
  exact List.subset_append_left _ _

theorem Follows.press (key : LoginKey) :
    Follows option behind (typed option state text key) (press option state key) := by
  have inside := follows.inside
  refine ⟨?_, ?_, ?_, ?_, ?_⟩
  · rw [press_cells]
    exact follows.typing.key key
  · rw [typed]
    cases key with
    | character character =>
        rw [typeKey]
        split
        next accepted =>
          exact follows.admissible.concat (checkLoginInputChar_subset follows.subset accepted.1)
        next => exact follows.admissible
    | backspace => exact follows.admissible.dropLast
    | other => exact follows.admissible
  · intro index member
    cases key with
    | character character =>
        rw [LoginLine.press] at member
        split at member
        next =>
          rcases List.mem_append.mp member with earlier | now
          · exact follows.written index earlier
          · exact List.mem_singleton.mp now ▸ inside
        next => exact follows.written index member
    | backspace =>
        rcases List.mem_append.mp member with earlier | now
        · exact follows.written index earlier
        · exact List.mem_singleton.mp now ▸ (Nat.sub_le _ _).trans inside
    | other => exact follows.written index member
  · cases key with
    | character character =>
        rw [LoginLine.press]
        split
        next => exact (List.drop_set_of_lt (Nat.lt_succ_of_le inside)).trans follows.behind
        next => exact follows.behind
    | backspace =>
        exact (List.drop_set_of_lt (Nat.lt_succ_of_le ((Nat.sub_le _ _).trans inside))).trans
          follows.behind
    | other => exact follows.behind
  · cases key with
    | character character =>
        rw [LoginLine.press]
        split
        next => exact List.length_set.trans follows.width
        next => exact follows.width
    | backspace =>
        have column : state.i - 1 < state.line.length := by
          rw [follows.width]
          exact Nat.lt_succ_of_le ((Nat.sub_le _ _).trans inside)
        show (state.line.eraseIdx (state.i - 1) ++ [' ']).length = lineWidth
        rw [List.length_append, List.length_eraseIdx_of_lt column, follows.width]
        rfl
    | other => exact follows.width

/-- The line keeps showing the text. -/
theorem Follows.shows_press (shows : Shows option text state.line) (key : LoginKey) :
    Shows option (typed option state text key) (LoginLine.press option state key).line := by
  cases key with
  | character character =>
      rw [LoginLine.press, typed, typeKey, follows.position]
      by_cases accepted : checkLoginInputChar state.cells character option ∧
        text.length < defaultInputLen
      · rw [if_pos accepted, if_pos accepted]
        exact shows.type follows.width accepted.2 character
      · rw [if_neg accepted, if_neg accepted]
        exact shows
  | backspace =>
      show Shows option text.dropLast (state.line.eraseIdx (state.i - 1) ++ [' '])
      rw [follows.position]
      exact shows.erase follows.width follows.typing.atMost
  | other => exact shows

theorem Follows.run (keys : List LoginKey) :
    ∃ last, Follows option behind last (Execution.run (LoginLine.press option) state keys) ∧
      (Shows option text state.line →
        Shows option last (Execution.run (LoginLine.press option) state keys).line) := by
  induction keys generalizing state text with
  | nil => exact ⟨text, follows, fun shows => shows⟩
  | cons key keys induction =>
      rcases induction (follows.press key) with ⟨last, later, keeps⟩
      exact ⟨last, later, fun shows => keeps (follows.shows_press shows key)⟩

/-- Letters typed behind the text touch no other column. -/
theorem Follows.letters (count : Nat) (room : text.length + count ≤ defaultInputLen) :
    Follows option behind (text ++ List.replicate count 'a')
        (Execution.run (LoginLine.press option) state
          (List.replicate count (.character 'a'))) ∧
      (Execution.run (LoginLine.press option) state
          (List.replicate count (.character 'a'))).line.take text.length =
        state.line.take text.length ∧
      (Execution.run (LoginLine.press option) state
          (List.replicate count (.character 'a'))).line.drop (text.length + count) =
        state.line.drop (text.length + count) := by
  induction count generalizing state text with
  | zero =>
      rw [List.replicate_zero, List.append_nil]
      exact ⟨follows, rfl, rfl⟩
  | succ count induction =>
      have accepted : checkLoginInputChar state.cells 'a' option ∧
          text.length < defaultInputLen :=
        ⟨checkLoginInputChar_letter _ _, by omega⟩
      have next := follows.press (.character 'a')
      rw [typed, typeKey, if_pos accepted] at next
      have length : (text ++ ['a']).length = text.length + 1 := List.length_append
      have line : (LoginLine.press option state (.character 'a')).line =
          state.line.set text.length (option.echo 'a') := by
        rw [LoginLine.press, follows.position, if_pos accepted]
      rcases induction next (by rw [length]; omega) with ⟨later, front, rest⟩
      rw [length, line] at front rest
      have shorter := congrArg (List.take text.length) front
      rw [List.take_take, List.take_take, Nat.min_eq_left (Nat.le_succ _),
        List.take_set_of_le (Nat.le_refl _)] at shorter
      rw [List.drop_set_of_lt (by omega), Nat.add_assoc, Nat.add_comm 1] at rest
      rw [List.append_assoc] at later
      exact ⟨later, shorter, rest⟩

/-- What the end of the line leaves. -/
theorem Follows.enter :
    state.enter.1 = decide (minPwLen ≤ text.length) ∧
      cString state.enter.2.cells = (if minPwLen ≤ text.length then text else []) ∧
      (minPwLen ≤ text.length → state.enter.2.line = state.line) ∧
      (∀ index ∈ state.enter.2.written, index ≤ defaultInputLen) ∧
      state.enter.2.cells.drop (defaultInputLen + 1) = behind := by
  have inside := follows.inside
  by_cases long : minPwLen ≤ text.length
  · have kept : ¬state.i < minPwLen := by
      rw [follows.position]
      exact Nat.not_lt.mpr long
    rw [LoginLine.enter, if_neg kept, if_pos long]
    refine ⟨(decide_eq_true long).symm, follows.typing.cString_terminated, fun _ => rfl, ?_, ?_⟩
    · intro index member
      rcases List.mem_append.mp member with earlier | now
      · exact follows.written index earlier
      · exact List.mem_singleton.mp now ▸ inside
    · exact (List.drop_set_of_lt (Nat.lt_succ_of_le inside)).trans follows.behind
  · have refused : state.i < minPwLen := by
      rw [follows.position]
      exact Nat.not_le.mp long
    rw [LoginLine.enter, if_pos refused, if_neg long]
    refine ⟨(decide_eq_false long).symm, cString_cleared follows.typing.size,
      fun enough => absurd enough long, ?_, ?_⟩
    · intro index member
      rcases List.mem_append.mp member with earlier | now
      · exact follows.written index earlier
      · exact List.mem_singleton.mp now ▸ Nat.zero_le _
    · exact (List.drop_set_of_lt (Nat.succ_pos _)).trans follows.behind

end Follows

theorem Ready.follows {option : LoginOption} {cells : List Char} (ready : Ready option cells)
    {line : List Char} (width : line.length = lineWidth) :
    Follows option (cells.drop (defaultInputLen + 1)) (cString cells) (start cells line) where
  typing :=
    { size := ready.size
      position := rfl
      stands := (List.prefix_iff_eq_take.mp (List.takeWhile_prefix _)).symm
      chars := ready.admissible.chars
      atMost := ready.short }
  admissible := ready.admissible
  written := by
    intro index member
    exact absurd member List.not_mem_nil
  behind := rfl
  width := width

/-- The buffer with its line is the buffer of `get_login_input`. -/
theorem input_cells (option : LoginOption) (cells line : List Char) (keys : List LoginKey) :
    ((input option cells line keys).1, (input option cells line keys).2.cells) =
      getLoginInput option cells keys := by
  have keyed (state : LoginLine) :
      ((Execution.run (press option) state keys).cells, (Execution.run (press option) state keys).i) =
        keys.foldl (loginKey option) (state.cells, state.i) := by
    induction keys generalizing state with
    | nil => rfl
    | cons key keys induction =>
        rw [Execution.run, induction, press_cells]
        rfl
  have typed : loginKeys option cells keys =
      ((Execution.run (press option) (start cells line) keys).cells,
        (Execution.run (press option) (start cells line) keys).i) := (keyed (start cells line)).symm
  rw [getLoginInput, typed, input, enter]
  split
  · rfl
  · rfl

theorem Ready.accepts {option : LoginOption} {cells line : List Char}
    (ready : Ready option cells) (width : line.length = lineWidth)
    (shows : Shows option (cString cells) line) (keys : List LoginKey) :
    Accepts option cells line keys := by
  rcases (ready.follows width).run keys with ⟨text, follows, keeps⟩
  rcases follows.enter with ⟨result, stored, line_eq, written, behind⟩
  have same := input_cells option cells line keys
  have accepted : (getLoginInput option cells keys).1 = decide (minPwLen ≤ text.length) := by
    rw [← same]
    exact result
  have buffer : cString (getLoginInput option cells keys).2 =
      if minPwLen ≤ text.length then text else [] := by
    rw [← same]
    exact stored
  refine ⟨same, ?_, ?_, ?_, written, ?_⟩
  · intro success
    have long := of_decide_eq_true (accepted.symm.trans success)
    rw [buffer, if_pos long]
    exact (line_eq long).trans ((keeps shows).visible long)
  · intro success
    have long := of_decide_eq_true (accepted.symm.trans success)
    rw [buffer, if_pos long]
    exact ⟨long, follows.typing.atMost, LoginOption.admissible_iff.mp follows.admissible⟩
  · intro failure
    rw [buffer, if_neg (of_decide_eq_false (accepted.symm.trans failure))]
  · rw [← same]
    exact behind

/-- As many letters as are needed for a text that is accepted tell what the line showed before. -/
theorem Ready.shows {option : LoginOption} {cells line : List Char} (ready : Ready option cells)
    (width : line.length = lineWidth)
    (accepts : Accepts option cells line
      (List.replicate (minPwLen - (cString cells).length) (.character 'a'))) :
    Shows option (cString cells) line := by
  have size : lineWidth = defaultInputLen + 1 := rfl
  have least : minPwLen < defaultInputLen := by decide
  have short := ready.short
  rcases (ready.follows width).letters (minPwLen - (cString cells).length) (by omega) with
    ⟨follows, front, rest⟩
  rcases follows.enter with ⟨result, stored, line_eq, _, _⟩
  have length : (cString cells ++
      List.replicate (minPwLen - (cString cells).length) 'a').length =
        max (cString cells).length minPwLen := by
    rw [List.length_append, List.length_replicate]
    omega
  have long : minPwLen ≤ (cString cells ++
      List.replicate (minPwLen - (cString cells).length) 'a').length := by
    rw [length]
    exact le_max_right _ _
  have total : (cString cells).length + (minPwLen - (cString cells).length) =
      max (cString cells).length minPwLen := by omega
  rw [total] at rest
  have shown := accepts.shown
  rw [← accepts.same] at shown
  have final := (line_eq long).symm.trans (shown (result.trans (decide_eq_true long)))
  rw [input, stored, if_pos long, visible, length] at final
  refine ⟨?_, ?_⟩
  · rw [final, List.map_append, List.append_assoc,
      List.take_append_of_le_length (List.length_map _).ge,
      List.take_of_length_le (List.length_map _).le] at front
    exact front.symm
  · rw [final, List.drop_append_of_le_length (by rw [List.length_map, length]),
      List.drop_eq_nil_of_le (by rw [List.length_map, length]), List.nil_append] at rest
    exact rest.symm

/-- `get_login_input` accepts what is visible, whatever is typed, exactly when the line shows the
text of the buffer at the call. -/
theorem accepts_iff_shows (option : LoginOption) (cells line : List Char)
    (ready : Ready option cells) (width : line.length = lineWidth) :
    (∀ keys, Accepts option cells line keys) ↔ Shows option (cString cells) line :=
  ⟨fun accepts => ready.shows width (accepts _), ready.accepts width⟩

/-- A name was cut to two letters before this call, and its `_` is still in the buffer. -/
def staleName : List Char :=
  "ab".toList ++ nulChar :: "d_f".toList ++ List.replicate 59 nulChar

def staleKeys : List LoginKey :=
  [.character '_', .backspace, .character 'c', .character '_', .character 'd', .character 'e',
    .character 'f', .character '1']

theorem stale_name_accepts :
    Accepts .name staleName (visible .name "ab".toList) staleKeys ∧
      getLoginInput .name staleName staleKeys =
        (true, "abcdef1".toList ++ List.replicate 58 nulChar) :=
  ⟨(accepts_iff_shows .name staleName _
      ⟨by decide, LoginOption.admissible_iff.mpr ⟨by decide, fun _ => by decide⟩, by decide⟩
      (by decide)).mpr ⟨by decide, by decide⟩ staleKeys, by decide⟩

/-- The register page asks for the password to be repeated on a cleared line, in a buffer that
still holds the repetition before. -/
def repeatedPassword : List Char :=
  let keys := "Secret1x".toList.map LoginKey.character
  ((RegisterPage.initial (List.replicate inputSize nulChar)).step none
    (.password ⟨keys, keys⟩)).tempStr

theorem repetition_not_visible :
    Ready .password repeatedPassword ∧ ¬Accepts .password repeatedPassword blankLine [] := by
  have stored : repeatedPassword = "Secret1x".toList ++ List.replicate 57 nulChar := by decide
  refine ⟨⟨?_, ?_, ?_⟩, ?_⟩
  · rw [stored]
    decide
  · rw [stored]
    exact LoginOption.admissible_iff.mpr ⟨by decide, fun name => by cases name⟩
  · rw [stored]
    decide
  · intro accepts
    have shown := accepts.shown
    rw [stored] at shown
    exact absurd (shown (by decide)) (by decide)

/-! ## From call to call -/

theorem Ready.getLoginInput {option : LoginOption} {cells : List Char}
    (ready : Ready option cells) (keys : List LoginKey) :
    Ready option (getLoginInput option cells keys).2 := by
  have width : blankLine.length = lineWidth := List.length_replicate
  rcases (ready.follows width).run keys with ⟨text, follows, _⟩
  rcases follows.enter with ⟨_, stored, _, _, _⟩
  rw [← input_cells option cells blankLine]
  refine ⟨?_, ?_, ?_⟩
  · rw [input, LoginLine.enter]
    split
    · exact List.length_set.trans follows.typing.size
    · exact List.length_set.trans follows.typing.size
  · rw [input, stored]
    split
    · exact follows.admissible
    · exact follows.admissible.of_append (List.nil_append _).symm
  · rw [input, stored]
    split
    · exact follows.typing.atMost
    · exact Nat.zero_le _

/-- The pages call `get_login_input` again on the buffer that the call before left. -/
theorem Ready.calls {option : LoginOption} {cells : List Char} (ready : Ready option cells)
    (calls : List (List LoginKey)) :
    Ready option
      (Execution.run (fun cells keys => (Bookshelfdq.getLoginInput option cells keys).2) cells
        calls) :=
  Execution.run_invariant (fun _ keys before => before.getLoginInput keys) ready calls

end LoginLine

end Bookshelfdq
