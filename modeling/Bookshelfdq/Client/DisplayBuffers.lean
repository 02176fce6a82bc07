import Bookshelfdq.Client.LimitStrWidth

/-! # The buffers for displayed text

The pages pass `limit_str_width` a buffer of 64 bytes. The limit is in columns, and a
character of two columns may take four bytes. -/

namespace Bookshelfdq

/-! ## The calls -/

/-- The calls of `limit_str_width`, after the page and the field. -/
inductive DisplayCall
  | searchboxName
  | searchboxAuthor
  | shelvesName
  | bookAuthor
  | bookShelf
  | bookLabels
  | newbookName
  | newbookAuthor
  | pageName
deriving DecidableEq

namespace DisplayCall

/-- `str_limit`. -/
def strLimit : DisplayCall → Nat
  | .searchboxName => 38
  | .searchboxAuthor => 38
  | .shelvesName => 24
  | .bookAuthor => 18
  | .bookShelf => 18
  | .bookLabels => 18
  | .newbookName => 30
  | .newbookAuthor => 30
  | .pageName => 16

/-- The bytes that the field holds before its terminator. A search field begins with the mode
of the search, and a row has two labels and a comma. -/
def capacity : DisplayCall → Nat
  | .searchboxName => 191
  | .searchboxAuthor => 95
  | .shelvesName => 192
  | .bookAuthor => 96
  | .bookShelf => 192
  | .bookLabels => 37
  | .newbookName => 192
  | .newbookAuthor => 96
  | .pageName => 192

end DisplayCall

/-- The size of `str_show`. -/
@[reducible] def strShowSize : Nat := 64

/-- What is written, the terminator included, fits the buffer. -/
def FitsStrShow (limit : Nat) (text : List Char) : Prop :=
  ∀ after, ∃ oldstr newstr, limitStrWidthAt limit (utf8 text ++ 0 :: after) =
    some (oldstr, newstr) ∧ newstr.length + 1 ≤ strShowSize

/-! ## What is displayed -/

/-- The characters that are not cut out. -/
def uncut (text : List Char) : List Char := text.filter fun character => !cutChar character

/-- What fits, and the character behind it unless that is an ASCII character. -/
def displayedPart (limit : Nat) (text : List Char) : List Char :=
  (Displayed.upTo (fitting limit text) (behind limit text)).shown

theorem displayedFrom_uncut (limit used : Nat) (text : List Char) :
    (displayedFrom limit used text).shown = (displayedFrom limit used (uncut text)).shown ∧
      (displayedFrom limit used text).stopped =
        (displayedFrom limit used (uncut text)).stopped := by
  induction text generalizing used with
  | nil => exact ⟨rfl, rfl⟩
  | cons character text induction =>
      cases cut : cutChar character with
      | true =>
          have wide : ¬character.toNat ≤ 0x7F := by
            intro ascii
            rw [cutChar_of_ascii ascii] at cut
            cases cut
          have dropped : uncut (character :: text) = uncut text := by
            rw [uncut, List.filter_cons_of_neg (by simp [cut])]
            rfl
          rw [dropped, displayedFrom, if_neg wide, cut, if_pos rfl]
          exact induction used
      | false =>
          have kept : uncut (character :: text) = character :: uncut text := by
            rw [uncut, List.filter_cons_of_pos (by simp [cut])]
            rfl
          have later : ∀ wider, ((displayedFrom limit wider text).prepend character).shown =
                ((displayedFrom limit wider (uncut text)).prepend character).shown ∧
              ((displayedFrom limit wider text).prepend character).stopped =
                ((displayedFrom limit wider (uncut text)).prepend character).stopped :=
            fun wider => ⟨congrArg (character :: ·) (induction wider).1, (induction wider).2⟩
          rw [kept, displayedFrom, displayedFrom, cut]
          split
          · split
            · exact ⟨rfl, rfl⟩
            · exact later (used + 1)
          · rw [if_neg Bool.false_ne_true, if_neg Bool.false_ne_true]
            split
            · exact ⟨rfl, rfl⟩
            · exact later (used + 2)

/-- What is displayed of a text, and whether it goes on. -/
theorem displayedFrom_shown (limit : Nat) (text : List Char) :
    (displayedFrom limit 0 text).shown = displayedPart limit (uncut text) ∧
      ((displayedFrom limit 0 text).stopped = true ↔ behind limit (uncut text) ≠ []) := by
  rcases displayedFrom_uncut limit 0 text with ⟨shown, stopped⟩
  rcases measures_displayed limit 0 (uncut text) with ⟨none, displays⟩
  rw [Nat.sub_zero] at none displays
  have kept : ∀ character ∈ uncut text, cutChar character = false := by
    intro character member
    simpa using (List.mem_filter.mp member).2
  have measured : (measuredFrom limit 0 (uncut text)).any cutChar = false := by
    refine none.mpr ⟨List.any_eq_false.mpr fun character member => ?_, fun character head => ?_⟩
    · rw [kept character ((fitting_longest limit (uncut text)).begins.subset member)]
      exact Bool.false_ne_true
    · exact kept character (List.mem_of_mem_drop (List.mem_of_head? head))
  rw [shown, stopped, displays measured]
  refine ⟨rfl, ?_⟩
  cases behind limit (uncut text) with
  | nil => exact ⟨fun stops => absurd stops Bool.false_ne_true, fun different => absurd rfl different⟩
  | cons character rest =>
      rw [Displayed.upTo]
      split <;> exact ⟨fun _ => List.cons_ne_nil _ _, fun _ => rfl⟩

/-! ## Bytes -/

/-- The bytes of a character beyond one for each of its columns. -/
def extraBytes (character : Char) : Nat :=
  if character.toNat ≤ 0x7FF then 0 else if character.toNat ≤ 0xFFFF then 1 else 2

theorem length_utf8EncodeChar (character : Char) :
    (String.utf8EncodeChar character).length = columns character + extraBytes character := by
  have value : character.val.toNat = character.toNat := rfl
  rw [String.utf8EncodeChar, value, columns, extraBytes]
  split
  case isTrue one =>
    have two : character.toNat ≤ 0x7FF := by omega
    rw [if_pos two]
    rfl
  · split
    · rfl
    · split <;> rfl

theorem length_utf8 (text : List Char) :
    (utf8 text).length = textWidth text + (text.map extraBytes).sum := by
  induction text with
  | nil => rfl
  | cons character text induction =>
      rw [utf8, List.flatMap_cons, List.length_append, length_utf8EncodeChar, textWidth,
        List.map_cons, List.sum_cons, List.map_cons, List.sum_cons]
      rw [utf8, textWidth] at induction
      omega

theorem extraBytes_le (character : Char) : extraBytes character ≤ columns character := by
  rw [extraBytes, columns]
  split
  · exact Nat.zero_le _
  · have wide : ¬character.toNat ≤ 0x7F := by omega
    rw [if_neg wide]
    split <;> decide

theorem sum_extraBytes_le {factor : Nat} {text : List Char}
    (each : ∀ character ∈ text, factor * extraBytes character ≤ columns character) :
    factor * (text.map extraBytes).sum ≤ textWidth text := by
  induction text with
  | nil => exact Nat.le_refl 0
  | cons character text induction =>
      have first := each character List.mem_cons_self
      have others := induction fun later member => each later (List.mem_cons_of_mem _ member)
      rw [textWidth, List.map_cons, List.sum_cons, List.map_cons, List.sum_cons, Nat.mul_add]
      exact Nat.add_le_add first others

theorem textWidth_displayedPart_le (limit : Nat) (text : List Char) :
    textWidth (displayedPart limit text) ≤ limit + 2 := by
  have fits := (fitting_longest limit text).fits
  rw [displayedPart]
  cases behind limit text with
  | nil => exact Nat.le_add_right_of_le fits
  | cons character rest =>
      rw [Displayed.upTo]
      split
      · exact Nat.le_add_right_of_le fits
      case isFalse wide =>
        rw [textWidth, List.map_append, List.sum_append, List.map_singleton, List.sum_singleton,
          columns_of_wide wide]
        exact Nat.add_le_add_right fits 2

/-! ## The buffer -/

/-- The bytes of the ellipsis, if the text goes on. -/
def ellipsisBytes (limit : Nat) (text : List Char) : Nat :=
  if behind limit text = [] then 0 else 3

theorem fitsStrShow_iff_bytes {text : List Char} (terminated : nulChar ∉ text) (limit : Nat) :
    FitsStrShow limit text ↔ textWidth (displayedPart limit (uncut text)) +
      ((displayedPart limit (uncut text)).map extraBytes).sum +
        ellipsisBytes limit (uncut text) < strShowSize := by
  rcases displayedFrom_shown limit text with ⟨shown, stopped⟩
  have run : ∀ after, limitStrWidthAt limit (utf8 text ++ 0 :: after) =
      some (limitStrWidth (utf8 text) limit) := fun after =>
    limitStrWidthAt_eq (zero_not_mem_utf8 terminated) after limit
  have length : (limitStrWidth (utf8 text) limit).2.length =
      textWidth (displayedPart limit (uncut text)) +
        ((displayedPart limit (uncut text)).map extraBytes).sum +
          ellipsisBytes limit (uncut text) := by
    rw [limitStrWidth_chars, List.length_append, shown, length_utf8, ellipsisBytes]
    split
    case isTrue stops =>
      rw [if_neg (stopped.mp stops)]
      rfl
    case isFalse goes =>
      rw [if_pos (by_contra fun more => goes (stopped.mpr more))]
      rfl
  rw [← length]
  constructor
  · intro fits
    rcases fits [] with ⟨oldstr, newstr, result, short⟩
    rw [run] at result
    rw [Option.some.inj result]
    exact short
  · exact fun short after => ⟨_, _, run after, short⟩

theorem ellipsisBytes_le (limit : Nat) (text : List Char) : ellipsisBytes limit text ≤ 3 := by
  rw [ellipsisBytes]
  split <;> decide

/-- The limits up to 24 leave room for every text. For the others a character of three bytes
takes one byte more than its columns and a character of four bytes takes two. -/
theorem fits_str_show_iff (call : DisplayCall) (text : List Char) (terminated : nulChar ∉ text) :
    FitsStrShow call.strLimit text ↔ call.strLimit ≤ 24 ∨
      textWidth (displayedPart call.strLimit (uncut text)) +
        ((displayedPart call.strLimit (uncut text)).map extraBytes).sum +
          ellipsisBytes call.strLimit (uncut text) < strShowSize := by
  rw [fitsStrShow_iff_bytes terminated]
  constructor
  · exact Or.inr
  · rintro (small | short)
    · have width := textWidth_displayedPart_le call.strLimit (uncut text)
      have extra : 1 * ((displayedPart call.strLimit (uncut text)).map extraBytes).sum ≤
          textWidth (displayedPart call.strLimit (uncut text)) := by
        apply sum_extraBytes_le
        intro character _
        rw [Nat.one_mul]
        exact extraBytes_le character
      have dots := ellipsisBytes_le call.strLimit (uncut text)
      rw [strShowSize]
      omega
    · exact short

theorem new_book_fits :
    (nulChar ∉ ['书', '架', 'a']) ∧ FitsStrShow DisplayCall.newbookName.strLimit ['书', '架', 'a'] :=
  ⟨by decide, (fits_str_show_iff .newbookName ['书', '架', 'a'] (by decide)).mpr
    (Or.inr (by decide))⟩

/-- Twenty characters of four bytes are a search for a name, and sixteen are the name of a new
book. -/
theorem str_show_overflows :
    ((utf8 (List.replicate 20 '𠀀')).length ≤ DisplayCall.searchboxName.capacity ∧
      ¬FitsStrShow DisplayCall.searchboxName.strLimit (List.replicate 20 '𠀀')) ∧
    (utf8 (List.replicate 16 '𠀀')).length ≤ DisplayCall.newbookName.capacity ∧
      ¬FitsStrShow DisplayCall.newbookName.strLimit (List.replicate 16 '𠀀') := by
  have search : ¬FitsStrShow DisplayCall.searchboxName.strLimit (List.replicate 20 '𠀀') := by
    rw [fitsStrShow_iff_bytes (by decide)]
    decide +kernel
  have newbook : ¬FitsStrShow DisplayCall.newbookName.strLimit (List.replicate 16 '𠀀') := by
    rw [fitsStrShow_iff_bytes (by decide)]
    decide +kernel
  exact ⟨⟨by decide +kernel, search⟩, by decide +kernel, newbook⟩

/-! ## Characters of three bytes -/

theorem displayedPart_subset (limit : Nat) (text : List Char) :
    displayedPart limit text ⊆ text := by
  have begins := (fitting_longest limit text).begins
  intro character member
  rw [displayedPart] at member
  cases left : behind limit text with
  | nil =>
      rw [left, Displayed.upTo] at member
      exact begins.subset member
  | cons next rest =>
      have nextMem : next ∈ text := List.mem_of_mem_drop (left ▸ List.mem_cons_self)
      rw [left, Displayed.upTo] at member
      split at member
      · exact begins.subset member
      · rcases List.mem_append.mp member with fit | last
        · exact begins.subset fit
        · rw [List.mem_singleton.mp last]
          exact nextMem

theorem two_mul_extraBytes_le {character : Char} (short : character.toNat ≤ 0xFFFF) :
    2 * extraBytes character ≤ columns character := by
  rw [extraBytes, columns, if_pos short]
  split
  · exact Nat.zero_le _
  · have wide : ¬character.toNat ≤ 0x7F := by omega
    rw [if_neg wide]

/-- The buffer is as large as twenty characters of three bytes, the ellipsis and the
terminator. -/
theorem fitsStrShow_of_three_bytes (call : DisplayCall) {text : List Char}
    (terminated : nulChar ∉ text) (short : ∀ character ∈ text, character.toNat ≤ 0xFFFF) :
    FitsStrShow call.strLimit text := by
  have limit : call.strLimit ≤ 38 := by cases call <;> decide
  have width := textWidth_displayedPart_le call.strLimit (uncut text)
  have dots := ellipsisBytes_le call.strLimit (uncut text)
  have extra : 2 * ((displayedPart call.strLimit (uncut text)).map extraBytes).sum ≤
      textWidth (displayedPart call.strLimit (uncut text)) := by
    apply sum_extraBytes_le
    intro character member
    apply two_mul_extraBytes_le
    exact short character (List.mem_of_mem_filter (displayedPart_subset _ _ member))
  rw [fitsStrShow_iff_bytes terminated, strShowSize]
  omega

end Bookshelfdq
