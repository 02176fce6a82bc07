import Bookshelfdq.Client.DisplayBuffers
import Bookshelfdq.Client.SearchBytes
import Bookshelfdq.Server.LikePatterns
import Bookshelfdq.Session.Paging

/-! # Searching by keyword

The way of a keyword from the search page to the books found. It passes the buffers of the
search entry, the display of the search box, which cuts characters out of name and author, and
the patterns of the server. -/

namespace Bookshelfdq

/-! ## The search entry -/

/-- What `limit_str_width` leaves of the field behind its mode. -/
def shownField (field : String) : String :=
  match field.toList with
  | [] => field
  | mode :: value => searchField mode (limitedFrom DisplayCall.searchboxName.strLimit 0 value)

/-- What `show_searchbox_info` leaves of the entry that it shows. -/
def showSearchboxInfo (localBook : BookEntry) : BookEntry :=
  if localBook.borrowed = '1' then localBook
  else if localBook.onReading = '1' then localBook
  else
    { localBook with
      name := shownField localBook.name
      author := shownField localBook.author }

/-- `local_book` when the search begins. -/
def searchEntry (keyword : List Char) (shelfno : Int) : BookEntry :=
  { showSearchboxInfo (handleSearchbookKeyword keyword .zeroed).userBook with shelfno := shelfno }

theorem shownField_searchField (mode : Char) (value : List Char) :
    shownField (searchField mode value) =
      searchField mode (limitedFrom DisplayCall.searchboxName.strLimit 0 value) := by
  rw [shownField, searchField, String.toList_ofList]

theorem limitedFrom_again (limit used : Nat) (text : List Char) :
    limitedFrom limit used (limitedFrom limit used text) = limitedFrom limit used text := by
  induction text generalizing used with
  | nil => rfl
  | cons character text induction =>
      rw [limitedFrom]
      by_cases ascii : character.toNat ≤ 0x7F
      · rw [if_pos ascii]
        split
        case isTrue full => rw [limitedFrom, if_pos ascii, if_pos full]
        case isFalse room => rw [limitedFrom, if_pos ascii, if_neg room, induction]
      · rw [if_neg ascii]
        cases cut : cutChar character with
        | true => exact induction used
        | false =>
            rw [if_neg Bool.false_ne_true]
            split
            case isTrue full =>
              rw [limitedFrom, if_neg ascii, cut, if_neg Bool.false_ne_true, if_pos full]
            case isFalse room =>
              rw [limitedFrom, if_neg ascii, cut, if_neg Bool.false_ne_true, if_neg room, induction]

theorem shownField_again (field : String) : shownField (shownField field) = shownField field := by
  cases characters : field.toList with
  | nil =>
      rw [String.toList_eq_nil_iff.mp characters]
      rfl
  | cons mode value =>
      have whole : field = searchField mode value := by
        rw [searchField, ← characters, String.ofList_toList]
      rw [whole, shownField_searchField, shownField_searchField, limitedFrom_again]

/-- Choosing a shelf shows the entry again, which changes nothing more. -/
theorem showSearchboxInfo_again (localBook : BookEntry) :
    showSearchboxInfo (showSearchboxInfo localBook) = showSearchboxInfo localBook := by
  by_cases borrowed : localBook.borrowed = '1'
  · simp [showSearchboxInfo, borrowed]
  · by_cases onReading : localBook.onReading = '1'
    · simp [showSearchboxInfo, borrowed, onReading]
    · simp [showSearchboxInfo, borrowed, onReading, shownField_again]

/-! ## Cutting -/

/-- The bytes of a text. -/
def byteCount (text : List Char) : Nat := (text.map Char.utf8Size).sum

theorem strncpy_eq_iff (count : Nat) (text : List Char) :
    strncpy count text = text ↔ byteCount text ≤ count := by
  induction text generalizing count with
  | nil => exact ⟨fun _ => Nat.zero_le _, fun _ => rfl⟩
  | cons character text induction =>
      have bytes : byteCount (character :: text) = character.utf8Size + byteCount text := rfl
      rw [strncpy, bytes]
      split
      case isTrue room =>
        rw [List.cons.injEq, eq_self_iff_true, true_and, induction]
        omega
      case isFalse full =>
        refine ⟨fun same => ?_, fun fits => ?_⟩
        · cases same
        · omega

theorem columns_le_utf8Size (character : Char) : columns character ≤ character.utf8Size := by
  have bytes := length_utf8EncodeChar character
  rw [String.length_utf8EncodeChar] at bytes
  omega

theorem textWidth_le_byteCount (text : List Char) : textWidth text ≤ byteCount text := by
  induction text with
  | nil => exact Nat.le_refl 0
  | cons character text induction =>
      have first := columns_le_utf8Size character
      exact Nat.add_le_add first induction

/-- Where there is room for a text the cut characters are dropped from all of it. -/
theorem limitedFrom_of_room {limit used : Nat} {text : List Char}
    (room : used + textWidth text ≤ limit) : limitedFrom limit used text = uncut text := by
  induction text generalizing used with
  | nil => rfl
  | cons character text induction =>
      have width : textWidth (character :: text) = columns character + textWidth text := rfl
      rw [width] at room
      rw [limitedFrom]
      split
      case isTrue ascii =>
        rw [columns_of_ascii ascii] at room
        have kept : uncut (character :: text) = character :: uncut text :=
          List.filter_cons_of_pos (by rw [cutChar_of_ascii ascii]; rfl)
        rw [if_neg (by omega), induction (by omega), kept]
      case isFalse wide =>
        rw [columns_of_wide wide] at room
        split
        case isTrue cut =>
          have dropped : uncut (character :: text) = uncut text :=
            List.filter_cons_of_neg (by rw [cut]; decide)
          rw [induction (by omega), dropped]
        case isFalse uncutIt =>
          have kept : uncut (character :: text) = character :: uncut text :=
            List.filter_cons_of_pos (by rw [Bool.eq_false_iff.mpr uncutIt]; rfl)
          rw [if_neg (by omega), induction (by omega), kept]

theorem limitedFrom_short_iff {text : List Char} (short : byteCount text ≤ labelNameLen - 1) :
    limitedFrom DisplayCall.searchboxName.strLimit 0 text = text ↔
      ∀ character ∈ text, cutChar character = false := by
  have width := textWidth_le_byteCount text
  have label : labelNameLen - 1 = 17 := rfl
  have limit : DisplayCall.searchboxName.strLimit = 38 := rfl
  rw [limitedFrom_of_room (by omega), uncut, List.filter_eq_self]
  simp

section Fuzzy

variable {collation : Char → Char → Bool} {keyword : List Char} (fuzzy : '=' ∉ keyword)

/-- What is left of the keyword in each field. -/
def keptName (keyword : List Char) : List Char :=
  limitedFrom DisplayCall.searchboxName.strLimit 0 (strncpy (bookNameLen - 1) (stringFilter keyword))

def keptAuthor (keyword : List Char) : List Char :=
  limitedFrom DisplayCall.searchboxName.strLimit 0
    (strncpy (authorNameLen - 1) (stringFilter keyword))

def keptLabel (keyword : List Char) : List Char :=
  strncpy (labelNameLen - 1) (stringFilter keyword)

include fuzzy

/-- The keyword is plain, fits the label and has no character that the display cuts out. -/
structure LiteralKeyword (keyword : List Char) : Prop where
  plain : plainPattern (stringFilter keyword) = true
  short : byteCount (stringFilter keyword) ≤ labelNameLen - 1
  uncut : ∀ character ∈ stringFilter keyword, cutChar character = false

omit fuzzy in
theorem LiteralKeyword.kept (literal : LiteralKeyword keyword) :
    keptName keyword = stringFilter keyword ∧ keptAuthor keyword = stringFilter keyword ∧
      keptLabel keyword = stringFilter keyword := by
  have name : strncpy (bookNameLen - 1) (stringFilter keyword) = stringFilter keyword :=
    (strncpy_eq_iff _ _).mpr (Nat.le_trans literal.short (by decide))
  have author : strncpy (authorNameLen - 1) (stringFilter keyword) = stringFilter keyword :=
    (strncpy_eq_iff _ _).mpr (Nat.le_trans literal.short (by decide))
  have shown := (limitedFrom_short_iff literal.short).mpr literal.uncut
  refine ⟨?_, ?_, (strncpy_eq_iff _ _).mpr literal.short⟩
  · rw [keptName, name, shown]
  · rw [keptAuthor, author, shown]

end Fuzzy

/-! ## Clauses -/

namespace SearchedField

/-- What is left of a value when it has been shown. -/
def shown : SearchedField → List Char → List Char
  | .name, value => limitedFrom DisplayCall.searchboxName.strLimit 0 value
  | .author, value => limitedFrom DisplayCall.searchboxName.strLimit 0 value
  | .label, value => value

def column : SearchedField → BookRow → String
  | .name => BookRow.name
  | .author => BookRow.author
  | .label => BookRow.label

end SearchedField

section Ranged

variable {collation : Char → Char → Bool} {clauses : List RangedClause} (some : clauses ≠ [])

include some

end Ranged

section Literal

variable {collation : Char → Char → Bool} (collates : Collates collation)
  {clauses : List RangedClause} (some : clauses ≠ [])

include collates

include some

end Literal

/-! ## Both kinds of keywords -/

end Bookshelfdq
