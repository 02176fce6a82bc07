import Mathlib.Data.List.Infix
import Bookshelfdq.Server.BookRoundTrip

/-! # Search patterns

`srvdb_book_find` puts a text between two percent signs. Escaping it keeps it inside the SQL
literal, but its own percent signs, underscores and backslashes stay alive in the pattern. -/

namespace Bookshelfdq

/-! ## The literal -/

/-- What the SQL parser makes of the inside of a literal. Before a percent sign or an
underscore the backslash is left in place. -/
def literalChars : List Char → List Char
  | [] => []
  | [character] => [character]
  | character :: next :: rest =>
      if character = Char.ofNat 92 then
        if next = '0' then Char.ofNat 0 :: literalChars rest
        else if next = 'n' then Char.ofNat 10 :: literalChars rest
        else if next = 'r' then Char.ofNat 13 :: literalChars rest
        else if next = 'Z' then Char.ofNat 26 :: literalChars rest
        else if next = '%' ∨ next = '_' then character :: next :: literalChars rest
        else next :: literalChars rest
      else character :: literalChars (next :: rest)

theorem literalChars_cons {character : Char} (plain : character ≠ Char.ofNat 92)
    (text : List Char) : literalChars (character :: text) = character :: literalChars text := by
  cases text with
  | nil => rfl
  | cons next rest => rw [literalChars, if_neg plain]

theorem literalChars_escapeChar (character : Char) (text : List Char) :
    literalChars (escapeChar character ++ text) = character :: literalChars text := by
  rw [escapeChar]
  split
  case isTrue zero => rw [zero]; rfl
  case isFalse =>
    split
    case isTrue newline => rw [newline]; rfl
    case isFalse =>
      split
      case isTrue carriage => rw [carriage]; rfl
      case isFalse =>
        split
        case isTrue substitute => rw [substitute]; rfl
        case isFalse =>
          split
          case isTrue quote => rcases quote with rfl | rfl | rfl <;> rfl
          case isFalse plain =>
            exact literalChars_cons (fun backslash => plain (.inr (.inr backslash))) text

/-- Escaping is undone by the parser. -/
theorem literalChars_escape (text rest : List Char) :
    literalChars (text.flatMap escapeChar ++ rest) = text ++ literalChars rest := by
  induction text with
  | nil => rfl
  | cons character text induction =>
      rw [List.flatMap_cons, List.append_assoc, literalChars_escapeChar, induction]
      rfl

/-- The pattern of `LIKE '%text%'`. -/
theorem literalChars_pattern (text : List Char) :
    literalChars ('%' :: text.flatMap escapeChar ++ ['%']) = '%' :: text ++ ['%'] := by
  rw [List.cons_append, literalChars_cons (by decide), literalChars_escape]
  rfl

/-! ## Parts of a text -/

/-- A text stands somewhere in a column, as the collation compares characters. -/
def HasPart (collation : Char → Char → Bool) (part column : List Char) : Prop :=
  ∃ before middle after, column = before ++ middle ++ after ∧ sameChars collation middle part = true

/-- What is needed of a collation: it is reflexive and transitive, and it tells a letter from
the underscore and the percent sign from the backslash. -/
structure Collates (collation : Char → Char → Bool) : Prop where
  refl : ∀ character, collation character character = true
  trans : ∀ {left middle right}, collation left middle = true → collation middle right = true →
    collation left right = true
  letter : collation 'x' '_' = false
  backslash : collation '%' (Char.ofNat 92) = false

/-- No character of the text is special in a pattern. -/
def plainPattern (text : List Char) : Bool :=
  text.all fun character => character != '%' && character != '_' && character != Char.ofNat 92

section Parts

variable {collation : Char → Char → Bool}

theorem length_of_sameChars {left right : List Char} (same : sameChars collation left right = true) :
    left.length = right.length := by
  induction left generalizing right with
  | nil =>
      cases right with
      | nil => rfl
      | cons character right => cases same
  | cons first left induction =>
      cases right with
      | nil => cases same
      | cons character right =>
          rw [sameChars, Bool.and_eq_true] at same
          rw [List.length_cons, List.length_cons, induction same.2]

theorem HasPart.length_le {part column : List Char} (has : HasPart collation part column) :
    part.length ≤ column.length := by
  rcases has with ⟨before, middle, after, rfl, same⟩
  have equal := length_of_sameChars same
  simp only [List.length_append]
  omega

theorem HasPart.sameChars {part column : List Char} (has : HasPart collation part column)
    (short : column.length ≤ part.length) : sameChars collation column part = true := by
  rcases has with ⟨before, middle, after, rfl, same⟩
  have equal := length_of_sameChars same
  simp only [List.length_append] at short
  have noBefore : before = [] := List.eq_nil_of_length_eq_zero (by omega)
  have noAfter : after = [] := List.eq_nil_of_length_eq_zero (by omega)
  rw [noBefore, noAfter, List.nil_append, List.append_nil]
  exact same

theorem sameChars_trans (collates : Collates collation) {left middle right : List Char}
    (first : Bookshelfdq.sameChars collation left middle = true)
    (second : Bookshelfdq.sameChars collation middle right = true) :
    Bookshelfdq.sameChars collation left right = true := by
  induction left generalizing middle right with
  | nil =>
      cases middle with
      | nil => exact second
      | cons character middle => cases first
  | cons character left induction =>
      cases middle with
      | nil => cases first
      | cons next middle =>
          cases right with
          | nil => cases second
          | cons last right =>
              rw [Bookshelfdq.sameChars, Bool.and_eq_true] at first second ⊢
              exact ⟨collates.trans first.1 second.1, induction first.2 second.2⟩

theorem sameChars_append {text left right : List Char}
    (same : Bookshelfdq.sameChars collation text (left ++ right) = true) :
    ∃ front back, text = front ++ back ∧ Bookshelfdq.sameChars collation front left = true ∧
      Bookshelfdq.sameChars collation back right = true := by
  induction left generalizing text with
  | nil => exact ⟨[], text, rfl, rfl, same⟩
  | cons character left induction =>
      cases text with
      | nil => cases same
      | cons first text =>
          rw [List.cons_append, Bookshelfdq.sameChars, Bool.and_eq_true] at same
          rcases induction same.2 with ⟨front, back, rfl, before, after⟩
          refine ⟨first :: front, back, rfl, ?_, after⟩
          rw [Bookshelfdq.sameChars, Bool.and_eq_true]
          exact ⟨same.1, before⟩

/-- A part of a part is a part. -/
theorem HasPart.trans (collates : Collates collation) {part middle column : List Char}
    (inner : HasPart collation part middle) (outer : HasPart collation middle column) :
    HasPart collation part column := by
  rcases inner with ⟨before, exactly, after, rfl, same⟩
  rcases outer with ⟨front, found, back, rfl, matched⟩
  rcases sameChars_append matched with ⟨left, right, rfl, leftSame, _⟩
  rcases sameChars_append leftSame with ⟨early, late, rfl, _, lateSame⟩
  refine ⟨front ++ early, late, right ++ back, by simp, ?_⟩
  exact sameChars_trans collates lateSame same

end Parts

/-! ## Matching -/

section Matching

variable {collation : Char → Char → Bool}

end Matching

end Bookshelfdq
