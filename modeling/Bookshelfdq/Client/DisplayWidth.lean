import Bookshelfdq.Clisrv

/-! # The width of a text on the screen

`limit_str_width` of `ncgui.c` copies as much of a text as fits a line. It takes a lead
byte from `0xD0` to `0xDF` for a broken character, which it cuts out of the text it was
given. -/

namespace Bookshelfdq

/-! ## On bytes -/

def isAscii (byte : UInt8) : Bool := byte &&& 0x80 == 0

/-- The byte is no continuation of a character. The terminator is none either. -/
def startsChar (byte : UInt8) : Bool := byte &&& 0x80 == 0 || byte &&& 0xC0 == 0xC0

/-- The `switch` over the high nibble. -/
def leadStep (byte : UInt8) : Nat :=
  if byte &&& 0xF0 = 0xC0 then 2
  else if byte &&& 0xF0 = 0xE0 then 3
  else if byte &&& 0xF0 = 0xF0 then 4
  else 1

/-- A text split at `sptr`, and `flag_stop`. -/
structure Limited where
  before : List UInt8
  rest : List UInt8
  flagStop : Bool

def Limited.prepend (bytes : List UInt8) (limited : Limited) : Limited :=
  { limited with before := bytes ++ limited.before }

/-- The loop from `sptr` on. Every round shortens the text ahead, so that `fuel` above its
length is never used up. -/
def limitLoop (limit : Nat) : Nat → Nat → List UInt8 → Limited
  | 0, _, text => ⟨[], text, false⟩
  | _ + 1, _, [] => ⟨[], [], false⟩
  | fuel + 1, width, byte :: rest =>
      if isAscii byte then
        if width + 1 > limit then ⟨[], byte :: rest, true⟩
        else (limitLoop limit fuel (width + 1) rest).prepend [byte]
      else
        let text := byte :: rest
        let step := leadStep byte
        if startsChar (text.getD step 0) ∧ step ≤ text.length then
          if width + 2 > limit then ⟨text.take step, text.drop step, true⟩
          else (limitLoop limit fuel (width + 2) (text.drop step)).prepend (text.take step)
        else limitLoop limit fuel width (rest.dropWhile fun next => !startsChar next)

/-- `limit_str_width`: what is left in `oldstr`, and `newstr`. -/
def limitStrWidth (oldstr : List UInt8) (limit : Nat) : List UInt8 × List UInt8 :=
  let limited := limitLoop limit (oldstr.length + 1) 0 oldstr
  (limited.before ++ limited.rest,
    limited.before ++ if limited.flagStop then [0x2E, 0x2E, 0x2E] else [])

/-! ## On characters -/

/-- The characters of two bytes that the `switch` does not know: those of Cyrillic,
Armenian, Hebrew, Arabic, Syriac and a few other scripts. -/
def cutChar (character : Char) : Bool :=
  decide (0x400 ≤ character.toNat) && decide (character.toNat ≤ 0x7FF)

/-- What is left of a text from a column on. -/
def limitedFrom (limit : Nat) : Nat → List Char → List Char
  | _, [] => []
  | width, character :: text =>
      if character.toNat ≤ 0x7F then
        if width + 1 > limit then character :: text
        else character :: limitedFrom limit (width + 1) text
      else if cutChar character then limitedFrom limit width text
      else if width + 2 > limit then character :: text
      else character :: limitedFrom limit (width + 2) text

/-- The characters that are measured, up to the one that does not fit any more. -/
def measuredFrom (limit : Nat) : Nat → List Char → List Char
  | _, [] => []
  | width, character :: text =>
      if character.toNat ≤ 0x7F then
        if width + 1 > limit then [character]
        else character :: measuredFrom limit (width + 1) text
      else if cutChar character then character :: measuredFrom limit width text
      else if width + 2 > limit then [character]
      else character :: measuredFrom limit (width + 2) text

def limitedText (text : String) (limit : Nat) : String :=
  String.ofList (limitedFrom limit 0 text.toList)

theorem length_limitedFrom_le (limit width : Nat) (text : List Char) :
    (limitedFrom limit width text).length ≤ text.length := by
  induction text generalizing width with
  | nil => exact Nat.le_refl 0
  | cons character text induction =>
      have narrow := induction (width + 1)
      have same := induction width
      have wide := induction (width + 2)
      rw [limitedFrom]
      split
      · split
        · exact Nat.le_refl _
        · exact Nat.succ_le_succ narrow
      · split
        · exact Nat.le_succ_of_le same
        · split
          · exact Nat.le_refl _
          · exact Nat.succ_le_succ wide

/-- A text is left alone exactly if no character of the part that is measured is cut. -/
theorem limitedFrom_eq_iff (limit width : Nat) (text : List Char) :
    limitedFrom limit width text = text ↔ (measuredFrom limit width text).any cutChar = false := by
  induction text generalizing width with
  | nil => exact ⟨fun _ => rfl, fun _ => rfl⟩
  | cons character text induction =>
      rw [limitedFrom, measuredFrom]
      by_cases ascii : character.toNat ≤ 0x7F
      · have kept : cutChar character = false := by
          have below : ¬0x400 ≤ character.toNat := by omega
          simp [cutChar, below]
        simp only [if_pos ascii]
        split
        · simp [kept]
        · simp [kept, induction]
      · simp only [if_neg ascii]
        cases cut : cutChar character with
        | true =>
            have shorter := length_limitedFrom_le limit width text
            simp only [if_true, List.any_cons, cut, Bool.true_or, Bool.true_eq_false, iff_false]
            intro equal
            have longer := congrArg List.length equal
            rw [List.length_cons] at longer
            omega
        | false =>
            simp only [Bool.false_eq_true, if_false]
            split
            · simp [cut]
            · simp [cut, induction]

theorem limitedText_eq_iff (text : String) (limit : Nat) :
    limitedText text limit = text ↔
      (measuredFrom limit 0 text.toList).any cutChar = false := by
  rw [← limitedFrom_eq_iff, limitedText]
  constructor
  · intro equal
    have chars := congrArg String.toList equal
    rwa [String.toList_ofList] at chars
  · intro equal
    rw [equal, String.ofList_toList]

/-! ## The two agree -/

/-- The bytes of a text. -/
def utf8 (text : List Char) : List UInt8 := text.flatMap String.utf8EncodeChar

theorem utf8_injective : Function.Injective utf8 := by
  intro left right same
  have bytes : (String.ofList left).toByteArray = (String.ofList right).toByteArray := by
    rw [String.toByteArray_ofList, String.toByteArray_ofList]
    exact congrArg List.toByteArray same
  exact String.ofList_inj.mp (String.toByteArray_inj.mp bytes)

theorem continuation_starts : ∀ bits < 64, startsChar (UInt8.ofNat (bits + 0x80)) = false := by
  decide

theorem lead_two : ∀ bits < 32, isAscii (UInt8.ofNat (bits + 0xC0)) = false ∧
    startsChar (UInt8.ofNat (bits + 0xC0)) = true ∧
    leadStep (UInt8.ofNat (bits + 0xC0)) = if bits < 16 then 2 else 1 := by
  decide

theorem lead_three : ∀ bits < 16, isAscii (UInt8.ofNat (bits + 0xE0)) = false ∧
    startsChar (UInt8.ofNat (bits + 0xE0)) = true ∧
    leadStep (UInt8.ofNat (bits + 0xE0)) = 3 := by
  decide

theorem lead_four : ∀ bits < 8, isAscii (UInt8.ofNat (bits + 0xF0)) = false ∧
    startsChar (UInt8.ofNat (bits + 0xF0)) = true ∧
    leadStep (UInt8.ofNat (bits + 0xF0)) = 4 := by
  decide

theorem ascii_byte : ∀ bits < 128, isAscii (UInt8.ofNat bits) = true ∧
    startsChar (UInt8.ofNat bits) = true := by
  decide

/-- What the loop sees of one character. -/
inductive Encoded (character : Char) : List UInt8 → Prop
  | ascii (byte : UInt8) (narrow : character.toNat ≤ 0x7F) (isAscii : isAscii byte = true)
      (starts : startsChar byte = true) : Encoded character [byte]
  | cut (lead tail : UInt8) (wide : ¬character.toNat ≤ 0x7F) (cut : cutChar character = true)
      (notAscii : isAscii lead = false) (starts : startsChar lead = true)
      (step : leadStep lead = 1) (continues : startsChar tail = false) :
      Encoded character [lead, tail]
  | kept (lead : UInt8) (tail : List UInt8) (wide : ¬character.toNat ≤ 0x7F)
      (kept : cutChar character = false) (notAscii : isAscii lead = false)
      (starts : startsChar lead = true) (step : leadStep lead = tail.length + 1) :
      Encoded character (lead :: tail)

theorem encoded_utf8EncodeChar (character : Char) :
    Encoded character (String.utf8EncodeChar character) := by
  have value : character.val.toNat = character.toNat := rfl
  rw [String.utf8EncodeChar, value]
  by_cases one : character.toNat ≤ 0x7F
  · have byte := ascii_byte character.toNat (by omega)
    rw [if_pos one]
    exact .ascii _ one byte.1 byte.2
  · rw [if_neg one]
    by_cases two : character.toNat ≤ 0x7FF
    · have lead := lead_two (character.toNat / 64 % 0x20) (Nat.mod_lt _ (by decide))
      have tail := continuation_starts (character.toNat % 0x40) (Nat.mod_lt _ (by decide))
      rw [if_pos two]
      by_cases low : character.toNat < 0x400
      · have kept : cutChar character = false := by
          simp only [cutChar, decide_eq_false (Nat.not_le.mpr low), Bool.false_and]
        rw [if_pos (by omega)] at lead
        exact .kept _ [_] one kept lead.1 lead.2.1 lead.2.2
      · have cut : cutChar character = true := by
          simp only [cutChar, decide_eq_true (Nat.not_lt.mp low), decide_eq_true two, Bool.and_self]
        rw [if_neg (by omega)] at lead
        exact .cut _ _ one cut lead.1 lead.2.1 lead.2.2 tail
    · have kept : cutChar character = false := by
        simp only [cutChar, decide_eq_false two, Bool.and_false]
      rw [if_neg two]
      by_cases three : character.toNat ≤ 0xFFFF
      · have lead := lead_three (character.toNat / 4096 % 0x10) (Nat.mod_lt _ (by decide))
        rw [if_pos three]
        exact .kept _ [_, _] one kept lead.1 lead.2.1 lead.2.2
      · have lead := lead_four (character.toNat / 262144 % 0x08) (Nat.mod_lt _ (by decide))
        rw [if_neg three]
        exact .kept _ [_, _, _] one kept lead.1 lead.2.1 lead.2.2

theorem Encoded.head {character : Char} {bytes : List UInt8} (encoded : Encoded character bytes) :
    ∃ lead tail, bytes = lead :: tail ∧ startsChar lead = true := by
  cases encoded with
  | ascii byte narrow isAscii starts => exact ⟨byte, [], rfl, starts⟩
  | cut lead tail wide cut notAscii starts step continues => exact ⟨lead, [tail], rfl, starts⟩
  | kept lead tail wide kept notAscii starts step => exact ⟨lead, tail, rfl, starts⟩

/-- Behind a character comes another one or the terminator. -/
theorem utf8_starts (text : List Char) :
    utf8 text = [] ∨ ∃ lead rest, utf8 text = lead :: rest ∧ startsChar lead = true := by
  cases text with
  | nil => exact .inl rfl
  | cons character text =>
      rcases (encoded_utf8EncodeChar character).head with ⟨lead, tail, bytes, starts⟩
      refine .inr ⟨lead, tail ++ utf8 text, ?_, starts⟩
      rw [utf8, List.flatMap_cons, bytes]
      rfl

theorem startsChar_getD_utf8 (text : List Char) : startsChar ((utf8 text).getD 0 0) = true := by
  rcases utf8_starts text with empty | ⟨lead, rest, bytes, starts⟩
  · rw [empty]
    decide
  · rw [bytes]
    exact starts

theorem dropWhile_utf8 (text : List Char) :
    (utf8 text).dropWhile (fun next => !startsChar next) = utf8 text := by
  rcases utf8_starts text with empty | ⟨lead, rest, bytes, starts⟩
  · rw [empty]
    rfl
  · rw [bytes, List.dropWhile_cons, starts]
    rfl

/-- A text split at `sptr` into characters, and `flag_stop`. -/
structure Displayed where
  shown : List Char
  rest : List Char
  stopped : Bool

def Displayed.prepend (character : Char) (displayed : Displayed) : Displayed :=
  { displayed with shown := character :: displayed.shown }

/-- The loop on characters. -/
def displayedFrom (limit : Nat) : Nat → List Char → Displayed
  | _, [] => ⟨[], [], false⟩
  | width, character :: text =>
      if character.toNat ≤ 0x7F then
        if width + 1 > limit then ⟨[], character :: text, true⟩
        else (displayedFrom limit (width + 1) text).prepend character
      else if cutChar character then displayedFrom limit width text
      else if width + 2 > limit then ⟨[character], text, true⟩
      else (displayedFrom limit (width + 2) text).prepend character

theorem limitedFrom_eq_append (limit width : Nat) (text : List Char) :
    limitedFrom limit width text =
      (displayedFrom limit width text).shown ++ (displayedFrom limit width text).rest := by
  induction text generalizing width with
  | nil => rfl
  | cons character text induction =>
      rw [limitedFrom, displayedFrom]
      split
      · split
        · rfl
        · rw [induction]
          rfl
      · split
        · exact induction width
        · split
          · rfl
          · rw [induction]
            rfl

theorem limitLoop_utf8 (limit fuel width : Nat) (text : List Char)
    (enough : (utf8 text).length < fuel) :
    limitLoop limit fuel width (utf8 text) =
      ⟨utf8 (displayedFrom limit width text).shown, utf8 (displayedFrom limit width text).rest,
        (displayedFrom limit width text).stopped⟩ := by
  induction text generalizing fuel width with
  | nil =>
      cases fuel with
      | zero => omega
      | succ fuel => rfl
  | cons character text induction =>
      cases fuel with
      | zero => omega
      | succ fuel =>
          have bytes : utf8 (character :: text) = String.utf8EncodeChar character ++ utf8 text := rfl
          have again : ∀ rest, utf8 (character :: rest) =
              String.utf8EncodeChar character ++ utf8 rest := fun _ => rfl
          have encoded := encoded_utf8EncodeChar character
          rw [bytes] at enough ⊢
          rw [displayedFrom]
          generalize String.utf8EncodeChar character = code at encoded enough again ⊢
          cases encoded with
          | ascii byte narrow ascii starts =>
              simp only [List.singleton_append, List.length_cons] at enough
              simp only [List.singleton_append, limitLoop, ascii, if_true, if_pos narrow]
              by_cases full : width + 1 > limit
              · simp only [if_pos full, again]
                rfl
              · simp only [if_neg full, induction fuel (width + 1) (by omega), Displayed.prepend,
                  Limited.prepend, again]
          | cut lead tail wide cut notAscii starts step continues =>
              simp only [List.cons_append, List.nil_append, List.length_cons] at enough
              simp only [List.cons_append, List.nil_append, limitLoop, notAscii, step,
                Bool.false_eq_true, if_false, if_neg wide, cut, if_true, List.getD_cons_succ,
                List.getD_cons_zero, continues, false_and, List.dropWhile_cons, Bool.not_false,
                dropWhile_utf8]
              exact induction fuel width (by omega)
          | kept lead tail wide kept notAscii starts step =>
              have length : (lead :: tail).length = leadStep lead := step.symm
              have next : ((lead :: tail) ++ utf8 text).getD (leadStep lead) 0 =
                  (utf8 text).getD 0 0 := by
                rw [← length, List.getD_eq_getElem?_getD, List.getElem?_append_right (Nat.le_refl _),
                  Nat.sub_self, List.getD_eq_getElem?_getD]
              have fits : leadStep lead ≤ ((lead :: tail) ++ utf8 text).length := by
                rw [← length, List.length_append]
                exact Nat.le_add_right _ _
              have taken : ((lead :: tail) ++ utf8 text).take (leadStep lead) = lead :: tail := by
                rw [← length, List.take_left]
              have dropped : ((lead :: tail) ++ utf8 text).drop (leadStep lead) = utf8 text := by
                rw [← length, List.drop_left]
              have whole : startsChar (((lead :: tail) ++ utf8 text).getD (leadStep lead) 0) = true ∧
                  leadStep lead ≤ ((lead :: tail) ++ utf8 text).length :=
                ⟨next ▸ startsChar_getD_utf8 text, fits⟩
              rw [List.length_append, List.length_cons] at enough
              rw [List.cons_append] at taken dropped whole ⊢
              simp only [limitLoop, notAscii, Bool.false_eq_true, if_false, if_neg wide, kept,
                if_pos whole, taken, dropped]
              by_cases full : width + 2 > limit
              · simp only [if_pos full, again]
                simp [utf8]
              · simp only [if_neg full, induction fuel (width + 2) (by omega), Displayed.prepend,
                  Limited.prepend, again]

/-- What the function leaves in the text of a buffer. -/
theorem limitStrWidth_utf8 (text : String) (limit : Nat) :
    (limitStrWidth (utf8 text.toList) limit).1 = utf8 (limitedText text limit).toList := by
  rw [limitedText, String.toList_ofList, limitedFrom_eq_append, limitStrWidth,
    limitLoop_utf8 limit _ 0 text.toList (Nat.lt_succ_self _)]
  exact List.flatMap_append.symm

end Bookshelfdq
