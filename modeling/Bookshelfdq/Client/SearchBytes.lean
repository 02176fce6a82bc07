import Bookshelfdq.Client.LimitStrWidth
import Bookshelfdq.Client.StringSplitter

/-! # The search entry in memory

Where no copy leaves its field, the memory of the search entry holds the UTF-8 of what the clauses
of a keyword make of its fields. -/

namespace Bookshelfdq

/-! ## Tests on the bytes of a text -/

/-- An ASCII character is one byte, and the bytes of any other are none of these. -/
theorem utf8EncodeChar_cases (character : Char) :
    (character.toNat < 128 ∧ String.utf8EncodeChar character = [UInt8.ofNat character.toNat]) ∨
      (128 ≤ character.toNat ∧ String.utf8EncodeChar character ≠ [] ∧
        ∀ byte ∈ String.utf8EncodeChar character, 128 ≤ byte.toNat) := by
  have value : character.val.toNat = character.toNat := rfl
  have bits : ∀ offset, 128 ≤ offset → offset < 256 → ∀ number, number + offset < 256 →
      128 ≤ (UInt8.ofNat (number + offset)).toNat := by
    intro offset large _ number small
    rw [UInt8.toNat_ofNat', Nat.mod_eq_of_lt small]
    omega
  rw [String.utf8EncodeChar, value]
  split
  case isTrue one => exact .inl ⟨by omega, rfl⟩
  case isFalse one =>
    refine .inr ⟨by omega, ?_, ?_⟩
    · split
      · exact List.cons_ne_nil _ _
      · split
        · exact List.cons_ne_nil _ _
        · exact List.cons_ne_nil _ _
    · intro byte member
      split at member
      · simp only [List.mem_cons, List.not_mem_nil, or_false] at member
        rcases member with rfl | rfl
        · exact bits 0xC0 (by decide) (by decide) _ (by omega)
        · exact bits 0x80 (by decide) (by decide) _ (by omega)
      · split at member
        · simp only [List.mem_cons, List.not_mem_nil, or_false] at member
          rcases member with rfl | rfl | rfl
          · exact bits 0xE0 (by decide) (by decide) _ (by omega)
          · exact bits 0x80 (by decide) (by decide) _ (by omega)
          · exact bits 0x80 (by decide) (by decide) _ (by omega)
        · simp only [List.mem_cons, List.not_mem_nil, or_false] at member
          rcases member with rfl | rfl | rfl | rfl
          · exact bits 0xF0 (by decide) (by decide) _ (by omega)
          · exact bits 0x80 (by decide) (by decide) _ (by omega)
          · exact bits 0x80 (by decide) (by decide) _ (by omega)
          · exact bits 0x80 (by decide) (by decide) _ (by omega)

/-- The bytes of a character pass a test exactly if the character does. -/
def Agree (test : Char → Bool) (byteTest : UInt8 → Bool) : Prop :=
  ∀ character, ∀ byte ∈ String.utf8EncodeChar character, byteTest byte = test character

theorem agree_beq {separator : Char} (ascii : separator.toNat < 128) :
    Agree (· == separator) (· == UInt8.ofNat separator.toNat) := by
  have separatorByte : (UInt8.ofNat separator.toNat).toNat = separator.toNat := by
    rw [UInt8.toNat_ofNat', Nat.mod_eq_of_lt (by omega)]
  intro character byte member
  rcases utf8EncodeChar_cases character with ⟨narrow, encoded⟩ | ⟨wide, -, bytes⟩
  · rw [encoded] at member
    obtain rfl := List.mem_singleton.mp member
    rw [Bool.eq_iff_iff, beq_iff_eq, beq_iff_eq]
    constructor
    · intro same
      have values := congrArg UInt8.toNat same
      rw [separatorByte, UInt8.toNat_ofNat', Nat.mod_eq_of_lt (by omega)] at values
      exact Char.toNat_inj.mp values
    · rintro rfl
      rfl
  · have large := bytes byte member
    rw [Bool.eq_iff_iff, beq_iff_eq, beq_iff_eq]
    constructor
    · rintro rfl
      omega
    · rintro rfl
      omega

/-- The byte of an ASCII character occurs in no other character. -/
theorem eq_of_mem_utf8EncodeChar {separator character : Char} (ascii : separator.toNat < 128)
    (member : UInt8.ofNat separator.toNat ∈ String.utf8EncodeChar character) :
    character = separator :=
  beq_iff_eq.mp ((agree_beq ascii character _ member).symm.trans (beq_self_eq_true _))

theorem Agree.not {test : Char → Bool} {byteTest : UInt8 → Bool} (agree : Agree test byteTest) :
    Agree (fun character => !test character) (fun byte => !byteTest byte) :=
  fun character byte member => congrArg Bool.not (agree character byte member)

theorem Agree.or {test other : Char → Bool} {byteTest otherByte : UInt8 → Bool}
    (agree : Agree test byteTest) (agrees : Agree other otherByte) :
    Agree (fun character => test character || other character)
      (fun byte => byteTest byte || otherByte byte) :=
  fun character byte member => congrArg₂ Bool.or (agree character byte member)
    (agrees character byte member)

theorem agree_isBlank : Agree isBlank StringFilter.isBlank :=
  (agree_beq (show ' '.toNat < 128 by decide)).or (agree_beq (show '\t'.toNat < 128 by decide))

theorem utf8_cons (character : Char) (text : List Char) :
    utf8 (character :: text) = String.utf8EncodeChar character ++ utf8 text := rfl

theorem utf8EncodeChar_eq_cons (character : Char) :
    ∃ lead tail, String.utf8EncodeChar character = lead :: tail := by
  rcases (encoded_utf8EncodeChar character).head with ⟨lead, tail, bytes, _⟩
  exact ⟨lead, tail, bytes⟩

namespace Agree

variable {test : Char → Bool} {byteTest : UInt8 → Bool} (agree : Agree test byteTest)

include agree

theorem takeWhile_utf8 (text : List Char) :
    (utf8 text).takeWhile byteTest = utf8 (text.takeWhile test) := by
  induction text with
  | nil => rfl
  | cons character text induction =>
      rw [utf8_cons, List.takeWhile_cons]
      cases passes : test character with
      | true =>
          rw [List.takeWhile_append_of_pos (fun byte member => (agree character byte member).trans
            passes), induction, if_pos rfl, utf8_cons]
      | false =>
          rcases utf8EncodeChar_eq_cons character with ⟨lead, tail, bytes⟩
          have fails := agree character lead (bytes ▸ List.mem_cons_self)
          rw [passes] at fails
          rw [bytes, List.cons_append, List.takeWhile_cons, fails]
          rfl

theorem dropWhile_utf8 (text : List Char) :
    (utf8 text).dropWhile byteTest = utf8 (text.dropWhile test) := by
  induction text with
  | nil => rfl
  | cons character text induction =>
      rw [utf8_cons, List.dropWhile_cons]
      cases passes : test character with
      | true =>
          rw [List.dropWhile_append_of_pos (fun byte member => (agree character byte member).trans
            passes), induction, if_pos rfl]
      | false =>
          rcases utf8EncodeChar_eq_cons character with ⟨lead, tail, bytes⟩
          have fails := agree character lead (bytes ▸ List.mem_cons_self)
          rw [passes] at fails
          rw [if_neg Bool.false_ne_true, utf8_cons, bytes, List.cons_append, List.dropWhile_cons,
            fails, if_neg Bool.false_ne_true]

theorem rdropWhile_utf8 (text : List Char) :
    (utf8 text).rdropWhile byteTest = utf8 (text.rdropWhile test) := by
  induction text using List.reverseRecOn with
  | nil => rfl
  | append_singleton text last induction =>
      have split : utf8 (text ++ [last]) = utf8 text ++ String.utf8EncodeChar last := by
        rw [utf8_append, utf8_cons]
        exact congrArg (utf8 text ++ ·) (List.append_nil _)
      rw [List.rdropWhile_concat]
      cases passes : test last with
      | true =>
          have all : ∀ byte ∈ (String.utf8EncodeChar last).reverse, byteTest byte = true :=
            fun byte member => (agree last byte (List.mem_reverse.mp member)).trans passes
          rw [if_pos rfl, ← induction, split, List.rdropWhile, List.rdropWhile, List.reverse_append,
            List.dropWhile_append_of_pos all]
      | false =>
          have some : String.utf8EncodeChar last ≠ [] := by
            rcases utf8EncodeChar_eq_cons last with ⟨lead, tail, bytes⟩
            rw [bytes]
            exact List.cons_ne_nil _ _
          have fails := agree last _ (List.getLast_mem some)
          rw [passes] at fails
          rw [if_neg Bool.false_ne_true, split, ← List.dropLast_concat_getLast some,
            ← List.append_assoc, List.rdropWhile_concat, fails, if_neg Bool.false_ne_true]

theorem trimmed_utf8 (text : List Char) :
    trimmed byteTest (utf8 text) = utf8 (trimmed test text) := by
  rw [trimmed, trimmed, agree.dropWhile_utf8, agree.rdropWhile_utf8]

end Agree

/-- A text without blanks at its ends, in bytes. -/
theorem trimmed_utf8_isBlank (text : List Char) :
    trimmed StringFilter.isBlank (utf8 text) = utf8 (stringFilter text) :=
  agree_isBlank.trimmed_utf8 text

theorem agree_bne {separator : Char} (ascii : separator.toNat < 128) :
    Agree (· != separator) (· != UInt8.ofNat separator.toNat) := (agree_beq ascii).not

theorem mem_utf8_iff {separator : Char} (ascii : separator.toNat < 128) (text : List Char) :
    UInt8.ofNat separator.toNat ∈ utf8 text ↔ separator ∈ text := by
  rw [utf8, List.mem_flatMap]
  constructor
  · rintro ⟨character, member, byte⟩
    exact eq_of_mem_utf8EncodeChar ascii byte ▸ member
  · intro member
    refine ⟨separator, member, ?_⟩
    rcases utf8EncodeChar_cases separator with ⟨_, encoded⟩ | ⟨wide, _⟩
    · rw [encoded]
      exact List.mem_singleton.mpr rfl
    · omega

theorem splitOn_append_of_not_mem {separator : UInt8} {bytes : List UInt8}
    (free : separator ∉ bytes) (rest : List UInt8) :
    (bytes ++ rest).splitOn separator = (rest.splitOn separator).modifyHead (bytes ++ ·) := by
  induction bytes with
  | nil =>
      rw [List.nil_append]
      cases rest.splitOn separator with
      | nil => rfl
      | cons first others => rfl
  | cons byte bytes induction =>
      have other : (byte == separator) = false :=
        beq_eq_false_iff_ne.mpr fun same => free (same ▸ List.mem_cons_self)
      rw [List.cons_append, List.splitOn_cons_eq_if_modifyHead, if_neg (by simp [other]),
        induction fun member => free (List.mem_cons_of_mem _ member)]
      cases rest.splitOn separator with
      | nil => rfl
      | cons first others => rfl

/-- The fields of a text, in bytes. -/
theorem splitOn_utf8 {separator : Char} (ascii : separator.toNat < 128) (text : List Char) :
    (utf8 text).splitOn (UInt8.ofNat separator.toNat) = (text.splitOn separator).map utf8 := by
  induction text with
  | nil => rfl
  | cons character text induction =>
      rw [List.splitOn_cons_eq_if_modifyHead, utf8_cons]
      by_cases same : character = separator
      · rcases utf8EncodeChar_cases separator with ⟨_, encoded⟩ | ⟨wide, _⟩
        · rw [if_pos (beq_iff_eq.mpr same), same, encoded, List.cons_append, List.nil_append,
            List.splitOn_cons_eq_if_modifyHead, if_pos (beq_self_eq_true _), induction]
          rfl
        · omega
      · have free : UInt8.ofNat separator.toNat ∉ String.utf8EncodeChar character :=
          fun member => same (eq_of_mem_utf8EncodeChar ascii member)
        rw [if_neg (fun equal => same (beq_iff_eq.mp equal)), splitOn_append_of_not_mem free,
          induction]
        cases text.splitOn separator with
        | nil => rfl
        | cons first others => rfl

/-- `string_splitter` on characters, on bytes and on memory. -/
theorem stringSplitter_utf8 {separator : Char} (ascii : separator.toNat < 128)
    (other : UInt8.ofNat separator.toNat ≠ 0) {text : List Char} (solid : 0 ∉ utf8 text)
    (short : (utf8 text).length ≤ SearchFields.subLen) (beyond : List UInt8)
    {desStr : List UInt8} (room : StringSplitter.tempSize ≤ desStr.length) (partPos : Nat) :
    SearchFields.stringSplitter SearchFields.subLen (UInt8.ofNat separator.toNat) (utf8 text)
          partPos =
        (stringSplitter separator text partPos).map utf8 ∧
      StringSplitter.stringSplitter desStr SearchFields.subLen (utf8 text ++ 0 :: beyond) partPos
          (UInt8.ofNat separator.toNat) =
        some (match stringSplitter separator text partPos with
          | none => (0, StringSplitter.padded [] ++ desStr.drop StringSplitter.tempSize)
          | some part =>
              (1, StringSplitter.padded (utf8 part) ++ desStr.drop StringSplitter.tempSize)) := by
  rw [SearchFields.stringSplitter_eq _ short,
    StringSplitter.stringSplitter_eq other solid short beyond room, stringSplitter_eq,
    splitOn_utf8 ascii, List.getElem?_map]
  cases (text.splitOn separator)[partPos]? with
  | none => exact ⟨rfl, rfl⟩
  | some part =>
      refine ⟨congrArg some (trimmed_utf8_isBlank part), ?_⟩
      rw [Option.map_some, StringSplitter.answer, trimmed_utf8_isBlank]
      rfl

/-! ## What the memory holds -/

namespace SearchedField

def slot : SearchedField → SearchFields.SearchSlot
  | .name => .name
  | .author => .author
  | .label => .label

def set : SearchedField → Char → List Char → Searching → Searching
  | .name => Searching.setName
  | .author => Searching.setAuthor
  | .label => Searching.setLabel

theorem slot_injective {field other : SearchedField} (same : field.slot = other.slot) :
    field = other := by
  cases field <;> cases other <;> first | rfl | cases same

theorem read_set (field other : SearchedField) (mode : Char) (value : List Char)
    (searching : Searching) :
    other.read (field.set mode value searching).userBook =
      if other = field then searchField mode value else other.read searching.userBook := by
  cases field <;> cases other <;> rfl

end SearchedField

namespace SearchFlag

def offset : SearchFlag → Nat
  | .onReading => SearchFields.borrowedOffset + 1
  | .borrowed => SearchFields.borrowedOffset

def set : SearchFlag → Searching → Searching
  | .onReading => Searching.setOnReading
  | .borrowed => Searching.setBorrowed

end SearchFlag

def charByte (character : Char) : UInt8 := UInt8.ofNat character.toNat

namespace SearchFields

/-- The text of a field. -/
def fieldText (book : List UInt8) (slot : SearchSlot) : List UInt8 :=
  Terminated.text 0 (book.drop slot.offset)

/-- The memory holds an entry. -/
structure Stores (handling : Handling) (searching : Searching) : Prop where
  sound : Sound handling
  fit : ∀ copy ∈ handling.copies, copy.Fits
  fields : ∀ field : SearchedField, fieldText handling.book field.slot =
    utf8 (field.read searching.userBook).toList
  borrowed : handling.book[borrowedOffset]? = some (charByte searching.userBook.borrowed)
  onReading : handling.book[borrowedOffset + 1]? = some (charByte searching.userBook.onReading)
  rt : handling.rt = searching.rt

theorem SearchSlot.inside_flags (slot : SearchSlot) : slot.offset + slot.size ≤ borrowedOffset := by
  cases slot <;> decide

/-- A text stays if no byte of its field is written. -/
theorem Held.fieldText_eq {book other : List UInt8} (held : Held book) {slot : SearchSlot}
    (same : ∀ index, slot.offset ≤ index → index < slot.offset + slot.size →
      other[index]? = book[index]?) : fieldText other slot = fieldText book slot := by
  rcases slot.inside with ⟨begins, reach, _⟩
  refine Terminated.text_drop_of_region slot.size ⟨slot.last - slot.offset, by omega, ?_⟩ same
  rw [Nat.add_sub_cancel' begins.le]
  exact held.ends slot

/-- The bytes of a field are outside every other field. -/
theorem SearchSlot.outside {slot other : SearchSlot} (different : other ≠ slot) {index : Nat}
    (above : other.offset ≤ index) (below : index < other.offset + other.size) :
    index < slot.offset ∨ slot.offset + slot.size ≤ index := by
  cases slot <;> cases other <;> first | exact absurd rfl different |
    exact .inl (Nat.lt_of_lt_of_le below (by decide)) | exact .inr (le_trans (by decide) above)

namespace Stores

variable {handling : Handling} {searching : Searching} (stores : Stores handling searching)

include stores

theorem held : Held handling.book := stores.sound.held stores.fit

theorem strcpy (field : SearchedField) {mode : Char} (printable : charByte mode ≠ 0)
    (encoded : String.utf8EncodeChar mode = [charByte mode]) {value : List Char}
    (solid : 0 ∉ utf8 value)
    (fits : Copy.Fits ⟨field.slot, 1 + ((utf8 value).length + 1)⟩) :
    Stores (handling.strcpy field.slot (charByte mode) (utf8 value))
      (field.set mode value searching) where
  sound := stores.sound.strcpy _ _ _
  fit := by
    intro copy member
    rcases List.mem_append.mp member with before | last
    · exact stores.fit copy before
    · exact List.mem_singleton.mp last ▸ fits
  fields := by
    intro other
    rw [SearchedField.read_set]
    split
    case isTrue same =>
      have inside : field.slot.offset < handling.book.length :=
        Nat.lt_of_lt_of_le (Nat.lt_of_lt_of_le (field.slot.inside.1.trans field.slot.inside.2.2)
          (by decide)) stores.sound.size
      have unterminated : 0 ∉ charByte mode :: utf8 value := by
        intro member
        rcases List.mem_cons.mp member with zero | inValue
        · exact printable zero.symm
        · exact solid inValue
      rw [same, fieldText, Handling.strcpy, Terminated.store_set inside,
        Terminated.drop_store inside.le, ← List.cons_append, List.append_assoc,
        List.singleton_append, Terminated.text_append unterminated, searchField,
        String.toList_ofList, utf8_cons, encoded]
      rfl
    case isFalse different =>
      have apart : other.slot ≠ field.slot := fun same =>
        different (SearchedField.slot_injective same)
      rw [stores.held.fieldText_eq fun index above below =>
        stores.sound.strcpy_outside _ fits (SearchSlot.outside apart above below)]
      exact stores.fields other
  borrowed := by
    rw [stores.sound.strcpy_outside _ fits (.inr field.slot.inside_flags), stores.borrowed]
    cases field <;> rfl
  onReading := by
    rw [stores.sound.strcpy_outside _ fits (.inr (field.slot.inside_flags.trans (Nat.le_succ _))),
      stores.onReading]
    cases field <;> rfl
  rt := by
    have same : handling.rt = searching.rt := stores.rt
    cases field <;> exact congrArg (· + 1) same

/-- A flag is set. -/
theorem setFlag (flag : SearchFlag) :
    Stores (handling.setFlag flag.offset) (flag.set searching) := by
  have beyond : borrowedOffset ≤ flag.offset := by
    cases flag <;> decide
  have size := stores.sound.size
  have inside : flag.offset < handling.book.length :=
    Nat.lt_of_lt_of_le (by cases flag <;> decide) size
  refine ⟨stores.sound.setFlag beyond, stores.fit, ?_, ?_, ?_, ?_⟩
  · intro field
    have same : fieldText (handling.setFlag flag.offset).book field.slot =
        fieldText handling.book field.slot := by
      apply stores.held.fieldText_eq
      intro index _ below
      have before := field.slot.inside_flags
      exact List.getElem?_set_ne (by omega)
    rw [same, stores.fields field]
    cases flag <;> cases field <;> rfl
  · cases flag with
    | onReading =>
        rw [Handling.setFlag, List.getElem?_set_ne (by decide)]
        exact stores.borrowed
    | borrowed =>
        exact List.getElem?_set_self inside
  · cases flag with
    | onReading =>
        exact List.getElem?_set_self inside
    | borrowed =>
        rw [Handling.setFlag, List.getElem?_set_ne (by decide)]
        exact stores.onReading
  · have same : handling.rt = searching.rt := stores.rt
    cases flag <;> exact congrArg (· + 1) same

theorem nameIsExact : handling.nameIsExact = searching.nameIsExact := by
  have text := stores.fields .name
  have whole : handling.book.drop SearchSlot.name.offset = handling.book := rfl
  have head : handling.book[SearchSlot.name.offset]? = handling.book.head? :=
    List.head?_eq_getElem?.symm
  rw [fieldText, SearchedField.slot, whole, SearchedField.read] at text
  have size := stores.sound.size
  rw [Handling.nameIsExact, Searching.nameIsExact, head]
  cases memory : handling.book with
  | nil =>
      rw [memory] at size
      cases size
  | cons first behind =>
      rw [memory] at text
      rw [List.head?_cons, Bool.eq_iff_iff, beq_iff_eq, beq_iff_eq, Option.some.injEq]
      cases name : searching.userBook.name.toList with
      | nil =>
          rw [name] at text
          refine iff_of_false ?_ (fun none => by cases none)
          rintro rfl
          rw [Terminated.text_cons (by decide)] at text
          cases text
      | cons character characters =>
          rcases utf8EncodeChar_eq_cons character with ⟨lead, tail, bytes⟩
          have agree := agree_beq (show '='.toNat < 128 by decide) character lead
            (bytes ▸ List.mem_cons_self)
          rw [name, utf8_cons, bytes] at text
          have same : first = lead := by
            by_cases zero : first = 0
            · rw [zero, Terminated.text, List.takeWhile_cons_of_neg (by simp)] at text
              cases text
            · rw [Terminated.text_cons zero] at text
              exact (List.cons.inj text).1
          have both : (lead == UInt8.ofNat '='.toNat) = true ↔ (character == '=') = true :=
            Bool.eq_iff_iff.mp agree
          rw [beq_iff_eq, beq_iff_eq] at both
          rw [same, List.head?_cons, Option.some.injEq]
          exact both

/-- What a clause does. The value is copied for a field and compared for a flag. -/
theorem apply (key : SearchKey) {value : List Char} (solid : 0 ∉ utf8 value)
    (fit : ∀ copy ∈ (handling.apply key (utf8 value)).copies, copy.Fits) :
    Stores (handling.apply key (utf8 value)) (searching.apply key value) := by
  have one : utf8 value = [49] ↔ value = ['1'] :=
    ⟨fun same => utf8_injective same, fun same => same ▸ rfl⟩
  have copied : ∀ {slot mode}, (∀ copy ∈ (handling.strcpy slot mode (utf8 value)).copies,
      copy.Fits) → Copy.Fits ⟨slot, 1 + ((utf8 value).length + 1)⟩ :=
    fun fit => fit _ (List.mem_append_right _ List.mem_cons_self)
  have ranged : ∀ field : SearchedField,
      (∀ copy ∈ (if handling.nameIsExact then handling
        else handling.strcpy field.slot 43 (utf8 value)).copies, copy.Fits) →
      Stores (if handling.nameIsExact then handling
          else handling.strcpy field.slot 43 (utf8 value))
        (if searching.nameIsExact then searching else field.set '+' value searching) := by
    intro field fit
    rw [← stores.nameIsExact]
    cases exact : handling.nameIsExact with
    | true => exact stores
    | false =>
        rw [exact] at fit
        exact stores.strcpy field (show charByte '+' ≠ 0 by decide) rfl solid (copied fit)
  cases key with
  | r =>
      rw [Handling.apply, Searching.apply]
      by_cases set : value = ['1']
      · rw [if_pos (one.mpr set), if_pos set]
        exact stores.setFlag .onReading
      · rw [if_neg (fun same => set (one.mp same)), if_neg set]
        exact stores
  | o =>
      rw [Handling.apply, Searching.apply]
      by_cases set : value = ['1']
      · rw [if_pos (one.mpr set), if_pos set]
        exact stores.setFlag .borrowed
      · rw [if_neg (fun same => set (one.mp same)), if_neg set]
        exact stores
  | b => exact ranged .name fit
  | a => exact ranged .author fit
  | l => exact ranged .label fit
  | book => exact stores.strcpy .name (show charByte '=' ≠ 0 by decide) rfl solid (copied fit)
  | author => exact stores.strcpy .author (show charByte '=' ≠ 0 by decide) rfl solid (copied fit)

end Stores

/-! ## Clauses -/

theorem keyBytes_eq (key : SearchKey) : keyBytes key = utf8 key.text := by
  cases key <;> rfl

theorem partKey_utf8 (part : List Char) :
    partKey (utf8 part) =
      utf8 (stringFilter ((stringFilter part).takeWhile (· != '='))) := by
  have cut := (agree_bne (show '='.toNat < 128 by decide)).takeWhile_utf8 (stringFilter part)
  rw [partKey, trimmed_utf8_isBlank]
  exact (congrArg (trimmed StringFilter.isBlank) cut).trans (trimmed_utf8_isBlank _)

theorem partValue_utf8 (part : List Char) :
    partValue (utf8 part) =
      utf8 ((Bookshelfdq.stringSplitter '=' (stringFilter part) 1).getD []) := by
  have fields := splitOn_utf8 (show '='.toNat < 128 by decide) (stringFilter part)
  rw [partValue, trimmed_utf8_isBlank, Bookshelfdq.stringSplitter_eq]
  change ((utf8 (stringFilter part)).splitOn 61) = _ at fields
  rw [fields, List.getElem?_map]
  cases ((stringFilter part).splitOn '=')[1]? with
  | none => rfl
  | some value => exact trimmed_utf8_isBlank value

end SearchFields

/-- The body of the loop by the key of the clause. -/
theorem Searching.clause_of_key (searching : Searching) {part : List Char} {key : SearchKey}
    (keyed : stringFilter (part.takeWhile (· != '=')) = key.text) :
    searching.clause part = searching.apply key ((stringSplitter '=' part 1).getD []) := by
  have first : stringSplitter '=' part 0 = some key.text := congrArg some keyed
  rw [clause, first]
  cases key <;> rfl

theorem Searching.clause_of_none (searching : Searching) {part : List Char}
    (none : ∀ key : SearchKey, stringFilter (part.takeWhile (· != '=')) ≠ key.text) :
    searching.clause part = searching := by
  rw [clause, stringSplitter]
  dsimp only
  generalize stringFilter (part.takeWhile (· != '=')) = read at none
  have r : read ≠ ['r'] := none .r
  have o : read ≠ ['o'] := none .o
  have b : read ≠ ['b'] := none .b
  have a : read ≠ ['a'] := none .a
  have l : read ≠ ['l'] := none .l
  have book : read ≠ ['b', 'o', 'o', 'k'] := none .book
  have author : read ≠ ['a', 'u', 't', 'h', 'o', 'r'] := none .author
  rw [if_neg r, if_neg o, if_neg b, if_neg a, if_neg l, if_neg book, if_neg author]

namespace SearchFields

theorem partValue_subset (part : List UInt8) : partValue part ⊆ part := by
  rw [partValue]
  cases field : ((trimmed StringFilter.isBlank part).splitOn 61)[1]? with
  | none => exact fun _ member => absurd member List.not_mem_nil
  | some value =>
      intro byte member
      exact trimmed_subset (mem_of_mem_splitOn (List.mem_of_getElem? field)
        (trimmed_subset member))

theorem Stores.clause {handling : Handling} {searching : Searching}
    (stores : Stores handling searching) {part : List Char}
    (short : (utf8 part).length ≤ subLen) (solid : 0 ∉ utf8 part)
    (fit : ∀ copy ∈ (handling.clause (trimmed StringFilter.isBlank (utf8 part))).copies,
      copy.Fits) :
    Stores (handling.clause (trimmed StringFilter.isBlank (utf8 part)))
      (searching.clause (stringFilter part)) := by
  by_cases keyed : ∃ key : SearchKey,
      stringFilter ((stringFilter part).takeWhile (· != '=')) = key.text
  · rcases keyed with ⟨key, keyed⟩
    have bytes : partKey (utf8 part) = keyBytes key := by
      rw [partKey_utf8, keyed, keyBytes_eq]
    have value : 0 ∉ partValue (utf8 part) := fun member => solid (partValue_subset _ member)
    rw [Handling.clause_of_key short handling bytes, partValue_utf8] at fit ⊢
    rw [partValue_utf8] at value
    rw [searching.clause_of_key keyed]
    exact stores.apply key value fit
  · have none : ∀ key : SearchKey, partKey (utf8 part) ≠ keyBytes key := by
      intro key same
      rw [partKey_utf8, keyBytes_eq] at same
      exact keyed ⟨key, utf8_injective same⟩
    rw [Handling.clause_of_none short handling none,
      searching.clause_of_none fun key same => keyed ⟨key, same⟩]
    exact stores

/-- No copy is forgotten. -/
theorem Handling.copies_clause (handling : Handling) {part : List UInt8}
    (short : part.length ≤ subLen) :
    handling.copies ⊆ (handling.clause (trimmed StringFilter.isBlank part)).copies := by
  rcases clause_cases short handling with ⟨_, _, _, _, _, _, _, copied⟩ | ⟨_, same | ⟨_, _, changed⟩⟩
  · rw [copied]
    exact List.subset_append_left _ _
  · rw [same]
    exact List.Subset.refl _
  · rw [changed]
    exact List.Subset.refl _

theorem Handling.copies_clauses (handling : Handling) {parts : List (List UInt8)}
    (short : ∀ part ∈ parts, part.length ≤ subLen) :
    handling.copies ⊆ (parts.foldl (fun handling part =>
      handling.clause (trimmed StringFilter.isBlank part)) handling).copies := by
  induction parts generalizing handling with
  | nil => exact List.Subset.refl _
  | cons part parts induction =>
      exact List.Subset.trans (handling.copies_clause (short part List.mem_cons_self))
        (induction _ fun later member => short later (List.mem_cons_of_mem _ member))

theorem Stores.clauses {parts : List (List Char)}
    (short : ∀ part ∈ parts, (utf8 part).length ≤ subLen)
    (solid : ∀ part ∈ parts, 0 ∉ utf8 part) {handling : Handling} {searching : Searching}
    (stores : Stores handling searching)
    (fit : ∀ copy ∈ ((parts.map utf8).foldl (fun handling part =>
      handling.clause (trimmed StringFilter.isBlank part)) handling).copies, copy.Fits) :
    Stores ((parts.map utf8).foldl (fun handling part =>
        handling.clause (trimmed StringFilter.isBlank part)) handling)
      (parts.foldl (fun searching part => searching.clause (stringFilter part)) searching) := by
  induction parts generalizing handling searching with
  | nil => exact stores
  | cons part parts induction =>
      have behind : ∀ later ∈ parts.map utf8, later.length ≤ subLen :=
        List.forall_mem_map.mpr fun later member => short later (List.mem_cons_of_mem _ member)
      have first := stores.clause (short part List.mem_cons_self) (solid part List.mem_cons_self)
        fun copy member => fit copy (Handling.copies_clauses _ behind member)
      exact induction (fun later member => short later (List.mem_cons_of_mem _ member))
        (fun later member => solid later (List.mem_cons_of_mem _ member)) first fit

theorem stores_start : Stores (Handling.start (List.replicate bookSize 0))
    (Searching.start .zeroed) where
  sound := Sound.start Asked.memset.held
  fit := fun _ member => absurd member List.not_mem_nil
  fields := by
    intro field
    cases field <;> decide
  borrowed := by decide
  onReading := by decide
  rt := rfl

/-- Where no copy leaves its field, the memory holds the entry that the characters give. -/
theorem handleSearchbookKeyword_stores {keyword : List Char} (equals : '=' ∈ keyword)
    (short : (utf8 keyword).length ≤ subLen) (solid : 0 ∉ utf8 keyword)
    (fit : ∀ copy ∈ (handleSearchbookKeyword (utf8 keyword)
      (List.replicate bookSize 0)).copies, copy.Fits) :
    Stores (handleSearchbookKeyword (utf8 keyword) (List.replicate bookSize 0))
      (Bookshelfdq.handleSearchbookKeyword keyword .zeroed) := by
  have bytes : (61 : UInt8) ∈ utf8 keyword :=
    (mem_utf8_iff (show '='.toNat < 128 by decide) keyword).mpr equals
  have parts : (utf8 keyword).splitOn 59 = (keyword.splitOn ';').map utf8 :=
    splitOn_utf8 (show ';'.toNat < 128 by decide) keyword
  have each : ∀ part ∈ keyword.splitOn ';', utf8 part ∈ (utf8 keyword).splitOn 59 :=
    fun part member => parts ▸ List.mem_map_of_mem member
  rw [handle_clauses bytes short, parts] at fit ⊢
  rw [handleSearchbookKeyword_clauses equals]
  exact stores_start.clauses
    (fun part member => (length_le_of_mem_splitOn (each part member)).trans short)
    (fun part member zero => solid (mem_of_mem_splitOn (each part member) zero)) fit

section Bounded

variable {handling : Handling} {slot : SearchSlot} {count : Nat}
  (size : bookSize ≤ handling.book.length) (room : 1 + count < slot.size) (mode : UInt8)
  (value : List UInt8)

include size

theorem strncpy_book :
    (handling.strncpy slot mode value count).book =
      Terminated.store handling.book slot.offset
        (mode :: (value.take count ++ List.replicate (count - value.length) 0)) :=
  Terminated.store_set (Nat.lt_of_lt_of_le (Nat.lt_of_lt_of_le
    (slot.inside.1.trans slot.inside.2.2) (by decide)) size) mode _

include room

/-- A bounded copy leaves the other fields as they are. -/
theorem strncpy_outside {index : Nat}
    (outside : index < slot.offset ∨ slot.offset + slot.size ≤ index) :
    (handling.strncpy slot mode value count).book[index]? = handling.book[index]? := by
  have within : slot.offset ≤ handling.book.length :=
    (slot.inside.1.trans slot.inside.2.2).le.trans (le_trans (by decide) size)
  rw [strncpy_book size]
  rcases outside with before | behind
  · exact Terminated.getElem?_store_before within before
  · apply Terminated.getElem?_store_behind within
    rw [List.length_cons, List.length_append, List.length_take, List.length_replicate]
    omega

omit room in
/-- What a bounded copy leaves in its field if that was empty behind it. -/
theorem fieldText_strncpy (printable : mode ≠ 0) (solid : 0 ∉ value)
    (empty : handling.book[slot.offset + 1 + count]? = some 0) :
    fieldText (handling.strncpy slot mode value count).book slot = mode :: value.take count := by
  have within : slot.offset ≤ handling.book.length :=
    (slot.inside.1.trans slot.inside.2.2).le.trans (le_trans (by decide) size)
  have length : (mode :: (value.take count ++
      List.replicate (count - value.length) (0 : UInt8))).length = 1 + count := by
    rw [List.length_cons, List.length_append, List.length_take, List.length_replicate]
    omega
  have behind : ∃ rest, handling.book.drop (slot.offset + (1 + count)) = 0 :: rest := by
    rcases List.getElem?_eq_some_iff.mp empty with ⟨inside, zero⟩
    rw [← Nat.add_assoc, List.drop_eq_getElem_cons inside, zero]
    exact ⟨_, rfl⟩
  have ends : ∀ (zeros : Nat) (rest : List UInt8), ∃ later,
      List.replicate zeros 0 ++ 0 :: rest = 0 :: later := by
    intro zeros rest
    cases zeros with
    | zero => exact ⟨rest, rfl⟩
    | succ zeros => exact ⟨_, rfl⟩
  rcases behind with ⟨rest, behind⟩
  rcases ends (count - value.length) rest with ⟨later, filled⟩
  have unterminated : 0 ∉ mode :: value.take count := by
    intro member
    rcases List.mem_cons.mp member with zero | inValue
    · exact printable zero.symm
    · exact solid (List.mem_of_mem_take inValue)
  rw [fieldText, strncpy_book size, Terminated.drop_store within, length, behind, List.cons_append,
    List.append_assoc, filled, ← List.cons_append, Terminated.text_append unterminated]

end Bounded

/-- What is left of a character of which not all bytes are copied. -/
def Broken (bytes : List UInt8) : Prop :=
  ∃ character, bytes <+: String.utf8EncodeChar character ∧ bytes ≠ String.utf8EncodeChar character

theorem broken_nil : Broken [] := by
  rcases utf8EncodeChar_eq_cons ' ' with ⟨lead, tail, bytes⟩
  exact ⟨' ', List.nil_prefix, fun same => List.cons_ne_nil lead tail (bytes.symm.trans same.symm)⟩

/-- `strncpy` on characters and on bytes. -/
theorem take_utf8 (count : Nat) (text : List Char) :
    ∃ broken, (utf8 text).take count = utf8 (strncpy count text) ++ broken ∧ Broken broken := by
  induction text generalizing count with
  | nil => exact ⟨[], List.take_nil, broken_nil⟩
  | cons character text induction =>
      have length : (String.utf8EncodeChar character).length = character.utf8Size :=
        String.length_utf8EncodeChar character
      rw [strncpy, utf8_cons]
      split
      case isTrue room =>
        rcases induction (count - character.utf8Size) with ⟨broken, taken, cut⟩
        refine ⟨broken, ?_, cut⟩
        rw [List.take_append, List.take_of_length_le (by omega), length, taken, utf8_cons,
          List.append_assoc]
      case isFalse full =>
        refine ⟨(String.utf8EncodeChar character).take count, ?_, character,
          List.take_prefix _ _, ?_⟩
        · rw [List.take_append_of_le_length (by omega)]
          rfl
        · intro same
          have lengths := congrArg List.length same
          rw [List.length_take, length] at lengths
          omega

/-- What the three copies leave. -/
theorem fieldText_plain {kwptr : List UInt8} (solid : 0 ∉ kwptr) :
    let copied := (((Handling.start (List.replicate bookSize 0)).strncpy .name 45 kwptr
      (bookNameLen - 1)).strncpy .author 45 kwptr (authorNameLen - 1)).strncpy .label 45 kwptr
        (labelNameLen - 1)
    fieldText copied.book .name = 45 :: kwptr.take (bookNameLen - 1) ∧
      fieldText copied.book .author = 45 :: kwptr.take (authorNameLen - 1) ∧
      fieldText copied.book .label = 45 :: kwptr.take (labelNameLen - 1) := by
  have nameRoom : 1 + (bookNameLen - 1) < SearchSlot.name.size := by decide
  have authorRoom : 1 + (authorNameLen - 1) < SearchSlot.author.size := by decide
  have labelRoom : 1 + (labelNameLen - 1) < SearchSlot.label.size := by decide
  have start := stores_start.held
  have name := @Held.strncpy _ start .name _ nameRoom 45 kwptr
  have author := @Held.strncpy _ name .author _ authorRoom 45 kwptr
  have outside : ∀ {index : Nat} {slot other : SearchSlot}, other ≠ slot → other.offset ≤ index →
      index < other.offset + other.size → index < slot.offset ∨ slot.offset + slot.size ≤ index :=
    fun different above below => SearchSlot.outside different above below
  refine ⟨?_, ?_, ?_⟩
  · rw [author.fieldText_eq fun index above below => strncpy_outside author.size labelRoom 45 kwptr
        (outside (by decide) above below),
      name.fieldText_eq fun index above below => strncpy_outside name.size authorRoom 45 kwptr
        (outside (by decide) above below)]
    exact fieldText_strncpy start.size 45 kwptr (by decide) solid (by decide)
  · rw [author.fieldText_eq fun index above below => strncpy_outside author.size labelRoom 45 kwptr
        (outside (by decide) above below)]
    apply fieldText_strncpy name.size 45 kwptr (by decide) solid
    rw [strncpy_outside start.size nameRoom 45 kwptr (by decide)]
    decide
  · apply fieldText_strncpy author.size 45 kwptr (by decide) solid
    rw [strncpy_outside name.size authorRoom 45 kwptr (by decide),
      strncpy_outside start.size nameRoom 45 kwptr (by decide)]
    decide

/-- The memory holds the entry that the characters give, up to a character cut in two. -/
theorem handleSearchbookKeyword_plain {keyword : List Char} (plain : '=' ∉ keyword)
    (solid : 0 ∉ utf8 keyword) (field : SearchedField) :
    ∃ broken, fieldText (handleSearchbookKeyword (utf8 keyword) (List.replicate bookSize 0)).book
        field.slot =
      utf8 (field.read (Bookshelfdq.handleSearchbookKeyword keyword .zeroed).userBook).toList ++
        broken ∧ Broken broken := by
  have bytes : (61 : UInt8) ∉ utf8 keyword := fun member =>
    plain ((mem_utf8_iff (show '='.toNat < 128 by decide) keyword).mp member)
  have kept : 0 ∉ utf8 (stringFilter keyword) := by
    rw [← trimmed_utf8_isBlank]
    exact fun member => solid (trimmed_subset member)
  have each : ∀ count, ∃ broken, (45 :: (utf8 (stringFilter keyword)).take count : List UInt8) =
      utf8 (searchField '-' (strncpy count (stringFilter keyword))).toList ++ broken ∧
        Broken broken := by
    intro count
    rcases take_utf8 count (stringFilter keyword) with ⟨broken, taken, cut⟩
    refine ⟨broken, ?_, cut⟩
    rw [taken, searchField, String.toList_ofList]
    rfl
  rcases fieldText_plain kept with ⟨name, author, label⟩
  rw [handleSearchbookKeyword, if_pos bytes, Bookshelfdq.handleSearchbookKeyword, if_pos plain,
    trimmed_utf8_isBlank]
  cases field with
  | name =>
      have both := each (bookNameLen - 1)
      rw [← name] at both
      exact both
  | author =>
      have both := each (authorNameLen - 1)
      rw [← author] at both
      exact both
  | label =>
      have both := each (labelNameLen - 1)
      rw [← label] at both
      exact both

end SearchFields

end Bookshelfdq
