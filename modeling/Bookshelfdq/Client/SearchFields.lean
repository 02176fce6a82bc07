import Bookshelfdq.Client.SearchClauses
import Bookshelfdq.Client.StringFilter

/-! # The fields of a search entry

`handle_searchbook_keyword` on the memory of `local_book`, from `name` on. The search page sets it
to zero once and then asks for keywords until one is accepted. -/

namespace Bookshelfdq

namespace SearchFields

/-! ## The entry in memory -/

inductive SearchSlot
  | name
  | author
  | label
deriving DecidableEq

namespace SearchSlot

def size : SearchSlot → Nat
  | .name => bookNameLen + 1
  | .author => authorNameLen + 1
  | .label => maxLabelNum * (labelNameLen + 1) + 1

def offset : SearchSlot → Nat
  | .name => 0
  | .author => SearchSlot.name.size
  | .label => SearchSlot.name.size + SearchSlot.author.size

def last (slot : SearchSlot) : Nat := slot.offset + slot.size - 1

end SearchSlot

def borrowedOffset : Nat := SearchSlot.label.offset + SearchSlot.label.size

/-- With `borrowed`, `on_reading` and `encoding_time`. -/
def bookSize : Nat := borrowedOffset + 1 + 1 + 20

/-- The field that is copied to, and how many of its bytes are written, the mode among them. -/
structure Copy where
  slot : SearchSlot
  reach : Nat
deriving DecidableEq

def Copy.Fits (copy : Copy) : Prop := copy.reach ≤ copy.slot.size

/-- The memory of the entry, what has been copied into it, and `rt`. -/
structure Handling where
  book : List UInt8
  copies : List Copy
  rt : Nat

/-! ## `handle_searchbook_keyword` -/

/-- `sub_len`, and the longest keyword that the page reads. -/
def subLen : Nat := bookNameLen + authorNameLen + 31

/-- `string_splitter`. -/
def stringSplitter (desLen : Nat) (chAim : UInt8) : List UInt8 → Nat → Option (List UInt8)
  | srcStr, 0 =>
      some ((trimmed StringFilter.isBlank (srcStr.takeWhile (· != chAim))).take desLen)
  | srcStr, partPos + 1 =>
      match srcStr.dropWhile (· != chAim) with
      | [] => none
      | _ :: rest => stringSplitter desLen chAim rest partPos

def keyBytes (key : SearchKey) : List UInt8 := key.text.map fun character => character.toNat.toUInt8

namespace Handling

/-- The fields and both flags are set to `'0'`. -/
def start (book : List UInt8) : Handling where
  book :=
    ((((book.set SearchSlot.name.offset 48).set SearchSlot.author.offset 48).set
      SearchSlot.label.offset 48).set (borrowedOffset + 1) 48).set borrowedOffset 48
  copies := []
  rt := 0

/-- The mode, and `strcpy` behind it. -/
def strcpy (slot : SearchSlot) (mode : UInt8) (value : List UInt8) (handling : Handling) :
    Handling where
  book := Terminated.store (handling.book.set slot.offset mode) (slot.offset + 1) (value ++ [0])
  copies := handling.copies ++ [⟨slot, 1 + (value.length + 1)⟩]
  rt := handling.rt + 1

/-- The mode, and `strncpy` behind it, which fills `count` bytes. -/
def strncpy (slot : SearchSlot) (mode : UInt8) (value : List UInt8) (count : Nat)
    (handling : Handling) : Handling where
  book := Terminated.store (handling.book.set slot.offset mode) (slot.offset + 1)
    (value.take count ++ List.replicate (count - value.length) 0)
  copies := handling.copies ++ [⟨slot, 1 + count⟩]
  rt := handling.rt

def setFlag (offset : Nat) (handling : Handling) : Handling :=
  { handling with book := handling.book.set offset 49, rt := handling.rt + 1 }

/-- `name[0] == '='`. -/
def nameIsExact (handling : Handling) : Bool :=
  handling.book[SearchSlot.name.offset]? == some 61

/-- The body of the loop over the clauses. -/
def clause (subKeyword : List UInt8) (handling : Handling) : Handling :=
  match stringSplitter subLen 61 subKeyword 0 with
  | none => handling
  | some key =>
      let value := (stringSplitter subLen 61 subKeyword 1).getD []
      if key = keyBytes .r then
        if value = [49] then handling.setFlag (borrowedOffset + 1) else handling
      else if key = keyBytes .o then
        if value = [49] then handling.setFlag borrowedOffset else handling
      else if key = keyBytes .b then
        if handling.nameIsExact then handling else handling.strcpy .name 43 value
      else if key = keyBytes .a then
        if handling.nameIsExact then handling else handling.strcpy .author 43 value
      else if key = keyBytes .l then
        if handling.nameIsExact then handling else handling.strcpy .label 43 value
      else if key = keyBytes .book then handling.strcpy .name 61 value
      else if key = keyBytes .author then handling.strcpy .author 61 value
      else handling

/-- The loop over the clauses from the part `i` on. There are fewer parts than `fuel`. -/
def clauseLoop (keyword : List UInt8) : Nat → Nat → Handling → Handling
  | 0, _, handling => handling
  | fuel + 1, i, handling =>
      match stringSplitter subLen 59 keyword i with
      | none => handling
      | some subKeyword => clauseLoop keyword fuel (i + 1) (clause subKeyword handling)

end Handling

def handleSearchbookKeyword (keyword book : List UInt8) : Handling :=
  let kwptr := trimmed StringFilter.isBlank keyword
  let handling := Handling.start book
  if 61 ∉ keyword then
    { (((handling.strncpy .name 45 kwptr (bookNameLen - 1)).strncpy .author 45 kwptr
        (authorNameLen - 1)).strncpy .label 45 kwptr (labelNameLen - 1)) with rt := 1 }
  else Handling.clauseLoop keyword (keyword.length + 2) 0 handling

/-- The memory of `local_book` when the page asks for a keyword. It asks again when nothing was found
in the one before. -/
inductive Asked : List UInt8 → Prop
  | memset : Asked (List.replicate bookSize 0)
  | again {book keyword : List UInt8} (asked : Asked book) (short : keyword.length ≤ subLen)
      (refused : (handleSearchbookKeyword keyword book).rt = 0) : Asked (handleSearchbookKeyword keyword book).book

/-- No copy leaves its field, and each field ends inside. -/
structure FieldsFit (handling : Handling) : Prop where
  copies : ∀ copy ∈ handling.copies, copy.Fits
  ends : ∀ slot : SearchSlot,
    (Terminated.text 0 (handling.book.drop slot.offset)).length < slot.size

/-! ## Clauses of a keyword -/

/-- The key and the value of the part between two semicolons, without the blanks around them. -/
def partKey (part : List UInt8) : List UInt8 :=
  trimmed StringFilter.isBlank ((trimmed StringFilter.isBlank part).takeWhile (· != 61))

def partValue (part : List UInt8) : List UInt8 :=
  trimmed StringFilter.isBlank
    ((((trimmed StringFilter.isBlank part).splitOn 61)[1]?).getD [])

/-- The field that a clause is for. -/
def keySlot : SearchKey → Option SearchSlot
  | .b => some .name
  | .a => some .author
  | .l => some .label
  | .book => some .name
  | .author => some .author
  | .r => none
  | .o => none

/-- These clauses are skipped behind a clause for the whole name. -/
def Ranged (key : SearchKey) : Prop := key = .b ∨ key = .a ∨ key = .l

/-- The value of a clause is skipped or short enough for its field. -/
def PartFits (before : List (List UInt8)) (part : List UInt8) : Prop :=
  ∀ key slot, partKey part = keyBytes key → keySlot key = some slot →
    (Ranged key → ∀ earlier ∈ before, partKey earlier ≠ keyBytes .book) →
    1 + ((partValue part).length + 1) ≤ slot.size

/-- The values that are copied are short enough for the field that they are for. -/
def ValuesFit (keyword : List UInt8) : Prop :=
  61 ∈ keyword → ∀ before part after, keyword.splitOn 59 = before ++ part :: after →
    PartFits before part

/-! ## The parts -/

theorem stringSplitter_eq {desLen : Nat} (chAim : UInt8) {srcStr : List UInt8}
    (short : srcStr.length ≤ desLen) (partPos : Nat) :
    stringSplitter desLen chAim srcStr partPos =
      ((srcStr.splitOn chAim)[partPos]?).map (trimmed StringFilter.isBlank) := by
  induction partPos generalizing srcStr with
  | zero =>
      have fits := (length_trimmed_le StringFilter.isBlank (srcStr.takeWhile (· != chAim))).trans
        ((List.takeWhile_prefix _).length_le.trans short)
      rw [splitOn_eq_takeWhile, stringSplitter, List.take_of_length_le fits]
      rfl
  | succ partPos induction =>
      rw [stringSplitter, splitOn_eq_takeWhile, List.getElem?_cons_succ]
      cases behind : srcStr.dropWhile (· != chAim) with
      | nil => rfl
      | cons separator rest =>
          have suffix := (List.dropWhile_suffix (· != chAim) (l := srcStr)).length_le
          rw [behind, List.length_cons] at suffix
          exact induction (by omega)

theorem Handling.clauseLoop_eq {keyword : List UInt8} (short : keyword.length ≤ subLen)
    (fuel i : Nat) (handling : Handling)
    (enough : (keyword.splitOn 59).length < i + fuel) :
    clauseLoop keyword fuel i handling =
      ((keyword.splitOn 59).drop i).foldl (fun handling part =>
        clause (trimmed StringFilter.isBlank part) handling) handling := by
  apply loop_eq_foldl (clauseLoop keyword) (fun _ _ => rfl) _ fuel i handling enough
  intro fuel i handling
  rw [clauseLoop, stringSplitter_eq 59 short]
  cases (keyword.splitOn 59)[i]? with
  | none => rfl
  | some part => rfl

/-- A keyword with a `=` is handled clause by clause. -/
theorem handle_clauses {keyword : List UInt8} (equals : 61 ∈ keyword)
    (short : keyword.length ≤ subLen) (book : List UInt8) :
    handleSearchbookKeyword keyword book =
      (keyword.splitOn 59).foldl (fun handling part =>
        Handling.clause (trimmed StringFilter.isBlank part) handling) (Handling.start book) := by
  have parts := length_splitOn_le 59 keyword
  rw [handleSearchbookKeyword, if_neg (not_not.mpr equals), Handling.clauseLoop_eq short _ 0 _ (by omega)]
  rfl

theorem keyBytes_injective {key other : SearchKey} (same : keyBytes key = keyBytes other) :
    key = other := by
  cases key <;> cases other <;> first | rfl | exact absurd same (by decide)

namespace Handling

/-- What a clause does. -/
def apply (handling : Handling) : SearchKey → List UInt8 → Handling
  | .r, value => if value = [49] then handling.setFlag (borrowedOffset + 1) else handling
  | .o, value => if value = [49] then handling.setFlag borrowedOffset else handling
  | .b, value => if handling.nameIsExact then handling else handling.strcpy .name 43 value
  | .a, value => if handling.nameIsExact then handling else handling.strcpy .author 43 value
  | .l, value => if handling.nameIsExact then handling else handling.strcpy .label 43 value
  | .book, value => handling.strcpy .name 61 value
  | .author, value => handling.strcpy .author 61 value

theorem apply_ranged (handling : Handling) {key : SearchKey} (ranged : Ranged key) :
    ∃ slot, keySlot key = some slot ∧ ∀ value, handling.apply key value =
      if handling.nameIsExact then handling else handling.strcpy slot 43 value := by
  rcases ranged with rfl | rfl | rfl
  · exact ⟨.name, rfl, fun _ => rfl⟩
  · exact ⟨.author, rfl, fun _ => rfl⟩
  · exact ⟨.label, rfl, fun _ => rfl⟩

theorem apply_precise (handling : Handling) {key : SearchKey} {slot : SearchSlot}
    (precise : ¬Ranged key) (slotted : keySlot key = some slot) (value : List UInt8) :
    (key = .book ↔ slot = .name) ∧
      handling.apply key value = handling.strcpy slot 61 value := by
  cases key with
  | book =>
      cases slotted
      exact ⟨⟨fun _ => rfl, fun _ => rfl⟩, rfl⟩
  | author =>
      cases slotted
      refine ⟨?_, rfl⟩
      constructor
      · intro same
        cases same
      · intro same
        cases same
  | b => exact absurd (.inl rfl) precise
  | a => exact absurd (.inr (.inl rfl)) precise
  | l => exact absurd (.inr (.inr rfl)) precise
  | r => cases slotted
  | o => cases slotted

theorem apply_flag (handling : Handling) {key : SearchKey} (flag : keySlot key = none)
    (value : List UInt8) :
    handling.apply key value = handling ∨
      ∃ offset, borrowedOffset ≤ offset ∧ handling.apply key value = handling.setFlag offset := by
  cases key with
  | r =>
      rw [apply]
      split
      · exact .inr ⟨_, Nat.le_succ _, rfl⟩
      · exact .inl rfl
  | o =>
      rw [apply]
      split
      · exact .inr ⟨_, Nat.le_refl _, rfl⟩
      · exact .inl rfl
  | b => cases flag
  | a => cases flag
  | l => cases flag
  | book => cases flag
  | author => cases flag

variable {part : List UInt8} (short : part.length ≤ subLen)

include short

theorem splitter_part :
    stringSplitter subLen 61 (trimmed StringFilter.isBlank part) 0 = some (partKey part) ∧
      (stringSplitter subLen 61 (trimmed StringFilter.isBlank part) 1).getD [] =
        partValue part := by
  have fits := (length_trimmed_le StringFilter.isBlank part).trans short
  rw [stringSplitter_eq 61 fits, stringSplitter_eq 61 fits, partKey, partValue]
  constructor
  · rw [splitOn_eq_takeWhile]
    rfl
  · cases ((trimmed StringFilter.isBlank part).splitOn 61)[1]? with
    | none => rfl
    | some value => rfl

theorem clause_of_key (handling : Handling) {key : SearchKey}
    (keyed : partKey part = keyBytes key) :
    handling.clause (trimmed StringFilter.isBlank part) =
      handling.apply key (partValue part) := by
  rcases splitter_part short with ⟨first, second⟩
  rw [clause, first, second, keyed]
  cases key <;> rfl

theorem clause_of_none (handling : Handling) (none : ∀ key, partKey part ≠ keyBytes key) :
    handling.clause (trimmed StringFilter.isBlank part) = handling := by
  rcases splitter_part short with ⟨first, second⟩
  rw [clause, first, second]
  dsimp only
  rw [if_neg (none .r), if_neg (none .o), if_neg (none .b), if_neg (none .a), if_neg (none .l),
    if_neg (none .book), if_neg (none .author)]

/-- What the body of the loop does with a part. -/
theorem clause_cases (handling : Handling) :
    (∃ key slot mode, partKey part = keyBytes key ∧ keySlot key = some slot ∧
        (Ranged key → handling.nameIsExact = false) ∧ (key = .book ↔ slot = .name ∧ mode = 61) ∧
        handling.clause (trimmed StringFilter.isBlank part) =
          handling.strcpy slot mode (partValue part)) ∨
      ((∀ key slot, partKey part = keyBytes key → keySlot key = some slot →
          Ranged key ∧ handling.nameIsExact = true) ∧
        (handling.clause (trimmed StringFilter.isBlank part) = handling ∨
          ∃ offset, borrowedOffset ≤ offset ∧
            handling.clause (trimmed StringFilter.isBlank part) = handling.setFlag offset)) := by
  by_cases keyed : ∃ key, partKey part = keyBytes key
  · rcases keyed with ⟨key, keyed⟩
    have unique : ∀ other, partKey part = keyBytes other → other = key := by
      intro other otherKeyed
      exact keyBytes_injective (otherKeyed.symm.trans keyed)
    rw [clause_of_key short handling keyed]
    by_cases ranged : Ranged key
    · rcases handling.apply_ranged ranged with ⟨slot, slotted, applied⟩
      rw [applied]
      cases exact : handling.nameIsExact with
      | false =>
          refine .inl ⟨key, slot, 43, keyed, slotted, fun _ => rfl, ?_, rfl⟩
          constructor
          · rintro rfl
            rcases ranged with same | same | same <;> cases same
          · rintro ⟨_, mode⟩
            exact absurd mode (by decide)
      | true =>
          refine .inr ⟨?_, .inl rfl⟩
          intro other _ otherKeyed _
          exact ⟨unique other otherKeyed ▸ ranged, rfl⟩
    · cases slotted : keySlot key with
      | none =>
          refine .inr ⟨?_, handling.apply_flag slotted _⟩
          intro other slot otherKeyed otherSlotted
          rw [unique other otherKeyed, slotted] at otherSlotted
          cases otherSlotted
      | some slot =>
          rcases handling.apply_precise ranged slotted (partValue part) with ⟨book, applied⟩
          refine .inl ⟨key, slot, 61, keyed, slotted, fun range => absurd range ranged, ?_, applied⟩
          rw [book]
          exact ⟨fun name => ⟨name, rfl⟩, fun both => both.1⟩
  · have none : ∀ key, partKey part ≠ keyBytes key := fun key same => keyed ⟨key, same⟩
    exact .inr ⟨fun key _ same => absurd same (none key),
      .inl (clause_of_none short handling none)⟩

end Handling

/-! ## What stays in memory -/

/-- The fields lie one behind the other. -/
theorem SearchSlot.apart {slot other : SearchSlot} (different : other ≠ slot) :
    other.last < slot.offset ∨ slot.offset + slot.size ≤ other.last := by
  cases slot <;> cases other <;> first | exact absurd rfl different | exact .inl (by decide) |
    exact .inr (by decide)

theorem SearchSlot.inside (slot : SearchSlot) :
    slot.offset < slot.last ∧ slot.last + 1 = slot.offset + slot.size ∧
      slot.last < borrowedOffset := by
  cases slot <;> decide

theorem offset_ne_last (slot other : SearchSlot) : slot.offset ≠ other.last := by
  cases slot <;> cases other <;> decide

/-- A field ends with its last byte at the latest. -/
structure Held (book : List UInt8) : Prop where
  size : bookSize ≤ book.length
  ends : ∀ slot : SearchSlot, book[slot.last]? = some 0

namespace Held

variable {book : List UInt8} (held : Held book)

include held

theorem set {position : Nat} (other : ∀ slot : SearchSlot, position ≠ slot.last) (byte : UInt8) :
    Held (book.set position byte) where
  size := by
    rw [List.length_set]
    exact held.size
  ends := by
    intro slot
    rw [List.getElem?_set_ne (other slot)]
    exact held.ends slot

/-- What is written behind the mode of a field, and may be followed by its terminator. -/
theorem store {slot : SearchSlot} {bytes : List UInt8}
    (fits : 1 + bytes.length ≤ slot.size)
    (terminated : 1 + bytes.length = slot.size → bytes.getLast? = some 0) :
    Held (Terminated.store book (slot.offset + 1) bytes) := by
  rcases slot.inside with ⟨begins, reach, inBook⟩
  have size : borrowedOffset ≤ book.length := le_trans (by decide) held.size
  have position : slot.offset + 1 ≤ book.length := by omega
  refine ⟨held.size.trans (Terminated.length_le_store position bytes), ?_⟩
  intro other
  by_cases same : other = slot
  · rw [same]
    by_cases full : 1 + bytes.length = slot.size
    · have last := terminated full
      have written : slot.last = slot.offset + 1 + (bytes.length - 1) := by omega
      have some : bytes.length - 1 < bytes.length := by omega
      rw [written, Terminated.getElem?_store_at position some, ← List.getLast?_eq_getElem?]
      exact last
    · rw [Terminated.getElem?_store_behind position (by omega)]
      exact held.ends slot
  · rcases SearchSlot.apart same with before | behind
    · rw [Terminated.getElem?_store_before position (by omega)]
      exact held.ends other
    · rw [Terminated.getElem?_store_behind position (by omega)]
      exact held.ends other

theorem text (slot : SearchSlot) : (Terminated.text 0 (book.drop slot.offset)).length < slot.size := by
  rcases slot.inside with ⟨begins, reach, _⟩
  have ends : (book.drop slot.offset)[slot.size - 1]? = some 0 := by
    rw [List.getElem?_drop, show slot.offset + (slot.size - 1) = slot.last by omega]
    exact held.ends slot
  have short := Terminated.length_text_le ends
  omega

end Held

/-! ## Runs of clauses -/

/-- Of every handling on the way. -/
structure Sound (handling : Handling) : Prop where
  size : bookSize ≤ handling.book.length
  counted : handling.copies.length ≤ handling.rt
  held : (∀ copy ∈ handling.copies, copy.Fits) → Held handling.book

theorem flag_ne_last {offset : Nat} (flag : borrowedOffset ≤ offset) (slot : SearchSlot) :
    offset ≠ slot.last :=
  Nat.ne_of_gt (Nat.lt_of_lt_of_le slot.inside.2.2 flag)

theorem Held.start {book : List UInt8} (held : Held book) : Held (Handling.start book).book :=
  ((((held.set (offset_ne_last .name) 48).set (offset_ne_last .author) 48).set
    (offset_ne_last .label) 48).set (flag_ne_last (Nat.le_succ _)) 48).set
      (flag_ne_last (Nat.le_refl _)) 48

theorem Sound.start {book : List UInt8} (held : Held book) : Sound (Handling.start book) where
  size := held.start.size
  counted := Nat.le_refl 0
  held := fun _ => held.start

namespace Sound

variable {handling : Handling} (sound : Sound handling)

include sound

theorem inside (slot : SearchSlot) (mode : UInt8) :
    slot.offset + 1 ≤ (handling.book.set slot.offset mode).length := by
  have within : slot.offset + 1 ≤ bookSize := by
    cases slot <;> decide
  rw [List.length_set]
  exact within.trans sound.size

theorem strcpy (slot : SearchSlot) (mode : UInt8) (value : List UInt8) :
    Sound (handling.strcpy slot mode value) where
  size := by
    have grows := Terminated.length_le_store (sound.inside slot mode) (value ++ [0])
    rw [List.length_set] at grows
    exact sound.size.trans grows
  counted := by
    rw [Handling.strcpy, List.length_append]
    exact Nat.succ_le_succ sound.counted
  held := by
    intro fit
    have last : Copy.Fits ⟨slot, 1 + (value.length + 1)⟩ :=
      fit _ (List.mem_append_right _ List.mem_cons_self)
    have before : Held handling.book :=
      sound.held fun copy member => fit copy (List.mem_append_left _ member)
    apply (before.set (offset_ne_last slot) mode).store
    · rw [List.length_append]
      exact last
    · intro _
      exact List.getLast?_concat

/-- A copy that fits leaves the other fields as they are. -/
theorem strcpy_outside {slot : SearchSlot} (mode : UInt8) {value : List UInt8}
    (fits : Copy.Fits ⟨slot, 1 + (value.length + 1)⟩) {index : Nat}
    (outside : index < slot.offset ∨ slot.offset + slot.size ≤ index) :
    (handling.strcpy slot mode value).book[index]? = handling.book[index]? := by
  have inside := sound.inside slot mode
  have other : slot.offset ≠ index := by
    have some := slot.inside.1
    have reach := slot.inside.2.1
    omega
  rw [Handling.strcpy]
  rcases outside with before | behind
  · rw [Terminated.getElem?_store_before inside (Nat.lt_succ_of_lt before),
      List.getElem?_set_ne other]
  · have reach : slot.offset + 1 + (value ++ [0]).length ≤ index := by
      have room : 1 + (value.length + 1) ≤ slot.size := fits
      rw [List.length_append, List.length_singleton]
      omega
    rw [Terminated.getElem?_store_behind inside reach, List.getElem?_set_ne other]

theorem setFlag {offset : Nat} (flag : borrowedOffset ≤ offset) :
    Sound (handling.setFlag offset) where
  size := by
    rw [Handling.setFlag, List.length_set]
    exact sound.size
  counted := Nat.le_succ_of_le sound.counted
  held := fun fit => (sound.held fit).set (flag_ne_last flag) 49

theorem clause {part : List UInt8} (short : part.length ≤ subLen) :
    Sound (handling.clause (trimmed StringFilter.isBlank part)) := by
  rcases Handling.clause_cases short handling with
    ⟨_, slot, mode, _, _, _, _, copied⟩ | ⟨_, same | ⟨offset, flag, changed⟩⟩
  · rw [copied]
    exact sound.strcpy slot mode _
  · rw [same]
    exact sound
  · rw [changed]
    exact sound.setFlag flag

theorem strcpy_nameIsExact (slot : SearchSlot) (mode : UInt8) (value : List UInt8) :
    (handling.strcpy slot mode value).nameIsExact =
      if slot = .name then mode == 61 else handling.nameIsExact := by
  have read : (handling.strcpy slot mode value).book[SearchSlot.name.offset]? =
      (handling.book.set slot.offset mode)[SearchSlot.name.offset]? :=
    Terminated.getElem?_store_before (sound.inside slot mode) (Nat.succ_pos _)
  have some : SearchSlot.name.offset < handling.book.length :=
    Nat.lt_of_lt_of_le (by decide) sound.size
  rw [Handling.nameIsExact, read]
  split
  next same =>
    rw [same, List.getElem?_set_self some]
    rfl
  next different =>
    have other : slot.offset ≠ SearchSlot.name.offset := by
      cases slot with
      | name => exact absurd rfl different
      | author => decide
      | label => decide
    rw [List.getElem?_set_ne other]
    rfl

/-- The name is looked for as a whole from the first clause `book` on. -/
theorem clause_nameIsExact {part : List UInt8} (short : part.length ≤ subLen) :
    (handling.clause (trimmed StringFilter.isBlank part)).nameIsExact = true ↔
      handling.nameIsExact = true ∨ partKey part = keyBytes .book := by
  rcases Handling.clause_cases short handling with
    ⟨key, slot, mode, keyed, slotted, skipped, book, copied⟩ | ⟨skipped, unchanged⟩
  · have keyed_book : partKey part = keyBytes .book ↔ key = .book := by
      rw [keyed]
      exact ⟨keyBytes_injective, fun same => same ▸ rfl⟩
    rw [copied, sound.strcpy_nameIsExact, keyed_book]
    split
    next name =>
      rw [book, beq_iff_eq]
      constructor
      · exact fun precise => .inr ⟨name, precise⟩
      · rintro (exact | both)
        · have ranged : ¬Ranged key := fun range => by
            rw [skipped range] at exact
            cases exact
          rw [name] at slotted
          cases key with
          | book => exact (book.mp rfl).2
          | b => exact absurd (.inl rfl) ranged
          | a => cases slotted
          | l => cases slotted
          | author => cases slotted
          | r => cases slotted
          | o => cases slotted
        · exact both.2
    next other =>
      have none : key ≠ .book := fun same => other (book.mp same).1
      exact ⟨.inl, fun either => either.resolve_right none⟩
  · have none : partKey part ≠ keyBytes .book := by
      intro same
      rcases (skipped .book .name same rfl).1 with range | range | range <;> cases range
    have kept : (handling.clause (trimmed StringFilter.isBlank part)).nameIsExact =
        handling.nameIsExact := by
      rcases unchanged with same | ⟨offset, flag, changed⟩
      · rw [same]
      · have other : offset ≠ SearchSlot.name.offset :=
          Nat.ne_of_gt (Nat.lt_of_lt_of_le (by decide) flag)
        rw [changed, Handling.nameIsExact, Handling.setFlag, List.getElem?_set_ne other]
        rfl
    rw [kept]
    exact ⟨.inl, fun either => either.resolve_right none⟩

omit sound in
theorem clause_fits {part : List UInt8} (short : part.length ≤ subLen)
    {before : List (List UInt8)}
    (exact : handling.nameIsExact = true ↔ ∃ earlier ∈ before, partKey earlier = keyBytes .book) :
    (∀ copy ∈ (handling.clause (trimmed StringFilter.isBlank part)).copies, copy.Fits) ↔
      (∀ copy ∈ handling.copies, copy.Fits) ∧ PartFits before part := by
  rcases Handling.clause_cases short handling with
    ⟨key, slot, mode, keyed, slotted, skipped, _, copied⟩ | ⟨skipped, unchanged⟩
  · have fits : PartFits before part ↔ 1 + ((partValue part).length + 1) ≤ slot.size := by
      constructor
      · intro fits
        apply fits key slot keyed slotted
        intro range earlier member same
        have missed := skipped range
        rw [exact.mpr ⟨earlier, member, same⟩] at missed
        cases missed
      · intro room other otherSlot otherKeyed otherSlotted _
        rw [keyBytes_injective (otherKeyed.symm.trans keyed), slotted] at otherSlotted
        exact Option.some.inj otherSlotted ▸ room
    rw [copied, Handling.strcpy, List.forall_mem_append, List.forall_mem_singleton, fits]
    rfl
  · have copies : (handling.clause (trimmed StringFilter.isBlank part)).copies =
        handling.copies := by
      rcases unchanged with same | ⟨offset, _, changed⟩
      · rw [same]
      · rw [changed]
        rfl
    have fits : PartFits before part := by
      intro key slot keyed slotted unskipped
      rcases skipped key slot keyed slotted with ⟨range, found⟩
      rcases exact.mp found with ⟨earlier, member, same⟩
      exact absurd same (unskipped range earlier member)
    rw [copies]
    exact ⟨fun all => ⟨all, fits⟩, fun both => both.1⟩

theorem clauses {parts : List (List UInt8)} (short : ∀ part ∈ parts, part.length ≤ subLen) :
    Sound (parts.foldl (fun handling part =>
      handling.clause (trimmed StringFilter.isBlank part)) handling) := by
  induction parts generalizing handling with
  | nil => exact sound
  | cons part parts induction =>
      exact induction (sound.clause (short part List.mem_cons_self))
        fun later member => short later (List.mem_cons_of_mem _ member)

/-- A run of clauses by the values in them. -/
theorem clauses_fit {parts : List (List UInt8)} (short : ∀ part ∈ parts, part.length ≤ subLen)
    {before : List (List UInt8)}
    (exact : handling.nameIsExact = true ↔ ∃ earlier ∈ before, partKey earlier = keyBytes .book) :
    (∀ copy ∈ (parts.foldl (fun handling part =>
        handling.clause (trimmed StringFilter.isBlank part)) handling).copies, copy.Fits) ↔
      (∀ copy ∈ handling.copies, copy.Fits) ∧
        ∀ front part after, parts = front ++ part :: after → PartFits (before ++ front) part := by
  induction parts generalizing handling before with
  | nil =>
      refine ⟨fun all => ⟨all, ?_⟩, fun both => both.1⟩
      intro front part after none
      exact absurd none.symm (List.append_ne_nil_of_right_ne_nil _ (List.cons_ne_nil _ _))
  | cons part parts induction =>
      have head := short part List.mem_cons_self
      have next : (handling.clause (trimmed StringFilter.isBlank part)).nameIsExact = true ↔
          ∃ earlier ∈ before ++ [part], partKey earlier = keyBytes .book := by
        rw [sound.clause_nameIsExact head, exact]
        simp only [List.mem_append, List.mem_singleton, or_and_right, exists_or, exists_eq_left]
      rw [List.foldl_cons, induction (sound.clause head)
        (fun later member => short later (List.mem_cons_of_mem _ member)) next,
        clause_fits head exact, and_assoc]
      apply and_congr_right
      intro _
      constructor
      · rintro ⟨first, later⟩ front other after split
        cases front with
        | nil =>
            rw [List.append_nil]
            exact (List.cons.inj split).1 ▸ first
        | cons same front =>
            rcases List.cons.inj split with ⟨rfl, rest⟩
            rw [List.append_cons]
            exact later front other after rest
      · intro all
        refine ⟨?_, ?_⟩
        · have first := all [] part parts rfl
          rw [List.append_nil] at first
          exact first
        · intro front other after split
          rw [← List.append_cons]
          exact all (part :: front) other after (congrArg (part :: ·) split)

end Sound

/-! ## Keywords -/

theorem start_nameIsExact {book : List UInt8} (held : Held book) :
    (Handling.start book).nameIsExact = false := by
  have some : SearchSlot.name.offset < book.length := Nat.lt_of_lt_of_le (by decide) held.size
  have read : (Handling.start book).book[SearchSlot.name.offset]? = .some 48 := by
    rw [Handling.start, List.getElem?_set_ne (by decide), List.getElem?_set_ne (by decide),
      List.getElem?_set_ne (by decide), List.getElem?_set_ne (by decide),
      List.getElem?_set_self some]
  rw [Handling.nameIsExact, read]
  rfl

/-- A bounded copy that leaves room for a terminator. -/
theorem Held.strncpy {handling : Handling} (held : Held handling.book) {slot : SearchSlot}
    {count : Nat} (room : 1 + count < slot.size) (mode : UInt8) (value : List UInt8) :
    Held (handling.strncpy slot mode value count).book := by
  have length : (value.take count ++ List.replicate (count - value.length) (0 : UInt8)).length =
      count := by
    rw [List.length_append, List.length_take, List.length_replicate]
    omega
  apply (held.set (offset_ne_last slot) mode).store
  · rw [length]
    exact room.le
  · rw [length]
    exact fun full => absurd full room.ne

/-- The bounds of `strncpy` leave room for a terminator. -/
theorem handle_plain {keyword book : List UInt8} (held : Held book) (plain : 61 ∉ keyword) :
    (∀ copy ∈ (handleSearchbookKeyword keyword book).copies, copy.Fits) ∧ Held (handleSearchbookKeyword keyword book).book ∧
      (handleSearchbookKeyword keyword book).rt = 1 := by
  rw [handleSearchbookKeyword, if_pos plain]
  have name : Held ((Handling.start book).strncpy .name 45 _ (bookNameLen - 1)).book :=
    held.start.strncpy (by decide) _ (trimmed StringFilter.isBlank keyword)
  have author := @Held.strncpy _ name .author (authorNameLen - 1) (by decide) 45
    (trimmed StringFilter.isBlank keyword)
  have label := @Held.strncpy _ author .label (labelNameLen - 1) (by decide) 45
    (trimmed StringFilter.isBlank keyword)
  refine ⟨?_, label, rfl⟩
  intro copy member
  have copies : copy ∈ ([⟨.name, 1 + (bookNameLen - 1)⟩, ⟨.author, 1 + (authorNameLen - 1)⟩,
      ⟨.label, 1 + (labelNameLen - 1)⟩] : List Copy) := member
  rcases List.mem_cons.mp copies with rfl | later
  · exact Nat.le_succ _
  · rcases List.mem_cons.mp later with rfl | last
    · exact Nat.le_succ _
    · rw [List.mem_singleton.mp last, Copy.Fits]
      decide

theorem handle_sound {keyword book : List UInt8} (held : Held book)
    (short : keyword.length ≤ subLen) :
    ((∀ copy ∈ (handleSearchbookKeyword keyword book).copies, copy.Fits) → Held (handleSearchbookKeyword keyword book).book) ∧
      ((handleSearchbookKeyword keyword book).rt = 0 → (handleSearchbookKeyword keyword book).copies = []) := by
  by_cases equals : 61 ∈ keyword
  · have sound : Sound (handleSearchbookKeyword keyword book) := by
      rw [handle_clauses equals short]
      exact (Sound.start held).clauses fun part member =>
        (length_le_of_mem_splitOn member).trans short
    refine ⟨sound.held, ?_⟩
    intro none
    exact List.length_eq_zero_iff.mp (Nat.le_zero.mp (none ▸ sound.counted))
  · rcases handle_plain held equals with ⟨_, after, found⟩
    refine ⟨fun _ => after, ?_⟩
    intro none
    rw [found] at none
    cases none

theorem Asked.held {book : List UInt8} (asked : Asked book) : Held book := by
  induction asked with
  | memset =>
      refine ⟨List.length_replicate.ge, ?_⟩
      intro slot
      rw [List.getElem?_replicate_of_lt]
      cases slot <;> decide
  | again _ short refused held =>
      rcases handle_sound held short with ⟨after, none⟩
      apply after
      rw [none refused]
      exact fun _ member => absurd member List.not_mem_nil

/-- The copies by the values of the clauses. -/
theorem copies_fit_iff {book keyword : List UInt8} (held : Held book)
    (short : keyword.length ≤ subLen) :
    (∀ copy ∈ (handleSearchbookKeyword keyword book).copies, copy.Fits) ↔ ValuesFit keyword := by
  by_cases equals : 61 ∈ keyword
  · have unset := start_nameIsExact held
    have exact : (Handling.start book).nameIsExact = true ↔
        ∃ earlier ∈ ([] : List (List UInt8)), partKey earlier = keyBytes .book := by
      rw [unset]
      simp
    have parts : ∀ part ∈ keyword.splitOn 59, part.length ≤ subLen :=
      fun part member => (length_le_of_mem_splitOn member).trans short
    have fit := (Sound.start held).clauses_fit parts exact
    rw [handle_clauses equals short, fit, ValuesFit]
    constructor
    · exact fun both _ => both.2
    · exact fun values => ⟨fun _ member => absurd member List.not_mem_nil, values equals⟩
  · exact ⟨fun _ some => absurd some equals, fun _ => (handle_plain held equals).1⟩

/-- The fields hold what is copied into them if and only if the value of each clause that is not
skipped fits the field of its key: 191 bytes for `b` and `book`, 95 for `a` and `author`, 189 for
`l`. -/
theorem search_values_fit_iff {book keyword : List UInt8} (asked : Asked book)
    (short : keyword.length ≤ subLen) : FieldsFit (handleSearchbookKeyword keyword book) ↔ ValuesFit keyword := by
  have copies := copies_fit_iff asked.held short
  constructor
  · exact fun fit => copies.mp fit.copies
  · intro values
    have fit := copies.mpr values
    have held := (handle_sound asked.held short).1 fit
    exact ⟨fit, held.text⟩

/-- `l=` and 189 characters. -/
def longLabel : List UInt8 := [108, 61] ++ List.replicate 189 120

set_option maxRecDepth 4000 in
theorem longest_label_fits : FieldsFit (handleSearchbookKeyword longLabel (List.replicate bookSize 0)) := by
  apply (search_values_fit_iff .memset (by decide)).mpr
  intro _ before part after split key slot keyed slotted _
  have single : longLabel.splitOn 59 = [longLabel] := by decide
  have same : part = longLabel := by
    have member : part ∈ longLabel.splitOn 59 := split ▸ List.mem_append_cons_self
    rw [single] at member
    exact List.mem_singleton.mp member
  rw [same] at keyed
  have label : key = .l := keyBytes_injective (keyed.symm.trans (by decide))
  have length : (partValue longLabel).length = 189 := by decide
  rw [label] at slotted
  cases slotted
  rw [same, length]
  decide

/-- `a=` and 96 characters: the terminator is written over the mode of the label. -/
theorem author_beyond_field :
    ¬∀ book keyword, Asked book → keyword.length ≤ subLen → (handleSearchbookKeyword keyword book).rt ≠ 0 →
      FieldsFit (handleSearchbookKeyword keyword book) := by
  intro all
  have fit := all _ ([97, 61] ++ List.replicate 96 120) .memset (by decide) (by decide)
  have copy := fit.copies ⟨.author, 98⟩ (by decide)
  exact absurd copy (Nat.not_le.mpr (by decide))

end SearchFields

end Bookshelfdq
