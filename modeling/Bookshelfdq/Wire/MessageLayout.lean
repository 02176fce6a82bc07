import Bookshelfdq.Client.LimitStrWidth
import Bookshelfdq.Foundation.Layout
import Bookshelfdq.Foundation.Terminated
import Bookshelfdq.Server.EscapeBuffers
import Bookshelfdq.Server.Framing

/-! # A message in memory

`message_cs_t` as the compilers of client and server lay it out: little-endian integers of four
bytes, on addresses that four divides. What a field leaves of its bytes is whatever was there. -/

namespace Bookshelfdq

/-! ## Fields -/

namespace Field

def intBytes (value : Int) : List UInt8 :=
  let word := (value % 4294967296).toNat
  [UInt8.ofNat word, UInt8.ofNat (word / 256), UInt8.ofNat (word / 65536),
    UInt8.ofNat (word / 16777216)]

def intOfBytes : List UInt8 → Option Int
  | [first, second, third, fourth] =>
      let word := first.toNat + 256 * second.toNat + 65536 * third.toNat +
        16777216 * fourth.toNat
      some (if word < 2147483648 then (word : Int) else (word : Int) - 4294967296)
  | _ => none

theorem intOfBytes_range {bytes : List UInt8} {value : Int} (loaded : intOfBytes bytes = some value) :
    -2147483648 ≤ value ∧ value < 2147483648 := by
  rcases bytes with _ | ⟨first, _ | ⟨second, _ | ⟨third, _ | ⟨fourth, _ | ⟨_, _⟩⟩⟩⟩⟩ <;>
    simp only [intOfBytes, reduceCtorEq, Option.some.injEq] at loaded
  have firstByte := first.toNat_lt
  have secondByte := second.toNat_lt
  have thirdByte := third.toNat_lt
  have fourthByte := fourth.toNat_lt
  omega

theorem intOfBytes_intBytes {value : Int} (lower : -2147483648 ≤ value)
    (upper : value < 2147483648) : intOfBytes (intBytes value) = some value := by
  simp only [intBytes, intOfBytes, UInt8.toNat_ofNat', Option.some.injEq]
  omega

/-- An `int`. -/
def int : Layout UInt8 Int where
  size := 4
  fits value := -2147483648 ≤ value ∧ value < 2147483648
  store value _ := intBytes value
  load := intOfBytes
  length_store _ _ _ _ := rfl
  load_store _ _ fits _ := intOfBytes_intBytes fits.1 fits.2
  fits_load _ _ _ loaded := intOfBytes_range loaded

/-- A `char`. -/
def char : Layout UInt8 Char :=
  (Layout.single UInt8).through (fun character => character.toNat < 256)
    (fun character => UInt8.ofNat character.toNat) (fun byte => some (Char.ofNat byte.toNat))
    (fun character small => by
      rw [UInt8.toNat_ofNat', Nat.mod_eq_of_lt small, Char.ofNat_toNat])
    (fun byte character same => by
      have valid : byte.toNat.isValidChar := by
        left
        have bound := byte.toNat_lt
        omega
      rw [← Option.some.inj same, Char.ofNat, dif_pos valid]
      exact ⟨byte.toNat_lt, UInt8.ofNat_toNat⟩)

/-- A text that fits a character array. -/
structure TextFits (capacity : Nat) (text : String) : Prop where
  short : strlen text < capacity
  unterminated : nulChar ∉ text.toList

def storeText (text : String) (old : List UInt8) : List UInt8 :=
  utf8 text.toList ++ 0 :: old.drop ((utf8 text.toList).length + 1)

/-- The text before the terminator. -/
def loadText (bytes : List UInt8) : Option String :=
  if 0 ∈ bytes then String.fromUTF8? (Terminated.text 0 bytes).toByteArray else none

theorem length_utf8_toList (text : String) : (utf8 text.toList).length = strlen text := by
  rw [strlen, utf8, List.length_flatMap]
  congr 1
  apply List.map_congr_left
  intro character _
  exact String.length_utf8EncodeChar character

theorem fromUTF8_utf8 (text : String) :
    String.fromUTF8? (utf8 text.toList).toByteArray = some text := by
  have bytes : (utf8 text.toList).toByteArray = text.toByteArray := by
    rw [utf8, ← List.utf8Encode, ← String.toByteArray_ofList, String.ofList_toList]
  rw [bytes, String.fromUTF8?, dif_pos text.isValidUTF8]
  rfl

theorem utf8_of_fromUTF8 {bytes : List UInt8} {text : String}
    (decoded : String.fromUTF8? bytes.toByteArray = some text) : utf8 text.toList = bytes := by
  rw [String.fromUTF8?] at decoded
  split at decoded
  · have array : text.toByteArray = bytes.toByteArray := by
      rw [← Option.some.inj decoded]
      rfl
    rw [← String.ofList_toList (s := text), String.toByteArray_ofList, List.utf8Encode] at array
    have data := congrArg (fun array => array.data.toList) array
    simpa [utf8] using data
  · cases decoded

theorem textFits_of_loadText {bytes : List UInt8} {text : String}
    (loaded : loadText bytes = some text) : TextFits bytes.length text := by
  rw [loadText] at loaded
  split at loaded
  · rename_i terminated
    have bytesOf := utf8_of_fromUTF8 loaded
    rcases List.getElem?_of_mem terminated with ⟨index, ends⟩
    have inside := (List.getElem?_eq_some_iff.mp ends).1
    refine ⟨?_, ?_⟩
    · rw [← length_utf8_toList, bytesOf]
      exact (Terminated.length_text_le ends).trans_lt inside
    · intro member
      have zero : (0 : UInt8) ∈ utf8 text.toList :=
        List.mem_flatMap.mpr ⟨nulChar, member, by decide⟩
      rw [bytesOf, Terminated.text] at zero
      simpa using List.mem_takeWhile_imp zero
  · cases loaded

/-- A character array that holds a text. -/
def text (capacity : Nat) : Layout UInt8 String where
  size := capacity
  fits := TextFits capacity
  store := storeText
  load := loadText
  length_store text old fits size := by
    rw [storeText, List.length_append, List.length_cons, List.length_drop, size,
      length_utf8_toList]
    have bound := fits.1
    omega
  load_store text old fits size := by
    rw [loadText, storeText, if_pos (by simp), Terminated.text_append (zero_not_mem_utf8 fits.2)]
    exact fromUTF8_utf8 text
  fits_load text bytes size loaded := by
    rw [← size]
    exact textFits_of_loadText loaded

/-- A time stamp, in an array of twenty. -/
def time : Layout UInt8 PlainText :=
  (text 20).through (fun _ => True) PlainText.text
    (fun text => if plain : text.toList.any breaksLiteral = false then some ⟨text, plain⟩ else none)
    (fun time _ => dif_pos time.plain)
    (fun text time decoded => by
      split at decoded
      · exact ⟨trivial, by rw [← Option.some.inj decoded]⟩
      · cases decoded)

/-- An `enum` with the given values. -/
def enumeration {Value : Type} [DecidableEq Value] (values : List Value)
    (distinct : values.Nodup) : Layout UInt8 Value :=
  int.through (fun value => value ∈ values) (fun value => (values.idxOf value : Int))
    (fun code => if 0 ≤ code then values[code.toNat]? else none)
    (fun value member => by
      rw [if_pos (Int.natCast_nonneg _), Int.toNat_natCast]
      exact List.getElem?_idxOf member)
    (fun code value decoded => by
      split at decoded
      · rename_i nonneg
        rcases List.getElem?_eq_some_iff.mp decoded with ⟨inside, rfl⟩
        refine ⟨List.getElem_mem inside, ?_⟩
        rw [distinct.idxOf_getElem _ inside]
        exact Int.toNat_of_nonneg nonneg
      · cases decoded)

def FloorsFit (depths : List Nat) : Prop :=
  depths.length ≤ maxFloors ∧ ∀ depth ∈ depths, depth < 256

def storeFloors (depths : List Nat) (old : List UInt8) : List UInt8 :=
  UInt8.ofNat depths.length :: (depths.map UInt8.ofNat ++ old.drop (1 + depths.length))

def loadFloors : List UInt8 → Option (List Nat)
  | [] => none
  | count :: bytes =>
      if count.toNat ≤ maxFloors then some ((bytes.take count.toNat).map UInt8.toNat) else none

theorem length_storeFloors (depths : List Nat) (old : List UInt8) (fits : FloorsFit depths)
    (size : old.length = 1 + maxFloors) : (storeFloors depths old).length = 1 + maxFloors := by
  have bound := fits.1
  rw [storeFloors, List.length_cons, List.length_append, List.length_map, List.length_drop, size]
  omega

theorem loadFloors_storeFloors (depths : List Nat) (old : List UInt8) (fits : FloorsFit depths)
    (_ : old.length = 1 + maxFloors) : loadFloors (storeFloors depths old) = some depths := by
  have small : depths.length % 256 = depths.length :=
    Nat.mod_eq_of_lt (Nat.lt_of_le_of_lt fits.1 (by decide))
  have same : (depths.map UInt8.ofNat).map UInt8.toNat = depths := by
    rw [List.map_map]
    calc
      depths.map (UInt8.toNat ∘ UInt8.ofNat) = depths.map id := by
        apply List.map_congr_left
        intro depth member
        rw [Function.comp, UInt8.toNat_ofNat', Nat.mod_eq_of_lt (fits.2 depth member), id]
      _ = depths := List.map_id _
  simp only [storeFloors, loadFloors, UInt8.toNat_ofNat', small, if_pos fits.1]
  rw [List.take_left' (by simp), same]

theorem floorsFit_of_loadFloors (depths : List Nat) (bytes : List UInt8)
    (_ : bytes.length = 1 + maxFloors) (loaded : loadFloors bytes = some depths) :
    FloorsFit depths := by
  cases bytes with
  | nil => cases loaded
  | cons count bytes =>
      rw [loadFloors] at loaded
      split at loaded
      · rename_i bound
        rw [← Option.some.inj loaded]
        refine ⟨?_, ?_⟩
        · rw [List.length_map, List.length_take]
          omega
        · intro depth member
          rcases List.mem_map.mp member with ⟨byte, _, rfl⟩
          exact byte.toNat_lt
      · cases loaded

/-- `nfloors` and `ndepth`: a count, and an array of which so many bytes are in use. -/
def floors : Layout UInt8 (List Nat) where
  size := 1 + maxFloors
  fits := FloorsFit
  store := storeFloors
  load := loadFloors
  length_store := length_storeFloors
  load_store := loadFloors_storeFloors
  fits_load := floorsFit_of_loadFloors

end Field

/-! ## Records -/

open Bookshelfdq.Field

def bookLayout : Layout UInt8 BookEntry :=
  ((int.array 3).pair ((text (bookNameLen + 1)).pair ((text (authorNameLen + 1)).pair
    ((text (maxLabelNum * (labelNameLen + 1) + 1)).pair (char.pair (char.pair
      time)))))).through (fun _ => True)
    (fun book => ([book.shelfno, book.floorno, book.bookno], book.name, book.author, book.label,
      book.borrowed, book.onReading, book.encodingTime))
    (fun
      | ([shelfno, floorno, bookno], name, author, label, borrowed, onReading, encodingTime) =>
          some { shelfno, floorno, bookno, name, author, label, borrowed, onReading, encodingTime }
      | _ => none)
    (fun _ _ => rfl)
    (fun fields book decoded => by
      split at decoded
      · exact ⟨trivial, by rw [← Option.some.inj decoded]⟩
      · cases decoded)

def shelfLayout : Layout UInt8 ShelfEntry :=
  (int.pair ((text (shelfNameLen + 1)).pair (floors.pair time))).through
    (fun shelf => shelf.nfloors = shelf.ndepth.length)
    (fun shelf => (shelf.code, shelf.name, shelf.ndepth, shelf.buildingTime))
    (fun fields => some
      { code := fields.1
        name := fields.2.1
        nfloors := fields.2.2.1.length
        ndepth := fields.2.2.1
        buildingTime := fields.2.2.2 })
    (fun shelf counted => by
      rcases shelf with ⟨code, name, nfloors, ndepth, buildingTime⟩
      dsimp only at counted ⊢
      rw [counted])
    (fun fields shelf decoded => by
      rw [← Option.some.inj decoded]
      exact ⟨rfl, rfl⟩)

def accountLayout : Layout UInt8 AccountEntry :=
  ((enumeration [AccountType.admin, .user] (by decide)).pair ((text (Escaping.bcryptHashsize + 1)).pair
    (text (Escaping.bcryptHashsize + 1)))).through (fun _ => True)
    (fun account => (account.type, account.name, account.password))
    (fun fields => some ⟨fields.1, fields.2.1, fields.2.2⟩)
    (fun _ _ => rfl)
    (fun fields account decoded => by
      rw [← Option.some.inj decoded]
      exact ⟨trivial, rfl⟩)

/-! ## The message -/

/-- The size of the union: that of its largest member, a book, with one byte of padding. -/
def stuffSize : Nat := bookLayout.size + 1

inductive StuffMember
  | shelf
  | book
  | account
deriving DecidableEq

/-- The member of the union that a request is about. -/
def ClientRequest.member : ClientRequest → Option StuffMember
  | .insertBook | .deleteBook | .updateBook | .findBook | .countBook => some .book
  | .buildShelf | .removeShelf | .findShelf | .countShelf => some .shelf
  | .verifyAccount | .registerAccount => some .account
  | .heartbeat => none

/-- The union, of which the other members are zeroed. -/
def stuffLayout : Option StuffMember → Layout UInt8 TransStuff
  | some .shelf =>
      (shelfLayout.padded (stuffSize - shelfLayout.size)).through
        (fun stuff => stuff.book = .zeroed ∧ stuff.account = .zeroed) TransStuff.shelf
        (fun shelf => some ⟨shelf, .zeroed, .zeroed⟩)
        (fun stuff empty => by
          rcases stuff with ⟨shelf, book, account⟩
          rw [← empty.1, ← empty.2])
        (fun member stuff decoded => by
          rw [← Option.some.inj decoded]
          exact ⟨⟨rfl, rfl⟩, rfl⟩)
  | some .book =>
      (bookLayout.padded (stuffSize - bookLayout.size)).through
        (fun stuff => stuff.shelf = .zeroed ∧ stuff.account = .zeroed) TransStuff.book
        (fun book => some ⟨.zeroed, book, .zeroed⟩)
        (fun stuff empty => by
          rcases stuff with ⟨shelf, book, account⟩
          rw [← empty.1, ← empty.2])
        (fun member stuff decoded => by
          rw [← Option.some.inj decoded]
          exact ⟨⟨rfl, rfl⟩, rfl⟩)
  | some .account =>
      (accountLayout.padded (stuffSize - accountLayout.size)).through
        (fun stuff => stuff.shelf = .zeroed ∧ stuff.book = .zeroed) TransStuff.account
        (fun account => some ⟨.zeroed, .zeroed, account⟩)
        (fun stuff empty => by
          rcases stuff with ⟨shelf, book, account⟩
          rw [← empty.1, ← empty.2])
        (fun member stuff decoded => by
          rw [← Option.some.inj decoded]
          exact ⟨⟨rfl, rfl⟩, rfl⟩)
  | none =>
      (Layout.gap UInt8 stuffSize).through (fun stuff => stuff = MessageCs.zeroed.stuff)
        (fun _ => ()) (fun _ => some MessageCs.zeroed.stuff)
        (fun _ empty => congrArg some empty.symm)
        (fun _ stuff decoded => ⟨(Option.some.inj decoded).symm, rfl⟩)

def clientRequests : List ClientRequest :=
  [.insertBook, .deleteBook, .updateBook, .findBook, .countBook, .buildShelf, .removeShelf,
    .findShelf, .countShelf, .verifyAccount, .registerAccount, .heartbeat]

def serverResponses : List ServerResponse := [.success, .failed, .findEndMore, .findEnd]

def errTextLen : Nat := 80

theorem stuffLayout_size (member : Option StuffMember) : (stuffLayout member).size = stuffSize := by
  rcases member with _ | member
  · rfl
  · cases member <;> rfl

def messageLayout : Layout UInt8 MessageCs :=
  (((text (Escaping.userNameLen + 1)).padded 3).pair
    (((enumeration clientRequests (by decide)).dependent
        (fun request => stuffLayout request.member) stuffSize
        (fun request => stuffLayout_size request.member)).pair
      ((enumeration serverResponses (by decide)).pair
        (((text (errTextLen + 1)).padded 3).pair (int.array extraInfoSize))))).through
    (fun _ => True)
    (fun msg => (msg.user, (msg.request, msg.stuff), msg.response, msg.errorText, msg.extraInfo))
    (fun fields => some
      { user := fields.1
        request := fields.2.1.1
        stuff := fields.2.1.2
        response := fields.2.2.1
        errorText := fields.2.2.2.1
        extraInfo := fields.2.2.2.2 })
    (fun _ _ => rfl)
    (fun fields msg decoded => by
      rw [← Option.some.inj decoded]
      exact ⟨trivial, rfl⟩)

theorem messageLayout_size : messageLayout.size = msgSize := rfl

end Bookshelfdq
