import Bookshelfdq.Clisrv
import Mathlib.Tactic.IntervalCases

/-! # The text of a password hash

`crypt_blowfish.c` but for the Blowfish rounds, which are a parameter: what is read from a setting,
how the key is expanded, and what the hash is written as. -/

namespace Bookshelfdq

/-! ## Sixty-four letters -/

def bfItoa64 : List Char := "./ABCDEFGHIJKLMNOPQRSTUVWXYZabcdefghijklmnopqrstuvwxyz0123456789".toList

def bfAtoi64 : List UInt8 :=
  [64, 64, 64, 64, 64, 64, 64, 64, 64, 64, 64, 64, 64, 64, 0, 1,
    54, 55, 56, 57, 58, 59, 60, 61, 62, 63, 64, 64, 64, 64, 64, 64,
    64, 2, 3, 4, 5, 6, 7, 8, 9, 10, 11, 12, 13, 14, 15, 16,
    17, 18, 19, 20, 21, 22, 23, 24, 25, 26, 27, 64, 64, 64, 64, 64,
    64, 28, 29, 30, 31, 32, 33, 34, 35, 36, 37, 38, 39, 40, 41, 42,
    43, 44, 45, 46, 47, 48, 49, 50, 51, 52, 53, 64, 64, 64, 64, 64]

/-- `BF_itoa64[index]` -/
def itoa64 (index : UInt8) : Char := bfItoa64.getD index.toNat nulChar

/-- `BF_safe_atoi64` -/
def bfSafeAtoi64 (src : Char) : Option UInt8 :=
  if src.toNat < 0x20 ∨ 0x80 ≤ src.toNat then none
  else
    let tmp := bfAtoi64.getD (src.toNat - 0x20) 64
    if 63 < tmp.toNat then none else some tmp

/-- `BF_encode` -/
def bfEncode : List UInt8 → List Char
  | [] => []
  | [c1] => [itoa64 (c1 >>> 2), itoa64 ((c1 &&& 0x03) <<< 4)]
  | [c1, c2] =>
      [itoa64 (c1 >>> 2), itoa64 ((c1 &&& 0x03) <<< 4 ||| c2 >>> 4), itoa64 ((c2 &&& 0x0f) <<< 2)]
  | c1 :: c2 :: c3 :: src =>
      itoa64 (c1 >>> 2) :: itoa64 ((c1 &&& 0x03) <<< 4 ||| c2 >>> 4) ::
        itoa64 ((c2 &&& 0x0f) <<< 2 ||| c3 >>> 6) :: itoa64 (c3 &&& 0x3f) :: bfEncode src

/-- `BF_decode`: so many bytes, or `none` for its return with `-1`. -/
def bfDecode : Nat → List Char → Option (List UInt8)
  | 0, _ => some []
  | 1, s1 :: s2 :: _ => do
      let c1 ← bfSafeAtoi64 s1
      let c2 ← bfSafeAtoi64 s2
      some [c1 <<< 2 ||| (c2 &&& 0x30) >>> 4]
  | 2, s1 :: s2 :: s3 :: _ => do
      let c1 ← bfSafeAtoi64 s1
      let c2 ← bfSafeAtoi64 s2
      let c3 ← bfSafeAtoi64 s3
      some [c1 <<< 2 ||| (c2 &&& 0x30) >>> 4, (c2 &&& 0x0F) <<< 4 ||| (c3 &&& 0x3C) >>> 2]
  | size + 3, s1 :: s2 :: s3 :: s4 :: src => do
      let c1 ← bfSafeAtoi64 s1
      let c2 ← bfSafeAtoi64 s2
      let c3 ← bfSafeAtoi64 s3
      let c4 ← bfSafeAtoi64 s4
      let dst ← bfDecode size src
      some ((c1 <<< 2 ||| (c2 &&& 0x30) >>> 4) :: ((c2 &&& 0x0F) <<< 4 ||| (c3 &&& 0x3C) >>> 2) ::
        ((c3 &&& 0x03) <<< 6 ||| c4) :: dst)
  | _, _ => none

/-! ## Reading what has been written -/

theorem byte_ext {left right : UInt8}
    (same : ∀ i < 8, left.toBitVec.getLsbD i = right.toBitVec.getLsbD i) : left = right := by
  apply UInt8.toBitVec_inj.mp
  exact BitVec.eq_of_getLsbD_eq same

/-- A value of six bits. -/
def Sextet (value : UInt8) : Prop := value &&& 0x3f = value

theorem Sextet.lt {value : UInt8} (sextet : Sextet value) : value.toNat < 64 := by
  have bounded : (value &&& 0x3f).toNat ≤ 63 := by
    rw [UInt8.toNat_and]
    exact Nat.and_le_right
  rw [sextet] at bounded
  omega

@[simp] theorem bfSafeAtoi64_itoa64 {value : UInt8} (sextet : Sextet value) :
    bfSafeAtoi64 (itoa64 value) = some value := by
  have table : ∀ index : Fin 64,
      bfSafeAtoi64 (itoa64 (UInt8.ofNat index)) = some (UInt8.ofNat index) := by
    decide +kernel
  have entry := table ⟨value.toNat, sextet.lt⟩
  rwa [UInt8.ofNat_toNat] at entry

theorem sextet_high (c1 : UInt8) : Sextet (c1 >>> 2) := by
  apply byte_ext
  intro i small
  interval_cases i <;> simp

theorem sextet_low (c3 : UInt8) : Sextet (c3 &&& 0x3f) := by
  apply byte_ext
  intro i small
  interval_cases i <;> simp

theorem sextet_second (c1 c2 : UInt8) : Sextet ((c1 &&& 0x03) <<< 4 ||| c2 >>> 4) := by
  apply byte_ext
  intro i small
  interval_cases i <;> simp

theorem sextet_third (c2 c3 : UInt8) : Sextet ((c2 &&& 0x0f) <<< 2 ||| c3 >>> 6) := by
  apply byte_ext
  intro i small
  interval_cases i <;> simp

/-- The last letter is one that a byte of zeros follows. -/
theorem sextet_padded (c1 : UInt8) : Sextet ((c1 &&& 0x03) <<< 4) := by
  simpa using sextet_second c1 0

theorem sextet_padded' (c2 : UInt8) : Sextet ((c2 &&& 0x0f) <<< 2) := by
  simpa using sextet_third c2 0

theorem first_byte (c1 c2 : UInt8) :
    (c1 >>> 2) <<< 2 ||| (((c1 &&& 0x03) <<< 4 ||| c2 >>> 4) &&& 0x30) >>> 4 = c1 := by
  apply byte_ext
  intro i small
  interval_cases i <;> simp

theorem second_byte (c1 c2 c3 : UInt8) :
    (((c1 &&& 0x03) <<< 4 ||| c2 >>> 4) &&& 0x0F) <<< 4 |||
      (((c2 &&& 0x0f) <<< 2 ||| c3 >>> 6) &&& 0x3C) >>> 2 = c2 := by
  apply byte_ext
  intro i small
  interval_cases i <;> simp

theorem third_byte (c2 c3 : UInt8) :
    (((c2 &&& 0x0f) <<< 2 ||| c3 >>> 6) &&& 0x03) <<< 6 ||| (c3 &&& 0x3f) = c3 := by
  apply byte_ext
  intro i small
  interval_cases i <;> simp

theorem last_byte (c1 : UInt8) :
    (c1 >>> 2) <<< 2 ||| (((c1 &&& 0x03) <<< 4) &&& 0x30) >>> 4 = c1 := by
  simpa using first_byte c1 0

theorem last_byte' (c1 c2 : UInt8) :
    (((c1 &&& 0x03) <<< 4 ||| c2 >>> 4) &&& 0x0F) <<< 4 |||
      (((c2 &&& 0x0f) <<< 2) &&& 0x3C) >>> 2 = c2 := by
  simpa using second_byte c1 c2 0

/-- Whatever follows the letters, the bytes are read back from them. -/
theorem bfDecode_bfEncode (src : List UInt8) (rest : List Char) :
    bfDecode src.length (bfEncode src ++ rest) = some src := by
  induction src using bfEncode.induct with
  | case1 => rfl
  | case2 c1 =>
      simp only [bfEncode, List.length_singleton, List.cons_append, bfDecode,
        bfSafeAtoi64_itoa64 (sextet_high c1), bfSafeAtoi64_itoa64 (sextet_padded c1),
        Option.bind_eq_bind, Option.bind_some, last_byte]
  | case3 c1 c2 =>
      simp only [bfEncode, List.length_cons, List.length_nil, List.cons_append, bfDecode,
        bfSafeAtoi64_itoa64 (sextet_high c1), bfSafeAtoi64_itoa64 (sextet_second c1 c2),
        bfSafeAtoi64_itoa64 (sextet_padded' c2), Option.bind_eq_bind, Option.bind_some,
        first_byte, last_byte']
  | case4 c1 c2 c3 src induction =>
      simp only [bfEncode, List.length_cons, List.cons_append, bfDecode,
        bfSafeAtoi64_itoa64 (sextet_high c1), bfSafeAtoi64_itoa64 (sextet_second c1 c2),
        bfSafeAtoi64_itoa64 (sextet_third c2 c3), bfSafeAtoi64_itoa64 (sextet_low c3),
        Option.bind_eq_bind, Option.bind_some, induction, first_byte, second_byte, third_byte]

theorem bfEncode_inj {left right : List UInt8} (size : left.length = right.length)
    (same : bfEncode left = bfEncode right) : left = right := by
  have decoded := bfDecode_bfEncode left []
  rw [same, size, bfDecode_bfEncode] at decoded
  exact (Option.some.inj decoded).symm

/-! ## The key -/

/-- `BF_init_state.P` -/
def bfInitP : List UInt32 :=
  [0x243f6a88, 0x85a308d3, 0x13198a2e, 0x03707344, 0xa4093822, 0x299f31d0, 0x082efa98, 0xec4e6c89,
    0x452821e6, 0x38d01377, 0xbe5466cf, 0x34e90c6c, 0xc0ac29b7, 0xc97c50dd, 0x3f84d5b5, 0xb5470917,
    0x9216d5d9, 0x8979fb1b]

/-- The variables of `BF_set_key` within one word: `tmp[0]`, `tmp[1]`, `sign` and what `ptr` points
at. -/
structure KeyWord where
  correct : UInt32
  bug : UInt32
  sign : UInt32
  ptr : List UInt8

/-- A character as a `signed char`. -/
def signedChar (character : UInt8) : UInt32 :=
  if character < 0x80 then character.toUInt32 else character.toUInt32 ||| 0xffffff00

/-- Once through the inner loop. The key is read with its terminator, and then from the start
again. -/
def KeyWord.next (key : List UInt8) (word : KeyWord) (j : Nat) : KeyWord :=
  let character := word.ptr.headD 0
  let bug := word.bug <<< 8 ||| signedChar character
  { correct := word.correct <<< 8 ||| character.toUInt32
    bug := bug
    sign := if j = 0 then word.sign else word.sign ||| (bug &&& 0x80)
    ptr := if character = 0 then key else word.ptr.tail }

/-- The words of the key, and `sign` and `diff` after the outer loop. -/
def keyWords (key : List UInt8) : Nat → List UInt8 → UInt32 → UInt32 →
    List (UInt32 × UInt32) × UInt32 × UInt32
  | 0, _, sign, diff => ([], sign, diff)
  | count + 1, ptr, sign, diff =>
      let word := [0, 1, 2, 3].foldl (KeyWord.next key) ⟨0, 0, sign, ptr⟩
      let rest := keyWords key count word.ptr word.sign (diff ||| (word.correct ^^^ word.bug))
      ((word.correct, word.bug) :: rest.1, rest.2)

structure KeySchedule where
  expanded : List UInt32
  initial : List UInt32
deriving DecidableEq

/-- `BF_set_key` -/
def bfSetKey (key : List UInt8) (flags : UInt8) : KeySchedule :=
  let (words, sign, diff) := keyWords key 18 key 0 0
  let safety := (flags.toUInt32 &&& 2) <<< 15
  let diff := ((diff ||| diff >>> 16) &&& 0xffff) + 0xffff
  let sign := sign <<< 9 &&& (~~~diff &&& safety)
  let expanded := words.map fun word => if flags &&& 1 = 0 then word.1 else word.2
  { expanded := expanded
    initial := (List.zipWith (· ^^^ ·) bfInitP expanded).modifyHead (· ^^^ sign) }

/-- The rounds that turn a key, a salt and a count into six words. -/
def BlowfishRounds := KeySchedule → List UInt8 → Nat → Vector UInt8 24

/-! ## Hashing -/

/-- `flags_by_subtype` -/
def flagsBySubtype : List UInt8 :=
  [2, 4, 0, 0, 0, 0, 0, 0, 0, 0, 0, 0, 0,
    0, 0, 0, 0, 0, 0, 0, 0, 0, 0, 1, 4, 0]

def subtypeFlags (subtype : Char) : UInt8 := flagsBySubtype.getD (subtype.toNat - 'a'.toNat) 0

/-- The first seven characters of a setting: the flags and the count. -/
def bfSetting : List Char → Option (UInt8 × Nat)
  | s0 :: s1 :: s2 :: s3 :: s4 :: s5 :: s6 :: _ =>
      if s0 ≠ '$' ∨ s1 ≠ '2' ∨ s2 < 'a' ∨ 'z' < s2 ∨ subtypeFlags s2 = 0 ∨ s3 ≠ '$' ∨
          s4 < '0' ∨ '3' < s4 ∨ s5 < '0' ∨ '9' < s5 ∨ (s4 = '3' ∧ '1' < s5) ∨ s6 ≠ '$' then none
      else some (subtypeFlags s2,
        2 ^ ((s4.toNat - '0'.toNat) * 10 + (s5.toNat - '0'.toNat)))
  | _ => none

/-- `BF_itoa64[BF_atoi64[setting[28] - 0x20] & 0x30]` -/
def lastOfSalt (setting : List Char) : Char :=
  itoa64 (bfAtoi64.getD ((setting.getD 28 nulChar).toNat - 0x20) 64 &&& 0x30)

/-- `BF_crypt` -/
def bfCrypt (rounds : BlowfishRounds) (key : List UInt8) (setting : List Char)
    (size min : Nat) : Option (List Char) :=
  if size < 7 + 22 + 31 + 1 then none
  else
    match bfSetting setting, bfDecode 16 (setting.drop 7) with
    | some (flags, count), some salt =>
        if count < min then none
        else some (setting.take 28 ++ lastOfSalt setting ::
          bfEncode ((rounds (bfSetKey key flags) salt count).toList.take 23))
    | _, _ => none

/-- `test_key`, `test_setting` with its subtype, and the hash that belongs to it. -/
def testKey : List UInt8 := [0x38, 0x62, 0x20, 0xd0, 0xc1, 0xd2, 0xcf, 0xcc, 0xd8]

def testSetting (subtype : Char) : List Char :=
  ['$', '2', subtype] ++ "$00$abcdefghijklmnopqrstuu".toList

def testHash (subtype : Char) : List Char :=
  (if subtypeFlags subtype &&& 1 = 0 then "i1D709vfamulimlGcq0qq3UvuUasvEa"
    else "VUrPmXD6q/nVSSp7pNDhCR9071IfIRe").toList

/-- The test of `BF_set_key`, with the safety measure for `$2a$` undone. -/
def keySelfTest : Bool :=
  let key : List UInt8 := [0xff, 0xa3, 0x33, 0x34, 0xff, 0xff, 0xff, 0xa3, 0x33, 0x34, 0x35]
  let a := bfSetKey key 2
  let y := bfSetKey key 4
  let initial := a.initial.modifyHead (· ^^^ 0x10000)
  decide (initial.getD 0 0 = 0xdb9c59bc ∧ y.expanded.getD 17 0 = 0x33343500 ∧
    a.expanded = y.expanded ∧ initial = y.initial)

/-- The self-test of `_crypt_blowfish_rn`. -/
def bfSelfTest (rounds : BlowfishRounds) (subtype : Char) : Bool :=
  decide (bfCrypt rounds testKey (testSetting subtype) 61 1 =
    some (testSetting subtype ++ testHash subtype)) && keySelfTest

/-- `_crypt_blowfish_rn` -/
def cryptBlowfishRn (rounds : BlowfishRounds) (key : List UInt8) (setting : List Char)
    (size : Nat) : Option (List Char) :=
  match bfCrypt rounds key setting size 16 with
  | none => none
  | some retval => if bfSelfTest rounds (setting.getD 2 'a') then some retval else none

/-- `_crypt_gensalt_blowfish_rn` with the subtype `a`. -/
def cryptGensaltBlowfishRn (count : Nat) (input : Vector UInt8 16) : List Char :=
  "$2a$".toList ++ [Char.ofNat ('0'.toNat + count / 10), Char.ofNat ('0'.toNat + count % 10), '$'] ++
    bfEncode input.toList

example : keySelfTest = true := by decide +kernel

/-! ## A hash as a setting -/

theorem length_bfEncode (src : List UInt8) :
    (bfEncode src).length = (4 * src.length + 2) / 3 := by
  induction src using bfEncode.induct with
  | case1 => rfl
  | case2 c1 => simp [bfEncode]
  | case3 c1 c2 => simp [bfEncode]
  | case4 c1 c2 c3 src induction =>
      simp only [bfEncode, List.length_cons, induction]
      omega

theorem bfSafeAtoi64_eq_some {src : Char} {value : UInt8} (read : bfSafeAtoi64 src = some value) :
    bfAtoi64.getD (src.toNat - 0x20) 64 = value ∧ value.toNat ≤ 63 := by
  rw [bfSafeAtoi64] at read
  split at read
  · cases read
  · dsimp only at read
    split at read
    · cases read
    · rename_i small
      cases Option.some.inj read
      exact ⟨rfl, Nat.not_lt.mp small⟩

theorem sextet_masked (value : UInt8) : Sextet (value &&& 0x30) := by
  rw [Sextet, UInt8.and_assoc]
  rfl

/-- Of the last letter two bits are read. -/
theorem bfDecode_last (groups : Nat) {letters : List Char} {bytes : List UInt8}
    (read : bfDecode (3 * groups + 1) letters = some bytes) :
    ∃ front last rest value, front.length = 4 * groups + 1 ∧ letters = front ++ last :: rest ∧
      bfSafeAtoi64 last = some value ∧
      ∀ other after, bfSafeAtoi64 other = some (value &&& 0x30) →
        bfDecode (3 * groups + 1) (front ++ other :: after) = some bytes := by
  induction groups generalizing letters bytes with
  | zero =>
      rcases letters with _ | ⟨s1, _ | ⟨s2, rest⟩⟩
      · cases read
      · cases read
      · simp only [bfDecode, Option.bind_eq_bind, Option.bind_eq_some_iff] at read
        rcases read with ⟨c1, first, c2, second, same⟩
        refine ⟨[s1], s2, rest, c2, rfl, rfl, second, ?_⟩
        intro other after masked
        simp only [List.singleton_append, bfDecode, first, masked, Option.bind_eq_bind,
          Option.bind_some, UInt8.and_assoc, UInt8.and_self]
        exact same
  | succ groups induction =>
      rcases letters with _ | ⟨s1, _ | ⟨s2, _ | ⟨s3, _ | ⟨s4, letters⟩⟩⟩⟩
      · cases read
      · cases read
      · cases read
      · cases read
      · simp only [Nat.mul_succ, Nat.add_right_comm _ 3 1, bfDecode, Option.bind_eq_bind,
          Option.bind_eq_some_iff] at read
        rcases read with ⟨c1, first, c2, second, c3, third, c4, fourth, dst, decoded, same⟩
        rcases induction decoded with ⟨front, last, rest, value, size, rfl, lastRead, others⟩
        refine ⟨s1 :: s2 :: s3 :: s4 :: front, last, rest, value, ?_, rfl, lastRead, ?_⟩
        · simp only [List.length_cons, size]
          omega
        · intro other after masked
          simp only [List.cons_append, Nat.mul_succ, Nat.add_right_comm _ 3 1, bfDecode, first,
            second, third, fourth, others other after masked, Option.bind_eq_bind,
            Option.bind_some]
          exact same

theorem bfSetting_append {head : List Char} (size : head.length = 7) (rest : List Char) :
    bfSetting (head ++ rest) = bfSetting head := by
  match head, size with
  | [_, _, _, _, _, _, _], _ => rfl

/-- A text that the salt can be read from. What follows the salt makes no difference, and of its
last letter only two bits are read. -/
structure SaltedText (salt : List UInt8) where
  head : List Char
  front : List Char
  last : Char
  rest : List Char
  value : UInt8
  headSize : head.length = 7
  frontSize : front.length = 21
  read : bfSafeAtoi64 last = some value
  others : ∀ other after, bfSafeAtoi64 other = some (value &&& 0x30) →
    bfDecode 16 (front ++ other :: after) = some salt

namespace SaltedText

variable {salt : List UInt8}

def text (salted : SaltedText salt) : List Char :=
  salted.head ++ (salted.front ++ salted.last :: salted.rest)

theorem exists_text {setting : List Char} (read : bfDecode 16 (setting.drop 7) = some salt) :
    ∃ salted : SaltedText salt, setting = salted.text := by
  rcases bfDecode_last 5 read with ⟨front, last, rest, value, size, split, lastRead, others⟩
  have long := congrArg List.length split
  rw [List.length_drop, List.length_append, size, List.length_cons] at long
  have head : (setting.take 7).length = 7 := by
    rw [List.length_take]
    omega
  refine ⟨⟨setting.take 7, front, last, rest, value, head, size, lastRead, others⟩, ?_⟩
  rw [text, ← split, List.take_append_drop]

/-- The same salt as a hash has it, and what the hash has behind it. -/
def hashed (salted : SaltedText salt) (tail : List Char) : SaltedText salt where
  head := salted.head
  front := salted.front
  last := itoa64 (salted.value &&& 0x30)
  rest := tail
  value := salted.value &&& 0x30
  headSize := salted.headSize
  frontSize := salted.frontSize
  read := bfSafeAtoi64_itoa64 (sextet_masked _)
  others other after masked := by
    rw [UInt8.and_assoc, UInt8.and_self] at masked
    exact salted.others other after masked

theorem hashed_hashed (salted : SaltedText salt) (first second : List Char) :
    (salted.hashed first).hashed second = salted.hashed second := by
  simp [hashed, UInt8.and_assoc]

theorem take_text (salted : SaltedText salt) (tail : List Char) :
    salted.text.take 28 ++ lastOfSalt salted.text :: tail = (salted.hashed tail).text := by
  have size : (salted.head ++ salted.front).length = 28 := by
    rw [List.length_append, salted.headSize, salted.frontSize]
  have at28 : salted.text.getD 28 nulChar = salted.last := by
    rw [text, ← List.append_assoc, List.getD_eq_getElem?_getD,
      List.getElem?_append_right (Nat.le_of_eq size), size]
    rfl
  have entry := (bfSafeAtoi64_eq_some salted.read).1
  rw [lastOfSalt, at28, entry, text, ← List.append_assoc, List.take_left' size, List.append_assoc]
  rfl

theorem length_text (salted : SaltedText salt) : salted.text.length = 29 + salted.rest.length := by
  simp only [text, List.length_append, List.length_cons, salted.headSize, salted.frontSize]
  omega

theorem bfSetting_text (salted : SaltedText salt) : bfSetting salted.text = bfSetting salted.head :=
  bfSetting_append salted.headSize _

theorem read_text (salted : SaltedText salt) (tail : List Char) :
    bfDecode 16 ((salted.hashed tail).text.drop 7) = some salt := by
  rw [text, List.drop_left' (salted.hashed tail).headSize]
  exact salted.others _ tail (bfSafeAtoi64_itoa64 (sextet_masked _))

end SaltedText

/-- The bytes that the rounds make of a key, as far as the hash has them. -/
def digest (rounds : BlowfishRounds) (flags : UInt8) (salt : List UInt8) (count : Nat)
    (key : List UInt8) : List UInt8 :=
  (rounds (bfSetKey key flags) salt count).toList.take 23

theorem read_of_bfCrypt {rounds : BlowfishRounds} {key : List UInt8} {setting hash : List Char}
    {size min : Nat} (hashed : bfCrypt rounds key setting size min = some hash) :
    ∃ flags count salt, bfSetting setting = some (flags, count) ∧
      bfDecode 16 (setting.drop 7) = some salt ∧ min ≤ count ∧ 61 ≤ size := by
  rw [bfCrypt] at hashed
  split at hashed
  · cases hashed
  · rename_i room
    split at hashed
    · rename_i flags count salt header read
      split at hashed
      · cases hashed
      · rename_i enough
        exact ⟨flags, count, salt, header, read, Nat.not_lt.mp enough, Nat.not_lt.mp room⟩
    · cases hashed

/-- What is hashed is written behind the salt, and is hashed again with the hash as with the salt
itself. -/
theorem bfCrypt_of_read {setting : List Char} {flags : UInt8} {count size min : Nat}
    {salt : List UInt8} (header : bfSetting setting = some (flags, count))
    (read : bfDecode 16 (setting.drop 7) = some salt) (enough : min ≤ count) (room : 61 ≤ size)
    (rounds : BlowfishRounds) :
    ∃ salted : SaltedText salt, setting = salted.text ∧
      ∀ key, bfCrypt rounds key setting size min =
          some (salted.hashed (bfEncode (digest rounds flags salt count key))).text ∧
        ∀ tail, bfCrypt rounds key (salted.hashed tail).text size min =
          some (salted.hashed (bfEncode (digest rounds flags salt count key))).text := by
  have fits : ¬size < 7 + 22 + 31 + 1 := Nat.not_lt.mpr room
  rcases SaltedText.exists_text read with ⟨salted, rfl⟩
  refine ⟨salted, rfl, ?_⟩
  intro key
  constructor
  · rw [bfCrypt, if_neg fits, header, read]
    simp only [if_neg (Nat.not_lt.mpr enough), SaltedText.take_text]
    rfl
  · intro tail
    have again : bfSetting (salted.hashed tail).text = some (flags, count) := by
      rw [SaltedText.bfSetting_text] at header ⊢
      exact header
    rw [bfCrypt, if_neg fits, again, salted.read_text tail]
    simp only [if_neg (Nat.not_lt.mpr enough), SaltedText.take_text, SaltedText.hashed_hashed]
    rfl

end Bookshelfdq
