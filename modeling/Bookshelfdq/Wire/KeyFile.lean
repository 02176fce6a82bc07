import Bookshelfdq.Wire.AesOptions

/-! # The key file

`gen_aes_key.c` writes the key as numbers with commas between them, and `AES_init` of client and
server reads it with `fscanf`. -/

namespace Bookshelfdq

/-! ## Writing -/

/-- The buffer `key` after the loop, for so many results of `rand`. -/
def keyText (rands : List Nat) : List Char :=
  rands.flatMap fun rand => Nat.toDigits 10 (rand % 255) ++ [',']

/-- `main` of `gen_aes_key.c`: the last comma is cut off. -/
def genAesKey (rands : List Nat) : List Char := (keyText rands).dropLast

/-- The size of `char key[128]`. -/
def keyTextSize : Nat := 128

/-! ## Reading -/

def isSpace (character : Char) : Bool :=
  character == ' ' || decide (9 ≤ character.toNat ∧ character.toNat ≤ 13)

/-- The conversion `%d`: the number and what is left of the file. -/
def scanNumber (file : List Char) : Option (Int × List Char) :=
  let file := file.dropWhile isSpace
  let unsigned := if file.head? = some '-' ∨ file.head? = some '+' then file.tail else file
  let digits := unsigned.takeWhile Char.isDigit
  if digits = [] then none
  else
    let number : Int := Nat.ofDigitChars 10 digits 0
    some (if file.head? = some '-' then -number else number, unsigned.dropWhile Char.isDigit)

/-- `"%d,%d,…"`: the numbers assigned until a conversion or a comma fails. -/
def scanNumbers : Nat → List Char → List Int
  | 0, _ => []
  | count + 1, file =>
      match scanNumber file with
      | none => []
      | some (number, ',' :: rest) => number :: scanNumbers count rest
      | some (number, _) => [number]

/-- `AES_init`: the variable `key`, or `none` where the file cannot be opened. `tkey` is what the
stack holds where no number is assigned. -/
def aesInit (tkey : Vector Int aesBlockSize) (file : Option (List Char)) : Option AesKey :=
  file.map fun file =>
    Vector.ofFn fun index =>
      UInt8.ofInt ((scanNumbers aesBlockSize file).getD index tkey[index])

/-! ## Round trip -/

theorem takeWhile_toDigits (number : Nat) (rest : List Char)
    (ends : ∀ character, rest.head? = some character → character.isDigit = false) :
    (Nat.toDigits 10 number ++ rest).takeWhile Char.isDigit = Nat.toDigits 10 number ∧
      (Nat.toDigits 10 number ++ rest).dropWhile Char.isDigit = rest := by
  have digits : ∀ character ∈ Nat.toDigits 10 number, character.isDigit = true :=
    fun _ member => Nat.isDigit_of_mem_toDigits (by decide) (by decide) member
  rw [List.takeWhile_append_of_pos digits, List.dropWhile_append_of_pos digits]
  cases rest with
  | nil => simp
  | cons character rest =>
      have other := ends character rfl
      simp [other]

theorem digit_first {character : Char} (digit : character.isDigit = true) :
    isSpace character = false ∧ character ≠ '-' ∧ character ≠ '+' := by
  have bounds := Char.isDigit_iff_toNat.mp digit
  have lower : 48 ≤ character.toNat := bounds.1
  refine ⟨?_, ?_, ?_⟩
  · have blank : character ≠ ' ' := by
      rintro rfl
      exact absurd lower (by decide)
    have control : ¬ (9 ≤ character.toNat ∧ character.toNat ≤ 13) := by omega
    simp [isSpace, blank, control]
  · rintro rfl
    exact absurd lower (by decide)
  · rintro rfl
    exact absurd lower (by decide)

theorem scanNumber_toDigits (number : Nat) (rest : List Char)
    (ends : ∀ character, rest.head? = some character → character.isDigit = false) :
    scanNumber (Nat.toDigits 10 number ++ rest) = some ((number : Int), rest) := by
  have scanned := takeWhile_toDigits number rest ends
  have value := @Nat.ofDigitChars_ten_toDigits number
  cases digits : Nat.toDigits 10 number with
  | nil => exact absurd digits Nat.toDigits_ne_nil
  | cons first others =>
      have member : first ∈ Nat.toDigits 10 number := digits ▸ List.mem_cons_self
      have digit := digit_first (Nat.isDigit_of_mem_toDigits (by decide) (by decide) member)
      rw [digits] at scanned value
      have visible : (first :: others ++ rest).dropWhile isSpace = first :: others ++ rest :=
        List.dropWhile_cons_of_neg (by simp [digit.1])
      have minus : (first :: others ++ rest).head? ≠ some '-' := fun same =>
        digit.2.1 (Option.some.inj same)
      have plus : (first :: others ++ rest).head? ≠ some '+' := fun same =>
        digit.2.2 (Option.some.inj same)
      simp only [scanNumber, visible, minus, plus, or_self, if_false, scanned.1, scanned.2, value,
        reduceCtorEq]

/-- The file without its last comma is the text of the last number behind the others. -/
theorem genAesKey_concat (rands : List Nat) (last : Nat) :
    genAesKey (rands ++ [last]) = keyText rands ++ Nat.toDigits 10 (last % 255) := by
  rw [genAesKey, keyText, List.flatMap_append, List.flatMap_singleton, ← List.append_assoc,
    List.dropLast_concat]
  rfl

theorem scanNumbers_keyText (rands : List Nat) (last : Nat) {count : Nat}
    (enough : rands.length < count) :
    scanNumbers count (keyText rands ++ Nat.toDigits 10 (last % 255)) =
      (rands ++ [last]).map fun rand => ((rand % 255 : Nat) : Int) := by
  induction rands generalizing count with
  | nil =>
      cases count with
      | zero => cases enough
      | succ count =>
          have scanned := scanNumber_toDigits (last % 255) [] (fun _ none => by cases none)
          rw [List.append_nil] at scanned
          rw [keyText, List.flatMap_nil, List.nil_append, scanNumbers, scanned]
          rfl
  | cons rand rands induction =>
      cases count with
      | zero => cases enough
      | succ count =>
          have comma : ∀ character, (',' :: (keyText rands ++
              Nat.toDigits 10 (last % 255))).head? = some character →
              character.isDigit = false := by
            intro character first
            rw [← Option.some.inj first]
            rfl
          have split : keyText (rand :: rands) ++ Nat.toDigits 10 (last % 255) =
              Nat.toDigits 10 (rand % 255) ++
                ',' :: (keyText rands ++ Nat.toDigits 10 (last % 255)) := by
            simp [keyText]
          have later := induction (Nat.lt_of_succ_lt_succ enough)
          rw [split, scanNumbers, scanNumber_toDigits _ _ comma]
          exact congrArg (List.cons _) later

theorem scanNumbers_genAesKey {rands : List Nat} (nonempty : rands ≠ []) :
    scanNumbers rands.length (genAesKey rands) =
      rands.map fun rand => ((rand % 255 : Nat) : Int) := by
  rw [← List.dropLast_concat_getLast nonempty, genAesKey_concat]
  apply scanNumbers_keyText
  rw [List.length_append]
  exact Nat.lt_succ_self _

theorem length_keyText_le (rands : List Nat) : (keyText rands).length ≤ 4 * rands.length := by
  induction rands with
  | nil => exact Nat.zero_le _
  | cons rand rands induction =>
      have small : rand % 255 < 10 ^ 3 := (Nat.mod_lt _ (by decide)).trans (by decide)
      have digits := (Nat.length_toDigits_le_iff (by decide) (by decide)).mpr small
      have split : keyText (rand :: rands) =
          Nat.toDigits 10 (rand % 255) ++ [','] ++ keyText rands := List.flatMap_cons
      rw [split, List.length_append, List.length_append, List.length_singleton, List.length_cons]
      omega

theorem ofInt_rand (rand : Nat) : UInt8.ofInt ((rand : Int) % 255) = UInt8.ofNat (rand % 255) := by
  apply UInt8.toNat_inj.mp
  rw [UInt8.ofInt, UInt8.toNat_ofNat', UInt8.toNat_ofNat']
  omega

/-- The key that `rand` has given. -/
def generatedKey (rands : Vector Nat aesBlockSize) : AesKey :=
  rands.map fun rand => UInt8.ofNat (rand % 255)

/-- Client and server read the key that has been generated, whatever their stacks hold, and the
text is shorter than the buffer it is put together in. -/
theorem aesInit_genAesKey (rands : Vector Nat aesBlockSize) (tkey : Vector Int aesBlockSize) :
    aesInit tkey (some (genAesKey rands.toList)) = some (generatedKey rands) ∧
      (keyText rands.toList).length < keyTextSize := by
  have length : rands.toList.length = aesBlockSize := Vector.length_toList ..
  have nonempty : rands.toList ≠ [] := by
    intro empty
    rw [empty] at length
    cases length
  have scanned := scanNumbers_genAesKey nonempty
  rw [length] at scanned
  refine ⟨?_, ?_⟩
  · rw [aesInit, Option.map_some, scanned]
    congr 1
    apply Vector.ext
    intro index inside
    simp [generatedKey, ofInt_rand]
  · have short := length_keyText_le rands.toList
    rw [length] at short
    exact short.trans_lt (by decide)

end Bookshelfdq
