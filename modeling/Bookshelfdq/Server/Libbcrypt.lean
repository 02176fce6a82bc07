import Bookshelfdq.Server.AccountStore
import Bookshelfdq.Server.CryptBlowfish
import Bookshelfdq.Wire.MessageLayout

/-! # Passwords and their hashes

The wrapper `bcrypt.c`, and what the check of a password comes to: it succeeds for the passwords of
which the rounds make the same bytes. -/

namespace Bookshelfdq

/-! ## Comparing -/

/-- The loop of `timing_safe_strcmp`. -/
def strcmpLoop : List UInt8 → List UInt8 → UInt8 → UInt8
  | u1 :: str1, u2 :: str2, ret => strcmpLoop str1 str2 (ret ||| (u1 ^^^ u2))
  | _, _, ret => ret

def timingSafeStrcmp (str1 str2 : List UInt8) : Int :=
  if str1.length ≠ str2.length then 1 else (strcmpLoop str1 str2 0).toNat

theorem strcmpLoop_eq_zero_iff {str1 str2 : List UInt8} (size : str1.length = str2.length)
    (ret : UInt8) : strcmpLoop str1 str2 ret = 0 ↔ ret = 0 ∧ str1 = str2 := by
  induction str1 generalizing str2 ret with
  | nil =>
      rw [List.eq_nil_of_length_eq_zero size.symm]
      simp [strcmpLoop]
  | cons u1 str1 induction =>
      cases str2 with
      | nil => cases size
      | cons u2 str2 =>
          rw [strcmpLoop, induction (Nat.succ.inj size), UInt8.or_eq_zero_iff,
            UInt8.xor_eq_zero_iff, List.cons.injEq, and_assoc]

theorem timingSafeStrcmp_eq_zero_iff (str1 str2 : List UInt8) :
    timingSafeStrcmp str1 str2 = 0 ↔ str1 = str2 := by
  rw [timingSafeStrcmp]
  split
  · rename_i differ
    have unequal : str1 ≠ str2 := fun same => differ (congrArg List.length same)
    exact iff_of_false (by decide) unequal
  · rename_i size
    have loop := strcmpLoop_eq_zero_iff (not_not.mp size) 0
    rw [Int.natCast_eq_zero, ← UInt8.toNat_zero, UInt8.toNat_inj, loop, and_iff_right rfl]

/-! ## The wrapper -/

/-- `workf` of `bcrypt_gensalt`. -/
def workFactor (factor : Int) : Nat := if factor < 4 ∨ 31 < factor then 12 else factor.toNat

/-- `bcrypt_gensalt`, with what is read from `/dev/urandom`. -/
def bcryptGensalt (factor : Int) (random : Option (Vector UInt8 16)) : Option String :=
  random.map fun input => String.ofList (cryptGensaltBlowfishRn (workFactor factor) input)

def bcryptHashsize : Nat := 64

def bcryptHashpw (rounds : BlowfishRounds) (passwd salt : String) : Option String :=
  (cryptBlowfishRn rounds (utf8 passwd.toList) salt.toList bcryptHashsize).map String.ofList

def bcryptCheckpw (rounds : BlowfishRounds) (passwd hash : String) : Int :=
  match bcryptHashpw rounds passwd hash with
  | none => -1
  | some outhash => timingSafeStrcmp (utf8 hash.toList) (utf8 outhash.toList)

def libbcrypt (rounds : BlowfishRounds) : Bcrypt where
  hashpw := bcryptHashpw rounds
  checkpw := bcryptCheckpw rounds

theorem utf8_inj {left right : String} : utf8 left.toList = utf8 right.toList ↔ left = right :=
  utf8_injective.eq_iff.trans String.toList_inj

theorem bcryptCheckpw_eq_zero_iff (rounds : BlowfishRounds) (passwd hash : String) :
    bcryptCheckpw rounds passwd hash = 0 ↔ bcryptHashpw rounds passwd hash = some hash := by
  rw [bcryptCheckpw]
  cases bcryptHashpw rounds passwd hash with
  | none =>
      have failed : (-1 : Int) ≠ 0 := by decide
      exact iff_of_false failed (fun same => by cases same)
  | some outhash =>
      rw [timingSafeStrcmp_eq_zero_iff, utf8_inj, Option.some.injEq, eq_comm]

/-! ## Checking -/

theorem length_digest (rounds : BlowfishRounds) (flags : UInt8) (salt : List UInt8) (count : Nat)
    (key : List UInt8) : (digest rounds flags salt count key).length = 23 := by
  rw [digest, List.length_take, Vector.length_toList]
  rfl

namespace SaltedText

variable {salt : List UInt8}

theorem hashed_text_inj {salted : SaltedText salt} {left right : List Char}
    (same : (salted.hashed left).text = (salted.hashed right).text) : left = right := by
  have tails := List.append_cancel_left (List.append_cancel_left same)
  exact (List.cons.inj tails).2

theorem getD_text (salted : SaltedText salt) :
    salted.text.getD 2 'a' = salted.head.getD 2 'a' := by
  have inside : 2 < salted.head.length := by
    rw [salted.headSize]
    decide
  rw [List.getD_eq_getElem?_getD, text, List.getElem?_append_left inside,
    ← List.getD_eq_getElem?_getD]

theorem getD_hashed (salted : SaltedText salt) (tail : List Char) :
    (salted.hashed tail).text.getD 2 'a' = salted.text.getD 2 'a' :=
  (salted.hashed tail).getD_text.trans salted.getD_text.symm

end SaltedText

/-- A hash that has been made of a password, by what has been read from the salt. -/
structure HashedWith (rounds : BlowfishRounds) (flags : UInt8) (salt : List UInt8) (count : Nat)
    (password : String) (hash : String) : Prop where
  size : hash.length = 60
  checks : ∀ other, bcryptCheckpw rounds other hash = 0 ↔
    digest rounds flags salt count (utf8 other.toList) =
      digest rounds flags salt count (utf8 password.toList)

theorem hashedWith_of_read {rounds : BlowfishRounds} {setting : String} {flags : UInt8}
    {count : Nat} {salt : List UInt8} (header : bfSetting setting.toList = some (flags, count))
    (read : bfDecode 16 (setting.toList.drop 7) = some salt) (enough : 16 ≤ count)
    (tested : bfSelfTest rounds (setting.toList.getD 2 'a') = true) (password : String) :
    ∃ hash, bcryptHashpw rounds password setting = some hash ∧
      HashedWith rounds flags salt count password hash := by
  rcases bfCrypt_of_read header read enough (by decide : 61 ≤ bcryptHashsize) rounds with
    ⟨salted, same, crypts⟩
  rw [same] at tested
  have first : ∀ key, cryptBlowfishRn rounds key setting.toList bcryptHashsize =
      some (salted.hashed (bfEncode (digest rounds flags salt count key))).text := by
    intro key
    rw [cryptBlowfishRn, (crypts key).1, same]
    exact if_pos tested
  have again : ∀ key tail, cryptBlowfishRn rounds key (salted.hashed tail).text bcryptHashsize =
      some (salted.hashed (bfEncode (digest rounds flags salt count key))).text := by
    intro key tail
    rw [cryptBlowfishRn, (crypts key).2, salted.getD_hashed]
    exact if_pos tested
  refine ⟨_, congrArg (Option.map String.ofList) (first (utf8 password.toList)), ?_, ?_⟩
  · rw [String.length_ofList, SaltedText.length_text, SaltedText.hashed, length_bfEncode,
      length_digest]
  · intro other
    rw [bcryptCheckpw_eq_zero_iff, bcryptHashpw, String.toList_ofList, again]
    constructor
    · intro equal
      have texts := String.ofList_injective (Option.some.inj equal)
      have size := (length_digest rounds flags salt count (utf8 other.toList)).trans
        (length_digest rounds flags salt count (utf8 password.toList)).symm
      exact bfEncode_inj size (SaltedText.hashed_text_inj texts)
    · intro equal
      rw [equal]
      rfl

theorem hashedWith_of_hashed {rounds : BlowfishRounds} {password setting hash : String}
    (hashed : bcryptHashpw rounds password setting = some hash) :
    ∃ flags salt count, HashedWith rounds flags salt count password hash := by
  rcases Option.map_eq_some_iff.mp hashed with ⟨letters, crypted, _⟩
  rw [cryptBlowfishRn] at crypted
  split at crypted
  · cases crypted
  · rename_i retval made
    split at crypted
    · rename_i tested
      rcases read_of_bfCrypt made with ⟨flags, count, salt, header, read, enough, _⟩
      rcases hashedWith_of_read header read enough tested password with ⟨same, again, checked⟩
      cases Option.some.inj (hashed.symm.trans again)
      exact ⟨flags, salt, count, checked⟩
    · cases crypted

/-- The library is sound for a user unless two passwords that can be typed have the same digest. -/
theorem libbcrypt_sound {rounds : BlowfishRounds}
    (apart : ∀ {flags salt count left right}, PasswordAdmitted left → PasswordAdmitted right →
      digest rounds flags salt count (utf8 left.toList) =
        digest rounds flags salt count (utf8 right.toList) → left = right) :
    (libbcrypt rounds).Sound where
  checks := by
    intro password other salt hash typed hashedOne hashed
    rcases hashedWith_of_hashed hashed with ⟨flags, bytes, count, made⟩
    rw [libbcrypt, made.checks password]
    constructor
    · exact apart typed hashedOne
    · rintro rfl
      rfl
  short := by
    intro password salt hash _ hashed
    rcases hashedWith_of_hashed hashed with ⟨flags, bytes, count, made⟩
    rw [made.size]
    decide

/-! ## Salts -/

theorem bfSetting_gensalt {workf : Nat} (atLeast : 4 ≤ workf) (atMost : workf ≤ 31)
    (input : Vector UInt8 16) :
    bfSetting (cryptGensaltBlowfishRn workf input) = some (2, 2 ^ workf) := by
  rw [cryptGensaltBlowfishRn, bfSetting_append rfl]
  have table : ∀ workf : Fin 32, 4 ≤ workf.val →
      bfSetting ("$2a$".toList ++ [Char.ofNat ('0'.toNat + workf.val / 10),
        Char.ofNat ('0'.toNat + workf.val % 10), '$']) = some (2, 2 ^ workf.val) := by
    decide +kernel
  exact table ⟨workf, by omega⟩ atLeast

theorem bfDecode_gensalt (workf : Nat) (input : Vector UInt8 16) :
    bfDecode 16 ((cryptGensaltBlowfishRn workf input).drop 7) = some input.toList := by
  have decoded := bfDecode_bfEncode input.toList []
  rw [Vector.length_toList, List.append_nil] at decoded
  exact decoded

/-- A password is hashed with a salt that has been generated, and the hash takes the place of the
salt where a password is checked: the check succeeds for the passwords of which the rounds make the
same bytes, with the sixteen random bytes and the work factor that the salt was generated from. -/
theorem generated_salt_checks (rounds : BlowfishRounds) (tested : bfSelfTest rounds 'a' = true)
    (factor : Int) (random : Vector UInt8 16) (password : String) :
    ∃ salt hash, bcryptGensalt factor (some random) = some salt ∧
      bcryptHashpw rounds password salt = some hash ∧
      HashedWith rounds 2 random.toList (2 ^ workFactor factor) password hash := by
  have bounds : 4 ≤ workFactor factor ∧ workFactor factor ≤ 31 := by
    rw [workFactor]
    split <;> omega
  have header := bfSetting_gensalt bounds.1 bounds.2 random
  have read := bfDecode_gensalt (workFactor factor) random
  have enough : 2 ^ 4 ≤ 2 ^ workFactor factor := Nat.pow_le_pow_right Nat.zero_lt_two bounds.1
  have first := @hashedWith_of_read rounds (String.ofList
    (cryptGensaltBlowfishRn (workFactor factor) random))
  simp only [String.toList_ofList] at first
  rcases first header read enough tested password with ⟨hash, hashed, checked⟩
  exact ⟨_, hash, rfl, hashed, checked⟩

/-! The rounds that the self-test expects, and for a count of 32 those of a known hash. -/

def knownDigest (letters : String) : Vector UInt8 24 :=
  Vector.ofFn fun index => ((bfDecode 23 letters.toList).getD []).getD index.val 0

def sampleRounds : BlowfishRounds := fun _ _ count =>
  knownDigest (if count = 1 then "i1D709vfamulimlGcq0qq3UvuUasvEa"
    else "E5YPO9kmyuRGyh0XouQYb4YMJKvyOeW")

def sampleRandom : Vector UInt8 16 :=
  Vector.ofFn fun index => [0x10, 0x41, 0x04].getD (index.val % 3) 0

example : bcryptHashpw sampleRounds "U*U" "$2a$05$CCCCCCCCCCCCCCCCCCCCC." =
    some "$2a$05$CCCCCCCCCCCCCCCCCCCCC.E5YPO9kmyuRGyh0XouQYb4YMJKvyOeW" := by decide +kernel

theorem known_salt_checks :
    ∃ salt hash, bcryptGensalt 5 (some sampleRandom) = some salt ∧
      bcryptHashpw sampleRounds "U*U" salt = some hash ∧
      HashedWith sampleRounds 2 sampleRandom.toList (2 ^ workFactor 5) "U*U" hash :=
  generated_salt_checks sampleRounds (by decide +kernel) 5 sampleRandom "U*U"

end Bookshelfdq
