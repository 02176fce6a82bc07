import Bookshelfdq.Foundation.BlockChaining
import Bookshelfdq.Server.Framing

/-! # Encryption

`aes_options.c`, which client and server share. The block cipher is OpenSSL's; chaining it over a
buffer starts from a vector of zeros every time. -/

namespace Bookshelfdq

/-! ## Blocks -/

abbrev AesBlock := Vector UInt8 aesBlockSize

/-- The variable `key`; while `aes_has_init` is zero, there is none. -/
abbrev AesKey := Vector UInt8 aesBlockSize

/-- The permutations that `AES_set_encrypt_key` and `AES_set_decrypt_key` prepare for a key. -/
abbrev Aes := AesKey → Equiv.Perm AesBlock

def aesMixing : Mixing AesBlock where
  mix left right := left.zipWith (· ^^^ ·) right
  mix_mix left right := by
    apply Vector.ext
    intro index inside
    rw [Vector.getElem_zipWith, Vector.getElem_zipWith, UInt8.xor_assoc, UInt8.xor_self,
      UInt8.xor_zero]
  mix_assoc left middle right := by
    apply Vector.ext
    intro index inside
    rw [Vector.getElem_zipWith, Vector.getElem_zipWith, Vector.getElem_zipWith,
      Vector.getElem_zipWith, UInt8.xor_assoc]

def zeroVector : AesBlock := Vector.replicate aesBlockSize 0

/-- The blocks at the start of a buffer. -/
def blocksAt (buffer : List UInt8) : Nat → List AesBlock
  | 0 => []
  | count + 1 =>
      Vector.ofFn (fun index => buffer.getD index 0) ::
        blocksAt (buffer.drop aesBlockSize) count

def blockBytes (blocks : List AesBlock) : List UInt8 := blocks.flatMap Vector.toList

@[simp] theorem length_blocksAt (buffer : List UInt8) (count : Nat) :
    (blocksAt buffer count).length = count := by
  induction count generalizing buffer with
  | zero => rfl
  | succ count induction => simp [blocksAt, induction]

@[simp] theorem length_blockBytes (blocks : List AesBlock) :
    (blockBytes blocks).length = aesBlockSize * blocks.length := by
  induction blocks with
  | nil => rfl
  | cons block blocks induction =>
      rw [blockBytes, List.flatMap_cons, List.length_append, ← blockBytes, induction,
        Vector.length_toList, List.length_cons, Nat.mul_succ, Nat.add_comm]

theorem blocksAt_blockBytes (blocks : List AesBlock) (rest : List UInt8) :
    blocksAt (blockBytes blocks ++ rest) blocks.length = blocks := by
  induction blocks with
  | nil => rfl
  | cons block blocks induction =>
      have split : blockBytes (block :: blocks) ++ rest =
          block.toList ++ (blockBytes blocks ++ rest) := by
        simp [blockBytes]
      have first : Vector.ofFn (fun index : Fin aesBlockSize =>
          (block.toList ++ (blockBytes blocks ++ rest)).getD index 0) = block := by
        ext index inside
        simp [List.getElem?_append_left]
      have dropped : (block.toList ++ (blockBytes blocks ++ rest)).drop aesBlockSize =
          blockBytes blocks ++ rest := by
        rw [List.drop_append_of_le_length (by simp)]
        simp
      rw [split, List.length_cons, blocksAt, first, dropped, induction]

theorem blockBytes_blocksAt {buffer : List UInt8} {count : Nat}
    (inside : aesBlockSize * count ≤ buffer.length) :
    blockBytes (blocksAt buffer count) = buffer.take (aesBlockSize * count) := by
  induction count generalizing buffer with
  | zero => simp [blocksAt, blockBytes]
  | succ count induction =>
      rw [Nat.mul_succ] at inside
      have rest : aesBlockSize * count ≤ (buffer.drop aesBlockSize).length := by
        rw [List.length_drop]
        exact Nat.le_sub_of_add_le inside
      have first : (Vector.ofFn (fun index : Fin aesBlockSize => buffer.getD index 0)).toList =
          buffer.take aesBlockSize := by
        apply List.ext_getElem
        · rw [Vector.length_toList, List.length_take,
            Nat.min_eq_left (Nat.le_of_add_left_le inside)]
        · intro index left right
          have bound : index < buffer.length := by
            rw [List.length_take] at right
            omega
          simp [List.getElem?_eq_getElem bound]
      rw [blocksAt, blockBytes, List.flatMap_cons, ← blockBytes, induction rest, first,
        Nat.mul_succ, Nat.add_comm, List.take_add]

/-! ## The two functions -/

section Functions

variable (aes : Aes)

/-- `encrypt`: the bytes it writes, as many as it returns. No caller's buffer is shorter than the
length rounded up. -/
def encrypt (key : Option AesKey) (input : List UInt8) (len : Nat) : Option (List UInt8) :=
  key.map fun key =>
    blockBytes (aesMixing.encryptChain (aes key) zeroVector
      (blocksAt input (encryptedLength len / aesBlockSize)))

/-- `decrypt`, for whole blocks. -/
def decrypt (key : Option AesKey) (encrypted : List UInt8) (len : Nat) : Option (List UInt8) :=
  key.map fun key =>
    blockBytes (aesMixing.decryptChain (aes key) zeroVector
      (blocksAt encrypted (len / aesBlockSize)))

end Functions

end Bookshelfdq
