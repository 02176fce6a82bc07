import Mathlib.Data.List.Basic
import Mathlib.Logic.Equiv.Defs

/-! # Cipher block chaining

A permutation of blocks is chained over a message: each block is mixed with the ciphertext block
before it. `mix` undoes itself. -/

namespace Bookshelfdq

/-- Mixing two blocks, as by a bitwise exclusive or. -/
structure Mixing (Block : Type*) where
  mix : Block → Block → Block
  mix_mix : ∀ block mask, mix (mix block mask) mask = block
  mix_assoc : ∀ block left right, mix (mix block left) right = mix block (mix left right)

namespace Mixing

variable {Block : Type*} (mixing : Mixing Block)

variable (cipher : Equiv.Perm Block)

/-- Encryption from the initialisation vector `previous` on. -/
def encryptChain : Block → List Block → List Block
  | _, [] => []
  | previous, block :: blocks =>
      let encrypted := cipher (mixing.mix block previous)
      encrypted :: encryptChain encrypted blocks

def decryptChain : Block → List Block → List Block
  | _, [] => []
  | previous, encrypted :: rest =>
      mixing.mix (cipher.symm encrypted) previous :: decryptChain encrypted rest

variable {cipher}

@[simp] theorem length_encryptChain (vector : Block) (blocks : List Block) :
    (mixing.encryptChain cipher vector blocks).length = blocks.length := by
  induction blocks generalizing vector with
  | nil => rfl
  | cons block blocks induction => simp [encryptChain, induction]

@[simp] theorem length_decryptChain (vector : Block) (blocks : List Block) :
    (mixing.decryptChain cipher vector blocks).length = blocks.length := by
  induction blocks generalizing vector with
  | nil => rfl
  | cons block blocks induction => simp [decryptChain, induction]

@[simp] theorem decrypt_encryptChain (vector : Block) (blocks : List Block) :
    mixing.decryptChain cipher vector (mixing.encryptChain cipher vector blocks) = blocks := by
  induction blocks generalizing vector with
  | nil => rfl
  | cons block blocks induction => simp [encryptChain, decryptChain, mixing.mix_mix, induction]

@[simp] theorem encrypt_decryptChain (vector : Block) (blocks : List Block) :
    mixing.encryptChain cipher vector (mixing.decryptChain cipher vector blocks) = blocks := by
  induction blocks generalizing vector with
  | nil => rfl
  | cons block blocks induction => simp [encryptChain, decryptChain, mixing.mix_mix, induction]

/-- Decryption starts afresh behind any ciphertext block. -/
theorem decryptChain_append (vector : Block) (first second : List Block) :
    mixing.decryptChain cipher vector (first ++ second) =
      mixing.decryptChain cipher vector first ++
        mixing.decryptChain cipher (first.getLastD vector) second := by
  induction first generalizing vector with
  | nil => rfl
  | cons block first induction =>
      rw [List.cons_append, decryptChain, decryptChain, induction, List.cons_append,
        List.getLastD_cons]

/-- Masking one ciphertext block garbles the block it carries, masks the next one the same way
and leaves the rest of the message as it was. -/
theorem decryptChain_masked (vector : Block) (first rest : List Block)
    (encrypted next mask : Block) :
    mixing.decryptChain cipher vector
        (first ++ mixing.mix encrypted mask :: next :: rest) =
      mixing.decryptChain cipher vector first ++
        mixing.mix (cipher.symm (mixing.mix encrypted mask)) (first.getLastD vector) ::
        mixing.mix (mixing.mix (cipher.symm next) encrypted) mask ::
        mixing.decryptChain cipher next rest := by
  rw [decryptChain_append, decryptChain, decryptChain, ← mixing.mix_assoc]

end Mixing

end Bookshelfdq
