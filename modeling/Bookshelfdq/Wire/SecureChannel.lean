import Bookshelfdq.Wire.AesOptions
import Bookshelfdq.Wire.MessageLayout

/-! # Messages through the encrypted channel

A message is laid out in memory, encrypted, cut up by the transport, decrypted and read from
memory again. -/

namespace Bookshelfdq

/-! ## One buffer -/

theorem encryptedLength_of_blocks (count : Nat) :
    encryptedLength (aesBlockSize * count) = aesBlockSize * count := by
  rw [encryptedLength, Nat.mul_mod_right]
  rfl

/-- Whole blocks come back as they were. -/
theorem decrypt_encrypt (aes : Aes) (key : AesKey) {bytes : List UInt8} {count : Nat}
    (whole : bytes.length = aesBlockSize * count) :
    ∃ encrypted, encrypt aes (some key) bytes bytes.length = some encrypted ∧
      encrypted.length = bytes.length ∧
      decrypt aes (some key) encrypted encrypted.length = some bytes := by
  have blocks : aesBlockSize * count / aesBlockSize = count := Nat.mul_div_cancel_left _ (by decide)
  have chained := @Mixing.length_encryptChain _ aesMixing (aes key) zeroVector (blocksAt bytes count)
  rw [length_blocksAt] at chained
  have restored := blocksAt_blockBytes
    (aesMixing.encryptChain (aes key) zeroVector (blocksAt bytes count)) []
  rw [chained, List.append_nil] at restored
  refine ⟨_, rfl, ?_, ?_⟩
  · rw [length_blockBytes, Mixing.length_encryptChain, length_blocksAt, whole,
      encryptedLength_of_blocks, blocks]
  · rw [decrypt, Option.map_some, whole, encryptedLength_of_blocks, blocks, length_blockBytes,
      chained, blocks, restored, Mixing.decrypt_encryptChain,
      blockBytes_blocksAt (Nat.le_of_eq whole.symm), ← whole, List.take_length]

section Channel

variable (aes : Aes) (key : AesKey)

/-- The bytes on the wire for the bytes in memory. -/
def sealedBytes (memory : List UInt8) : List UInt8 :=
  (encrypt aes (some key) memory memory.length).getD []

/-- What the server makes of a request that it does not know. -/
def undefinedRequest : MessageCs := { MessageCs.zeroed with request := .heartbeat }

/-- The message that `msg` holds after the bytes have been decrypted into it. -/
def openedMessage (bytes : List UInt8) : MessageCs :=
  ((decrypt aes (some key) bytes bytes.length).bind messageLayout.load).getD undefinedRequest

theorem sealedBytes_spec {memory : List UInt8} {count : Nat}
    (whole : memory.length = aesBlockSize * count) :
    (sealedBytes aes key memory).length = memory.length ∧
      decrypt aes (some key) (sealedBytes aes key memory)
        (sealedBytes aes key memory).length = some memory := by
  rcases decrypt_encrypt aes key whole with ⟨encrypted, result, length, restored⟩
  rw [sealedBytes, result]
  exact ⟨length, restored⟩

/-! ## Requests -/

/-- What the main thread and the heartbeat thread of a client send: a message in memory that held
something else before, or a heartbeat. -/
inductive Sending
  | request (msg : MessageCs) (old : List UInt8) (fits : messageLayout.fits msg)
      (size : old.length = msgSize)
  | heartbeat (memory : List UInt8) (size : memory.length = hbSize)

namespace Sending

def memory : Sending → List UInt8
  | request msg old _ _ => messageLayout.store msg old
  | heartbeat memory _ => memory

def bytes (sending : Sending) : List UInt8 := sealedBytes aes key sending.memory

def message : Sending → Option MessageCs
  | request msg _ _ _ => some msg
  | heartbeat _ _ => none

def treatment : Sending → Treatment
  | request msg _ _ _ => .executed msg
  | heartbeat _ _ => .ignored

theorem memory_request {msg : MessageCs} {old : List UInt8} (fits : messageLayout.fits msg)
    (size : old.length = msgSize) :
    (request msg old fits size).memory.length = aesBlockSize * 44 :=
  messageLayout.length_store msg old fits size

/-- The packet that is sent. -/
def packet : Sending → Packet
  | request msg old fits size =>
      .request ⟨(request msg old fits size).bytes aes key,
        (sealedBytes_spec aes key (memory_request fits size)).1.trans
          (memory_request fits size)⟩
  | heartbeat memory size =>
      .heartbeat ⟨(heartbeat memory size).bytes aes key,
        (@sealedBytes_spec aes key _ 1 size).1.trans size⟩

theorem packet_bytes (sending : Sending) : (sending.packet aes key).bytes = sending.bytes aes key := by
  cases sending <;> rfl

theorem opened_request {msg : MessageCs} {old : List UInt8} (fits : messageLayout.fits msg)
    (size : old.length = msgSize) :
    openedMessage aes key ((request msg old fits size).bytes aes key) = msg := by
  have restored := (sealedBytes_spec aes key (memory_request fits size)).2
  rw [openedMessage, bytes, restored, Option.bind_some, memory,
    messageLayout.load_store msg old fits size, Option.getD_some]

theorem packet_treatment (sending : Sending) :
    (sending.packet aes key).treatment (openedMessage aes key) = sending.treatment := by
  cases sending with
  | request msg old fits size =>
      rw [packet, Packet.treatment, opened_request]
      rfl
  | heartbeat memory size => rfl

theorem packet_message (sending : Sending) :
    (sending.packet aes key).message (openedMessage aes key) = sending.message := by
  cases sending with
  | request msg old fits size =>
      rw [packet, Packet.message, opened_request]
      rfl
  | heartbeat memory size => rfl

end Sending

end Channel

end Bookshelfdq
