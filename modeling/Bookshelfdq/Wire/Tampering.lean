import Bookshelfdq.Wire.Exchange

/-! # Tampering with a request

Nothing in a packet says that it is the one that was sent. Whoever passes it on may change the kind
of a request without the key. -/

namespace Bookshelfdq

open Bookshelfdq.Field

/-! ## In memory -/

/-- Where the request stands in a message, and the first byte behind it. -/
def requestOffset : Nat := 68

def stuffOffset : Nat := 72

/-- What loads a text loads it from any bytes with the same beginning. -/
theorem loadText_of_take {bytes other : List UInt8} {text : String} {count : Nat}
    (loaded : loadText bytes = some text) (short : strlen text < count)
    (same : other.take count = bytes.take count) : loadText other = some text := by
  rw [loadText] at loaded ⊢
  split at loaded
  · rename_i terminated
    have bytesOf := utf8_of_fromUTF8 loaded
    rw [← length_utf8_toList, bytesOf] at short
    have kept := Terminated.text_of_take terminated short same
    rw [if_pos kept.1, kept.2]
    exact loaded
  · cases loaded

theorem load_requestBytes (request : ClientRequest) :
    (enumeration clientRequests (by decide)).load (intBytes (clientRequests.idxOf request)) =
      some request := by
  cases request <;> rfl

/-- A message of which the request has been replaced by another one about the same member, and the
bytes behind the user's name by any. -/
theorem load_reassigned {bytes other : List UInt8} {msg : MessageCs} {request : ClientRequest}
    {count : Nat} (loaded : messageLayout.load bytes = some msg)
    (short : strlen msg.user < count) (inside : count ≤ Escaping.userNameLen + 1)
    (begins : other.take count = bytes.take count)
    (kind : (other.drop requestOffset).take 4 = intBytes (clientRequests.idxOf request))
    (member : request.member = msg.request.member)
    (rest : other.drop stuffOffset = bytes.drop stuffOffset) :
    messageLayout.load other = some { msg with request := request } := by
  rcases Option.bind_eq_some_iff.mp loaded with ⟨⟨first, ⟨old, stuff⟩, tail⟩, fields, decoded⟩
  rcases Layout.load_pair_iff.mp fields with ⟨userLoaded, fields⟩
  rw [Layout.load_padded] at userLoaded
  rcases Layout.load_pair_iff.mp fields with ⟨body, tailLoaded⟩
  rcases Layout.load_dependent_iff.mp body with ⟨requestLoaded, stuffLoaded⟩
  obtain rfl := Option.some.inj decoded
  refine Option.bind_eq_some_iff.mpr ⟨(first, (request, stuff), tail), ?_, rfl⟩
  refine Layout.load_pair_iff.mpr ⟨?_, Layout.load_pair_iff.mpr
    ⟨Layout.load_dependent_iff.mpr ⟨?_, ?_⟩, ?_⟩⟩
  · rw [Layout.load_padded]
    apply loadText_of_take userLoaded short
    have taken : ∀ memory : List UInt8,
        ((memory.take (Escaping.userNameLen + 1 + 3)).take (Escaping.userNameLen + 1)).take count =
          memory.take count := by
      intro memory
      rw [List.take_take, List.take_take, Nat.min_eq_left inside,
        Nat.min_eq_left (inside.trans (Nat.le_add_right _ 3))]
    exact (taken other).trans (begins.trans (taken bytes).symm)
  · rw [List.take_take]
    exact (congrArg _ kind).trans (load_requestBytes request)
  · rw [member]
    refine Eq.trans ?_ stuffLoaded
    have dropped : ∀ memory : List UInt8, ((memory.drop requestOffset).take (4 + stuffSize)).drop 4 =
        (memory.drop stuffOffset).take stuffSize := by
      intro memory
      rw [List.drop_take, List.drop_drop, Nat.add_sub_cancel_left]
      rfl
    exact congrArg (stuffLayout _).load
      ((dropped other).trans ((congrArg (List.take stuffSize) rest).trans (dropped bytes).symm))
  · refine Eq.trans ?_ tailLoaded
    have dropped : ∀ memory : List UInt8, (memory.drop requestOffset).drop (4 + stuffSize) =
        (memory.drop stuffOffset).drop stuffSize := by
      intro memory
      rw [List.drop_drop, List.drop_drop]
      rfl
    exact congrArg _ ((dropped other).trans ((congrArg (List.drop stuffSize) rest).trans
      (dropped bytes).symm))

/-- Where a request stands in memory. -/
theorem take_drop_store {msg : MessageCs} {old : List UInt8} (fits : messageLayout.fits msg)
    (size : old.length = msgSize) :
    ((messageLayout.store msg old).drop requestOffset).take 4 =
      intBytes (clientRequests.idxOf msg.request) := by
  have user := ((text (Escaping.userNameLen + 1)).padded 3).length_store msg.user
    (old.take requestOffset) fits.2.1 (by rw [List.length_take, size]; rfl)
  have request : (intBytes (clientRequests.idxOf msg.request)).length = 4 := rfl
  refine (congrArg (List.take 4) (List.drop_left' user)).trans ?_
  exact (congrArg (List.take 4) (List.append_assoc _ _ _)).trans (List.take_left' request)

/-! ## On the wire -/

/-- A block with a mask for one of its bytes. -/
def byteMask (offset : Nat) (mask : UInt8) : AesBlock := zeroVector.setIfInBounds offset mask

theorem toList_mix_byteMask (block : AesBlock) (offset : Nat) (mask : UInt8) :
    (aesMixing.mix block (byteMask offset mask)).toList =
      block.toList.modify offset (· ^^^ mask) := by
  apply List.ext_getElem
  · simp
  · intro index left right
    rw [List.getElem_modify]
    by_cases same : offset = index
    · subst same
      simp [aesMixing, byteMask, zeroVector]
    · simp [aesMixing, byteMask, zeroVector, same]

theorem modify_append_left {Value : Type*} {left : List Value} {index : Nat}
    (inside : index < left.length) (change : Value → Value) (right : List Value) :
    (left ++ right).modify index change = left.modify index change ++ right := by
  have room : index < (left ++ right).length := by
    rw [List.length_append]
    omega
  rw [List.modify_eq_take_cons_drop room, List.modify_eq_take_cons_drop inside,
    List.take_append_of_le_length (Nat.le_of_lt inside), List.getElem_append_left inside,
    List.drop_append_of_le_length inside, List.append_assoc, List.cons_append]

theorem blockBytes_append (left right : List AesBlock) :
    blockBytes (left ++ right) = blockBytes left ++ blockBytes right :=
  List.flatMap_append

theorem blockBytes_cons (block : AesBlock) (blocks : List AesBlock) :
    blockBytes (block :: blocks) = block.toList ++ blockBytes blocks :=
  List.flatMap_cons

/-- Masking a byte of a block. -/
theorem modify_blockBytes (first : List AesBlock) (block : AesBlock) (rest : List AesBlock)
    {offset : Nat} (inside : offset < aesBlockSize) (mask : UInt8) :
    (blockBytes (first ++ block :: rest)).modify (aesBlockSize * first.length + offset)
        (· ^^^ mask) =
      blockBytes (first ++ aesMixing.mix block (byteMask offset mask) :: rest) := by
  have room : offset < block.toList.length := by
    rw [Vector.length_toList]
    exact inside
  rw [blockBytes_append, blockBytes_cons, blockBytes_append, blockBytes_cons,
    toList_mix_byteMask, ← length_blockBytes, List.modify, List.modifyTailIdx_add, ← List.modify,
    modify_append_left room]

section Tampering

variable (aes : Aes) (key : AesKey)

theorem exists_blocks {blocks : List AesBlock} {index : Nat} (inside : index + 1 < blocks.length) :
    ∃ first encrypted next rest, blocks = first ++ encrypted :: next :: rest ∧
      first.length = index := by
  refine ⟨blocks.take index, blocks[index], blocks[index + 1], blocks.drop (index + 2), ?_, ?_⟩
  · conv_lhs => rw [← List.take_append_drop index blocks]
    rw [List.drop_eq_getElem_cons (Nat.lt_of_succ_lt inside), List.drop_eq_getElem_cons inside]
  · rw [List.length_take]
    omega

/-- A byte masked on the wire garbles the block it is in and masks the byte one block further on.
Everything else is decrypted as it was. -/
theorem decrypt_masked {memory : List UInt8} {count index offset : Nat}
    (whole : memory.length = aesBlockSize * count) (inside : index + 1 < count)
    (offsetInside : offset < aesBlockSize) (mask : UInt8) :
    ∃ garbled : AesBlock, decrypt aes (some key)
        ((sealedBytes aes key memory).modify (aesBlockSize * index + offset) (· ^^^ mask))
        (sealedBytes aes key memory).length =
      some (memory.take (aesBlockSize * index) ++ (garbled.toList ++
        (memory.drop (aesBlockSize * (index + 1))).modify offset (· ^^^ mask))) := by
  have blocks : aesBlockSize * count / aesBlockSize = count := Nat.mul_div_cancel_left _ (by decide)
  have chained := @Mixing.length_encryptChain _ aesMixing (aes key) zeroVector (blocksAt memory count)
  rw [length_blocksAt] at chained
  have wire : sealedBytes aes key memory =
      blockBytes (aesMixing.encryptChain (aes key) zeroVector (blocksAt memory count)) := by
    rw [sealedBytes, encrypt, Option.map_some, Option.getD_some, whole, encryptedLength_of_blocks,
      blocks]
  have restored := @Mixing.decrypt_encryptChain _ aesMixing (aes key) zeroVector (blocksAt memory count)
  have stored := blockBytes_blocksAt (Nat.le_of_eq whole.symm)
  rw [← whole, List.take_length] at stored
  rcases exists_blocks (chained.symm ▸ inside) with ⟨first, encrypted, next, rest, split, length⟩
  rw [wire]
  rw [split] at chained restored ⊢
  rw [aesMixing.decryptChain_append, Mixing.decryptChain, Mixing.decryptChain] at restored
  rw [← restored, blockBytes_append, blockBytes_cons, blockBytes_cons] at stored
  have front : (blockBytes (aesMixing.decryptChain (aes key) zeroVector first)).length =
      aesBlockSize * index := by
    rw [length_blockBytes, Mixing.length_decryptChain, length]
  have masked := @Mixing.decryptChain_masked _ aesMixing (aes key) zeroVector first rest encrypted next
    (byteMask offset mask)
  have blocksOf := blocksAt_blockBytes
    (first ++ aesMixing.mix encrypted (byteMask offset mask) :: next :: rest) []
  have size : (first ++ aesMixing.mix encrypted (byteMask offset mask) :: next :: rest).length =
      count := by
    rw [← chained, List.length_append, List.length_append]
    rfl
  rw [List.append_nil, size] at blocksOf
  refine ⟨aesMixing.mix ((aes key).symm (aesMixing.mix encrypted (byteMask offset mask)))
    (first.getLastD zeroVector), ?_⟩
  rw [← length, modify_blockBytes _ _ _ offsetInside, length, length_blockBytes, chained, decrypt,
    Option.map_some, blocks, blocksOf, masked, blockBytes_append, blockBytes_cons, blockBytes_cons,
    toList_mix_byteMask]
  have kept : memory.take (aesBlockSize * index) =
      blockBytes (aesMixing.decryptChain (aes key) zeroVector first) := by
    rw [← stored, List.take_left' front]
  have behind : memory.drop (aesBlockSize * (index + 1)) =
      (aesMixing.mix ((aes key).symm next) encrypted).toList ++
        blockBytes (aesMixing.decryptChain (aes key) next rest) := by
    rw [← stored, Nat.mul_succ, ← List.drop_drop, List.drop_left' front,
      List.drop_left' (Vector.length_toList ..)]
  have room : offset < (aesMixing.mix ((aes key).symm next) encrypted).toList.length := by
    rw [Vector.length_toList]
    exact offsetInside
  rw [kept, behind, modify_append_left room]

/-- What takes the number of one request to that of another. -/
def requestMask (request other : ClientRequest) : UInt8 :=
  UInt8.ofNat (clientRequests.idxOf request) ^^^ UInt8.ofNat (clientRequests.idxOf other)

/-- The bytes of a packet, passed on with one of them masked: the one that is a block before the
request. -/
def forged (request other : ClientRequest) (bytes : List UInt8) : List UInt8 :=
  bytes.modify (requestOffset - aesBlockSize) (· ^^^ requestMask request other)

theorem intBytes_request (request : ClientRequest) :
    intBytes (clientRequests.idxOf request) =
      [UInt8.ofNat (clientRequests.idxOf request), 0, 0, 0] := by
  cases request <;> rfl

theorem modify_intBytes (request other : ClientRequest) :
    (intBytes (clientRequests.idxOf request)).modify 0 (· ^^^ requestMask request other) =
      intBytes (clientRequests.idxOf other) := by
  rw [intBytes_request, intBytes_request, List.modify_zero_cons, requestMask,
    ← UInt8.xor_assoc, UInt8.xor_self, UInt8.zero_xor]

/-- The memory that a masked packet is decrypted to holds the other request. -/
theorem load_masked {memory : List UInt8} {msg : MessageCs} {other : ClientRequest}
    (loaded : messageLayout.load memory = some msg) (length : memory.length = msgSize)
    (stored : (memory.drop requestOffset).take 4 = intBytes (clientRequests.idxOf msg.request))
    (short : strlen msg.user < aesBlockSize * 3) (member : other.member = msg.request.member)
    (garbled : AesBlock) :
    messageLayout.load (memory.take (aesBlockSize * 3) ++ (garbled.toList ++
      (memory.drop (aesBlockSize * 4)).modify 4 (· ^^^ requestMask msg.request other))) =
    some { msg with request := other } := by
  have front : (memory.take (aesBlockSize * 3)).length = aesBlockSize * 3 := by
    rw [List.length_take, length]
    rfl
  have behind : ∀ count, (memory.take (aesBlockSize * 3) ++ (garbled.toList ++
      (memory.drop (aesBlockSize * 4)).modify 4 (· ^^^ requestMask msg.request other))).drop
        (aesBlockSize * 3 + (aesBlockSize + count)) =
      ((memory.drop (aesBlockSize * 4)).modify 4
        (· ^^^ requestMask msg.request other)).drop count := by
    intro count
    rw [← List.drop_drop, ← List.drop_drop, List.drop_left' front,
      List.drop_left' (Vector.length_toList ..)]
  apply load_reassigned loaded short (by decide)
  · exact List.take_left' front
  · rw [show requestOffset = aesBlockSize * 3 + (aesBlockSize + 4) from rfl, behind,
      List.drop_modify_of_ge _ _ _ _ (Nat.le_refl 4), List.drop_drop, Nat.sub_self,
      List.take_modify]
    exact (congrArg (List.modify · 0 _) stored).trans (modify_intBytes _ _)
  · exact member
  · rw [show stuffOffset = aesBlockSize * 3 + (aesBlockSize + 8) from rfl, behind,
      List.drop_modify_of_lt _ _ _ _ (by decide), List.drop_drop]
    rfl

/-- A request of a user with a short name, passed on with another request about the same member in
its place: the server executes the other request, with everything else as the client has sent it.
This takes no key. -/
theorem forged_executed {msg : MessageCs} {old : List UInt8} (fits : messageLayout.fits msg)
    (size : old.length = msgSize) (short : strlen msg.user < aesBlockSize * 3)
    {other : ClientRequest} (member : other.member = msg.request.member) (stale : MessageCs)
    (server : Server) :
    socketSrvProcessRequest (openedMessage aes key)
        ⟨stale, forged msg.request other ((Sending.request msg old fits size).bytes aes key)⟩ server =
      socketSrvHandle { msg with request := other } server := by
  have whole := Sending.memory_request fits size
  have wire := (sealedBytes_spec aes key whole).1
  rcases @decrypt_masked aes key _ 44 3 4 whole (by decide) (by decide)
    (requestMask msg.request other) with ⟨garbled, decrypted⟩
  have loaded := messageLayout.load_store msg old fits size
  have masked := load_masked loaded whole (take_drop_store fits size) short member garbled
  have length : (forged msg.request other
      ((Sending.request msg old fits size).bytes aes key)).length = msgSize := by
    rw [forged, List.length_modify]
    exact wire.trans whole
  have opened : openedMessage aes key (forged msg.request other
      ((Sending.request msg old fits size).bytes aes key)) = { msg with request := other } := by
    have size : (sealedBytes aes key (Sending.request msg old fits size).memory).length =
        msgSize := wire.trans whole
    rw [size] at decrypted
    rw [openedMessage, length]
    exact (congrArg (fun memory => (Option.bind memory messageLayout.load).getD undefinedRequest)
      decrypted).trans (congrArg (Option.getD · undefinedRequest) masked)
  rw [socketSrvProcessRequest, length, if_neg (by decide), if_neg (by decide), opened]

end Tampering

/-- The removal of a shelf, which arrives as a request to build one. -/
theorem removal_forged :
    socketSrvProcessRequest (openedMessage sampleCipher sampleKey)
        ⟨.zeroed, forged .removeShelf .buildShelf ((Sending.request
          (clientShelfDeleteItselfMsg "reader" 1) (List.replicate msgSize 0)
          (messageLayout_fits_iff.mpr onWire_removal) length_cleared).bytes
            sampleCipher sampleKey)⟩ unusedServer =
      socketSrvHandle { clientShelfDeleteItselfMsg "reader" 1 with request := .buildShelf }
        unusedServer :=
  forged_executed sampleCipher sampleKey (messageLayout_fits_iff.mpr onWire_removal)
    length_cleared (by decide) (by decide) .zeroed unusedServer

end Bookshelfdq
