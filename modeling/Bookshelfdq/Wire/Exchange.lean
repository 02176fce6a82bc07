import Bookshelfdq.Wire.ReplyFits
import Bookshelfdq.Wire.SecureChannel

/-! # Requests and replies over one connection

Both directions of the encrypted channel. What the server executes is what the client has sent, and
what the client reads is what the server has replied, up to where the connection breaks. -/

namespace Bookshelfdq

section Exchange

variable (aes : Aes) (key : AesKey)

/-! ## The client's side -/

/-- `socket_client_get_response`. `MSG_WAITALL` gathers a whole reply from the stream, or what is
left when the connection ends. -/
def Wire.socketClientGetResponse (stream : List UInt8) : Option MessageCs × List UInt8 :=
  let encrypted := stream.take encryptSize
  if encrypted.length ≠ encryptSize then (none, stream.drop encryptSize)
  else (some (openedMessage aes key encrypted), stream.drop encryptSize)

/-- The replies that so many calls read, until one fails. -/
def Wire.responses : Nat → List UInt8 → List MessageCs
  | 0, _ => []
  | calls + 1, stream =>
      match socketClientGetResponse aes key stream with
      | (none, _) => []
      | (some msg, rest) => msg :: responses calls rest

/-! ## The server's side -/

/-- A reply as the server has it in memory: a message over what the memory held before. -/
structure Replying where
  msg : MessageCs
  old : List UInt8
  size : old.length = msgSize

def Replying.bytes (replying : Replying) : List UInt8 :=
  sealedBytes aes key (messageLayout.store replying.msg replying.old)

theorem Replying.opened (replying : Replying) (fits : replying.msg.OnWire) :
    (replying.bytes aes key).length = encryptSize ∧
      openedMessage aes key (replying.bytes aes key) = replying.msg := by
  have loads := messageLayout_fits_iff.mpr fits
  have request := Sending.memory_request loads replying.size
  have sealedSize := (sealedBytes_spec aes key request).1
  exact ⟨sealedSize.trans request, Sending.opened_request aes key loads replying.size⟩

/-- The replies in the order they are sent, all of them into one stream. -/
def replyStream (replyings : List Replying) : List UInt8 :=
  (replyings.map (Replying.bytes aes key)).flatten

theorem Wire.responses_short {stream : List UInt8} (short : stream.length < encryptSize)
    (calls : Nat) : responses aes key calls stream = [] := by
  cases calls with
  | zero => rfl
  | succ calls =>
      have partial_ : (stream.take encryptSize).length ≠ encryptSize := by
        rw [List.length_take]
        omega
      rw [responses, socketClientGetResponse, if_pos partial_]

/-- Of a stream that breaks off, the client reads the replies that are whole. -/
theorem Wire.responses_replyStream {replyings : List Replying}
    (fits : ∀ replying ∈ replyings, replying.msg.OnWire) (arrived calls : Nat) :
    responses aes key calls ((replyStream aes key replyings).take arrived) =
      ((replyings.map Replying.msg).take (arrived / encryptSize)).take calls := by
  have positive : 0 < encryptSize := by decide
  induction replyings generalizing arrived calls with
  | nil =>
      have empty : (replyStream aes key []).take arrived = [] := List.take_nil
      rw [empty, @responses_short aes key [] positive, List.map_nil, List.take_nil, List.take_nil]
  | cons replying replyings induction =>
      have first := replying.opened aes key (fits replying List.mem_cons_self)
      have later := induction fun other member => fits other (List.mem_cons_of_mem _ member)
      have split : replyStream aes key (replying :: replyings) =
          replying.bytes aes key ++ replyStream aes key replyings := rfl
      rw [split]
      by_cases whole : arrived < encryptSize
      · have short : ((replying.bytes aes key ++ replyStream aes key replyings).take
            arrived).length < encryptSize := by
          rw [List.length_take]
          omega
        rw [responses_short _ _ short, Nat.div_eq_of_lt whole, List.take_zero, List.take_nil]
      · have taken : (replying.bytes aes key ++ replyStream aes key replyings).take arrived =
            replying.bytes aes key ++
              (replyStream aes key replyings).take (arrived - encryptSize) := by
          rw [List.take_append, first.1, List.take_of_length_le (by omega)]
        have next : arrived / encryptSize = (arrived - encryptSize) / encryptSize + 1 := by
          rw [Nat.div_eq_sub_div positive (Nat.not_lt.mp whole)]
        rw [taken, next, List.map_cons, List.take_succ_cons]
        cases calls with
        | zero => rw [List.take_zero, responses]
        | succ calls =>
            rw [List.take_succ_cons, responses, socketClientGetResponse,
              List.take_left' first.1, List.drop_left' first.1, if_neg (not_not.mpr first.1),
              first.2]
            exact congrArg (List.cons replying.msg) (later _ _)

/-! ## Both directions -/

theorem Sending.messages_onWire (sendings : List Sending) :
    ∀ request ∈ sendings.filterMap Sending.message, request.OnWire := by
  intro request member
  rcases List.mem_filterMap.mp member with ⟨sending, _, holds⟩
  cases sending with
  | request msg old fits size =>
      rw [← Option.some.inj holds]
      exact messageLayout_fits_iff.mp fits
  | heartbeat memory size => cases holds

theorem Sending.packets_bytes (sendings : List Sending) :
    (sendings.map (Sending.packet aes key)).map Packet.bytes =
      sendings.map (Sending.bytes aes key) := by
  rw [List.map_map]
  exact List.map_congr_left fun sending _ => sending.packet_bytes aes key

theorem Sending.packets_treatment (sendings : List Sending) :
    (sendings.map (Sending.packet aes key)).map (Packet.treatment (openedMessage aes key)) =
      sendings.map Sending.treatment := by
  rw [List.map_map]
  exact List.map_congr_left fun sending _ => sending.packet_treatment aes key

theorem Sending.packets_message (sendings : List Sending) :
    (sendings.map (Sending.packet aes key)).filterMap (Packet.message (openedMessage aes key)) =
      sendings.filterMap Sending.message := by
  rw [List.filterMap_map]
  exact List.filterMap_congr fun sending _ => sending.packet_message aes key

/-- Messages and heartbeats, encrypted into one stream of bytes that is cut up in any way: the
server makes of each read what the client has sent exactly if every read returns one packet. Then
it executes the requests as they were in the client's memory, and the client reads from what has
arrived of the stream of replies as many replies as are whole, as they were in the server's. -/
theorem exchange_iff_whole_packets {sendings : List Sending} {recvs : List Recv}
    (stream : (recvs.map Recv.bytes).flatten = (sendings.map (Sending.bytes aes key)).flatten)
    {server : Server} (fits : server.db.archive.OnWire) :
    (recvs.map (Recv.treatment (openedMessage aes key)) = sendings.map Sending.treatment ↔
        recvs.map Recv.bytes = sendings.map (Sending.bytes aes key)) ∧
      (recvs.map Recv.bytes = sendings.map (Sending.bytes aes key) →
        serve (openedMessage aes key) recvs server =
            performAll (sendings.filterMap Sending.message) server ∧
          ∀ replyings : List Replying, replyings.map Replying.msg =
              (performAll (sendings.filterMap Sending.message) server).1 →
            ∀ arrived calls, Wire.responses aes key calls
                ((replyStream aes key replyings).take arrived) =
              ((performAll (sendings.filterMap Sending.message) server).1.take
                (arrived / encryptSize)).take calls) := by
  have bytes := Sending.packets_bytes aes key sendings
  have treatment := Sending.packets_treatment aes key sendings
  have treated : recvs.map Recv.bytes = sendings.map (Sending.bytes aes key) →
      recvs.map (Recv.treatment (openedMessage aes key)) =
        (sendings.map (Sending.packet aes key)).map
          (Packet.treatment (openedMessage aes key)) := by
    intro whole
    exact treated_of_whole (whole.trans bytes.symm)
  refine ⟨⟨?_, fun whole => (treated whole).trans treatment⟩, fun whole => ⟨?_, ?_⟩⟩
  · intro same
    have lengths := lengths_of_treated (same.trans treatment.symm)
    rw [bytes] at lengths
    exact List.eq_iff_flatten_eq.mpr ⟨stream, lengths⟩
  · rw [serve_of_treated (treated whole), Sending.packets_message]
  · intro replyings replied arrived calls
    have onWire := (performAll_onWire (Sending.messages_onWire sendings) fits).1
    rw [← replied]
    apply Wire.responses_replyStream
    intro replying member
    apply onWire
    rw [← replied]
    exact List.mem_map_of_mem member

end Exchange

/-! A heartbeat and a request of one client, under a cipher that leaves every block as it is. -/

def sampleCipher : Aes := fun _ => Equiv.refl _

def sampleKey : AesKey := Vector.replicate aesBlockSize 0

def sampleSendings : List Sending :=
  [.heartbeat (List.replicate hbSize 0) rfl,
    .request (clientShelfDeleteItselfMsg "reader" 1) (List.replicate msgSize 0)
      (messageLayout_fits_iff.mpr onWire_removal) length_cleared]

def sampleReads : List Recv :=
  sampleSendings.map fun sending => ⟨.zeroed, sending.bytes sampleCipher sampleKey⟩

theorem exchange_one_by_one :
    serve (openedMessage sampleCipher sampleKey) sampleReads unusedServer =
      performAll [clientShelfDeleteItselfMsg "reader" 1] unusedServer := by
  have whole : sampleReads.map Recv.bytes =
      sampleSendings.map (Sending.bytes sampleCipher sampleKey) := List.map_map
  have exchanged := @exchange_iff_whole_packets sampleCipher sampleKey sampleSendings sampleReads
    (congrArg List.flatten whole) unusedServer Archive.onWire_empty
  exact (exchanged.2 whole).1

end Bookshelfdq
