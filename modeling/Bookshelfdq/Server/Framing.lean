import Bookshelfdq.Client.Requests
import Bookshelfdq.Server.SocketSrv
import Mathlib.Logic.Basic

/-! # Packets in the byte stream

`socket_srv_process_request` reads once and takes what it gets for one packet, of
the kind that its length says. -/

namespace Bookshelfdq

/-! ## Sizes -/

@[reducible] def aesBlockSize : Nat := 16

/-- `sizeof(message_cs_t)`. -/
@[reducible] def msgSize : Nat := 704

/-- `sizeof(heartbeat_cs_t)`. -/
@[reducible] def hbSize : Nat := 16

/-- The length `encrypt` gives to `len` bytes. -/
def encryptedLength (len : Nat) : Nat :=
  if len % aesBlockSize ≠ 0 then (len / aesBlockSize + 1) * aesBlockSize else len

def encryptSize : Nat :=
  if msgSize % aesBlockSize = 0 then msgSize
  else (msgSize / aesBlockSize + 1) * aesBlockSize

/-- What the server takes for the length of a heartbeat. The source tests `msg_size`
here, too. -/
def encryptSizeHb : Nat :=
  if msgSize % aesBlockSize = 0 then hbSize else (hbSize / aesBlockSize + 1) * aesBlockSize

theorem encryptSize_eq : encryptSize = encryptedLength msgSize := rfl

theorem encryptSizeHb_eq : encryptSizeHb = encryptedLength hbSize := rfl

theorem encryptSizeHb_ne : encryptSize ≠ encryptSizeHb := by decide

/-! ## Packets and reads -/

/-- What `socket_client_send_request` and `socket_client_send_heartbeat` write. -/
inductive Packet
  | request (bytes : { bytes : List UInt8 // bytes.length = encryptedLength msgSize })
  | heartbeat (bytes : { bytes : List UInt8 // bytes.length = encryptedLength hbSize })

def Packet.bytes : Packet → List UInt8
  | request bytes => bytes.1
  | heartbeat bytes => bytes.1

/-- One `recv`: the bytes it returns, and what the variable `msg` holds before it. -/
structure Recv where
  stale : MessageCs
  bytes : List UInt8

/-- What becomes of the bytes of one read, or of one packet. -/
inductive Treatment
  | ignored
  | executed (msg : MessageCs)
  | rejected
deriving DecidableEq

section Stream

/-! `decrypt` is `decrypt` of `aes_options.c`, with the memory of a `message_cs_t` read
as a message. -/

variable (decrypt : List UInt8 → MessageCs)

/-- `socket_srv_process_request`, for a `recv` that does not fail. -/
def socketSrvProcessRequest (recv : Recv) (server : Server) : Answer :=
  let nread := recv.bytes.length
  if nread = encryptSizeHb then (true, [], server)
  else if nread ≠ encryptSize then
    server.send { recv.stale with
      response := .failed
      errorText := "Server recieved incorrect num(%d) of message." }
  else socketSrvHandle (decrypt recv.bytes) server

/-- The replies to a sequence of reads, and the server after it. -/
def serve : List Recv → Server → List MessageCs × Server
  | [], server => ([], server)
  | recv :: recvs, server =>
      let answer := socketSrvProcessRequest decrypt recv server
      let rest := serve recvs answer.2.2
      (answer.2.1 ++ rest.1, rest.2)

/-- The replies to a sequence of requests, and the server after it. -/
def performAll : List MessageCs → Server → List MessageCs × Server
  | [], server => ([], server)
  | msg :: msgs, server =>
      let answer := socketSrvHandle msg server
      let rest := performAll msgs answer.2.2
      (answer.2.1 ++ rest.1, rest.2)

def Recv.treatment (recv : Recv) : Treatment :=
  if recv.bytes.length = encryptSizeHb then .ignored
  else if recv.bytes.length ≠ encryptSize then .rejected
  else .executed (decrypt recv.bytes)

def Packet.treatment : Packet → Treatment
  | request bytes => .executed (decrypt bytes.1)
  | heartbeat _ => .ignored

def Packet.message : Packet → Option MessageCs
  | request bytes => some (decrypt bytes.1)
  | heartbeat _ => none

/-- The law: the server executes the requests and ignores the heartbeats, one by one,
and its replies are those to the requests. -/
structure Framed (packets : List Packet) (recvs : List Recv) : Prop where
  treated : recvs.map (Recv.treatment decrypt) = packets.map (Packet.treatment decrypt)
  served : ∀ server, serve decrypt recvs server =
    performAll (packets.filterMap (Packet.message decrypt)) server

variable {decrypt}

theorem Recv.treatment_of_packet {recv : Recv} {packet : Packet}
    (whole : recv.bytes = packet.bytes) :
    recv.treatment decrypt = packet.treatment decrypt := by
  cases packet with
  | request bytes =>
      have length : recv.bytes.length = encryptSize := by
        rw [whole, encryptSize_eq]
        exact bytes.2
      rw [treatment, if_neg (length ▸ encryptSizeHb_ne), if_neg (not_not.mpr length), whole]
      rfl
  | heartbeat bytes =>
      have length : recv.bytes.length = encryptSizeHb := by
        rw [whole, encryptSizeHb_eq]
        exact bytes.2
      rw [treatment, if_pos length]
      rfl

theorem Recv.length_of_treatment {recv : Recv} {packet : Packet}
    (same : recv.treatment decrypt = packet.treatment decrypt) :
    recv.bytes.length = packet.bytes.length := by
  rw [treatment] at same
  cases packet with
  | request bytes =>
      have size : (Packet.request bytes).bytes.length = encryptSize := bytes.2
      split at same
      · cases same
      · split at same
        · cases same
        · rename_i length
          exact (not_not.mp length).trans size.symm
  | heartbeat bytes =>
      have size : (Packet.heartbeat bytes).bytes.length = encryptSizeHb := bytes.2
      split at same
      · rename_i length
        exact length.trans size.symm
      · split at same
        · cases same
        · cases same

theorem serve_of_treated {packets : List Packet} {recvs : List Recv}
    (treated : recvs.map (Recv.treatment decrypt) = packets.map (Packet.treatment decrypt))
    (server : Server) : serve decrypt recvs server =
      performAll (packets.filterMap (Packet.message decrypt)) server := by
  induction packets generalizing recvs server with
  | nil =>
      rw [List.map_eq_nil_iff.mp treated]
      rfl
  | cons packet packets induction =>
      cases recvs with
      | nil => cases treated
      | cons recv recvs =>
          rw [List.map_cons, List.map_cons, List.cons.injEq] at treated
          rcases treated with ⟨first, rest⟩
          rw [serve, socketSrvProcessRequest]
          rw [Recv.treatment] at first
          cases packet with
          | request bytes =>
              dsimp only [Packet.treatment] at first
              split at first
              · cases first
              · rename_i notBeat
                split at first
                · cases first
                · rename_i size
                  rw [if_neg notBeat, if_neg size, Treatment.executed.inj first, induction rest]
                  rfl
          | heartbeat bytes =>
              dsimp only [Packet.treatment] at first
              split at first
              · rename_i beat
                rw [if_pos beat]
                dsimp only
                rw [induction rest]
                rfl
              · split at first
                · cases first
                · cases first

theorem lengths_of_treated {packets : List Packet} {recvs : List Recv}
    (treated : recvs.map (Recv.treatment decrypt) = packets.map (Packet.treatment decrypt)) :
    (recvs.map Recv.bytes).map List.length = (packets.map Packet.bytes).map List.length := by
  induction packets generalizing recvs with
  | nil =>
      rw [List.map_eq_nil_iff.mp treated]
      rfl
  | cons packet packets induction =>
      cases recvs with
      | nil => cases treated
      | cons recv recvs =>
          rw [List.map_cons, List.map_cons, List.cons.injEq] at treated
          simp only [List.map_cons, List.cons.injEq]
          exact ⟨Recv.length_of_treatment treated.1, induction treated.2⟩

theorem treated_of_whole {packets : List Packet} {recvs : List Recv}
    (whole : recvs.map Recv.bytes = packets.map Packet.bytes) :
    recvs.map (Recv.treatment decrypt) = packets.map (Packet.treatment decrypt) := by
  induction packets generalizing recvs with
  | nil =>
      rw [List.map_eq_nil_iff.mp whole]
      rfl
  | cons packet packets induction =>
      cases recvs with
      | nil => cases whole
      | cons recv recvs =>
          rw [List.map_cons, List.map_cons, List.cons.injEq] at whole
          rw [List.map_cons, List.map_cons, Recv.treatment_of_packet whole.1, induction whole.2]

/-- However the stream of packets is cut into reads, the server serves it right exactly
if every read returns one whole packet. -/
theorem framed_iff_whole_packets (packets : List Packet) (recvs : List Recv)
    (stream : (recvs.map Recv.bytes).flatten = (packets.map Packet.bytes).flatten) :
    Framed decrypt packets recvs ↔ recvs.map Recv.bytes = packets.map Packet.bytes := by
  constructor
  · intro framed
    exact List.eq_iff_flatten_eq.mpr ⟨stream, lengths_of_treated framed.treated⟩
  · intro whole
    have treated : recvs.map (Recv.treatment decrypt) = packets.map (Packet.treatment decrypt) :=
      treated_of_whole whole
    exact ⟨treated, serve_of_treated treated⟩

end Stream

/-! A heartbeat and a request of one client. -/

def sampleBeat : Packet := .heartbeat ⟨List.replicate 16 0, rfl⟩

def sampleRequest : Packet := .request ⟨List.replicate 704 1, List.length_replicate⟩

/-- What the sample request holds. -/
def sampleDecrypt (_ : List UInt8) : MessageCs := clientShelfDeleteItselfMsg "reader" 1

theorem framed_one_by_one :
    Framed sampleDecrypt [sampleBeat, sampleRequest]
      [⟨.zeroed, sampleBeat.bytes⟩, ⟨.zeroed, sampleRequest.bytes⟩] :=
  (framed_iff_whole_packets _ _ rfl).mpr rfl

/-- One read returns both: the request is not executed, and the server replies to bytes
that no request consists of. -/
theorem merged_packets_rejected :
    ([⟨.zeroed, sampleBeat.bytes ++ sampleRequest.bytes⟩].map Recv.bytes).flatten =
        ([sampleBeat, sampleRequest].map Packet.bytes).flatten ∧
      Recv.treatment sampleDecrypt ⟨.zeroed, sampleBeat.bytes ++ sampleRequest.bytes⟩ =
        .rejected ∧
      ¬ Framed sampleDecrypt [sampleBeat, sampleRequest]
        [⟨.zeroed, sampleBeat.bytes ++ sampleRequest.bytes⟩] := by
  have beat : sampleBeat.bytes.length = 16 := rfl
  have request : sampleRequest.bytes.length = 704 := List.length_replicate
  have length : (sampleBeat.bytes ++ sampleRequest.bytes).length = 720 := by
    rw [List.length_append, beat, request]
  refine ⟨by simp, ?_, ?_⟩
  · rw [Recv.treatment, length]
    rfl
  · intro framed
    have counts := congrArg List.length framed.treated
    simp at counts

end Bookshelfdq
