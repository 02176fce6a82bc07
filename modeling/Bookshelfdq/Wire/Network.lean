import Bookshelfdq.Wire.Exchange

/-! # All clients at once

The server takes a packet from whichever connection has one, answers it from one database, and
writes the encrypted replies to the connection it came from. -/

namespace Bookshelfdq

universe u

/-! ## Requests with their connections -/

section Serve

variable {Conn : Type u}

/-- The requests that arrive over connections, each with what it is answered. -/
def Host.serve (host : Host) (tagged : List (Conn × Event)) :
    List (Conn × Event × Bool × List MessageCs) :=
  (tagged.map Prod.fst).zip (host.run (tagged.map Prod.snd)).1

variable [DecidableEq Conn]

end Serve

/-! ## Packets -/

/-- A request as it lies in the memory of a client, and what the environment has in store for it. -/
structure Posted where
  event : Event
  old : List UInt8
  size : old.length = msgSize
  fits : messageLayout.fits event.request

/-- A packet that the server reads whole. -/
inductive Arrival (Conn : Type u)
  | request (conn : Conn) (posted : Posted)
  | heartbeat (conn : Conn) (memory : List UInt8) (size : memory.length = hbSize)

/-- The requests among the packets. -/
def Arrival.requests {Conn : Type u} (arrivals : List (Arrival Conn)) : List (Conn × Event) :=
  arrivals.filterMap fun arrival =>
    match arrival with
    | .request conn posted => some (conn, posted.event)
    | .heartbeat _ _ _ => none

section Packets

variable (aes : Aes) (key : AesKey)

namespace Posted

def sending (posted : Posted) : Sending :=
  .request posted.event.request posted.old posted.fits posted.size

def bytes (posted : Posted) : List UInt8 := posted.sending.bytes aes key

theorem openedMessage_bytes (posted : Posted) :
    openedMessage aes key (posted.bytes aes key) = posted.event.request :=
  Sending.opened_request aes key posted.fits posted.size

/-- The request as the server decodes it. -/
def received (posted : Posted) : Event :=
  { posted.event with
    request := openedMessage aes key (posted.bytes aes key)
    plain := by
      rw [openedMessage_bytes]
      exact posted.event.plain
    plainAccount := by
      rw [openedMessage_bytes]
      exact posted.event.plainAccount }

/-- The memory of the server once it has decoded the request. -/
def memory (posted : Posted) : List UInt8 :=
  (decrypt aes (some key) (posted.bytes aes key) (posted.bytes aes key).length).getD []

end Posted

/-- The replies to one request. Each is written over the one before it. -/
def replyBytes : List UInt8 → List MessageCs → List UInt8
  | _, [] => []
  | memory, reply :: replies =>
      let written := messageLayout.store reply memory
      sealedBytes aes key written ++ replyBytes written replies

/-- The server, and what it has written to each connection. -/
structure Network (Conn : Type u) where
  host : Host
  sent : Conn → List UInt8

namespace Network

variable {Conn : Type u} [DecidableEq Conn]

def step (net : Network Conn) : Arrival Conn → Network Conn
  | .request conn posted =>
      let handled := net.host.handle (posted.received aes key)
      { host := handled.2
        sent := Function.update net.sent conn
          (net.sent conn ++ replyBytes aes key (posted.memory aes key) handled.1.2) }
  | .heartbeat _ _ _ => net

variable {net : Network Conn} {arrivals : List (Arrival Conn)} {conn : Conn} {user : String}

end Network

end Packets

/-! Two readers, each of whom removes a shelf of his own. -/

end Bookshelfdq
