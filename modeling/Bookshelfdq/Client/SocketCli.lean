import Bookshelfdq.Server.Replies

/-! # The client's connection

`socket_client_send_request` and `socket_client_get_response` over an ordered
connection. The server answers a request when it arrives; its replies then wait in
`inbox`. A receive gives up after `SOCKET_RECV_TIMEOUT`, when nothing is there or
when what is there comes too late. -/

namespace Bookshelfdq

/-- `others` are the requests of other sessions that the server handles before each
request of this one to come, `sendFails` and `delays` the outcomes of the sends and
receives to come. Three fields only keep the books: a reply in `inbox` bears the
number of the request it answers, `sent` counts requests, `exchanges` lists them
with the server that handled them, and `consumed` the numbers of the replies read. -/
structure Link where
  server : Server
  others : List (List MessageCs)
  sendFails : List Bool
  delays : List Bool
  inbox : List (Nat × MessageCs)
  sent : Nat
  exchanges : List (Server × MessageCs)
  consumed : List Nat

namespace Link

/-- The server when the next request of this session reaches it. -/
def reached (link : Link) : Server :=
  Execution.run Server.step link.server (link.others.headD [])

def socketClientSendRequest (msg : MessageCs) (link : Link) : Bool × Link :=
  if link.sendFails.headD false then (false, { link with sendFails := link.sendFails.tail })
  else
    let answer := socketSrvHandle msg link.reached
    (true, { link with
      server := answer.2.2
      others := link.others.tail
      sendFails := link.sendFails.tail
      inbox := link.inbox ++ answer.2.1.map fun reply => (link.sent, reply)
      sent := link.sent + 1
      exchanges := link.exchanges ++ [(link.reached, msg)] })

def socketClientGetResponse (link : Link) : Option MessageCs × Link :=
  let waited := { link with delays := link.delays.tail }
  if link.delays.headD false then (none, waited)
  else match link.inbox with
    | [] => (none, waited)
    | (number, reply) :: inbox =>
        (some reply, { waited with inbox := inbox, consumed := link.consumed ++ [number] })

/-- The connection after a request has gone out. -/
def posted (msg : MessageCs) (link : Link) : Link :=
  { link with
    server := link.reached.step msg
    others := link.others.tail
    inbox := link.inbox ++ (link.reached.replies msg).map fun reply => (link.sent, reply)
    sent := link.sent + 1
    exchanges := link.exchanges ++ [(link.reached, msg)] }

/-- What a send can do. -/
theorem socketClientSendRequest_cases (msg : MessageCs) (link : Link) :
    (link.sendFails.headD false = true ∧ link.socketClientSendRequest msg =
      (false, { link with sendFails := link.sendFails.tail })) ∨
    (link.sendFails.headD false = false ∧ link.socketClientSendRequest msg =
      (true, { link.posted msg with sendFails := link.sendFails.tail })) := by
  rw [socketClientSendRequest]
  cases link.sendFails.headD false with
  | true => exact .inl ⟨rfl, rfl⟩
  | false => exact .inr ⟨rfl, rfl⟩

/-- What a receive can do. -/
theorem socketClientGetResponse_cases (link : Link) :
    ((link.delays.headD false = true ∨ link.inbox = []) ∧ link.socketClientGetResponse =
      (none, { link with delays := link.delays.tail })) ∨
    (∃ number reply rest, link.delays.headD false = false ∧
      link.inbox = (number, reply) :: rest ∧ link.socketClientGetResponse =
        (some reply, { link with
          delays := link.delays.tail
          inbox := rest
          consumed := link.consumed ++ [number] })) := by
  rcases link with ⟨server, others, sendFails, delays, inbox, sent, exchanges, consumed⟩
  rw [socketClientGetResponse]
  cases delayed : delays.headD false with
  | true => exact .inl ⟨.inl rfl, rfl⟩
  | false =>
      rcases inbox with _ | ⟨⟨number, reply⟩, rest⟩
      · exact .inl ⟨.inr rfl, rfl⟩
      · exact .inr ⟨number, reply, rest, rfl, rfl, rfl⟩

theorem socketClientSendRequest_of_sendFails {link : Link} (sendFails : link.sendFails = [])
    (msg : MessageCs) : link.socketClientSendRequest msg = (true, link.posted msg) := by
  rcases link with ⟨server, others, sendFails, delays, inbox, sent, exchanges, consumed⟩
  dsimp only at sendFails
  subst sendFails
  rfl

theorem reached_of_others {link : Link} (others : link.others = []) :
    link.reached = link.server := by
  rw [reached, others]
  rfl

end Link

end Bookshelfdq
