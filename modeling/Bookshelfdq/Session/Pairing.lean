import Bookshelfdq.Server.ShelfIntegrity
import Bookshelfdq.Session.Calls

/-! # Late replies

A receive that times out leaves the reply on its way, and the session goes on over
the same connection. The next call that reads at all then reads this reply. -/

namespace Bookshelfdq

/-! ## Numbers of replies -/

namespace Link

/-- A waiting reply bears the number of the request it answers. -/
structure Booked (link : Link) : Prop where
  counted : link.sent = link.exchanges.length
  answering : ∀ waiting ∈ link.inbox, ∃ exchange, link.exchanges[waiting.1]? = some exchange ∧
    waiting.2 ∈ exchange.1.replies exchange.2

theorem Booked.earlier {link : Link} (booked : link.Booked) :
    ∀ waiting ∈ link.inbox, waiting.1 < link.sent := by
  intro waiting member
  rcases booked.answering waiting member with ⟨exchange, found, _⟩
  rw [booked.counted]
  exact (List.getElem?_eq_some_iff.mp found).1

theorem Booked.send {link : Link} (booked : link.Booked) (msg : MessageCs) :
    (link.socketClientSendRequest msg).2.Booked := by
  rcases link.socketClientSendRequest_cases msg with ⟨_, sent⟩ | ⟨_, sent⟩
  · rw [sent]
    exact ⟨booked.counted, booked.answering⟩
  · rw [sent]
    refine ⟨by simp [posted, booked.counted], ?_⟩
    intro waiting member
    rcases List.mem_append.mp member with member | member
    · rcases booked.answering waiting member with ⟨exchange, found, reply⟩
      have bound := (List.getElem?_eq_some_iff.mp found).1
      refine ⟨exchange, ?_, reply⟩
      rw [posted, List.getElem?_append_left bound]
      exact found
    · rcases List.mem_map.mp member with ⟨reply, replied, rfl⟩
      refine ⟨(link.reached, msg), ?_, replied⟩
      rw [posted, booked.counted]
      exact List.getElem?_concat_length

theorem Booked.receive {link : Link} (booked : link.Booked) :
    link.socketClientGetResponse.2.Booked := by
  rcases link.socketClientGetResponse_cases with
    ⟨_, received⟩ | ⟨number, reply, rest, _, inbox, received⟩
  · rw [received]
    exact ⟨booked.counted, booked.answering⟩
  · rw [received]
    refine ⟨booked.counted, fun waiting member => booked.answering waiting ?_⟩
    rw [inbox]
    exact List.mem_cons_of_mem _ member

theorem Reaches.booked {before after : Link} (reaches : before.Reaches after)
    (booked : before.Booked) : after.Booked :=
  reaches.invariant (fun msg _ booked => booked.send msg) (fun _ booked => booked.receive) booked

/-! ## What is read -/

theorem Reaches.consumed {before after : Link} (reaches : before.Reaches after) :
    before.consumed <+: after.consumed := by
  apply reaches.invariant _ _ (List.prefix_refl _)
  · intro msg link grown
    rcases link.socketClientSendRequest_cases msg with ⟨_, sent⟩ | ⟨_, sent⟩ <;> rw [sent] <;>
      exact grown
  · intro link grown
    rcases link.socketClientGetResponse_cases with
      ⟨_, received⟩ | ⟨number, reply, rest, _, _, received⟩
    · rw [received]
      exact grown
    · rw [received]
      exact grown.trans (List.prefix_append _ _)

/-- Since `start` requests had been sent, with `read` as the numbers read by then, only
replies to later requests have come in. -/
structure Since (start : Nat) (read : List Nat) (link : Link) : Prop where
  sent : start ≤ link.sent
  waiting : ∀ waiting ∈ link.inbox, start ≤ waiting.1
  consumed : ∃ new, link.consumed = read ++ new ∧ ∀ number ∈ new, start ≤ number

theorem Since.send {start : Nat} {read : List Nat} {link : Link} (since : link.Since start read)
    (msg : MessageCs) : (link.socketClientSendRequest msg).2.Since start read := by
  rcases link.socketClientSendRequest_cases msg with ⟨_, sent⟩ | ⟨_, sent⟩
  · rw [sent]
    exact ⟨since.sent, since.waiting, since.consumed⟩
  · rw [sent]
    refine ⟨Nat.le_succ_of_le since.sent, ?_, since.consumed⟩
    intro reply member
    rcases List.mem_append.mp member with member | member
    · exact since.waiting reply member
    · rcases List.mem_map.mp member with ⟨plain, _, rfl⟩
      exact since.sent

theorem Since.receive {start : Nat} {read : List Nat} {link : Link}
    (since : link.Since start read) : link.socketClientGetResponse.2.Since start read := by
  rcases link.socketClientGetResponse_cases with
    ⟨_, received⟩ | ⟨number, reply, rest, _, inbox, received⟩
  · rw [received]
    exact ⟨since.sent, since.waiting, since.consumed⟩
  · rcases since with ⟨sent, waiting, new, appended, later⟩
    rw [inbox] at waiting
    rw [received]
    refine ⟨sent, fun reply member => waiting reply (List.mem_cons_of_mem _ member),
      new ++ [number], ?_, ?_⟩
    · rw [appended, List.append_assoc]
    · intro other member
      rcases List.mem_append.mp member with member | member
      · exact later other member
      · rw [List.mem_singleton.mp member]
        exact waiting (number, reply) List.mem_cons_self

theorem Reaches.since {start : Nat} {read : List Nat} {before after : Link}
    (reaches : before.Reaches after) (since : before.Since start read) : after.Since start read :=
  reaches.invariant (fun msg _ since => since.send msg) (fun _ since => since.receive) since

end Link

namespace ClientCall

/-- The call reads no reply to a request from before it. -/
def OwnReplies (fuel : Nat) (client : Client) (call : ClientCall) : Prop :=
  ∀ number ∈ (call.perform fuel client).link.consumed.drop client.link.consumed.length,
    client.link.sent ≤ number

/-- No reply is on its way when the call starts, or the call ends before it reads
one. -/
def NoneLate (client : Client) (_ : ClientCall) : Prop :=
  client.link.inbox = [] ∨ client.link.sendFails.headD false = true ∨
    client.link.delays.headD false = true

variable {fuel : Nat} {client : Client} {call : ClientCall}

theorem perform_reaches (fuel : Nat) (call : ClientCall) (client : Client) :
    client.link.Reaches (call.perform fuel client).link := by
  rcases call.perform_opens fuel client with ⟨msg, opens⟩
  exact opens.reaches

theorem ownReplies_of_empty (inbox : client.link.inbox = []) :
    call.OwnReplies fuel client := by
  have initial : client.link.Since client.link.sent client.link.consumed :=
    ⟨le_refl _, by simp [inbox], [], by simp, by simp⟩
  rcases ((call.perform_reaches fuel client).since initial).consumed with ⟨new, appended, later⟩
  rw [OwnReplies, appended, List.drop_left]
  exact later

theorem ownReplies_of_stopped (stopped : client.link.sendFails.headD false = true ∨
    client.link.delays.headD false = true) : call.OwnReplies fuel client := by
  have unread : (call.perform fuel client).link.consumed = client.link.consumed := by
    rcases call.perform_opens fuel client with ⟨msg, opens⟩
    rw [Client.Opens, Client.send] at opens
    rcases client.link.socketClientSendRequest_cases msg with ⟨_, sent⟩ | ⟨accepted, sent⟩
    · rw [sent] at opens
      rw [opens]
    · have delayed : client.link.delays.headD false = true := by
        rw [accepted] at stopped
        exact stopped.resolve_left Bool.false_ne_true
      rw [sent] at opens
      dsimp only at opens
      rw [Client.receive, Link.socketClientGetResponse] at opens
      simp only [Link.posted, delayed, if_true] at opens
      rw [opens]
  intro number member
  rw [unread, List.drop_length] at member
  cases member

theorem not_ownReplies_of_late (booked : client.link.Booked) {head : Nat × MessageCs}
    {rest : List (Nat × MessageCs)} (inbox : client.link.inbox = head :: rest)
    (accepted : client.link.sendFails.headD false = false)
    (prompt : client.link.delays.headD false = false) : ¬ call.OwnReplies fuel client := by
  intro own
  have read : client.link.consumed ++ [head.1] <+: (call.perform fuel client).link.consumed := by
    rcases call.perform_opens fuel client with ⟨msg, opens⟩
    rw [Client.Opens, Client.send] at opens
    rcases client.link.socketClientSendRequest_cases msg with ⟨fails, _⟩ | ⟨_, sent⟩
    · rw [accepted] at fails
      cases fails
    · rw [sent] at opens
      dsimp only at opens
      rw [Client.receive, Link.socketClientGetResponse] at opens
      simp only [Link.posted, prompt, inbox, List.cons_append, Bool.false_eq_true, if_false]
        at opens
      exact opens.consumed
  rcases read with ⟨later, appended⟩
  have earlier := booked.earlier head (inbox ▸ List.mem_cons_self)
  have late := own head.1 (by
    rw [← appended, List.append_assoc, List.drop_left]
    exact List.mem_cons_self)
  omega

theorem ownReplies_iff_noneLate (booked : client.link.Booked) :
    call.OwnReplies fuel client ↔ call.NoneLate client := by
  constructor
  · intro own
    cases inbox : client.link.inbox with
    | nil => exact .inl inbox
    | cons head rest =>
        apply Or.inr
        by_contra late
        rw [not_or, Bool.not_eq_true, Bool.not_eq_true] at late
        exact not_ownReplies_of_late booked inbox late.1 late.2 own
  · intro none
    rcases none with inbox | stopped
    · exact ownReplies_of_empty inbox
    · exact ownReplies_of_stopped stopped

/-- In a session, whatever is sent, fails or comes late, every call reads only replies
to its own requests exactly if no call starts to read while a reply to an earlier
request is on its way. -/
theorem own_replies_iff_none_late (fuel : Nat) (client : Client) (booked : client.link.Booked)
    (calls : List ClientCall) :
    Execution.Along (fun client call => call.perform fuel client)
        (fun client call => call.OwnReplies fuel client) client calls ↔
      Execution.Along (fun client call => call.perform fuel client)
        (fun client call => call.NoneLate client) client calls := by
  have preserved : ∀ (client : Client) (call : ClientCall), client.link.Booked →
      (call.perform fuel client).link.Booked := fun client call booked =>
    (call.perform_reaches fuel client).booked booked
  apply Execution.along_congr preserved _ booked
  intro client call booked
  exact ownReplies_iff_noneLate booked

instance (client : Client) (call : ClientCall) : Decidable (call.OwnReplies fuel client) :=
  inferInstanceAs (Decidable (∀ _ ∈ _, _))

instance (client : Client) (call : ClientCall) : Decidable (call.NoneLate client) :=
  inferInstanceAs (Decidable (_ ∨ _))

/-- A session over a connection with delays, to a database with failures. -/
def delayedClient (delays faults : List Bool) : Client :=
  let server := { Server.sample with db := { Server.sample.db with faults := faults } }
  let client := Client.connected server .empty .empty "reader"
  { client with link := { client.link with delays := delays } }

theorem delayedClient_booked (delays faults : List Bool) :
    (delayedClient delays faults).link.Booked :=
  ⟨rfl, by simp [delayedClient, Client.connected]⟩

/-- Two receives in a row time out; nothing is read. -/
theorem own_replies_in_silence :
    Execution.Along (fun client call => perform 0 call client)
      (fun client call => OwnReplies 0 client call) (delayedClient [false, true, true] [])
      [shelvesCountSync .zeroed 0, shelvesCountSync .zeroed 0, session (.deleteItself 1)] :=
  (own_replies_iff_none_late 0 _ (delayedClient_booked _ _) _).mpr (by decide)

/-- The reply to a count comes late. The removal that follows fails on the server, and
the client reads the late reply and reports success. -/
theorem late_reply_taken :
    let client := delayedClient [true] [false, false, true]
    let later := (shelvesCountSync .zeroed 0).perform 0 client
    let removal := (SessionRequest.deleteItself 1).message "reader"
    (client.clientShelvesCountSync .zeroed 0).1 = false ∧
      (later.link.reached.replies removal).map MessageCs.response = [.failed] ∧
      (later.findFromServer removal).1 = 1 ∧
      ¬ Execution.Along (fun client call => perform 0 call client)
        (fun client call => OwnReplies 0 client call) client
        [shelvesCountSync .zeroed 0, session (.deleteItself 1)] := by
  decide

end ClientCall

end Bookshelfdq
