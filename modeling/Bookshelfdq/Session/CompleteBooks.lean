import Bookshelfdq.Client.Mutations
import Bookshelfdq.Session.Calls

/-! # Complete books

`client_shelf_insert_book` refuses a book whose name, author and position have no bit in common. The
texts of a `book_entry_t` may be any bytes, and the first of each decides. -/

namespace Bookshelfdq

/-- A text as its bytes before the terminator. -/
structure ByteText where
  bytes : List UInt8
  unterminated : 0 ∉ bytes

namespace ByteText

/-- The first `char`, promoted. -/
def first (text : ByteText) : BitVec 32 := (text.bytes.headD 0).toBitVec.signExtend 32

end ByteText

/-- A `book_entry_t` whose name, author and `code[1]` are as the guard reads them. The other fields
are those of `rest`. -/
structure RawBook where
  name : ByteText
  author : ByteText
  position : BitVec 32
  rest : BookEntry

namespace RawBook

/-- `decode` stands for what the server makes of the bytes of a text. -/
def entry (decode : ByteText → String) (raw : RawBook) : BookEntry :=
  { raw.rest with
    name := decode raw.name
    author := decode raw.author
    floorno := raw.position.toInt }

def incomplete (raw : RawBook) : Bool :=
  raw.name.first &&& raw.author.first &&& raw.position == 0

/-- `client_shelf_insert_book` -/
def clientShelfInsert (decode : ByteText → String) (time : PlainText) (raw : RawBook)
    (client : Client) : Int × String × Client :=
  if raw.incomplete then (0, "书籍信息不完整", client)
  else
    match client.findFromServer (clientShelfInsertBookMsg client.loginUser time (raw.entry decode)) with
    | (res, reply, client) => (res, if res = 0 then reply.errorText else "", client)

/-- Name and author are not empty, and there is a position. -/
def Complete (raw : RawBook) : Prop :=
  raw.name.bytes ≠ [] ∧ raw.author.bytes ≠ [] ∧ raw.position ≠ 0

instance (raw : RawBook) : Decidable raw.Complete :=
  inferInstanceAs (Decidable (_ ≠ _ ∧ _ ≠ _ ∧ _ ≠ _))

/-- The three values have a bit in common. -/
def ShareBit (raw : RawBook) : Prop :=
  ∃ bit, raw.name.first.getLsbD bit = true ∧ raw.author.first.getLsbD bit = true ∧
    raw.position.getLsbD bit = true

end RawBook

/-- One request is sent, or fails to be sent, and no other is tried. -/
structure Client.SendsOnce (msg : MessageCs) (client after : Client) : Prop where
  exchanges : after.link.exchanges = client.link.exchanges ++
    if client.link.sendFails.headD false then [] else [(client.link.reached, msg)]
  sendFails : after.link.sendFails = client.link.sendFails.tail

/-- A complete book is sent, and another one is not. -/
structure RawBook.Guarded (decode : ByteText → String) (time : PlainText) (raw : RawBook)
    (client : Client) : Prop where
  sent : raw.Complete →
    (clientShelfInsertBookMsg client.loginUser time (raw.entry decode)).request = .insertBook ∧
      client.SendsOnce (clientShelfInsertBookMsg client.loginUser time (raw.entry decode))
        (raw.clientShelfInsert decode time client).2.2
  refused : ¬raw.Complete → (raw.clientShelfInsert decode time client).1 = 0 ∧
    (raw.clientShelfInsert decode time client).2.2 = client

/-! ## Requests sent -/

namespace Client

theorem findLoop_sends (flagNotCached : Bool) (fuel nfinds : Nat) (msg : MessageCs)
    (client : Client) :
    (client.findLoop flagNotCached fuel nfinds msg).2.2.link.exchanges = client.link.exchanges ∧
      (client.findLoop flagNotCached fuel nfinds msg).2.2.link.sendFails =
        client.link.sendFails := by
  induction fuel generalizing nfinds msg client with
  | zero => exact ⟨rfl, rfl⟩
  | succ fuel induction =>
      have kept : client.receive.2.link.exchanges = client.link.exchanges ∧
          client.receive.2.link.sendFails = client.link.sendFails := by
        rw [receive]
        rcases client.link.socketClientGetResponse_cases with
          ⟨_, none⟩ | ⟨number, reply, rest, _, _, some⟩
        · rw [none]
          exact ⟨rfl, rfl⟩
        · rw [some]
          exact ⟨rfl, rfl⟩
      rw [findLoop]
      generalize client.receive = received at kept ⊢
      rcases received with ⟨_ | reply, after⟩
      · exact kept
      · dsimp only at kept ⊢
        cases reply.response with
        | failed => exact kept
        | findEnd => exact kept
        | findEndMore => exact kept
        | success =>
            dsimp only
            split
            · have later := induction (nfinds + 1) reply
                (if flagNotCached then after else after.cacheBook reply.stuff.book)
              rw [later.1, later.2]
              cases flagNotCached <;> exact kept
            · exact kept

theorem findFromServer_sendsOnce (msg : MessageCs) (client : Client) :
    client.SendsOnce msg (client.findFromServer msg).2.2 := by
  rw [findFromServer, send]
  rcases client.link.socketClientSendRequest_cases msg with ⟨fails, sent⟩ | ⟨succeeds, sent⟩
  · rw [sent]
    refine ⟨?_, rfl⟩
    rw [fails, if_pos rfl]
    exact (List.append_nil _).symm
  · rw [sent]
    dsimp only
    rcases findLoop_sends (msg.request == .findBook && msg.stuff.book.bookno == breakLimitInt)
      (({ client.link.posted msg with sendFails := client.link.sendFails.tail } : Link).inbox.length
        + 1) 0 msg { client with link :=
          { client.link.posted msg with sendFails := client.link.sendFails.tail } } with
      ⟨exchanges, sendFails⟩
    refine ⟨?_, sendFails⟩
    rw [exchanges, succeeds, if_neg Bool.false_ne_true]
    rfl

/-- A client that has sent nothing has not sent one request. -/
theorem not_sendsOnce_self (msg : MessageCs) (client : Client) : ¬client.SendsOnce msg client := by
  intro once
  rcases once with ⟨exchanges, sendFails⟩
  cases fails : client.link.sendFails with
  | nil =>
      rw [fails, List.headD_nil, if_neg Bool.false_ne_true] at exchanges
      exact List.cons_ne_nil _ _ (List.append_right_eq_self.mp exchanges.symm)
  | cons fail rest =>
      rw [fails, List.tail_cons] at sendFails
      exact List.cons_ne_self fail rest sendFails

end Client

/-! ## The guard -/

theorem getLsbD_zero_int (bit : Nat) : (0 : BitVec 32).getLsbD bit = false := BitVec.getLsbD_zero

namespace RawBook

variable (raw : RawBook)

theorem incomplete_eq_false_iff : raw.incomplete = false ↔ raw.ShareBit := by
  have bits : ∀ bit, (raw.name.first &&& raw.author.first &&& raw.position).getLsbD bit = true ↔
      raw.name.first.getLsbD bit = true ∧ raw.author.first.getLsbD bit = true ∧
        raw.position.getLsbD bit = true := by
    intro bit
    rw [BitVec.getLsbD_and, BitVec.getLsbD_and, Bool.and_eq_true, Bool.and_eq_true, and_assoc]
  rw [incomplete, beq_eq_false_iff_ne]
  constructor
  · intro nonzero
    by_contra none
    apply nonzero
    apply BitVec.eq_of_getLsbD_eq
    intro bit _
    rw [getLsbD_zero_int]
    apply Bool.eq_false_iff.mpr
    intro set
    exact none ⟨bit, (bits bit).mp set⟩
  · rintro ⟨bit, set⟩ zero
    have clear : (0 : BitVec 32).getLsbD bit = true := zero ▸ (bits bit).mpr set
    exact Bool.false_ne_true ((getLsbD_zero_int _).symm.trans clear)

variable {raw}

theorem ShareBit.complete (share : raw.ShareBit) : raw.Complete := by
  rcases share with ⟨bit, name, author, position⟩
  have empty : ∀ text : ByteText, text.first.getLsbD bit = true → text.bytes ≠ [] := by
    intro text set none
    rw [ByteText.first, none] at set
    exact Bool.false_ne_true ((getLsbD_zero_int _).symm.trans set)
  refine ⟨empty _ name, empty _ author, ?_⟩
  intro none
  rw [none] at position
  exact Bool.false_ne_true ((getLsbD_zero_int _).symm.trans position)

theorem clientShelfInsert_of_apart (apart : ¬raw.ShareBit) (decode : ByteText → String)
    (time : PlainText) (client : Client) :
    raw.clientShelfInsert decode time client = (0, "书籍信息不完整", client) := by
  have refuses : raw.incomplete = true := by
    rw [← Bool.not_eq_false, raw.incomplete_eq_false_iff]
    exact apart
  rw [clientShelfInsert, if_pos refuses]

/-- A complete book is sent and another one refused exactly when the first bytes of its name and
author and its position, if it is complete, have a bit in common. -/
theorem guarded_iff (decode : ByteText → String) (time : PlainText) (raw : RawBook)
    (client : Client) : raw.Guarded decode time client ↔ (raw.Complete → raw.ShareBit) := by
  cases refuses : raw.incomplete with
  | true =>
      have apart : ¬raw.ShareBit := by
        intro share
        rw [raw.incomplete_eq_false_iff.mpr share] at refuses
        exact Bool.false_ne_true refuses
      have returned := clientShelfInsert_of_apart apart decode time client
      constructor
      · intro guarded complete
        have once := (guarded.sent complete).2
        rw [returned] at once
        exact absurd once (Client.not_sendsOnce_self _ _)
      · intro shares
        refine ⟨fun complete => absurd (shares complete) apart, fun _ => ?_⟩
        rw [returned]
        exact ⟨rfl, rfl⟩
  | false =>
      have share := raw.incomplete_eq_false_iff.mp refuses
      have returned : (raw.clientShelfInsert decode time client).2.2 = (client.findFromServer
          (clientShelfInsertBookMsg client.loginUser time (raw.entry decode))).2.2 := by
        rw [clientShelfInsert, refuses]
        rfl
      constructor
      · exact fun _ _ => share
      · intro _
        refine ⟨fun _ => ⟨rfl, ?_⟩, fun notComplete => absurd share.complete notComplete⟩
        rw [returned]
        exact Client.findFromServer_sendsOnce _ _

/-- The book "a" of an author "b" on the first row of the first floor. -/
def lostBook : RawBook where
  name := ⟨[0x61], by decide⟩
  author := ⟨[0x62], by decide⟩
  position := 17
  rest := BookEntry.zeroed

/-- It is complete, and is refused without a request. -/
theorem complete_book_refused :
    lostBook.Complete ∧ ¬lostBook.Guarded (fun _ => "") .empty
      (Client.connected (Server.fresh .strict (fun left right => left == right) []
        ⟨fun _ _ => none, fun _ _ => -1⟩ [] []) .empty .empty "reader") := by
  have complete : lostBook.Complete := by decide
  have apart : ¬lostBook.ShareBit := by
    rw [← incomplete_eq_false_iff]
    decide
  refine ⟨complete, fun guarded => ?_⟩
  have once := (guarded.sent complete).2
  rw [clientShelfInsert_of_apart apart] at once
  exact Client.not_sendsOnce_self _ _ once

/-! ## Texts in UTF-8 -/

theorem first_eq_firstByte {text : ByteText} {decoded : String}
    (utf8 : text.bytes = decoded.toList.flatMap String.utf8EncodeChar) :
    text.first = firstByte decoded := by
  rw [ByteText.first, firstByte, utf8]
  cases decoded.toList with
  | nil => rfl
  | cons character rest =>
      rw [List.flatMap_cons]
      cases encoded : String.utf8EncodeChar character with
      | nil =>
          have size := String.length_utf8EncodeChar character
          rw [encoded] at size
          exact absurd size.symm character.utf8Size_pos.ne'
      | cons byte bytes =>
          dsimp only
          rw [encoded]
          rfl

/-- On texts in UTF-8 it is the call of the page of a new book. -/
theorem clientShelfInsert_eq (decode : ByteText → String) (time : PlainText) (raw : RawBook)
    (client : Client)
    (name : raw.name.bytes = (decode raw.name).toList.flatMap String.utf8EncodeChar)
    (author : raw.author.bytes = (decode raw.author).toList.flatMap String.utf8EncodeChar) :
    let called := client.clientShelfInsertBook time (raw.entry decode)
    raw.clientShelfInsert decode time client = (called.1, called.2.2.1, called.2.2.2) := by
  have same : incompleteBook (raw.entry decode) = raw.incomplete := by
    rw [incompleteBook, incomplete, first_eq_firstByte name, first_eq_firstByte author]
    rw [entry, BitVec.ofInt_toInt]
  intro called
  change _ = ((client.clientShelfInsertBook time (raw.entry decode)).1,
    (client.clientShelfInsertBook time (raw.entry decode)).2.2.1,
    (client.clientShelfInsertBook time (raw.entry decode)).2.2.2)
  rw [Client.clientShelfInsertBook, clientShelfInsert, same]
  cases raw.incomplete with
  | true => rfl
  | false => rfl

end RawBook

end Bookshelfdq
