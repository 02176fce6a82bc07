import Bookshelfdq.Client.Requests
import Bookshelfdq.Server.AccountStore
import Bookshelfdq.Server.Isolation

/-! # Asking the server about an account

A server whose accounts others use as well, with the book of what has been recorded for them. -/

namespace Bookshelfdq

/-! ## Requests and replies -/

/-- The single reply to a request about accounts, if there is one, says that it was granted. -/
def granted (answer : Answer) : Bool :=
  answer.2.1.any fun reply => decide (reply.response = .success)

/-- How far a request and its reply get. -/
inductive Contact
  | unreached
  | unheard
  | heard
deriving DecidableEq

/-- A request about accounts over a new connection. -/
def Contact.ask (contact : Contact) (request : MessageCs) (server : Server) : Bool × Server :=
  match contact with
  | unreached => (false, server)
  | unheard => (false, (socketSrvHandle request server).2.2)
  | heard =>
      let answer := socketSrvHandle request server
      (granted answer, answer.2.2)

/-! ## The server and its book -/

/-- What a request leaves recorded of the accounts. -/
def AccountBook.handle (request : MessageCs) (server : Server) (book : AccountBook) :
    AccountBook :=
  if request.request = .registerAccount then
    book.register request.stuff.account
      (srvdbAccountRegister server.bcrypt (server.salts.headD none)
        { request with response := .success, errorText := "" } server.db).1
  else book

/-- A request for a new account names one that the program lets a user type. -/
def MessageCs.AdmitsAccount (request : MessageCs) : Prop :=
  request.request = .registerAccount → request.stuff.account.Admitted

/-- The server, and for each name the type it was registered with and the password set last. -/
structure BookedServer where
  server : Server
  book : AccountBook

namespace BookedServer

structure Kept (bcrypt : Bcrypt) (booked : BookedServer) : Prop where
  hashes : booked.server.bcrypt = bcrypt
  refines : List.Forall₂ (AccountRow.Holds bcrypt) booked.server.db.accounts booked.book.entries

def handle (request : MessageCs) (booked : BookedServer) : BookedServer where
  server := (socketSrvHandle request booked.server).2.2
  book := booked.book.handle request booked.server

/-- What the console of the server does to the accounts. -/
def call (call : AccountCall) (booked : BookedServer) : BookedServer :=
  let store := call.step booked.server.bcrypt ⟨booked.server.db, booked.book⟩
  ⟨booked.server.withDb store.db, store.book⟩

/-- What others do to the accounts. -/
inductive Meanwhile
  | request (msg : MessageCs)
  | console (call : AccountCall)

def Meanwhile.Admitted : Meanwhile → Prop
  | request msg => msg.AdmitsAccount
  | console call => call.Admitted

def meanwhile (booked : BookedServer) : Meanwhile → BookedServer
  | .request msg => booked.handle msg
  | .console call => booked.call call

/-- What the contact leaves of a request that is asked over it. -/
def hear (contact : Contact) (request : MessageCs) (booked : BookedServer) : BookedServer :=
  if contact = .unreached then booked else booked.handle request

variable {bcrypt : Bcrypt} {booked : BookedServer}

theorem Kept.handle (kept : booked.Kept bcrypt) (sound : bcrypt.Sound) {request : MessageCs}
    (admitted : request.AdmitsAccount) : (booked.handle request).Kept bcrypt := by
  refine ⟨(socketSrvHandle_bcrypt request booked.server).trans kept.hashes, ?_⟩
  have unchanged : request.request ≠ .registerAccount →
      (socketSrvHandle request booked.server).2.2.db.accounts = booked.server.db.accounts := by
    intro other
    by_cases verifies : request.request = .verifyAccount
    · exact socketSrvHandle_verify_accounts verifies booked.server
    · apply socketSrvHandle_accounts
      cases kind : request.request <;> simp_all [ClientRequest.asksAccounts]
  by_cases registers : request.request = .registerAccount
  · have registered := @register_refines _ _ _ kept.refines sound
      (booked.server.salts.headD none) { request with response := .success, errorText := "" }
      (admitted registers)
    rw [BookedServer.handle, AccountBook.handle, if_pos registers, kept.hashes]
    simp only [socketSrvHandle, registers]
    simp only [registers] at registered
    simpa [kept.hashes] using registered
  · rw [BookedServer.handle, AccountBook.handle, if_neg registers, unchanged registers]
    exact kept.refines

theorem Kept.hear (kept : booked.Kept bcrypt) (sound : bcrypt.Sound) {request : MessageCs}
    (admitted : request.AdmitsAccount) (contact : Contact) :
    (booked.hear contact request).Kept bcrypt := by
  rw [BookedServer.hear]
  split
  · exact kept
  · exact kept.handle sound admitted

theorem Kept.call (kept : booked.Kept bcrypt) (sound : bcrypt.Sound) {call : AccountCall}
    (admitted : call.Admitted) : (booked.call call).Kept bcrypt := by
  refine ⟨kept.hashes, ?_⟩
  have refines := AccountStore.step_refines sound ⟨booked.server.db, booked.book⟩ call kept.refines
    admitted
  rw [BookedServer.call, kept.hashes]
  exact refines

theorem Kept.meanwhile (kept : booked.Kept bcrypt) (sound : bcrypt.Sound) {event : Meanwhile}
    (admitted : event.Admitted) : (booked.meanwhile event).Kept bcrypt := by
  cases event with
  | request msg => exact kept.handle sound admitted
  | console call => exact kept.call sound admitted

end BookedServer

/-! ## What the server has granted -/

theorem granted_answer {server : Server} {result : Bool × MessageCs × Mysql}
    (grants : granted (server.answer result) = true) : result.1 = true := by
  cases succeeded : result.1 with
  | true => rfl
  | false =>
      rw [granted, Server.answer, succeeded, Server.send] at grants
      split at grants <;> cases grants

theorem verified_of_granted {request : MessageCs} {server : Server}
    (kind : request.request = .verifyAccount)
    (grants : granted (socketSrvHandle request server) = true) :
    (srvdbAccountVerify server.bcrypt { request with response := .success, errorText := "" }
      server.db).1 = true := by
  simp only [socketSrvHandle, kind] at grants
  simp only [kind]
  split at grants
  · exact absurd (granted_answer grants) Bool.false_ne_true
  · rename_i result
    rw [result]

section Verified

variable {bcrypt : Bcrypt} {msg : MessageCs} {db : Mysql}

/-- A verification, whatever fails, is no more than a look-up in the map. -/
theorem verified_lookup (sound : bcrypt.Sound) {book : AccountBook}
    (refines : List.Forall₂ (AccountRow.Holds bcrypt) db.accounts book.entries)
    (admitted : msg.stuff.account.Admitted)
    (verified : (srvdbAccountVerify bcrypt msg db).1 = true) :
    book.lookup msg.stuff.account.name =
      some (msg.stuff.account.type, msg.stuff.account.password) := by
  rcases srvdbAccountVerify_row bcrypt msg db verified with ⟨named, row⟩
  let calm := { db with faults := [] }
  have healthy : healthyFor 4 calm.faults = true := rfl
  have again := (srvdbAccountVerify_iff bcrypt msg calm named healthy).mpr row
  have calmly : List.Forall₂ (AccountRow.Holds bcrypt) calm.accounts book.entries := refines
  exact (verify_refines calmly sound admitted named healthy).mp again

end Verified

section Verifying

variable (account : AccountEntry) (initMode : Int)

@[simp] theorem clientVerifyAccountMsg_request :
    (clientVerifyAccountMsg account initMode).request = .verifyAccount := by
  rw [clientVerifyAccountMsg]
  split <;> rfl

@[simp] theorem clientVerifyAccountMsg_account :
    (clientVerifyAccountMsg account initMode).stuff.account = account := by
  rw [clientVerifyAccountMsg]
  split <;> rfl

variable {bcrypt : Bcrypt} {booked : BookedServer} {account}

/-- An account that is found to be right is in the book. -/
theorem BookedServer.Kept.lookup_of_ask (kept : booked.Kept bcrypt) (sound : bcrypt.Sound)
    (admitted : account.Admitted) {contact : Contact}
    (accepted : (contact.ask (clientVerifyAccountMsg account initMode) booked.server).1 = true) :
    booked.book.lookup account.name = some (account.type, account.password) := by
  cases contact with
  | unreached => cases accepted
  | unheard => cases accepted
  | heard =>
      have verified := verified_of_granted (clientVerifyAccountMsg_request account initMode) accepted
      rw [kept.hashes] at verified
      have found := verified_lookup sound kept.refines (by simpa using admitted) verified
      simpa using found

variable (account)

/-- To ask whether an account is right changes none. -/
theorem BookedServer.Kept.ask (kept : booked.Kept bcrypt) (contact : Contact) :
    (BookedServer.mk (contact.ask (clientVerifyAccountMsg account initMode) booked.server).2
      booked.book).Kept bcrypt := by
  have handled : (BookedServer.mk
      (socketSrvHandle (clientVerifyAccountMsg account initMode) booked.server).2.2
        booked.book).Kept bcrypt := by
    refine ⟨(socketSrvHandle_bcrypt _ _).trans kept.hashes, ?_⟩
    rw [socketSrvHandle_verify_accounts (clientVerifyAccountMsg_request account initMode)]
    exact kept.refines
  cases contact with
  | unreached => exact kept
  | unheard => exact handled
  | heard => exact handled

end Verifying

end Bookshelfdq
