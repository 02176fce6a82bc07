import Bookshelfdq.Session.BookPages

/-! # Sessions that share a server

Any number of sessions are logged in to one account. A call of a session sends one
request, and the server handles one request at a time, so that the calls of the sessions
follow one another in some order. Replies wait for the session they are for. -/

namespace Bookshelfdq

/-- The session finds the server as the others have left it. -/
def Client.facing (server : Server) (client : Client) : Client :=
  { client with link := { client.link with server := server } }

/-- Each session keeps the server as it was after its last call. -/
structure Fleet (Session : Type) where
  server : Server
  sessions : Session → Ncgui

namespace Fleet

variable {Session : Type}

/-- The sessions before their first visits. -/
def start (server : Server) (clients : Session → Client) : Fleet Session where
  server := server
  sessions := fun session => .start (clients session)

/-- A session with the server as it is now. -/
def seat (fleet : Fleet Session) (session : Session) : Ncgui :=
  (fleet.sessions session).withClient ((fleet.sessions session).client.facing fleet.server)

variable [DecidableEq Session]

def step (fuel : Nat) (fleet : Fleet Session) (input : Session × Ncgui.Input) : Fleet Session :=
  let after := (fleet.seat input.1).step fuel input.2
  { server := after.client.link.server
    sessions := Function.update fleet.sessions input.1 after }

/-- What holds of the server, and of every session whatever server it faces, is kept by a
step if the session that acts keeps it. -/
theorem step_keeps {ofServer : Server → Prop} {ofSession : Ncgui → Prop}
    (faces : ∀ gui server, ofSession gui → ofSession (gui.withClient (gui.client.facing server)))
    {fuel : Nat} {fleet : Fleet Session} {input : Session × Ncgui.Input}
    (server : ofServer fleet.server) (sessions : ∀ session, ofSession (fleet.sessions session))
    (keeps : ∀ gui : Ncgui, gui = fleet.seat input.1 → ofServer gui.client.link.server →
      ofSession gui → ofServer (gui.step fuel input.2).client.link.server ∧
        ofSession (gui.step fuel input.2)) :
    ofServer (fleet.step fuel input).server ∧
      ∀ session, ofSession ((fleet.step fuel input).sessions session) := by
  have kept := keeps (fleet.seat input.1) rfl server (faces _ _ (sessions input.1))
  refine ⟨kept.1, fun session => ?_⟩
  rw [step]
  dsimp only
  by_cases acts : session = input.1
  · rw [acts, Function.update_self]
    exact kept.2
  · rw [Function.update_of_ne acts]
    exact sessions session

end Fleet

end Bookshelfdq
