import Bookshelfdq.Session.Descriptions
import Bookshelfdq.Session.Exclusion

/-! # Older copies

A session acts on the copy of a book that is in its cache, and the row may have changed
since. The server goes by the number alone: it writes the copy over whatever row bears it. -/

namespace Bookshelfdq

/-! ## Writing over a row -/

/-- The archive with the row of one number changed. -/
def Archive.rewriteBook (bookno : Int) (change : BookRow → BookRow) (archive : Archive) : Archive :=
  { archive with books := archive.books.map fun row =>
      if row.bookno == bookno then change row else row }

/-- A row after an entry has been written over it, where the database takes the entry. -/
def BookEntry.overlay (mode : SqlMode) (sent : BookEntry) (row : BookRow) : BookRow :=
  if sent.wellFormed then (sent.row mode row.bookno).getD row else row

/-- The row that is listed as the entry. -/
def BookEntry.original (book : BookEntry) : BookRow where
  shelfno := book.shelfno
  floorno := book.floorno
  bookno := book.bookno
  name := book.name
  author := book.author
  label := book.label
  borrowed := book.borrowed
  onReading := book.onReading
  cleaned := .avl
  encodingTime := book.encodingTime

/-- The row has not been deleted, and is the book of the copy and no other. -/
def BookRow.Holds (copy : BookEntry) (row : BookRow) : Prop :=
  row.cleaned ≠ .del ∧ row.name = copy.name ∧ row.encodingTime = copy.encodingTime

theorem Archive.rewriteBook_id (bookno : Int) (archive : Archive) :
    archive.rewriteBook bookno id = archive := by
  simp [rewriteBook]

theorem BookEntry.overlay_bookno (mode : SqlMode) (sent : BookEntry) (row : BookRow) :
    (sent.overlay mode row).bookno = row.bookno := by
  rw [overlay]
  split
  · cases written : sent.row mode row.bookno with
    | none => rfl
    | some changed => exact (row_eq_some written).1
  · rfl

/-- An entry that fits is written as it is, with a label that fits. -/
theorem BookEntry.row_of_fits {mode : SqlMode} {sent : BookEntry} {bookno : Int} {later : BookRow}
    (name : sent.name.length ≤ 200) (author : sent.author.length ≤ 70)
    (written : sent.row mode bookno = some later) :
    ∃ label, mode.store 200 sent.label = some label ∧
      later = { sent.original with bookno := bookno, label := label } := by
  rw [row, SqlMode.store_of_fits name, SqlMode.store_of_fits author] at written
  rcases Option.map_eq_some_iff.mp written with ⟨label, stored, rfl⟩
  exact ⟨label, stored, rfl⟩

/-- A statement has its effect on a healthy database, or none if it is rejected. -/
theorem execute_archive (msg : MessageCs) {db : Mysql} (healthy : db.faults = [])
    (statement : Mysql → Option Mysql) :
    (execute msg statement db).2.archive =
      if msg.user = "" then db.archive else ((statement db).map Mysql.archive).getD db.archive := by
  rw [execute]
  split
  · rfl
  · rw [mysqlQuery, Mysql.nextFault_of_faultless healthy, if_neg Bool.false_ne_true,
      Mysql.advance_of_faultless healthy]
    cases statement db with
    | none => rfl
    | some after => rfl

theorem srvdbBookDelete_archive {msg : MessageCs} {db : Mysql} (healthy : db.faults = [])
    (single : msg.stuff.book.namesShelf = false) :
    (srvdbBookDelete msg db).2.archive = if msg.user = "" then db.archive
      else db.archive.rewriteBook msg.stuff.book.bookno (BookRow.clean .del) := by
  rw [srvdbBookDelete, single, execute_archive msg healthy, updateBooks, Table.update_total]
  rfl

theorem srvdbBookUpdate_archive {msg : MessageCs} {db : Mysql} (healthy : db.faults = [])
    (single : msg.stuff.book.namesShelf = false) :
    (srvdbBookUpdate msg db).2.archive = if msg.user = "" then db.archive
      else db.archive.rewriteBook msg.stuff.book.bookno (msg.stuff.book.overlay db.mode) := by
  rw [srvdbBookUpdate, single, if_neg Bool.false_ne_true, execute_archive msg healthy,
    Archive.rewriteBook]
  by_cases formed : msg.stuff.book.wellFormed = true
  · have written := Table.update_alike (fun row (chosen : (row.bookno == msg.stuff.book.bookno) =
      true) => congrArg (msg.stuff.book.row db.mode) (beq_iff_eq.mp chosen)) db.archive.books
    have rows : (db.archive.books.map fun row => if row.bookno == msg.stuff.book.bookno then
        msg.stuff.book.overlay db.mode row else row) =
        (Table.update (fun row => row.bookno == msg.stuff.book.bookno)
          (fun row => msg.stuff.book.row db.mode row.bookno) db.archive.books).getD
            db.archive.books := by
      rw [written]
      apply List.map_congr_left
      intro row _
      by_cases chosen : (row.bookno == msg.stuff.book.bookno) = true
      · rw [if_pos chosen, if_pos chosen, BookEntry.overlay, if_pos formed, beq_iff_eq.mp chosen]
      · rw [if_neg chosen, if_neg chosen]
    rw [if_pos formed, updateBooks, rows]
    cases Table.update _ _ db.archive.books with
    | none => rfl
    | some books => rfl
  · simp only [if_neg formed, BookEntry.overlay, ite_self, List.map_id', Option.map_none,
      Option.getD_none]

namespace Server

variable {server : Server} (healthy : server.db.faults = []) (loginUser : String)

include healthy

theorem step_delete_archive (book : BookEntry) :
    (server.step (clientShelfDeleteBookMsg loginUser book)).db.archive =
      if loginUser = "" then server.db.archive
      else server.db.archive.rewriteBook book.bookno (BookRow.clean .del) := by
  rw [@step_of_archiveRequest server _ (.bookDelete (clientShelfDeleteBookMsg loginUser book)) rfl]
  exact srvdbBookDelete_archive healthy (Bool.and_false _)

theorem step_update_archive {sent : BookEntry} (numbered : sent.bookno ≠ nonSenseInt) :
    (server.step (clientShelfTaggingBookMsg loginUser sent)).db.archive =
      if loginUser = "" then server.db.archive
      else server.db.archive.rewriteBook sent.bookno (sent.overlay server.db.mode) := by
  have single : sent.namesShelf = false := by
    rw [BookEntry.namesShelf, beq_eq_false_iff_ne.mpr numbered, Bool.false_and]
  rw [@step_of_archiveRequest server _ (.bookUpdate (clientShelfTaggingBookMsg loginUser sent)) rfl]
  exact srvdbBookUpdate_archive healthy single

end Server

/-! ## The request of an action -/

namespace Client

theorem receive_server (client : Client) :
    client.receive.2.link.server = client.link.server := by
  rw [receive]
  rcases client.link.socketClientGetResponse_cases with ⟨_, got⟩ | ⟨_, _, _, _, _, got⟩
  · rw [got]
  · rw [got]

theorem findLoop_server (flagNotCached : Bool) (fuel nfinds : Nat) (msg : MessageCs)
    (client : Client) :
    (client.findLoop flagNotCached fuel nfinds msg).2.2.link.server = client.link.server := by
  induction fuel generalizing nfinds msg client with
  | zero => rfl
  | succ fuel induction =>
      have received := client.receive_server
      rw [findLoop]
      generalize client.receive = result at received ⊢
      rcases result with ⟨_ | reply, after⟩
      · exact received
      · dsimp only at received ⊢
        cases reply.response with
        | failed => exact received
        | findEnd => exact received
        | findEndMore => exact received
        | success =>
            dsimp only
            split
            · split
              · exact (induction _ _ after).trans received
              · exact (induction _ _ (after.cacheBook reply.stuff.book)).trans received
            · exact received

/-- A call has the effect of its request, whatever replies it reads. -/
theorem findFromServer_server {client : Client} (alone : client.link.others = [])
    (msg : MessageCs) :
    (client.findFromServer msg).2.2.link.server =
      if client.link.sendFails.headD false = true then client.link.server
      else client.link.server.step msg := by
  rw [findFromServer, send]
  rcases client.link.socketClientSendRequest_cases msg with ⟨fails, sent⟩ | ⟨works, sent⟩
  · rw [sent, if_pos fails]
  · rw [sent, works, if_neg Bool.false_ne_true, ← Link.reached_of_others alone]
    exact findLoop_server _ _ _ _ _

end Client

namespace Ncgui

/-- What an action makes of a row that bears the number of the copy. -/
def BookAction.outcome (mode : SqlMode) (localShelfno : Int) (copy : BookEntry) :
    Bool → BookAction → BookRow → BookRow
  | false, .delete, row => if copy.encodingTime = .empty then row else row.clean .del
  | bcollect, action, row =>
      match BookAction.stores localShelfno copy bcollect action with
      | some (sent, _) => sent.overlay mode row
      | none => row

theorem BookAction.stores_bookno {localShelfno : Int} {copy sent written : BookEntry}
    {bcollect : Bool} {action : BookAction}
    (stored : stores localShelfno copy bcollect action = some (sent, written)) :
    sent.bookno = copy.bookno := by
  rcases stores_cases stored with ⟨floorno, _, _, rfl, _⟩ | ⟨label, _, _, rfl, _⟩ |
    ⟨_, _, _, rfl, _⟩ | ⟨_, _, rfl, _⟩
  · rfl
  · rfl
  · rfl
  · rcases movedBook_flags copy 1 with ⟨borrowed, onReading, moved⟩
    rw [moved]

section

variable (mode : SqlMode) {localShelfno : Int} {copy : BookEntry} {bcollect : Bool}
  {action : BookAction}

theorem BookAction.outcome_of_stores {sent written : BookEntry}
    (stored : stores localShelfno copy bcollect action = some (sent, written)) :
    outcome mode localShelfno copy bcollect action = sent.overlay mode := by
  funext row
  rw [outcome.eq_def]
  split
  · cases stored
  · rw [stored]

theorem BookAction.outcome_of_idle (idle : stores localShelfno copy bcollect action = none)
    (deleted : bcollect = false → action = .delete → copy.encodingTime = .empty) :
    outcome mode localShelfno copy bcollect action = id := by
  funext row
  rw [outcome.eq_def]
  split
  · rw [if_pos (deleted rfl rfl)]
    rfl
  · rw [idle]
    rfl

end

theorem BookAction.outcome_bookno (mode : SqlMode) (localShelfno : Int) (copy : BookEntry)
    (bcollect : Bool) (action : BookAction) (row : BookRow) :
    (outcome mode localShelfno copy bcollect action row).bookno = row.bookno := by
  rw [outcome.eq_def]
  split
  · split <;> rfl
  · split
    · exact BookEntry.overlay_bookno _ _ row
    · rfl

theorem update_link (msg : MessageCs) (written : MessageCs → BookEntry) (position : Nat)
    (client : Client) :
    (update msg written position client).2.link = (client.findFromServer msg).2.2.link := by
  rw [update]
  dsimp only
  split <;> rfl

theorem clientShelfDeleteBook_link (book : BookEntry) (position : Nat) (client : Client) :
    (clientShelfDeleteBook book position client).2.link =
      (client.findFromServer (clientShelfDeleteBookMsg client.loginUser book)).2.2.link := by
  rw [clientShelfDeleteBook]
  dsimp only
  split <;> rfl

/-- An action has one effect, whatever the row of the copy's number holds. -/
theorem act_archive {client : Client} (alone : client.link.others = [])
    (healthy : client.link.server.db.faults = []) {copy : BookEntry}
    (numbered : copy.bookno ≠ nonSenseInt) (action : BookAction) (bcollect : Bool)
    (localShelfno : Int) (position : Nat) :
    (act action bcollect localShelfno copy position client).2.link.server.db.archive =
      if client.link.sendFails.headD false = true ∨ client.loginUser = "" then
        client.link.server.db.archive
      else client.link.server.db.archive.rewriteBook copy.bookno
        (BookAction.outcome client.link.server.db.mode localShelfno copy bcollect action) := by
  rcases act_request action bcollect localShelfno copy position client with
    ⟨idle, none, deleted⟩ | ⟨rfl, rfl, stands, acted⟩ | ⟨sent, written, leaves, stored, _, acted⟩
  · rw [idle, BookAction.outcome_of_idle _ none deleted, Archive.rewriteBook_id, ite_self]
  · have outcome : BookAction.outcome client.link.server.db.mode localShelfno copy false .delete =
        BookRow.clean .del := by
      funext row
      exact if_neg stands
    rw [acted, clientShelfDeleteBook_link, Client.findFromServer_server alone, outcome, ite_or,
      apply_ite Server.db, apply_ite Mysql.archive,
      Server.step_delete_archive healthy client.loginUser copy]
  · have number := BookAction.stores_bookno stored
    rw [← number] at numbered
    rw [acted, update_link, Client.findFromServer_server alone,
      BookAction.outcome_of_stores _ stored, ite_or, apply_ite Server.db, apply_ite Mysql.archive,
      Server.step_update_archive healthy client.loginUser numbered, number]

/-! ## What an action is for -/

/-- A row without what the action is for. -/
def BookAction.apart : BookAction → BookRow → BookRow
  | .tagging _, row => { row with label := "" }
  | .reading, row => row.description
  | .borrow, row => row.description
  | .collect _, row =>
      { row with shelfno := nonSenseInt, floorno := nonSenseInt, cleaned := .avl }
  | .delete, row => { row with cleaned := .avl }

/-- The row still is the book of the copy, and agrees with it but for what the action is
for. -/
def BookAction.Current (copy : BookEntry) (row : BookRow) : BookAction → Prop
  | .delete => row.Holds copy
  | action => row.Holds copy ∧ action.apart row = action.apart copy.original

theorem BookAction.Current.holds {copy : BookEntry} {row : BookRow} {action : BookAction}
    (current : action.Current copy row) : row.Holds copy := by
  cases action with
  | delete => exact current
  | _ => exact current.1

theorem BookAction.Current.agrees {copy : BookEntry} {row : BookRow} {action : BookAction}
    (current : action.Current copy row) (update : action ≠ .delete) :
    action.apart row = action.apart copy.original := by
  cases action with
  | delete => exact absurd rfl update
  | _ => exact current.2

theorem overlay_apart {mode : SqlMode} {sent : BookEntry} {row : BookRow} {action : BookAction}
    (writes : ∀ later, sent.row mode row.bookno = some later → action.apart later = action.apart row) :
    action.apart (sent.overlay mode row) = action.apart row := by
  rw [BookEntry.overlay]
  split
  · cases written : sent.row mode row.bookno with
    | none => rfl
    | some later => exact writes later written
  · rfl

theorem apart_original {copy : BookEntry} {row : BookRow} {action : BookAction}
    (update : action ≠ .delete) (same : action.apart row = action.apart copy.original) :
    row.bookno = copy.bookno ∧ row.author = copy.author ∧
      ((∀ label, action ≠ .tagging label) → row.label = copy.label) := by
  cases action with
  | delete => exact absurd rfl update
  | tagging label =>
      exact ⟨congrArg BookRow.bookno same, congrArg BookRow.author same,
        fun other => absurd rfl (other label)⟩
  | _ =>
      exact ⟨congrArg BookRow.bookno same, congrArg BookRow.author same,
        fun _ => congrArg BookRow.label same⟩

/-- What an action sends differs from the copy in what it is for. -/
theorem BookAction.stores_apart {localShelfno : Int} {copy sent written : BookEntry}
    {bcollect : Bool} {action : BookAction}
    (stored : stores localShelfno copy bcollect action = some (sent, written)) :
    action ≠ .delete ∧ sent.name = copy.name ∧ sent.author = copy.author ∧
      ((∀ label, action ≠ .tagging label) → sent.label = copy.label) ∧
      action.apart sent.original = action.apart copy.original := by
  rcases stores_cases stored with ⟨floorno, _, rfl, rfl, _⟩ | ⟨label, _, rfl, rfl, _⟩ |
    ⟨_, rfl, _, rfl, _⟩ | ⟨_, rfl, rfl, _⟩
  · exact ⟨BookAction.noConfusion, rfl, rfl, fun _ => rfl, rfl⟩
  · exact ⟨BookAction.noConfusion, rfl, rfl, fun other => absurd rfl (other label), rfl⟩
  · exact ⟨BookAction.noConfusion, rfl, rfl, fun _ => rfl, rfl⟩
  · rcases movedBook_flags copy 1 with ⟨borrowed, onReading, moved⟩
    rw [moved]
    exact ⟨BookAction.noConfusion, rfl, rfl, fun _ => rfl, rfl⟩

/-- An action on a copy that is current changes nothing but what it is for. -/
theorem BookAction.outcome_apart {mode : SqlMode} {localShelfno : Int} {copy : BookEntry}
    {bcollect : Bool} {action : BookAction} {row : BookRow} (fits : row.Fits)
    (current : action.Current copy row) :
    action.apart (outcome mode localShelfno copy bcollect action row) = action.apart row := by
  rw [outcome.eq_def]
  split
  · split <;> rfl
  · split
    case h_2 => rfl
    case h_1 sent written stored =>
      rcases stores_apart stored with ⟨update, name, author, label, sends⟩
      have same := current.agrees update
      rcases apart_original update same with ⟨number, rowAuthor, rowLabel⟩
      apply overlay_apart
      intro later becomes
      rcases BookEntry.row_of_fits (by rw [name, ← current.holds.2.1]; exact fits.name)
        (by rw [author, ← rowAuthor]; exact fits.author) becomes with ⟨text, stores, rfl⟩
      rw [number, ← stores_bookno stored, same, ← sends]
      by_cases tags : ∃ label, action = .tagging label
      · rcases tags with ⟨label, rfl⟩
        rfl
      · have other : ∀ label, action ≠ .tagging label := fun label same => tags ⟨label, same⟩
        rw [label other, ← rowLabel other, SqlMode.store_of_fits fits.label] at stores
        rw [← Option.some.inj stores, rowLabel other, ← label other]
        rfl

end Ncgui

/-! ## Whole runs -/

namespace Client

theorem findFromServer_reaches (msg : MessageCs) (client : Client) :
    client.link.Reaches (client.findFromServer msg).2.2.link :=
  (client.findFromServer_opens msg).reaches

theorem nextPageBookinfo_reaches (search : Option BookEntry) (shelfno bookno stale : Int)
    (client : Client) :
    client.link.Reaches (client.nextPageBookinfo search shelfno bookno stale).2.2.link := by
  rw [nextPageBookinfo]
  rcases client.books.printPage with ⟨_ | (_ | ⟨row, rows⟩), books⟩
  · exact .refl _
  · have loads : client.link.Reaches
        ((client.withBooks books).loadBooks search shelfno bookno).2.link :=
      (client.withBooks books).findFromServer_reaches _
    dsimp only
    generalize (client.withBooks books).loadBooks search shelfno bookno = loaded at loads ⊢
    rcases loaded with ⟨found, after⟩
    dsimp only at loads ⊢
    split
    · exact loads
    · split
      · exact loads
      · rcases after.books.printPage with ⟨_ | rows, books⟩
        · exact loads
        · exact loads
  · exact .refl _

end Client

namespace Ncgui

theorem display_reaches (shelfno : Int) (collectMode : Bool) (search : Option (Char × BookEntry))
    (stale : BookEntry) (gui : Ncgui) :
    gui.client.link.Reaches (gui.display shelfno collectMode search stale).client.link := by
  by_cases refused : collectMode = true ∧ search.isSome = true
  · rw [display, if_pos refused]
    exact .refl _
  · rw [display_client refused, ← resetOnChange_link shelfno collectMode search gui]
    exact Client.nextPageBookinfo_reaches _ _ _ _ _

theorem pageRight_reaches (stale : Int) (page : BookPage) (gui : Ncgui) :
    gui.client.link.Reaches (gui.pageRight stale page).client.link := by
  have turned := gui.client.nextPageBookinfo_reaches page.search page.modeShelfno gui.localBookno
    stale
  rw [pageRight]
  split
  · exact .refl _
  · dsimp only
    split <;> exact turned

theorem act_reaches (action : BookAction) (bcollect : Bool) (localShelfno : Int)
    (book : BookEntry) (position : Nat) (client : Client) :
    client.link.Reaches (act action bcollect localShelfno book position client).2.link := by
  rcases act_request action bcollect localShelfno book position client with
    ⟨idle, _⟩ | ⟨_, _, _, acted⟩ | ⟨sent, written, leaves, _, _, acted⟩
  · rw [idle]
    exact .refl _
  · rw [acted, clientShelfDeleteBook_link]
    exact client.findFromServer_reaches _
  · rw [acted, update_link]
    exact client.findFromServer_reaches _

theorem step_reaches (fuel : Nat) (gui : Ncgui) (input : Input) :
    gui.client.link.Reaches (gui.step fuel input).client.link := by
  cases input with
  | display shelfno collectMode search stale =>
      rw [step]
      split
      · exact display_reaches shelfno collectMode search stale gui
      · exact .refl _
  | newBook => exact .refl _
  | call call =>
      rcases call.perform_opens fuel gui.client with ⟨msg, opens⟩
      exact opens.reaches
  | key key =>
      rw [step, press]
      cases gui.shown with
      | none => exact .refl _
      | some page =>
          cases key with
          | backspace => exact .refl _
          | up => exact .refl _
          | down => exact .refl _
          | left => exact .refl _
          | right stale => exact pageRight_reaches stale _ gui
          | action action => exact act_reaches action _ _ _ _ gui.client

end Ncgui

/-- What the requests of all sessions keep of the server. -/
structure Server.Sound (server : Server) : Prop where
  numbered : server.db.archive.WellNumbered
  faults : server.db.faults = []
  fits : ∀ row ∈ server.db.archive.books, row.Fits

theorem Server.Sound.step {server : Server} (sound : server.Sound) (msg : MessageCs) :
    (server.step msg).Sound where
  numbered := server.step_wellNumbered msg sound.numbered
  faults := (server.step_continues msg).faults sound.faults
  fits := Server.step_fits sound.numbered sound.fits msg

theorem Server.run_fresh_sound (mode : SqlMode) (collation : Char → Char → Bool)
    (accounts : List AccountRow) (bcrypt : Bcrypt) (salts : List (Option String))
    (sendFaults : List Bool) (history : List MessageCs) :
    (Execution.run Server.step (.fresh mode collation accounts bcrypt salts sendFaults)
      history).Sound := by
  apply Execution.run_invariant
  · intro server msg sound
    exact sound.step msg
  · refine ⟨Archive.wellNumbered_empty, rfl, ?_⟩
    intro row member
    exact absurd member List.not_mem_nil

namespace Fleet

variable {Session : Type}

/-- The archive after an action of a session. -/
def afterAction [DecidableEq Session] (fuel : Nat) (fleet : Fleet Session) (session : Session)
    (action : Ncgui.BookAction) : Archive :=
  (fleet.step fuel (session, .key (.action action))).server.db.archive

/-- An action changes no row but the one that still is the book of the copy, and this one in
nothing but what the action is for. -/
def Careful [DecidableEq Session] (fuel : Nat) (fleet : Fleet Session) (session : Session)
    (action : Ncgui.BookAction) (copy : BookEntry) : Prop :=
  ∀ row ∈ fleet.server.db.archive.books, ∀ later ∈ (fleet.afterAction fuel session action).books,
    later.bookno = row.bookno → later ≠ row →
      row.bookno = copy.bookno ∧ row.Holds copy ∧ action.apart later = action.apart row

/-- An action writes its copy over the row of that number, and is careful if the row still
agrees with the copy. -/
structure Overwrites [DecidableEq Session] (fuel : Nat) (fleet : Fleet Session)
    (session : Session) (action : Ncgui.BookAction) (copy : BookEntry) : Prop where
  effect : fleet.afterAction fuel session action =
    if (fleet.seat session).client.link.sendFails.headD false = true ∨
        (fleet.seat session).client.loginUser = "" then fleet.server.db.archive
    else fleet.server.db.archive.rewriteBook copy.bookno
      (Ncgui.BookAction.outcome fleet.server.db.mode (fleet.seat session).localShelfno copy
        (fleet.seat session).bcollect action)
  current : (∀ row ∈ fleet.server.db.archive.books, row.bookno = copy.bookno →
    action.Current copy row) → fleet.Careful fuel session action copy

/-- The law of older copies, for the copy that is displayed under the slider. -/
def LastWriterWins [DecidableEq Session] (fuel : Nat) (fleet : Fleet Session) :
    Session × Ncgui.Input → Prop
  | (session, .key (.action action)) =>
      ∀ page ∈ (fleet.seat session).shown, ((fleet.seat session).acted page).bookno ≠ nonSenseInt →
        fleet.Overwrites fuel session action ((fleet.seat session).acted page)
  | _ => True

structure Sound (fleet : Fleet Session) : Prop where
  server : fleet.server.Sound
  alone : ∀ session, (fleet.sessions session).client.link.others = []

variable [DecidableEq Session]

theorem Sound.step {fleet : Fleet Session} (sound : fleet.Sound) (fuel : Nat)
    (input : Session × Ncgui.Input) : (fleet.step fuel input).Sound := by
  have kept := @step_keeps Session _ Server.Sound (fun gui => gui.client.link.others = [])
    (fun _ _ alone => alone) fuel fleet input sound.server sound.alone (by
      intro gui _ server alone
      have reaches := gui.step_reaches fuel input.2
      exact ⟨reaches.server_holds (fun _ msg sound => sound.step msg) server,
        reaches.others alone⟩)
  exact ⟨kept.1, kept.2⟩

theorem Sound.effect {fleet : Fleet Session} (sound : fleet.Sound) (fuel : Nat)
    {session : Session} (action : Ncgui.BookAction) {page : BookPage}
    (shown : (fleet.seat session).shown = some page)
    (numbered : ((fleet.seat session).acted page).bookno ≠ nonSenseInt) :
    fleet.afterAction fuel session action =
      if (fleet.seat session).client.link.sendFails.headD false = true ∨
          (fleet.seat session).client.loginUser = "" then fleet.server.db.archive
      else fleet.server.db.archive.rewriteBook ((fleet.seat session).acted page).bookno
        (Ncgui.BookAction.outcome fleet.server.db.mode (fleet.seat session).localShelfno
          ((fleet.seat session).acted page) (fleet.seat session).bcollect action) := by
  have acts : ((fleet.seat session).step fuel (.key (.action action))).client =
      (Ncgui.act action (fleet.seat session).bcollect (fleet.seat session).localShelfno
        ((fleet.seat session).acted page) ((fleet.seat session).curDbmPos page)
        (fleet.seat session).client).2 := by
    rw [Ncgui.step, Ncgui.press, shown]
    rfl
  have alone : (fleet.seat session).client.link.others = [] := sound.alone session
  rw [afterAction, Fleet.step, acts]
  exact Ncgui.act_archive alone sound.server.faults numbered _ _ _ _

theorem Sound.overwrites {fleet : Fleet Session} (sound : fleet.Sound) (fuel : Nat)
    {session : Session} (action : Ncgui.BookAction) {page : BookPage}
    (shown : (fleet.seat session).shown = some page)
    (numbered : ((fleet.seat session).acted page).bookno ≠ nonSenseInt) :
    fleet.Overwrites fuel session action ((fleet.seat session).acted page) := by
  have effect := sound.effect fuel action shown numbered
  refine ⟨effect, ?_⟩
  intro current row rowMem later laterMem number changed
  rcases sound.server.numbered.1 with ⟨count, _, keyed⟩
  rw [effect] at laterMem
  split at laterMem
  · exact absurd (keyed.key_injective laterMem rowMem number) changed
  · rcases List.mem_map.mp laterMem with ⟨source, sourceMem, becomes⟩
    by_cases chosen : (source.bookno == ((fleet.seat session).acted page).bookno) = true
    · rw [if_pos chosen] at becomes
      have same : source = row := by
        apply keyed.key_injective sourceMem rowMem
        rw [← number, ← becomes, Ncgui.BookAction.outcome_bookno]
      subst same
      have current := current source sourceMem (beq_iff_eq.mp chosen)
      refine ⟨beq_iff_eq.mp chosen, current.holds, ?_⟩
      rw [← becomes]
      exact Ncgui.BookAction.outcome_apart (sound.server.fits source sourceMem) current
    · rw [if_neg chosen] at becomes
      subst becomes
      exact absurd (keyed.key_injective sourceMem rowMem number) changed

/-- In every run of any number of sessions, an action changes at most the row of its copy's
number. It writes the copy with what the action is for, whatever this row holds; if the row
still agrees with the copy, nothing else of it changes. -/
theorem last_writer_wins (fuel : Nat) (mode : SqlMode) (collation : Char → Char → Bool)
    (accounts : List AccountRow) (bcrypt : Bcrypt) (salts : List (Option String))
    (sendFaults : List Bool) (history : List MessageCs) (loginUser : String)
    (sendFails delays : Session → List Bool) (inputs : List (Session × Ncgui.Input)) :
    Execution.Along (step fuel) (LastWriterWins fuel)
      (connected (Execution.run Server.step
        (.fresh mode collation accounts bcrypt salts sendFaults) history) loginUser sendFails
        delays) inputs := by
  have initial : (connected (Execution.run Server.step
      (.fresh mode collation accounts bcrypt salts sendFaults) history) loginUser sendFails
      delays).Sound :=
    ⟨Server.run_fresh_sound mode collation accounts bcrypt salts sendFaults history,
      fun _ => rfl⟩
  refine @Execution.along_of_invariant _ _ (step fuel) Sound _ ?_ ?_ _ initial inputs
  · intro fleet input sound
    exact sound.step fuel input
  · rintro fleet ⟨session, input⟩ sound
    rw [LastWriterWins.eq_def]
    split
    case h_1 action =>
      intro page shown numbered
      exact sound.overwrites fuel _ shown numbered
    case h_2 => trivial

instance (copy : BookEntry) (row : BookRow) : Decidable (row.Holds copy) :=
  inferInstanceAs (Decidable (_ ∧ _ ∧ _))

instance (fuel : Nat) (fleet : Fleet Session) (session : Session) (action : Ncgui.BookAction)
    (copy : BookEntry) : Decidable (fleet.Careful fuel session action copy) :=
  inferInstanceAs (Decidable (∀ row ∈ fleet.server.db.archive.books,
    ∀ later ∈ (fleet.afterAction fuel session action).books, later.bookno = row.bookno →
      later ≠ row → row.bookno = copy.bookno ∧ row.Holds copy ∧
        action.apart later = action.apart row))

/-- Every action of every session is careful. -/
def AllCareful (fuel : Nat) (fleet : Fleet Session) : Session × Ncgui.Input → Prop
  | (session, .key (.action action)) => ∀ page ∈ (fleet.seat session).shown,
      fleet.Careful fuel session action ((fleet.seat session).acted page)
  | _ => True

instance (fuel : Nat) (fleet : Fleet Session) :
    (input : Session × Ncgui.Input) → Decidable (fleet.AllCareful fuel input)
  | (session, .key (.action action)) => inferInstanceAs (Decidable (∀ page ∈
      (fleet.seat session).shown,
        fleet.Careful fuel session action ((fleet.seat session).acted page)))
  | (_, .key .up) => .isTrue trivial
  | (_, .key .down) => .isTrue trivial
  | (_, .key .left) => .isTrue trivial
  | (_, .key (.right _)) => .isTrue trivial
  | (_, .key .backspace) => .isTrue trivial
  | (_, .display _ _ _ _) => .isTrue trivial
  | (_, .call _) => .isTrue trivial
  | (_, .newBook) => .isTrue trivial

/-- One session has looked at a book. The other deletes it and adds another book, which gets
the same number; the first then tags the book it has looked at. -/
def reusedInputs : List (Bool × Ncgui.Input) :=
  [(true, .call (.session (.insertBook Server.sampleTime (Server.sampleBook 1)))),
    (false, Ncgui.sampleVisit), (true, Ncgui.sampleVisit), (true, .key (.action .delete)),
    (true, .call (.session (.insertBook Server.sampleTime
      { Server.sampleBook 1 with name := "another" }))),
    (false, .key (.action (.tagging "read")))]

/-- Both sessions have looked at a book. One tags it, then the other lends it. -/
def taggedInputs : List (Bool × Ncgui.Input) :=
  [(true, .call (.session (.insertBook Server.sampleTime (Server.sampleBook 1)))),
    (false, Ncgui.sampleVisit), (true, Ncgui.sampleVisit),
    (true, .key (.action (.tagging "read"))), (false, .key (.action .borrow))]

def promptStart : Fleet Bool := connected sharedServer "reader" (fun _ => []) fun _ => []

/-- The book with the reused number is replaced by the one deleted before, and the label set
by the other session is gone. -/
theorem older_copies_win :
    ¬ Execution.Along (step 0) (AllCareful 0) promptStart reusedInputs ∧
      ¬ Execution.Along (step 0) (AllCareful 0) promptStart taggedInputs ∧
      ((Execution.run (step 0) promptStart reusedInputs).server.db.archive.books.map
        fun row => (row.bookno, row.name)) = [(1, (Server.sampleBook 1).name)] ∧
      ((Execution.run (step 0) promptStart taggedInputs).server.db.archive.books.map
        fun row => (row.bookno, row.label)) = [(1, (Server.sampleBook 1).label)] := by
  refine ⟨?_, ?_, ?_, ?_⟩
  · decide +kernel
  · decide +kernel
  · decide +kernel
  · decide +kernel

end Fleet

end Bookshelfdq
