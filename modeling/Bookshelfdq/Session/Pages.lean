import Bookshelfdq.Client.LoginPage
import Bookshelfdq.Session.Asking
import Bookshelfdq.Session.Outcomes

/-! # The pages behind the main menu

How the pages of `ncgui.c` follow one another, what they ask the server to change, and where they
ask for the password again. A turn is what happens from one wait for the user to the next; it says
what the user chooses, and what the program finds where that decides on which page it goes on. -/

namespace Bookshelfdq

/-- `ui_page_type_e` -/
inductive UiPageType
  | nonSense
  | login
  | register
  | mainMenu
  | lookthrough
  | buildShelf
  | searchBook
  | bookInfo
  | newBook
deriving DecidableEq

/-- Where the program waits for the user. `stocked` says that there are books on the shelf, `search`
that the books displayed are those that a search has found. -/
inductive Place
  | mainMenu
  | building
  | shelves
  | options
  | profile
  | confirming (stocked : Bool)
  | deleting
  | newBook
  | searching
  | selecting
  | books (search : Bool)
  | bookOptions (search : Bool)
  | acting (search : Bool)
  | closed
deriving DecidableEq

namespace Place

/-- What `get_choice` is called with. The other places wait for the answer to a `get_confirm` or
for a text. -/
def choice : Place → Option UiPageType
  | mainMenu => some .mainMenu
  | building => some .buildShelf
  | shelves => some .lookthrough
  | options => some .lookthrough
  | profile => some .buildShelf
  | confirming _ => none
  | deleting => some .lookthrough
  | newBook => some .newBook
  | searching => some .searchBook
  | selecting => some .lookthrough
  | books _ => some .bookInfo
  | bookOptions _ => some .bookInfo
  | acting _ => none
  | closed => none

/-- Behind a `verify_identity`. -/
def guarded : Place → Bool
  | building => true
  | confirming _ => true
  | deleting => true
  | newBook => true
  | acting _ => true
  | _ => false

/-- Back to the shelves, whose books are counted first. -/
def back (counted : Bool) : Place := if counted then shelves else mainMenu

/-- Where `display_bookinfo_page` returns to. -/
def behindBooks (search counted : Bool) : Place := if search then mainMenu else back counted

end Place

/-! ## Turns -/

/-- What is typed for `verify_identity`, and how far the request gets. -/
structure Identity where
  keys : List LoginKey
  contact : Contact

inductive MenuTurn
  | lookThrough (found : Bool)
  | buildShelf (identity : Identity)
  | searchBook
  | quit
  | nonSense

inductive BuildTurn
  | adjust
  | build (time : PlainText) (shelf : ShelfEntry) (contact : Contact)
  | giveUp
  | again (identity : Identity)

inductive ShelfTurn
  | move (counted : Bool)
  | enter (confirmed : Bool)
  | leave

inductive OptionTurn
  | move
  | display (collectMode shown counted : Bool)
  | newBook (identity : Identity) (counted : Bool)
  | profile
  | destroy (identity : Identity) (stocked counted : Bool)
  | leave (counted : Bool)

inductive ProfileTurn
  | move
  | leave (counted : Bool)

/-- The call of `client_shelf_delete_itself`, and the way back from it. -/
structure Removal where
  shelfno : Int
  contact : Contact
  counted : Bool

inductive ConfirmTurn
  | refuse (counted : Bool)
  | confirm (removal : Removal)

/-- `treat` sets the books of the shelf unsorted or abandons them, before the shelf is deleted.
`leave` deletes the shelf as well. -/
inductive DeleteTurn
  | move
  | treat (abandon : Bool) (contact : Contact) (removal : Removal)
  | leave (removal : Removal)

inductive NewBookTurn
  | move
  | insert (time : PlainText) (book : BookEntry) (contact : Contact) (again counted : Bool)
  | leave (counted : Bool)

inductive SearchTurn
  | move
  | selectShelf (found : Bool)
  | finish (shown : Bool)
  | leave

/-- The shelf and the floor on which a book is to be put. -/
structure Collecting where
  shelfno : Int
  floorno : Int
  contact : Contact

inductive BookTurn
  | move
  | turnPage (shown counted : Bool)
  | enter (book : BookEntry) (position : Nat) (collecting : Option Collecting)
  | leave (counted : Bool)

inductive BookOptionTurn
  | move
  | choose (identity : Identity)
  | leave

/-- There is no action when a label or a deletion is given up. -/
structure ActTurn where
  action : Option Ncgui.BookAction
  book : BookEntry
  position : Nat
  contact : Contact

inductive PageTurn
  | menu (turn : MenuTurn)
  | build (turn : BuildTurn)
  | shelf (turn : ShelfTurn)
  | option (turn : OptionTurn)
  | profile (turn : ProfileTurn)
  | confirm (turn : ConfirmTurn)
  | delete (turn : DeleteTurn)
  | newBook (turn : NewBookTurn)
  | search (turn : SearchTurn)
  | book (turn : BookTurn)
  | bookOption (turn : BookOptionTurn)
  | act (turn : ActTurn)

/-! ## Pages -/

/-- `currentPage` is the static of `get_choice`, `verified` is `global_pw_verified`, and `bcollect`
the static of `display_bookinfo_page`. -/
structure Pages where
  booked : BookedServer
  loginUser : String
  currentPage : UiPageType
  verified : Bool
  bcollect : Bool
  place : Place

/-- What a turn does: the account that it calls `client_verify_account` with, and the changes that
it asks the server for. -/
structure Turned where
  attempt : Option AccountEntry
  requests : List (Contact × Mutation)
  pages : Pages

namespace Pages

def goTo (place : Place) (pages : Pages) : Pages := { pages with place := place }

def turned (pages : Pages) : Turned := ⟨none, [], pages⟩

def asking (requests : List (Contact × Mutation)) (pages : Pages) : Turned := ⟨none, requests, pages⟩

/-- The first lines of `get_choice`. -/
def getChoice (type : UiPageType) (pages : Pages) : Pages :=
  if pages.currentPage = type then pages
  else { pages with currentPage := type, verified := false }

/-- The account that `verify_identity` asks for, once a password has been entered. -/
def identified (identity : Identity) (pages : Pages) : Option AccountEntry :=
  let entry := getLoginInput .password LoginPage.blank identity.keys
  if entry.1 then
    some { type := .user, name := pages.loginUser, password := String.ofList (cString entry.2) }
  else none

/-- `verify_identity` -/
def verifyIdentity (identity : Identity) (pages : Pages) : Option AccountEntry × Pages :=
  if pages.verified then (none, pages)
  else
    match pages.identified identity with
    | none => (none, pages)
    | some account =>
        let asked := identity.contact.ask (clientVerifyAccountMsg account 0) pages.booked.server
        (some account,
          { pages with booked := ⟨asked.2, pages.booked.book⟩, verified := asked.1 })

/-- A page that begins with `verify_identity`. -/
def verifying (identity : Identity) (inside outside : Place) (pages : Pages) : Turned :=
  let asked := pages.verifyIdentity identity
  ⟨asked.1, [], asked.2.goTo (if asked.2.verified then inside else outside)⟩

/-- `ncgui_get_choice`, and what `main` makes of it. -/
def ncguiGetChoice (turn : MenuTurn) (pages : Pages) : Turned :=
  let chosen := pages.getChoice .mainMenu
  match turn with
  | .lookThrough found => (chosen.goTo (.back found)).turned
  | .buildShelf identity => chosen.verifying identity .building .mainMenu
  | .searchBook => (chosen.goTo .searching).turned
  | .quit => (chosen.goTo .closed).turned
  | .nonSense => chosen.turned

/-- `ncgui_display_buildshelf_page`. With `menu_cycle_e` the page begins once more. -/
def displayBuildshelfPage (turn : BuildTurn) (pages : Pages) : Turned :=
  let chosen := pages.getChoice .buildShelf
  match turn with
  | .adjust => chosen.turned
  | .build time shelf contact => (chosen.goTo .mainMenu).asking [(contact, .buildShelf time shelf)]
  | .giveUp => (chosen.goTo .mainMenu).turned
  | .again identity => chosen.verifying identity .building .mainMenu

/-- `display_lookthrough_page` -/
def displayLookthroughPage (selectMode : Bool) (turn : ShelfTurn) (pages : Pages) : Turned :=
  let chosen := pages.getChoice .lookthrough
  let outside := if selectMode then Place.searching else .mainMenu
  match turn with
  | .move counted => (if counted then chosen else chosen.goTo outside).turned
  | .enter confirmed =>
      if selectMode then (if confirmed then chosen.goTo .searching else chosen).turned
      else (chosen.goTo .options).turned
  | .leave => (chosen.goTo outside).turned

/-- The inner loop of `display_lookthrough_page`, with the first lines of the pages it calls. -/
def lookthroughOption (turn : OptionTurn) (pages : Pages) : Turned :=
  let chosen := pages.getChoice .lookthrough
  match turn with
  | .move => chosen.turned
  | .display collectMode shown counted =>
      ({ chosen with bcollect := collectMode }.goTo
        (if shown then .books false else .back counted)).turned
  | .newBook identity counted => chosen.verifying identity .newBook (.back counted)
  | .profile => (chosen.goTo .profile).turned
  | .destroy identity stocked counted =>
      chosen.verifying identity (.confirming stocked) (.back counted)
  | .leave counted => (chosen.goTo (.back counted)).turned

/-- `display_shelfprofile_page` -/
def displayShelfprofilePage (turn : ProfileTurn) (pages : Pages) : Turned :=
  let chosen := pages.getChoice .buildShelf
  match turn with
  | .move => chosen.turned
  | .leave counted => (chosen.goTo (.back counted)).turned

/-- The end of `delete_shelf_page`. After a success the shelves are displayed anew. -/
def deletingItself (before : List (Contact × Mutation)) (removal : Removal) (pages : Pages) :
    Turned :=
  (pages.goTo (.back removal.counted)).asking
    (before ++ [(removal.contact, .deleteItself removal.shelfno)])

def confirmDelete (stocked : Bool) (turn : ConfirmTurn) (pages : Pages) : Turned :=
  match turn with
  | .refuse counted => (pages.goTo (.back counted)).turned
  | .confirm removal =>
      if stocked then (pages.goTo .deleting).turned else pages.deletingItself [] removal

/-- The loop of `delete_shelf_page`. -/
def deleteShelfPage (turn : DeleteTurn) (pages : Pages) : Turned :=
  let chosen := pages.getChoice .lookthrough
  match turn with
  | .move => chosen.turned
  | .treat abandon contact removal =>
      chosen.deletingItself [(contact,
        if abandon then .abandonBooks removal.shelfno else .unsortedBooks removal.shelfno)] removal
  | .leave removal => chosen.deletingItself [] removal

/-- `add_newbook_page` -/
def addNewbookPage (turn : NewBookTurn) (pages : Pages) : Turned :=
  let chosen := pages.getChoice .newBook
  match turn with
  | .move => chosen.turned
  | .insert time book contact again counted =>
      (if again then chosen else chosen.goTo (.back counted)).asking
        [(contact, .insertBook time book)]
  | .leave counted => (chosen.goTo (.back counted)).turned

/-- `ncgui_display_searchbook_page` -/
def displaySearchbookPage (turn : SearchTurn) (pages : Pages) : Turned :=
  let chosen := pages.getChoice .searchBook
  match turn with
  | .move => chosen.turned
  | .selectShelf found => (if found then chosen.goTo .selecting else chosen).turned
  | .finish shown => (chosen.goTo (if shown then .books true else .mainMenu)).turned
  | .leave => (chosen.goTo .mainMenu).turned

/-- What the page of the books asks for when books are collected. -/
def collects (book : BookEntry) (position : Nat) (collecting : Collecting) :
    List (Contact × Mutation) :=
  if book.encodingTime.text.toList[11]? = some 'H' then []
  else [(collecting.contact, .collectingBook collecting.shelfno
    { book with floorno := collecting.floorno } position)]

/-- The loop of `display_bookinfo_page`. -/
def displayBookinfoPage (search : Bool) (turn : BookTurn) (pages : Pages) : Turned :=
  let chosen := pages.getChoice .bookInfo
  match turn with
  | .move => chosen.turned
  | .turnPage shown counted =>
      (if shown then chosen else chosen.goTo (.behindBooks search counted)).turned
  | .enter book position collecting =>
      if chosen.bcollect then chosen.asking (collecting.elim [] (collects book position))
      else (if book.encodingTime = .empty then chosen else chosen.goTo (.bookOptions search)).turned
  | .leave counted => (chosen.goTo (.behindBooks search counted)).turned

/-- The loop over the options of a book. -/
def bookinfoOption (search : Bool) (turn : BookOptionTurn) (pages : Pages) : Turned :=
  let chosen := pages.getChoice .bookInfo
  match turn with
  | .move => chosen.turned
  | .choose identity => chosen.verifying identity (.acting search) (.bookOptions search)
  | .leave => (chosen.goTo (.books search)).turned

end Pages

/-- What an option of a book asks for. A book that is not on its shelf cannot be read, and none of
the options collects. -/
def Ncgui.BookAction.mutations (book : BookEntry) (position : Nat) :
    Ncgui.BookAction → List Mutation
  | reading => if book.onReading = '1' ∨ book.borrowed = '1' then [] else [.reading book position]
  | borrow => [.borrow book position]
  | tagging label => [.taggingBook { book with label := label } position]
  | delete => [.deleteBook book position]
  | collect _ => []

namespace Pages

/-- The `switch` behind the options of a book. -/
def act (search : Bool) (turn : ActTurn) (pages : Pages) : Turned :=
  (pages.goTo (.books search)).asking
    ((turn.action.elim [] fun action => action.mutations turn.book turn.position).map
      fun mutation => (turn.contact, mutation))

/-- A turn for another place than that where the program waits does nothing. -/
def turn (pages : Pages) (turn : PageTurn) : Turned :=
  match pages.place, turn with
  | .mainMenu, .menu turn => pages.ncguiGetChoice turn
  | .building, .build turn => pages.displayBuildshelfPage turn
  | .shelves, .shelf turn => pages.displayLookthroughPage false turn
  | .selecting, .shelf turn => pages.displayLookthroughPage true turn
  | .options, .option turn => pages.lookthroughOption turn
  | .profile, .profile turn => pages.displayShelfprofilePage turn
  | .confirming stocked, .confirm turn => pages.confirmDelete stocked turn
  | .deleting, .delete turn => pages.deleteShelfPage turn
  | .newBook, .newBook turn => pages.addNewbookPage turn
  | .searching, .search turn => pages.displaySearchbookPage turn
  | .books search, .book turn => pages.displayBookinfoPage search turn
  | .bookOptions search, .bookOption turn => pages.bookinfoOption search turn
  | .acting search, .act turn => pages.act search turn
  | _, _ => pages.turned

/-- A change is asked for. -/
def request (pages : Pages) (asked : Contact × Mutation) : Pages :=
  if asked.2.sends then
    { pages with booked := pages.booked.hear asked.1 (asked.2.message pages.loginUser) }
  else pages

end Pages

/-- A turn of the user, or a request that reaches the server from elsewhere. The requests that the
pages only read with are of the second kind. -/
inductive PageInput
  | turn (turn : PageTurn)
  | others (event : BookedServer.Meanwhile)

def PageInput.Admitted : PageInput → Prop
  | turn _ => True
  | others event => event.Admitted

namespace Pages

def step (pages : Pages) : PageInput → Pages
  | .turn turn => Execution.run request (pages.turn turn).pages (pages.turn turn).requests
  | .others event => { pages with booked := pages.booked.meanwhile event }

/-- The changes that are asked for. -/
def changes (pages : Pages) : PageInput → List Mutation
  | .turn turn => (pages.turn turn).requests.map Prod.snd
  | .others _ => []

/-- The account that the server is asked about. -/
def attempts (pages : Pages) : PageInput → Option AccountEntry
  | .turn turn => (pages.turn turn).attempt
  | .others _ => none

end Pages

end Bookshelfdq
