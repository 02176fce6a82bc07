import Bookshelfdq.Clisrv

/-! # The messages the client sends

What each function of `clishell.c` puts into its message before it calls
`find_from_server` or `socket_client_send_request`. The three synchronising
functions do not clear their message first: `stale` is what was in it. The clock
is read by the caller. -/

namespace Bookshelfdq

/-! ## Books -/

def clientShelfInsertBookMsg (loginUser : String) (time : PlainText) (book : BookEntry) :
    MessageCs :=
  { MessageCs.zeroed with
    user := loginUser
    request := .insertBook
    stuff := { MessageCs.zeroed.stuff with
      book := { book with encodingTime := time, bookno := nonSenseInt } } }

def clientShelfLoadingBookMsg (loginUser : String) (shelfno bookno : Int) : MessageCs :=
  let flag := if shelfno = nonSenseInt then flagFindUnsorted else '0'
  { MessageCs.zeroed with
    user := loginUser
    request := .findBook
    stuff := { MessageCs.zeroed.stuff with
      book := { BookEntry.zeroed with
        shelfno := shelfno
        floorno := nonSenseInt
        bookno := bookno
        name := "-"
        author := "-"
        label := "-"
        borrowed := flag
        onReading := flag } } }

def clientShelfDeleteBookMsg (loginUser : String) (book : BookEntry) : MessageCs :=
  { MessageCs.zeroed with
    user := loginUser
    request := .deleteBook
    stuff := { MessageCs.zeroed.stuff with
      book := { BookEntry.zeroed with
        shelfno := nonSenseInt
        floorno := nonSenseInt
        bookno := book.bookno } } }

def clientShelfTaggingBookMsg (loginUser : String) (book : BookEntry) : MessageCs :=
  { MessageCs.zeroed with
    user := loginUser
    request := .updateBook
    stuff := { MessageCs.zeroed.stuff with book := book } }

def clientShelfCollectingBookMsg (loginUser : String) (shelfno : Int) (book : BookEntry) :
    MessageCs :=
  clientShelfTaggingBookMsg loginUser { book with shelfno := shelfno }

/-- What `client_shelf_moving_book` makes of the entry, and the value it returns
on success: 1 for reading, 2 for lending, 4 for returning. -/
def movedBook (book : BookEntry) (moveAction : Int) : BookEntry × Int :=
  if moveAction = 0 then ({ book with onReading := '1' }, 1)
  else if moveAction = 1 then
    if book.onReading = '1' then ({ book with onReading := '0' }, 4)
    else if book.borrowed = '1' then ({ book with borrowed := '0' }, 4)
    else ({ book with borrowed := '1' }, 2)
  else (book, 0)

def clientShelfMovingBookMsg (loginUser : String) (book : BookEntry) (moveAction : Int) :
    MessageCs :=
  clientShelfTaggingBookMsg loginUser (movedBook book moveAction).1

def clientShelfCountBookMsg (loginUser : String) (shelfno : Int) : MessageCs :=
  { MessageCs.zeroed with
    user := loginUser
    request := .countBook
    stuff := { MessageCs.zeroed.stuff with
      book := { BookEntry.zeroed with shelfno := shelfno, floorno := nonSenseInt } } }

def clientSearchingBookMsg (loginUser : String) (bookno : Int) (searchEntry : BookEntry) :
    MessageCs :=
  { MessageCs.zeroed with
    user := loginUser
    request := .findBook
    stuff := { MessageCs.zeroed.stuff with
      book := { searchEntry with floorno := nonSenseInt, bookno := bookno } } }

/-! ## Shelves -/

/-- A request about all the books of one shelf. -/
def wholeShelfMsg (loginUser : String) (request : ClientRequest) (shelfno : Int) : MessageCs :=
  { MessageCs.zeroed with
    user := loginUser
    request := request
    stuff := { MessageCs.zeroed.stuff with
      book := { BookEntry.zeroed with shelfno := shelfno, bookno := nonSenseInt } } }

def clientShelfAbandonBooksMsg (loginUser : String) (shelfno : Int) : MessageCs :=
  wholeShelfMsg loginUser .deleteBook shelfno

def clientShelfUnsortedBooksMsg (loginUser : String) (shelfno : Int) : MessageCs :=
  wholeShelfMsg loginUser .updateBook shelfno

def clientShelfDeleteItselfMsg (loginUser : String) (shelfno : Int) : MessageCs :=
  { MessageCs.zeroed with
    user := loginUser
    request := .removeShelf
    stuff := { MessageCs.zeroed.stuff with shelf := { ShelfEntry.zeroed with code := shelfno } } }

def clientBuildShelfMsg (loginUser : String) (time : PlainText) (shelf : ShelfEntry) :
    MessageCs :=
  { MessageCs.zeroed with
    user := loginUser
    request := .buildShelf
    stuff := { MessageCs.zeroed.stuff with shelf := { shelf with buildingTime := time } } }

/-! ## Synchronisation -/

def clientBooksCountSyncMsg (loginUser : String) (stale : MessageCs) : MessageCs :=
  { stale with
    user := loginUser
    request := .countBook
    stuff := { stale.stuff with
      book := { stale.stuff.book with shelfno := nonSenseInt, floorno := nonSenseInt } } }

def clientShelvesCountSyncMsg (loginUser : String) (stale : MessageCs) : MessageCs :=
  { stale with user := loginUser, request := .countShelf }

def clientShelvesInfoSyncMsg (loginUser : String) (stale : MessageCs) (code : Int) : MessageCs :=
  { stale with
    user := loginUser
    request := .findShelf
    stuff := { stale.stuff with shelf := { stale.stuff.shelf with code := code } } }

/-! ## Accounts -/

def clientRegisterAccountMsg (account : AccountEntry) : MessageCs :=
  { MessageCs.zeroed with
    user := account.name
    request := .registerAccount
    stuff := { MessageCs.zeroed.stuff with account := account } }

def clientVerifyAccountMsg (account : AccountEntry) (initMode : Int) : MessageCs :=
  let msg := { MessageCs.zeroed with
    user := account.name
    request := .verifyAccount
    stuff := { MessageCs.zeroed.stuff with account := account } }
  if initMode = 1 ∧ account.type = .user then msg.setExtra 1 else msg

/-! ## The calls of a session -/

/-- The calls of one session that concern books and shelves, with their
arguments. Numbers a listing starts from are never negative. -/
inductive SessionRequest
  | insertBook (time : PlainText) (book : BookEntry)
  | deleteBook (book : BookEntry)
  | abandonBooks (shelfno : Int)
  | unsortedBooks (shelfno : Int)
  | taggingBook (book : BookEntry)
  | collectingBook (shelfno : Int) (book : BookEntry)
  | movingBook (book : BookEntry) (moveAction : Int)
  | buildShelf (time : PlainText) (shelf : ShelfEntry)
  | deleteItself (shelfno : Int)
  | loadingBook (shelfno : Int) (bookno : Nat)
  | searchingBook (bookno : Nat) (searchEntry : BookEntry)
  | countBook (shelfno : Int)

namespace SessionRequest

def message (loginUser : String) : SessionRequest → MessageCs
  | insertBook time book => clientShelfInsertBookMsg loginUser time book
  | deleteBook book => clientShelfDeleteBookMsg loginUser book
  | abandonBooks shelfno => clientShelfAbandonBooksMsg loginUser shelfno
  | unsortedBooks shelfno => clientShelfUnsortedBooksMsg loginUser shelfno
  | taggingBook book => clientShelfTaggingBookMsg loginUser book
  | collectingBook shelfno book => clientShelfCollectingBookMsg loginUser shelfno book
  | movingBook book moveAction => clientShelfMovingBookMsg loginUser book moveAction
  | buildShelf time shelf => clientBuildShelfMsg loginUser time shelf
  | deleteItself shelfno => clientShelfDeleteItselfMsg loginUser shelfno
  | loadingBook shelfno bookno => clientShelfLoadingBookMsg loginUser shelfno bookno
  | searchingBook bookno searchEntry => clientSearchingBookMsg loginUser bookno searchEntry
  | countBook shelfno => clientShelfCountBookMsg loginUser shelfno

end SessionRequest

end Bookshelfdq
