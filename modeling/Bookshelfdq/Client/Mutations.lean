import Bookshelfdq.Client.Ncgui

/-! # Requests that change something, and what is said of them

The functions of `clishell.c` that ask for a change, with the values they return, and the code of
the pages of `ncgui.c` that tests these values. -/

namespace Bookshelfdq

/-! ## The functions of `clishell.c` -/

/-- The first byte of a text, as a `char` is promoted. -/
def firstByte (text : String) : BitVec 32 :=
  match text.toList with
  | [] => 0
  | first :: _ => ((String.utf8EncodeChar first).headD 0).toBitVec.signExtend 32

/-- Name, author and floor have no bit in common. -/
def incompleteBook (book : BookEntry) : Bool :=
  firstByte book.name &&& firstByte book.author &&& BitVec.ofInt 32 book.floorno == 0

namespace Client

/-- The value returned, what is left in `user_book` and in `errInfo`, and the client. -/
def clientShelfInsertBook (time : PlainText) (book : BookEntry) (client : Client) :
    Int × BookEntry × String × Client :=
  if incompleteBook book then (0, book, "书籍信息不完整", client)
  else
    match client.findFromServer (clientShelfInsertBookMsg client.loginUser time book) with
    | (res, reply, client) =>
        (res, { book with encodingTime := time }, if res = 0 then reply.errorText else "", client)

def clientShelfDeleteBook (book : BookEntry) (position : Nat) (client : Client) :
    Int × BookEntry × Client :=
  match client.findFromServer (clientShelfDeleteBookMsg client.loginUser book) with
  | (res, _, client) =>
      if res = 1 then
        (res, { book with encodingTime := .empty },
          client.withBooks (client.books.clidbBookDelete position))
      else (res, book, client)

def clientShelfCollectingBook (shelfno : Int) (book : BookEntry) (position : Nat)
    (client : Client) : Int × BookEntry × Client :=
  match client.findFromServer (clientShelfCollectingBookMsg client.loginUser shelfno book) with
  | (res, _, client) =>
      if res = 1 then
        let marked := { book with encodingTime := Ncgui.collectedTime book.encodingTime }
        (res, marked, client.withBooks (client.books.clidbBookInsertAt marked position))
      else (res, book, client)

def clientShelfTaggingBook (book : BookEntry) (position : Nat) (client : Client) : Int × Client :=
  match client.findFromServer (clientShelfTaggingBookMsg client.loginUser book) with
  | (res, _, client) =>
      if res = 1 then (res, client.withBooks (client.books.clidbBookInsertAt book position))
      else (res, client)

/-- 1, 2 or 4 on success, and one more on failure. -/
def clientShelfMovingBook (book : BookEntry) (position : Nat) (moveAction : Int)
    (client : Client) : Int × Client :=
  match client.findFromServer (clientShelfMovingBookMsg client.loginUser book moveAction) with
  | (res, reply, client) =>
      if res = 1 then
        ((movedBook book moveAction).2,
          client.withBooks (client.books.clidbBookInsertAt reply.stuff.book position))
      else ((movedBook book moveAction).2 + 1, client)

def clientShelfAbandonBooks (shelfno : Int) (client : Client) : Int × Client :=
  match client.findFromServer (clientShelfAbandonBooksMsg client.loginUser shelfno) with
  | (res, _, client) => (res, client)

def clientShelfUnsortedBooks (shelfno : Int) (client : Client) : Int × Client :=
  match client.findFromServer (clientShelfUnsortedBooksMsg client.loginUser shelfno) with
  | (res, _, client) => (res, client)

def withShelves (client : Client) (shelves : ShelfCache) : Client :=
  { client with shelves := shelves }

/-- The result of `clidb_shelf_delete` is discarded. -/
def clientShelfDeleteItself (shelfno : Int) (client : Client) : Int × Client :=
  match client.findFromServer (clientShelfDeleteItselfMsg client.loginUser shelfno) with
  | (res, _, client) =>
      if res = 1 then (res, client.withShelves (client.shelves.clidbShelfDelete shelfno).2)
      else (res, client)

/-- The value returned, what is left in `errInfo`, and the client. The result of
`clidb_shelf_insert` is discarded. -/
def clientBuildShelf (time : PlainText) (shelf : ShelfEntry) (client : Client) :
    Int × String × Client :=
  match client.findFromServer (clientBuildShelfMsg client.loginUser time shelf) with
  | (res, reply, client) =>
      if res = 1 then
        (res, "", client.withShelves (client.shelves.clidbShelfInsert reply.stuff.shelf).2)
      else (res, reply.errorText, client)

end Client

/-! ## The pages of `ncgui.c` -/

/-- An `error_line` after a request, and whether it says that the request succeeded. -/
structure Announcement where
  success : Bool
  text : String
deriving DecidableEq

/-- The two lines of an `if` on the value of a call. -/
def announce (result : Int) (done failed : String) : Announcement :=
  if result ≠ 0 then ⟨true, done⟩ else ⟨false, failed⟩

/-- The `switch` on the value of `client_shelf_moving_book`. -/
def announceBorrow (result : Int) : Option Announcement :=
  if result = 2 then some ⟨true, "外借成功!"⟩
  else if result = 3 then some ⟨false, "外借失败..."⟩
  else if result = 4 then some ⟨true, "还书成功!"⟩
  else if result = 5 then some ⟨false, "还书失败..."⟩
  else none

/-- What the pages ask for. `reading` and `borrow` are the moves with action 0 and 1. -/
inductive Mutation
  | insertBook (time : PlainText) (book : BookEntry)
  | deleteBook (book : BookEntry) (position : Nat)
  | collectingBook (shelfno : Int) (book : BookEntry) (position : Nat)
  | taggingBook (book : BookEntry) (position : Nat)
  | reading (book : BookEntry) (position : Nat)
  | borrow (book : BookEntry) (position : Nat)
  | abandonBooks (shelfno : Int)
  | unsortedBooks (shelfno : Int)
  | deleteItself (shelfno : Int)
  | buildShelf (time : PlainText) (shelf : ShelfEntry)

namespace Mutation

/-- The call and the line that follows it. -/
def perform (gui : Ncgui) : Mutation → Option Announcement × Ncgui
  | insertBook time book =>
      match gui.client.clientShelfInsertBook time book with
      | (result, _, errInfo, client) =>
          (some (announce result "上架图书成功!" errInfo),
            { gui with
              client := client
              globalNewBookComing := if result ≠ 0 then true else gui.globalNewBookComing })
  | deleteBook book position =>
      match gui.client.clientShelfDeleteBook book position with
      | (result, _, client) =>
          (some (announce result "下架图书成功!" "下架图书失败..."), gui.withClient client)
  | collectingBook shelfno book position =>
      match gui.client.clientShelfCollectingBook shelfno book position with
      | (result, _, client) =>
          (some (announce result "拾取图书成功!" "拾取图书失败..."), gui.withClient client)
  | taggingBook book position =>
      match gui.client.clientShelfTaggingBook book position with
      | (result, client) =>
          (some (announce result "打标签成功!" "打标签失败..."), gui.withClient client)
  | reading book position =>
      match gui.client.clientShelfMovingBook book position 0 with
      | (result, client) =>
          (some (announce result "借阅成功!" "借阅失败..."), gui.withClient client)
  | borrow book position =>
      match gui.client.clientShelfMovingBook book position 1 with
      | (result, client) => (announceBorrow result, gui.withClient client)
  | abandonBooks shelfno =>
      match gui.client.clientShelfAbandonBooks shelfno with
      | (result, client) =>
          (some (announce result "弃置图书成功!" "弃置图书失败..."), gui.withClient client)
  | unsortedBooks shelfno =>
      match gui.client.clientShelfUnsortedBooks shelfno with
      | (result, client) =>
          (some (announce result "设置图书招领成功!可通过拾遗操作进行招领" "设置图书招领失败..."),
            gui.withClient client)
  | deleteItself shelfno =>
      match gui.client.clientShelfDeleteItself shelfno with
      | (result, client) =>
          (some (announce result "拆除书架成功!" "拆除书架失败..."), gui.withClient client)
  | buildShelf time shelf =>
      match gui.client.clientBuildShelf time shelf with
      | (result, errInfo, client) =>
          (some (announce result "书架打造成功!" errInfo), gui.withClient client)

end Mutation

/-! ## The page of books

The branches of its loop discard the values returned. -/

namespace Ncgui

theorem clientShelfDeleteBook_eq (book : BookEntry) (position : Nat) (client : Client) :
    clientShelfDeleteBook book position client =
      (client.clientShelfDeleteBook book position).2 := by
  rw [clientShelfDeleteBook, Client.clientShelfDeleteBook]
  dsimp only
  split <;> rfl

theorem clientShelfCollectingBook_eq (shelfno : Int) (book : BookEntry) (position : Nat)
    (client : Client) :
    clientShelfCollectingBook shelfno book position client =
      (client.clientShelfCollectingBook shelfno book position).2 := by
  rw [clientShelfCollectingBook, update, Client.clientShelfCollectingBook]
  dsimp only
  by_cases one : (client.findFromServer
    (clientShelfCollectingBookMsg client.loginUser shelfno book)).1 = 1
  · rw [if_pos one, if_pos one]
  · rw [if_neg one, if_neg one]

theorem clientShelfTaggingBook_eq (book : BookEntry) (position : Nat) (client : Client) :
    clientShelfTaggingBook book position client =
      (book, (client.clientShelfTaggingBook book position).2) := by
  rw [clientShelfTaggingBook, update, Client.clientShelfTaggingBook]
  dsimp only
  split <;> rfl

theorem clientShelfMovingBook_eq (book : BookEntry) (position : Nat) (moveAction : Int)
    (client : Client) :
    clientShelfMovingBook book position moveAction client =
      (book, (client.clientShelfMovingBook book position moveAction).2) := by
  rw [clientShelfMovingBook, update, Client.clientShelfMovingBook]
  dsimp only
  split <;> rfl

end Ncgui

end Bookshelfdq
