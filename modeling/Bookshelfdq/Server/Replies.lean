import Bookshelfdq.Server.Service

/-! # The replies to one request

A find request is answered by one reply for each row and a closing one. The
closing reply is missing exactly when a fetch fails on the way. -/

namespace Bookshelfdq

/-! ## The fetch loop -/

def closingResponse (nrows : Nat) : ServerResponse :=
  if nrows = defaultFinds then .findEndMore else .findEnd

/-- The replies of a fetch loop in which nothing fails. -/
def rowReplies (fill : ResultRow → MessageCs → MessageCs) (closing : ServerResponse) :
    List ResultRow → MessageCs → List MessageCs
  | [], msg => [msg.respond closing]
  | row :: rows, msg =>
      (fill row msg).respond .success ::
        rowReplies fill closing rows ((fill row msg).respond .success)

theorem length_rowReplies (fill : ResultRow → MessageCs → MessageCs) (closing : ServerResponse)
    (rows : List ResultRow) (msg : MessageCs) :
    (rowReplies fill closing rows msg).length = rows.length + 1 := by
  induction rows generalizing msg with
  | nil => rfl
  | cons row rows induction => rw [rowReplies, List.length_cons, induction, List.length_cons]

/-- Each item of the list needs one call; the list ends before the first call that
fails. -/
def beforeFault {α : Type} : List Bool → List α → List α
  | _, [] => []
  | faults, item :: items =>
      if faults.headD false then [] else item :: beforeFault faults.tail items

/-- The first `count` calls to come succeed. -/
def healthyFor (count : Nat) (faults : List Bool) : Bool :=
  (faults.take count).all fun fault => !fault

/-- Rows that `r_success` announces, then one reply that is none of them. -/
def closes : List MessageCs → Bool
  | [] => false
  | [last] => last.response != .success
  | reply :: next :: replies => reply.response == .success && closes (next :: replies)

def fillBook : ResultRow → MessageCs → MessageCs
  | .book row, msg => msg.setBook row.entry
  | _, msg => msg

def fillShelf : ResultRow → MessageCs → MessageCs
  | .shelf row, msg => msg.setShelf row.entry
  | _, msg => msg

theorem beforeFault_nil {α : Type} (items : List α) : beforeFault [] items = items := by
  induction items with
  | nil => rfl
  | cons item items induction => simp [beforeFault, induction]

theorem healthyFor_succ (count : Nat) (faults : List Bool) :
    healthyFor (count + 1) faults =
      (!faults.headD false && healthyFor count faults.tail) := by
  cases faults with
  | nil => simp [healthyFor]
  | cons fault faults => simp [healthyFor]

theorem closes_beforeFault_rowReplies (fill : ResultRow → MessageCs → MessageCs)
    {closing : ServerResponse} (ending : closing ≠ .success) (rows : List ResultRow)
    (msg : MessageCs) (faults : List Bool) :
    closes (beforeFault faults (rowReplies fill closing rows msg)) =
      healthyFor (rows.length + 1) faults := by
  induction rows generalizing msg faults with
  | nil =>
      rw [rowReplies, beforeFault, List.length_nil, healthyFor_succ]
      cases faults.headD false <;> simp [beforeFault, closes, healthyFor, ending]
  | cons row rows induction =>
      have rest := induction ((fill row msg).respond .success) faults.tail
      rw [rowReplies, beforeFault, List.length_cons, healthyFor_succ]
      cases fault : faults.headD false with
      | true => simp [closes]
      | false =>
          simp only [Bool.false_eq_true, if_false, Bool.not_false, Bool.true_and]
          rw [← rest]
          cases beforeFault faults.tail
            (rowReplies fill closing rows ((fill row msg).respond .success)) with
          | nil => rfl
          | cons next replies => simp [closes]

section Loop

variable {fetch : MessageCs → Mysql → FetchResult × MessageCs × Mysql}
  {decode : ResultRow → MessageCs → Option MessageCs}
  {fill : ResultRow → MessageCs → MessageCs}

theorem Server.send_of_reliable {server : Server} (reliable : server.sendFaults = [])
    (db : Mysql) (msg : MessageCs) :
    (server.withDb db).send msg = (true, [msg], server.withDb db) := by
  rcases server with ⟨before, bcrypt, salts, sendFaults⟩
  subst reliable
  rfl

theorem sendRows_replies
    (fetches : ∀ msg (db : Mysql) rows, db.resPtr = some rows →
      fetch msg db = fetchResult decode rows msg db)
    {rows : List ResultRow}
    (decodes : ∀ row ∈ rows, ∀ msg, decode row msg = some (fill row msg))
    (fuel : Nat) (enough : rows.length < fuel) (msg : MessageCs) (server : Server)
    (reliable : server.sendFaults = []) (stored : server.db.resPtr = some rows) :
    (sendRows fetch fuel msg server).2.1 =
      beforeFault server.db.faults
        (rowReplies fill (closingResponse server.db.resRows) rows msg) := by
  induction rows generalizing fuel msg server with
  | nil =>
      cases fuel with
      | zero => cases enough
      | succ fuel =>
          have fault : server.db.faults.headD false = server.db.nextFault := rfl
          rw [sendRows, fetches msg server.db [] stored, fetchResult, rowReplies, beforeFault,
            fault]
          cases server.db.nextFault with
          | true => rfl
          | false =>
              by_cases more : server.db.resRows = defaultFinds
              · simp [more, closingResponse, beforeFault, Server.send_of_reliable reliable]
              · simp [more, closingResponse, beforeFault, Server.send_of_reliable reliable]
  | cons row rows induction =>
      cases fuel with
      | zero => cases enough
      | succ fuel =>
          have fault : server.db.faults.headD false = server.db.nextFault := rfl
          have decoded := decodes row List.mem_cons_self msg
          rw [sendRows, fetches msg server.db (row :: rows) stored, fetchResult, rowReplies,
            beforeFault, fault]
          cases server.db.nextFault with
          | true => rfl
          | false =>
              simp only [decoded, Bool.false_eq_true, if_false]
              rw [Server.send_of_reliable reliable]
              simp only [List.cons_append, List.nil_append, List.cons.injEq, true_and]
              exact induction (fun row member => decodes row (List.mem_cons_of_mem _ member))
                fuel (by simpa using enough) _ _ reliable rfl

end Loop

/-! ## The find functions -/

/-- A book find gets as far as a stored result with these rows. -/
structure FindsBooks (msg : MessageCs) (db : Mysql) (rows : List ResultRow) : Prop where
  named : msg.user ≠ ""
  selects : selectBooks db.collation msg.stuff.book db.archive.books = some rows
  healthy : healthyFor 2 db.faults = true

/-- A shelf find gets as far as a stored result. -/
structure FindsShelves (msg : MessageCs) (db : Mysql) : Prop where
  named : msg.user ≠ ""
  healthy : healthyFor 2 db.faults = true

theorem healthyFor_two (db : Mysql) :
    healthyFor 2 db.faults = true ↔ db.nextFault = false ∧ db.advance.nextFault = false := by
  rw [healthyFor_succ, healthyFor_succ]
  simp [healthyFor, Mysql.nextFault, Mysql.advance]

theorem mysqlSelect_of_healthy {db : Mysql} (healthy : db.nextFault = false) :
    mysqlSelect db = (true, db.advance) := by
  simp [mysqlSelect, mysqlQuery, healthy]

theorem getSimpleResult_of_healthy {value : Option α} {db : Mysql}
    (healthy : db.nextFault = false) : getSimpleResult value db = (value, db.advance) := by
  simp [getSimpleResult, healthy]

theorem mysqlSelect_of_fault {db : Mysql} (fault : db.nextFault = true) :
    mysqlSelect db = (false, db.fail) := by
  simp [mysqlSelect, mysqlQuery, fault]

theorem srvdbBookFind_of_finds {msg : MessageCs} {db : Mysql} {rows : List ResultRow}
    (finds : FindsBooks msg db rows) :
    srvdbBookFind msg db = (some rows.length,
      if msg.stuff.book.bookno = breakLimitInt then
        srvdbFreeResult (db.advance.storeResult rows 1)
      else db.advance.storeResult rows 10) := by
  rcases (healthyFor_two db).mp finds.healthy with ⟨first, second⟩
  rw [srvdbBookFind]
  simp only [finds.named, if_false, finds.selects, mysqlSelect_of_healthy first, second,
    Bool.false_eq_true]
  split <;> rfl

theorem srvdbBookFind_of_not_finds {msg : MessageCs} {db : Mysql}
    (refused : ∀ rows, ¬ FindsBooks msg db rows) : (srvdbBookFind msg db).1 = none := by
  rw [srvdbBookFind]
  by_cases anonymous : msg.user = ""
  · simp only [anonymous, if_true]
  · cases selection : selectBooks db.collation msg.stuff.book db.archive.books with
    | none => simp only [anonymous, if_false]
    | some rows =>
        simp only [anonymous, if_false]
        cases first : db.nextFault with
        | true => rw [mysqlSelect_of_fault first]
        | false =>
            rw [mysqlSelect_of_healthy first]
            cases second : db.advance.nextFault with
            | true => simp only [second, if_true]
            | false =>
                exact absurd ⟨anonymous, selection, (healthyFor_two db).mpr ⟨first, second⟩⟩
                  (refused rows)

theorem srvdbShelfFind_of_finds {msg : MessageCs} {db : Mysql} (finds : FindsShelves msg db) :
    srvdbShelfFind msg db =
      (some (selectShelves msg.stuff.shelf.code db.archive.shelves).length,
        db.advance.storeResult (selectShelves msg.stuff.shelf.code db.archive.shelves)
          (if msg.stuff.shelf.code = breakLimitInt then 1 else 6)) := by
  rcases (healthyFor_two db).mp finds.healthy with ⟨first, second⟩
  rw [srvdbShelfFind]
  simp only [finds.named, if_false, mysqlSelect_of_healthy first, second, Bool.false_eq_true]

theorem srvdbShelfFind_of_not_finds {msg : MessageCs} {db : Mysql}
    (refused : ¬ FindsShelves msg db) : (srvdbShelfFind msg db).1 = none := by
  rw [srvdbShelfFind]
  by_cases anonymous : msg.user = ""
  · simp only [anonymous, if_true]
  · simp only [anonymous, if_false]
    cases first : db.nextFault with
    | true => rw [mysqlSelect_of_fault first]
    | false =>
        rw [mysqlSelect_of_healthy first]
        cases second : db.advance.nextFault with
        | true => simp only [second, if_true]
        | false => exact absurd ⟨anonymous, (healthyFor_two db).mpr ⟨first, second⟩⟩ refused

/-! ## What goes over the wire -/

/-- The message as the server starts to work on it. -/
def MessageCs.opened (request : MessageCs) : MessageCs :=
  { request with response := .success, errorText := "" }

def Server.replies (server : Server) (request : MessageCs) : List MessageCs :=
  (socketSrvHandle request server).2.1

theorem findsBooks_opened {request : MessageCs} {db : Mysql} {rows : List ResultRow} :
    FindsBooks request.opened db rows ↔ FindsBooks request db rows :=
  ⟨fun finds => ⟨finds.named, finds.selects, finds.healthy⟩,
    fun finds => ⟨finds.named, finds.selects, finds.healthy⟩⟩

theorem findsShelves_opened {request : MessageCs} {db : Mysql} :
    FindsShelves request.opened db ↔ FindsShelves request db :=
  ⟨fun finds => ⟨finds.named, finds.healthy⟩, fun finds => ⟨finds.named, finds.healthy⟩⟩

theorem Server.handle_findBook {request : MessageCs} (kind : request.request = .findBook)
    (server : Server) :
    socketSrvHandle request server = server.answerFind srvdbBookFetchResult request.opened
      (srvdbBookFind request.opened server.db) := by
  simp only [socketSrvHandle, kind, MessageCs.opened]

theorem Server.handle_findShelf {request : MessageCs} (kind : request.request = .findShelf)
    (server : Server) :
    socketSrvHandle request server = server.answerFind srvdbShelfFetchResult request.opened
      (srvdbShelfFind request.opened server.db) := by
  simp only [socketSrvHandle, kind, MessageCs.opened]

theorem srvdbBookFetchResult_fetches (msg : MessageCs) (db : Mysql) (rows : List ResultRow)
    (stored : db.resPtr = some rows) :
    srvdbBookFetchResult msg db = fetchResult decodeBook rows msg db := by
  rw [srvdbBookFetchResult, stored]

theorem srvdbShelfFetchResult_fetches (msg : MessageCs) (db : Mysql) (rows : List ResultRow)
    (stored : db.resPtr = some rows) :
    srvdbShelfFetchResult msg db = fetchResult decodeShelf rows msg db := by
  rw [srvdbShelfFetchResult, stored]
  rfl

theorem selectBooks_decodes {collation : Char → Char → Bool} {book : BookEntry}
    {books : List BookRow} {rows : List ResultRow}
    (selects : selectBooks collation book books = some rows)
    (listing : book.bookno ≠ breakLimitInt) :
    ∀ row ∈ rows, ∀ msg, decodeBook row msg = some (fillBook row msg) := by
  intro row member msg
  have isBook : ∃ book, row = .book book := by
    rw [selectBooks] at selects
    split at selects
    · rw [← Option.some.inj selects] at member
      rcases List.mem_map.mp member with ⟨book, _, rfl⟩
      exact ⟨book, rfl⟩
    · rcases Option.map_eq_some_iff.mp selects with ⟨selected, _, selects⟩
      rw [← selects] at member
      rcases List.mem_map.mp member with ⟨book, _, rfl⟩
      exact ⟨book, rfl⟩
  rcases isBook with ⟨book, rfl⟩
  rfl

theorem selectShelves_decodes {code : Int} {shelves : List ShelfRow}
    (listing : code ≠ breakLimitInt) :
    ∀ row ∈ selectShelves code shelves, ∀ msg, decodeShelf row msg = some (fillShelf row msg) := by
  intro row member msg
  have isShelf : ∃ shelf, row = .shelf shelf := by
    rw [selectShelves, if_neg listing] at member
    split at member
    · rcases List.mem_map.mp member with ⟨shelf, _, rfl⟩
      exact ⟨shelf, rfl⟩
    · rcases List.mem_map.mp member with ⟨shelf, _, rfl⟩
      exact ⟨shelf, rfl⟩
  rcases isShelf with ⟨shelf, rfl⟩
  rfl

theorem selectShelves_undecoded {code : Int} {shelves : List ShelfRow}
    (counting : code = breakLimitInt) :
    ∀ row ∈ selectShelves code shelves, ∀ msg, decodeShelf row msg = none := by
  intro row member msg
  rw [selectShelves, if_pos counting] at member
  rcases List.mem_map.mp member with ⟨shelf, _, rfl⟩
  rfl

theorem length_selectShelves_le {archive : Archive} (numbered : archive.WellNumbered)
    (code : Int) : (selectShelves code archive.shelves).length ≤ maxShelfNum := by
  rcases numbered.2 with ⟨count, few, shelves⟩
  have length := shelves.length
  have short : ∀ selected : ShelfRow → Bool,
      (Table.orderBy ShelfRow.shelfno (archive.shelves.filter selected)).length ≤
        maxShelfNum := by
    intro selected
    have fewer := List.length_filter_le selected archive.shelves
    rw [Table.length_orderBy]
    omega
  rw [selectShelves]
  split
  · rw [List.length_map]
    exact List.length_take_le _ _
  · split
    · rw [List.length_map]
      exact (List.length_take_le' _ _).trans (short _)
    · rw [List.length_map]
      exact (List.length_take_le' _ _).trans (short _)

/-- There are never enough shelves for a find to stop at its limit. -/
theorem closingResponse_selectShelves {archive : Archive} (numbered : archive.WellNumbered)
    (code : Int) :
    closingResponse (selectShelves code archive.shelves).length = .findEnd := by
  have below := length_selectShelves_le numbered code
  have limit : maxShelfNum < defaultFinds := by decide
  rw [closingResponse, if_neg (by omega)]

section Wire

variable {server : Server} {request : MessageCs} (reliable : server.sendFaults = [])

include reliable

theorem Server.replies_findBook {rows : List ResultRow} (kind : request.request = .findBook)
    (finds : FindsBooks request server.db rows)
    (listing : request.stuff.book.bookno ≠ breakLimitInt) :
    server.replies request = beforeFault server.db.faults.tail.tail
      (rowReplies fillBook (closingResponse rows.length) rows
        (request.opened.setExtra rows.length)) := by
  have found := srvdbBookFind_of_finds (findsBooks_opened.mpr finds)
  have limit : request.opened.stuff.book.bookno ≠ breakLimitInt := listing
  rw [if_neg limit] at found
  rw [replies, handle_findBook kind, found, answerFind]
  exact sendRows_replies srvdbBookFetchResult_fetches
    (selectBooks_decodes finds.selects listing) _ (Nat.lt_succ_self _) _
    (server.withDb (server.db.advance.storeResult rows 10)) reliable rfl

theorem Server.replies_countingBooks {rows : List ResultRow}
    (kind : request.request = .findBook) (finds : FindsBooks request server.db rows)
    (counting : request.stuff.book.bookno = breakLimitInt) :
    server.replies request =
      [(request.opened.setExtra rows.length).respond .findEnd] := by
  have found := srvdbBookFind_of_finds (findsBooks_opened.mpr finds)
  have limit : request.opened.stuff.book.bookno = breakLimitInt := counting
  rw [if_pos limit] at found
  have freed : ∀ msg, srvdbBookFetchResult msg
      (srvdbFreeResult (server.db.advance.storeResult rows 1)) =
        (.finish, msg, srvdbFreeResult (server.db.advance.storeResult rows 1)) := fun msg => rfl
  rw [replies, handle_findBook kind, found, answerFind, sendRows]
  simp only [withDb_db, freed]
  rw [send_of_reliable (by exact reliable)]

theorem Server.replies_findBook_refused (kind : request.request = .findBook)
    (refused : ∀ rows, ¬ FindsBooks request server.db rows) :
    server.replies request = [request.opened.respond .failed] := by
  have found := srvdbBookFind_of_not_finds fun rows opened =>
    refused rows (findsBooks_opened.mp opened)
  rcases result : srvdbBookFind request.opened server.db with ⟨nrows, db⟩
  rw [result] at found
  subst found
  rw [replies, handle_findBook kind, result, answerFind, send_of_reliable reliable]

theorem Server.replies_findShelf_copied (kind : request.request = .findShelf)
    (finds : FindsShelves request server.db)
    (copied : request.stuff.shelf.code = breakLimitInt →
      selectShelves request.stuff.shelf.code server.db.archive.shelves = []) :
    server.replies request = beforeFault server.db.faults.tail.tail
      (rowReplies fillShelf
        (closingResponse (selectShelves request.stuff.shelf.code server.db.archive.shelves).length)
        (selectShelves request.stuff.shelf.code server.db.archive.shelves)
        (request.opened.setExtra
          (selectShelves request.stuff.shelf.code server.db.archive.shelves).length)) := by
  have found := srvdbShelfFind_of_finds (findsShelves_opened.mpr finds)
  have decodes : ∀ row ∈ selectShelves request.stuff.shelf.code server.db.archive.shelves,
      ∀ msg, decodeShelf row msg = some (fillShelf row msg) := by
    by_cases counting : request.stuff.shelf.code = breakLimitInt
    · intro row member
      rw [copied counting] at member
      cases member
    · exact selectShelves_decodes counting
  rw [replies, handle_findShelf kind, found, answerFind]
  exact sendRows_replies srvdbShelfFetchResult_fetches decodes _
    (Nat.lt_succ_self _) _ (server.withDb (server.db.advance.storeResult _ _)) reliable rfl

theorem Server.replies_findShelf_refused (kind : request.request = .findShelf)
    (refused : ¬ FindsShelves request server.db) :
    server.replies request = [request.opened.respond .failed] := by
  have found := srvdbShelfFind_of_not_finds fun opened => refused (findsShelves_opened.mp opened)
  rcases result : srvdbShelfFind request.opened server.db with ⟨nrows, db⟩
  rw [result] at found
  subst found
  rw [replies, handle_findShelf kind, result, answerFind, send_of_reliable reliable]

theorem Server.answer_of_reliable (result : Bool × MessageCs × Mysql) :
    (server.answer result).2.1 =
      [result.2.1.respond (if result.1 then .success else .failed)] := by
  rw [answer, send_of_reliable reliable]

end Wire

/-! ## Replies that get lost -/

theorem beforeFault_begins {α : Type} (faults : List Bool) (items : List α) :
    beforeFault faults items <+: items := by
  induction items generalizing faults with
  | nil => exact List.prefix_refl _
  | cons item items induction =>
      rw [beforeFault]
      split
      · exact List.nil_prefix
      · exact (List.prefix_cons_inj item).mpr (induction faults.tail)

/-- The server, if none of its sends failed. -/
def Server.reliably (server : Server) : Server := { server with sendFaults := [] }

theorem Server.send_begins (msg : MessageCs) (server : Server) :
    (server.send msg).2.1 <+: [msg] := by
  rw [send]
  cases server.sendFaults.headD false with
  | true => exact List.nil_prefix
  | false => exact List.prefix_refl _

/-- A failed send ends the loop. -/
theorem sendRows_begins (fetch : MessageCs → Mysql → FetchResult × MessageCs × Mysql)
    (fuel : Nat) (msg : MessageCs) (server : Server) :
    (sendRows fetch fuel msg server).2.1 <+: (sendRows fetch fuel msg server.reliably).2.1 := by
  induction fuel generalizing msg server with
  | zero => exact List.prefix_refl _
  | succ fuel induction =>
      have same : server.reliably.db = server.db := rfl
      rw [sendRows, sendRows, same]
      rcases fetch msg server.db with ⟨result, fetched, db⟩
      cases result with
      | err => exact List.prefix_refl _
      | finish => exact Server.send_begins _ _
      | endMore => exact Server.send_begins _ _
      | cont =>
          have reliable : server.reliably.sendFaults = [] := rfl
          dsimp only
          rw [Server.send_of_reliable reliable]
          dsimp only [Server.send]
          cases (server.withDb db).sendFaults.headD false with
          | true => exact List.nil_prefix
          | false => exact (List.prefix_cons_inj _).mpr (induction _ _)

theorem Server.replies_findShelf_begins {server : Server} {request : MessageCs}
    (kind : request.request = .findShelf) :
    server.replies request <+: server.reliably.replies request := by
  simp only [replies, socketSrvHandle, kind]
  rw [show server.reliably.db = server.db from rfl]
  rcases srvdbShelfFind _ server.db with ⟨_ | nrows, db⟩
  · exact send_begins _ _
  · exact sendRows_begins _ _ _ _

/-- Whatever is lost, a client sees the rows in order, and the closing reply last. -/
theorem Server.replies_listing_begins {server : Server} {request : MessageCs}
    (numbered : server.db.archive.WellNumbered) (kind : request.request = .findShelf)
    (code : request.stuff.shelf.code ≠ breakLimitInt)
    (finds : FindsShelves request server.db) :
    server.replies request <+: rowReplies fillShelf .findEnd
      (selectShelves request.stuff.shelf.code server.db.archive.shelves)
      (request.opened.setExtra
        (selectShelves request.stuff.shelf.code server.db.archive.shelves).length) := by
  apply (replies_findShelf_begins kind).trans
  have reliable : server.reliably.sendFaults = [] := rfl
  have copied := replies_findShelf_copied reliable kind finds
    (fun counting => absurd counting code)
  have same : server.reliably.db = server.db := rfl
  rw [copied, same, closingResponse_selectShelves numbered]
  exact beforeFault_begins _ _

theorem Server.replies_refused_begins {server : Server} {request : MessageCs}
    (kind : request.request = .findShelf) (refused : ¬ FindsShelves request server.db) :
    server.replies request <+: [request.opened.respond .failed] := by
  apply (replies_findShelf_begins kind).trans
  have reliable : server.reliably.sendFaults = [] := rfl
  have refusal := replies_findShelf_refused reliable kind refused
  exact ⟨[], by rw [refusal, List.append_nil]⟩

theorem Server.replies_countShelf_begins {server : Server} {request : MessageCs}
    (kind : request.request = .countShelf) : ∃ reply, server.replies request <+: [reply] := by
  simp only [replies, socketSrvHandle, kind]
  exact ⟨_, send_begins _ _⟩

/-! ## A reliable connection stays reliable -/

theorem Server.send_sendFaults (msg : MessageCs) {server : Server}
    (reliable : server.sendFaults = []) : (server.send msg).2.2.sendFaults = [] := by
  simp [send, reliable]

theorem Server.answer_sendFaults (result : Bool × MessageCs × Mysql) {server : Server}
    (reliable : server.sendFaults = []) : (server.answer result).2.2.sendFaults = [] :=
  send_sendFaults _ reliable

theorem sendRows_sendFaults (fetch : MessageCs → Mysql → FetchResult × MessageCs × Mysql)
    (fuel : Nat) (msg : MessageCs) {server : Server} (reliable : server.sendFaults = []) :
    (sendRows fetch fuel msg server).2.2.sendFaults = [] := by
  induction fuel generalizing msg server with
  | zero => exact reliable
  | succ fuel induction =>
      rw [sendRows]
      split
      · exact reliable
      · exact Server.send_sendFaults _ reliable
      · exact Server.send_sendFaults _ reliable
      · rw [Server.send_of_reliable reliable]
        exact induction _ reliable

theorem Server.answerFind_sendFaults
    (fetch : MessageCs → Mysql → FetchResult × MessageCs × Mysql) (msg : MessageCs)
    (found : Option Nat × Mysql) {server : Server} (reliable : server.sendFaults = []) :
    (server.answerFind fetch msg found).2.2.sendFaults = [] := by
  rcases found with ⟨_ | nrows, db⟩
  · exact send_sendFaults _ reliable
  · exact sendRows_sendFaults fetch _ _ reliable

theorem Server.step_sendFaults (request : MessageCs) {server : Server}
    (reliable : server.sendFaults = []) : (server.step request).sendFaults = [] := by
  cases kind : request.request with
  | findBook =>
      simp only [step, socketSrvHandle, kind]
      exact answerFind_sendFaults _ _ _ reliable
  | findShelf =>
      simp only [step, socketSrvHandle, kind]
      exact answerFind_sendFaults _ _ _ reliable
  | verifyAccount =>
      simp only [step, socketSrvHandle, kind]
      split
      · exact answer_sendFaults _ reliable
      · split <;> exact answer_sendFaults _ reliable
  | heartbeat =>
      simp only [step, socketSrvHandle, kind]
      exact reliable
  | insertBook =>
      simp only [step, socketSrvHandle, kind]
      exact answer_sendFaults _ reliable
  | deleteBook =>
      simp only [step, socketSrvHandle, kind]
      exact answer_sendFaults _ reliable
  | updateBook =>
      simp only [step, socketSrvHandle, kind]
      exact answer_sendFaults _ reliable
  | countBook =>
      simp only [step, socketSrvHandle, kind]
      exact answer_sendFaults _ reliable
  | buildShelf =>
      simp only [step, socketSrvHandle, kind]
      exact answer_sendFaults _ reliable
  | removeShelf =>
      simp only [step, socketSrvHandle, kind]
      exact answer_sendFaults _ reliable
  | countShelf =>
      simp only [step, socketSrvHandle, kind]
      exact answer_sendFaults _ reliable
  | registerAccount =>
      simp only [step, socketSrvHandle, kind]
      exact answer_sendFaults _ reliable

/-! ## Complete answers -/

/-- A find is answered by rows and one closing reply, any other request by one
reply. -/
def answers (request : MessageCs) (replies : List MessageCs) : Bool :=
  if request.request = .findBook ∨ request.request = .findShelf then closes replies
  else replies.length == 1

/-- The request is of a kind the server knows, and none of the fetches that a find
leads to fails. The library calls to come are those of the query, two of them, and
one for each row and for the end. -/
def Server.Answerable (server : Server) (request : MessageCs) : Prop :=
  match request.request with
  | .findBook => ∀ rows, FindsBooks request server.db rows →
      request.stuff.book.bookno ≠ breakLimitInt →
        healthyFor (rows.length + 1) server.db.faults.tail.tail = true
  | .findShelf => FindsShelves request server.db →
      (request.stuff.shelf.code = breakLimitInt →
        selectShelves request.stuff.shelf.code server.db.archive.shelves = []) ∧
      healthyFor ((selectShelves request.stuff.shelf.code server.db.archive.shelves).length + 1)
        server.db.faults.tail.tail = true
  | .heartbeat => False
  | _ => True

theorem closingResponse_ne_success (nrows : Nat) : closingResponse nrows ≠ .success := by
  rw [closingResponse]
  split <;> nofun

section Complete

variable {server : Server} {request : MessageCs} (reliable : server.sendFaults = [])

include reliable

theorem Server.closes_findBook_iff (kind : request.request = .findBook) :
    closes (server.replies request) = true ↔ ∀ rows, FindsBooks request server.db rows →
      request.stuff.book.bookno ≠ breakLimitInt →
        healthyFor (rows.length + 1) server.db.faults.tail.tail = true := by
  by_cases found : ∃ rows, FindsBooks request server.db rows
  · rcases found with ⟨rows, finds⟩
    have unique : ∀ other, FindsBooks request server.db other → other = rows :=
      fun other others => Option.some.inj (others.selects.symm.trans finds.selects)
    by_cases counting : request.stuff.book.bookno = breakLimitInt
    · rw [replies_countingBooks reliable kind finds counting]
      simp [closes, counting]
    · rw [replies_findBook reliable kind finds counting,
        closes_beforeFault_rowReplies fillBook (closingResponse_ne_success _)]
      constructor
      · intro healthy other others _
        rw [unique other others]
        exact healthy
      · intro healthy
        exact healthy rows finds counting
  · have refused : ∀ rows, ¬ FindsBooks request server.db rows := fun rows finds =>
      found ⟨rows, finds⟩
    rw [replies_findBook_refused reliable kind refused]
    constructor
    · intro _ rows finds
      exact absurd finds (refused rows)
    · intro _
      rfl

omit reliable in
/-- A find of shelves by the number that asks for a count stores rows that the
fetch function cannot copy. -/
theorem Server.replies_countingShelves (kind : request.request = .findShelf)
    (finds : FindsShelves request server.db)
    (counting : request.stuff.shelf.code = breakLimitInt)
    (found : selectShelves request.stuff.shelf.code server.db.archive.shelves ≠ []) :
    server.replies request = [] := by
  have result := srvdbShelfFind_of_finds (findsShelves_opened.mpr finds)
  have code : request.opened.stuff.shelf.code = request.stuff.shelf.code := rfl
  rw [code] at result
  cases rows : selectShelves request.stuff.shelf.code server.db.archive.shelves with
  | nil => exact absurd rows found
  | cons row rest =>
      have undecoded : ∀ msg, decodeShelf row msg = none := by
        apply selectShelves_undecoded counting
        rw [rows]
        exact List.mem_cons_self
      rw [rows] at result
      rw [replies, handle_findShelf kind, result, answerFind, sendRows]
      rw [srvdbShelfFetchResult_fetches _ _ (row :: rest) rfl]
      simp only [fetchResult, undecoded]
      cases (server.withDb (Mysql.storeResult (row :: rest)
        (if request.stuff.shelf.code = breakLimitInt then 1 else 6) server.db.advance)).db.nextFault <;>
        rfl

theorem Server.closes_findShelf_iff (kind : request.request = .findShelf) :
    closes (server.replies request) = true ↔ (FindsShelves request server.db →
      (request.stuff.shelf.code = breakLimitInt →
        selectShelves request.stuff.shelf.code server.db.archive.shelves = []) ∧
      healthyFor ((selectShelves request.stuff.shelf.code server.db.archive.shelves).length + 1)
        server.db.faults.tail.tail = true) := by
  by_cases finds : FindsShelves request server.db
  · by_cases uncopied : request.stuff.shelf.code = breakLimitInt ∧
        selectShelves request.stuff.shelf.code server.db.archive.shelves ≠ []
    · rw [replies_countingShelves kind finds uncopied.1 uncopied.2]
      constructor
      · intro impossible
        cases impossible
      · intro copied
        exact absurd ((copied finds).1 uncopied.1) uncopied.2
    · have copied : request.stuff.shelf.code = breakLimitInt →
          selectShelves request.stuff.shelf.code server.db.archive.shelves = [] := by
        intro counting
        by_contra found
        exact uncopied ⟨counting, found⟩
      rw [replies_findShelf_copied reliable kind finds copied,
        closes_beforeFault_rowReplies fillShelf (closingResponse_ne_success _)]
      constructor
      · intro healthy _
        exact ⟨copied, healthy⟩
      · intro both
        exact (both finds).2
  · rw [replies_findShelf_refused reliable kind finds]
    constructor
    · intro _ others
      exact absurd others finds
    · intro _
      rfl

theorem Server.answers_iff_answerable :
    answers request (server.replies request) = true ↔ server.Answerable request := by
  cases kind : request.request with
  | findBook =>
      simp only [answers, Answerable, kind, true_or, if_true]
      exact closes_findBook_iff reliable kind
  | findShelf =>
      simp only [answers, Answerable, kind, or_true, if_true]
      exact closes_findShelf_iff reliable kind
  | heartbeat => simp [answers, Answerable, kind, replies, socketSrvHandle]
  | insertBook =>
      simp [answers, Answerable, kind, replies, socketSrvHandle, answer_of_reliable reliable]
  | deleteBook =>
      simp [answers, Answerable, kind, replies, socketSrvHandle, answer_of_reliable reliable]
  | updateBook =>
      simp [answers, Answerable, kind, replies, socketSrvHandle, answer_of_reliable reliable]
  | countBook =>
      simp [answers, Answerable, kind, replies, socketSrvHandle, answer_of_reliable reliable]
  | buildShelf =>
      simp [answers, Answerable, kind, replies, socketSrvHandle, answer_of_reliable reliable]
  | removeShelf =>
      simp [answers, Answerable, kind, replies, socketSrvHandle, answer_of_reliable reliable]
  | countShelf =>
      simp [answers, Answerable, kind, replies, socketSrvHandle, answer_of_reliable reliable]
  | verifyAccount =>
      simp only [answers, Answerable, kind, replies, socketSrvHandle, reduceCtorEq, or_self,
        if_false, iff_true]
      split
      · simp [answer_of_reliable reliable]
      · split <;> simp [answer_of_reliable reliable]
  | registerAccount =>
      have same : Server.sendFaults { server with salts := server.salts.tail } = [] := reliable
      simp [answers, Answerable, kind, replies, socketSrvHandle, answer_of_reliable same]

end Complete

end Bookshelfdq
