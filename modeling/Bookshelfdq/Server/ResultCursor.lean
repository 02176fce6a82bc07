import Bookshelfdq.Foundation.Execution
import Bookshelfdq.Server.Replies
import Bookshelfdq.Server.ShelfIntegrity

/-! # The result cursor

`res_ptr`, `res_rows` and `res_fields` belong to the process, not to a request. They are set by the
two find functions and reset by the fetch functions, on most of their ways out. -/

namespace Bookshelfdq

/-! ## Released and kept -/

structure Mysql.Released (db : Mysql) : Prop where
  resPtr : db.resPtr = none
  resRows : db.resRows = 0
  resFields : db.resFields = 0

/-- The cursor is left alone. -/
structure Mysql.KeepsCursor (before after : Mysql) : Prop where
  resPtr : after.resPtr = before.resPtr
  resRows : after.resRows = before.resRows
  resFields : after.resFields = before.resFields

theorem Mysql.KeepsCursor.tableFrame : Mysql.TableFrame Mysql.KeepsCursor where
  refl _ := ⟨rfl, rfl, rfl⟩
  trans first second := ⟨second.resPtr.trans first.resPtr, second.resRows.trans first.resRows,
    second.resFields.trans first.resFields⟩
  advance _ := ⟨rfl, rfl, rfl⟩
  fail _ := ⟨rfl, rfl, rfl⟩
  accounts _ _ := ⟨rfl, rfl, rfl⟩
  archive _ _ := ⟨rfl, rfl, rfl⟩
  affectedRows _ _ := ⟨rfl, rfl, rfl⟩

theorem Mysql.KeepsCursor.released {before after : Mysql} (keeps : before.KeepsCursor after)
    (released : before.Released) : after.Released :=
  ⟨keeps.resPtr.trans released.resPtr, keeps.resRows.trans released.resRows,
    keeps.resFields.trans released.resFields⟩

theorem Mysql.released_freeResult (db : Mysql) : (srvdbFreeResult db).Released := ⟨rfl, rfl, rfl⟩

instance (db : Mysql) : Decidable db.Released :=
  decidable_of_iff (db.resPtr = none ∧ db.resRows = 0 ∧ db.resFields = 0)
    ⟨fun fields => ⟨fields.1, fields.2.1, fields.2.2⟩,
      fun released => ⟨released.resPtr, released.resRows, released.resFields⟩⟩

/-! ## The condition -/

/-- A fetch loop over `count` of `total` rows frees their result: all are sent, and they do not fill
a page; or a fetch fails, and the rows before it were sent. -/
def LoopFrees (total count : Nat) (fetches sends : List Bool) : Prop :=
  healthyFor count sends = true ∧ total ≠ defaultFinds ∨
    ∃ sent ≤ count, fetches.getD sent false = true ∧ healthyFor sent sends = true

instance (total count : Nat) (fetches sends : List Bool) :
    Decidable (LoopFrees total count fetches sends) :=
  inferInstanceAs (Decidable (healthyFor count sends = true ∧ total ≠ defaultFinds ∨
    ∃ sent ≤ count, fetches.getD sent false = true ∧ healthyFor sent sends = true))

/-- A find with rows to send: its loop frees them. The two calls before the first fetch are those of
the find. -/
def Server.FreesResult (server : Server) (request : MessageCs) : Prop :=
  match request.request with
  | .findBook => ∀ rows, FindsBooks request server.db rows →
      request.stuff.book.bookno ≠ breakLimitInt →
        LoopFrees rows.length rows.length server.db.faults.tail.tail server.sendFaults
  | .findShelf => FindsShelves request server.db →
      request.stuff.shelf.code ≠ breakLimitInt →
        LoopFrees (selectShelves request.stuff.shelf.code server.db.archive.shelves).length
          (selectShelves request.stuff.shelf.code server.db.archive.shelves).length
          server.db.faults.tail.tail server.sendFaults
  | _ => True

/-- Book finds one after the other, until one fails: the databases they are called with, and the one
that the last leaves. -/
def bookFinds : List MessageCs → Mysql → List Mysql × Mysql
  | [], db => ([], db)
  | msg :: rest, db =>
      match srvdbBookFind msg db with
      | (none, after) => ([db], after)
      | (some _, after) =>
          let later := bookFinds rest after
          (db :: later.1, later.2)

def countQuestions (msg : MessageCs) : List MessageCs :=
  let onReadingMsg := msg.countOnReading
  let borrowedMsg := onReadingMsg.countBorrowed
  let unsortedMsg := borrowedMsg.countUnsorted
  [onReadingMsg, borrowedMsg, unsortedMsg, unsortedMsg.countAll]

/-- The databases that a request calls find functions with. -/
def Server.finds (server : Server) (request : MessageCs) : List Mysql :=
  match request.request with
  | .findBook => [server.db]
  | .countBook => (bookFinds (countQuestions request.opened) server.db).1
  | .findShelf => [server.db]
  | .countShelf => [server.db]
  | _ => []

/-- No find of the request has an old result to overwrite. -/
def Server.OverwritesNone (server : Server) (request : MessageCs) : Prop :=
  ∀ found ∈ server.finds request, found.resPtr = none

instance (server : Server) (request : MessageCs) : Decidable (server.OverwritesNone request) :=
  inferInstanceAs (Decidable (∀ found ∈ server.finds request, found.resPtr = none))

/-! ## The loop -/

theorem Mysql.not_released_of_stored {db : Mysql} {rows : List ResultRow}
    (stored : db.resPtr = some rows) : ¬ db.Released := by
  intro released
  rw [released.resPtr] at stored
  cases stored

theorem getD_zero_eq_headD (outcomes : List Bool) :
    outcomes.getD 0 false = outcomes.headD false := by
  cases outcomes <;> rfl

theorem getD_succ_eq_tail (outcomes : List Bool) (index : Nat) :
    outcomes.getD (index + 1) false = outcomes.tail.getD index false := by
  cases outcomes <;> rfl

theorem loopFrees_zero (total : Nat) (fetches sends : List Bool) :
    LoopFrees total 0 fetches sends ↔ fetches.headD false = true ∨ total ≠ defaultFinds := by
  have healthy : healthyFor 0 sends = true := rfl
  rw [LoopFrees, healthy]
  constructor
  · rintro (⟨_, short⟩ | ⟨sent, none, fault, _⟩)
    · exact .inr short
    · rw [Nat.le_zero.mp none, getD_zero_eq_headD] at fault
      exact .inl fault
  · rintro (fault | short)
    · refine .inr ⟨0, Nat.le_refl 0, ?_, rfl⟩
      rwa [getD_zero_eq_headD]
    · exact .inl ⟨rfl, short⟩

theorem loopFrees_succ (total count : Nat) (fetches sends : List Bool) :
    LoopFrees total (count + 1) fetches sends ↔ fetches.headD false = true ∨
      sends.headD false = false ∧ LoopFrees total count fetches.tail sends.tail := by
  constructor
  · rintro (⟨healthy, short⟩ | ⟨sent, within, fault, healthy⟩)
    · rw [healthyFor_succ, Bool.and_eq_true, Bool.not_eq_true'] at healthy
      exact .inr ⟨healthy.1, .inl ⟨healthy.2, short⟩⟩
    · cases sent with
      | zero =>
          rw [getD_zero_eq_headD] at fault
          exact .inl fault
      | succ sent =>
          rw [healthyFor_succ, Bool.and_eq_true, Bool.not_eq_true'] at healthy
          rw [getD_succ_eq_tail] at fault
          exact .inr ⟨healthy.1, .inr ⟨sent, Nat.le_of_succ_le_succ within, fault, healthy.2⟩⟩
  · rintro (fault | ⟨first, ⟨healthy, short⟩ | ⟨sent, within, fault, healthy⟩⟩)
    · refine .inr ⟨0, Nat.zero_le _, ?_, rfl⟩
      rwa [getD_zero_eq_headD]
    · refine .inl ⟨?_, short⟩
      rw [healthyFor_succ, first, healthy]
      rfl
    · refine .inr ⟨sent + 1, Nat.succ_le_succ within, ?_, ?_⟩
      · rwa [getD_succ_eq_tail]
      · rw [healthyFor_succ, first, healthy]
        rfl

theorem sendRows_released_iff
    {fetch : MessageCs → Mysql → FetchResult × MessageCs × Mysql}
    {decode : ResultRow → MessageCs → Option MessageCs}
    {fill : ResultRow → MessageCs → MessageCs}
    (fetches : ∀ msg (db : Mysql) rows, db.resPtr = some rows →
      fetch msg db = fetchResult decode rows msg db)
    {rows : List ResultRow}
    (decodes : ∀ row ∈ rows, ∀ msg, decode row msg = some (fill row msg))
    (fuel : Nat) (enough : rows.length < fuel) (msg : MessageCs) (server : Server)
    (stored : server.db.resPtr = some rows) :
    (sendRows fetch fuel msg server).2.2.db.Released ↔
      LoopFrees server.db.resRows rows.length server.db.faults server.sendFaults := by
  induction rows generalizing fuel msg server with
  | nil =>
      cases fuel with
      | zero => cases enough
      | succ fuel =>
          have fault : server.db.faults.headD false = server.db.nextFault := rfl
          rw [sendRows, fetches msg server.db [] stored, fetchResult, List.length_nil,
            loopFrees_zero, fault]
          cases server.db.nextFault with
          | true => exact ⟨fun _ => .inl rfl, fun _ => Mysql.released_freeResult _⟩
          | false =>
              by_cases full : server.db.resRows = defaultFinds
              · have kept : ¬ server.db.advance.Released := Mysql.not_released_of_stored stored
                simp [full, kept]
              · simp [full, Mysql.released_freeResult]
  | cons row rows induction =>
      cases fuel with
      | zero => cases enough
      | succ fuel =>
          have fault : server.db.faults.headD false = server.db.nextFault := rfl
          have decoded := decodes row List.mem_cons_self msg
          rw [sendRows, fetches msg server.db (row :: rows) stored, fetchResult, List.length_cons,
            loopFrees_succ, fault]
          cases server.db.nextFault with
          | true => exact ⟨fun _ => .inl rfl, fun _ => Mysql.released_freeResult _⟩
          | false =>
              simp only [decoded, Bool.false_eq_true, if_false, false_or]
              rw [Server.send]
              have sends : (server.withDb { server.db.advance with
                resPtr := some rows }).sendFaults = server.sendFaults := rfl
              rw [sends]
              cases server.sendFaults.headD false with
              | true =>
                  constructor
                  · intro released
                    exact absurd released (Mysql.not_released_of_stored rfl)
                  · rintro ⟨sent, _⟩
                    cases sent
              | false =>
                  simp only [Bool.false_eq_true, if_false, true_and]
                  exact induction (fun row member => decodes row (List.mem_cons_of_mem _ member))
                    fuel (by simpa using enough) _ _ rfl

/-- Rows of which the fetch function copies none. -/
theorem fetchResult_uncopied {decode : ResultRow → MessageCs → Option MessageCs}
    {rows : List ResultRow} (undecoded : ∀ row ∈ rows, ∀ msg, decode row msg = none)
    (msg : MessageCs) {db : Mysql} (counted : db.resRows = rows.length) :
    (fetchResult decode rows msg db).1 ≠ .cont ∧
      (fetchResult decode rows msg db).2.2.Released := by
  cases rows with
  | nil =>
      have empty : db.resRows ≠ defaultFinds := by
        rw [counted]
        decide
      rw [fetchResult]
      cases db.nextFault with
      | true => simp [Mysql.released_freeResult]
      | false => simp [empty, Mysql.released_freeResult]
  | cons row rows =>
      rw [fetchResult, undecoded row List.mem_cons_self]
      cases db.nextFault with
      | true => simp [Mysql.released_freeResult]
      | false => simp [Mysql.released_freeResult]

theorem sendRows_released_uncopied
    {fetch : MessageCs → Mysql → FetchResult × MessageCs × Mysql} {msg : MessageCs}
    {server : Server} (fuel : Nat) (stops : (fetch msg server.db).1 ≠ .cont)
    (freed : (fetch msg server.db).2.2.Released) :
    (sendRows fetch (fuel + 1) msg server).2.2.db.Released := by
  rw [sendRows]
  rcases result : fetch msg server.db with ⟨outcome, after, db⟩
  rw [result] at stops freed
  cases outcome with
  | err => exact freed
  | cont => exact absurd rfl stops
  | endMore => simpa using freed
  | finish => simpa using freed

/-! ## The find functions -/

/-- A find that counts frees what it has stored. -/
theorem srvdbBookFind_released {msg : MessageCs} {db : Mysql} (released : db.Released)
    (unread : (srvdbBookFind msg db).1 = none ∨ msg.stuff.book.bookno = breakLimitInt) :
    (srvdbBookFind msg db).2.Released := by
  have calls := Mysql.KeepsCursor.tableFrame.toCallFrame
  rw [srvdbBookFind] at unread ⊢
  dsimp only at unread ⊢
  split
  · exact released
  · rename_i named
    rw [if_neg named] at unread
    split
    · exact released
    · rename_i rows selects
      rw [selects] at unread
      split
      · rename_i after failed
        exact (mysqlSelect_eq_framed calls failed).released released
      · rename_i queried asked
        have kept := (mysqlSelect_eq_framed calls asked).released released
        rw [asked] at unread
        dsimp only at unread
        split
        · exact ⟨rfl, kept.resRows, kept.resFields⟩
        · rename_i stored
          rw [if_neg stored] at unread
          split
          · exact Mysql.released_freeResult _
          · rename_i listing
            rw [if_neg listing] at unread
            rcases unread with unread | counting
            · cases unread
            · exact absurd counting listing

theorem srvdbBookFind_eq_released {msg : MessageCs} {db after : Mysql} {nrows : Option Nat}
    (result : srvdbBookFind msg db = (nrows, after))
    (counting : msg.stuff.book.bookno = breakLimitInt) (released : db.Released) :
    after.Released := by
  have found := srvdbBookFind_released released (.inr counting)
  rwa [result] at found

theorem srvdbShelfFind_released {msg : MessageCs} {db : Mysql} (released : db.Released)
    (refused : (srvdbShelfFind msg db).1 = none) : (srvdbShelfFind msg db).2.Released := by
  have calls := Mysql.KeepsCursor.tableFrame.toCallFrame
  rw [srvdbShelfFind] at refused ⊢
  dsimp only at refused ⊢
  split
  · exact released
  · rename_i named
    rw [if_neg named] at refused
    split
    · rename_i after failed
      exact (mysqlSelect_eq_framed calls failed).released released
    · rename_i queried asked
      have kept := (mysqlSelect_eq_framed calls asked).released released
      rw [asked] at refused
      dsimp only at refused
      split
      · exact ⟨rfl, kept.resRows, kept.resFields⟩
      · rename_i stored
        rw [if_neg stored] at refused
        cases refused

theorem countQuestions_counting {msg question : MessageCs}
    (asked : question ∈ countQuestions msg) : question.stuff.book.bookno = breakLimitInt := by
  simp only [countQuestions, List.mem_cons, List.not_mem_nil, or_false] at asked
  rcases asked with rfl | rfl | rfl | rfl <;> rfl

theorem bookFinds_released {questions : List MessageCs}
    (counting : ∀ question ∈ questions, question.stuff.book.bookno = breakLimitInt)
    {db : Mysql} (released : db.Released) :
    (∀ found ∈ (bookFinds questions db).1, found.Released) ∧
      (bookFinds questions db).2.Released := by
  induction questions generalizing db with
  | nil => exact ⟨fun found none => absurd none List.not_mem_nil, released⟩
  | cons question questions induction =>
      rw [bookFinds]
      rcases result : srvdbBookFind question db with ⟨nrows, after⟩
      have next := srvdbBookFind_eq_released result (counting question List.mem_cons_self) released
      cases nrows with
      | none => exact ⟨List.forall_mem_singleton.mpr released, next⟩
      | some nrows =>
          have later := induction
            (fun other member => counting other (List.mem_cons_of_mem _ member)) next
          exact ⟨List.forall_mem_cons.mpr ⟨released, later.1⟩, later.2⟩

/-- A count is the finds of its questions. -/
theorem srvdbBookCount_finds (msg : MessageCs) (db : Mysql) :
    (srvdbBookCount msg db).2.2 = (bookFinds (countQuestions msg) db).2 := by
  rw [srvdbBookCount]
  simp only [countQuestions, bookFinds]
  rcases srvdbBookFind msg.countOnReading db with ⟨_ | booksOnReading, first⟩
  · rfl
  · dsimp only
    rcases srvdbBookFind msg.countOnReading.countBorrowed first with ⟨_ | booksBorrowed, second⟩
    · rfl
    · dsimp only
      rcases srvdbBookFind msg.countOnReading.countBorrowed.countUnsorted second with
        ⟨_ | booksUnsorted, third⟩
      · rfl
      · dsimp only
        rcases srvdbBookFind msg.countOnReading.countBorrowed.countUnsorted.countAll third with
          ⟨_ | booksAll, last⟩
        · rfl
        · rfl

theorem srvdbBookCount_released (msg : MessageCs) {db : Mysql} (released : db.Released) :
    (srvdbBookCount msg db).2.2.Released := by
  rw [srvdbBookCount_finds]
  exact (bookFinds_released (fun _ asked => countQuestions_counting asked) released).2

theorem srvdbShelfCount_released (msg : MessageCs) {db : Mysql} (released : db.Released) :
    (srvdbShelfCount msg db).2.2.Released := by
  rw [srvdbShelfCount]
  rcases result : srvdbShelfFind (msg.setShelfno breakLimitInt) db with ⟨_ | nrows, after⟩
  · have refused : (srvdbShelfFind (msg.setShelfno breakLimitInt) db).1 = none := by rw [result]
    have kept := srvdbShelfFind_released released refused
    rw [result] at kept
    simpa only [result] using kept
  · dsimp only
    exact Mysql.released_freeResult _

/-! ## One request -/

namespace Server

theorem step_findBook_released_iff {server : Server} {request : MessageCs}
    (released : server.db.Released) (kind : request.request = .findBook) :
    (server.step request).db.Released ↔ ∀ rows, FindsBooks request server.db rows →
      request.stuff.book.bookno ≠ breakLimitInt →
        LoopFrees rows.length rows.length server.db.faults.tail.tail server.sendFaults := by
  rw [step, handle_findBook kind]
  by_cases found : ∃ rows, FindsBooks request server.db rows
  · rcases found with ⟨rows, finds⟩
    have result := srvdbBookFind_of_finds (findsBooks_opened.mpr finds)
    have same : request.opened.stuff.book.bookno = request.stuff.book.bookno := rfl
    rw [same] at result
    by_cases counting : request.stuff.book.bookno = breakLimitInt
    · have freed : ∀ msg, srvdbBookFetchResult msg
          (srvdbFreeResult (server.db.advance.storeResult rows 1)) =
            (.finish, msg, srvdbFreeResult (server.db.advance.storeResult rows 1)) :=
        fun _ => rfl
      rw [result, if_pos counting, answerFind, sendRows]
      simp only [withDb_db, freed, send_db]
      exact ⟨fun _ _ _ listing => absurd counting listing, fun _ => Mysql.released_freeResult _⟩
    · have frees := sendRows_released_iff srvdbBookFetchResult_fetches
        (selectBooks_decodes finds.selects counting) (rows.length + 1) (Nat.lt_succ_self _)
        (request.opened.setExtra rows.length)
        (server.withDb (server.db.advance.storeResult rows 10)) rfl
      rw [result, if_neg counting, answerFind, frees]
      constructor
      · intro freed others finds' _
        rw [Option.some.inj (finds'.selects.symm.trans finds.selects)]
        exact freed
      · intro all
        exact all rows finds counting
  · have unfound := srvdbBookFind_of_not_finds fun rows opened =>
      found ⟨rows, findsBooks_opened.mp opened⟩
    have kept := srvdbBookFind_released released (.inl unfound)
    rcases result : srvdbBookFind request.opened server.db with ⟨nrows, db⟩
    rw [result] at unfound kept
    subst unfound
    rw [answerFind, send_db]
    exact ⟨fun _ rows finds => absurd ⟨rows, finds⟩ found, fun _ => kept⟩

theorem step_findShelf_released_iff {server : Server} {request : MessageCs}
    (released : server.db.Released) (kind : request.request = .findShelf) :
    (server.step request).db.Released ↔ (FindsShelves request server.db →
      request.stuff.shelf.code ≠ breakLimitInt →
        LoopFrees (selectShelves request.stuff.shelf.code server.db.archive.shelves).length
          (selectShelves request.stuff.shelf.code server.db.archive.shelves).length
          server.db.faults.tail.tail server.sendFaults) := by
  rw [step, handle_findShelf kind]
  by_cases finds : FindsShelves request server.db
  · have result := srvdbShelfFind_of_finds (findsShelves_opened.mpr finds)
    have same : request.opened.stuff.shelf.code = request.stuff.shelf.code := rfl
    rw [same] at result
    rw [result, answerFind]
    by_cases counting : request.stuff.shelf.code = breakLimitInt
    · have uncopied := fetchResult_uncopied (selectShelves_undecoded counting)
        (request.opened.setExtra
          (selectShelves request.stuff.shelf.code server.db.archive.shelves).length)
        (show (server.db.advance.storeResult
          (selectShelves request.stuff.shelf.code server.db.archive.shelves)
          (if request.stuff.shelf.code = breakLimitInt then 1 else 6)).resRows = _ from rfl)
      exact ⟨fun _ _ listing => absurd counting listing,
        fun _ => sendRows_released_uncopied _ uncopied.1 uncopied.2⟩
    · rw [sendRows_released_iff srvdbShelfFetchResult_fetches (selectShelves_decodes counting) _
        (Nat.lt_succ_self _) _ _ rfl]
      exact ⟨fun freed _ _ => freed, fun frees => frees finds counting⟩
  · have unfound := srvdbShelfFind_of_not_finds fun opened => finds (findsShelves_opened.mp opened)
    have kept := srvdbShelfFind_released released unfound
    rcases result : srvdbShelfFind request.opened server.db with ⟨nrows, db⟩
    rw [result] at unfound kept
    subst unfound
    rw [answerFind, send_db]
    exact ⟨fun _ others => absurd others finds, fun _ => kept⟩

/-- A request that is no find ends with the cursor as it began. -/
theorem step_released {server : Server} {request : MessageCs} (released : server.db.Released)
    (noBooks : request.request ≠ .findBook) (noShelves : request.request ≠ .findShelf) :
    (server.step request).db.Released := by
  have frame := Mysql.KeepsCursor.tableFrame
  cases written : request.archiveRequest with
  | some operation =>
      rw [step_of_archiveRequest written]
      exact (operation.perform_framed frame server.db).released released
  | none =>
      cases kind : request.request with
      | insertBook => simp [MessageCs.archiveRequest, kind] at written
      | deleteBook => simp [MessageCs.archiveRequest, kind] at written
      | updateBook => simp [MessageCs.archiveRequest, kind] at written
      | buildShelf => simp [MessageCs.archiveRequest, kind] at written
      | removeShelf => simp [MessageCs.archiveRequest, kind] at written
      | findBook => exact absurd kind noBooks
      | findShelf => exact absurd kind noShelves
      | countBook =>
          simp only [step, socketSrvHandle, kind, answer_db]
          exact srvdbBookCount_released _ released
      | countShelf =>
          simp only [step, socketSrvHandle, kind, answer_db]
          exact srvdbShelfCount_released _ released
      | verifyAccount => exact (step_framed frame.toAccountFrame (.inl kind)).released released
      | registerAccount =>
          exact (step_framed frame.toAccountFrame (.inr (.inl kind))).released released
      | heartbeat =>
          exact (step_framed frame.toAccountFrame (.inr (.inr kind))).released released

theorem step_released_iff {server : Server} (released : server.db.Released)
    (request : MessageCs) :
    (server.step request).db.Released ↔ server.FreesResult request := by
  cases kind : request.request with
  | findBook =>
      simp only [FreesResult, kind]
      exact step_findBook_released_iff released kind
  | findShelf =>
      simp only [FreesResult, kind]
      exact step_findShelf_released_iff released kind
  | _ =>
      have kept : (server.step request).db.Released :=
        step_released released (by simp [kind]) (by simp [kind])
      simp [FreesResult, kind, kept]

theorem finds_released {server : Server} (released : server.db.Released) (request : MessageCs) :
    ∀ found ∈ server.finds request, found.Released := by
  have first : ∀ found ∈ [server.db], found.Released := by
    intro found member
    rw [List.mem_singleton.mp member]
    exact released
  cases kind : request.request with
  | findBook =>
      simp only [finds, kind]
      exact first
  | findShelf =>
      simp only [finds, kind]
      exact first
  | countShelf =>
      simp only [finds, kind]
      exact first
  | countBook =>
      simp only [finds, kind]
      exact (bookFinds_released (fun _ asked => countQuestions_counting asked) released).1
  | _ => simp [finds, kind]

/-- In every run the results are freed, and none is overwritten, exactly as long as every fetch loop
of the run comes to an end that frees. -/
theorem results_released_iff (server : Server) (started : server.db.Released)
    (requests : List MessageCs) :
    Execution.Always step (fun server => server.db.Released) server requests ∧
        Execution.Along step OverwritesNone server requests ↔
      Execution.Along step FreesResult server requests := by
  have premises : Execution.Along step (fun _ _ => True) server requests :=
    Execution.along_of_forall fun _ _ => trivial
  apply @Execution.always_and_along_iff _ _ step (fun server => server.db.Released) FreesResult
    (fun _ => True) _ OverwritesNone (fun _ _ _ => trivial) _ _ trivial started _ premises
  intro server request _ released _
  have freed := step_released_iff released request
  constructor
  · intro both
    exact freed.mp both.1
  · intro frees
    refine ⟨freed.mpr frees, ?_⟩
    intro found member
    exact (finds_released released request found member).resPtr

/-- A shelf of two books is listed. -/
theorem results_released_on_short_shelf :
    Execution.Always step (fun server => server.db.Released) sample
        [clientShelfInsertBookMsg "reader" sampleTime (sampleBook 1),
          clientShelfInsertBookMsg "reader" sampleTime (sampleBook 1),
          clientShelfLoadingBookMsg "reader" 1 0] ∧
      Execution.Along step OverwritesNone sample
        [clientShelfInsertBookMsg "reader" sampleTime (sampleBook 1),
          clientShelfInsertBookMsg "reader" sampleTime (sampleBook 1),
          clientShelfLoadingBookMsg "reader" 1 0] := by
  apply (results_released_iff sample ⟨rfl, rfl, rfl⟩ _).mpr
  refine ⟨trivial, trivial, ?_, trivial⟩
  intro rows finds _
  have counted := congrArg (Option.map List.length) finds.selects
  have two : rows.length = 2 := Option.some.inj (counted.symm.trans (by decide))
  rw [two]
  decide

/-- A shelf of thirty books is listed, and the client asks for the rest. -/
theorem result_kept_after_full_page :
    ¬ Execution.Always step (fun server => server.db.Released) sample
        (List.replicate 30 (clientShelfInsertBookMsg "reader" sampleTime (sampleBook 1)) ++
          [clientShelfLoadingBookMsg "reader" 1 0]) ∧
      ¬ Execution.Along step OverwritesNone sample
        (List.replicate 30 (clientShelfInsertBookMsg "reader" sampleTime (sampleBook 1)) ++
          [clientShelfLoadingBookMsg "reader" 1 0, clientShelfLoadingBookMsg "reader" 1 30]) := by
  decide +kernel

end Server

end Bookshelfdq
