import Bookshelfdq.Server.Frames
import Bookshelfdq.Server.SocketSrv

/-! # The database across served requests

A request either writes the archive through one of the five functions of
`ArchiveRequest` or leaves it alone, and no request brings back faults of the
connection or alters its settings. -/

namespace Bookshelfdq

/-! ## Frames -/

/-- What every use of the connection respects. -/
structure Mysql.Continues (before after : Mysql) : Prop where
  mode : after.mode = before.mode
  collation : after.collation = before.collation
  faults : before.faults = [] → after.faults = []

/-- What every use of the connection that writes no row respects. -/
structure Mysql.Reads (before after : Mysql) : Prop extends Mysql.Continues before after where
  archive : after.archive = before.archive

namespace Mysql

theorem Continues.refl (db : Mysql) : db.Continues db := ⟨rfl, rfl, id⟩

theorem Continues.trans {first second third : Mysql} (left : first.Continues second)
    (right : second.Continues third) : first.Continues third :=
  ⟨right.mode.trans left.mode, right.collation.trans left.collation,
    fun healthy => right.faults (left.faults healthy)⟩

theorem Reads.refl (db : Mysql) : db.Reads db := ⟨.refl db, rfl⟩

theorem Reads.trans {first second third : Mysql} (left : first.Reads second)
    (right : second.Reads third) : first.Reads third :=
  ⟨left.toContinues.trans right.toContinues, right.archive.trans left.archive⟩

theorem reads_advance (db : Mysql) : db.Reads db.advance :=
  ⟨⟨rfl, rfl, fun healthy => by simp [advance, healthy]⟩, rfl⟩

theorem reads_fail (db : Mysql) : db.Reads db.fail :=
  ⟨⟨rfl, rfl, fun healthy => by simp [fail, advance, healthy]⟩, rfl⟩

theorem reads_storeResult (rows : List ResultRow) (fields : Nat) (db : Mysql) :
    db.Reads (db.storeResult rows fields) :=
  ⟨⟨rfl, rfl, fun healthy => by simp [storeResult, advance, healthy]⟩, rfl⟩

theorem reads_freeResult (db : Mysql) : db.Reads (srvdbFreeResult db) :=
  ⟨⟨rfl, rfl, id⟩, rfl⟩

end Mysql

theorem Mysql.Reads.accountFrame : Mysql.AccountFrame Mysql.Reads where
  refl := .refl
  trans := .trans
  advance := reads_advance
  fail := reads_fail
  accounts _ _ := ⟨⟨rfl, rfl, id⟩, rfl⟩

theorem Mysql.Continues.tableFrame : Mysql.TableFrame Mysql.Continues where
  refl := .refl
  trans := .trans
  advance db := db.reads_advance.toContinues
  fail db := db.reads_fail.toContinues
  accounts _ _ := ⟨rfl, rfl, id⟩
  archive _ _ := ⟨rfl, rfl, id⟩
  affectedRows _ _ := ⟨rfl, rfl, id⟩

/-! ## The reading functions -/

theorem mysqlSelect_eq_reads {db after : Mysql} {accepted : Bool}
    (result : mysqlSelect db = (accepted, after)) : db.Reads after :=
  mysqlSelect_eq_framed Mysql.Reads.accountFrame.toCallFrame result

theorem srvdbBookFind_reads (msg : MessageCs) (db : Mysql) :
    db.Reads (srvdbBookFind msg db).2 := by
  rw [srvdbBookFind]
  split
  · exact .refl db
  · split
    · exact .refl db
    · rename_i rows _
      split
      · exact mysqlSelect_eq_reads ‹_›
      · rename_i queried result
        have selected := mysqlSelect_eq_reads result
        split
        · have failed : queried.Reads { queried.fail with resPtr := none } :=
            ⟨⟨rfl, rfl, queried.reads_fail.faults⟩, rfl⟩
          exact selected.trans failed
        · split
          · exact (selected.trans (queried.reads_storeResult rows 1)).trans
              (Mysql.reads_freeResult _)
          · exact selected.trans (queried.reads_storeResult rows 10)

theorem srvdbBookFind_eq_reads {msg : MessageCs} {db after : Mysql} {nrows : Option Nat}
    (result : srvdbBookFind msg db = (nrows, after)) : db.Reads after := by
  have reads := srvdbBookFind_reads msg db
  rwa [result] at reads

theorem srvdbShelfFind_reads (msg : MessageCs) (db : Mysql) :
    db.Reads (srvdbShelfFind msg db).2 := by
  rw [srvdbShelfFind]
  split
  · exact .refl db
  · dsimp only
    split
    · exact mysqlSelect_eq_reads ‹_›
    · rename_i queried result
      have selected := mysqlSelect_eq_reads result
      split
      · have failed : queried.Reads { queried.fail with resPtr := none } :=
          ⟨⟨rfl, rfl, queried.reads_fail.faults⟩, rfl⟩
        exact selected.trans failed
      · exact selected.trans (queried.reads_storeResult _ _)

theorem fetchResult_reads (decode : ResultRow → MessageCs → Option MessageCs)
    (rows : List ResultRow) (msg : MessageCs) (db : Mysql) :
    db.Reads (fetchResult decode rows msg db).2.2 := by
  have freed : db.Reads (srvdbFreeResult db.advance) :=
    db.reads_advance.trans (Mysql.reads_freeResult _)
  cases rows with
  | nil =>
      simp only [fetchResult]
      split
      · exact db.reads_fail.trans (Mysql.reads_freeResult _)
      · split
        · exact db.reads_advance
        · exact freed
  | cons row rest =>
      simp only [fetchResult]
      split
      · exact db.reads_fail.trans (Mysql.reads_freeResult _)
      · split
        · exact ⟨⟨rfl, rfl, db.reads_advance.faults⟩, rfl⟩
        · exact freed

theorem srvdbBookFetchResult_reads (msg : MessageCs) (db : Mysql) :
    db.Reads (srvdbBookFetchResult msg db).2.2 := by
  rw [srvdbBookFetchResult]
  split
  · exact .refl db
  · exact fetchResult_reads _ _ msg db

theorem srvdbShelfFetchResult_reads (msg : MessageCs) (db : Mysql) :
    db.Reads (srvdbShelfFetchResult msg db).2.2 :=
  fetchResult_reads _ _ msg db

theorem srvdbBookCount_reads (msg : MessageCs) (db : Mysql) :
    db.Reads (srvdbBookCount msg db).2.2 := by
  rw [srvdbBookCount]
  dsimp only
  split
  · exact srvdbBookFind_eq_reads ‹_›
  · rename_i result
    have first := srvdbBookFind_eq_reads result
    split
    · exact first.trans (srvdbBookFind_eq_reads ‹_›)
    · rename_i result
      have second := first.trans (srvdbBookFind_eq_reads result)
      split
      · exact second.trans (srvdbBookFind_eq_reads ‹_›)
      · rename_i result
        have third := second.trans (srvdbBookFind_eq_reads result)
        split
        · exact third.trans (srvdbBookFind_eq_reads ‹_›)
        · exact third.trans (srvdbBookFind_eq_reads ‹_›)

theorem srvdbShelfCount_reads (msg : MessageCs) (db : Mysql) :
    db.Reads (srvdbShelfCount msg db).2.2 := by
  have found := srvdbShelfFind_reads (msg.setShelfno breakLimitInt) db
  simp only [srvdbShelfCount]
  split
  · rename_i result
    rwa [result] at found
  · rename_i result
    rw [result] at found
    exact found.trans (Mysql.reads_freeResult _)

/-! ## One request -/

namespace Server

@[simp] theorem send_db (msg : MessageCs) (server : Server) :
    (server.send msg).2.2.db = server.db := by
  rw [send]
  split <;> rfl

@[simp] theorem answer_db (server : Server) (result : Bool × MessageCs × Mysql) :
    (server.answer result).2.2.db = result.2.2 := send_db _ _

end Server

theorem sendRows_reads {fetch : MessageCs → Mysql → FetchResult × MessageCs × Mysql}
    (reads : ∀ msg (db : Mysql), db.Reads (fetch msg db).2.2) (fuel : Nat) (msg : MessageCs)
    (server : Server) : server.db.Reads (sendRows fetch fuel msg server).2.2.db := by
  induction fuel generalizing msg server with
  | zero => exact .refl _
  | succ fuel induction =>
      have fetched := reads msg server.db
      rw [sendRows]
      split
      · rename_i result
        rwa [result] at fetched
      · rename_i result
        rw [result] at fetched
        simpa using fetched
      · rename_i result
        rw [result] at fetched
        simpa using fetched
      · rename_i row after result
        rw [result] at fetched
        have kept := Server.send_db (row.respond .success) (server.withDb after)
        split
        · rename_i result
          rw [result] at kept
          rw [kept]
          exact fetched
        · rename_i sent next result
          rw [result] at kept
          have reached : server.db.Reads next.db := by
            rw [kept]
            exact fetched
          exact reached.trans (induction _ next)

theorem Server.answerFind_reads {fetch : MessageCs → Mysql → FetchResult × MessageCs × Mysql}
    (reads : ∀ msg (db : Mysql), db.Reads (fetch msg db).2.2) (server : Server) (msg : MessageCs)
    (found : Option Nat × Mysql) : found.2.Reads (server.answerFind fetch msg found).2.2.db := by
  rcases found with ⟨nrows, db⟩
  cases nrows with
  | none =>
      rw [answerFind, send_db]
      exact .refl db
  | some nrows => exact sendRows_reads reads _ _ (server.withDb db)

/-- The function a message reaches that may write the archive. -/
def MessageCs.archiveRequest (request : MessageCs) : Option ArchiveRequest :=
  let msg := { request with response := .success, errorText := "" }
  match request.request with
  | .insertBook => some (.bookInsert msg)
  | .deleteBook => some (.bookDelete msg)
  | .updateBook => some (.bookUpdate msg)
  | .buildShelf => some (.shelfBuild msg)
  | .removeShelf => some (.shelfRemove msg)
  | _ => none

namespace Server

/-- The server after it has handled one request. -/
def step (server : Server) (request : MessageCs) : Server :=
  (socketSrvHandle request server).2.2

theorem step_of_archiveRequest {server : Server} {request : MessageCs}
    {operation : ArchiveRequest} (writes : request.archiveRequest = some operation) :
    (server.step request).db = (operation.perform server.db).2.2 := by
  cases kind : request.request <;>
    simp only [MessageCs.archiveRequest, kind, Option.some.injEq, reduceCtorEq] at writes <;>
    subst writes <;> simp [step, socketSrvHandle, kind, ArchiveRequest.perform]

/-- The requests that concern accounts, and the heartbeat. -/
theorem step_framed {relation : Mysql → Mysql → Prop} (frame : Mysql.AccountFrame relation)
    {server : Server} {request : MessageCs}
    (kind : request.request = .verifyAccount ∨ request.request = .registerAccount ∨
      request.request = .heartbeat) : relation server.db (server.step request).db := by
  have calls := frame.toCallFrame
  rcases kind with kind | kind | kind
  · have verified := srvdbAccountVerify_framed calls server.bcrypt
      { request with response := .success, errorText := "" } server.db
    simp only [kind] at verified
    simp only [step, socketSrvHandle, kind]
    split
    · rename_i result
      rw [result] at verified
      simpa using verified
    · rename_i result
      rw [result] at verified
      split
      · rw [answer_db]
        exact calls.trans verified (srvdbUserArchiveInit_framed calls _)
      · simpa using verified
  · simp only [step, socketSrvHandle, kind, answer_db]
    exact srvdbAccountRegister_framed frame _ _ _ _
  · simp only [step, socketSrvHandle, kind]
    exact calls.refl _

theorem step_reads {server : Server} {request : MessageCs}
    (readsOnly : request.archiveRequest = none) : server.db.Reads (server.step request).db := by
  cases kind : request.request with
  | insertBook => simp [MessageCs.archiveRequest, kind] at readsOnly
  | deleteBook => simp [MessageCs.archiveRequest, kind] at readsOnly
  | updateBook => simp [MessageCs.archiveRequest, kind] at readsOnly
  | buildShelf => simp [MessageCs.archiveRequest, kind] at readsOnly
  | removeShelf => simp [MessageCs.archiveRequest, kind] at readsOnly
  | findBook =>
      simp only [step, socketSrvHandle, kind]
      exact (srvdbBookFind_reads _ _).trans (answerFind_reads srvdbBookFetchResult_reads _ _ _)
  | countBook =>
      simp only [step, socketSrvHandle, kind, answer_db]
      exact srvdbBookCount_reads _ _
  | findShelf =>
      simp only [step, socketSrvHandle, kind]
      exact (srvdbShelfFind_reads _ _).trans (answerFind_reads srvdbShelfFetchResult_reads _ _ _)
  | countShelf =>
      simp only [step, socketSrvHandle, kind, answer_db]
      exact srvdbShelfCount_reads _ _
  | verifyAccount => exact step_framed Mysql.Reads.accountFrame (.inl kind)
  | registerAccount => exact step_framed Mysql.Reads.accountFrame (.inr (.inl kind))
  | heartbeat => exact step_framed Mysql.Reads.accountFrame (.inr (.inr kind))

theorem step_continues (server : Server) (request : MessageCs) :
    server.db.Continues (server.step request).db := by
  cases written : request.archiveRequest with
  | none => exact (step_reads written).toContinues
  | some operation =>
      rw [step_of_archiveRequest written]
      exact operation.perform_framed Mysql.Continues.tableFrame server.db

theorem step_wellNumbered (server : Server) (request : MessageCs)
    (numbered : server.db.archive.WellNumbered) :
    (server.step request).db.archive.WellNumbered := by
  cases written : request.archiveRequest with
  | none =>
      rw [(step_reads written).archive]
      exact numbered
  | some operation =>
      rw [step_of_archiveRequest written]
      exact operation.perform_wellNumbered server.db numbered

end Server

/-! ## Rows -/

section Rows

variable {holds : BookRow → Prop} (cleans : ∀ row cleaned, holds row → holds (row.clean cleaned))

include cleans

theorem Archive.cleanBooks_rows {archive : Archive} (rows : ∀ row ∈ archive.books, holds row)
    (cleaned : BookCleaned) (selected : BookRow → Bool) :
    ∀ row ∈ (archive.cleanBooks cleaned selected).books, holds row := by
  intro row member
  rcases List.mem_map.mp member with ⟨old, oldMem, rfl⟩
  split
  · exact cleans old cleaned (rows old oldMem)
  · exact rows old oldMem

theorem ArchiveRequest.perform_rows {db : Mysql} {request : ArchiveRequest}
    (numbered : db.archive.WellNumbered) (rows : ∀ row ∈ db.archive.books, holds row)
    (writes : ∀ msg, request = .bookInsert msg ∨ request = .bookUpdate msg →
      ∀ bookno row, msg.stuff.book.row db.mode bookno = some row → holds row) :
    ∀ row ∈ (request.perform db).2.2.archive.books, holds row := by
  cases request with
  | bookInsert msg =>
      intro row member
      rcases (bookAllocation db.mode msg.stuff.book).allocate_mem msg db numbered.1 member with
        old | ⟨old, renews⟩ | ⟨number, creates⟩
      · exact rows row old
      · exact writes msg (.inl rfl) _ _ renews
      · exact writes msg (.inl rfl) _ _ creates
  | bookDelete msg =>
      rcases srvdbBookDelete_cases msg db with ⟨after, result, archive⟩ | ⟨after, result, archive⟩
      · rw [perform, result, archive]
        exact rows
      · rw [perform, result, archive]
        exact Archive.cleanBooks_rows cleans rows _ _
  | bookUpdate msg =>
      rcases srvdbBookUpdate_cases msg db with ⟨after, result, archive⟩ |
        ⟨after, result, _, archive⟩ | ⟨after, books, result, _, updated, archive⟩
      · rw [perform, result, archive]
        exact rows
      · rw [perform, result, archive]
        exact Archive.cleanBooks_rows cleans rows _ _
      · rw [perform, result, archive]
        intro row member
        rcases Table.exists_source_of_mem updated member with ⟨old, oldMem, becomes⟩
        rw [Table.Becomes] at becomes
        split at becomes
        · exact writes msg (.inr rfl) _ _ becomes
        · exact Option.some.inj becomes ▸ rows old oldMem
  | shelfBuild msg =>
      rw [perform, srvdbShelfBuild_books _ _ numbered.2]
      exact rows
  | shelfRemove msg =>
      rcases srvdbShelfRemove_cases msg db with ⟨after, result, archive⟩ |
        ⟨after, result, archive⟩
      · rw [perform, result, archive]
        exact rows
      · rw [perform, result, archive]
        exact rows

/-- What holds of every row, and of every row that a request writes, holds of every row
after the request. -/
theorem Server.step_rows {server : Server} {request : MessageCs}
    (numbered : server.db.archive.WellNumbered)
    (rows : ∀ row ∈ server.db.archive.books, holds row)
    (writes : request.request = .insertBook ∨ request.request = .updateBook →
      ∀ bookno row, request.stuff.book.row server.db.mode bookno = some row → holds row) :
    ∀ row ∈ (server.step request).db.archive.books, holds row := by
  cases written : request.archiveRequest with
  | none =>
      rw [(step_reads written).archive]
      exact rows
  | some operation =>
      rw [step_of_archiveRequest written]
      apply ArchiveRequest.perform_rows cleans numbered rows
      rintro msg (rfl | rfl)
      · cases kind : request.request <;>
          simp only [MessageCs.archiveRequest, kind, Option.some.injEq, reduceCtorEq,
            ArchiveRequest.bookInsert.injEq] at written
        rw [← written]
        exact writes (.inl kind)
      · cases kind : request.request <;>
          simp only [MessageCs.archiveRequest, kind, Option.some.injEq, reduceCtorEq,
            ArchiveRequest.bookUpdate.injEq] at written
        rw [← written]
        exact writes (.inr kind)

end Rows

end Bookshelfdq
