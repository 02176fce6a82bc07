import Bookshelfdq.Foundation.Execution
import Bookshelfdq.Foundation.Numbering
import Bookshelfdq.Server.SplicedEffects

/-! # Numbering under spliced statements

Any sequence of the five writing functions on plain messages, with any pattern of failing queries
and fetches, keeps the numbers in both tables gap free and within their limits. -/

namespace Bookshelfdq.Spliced

open Sql

/-! ## Queries -/

section Queries

variable (server : Server) (chunks : Chunks) (connection : Connection)

theorem mysqlQuery_cases :
    mysqlQuery server chunks connection = (none, connection.fail) ∨
      ∃ outcome, server.execute chunks.text connection.tables = some outcome ∧
        mysqlQuery server chunks connection =
          (some outcome, { connection.advance with tables := outcome.tables }) := by
  rw [mysqlQuery]
  split
  · exact .inl rfl
  · cases server.execute chunks.text connection.tables with
    | none => exact .inl rfl
    | some outcome => exact .inr ⟨outcome, rfl, rfl⟩

theorem getSimpleResult_cases (selected : Option Int) :
    getSimpleResult selected connection = (none, connection.fail) ∨
      getSimpleResult selected connection = (selected, connection.advance) := by
  rw [getSimpleResult]
  split
  · exact .inl rfl
  · exact .inr rfl

variable {server chunks}

/-- A selection leaves the tables as they are. -/
theorem mysqlQuery_selects {Column : Type} {part : Part Column}
    {value : List (Row Column) → Option Int} (selects : part.Selects server chunks value) :
    mysqlQuery server chunks connection = (none, connection.fail) ∨
      mysqlQuery server chunks connection =
        (some ⟨connection.tables, 0, value (part.rows connection.tables)⟩,
          connection.advance) := by
  rcases mysqlQuery_cases server chunks connection with failed | ⟨outcome, executed, result⟩
  · exact .inl failed
  · rw [selects] at executed
    obtain rfl := Option.some.inj executed
    exact .inr result

end Queries

/-! ## Allocations -/

/-- What the texts of an allocation do. -/
structure Allocating.Meant {Fields Column : Type} [Fintype Column] [DecidableEq Column]
    (alloc : Allocating Fields) (part : Part Column) (server : Server) : Prop where
  smallest : part.Selects server alloc.minText (Table.smallest Row.number part.deleted)
  largest : part.Selects server alloc.maxText (Table.largest Row.number)
  renews : ∀ number, Refused server (alloc.renewText number) ∨ ∃ change,
    (∀ row changed, change row = some changed →
      changed.number = row.number ∧ part.available changed = true) ∧
    part.Updates server (alloc.renewText number) (fun row => row.number == number) change
  creates : ∀ number, 0 < number → Refused server (alloc.createText number) ∨ ∃ made,
    (∀ row, made = some row → row.number = number ∧ part.available row = true) ∧
    part.Inserts server (alloc.createText number) made

/-- The rows of a table after a number has been given out, and nothing else has changed. -/
structure Part.Given {Column : Type} (part : Part Column) (number : Int) (before after : Tables) :
    Prop where
  taken : Table.Taken Row.number part.deleted part.available number (part.rows before)
    (part.rows after)
  only : after = part.replace (part.rows after) before

namespace Allocating

variable {Fields Column : Type} [Fintype Column] [DecidableEq Column] {alloc : Allocating Fields}
  {part : Part Column} {server : Server} (meant : alloc.Meant part server)
  (msg : Message Fields) (connection : Connection)

/-- What an insertion or a build owes its caller, judged on the tables before it. -/
structure Contract (alloc : Allocating Fields) (part : Part Column) (msg : Message Fields)
    (before : Tables) (result : Bool × Message Fields × Connection) : Prop where
  numbered : Table.Within Row.number alloc.capacity (part.rows result.2.2.tables)
  given : result.1 = true → ∃ number, result.2.1 = alloc.record number msg ∧
    part.Given number before result.2.2.tables
  unchanged : result.1 = false → result.2.2.tables = before
  refusal : cString msg.user ≠ [] → result.2.2.failed = false →
    (result.1 = false ∧ result.2.1.errorText = alloc.fullText ↔
      Table.Full Row.number part.deleted alloc.capacity (part.rows before))

include meant

/-- The first path gives out the smallest deleted number, or leaves the tables alone; without a
failure it does so where no number is deleted. -/
theorem reuse_cases
    (within : Table.Within Row.number alloc.capacity (part.rows connection.tables)) :
    (∃ number after, alloc.reuse server msg connection = (some (alloc.record number msg), after) ∧
      Table.smallest Row.number part.deleted (part.rows connection.tables) = some number ∧
      Table.Within Row.number alloc.capacity (part.rows after.tables) ∧
      part.Given number connection.tables after.tables) ∨
    (∃ after, alloc.reuse server msg connection = (none, after) ∧
      after.tables = connection.tables ∧ (after.failed = false → connection.failed = false ∧
        Table.smallest Row.number part.deleted (part.rows connection.tables) = none)) := by
  rw [reuse]
  rcases mysqlQuery_selects connection meant.smallest with failed | selected
  · rw [failed]
    exact .inr ⟨_, rfl, rfl, fun healthy => by cases healthy⟩
  · rw [selected]
    dsimp only
    rcases getSimpleResult_cases connection.advance
      (Table.smallest Row.number part.deleted (part.rows connection.tables)) with
      failed | fetched
    · rw [failed]
      exact .inr ⟨_, rfl, rfl, fun healthy => by cases healthy⟩
    · rw [fetched]
      cases least : Table.smallest Row.number part.deleted (part.rows connection.tables) with
      | none => exact .inr ⟨_, rfl, rfl, fun healthy => ⟨healthy, rfl⟩⟩
      | some number =>
          dsimp only
          rcases mysqlQuery_cases server (alloc.renewText number) connection.advance.advance with
            failed | ⟨outcome, executed, result⟩
          · rw [failed]
            exact .inr ⟨_, rfl, rfl, fun healthy => by cases healthy⟩
          · rw [result]
            rw [Connection.advance_tables, Connection.advance_tables] at executed
            rcases meant.renews number with refused | ⟨change, fresh, updates⟩
            · rw [refused] at executed
              cases executed
            · rw [updates] at executed
              rcases Option.map_eq_some_iff.mp executed with ⟨rows, updated, rfl⟩
              have keeps : ∀ row changed, change row = some changed →
                  changed.number = row.number := fun row changed becomes =>
                (fresh row changed becomes).1
              have one := Table.affected_smallest_eq_one within.nodup
                (fun row changed becomes =>
                  part.deleted_of_available (fresh row changed becomes).2) least
              dsimp only
              rw [if_pos one]
              refine .inl ⟨number, _, rfl, rfl, ?_, ?_, ?_⟩
              · rw [part.rows_replace]
                exact within.update keeps updated
              · rw [part.rows_replace]
                exact Table.taken_of_update keeps within
                  (fun row changed becomes => (fresh row changed becomes).2) least updated
              · rw [part.rows_replace]

/-- A number that is the next one is given out, or the query fails. -/
theorem insertAt_cases {number : Int} (positive : 1 ≤ alloc.capacity)
    (within : Table.Within Row.number alloc.capacity (part.rows connection.tables))
    (next : number = 1 ∨ ∃ last,
      Table.largest Row.number (part.rows connection.tables) = some last ∧
      last < alloc.capacity ∧ number = last + 1) :
    (∃ after, alloc.insertAt server number msg connection =
        (true, alloc.record number msg, after) ∧
      Table.Within Row.number alloc.capacity (part.rows after.tables) ∧
      part.Given number connection.tables after.tables ∧ after.failed = connection.failed) ∨
    (∃ answer after, alloc.insertAt server number msg connection = (false, answer, after) ∧
      after.tables = connection.tables ∧ after.failed = true) := by
  have above : 0 < number := by
    rcases next with first | ⟨last, most, _, behind⟩
    · omega
    · rcases within.largest_eq with ⟨count, _, _, biggest⟩
      rw [biggest] at most
      split at most
      · cases most
      · obtain rfl := Option.some.inj most
        omega
  rw [insertAt]
  rcases mysqlQuery_cases server (alloc.createText number) connection with
    failed | ⟨outcome, executed, result⟩
  · rw [failed]
    exact .inr ⟨_, _, rfl, rfl, rfl⟩
  · rw [result]
    rcases meant.creates number above with refused | ⟨made, fresh, inserts⟩
    · rw [refused] at executed
      cases executed
    · rw [inserts] at executed
      rcases Option.bind_eq_some_iff.mp executed with ⟨row, makes, executed⟩
      rcases Option.map_eq_some_iff.mp executed with ⟨rows, inserted, rfl⟩
      rcases Table.insert_eq_some_iff.mp inserted with ⟨absent, rfl⟩
      rcases fresh row makes with ⟨rfl, live⟩
      refine .inl ⟨_, rfl, ?_, ⟨?_, ?_⟩, rfl⟩
      · dsimp only
        rw [part.rows_replace]
        exact within.append positive absent next
      · dsimp only
        rw [part.rows_replace]
        exact Table.taken_of_append absent live
      · dsimp only
        rw [part.rows_replace]

/-- How the second path can end. The last case is the only one in which a refusal comes without a
failure. -/
theorem extend_cases (positive : 1 ≤ alloc.capacity)
    (within : Table.Within Row.number alloc.capacity (part.rows connection.tables)) :
    (∃ number after, alloc.extend server msg connection =
        (true, alloc.record number msg, after) ∧
      Table.Within Row.number alloc.capacity (part.rows after.tables) ∧
      part.Given number connection.tables after.tables ∧
      (after.failed = false → ∀ last,
        Table.largest Row.number (part.rows connection.tables) = some last →
          last < alloc.capacity)) ∨
    (∃ answer after, alloc.extend server msg connection = (false, answer, after) ∧
      after.tables = connection.tables ∧ after.failed = true) ∨
    (∃ last after, alloc.extend server msg connection =
        (false, { msg with errorText := alloc.fullText }, after) ∧
      after.tables = connection.tables ∧ after.failed = connection.failed ∧
      Table.largest Row.number (part.rows connection.tables) = some last ∧
      alloc.capacity ≤ last) := by
  rw [extend]
  rcases mysqlQuery_selects connection meant.largest with failed | selected
  · rw [failed]
    exact .inr (.inl ⟨_, _, rfl, rfl, rfl⟩)
  · rw [selected]
    dsimp only
    rcases getSimpleResult_cases connection.advance
      (Table.largest Row.number (part.rows connection.tables)) with failed | fetched
    · -- the failed fetch is taken for an empty table
      rw [failed]
      rcases insertAt_cases meant msg connection.advance.fail positive within (.inl rfl) with
        ⟨after, result, numbered, given, failed⟩ | ⟨answer, after, result, same, failed⟩
      · refine .inl ⟨1, after, result, numbered, given, fun healthy => ?_⟩
        rw [failed] at healthy
        cases healthy
      · exact .inr (.inl ⟨answer, after, result, same, failed⟩)
    · rw [fetched]
      cases biggest : Table.largest Row.number (part.rows connection.tables) with
      | none =>
          dsimp only
          rcases insertAt_cases meant msg connection.advance.advance positive within (.inl rfl) with
            ⟨after, result, numbered, given, failed⟩ | ⟨answer, after, result, same, failed⟩
          · exact .inl ⟨1, after, result, numbered, given, fun _ last none => by cases none⟩
          · exact .inr (.inl ⟨answer, after, result, same, failed⟩)
      | some last =>
          dsimp only
          split
          case isTrue full => exact .inr (.inr ⟨last, _, rfl, rfl, rfl, rfl, full⟩)
          case isFalse room =>
            have below : last < alloc.capacity := Int.not_le.mp room
            rcases insertAt_cases meant msg connection.advance.advance positive within
              (.inr ⟨last, biggest, below, rfl⟩) with
              ⟨after, result, numbered, given, failed⟩ | ⟨answer, after, result, same, failed⟩
            · refine .inl ⟨last + 1, after, result, numbered, given, fun _ other same => ?_⟩
              obtain rfl := Option.some.inj same
              exact below
            · exact .inr (.inl ⟨answer, after, result, same, failed⟩)

omit meant in
theorem allocate_contract (means : cString msg.user ≠ [] → alloc.Meant part server)
    (positive : 1 ≤ alloc.capacity)
    (within : Table.Within Row.number alloc.capacity (part.rows connection.tables)) :
    alloc.Contract part msg connection.tables (alloc.allocate server msg connection) := by
  rw [allocate]
  by_cases anonymous : cString msg.user = []
  · rw [if_pos anonymous]
    exact ⟨within, fun given => (by cases given), fun _ => rfl,
      fun named => absurd anonymous named⟩
  · rw [if_neg anonymous]
    have meant := means anonymous
    have full := @Table.full_iff _ Row.number part.deleted _ _ within positive
    rcases reuse_cases meant msg connection within with
      ⟨number, after, result, least, numbered, given⟩ | ⟨middle, result, same, healthy⟩ <;>
      rw [result]
    · refine ⟨numbered, fun _ => ⟨number, rfl, given⟩, fun refused => (by cases refused), ?_⟩
      intro _ _
      constructor
      · intro refused
        cases refused.1
      · intro isFull
        rw [(full.mp isFull).1] at least
        cases least
    · dsimp only
      rw [← same] at within full healthy ⊢
      rcases extend_cases meant msg middle positive within with
        ⟨number, after, result, numbered, given, room⟩ | ⟨answer, after, result, same, failed⟩ |
        ⟨last, after, result, same, failed, biggest, reached⟩ <;> rw [result]
      · refine ⟨numbered, fun _ => ⟨number, rfl, given⟩, fun refused => (by cases refused), ?_⟩
        intro _ success
        constructor
        · intro refused
          cases refused.1
        · intro isFull
          rcases (full.mp isFull).2 with ⟨last, biggest, reached⟩
          have below := room success last biggest
          omega
      · refine ⟨same ▸ within, fun given => (by cases given), fun _ => same, ?_⟩
        intro _ success
        rw [failed] at success
        cases success
      · refine ⟨same ▸ within, fun given => (by cases given), fun _ => same, ?_⟩
        intro _ success
        rw [failed] at success
        constructor
        · intro _
          exact full.mpr ⟨(healthy success).2, last, biggest, reached⟩
        · intro _
          exact ⟨rfl, rfl⟩

end Allocating

section Functions

variable {server : Server} (named : IsName server.owner) (keeps : server.KeepsAvailable)
include named keeps

theorem bookAllocating_meant {book : BookFields} (plain : book.Plain) :
    (bookAllocating server.owner book).Meant bookPart server := by
  have hold := books_hold server
  constructor
  · exact hold.smallest (minText_meaning named.lexes_books lexes_bookno) rfl
  · exact hold.largest (maxText_meaning named.lexes_books lexes_bookno)
  · intro number
    rcases flags_cases (bookRenewText_meaning named plain number) with
      refused | ⟨borrowed, onReading, means⟩
    · exact .inl (execute_refused refused)
    · refine .inr ⟨_, fun row changed assigned => ?_, hold.updates means rfl rfl⟩
      refine Part.available_assign keeps.book ?_ List.mem_cons_self assigned
      show ([.cleaned, .shelfno, .floorno, .name, .author, .label, .borrowed, .onReading,
        .encodingTime] : List BookColumn).Nodup
      decide
  · intro number positive
    rcases flags_cases (bookCreateText_meaning named plain number) with
      refused | ⟨borrowed, onReading, means⟩
    · exact .inl (execute_refused refused)
    · refine .inr ⟨_, fun row assigned => ?_, hold.inserts positive means rfl⟩
      refine Part.available_assign keeps.book ?_ (List.mem_of_getElem? (i := 7) rfl) assigned
      show ([.shelfno, .floorno, .name, .author, .label, .borrowed, .onReading, .cleaned,
        .encodingTime] : List BookColumn).Nodup
      decide

theorem shelfAllocating_meant {stack : List UInt8} {shelf : ShelfFields} (plain : shelf.Plain) :
    (shelfAllocating server.owner stack shelf).Meant shelfPart server := by
  have hold := shelves_hold server
  constructor
  · exact hold.smallest (minText_meaning named.lexes_shelves lexes_shelfno) rfl
  · exact hold.largest (maxText_meaning named.lexes_shelves lexes_shelfno)
  · intro number
    have means := @shelfRenewText_meaning _ named stack _ plain number
    refine .inr ⟨_, fun row changed assigned => ?_, hold.updates means rfl rfl⟩
    refine Part.available_assign keeps.shelf ?_ List.mem_cons_self assigned
    show ([.cleaned, .name, .nfloors, .floorDepth, .buildingTime] : List ShelfColumn).Nodup
    decide
  · intro number positive
    have means := @shelfCreateText_meaning _ named stack _ plain number
    refine .inr ⟨_, fun row assigned => ?_, hold.inserts positive means rfl⟩
    refine Part.available_assign keeps.shelf ?_ (List.mem_of_getElem? (i := 3) rfl) assigned
    show ([.name, .nfloors, .floorDepth, .cleaned, .buildingTime] : List ShelfColumn).Nodup
    decide

end Functions

/-! ## Requests -/

inductive Request
  | bookInsert (msg : Message BookFields)
  | bookDelete (msg : Message BookFields)
  | bookUpdate (msg : Message BookFields)
  | shelfBuild (stack : List UInt8) (msg : Message ShelfFields)
  | shelfRemove (msg : Message ShelfFields)

namespace Request

def user : Request → List UInt8
  | bookInsert msg => cString msg.user
  | bookDelete msg => cString msg.user
  | bookUpdate msg => cString msg.user
  | shelfBuild _ msg => cString msg.user
  | shelfRemove msg => cString msg.user

/-- What the request splices in besides its user is plain. -/
def PlainFields : Request → Prop
  | bookInsert msg => msg.fields.Plain
  | bookDelete _ => True
  | bookUpdate msg => msg.fields.namesShelf = false → msg.fields.Plain
  | shelfBuild _ msg => msg.fields.Plain
  | shelfRemove _ => True

/-- No user is set, or it is the owner of the tables and what is spliced in is plain. -/
def Plain (owner : List UInt8) (request : Request) : Prop :=
  request.user = [] ∨ request.user = owner ∧ IsName owner ∧ request.PlainFields

theorem Plain.named {owner : List UInt8} {request : Request} (plain : request.Plain owner)
    (some : request.user ≠ []) : request.user = owner ∧ IsName owner ∧ request.PlainFields :=
  plain.resolve_left some

def perform (server : Server) (connection : Connection) : Request → Connection
  | bookInsert msg => (srvdbBookInsert server msg connection).2.2
  | bookDelete msg => (srvdbBookDelete server msg connection).2
  | bookUpdate msg => (srvdbBookUpdate server msg connection).2
  | shelfBuild stack msg => (srvdbShelfBuild server stack msg connection).2.2
  | shelfRemove msg => (srvdbShelfRemove server msg connection).2

/-- `failed` is cleared first, so that afterwards it speaks about this call. -/
def step (server : Server) (connection : Connection) (request : Request) : Connection :=
  request.perform server { connection with failed := false }

/-- What an insertion or a build owes its caller, judged on the tables before it. -/
def Honoured (server : Server) (connection : Connection) : Request → Prop
  | bookInsert msg =>
      (bookAllocating (cString msg.user) msg.fields).Contract bookPart msg connection.tables
        (srvdbBookInsert server msg { connection with failed := false })
  | shelfBuild stack msg =>
      (shelfAllocating (cString msg.user) stack msg.fields).Contract shelfPart msg
        connection.tables (srvdbShelfBuild server stack msg { connection with failed := false })
  | _ => True

end Request

def Tables.WellNumbered (tables : Tables) : Prop :=
  Table.Within Row.number maxBookNum tables.books ∧
    Table.Within Row.number maxShelfNum tables.shelves

/-! ## Steps -/

/-- A function that sends one statement rewrites rows of its table. -/
theorem send_wellNumbered {Column : Type} [Fintype Column] [DecidableEq Column]
    {part : Part Column} {server : Server} {user : List UInt8} {chunks : Chunks} {capacity : Nat}
    (rewrites : user ≠ [] → part.Rewrites server chunks) {connection : Connection}
    (within : Table.Within Row.number capacity (part.rows connection.tables)) :
    ∃ rows, (send server user chunks connection).2.tables =
        part.replace rows connection.tables ∧ Table.Within Row.number capacity rows := by
  have same := part.replace_rows connection.tables
  rw [Spliced.send]
  split
  case isTrue => exact ⟨_, same.symm, within⟩
  case isFalse some =>
    rcases mysqlQuery_cases server chunks connection with failed | ⟨outcome, executed, result⟩
    · rw [failed]
      exact ⟨_, same.symm, within⟩
    · rw [result]
      rcases rewrites some with refused | ⟨selected, change, keeps, updates⟩
      · rw [refused] at executed
        cases executed
      · rw [updates] at executed
        rcases Option.map_eq_some_iff.mp executed with ⟨rows, updated, rfl⟩
        exact ⟨rows, rfl, within.update keeps updated⟩

/-- An allocation changes its own table only. -/
theorem Allocating.Contract.replaced {Fields Column : Type} {alloc : Allocating Fields}
    {part : Part Column} {msg : Message Fields} {before : Tables}
    {result : Bool × Message Fields × Connection}
    (contract : alloc.Contract part msg before result) :
    ∃ rows, result.2.2.tables = part.replace rows before ∧
      Table.Within Row.number alloc.capacity rows := by
  cases outcome : result.1 with
  | true =>
      rcases contract.given outcome with ⟨number, _, given⟩
      exact ⟨_, given.only, contract.numbered⟩
  | false =>
      have same := contract.unchanged outcome
      exact ⟨_, same.trans (part.replace_rows before).symm, same ▸ contract.numbered⟩

section Steps

variable {server : Server} (keeps : server.KeepsAvailable)
include keeps

theorem srvdbBookInsert_contract {msg : Message BookFields}
    (plain : (Request.bookInsert msg).Plain server.owner) (connection : Connection)
    (within : Table.Within Row.number maxBookNum connection.tables.books) :
    (bookAllocating (cString msg.user) msg.fields).Contract bookPart msg connection.tables
      (srvdbBookInsert server msg connection) := by
  have capacity : 1 ≤ maxBookNum := by decide
  refine Allocating.allocate_contract msg connection ?_ capacity within
  intro some
  rcases plain.named some with ⟨owner, named, fields⟩
  rw [Request.user] at owner
  rw [owner]
  exact bookAllocating_meant named keeps fields

theorem srvdbShelfBuild_contract {stack : List UInt8} {msg : Message ShelfFields}
    (plain : (Request.shelfBuild stack msg).Plain server.owner) (connection : Connection)
    (within : Table.Within Row.number maxShelfNum connection.tables.shelves) :
    (shelfAllocating (cString msg.user) stack msg.fields).Contract shelfPart msg
      connection.tables (srvdbShelfBuild server stack msg connection) := by
  have capacity : 1 ≤ maxShelfNum := by decide
  refine Allocating.allocate_contract msg connection ?_ capacity within
  intro some
  rcases plain.named some with ⟨owner, named, fields⟩
  rw [Request.user] at owner
  rw [owner]
  exact shelfAllocating_meant named keeps fields

theorem perform_wellNumbered {request : Request} (plain : request.Plain server.owner)
    {connection : Connection} (numbered : connection.tables.WellNumbered) :
    (request.perform server connection).tables.WellNumbered := by
  rcases numbered with ⟨books, shelves⟩
  cases request with
  | bookInsert msg =>
      rcases (srvdbBookInsert_contract keeps plain connection books).replaced with
        ⟨rows, replaced, within⟩
      rw [Request.perform, replaced]
      exact ⟨within, shelves⟩
  | bookDelete msg =>
      have sent := @send_wellNumbered _ _ _ bookPart server (cString msg.user)
        (bookDeleteText (cString msg.user) msg.fields) maxBookNum ?_ connection books
      · rcases sent with ⟨rows, replaced, within⟩
        rw [Request.perform, srvdbBookDelete, replaced]
        exact ⟨within, shelves⟩
      · intro some
        rcases plain.named some with ⟨owner, named, _⟩
        rw [Request.user] at owner
        rw [owner]
        exact bookDeleteText_rewrites named msg.fields
  | bookUpdate msg =>
      have sent := @send_wellNumbered _ _ _ bookPart server (cString msg.user)
        (bookUpdateText (cString msg.user) msg.fields) maxBookNum ?_ connection books
      · rcases sent with ⟨rows, replaced, within⟩
        rw [Request.perform, srvdbBookUpdate, replaced]
        exact ⟨within, shelves⟩
      · intro some
        rcases plain.named some with ⟨owner, named, fields⟩
        rw [Request.user] at owner
        rw [owner]
        exact bookUpdateText_rewrites named fields
  | shelfBuild stack msg =>
      rcases (srvdbShelfBuild_contract keeps plain connection shelves).replaced with
        ⟨rows, replaced, within⟩
      rw [Request.perform, replaced]
      exact ⟨books, within⟩
  | shelfRemove msg =>
      have sent := @send_wellNumbered _ _ _ shelfPart server (cString msg.user)
        (shelfRemoveText (cString msg.user) msg.fields) maxShelfNum ?_ connection shelves
      · rcases sent with ⟨rows, replaced, within⟩
        rw [Request.perform, srvdbShelfRemove, replaced]
        exact ⟨books, within⟩
      · intro some
        rcases plain.named some with ⟨owner, named, _⟩
        rw [Request.user] at owner
        rw [owner]
        exact shelfRemoveText_rewrites named msg.fields

theorem honoured_of_wellNumbered {request : Request} (plain : request.Plain server.owner)
    {connection : Connection} (numbered : connection.tables.WellNumbered) :
    request.Honoured server connection := by
  cases request with
  | bookInsert msg =>
      exact srvdbBookInsert_contract keeps plain { connection with failed := false } numbered.1
  | shelfBuild stack msg =>
      exact srvdbShelfBuild_contract keeps plain { connection with failed := false } numbered.2
  | bookDelete msg => trivial
  | bookUpdate msg => trivial
  | shelfRemove msg => trivial

end Steps

/-- Along every run of plain requests from empty tables, whatever fails, the numbers in use are
`1, …, n` and `1, …, m` within the limits, and every insertion and build honours its contract. -/
theorem plain_runs_keep_numbering {server : Server} (keeps : server.KeepsAvailable)
    (faults : List Bool) {requests : List Request}
    (plain : ∀ request ∈ requests, request.Plain server.owner) :
    Execution.Always (Request.step server) (fun connection => connection.tables.WellNumbered)
        (.fresh faults) requests ∧
      Execution.Along (Request.step server) (fun connection request =>
        request.Honoured server connection) (.fresh faults) requests := by
  have along := @Execution.along_of_forall _ _ (Request.step server) _ _ plain (.fresh faults)
  refine Execution.always_and_along_of_along ?_ (fun _ numbered => numbered) ?_ ?_ along
  · intro connection request numbered plain
    exact perform_wellNumbered keeps plain numbered
  · intro connection request numbered plain
    exact honoured_of_wellNumbered keeps plain numbered
  · exact ⟨⟨0, by decide, rfl⟩, ⟨0, by decide, rfl⟩⟩

/-! ## A run

Two shelves are built and the first one is removed. The message of the last build carries the depth
44, a backslash in its text, and the time stamp ` #`: the `UPDATE` loses its condition and changes
both rows, and the `INSERT` is refused. -/

/-- The columns take any value, and no other text is understood. -/
def sampleServer : Server where
  owner := ascii "reader"
  bookStore _ value := some value
  shelfStore _ value := some value
  other _ _ := none

def sampleBuild (depth : UInt8) (buildingTime : String) : Request :=
  .shelfBuild []
    { user := ascii "reader"
      fields :=
        { code := 0
          name := ascii "x"
          nfloors := 1
          ndepth := [depth]
          buildingTime := ascii buildingTime }
      errorText := "" }

def sampleRemoval : Request :=
  .shelfRemove
    { user := ascii "reader"
      fields := { code := 1, name := [], nfloors := 0, ndepth := [], buildingTime := [] }
      errorText := "" }

theorem sampleBuild_plain : (sampleBuild 4 "2017/03/04").Plain sampleServer.owner :=
  .inr ⟨rfl, ⟨by decide, by decide, by decide⟩, ⟨by decide, by decide, by decide⟩⟩

theorem sampleRemoval_plain : sampleRemoval.Plain sampleServer.owner :=
  .inr ⟨rfl, ⟨by decide, by decide, by decide⟩, trivial⟩

theorem sampleServer_keeps : sampleServer.KeepsAvailable := ⟨rfl, rfl⟩

theorem sample_run_numbered :
    Execution.Always (Request.step sampleServer) (fun connection => connection.tables.WellNumbered)
        (.fresh [false, true])
        [sampleBuild 4 "2017/03/04", sampleBuild 4 "2017/03/04", sampleRemoval] ∧
      Execution.Along (Request.step sampleServer) (fun connection request =>
        request.Honoured sampleServer connection) (.fresh [false, true])
        [sampleBuild 4 "2017/03/04", sampleBuild 4 "2017/03/04", sampleRemoval] := by
  refine plain_runs_keep_numbering sampleServer_keeps [false, true] fun request member => ?_
  rcases List.mem_cons.mp member with rfl | member
  · exact sampleBuild_plain
  · rcases List.mem_cons.mp member with rfl | member
    · exact sampleBuild_plain
    · obtain rfl := List.mem_singleton.mp member
      exact sampleRemoval_plain

theorem build_without_condition :
    ¬ Execution.Along (Request.step sampleServer) (fun connection request =>
      request.Honoured sampleServer connection) (.fresh [])
      [sampleBuild 4 "2017/03/04", sampleBuild 4 "2017/03/04", sampleRemoval,
        sampleBuild 44 " #"] := by
  intro along
  have unchanged := along.2.2.2.1.unchanged
  revert unchanged
  decide +kernel

end Bookshelfdq.Spliced
