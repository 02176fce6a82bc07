import Mathlib.Data.List.TakeWhile
import Bookshelfdq.Server.Numbering
import Bookshelfdq.Server.Replies

/-! # Round trips

A stored row is found again under its number until a request is about it. Whether it
is then the entry that was submitted is a matter of the widths of the columns: here for
shelves. -/

namespace Bookshelfdq

/-! ## Rows that no request is about -/

/-- A request to delete or update names the book, or all books of its shelf. -/
def BookEntry.addresses (request book : BookEntry) : Bool :=
  if request.namesShelf then book.shelfno == request.shelfno else book.bookno == request.bookno

namespace ArchiveRequest

def sparesBook (book : BookEntry) : ArchiveRequest → Bool
  | bookDelete msg => !msg.stuff.book.addresses book
  | bookUpdate msg => !msg.stuff.book.addresses book
  | _ => true

def sparesShelf (shelfno : Int) : ArchiveRequest → Bool
  | shelfRemove msg => shelfno != msg.stuff.shelf.code
  | _ => true

end ArchiveRequest

theorem Archive.mem_cleanBooks {archive : Archive} {row : BookRow} {cleaned : BookCleaned}
    {selected : BookRow → Bool} (member : row ∈ archive.books) (spared : selected row = false) :
    row ∈ (archive.cleanBooks cleaned selected).books := by
  apply List.mem_map.mpr
  exact ⟨row, member, by simp [spared]⟩

namespace ArchiveRequest

theorem perform_mem_books {db : Mysql} {request : ArchiveRequest} {row : BookRow}
    (numbered : db.archive.WellNumbered) (member : row ∈ db.archive.books)
    (live : row.cleaned = .avl) (spared : request.sparesBook row.entry = true) :
    row ∈ (request.perform db).2.2.archive.books := by
  cases request with
  | bookInsert msg =>
      have contract := srvdbBookInsert_contract msg db numbered.1
      cases outcome : (srvdbBookInsert msg db).1 with
      | true =>
          obtain ⟨number, _, given⟩ := contract.given outcome
          apply given.keeps member
          exact .inr (by simp [bookAllocation, live])
      | false =>
          have same := contract.unchanged outcome
          simp only [perform, same]
          exact member
  | bookDelete msg =>
      have apart : msg.stuff.book.addresses row.entry = false := by
        simpa [sparesBook] using spared
      rcases srvdbBookDelete_cases msg db with ⟨after, result, archive⟩ |
        ⟨after, result, archive⟩
      · simp only [perform, result, archive]
        exact member
      · simp only [perform, result, archive]
        exact Archive.mem_cleanBooks member apart
  | bookUpdate msg =>
      have apart : msg.stuff.book.addresses row.entry = false := by
        simpa [sparesBook] using spared
      rcases srvdbBookUpdate_cases msg db with ⟨after, result, archive⟩ |
        ⟨after, result, whole, archive⟩ | ⟨after, books, result, single, updated, archive⟩
      · simp only [perform, result, archive]
        exact member
      · rw [BookEntry.addresses, if_pos whole] at apart
        simp only [perform, result, archive]
        exact Archive.mem_cleanBooks member apart
      · rw [BookEntry.addresses, if_neg (by simp [single])] at apart
        simp only [perform, result, archive]
        exact Table.mem_update updated member apart
  | shelfBuild msg =>
      rw [perform, srvdbShelfBuild_books msg db numbered.2]
      exact member
  | shelfRemove msg =>
      rcases srvdbShelfRemove_cases msg db with ⟨after, result, archive⟩ |
        ⟨after, result, archive⟩
      · simp only [perform, result, archive]
        exact member
      · simp only [perform, result, archive]
        exact member

theorem perform_mem_shelves {db : Mysql} {request : ArchiveRequest} {row : ShelfRow}
    (numbered : db.archive.WellNumbered) (member : row ∈ db.archive.shelves)
    (live : row.cleaned = .avl) (spared : request.sparesShelf row.shelfno = true) :
    row ∈ (request.perform db).2.2.archive.shelves := by
  cases request with
  | bookInsert msg =>
      rw [perform, srvdbBookInsert_shelves msg db numbered.1]
      exact member
  | bookDelete msg =>
      rcases srvdbBookDelete_cases msg db with ⟨after, result, archive⟩ |
        ⟨after, result, archive⟩
      · simp only [perform, result, archive]
        exact member
      · simp only [perform, result, archive]
        exact member
  | bookUpdate msg =>
      rcases srvdbBookUpdate_cases msg db with ⟨after, result, archive⟩ |
        ⟨after, result, _, archive⟩ | ⟨after, books, result, _, _, archive⟩
      · simp only [perform, result, archive]
        exact member
      · simp only [perform, result, archive]
        exact member
      · simp only [perform, result, archive]
        exact member
  | shelfBuild msg =>
      have contract := srvdbShelfBuild_contract msg db numbered.2
      cases outcome : (srvdbShelfBuild msg db).1 with
      | true =>
          obtain ⟨number, _, given⟩ := contract.given outcome
          apply given.keeps member
          exact .inr (by simp [shelfAllocation, live])
      | false =>
          have same := contract.unchanged outcome
          simp only [perform, same]
          exact member
  | shelfRemove msg =>
      rcases srvdbShelfRemove_cases msg db with ⟨after, result, archive⟩ |
        ⟨after, result, archive⟩
      · simp only [perform, result, archive]
        exact member
      · have apart : (row.shelfno == msg.stuff.shelf.code) = false := by
          simpa [sparesShelf] using spared
        simp only [perform, result, archive]
        apply List.mem_map.mpr
        exact ⟨row, member, by simp [apart]⟩

/-- What no request of a run is about is still there at its end. -/
theorem run_mem_books {db : Mysql} {row : BookRow} (numbered : db.archive.WellNumbered)
    (member : row ∈ db.archive.books) (live : row.cleaned = .avl) {requests : List ArchiveRequest}
    (spared : ∀ request ∈ requests, request.sparesBook row.entry = true) :
    row ∈ (Execution.run step db requests).archive.books := by
  induction requests generalizing db with
  | nil => exact member
  | cons request requests induction =>
      apply induction (step_wellNumbered db request numbered)
      · exact perform_mem_books numbered member live (spared request List.mem_cons_self)
      · intro later laterMem
        exact spared later (List.mem_cons_of_mem _ laterMem)

theorem run_mem_shelves {db : Mysql} {row : ShelfRow} (numbered : db.archive.WellNumbered)
    (member : row ∈ db.archive.shelves) (live : row.cleaned = .avl)
    {requests : List ArchiveRequest}
    (spared : ∀ request ∈ requests, request.sparesShelf row.shelfno = true) :
    row ∈ (Execution.run step db requests).archive.shelves := by
  induction requests generalizing db with
  | nil => exact member
  | cons request requests induction =>
      apply induction (step_wellNumbered db request numbered)
      · exact perform_mem_shelves numbered member live (spared request List.mem_cons_self)
      · intro later laterMem
        exact spared later (List.mem_cons_of_mem _ laterMem)

end ArchiveRequest

/-! ## Finding a row by its number -/

/-- A find request and the first row fetched for it. -/
def fetchBook (msg : MessageCs) (db : Mysql) : Option BookEntry :=
  match srvdbBookFind msg db with
  | (none, _) => none
  | (some _, db) =>
      match srvdbBookFetchResult msg db with
      | (.cont, reply, _) => some reply.stuff.book
      | _ => none

def fetchShelf (msg : MessageCs) (db : Mysql) : Option ShelfEntry :=
  match srvdbShelfFind msg db with
  | (none, _) => none
  | (some _, db) =>
      match srvdbShelfFetchResult msg db with
      | (.cont, reply, _) => some reply.stuff.shelf
      | _ => none

/-- The connection when the outcomes of the calls to come are `faults`. -/
def Mysql.facing (db : Mysql) (faults : List Bool) : Mysql := { db with faults := faults }

/-- The connection after some more requests, which may fail in any way. -/
def Mysql.later (db : Mysql) (faults : List Bool) (requests : List ArchiveRequest) : Mysql :=
  (Execution.run ArchiveRequest.step (db.facing faults) requests).facing []

theorem Mysql.later_wellNumbered {db : Mysql} (numbered : db.archive.WellNumbered)
    (faults : List Bool) (requests : List ArchiveRequest) :
    (db.later faults requests).archive.WellNumbered := by
  have start : (db.facing faults).archive.WellNumbered := numbered
  exact Execution.run_invariant ArchiveRequest.step_wellNumbered start requests

theorem fetchBook_of_mem {msg : MessageCs} {db : Mysql} {row : BookRow}
    (numbered : db.archive.WellNumbered) (faultless : db.faults = [])
    (member : row ∈ db.archive.books) (named : msg.user ≠ "")
    (pointed : pointsAtBook msg.stuff.book = true)
    (number : msg.stuff.book.bookno = -row.bookno) : fetchBook msg db = some row.entry := by
  have positive := numbered.bookno_bounds member
  obtain ⟨⟨count, _, numbering⟩, _⟩ := numbered
  have rows : selectBooks db.collation msg.stuff.book db.archive.books = some [.book row] := by
    rw [selectBooks, if_pos pointed, number, Int.neg_neg, numbering.filter_key member]
    rfl
  have single : msg.stuff.book.bookno ≠ breakLimitInt := by
    have limit : breakLimitInt = 10001 := by decide
    omega
  have found := srvdbBookFind_of_finds ⟨named, rows, by rw [faultless]; rfl⟩
  rw [if_neg single] at found
  rw [fetchBook, found]
  simp [srvdbBookFetchResult, Mysql.storeResult, fetchResult, Mysql.nextFault, Mysql.advance,
    faultless, decodeBook]

theorem fetchShelf_of_mem {msg : MessageCs} {db : Mysql} {row : ShelfRow}
    (numbered : db.archive.WellNumbered) (faultless : db.faults = [])
    (member : row ∈ db.archive.shelves) (live : row.cleaned = .avl) (named : msg.user ≠ "")
    (number : msg.stuff.shelf.code = -row.shelfno) : fetchShelf msg db = some row.entry := by
  obtain ⟨_, count, bound, numbering⟩ := numbered
  have bounds := (numbering.mem_iff row.shelfno).mp ⟨row, member, rfl⟩
  have single : msg.stuff.shelf.code ≠ breakLimitInt := by
    have limit : breakLimitInt = 10001 := by decide
    omega
  have rows : selectShelves msg.stuff.shelf.code db.archive.shelves = [.shelf row] := by
    have one : db.archive.shelves.filter (fun other => other.shelfno == row.shelfno &&
        other.cleaned == .avl) = [row] := by
      rw [List.filter_congr fun other _ => Bool.and_comm _ _, ← List.filter_filter,
        numbering.filter_key member]
      simp [live]
    rw [selectShelves, if_neg single, if_pos (by omega), number, Int.neg_neg, one]
    rfl
  have finds : FindsShelves msg db := ⟨named, by rw [faultless]; rfl⟩
  have found := srvdbShelfFind_of_finds finds
  rw [rows, if_neg single] at found
  rw [fetchShelf, found]
  simp [srvdbShelfFetchResult, Mysql.storeResult, fetchResult, Mysql.nextFault, Mysql.advance,
    faultless, decodeShelf, MessageCs.setShelf]

/-! ## Shelves -/

/-- The shelves that the build page can produce. -/
structure ShelfEntry.Buildable (shelf : ShelfEntry) : Prop where
  name_pos : 1 ≤ strlen shelf.name
  name_le : strlen shelf.name ≤ shelfNameLen
  floors_pos : 1 ≤ shelf.nfloors
  floors_le : shelf.nfloors ≤ maxFloors
  depths : shelf.ndepth.length = shelf.nfloors
  depth_le : ∀ depth ∈ shelf.ndepth, depth ≤ maxDepth

/-- Name, floors and depths agree. -/
def ShelfEntry.SameBuild (left right : ShelfEntry) : Prop :=
  left.name = right.name ∧ left.nfloors = right.nfloors ∧ left.ndepth = right.ndepth

theorem length_toString_of_lt (nfloors : Nat) (low : nfloors < 10) :
    (toString nfloors).length ≤ 1 ∧
      digitValue ((toString nfloors).toList.headD nulChar) = nfloors := by
  revert nfloors
  decide

theorem length_toString_of_le (nfloors : Nat) (low : 10 ≤ nfloors) (high : nfloors ≤ maxFloors) :
    ¬ (toString nfloors).length ≤ 1 ∧
      digitValue (((toString nfloors).toList.take 1).headD nulChar) = 1 := by
  revert nfloors
  decide

theorem digitValue_ofNat {depth : Nat} (small : depth ≤ maxDepth) :
    digitValue (Char.ofNat ((depth + 48) % 256)) = depth ∧
      breaksLiteral (Char.ofNat ((depth + 48) % 256)) = false ∧
      (Char.ofNat ((depth + 48) % 256) != nulChar) = true := by
  revert depth
  decide

theorem any_intersperse {α : Type} {test : α → Bool} {separator : α}
    (plain : test separator = false) {items : List α} (none : ∀ item ∈ items, test item = false) :
    (items.intersperse separator).any test = false := by
  induction items with
  | nil => rfl
  | cons item items induction =>
      cases items with
      | nil => simpa using none
      | cons next items =>
          have rest := induction fun later member => none later (List.mem_cons_of_mem _ member)
          rw [List.intersperse_cons_cons, List.any_cons, List.any_cons, rest, plain,
            none item List.mem_cons_self]
          rfl

section Shelves

variable {shelf : ShelfEntry} (buildable : shelf.Buildable)
include buildable

theorem ShelfEntry.Buildable.name_fits : shelf.name.length ≤ 200 := by
  have bytes := length_le_strlen shelf.name
  have limit := buildable.name_le
  have width : shelfNameLen = 192 := rfl
  omega

theorem ShelfEntry.Buildable.take_ndepth : shelf.ndepth.take shelf.nfloors = shelf.ndepth :=
  List.take_of_length_le buildable.depths.le

/-- No depth is cut off. -/
theorem ShelfEntry.Buildable.floorDepthText_toList :
    (floorDepthText shelf.ndepth).toList = List.intersperse ','
      (shelf.ndepth.map fun depth => Char.ofNat ((depth + 48) % 256)) := by
  rw [floorDepthText, String.toList_ofList, List.takeWhile_eq_self_iff]
  have none := @any_intersperse _ (fun character => !(character != nulChar)) ',' (by decide)
    (shelf.ndepth.map fun depth => Char.ofNat ((depth + 48) % 256)) (by
      intro character member
      obtain ⟨depth, depthMem, rfl⟩ := List.mem_map.mp member
      rw [(digitValue_ofNat (buildable.depth_le depth depthMem)).2.2]
      rfl)
  intro character member
  have kept := List.any_eq_false.mp none character member
  simpa using kept

theorem ShelfEntry.Buildable.floorDepth_fits : (floorDepthText shelf.ndepth).length ≤ 50 := by
  have floors := buildable.floors_le
  have limit : maxFloors = 15 := rfl
  rw [← String.length_toList, buildable.floorDepthText_toList, List.length_intersperse,
    List.length_map, buildable.depths]
  omega

theorem ShelfEntry.Buildable.wellFormed : shelf.wellFormed = true := by
  rw [ShelfEntry.wellFormed, buildable.take_ndepth, buildable.floorDepthText_toList,
    any_intersperse (by decide)]
  · rfl
  · intro character member
    obtain ⟨depth, depthMem, rfl⟩ := List.mem_map.mp member
    exact (digitValue_ofNat (buildable.depth_le depth depthMem)).2.1

/-- The decoder reads every second character of what the encoder wrote. -/
theorem ShelfEntry.Buildable.ndepth_decoded :
    (List.range shelf.nfloors).map (fun floor =>
      digitValue ((floorDepthText shelf.ndepth).toList.getD (2 * floor) nulChar)) =
        shelf.ndepth := by
  apply List.ext_getElem
  · rw [List.length_map, List.length_range, buildable.depths]
  · intro floor _ inside
    have digit := (digitValue_ofNat (buildable.depth_le _ (List.getElem_mem inside))).1
    simp [buildable.floorDepthText_toList, List.getD, inside, digit]

theorem ShelfEntry.Buildable.exists_row (low : shelf.nfloors ≤ 9) (mode : SqlMode)
    (shelfno : Int) : ∃ row, shelf.row mode shelfno = some row := by
  have digit := length_toString_of_lt shelf.nfloors (by omega)
  rw [ShelfEntry.row, SqlMode.store_of_fits buildable.name_fits, buildable.take_ndepth,
    SqlMode.store_of_fits buildable.floorDepth_fits, SqlMode.store_of_fits digit.1]
  exact ⟨_, rfl⟩

theorem ShelfEntry.Buildable.sameBuild_iff {mode : SqlMode} {shelfno : Int} {row : ShelfRow}
    (created : shelf.row mode shelfno = some row) :
    row.entry.SameBuild shelf ↔ shelf.nfloors ≤ 9 := by
  rw [ShelfEntry.row, SqlMode.store_of_fits buildable.name_fits, buildable.take_ndepth,
    SqlMode.store_of_fits buildable.floorDepth_fits, Option.bind_some] at created
  obtain ⟨nfloors, stored, filled⟩ := Option.bind_eq_some_iff.mp created
  obtain rfl := Option.some.inj filled
  by_cases low : shelf.nfloors ≤ 9
  · have digit := length_toString_of_lt shelf.nfloors (by omega)
    rw [SqlMode.store_of_fits digit.1] at stored
    obtain rfl := Option.some.inj stored
    refine ⟨fun _ => low, fun _ => ⟨rfl, digit.2, ?_⟩⟩
    simp only [ShelfRow.entry, digit.2]
    exact buildable.ndepth_decoded
  · have digit := length_toString_of_le shelf.nfloors (by omega) buildable.floors_le
    cases mode with
    | strict =>
        rw [SqlMode.strict_store digit.1] at stored
        cases stored
    | lenient =>
        rw [SqlMode.lenient_store digit.1] at stored
        obtain rfl := Option.some.inj stored
        refine ⟨fun same => ?_, fun high => absurd high low⟩
        have floors := same.2.1
        simp only [ShelfRow.entry, String.toList_ofList, digit.2] at floors
        omega

end Shelves

/-- A shelf is found under its number, at once and after any requests that spare it. -/
def Mysql.HoldsShelf (db : Mysql) (shelfno : Int) (shelf : ShelfEntry) : Prop :=
  ∀ faults requests msg, (∀ request ∈ requests, request.sparesShelf shelfno = true) →
    msg.user ≠ "" → msg.stuff.shelf.code = -shelfno →
    ∃ found, fetchShelf msg (db.later faults requests) = some found ∧ found.SameBuild shelf

theorem Mysql.holdsShelf_iff {db : Mysql} {row : ShelfRow} {shelf : ShelfEntry}
    (numbered : db.archive.WellNumbered) (member : row ∈ db.archive.shelves)
    (live : row.cleaned = .avl) :
    db.HoldsShelf row.shelfno shelf ↔ row.entry.SameBuild shelf := by
  have fetched : ∀ faults requests msg,
      (∀ request ∈ requests, request.sparesShelf row.shelfno = true) → msg.user ≠ "" →
      msg.stuff.shelf.code = -row.shelfno →
      fetchShelf msg (db.later faults requests) = some row.entry := by
    intro faults requests msg spared named number
    have numbering : (db.facing faults).archive.WellNumbered := numbered
    apply fetchShelf_of_mem (later_wellNumbered numbered faults requests) rfl _ live named number
    exact ArchiveRequest.run_mem_shelves numbering member live spared
  constructor
  · intro held
    let msg := { MessageCs.zeroed.setShelfno (-row.shelfno) with user := "reader" }
    have named : msg.user ≠ "" := by simp [msg]
    have spared : ∀ request ∈ [], ArchiveRequest.sparesShelf row.shelfno request = true :=
      fun request member => absurd member List.not_mem_nil
    obtain ⟨found, finds, same⟩ := held [] [] msg spared named rfl
    rw [fetched [] [] msg spared named rfl] at finds
    exact Option.some.inj finds ▸ same
  · intro same faults requests msg spared named number
    exact ⟨row.entry, fetched faults requests msg spared named number, same⟩

/-- The shelf is built and returned as it was submitted. -/
def ShelfReturns (msg : MessageCs) (db : Mysql) : Prop :=
  (srvdbShelfBuild msg db).1 = true ∧
    (srvdbShelfBuild msg db).2.2.HoldsShelf (srvdbShelfBuild msg db).2.1.stuff.shelf.code
      msg.stuff.shelf

/-- The column `nfloors` holds one character. -/
theorem shelfReturns_iff {mode : SqlMode} {collation : Char → Char → Bool}
    {accounts : List AccountRow} {faults : List Bool} {history : List ArchiveRequest}
    {db : Mysql} (reached : db = Execution.run ArchiveRequest.step
      (Mysql.fresh mode collation accounts faults) history)
    {msg : MessageCs} (named : msg.user ≠ "") (buildable : msg.stuff.shelf.Buildable)
    (room : ¬ (shelfAllocation db.mode msg.stuff.shelf).Full db.archive) :
    ShelfReturns msg (db.facing []) ↔ msg.stuff.shelf.nfloors ≤ 9 := by
  have known := ArchiveRequest.run_wellNumbered reached
  have numbered : (db.facing []).archive.WellNumbered := known
  have healthy : (db.facing []).faults = [] := rfl
  have returned (succeeds : (srvdbShelfBuild msg (db.facing [])).1 = true) :
      (srvdbShelfBuild msg (db.facing [])).2.2.HoldsShelf
          (srvdbShelfBuild msg (db.facing [])).2.1.stuff.shelf.code msg.stuff.shelf ↔
        msg.stuff.shelf.nfloors ≤ 9 := by
    have after : (srvdbShelfBuild msg (db.facing [])).2.2.archive.WellNumbered :=
      ArchiveRequest.perform_wellNumbered (db.facing []) (.shelfBuild msg) numbered
    obtain ⟨shelfno, row, recorded, created, member⟩ :=
      (shelfAllocation db.mode msg.stuff.shelf).allocate_row msg (db.facing []) numbered.2
        (fun _ => rfl) succeeds
    have given := ShelfEntry.row_eq_some created
    have code : (srvdbShelfBuild msg (db.facing [])).2.1.stuff.shelf.code = row.shelfno := by
      rw [given.1]
      exact congrArg (fun reply => reply.stuff.shelf.code) recorded
    rw [code, Mysql.holdsShelf_iff after member given.2]
    exact buildable.sameBuild_iff created
  constructor
  · intro returns
    exact (returned returns.1).mp returns.2
  · intro low
    have succeeds : (srvdbShelfBuild msg (db.facing [])).1 = true :=
      (shelfAllocation db.mode msg.stuff.shelf).allocate_of_healthy msg healthy
        buildable.wellFormed named numbered.2 room (fun _ => rfl) (buildable.exists_row low db.mode)
    exact ⟨succeeds, (returned succeeds).mpr low⟩

def sampleBuild (nfloors : Nat) : MessageCs :=
  { MessageCs.zeroed.setShelf { ShelfEntry.zeroed with
      name := "study", nfloors := nfloors, ndepth := List.replicate nfloors 1 }
    with user := "reader" }

theorem sampleBuild_buildable (nfloors : Nat) (positive : 1 ≤ nfloors)
    (bound : nfloors ≤ maxFloors) : (sampleBuild nfloors).stuff.shelf.Buildable where
  name_pos := by show 1 ≤ strlen "study"; decide
  name_le := by show strlen "study" ≤ shelfNameLen; decide
  floors_pos := positive
  floors_le := bound
  depths := List.length_replicate
  depth_le depth member := by
    rw [List.eq_of_mem_replicate member]
    decide

def sampleTables (mode : SqlMode) : Mysql :=
  Mysql.fresh mode (fun left right => left == right) [] []

theorem not_full_of_no_shelves (shelf : ShelfEntry) (mode : SqlMode) :
    ¬ (shelfAllocation mode shelf).Full (sampleTables mode).archive := by
  intro full
  have one : (1 : Int) ≤ maxShelfNum := by decide
  obtain ⟨row, member, _⟩ := full 1 (le_refl 1) one
  cases member

theorem shelfReturns_with_nine_floors :
    ShelfReturns (sampleBuild 9) ((sampleTables .strict).facing []) := by
  have reached : sampleTables .strict =
      Execution.run ArchiveRequest.step (sampleTables .strict) [] := rfl
  apply (shelfReturns_iff reached (by decide) (sampleBuild_buildable 9 (by decide) (by decide))
    (not_full_of_no_shelves _ _)).mpr
  decide

/-- Ten floors are refused, or come back as one. -/
theorem shelf_of_ten_floors_lost :
    (sampleBuild 10).stuff.shelf.Buildable ∧
      (srvdbShelfBuild (sampleBuild 10) (sampleTables .strict)).1 = false ∧
      (srvdbShelfBuild (sampleBuild 10) (sampleTables .lenient)).1 = true ∧
      (fetchShelf { MessageCs.zeroed.setShelfno (-1) with user := "reader" }
        (srvdbShelfBuild (sampleBuild 10) (sampleTables .lenient)).2.2).map ShelfEntry.nfloors =
          some 1 :=
  ⟨sampleBuild_buildable 10 (by decide) (by decide), by decide, by decide, by decide⟩

end Bookshelfdq
