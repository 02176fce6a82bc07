import Bookshelfdq.Server.HostRuns
import Bookshelfdq.Server.Replies
import Bookshelfdq.Session.Prompt
import Bookshelfdq.Wire.MessageLayout

/-! # Replies fit

The functions of `srvdb.c` fill the fields of a reply with `strcpy` and `sprintf`. Whatever messages
the server receives, no field of a reply is too small for what it is given. -/

namespace Bookshelfdq

open Bookshelfdq.Field

/-! ## Messages -/

def IntFits (value : Int) : Prop := -2147483648 ≤ value ∧ value < 2147483648

structure MessageCs.OnWire (msg : MessageCs) : Prop where
  user : TextFits (Escaping.userNameLen + 1) msg.user
  stuff : (stuffLayout msg.request.member).fits msg.stuff
  errorText : TextFits (errTextLen + 1) msg.errorText
  extraSize : msg.extraInfo.length = extraInfoSize
  extraInfo : ∀ value ∈ msg.extraInfo, IntFits value

theorem enumeration_fits_request (request : ClientRequest) :
    (enumeration clientRequests (by decide)).fits request := by
  cases request <;> exact ⟨by decide, by decide, by decide⟩

theorem enumeration_fits_response (response : ServerResponse) :
    (enumeration serverResponses (by decide)).fits response := by
  cases response <;> exact ⟨by decide, by decide, by decide⟩

theorem messageLayout_fits_iff {msg : MessageCs} : messageLayout.fits msg ↔ msg.OnWire := by
  constructor
  · rintro ⟨_, ⟨_, user, _⟩, ⟨_, stuff⟩, _, ⟨_, errorText, _⟩, size, ints⟩
    exact ⟨user, stuff, errorText, size, ints⟩
  · rintro ⟨user, stuff, errorText, size, ints⟩
    exact ⟨trivial, ⟨trivial, user, trivial⟩, ⟨enumeration_fits_request _, stuff⟩,
      enumeration_fits_response _, ⟨trivial, errorText, trivial⟩, size, ints⟩

namespace MessageCs

variable {msg : MessageCs}

theorem OnWire.respond (fits : msg.OnWire) (response : ServerResponse) :
    (msg.respond response).OnWire :=
  ⟨fits.user, fits.stuff, fits.errorText, fits.extraSize, fits.extraInfo⟩

theorem OnWire.withError (fits : msg.OnWire) (text : String)
    (short : TextFits (errTextLen + 1) text) : OnWire { msg with errorText := text } :=
  ⟨fits.user, fits.stuff, short, fits.extraSize, fits.extraInfo⟩

theorem OnWire.opened (fits : msg.OnWire) :
    OnWire { msg with response := .success, errorText := "" } := by
  have empty : TextFits (errTextLen + 1) "" := ⟨by decide, by decide⟩
  exact ⟨fits.user, fits.stuff, empty, fits.extraSize, fits.extraInfo⟩

theorem OnWire.setExtra (fits : msg.OnWire) {value : Int} (range : IntFits value) :
    (msg.setExtra value).OnWire := by
  refine ⟨fits.user, fits.stuff, fits.errorText, ?_, ?_⟩
  · exact List.length_set.trans fits.extraSize
  · intro other member
    rcases List.mem_or_eq_of_mem_set member with old | rfl
    · exact fits.extraInfo other old
    · exact range

theorem OnWire.setBookCount (fits : msg.OnWire) {count : BookCount} (all : IntFits count.booksAll)
    (onReading : IntFits count.booksOnReading) (borrowed : IntFits count.booksBorrowed)
    (unsorted : IntFits count.booksUnsorted) : (msg.setBookCount count).OnWire := by
  refine ⟨fits.user, fits.stuff, fits.errorText, ?_, ?_⟩
  · rw [MessageCs.setBookCount, List.length_append, List.length_drop, fits.extraSize]
    rfl
  · intro value member
    rcases List.mem_append.mp member with new | old
    · simp only [List.mem_cons, List.not_mem_nil, or_false] at new
      rcases new with rfl | rfl | rfl | rfl
      · exact all
      · exact onReading
      · exact borrowed
      · exact unsorted
    · exact fits.extraInfo value (List.mem_of_mem_drop old)

theorem OnWire.setBook (fits : msg.OnWire) (kind : msg.request.member = some .book)
    {book : BookEntry} (short : bookLayout.fits book) : (msg.setBook book).OnWire := by
  have stuff := fits.stuff
  refine ⟨fits.user, ?_, fits.errorText, fits.extraSize, fits.extraInfo⟩
  rw [setBook_request, kind]
  rw [kind] at stuff
  exact ⟨stuff.1, trivial, short, trivial⟩

theorem OnWire.setShelf (fits : msg.OnWire) (kind : msg.request.member = some .shelf)
    {shelf : ShelfEntry} (short : shelfLayout.fits shelf) : (msg.setShelf shelf).OnWire := by
  have stuff := fits.stuff
  refine ⟨fits.user, ?_, fits.errorText, fits.extraSize, fits.extraInfo⟩
  show (stuffLayout msg.request.member).fits _
  rw [kind]
  rw [kind] at stuff
  exact ⟨stuff.1, trivial, short, trivial⟩

theorem OnWire.book (fits : msg.OnWire) (kind : msg.request.member = some .book) :
    bookLayout.fits msg.stuff.book := by
  have stuff := fits.stuff
  rw [kind] at stuff
  exact stuff.2.2.1

theorem OnWire.shelf (fits : msg.OnWire) (kind : msg.request.member = some .shelf) :
    shelfLayout.fits msg.stuff.shelf := by
  have stuff := fits.stuff
  rw [kind] at stuff
  exact stuff.2.2.1

end MessageCs

/-! ## Rows

Of a number it is known that it is in range from the numbering of the tables. -/

/-- A row of which each column fits its field. -/
structure BookRow.OnWire (row : BookRow) : Prop where
  shelfno : IntFits row.shelfno
  floorno : IntFits row.floorno
  name : TextFits (bookNameLen + 1) row.name
  author : TextFits (authorNameLen + 1) row.author
  label : TextFits (maxLabelNum * (labelNameLen + 1) + 1) row.label
  borrowed : row.borrowed.toNat < 256
  onReading : row.onReading.toNat < 256
  encodingTime : TextFits 20 row.encodingTime.text

structure ShelfRow.OnWire (row : ShelfRow) : Prop where
  name : TextFits (shelfNameLen + 1) row.name
  nfloors : digitValue (row.nfloors.toList.headD nulChar) ≤ maxFloors
  buildingTime : TextFits 20 row.buildingTime.text

theorem bookLayout_fits_iff {book : BookEntry} :
    bookLayout.fits book ↔
      (IntFits book.shelfno ∧ IntFits book.floorno ∧ IntFits book.bookno) ∧
      TextFits (bookNameLen + 1) book.name ∧ TextFits (authorNameLen + 1) book.author ∧
      TextFits (maxLabelNum * (labelNameLen + 1) + 1) book.label ∧
      book.borrowed.toNat < 256 ∧ book.onReading.toNat < 256 ∧
      TextFits 20 book.encodingTime.text := by
  constructor
  · rintro ⟨_, ⟨_, ints⟩, name, author, label, ⟨borrowed, _⟩, ⟨onReading, _⟩, _, time⟩
    exact ⟨⟨ints _ (by simp), ints _ (by simp), ints _ (by simp)⟩, name, author, label, borrowed,
      onReading, time⟩
  · rintro ⟨⟨shelfno, floorno, bookno⟩, name, author, label, borrowed, onReading, time⟩
    refine ⟨trivial, ⟨rfl, ?_⟩, name, author, label, ⟨borrowed, trivial⟩, ⟨onReading, trivial⟩,
      trivial, time⟩
    intro value member
    simp only [List.mem_cons, List.not_mem_nil, or_false] at member
    rcases member with rfl | rfl | rfl
    · exact shelfno
    · exact floorno
    · exact bookno

theorem BookRow.OnWire.entry {row : BookRow} (fits : row.OnWire) (number : IntFits row.bookno) :
    bookLayout.fits row.entry :=
  bookLayout_fits_iff.mpr ⟨⟨fits.shelfno, fits.floorno, number⟩, fits.name, fits.author,
    fits.label, fits.borrowed, fits.onReading, fits.encodingTime⟩

theorem ShelfRow.OnWire.entry {row : ShelfRow} (fits : row.OnWire) (number : IntFits row.shelfno) :
    shelfLayout.fits row.entry := by
  have counted : row.entry.ndepth.length = row.entry.nfloors := by
    rw [ShelfRow.entry, List.length_map, List.length_range]
  refine ⟨counted.symm, number, fits.name, ⟨?_, ?_⟩, trivial, fits.buildingTime⟩
  · show row.entry.ndepth.length ≤ maxFloors
    rw [counted]
    exact fits.nfloors
  · intro depth member
    rcases List.mem_map.mp member with ⟨floor, _, rfl⟩
    exact Nat.mod_lt _ (by decide)

/-! ### What the requests write -/

theorem Field.TextFits.stored {capacity width : Nat} {mode : SqlMode} {text stored : String}
    (fits : TextFits capacity text) (accepted : mode.store width text = some stored) :
    TextFits capacity stored := by
  by_cases short : text.length ≤ width
  · rw [SqlMode.store_of_fits short] at accepted
    exact Option.some.inj accepted ▸ fits
  · cases mode with
    | strict =>
        rw [SqlMode.strict_store short] at accepted
        cases accepted
    | lenient =>
        rw [SqlMode.lenient_store short] at accepted
        obtain rfl := Option.some.inj accepted
        have short := fits.short
        refine ⟨?_, ?_⟩
        · rw [strlen, ← List.take_append_drop width text.toList, List.map_append,
            List.sum_append] at short
          rw [strlen, String.toList_ofList]
          exact Nat.lt_of_le_of_lt (Nat.le_add_right _ _) short
        · rw [String.toList_ofList]
          exact fun member => fits.unterminated (List.mem_of_mem_take member)

theorem BookEntry.row_onWire {mode : SqlMode} {book : BookEntry} {bookno : Int} {row : BookRow}
    (fits : bookLayout.fits book) (written : book.row mode bookno = some row) : row.OnWire := by
  rcases bookLayout_fits_iff.mp fits with ⟨⟨shelfno, floorno, _⟩, name, author, label, borrowed,
    onReading, time⟩
  rcases Option.bind_eq_some_iff.mp written with ⟨storedName, nameStored, written⟩
  rcases Option.bind_eq_some_iff.mp written with ⟨storedAuthor, authorStored, written⟩
  rcases Option.map_eq_some_iff.mp written with ⟨storedLabel, labelStored, rfl⟩
  exact ⟨shelfno, floorno, name.stored nameStored, author.stored authorStored,
    label.stored labelStored, borrowed, onReading, time⟩

/-- A value is cut off behind the column's width, if it is not refused. -/
theorem SqlMode.toList_of_stored {mode : SqlMode} {width : Nat} {text stored : String}
    (accepted : mode.store width text = some stored) :
    stored.toList = text.toList.take width := by
  by_cases short : text.length ≤ width
  · rw [SqlMode.store_of_fits short] at accepted
    rw [← Option.some.inj accepted, List.take_of_length_le]
    exact String.length_toList.trans_le short
  · cases mode with
    | strict =>
        rw [SqlMode.strict_store short] at accepted
        cases accepted
    | lenient =>
        rw [SqlMode.lenient_store short] at accepted
        rw [← Option.some.inj accepted, String.toList_ofList]

theorem digitValue_of_isDigit {character : Char} (digit : character.isDigit = true) :
    digitValue character ≤ 9 := by
  rcases Char.isDigit_iff_toNat.mp digit with ⟨zero, nine⟩
  rw [digitValue]
  have zero : 48 ≤ character.toNat := zero
  have nine : character.toNat ≤ 57 := nine
  omega

theorem ShelfEntry.row_onWire {mode : SqlMode} {shelf : ShelfEntry} {shelfno : Int} {row : ShelfRow}
    (fits : shelfLayout.fits shelf) (written : shelf.row mode shelfno = some row) : row.OnWire := by
  rcases fits with ⟨_, _, name, _, _, time⟩
  rcases Option.bind_eq_some_iff.mp written with ⟨storedName, nameStored, written⟩
  rcases Option.bind_eq_some_iff.mp written with ⟨nfloors, nfloorsStored, written⟩
  rcases Option.map_eq_some_iff.mp written with ⟨floorDepth, _, rfl⟩
  refine ⟨Field.TextFits.stored name nameStored, ?_, time⟩
  dsimp only
  rw [SqlMode.toList_of_stored nfloorsStored, Nat.toString_eq_ofList_toDigits,
    String.toList_ofList]
  cases digits : Nat.toDigits 10 shelf.nfloors with
  | nil => exact absurd digits Nat.toDigits_ne_nil
  | cons digit rest =>
      have member : digit ∈ Nat.toDigits 10 shelf.nfloors := digits ▸ List.mem_cons_self
      have isDigit := Nat.isDigit_of_mem_toDigits (by decide) (by decide) member
      exact (digitValue_of_isDigit isDigit).trans (by decide)

/-! ### Answers of an allocation -/

namespace Allocation

variable {Row : Type} {alloc : Allocation Row} {msg : MessageCs} {db : Mysql}
  {holds : MessageCs → Prop}

/-- What holds of the message with any number of the table in it. -/
def Records (alloc : Allocation Row) (msg : MessageCs) (holds : MessageCs → Prop) : Prop :=
  ∀ number : Int, 1 ≤ number → number ≤ alloc.capacity →
    holds (alloc.record number msg) ∧
      holds { alloc.record number msg with errorText := alloc.failText }

theorem insertAt_message {number : Int} (positive : 1 ≤ number) (bound : number ≤ alloc.capacity)
    (records : alloc.Records msg holds) : holds (alloc.insertAt number msg db).2.1 := by
  rcases alloc.insertAt_cases number msg db with ⟨row, after, result, _⟩ | ⟨after, result, _⟩
  · rw [result]
    exact (records number positive bound).1
  · rw [result]
    exact (records number positive bound).2

theorem number_bounds (numbered : alloc.WellNumbered db.archive) {row : Row}
    (member : row ∈ alloc.rows db.archive) :
    1 ≤ alloc.number row ∧ alloc.number row ≤ alloc.capacity := by
  rcases numbered with ⟨count, bound, numbered⟩
  have bounds := (numbered.mem_iff (alloc.number row)).mp ⟨row, member, rfl⟩
  omega

theorem extend_message (numbered : alloc.WellNumbered db.archive) (unchanged : holds msg)
    (full : holds { msg with errorText := alloc.fullText }) (records : alloc.Records msg holds) :
    holds (alloc.extend msg db).2.1 := by
  have first : (1 : Int) ≤ alloc.capacity := by exact_mod_cast alloc.capacity_pos
  rw [extend]
  rcases mysqlSelect_cases db with selected | selected <;> rw [selected]
  · exact unchanged
  · dsimp only [Mysql.advance_archive]
    rcases getSimpleResult_cases (alloc.largest db.archive) db.advance with
      fetched | fetched <;> rw [fetched]
    · exact insertAt_message (by omega) first records
    · cases biggest : alloc.largest db.archive with
      | none => exact insertAt_message (by omega) first records
      | some last =>
          dsimp only
          split
          · exact full
          · rcases List.mem_map.mp (List.max?_eq_some_iff.mp biggest).1 with ⟨row, member, rfl⟩
            have bounds := number_bounds numbered member
            exact insertAt_message (by omega) (by omega) records

theorem allocate_message [DecidableEq Row] (numbered : alloc.WellNumbered db.archive)
    (unchanged : holds msg) (full : holds { msg with errorText := alloc.fullText })
    (records : alloc.Records msg holds) : holds (alloc.allocate msg db).2.1 := by
  rw [allocate]
  split
  · exact unchanged
  · rcases alloc.reuse_cases msg db numbered.nodup with
      ⟨number, after, result, renewed, _⟩ | ⟨middle, result, same, _⟩ <;> rw [result]
    · rcases smallestDeleted_eq_some renewed.1 with ⟨row, member, _, rfl⟩
      have bounds := number_bounds numbered member
      exact (records _ bounds.1 bounds.2).1
    · rw [← same] at numbered
      exact extend_message numbered unchanged full records

end Allocation

/-! ## The tables -/

structure Archive.OnWire (archive : Archive) : Prop where
  numbered : archive.WellNumbered
  books : ∀ row ∈ archive.books, row.OnWire
  shelves : ∀ row ∈ archive.shelves, row.OnWire

theorem Archive.onWire_empty : Archive.OnWire ⟨[], []⟩ :=
  ⟨Archive.wellNumbered_empty, by simp, by simp⟩

theorem BookRow.OnWire.clean {row : BookRow} (fits : row.OnWire) (cleaned : BookCleaned) :
    (row.clean cleaned).OnWire :=
  ⟨fits.shelfno, fits.floorno, fits.name, fits.author, fits.label, fits.borrowed, fits.onReading,
    fits.encodingTime⟩

theorem ArchiveRequest.perform_shelves {db : Mysql} {request : ArchiveRequest}
    (fits : db.archive.OnWire)
    (writes : ∀ msg, request = .shelfBuild msg → shelfLayout.fits msg.stuff.shelf) :
    ∀ row ∈ (request.perform db).2.2.archive.shelves, row.OnWire := by
  cases request with
  | bookInsert msg =>
      rw [perform, srvdbBookInsert_shelves _ _ fits.numbered.1]
      exact fits.shelves
  | bookDelete msg =>
      rcases srvdbBookDelete_cases msg db with ⟨after, result, archive⟩ | ⟨after, result, archive⟩ <;>
        rw [perform, result, archive] <;> exact fits.shelves
  | bookUpdate msg =>
      rcases srvdbBookUpdate_cases msg db with ⟨after, result, archive⟩ |
        ⟨after, result, _, archive⟩ | ⟨after, books, result, _, _, archive⟩ <;>
        rw [perform, result, archive] <;> exact fits.shelves
  | shelfBuild msg =>
      intro row member
      rcases (shelfAllocation db.mode msg.stuff.shelf).allocate_mem msg db fits.numbered.2 member with
        old | ⟨old, renews⟩ | ⟨number, creates⟩
      · exact fits.shelves row old
      · exact ShelfEntry.row_onWire (writes msg rfl) renews
      · exact ShelfEntry.row_onWire (writes msg rfl) creates
  | shelfRemove msg =>
      rcases srvdbShelfRemove_cases msg db with ⟨after, result, archive⟩ |
        ⟨after, result, archive⟩
      · rw [perform, result, archive]
        exact fits.shelves
      · rw [perform, result, archive]
        intro row member
        rcases List.mem_map.mp member with ⟨old, oldMem, rfl⟩
        have kept := fits.shelves old oldMem
        split
        · exact ⟨kept.name, kept.nfloors, kept.buildingTime⟩
        · exact kept

/-- A message that fits leaves rows that fit. -/
theorem Server.step_onWire {server : Server} {request : MessageCs} (sent : request.OnWire)
    (fits : server.db.archive.OnWire) : (server.step request).db.archive.OnWire where
  numbered := server.step_wellNumbered request fits.numbered
  books := by
    apply Server.step_rows (fun row cleaned kept => kept.clean cleaned) fits.numbered fits.books
    intro kind bookno row written
    have member : request.request.member = some .book := by
      rcases kind with kind | kind <;> rw [kind] <;> rfl
    exact BookEntry.row_onWire (sent.book member) written
  shelves := by
    cases written : request.archiveRequest with
    | none =>
        rw [(step_reads written).archive]
        exact fits.shelves
    | some operation =>
        rw [step_of_archiveRequest written]
        apply ArchiveRequest.perform_shelves fits
        rintro msg rfl
        cases kind : request.request <;>
          simp only [MessageCs.archiveRequest, kind, Option.some.injEq, reduceCtorEq,
            ArchiveRequest.shelfBuild.injEq] at written
        rw [← written]
        exact sent.shelf (by rw [kind]; rfl)

/-! ## Answers -/

theorem Server.send_all {holds : MessageCs → Prop} {msg : MessageCs} (all : holds msg)
    (server : Server) : ∀ reply ∈ (server.send msg).2.1, holds reply := by
  rw [send]
  cases server.sendFaults.headD false with
  | true => exact fun _ none => absurd none List.not_mem_nil
  | false => exact List.forall_mem_singleton.mpr all

theorem Server.answer_onWire {msg : MessageCs} (fits : msg.OnWire) {result : Bool} {db : Mysql}
    {server : Server} : ∀ reply ∈ (server.answer (result, msg, db)).2.1, reply.OnWire :=
  Server.send_all (fits.respond _) _

/-- What the rows of a result leave true is true of all the replies they are sent in. -/
theorem sendRows_all {holds : MessageCs → Prop}
    (responds : ∀ msg response, holds msg → holds (msg.respond response))
    {decode : ResultRow → MessageCs → Option MessageCs}
    {fetch : MessageCs → Mysql → FetchResult × MessageCs × Mysql}
    (fetches : ∀ msg (db : Mysql) rows, db.resPtr = some rows →
      fetch msg db = fetchResult decode rows msg db)
    {rows : List ResultRow} (decodes : ∀ row ∈ rows, ∀ msg filled, holds msg →
      decode row msg = some filled → holds filled)
    (fuel : Nat) {msg : MessageCs} (initial : holds msg) {server : Server}
    (stored : server.db.resPtr = some rows) :
    ∀ reply ∈ (sendRows fetch fuel msg server).2.1, holds reply := by
  induction fuel generalizing rows msg server with
  | zero => exact fun _ none => absurd none List.not_mem_nil
  | succ fuel induction =>
      rw [sendRows, fetches msg server.db rows stored]
      cases rows with
      | nil =>
          rw [fetchResult]
          cases server.db.nextFault with
          | true => exact fun _ none => absurd none List.not_mem_nil
          | false =>
              by_cases full : server.db.resRows = defaultFinds
              · simp only [full, Bool.false_eq_true, if_false, if_true]
                exact Server.send_all (responds msg .findEndMore initial) _
              · simp only [full, Bool.false_eq_true, if_false]
                exact Server.send_all (responds msg .findEnd initial) _
      | cons row rest =>
          rw [fetchResult]
          cases server.db.nextFault with
          | true => exact fun _ none => absurd none List.not_mem_nil
          | false =>
              rw [if_neg Bool.false_ne_true]
              cases decoded : decode row msg with
              | none => exact fun _ none => absurd none List.not_mem_nil
              | some filled =>
                  have kept := decodes row List.mem_cons_self msg filled initial decoded
                  have answered := responds filled .success kept
                  dsimp only
                  rw [Server.send]
                  cases (server.withDb _).sendFaults.headD false with
                  | true => exact fun _ none => absurd none List.not_mem_nil
                  | false =>
                      intro reply member
                      rcases List.mem_cons.mp member with rfl | later
                      · exact answered
                      · have laterDecodes := fun row member =>
                          decodes row (List.mem_cons_of_mem _ member)
                        exact @induction rest laterDecodes _ answered _ rfl reply later

/-! ### Texts -/

section Texts

variable {msg : MessageCs} {db : Mysql}

theorem textFits_of_strlen {capacity : Nat} {text : String}
    (fits : decide (strlen text < capacity ∧ nulChar ∉ text.toList) = true) :
    TextFits capacity text :=
  ⟨(of_decide_eq_true fits).1, (of_decide_eq_true fits).2⟩

theorem srvdbAccountVerify_onWire (bcrypt : Bcrypt) (fits : msg.OnWire) :
    (srvdbAccountVerify bcrypt msg db).2.1.OnWire := by
  have refused := fits.withError "帐号或密码错误" (textFits_of_strlen (by decide))
  rw [srvdbAccountVerify]
  repeat' split
  all_goals first | exact fits | exact refused

theorem srvdbAccountRegister_onWire (bcrypt : Bcrypt) (salt : Option String) (fits : msg.OnWire) :
    (srvdbAccountRegister bcrypt salt msg db).2.1.OnWire := by
  have full := fits.withError "创建账户失败:用户数达到上限"
    (textFits_of_strlen (by decide))
  have known := fits.withError "创建账户失败:用户已存在" (textFits_of_strlen (by decide))
  rw [srvdbAccountRegister]
  repeat' split
  all_goals first | exact fits | exact full | exact known

end Texts

/-! ### Counts -/

theorem IntFits.ofNat {count : Nat} (small : count ≤ 20000) : IntFits count := by
  rw [IntFits]
  omega

theorem IntFits.of_number {number : Int} {capacity : Nat} (bounds : 1 ≤ number ∧ number ≤ capacity)
    (small : capacity ≤ 20000) : IntFits number := by
  rw [IntFits]
  omega

theorem length_selectBooks_le {archive : Archive} (numbered : archive.WellNumbered)
    {collation : Char → Char → Bool} {book : BookEntry} {rows : List ResultRow}
    (selects : selectBooks collation book archive.books = some rows) :
    rows.length ≤ maxBookNum := by
  rcases numbered.1 with ⟨count, few, books⟩
  have length := books.length
  have short : ∀ selected : BookRow → Bool,
      (archive.books.filter selected).length ≤ maxBookNum := by
    intro selected
    have fewer := List.length_filter_le selected archive.books
    omega
  rw [selectBooks] at selects
  split at selects
  · rw [← Option.some.inj selects, List.length_map]
    exact short _
  · rcases Option.map_eq_some_iff.mp selects with ⟨selected, _, rows⟩
    rw [← rows]
    split <;> rw [List.length_map]
    · exact List.length_take_le _ _
    · exact (List.length_take_le _ _).trans (by decide)

/-- A find counts the rows it has selected. -/
theorem srvdbBookFind_count_le {msg : MessageCs} {db after : Mysql} {nrows : Nat}
    (numbered : db.archive.WellNumbered) (result : srvdbBookFind msg db = (some nrows, after)) :
    nrows ≤ maxBookNum := by
  rcases Classical.em (∃ rows, FindsBooks msg db rows) with ⟨rows, finds⟩ | refused
  · rw [srvdbBookFind_of_finds finds] at result
    obtain rfl := Option.some.inj (congrArg Prod.fst result)
    exact length_selectBooks_le numbered finds.selects
  · have unfound := srvdbBookFind_of_not_finds fun rows finds => refused ⟨rows, finds⟩
    rw [result] at unfound
    cases unfound

section Questions

theorem flags_small : nulChar.toNat < 256 ∧ flagOnReading.toNat < 256 ∧
    flagFindUnsorted.toNat < 256 := by
  decide

variable {msg : MessageCs} (fits : msg.OnWire) (kind : msg.request.member = some .book)

include fits kind

theorem MessageCs.countOnReading_onWire : msg.countOnReading.OnWire := by
  rcases bookLayout_fits_iff.mp (fits.book kind) with
    ⟨⟨shelfno, floorno, _⟩, name, author, label, borrowed, _, time⟩
  have limit : IntFits breakLimitInt := @IntFits.ofNat (maxBookNum + 1) (by decide)
  exact fits.setBook kind (bookLayout_fits_iff.mpr
    ⟨⟨shelfno, floorno, limit⟩, name, author, label, borrowed, flags_small.2.1, time⟩)

theorem MessageCs.countBorrowed_onWire : msg.countBorrowed.OnWire := by
  rcases bookLayout_fits_iff.mp (fits.book kind) with ⟨codes, name, author, label, _, _, time⟩
  exact fits.setBook kind (bookLayout_fits_iff.mpr
    ⟨codes, name, author, label, flags_small.2.1, flags_small.1, time⟩)

theorem MessageCs.countUnsorted_onWire : msg.countUnsorted.OnWire := by
  rcases bookLayout_fits_iff.mp (fits.book kind) with ⟨codes, name, author, label, _, _, time⟩
  exact fits.setBook kind (bookLayout_fits_iff.mpr
    ⟨codes, name, author, label, flags_small.2.2, flags_small.2.2, time⟩)

theorem MessageCs.countAll_onWire : msg.countAll.OnWire := by
  rcases bookLayout_fits_iff.mp (fits.book kind) with ⟨codes, _, _, _, _, _, time⟩
  have zero : ∀ capacity, 1 < capacity → TextFits capacity "0" := fun _ room => ⟨room, by decide⟩
  exact fits.setBook kind (bookLayout_fits_iff.mpr
    ⟨codes, zero _ (by decide), zero _ (by decide), zero _ (by decide), flags_small.1,
      flags_small.1, time⟩)

end Questions

theorem srvdbBookCount_onWire {msg : MessageCs} {db : Mysql} (fits : msg.OnWire)
    (numbered : db.archive.WellNumbered) (kind : msg.request.member = some .book) :
    (srvdbBookCount msg db).2.1.OnWire := by
  have onReadingMsg := MessageCs.countOnReading_onWire fits kind
  have borrowedMsg := MessageCs.countBorrowed_onWire onReadingMsg kind
  have unsortedMsg := MessageCs.countUnsorted_onWire borrowedMsg kind
  have allMsg := MessageCs.countAll_onWire unsortedMsg kind
  have kept : ∀ {msg : MessageCs} {db after : Mysql} {nrows : Option Nat},
      db.archive.WellNumbered → srvdbBookFind msg db = (nrows, after) →
        after.archive.WellNumbered := by
    intro msg db after nrows numbered result
    rw [(srvdbBookFind_eq_reads result).archive]
    exact numbered
  rw [srvdbBookCount]
  dsimp only
  split
  · exact onReadingMsg
  · rename_i booksOnReading first result
    have onReadingCount := srvdbBookFind_count_le numbered result
    have numbered := kept numbered result
    split
    · exact borrowedMsg
    · rename_i booksBorrowed second result
      have borrowedCount := srvdbBookFind_count_le numbered result
      have numbered := kept numbered result
      split
      · exact unsortedMsg
      · rename_i booksUnsorted third result
        have unsortedCount := srvdbBookFind_count_le numbered result
        have numbered := kept numbered result
        split
        · exact allMsg
        · rename_i booksAll last result
          have allCount := srvdbBookFind_count_le numbered result
          have limit : maxBookNum = 10000 := rfl
          refine allMsg.setBookCount ?_ (IntFits.ofNat ?_) (IntFits.ofNat ?_) (IntFits.ofNat ?_)
          · have sum := @IntFits.ofNat (booksAll + booksUnsorted) (by omega)
            rwa [Int.natCast_add] at sum
          · omega
          · omega
          · omega

/-! ### The reply to a request -/

theorem Server.answerFind_onWire {request : MessageCs} {found : Option Nat × Mysql}
    {decode : ResultRow → MessageCs → Option MessageCs}
    {fetch : MessageCs → Mysql → FetchResult × MessageCs × Mysql} {server : Server}
    {member : StuffMember} (fits : request.OnWire) (kind : request.request.member = some member)
    (fetches : ∀ msg (db : Mysql) rows, db.resPtr = some rows →
      fetch msg db = fetchResult decode rows msg db)
    (fills : ∀ nrows, found.1 = some nrows → nrows ≤ 20000 ∧ ∃ rows, found.2.resPtr = some rows ∧
      ∀ row ∈ rows, ∀ msg filled, msg.OnWire ∧ msg.request.member = some member →
        decode row msg = some filled → filled.OnWire ∧ filled.request.member = some member) :
    ∀ reply ∈ (server.answerFind fetch request found).2.1, reply.OnWire := by
  rcases found with ⟨_ | nrows, db⟩
  · exact send_all (fits.respond .failed) _
  · rcases fills nrows rfl with ⟨few, rows, stored, decodes⟩
    have initial := fits.setExtra (IntFits.ofNat few)
    have responds : ∀ (msg : MessageCs) (response : ServerResponse),
        msg.OnWire ∧ msg.request.member = some member →
          (msg.respond response).OnWire ∧ (msg.respond response).request.member = some member :=
      fun _ response both => ⟨both.1.respond response, both.2⟩
    have all := @sendRows_all _ responds _ _ fetches _ decodes (nrows + 1) _ ⟨initial, kind⟩
      (server.withDb db) stored
    exact fun reply member => (all reply member).1

theorem selectShelves_source {code : Int} {shelves : List ShelfRow} {row : ShelfRow}
    (member : ResultRow.shelf row ∈ selectShelves code shelves) : row ∈ shelves := by
  rw [selectShelves] at member
  split at member
  · rcases List.mem_map.mp member with ⟨_, _, same⟩
    cases same
  · split at member <;>
      rcases List.mem_map.mp member with ⟨source, sourceMem, same⟩ <;>
      have kept := mem_orderBy.mp (List.mem_of_mem_take sourceMem) <;>
      exact ResultRow.shelf.inj same ▸ List.mem_of_mem_filter kept

theorem srvdbBookInsert_onWire {msg : MessageCs} {db : Mysql} (fits : msg.OnWire)
    (numbered : db.archive.WellNumbered) (kind : msg.request.member = some .book) :
    (srvdbBookInsert msg db).2.1.OnWire := by
  apply @Allocation.allocate_message _ (bookAllocation db.mode msg.stuff.book) _ _ _ _ numbered.1
    fits
  · exact fits.withError "上架失败:图书数量达到上限" (textFits_of_strlen (by decide))
  · intro number positive bound
    rcases bookLayout_fits_iff.mp (fits.book kind) with ⟨⟨shelfno, floorno, _⟩, others⟩
    have range : IntFits number := @IntFits.of_number _ maxBookNum ⟨positive, bound⟩ (by decide)
    have recorded : (msg.setBookno number).OnWire :=
      fits.setBook kind (bookLayout_fits_iff.mpr ⟨⟨shelfno, floorno, range⟩, others⟩)
    exact ⟨recorded, recorded.withError "上架图书失败..."
      (textFits_of_strlen (by decide))⟩

theorem srvdbShelfBuild_onWire {msg : MessageCs} {db : Mysql} (fits : msg.OnWire)
    (numbered : db.archive.WellNumbered) (kind : msg.request.member = some .shelf) :
    (srvdbShelfBuild msg db).2.1.OnWire := by
  apply @Allocation.allocate_message _ (shelfAllocation db.mode msg.stuff.shelf) _ _ _ _ numbered.2
    fits
  · exact fits.withError "打造失败:书架达到上限" (textFits_of_strlen (by decide))
  · intro number positive bound
    have range : IntFits number := @IntFits.of_number _ maxShelfNum ⟨positive, bound⟩ (by decide)
    rcases fits.shelf kind with ⟨counted, _, others⟩
    have recorded : (msg.setShelfno number).OnWire := fits.setShelf kind ⟨counted, range, others⟩
    exact ⟨recorded, recorded.withError "打造书架失败"
      (textFits_of_strlen (by decide))⟩

theorem srvdbShelfCount_onWire {msg : MessageCs} {db : Mysql} (fits : msg.OnWire)
    (numbered : db.archive.WellNumbered) (kind : msg.request.member = some .shelf) :
    (srvdbShelfCount msg db).2.1.OnWire := by
  have range : IntFits breakLimitInt := @IntFits.ofNat (maxBookNum + 1) (by decide)
  rcases fits.shelf kind with ⟨counted, _, others⟩
  have asked : (msg.setShelfno breakLimitInt).OnWire :=
    fits.setShelf kind ⟨counted, range, others⟩
  rw [srvdbShelfCount]
  by_cases finds : FindsShelves (msg.setShelfno breakLimitInt) db
  · have few := length_selectShelves_le numbered breakLimitInt
    rw [srvdbShelfFind_of_finds finds]
    exact asked.setExtra (IntFits.ofNat (few.trans (by decide)))
  · have unfound := srvdbShelfFind_of_not_finds finds
    rcases result : srvdbShelfFind (msg.setShelfno breakLimitInt) db with ⟨nrows, after⟩
    rw [result] at unfound
    subst unfound
    simpa only [result] using asked

namespace Server

variable {server : Server} {request : MessageCs}

theorem answerFind_books_onWire (fits : server.db.archive.OnWire) (sent : request.OnWire)
    (kind : request.request.member = some .book) :
    ∀ reply ∈ (server.answerFind srvdbBookFetchResult request
      (srvdbBookFind request server.db)).2.1, reply.OnWire := by
  by_cases refused : ∀ rows, ¬ FindsBooks request server.db rows
  · have unfound := srvdbBookFind_of_not_finds refused
    rcases result : srvdbBookFind request server.db with ⟨nrows, db⟩
    rw [result] at unfound
    subst unfound
    exact send_all (sent.respond .failed) _
  · rcases not_forall_not.mp refused with ⟨rows, finds⟩
    have limit : maxBookNum ≤ 20000 := by decide
    have few := (length_selectBooks_le fits.numbered finds.selects).trans limit
    by_cases counting : request.stuff.book.bookno = breakLimitInt
    · rw [srvdbBookFind_of_finds finds, if_pos counting, answerFind, sendRows]
      exact send_all ((sent.setExtra (IntFits.ofNat few)).respond .findEnd) _
    · apply answerFind_onWire sent kind srvdbBookFetchResult_fetches
      intro nrows found
      rw [srvdbBookFind_of_finds finds, if_neg counting] at found ⊢
      refine ⟨Option.some.inj found ▸ few, rows, rfl, ?_⟩
      intro row member msg filled holds decoded
      cases row with
      | bookno _ => cases decoded
      | shelfno _ => cases decoded
      | shelf _ => cases decoded
      | book row =>
          obtain rfl := Option.some.inj decoded
          have source := (mem_selectBooks finds.selects member).1
          have bounds := (bookAllocation .strict .zeroed).number_bounds fits.numbered.1 source
          have entry := (fits.books row source).entry (IntFits.of_number bounds (by decide))
          exact ⟨holds.1.setBook holds.2 entry, holds.2⟩

theorem answerFind_shelves_onWire (fits : server.db.archive.OnWire) (sent : request.OnWire)
    (kind : request.request.member = some .shelf) :
    ∀ reply ∈ (server.answerFind srvdbShelfFetchResult request
      (srvdbShelfFind request server.db)).2.1, reply.OnWire := by
  apply answerFind_onWire sent kind srvdbShelfFetchResult_fetches
  intro nrows found
  by_cases finds : FindsShelves request server.db
  · rw [srvdbShelfFind_of_finds finds] at found ⊢
    have few := length_selectShelves_le fits.numbered request.stuff.shelf.code
    have limit : maxShelfNum = 15 := rfl
    refine ⟨?_, _, rfl, ?_⟩
    · rw [← Option.some.inj found]
      omega
    · intro row member msg filled holds decoded
      cases row with
      | bookno _ => cases decoded
      | shelfno _ => cases decoded
      | book _ => cases decoded
      | shelf row =>
          obtain rfl := Option.some.inj decoded
          have source := selectShelves_source member
          have bounds := (shelfAllocation .strict .zeroed).number_bounds fits.numbered.2 source
          have entry := (fits.shelves row source).entry (IntFits.of_number bounds (by decide))
          exact ⟨holds.1.setShelf holds.2 entry, holds.2⟩
  · have unfound := srvdbShelfFind_of_not_finds finds
    rw [unfound] at found
    cases found

/-- A server with tables that fit answers a message that fits by messages that fit. -/
theorem replies_onWire (sent : request.OnWire) (fits : server.db.archive.OnWire) :
    ∀ reply ∈ server.replies request, reply.OnWire := by
  have opened := sent.opened
  cases kind : request.request with
  | insertBook =>
      have handled : socketSrvHandle request server =
          server.answer (srvdbBookInsert request.opened server.db) := by
        simp only [socketSrvHandle, kind, MessageCs.opened]
      rw [replies, handled]
      exact answer_onWire (srvdbBookInsert_onWire opened fits.numbered (by rw [kind]; rfl))
  | findBook =>
      rw [replies, handle_findBook kind]
      exact answerFind_books_onWire fits opened (by rw [MessageCs.opened, kind]; rfl)
  | deleteBook =>
      simp only [replies, socketSrvHandle, kind]
      exact answer_onWire (kind ▸ opened)
  | updateBook =>
      simp only [replies, socketSrvHandle, kind]
      exact answer_onWire (kind ▸ opened)
  | countBook =>
      have handled : socketSrvHandle request server =
          server.answer (srvdbBookCount request.opened server.db) := by
        simp only [socketSrvHandle, kind, MessageCs.opened]
      rw [replies, handled]
      exact answer_onWire (srvdbBookCount_onWire opened fits.numbered (by rw [kind]; rfl))
  | buildShelf =>
      have handled : socketSrvHandle request server =
          server.answer (srvdbShelfBuild request.opened server.db) := by
        simp only [socketSrvHandle, kind, MessageCs.opened]
      rw [replies, handled]
      exact answer_onWire (srvdbShelfBuild_onWire opened fits.numbered (by rw [kind]; rfl))
  | removeShelf =>
      simp only [replies, socketSrvHandle, kind]
      exact answer_onWire (kind ▸ opened)
  | findShelf =>
      rw [replies, handle_findShelf kind]
      exact answerFind_shelves_onWire fits opened (by rw [MessageCs.opened, kind]; rfl)
  | countShelf =>
      have handled : socketSrvHandle request server =
          server.answer (srvdbShelfCount request.opened server.db) := by
        simp only [socketSrvHandle, kind, MessageCs.opened]
      rw [replies, handled]
      exact answer_onWire (srvdbShelfCount_onWire opened fits.numbered (by rw [kind]; rfl))
  | verifyAccount =>
      have verified := @srvdbAccountVerify_onWire _ server.db server.bcrypt opened
      simp only [kind] at verified
      simp only [replies, socketSrvHandle, kind]
      split
      · rename_i result
        rw [result] at verified
        exact answer_onWire verified
      · rename_i result
        rw [result] at verified
        split <;> exact answer_onWire verified
  | registerAccount =>
      simp only [replies, socketSrvHandle, kind]
      exact answer_onWire (srvdbAccountRegister_onWire _ _ (kind ▸ opened))
  | heartbeat =>
      simp only [replies, socketSrvHandle, kind]
      exact fun _ none => absurd none List.not_mem_nil

end Server

theorem performAll_onWire {requests : List MessageCs} (sent : ∀ request ∈ requests, request.OnWire)
    {server : Server} (fits : server.db.archive.OnWire) :
    (∀ reply ∈ (performAll requests server).1, reply.OnWire) ∧
      (performAll requests server).2.db.archive.OnWire := by
  induction requests generalizing server with
  | nil => exact ⟨fun _ none => absurd none List.not_mem_nil, fits⟩
  | cons request requests induction =>
      have first := sent request List.mem_cons_self
      have later := induction (fun other member => sent other (List.mem_cons_of_mem _ member))
        (Server.step_onWire first fits)
      refine ⟨?_, later.2⟩
      rw [performAll]
      intro reply member
      rcases List.mem_append.mp member with now | after
      · exact Server.replies_onWire first fits reply now
      · exact later.1 reply after

/-! ## The server of all accounts -/

theorem Archive.onWire_tablewise : Archive.Tablewise Archive.OnWire where
  empty := onWire_empty
  mixes left right :=
    ⟨wellNumbered_tablewise.mixes left.numbered right.numbered, right.books, left.shelves⟩

/-- Nothing is lost of a message in the memory of a message, whatever else the memory holds. -/
def MessageCs.Stores (msg : MessageCs) : Prop :=
  ∀ old : List UInt8, old.length = msgSize →
    (messageLayout.store msg old).length = msgSize ∧
      messageLayout.load (messageLayout.store msg old) = some msg

theorem MessageCs.OnWire.stores {msg : MessageCs} (fits : msg.OnWire) : msg.Stores := by
  have layout := messageLayout_fits_iff.mpr fits
  exact fun old size =>
    ⟨messageLayout.length_store msg old layout size, messageLayout.load_store msg old layout size⟩

namespace Host

theorem handle_onWire {host : Host} {event : Event} (sent : event.request.OnWire)
    (fits : ∀ user, (host.tables.ofUser user).archive.OnWire) :
    (∀ reply ∈ (host.handle event).1.2, reply.OnWire) ∧
      ∀ user, ((host.handle event).2.tables.ofUser user).archive.OnWire :=
  ⟨Server.replies_onWire sent (entered_holds Archive.onWire_tablewise fits),
    step_holds Archive.onWire_tablewise fits fun _ => Server.step_onWire sent⟩

theorem run_onWire {events : List Event} (sent : ∀ event ∈ events, event.request.OnWire)
    {host : Host} (fits : ∀ user, (host.tables.ofUser user).archive.OnWire) :
    ∀ item ∈ (host.run events).1, ∀ reply ∈ item.2.2, reply.OnWire := by
  induction events generalizing host with
  | nil => exact fun _ none => absurd none List.not_mem_nil
  | cons event events induction =>
      have first := handle_onWire (sent event List.mem_cons_self) fits
      have later := induction (fun other member => sent other (List.mem_cons_of_mem _ member))
        first.2
      intro item member
      rcases List.mem_cons.mp member with rfl | after
      · exact first.1
      · exact later item after

/-- Whatever requests a server without tables is sent, as long as a message can be read from their
bytes, and whatever fails in between: no reply overflows a field of the message it is written
into, and it is read back as it was. -/
theorem replies_stored (server : Server) {events : List Event}
    (sent : ∀ event ∈ events, ∃ bytes : List UInt8, bytes.length = msgSize ∧
      messageLayout.load bytes = some event.request) :
    ∀ item ∈ (run ⟨server, .fresh⟩ events).1, ∀ reply ∈ item.2.2, reply.Stores := by
  have loaded : ∀ event ∈ events, event.request.OnWire := by
    intro event member
    rcases sent event member with ⟨bytes, size, loads⟩
    exact messageLayout_fits_iff.mp (messageLayout.fits_load _ bytes size loads)
  have start : ∀ user, ((⟨server, .fresh⟩ : Host).tables.ofUser user).archive.OnWire :=
    fun _ => Archive.onWire_empty
  intro item member reply replied
  exact (run_onWire loaded start item member reply replied).stores

end Host

theorem onWire_removal : (clientShelfDeleteItselfMsg "reader" 1).OnWire where
  user := ⟨by decide, by decide⟩
  stuff := ⟨⟨rfl, rfl⟩, trivial, ⟨rfl, ⟨by decide, by decide⟩, ⟨by decide, by decide⟩,
    ⟨by decide, by decide⟩, trivial, ⟨by decide, by decide⟩⟩, trivial⟩
  errorText := ⟨by decide, by decide⟩
  extraSize := rfl
  extraInfo := by
    intro value member
    rw [List.eq_of_mem_replicate member]
    exact ⟨by decide, by decide⟩

theorem length_cleared : (List.replicate msgSize (0 : UInt8)).length = msgSize :=
  List.length_replicate

/-- A request to remove a shelf. -/
def sampleRemoval : Event where
  request := clientShelfDeleteItselfMsg "reader" 1
  faults := []
  salts := []
  sendFaults := []
  plain := by decide
  plainAccount := by decide

def unusedServer : Server :=
  .fresh .strict (fun left right => left == right) [] ⟨fun _ _ => none, fun _ _ => 1⟩ [] []

theorem removal_stored : ∃ result replies,
    (Host.run ⟨unusedServer, .fresh⟩ [sampleRemoval]).1 = [(sampleRemoval, result, replies)] ∧ replies ≠ [] ∧
      ∀ reply ∈ replies, reply.Stores := by
  have sent : ∀ event ∈ [sampleRemoval], ∃ bytes : List UInt8, bytes.length = msgSize ∧
      messageLayout.load bytes = some event.request := by
    intro event member
    rw [List.mem_singleton.mp member]
    have stored := onWire_removal.stores _ length_cleared
    exact ⟨_, stored.1, stored.2⟩
  have stored := Host.replies_stored unusedServer sent
  refine ⟨_, _, rfl, by decide, ?_⟩
  exact stored _ (List.mem_singleton.mpr rfl)

end Bookshelfdq
