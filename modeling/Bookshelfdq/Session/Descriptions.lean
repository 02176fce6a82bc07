import Bookshelfdq.Session.PageEffects

/-! # Looking at, lending and returning books

The entry that an action sends back has been on the screen before. What the screen does to
it decides whether the book keeps its description. -/

namespace Bookshelfdq

/-! ## Descriptions -/

/-- An entry without its two flags. -/
def BookEntry.description (book : BookEntry) : BookEntry :=
  { book with borrowed := nulChar, onReading := nulChar }

/-- A row without its two flags. -/
def BookRow.description (row : BookRow) : BookRow :=
  { row with borrowed := nulChar, onReading := nulChar }

theorem movedBook_description (book : BookEntry) (moveAction : Int) :
    (movedBook book moveAction).1.description = book.description := by
  rcases Ncgui.movedBook_flags book moveAction with ⟨borrowed, onReading, moved⟩
  rw [moved]
  rfl

/-- The widths of the columns. -/
structure BookRow.Fits (row : BookRow) : Prop where
  name : row.name.length ≤ 200
  author : row.author.length ≤ 70
  label : row.label.length ≤ 200

theorem SqlMode.length_store {mode : SqlMode} {width : Nat} {text stored : String}
    (accepted : mode.store width text = some stored) : stored.length ≤ width := by
  by_cases fits : text.length ≤ width
  · rw [store_of_fits fits] at accepted
    exact Option.some.inj accepted ▸ fits
  · cases mode with
    | strict =>
        rw [strict_store fits] at accepted
        cases accepted
    | lenient =>
        rw [lenient_store fits] at accepted
        rw [← Option.some.inj accepted, String.length_ofList]
        exact List.length_take_le _ _

theorem BookEntry.row_fits {mode : SqlMode} {book : BookEntry} {bookno : Int} {row : BookRow}
    (written : book.row mode bookno = some row) : row.Fits := by
  rcases Option.bind_eq_some_iff.mp written with ⟨name, storesName, written⟩
  rcases Option.bind_eq_some_iff.mp written with ⟨author, storesAuthor, written⟩
  rcases Option.map_eq_some_iff.mp written with ⟨label, storesLabel, rfl⟩
  exact ⟨SqlMode.length_store storesName, SqlMode.length_store storesAuthor,
    SqlMode.length_store storesLabel⟩

/-- Writing a description back over the row it came from changes nothing but the flags. -/
theorem BookEntry.row_description {mode : SqlMode} {sent : BookEntry} {row changed : BookRow}
    (described : sent.description = row.entry.description) (fits : row.Fits)
    (available : row.cleaned = .avl) (written : sent.row mode row.bookno = some changed) :
    changed.description = row.description := by
  rcases row with ⟨shelfno, floorno, bookno, name, author, label, borrowed, onReading, cleaned,
    encodingTime⟩
  rcases sent with ⟨sentShelfno, sentFloorno, sentBookno, sentName, sentAuthor, sentLabel,
    sentBorrowed, sentOnReading, sentTime⟩
  simp only [description, BookRow.entry, BookEntry.mk.injEq] at described
  rcases described with ⟨rfl, rfl, rfl, rfl, rfl, rfl, _, _, rfl⟩
  subst available
  rw [BookEntry.row, SqlMode.store_of_fits fits.name, SqlMode.store_of_fits fits.author,
    SqlMode.store_of_fits fits.label] at written
  rw [← Option.some.inj written]
  rfl

theorem Server.step_fits {server : Server} (numbered : server.db.archive.WellNumbered)
    (fits : ∀ row ∈ server.db.archive.books, row.Fits) (request : MessageCs) :
    ∀ row ∈ (server.step request).db.archive.books, row.Fits :=
  step_rows (fun _ _ fits => ⟨fits.name, fits.author, fits.label⟩) numbered fits
    fun _ _ _ written => BookEntry.row_fits written

theorem Server.step_update_description {server : Server} {loginUser : String} {sent : BookEntry}
    {row : BookRow} (numbered : server.db.archive.WellNumbered)
    (member : row ∈ server.db.archive.books) (fits : row.Fits) (available : row.cleaned = .avl)
    (described : sent.description = row.entry.description) :
    (server.step (clientShelfTaggingBookMsg loginUser sent)).db.archive.books.map
        BookRow.description = server.db.archive.books.map BookRow.description := by
  have number : sent.bookno = row.bookno := congrArg BookEntry.bookno described
  have positive := (numbered.bookno_bounds member).1
  have single : sent.namesShelf = false := by
    have apart : sent.bookno ≠ nonSenseInt := by
      have zero : nonSenseInt = 0 := rfl
      omega
    rw [BookEntry.namesShelf, beq_eq_false_iff_ne.mpr apart, Bool.false_and]
  rcases server.step_update_cases sent with archive | ⟨whole, _⟩ | ⟨books, _, updated, archive⟩
  · rw [archive]
  · rw [single] at whole
    cases whole
  · rw [archive]
    apply Table.map_update _ updated
    intro other otherMem changed chosen written
    have same : other = row := by
      rcases numbered.1 with ⟨count, _, numbered⟩
      exact numbered.key_injective otherMem member ((beq_iff_eq.mp chosen).trans number)
    subst same
    exact BookEntry.row_description described fits available written

/-! ## Looking -/

namespace Ncgui

/-- The inputs that look at books, lend them or return them. -/
def Input.looks : Input → Bool
  | .key (.action .reading) => true
  | .key (.action .borrow) => true
  | .key (.action _) => false
  | input => input.ofPage

/-- The author is displayed in full, so far as it is measured. -/
def displaysAuthor (book : BookEntry) : Bool :=
  !(measuredFrom 18 0 book.author.toList).any cutChar

theorem showBookInfo_eq {book : BookEntry} (displays : displaysAuthor book = true) :
    showBookInfo book = book := by
  rw [showBookInfo]
  split
  · rfl
  · rw [(limitedText_eq_iff book.author 18).mpr (Bool.not_eq_true' _ ▸ displays)]

/-- If the action has an effect at all, the book under the slider is in the cache, stands
on a shelf, and has an author that is displayed in full. -/
def ActsOnWhole (gui : Ncgui) : Input → Prop
  | .key (.action action) =>
      ∀ page ∈ gui.shown,
        BookAction.stores gui.localShelfno (gui.acted page) gui.bcollect action ≠ none →
        ∃ book ∈ gui.client.books.clidbBookPeek (gui.curDbmPos page),
          displaysAuthor book = true ∧ ∃ row ∈ gui.client.link.server.db.archive.books,
            row.bookno = book.bookno ∧ row.cleaned = .avl
  | _ => True

/-- The rows on the server keep their descriptions, and so do the cached entries if the
input is an action. -/
def KeepsDescriptions (fuel : Nat) (gui : Ncgui) (input : Input) : Prop :=
  (gui.step fuel input).client.link.server.db.archive.books.map BookRow.description =
      gui.client.link.server.db.archive.books.map BookRow.description ∧
    ((∃ action, input = .key (.action action)) → ∀ position,
      ((gui.step fuel input).client.books.bookData position).map BookEntry.description =
        (gui.client.books.bookData position).map BookEntry.description)

/-- Every entry in the cache describes a row on the server. -/
structure Mirrors (gui : Ncgui) : Prop where
  prompt : gui.client.link.Prompt
  numbered : gui.client.link.server.db.archive.WellNumbered
  fits : ∀ row ∈ gui.client.link.server.db.archive.books, row.Fits
  entries : ∀ position book, gui.client.books.bookData position = some book →
    ∃ row ∈ gui.client.link.server.db.archive.books,
      book.description = row.entry.description

theorem BookAction.stores_description {localShelfno : Int} {book sent written : BookEntry}
    {bcollect : Bool} {action : BookAction} (looks : Input.looks (.key (.action action)) = true)
    (stored : stores localShelfno book bcollect action = some (sent, written)) :
    written = sent ∧ sent.description = book.description := by
  rcases stores_cases stored with ⟨floorno, _, rfl, _⟩ | ⟨label, _, rfl, _⟩ |
    ⟨_, _, _, rfl, rfl⟩ | ⟨_, _, rfl, rfl⟩
  · cases looks
  · cases looks
  · exact ⟨rfl, movedBook_description book 0⟩
  · exact ⟨rfl, movedBook_description book 1⟩

/-- The client keeps all descriptions. -/
structure Describes (client after : Client) : Prop where
  rows : after.link.server.db.archive.books.map BookRow.description =
    client.link.server.db.archive.books.map BookRow.description
  entries : ∀ position, (after.books.bookData position).map BookEntry.description =
    (client.books.bookData position).map BookEntry.description

theorem Mirrors.of_describes {gui after : Ncgui} (mirrors : gui.Mirrors)
    (prompt : after.client.link.Prompt)
    (numbered : after.client.link.server.db.archive.WellNumbered)
    (fits : ∀ row ∈ after.client.link.server.db.archive.books, row.Fits)
    (describes : Describes gui.client after.client) : after.Mirrors := by
  refine ⟨prompt, numbered, fits, ?_⟩
  intro position book stored
  have described := describes.entries position
  rw [stored] at described
  rcases Option.map_eq_some_iff.mp described.symm with ⟨earlier, cached, same⟩
  rcases mirrors.entries position earlier cached with ⟨row, member, entry⟩
  have kept : row.description ∈
      after.client.link.server.db.archive.books.map BookRow.description := by
    rw [describes.rows]
    exact List.mem_map_of_mem member
  rcases List.mem_map.mp kept with ⟨later, laterMem, equal⟩
  refine ⟨later, laterMem, ?_⟩
  calc book.description = earlier.description := same.symm
    _ = row.entry.description := entry
    _ = later.entry.description := (congrArg BookRow.entry equal).symm

theorem Mirrors.reads {gui after : Ncgui} {msg : MessageCs} (mirrors : gui.Mirrors)
    (readsOnly : msg.archiveRequest = none) (reads : gui.client.Reads msg after.client) :
    after.Mirrors := by
  have archive := reads.sends.archive_of_reading readsOnly
  refine ⟨reads.prompt, reads.sends.wellNumbered mirrors.numbered, ?_, ?_⟩
  · rw [archive]
    exact mirrors.fits
  · intro position book stored
    rw [archive]
    rcases reads.entries position book stored with ⟨cached, _⟩ | ⟨row, lists, rfl⟩
    · exact mirrors.entries position book cached
    · exact ⟨row, lists.mem, rfl⟩

/-- The entry under the slider describes the row that an action writes. -/
theorem Mirrors.updates {gui : Ncgui} {after : Client} {book sent : BookEntry} {position : Nat}
    (mirrors : gui.Mirrors) (stored : gui.client.books.bookData position = some book)
    (described : sent.description = book.description)
    (standing : ∃ row ∈ gui.client.link.server.db.archive.books,
      row.bookno = book.bookno ∧ row.cleaned = .avl)
    (updates : Updates sent sent position gui.client after) : Describes gui.client after := by
  rcases mirrors.entries position book stored with ⟨row, member, entry⟩
  rcases standing with ⟨shelved, shelvedMem, number, available⟩
  have same : shelved = row := by
    rcases mirrors.numbered.1 with ⟨count, _, numbered⟩
    exact numbered.key_injective shelvedMem member
      (number.trans (congrArg BookEntry.bookno entry))
  subst same
  constructor
  · apply @Link.Sends.server_holds _ _ _ updates.sends (fun server =>
      server.db.archive.books.map BookRow.description =
        gui.client.link.server.db.archive.books.map BookRow.description) rfl
    exact Server.step_update_description mirrors.numbered member (mirrors.fits _ member) available
      (described.trans entry)
  · intro other
    rcases updates.books with kept | ⟨written, _⟩
    · rw [kept]
    · rw [written, BookCache.clidbBookInsertAt_data]
      by_cases there : other = position
      · rw [there, Function.update_self, stored, Option.map_some, Option.map_some, described]
      · rw [Function.update_of_ne there]

/-- An action on an entry that is displayed as it is changes no description. -/
theorem Mirrors.acts {gui : Ncgui} {action : BookAction} (mirrors : gui.Mirrors) (fuel : Nat)
    (looks : Input.looks (.key (.action action)) = true)
    (whole : gui.ActsOnWhole (.key (.action action))) :
    (gui.step fuel (.key (.action action))).Mirrors ∧
      Describes gui.client (gui.step fuel (.key (.action action))).client := by
  have idle : ∀ after : Ncgui, after.client = gui.client →
      after.Mirrors ∧ Describes gui.client after.client := by
    intro after same
    have describes : Describes gui.client after.client := by
      rw [same]
      exact ⟨rfl, fun _ => rfl⟩
    exact ⟨⟨same ▸ mirrors.prompt, same ▸ mirrors.numbered, same ▸ mirrors.fits,
      same ▸ mirrors.entries⟩, describes⟩
  rcases gui.step_action fuel action with same | ⟨page, shown, client⟩
  · exact idle _ same
  · rcases act_cases mirrors.prompt action gui.bcollect gui.localShelfno (gui.acted page)
      (gui.curDbmPos page) with same | ⟨_, rfl, _⟩ | ⟨sent, written, stored, updates⟩
    · exact idle _ (client.trans same)
    · cases looks
    · rw [← client] at updates
      rcases BookAction.stores_description looks stored with ⟨rfl, described⟩
      have effective : BookAction.stores gui.localShelfno (gui.acted page) gui.bcollect action ≠
          none := by
        rw [stored]
        exact Option.some_ne_none _
      rcases whole page shown effective with ⟨book, peek, displays, standing⟩
      have acted : gui.acted page = book := by
        rw [Ncgui.acted, peeked, peek, Option.getD_some, showBookInfo_eq displays]
      rw [acted] at described
      have describes := mirrors.updates peek described standing updates
      refine ⟨mirrors.of_describes updates.prompt (updates.sends.wellNumbered mirrors.numbered) ?_
        describes, describes⟩
      apply @Link.Sends.server_holds _ _ _ updates.sends (fun server =>
        ∀ row ∈ server.db.archive.books, row.Fits) mirrors.fits
      exact Server.step_fits mirrors.numbered mirrors.fits _

theorem step_describes {gui : Ncgui} (mirrors : gui.Mirrors) (fuel : Nat) {input : Input}
    (looks : input.looks = true) (whole : gui.ActsOnWhole input) :
    (gui.step fuel input).Mirrors ∧ gui.KeepsDescriptions fuel input := by
  by_cases active : ∃ action, input = .key (.action action)
  · rcases active with ⟨action, rfl⟩
    rcases mirrors.acts fuel looks whole with ⟨after, describes⟩
    exact ⟨after, describes.rows, fun _ => describes.entries⟩
  · have ofPage : input.ofPage = true := by
      cases input with
      | key key => rfl
      | _ => exact looks
    rcases step_reads mirrors.prompt fuel ofPage (fun action same => active ⟨action, same⟩) with
      ⟨msg, readsOnly, reads⟩
    refine ⟨mirrors.reads readsOnly reads, ?_, fun acts => absurd acts active⟩
    rw [reads.sends.archive_of_reading readsOnly]

/-- The server of a session, after any history. -/
theorem run_fresh_fits (mode : SqlMode) (collation : Char → Char → Bool)
    (accounts : List AccountRow) (bcrypt : Bcrypt) (salts : List (Option String))
    (sendFaults : List Bool) (history : List MessageCs) :
    let server := Execution.run Server.step
      (Server.fresh mode collation accounts bcrypt salts sendFaults) history
    server.db.archive.WellNumbered ∧ ∀ row ∈ server.db.archive.books, row.Fits := by
  apply @Execution.run_invariant _ _ Server.step (fun server =>
    server.db.archive.WellNumbered ∧ ∀ row ∈ server.db.archive.books, row.Fits)
  · rintro server request ⟨numbered, fits⟩
    exact ⟨server.step_wellNumbered request numbered, Server.step_fits numbered fits request⟩
  · refine ⟨Archive.wellNumbered_empty, ?_⟩
    intro row member
    exact absurd member List.not_mem_nil

/-- A session that looks at books, lends and returns them, and acts only on books that are
displayed as they are, keeps every description. -/
theorem looking_keeps_descriptions (fuel : Nat) (mode : SqlMode)
    (collation : Char → Char → Bool) (accounts : List AccountRow) (bcrypt : Bcrypt)
    (salts : List (Option String)) (sendFaults : List Bool) (history : List MessageCs)
    (loginUser : String) (inputs : List Input)
    (whole : Execution.Along (step fuel)
      (fun gui input => input.looks = true ∧ gui.ActsOnWhole input)
      (start (.connected (Execution.run Server.step
        (.fresh mode collation accounts bcrypt salts sendFaults) history) .empty .empty loginUser))
      inputs) :
    Execution.Along (step fuel) (KeepsDescriptions fuel)
      (start (.connected (Execution.run Server.step
        (.fresh mode collation accounts bcrypt salts sendFaults) history) .empty .empty loginUser))
      inputs := by
  rcases run_fresh_fits mode collation accounts bcrypt salts sendFaults history with ⟨numbered, fits⟩
  generalize Execution.run Server.step _ history = server at whole numbered fits ⊢
  have initial : (start (.connected server .empty .empty loginUser)).Mirrors := by
    refine ⟨⟨rfl, rfl, rfl⟩, numbered, fits, ?_⟩
    intro position book stored
    cases stored
  refine (@Execution.always_and_along_of_along _ _ (step fuel) Mirrors _ (KeepsDescriptions fuel)
    Mirrors ?_ ?_ ?_ _ initial _ whole).2
  · intro gui input mirrors allowed
    exact (step_describes mirrors fuel allowed.1 allowed.2).1
  · intro gui mirrors
    exact mirrors
  · intro gui input mirrors allowed
    exact (step_describes mirrors fuel allowed.1 allowed.2).2

instance (gui : Ncgui) : (input : Input) → Decidable (gui.ActsOnWhole input)
  | .key (.action action) => inferInstanceAs (Decidable (∀ page ∈ gui.shown,
      BookAction.stores gui.localShelfno (gui.acted page) gui.bcollect action ≠ none →
      ∃ book ∈ gui.client.books.clidbBookPeek (gui.curDbmPos page),
        displaysAuthor book = true ∧ ∃ row ∈ gui.client.link.server.db.archive.books,
          row.bookno = book.bookno ∧ row.cleaned = .avl))
  | .key .up => .isTrue trivial
  | .key .down => .isTrue trivial
  | .key .left => .isTrue trivial
  | .key (.right _) => .isTrue trivial
  | .key .backspace => .isTrue trivial
  | .display _ _ _ _ => .isTrue trivial
  | .call _ => .isTrue trivial
  | .newBook => .isTrue trivial

/-- The server before the session: a shelf with one book by the author. -/
def authorServer (author : String) : Server :=
  Execution.run Server.step Server.sample
    [clientBuildShelfMsg "reader" Server.sampleTime Server.sampleShelf,
      clientShelfInsertBookMsg "reader" Server.sampleTime
        { Server.sampleBook 1 with author := author }]

/-- The book is taken for reading, put back, lent and returned. -/
def lendingInputs : List Input :=
  [sampleVisit, .key (.action .reading), .key (.action .borrow), .key (.action .borrow),
    .key .backspace, sampleVisit, .key .down, .key (.action .borrow)]

theorem lending_keeps_description :
    Execution.Along (step 0) (fun gui input => input.looks = true ∧ gui.ActsOnWhole input)
        (start (.connected (authorServer "writer") .empty .empty "reader")) lendingInputs ∧
      Execution.Along (step 0) (KeepsDescriptions 0)
        (start (.connected (authorServer "writer") .empty .empty "reader")) lendingInputs :=
  have whole : Execution.Along (step 0)
      (fun gui input => input.looks = true ∧ gui.ActsOnWhole input)
      (start (.connected (authorServer "writer") .empty .empty "reader")) lendingInputs := by
    decide +kernel
  ⟨whole, looking_keeps_descriptions 0 .strict _ [] _ [] [] _ "reader" lendingInputs whole⟩

/-- Taken for reading, a book whose author is written in Cyrillic is left without one. -/
theorem reading_loses_author :
    (∀ input ∈ [sampleVisit, .key (.action .reading)], input.looks = true) ∧
      ¬ Execution.Along (step 0) (KeepsDescriptions 0)
        (start (.connected (authorServer "автор") .empty .empty "reader"))
        [sampleVisit, .key (.action .reading)] := by
  refine ⟨by decide, fun along => ?_⟩
  exact absurd along.2.1.1 (by decide +kernel)

end Ncgui

end Bookshelfdq
