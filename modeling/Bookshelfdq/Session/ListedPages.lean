import Bookshelfdq.Session.Coverage
import Bookshelfdq.Session.Modes
import Bookshelfdq.Session.Overwriting

/-! # Pages of a listing

Between two calls of `display_bookinfo_page` the statics stand for a page of the listing in the
cache. Turning a page keeps the listing, and so does an action on a book of it. -/

namespace Bookshelfdq

namespace Ncgui

/-! ## Invariants -/

/-- The cache covers the listing, and the page of the statics is in it unless it is the first. -/
structure Lists (gui : Ncgui) : Prop where
  calm : gui.client.Calm
  named : gui.client.loginUser ≠ ""
  covers : gui.client.Covers (BookRow.listedFor gui.modeShelf) gui.localBookno
  last : gui.noNextPageFlag = true →
    gui.client.Whole (BookRow.listedFor gui.modeShelf) gui.localBookno ∧
      gui.client.books.bookDbmPos ≤ (gui.bookPageCnt + 1) * padHight
  place : gui.bookPageCnt * padHight < gui.client.books.bookDbmPos ∨ gui.bookPageCnt = 0

/-- No page is shown, and the next call begins with the first book of the page. -/
structure Waits (gui : Ncgui) : Prop where
  lists : gui.Lists
  shown : gui.shown = none
  searchPos : gui.client.books.bookSearchPos = gui.bookPageCnt * padHight

/-- The page is shown as far as the cache reaches. -/
structure Leafs (gui : Ncgui) (page : BookPage) : Prop where
  lists : gui.Lists
  shown : gui.shown = some page
  search : page.search = none
  modeShelfno : page.modeShelfno = gui.modeShelf
  slider : page.currentRow < page.rows.length
  size : page.rows.length =
    min padHight (gui.client.books.bookDbmPos - gui.bookPageCnt * padHight)
  searchPos : gui.client.books.bookSearchPos = gui.bookPageCnt * padHight + page.rows.length
  searchStep : gui.client.books.bookSearchStep = padHight

/-- The rows are as they are in the cache. -/
def Fresh (gui : Ncgui) (page : BookPage) : Prop :=
  (page.rows.map fun row => some row.2.bookno) =
    (gui.client.books.numbers.drop (gui.bookPageCnt * padHight)).take padHight

/-- The number of books in the cache and behind it. -/
def extent (gui : Ncgui) : Nat :=
  gui.client.books.bookDbmPos +
    (gui.client.rowsAhead (BookRow.listedFor gui.modeShelf) gui.localBookno).length

/-- The same listing, with no less of it in the cache. -/
structure GoesOn (gui after : Ncgui) : Prop where
  continued : gui.client.Continued after.client
  numbers : gui.client.books.numbers <+: after.client.books.numbers
  extent : after.extent = gui.extent
  localShelfno : after.localShelfno = gui.localShelfno
  bcollect : after.bcollect = gui.bcollect
  globalNewBookComing : after.globalNewBookComing = gui.globalNewBookComing

theorem GoesOn.trans {first second third : Ncgui} (left : first.GoesOn second)
    (right : second.GoesOn third) : first.GoesOn third :=
  ⟨left.continued.trans right.continued, left.numbers.trans right.numbers,
    right.extent.trans left.extent, right.localShelfno.trans left.localShelfno,
    right.bcollect.trans left.bcollect,
    right.globalNewBookComing.trans left.globalNewBookComing⟩

theorem GoesOn.modeShelf {gui after : Ncgui} (goesOn : gui.GoesOn after) :
    after.modeShelf = gui.modeShelf := by
  rw [Ncgui.modeShelf, Ncgui.modeShelf, goesOn.bcollect, goesOn.localShelfno]

/-- A cache with the same entries, read at another place. -/
theorem Lists.goesOn {gui after : Ncgui} (lists : gui.Lists) {books : BookCache}
    (client : after.client = gui.client.withBooks books)
    (data : books.bookData = gui.client.books.bookData)
    (dbmPos : books.bookDbmPos = gui.client.books.bookDbmPos)
    (localShelfno : after.localShelfno = gui.localShelfno) (bcollect : after.bcollect = gui.bcollect)
    (localBookno : after.localBookno = gui.localBookno)
    (globalNewBookComing : after.globalNewBookComing = gui.globalNewBookComing) :
    gui.GoesOn after := by
  have numbers : books.numbers = gui.client.books.numbers := by
    rw [BookCache.numbers, BookCache.numbers, BookCache.stored, BookCache.stored, data, dbmPos]
  refine ⟨?_, ?_, ?_, localShelfno, bcollect, globalNewBookComing⟩
  · rw [client]
    exact lists.calm.withBooks books
  · rw [client]
    exact numbers ▸ List.prefix_refl _
  · rw [extent, extent, Ncgui.modeShelf, Ncgui.modeShelf, client, localShelfno, bcollect,
      localBookno]
    exact congrArg (· + _) dbmPos

/-- What covers the listing covers it from another page too. -/
theorem Lists.withPlace {gui after : Ncgui} (lists : gui.Lists) {books : BookCache}
    (client : after.client = gui.client.withBooks books)
    (data : books.bookData = gui.client.books.bookData)
    (dbmPos : books.bookDbmPos = gui.client.books.bookDbmPos)
    (modeShelf : after.modeShelf = gui.modeShelf) (localBookno : after.localBookno = gui.localBookno)
    (last : after.noNextPageFlag = true →
      gui.noNextPageFlag = true ∧ after.bookPageCnt = gui.bookPageCnt)
    (place : after.bookPageCnt * padHight < gui.client.books.bookDbmPos ∨ after.bookPageCnt = 0) :
    after.Lists := by
  have numbers : books.numbers = gui.client.books.numbers := by
    rw [BookCache.numbers, BookCache.numbers, BookCache.stored, BookCache.stored, data, dbmPos]
  have filled : books.Filled := by
    rw [BookCache.Filled, data, dbmPos]
    exact lists.covers.filled
  refine ⟨?_, ?_, ?_, ?_, ?_⟩
  · rw [client]
    exact (lists.calm.withBooks books).calm
  · rw [client]
    exact lists.named
  · rw [client, modeShelf, localBookno]
    exact lists.covers.kept (fun row member _ => .inl member) filled numbers
  · intro flag
    rcases last flag with ⟨before, same⟩
    rw [client, modeShelf, localBookno, same]
    refine ⟨(lists.last before).1, ?_⟩
    exact (le_of_eq dbmPos).trans (lists.last before).2
  · rw [client]
    change _ < books.bookDbmPos ∨ _
    rw [dbmPos]
    exact place

section Brings

variable {gui : Ncgui} (lists : gui.Lists) {rows : List (Nat × BookEntry)} {next : Int}
  {after : Client} (brought : gui.client.Brings gui.modeShelf gui.localBookno rows next after)

include brought

theorem goesOn_of_brings : gui.GoesOn { gui with client := after, localBookno := next } :=
  ⟨brought.continued, brought.numbers, brought.total, rfl, rfl, rfl⟩

theorem bookDbmPos_of_brings : gui.client.books.bookDbmPos ≤ after.books.bookDbmPos := by
  rw [← BookCache.length_numbers, ← BookCache.length_numbers]
  exact brought.numbers.length_le

/-- Behind the end of a listing nothing is brought. -/
theorem bookDbmPos_of_whole
    (whole : gui.client.Whole (BookRow.listedFor gui.modeShelf) gui.localBookno) :
    after.books.bookDbmPos = gui.client.books.bookDbmPos := by
  have total := brought.total
  have more := bookDbmPos_of_brings brought
  rw [Client.whole_iff.mp whole, List.length_nil] at total
  omega

theorem whole_of_brings (whole : gui.client.Whole (BookRow.listedFor gui.modeShelf) gui.localBookno) :
    after.Whole (BookRow.listedFor gui.modeShelf) next := by
  rw [brought.settled whole, Client.Whole, brought.continued.archive]
  exact whole

include lists

theorem Lists.of_brings : ({ gui with client := after, localBookno := next } : Ncgui).Lists := by
  have continued := brought.continued
  refine ⟨continued.calm, ?_, brought.covers, ?_, ?_⟩
  · change after.loginUser ≠ ""
    rw [continued.loginUser]
    exact lists.named
  · intro flag
    rcases lists.last flag with ⟨whole, bound⟩
    have ended : after.Whole (BookRow.listedFor gui.modeShelf) next := whole_of_brings brought whole
    exact ⟨ended, (bookDbmPos_of_whole brought whole).le.trans bound⟩
  · exact lists.place.imp_left fun used => used.trans_le (bookDbmPos_of_brings brought)

end Brings

/-! ## Visits -/

/-- The listing of the statics is displayed again. -/
structure PageFits (gui : Ncgui) (call : PageCall) : Prop where
  search : call.search = none
  localShelfno : gui.localShelfno = call.shelfno
  bcollect : gui.bcollect = call.collectMode
  globalNewBookComing : gui.globalNewBookComing = false

theorem PageFits.resetOnChange {call : PageCall} {gui : Ncgui} (fits : gui.PageFits call) :
    gui.resetOnChange call.shelfno call.collectMode call.search = gui := by
  have reused : ¬((gui.localShelfno ≠ call.shelfno ∧ gui.bcollect = call.collectMode) ∨
      gui.bcollect ≠ call.collectMode ∨ gui.globalNewBookComing = true) := by
    rintro (⟨other, _⟩ | other | coming)
    · exact other fits.localShelfno
    · exact other fits.bcollect
    · rw [fits.globalNewBookComing] at coming
      cases coming
  rw [fits.search, Ncgui.resetOnChange, if_neg reused]

theorem PageFits.goesOn {call : PageCall} {gui after : Ncgui} (fits : gui.PageFits call)
    (goesOn : gui.GoesOn after) : after.PageFits call :=
  ⟨fits.search, goesOn.localShelfno.trans fits.localShelfno, goesOn.bcollect.trans fits.bcollect,
    goesOn.globalNewBookComing.trans fits.globalNewBookComing⟩

/-- What is displayed: a page as it is in the cache, or nothing for an empty listing. -/
structure Opens (gui after : Ncgui) : Prop where
  goesOn : gui.GoesOn after
  bookPageCnt : after.bookPageCnt = gui.bookPageCnt
  noNextPageFlag : after.noNextPageFlag = gui.noNextPageFlag
  outcome : (after.Waits ∧ after.client.books.bookDbmPos = 0 ∧
      after.client.Whole (BookRow.listedFor after.modeShelf) after.localBookno) ∨
    ∃ page, after.Leafs page ∧ after.Fresh page

/-- The rows brought are the next numbers in the cache. -/
theorem numbers_of_brings {client after : Client} {shelfno bookno next : Int}
    {rows : List (Nat × BookEntry)} (brought : client.Brings shelfno bookno rows next after) :
    (rows.map fun row => some row.2.bookno) =
      (after.books.numbers.drop client.books.bookSearchPos).take padHight := by
  have length := brought.length
  have size := after.books.length_numbers
  apply List.ext_getElem?
  intro line
  rw [List.getElem?_map]
  cases entry : rows[line]? with
  | none =>
      have behind := List.getElem?_eq_none_iff.mp entry
      rw [List.getElem?_eq_none_iff.mpr]
      · rfl
      · rw [List.length_take, List.length_drop, size]
        exact length ▸ behind
  | some row =>
      have bound := (List.getElem?_eq_some_iff.mp entry).1
      rcases brought.entries line row entry with ⟨position, stored⟩
      rw [List.getElem?_take_of_lt (by omega), List.getElem?_drop,
        BookCache.getElem?_numbers (by omega), ← position, stored]
      rfl

/-- A call that begins with the listing of the statics. -/
theorem Waits.opens {gui : Ncgui} (waits : gui.Waits) (stale : BookEntry) {call : PageCall}
    {before : Ncgui} (supported : call.search = none)
    (reset : before.resetOnChange call.shelfno call.collectMode call.search = gui) :
    gui.Opens (before.display call.shelfno call.collectMode call.search stale) := by
  have lists := waits.lists
  have inside : gui.client.books.bookSearchPos ≤ gui.client.books.bookDbmPos := by
    rw [waits.searchPos]
    rcases lists.place with used | first
    · exact used.le
    · rw [first, Nat.zero_mul]
      exact Nat.zero_le _
  rcases Client.nextPageBookinfo_brings lists.calm lists.named lists.covers stale.bookno inside with
    ⟨rows, next, after, result, brought⟩
  have kept := lists.of_brings brought
  have goesOn := goesOn_of_brings brought
  have numbers := numbers_of_brings brought
  have length := brought.length
  have searchPos := brought.searchPos
  rw [waits.searchPos] at length numbers searchPos
  have reused : ¬(call.collectMode = true ∧ call.search.isSome = true) := by
    rw [supported]
    rintro ⟨_, impossible⟩
    cases impossible
  rw [supported] at reset reused ⊢
  rw [display, if_neg reused, reset]
  rw [modeShelf] at result
  dsimp only [Option.map_none]
  rw [result]
  cases rows with
  | nil =>
      have ended : after.Whole (BookRow.listedFor gui.modeShelf) next :=
        whole_of_brings brought (brought.ended rfl)
      rw [List.length_nil] at length searchPos
      refine ⟨goesOn, rfl, rfl, .inl ⟨⟨kept, waits.shown, searchPos⟩, ?_, ended⟩⟩
      · have positive : 0 < padHight := by decide
        have few : after.books.bookDbmPos ≤ gui.bookPageCnt * padHight := by omega
        rcases kept.place with used | first
        · exact absurd few (Nat.not_le.mpr used)
        · change gui.bookPageCnt = 0 at first
          rw [first, Nat.zero_mul] at few
          exact Nat.eq_zero_of_le_zero few
  | cons row rows =>
      refine ⟨goesOn.trans ?_, rfl, rfl, .inr ⟨_, ⟨?_, rfl, rfl, rfl, Nat.succ_pos _, length,
        searchPos, brought.searchStep⟩, numbers⟩⟩
      · exact kept.goesOn rfl rfl rfl rfl rfl rfl rfl
      · exact kept.withPlace rfl rfl rfl rfl rfl (fun flag => ⟨flag, rfl⟩) kept.place

/-! ## Turning pages -/

section Leafs

variable {gui : Ncgui} {page : BookPage}

theorem Leafs.positive (leafs : gui.Leafs page) : 0 < page.rows.length :=
  Nat.zero_lt_of_lt leafs.slider

theorem Leafs.few (leafs : gui.Leafs page) : page.rows.length ≤ padHight :=
  leafs.size ▸ Nat.min_le_left _ _

theorem Leafs.used (leafs : gui.Leafs page) :
    gui.client.books.bookSearchPos ≤ gui.client.books.bookDbmPos := by
  have positive := leafs.positive
  have size := leafs.size
  have searchPos := leafs.searchPos
  omega

/-- A page that is not full is the last. -/
theorem Leafs.whole (leafs : gui.Leafs page) (short : page.rows.length < padHight) :
    gui.client.Whole (BookRow.listedFor gui.modeShelf) gui.localBookno := by
  apply leafs.lists.covers.short
  have positive := leafs.positive
  have size := leafs.size
  have ended : gui.client.books.bookDbmPos = gui.bookPageCnt * padHight + page.rows.length := by
    omega
  rw [ended, Nat.add_comm, Nat.add_mul_mod_self_right, Nat.mod_eq_of_lt short]
  exact positive.ne'

/-- The same page with another slider or book. -/
theorem Leafs.withPage (leafs : gui.Leafs page) {later : BookPage} (rows : later.rows = page.rows)
    (search : later.search = page.search) (modeShelfno : later.modeShelfno = page.modeShelfno)
    (slider : later.currentRow < later.rows.length) : (gui.withPage later).Leafs later := by
  have same : gui.client.withBooks gui.client.books = gui.client := rfl
  refine ⟨?_, rfl, search.trans leafs.search, modeShelfno.trans leafs.modeShelfno, slider, ?_, ?_,
    leafs.searchStep⟩
  · exact leafs.lists.withPlace same.symm rfl rfl rfl rfl (fun flag => ⟨flag, rfl⟩)
      leafs.lists.place
  · rw [rows]
    exact leafs.size
  · rw [rows]
    exact leafs.searchPos

theorem Leafs.leave (leafs : gui.Leafs page) : gui.leave.Waits where
  lists := leafs.lists.withPlace rfl rfl rfl rfl rfl (fun flag => ⟨flag, rfl⟩) leafs.lists.place
  shown := rfl
  searchPos :=
    BookCache.backward_of_page leafs.searchStep leafs.searchPos leafs.positive leafs.few

theorem Leafs.pageLeft (leafs : gui.Leafs page) : gui.pageLeft.Waits where
  lists := by
    have place : (gui.bookPageCnt - 1) * padHight < gui.client.books.bookDbmPos ∨
        gui.bookPageCnt - 1 = 0 := by
      apply leafs.lists.place.imp
      · exact fun used => (Nat.mul_le_mul_right _ (Nat.sub_le _ 1)).trans_lt used
      · exact fun first => by rw [first]
    apply @Lists.withPlace gui gui.pageLeft leafs.lists
      gui.client.books.clidbBookBackwardMode.clidbBookBackwardMode rfl rfl rfl rfl rfl _ place
    intro flag
    have unset : (if 0 < gui.bookPageCnt then false else gui.noNextPageFlag) = true := flag
    split at unset
    case isTrue => cases unset
    case isFalse first =>
      refine ⟨unset, ?_⟩
      change gui.bookPageCnt - 1 = gui.bookPageCnt
      omega
  shown := rfl
  searchPos := by
    have back := BookCache.backward_of_page leafs.searchStep leafs.searchPos leafs.positive
      leafs.few
    exact BookCache.backward_of_start leafs.searchStep back

theorem Leafs.pageLeft_goesOn (leafs : gui.Leafs page) : gui.GoesOn gui.pageLeft :=
  @Lists.goesOn gui gui.pageLeft leafs.lists
    gui.client.books.clidbBookBackwardMode.clidbBookBackwardMode rfl rfl rfl rfl rfl rfl rfl

/-- The key for the next page: there is none, or the count of pages goes up. -/
theorem Leafs.pageRight (leafs : gui.Leafs page) (stale : Int) :
    gui.GoesOn (gui.pageRight stale page) ∧
      (((gui.pageRight stale page).noNextPageFlag = true ∧
          (gui.pageRight stale page).Leafs page ∧
          gui.client.Whole (BookRow.listedFor gui.modeShelf) gui.localBookno ∧
          gui.client.books.bookDbmPos ≤ (gui.bookPageCnt + 1) * padHight) ∨
        (gui.noNextPageFlag = false ∧ (gui.pageRight stale page).noNextPageFlag = false ∧
          (gui.pageRight stale page).Waits ∧ page.rows.length = padHight ∧
          (gui.pageRight stale page).bookPageCnt = gui.bookPageCnt + 1)) := by
  have lists := leafs.lists
  have same : gui.client.withBooks gui.client.books = gui.client := rfl
  rw [Ncgui.pageRight]
  by_cases flag : gui.noNextPageFlag = true
  case pos =>
      rw [if_pos flag]
      refine ⟨lists.goesOn same.symm rfl rfl rfl rfl rfl rfl, .inl ⟨flag, ?_, lists.last flag⟩⟩
      exact leafs.withPage rfl rfl rfl leafs.slider
  case neg =>
      have unset := Bool.not_eq_true _ ▸ flag
      rw [if_neg flag]
      rcases Client.nextPageBookinfo_brings lists.calm lists.named lists.covers stale leafs.used with
        ⟨rows, next, after, result, brought⟩
      rw [leafs.search, leafs.modeShelfno, result]
      have kept := lists.of_brings brought
      have goesOn := goesOn_of_brings brought
      have length := brought.length
      have searchPos := brought.searchPos
      rw [leafs.searchPos] at length searchPos
      cases rows with
      | nil =>
          have whole := brought.ended rfl
          have dbmPos := bookDbmPos_of_whole brought whole
          have ended : after.Whole (BookRow.listedFor gui.modeShelf) next :=
            whole_of_brings brought whole
          have positive : 0 < padHight := by decide
          have size := leafs.size
          rw [List.length_nil] at length searchPos
          have bound : after.books.bookDbmPos ≤ (gui.bookPageCnt + 1) * padHight := by
            rw [dbmPos, Nat.succ_mul]
            omega
          refine ⟨goesOn.trans ?_, .inl ⟨rfl, ⟨⟨kept.calm, kept.named, kept.covers,
            fun _ => ⟨ended, bound⟩, kept.place⟩, rfl, leafs.search, leafs.modeShelfno, leafs.slider,
            ?_, searchPos, brought.searchStep⟩, whole, dbmPos ▸ bound⟩⟩
          · exact kept.goesOn rfl rfl rfl rfl rfl rfl rfl
          · change page.rows.length = min padHight (after.books.bookDbmPos - _)
            rw [dbmPos]
            exact size
      | cons row rows =>
          rw [List.length_cons] at length searchPos
          have full : page.rows.length = padHight := by
            by_contra short
            have less := Nat.lt_of_le_of_ne leafs.few short
            have dbmPos := bookDbmPos_of_whole brought (leafs.whole less)
            have size := leafs.size
            omega
          have further : after.books.bookSearchPos =
              (gui.bookPageCnt + 1) * padHight + (rows.length + 1) := by
            rw [searchPos, full, Nat.succ_mul]
          have more : (gui.bookPageCnt + 1) * padHight < after.books.bookDbmPos := by
            rw [Nat.succ_mul]
            omega
          refine ⟨goesOn.trans ?_, .inr ⟨unset, unset, ⟨?_, rfl, ?_⟩, full, rfl⟩⟩
          · exact kept.goesOn rfl rfl rfl rfl rfl rfl rfl
          · refine kept.withPlace rfl rfl rfl rfl rfl (fun set => absurd set flag) (.inl ?_)
            exact more
          · exact BookCache.backward_of_page brought.searchStep further (Nat.succ_pos _)
              (by omega)

end Leafs

/-! ## Changes to the books listed -/

/-- The server has got no book for the listing that is not in the cache. -/
theorem Lists.withClient {gui : Ncgui} (lists : gui.Lists) {after : Client} (calm : after.Calm)
    (loginUser : after.loginUser = gui.client.loginUser)
    (adds : gui.client.AddsCached (BookRow.listedFor gui.modeShelf) after)
    (filled : after.books.Filled) (numbers : after.books.numbers = gui.client.books.numbers) :
    (gui.withClient after).Lists := by
  have dbmPos : after.books.bookDbmPos = gui.client.books.bookDbmPos := by
    rw [← BookCache.length_numbers, numbers, BookCache.length_numbers]
  refine ⟨calm, ?_, lists.covers.kept adds filled numbers, ?_, ?_⟩
  · change after.loginUser ≠ ""
    rw [loginUser]
    exact lists.named
  · intro flag
    rcases lists.last flag with ⟨whole, bound⟩
    exact ⟨lists.covers.whole adds whole, dbmPos.le.trans bound⟩
  · change _ < after.books.bookDbmPos ∨ _
    rw [dbmPos]
    exact lists.place

/-- The book under the slider is in the cache, and its number is known. -/
theorem Leafs.acted {gui : Ncgui} {page : BookPage} (leafs : gui.Leafs page) :
    (gui.client.books.bookData (gui.curDbmPos page)).map BookEntry.bookno =
        some (gui.acted page).bookno ∧
      some (gui.acted page).bookno ∈ gui.client.books.numbers := by
  have size := leafs.size
  have slider := leafs.slider
  have used : gui.curDbmPos page < gui.client.books.bookDbmPos := by
    rw [curDbmPos]
    omega
  rcases Option.isSome_iff_exists.mp (leafs.lists.covers.filled _ used) with ⟨book, stored⟩
  have number : (gui.acted page).bookno = book.bookno := by
    rw [Ncgui.acted, peeked, BookCache.clidbBookPeek, stored, Option.getD_some]
    exact (showBookInfo_place book).2
  have same : (gui.client.books.bookData (gui.curDbmPos page)).map BookEntry.bookno =
      some (gui.acted page).bookno := by
    rw [stored, number]
    rfl
  refine ⟨same, List.mem_iff_getElem?.mpr ⟨gui.curDbmPos page, ?_⟩⟩
  rw [BookCache.getElem?_numbers used, same]

/-- What an action leaves of the listing: an update can only list the book that is in the cache. -/
theorem Leafs.act {gui : Ncgui} {page : BookPage} (leafs : gui.Leafs page) (action : BookAction)
    {after : Client} (acts : after = (act action gui.bcollect gui.localShelfno (gui.acted page)
      (gui.curDbmPos page) gui.client).2) :
    (gui.withClient after).Lists ∧ after.books.numbers = gui.client.books.numbers ∧
      gui.client.books.Extends (fun position => position = gui.curDbmPos page) after.books := by
  have lists := leafs.lists
  have grows : gui.client.books.Extends (fun position => position = gui.curDbmPos page)
      after.books := by
    rw [acts]
    exact act_extends _ _ _ _ _ _
  have filled := grows.filled lists.covers.filled
  have reaches : gui.client.link.Reaches after.link := by
    rw [acts]
    exact act_reaches _ _ _ _ _ _
  rcases leafs.acted with ⟨entry, cached⟩
  have positive := (lists.covers.known _ cached).1
  rcases act_cases lists.calm.prompt action gui.bcollect gui.localShelfno (gui.acted page)
    (gui.curDbmPos page) with same | ⟨_, _, deletes⟩ | ⟨sent, written, stored, updates⟩
  · rw [same] at acts
    subst acts
    exact ⟨lists, rfl, grows⟩
  · rw [← acts] at deletes
    have numbers : after.books.numbers = gui.client.books.numbers := by
      rcases deletes.books with kept | marked
      · rw [kept]
      · rw [marked, BookCache.numbers_delete]
    refine ⟨lists.withClient (lists.calm.of_reaches deletes.prompt reaches) deletes.loginUser ?_
      filled numbers, numbers, grows⟩
    intro row member listed
    rcases deletes.sends with ⟨server, _⟩ | ⟨server, _⟩
    · rw [server] at member
      exact .inl member
    · rw [server] at member
      exact .inl (Server.listed_of_delete rfl member listed)
  · rw [← acts] at updates
    have sentNumber := BookAction.stores_bookno stored
    have writtenNumber := (BookAction.stores_shelfno stored).2.2
    have numbers : after.books.numbers = gui.client.books.numbers := by
      rcases updates.books with kept | ⟨inserted, _⟩
      · rw [kept]
      · rw [inserted]
        apply BookCache.numbers_insertAt
        rw [entry, writtenNumber]
    refine ⟨lists.withClient (lists.calm.of_reaches updates.prompt reaches) updates.loginUser ?_
      filled numbers, numbers, grows⟩
    intro row member listed
    rcases updates.sends with ⟨server, _⟩ | ⟨server, _⟩
    · rw [server] at member
      exact .inl member
    · rw [server] at member
      rcases Server.listed_of_update (sentNumber ▸ positive) member with old | same
      · exact .inl old
      · rw [same, sentNumber]
        exact .inr cached

/-! ## Keys -/

/-- The variables that decide on the next reset. -/
structure SameStatics (gui after : Ncgui) : Prop where
  localShelfno : after.localShelfno = gui.localShelfno
  bcollect : after.bcollect = gui.bcollect
  globalNewBookComing : after.globalNewBookComing = gui.globalNewBookComing
  newMark : after.newMark = gui.newMark

theorem SameStatics.refl (gui : Ncgui) : gui.SameStatics gui := ⟨rfl, rfl, rfl, rfl⟩

theorem SameStatics.trans {first second third : Ncgui} (left : first.SameStatics second)
    (right : second.SameStatics third) : first.SameStatics third :=
  ⟨right.localShelfno.trans left.localShelfno, right.bcollect.trans left.bcollect,
    right.globalNewBookComing.trans left.globalNewBookComing, right.newMark.trans left.newMark⟩

theorem SameStatics.pageFits {call : PageCall} {gui after : Ncgui} (same : gui.SameStatics after)
    (fits : gui.PageFits call) : after.PageFits call :=
  ⟨fits.search, same.localShelfno.trans fits.localShelfno, same.bcollect.trans fits.bcollect,
    same.globalNewBookComing.trans fits.globalNewBookComing⟩

theorem pageRight_sameStatics (stale : Int) (page : BookPage) (gui : Ncgui) :
    gui.SameStatics (gui.pageRight stale page) := by
  rw [pageRight]
  split
  · exact ⟨rfl, rfl, rfl, rfl⟩
  · dsimp only
    split <;> exact ⟨rfl, rfl, rfl, rfl⟩

theorem press_sameStatics (key : Key) (gui : Ncgui) : gui.SameStatics (gui.press key) := by
  rw [press]
  split
  · exact .refl gui
  · cases key with
    | right stale => exact pageRight_sameStatics stale _ gui
    | _ => exact ⟨rfl, rfl, rfl, rfl⟩

/-- What is displayed before does not matter for the next page. -/
theorem pageRight_withPage (stale : Int) (page other : BookPage) (gui : Ncgui) :
    (gui.withPage other).pageRight stale page = gui.pageRight stale page := by
  rw [pageRight, pageRight, withPage]
  dsimp only
  split
  · rfl
  · rcases gui.client.nextPageBookinfo page.search page.modeShelfno gui.localBookno stale with
      ⟨_ | _ | ⟨row, rows⟩, bookno, after⟩ <;> rfl

section Press

variable {gui : Ncgui} {page : BookPage} (leafs : gui.Leafs page)

include leafs

theorem Leafs.press_right (stale : Int) :
    ∃ later, later.rows = page.rows ∧ (gui.withPage later).Leafs later ∧
      gui.press (.right stale) = (gui.withPage later).pageRight stale later := by
  refine ⟨{ slide page (.right stale) with
    localBook := showBookInfo (gui.peeked (gui.curDbmPos page) page.localBook) }, rfl,
    leafs.withPage rfl rfl rfl leafs.slider, ?_⟩
  rw [press, leafs.shown, pageRight_withPage]
  rfl

theorem Leafs.press_left : gui.press .left = gui.pageLeft := by
  rw [press, leafs.shown]

/-- A key leaves a page of the listing, or the page to display next. -/
theorem Leafs.press (key : Key) :
    (∃ later, (gui.press key).Leafs later) ∨ (gui.press key).Waits := by
  have sliding := slide_currentRow leafs.slider key
  cases key with
  | right stale =>
      rcases leafs.press_right stale with ⟨later, _, moved, pressed⟩
      rw [pressed]
      rcases (moved.pageRight stale).2 with ⟨_, still, _⟩ | ⟨_, _, waits, _⟩
      · exact .inl ⟨later, still⟩
      · exact .inr waits
  | left =>
      rw [leafs.press_left]
      exact .inr leafs.pageLeft
  | backspace =>
      rw [Ncgui.press, leafs.shown]
      exact .inr leafs.leave
  | up =>
      rw [Ncgui.press, leafs.shown]
      exact .inl ⟨_, leafs.withPage rfl rfl rfl sliding⟩
  | down =>
      rw [Ncgui.press, leafs.shown]
      exact .inl ⟨_, leafs.withPage rfl rfl rfl sliding⟩
  | action action =>
      rw [Ncgui.press, leafs.shown]
      rcases leafs.act action rfl with ⟨lists, numbers, grows⟩
      have dbmPos := congrArg List.length numbers
      rw [BookCache.length_numbers, BookCache.length_numbers] at dbmPos
      refine .inl ⟨_, ⟨⟨lists.calm, lists.named, lists.covers, lists.last, lists.place⟩, rfl,
        leafs.search, leafs.modeShelfno, leafs.slider, ?_, grows.searchPos.trans leafs.searchPos,
        grows.searchStep.trans leafs.searchStep⟩⟩
      have size := leafs.size
      rw [← dbmPos] at size
      exact size

end Press

/-! ## A new listing -/

/-- The statics after a reset. -/
def renewed (shelfno : Int) (collectMode : Bool) (gui : Ncgui) : Ncgui :=
  { gui.resetBooks with
    globalNewBookComing := false
    localShelfno := shelfno
    bcollect := collectMode }

theorem renews_iff {shelfno : Int} {collectMode : Bool} {gui : Ncgui} :
    gui.renews shelfno collectMode = true ↔
      (gui.localShelfno ≠ shelfno ∧ gui.bcollect = collectMode) ∨
        gui.bcollect ≠ collectMode ∨ gui.globalNewBookComing = true := by
  rw [renews, Bool.or_eq_true, Bool.or_eq_true, Bool.and_eq_true, bne_iff_ne, bne_iff_ne,
    beq_iff_eq, or_assoc]

theorem resetOnChange_of_renews {shelfno : Int} {collectMode : Bool} {gui : Ncgui}
    (renews : gui.renews shelfno collectMode = true) :
    gui.resetOnChange shelfno collectMode none = gui.renewed shelfno collectMode := by
  rw [resetOnChange, if_pos (renews_iff.mp renews), renewed]

/-- A listing that is not renewed is the one that is asked for. -/
theorem pageFits_of_reuse {shelfno : Int} {collectMode : Bool} {gui : Ncgui}
    (reuses : gui.renews shelfno collectMode = false) (stale : BookEntry) :
    gui.PageFits ⟨shelfno, collectMode, none, stale⟩ := by
  have kept : ¬gui.renews shelfno collectMode = true := Bool.not_eq_true _ ▸ reuses
  rw [renews_iff] at kept
  have mode : gui.bcollect = collectMode := by
    by_contra other
    exact kept (.inr (.inl other))
  refine ⟨rfl, ?_, mode, ?_⟩
  · by_contra other
    exact kept (.inl ⟨other, mode⟩)
  · cases coming : gui.globalNewBookComing with
    | false => rfl
    | true => exact absurd (.inr (.inr coming)) kept

/-- Of an empty cache nothing is missing. -/
theorem waits_renewed {gui : Ncgui} (calm : gui.client.Calm) (named : gui.client.loginUser ≠ "")
    (resting : gui.shown = none) (shelfno : Int) (collectMode : Bool) :
    (gui.renewed shelfno collectMode).Waits := by
  have below : nonSenseInt ≠ breakLimitInt := by decide
  refine ⟨⟨calm.of_link rfl, named, ⟨?_, ⟨Int.le_refl 0, below⟩, ?_, ?_, ?_⟩, ?_, .inr rfl⟩,
    resting, (Nat.zero_mul _).symm⟩
  · exact fun position used => absurd used (Nat.not_lt_zero position)
  · exact fun number cached => absurd cached List.not_mem_nil
  · intro row member _ early
    have positive := (calm.numbered.bookno_bounds member).1
    exact absurd early (Int.not_le.mpr positive)
  · exact fun unfinished => absurd rfl unfinished
  · exact fun flag => absurd flag Bool.false_ne_true

/-- A visit begins with the listing that it asks for. -/
theorem resetOnChange_waits {gui : Ncgui} (calm : gui.client.Calm)
    (named : gui.client.loginUser ≠ "") (resting : gui.shown = none) {shelfno : Int}
    {collectMode : Bool} (stale : BookEntry)
    (kept : gui.renews shelfno collectMode = false → gui.Waits) :
    (gui.resetOnChange shelfno collectMode none).Waits ∧
      (gui.resetOnChange shelfno collectMode none).PageFits ⟨shelfno, collectMode, none, stale⟩ := by
  cases renews : gui.renews shelfno collectMode with
  | true =>
      rw [resetOnChange_of_renews renews]
      exact ⟨waits_renewed calm named resting shelfno collectMode, rfl, rfl, rfl, rfl⟩
  | false =>
      have fits := pageFits_of_reuse renews stale
      have same : gui.resetOnChange shelfno collectMode none = gui := fits.resetOnChange
      rw [same]
      exact ⟨kept renews, fits⟩

end Ncgui

end Bookshelfdq
