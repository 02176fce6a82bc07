import Bookshelfdq.Session.Leafing

/-! # Listings that miss nothing

In a run with one user the listing in the cache stays complete, or is begun anew with the next
visit, as long as no shelf is unsorted behind the back of a listing for collecting. -/

namespace Bookshelfdq

namespace BookSession

/-- The listing in the cache may be displayed again. -/
structure Live (book : BookSession) : Prop where
  localShelfno : book.gui.localShelfno ≠ nonSenseInt
  globalNewBookComing : book.gui.globalNewBookComing = false
  unsorted : book.gui.bcollect = true → book.unsorted = false

/-- What is displayed came with a search. -/
structure Searches (book : BookSession) : Prop where
  localShelfno : book.gui.localShelfno = nonSenseInt
  search : ∃ mark entry, book.call.search = some (mark, entry) ∧ mark ≠ markChar (!book.newMark)

/-- A listing that may be displayed again is complete as far as the cache goes. -/
structure Sound (book : BookSession) : Prop where
  healthy : book.gui.Healthy
  newMark : book.gui.newMark ≠ markChar (!book.newMark)
  resting : book.gui.shown = none → book.Live → book.gui.Waits
  visiting : ∀ page, book.gui.shown = some page →
    (book.Live ∧ book.gui.Leafs page ∧ book.gui.PageFits book.call) ∨ book.Searches

theorem Live.of_same {book after : BookSession} (same : book.gui.SameStatics after.gui)
    (unsorted : after.unsorted = book.unsorted) (live : book.Live) : after.Live := by
  refine ⟨?_, ?_, ?_⟩
  · rw [same.localShelfno]
    exact live.localShelfno
  · rw [same.globalNewBookComing]
    exact live.globalNewBookComing
  · rw [same.bcollect, unsorted]
    exact live.unsorted

/-! ## Keys -/

section Keys

variable {book : BookSession} (sound : book.Sound) {page : BookPage}
  (shown : book.gui.shown = some page)

include sound

/-- A page of a listing, or the page to display next. -/
theorem Sound.of_leafing {after : ShelfSession} (live : book.Live)
    (fits : book.gui.PageFits book.call) (healthy : after.gui.Healthy)
    (same : book.gui.SameStatics after.gui)
    (leafs : (∃ later, after.gui.Leafs later) ∨ after.gui.Waits) : (book.withSession after).Sound := by
  have still : (book.withSession after).Live := @Live.of_same book (book.withSession after) same rfl live
  have newMark : after.gui.newMark ≠ markChar (!book.newMark) := by
    rw [same.newMark]
    exact sound.newMark
  refine ⟨healthy, newMark, ?_, ?_⟩
  · intro resting _
    rcases leafs with ⟨later, leafs⟩ | waits
    · have shown := leafs.shown
      change after.gui.shown = none at resting
      rw [resting] at shown
      cases shown
    · exact waits
  · intro later shown
    rcases leafs with ⟨other, leafs⟩ | waits
    · have same : some other = some later := leafs.shown.symm.trans shown
      cases same
      exact .inl ⟨still, leafs, same.pageFits fits⟩
    · have ended := waits.shown
      change after.gui.shown = some later at shown
      rw [ended] at shown
      cases shown

omit sound in
/-- What is left of a search. -/
theorem Sound.of_searching {after : ShelfSession} (healthy : after.gui.Healthy)
    (newMark : after.gui.newMark ≠ markChar (!book.newMark))
    (searches : (book.withSession after).Searches) : (book.withSession after).Sound :=
  ⟨healthy, newMark, fun _ live => absurd searches.localShelfno live.localShelfno,
    fun _ _ => .inr searches⟩

/-- A page turned in a search begins no other listing. -/
theorem Sound.search_displays {after : ShelfSession} (healthy : after.gui.Healthy)
    (same : book.gui.SameStatics after.gui) (searches : book.Searches) :
    (book.withSession (after.displayBookinfo book.call)).Sound := by
  rcases searches.search with ⟨mark, entry, search, other⟩
  have away : after.gui.localShelfno = nonSenseInt := same.localShelfno.trans searches.localShelfno
  have marked : after.gui.newMark ≠ markChar (!book.newMark) := by
    rw [same.newMark]
    exact sound.newMark
  have displays := healthy.display book.call.shelfno book.call.collectMode book.call.search
    book.call.stale
  have kept : (after.gui.resetOnChange book.call.shelfno book.call.collectMode
        book.call.search).localShelfno = nonSenseInt ∧
      (after.gui.resetOnChange book.call.shelfno book.call.collectMode
        book.call.search).newMark ≠ markChar (!book.newMark) := by
    rw [search, Ncgui.resetOnChange]
    split
    · exact ⟨rfl, other⟩
    · exact ⟨away, marked⟩
  by_cases refused : book.call.collectMode = true ∧ book.call.search.isSome = true
  · have idle : (after.displayBookinfo book.call).gui = after.gui := if_pos refused
    rw [← idle] at away marked
    exact .of_searching displays marked ⟨away, mark, entry, search, other⟩
  · have still := @Ncgui.display_sameStatics book.call.shelfno book.call.collectMode
      book.call.search book.call.stale after.gui refused
    refine .of_searching displays ?_ ⟨still.localShelfno.trans kept.1, mark, entry, search, other⟩
    change (after.gui.display _ _ _ _).newMark ≠ _
    rw [still.newMark]
    exact kept.2

include shown

theorem Sound.press (key : Ncgui.Key) (msg : MessageCs) :
    (book.withSession (book.session.pressBookinfo msg book.call key)).Sound := by
  have pressed : (book.session.withGui (book.gui.press key)).gui.Healthy := sound.healthy.press key
  have same : book.gui.SameStatics (book.session.withGui (book.gui.press key)).gui :=
    book.gui.press_sameStatics key
  have finished := ShelfSession.finish_healthy pressed msg book.call
  have outcome : book.session.pressBookinfo msg book.call key =
        book.session.withGui (book.gui.press key) ∨
      ((book.gui.press key).shown = none ∧
        (book.session.pressBookinfo msg book.call key =
            (book.session.withGui (book.gui.press key)).finish msg book.call ∨
          book.session.pressBookinfo msg book.call key =
            ((book.session.withGui (book.gui.press key)).finish msg book.call).displayBookinfo
              book.call)) := ShelfSession.pressBookinfo_cases shown msg book.call
  rcases sound.visiting page shown with ⟨live, leafs, fits⟩ | searches
  · have kept := same.pageFits fits
    rcases outcome with stays | ⟨ended, turns⟩
    · rw [stays]
      exact sound.of_leafing live fits pressed same (leafs.press key)
    · have waits : (book.session.withGui (book.gui.press key)).gui.Waits := by
        rcases leafs.press key with ⟨later, still⟩ | waits
        · rw [still.shown] at ended
          cases ended
        · exact waits
      have idle := ShelfSession.finish_of_fits kept msg
      rcases turns with leaves | turns
      · rw [leaves, idle]
        exact sound.of_leafing live fits pressed same (.inr waits)
      · rw [turns, idle]
        have opens := ShelfSession.displayBookinfo_opens waits kept
        have supported : ¬(book.call.collectMode = true ∧ book.call.search.isSome = true) := by
          rw [fits.search]
          rintro ⟨_, impossible⟩
          cases impossible
        have still := @Ncgui.display_sameStatics book.call.shelfno book.call.collectMode
          book.call.search book.call.stale (book.session.withGui (book.gui.press key)).gui supported
        rw [kept.resetOnChange] at still
        refine sound.of_leafing live fits (pressed.display _ _ _ _) (same.trans still) ?_
        rcases opens.outcome with ⟨waits, _⟩ | ⟨later, leafs, _⟩
        · exact .inr waits
        · exact .inl ⟨later, leafs⟩
  · have away := same.localShelfno.trans searches.localShelfno
    have marked : (book.session.withGui (book.gui.press key)).gui.newMark ≠
        markChar (!book.newMark) := by
      rw [same.newMark]
      exact sound.newMark
    rcases outcome with stays | ⟨ended, leaves | turns⟩
    · rw [stays]
      exact .of_searching pressed marked ⟨away, searches.search⟩
    · rw [leaves]
      refine .of_searching finished.1 ?_ ⟨finished.2.localShelfno.trans away, searches.search⟩
      exact finished.2.newMark.symm ▸ marked
    · rw [turns]
      exact sound.search_displays finished.1 (same.trans finished.2) searches

end Keys

/-! ## Between two visits -/

section Between

variable {book : BookSession} (sound : book.Sound) (resting : book.gui.shown = none)

include sound resting

/-- A request that changes no number in the cache, and lists no other book. -/
theorem Sound.of_client {after : BookSession} {client : Client}
    (same : after.gui = book.gui.withClient client) (newMark : after.newMark = book.newMark)
    (calm : client.Calm) (loginUser : client.loginUser = book.gui.client.loginUser)
    (books : client.books = book.gui.client.books)
    (unsorted : after.unsorted = false → book.unsorted = false)
    (adds : after.Live →
      book.gui.client.AddsCached (BookRow.listedFor book.gui.modeShelf) client) : after.Sound := by
  have healthy := sound.healthy.withClient calm loginUser
  rw [← same] at healthy
  refine ⟨healthy, ?_, ?_, ?_⟩
  · rw [same, newMark]
    exact sound.newMark
  · intro _ live
    have before : book.Live := by
      rcases live with ⟨localShelfno, coming, sorted⟩
      rw [same] at localShelfno coming sorted
      exact ⟨localShelfno, coming, fun collecting => unsorted (sorted collecting)⟩
    have waits := sound.resting resting before
    have filled : client.books.Filled := books ▸ waits.lists.covers.filled
    have lists := waits.lists.withClient calm loginUser (adds live) filled (books ▸ rfl)
    rw [same]
    refine ⟨lists, resting, ?_⟩
    change client.books.bookSearchPos = _
    rw [books]
    exact waits.searchPos
  · intro page shown
    rw [same] at shown
    change book.gui.shown = some page at shown
    rw [resting] at shown
    cases shown

theorem Sound.of_unchanged {after : BookSession} {client : Client}
    (same : after.gui = book.gui.withClient client) (newMark : after.newMark = book.newMark)
    (unsorted : after.unsorted = book.unsorted) (unchanged : book.gui.client.Unchanged client) :
    after.Sound := by
  have continued := unchanged.continued
  apply sound.of_client resting same newMark continued.calm continued.loginUser unchanged.books
  · exact fun sorted => unsorted ▸ sorted
  · intro _ row member _
    rw [continued.archive] at member
    exact .inl member

/-- A session with no listing to be displayed again. -/
theorem Sound.of_newBook {after : BookSession} {client : Client}
    (same : after.gui = { book.gui with client := client, globalNewBookComing := true })
    (newMark : after.newMark = book.newMark) (calm : client.Calm)
    (loginUser : client.loginUser = book.gui.client.loginUser) : after.Sound := by
  have healthy : after.gui.Healthy := by
    rw [same]
    exact ⟨calm, (sound.healthy.withClient calm loginUser).named⟩
  refine ⟨healthy, ?_, ?_, ?_⟩
  · rw [same, newMark]
    exact sound.newMark
  · intro _ live
    have coming := live.globalNewBookComing
    rw [same] at coming
    cases coming
  · intro page shown
    rw [same] at shown
    change book.gui.shown = some page at shown
    rw [resting] at shown
    cases shown

theorem Sound.insertBook (time : PlainText) (entry : BookEntry) :
    (book.between (.newBook time entry)).Sound := by
  have calm := sound.healthy.calm
  by_cases incomplete : incompleteBook entry = true
  · have unsent : ((Mutation.insertBook time entry).perform book.gui).2 =
        book.gui.withClient book.gui.client := by
      rw [Mutation.perform, Client.clientShelfInsertBook, if_pos incomplete]
      rfl
    exact sound.of_unchanged resting unsent rfl rfl
      ⟨calm.withBooks book.gui.client.books, rfl⟩
  · rcases Server.replies_insertBook calm.sendFaults
      (rfl : (clientShelfInsertBookMsg book.gui.client.loginUser time entry).request = _) with
      ⟨answer, other, only⟩
    have answered := calm.findFromServer_answered other only
    rcases answered with ⟨result, called⟩
    have performed : ((Mutation.insertBook time entry).perform book.gui).2 =
        { book.gui with
          client := (book.gui.client.findFromServer
            (clientShelfInsertBookMsg book.gui.client.loginUser time entry)).2.2
          globalNewBookComing := if (book.gui.client.findFromServer
            (clientShelfInsertBookMsg book.gui.client.loginUser time entry)).1 ≠ 0 then true
            else book.gui.globalNewBookComing } := by
      rw [Mutation.perform, Client.clientShelfInsertBook, if_neg incomplete]
    cases done : (srvdbBookInsert
      (clientShelfInsertBookMsg book.gui.client.loginUser time entry).opened
      book.gui.client.link.server.db).1 with
    | true =>
        rw [done, if_pos rfl] at result
        rw [result, if_pos (by decide)] at performed
        exact sound.of_newBook resting performed rfl called.calm called.loginUser
    | false =>
        rw [done, if_neg Bool.false_ne_true] at result
        rw [result, if_neg (fun different => different rfl)] at performed
        refine @Sound.of_client book sound resting (book.between (.newBook time entry)) _ performed
          rfl called.calm called.loginUser called.books id ?_
        intro _ row member _
        rw [called.server, Server.books_of_refused calm.numbered rfl done] at member
        exact .inl member

omit sound resting in
/-- The shelf goes after its books, which lists nothing. -/
theorem removal_adds {cleared : Client} (calm : cleared.Calm) (shelfno : Int)
    {listed : BookRow → Bool} {client : Client} :
    let after := (cleared.clientShelfDeleteItself shelfno).2
    after.Calm ∧ after.loginUser = cleared.loginUser ∧ after.books = cleared.books ∧
      (client.AddsCached listed cleared → client.AddsCached listed after) := by
  intro after
  have called := calm.findFromServer_called
    (rfl : (clientShelfDeleteItselfMsg cleared.loginUser shelfno).request.isAnswered = true)
  have removed : cleared.Called (clientShelfDeleteItselfMsg cleared.loginUser shelfno) after := by
    change cleared.Called _ (cleared.clientShelfDeleteItself shelfno).2
    rw [Client.clientShelfDeleteItself]
    dsimp only
    split
    · exact called.withShelves _
    · exact called
  refine ⟨removed.calm, removed.loginUser, removed.books, ?_⟩
  intro adds row member chosen
  rw [removed.server, Server.books_of_shelf calm.numbered (.inr rfl)] at member
  exact adds row member chosen

omit sound resting in
/-- The books of a shelf are unsorted, abandoned or none. -/
theorem clearShelf_adds (calm : book.gui.client.Calm) (shelfno : ShelfNumber)
    (whole : Option Bool) :
    ∃ cleared, book.gui.clearShelf shelfno.val whole = book.gui.withClient cleared ∧
      cleared.Calm ∧ cleared.loginUser = book.gui.client.loginUser ∧
      cleared.books = book.gui.client.books ∧
      ((book.between (.deleteShelf shelfno whole)).Live →
        book.gui.client.AddsCached (BookRow.listedFor book.gui.modeShelf) cleared) := by
  cases whole with
  | none => exact ⟨book.gui.client, rfl, calm, rfl, rfl, fun _ row member _ => .inl member⟩
  | some whole =>
      cases whole with
      | true =>
          have called := calm.findFromServer_called
            (rfl : (clientShelfUnsortedBooksMsg book.gui.client.loginUser
              shelfno.val).request.isAnswered = true)
          refine ⟨(book.gui.client.findFromServer (clientShelfUnsortedBooksMsg
            book.gui.client.loginUser shelfno.val)).2.2, rfl, called.calm, called.loginUser,
            called.books, ?_⟩
          intro live row member chosen
          have unsorted : (book.unsorted || some true == some true) = true := Bool.or_true _
          have browsing : book.gui.bcollect = false := by
            by_contra collecting
            have sorted := live.unsorted (Bool.not_eq_false _ ▸ collecting)
            exact absurd (unsorted.symm.trans sorted) Bool.true_eq_false.mp
          have real : book.gui.modeShelf ≠ nonSenseInt := by
            rw [Ncgui.modeShelf, browsing]
            exact live.localShelfno
          rw [called.server] at member
          exact .inl (Server.listed_of_unsorting real shelfno.property member chosen)
      | false =>
          have called := calm.findFromServer_called
            (rfl : (clientShelfAbandonBooksMsg book.gui.client.loginUser
              shelfno.val).request.isAnswered = true)
          refine ⟨(book.gui.client.findFromServer (clientShelfAbandonBooksMsg
            book.gui.client.loginUser shelfno.val)).2.2, rfl, called.calm, called.loginUser,
            called.books, ?_⟩
          intro _ row member chosen
          rw [called.server] at member
          exact .inl (Server.listed_of_delete rfl member chosen)

theorem Sound.deleteShelf (shelfno : ShelfNumber) (whole : Option Bool) :
    (book.between (.deleteShelf shelfno whole)).Sound := by
  rcases clearShelf_adds sound.healthy.calm shelfno whole with
    ⟨cleared, clears, calm, loginUser, books, adds⟩
  rcases removal_adds calm shelfno.val with ⟨removed, same, kept, lists⟩
  have performed : (book.gui.deleteShelfPage shelfno.val whole).2 =
      book.gui.withClient (cleared.clientShelfDeleteItself shelfno.val).2 := by
    rw [Ncgui.deleteShelfPage, clears]
    rfl
  refine @Sound.of_client book sound resting (book.between (.deleteShelf shelfno whole)) _ performed
    rfl removed (same.trans loginUser) (kept.trans books) ?_ fun live => lists (adds live)
  exact fun sorted => (Bool.or_eq_false_iff.mp sorted).1

theorem Sound.buildShelf (time : PlainText) (shelf : ShelfEntry) :
    (book.between (.buildShelf time shelf)).Sound := by
  have calm := sound.healthy.calm
  have called := calm.findFromServer_called
    (rfl : (clientBuildShelfMsg book.gui.client.loginUser time shelf).request.isAnswered = true)
  have built : ∃ client, ((Mutation.buildShelf time shelf).perform book.gui).2 =
        book.gui.withClient client ∧
      book.gui.client.Called (clientBuildShelfMsg book.gui.client.loginUser time shelf) client := by
    rw [Mutation.perform, Client.clientBuildShelf]
    dsimp only
    split
    · exact ⟨_, rfl, called.withShelves _⟩
    · exact ⟨_, rfl, called⟩
  rcases built with ⟨client, same, called⟩
  refine @Sound.of_client book sound resting (book.between (.buildShelf time shelf)) _ same rfl
    called.calm called.loginUser called.books id ?_
  intro _ row member _
  rw [called.server, Server.books_of_shelf calm.numbered (.inl rfl)] at member
  exact .inl member

theorem Sound.enquire (enquiry : Enquiry) : (book.between (.enquire enquiry)).Sound := by
  have calm := sound.healthy.calm
  cases enquiry with
  | countBook shelfno =>
      exact sound.of_unchanged resting rfl rfl rfl ((calm.findFromServer_called rfl).unchanged rfl)
  | verifyAccount account =>
      exact sound.of_unchanged resting rfl rfl rfl ((calm.findFromServer_called rfl).unchanged rfl)
  | shelvesCountSync stale =>
      exact sound.of_unchanged resting rfl rfl rfl (calm.clientShelvesCountSync_unchanged _ _)
  | booksCountSync stale =>
      exact sound.of_unchanged resting rfl rfl rfl (calm.clientBooksCountSync_unchanged _)

/-- A visit begins with the listing of its shelf or of the unsorted books. -/
theorem Sound.resets {shelfno : ShelfNumber} {collectMode : Bool} (stale : BookEntry)
    (renews : book.RenewsUnsorted (.visit shelfno collectMode stale)) :
    (book.gui.resetOnChange shelfno.val collectMode none).Waits ∧
      (book.gui.resetOnChange shelfno.val collectMode none).PageFits
        ⟨shelfno.val, collectMode, none, stale⟩ ∧
      (collectMode = true →
        (book.unsorted && !book.gui.renews shelfno.val collectMode) = false) := by
  have sorted : collectMode = true →
      (book.unsorted && !book.gui.renews shelfno.val collectMode) = false := by
    intro collecting
    cases unsorted : book.unsorted with
    | false => rfl
    | true =>
        rw [collecting, renews resting collecting unsorted]
        rfl
  have fresh : (book.gui.resetOnChange shelfno.val collectMode none).Waits ∧
      (book.gui.resetOnChange shelfno.val collectMode none).PageFits
        ⟨shelfno.val, collectMode, none, stale⟩ := by
    apply Ncgui.resetOnChange_waits sound.healthy.calm sound.healthy.named resting stale
    intro reuses
    have fits := Ncgui.pageFits_of_reuse reuses stale
    apply sound.resting resting
    refine ⟨?_, fits.globalNewBookComing, ?_⟩
    · rw [fits.localShelfno]
      exact Int.ne_of_gt shelfno.property
    · intro collecting
      have kept := sorted (fits.bcollect.symm.trans collecting)
      rw [reuses, Bool.not_false, Bool.and_true] at kept
      exact kept
  exact ⟨fresh.1, fresh.2, sorted⟩

theorem Sound.visit (shelfno : ShelfNumber) (collectMode : Bool) (stale : BookEntry)
    (renews : book.RenewsUnsorted (.visit shelfno collectMode stale)) :
    (book.between (.visit shelfno collectMode stale)).Sound := by
  rcases sound.resets resting stale renews with ⟨waits, fits, sorted⟩
  have displays := sound.healthy.display shelfno.val collectMode none stale
  have supported : ¬(collectMode = true ∧ (none : Option (Char × BookEntry)).isSome = true) := by
    rintro ⟨_, impossible⟩
    cases impossible
  have same := @Ncgui.display_sameStatics shelfno.val collectMode none stale book.gui supported
  have opens := waits.opens stale fits.search rfl
  have kept := same.pageFits fits
  have live : (book.between (.visit shelfno collectMode stale)).Live := by
    refine ⟨?_, kept.globalNewBookComing, ?_⟩
    · change (book.gui.display shelfno.val collectMode none stale).localShelfno ≠ _
      rw [kept.localShelfno]
      exact Int.ne_of_gt shelfno.property
    · exact fun collecting => sorted (kept.bcollect.symm.trans collecting)
  have newMark : (book.gui.display shelfno.val collectMode none stale).newMark ≠
      markChar (!book.newMark) := by
    rw [same.newMark]
    have unmarked : (book.gui.resetOnChange shelfno.val collectMode none).newMark =
        book.gui.newMark := by
      rw [Ncgui.resetOnChange]
      split <;> rfl
    rw [unmarked]
    exact sound.newMark
  refine ⟨displays, newMark, ?_, ?_⟩
  · intro ended _
    rcases opens.outcome with ⟨waiting, _⟩ | ⟨page, leafs, _⟩
    · exact waiting
    · have shown := leafs.shown
      change (book.gui.display shelfno.val collectMode none stale).shown = none at ended
      rw [ended] at shown
      cases shown
  · intro page shown
    rcases opens.outcome with ⟨waiting, _⟩ | ⟨other, leafs, _⟩
    · have ended := waiting.shown
      change (book.gui.display shelfno.val collectMode none stale).shown = some page at shown
      rw [ended] at shown
      cases shown
    · have same : some other = some page := leafs.shown.symm.trans shown
      cases same
      exact .inl ⟨live, leafs, kept⟩

theorem Sound.showsAll (shelfno : ShelfNumber) (collectMode : Bool) (stale : BookEntry)
    (renews : book.RenewsUnsorted (.visit shelfno collectMode stale)) :
    book.ShowsAll (.visit shelfno collectMode stale) := by
  rcases sound.resets resting stale renews with ⟨waits, fits, _⟩
  intro _ msg last
  rcases @ShelfSession.leafThrough_complete ⟨shelfno.val, collectMode, none, stale⟩ book.session _
    rfl waits fits msg last with ⟨rounds, complete⟩
  refine ⟨rounds, fun fuel enough => ?_⟩
  rcases complete fuel enough with ⟨rows, leafed, shown⟩
  refine ⟨rows, leafed, ?_⟩
  intro row member listed
  have link := Ncgui.resetOnChange_link shelfno.val collectMode none book.gui
  apply shown row
  · change row ∈ (book.gui.resetOnChange shelfno.val collectMode none).client.link.server.db.archive.books
    rw [link]
    exact member
  · have modeShelf : (book.gui.resetOnChange shelfno.val collectMode none).modeShelf =
        if collectMode then nonSenseInt else shelfno.val := by
      rw [Ncgui.modeShelf, fits.bcollect, fits.localShelfno]
    change row.listedFor (book.gui.resetOnChange shelfno.val collectMode none).modeShelf = true
    rw [modeShelf]
    exact listed

omit resting in
/-- A new mark begins a listing of its own. -/
theorem Sound.search (entry stale : BookEntry) : (book.between (.search entry stale)).Sound := by
  have calm := sound.healthy.calm
  have marked : (book.markSearch entry).gui.Healthy := by
    rcases Client.findFromServer_find calm.prompt (rfl : (clientSearchingBookMsg
      book.gui.client.loginUser breakLimitInt entry).request = .findBook) with
      ⟨_, _, link, added, found, prompt, _⟩
    have reaches := Client.findFromServer_reaches
      (clientSearchingBookMsg book.gui.client.loginUser breakLimitInt entry) book.gui.client
    rw [found] at reaches
    change (book.gui.withClient (book.gui.client.findFromServer (clientSearchingBookMsg
      book.gui.client.loginUser breakLimitInt entry)).2.2).Healthy
    rw [found]
    exact sound.healthy.continues prompt reaches rfl
  have displays := marked.display entry.shelfno false
    (some (markChar (!book.newMark), entry)) stale
  have supported : ¬(false = true ∧
      (some (markChar (!book.newMark), entry)).isSome = true) := fun both =>
    Bool.false_ne_true both.1
  have same := @Ncgui.display_sameStatics entry.shelfno false
    (some (markChar (!book.newMark), entry)) stale (book.markSearch entry).gui supported
  have renewed : (book.markSearch entry).gui.newMark ≠ markChar (!book.newMark) := sound.newMark
  have opened : (book.between (.search entry stale)).gui =
      (book.markSearch entry).gui.display entry.shelfno false
        (some (markChar (!book.newMark), entry)) stale := rfl
  rw [Ncgui.resetOnChange, if_pos renewed, ← opened] at same
  rw [← opened] at displays
  have other : markChar (!book.newMark) ≠ markChar (!!book.newMark) := by
    cases book.newMark <;> decide
  have away : (book.between (.search entry stale)).Searches :=
    ⟨same.localShelfno, _, _, rfl, other⟩
  refine ⟨displays, ?_, fun _ live => absurd away.localShelfno live.localShelfno,
    fun _ _ => .inr away⟩
  exact fun equal => other (same.newMark.symm.trans equal)

end Between

/-! ## Runs -/

theorem sound_start {client : Client} (calm : client.Calm) (named : client.loginUser ≠ "")
    (shelvesAll : Int) : (start ⟨.start client, shelvesAll⟩).Sound := by
  have unmarked : Char.ofNat 0 ≠ markChar true := by decide
  refine ⟨⟨calm, named⟩, unmarked, ?_, ?_⟩
  · exact fun _ live => absurd rfl live.localShelfno
  · intro page shown
    cases shown

theorem Sound.step {book : BookSession} (sound : book.Sound) (event : BookEvent)
    (renews : book.RenewsUnsorted event) : (book.step event).Sound := by
  unfold BookSession.step
  cases shown : book.gui.shown with
  | none =>
      cases event with
      | visit shelfno collectMode stale => exact sound.visit shown shelfno collectMode stale renews
      | search entry stale => exact sound.search entry stale
      | key key msg => exact sound
      | newBook time entry => exact sound.insertBook shown time entry
      | deleteShelf shelfno whole => exact sound.deleteShelf shown shelfno whole
      | buildShelf time shelf => exact sound.buildShelf shown time shelf
      | enquire enquiry => exact sound.enquire shown enquiry
  | some page =>
      cases event with
      | key key msg => exact sound.press shown key msg
      | _ => exact sound

/-- In every run in which no visit for collecting reuses a listing that was begun before a shelf was
unsorted, each visit shows all that the server lists for it. -/
theorem listings_miss_nothing (client : Client) (calm : client.Calm) (named : client.loginUser ≠ "")
    (shelvesAll : Int) (events : List BookEvent)
    (renews : Execution.Along step RenewsUnsorted (start ⟨.start client, shelvesAll⟩) events) :
    Execution.Along step ShowsAll (start ⟨.start client, shelvesAll⟩) events := by
  apply (Execution.always_and_along_of_along (fun _ event sound => sound.step event)
    (fun _ sound => sound) _ (sound_start calm named shelvesAll) renews).2
  intro book event sound renews
  cases event with
  | visit shelfno collectMode stale =>
      intro resting
      exact sound.showsAll resting shelfno collectMode stale renews resting
  | _ => exact trivial

instance (book : BookSession) (event : BookEvent) : Decidable (book.RenewsUnsorted event) :=
  match event with
  | .visit shelfno collectMode _ =>
      inferInstanceAs (Decidable (book.gui.shown = none → collectMode = true →
        book.unsorted = true → book.gui.renews shelfno.val true = true))
  | .search _ _ => inferInstanceAs (Decidable True)
  | .key _ _ => inferInstanceAs (Decidable True)
  | .newBook _ _ => inferInstanceAs (Decidable True)
  | .deleteShelf _ _ => inferInstanceAs (Decidable True)
  | .buildShelf _ _ => inferInstanceAs (Decidable True)
  | .enquire _ => inferInstanceAs (Decidable True)

def sampleStart : BookSession := .start ⟨.start (.connected .sample .empty .empty "reader"), 0⟩

/-- Three shelves with a book on two of them, one of which is unsorted before a visit. -/
def unsortingEvents : List BookEvent :=
  [.buildShelf Server.sampleTime Server.sampleShelf,
    .buildShelf Server.sampleTime Server.sampleShelf,
    .buildShelf Server.sampleTime Server.sampleShelf,
    .newBook Server.sampleTime (Server.sampleBook 3),
    .newBook Server.sampleTime (Server.sampleBook 2),
    .deleteShelf ⟨2, by decide⟩ (some true),
    .visit ⟨1, by decide⟩ true .zeroed]

theorem unsorted_book_listed : Execution.Along step ShowsAll sampleStart unsortingEvents :=
  listings_miss_nothing _ ⟨rfl, rfl, rfl, rfl, rfl, rfl, Archive.wellNumbered_empty⟩ (by decide) 0 _
    (by decide)

/-- The other shelf is unsorted too. -/
def reusingEvents : List BookEvent :=
  unsortingEvents ++ [.key .backspace .zeroed, .deleteShelf ⟨3, by decide⟩ (some true)]

/-- The next visit displays the listing of the first shelf. -/
theorem unsorted_book_missed :
    ¬Execution.Along step ShowsAll sampleStart
      (reusingEvents ++ [.visit ⟨1, by decide⟩ true .zeroed]) := by
  intro along
  have shows := (Execution.along_append.mp along).2.1
  have printed : ((Execution.run step sampleStart reusingEvents).session.leafThrough .zeroed 0
      ⟨1, true, none, .zeroed⟩ 5).map (fun rows => rows.map fun row => row.2.bookno) =
        some [2] := by decide
  have listed : ∃ row ∈ (Execution.run step sampleStart
      reusingEvents).gui.client.link.server.db.archive.books,
        row.listedFor nonSenseInt = true ∧ row.bookno = 1 := by decide
  rcases Option.map_eq_some_iff.mp printed with ⟨rows, leafed, numbers⟩
  rcases shows rfl .zeroed 0 with ⟨rounds, complete⟩
  rcases complete (rounds + 5) (Nat.le_add_right _ _) with ⟨later, on, shown⟩
  have same := ShelfSession.leafThrough_of_le (Nat.le_add_left 5 rounds) leafed
  have equal : rows = later := Option.some.inj (same.symm.trans on)
  rcases listed with ⟨row, member, unsorted, first⟩
  rcases shown row member unsorted with ⟨entry, there, number⟩
  have printed := List.mem_map_of_mem (f := fun row : Nat × BookEntry => row.2.bookno) there
  rw [← equal, numbers, number, first] at printed
  exact absurd printed (by decide)

end BookSession

end Bookshelfdq
