import Bookshelfdq.Session.ListedPages

/-! # Leafing through a listing

From the first page to the last, all that the server lists is shown. In a run the listing in the
cache stays complete unless a shelf is unsorted, and other listings are begun anew. -/

namespace Bookshelfdq

/-! ## Pages of a visit -/

theorem pageEnd_of_shown {key : Ncgui.Key} {before after : Ncgui} {page : BookPage}
    (shown : after.shown = some page) : pageEnd key before after = .stays := by
  unfold pageEnd
  rw [shown]

theorem pageEnd_of_left {before after : Ncgui} (ended : after.shown = none) :
    pageEnd .left before after = .turns := by
  unfold pageEnd
  rw [ended]

theorem pageEnd_of_right {stale : Int} {before after : Ncgui} (ended : after.shown = none)
    (more : before.bookPageCnt < after.bookPageCnt) :
    pageEnd (.right stale) before after = .turns := by
  unfold pageEnd
  rw [ended]
  exact if_pos more

namespace ShelfSession

variable {call : PageCall}

/-- A page is shown as it is in the cache. -/
structure Shows (call : PageCall) (session : ShelfSession) (page : BookPage) : Prop where
  leafs : session.gui.Leafs page
  fresh : session.gui.Fresh page
  fits : session.gui.PageFits call

section Pressing

variable {session : ShelfSession} {key : Ncgui.Key} {page : BookPage}
  (shown : session.gui.shown = some page) (msg : MessageCs)

include shown

theorem pressBookinfo_of_stays {later : BookPage}
    (still : (session.gui.press key).shown = some later) :
    session.pressBookinfo msg call key = session.withGui (session.gui.press key) := by
  unfold pressBookinfo
  rw [shown]
  dsimp only [withGui]
  rw [pageEnd_of_shown still]

theorem pressBookinfo_of_turns (turns : pageEnd key session.gui (session.gui.press key) = .turns) :
    session.pressBookinfo msg call key =
      ((session.withGui (session.gui.press key)).finish msg call).displayBookinfo call := by
  unfold pressBookinfo
  rw [shown]
  dsimp only [withGui]
  rw [turns]

/-- What follows a key: nothing, the end of the call, or the call for another page. -/
theorem pressBookinfo_cases (call : PageCall) :
    session.pressBookinfo msg call key = session.withGui (session.gui.press key) ∨
      ((session.gui.press key).shown = none ∧
        (session.pressBookinfo msg call key =
            (session.withGui (session.gui.press key)).finish msg call ∨
          session.pressBookinfo msg call key =
            ((session.withGui (session.gui.press key)).finish msg call).displayBookinfo call)) := by
  cases still : (session.gui.press key).shown with
  | some later => exact .inl (pressBookinfo_of_stays shown msg still)
  | none =>
      unfold pressBookinfo
      rw [shown]
      dsimp only [withGui]
      cases pageEnd key session.gui (session.gui.press key) with
      | stays => exact .inl rfl
      | fails => exact .inl rfl
      | leaves => exact .inr ⟨rfl, .inl rfl⟩
      | turns => exact .inr ⟨rfl, .inr rfl⟩

end Pressing

/-- What a call displays when the listing of the statics is displayed again. -/
theorem displayBookinfo_opens {session : ShelfSession} (waits : session.gui.Waits)
    (fits : session.gui.PageFits call) :
    session.gui.Opens (session.displayBookinfo call).gui :=
  waits.opens call.stale fits.search fits.resetOnChange

theorem finish_of_fits {session : ShelfSession} (fits : session.gui.PageFits call)
    (msg : MessageCs) : session.finish msg call = session := by
  rw [finish, fits.search]
  rfl

/-- A page that was turned to is displayed, as it is not empty. -/
theorem shows_of_turn {session : ShelfSession} (waits : session.gui.Waits)
    (fits : session.gui.PageFits call) (used : 0 < session.gui.client.books.bookDbmPos) :
    ∃ page, (session.displayBookinfo call).Shows call page := by
  have opens := displayBookinfo_opens waits fits
  rcases opens.outcome with ⟨_, empty, _⟩ | ⟨page, leafs, fresh⟩
  · have grows := opens.goesOn.numbers.length_le
    rw [BookCache.length_numbers, BookCache.length_numbers, empty] at grows
    exact absurd used (Nat.not_lt.mpr grows)
  · exact ⟨page, leafs, fresh, fits.goesOn opens.goesOn⟩

section Turns

variable {session : ShelfSession} {page : BookPage} (shows : session.Shows call page)
  (msg : MessageCs)

include shows

theorem Shows.used : 0 < session.gui.client.books.bookDbmPos := by
  have positive := shows.leafs.positive
  have size := shows.leafs.size
  omega

/-- One page back. -/
theorem Shows.turnBack :
    ∃ before, (session.pressBookinfo msg call .left).Shows call before ∧
      session.gui.GoesOn (session.pressBookinfo msg call .left).gui ∧
      (session.pressBookinfo msg call .left).gui.bookPageCnt = session.gui.bookPageCnt - 1 := by
  have goesOn := shows.leafs.pageLeft_goesOn
  have fits := shows.fits.goesOn goesOn
  have waits : (session.withGui session.gui.pageLeft).gui.Waits := shows.leafs.pageLeft
  have turned : session.pressBookinfo msg call .left =
      (session.withGui session.gui.pageLeft).displayBookinfo call := by
    have ends : pageEnd .left session.gui (session.gui.press .left) = .turns := by
      rw [shows.leafs.press_left]
      exact pageEnd_of_left waits.shown
    rw [pressBookinfo_of_turns shows.leafs.shown msg ends, shows.leafs.press_left]
    exact congrArg (displayBookinfo call) (@finish_of_fits _ (session.withGui _) fits msg)
  have opens := displayBookinfo_opens waits fits
  rw [turned]
  rcases shows_of_turn waits fits shows.used with ⟨before, later⟩
  exact ⟨before, later, goesOn.trans opens.goesOn, opens.bookPageCnt⟩

/-- Back to the first page. -/
theorem Shows.turnedBack {count : Nat} (counted : session.gui.bookPageCnt = count) :
    ∃ first, ((pressBookinfo msg call .left)^[count] session).Shows call first ∧
      session.gui.GoesOn ((pressBookinfo msg call .left)^[count] session).gui ∧
      ((pressBookinfo msg call .left)^[count] session).gui.bookPageCnt = 0 := by
  induction count generalizing session page with
  | zero =>
      have same : session.gui.client.withBooks session.gui.client.books = session.gui.client := rfl
      exact ⟨page, shows, shows.leafs.lists.goesOn same.symm rfl rfl rfl rfl rfl rfl, counted⟩
  | succ count induction =>
      rcases shows.turnBack msg with ⟨before, later, goesOn, less⟩
      rw [counted] at less
      rcases induction later less with ⟨first, shown, further, start⟩
      exact ⟨first, shown, goesOn.trans further, start⟩

/-- One page on: it was the last, or the next one is shown. -/
theorem Shows.turnOn (stale : Int) :
    ((session.pressBookinfo msg call (.right stale)).gui.noNextPageFlag = true ∧
      session.gui.client.Whole (BookRow.listedFor session.gui.modeShelf) session.gui.localBookno ∧
      session.gui.client.books.bookDbmPos ≤ (session.gui.bookPageCnt + 1) * padHight) ∨
    ((session.pressBookinfo msg call (.right stale)).gui.noNextPageFlag = false ∧
      page.rows.length = padHight ∧
      session.gui.GoesOn (session.pressBookinfo msg call (.right stale)).gui ∧
      (session.pressBookinfo msg call (.right stale)).gui.bookPageCnt =
        session.gui.bookPageCnt + 1 ∧
      ∃ next, (session.pressBookinfo msg call (.right stale)).Shows call next) := by
  rcases shows.leafs.press_right stale with ⟨later, rows, leafs, pressed⟩
  have same : session.gui.client.withBooks session.gui.client.books = session.gui.client := rfl
  have resumed : session.gui.GoesOn (session.gui.withPage later) :=
    shows.leafs.lists.goesOn same.symm rfl rfl rfl rfl rfl rfl
  rcases leafs.pageRight stale with ⟨goesOn, ⟨flag, still, last⟩ | ⟨_, flag, waits, full, more⟩⟩
  · rw [← pressed] at flag still
    rw [pressBookinfo_of_stays shows.leafs.shown msg still.shown]
    exact .inl ⟨flag, last⟩
  · rw [← pressed] at goesOn flag waits more
    have turns := shows.fits.goesOn (resumed.trans goesOn)
    have turned : session.pressBookinfo msg call (.right stale) =
        (session.withGui (session.gui.press (.right stale))).displayBookinfo call := by
      have further : session.gui.bookPageCnt < (session.gui.press (.right stale)).bookPageCnt := by
        rw [more]
        exact Nat.lt_succ_self _
      rw [pressBookinfo_of_turns shows.leafs.shown msg (pageEnd_of_right waits.shown further)]
      exact congrArg (displayBookinfo call) (@finish_of_fits _ (session.withGui _) turns msg)
    have used : 0 < (session.gui.press (.right stale)).client.books.bookDbmPos := by
      have grows := (resumed.trans goesOn).numbers.length_le
      rw [BookCache.length_numbers, BookCache.length_numbers] at grows
      exact shows.used.trans_le grows
    have next : (session.withGui (session.gui.press (.right stale))).gui.Waits := waits
    have opens := displayBookinfo_opens next turns
    rw [turned]
    exact .inr ⟨opens.noNextPageFlag.trans flag, rows ▸ full, (resumed.trans goesOn).trans opens.goesOn,
      opens.bookPageCnt.trans more, shows_of_turn next turns used⟩

/-- A number of the cache is on an earlier page, on the page shown, or on a later one. -/
theorem Shows.number_shown {number : Int}
    (cached : some number ∈
      session.gui.client.books.numbers.take ((session.gui.bookPageCnt + 1) * padHight)) :
    some number ∈ session.gui.client.books.numbers.take (session.gui.bookPageCnt * padHight) ∨
      ∃ shown ∈ page.rows, shown.2.bookno = number := by
  rw [Nat.succ_mul, List.take_add, ← shows.fresh] at cached
  apply (List.mem_append.mp cached).imp_right
  intro member
  rcases List.mem_map.mp member with ⟨shown, there, same⟩
  exact ⟨shown, there, Option.some.inj same⟩

end Turns

/-- The pages from the one shown to the last show all that is listed but what is on earlier pages.
The fuel is for the books that are not on earlier pages. -/
theorem Shows.leafOn (msg : MessageCs) (stale : Int) (fuel : Nat) {session : ShelfSession}
    {page : BookPage} (shows : session.Shows call page)
    (enough : session.gui.extent < fuel + session.gui.bookPageCnt * padHight) :
    ∃ rows, session.leafOn msg stale call fuel = some rows ∧
      ∀ row ∈ session.gui.client.link.server.db.archive.books,
        row.listedFor session.gui.modeShelf = true →
          some row.bookno ∈
              session.gui.client.books.numbers.take (session.gui.bookPageCnt * padHight) ∨
            ∃ shown ∈ rows, shown.2.bookno = row.bookno := by
  induction fuel generalizing session page with
  | zero =>
      have positive := shows.leafs.positive
      have size := shows.leafs.size
      rw [Ncgui.extent] at enough
      omega
  | succ fuel induction =>
      rw [ShelfSession.leafOn, shows.leafs.shown]
      dsimp only
      rcases shows.turnOn msg stale with ⟨flag, whole, bound⟩ | ⟨flag, full, goesOn, count, next, later⟩
      · rw [if_pos flag]
        refine ⟨page.rows, rfl, fun row member listed => shows.number_shown ?_⟩
        have cached := shows.leafs.lists.covers.rows row member listed (whole row member listed)
        rw [List.take_of_length_le]
        · exact cached
        · rw [BookCache.length_numbers]
          exact bound
      · have more : session.gui.extent <
            fuel + (session.gui.bookPageCnt + 1) * padHight := by
          rw [Nat.succ_mul]
          have positive : 0 < padHight := by decide
          omega
        rw [← goesOn.extent, ← count] at more
        rcases induction later more with ⟨rows, leafed, complete⟩
        have flagged : ¬(session.pressBookinfo msg call (.right stale)).gui.noNextPageFlag = true := by
          rw [flag]
          exact Bool.false_ne_true
        rw [if_neg flagged, leafed]
        refine ⟨page.rows ++ rows, rfl, ?_⟩
        intro row member listed
        rw [goesOn.modeShelf, count, goesOn.continued.archive] at complete
        rcases complete row member listed with cached | ⟨shown, there, same⟩
        · have reached : (session.gui.bookPageCnt + 1) * padHight ≤
              session.gui.client.books.numbers.length := by
            have size := shows.leafs.size
            have positive := shows.leafs.positive
            rw [BookCache.length_numbers, Nat.succ_mul]
            omega
          rcases goesOn.numbers with ⟨tail, grown⟩
          rw [← grown, List.take_append_of_le_length reached] at cached
          apply (shows.number_shown cached).imp_right
          rintro ⟨shown, there, same⟩
          exact ⟨shown, List.mem_append_left _ there, same⟩
        · exact .inr ⟨shown, List.mem_append_right _ there, same⟩

/-- Fuel that is left over changes nothing. -/
theorem leafOn_of_le {msg : MessageCs} {stale : Int} {fuel more : Nat} (enough : fuel ≤ more)
    {session : ShelfSession} {rows : List (Nat × BookEntry)}
    (leafed : session.leafOn msg stale call fuel = some rows) :
    session.leafOn msg stale call more = some rows := by
  induction fuel generalizing more session rows with
  | zero => cases leafed
  | succ fuel induction =>
      rcases Nat.exists_eq_add_of_le' (Nat.le_of_add_left_le enough) with ⟨rest, rfl⟩
      rw [ShelfSession.leafOn] at leafed ⊢
      cases shown : session.gui.shown with
      | none =>
          rw [shown] at leafed
          exact leafed
      | some page =>
          rw [shown] at leafed
          dsimp only at leafed ⊢
          split at leafed
          case isTrue ended => rw [if_pos ended, leafed]
          case isFalse further =>
            rcases Option.map_eq_some_iff.mp leafed with ⟨later, on, same⟩
            rw [if_neg further, induction (Nat.le_of_succ_le_succ enough) on, Option.map_some, same]

theorem leafThrough_of_le {msg : MessageCs} {stale : Int} {fuel more : Nat} (enough : fuel ≤ more)
    {session : ShelfSession} {rows : List (Nat × BookEntry)}
    (leafed : session.leafThrough msg stale call fuel = some rows) :
    session.leafThrough msg stale call more = some rows :=
  leafOn_of_le enough leafed

/-- A visit that leafs from the first page to the last shows all that is listed. -/
theorem leafThrough_complete {session : ShelfSession} {fresh : Ncgui}
    (reset : session.gui.resetOnChange call.shelfno call.collectMode call.search = fresh)
    (waits : fresh.Waits) (fits : fresh.PageFits call) (msg : MessageCs) (stale : Int) :
    ∃ rounds, ∀ fuel ≥ rounds, ∃ rows,
      session.leafThrough msg stale call fuel = some rows ∧
        ∀ row ∈ fresh.client.link.server.db.archive.books,
          row.listedFor fresh.modeShelf = true → ∃ shown ∈ rows, shown.2.bookno = row.bookno := by
  have opens : fresh.Opens (session.displayBookinfo call).gui :=
    waits.opens call.stale fits.search reset
  have archive := opens.goesOn.continued.archive
  have modeShelf := opens.goesOn.modeShelf
  rcases opens.outcome with ⟨waiting, empty, whole⟩ | ⟨page, leafs, rows⟩
  · have count : (session.displayBookinfo call).gui.bookPageCnt = 0 := by
      rcases waiting.lists.place with used | first
      · rw [empty] at used
        exact absurd used (Nat.not_lt_zero _)
      · exact first
    refine ⟨1, fun fuel enough => ⟨[], ?_, ?_⟩⟩
    · rcases Nat.exists_eq_add_of_le' enough with ⟨fuel, rfl⟩
      rw [leafThrough, count, Function.iterate_zero, id_eq, ShelfSession.leafOn, waiting.shown]
    · intro row member listed
      rw [← archive] at member
      rw [← modeShelf] at listed
      have cached := waiting.lists.covers.rows row member listed (whole row member listed)
      have length := BookCache.length_numbers (session.displayBookinfo call).gui.client.books
      rw [empty] at length
      rw [List.eq_nil_of_length_eq_zero length] at cached
      exact absurd cached List.not_mem_nil
  · have shows : (session.displayBookinfo call).Shows call page :=
      ⟨leafs, rows, fits.goesOn opens.goesOn⟩
    rcases shows.turnedBack msg rfl with ⟨first, shown, goesOn, start⟩
    simp only [leafThrough]
    generalize (pressBookinfo msg call .left)^[(session.displayBookinfo call).gui.bookPageCnt]
      (session.displayBookinfo call) = back at shown goesOn start ⊢
    refine ⟨back.gui.extent + 1, fun fuel enough => ?_⟩
    rcases shown.leafOn msg stale fuel (Nat.lt_add_right _ enough) with ⟨rows, leafed, complete⟩
    refine ⟨rows, leafed, ?_⟩
    intro row member listed
    rw [← archive, ← goesOn.continued.archive] at member
    rw [← modeShelf, ← goesOn.modeShelf] at listed
    apply (complete row member listed).resolve_left
    rw [start, Nat.zero_mul, List.take_zero]
    exact List.not_mem_nil

end ShelfSession

/-! ## A healthy connection -/

namespace Ncgui

/-- The connection is healthy and logged in. -/
structure Healthy (gui : Ncgui) : Prop where
  calm : gui.client.Calm
  named : gui.client.loginUser ≠ ""

theorem Healthy.continues {gui after : Ncgui} (healthy : gui.Healthy)
    (prompt : after.client.link.Prompt) (reaches : gui.client.link.Reaches after.client.link)
    (loginUser : after.client.loginUser = gui.client.loginUser) : after.Healthy :=
  ⟨healthy.calm.of_reaches prompt reaches, loginUser ▸ healthy.named⟩

theorem Healthy.withClient {gui : Ncgui} {after : Client} (healthy : gui.Healthy)
    (calm : after.Calm) (loginUser : after.loginUser = gui.client.loginUser) :
    (gui.withClient after).Healthy := by
  refine ⟨calm, ?_⟩
  change after.loginUser ≠ ""
  rw [loginUser]
  exact healthy.named

theorem resetOnChange_loginUser (shelfno : Int) (collectMode : Bool)
    (search : Option (Char × BookEntry)) (gui : Ncgui) :
    (gui.resetOnChange shelfno collectMode search).client.loginUser = gui.client.loginUser := by
  rcases search with _ | ⟨mark, entry⟩ <;> rw [resetOnChange] <;> split <;> rfl

theorem Healthy.display {gui : Ncgui} (healthy : gui.Healthy) (shelfno : Int) (collectMode : Bool)
    (search : Option (Char × BookEntry)) (stale : BookEntry) :
    (gui.display shelfno collectMode search stale).Healthy := by
  by_cases refused : collectMode = true ∧ search.isSome = true
  · rw [Ncgui.display, if_pos refused]
    exact healthy
  · have reads := display_reads healthy.calm.prompt shelfno collectMode search stale refused
    exact healthy.continues reads.prompt (display_reaches shelfno collectMode search stale gui)
      (reads.loginUser.trans (gui.resetOnChange_loginUser shelfno collectMode search))

theorem Healthy.press {gui : Ncgui} (healthy : gui.Healthy) (key : Key) :
    (gui.press key).Healthy := by
  have reaches : gui.client.link.Reaches (gui.press key).client.link :=
    step_reaches 0 gui (.key key)
  by_cases acts : ∃ action, key = .action action
  · rcases acts with ⟨action, rfl⟩
    rcases @step_action gui 0 action with same | ⟨page, shown, acted⟩
    · exact healthy.continues (congrArg Client.link same ▸ healthy.calm.prompt) reaches
        (congrArg Client.loginUser same)
    · change (gui.press (.action action)).client = _ at acted
      rcases act_cases healthy.calm.prompt action gui.bcollect gui.localShelfno (gui.acted page)
        (gui.curDbmPos page) with same | ⟨_, _, deletes⟩ | ⟨sent, written, _, updates⟩
      · rw [same] at acted
        exact healthy.continues (congrArg Client.link acted ▸ healthy.calm.prompt) reaches
          (congrArg Client.loginUser acted)
      · rw [← acted] at deletes
        exact healthy.continues deletes.prompt reaches deletes.loginUser
      · rw [← acted] at updates
        exact healthy.continues updates.prompt reaches updates.loginUser
  · have passive : ∀ action, Input.key key ≠ .key (.action action) := by
      rintro action same
      exact acts ⟨action, Input.key.inj same⟩
    rcases step_reads healthy.calm.prompt 0 (rfl : (Input.key key).ofPage = true) passive with
      ⟨msg, _, reads⟩
    exact healthy.continues reads.prompt reaches reads.loginUser

theorem display_sameStatics {shelfno : Int} {collectMode : Bool}
    {search : Option (Char × BookEntry)} (stale : BookEntry) {gui : Ncgui}
    (supported : ¬(collectMode = true ∧ search.isSome = true)) :
    (gui.resetOnChange shelfno collectMode search).SameStatics
      (gui.display shelfno collectMode search stale) := by
  rw [display, if_neg supported]
  dsimp only
  split <;> exact ⟨rfl, rfl, rfl, rfl⟩

end Ncgui

namespace ShelfSession

theorem finish_healthy {session : ShelfSession} (healthy : session.gui.Healthy) (msg : MessageCs)
    (call : PageCall) :
    (session.finish msg call).gui.Healthy ∧
      session.gui.SameStatics (session.finish msg call).gui := by
  rw [finish]
  split
  · have shelves := healthy.calm.clientShelvesCountSync_unchanged msg session.shelvesAll
    have counted := healthy.withClient shelves.continued.calm shelves.continued.loginUser
    have books := counted.calm.clientBooksCountSync_unchanged msg
    exact ⟨counted.withClient books.continued.calm books.continued.loginUser, rfl, rfl, rfl, rfl⟩
  · exact ⟨healthy, .refl _⟩

end ShelfSession

end Bookshelfdq
