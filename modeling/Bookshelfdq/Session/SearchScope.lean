import Mathlib.Data.List.Induction
import Bookshelfdq.Session.ShelfRows

/-! # The scope of a search

The search page calls `display_lookthrough_page(1)` for a shelf and takes what is returned for its
number, `NON_SENSE_INT` apart. The page of shelves also returns menus. -/

namespace Bookshelfdq

namespace SearchScope

/-! ## The page of shelves in its select mode -/

/-- `ui_menu_e`. -/
inductive UiMenu
  | lookThrough
  | buildShelf
  | searchBook
  | quit
  | nonSense
  | cycle
  | login
  | register
deriving DecidableEq

/-- A C enumeration counts from 0. -/
def UiMenu.toInt : UiMenu → Int
  | .lookThrough => 0
  | .buildShelf => 1
  | .searchBook => 2
  | .quit => 3
  | .nonSense => 4
  | .cycle => 5
  | .login => 6
  | .register => 7

/-- A key, and what `get_confirm` answers behind the enter key. -/
inductive SelectKey
  | up
  | down
  | enter (confirmed : Bool)
  | backspace
deriving DecidableEq

/-- The round of a key. A refusal comes back to the loop. -/
def SelectKey.shelfKey : SelectKey → ShelfKey
  | .up => .up
  | .down => .down
  | .enter true => .choose
  | .enter false => .option []
  | .backspace => .backspace

/-- A key that ends the loop, if the server does not. -/
def SelectKey.Ends (key : SelectKey) : Prop := key = .enter true ∨ key = .backspace

/-- What the page returns, and the row that was confirmed. -/
structure Returned where
  value : Int
  confirmed : Option Int
deriving DecidableEq

/-- A round returned behind a look-up. It does not come back from one that does not end. -/
def afterLookUp (calls : List RealnoCall) : Option Returned :=
  if calls.all (·.result.isSome) then some ⟨UiMenu.nonSense.toInt, none⟩ else none

/-- The loop of the page. It is left with `rt_menu`. -/
def select (fuel : Nat) : List SelectKey → ShelfPage → Ncgui → Option Returned × Ncgui
  | [], _, gui => (none, gui)
  | key :: keys, page, gui =>
      match page.press fuel true key.shelfKey gui with
      | (_, .stays page, gui) => select fuel keys page gui
      | (_, .leaves, gui) => (some ⟨nonSenseInt, none⟩, gui)
      | (calls, .returns, gui) =>
          (match key with
          | .enter _ => some ⟨page.localShelf.code, some page.slider.currentRow⟩
          | _ => afterLookUp calls, gui)

/-- A visit of the page, and what it begins with. -/
structure SelectVisit where
  session : ShelfSession
  stale : ShelfEntry
  keys : List SelectKey

namespace SelectVisit

variable (visit : SelectVisit)

/-- `display_lookthrough_page(1)`; nothing is returned while the keys last, or if a look-up does not
end. -/
def lookthrough (fuel : Nat) : Option Returned × ShelfSession :=
  let session := visit.session
  if session.shelvesAll = 0 then (some ⟨UiMenu.nonSense.toInt, none⟩, session)
  else
    match session.gui.client.shelves.padFillShelvesInfo visit.stale with
    | none => (some ⟨UiMenu.nonSense.toInt, none⟩, session)
    | some page =>
        match page.lookUp fuel session.gui with
        | (_, .stays looked, gui) =>
            let selected := select fuel visit.keys looked gui
            (selected.1, { session with gui := selected.2 })
        | (calls, _, gui) => (afterLookUp calls, { session with gui := gui })

/-- The rows that the page prints. -/
def rows : List (Int × String) :=
  ((visit.session.gui.client.shelves.padFillShelvesInfo visit.stale).map ShelfPage.rows).getD []

end SelectVisit

/-! ## What the value means -/

/-- The code of the shelf on a row, which is in the record. -/
structure IsShelf (cache : ShelfCache) (rows : List (Int × String)) (row value : Int) : Prop where
  printed : ∃ (line : Nat) (shelfno : Int) (text : String), row = line ∧
    rows[line]? = some (shelfno, text) ∧ cache.clidbShelfExists shelfno = true ∧
      ∃ shelf, cache.clidbShelfGet shelfno = some shelf ∧ value = shelf.code

/-- Nothing was confirmed, and there is no shelf; or the shelf is the confirmed one. -/
def Returned.Right (cache : ShelfCache) (rows : List (Int × String)) (returned : Returned) : Prop :=
  returned.value = nonSenseInt ∨
    ∃ row, returned.confirmed = some row ∧ IsShelf cache rows row returned.value

def SelectVisit.Right (fuel : Nat) (visit : SelectVisit) : Prop :=
  ∀ returned, (visit.lookthrough fuel).1 = some returned →
    returned.Right visit.session.gui.client.shelves visit.rows

/-! ## What a visit needs -/

/-- Every shelf of the record has an entry. -/
def Entered (cache : ShelfCache) : Prop :=
  ∀ shelfno ∈ Client.shelfNumbers, cache.clidbShelfExists shelfno = true →
    (cache.clidbShelfGet shelfno).isSome = true

/-- The books on the shelf of the current row are counted, where there is one. -/
def Counted (fuel : Nat) (page : ShelfPage) (gui : Ncgui) : Prop :=
  ∀ shelfno, gui.client.shelves.clidbShelfRealno fuel (page.slider.currentRow + 1) = some shelfno →
    (gui.client.clientShelfCountBook
      ((gui.client.shelves.clidbShelfGet shelfno).getD page.localShelf).code).1 ≠ 0

/-- The page with the slider moved, where a key moves it. -/
def SelectKey.moved (page : ShelfPage) : SelectKey → Option ShelfPage
  | .up => some (page.withSlider (page.slider.up page.logicRows))
  | .down => some (page.withSlider (page.slider.down page.logicRows))
  | .enter _ => none
  | .backspace => none

/-- Each key that moves the slider has its count. -/
def KeysCounted (fuel : Nat) : List SelectKey → ShelfPage → Ncgui → Prop
  | [], _, _ => True
  | key :: keys, page, gui =>
      (∀ moved, key.moved page = some moved → Counted fuel moved gui) ∧
        ∀ calls later after,
          page.press fuel true key.shelfKey gui = (calls, .stays later, after) →
            KeysCounted fuel keys later after

/-- The client knows of shelves, has an entry for each one in its record, and gets every count that
it asks for. -/
structure SelectVisit.Answered (fuel : Nat) (visit : SelectVisit) : Prop where
  known : visit.session.shelvesAll ≠ 0
  entered : Entered visit.session.gui.client.shelves
  counted : ∀ page,
    visit.session.gui.client.shelves.padFillShelvesInfo visit.stale = some page →
      Counted fuel page visit.session.gui ∧
        ∀ calls looked after, page.lookUp fuel visit.session.gui = (calls, .stays looked, after) →
          KeysCounted fuel visit.keys looked after

/-! ## One round -/

/-- The page has a row for each shelf of the record, and the shelf of the current row is shown. -/
structure Shown (cache : ShelfCache) (page : ShelfPage) : Prop where
  fits : page.Fits cache
  shown : ∃ (line : Nat) (shelfno : Int) (text : String), page.slider.currentRow = line ∧
    page.rows[line]? = some (shelfno, text) ∧ cache.clidbShelfExists shelfno = true ∧
      cache.clidbShelfGet shelfno = some page.localShelf

section Round

variable {fuel : Nat} (enough : maxShelfNum < fuel) {cache : ShelfCache} (entered : Entered cache)
  {page : ShelfPage} {gui : Ncgui} (same : gui.client.shelves = cache) (fits : page.Fits cache)

include enough entered same fits

theorem lookUp_counted (counted : Counted fuel page gui) :
    ∃ calls looked after, page.lookUp fuel gui = (calls, .stays looked, after) ∧
      Shown cache looked ∧ looked.rows = page.rows ∧ after.client.shelves = cache := by
  subst same
  rcases fits.found enough with ⟨line, shelfno, text, row, printed, found⟩
  have recorded : shelfno ∈ gui.client.shelves.recorded := by
    rw [← fits.rows]
    exact List.mem_map.mpr ⟨(shelfno, text), List.mem_of_getElem? printed, rfl⟩
  rcases List.mem_filter.mp recorded with ⟨number, marked⟩
  rcases Option.isSome_iff_exists.mp (entered shelfno number marked) with ⟨shelf, entry⟩
  have answered := counted shelfno found
  rw [entry, Option.getD_some] at answered
  have kept := Client.clientShelfCountBook_shelves shelf.code gui.client
  rw [ShelfPage.lookUp, found]
  dsimp only
  rw [entry, Option.getD_some, if_neg answered]
  exact ⟨_, _, _, rfl, ⟨⟨fits.rows, fits.lower, fits.upper, fits.logicRows⟩,
    line, shelfno, text, row, printed, marked, entry⟩, rfl, kept⟩

omit entered in
theorem lookUp_uncounted (uncounted : ¬Counted fuel page gui) :
    ∃ calls after, page.lookUp fuel gui = (calls, .returns, after) ∧
      afterLookUp calls = some ⟨4, none⟩ := by
  subst same
  rcases fits.found enough with ⟨line, shelfno, text, row, printed, found⟩
  have refused : (gui.client.clientShelfCountBook
      ((gui.client.shelves.clidbShelfGet shelfno).getD page.localShelf).code).1 = 0 := by
    by_contra answered
    apply uncounted
    intro other looked
    rw [found] at looked
    cases looked
    exact answered
  rw [ShelfPage.lookUp, found]
  dsimp only
  rw [if_pos refused]
  exact ⟨_, _, rfl, rfl⟩

end Round

/-! ## The loop -/

theorem Shown.confirms {cache : ShelfCache} {page : ShelfPage} (shown : Shown cache page) :
    Returned.Right cache page.rows ⟨page.localShelf.code, some page.slider.currentRow⟩ := by
  rcases shown.shown with ⟨line, shelfno, text, row, printed, marked, entry⟩
  exact .inr ⟨_, rfl, ⟨line, shelfno, text, row, printed, marked, page.localShelf, entry, rfl⟩⟩

theorem menu_not_right (cache : ShelfCache) (rows : List (Int × String)) :
    ¬Returned.Right cache rows ⟨4, none⟩ := by
  rintro (none | ⟨row, confirmed, _⟩)
  · exact absurd none (by decide)
  · cases confirmed

section Loop

variable {fuel : Nat} (enough : maxShelfNum < fuel) {cache : ShelfCache} (entered : Entered cache)

/-- The keys that move the slider look the shelf of its new row up. -/
theorem press_moved {key : SelectKey} {page moved : ShelfPage} (step : key.moved page = some moved)
    (gui : Ncgui) : page.press fuel true key.shelfKey gui = moved.lookUp fuel gui := by
  cases key with
  | up =>
      cases step
      rfl
  | down =>
      cases step
      rfl
  | enter confirmed => cases step
  | backspace => cases step

theorem fits_moved {key : SelectKey} {page moved : ShelfPage} (step : key.moved page = some moved)
    {gui : Ncgui} (fits : page.Fits gui.client.shelves) :
    moved.Fits gui.client.shelves ∧ moved.rows = page.rows := by
  cases key with
  | up =>
      cases step
      exact ⟨fits.up, rfl⟩
  | down =>
      cases step
      exact ⟨fits.down, rfl⟩
  | enter confirmed => cases step
  | backspace => cases step

theorem select_moved {key : SelectKey} (keys : List SelectKey) {page moved : ShelfPage}
    (step : key.moved page = some moved) (gui : Ncgui) :
    select fuel (key :: keys) page gui =
      match moved.lookUp fuel gui with
      | (_, .stays looked, after) => select fuel keys looked after
      | (_, .leaves, after) => (some ⟨nonSenseInt, none⟩, after)
      | (calls, .returns, after) => (afterLookUp calls, after) := by
  rw [select, press_moved step]
  cases key with
  | up => rfl
  | down => rfl
  | enter confirmed => cases step
  | backspace => cases step

/-- A key that comes back to the loop hands the question on to the keys behind it. -/
theorem keysCounted_of_stays {key : SelectKey} {keys : List SelectKey} {page later : ShelfPage}
    {gui after : Ncgui} {calls : List RealnoCall}
    (stays : page.press fuel true key.shelfKey gui = (calls, .stays later, after))
    (counted : ∀ moved, key.moved page = some moved → Counted fuel moved gui) :
    KeysCounted fuel (key :: keys) page gui ↔ KeysCounted fuel keys later after := by
  constructor
  · intro all
    exact all.2 _ _ _ stays
  · intro rest
    refine ⟨counted, ?_⟩
    intro others another last pressed
    rw [stays] at pressed
    cases pressed
    exact rest

include enough entered in
theorem select_right_iff (keys : List SelectKey) {page : ShelfPage} {gui : Ncgui}
    (same : gui.client.shelves = cache) (shown : Shown cache page) :
    (∀ returned, (select fuel keys page gui).1 = some returned →
        returned.Right cache page.rows) ↔ KeysCounted fuel keys page gui := by
  induction keys generalizing page gui with
  | nil => exact ⟨fun _ => trivial, fun _ returned none => by cases none⟩
  | cons key keys induction =>
      cases step : key.moved page with
      | some moved =>
          rcases fits_moved step (same ▸ shown.fits) with ⟨fits, rows⟩
          rw [same] at fits
          rw [select_moved keys step]
          by_cases counted : Counted fuel moved gui
          · rcases lookUp_counted enough entered same fits counted with
              ⟨calls, looked, after, found, shownLater, sameRows, sameShelves⟩
            have each : ∀ other, key.moved page = some other → Counted fuel other gui := by
              intro other taken
              rw [step] at taken
              exact Option.some.inj taken ▸ counted
            rw [keysCounted_of_stays ((press_moved step gui).trans found) each, found, ← rows,
              ← sameRows]
            exact induction sameShelves shownLater
          · rcases lookUp_uncounted enough same fits counted with ⟨calls, after, found, returned⟩
            rw [found]
            exact ⟨fun right => absurd (right _ returned) (menu_not_right _ _),
              fun all => absurd (all.1 moved step) counted⟩
      | none =>
          have still : ∀ moved, key.moved page = some moved → Counted fuel moved gui := by
            intro moved other
            rw [step] at other
            cases other
          cases key with
          | up => cases step
          | down => cases step
          | enter confirmed =>
              cases confirmed with
              | false =>
                  have stays : page.press fuel true (SelectKey.enter false).shelfKey gui =
                      ([], .stays page, gui) := rfl
                  rw [keysCounted_of_stays stays still, select, stays]
                  exact induction same shown
              | true =>
                  constructor
                  · intro _
                    exact ⟨still, fun calls later after pressed => by cases pressed⟩
                  · intro _ returned value
                    cases value
                    exact shown.confirms
          | backspace =>
              constructor
              · intro _
                exact ⟨still, fun calls later after pressed => by cases pressed⟩
              · intro _ returned value
                cases value
                exact .inl rfl

include enough entered in
/-- The loop comes to its end, and something is returned. -/
theorem select_returns {keys : List SelectKey} (ends : ∃ key ∈ keys, key.Ends) {page : ShelfPage}
    {gui : Ncgui} (same : gui.client.shelves = cache) (shown : Shown cache page) :
    (select fuel keys page gui).1.isSome = true := by
  induction keys generalizing page gui with
  | nil =>
      rcases ends with ⟨key, member, _⟩
      exact absurd member List.not_mem_nil
  | cons key keys induction =>
      have later : ¬key.Ends → ∃ key ∈ keys, key.Ends := by
        intro goesOn
        rcases ends with ⟨other, member, last⟩
        rcases List.mem_cons.mp member with rfl | member
        · exact absurd last goesOn
        · exact ⟨other, member, last⟩
      cases step : key.moved page with
      | some moved =>
          have goesOn : ¬key.Ends := by
            rintro (rfl | rfl) <;> cases step
          have fits := (fits_moved step (same ▸ shown.fits)).1
          rw [same] at fits
          rw [select_moved keys step]
          by_cases counted : Counted fuel moved gui
          · rcases lookUp_counted enough entered same fits counted with
              ⟨calls, looked, after, found, shownLater, _, sameShelves⟩
            rw [found]
            exact induction (later goesOn) sameShelves shownLater
          · rcases lookUp_uncounted enough same fits counted with ⟨calls, after, found, returned⟩
            rw [found]
            exact Option.isSome_iff_exists.mpr ⟨_, returned⟩
      | none =>
          cases key with
          | up => cases step
          | down => cases step
          | enter confirmed =>
              cases confirmed with
              | true => rfl
              | false =>
                  have stays : page.press fuel true (SelectKey.enter false).shelfKey gui =
                      ([], .stays page, gui) := rfl
                  rw [select, stays]
                  exact induction (later (by rintro (same | same) <;> cases same)) same shown
          | backspace => rfl

end Loop

/-! ## A visit -/

/-- The rows are filled in exactly if each shelf that is passed has an entry. -/
theorem padRows_isSome_iff (cache : ShelfCache) (shelfnos : List Int) :
    (cache.padRows shelfnos).isSome = true ↔ ∀ shelfno ∈ shelfnos,
      cache.clidbShelfExists shelfno = true → (cache.clidbShelfGet shelfno).isSome = true := by
  induction shelfnos with
  | nil => exact ⟨fun _ shelfno member => absurd member List.not_mem_nil, fun _ => rfl⟩
  | cons shelfno rest induction =>
      rw [ShelfCache.padRows, List.forall_mem_cons]
      by_cases marked : cache.clidbShelfExists shelfno = true
      · rw [if_pos marked]
        cases entry : cache.clidbShelfGet shelfno with
        | none => simp [marked]
        | some shelf => simp [induction]
      · rw [if_neg marked, induction]
        exact ⟨fun all => ⟨fun mark => absurd mark marked, all⟩, And.right⟩

theorem padFill_isSome_iff (cache : ShelfCache) (stale : ShelfEntry) :
    (cache.padFillShelvesInfo stale).isSome = true ↔ Entered cache := by
  rw [ShelfCache.padFillShelvesInfo, Option.isSome_map, padRows_isSome_iff, Entered]

theorem entered_of_filled {cache : ShelfCache} {stale : ShelfEntry} {page : ShelfPage}
    (printed : cache.padFillShelvesInfo stale = some page) : Entered cache := by
  apply (padFill_isSome_iff cache stale).mp
  rw [printed, Option.isSome_some]

theorem padFill_fits {cache : ShelfCache} {stale : ShelfEntry} {page : ShelfPage}
    (filled : cache.padFillShelvesInfo stale = some page) (some : cache.recorded ≠ []) :
    page.Fits cache := by
  rcases Option.map_eq_some_iff.mp filled with ⟨rows, printed, rfl⟩
  have numbers := ShelfCache.padRows_numbers printed
  have length : 0 < rows.length := by
    rw [← List.length_map (f := Prod.fst), numbers]
    exact List.length_pos_iff.mpr some
  exact ⟨numbers, le_refl _, by simpa using length, rfl⟩

/-- On a page without a shelf the look-up does not end. -/
theorem lookUp_unrecorded {fuel : Nat} (enough : maxShelfNum < fuel) {page : ShelfPage}
    {gui : Ncgui} (first : page.slider.currentRow = 0) (none : gui.client.shelves.recorded = []) :
    gui.client.shelves.clidbShelfRealno fuel (page.slider.currentRow + 1) = .none := by
  have found := ShelfCache.clidbShelfRealno_eq enough gui.client.shelves 0
  rw [none] at found
  rw [first]
  exact found

/-- With rows on the page, the counts are all that is left to ask for. -/
theorem answered_iff_counted {fuel : Nat} {visit : SelectVisit} {page : ShelfPage}
    (known : visit.session.shelvesAll ≠ 0)
    (printed : visit.session.gui.client.shelves.padFillShelvesInfo visit.stale = some page) :
    visit.Answered fuel ↔ Counted fuel page visit.session.gui ∧
      ∀ calls looked after, page.lookUp fuel visit.session.gui = (calls, .stays looked, after) →
        KeysCounted fuel visit.keys looked after := by
  constructor
  · intro answered
    exact answered.counted page printed
  · intro counted
    refine ⟨known, entered_of_filled printed, ?_⟩
    intro other again
    rw [printed] at again
    exact Option.some.inj again ▸ counted

/-- The value is right exactly if there was something to choose from and every count was
answered. -/
theorem visit_right_iff {fuel : Nat} (enough : maxShelfNum < fuel) (visit : SelectVisit) :
    visit.Right fuel ↔ visit.Answered fuel := by
  rw [SelectVisit.Right, SelectVisit.lookthrough, SelectVisit.rows]
  dsimp only
  have wrong : ∀ {rows : List (Int × String)},
      ¬∀ returned, some ⟨UiMenu.nonSense.toInt, none⟩ = some returned →
        Returned.Right visit.session.gui.client.shelves rows returned :=
    fun right => menu_not_right _ _ (right _ rfl)
  by_cases known : visit.session.shelvesAll = 0
  · rw [if_pos known]
    exact ⟨fun right => absurd right wrong, fun answered => absurd known answered.known⟩
  · rw [if_neg known]
    cases printed : visit.session.gui.client.shelves.padFillShelvesInfo visit.stale with
    | none =>
        have filled := padFill_isSome_iff visit.session.gui.client.shelves visit.stale
        rw [printed] at filled
        exact ⟨fun right => absurd right wrong,
          fun answered => absurd (filled.mpr answered.entered) Bool.false_ne_true⟩
    | some page =>
        rw [answered_iff_counted known printed]
        dsimp only
        by_cases none : visit.session.gui.client.shelves.recorded = []
        · have first : page.slider.currentRow = 0 := by
            rcases Option.map_eq_some_iff.mp printed with ⟨rows, _, rfl⟩
            rfl
          have endless := lookUp_unrecorded enough first none
          have returns : page.lookUp fuel visit.session.gui =
              ([⟨page.slider.currentRow, .none⟩], .returns, visit.session.gui) := by
            rw [ShelfPage.lookUp]
            dsimp only
            rw [endless]
          rw [returns]
          constructor
          · intro _
            constructor
            · intro shelfno found
              rw [endless] at found
              cases found
            · intro calls looked after stays
              cases stays
          · intro _ returned value
            cases value
        · have fits := padFill_fits printed none
          have entered := entered_of_filled printed
          by_cases counted : Counted fuel page visit.session.gui
          · rcases lookUp_counted enough entered rfl fits counted with
              ⟨calls, looked, after, found, shown, rows, shelves⟩
            rw [found, Option.map_some, Option.getD_some, ← rows]
            dsimp only
            rw [select_right_iff enough entered visit.keys shelves shown]
            constructor
            · intro rest
              refine ⟨counted, ?_⟩
              intro others another last stays
              cases stays
              exact rest
            · intro both
              exact both.2 _ _ _ rfl
          · rcases lookUp_uncounted enough rfl fits counted with ⟨calls, after, found, returned⟩
            rw [found]
            dsimp only
            rw [returned]
            exact ⟨fun right => absurd right wrong, fun both => absurd both.1 counted⟩

/-- With a shelf in the record, a visit with a key that ends it returns. -/
theorem visit_returns {fuel : Nat} (enough : maxShelfNum < fuel) {visit : SelectVisit}
    (knows : visit.session.KnowsShelf) (ends : ∃ key ∈ visit.keys, key.Ends) :
    (visit.lookthrough fuel).1.isSome = true := by
  rcases visit with ⟨session, stale, keys⟩
  rw [SelectVisit.lookthrough]
  dsimp only
  by_cases known : session.shelvesAll = 0
  · rw [if_pos known]
    rfl
  · rw [if_neg known]
    rcases printed : session.gui.client.shelves.padFillShelvesInfo stale with _ | page
    · rfl
    · have entered := entered_of_filled printed
      have some : session.gui.client.shelves.recorded ≠ [] := by
        rcases knows known with ⟨shelfno, member, marked⟩
        exact List.ne_nil_of_mem (List.mem_filter.mpr ⟨member, marked⟩)
      have fits := padFill_fits printed some
      dsimp only
      by_cases counted : Counted fuel page session.gui
      · rcases lookUp_counted enough entered rfl fits counted with
          ⟨calls, looked, after, found, shown, _, shelves⟩
        rw [found]
        exact select_returns enough entered ends shelves shown
      · rcases lookUp_uncounted enough rfl fits counted with ⟨calls, after, found, returned⟩
        rw [found]
        exact Option.isSome_iff_exists.mpr ⟨_, returned⟩

/-- The visit is one of the page in its select mode, and leaves the session as that does. -/
theorem select_rounds (fuel : Nat) (keys : List SelectKey) (page : ShelfPage) (gui : Ncgui) :
    (select fuel keys page gui).2 =
      (page.rounds fuel true (keys.map SelectKey.shelfKey) gui).2.2 := by
  induction keys generalizing page gui with
  | nil => rfl
  | cons key keys induction =>
      rw [select, List.map_cons, ShelfPage.rounds]
      rcases page.press fuel true key.shelfKey gui with ⟨calls, later | _ | _, after⟩
      · exact induction later after
      · rfl
      · rfl

theorem lookthrough_session (fuel : Nat) (msg : MessageCs) (visit : SelectVisit) :
    (visit.lookthrough fuel).2 =
      (visit.session.lookthrough fuel true visit.stale msg
        (visit.keys.map SelectKey.shelfKey)).2 := by
  rw [SelectVisit.lookthrough, ShelfSession.lookthrough]
  dsimp only
  split
  · rfl
  · rcases visit.session.gui.client.shelves.padFillShelvesInfo visit.stale with _ | page
    · rfl
    · dsimp only
      rcases page.lookUp fuel visit.session.gui with ⟨calls, looked | _ | _, after⟩
      · have left : ¬((looked.rounds fuel true (visit.keys.map SelectKey.shelfKey) after).2.1 =
            true ∧ true = false) := fun both => Bool.noConfusion both.2
        dsimp only
        rw [select_rounds, if_neg left]
      · rfl
      · rfl

/-! ## The search page -/

/-- `local_book.code[0]` when the page of shelves has returned. -/
def scopeAfter (fuel : Nat) (scope : Int) (visit : SelectVisit) : Int :=
  match (visit.lookthrough fuel).1 with
  | none => scope
  | some returned => if returned.value ≠ nonSenseInt then returned.value else scope

/-- The search is for all shelves, or for one that was confirmed on one of the visits. -/
def Picked (fuel : Nat) (visits : List SelectVisit) (scope : Int) : Prop :=
  scope = nonSenseInt ∨ ∃ visit ∈ visits, ∃ returned row,
    (visit.lookthrough fuel).1 = some returned ∧ returned.confirmed = some row ∧
      IsShelf visit.session.gui.client.shelves visit.rows row scope

theorem scope_picked {fuel : Nat} {visits : List SelectVisit}
    (right : ∀ visit ∈ visits, visit.Right fuel) :
    Picked fuel visits (Execution.run (scopeAfter fuel) nonSenseInt visits) := by
  induction visits using List.reverseRecOn with
  | nil => exact .inl rfl
  | append_singleton visits last induction =>
      have earlier := induction fun visit member => right visit (List.mem_append_left _ member)
      have kept : Picked fuel (visits ++ [last])
          (Execution.run (scopeAfter fuel) nonSenseInt visits) := by
        rcases earlier with none | ⟨visit, member, picked⟩
        · exact .inl none
        · exact .inr ⟨visit, List.mem_append_left _ member, picked⟩
      rw [Execution.run_append, Execution.run, Execution.run, scopeAfter]
      cases value : (last.lookthrough fuel).1 with
      | none => exact kept
      | some returned =>
          dsimp only
          split
          case isFalse => exact kept
          case isTrue restricted =>
            have member : last ∈ visits ++ [last] := List.mem_append_right _ List.mem_cons_self
            rcases right last member returned value with none | ⟨row, confirmed, shelf⟩
            · exact absurd none restricted
            · exact .inr ⟨last, member, returned, row, value, confirmed, shelf⟩

/-- The page of shelves returns what the user chose exactly if there was something to choose from
and every count was answered; a search page all of whose visits were so searches where the user
wanted. -/
theorem search_scope_iff {fuel : Nat} (enough : maxShelfNum < fuel) :
    (∀ visit : SelectVisit, visit.Right fuel ↔ visit.Answered fuel) ∧
      ∀ visits : List SelectVisit, (∀ visit ∈ visits, visit.Answered fuel) →
        Picked fuel visits (Execution.run (scopeAfter fuel) nonSenseInt visits) := by
  refine ⟨visit_right_iff enough, ?_⟩
  intro visits answered
  exact scope_picked fun visit member => (visit_right_iff enough visit).mpr (answered visit member)

/-- A reader without a shelf. -/
def shelflessVisit : SelectVisit where
  session := ⟨.start (.connected .sample .empty .empty "reader"), 0⟩
  stale := .zeroed
  keys := []

/-- The same reader behind the page that builds a shelf; the first row is confirmed. -/
def firstShelfVisit : SelectVisit where
  session := (((shelflessVisit.session.step 30 (.login .zeroed)).step 30
    (.build Server.sampleTime Server.sampleShelf .zeroed)).step 30 (.countSync .zeroed))
  stale := .zeroed
  keys := [.enter false, .down, .enter true]

theorem firstShelfVisit_right : firstShelfVisit.Right 30 := by
  intro returned chosen
  have confirmed : (firstShelfVisit.lookthrough 30).1 = some ⟨1, some 0⟩ := by decide
  rw [confirmed] at chosen
  obtain rfl := Option.some.inj chosen
  have code : (firstShelfVisit.session.gui.client.shelves.clidbShelfGet 1).map
      ShelfEntry.code = some 1 := by decide
  rcases Option.map_eq_some_iff.mp code with ⟨shelf, found, number⟩
  exact .inr ⟨0, rfl, ⟨0, 1, "study", rfl, by decide, by decide, shelf, found, number.symm⟩⟩

theorem first_shelf_searched :
    firstShelfVisit.Answered 30 ∧
      Execution.run (scopeAfter 30) nonSenseInt [firstShelfVisit] = 1 ∧
      Picked 30 [firstShelfVisit] 1 := by
  have answered := ((search_scope_iff (by decide)).1 firstShelfVisit).mp firstShelfVisit_right
  have scope : Execution.run (scopeAfter 30) nonSenseInt [firstShelfVisit] = 1 := by decide
  have picked := (search_scope_iff (by decide)).2 [firstShelfVisit]
    (List.forall_mem_singleton.mpr answered)
  rw [scope] at picked
  exact ⟨answered, scope, picked⟩

/-- A search that was to be for one shelf is one for the shelf 4. -/
theorem menu_searched :
    ¬shelflessVisit.Right 30 ∧ scopeAfter 30 nonSenseInt shelflessVisit = 4 := by
  refine ⟨?_, rfl⟩
  intro right
  exact menu_not_right _ _ (right ⟨4, none⟩ rfl)

end SearchScope

end Bookshelfdq
