import Bookshelfdq.Client.LookthroughPage
import Bookshelfdq.Session.Fleet
import Bookshelfdq.Session.Mirror
import Bookshelfdq.Session.PageEffects

/-! # The rows of the page of shelves

The page is entered by the count of shelves that the server has given last; its rows come from the
local record. A session that knows of none of the shelves that others have built looks for the
first row without end. -/

namespace Bookshelfdq

/-! ## The shelves stay -/

namespace Client

theorem findLoop_shelves (flagNotCached : Bool) (fuel nfinds : Nat) (msg : MessageCs)
    (client : Client) :
    (findLoop flagNotCached fuel nfinds msg client).2.2.shelves = client.shelves := by
  induction fuel generalizing nfinds msg client with
  | zero => rfl
  | succ fuel induction =>
      have kept : client.receive.2.shelves = client.shelves := rfl
      rw [findLoop]
      generalize client.receive = received at kept ⊢
      rcases received with ⟨_ | reply, after⟩
      · exact kept
      · dsimp only at kept ⊢
        cases reply.response with
        | failed => exact kept
        | findEnd => exact kept
        | findEndMore => exact kept
        | success =>
            dsimp only
            split
            · rw [induction]
              cases flagNotCached <;> exact kept
            · exact kept

theorem findFromServer_shelves (msg : MessageCs) (client : Client) :
    (client.findFromServer msg).2.2.shelves = client.shelves := by
  rw [findFromServer]
  have kept : (client.send msg).2.shelves = client.shelves := rfl
  generalize client.send msg = sent at kept ⊢
  rcases sent with ⟨_ | _, asked⟩
  · exact kept
  · exact (findLoop_shelves _ _ _ _ _).trans kept

theorem nextPageBookinfo_shelves (search : Option BookEntry) (shelfno bookno stale : Int)
    (client : Client) :
    (client.nextPageBookinfo search shelfno bookno stale).2.2.shelves = client.shelves := by
  rw [nextPageBookinfo]
  rcases client.books.printPage with ⟨_ | _ | ⟨row, rows⟩, books⟩
  · rfl
  · have kept : ((client.withBooks books).loadBooks search shelfno bookno).2.shelves =
        client.shelves := findFromServer_shelves _ _
    dsimp only
    split
    · exact kept
    · split
      · exact kept
      · rcases ((client.withBooks books).loadBooks search shelfno bookno).2.books.printPage with
          ⟨_ | rows, printed⟩ <;> exact kept
  · rfl

theorem clientShelfCountBook_shelves (shelfno : Int) (client : Client) :
    (client.clientShelfCountBook shelfno).2.2.shelves = client.shelves :=
  findFromServer_shelves _ _

end Client

namespace Ncgui

theorem act_shelves (action : BookAction) (bcollect : Bool) (localShelfno : Int)
    (book : BookEntry) (position : Nat) (client : Client) :
    (act action bcollect localShelfno book position client).2.shelves = client.shelves := by
  rcases act_request action bcollect localShelfno book position client with
    ⟨idle, _⟩ | ⟨_, _, _, acted⟩ | ⟨sent, written, leaves, _, _, acted⟩
  · rw [idle]
  · rw [acted, clientShelfDeleteBook]
    have kept := Client.findFromServer_shelves (clientShelfDeleteBookMsg client.loginUser book) client
    dsimp only
    split <;> exact kept
  · rw [acted, update]
    have kept := Client.findFromServer_shelves
      (clientShelfTaggingBookMsg client.loginUser sent) client
    dsimp only
    split <;> exact kept

theorem display_shelves (shelfno : Int) (collectMode : Bool) (search : Option (Char × BookEntry))
    (stale : BookEntry) (gui : Ncgui) :
    (gui.display shelfno collectMode search stale).client.shelves = gui.client.shelves := by
  have reset : (gui.resetOnChange shelfno collectMode search).client.shelves =
      gui.client.shelves := by
    rcases search with _ | ⟨mark, entry⟩ <;> rw [resetOnChange] <;> split <;> rfl
  rw [display]
  split
  · rfl
  · have kept := Client.nextPageBookinfo_shelves (search.map Prod.snd)
      (if (gui.resetOnChange shelfno collectMode search).bcollect then nonSenseInt
        else (gui.resetOnChange shelfno collectMode search).localShelfno)
      (gui.resetOnChange shelfno collectMode search).localBookno stale.bookno
      (gui.resetOnChange shelfno collectMode search).client
    rw [reset] at kept
    dsimp only
    split <;> exact kept

theorem press_shelves (key : Key) (gui : Ncgui) :
    (gui.press key).client.shelves = gui.client.shelves := by
  rw [press]
  cases gui.shown with
  | none => rfl
  | some page =>
      dsimp only
      cases key with
      | up => rfl
      | down => rfl
      | backspace => rfl
      | left => rfl
      | right stale =>
          dsimp only
          rw [pageRight]
          split
          · rfl
          · dsimp only
            have kept := Client.nextPageBookinfo_shelves
            split <;> exact kept _ _ _ _ _
      | action action => exact act_shelves _ _ _ _ _ _

end Ncgui

theorem Mutation.insertBook_shelves (time : PlainText) (book : BookEntry) (gui : Ncgui) :
    ((Mutation.insertBook time book).perform gui).2.client.shelves = gui.client.shelves := by
  rw [perform, Client.clientShelfInsertBook]
  by_cases incomplete : incompleteBook book = true
  · rw [if_pos incomplete]
  · rw [if_neg incomplete]
    exact Client.findFromServer_shelves _ _

theorem OptionInput.run_shelves (shelf : ShelfEntry) (gui : Ncgui) (input : OptionInput) :
    (input.run shelf gui).client.shelves = gui.client.shelves := by
  cases input with
  | display collectMode stale =>
      rw [run]
      split
      · exact Ncgui.display_shelves _ _ _ _ _
      · rfl
  | key pressed => exact Ncgui.press_shelves pressed gui
  | insertBook time book => exact Mutation.insertBook_shelves time book gui

theorem OptionInput.foldl_shelves (shelf : ShelfEntry) (inputs : List OptionInput) (gui : Ncgui) :
    (inputs.foldl (OptionInput.run shelf) gui).client.shelves = gui.client.shelves := by
  induction inputs generalizing gui with
  | nil => rfl
  | cons input inputs induction => exact (induction _).trans (run_shelves shelf gui input)

theorem Ncgui.clearShelf_shelves (shelfno : Int) (whole : Option Bool) (gui : Ncgui) :
    (gui.clearShelf shelfno whole).client.shelves = gui.client.shelves := by
  rcases whole with _ | _ | _
  · rfl
  · exact Client.findFromServer_shelves _ _
  · exact Client.findFromServer_shelves _ _

/-- A removal that is refused leaves the shelves alone. -/
theorem Ncgui.deleteShelfPage_shelves {shelfno : Int} {whole : Option Bool} {gui after : Ncgui}
    (refused : gui.deleteShelfPage shelfno whole = (false, after)) :
    after.client.shelves = gui.client.shelves := by
  have cleared := gui.clearShelf_shelves shelfno whole
  rw [deleteShelfPage, Client.clientShelfDeleteItself] at refused
  generalize gui.clearShelf shelfno whole = between at refused cleared
  have found := Client.findFromServer_shelves
    (clientShelfDeleteItselfMsg between.client.loginUser shelfno) between.client
  dsimp only at refused
  split at refused
  case isTrue one =>
    rw [one] at refused
    exact absurd (Prod.mk.inj refused).1 (by decide)
  case isFalse =>
    rw [← (Prod.mk.inj refused).2, ← cleared, ← found]
    rfl

/-! ## The rows -/

namespace ShelfCache

/-- The shelves of the record. -/
def recorded (cache : ShelfCache) : List Int :=
  Client.shelfNumbers.filter cache.clidbShelfExists

theorem padRows_numbers {cache : ShelfCache} {shelfnos : List Int} {rows : List (Int × String)}
    (printed : cache.padRows shelfnos = some rows) :
    rows.map Prod.fst = shelfnos.filter cache.clidbShelfExists := by
  induction shelfnos generalizing rows with
  | nil =>
      rw [← Option.some.inj printed]
      rfl
  | cons shelfno rest induction =>
      rw [padRows] at printed
      rw [List.filter_cons]
      split at printed
      case isTrue =>
        rw [if_pos ‹_›]
        cases entry : cache.clidbShelfGet shelfno with
        | none =>
            rw [entry] at printed
            cases printed
        | some shelf =>
            rw [entry] at printed
            rcases Option.map_eq_some_iff.mp printed with ⟨later, continued, rfl⟩
            rw [List.map_cons, induction continued]
      case isFalse =>
        rw [if_neg ‹_›]
        exact induction printed

/-- Without a shelf in the record there is nothing to print. -/
theorem padRows_of_unrecorded {cache : ShelfCache} {shelfnos : List Int}
    (unrecorded : shelfnos.filter cache.clidbShelfExists = []) :
    cache.padRows shelfnos = some [] := by
  induction shelfnos with
  | nil => rfl
  | cons shelfno rest induction =>
      rw [List.filter_cons] at unrecorded
      rw [padRows]
      split at unrecorded
      · cases unrecorded
      · rw [if_neg ‹_›]
        exact induction unrecorded

/-- Counting up to a row ends at the shelf of that row. -/
theorem clidbShelfRealno_eq {fuel : Nat} (enough : maxShelfNum < fuel) (cache : ShelfCache)
    (row : Nat) : cache.clidbShelfRealno fuel (row + 1) = cache.recorded[row]? := by
  have bounded : ∀ number : Int, (maxShelfNum : Int) < number →
      cache.clidbShelfExists number = false := by
    intro number above
    rw [clidbShelfExists, decide_eq_false (by omega), Bool.false_and]
  have numbers : (List.range maxShelfNum).map (fun index : Nat => (0 : Int) + 1 + index) =
      Client.shelfNumbers := by decide
  rw [clidbShelfRealno, Search.advance_eq_getElem? bounded enough.le (Int.zero_add _) row fuel
    enough, Search.passing_eq_filter, numbers, recorded]

end ShelfCache

namespace ShelfPage

/-- The rows are those of the record, and the slider is on one of them. -/
structure Fits (cache : ShelfCache) (page : ShelfPage) : Prop where
  rows : page.rows.map Prod.fst = cache.recorded
  lower : 0 ≤ page.slider.currentRow
  upper : page.slider.currentRow < page.rows.length
  logicRows : page.logicRows = page.rows.length - 1

section Fits

variable {fuel : Nat} (enough : maxShelfNum < fuel) {page : ShelfPage} {gui : Ncgui}
  (fits : page.Fits gui.client.shelves)

include fits

theorem Fits.up : (page.withSlider (page.slider.up page.logicRows)).Fits gui.client.shelves := by
  have lower := fits.lower
  have upper := fits.upper
  have logicRows := fits.logicRows
  refine ⟨fits.rows, ?_, ?_, logicRows⟩
  · rw [withSlider, Slider.up]
    dsimp only
    split <;> omega
  · rw [withSlider, Slider.up]
    dsimp only
    split <;> omega

theorem Fits.down :
    (page.withSlider (page.slider.down page.logicRows)).Fits gui.client.shelves := by
  have lower := fits.lower
  have upper := fits.upper
  have logicRows := fits.logicRows
  refine ⟨fits.rows, ?_, ?_, logicRows⟩
  · rw [withSlider, Slider.down]
    dsimp only
    split <;> omega
  · rw [withSlider, Slider.down]
    dsimp only
    split <;> omega

/-- What a round leaves behind. -/
structure Proceeds (cache : ShelfCache) (rows : List (Int × String))
    (round : List RealnoCall × RoundEnd × Ncgui) : Prop where
  calls : ∀ call ∈ round.1, call.Resolved rows
  stays : ∀ page, round.2.1 = .stays page →
    page.rows = rows ∧ page.Fits cache ∧ round.2.2.client.shelves = cache

include enough

/-- The shelf of the current row is found. -/
theorem Fits.found :
    ∃ (line : Nat) (shelfno : Int) (text : String), page.slider.currentRow = line ∧
      page.rows[line]? = some (shelfno, text) ∧
        gui.client.shelves.clidbShelfRealno fuel (page.slider.currentRow + 1) = some shelfno := by
  have lower := fits.lower
  have upper := fits.upper
  obtain ⟨line, same⟩ := Int.eq_ofNat_of_zero_le lower
  have inside : line < page.rows.length := by omega
  refine ⟨line, (page.rows[line]).1, (page.rows[line]).2, same, List.getElem?_eq_getElem inside, ?_⟩
  rw [same, ShelfCache.clidbShelfRealno_eq enough, ← fits.rows, List.getElem?_map,
    List.getElem?_eq_getElem inside, Option.map_some]

theorem lookUp_proceeds :
    Proceeds gui.client.shelves page.rows (page.lookUp fuel gui) := by
  rcases fits.found enough with ⟨line, shelfno, text, same, printed, found⟩
  rw [lookUp, found]
  dsimp only
  constructor
  · intro call member
    rw [List.mem_singleton.mp member]
    exact ⟨line, shelfno, text, same, printed, rfl⟩
  · intro later stays
    dsimp only at stays
    split at stays
    · cases stays
    · cases stays
      exact ⟨rfl, ⟨fits.rows, fits.lower, fits.upper, fits.logicRows⟩,
        Client.clientShelfCountBook_shelves _ _⟩

/-- One round. -/
theorem press_proceeds (selectMode : Bool) (key : ShelfKey) :
    Proceeds gui.client.shelves page.rows (page.press fuel selectMode key gui) := by
  have idle : Proceeds gui.client.shelves page.rows ([], .stays page, gui) := by
    refine ⟨fun call member => absurd member List.not_mem_nil, ?_⟩
    intro later stays
    cases stays
    exact ⟨rfl, fits, rfl⟩
  have ends : ∀ {round : RoundEnd} {after : Ncgui}, (∀ page, round ≠ .stays page) →
      Proceeds gui.client.shelves page.rows ([], round, after) := by
    intro round after ended
    exact ⟨fun call member => absurd member List.not_mem_nil,
      fun later stays => absurd stays (ended later)⟩
  cases key with
  | up => exact lookUp_proceeds enough fits.up
  | down => exact lookUp_proceeds enough fits.down
  | option inputs =>
      rw [press]
      split
      · exact idle
      · have same := OptionInput.foldl_shelves page.localShelf inputs gui
        rw [← same] at fits ⊢
        exact lookUp_proceeds enough fits
  | destroy whole =>
      rw [press]
      split
      · exact idle
      · rcases removed : gui.deleteShelfPage page.localShelf.code whole with ⟨_ | _, after⟩
        · have same := Ncgui.deleteShelfPage_shelves removed
          rw [← same] at fits ⊢
          exact lookUp_proceeds enough fits
        · exact ends fun _ => RoundEnd.noConfusion
  | choose =>
      rw [press]
      split
      · exact ends fun _ => RoundEnd.noConfusion
      · exact idle
  | backspace => exact ends fun _ => RoundEnd.noConfusion

/-- All rounds of a visit. -/
theorem rounds_resolved (selectMode : Bool) (keys : List ShelfKey) :
    ∀ call ∈ (page.rounds fuel selectMode keys gui).1, call.Resolved page.rows := by
  induction keys generalizing page gui with
  | nil => exact fun call member => absurd member List.not_mem_nil
  | cons key keys induction =>
      have proceeds := press_proceeds enough fits selectMode key
      rw [rounds]
      generalize page.press fuel selectMode key gui = round at proceeds ⊢
      rcases round with ⟨calls, later | _ | _, after⟩
      · rcases proceeds.stays later rfl with ⟨rows, still, shelves⟩
        rw [← shelves] at still
        intro call member
        rcases List.mem_append.mp member with now | later
        · exact proceeds.calls call now
        · rw [← rows]
          exact induction still call later
      · exact proceeds.calls
      · exact proceeds.calls

end Fits

end ShelfPage

/-! ## A visit -/

namespace ShelfSession

/-- The page of shelves is entered only with a shelf in the local record. -/
def KnowsShelf (session : ShelfSession) : Prop :=
  session.shelvesAll ≠ 0 → ∃ shelfno ∈ Client.shelfNumbers,
    session.gui.client.shelves.clidbShelfExists shelfno = true

theorem resolved_of_knowsShelf {fuel : Nat} (enough : maxShelfNum < fuel) {session : ShelfSession}
    (knows : session.KnowsShelf) (selectMode : Bool) (stale : ShelfEntry) (msg : MessageCs)
    (keys : List ShelfKey) :
    (session.lookthrough fuel selectMode stale msg keys).1.Resolved := by
  have none : ∀ rows, ShelfVisit.Resolved ⟨rows, []⟩ :=
    fun _ call member => absurd member List.not_mem_nil
  rw [lookthrough]
  by_cases empty : session.shelvesAll = 0
  · rw [if_pos empty]
    exact none []
  · rw [if_neg empty]
    rcases printed : session.gui.client.shelves.padFillShelvesInfo stale with _ | page
    · exact none []
    · have fits : page.Fits session.gui.client.shelves := by
        rcases Option.map_eq_some_iff.mp printed with ⟨rows, filled, rfl⟩
        have numbers := ShelfCache.padRows_numbers filled
        rcases knows empty with ⟨shelfno, member, exists_⟩
        have recorded : shelfno ∈ rows.map Prod.fst :=
          numbers ▸ List.mem_filter.mpr ⟨member, exists_⟩
        have some : 0 < rows.length := by
          rw [← List.length_map (f := Prod.fst)]
          exact List.length_pos_of_mem recorded
        exact ⟨numbers, le_refl _, by simpa using some, rfl⟩
      have looks := ShelfPage.lookUp_proceeds enough fits
      dsimp only
      generalize page.lookUp fuel session.gui = round at looks ⊢
      rcases round with ⟨calls, looked | _ | _, after⟩
      · rcases looks.stays looked rfl with ⟨rows, still, shelves⟩
        rw [← shelves] at still
        intro call member
        rcases List.mem_append.mp member with now | later
        · exact looks.calls call now
        · have resolved := ShelfPage.rounds_resolved enough still selectMode keys call later
          rw [rows] at resolved
          exact resolved
      · exact looks.calls
      · exact looks.calls

theorem not_resolved_of_unrecorded {fuel : Nat} (enough : maxShelfNum < fuel)
    {session : ShelfSession} (unknown : ¬session.KnowsShelf) (selectMode : Bool)
    (stale : ShelfEntry) (msg : MessageCs) (keys : List ShelfKey) :
    ¬(session.lookthrough fuel selectMode stale msg keys).1.Resolved := by
  rw [KnowsShelf, Classical.not_imp] at unknown
  rcases unknown with ⟨nonempty, unrecorded⟩
  have recorded : session.gui.client.shelves.recorded = [] := by
    apply List.filter_eq_nil_iff.mpr
    intro shelfno member exists_
    exact unrecorded ⟨shelfno, member, exists_⟩
  have endless : session.gui.client.shelves.clidbShelfRealno fuel (0 + 1) = none := by
    have found := ShelfCache.clidbShelfRealno_eq enough session.gui.client.shelves 0
    rw [recorded] at found
    exact found
  have printed := ShelfCache.padRows_of_unrecorded recorded
  rw [lookthrough, if_neg nonempty, ShelfCache.padFillShelvesInfo, printed, Option.map_some]
  dsimp only
  rw [ShelfPage.lookUp]
  dsimp only
  rw [endless]
  intro resolved
  rcases resolved _ List.mem_cons_self with ⟨line, shelfno, text, _, row, _⟩
  cases row

/-- Every call of a visit ends with the shelf of its row exactly if the record has a shelf. -/
theorem resolves_iff (session : ShelfSession) (selectMode : Bool) (stale : ShelfEntry)
    (msg : MessageCs) (keys : List ShelfKey) :
    (∃ bound, ∀ fuel ≥ bound, (session.lookthrough fuel selectMode stale msg keys).1.Resolved) ↔
      session.KnowsShelf := by
  constructor
  · rintro ⟨bound, resolved⟩
    by_contra unknown
    exact not_resolved_of_unrecorded (show maxShelfNum < bound + (maxShelfNum + 1) by omega) unknown
      selectMode stale msg keys (resolved _ (Nat.le_add_right _ _))
  · intro knows
    exact ⟨maxShelfNum + 1, fun fuel enough =>
      resolved_of_knowsShelf enough knows selectMode stale msg keys⟩

/-- What a session does with shelves. `countSync` stands for the pages that only end with a
count. -/
inductive Input
  | login (stale : MessageCs)
  | build (time : PlainText) (shelf : ShelfEntry) (stale : MessageCs)
  | countSync (stale : MessageCs)
  | lookthrough (selectMode : Bool) (stale : ShelfEntry) (msg : MessageCs) (keys : List ShelfKey)

/-- A new process: `clidb_init` and `client_shelves_info_sync`. It ends if they fail. -/
def login (fuel : Nat) (stale : MessageCs) (session : ShelfSession) : ShelfSession :=
  let client := session.gui.client
  let opened := { client with
    books := .empty
    shelves := (client.shelves.restart client.shelves.dbmFaults).clidbInit client.loginUser }
  let synced := opened.clientShelvesInfoSync fuel stale 0
  { gui := .start synced.2
    shelvesAll := if synced.1 then (opened.clientShelvesCountSync stale 0).2.1 else 0 }

def step (fuel : Nat) (session : ShelfSession) : Input → ShelfSession
  | .login stale => session.login fuel stale
  | .build time shelf stale =>
      { session with gui := ((Mutation.buildShelf time shelf).perform session.gui).2 }.countSync stale
  | .countSync stale => session.countSync stale
  | .lookthrough selectMode stale msg keys =>
      (session.lookthrough fuel selectMode stale msg keys).2

/-- Each call of `clidb_shelf_realno` ends, with the number of the shelf printed on its row. -/
def Resolves (session : ShelfSession) : Input → Prop
  | .lookthrough selectMode stale msg keys =>
      ∃ bound, ∀ fuel ≥ bound, (session.lookthrough fuel selectMode stale msg keys).1.Resolved
  | _ => True

/-- The page of shelves is visited with a shelf in the local record, or with none counted. -/
def VisitsKnown (session : ShelfSession) : Input → Prop
  | .lookthrough _ _ _ _ => session.KnowsShelf
  | _ => True

instance (session : ShelfSession) : Decidable session.KnowsShelf :=
  inferInstanceAs (Decidable (_ → ∃ shelfno ∈ Client.shelfNumbers, _))

end ShelfSession

/-! ## Several sessions -/

structure ShelfFleet (Session : Type) where
  server : Server
  sessions : Session → ShelfSession

namespace ShelfFleet

variable {Session : Type}

/-- A session with the server as it is now. -/
def seat (fleet : ShelfFleet Session) (session : Session) : ShelfSession :=
  let gui := (fleet.sessions session).gui
  { fleet.sessions session with gui := gui.withClient (gui.client.facing fleet.server) }

variable [DecidableEq Session]

def step (fuel : Nat) (fleet : ShelfFleet Session) (input : Session × ShelfSession.Input) :
    ShelfFleet Session :=
  let after := (fleet.seat input.1).step fuel input.2
  { server := after.gui.client.link.server
    sessions := Function.update fleet.sessions input.1 after }

/-- In a run of any sessions all visits resolve their rows exactly if each of them knows of a
shelf. -/
theorem shelf_rows_resolve_iff (fuel : Nat) (fleet : ShelfFleet Session)
    (inputs : List (Session × ShelfSession.Input)) :
    Execution.Along (step fuel) (fun fleet input => (fleet.seat input.1).Resolves input.2) fleet
        inputs ↔
      Execution.Along (step fuel) (fun fleet input => (fleet.seat input.1).VisitsKnown input.2) fleet
        inputs := by
  apply @Execution.along_congr _ _ (step fuel) (fun _ => True) _ _ (fun _ _ _ => trivial) _ fleet
    trivial
  intro fleet input _
  cases input.2 with
  | lookthrough selectMode stale msg keys =>
      exact (fleet.seat input.1).resolves_iff selectMode stale msg keys
  | _ => exact Iff.rfl

/-- Two programs connected to a server that has no shelf. -/
def sampleFleet : ShelfFleet Bool where
  server := .sample
  sessions _ := ⟨.start (.connected .sample .empty .empty "reader"), 0⟩

/-- One session builds a shelf after the other has logged in; the other counts it, and looks for
the first row of an empty page. -/
theorem unknown_shelf_sought :
    ¬Execution.Along (step 30)
      (fun (fleet : ShelfFleet Bool) input => (fleet.seat input.1).Resolves input.2) sampleFleet
      [(true, .login .zeroed), (false, .login .zeroed),
        (true, .build Server.sampleTime Server.sampleShelf .zeroed), (false, .countSync .zeroed),
        (false, .lookthrough false .zeroed .zeroed [])] := by
  intro along
  have resolves := along.2.2.2.2.1
  exact absurd ((ShelfSession.resolves_iff _ _ _ _ _).mp resolves) (by decide)

end ShelfFleet

end Bookshelfdq
