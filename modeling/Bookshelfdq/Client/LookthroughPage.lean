import Bookshelfdq.Client.Mutations
import Bookshelfdq.Foundation.Search

/-! # The page of shelves

`display_lookthrough_page` of `ncgui.c`. The rows are printed from the local record of shelves, and
the shelf under the slider is looked up in it by counting again. -/

namespace Bookshelfdq

/-! ## The record -/

namespace ShelfCache

/-- `clidb_shelf_realno`. It counts up until it has met `pos` shelves; `fuel` bounds both loops,
which the source does not. -/
def clidbShelfRealno (fuel : Nat) (pos : Int) (cache : ShelfCache) : Option Int :=
  Search.advance cache.clidbShelfExists fuel fuel pos 0

end ShelfCache

/-! ## The page -/

/-- The rows of a `slider_t`. -/
structure Slider where
  currentRow : Int
  lastRow : Int
  maxRow : Int

namespace Slider

/-- `get_choice` on `KEY_UP`. -/
def up (logicRow : Int) (slider : Slider) : Slider :=
  { slider with
    lastRow := slider.currentRow
    currentRow := if slider.currentRow = 0 then logicRow else slider.currentRow - 1 }

/-- `get_choice` on `KEY_DOWN`. -/
def down (logicRow : Int) (slider : Slider) : Slider :=
  { slider with
    lastRow := slider.currentRow
    currentRow := if slider.currentRow = logicRow then 0 else slider.currentRow + 1 }

end Slider

@[reducible] def padBoxedHight : Int := 12

/-- The numbers printed with the names, and the variables of a visit. -/
structure ShelfPage where
  rows : List (Int × String)
  slider : Slider
  logicRows : Int
  localShelf : ShelfEntry

/-- The loop of `pad_fill_shelves_info`. A shelf without an entry ends it. -/
def ShelfCache.padRows (cache : ShelfCache) : List Int → Option (List (Int × String))
  | [] => some []
  | shelfno :: rest =>
      if cache.clidbShelfExists shelfno then
        match cache.clidbShelfGet shelfno with
        | none => none
        | some shelf => (cache.padRows rest).map ((shelfno, limitedText shelf.name 24) :: ·)
      else cache.padRows rest

/-- `stale` is what `local_shelf` of the page holds. -/
def ShelfCache.padFillShelvesInfo (stale : ShelfEntry) (cache : ShelfCache) : Option ShelfPage :=
  (cache.padRows Client.shelfNumbers).map fun rows =>
    let nshelves : Int := rows.length
    { rows := rows
      slider :=
        { currentRow := 0
          lastRow := 0
          maxRow := if nshelves > padBoxedHight - 1 then padBoxedHight - 1 else nshelves - 1 }
      logicRows := nshelves - 1
      localShelf := stale }

/-- `client_shelf_count_book` -/
def Client.clientShelfCountBook (shelfno : Int) (client : Client) :
    Int × Option BookCount × Client :=
  match client.findFromServer (clientShelfCountBookMsg client.loginUser shelfno) with
  | (res, reply, client) => (res, if res = 1 then some reply.bookCount else none, client)

/-! ## Rounds -/

/-- What happens on the pages behind the options of a shelf. -/
inductive OptionInput
  | display (collectMode : Bool) (stale : BookEntry)
  | key (key : Ncgui.Key)
  | insertBook (time : PlainText) (book : BookEntry)

def OptionInput.run (shelf : ShelfEntry) (gui : Ncgui) : OptionInput → Ncgui
  | .display collectMode stale =>
      match gui.shown with
      | none => gui.display shelf.code collectMode none stale
      | some _ => gui
  | .key pressed => gui.press pressed
  | .insertBook time book => ((Mutation.insertBook time book).perform gui).2

namespace Ncgui

/-- What `delete_shelf_page` first does with the books of a shelf that is not empty. -/
def clearShelf (shelfno : Int) (whole : Option Bool) (gui : Ncgui) : Ncgui :=
  match whole with
  | none => gui
  | some true => ((Mutation.unsortedBooks shelfno).perform gui).2
  | some false => ((Mutation.abandonBooks shelfno).perform gui).2

/-- `delete_shelf_page` once it is confirmed. -/
def deleteShelfPage (shelfno : Int) (whole : Option Bool) (gui : Ncgui) : Bool × Ncgui :=
  let cleared := gui.clearShelf shelfno whole
  match cleared.client.clientShelfDeleteItself shelfno with
  | (result, client) => (decide (result ≠ 0), cleared.withClient client)

end Ncgui

/-- A round of the loop. `option` stands for the options that come back to the page, and for none;
`choose` is the confirmed choice in `select_mode`. -/
inductive ShelfKey
  | up
  | down
  | option (inputs : List OptionInput)
  | destroy (whole : Option Bool)
  | choose
  | backspace

/-- A call of `clidb_shelf_realno`, with the row it is for. -/
structure RealnoCall where
  row : Int
  result : Option Int
deriving DecidableEq

/-- A round comes back to the loop, leaves it, or returns from the page at once. -/
inductive RoundEnd
  | stays (page : ShelfPage)
  | leaves
  | returns

namespace ShelfPage

/-- The shelf of the current row is looked up, and its books are counted. The page returns if the
count fails; without a shelf on that row the look-up does not end. -/
def lookUp (fuel : Nat) (page : ShelfPage) (gui : Ncgui) : List RealnoCall × RoundEnd × Ncgui :=
  let row := page.slider.currentRow
  match gui.client.shelves.clidbShelfRealno fuel (row + 1) with
  | none => ([⟨row, none⟩], .returns, gui)
  | some shelfno =>
      let localShelf := (gui.client.shelves.clidbShelfGet shelfno).getD page.localShelf
      match gui.client.clientShelfCountBook localShelf.code with
      | (res, _, client) =>
          ([⟨row, some shelfno⟩],
            if res = 0 then .returns else .stays { page with localShelf := localShelf },
            gui.withClient client)

def withSlider (page : ShelfPage) (slider : Slider) : ShelfPage := { page with slider := slider }

def press (fuel : Nat) (selectMode : Bool) (key : ShelfKey) (page : ShelfPage) (gui : Ncgui) :
    List RealnoCall × RoundEnd × Ncgui :=
  match key with
  | .up => (page.withSlider (page.slider.up page.logicRows)).lookUp fuel gui
  | .down => (page.withSlider (page.slider.down page.logicRows)).lookUp fuel gui
  | .option inputs =>
      if selectMode then ([], .stays page, gui)
      else page.lookUp fuel (inputs.foldl (OptionInput.run page.localShelf) gui)
  | .destroy whole =>
      if selectMode then ([], .stays page, gui)
      else match gui.deleteShelfPage page.localShelf.code whole with
        | (true, gui) => ([], .leaves, gui)
        | (false, gui) => page.lookUp fuel gui
  | .choose => if selectMode then ([], .returns, gui) else ([], .stays page, gui)
  | .backspace => ([], .leaves, gui)

/-- The calls of the rounds to come, whether the loop is left, and the program then. -/
def rounds (fuel : Nat) (selectMode : Bool) :
    List ShelfKey → ShelfPage → Ncgui → List RealnoCall × Bool × Ncgui
  | [], _, gui => ([], false, gui)
  | key :: keys, page, gui =>
      match page.press fuel selectMode key gui with
      | (calls, .returns, gui) => (calls, false, gui)
      | (calls, .leaves, gui) => (calls, true, gui)
      | (calls, .stays page, gui) =>
          let rest := rounds fuel selectMode keys page gui
          (calls ++ rest.1, rest.2)

end ShelfPage

/-! ## Sessions -/

/-- A session with its count of shelves, `gui_sc`. -/
structure ShelfSession where
  gui : Ncgui
  shelvesAll : Int

/-- A visit: the rows it prints and the calls it makes. -/
structure ShelfVisit where
  rows : List (Int × String)
  calls : List RealnoCall

namespace ShelfSession

def countSync (stale : MessageCs) (session : ShelfSession) : ShelfSession :=
  match session.gui.client.clientShelvesCountSync stale session.shelvesAll with
  | (_, shelvesAll, client) => { gui := session.gui.withClient client, shelvesAll := shelvesAll }

/-- The two counts after the loop of the page. -/
def synced (stale : MessageCs) (session : ShelfSession) : ShelfSession :=
  let counted := session.countSync stale
  { counted with gui := counted.gui.withClient (counted.gui.client.clientBooksCountSync stale).2 }

/-- `display_lookthrough_page`. The first row is looked up with `first_line` 0. -/
def lookthrough (fuel : Nat) (selectMode : Bool) (stale : ShelfEntry) (msg : MessageCs)
    (keys : List ShelfKey) (session : ShelfSession) : ShelfVisit × ShelfSession :=
  if session.shelvesAll = 0 then (⟨[], []⟩, session)
  else
    match session.gui.client.shelves.padFillShelvesInfo stale with
    | none => (⟨[], []⟩, session)
    | some page =>
        match page.lookUp fuel session.gui with
        | (calls, .stays looked, gui) =>
            let rest := looked.rounds fuel selectMode keys gui
            let after := { session with gui := rest.2.2 }
            (⟨page.rows, calls ++ rest.1⟩,
              if rest.2.1 = true ∧ selectMode = false then after.synced msg else after)
        | (calls, _, gui) => (⟨page.rows, calls⟩, { session with gui := gui })

end ShelfSession

/-- The call returns the number printed on its row. -/
def RealnoCall.Resolved (rows : List (Int × String)) (call : RealnoCall) : Prop :=
  ∃ (line : Nat) (shelfno : Int) (text : String),
    call.row = line ∧ rows[line]? = some (shelfno, text) ∧ call.result = some shelfno

def ShelfVisit.Resolved (visit : ShelfVisit) : Prop :=
  ∀ call ∈ visit.calls, call.Resolved visit.rows

end Bookshelfdq
