import Bookshelfdq.Foundation.Execution
import Bookshelfdq.Server.RoundTrips
import Mathlib.Algebra.Order.Group.Nat

/-! # Floors and rows

The page that builds a shelf counts its floors and the rows of each, and the page of a new book
chooses a floor and a row among them. -/

namespace Bookshelfdq

/-- Keys other than `KEY_ENTER` and `'\n'`, which end the loops. -/
inductive ArrowKey
  | up
  | down
  | left
  | right
  | other
deriving DecidableEq

/-! ## A new shelf -/

/-- The loop of `ncgui_display_buildshelf_page` that counts the floors. -/
def setHeight (nfloors : Nat) : ArrowKey → Nat
  | .up => if nfloors + 1 > maxFloors then 1 else nfloors + 1
  | .down => if nfloors - 1 < 1 then maxFloors else nfloors - 1
  | .left => nfloors
  | .right => nfloors
  | .other => nfloors

/-- The variables of `set_shelf_parameter`. -/
structure DepthEditor where
  cursFloor : Nat
  depthArr : List UInt8

namespace DepthEditor

/-- `KEY_LEFT`, where the byte wraps below 0. -/
def fewer (depth : UInt8) : UInt8 := if depth - 1 = 255 then 0 else depth - 1

/-- `KEY_RIGHT` -/
def more (depth : UInt8) : UInt8 :=
  if (depth + 1).toNat > maxDepth then UInt8.ofNat maxDepth else depth + 1

def press (nfloors : Nat) (editor : DepthEditor) : ArrowKey → DepthEditor
  | .down =>
      { editor with cursFloor := if editor.cursFloor - 1 < 1 then 1 else editor.cursFloor - 1 }
  | .up =>
      { editor with
        cursFloor := if editor.cursFloor + 1 > nfloors then nfloors else editor.cursFloor + 1 }
  | .left => { editor with depthArr := editor.depthArr.modify (editor.cursFloor - 1) fewer }
  | .right => { editor with depthArr := editor.depthArr.modify (editor.cursFloor - 1) more }
  | .other => editor

end DepthEditor

/-- `set_shelf_parameter` -/
def setShelfParameter (nfloors : Nat) (depthArr : List UInt8) (keys : List ArrowKey) :
    List UInt8 :=
  (Execution.run (DepthEditor.press nfloors) ⟨1, depthArr⟩ keys).depthArr

/-- `ncgui_display_buildshelf_page`. Both loops are repeated until they are confirmed, the first
from one floor and the second from the depths it has left. -/
def ShelfEntry.build (localShelf : ShelfEntry) (heights depths : List (List ArrowKey)) :
    ShelfEntry :=
  let nfloors := heights.foldl (fun _ keys => Execution.run setHeight 1 keys) 1
  let depthRecord := depths.foldl (setShelfParameter nfloors) (List.replicate maxFloors 0)
  { localShelf with nfloors := nfloors, ndepth := (depthRecord.take nfloors).map UInt8.toNat }

/-! ## A place on it -/

/-- `ndepth` of a floor counted from 1. -/
def ShelfEntry.rows (shelf : ShelfEntry) (floor : Nat) : Nat := shelf.ndepth.getD (floor - 1) 0

/-- The variables of `select_newbook_floor`. -/
structure FloorChooser where
  curFloor : Nat
  curDepth : Nat
  curCursor : Bool
deriving DecidableEq

namespace FloorChooser

def press (shelf : ShelfEntry) (chooser : FloorChooser) : ArrowKey → FloorChooser
  | .up =>
      if !chooser.curCursor then
        { chooser with
          curFloor :=
            if chooser.curFloor + 1 > shelf.nfloors then shelf.nfloors else chooser.curFloor + 1 }
      else
        { chooser with
          curDepth :=
            if chooser.curDepth + 1 > shelf.rows chooser.curFloor then shelf.rows chooser.curFloor
            else chooser.curDepth + 1 }
  | .down =>
      if !chooser.curCursor then
        { chooser with curFloor := if chooser.curFloor - 1 < 1 then 1 else chooser.curFloor - 1 }
      else
        { chooser with curDepth := if chooser.curDepth - 1 < 1 then 1 else chooser.curDepth - 1 }
  | .left => { chooser with curDepth := 1, curCursor := !chooser.curCursor }
  | .right => { chooser with curDepth := 1, curCursor := !chooser.curCursor }
  | .other => chooser

def choose (shelf : ShelfEntry) (keys : List ArrowKey) : FloorChooser :=
  Execution.run (press shelf) ⟨1, 1, false⟩ keys

/-- The floor is one of the shelf, and the row one of the floor. -/
structure Fits (shelf : ShelfEntry) (chooser : FloorChooser) : Prop where
  floor_pos : 1 ≤ chooser.curFloor
  floor_le : chooser.curFloor ≤ shelf.nfloors
  row_pos : 1 ≤ chooser.curDepth
  row_le : chooser.curDepth ≤ shelf.rows chooser.curFloor

end FloorChooser

namespace BookEntry

/-- `select_newbook_floor` -/
def selectNewbookFloor (shelf : ShelfEntry) (keys : List ArrowKey) (book : BookEntry) :
    BookEntry :=
  let chooser := FloorChooser.choose shelf keys
  { book with floorno := ((chooser.curFloor <<< 4 ||| chooser.curDepth : Nat) : Int) }

/-- The position in `show_book_info`. -/
def shownPosition (book : BookEntry) : Int × Int :=
  (book.floorno.tdiv 16, book.floorno.tmod 16)

/-- The position in `show_newbook_info`, which shows none for 0. -/
def shownNewPosition (book : BookEntry) : Option (Int × Int) :=
  if book.floorno > 0 then
    some (((book.floorno.toNat >>> 4 : Nat) : Int), ((book.floorno.toNat &&& 0x0F : Nat) : Int))
  else none

/-- Both pages show the floor and the row that were chosen. -/
structure Shows (chooser : FloorChooser) (book : BookEntry) : Prop where
  code : book.floorno = chooser.curFloor * 16 + chooser.curDepth
  position : book.shownPosition = (↑chooser.curFloor, ↑chooser.curDepth)
  newPosition : book.shownNewPosition = some (↑chooser.curFloor, ↑chooser.curDepth)

end BookEntry

/-! ## What can be built -/

theorem setHeight_bounds {nfloors : Nat} (bounds : 1 ≤ nfloors ∧ nfloors ≤ maxFloors)
    (key : ArrowKey) : 1 ≤ setHeight nfloors key ∧ setHeight nfloors key ≤ maxFloors := by
  cases key with
  | up =>
      rw [setHeight]
      split <;> omega
  | down =>
      rw [setHeight]
      split <;> omega
  | left => exact bounds
  | right => exact bounds
  | other => exact bounds

/-- A round that is not confirmed leaves nothing to the next. -/
theorem height_rounds {nfloors : Nat} (bounds : 1 ≤ nfloors ∧ nfloors ≤ maxFloors)
    (rounds : List (List ArrowKey)) :
    1 ≤ rounds.foldl (fun _ keys => Execution.run setHeight 1 keys) nfloors ∧
      rounds.foldl (fun _ keys => Execution.run setHeight 1 keys) nfloors ≤ maxFloors := by
  have preserved : ∀ (nfloors : Nat) key, 1 ≤ nfloors ∧ nfloors ≤ maxFloors →
      1 ≤ setHeight nfloors key ∧ setHeight nfloors key ≤ maxFloors :=
    fun _ key bounds => setHeight_bounds bounds key
  induction rounds generalizing nfloors with
  | nil => exact bounds
  | cons keys rounds induction =>
      exact induction (Execution.run_invariant preserved (by decide) keys)

namespace DepthEditor

theorem fewer_le {depth : UInt8} (small : depth.toNat ≤ maxDepth) :
    (fewer depth).toNat ≤ maxDepth := by
  rw [fewer]
  split
  case isTrue => exact Nat.zero_le _
  case isFalse notWrapped =>
    have other : (depth - 1).toNat ≠ 255 := fun same => notWrapped (UInt8.toNat_inj.mp same)
    rw [UInt8.toNat_sub] at other ⊢
    change (2 ^ 8 - 1 + depth.toNat) % 2 ^ 8 ≠ 255 at other
    change (2 ^ 8 - 1 + depth.toNat) % 2 ^ 8 ≤ maxDepth
    omega

theorem more_le (depth : UInt8) : (more depth).toNat ≤ maxDepth := by
  rw [more]
  split
  · exact Nat.le_refl 5
  · omega

/-- The cursor is on a floor, and no floor has more than `MAX_DEPTH` rows. -/
structure Bounded (nfloors : Nat) (editor : DepthEditor) : Prop where
  floor_pos : 1 ≤ editor.cursFloor
  floor_le : editor.cursFloor ≤ nfloors
  length : editor.depthArr.length = maxFloors
  depths : ∀ depth ∈ editor.depthArr, depth.toNat ≤ maxDepth

theorem depths_modify {edit : UInt8 → UInt8}
    (small : ∀ depth : UInt8, depth.toNat ≤ maxDepth → (edit depth).toNat ≤ maxDepth) (floor : Nat)
    {depthArr : List UInt8} (depths : ∀ depth ∈ depthArr, depth.toNat ≤ maxDepth) :
    ∀ depth ∈ depthArr.modify floor edit, depth.toNat ≤ maxDepth := by
  intro depth member
  rcases List.mem_iff_getElem?.mp member with ⟨place, found⟩
  rw [List.getElem?_modify] at found
  rcases Option.map_eq_some_iff.mp found with ⟨old, stored, rfl⟩
  have bound := depths old (List.mem_of_getElem? stored)
  split
  · exact small old bound
  · exact bound

theorem Bounded.press {nfloors : Nat} {editor : DepthEditor} (bounded : editor.Bounded nfloors)
    (key : ArrowKey) : (editor.press nfloors key).Bounded nfloors := by
  have floor_pos := bounded.floor_pos
  have floor_le := bounded.floor_le
  cases key with
  | up =>
      refine ⟨?_, ?_, bounded.length, bounded.depths⟩
      · rw [DepthEditor.press]
        dsimp only
        split <;> omega
      · rw [DepthEditor.press]
        dsimp only
        split <;> omega
  | down =>
      refine ⟨?_, ?_, bounded.length, bounded.depths⟩
      · rw [DepthEditor.press]
        dsimp only
        split <;> omega
      · rw [DepthEditor.press]
        dsimp only
        split <;> omega
  | left =>
      refine ⟨floor_pos, floor_le, ?_, depths_modify (fun _ => fewer_le) _ bounded.depths⟩
      rw [DepthEditor.press, List.length_modify]
      exact bounded.length
  | right =>
      refine ⟨floor_pos, floor_le, ?_,
        depths_modify (fun depth _ => more_le depth) _ bounded.depths⟩
      rw [DepthEditor.press, List.length_modify]
      exact bounded.length
  | other => exact bounded

theorem Bounded.run {nfloors : Nat} {editor : DepthEditor} (bounded : editor.Bounded nfloors)
    (keys : List ArrowKey) :
    (Execution.run (DepthEditor.press nfloors) editor keys).Bounded nfloors := by
  have preserved : ∀ (editor : DepthEditor) key, editor.Bounded nfloors →
      (editor.press nfloors key).Bounded nfloors := fun _ key bounded => bounded.press key
  exact Execution.run_invariant preserved bounded keys

/-- Every further round starts on the first floor. -/
theorem bounded_rounds {nfloors : Nat} (floors : 1 ≤ nfloors) {depthArr : List UInt8}
    (bounded : Bounded nfloors ⟨1, depthArr⟩) (rounds : List (List ArrowKey)) :
    Bounded nfloors ⟨1, rounds.foldl (setShelfParameter nfloors) depthArr⟩ := by
  induction rounds generalizing depthArr with
  | nil => exact bounded
  | cons keys rounds induction =>
      have round := bounded.run keys
      exact induction ⟨Nat.le_refl 1, floors, round.length, round.depths⟩

end DepthEditor

/-- What the page counts. -/
structure ShelfEntry.Counted (shelf : ShelfEntry) : Prop where
  floors_pos : 1 ≤ shelf.nfloors
  floors_le : shelf.nfloors ≤ maxFloors
  length : shelf.ndepth.length = shelf.nfloors
  depth_le : ∀ depth ∈ shelf.ndepth, depth ≤ maxDepth

theorem ShelfEntry.build_bounds (localShelf : ShelfEntry) (heights depths : List (List ArrowKey)) :
    (localShelf.build heights depths).Counted := by
  have floors : 1 ≤ (localShelf.build heights depths).nfloors ∧
      (localShelf.build heights depths).nfloors ≤ maxFloors :=
    height_rounds (by decide) heights
  have empty : DepthEditor.Bounded (localShelf.build heights depths).nfloors
      ⟨1, List.replicate maxFloors 0⟩ := by
    refine ⟨Nat.le_refl 1, floors.1, List.length_replicate, ?_⟩
    intro depth member
    rw [List.eq_of_mem_replicate member]
    exact Nat.zero_le _
  have edited := DepthEditor.bounded_rounds floors.1 empty depths
  refine ⟨floors.1, floors.2, ?_, ?_⟩
  · change ((List.take _ _).map UInt8.toNat).length = _
    have length : (depths.foldl (setShelfParameter (localShelf.build heights depths).nfloors)
        (List.replicate maxFloors 0)).length = maxFloors := edited.length
    rw [List.length_map, List.length_take]
    exact (congrArg (min _) length).trans (Nat.min_eq_left floors.2)
  · intro depth member
    rcases List.mem_map.mp member with ⟨byte, byteMember, rfl⟩
    exact edited.depths byte (List.mem_of_mem_take byteMember)

/-- With a name that has been checked, it is a shelf that a request to build one is made for. -/
theorem ShelfEntry.build_buildable (localShelf : ShelfEntry) (heights depths : List (List ArrowKey))
    (name_pos : 1 ≤ strlen localShelf.name) (name_le : strlen localShelf.name ≤ shelfNameLen) :
    (localShelf.build heights depths).Buildable := by
  have counted := localShelf.build_bounds heights depths
  exact ⟨name_pos, name_le, counted.floors_pos, counted.floors_le, counted.length,
    counted.depth_le⟩

/-! ## What can be chosen -/

namespace FloorChooser

/-- On the floors no row but the first is kept, and no floor with rows is left without one. -/
structure Settled (shelf : ShelfEntry) (chooser : FloorChooser) : Prop where
  floor_pos : 1 ≤ chooser.curFloor
  floor_le : chooser.curFloor ≤ shelf.nfloors
  first_row : chooser.curCursor = false → chooser.curDepth = 1
  row_small : chooser.curDepth ≤ max 1 (shelf.rows chooser.curFloor)
  row_pos : 1 ≤ shelf.rows chooser.curFloor → 1 ≤ chooser.curDepth

section Settled

variable {shelf : ShelfEntry} {chooser : FloorChooser} (settled : chooser.Settled shelf)

include settled

theorem Settled.press (key : ArrowKey) : (chooser.press shelf key).Settled shelf := by
  have floor_pos := settled.floor_pos
  have floor_le := settled.floor_le
  have turned : (FloorChooser.mk chooser.curFloor 1 (!chooser.curCursor)).Settled shelf :=
    ⟨floor_pos, floor_le, fun _ => rfl, Nat.le_max_left _ _, fun _ => Nat.le_refl 1⟩
  cases key with
  | up =>
      rw [FloorChooser.press]
      cases cursor : chooser.curCursor with
      | false =>
          rw [Bool.not_false, if_pos rfl]
          have first := settled.first_row cursor
          refine ⟨?_, ?_, fun _ => first, ?_, fun _ => first.ge⟩
          · dsimp only
            split <;> omega
          · dsimp only
            split <;> omega
          · exact first.le.trans (Nat.le_max_left _ _)
      | true =>
          rw [Bool.not_true, if_neg Bool.false_ne_true]
          refine ⟨floor_pos, floor_le, fun left => Bool.noConfusion left, ?_, fun some => ?_⟩
          · dsimp only
            split <;> omega
          · dsimp only at some ⊢
            split <;> omega
  | down =>
      rw [FloorChooser.press]
      cases cursor : chooser.curCursor with
      | false =>
          rw [Bool.not_false, if_pos rfl]
          have first := settled.first_row cursor
          refine ⟨?_, ?_, fun _ => first, ?_, fun _ => first.ge⟩
          · dsimp only
            split <;> omega
          · dsimp only
            split <;> omega
          · exact first.le.trans (Nat.le_max_left _ _)
      | true =>
          rw [Bool.not_true, if_neg Bool.false_ne_true]
          have small := settled.row_small
          refine ⟨floor_pos, floor_le, fun left => Bool.noConfusion left, ?_, fun some => ?_⟩
          · dsimp only
            split <;> omega
          · dsimp only at some ⊢
            split <;> omega
  | left => exact turned
  | right => exact turned
  | other => exact settled

/-- The row is one of the floor unless the floor has none. -/
theorem Settled.fits_iff : chooser.Fits shelf ↔ 1 ≤ shelf.rows chooser.curFloor := by
  constructor
  · intro fits
    exact Nat.le_trans fits.row_pos fits.row_le
  · intro some
    have small := settled.row_small
    exact ⟨settled.floor_pos, settled.floor_le, settled.row_pos some, by omega⟩

end Settled

theorem choose_settled {shelf : ShelfEntry} (floors : 1 ≤ shelf.nfloors) (keys : List ArrowKey) :
    (choose shelf keys).Settled shelf := by
  have preserved : ∀ (chooser : FloorChooser) key, chooser.Settled shelf →
      (chooser.press shelf key).Settled shelf := fun _ key settled => settled.press key
  have start : (FloorChooser.mk 1 1 false).Settled shelf :=
    ⟨Nat.le_refl 1, floors, fun _ => rfl, Nat.le_max_left _ _, fun _ => Nat.le_refl 1⟩
  exact Execution.run_invariant preserved start keys

/-- `KEY_UP` reaches every floor. -/
theorem run_up {shelf : ShelfEntry} (floor steps : Nat) (inside : floor + steps ≤ shelf.nfloors) :
    Execution.run (press shelf) ⟨floor, 1, false⟩ (List.replicate steps .up) =
      ⟨floor + steps, 1, false⟩ := by
  induction steps generalizing floor with
  | zero => rfl
  | succ steps induction =>
      have higher : press shelf ⟨floor, 1, false⟩ .up = ⟨floor + 1, 1, false⟩ := by
        change FloorChooser.mk (if _ then _ else _) 1 false = _
        rw [if_neg]
        change ¬ shelf.nfloors < floor + 1
        omega
      rw [List.replicate_succ, Execution.run, higher, induction (floor + 1) (by omega)]
      congr 1
      omega

end FloorChooser

namespace BookEntry

/-- A row below 16 leaves the floor in the high bits. -/
theorem shows_of_small {chooser : FloorChooser} {book : BookEntry}
    (code : book.floorno = ((chooser.curFloor <<< 4 ||| chooser.curDepth : Nat) : Int))
    (small : chooser.curDepth < 16) (floor_pos : 1 ≤ chooser.curFloor) : book.Shows chooser := by
  have packed : chooser.curFloor <<< 4 ||| chooser.curDepth =
      chooser.curFloor * 16 + chooser.curDepth := by
    rw [← Nat.shiftLeft_add_eq_or_of_lt small, Nat.shiftLeft_eq]
  rw [packed] at code
  have floor : (chooser.curFloor * 16 + chooser.curDepth) / 16 = chooser.curFloor := by omega
  have row : (chooser.curFloor * 16 + chooser.curDepth) % 16 = chooser.curDepth := by omega
  refine ⟨code, ?_, ?_⟩
  · rw [shownPosition, code]
    refine Prod.ext ?_ ?_
    · exact congrArg Int.ofNat floor
    · exact congrArg Int.ofNat row
  · have positive : (0 : Int) < ((chooser.curFloor * 16 + chooser.curDepth : Nat) : Int) := by
      omega
    have mask : (chooser.curFloor * 16 + chooser.curDepth) &&& 0x0F =
        (chooser.curFloor * 16 + chooser.curDepth) % 16 := Nat.and_two_pow_sub_one_eq_mod _ 4
    rw [shownNewPosition, code, if_pos positive, Int.toNat_natCast, mask, row,
      Nat.shiftRight_eq_div_pow, floor]

end BookEntry

section Counted

variable {shelf : ShelfEntry} (counted : shelf.Counted)

include counted

theorem ShelfEntry.Counted.getElem?_rows {floor : Nat} (floor_pos : 1 ≤ floor)
    (floor_le : floor ≤ shelf.nfloors) :
    shelf.ndepth[floor - 1]? = some (shelf.rows floor) := by
  have length := counted.length
  have inside : floor - 1 < shelf.ndepth.length := by omega
  rw [ShelfEntry.rows, List.getD_eq_getElem?_getD, List.getElem?_eq_getElem inside,
    Option.getD_some]

/-- On a shelf with rows on every floor each choice fits. -/
theorem FloorChooser.choose_fits (all : ∀ rows ∈ shelf.ndepth, 1 ≤ rows) (keys : List ArrowKey) :
    (choose shelf keys).Fits shelf := by
  have settled := choose_settled counted.floors_pos keys
  have found := counted.getElem?_rows settled.floor_pos settled.floor_le
  exact settled.fits_iff.mpr (all _ (List.mem_of_getElem? found))

/-- A floor without rows can be chosen. -/
theorem FloorChooser.rows_of_choose_fits (fits : ∀ keys, (choose shelf keys).Fits shelf) :
    ∀ rows ∈ shelf.ndepth, 1 ≤ rows := by
  intro rows member
  have length := counted.length
  rcases List.mem_iff_getElem.mp member with ⟨place, inside, found⟩
  have reached : choose shelf (List.replicate place .up) = ⟨1 + place, 1, false⟩ :=
    run_up 1 place (by omega)
  have settled := choose_settled counted.floors_pos (List.replicate place .up)
  have some := settled.fits_iff.mp (fits (List.replicate place .up))
  have same : shelf.ndepth[1 + place - 1]? = _ := counted.getElem?_rows (by omega) (by omega)
  rw [Nat.add_sub_cancel_left, List.getElem?_eq_getElem inside, found] at same
  rw [reached, ← Option.some.inj same] at some
  exact some

theorem BookEntry.selectNewbookFloor_shows (book : BookEntry) (keys : List ArrowKey) :
    (book.selectNewbookFloor shelf keys).Shows (FloorChooser.choose shelf keys) := by
  have settled := FloorChooser.choose_settled counted.floors_pos keys
  have found := counted.getElem?_rows settled.floor_pos settled.floor_le
  have few := counted.depth_le _ (List.mem_of_getElem? found)
  have small := settled.row_small
  have limit : maxDepth = 5 := rfl
  exact shows_of_small rfl (by omega) settled.floor_pos

end Counted

/-- Whatever keys are pressed, the place chosen is one of the shelf and is shown as it was chosen,
exactly when every floor of the shelf has a row. -/
theorem places_fit_iff (localShelf : ShelfEntry) (heights depths : List (List ArrowKey))
    (book : BookEntry) :
    let shelf := localShelf.build heights depths
    (∀ keys, (FloorChooser.choose shelf keys).Fits shelf ∧
        (book.selectNewbookFloor shelf keys).Shows (FloorChooser.choose shelf keys)) ↔
      ∀ rows ∈ shelf.ndepth, 1 ≤ rows := by
  intro shelf
  have counted : shelf.Counted := localShelf.build_bounds heights depths
  constructor
  · intro fits
    exact FloorChooser.rows_of_choose_fits counted fun keys => (fits keys).1
  · intro all keys
    exact ⟨FloorChooser.choose_fits counted all keys, book.selectNewbookFloor_shows counted keys⟩

def bareShelf : ShelfEntry := { ShelfEntry.zeroed with name := "Reading" }

/-- A shelf of one floor on which no row is counted: the place is row 1 of 0. -/
theorem place_without_rows :
    ¬ (FloorChooser.choose (bareShelf.build [[]] [[]]) []).Fits (bareShelf.build [[]] [[]]) := by
  intro fits
  exact absurd fits.row_le (by decide)

end Bookshelfdq
