import Bookshelfdq.Client.LookthroughPage
import Mathlib.Algebra.Order.Group.Int

/-! # The slider beside a scrolled list

`get_choice` moves the row, `move_slider` draws the slider and `scroll_pad` moves the window of the
pad. The lists of shelves and of books are shown so. -/

namespace Bookshelfdq

namespace Slider

/-- `move_slider` draws no row below `max_row`. -/
def localRow (slider : Slider) (row : Int) : Int :=
  if row > slider.maxRow then slider.maxRow else row

/-- `move_slider`, on the column of rows that show a slider. -/
def moveSlider (slider : Slider) (column : Int → Bool) : Int → Bool :=
  Function.update (Function.update column (slider.localRow slider.lastRow) false)
    (slider.localRow slider.currentRow) true

/-- `scroll_pad`, on the first line of the pad that is shown. -/
def scrollPad (logicRow : Int) (slider : Slider) (nline : Int) : Int :=
  if slider.currentRow > slider.maxRow ∧ slider.lastRow = 0 then logicRow - slider.maxRow
  else if slider.currentRow = 0 then 0
  else if slider.currentRow > slider.maxRow ∧ slider.lastRow < slider.currentRow then nline + 1
  else if slider.currentRow ≥ slider.maxRow ∧ slider.lastRow > slider.currentRow then nline - 1
  else nline

end Slider

inductive ScrollKey
  | up
  | down

def ScrollKey.move (logicRow : Int) : ScrollKey → Slider → Slider
  | .up => Slider.up logicRow
  | .down => Slider.down logicRow

/-- What the screen shows of a list: the slider, the column it is drawn in, and the first line of
the pad in its window. -/
structure PadView where
  slider : Slider
  column : Int → Bool
  firstLine : Int
  logicRows : Int

namespace PadView

/-- A list of `lines`, before a key is pressed. -/
def shown (lines : Nat) : PadView :=
  let slider : Slider :=
    { currentRow := 0
      lastRow := 0
      maxRow := if (lines : Int) > padBoxedHight - 1 then padBoxedHight - 1 else lines - 1 }
  { slider := slider
    column := slider.moveSlider fun _ => false
    firstLine := 0
    logicRows := lines - 1 }

def press (view : PadView) (key : ScrollKey) : PadView :=
  let slider := key.move view.logicRows view.slider
  { view with
    slider := slider
    column := slider.moveSlider view.column
    firstLine := slider.scrollPad view.logicRows view.firstLine }

/-- The slider is drawn once, beside the line of the row it is on. -/
structure Points (lines : Nat) (view : PadView) : Prop where
  logicRows : view.logicRows = lines - 1
  maxRow : view.slider.maxRow = min ((lines : Int) - 1) (padBoxedHight - 1)
  lower : 0 ≤ view.slider.currentRow
  upper : view.slider.currentRow ≤ lines - 1
  drawn : ∀ row, view.column row = true ↔ row = min view.slider.currentRow view.slider.maxRow
  firstLine : view.firstLine = max 0 (view.slider.currentRow - view.slider.maxRow)

end PadView

namespace Slider

theorem localRow_eq_min (slider : Slider) (row : Int) :
    slider.localRow row = min row slider.maxRow := by
  rw [localRow]
  split <;> omega

/-- Where the slider stood is cleared before it is drawn. -/
theorem moveSlider_drawn {slider : Slider} {column : Int → Bool}
    (drawn : ∀ row, column row = true ↔ row = min slider.lastRow slider.maxRow) (row : Int) :
    slider.moveSlider column row = true ↔ row = min slider.currentRow slider.maxRow := by
  rw [moveSlider, localRow_eq_min, localRow_eq_min]
  by_cases current : row = min slider.currentRow slider.maxRow
  · rw [current, Function.update_self]
    exact ⟨fun _ => rfl, fun _ => rfl⟩
  · rw [Function.update_of_ne current]
    by_cases last : row = min slider.lastRow slider.maxRow
    · rw [last, Function.update_self]
      exact ⟨fun cleared => absurd cleared Bool.false_ne_true,
        fun same => absurd (last.trans same) current⟩
    · rw [Function.update_of_ne last, drawn]
      exact ⟨fun same => absurd same last, fun same => absurd same current⟩

section Scroll

variable {logicRow nline : Int} {slider : Slider} (lower : 0 ≤ slider.currentRow)
  (upper : slider.currentRow ≤ logicRow)
  (window : slider.maxRow = min logicRow (padBoxedHight - 1))
  (first : nline = max 0 (slider.currentRow - slider.maxRow))

include lower upper window first

/-- The first row wraps to the last line, and any other row is left for the one above it. -/
theorem scrollPad_up : (slider.up logicRow).scrollPad logicRow nline =
    max 0 ((slider.up logicRow).currentRow - slider.maxRow) := by
  rw [padBoxedHight] at window
  rw [scrollPad, up]
  dsimp only
  by_cases top : slider.currentRow = 0
  · rw [if_pos top]
    split
    · omega
    · split
      · omega
      · rw [if_neg (by omega), if_neg (by omega)]
        omega
  · rw [if_neg top, if_neg (by omega)]
    split
    · omega
    · rw [if_neg (by omega)]
      split <;> omega

/-- The last row wraps to the first line. The row below the window is not reached from row 0, as
the window has a second row where the list has one. -/
theorem scrollPad_down : (slider.down logicRow).scrollPad logicRow nline =
    max 0 ((slider.down logicRow).currentRow - slider.maxRow) := by
  rw [padBoxedHight] at window
  rw [scrollPad, down]
  dsimp only
  by_cases bottom : slider.currentRow = logicRow
  · rw [if_pos bottom, if_neg (by omega), if_pos rfl]
    omega
  · rw [if_neg bottom, if_neg (by omega), if_neg (by omega)]
    split
    · omega
    · rw [if_neg (by omega)]
      omega

end Scroll

end Slider

namespace PadView

theorem shown_points {lines : Nat} (some : 0 < lines) : (shown lines).Points lines := by
  have window : (shown lines).slider.maxRow = min ((lines : Int) - 1) (padBoxedHight - 1) := by
    rw [shown, padBoxedHight]
    dsimp only
    split <;> omega
  refine ⟨rfl, window, Int.le_refl 0, ?_, ?_, ?_⟩
  · change (0 : Int) ≤ lines - 1
    omega
  · intro row
    change (shown lines).slider.moveSlider (fun _ => false) row = true ↔ _
    rw [Slider.moveSlider, Slider.localRow_eq_min, Slider.localRow_eq_min]
    change Function.update (Function.update (fun _ => false) (min 0 _) false) (min 0 _) true row =
      true ↔ row = min 0 _
    rw [Function.update_idem]
    by_cases here : row = min 0 (shown lines).slider.maxRow
    · rw [here, Function.update_self]
      exact ⟨fun _ => rfl, fun _ => rfl⟩
    · rw [Function.update_of_ne here]
      exact ⟨fun drawn => absurd drawn Bool.false_ne_true, fun same => absurd same here⟩
  · change (0 : Int) = max 0 (0 - (shown lines).slider.maxRow)
    rw [window, padBoxedHight]
    omega

theorem Points.press {lines : Nat} {view : PadView} (points : view.Points lines) (key : ScrollKey) :
    (view.press key).Points lines := by
  have lower := points.lower
  have upper := points.upper
  have rows := points.logicRows
  have window : view.slider.maxRow = min view.logicRows (padBoxedHight - 1) := by
    rw [points.maxRow, rows]
  have inside : view.slider.currentRow ≤ view.logicRows := rows ▸ upper
  cases key with
  | up =>
      refine ⟨rows, points.maxRow, ?_, ?_, Slider.moveSlider_drawn points.drawn,
        Slider.scrollPad_up lower inside window points.firstLine⟩
      · change 0 ≤ if view.slider.currentRow = 0 then view.logicRows else _
        split <;> omega
      · change (if view.slider.currentRow = 0 then view.logicRows else _) ≤ _
        split <;> omega
  | down =>
      refine ⟨rows, points.maxRow, ?_, ?_, Slider.moveSlider_drawn points.drawn,
        Slider.scrollPad_down lower inside window points.firstLine⟩
      · change 0 ≤ if view.slider.currentRow = view.logicRows then 0 else _
        split <;> omega
      · change (if view.slider.currentRow = view.logicRows then 0 else _) ≤ _
        split <;> omega

/-- After every sequence of keys the slider stands beside the selected line, and the window has not
scrolled past the last line. -/
theorem slider_points_at_row (lines : Nat) (some : 0 < lines) (keys : List ScrollKey) :
    let view := Execution.run press (shown lines) keys
    (0 ≤ view.slider.currentRow ∧ view.slider.currentRow ≤ view.logicRows) ∧
      view.firstLine = max 0 (view.slider.currentRow - view.slider.maxRow) ∧
      view.firstLine + min view.slider.currentRow view.slider.maxRow = view.slider.currentRow ∧
      view.firstLine + view.slider.maxRow ≤ view.logicRows ∧
      (∀ row, view.column row = true ↔ row = min view.slider.currentRow view.slider.maxRow) ∧
      view.logicRows = lines - 1 ∧
      view.slider.maxRow = min ((lines : Int) - 1) (padBoxedHight - 1) := by
  intro view
  have preserved : ∀ (view : PadView) key, view.Points lines → (view.press key).Points lines :=
    fun _ key points => points.press key
  have points : view.Points lines := Execution.run_invariant preserved (shown_points some) keys
  have lower := points.lower
  have upper := points.upper
  have rows := points.logicRows
  have window := points.maxRow
  have first := points.firstLine
  refine ⟨⟨lower, by omega⟩, first, ?_, ?_, points.drawn, rows, window⟩
  · omega
  · omega

/-- Up from the first of twenty lines. -/
theorem twenty_lines_wrapped :
    (Execution.run press (shown 20) [.up]).firstLine = 8 ∧
      (Execution.run press (shown 20) [.up]).firstLine +
        min (Execution.run press (shown 20) [.up]).slider.currentRow
          (Execution.run press (shown 20) [.up]).slider.maxRow = 19 :=
  ⟨by decide, (slider_points_at_row 20 (by decide) [.up]).2.2.1⟩

end PadView

end Bookshelfdq
