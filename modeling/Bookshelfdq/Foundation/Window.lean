import Mathlib.Data.List.Basic

/-! # Reading a keyed sequence page by page

Rows come in increasing order of their keys. A page holds the first `size` rows
whose key is above a starting point, and the next page starts from the last key of
the one before. -/

namespace Bookshelfdq.Window

variable {Row : Type u}

def above (key : Row → Int) (start : Int) (rows : List Row) : List Row :=
  rows.filter fun row => decide (start < key row)

def page (key : Row → Int) (size : Nat) (start : Int) (rows : List Row) : List Row :=
  (above key start rows).take size

/-- The key of the last row, or `start` where there is none. -/
def lastKey (key : Row → Int) (start : Int) (rows : List Row) : Int :=
  (rows.getLast?.map key).getD start

variable {key : Row → Int} {rows : List Row}

theorem above_above {start next : Int} (later : start ≤ next) :
    above key next (above key start rows) = above key next rows := by
  rw [above, above, List.filter_filter]
  apply List.filter_congr
  intro row _
  by_cases beyond : next < key row
  · have included : start < key row := by omega
    simp [beyond, included]
  · simp [beyond]

theorem above_pairwise (start : Int)
    (ordered : rows.Pairwise fun left right => key left < key right) :
    (above key start rows).Pairwise fun left right => key left < key right :=
  ordered.filter _

/-- Splitting an ordered list at its last row below a point. -/
theorem above_lastKey (start : Int) {front back : List Row} (nonempty : front ≠ [])
    (ordered : (front ++ back).Pairwise fun left right => key left < key right) :
    above key (lastKey key start front) (front ++ back) = back := by
  rcases List.eq_nil_or_concat front with empty | ⟨init, last, concat⟩
  · exact absurd empty nonempty
  · rw [List.concat_eq_append] at concat
    subst concat
    have final : lastKey key start (init ++ [last]) = key last := by simp [lastKey]
    rw [List.pairwise_append] at ordered
    rcases ordered with ⟨inFront, _, across⟩
    rw [List.pairwise_append] at inFront
    rw [final, above, List.filter_append]
    have none : (init ++ [last]).filter (fun row => decide (key last < key row)) = [] := by
      apply List.filter_eq_nil_iff.mpr
      intro row member
      rcases List.mem_append.mp member with early | same
      · have less := inFront.2.2 row early last (by simp)
        simp
        omega
      · simp [List.mem_singleton.mp same]
    have all : back.filter (fun row => decide (key last < key row)) = back := by
      apply List.filter_eq_self.mpr
      intro row member
      simpa using across last (by simp) row member
    rw [none, all, List.nil_append]

theorem lastKey_page_ge {size : Nat} {start : Int} :
    start ≤ lastKey key start (page key size start rows) := by
  rw [lastKey]
  cases last : (page key size start rows).getLast? with
  | none => simp
  | some row =>
      have member : row ∈ page key size start rows := List.mem_of_getLast? last
      have above := List.mem_of_mem_take member
      have greater := (List.mem_filter.mp above).2
      simp at greater
      simp
      omega

/-- The rows above a point are its page and the rows above the last of that. -/
theorem page_append_above {size : Nat} {start : Int}
    (ordered : rows.Pairwise fun left right => key left < key right)
    (nonempty : page key size start rows ≠ []) :
    page key size start rows ++
        above key (lastKey key start (page key size start rows)) rows =
      above key start rows := by
  have split : page key size start rows ++ (above key start rows).drop size =
      above key start rows := List.take_append_drop size _
  have sorted := above_pairwise start ordered
  rw [← split] at sorted
  have rest := above_lastKey start nonempty sorted
  rw [split, above_above lastKey_page_ge] at rest
  rw [rest, split]

theorem page_eq_nil_iff {size : Nat} (positive : 0 < size) {start : Int} :
    page key size start rows = [] ↔ above key start rows = [] := by
  have different : size ≠ 0 := by omega
  rw [page, List.take_eq_nil_iff, or_iff_right different]

theorem length_above_lastKey {size : Nat} {start : Int}
    (ordered : rows.Pairwise fun left right => key left < key right)
    (nonempty : page key size start rows ≠ []) :
    (above key (lastKey key start (page key size start rows)) rows).length <
      (above key start rows).length := by
  have whole := congrArg List.length (page_append_above ordered nonempty)
  rw [List.length_append] at whole
  have some := List.length_pos_iff.mpr nonempty
  omega

theorem le_lastKey {size : Nat} {start : Int} {row : Row}
    (ordered : rows.Pairwise fun left right => key left < key right)
    (member : row ∈ page key size start rows) :
    key row ≤ lastKey key start (page key size start rows) := by
  have sorted : (page key size start rows).Pairwise fun left right => key left < key right :=
    (above_pairwise start ordered).take
  rcases List.eq_nil_or_concat (page key size start rows) with empty | ⟨front, last, concat⟩
  · rw [empty] at member
    cases member
  · rw [List.concat_eq_append] at concat
    rw [concat] at member sorted ⊢
    have final : lastKey key start (front ++ [last]) = key last := by simp [lastKey]
    rw [final]
    rcases List.mem_append.mp member with early | same
    · exact Int.le_of_lt ((List.pairwise_append.mp sorted).2.2 row early last (by simp))
    · exact Int.le_of_eq (congrArg key (List.mem_singleton.mp same))

/-- A row between the starting point and the last key of a page is on the page. -/
theorem mem_page_of_le_lastKey {size : Nat} {start : Int} {row : Row} (member : row ∈ rows)
    (ordered : rows.Pairwise fun left right => key left < key right) (later : start < key row)
    (reached : key row ≤ lastKey key start (page key size start rows)) :
    row ∈ page key size start rows := by
  by_cases empty : page key size start rows = []
  · rw [empty] at reached
    exact absurd later (Int.not_lt.mpr reached)
  · have inside : row ∈ above key start rows := List.mem_filter.mpr ⟨member, decide_eq_true later⟩
    rw [← page_append_above ordered empty] at inside
    rcases List.mem_append.mp inside with found | beyond
    · exact found
    · have further := of_decide_eq_true (List.mem_filter.mp beyond).2
      exact absurd further (Int.not_lt.mpr reached)

/-- A page that is not full is the last. -/
theorem above_lastKey_of_short {size : Nat} {start : Int}
    (ordered : rows.Pairwise fun left right => key left < key right)
    (short : (page key size start rows).length < size) :
    above key (lastKey key start (page key size start rows)) rows = [] := by
  have whole : page key size start rows = above key start rows := by
    apply List.take_of_length_le
    rw [page, List.length_take] at short
    omega
  by_cases empty : page key size start rows = []
  · rw [empty]
    exact whole.symm.trans empty
  · have split := page_append_above ordered empty
    rw [whole] at split
    rw [whole]
    exact List.self_eq_append_right.mp split.symm

end Bookshelfdq.Window
