import Bookshelfdq.Clisrv
import Bookshelfdq.Foundation.Terminated

/-! # Labels in rows

`split_labels` of `ncgui.c` distributes the tags of a label over rows of two. The rows are an array
of buffers, and a store that leaves its row is a fault. -/

namespace Bookshelfdq

namespace SplitLabels

/-- `char rev[][38]` -/
def rowSize : Nat := 38

/-- `strncpy` from a text, which is terminated behind its last byte. -/
def copied (count : Nat) (source : List UInt8) : List UInt8 :=
  source.take count ++ List.replicate (count - source.length) 0

/-- The bytes at the beginning of a row. -/
def storeRow (row : Nat) (bytes : List UInt8) (rev : List (List UInt8)) :
    Option (List (List UInt8)) :=
  match rev[row]? with
  | none => none
  | some old =>
      if bytes.length ≤ old.length then some (rev.set row (bytes ++ old.drop bytes.length))
      else none

/-- The variables of the loop. `start` is `last_offset + 1`. -/
structure Splitting where
  rev : List (List UInt8)
  start : Nat
  offset : Nat
  index : Nat

/-- The loop, with what is left of the label from `offset` on, and the copy that follows it. -/
def splitLoop (label : List UInt8) : List UInt8 → Splitting → Option (List (List UInt8))
  | [], state =>
      storeRow (state.index / 2)
        (copied (state.offset + 1 - state.start) (label.drop state.start)) state.rev
  | ch :: rest, state =>
      if ch = 44 then
        if (state.index + 1) % 2 = 0 then
          match storeRow ((state.index + 1) / 2 - 1)
              ((copied (state.offset + 1 - state.start) (label.drop state.start)).set
                (state.offset - state.start) 0) state.rev with
          | none => none
          | some rev => splitLoop label rest ⟨rev, state.offset + 1, state.offset + 1, state.index + 1⟩
        else splitLoop label rest { state with offset := state.offset + 1, index := state.index + 1 }
      else splitLoop label rest { state with offset := state.offset + 1 }

/-- `split_labels` -/
def splitLabels (label : List UInt8) (rev : List (List UInt8)) : Option (List (List UInt8)) :=
  splitLoop label label ⟨rev, 0, 0, 0⟩

def emptyRow : List UInt8 := List.replicate rowSize 0

/-- `slabel` after `memset`. -/
def slabel : List (List UInt8) := List.replicate (maxLabelNum / 2) emptyRow

/-! ## Rows of two -/

/-- The tags of a label with commas between them. -/
def joined (tags : List (List UInt8)) : List UInt8 := List.intercalate [44] tags

def pairRows : List (List UInt8) → List (List UInt8)
  | [] => []
  | [tag] => [tag]
  | tag :: next :: rest => (tag ++ 44 :: next) :: pairRows rest

/-- A row that holds a text. -/
def filledRow (text : List UInt8) : List UInt8 :=
  text ++ List.replicate (rowSize - text.length) 0

/-- The rows of a label, if there are enough of them. -/
def filledRows (count : Nat) (texts : List (List UInt8)) : Option (List (List UInt8)) :=
  if texts.length ≤ count then
    some (texts.map filledRow ++ List.replicate (count - texts.length) emptyRow)
  else none

/-! ## The loop -/

/-- The loop without offsets: what has been read of the row, and what is left. -/
def cutRows : List UInt8 → List UInt8 → Nat → List (List UInt8) → Option (List (List UInt8))
  | row, [], index, rev => storeRow (index / 2) (row ++ [0]) rev
  | row, ch :: rest, index, rev =>
      if ch = 44 then
        if (index + 1) % 2 = 0 then
          match storeRow ((index + 1) / 2 - 1) (row ++ [0]) rev with
          | none => none
          | some rev => cutRows [] rest (index + 1) rev
        else cutRows (row ++ [44]) rest (index + 1) rev
      else cutRows (row ++ [ch]) rest index rev

theorem copied_last (front row : List UInt8) :
    copied (front.length + row.length + 1 - front.length) ((front ++ row).drop front.length) =
      row ++ [0] := by
  have count : front.length + row.length + 1 - front.length = row.length + 1 := by omega
  rw [List.drop_left, count, copied, List.take_of_length_le (Nat.le_succ _),
    Nat.add_sub_cancel_left]
  rfl

/-- The separator is copied too, and is overwritten. -/
theorem copied_separated (front row : List UInt8) (ch : UInt8) (rest : List UInt8) :
    (copied (front.length + row.length + 1 - front.length)
      ((front ++ (row ++ ch :: rest)).drop front.length)).set
        (front.length + row.length - front.length) 0 = row ++ [0] := by
  have count : front.length + row.length + 1 - front.length = row.length + 1 := by omega
  have none : row.length + 1 - (row ++ ch :: rest).length = 0 := by
    rw [List.length_append, List.length_cons]
    omega
  rw [List.drop_left, count, copied, none, Nat.add_sub_cancel_left, List.replicate_zero,
    List.append_nil, List.take_length_add_append, List.set_append_right _ _ (Nat.le_refl _),
    Nat.sub_self]
  rfl

theorem splitLoop_eq_cutRows {label : List UInt8} (rest front row : List UInt8) (index : Nat)
    (rev : List (List UInt8)) (split : label = front ++ (row ++ rest)) :
    splitLoop label rest ⟨rev, front.length, front.length + row.length, index⟩ =
      cutRows row rest index rev := by
  induction rest generalizing front row index rev with
  | nil =>
      rw [List.append_nil] at split
      rw [splitLoop, cutRows, split, copied_last]
  | cons ch rest induction =>
      have further : label = front ++ ((row ++ [ch]) ++ rest) := by
        rw [split, List.append_assoc, List.singleton_append]
      have behind : label = (front ++ (row ++ [ch])) ++ ([] ++ rest) := by
        rw [further, List.append_assoc, List.append_assoc, List.append_assoc, List.nil_append]
      have place : (front ++ (row ++ [ch])).length = front.length + row.length + 1 := by
        rw [List.length_append, List.length_append]
        rfl
      have next : ∀ index, splitLoop label rest
          ⟨rev, front.length, front.length + row.length + 1, index⟩ =
            cutRows (row ++ [ch]) rest index rev := by
        intro index
        have step := induction front (row ++ [ch]) index rev further
        rw [List.length_append] at step
        exact step
      rw [splitLoop, cutRows]
      by_cases comma : ch = 44
      · rw [if_pos comma, if_pos comma]
        by_cases even : (index + 1) % 2 = 0
        · rw [if_pos even, if_pos even]
          dsimp only
          conv_lhs => rw [split, copied_separated]
          cases storeRow ((index + 1) / 2 - 1) (row ++ [0]) rev with
          | none => rfl
          | some rev =>
              have step := induction (front ++ (row ++ [ch])) [] (index + 1) rev behind
              rw [place] at step
              rw [← split]
              exact step
        · rw [if_neg even, if_neg even, ← comma]
          exact next (index + 1)
      · rw [if_neg comma, if_neg comma]
        exact next index

theorem splitLabels_eq_cutRows (label : List UInt8) (rev : List (List UInt8)) :
    splitLabels label rev = cutRows [] label 0 rev :=
  splitLoop_eq_cutRows label [] [] 0 rev rfl

theorem cutRows_tag {tag : List UInt8} (plain : 44 ∉ tag) (row rest : List UInt8) (index : Nat)
    (rev : List (List UInt8)) :
    cutRows row (tag ++ rest) index rev = cutRows (row ++ tag) rest index rev := by
  induction tag generalizing row with
  | nil => rw [List.nil_append, List.append_nil]
  | cons ch tag induction =>
      have other : ch ≠ 44 := fun same => plain (same ▸ List.mem_cons_self)
      have later : 44 ∉ tag := fun member => plain (List.mem_cons_of_mem _ member)
      rw [List.cons_append, cutRows, if_neg other, induction later, List.append_assoc,
        List.singleton_append]

/-! ## Stores -/

/-- The next row is filled, if there is one. -/
theorem storeRow_next {text : List UInt8} (short : text.length < rowSize)
    (done : List (List UInt8)) (count : Nat) :
    storeRow done.length (text ++ [0]) (done ++ List.replicate count emptyRow) =
      if 1 ≤ count then some (done ++ filledRow text :: List.replicate (count - 1) emptyRow)
      else none := by
  cases count with
  | zero => rw [storeRow, List.replicate_zero, List.append_nil,
      List.getElem?_eq_none (Nat.le_refl _), if_neg (by decide)]
  | succ count =>
      have room : (text ++ [0]).length ≤ emptyRow.length := by
        rw [List.length_append, emptyRow, List.length_replicate]
        exact short
      have filled : text ++ [0] ++ emptyRow.drop (text ++ [0]).length = filledRow text := by
        rw [emptyRow, List.drop_replicate, List.append_assoc, List.singleton_append,
          ← List.replicate_succ, filledRow, List.length_append, List.length_singleton]
        congr 2
        omega
      rw [storeRow, List.replicate_succ, List.getElem?_append_right (Nat.le_refl _), Nat.sub_self,
        List.getElem?_cons_zero]
      dsimp only
      rw [if_pos room, filled, List.set_append_right _ _ (Nat.le_refl _), Nat.sub_self,
        List.set_cons_zero, if_pos (Nat.succ_le_succ (Nat.zero_le _)), Nat.add_sub_cancel]

theorem filledRows_cons (count : Nat) (text : List UInt8) (texts : List (List UInt8)) :
    filledRows count (text :: texts) =
      if 1 ≤ count then (filledRows (count - 1) texts).map (filledRow text :: ·) else none := by
  cases count with
  | zero => rfl
  | succ count =>
      have even : texts.length + 1 ≤ count + 1 ↔ texts.length ≤ count := Nat.succ_le_succ_iff
      rw [if_pos (Nat.succ_le_succ (Nat.zero_le _)), filledRows, filledRows, List.length_cons,
        Nat.add_sub_cancel, Nat.add_sub_add_right]
      by_cases fits : texts.length ≤ count
      · rw [if_pos (even.mpr fits), if_pos fits]
        rfl
      · rw [if_neg (fun more => fits (even.mp more)), if_neg fits]
        rfl

/-! ## Whole labels -/

section Tags

variable {tag next : List UInt8} (plain : 44 ∉ tag) (plainNext : 44 ∉ next)

include plain plainNext

theorem cutRows_pair (behind : List UInt8) (row : Nat) (rev : List (List UInt8)) :
    cutRows [] (tag ++ 44 :: (next ++ behind)) (2 * row) rev =
      cutRows (tag ++ 44 :: next) behind (2 * row + 1) rev := by
  have odd : ¬(2 * row + 1) % 2 = 0 := by omega
  rw [cutRows_tag plain, List.nil_append, cutRows, if_pos rfl, if_neg odd, cutRows_tag plainNext,
    List.append_assoc, List.singleton_append]

end Tags

/-- From the row of an even comma on, the tags are stored in rows of two. -/
theorem cutRows_joined {tags : List (List UInt8)} (nonempty : tags ≠ [])
    (plain : ∀ tag ∈ tags, 44 ∉ tag) (short : ∀ row ∈ pairRows tags, row.length < rowSize)
    (done : List (List UInt8)) (count : Nat) :
    cutRows [] (joined tags) (2 * done.length) (done ++ List.replicate count emptyRow) =
      (filledRows count (pairRows tags)).map (done ++ ·) := by
  induction tags using pairRows.induct generalizing done count with
  | case1 => exact absurd rfl nonempty
  | case2 tag =>
      have alone : joined [tag] = tag ++ [] := by
        rw [joined, List.intercalate_singleton, List.append_nil]
      rw [alone, cutRows_tag (plain tag List.mem_cons_self), List.nil_append, cutRows,
        Nat.mul_div_cancel_left _ (by decide), storeRow_next (short tag List.mem_cons_self), pairRows,
        filledRows_cons]
      split
      · rfl
      · rfl
  | case3 tag next rest induction =>
      have row : (tag ++ 44 :: next).length < rowSize := short _ List.mem_cons_self
      have plainTag := plain tag List.mem_cons_self
      have plainNext := plain next (List.mem_cons_of_mem _ List.mem_cons_self)
      rw [pairRows, filledRows_cons]
      cases rest with
      | nil =>
          have both : joined [tag, next] = tag ++ 44 :: (next ++ []) := by
            rw [joined, List.intercalate_cons_cons, List.intercalate_singleton, List.append_nil,
              List.append_assoc, List.singleton_append]
          have place : (2 * done.length + 1) / 2 = done.length := by omega
          rw [both, cutRows_pair plainTag plainNext, cutRows, place, storeRow_next row]
          split
          · rfl
          · rfl
      | cons third rest =>
          have begins : joined (tag :: next :: third :: rest) =
              tag ++ 44 :: (next ++ 44 :: joined (third :: rest)) := by
            rw [joined, List.intercalate_cons_cons, List.intercalate_cons_cons, List.append_assoc,
              List.singleton_append, List.append_assoc, List.singleton_append]
            rfl
          have place : (2 * done.length + 1 + 1) / 2 - 1 = done.length := by omega
          have even : (2 * done.length + 1 + 1) % 2 = 0 := by omega
          rw [begins, cutRows_pair plainTag plainNext, cutRows, if_pos rfl, if_pos even, place,
            storeRow_next row]
          by_cases fits : 1 ≤ count
          · have index : 2 * done.length + 1 + 1 =
                2 * (done ++ [filledRow (tag ++ 44 :: next)]).length := by
              rw [List.length_append, List.length_singleton]
              omega
            have further : done ++ filledRow (tag ++ 44 :: next) :: List.replicate (count - 1) emptyRow =
                done ++ [filledRow (tag ++ 44 :: next)] ++ List.replicate (count - 1) emptyRow := by
              rw [List.append_assoc, List.singleton_append]
            have later := induction (List.cons_ne_nil _ _)
              (fun tag member => plain tag (List.mem_cons_of_mem _ (List.mem_cons_of_mem _ member)))
              (fun row member => short row (List.mem_cons_of_mem _ member))
              (done ++ [filledRow (tag ++ 44 :: next)]) (count - 1)
            rw [if_pos fits, if_pos fits]
            dsimp only
            rw [index, further, later, Option.map_map]
            congr 1
            funext rows
            exact List.append_assoc _ _ _
          · rw [if_neg fits, if_neg fits]
            rfl

/-- The rows are filled if there are enough of them, and else a store leaves the array. -/
theorem splitLabels_joined {tags : List (List UInt8)} (nonempty : tags ≠ [])
    (plain : ∀ tag ∈ tags, 44 ∉ tag) (short : ∀ row ∈ pairRows tags, row.length < rowSize) :
    splitLabels (joined tags) slabel = filledRows (maxLabelNum / 2) (pairRows tags) := by
  have cut := cutRows_joined nonempty plain short [] (maxLabelNum / 2)
  rw [splitLabels_eq_cutRows]
  refine cut.trans ?_
  rw [show (fun rows : List (List UInt8) => [] ++ rows) = id from rfl, Option.map_id]
  rfl

/-! ## Labels of tags -/

theorem length_pairRows (tags : List (List UInt8)) :
    (pairRows tags).length = (tags.length + 1) / 2 := by
  induction tags using pairRows.induct with
  | case1 => rfl
  | case2 tag =>
      rw [pairRows, List.length_singleton]
  | case3 tag next rest induction =>
      rw [pairRows, List.length_cons, induction, List.length_cons, List.length_cons]
      omega

theorem length_pairRows_le {tags : List (List UInt8)} (few : tags.length ≤ maxLabelNum) :
    (pairRows tags).length ≤ maxLabelNum / 2 := by
  have size : maxLabelNum / 2 = 5 := rfl
  have limit : maxLabelNum = 10 := rfl
  have length := length_pairRows tags
  omega

theorem joined_pair (tag next : List UInt8) : joined [tag, next] = tag ++ 44 :: next := by
  rw [joined, List.intercalate_cons_cons, List.intercalate_singleton, List.append_assoc,
    List.singleton_append]

theorem getElem?_pairRows (tags : List (List UInt8)) (row : Nat) :
    (pairRows tags)[row]? =
      if 2 * row < tags.length then some (joined ((tags.drop (2 * row)).take 2)) else none := by
  induction tags using pairRows.induct generalizing row with
  | case1 =>
      have behind : ¬2 * row < ([] : List (List UInt8)).length := Nat.not_lt_zero _
      rw [if_neg behind, pairRows, List.getElem?_nil]
  | case2 tag =>
      cases row with
      | zero =>
          have inside : 2 * 0 < [tag].length := Nat.one_pos
          rw [if_pos inside, Nat.mul_zero, List.drop_zero]
          change some tag = some (joined [tag])
          rw [joined, List.intercalate_singleton]
      | succ row =>
          have behind : ¬2 * (row + 1) < [tag].length := by
            rw [List.length_singleton]
            omega
          rw [if_neg behind]
          rfl
  | case3 tag next rest induction =>
      rw [pairRows]
      cases row with
      | zero =>
          have inside : 2 * 0 < (tag :: next :: rest).length := Nat.succ_pos _
          rw [if_pos inside, Nat.mul_zero, List.drop_zero]
          exact congrArg some (joined_pair tag next).symm
      | succ row =>
          have further : 2 * (row + 1) = 2 * row + 1 + 1 := by omega
          have inside : 2 * row + 1 + 1 < (tag :: next :: rest).length ↔ 2 * row < rest.length := by
            rw [List.length_cons, List.length_cons]
            omega
          rw [List.getElem?_cons_succ, induction, further, List.drop_succ_cons, List.drop_succ_cons,
            if_congr inside.symm rfl rfl]

theorem joined_pairRows (tags : List (List UInt8)) : joined (pairRows tags) = joined tags := by
  induction tags using pairRows.induct with
  | case1 => rfl
  | case2 tag => rfl
  | case3 tag next rest induction =>
      cases rest with
      | nil => rw [joined_pair, pairRows, pairRows, joined, List.intercalate_singleton]
      | cons third rest =>
          have more : pairRows (third :: rest) ≠ [] := by
            intro none
            have length := length_pairRows (third :: rest)
            rw [none, List.length_nil, List.length_cons] at length
            omega
          rw [pairRows, joined, List.intercalate_cons_of_ne_nil more]
          change _ ++ joined (pairRows (third :: rest)) = _
          rw [induction, joined, joined, List.intercalate_cons_cons, List.intercalate_cons_cons]
          simp only [List.append_assoc, List.cons_append, List.nil_append]

/-- A tag as it is typed. -/
structure IsTag (tag : List UInt8) : Prop where
  nonempty : tag ≠ []
  plain : 44 ∉ tag
  terminated : 0 ∉ tag
  short : tag.length ≤ labelNameLen

/-- An empty row is a single piece behind an even number of them. -/
theorem nil_mem_pairRows_iff (parts : List (List UInt8)) :
    [] ∈ pairRows parts ↔ parts.length % 2 = 1 ∧ parts.getLast? = some [] := by
  induction parts using pairRows.induct with
  | case1 => simp [pairRows]
  | case2 part =>
      rw [pairRows, List.mem_singleton]
      constructor
      · intro empty
        exact ⟨rfl, congrArg some empty.symm⟩
      · intro both
        exact (Option.some.inj both.2).symm
  | case3 part next rest induction =>
      have paired : ([] : List UInt8) ≠ part ++ 44 :: next :=
        (List.append_ne_nil_of_right_ne_nil _ (List.cons_ne_nil _ _)).symm
      have length : (part :: next :: rest).length % 2 = rest.length % 2 := by
        rw [List.length_cons, List.length_cons]
        omega
      rw [pairRows, List.mem_cons, or_iff_right paired, induction, length]
      cases rest with
      | nil => simp
      | cons third rest => rw [List.getLast?_cons_cons, List.getLast?_cons_cons]

/-- Two tags with a comma fit a row. -/
theorem pairRows_solid {tags : List (List UInt8)}
    (each : ∀ tag ∈ tags, 0 ∉ tag ∧ tag.length ≤ labelNameLen) :
    ∀ row ∈ pairRows tags, 0 ∉ row ∧ row.length < rowSize := by
  have size : rowSize = 2 * labelNameLen + 2 := rfl
  induction tags using pairRows.induct with
  | case1 => exact fun row member => absurd member List.not_mem_nil
  | case2 tag =>
      intro row member
      rcases each tag List.mem_cons_self with ⟨terminated, short⟩
      rw [List.mem_singleton.mp member]
      exact ⟨terminated, by omega⟩
  | case3 tag next rest induction =>
      intro row member
      rcases List.mem_cons.mp member with rfl | later
      · rcases each tag List.mem_cons_self with ⟨first, shortFirst⟩
        rcases each next (List.mem_cons_of_mem _ List.mem_cons_self) with ⟨second, shortSecond⟩
        refine ⟨?_, ?_⟩
        · intro terminator
          rcases List.mem_append.mp terminator with inFirst | behind
          · exact first inFirst
          · rcases List.mem_cons.mp behind with comma | inSecond
            · exact absurd comma (by decide)
            · exact second inSecond
        · rw [List.length_append, List.length_cons]
          omega
      · apply induction _ row later
        intro tag member
        exact each tag (List.mem_cons_of_mem _ (List.mem_cons_of_mem _ member))

theorem pairRows_each {tags : List (List UInt8)} (each : ∀ tag ∈ tags, IsTag tag) :
    ∀ row ∈ pairRows tags, row ≠ [] ∧ 0 ∉ row ∧ row.length < rowSize := by
  intro row member
  refine ⟨?_, pairRows_solid (fun tag tagMember => ?_) row member⟩
  · rintro rfl
    have last := ((nil_mem_pairRows_iff tags).mp member).2
    exact (each [] (List.mem_of_getLast? last)).nonempty rfl
  · exact ⟨(each tag tagMember).terminated, (each tag tagMember).short⟩

theorem text_filledRow {text : List UInt8} (terminated : 0 ∉ text) (short : text.length < rowSize) :
    Terminated.text 0 (filledRow text) = text := by
  have some : rowSize - text.length = rowSize - text.length - 1 + 1 := by omega
  rw [filledRow, some, List.replicate_succ, Terminated.text_append terminated]

theorem splitLabels_tags {tags : List (List UInt8)} (few : tags.length ≤ maxLabelNum)
    (each : ∀ tag ∈ tags, IsTag tag) :
    splitLabels (joined tags) slabel = some ((pairRows tags).map filledRow ++
      List.replicate (maxLabelNum / 2 - (pairRows tags).length) emptyRow) := by
  by_cases none : tags = []
  · rw [none]
    have empty := @splitLabels_joined [[]] (List.cons_ne_nil _ _) (by decide) (by decide)
    exact empty
  · have rows := pairRows_each each
    have fits : (pairRows tags).length ≤ maxLabelNum / 2 := length_pairRows_le few
    rw [splitLabels_joined none (fun tag member => (each tag member).plain)
      (fun row member => (rows row member).2.2), filledRows, if_pos fits]

/-- Tags 2k and 2k+1 are in row k, which is terminated, the rows behind the last tag are empty, and
the rows give back the label. -/
theorem split_labels_rows (tags : List (List UInt8)) (few : tags.length ≤ maxLabelNum)
    (each : ∀ tag ∈ tags, IsTag tag) :
    ∃ rows, splitLabels (joined tags) slabel = some rows ∧ rows.length = maxLabelNum / 2 ∧
      (∀ row < maxLabelNum / 2,
        (rows.map (Terminated.text 0))[row]? = some (joined ((tags.drop (2 * row)).take 2)) ∧
          (tags.length ≤ 2 * row → rows[row]? = some emptyRow)) ∧
      (∀ row ∈ rows, row.length = rowSize ∧ (Terminated.text 0 row).length + 1 ≤ rowSize) ∧
      joined ((rows.map (Terminated.text 0)).filter (· ≠ [])) = joined tags := by
  have pairs := pairRows_each each
  have length := length_pairRows tags
  have fits := length_pairRows_le few
  have texts : ((pairRows tags).map filledRow).map (Terminated.text 0) = pairRows tags := by
    rw [List.map_map]
    refine (List.map_congr_left fun row member => ?_).trans (List.map_id _)
    exact text_filledRow (pairs row member).2.1 (pairs row member).2.2
  have blank : Terminated.text 0 emptyRow = [] := by decide
  refine ⟨_, splitLabels_tags few each, ?_, ?_, ?_, ?_⟩
  · rw [List.length_append, List.length_map, List.length_replicate]
    omega
  · intro row inside
    rw [List.map_append, texts, List.map_replicate, blank]
    by_cases used : 2 * row < tags.length
    · have here : row < (pairRows tags).length := by omega
      refine ⟨?_, fun behind => absurd used (Nat.not_lt.mpr behind)⟩
      rw [List.getElem?_append_left here, getElem?_pairRows, if_pos used]
    · have behind : (pairRows tags).length ≤ row := by omega
      have left : row - (pairRows tags).length < maxLabelNum / 2 - (pairRows tags).length := by omega
      have dropped : tags.drop (2 * row) = [] := List.drop_of_length_le (Nat.not_lt.mp used)
      constructor
      · rw [List.getElem?_append_right behind, List.getElem?_replicate_of_lt left, dropped]
        rfl
      · intro _
        have filled : ((pairRows tags).map filledRow).length ≤ row := by
          rw [List.length_map]
          exact behind
        rw [List.getElem?_append_right filled, List.length_map, List.getElem?_replicate_of_lt left]
  · intro row member
    rcases List.mem_append.mp member with filled | unused
    · rcases List.mem_map.mp filled with ⟨text, textMember, rfl⟩
      have pair := pairs text textMember
      refine ⟨?_, ?_⟩
      · rw [filledRow, List.length_append, List.length_replicate]
        omega
      · rw [text_filledRow pair.2.1 pair.2.2]
        exact pair.2.2
    · rw [List.eq_of_mem_replicate unused, blank]
      exact ⟨rfl, by decide⟩
  · have solid : (pairRows tags).filter (fun row => decide (row ≠ [])) = pairRows tags :=
      List.filter_eq_self.mpr fun row member => decide_eq_true (pairs row member).1
    have none : (List.replicate (maxLabelNum / 2 - (pairRows tags).length)
        ([] : List UInt8)).filter (fun row => decide (row ≠ [])) = [] := by
      apply List.filter_eq_nil_iff.mpr
      intro row member
      rw [List.eq_of_mem_replicate member]
      decide
    rw [List.map_append, texts, List.map_replicate, blank, List.filter_append, solid, none,
      List.append_nil, joined_pairRows]

/-- Three tags. -/
theorem three_tags_split :
    ∃ rows, splitLabels (joined [[65], [66, 67], [68]]) slabel = some rows ∧
      joined ((rows.map (Terminated.text 0)).filter (· ≠ [])) = [65, 44, 66, 67, 44, 68] := by
  have each : ∀ tag ∈ [[65], [66, 67], [68]], IsTag tag := by
    intro tag member
    simp only [List.mem_cons, List.not_mem_nil, or_false] at member
    rcases member with rfl | rfl | rfl
    · exact ⟨by decide, by decide, by decide, by decide⟩
    · exact ⟨by decide, by decide, by decide, by decide⟩
    · exact ⟨by decide, by decide, by decide, by decide⟩
  rcases split_labels_rows [[65], [66, 67], [68]] (by decide) each with
    ⟨rows, split, _, _, _, whole⟩
  exact ⟨rows, split, whole⟩

end SplitLabels

end Bookshelfdq
