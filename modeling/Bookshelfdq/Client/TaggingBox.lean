import Bookshelfdq.Client.SplitLabels
import Bookshelfdq.Client.StringFilter
import Bookshelfdq.Foundation.Fields

/-! # Tagging

`draw_bi_tagging_box` of `ncgui.c`, and the loops that print the rows of a label. An index outside
its array is a fault. -/

namespace Bookshelfdq

namespace Tagging

open SplitLabels

/-! ## The box -/

/-- A line that is typed for a tag, and the answer to the question after it. -/
structure TagLine where
  localTag : List UInt8
  terminated : 0 ∉ localTag
  short : localTag.length ≤ labelNameLen
  confirmed : Bool

/-- `tsptr`, where `string_filter` returns. -/
def TagLine.tsptr (line : TagLine) : List UInt8 :=
  StringFilter.untilDigit 63 (trimmed StringFilter.isBlank line.localTag)

def localLabelSize : Nat := (labelNameLen + 1) * maxLabelNum + 1

/-- `strcat` to `local_label`. -/
def strcat (text : List UInt8) (localLabel : List UInt8) : Option (List UInt8) :=
  if localLabel.length + text.length < localLabelSize then some (localLabel ++ text) else none

/-- The loop over the lines, which are followed by an empty one. -/
def tagLoop : List TagLine → List UInt8 → Nat → Option (List UInt8)
  | [], localLabel, _ => some localLabel
  | line :: lines, localLabel, nlines =>
      if line.localTag = [] then some localLabel
      else if line.tsptr = [] then tagLoop lines localLabel nlines
      else if line.confirmed then
        match (strcat line.tsptr localLabel).bind (strcat [44]) with
        | none => none
        | some localLabel =>
            if nlines + 1 < 10 then tagLoop lines localLabel (nlines + 1) else some localLabel
      else tagLoop lines localLabel nlines

/-- `draw_bi_tagging_box` once the label is confirmed: the label it leaves in the entry. The last
comma is at index `strlen(local_label) - 1`. -/
def drawBiTaggingBox (lines : List TagLine) : Option (List UInt8) :=
  match tagLoop lines [] 0 with
  | none => none
  | some localLabel => if localLabel.length = 0 then none else some localLabel.dropLast

/-! ## Printing -/

/-- The loops over `slabel[j]`, with the rows from `j` on. -/
def printRows : List (List UInt8) → Option (List (List UInt8))
  | [] => none
  | row :: rows =>
      if row.headD 0 = 0 then some []
      else (printRows rows).map (Terminated.text 0 row :: ·)

/-- The label in `show_book_info`. -/
def showBookInfo (label : List UInt8) : Option (List (List UInt8)) :=
  (splitLabels label slabel).bind printRows

/-- The label in `show_newbook_info`. -/
def showNewbookInfo (label : List UInt8) : Option (List (List UInt8)) :=
  if label.headD 0 = 0 then some [] else showBookInfo label

/-! ## What is typed -/

/-- The tags that are confirmed and not blank, before an empty line. -/
def confirmedTags (lines : List TagLine) : List (List UInt8) :=
  ((lines.takeWhile fun line => !line.localTag.isEmpty).filter fun line =>
    !line.tsptr.isEmpty && line.confirmed).map TagLine.tsptr

/-- The tags that are accepted: the first ten of these. -/
def acceptedTags (lines : List TagLine) : List (List UInt8) := (confirmedTags lines).take 10

/-- The pieces between the commas of the label: those of each tag. -/
def pieces (tags : List (List UInt8)) : Nat :=
  (tags.map fun tag => tag.count 44 + 1).sum

/-- The rows end before the last one does: with nine pieces the last one has to be empty. -/
def RoomFor (tags : List (List UInt8)) : Prop :=
  tags ≠ [] ∧ (pieces tags ≤ 8 ∨ pieces tags = 9 ∧ ∃ earlier tag, tags = earlier ++ [tag ++ [44]])

/-! ## Tags -/

theorem untilDigit_length (chSub : UInt8) (text : List UInt8) :
    (StringFilter.untilDigit chSub text).length = text.length := by
  induction text with
  | nil => rfl
  | cons byte text induction =>
      rw [StringFilter.untilDigit]
      split
      · rfl
      · rw [List.length_cons, List.length_cons, induction]

theorem not_mem_untilDigit {chSub byte : UInt8} (other : chSub ≠ byte) {text : List UInt8}
    (none : byte ∉ text) : byte ∉ StringFilter.untilDigit chSub text := by
  induction text with
  | nil => exact List.not_mem_nil
  | cons first text induction =>
      have here : byte ≠ first := fun same => none (same ▸ List.mem_cons_self)
      have later : byte ∉ text := fun member => none (List.mem_cons_of_mem _ member)
      rw [StringFilter.untilDigit]
      split
      · exact none
      · intro member
        rcases List.mem_cons.mp member with same | behind
        · split at same
          · exact other same.symm
          · exact here same
        · exact induction later behind

theorem TagLine.tsptr_short (line : TagLine) : line.tsptr.length ≤ labelNameLen := by
  rw [tsptr, untilDigit_length]
  have cut : (trimmed StringFilter.isBlank line.localTag).length ≤ line.localTag.length :=
    ((List.rdropWhile_prefix _ _).length_le).trans (List.length_dropWhile_le _ _)
  exact cut.trans line.short

theorem TagLine.tsptr_terminated (line : TagLine) : 0 ∉ line.tsptr :=
  not_mem_untilDigit (by decide) fun member => line.terminated (trimmed_subset member)

/-- It is what the pointer returned points to, whatever lies behind the line in memory. -/
theorem TagLine.text_tsptr (line : TagLine) {beyond memory : List UInt8} {fptr : Nat}
    (ran : StringFilter.run 63 (line.localTag ++ 0 :: beyond) = some (fptr, memory)) :
    Terminated.text 0 (memory.drop fptr) = line.tsptr :=
  StringFilter.text_of_run (by decide) line.terminated ran

/-- The tags, each with a comma behind it. -/
def listed (tags : List (List UInt8)) : List UInt8 := tags.flatMap (· ++ [44])

theorem listed_append (tags more : List (List UInt8)) :
    listed (tags ++ more) = listed tags ++ listed more := List.flatMap_append

theorem listed_eq_joined {tags : List (List UInt8)} (some : tags ≠ []) :
    listed tags = joined tags ++ [44] := by
  induction tags with
  | nil => exact absurd rfl some
  | cons tag tags induction =>
      rw [listed, List.flatMap_cons]
      cases tags with
      | nil =>
          rw [joined, List.intercalate_singleton, List.flatMap_nil, List.append_nil]
      | cons next tags =>
          have later := induction (List.cons_ne_nil _ _)
          rw [listed] at later
          rw [later, joined, joined, List.intercalate_cons_cons]
          simp only [List.append_assoc]

theorem length_listed_le {tags : List (List UInt8)} (short : ∀ tag ∈ tags, tag.length ≤ labelNameLen) :
    (listed tags).length ≤ (labelNameLen + 1) * tags.length := by
  induction tags with
  | nil => exact Nat.le_refl 0
  | cons tag tags induction =>
      have first := short tag List.mem_cons_self
      have later := induction fun other member => short other (List.mem_cons_of_mem _ member)
      rw [listed, List.flatMap_cons, List.length_append, List.length_append, List.length_singleton,
        List.length_cons, Nat.mul_add_one]
      rw [listed] at later
      omega

/-- Ten tags with their commas fit the label. -/
theorem strcat_tag {tags : List (List UInt8)} (short : ∀ tag ∈ tags, tag.length ≤ labelNameLen)
    (few : tags.length < maxLabelNum) {tag : List UInt8} (shortTag : tag.length ≤ labelNameLen) :
    (strcat tag (listed tags)).bind (strcat [44]) = some (listed (tags ++ [tag])) := by
  have length := length_listed_le short
  have size : localLabelSize = 191 := rfl
  have width : labelNameLen = 18 := rfl
  have limit : maxLabelNum = 10 := rfl
  have room : (listed tags).length + tag.length < localLabelSize := by
    rw [width] at length shortTag
    omega
  have roomComma : (listed tags ++ tag).length + [(44 : UInt8)].length < localLabelSize := by
    rw [List.length_append, List.length_singleton]
    rw [width] at length shortTag
    omega
  rw [strcat, if_pos room, Option.bind_some, strcat, if_pos roomComma, listed_append,
    List.append_assoc]
  simp [listed]

theorem confirmedTags_cons (line : TagLine) (lines : List TagLine) :
    confirmedTags (line :: lines) =
      if line.localTag = [] then []
      else if line.tsptr = [] then confirmedTags lines
      else if line.confirmed then line.tsptr :: confirmedTags lines
      else confirmedTags lines := by
  rw [confirmedTags, List.takeWhile_cons]
  by_cases ends : line.localTag = []
  · rw [if_pos ends, if_neg (by simp [ends])]
    rfl
  · rw [if_neg ends, if_pos (by simp [ends]), List.filter_cons]
    by_cases blank : line.tsptr = []
    · rw [if_pos blank, if_neg (by simp [blank])]
      rfl
    · rw [if_neg blank]
      by_cases confirmed : line.confirmed = true
      · rw [if_pos confirmed, if_pos (by simp [blank, confirmed]), List.map_cons]
        rfl
      · rw [if_neg confirmed, if_neg (by simp [confirmed])]
        rfl

/-- The loop never leaves `local_label`. -/
theorem tagLoop_eq (lines : List TagLine) {tags : List (List UInt8)}
    (short : ∀ tag ∈ tags, tag.length ≤ labelNameLen) (few : tags.length < maxLabelNum) :
    tagLoop lines (listed tags) tags.length =
      some (listed (tags ++ (confirmedTags lines).take (10 - tags.length))) := by
  have limit : maxLabelNum = 10 := rfl
  induction lines generalizing tags with
  | nil =>
      have none : confirmedTags [] = [] := rfl
      rw [tagLoop, none, List.take_nil, List.append_nil]
  | cons line lines induction =>
      rw [tagLoop, confirmedTags_cons]
      by_cases ends : line.localTag = []
      · rw [if_pos ends, if_pos ends, List.take_nil, List.append_nil]
      · rw [if_neg ends, if_neg ends]
        by_cases blank : line.tsptr = []
        · rw [if_pos blank, if_pos blank]
          exact induction short few
        · rw [if_neg blank, if_neg blank]
          by_cases confirmed : line.confirmed = true
          · have left : 10 - tags.length = 10 - (tags.length + 1) + 1 := by omega
            have longer : (tags ++ [line.tsptr]).length = tags.length + 1 := by
              rw [List.length_append, List.length_singleton]
            have shortAll : ∀ tag ∈ tags ++ [line.tsptr], tag.length ≤ labelNameLen := by
              intro tag member
              rcases List.mem_append.mp member with old | new
              · exact short tag old
              · rw [List.mem_singleton.mp new]
                exact line.tsptr_short
            rw [if_pos confirmed, if_pos confirmed, strcat_tag short few line.tsptr_short, left,
              List.take_succ_cons]
            dsimp only
            by_cases more : tags.length + 1 < 10
            · have rest := induction shortAll (longer ▸ more)
              rw [longer, List.append_assoc, List.singleton_append] at rest
              rw [if_pos more]
              exact rest
            · have full : 10 - (tags.length + 1) = 0 := by omega
              rw [if_neg more, full, List.take_zero]
          · rw [if_neg confirmed, if_neg confirmed]
            exact induction short few

/-- The label is that of the accepted tags; without one there is no comma to remove. -/
theorem drawBiTaggingBox_eq (lines : List TagLine) :
    drawBiTaggingBox lines =
      if acceptedTags lines = [] then none else some (joined (acceptedTags lines)) := by
  have loop : tagLoop lines (listed []) 0 = some (listed ([] ++ acceptedTags lines)) :=
    tagLoop_eq lines (fun tag member => absurd member List.not_mem_nil) (by decide)
  have start : tagLoop lines [] 0 = some (listed (acceptedTags lines)) := loop
  rw [drawBiTaggingBox, start]
  dsimp only
  by_cases none : acceptedTags lines = []
  · rw [if_pos none, none]
    rfl
  · have length : ¬(listed (acceptedTags lines)).length = 0 := by
      rw [listed_eq_joined none, List.length_append, List.length_singleton]
      omega
    rw [if_neg none, if_neg length, listed_eq_joined none, List.dropLast_concat]

theorem acceptedTags_each {lines : List TagLine} :
    ∀ tag ∈ acceptedTags lines, tag ≠ [] ∧ 0 ∉ tag ∧ tag.length ≤ labelNameLen := by
  intro tag member
  rcases List.mem_map.mp (List.mem_of_mem_take member) with ⟨line, lineMember, rfl⟩
  have accepted := (List.mem_filter.mp lineMember).2
  refine ⟨?_, line.tsptr_terminated, line.tsptr_short⟩
  rintro blank
  rw [blank] at accepted
  exact Bool.false_ne_true accepted

/-! ## Rows -/

/-- The loop ends inside the array if a row is empty. -/
theorem printRows_isSome_iff (rows : List (List UInt8)) :
    (printRows rows).isSome = true ↔ ∃ row ∈ rows, row.headD 0 = 0 := by
  induction rows with
  | nil => simp [printRows]
  | cons row rows induction =>
      rw [printRows]
      by_cases empty : row.headD 0 = 0
      · rw [if_pos empty]
        exact ⟨fun _ => ⟨row, List.mem_cons_self, empty⟩, fun _ => rfl⟩
      · rw [if_neg empty, Option.isSome_map, induction]
        constructor
        · rintro ⟨other, member, first⟩
          exact ⟨other, List.mem_cons_of_mem _ member, first⟩
        · rintro ⟨other, member, first⟩
          rcases List.mem_cons.mp member with rfl | later
          · exact absurd first empty
          · exact ⟨other, later, first⟩

theorem headD_filledRow {text : List UInt8} (terminated : 0 ∉ text) :
    (filledRow text).headD 0 = 0 ↔ text = [] := by
  cases text with
  | nil => exact ⟨fun _ => rfl, fun _ => by decide⟩
  | cons byte text =>
      constructor
      · intro first
        exact absurd (first ▸ List.mem_cons_self) terminated
      · intro empty
        cases empty

/-- The printing loop ends inside the rows if one of them is left over or holds nothing. -/
theorem printRows_filled_iff {texts : List (List UInt8)} (terminated : ∀ text ∈ texts, 0 ∉ text)
    (count : Nat) :
    (printRows (texts.map filledRow ++ List.replicate count emptyRow)).isSome = true ↔
      [] ∈ texts ∨ count ≠ 0 := by
  rw [printRows_isSome_iff]
  constructor
  · rintro ⟨row, member, first⟩
    rcases List.mem_append.mp member with filled | unused
    · rcases List.mem_map.mp filled with ⟨text, textMember, rfl⟩
      rw [headD_filledRow (terminated text textMember)] at first
      exact .inl (first ▸ textMember)
    · exact .inr (List.mem_replicate.mp unused).1
  · rintro (empty | unused)
    · refine ⟨filledRow [], List.mem_append_left _ (List.mem_map_of_mem empty), ?_⟩
      exact (headD_filledRow List.not_mem_nil).mpr rfl
    · refine ⟨emptyRow, List.mem_append_right _ (List.mem_replicate.mpr ⟨unused, rfl⟩), ?_⟩
      decide

/-! ## The pieces of a label -/

theorem joined_concat (tags : List (List UInt8)) (last : List UInt8) :
    joined (tags ++ [last]) = listed tags ++ last := by
  have both := listed_eq_joined (List.append_ne_nil_of_right_ne_nil tags (List.cons_ne_nil last []))
  rw [listed_append] at both
  have single : listed [last] = last ++ [44] := List.flatMap_singleton _ _
  rw [single, ← List.append_assoc] at both
  exact (List.append_cancel_right both).symm

/-- The label falls into the pieces of its tags. -/
theorem splitOn_joined {tags : List (List UInt8)} (some : tags ≠ []) :
    (joined tags).splitOn 44 = tags.flatMap (List.splitOn 44) := by
  induction tags with
  | nil => exact absurd rfl some
  | cons tag tags induction =>
      rw [List.flatMap_cons]
      cases tags with
      | nil => rw [joined, List.intercalate_singleton, List.flatMap_nil, List.append_nil]
      | cons next tags =>
          rw [← induction (List.cons_ne_nil _ _), joined, List.intercalate_cons_cons,
            List.append_assoc, List.singleton_append, List.splitOn_append_cons_self]
          rfl

theorem getLast?_splitOn_iff (label : List UInt8) :
    (label.splitOn 44).getLast? = some [] ↔ label = [] ∨ label.getLast? = some 44 := by
  constructor
  · intro last
    rcases List.getLast?_eq_some_iff.mp last with ⟨parts, split⟩
    have whole : joined (parts ++ [[]]) = label := by
      rw [← split]
      exact List.intercalate_splitOn 44
    rw [joined_concat, List.append_nil] at whole
    by_cases none : parts = []
    · rw [none] at whole
      exact .inl whole.symm
    · rw [listed_eq_joined none] at whole
      rw [← whole]
      exact .inr List.getLast?_concat
  · rintro (rfl | last)
    · rfl
    · rcases List.getLast?_eq_some_iff.mp last with ⟨front, rfl⟩
      rw [List.splitOn_append_cons_self]
      exact List.getLast?_concat

/-! ## Printing a label -/

section Tags

variable {tags : List (List UInt8)} (some : tags ≠ [])
  (each : ∀ tag ∈ tags, tag ≠ [] ∧ 0 ∉ tag ∧ tag.length ≤ labelNameLen)

include some

theorem length_splitOn_joined : ((joined tags).splitOn 44).length = pieces tags := by
  rw [splitOn_joined some, List.length_flatMap, pieces]
  congr 1
  exact List.map_congr_left fun tag _ => length_splitOn 44 tag

include each

theorem splitOn_joined_each :
    ∀ part ∈ (joined tags).splitOn 44, 0 ∉ part ∧ part.length ≤ labelNameLen := by
  rw [splitOn_joined some]
  intro part member
  rcases List.mem_flatMap.mp member with ⟨tag, tagMember, inTag⟩
  rcases each tag tagMember with ⟨_, terminated, short⟩
  rcases splitOn_each 44 tag part inTag with ⟨_, within, shorter⟩
  exact ⟨fun terminator => terminated (within 0 terminator), shorter.trans short⟩

theorem splitLabels_pieces :
    splitLabels (joined tags) slabel =
      filledRows (maxLabelNum / 2) (pairRows ((joined tags).splitOn 44)) := by
  have whole : joined ((joined tags).splitOn 44) = joined tags := List.intercalate_splitOn 44
  conv_lhs => rw [← whole]
  exact splitLabels_joined (List.splitOn_ne_nil 44 _)
    (fun part member => (splitOn_each 44 _ part member).1)
    (fun row member => (pairRows_solid (splitOn_joined_each some each) row member).2)

/-- The last piece is empty if the last tag ends with a comma. -/
theorem getLast?_joined_iff :
    ((joined tags).splitOn 44).getLast? = .some [] ↔
      ∃ earlier tag, tags = earlier ++ [tag ++ [44]] := by
  rcases List.eq_nil_or_concat' tags with none | ⟨earlier, last, rfl⟩
  · exact absurd none some
  · have nonempty := (each last (List.mem_append_right _ List.mem_cons_self)).1
    rw [getLast?_splitOn_iff, joined_concat, List.getLast?_append_of_ne_nil _ nonempty]
    constructor
    · rintro (none | comma)
      · exact absurd (List.append_eq_nil_iff.mp none).2 nonempty
      · rcases List.getLast?_eq_some_iff.mp comma with ⟨tag, rfl⟩
        exact ⟨earlier, tag, rfl⟩
    · rintro ⟨before, tag, same⟩
      rw [(List.cons.inj (List.append_inj_right' same rfl)).1]
      exact .inr List.getLast?_concat

theorem showBookInfo_isSome_iff : (showBookInfo (joined tags)).isSome = true ↔ RoomFor tags := by
  have length := length_splitOn_joined some
  have rows := length_pairRows ((joined tags).splitOn 44)
  have count : maxLabelNum / 2 = 5 := rfl
  have terminated : ∀ row ∈ pairRows ((joined tags).splitOn 44), 0 ∉ row :=
    fun row member => (pairRows_solid (splitOn_joined_each some each) row member).1
  rw [showBookInfo, splitLabels_pieces some each, filledRows, RoomFor, and_iff_right some,
    ← getLast?_joined_iff some each]
  rw [length] at rows
  by_cases fits : (pairRows ((joined tags).splitOn 44)).length ≤ maxLabelNum / 2
  · rw [if_pos fits, Option.bind_some, printRows_filled_iff terminated, nil_mem_pairRows_iff,
      length]
    constructor
    · rintro (⟨odd, last⟩ | unused)
      · by_cases few : pieces tags ≤ 8
        · exact .inl few
        · exact .inr ⟨by omega, last⟩
      · exact .inl (by omega)
    · rintro (few | ⟨nine, last⟩)
      · exact .inr (by omega)
      · exact .inl ⟨by omega, last⟩
  · rw [if_neg fits]
    constructor
    · intro none
      exact absurd none Bool.false_ne_true
    · rintro (few | ⟨nine, _⟩)
      · omega
      · omega

end Tags

/-- Tagging leaves a label without leaving `local_label`, and both pages show it without leaving
its rows, exactly when a tag is accepted and the tags have at most eight pieces between commas, or
nine with an empty last one. -/
theorem tagging_stays_inside_iff (lines : List TagLine) :
    (∃ label, drawBiTaggingBox lines = some label ∧ (showBookInfo label).isSome = true ∧
        (showNewbookInfo label).isSome = true) ↔ RoomFor (acceptedTags lines) := by
  rw [drawBiTaggingBox_eq]
  by_cases none : acceptedTags lines = []
  · rw [if_pos none]
    constructor
    · rintro ⟨label, drawn, _⟩
      cases drawn
    · intro room
      exact absurd none room.1
  · have shown := showBookInfo_isSome_iff none acceptedTags_each
    rw [if_neg none]
    constructor
    · rintro ⟨label, drawn, printed, _⟩
      cases drawn
      exact shown.mp printed
    · intro room
      refine ⟨_, rfl, shown.mpr room, ?_⟩
      rw [showNewbookInfo]
      split
      · rfl
      · exact shown.mpr room

/-- The tag "A", confirmed. -/
def sampleLine : TagLine where
  localTag := [65]
  terminated := by decide
  short := by decide
  confirmed := true

/-- Without a tag the index is -1, and with nine tags all rows are filled and the one behind them is
read. -/
theorem tagging_leaves :
    drawBiTaggingBox [] = none ∧
      (drawBiTaggingBox (List.replicate 9 sampleLine)).isSome = true ∧
      (drawBiTaggingBox (List.replicate 9 sampleLine)).bind showBookInfo = none := by
  decide

end Tagging

end Bookshelfdq
