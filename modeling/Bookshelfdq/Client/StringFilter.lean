import Bookshelfdq.Foundation.Terminated
import Bookshelfdq.Foundation.Trimmed

/-! # Blanks and tabs

`string_filter` of `ncgui.c`, on a memory that begins at `fstr` and ends where nothing may be read
any more. A pointer that leaves it is a fault. -/

namespace Bookshelfdq

namespace StringFilter

/-- `' '` or `'\t'` -/
def isBlank (byte : UInt8) : Bool := byte == 32 || byte == 9

/-- The first loop, which moves `fptr`. -/
def skipBlanks : List UInt8 → Nat → Option Nat
  | [], _ => none
  | byte :: rest, fptr => if isBlank byte then skipBlanks rest (fptr + 1) else some fptr

/-- The second loop, which moves `frptr` back. -/
def clearBlanks (memory : List UInt8) : Nat → List UInt8
  | 0 => if isBlank (memory.getD 0 0) then memory.set 0 0 else memory
  | frptr + 1 =>
      if isBlank (memory.getD (frptr + 1) 0) then clearBlanks (memory.set (frptr + 1) 0) frptr
      else memory

/-- The third loop, on the memory from `frptr` on. It ends at the digit 0. -/
def substitute (chSub : UInt8) : List UInt8 → Option (List UInt8)
  | [] => none
  | byte :: rest =>
      if byte = 48 then some (byte :: rest)
      else (substitute chSub rest).map ((if byte = 9 then chSub else byte) :: ·)

/-- `string_filter`: the pointer it returns, from `fstr`, and the memory. -/
def run (chSub : UInt8) (memory : List UInt8) : Option (Nat × List UInt8) :=
  let flen := (Terminated.text 0 memory).length
  if flen > 0 then
    match skipBlanks memory 0 with
    | none => none
    | some fptr =>
        let cleared := clearBlanks memory (flen - 1)
        if chSub = 0 then some (fptr, cleared)
        else (substitute chSub (cleared.drop fptr)).map fun rest => (fptr, cleared.take fptr ++ rest)
  else some (0, memory)

/-! ## What it is for -/

def replaceTabs (chSub : UInt8) (text : List UInt8) : List UInt8 :=
  text.map fun byte => if byte = 9 then chSub else byte

/-- The text without the blanks at its ends, and with another character for each tab that is left. -/
def filtered (chSub : UInt8) (text : List UInt8) : List UInt8 :=
  replaceTabs chSub (trimmed isBlank text)

/-- Whatever lies behind the terminator, it is not read and stays as it is; the text returned is the
filtered one, and is filtered again without a change. -/
def Filters (chSub : UInt8) (text : List UInt8) : Prop :=
  ∃ fptr changed, changed.length = text.length + 1 ∧ fptr ≤ text.length ∧ ∀ beyond,
    run chSub (text ++ 0 :: beyond) = some (fptr, changed ++ beyond) ∧
      Terminated.text 0 ((changed ++ beyond).drop fptr) = filtered chSub text ∧
      run chSub ((changed ++ beyond).drop fptr) = some (0, (changed ++ beyond).drop fptr)

/-! ## The loops -/

theorem skipBlanks_text {text : List UInt8} (solid : 0 ∉ text) (beyond : List UInt8) (fptr : Nat) :
    skipBlanks (text ++ 0 :: beyond) fptr = some (fptr + (text.takeWhile isBlank).length) := by
  induction text generalizing fptr with
  | nil => rfl
  | cons byte text induction =>
      have later : 0 ∉ text := fun member => solid (List.mem_cons_of_mem _ member)
      rw [List.cons_append, skipBlanks, List.takeWhile_cons]
      split
      · rw [induction later, List.length_cons]
        congr 1
        omega
      · rfl

theorem zeros_append_zero (count : Nat) (beyond : List UInt8) :
    List.replicate count (0 : UInt8) ++ 0 :: beyond = 0 :: (List.replicate count 0 ++ beyond) := by
  rw [← List.cons_append, ← List.replicate_succ, List.replicate_succ', List.append_assoc]
  rfl

theorem clearBlanks_eq (memory : List UInt8) (frptr : Nat) :
    clearBlanks memory frptr =
      if isBlank (memory.getD frptr 0) then
        if frptr = 0 then memory.set frptr 0 else clearBlanks (memory.set frptr 0) (frptr - 1)
      else memory := by
  cases frptr with
  | zero => rfl
  | succ frptr => rw [clearBlanks, if_neg (Nat.succ_ne_zero frptr), Nat.add_sub_cancel]

/-- What is cleared is as long as what is dropped. -/
theorem clearBlanks_text {text : List UInt8} (some : text ≠ []) (rest : List UInt8) :
    clearBlanks (text ++ rest) (text.length - 1) = text.rdropWhile isBlank ++
      (List.replicate (text.length - (text.rdropWhile isBlank).length) 0 ++ rest) := by
  induction text using List.reverseRecOn generalizing rest with
  | nil => exact absurd rfl some
  | append_singleton text last induction =>
      have here : (text ++ last :: rest).getD text.length 0 = last := by
        rw [List.getD_eq_getElem?_getD, List.getElem?_append_right (Nat.le_refl _), Nat.sub_self]
        rfl
      have cleared : (text ++ last :: rest).set text.length 0 = text ++ 0 :: rest := by
        rw [List.set_append_right _ _ (Nat.le_refl _), Nat.sub_self]
        rfl
      have shorter : (text.rdropWhile isBlank).length ≤ text.length :=
        (List.rdropWhile_prefix isBlank text).length_le
      rw [List.length_append, List.length_singleton, Nat.add_sub_cancel, List.rdropWhile_concat,
        List.append_assoc, List.singleton_append, clearBlanks_eq, here, cleared]
      cases blank : isBlank last with
      | false =>
          rw [if_neg Bool.false_ne_true, if_neg Bool.false_ne_true, List.length_append,
            List.length_singleton, Nat.sub_self, List.append_assoc]
          rfl
      | true =>
          have more : text.length + 1 - (text.rdropWhile isBlank).length =
              text.length - (text.rdropWhile isBlank).length + 1 := by omega
          rw [if_pos rfl, if_pos rfl, more, List.replicate_succ', List.append_assoc,
            List.singleton_append]
          cases text with
          | nil => rfl
          | cons first text =>
              have nonempty : (first :: text).length ≠ 0 := Nat.succ_ne_zero _
              rw [if_neg nonempty]
              exact induction (List.cons_ne_nil _ _) (0 :: rest)

theorem substitute_digit (chSub : UInt8) {front : List UInt8} (none : 48 ∉ front)
    (rest : List UInt8) :
    substitute chSub (front ++ 48 :: rest) = some (replaceTabs chSub front ++ 48 :: rest) := by
  induction front with
  | nil => rfl
  | cons byte front induction =>
      have other : byte ≠ 48 := fun same => none (same ▸ List.mem_cons_self)
      have later : 48 ∉ front := fun member => none (List.mem_cons_of_mem _ member)
      rw [List.cons_append, substitute, if_neg other, induction later]
      rfl

/-- Without the digit the loop leaves the memory. -/
theorem substitute_none (chSub : UInt8) {memory : List UInt8} (none : 48 ∉ memory) :
    substitute chSub memory = .none := by
  induction memory with
  | nil => rfl
  | cons byte memory induction =>
      have other : byte ≠ 48 := fun same => none (same ▸ List.mem_cons_self)
      have later : 48 ∉ memory := fun member => none (List.mem_cons_of_mem _ member)
      rw [substitute, if_neg other, induction later]
      rfl

/-! ## Texts -/

theorem mem_dropWhile_digit {front rest : List UInt8} (none : 48 ∉ front) :
    (front ++ 48 :: rest).dropWhile (· != 48) = 48 :: rest := by
  have passed : ∀ byte ∈ front, (byte != 48) = true := by
    intro byte member
    exact bne_iff_ne.mpr fun same => none (same ▸ member)
  rw [List.dropWhile_append_of_pos passed]
  rfl

section Text

variable {chSub : UInt8} (character : chSub ≠ 0) (other : chSub ≠ 9) {text : List UInt8}
  (solid : 0 ∉ text)

/-- Only the substitute is new. -/
theorem not_mem_replaceTabs {byte : UInt8} (notSub : chSub ≠ byte) (none : byte ∉ text) :
    byte ∉ replaceTabs chSub text := by
  intro member
  rcases List.mem_map.mp member with ⟨old, oldMember, replaced⟩
  split at replaced
  · exact notSub replaced
  · exact none (replaced ▸ oldMember)

include other in
theorem tab_not_mem_replaceTabs (text : List UInt8) : 9 ∉ replaceTabs chSub text := by
  intro member
  rcases List.mem_map.mp member with ⟨byte, _, replaced⟩
  split at replaced
  · exact other replaced
  · exact ‹¬byte = 9› replaced

include other in
theorem replaceTabs_eq_self_iff (text : List UInt8) :
    replaceTabs chSub text = text ↔ 9 ∉ text := by
  constructor
  · intro same tab
    rw [← same] at tab
    exact tab_not_mem_replaceTabs other text tab
  · intro none
    have kept : ∀ byte ∈ text, (if byte = 9 then chSub else byte) = id byte := by
      intro byte member
      apply if_neg
      rintro rfl
      exact none member
    exact (List.map_congr_left kept).trans (List.map_id text)

theorem keeps_solid {byte : UInt8} (kept : isBlank byte = false) :
    (if byte = 9 then chSub else byte) = byte := by
  apply if_neg
  rintro rfl
  exact absurd kept (by decide)

/-- Nothing is left to trim. -/
theorem filtered_ends :
    (filtered chSub text).takeWhile isBlank = [] ∧
      (filtered chSub text).rdropWhile isBlank = filtered chSub text := by
  by_cases none : trimmed isBlank text = []
  · rw [filtered, none]
    exact ⟨rfl, rfl⟩
  · rcases trimmed_ends none with
      ⟨⟨first, later, begins, firstKept⟩, ⟨earlier, last, ends, lastKept⟩⟩
    constructor
    · rw [filtered, begins, replaceTabs, List.map_cons, keeps_solid firstKept,
        List.takeWhile_cons_of_neg (by simp [firstKept])]
    · rw [filtered, ends, replaceTabs, List.map_append, List.map_singleton, keeps_solid lastKept,
        List.rdropWhile_concat_neg _ _ _ (by simp [lastKept])]

include character solid in
/-- The third loop runs on the text without its blanks, and behind it on the terminators. -/
theorem run_text (some : text ≠ []) (beyond : List UInt8) :
    run chSub (text ++ 0 :: beyond) =
      (substitute chSub ((text.rdropWhile isBlank ++
        (List.replicate (text.length - (text.rdropWhile isBlank).length) 0 ++ 0 :: beyond)).drop
          (text.takeWhile isBlank).length)).map fun rest =>
        ((text.takeWhile isBlank).length, (text.rdropWhile isBlank ++
          (List.replicate (text.length - (text.rdropWhile isBlank).length) 0 ++ 0 :: beyond)).take
            (text.takeWhile isBlank).length ++ rest) := by
  rw [run, Terminated.text_append solid]
  dsimp only
  rw [if_pos (List.length_pos_iff.mpr some), skipBlanks_text solid, Nat.zero_add]
  dsimp only
  rw [if_neg character, clearBlanks_text some]

include character solid in
/-- A text of blanks sends the third loop out of the memory. -/
theorem run_blank (some : text ≠ []) (blank : trimmed isBlank text = []) :
    run chSub (text ++ [0]) = none := by
  rcases trimmed_cases isBlank text with ⟨all, _, dropped⟩ | ⟨_, kept, _⟩
  · have skipped : text.takeWhile isBlank = text := List.takeWhile_eq_self_iff.mpr all
    rw [run_text character solid some, dropped, skipped, List.nil_append, List.length_nil,
      Nat.sub_zero, substitute_none]
    · rfl
    · rw [List.drop_left' List.length_replicate]
      decide
  · exact absurd blank kept

include character solid in
theorem run_trimmed (kept : trimmed isBlank text ≠ []) (beyond : List UInt8) :
    run chSub (text ++ 0 :: beyond) =
      (substitute chSub (trimmed isBlank text ++ 0 ::
        (List.replicate (text.length - (text.rdropWhile isBlank).length) 0 ++ beyond))).map
          fun rest => ((text.takeWhile isBlank).length, text.takeWhile isBlank ++ rest) := by
  have some : text ≠ [] := by
    intro none
    rw [none] at kept
    exact kept rfl
  rcases trimmed_cases isBlank text with ⟨_, none, _⟩ | ⟨_, _, dropped⟩
  · exact absurd none kept
  · rw [run_text character solid some, zeros_append_zero]
    conv_lhs => rw [dropped, List.append_assoc, List.drop_left, List.take_left, ← dropped]

/-- The digit that ends the third loop, with no tab behind it. -/
theorem exists_digit (digit : 48 ∈ text) :
    ∃ front rest, text = front ++ 48 :: rest ∧ 48 ∉ front ∧
      (9 ∉ text.dropWhile (· != 48) ↔ 9 ∉ rest) := by
  rcases List.eq_append_cons_of_mem digit with ⟨front, rest, split, first⟩
  refine ⟨front, rest, split, first, ?_⟩
  rw [split, mem_dropWhile_digit first, List.mem_cons, not_or]
  exact and_iff_right (by decide)

include character solid in
/-- The text found in memory after the third loop, and what is behind it. -/
theorem run_digit {front rest : List UInt8} (cut : trimmed isBlank text = front ++ 48 :: rest)
    (first : 48 ∉ front) (beyond : List UInt8) :
    run chSub (text ++ 0 :: beyond) =
      some ((text.takeWhile isBlank).length, text.takeWhile isBlank ++
        (replaceTabs chSub front ++ 48 :: (rest ++ 0 ::
          (List.replicate (text.length - (text.rdropWhile isBlank).length) 0 ++ beyond)))) := by
  have kept : trimmed isBlank text ≠ [] := by
    rw [cut]
    exact List.append_ne_nil_of_right_ne_nil _ (List.cons_ne_nil _ _)
  rw [run_trimmed character solid kept, cut, List.append_assoc, List.cons_append,
    substitute_digit chSub first, Option.map_some]

end Text

section Filters

variable {chSub : UInt8} (character : chSub ≠ 0) (other : chSub ≠ 9) (digitSub : chSub ≠ 48)
  {text : List UInt8} (solid : 0 ∉ text) {front rest : List UInt8}
  (cut : trimmed isBlank text = front ++ 48 :: rest)

include cut in
theorem filtered_cut :
    filtered chSub text = replaceTabs chSub front ++ 48 :: replaceTabs chSub rest := by
  rw [filtered, cut, replaceTabs, List.map_append, List.map_cons]
  rfl

include character solid cut in
theorem terminator_not_mem : 0 ∉ replaceTabs chSub front ++ 48 :: rest := by
  have whole : 0 ∉ front ++ 48 :: rest := fun member => solid (trimmed_subset (cut ▸ member))
  intro member
  rcases List.mem_append.mp member with before | behind
  · exact not_mem_replaceTabs character (fun early => whole (List.mem_append_left _ early)) before
  · exact whole (List.mem_append_right _ behind)

include character other digitSub solid cut in
theorem filters_of_digit (first : 48 ∉ front) (tabless : 9 ∉ rest) : Filters chSub text := by
  have kept := (replaceTabs_eq_self_iff other rest).mpr tabless
  have shown : filtered chSub text = replaceTabs chSub front ++ 48 :: rest := by
    rw [filtered_cut cut, kept]
  have terminated := terminator_not_mem character solid cut
  have shorter : (text.rdropWhile isBlank).length ≤ text.length :=
    (List.rdropWhile_prefix isBlank text).length_le
  generalize zeros : List.replicate (text.length - (text.rdropWhile isBlank).length) (0 : UInt8) =
    cleared
  have clearedLength : cleared.length = text.length - (text.rdropWhile isBlank).length := by
    rw [← zeros, List.length_replicate]
  have parts : (text.rdropWhile isBlank).length =
      (text.takeWhile isBlank).length + (front.length + (rest.length + 1)) := by
    rcases trimmed_cases isBlank text with ⟨_, none, _⟩ | ⟨_, _, dropped⟩
    · rw [cut] at none
      exact absurd none (List.append_ne_nil_of_right_ne_nil _ (List.cons_ne_nil _ _))
    · rw [dropped, cut, List.length_append, List.length_append, List.length_cons]
  have replacedLength : (replaceTabs chSub front).length = front.length := List.length_map _
  refine ⟨(text.takeWhile isBlank).length, text.takeWhile isBlank ++
    (replaceTabs chSub front ++ 48 :: (rest ++ 0 :: cleared)), ?_, ?_, ?_⟩
  · simp only [List.length_append, List.length_cons, replacedLength, clearedLength]
    omega
  · omega
  · intro beyond
    have behind : (text.takeWhile isBlank ++ (replaceTabs chSub front ++
        48 :: (rest ++ 0 :: cleared)) ++ beyond).drop (text.takeWhile isBlank).length =
          (replaceTabs chSub front ++ 48 :: rest) ++ 0 :: (cleared ++ beyond) := by
      rw [List.append_assoc, List.drop_left]
      simp only [List.append_assoc, List.cons_append]
    rw [behind]
    refine ⟨?_, ?_, ?_⟩
    · rw [run_digit character solid cut first, zeros]
      simp only [List.append_assoc, List.cons_append]
    · rw [Terminated.text_append terminated, shown]
    · have ends : (replaceTabs chSub front ++ 48 :: rest).takeWhile isBlank = [] ∧
          (replaceTabs chSub front ++ 48 :: rest).rdropWhile isBlank =
            replaceTabs chSub front ++ 48 :: rest := by
        rw [← shown]
        exact filtered_ends
      have again : trimmed isBlank (replaceTabs chSub front ++ 48 :: rest) =
          replaceTabs chSub front ++ 48 :: rest := by
        have split := List.takeWhile_append_dropWhile (p := isBlank)
          (l := replaceTabs chSub front ++ 48 :: rest)
        rw [ends.1, List.nil_append] at split
        rw [trimmed, split, ends.2]
      have replaced := (replaceTabs_eq_self_iff other (replaceTabs chSub front)).mpr
        (tab_not_mem_replaceTabs other front)
      rw [run_digit character terminated again (not_mem_replaceTabs digitSub first), replaced, ends.1,
        ends.2, Nat.sub_self]
      simp only [List.length_nil, List.replicate_zero, List.nil_append, List.append_assoc,
        List.cons_append]

include character other solid in
theorem digit_of_filters (some : text ≠ []) (filters : Filters chSub text) :
    48 ∈ trimmed isBlank text ∧ 9 ∉ (trimmed isBlank text).dropWhile (· != 48) := by
  rcases filters with ⟨fptr, changed, _, _, filters⟩
  rcases filters [] with ⟨ran, shown, _⟩
  by_cases blank : trimmed isBlank text = []
  · rw [run_blank character solid some blank] at ran
    cases ran
  · have digit : 48 ∈ trimmed isBlank text := by
      by_contra none
      rw [run_trimmed character solid blank, substitute_none] at ran
      · cases ran
      · simp [none]
    rcases exists_digit digit with ⟨front, rest, cut, first, tabless⟩
    refine ⟨digit, tabless.mpr ?_⟩
    rw [run_digit character solid cut first] at ran
    rcases Prod.mk.inj (Option.some.inj ran) with ⟨place, memory⟩
    have behind : text.takeWhile isBlank ++ (replaceTabs chSub front ++ 48 :: (rest ++ 0 ::
        (List.replicate (text.length - (text.rdropWhile isBlank).length) 0 ++ []))) =
          text.takeWhile isBlank ++ ((replaceTabs chSub front ++ 48 :: rest) ++ 0 ::
            (List.replicate (text.length - (text.rdropWhile isBlank).length) 0 ++ [])) := by
      simp only [List.append_assoc, List.cons_append]
    rw [← memory, ← place, behind, List.drop_left,
      Terminated.text_append (terminator_not_mem character solid cut), filtered_cut cut] at shown
    have same := List.append_cancel_left shown
    rw [← replaceTabs_eq_self_iff other]
    exact (List.cons.inj same).2.symm

end Filters

/-! ## The text returned -/

/-- What the third loop makes of a text: it stops at the digit 0. -/
def untilDigit (chSub : UInt8) : List UInt8 → List UInt8
  | [] => []
  | byte :: rest =>
      if byte = 48 then byte :: rest
      else (if byte = 9 then chSub else byte) :: untilDigit chSub rest

theorem text_substitute {chSub : UInt8} (character : chSub ≠ 0) {text : List UInt8}
    (solid : 0 ∉ text) {later memory : List UInt8}
    (ended : substitute chSub (text ++ 0 :: later) = some memory) :
    Terminated.text 0 memory = untilDigit chSub text := by
  induction text generalizing memory with
  | nil =>
      rw [List.nil_append, substitute, if_neg (by decide)] at ended
      rcases Option.map_eq_some_iff.mp ended with ⟨rest, _, rfl⟩
      rfl
  | cons byte text induction =>
      have nonzero : byte ≠ 0 := fun same => solid (same ▸ List.mem_cons_self)
      have solidLater : 0 ∉ text := fun member => solid (List.mem_cons_of_mem _ member)
      rw [List.cons_append, substitute] at ended
      rw [untilDigit]
      by_cases digit : byte = 48
      · rw [if_pos digit] at ended ⊢
        rw [← Option.some.inj ended]
        exact Terminated.text_append solid
      · rw [if_neg digit] at ended ⊢
        rcases Option.map_eq_some_iff.mp ended with ⟨rest, substituted, rfl⟩
        have kept : (if byte = 9 then chSub else byte) ≠ 0 := by
          split
          · exact character
          · exact nonzero
        rw [← induction solidLater substituted, Terminated.text_cons kept]

/-- Where the loop ends, the text returned is the text without its blanks, with the tabs before its
first digit 0 replaced. -/
theorem text_of_run {chSub : UInt8} (character : chSub ≠ 0) {text : List UInt8} (solid : 0 ∉ text)
    {beyond memory : List UInt8} {fptr : Nat}
    (ran : run chSub (text ++ 0 :: beyond) = some (fptr, memory)) :
    Terminated.text 0 (memory.drop fptr) = untilDigit chSub (trimmed isBlank text) := by
  by_cases empty : text = []
  · rw [empty] at ran ⊢
    rcases Prod.mk.inj (Option.some.inj ran) with ⟨rfl, rfl⟩
    rfl
  · by_cases blank : trimmed isBlank text = []
    · rcases trimmed_cases isBlank text with ⟨all, _, dropped⟩ | ⟨_, kept, _⟩
      · have skipped : text.takeWhile isBlank = text := List.takeWhile_eq_self_iff.mpr all
        rw [run_text character solid empty, dropped, skipped, List.nil_append, List.length_nil,
          Nat.sub_zero, List.drop_left' List.length_replicate] at ran
        rcases Option.map_eq_some_iff.mp ran with ⟨rest, substituted, same⟩
        rcases Prod.mk.inj same with ⟨rfl, rfl⟩
        rw [List.take_left' List.length_replicate, List.drop_left' List.length_replicate, blank]
        exact @text_substitute chSub character [] List.not_mem_nil beyond rest substituted
      · exact absurd blank kept
    · rw [run_trimmed character solid blank] at ran
      rcases Option.map_eq_some_iff.mp ran with ⟨rest, substituted, same⟩
      rcases Prod.mk.inj same with ⟨rfl, rfl⟩
      rw [List.drop_left]
      exact text_substitute character (fun member => solid (trimmed_subset member)) substituted

/-- With the terminator for a character no tab is replaced, and the third loop does not run. -/
theorem run_terminator {text : List UInt8} (solid : 0 ∉ text) (beyond : List UInt8) :
    ∃ fptr memory, run 0 (text ++ 0 :: beyond) = some (fptr, memory) ∧
      Terminated.text 0 (memory.drop fptr) = trimmed isBlank text := by
  by_cases empty : text = []
  · rw [empty]
    exact ⟨0, 0 :: beyond, rfl, rfl⟩
  · refine ⟨(text.takeWhile isBlank).length, text.rdropWhile isBlank ++
      (List.replicate (text.length - (text.rdropWhile isBlank).length) 0 ++ 0 :: beyond), ?_, ?_⟩
    · rw [run, Terminated.text_append solid]
      dsimp only
      rw [if_pos (List.length_pos_iff.mpr empty), skipBlanks_text solid, Nat.zero_add]
      dsimp only
      rw [if_pos rfl, clearBlanks_text empty]
    · rcases trimmed_cases isBlank text with ⟨all, blank, dropped⟩ | ⟨_, _, dropped⟩
      · have skipped : text.takeWhile isBlank = text := List.takeWhile_eq_self_iff.mpr all
        rw [dropped, skipped, blank, List.nil_append, List.length_nil, Nat.sub_zero,
          List.drop_left' List.length_replicate]
        rfl
      · rw [zeros_append_zero, dropped, List.append_assoc, List.drop_left,
          Terminated.text_append fun member => solid (trimmed_subset member)]

/-- `string_filter` does what it is for exactly on the empty text, and on a text that has the digit
0 and no tab between the first one and its last character. -/
theorem filters_iff {chSub : UInt8} (character : chSub ≠ 0) (other : chSub ≠ 9)
    (digitSub : chSub ≠ 48) {text : List UInt8} (solid : 0 ∉ text) :
    Filters chSub text ↔ text = [] ∨
      48 ∈ trimmed isBlank text ∧ 9 ∉ (trimmed isBlank text).dropWhile (· != 48) := by
  constructor
  · intro filters
    by_cases empty : text = []
    · exact .inl empty
    · exact .inr (digit_of_filters character other solid empty filters)
  · rintro (rfl | ⟨digit, tabless⟩)
    · exact ⟨0, [0], rfl, Nat.le_refl 0, fun beyond => ⟨rfl, rfl, rfl⟩⟩
    · rcases exists_digit digit with ⟨front, rest, cut, first, behind⟩
      exact filters_of_digit character other digitSub solid cut first (behind.mp tabless)

/-- `"  10	A"` has a tab behind the digit, `"	10 A"` has not. -/
theorem filters_after_digit :
    Filters 63 [9, 49, 48, 32, 65] ∧ ¬Filters 63 [32, 32, 49, 48, 9, 65] :=
  ⟨(filters_iff (by decide) (by decide) (by decide) (by decide)).mpr (by decide),
    fun filters => absurd ((filters_iff (by decide) (by decide) (by decide) (by decide)).mp filters)
      (by decide)⟩

/-- On `"A"` the third loop goes on behind the terminator, and changes a tab that it finds there. -/
theorem tab_beyond_replaced :
    run 63 [65, 0, 9, 48] = some (0, [65, 0, 63, 48]) ∧ ¬Filters 63 [65] := by
  refine ⟨by decide, ?_⟩
  rintro ⟨fptr, changed, _, _, filters⟩
  have ran := (filters []).1
  have left : run 63 ([65] ++ 0 :: []) = none := by decide
  rw [left] at ran
  cases ran

end StringFilter

end Bookshelfdq
