import Bookshelfdq.Client.DisplayWidth
import Bookshelfdq.Foundation.Terminated

/-! # The width of a text in memory

`limit_str_width` works in the memory of its argument. It looks ahead by the length that a
lead byte announces, which may be behind the terminator, and it closes the gap where it has
taken bytes out. -/

namespace Bookshelfdq

/-! ## The loops -/

/-- The variables of the loop. `memory` begins at `oldstr`, and `sptr` counts from there. -/
structure Limiting where
  memory : List UInt8
  sptr : Nat
  width : Int
  flagStop : Bool

def byteAt (memory : List UInt8) (position : Nat) : UInt8 := memory.getD position 0

/-- The inner loop, unless it takes more than `fuel` rounds. -/
def skipLoop (memory : List UInt8) : Nat → Nat → Option Nat
  | 0, _ => none
  | fuel + 1, fptr =>
      if startsChar (byteAt memory (fptr + 1)) then some (fptr + 1)
      else if byteAt memory (fptr + 1) = 0 then some (fptr + 1)
      else skipLoop memory fuel (fptr + 1)

namespace Limiting

/-- The state before the first round. -/
def start (memory : List UInt8) : Limiting where
  memory := memory
  sptr := 0
  width := 0
  flagStop := false

/-- The loop ends here. -/
def ended (state : Limiting) : Bool := byteAt state.memory state.sptr == 0 || state.flagStop

/-- The text from `sptr` on. -/
def ahead (state : Limiting) : List UInt8 :=
  Terminated.text 0 (state.memory.drop state.sptr)

/-- One round. -/
def round (limit : Int) (fuel : Nat) (state : Limiting) : Option Limiting :=
  let byte := byteAt state.memory state.sptr
  if isAscii byte then
    if state.width + 1 > limit then some { state with width := state.width + 1, flagStop := true }
    else some { state with width := state.width + 1, sptr := state.sptr + 1 }
  else
    let step := leadStep byte
    if startsChar (byteAt state.memory (state.sptr + step)) ∧ step ≤ state.ahead.length then
      some { state with
        width := state.width + 2
        flagStop := decide (state.width + 2 > limit)
        sptr := state.sptr + step }
    else
      (skipLoop state.memory fuel state.sptr).map fun fptr =>
        { state with memory := Terminated.copyDown 0 state.memory state.sptr fptr }

/-- The state after so many rounds, or where the loop has ended before. -/
def rounds (limit : Int) (fuel : Nat) : Nat → Limiting → Option Limiting
  | 0, state => some state
  | count + 1, state =>
      if state.ended then some state
      else (state.round limit fuel).bind (rounds limit fuel count)

/-- What is left in `oldstr`. -/
def oldstr (state : Limiting) : List UInt8 := Terminated.text 0 state.memory

/-- What `strncpy` copies to `newstr`. Behind the text it writes terminators. -/
def copied (state : Limiting) : List UInt8 :=
  state.oldstr.take state.sptr ++ List.replicate (state.sptr - state.oldstr.length) 0

def newstr (state : Limiting) : List UInt8 :=
  state.copied ++ if state.flagStop then [0x2E, 0x2E, 0x2E] else []

/-! ## Where `sptr` stands -/

/-- The text in memory is `front ++ ahead`, and `sptr` stands between the two. -/
structure Split (front ahead : List UInt8) (state : Limiting) : Prop where
  memory : ∃ after, state.memory = front ++ ahead ++ 0 :: after
  sptr : state.sptr = front.length
  plain : 0 ∉ front ++ ahead

namespace Split

variable {front ahead : List UInt8} {state : Limiting} (split : state.Split front ahead)

include split

theorem byteAt_sptr (offset : Nat) (inside : offset ≤ ahead.length) :
    byteAt state.memory (state.sptr + offset) = ahead.getD offset 0 := by
  rcases split.memory with ⟨after, memory⟩
  rw [byteAt, memory, split.sptr, List.append_assoc, Terminated.getD_append_add,
    List.getD_eq_getElem?_getD, List.getD_eq_getElem?_getD]
  rcases Nat.lt_or_eq_of_le inside with before | atEnd
  · rw [List.getElem?_append_left before]
  · rw [atEnd, List.getElem?_append_right (Nat.le_refl _), Nat.sub_self,
      List.getElem?_eq_none (Nat.le_refl _)]
    rfl

theorem oldstr_eq : state.oldstr = front ++ ahead := by
  rcases split.memory with ⟨after, memory⟩
  rw [oldstr, memory]
  exact Terminated.text_append split.plain

theorem ahead_eq : state.ahead = ahead := by
  rcases split.memory with ⟨after, memory⟩
  rw [Limiting.ahead, memory, split.sptr, List.append_assoc, List.drop_left]
  exact Terminated.text_append fun member => split.plain (List.mem_append_right front member)

theorem copied_eq : state.copied = front := by
  have inside : front.length - (front ++ ahead).length = 0 := by
    rw [List.length_append]
    omega
  rw [copied, split.oldstr_eq, split.sptr, List.take_left, inside, List.replicate_zero,
    List.append_nil]

theorem ended_iff : state.ended = true ↔ ahead = [] ∨ state.flagStop = true := by
  have byte := split.byteAt_sptr 0 (Nat.zero_le _)
  rw [Nat.add_zero] at byte
  rw [ended, Bool.or_eq_true, beq_iff_eq, byte]
  apply or_congr_left
  cases ahead with
  | nil => exact ⟨fun _ => rfl, fun _ => rfl⟩
  | cons first rest =>
      constructor
      · intro zero
        have member : (0 : UInt8) ∈ front ++ first :: rest := by
          rw [show first = 0 from zero]
          exact List.mem_append_right front List.mem_cons_self
        exact absurd member split.plain
      · intro empty
        cases empty

/-- The inner loop ends before the next character or the terminator. -/
theorem skipLoop_eq (fuel passed : Nat) (short : passed < ahead.length)
    (enough : ahead.length ≤ passed + fuel) :
    skipLoop state.memory fuel (state.sptr + passed) = some (state.sptr + passed + 1 +
      ((ahead.drop (passed + 1)).takeWhile fun next => !startsChar next).length) := by
  induction fuel generalizing passed with
  | zero => omega
  | succ fuel induction =>
      have byte := split.byteAt_sptr (passed + 1) short
      rw [skipLoop, Nat.add_assoc state.sptr, byte]
      cases behind : ahead.drop (passed + 1) with
      | nil =>
          have length := congrArg List.length behind
          rw [List.length_drop, List.length_nil] at length
          rw [List.getD_eq_getElem?_getD, List.getElem?_eq_none (by omega)]
          rfl
      | cons next more =>
          have further : passed + 1 < ahead.length := by
            have length := congrArg List.length behind
            rw [List.length_drop, List.length_cons] at length
            omega
          have here : ahead.getD (passed + 1) 0 = next := by
            have first := congrArg List.head? behind
            rw [List.head?_drop] at first
            rw [List.getD_eq_getElem?_getD, first]
            rfl
          have more_eq : ahead.drop (passed + 1 + 1) = more := by
            rw [← List.drop_drop, behind]
            rfl
          rw [here]
          cases starts : startsChar next with
          | true =>
              rw [if_pos rfl, List.takeWhile_cons_of_neg (by simp [starts])]
              rfl
          | false =>
              have unterminated : next ≠ 0 := by
                rintro rfl
                cases starts
              rw [if_neg Bool.false_ne_true, if_neg unterminated,
                induction (passed + 1) further (by omega), more_eq,
                List.takeWhile_cons_of_pos (by simp [starts]), List.length_cons]
              congr 1
              omega

end Split

theorem leadStep_pos (byte : UInt8) : 0 < leadStep byte := by
  rw [leadStep]
  split
  · decide
  · split
    · decide
    · split <;> decide

/-- The loop goes on from here. -/
structure At (front ahead : List UInt8) (width : Nat) (state : Limiting) : Prop where
  split : state.Split front ahead
  width : state.width = width
  flagStop : state.flagStop = false

theorem Split.advance {front taken left : List UInt8} {state : Limiting}
    (split : state.Split front (taken ++ left)) {sptr : Nat}
    (moved : sptr = state.sptr + taken.length) (width : Int) (flagStop : Bool) :
    Split (front ++ taken) left { state with sptr := sptr, width := width, flagStop := flagStop } := by
  rcases split.memory with ⟨after, memory⟩
  refine ⟨⟨after, ?_⟩, ?_, ?_⟩
  · dsimp only
    rw [memory, List.append_assoc front taken left]
  · dsimp only
    rw [moved, split.sptr, List.length_append]
  · rw [List.append_assoc]
    exact split.plain

/-- What one round can do: stop, or go on with less ahead. -/
inductive Round (limit fuel : Nat) (front ahead : List UInt8) (width : Nat) (state : Limiting) : Prop
  | stop (taken left : List UInt8) (split : state.Split (front ++ taken) left)
      (flagStop : state.flagStop = true) (text : taken ++ left = ahead)
      (loop : limitLoop limit (fuel + 1) width ahead = ⟨taken, left, true⟩)
  | pass (taken left : List UInt8) (wider : Nat) (goes : state.At (front ++ taken) left wider)
      (shorter : left.length < ahead.length) (text : (taken ++ left).Sublist ahead)
      (loop : limitLoop limit (fuel + 1) width ahead =
        (limitLoop limit fuel wider left).prepend taken)

theorem At.round {front rest : List UInt8} {byte : UInt8} {width : Nat} {state : Limiting}
    (here : state.At front (byte :: rest) width) (limit : Int) {fuel : Nat}
    (enough : rest.length < fuel) (loopFuel : Nat) :
    ∃ after, state.round limit fuel = some after ∧
      Round limit.toNat loopFuel front (byte :: rest) width after := by
  have first : byteAt state.memory state.sptr = byte := here.split.byteAt_sptr 0 (Nat.zero_le _)
  simp only [Limiting.round, first, here.width, here.split.ahead_eq]
  cases ascii : isAscii byte with
  | true =>
      by_cases full : width + 1 > limit.toNat
      · have beyond : (width : Int) + 1 > limit := by omega
        refine ⟨_, by rw [if_pos rfl, if_pos beyond], .stop [] (byte :: rest) ?_ rfl rfl ?_⟩
        · exact @Split.advance front [] (byte :: rest) state here.split _ rfl _ _
        · rw [limitLoop, ascii, if_pos rfl, if_pos full]
      · have within : ¬(width : Int) + 1 > limit := by omega
        refine ⟨_, by rw [if_pos rfl, if_neg within], .pass [byte] rest (width + 1) ?_ ?_ ?_ ?_⟩
        · exact ⟨@Split.advance front [byte] rest state here.split _ rfl _ _, rfl, here.flagStop⟩
        · exact Nat.lt_succ_self _
        · exact List.Sublist.refl _
        · rw [limitLoop, ascii, if_pos rfl, if_neg full]
  | false =>
      by_cases whole : startsChar ((byte :: rest).getD (leadStep byte) 0) = true ∧
          leadStep byte ≤ (byte :: rest).length
      · have taken : (byte :: rest).take (leadStep byte) ++ (byte :: rest).drop (leadStep byte) =
            byte :: rest := List.take_append_drop _ _
        have length : ((byte :: rest).take (leadStep byte)).length = leadStep byte := by
          rw [List.length_take]
          exact Nat.min_eq_left whole.2
        have positive := leadStep_pos byte
        have split : state.Split front ((byte :: rest).take (leadStep byte) ++
            (byte :: rest).drop (leadStep byte)) := by
          rw [taken]
          exact here.split
        have seen := here.split.byteAt_sptr (leadStep byte) whole.2
        rw [if_neg Bool.false_ne_true, if_pos ⟨seen ▸ whole.1, whole.2⟩]
        by_cases full : width + 2 > limit.toNat
        · have beyond : (width : Int) + 2 > limit := by omega
          refine ⟨_, rfl, .stop _ _ (split.advance (length.symm ▸ rfl) _ _) ?_ taken ?_⟩
          · exact decide_eq_true beyond
          · rw [limitLoop, ascii, if_neg Bool.false_ne_true, if_pos whole, if_pos full]
        · have within : ¬(width : Int) + 2 > limit := by omega
          refine ⟨_, rfl, .pass _ _ (width + 2)
            ⟨split.advance (length.symm ▸ rfl) _ _, rfl, decide_eq_false within⟩ ?_ ?_ ?_⟩
          · rw [List.length_drop, List.length_cons]
            omega
          · rw [taken]
          · rw [limitLoop, ascii, if_neg Bool.false_ne_true, if_pos whole, if_neg full]
      · have broken : ¬(startsChar (byteAt state.memory (state.sptr + leadStep byte)) = true ∧
            leadStep byte ≤ (byte :: rest).length) := by
          rintro ⟨starts, short⟩
          rw [here.split.byteAt_sptr _ short] at starts
          exact whole ⟨starts, short⟩
        have skips := here.split.skipLoop_eq fuel 0 (Nat.succ_pos _) (by rw [List.length_cons]; omega)
        rw [Nat.add_zero, Nat.add_assoc, Nat.add_comm 1, here.split.sptr] at skips
        rw [if_neg Bool.false_ne_true, if_neg broken, here.split.sptr, skips]
        have cut : (byte :: rest.takeWhile fun next => !startsChar next) ++
            rest.dropWhile (fun next => !startsChar next) = byte :: rest := by
          rw [List.cons_append, List.takeWhile_append_dropWhile]
        have kept : (rest.dropWhile fun next => !startsChar next).Sublist (byte :: rest) :=
          (List.dropWhile_sublist _).cons byte
        refine ⟨_, rfl, .pass [] (rest.dropWhile fun next => !startsChar next) width
          ⟨?_, rfl, here.flagStop⟩ ?_ kept ?_⟩
        · rcases here.split.memory with ⟨after, memory⟩
          have plain : (0 : UInt8) ∉ front ++ rest.dropWhile fun next => !startsChar next := by
            intro member
            rcases List.mem_append.mp member with inFront | inKept
            · exact here.split.plain (List.mem_append_left _ inFront)
            · exact here.split.plain (List.mem_append_right front (kept.subset inKept))
          rcases @Terminated.copyDown_gap _ _ (0 : UInt8) front
            (byte :: rest.takeWhile fun next => !startsChar next)
            (rest.dropWhile fun next => !startsChar next) after
            (fun member => plain (List.mem_append_right front member)) with ⟨later, copied⟩
          rw [List.append_nil]
          refine ⟨⟨later, ?_⟩, rfl, plain⟩
          rw [cut, ← memory] at copied
          exact copied
        · rw [List.length_cons]
          exact Nat.lt_succ_of_le (List.dropWhile_sublist _).length_le
        · rw [limitLoop, ascii, if_neg Bool.false_ne_true, if_neg whole]
          rfl

/-! ## Whole loops -/

theorem rounds_of_ended {state : Limiting} (ended : state.ended = true) (limit : Int)
    (fuel count : Nat) : state.rounds limit fuel count = some state := by
  cases count with
  | zero => rfl
  | succ count => rw [rounds, if_pos ended]

theorem At.not_ended {front rest : List UInt8} {byte : UInt8} {width : Nat} {state : Limiting}
    (here : state.At front (byte :: rest) width) : ¬ state.ended = true := by
  rw [here.split.ended_iff, here.flagStop]
  rintro (empty | stopped)
  · cases empty
  · cases stopped

/-- After any number of rounds `sptr` is inside a text made of what was there. -/
theorem At.inside {front ahead : List UInt8} {width : Nat} {state : Limiting}
    (here : state.At front ahead width) (limit : Int) {fuel : Nat} (enough : ahead.length ≤ fuel)
    (count : Nat) :
    ∃ after passed left, state.rounds limit fuel count = some after ∧ after.Split passed left := by
  induction count generalizing front ahead width state with
  | zero => exact ⟨state, front, ahead, rfl, here.split⟩
  | succ count induction =>
      cases ahead with
      | nil =>
          exact ⟨state, front, [], rounds_of_ended (here.split.ended_iff.mpr (.inl rfl)) _ _ _,
            here.split⟩
      | cons byte rest =>
          rcases here.round limit enough 0 with ⟨after, round, outcome⟩
          rw [rounds, if_neg here.not_ended, round, Option.bind_some]
          cases outcome with
          | stop taken left split flagStop text loop =>
              exact ⟨after, _, _, rounds_of_ended (split.ended_iff.mpr (.inr flagStop)) _ _ _,
                split⟩
          | pass taken left wider goes shorter text loop =>
              exact induction goes (by omega)

/-- The loop ends where `limitLoop` does. -/
theorem At.rounds {front ahead : List UInt8} {width : Nat} {state : Limiting}
    (here : state.At front ahead width) (limit : Int) {fuel count loopFuel : Nat}
    (enough : ahead.length ≤ fuel) (often : ahead.length ≤ count)
    (loops : ahead.length < loopFuel) :
    ∃ final, state.rounds limit fuel count = some final ∧ final.ended = true ∧
      final.Split (front ++ (limitLoop limit.toNat loopFuel width ahead).before)
        (limitLoop limit.toNat loopFuel width ahead).rest ∧
      final.flagStop = (limitLoop limit.toNat loopFuel width ahead).flagStop := by
  induction loopFuel generalizing front ahead width state count with
  | zero => omega
  | succ loopFuel induction =>
      cases ahead with
      | nil =>
          have ended : state.ended = true := here.split.ended_iff.mpr (.inl rfl)
          refine ⟨state, rounds_of_ended ended _ _ _, ended, ?_, here.flagStop⟩
          rw [limitLoop, List.append_nil]
          exact here.split
      | cons byte rest =>
          cases count with
          | zero => exact absurd often (Nat.not_succ_le_zero _)
          | succ count =>
              rcases here.round limit enough loopFuel with ⟨after, round, outcome⟩
              rw [Limiting.rounds, if_neg here.not_ended, round, Option.bind_some]
              cases outcome with
              | stop taken left split flagStop text loop =>
                  have ended : after.ended = true := split.ended_iff.mpr (.inr flagStop)
                  rw [loop]
                  exact ⟨after, rounds_of_ended ended _ _ _, ended, split, flagStop⟩
              | pass taken left wider goes shorter text loop =>
                  rw [loop, Limited.prepend]
                  have fewer : left.length ≤ count := by
                    rw [List.length_cons] at often shorter
                    omega
                  rcases induction goes (by omega) fewer (by omega) with
                    ⟨final, run, ended, split, flagStop⟩
                  rw [List.append_assoc] at split
                  exact ⟨final, run, ended, split, flagStop⟩

theorem start_at {text : List UInt8} (terminated : 0 ∉ text) (after : List UInt8) :
    (start (text ++ 0 :: after)).At [] text 0 :=
  ⟨⟨⟨after, rfl⟩, rfl, terminated⟩, rfl, rfl⟩

end Limiting

theorem limitLoop_sublist (limit fuel width : Nat) (text : List UInt8) :
    ((limitLoop limit fuel width text).before ++ (limitLoop limit fuel width text).rest).Sublist
      text := by
  induction fuel generalizing width text with
  | zero => exact List.Sublist.refl _
  | succ fuel induction =>
      cases text with
      | nil => exact List.Sublist.refl _
      | cons byte rest =>
          rw [limitLoop]
          split
          · split
            · exact List.Sublist.refl _
            · exact (induction (width + 1) rest).cons_cons byte
          · dsimp only
            split
            · split
              · rw [List.take_append_drop]
              · have kept := (induction (width + 2) ((byte :: rest).drop (leadStep byte))).append_left
                  ((byte :: rest).take (leadStep byte))
                rw [List.take_append_drop] at kept
                rw [Limited.prepend, List.append_assoc]
                exact kept
            · exact ((induction width _).trans (List.dropWhile_sublist _)).cons byte

/-- `limit_str_width` ends on any bytes. `sptr` stays inside the text, what is left of the text
is a part of it in order, and the copy is a beginning of what is left. -/
theorem limit_str_width_ends (text after : List UInt8) (terminated : 0 ∉ text) (limit : Int)
    (fuel : Nat) (enough : text.length ≤ fuel) :
    (∀ count, ∃ state, (Limiting.start (text ++ 0 :: after)).rounds limit fuel count = some state ∧
      state.sptr ≤ state.oldstr.length) ∧
    ∀ count, text.length ≤ count →
      ∃ final, (Limiting.start (text ++ 0 :: after)).rounds limit fuel count = some final ∧
        final.ended = true ∧ final.oldstr.Sublist text ∧ final.copied <+: final.oldstr := by
  have start := Limiting.start_at terminated after
  constructor
  · intro count
    rcases start.inside limit enough count with ⟨state, passed, left, run, split⟩
    refine ⟨state, run, ?_⟩
    rw [split.oldstr_eq, split.sptr, List.length_append]
    exact Nat.le_add_right _ _
  · intro count often
    rcases start.rounds limit enough often (Nat.lt_succ_self _) with ⟨final, run, ended, split, _⟩
    refine ⟨final, run, ended, ?_, ?_⟩
    · rw [split.oldstr_eq, List.nil_append]
      exact limitLoop_sublist _ _ _ _
    · rw [split.copied_eq, split.oldstr_eq]
      exact List.prefix_append _ _

/-- A character of three bytes that has lost its last one, before what an earlier text has
left behind its terminator. -/
theorem broken_character_ends :
    (∀ count, ∃ state, (Limiting.start [0x41, 0xE4, 0xBD, 0, 0xA0, 0xE5]).rounds 10 3 count =
        some state ∧ state.sptr ≤ state.oldstr.length) ∧
      ∀ count, 3 ≤ count → ∃ final,
        (Limiting.start [0x41, 0xE4, 0xBD, 0, 0xA0, 0xE5]).rounds 10 3 count = some final ∧
          final.ended = true ∧ final.oldstr.Sublist [0x41, 0xE4, 0xBD] ∧
          final.copied <+: final.oldstr :=
  limit_str_width_ends [0x41, 0xE4, 0xBD] [0xA0, 0xE5] (by decide) 10 3 (Nat.le_refl 3)

/-! ## Characters that fit -/

/-- `limit_str_width` on a memory that holds a text: what is left in `oldstr`, and `newstr`. -/
def limitStrWidthAt (limit : Int) (memory : List UInt8) : Option (List UInt8 × List UInt8) :=
  ((Limiting.start memory).rounds limit memory.length memory.length).map fun final =>
    (final.oldstr, final.newstr)

theorem limitStrWidthAt_eq {text : List UInt8} (terminated : 0 ∉ text) (after : List UInt8)
    (limit : Int) :
    limitStrWidthAt limit (text ++ 0 :: after) = some (limitStrWidth text limit.toNat) := by
  have enough : text.length ≤ (text ++ 0 :: after).length := by
    rw [List.length_append]
    exact Nat.le_add_right _ _
  rcases (Limiting.start_at terminated after).rounds limit enough enough (Nat.lt_succ_self _) with
    ⟨final, run, _, split, flagStop⟩
  rw [limitStrWidthAt, run, Option.map_some, limitStrWidth, split.oldstr_eq, Limiting.newstr,
    split.copied_eq, flagStop, List.nil_append]

/-- Columns on the screen. -/
def columns (character : Char) : Nat := if character.toNat ≤ 0x7F then 1 else 2

def textWidth (text : List Char) : Nat := (text.map columns).sum

/-- The longest beginning that is at most `limit` wide. -/
structure LongestFit (limit : Nat) (text fit : List Char) : Prop where
  begins : fit <+: text
  fits : textWidth fit ≤ limit
  longest : ∀ other, other <+: text → textWidth other ≤ limit → other.length ≤ fit.length

def fitting : Nat → List Char → List Char
  | _, [] => []
  | limit, character :: text =>
      if columns character ≤ limit then character :: fitting (limit - columns character) text else []

theorem columns_pos (character : Char) : 0 < columns character := by
  rw [columns]
  split <;> decide

theorem fitting_longest (limit : Nat) (text : List Char) :
    LongestFit limit text (fitting limit text) := by
  induction text generalizing limit with
  | nil =>
      refine ⟨List.prefix_refl _, Nat.zero_le _, ?_⟩
      intro other begins _
      exact begins.length_le
  | cons character text induction =>
      rw [fitting]
      split
      case isTrue room =>
        have rest := induction (limit - columns character)
        refine ⟨List.cons_prefix_cons.mpr ⟨rfl, rest.begins⟩, ?_, ?_⟩
        · have fits := rest.fits
          simp only [textWidth, List.map_cons, List.sum_cons] at fits ⊢
          omega
        · intro other begins fits
          cases other with
          | nil => exact Nat.zero_le _
          | cons first other =>
              rcases List.cons_prefix_cons.mp begins with ⟨rfl, further⟩
              simp only [textWidth, List.map_cons, List.sum_cons] at fits
              have shorter := rest.longest other further (by rw [textWidth]; omega)
              exact Nat.succ_le_succ shorter
      case isFalse full =>
        refine ⟨List.nil_prefix, Nat.zero_le _, ?_⟩
        intro other begins fits
        cases other with
        | nil => exact Nat.le_refl _
        | cons first other =>
            rcases List.cons_prefix_cons.mp begins with ⟨rfl, _⟩
            simp only [textWidth, List.map_cons, List.sum_cons] at fits
            omega

theorem LongestFit.eq {limit : Nat} {text fit : List Char} (longest : LongestFit limit text fit) :
    fit = fitting limit text := by
  have other := fitting_longest limit text
  apply (List.prefix_of_prefix_length_le longest.begins other.begins
    (other.longest fit longest.begins longest.fits)).eq_of_length
  exact Nat.le_antisymm (other.longest fit longest.begins longest.fits)
    (longest.longest _ other.begins other.fits)

/-- What does not fit. -/
def behind (limit : Nat) (text : List Char) : List Char := text.drop (fitting limit text).length

theorem fitting_cons_of_room {limit used : Nat} {character : Char} {text : List Char}
    (room : used + columns character ≤ limit) :
    fitting (limit - used) (character :: text) =
        character :: fitting (limit - (used + columns character)) text ∧
      behind (limit - used) (character :: text) =
        behind (limit - (used + columns character)) text := by
  have fits : columns character ≤ limit - used := by omega
  have less : limit - used - columns character = limit - (used + columns character) := by omega
  rw [behind, fitting, if_pos fits, less]
  exact ⟨rfl, rfl⟩

theorem fitting_cons_of_full {limit used : Nat} {character : Char} {text : List Char}
    (full : used + columns character > limit) :
    fitting (limit - used) (character :: text) = [] ∧
      behind (limit - used) (character :: text) = character :: text := by
  have fits : ¬columns character ≤ limit - used := by
    have positive := columns_pos character
    omega
  rw [behind, fitting, if_neg fits]
  exact ⟨rfl, rfl⟩

theorem columns_of_ascii {character : Char} (ascii : character.toNat ≤ 0x7F) :
    columns character = 1 := if_pos ascii

theorem columns_of_wide {character : Char} (wide : ¬character.toNat ≤ 0x7F) :
    columns character = 2 := if_neg wide

theorem cutChar_of_ascii {character : Char} (ascii : character.toNat ≤ 0x7F) :
    cutChar character = false := by
  have below : ¬0x400 ≤ character.toNat := by omega
  simp [cutChar, below]

/-- The text is displayed up to what does not fit, with one wide character of that. -/
def Displayed.upTo (fit : List Char) : List Char → Displayed
  | [] => ⟨fit, [], false⟩
  | character :: rest =>
      if character.toNat ≤ 0x7F then ⟨fit, character :: rest, true⟩
      else ⟨fit ++ [character], rest, true⟩

theorem Displayed.prepend_upTo (character : Char) (fit rest : List Char) :
    (Displayed.upTo fit rest).prepend character = Displayed.upTo (character :: fit) rest := by
  cases rest with
  | nil => rfl
  | cons next rest =>
      rw [upTo, upTo]
      split <;> rfl

/-- The loop on a text that goes on from a column. -/
def Measures (limit used : Nat) (text measured : List Char) (displayed : Displayed) : Prop :=
  (measured.any cutChar = false ↔ (fitting (limit - used) text).any cutChar = false ∧
    ∀ character ∈ (behind (limit - used) text).head?, cutChar character = false) ∧
  (measured.any cutChar = false →
    displayed = Displayed.upTo (fitting (limit - used) text) (behind (limit - used) text))

theorem Measures.cons {limit used : Nat} {character : Char} {text measured : List Char}
    {displayed : Displayed} (room : used + columns character ≤ limit)
    (kept : cutChar character = false)
    (rest : Measures limit (used + columns character) text measured displayed) :
    Measures limit used (character :: text) (character :: measured)
      (displayed.prepend character) := by
  rcases @fitting_cons_of_room limit used character text room with ⟨fit, left⟩
  rcases rest with ⟨uncut, displays⟩
  rw [Measures, fit, left, ← Displayed.prepend_upTo, List.any_cons, kept, Bool.false_or,
    List.any_cons, kept, Bool.false_or]
  refine ⟨uncut, fun none => ?_⟩
  rw [displays none]

theorem measures_of_cut {limit used : Nat} {character : Char} {text measured : List Char}
    {displayed : Displayed} (cut : cutChar character = true) :
    Measures limit used (character :: text) (character :: measured) displayed := by
  have some : (character :: measured).any cutChar = true := by rw [List.any_cons, cut, Bool.true_or]
  rw [Measures, some]
  refine ⟨⟨fun none => absurd none.symm Bool.false_ne_true, ?_⟩,
    fun none => absurd none.symm Bool.false_ne_true⟩
  rintro ⟨none, head⟩
  by_cases room : used + columns character ≤ limit
  · rw [(fitting_cons_of_room room).1, List.any_cons, cut, Bool.true_or] at none
    exact none
  · rw [(fitting_cons_of_full (Nat.not_le.mp room)).2] at head
    exact absurd (cut.symm.trans (head character rfl)).symm Bool.false_ne_true

/-- Where nothing is cut out, the loop measures what fits and one character more. -/
theorem measures_displayed (limit used : Nat) (text : List Char) :
    Measures limit used text (measuredFrom limit used text) (displayedFrom limit used text) := by
  induction text generalizing used with
  | nil => simp [Measures, measuredFrom, fitting, behind, displayedFrom, Displayed.upTo]
  | cons character text induction =>
      rw [measuredFrom, displayedFrom]
      by_cases ascii : character.toNat ≤ 0x7F
      · have one := columns_of_ascii ascii
        have kept := cutChar_of_ascii ascii
        rw [if_pos ascii, if_pos ascii, ← one]
        by_cases full : used + columns character > limit
        · rcases @fitting_cons_of_full limit used character text full with ⟨fit, rest⟩
          rw [if_pos full, if_pos full, Measures, fit, rest]
          simp [kept, Displayed.upTo, ascii]
        · rw [if_neg full, if_neg full]
          exact (induction (used + columns character)).cons (Nat.not_lt.mp full) kept
      · have two := columns_of_wide ascii
        rw [if_neg ascii, if_neg ascii, ← two]
        cases kept : cutChar character with
        | true => exact measures_of_cut kept
        | false =>
            rw [if_neg Bool.false_ne_true, if_neg Bool.false_ne_true]
            by_cases full : used + columns character > limit
            · rcases @fitting_cons_of_full limit used character text full with ⟨fit, rest⟩
              rw [if_pos full, if_pos full, Measures, fit, rest]
              simp [kept, Displayed.upTo, ascii]
            · rw [if_neg full, if_neg full]
              exact (induction (used + columns character)).cons (Nat.not_lt.mp full) kept

theorem utf8_append (left right : List Char) : utf8 (left ++ right) = utf8 left ++ utf8 right :=
  List.flatMap_append

theorem length_utf8_cons (character : Char) (text : List Char) :
    (utf8 text).length < (utf8 (character :: text)).length := by
  rcases (encoded_utf8EncodeChar character).head with ⟨lead, tail, bytes, _⟩
  rw [utf8, utf8, List.flatMap_cons, bytes, List.length_append, List.length_cons]
  omega

theorem limitedFrom_sublist (limit used : Nat) (text : List Char) :
    (limitedFrom limit used text).Sublist text := by
  induction text generalizing used with
  | nil => exact List.Sublist.refl _
  | cons character text induction =>
      rw [limitedFrom]
      split
      · split
        · exact List.Sublist.refl _
        · exact (induction _).cons_cons character
      · split
        · exact (induction _).cons character
        · split
          · exact List.Sublist.refl _
          · exact (induction _).cons_cons character

theorem utf8_sublist {part text : List Char} (sublist : part.Sublist text) :
    (utf8 part).length ≤ (utf8 text).length ∧
      ((utf8 part).length = (utf8 text).length → part = text) := by
  induction sublist with
  | slnil => exact ⟨Nat.le_refl _, fun _ => rfl⟩
  | @cons part text character sublist induction =>
      have longer := length_utf8_cons character text
      exact ⟨by omega, fun same => by omega⟩
  | @cons_cons part text character sublist induction =>
      have added : ∀ rest, (utf8 (character :: rest)).length =
          (String.utf8EncodeChar character).length + (utf8 rest).length := fun _ =>
        List.length_append
      rw [added, added]
      refine ⟨by omega, fun same => ?_⟩
      rw [induction.2 (by omega)]

/-! ## The longest fit -/

def ellipsis : List UInt8 := [0x2E, 0x2E, 0x2E]

/-- The text is left as it is, and what is written is the longest beginning that fits, with an
ellipsis if this is not all. -/
def LimitsWidth (limit : Nat) (text : List Char) : Prop :=
  ∀ after, ∃ fit, LongestFit limit text fit ∧
    limitStrWidthAt limit (utf8 text ++ 0 :: after) =
      some (utf8 text, utf8 fit ++ if fit.length < text.length then ellipsis else [])

theorem ascii_ne_zero : ∀ bits < 128, bits ≠ 0 → UInt8.ofNat bits ≠ 0 := by
  decide

theorem continuation_ne_zero (bits : Nat) : UInt8.ofNat (bits % 0x40 + 0x80) ≠ 0 := by
  intro zero
  have continues := continuation_starts (bits % 0x40) (Nat.mod_lt _ (by decide))
  rw [zero] at continues
  cases continues

theorem lead_ne_zero {byte : UInt8} (notAscii : isAscii byte = false) : byte ≠ 0 := by
  rintro rfl
  cases notAscii

theorem zero_not_mem_utf8EncodeChar {character : Char} (different : character ≠ nulChar) :
    0 ∉ String.utf8EncodeChar character := by
  have value : character.val.toNat = character.toNat := rfl
  have positive : character.toNat ≠ 0 := fun zero => different (Char.toNat_inj.mp zero)
  rw [String.utf8EncodeChar, value]
  split
  case isTrue one =>
    have byte := ascii_ne_zero character.toNat (by omega) positive
    simpa using byte.symm
  · split
    · have lead := lead_two (character.toNat / 64 % 0x20) (Nat.mod_lt _ (by decide))
      simp only [List.mem_cons, List.not_mem_nil, or_false, not_or]
      exact ⟨(lead_ne_zero lead.1).symm, (continuation_ne_zero _).symm⟩
    · split
      · have lead := lead_three (character.toNat / 4096 % 0x10) (Nat.mod_lt _ (by decide))
        simp only [List.mem_cons, List.not_mem_nil, or_false, not_or]
        exact ⟨(lead_ne_zero lead.1).symm, (continuation_ne_zero _).symm,
          (continuation_ne_zero _).symm⟩
      · have lead := lead_four (character.toNat / 262144 % 0x08) (Nat.mod_lt _ (by decide))
        simp only [List.mem_cons, List.not_mem_nil, or_false, not_or]
        exact ⟨(lead_ne_zero lead.1).symm, (continuation_ne_zero _).symm,
          (continuation_ne_zero _).symm, (continuation_ne_zero _).symm⟩

theorem zero_not_mem_utf8 {text : List Char} (terminated : nulChar ∉ text) : 0 ∉ utf8 text := by
  intro member
  rcases List.mem_flatMap.mp member with ⟨character, characterMem, byteMem⟩
  refine zero_not_mem_utf8EncodeChar ?_ byteMem
  rintro rfl
  exact terminated characterMem

theorem limitStrWidth_chars (text : List Char) (limit : Nat) :
    limitStrWidth (utf8 text) limit =
      (utf8 (limitedFrom limit 0 text), utf8 (displayedFrom limit 0 text).shown ++
        if (displayedFrom limit 0 text).stopped then ellipsis else []) := by
  rw [limitStrWidth, limitLoop_utf8 limit _ 0 text (Nat.lt_succ_self _), limitedFrom_eq_append,
    utf8_append]
  rfl

theorem length_fitting_lt_iff (limit : Nat) (text : List Char) :
    (fitting limit text).length < text.length ↔ behind limit text ≠ [] := by
  rw [behind, ne_eq, List.drop_eq_nil_iff, Nat.not_le]

/-- `limit_str_width` does this exactly if no character that fits is one it cuts out, and the
first that does not fit, if there is one, is an ASCII character. -/
theorem limits_width_iff (text : List Char) (terminated : nulChar ∉ text) (limit : Nat) :
    LimitsWidth limit text ↔
      (∀ character ∈ fitting limit text, cutChar character = false) ∧
        ∀ character ∈ (behind limit text).head?, character.toNat ≤ 0x7F := by
  have run : ∀ after, limitStrWidthAt limit (utf8 text ++ 0 :: after) =
      some (limitStrWidth (utf8 text) limit) := fun after =>
    limitStrWidthAt_eq (zero_not_mem_utf8 terminated) after limit
  rcases measures_displayed limit 0 text with ⟨uncut, displays⟩
  rw [Nat.sub_zero] at uncut displays
  constructor
  · intro limits
    rcases limits [] with ⟨fit, longest, result⟩
    rw [run, limitStrWidth_chars, longest.eq] at result
    rcases Prod.mk.inj (Option.some.inj result) with ⟨oldstr, newstr⟩
    have none : (measuredFrom limit 0 text).any cutChar = false := by
      rw [← limitedFrom_eq_iff]
      exact (utf8_sublist (limitedFrom_sublist limit 0 text)).2 (congrArg List.length oldstr)
    refine ⟨fun character member => ?_, fun character head => ?_⟩
    · exact Bool.eq_false_iff.mpr (List.any_eq_false.mp (uncut.mp none).1 character member)
    · by_contra wide
      rcases List.head?_eq_some_iff.mp head with ⟨rest, left⟩
      have shorter : (fitting limit text).length < text.length := by
        rw [length_fitting_lt_iff, left]
        exact List.cons_ne_nil _ _
      rw [displays none, left, Displayed.upTo, if_neg wide, if_pos shorter] at newstr
      have length := congrArg List.length newstr
      have more : 0 < (utf8 [character]).length := length_utf8_cons character []
      simp only [utf8_append, List.length_append, if_true] at length
      omega
  · rintro ⟨kept, ascii⟩ after
    have none : (measuredFrom limit 0 text).any cutChar = false := by
      refine uncut.mpr ⟨List.any_eq_false.mpr fun character member => ?_, fun character head => ?_⟩
      · rw [kept character member]
        exact Bool.false_ne_true
      · exact cutChar_of_ascii (ascii character head)
    refine ⟨fitting limit text, fitting_longest limit text, ?_⟩
    rw [run, limitStrWidth_chars, (limitedFrom_eq_iff limit 0 text).mpr none, displays none]
    cases left : behind limit text with
    | nil =>
        have whole : ¬(fitting limit text).length < text.length := by
          rw [length_fitting_lt_iff, left]
          exact fun different => different rfl
        rw [if_neg whole]
        rfl
    | cons character rest =>
        have shorter : (fitting limit text).length < text.length := by
          rw [length_fitting_lt_iff, left]
          exact List.cons_ne_nil _ _
        have narrow : character.toNat ≤ 0x7F := ascii character (by rw [left]; rfl)
        rw [if_pos shorter, Displayed.upTo, if_pos narrow]
        rfl

theorem shelf_name_limited :
    (nulChar ∉ ['书', '架', 'a', 'b']) ∧ LimitsWidth 5 ['书', '架', 'a', 'b'] := by
  have kept : (fitting 5 ['书', '架', 'a', 'b']).any cutChar = false := by decide
  have first : (behind 5 ['书', '架', 'a', 'b']).head? = some 'b' := by decide
  refine ⟨by decide, (limits_width_iff ['书', '架', 'a', 'b'] (by decide) 5).mpr ⟨?_, ?_⟩⟩
  · intro character member
    exact Bool.eq_false_iff.mpr (List.any_eq_false.mp kept character member)
  · intro character head
    rw [first] at head
    cases head
    decide

/-- A wide character that does not fit is written all the same, and a Cyrillic one is cut out
of the text. -/
theorem width_not_limited : ¬ LimitsWidth 3 ['书', '架'] ∧ ¬ LimitsWidth 3 ['я'] := by
  constructor
  · intro limits
    rcases limits [] with ⟨fit, longest, result⟩
    rw [longest.eq] at result
    exact absurd result (by decide +kernel)
  · intro limits
    rcases limits [] with ⟨fit, longest, result⟩
    rw [longest.eq] at result
    exact absurd result (by decide +kernel)

end Bookshelfdq
