import Mathlib.Data.List.TakeWhile

/-! # Terminated texts in memory

A memory is the list of its bytes from some address on. A text in it ends before the first
terminator; whatever follows the terminator stays in memory. -/

namespace Bookshelfdq.Terminated

variable {Byte : Type u} [DecidableEq Byte] (terminator : Byte)

/-- The text at the beginning of a memory. -/
def text (memory : List Byte) : List Byte := memory.takeWhile fun byte => byte ≠ terminator

/-- Copy the text at `source` to `target`, which is before it. -/
def copyDown (memory : List Byte) (target source : Nat) : List Byte :=
  let moved := text terminator (memory.drop source)
  memory.take target ++ (moved ++ terminator :: memory.drop (target + moved.length + 1))

omit [DecidableEq Byte] in
/-- Write bytes at `position`. -/
def store (memory : List Byte) (position : Nat) (bytes : List Byte) : List Byte :=
  memory.take position ++ bytes ++ memory.drop (position + bytes.length)

variable {terminator}

theorem text_append {front after : List Byte} (unterminated : terminator ∉ front) :
    text terminator (front ++ terminator :: after) = front := by
  have passed : ∀ byte ∈ front, decide (byte ≠ terminator) = true := by
    intro byte member
    have different : byte ≠ terminator := fun same => unterminated (same ▸ member)
    exact decide_eq_true different
  rw [text, List.takeWhile_append_of_pos passed, List.takeWhile_cons_of_neg (by simp),
    List.append_nil]

theorem not_mem_text (memory : List Byte) : terminator ∉ text terminator memory := by
  intro member
  induction memory with
  | nil => cases member
  | cons byte rest induction =>
      rw [text, List.takeWhile_cons] at member
      split at member
      case isTrue other =>
        rcases List.mem_cons.mp member with same | inside
        · exact absurd same.symm (of_decide_eq_true other)
        · exact induction inside
      case isFalse => cases member

theorem text_cons {byte : Byte} (other : byte ≠ terminator) (memory : List Byte) :
    text terminator (byte :: memory) = byte :: text terminator memory :=
  List.takeWhile_cons_of_pos (decide_eq_true other)

omit [DecidableEq Byte] in
/-- A byte at or behind a position. -/
theorem getD_append_add (front rest : List Byte) (offset : Nat) :
    (front ++ rest).getD (front.length + offset) terminator = rest.getD offset terminator := by
  rw [List.getD_eq_getElem?_getD, List.getElem?_append_right (Nat.le_add_right _ _),
    Nat.add_sub_cancel_left, List.getD_eq_getElem?_getD]

/-! ## Writing -/

section Store

omit [DecidableEq Byte]

variable {memory bytes : List Byte} {position : Nat}

theorem length_le_store (inside : position ≤ memory.length) (bytes : List Byte) :
    memory.length ≤ (store memory position bytes).length := by
  rw [store, List.length_append, List.length_append, List.length_take, List.length_drop,
    Nat.min_eq_left inside]
  omega

theorem getElem?_store_before {index : Nat} (inside : position ≤ memory.length)
    (before : index < position) : (store memory position bytes)[index]? = memory[index]? := by
  have length : (memory.take position).length = position :=
    List.length_take.trans (Nat.min_eq_left inside)
  rw [store, List.append_assoc, List.getElem?_append_left (by rw [length]; exact before),
    List.getElem?_take_of_lt before]

theorem getElem?_store_at {index : Nat} (inside : position ≤ memory.length)
    (written : index < bytes.length) :
    (store memory position bytes)[position + index]? = bytes[index]? := by
  have length : (memory.take position).length = position :=
    List.length_take.trans (Nat.min_eq_left inside)
  rw [store, List.append_assoc, List.getElem?_append_right (by rw [length]; exact Nat.le_add_right _ _),
    length, Nat.add_sub_cancel_left, List.getElem?_append_left written]

/-- What stands behind a position after the write there. -/
theorem drop_store (inside : position ≤ memory.length) (bytes : List Byte) :
    (store memory position bytes).drop position =
      bytes ++ memory.drop (position + bytes.length) := by
  have length : (memory.take position).length = position :=
    List.length_take.trans (Nat.min_eq_left inside)
  rw [store, List.append_assoc, List.drop_append_of_le_length length.ge,
    List.drop_of_length_le length.le, List.nil_append]

/-- A byte and what is written behind it. -/
theorem store_set (inside : position < memory.length) (byte : Byte) (bytes : List Byte) :
    store (memory.set position byte) (position + 1) bytes =
      store memory position (byte :: bytes) := by
  have before : (memory.set position byte).take (position + 1) =
      memory.take position ++ [byte] := by
    rw [List.set_eq_take_append_cons_drop, if_pos inside]
    have length : (memory.take position).length = position :=
      List.length_take.trans (Nat.min_eq_left inside.le)
    rw [List.take_append, length, Nat.add_sub_cancel_left, List.take_succ_cons, List.take_zero,
      List.take_of_length_le (by omega)]
  have behind : position < position + 1 + bytes.length := by omega
  rw [store, store, before, List.drop_set_of_lt behind, List.append_assoc (memory.take position),
    List.singleton_append, List.length_cons, Nat.add_assoc, Nat.add_comm 1]

theorem getElem?_store_behind {index : Nat} (inside : position ≤ memory.length)
    (behind : position + bytes.length ≤ index) :
    (store memory position bytes)[index]? = memory[index]? := by
  have length : (memory.take position ++ bytes).length = position + bytes.length := by
    rw [List.length_append, List.length_take, Nat.min_eq_left inside]
  rw [store, List.getElem?_append_right (by rw [length]; exact behind), length,
    List.getElem?_drop, Nat.add_sub_cancel' behind]

end Store

/-- A text ends before the first terminator. -/
theorem length_text_le {memory : List Byte} {index : Nat} (ends : memory[index]? = some terminator) :
    (text terminator memory).length ≤ index := by
  induction memory generalizing index with
  | nil => cases ends
  | cons byte memory induction =>
      by_cases same : byte = terminator
      · rw [text, List.takeWhile_cons_of_neg (by simp [same])]
        exact Nat.zero_le _
      · rw [text_cons same]
        cases index with
        | zero => exact absurd (Option.some.inj ends) same
        | succ index => exact Nat.succ_le_succ (induction ends)

/-- A text depends on nothing behind its end. -/
theorem text_of_take {memory other : List Byte} {count : Nat} (terminated : terminator ∈ memory)
    (short : (text terminator memory).length < count)
    (same : other.take count = memory.take count) :
    terminator ∈ other ∧ text terminator other = text terminator memory := by
  induction memory generalizing other count with
  | nil => cases terminated
  | cons byte memory induction =>
      cases count with
      | zero => cases short
      | succ count =>
          cases other with
          | nil => cases same
          | cons first other =>
              rw [List.take_succ_cons, List.take_succ_cons, List.cons.injEq] at same
              rcases same with ⟨rfl, same⟩
              by_cases ends : first = terminator
              · subst ends
                exact ⟨List.mem_cons_self, by simp [text]⟩
              · rw [text_cons ends, List.length_cons] at short
                have rest := induction (List.mem_of_ne_of_mem (Ne.symm ends) terminated)
                  (Nat.lt_of_succ_lt_succ short) same
                exact ⟨List.mem_cons_of_mem _ rest.1, by rw [text_cons ends, text_cons ends, rest.2]⟩

/-- A text that ends within a region is what it was if the region is. -/
theorem text_drop_of_region {memory other : List Byte} {start : Nat} (count : Nat)
    (ends : ∃ index < count, memory[start + index]? = some terminator)
    (same : ∀ index, start ≤ index → index < start + count → other[index]? = memory[index]?) :
    text terminator (other.drop start) = text terminator (memory.drop start) := by
  rcases ends with ⟨index, within, terminated⟩
  rw [← List.getElem?_drop] at terminated
  have kept : (other.drop start).take count = (memory.drop start).take count := by
    apply List.ext_getElem?
    intro place
    by_cases inside : place < count
    · rw [List.getElem?_take_of_lt inside, List.getElem?_take_of_lt inside, List.getElem?_drop,
        List.getElem?_drop]
      exact same _ (Nat.le_add_right _ _) (Nat.add_lt_add_left inside _)
    · rw [List.getElem?_take_eq_none (Nat.not_lt.mp inside),
        List.getElem?_take_eq_none (Nat.not_lt.mp inside)]
  exact (text_of_take (List.mem_of_getElem? terminated)
    (Nat.lt_of_le_of_lt (length_text_le terminated) within) kept).2

/-- Copying down closes the gap. -/
theorem copyDown_gap {front gap kept after : List Byte} (unterminated : terminator ∉ kept) :
    ∃ later, copyDown terminator (front ++ (gap ++ kept) ++ terminator :: after) front.length
        (front.length + gap.length) =
      front ++ kept ++ terminator :: later := by
  have dropped : (front ++ (gap ++ kept) ++ terminator :: after).drop
      (front.length + gap.length) = kept ++ terminator :: after := by
    rw [List.append_assoc, ← List.drop_drop, List.drop_left, List.append_assoc, List.drop_left]
  have moved : text terminator ((front ++ (gap ++ kept) ++ terminator :: after).drop
      (front.length + gap.length)) = kept := by
    rw [dropped, text_append unterminated]
  have begun : (front ++ (gap ++ kept) ++ terminator :: after).take front.length = front := by
    rw [List.append_assoc, List.take_left]
  refine ⟨(front ++ (gap ++ kept) ++ terminator :: after).drop (front.length + kept.length + 1), ?_⟩
  simp only [copyDown, moved, begun]
  rw [← List.append_assoc front kept]

end Bookshelfdq.Terminated
