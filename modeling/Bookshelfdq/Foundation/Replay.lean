import Mathlib.Data.List.Basic

/-! # A list read page by page, forwards and backwards

Reading a page moves the place behind it, and going back moves it to the start of the page before.
Entries may be appended and changed between two pages. -/

namespace Bookshelfdq

/-- The entries, the place to read from, and the size of the pages. -/
structure Replay (Entry : Type u) where
  entries : List Entry
  place : Nat
  size : Nat

namespace Replay

variable {Entry : Type u}

def append (entry : Entry) (replay : Replay Entry) : Replay Entry :=
  { replay with entries := replay.entries ++ [entry] }

def change (edit : Entry → Entry) (position : Nat) (replay : Replay Entry) : Replay Entry :=
  { replay with entries := replay.entries.modify position edit }

def page (size : Nat) (replay : Replay Entry) : List Entry :=
  (replay.entries.drop replay.place).take size

def read (size : Nat) (replay : Replay Entry) : Replay Entry :=
  { replay with place := replay.place + (replay.page size).length, size := size }

/-- The start of the page that ends at a place, or in which it lies. -/
def pageStart (size place : Nat) : Nat := (place - 1) / size * size

def back (replay : Replay Entry) : Replay Entry :=
  { replay with place := pageStart replay.size replay.place }

def rewind (replay : Replay Entry) : Replay Entry := { replay with place := 0 }

/-- The place is one of the list or its end. -/
structure Placed (replay : Replay Entry) : Prop where
  place : replay.place ≤ replay.entries.length
  size : 0 < replay.size

/-! ## Places -/

theorem pageStart_le (size place : Nat) : pageStart size place ≤ place :=
  Nat.le_trans (Nat.div_mul_le_self _ size) (Nat.sub_le place 1)

/-- One step back returns to the start of a page that has just been read. -/
theorem pageStart_of_page {size place count : Nat} (start : place % size = 0)
    (some : 0 < count) (few : count ≤ size) : pageStart size (place + count) = place := by
  have whole : place / size * size = place := by
    have split := Nat.div_add_mod' place size
    rwa [start, Nat.add_zero] at split
  have inside : (place + count - 1) / size = place / size := by
    have split : place + count - 1 = (count - 1) + place / size * size := by omega
    rw [split, Nat.add_mul_div_right _ _ (Nat.lt_of_lt_of_le some few), Nat.div_eq_of_lt (by omega),
      Nat.zero_add]
  rw [pageStart, inside, whole]

/-- From the start of a page it is one page back. -/
theorem pageStart_of_start {size place : Nat} (positive : 0 < size) (start : place % size = 0) :
    pageStart size place = place - size := by
  rcases Nat.eq_zero_or_pos place with first | later
  · rw [first, Nat.zero_sub, pageStart, Nat.zero_sub, Nat.zero_div, Nat.zero_mul]
  · have whole : size ≤ place := Nat.le_of_dvd later (Nat.dvd_of_mod_eq_zero start)
    have before : (place - size) % size = 0 := by
      rw [← Nat.mod_eq_sub_mod whole]
      exact start
    have ends : place = place - size + size := (Nat.sub_add_cancel whole).symm
    rw [ends, pageStart_of_page before positive (Nat.le_refl size), Nat.add_sub_cancel]

/-! ## Pages -/

section Placed

variable {replay : Replay Entry}

theorem length_page (size : Nat) (replay : Replay Entry) :
    (replay.page size).length = min size (replay.entries.length - replay.place) := by
  rw [page, List.length_take, List.length_drop]

theorem Placed.append (placed : replay.Placed) (entry : Entry) : (replay.append entry).Placed := by
  refine ⟨?_, placed.size⟩
  rw [Replay.append, List.length_append]
  exact Nat.le_trans placed.place (Nat.le_add_right _ _)

theorem Placed.change (placed : replay.Placed) (edit : Entry → Entry) (position : Nat) :
    (replay.change edit position).Placed := by
  refine ⟨?_, placed.size⟩
  rw [Replay.change, List.length_modify]
  exact placed.place

theorem Placed.read (placed : replay.Placed) {size : Nat} (positive : 0 < size) :
    (replay.read size).Placed := by
  refine ⟨?_, positive⟩
  have place := placed.place
  rw [Replay.read, length_page]
  dsimp only
  omega

theorem Placed.back (placed : replay.Placed) : replay.back.Placed :=
  ⟨Nat.le_trans (pageStart_le _ _) placed.place, placed.size⟩

theorem Placed.rewind (placed : replay.Placed) : replay.rewind.Placed :=
  ⟨Nat.zero_le _, placed.size⟩

/-- After a page read from the start of a page, one step back is that start, and another the start
of the page before. -/
theorem back_read {size : Nat} (start : replay.place % size = 0) (some : replay.page size ≠ []) :
    (replay.read size).back.place = replay.place ∧
      (replay.read size).back.back.place = replay.place - size := by
  have positive := List.length_pos_iff.mpr some
  have few : (replay.page size).length ≤ size := by
    rw [length_page]
    exact Nat.min_le_left _ _
  have first : (replay.read size).back.place = replay.place :=
    pageStart_of_page start positive few
  refine ⟨first, ?_⟩
  change pageStart size (replay.read size).back.place = _
  rw [first, pageStart_of_start (by omega) start]

end Placed

end Replay

end Bookshelfdq
