import Bookshelfdq.Client.BookPositions
import Bookshelfdq.Foundation.Execution
import Bookshelfdq.Foundation.Replay
import Mathlib.Algebra.Order.Group.Nat

/-! # Pages replayed from the cache of books

The cache is a list read page by page. Entries left in the file from before a reset do not come
back. -/

namespace Bookshelfdq

/-- What is done to the cache between two resets, every store succeeding. The size of a page is
positive. -/
inductive CacheUse
  | append (book : BookEntry)
  | overwrite (book : BookEntry) (position : Nat)
  | delete (position : Nat)
  | readPage (size : {size : Nat // 0 < size})
  | backwardMode
  | searchReset

namespace BookCache

/-- `clidb_book_search_step`, and then `clidb_book_get` until it returns `-1`. -/
def readPage (size : Nat) (cache : BookCache) : Option (List (Nat × BookEntry)) × BookCache :=
  (cache.clidbBookSearchStep size).getPage (size + 1)

def use (cache : BookCache) : CacheUse → BookCache
  | .append book => cache.clidbBookInsert book
  | .overwrite book position => cache.clidbBookInsertAt book position
  | .delete position => cache.clidbBookDelete position
  | .readPage size => (cache.readPage size.val).2
  | .backwardMode => cache.clidbBookBackwardMode
  | .searchReset => cache.clidbBookSearchReset

/-- Entries are overwritten and deleted below `book_dbm_pos`. -/
def InUse (cache : BookCache) : CacheUse → Prop
  | .overwrite _ position => position < cache.bookDbmPos
  | .delete position => position < cache.bookDbmPos
  | _ => True

instance (cache : BookCache) (event : CacheUse) : Decidable (cache.InUse event) :=
  match event with
  | .append _ => inferInstanceAs (Decidable True)
  | .overwrite _ position => inferInstanceAs (Decidable (position < cache.bookDbmPos))
  | .delete position => inferInstanceAs (Decidable (position < cache.bookDbmPos))
  | .readPage _ => inferInstanceAs (Decidable True)
  | .backwardMode => inferInstanceAs (Decidable True)
  | .searchReset => inferInstanceAs (Decidable True)

end BookCache

/-- The same on a list of books. -/
def Replay.use (replay : Replay BookEntry) : CacheUse → Replay BookEntry
  | .append book => replay.append book
  | .overwrite book position => replay.change (fun _ => book) position
  | .delete position => replay.change (fun book => { book with encodingTime := .empty }) position
  | .readPage size => replay.read size.val
  | .backwardMode => replay.back
  | .searchReset => replay.rewind

theorem Replay.Placed.use {replay : Replay BookEntry} (placed : replay.Placed)
    (event : CacheUse) : (replay.use event).Placed := by
  cases event with
  | append book => exact placed.append book
  | overwrite book position => exact placed.change _ position
  | delete position => exact placed.change _ position
  | readPage size => exact placed.read size.property
  | backwardMode => exact placed.back
  | searchReset => exact placed.rewind

namespace BookCache

/-- The cache holds the list. -/
structure Holds (cache : BookCache) (replay : Replay BookEntry) : Prop where
  length : replay.entries.length = cache.bookDbmPos
  entries : ∀ position < cache.bookDbmPos, cache.bookData position = replay.entries[position]?
  place : cache.bookSearchPos = replay.place
  size : cache.bookSearchStep = replay.size

section Holds

variable {cache : BookCache} {replay : Replay BookEntry} (holds : cache.Holds replay)

include holds

theorem Holds.filled : cache.Filled := by
  intro position used
  rw [holds.entries position used, List.getElem?_eq_getElem (holds.length ▸ used)]
  rfl

theorem Holds.insert (book : BookEntry) : (cache.clidbBookInsert book).Holds (replay.append book) := by
  refine ⟨?_, ?_, holds.place, holds.size⟩
  · rw [Replay.append, List.length_append, holds.length]
    rfl
  · intro position used
    change Function.update cache.bookData cache.bookDbmPos (some book) position =
      (replay.entries ++ [book])[position]?
    by_cases last : position = cache.bookDbmPos
    · rw [last, Function.update_self, ← holds.length, List.getElem?_concat_length]
    · have earlier : position < cache.bookDbmPos :=
        Nat.lt_of_le_of_ne (Nat.le_of_lt_succ used) last
      rw [Function.update_of_ne last, holds.entries position earlier,
        List.getElem?_append_left (holds.length ▸ earlier)]

/-- A store at a position in use. -/
theorem Holds.insertAt {position : Nat} {book entry : BookEntry} {edit : BookEntry → BookEntry}
    (stored : cache.bookData position = some book)
    (edited : edit book = entry) :
    (cache.clidbBookInsertAt entry position).Holds (replay.change edit position) := by
  refine ⟨?_, ?_, holds.place, holds.size⟩
  · rw [Replay.change, List.length_modify]
    exact holds.length
  · intro other otherUsed
    change Function.update cache.bookData position (some entry) other =
      (replay.entries.modify position edit)[other]?
    have old := holds.entries other otherUsed
    rw [List.getElem?_modify, ← old]
    by_cases here : other = position
    · rw [here, Function.update_self, stored, ← edited]
      exact congrArg some (if_pos rfl).symm
    · have apart : position ≠ other := Ne.symm here
      rw [Function.update_of_ne here]
      simp [apart]

theorem Holds.delete {position : Nat} (used : position < cache.bookDbmPos) :
    (cache.clidbBookDelete position).Holds
      (replay.change (fun book => { book with encodingTime := .empty }) position) := by
  rcases Option.isSome_iff_exists.mp (holds.filled position used) with ⟨book, stored⟩
  rw [clidbBookDelete, clidbBookPeek, stored]
  exact holds.insertAt stored rfl

theorem Holds.backwardMode : cache.clidbBookBackwardMode.Holds replay.back := by
  refine ⟨holds.length, holds.entries, ?_, holds.size⟩
  change (if 0 < cache.bookSearchPos ∧ cache.bookSearchPos % cache.bookSearchStep = 0 then
      cache.bookSearchPos / cache.bookSearchStep - 1
    else cache.bookSearchPos / cache.bookSearchStep) * cache.bookSearchStep =
      Replay.pageStart replay.size replay.place
  rw [holds.place, holds.size, Replay.pageStart]
  congr 1
  cases replay.place with
  | zero => exact if_neg fun both => Nat.lt_irrefl 0 both.1
  | succ place =>
      rw [Nat.succ_div, Nat.add_sub_cancel]
      by_cases whole : replay.size ∣ place + 1
      · rw [if_pos ⟨Nat.succ_pos place, Nat.mod_eq_zero_of_dvd whole⟩, if_pos whole,
          Nat.add_sub_cancel]
      · rw [if_neg fun both => whole (Nat.dvd_of_mod_eq_zero both.2), if_neg whole, Nat.add_zero]

/-- A page read is the page of the list, with the positions of its entries. -/
theorem Holds.readPage {size : Nat} (placed : replay.Placed) :
    ∃ rows, (cache.readPage size).1 = some rows ∧
      rows.map Prod.snd = replay.page size ∧
      rows.map Prod.fst = List.range' cache.bookSearchPos (replay.page size).length ∧
      (cache.readPage size).2.Holds (replay.read size) := by
  have stepped : (cache.clidbBookSearchStep size).Filled := holds.filled
  have enough : size < 0 + (size + 1) := by omega
  rcases getPage_read (size + 1) stepped (Nat.zero_le _) enough with ⟨rows, printed, length, read⟩
  have same : rows.length = (replay.page size).length := by
    rw [length, Replay.length_page, holds.length, ← holds.place]
    rfl
  have inside : cache.bookSearchPos + rows.length ≤ cache.bookDbmPos := by
    have place := placed.place
    rw [same, Replay.length_page, holds.place, ← holds.length]
    omega
  have searchPos : (cache.readPage size).2.bookSearchPos = cache.bookSearchPos + rows.length :=
    read.searchPos
  have dbmPos : (cache.readPage size).2.bookDbmPos = cache.bookDbmPos := read.dbmPos
  have data : (cache.readPage size).2.bookData = cache.bookData := read.data
  refine ⟨rows, printed, ?_, ?_, ?_, ?_, ?_, read.searchStep⟩
  · apply List.ext_getElem?
    intro line
    rw [List.getElem?_map]
    cases entry : rows[line]? with
    | none =>
        have behind := List.getElem?_eq_none_iff.mp entry
        exact (List.getElem?_eq_none_iff.mpr (same ▸ behind)).symm
    | some row =>
        have bound := (List.getElem?_eq_some_iff.mp entry).1
        rcases read.entries line row entry with ⟨position, stored⟩
        have here : row.1 = cache.bookSearchPos + line := position
        have old := holds.entries row.1 (by omega)
        have few : line < size := by
          have size := Replay.length_page size replay
          omega
        change cache.bookData row.1 = some row.2 at stored
        rw [stored, here, holds.place] at old
        rw [Replay.page, List.getElem?_take_of_lt few, List.getElem?_drop, ← old]
        rfl
  · apply List.ext_getElem?
    intro line
    rw [List.getElem?_map]
    cases entry : rows[line]? with
    | none =>
        have behind := List.getElem?_eq_none_iff.mp entry
        rw [List.getElem?_eq_none_iff.mpr]
        · rfl
        · rw [List.length_range']
          exact same ▸ behind
    | some row =>
        have bound := (List.getElem?_eq_some_iff.mp entry).1
        have position : row.1 = cache.bookSearchPos + line := (read.entries line row entry).1
        rw [List.getElem?_range' (same ▸ bound), Nat.one_mul, ← position]
        rfl
  · rw [dbmPos]
    exact holds.length
  · rw [dbmPos, data]
    exact holds.entries
  · rw [searchPos, same, holds.place]
    rfl

theorem Holds.use (placed : replay.Placed) {event : CacheUse} (inUse : cache.InUse event) :
    (cache.use event).Holds (replay.use event) := by
  cases event with
  | append book => exact holds.insert book
  | overwrite book position =>
      rcases Option.isSome_iff_exists.mp (holds.filled position inUse) with ⟨old, stored⟩
      exact holds.insertAt stored rfl
  | delete position => exact holds.delete inUse
  | readPage size =>
      rcases holds.readPage placed with ⟨_, _, _, _, read⟩
      exact read
  | backwardMode => exact holds.backwardMode
  | searchReset => exact ⟨holds.length, holds.entries, rfl, holds.size⟩

end Holds

/-- The list of a cache after a reset. -/
def replayed (cache : BookCache) : Replay BookEntry := ⟨[], 0, cache.bookSearchStep⟩

theorem holds_replayed (cache : BookCache) : cache.clidbBookReset.Holds cache.replayed :=
  ⟨rfl, fun position used => absurd used (Nat.not_lt_zero position), rfl, rfl⟩

theorem holds_of_run {cache : BookCache} {replay : Replay BookEntry} (holds : cache.Holds replay)
    (placed : replay.Placed) {events : List CacheUse} (inUse : Execution.Along use InUse cache events) :
    (Execution.run use cache events).Holds (Execution.run Replay.use replay events) ∧
      (Execution.run Replay.use replay events).Placed := by
  induction events generalizing cache replay with
  | nil => exact ⟨holds, placed⟩
  | cons event events induction =>
      exact induction (holds.use placed inUse.1) (placed.use event) inUse.2

/-- In every state reached from a reset the cache replays the list that was appended and changed: a
page read anywhere is that part of the list, and going back returns to where the page started and
then to the page before. -/
theorem cached_pages_replayed (cache : BookCache) (stepped : 0 < cache.bookSearchStep)
    (events : List CacheUse) (inUse : Execution.Along use InUse cache.clidbBookReset events)
    (size : Nat) (positive : 0 < size) :
    let reached := Execution.run use cache.clidbBookReset events
    let replay := Execution.run Replay.use cache.replayed events
    (reached.bookSearchPos ≤ reached.bookDbmPos ∧ reached.bookDbmPos = replay.entries.length) ∧
      (∃ rows, (reached.readPage size).1 = some rows ∧
        rows.map Prod.snd = (replay.entries.drop reached.bookSearchPos).take size ∧
        rows.map Prod.fst = List.range' reached.bookSearchPos
          (min (reached.bookSearchPos + size) reached.bookDbmPos - reached.bookSearchPos)) ∧
      (reached.bookSearchPos % size = 0 → reached.bookSearchPos < reached.bookDbmPos →
        (reached.readPage size).2.clidbBookBackwardMode.bookSearchPos = reached.bookSearchPos ∧
          (reached.readPage size).2.clidbBookBackwardMode.clidbBookBackwardMode.bookSearchPos =
            max ((reached.bookSearchPos : Int) - size) 0) := by
  intro reached replay
  have start : cache.replayed.Placed := ⟨Nat.le_refl 0, stepped⟩
  have run : reached.Holds replay ∧ replay.Placed := holds_of_run (holds_replayed cache) start inUse
  rcases run with ⟨holds, placed⟩
  rcases holds.readPage placed with ⟨rows, printed, entries, positions, read⟩
  have place := placed.place
  have length := Replay.length_page size replay
  rw [← holds.place, holds.length] at place length
  refine ⟨⟨place, holds.length.symm⟩, ⟨rows, printed, ?_, ?_⟩, ?_⟩
  · rw [entries, holds.place]
    rfl
  · rw [positions, length]
    congr 1
    omega
  · intro start some
    have nonempty : replay.page size ≠ [] := by
      apply List.length_pos_iff.mp
      omega
    have first := read.backwardMode
    have second := first.backwardMode
    rcases Replay.back_read (holds.place ▸ start) nonempty with ⟨back, before⟩
    rw [first.place, second.place, back, before, holds.place]
    refine ⟨rfl, ?_⟩
    omega

def sampleUses : List CacheUse :=
  [.append .zeroed, .append .zeroed, .append .zeroed, .readPage ⟨2, by decide⟩, .delete 1,
    .backwardMode]

/-- Three books and a deleted one, in pages of two. -/
theorem sample_pages_replayed :
    let reached := Execution.run use BookCache.empty.clidbBookReset sampleUses
    reached.bookSearchPos % 2 = 0 ∧ reached.bookSearchPos < reached.bookDbmPos ∧
      (reached.readPage 2).2.clidbBookBackwardMode.bookSearchPos = reached.bookSearchPos :=
  ⟨by decide, by decide,
    ((cached_pages_replayed .empty (by decide) sampleUses (by decide) 2 (by decide)).2.2
      (by decide) (by decide)).1⟩

end BookCache

end Bookshelfdq
