import Mathlib.Data.List.Sort
import Mathlib.Data.List.Forall2

/-! # Tables with an integer key

A table is the list of its rows in insertion order. The operations are those of
single-table SQL: a conditional update that is rejected as a whole when one row
is, an insertion guarded by the primary key, and a selection in key order. -/

namespace Bookshelfdq.Table

variable {Row : Type u}

/-! ## Updates -/

/-- Rewrite the selected rows. A row that cannot take its new value (`none`)
rejects the statement, which then has no effect. -/
def update (selected : Row → Bool) (change : Row → Option Row) :
    List Row → Option (List Row)
  | [] => some []
  | row :: rows =>
      (if selected row then change row else some row).bind fun changed =>
        (update selected change rows).map fun rest => changed :: rest

def Becomes (selected : Row → Bool) (change : Row → Option Row)
    (before after : Row) : Prop :=
  (if selected before then change before else some before) = some after

theorem update_eq_some_iff {selected : Row → Bool} {change : Row → Option Row}
    {rows updated : List Row} :
    update selected change rows = some updated ↔
      List.Forall₂ (Becomes selected change) rows updated := by
  induction rows generalizing updated with
  | nil => simp [update, eq_comm]
  | cons row rows induction =>
      simp only [update, Option.bind_eq_some_iff, Option.map_eq_some_iff,
        List.forall₂_cons_left_iff]
      constructor
      · rintro ⟨changed, headBecomes, rest, restUpdated, rfl⟩
        exact ⟨changed, rest, headBecomes, induction.mp restUpdated, rfl⟩
      · rintro ⟨changed, rest, headBecomes, restBecome, rfl⟩
        exact ⟨changed, headBecomes, rest, induction.mpr restBecome, rfl⟩

theorem update_total (selected : Row → Bool) (change : Row → Row) (rows : List Row) :
    update selected (fun row => some (change row)) rows =
      some (rows.map fun row => if selected row then change row else row) := by
  induction rows with
  | nil => rfl
  | cons row rows induction =>
      by_cases chosen : selected row = true <;> simp [update, induction, chosen]

/-- Where the selected rows are all to take one value, an update writes it or nothing. -/
theorem update_alike {selected : Row → Bool} {change : Row → Option Row} {value : Option Row}
    (alike : ∀ row, selected row = true → change row = value) (rows : List Row) :
    (update selected change rows).getD rows =
      rows.map fun row => if selected row then value.getD row else row := by
  cases value with
  | some value =>
      have total : update selected change rows = update selected (fun _ => some value) rows := by
        induction rows with
        | nil => rfl
        | cons row rows induction =>
            rw [update, update, induction]
            by_cases chosen : selected row = true
            · rw [if_pos chosen, if_pos chosen, alike row chosen]
            · rw [if_neg chosen, if_neg chosen]
      rw [total, update_total]
      rfl
  | none =>
      have same : (update selected change rows).getD rows = rows := by
        induction rows with
        | nil => rfl
        | cons row rows induction =>
            rw [update]
            by_cases chosen : selected row = true
            · rw [if_pos chosen, alike row chosen]
              rfl
            · rw [if_neg chosen]
              cases rest : update selected change rows with
              | none => rfl
              | some updated =>
                  rw [rest] at induction
                  exact congrArg (row :: ·) induction
      rw [same]
      simp

theorem exists_update (selected : Row → Bool) {change : Row → Option Row} {rows : List Row}
    (fits : ∀ row ∈ rows, ∃ changed, change row = some changed) :
    ∃ updated, update selected change rows = some updated := by
  induction rows with
  | nil => exact ⟨[], rfl⟩
  | cons row rows induction =>
      rcases fits row List.mem_cons_self with ⟨changed, becomes⟩
      rcases induction fun row member => fits row (List.mem_cons_of_mem _ member) with
        ⟨rest, updated⟩
      by_cases chosen : selected row = true
      · exact ⟨changed :: rest, by simp [update, chosen, becomes, updated]⟩
      · exact ⟨row :: rest, by simp [update, chosen, updated]⟩

/-- The number of rows an update really alters, as the client library counts
them: selected rows whose new value differs from the old one. -/
def affected [DecidableEq Row] (selected : Row → Bool) (change : Row → Option Row)
    (rows : List Row) : Nat :=
  rows.countP fun row => selected row && decide (change row ≠ some row)

section Keyed

variable {key : Row → Int} {selected : Row → Bool} {change : Row → Option Row}

/-- What no row changes when it is rewritten, the table keeps in place. -/
theorem map_update {Feature : Type v} {feature : Row → Feature} {rows updated : List Row}
    (keeps : ∀ row ∈ rows, ∀ changed, selected row = true → change row = some changed →
      feature changed = feature row)
    (accepted : update selected change rows = some updated) :
    updated.map feature = rows.map feature := by
  have each := update_eq_some_iff.mp accepted
  induction each with
  | nil => rfl
  | @cons row changed rows updated becomes rest induction =>
      have head : feature changed = feature row := by
        unfold Becomes at becomes
        split at becomes
        case isTrue chosen => exact keeps row List.mem_cons_self changed chosen becomes
        case isFalse => exact congrArg feature (Option.some.inj becomes).symm
      have tail := induction (fun row member => keeps row (List.mem_cons_of_mem _ member))
        (update_eq_some_iff.mpr rest)
      rw [List.map_cons, List.map_cons, head, tail]

/-- Two kinds of rows that exclude each other are no more than the rows of a kind that
both belong to. -/
theorem length_filter_add_le {first second both : Row → Bool} {rows : List Row}
    (apart : ∀ row ∈ rows, ¬(first row = true ∧ second row = true))
    (ofFirst : ∀ row, first row = true → both row = true)
    (ofSecond : ∀ row, second row = true → both row = true) :
    (rows.filter first).length + (rows.filter second).length ≤ (rows.filter both).length := by
  induction rows with
  | nil => exact Nat.le_refl 0
  | cons row rows induction =>
      have rest := induction fun row member => apart row (List.mem_cons_of_mem _ member)
      by_cases isFirst : first row = true
      · have notSecond : ¬ second row = true := fun isSecond =>
          apart row List.mem_cons_self ⟨isFirst, isSecond⟩
        rw [List.filter_cons_of_pos isFirst, List.filter_cons_of_neg notSecond,
          List.filter_cons_of_pos (ofFirst row isFirst), List.length_cons, List.length_cons]
        omega
      · rw [List.filter_cons_of_neg isFirst]
        by_cases isSecond : second row = true
        · rw [List.filter_cons_of_pos isSecond, List.filter_cons_of_pos (ofSecond row isSecond),
            List.length_cons, List.length_cons]
          omega
        · rw [List.filter_cons_of_neg isSecond]
          have more := ((List.sublist_cons_self row rows).filter both).length_le
          omega

/-- Rows outside the selection survive an update in place, and no row enters
their part of the table. -/
theorem filter_update {kept : Row → Bool}
    (apart : ∀ row, selected row = true → kept row = false)
    (stays : ∀ row changed, selected row = true → change row = some changed →
      kept changed = false)
    {rows updated : List Row} (accepted : update selected change rows = some updated) :
    updated.filter kept = rows.filter kept := by
  have each := update_eq_some_iff.mp accepted
  induction each with
  | nil => rfl
  | @cons row changed rows updated becomes rest induction =>
      have tailEqual := induction (update_eq_some_iff.mpr rest)
      unfold Becomes at becomes
      split at becomes
      · rename_i chosen
        simp [apart row chosen, stays row changed chosen becomes, tailEqual]
      · obtain rfl := Option.some.inj becomes
        simp [List.filter_cons, tailEqual]

theorem exists_becomes_of_mem {rows updated : List Row} {row : Row}
    (accepted : update selected change rows = some updated) (member : row ∈ rows) :
    ∃ changed ∈ updated, Becomes selected change row changed := by
  have each := update_eq_some_iff.mp accepted
  induction each with
  | nil => cases member
  | @cons head changed rows updated becomes rest induction =>
      rcases List.mem_cons.mp member with equal | member
      · subst equal
        exact ⟨changed, List.mem_cons_self, becomes⟩
      · rcases induction (update_eq_some_iff.mpr rest) member with
          ⟨later, laterMem, laterBecomes⟩
        exact ⟨later, List.mem_cons_of_mem _ laterMem, laterBecomes⟩

theorem mem_update {rows updated : List Row} {row : Row}
    (accepted : update selected change rows = some updated) (member : row ∈ rows)
    (spared : selected row = false) : row ∈ updated := by
  obtain ⟨changed, changedMem, becomes⟩ := exists_becomes_of_mem accepted member
  rw [Becomes, spared] at becomes
  exact Option.some.inj becomes ▸ changedMem

theorem exists_source_of_mem {rows updated : List Row} {changed : Row}
    (accepted : update selected change rows = some updated) (member : changed ∈ updated) :
    ∃ row ∈ rows, Becomes selected change row changed := by
  have each := update_eq_some_iff.mp accepted
  induction each with
  | nil => cases member
  | @cons row head rows updated becomes rest induction =>
      rcases List.mem_cons.mp member with equal | member
      · subst equal
        exact ⟨row, List.mem_cons_self, becomes⟩
      · rcases induction (update_eq_some_iff.mpr rest) member with
          ⟨source, sourceMem, sourceBecomes⟩
        exact ⟨source, List.mem_cons_of_mem _ sourceMem, sourceBecomes⟩

/-- Where keys are unique, an update of one key that alters its row affects one
row. -/
theorem affected_key_eq_one [DecidableEq Row] {rows : List Row} {row : Row}
    (nodup : (rows.map key).Nodup) (member : row ∈ rows)
    (alters : change row ≠ some row) :
    affected (fun other => key other == key row) change rows = 1 := by
  induction rows with
  | nil => cases member
  | cons head rows induction =>
      have parts := List.nodup_cons.mp nodup
      rcases List.mem_cons.mp member with equal | member
      · subst equal
        have others : affected (fun other => key other == key row) change rows = 0 := by
          apply List.countP_eq_zero.mpr
          intro other otherMem
          have different : key other ≠ key row := fun equal =>
            parts.1 (equal ▸ List.mem_map_of_mem otherMem)
          simp [different]
        rw [affected, List.countP_cons, ← affected, others]
        simp [alters]
      · have different : key head ≠ key row := fun equal =>
          parts.1 (equal ▸ List.mem_map_of_mem member)
        rw [affected, List.countP_cons, ← affected, induction parts.2 member]
        simp [different]

/-! ## Insertion and numbering -/

def insert (key : Row → Int) (row : Row) (rows : List Row) : Option (List Row) :=
  if key row ∈ rows.map key then none else some (rows ++ [row])

theorem insert_eq_some_iff {row : Row} {rows inserted : List Row} :
    insert key row rows = some inserted ↔
      key row ∉ rows.map key ∧ inserted = rows ++ [row] := by
  unfold insert
  split <;> simp_all [eq_comm]

def numbers (count : Nat) : List Int :=
  (List.range count).map fun index : Nat => (index : Int) + 1

@[simp] theorem mem_numbers {count : Nat} {number : Int} :
    number ∈ numbers count ↔ 1 ≤ number ∧ number ≤ count := by
  simp only [numbers, List.mem_map, List.mem_range]
  constructor
  · rintro ⟨index, below, rfl⟩
    omega
  · intro bounds
    exact ⟨(number - 1).toNat, by omega, by omega⟩

theorem numbers_succ (count : Nat) :
    numbers (count + 1) = numbers count ++ [(count : Int) + 1] := by
  simp [numbers, List.range_succ]

theorem numbers_pairwise_lt (count : Nat) : (numbers count).Pairwise (· < ·) := by
  rw [numbers, List.pairwise_map]
  exact List.pairwise_lt_range.imp fun less => by omega

theorem numbers_nodup (count : Nat) : (numbers count).Nodup :=
  (numbers_pairwise_lt count).imp fun less => ne_of_lt less

theorem numbers_max? (count : Nat) :
    (numbers count).max? = if count = 0 then none else some (count : Int) := by
  cases count with
  | zero => rfl
  | succ count =>
      have largest : (numbers (count + 1)).max? = some ((count : Int) + 1) := by
        rw [List.max?_eq_some_iff]
        constructor
        · rw [mem_numbers]
          omega
        · intro number member
          rw [mem_numbers] at member
          omega
      simp [largest]

/-- The keys present are exactly `1, …, count`, each once and in order of
insertion. -/
def Numbered (key : Row → Int) (count : Nat) (rows : List Row) : Prop :=
  rows.map key = numbers count

theorem Numbered.length {count : Nat} {rows : List Row}
    (numbered : Numbered key count rows) : rows.length = count := by
  simpa [numbers] using congrArg List.length numbered

theorem Numbered.mem_iff {count : Nat} {rows : List Row}
    (numbered : Numbered key count rows) (number : Int) :
    (∃ row ∈ rows, key row = number) ↔ 1 ≤ number ∧ number ≤ count := by
  rw [← mem_numbers, ← (numbered : rows.map key = numbers count)]
  simp

theorem Numbered.pairwise_lt {count : Nat} {rows : List Row}
    (numbered : Numbered key count rows) :
    rows.Pairwise fun left right => key left < key right := by
  have ordered := numbers_pairwise_lt count
  rw [← (numbered : rows.map key = numbers count), List.pairwise_map] at ordered
  exact ordered

theorem Numbered.filter_key {count : Nat} {rows : List Row} {row : Row}
    (numbered : Numbered key count rows) (member : row ∈ rows) :
    rows.filter (fun other => key other == key row) = [row] := by
  obtain ⟨before, after, rfl⟩ := List.append_of_mem member
  have ordered := List.pairwise_append.mp numbered.pairwise_lt
  have smaller : before.filter (fun other => key other == key row) = [] := by
    rw [List.filter_eq_nil_iff]
    intro other otherMem
    have less := ordered.2.2 other otherMem row List.mem_cons_self
    simpa using less.ne
  have larger : after.filter (fun other => key other == key row) = [] := by
    rw [List.filter_eq_nil_iff]
    intro other otherMem
    have less := (List.pairwise_cons.mp ordered.2.1).1 other otherMem
    simpa using less.ne'
  rw [List.filter_append, smaller, List.filter_cons_of_pos (by simp), larger]
  rfl

theorem Numbered.key_injective {count : Nat} {rows : List Row}
    (numbered : Numbered key count rows) {left right : Row}
    (leftMem : left ∈ rows) (rightMem : right ∈ rows)
    (equal : key left = key right) : left = right := by
  have nodup : (rows.map key).Nodup := by
    rw [(numbered : rows.map key = numbers count)]
    exact numbers_nodup count
  exact List.inj_on_of_nodup_map nodup leftMem rightMem equal

theorem Numbered.update {count : Nat} {rows updated : List Row}
    (keeps : ∀ row changed, change row = some changed → key changed = key row)
    (accepted : Table.update selected change rows = some updated)
    (numbered : Numbered key count rows) : Numbered key count updated := by
  unfold Numbered
  rw [map_update (fun row _ changed _ becomes => keeps row changed becomes) accepted]
  exact numbered

/-- With unique keys a row of an updated table comes from the row of its key. -/
theorem Numbered.becomes {count : Nat} {rows updated : List Row} {row later : Row}
    (numbered : Numbered key count rows)
    (keeps : ∀ row changed, change row = some changed → key changed = key row)
    (accepted : Table.update selected change rows = some updated)
    (rowMem : row ∈ rows) (laterMem : later ∈ updated) (equal : key later = key row) :
    Becomes selected change row later := by
  rcases exists_source_of_mem accepted laterMem with ⟨source, sourceMem, becomes⟩
  have sourceKey : key later = key source := by
    have becomes := becomes
    rw [Becomes] at becomes
    split at becomes
    · exact keeps source later becomes
    · exact congrArg key (Option.some.inj becomes).symm
  have same : source = row :=
    numbered.key_injective sourceMem rowMem (sourceKey.symm.trans equal)
  exact same ▸ becomes

theorem Numbered.append {count : Nat} {rows : List Row} {row : Row}
    (numbered : Numbered key count rows) (next : key row = (count : Int) + 1) :
    Numbered key (count + 1) (rows ++ [row]) := by
  unfold Numbered at *
  rw [List.map_append, numbered, numbers_succ]
  simp [next]

end Keyed

/-! ## Selection -/

def orderBy (key : Row → Int) (rows : List Row) : List Row :=
  rows.insertionSort fun left right => key left ≤ key right

theorem orderBy_of_pairwise {key : Row → Int} {rows : List Row}
    (ordered : rows.Pairwise fun left right => key left < key right) :
    orderBy key rows = rows :=
  (ordered.imp fun less => le_of_lt less).insertionSort_eq

theorem length_orderBy (key : Row → Int) (rows : List Row) :
    (orderBy key rows).length = rows.length :=
  List.length_insertionSort _ _

end Bookshelfdq.Table
