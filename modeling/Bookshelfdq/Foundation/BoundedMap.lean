import Mathlib.Data.List.Forall2
import Mathlib.Data.List.Nodup

/-! # Maps of bounded size

A map as the list of its entries in order of insertion. An entry is never removed; a
key that is present can only be given another value. -/

namespace Bookshelfdq

structure BoundedMap (Key : Type u) (Value : Type v) (capacity : Nat) where
  entries : List (Key × Value)
  unique : (entries.map Prod.fst).Nodup
  bounded : entries.length ≤ capacity

namespace BoundedMap

variable {Key : Type u} {Value : Type v} {capacity : Nat}

def empty : BoundedMap Key Value capacity := ⟨[], List.nodup_nil, Nat.zero_le capacity⟩

def keys (map : BoundedMap Key Value capacity) : List Key := map.entries.map Prod.fst

variable [DecidableEq Key]

def lookup (map : BoundedMap Key Value capacity) (key : Key) : Option Value :=
  (map.entries.find? fun entry => decide (entry.1 = key)).map Prod.snd

/-- Refused for a key that is present and when the map is full. -/
def insert (key : Key) (value : Value) (map : BoundedMap Key Value capacity) :
    Option (BoundedMap Key Value capacity) :=
  if room : key ∉ map.keys ∧ map.entries.length < capacity then
    some {
      entries := map.entries ++ [(key, value)]
      unique := by
        rw [List.map_append]
        apply List.nodup_append'.mpr
        refine ⟨map.unique, List.nodup_singleton key, ?_⟩
        exact List.disjoint_singleton.mpr room.1
      bounded := by
        rw [List.length_append]
        exact room.2 }
  else none

def modify (key : Key) (change : Value → Value) (map : BoundedMap Key Value capacity) :
    BoundedMap Key Value capacity where
  entries := map.entries.map fun entry =>
    if entry.1 = key then (entry.1, change entry.2) else entry
  unique := by
    have same : (map.entries.map fun entry =>
        if entry.1 = key then (entry.1, change entry.2) else entry).map Prod.fst =
        map.entries.map Prod.fst := by
      rw [List.map_map]
      apply List.map_congr_left
      intro entry _
      show (if entry.1 = key then (entry.1, change entry.2) else entry).1 = entry.1
      split <;> rfl
    rw [same]
    exact map.unique
  bounded := by
    rw [List.length_map]
    exact map.bounded

theorem insert_eq_some {key : Key} (value : Value) {map : BoundedMap Key Value capacity}
    (fresh : key ∉ map.keys) (room : map.entries.length < capacity) :
    ∃ larger, map.insert key value = some larger ∧
      larger.entries = map.entries ++ [(key, value)] := by
  rw [insert, dif_pos ⟨fresh, room⟩]
  exact ⟨_, rfl, rfl⟩

end BoundedMap

/-- Lists that correspond item by item are searched with the same result. -/
theorem find?_of_forall₂ {Left : Type u} {Right : Type v} {related : Left → Right → Prop}
    {left : Left → Bool} {right : Right → Bool}
    (agree : ∀ first second, related first second → left first = right second)
    {firsts : List Left} {seconds : List Right} (pairs : List.Forall₂ related firsts seconds) :
    (firsts.find? left = none ∧ seconds.find? right = none) ∨
      ∃ first second, firsts.find? left = some first ∧ seconds.find? right = some second ∧
        related first second := by
  induction pairs with
  | nil => exact .inl ⟨rfl, rfl⟩
  | @cons first second firsts seconds pair pairs induction =>
      have same := agree first second pair
      cases found : right second with
      | true => exact .inr ⟨first, second, by simp [same, found], by simp [found], pair⟩
      | false => simpa [same, found] using induction

end Bookshelfdq
