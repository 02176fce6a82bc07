import Mathlib.Data.List.Basic

/-! # Values in memory

A layout says how values of a type are stored in so many bytes and loaded again. Storing writes
over what the bytes held before, and may leave some of it; only values that fit are stored. -/

namespace Bookshelfdq

structure Layout (Byte Value : Type*) where
  size : Nat
  fits : Value → Prop
  store : Value → List Byte → List Byte
  load : List Byte → Option Value
  length_store : ∀ value old, fits value → old.length = size → (store value old).length = size
  load_store : ∀ value old, fits value → old.length = size →
    load (store value old) = some value
  fits_load : ∀ value bytes, bytes.length = size → load bytes = some value → fits value

namespace Layout

variable {Byte First Second Value Other : Type*}

/-- Storage that nothing is stored in. -/
def gap (Byte : Type*) (count : Nat) : Layout Byte Unit where
  size := count
  fits _ := True
  store _ old := old
  load _ := some ()
  length_store _ _ _ size := size
  load_store _ _ _ _ := rfl
  fits_load _ _ _ _ := trivial

/-- Two values one behind the other, the first of which says how the second is laid out. -/
def dependent (first : Layout Byte First) (second : First → Layout Byte Second) (rest : Nat)
    (sized : ∀ value, (second value).size = rest) : Layout Byte (First × Second) where
  size := first.size + rest
  fits value := first.fits value.1 ∧ (second value.1).fits value.2
  store value old :=
    first.store value.1 (old.take first.size) ++
      (second value.1).store value.2 (old.drop first.size)
  load bytes :=
    (first.load (bytes.take first.size)).bind fun left =>
      ((second left).load (bytes.drop first.size)).map fun right => (left, right)
  length_store value old fits size := by
    rw [List.length_append, first.length_store _ _ fits.1 (by simp [size]),
      (second value.1).length_store _ _ fits.2 (by simp [size, sized]), sized]
  load_store value old fits size := by
    have front := first.length_store value.1 (old.take first.size) fits.1 (by simp [size])
    rw [List.take_left' front, List.drop_left' front, first.load_store _ _ fits.1 (by simp [size]),
      Option.bind_some, (second value.1).load_store _ _ fits.2 (by simp [size, sized])]
    rfl
  fits_load value bytes length loaded := by
    rcases Option.bind_eq_some_iff.mp loaded with ⟨left, leftLoaded, loaded⟩
    rcases Option.map_eq_some_iff.mp loaded with ⟨right, rightLoaded, rfl⟩
    exact ⟨first.fits_load _ _ (by simp [length]) leftLoaded,
      (second left).fits_load _ _ (by simp [length, sized]) rightLoaded⟩

/-- Two values one behind the other. -/
def pair (first : Layout Byte First) (second : Layout Byte Second) :
    Layout Byte (First × Second) :=
  first.dependent (fun _ => second) second.size (fun _ => rfl)

/-- A value stored as another one. -/
def through (layout : Layout Byte Value) (domain : Other → Prop) (encode : Other → Value)
    (decode : Value → Option Other)
    (inverse : ∀ other, domain other → decode (encode other) = some other)
    (image : ∀ value other, decode value = some other → domain other ∧ encode other = value) :
    Layout Byte Other where
  size := layout.size
  fits other := domain other ∧ layout.fits (encode other)
  store other := layout.store (encode other)
  load bytes := (layout.load bytes).bind decode
  length_store other old fits := layout.length_store (encode other) old fits.2
  load_store other old fits size := by
    rw [layout.load_store _ _ fits.2 size]
    exact inverse other fits.1
  fits_load other bytes length loaded := by
    rcases Option.bind_eq_some_iff.mp loaded with ⟨value, valueLoaded, decoded⟩
    rcases image value other decoded with ⟨inside, rfl⟩
    exact ⟨inside, layout.fits_load _ _ length valueLoaded⟩

/-- A value with padding behind it. -/
def padded (layout : Layout Byte Value) (count : Nat) : Layout Byte Value :=
  (layout.pair (gap Byte count)).through (fun _ => True) (fun value => (value, ()))
    (fun pair => some pair.1) (fun _ _ => rfl)
    (fun _ _ decoded => ⟨trivial, by cases decoded; rfl⟩)

/-! ### Loading from parts -/

section Load

variable {first : Layout Byte First} {second : First → Layout Byte Second} {rest : Nat}
  {sized : ∀ value, (second value).size = rest} {bytes : List Byte}

theorem load_dependent_iff {left : First} {right : Second} :
    (first.dependent second rest sized).load bytes = some (left, right) ↔
      first.load (bytes.take first.size) = some left ∧
        (second left).load (bytes.drop first.size) = some right := by
  constructor
  · intro loaded
    rcases Option.bind_eq_some_iff.mp loaded with ⟨value, valueLoaded, loaded⟩
    rcases Option.map_eq_some_iff.mp loaded with ⟨other, otherLoaded, same⟩
    cases same
    exact ⟨valueLoaded, otherLoaded⟩
  · rintro ⟨leftLoaded, rightLoaded⟩
    exact Option.bind_eq_some_iff.mpr
      ⟨left, leftLoaded, Option.map_eq_some_iff.mpr ⟨right, rightLoaded, rfl⟩⟩

theorem load_pair_iff {second : Layout Byte Second} {left : First} {right : Second} :
    (first.pair second).load bytes = some (left, right) ↔
      first.load (bytes.take first.size) = some left ∧
        second.load (bytes.drop first.size) = some right :=
  load_dependent_iff

theorem load_padded (layout : Layout Byte Value) (count : Nat) (bytes : List Byte) :
    (layout.padded count).load bytes = layout.load (bytes.take layout.size) := by
  show ((layout.load (bytes.take layout.size)).bind fun left => some (left, ())).bind
    (fun pair => some pair.1) = _
  cases layout.load (bytes.take layout.size) <;> rfl

end Load

def single (Byte : Type*) : Layout Byte Byte where
  size := 1
  fits _ := True
  store byte _ := [byte]
  load bytes := bytes.head?
  length_store _ _ _ _ := rfl
  load_store _ _ _ _ := rfl
  fits_load _ _ _ _ := trivial

/-! ## Arrays -/

section Array

variable (layout : Layout Byte Value)

def storeArray : List Value → List Byte → List Byte
  | [], old => old
  | value :: rest, old =>
      layout.store value (old.take layout.size) ++ storeArray rest (old.drop layout.size)

def loadArray : Nat → List Byte → Option (List Value)
  | 0, _ => some []
  | count + 1, bytes =>
      (layout.load (bytes.take layout.size)).bind fun value =>
        (loadArray count (bytes.drop layout.size)).map fun rest => value :: rest

variable {layout}

theorem length_storeArray {values : List Value} {old : List Byte}
    (fits : ∀ value ∈ values, layout.fits value)
    (size : old.length = values.length * layout.size) :
    (layout.storeArray values old).length = values.length * layout.size := by
  induction values generalizing old with
  | nil => exact size
  | cons value rest induction =>
      rw [List.length_cons, Nat.succ_mul] at size
      rw [storeArray, List.length_append, induction, layout.length_store, List.length_cons,
        Nat.succ_mul, Nat.add_comm]
      · exact fits value List.mem_cons_self
      · simp [size]
      · intro later member
        exact fits later (List.mem_cons_of_mem _ member)
      · simp [size]

theorem loadArray_storeArray {values : List Value} {old : List Byte}
    (fits : ∀ value ∈ values, layout.fits value)
    (size : old.length = values.length * layout.size) :
    layout.loadArray values.length (layout.storeArray values old) = some values := by
  induction values generalizing old with
  | nil => rfl
  | cons value rest induction =>
      rw [List.length_cons, Nat.succ_mul] at size
      have first := fits value List.mem_cons_self
      have front := layout.length_store value (old.take layout.size) first (by simp [size])
      rw [storeArray, List.length_cons, loadArray, List.take_left' front, List.drop_left' front,
        layout.load_store _ _ first (by simp [size]), induction]
      · rfl
      · intro later member
        exact fits later (List.mem_cons_of_mem _ member)
      · simp [size]

theorem fits_loadArray {count : Nat} {bytes : List Byte} {values : List Value}
    (size : bytes.length = count * layout.size)
    (loaded : layout.loadArray count bytes = some values) :
    values.length = count ∧ ∀ value ∈ values, layout.fits value := by
  induction count generalizing bytes values with
  | zero =>
      obtain rfl := Option.some.inj loaded
      simp
  | succ count induction =>
      rcases Option.bind_eq_some_iff.mp loaded with ⟨value, valueLoaded, loaded⟩
      rcases Option.map_eq_some_iff.mp loaded with ⟨rest, restLoaded, rfl⟩
      rw [Nat.succ_mul] at size
      rcases induction (by simp [size]) restLoaded with ⟨length, fits⟩
      refine ⟨by rw [List.length_cons, length], ?_⟩
      intro member inside
      rcases List.mem_cons.mp inside with rfl | later
      · exact layout.fits_load _ _ (by simp [size]) valueLoaded
      · exact fits member later

/-- So many values of one kind one behind the other. -/
def array (layout : Layout Byte Value) (count : Nat) : Layout Byte (List Value) where
  size := count * layout.size
  fits values := values.length = count ∧ ∀ value ∈ values, layout.fits value
  store := layout.storeArray
  load := layout.loadArray count
  length_store values old fits size := by
    rw [← fits.1] at size ⊢
    exact length_storeArray fits.2 size
  load_store values old fits size := by
    rw [← fits.1] at size ⊢
    exact loadArray_storeArray fits.2 size
  fits_load _ _ size loaded := fits_loadArray size loaded

end Array

end Layout

end Bookshelfdq
