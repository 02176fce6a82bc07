import Bookshelfdq.Client.SearchKeyword
import Bookshelfdq.Foundation.Trimmed

/-! # Lists of search clauses

What a text of several clauses means. The branches of `handle_searchbook_keyword` for `a=` and
`l=` look at the mode of the name, so that a clause for the whole name switches them off. -/

namespace Bookshelfdq

/-! ## Clauses -/

inductive SearchKey
  | b
  | a
  | l
  | book
  | author
  | r
  | o
deriving DecidableEq

namespace SearchKey

def text : SearchKey → List Char
  | .b => ['b']
  | .a => ['a']
  | .l => ['l']
  | .book => ['b', 'o', 'o', 'k']
  | .author => ['a', 'u', 't', 'h', 'o', 'r']
  | .r => ['r']
  | .o => ['o']

/-- The bytes of a value that its field holds behind the mode; the values of `r` and `o` stay
in `sub_value`. -/
def room : SearchKey → Nat
  | .b => bookNameLen - 1
  | .a => authorNameLen - 1
  | .l => maxLabelNum * (labelNameLen + 1) - 1
  | .book => bookNameLen - 1
  | .author => authorNameLen - 1
  | .r => bookNameLen + authorNameLen + 31
  | .o => bookNameLen + authorNameLen + 31

end SearchKey

/-- A key between blanks, and a value that may have blanks around it too. -/
structure SearchClause where
  before : List Char
  key : SearchKey
  after : List Char
  value : List Char
  blank : ∀ character ∈ before ++ after, isBlank character = true
  free : ';' ∉ value ∧ '=' ∉ value
  fits : ((stringFilter value).map Char.utf8Size).sum ≤ key.room

namespace SearchClause

def text (clause : SearchClause) : List Char :=
  clause.before ++ clause.key.text ++ clause.after ++ '=' :: clause.value

/-- The value without the blanks around it. -/
def trimmed (clause : SearchClause) : List Char := stringFilter clause.value

end SearchClause

/-- The clauses with semicolons between them. -/
def clausesText (clauses : List SearchClause) : List Char :=
  List.intercalate [';'] (clauses.map SearchClause.text)

/-! ## Blanks -/

theorem stringFilter_cons_of_blank {first : Char} (blank : isBlank first = true)
    (text : List Char) : stringFilter (first :: text) = stringFilter text := by
  rw [stringFilter, List.dropWhile_cons_of_pos blank, stringFilter]

theorem stringFilter_cons_of_solid {first : Char} (solid : isBlank first = false)
    (text : List Char) : stringFilter (first :: text) = first :: text.rdropWhile isBlank := by
  rw [stringFilter, List.dropWhile_cons_of_neg (by simp [solid])]
  exact rdropWhile_append_cons solid [] text

/-- The blanks at the end may be dropped before. -/
theorem stringFilter_rdropWhile (text : List Char) :
    stringFilter (text.rdropWhile isBlank) = stringFilter text := by
  induction text with
  | nil => rfl
  | cons first text induction =>
      cases blank : isBlank first with
      | true =>
          rw [rdropWhile_cons_of_pos blank, stringFilter_cons_of_blank blank, ← induction]
          split
          case isTrue empty => rw [empty]
          case isFalse => exact stringFilter_cons_of_blank blank _
      | false =>
          have kept : (first :: text).rdropWhile isBlank = first :: text.rdropWhile isBlank :=
            rdropWhile_append_cons blank [] text
          rw [kept, stringFilter_cons_of_solid blank, stringFilter_cons_of_solid blank,
            List.rdropWhile_idempotent]

theorem SearchKey.text_solid (key : SearchKey) :
    (∃ first rest, key.text = first :: rest ∧ isBlank first = false) ∧
      ∃ front last, key.text = front ++ [last] ∧ isBlank last = false := by
  cases key
  case b => exact ⟨⟨_, _, rfl, rfl⟩, [], _, rfl, rfl⟩
  case a => exact ⟨⟨_, _, rfl, rfl⟩, [], _, rfl, rfl⟩
  case l => exact ⟨⟨_, _, rfl, rfl⟩, [], _, rfl, rfl⟩
  case book => exact ⟨⟨_, _, rfl, rfl⟩, ['b', 'o', 'o'], _, rfl, rfl⟩
  case author => exact ⟨⟨_, _, rfl, rfl⟩, ['a', 'u', 't', 'h', 'o'], _, rfl, rfl⟩
  case r => exact ⟨⟨_, _, rfl, rfl⟩, [], _, rfl, rfl⟩
  case o => exact ⟨⟨_, _, rfl, rfl⟩, [], _, rfl, rfl⟩

/-! ## One clause -/

/-- What a clause does. -/
def Searching.apply (searching : Searching) : SearchKey → List Char → Searching
  | .r, value => if value = ['1'] then searching.setOnReading else searching
  | .o, value => if value = ['1'] then searching.setBorrowed else searching
  | .b, value => if searching.nameIsExact then searching else searching.setName '+' value
  | .a, value => if searching.nameIsExact then searching else searching.setAuthor '+' value
  | .l, value => if searching.nameIsExact then searching else searching.setLabel '+' value
  | .book, value => searching.setName '=' value
  | .author, value => searching.setAuthor '=' value

theorem blank_not {separator : Char} (solid : isBlank separator = false) {blanks : List Char}
    (blank : ∀ character ∈ blanks, isBlank character = true) : separator ∉ blanks := by
  intro member
  rw [blank separator member] at solid
  cases solid

namespace SearchKey

variable {before after : List Char} (key : SearchKey)
  (blank : ∀ character ∈ before ++ after, isBlank character = true) (value : List Char)

include blank

/-- What is left of a clause without the blanks around it. -/
theorem stringFilter_clause :
    stringFilter (before ++ key.text ++ after ++ '=' :: value) =
      (key.text ++ after) ++ '=' :: value.rdropWhile isBlank := by
  rcases key.text_solid.1 with ⟨first, rest, begins, solid⟩
  have blanks : ∀ character ∈ before, isBlank character = true :=
    fun character member => blank character (List.mem_append_left _ member)
  have whole : before ++ key.text ++ after ++ '=' :: value =
      before ++ ((key.text ++ after) ++ '=' :: value) := by
    rw [List.append_assoc, List.append_assoc, List.append_assoc]
  rw [whole, stringFilter, List.dropWhile_append_of_pos blanks]
  have kept : ((key.text ++ after) ++ '=' :: value).dropWhile isBlank =
      (key.text ++ after) ++ '=' :: value := by
    rw [begins]
    exact List.dropWhile_cons_of_neg (by simp [solid])
  rw [kept]
  exact rdropWhile_append_cons rfl _ _

theorem splitOn_clause :
    (stringFilter (before ++ key.text ++ after ++ '=' :: value)).splitOn '=' =
      (key.text ++ after) :: (value.rdropWhile isBlank).splitOn '=' := by
  have keyFree : '=' ∉ key.text ++ after := by
    intro member
    rcases List.mem_append.mp member with inKey | inAfter
    · cases key <;> exact absurd inKey (by decide)
    · exact blank_not rfl (fun character member =>
        blank character (List.mem_append_right _ member)) inAfter
  rw [key.stringFilter_clause blank, List.splitOn_append_cons_of_beq _ _ rfl,
    List.splitOn_eq_singleton keyFree]
  rfl

theorem stringFilter_key : stringFilter (key.text ++ after) = key.text := by
  rcases key.text_solid with ⟨⟨first, rest, begins, solidFirst⟩, front, last, ends, solidLast⟩
  have blanks : ∀ character ∈ after, isBlank character = true :=
    fun character member => blank character (List.mem_append_right _ member)
  have kept : (key.text ++ after).dropWhile isBlank = key.text ++ after := by
    rw [begins]
    exact List.dropWhile_cons_of_neg (by simp [solidFirst])
  have empty : after.rdropWhile isBlank = [] := List.rdropWhile_eq_nil_iff.mpr blanks
  rw [stringFilter, kept, ends, List.append_assoc]
  have dropped := rdropWhile_append_cons solidLast front after
  rw [empty] at dropped
  exact dropped

omit blank in
/-- The value ends at the next `=`. -/
theorem stringFilter_taken :
    stringFilter ((value.rdropWhile isBlank).takeWhile (· != '=')) =
      stringFilter (value.takeWhile (· != '=')) := by
  by_cases equals : '=' ∈ value
  · rcases List.eq_append_cons_of_mem equals with ⟨front, rest, rfl, free⟩
    rw [rdropWhile_append_cons rfl, takeWhile_bne_append free, takeWhile_bne_append free]
  · have inside : '=' ∉ value.rdropWhile isBlank :=
      fun member => equals ((List.rdropWhile_prefix isBlank value).subset member)
    rw [takeWhile_bne_of_not_mem equals, takeWhile_bne_of_not_mem inside, stringFilter_rdropWhile]

/-- What `string_splitter` makes of a clause. -/
theorem splitter_clause :
    stringSplitter '=' (stringFilter (before ++ key.text ++ after ++ '=' :: value)) 0 =
        some key.text ∧
      stringSplitter '=' (stringFilter (before ++ key.text ++ after ++ '=' :: value)) 1 =
        some (stringFilter (value.takeWhile (· != '='))) := by
  rw [stringSplitter_eq, stringSplitter_eq, key.splitOn_clause blank, List.getElem?_cons_succ,
    splitOn_eq_takeWhile]
  exact ⟨congrArg some (key.stringFilter_key blank), congrArg some (stringFilter_taken value)⟩

theorem clause_eq (searching : Searching) :
    Searching.clause (stringFilter (before ++ key.text ++ after ++ '=' :: value)) searching =
      searching.apply key (stringFilter (value.takeWhile (· != '='))) := by
  rcases key.splitter_clause blank value with ⟨first, second⟩
  rw [Searching.clause, first, second]
  cases key <;> rfl

theorem semicolon_not_mem (free : ';' ∉ value) :
    ';' ∉ before ++ key.text ++ after ++ '=' :: value := by
  intro member
  rcases List.mem_append.mp member with front | behind
  · rcases List.mem_append.mp front with front | inAfter
    · rcases List.mem_append.mp front with inBefore | inKey
      · exact blank_not rfl (fun character member =>
          blank character (List.mem_append_left _ member)) inBefore
      · cases key <;> exact absurd inKey (by decide)
    · exact blank_not rfl (fun character member =>
        blank character (List.mem_append_right _ member)) inAfter
  · rcases List.mem_cons.mp behind with equal | inValue
    · cases equal
    · exact free inValue

end SearchKey

namespace SearchClause

variable (clause : SearchClause)

theorem clause_eq (searching : Searching) :
    Searching.clause (stringFilter clause.text) searching =
      searching.apply clause.key clause.trimmed := by
  have handled := clause.key.clause_eq clause.blank clause.value searching
  rw [takeWhile_bne_of_not_mem clause.free.2] at handled
  exact handled

theorem semicolon_not_mem : ';' ∉ clause.text :=
  clause.key.semicolon_not_mem clause.blank clause.value clause.free.1

end SearchClause

/-! ## All clauses -/

/-- What the clauses do, one after the other. -/
def Searching.applyAll (clauses : List SearchClause) (searching : Searching) : Searching :=
  clauses.foldl (fun searching clause => searching.apply clause.key clause.trimmed) searching

/-- A text of clauses that have no semicolon inside and a `=` each. -/
theorem handleSearchbookKeyword_texts {texts : List (List Char)} (some : texts ≠ [])
    (free : ∀ text ∈ texts, ';' ∉ text) (equals : ∀ text ∈ texts, '=' ∈ text)
    (userBook : BookEntry) :
    handleSearchbookKeyword (List.intercalate [';'] texts) userBook =
      texts.foldl (fun searching text => Searching.clause (stringFilter text) searching)
        (Searching.start userBook) := by
  have inside : '=' ∈ List.intercalate [';'] texts := by
    rcases List.exists_cons_of_ne_nil some with ⟨first, rest, rfl⟩
    have inFirst := equals first List.mem_cons_self
    cases rest with
    | nil => simpa using inFirst
    | cons second rest =>
        rw [List.intercalate_cons_cons]
        exact List.mem_append_left _ (List.mem_append_left _ inFirst)
  rw [handleSearchbookKeyword_clauses inside, List.splitOn_intercalate ';' free some]

theorem handleSearchbookKeyword_clausesText {clauses : List SearchClause} (some : clauses ≠ [])
    (userBook : BookEntry) :
    handleSearchbookKeyword (clausesText clauses) userBook =
      (Searching.start userBook).applyAll clauses := by
  have texts : clauses.map SearchClause.text ≠ [] := fun none => some (List.map_eq_nil_iff.mp none)
  rw [clausesText, handleSearchbookKeyword_texts texts, List.foldl_map, Searching.applyAll]
  · congr 1
    funext searching clause
    exact clause.clause_eq searching
  · exact List.forall_mem_map.mpr fun clause _ => clause.semicolon_not_mem
  · exact List.forall_mem_map.mpr fun clause _ => List.mem_append_right _ List.mem_cons_self

/-! ## The fields -/

inductive SearchedField
  | name
  | author
  | label
deriving DecidableEq

namespace SearchedField

def read : SearchedField → BookEntry → String
  | .name => BookEntry.name
  | .author => BookEntry.author
  | .label => BookEntry.label

/-- The key of the clauses for the whole field. -/
def precise : SearchedField → Option SearchKey
  | .name => some .book
  | .author => some .author
  | .label => none

/-- The key of the clauses for a part of the field. -/
def ranged : SearchedField → SearchKey
  | .name => .b
  | .author => .a
  | .label => .l

variable (field : SearchedField)

theorem ranged_ne_book : field.ranged ≠ .book := by
  cases field <;> decide

theorem ranged_ne_precise : field.precise ≠ some field.ranged := by
  cases field <;> decide

/-- What a clause leaves in the field, `found` telling whether the whole name was given
before. -/
def next (found : Bool) (key : SearchKey) (value : List Char) (before : String) : String :=
  if field.precise = some key then searchField '=' value
  else if key = field.ranged ∧ found = false then searchField '+' value
  else before

/-- What the clauses leave in the field. -/
def left : Bool → List SearchClause → String → String
  | _, [], before => before
  | found, clause :: rest, before =>
      left (found || clause.key == .book) rest
        (field.next found clause.key clause.trimmed before)

end SearchedField

namespace Searching

variable (searching : Searching) (key : SearchKey) (value : List Char)

theorem apply_nameIsExact :
    (searching.apply key value).nameIsExact = (searching.nameIsExact || key == .book) := by
  cases key with
  | b =>
      rw [apply]
      split
      case isTrue found =>
        rw [found]
        rfl
      case isFalse absent =>
        rw [Bool.eq_false_iff.mpr absent]
        simp [nameIsExact, setName, searchField]
  | a => rw [apply]; split <;> exact (Bool.or_false _).symm
  | l => rw [apply]; split <;> exact (Bool.or_false _).symm
  | book => simp [apply, nameIsExact, setName, searchField]
  | author => exact (Bool.or_false _).symm
  | r => rw [apply]; split <;> exact (Bool.or_false _).symm
  | o => rw [apply]; split <;> exact (Bool.or_false _).symm

/-- One clause. -/
theorem apply_read (field : SearchedField) :
    field.read (searching.apply key value).userBook =
      field.next searching.nameIsExact key value (field.read searching.userBook) := by
  cases key with
  | r =>
      rw [apply]
      cases field <;> split <;> rfl
  | o =>
      rw [apply]
      cases field <;> split <;> rfl
  | book => cases field <;> rfl
  | author => cases field <;> rfl
  | b =>
      rw [apply]
      cases searching.nameIsExact <;> cases field <;> rfl
  | a =>
      rw [apply]
      cases searching.nameIsExact <;> cases field <;> rfl
  | l =>
      rw [apply]
      cases searching.nameIsExact <;> cases field <;> rfl

/-- All clauses. -/
theorem applyAll_read (field : SearchedField) (clauses : List SearchClause) :
    field.read (searching.applyAll clauses).userBook =
      field.left searching.nameIsExact clauses (field.read searching.userBook) := by
  induction clauses generalizing searching with
  | nil => rfl
  | cons clause rest induction =>
      rw [SearchedField.left, ← apply_nameIsExact, ← apply_read]
      exact induction _

end Searching

/-! ## What the clauses mean -/

inductive SearchFlag
  | onReading
  | borrowed
deriving DecidableEq

def SearchFlag.read : SearchFlag → BookEntry → Char
  | .onReading => BookEntry.onReading
  | .borrowed => BookEntry.borrowed

def SearchFlag.key : SearchFlag → SearchKey
  | .onReading => .r
  | .borrowed => .o

/-- The value of the last clause with a key. -/
def lastValue (key : SearchKey) (clauses : List SearchClause) : Option (List Char) :=
  ((clauses.filter fun clause => clause.key == key).getLast?).map SearchClause.trimmed

/-- The clauses before the first one for the whole name. -/
def beforeBook (clauses : List SearchClause) : List SearchClause :=
  clauses.takeWhile fun clause => clause.key != .book

/-- What the clauses mean for a field: the last precise one, or else the last ranged one. -/
def SearchedField.meant (field : SearchedField) (clauses : List SearchClause) (unset : String) :
    String :=
  match field.precise.bind fun key => lastValue key clauses with
  | some value => searchField '=' value
  | none => ((lastValue field.ranged clauses).map (searchField '+')).getD unset

/-- What a search entry is for a list of clauses. -/
structure MeansClauses (clauses : List SearchClause) (unset final : BookEntry) : Prop where
  fields : ∀ field : SearchedField, field.read final = field.meant clauses (field.read unset)
  flags : ∀ flag : SearchFlag, flag.read final = '1' ↔
    ∃ clause ∈ clauses, clause.key = flag.key ∧ clause.trimmed = ['1']

/-- A field keeps what the clauses mean: with a precise clause no ranged one comes between the
last of them and the first one for the whole name, and without one the ranged clauses after the
whole name change nothing. -/
structure SearchedField.Kept (field : SearchedField) (clauses : List SearchClause) : Prop where
  ranged : (∀ clause ∈ clauses, field.precise ≠ some clause.key) →
    lastValue field.ranged (beforeBook clauses) = lastValue field.ranged clauses
  precise : ∀ front clause back, clauses = front ++ clause :: back → clause.key = field.ranged →
    (∃ earlier ∈ front, field.precise = some earlier.key) →
      (∃ earlier ∈ front, earlier.key = .book) ∨ ∃ later ∈ back, field.precise = some later.key

theorem lastValue_cons (key : SearchKey) (clause : SearchClause) (rest : List SearchClause) :
    lastValue key (clause :: rest) =
      (lastValue key rest).or (if clause.key = key then some clause.trimmed else none) := by
  rw [lastValue, lastValue]
  by_cases same : clause.key = key
  · rw [List.filter_cons_of_pos (by simpa using same), List.getLast?_cons, if_pos same]
    cases (rest.filter fun clause => clause.key == key).getLast? <;> rfl
  · rw [List.filter_cons_of_neg (by simpa using same), if_neg same, Option.or_none]

theorem lastValue_eq_none_iff (key : SearchKey) (clauses : List SearchClause) :
    lastValue key clauses = none ↔ ∀ clause ∈ clauses, clause.key ≠ key := by
  simp [lastValue]

theorem lastValue_last {key : SearchKey} {clause : SearchClause} (same : clause.key = key)
    {back : List SearchClause} (none : ∀ later ∈ back, later.key ≠ key)
    (front : List SearchClause) : lastValue key (front ++ clause :: back) = some clause.trimmed := by
  induction front with
  | nil =>
      rw [List.nil_append, lastValue_cons, (lastValue_eq_none_iff key back).mpr none, if_pos same]
      rfl
  | cons earlier front induction =>
      rw [List.cons_append, lastValue_cons, induction]
      rfl

theorem beforeBook_cons (clause : SearchClause) (rest : List SearchClause) :
    beforeBook (clause :: rest) = if clause.key = .book then [] else clause :: beforeBook rest := by
  rw [beforeBook, List.takeWhile_cons]
  by_cases book : clause.key = .book
  · simp [book]
  · simp [book, beforeBook]

theorem beforeBook_append {front : List SearchClause} (none : ∀ clause ∈ front, clause.key ≠ .book)
    (back : List SearchClause) : beforeBook (front ++ back) = front ++ beforeBook back :=
  List.takeWhile_append_of_pos fun clause member => bne_iff_ne.mpr (none clause member)

theorem beforeBook_of_none {clauses : List SearchClause}
    (none : ∀ clause ∈ clauses, clause.key ≠ .book) : beforeBook clauses = clauses :=
  List.takeWhile_eq_self_iff.mpr fun clause member => bne_iff_ne.mpr (none clause member)

theorem exists_last {test : SearchClause → Prop} {clauses : List SearchClause}
    (some : ∃ clause ∈ clauses, test clause) :
    ∃ front clause back, clauses = front ++ clause :: back ∧ test clause ∧
      ∀ later ∈ back, ¬test later := by
  induction clauses with
  | nil =>
      rcases some with ⟨clause, member, _⟩
      cases member
  | cons first rest induction =>
      by_cases later : ∃ clause ∈ rest, test clause
      · rcases induction later with ⟨front, clause, back, split, holds, none⟩
        exact ⟨first :: front, clause, back, by rw [split]; rfl, holds, none⟩
      · have none : ∀ clause ∈ rest, ¬test clause := fun clause member holds =>
          later ⟨clause, member, holds⟩
        rcases some with ⟨clause, member, holds⟩
        rcases List.mem_cons.mp member with rfl | inRest
        · exact ⟨[], clause, rest, rfl, holds, none⟩
        · exact absurd holds (none clause inRest)

theorem searchField_inj {mode other : Char} {value text : List Char} :
    searchField mode value = searchField other text ↔ mode = other ∧ value = text := by
  rw [searchField, searchField, String.ofList_inj, List.cons.injEq]

namespace SearchedField

variable (field : SearchedField)

theorem left_append (found : Bool) (front back : List SearchClause) (before : String) :
    field.left found (front ++ back) before =
      field.left (found || front.any fun clause => clause.key == .book) back
        (field.left found front before) := by
  induction front generalizing found before with
  | nil => rw [List.any_nil, Bool.or_false]; rfl
  | cons clause front induction =>
      rw [List.cons_append, left, induction, List.any_cons, Bool.or_assoc]
      rfl

/-- Without precise clauses the last ranged one before the whole name counts. -/
theorem left_of_ranged {clauses : List SearchClause}
    (none : ∀ clause ∈ clauses, field.precise ≠ some clause.key) (found : Bool) (before : String) :
    field.left found clauses before =
      if found then before
      else ((lastValue field.ranged (beforeBook clauses)).map (searchField '+')).getD before := by
  induction clauses generalizing found before with
  | nil => cases found <;> rfl
  | cons clause rest induction =>
      have first : field.precise ≠ some clause.key := none clause List.mem_cons_self
      have others := induction fun later member => none later (List.mem_cons_of_mem _ member)
      rw [left, others, next, if_neg first, beforeBook_cons]
      cases found with
      | true => simp
      | false =>
          by_cases book : clause.key = .book
          · simp [book, field.ranged_ne_book.symm, lastValue]
          · have absent : (false || clause.key == .book) = false := by simp [book]
            rw [absent, if_neg book, lastValue_cons]
            by_cases ranged : clause.key = field.ranged
            · simp only [ranged, and_self, if_true]
              cases lastValue field.ranged (beforeBook rest) <;> rfl
            · simp [ranged]

theorem meant_of_ranged {clauses : List SearchClause}
    (none : ∀ clause ∈ clauses, field.precise ≠ some clause.key) (unset : String) :
    field.meant clauses unset =
      ((lastValue field.ranged clauses).map (searchField '+')).getD unset := by
  have absent : (field.precise.bind fun key => lastValue key clauses) = Option.none := by
    cases precise : field.precise with
    | none => rfl
    | some key =>
        refine (lastValue_eq_none_iff key clauses).mpr fun clause member same => ?_
        exact none clause member (by rw [precise, same])
  rw [meant, absent]

theorem meant_of_precise {front back : List SearchClause} {clause : SearchClause}
    (precise : field.precise = some clause.key)
    (none : ∀ later ∈ back, field.precise ≠ some later.key) (unset : String) :
    field.meant (front ++ clause :: back) unset = searchField '=' clause.trimmed := by
  have last : lastValue clause.key (front ++ clause :: back) = some clause.trimmed := by
    refine lastValue_last rfl (fun later member same => ?_) front
    exact none later member (by rw [precise, same])
  rw [meant, precise, Option.bind_some, last]

theorem left_of_precise {front back : List SearchClause} {clause : SearchClause}
    (precise : field.precise = some clause.key)
    (none : ∀ later ∈ back, field.precise ≠ some later.key) (unset : String) :
    field.left false (front ++ clause :: back) unset =
      if (front ++ [clause]).any fun earlier => earlier.key == .book then searchField '=' clause.trimmed
      else ((lastValue field.ranged (beforeBook back)).map (searchField '+')).getD
        (searchField '=' clause.trimmed) := by
  rw [left_append, left, field.left_of_ranged none, next, if_pos precise, List.any_append,
    List.any_cons, List.any_nil, Bool.false_or, Bool.or_false]

theorem ranged_of_lastValue {clauses : List SearchClause} {value : List Char}
    (last : lastValue field.ranged (beforeBook clauses) = some value) :
    ∃ front clause back, clauses = front ++ clause :: back ∧ clause.key = field.ranged ∧
      ∀ earlier ∈ front, earlier.key ≠ .book := by
  have some : ∃ clause ∈ beforeBook clauses, clause.key = field.ranged := by
    by_contra absent
    rw [(lastValue_eq_none_iff _ _).mpr fun clause member same => absent ⟨clause, member, same⟩]
      at last
    cases last
  rcases some with ⟨clause, member, ranged⟩
  rcases List.append_of_mem member with ⟨front, back, split⟩
  refine ⟨front, clause, back ++ clauses.dropWhile (fun clause => clause.key != .book), ?_, ranged,
    fun earlier earlierMem => ?_⟩
  · rw [← List.cons_append, ← List.append_assoc, ← split, beforeBook, List.takeWhile_append_dropWhile]
  · have passed := List.mem_takeWhile_imp
      (show earlier ∈ beforeBook clauses by rw [split]; exact List.mem_append_left _ earlierMem)
    exact bne_iff_ne.mp passed

/-- A field with a precise clause is kept exactly if none of the ranged ones behind the last
precise one counts. -/
theorem kept_iff_of_precise {front back : List SearchClause} {clause : SearchClause}
    (precise : field.precise = some clause.key)
    (last : ∀ later ∈ back, field.precise ≠ some later.key) :
    field.Kept (front ++ clause :: back) ↔
      (∃ earlier ∈ front ++ [clause], earlier.key = .book) ∨
        lastValue field.ranged (beforeBook back) = none := by
  have regroup : ∀ middle, front ++ clause :: middle = (front ++ [clause]) ++ middle := fun middle =>
    (List.append_cons front clause middle)
  constructor
  · intro kept
    by_contra neither
    rcases not_or.mp neither with ⟨absent, counts⟩
    rcases Option.ne_none_iff_exists'.mp counts with ⟨value, found⟩
    rcases field.ranged_of_lastValue found with ⟨middle, ranged, rest, split, isRanged, free⟩
    have whole : front ++ clause :: back = (front ++ clause :: middle) ++ ranged :: rest := by
      rw [split, List.append_assoc]
      rfl
    rcases kept.precise _ ranged rest whole isRanged ⟨clause, by simp, precise⟩ with
      ⟨earlier, member, book⟩ | ⟨later, member, again⟩
    · rw [regroup] at member
      rcases List.mem_append.mp member with inFront | inMiddle
      · exact absent ⟨earlier, inFront, book⟩
      · exact free earlier inMiddle book
    · exact last later (by rw [split]; simp [member]) again
  · intro settled
    refine ⟨fun none => absurd precise (none clause (by simp)), ?_⟩
    rintro before ranged after whole isRanged -
    by_contra neither
    rcases not_or.mp neither with ⟨absent, never⟩
    have later : ∃ middle, before = front ++ clause :: middle ∧ back = middle ++ ranged :: after := by
      rcases List.append_eq_append_iff.mp whole with ⟨as, frontIs, rest⟩ | ⟨bs, frontIs, rest⟩
      · cases as with
        | nil =>
            rw [(List.cons.inj rest).1, isRanged] at precise
            exact absurd precise field.ranged_ne_precise
        | cons first middle =>
            rcases List.cons.inj rest with ⟨rfl, behind⟩
            exact ⟨middle, frontIs, behind⟩
      · cases bs with
        | nil =>
            rw [← (List.cons.inj rest).1, isRanged] at precise
            exact absurd precise field.ranged_ne_precise
        | cons first middle =>
            have inAfter : clause ∈ after := by
              rw [(List.cons.inj rest).2]
              simp
            exact absurd ⟨clause, inAfter, precise⟩ never
    rcases later with ⟨middle, rfl, rfl⟩
    rcases settled with ⟨earlier, member, book⟩ | none
    · exact absent ⟨earlier, by rw [regroup]; exact List.mem_append_left _ member, book⟩
    · have free : ∀ clause ∈ middle, clause.key ≠ .book := fun clause member book =>
        absent ⟨clause, by simp [member], book⟩
      rw [beforeBook_append free, beforeBook_cons, if_neg (isRanged ▸ field.ranged_ne_book)] at none
      exact (lastValue_eq_none_iff _ _).mp none ranged (by simp) isRanged

/-- The clauses leave what they mean in a field exactly if the field is kept. -/
theorem left_eq_meant_iff (clauses : List SearchClause) {unset : String} {text : List Char}
    (unsetIs : unset = searchField '0' text) :
    field.left false clauses unset = field.meant clauses unset ↔ field.Kept clauses := by
  by_cases some : ∃ clause ∈ clauses, field.precise = Option.some clause.key
  · rcases exists_last some with ⟨front, clause, back, rfl, precise, last⟩
    rw [field.left_of_precise precise last, field.meant_of_precise precise last,
      field.kept_iff_of_precise precise last]
    by_cases book : ∃ earlier ∈ front ++ [clause], earlier.key = .book
    · have found : ((front ++ [clause]).any fun earlier => earlier.key == .book) = true := by
        simpa using book
      rw [found, if_pos rfl]
      exact ⟨fun _ => .inl book, fun _ => rfl⟩
    · have absent : ((front ++ [clause]).any fun earlier => earlier.key == .book) = false :=
        Bool.eq_false_iff.mpr fun found => book (by simpa using found)
      rw [absent, if_neg Bool.false_ne_true]
      cases lastValue field.ranged (beforeBook back) with
      | none => exact ⟨fun _ => .inr rfl, fun _ => rfl⟩
      | some value =>
          refine ⟨fun same => ?_, fun settled => ?_⟩
          · exact absurd (searchField_inj.mp same).1 (by decide)
          · rcases settled with found | none
            · exact absurd found book
            · cases none
  · have none : ∀ clause ∈ clauses, field.precise ≠ Option.some clause.key :=
      fun clause member precise => some ⟨clause, member, precise⟩
    rw [field.left_of_ranged none, field.meant_of_ranged none, if_neg Bool.false_ne_true]
    have values : ((lastValue field.ranged (beforeBook clauses)).map (searchField '+')).getD unset =
          ((lastValue field.ranged clauses).map (searchField '+')).getD unset ↔
        lastValue field.ranged (beforeBook clauses) = lastValue field.ranged clauses := by
      rw [unsetIs]
      cases lastValue field.ranged (beforeBook clauses) <;>
        cases lastValue field.ranged clauses <;>
          simp [searchField_inj]
    rw [values]
    refine ⟨fun same => ⟨fun _ => same, ?_⟩, fun kept => kept.ranged none⟩
    rintro front clause back whole - ⟨earlier, member, precise⟩
    exact absurd precise (none earlier (by rw [whole]; exact List.mem_append_left _ member))

/-- The name is always kept. -/
theorem name_kept (clauses : List SearchClause) : SearchedField.name.Kept clauses where
  ranged none := by
    have all : beforeBook clauses = clauses := by
      apply beforeBook_of_none
      intro clause member book
      exact none clause member (by rw [book]; rfl)
    rw [all]
  precise front clause back _ _ := by
    rintro ⟨earlier, member, precise⟩
    exact .inl ⟨earlier, member, (Option.some.inj precise).symm⟩

/-- The label has no precise clauses. -/
theorem label_kept_iff (clauses : List SearchClause) :
    SearchedField.label.Kept clauses ↔ lastValue .l (beforeBook clauses) = lastValue .l clauses := by
  constructor
  · intro kept
    apply kept.ranged
    rintro clause - precise
    cases precise
  · intro same
    refine ⟨fun _ => same, ?_⟩
    rintro front clause back - - ⟨earlier, -, precise⟩
    cases precise

end SearchedField

/-! ## The flags -/

namespace Searching

theorem apply_flag (searching : Searching) (key : SearchKey) (value : List Char)
    (flag : SearchFlag) :
    flag.read (searching.apply key value).userBook =
      if key = flag.key ∧ value = ['1'] then '1' else flag.read searching.userBook := by
  cases key with
  | r =>
      rw [apply]
      cases flag <;> split <;> simp_all [SearchFlag.key, SearchFlag.read, setOnReading]
  | o =>
      rw [apply]
      cases flag <;> split <;> simp_all [SearchFlag.key, SearchFlag.read, setBorrowed]
  | b =>
      rw [apply]
      cases flag <;> split <;> rfl
  | a =>
      rw [apply]
      cases flag <;> split <;> rfl
  | l =>
      rw [apply]
      cases flag <;> split <;> rfl
  | book => cases flag <;> rfl
  | author => cases flag <;> rfl

theorem applyAll_flag (clauses : List SearchClause) (searching : Searching) (flag : SearchFlag) :
    flag.read (searching.applyAll clauses).userBook = '1' ↔
      flag.read searching.userBook = '1' ∨
        ∃ clause ∈ clauses, clause.key = flag.key ∧ clause.trimmed = ['1'] := by
  induction clauses generalizing searching with
  | nil => simp [applyAll]
  | cons clause rest induction =>
      have first : searching.applyAll (clause :: rest) =
          (searching.apply clause.key clause.trimmed).applyAll rest := rfl
      rw [first, induction, apply_flag, List.exists_mem_cons_iff]
      split
      case isTrue now => exact ⟨fun _ => .inr (.inl now), fun _ => .inl rfl⟩
      case isFalse never => simp [never]

end Searching

/-! ## Clauses for parts of fields -/

/-- A clause for a part of a field, with any value that can stand between two semicolons. -/
structure RangedClause where
  before : List Char
  field : SearchedField
  after : List Char
  value : List Char
  blank : ∀ character ∈ before ++ after, isBlank character = true
  free : ';' ∉ value

namespace RangedClause

def text (clause : RangedClause) : List Char :=
  clause.before ++ clause.field.ranged.text ++ clause.after ++ '=' :: clause.value

/-- The value without the blanks around it. -/
def trimmed (clause : RangedClause) : List Char := stringFilter clause.value

/-- What `string_splitter` takes of the value. -/
def taken (clause : RangedClause) : List Char :=
  stringFilter (clause.value.takeWhile (· != '='))

end RangedClause

namespace Searching

variable {searching : Searching} (inexact : searching.nameIsExact = false)
  (clauses : List RangedClause)

include inexact

end Searching

/-- The entry is what the clauses mean exactly if author and label are kept. -/
theorem handle_searchbook_keyword_iff (clauses : List SearchClause) (some : clauses ≠ [])
    (userBook : BookEntry) :
    MeansClauses clauses (Searching.start userBook).userBook
        (handleSearchbookKeyword (clausesText clauses) userBook).userBook ↔
      SearchedField.author.Kept clauses ∧
        lastValue .l (beforeBook clauses) = lastValue .l clauses := by
  have field_iff : ∀ field : SearchedField,
      field.read ((Searching.start userBook).applyAll clauses).userBook =
          field.meant clauses (field.read (Searching.start userBook).userBook) ↔
        field.Kept clauses := by
    intro field
    have inexact : (Searching.start userBook).nameIsExact = false := by
      simp [Searching.nameIsExact, Searching.start, searchField]
    rw [Searching.applyAll_read, inexact]
    cases field with
    | name => exact SearchedField.name.left_eq_meant_iff clauses rfl
    | author => exact SearchedField.author.left_eq_meant_iff clauses rfl
    | label => exact SearchedField.label.left_eq_meant_iff clauses rfl
  rw [handleSearchbookKeyword_clausesText some]
  constructor
  · intro means
    exact ⟨(field_iff .author).mp (means.fields .author),
      (SearchedField.label_kept_iff clauses).mp ((field_iff .label).mp (means.fields .label))⟩
  · rintro ⟨author, label⟩
    refine ⟨fun field => ?_, fun flag => ?_⟩
    · apply (field_iff field).mpr
      cases field with
      | name => exact SearchedField.name_kept clauses
      | author => exact author
      | label => exact (SearchedField.label_kept_iff clauses).mpr label
    · have unset : ¬flag.read (Searching.start userBook).userBook = '1' := by
        cases flag <;> simp [SearchFlag.read, Searching.start]
      rw [Searching.applyAll_flag]
      simp [unset]

/-- A clause with blanks, for any key. -/
def sampleClause (key : SearchKey) : SearchClause where
  before := [' ']
  key := key
  after := ['\t']
  value := [' ', 'x']
  blank := List.all_eq_true.mp rfl
  free := by decide
  fits := by cases key <;> decide

theorem range_before_name_read :
    [sampleClause .a, sampleClause .l, sampleClause .book] ≠ [] ∧
      MeansClauses [sampleClause .a, sampleClause .l, sampleClause .book]
        (Searching.start .zeroed).userBook
        (handleSearchbookKeyword (clausesText [sampleClause .a, sampleClause .l, sampleClause .book])
          .zeroed).userBook := by
  refine ⟨List.cons_ne_nil _ _, (handle_searchbook_keyword_iff _ (List.cons_ne_nil _ _) _).mpr
    ⟨⟨fun _ => by decide, ?_⟩, by decide⟩⟩
  rintro front clause back whole ranged ⟨earlier, member, precise⟩
  have inside : earlier ∈ [sampleClause .a, sampleClause .l, sampleClause .book] := by
    rw [whole]
    exact List.mem_append_left _ member
  have none : ∀ clause ∈ [sampleClause .a, sampleClause .l, sampleClause .book],
      SearchedField.author.precise ≠ some clause.key := by decide
  exact absurd precise (none earlier inside)

/-- The author is lost behind the whole name, and the whole author is overwritten by a part. -/
theorem author_misread :
    ¬MeansClauses [sampleClause .book, sampleClause .a] (Searching.start .zeroed).userBook
        (handleSearchbookKeyword (clausesText [sampleClause .book, sampleClause .a])
          .zeroed).userBook ∧
      ¬MeansClauses [sampleClause .author, sampleClause .a] (Searching.start .zeroed).userBook
        (handleSearchbookKeyword (clausesText [sampleClause .author, sampleClause .a])
          .zeroed).userBook :=
  ⟨fun means => absurd (means.fields .author) (by decide),
    fun means => absurd (means.fields .author) (by decide)⟩

/-- Where the entries are what the clauses mean, only the order of the clauses with the same
key counts. -/
theorem MeansClauses.order {one two : List SearchClause} {unset final other : BookEntry}
    (same : ∀ key, (one.filter fun clause => clause.key == key) =
      two.filter fun clause => clause.key == key)
    (first : MeansClauses one unset final) (second : MeansClauses two unset other) :
    (∀ field : SearchedField, field.read final = field.read other) ∧
      ∀ flag : SearchFlag, flag.read final = '1' ↔ flag.read other = '1' := by
  have values : ∀ key, lastValue key one = lastValue key two := by
    intro key
    rw [lastValue, same key, lastValue]
  refine ⟨fun field => ?_, fun flag => ?_⟩
  · rw [first.fields, second.fields, SearchedField.meant, SearchedField.meant]
    simp only [values]
  · have within : ∀ clauses : List SearchClause,
        (∃ clause ∈ clauses, clause.key = flag.key ∧ clause.trimmed = ['1']) ↔
          ∃ clause ∈ clauses.filter (fun clause => clause.key == flag.key),
            clause.trimmed = ['1'] := by
      intro clauses
      simp [and_assoc]
    rw [first.flags, second.flags, within one, within two, same]

end Bookshelfdq
