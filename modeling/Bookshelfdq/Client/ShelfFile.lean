import Bookshelfdq.Client.ShelfRecords

/-! # The shelf file

The dbm file of `clidb.c` under its own keys, `<user>_shelf_<n>` and `<user>_shelf_record`. No
two keys are the same, so that the functions see a `ShelfCache`. -/

namespace Bookshelfdq

/-! ## Keys -/

/-- `sprintf(key, "%s_shelf_…", current_user)`. -/
def userKey (user suffix : String) : String := user ++ "_shelf_" ++ suffix

def shelfKey (user : String) (shelfno : Int) : String := userKey user shelfno.repr

def recordKey (user : String) : String := userKey user "record"

theorem underscore_not_mem_repr (number : Int) : '_' ∉ number.repr.toList := by
  cases number with
  | ofNat number =>
      rw [Int.repr, Nat.toList_repr]
      exact Nat.underscore_not_in_toDigits
  | negSucc number =>
      rw [Int.repr, String.toList_append, Nat.toList_repr, List.mem_append]
      rintro (minus | digit)
      · exact absurd minus (by decide)
      · exact Nat.underscore_not_in_toDigits digit

theorem natRepr_inj {left right : Nat} (same : left.repr = right.repr) : left = right := by
  have digits := congrArg String.toList same
  rw [Nat.toList_repr, Nat.toList_repr] at digits
  have values := congrArg (Nat.ofDigitChars 10 · 0) digits
  rwa [Nat.ofDigitChars_toDigits (by decide) (by decide),
    Nat.ofDigitChars_toDigits (by decide) (by decide)] at values

theorem natRepr_ne_minus (left right : Nat) : left.repr ≠ "-" ++ right.repr := by
  intro same
  have digit : '-' ∈ left.repr.toList := by
    rw [same, String.toList_append]
    exact List.mem_append_left _ (by decide)
  rw [Nat.toList_repr] at digit
  exact absurd (Nat.isDigit_of_mem_toDigits (by decide) (by decide) digit) (by decide)

theorem intRepr_inj {left right : Int} (same : left.repr = right.repr) : left = right := by
  cases left with
  | ofNat left =>
      cases right with
      | ofNat right => rw [natRepr_inj same]
      | negSucc right => exact absurd same (natRepr_ne_minus left right.succ)
  | negSucc left =>
      cases right with
      | ofNat right => exact absurd same.symm (natRepr_ne_minus right left.succ)
      | negSucc right =>
          have numbers : left.succ.repr = right.succ.repr := (String.append_right_inj "-").mp same
          rw [Nat.succ.inj (natRepr_inj numbers)]

theorem record_ne_repr (number : Int) : "record" ≠ number.repr := by
  intro same
  have letter : 'r' ∈ number.repr.toList := by
    rw [← same]
    decide
  cases number with
  | ofNat number =>
      rw [Int.repr, Nat.toList_repr] at letter
      exact absurd (Nat.isDigit_of_mem_toDigits (by decide) (by decide) letter) (by decide)
  | negSucc number =>
      rw [Int.repr, String.toList_append, Nat.toList_repr, List.mem_append] at letter
      rcases letter with minus | digit
      · exact absurd minus (by decide)
      · exact absurd (Nat.isDigit_of_mem_toDigits (by decide) (by decide) digit) (by decide)

/-- What comes behind the last underscore of a key is its suffix. -/
theorem userKey_inj {left right : String} {suffix other : String}
    (plain : '_' ∉ suffix.toList) (plainOther : '_' ∉ other.toList)
    (same : userKey left suffix = userKey right other) : left = right ∧ suffix = other := by
  have behind : ∀ (user suffix : String), '_' ∉ suffix.toList →
      ((userKey user suffix).toList.reverse.takeWhile (· != '_')).reverse = suffix.toList := by
    intro user suffix plain
    have whole : (userKey user suffix).toList.reverse =
        suffix.toList.reverse ++ '_' :: (user.toList ++ "_shelf".toList).reverse := by
      simp [userKey]
    have all : ∀ character ∈ suffix.toList.reverse, (character != '_') = true := by
      intro character member
      refine bne_iff_ne.mpr fun equal => plain ?_
      rw [← equal]
      exact List.mem_reverse.mp member
    rw [whole, List.takeWhile_append_of_pos all, List.takeWhile_cons_of_neg (by decide),
      List.append_nil, List.reverse_reverse]
  have suffixes : suffix = other := by
    apply String.toList_inj.mp
    rw [← behind left suffix plain, same, behind right other plainOther]
  subst suffixes
  exact ⟨(String.append_left_inj _).mp ((String.append_left_inj _).mp same), rfl⟩

theorem shelfKey_inj {left right : String} {shelfno other : Int}
    (same : shelfKey left shelfno = shelfKey right other) : left = right ∧ shelfno = other := by
  rcases userKey_inj (underscore_not_mem_repr shelfno) (underscore_not_mem_repr other) same with
    ⟨users, numbers⟩
  exact ⟨users, intRepr_inj numbers⟩

theorem recordKey_inj {left right : String} (same : recordKey left = recordKey right) :
    left = right :=
  (userKey_inj (by decide) (by decide) same).1

theorem recordKey_ne_shelfKey (left right : String) (shelfno : Int) :
    recordKey left ≠ shelfKey right shelfno := fun same =>
  record_ne_repr shelfno (userKey_inj (by decide) (underscore_not_mem_repr shelfno) same).2

/-! ## The file -/

inductive ShelfDatum
  | shelf (entry : ShelfEntry)
  | record (marks : Int → Nat)

/-- The file: an entry under the key of a shelf, marks under the key of a record. -/
structure DbmFile where
  fetch : String → Option ShelfDatum
  shelfTyped : ∀ user shelfno marks, fetch (shelfKey user shelfno) ≠ some (.record marks)
  recordTyped : ∀ user entry, fetch (recordKey user) ≠ some (.shelf entry)

namespace DbmFile

def empty : DbmFile where
  fetch _ := none
  shelfTyped _ _ _ := (Option.some_ne_none _).symm
  recordTyped _ _ := (Option.some_ne_none _).symm

/-- `dbm_store` or `dbm_delete` under the key of a shelf. -/
def storeShelf (user : String) (shelfno : Int) (entry : Option ShelfEntry) (file : DbmFile) :
    DbmFile where
  fetch := Function.update file.fetch (shelfKey user shelfno) (entry.map .shelf)
  shelfTyped other number marks := by
    by_cases same : shelfKey other number = shelfKey user shelfno
    · rw [same, Function.update_self]
      cases entry <;> simp
    · rw [Function.update_of_ne same]
      exact file.shelfTyped other number marks
  recordTyped other found := by
    rw [Function.update_of_ne (recordKey_ne_shelfKey other user shelfno)]
    exact file.recordTyped other found

/-- `dbm_store` under the key of a record. -/
def storeRecord (user : String) (marks : Int → Nat) (file : DbmFile) : DbmFile where
  fetch := Function.update file.fetch (recordKey user) (some (.record marks))
  shelfTyped other number found := by
    rw [Function.update_of_ne (recordKey_ne_shelfKey user other number).symm]
    exact file.shelfTyped other number found
  recordTyped other found := by
    by_cases same : recordKey other = recordKey user
    · rw [same, Function.update_self]
      simp
    · rw [Function.update_of_ne same]
      exact file.recordTyped other found

theorem fetch_storeShelf (user : String) (shelfno : Int) (entry : Option ShelfEntry)
    (file : DbmFile) : (file.storeShelf user shelfno entry).fetch =
      Function.update file.fetch (shelfKey user shelfno) (entry.map .shelf) := rfl

theorem fetch_storeRecord (user : String) (marks : Int → Nat) (file : DbmFile) :
    (file.storeRecord user marks).fetch =
      Function.update file.fetch (recordKey user) (some (.record marks)) := rfl

def shelfAt (file : DbmFile) (user : String) (shelfno : Int) : Option ShelfEntry :=
  match file.fetch (shelfKey user shelfno) with
  | some (.shelf entry) => some entry
  | _ => none

def recordAt (file : DbmFile) (user : String) : Option (Int → Nat) :=
  match file.fetch (recordKey user) with
  | some (.record marks) => some marks
  | _ => none

theorem shelfAt_isNone (file : DbmFile) (user : String) (shelfno : Int) :
    (file.shelfAt user shelfno).isNone = (file.fetch (shelfKey user shelfno)).isNone := by
  have typed := file.shelfTyped user shelfno
  rw [shelfAt]
  cases datum : file.fetch (shelfKey user shelfno) with
  | none => rfl
  | some found =>
      cases found with
      | shelf entry => rfl
      | record marks => exact absurd datum (typed marks)

theorem shelfAt_storeShelf (file : DbmFile) (user : String) (shelfno : Int)
    (entry : Option ShelfEntry) :
    (file.storeShelf user shelfno entry).shelfAt =
      Function.update file.shelfAt user (Function.update (file.shelfAt user) shelfno entry) := by
  funext other number
  rw [shelfAt, fetch_storeShelf]
  by_cases same : other = user
  · subst same
    rw [Function.update_self]
    by_cases sameNumber : number = shelfno
    · subst sameNumber
      rw [Function.update_self, Function.update_self]
      cases entry <;> rfl
    · have different : shelfKey other number ≠ shelfKey other shelfno := fun equal =>
        sameNumber (shelfKey_inj equal).2
      rw [Function.update_of_ne different, Function.update_of_ne sameNumber]
      rfl
  · have different : shelfKey other number ≠ shelfKey user shelfno := fun equal =>
      same (shelfKey_inj equal).1
    rw [Function.update_of_ne different, Function.update_of_ne same]
    rfl

theorem recordAt_storeShelf (file : DbmFile) (user : String) (shelfno : Int)
    (entry : Option ShelfEntry) :
    (file.storeShelf user shelfno entry).recordAt = file.recordAt := by
  funext other
  rw [recordAt, fetch_storeShelf, Function.update_of_ne (recordKey_ne_shelfKey other user shelfno),
    recordAt]

theorem shelfAt_storeRecord (file : DbmFile) (user : String) (marks : Int → Nat) :
    (file.storeRecord user marks).shelfAt = file.shelfAt := by
  funext other number
  rw [shelfAt, fetch_storeRecord, Function.update_of_ne (recordKey_ne_shelfKey user other number).symm,
    shelfAt]

theorem recordAt_storeRecord (file : DbmFile) (user : String) (marks : Int → Nat) :
    (file.storeRecord user marks).recordAt =
      Function.update file.recordAt user (some marks) := by
  funext other
  rw [recordAt, fetch_storeRecord]
  by_cases same : other = user
  · subst same
    rw [Function.update_self, Function.update_self]
  · have different : recordKey other ≠ recordKey user := fun equal => same (recordKey_inj equal)
    rw [Function.update_of_ne different, Function.update_of_ne same]
    rfl

end DbmFile

/-! ## The functions on the file -/

/-- The file and the statics of `clidb.c` for shelves. -/
structure ShelfStore where
  file : DbmFile
  currentUser : String
  shelfRecord : Int → Nat
  dbmFaults : List Bool

namespace ShelfStore

def dbmWrite (write : DbmFile → DbmFile) (store : ShelfStore) : Bool × ShelfStore :=
  let advanced := { store with dbmFaults := store.dbmFaults.tail }
  if store.dbmFaults.headD false then (false, advanced)
  else (true, { advanced with file := write advanced.file })

def shelfRecordSave (store : ShelfStore) : Bool × ShelfStore :=
  store.dbmWrite (DbmFile.storeRecord store.currentUser store.shelfRecord)

def shelfRecordObtain (store : ShelfStore) : ShelfStore :=
  match store.file.recordAt store.currentUser with
  | some record => { store with shelfRecord := record }
  | none => store.shelfRecordSave.2

def clidbInit (loginUser : String) (store : ShelfStore) : ShelfStore :=
  { store with currentUser := loginUser }.shelfRecordObtain

def setRecord (shelfno : Int) (value : Nat) (store : ShelfStore) : ShelfStore :=
  { store with shelfRecord := Function.update store.shelfRecord shelfno value }

def clidbShelfRealInsert (mark : Nat) (shelf : ShelfEntry) (store : ShelfStore) :
    Bool × ShelfStore :=
  match store.dbmWrite (DbmFile.storeShelf store.currentUser shelf.code (some shelf)) with
  | (false, store) => (false, store)
  | (true, store) => (store.setRecord shelf.code mark).shelfRecordSave

def clidbShelfInsert (shelf : ShelfEntry) (store : ShelfStore) : Bool × ShelfStore :=
  store.clidbShelfRealInsert recordSet shelf

def clidbShelfSynchronize (shelf : ShelfEntry) (store : ShelfStore) : Bool × ShelfStore :=
  store.clidbShelfRealInsert recordSync shelf

def clidbShelfGet (store : ShelfStore) (shelfno : Int) : Option ShelfEntry :=
  store.file.shelfAt store.currentUser shelfno

def clidbShelfDelete (shelfno : Int) (store : ShelfStore) : Bool × ShelfStore :=
  if (store.file.fetch (shelfKey store.currentUser shelfno)).isNone then (false, store)
  else match store.dbmWrite (DbmFile.storeShelf store.currentUser shelfno none) with
    | (false, store) => (false, store)
    | (true, store) => (store.setRecord shelfno recordUnset).shelfRecordSave

def clidbShelfExists (store : ShelfStore) (shelfno : Int) : Bool :=
  decide (shelfno ≤ maxShelfNum) && decide (0 < store.shelfRecord shelfno)

def clidbShelfNotSyncs (store : ShelfStore) (shelfno : Int) : Bool :=
  decide (shelfno ≤ maxShelfNum) && store.shelfRecord shelfno == recordSet

def clidbShelfRecordSort (store : ShelfStore) : Bool × ShelfStore :=
  let sorted := fun shelfno => ShelfCache.sortedMark shelfno (store.shelfRecord shelfno)
  { store with shelfRecord := sorted }.shelfRecordSave

/-- What the functions see of the file. -/
def view (store : ShelfStore) : ShelfCache where
  shelfData := store.file.shelfAt
  shelfRecords := store.file.recordAt
  currentUser := store.currentUser
  shelfRecord := store.shelfRecord
  dbmFaults := store.dbmFaults

theorem view_dbmWrite {write : DbmFile → DbmFile} {seen : ShelfCache → ShelfCache}
    {store : ShelfStore}
    (agrees : ∀ faults, { store with file := write store.file, dbmFaults := faults }.view =
      seen { store.view with dbmFaults := faults }) :
    ((store.dbmWrite write).1, (store.dbmWrite write).2.view) = store.view.dbmWrite seen := by
  rw [dbmWrite, ShelfCache.dbmWrite]
  have faults : store.view.dbmFaults = store.dbmFaults := rfl
  rw [faults]
  split
  · rfl
  · rw [← agrees]

theorem view_shelfRecordSave (store : ShelfStore) :
    (store.shelfRecordSave.1, store.shelfRecordSave.2.view) = store.view.shelfRecordSave := by
  apply view_dbmWrite
  intro faults
  rw [view, DbmFile.shelfAt_storeRecord, DbmFile.recordAt_storeRecord]
  rfl

theorem view_storeShelf (store : ShelfStore) (shelfno : Int) (entry : Option ShelfEntry) :
    ((store.dbmWrite (DbmFile.storeShelf store.currentUser shelfno entry)).1,
        (store.dbmWrite (DbmFile.storeShelf store.currentUser shelfno entry)).2.view) =
      store.view.dbmWrite (ShelfCache.storeShelf shelfno entry) := by
  apply view_dbmWrite
  intro faults
  rw [view, DbmFile.shelfAt_storeShelf, DbmFile.recordAt_storeShelf]
  rfl

theorem view_clidbInit (loginUser : String) (store : ShelfStore) :
    (store.clidbInit loginUser).view = store.view.clidbInit loginUser := by
  rw [clidbInit, ShelfCache.clidbInit, shelfRecordObtain, ShelfCache.shelfRecordObtain]
  have records : store.view.shelfRecords = store.file.recordAt := rfl
  dsimp only
  rw [records]
  cases store.file.recordAt loginUser with
  | none =>
      exact congrArg Prod.snd (view_shelfRecordSave { store with currentUser := loginUser })
  | some record => rfl

theorem view_clidbShelfRealInsert (mark : Nat) (shelf : ShelfEntry) (store : ShelfStore) :
    (store.clidbShelfRealInsert mark shelf).2.view =
      (store.view.clidbShelfRealInsert mark shelf).2 := by
  have stored := view_storeShelf store shelf.code (some shelf)
  rw [clidbShelfRealInsert, ShelfCache.clidbShelfRealInsert, ← stored]
  rcases store.dbmWrite (DbmFile.storeShelf store.currentUser shelf.code (some shelf)) with
    ⟨_ | _, next⟩
  · rfl
  · exact congrArg Prod.snd (view_shelfRecordSave (next.setRecord shelf.code mark))

theorem view_clidbShelfDelete (shelfno : Int) (store : ShelfStore) :
    (store.clidbShelfDelete shelfno).2.view = (store.view.clidbShelfDelete shelfno).2 := by
  have stored := view_storeShelf store shelfno none
  have missing : (store.view.clidbShelfGet shelfno).isNone =
      (store.file.fetch (shelfKey store.currentUser shelfno)).isNone :=
    store.file.shelfAt_isNone store.currentUser shelfno
  rw [clidbShelfDelete, ShelfCache.clidbShelfDelete, missing, ← stored]
  split
  · rfl
  · rcases store.dbmWrite (DbmFile.storeShelf store.currentUser shelfno none) with ⟨_ | _, next⟩
    · rfl
    · exact congrArg Prod.snd (view_shelfRecordSave (next.setRecord shelfno recordUnset))

theorem view_clidbShelfRecordSort (store : ShelfStore) :
    store.clidbShelfRecordSort.2.view = store.view.clidbShelfRecordSort.2 :=
  congrArg Prod.snd (view_shelfRecordSave { store with
    shelfRecord := fun shelfno => ShelfCache.sortedMark shelfno (store.shelfRecord shelfno) })

end ShelfStore

end Bookshelfdq
