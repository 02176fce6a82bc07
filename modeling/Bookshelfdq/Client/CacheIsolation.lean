import Bookshelfdq.Client.ShelfFile
import Bookshelfdq.Server.ShelfIntegrity

/-! # The shelf caches of several users

One process may call `clidb_init` for one user after another. What a user finds is what that
user left behind, unless nothing is on file yet: then the record of the user before is taken
over. -/

namespace Bookshelfdq

/-! ## Events -/

inductive CacheOperation
  | insert (shelf : ShelfEntry)
  | synchronize (shelf : ShelfEntry)
  | delete (shelfno : Int)
  | sort

inductive CacheEvent
  | init (user : String)
  | operate (operation : CacheOperation)

namespace ShelfStore

def operate (store : ShelfStore) : CacheOperation → ShelfStore
  | .insert shelf => (store.clidbShelfInsert shelf).2
  | .synchronize shelf => (store.clidbShelfSynchronize shelf).2
  | .delete shelfno => (store.clidbShelfDelete shelfno).2
  | .sort => store.clidbShelfRecordSort.2

/-- One call. Before the first `clidb_init` there is no file and the operations return 0. -/
def happen (store : ShelfStore) : CacheEvent → ShelfStore
  | .init user => store.clidbInit user
  | .operate operation => if store.currentUser = "" then store else store.operate operation

/-- The statics of a new process; no write fails. -/
structure NewProcess (store : ShelfStore) : Prop where
  user : store.currentUser = ""
  record : ∀ shelfno, store.shelfRecord shelfno = recordUnset
  faultless : store.dbmFaults = []

/-- What is reported of a shelf. -/
def report (store : ShelfStore) (shelfno : Int) : Bool × Bool × Option ShelfEntry :=
  (store.clidbShelfExists shelfno, store.clidbShelfNotSyncs shelfno, store.clidbShelfGet shelfno)

/-- A user without a record on file comes when the record in memory is empty. -/
def StartsClean (store : ShelfStore) : CacheEvent → Prop
  | .init user => store.file.recordAt user = none → ∀ shelfno, store.shelfRecord shelfno = recordUnset
  | .operate _ => True

end ShelfStore

/-- The events while a user is the current one. -/
def ownEvents (user : String) : String → List CacheEvent → List CacheEvent
  | _, [] => []
  | _, .init next :: events =>
      if next = user then .init next :: ownEvents user next events else ownEvents user next events
  | current, .operate operation :: events =>
      if current = user then .operate operation :: ownEvents user current events
      else ownEvents user current events

/-- What is reported to a user depends on the user's own events only. -/
def Isolated (store : ShelfStore) (history : List CacheEvent) (user : String) : Prop :=
  ∀ shelfno,
    (Execution.run ShelfStore.happen store (history ++ [.init user])).report shelfno =
      (Execution.run ShelfStore.happen store
        (ownEvents user store.currentUser history ++ [.init user])).report shelfno

/-! ## What an operation does -/

/-- Entries and marks after an operation. -/
def CacheOperation.effect (entries : Int → Option ShelfEntry) (marks : Int → Nat) :
    CacheOperation → (Int → Option ShelfEntry) × (Int → Nat)
  | .insert shelf =>
      (Function.update entries shelf.code (some shelf), Function.update marks shelf.code recordSet)
  | .synchronize shelf =>
      (Function.update entries shelf.code (some shelf), Function.update marks shelf.code recordSync)
  | .delete shelfno =>
      if (entries shelfno).isNone then (entries, marks)
      else (Function.update entries shelfno none, Function.update marks shelfno recordUnset)
  | .sort => (entries, fun shelfno => ShelfCache.sortedMark shelfno (marks shelfno))

namespace ShelfCache

def operate (cache : ShelfCache) : CacheOperation → ShelfCache
  | .insert shelf => (cache.clidbShelfInsert shelf).2
  | .synchronize shelf => (cache.clidbShelfSynchronize shelf).2
  | .delete shelfno => (cache.clidbShelfDelete shelfno).2
  | .sort => cache.clidbShelfRecordSort.2

def happen (cache : ShelfCache) : CacheEvent → ShelfCache
  | .init user => cache.clidbInit user
  | .operate operation => if cache.currentUser = "" then cache else cache.operate operation

/-- The cache with entries and marks of the current user, on file and in memory. -/
def settled (cache : ShelfCache) (contents : (Int → Option ShelfEntry) × (Int → Nat)) :
    ShelfCache :=
  { cache with
    shelfData := Function.update cache.shelfData cache.currentUser contents.1
    shelfRecords := Function.update cache.shelfRecords cache.currentUser (some contents.2)
    shelfRecord := contents.2 }

theorem settled_own (cache : ShelfCache) (contents : (Int → Option ShelfEntry) × (Int → Nat)) :
    (cache.settled contents).shelfData cache.currentUser = contents.1 ∧
      (cache.settled contents).shelfRecords cache.currentUser = some contents.2 :=
  ⟨Function.update_self _ _ _, Function.update_self _ _ _⟩

theorem settled_other {cache : ShelfCache} {user : String} (different : cache.currentUser ≠ user)
    (contents : (Int → Option ShelfEntry) × (Int → Nat)) :
    (cache.settled contents).shelfData user = cache.shelfData user ∧
      (cache.settled contents).shelfRecords user = cache.shelfRecords user :=
  ⟨Function.update_of_ne different.symm _ _, Function.update_of_ne different.symm _ _⟩

/-- No write fails, and the record of the current user is on file. -/
structure Coherent (cache : ShelfCache) : Prop where
  faultless : cache.dbmFaults = []
  saved : cache.currentUser ≠ "" → cache.shelfRecords cache.currentUser = some cache.shelfRecord

theorem shelfRecordSave_of_faultless {cache : ShelfCache} (faultless : cache.dbmFaults = []) :
    cache.shelfRecordSave = (true, { cache with
      shelfRecords := Function.update cache.shelfRecords cache.currentUser
        (some cache.shelfRecord) }) := by
  rcases cache with ⟨shelfData, shelfRecords, currentUser, shelfRecord, dbmFaults⟩
  subst faultless
  rfl

theorem clidbShelfRealInsert_of_faultless {cache : ShelfCache} (faultless : cache.dbmFaults = [])
    (mark : Nat) (shelf : ShelfEntry) :
    cache.clidbShelfRealInsert mark shelf =
      (true, cache.settled (Function.update cache.clidbShelfGet shelf.code (some shelf),
        Function.update cache.shelfRecord shelf.code mark)) := by
  rcases cache with ⟨shelfData, shelfRecords, currentUser, shelfRecord, dbmFaults⟩
  subst faultless
  rfl

theorem clidbShelfDelete_of_faultless {cache : ShelfCache} (faultless : cache.dbmFaults = [])
    {shelfno : Int} (stored : ¬(cache.clidbShelfGet shelfno).isNone = true) :
    cache.clidbShelfDelete shelfno =
      (true, cache.settled (Function.update cache.clidbShelfGet shelfno none,
        Function.update cache.shelfRecord shelfno recordUnset)) := by
  rw [clidbShelfDelete, if_neg stored]
  rcases cache with ⟨shelfData, shelfRecords, currentUser, shelfRecord, dbmFaults⟩
  subst faultless
  rfl

theorem settled_same {cache : ShelfCache} (coherent : cache.Coherent)
    (named : cache.currentUser ≠ "") :
    cache.settled (cache.clidbShelfGet, cache.shelfRecord) = cache := by
  have saved := coherent.saved named
  rcases cache with ⟨shelfData, shelfRecords, currentUser, shelfRecord, dbmFaults⟩
  have records : Function.update shelfRecords currentUser (some shelfRecord) = shelfRecords := by
    rw [← saved]
    exact Function.update_eq_self _ _
  have data : Function.update shelfData currentUser (shelfData currentUser) = shelfData :=
    Function.update_eq_self _ _
  rw [settled]
  change ShelfCache.mk (Function.update shelfData currentUser (shelfData currentUser))
    (Function.update shelfRecords currentUser (some shelfRecord)) _ _ _ = _
  rw [records, data]

/-- An operation changes entries and marks of the current user. -/
theorem operate_eq {cache : ShelfCache} (coherent : cache.Coherent)
    (named : cache.currentUser ≠ "") (operation : CacheOperation) :
    cache.operate operation =
      cache.settled (operation.effect cache.clidbShelfGet cache.shelfRecord) := by
  cases operation with
  | insert shelf =>
      exact congrArg Prod.snd (clidbShelfRealInsert_of_faultless coherent.faultless recordSet shelf)
  | synchronize shelf =>
      exact congrArg Prod.snd (clidbShelfRealInsert_of_faultless coherent.faultless recordSync shelf)
  | delete shelfno =>
      rw [CacheOperation.effect]
      split
      case isTrue missing =>
        rw [settled_same coherent named, operate, clidbShelfDelete, if_pos missing]
      case isFalse stored =>
        exact congrArg Prod.snd (clidbShelfDelete_of_faultless coherent.faultless stored)
  | sort =>
      have saved := @shelfRecordSave_of_faultless { cache with
        shelfRecord := fun shelfno => sortedMark shelfno (cache.shelfRecord shelfno) }
        coherent.faultless
      have data : Function.update cache.shelfData cache.currentUser cache.clidbShelfGet =
          cache.shelfData := Function.update_eq_self _ _
      rw [operate, clidbShelfRecordSort, saved, CacheOperation.effect, settled, data]

theorem Coherent.settled {cache : ShelfCache} (coherent : cache.Coherent)
    (contents : (Int → Option ShelfEntry) × (Int → Nat)) : (cache.settled contents).Coherent :=
  ⟨coherent.faultless, fun _ => Function.update_self _ _ _⟩

theorem clidbInit_stored {cache : ShelfCache} {user : String} {record : Int → Nat}
    (stored : cache.shelfRecords user = some record) :
    cache.clidbInit user = { cache with currentUser := user, shelfRecord := record } := by
  rw [clidbInit, shelfRecordObtain]
  dsimp only
  rw [stored]

theorem clidbInit_new {cache : ShelfCache} (faultless : cache.dbmFaults = []) {user : String}
    (new : cache.shelfRecords user = none) :
    cache.clidbInit user = { cache with
      currentUser := user
      shelfRecords := Function.update cache.shelfRecords user (some cache.shelfRecord) } := by
  rw [clidbInit, shelfRecordObtain]
  dsimp only
  rw [new]
  exact congrArg Prod.snd (@shelfRecordSave_of_faultless { cache with currentUser := user } faultless)

theorem Coherent.init {cache : ShelfCache} (coherent : cache.Coherent) (user : String) :
    (cache.clidbInit user).Coherent := by
  cases stored : cache.shelfRecords user with
  | some record =>
      rw [clidbInit_stored stored]
      exact ⟨coherent.faultless, fun _ => stored⟩
  | none =>
      rw [clidbInit_new coherent.faultless stored]
      exact ⟨coherent.faultless, fun _ => Function.update_self _ _ _⟩

theorem Coherent.happen {cache : ShelfCache} (coherent : cache.Coherent) (event : CacheEvent) :
    (cache.happen event).Coherent := by
  cases event with
  | init user => exact coherent.init user
  | operate operation =>
      rw [ShelfCache.happen]
      split
      · exact coherent
      case isFalse named =>
        rw [operate_eq coherent named]
        exact coherent.settled _

/-! ## Two runs -/

/-- The run `own` of a user's events follows the run `full` of all events. -/
structure Follows (user : String) (full own : ShelfCache) : Prop where
  coherent : full.Coherent
  ownCoherent : own.Coherent
  data : own.shelfData user = full.shelfData user
  records : own.shelfRecords user = full.shelfRecords user
  current : full.currentUser = user → own.currentUser = user ∧ own.shelfRecord = full.shelfRecord
  started : own.currentUser = user ∨
    own.currentUser = "" ∧ ∀ shelfno, own.shelfRecord shelfno = recordUnset

section Follows

variable {user : String} (named : user ≠ "") {full own : ShelfCache}
  (follows : Follows user full own)

include named follows

/-- The user comes back. -/
theorem Follows.own_init (clean : full.shelfRecords user = none →
    ∀ shelfno, full.shelfRecord shelfno = recordUnset) :
    Follows user (full.clidbInit user) (own.clidbInit user) ∧
      (full.clidbInit user).currentUser = user := by
  have coherent := follows.coherent.init user
  have ownCoherent := follows.ownCoherent.init user
  have records := follows.records
  cases stored : full.shelfRecords user with
  | some record =>
      rw [stored] at records
      rw [clidbInit_stored stored] at coherent ⊢
      rw [clidbInit_stored records] at ownCoherent ⊢
      exact ⟨⟨coherent, ownCoherent, follows.data, follows.records, fun _ => ⟨rfl, rfl⟩, .inl rfl⟩,
        rfl⟩
  | none =>
      rw [stored] at records
      have ownEmpty : ∀ shelfno, own.shelfRecord shelfno = recordUnset := by
        rcases follows.started with same | ⟨_, unset⟩
        · have saved := follows.ownCoherent.saved (same ▸ named)
          rw [same, records] at saved
          cases saved
        · exact unset
      have marks : own.shelfRecord = full.shelfRecord := by
        funext shelfno
        rw [clean stored, ownEmpty]
      rw [clidbInit_new follows.coherent.faultless stored] at coherent ⊢
      rw [clidbInit_new follows.ownCoherent.faultless records] at ownCoherent ⊢
      refine ⟨⟨coherent, ownCoherent, follows.data, ?_, fun _ => ⟨rfl, marks⟩, .inl rfl⟩, rfl⟩
      dsimp only
      rw [Function.update_self, Function.update_self, marks]

/-- The user works. -/
theorem Follows.own_operate (current : full.currentUser = user) (operation : CacheOperation) :
    Follows user (full.operate operation) (own.operate operation) := by
  rcases follows.current current with ⟨ownCurrent, marks⟩
  have entries : own.clidbShelfGet = full.clidbShelfGet := by
    funext shelfno
    rw [clidbShelfGet, clidbShelfGet, ownCurrent, current, follows.data]
  rw [operate_eq follows.coherent (current ▸ named), operate_eq follows.ownCoherent
    (ownCurrent ▸ named), entries, marks]
  generalize operation.effect full.clidbShelfGet full.shelfRecord = contents
  have inFull := full.settled_own contents
  have inOwn := own.settled_own contents
  rw [current] at inFull
  rw [ownCurrent] at inOwn
  exact ⟨follows.coherent.settled _, follows.ownCoherent.settled _, inOwn.1.trans inFull.1.symm,
    inOwn.2.trans inFull.2.symm, fun _ => ⟨ownCurrent, rfl⟩, .inl ownCurrent⟩

omit named in
/-- Another user comes. -/
theorem Follows.other_init {other : String} (different : other ≠ user) :
    Follows user (full.clidbInit other) own := by
  have coherent := follows.coherent.init other
  cases stored : full.shelfRecords other with
  | some record =>
      rw [clidbInit_stored stored] at coherent ⊢
      exact ⟨coherent, follows.ownCoherent, follows.data, follows.records,
        fun same => absurd same different, follows.started⟩
  | none =>
      rw [clidbInit_new follows.coherent.faultless stored] at coherent ⊢
      refine ⟨coherent, follows.ownCoherent, follows.data, ?_,
        fun same => absurd same different, follows.started⟩
      rw [follows.records]
      exact (Function.update_of_ne different.symm _ _).symm

omit named in
/-- Another user works. -/
theorem Follows.other_operate (different : full.currentUser ≠ user)
    (other : full.currentUser ≠ "") (operation : CacheOperation) :
    Follows user (full.operate operation) own := by
  rw [operate_eq follows.coherent other]
  generalize operation.effect full.clidbShelfGet full.shelfRecord = contents
  have kept := settled_other different contents
  exact ⟨follows.coherent.settled _, follows.ownCoherent, follows.data.trans kept.1.symm,
    follows.records.trans kept.2.symm, fun same => absurd same different, follows.started⟩

end Follows

/-- A user without a record on file comes when the record in memory is empty. -/
def StartsClean (cache : ShelfCache) : CacheEvent → Prop
  | .init user => cache.shelfRecords user = none → ∀ shelfno, cache.shelfRecord shelfno = recordUnset
  | .operate _ => True

/-- The run of the user's own events follows the whole run. -/
theorem Follows.run {user : String} (named : user ≠ "") {full own : ShelfCache}
    (follows : Follows user full own) {history : List CacheEvent}
    (clean : Execution.Along happen StartsClean full history)
    (nonempty : ∀ other, CacheEvent.init other ∈ history → other ≠ "") :
    Follows user (Execution.run happen full history)
      (Execution.run happen own (ownEvents user full.currentUser history)) := by
  induction history generalizing full own with
  | nil => exact follows
  | cons event history induction =>
      have later : ∀ other, CacheEvent.init other ∈ history → other ≠ "" :=
        fun other member => nonempty other (List.mem_cons_of_mem _ member)
      cases event with
      | init next =>
          have renamed : (full.clidbInit next).currentUser = next := by
            cases stored : full.shelfRecords next with
            | some record => rw [clidbInit_stored stored]
            | none => rw [clidbInit_new follows.coherent.faultless stored]
          rw [ownEvents]
          split
          case isTrue same =>
            subst same
            have continued := induction (follows.own_init named clean.1).1 clean.2 later
            rw [renamed] at continued
            exact continued
          case isFalse different =>
            have continued := induction (follows.other_init different) clean.2 later
            rw [renamed] at continued
            exact continued
      | operate operation =>
          have kept : (full.happen (.operate operation)).currentUser = full.currentUser := by
            rw [happen]
            split
            · rfl
            case isFalse named => rw [operate_eq follows.coherent named, settled]
          rw [ownEvents]
          split
          case isTrue current =>
            have next := follows.own_operate named current operation
            have ownNamed : own.currentUser ≠ "" := (follows.current current).1 ▸ named
            have happens : full.happen (.operate operation) = full.operate operation :=
              if_neg (current ▸ named)
            have ownHappens : own.happen (.operate operation) = own.operate operation :=
              if_neg ownNamed
            rw [← happens, ← ownHappens] at next
            have continued := induction next clean.2 later
            rw [kept] at continued
            exact continued
          case isFalse different =>
            have next : Follows user (full.happen (.operate operation)) own := by
              rw [happen]
              split
              · exact follows
              case isFalse other => exact follows.other_operate different other operation
            have continued := induction next clean.2 later
            rw [kept] at continued
            exact continued

end ShelfCache

/-! ## The file -/

namespace ShelfStore

theorem view_happen (store : ShelfStore) (event : CacheEvent) :
    (store.happen event).view = store.view.happen event := by
  have same : store.view.currentUser = store.currentUser := rfl
  cases event with
  | init user => exact view_clidbInit user store
  | operate operation =>
      rw [happen, ShelfCache.happen, same]
      split
      · rfl
      · cases operation with
        | insert shelf => exact view_clidbShelfRealInsert recordSet shelf store
        | synchronize shelf => exact view_clidbShelfRealInsert recordSync shelf store
        | delete shelfno => exact view_clidbShelfDelete shelfno store
        | sort => exact view_clidbShelfRecordSort store

theorem view_run (store : ShelfStore) (history : List CacheEvent) :
    (Execution.run happen store history).view =
      Execution.run ShelfCache.happen store.view history := by
  induction history generalizing store with
  | nil => rfl
  | cons event history induction =>
      rw [Execution.run, Execution.run, induction, view_happen]

theorem view_startsClean {store : ShelfStore} {event : CacheEvent}
    (clean : store.StartsClean event) : store.view.StartsClean event := by
  cases event with
  | init user => exact clean
  | operate operation => trivial

theorem view_along {store : ShelfStore} {history : List CacheEvent}
    (clean : Execution.Along happen StartsClean store history) :
    Execution.Along ShelfCache.happen ShelfCache.StartsClean store.view history := by
  induction history generalizing store with
  | nil => trivial
  | cons event history induction =>
      refine ⟨view_startsClean clean.1, ?_⟩
      rw [← view_happen]
      exact induction clean.2

theorem report_view (store : ShelfStore) (shelfno : Int) :
    store.report shelfno = (store.view.clidbShelfExists shelfno,
      store.view.clidbShelfNotSyncs shelfno, store.view.clidbShelfGet shelfno) := rfl

end ShelfStore

/-- In a run in which every user without a record on file comes to an empty record, what is
reported to a user depends on the user's own events only. -/
theorem shelf_caches_isolated (store : ShelfStore) (start : store.NewProcess)
    (history : List CacheEvent) (user : String) (named : user ≠ "")
    (nonempty : ∀ other, CacheEvent.init other ∈ history → other ≠ "")
    (clean : Execution.Along ShelfStore.happen ShelfStore.StartsClean store
      (history ++ [.init user])) :
    Isolated store history user := by
  intro shelfno
  have initial : ShelfCache.Follows user store.view store.view := by
    have coherent : store.view.Coherent := ⟨start.faultless, fun other => absurd start.user other⟩
    exact ⟨coherent, coherent, rfl, rfl, fun same => ⟨same, rfl⟩, .inr ⟨start.user, start.record⟩⟩
  rcases Execution.along_append.mp (ShelfStore.view_along clean) with ⟨before, last⟩
  have follows := initial.run named before nonempty
  rcases follows.own_init named last.1 with ⟨settled, current⟩
  rcases settled.current current with ⟨ownCurrent, marks⟩
  have both : ∀ events, (Execution.run ShelfStore.happen store (events ++ [.init user])).view =
      (Execution.run ShelfCache.happen store.view events).clidbInit user := by
    intro events
    rw [ShelfStore.view_run, Execution.run_append]
    rfl
  have users : store.view.currentUser = store.currentUser := rfl
  rw [ShelfStore.report_view, ShelfStore.report_view, both, both, ← users]
  rw [ShelfCache.clidbShelfExists, ShelfCache.clidbShelfExists, ShelfCache.clidbShelfNotSyncs,
    ShelfCache.clidbShelfNotSyncs, ShelfCache.clidbShelfGet, ShelfCache.clidbShelfGet, current,
    ownCurrent, marks, settled.data]

/-- A process that begins with an empty file. -/
def ShelfStore.fresh : ShelfStore where
  file := .empty
  currentUser := ""
  shelfRecord _ := recordUnset
  dbmFaults := []

def firstShelf : ShelfEntry := { Server.sampleShelf with code := 1 }

theorem reader_isolated :
    ShelfStore.fresh.NewProcess ∧
      Isolated .fresh [.init "reader_1", .operate .sort, .init "reader_2",
        .operate (.insert firstShelf)] "reader_1" := by
  have start : ShelfStore.fresh.NewProcess := ⟨rfl, fun _ => rfl, rfl⟩
  refine ⟨start, shelf_caches_isolated _ start _ _ (by decide) ?_ ?_⟩
  · intro other member
    simp only [List.mem_cons, CacheEvent.init.injEq, reduceCtorEq, List.not_mem_nil, or_false,
      false_or] at member
    rcases member with rfl | rfl <;> decide
  · refine ⟨fun _ _ => rfl, trivial, fun _ shelfno => ?_, trivial,
      fun new => absurd new (Option.isSome_iff_ne_none.mp (by decide)), trivial⟩
    have unset : ShelfCache.sortedMark shelfno recordUnset = recordUnset := by
      simp [ShelfCache.sortedMark]
    exact unset

/-- The second user finds the shelf of the first in the record. -/
theorem record_taken_over :
    ¬Isolated .fresh [.init "reader_1", .operate (.insert firstShelf)] "reader_2" := by
  intro isolated
  exact absurd (isolated 1) (by decide)

end Bookshelfdq
