import Bookshelfdq.Client.Clidb
import Mathlib.Logic.Function.Basic

/-! # The records of the shelf cache

The record of a shelf is written after every single step, so that a session finds
whatever mixture of marks the one before has left behind. -/

namespace Bookshelfdq.ShelfCache

/-! ## Steps that succeed -/

theorem dbmWrite_done {cache after : ShelfCache} {write : ShelfCache → ShelfCache}
    (done : cache.dbmWrite write = (true, after)) :
    after = write { cache with dbmFaults := cache.dbmFaults.tail } := by
  cases fault : cache.dbmFaults.headD false with
  | true =>
      rw [dbmWrite_of_fault fault] at done
      cases done
  | false =>
      rw [dbmWrite_of_healthy fault] at done
      exact (Prod.mk.inj done).2.symm

/-- The cache `after` differs in the mark and the entry of one shelf. -/
structure Replaced (shelfno : Int) (mark : Nat) (entry : Option ShelfEntry)
    (cache after : ShelfCache) : Prop where
  record : after.shelfRecord = Function.update cache.shelfRecord shelfno mark
  get : after.clidbShelfGet = Function.update cache.clidbShelfGet shelfno entry

theorem shelfRecordSave_keeps (cache : ShelfCache) :
    cache.shelfRecordSave.2.clidbShelfGet = cache.clidbShelfGet ∧
      cache.shelfRecordSave.2.shelfRecord = cache.shelfRecord := by
  rw [shelfRecordSave]
  cases fault : cache.dbmFaults.headD false with
  | true =>
      rw [dbmWrite_of_fault fault]
      exact ⟨rfl, rfl⟩
  | false =>
      rw [dbmWrite_of_healthy fault]
      exact ⟨rfl, rfl⟩

theorem clidbShelfRecordSort_keeps (cache : ShelfCache) :
    cache.clidbShelfRecordSort.2.clidbShelfGet = cache.clidbShelfGet ∧
      ∀ shelfno, cache.clidbShelfRecordSort.2.shelfRecord shelfno =
        sortedMark shelfno (cache.shelfRecord shelfno) := by
  have saved := shelfRecordSave_keeps { cache with
    shelfRecord := fun shelfno => sortedMark shelfno (cache.shelfRecord shelfno) }
  exact ⟨saved.1, congrFun saved.2⟩

theorem storeShelf_get (shelfno : Int) (entry : Option ShelfEntry) (cache : ShelfCache) :
    (cache.storeShelf shelfno entry).clidbShelfGet =
      Function.update cache.clidbShelfGet shelfno entry :=
  Function.update_self cache.currentUser _ cache.shelfData

theorem clidbShelfRealInsert_done {mark : Nat} {shelf : ShelfEntry} {cache after : ShelfCache}
    (done : cache.clidbShelfRealInsert mark shelf = (true, after)) :
    cache.Replaced shelf.code mark (some shelf) after := by
  rw [clidbShelfRealInsert] at done
  rcases written : cache.dbmWrite (storeShelf shelf.code (some shelf)) with ⟨_ | _, stored⟩
  · rw [written] at done
    cases done
  · rw [written] at done
    have saved := dbmWrite_done done
    subst saved
    have stores := dbmWrite_done written
    subst stores
    exact ⟨rfl, storeShelf_get shelf.code (some shelf) cache⟩

theorem clidbShelfDelete_done {shelfno : Int} {cache after : ShelfCache}
    (done : cache.clidbShelfDelete shelfno = (true, after)) :
    cache.Replaced shelfno recordUnset none after := by
  rw [clidbShelfDelete] at done
  split at done
  · cases done
  · rcases written : cache.dbmWrite (storeShelf shelfno none) with ⟨_ | _, stored⟩
    · rw [written] at done
      cases done
    · rw [written] at done
      have saved := dbmWrite_done done
      subst saved
      have stores := dbmWrite_done written
      subst stores
      exact ⟨rfl, storeShelf_get shelfno none cache⟩

def synchronizeAll : List ShelfEntry → ShelfCache → Bool × ShelfCache
  | [], cache => (true, cache)
  | shelf :: shelves, cache =>
      match cache.clidbShelfSynchronize shelf with
      | (false, cache) => (false, cache)
      | (true, cache) => synchronizeAll shelves cache

theorem synchronizeAll_cons_done {shelf : ShelfEntry} {shelves : List ShelfEntry}
    {cache : ShelfCache} (done : (cache.synchronizeAll (shelf :: shelves)).1 = true) :
    ∃ next, cache.clidbShelfSynchronize shelf = (true, next) ∧
      cache.synchronizeAll (shelf :: shelves) = next.synchronizeAll shelves := by
  rw [synchronizeAll] at done ⊢
  generalize cache.clidbShelfSynchronize shelf = result at done ⊢
  rcases result with ⟨_ | _, next⟩
  · cases done
  · exact ⟨next, rfl, rfl⟩

/-- A listing that is written in full marks the shelves it names, and no others. -/
theorem synchronizeAll_done {shelves : List ShelfEntry}
    (distinct : (shelves.map ShelfEntry.code).Nodup) {cache : ShelfCache}
    (done : (cache.synchronizeAll shelves).1 = true) :
    (∀ shelf ∈ shelves, (cache.synchronizeAll shelves).2.shelfRecord shelf.code = recordSync ∧
      (cache.synchronizeAll shelves).2.clidbShelfGet shelf.code = some shelf) ∧
    (∀ shelfno, (∀ shelf ∈ shelves, shelf.code ≠ shelfno) →
      (cache.synchronizeAll shelves).2.shelfRecord shelfno = cache.shelfRecord shelfno ∧
      (cache.synchronizeAll shelves).2.clidbShelfGet shelfno = cache.clidbShelfGet shelfno) := by
  induction shelves generalizing cache with
  | nil =>
      refine ⟨by simp, fun shelfno _ => ⟨rfl, rfl⟩⟩
  | cons shelf shelves induction =>
      rcases synchronizeAll_cons_done done with ⟨next, synced, rest⟩
      have replaced := clidbShelfRealInsert_done synced
      rw [rest] at done ⊢
      rw [List.map_cons, List.nodup_cons] at distinct
      rcases induction distinct.2 done with ⟨listed, others⟩
      have apart : ∀ other ∈ shelves, other.code ≠ shelf.code := by
        intro other member equal
        exact distinct.1 (equal ▸ List.mem_map_of_mem member)
      constructor
      · intro other member
        rcases List.mem_cons.mp member with rfl | member
        · rcases others other.code apart with ⟨record, get⟩
          rw [record, get, replaced.record, replaced.get]
          simp
        · exact listed other member
      · intro shelfno unnamed
        have different : shelfno ≠ shelf.code :=
          (unnamed shelf List.mem_cons_self).symm
        rcases others shelfno fun other member =>
          unnamed other (List.mem_cons_of_mem _ member) with ⟨record, get⟩
        rw [record, get, replaced.record, replaced.get]
        simp [different]

/-! ## Histories -/

/-- The steps that sessions take on the cache. A session may end after any of them, by
a write that fails or by `newProcess`. -/
inductive Action
  | newProcess (dbmFaults : List Bool)
  | init (loginUser : String)
  | insert (shelf : ShelfEntry)
  | synchronize (shelf : ShelfEntry)
  | delete (shelfno : Int)
  | sort

def act (cache : ShelfCache) : Action → ShelfCache
  | .newProcess dbmFaults => cache.restart dbmFaults
  | .init loginUser => cache.clidbInit loginUser
  | .insert shelf => (cache.clidbShelfInsert shelf).2
  | .synchronize shelf => (cache.clidbShelfSynchronize shelf).2
  | .delete shelfno => (cache.clidbShelfDelete shelfno).2
  | .sort => cache.clidbShelfRecordSort.2

/-- Marks in use, in the record at hand and in those on file. -/
structure Marked (cache : ShelfCache) : Prop where
  record : ∀ shelfno, cache.shelfRecord shelfno ≤ recordSync
  records : ∀ user record, cache.shelfRecords user = some record →
    ∀ shelfno, record shelfno ≤ recordSync

theorem Marked.empty : ShelfCache.empty.Marked :=
  ⟨fun _ => Nat.zero_le _, nofun⟩

theorem Marked.dbmWrite {cache : ShelfCache} {write : ShelfCache → ShelfCache}
    (written : ∀ cache : ShelfCache, cache.Marked → (write cache).Marked)
    (marked : cache.Marked) : (cache.dbmWrite write).2.Marked := by
  have advanced : Marked { cache with dbmFaults := cache.dbmFaults.tail } :=
    ⟨marked.record, marked.records⟩
  cases fault : cache.dbmFaults.headD false with
  | true =>
      rw [dbmWrite_of_fault fault]
      exact advanced
  | false =>
      rw [dbmWrite_of_healthy fault]
      exact written _ advanced

theorem Marked.save {cache : ShelfCache} (marked : cache.Marked) :
    cache.shelfRecordSave.2.Marked := by
  apply marked.dbmWrite
  intro cache marked
  refine ⟨marked.record, ?_⟩
  intro user record stored shelfno
  by_cases current : user = cache.currentUser
  · subst current
    dsimp only at stored
    rw [Function.update_self] at stored
    rw [← Option.some.inj stored]
    exact marked.record shelfno
  · dsimp only at stored
    rw [Function.update_of_ne current] at stored
    exact marked.records user record stored shelfno

theorem Marked.setRecord {cache : ShelfCache} (marked : cache.Marked) (shelfno : Int)
    {mark : Nat} (used : mark ≤ recordSync) : (cache.setRecord shelfno mark).Marked := by
  refine ⟨fun other => ?_, marked.records⟩
  by_cases same : other = shelfno
  · subst same
    simpa [ShelfCache.setRecord] using used
  · simpa [ShelfCache.setRecord, same] using marked.record other

theorem Marked.realInsert {cache : ShelfCache} (marked : cache.Marked) {mark : Nat}
    (used : mark ≤ recordSync) (shelf : ShelfEntry) :
    (cache.clidbShelfRealInsert mark shelf).2.Marked := by
  have stored : (cache.dbmWrite (storeShelf shelf.code (some shelf))).2.Marked :=
    marked.dbmWrite fun cache marked => ⟨marked.record, marked.records⟩
  rw [clidbShelfRealInsert]
  generalize cache.dbmWrite (storeShelf shelf.code (some shelf)) = result at stored ⊢
  rcases result with ⟨_ | _, next⟩
  · exact stored
  · exact (Marked.setRecord stored shelf.code used).save

theorem Marked.delete {cache : ShelfCache} (marked : cache.Marked) (shelfno : Int) :
    (cache.clidbShelfDelete shelfno).2.Marked := by
  rw [clidbShelfDelete]
  split
  · exact marked
  · have stored : (cache.dbmWrite (storeShelf shelfno none)).2.Marked :=
      marked.dbmWrite fun cache marked => ⟨marked.record, marked.records⟩
    generalize cache.dbmWrite (storeShelf shelfno none) = result at stored ⊢
    rcases result with ⟨_ | _, next⟩
    · exact stored
    · exact (Marked.setRecord stored shelfno (Nat.zero_le _)).save

theorem Marked.sort {cache : ShelfCache} (marked : cache.Marked) :
    cache.clidbShelfRecordSort.2.Marked := by
  apply Marked.save
  refine ⟨fun shelfno => ?_, marked.records⟩
  dsimp only
  rw [sortedMark]
  split
  · decide
  · exact marked.record shelfno

theorem Marked.init {cache : ShelfCache} (marked : cache.Marked) (loginUser : String) :
    (cache.clidbInit loginUser).Marked := by
  have renamed : Marked { cache with currentUser := loginUser } :=
    ⟨marked.record, marked.records⟩
  rw [clidbInit, shelfRecordObtain]
  dsimp only
  split
  · rename_i record stored
    exact ⟨marked.records loginUser record stored, marked.records⟩
  · exact renamed.save

theorem Marked.act {cache : ShelfCache} (marked : cache.Marked) (action : Action) :
    (cache.act action).Marked := by
  cases action with
  | newProcess dbmFaults => exact ⟨fun _ => Nat.zero_le _, marked.records⟩
  | init loginUser => exact marked.init loginUser
  | insert shelf => exact marked.realInsert (by decide) shelf
  | synchronize shelf => exact marked.realInsert (Nat.le_refl _) shelf
  | delete shelfno => exact marked.delete shelfno
  | sort => exact marked.sort

theorem run_marked (history : List Action) : (Execution.run act .empty history).Marked :=
  Execution.run_invariant (fun _ action marked => marked.act action) Marked.empty history

end Bookshelfdq.ShelfCache
