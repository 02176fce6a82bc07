import Bookshelfdq.Session.CalmSync

/-! # The shelf cache when the process ends

An insertion writes the entry before the record and a deletion removes it before the record. A
process that ends between the two writes leaves an entry without a mark in the first case, and a
mark without an entry in the second. -/

namespace Bookshelfdq

/-- A call, or a call in which the process ends and a new one begins. -/
inductive CacheStep
  | call (event : CacheEvent)
  | ended (event : CacheEvent) (writes : Nat)

namespace ShelfCache

/-- The process ends after a number of the writes of a call. No call has more than two. -/
def endedAfter (writes : Nat) (event : CacheEvent) (cache : ShelfCache) : ShelfCache :=
  ({ cache with dbmFaults := List.replicate writes false ++ [true, true] }.happen event).restart []

def advance (cache : ShelfCache) : CacheStep → ShelfCache
  | .call event => cache.happen event
  | .ended event writes => cache.endedAfter writes event

/-- Each shelf whose stored record value is not zero has a stored entry. -/
def Consistent (cache : ShelfCache) : Prop :=
  ∀ user record, cache.shelfRecords user = some record → ∀ shelfno,
    record shelfno ≠ recordUnset → (cache.shelfData user shelfno).isSome = true

/-- In a new process the synchronisation succeeds with any server that answers. -/
def SyncsAtLogin (cache : ShelfCache) : Prop :=
  ∀ (client : Client) (fuel : Nat) (stale : MessageCs) (shelvesAll : Int),
    client.Calm → client.loginUser ≠ "" → stale.extraInfo.length = extraInfoSize →
    maxShelfNum < fuel → client.shelves = (cache.restart []).clidbInit client.loginUser →
    (client.clientShelvesInfoSync fuel stale shelvesAll).1 = true

/-- The marks in memory are marks of shelves of this user, should they become the record. -/
def StartsHeld (cache : ShelfCache) (user : String) : Prop :=
  cache.shelfRecords user = none → ∀ shelfno,
    cache.shelfRecord shelfno ≠ recordUnset → (cache.shelfData user shelfno).isSome = true

/-- No deletion of a marked shelf ends between its writes, and no user without a record takes over
marks. -/
def EndsSafely (cache : ShelfCache) : CacheStep → Prop
  | .call (.init user) => cache.StartsHeld user
  | .call (.operate _) => True
  | .ended (.init user) writes => writes ≠ 0 → cache.StartsHeld user
  | .ended (.operate (.delete shelfno)) writes =>
      writes = 1 → cache.currentUser ≠ "" → (cache.clidbShelfGet shelfno).isSome = true →
        cache.shelfRecord shelfno = recordUnset
  | .ended (.operate _) _ => True

/-! ## The next login -/

theorem Consistent.syncsAtLogin {cache : ShelfCache} (consistent : cache.Consistent) :
    cache.SyncsAtLogin := by
  intro client fuel stale shelvesAll calm named room enough shelves
  have ready : client.shelves.dbmFaults = [] ∧ client.shelves.Held := by
    rw [shelves]
    cases stored : cache.shelfRecords client.loginUser with
    | some record =>
        rw [@clidbInit_stored (cache.restart []) _ _ stored]
        exact ⟨rfl, consistent _ _ stored⟩
    | none =>
        rw [@clidbInit_new (cache.restart []) rfl _ stored]
        exact ⟨rfl, fun shelfno set => absurd rfl set⟩
  exact Client.clientShelvesInfoSync_calm calm named stale room ready.1 ready.2 enough shelvesAll

/-! ## What the file holds after a step -/

section File

variable {cache : ShelfCache} (consistent : cache.Consistent)

include consistent

theorem Consistent.init_iff (faultless : cache.dbmFaults = []) (user : String) :
    (cache.clidbInit user).Consistent ↔ cache.StartsHeld user := by
  cases stored : cache.shelfRecords user with
  | some record =>
      rw [clidbInit_stored stored]
      refine ⟨fun _ new => ?_, fun _ => consistent⟩
      rw [stored] at new
      cases new
  | none =>
      rw [clidbInit_new faultless stored]
      constructor
      · intro kept _
        exact kept user _ (Function.update_self _ _ _)
      · intro held other record found
        dsimp only at found
        by_cases same : other = user
        · subst same
          rw [Function.update_self] at found
          rw [← Option.some.inj found]
          exact held stored
        · rw [Function.update_of_ne same] at found
          exact consistent other record found

theorem Consistent.settled {entries : Int → Option ShelfEntry} {marks : Int → Nat}
    (held : ∀ shelfno, marks shelfno ≠ recordUnset → (entries shelfno).isSome = true) :
    (cache.settled (entries, marks)).Consistent := by
  intro user record found
  by_cases same : cache.currentUser = user
  · subst same
    rcases cache.settled_own (entries, marks) with ⟨data, records⟩
    rw [records] at found
    rw [← Option.some.inj found, data]
    exact held
  · rcases settled_other same (entries, marks) with ⟨data, records⟩
    rw [records] at found
    rw [data]
    exact consistent user record found

/-- The first write of an insertion. -/
theorem Consistent.storeShelf (shelf : ShelfEntry) :
    (cache.storeShelf shelf.code (some shelf)).Consistent := by
  intro user record found shelfno set
  have before := consistent user record found shelfno set
  rw [ShelfCache.storeShelf]
  dsimp only
  by_cases same : user = cache.currentUser
  · subst same
    rw [Function.update_self]
    by_cases here : shelfno = shelf.code
    · rw [here, Function.update_self]
      rfl
    · rw [Function.update_of_ne here]
      exact before
  · rw [Function.update_of_ne same]
    exact before

/-- The first write of a deletion. -/
theorem Consistent.removed_iff (saved : cache.shelfRecords cache.currentUser =
    some cache.shelfRecord) (shelfno : Int) :
    (cache.storeShelf shelfno none).Consistent ↔ cache.shelfRecord shelfno = recordUnset := by
  constructor
  · intro kept
    by_contra set
    have entry := kept cache.currentUser _ saved shelfno set
    have removed := congrFun (storeShelf_get shelfno none cache) shelfno
    rw [Function.update_self] at removed
    have gone := entry.symm.trans (congrArg Option.isSome removed)
    cases gone
  · intro unset user record found other set
    have before := consistent user record found other set
    rw [ShelfCache.storeShelf]
    dsimp only
    by_cases same : user = cache.currentUser
    · subst same
      have marks := Option.some.inj (found.symm.trans saved)
      have different : other ≠ shelfno := by
        rintro rfl
        rw [marks] at set
        exact set unset
      rw [Function.update_self, Function.update_of_ne different]
      exact before
    · rw [Function.update_of_ne same]
      exact before

end File

section Held

variable {entries : Int → Option ShelfEntry} {marks : Int → Nat}
  (held : ∀ shelfno, marks shelfno ≠ recordUnset → (entries shelfno).isSome = true)

include held

theorem inserted_held (shelf : ShelfEntry) (mark : Nat) (shelfno : Int)
    (set : Function.update marks shelf.code mark shelfno ≠ recordUnset) :
    (Function.update entries shelf.code (some shelf) shelfno).isSome = true := by
  by_cases here : shelfno = shelf.code
  · rw [here, Function.update_self]
    rfl
  · rw [Function.update_of_ne here] at set ⊢
    exact held shelfno set

theorem removed_held (removed shelfno : Int)
    (set : Function.update marks removed recordUnset shelfno ≠ recordUnset) :
    (Function.update entries removed none shelfno).isSome = true := by
  have other : shelfno ≠ removed := by
    rintro rfl
    exact set (Function.update_self _ _ _)
  rw [Function.update_of_ne other] at set ⊢
  exact held shelfno set

theorem sorted_held (shelfno : Int)
    (set : sortedMark shelfno (marks shelfno) ≠ recordUnset) : (entries shelfno).isSome = true := by
  apply held shelfno
  intro unset
  rw [unset] at set
  simp [sortedMark] at set

/-- An operation leaves no mark without an entry. -/
theorem effect_held (operation : CacheOperation) (shelfno : Int)
    (set : (operation.effect entries marks).2 shelfno ≠ recordUnset) :
    ((operation.effect entries marks).1 shelfno).isSome = true := by
  cases operation with
  | insert shelf => exact inserted_held held shelf recordSet shelfno set
  | synchronize shelf => exact inserted_held held shelf recordSync shelfno set
  | delete removed =>
      rw [CacheOperation.effect] at set ⊢
      split at set
      · rw [if_pos ‹_›]
        exact held shelfno set
      · rw [if_neg ‹_›]
        exact removed_held held removed shelfno set
  | sort => exact sorted_held held shelfno set

end Held

section Step

variable {cache : ShelfCache} (coherent : cache.Coherent) (consistent : cache.Consistent)

include coherent consistent

theorem Consistent.operate (named : cache.currentUser ≠ "") (operation : CacheOperation) :
    (cache.operate operation).Consistent := by
  rw [operate_eq coherent named]
  exact consistent.settled (effect_held (consistent _ _ (coherent.saved named)) operation)

/-- What a process leaves behind that ends in an initialisation. -/
theorem Consistent.ended_init_iff (user : String) (writes : Nat) :
    (cache.endedAfter writes (.init user)).Consistent ↔ (writes ≠ 0 → cache.StartsHeld user) := by
  cases stored : cache.shelfRecords user with
  | some record =>
      have kept := @clidbInit_stored
        { cache with dbmFaults := List.replicate writes false ++ [true, true] } _ _ stored
      rw [endedAfter, happen, kept]
      refine ⟨fun _ _ new => ?_, fun _ => consistent⟩
      rw [stored] at new
      cases new
  | none =>
      have whole := consistent.init_iff coherent.faultless user
      rw [clidbInit_new coherent.faultless stored] at whole
      rw [endedAfter, happen, clidbInit, shelfRecordObtain]
      dsimp only
      rw [stored]
      cases writes with
      | zero => exact ⟨fun _ nonzero => absurd rfl nonzero, fun _ => consistent⟩
      | succ writes => exact whole.trans ⟨fun held _ => held, fun held => held (Nat.succ_ne_zero _)⟩

/-- What a process leaves behind that ends in an insertion. -/
theorem Consistent.ended_insert (named : cache.currentUser ≠ "") (mark : Nat) (shelf : ShelfEntry)
    (writes : Nat) :
    ({ cache with dbmFaults := List.replicate writes false ++ [true, true] }.clidbShelfRealInsert
      mark shelf).2.Consistent := by
  have held := consistent _ _ (coherent.saved named)
  rcases writes with _ | _ | writes
  · exact consistent
  · exact consistent.storeShelf shelf
  · exact consistent.settled (inserted_held held shelf mark)

/-- What a process leaves behind that ends in a deletion. -/
theorem Consistent.ended_delete_iff (named : cache.currentUser ≠ "") (shelfno : Int)
    (writes : Nat) :
    ({ cache with dbmFaults := List.replicate writes false ++ [true, true] }.clidbShelfDelete
      shelfno).2.Consistent ↔ (writes = 1 → (cache.clidbShelfGet shelfno).isSome = true →
        cache.shelfRecord shelfno = recordUnset) := by
  have saved := coherent.saved named
  have held := consistent _ _ saved
  have same : ({ cache with dbmFaults := List.replicate writes false ++ [true, true] } :
    ShelfCache).clidbShelfGet shelfno = cache.clidbShelfGet shelfno := rfl
  rw [clidbShelfDelete, same]
  cases entry : cache.clidbShelfGet shelfno with
  | none => exact ⟨fun _ _ present => absurd present (by decide), fun _ => consistent⟩
  | some shelf =>
      rcases writes with _ | _ | writes
      · exact ⟨fun _ one => absurd one (by decide), fun _ => consistent⟩
      · exact (consistent.removed_iff saved shelfno).trans
          ⟨fun unset _ _ => unset, fun unset => unset rfl rfl⟩
      · have whole := consistent.settled (removed_held held shelfno)
        exact ⟨fun _ one => absurd one (by omega), fun _ => whole⟩

theorem Consistent.ended_iff (event : CacheEvent) (writes : Nat) :
    (cache.endedAfter writes event).Consistent ↔ cache.EndsSafely (.ended event writes) := by
  cases event with
  | init user => exact consistent.ended_init_iff coherent user writes
  | operate operation =>
      rw [endedAfter, happen]
      split
      case isTrue unnamed =>
        refine ⟨fun _ => ?_, fun _ => consistent⟩
        cases operation with
        | delete shelfno => exact fun _ named => absurd unnamed named
        | _ => trivial
      case isFalse named =>
        cases operation with
        | insert shelf =>
            exact ⟨fun _ => trivial,
              fun _ => consistent.ended_insert coherent named recordSet shelf writes⟩
        | synchronize shelf =>
            exact ⟨fun _ => trivial,
              fun _ => consistent.ended_insert coherent named recordSync shelf writes⟩
        | delete shelfno =>
            exact (consistent.ended_delete_iff coherent named shelfno writes).trans
              ⟨fun safe one _ => safe one, fun safe one => safe one named⟩
        | sort =>
            refine ⟨fun _ => trivial, fun _ => ?_⟩
            have held := consistent _ _ (coherent.saved named)
            cases writes with
            | zero => exact consistent
            | succ writes =>
                have whole := consistent.settled (sorted_held held)
                have data : Function.update cache.shelfData cache.currentUser
                    (cache.shelfData cache.currentUser) = cache.shelfData :=
                  Function.update_eq_self _ _
                rw [ShelfCache.settled, data] at whole
                exact whole

/-- A step keeps the file consistent exactly if it ends safely. -/
theorem Consistent.advance_iff (step : CacheStep) :
    (cache.advance step).Consistent ↔ cache.EndsSafely step := by
  cases step with
  | ended event writes => exact consistent.ended_iff coherent event writes
  | call event =>
      cases event with
      | init user => exact consistent.init_iff coherent.faultless user
      | operate operation =>
          refine ⟨fun _ => trivial, fun _ => ?_⟩
          rw [advance, happen]
          split
          · exact consistent
          case isFalse named => exact consistent.operate coherent named operation

end Step

theorem Coherent.advance {cache : ShelfCache} (coherent : cache.Coherent) (step : CacheStep) :
    (cache.advance step).Coherent := by
  cases step with
  | call event => exact coherent.happen event
  | ended event writes => exact ⟨rfl, fun named => absurd rfl named⟩

/-- From an empty file, the file is consistent in every state reached, and the next login
synchronises, exactly if every step ends safely. -/
theorem cache_durable_iff (steps : List CacheStep) :
    Execution.Always advance (fun cache => cache.Consistent ∧ cache.SyncsAtLogin) .empty steps ↔
      Execution.Along advance EndsSafely .empty steps := by
  have initial : empty.Consistent := by
    intro user record found
    cases found
  have coherent : empty.Coherent := ⟨rfl, fun named => absurd rfl named⟩
  have preserved : ∀ cache step, Coherent cache → (cache.advance step).Coherent :=
    fun _ step coherent => coherent.advance step
  apply Execution.always_iff_along_of_invariant preserved _ coherent
    ⟨initial, initial.syncsAtLogin⟩ steps
  intro cache step coherent durable
  rw [← durable.1.advance_iff coherent step]
  exact ⟨And.left, fun kept => ⟨kept, kept.syncsAtLogin⟩⟩

/-- A process ends between the two writes of a deletion: the shelf is in the record, it has no
entry, and no login after that synchronises. -/
theorem deletion_ended :
    let cache := Execution.run advance .empty [.call (.init "reader_1"),
      .call (.operate (.insert firstShelf)), .ended (.operate (.delete 1)) 1]
    ¬cache.Consistent ∧ ¬cache.SyncsAtLogin := by
  intro cache
  constructor
  · intro consistent
    have entry := consistent "reader_1" _ rfl 1 (by decide)
    exact absurd entry (by decide)
  · intro syncs
    let client := Client.connected Server.sample .empty ((cache.restart []).clidbInit "reader_1")
      "reader_1"
    have calm : client.Calm :=
      ⟨rfl, rfl, rfl, rfl, rfl, rfl, (Client.run_fresh_wellNumbered .strict _ _ _ _ []).1⟩
    have synced := syncs client (maxShelfNum + 1) .zeroed 0 calm (by decide) (by decide)
      (by decide) rfl
    exact absurd synced (by decide)

end ShelfCache

end Bookshelfdq
