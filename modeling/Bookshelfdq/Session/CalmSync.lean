import Bookshelfdq.Client.CacheIsolation
import Bookshelfdq.Session.Mirror
import Bookshelfdq.Session.Paging

/-! # Synchronising over a healthy connection

With a server that answers and does not change, `client_shelves_info_sync` can fail on what it
finds in the cache only: a shelf that is marked but has no entry cannot be deleted. -/

namespace Bookshelfdq

/-! ## The server -/

/-- The shelves in use are listed as often as they are counted. -/
theorem length_selectShelves_count {archive : Archive} (numbered : archive.WellNumbered) :
    (selectShelves breakLimitInt archive.shelves).length =
      (selectShelves nonSenseInt archive.shelves).length := by
  rcases numbered.2 with ⟨count, few, shelves⟩
  have length := shelves.length
  have fewer : (archive.shelves.filter fun row : ShelfRow =>
      decide (row.shelfno > 0) && row.cleaned == .avl).length ≤ archive.shelves.length :=
    List.length_filter_le _ _
  have limit : maxShelfNum < defaultFinds := by decide
  have code : nonSenseInt ≠ breakLimitInt := by decide
  rw [selectShelves, if_pos rfl, selectShelves, if_neg code, if_neg (lt_irrefl _), List.length_map,
    List.length_map, List.take_of_length_le, List.take_of_length_le]
  · rw [Table.length_orderBy]
    exact fewer.trans (by omega)
  · rw [Table.length_orderBy]
    exact fewer.trans (by omega)

/-- Every shelf of the record has an entry. -/
def ShelfCache.Held (cache : ShelfCache) : Prop :=
  ∀ shelfno, cache.shelfRecord shelfno ≠ recordUnset → (cache.clidbShelfGet shelfno).isSome = true

namespace Client

theorem Continued.of_link {before after other : Client} (continued : before.Continued after)
    (link : other.link = after.link) (loginUser : other.loginUser = after.loginUser) :
    before.Continued other := by
  have calm := continued.calm
  refine ⟨⟨?_, ?_, ?_, ?_, ?_, ?_, ?_⟩, ?_, ?_, loginUser.trans continued.loginUser⟩ <;> rw [link]
  · exact calm.inbox
  · exact calm.others
  · exact calm.sendFails
  · exact calm.delays
  · exact calm.sendFaults
  · exact calm.faults
  · exact calm.numbered
  · exact continued.archive
  · exact continued.collation

theorem Continued.trans {first second third : Client} (left : first.Continued second)
    (right : second.Continued third) : first.Continued third :=
  ⟨right.calm, right.archive.trans left.archive, right.collation.trans left.collation,
    right.loginUser.trans left.loginUser⟩

theorem receive_of_calm {client : Client} (delays : client.link.delays = []) {number : Nat}
    {reply : MessageCs} {rest : List (Nat × MessageCs)}
    (inbox : client.link.inbox = (number, reply) :: rest) :
    client.receive = (some reply, { client with
      link := { client.link with
        inbox := rest
        consumed := client.link.consumed ++ [number] } }) := by
  rcases client with ⟨⟨server, others, sendFails, waits, waiting, sent, exchanges, consumed⟩,
    books, shelves, loginUser⟩
  dsimp only at delays inbox
  subst delays inbox
  rfl

section Calm

variable {client : Client} (calm : client.Calm) (named : client.loginUser ≠ "") (stale : MessageCs)

include calm named

theorem Calm.findsShelves {msg : MessageCs} (user : msg.user = client.loginUser) :
    FindsShelves msg client.link.server.db := by
  refine ⟨by rw [user]; exact named, ?_⟩
  rw [calm.faults]
  rfl

/-! ## The count -/

theorem Calm.replies_count (room : stale.extraInfo.length = extraInfoSize) :
    ∃ reply, client.link.server.replies (clientShelvesCountSyncMsg client.loginUser stale) =
        [reply] ∧ reply.response = .success ∧ reply.extraInfo.getD 0 0 =
          (selectShelves nonSenseInt client.link.server.db.archive.shelves).length := by
  let request := (clientShelvesCountSyncMsg client.loginUser stale).opened.setShelfno breakLimitInt
  have finds : FindsShelves request client.link.server.db := calm.findsShelves named rfl
  have found := srvdbShelfFind_of_finds finds
  have code : request.stuff.shelf.code = breakLimitInt := rfl
  rw [code, length_selectShelves_count calm.numbered] at found
  have counted : (srvdbShelfCount (clientShelvesCountSyncMsg client.loginUser stale).opened
        client.link.server.db).1 = true ∧
      (srvdbShelfCount (clientShelvesCountSyncMsg client.loginUser stale).opened
        client.link.server.db).2.1 = request.setExtra
          (selectShelves nonSenseInt client.link.server.db.archive.shelves).length := by
    rw [srvdbShelfCount]
    simp only [request] at found
    simp only [found]
    exact ⟨trivial, rfl⟩
  have handled : client.link.server.replies (clientShelvesCountSyncMsg client.loginUser stale) =
      (client.link.server.answer (srvdbShelfCount
        (clientShelvesCountSyncMsg client.loginUser stale).opened client.link.server.db)).2.1 := rfl
  rw [handled, Server.answer_of_reliable calm.sendFaults, counted.1, counted.2]
  refine ⟨_, rfl, rfl, ?_⟩
  have first : request.extraInfo = stale.extraInfo := rfl
  have some : 0 < request.extraInfo.length := by
    rw [first, room]
    decide
  rw [MessageCs.respond_extraInfo, MessageCs.setExtra, List.getD_eq_getElem?_getD,
    List.getElem?_set_self some, Option.getD_some]

theorem clientShelvesCountSync_calm (room : stale.extraInfo.length = extraInfoSize)
    (shelvesAll : Int) :
    ∃ after, client.clientShelvesCountSync stale shelvesAll =
        (true, ((selectShelves nonSenseInt client.link.server.db.archive.shelves).length : Int),
          after) ∧
      client.Continued after ∧ after.shelves = client.shelves := by
  rcases calm.replies_count named stale room with ⟨reply, replies, success, count⟩
  have inbox := calm.inbox_posted (clientShelvesCountSyncMsg client.loginUser stale)
  rw [replies, List.map_singleton] at inbox
  have delays : (client.posted (clientShelvesCountSyncMsg client.loginUser stale)).link.delays =
    [] := calm.delays
  have received := receive_of_calm delays inbox
  have readsOnly : (clientShelvesCountSyncMsg client.loginUser stale).archiveRequest = none := rfl
  have continued := calm.posted readsOnly client.books
    (client.link.consumed ++ [client.link.sent])
  refine ⟨_, ?_, continued, rfl⟩
  rw [clientShelvesCountSync, send_of_sendFails calm.sendFails]
  simp only [received, success, count]
  rfl

/-! ## The listing -/

omit calm named in
theorem clidbShelfSynchronize_of_faultless {cache : ShelfCache} (faultless : cache.dbmFaults = [])
    (shelf : ShelfEntry) :
    ∃ next, cache.clidbShelfSynchronize shelf = (true, next) ∧ next.dbmFaults = [] :=
  ⟨_, ShelfCache.clidbShelfRealInsert_of_faultless faultless recordSync shelf, faultless⟩

omit calm named in
theorem clidbShelfDelete_of_faultless {cache : ShelfCache} (faultless : cache.dbmFaults = [])
    {shelfno : Int} (stored : (cache.clidbShelfGet shelfno).isSome = true) :
    ∃ next, cache.clidbShelfDelete shelfno = (true, next) ∧ next.dbmFaults = [] := by
  have present : ¬(cache.clidbShelfGet shelfno).isNone = true := by
    simpa [Option.isSome_iff_ne_none] using stored
  exact ⟨_, ShelfCache.clidbShelfDelete_of_faultless faultless present, faultless⟩

omit calm named in
theorem synchronizeAll_of_faultless (shelves : List ShelfEntry) {cache : ShelfCache}
    (faultless : cache.dbmFaults = []) :
    (cache.synchronizeAll shelves).1 = true ∧ (cache.synchronizeAll shelves).2.dbmFaults = [] := by
  induction shelves generalizing cache with
  | nil => exact ⟨rfl, faultless⟩
  | cons shelf shelves induction =>
      rcases clidbShelfSynchronize_of_faultless faultless shelf with ⟨next, stored, healthy⟩
      rw [ShelfCache.synchronizeAll, stored]
      exact induction healthy

omit calm named in
theorem listingLoop_calm (number : Nat) {rows : List ShelfRow} {fuel : Nat}
    (enough : rows.length < fuel) (shelfCnt : Nat) {msg : MessageCs} {client : Client}
    (delays : client.link.delays = []) (faultless : client.shelves.dbmFaults = [])
    (inbox : client.link.inbox = (rowReplies fillShelf .findEnd (rows.map .shelf) msg).map
      fun reply => (number, reply)) :
    ∃ consumed, client.listingLoop stale fuel shelfCnt =
      (some (shelfCnt + rows.length), { client with
        link := { client.link with inbox := [], consumed := consumed }
        shelves := (client.shelves.synchronizeAll (rows.map ShelfRow.entry)).2 }) := by
  induction rows generalizing fuel shelfCnt msg client with
  | nil =>
      cases fuel with
      | zero => cases enough
      | succ fuel =>
          have received := receive_of_calm delays inbox
          refine ⟨client.link.consumed ++ [number], ?_⟩
          rw [listingLoop, received]
          rfl
  | cons row rows induction =>
      cases fuel with
      | zero => cases enough
      | succ fuel =>
          have received := receive_of_calm delays inbox
          rcases clidbShelfSynchronize_of_faultless faultless row.entry with
            ⟨cache, stored, healthy⟩
          rcases @induction fuel (Nat.lt_of_succ_lt_succ enough) (shelfCnt + 1)
            ((msg.setShelf row.entry).respond .success)
            { client with
              link := { client.link with
                inbox := _
                consumed := client.link.consumed ++ [number] }
              shelves := cache } delays healthy rfl with ⟨consumed, result⟩
          refine ⟨consumed, ?_⟩
          have count : shelfCnt + (row :: rows).length = shelfCnt + 1 + rows.length := by
            rw [List.length_cons]
            omega
          have synced : (client.shelves.synchronizeAll ((row :: rows).map ShelfRow.entry)) =
              ShelfCache.synchronizeAll (rows.map ShelfRow.entry) cache := by
            rw [List.map_cons, ShelfCache.synchronizeAll, stored]
          have read : ∀ next : Client, next.shelves = client.shelves →
              next.synchronize row.entry =
                (true, { next with shelves := cache }) := by
            intro next same
            rw [synchronize, same, stored]
          rw [listingLoop, received, count, synced]
          dsimp only [fillShelf, MessageCs.respond, MessageCs.setShelf]
          rw [read]
          · exact result
          · rfl

theorem Calm.replies_listing (code : Int) (listing : code ≠ breakLimitInt) :
    client.link.server.replies (clientShelvesInfoSyncMsg client.loginUser stale code) =
      rowReplies fillShelf .findEnd (selectShelves code client.link.server.db.archive.shelves)
        ((clientShelvesInfoSyncMsg client.loginUser stale code).opened.setExtra
          (selectShelves code client.link.server.db.archive.shelves).length) := by
  have finds : FindsShelves (clientShelvesInfoSyncMsg client.loginUser stale code)
    client.link.server.db := calm.findsShelves named rfl
  have same : (clientShelvesInfoSyncMsg client.loginUser stale code).stuff.shelf.code = code := rfl
  have replies := Server.replies_findShelf_copied calm.sendFaults rfl finds
    fun counting => absurd (same.symm.trans counting) listing
  rw [calm.faults, List.tail_nil, List.tail_nil, beforeFault_nil, same,
    closingResponse_selectShelves calm.numbered] at replies
  exact replies

/-! ## The second pass -/

/-- A shelf that is not in use and has an entry is asked for. -/
theorem pointedQuery_calm (faultless : client.shelves.dbmFaults = []) {shelfno : Int}
    (positive : 0 < shelfno)
    (gone : ¬ Available client.link.server.db.archive.shelves shelfno)
    (stored : (client.shelves.clidbShelfGet shelfno).isSome = true) (shelfCnt : Nat) :
    ∃ after, client.pointedQuery stale shelfno shelfCnt = (some shelfCnt, after) ∧
      client.Continued after ∧ after.shelves.dbmFaults = [] ∧
      client.shelves.Replaced shelfno recordUnset none after.shelves := by
  have code : -shelfno ≠ breakLimitInt := by
    have limit : (0 : Int) < breakLimitInt := by decide
    omega
  have replies := calm.replies_listing named stale _ code
  rw [selectShelves_unavailable positive gone, rowReplies] at replies
  have readsOnly : (clientShelvesInfoSyncMsg client.loginUser stale (-shelfno)).archiveRequest =
    none := rfl
  rw [pointedQuery, send_of_sendFails calm.sendFails]
  generalize clientShelvesInfoSyncMsg client.loginUser stale (-shelfno) = msg at replies readsOnly ⊢
  have inbox := calm.inbox_posted msg
  rw [replies, List.map_singleton] at inbox
  have received := @receive_of_calm (client.posted msg) calm.delays _ _ _ inbox
  have continued := calm.posted readsOnly client.books
    (client.link.consumed ++ [client.link.sent])
  rcases clidbShelfDelete_of_faultless faultless stored with ⟨cache, deleted, healthy⟩
  refine ⟨{ client.posted msg with
    link := { (client.posted msg).link with
      inbox := []
      consumed := client.link.consumed ++ [client.link.sent] }
    shelves := cache }, ?_, continued.of_link rfl rfl, healthy,
    ShelfCache.clidbShelfDelete_done deleted⟩
  have read : ∀ next : Client, next.shelves = client.shelves →
      next.deleteShelf shelfno = (true, { next with shelves := cache }) := by
    intro next same
    rw [deleteShelf, same, deleted]
  dsimp only
  rw [received]
  dsimp only [MessageCs.respond]
  rw [read]
  · rfl
  · rfl

theorem pointedLoop_calm {shelfnos : List Int} (distinct : shelfnos.Nodup)
    (range : ∀ shelfno ∈ shelfnos, 0 < shelfno ∧ shelfno ≤ maxShelfNum)
    (faultless : client.shelves.dbmFaults = [])
    (unsynced : ∀ shelfno ∈ shelfnos, client.shelves.shelfRecord shelfno = recordSet →
      ¬ Available client.link.server.db.archive.shelves shelfno ∧
        (client.shelves.clidbShelfGet shelfno).isSome = true) (shelfCnt : Nat) :
    ∃ after, client.pointedLoop stale shelfnos shelfCnt = (some shelfCnt, after) ∧
      after.shelves.dbmFaults = [] := by
  induction shelfnos generalizing client with
  | nil => exact ⟨client, rfl, faultless⟩
  | cons shelfno shelfnos induction =>
      rw [List.nodup_cons] at distinct
      rcases range shelfno List.mem_cons_self with ⟨positive, bounded⟩
      have later : ∀ other ∈ shelfnos, 0 < other ∧ other ≤ maxShelfNum := fun other member =>
        range other (List.mem_cons_of_mem _ member)
      rw [pointedLoop]
      split
      case isTrue marked =>
        rw [clidbShelfNotSyncs_iff bounded] at marked
        rcases unsynced shelfno List.mem_cons_self marked with ⟨gone, stored⟩
        rcases pointedQuery_calm calm named stale faultless positive gone stored shelfCnt with
          ⟨after, queried, continued, healthy, replaced⟩
        rw [queried]
        apply induction continued.calm (continued.loginUser.symm ▸ named) distinct.2 later healthy
        intro other member record
        have different : other ≠ shelfno := fun equal => distinct.1 (equal ▸ member)
        rw [replaced.record, Function.update_of_ne different] at record
        rw [replaced.get, Function.update_of_ne different, continued.archive]
        exact unsynced other (List.mem_cons_of_mem _ member) record
      case isFalse settled =>
        exact induction calm named distinct.2 later faultless fun other member =>
          unsynced other (List.mem_cons_of_mem _ member)

/-! ## The whole call -/

/-- The first pass leaves shelves unsynchronised that are not in use, with their entries. -/
theorem listing_calm (faultless : client.shelves.dbmFaults = []) (held : client.shelves.Held)
    {fuel : Nat} (enough : maxShelfNum < fuel) :
    ∃ after, (client.posted (clientShelvesInfoSyncMsg client.loginUser stale nonSenseInt)).listingLoop
        stale fuel 0 =
          (some (selectShelves nonSenseInt client.link.server.db.archive.shelves).length, after) ∧
      client.Continued after ∧ after.shelves.dbmFaults = [] ∧
      ∀ shelfno, after.shelves.shelfRecord shelfno = recordSet →
        ¬ Available client.link.server.db.archive.shelves shelfno ∧
          (after.shelves.clidbShelfGet shelfno).isSome = true := by
  rcases selectShelves_available calm.numbered with ⟨rows, select, available, distinct⟩
  have few := length_selectShelves_le calm.numbered nonSenseInt
  have replies := calm.replies_listing named stale nonSenseInt (by decide)
  rw [select, List.length_map] at few replies
  have inbox := calm.inbox_posted (clientShelvesInfoSyncMsg client.loginUser stale nonSenseInt)
  rw [replies] at inbox
  have readsOnly : (clientShelvesInfoSyncMsg client.loginUser stale nonSenseInt).archiveRequest =
    none := rfl
  have delays : (client.posted (clientShelvesInfoSyncMsg client.loginUser stale
    nonSenseInt)).link.delays = [] := calm.delays
  rcases listingLoop_calm stale client.link.sent (Nat.lt_of_le_of_lt few enough) 0 delays faultless
    inbox with ⟨consumed, listed⟩
  have continued := calm.posted readsOnly client.books consumed
  rcases synchronizeAll_of_faultless (rows.map ShelfRow.entry) faultless with ⟨synced, healthy⟩
  have codes : ((rows.map ShelfRow.entry).map ShelfEntry.code).Nodup := by
    rw [List.map_map]
    exact distinct
  rcases ShelfCache.synchronizeAll_done codes synced with ⟨inUse, others⟩
  rw [Nat.zero_add] at listed
  rw [select, List.length_map]
  refine ⟨_, listed, continued.of_link rfl rfl, healthy, ?_⟩
  intro shelfno marked
  have unlisted : ∀ shelf ∈ rows.map ShelfRow.entry, shelf.code ≠ shelfno := by
    rintro shelf member rfl
    have mark := (inUse shelf member).1.symm.trans marked
    cases mark
  rcases others shelfno unlisted with ⟨mark, entry⟩
  refine ⟨?_, ?_⟩
  · rintro ⟨row, member, rfl, cleaned⟩
    exact unlisted row.entry (List.mem_map_of_mem ((available row).mpr ⟨member, cleaned⟩)) rfl
  · have set : client.shelves.shelfRecord shelfno ≠ recordUnset := by
      rw [mark.symm.trans marked]
      decide
    exact (congrArg Option.isSome entry).trans (held shelfno set)

/-- A cache that holds its shelves is synchronised. -/
theorem clientShelvesInfoSync_calm (room : stale.extraInfo.length = extraInfoSize)
    (faultless : client.shelves.dbmFaults = []) (held : client.shelves.Held) {fuel : Nat}
    (enough : maxShelfNum < fuel) (shelvesAll : Int) :
    (client.clientShelvesInfoSync fuel stale shelvesAll).1 = true := by
  rcases clientShelvesCountSync_calm calm named stale room shelvesAll with
    ⟨counted, counting, continued, cached⟩
  have countedNamed : counted.loginUser ≠ "" := continued.loginUser.symm ▸ named
  rw [← cached] at faultless held
  rcases listing_calm continued.calm countedNamed stale faultless held enough with
    ⟨read, listing, onward, healthy, unsynced⟩
  rw [← onward.archive] at unsynced
  have distinct : shelfNumbers.Nodup := by decide
  rcases pointedLoop_calm onward.calm (onward.loginUser.symm ▸ countedNamed) stale distinct
    (fun shelfno member => mem_shelfNumbers.mp member) healthy (fun shelfno _ => unsynced shelfno)
    (selectShelves nonSenseInt counted.link.server.db.archive.shelves).length with
    ⟨last, second, final⟩
  rw [clientShelvesInfoSync, counting]
  dsimp only
  rw [send_of_sendFails continued.calm.sendFails]
  dsimp only
  rw [listing]
  dsimp only
  rw [second]
  have sorted := @ShelfCache.shelfRecordSave_of_faultless { last.shelves with
    shelfRecord := fun shelfno => ShelfCache.sortedMark shelfno (last.shelves.shelfRecord shelfno) }
    final
  have saved : last.shelves.clidbShelfRecordSort.1 = true := congrArg Prod.fst sorted
  dsimp only
  rw [saved, continued.archive, decide_eq_true rfl]
  rfl

end Calm

end Client

end Bookshelfdq
