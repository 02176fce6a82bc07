import Bookshelfdq.Client.ShelfRecords
import Bookshelfdq.Server.ShelfIntegrity
import Bookshelfdq.Session.Calls

/-! # The shelf cache as a mirror of the server

What `client_shelves_info_sync` has done when it returns 1. Sends and receives may
fail, replies be lost or late, and the database fail on any call: the function then
returns 0, but for one case. -/

namespace Bookshelfdq

/-! ## Shelves on the server -/

/-- Shelf `shelfno` is in use. -/
def Available (table : List ShelfRow) (shelfno : Int) : Prop :=
  ∃ row ∈ table, row.shelfno = shelfno ∧ row.cleaned = .avl

/-- A listing returns all shelves in use, each once. -/
theorem selectShelves_available {archive : Archive} (numbered : archive.WellNumbered) :
    ∃ rows : List ShelfRow, selectShelves nonSenseInt archive.shelves = rows.map .shelf ∧
      (∀ row, row ∈ rows ↔ row ∈ archive.shelves ∧ row.cleaned = .avl) ∧
      (rows.map ShelfRow.shelfno).Nodup := by
  rcases numbered.2 with ⟨count, few, shelves⟩
  refine ⟨archive.shelves.filter fun row => decide (row.shelfno > nonSenseInt) &&
    row.cleaned == .avl, ?_, ?_, ?_⟩
  · have ordered := shelves.pairwise_lt.filter fun row =>
      decide (row.shelfno > nonSenseInt) && row.cleaned == .avl
    have short := List.length_filter_le (fun row : ShelfRow =>
      decide (row.shelfno > nonSenseInt) && row.cleaned == .avl) archive.shelves
    have length := shelves.length
    have limit : maxShelfNum < defaultFinds := by decide
    have code : nonSenseInt ≠ breakLimitInt := by decide
    rw [selectShelves, if_neg code, if_neg (lt_irrefl _), Table.orderBy_of_pairwise ordered,
      List.take_of_length_le (by omega)]
  · intro row
    rw [List.mem_filter, Bool.and_eq_true, decide_eq_true_iff, beq_iff_eq]
    constructor
    · intro selected
      exact ⟨selected.1, selected.2.2⟩
    · intro selected
      have positive := ((shelves.mem_iff row.shelfno).mp ⟨row, selected.1, rfl⟩).1
      exact ⟨selected.1, Int.lt_of_lt_of_le Int.zero_lt_one positive, selected.2⟩
  · have distinct := (shelves.pairwise_lt.filter fun row =>
      decide (row.shelfno > nonSenseInt) && row.cleaned == .avl).imp fun less => less.ne
    rw [List.Nodup, List.pairwise_map]
    exact distinct

theorem selectShelves_unavailable {table : List ShelfRow} {shelfno : Int} (positive : 0 < shelfno)
    (gone : ¬ Available table shelfno) : selectShelves (-shelfno) table = [] := by
  have none : table.filter (fun row => row.shelfno == - -shelfno && row.cleaned == .avl) = [] := by
    rw [List.filter_eq_nil_iff]
    intro row member selected
    rw [Bool.and_eq_true, beq_iff_eq, beq_iff_eq, Int.neg_neg] at selected
    exact gone ⟨row, member, selected.1, selected.2⟩
  have code : -shelfno ≠ breakLimitInt := by
    have limit : (0 : Int) < breakLimitInt := by decide
    omega
  rw [selectShelves, if_neg code, if_pos (by omega), none]
  rfl

/-! ## Calls that return 1 -/

namespace Client

/-- A send that succeeds. -/
theorem send_done {client after : Client} {msg : MessageCs}
    (sent : client.send msg = (true, after)) :
    after = { client.posted msg with
      link := { client.link.posted msg with sendFails := client.link.sendFails.tail } } := by
  rw [send] at sent
  rcases client.link.socketClientSendRequest_cases msg with ⟨_, result⟩ | ⟨_, result⟩
  · rw [result] at sent
    cases sent
  · rw [result] at sent
    exact (Prod.mk.inj sent).2.symm

/-- A receive that returns a reply. -/
theorem receive_done {client after : Client} {reply : MessageCs}
    (received : client.receive = (some reply, after)) :
    ∃ number rest, client.link.inbox = (number, reply) :: rest ∧
      after = { client with link := { client.link with
        delays := client.link.delays.tail
        inbox := rest
        consumed := client.link.consumed ++ [number] } } := by
  rw [receive] at received
  rcases client.link.socketClientGetResponse_cases with
    ⟨_, result⟩ | ⟨number, first, rest, _, inbox, result⟩
  · rw [result] at received
    cases received
  · rw [result] at received
    rcases Prod.mk.inj received with ⟨same, next⟩
    rw [Option.some.inj same] at inbox
    exact ⟨number, rest, inbox, next.symm⟩

/-- What a receive reads of replies that begin as expected. -/
theorem receive_expected {client after : Client} {number : Nat}
    {replies expected : List MessageCs} {first reply : MessageCs}
    (begins : replies <+: first :: expected)
    (inbox : client.link.inbox = replies.map fun reply => (number, reply))
    (received : client.receive = (some reply, after)) :
    reply = first ∧ ∃ rest, rest <+: expected ∧
      after.link.inbox = rest.map (fun reply => (number, reply)) ∧
      after.link.exchanges = client.link.exchanges ∧ after.shelves = client.shelves := by
  rcases receive_done received with ⟨answered, waiting, nonempty, rfl⟩
  rw [inbox] at nonempty
  cases replies with
  | nil => cases nonempty
  | cons head rest =>
      rcases List.cons_prefix_cons.mp begins with ⟨rfl, continues⟩
      rcases List.cons.inj nonempty with ⟨same, tail⟩
      exact ⟨(Prod.mk.inj same).2.symm, rest, continues, tail.symm, rfl, rfl⟩

theorem listingLoop_done (stale : MessageCs) (number : Nat) {rows : List ShelfRow}
    {msg : MessageCs} {replies : List MessageCs}
    (begins : replies <+: rowReplies fillShelf .findEnd (rows.map .shelf) msg)
    {fuel shelfCnt listed : Nat} {client after : Client}
    (inbox : client.link.inbox = replies.map fun reply => (number, reply))
    (done : client.listingLoop stale fuel shelfCnt = (some listed, after)) :
    after.link.inbox = [] ∧ after.link.exchanges = client.link.exchanges ∧
      (client.shelves.synchronizeAll (rows.map ShelfRow.entry)).1 = true ∧
      after.shelves = (client.shelves.synchronizeAll (rows.map ShelfRow.entry)).2 := by
  induction rows generalizing msg replies fuel shelfCnt client with
  | nil =>
      cases fuel with
      | zero => cases done
      | succ fuel =>
          rw [listingLoop] at done
          rcases received : client.receive with ⟨_ | reply, read⟩
          · rw [received] at done
            cases done
          · rw [received] at done
            rcases receive_expected begins inbox received with
              ⟨rfl, rest, begins, inbox, exchanges, shelves⟩
            rw [List.prefix_nil.mp begins] at inbox
            have same : read = after := (Prod.mk.inj done).2
            subst same
            exact ⟨inbox, exchanges, rfl, shelves⟩
  | cons row rows induction =>
      cases fuel with
      | zero => cases done
      | succ fuel =>
          rw [listingLoop] at done
          rcases received : client.receive with ⟨_ | reply, read⟩
          · rw [received] at done
            cases done
          · rw [received] at done
            rcases receive_expected begins inbox received with
              ⟨rfl, rest, begins, inbox, exchanges, shelves⟩
            dsimp only [fillShelf, MessageCs.respond, MessageCs.setShelf, synchronize] at done
            rw [shelves] at done
            rw [List.map_cons, ShelfCache.synchronizeAll]
            generalize client.shelves.clidbShelfSynchronize row.entry = synced at done ⊢
            rcases synced with ⟨_ | _, cache⟩
            · cases done
            · have continued : Client.listingLoop stale fuel (shelfCnt + 1)
                  { read with shelves := cache } = (some listed, after) := done
              rw [← exchanges]
              apply induction begins _ continued
              exact inbox

theorem listingLoop_refused_ne {stale : MessageCs} {number : Nat} {replies : List MessageCs}
    {refusal : MessageCs} (refused : refusal.response = .failed) (begins : replies <+: [refusal])
    {fuel shelfCnt listed : Nat} {client after : Client}
    (inbox : client.link.inbox = replies.map fun reply => (number, reply)) :
    client.listingLoop stale fuel shelfCnt ≠ (some listed, after) := by
  intro done
  cases fuel with
  | zero => cases done
  | succ fuel =>
      rw [listingLoop] at done
      rcases received : client.receive with ⟨_ | reply, read⟩
      · rw [received] at done
        cases done
      · rw [received] at done
        rcases receive_expected begins inbox received with ⟨rfl, rest, begins, inbox, _, _⟩
        rw [List.prefix_nil.mp begins] at inbox
        simp only [refused] at done
        cases fuel with
        | zero => cases done
        | succ fuel =>
            rw [listingLoop] at done
            rcases again : read.receive with ⟨_ | reply, next⟩
            · rw [again] at done
              cases done
            · rcases receive_done again with ⟨_, _, nonempty, _⟩
              rw [inbox] at nonempty
              cases nonempty

/-! ## The second pass -/

theorem receive_exchanges (client : Client) :
    client.receive.2.link.exchanges = client.link.exchanges := by
  rw [receive]
  rcases client.link.socketClientGetResponse_cases with
    ⟨_, received⟩ | ⟨number, reply, rest, _, _, received⟩ <;> rw [received]

theorem pointedQuery_exchanges {stale : MessageCs} {shelfno : Int} {shelfCnt counted : Nat}
    {client after : Client}
    (done : client.pointedQuery stale shelfno shelfCnt = (some counted, after)) :
    after.link.exchanges = client.link.exchanges ++ [(client.link.reached,
      clientShelvesInfoSyncMsg client.loginUser stale (-shelfno))] := by
  rcases sent : client.send (clientShelvesInfoSyncMsg client.loginUser stale (-shelfno)) with
    ⟨_ | _, asked⟩
  · rw [pointedQuery, sent] at done
    cases done
  · have link := pointedQuery_link sent shelfCnt
    rw [done] at link
    rw [link, receive_exchanges, send_done sent, Link.posted]

/-- A shelf that is not in use is asked for: it is deleted from the cache, or stays if
the server reports a failure. -/
theorem pointedQuery_done {stale : MessageCs} {shelfno : Int} (positive : 0 < shelfno)
    {shelfCnt counted : Nat} {client after : Client} (inbox : client.link.inbox = [])
    (numbered : client.link.server.db.archive.WellNumbered)
    (gone : ¬ Available client.link.reached.db.archive.shelves shelfno)
    (done : client.pointedQuery stale shelfno shelfCnt = (some counted, after)) :
    after.link.inbox = [] ∧
      (FindsShelves (clientShelvesInfoSyncMsg client.loginUser stale (-shelfno))
          client.link.reached.db →
        client.shelves.Replaced shelfno recordUnset none after.shelves) ∧
      (¬ FindsShelves (clientShelvesInfoSyncMsg client.loginUser stale (-shelfno))
          client.link.reached.db → after.shelves = client.shelves) := by
  rw [pointedQuery] at done
  rcases sent : client.send (clientShelvesInfoSyncMsg client.loginUser stale (-shelfno)) with
    ⟨_ | _, asked⟩
  · rw [sent] at done
    cases done
  · rw [sent] at done
    dsimp only at done
    have asks := send_done sent
    have waiting : asked.link.inbox = (client.link.reached.replies (clientShelvesInfoSyncMsg
        client.loginUser stale (-shelfno))).map fun reply => (client.link.sent, reply) := by
      rw [asks]
      simp [Link.posted, inbox]
    have shelves : asked.shelves = client.shelves := by rw [asks, posted]
    rcases received : asked.receive with ⟨_ | reply, read⟩
    · rw [received] at done
      cases done
    · rw [received] at done
      dsimp only at done
      by_cases finds : FindsShelves (clientShelvesInfoSyncMsg client.loginUser stale (-shelfno))
        client.link.reached.db
      · have code : -shelfno ≠ breakLimitInt := by
          have limit : (0 : Int) < breakLimitInt := by decide
          omega
        have begins := Server.replies_listing_begins (Link.reached_numbered numbered) rfl code finds
        have none : selectShelves (clientShelvesInfoSyncMsg client.loginUser stale
            (-shelfno)).stuff.shelf.code client.link.reached.db.archive.shelves = [] :=
          selectShelves_unavailable positive gone
        rw [none, rowReplies] at begins
        rcases receive_expected begins waiting received with
          ⟨rfl, rest, ends, inbox, _, cached⟩
        rw [List.prefix_nil.mp ends] at inbox
        simp only [MessageCs.respond, deleteShelf, cached, shelves] at done
        rcases deleted : client.shelves.clidbShelfDelete shelfno with ⟨_ | _, cache⟩
        · rw [deleted] at done
          cases done
        · rw [deleted] at done
          have final := (Prod.mk.inj done).2
          subst final
          refine ⟨inbox, fun _ => ?_, fun refused => absurd finds refused⟩
          exact ShelfCache.clidbShelfDelete_done deleted
      · have begins := Server.replies_refused_begins rfl finds
        rcases receive_expected begins waiting received with
          ⟨rfl, rest, ends, inbox, _, cached⟩
        rw [List.prefix_nil.mp ends] at inbox
        simp only [MessageCs.respond] at done
        have final := (Prod.mk.inj done).2
        subst final
        exact ⟨inbox, fun found => absurd found finds, fun _ => cached.trans shelves⟩

/-- What the second pass leaves behind when no shelf it asks for is in use. -/
structure SecondPass (shelfnos : List Int) (exchanges : List (Server × MessageCs))
    (before after : ShelfCache) : Prop where
  kind : ∀ exchange ∈ exchanges, exchange.2.request = .findShelf
  kept : ∀ shelfno, (shelfno ∈ shelfnos → before.shelfRecord shelfno ≠ recordSet) →
    after.shelfRecord shelfno = before.shelfRecord shelfno ∧
      after.clidbShelfGet shelfno = before.clidbShelfGet shelfno
  found : (∀ exchange ∈ exchanges, FindsShelves exchange.2 exchange.1.db) ↔
    ∀ shelfno ∈ shelfnos, before.shelfRecord shelfno = recordSet →
      after.shelfRecord shelfno = recordUnset

theorem SecondPass.cons_kept {shelfno : Int} {shelfnos : List Int}
    {exchanges : List (Server × MessageCs)} {before after : ShelfCache}
    (pass : SecondPass shelfnos exchanges before after)
    (settled : before.shelfRecord shelfno ≠ recordSet) :
    SecondPass (shelfno :: shelfnos) exchanges before after where
  kind := pass.kind
  kept := by
    intro other unasked
    exact pass.kept other fun member => unasked (List.mem_cons_of_mem _ member)
  found := by
    rw [pass.found, List.forall_mem_cons]
    exact ⟨fun rest => ⟨fun record => absurd record settled, rest⟩, fun both => both.2⟩

theorem SecondPass.cons_asked {shelfno : Int} {shelfnos : List Int} (fresh : shelfno ∉ shelfnos)
    {exchange : Server × MessageCs} {exchanges : List (Server × MessageCs)}
    {before between after : ShelfCache} (kind : exchange.2.request = .findShelf)
    (unsynced : before.shelfRecord shelfno = recordSet)
    (deleted : FindsShelves exchange.2 exchange.1.db →
      before.Replaced shelfno recordUnset none between)
    (refused : ¬ FindsShelves exchange.2 exchange.1.db → between = before)
    (pass : SecondPass shelfnos exchanges between after) :
    SecondPass (shelfno :: shelfnos) (exchange :: exchanges) before after := by
  have others : ∀ other, other ≠ shelfno →
      between.shelfRecord other = before.shelfRecord other ∧
        between.clidbShelfGet other = before.clidbShelfGet other := by
    intro other different
    by_cases finds : FindsShelves exchange.2 exchange.1.db
    · rw [(deleted finds).record, (deleted finds).get]
      simp [different]
    · rw [refused finds]
      exact ⟨rfl, rfl⟩
  have own := (pass.kept shelfno fun member => absurd member fresh).1
  refine ⟨List.forall_mem_cons.mpr ⟨kind, pass.kind⟩, fun other unasked => ?_, ?_⟩
  · have different : other ≠ shelfno := by
      rintro rfl
      exact unasked List.mem_cons_self unsynced
    rcases others other different with ⟨record, get⟩
    have later := pass.kept other fun member => by
      rw [record]
      exact unasked (List.mem_cons_of_mem _ member)
    rw [later.1, later.2]
    exact ⟨record, get⟩
  · have head : FindsShelves exchange.2 exchange.1.db ↔
        after.shelfRecord shelfno = recordUnset := by
      rw [own]
      by_cases finds : FindsShelves exchange.2 exchange.1.db
      · rw [(deleted finds).record]
        simp [finds]
      · rw [refused finds, unsynced]
        simp [finds]
    rw [List.forall_mem_cons, List.forall_mem_cons, head, pass.found]
    apply and_congr
    · exact ⟨fun record _ => record, fun record => record unsynced⟩
    · apply forall₂_congr
      intro other member
      have different : other ≠ shelfno := fun equal => fresh (equal ▸ member)
      rw [(others other different).1]

theorem clidbShelfNotSyncs_iff {cache : ShelfCache} {shelfno : Int}
    (range : shelfno ≤ maxShelfNum) :
    cache.clidbShelfNotSyncs shelfno = true ↔ cache.shelfRecord shelfno = recordSet := by
  rw [ShelfCache.clidbShelfNotSyncs, decide_eq_true range, Bool.true_and, beq_iff_eq]

theorem pointedLoop_done {stale : MessageCs} {table : List ShelfRow} {shelfnos : List Int}
    (distinct : shelfnos.Nodup)
    (range : ∀ shelfno ∈ shelfnos, 0 < shelfno ∧ shelfno ≤ maxShelfNum)
    {shelfCnt total : Nat} {client after : Client} (inbox : client.link.inbox = [])
    (numbered : client.link.server.db.archive.WellNumbered)
    (gone : ∀ shelfno ∈ shelfnos, client.shelves.shelfRecord shelfno = recordSet →
      ¬ Available table shelfno)
    (done : client.pointedLoop stale shelfnos shelfCnt = (some total, after))
    {exchanges : List (Server × MessageCs)}
    (appended : after.link.exchanges = client.link.exchanges ++ exchanges)
    (static : ∀ exchange ∈ exchanges, exchange.1.db.archive.shelves = table) :
    SecondPass shelfnos exchanges client.shelves after.shelves := by
  induction shelfnos generalizing shelfCnt client exchanges with
  | nil =>
      have same := (Prod.mk.inj done).2
      subst same
      rw [List.self_eq_append_right] at appended
      subst appended
      exact ⟨by simp, fun _ _ => ⟨rfl, rfl⟩, by simp⟩
  | cons shelfno shelfnos induction =>
      rw [List.nodup_cons] at distinct
      rcases range shelfno List.mem_cons_self with ⟨positive, bounded⟩
      have later : ∀ other ∈ shelfnos, 0 < other ∧ other ≤ maxShelfNum := fun other member =>
        range other (List.mem_cons_of_mem _ member)
      rw [pointedLoop] at done
      split at done
      · rename_i unsynced
        rw [clidbShelfNotSyncs_iff bounded] at unsynced
        have reaches := pointedQuery_reaches stale shelfno shelfCnt client
        rcases queried : client.pointedQuery stale shelfno shelfCnt with ⟨_ | counted, between⟩
        · rw [queried] at done
          cases done
        · rw [queried] at done reaches
          dsimp only at done reaches
          have asked := pointedQuery_exchanges queried
          have grown := pointedLoop_reaches stale shelfnos counted between
          rw [done] at grown
          rcases grown.exchanges with ⟨rest, continued⟩
          dsimp only at continued
          have split : exchanges = (client.link.reached, clientShelvesInfoSyncMsg
              client.loginUser stale (-shelfno)) :: rest := by
            rw [← continued, asked, List.append_assoc, List.append_cancel_left_eq] at appended
            exact appended.symm
          subst split
          have table : client.link.reached.db.archive.shelves = table :=
            static _ List.mem_cons_self
          have absent : ¬ Available client.link.reached.db.archive.shelves shelfno := by
            rw [table]
            exact gone shelfno List.mem_cons_self unsynced
          rcases pointedQuery_done positive inbox numbered absent queried with
            ⟨empty, deleted, refused⟩
          apply SecondPass.cons_asked distinct.1 rfl unsynced deleted refused
          apply induction distinct.2 later empty (reaches.numbered numbered) _ done
            continued.symm fun exchange member => static exchange (List.mem_cons_of_mem _ member)
          intro other member record
          have different : other ≠ shelfno := fun equal => distinct.1 (equal ▸ member)
          apply gone other (List.mem_cons_of_mem _ member)
          by_cases finds : FindsShelves (clientShelvesInfoSyncMsg client.loginUser stale
            (-shelfno)) client.link.reached.db
          · rw [(deleted finds).record, Function.update_of_ne different] at record
            exact record
          · rw [refused finds] at record
            exact record
      · rename_i settled
        rw [clidbShelfNotSyncs_iff bounded] at settled
        apply SecondPass.cons_kept _ settled
        exact induction distinct.2 later inbox numbered
          (fun other member => gone other (List.mem_cons_of_mem _ member)) done appended static

/-! ## The whole call -/

theorem clientShelvesCountSync_done {stale : MessageCs} {shelvesAll total : Int}
    {client counted : Client} (inbox : client.link.inbox = [])
    (done : client.clientShelvesCountSync stale shelvesAll = (true, total, counted)) :
    counted.link.inbox = [] ∧ counted.shelves = client.shelves ∧
      counted.link.exchanges = client.link.exchanges ++ [(client.link.reached,
        clientShelvesCountSyncMsg client.loginUser stale)] := by
  rw [clientShelvesCountSync] at done
  rcases sent : client.send (clientShelvesCountSyncMsg client.loginUser stale) with ⟨_ | _, asked⟩
  · rw [sent] at done
    cases done
  · rw [sent] at done
    dsimp only at done
    have asks := send_done sent
    have waiting : asked.link.inbox = (client.link.reached.replies (clientShelvesCountSyncMsg
        client.loginUser stale)).map fun reply => (client.link.sent, reply) := by
      rw [asks]
      simp [Link.posted, inbox]
    have exchanges : asked.link.exchanges = client.link.exchanges ++ [(client.link.reached,
        clientShelvesCountSyncMsg client.loginUser stale)] := by
      rw [asks, Link.posted]
    have shelves : asked.shelves = client.shelves := by rw [asks, posted]
    rcases received : asked.receive with ⟨_ | reply, read⟩
    · rw [received] at done
      cases done
    · rw [received] at done
      dsimp only at done
      have counts : (clientShelvesCountSyncMsg client.loginUser stale).request = .countShelf := rfl
      rcases Server.replies_countShelf_begins counts with ⟨_, single⟩
      rcases receive_expected single waiting received with ⟨_, rest, ends, inbox, same, cached⟩
      rw [List.prefix_nil.mp ends] at inbox
      have final : read = counted := by
        cases answer : reply.response <;> simp only [answer, Prod.mk.injEq] at done <;>
          exact done.2.2
      subst final
      exact ⟨inbox, cached.trans shelves, same.trans exchanges⟩

theorem clientShelvesInfoSync_done {fuel : Nat} {stale : MessageCs} {shelvesAll : Int}
    {client after : Client}
    (returns : client.clientShelvesInfoSync fuel stale shelvesAll = (true, after)) :
    ∃ total counted asked listed read shelfCnt last,
      client.clientShelvesCountSync stale shelvesAll = (true, total, counted) ∧
      counted.send (clientShelvesInfoSyncMsg counted.loginUser stale nonSenseInt) =
        (true, asked) ∧
      asked.listingLoop stale fuel 0 = (some listed, read) ∧
      read.pointedLoop stale shelfNumbers listed = (some shelfCnt, last) ∧
      after = { last with shelves := last.shelves.clidbShelfRecordSort.2 } := by
  rw [clientShelvesInfoSync] at returns
  rcases counting : client.clientShelvesCountSync stale shelvesAll with ⟨_ | _, total, counted⟩
  · rw [counting] at returns
    cases returns
  · rw [counting] at returns
    dsimp only at returns
    rcases sent : counted.send (clientShelvesInfoSyncMsg counted.loginUser stale nonSenseInt) with
      ⟨_ | _, asked⟩
    · rw [sent] at returns
      cases returns
    · rw [sent] at returns
      dsimp only at returns
      rcases listing : asked.listingLoop stale fuel 0 with ⟨_ | listed, read⟩
      · rw [listing] at returns
        cases returns
      · rw [listing] at returns
        dsimp only at returns
        rcases second : read.pointedLoop stale shelfNumbers listed with ⟨_ | shelfCnt, last⟩
        · rw [second] at returns
          cases returns
        · rw [second] at returns
          have final := (Prod.mk.inj returns).2
          exact ⟨total, counted, asked, listed, read, shelfCnt, last, rfl, sent, listing, second,
            final.symm⟩

theorem mem_shelfNumbers {shelfno : Int} :
    shelfno ∈ shelfNumbers ↔ 1 ≤ shelfno ∧ shelfno ≤ maxShelfNum := by
  rw [shelfNumbers, List.mem_map]
  constructor
  · rintro ⟨index, member, rfl⟩
    rw [List.mem_range] at member
    omega
  · intro range
    refine ⟨(shelfno - 1).toNat, ?_, ?_⟩
    · rw [List.mem_range]
      omega
    · omega

/-- What a call that returns 1 does to the cache: the first pass brings in the shelves
in use, the second asks for those that are still marked as set locally. -/
structure Synchronised (table : List ShelfRow) (exchanges : List (Server × MessageCs))
    (before between last : ShelfCache) : Prop where
  listed : ∀ row ∈ table, row.cleaned = .avl →
    between.shelfRecord row.shelfno = recordSync ∧
      between.clidbShelfGet row.shelfno = some row.entry
  unlisted : ∀ shelfno, ¬ Available table shelfno →
    between.shelfRecord shelfno = before.shelfRecord shelfno
  second : SecondPass shelfNumbers exchanges between last

/-- A first pass that comes to its end. -/
theorem listing_done {fuel listed : Nat} {stale : MessageCs} {client asked read : Client}
    (inbox : client.link.inbox = [])
    (numbered : client.link.server.db.archive.WellNumbered)
    (sent : client.send (clientShelvesInfoSyncMsg client.loginUser stale nonSenseInt) =
      (true, asked))
    (listing : asked.listingLoop stale fuel 0 = (some listed, read)) :
    read.link.inbox = [] ∧
      read.link.exchanges = client.link.exchanges ++ [(client.link.reached,
        clientShelvesInfoSyncMsg client.loginUser stale nonSenseInt)] ∧
      FindsShelves (clientShelvesInfoSyncMsg client.loginUser stale nonSenseInt)
        client.link.reached.db ∧
      (∀ row ∈ client.link.reached.db.archive.shelves, row.cleaned = .avl →
        read.shelves.shelfRecord row.shelfno = recordSync ∧
          read.shelves.clidbShelfGet row.shelfno = some row.entry) ∧
      (∀ shelfno, ¬ Available client.link.reached.db.archive.shelves shelfno →
        read.shelves.shelfRecord shelfno = client.shelves.shelfRecord shelfno) := by
  have asks := send_done sent
  have reachedNumbered := Link.reached_numbered numbered
  have waiting : asked.link.inbox = (client.link.reached.replies (clientShelvesInfoSyncMsg
      client.loginUser stale nonSenseInt)).map fun reply => (client.link.sent, reply) := by
    rw [asks]
    simp [Link.posted, inbox]
  have finds : FindsShelves (clientShelvesInfoSyncMsg client.loginUser stale nonSenseInt)
      client.link.reached.db := by
    by_contra refused
    exact listingLoop_refused_ne rfl (Server.replies_refused_begins rfl refused) waiting listing
  have begins := Server.replies_listing_begins reachedNumbered rfl
    (show nonSenseInt ≠ breakLimitInt by decide) finds
  rcases selectShelves_available reachedNumbered with ⟨rows, select, available, distinct⟩
  have code : (clientShelvesInfoSyncMsg client.loginUser stale nonSenseInt).stuff.shelf.code =
    nonSenseInt := rfl
  rw [code, select] at begins
  rcases listingLoop_done stale client.link.sent begins waiting listing with
    ⟨empty, exchanges, synced, shelves⟩
  have same : asked.shelves = client.shelves := by rw [asks, posted]
  have codes : ((rows.map ShelfRow.entry).map ShelfEntry.code).Nodup := by
    rw [List.map_map]
    exact distinct
  rw [same] at synced shelves
  rcases ShelfCache.synchronizeAll_done codes synced with ⟨named, unnamed⟩
  rw [← shelves] at named unnamed
  refine ⟨empty, ?_, finds, ?_, ?_⟩
  · rw [exchanges, asks, Link.posted]
  · intro row member cleaned
    exact named row.entry (List.mem_map_of_mem ((available row).mpr ⟨member, cleaned⟩))
  · intro shelfno absent
    apply (unnamed shelfno _).1
    intro shelf member equal
    rcases List.mem_map.mp member with ⟨row, rowMem, rfl⟩
    rcases (available row).mp rowMem with ⟨tableMem, cleaned⟩
    exact absent ⟨row, tableMem, equal, cleaned⟩

theorem clientShelvesInfoSync_synchronises {fuel : Nat} {stale : MessageCs} {shelvesAll : Int}
    {client after : Client} (inbox : client.link.inbox = [])
    (numbered : client.link.server.db.archive.WellNumbered)
    (returns : client.clientShelvesInfoSync fuel stale shelvesAll = (true, after))
    {table : List ShelfRow}
    (static : ∀ exchange ∈ client.exchangesSince after,
      exchange.1.db.archive.shelves = table) :
    ∃ counting listing exchanges between last,
      client.exchangesSince after = counting :: listing :: exchanges ∧
      counting.2.request = .countShelf ∧ FindsShelves listing.2 listing.1.db ∧
      Synchronised table exchanges client.shelves between last ∧
      after.shelves = last.clidbShelfRecordSort.2 := by
  rcases clientShelvesInfoSync_done returns with
    ⟨total, counted, asked, listed, read, shelfCnt, last, counting, sent, listing, second, rfl⟩
  rcases clientShelvesCountSync_done inbox counting with ⟨empty, cached, counts⟩
  have toCounted := (client.clientShelvesCountSync_opens stale shelvesAll).reaches
  rw [counting] at toCounted
  have toRead := listingLoop_reaches stale fuel 0 asked
  rw [listing] at toRead
  have readNumbered :=
    ((toCounted.trans (reaches_of_send sent)).trans toRead).numbered numbered
  rcases listing_done empty (toCounted.numbered numbered) sent listing with
    ⟨readEmpty, readExchanges, finds, inUse, gone⟩
  have grown := pointedLoop_reaches stale shelfNumbers listed read
  rw [second] at grown
  rcases grown.exchanges with ⟨exchanges, continued⟩
  have since : client.exchangesSince
      { last with shelves := last.shelves.clidbShelfRecordSort.2 } =
        (client.link.reached, clientShelvesCountSyncMsg client.loginUser stale) ::
          (counted.link.reached, clientShelvesInfoSyncMsg counted.loginUser stale nonSenseInt) ::
            exchanges := by
    apply exchangesSince_of_append
    rw [← continued, readExchanges, counts]
    simp
  rw [since] at static
  have same : counted.link.reached.db.archive.shelves = table :=
    static _ (List.mem_cons_of_mem _ List.mem_cons_self)
  rw [same] at inUse gone
  rw [cached] at gone
  refine ⟨_, _, exchanges, read.shelves, last.shelves, since, rfl, finds,
    ⟨inUse, gone, ?_⟩, rfl⟩
  apply pointedLoop_done (by decide) _ readEmpty readNumbered _ second continued.symm
    fun exchange member => static exchange
      (List.mem_cons_of_mem _ (List.mem_cons_of_mem _ member))
  · intro shelfno member
    rw [mem_shelfNumbers] at member
    omega
  · rintro shelfno _ record ⟨row, member, rfl, cleaned⟩
    rw [(inUse row member cleaned).1] at record
    cases record

/-! ## The mirror -/

/-- The cache shows shelf `shelfno` exactly if it is in use, with the server's entry. -/
structure Mirrors (table : List ShelfRow) (cache : ShelfCache) (shelfno : Int) : Prop where
  shown : cache.clidbShelfExists shelfno = true ↔ Available table shelfno
  entry : ∀ row ∈ table, row.shelfno = shelfno → row.cleaned = .avl →
    cache.clidbShelfGet shelfno = some row.entry
  mark : cache.shelfRecord shelfno ≤ recordSet

section Final

variable {table : List ShelfRow} {exchanges : List (Server × MessageCs)}
  {before between last : ShelfCache}
  (synchronised : Synchronised table exchanges before between last)

include synchronised

theorem Synchronised.shows {shelfno : Int} (range : 1 ≤ shelfno ∧ shelfno ≤ maxShelfNum)
    (available : Available table shelfno) :
    Mirrors table last.clidbShelfRecordSort.2 shelfno := by
  have unasked : ∀ row ∈ table, row.cleaned = .avl →
      last.shelfRecord row.shelfno = recordSync ∧
        last.clidbShelfGet row.shelfno = some row.entry := by
    intro row member cleaned
    rcases synchronised.listed row member cleaned with ⟨record, get⟩
    have kept := synchronised.second.kept row.shelfno fun _ => by
      rw [record]
      decide
    rw [kept.1, kept.2]
    exact ⟨record, get⟩
  have record : last.clidbShelfRecordSort.2.shelfRecord shelfno = recordSet := by
    rcases available with ⟨row, member, rfl, cleaned⟩
    rw [last.clidbShelfRecordSort_keeps.2, (unasked row member cleaned).1, ShelfCache.sortedMark,
      if_pos ⟨range.1, range.2, rfl⟩]
  refine ⟨⟨fun _ => available, fun _ => ?_⟩, ?_, by rw [record]⟩
  · rw [ShelfCache.clidbShelfExists, record, decide_eq_true range.2]
    rfl
  · rintro row member rfl cleaned
    rw [last.clidbShelfRecordSort_keeps.1]
    exact (unasked row member cleaned).2

theorem Synchronised.hides_iff {shelfno : Int} (range : 1 ≤ shelfno ∧ shelfno ≤ maxShelfNum)
    (gone : ¬ Available table shelfno) (marked : before.shelfRecord shelfno ≤ recordSync) :
    Mirrors table last.clidbShelfRecordSort.2 shelfno ↔
      before.shelfRecord shelfno ≠ recordSync ∧
        (before.shelfRecord shelfno = recordSet → last.shelfRecord shelfno = recordUnset) := by
  have hidden : Mirrors table last.clidbShelfRecordSort.2 shelfno ↔
      last.shelfRecord shelfno = recordUnset := by
    have sorted : last.clidbShelfRecordSort.2.shelfRecord shelfno = recordUnset ↔
        last.shelfRecord shelfno = recordUnset := by
      rw [last.clidbShelfRecordSort_keeps.2, ShelfCache.sortedMark]
      split
      · rename_i synced
        rw [synced.2.2]
        decide
      · rfl
    rw [← sorted]
    constructor
    · intro mirrors
      have unshown : last.clidbShelfRecordSort.2.clidbShelfExists shelfno ≠ true :=
        fun shown => gone (mirrors.shown.mp shown)
      rw [ShelfCache.clidbShelfExists, decide_eq_true range.2, Bool.true_and, ne_eq,
        decide_eq_true_iff] at unshown
      exact Nat.eq_zero_of_not_pos unshown
    · intro unset
      refine ⟨⟨fun shown => ?_, fun available => absurd available gone⟩, ?_, by simp [unset]⟩
      · rw [ShelfCache.clidbShelfExists, unset] at shown
        simp at shown
      · intro row member number cleaned
        exact absurd ⟨row, member, number, cleaned⟩ gone
  have same := synchronised.unlisted shelfno gone
  rw [hidden]
  by_cases unsynced : before.shelfRecord shelfno = recordSet
  · rw [unsynced]
    exact ⟨fun unset => ⟨by decide, fun _ => unset⟩, fun both => both.2 rfl⟩
  · have kept := (synchronised.second.kept shelfno fun _ => by rw [same]; exact unsynced).1
    rw [kept, same]
    constructor
    · intro unset
      rw [unset]
      exact ⟨by decide, fun record => absurd record (by decide)⟩
    · intro left
      rcases left with ⟨unmarked, _⟩
      have few : before.shelfRecord shelfno ≤ 2 := marked
      have notSynced : before.shelfRecord shelfno ≠ 2 := unmarked
      have notSet : before.shelfRecord shelfno ≠ 1 := unsynced
      change before.shelfRecord shelfno = 0
      omega

end Final

/-- `client_shelves_info_sync` returns 1 over a table of shelves that does not change.
The cache then mirrors the table, exactly if earlier sessions have left no shelf that is
gone with the mark of a synchronised one, and the server has answered every request of
the second pass. -/
theorem mirrors_iff (history : List ShelfCache.Action) {client after : Client}
    (cached : client.shelves = Execution.run ShelfCache.act .empty history)
    (inbox : client.link.inbox = [])
    (numbered : client.link.server.db.archive.WellNumbered)
    {fuel : Nat} {stale : MessageCs} {shelvesAll : Int}
    (returns : client.clientShelvesInfoSync fuel stale shelvesAll = (true, after))
    {table : List ShelfRow}
    (static : ∀ exchange ∈ client.exchangesSince after,
      exchange.1.db.archive.shelves = table) :
    (∀ shelfno : Int, 1 ≤ shelfno → shelfno ≤ maxShelfNum →
        Mirrors table after.shelves shelfno) ↔
      (∀ shelfno : Int, 1 ≤ shelfno → shelfno ≤ maxShelfNum → ¬ Available table shelfno →
        client.shelves.shelfRecord shelfno ≠ recordSync) ∧
      (∀ exchange ∈ client.exchangesSince after, exchange.2.request = .findShelf →
        FindsShelves exchange.2 exchange.1.db) := by
  have marked := cached ▸ ShelfCache.run_marked history
  rcases clientShelvesInfoSync_synchronises inbox numbered returns static with
    ⟨counting, listing, exchanges, between, last, since, counts, lists, synchronised, sorted⟩
  have asked : (∀ exchange ∈ client.exchangesSince after, exchange.2.request = .findShelf →
      FindsShelves exchange.2 exchange.1.db) ↔
        ∀ exchange ∈ exchanges, FindsShelves exchange.2 exchange.1.db := by
    rw [since]
    constructor
    · intro all exchange member
      exact all exchange (List.mem_cons_of_mem _ (List.mem_cons_of_mem _ member))
        (synchronised.second.kind exchange member)
    · intro all exchange member kind
      rcases List.mem_cons.mp member with rfl | member
      · rw [counts] at kind
        cases kind
      · rcases List.mem_cons.mp member with rfl | member
        · exact lists
        · exact all exchange member
  rw [asked, sorted, synchronised.second.found]
  constructor
  · intro mirrors
    have hides := fun (shelfno : Int) lower upper gone =>
      (synchronised.hides_iff ⟨lower, upper⟩ gone (marked.record shelfno)).mp
        (mirrors shelfno lower upper)
    refine ⟨fun shelfno lower upper gone => (hides shelfno lower upper gone).1, ?_⟩
    intro shelfno member record
    rcases mem_shelfNumbers.mp member with ⟨lower, upper⟩
    have gone : ¬ Available table shelfno := by
      rintro ⟨row, rowMem, rfl, cleaned⟩
      rw [(synchronised.listed row rowMem cleaned).1] at record
      cases record
    rw [synchronised.unlisted shelfno gone] at record
    exact (hides shelfno lower upper gone).2 record
  · rintro ⟨unmarked, answered⟩ shelfno lower upper
    by_cases available : Available table shelfno
    · exact synchronised.shows ⟨lower, upper⟩ available
    · apply (synchronised.hides_iff ⟨lower, upper⟩ available (marked.record shelfno)).mpr
      refine ⟨unmarked shelfno lower upper available, fun record => ?_⟩
      apply answered shelfno (mem_shelfNumbers.mpr ⟨lower, upper⟩)
      rw [synchronised.unlisted shelfno available]
      exact record

instance (table : List ShelfRow) (shelfno : Int) : Decidable (Available table shelfno) :=
  inferInstanceAs (Decidable (∃ row ∈ table, _))

instance (msg : MessageCs) (db : Mysql) : Decidable (FindsShelves msg db) :=
  decidable_of_iff (msg.user ≠ "" ∧ healthyFor 2 db.faults = true)
    ⟨fun both => ⟨both.1, both.2⟩, fun finds => ⟨finds.named, finds.healthy⟩⟩

/-- A session after `history`, when the only shelf has been built and removed. -/
def resumed (history : List ShelfCache.Action) : Client :=
  connected
    (Execution.run Server.step Server.sample
      [clientBuildShelfMsg "reader" Server.sampleTime Server.sampleShelf,
        clientShelfDeleteItselfMsg "reader" 1])
    .empty (Execution.run ShelfCache.act .empty history) "reader"

theorem resumed_numbered (history : List ShelfCache.Action) :
    (resumed history).link.server.db.archive.WellNumbered :=
  ⟨⟨0, by decide, rfl⟩, ⟨1, by decide, rfl⟩⟩

/-- A session stored the shelf. -/
def storedBefore : Client :=
  resumed [.init "reader", .insert { Server.sampleShelf with code := 1 }, .newProcess [],
    .init "reader"]

/-- A session was cut off after its first pass had marked the shelf as synchronised. -/
def cutOffBefore : Client :=
  resumed [.init "reader", .synchronize { Server.sampleShelf with code := 1 }, .newProcess [],
    .init "reader"]

/-- The shelf is asked for and found gone. -/
theorem mirrors_after_removal :
    (storedBefore.clientShelvesInfoSync (maxShelfNum + 2) .zeroed 0).1 = true ∧
      ∀ shelfno : Int, 1 ≤ shelfno → shelfno ≤ maxShelfNum →
        Mirrors storedBefore.link.server.db.archive.shelves
          (storedBefore.clientShelvesInfoSync (maxShelfNum + 2) .zeroed 0).2.shelves shelfno := by
  have returns : storedBefore.clientShelvesInfoSync (maxShelfNum + 2) .zeroed 0 =
      (true, (storedBefore.clientShelvesInfoSync (maxShelfNum + 2) .zeroed 0).2) :=
    Prod.ext (by decide) rfl
  have static : ∀ exchange ∈ storedBefore.exchangesSince
      (storedBefore.clientShelvesInfoSync (maxShelfNum + 2) .zeroed 0).2,
      exchange.1.db.archive.shelves = storedBefore.link.server.db.archive.shelves := by decide
  have found : ∀ exchange ∈ storedBefore.exchangesSince
      (storedBefore.clientShelvesInfoSync (maxShelfNum + 2) .zeroed 0).2,
      exchange.2.request = .findShelf → FindsShelves exchange.2 exchange.1.db := by decide
  have record : storedBefore.shelves.shelfRecord =
    Function.update (fun _ => recordUnset) 1 recordSet := rfl
  have unmarked : ∀ shelfno, storedBefore.shelves.shelfRecord shelfno ≠ recordSync := by
    intro shelfno
    rw [record]
    by_cases first : shelfno = 1
    · rw [first, Function.update_self]
      decide
    · rw [Function.update_of_ne first]
      decide
  refine ⟨congrArg Prod.fst returns, ?_⟩
  apply (mirrors_iff _ rfl rfl (resumed_numbered _) returns static).mpr
  exact ⟨fun shelfno _ _ _ => unmarked shelfno, found⟩

/-- The shelf is not asked for, the call returns 1, and the cache shows the shelf. -/
theorem cut_off_mark_shown :
    (cutOffBefore.clientShelvesInfoSync (maxShelfNum + 2) .zeroed 0).1 = true ∧
      (∀ exchange ∈ cutOffBefore.exchangesSince
          (cutOffBefore.clientShelvesInfoSync (maxShelfNum + 2) .zeroed 0).2,
        exchange.1.db.archive.shelves = cutOffBefore.link.server.db.archive.shelves) ∧
      ¬ Mirrors cutOffBefore.link.server.db.archive.shelves
        (cutOffBefore.clientShelvesInfoSync (maxShelfNum + 2) .zeroed 0).2.shelves 1 := by
  refine ⟨by decide, by decide, fun mirrors => ?_⟩
  have shown := mirrors.shown.mp (by decide)
  have absent : ¬ Available cutOffBefore.link.server.db.archive.shelves 1 := by decide
  exact absent shown

end Client

end Bookshelfdq
