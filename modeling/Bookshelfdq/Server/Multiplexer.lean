import Bookshelfdq.Foundation.Execution
import Mathlib.Data.Finset.Basic
import Mathlib.Order.Bounds.Basic

/-! # Multiplexing connections

`socket_srv_wait` and `socket_srv_fetch_client` of `socketsrv.c` and the loop of `main`
around them. The scan of the ready descriptors is suspended whenever it hands one out,
and its bound moves while connections come and go. -/

namespace Bookshelfdq

def fdSetSize : Nat := 1024

/-- What the kernel answers from one `select` to the next: the ready descriptors, the
result of `accept` as a function of the descriptors open by then (`none` for `-1`), and
whether `FIONREAD` finds data. No descriptor is asked twice in a round. -/
structure Round where
  ready : Finset Nat
  accept : Finset Nat → Option Nat
  pending : Nat → Bool

inductive Attention
  | accept
  | close
  | fetch
deriving DecidableEq

/-- The descriptors on record in `recordfds`, and the client connections open in the kernel. -/
structure Descriptors where
  recordfds : Finset Nat
  clients : Finset Nat
deriving DecidableEq

/-- A descriptor that has been treated, and the descriptors as they were left. -/
structure Attended where
  fd : Nat
  attention : Attention
  left : Descriptors
deriving DecidableEq

def Attended.item (attended : Attended) : Nat × Attention := (attended.fd, attended.attention)

/-- The static variables of `socketsrv.c`; a `server_sockfd` of `-1` is `none`. Besides,
`clients` are the client connections open in the kernel, and `treated` lists what has
been done in the current round. -/
structure Multiplexer where
  serverSockfd : Option Nat
  recordfds : Finset Nat
  readfds : Finset Nat
  maxFdNum : Nat
  fdLoop : Nat
  clients : Finset Nat
  treated : List Attended

inductive Fetched
  | err
  | finish
  | client (fd : Nat)
deriving DecidableEq

namespace Multiplexer

/-- `socket_srv_init`, once the kernel has given it a listening descriptor. -/
def socketSrvInit (sockfd : Nat) : Multiplexer where
  serverSockfd := some sockfd
  recordfds := {sockfd}
  readfds := ∅
  maxFdNum := sockfd
  fdLoop := 0
  clients := ∅
  treated := []

def selected (round : Round) (mux : Multiplexer) : Multiplexer :=
  { mux with readfds := round.ready, treated := [] }

/-- `socket_srv_wait`. `select` reports an error or at least one descriptor. -/
def socketSrvWait (round : Round) (mux : Multiplexer) : Bool × Multiplexer :=
  match mux.serverSockfd with
  | none => (false, mux)
  | some _ => (decide round.ready.Nonempty, mux.selected round)

/-- The loop of `find_max_fd`, downwards from the old maximum. -/
def findMaxFd (recordfds : Finset Nat) : Nat → Option Nat
  | 0 => if 0 ∈ recordfds then some 0 else none
  | fd + 1 => if fd + 1 ∈ recordfds then some (fd + 1) else findMaxFd recordfds fd

def descriptors (mux : Multiplexer) : Descriptors := ⟨mux.recordfds, mux.clients⟩

def treat (attention : Attention) (mux : Multiplexer) : Multiplexer :=
  { mux with
    fdLoop := mux.fdLoop + 1
    treated := mux.treated ++ [⟨mux.fdLoop, attention, mux.descriptors⟩] }

def addClient (newfd : Nat) (mux : Multiplexer) : Multiplexer :=
  { mux with
    recordfds := insert newfd mux.recordfds
    maxFdNum := if newfd > mux.maxFdNum then newfd else mux.maxFdNum
    clients := insert newfd mux.clients }

def removeClient (fd : Nat) (mux : Multiplexer) : Multiplexer :=
  { mux with
    recordfds := mux.recordfds.erase fd
    maxFdNum := (findMaxFd (mux.recordfds.erase fd) mux.maxFdNum).getD mux.maxFdNum
    clients := mux.clients.erase fd }

def skip (mux : Multiplexer) : Multiplexer := { mux with fdLoop := mux.fdLoop + 1 }

/-- The loop of `socket_srv_fetch_client`; `none` when the fuel is used up. -/
def fetchLoop (round : Round) (server : Nat) : Nat → Multiplexer → Option (Fetched × Multiplexer)
  | 0, _ => none
  | fuel + 1, mux =>
      if mux.fdLoop ≤ mux.maxFdNum then
        if mux.fdLoop ∈ mux.readfds then
          if mux.fdLoop = server then
            match round.accept (insert server mux.clients) with
            | none => some (.err, mux)
            | some newfd => fetchLoop round server fuel ((mux.addClient newfd).treat .accept)
          else if round.pending mux.fdLoop then
            some (.client mux.fdLoop, mux.treat .fetch)
          else fetchLoop round server fuel ((mux.removeClient mux.fdLoop).treat .close)
        else fetchLoop round server fuel mux.skip
      else some (.finish, { mux with fdLoop := 0 })

def socketSrvFetchClient (round : Round) (mux : Multiplexer) : Option (Fetched × Multiplexer) :=
  match mux.serverSockfd with
  | none => some (.err, mux)
  | some server => fetchLoop round server (fdSetSize + 1) mux

/-- The inner loop of `main`: the descriptors handed out until the scan is over, or
`none` for the exit after an error. -/
def serveClients (round : Round) : Nat → Multiplexer → Option (List Nat × Multiplexer)
  | 0, _ => none
  | fuel + 1, mux =>
      match mux.socketSrvFetchClient round with
      | some (.finish, mux) => some ([], mux)
      | some (.client fd, mux) =>
          (serveClients round fuel mux).map fun rest => (fd :: rest.1, rest.2)
      | _ => none

/-- One turn of `main`'s loop. -/
def serveRound (mux : Multiplexer) (round : Round) : Option (List Nat × Multiplexer) :=
  match mux.socketSrvWait round with
  | (false, _) => none
  | (true, mux) => mux.serveClients round (fdSetSize + 1)

/-! ## The bound of the scan -/

theorem findMaxFd_isGreatest {recordfds : Finset Nat} (nonempty : recordfds.Nonempty)
    {bound : Nat} (bounded : ∀ fd ∈ recordfds, fd ≤ bound) :
    ∃ fd, findMaxFd recordfds bound = some fd ∧ IsGreatest (recordfds : Set Nat) fd := by
  induction bound with
  | zero =>
      rcases nonempty with ⟨fd, member⟩
      have zero : fd = 0 := Nat.le_zero.mp (bounded fd member)
      rw [zero] at member
      exact ⟨0, if_pos member, member, fun other otherMem => bounded other otherMem⟩
  | succ bound induction =>
      by_cases top : bound + 1 ∈ recordfds
      · exact ⟨bound + 1, if_pos top, top, fun other otherMem => bounded other otherMem⟩
      · have smaller : ∀ fd ∈ recordfds, fd ≤ bound := by
          intro fd member
          have limit := bounded fd member
          have different : fd ≠ bound + 1 := fun equal => top (equal ▸ member)
          omega
        rcases induction smaller with ⟨fd, found, greatest⟩
        refine ⟨fd, ?_, greatest⟩
        rw [findMaxFd, if_neg top, found]

theorem isGreatest_insert {recordfds : Finset Nat} {maxFdNum : Nat}
    (greatest : IsGreatest (recordfds : Set Nat) maxFdNum) (newfd : Nat) :
    IsGreatest (insert newfd recordfds : Finset Nat)
      (if newfd > maxFdNum then newfd else maxFdNum) := by
  by_cases larger : newfd > maxFdNum
  · rw [if_pos larger]
    refine ⟨Finset.mem_coe.mpr (Finset.mem_insert_self _ _), ?_⟩
    intro fd member
    rcases Finset.mem_insert.mp member with rfl | member
    · exact le_refl fd
    · exact (greatest.2 member).trans larger.le
  · rw [if_neg larger]
    refine ⟨Finset.mem_coe.mpr (Finset.mem_insert_of_mem greatest.1), ?_⟩
    intro fd member
    rcases Finset.mem_insert.mp member with rfl | member
    · exact not_lt.mp larger
    · exact greatest.2 member

end Multiplexer

/-! ## What a round has to do -/

namespace Round

/-- The ready descriptors from `fd` on, in the order of the scan. -/
def onwards (round : Round) (fd : Nat) : List Nat :=
  (List.range' fd (fdSetSize - fd)).filter fun fd => decide (fd ∈ round.ready)

def treatment (round : Round) (server fd : Nat) : Nat × Attention :=
  (fd, if fd = server then .accept else if round.pending fd then .fetch else .close)

/-- What is left to do from `fd` on. -/
def agenda (round : Round) (server fd : Nat) : List (Nat × Attention) :=
  (round.onwards fd).map (round.treatment server)

/-- What is left to hand out from `fd` on. -/
def handouts (round : Round) (server fd : Nat) : List Nat :=
  ((round.agenda server fd).filter fun item => item.2 == .fetch).map Prod.fst

/-- `accept` answers with a descriptor that is not open, whichever of the connections
`start` are open by then. -/
def Accepts (round : Round) (server : Nat) (start : Finset Nat) : Prop :=
  ∀ clients ⊆ start, ∃ newfd, round.accept (insert server clients) = some newfd ∧
    newfd ∉ insert server clients ∧ newfd < fdSetSize

/-- What treating one descriptor may change: an accepted connection comes in, one without data
goes, and nothing else does. -/
def Changes (round : Round) (server : Nat) (before : Descriptors) (attended : Attended) : Prop :=
  match attended.attention with
  | .accept => ∃ newfd, round.accept (insert server before.clients) = some newfd ∧
      newfd ∉ before.recordfds ∧
      attended.left = ⟨insert newfd before.recordfds, insert newfd before.clients⟩
  | .close => attended.left =
      ⟨before.recordfds.erase attended.fd, before.clients.erase attended.fd⟩
  | .fetch => attended.left = before

/-- One treatment after the other leads from some descriptors to others. -/
def Leads (round : Round) (server : Nat) :
    Descriptors → List Attended → Descriptors → Prop
  | before, [], after => after = before
  | before, attended :: later, after =>
      round.Changes server before attended ∧ Leads round server attended.left later after

theorem Leads.append {round : Round} {server : Nat} {before after : Descriptors}
    {treated : List Attended} {attended : Attended} (leads : round.Leads server before treated after)
    (changes : round.Changes server after attended) :
    round.Leads server before (treated ++ [attended]) attended.left := by
  induction treated generalizing before with
  | nil =>
      rw [(leads : after = before)] at changes
      exact ⟨changes, rfl⟩
  | cons first later induction => exact ⟨leads.1, induction leads.2⟩

variable {round : Round} {server fd : Nat}

theorem onwards_of_mem (inside : fd < fdSetSize) (member : fd ∈ round.ready) :
    round.onwards fd = fd :: round.onwards (fd + 1) := by
  have size : fdSetSize - fd = fdSetSize - (fd + 1) + 1 := by omega
  rw [onwards, size, List.range'_succ, List.filter_cons_of_pos (by simpa using member)]
  rfl

theorem onwards_of_not_mem (inside : fd < fdSetSize) (absent : fd ∉ round.ready) :
    round.onwards fd = round.onwards (fd + 1) := by
  have size : fdSetSize - fd = fdSetSize - (fd + 1) + 1 := by omega
  rw [onwards, size, List.range'_succ, List.filter_cons_of_neg (by simpa using absent)]
  rfl

theorem onwards_eq_nil (passed : ∀ other ∈ round.ready, other < fd) : round.onwards fd = [] := by
  rw [onwards, List.filter_eq_nil_iff]
  intro other member
  have later := (List.mem_range'_1.mp member).1
  intro ready
  have earlier := passed other (by simpa using ready)
  omega

theorem handouts_of_fetch (inside : fd < fdSetSize) (member : fd ∈ round.ready)
    (right : round.treatment server fd = (fd, .fetch)) :
    round.handouts server fd = fd :: round.handouts server (fd + 1) := by
  rw [handouts, agenda, onwards_of_mem inside member, List.map_cons, right]
  rfl

theorem handouts_of_other {treatment : Attention} (inside : fd < fdSetSize)
    (member : fd ∈ round.ready) (right : round.treatment server fd = (fd, treatment))
    (other : treatment ≠ .fetch) :
    round.handouts server fd = round.handouts server (fd + 1) := by
  rw [handouts, agenda, onwards_of_mem inside member, List.map_cons, right,
    List.filter_cons_of_neg (by simpa using other)]
  rfl

theorem handouts_of_not_mem (inside : fd < fdSetSize) (absent : fd ∉ round.ready) :
    round.handouts server fd = round.handouts server (fd + 1) := by
  rw [handouts, agenda, onwards_of_not_mem inside absent]
  rfl

theorem fst_agenda (round : Round) (server fd : Nat) :
    (round.agenda server fd).map Prod.fst = round.onwards fd := by
  rw [agenda, List.map_map]
  exact List.map_id _

theorem nodup_onwards (round : Round) : (round.onwards 0).Nodup :=
  (List.nodup_range' 1).filter _

theorem mem_onwards (below : ∀ fd ∈ round.ready, fd < fdSetSize) :
    fd ∈ round.onwards 0 ↔ fd ∈ round.ready := by
  simp only [onwards, List.mem_filter, List.mem_range'_1, decide_eq_true_eq]
  constructor
  · intro parts
    exact parts.2
  · intro ready
    have bound := below fd ready
    exact ⟨by omega, ready⟩

end Round

namespace Multiplexer

/-- The descriptors on record are the listening one and the open connections. -/
structure Recorded (server : Nat) (mux : Multiplexer) : Prop where
  server_eq : mux.serverSockfd = some server
  record : mux.recordfds = insert server mux.clients
  apart : server ∉ mux.clients
  below : ∀ fd ∈ mux.recordfds, fd < fdSetSize
  greatest : IsGreatest (mux.recordfds : Set Nat) mux.maxFdNum

/-- The scan of a round before the descriptor `fdLoop`. Whatever is still to be treated
is on record, and before the listening descriptor connections are only closed. -/
structure Scanning (round : Round) (server : Nat) (start : Descriptors) (mux : Multiplexer) : Prop
    extends Recorded server mux where
  readfds : mux.readfds = round.ready
  ahead : ∀ fd ∈ round.ready, mux.fdLoop ≤ fd → fd ∈ mux.recordfds
  unaccepted : mux.fdLoop ≤ server → mux.clients ⊆ start.clients
  account : mux.treated.map Attended.item ++ round.agenda server mux.fdLoop =
    round.agenda server 0
  leads : round.Leads server start mux.treated mux.descriptors

section Scan

variable {round : Round} {server : Nat} {start : Descriptors} {mux : Multiplexer}
  (scanning : mux.Scanning round server start)
include scanning

theorem Scanning.skip (inside : mux.fdLoop < fdSetSize) (absent : mux.fdLoop ∉ round.ready) :
    mux.skip.Scanning round server start where
  server_eq := scanning.server_eq
  record := scanning.record
  apart := scanning.apart
  below := scanning.below
  greatest := scanning.greatest
  readfds := scanning.readfds
  ahead fd ready later := scanning.ahead fd ready (Nat.le_of_succ_le later)
  unaccepted before := scanning.unaccepted (Nat.le_of_succ_le before)
  account := by
    have account := scanning.account
    rw [Round.agenda, Round.onwards_of_not_mem inside absent] at account
    exact account
  leads := scanning.leads

theorem Scanning.account_treat {attention : Attention} {left : Descriptors}
    (inside : mux.fdLoop < fdSetSize) (ready : mux.fdLoop ∈ round.ready)
    (right : round.treatment server mux.fdLoop = (mux.fdLoop, attention)) :
    List.map Attended.item (mux.treated ++ [⟨mux.fdLoop, attention, left⟩]) ++
        round.agenda server (mux.fdLoop + 1) = round.agenda server 0 := by
  have account := scanning.account
  rw [Round.agenda, Round.onwards_of_mem inside ready, List.map_cons, right] at account
  rw [List.map_append, List.append_assoc]
  exact account

theorem Scanning.fetch (inside : mux.fdLoop < fdSetSize) (ready : mux.fdLoop ∈ round.ready)
    (right : round.treatment server mux.fdLoop = (mux.fdLoop, .fetch)) :
    (mux.treat .fetch).Scanning round server start where
  server_eq := scanning.server_eq
  record := scanning.record
  apart := scanning.apart
  below := scanning.below
  greatest := scanning.greatest
  readfds := scanning.readfds
  ahead fd ready later := scanning.ahead fd ready (Nat.le_of_succ_le later)
  unaccepted before := scanning.unaccepted (Nat.le_of_succ_le before)
  account := scanning.account_treat inside ready right
  leads := scanning.leads.append (rfl : _ = _)

/-- A number that was given up earlier in the round may come back here; the scan has
passed it. -/
theorem Scanning.accept (inside : mux.fdLoop < fdSetSize) (ready : mux.fdLoop ∈ round.ready)
    (listening : mux.fdLoop = server) {newfd : Nat}
    (accepted : round.accept (insert server mux.clients) = some newfd)
    (fresh : newfd ∉ insert server mux.clients) (small : newfd < fdSetSize) :
    ((mux.addClient newfd).treat .accept).Scanning round server start where
  server_eq := scanning.server_eq
  record := by
    show insert newfd mux.recordfds = insert server (insert newfd mux.clients)
    rw [scanning.record, Finset.insert_comm]
  apart := by
    intro member
    rcases Finset.mem_insert.mp member with equal | member
    · exact fresh (equal ▸ Finset.mem_insert_self _ _)
    · exact scanning.apart member
  below fd member := by
    rcases Finset.mem_insert.mp member with rfl | member
    · exact small
    · exact scanning.below fd member
  greatest := isGreatest_insert scanning.greatest newfd
  readfds := scanning.readfds
  ahead fd ready later :=
    Finset.mem_insert_of_mem (scanning.ahead fd ready (Nat.le_of_succ_le later))
  unaccepted before := absurd before (by
    show ¬ mux.fdLoop + 1 ≤ server
    omega)
  account := by
    apply scanning.account_treat inside ready
    rw [Round.treatment, if_pos listening]
  leads := by
    apply scanning.leads.append
    refine ⟨newfd, accepted, ?_, rfl⟩
    show newfd ∉ mux.recordfds
    rw [scanning.record]
    exact fresh

theorem Scanning.close (inside : mux.fdLoop < fdSetSize) (ready : mux.fdLoop ∈ round.ready)
    (connected : mux.fdLoop ≠ server)
    (right : round.treatment server mux.fdLoop = (mux.fdLoop, .close)) :
    ((mux.removeClient mux.fdLoop).treat .close).Scanning round server start := by
  have record : mux.recordfds.erase mux.fdLoop = insert server (mux.clients.erase mux.fdLoop) := by
    rw [scanning.record, Finset.erase_insert_of_ne connected.symm]
  have nonempty : (mux.recordfds.erase mux.fdLoop).Nonempty := by
    rw [record]
    exact Finset.insert_nonempty _ _
  rcases findMaxFd_isGreatest nonempty (fun fd member =>
    scanning.greatest.2 (Finset.mem_of_mem_erase member)) with ⟨maxFdNum, found, greatest⟩
  refine ⟨⟨scanning.server_eq, record, ?_, ?_, ?_⟩, scanning.readfds, ?_, ?_, ?_, ?_⟩
  · intro member
    exact scanning.apart (Finset.mem_of_mem_erase member)
  · intro fd member
    exact scanning.below fd (Finset.mem_of_mem_erase member)
  · show IsGreatest _ ((findMaxFd (mux.recordfds.erase mux.fdLoop) mux.maxFdNum).getD mux.maxFdNum)
    rw [found]
    exact greatest
  · intro fd ready later
    have later : mux.fdLoop + 1 ≤ fd := later
    apply Finset.mem_erase.mpr
    exact ⟨by omega, scanning.ahead fd ready (by omega)⟩
  · intro before
    have before : mux.fdLoop + 1 ≤ server := before
    exact (Finset.erase_subset _ _).trans (scanning.unaccepted (by omega))
  · exact scanning.account_treat inside ready right
  · exact scanning.leads.append (rfl : _ = _)

end Scan

/-- The state when the scan is over. -/
structure Finished (round : Round) (server : Nat) (start : Descriptors) (mux : Multiplexer) : Prop
    extends Recorded server mux where
  rewound : mux.fdLoop = 0
  complete : mux.treated.map Attended.item = round.agenda server 0
  leads : round.Leads server start mux.treated mux.descriptors

section Loops

variable {round : Round} {server : Nat} {start : Descriptors}
  (accepts : round.Accepts server start.clients)
include accepts

/-- One call either finishes the scan or hands out the next descriptor with data. -/
theorem fetchLoop_cases (fuel : Nat) {mux : Multiplexer}
    (scanning : mux.Scanning round server start) (cursor : mux.fdLoop ≤ fdSetSize)
    (enough : fdSetSize < mux.fdLoop + fuel) :
    (∃ after, fetchLoop round server fuel mux = some (.finish, after) ∧
      after.Finished round server start ∧ round.handouts server mux.fdLoop = []) ∨
    (∃ fd after, fetchLoop round server fuel mux = some (.client fd, after) ∧
      after.Scanning round server start ∧ after.fdLoop ≤ fdSetSize ∧
      mux.fdLoop < after.fdLoop ∧
      round.handouts server mux.fdLoop = fd :: round.handouts server after.fdLoop) := by
  induction fuel generalizing mux with
  | zero => omega
  | succ fuel induction =>
      rw [fetchLoop]
      by_cases more : mux.fdLoop ≤ mux.maxFdNum
      · have inside : mux.fdLoop < fdSetSize :=
          more.trans_lt (scanning.below _ scanning.greatest.1)
        have onwards : ∀ next : Multiplexer, next.Scanning round server start →
            next.fdLoop = mux.fdLoop + 1 →
            (∃ after, fetchLoop round server fuel next = some (.finish, after) ∧
              after.Finished round server start ∧ round.handouts server (mux.fdLoop + 1) = []) ∨
            (∃ fd after, fetchLoop round server fuel next = some (.client fd, after) ∧
              after.Scanning round server start ∧ after.fdLoop ≤ fdSetSize ∧
              mux.fdLoop < after.fdLoop ∧ round.handouts server (mux.fdLoop + 1) =
                fd :: round.handouts server after.fdLoop) := by
          intro next nextScanning step
          rcases induction nextScanning (by omega) (by omega) with
            finished | ⟨fd, after, result, afterScanning, bound, further, handed⟩
          · rw [← step]
            exact .inl finished
          · rw [step] at handed
            exact .inr ⟨fd, after, result, afterScanning, bound, by omega, handed⟩
        rw [if_pos more, scanning.readfds]
        by_cases ready : mux.fdLoop ∈ round.ready
        · rw [if_pos ready]
          by_cases listening : mux.fdLoop = server
          · rw [if_pos listening]
            rcases accepts mux.clients (scanning.unaccepted listening.le) with
              ⟨newfd, accepted, fresh, small⟩
            rw [accepted]
            have right : round.treatment server mux.fdLoop = (mux.fdLoop, .accept) := by
              rw [Round.treatment, if_pos listening]
            rw [Round.handouts_of_other inside ready right (by decide)]
            exact onwards _ (scanning.accept inside ready listening accepted fresh small) rfl
          · rw [if_neg listening]
            by_cases pending : round.pending mux.fdLoop = true
            · rw [if_pos pending]
              have right : round.treatment server mux.fdLoop = (mux.fdLoop, .fetch) := by
                rw [Round.treatment, if_neg listening, if_pos pending]
              exact .inr ⟨mux.fdLoop, mux.treat .fetch, rfl, scanning.fetch inside ready right,
                inside, Nat.lt_succ_self _, Round.handouts_of_fetch inside ready right⟩
            · rw [if_neg pending]
              have right : round.treatment server mux.fdLoop = (mux.fdLoop, .close) := by
                rw [Round.treatment, if_neg listening, if_neg pending]
              rw [Round.handouts_of_other inside ready right (by decide)]
              exact onwards _ (scanning.close inside ready listening right) rfl
        · rw [if_neg ready, Round.handouts_of_not_mem inside ready]
          exact onwards _ (scanning.skip inside ready) rfl
      · rw [if_neg more]
        have passed : ∀ fd ∈ round.ready, fd < mux.fdLoop := by
          intro fd ready
          by_contra later
          have onRecord := scanning.ahead fd ready (not_lt.mp later)
          have bound := scanning.greatest.2 onRecord
          omega
        have ended := Round.onwards_eq_nil passed
        refine .inl ⟨_, rfl, ⟨⟨scanning.server_eq, scanning.record, scanning.apart, scanning.below,
          scanning.greatest⟩, rfl, ?_, scanning.leads⟩, ?_⟩
        · have account := scanning.account
          rw [Round.agenda, ended, List.map_nil, List.append_nil] at account
          exact account
        · rw [Round.handouts, Round.agenda, ended]
          rfl

theorem serveClients_eq (fuel : Nat) {mux : Multiplexer}
    (scanning : mux.Scanning round server start) (cursor : mux.fdLoop ≤ fdSetSize)
    (enough : fdSetSize < mux.fdLoop + fuel) :
    ∃ after, mux.serveClients round fuel = some (round.handouts server mux.fdLoop, after) ∧
      after.Finished round server start := by
  induction fuel generalizing mux with
  | zero => omega
  | succ fuel induction =>
      have call : mux.socketSrvFetchClient round = fetchLoop round server (fdSetSize + 1) mux := by
        rw [socketSrvFetchClient, scanning.server_eq]
      rw [serveClients, call]
      rcases fetchLoop_cases accepts (fdSetSize + 1) scanning cursor (by omega) with
        ⟨after, result, finished, none⟩ | ⟨fd, after, result, afterScanning, bound, further, handed⟩
      · rw [result, none]
        exact ⟨after, rfl, finished⟩
      · rcases induction afterScanning bound (by omega) with ⟨last, rest, finished⟩
        rw [result, handed]
        dsimp only
        rw [rest]
        exact ⟨last, rfl, finished⟩

end Loops

/-! ## Runs -/

/-- The state between two rounds. -/
structure Idle (server : Nat) (mux : Multiplexer) : Prop extends Recorded server mux where
  rewound : mux.fdLoop = 0

/-- What the kernel promises for a round. -/
structure Admits (server : Nat) (mux : Multiplexer) (round : Round) : Prop where
  some : round.ready.Nonempty
  selected : round.ready ⊆ mux.recordfds
  accepts : round.Accepts server mux.clients

/-- Every ready descriptor is treated once and in the right way, nothing else is treated, and
those with data are handed to the caller. An accepted connection is open and on record from then
on and a closed one is neither; apart from these the connections and the record stay as they
are. -/
structure Serves (server : Nat) (mux : Multiplexer) (round : Round) (fds : List Nat)
    (after : Multiplexer) : Prop where
  served : mux.serveRound round = some (fds, after)
  once : (after.treated.map Attended.fd).Nodup
  ready : ∀ fd, fd ∈ after.treated.map Attended.fd ↔ fd ∈ round.ready
  treated : ∀ attended ∈ after.treated, attended.item = round.treatment server attended.fd
  handed : fds = (after.treated.filter fun attended => attended.attention == .fetch).map Attended.fd
  leads : round.Leads server mux.descriptors after.treated after.descriptors

theorem Idle.serves {server : Nat} {mux : Multiplexer} {round : Round} (idle : mux.Idle server)
    (admits : Admits server mux round) :
    ∃ fds after, Serves server mux round fds after ∧ after.Idle server := by
  have scanning : (mux.selected round).Scanning round server mux.descriptors :=
    ⟨⟨idle.server_eq, idle.record, idle.apart, idle.below, idle.greatest⟩, rfl,
      fun fd ready _ => admits.selected ready, fun _ => Finset.Subset.refl _, by
        show [] ++ round.agenda server mux.fdLoop = round.agenda server 0
        rw [idle.rewound]
        rfl, rfl⟩
  have start : (mux.selected round).fdLoop = 0 := idle.rewound
  have waited : mux.socketSrvWait round = (true, mux.selected round) := by
    rw [socketSrvWait, idle.server_eq]
    simp [admits.some]
  rcases serveClients_eq admits.accepts (fdSetSize + 1) scanning (by omega) (by omega) with
    ⟨after, served, finished⟩
  have below : ∀ fd ∈ round.ready, fd < fdSetSize := fun fd ready =>
    idle.below fd (admits.selected ready)
  have fds : after.treated.map Attended.fd = round.onwards 0 := by
    rw [← Round.fst_agenda round server, ← finished.complete, List.map_map]
    rfl
  rw [start] at served
  refine ⟨round.handouts server 0, after, ⟨?_, ?_, ?_, ?_, ?_, finished.leads⟩,
    ⟨finished.toRecorded, finished.rewound⟩⟩
  · rw [serveRound, waited]
    exact served
  · rw [fds]
    exact round.nodup_onwards
  · intro fd
    rw [fds]
    exact Round.mem_onwards below
  · intro attended member
    have planned : attended.item ∈ round.agenda server 0 := by
      rw [← finished.complete]
      exact List.mem_map_of_mem member
    rcases List.mem_map.mp planned with ⟨fd, _, equal⟩
    have same : fd = attended.fd := congrArg Prod.fst equal
    rw [← equal, same]
  · rw [Round.handouts, ← finished.complete, List.filter_map, List.map_map]
    rfl

/-- `main`'s loop; the program ends where a round has no result. -/
def step (mux : Multiplexer) (round : Round) : Multiplexer :=
  ((mux.serveRound round).map Prod.snd).getD mux

theorem step_idle (server : Nat) (mux : Multiplexer) (round : Round) (idle : mux.Idle server)
    (admits : Admits server mux round) : (mux.step round).Idle server := by
  rcases idle.serves admits with ⟨fds, after, serves, settled⟩
  rw [step, serves.served]
  exact settled

/-- In every run of rounds the kernel keeps its promises in, each round is served as it
should be, and in between the record is the listening descriptor and the open
connections, `max_fd_num` its maximum and `fd_loop` zero. -/
theorem runs_serve (sockfd : Nat) (small : sockfd < fdSetSize) (rounds : List Round)
    (promises : Execution.Along step (Admits sockfd) (socketSrvInit sockfd) rounds) :
    Execution.Always step (Idle sockfd) (socketSrvInit sockfd) rounds ∧
      Execution.Along step
        (fun mux round => ∃ fds after, Serves sockfd mux round fds after ∧
          mux.step round = after)
        (socketSrvInit sockfd) rounds := by
  have start : (socketSrvInit sockfd).Idle sockfd := by
    refine ⟨⟨rfl, rfl, Finset.notMem_empty _, ?_, ?_⟩, rfl⟩
    · intro fd member
      rw [Finset.mem_singleton.mp member]
      exact small
    · refine ⟨Finset.mem_coe.mpr (Finset.mem_singleton_self _), ?_⟩
      intro fd member
      exact (Finset.mem_singleton.mp member).le
  apply Execution.always_and_along_of_along (step_idle sockfd) (fun _ idle => idle) _ start promises
  intro mux round idle admits
  rcases idle.serves admits with ⟨fds, after, serves, _⟩
  refine ⟨fds, after, serves, ?_⟩
  rw [step, serves.served]
  rfl

/-! The listening descriptor is 7. A first round accepts connection 4; in the second, 4 is
closed and its number comes back for the connection accepted after it. -/

def sampleRound (ready : Finset Nat) : Round where
  ready := ready
  accept openfds := some (if 4 ∈ openfds then 5 else 4)
  pending _ := false

theorem sampleRound_accepts (ready : Finset Nat) {clients : Finset Nat} (few : clients ⊆ {4}) :
    (sampleRound ready).Accepts 7 clients := by
  intro others within
  have small : ∀ fd ∈ others, fd = 4 := fun fd member =>
    Finset.mem_singleton.mp (few (within member))
  by_cases taken : 4 ∈ insert 7 others
  · refine ⟨5, by simp only [sampleRound, if_pos taken], ?_, by decide⟩
    intro member
    rcases Finset.mem_insert.mp member with equal | member
    · exact absurd equal (by decide)
    · exact absurd (small 5 member) (by decide)
  · exact ⟨4, by simp only [sampleRound, if_neg taken], taken, by decide⟩

theorem runs_serve_reused_number :
    Execution.Always step (Idle 7) (socketSrvInit 7) [sampleRound {7}, sampleRound {4, 7}] ∧
      Execution.Along step
        (fun mux round => ∃ fds after, Serves 7 mux round fds after ∧ mux.step round = after)
        (socketSrvInit 7) [sampleRound {7}, sampleRound {4, 7}] := by
  have record : ((socketSrvInit 7).step (sampleRound {7})).recordfds = {4, 7} := by decide
  have clients : ((socketSrvInit 7).step (sampleRound {7})).clients = {4} := by decide
  apply runs_serve 7 (by decide)
  refine ⟨⟨by decide, by decide, sampleRound_accepts _ (by decide)⟩, ⟨by decide, ?_, ?_⟩, trivial⟩
  · rw [record]
    decide
  · rw [clients]
    exact sampleRound_accepts _ (by decide)

end Multiplexer

end Bookshelfdq
