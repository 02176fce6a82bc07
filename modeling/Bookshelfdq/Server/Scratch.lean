import Bookshelfdq.Server.Service

/-! # What a request leaves on the connection

The stored result set, the counts and the error mark of `my_connection` outlive the request that
they belong to. No request looks at what an earlier one left there: its replies and its effect on
the tables come from the tables, the settings and the outcomes of its own calls. -/

namespace Bookshelfdq

section Definitions

variable (accounts : List AccountRow → List AccountRow → Prop)

/-- Two connections that differ at most in what an earlier request left behind; their accounts
tables are related by `accounts`. -/
structure Mysql.Agrees (left right : Mysql) : Prop where
  mode : left.mode = right.mode
  collation : left.collation = right.collation
  archive : left.archive = right.archive
  accounts : accounts left.accounts right.accounts
  faults : left.faults = right.faults

/-- They hold the same stored result set as well. -/
structure Mysql.AgreesOnResult (left right : Mysql) : Prop
    extends Mysql.Agrees accounts left right where
  resPtr : left.resPtr = right.resPtr
  resRows : left.resRows = right.resRows

/-- The results of one call on two connections. -/
def Mysql.Alike (left right : α × Mysql) : Prop :=
  left.1 = right.1 ∧ left.2.Agrees accounts right.2

/-- The same for a call that changes the message, too. -/
def Mysql.AlikeReply (left right : α × MessageCs × Mysql) : Prop :=
  left.1 = right.1 ∧ Mysql.Alike accounts left.2 right.2

end Definitions

variable {accounts : List AccountRow → List AccountRow → Prop}

namespace Mysql

theorem Agrees.nextFault {left right : Mysql} (agree : left.Agrees accounts right) :
    left.nextFault = right.nextFault := by
  simp [Mysql.nextFault, agree.faults]

theorem Agrees.advance {left right : Mysql} (agree : left.Agrees accounts right) :
    left.advance.Agrees accounts right.advance where
  mode := agree.mode
  collation := agree.collation
  archive := agree.archive
  accounts := agree.accounts
  faults := congrArg List.tail agree.faults

theorem Agrees.fail {left right : Mysql} (agree : left.Agrees accounts right) :
    left.fail.Agrees accounts right.fail where
  mode := agree.mode
  collation := agree.collation
  archive := agree.archive
  accounts := agree.accounts
  faults := congrArg List.tail agree.faults

theorem AgreesOnResult.advance {left right : Mysql} (agree : left.AgreesOnResult accounts right) :
    left.advance.AgreesOnResult accounts right.advance where
  toAgrees := agree.toAgrees.advance
  resPtr := agree.resPtr
  resRows := agree.resRows

theorem Agrees.storeResult {left right : Mysql} (agree : left.Agrees accounts right)
    (rows : List ResultRow) (fields : Nat) :
    (left.storeResult rows fields).AgreesOnResult accounts (right.storeResult rows fields) where
  mode := agree.mode
  collation := agree.collation
  archive := agree.archive
  accounts := agree.accounts
  faults := congrArg List.tail agree.faults
  resPtr := rfl
  resRows := rfl

theorem Agrees.freeResult {left right : Mysql} (agree : left.Agrees accounts right) :
    (srvdbFreeResult left).AgreesOnResult accounts (srvdbFreeResult right) where
  mode := agree.mode
  collation := agree.collation
  archive := agree.archive
  accounts := agree.accounts
  faults := agree.faults
  resPtr := rfl
  resRows := rfl

end Mysql

/-! ## Library calls -/

section Calls

variable {left right : Mysql} (agree : left.Agrees accounts right)

include agree

theorem mysqlQuery_agree {statement : Mysql → Option Mysql} {related : Mysql → Mysql → Prop}
    (respects : ∀ left right : Mysql, left.Agrees accounts right →
      Option.Rel related (statement left) (statement right)) :
    (∃ leftAfter rightAfter, mysqlQuery statement left = (false, leftAfter) ∧
      mysqlQuery statement right = (false, rightAfter) ∧ leftAfter.Agrees accounts rightAfter) ∨
    (∃ leftAfter rightAfter, mysqlQuery statement left = (true, leftAfter) ∧
      mysqlQuery statement right = (true, rightAfter) ∧ related leftAfter rightAfter) := by
  simp only [mysqlQuery, ← agree.nextFault]
  split
  · exact .inl ⟨_, _, rfl, rfl, agree.fail⟩
  · have same := respects _ _ agree.advance
    cases leftResult : statement left.advance with
    | none =>
        cases rightResult : statement right.advance with
        | none => exact .inl ⟨_, _, rfl, rfl, agree.fail⟩
        | some rightAfter =>
            rw [leftResult, rightResult] at same
            cases same
    | some leftAfter =>
        cases rightResult : statement right.advance with
        | none =>
            rw [leftResult, rightResult] at same
            cases same
        | some rightAfter =>
            rw [leftResult, rightResult] at same
            cases same with
            | some related => exact .inr ⟨_, _, rfl, rfl, related⟩

theorem mysqlSelect_agree : ∃ accepted leftAfter rightAfter,
    mysqlSelect left = (accepted, leftAfter) ∧ mysqlSelect right = (accepted, rightAfter) ∧
      leftAfter.Agrees accounts rightAfter := by
  have respects : ∀ left right : Mysql, left.Agrees accounts right →
      Option.Rel (Mysql.Agrees accounts) (some left) (some right) := fun _ _ agree => .some agree
  rcases mysqlQuery_agree agree respects with failed | accepted
  · exact ⟨false, failed⟩
  · exact ⟨true, accepted⟩

theorem getSimpleResult_agree (value : Option α) : ∃ found leftAfter rightAfter,
    getSimpleResult value left = (found, leftAfter) ∧
      getSimpleResult value right = (found, rightAfter) ∧ leftAfter.Agrees accounts rightAfter := by
  simp only [getSimpleResult, ← agree.nextFault]
  split
  · exact ⟨none, _, _, rfl, rfl, agree.fail⟩
  · exact ⟨value, _, _, rfl, rfl, agree.advance⟩

end Calls

/-! ## The functions -/

section Functions

variable {left right : Mysql} (agree : left.Agrees accounts right)

include agree

theorem Mysql.Alike.of_same (value : α) : Mysql.Alike accounts (value, left) (value, right) :=
  ⟨rfl, agree⟩

theorem Mysql.AlikeReply.of_same (value : α) (msg : MessageCs) :
    Mysql.AlikeReply accounts (value, msg, left) (value, msg, right) :=
  ⟨rfl, rfl, agree⟩

theorem execute_alike {statement : Mysql → Option Mysql} (msg : MessageCs)
    (respects : ∀ left right : Mysql, left.Agrees accounts right →
      Option.Rel (Mysql.Agrees accounts) (statement left) (statement right)) :
    Mysql.Alike accounts (execute msg statement left) (execute msg statement right) := by
  rw [execute, execute]
  split
  · exact .of_same agree false
  · rcases mysqlQuery_agree agree respects with ⟨_, _, leftResult, rightResult, agree⟩ |
      ⟨_, _, leftResult, rightResult, agree⟩
    · rw [leftResult, rightResult]
      exact .of_same agree false
    · rw [leftResult, rightResult]
      exact .of_same agree true

theorem updateBooks_agree (selected : BookRow → Bool) (change : BookRow → Option BookRow) :
    Option.Rel (Mysql.Agrees accounts) (updateBooks selected change left)
      (updateBooks selected change right) := by
  rw [updateBooks, updateBooks, agree.archive]
  cases Table.update selected change right.archive.books with
  | none => exact .none
  | some books =>
      apply Option.Rel.some
      exact ⟨agree.mode, agree.collation, rfl, agree.accounts, agree.faults⟩

theorem updateShelves_agree (selected : ShelfRow → Bool) (change : ShelfRow → Option ShelfRow) :
    Option.Rel (Mysql.Agrees accounts) (updateShelves selected change left)
      (updateShelves selected change right) := by
  rw [updateShelves, updateShelves, agree.archive]
  cases Table.update selected change right.archive.shelves with
  | none => exact .none
  | some shelves =>
      apply Option.Rel.some
      exact ⟨agree.mode, agree.collation, rfl, agree.accounts, agree.faults⟩

theorem srvdbBookDelete_alike (msg : MessageCs) :
    Mysql.Alike accounts (srvdbBookDelete msg left) (srvdbBookDelete msg right) :=
  execute_alike agree msg fun _ _ agree => updateBooks_agree agree _ _

theorem srvdbBookUpdate_alike (msg : MessageCs) :
    Mysql.Alike accounts (srvdbBookUpdate msg left) (srvdbBookUpdate msg right) := by
  simp only [srvdbBookUpdate]
  split
  · exact execute_alike agree msg fun _ _ agree => updateBooks_agree agree _ _
  · apply execute_alike agree msg
    intro left right agree
    split
    · rw [agree.mode]
      exact updateBooks_agree agree _ _
    · exact .none

theorem srvdbShelfRemove_alike (msg : MessageCs) :
    Mysql.Alike accounts (srvdbShelfRemove msg left) (srvdbShelfRemove msg right) :=
  execute_alike agree msg fun _ _ agree => updateShelves_agree agree _ _

end Functions

/-! ### Allocation -/

namespace Allocation

variable {Row : Type} [DecidableEq Row] (alloc : Allocation Row) {left right : Mysql}
  (agree : left.Agrees accounts right)

include agree

theorem updateStatement_agree (number : Int) :
    Option.Rel (fun left right : Mysql =>
        left.Agrees accounts right ∧ left.affectedRows = right.affectedRows)
      (alloc.updateStatement number left) (alloc.updateStatement number right) := by
  rw [updateStatement, updateStatement, agree.archive]
  split
  · cases Table.update (fun row => alloc.number row == number) alloc.renew
        (alloc.rows right.archive) with
    | none => exact .none
    | some rows =>
        apply Option.Rel.some
        exact ⟨⟨agree.mode, agree.collation, rfl, agree.accounts, agree.faults⟩, rfl⟩
  · exact .none

omit [DecidableEq Row] in
theorem insertStatement_agree (number : Int) :
    Option.Rel (Mysql.Agrees accounts) (alloc.insertStatement number left)
      (alloc.insertStatement number right) := by
  rw [insertStatement, insertStatement, agree.archive]
  split
  · cases alloc.create number with
    | none => exact .none
    | some row =>
        simp only [Option.bind_some]
        cases Table.insert alloc.number row (alloc.rows right.archive) with
        | none => exact .none
        | some rows =>
            apply Option.Rel.some
            exact ⟨agree.mode, agree.collation, rfl, agree.accounts, agree.faults⟩
  · exact .none

theorem reuse_alike (msg : MessageCs) :
    Mysql.Alike accounts (alloc.reuse msg left) (alloc.reuse msg right) := by
  rw [reuse, reuse]
  rcases mysqlSelect_agree agree with ⟨accepted, _, _, leftResult, rightResult, agree⟩
  rw [leftResult, rightResult]
  cases accepted with
  | false => exact .of_same agree none
  | true =>
      simp only [agree.archive]
      rcases getSimpleResult_agree agree (alloc.smallestDeleted _) with
        ⟨found, _, _, leftResult, rightResult, agree⟩
      rw [leftResult, rightResult]
      cases found with
      | none => exact .of_same agree none
      | some number =>
          rcases mysqlQuery_agree agree (fun _ _ agree => alloc.updateStatement_agree agree number)
            with ⟨_, _, leftResult, rightResult, agree⟩ | ⟨_, _, leftResult, rightResult, same⟩
          · simp only [leftResult, rightResult]
            exact .of_same agree none
          · simp only [leftResult, rightResult, same.2]
            split
            · exact .of_same same.1 _
            · exact .of_same same.1 none

omit [DecidableEq Row] in
theorem insertAt_alike (number : Int) (msg : MessageCs) :
    Mysql.AlikeReply accounts (alloc.insertAt number msg left)
      (alloc.insertAt number msg right) := by
  rw [insertAt, insertAt]
  rcases mysqlQuery_agree agree (fun _ _ agree => alloc.insertStatement_agree agree number)
    with ⟨_, _, leftResult, rightResult, agree⟩ | ⟨_, _, leftResult, rightResult, agree⟩
  · rw [leftResult, rightResult]
    exact .of_same agree false _
  · rw [leftResult, rightResult]
    exact .of_same agree true _

omit [DecidableEq Row] in
theorem extend_alike (msg : MessageCs) :
    Mysql.AlikeReply accounts (alloc.extend msg left) (alloc.extend msg right) := by
  rw [extend, extend]
  rcases mysqlSelect_agree agree with ⟨accepted, _, _, leftResult, rightResult, agree⟩
  rw [leftResult, rightResult]
  cases accepted with
  | false => exact .of_same agree false msg
  | true =>
      simp only [agree.archive]
      rcases getSimpleResult_agree agree (alloc.largest _) with
        ⟨found, _, _, leftResult, rightResult, agree⟩
      rw [leftResult, rightResult]
      cases found with
      | none => exact alloc.insertAt_alike agree 1 msg
      | some number =>
          dsimp only
          split
          · exact .of_same agree false _
          · exact alloc.insertAt_alike agree (number + 1) msg

theorem allocate_alike (msg : MessageCs) :
    Mysql.AlikeReply accounts (alloc.allocate msg left) (alloc.allocate msg right) := by
  rw [allocate, allocate]
  split
  · exact .of_same agree false msg
  · have reused := alloc.reuse_alike agree msg
    rcases leftResult : alloc.reuse msg left with ⟨found, leftAfter⟩
    rcases rightResult : alloc.reuse msg right with ⟨_, rightAfter⟩
    rw [leftResult, rightResult] at reused
    rcases reused with ⟨rfl, agree⟩
    cases found with
    | none => exact alloc.extend_alike agree msg
    | some msg => exact .of_same agree true msg

end Allocation

/-! ### Books and shelves -/

section Queries

variable {left right : Mysql} (agree : left.Agrees accounts right)

include agree

theorem srvdbBookInsert_alike (msg : MessageCs) :
    Mysql.AlikeReply accounts (srvdbBookInsert msg left) (srvdbBookInsert msg right) := by
  rw [srvdbBookInsert, srvdbBookInsert, agree.mode]
  exact Allocation.allocate_alike _ agree msg

theorem srvdbShelfBuild_alike (msg : MessageCs) :
    Mysql.AlikeReply accounts (srvdbShelfBuild msg left) (srvdbShelfBuild msg right) := by
  rw [srvdbShelfBuild, srvdbShelfBuild, agree.mode]
  exact Allocation.allocate_alike _ agree msg

/-- A find that succeeds has replaced the stored result set. -/
theorem srvdbBookFind_agree (msg : MessageCs) :
    (∃ leftAfter rightAfter, srvdbBookFind msg left = (none, leftAfter) ∧
      srvdbBookFind msg right = (none, rightAfter) ∧ leftAfter.Agrees accounts rightAfter) ∨
    ∃ nrows leftAfter rightAfter, srvdbBookFind msg left = (some nrows, leftAfter) ∧
      srvdbBookFind msg right = (some nrows, rightAfter) ∧
      leftAfter.AgreesOnResult accounts rightAfter := by
  simp only [srvdbBookFind, agree.collation, agree.archive]
  split
  · exact .inl ⟨_, _, rfl, rfl, agree⟩
  · split
    · exact .inl ⟨_, _, rfl, rfl, agree⟩
    · rcases mysqlSelect_agree agree with ⟨accepted, leftAsked, rightAsked, leftResult,
        rightResult, agree⟩
      rw [leftResult, rightResult]
      cases accepted with
      | false => exact .inl ⟨_, _, rfl, rfl, agree⟩
      | true =>
          simp only [← agree.nextFault]
          split
          · have failed := agree.fail
            exact .inl ⟨_, _, rfl, rfl, failed.mode, failed.collation, failed.archive,
              failed.accounts, failed.faults⟩
          · split
            · exact .inr ⟨_, _, _, rfl, rfl, (agree.storeResult _ 1).toAgrees.freeResult⟩
            · exact .inr ⟨_, _, _, rfl, rfl, agree.storeResult _ 10⟩

theorem srvdbShelfFind_agree (msg : MessageCs) :
    (∃ leftAfter rightAfter, srvdbShelfFind msg left = (none, leftAfter) ∧
      srvdbShelfFind msg right = (none, rightAfter) ∧ leftAfter.Agrees accounts rightAfter) ∨
    ∃ nrows leftAfter rightAfter, srvdbShelfFind msg left = (some nrows, leftAfter) ∧
      srvdbShelfFind msg right = (some nrows, rightAfter) ∧
      leftAfter.AgreesOnResult accounts rightAfter := by
  simp only [srvdbShelfFind, agree.archive]
  split
  · exact .inl ⟨_, _, rfl, rfl, agree⟩
  · rcases mysqlSelect_agree agree with ⟨accepted, leftAsked, rightAsked, leftResult,
      rightResult, agree⟩
    rw [leftResult, rightResult]
    cases accepted with
    | false => exact .inl ⟨_, _, rfl, rfl, agree⟩
    | true =>
        simp only [← agree.nextFault]
        split
        · have failed := agree.fail
          exact .inl ⟨_, _, rfl, rfl, failed.mode, failed.collation, failed.archive,
            failed.accounts, failed.faults⟩
        · exact .inr ⟨_, _, _, rfl, rfl, agree.storeResult _ _⟩

theorem srvdbBookCount_alike (msg : MessageCs) :
    Mysql.AlikeReply accounts (srvdbBookCount msg left) (srvdbBookCount msg right) := by
  simp only [srvdbBookCount]
  rcases srvdbBookFind_agree agree msg.countOnReading with
    ⟨_, _, leftResult, rightResult, agree⟩ | ⟨_, _, _, leftResult, rightResult, agree⟩
  · rw [leftResult, rightResult]
    exact .of_same agree false _
  rw [leftResult, rightResult]
  dsimp only
  rcases srvdbBookFind_agree agree.toAgrees msg.countOnReading.countBorrowed with
    ⟨_, _, leftResult, rightResult, agree⟩ | ⟨_, _, _, leftResult, rightResult, agree⟩
  · rw [leftResult, rightResult]
    exact .of_same agree false _
  rw [leftResult, rightResult]
  dsimp only
  rcases srvdbBookFind_agree agree.toAgrees msg.countOnReading.countBorrowed.countUnsorted with
    ⟨_, _, leftResult, rightResult, agree⟩ | ⟨_, _, _, leftResult, rightResult, agree⟩
  · rw [leftResult, rightResult]
    exact .of_same agree false _
  rw [leftResult, rightResult]
  dsimp only
  rcases srvdbBookFind_agree agree.toAgrees
      msg.countOnReading.countBorrowed.countUnsorted.countAll with
    ⟨_, _, leftResult, rightResult, agree⟩ | ⟨_, _, _, leftResult, rightResult, agree⟩
  · rw [leftResult, rightResult]
    exact .of_same agree false _
  · rw [leftResult, rightResult]
    exact .of_same agree.toAgrees true _

theorem srvdbShelfCount_alike (msg : MessageCs) :
    Mysql.AlikeReply accounts (srvdbShelfCount msg left) (srvdbShelfCount msg right) := by
  simp only [srvdbShelfCount]
  rcases srvdbShelfFind_agree agree (msg.setShelfno breakLimitInt) with
    ⟨_, _, leftResult, rightResult, agree⟩ | ⟨_, _, _, leftResult, rightResult, agree⟩
  · rw [leftResult, rightResult]
    exact .of_same agree false _
  · rw [leftResult, rightResult]
    exact .of_same agree.toAgrees.freeResult.toAgrees true _

end Queries

/-! ### Fetching -/

/-- A fetch that looks at the stored result set only. -/
def FetchesAlike (accounts : List AccountRow → List AccountRow → Prop)
    (fetch : MessageCs → Mysql → FetchResult × MessageCs × Mysql) : Prop :=
  ∀ (msg : MessageCs) (left right : Mysql), left.AgreesOnResult accounts right →
    ∃ outcome fetched leftAfter rightAfter, fetch msg left = (outcome, fetched, leftAfter) ∧
      fetch msg right = (outcome, fetched, rightAfter) ∧
        leftAfter.AgreesOnResult accounts rightAfter

theorem fetchResult_alike (decode : ResultRow → MessageCs → Option MessageCs)
    (rows : List ResultRow) : FetchesAlike accounts (fetchResult decode rows) := by
  intro msg left right agree
  simp only [fetchResult, ← agree.toAgrees.nextFault]
  split
  · exact ⟨_, _, _, _, rfl, rfl, agree.toAgrees.fail.freeResult⟩
  · cases rows with
    | nil =>
        simp only [← agree.resRows]
        split
        · exact ⟨_, _, _, _, rfl, rfl, agree.advance⟩
        · exact ⟨_, _, _, _, rfl, rfl, agree.toAgrees.advance.freeResult⟩
    | cons row rest =>
        dsimp only
        cases decode row msg with
        | none => exact ⟨_, _, _, _, rfl, rfl, agree.toAgrees.advance.freeResult⟩
        | some fetched =>
            have advanced := agree.advance
            exact ⟨_, _, _, _, rfl, rfl, ⟨advanced.mode, advanced.collation, advanced.archive,
              advanced.accounts, advanced.faults⟩, rfl, advanced.resRows⟩

theorem srvdbBookFetchResult_alike : FetchesAlike accounts srvdbBookFetchResult := by
  intro msg left right agree
  simp only [srvdbBookFetchResult, agree.resPtr]
  cases right.resPtr with
  | none => exact ⟨_, _, _, _, rfl, rfl, agree⟩
  | some rows => exact fetchResult_alike decodeBook rows msg left right agree

theorem srvdbShelfFetchResult_alike : FetchesAlike accounts srvdbShelfFetchResult := by
  intro msg left right agree
  simp only [srvdbShelfFetchResult, agree.resPtr]
  exact fetchResult_alike decodeShelf _ msg left right agree

/-! ### Accounts -/

section Accounts

variable {left right : Mysql} (agree : left.Agrees Eq right)

include agree

theorem srvdbAccountVerify_alike (bcrypt : Bcrypt) (msg : MessageCs) :
    Mysql.AlikeReply Eq (srvdbAccountVerify bcrypt msg left)
      (srvdbAccountVerify bcrypt msg right) := by
  simp only [srvdbAccountVerify]
  split
  · exact .of_same agree false msg
  rcases mysqlSelect_agree agree with ⟨accepted, _, _, leftResult, rightResult, agree⟩
  rw [leftResult, rightResult]
  cases accepted with
  | false => exact .of_same agree false msg
  | true =>
      simp only [agree.accounts]
      rcases getSimpleResult_agree agree (Option.map AccountRow.type _) with
        ⟨type, _, _, leftResult, rightResult, agree⟩
      rw [leftResult, rightResult]
      cases type with
      | none => exact .of_same agree false msg
      | some type =>
          dsimp only
          split
          · exact .of_same agree false _
          rcases mysqlSelect_agree agree with ⟨accepted, _, _, leftResult, rightResult, agree⟩
          rw [leftResult, rightResult]
          cases accepted with
          | false => exact .of_same agree false msg
          | true =>
              simp only [agree.accounts]
              rcases getSimpleResult_agree agree (Option.map AccountRow.password _) with
                ⟨hash, _, _, leftResult, rightResult, agree⟩
              rw [leftResult, rightResult]
              cases hash with
              | none => exact .of_same agree false msg
              | some hash =>
                  dsimp only
                  split
                  · exact .of_same agree false msg
                  · split
                    · exact .of_same agree true msg
                    · exact .of_same agree false _

theorem insertAccount_agree (account : AccountEntry) (hash : String) :
    Option.Rel (Mysql.Agrees Eq) (insertAccount account hash left)
      (insertAccount account hash right) := by
  rw [insertAccount, insertAccount, agree.mode, agree.accounts]
  cases right.mode.store 200 account.name with
  | none => exact .none
  | some name =>
      cases right.mode.store 200 hash with
      | none => exact .none
      | some password =>
          apply Option.Rel.some
          exact ⟨rfl, agree.collation, agree.archive, rfl, agree.faults⟩

theorem srvdbAccountRegister_alike (bcrypt : Bcrypt) (salt : Option String) (msg : MessageCs) :
    Mysql.AlikeReply Eq (srvdbAccountRegister bcrypt salt msg left)
      (srvdbAccountRegister bcrypt salt msg right) := by
  simp only [srvdbAccountRegister]
  split
  · exact .of_same agree false msg
  rcases mysqlSelect_agree agree with ⟨accepted, _, _, leftResult, rightResult, agree⟩
  rw [leftResult, rightResult]
  cases accepted with
  | false => exact .of_same agree false msg
  | true =>
      simp only [agree.accounts]
      rcases getSimpleResult_agree agree (some (List.length _)) with
        ⟨users, _, _, leftResult, rightResult, agree⟩
      rw [leftResult, rightResult]
      cases users with
      | none => exact .of_same agree false msg
      | some users =>
          dsimp only
          split
          · exact .of_same agree false _
          rcases mysqlSelect_agree agree with ⟨accepted, _, _, leftResult, rightResult, agree⟩
          rw [leftResult, rightResult]
          cases accepted with
          | false => exact .of_same agree false msg
          | true =>
              simp only [agree.accounts]
              rcases getSimpleResult_agree agree (some (List.countP _ _)) with
                ⟨namesakes, _, _, leftResult, rightResult, agree⟩
              rw [leftResult, rightResult]
              cases namesakes with
              | none => exact .of_same agree false msg
              | some namesakes =>
                  dsimp only
                  split
                  · exact .of_same agree false _
                  cases salt.bind (bcrypt.hashpw msg.stuff.account.password) with
                  | none => exact .of_same agree false msg
                  | some hash =>
                      rcases mysqlQuery_agree agree (fun _ _ agree =>
                        insertAccount_agree agree msg.stuff.account hash) with
                        ⟨_, _, leftResult, rightResult, agree⟩ |
                        ⟨_, _, leftResult, rightResult, agree⟩
                      · simp only [leftResult, rightResult]
                        exact .of_same agree false msg
                      · simp only [leftResult, rightResult]
                        exact .of_same agree true msg

theorem srvdbUserArchiveInit_alike :
    Mysql.Alike Eq (srvdbUserArchiveInit left) (srvdbUserArchiveInit right) := by
  rw [srvdbUserArchiveInit, srvdbUserArchiveInit]
  rcases mysqlSelect_agree agree with ⟨accepted, _, _, leftResult, rightResult, agree⟩
  rw [leftResult, rightResult]
  cases accepted with
  | false => exact .of_same agree false
  | true =>
      rcases mysqlSelect_agree agree with ⟨accepted, _, _, leftResult, rightResult, agree⟩
      simp only [leftResult, rightResult]
      exact .of_same agree accepted

end Accounts

/-! ## One request -/

section Definitions

variable (accounts : List AccountRow → List AccountRow → Prop)

/-- The same for two servers. -/
structure Server.Agrees (left right : Server) : Prop where
  db : left.db.Agrees accounts right.db
  bcrypt : left.bcrypt = right.bcrypt
  salts : left.salts = right.salts
  sendFaults : left.sendFaults = right.sendFaults

/-- The same result and replies, and servers that agree. -/
structure Answer.Alike accounts (left right : Answer) : Prop where
  result : left.1 = right.1
  replies : left.2.1 = right.2.1
  server : left.2.2.Agrees accounts right.2.2

end Definitions

namespace Server

variable {left right : Server}

theorem Agrees.withDb (agree : left.Agrees accounts right) {leftDb rightDb : Mysql}
    (same : leftDb.Agrees accounts rightDb) : 
    (left.withDb leftDb).Agrees accounts (right.withDb rightDb) :=
  ⟨same, agree.bcrypt, agree.salts, agree.sendFaults⟩

theorem Agrees.send (agree : left.Agrees accounts right) (msg : MessageCs) :
    Answer.Alike accounts (left.send msg) (right.send msg) := by
  have after : Server.Agrees accounts { left with sendFaults := left.sendFaults.tail }
      { right with sendFaults := right.sendFaults.tail } :=
    ⟨agree.db, agree.bcrypt, agree.salts, congrArg List.tail agree.sendFaults⟩
  simp only [Server.send, agree.sendFaults] at after ⊢
  split
  · exact ⟨rfl, rfl, after⟩
  · exact ⟨rfl, rfl, after⟩

theorem Agrees.answer (agree : left.Agrees accounts right)
    {leftResult rightResult : Bool × MessageCs × Mysql}
    (same : Mysql.AlikeReply accounts leftResult rightResult) :
    Answer.Alike accounts (left.answer leftResult) (right.answer rightResult) := by
  rw [Server.answer, Server.answer, same.1, same.2.1]
  exact (agree.withDb same.2.2).send _

end Server

theorem sendRows_alike {fetch : MessageCs → Mysql → FetchResult × MessageCs × Mysql}
    (fetches : FetchesAlike accounts fetch) (fuel : Nat) (msg : MessageCs) {left right : Server}
    (agree : left.Agrees accounts right) (stored : left.db.AgreesOnResult accounts right.db) :
    Answer.Alike accounts (sendRows fetch fuel msg left) (sendRows fetch fuel msg right) := by
  induction fuel generalizing msg left right with
  | zero => exact ⟨rfl, rfl, agree⟩
  | succ fuel induction =>
      rcases fetches msg left.db right.db stored with
        ⟨outcome, fetched, leftAfter, rightAfter, leftResult, rightResult, same⟩
      have next := agree.withDb same.toAgrees
      simp only [sendRows, leftResult, rightResult]
      cases outcome with
      | err => exact ⟨rfl, rfl, next⟩
      | finish => exact next.send _
      | endMore => exact next.send _
      | cont =>
          have sent := next.send (fetched.respond .success)
          have leftDb := Server.send_db (fetched.respond .success) (left.withDb leftAfter)
          have rightDb := Server.send_db (fetched.respond .success) (right.withDb rightAfter)
          rcases leftSent : (left.withDb leftAfter).send (fetched.respond .success) with
            ⟨result, replies, leftNext⟩
          rcases rightSent : (right.withDb rightAfter).send (fetched.respond .success) with
            ⟨_, _, rightNext⟩
          rw [leftSent] at sent leftDb
          rw [rightSent] at sent rightDb
          rcases sent with ⟨rfl, rfl, sent⟩
          dsimp only at sent ⊢
          rw [leftSent, rightSent]
          cases result with
          | false => exact ⟨rfl, rfl, sent⟩
          | true =>
              have kept : leftNext.db.AgreesOnResult accounts rightNext.db := by
                rw [leftDb, rightDb]
                exact same
              have rest := induction (fetched.respond .success) sent kept
              exact ⟨rest.result, congrArg (replies ++ ·) rest.replies, rest.server⟩

def ClientRequest.asksAccounts : ClientRequest → Bool
  | .verifyAccount | .registerAccount => true
  | _ => false

/-- The answer to a request for books or shelves depends neither on what earlier requests left on
the connection nor on the accounts. -/
theorem socketSrvHandle_alike_of_archive {request : MessageCs}
    (archive : request.request.asksAccounts = false) {left right : Server}
    (agree : left.Agrees accounts right) :
    Answer.Alike accounts (socketSrvHandle request left) (socketSrvHandle request right) := by
  cases kind : request.request with
  | verifyAccount => simp [ClientRequest.asksAccounts, kind] at archive
  | registerAccount => simp [ClientRequest.asksAccounts, kind] at archive
  | insertBook =>
      simp only [socketSrvHandle, kind]
      exact agree.answer (srvdbBookInsert_alike agree.db _)
  | deleteBook =>
      simp only [socketSrvHandle, kind]
      have same := fun msg => srvdbBookDelete_alike agree.db msg
      exact agree.answer ⟨(same _).1, rfl, (same _).2⟩
  | updateBook =>
      simp only [socketSrvHandle, kind]
      have same := fun msg => srvdbBookUpdate_alike agree.db msg
      exact agree.answer ⟨(same _).1, rfl, (same _).2⟩
  | findBook =>
      simp only [socketSrvHandle, kind]
      rcases srvdbBookFind_agree agree.db { request with response := .success, errorText := "" }
        with ⟨_, _, leftResult, rightResult, same⟩ | ⟨_, _, _, leftResult, rightResult, same⟩
      · simp only [kind] at leftResult rightResult
        rw [leftResult, rightResult]
        exact (agree.withDb same).send _
      · simp only [kind] at leftResult rightResult
        rw [leftResult, rightResult]
        exact sendRows_alike srvdbBookFetchResult_alike _ _ (agree.withDb same.toAgrees) same
  | countBook =>
      simp only [socketSrvHandle, kind]
      exact agree.answer (srvdbBookCount_alike agree.db _)
  | buildShelf =>
      simp only [socketSrvHandle, kind]
      exact agree.answer (srvdbShelfBuild_alike agree.db _)
  | removeShelf =>
      simp only [socketSrvHandle, kind]
      have same := fun msg => srvdbShelfRemove_alike agree.db msg
      exact agree.answer ⟨(same _).1, rfl, (same _).2⟩
  | findShelf =>
      simp only [socketSrvHandle, kind]
      rcases srvdbShelfFind_agree agree.db { request with response := .success, errorText := "" }
        with ⟨_, _, leftResult, rightResult, same⟩ | ⟨_, _, _, leftResult, rightResult, same⟩
      · simp only [kind] at leftResult rightResult
        rw [leftResult, rightResult]
        exact (agree.withDb same).send _
      · simp only [kind] at leftResult rightResult
        rw [leftResult, rightResult]
        exact sendRows_alike srvdbShelfFetchResult_alike _ _ (agree.withDb same.toAgrees) same
  | countShelf =>
      simp only [socketSrvHandle, kind]
      exact agree.answer (srvdbShelfCount_alike agree.db _)
  | heartbeat =>
      simp only [socketSrvHandle, kind]
      exact ⟨rfl, rfl, agree⟩

/-- The answer to a request does not depend on what earlier requests left on the connection. -/
theorem socketSrvHandle_alike (request : MessageCs) {left right : Server}
    (agree : left.Agrees Eq right) :
    Answer.Alike Eq (socketSrvHandle request left) (socketSrvHandle request right) := by
  cases archive : request.request.asksAccounts with
  | false => exact socketSrvHandle_alike_of_archive archive agree
  | true =>
      cases kind : request.request <;>
        simp only [ClientRequest.asksAccounts, kind, Bool.false_eq_true] at archive
      case verifyAccount =>
        simp only [socketSrvHandle, kind, agree.bcrypt]
        have verified := srvdbAccountVerify_alike agree.db right.bcrypt
          { request with response := .success, errorText := "" }
        simp only [kind] at verified
        rcases leftResult : srvdbAccountVerify right.bcrypt _ left.db with ⟨result, msg, leftAfter⟩
        rcases rightResult : srvdbAccountVerify right.bcrypt _ right.db with ⟨_, _, rightAfter⟩
        rw [leftResult, rightResult] at verified
        rcases verified with ⟨rfl, rfl, same⟩
        cases result with
        | false => exact agree.answer (.of_same same false msg)
        | true =>
            dsimp only
            split
            · have created := srvdbUserArchiveInit_alike same
              exact agree.answer ⟨created.1, rfl, created.2⟩
            · exact agree.answer (.of_same same true msg)
      case registerAccount =>
        simp only [socketSrvHandle, kind, agree.bcrypt, agree.salts]
        have enrolled : Server.Agrees Eq { left with salts := right.salts.tail }
            { right with salts := right.salts.tail } :=
          ⟨agree.db, agree.bcrypt, rfl, agree.sendFaults⟩
        rw [agree.bcrypt] at enrolled
        exact enrolled.answer (srvdbAccountRegister_alike agree.db right.bcrypt _ _)

end Bookshelfdq
