import Bookshelfdq.Client.LoginInput
import Bookshelfdq.Foundation.BoundedMap
import Bookshelfdq.Foundation.Execution
import Bookshelfdq.Server.Replies

/-! # The accounts as a bounded map

Neither the limit nor the uniqueness of names is a constraint of the table: both follow
from the queries that come before an insertion. -/

namespace Bookshelfdq

/-! ## What the server relies on -/

/-- What the server relies on: a password matches its own hash and no other, and a hash
fits the buffer of `BCRYPT_HASHSIZE` bytes. -/
structure Bcrypt.Sound (bcrypt : Bcrypt) : Prop where
  checks : ∀ {password other salt hash}, PasswordAdmitted password → PasswordAdmitted other →
    bcrypt.hashpw other salt = some hash → (bcrypt.checkpw password hash = 0 ↔ password = other)
  short : ∀ {password salt hash}, PasswordAdmitted password →
    bcrypt.hashpw password salt = some hash → hash.length < 64

theorem paddedChars_of_no_blank {text : String} (plain : ' ' ∉ text.toList) :
    paddedChars text = text.toList := by
  rw [paddedChars]
  cases reversed : text.toList.reverse with
  | nil => simpa using reversed.symm
  | cons last rest =>
      have member : last ∈ text.toList := by
        rw [← List.mem_reverse, reversed]
        exact List.mem_cons_self
      have solid : (last == ' ') = false := by
        apply beq_eq_false_iff_ne.mpr
        rintro rfl
        exact plain member
      rw [List.dropWhile_cons, solid, if_neg Bool.false_ne_true, ← reversed, List.reverse_reverse]

theorem sameChars_beq (left right : List Char) :
    sameChars (fun left right => left == right) left right = decide (left = right) := by
  induction left generalizing right with
  | nil => cases right <;> simp [sameChars]
  | cons character left induction =>
      cases right with
      | nil => simp [sameChars]
      | cons other right =>
          apply Bool.eq_iff_iff.mpr
          simp [sameChars, induction]

theorem AccountRow.isNamed_eq {row : AccountRow} {name : String} (rowPlain : ' ' ∉ row.name.toList)
    (plain : ' ' ∉ name.toList) : row.isNamed name = decide (row.name = name) := by
  rw [isNamed, sqlEqual, paddedChars_of_no_blank rowPlain, paddedChars_of_no_blank plain,
    sameChars_beq]
  exact decide_eq_decide.mpr String.toList_inj

theorem NameAdmitted.plain {name : String} (admitted : NameAdmitted name) :
    ' ' ∉ name.toList := by
  intro member
  have admits := List.all_eq_true.mp admitted.chars ' ' member
  exact absurd admits (by decide)

theorem NameAdmitted.fits {name : String} (admitted : NameAdmitted name) : name.length ≤ 200 :=
  admitted.atMost.trans (by decide)

/-! ## Calls -/

inductive AccountCall
  | tableInit (salt : Option String)
  | register (salt : Option String) (msg : MessageCs)
  | update (salt : Option String) (msg : MessageCs)
  | verify (msg : MessageCs)

namespace AccountCall

def perform (bcrypt : Bcrypt) (db : Mysql) : AccountCall → Bool × Mysql
  | tableInit salt => srvdbAccountsTableInit bcrypt salt db
  | register salt msg =>
      let result := srvdbAccountRegister bcrypt salt msg db
      (result.1, result.2.2)
  | update salt msg => srvdbAccountUpdate bcrypt salt msg db
  | verify msg =>
      let result := srvdbAccountVerify bcrypt msg db
      (result.1, result.2.2)

def Admitted : AccountCall → Prop
  | tableInit _ => True
  | register _ msg => msg.stuff.account.Admitted
  | update _ msg => msg.stuff.account.Admitted
  | verify msg => msg.stuff.account.Admitted

end AccountCall

/-! What each function can do to the table. -/

theorem keepsAccounts_frame :
    Mysql.CallFrame fun before after => after.accounts = before.accounts where
  refl _ := rfl
  trans first second := second.trans first
  advance _ := rfl
  fail _ := rfl

section Cases

variable (bcrypt : Bcrypt) (salt : Option String) (msg : MessageCs) (db : Mysql)

theorem insertAccount_eq_some {account : AccountEntry} {hash : String} {db after : Mysql}
    (accepted : insertAccount account hash db = some after) :
    ∃ userno name password, db.mode.store 200 account.name = some name ∧
      db.mode.store 200 hash = some password ∧
      after.accounts = db.accounts ++ [⟨userno, name, password, account.type⟩] := by
  obtain ⟨name, named, stored⟩ := Option.bind_eq_some_iff.mp accepted
  obtain ⟨password, hashed, rfl⟩ := Option.map_eq_some_iff.mp stored
  exact ⟨_, name, password, named, hashed, rfl⟩

theorem srvdbAccountRegister_cases :
    ((srvdbAccountRegister bcrypt salt msg db).1 = false ∧
      (srvdbAccountRegister bcrypt salt msg db).2.2.accounts = db.accounts) ∨
    ((srvdbAccountRegister bcrypt salt msg db).1 = true ∧ db.accounts.length < maxUserNum ∧
      db.accounts.countP (·.isNamed msg.stuff.account.name) = 0 ∧
      ∃ hash userno name password,
        salt.bind (bcrypt.hashpw msg.stuff.account.password) = some hash ∧
        db.mode.store 200 msg.stuff.account.name = some name ∧
        db.mode.store 200 hash = some password ∧
        (srvdbAccountRegister bcrypt salt msg db).2.2.accounts =
          db.accounts ++ [⟨userno, name, password, msg.stuff.account.type⟩]) := by
  rw [srvdbAccountRegister]
  dsimp only
  by_cases anonymous : msg.user = ""
  · rw [if_pos anonymous]
    exact .inl ⟨rfl, rfl⟩
  rw [if_neg anonymous]
  rcases mysqlSelect_cases db with asked | asked <;> rw [asked]
  · exact .inl ⟨rfl, rfl⟩
  dsimp only [Mysql.advance_accounts]
  rcases getSimpleResult_cases (some db.accounts.length) db.advance with counted | counted <;>
    rw [counted]
  · exact .inl ⟨rfl, rfl⟩
  dsimp only
  by_cases full : maxUserNum ≤ db.accounts.length
  · rw [if_pos full]
    exact .inl ⟨rfl, rfl⟩
  rw [if_neg full]
  rcases mysqlSelect_cases db.advance.advance with asked | asked <;> rw [asked]
  · exact .inl ⟨rfl, rfl⟩
  dsimp only [Mysql.advance_accounts]
  rcases getSimpleResult_cases (some (db.accounts.countP (·.isNamed msg.stuff.account.name)))
    db.advance.advance.advance with compared | compared <;> rw [compared] <;>
    dsimp only [Mysql.fail_accounts, Mysql.advance_accounts]
  · exact .inl ⟨rfl, rfl⟩
  by_cases known : db.accounts.countP (·.isNamed msg.stuff.account.name) ≠ 0
  · rw [if_pos known]
    exact .inl ⟨rfl, rfl⟩
  rw [if_neg known]
  cases hashed : salt.bind (bcrypt.hashpw msg.stuff.account.password) with
  | none => exact .inl ⟨rfl, rfl⟩
  | some hash =>
      dsimp only
      rcases mysqlQuery_cases (insertAccount msg.stuff.account hash)
        db.advance.advance.advance.advance with failed | ⟨after, accepted, result⟩
      · rw [failed]
        dsimp only [Mysql.fail_accounts, Mysql.advance_accounts]
        exact .inl ⟨rfl, rfl⟩
      · rw [result]
        obtain ⟨userno, name, password, named, stored, accounts⟩ :=
          insertAccount_eq_some accepted
        dsimp only [Mysql.advance_mode, Mysql.advance_accounts] at named stored accounts
        exact .inr ⟨rfl, by omega, not_not.mp known, hash, userno, name, password, rfl, named,
          stored, accounts⟩

theorem srvdbAccountUpdate_cases :
    ((srvdbAccountUpdate bcrypt salt msg db).1 = false ∧
      (srvdbAccountUpdate bcrypt salt msg db).2.accounts = db.accounts) ∨
    ((srvdbAccountUpdate bcrypt salt msg db).1 = true ∧
      ∃ hash, salt.bind (bcrypt.hashpw msg.stuff.account.password) = some hash ∧
        Table.update (fun row : AccountRow => row.isNamed msg.stuff.account.name)
          (fun row => (db.mode.store 200 hash).map fun password => { row with password := password })
          db.accounts = some (srvdbAccountUpdate bcrypt salt msg db).2.accounts) := by
  rw [srvdbAccountUpdate]
  by_cases anonymous : msg.user = ""
  · rw [if_pos anonymous]
    exact .inl ⟨rfl, rfl⟩
  rw [if_neg anonymous]
  rcases mysqlSelect_cases db with asked | asked <;> rw [asked]
  · exact .inl ⟨rfl, rfl⟩
  dsimp only [Mysql.advance_accounts]
  rcases getSimpleResult_cases (some (db.accounts.countP (·.isNamed msg.stuff.account.name)))
    db.advance with compared | compared <;> rw [compared]
  · exact .inl ⟨rfl, rfl⟩
  dsimp only
  by_cases unknown : db.accounts.countP (·.isNamed msg.stuff.account.name) = 0
  · rw [if_pos unknown]
    exact .inl ⟨rfl, rfl⟩
  rw [if_neg unknown]
  cases hashed : salt.bind (bcrypt.hashpw msg.stuff.account.password) with
  | none => exact .inl ⟨rfl, rfl⟩
  | some hash =>
      dsimp only
      rcases mysqlQuery_cases (updatePassword msg.stuff.account.name hash) db.advance.advance with
        failed | ⟨after, accepted, result⟩
      · rw [failed]
        exact .inl ⟨rfl, rfl⟩
      · rw [result]
        obtain ⟨accounts, updated, rfl⟩ := Option.map_eq_some_iff.mp accepted
        exact .inr ⟨rfl, hash, rfl, updated⟩

theorem srvdbAccountVerify_accounts :
    (srvdbAccountVerify bcrypt msg db).2.2.accounts = db.accounts :=
  srvdbAccountVerify_framed keepsAccounts_frame bcrypt msg db

theorem srvdbAccountVerify_iff (named : msg.user ≠ "") (healthy : healthyFor 4 db.faults = true) :
    (srvdbAccountVerify bcrypt msg db).1 = true ↔
      ∃ row, db.accounts.find? (·.isNamed msg.stuff.account.name) = some row ∧
        row.type = msg.stuff.account.type ∧
        bcrypt.checkpw msg.stuff.account.password row.password = 0 := by
  rw [healthyFor_succ, healthyFor_succ, healthyFor_succ, healthyFor_succ] at healthy
  simp only [Bool.and_eq_true, Bool.not_eq_true'] at healthy
  obtain ⟨first, second, third, fourth, _⟩ := healthy
  have second : db.advance.nextFault = false := second
  have third : db.advance.advance.nextFault = false := third
  have fourth : db.advance.advance.advance.nextFault = false := fourth
  rw [srvdbAccountVerify, if_neg named, mysqlSelect_of_healthy first]
  dsimp only [Mysql.advance_accounts]
  rw [getSimpleResult_of_healthy second]
  cases found : db.accounts.find? (·.isNamed msg.stuff.account.name) with
  | none => simp
  | some row =>
      dsimp only [Option.map_some]
      by_cases other : row.type = msg.stuff.account.type
      · rw [if_neg (not_not.mpr other), mysqlSelect_of_healthy third]
        dsimp only [Mysql.advance_accounts]
        rw [found, getSimpleResult_of_healthy fourth]
        dsimp only [Option.map_some]
        by_cases matched : bcrypt.checkpw msg.stuff.account.password row.password = 0
        · simp [matched, other]
        · by_cases broken : bcrypt.checkpw msg.stuff.account.password row.password = -1
          · simp [broken]
          · simp [broken, matched]
      · simp [other]

/-- Whatever else fails: an account that is found to be right is one that is stored. -/
theorem srvdbAccountVerify_row (verified : (srvdbAccountVerify bcrypt msg db).1 = true) :
    msg.user ≠ "" ∧ ∃ row, db.accounts.find? (·.isNamed msg.stuff.account.name) = some row ∧
      row.type = msg.stuff.account.type ∧
      bcrypt.checkpw msg.stuff.account.password row.password = 0 := by
  rw [srvdbAccountVerify] at verified
  by_cases anonymous : msg.user = ""
  · rw [if_pos anonymous] at verified
    cases verified
  refine ⟨anonymous, ?_⟩
  rw [if_neg anonymous] at verified
  rcases mysqlSelect_cases db with asked | asked <;> rw [asked] at verified
  · cases verified
  dsimp only [Mysql.advance_accounts] at verified
  cases found : db.accounts.find? (·.isNamed msg.stuff.account.name) with
  | none =>
      rcases getSimpleResult_cases (none : Option AccountType) db.advance with result | result <;>
        simp [found, result] at verified
  | some row =>
      refine ⟨row, rfl, ?_⟩
      rw [found, Option.map_some] at verified
      rcases getSimpleResult_cases (some row.type) db.advance with result | result <;>
        rw [result] at verified
      · cases verified
      dsimp only [Mysql.advance_accounts] at verified
      by_cases same : row.type = msg.stuff.account.type
      · refine ⟨same, ?_⟩
        rw [if_neg (not_not.mpr same)] at verified
        rcases mysqlSelect_cases db.advance.advance with again | again <;>
          rw [again] at verified
        · cases verified
        dsimp only [Mysql.advance_accounts] at verified
        rw [found, Option.map_some] at verified
        rcases getSimpleResult_cases (some row.password) db.advance.advance.advance with
          result | result <;> rw [result] at verified
        · cases verified
        dsimp only at verified
        split at verified
        · cases verified
        · split at verified
          · assumption
          · cases verified
      · rw [if_pos same] at verified
        cases verified

end Cases

/-! ## The map behind the table -/

/-- For each name the type it was registered with and the password set last. -/
abbrev AccountBook := BoundedMap String (AccountType × String) maxUserNum

/-- A row and the entry it stands for. -/
structure AccountRow.Holds (bcrypt : Bcrypt) (row : AccountRow)
    (entry : String × AccountType × String) : Prop where
  name : row.name = entry.1
  type : row.type = entry.2.1
  hashed : ∃ salt, bcrypt.hashpw entry.2.2 salt = some row.password
  nameAdmitted : NameAdmitted entry.1
  passwordAdmitted : PasswordAdmitted entry.2.2

/-- The connection together with the record of what its calls have achieved. -/
structure AccountStore where
  db : Mysql
  book : AccountBook

def AccountBook.register (account : AccountEntry) (succeeded : Bool) (book : AccountBook) :
    AccountBook :=
  if succeeded then (book.insert account.name (account.type, account.password)).getD book else book

namespace AccountCall

def record (bcrypt : Bcrypt) (db : Mysql) (book : AccountBook) : AccountCall → AccountBook
  | tableInit salt =>
      match mysqlSelect db with
      | (false, _) => book
      | (true, db) =>
          AccountBook.register defaultAdministrator.stuff.account
            (srvdbAccountRegister bcrypt salt defaultAdministrator db).1 book
  | register salt msg =>
      AccountBook.register msg.stuff.account (srvdbAccountRegister bcrypt salt msg db).1 book
  | update salt msg =>
      if (srvdbAccountUpdate bcrypt salt msg db).1 then
        book.modify msg.stuff.account.name fun value => (value.1, msg.stuff.account.password)
      else book
  | verify _ => book

def step (bcrypt : Bcrypt) (store : AccountStore) (call : AccountCall) : AccountStore where
  db := (call.perform bcrypt store.db).2
  book := call.record bcrypt store.db store.book

end AccountCall

def AccountStore.Refines (bcrypt : Bcrypt) (store : AccountStore) : Prop :=
  List.Forall₂ (AccountRow.Holds bcrypt) store.db.accounts store.book.entries

section Refinement

variable {bcrypt : Bcrypt}

theorem AccountRow.Holds.isNamed {row : AccountRow} {entry : String × AccountType × String}
    (holds : row.Holds bcrypt entry) {name : String} (admitted : NameAdmitted name) :
    row.isNamed name = decide (entry.1 = name) := by
  have plain : ' ' ∉ row.name.toList := by
    rw [holds.name]
    exact holds.nameAdmitted.plain
  rw [AccountRow.isNamed_eq plain admitted.plain, holds.name]

theorem names_eq_keys {rows : List AccountRow} {entries : List (String × AccountType × String)}
    (refines : List.Forall₂ (AccountRow.Holds bcrypt) rows entries) :
    rows.map AccountRow.name = entries.map Prod.fst := by
  induction refines with
  | nil => rfl
  | cons holds _ induction => rw [List.map_cons, List.map_cons, holds.name, induction]

theorem fresh_iff {rows : List AccountRow} {entries : List (String × AccountType × String)}
    (refines : List.Forall₂ (AccountRow.Holds bcrypt) rows entries) {name : String}
    (admitted : NameAdmitted name) :
    rows.countP (·.isNamed name) = 0 ↔ name ∉ entries.map Prod.fst := by
  induction refines with
  | nil => simp
  | @cons row entry rows entries holds _ induction =>
      rw [List.countP_cons, holds.isNamed admitted, List.map_cons, List.mem_cons, not_or,
        ← induction]
      by_cases same : entry.1 = name
      · simp [same]
      · have different : name ≠ entry.1 := fun equal => same equal.symm
        simp [same, different]

variable {db : Mysql} {book : AccountBook}
  (refines : List.Forall₂ (AccountRow.Holds bcrypt) db.accounts book.entries)
include refines

/-- A registration is an insertion into the map. -/
theorem register_refines (sound : bcrypt.Sound) (salt : Option String) {msg : MessageCs}
    (admitted : msg.stuff.account.Admitted) :
    List.Forall₂ (AccountRow.Holds bcrypt)
      (srvdbAccountRegister bcrypt salt msg db).2.2.accounts
      (AccountBook.register msg.stuff.account (srvdbAccountRegister bcrypt salt msg db).1
        book).entries := by
  rcases srvdbAccountRegister_cases bcrypt salt msg db with ⟨refused, same⟩ |
    ⟨succeeded, room, unknown, hash, userno, name, password, hashed, named, stored, accounts⟩
  · rw [refused, same]
    exact refines
  · have length := refines.length_eq
    obtain ⟨larger, inserted, entries⟩ := BoundedMap.insert_eq_some
      (msg.stuff.account.type, msg.stuff.account.password)
      ((fresh_iff refines admitted.1).mp unknown) (length ▸ room)
    obtain ⟨grain, _, hashed⟩ := Option.bind_eq_some_iff.mp hashed
    have short := sound.short admitted.2 hashed
    rw [SqlMode.store_of_fits admitted.1.fits] at named
    rw [SqlMode.store_of_fits (by omega)] at stored
    obtain rfl := Option.some.inj named
    obtain rfl := Option.some.inj stored
    rw [accounts, AccountBook.register, succeeded, if_pos rfl, inserted, Option.getD_some, entries]
    apply List.rel_append refines
    exact .cons ⟨rfl, rfl, ⟨grain, hashed⟩, admitted.1, admitted.2⟩ .nil

/-- An update of a password is a modification of the map. -/
theorem update_refines (sound : bcrypt.Sound) (salt : Option String) {msg : MessageCs}
    (admitted : msg.stuff.account.Admitted) :
    List.Forall₂ (AccountRow.Holds bcrypt) (srvdbAccountUpdate bcrypt salt msg db).2.accounts
      (if (srvdbAccountUpdate bcrypt salt msg db).1 then
        book.modify msg.stuff.account.name fun value => (value.1, msg.stuff.account.password)
      else book).entries := by
  rcases srvdbAccountUpdate_cases bcrypt salt msg db with ⟨refused, same⟩ |
    ⟨succeeded, hash, hashed, updated⟩
  · rw [refused, same]
    exact refines
  · obtain ⟨grain, _, hashed⟩ := Option.bind_eq_some_iff.mp hashed
    have short := sound.short admitted.2 hashed
    rw [SqlMode.store_of_fits (by omega)] at updated
    have total := Table.update_total (fun row : AccountRow => row.isNamed msg.stuff.account.name)
      (fun row => { row with password := hash }) db.accounts
    have accounts := Option.some.inj (updated.symm.trans total)
    rw [succeeded, if_pos rfl, accounts, BoundedMap.modify]
    apply List.forall₂_map_left_iff.mpr
    apply List.forall₂_map_right_iff.mpr
    apply refines.imp
    intro row entry holds
    rw [holds.isNamed admitted.1]
    by_cases same : entry.1 = msg.stuff.account.name
    · rw [if_pos same, if_pos (by simpa using same)]
      exact ⟨holds.name, holds.type, ⟨grain, hashed⟩, holds.nameAdmitted, admitted.2⟩
    · rw [if_neg same, if_neg (by simpa using same)]
      exact holds

/-- A verification that meets no failure is a look-up in the map. -/
theorem verify_refines (sound : bcrypt.Sound) {msg : MessageCs}
    (admitted : msg.stuff.account.Admitted) (named : msg.user ≠ "")
    (healthy : healthyFor 4 db.faults = true) :
    (srvdbAccountVerify bcrypt msg db).1 = true ↔
      book.lookup msg.stuff.account.name =
        some (msg.stuff.account.type, msg.stuff.account.password) := by
  rw [srvdbAccountVerify_iff bcrypt msg db named healthy, BoundedMap.lookup]
  have agree : ∀ (row : AccountRow) (entry : String × AccountType × String),
      row.Holds bcrypt entry →
        row.isNamed msg.stuff.account.name = decide (entry.1 = msg.stuff.account.name) :=
    fun row entry holds => holds.isNamed admitted.1
  rcases find?_of_forall₂ agree refines with ⟨noRow, noEntry⟩ | ⟨row, entry, found, listed, holds⟩
  · rw [noRow, noEntry]
    simp
  · rcases holds.hashed with ⟨salt, hashed⟩
    have checks := sound.checks admitted.2 holds.passwordAdmitted hashed
    rw [found, listed, Option.map_some, Option.some.injEq]
    constructor
    · rintro ⟨other, equal, type, matched⟩
      obtain rfl := Option.some.inj equal
      rw [← type, holds.type, checks.mp matched]
    · intro equal
      have type := congrArg Prod.fst equal
      have password := congrArg Prod.snd equal
      exact ⟨row, rfl, holds.type.trans type, checks.mpr password.symm⟩

end Refinement

/-! ## Runs -/

/-- What a call owes its caller. -/
structure AccountCall.Lawful (bcrypt : Bcrypt) (store : AccountStore) (call : AccountCall) :
    Prop where
  refused : (call.perform bcrypt store.db).1 = false →
    (call.perform bcrypt store.db).2.accounts = store.db.accounts
  registered : ∀ salt msg, call = .register salt msg →
    (call.perform bcrypt store.db).1 = true →
      msg.stuff.account.name ∉ store.db.accounts.map AccountRow.name ∧
      ∃ row, row.name = msg.stuff.account.name ∧
        (call.perform bcrypt store.db).2.accounts = store.db.accounts ++ [row]
  restarted : ∀ salt, call = .tableInit salt →
    store.db.accounts <+: (call.perform bcrypt store.db).2.accounts
  verified : ∀ msg, call = .verify msg → msg.user ≠ "" →
    healthyFor 4 store.db.faults = true →
      ((call.perform bcrypt store.db).1 = true ↔ store.book.lookup msg.stuff.account.name =
        some (msg.stuff.account.type, msg.stuff.account.password))

theorem defaultAdministrator_admitted : defaultAdministrator.stuff.account.Admitted :=
  ⟨⟨by decide, by decide, by decide⟩, ⟨by decide, by decide, by decide⟩⟩

namespace AccountStore

variable {bcrypt : Bcrypt} (sound : bcrypt.Sound)
include sound

theorem step_refines (store : AccountStore) (call : AccountCall) (refines : store.Refines bcrypt)
    (admitted : call.Admitted) : (call.step bcrypt store).Refines bcrypt := by
  rcases store with ⟨db, book⟩
  have refines : List.Forall₂ (AccountRow.Holds bcrypt) db.accounts book.entries := refines
  cases call with
  | tableInit salt =>
      rw [Refines, AccountCall.step, AccountCall.perform, AccountCall.record,
        srvdbAccountsTableInit]
      rcases mysqlSelect_cases db with failed | created
      · rw [failed]
        exact refines
      · have advanced : List.Forall₂ (AccountRow.Holds bcrypt) db.advance.accounts book.entries :=
          refines
        rw [created]
        exact register_refines advanced sound salt defaultAdministrator_admitted
  | register salt msg => exact register_refines refines sound salt admitted
  | update salt msg => exact update_refines refines sound salt admitted
  | verify msg =>
      rw [Refines, AccountCall.step, AccountCall.perform, AccountCall.record]
      dsimp only
      rw [srvdbAccountVerify_accounts]
      exact refines

theorem lawful_of_refines (store : AccountStore) (call : AccountCall)
    (refines : store.Refines bcrypt) (admitted : call.Admitted) : call.Lawful bcrypt store := by
  rcases store with ⟨db, book⟩
  have refines : List.Forall₂ (AccountRow.Holds bcrypt) db.accounts book.entries := refines
  refine ⟨?_, ?_, ?_, ?_⟩
  · intro refused
    cases call with
    | tableInit salt =>
        rw [AccountCall.perform, srvdbAccountsTableInit] at refused ⊢
        rcases mysqlSelect_cases db with failed | created
        · rw [failed]
          rfl
        · rw [created] at refused
          cases refused
    | register salt msg =>
        rcases srvdbAccountRegister_cases bcrypt salt msg db with ⟨_, same⟩ | ⟨succeeded, _⟩
        · exact same
        · exact absurd (refused.symm.trans succeeded) Bool.false_ne_true
    | update salt msg =>
        rcases srvdbAccountUpdate_cases bcrypt salt msg db with ⟨_, same⟩ | ⟨succeeded, _⟩
        · exact same
        · exact absurd (refused.symm.trans succeeded) Bool.false_ne_true
    | verify msg => exact srvdbAccountVerify_accounts bcrypt msg db
  · rintro salt msg rfl succeeded
    rcases srvdbAccountRegister_cases bcrypt salt msg db with ⟨refused, _⟩ |
      ⟨_, _, unknown, hash, userno, name, password, _, named, _, accounts⟩
    · exact absurd (refused.symm.trans succeeded) Bool.false_ne_true
    · rw [SqlMode.store_of_fits admitted.1.fits] at named
      obtain rfl := Option.some.inj named
      refine ⟨?_, ⟨userno, _, password, msg.stuff.account.type⟩, rfl, accounts⟩
      rw [names_eq_keys refines]
      exact (fresh_iff refines admitted.1).mp unknown
  · rintro salt rfl
    rw [AccountCall.perform, srvdbAccountsTableInit]
    rcases mysqlSelect_cases db with failed | created
    · rw [failed]
      exact List.prefix_rfl
    · rw [created]
      rcases srvdbAccountRegister_cases bcrypt salt defaultAdministrator db.advance with
        ⟨_, same⟩ | ⟨_, _, _, hash, userno, name, password, _, _, _, accounts⟩
      · rw [same]
        exact List.prefix_rfl
      · rw [accounts]
        exact List.prefix_append _ _
  · rintro msg rfl named healthy
    exact verify_refines refines sound admitted named healthy

end AccountStore

/-- The store at the first start of the server. -/
def AccountStore.fresh (mode : SqlMode) (collation : Char → Char → Bool) (faults : List Bool) :
    AccountStore :=
  ⟨Mysql.fresh mode collation [] faults, .empty⟩

/-- Over every run of the account functions, whatever fails, the table stays a bounded map
and every call is lawful. -/
theorem AccountStore.runs_lawful {bcrypt : Bcrypt} (sound : bcrypt.Sound) (mode : SqlMode)
    (collation : Char → Char → Bool) (faults : List Bool) (calls : List AccountCall)
    (admitted : ∀ call ∈ calls, call.Admitted) :
    Execution.Always (fun store call => AccountCall.step bcrypt store call)
        (fun store => store.db.accounts.length ≤ maxUserNum ∧
          (store.db.accounts.map AccountRow.name).Nodup)
        (fresh mode collation faults) calls ∧
      Execution.Along (fun store call => AccountCall.step bcrypt store call)
        (AccountCall.Lawful bcrypt) (fresh mode collation faults) calls := by
  have start : (fresh mode collation faults).Refines bcrypt := .nil
  apply Execution.always_and_along_of_along (step_refines sound) _ (lawful_of_refines sound) start
    (Execution.along_of_forall admitted)
  intro store refines
  refine ⟨refines.length_eq.trans_le store.book.bounded, ?_⟩
  rw [names_eq_keys refines]
  exact store.book.unique

/-! A hash that is the password behind a mark, and a run with two starts of the server. -/

def sampleBcrypt : Bcrypt where
  hashpw password _ := some ("$" ++ password)
  checkpw password hash := if hash = "$" ++ password then 0 else 1

theorem sampleBcrypt_sound : sampleBcrypt.Sound where
  checks := by
    intro password other salt hash _ _ hashed
    rw [← Option.some.inj hashed]
    show (if "$" ++ other = "$" ++ password then (0 : Int) else 1) = 0 ↔ password = other
    by_cases same : password = other
    · simp [same]
    · have different : "$" ++ other ≠ "$" ++ password := fun equal =>
        same ((String.append_right_inj "$").mp equal).symm
      simp [same, different]
  short := by
    intro password salt hash admitted hashed
    have bound := admitted.atMost
    have limit : defaultInputLen = 20 := rfl
    have mark : "$".length = 1 := by decide
    rw [← Option.some.inj hashed, String.length_append, mark]
    omega

def sampleAccount (password : String) : MessageCs :=
  { MessageCs.zeroed with
    user := "reader"
    stuff := { MessageCs.zeroed.stuff with account := ⟨.user, "reader", password⟩ } }

theorem AccountStore.runs_lawful_through_restart :
    Execution.Always (fun store call => AccountCall.step sampleBcrypt store call)
        (fun store => store.db.accounts.length ≤ maxUserNum ∧
          (store.db.accounts.map AccountRow.name).Nodup)
        (fresh .strict (fun left right => left == right) [])
        [.tableInit (some "salt"), .register (some "salt") (sampleAccount "Ulysses1"),
          .update (some "salt") (sampleAccount "Ulysses2"), .tableInit (some "salt"),
          .verify (sampleAccount "Ulysses1")] ∧
      Execution.Along (fun store call => AccountCall.step sampleBcrypt store call)
        (AccountCall.Lawful sampleBcrypt) (fresh .strict (fun left right => left == right) [])
        [.tableInit (some "salt"), .register (some "salt") (sampleAccount "Ulysses1"),
          .update (some "salt") (sampleAccount "Ulysses2"), .tableInit (some "salt"),
          .verify (sampleAccount "Ulysses1")] := by
  have first : (sampleAccount "Ulysses1").stuff.account.Admitted :=
    ⟨⟨by decide, by decide, by decide⟩, ⟨by decide, by decide, by decide⟩⟩
  have second : (sampleAccount "Ulysses2").stuff.account.Admitted :=
    ⟨⟨by decide, by decide, by decide⟩, ⟨by decide, by decide, by decide⟩⟩
  apply runs_lawful sampleBcrypt_sound
  intro call member
  simp only [List.mem_cons, List.not_mem_nil, or_false] at member
  rcases member with rfl | rfl | rfl | rfl | rfl
  · trivial
  · exact first
  · exact second
  · trivial
  · exact first

end Bookshelfdq
