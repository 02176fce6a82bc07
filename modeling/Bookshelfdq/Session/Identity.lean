import Bookshelfdq.Session.FrontDoor
import Bookshelfdq.Session.Pages

/-! # Who changes the books and shelves

A page asks for a change once the user has given the password again. That is good for the page
that it opens, and for the choices on the page it was given on until another one is displayed. -/

namespace Bookshelfdq

namespace Pages

variable {bcrypt : Bcrypt} {pages : Pages}

/-! ## The server and its accounts -/

structure Kept (bcrypt : Bcrypt) (pages : Pages) : Prop where
  booked : pages.booked.Kept bcrypt
  named : NameAdmitted pages.loginUser

theorem admitsAccount_of_mutation {message : MessageCs}
    (mutates : message.request.isMutation = true) : message.AdmitsAccount := by
  intro registers
  rw [registers] at mutates
  cases mutates

theorem Kept.getChoice (kept : pages.Kept bcrypt) (type : UiPageType) :
    (pages.getChoice type).Kept bcrypt := by
  rw [Pages.getChoice]
  split
  · exact kept
  · exact ⟨kept.booked, kept.named⟩

theorem Kept.verifying (kept : pages.Kept bcrypt) (identity : Identity) (inside outside : Place) :
    (pages.verifying identity inside outside).pages.Kept bcrypt := by
  have verified : (pages.verifyIdentity identity).2.Kept bcrypt := by
    rw [verifyIdentity]
    split
    · exact kept
    · split
      · exact kept
      · exact ⟨kept.booked.ask _ 0 identity.contact, kept.named⟩
  exact ⟨verified.booked, verified.named⟩

theorem Kept.request (kept : pages.Kept bcrypt) (sound : bcrypt.Sound)
    (asked : Contact × Mutation) : (pages.request asked).Kept bcrypt := by
  rw [Pages.request]
  split
  · have admitted := admitsAccount_of_mutation
      (asked.2.message_mutates pages.loginUser)
    exact ⟨kept.booked.hear sound admitted asked.1, kept.named⟩
  · exact kept

/-! ## What is in force -/

/-- The identity need not be verified before the next change. -/
def InForce (pages : Pages) : Prop :=
  pages.place.guarded = true ∨
    (pages.verified = true ∧ pages.place.choice = some pages.currentPage)

/-- What is only asked for where unsorted books are collected. -/
def collected (mutation : Mutation) : Prop :=
  ∃ shelfno book position, mutation = .collectingBook shelfno book position

/-- A turn goes on without a question, or it verifies the identity. -/
inductive Proceeds (pages : Pages) : Turned → Prop
  | calm {requests : List (Contact × Mutation)} {next : Pages} (booked : next.booked = pages.booked)
      (user : next.loginUser = pages.loginUser) (force : next.InForce → pages.InForce)
      (allowed : ∀ asked ∈ requests, pages.place.guarded = true ∨
        (pages.bcollect = true ∧ collected asked.2)) :
      Proceeds pages ⟨none, requests, next⟩
  | verifies {type : UiPageType} (chosen : pages.place.choice = some type) (identity : Identity)
      {inside outside : Place} (refused : outside.guarded = false) :
      Proceeds pages ((pages.getChoice type).verifying identity inside outside)

theorem verified_getChoice {type : UiPageType} (verified : (pages.getChoice type).verified = true) :
    pages.verified = true ∧ pages.currentPage = type := by
  rw [getChoice] at verified
  split at verified
  · exact ⟨verified, ‹_›⟩
  · cases verified

theorem getChoice_booked (type : UiPageType) : (pages.getChoice type).booked = pages.booked := by
  rw [getChoice]
  split <;> rfl

theorem getChoice_loginUser (type : UiPageType) :
    (pages.getChoice type).loginUser = pages.loginUser := by
  rw [getChoice]
  split <;> rfl

theorem getChoice_place (type : UiPageType) : (pages.getChoice type).place = pages.place := by
  rw [getChoice]
  split <;> rfl

theorem getChoice_bcollect (type : UiPageType) :
    (pages.getChoice type).bcollect = pages.bcollect := by
  rw [getChoice]
  split <;> rfl

/-- A verification outlives a `get_choice` for the page it was given on. -/
theorem inForce_of_getChoice {type : UiPageType} (chosen : pages.place.choice = some type)
    (verified : (pages.getChoice type).verified = true) : pages.InForce := by
  rcases verified_getChoice verified with ⟨before, rfl⟩
  exact .inr ⟨before, chosen⟩

namespace Proceeds

variable {type : UiPageType} (chosen : pages.place.choice = some type)

include chosen

theorem choosing (place : Place) (collects : Bool)
    (guarded : place.guarded = true → pages.place.guarded = true)
    {requests : List (Contact × Mutation)}
    (allowed : ∀ asked ∈ requests, pages.place.guarded = true ∨
      (pages.bcollect = true ∧ collected asked.2)) :
    Proceeds pages
      ⟨none, requests, { pages.getChoice type with bcollect := collects, place := place }⟩ := by
  refine .calm (getChoice_booked type) (getChoice_loginUser type) ?_ allowed
  rintro (inside | ⟨verified, _⟩)
  · exact .inl (guarded inside)
  · exact inForce_of_getChoice chosen verified

/-- Nothing is asked for, and what is displayed next is open to everyone. -/
theorem going {place : Place} (collects : Bool) (unguarded : place.guarded = false) :
    Proceeds pages
      ⟨none, [], { pages.getChoice type with bcollect := collects, place := place }⟩ := by
  apply choosing chosen place collects
  · intro guarded
    rw [unguarded] at guarded
    cases guarded
  · exact fun _ member => absurd member List.not_mem_nil

theorem staying : Proceeds pages (pages.getChoice type).turned := by
  apply choosing chosen (pages.getChoice type).place (pages.getChoice type).bcollect
  · intro guarded
    rw [getChoice_place] at guarded
    exact guarded
  · exact fun _ member => absurd member List.not_mem_nil

end Proceeds

theorem Proceeds.asks {type : UiPageType} (chosen : pages.place.choice = some type)
    (guarded : pages.place.guarded = true) (place : Place)
    (requests : List (Contact × Mutation)) :
    Proceeds pages (((pages.getChoice type).goTo place).asking requests) :=
  choosing chosen place _ (fun _ => guarded) fun _ _ => .inl guarded

/-- Where the identity has been verified and `get_choice` is not called. -/
theorem Proceeds.answers (guarded : pages.place.guarded = true) (place : Place)
    (requests : List (Contact × Mutation)) :
    Proceeds pages ((pages.goTo place).asking requests) :=
  .calm rfl rfl (fun _ => .inl guarded) fun _ _ => .inl guarded

@[simp] theorem guarded_back (counted : Bool) : (Place.back counted).guarded = false := by
  cases counted <;> rfl

@[simp] theorem guarded_behindBooks (search counted : Bool) :
    (Place.behindBooks search counted).guarded = false := by
  cases search with
  | false => exact guarded_back counted
  | true => rfl

/-! ## The pages one by one -/

theorem proceeds_menu (waits : pages.place = .mainMenu) (turn : MenuTurn) :
    Proceeds pages (pages.ncguiGetChoice turn) := by
  have chosen : pages.place.choice = some .mainMenu := by rw [waits]; rfl
  cases turn with
  | lookThrough found => exact .going chosen _ (guarded_back found)
  | buildShelf identity => exact .verifies chosen identity rfl
  | searchBook => exact .going chosen _ rfl
  | quit => exact .going chosen _ rfl
  | nonSense => exact .staying chosen

theorem proceeds_build (waits : pages.place = .building) (turn : BuildTurn) :
    Proceeds pages (pages.displayBuildshelfPage turn) := by
  have chosen : pages.place.choice = some .buildShelf := by rw [waits]; rfl
  have guarded : pages.place.guarded = true := by rw [waits]; rfl
  cases turn with
  | adjust => exact .staying chosen
  | build time shelf contact => exact .asks chosen guarded _ _
  | giveUp => exact .going chosen _ rfl
  | again identity => exact .verifies chosen identity rfl

theorem proceeds_shelf (selectMode : Bool)
    (waits : pages.place = if selectMode then .selecting else .shelves) (turn : ShelfTurn) :
    Proceeds pages (pages.displayLookthroughPage selectMode turn) := by
  have chosen : pages.place.choice = some .lookthrough := by
    rw [waits]
    cases selectMode <;> rfl
  have outside : (if selectMode then Place.searching else .mainMenu).guarded = false := by
    cases selectMode <;> rfl
  cases turn with
  | move counted =>
      cases counted with
      | false => exact .going chosen _ outside
      | true => exact .staying chosen
  | enter confirmed =>
      cases selectMode with
      | false => exact .going chosen _ rfl
      | true =>
          cases confirmed with
          | false => exact .staying chosen
          | true => exact .going chosen _ rfl
  | leave => exact .going chosen _ outside

theorem proceeds_option (waits : pages.place = .options) (turn : OptionTurn) :
    Proceeds pages (pages.lookthroughOption turn) := by
  have chosen : pages.place.choice = some .lookthrough := by rw [waits]; rfl
  cases turn with
  | move => exact .staying chosen
  | display collectMode shown counted =>
      cases shown with
      | false => exact .going chosen collectMode (guarded_back counted)
      | true => exact .going chosen collectMode rfl
  | newBook identity counted => exact .verifies chosen identity (guarded_back counted)
  | profile => exact .going chosen _ rfl
  | destroy identity stocked counted => exact .verifies chosen identity (guarded_back counted)
  | leave counted => exact .going chosen _ (guarded_back counted)

theorem proceeds_profile (waits : pages.place = .profile) (turn : ProfileTurn) :
    Proceeds pages (pages.displayShelfprofilePage turn) := by
  have chosen : pages.place.choice = some .buildShelf := by rw [waits]; rfl
  cases turn with
  | move => exact .staying chosen
  | leave counted => exact .going chosen _ (guarded_back counted)

theorem proceeds_confirm {stocked : Bool} (waits : pages.place = .confirming stocked)
    (turn : ConfirmTurn) : Proceeds pages (pages.confirmDelete stocked turn) := by
  have guarded : pages.place.guarded = true := by rw [waits]; rfl
  cases turn with
  | refuse counted => exact .answers guarded _ _
  | confirm removal =>
      cases stocked with
      | false => exact .answers guarded _ _
      | true => exact .answers guarded _ _

theorem proceeds_delete (waits : pages.place = .deleting) (turn : DeleteTurn) :
    Proceeds pages (pages.deleteShelfPage turn) := by
  have chosen : pages.place.choice = some .lookthrough := by rw [waits]; rfl
  have guarded : pages.place.guarded = true := by rw [waits]; rfl
  cases turn with
  | move => exact .staying chosen
  | treat abandon contact removal => exact .asks chosen guarded _ _
  | leave removal => exact .asks chosen guarded _ _

theorem proceeds_newBook (waits : pages.place = .newBook) (turn : NewBookTurn) :
    Proceeds pages (pages.addNewbookPage turn) := by
  have chosen : pages.place.choice = some .newBook := by rw [waits]; rfl
  have guarded : pages.place.guarded = true := by rw [waits]; rfl
  cases turn with
  | move => exact .staying chosen
  | insert time book contact again counted =>
      cases again with
      | false => exact .asks chosen guarded _ _
      | true => exact .asks chosen guarded (pages.getChoice .newBook).place _
  | leave counted => exact .going chosen _ (guarded_back counted)

theorem proceeds_search (waits : pages.place = .searching) (turn : SearchTurn) :
    Proceeds pages (pages.displaySearchbookPage turn) := by
  have chosen : pages.place.choice = some .searchBook := by rw [waits]; rfl
  cases turn with
  | move => exact .staying chosen
  | selectShelf found =>
      cases found with
      | false => exact .staying chosen
      | true => exact .going chosen _ rfl
  | finish shown =>
      cases shown with
      | false => exact .going chosen _ rfl
      | true => exact .going chosen _ rfl
  | leave => exact .going chosen _ rfl

theorem collected_collects {book : BookEntry} {position : Nat} {collecting : Collecting}
    {asked : Contact × Mutation} (member : asked ∈ collects book position collecting) :
    collected asked.2 := by
  rw [collects] at member
  split at member
  · cases member
  · rw [List.mem_singleton.mp member]
    exact ⟨_, _, _, rfl⟩

theorem proceeds_book {search : Bool} (waits : pages.place = .books search) (turn : BookTurn) :
    Proceeds pages (pages.displayBookinfoPage search turn) := by
  have chosen : pages.place.choice = some .bookInfo := by rw [waits]; rfl
  cases turn with
  | move => exact .staying chosen
  | turnPage shown counted =>
      cases shown with
      | false => exact .going chosen _ (guarded_behindBooks search counted)
      | true => exact .staying chosen
  | enter book position collecting =>
      simp only [displayBookinfoPage, getChoice_bcollect]
      split
      · rename_i collectMode
        apply Proceeds.choosing chosen (pages.getChoice .bookInfo).place
          (pages.getChoice .bookInfo).bcollect
        · intro guarded
          rw [getChoice_place] at guarded
          exact guarded
        · intro asked member
          cases collecting with
          | none => exact absurd member List.not_mem_nil
          | some collecting => exact .inr ⟨collectMode, collected_collects member⟩
      · split
        · exact .staying chosen
        · exact .going chosen _ rfl
  | leave counted => exact .going chosen _ (guarded_behindBooks search counted)

theorem proceeds_bookOption {search : Bool} (waits : pages.place = .bookOptions search)
    (turn : BookOptionTurn) : Proceeds pages (pages.bookinfoOption search turn) := by
  have chosen : pages.place.choice = some .bookInfo := by rw [waits]; rfl
  cases turn with
  | move => exact .staying chosen
  | choose identity => exact .verifies chosen identity rfl
  | leave => exact .going chosen _ rfl

theorem proceeds_act {search : Bool} (waits : pages.place = .acting search) (turn : ActTurn) :
    Proceeds pages (pages.act search turn) := by
  have guarded : pages.place.guarded = true := by rw [waits]; rfl
  exact .answers guarded _ _

theorem proceeds (pages : Pages) (turn : PageTurn) : Proceeds pages (pages.turn turn) := by
  unfold Pages.turn
  split
  · exact proceeds_menu ‹_› _
  · exact proceeds_build ‹_› _
  · exact proceeds_shelf false ‹_› _
  · exact proceeds_shelf true ‹_› _
  · exact proceeds_option ‹_› _
  · exact proceeds_profile ‹_› _
  · exact proceeds_confirm ‹_› _
  · exact proceeds_delete ‹_› _
  · exact proceeds_newBook ‹_› _
  · exact proceeds_search ‹_› _
  · exact proceeds_book ‹_› _
  · exact proceeds_bookOption ‹_› _
  · exact proceeds_act ‹_› _
  · exact .calm rfl rfl id fun _ member => absurd member List.not_mem_nil

/-! ## One step -/

theorem identified_admitted (named : NameAdmitted pages.loginUser) {identity : Identity}
    {account : AccountEntry} (entered : pages.identified identity = some account) :
    account.Admitted ∧ ∃ password, account = ⟨.user, pages.loginUser, password⟩ := by
  have blank : Entered .password LoginPage.blank := RegisterPage.entered_blank .password
  rcases blank.typing.keys identity.keys with ⟨text, typing⟩
  rcases getLoginInput_of_typing typing with ⟨long, given, stored⟩
  rw [identified] at entered
  split at entered
  · rename_i accepted
    rw [long] at accepted
    have present : cString (getLoginInput .password LoginPage.blank identity.keys).2 ≠ [] := by
      intro empty
      have some := of_decide_eq_true accepted
      have none := stored.symm.trans empty
      rw [if_pos some] at none
      rw [none] at some
      cases some
    cases entered
    exact ⟨⟨named, given.passwordAdmitted present⟩, _, rfl⟩
  · cases entered

/-- Who is verified has been verified before, or has just given the password set last. -/
theorem Kept.verified (kept : pages.Kept bcrypt) (sound : bcrypt.Sound) {identity : Identity}
    (verified : (pages.verifyIdentity identity).2.verified = true) :
    pages.verified = true ∨ ∃ password,
      (pages.verifyIdentity identity).1 = some ⟨.user, pages.loginUser, password⟩ ∧
        pages.booked.book.lookup pages.loginUser = some (.user, password) := by
  cases before : pages.verified with
  | true => exact .inl rfl
  | false =>
      refine .inr ?_
      cases entered : pages.identified identity with
      | none =>
          simp [verifyIdentity, before, entered] at verified
      | some account =>
          rcases identified_admitted kept.named entered with ⟨admitted, password, rfl⟩
          simp only [verifyIdentity, before, entered] at verified ⊢
          exact ⟨password, rfl, kept.booked.lookup_of_ask 0 sound admitted verified⟩

theorem verified_of_inForce {identity : Identity} {inside outside : Place}
    (refused : outside.guarded = false)
    (force : (pages.verifying identity inside outside).pages.InForce) :
    (pages.verifyIdentity identity).2.verified = true := by
  cases verified : (pages.verifyIdentity identity).2.verified with
  | true => rfl
  | false =>
      simp [verifying, InForce, goTo, verified, refused] at force

/-- What is in force after a turn was so before, or the identity has been verified by it. -/
theorem Kept.turn_force (kept : pages.Kept bcrypt) (sound : bcrypt.Sound) {turn : PageTurn}
    (force : (pages.turn turn).pages.InForce) :
    pages.InForce ∨ ∃ password,
      (pages.turn turn).attempt = some ⟨.user, pages.loginUser, password⟩ ∧
        pages.booked.book.lookup pages.loginUser = some (.user, password) := by
  generalize result : pages.turn turn = turned at force
  cases (result ▸ pages.proceeds turn : Proceeds pages turned) with
  | calm _ _ before _ => exact .inl (before force)
  | verifies chosen identity refused =>
      rcases (kept.getChoice _).verified sound (verified_of_inForce refused force) with
        verified | ⟨password, attempted, found⟩
      · exact .inl (inForce_of_getChoice chosen verified)
      · rw [getChoice_loginUser] at attempted found
        rw [getChoice_booked] at found
        exact .inr ⟨password, attempted, found⟩

theorem verifying_loginUser (identity : Identity) (inside outside : Place) :
    (pages.verifying identity inside outside).pages.loginUser = pages.loginUser := by
  rw [verifying, verifyIdentity]
  split
  · rfl
  · split <;> rfl

theorem turn_loginUser (pages : Pages) (turn : PageTurn) :
    (pages.turn turn).pages.loginUser = pages.loginUser := by
  generalize result : pages.turn turn = turned
  cases (result ▸ pages.proceeds turn : Proceeds pages turned) with
  | calm _ user _ _ => exact user
  | verifies chosen identity _ =>
      exact (verifying_loginUser identity _ _).trans (getChoice_loginUser _)

theorem Kept.turn (kept : pages.Kept bcrypt) (turn : PageTurn) :
    (pages.turn turn).pages.Kept bcrypt := by
  generalize result : pages.turn turn = turned
  cases (result ▸ pages.proceeds turn : Proceeds pages turned) with
  | calm booked user _ _ =>
      exact ⟨booked.symm ▸ kept.booked, user.symm ▸ kept.named⟩
  | verifies chosen identity _ => exact (kept.getChoice _).verifying identity _ _

theorem inForce_of_request {asked : Contact × Mutation} (force : (pages.request asked).InForce) :
    pages.InForce := by
  rw [request] at force
  split at force
  · exact force
  · exact force

theorem request_loginUser (asked : Contact × Mutation) :
    (pages.request asked).loginUser = pages.loginUser := by
  rw [request]
  split <;> rfl

theorem Kept.step (kept : pages.Kept bcrypt) (sound : bcrypt.Sound) {input : PageInput}
    (admitted : input.Admitted) : (pages.step input).Kept bcrypt := by
  cases input with
  | turn turn =>
      apply @Execution.run_invariant _ _ Pages.request (Kept bcrypt)
      · exact fun pages asked kept => kept.request sound asked
      · exact kept.turn turn
  | others event => exact ⟨kept.booked.meanwhile sound admitted, kept.named⟩

theorem step_loginUser (pages : Pages) (input : PageInput) :
    (pages.step input).loginUser = pages.loginUser := by
  cases input with
  | turn turn =>
      apply @Execution.run_invariant _ _ Pages.request fun after => after.loginUser = pages.loginUser
      · exact fun pages asked same => (request_loginUser asked).trans same
      · exact pages.turn_loginUser turn
  | others event => rfl

theorem Kept.force (kept : pages.Kept bcrypt) (sound : bcrypt.Sound) {input : PageInput}
    (before : ¬pages.InForce) (force : (pages.step input).InForce) :
    ∃ password, pages.attempts input = some ⟨.user, pages.loginUser, password⟩ ∧
      pages.booked.book.lookup pages.loginUser = some (.user, password) := by
  cases input with
  | turn turn =>
      have earlier : (pages.step (.turn turn)).InForce → (pages.turn turn).pages.InForce := by
        apply @Execution.run_invariant _ _ Pages.request fun after =>
          after.InForce → (pages.turn turn).pages.InForce
        · exact fun after asked implies force => implies (inForce_of_request force)
        · exact id
      exact (kept.turn_force sound (earlier force)).resolve_left before
  | others event => exact absurd force before

/-- A change is only asked for while the identity is verified, or where books are collected. -/
theorem inForce_of_changes {input : PageInput} {mutation : Mutation}
    (asked : mutation ∈ pages.changes input) :
    pages.InForce ∨ (pages.bcollect = true ∧ collected mutation) := by
  cases input with
  | turn turn =>
      rcases List.mem_map.mp asked with ⟨request, member, rfl⟩
      generalize result : pages.turn turn = turned at member
      cases (result ▸ pages.proceeds turn : Proceeds pages turned) with
      | calm _ _ _ allowed =>
          rcases allowed request member with guarded | collects
          · exact .inl (.inl guarded)
          · exact .inr collects
      | verifies chosen identity _ => cases member
  | others event => cases asked

/-! ## Runs -/

/-- The main menu for the first time. -/
def opened (door : FrontDoor) (loginUser : String) : Pages where
  booked := door.booked
  loginUser := loginUser
  currentPage := .login
  verified := false
  bcollect := false
  place := .mainMenu

/-- A state on the way. -/
def reached (door : FrontDoor) (loginUser : String) (inputs : List PageInput) : Pages :=
  Execution.run step (opened door loginUser) inputs

theorem reached_snoc (door : FrontDoor) (loginUser : String) (earlier : List PageInput)
    (input : PageInput) :
    reached door loginUser (earlier ++ [input]) = step (reached door loginUser earlier) input :=
  Execution.run_append _ _ _

theorem reached_loginUser (door : FrontDoor) (loginUser : String) (inputs : List PageInput) :
    (reached door loginUser inputs).loginUser = loginUser := by
  apply @Execution.run_invariant _ _ step fun pages => pages.loginUser = loginUser
  · exact fun pages input same => (pages.step_loginUser input).trans same
  · rfl

theorem kept_reached (sound : bcrypt.Sound) {door : FrontDoor} (kept : door.Kept bcrypt)
    {loginUser : String} (displayed : door.front = .menu loginUser) {inputs : List PageInput}
    (admitted : ∀ input ∈ inputs, input.Admitted) :
    (reached door loginUser inputs).Kept bcrypt := by
  have fielded := kept.fielded
  rw [displayed] at fielded
  have initial : (opened door loginUser).Kept bcrypt := ⟨kept.booked, fielded⟩
  have preserved : ∀ (pages : Pages) (input : PageInput), pages.Kept bcrypt →
      input.Admitted → (pages.step input).Kept bcrypt :=
    fun pages input kept good => kept.step sound good
  exact Execution.run_of_along preserved initial (Execution.along_of_forall admitted)

/-- From the start of the program on, whatever is typed and chosen, whatever fails and whatever
others ask of the server meanwhile: a change of the books and shelves is only asked for once the
user has given again the password set last, and what that opened has not been left since. Only
where unsorted books are collected is nothing asked. -/
theorem changes_identified {fascistCheck : Option (List Char → Option String)}
    (sound : bcrypt.Sound) {server : Server} (hashes : server.bcrypt = bcrypt)
    (unused : server.db.accounts = []) {before : List FrontInput}
    (entering : ∀ input ∈ before, input.Admitted) {door : FrontDoor}
    (came : door = FrontDoor.reached fascistCheck server before) {user : String}
    (displayed : door.front = .menu user) {inputs : List PageInput}
    (admitted : ∀ input ∈ inputs, input.Admitted) {input : PageInput} {mutation : Mutation}
    (asked : mutation ∈ (reached door user inputs).changes input) :
    ((reached door user inputs).bcollect = true ∧ collected mutation) ∨
      ∃ earlier check later password, inputs = earlier ++ check :: later ∧
        (reached door user earlier).attempts check = some ⟨.user, user, password⟩ ∧
        (reached door user earlier).booked.book.lookup user = some (.user, password) ∧
        ∀ middle, middle <+: later →
          (reached door user (earlier ++ check :: middle)).InForce := by
  rcases inForce_of_changes asked with force | collects
  · refine .inr ?_
    have absent : ¬(opened door user).InForce := by
      rintro (guarded | ⟨verified, _⟩)
      · cases guarded
      · cases verified
    rcases Execution.exists_since InForce absent force with
      ⟨earlier, check, later, rfl, before, since⟩
    have kept : (reached door user earlier).Kept bcrypt := by
      apply kept_reached sound _ displayed
      · exact fun other member => admitted other (List.mem_append_left _ member)
      · rw [came]
        exact FrontDoor.kept_reached sound hashes unused entering
    have verified := since [] List.nil_prefix
    rw [← reached, reached_snoc] at verified
    rcases kept.force sound before verified with ⟨password, attempted, found⟩
    rw [reached_loginUser] at attempted found
    exact ⟨earlier, check, later, password, rfl, attempted, found, since⟩
  · exact .inl collects

/-! The reader gives the password once more, and then builds a shelf. -/

def sampleDoor : FrontDoor :=
  FrontDoor.reached none FrontDoor.sampleServer FrontDoor.sampleInputs

def sampleTurns : List PageInput :=
  [.turn (.menu (.buildShelf ⟨"Ulysses1".toList.map LoginKey.character, .heard⟩)),
    .turn (.build .adjust)]

def sampleBuild : PageInput := .turn (.build (.build .empty .zeroed .heard))

theorem shelf_identified :
    ((reached sampleDoor "reader" sampleTurns).bcollect = true ∧
        collected (.buildShelf .empty .zeroed)) ∨
      ∃ earlier check later password, sampleTurns = earlier ++ check :: later ∧
        (reached sampleDoor "reader" earlier).attempts check = some ⟨.user, "reader", password⟩ ∧
        (reached sampleDoor "reader" earlier).booked.book.lookup "reader" =
          some (.user, password) ∧
        ∀ middle, middle <+: later →
          (reached sampleDoor "reader" (earlier ++ check :: middle)).InForce := by
  apply @changes_identified sampleBcrypt none sampleBcrypt_sound FrontDoor.sampleServer rfl rfl
    FrontDoor.sampleInputs FrontDoor.sampleInputs_admitted sampleDoor rfl "reader" rfl sampleTurns _
    sampleBuild
  · exact List.mem_singleton.mpr rfl
  · intro input member
    simp only [sampleTurns, List.mem_cons, List.not_mem_nil, or_false] at member
    rcases member with rfl | rfl
    · trivial
    · trivial

end Pages

end Bookshelfdq
