import Bookshelfdq.Client.LoginInput
import Bookshelfdq.Foundation.Execution

/-! # The register page

`ncgui_display_register_page` of `ncgui.c`, with the password check it calls. -/

namespace Bookshelfdq

/-! ## The strength of a password -/

/-- How many characters of a class are still missing, and whether the class has given its
point. -/
structure Requirement where
  missing : Int
  met : Bool

def Requirement.count (requirement : Requirement) : Requirement where
  missing := requirement.missing - 1
  met := requirement.met || decide (requirement.missing - 1 < 1)

structure Quality where
  lower : Requirement
  upper : Requirement
  digit : Requirement
  punct : Requirement

namespace Quality

def initial : Quality where
  lower := ⟨1, false⟩
  upper := ⟨1, false⟩
  digit := ⟨1, false⟩
  punct := ⟨0, false⟩

/-- `ispunct`. -/
def isPunct (character : Char) : Bool := loginPasswordChar character && !character.isAlphanum

def count (quality : Quality) (character : Char) : Quality :=
  if character.isLower then { quality with lower := quality.lower.count }
  else if character.isUpper then { quality with upper := quality.upper.count }
  else if character.isDigit then { quality with digit := quality.digit.count }
  else if isPunct character then { quality with punct := quality.punct.count }
  else quality

def points (quality : Quality) : Nat :=
  ([quality.lower, quality.upper, quality.digit, quality.punct].filter Requirement.met).length

def defaultQuality : Nat := 3

def insufficient (quality : Quality) : Bool :=
  decide (quality.lower.missing > 0) || decide (quality.upper.missing > 0) ||
    decide (quality.digit.missing > 0) || decide (quality.punct.missing > 0) ||
    decide (quality.points < defaultQuality)

end Quality

/-- `check_password_strength`: 0 for a good password, 1 for a simple one and 2 for one like
a word. The check against words is that of the library, left out where its word list is not
installed. -/
def checkPasswordStrength (fascistCheck : Option (List Char → Option String))
    (toCheck : List Char) : Nat :=
  if toCheck.length < 6 then 1
  else if (toCheck.foldl Quality.count .initial).insufficient then 1
  else
    match fascistCheck with
    | none => 0
    | some check => if (check toCheck).isSome then 2 else 0

/-! ## The page -/

/-- What happens to passwords on the page. -/
inductive PasswordEvent
  | typed (text : List Char)
  | checked (text : List Char) (ret : Nat)
  | retyped (text : List Char)
deriving DecidableEq

/-- The keys typed into the password field, and those typed at the prompt for the password
to be repeated, should it appear. -/
structure PasswordVisit where
  keys : List LoginKey
  again : List LoginKey

inductive RegisterAction
  | name (keys : List LoginKey)
  | password (visit : PasswordVisit)
  | register (accepted : Bool)
  | back

/-- The buffers of the page. `events` is the history of the passwords, newest first, which
the page does not read. -/
structure RegisterPage where
  name : List Char
  password : List Char
  tempStr : List Char
  running : Bool
  events : List PasswordEvent

namespace RegisterPage

def initial (tempStr : List Char) : RegisterPage where
  name := List.replicate inputSize nulChar
  password := List.replicate inputSize nulChar
  tempStr := tempStr
  running := true
  events := []

def happens (event : PasswordEvent) (page : RegisterPage) : RegisterPage :=
  { page with events := event :: page.events }

variable (fascistCheck : Option (List Char → Option String))

/-- The prompt for the password to be repeated. -/
def repeatPassword (again : List LoginKey) (page : RegisterPage) : RegisterPage :=
  let entry := getLoginInput .password page.tempStr again
  let page := { page with tempStr := entry.2 }
  if entry.1 ∧ cString page.tempStr ≠ cString page.password then
    { page with tempStr := page.tempStr.set 0 nulChar }
  else page

def enterPassword (visit : PasswordVisit) (page : RegisterPage) : RegisterPage :=
  let cleared := page.password.set 0 nulChar
  let typed := loginKeys .password cleared visit.keys
  let entry := getLoginInput .password cleared visit.keys
  let page := happens (.typed (typed.1.take typed.2)) { page with password := entry.2 }
  if entry.1 then
    let ret := checkPasswordStrength fascistCheck (cString page.password)
    let page := page.happens (.checked (cString page.password) ret)
    if ret = 0 then
      (page.repeatPassword visit.again).happens (.retyped (typedPassword visit.again))
    else page
  else page

/-- The account that `client_start_register` is called with when the register option is
chosen. -/
def registers (page : RegisterPage) : Option AccountEntry :=
  if page.running ∧ cString page.name ≠ [] ∧ cString page.password ≠ [] then
    some ⟨.user, String.ofList (cString page.name), String.ofList (cString page.password)⟩
  else none

def step (page : RegisterPage) : RegisterAction → RegisterPage
  | .name keys =>
      if page.running then { page with name := (getLoginInput .name page.name keys).2 } else page
  | .password visit => if page.running then page.enterPassword fascistCheck visit else page
  | .register accepted =>
      { page with running := page.running && !(page.registers.isSome && accepted) }
  | .back => { page with running := false }

/-! ## Confirmed passwords -/

/-- The password was found strong and then repeated, and no other was typed since. -/
def Confirmed (events : List PasswordEvent) (password : List Char) : Prop :=
  ∃ later earlier, events = later ++ .retyped password :: .checked password 0 :: earlier ∧
    ∀ text, .typed text ∈ later → text = password

theorem confirmed_nil (password : List Char) : ¬Confirmed [] password := by
  rintro ⟨later, earlier, split, _⟩
  cases later with
  | nil => exact List.cons_ne_nil _ _ split.symm
  | cons event later => exact List.cons_ne_nil _ _ split.symm

theorem Confirmed.cons {events : List PasswordEvent} {password : List Char}
    (confirmed : Confirmed events password) {event : PasswordEvent}
    (same : ∀ text, event = .typed text → text = password) :
    Confirmed (event :: events) password := by
  rcases confirmed with ⟨later, earlier, rfl, only⟩
  refine ⟨event :: later, earlier, rfl, ?_⟩
  intro text member
  rcases List.mem_cons.mp member with first | member
  · exact same text first.symm
  · exact only text member

theorem confirmed_cons_iff {event : PasswordEvent} {events : List PasswordEvent}
    {password : List Char} :
    Confirmed (event :: events) password ↔
      (event = .retyped password ∧ ∃ earlier, events = .checked password 0 :: earlier) ∨
        (Confirmed events password ∧ ∀ text, event = .typed text → text = password) := by
  constructor
  · rintro ⟨later, earlier, split, only⟩
    cases later with
    | nil =>
        rcases List.cons.inj split with ⟨first, rest⟩
        exact .inl ⟨first, earlier, rest⟩
    | cons first later =>
        rcases List.cons.inj split with ⟨rfl, rest⟩
        refine .inr ⟨⟨later, earlier, rest, ?_⟩, ?_⟩
        · intro text member
          exact only text (List.mem_cons_of_mem _ member)
        · rintro text rfl
          exact only text List.mem_cons_self
  · rintro (⟨rfl, earlier, rfl⟩ | ⟨confirmed, same⟩)
    · refine ⟨[], earlier, rfl, ?_⟩
      intro text member
      exact absurd member List.not_mem_nil
    · exact confirmed.cons same

/-! ## The history, by the keys -/

/-- The newest visits to the password field, as far back as all of them type the password,
have one that repeats it, and the password is strong. -/
def Vouched (visits : List PasswordVisit) (password : List Char) : Prop :=
  checkPasswordStrength fascistCheck password = 0 ∧
    ∃ visit ∈ visits.takeWhile (fun visit => decide (typedPassword visit.keys = password)),
      typedPassword visit.again = password

/-- The visits to the password field, newest first. -/
def passwordVisits (actions : List RegisterAction) : List PasswordVisit :=
  (actions.filterMap fun action =>
    match action with
    | .password visit => some visit
    | _ => none).reverse

/-- The events of one visit, newest first. -/
def visitEvents (visit : PasswordVisit) : List PasswordEvent :=
  let text := typedPassword visit.keys
  if minPwLen ≤ text.length then
    if checkPasswordStrength fascistCheck text = 0 then
      [.retyped (typedPassword visit.again), .checked text 0, .typed text]
    else [.checked text (checkPasswordStrength fascistCheck text), .typed text]
  else [.typed text]

/-- The password that the last visit leaves in the field. -/
def fieldAfter : List PasswordVisit → List Char
  | [] => []
  | visit :: _ =>
      let text := typedPassword visit.keys
      if minPwLen ≤ text.length then text else []

theorem confirmed_typed_iff {text password : List Char} {events : List PasswordEvent} :
    Confirmed (.typed text :: events) password ↔ Confirmed events password ∧ text = password := by
  rw [confirmed_cons_iff]
  simp

theorem confirmed_checked_iff {text password : List Char} {ret : Nat}
    {events : List PasswordEvent} :
    Confirmed (.checked text ret :: events) password ↔ Confirmed events password := by
  rw [confirmed_cons_iff]
  simp

theorem confirmed_retyped_iff {again text password : List Char} {ret : Nat}
    {events : List PasswordEvent} :
    Confirmed (.retyped again :: .checked text ret :: events) password ↔
      (again = password ∧ text = password ∧ ret = 0) ∨ Confirmed events password := by
  rw [confirmed_cons_iff, confirmed_checked_iff]
  simp

theorem confirmed_visit_iff {visit : PasswordVisit} {events : List PasswordEvent}
    {password : List Char} (long : minPwLen ≤ password.length) :
    Confirmed (visitEvents fascistCheck visit ++ events) password ↔
      typedPassword visit.keys = password ∧
        (checkPasswordStrength fascistCheck password = 0 ∧ typedPassword visit.again = password ∨
          Confirmed events password) := by
  by_cases same : typedPassword visit.keys = password
  · rw [visitEvents, same, if_pos long]
    by_cases strong : checkPasswordStrength fascistCheck password = 0
    · rw [if_pos strong]
      simp [confirmed_retyped_iff, confirmed_typed_iff, strong]
    · rw [if_neg strong]
      simp [confirmed_checked_iff, confirmed_typed_iff, strong]
  · have other : ∀ rest, ¬Confirmed (.typed (typedPassword visit.keys) :: rest) password := by
      intro rest confirmed
      exact same (confirmed_typed_iff.mp confirmed).2
    have outside : Confirmed (visitEvents fascistCheck visit ++ events) password ↔ False := by
      rw [visitEvents]
      split
      · split
        · simp [confirmed_retyped_iff, other, same]
        · simp [confirmed_checked_iff, other]
      · simp [other]
    rw [outside]
    simp [same]

theorem vouched_cons_iff {visit : PasswordVisit} {visits : List PasswordVisit}
    {password : List Char} :
    Vouched fascistCheck (visit :: visits) password ↔
      typedPassword visit.keys = password ∧
        (checkPasswordStrength fascistCheck password = 0 ∧ typedPassword visit.again = password ∨
          Vouched fascistCheck visits password) := by
  by_cases same : typedPassword visit.keys = password
  · simp [Vouched, same, and_or_left]
  · simp [Vouched, same]

theorem confirmed_iff_vouched {visits : List PasswordVisit} {password : List Char}
    (long : minPwLen ≤ password.length) :
    Confirmed (visits.flatMap (visitEvents fascistCheck)) password ↔
      Vouched fascistCheck visits password := by
  induction visits with
  | nil =>
      constructor
      · intro confirmed
        exact absurd confirmed (confirmed_nil password)
      · rintro ⟨_, visit, member, _⟩
        exact absurd member List.not_mem_nil
  | cons visit visits induction =>
      rw [List.flatMap_cons, confirmed_visit_iff fascistCheck long, vouched_cons_iff, induction]

/-! ## Runs of the page -/

/-- While the page is displayed, its history and the password field are those of the
visits. -/
structure Follows (visits : List PasswordVisit) (page : RegisterPage) : Prop where
  size : page.password.length = inputSize
  field : page.running = true → cString page.password = fieldAfter visits
  history : page.running = true → page.events = visits.flatMap (visitEvents fascistCheck)

theorem repeatPassword_password (again : List LoginKey) (page : RegisterPage) :
    (page.repeatPassword again).password = page.password := by
  rw [repeatPassword]
  split <;> rfl

theorem repeatPassword_events (again : List LoginKey) (page : RegisterPage) :
    (page.repeatPassword again).events = page.events := by
  rw [repeatPassword]
  split <;> rfl

theorem repeatPassword_name (again : List LoginKey) (page : RegisterPage) :
    (page.repeatPassword again).name = page.name := by
  rw [repeatPassword]
  split <;> rfl

theorem enterPassword_password (visit : PasswordVisit) (page : RegisterPage) :
    (page.enterPassword fascistCheck visit).password =
      (getLoginInput .password (page.password.set 0 nulChar) visit.keys).2 := by
  simp only [enterPassword]
  split
  · split
    · exact repeatPassword_password _ _
    · rfl
  · rfl

theorem enterPassword_name (visit : PasswordVisit) (page : RegisterPage) :
    (page.enterPassword fascistCheck visit).name = page.name := by
  simp only [enterPassword]
  split
  · split
    · exact repeatPassword_name _ _
    · rfl
  · rfl

theorem enterPassword_events {page : RegisterPage} (size : page.password.length = inputSize)
    (visit : PasswordVisit) :
    (page.enterPassword fascistCheck visit).events =
      visitEvents fascistCheck visit ++ page.events := by
  have typing := typing_cleared size visit.keys
  rcases getLoginInput_of_typing typing with ⟨accepted, _, stored⟩
  have typed : (loginKeys .password (page.password.set 0 nulChar) visit.keys).1.take
      (loginKeys .password (page.password.set 0 nulChar) visit.keys).2 =
        typedPassword visit.keys := by
    rw [typing.position]
    exact typing.stands
  simp only [enterPassword, happens, visitEvents, accepted, stored, typed, decide_eq_true_eq]
  by_cases long : minPwLen ≤ (typedPassword visit.keys).length
  · simp only [if_pos long]
    by_cases strong : checkPasswordStrength fascistCheck (typedPassword visit.keys) = 0
    · simp only [repeatPassword_events, strong]
      rfl
    · simp only [if_neg strong]
      rfl
  · simp only [if_neg long]
    rfl

/-- The visit that an action makes to the password field, before those made earlier. -/
theorem passwordVisits_cons (action : RegisterAction) (actions : List RegisterAction) :
    passwordVisits (action :: actions) = passwordVisits actions ++ passwordVisits [action] := by
  cases action <;> simp [passwordVisits]

theorem Follows.step {visits : List PasswordVisit} {page : RegisterPage}
    (follows : Follows fascistCheck visits page) (action : RegisterAction) :
    Follows fascistCheck (passwordVisits [action] ++ visits) (page.step fascistCheck action) := by
  cases running : page.running with
  | false =>
      have stays : (page.step fascistCheck action).password = page.password ∧
          (page.step fascistCheck action).running = false := by
        cases action <;> simp [RegisterPage.step, running]
      refine ⟨stays.1 ▸ follows.size, ?_, ?_⟩
      · intro still
        rw [stays.2] at still
        exact absurd still Bool.false_ne_true
      · intro still
        rw [stays.2] at still
        exact absurd still Bool.false_ne_true
  | true =>
      cases action with
      | name keys =>
          rw [RegisterPage.step, if_pos running]
          exact ⟨follows.size, follows.field, follows.history⟩
      | password visit =>
          have typing := typing_cleared follows.size visit.keys
          rcases getLoginInput_of_typing typing with ⟨_, entered, stored⟩
          rw [RegisterPage.step, if_pos running]
          refine ⟨?_, ?_, ?_⟩
          · rw [enterPassword_password]
            exact entered.size
          · intro _
            rw [enterPassword_password, stored]
            rfl
          · intro _
            rw [enterPassword_events fascistCheck follows.size, follows.history running]
            rfl
      | register accepted =>
          exact ⟨follows.size, fun _ => follows.field running, fun _ => follows.history running⟩
      | back =>
          exact ⟨follows.size, fun _ => follows.field running, fun _ => follows.history running⟩

theorem Follows.run {visits : List PasswordVisit} {page : RegisterPage}
    (follows : Follows fascistCheck visits page) (actions : List RegisterAction) :
    Follows fascistCheck (passwordVisits actions ++ visits)
      (Execution.run (RegisterPage.step fascistCheck) page actions) := by
  induction actions generalizing visits page with
  | nil => exact follows
  | cons action actions induction =>
      rw [passwordVisits_cons, List.append_assoc]
      exact induction (follows.step fascistCheck action)

theorem follows_initial (tempStr : List Char) :
    Follows fascistCheck [] (initial tempStr) where
  size := List.length_replicate
  field _ := rfl
  history _ := rfl

theorem registers_eq_some {page : RegisterPage} {account : AccountEntry}
    (registers : page.registers = some account) :
    page.running = true ∧ cString page.name ≠ [] ∧ cString page.password ≠ [] ∧
      account =
        ⟨.user, String.ofList (cString page.name), String.ofList (cString page.password)⟩ := by
  rw [RegisterPage.registers] at registers
  split at registers
  case isTrue complete =>
    exact ⟨complete.1, complete.2.1, complete.2.2, (Option.some.inj registers).symm⟩
  case isFalse => exact absurd registers (Option.some_ne_none account).symm

theorem length_fieldAfter {visits : List PasswordVisit} (present : fieldAfter visits ≠ []) :
    minPwLen ≤ (fieldAfter visits).length := by
  cases visits with
  | nil => exact absurd rfl present
  | cons visit visits =>
      rw [fieldAfter] at present ⊢
      by_cases long : minPwLen ≤ (typedPassword visit.keys).length
      · rw [if_pos long]
        exact long
      · rw [if_neg long] at present
        exact absurd rfl present

/-- Nothing on the page asks whether the password in the field was confirmed: it was only
if the user has seen to it. -/
theorem registers_confirmed_iff (tempStr : List Char) (actions : List RegisterAction)
    (account : AccountEntry)
    (registers : (Execution.run (step fascistCheck) (initial tempStr) actions).registers =
      some account) :
    Confirmed (Execution.run (step fascistCheck) (initial tempStr) actions).events
        account.password.toList ↔
      Vouched fascistCheck (passwordVisits actions) account.password.toList := by
  have follows := (follows_initial fascistCheck tempStr).run fascistCheck actions
  rw [List.append_nil] at follows
  rcases registers_eq_some registers with ⟨running, _, present, rfl⟩
  rw [String.toList_ofList, follows.history running]
  rw [follows.field running] at present ⊢
  exact confirmed_iff_vouched fascistCheck (length_fieldAfter present)

def typing (text : String) : List LoginKey := text.toList.map LoginKey.character

theorem confirmed_when_vouched :
    Confirmed (Execution.run (step none) (initial (List.replicate inputSize nulChar))
        [.name (typing "reader"), .password ⟨typing "Secret1", typing "Secret1"⟩]).events
      "Secret1".toList := by
  apply (registers_confirmed_iff none (List.replicate inputSize nulChar)
    [.name (typing "reader"), .password ⟨typing "Secret1", typing "Secret1"⟩]
    ⟨.user, "reader", "Secret1"⟩ (by decide +kernel)).mpr
  refine ⟨by decide +kernel, ⟨typing "Secret1", typing "Secret1"⟩, ?_, by decide +kernel⟩
  exact List.mem_singleton_self _

/-- A password found too simple stays in the field and is registered. -/
theorem simple_password_registered :
    (Execution.run (step none) (initial (List.replicate inputSize nulChar))
        [.name (typing "reader"), .password ⟨typing "aaaaaa", []⟩]).registers =
        some ⟨.user, "reader", "aaaaaa"⟩ ∧
      ¬Confirmed (Execution.run (step none) (initial (List.replicate inputSize nulChar))
        [.name (typing "reader"), .password ⟨typing "aaaaaa", []⟩]).events "aaaaaa".toList := by
  have history : (Execution.run (step none) (initial (List.replicate inputSize nulChar))
      [.name (typing "reader"), .password ⟨typing "aaaaaa", []⟩]).events =
        [.checked "aaaaaa".toList 1, .typed "aaaaaa".toList] := by
    decide +kernel
  refine ⟨by decide +kernel, ?_⟩
  rw [history, confirmed_checked_iff, confirmed_typed_iff]
  exact fun confirmed => confirmed_nil _ confirmed.1

/-! ## What is registered -/

structure Fielded (page : RegisterPage) : Prop where
  name : Entered .name page.name
  password : Entered .password page.password

theorem Fielded.step {page : RegisterPage} (fielded : page.Fielded) (action : RegisterAction) :
    (page.step fascistCheck action).Fielded := by
  cases action with
  | name keys =>
      rw [RegisterPage.step]
      split
      · exact ⟨fielded.name.getLoginInput keys, fielded.password⟩
      · exact fielded
  | password visit =>
      rw [RegisterPage.step]
      split
      · refine ⟨?_, ?_⟩
        · rw [enterPassword_name]
          exact fielded.name
        · rw [enterPassword_password]
          exact (Entered.cleared fielded.password.size).getLoginInput visit.keys
      · exact fielded
  | register accepted => exact ⟨fielded.name, fielded.password⟩
  | back => exact ⟨fielded.name, fielded.password⟩

theorem entered_blank (option : LoginOption) :
    Entered option (List.replicate inputSize nulChar) := by
  have blank : Entered option ((List.replicate inputSize nulChar).set 0 nulChar) :=
    .cleared List.length_replicate
  exact blank

/-- Every account that is sent to the server is one the server's own results are about. -/
theorem registers_admitted (tempStr : List Char) (actions : List RegisterAction)
    {account : AccountEntry}
    (registers : (Execution.run (step fascistCheck) (initial tempStr) actions).registers =
      some account) : account.Admitted := by
  have blank : (initial tempStr).Fielded := ⟨entered_blank .name, entered_blank .password⟩
  have preserved : ∀ page action, Fielded page → (page.step fascistCheck action).Fielded :=
    fun page action fielded => fielded.step fascistCheck action
  have fielded := Execution.run_invariant preserved blank actions
  rcases registers_eq_some registers with ⟨_, named, present, rfl⟩
  exact ⟨fielded.name.nameAdmitted named, fielded.password.passwordAdmitted present⟩

end RegisterPage

end Bookshelfdq
