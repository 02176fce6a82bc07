import Mathlib.Data.List.DropRight
import Bookshelfdq.Clisrv
import Bookshelfdq.Foundation.Fields

/-! # Search texts

`handle_searchbook_keyword` of `ncgui.c` turns what the user types on the search page into a
search entry. A text without `=` is looked for in all three fields; any other text is a list
of clauses. -/

namespace Bookshelfdq

/-! ## Splitting -/

def isBlank (character : Char) : Bool := character == ' ' || character == '\t'

/-- `string_filter(fstr, '\0')`. -/
def stringFilter (text : List Char) : List Char := (text.dropWhile isBlank).rdropWhile isBlank

/-- `string_splitter`. Without enough occurrences of `chAim` the result is 0 and `des_str` is
empty. -/
def stringSplitter (chAim : Char) : List Char → Nat → Option (List Char)
  | srcStr, 0 => some (stringFilter (srcStr.takeWhile (· != chAim)))
  | srcStr, partPos + 1 =>
      match srcStr.dropWhile (· != chAim) with
      | [] => none
      | _ :: rest => stringSplitter chAim rest partPos

theorem stringSplitter_eq (chAim : Char) (srcStr : List Char) (partPos : Nat) :
    stringSplitter chAim srcStr partPos = ((srcStr.splitOn chAim)[partPos]?).map stringFilter := by
  induction partPos generalizing srcStr with
  | zero =>
      rw [splitOn_eq_takeWhile]
      rfl
  | succ partPos induction =>
      rw [stringSplitter, splitOn_eq_takeWhile, List.getElem?_cons_succ]
      cases srcStr.dropWhile (· != chAim) with
      | nil => rfl
      | cons separator rest => exact induction rest

/-! ## The entry -/

/-- A search field: the mode and what is looked for. -/
def searchField (mode : Char) (value : List Char) : String := String.ofList (mode :: value)

/-- `strncpy`. A character that is cut in two is left out. -/
def strncpy : Nat → List Char → List Char
  | _, [] => []
  | count, character :: text =>
      if character.utf8Size ≤ count then character :: strncpy (count - character.utf8Size) text
      else []

/-- `user_book` and `rt`. -/
structure Searching where
  userBook : BookEntry
  rt : Nat
deriving DecidableEq

namespace Searching

/-- `name[0] = '0'` and so on. -/
def start (userBook : BookEntry) : Searching where
  userBook :=
    { userBook with
      name := searchField '0' userBook.name.toList.tail
      author := searchField '0' userBook.author.toList.tail
      label := searchField '0' userBook.label.toList.tail
      borrowed := '0'
      onReading := '0' }
  rt := 0

/-- `name[0] == '='`. -/
def nameIsExact (searching : Searching) : Bool :=
  searching.userBook.name.toList.head? == some '='

def setName (mode : Char) (value : List Char) (searching : Searching) : Searching :=
  ⟨{ searching.userBook with name := searchField mode value }, searching.rt + 1⟩

def setAuthor (mode : Char) (value : List Char) (searching : Searching) : Searching :=
  ⟨{ searching.userBook with author := searchField mode value }, searching.rt + 1⟩

def setLabel (mode : Char) (value : List Char) (searching : Searching) : Searching :=
  ⟨{ searching.userBook with label := searchField mode value }, searching.rt + 1⟩

def setOnReading (searching : Searching) : Searching :=
  ⟨{ searching.userBook with onReading := '1' }, searching.rt + 1⟩

def setBorrowed (searching : Searching) : Searching :=
  ⟨{ searching.userBook with borrowed := '1' }, searching.rt + 1⟩

/-- The body of the loop over the clauses. -/
def clause (subKeyword : List Char) (searching : Searching) : Searching :=
  match stringSplitter '=' subKeyword 0 with
  | none => searching
  | some key =>
      let value := (stringSplitter '=' subKeyword 1).getD []
      if key = ['r'] then if value = ['1'] then searching.setOnReading else searching
      else if key = ['o'] then if value = ['1'] then searching.setBorrowed else searching
      else if key = ['b'] then
        if searching.nameIsExact then searching else searching.setName '+' value
      else if key = ['a'] then
        if searching.nameIsExact then searching else searching.setAuthor '+' value
      else if key = ['l'] then
        if searching.nameIsExact then searching else searching.setLabel '+' value
      else if key = ['b', 'o', 'o', 'k'] then searching.setName '=' value
      else if key = ['a', 'u', 't', 'h', 'o', 'r'] then searching.setAuthor '=' value
      else searching

/-- The loop over the clauses from the part `i` on. There are fewer parts than `fuel`. -/
def clauseLoop (keyword : List Char) : Nat → Nat → Searching → Searching
  | 0, _, searching => searching
  | fuel + 1, i, searching =>
      match stringSplitter ';' keyword i with
      | none => searching
      | some subKeyword => clauseLoop keyword fuel (i + 1) (clause subKeyword searching)

end Searching

/-- `handle_searchbook_keyword`. -/
def handleSearchbookKeyword (keyword : List Char) (userBook : BookEntry) : Searching :=
  let kwptr := stringFilter keyword
  let searching := Searching.start userBook
  if '=' ∉ keyword then
    { userBook :=
        { searching.userBook with
          name := searchField '-' (strncpy (bookNameLen - 1) kwptr)
          author := searchField '-' (strncpy (authorNameLen - 1) kwptr)
          label := searchField '-' (strncpy (labelNameLen - 1) kwptr) }
      rt := 1 }
  else Searching.clauseLoop keyword (keyword.length + 2) 0 searching

namespace Searching

theorem clauseLoop_eq (keyword : List Char) (fuel i : Nat) (searching : Searching)
    (enough : (keyword.splitOn ';').length < i + fuel) :
    clauseLoop keyword fuel i searching =
      ((keyword.splitOn ';').drop i).foldl (fun searching subKeyword =>
        clause (stringFilter subKeyword) searching) searching := by
  apply loop_eq_foldl (clauseLoop keyword) (fun _ _ => rfl) _ fuel i searching enough
  intro fuel i searching
  rw [clauseLoop, stringSplitter_eq]
  cases (keyword.splitOn ';')[i]? with
  | none => rfl
  | some subKeyword => rfl

end Searching

/-- A text with a `=` is handled clause by clause. -/
theorem handleSearchbookKeyword_clauses {keyword : List Char} (equals : '=' ∈ keyword)
    (userBook : BookEntry) :
    handleSearchbookKeyword keyword userBook =
      (keyword.splitOn ';').foldl (fun searching subKeyword =>
        Searching.clause (stringFilter subKeyword) searching) (Searching.start userBook) := by
  have parts := length_splitOn_le ';' keyword
  rw [handleSearchbookKeyword, if_neg (not_not.mpr equals),
    Searching.clauseLoop_eq keyword _ 0 _ (by omega)]
  rfl

end Bookshelfdq
