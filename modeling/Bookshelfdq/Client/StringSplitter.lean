import Bookshelfdq.Client.SearchFields

/-! # Fields between separators

`string_splitter` of `ncgui.c` on the memories it is given, and the loop of
`handle_searchbook_keyword` that takes one clause after the other from it. A pointer that leaves its
memory is a fault. -/

namespace Bookshelfdq

namespace StringSplitter

open SearchFields (subLen)

/-! ## `string.h` -/

/-- `strchr` on the memory from `place` on: where the character is, or `NULL`. -/
def strchr (character : UInt8) : List UInt8 → Nat → Option (Option Nat)
  | [], _ => none
  | byte :: rest, place =>
      if byte = character then some (some place)
      else if byte = 0 then some none
      else strchr character rest (place + 1)

def strlen (memory : List UInt8) : Nat := (Terminated.text 0 memory).length

/-- `strncpy`, which fills `count` bytes. A negative count is larger than any array. -/
def strncpy (target source : List UInt8) (count : Int) : Option (List UInt8) :=
  if 0 ≤ count ∧ count.toNat ≤ target.length then
    let text := (Terminated.text 0 source).take count.toNat
    some (Terminated.store target 0 (text ++ List.replicate (count.toNat - text.length) 0))
  else none

/-! ## `string_splitter` -/

/-- `aptr_start`, `aptr_end` and `aptr_src`, from `src_str` on. -/
structure Cursor where
  aptrStart : Nat
  aptrEnd : Nat
  aptrSrc : Nat

/-- The loop, when `temp_pos + 1` turns are to come: `temp_pos` and the pointers behind it. -/
def scan (chAim : UInt8) (srcStr : List UInt8) : Nat → Cursor → Option (Int × Cursor)
  | 0, cursor => some (-1, cursor)
  | tempPos + 1, cursor =>
      match strchr chAim (srcStr.drop cursor.aptrSrc) cursor.aptrSrc with
      | none => none
      | some (some found) =>
          scan chAim srcStr tempPos
            { aptrStart := cursor.aptrEnd, aptrEnd := found, aptrSrc := found + 1 }
      | some none =>
          some (tempPos - 1,
            { aptrStart := cursor.aptrEnd, aptrEnd := strlen srcStr, aptrSrc := cursor.aptrSrc })

/-- The bytes of `temp_str`, and of the arrays that the page splits into. -/
def tempSize : Nat := bookNameLen + authorNameLen + 32

/-- The copy to `temp_str`. The pointer before the first part is not at a separator. -/
def copyPart (srcStr : List UInt8) (partPos : Nat) (cursor : Cursor) : Option (List UInt8) :=
  let tempStr := List.replicate tempSize 0
  if partPos = 0 then
    strncpy tempStr (srcStr.drop cursor.aptrStart) (cursor.aptrEnd - cursor.aptrStart)
  else
    strncpy tempStr (srcStr.drop (cursor.aptrStart + 1)) (cursor.aptrEnd - cursor.aptrStart - 1)

/-- What is returned, and `des_str`. -/
def stringSplitter (desStr : List UInt8) (desLen : Nat) (srcStr : List UInt8) (partPos : Nat)
    (chAim : UInt8) : Option (Nat × List UInt8) := do
  if desStr.length < desLen + 1 then none
  else
    let desStr := Terminated.store desStr 0 (List.replicate (desLen + 1) 0)
    let (tempPos, cursor) ← scan chAim srcStr (partPos + 1) ⟨0, 0, 0⟩
    if tempPos = -1 then
      let tempStr ← copyPart srcStr partPos cursor
      let (fptr, tempStr) ← StringFilter.run 0 tempStr
      let desStr ← strncpy desStr (tempStr.drop fptr) desLen
      some (1, desStr)
    else some (0, desStr)

/-! ## The loop over the clauses -/

/-- The loop from the part `i` on, with `sub_keyword` and what its body works on. There is no result
while it has not ended. -/
def clauseLoop {State : Type} (body : State → List UInt8 → Option State) (keyword : List UInt8) :
    Nat → Nat → List UInt8 → State → Option State
  | 0, _, _, _ => none
  | fuel + 1, i, subKeyword, state => do
      let (found, subKeyword) ← stringSplitter subKeyword subLen keyword i 59
      if found = 0 then some state
      else
        let state ← body state subKeyword
        clauseLoop body keyword fuel (i + 1) subKeyword state

/-- `sub_value`, and the entry with what was copied into it. -/
structure Clauses where
  subValue : List UInt8
  handling : SearchFields.Handling

namespace Clauses

open SearchFields (keyBytes borrowedOffset)

/-- The text behind the `=` is split off, and used. -/
def useValue (apply : List UInt8 → SearchFields.Handling) (subKeyword subValue : List UInt8) :
    Option Clauses := do
  let (_, subValue) ← stringSplitter subValue subLen subKeyword 1 61
  some ⟨subValue, apply (Terminated.text 0 subValue)⟩

/-- The body of the loop. -/
def clause (clauses : Clauses) (subKeyword : List UInt8) : Option Clauses := do
  let handling := clauses.handling
  let (found, subValue) ← stringSplitter clauses.subValue subLen subKeyword 0 61
  if found = 0 then some ⟨subValue, handling⟩
  else
    let key := Terminated.text 0 subValue
    let ranged (slot : SearchFields.SearchSlot) : Option Clauses :=
      if handling.nameIsExact then some ⟨subValue, handling⟩
      else useValue (handling.strcpy slot 43) subKeyword subValue
    if key = keyBytes .r then
      useValue (fun value => if value = [49] then handling.setFlag (borrowedOffset + 1) else handling)
        subKeyword subValue
    else if key = keyBytes .o then
      useValue (fun value => if value = [49] then handling.setFlag borrowedOffset else handling)
        subKeyword subValue
    else if key = keyBytes .b then ranged .name
    else if key = keyBytes .a then ranged .author
    else if key = keyBytes .l then ranged .label
    else if key = keyBytes .book then useValue (handling.strcpy .name 61) subKeyword subValue
    else if key = keyBytes .author then useValue (handling.strcpy .author 61) subKeyword subValue
    else some ⟨subValue, handling⟩

end Clauses

/-! ## The pointers -/

theorem strchr_text {character : UInt8} (other : character ≠ 0) {text : List UInt8}
    (solid : 0 ∉ text) (beyond : List UInt8) (place : Nat) :
    strchr character (text ++ 0 :: beyond) place =
      some (match text.dropWhile (· != character) with
        | [] => none
        | _ :: _ => some (place + (text.takeWhile (· != character)).length)) := by
  induction text generalizing place with
  | nil =>
      rw [List.nil_append, strchr, if_neg other.symm, if_pos rfl]
      rfl
  | cons byte text induction =>
      have later : 0 ∉ text := fun member => solid (List.mem_cons_of_mem _ member)
      have nonzero : byte ≠ 0 := fun same => solid (same ▸ List.mem_cons_self)
      rw [List.cons_append, strchr]
      by_cases same : byte = character
      · rw [if_pos same, List.dropWhile_cons_of_neg (by simp [same]),
          List.takeWhile_cons_of_neg (by simp [same])]
        rfl
      · have different : (byte != character) = true := bne_iff_ne.mpr same
        rw [if_neg same, if_neg nonzero, induction later, List.dropWhile_cons, List.takeWhile_cons,
          if_pos different, if_pos different, List.length_cons]
        cases text.dropWhile (· != character) with
        | nil => rfl
        | cons first others =>
            dsimp only
            rw [Nat.add_assoc, Nat.add_comm 1]

/-- A part of a text, from `start` to `finish`. -/
structure Between (text part : List UInt8) (start finish : Nat) : Prop where
  inside : start ≤ text.length
  begins : part <+: text.drop start
  ends : finish = start + part.length

section Scan

variable {chAim : UInt8} (other : chAim ≠ 0) {front rest : List UInt8} (beyond : List UInt8)

include other in
/-- One turn, in a source of which `front` has been passed. -/
theorem scan_turn (solid : 0 ∉ front ++ rest) {cursor : Cursor}
    (passed : cursor.aptrSrc = front.length) (tempPos : Nat) :
    scan chAim (front ++ rest ++ 0 :: beyond) (tempPos + 1) cursor =
      match rest.dropWhile (· != chAim) with
      | [] => some (tempPos - 1, ⟨cursor.aptrEnd, (front ++ rest).length, front.length⟩)
      | _ :: _ =>
          scan chAim (front ++ rest ++ 0 :: beyond) tempPos
            ⟨cursor.aptrEnd, front.length + (rest.takeWhile (· != chAim)).length,
              front.length + (rest.takeWhile (· != chAim)).length + 1⟩ := by
  have later : 0 ∉ rest := fun member => solid (List.mem_append_right _ member)
  have left : (front ++ rest ++ 0 :: beyond).drop front.length = rest ++ 0 :: beyond := by
    rw [List.append_assoc, List.drop_left]
  rw [scan, passed, left, strchr_text other later, strlen, Terminated.text_append solid]
  cases rest.dropWhile (· != chAim) with
  | nil => rfl
  | cons separator behind => rfl

include other in
/-- The loop behind a separator. -/
theorem scan_behind (solid : 0 ∉ front ++ rest) {cursor : Cursor}
    (passed : cursor.aptrSrc = front.length) (separator : front.length = cursor.aptrEnd + 1)
    (partPos : Nat) :
    ∃ tempPos pointers,
      scan chAim (front ++ rest ++ 0 :: beyond) (partPos + 1) cursor = some (tempPos, pointers) ∧
        match (rest.splitOn chAim)[partPos]? with
        | none => tempPos ≠ -1
        | some part =>
            tempPos = -1 ∧
              Between (front ++ rest) part (pointers.aptrStart + 1) pointers.aptrEnd := by
  induction partPos generalizing front rest cursor with
  | zero =>
      rw [scan_turn other beyond solid passed, splitOn_eq_takeWhile]
      have left : (front ++ rest).drop (cursor.aptrEnd + 1) = rest := by
        rw [← separator, List.drop_left]
      have within : cursor.aptrEnd + 1 ≤ (front ++ rest).length := by
        rw [← separator, List.length_append]
        exact Nat.le_add_right _ _
      cases behind : rest.dropWhile (· != chAim) with
      | nil =>
          have whole : rest.takeWhile (· != chAim) = rest := by
            have split := List.takeWhile_append_dropWhile (p := (· != chAim)) (l := rest)
            rw [behind, List.append_nil] at split
            exact split
          refine ⟨_, _, rfl, rfl, within, ?_, ?_⟩
          · rw [left]
            exact List.takeWhile_prefix _
          · rw [whole, List.length_append, separator]
      | cons first others =>
          refine ⟨_, _, rfl, rfl, within, ?_, ?_⟩
          · rw [left]
            exact List.takeWhile_prefix _
          · rw [separator]
  | succ partPos induction =>
      rw [scan_turn other beyond solid passed, splitOn_eq_takeWhile, List.getElem?_cons_succ]
      cases behind : rest.dropWhile (· != chAim) with
      | nil =>
          refine ⟨_, _, rfl, ?_⟩
          rw [List.getElem?_nil]
          dsimp only
          omega
      | cons first others =>
          have split := List.takeWhile_append_dropWhile (p := (· != chAim)) (l := rest)
          rw [behind] at split
          have whole : front ++ rest =
              (front ++ (rest.takeWhile (· != chAim) ++ [first])) ++ others := by
            conv_lhs => rw [← split]
            simp only [List.append_assoc, List.cons_append, List.nil_append]
          have length : (front ++ (rest.takeWhile (· != chAim) ++ [first])).length =
              front.length + (rest.takeWhile (· != chAim)).length + 1 := by
            simp only [List.length_append, List.length_singleton]
            omega
          rw [whole] at solid ⊢
          exact induction solid length.symm length

include other in
/-- The loop from the beginning, where the first part has no separator before it. -/
theorem scan_parts {text : List UInt8} (solid : 0 ∉ text) (partPos : Nat) :
    ∃ tempPos pointers,
      scan chAim (text ++ 0 :: beyond) (partPos + 1) ⟨0, 0, 0⟩ = some (tempPos, pointers) ∧
        match (text.splitOn chAim)[partPos]? with
        | none => tempPos ≠ -1
        | some part =>
            tempPos = -1 ∧
              Between text part (if partPos = 0 then pointers.aptrStart else pointers.aptrStart + 1)
                pointers.aptrEnd := by
  have turn := @scan_turn chAim other [] text beyond solid ⟨0, 0, 0⟩ rfl partPos
  rw [List.nil_append] at turn
  rw [turn, splitOn_eq_takeWhile]
  have split := List.takeWhile_append_dropWhile (p := (· != chAim)) (l := text)
  cases behind : text.dropWhile (· != chAim) with
  | nil =>
      rw [behind, List.append_nil] at split
      cases partPos with
      | zero =>
          refine ⟨_, _, rfl, rfl, Nat.zero_le _, List.takeWhile_prefix _, ?_⟩
          rw [split]
          exact (Nat.zero_add _).symm
      | succ partPos =>
          refine ⟨_, _, rfl, ?_⟩
          rw [List.getElem?_cons_succ, List.getElem?_nil]
          dsimp only
          omega
  | cons first others =>
      cases partPos with
      | zero => exact ⟨_, _, rfl, rfl, Nat.zero_le _, List.takeWhile_prefix _, rfl⟩
      | succ partPos =>
          rw [behind] at split
          have whole : text = (text.takeWhile (· != chAim) ++ [first]) ++ others := by
            conv_lhs => rw [← split]
            simp only [List.append_assoc, List.cons_append, List.nil_append]
          have length : (text.takeWhile (· != chAim) ++ [first]).length =
              (text.takeWhile (· != chAim)).length + 1 := by
            rw [List.length_append, List.length_singleton]
          dsimp only
          rw [List.getElem?_cons_succ, List.length_nil, Nat.zero_add]
          simp only [if_neg (Nat.succ_ne_zero partPos)]
          generalize text.takeWhile (· != chAim) = head at whole length ⊢
          subst whole
          exact scan_behind other beyond solid length.symm length partPos

end Scan

/-! ## The copies -/

/-- An array that begins with a text, behind which there are zeros only. -/
def padded (text : List UInt8) : List UInt8 := text ++ List.replicate (tempSize - text.length) 0

theorem padded_eq {text : List UInt8} (short : text.length ≤ subLen) :
    padded text = text ++ 0 :: List.replicate (subLen - text.length) 0 := by
  have size : tempSize = subLen + 1 := rfl
  rw [padded, size, Nat.succ_sub short, List.replicate_succ]

theorem text_padded {text : List UInt8} (solid : 0 ∉ text) (short : text.length ≤ subLen)
    (behind : List UInt8) : Terminated.text 0 (padded text ++ behind) = text := by
  rw [padded_eq short, List.append_assoc, List.cons_append, Terminated.text_append solid]

theorem length_padded {text : List UInt8} (short : text.length ≤ subLen) :
    (padded text).length = tempSize := by
  have size : tempSize = subLen + 1 := rfl
  rw [padded, List.length_append, List.length_replicate]
  omega

/-- Copying so many bytes of a text as a part of it has. -/
theorem strncpy_part {text part source target : List UInt8} {count : Int}
    (begins : part <+: text) (read : Terminated.text 0 source = text)
    (counted : count = part.length) (fits : part.length ≤ target.length) :
    strncpy target source count = some (part ++ target.drop part.length) := by
  rcases begins with ⟨others, rfl⟩
  rw [strncpy, counted, Int.toNat_natCast, if_pos ⟨Int.natCast_nonneg _, fits⟩, read,
    List.take_left]
  dsimp only
  rw [Nat.sub_self, List.replicate_zero, List.append_nil, Terminated.store, List.take_zero,
    List.nil_append, Nat.zero_add]

/-- Copying a text that is shorter than `count`. -/
theorem strncpy_text {text source target : List UInt8} {count : Nat}
    (read : Terminated.text 0 source = text) (short : text.length ≤ count)
    (fits : count ≤ target.length) :
    strncpy target source count =
      some (text ++ List.replicate (count - text.length) 0 ++ target.drop count) := by
  have length : (text ++ List.replicate (count - text.length) (0 : UInt8)).length = count := by
    rw [List.length_append, List.length_replicate]
    omega
  rw [strncpy, Int.toNat_natCast, if_pos ⟨Int.natCast_nonneg _, fits⟩, read,
    List.take_of_length_le short]
  dsimp only
  rw [Terminated.store, length, List.take_zero, List.nil_append,
    Nat.zero_add]

/-! ## The parts -/

theorem copyPart_eq {text part : List UInt8} (solid : 0 ∉ text) (beyond : List UInt8)
    {partPos : Nat} {cursor : Cursor}
    (between : Between text part (if partPos = 0 then cursor.aptrStart else cursor.aptrStart + 1)
      cursor.aptrEnd) (short : part.length ≤ subLen) :
    copyPart (text ++ 0 :: beyond) partPos cursor = some (padded part) := by
  rcases between with ⟨within, begins, ends⟩
  have size : tempSize = subLen + 1 := rfl
  have fits : part.length ≤ (List.replicate tempSize (0 : UInt8)).length := by
    rw [List.length_replicate]
    omega
  have filled : part ++ (List.replicate tempSize (0 : UInt8)).drop part.length = padded part := by
    rw [List.drop_replicate, padded]
  have read : ∀ start, start ≤ text.length →
      Terminated.text 0 ((text ++ 0 :: beyond).drop start) = text.drop start := by
    intro start inside
    rw [List.drop_append_of_le_length inside,
      Terminated.text_append fun member => solid (List.drop_subset _ _ member)]
  rw [copyPart]
  by_cases first : partPos = 0
  · rw [if_pos first] at within begins ends ⊢
    rw [strncpy_part begins (read _ within) (by omega) fits, filled]
  · rw [if_neg first] at within begins ends ⊢
    rw [strncpy_part begins (read _ within) (by omega) fits, filled]

/-- What is returned for a part, and `des_str` with whatever was behind its first `des_len + 1`
bytes. -/
def answer (desStr : List UInt8) : Option (List UInt8) → Nat × List UInt8
  | none => (0, padded [] ++ desStr.drop tempSize)
  | some part => (1, padded (trimmed StringFilter.isBlank part) ++ desStr.drop tempSize)

theorem stringSplitter_eq {chAim : UInt8} (other : chAim ≠ 0) {text : List UInt8}
    (solid : 0 ∉ text) (short : text.length ≤ subLen) (beyond : List UInt8)
    {desStr : List UInt8} (room : tempSize ≤ desStr.length) (partPos : Nat) :
    stringSplitter desStr subLen (text ++ 0 :: beyond) partPos chAim =
      some (answer desStr (text.splitOn chAim)[partPos]?) := by
  have size : tempSize = subLen + 1 := rfl
  have cleared : Terminated.store desStr 0 (List.replicate (subLen + 1) 0) =
      padded [] ++ desStr.drop tempSize := by
    rw [Terminated.store, List.take_zero, List.nil_append, List.length_replicate, Nat.zero_add]
    rfl
  rcases scan_parts other beyond solid partPos with ⟨tempPos, pointers, scanned, found⟩
  rw [stringSplitter, if_neg (by omega), scanned]
  dsimp only [Option.bind_eq_bind, Option.bind_some]
  cases split : (text.splitOn chAim)[partPos]? with
  | none =>
      rw [split] at found
      rw [if_neg found, cleared, answer]
  | some part =>
      rw [split] at found
      rcases found with ⟨last, between⟩
      have inside : ∀ byte ∈ part, byte ∈ text := fun byte member =>
        List.mem_of_mem_drop (between.begins.subset member)
      have shorter : part.length ≤ subLen :=
        (length_le_of_mem_splitOn (List.mem_of_getElem? split)).trans short
      have solidPart : 0 ∉ part := fun member => solid (inside 0 member)
      rcases StringFilter.run_terminator solidPart (List.replicate (subLen - part.length) 0) with
        ⟨fptr, filtered, ran, kept⟩
      have trimmedShort := (length_trimmed_le StringFilter.isBlank part).trans shorter
      have fits : subLen ≤ (padded [] ++ desStr.drop tempSize).length := by
        rw [List.length_append, length_padded (Nat.zero_le _)]
        omega
      rw [if_pos last, copyPart_eq solid beyond between shorter]
      dsimp only [Option.bind_some]
      rw [padded_eq shorter, ran]
      dsimp only [Option.bind_some]
      have last : (padded [] ++ desStr.drop tempSize).drop subLen = 0 :: desStr.drop tempSize := by
        have zeros : padded [] ++ desStr.drop tempSize =
            List.replicate subLen 0 ++ 0 :: desStr.drop tempSize := by
          rw [padded_eq (Nat.zero_le _), List.nil_append, StringFilter.zeros_append_zero]
          rfl
        rw [zeros, List.drop_left' List.length_replicate]
      rw [cleared, strncpy_text kept trimmedShort fits, last, answer, padded_eq trimmedShort,
        List.append_assoc, StringFilter.zeros_append_zero, List.append_assoc, List.cons_append]
      rfl

/-! ## The loop over the clauses -/

/-- The clauses of a keyword as the body of the loop finds them in `sub_keyword`. -/
def subKeywords (keyword : List UInt8) : List (List UInt8) :=
  (keyword.splitOn 59).map fun part => padded (trimmed StringFilter.isBlank part)

section Loop

variable {State : Type} (body : State → List UInt8 → Option State) {keyword : List UInt8}

theorem clauseLoop_eq (solid : 0 ∉ keyword) (short : keyword.length ≤ subLen)
    (beyond : List UInt8) (fuel i : Nat) {subKeyword : List UInt8}
    (room : subKeyword.length = tempSize) (state : State)
    (reached : i ≤ (keyword.splitOn 59).length) (enough : (keyword.splitOn 59).length < i + fuel) :
    clauseLoop body (keyword ++ 0 :: beyond) fuel i subKeyword state =
      ((subKeywords keyword).drop i).foldlM body state := by
  have clauses : (subKeywords keyword).length = (keyword.splitOn 59).length := List.length_map _
  induction fuel generalizing i subKeyword state with
  | zero => omega
  | succ fuel induction =>
      rw [clauseLoop, stringSplitter_eq (by decide) solid short beyond room.ge]
      cases split : (keyword.splitOn 59)[i]? with
      | none =>
          have last := List.getElem?_eq_none_iff.mp split
          rw [List.drop_of_length_le (clauses.le.trans last)]
          rfl
      | some part =>
          have shorter := (length_le_of_mem_splitOn (List.mem_of_getElem? split)).trans short
          have filled := length_padded
            ((length_trimmed_le StringFilter.isBlank part).trans shorter)
          have mapped : (subKeywords keyword)[i]? =
              some (padded (trimmed StringFilter.isBlank part)) := by
            rw [subKeywords, List.getElem?_map, split]
            rfl
          rcases List.getElem?_eq_some_iff.mp mapped with ⟨inside, here⟩
          have memory : padded (trimmed StringFilter.isBlank part) ++ subKeyword.drop tempSize =
              padded (trimmed StringFilter.isBlank part) := by
            rw [List.drop_of_length_le room.le, List.append_nil]
          rw [List.drop_eq_getElem_cons inside, List.foldlM_cons, here]
          dsimp only [Option.bind_eq_bind, Option.bind_some, answer]
          rw [if_neg Nat.one_ne_zero, memory]
          cases body state (padded (trimmed StringFilter.isBlank part)) with
          | none => rfl
          | some state => exact induction (i + 1) filled state (by omega) (by omega)

end Loop

/-- What the splitter is for. -/
structure Splits (text : List UInt8) (chAim : UInt8) (partPos rt : Nat) (desStr : List UInt8) :
    Prop where
  found : rt = 1 ↔ partPos ≤ text.count chAim
  part : rt = 1 → ∃ part, (text.splitOn chAim)[partPos]? = some part ∧
    Terminated.text 0 desStr = trimmed StringFilter.isBlank part
  missing : rt ≠ 1 → rt = 0 ∧ Terminated.text 0 desStr = []

section Answer

variable {text : List UInt8} (solid : 0 ∉ text) (short : text.length ≤ subLen)

include solid short

theorem text_answer (chAim : UInt8) (partPos : Nat) (desStr : List UInt8) :
    Terminated.text 0 (answer desStr (text.splitOn chAim)[partPos]?).2 =
      (((text.splitOn chAim)[partPos]?).map (trimmed StringFilter.isBlank)).getD [] := by
  cases split : (text.splitOn chAim)[partPos]? with
  | none => exact text_padded List.not_mem_nil (Nat.zero_le _) _
  | some part =>
      have member := List.mem_of_getElem? split
      have shorter := (length_trimmed_le StringFilter.isBlank part).trans
        ((length_le_of_mem_splitOn member).trans short)
      exact text_padded (fun inside => solid (mem_of_mem_splitOn member (trimmed_subset inside)))
        shorter _

omit solid in
theorem length_answer {desStr : List UInt8} (room : desStr.length = tempSize) (chAim : UInt8)
    (partPos : Nat) : (answer desStr (text.splitOn chAim)[partPos]?).2.length = tempSize := by
  have none : desStr.drop tempSize = [] := List.drop_of_length_le room.le
  cases split : (text.splitOn chAim)[partPos]? with
  | none =>
      rw [answer, none, List.append_nil]
      exact length_padded (Nat.zero_le _)
  | some part =>
      rw [answer, none, List.append_nil]
      exact length_padded ((length_trimmed_le StringFilter.isBlank part).trans
        ((length_le_of_mem_splitOn (List.mem_of_getElem? split)).trans short))

theorem answer_splits (chAim : UInt8) (partPos : Nat) (desStr : List UInt8) :
    Splits text chAim partPos (answer desStr (text.splitOn chAim)[partPos]?).1
      (answer desStr (text.splitOn chAim)[partPos]?).2 := by
  have parts := length_splitOn chAim text
  have shown := text_answer solid short chAim partPos desStr
  cases split : (text.splitOn chAim)[partPos]? with
  | none =>
      rw [split] at shown
      have beyond := List.getElem?_eq_none_iff.mp split
      exact ⟨⟨fun one => absurd one Nat.zero_ne_one, fun few => by omega⟩,
        fun one => absurd one Nat.zero_ne_one, fun _ => ⟨rfl, shown⟩⟩
  | some part =>
      rw [split] at shown
      have inside := (List.getElem?_eq_some_iff.mp split).1
      exact ⟨⟨fun _ => by omega, fun _ => rfl⟩, fun _ => ⟨part, split, shown⟩,
        fun other => absurd rfl other⟩

end Answer

/-- The splitter finds the part of a text with that index, without the blanks around it; so the loop
comes to its end, and its body has had every clause once, one after the other. -/
theorem splitter_parts {source : List UInt8} (solid : 0 ∉ source) (short : source.length ≤ 319)
    (beyond : List UInt8) :
    (∀ chAim, chAim ≠ 0 → ∀ desStr : List UInt8, 320 ≤ desStr.length → ∀ partPos, ∃ rt parted,
        stringSplitter desStr 319 (source ++ 0 :: beyond) partPos chAim = some (rt, parted) ∧
          Splits source chAim partPos rt parted) ∧
      ∀ (State : Type) (body : State → List UInt8 → Option State) (state : State)
        (subKeyword : List UInt8), subKeyword.length = 320 → ∀ fuel, source.count 59 + 1 < fuel →
          clauseLoop body (source ++ 0 :: beyond) fuel 0 subKeyword state =
            (subKeywords source).foldlM body state := by
  constructor
  · intro chAim other desStr room partPos
    exact ⟨_, _, stringSplitter_eq other solid short beyond room partPos,
      answer_splits solid short chAim partPos desStr⟩
  · intro State body state subKeyword room fuel enough
    have parts := length_splitOn 59 source
    exact clauseLoop_eq body solid short beyond fuel 0 room state (Nat.zero_le _) (by omega)

/-- The second part of `"A; B\t"`, split at the semicolon, and the loop on it. -/
theorem splitter_second_part :
    (∃ rt parted, stringSplitter (List.replicate 320 7) 319 ([65, 59, 32, 66, 9] ++ 0 :: [7]) 1 59 =
        some (rt, parted) ∧ Splits [65, 59, 32, 66, 9] 59 1 rt parted) ∧
      clauseLoop (fun visited subKeyword => some (visited ++ [Terminated.text 0 subKeyword]))
        ([65, 59, 32, 66, 9] ++ 0 :: [7]) 3 0 (List.replicate 320 7) [] = some [[65], [66]] := by
  have parts := @splitter_parts [65, 59, 32, 66, 9] (by decide) (by decide) [7]
  refine ⟨parts.1 59 (by decide) (List.replicate 320 7) List.length_replicate.ge 1, ?_⟩
  rw [parts.2 _ _ _ _ List.length_replicate 3 (by decide)]
  have solid : (0 : UInt8) ∉ ([65] : List UInt8) ∧ (0 : UInt8) ∉ ([66] : List UInt8) := by decide
  have visited : subKeywords [65, 59, 32, 66, 9] = [padded [65], padded [66]] := rfl
  rw [visited]
  have first := text_padded solid.1 (by decide) []
  have second := text_padded solid.2 (by decide) []
  rw [List.append_nil] at first second
  simp only [List.foldlM_cons, List.foldlM_nil, first, second]
  rfl

/-! ## The whole handling -/

namespace Clauses

/-- The array is as long as it was declared. -/
def Whole (clauses : Clauses) : Prop := clauses.subValue.length = tempSize

/-- No fault, and the entry is the one of `handling`. -/
def Handles (result : Option Clauses) (handling : SearchFields.Handling) : Prop :=
  ∃ clauses, result = some clauses ∧ clauses.Whole ∧ clauses.handling = handling

theorem Handles.choose {condition : Prop} [Decidable condition] {left right : Option Clauses}
    {yes no : SearchFields.Handling} (taken : Handles left yes) (skipped : Handles right no) :
    Handles (if condition then left else right) (if condition then yes else no) := by
  by_cases holds : condition
  · rw [if_pos holds, if_pos holds]
    exact taken
  · rw [if_neg holds, if_neg holds]
    exact skipped

variable {text : List UInt8} (solid : 0 ∉ text) (short : text.length ≤ subLen)

include solid short

theorem useValue_handles (apply : List UInt8 → SearchFields.Handling) {subValue : List UInt8}
    (room : subValue.length = tempSize) :
    Handles (useValue apply (padded text) subValue)
      (apply ((SearchFields.stringSplitter subLen 61 text 1).getD [])) := by
  rw [padded_eq short, useValue, stringSplitter_eq (by decide) solid short _ room.ge]
  refine ⟨_, rfl, length_answer short room 61 1, ?_⟩
  rw [SearchFields.stringSplitter_eq 61 short]
  exact congrArg apply (text_answer solid short 61 1 subValue)

/-- The body on the memories does what it does to the texts in them. -/
theorem clause_handles {clauses : Clauses} (whole : clauses.Whole) :
    Handles (clause clauses (padded text)) (clauses.handling.clause text) := by
  have first : (text.splitOn 61)[0]? = some (text.takeWhile (· != 61)) := by
    rw [splitOn_eq_takeWhile]
    rfl
  have keyed := text_answer solid short 61 0 clauses.subValue
  have room := length_answer short whole 61 0
  rw [first] at keyed room
  have used := fun apply => useValue_handles solid short apply room
  have kept : Handles
      (some ⟨(answer clauses.subValue (some (text.takeWhile (· != 61)))).2, clauses.handling⟩)
      clauses.handling := ⟨_, rfl, room, rfl⟩
  have found : (answer clauses.subValue (some (text.takeWhile (· != 61)))).1 ≠ 0 := Nat.one_ne_zero
  rw [Option.map_some, Option.getD_some] at keyed
  rw [clause, padded_eq short, stringSplitter_eq (by decide) solid short _ whole.ge, first,
    SearchFields.Handling.clause, SearchFields.stringSplitter_eq 61 short, first, ← padded_eq short]
  dsimp only [Option.bind_eq_bind, Option.bind_some, Option.map_some]
  rw [if_neg found, keyed]
  have ranged := fun slot : SearchFields.SearchSlot =>
    @Handles.choose (clauses.handling.nameIsExact = true) _ _ _ _ _ kept
      (used (clauses.handling.strcpy slot 43))
  refine Handles.choose (used _) (Handles.choose (used _) ?_)
  refine Handles.choose (ranged .name) (Handles.choose (ranged .author) ?_)
  refine Handles.choose (ranged .label) ?_
  exact Handles.choose (used _) (Handles.choose (used _) kept)

omit solid short

theorem foldlM_handles {parts : List (List UInt8)}
    (fit : ∀ part ∈ parts, 0 ∉ part ∧ part.length ≤ subLen) {clauses : Clauses}
    (whole : clauses.Whole) :
    Handles
      ((parts.map fun part => padded (trimmed StringFilter.isBlank part)).foldlM clause clauses)
      (parts.foldl (fun handling part =>
        handling.clause (trimmed StringFilter.isBlank part)) clauses.handling) := by
  induction parts generalizing clauses with
  | nil => exact ⟨clauses, rfl, whole, rfl⟩
  | cons part parts induction =>
      rcases fit part List.mem_cons_self with ⟨solid, short⟩
      rcases clause_handles (fun member => solid (trimmed_subset member))
        ((length_trimmed_le StringFilter.isBlank part).trans short) whole with
        ⟨handled, ran, still, same⟩
      rw [List.map_cons, List.foldlM_cons, List.foldl_cons, ran, ← same]
      exact induction (fun part member => fit part (List.mem_cons_of_mem _ member)) still

/-- The loop on the memories ends with the entry that the handling of the texts makes. -/
theorem clauseLoop_handles {keyword : List UInt8} (solid : 0 ∉ keyword)
    (short : keyword.length ≤ subLen) (equals : 61 ∈ keyword) (beyond book : List UInt8)
    {subKeyword subValue : List UInt8} (keyRoom : subKeyword.length = tempSize)
    (valueRoom : subValue.length = tempSize) {fuel : Nat} (enough : keyword.count 59 + 1 < fuel) :
    Handles
      (clauseLoop clause (keyword ++ 0 :: beyond) fuel 0 subKeyword
        ⟨subValue, SearchFields.Handling.start book⟩)
      (SearchFields.handleSearchbookKeyword keyword book) := by
  have parts := length_splitOn 59 keyword
  rw [clauseLoop_eq clause solid short beyond fuel 0 keyRoom _ (Nat.zero_le _) (by omega),
    SearchFields.handle_clauses equals short book]
  refine foldlM_handles ?_ valueRoom
  intro part member
  exact ⟨fun inside => solid (mem_of_mem_splitOn member inside),
    (length_le_of_mem_splitOn member).trans short⟩

end Clauses

end StringSplitter

end Bookshelfdq
