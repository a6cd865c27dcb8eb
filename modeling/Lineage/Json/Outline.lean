import Lineage.Json.Number

/-!
# The outline of a text

Where values begin and end. `skipValue` passes over a value without looking into it more than its
brackets and quotes require: the brackets that are open are held in a list, so that nesting has no
limit here, numbers may have any size, and a surrogate escape may stand alone. `elements` and
`members` cut the inside of a container into its parts by passing over one after the other; a `Run`
holds the parts that were found and how the container ended.

The parts are given by the text that starts at them, which is what the readers of values take.
-/

namespace Lineage.Json

/-! ### Passing over values -/

/-- The kinds of brackets that can be open. -/
inductive Bracket
  | square
  | curly
deriving DecidableEq, Repr

/-- Passes over a value that is no container and starts the text. -/
def skipScalar : List Char → Except Fault (List Char)
  | [] => .error ⟨.endInValue, [], 0⟩
  -- The words and strings are told by their first character.
  | 'n' :: rest => readWord ['u', 'l', 'l'] rest
  | 't' :: rest => readWord ['r', 'u', 'e'] rest
  | 'f' :: rest => readWord ['a', 'l', 's', 'e'] rest
  | '"' :: rest => skipText rest
  | '-' :: rest => Number.skip ('-' :: rest)
  | c :: rest =>
    if isDigit c then Number.skip (c :: rest) else .error ⟨.expectedValue, c :: rest, 1⟩

/-- A scalar takes a character at least. -/
theorem length_of_skipScalar {text rest : List Char} (h : skipScalar text = .ok rest) :
    rest.length < text.length := by
  unfold skipScalar at h
  split at h
  · simp at h
  · exact Nat.lt_succ_of_le (length_of_readWord h)
  · exact Nat.lt_succ_of_le (length_of_readWord h)
  · exact Nat.lt_succ_of_le (length_of_readWord h)
  · exact Nat.lt_succ_of_lt (length_of_skipText h)
  · exact Number.length_of_skip h
  · split at h
    · exact Number.length_of_skip h
    · simp at h

/-- Takes the colon after a key. -/
def takeColon (text : List Char) : Except Fault (List Char) :=
  match dropBlanks text with
  | [] => .error ⟨.endInObject, [], 0⟩
  | ':' :: rest => .ok rest
  | rest => .error ⟨.expectedColon, rest, 1⟩

/-- A colon does. -/
theorem length_of_takeColon {text rest : List Char} (h : takeColon text = .ok rest) :
    rest.length < text.length := by
  unfold takeColon at h
  split at h
  · simp at h
  next heq =>
    simp only [Except.ok.injEq] at h
    exact h ▸ length_of_dropBlanks heq
  · simp at h

/-- Passes over a key and its colon. -/
def skipKey (text : List Char) : Except Fault (List Char) :=
  match dropBlanks text with
  | [] => .error ⟨.endInObject, [], 0⟩
  | '"' :: rest =>
    match skipText rest with
    | .error fault => .error fault
    | .ok rest => takeColon rest
  | rest => .error ⟨.keyNotText, rest, 1⟩

/-- So does a key with its colon. -/
theorem length_of_skipKey {text rest : List Char} (h : skipKey text = .ok rest) :
    rest.length < text.length := by
  unfold skipKey at h
  split at h
  · simp at h
  next heq =>
    split at h
    · simp at h
    next hskip =>
      have h1 := length_of_dropBlanks heq
      have h2 := length_of_skipText hskip
      have h3 := length_of_takeColon h
      omega
  · simp at h

mutual

/-- Passes over the value that is next and then over all that the open brackets still hold. -/
def skipValue (opened : List Bracket) (text : List Char) : Except Fault (List Char) :=
  match _hd : dropBlanks text with
  | '[' :: rest =>
    match _he : dropBlanks rest with
    | [] => .error ⟨.endInList, [], 0⟩
    | ']' :: rest => skipRest opened rest
    | _ => skipValue (.square :: opened) rest
  | '{' :: rest =>
    match _he : dropBlanks rest with
    | [] => .error ⟨.endInObject, [], 0⟩
    | '}' :: rest => skipRest opened rest
    | _ =>
      match _hk : skipKey rest with
      | .error fault => .error fault
      | .ok rest => skipValue (.curly :: opened) rest
  | scalar =>
    match _hs : skipScalar scalar with
    | .error fault => .error fault
    | .ok rest => skipRest opened rest
termination_by text.length
decreasing_by
  -- An array: both its brackets are gone, or the one that opens it.
  · have h1 := length_of_dropBlanks _hd
    have h2 := length_of_dropBlanks _he
    omega
  · exact length_of_dropBlanks _hd
  -- An object: both its braces are gone, or the one that opens it and a key.
  · have h1 := length_of_dropBlanks _hd
    have h2 := length_of_dropBlanks _he
    omega
  · have h1 := length_of_dropBlanks _hd
    have h2 := length_of_skipKey _hk
    omega
  -- A scalar is never empty.
  · have h1 := length_dropBlanks_le text
    rw [_hd] at h1
    have h2 := length_of_skipScalar _hs
    omega

/-- Passes over all that the open brackets still hold, behind a value. -/
def skipRest (opened : List Bracket) (text : List Char) : Except Fault (List Char) :=
  match opened with
  -- Nothing is open, so the value that was started is over.
  | [] => .ok text
  | .square :: opened =>
    match _hd : dropBlanks text with
    | [] => .error ⟨.endInList, [], 0⟩
    | ',' :: rest => skipValue (.square :: opened) rest
    | ']' :: rest => skipRest opened rest
    | rest => .error ⟨.expectedCommaOrBracket, rest, 1⟩
  | .curly :: opened =>
    match _hd : dropBlanks text with
    | [] => .error ⟨.endInObject, [], 0⟩
    | ',' :: rest =>
      match _hk : skipKey rest with
      | .error fault => .error fault
      | .ok rest => skipValue (.curly :: opened) rest
    | '}' :: rest => skipRest opened rest
    | rest => .error ⟨.expectedCommaOrBrace, rest, 1⟩
termination_by text.length
decreasing_by
  · exact length_of_dropBlanks _hd
  · exact length_of_dropBlanks _hd
  · have h1 := length_of_dropBlanks _hd
    have h2 := length_of_skipKey _hk
    omega
  · exact length_of_dropBlanks _hd

end

/-- What is passed over is not empty, and what follows it is not longer. -/
theorem length_of_skip (n : Nat) :
    (∀ opened text rest, text.length ≤ n → skipValue opened text = .ok rest →
      rest.length < text.length) ∧
    (∀ opened text rest, text.length ≤ n → skipRest opened text = .ok rest →
      rest.length ≤ text.length) := by
  -- On a bound of the length, since the two functions call each other on shorter texts.
  induction n with
  | zero =>
    refine ⟨fun opened text rest hn h => ?_, fun opened text rest hn h => ?_⟩
    · obtain rfl : text = [] := List.length_eq_zero_iff.1 (Nat.le_zero.1 hn)
      unfold skipValue at h
      simp [dropBlanks, skipScalar] at h
    · obtain rfl : text = [] := List.length_eq_zero_iff.1 (Nat.le_zero.1 hn)
      unfold skipRest at h
      split at h <;> simp_all [dropBlanks]
  | succ n ih =>
    obtain ⟨ihValue, ihRest⟩ := ih
    refine ⟨fun opened text rest hn h => ?_, fun opened text rest hn h => ?_⟩
    · unfold skipValue at h
      split at h
      next hd =>
        have h1 := length_of_dropBlanks hd
        split at h
        · simp at h
        next he =>
          have h2 := length_of_dropBlanks he
          have h3 := ihRest _ _ _ (by omega) h
          omega
        next =>
          have h3 := ihValue _ _ _ (by omega) h
          omega
      next hd =>
        have h1 := length_of_dropBlanks hd
        split at h
        · simp at h
        next he =>
          have h2 := length_of_dropBlanks he
          have h3 := ihRest _ _ _ (by omega) h
          omega
        next =>
          split at h
          · simp at h
          next hk =>
            have h2 := length_of_skipKey hk
            have h3 := ihValue _ _ _ (by omega) h
            omega
      next =>
        split at h
        · simp at h
        next hs =>
          have h1 := length_dropBlanks_le text
          have h2 := length_of_skipScalar hs
          have h3 := ihRest _ _ _ (by omega) h
          omega
    · unfold skipRest at h
      split at h
      · simp only [Except.ok.injEq] at h
        exact h ▸ Nat.le_refl _
      next =>
        split at h
        · simp at h
        next hd =>
          have h1 := length_of_dropBlanks hd
          have h3 := ihValue _ _ _ (by omega) h
          omega
        next hd =>
          have h1 := length_of_dropBlanks hd
          have h3 := ihRest _ _ _ (by omega) h
          omega
        · simp at h
      next =>
        split at h
        · simp at h
        next hd =>
          have h1 := length_of_dropBlanks hd
          split at h
          · simp at h
          next hk =>
            have h2 := length_of_skipKey hk
            have h3 := ihValue _ _ _ (by omega) h
            omega
        next hd =>
          have h1 := length_of_dropBlanks hd
          have h3 := ihRest _ _ _ (by omega) h
          omega
        · simp at h

/-- Behind a value a text is shorter, whatever brackets are open. -/
theorem length_of_skipValue {opened : List Bracket} {text rest : List Char}
    (h : skipValue opened text = .ok rest) : rest.length < text.length :=
  (length_of_skip text.length).1 opened text rest (Nat.le_refl _) h

/-! ### Parts of a container -/

/-- What the inside of a container falls into: the parts that were met, and the text behind the
closing bracket or the fault that kept it from being reached. -/
structure Run (α : Type) where
  /-- The parts in their order. The last of them may be the one that is faulty. -/
  parts : List α
  ending : Except Fault (List Char)
deriving Repr

def Run.cons {α : Type} (part : α) (run : Run α) : Run α :=
  ⟨part :: run.parts, run.ending⟩

/-- The elements of an array from a text where one is due. -/
def elementsFrom (text : List Char) : Run (List Char) :=
  let start := dropBlanks text
  match _hs : skipValue [] start with
  | .error fault => ⟨[start], .error fault⟩
  | .ok rest =>
    match _hd : dropBlanks rest with
    | [] => ⟨[start], .error ⟨.endInList, [], 0⟩⟩
    | ']' :: rest => ⟨[start], .ok rest⟩
    | ',' :: rest =>
      match dropBlanks rest with
      -- Behind a comma a value is due, so this is where the text ends too early or the comma stands
      -- too late.
      | [] => ⟨[start], .error ⟨.endInValue, [], 0⟩⟩
      | ']' :: rest => ⟨[start], .error ⟨.trailingComma, ']' :: rest, 1⟩⟩
      | _ => (elementsFrom rest).cons start
    | rest => ⟨[start], .error ⟨.expectedCommaOrBracket, rest, 1⟩⟩
termination_by text.length
decreasing_by
  have h1 : start.length ≤ text.length := length_dropBlanks_le text
  have h2 := length_of_skipValue _hs
  have h3 := length_of_dropBlanks _hd
  omega

/-- The elements of an array whose opening bracket has been taken. -/
def elements (text : List Char) : Run (List Char) :=
  match dropBlanks text with
  | [] => ⟨[], .error ⟨.endInList, [], 0⟩⟩
  | ']' :: rest => ⟨[], .ok rest⟩
  | _ => elementsFrom text

theorem length_of_mem_elementsFrom {text start : List Char}
    (h : start ∈ (elementsFrom text).parts) : start.length ≤ text.length := by
  fun_induction elementsFrom text with
  | case6 text first behind hskip next hcomma _ _ ih =>
    rcases List.mem_cons.1 h with rfl | hmore
    · exact length_dropBlanks_le text
    · have h1 : first.length ≤ text.length := length_dropBlanks_le text
      have h2 := length_of_skipValue hskip
      have h3 := length_of_dropBlanks hcomma
      have h4 := ih hmore
      omega
  | _ =>
    obtain rfl := List.mem_singleton.1 h
    exact length_dropBlanks_le _

/-- The elements of an array start inside of it. -/
theorem length_of_mem_elements {text start : List Char} (h : start ∈ (elements text).parts) :
    start.length ≤ text.length := by
  unfold elements at h
  split at h
  · cases h
  · cases h
  · exact length_of_mem_elementsFrom h

/-- A member of an object: its key, and the text behind the key's closing quote. -/
structure Member where
  key : String
  afterKey : List Char
deriving DecidableEq, Repr

/-- The text from the member's value on. -/
def Member.value (member : Member) : Except Fault (List Char) :=
  (takeColon member.afterKey).map dropBlanks

theorem Member.length_of_value {member : Member} {start : List Char}
    (h : member.value = .ok start) : start.length < member.afterKey.length := by
  unfold Member.value at h
  cases hc : takeColon member.afterKey with
  | error fault => simp [hc, Except.map] at h
  | ok rest =>
    simp only [hc, Except.map, Except.ok.injEq] at h
    have h1 := length_of_takeColon hc
    have h2 := length_dropBlanks_le rest
    rw [h] at h2
    omega

/-- The members of an object from a text where a key starts behind its opening quote. -/
def membersFrom (text : List Char) : Run Member :=
  match _hk : readText text with
  | .error fault => ⟨[], .error fault⟩
  | .ok (key, afterKey) =>
    let member : Member := ⟨key, afterKey⟩
    match _hv : member.value with
    | .error fault => ⟨[member], .error fault⟩
    | .ok start =>
      match _hs : skipValue [] start with
      | .error fault => ⟨[member], .error fault⟩
      | .ok rest =>
        match _hd : dropBlanks rest with
        | [] => ⟨[member], .error ⟨.endInObject, [], 0⟩⟩
        | '}' :: rest => ⟨[member], .ok rest⟩
        | ',' :: rest =>
          match _hn : dropBlanks rest with
          | [] => ⟨[member], .error ⟨.endInValue, [], 0⟩⟩
          | '}' :: rest => ⟨[member], .error ⟨.trailingComma, '}' :: rest, 1⟩⟩
          | '"' :: rest => (membersFrom rest).cons member
          | rest => ⟨[member], .error ⟨.keyNotText, rest, 1⟩⟩
        | rest => ⟨[member], .error ⟨.expectedCommaOrBrace, rest, 1⟩⟩
termination_by text.length
decreasing_by
  have h1 := length_of_readText _hk
  have h2 : start.length < afterKey.length := Member.length_of_value _hv
  have h3 := length_of_skipValue _hs
  have h4 := length_of_dropBlanks _hd
  have h5 := length_of_dropBlanks _hn
  omega

/-- The members of an object whose opening brace has been taken. -/
def members (text : List Char) : Run Member :=
  match dropBlanks text with
  | [] => ⟨[], .error ⟨.endInObject, [], 0⟩⟩
  | '}' :: rest => ⟨[], .ok rest⟩
  | '"' :: rest => membersFrom rest
  | rest => ⟨[], .error ⟨.keyNotText, rest, 1⟩⟩

theorem length_of_mem_membersFrom {text : List Char} {member : Member}
    (h : member ∈ (membersFrom text).parts) : member.afterKey.length < text.length := by
  fun_induction membersFrom text with
  | case1 => cases h
  | case8 text key afterKey hkey first start hstart behind hskip next hcomma text' hquote ih =>
    have h1 : afterKey.length < text.length := length_of_readText hkey
    rcases List.mem_cons.1 h with rfl | hmore
    · exact h1
    · have h2 : start.length < afterKey.length := Member.length_of_value hstart
      have h3 := length_of_skipValue hskip
      have h4 := length_of_dropBlanks hcomma
      have h5 := length_of_dropBlanks hquote
      have h6 := ih hmore
      omega
  | _ =>
    obtain rfl := List.mem_singleton.1 h
    exact length_of_readText (by assumption)

/-- The values of the members of an object start inside of it. -/
theorem length_of_mem_members {text : List Char} {member : Member}
    (h : member ∈ (members text).parts) : member.afterKey.length < text.length := by
  unfold members at h
  split at h
  · cases h
  · cases h
  next inside hquote =>
    exact Nat.lt_trans (length_of_mem_membersFrom h) (length_of_dropBlanks hquote)
  · cases h

end Lineage.Json
