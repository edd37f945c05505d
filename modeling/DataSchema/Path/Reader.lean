import DataSchema.Path.Basic
import DataSchema.Text.Quoted

/-!
Reading the text of a path.

Keys are separated by points and hold neither a bracket nor a quote; brackets hold an index or a key
as a quoted text. The first key has no point before it. `Path.parse` answers the steps, or why the text
is no path.
-/

namespace DataSchema.Path

/-- Why a text is no path. -/
inductive Fault where
  | unclosedBracket
  | unclosedQuote
  | notQuotedText
  | textAfterQuote
  | notAnIndex
  | noSeparator
  | emptyKey
  | bracketInKey
  deriving DecidableEq

/-- The reason as it is reported; the quoted text's own fault is not told apart. -/
def Fault.message : Fault → String
  | .unclosedBracket => "unclosed '['"
  | .unclosedQuote => "unclosed quoted key"
  | .notQuotedText => "quoted key is not a JSON string"
  | .textAfterQuote => "expected ']' after quoted key"
  | .notAnIndex => "index must be a non-negative integer"
  | .noSeparator => "expected '.' or '['"
  | .emptyKey => "empty key"
  | .bracketInKey => "unquoted key contains ']' or '\"'"

/-- Decimal digits after an optional plus sign, below `2 ^ 64`. -/
def readIndex? (text : List Char) : Option Nat :=
  let digits := match text with
    | '+' :: rest => rest
    | rest => rest
  if digits.isEmpty ∨ ¬digits.all Char.isDigit then none
  else
    let n := digits.foldl (fun n c => n * 10 + (c.toNat - '0'.toNat)) 0
    if n < UInt64.size then some n else none

/-- Splits a text after its first unescaped quote. -/
def splitQuote : List Char → Option (List Char × List Char)
  | [] => none
  | '"' :: rest => some (['"'], rest)
  | '\\' :: c :: rest => (splitQuote rest).map fun (body, rest) => ('\\' :: c :: body, rest)
  | c :: rest => (splitQuote rest).map fun (body, rest) => (c :: body, rest)

/-- The step in brackets of which the opening one has been read, and the text after it. -/
def readBracketed (input : List Char) : Except Fault (Step × List Char) :=
  if ']' ∈ input then
    match input with
    | '"' :: body =>
      match splitQuote body with
      | none => .error .unclosedQuote
      | some (quoted, rest) =>
        match Text.Quoted.decode? ('"' :: quoted), rest with
        | none, _ => .error .notQuotedText
        | some name, ']' :: rest => .ok (.key name, rest)
        | some _, _ => .error .textAfterQuote
    | _ =>
      match readIndex? (input.takeWhile (· != ']')) with
      | none => .error .notAnIndex
      | some i => .ok (.index i, (input.dropWhile (· != ']')).tail)
  else
    .error .unclosedBracket

/-- Does the character end an unquoted key? -/
def endsKey (c : Char) : Bool := c == '.' || c == '['

/-- An unquoted key and the text after it. -/
def readKey (input : List Char) : Except Fault (Step × List Char) :=
  let name := input.takeWhile (!endsKey ·)
  if name.isEmpty then .error .emptyKey
  else if name.contains ']' || name.contains '"' then .error .bracketInKey
  else .ok (.key (String.ofList name), input.dropWhile (!endsKey ·))

/-- One step; only the first of a path may be a key without a point. -/
def readStep (isFirst : Bool) : List Char → Except Fault (Step × List Char)
  | '[' :: rest => readBracketed rest
  | '.' :: rest => if isFirst then readKey ('.' :: rest) else readKey rest
  | input => if isFirst then readKey input else .error .noSeparator

theorem length_dropWhile_le {α : Type} (p : α → Bool) (xs : List α) :
    (xs.dropWhile p).length ≤ xs.length := (List.dropWhile_suffix p).length_le

theorem splitQuote_length {input body rest : List Char} (h : splitQuote input = some (body, rest)) :
    rest.length < input.length := by
  fun_induction splitQuote input generalizing body rest with
  | case1 => simp at h
  | case2 r => simp at h; simp [h.2]
  | case3 c r ih =>
    obtain ⟨⟨b, r'⟩, hs, he⟩ := Option.map_eq_some_iff.1 h
    have := ih hs
    simp at he
    simp [← he.2]; omega
  | case4 c r _ _ ih =>
    obtain ⟨⟨b, r'⟩, hs, he⟩ := Option.map_eq_some_iff.1 h
    have := ih hs
    simp at he
    simp [← he.2]; omega

theorem readBracketed_length {input rest : List Char} {s : Step}
    (h : readBracketed input = .ok (s, rest)) : rest.length < input.length := by
  unfold readBracketed at h
  split at h
  case isFalse => simp at h
  case isTrue hmem =>
    split at h
    · rename_i body
      split at h
      · simp at h
      · rename_i quoted after hs
        have := splitQuote_length hs
        split at h <;> simp at h
        simp_all; omega
    · split at h
      · simp at h
      · simp at h
        have hle := length_dropWhile_le (· != ']') input
        have hpos : 0 < input.length := List.length_pos_of_mem hmem
        simp [← h.2, List.length_tail]
        omega

theorem readKey_length {input rest : List Char} {s : Step}
    (h : readKey input = .ok (s, rest)) : rest.length < input.length := by
  unfold readKey at h
  simp only at h
  split at h
  · simp at h
  · rename_i hne
    split at h
    · simp at h
    · simp at h
      have hsplit := congrArg List.length (List.takeWhile_append_dropWhile (p := (!endsKey ·)) (l := input))
      rw [List.length_append, h.2] at hsplit
      have : 0 < (input.takeWhile (!endsKey ·)).length := by
        cases hw : input.takeWhile (!endsKey ·) <;> simp_all
      omega

/-- Every step takes a character. -/
theorem readStep_length {isFirst : Bool} {input rest : List Char} {s : Step}
    (h : readStep isFirst input = .ok (s, rest)) : rest.length < input.length := by
  unfold readStep at h
  split at h
  · have := readBracketed_length h; simp; omega
  · split at h
    · exact readKey_length h
    · have := readKey_length h; simp; omega
  · split at h
    · exact readKey_length h
    · simp at h

/-- The steps of a text. -/
def readSteps (isFirst : Bool) (input : List Char) : Except Fault Path :=
  if input.isEmpty then .ok []
  else
    match _h : readStep isFirst input with
    | .error fault => .error fault
    | .ok (s, rest) =>
      match readSteps false rest with
      | .error fault => .error fault
      | .ok path => .ok (s :: path)
termination_by input.length
decreasing_by exact readStep_length (by assumption)

/-- The path of a text; the empty text is the root. -/
def parse (text : String) : Except Fault Path := readSteps true text.toList

end DataSchema.Path
