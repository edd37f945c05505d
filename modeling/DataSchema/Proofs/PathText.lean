import DataSchema.Path.Reader
import DataSchema.Proofs.ShownText

/-!
Reading the text of a path back.

From its text a step is read back wherever it stands (`readStep_stepText`, `readStep_withoutPoint`), unless
its key is shown by an escape that quoted text does not have, or its index is too large. So a path is read
back as itself exactly if all its steps are (`parse_render_eq_ok_iff`), which leaves out keys with control or
combining characters (`parse_render_unread`).
-/

namespace DataSchema

/-- Why a step is not read back from its text, if it is not. -/
def Step.fault? : Step → Option Path.Fault
  | .key name =>
    if Path.isIdentifier name || name.toList.all Text.readsBack then none else some .notQuotedText
  | .index i => if i < UInt64.size then none else some .notAnIndex

namespace Path

open Text

variable {rest : List Char}

def stepText (s : Step) : List Char := (renderStep s).toList

/-- The text without a point at its beginning. -/
def withoutPoint : List Char → List Char
  | '.' :: rest => rest
  | cs => cs

/-- Is a key over where this follows it? -/
def EndsKey (rest : List Char) : Prop := ∀ c ∈ rest.head?, endsKey c = true

/-! ### Quoted keys -/

theorem splitQuote_plain : ∀ {cs : List Char}, (∀ c ∈ cs, c ≠ '"' ∧ c ≠ '\\') → ∀ tail : List Char,
    splitQuote (cs ++ tail) = (splitQuote tail).map fun p => (cs ++ p.1, p.2)
  | [], _, tail => by cases h : splitQuote tail <;> simp [h]
  | c :: cs, h, tail => by
    rw [List.forall_mem_cons] at h
    rw [List.cons_append, splitQuote, splitQuote_plain h.2, Option.map_map]
    · rfl
    · exact h.1.1
    · exact fun _ _ hc _ => h.1.2 hc

theorem plain_digitChar : ∀ d < 16, d.digitChar ≠ '"' ∧ d.digitChar ≠ '\\' := by decide

/-- The quotes in what is shown are escaped. -/
theorem splitQuote_shape {c : Char} {b : Bool} {shown : List Char} (h : Shape c b shown)
    (tail : List Char) :
    splitQuote (shown ++ tail) = (splitQuote tail).map fun p => (shown ++ p.1, p.2) := by
  cases h with
  | itself hquote hbackslash _ =>
    exact splitQuote_plain (fun _ hc => List.mem_singleton.mp hc ▸ ⟨hquote, hbackslash⟩) tail
  | short _ => rfl
  | null => rfl
  | code =>
    have hplain : ∀ d ∈ '\x7b' :: (Nat.toDigits 16 c.toNat ++ ['\x7d']), d ≠ '"' ∧ d ≠ '\\' := by
      intro d hd
      rcases List.mem_cons.mp hd with rfl | hd
      · decide
      rcases List.mem_append.mp hd with hdigit | hlast
      · obtain ⟨n, hn, rfl⟩ := exists_digitChar_of_mem_toDigits (by decide) hdigit
        exact plain_digitChar n hn
      · rw [List.mem_singleton.mp hlast]
        decide
    rw [List.cons_append, List.cons_append, splitQuote, splitQuote_plain hplain, Option.map_map]
    rfl

theorem splitQuote_flatMap_escapeShown : ∀ cs tail : List Char,
    splitQuote (cs.flatMap escapeShown ++ '"' :: tail) =
      some (cs.flatMap escapeShown ++ ['"'], tail)
  | [], _ => rfl
  | c :: cs, tail => by
    rw [List.flatMap_cons, List.append_assoc, splitQuote_shape (shape_escapeShown c),
      splitQuote_flatMap_escapeShown cs tail, Option.map_some, List.append_assoc]

theorem readBracketed_quoteShown (name : String) (rest : List Char) :
    readBracketed ((quoteShown name).toList ++ ']' :: rest) =
      if name.toList.all readsBack then .ok (.key name, rest) else .error .notQuotedText := by
  have hshown : (quoteShown name).toList = '"' :: (name.toList.flatMap escapeShown ++ ['"']) := by
    rw [quoteShown, String.toList_ofList]
  have hsplit : splitQuote (name.toList.flatMap escapeShown ++ ['"'] ++ ']' :: rest) =
      some (name.toList.flatMap escapeShown ++ ['"'], ']' :: rest) := by
    rw [List.append_assoc]
    exact splitQuote_flatMap_escapeShown name.toList (']' :: rest)
  have hdecode := decode?_quoteShown name
  rw [hshown] at hdecode ⊢
  rw [readBracketed.eq_def, if_pos (by simp), List.cons_append]
  split
  · next body hbody =>
    obtain rfl := (List.cons.inj hbody).2
    rw [hsplit]
    simp only [hdecode]
    cases name.toList.all readsBack <;> rfl
  · next hother => exact (hother _ rfl).elim

/-! ### Indices -/

theorem isDigit_of_mem_toString {i : Nat} {c : Char} (h : c ∈ (toString i).toList) :
    c.isDigit = true := by
  rw [Nat.toString_eq_repr, Nat.toList_repr] at h
  exact Nat.isDigit_of_mem_toDigits (by decide) (by decide) h

theorem toString_toList_ne_nil (i : Nat) : (toString i).toList ≠ [] := by
  rw [Nat.toString_eq_repr, Nat.toList_repr]
  exact Nat.toDigits_ne_nil

/-- The digits of a number are read as the number. -/
theorem foldl_toString (i : Nat) :
    (toString i).toList.foldl (fun n c => n * 10 + (c.toNat - '0'.toNat)) 0 = i := by
  rw [Nat.toString_eq_repr, Nat.toList_repr]
  calc (Nat.toDigits 10 i).foldl (fun n c => n * 10 + (c.toNat - '0'.toNat)) 0
    _ = Nat.ofDigitChars 10 (Nat.toDigits 10 i) 0 := by
      simp only [Nat.ofDigitChars, Nat.mul_comm 10]
    _ = i := Nat.ofDigitChars_toDigits (by decide) (by decide)

theorem readIndex?_toString (i : Nat) :
    readIndex? (toString i).toList = if i < UInt64.size then some i else none := by
  have hdigits : ¬((toString i).toList.isEmpty = true ∨ ¬(toString i).toList.all Char.isDigit) := by
    rw [List.isEmpty_iff, not_or, not_not, List.all_eq_true]
    exact ⟨toString_toList_ne_nil i, fun c hc => isDigit_of_mem_toString hc⟩
  have hsign : ∀ rest, (toString i).toList = '+' :: rest → False := by
    intro rest hplus
    have hdigit : '+'.isDigit = true := isDigit_of_mem_toString (i := i) (hplus ▸ List.mem_cons_self)
    cases hdigit
  rw [readIndex?.eq_def]
  split
  · next rest hplus => exact (hsign rest hplus).elim
  · simp only [if_neg hdigits, foldl_toString]

theorem readBracketed_toString (i : Nat) (rest : List Char) :
    readBracketed ((toString i).toList ++ ']' :: rest) =
      if i < UInt64.size then .ok (.index i, rest) else .error .notAnIndex := by
  have hinside : ∀ c ∈ (toString i).toList, (c != ']') = true := by
    intro c hc
    have hdigit := isDigit_of_mem_toString hc
    rw [bne_iff_ne]
    rintro rfl
    cases hdigit
  have hquote : ∀ body, (toString i).toList ++ ']' :: rest = '"' :: body → False := by
    intro body hbody
    cases hcs : (toString i).toList with
    | nil => exact toString_toList_ne_nil i hcs
    | cons c cs =>
      rw [hcs, List.cons_append, List.cons.injEq] at hbody
      have hdigit : c.isDigit = true := isDigit_of_mem_toString (i := i) (hcs ▸ List.mem_cons_self)
      rw [hbody.1] at hdigit
      cases hdigit
  rw [readBracketed.eq_def, if_pos (by simp)]
  split
  · next body hbody => exact (hquote body hbody).elim
  · rw [List.takeWhile_append_of_pos hinside, List.dropWhile_append_of_pos hinside]
    simp only [List.takeWhile_cons, List.dropWhile_cons, bne_self_eq_false, Bool.false_eq_true,
      if_false, List.append_nil, List.tail_cons, readIndex?_toString]
    by_cases hi : i < UInt64.size
    · simp only [if_pos hi]
    · simp only [if_neg hi]

/-! ### Unquoted keys -/

theorem isIdentifier_iff {name : String} : isIdentifier name = true ↔
    ∃ c cs, name.toList = c :: cs ∧ isIdentifierStart c = true ∧
      ∀ d ∈ cs, isIdentifierStart d = true ∨ d.isDigit = true := by
  rw [isIdentifier]
  split
  · next hnil => simp [hnil]
  · next c cs hcons => simp [hcons]

theorem identifierChar_ne {c d : Char} (h : isIdentifierStart c = true ∨ c.isDigit = true)
    (hd : isIdentifierStart d = false ∧ d.isDigit = false) : c ≠ d := by
  rintro rfl
  rcases h with hstart | hdigit
  · exact Bool.false_ne_true (hd.1.symm.trans hstart)
  · exact Bool.false_ne_true (hd.2.symm.trans hdigit)

theorem identifierChars {name : String} (h : isIdentifier name = true) :
    ∀ c ∈ name.toList, isIdentifierStart c = true ∨ c.isDigit = true := by
  obtain ⟨c, cs, hcs, hc, hrest⟩ := isIdentifier_iff.mp h
  rw [hcs]
  exact List.forall_mem_cons.mpr ⟨.inl hc, hrest⟩

theorem takeWhile_of_endsKey (hrest : EndsKey rest) : rest.takeWhile (!endsKey ·) = [] := by
  cases rest with
  | nil => rfl
  | cons c rest => rw [List.takeWhile_cons, hrest c rfl]; rfl

theorem dropWhile_of_endsKey (hrest : EndsKey rest) : rest.dropWhile (!endsKey ·) = rest := by
  cases rest with
  | nil => rfl
  | cons c rest => rw [List.dropWhile_cons, hrest c rfl]; rfl

theorem readKey_identifier {name : String} (hname : isIdentifier name = true) (hrest : EndsKey rest) :
    readKey (name.toList ++ rest) = .ok (.key name, rest) := by
  have hchars := identifierChars hname
  have hinside : ∀ c ∈ name.toList, (!endsKey c) = true := by
    intro c hc
    have hpoint : c ≠ '.' := identifierChar_ne (hchars c hc) (by decide)
    have hbracket : c ≠ '[' := identifierChar_ne (hchars c hc) (by decide)
    simp [endsKey, hpoint, hbracket]
  have hempty : name.toList.isEmpty = false := by
    obtain ⟨c, cs, hcs, _⟩ := isIdentifier_iff.mp hname
    rw [hcs, List.isEmpty_cons]
  have hclose : ']' ∉ name.toList := fun hmem => identifierChar_ne (hchars _ hmem) (by decide) rfl
  have hquote : '"' ∉ name.toList := fun hmem => identifierChar_ne (hchars _ hmem) (by decide) rfl
  rw [readKey, List.takeWhile_append_of_pos hinside, List.dropWhile_append_of_pos hinside,
    takeWhile_of_endsKey hrest, dropWhile_of_endsKey hrest, List.append_nil]
  simp [hempty, hclose, hquote]

/-! ### Steps -/

/-- What a step is read back as. -/
def readBack (s : Step) (rest : List Char) : Except Fault (Step × List Char) :=
  match s.fault? with
  | none => .ok (s, rest)
  | some fault => .error fault

theorem stepText_key {name : String} (h : isIdentifier name = true) :
    stepText (.key name) = '.' :: name.toList := by
  rw [stepText, renderStep, if_pos h, String.toList_append]
  rfl

theorem stepText_quoted {name : String} (h : ¬isIdentifier name = true) :
    stepText (.key name) = '[' :: ((quoteShown name).toList ++ [']']) := by
  rw [stepText, renderStep, if_neg h, String.toList_append, String.toList_append]
  rfl

theorem stepText_index (i : Nat) : stepText (.index i) = '[' :: ((toString i).toList ++ [']']) := by
  rw [stepText, renderStep, String.toList_append, String.toList_append]
  rfl

/-- The text of a step is a point and a key, or a bracket and what is read in brackets. -/
theorem stepText_cases (s : Step) :
    (∃ name, s = .key name ∧ isIdentifier name = true ∧ stepText s = '.' :: name.toList) ∨
      ∃ inside, stepText s = '[' :: inside ∧
        ∀ rest, readBracketed (inside ++ rest) = readBack s rest := by
  cases s with
  | index i =>
    refine .inr ⟨_, stepText_index i, fun rest => ?_⟩
    rw [List.append_assoc, List.singleton_append, readBracketed_toString, readBack, Step.fault?]
    by_cases hi : i < UInt64.size
    · simp only [if_pos hi]
    · simp only [if_neg hi]
  | key name =>
    by_cases hname : isIdentifier name = true
    · exact .inl ⟨name, rfl, hname, stepText_key hname⟩
    · refine .inr ⟨_, stepText_quoted hname, fun rest => ?_⟩
      rw [List.append_assoc, List.singleton_append, readBracketed_quoteShown, readBack, Step.fault?]
      rw [Bool.not_eq_true] at hname
      rw [hname, Bool.false_or]
      cases name.toList.all readsBack <;> rfl

theorem readBack_identifier {name : String} (hname : isIdentifier name = true) (rest : List Char) :
    readBack (.key name) rest = .ok (.key name, rest) := by
  rw [readBack, Step.fault?, hname]
  rfl

theorem readStep_stepText (s : Step) (hrest : EndsKey rest) :
    readStep false (stepText s ++ rest) = readBack s rest := by
  rcases stepText_cases s with ⟨name, rfl, hname, htext⟩ | ⟨inside, htext, hinside⟩
  · rw [htext, readBack_identifier hname]
    exact readKey_identifier hname hrest
  · rw [htext]
    exact hinside rest

/-- At the beginning of a path a key needs no point. -/
theorem readStep_withoutPoint (s : Step) (hrest : EndsKey rest) :
    readStep true (withoutPoint (stepText s) ++ rest) = readBack s rest := by
  rcases stepText_cases s with ⟨name, rfl, hname, htext⟩ | ⟨inside, htext, hinside⟩
  · obtain ⟨c, cs, hcs, hc, _⟩ := isIdentifier_iff.mp hname
    have hbracket : c ≠ '[' := identifierChar_ne (.inl hc) (by decide)
    have hkey : readStep true (name.toList ++ rest) = readKey (name.toList ++ rest) := by
      rw [hcs, List.cons_append, readStep.eq_def]
      split
      · next _ _ hopen => exact (hbracket (List.cons.inj hopen).1).elim
      · next _ _ hpoint => rw [hpoint]; rfl
      · rfl
    rw [htext, readBack_identifier hname]
    exact hkey.trans (readKey_identifier hname hrest)
  · rw [htext]
    exact hinside rest

/-! ### Paths -/

theorem endsKey_flatMap_stepText (path : Path) : EndsKey (path.flatMap stepText) := by
  cases path with
  | nil => exact nofun
  | cons s path =>
    rw [List.flatMap_cons]
    rcases stepText_cases s with ⟨name, rfl, _, htext⟩ | ⟨inside, htext, _⟩
    · rw [htext]
      rintro _ ⟨⟩
      rfl
    · rw [htext]
      rintro _ ⟨⟩
      rfl

/-- What a path is read back as: itself, unless some step has a fault. -/
def outcome (path : Path) : Except Fault Path :=
  match path.findSome? Step.fault? with
  | none => .ok path
  | some fault => .error fault

theorem readSteps_nil (isFirst : Bool) : readSteps isFirst [] = .ok [] := by
  rw [readSteps]
  rfl

/-- A step that is read back leaves the rest of the path to be read. -/
theorem readSteps_of_readStep {isFirst : Bool} {input : List Char} {s : Step} {path : Path}
    (hnonempty : input ≠ []) (hstep : readStep isFirst input = readBack s rest)
    (hrest : readSteps false rest = outcome path) :
    readSteps isFirst input = outcome (s :: path) := by
  rw [readSteps, if_neg (by simpa using hnonempty), hstep, readBack, outcome, List.findSome?_cons]
  cases s.fault? with
  | some fault => rfl
  | none =>
    dsimp only
    rw [hrest, outcome]
    cases path.findSome? Step.fault? <;> rfl

theorem withoutPoint_stepText_ne_nil (s : Step) : withoutPoint (stepText s) ≠ [] := by
  rcases stepText_cases s with ⟨name, rfl, hname, htext⟩ | ⟨inside, htext, _⟩
  · obtain ⟨c, cs, hcs, _⟩ := isIdentifier_iff.mp hname
    rw [htext, withoutPoint, hcs]
    exact List.cons_ne_nil c cs
  · rw [htext]
    exact List.cons_ne_nil '[' inside

theorem withoutPoint_append {cs : List Char} (h : withoutPoint cs ≠ []) (tail : List Char) :
    withoutPoint (cs ++ tail) = withoutPoint cs ++ tail := by
  cases cs with
  | nil => exact (h rfl).elim
  | cons c cs =>
    by_cases hpoint : c = '.'
    · subst hpoint
      rfl
    · have hother : ∀ ds, withoutPoint (c :: ds) = c :: ds := by
        intro ds
        rw [withoutPoint]
        exact fun _ hc => hpoint (List.cons.inj hc).1
      rw [List.cons_append, hother, hother, List.cons_append]

theorem readSteps_flatMap_stepText : ∀ path : Path,
    readSteps false (path.flatMap stepText) = outcome path
  | [] => readSteps_nil false
  | s :: path => by
    have hnonempty : stepText s ++ path.flatMap stepText ≠ [] := by
      intro hnil
      apply withoutPoint_stepText_ne_nil s
      rw [(List.append_eq_nil_iff.mp hnil).1]
      rfl
    rw [List.flatMap_cons]
    exact readSteps_of_readStep hnonempty (readStep_stepText s (endsKey_flatMap_stepText path))
      (readSteps_flatMap_stepText path)

theorem toList_foldl_append : ∀ (texts : List String) (start : String),
    (texts.foldl (· ++ ·) start).toList = start.toList ++ texts.flatMap String.toList
  | [], start => by simp
  | text :: texts, start => by
    rw [List.foldl_cons, toList_foldl_append texts, String.toList_append, List.flatMap_cons,
      List.append_assoc]

theorem toList_render (path : Path) : (render path).toList = withoutPoint (path.flatMap stepText) := by
  have hsteps : ((path.map renderStep).foldl (· ++ ·) "").toList = path.flatMap stepText := by
    rw [toList_foldl_append, List.flatMap_map]
    rfl
  rw [render, hsteps]
  split
  · next rest hpoint =>
    rw [hpoint, String.toList_ofList]
    rfl
  · next hother =>
    rw [withoutPoint]
    · exact hsteps
    · exact hother

/-- A path is read back from its text as it is, or refused for the first step that is not read back. -/
theorem parse_render (path : Path) : parse (render path) = outcome path := by
  rw [parse, toList_render]
  cases path with
  | nil => exact readSteps_nil true
  | cons s path =>
    have hnonempty : withoutPoint (stepText s) ++ path.flatMap stepText ≠ [] :=
      List.append_ne_nil_of_left_ne_nil (withoutPoint_stepText_ne_nil s) _
    rw [List.flatMap_cons, withoutPoint_append (withoutPoint_stepText_ne_nil s)]
    exact readSteps_of_readStep hnonempty (readStep_withoutPoint s (endsKey_flatMap_stepText path))
      (readSteps_flatMap_stepText path)

/-- Rendering and parsing give a path back exactly if none of its steps has a fault: the keys that are no
identifiers hold only characters that are shown as themselves or by an escape that quoted text has, and
the indices are in range. -/
theorem parse_render_eq_ok_iff (path : Path) :
    parse (render path) = .ok path ↔ ∀ s ∈ path, s.fault? = none := by
  rw [parse_render, outcome, ← List.findSome?_eq_none_iff]
  constructor
  · intro hok
    cases hfault : path.findSome? Step.fault? with
    | none => rfl
    | some fault =>
      rw [hfault] at hok
      cases hok
  · intro hnone
    rw [hnone]

/-- One character that is not read back is enough for the key to be refused. -/
theorem parse_render_key {name : String} {c : Char} (hname : isIdentifier name = false)
    (hmem : c ∈ name.toList) (hc : readsBack c = false) :
    parse (render [.key name]) = .error .notQuotedText := by
  have hall : name.toList.all readsBack = false := List.all_eq_false.mpr ⟨c, hmem, by simp [hc]⟩
  have hfault : Step.fault? (.key name) = some .notQuotedText := by
    rw [Step.fault?, hname, hall]
    rfl
  rw [parse_render, outcome, List.findSome?_cons, hfault]

/-- The null character, other control characters and combining characters are not read back. -/
theorem parse_render_unread :
    parse (render [.key "\x00"]) = .error .notQuotedText ∧
      parse (render [.key "\u0001"]) = .error .notQuotedText ∧
      parse (render [.key "e\u0301"]) = .error .notQuotedText ∧
      parse (render [.key "\u0001"]) ≠ .ok [.key "\u0001"] := by
  have hnull : readsBack '\x00' = false := rfl
  have hcontrol : readsBack '\u0001' = false := by
    rw [readsBack, isPrintable_control (by decide)]
    rfl
  have hcombining : readsBack '\u0301' = false := by
    rw [readsBack, isPrintable_combining (by decide) (by decide)]
    rfl
  have hrefused : parse (render [.key "\u0001"]) = .error .notQuotedText :=
    parse_render_key (by decide) (by decide) hcontrol
  refine ⟨parse_render_key (by decide) (by decide) hnull, hrefused,
    parse_render_key (by decide) (by decide) hcombining, ?_⟩
  rw [hrefused]
  intro h
  cases h

end Path

end DataSchema
