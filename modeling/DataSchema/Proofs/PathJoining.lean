import DataSchema.Pattern.Reader
import DataSchema.Proofs.Governing
import DataSchema.Proofs.PathText
import Mathlib.Data.List.TakeWhile

/-!
Joining the texts of paths.

A step is read to its end before anything that is appended counts: the quotes and brackets that close it
are the first ones, and an unquoted key ends where a point or a bracket begins (`readStep_append`). So of a
joined text the first part is cut as it is alone, and the second one is read behind it as if nothing came
before (`parse_join`): the steps are those of the first text followed by those of the second.
-/

namespace DataSchema

namespace Path

variable {input rest tail : List Char} {isFirst : Bool} {s : Step} {path : Path}

/-! ### Single steps -/

theorem splitQuote_append {quoted : List Char} (h : splitQuote input = some (quoted, rest))
    (tail : List Char) : splitQuote (input ++ tail) = some (quoted, rest ++ tail) := by
  fun_induction splitQuote input generalizing quoted rest with
  | case1 => cases h
  | case2 after =>
    cases h
    rfl
  | case3 c after ih =>
    obtain ⟨⟨body, rest'⟩, hafter, heq⟩ := Option.map_eq_some_iff.mp h
    cases heq
    rw [List.cons_append, List.cons_append, splitQuote, ih hafter, Option.map_some]
  | case4 c after hquote hescape ih =>
    obtain ⟨⟨body, rest'⟩, hafter, heq⟩ := Option.map_eq_some_iff.mp h
    cases heq
    -- A backslash at the very end would escape what is appended, but there no quote closes.
    have hbackslash : c ≠ '\\' := by
      rintro rfl
      cases after with
      | nil => cases hafter
      | cons d after => exact hescape d after rfl rfl
    rw [List.cons_append, splitQuote, ih hafter, Option.map_some]
    · exact hquote
    · exact fun _ _ hc _ => hbackslash hc

/-- What is appended does not move the first cut: it lies in the text already, or where the text ends. -/
theorem cut_append (p : Char → Bool) (tail : List Char) :
    ∀ input : List Char, ((∃ c ∈ input, p c = false) ∨ ∀ c ∈ tail.head?, p c = false) →
      (input ++ tail).takeWhile p = input.takeWhile p ∧
        (input ++ tail).dropWhile p = input.dropWhile p ++ tail
  | [], h => by
    obtain ⟨c, hc, _⟩ | htail := h
    · cases hc
    · cases tail with
      | nil => exact ⟨rfl, rfl⟩
      | cons c tail =>
        have hc : ¬p c = true := Bool.eq_false_iff.mp (htail c rfl)
        exact ⟨List.takeWhile_cons_of_neg hc, List.dropWhile_cons_of_neg hc⟩
  | c :: cs, h => by
    rw [List.cons_append, List.takeWhile_cons, List.takeWhile_cons, List.dropWhile_cons,
      List.dropWhile_cons]
    cases hc : p c with
    | false => exact ⟨rfl, rfl⟩
    | true =>
      have hcs : (∃ d ∈ cs, p d = false) ∨ ∀ d ∈ tail.head?, p d = false := by
        refine h.imp_left fun ⟨d, hd, hfalse⟩ => ⟨d, ?_, hfalse⟩
        rcases List.mem_cons.mp hd with rfl | hd
        · rw [hc] at hfalse
          cases hfalse
        · exact hd
      obtain ⟨htake, hdrop⟩ := cut_append p tail cs hcs
      rw [htake, hdrop]
      exact ⟨rfl, rfl⟩

theorem readBracketed_append (h : readBracketed input = .ok (s, rest)) (tail : List Char) :
    readBracketed (input ++ tail) = .ok (s, rest ++ tail) := by
  rw [readBracketed.eq_def] at h
  split at h
  case isFalse => cases h
  case isTrue hclose =>
    rw [readBracketed.eq_def, if_pos (List.mem_append_left tail hclose)]
    split at h
    · next body =>
      split at h
      · cases h
      · next quoted after hsplit =>
        simp only [List.cons_append, splitQuote_append hsplit]
        split at h
        · cases h
        · next hdecode =>
          cases h
          rw [hdecode, List.cons_append]
          rfl
        · cases h
    · next hindex =>
      have hother : ∀ body, input ++ tail = '"' :: body → False := by
        intro body hbody
        cases input with
        | nil => cases hclose
        | cons c cs => exact hindex cs (by rw [(List.cons.inj hbody).1])
      obtain ⟨htake, hdrop⟩ := cut_append (· != ']') tail input
        (.inl ⟨']', hclose, bne_self_eq_false _⟩)
      have hfound : input.dropWhile (· != ']') ≠ [] := by
        intro hnil
        have hpassed := List.dropWhile_eq_nil_iff.mp hnil ']' hclose
        cases hpassed
      split
      · next body hbody => exact (hother body hbody).elim
      · rw [htake, hdrop, List.tail_append_of_ne_nil hfound]
        split at h
        · cases h
        · cases h
          rfl

theorem readKey_append (htail : EndsKey tail) (h : readKey input = .ok (s, rest)) :
    readKey (input ++ tail) = .ok (s, rest ++ tail) := by
  have hends : ∀ c ∈ tail.head?, (!endsKey c) = false := fun c hc => by rw [htail c hc, Bool.not_true]
  obtain ⟨htake, hdrop⟩ := cut_append (!endsKey ·) tail input (.inr hends)
  simp only [readKey] at h ⊢
  rw [htake, hdrop]
  split at h
  · cases h
  · next hsome =>
    rw [if_neg hsome]
    split at h
    · cases h
    · next hplain =>
      cases h
      rw [if_neg hplain]

theorem readStep_append (hnonempty : input ≠ []) (htail : EndsKey tail)
    (h : readStep isFirst input = .ok (s, rest)) :
    readStep isFirst (input ++ tail) = .ok (s, rest ++ tail) := by
  cases input with
  | nil => exact (hnonempty rfl).elim
  | cons c cs =>
    rw [readStep.eq_def] at h
    split at h
    · next rest' hopen =>
      rw [hopen]
      exact readBracketed_append h tail
    · next rest' hpoint =>
      rw [hpoint]
      cases isFirst with
      | true =>
        have hkey : readKey ('.' :: rest') = .ok (s, rest) := h
        exact readKey_append htail hkey
      | false =>
        have hkey : readKey rest' = .ok (s, rest) := h
        exact readKey_append htail hkey
    · next hbracket hpoint =>
      cases isFirst with
      | false => cases h
      | true =>
        rw [List.cons_append, readStep.eq_def]
        split
        · next rest' hopen => exact (hbracket cs (by rw [(List.cons.inj hopen).1])).elim
        · next rest' hpoint' => exact (hpoint cs (by rw [(List.cons.inj hpoint').1])).elim
        · exact readKey_append htail h

/-! ### Paths -/

/-- After a step the rest is read as it stands. -/
theorem readSteps_cons (hnonempty : input ≠ []) (hstep : readStep isFirst input = .ok (s, rest)) :
    readSteps isFirst input = (readSteps false rest).map (s :: ·) := by
  rw [readSteps, if_neg (by simpa using hnonempty), hstep]
  dsimp only
  cases readSteps false rest <;> rfl

/-- A text is read as before when another one is appended, and then the other one is read. -/
theorem readSteps_append (htail : EndsKey tail) (hfirst : isFirst = true → input ≠ [])
    (h : readSteps isFirst input = .ok path) :
    readSteps isFirst (input ++ tail) = (readSteps false tail).map (path ++ ·) := by
  fun_induction readSteps isFirst input generalizing path with
  | case1 isFirst input hempty =>
    obtain rfl := List.isEmpty_iff.mp hempty
    cases h
    cases isFirst with
    | true => exact (hfirst rfl rfl).elim
    | false => cases hrest : readSteps false tail <;> simp [Except.map, hrest]
  | case2 => cases h
  | case3 => cases h
  | case4 isFirst input hinput s rest hstep path' hpath ih =>
    cases h
    have hnonempty : input ≠ [] := by simpa using hinput
    rw [readSteps_cons (List.append_ne_nil_of_left_ne_nil hnonempty tail)
      (readStep_append hnonempty htail hstep), ih nofun hpath]
    cases readSteps false tail <;> rfl

/-! ### Whole texts -/

/-- A text as it stands behind another one: after a point, unless it opens a bracket. -/
def behind : List Char → List Char
  | '[' :: rest => '[' :: rest
  | text => '.' :: text

/-- Two texts one after the other, with a point between them unless the second one opens a bracket. -/
def join (first second : String) : String :=
  match second.toList with
  | '[' :: _ => first ++ second
  | _ => first ++ "." ++ second

theorem toList_join (first second : String) :
    (join first second).toList = first.toList ++ behind second.toList := by
  rw [join]
  split
  · next rest hopen => rw [String.toList_append, hopen, behind]
  · next hother =>
    rw [String.toList_append, String.toList_append, behind]
    · exact List.append_assoc _ ['.'] _
    · exact hother

theorem endsKey_behind (text : List Char) : EndsKey (behind text) := by
  rw [behind.eq_def]
  split <;> · rintro _ ⟨⟩; rfl

theorem readStep_behind (text : List Char) :
    readStep false (behind text) = readStep true text := by
  rw [behind.eq_def]
  split
  · rfl
  · next hbracket =>
    have hkey : readStep true text = readKey text := by
      rw [readStep.eq_def]
      split
      · next rest => exact (hbracket rest rfl).elim
      · rfl
      · rfl
    exact hkey.symm

/-- Behind another text a text is read as it is alone. -/
theorem readSteps_behind {text : List Char} (hnonempty : text ≠ []) :
    readSteps false (behind text) = readSteps true text := by
  have hbehind : behind text ≠ [] := by
    rw [behind.eq_def]
    split <;> exact List.cons_ne_nil _ _
  rw [readSteps, readSteps.eq_def true text, if_neg (by simpa using hbehind),
    if_neg (by simpa using hnonempty), readStep_behind]

theorem parse_join {first second : String} {p q : Path} (hfirst : first ≠ "") (hsecond : second ≠ "")
    (hp : parse first = .ok p) (hq : parse second = .ok q) :
    parse (join first second) = .ok (p ++ q) := by
  have hfirst' : first.toList ≠ [] := by simpa using hfirst
  have hsecond' : second.toList ≠ [] := by simpa using hsecond
  calc parse (join first second)
    _ = readSteps true (first.toList ++ behind second.toList) := by rw [parse, toList_join]
    _ = (readSteps false (behind second.toList)).map (p ++ ·) :=
      readSteps_append (endsKey_behind _) (fun _ => hfirst') hp
    _ = (parse second).map (p ++ ·) := by rw [readSteps_behind hsecond', parse]
    _ = .ok (p ++ q) := by rw [hq]; rfl

end Path

namespace Accessor

theorem atPath_of_parse [Pattern.Engine] {text : String} {path : Path} (h : Path.parse text = .ok path)
    (a : Accessor) :
    a.atPath text = .ok (a.along path) := by
  rw [atPath, h]
  rfl

/-- The text of two paths joined is the path of the one followed by that of the other; so from any
accessor it leads to the same accessor, in path and schema, as the one text after the other. -/
theorem atPath_join [Pattern.Engine] {first second : String} {p q : Path} (hfirst : first ≠ "")
    (hsecond : second ≠ "") (hp : Path.parse first = .ok p) (hq : Path.parse second = .ok q) :
    Path.parse (Path.join first second) = .ok (p ++ q) ∧
      ∀ a : Accessor, ∃ between reached, a.atPath first = .ok between ∧
        between.atPath second = .ok reached ∧
        a.atPath (Path.join first second) = .ok reached ∧
        reached.path = a.path ++ p ++ q ∧
        reached.schema = a.schema.bind (·.partAt? (p ++ q)) := by
  have hjoin := Path.parse_join hfirst hsecond hp hq
  refine ⟨hjoin, fun a => ⟨a.along p, a.along (p ++ q), atPath_of_parse hp a, ?_,
    atPath_of_parse hjoin a, ?_, schema_along a _⟩⟩
  · rw [atPath_of_parse hq, along, along, along, List.foldl_append]
  · rw [path_along, List.append_assoc]

/-- The first of some entries, and a part of it under a key with a point. -/
theorem atPath_join_entry :
    "log[0]" ≠ "" ∧ "[\"x.y\"].note" ≠ "" ∧
      Path.parse "log[0]" = .ok [.key "log", .index 0] ∧
      Path.parse "[\"x.y\"].note" = .ok [.key "x.y", .key "note"] ∧
      Path.parse "log[0][\"x.y\"].note" = .ok [.key "log", .index 0, .key "x.y", .key "note"] ∧
      ∃ between reached, (forSchema journal).atPath "log[0]" = .ok between ∧
        between.atPath "[\"x.y\"].note" = .ok reached ∧
        (forSchema journal).atPath "log[0][\"x.y\"].note" = .ok reached := by
  have hfirst : Path.parse "log[0]" = .ok [.key "log", .index 0] := by
    have hkey : Path.readStep true "log[0]".toList = .ok (.key "log", "[0]".toList) := rfl
    have hindex : Path.readStep false "[0]".toList = .ok (.index 0, []) := rfl
    rw [Path.parse, Path.readSteps_cons (by decide) hkey, Path.readSteps_cons (by decide) hindex,
      Path.readSteps_nil]
    rfl
  have hsecond : Path.parse "[\"x.y\"].note" = .ok [.key "x.y", .key "note"] := by
    have hquoted : Path.readStep true "[\"x.y\"].note".toList = .ok (.key "x.y", ".note".toList) := rfl
    have hkey : Path.readStep false ".note".toList = .ok (.key "note", []) := rfl
    rw [Path.parse, Path.readSteps_cons (by decide) hquoted, Path.readSteps_cons (by decide) hkey,
      Path.readSteps_nil]
    rfl
  obtain ⟨hjoined, hreach⟩ := atPath_join (by decide) (by decide) hfirst hsecond
  obtain ⟨between, reached, hbetween, hreached, hat, _⟩ := hreach (forSchema journal)
  exact ⟨by decide, by decide, hfirst, hsecond, hjoined, between, reached, hbetween, hreached, hat⟩

end Accessor

end DataSchema
