import DataSchema.Json.Pointer
import DataSchema.Proofs.PathText
import Mathlib

/-!
Reading the text of a pointer back.

An escaped token has no slash in it, so the text of a pointer is cut where its tokens end, and each token
is unescaped to the key that it was made of (`parse?_render`). A rendered pointer leads where its tokens do
(`lookup?_render`). An index is written without leading zeros, so its token leads to the element with that
index (`step?_index`).
-/

namespace DataSchema.Pointer

/-! ### Tokens -/

/-- The token of a key without its slash. -/
def escape (cs : List Char) : List Char := cs.flatMap escapeChar

theorem escapeChar_of_ne {c : Char} (htilde : c ≠ '~') (hslash : c ≠ '/') : escapeChar c = [c] := by
  rw [escapeChar.eq_def]
  split <;> first | rfl | contradiction

theorem unescape_cons {c : Char} (h : c ≠ '~') (rest : List Char) :
    unescape (c :: rest) = c :: unescape rest := by
  rw [unescape.eq_def]
  split <;> simp_all

theorem unescape_escape (cs : List Char) : unescape (escape cs) = cs := by
  induction cs with
  | nil => rfl
  | cons c cs ih =>
    rw [escape] at ih
    by_cases htilde : c = '~'
    · subst htilde
      simp [escape, escapeChar, unescape, ih]
    · by_cases hslash : c = '/'
      · subst hslash
        simp [escape, escapeChar, unescape, ih]
      · rw [escape, List.flatMap_cons, escapeChar_of_ne htilde hslash, List.singleton_append,
          unescape_cons htilde, ih]

theorem slash_not_mem_escape (cs : List Char) : '/' ∉ escape cs := by
  rw [escape, List.mem_flatMap]
  rintro ⟨c, -, hc⟩
  by_cases htilde : c = '~'
  · subst htilde
    simp [escapeChar] at hc
  · by_cases hslash : c = '/'
    · subst hslash
      simp [escapeChar] at hc
    · rw [escapeChar_of_ne htilde hslash, List.mem_singleton] at hc
      exact hslash hc.symm

/-! ### Pointers -/

theorem toList_render_cons (token : String) (rest : List String) :
    (render (token :: rest)).toList = '/' :: (escape token.toList ++ (render rest).toList) := by
  simp [render, Pointer.token, escape]

/-- The tokens of a pointer stand between slashes. -/
theorem toList_render (token : String) : ∀ rest : List String, (render (token :: rest)).toList =
    '/' :: ['/'].intercalate ((token :: rest).map fun t => escape t.toList)
  | [] => by
    rw [toList_render_cons]
    simp [render, List.intercalate]
  | next :: rest => by
    rw [toList_render_cons, toList_render next rest]
    simp [List.intercalate]

theorem parse?_render (tokens : List String) : parse? (render tokens) = some tokens := by
  cases tokens with
  | nil => rfl
  | cons token rest =>
    have hslash : ∀ t ∈ (token :: rest).map fun t => escape t.toList, '/' ∉ t := by
      simp only [List.mem_map, forall_exists_index, and_imp]
      rintro _ t - rfl
      exact slash_not_mem_escape t.toList
    rw [parse?, toList_render]
    simp only [List.splitOn_intercalate _ hslash (by simp), List.map_map]
    congr 1
    refine (List.map_congr_left fun t _ => ?_).trans (List.map_id _)
    simp [unescape_escape]

/-- A rendered pointer leads where its tokens lead. -/
theorem lookup?_render (value : Json) (tokens : List String) :
    lookup? value (render tokens) = resolve? value tokens := by
  rw [lookup?, parse?_render, Option.bind_some]

/-- Tokens lead on from where the ones before them lead. -/
theorem resolve?_append (value : Json) (keys rest : List String) :
    resolve? value (keys ++ rest) = (resolve? value keys).bind (resolve? · rest) := by
  induction keys generalizing value with
  | nil => rfl
  | cons key keys ih =>
    rw [List.cons_append, resolve?, resolve?, Option.bind_assoc]
    exact congrArg _ (funext fun x => ih x)

/-! ### Indices -/

theorem toDigits_ne_zero_cons {n : Nat} (h : n ≠ 0) (rest : List Char) :
    Nat.toDigits 10 n ≠ '0' :: rest := by
  induction n using Nat.strongRecOn generalizing rest with
  | ind n ih =>
    have hdigit : ∀ d < 10, Nat.digitChar d = '0' → d = 0 := by decide
    rw [Nat.toDigits_eq_if (by decide)]
    split
    · next hlt =>
      intro heq
      exact h (hdigit n hlt (List.cons.inj heq).1)
    · next hle =>
      intro heq
      cases hfirst : Nat.toDigits 10 (n / 10) with
      | nil => exact Nat.toDigits_ne_nil hfirst
      | cons c cs =>
        rw [hfirst, List.cons_append] at heq
        obtain rfl := (List.cons.inj heq).1
        exact ih (n / 10) (by omega) (by omega) cs hfirst

theorem index?_toString (i : Nat) : index? (toString i) = some i := by
  have hdigits : (toString i).toList ≠ [] ∧ (toString i).toList.all Char.isDigit :=
    ⟨Path.toString_toList_ne_nil i, List.all_eq_true.mpr fun c hc => Path.isDigit_of_mem_toString hc⟩
  have htext : (toString i).toList = Nat.toDigits 10 i := by
    rw [Nat.toString_eq_repr, Nat.toList_repr]
  rw [index?.eq_def]
  split
  · next hzero =>
    by_cases hi : i = 0
    · rw [hi]
    · exact absurd (htext.symm.trans hzero) (toDigits_ne_zero_cons hi [])
  · next rest hne hzero =>
    by_cases hi : i = 0
    · subst hi
      have htail := hzero.symm.trans (htext.trans (Nat.toDigits_zero 10))
      exact (hne (List.cons.inj htail).2).elim
    · exact absurd (htext.symm.trans hzero) (toDigits_ne_zero_cons hi _)
  · rw [if_pos hdigits, Nat.toString_eq_repr, Nat.toNat?_repr]

theorem step?_index (items : List Json) (i : Nat) :
    step? (.array items) (toString i) = items[i]? := by
  rw [step?, index?_toString, Option.bind_some]

end DataSchema.Pointer
