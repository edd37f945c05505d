import DataSchema.Text.Printable
import DataSchema.Text.Quoted
import Mathlib.Tactic.Common

/-!
Reading shown text back.

Text that is shown between quotes has escapes of its own: a code between braces, and one for the null
character. Quoted text has neither, so that what is shown is read back exactly if it needs neither
(`decode?_quoteShown`).
-/

namespace DataSchema.Text

open Quoted

/-- Is the character shown as itself, or by an escape that quoted text has as well? -/
def readsBack (c : Char) : Bool :=
  ['"', '\\', '\n', '\r', '\t'].contains c || (c.toNat != 0 && isPrintable c)

theorem isPrintable_eq_false {c : Char} {low high : Nat}
    (hrange : (low, high) ∈ unprintableRanges ∨ (low, high) ∈ extendingRanges)
    (hlow : low ≤ c.toNat) (hhigh : c.toNat ≤ high) : isPrintable c = false := by
  have hwithin : (decide (low ≤ c.toNat) && decide (c.toNat ≤ high)) = true := by
    simp [hlow, hhigh]
  rcases hrange with hunprintable | hextending
  · have hhas : unprintableRanges.has c = true := List.any_eq_true.mpr ⟨_, hunprintable, hwithin⟩
    rw [isPrintable, hhas, Bool.not_true, Bool.false_and]
  · have hhas : extendingRanges.has c = true := List.any_eq_true.mpr ⟨_, hextending, hwithin⟩
    rw [isPrintable, hhas, Bool.not_true, Bool.and_false]

/-- Control characters do not print. -/
theorem isPrintable_control {c : Char} (h : c.toNat < 32) : isPrintable c = false := by
  have hrange : (0, 31) ∈ unprintableRanges := List.mem_append_left _ (by decide)
  exact isPrintable_eq_false (.inl hrange) (Nat.zero_le _) (by omega)

/-- Combining diacritical marks do not print by themselves. -/
theorem isPrintable_combining {c : Char} (hlow : 0x300 ≤ c.toNat) (hhigh : c.toNat ≤ 0x36f) :
    isPrintable c = false := by
  have hrange : (0x300, 0x36f) ∈ extendingRanges := List.mem_append_left _ (by decide)
  exact isPrintable_eq_false (.inr hrange) hlow hhigh

/-- How a character is shown, and whether it is read back from that. -/
inductive Shape (c : Char) : Bool → List Char → Prop where
  | itself : c ≠ '"' → c ≠ '\\' → 32 ≤ c.toNat → Shape c true [c]
  | short {e : Char} : shortEscape? e = some c → Shape c true ['\\', e]
  | null : Shape c false ['\\', '0']
  | code : Shape c false ('\\' :: 'u' :: '\x7b' :: (Nat.toDigits 16 c.toNat ++ ['\x7d']))

theorem shape_escapeShown (c : Char) : Shape c (readsBack c) (escapeShown c) := by
  rw [escapeShown.eq_def]
  split
  · exact .short rfl
  · exact .short rfl
  · exact .short rfl
  · exact .short rfl
  · exact .short rfl
  · next hquote hbackslash hline hreturn htab =>
    have hlist : ['"', '\\', '\n', '\r', '\t'].contains c = false := by
      simp only [List.contains_cons, List.contains_nil, Bool.or_false, Bool.or_eq_false_iff,
        beq_eq_false_iff_ne]
      exact ⟨hquote, hbackslash, hline, hreturn, htab⟩
    rw [readsBack, hlist, Bool.false_or]
    split
    · next hzero =>
      rw [hzero]
      exact .null
    · next hzero =>
      split
      · next hprint =>
        rw [hprint]
        have : (c.toNat != 0 && true) = true := by simpa using hzero
        rw [this]
        have hcontrol : 32 ≤ c.toNat := by
          by_contra hlt
          exact Bool.false_ne_true ((isPrintable_control (by omega)).symm.trans hprint)
        exact .itself hquote hbackslash hcontrol
      · next hprint =>
        rw [Bool.not_eq_true] at hprint
        rw [hprint, Bool.and_false]
        exact .code

theorem exists_digitChar_of_mem_toDigits {b : Nat} (hb : 1 < b) {c : Char} : ∀ {n : Nat},
    c ∈ Nat.toDigits b n → ∃ d < b, c = d.digitChar := by
  intro n
  induction n using Nat.strongRecOn with
  | ind n ih =>
    intro hc
    rw [Nat.toDigits_eq_if hb] at hc
    split at hc
    · next hlt => exact ⟨n, hlt, List.mem_singleton.mp hc⟩
    · next hle =>
      rcases List.mem_append.mp hc with hrest | hlast
      · exact ih (n / b) (Nat.div_lt_self (by omega) hb) hrest
      · exact ⟨n % b, Nat.mod_lt n (by omega), List.mem_singleton.mp hlast⟩

theorem pieces_code (rest : List Char) : pieces ('\\' :: 'u' :: '\x7b' :: rest) = none := by
  match rest with
  | [] => rfl
  | [_] => rfl
  | [_, _] => rfl
  | _ :: _ :: _ :: _ => rfl

/-- What is shown is read as the character, or refused. -/
theorem Shape.pieces {c : Char} {b : Bool} {shown : List Char} (h : Shape c b shown)
    (tail : List Char) : pieces (shown ++ tail) =
      if b then (pieces tail).map fun p => (.char c :: p.1, p.2) else none := by
  cases h with
  | itself hquote hbackslash hprint =>
    have hplain : ¬(c = '\\' ∨ c.toNat < 32) := by
      rintro (hc | hc)
      · exact hbackslash hc
      · omega
    rw [List.singleton_append, Quoted.pieces, if_neg hplain, if_pos rfl]
    · cases Quoted.pieces tail <;> rfl
    · exact hquote
    · exact fun _ _ _ _ _ hc _ => hbackslash hc
    · exact fun _ _ hc _ => hbackslash hc
  | @short e he =>
    have hunit : e ≠ 'u' := by
      rintro rfl
      cases he
    rw [List.cons_append, List.singleton_append, Quoted.pieces, he, if_pos rfl]
    · cases Quoted.pieces tail <;> rfl
    · exact fun _ _ _ _ _ hc _ => hunit hc
  | null => rfl
  | code => exact pieces_code _

theorem pieces_flatMap_escapeShown : ∀ (cs tail : List Char),
    pieces (cs.flatMap escapeShown ++ '"' :: tail) =
      if cs.all readsBack then some (cs.map .char, tail) else none
  | [], _ => rfl
  | c :: cs, tail => by
    rw [List.flatMap_cons, List.append_assoc, (shape_escapeShown c).pieces,
      pieces_flatMap_escapeShown cs tail, List.all_cons]
    cases readsBack c with
    | false => rfl
    | true => cases cs.all readsBack <;> rfl

theorem join_map_char : ∀ cs : List Char, join (cs.map .char) = some cs
  | [] => rfl
  | c :: cs => by rw [List.map_cons, join, join_map_char cs, Option.map_some]

/-- Shown text is read back exactly if each of its characters is. -/
theorem decode?_quoteShown (s : String) :
    decode? (quoteShown s).toList = if s.toList.all readsBack then some s else none := by
  have hpieces := pieces_flatMap_escapeShown s.toList []
  rw [quoteShown, String.toList_ofList, decode?, readBody?, hpieces]
  cases s.toList.all readsBack with
  | false => rfl
  | true => simp [join_map_char]

end DataSchema.Text
