import Mathlib.Data.List.Nodup
import Countersign.Text.Quoted

/-!
# `Countersign.Proofs.Text.Quoted`: what a quotation shows

A message that cites its input has to show all of it, and the reader has to see where the citation
ends. Both hold whatever is cited. No character of a quotation is invisible
(`isInvisible_of_mem_quoteChar`, `isInvisible_of_mem_quoteString`), and two messages that begin with
quotations are the same only if the same was cited and the same follows
(`quoteChar_append_inj`, `quoteString_append_inj`).

A character is `Written` as itself, as a backslash and a letter, or as its code point in braces.
Which of the three it is can be seen at the second character at the latest, so to compare two
quotations is to compare the three ways with each other.
-/

set_option autoImplicit false

namespace Countersign.Text

/-- What quotations stand between: a single or a double quote. -/
def IsMark (mark : Char) : Prop :=
  mark = '\x27' ∨ mark = '"'

/-! ### Code points -/

/-- The digits of code points. -/
def hexDigits : List Char :=
  "0123456789abcdef".toList

/-- A code point is written with digits only. -/
theorem mem_hexDigits_of_mem_toDigits {n : Nat} {c : Char} (h : c ∈ Nat.toDigits 16 n) :
    c ∈ hexDigits := by
  have hdigit : ∀ d < 16, Nat.digitChar d ∈ hexDigits := by decide
  induction n using Nat.strongRecOn with
  | ind n ih =>
      rw [Nat.toDigits_eq_if (by decide)] at h
      split at h
      · next hlt =>
          rw [List.mem_singleton.mp h]
          exact hdigit n hlt
      · rcases List.mem_append.mp h with hleading | hlast
        · exact ih (n / 16) (by omega) hleading
        · rw [List.mem_singleton.mp hlast]
          exact hdigit (n % 16) (Nat.mod_lt n (by decide))

/-- A number is known by its digits. -/
theorem toDigits_inj {m n : Nat} (h : Nat.toDigits 16 m = Nat.toDigits 16 n) : m = n := by
  have hdigit : ∀ a < 16, ∀ b < 16, Nat.digitChar a = Nat.digitChar b → a = b := by decide
  -- The last digits are the same, and what stands before them are shorter numbers, or nothing.
  induction m using Nat.strongRecOn generalizing n with
  | ind m ih =>
      rw [Nat.toDigits_eq_if (by decide), Nat.toDigits_eq_if (n := n) (by decide)] at h
      have hlengths := congrArg List.length h
      have hm : 0 < (Nat.toDigits 16 (m / 16)).length :=
        List.length_pos_iff.mpr Nat.toDigits_ne_nil
      have hn : 0 < (Nat.toDigits 16 (n / 16)).length :=
        List.length_pos_iff.mpr Nat.toDigits_ne_nil
      split at h <;> split at h
      · next hm hn => exact hdigit m hm n hn (List.singleton_inj.mp h)
      · next hm hn =>
          simp only [if_pos hm, if_neg hn, List.length_append, List.length_singleton] at hlengths
          omega
      · next hm hn =>
          simp only [if_neg hm, if_pos hn, List.length_append, List.length_singleton] at hlengths
          omega
      · obtain ⟨hleading, hlast⟩ := List.append_inj' h rfl
        have hquotient := ih (m / 16) (by omega) hleading
        have hremainder := hdigit _ (Nat.mod_lt m (by decide)) _ (Nat.mod_lt n (by decide))
          (List.singleton_inj.mp hlast)
        omega

/-- A code point in braces is known by its beginning, as no digit is a brace. -/
theorem codePoint_append_inj {c d : Char} {s t : List Char}
    (h : codePoint c ++ '\x7d' :: s = codePoint d ++ '\x7d' :: t) : c = d ∧ s = t := by
  have hbrace : ∀ c : Char, ∀ x ∈ codePoint c, (x != '\x7d') = true := by
    intro c x hx
    have hnone : ∀ x ∈ hexDigits, (x != '\x7d') = true := List.all_eq_true.mp (by decide)
    exact hnone x (mem_hexDigits_of_mem_toDigits hx)
  have htake := congrArg (List.takeWhile (· != '\x7d')) h
  have hdrop := congrArg (List.dropWhile (· != '\x7d')) h
  rw [List.takeWhile_append_of_pos (hbrace c), List.takeWhile_append_of_pos (hbrace d)] at htake
  rw [List.dropWhile_append_of_pos (hbrace c), List.dropWhile_append_of_pos (hbrace d)] at hdrop
  simp only [List.takeWhile_cons, List.dropWhile_cons, bne_self_eq_false, Bool.false_eq_true,
    if_false, List.append_nil, List.cons.injEq, true_and] at htake hdrop
  exact ⟨Char.toNat_inj.mp (toDigits_inj htake), hdrop⟩

/-! ### Single characters -/

section
variable {mark c d : Char} (hmark : IsMark mark)

include hmark

/-- What is written with a letter is known by that letter. -/
theorem shortEscapes_inj {letter : Char} (hc : (c, letter) ∈ shortEscapes mark)
    (hd : (d, letter) ∈ shortEscapes mark) : c = d := by
  have hletters : ((shortEscapes mark).map Prod.snd).Nodup := by
    rcases hmark with rfl | rfl <;> decide
  have hpair := List.inj_on_of_nodup_map hletters hc hd rfl
  exact congrArg Prod.fst hpair

/-- None of the letters is the one that a code point begins with. -/
theorem not_mem_shortEscapes : (c, 'u') ∉ shortEscapes mark := by
  rcases hmark with rfl | rfl <;> simp [shortEscapes]

/-- Two texts that begin with a character, as it is written, are the same only if the characters
and the rests are. -/
theorem Written.append_inj {s t r r' : List Char} (hc : Written mark c s) (hd : Written mark d t)
    (h : s ++ r = t ++ r') : c = d ∧ r = r' := by
  cases hc with
  | itself _ hc _ =>
      cases hd with
      | itself _ _ _ => exact List.cons.inj h
      -- Only an escape begins with a backslash.
      | short _ => exact absurd (List.cons.inj h).1 hc
      | codePoint _ => exact absurd (List.cons.inj h).1 hc
  | short hc =>
      cases hd with
      | itself _ hd _ => exact absurd (List.cons.inj h).1.symm hd
      | short hd =>
          obtain ⟨hletter, hrest⟩ := List.cons.inj (List.cons.inj h).2
          rw [← hletter] at hd
          exact ⟨shortEscapes_inj hmark hc hd, hrest⟩
      | codePoint _ =>
          rw [(List.cons.inj (List.cons.inj h).2).1] at hc
          exact absurd hc (not_mem_shortEscapes hmark)
  | codePoint _ =>
      cases hd with
      | itself _ hd _ => exact absurd (List.cons.inj h).1.symm hd
      | short hd =>
          rw [← (List.cons.inj (List.cons.inj h).2).1] at hd
          exact absurd hd (not_mem_shortEscapes hmark)
      | codePoint _ =>
          have hdigits : Text.codePoint c ++ ['\x7d'] ++ r = Text.codePoint d ++ ['\x7d'] ++ r' :=
            (List.cons.inj (List.cons.inj (List.cons.inj h).2).2).2
          rw [List.append_assoc, List.append_assoc] at hdigits
          exact codePoint_append_inj hdigits

/-- A text that begins with a character, as it is written, does not begin with the mark. -/
theorem Written.append_ne_cons {s r r' : List Char} (hc : Written mark c s) :
    s ++ r ≠ mark :: r' := by
  have hbackslash : '\\' ≠ mark := by
    rcases hmark with rfl | rfl <;> decide
  intro h
  cases hc with
  | itself hc _ _ => exact hc (List.cons.inj h).1
  | short _ => exact hbackslash (List.cons.inj h).1
  | codePoint _ => exact hbackslash (List.cons.inj h).1

/-- However a character is written, it shows. -/
theorem Written.isInvisible_of_mem {s : List Char} (hc : Written mark c s) {x : Char}
    (hx : x ∈ s) : isInvisible x = false := by
  have hletters : (shortEscapes mark).all (fun p => !isInvisible p.2) = true := by
    rcases hmark with rfl | rfl <;> decide +kernel
  have hdigits : hexDigits.all (fun x => !isInvisible x) = true := by decide +kernel
  cases hc with
  | itself _ _ hvisible =>
      rw [List.mem_singleton.mp hx]
      exact hvisible
  | short hletter =>
      simp only [List.mem_cons, List.not_mem_nil, or_false] at hx
      rcases hx with rfl | rfl
      · decide
      · simpa using List.all_eq_true.mp hletters _ hletter
  | codePoint _ =>
      simp only [List.mem_cons, List.mem_append, List.not_mem_nil, or_false] at hx
      rcases hx with rfl | rfl | rfl | hdigit | rfl
      · decide
      · decide
      · decide
      · simpa using List.all_eq_true.mp hdigits x (mem_hexDigits_of_mem_toDigits hdigit)
      · decide

/-! ### Quotations -/

/-- What stands between two marks is known by the text that begins with it. -/
theorem escaped_append_inj {cs ds : List Char} {r r' : List Char}
    (h : cs.flatMap (escapeVisible mark) ++ mark :: r
      = ds.flatMap (escapeVisible mark) ++ mark :: r') : cs = ds ∧ r = r' := by
  induction cs generalizing ds with
  | nil =>
      cases ds with
      | nil => exact ⟨rfl, (List.cons.inj h).2⟩
      | cons d ds =>
          rw [List.flatMap_cons, List.append_assoc] at h
          exact absurd h.symm ((escapeVisible_written mark d).append_ne_cons hmark)
  | cons c cs ih =>
      cases ds with
      | nil =>
          rw [List.flatMap_cons, List.append_assoc] at h
          exact absurd h ((escapeVisible_written mark c).append_ne_cons hmark)
      | cons d ds =>
          rw [List.flatMap_cons, List.flatMap_cons, List.append_assoc, List.append_assoc] at h
          obtain ⟨rfl, hrest⟩ := (escapeVisible_written mark c).append_inj hmark
            (escapeVisible_written mark d) h
          obtain ⟨rfl, hr⟩ := ih hrest
          exact ⟨rfl, hr⟩

end

/-- Messages that begin with a quoted character are the same only if they cite the same character
and go on in the same way. -/
theorem quoteChar_append_inj {c d : Char} {r r' : List Char}
    (h : (quoteChar c).toList ++ r = (quoteChar d).toList ++ r') : c = d ∧ r = r' := by
  have hwritten : ∀ (c : Char) (r : List Char), (quoteChar c).toList ++ r
      = '\x27' :: ([c].flatMap (escapeVisible '\x27') ++ '\x27' :: r) := by
    intro c r
    simp [quoteChar]
  rw [hwritten, hwritten, List.cons.injEq] at h
  obtain ⟨hcited, hrest⟩ := escaped_append_inj (.inl rfl) h.2
  exact ⟨List.singleton_inj.mp hcited, hrest⟩

/-- Messages that begin with a quoted string are the same only if they cite the same string and go
on in the same way. -/
theorem quoteString_append_inj {s t : String} {r r' : List Char}
    (h : (quoteString s).toList ++ r = (quoteString t).toList ++ r') : s = t ∧ r = r' := by
  have hwritten : ∀ (s : String) (r : List Char), (quoteString s).toList ++ r
      = '"' :: (s.toList.flatMap (escapeVisible '"') ++ '"' :: r) := by
    intro s r
    simp [quoteString]
  rw [hwritten, hwritten, List.cons.injEq] at h
  obtain ⟨hcited, hrest⟩ := escaped_append_inj (.inr rfl) h.2
  exact ⟨String.toList_inj.mp hcited, hrest⟩

/-- All of a quoted string shows. -/
theorem isInvisible_of_mem_quoteString {s : String} {x : Char} (h : x ∈ (quoteString s).toList) :
    isInvisible x = false := by
  rw [quoteString, String.toList_ofList, List.mem_cons, List.mem_append, List.mem_flatMap,
    List.mem_singleton] at h
  rcases h with rfl | ⟨c, -, hx⟩ | rfl
  · decide
  · exact (escapeVisible_written '"' c).isInvisible_of_mem (.inr rfl) hx
  · decide

/-- All of a quoted character shows. -/
theorem isInvisible_of_mem_quoteChar {c x : Char} (h : x ∈ (quoteChar c).toList) :
    isInvisible x = false := by
  rw [quoteChar, String.toList_ofList, List.mem_cons, List.mem_append, List.mem_singleton] at h
  rcases h with rfl | hx | rfl
  · decide
  · exact (escapeVisible_written '\x27' c).isInvisible_of_mem (.inl rfl) hx
  · decide

end Countersign.Text
