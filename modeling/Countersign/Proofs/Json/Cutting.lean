import Countersign.Proofs.Json.Words

/-!
# `Countersign.Proofs.Json.Cutting`: the text of a value is cut into its words

A word ends where the next one begins, so cutting the text of a value from the front gives the words
of the value and no others, whatever strings are in it (`Value.scan_render`). As these show what the
value is, different values have different texts (`Value.render_inj`).

Cutting is limited to as many words as there are characters. `Scans` says what a text begins with
for any limit that is large enough for it, and leaves one that is large enough for the rest.
-/

set_option autoImplicit false

namespace Countersign.Json

open Token

/-- The text `cs` begins with these words, and goes on with `rest`. -/
def Scans (cs : List Char) (tokens : List Token) (rest : List Char) : Prop :=
  ∀ size, cs.length ≤ size →
    ∃ left, rest.length ≤ left ∧ scanWithin size cs = tokens ++ scanWithin left rest

/-- Words may be cut off one after the other. -/
theorem Scans.trans {cs cs' cs'' : List Char} {ts ts' : List Token} (h : Scans cs ts cs')
    (h' : Scans cs' ts' cs'') : Scans cs (ts ++ ts') cs'' := by
  intro size hsize
  obtain ⟨left, hleft, hfirst⟩ := h size hsize
  obtain ⟨left', hleft', hsecond⟩ := h' left hleft
  exact ⟨left', hleft', by rw [hfirst, hsecond, List.append_assoc]⟩

/-- A word that is no blank is cut off, if it does not make the text longer. -/
theorem scans_word {c : Char} {cs rest : List Char} {t : Token} (hblank : isBlank c = false)
    (hnext : next? c cs = some (t, rest)) (hrest : rest.length ≤ cs.length) :
    Scans (c :: cs) [t] rest := by
  intro size hsize
  cases size with
  | zero => exact absurd hsize (Nat.not_succ_le_zero _)
  | succ size =>
      refine ⟨size, Nat.le_trans hrest (Nat.le_of_succ_le_succ hsize), ?_⟩
      rw [scanWithin, if_neg (Bool.eq_false_iff.mp hblank), hnext]
      rfl

/-- A text is cut into the words that it is made of. -/
theorem scan_of_scans {cs : List Char} {ts : List Token} (h : Scans cs ts []) :
    scan (String.ofList cs) = ts := by
  obtain ⟨left, -, hscan⟩ := h cs.length (Nat.le_refl _)
  rw [scan, String.toList_ofList, hscan, scanWithin, List.append_nil]

/-! ### Single words -/

/-- At its end a text ends any numeral. -/
theorem ends_nil : Numeral.Ends [] :=
  fun _ hc => nomatch hc

/-- So does what can stand behind a value in an array or an object. -/
theorem ends_cons {c : Char} (hc : c = ',' ∨ c = ']' ∨ c = '\x7d') (rest : List Char) :
    Numeral.Ends (c :: rest) := by
  rintro _ ⟨⟩
  rcases hc with rfl | rfl | rfl
  · decide
  · decide
  · decide

/-- A word that begins with a digit is a numeral. -/
theorem next?_of_isDigit {c : Char} (hc : c.isDigit = true) (cs : List Char) :
    next? c cs
      = (Numeral.scanUnsigned? false (c :: cs)).map fun (n, rest) => (.number n, rest) := by
  rw [next?]
  all_goals
    rintro rfl
    exact absurd hc (by decide)

/-- A digit is no blank. -/
theorem isBlank_of_isDigit {c : Char} (hc : c.isDigit = true) : isBlank c = false := by
  rw [Bool.eq_false_iff]
  intro hblank
  simp only [isBlank, Bool.or_eq_true, decide_eq_true_eq] at hblank
  rcases hblank with ((rfl | rfl) | rfl) | rfl
  all_goals exact absurd hc (by decide)

/-- The digits of a number are cut off as one numeral. -/
theorem scans_number (n : Nat) {rest : List Char} (hrest : Numeral.Ends rest) :
    Scans (Decimal.chars n ++ rest) [.number (.ofNat n)] rest := by
  -- The first digit decides which word it is, and then all digits are read.
  obtain ⟨c, cs, hchars⟩ := List.exists_cons_of_ne_nil (Decimal.chars_ne_nil n)
  have hc : c.isDigit = true := Decimal.isDigit_of_mem_chars (hchars ▸ List.mem_cons_self)
  have hscan := Numeral.scanUnsigned?_chars hrest n
  rw [hchars] at hscan ⊢
  refine scans_word (isBlank_of_isDigit hc) ?_ ?_
  · show next? c (cs ++ rest) = _
    rw [next?_of_isDigit hc]
    show (Numeral.scanUnsigned? false (c :: cs ++ rest)).map _ = _
    rw [hscan]
    rfl
  · show rest.length ≤ (cs ++ rest).length
    rw [List.length_append]
    exact Nat.le_add_left _ _

/-- A string in quotes is cut off as one word. -/
theorem scans_quote (s : String) (rest : List Char) :
    Scans (quote s ++ rest) [.string (pieces s)] rest := by
  have hscan := scanString?_escaped s.toList rest
  rw [quote, List.cons_append, List.append_assoc, List.singleton_append]
  refine scans_word rfl ?_ ?_
  · show (scanString? _).map _ = _
    rw [hscan]
    rfl
  · rw [List.length_append, List.length_cons]
    omega

/-- A comma is a word. -/
theorem scans_comma (cs : List Char) : Scans (',' :: cs) [.comma] cs :=
  scans_word rfl rfl (Nat.le_refl _)

/-- The name of a field, and the colon behind it. -/
theorem scans_name (name : String) (cs : List Char) :
    Scans (quote name ++ ':' :: cs) [.string (pieces name), .colon] cs := by
  have hcolon : Scans (':' :: cs) [.colon] cs := scans_word rfl rfl (Nat.le_refl _)
  exact (scans_quote name _).trans hcolon

/-! ### Values -/

/-- The text of a field. -/
def fieldText (f : String × Value) : List Char :=
  quote f.1 ++ ':' :: f.2.chars

/-- The elements of an array are written with commas in between. -/
theorem itemChars_eq : ∀ vs : List Value,
    itemChars vs = [','].intercalate (vs.map fun v => v.chars)
  | [] => by rw [itemChars, List.map_nil, List.intercalate_nil]
  | [v] => by rw [itemChars, List.map_singleton, List.intercalate_singleton]
  | v :: w :: vs => by
      rw [itemChars, itemChars_eq (w :: vs)]
      simp only [List.map_cons, List.intercalate_cons_cons, List.append_assoc,
        List.singleton_append]

/-- The fields of an object are written with commas in between. -/
theorem fieldChars_eq : ∀ fs : List (String × Value),
    fieldChars fs = [','].intercalate (fs.map fieldText)
  | [] => by rw [fieldChars, List.map_nil, List.intercalate_nil]
  | [(name, v)] => by
      rw [fieldChars, List.map_singleton, List.intercalate_singleton, fieldText]
  | (name, v) :: f :: fs => by
      rw [fieldChars, fieldChars_eq (f :: fs)]
      simp only [List.map_cons, List.intercalate_cons_cons, List.append_assoc, fieldText,
        List.cons_append, List.nil_append]

/-- What is cut into words one by one is cut into them with commas in between. -/
theorem scans_intercalate {α : Type} {text : α → List Char} {words : α → List Token}
    {xs : List α}
    (h : ∀ x ∈ xs, ∀ rest, Numeral.Ends rest → Scans (text x ++ rest) (words x) rest)
    {rest : List Char} (hrest : Numeral.Ends rest) :
    Scans ([','].intercalate (xs.map text) ++ rest) ([.comma].intercalate (xs.map words))
      rest := by
  induction xs with
  | nil => exact fun size hsize => ⟨size, hsize, rfl⟩
  | cons x xs ih =>
      have hothers := ih fun y hy => h y (List.mem_cons_of_mem x hy)
      have hfirst := h x List.mem_cons_self
      rw [intercalate_cons_append, ← List.append_nil ([Token.comma].intercalate _),
        intercalate_cons_append]
      cases xs with
      | nil =>
          rw [behind, behind, List.append_nil]
          exact hfirst rest hrest
      | cons y ys =>
          -- A comma ends a numeral, so the first element ends there.
          rw [behind, behind, List.append_nil]
          exact (hfirst _ (ends_cons (.inl rfl) _)).trans ((scans_comma _).trans hothers)

/-- The text of a value is cut into its words, if no numeral goes on behind it. -/
theorem Value.scans (v : Value) {rest : List Char} (hrest : Numeral.Ends rest) :
    Scans (v.chars ++ rest) v.tokens rest := by
  -- What a value holds is followed by a comma or a closing bracket, and so ends any numeral in it.
  induction v using Value.induction generalizing rest with
  | bool b =>
      rw [tokens]
      cases b with
      | true => exact scans_word rfl rfl (Nat.le_add_right rest.length 3)
      | false => exact scans_word rfl rfl (Nat.le_add_right rest.length 4)
  | number n =>
      rw [tokens, chars]
      exact scans_number n hrest
  | string s =>
      rw [tokens, chars]
      exact scans_quote s rest
  | array items ih =>
      have hopen : Scans ('[' :: (itemChars items ++ ']' :: rest)) [.openArray] _ :=
        scans_word rfl rfl (Nat.le_refl _)
      have hclose : Scans (']' :: rest) [.closeArray] rest := scans_word rfl rfl (Nat.le_refl _)
      have hitems := scans_intercalate (fun v hv rest => ih v hv)
        (ends_cons (.inr (.inl rfl)) rest)
      rw [← itemChars_eq] at hitems
      rw [tokens, chars, List.cons_append, List.append_assoc]
      exact hopen.trans (hitems.trans hclose)
  | object fields ih =>
      have hopen : Scans ('\x7b' :: (fieldChars fields ++ '\x7d' :: rest)) [.openObject] _ :=
        scans_word rfl rfl (Nat.le_refl _)
      have hclose : Scans ('\x7d' :: rest) [.closeObject] rest :=
        scans_word rfl rfl (Nat.le_refl _)
      have hfield : ∀ f ∈ fields, ∀ rest, Numeral.Ends rest →
          Scans (fieldText f ++ rest) (fieldWords f) rest := by
        intro f hf rest hrest
        rw [fieldText, List.append_assoc, List.cons_append]
        exact (scans_name f.1 _).trans (ih f hf hrest)
      have hfields := scans_intercalate hfield (ends_cons (.inr (.inr rfl)) rest)
      rw [← fieldChars_eq] at hfields
      rw [tokens_object, chars, List.cons_append, List.append_assoc]
      exact hopen.trans (hfields.trans hclose)

/-- The text of a value is cut into the words of the value. -/
theorem Value.scan_render (v : Value) : Token.scan v.render = v.tokens := by
  have hscans := v.scans ends_nil
  rw [List.append_nil] at hscans
  exact scan_of_scans hscans

/-- Different values have different texts. -/
theorem Value.render_inj {v w : Value} (h : v.render = w.render) : v = w := by
  have hwords : v.tokens ++ [] = w.tokens ++ [] := by
    rw [← scan_render, ← scan_render, h]
  exact (tokens_append_inj hwords).1

end Countersign.Json
