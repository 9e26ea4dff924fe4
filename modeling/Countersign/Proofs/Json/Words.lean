import Countersign.Proofs.Json.Numeral
import Countersign.Proofs.Json.Quoted

/-!
# `Countersign.Proofs.Json.Words`: the words of a value

`Value.tokens` are the words that a value is written with. They show where the value ends and what
it is, whatever words stand behind them (`Value.tokens_append_inj`). The reason is that a value
never begins with the word that closes a list, so the end of a list is seen at each of its commas.

Arrays and objects have lists in them, and `Value.induction` is the induction that goes with it.
-/

set_option autoImplicit false

namespace Countersign.Json

/-- A field is smaller than the object that has it. -/
theorem sizeOf_snd_lt {f : String × Value} {fields : List (String × Value)} (h : f ∈ fields) :
    sizeOf f.2 < 1 + sizeOf fields := by
  obtain ⟨name, v⟩ := f
  have hfield := List.sizeOf_lt_of_mem h
  rw [Prod.mk.sizeOf_spec] at hfield
  show sizeOf v < 1 + sizeOf fields
  omega

/-- The words of a value. -/
def Value.tokens : Value → List Token
  | .bool b => [.bool b]
  | .number n => [.number (.ofNat n)]
  | .string s => [.string (pieces s)]
  | .array items =>
    .openArray :: ([.comma].intercalate (items.map fun v => v.tokens) ++ [.closeArray])
  | .object fields =>
    .openObject ::
      ([.comma].intercalate (fields.map fun f => .string (pieces f.1) :: .colon :: f.2.tokens)
        ++ [.closeObject])
decreasing_by
  · decreasing_tactic
  · have hfield := sizeOf_snd_lt ‹_›
    decreasing_tactic

/-- The words of a field. -/
def fieldWords (f : String × Value) : List Token :=
  .string (pieces f.1) :: .colon :: f.2.tokens

/-- The words of an object are those of its fields, with commas in between. -/
theorem Value.tokens_object (fields : List (String × Value)) :
    (Value.object fields).tokens
      = .openObject :: ([.comma].intercalate (fields.map fieldWords) ++ [.closeObject]) := by
  rw [tokens]
  rfl

/-- What holds of a value if it holds of the values in it holds of every value. -/
@[elab_as_elim]
theorem Value.induction {motive : Value → Prop} (bool : ∀ b, motive (.bool b))
    (number : ∀ n, motive (.number n)) (string : ∀ s, motive (.string s))
    (array : ∀ items, (∀ v ∈ items, motive v) → motive (.array items))
    (object : ∀ fields, (∀ f ∈ fields, motive f.2) → motive (.object fields)) :
    ∀ v, motive v
  | .bool b => bool b
  | .number n => number n
  | .string s => string s
  | .array items => array items fun v _ => v.induction bool number string array object
  | .object fields => object fields fun f _ => f.2.induction bool number string array object
decreasing_by
  · decreasing_tactic
  · have hfield := sizeOf_snd_lt ‹_›
    decreasing_tactic

/-- The words that a value can begin with. -/
def Token.Begins : Token → Prop
  | .openObject | .openArray | .bool _ | .number _ | .string _ => True
  | .closeObject | .closeArray | .comma | .colon | .null | .bad => False

/-- A value has a first word, and one that a value can begin with. -/
theorem Value.tokens_eq_cons (v : Value) : ∃ t ts, v.tokens = t :: ts ∧ t.Begins := by
  cases v with
  | bool b => exact ⟨.bool b, [], by rw [tokens], trivial⟩
  | number n => exact ⟨.number (.ofNat n), [], by rw [tokens], trivial⟩
  | string s => exact ⟨.string (pieces s), [], by rw [tokens], trivial⟩
  | array items => exact ⟨.openArray, _, by rw [tokens], trivial⟩
  | object fields => exact ⟨.openObject, _, by rw [tokens], trivial⟩

/-- No value begins with a word that closes something. -/
theorem Value.tokens_append_ne_cons (v : Value) {close : Token} (hclose : ¬ close.Begins)
    {s t : List Token} : v.tokens ++ s ≠ close :: t := by
  obtain ⟨first, others, htokens, hbegins⟩ := v.tokens_eq_cons
  rw [htokens]
  intro h
  exact hclose ((List.cons.inj h).1 ▸ hbegins)

/-! ### Lists with commas -/

/-- What stands behind the first element of a list is a comma, unless that was the last one. -/
def behind {α β : Type} (comma : β) (f : α → List β) : List α → List β → List β
  | [], rest => rest
  | x :: xs, rest => comma :: ([comma].intercalate ((x :: xs).map f) ++ rest)

/-- A list with commas is its first element and what stands behind that. -/
theorem intercalate_cons_append {α β : Type} (comma : β) (f : α → List β) (x : α) (xs : List α)
    (rest : List β) :
    [comma].intercalate ((x :: xs).map f) ++ rest = f x ++ behind comma f xs rest := by
  cases xs with
  | nil => rw [List.map_singleton, List.intercalate_singleton, behind]
  | cons y ys =>
      rw [behind, List.map_cons, List.map_cons, List.intercalate_cons_cons, List.append_assoc,
        List.append_assoc, List.singleton_append]

/-! ### From the words back to the value -/

/-- A list is known by the words of its elements, if these show where they end. -/
theorem intercalate_append_inj {α : Type} {words : α → List Token} {close : Token}
    (hcomma : close ≠ .comma) (hclose : ∀ (x : α) (s t : List Token), words x ++ s ≠ close :: t)
    {xs ys : List α} {s t : List Token}
    (h : ∀ x ∈ xs, ∀ y s t, words x ++ s = words y ++ t → x = y ∧ s = t)
    (heq : [.comma].intercalate (xs.map words) ++ close :: s
      = [.comma].intercalate (ys.map words) ++ close :: t) : xs = ys ∧ s = t := by
  induction xs generalizing ys with
  | nil =>
      cases ys with
      | nil => exact ⟨rfl, (List.cons.inj heq).2⟩
      | cons y ys =>
          rw [intercalate_cons_append] at heq
          exact absurd heq.symm (hclose y _ s)
  | cons x xs ih =>
      cases ys with
      | nil =>
          rw [intercalate_cons_append] at heq
          exact absurd heq (hclose x _ t)
      | cons y ys =>
          rw [intercalate_cons_append, intercalate_cons_append] at heq
          -- The first elements are equal, so the same words stand behind them: a comma if more
          -- elements follow, and the closing word if none do.
          obtain ⟨rfl, hbehind⟩ := h x List.mem_cons_self y _ _ heq
          cases xs with
          | nil =>
              cases ys with
              | nil => exact ⟨rfl, (List.cons.inj hbehind).2⟩
              | cons y ys => exact absurd (List.cons.inj hbehind).1 hcomma
          | cons x' xs =>
              cases ys with
              | nil => exact absurd (List.cons.inj hbehind).1.symm hcomma
              | cons y ys =>
                  obtain ⟨htail, hrest⟩ := ih (fun z hz => h z (List.mem_cons_of_mem _ hz))
                    (List.cons.inj hbehind).2
                  exact ⟨congrArg _ htail, hrest⟩

/-- No two numbers are written in the same way. -/
theorem Numeral.ofNat_inj {m n : Nat} (h : Numeral.ofNat m = Numeral.ofNat n) : m = n :=
  Decimal.chars_inj (congrArg Numeral.whole h)

/-- The words of a value show where it ends, and what it is. -/
theorem Value.tokens_append_inj {v w : Value} {s t : List Token}
    (h : v.tokens ++ s = w.tokens ++ t) : v = w ∧ s = t := by
  -- The first word says what kind of value it is, and the words inside show where it ends.
  induction v using Value.induction generalizing w s t with
  | bool b =>
      cases w with
      | bool b' =>
          rw [tokens, tokens] at h
          cases h
          exact ⟨rfl, rfl⟩
      | _ => simp [tokens] at h
  | number n =>
      cases w with
      | number n' =>
          rw [tokens, tokens] at h
          obtain ⟨hword, hrest⟩ := List.cons.inj h
          exact ⟨congrArg _ (Numeral.ofNat_inj (Token.number.inj hword)), hrest⟩
      | _ => simp [tokens] at h
  | string a =>
      cases w with
      | string a' =>
          rw [tokens, tokens] at h
          obtain ⟨hword, hrest⟩ := List.cons.inj h
          exact ⟨congrArg _ (pieces_inj (Token.string.inj hword)), hrest⟩
      | _ => simp [tokens] at h
  | array items ih =>
      cases w with
      | array items' =>
          rw [tokens, tokens, List.cons_append, List.cons_append, List.append_assoc,
            List.append_assoc] at h
          obtain ⟨hitems, hrest⟩ := intercalate_append_inj (by decide)
            (fun v s t => v.tokens_append_ne_cons id) (fun v hv w s t => ih v hv)
            (List.cons.inj h).2
          exact ⟨congrArg _ hitems, hrest⟩
      | _ => simp [tokens] at h
  | object fields ih =>
      cases w with
      | object fields' =>
          rw [tokens_object, tokens_object, List.cons_append, List.cons_append,
            List.append_assoc, List.append_assoc] at h
          have hfield : ∀ f ∈ fields, ∀ f' s t, fieldWords f ++ s = fieldWords f' ++ t →
              f = f' ∧ s = t := by
            rintro ⟨name, v⟩ hf ⟨name', v'⟩ s t hwords
            obtain ⟨hname, hvalue⟩ := List.cons.inj hwords
            obtain ⟨rfl, hrest⟩ := ih _ hf (List.cons.inj hvalue).2
            exact ⟨congrArg (·, v) (pieces_inj (Token.string.inj hname)), hrest⟩
          have hclose : ∀ (f : String × Value) (s t : List Token),
              fieldWords f ++ s ≠ .closeObject :: t := by
            intro f s t hwords
            cases (List.cons.inj hwords).1
          obtain ⟨hfields, hrest⟩ := intercalate_append_inj (by decide) hclose hfield
            (List.cons.inj h).2
          exact ⟨congrArg _ hfields, hrest⟩
      | _ => simp [tokens] at h

end Countersign.Json
