import Mathlib.Data.List.TakeWhile
import Countersign.Toml.Scan

/-!
# `Countersign.Proofs.Toml.Scan`: what a scan does with a text

A scan is a program, and the statements about documents are about texts. Here is one equation for
every way of putting scans together and for every scan of single characters: the text that it is
run on is on the left, and the answer with the text that is left over is on the right. Whatever is
made of these can be run by rewriting with them.

Going the other way, from a scan that has answered to its parts, `run_bind_eq_some_iff` is all that
is needed.
-/

set_option autoImplicit false

namespace Countersign.Toml.Scan

variable {α β : Type}

/-! ### Putting scans together -/

/-- The second scan goes on with the text that the first one has left over. -/
theorem run_bind (x : Scan α) (f : α → Scan β) (cs : List Char) :
    (x >>= f).run cs = (x.run cs).bind fun answer => (f answer.1).run answer.2 :=
  rfl

/-- An answer takes nothing. -/
theorem run_pure (a : α) (cs : List Char) : (pure a : Scan α).run cs = some (a, cs) :=
  rfl

/-- What may be missing is an answer, or fails. -/
theorem run_lift (o : Option α) (cs : List Char) :
    (StateT.lift o : Scan α).run cs = o.map fun a => (a, cs) := by
  cases o <;> rfl

/-- The second scan is run on the same text if the first one fails. -/
theorem run_orElse (x y : Scan α) (cs : List Char) :
    (x <|> y).run cs = (x.run cs).or (y.run cs) := by
  show (x.run cs <|> y.run cs) = _
  cases x.run cs <;> rfl

/-- Where the first scan fails the second one is run. -/
theorem run_orElse_of_none {x : Scan α} {cs : List Char} (h : x.run cs = none) (y : Scan α) :
    (x <|> y).run cs = y.run cs := by
  rw [run_orElse, h, Option.none_or]

/-- A scan that fails takes nothing if it is optional. -/
theorem run_optional_of_none {x : Scan α} {cs : List Char} (h : x.run cs = none) :
    (optional x).run cs = some (none, cs) := by
  have hmap : (some <$> x).run cs = none := by
    show (x.run cs).bind _ = none
    rw [h, Option.bind_none]
  rw [optional, run_orElse_of_none hmap, run_pure]

/-- If several scans in a row answer, then so does each of them on what the one before has left. -/
theorem run_bind_eq_some_iff {x : Scan α} {f : α → Scan β} {cs : List Char}
    {answer : β × List Char} :
    (x >>= f).run cs = some answer ↔
      ∃ a rest, x.run cs = some (a, rest) ∧ (f a).run rest = some answer := by
  rw [run_bind, Option.bind_eq_some_iff, Prod.exists]

/-- If it was an answer, nothing was missing. -/
theorem eq_some_of_run_lift {o : Option α} {a : α} {cs rest : List Char}
    (h : (StateT.lift o : Scan α).run cs = some (a, rest)) : o = some a := by
  rw [run_lift, Option.map_eq_some_iff] at h
  obtain ⟨_, ho, ⟨⟩⟩ := h
  exact ho

/-! ### Single characters -/

/-- Looking at the next character takes nothing. -/
theorem run_peek? (cs : List Char) : peek?.run cs = some (cs.head?, cs) :=
  rfl

/-- A row of characters of one kind is taken as far as it goes. -/
theorem run_takeWhile (p : Char → Bool) (cs : List Char) :
    (takeWhile p).run cs = some (cs.takeWhile p, cs.dropWhile p) :=
  rfl

/-- A character of the kind is taken. -/
theorem run_satisfy_of_pos {p : Char → Bool} {c : Char} (h : p c = true) (cs : List Char) :
    (satisfy p).run (c :: cs) = some (c, cs) := by
  show (if p c = true then _ else _ : Scan Char).run (c :: cs) = _
  rw [if_pos h]
  rfl

/-- Where no such character comes next the scan fails. -/
theorem run_satisfy_of_neg {p : Char → Bool} {cs : List Char}
    (h : ∀ c ∈ cs.head?, p c = false) : (satisfy p).run cs = none := by
  cases cs with
  | nil => rfl
  | cons c cs =>
      show (if p c = true then _ else _ : Scan Char).run (c :: cs) = _
      rw [if_neg (by simp [h c rfl])]
      rfl

/-- The character that should come next is taken. -/
theorem run_char_self (c : Char) (cs : List Char) : (char c).run (c :: cs) = some ((), cs) := by
  have hself : (c == c) = true := beq_self_eq_true c
  rw [char, run_bind, run_satisfy_of_pos (p := (· == c)) hself]
  rfl

/-- Where another one comes next the scan fails. -/
theorem run_char_of_ne {c : Char} {cs : List Char} (h : cs.head? ≠ some c) :
    (char c).run cs = none := by
  have hother : ∀ d ∈ cs.head?, (d == c) = false := fun d hd =>
    beq_eq_false_iff_ne.mpr fun heq => h (heq ▸ hd)
  rw [char, run_bind, run_satisfy_of_neg hother]
  rfl

/-- A text is scanned character by character. -/
theorem run_text_cons {s : String} {c : Char} {t : List Char} (hs : s.toList = c :: t)
    (cs : List Char) :
    (text s).run cs = ((char c).run cs).bind fun answer => (t.forM char).run answer.2 := by
  rw [text, hs]
  rfl

/-- A text that should come next but begins with another character. -/
theorem run_text_of_ne {s : String} {c : Char} {t cs : List Char} (hs : s.toList = c :: t)
    (h : cs.head? ≠ some c) : (text s).run cs = none := by
  rw [run_text_cons hs, run_char_of_ne h, Option.bind_none]

end Countersign.Toml.Scan
