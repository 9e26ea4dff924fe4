import Countersign.Proofs.Json.Cutting

/-!
# `Countersign.Proofs.Json.Reading`: readers that take back what was written

A reader takes back a value if it takes exactly the words of the value, whatever stands behind them,
and answers with what was written (`TakesBack`). Then it reads the text of the value, with nothing
left behind (`run_of_takesBack`).

An array is taken back if its elements are (`takesBack_array`), and the fields of an object are
handed on one by one, from the colon of each (`FieldsTaken`, `fields_of_taken`). Both readers count
down from the number of words that are left, which is always enough.
-/

set_option autoImplicit false

namespace Countersign.Json

/-- Several words are never fewer than the elements that they are the words of. -/
theorem length_le_intercalate {α : Type} {words : α → List Token} (xs : List α)
    (h : ∀ x ∈ xs, words x ≠ []) :
    xs.length ≤ ([Token.comma].intercalate (xs.map words)).length := by
  induction xs with
  | nil => exact Nat.le_refl 0
  | cons x xs ih =>
      have hfirst := List.length_pos_iff.mpr (h x List.mem_cons_self)
      have hothers := ih fun y hy => h y (List.mem_cons_of_mem x hy)
      rw [← List.append_nil ([Token.comma].intercalate _), intercalate_cons_append,
        List.length_append]
      cases xs with
      | nil => exact Nat.le_add_right_of_le hfirst
      | cons y ys =>
          simp only [behind, List.append_nil, List.length_cons] at hothers ⊢
          omega

namespace Reader

variable {α β σ : Type}

/-- Behind a reader that answers the next one goes on with what is left. -/
theorem bind_of_ok {x : Reader α} {f : α → Reader β} {ts ts' : List Token} {a : α}
    (h : x ts = .ok (a, ts')) : (x >>= f) ts = f a ts' := by
  show Except.bind (x ts) _ = f a ts'
  rw [h]
  rfl

/-! ### Single words -/

/-- The first word can be taken. -/
theorem take_cons (t : Token) (ts : List Token) : take (t :: ts) = .ok (t, ts) :=
  rfl

/-- The first word can be looked at and left there. -/
theorem peek_cons (t : Token) (ts : List Token) : peek (t :: ts) = .ok (t, t :: ts) :=
  rfl

/-- As many words are left as there are. -/
theorem remaining_eq (ts : List Token) : remaining ts = .ok (ts.length, ts) :=
  rfl

/-- A word that is expected is taken. -/
theorem expect_cons (t : Token) (ts : List Token) : expect t (t :: ts) = .ok ((), ts) := by
  rw [expect, bind_of_ok (take_cons t ts), if_pos rfl]
  rfl

/-- The name of a field is read as it was written. -/
theorem name_pieces (s : String) (ts : List Token) :
    name (.string (pieces s) :: ts) = .ok (s, ts) := by
  rw [name, bind_of_ok (take_cons _ ts)]
  dsimp only
  rw [text_pieces]
  rfl

/-! ### Taking back -/

/-- The reader takes the words of a value, whatever stands behind them, and answers with `a`. -/
def TakesBack (reader : Reader α) (v : Value) (a : α) : Prop :=
  ∀ rest, reader (v.tokens ++ rest) = .ok (a, rest)

/-- What is taken back is read from the text of the value, which holds nothing else. -/
theorem run_of_takesBack {reader : Reader α} {v : Value} {a : α} (h : TakesBack reader v a) :
    run reader v.render = .ok a := by
  have hreads := h []
  rw [List.append_nil] at hreads
  have hrun : StateT.run reader v.tokens = .ok (a, []) := hreads
  rw [run, v.scan_render, hrun]
  rfl

/-- A string is taken back, wherever a string is expected. -/
theorem takesBack_string (expected s : String) :
    TakesBack (string expected) (.string s) s := by
  intro rest
  rw [Value.tokens, string, List.singleton_append, bind_of_ok (take_cons _ rest)]
  dsimp only
  rw [text_pieces]
  rfl

/-- A number that may be read is taken back, if it fits 64 bits. -/
theorem takesBack_natural {n greatest : Nat} (hn : n ≤ greatest) (hfits : n < UInt64.size)
    (expected : String) : TakesBack (natural greatest expected) (.number n) n := by
  intro rest
  rw [Value.tokens, natural, List.singleton_append, bind_of_ok (take_cons _ rest)]
  dsimp only
  rw [Numeral.number?_ofNat hfits]
  dsimp only
  rw [if_pos ⟨Int.natCast_nonneg n, Int.ofNat_le.mpr hn⟩]
  rfl

/-! ### Arrays -/

section
variable {t : Token} (ht : t ≠ .closeArray)

include ht

/-- Where an array begins with anything but its end, there is an element. -/
theorem moreElements_first (ts : List Token) :
    moreElements true (t :: ts) = .ok (true, t :: ts) := by
  rw [moreElements, bind_of_ok (peek_cons t ts)]
  cases t with
  | closeArray => exact absurd rfl ht
  | _ => rfl

/-- Behind a comma there is an element. -/
theorem moreElements_comma (ts : List Token) :
    moreElements false (.comma :: t :: ts) = .ok (true, t :: ts) := by
  rw [moreElements, bind_of_ok (peek_cons .comma (t :: ts))]
  show (expect .comma >>= _ : Reader Bool) _ = _
  rw [bind_of_ok (expect_cons .comma (t :: ts)), bind_of_ok (peek_cons t ts), if_neg ht]
  rfl

end

/-- At the end of an array there are no more elements. -/
theorem moreElements_close (first : Bool) (ts : List Token) :
    moreElements first (.closeArray :: ts) = .ok (false, .closeArray :: ts) :=
  rfl

/-- So none are read there. -/
theorem elements_of_close {element : Reader α} {size : Nat} (hsize : 0 < size) (first : Bool)
    (ts : List Token) :
    elements element size first (.closeArray :: ts) = .ok ([], .closeArray :: ts) := by
  -- The size counts down, and one round is needed to see the end.
  cases size with
  | zero => cases hsize
  | succ size =>
      rw [elements, bind_of_ok (moreElements_close first ts)]
      rfl

/-- An element is read where the array begins, or behind a comma. -/
theorem elements_cons {element : Reader α} {v : Value} {x : α} (hx : TakesBack element v x)
    {size : Nat} {ts rest : List Token} {xs : List α}
    (hxs : elements element size false ts = .ok (xs, rest)) :
    elements element (size + 1) true (v.tokens ++ ts) = .ok (x :: xs, rest) ∧
      elements element (size + 1) false (.comma :: (v.tokens ++ ts)) = .ok (x :: xs, rest) := by
  -- Once it is clear that an element follows, both cases go on in the same way.
  have hmore : ∀ first words, moreElements first words = .ok (true, v.tokens ++ ts) →
      elements element (size + 1) first words = .ok (x :: xs, rest) := by
    intro first words hfirst
    rw [elements, bind_of_ok hfirst]
    show (element >>= _ : Reader (List α)) _ = _
    rw [bind_of_ok (hx ts), bind_of_ok hxs]
    rfl
  obtain ⟨t, others, htokens, hbegins⟩ := v.tokens_eq_cons
  have ht : t ≠ .closeArray := by
    rintro rfl
    exact hbegins
  rw [htokens] at hmore ⊢
  exact ⟨hmore true _ (moreElements_first ht _), hmore false _ (moreElements_comma ht _)⟩

section
variable {element : Reader α} {write : α → Value} {xs : List α}
  (h : ∀ x ∈ xs, TakesBack element (write x) x)

include h

/-- Behind an element the others are read up to the end of the array. -/
theorem elements_behind {size : Nat} (hsize : xs.length < size) (rest : List Token) :
    elements element size false
        (behind .comma (fun x => (write x).tokens) xs (.closeArray :: rest))
      = .ok (xs, .closeArray :: rest) := by
  induction xs generalizing size with
  | nil => exact elements_of_close hsize false rest
  | cons x xs ih =>
      obtain ⟨size, rfl⟩ := Nat.exists_eq_add_one_of_ne_zero (Nat.ne_zero_of_lt hsize)
      have hothers := ih (fun y hy => h y (List.mem_cons_of_mem x hy))
        (Nat.lt_of_succ_lt_succ hsize)
      rw [behind, intercalate_cons_append]
      exact (elements_cons (h x List.mem_cons_self) hothers).2

/-- The elements of an array are read up to its end. -/
theorem elements_list {size : Nat} (hsize : xs.length < size) (rest : List Token) :
    elements element size true
        ([.comma].intercalate (xs.map fun x => (write x).tokens) ++ .closeArray :: rest)
      = .ok (xs, .closeArray :: rest) := by
  cases xs with
  | nil => exact elements_of_close hsize true rest
  | cons x xs =>
      obtain ⟨size, rfl⟩ := Nat.exists_eq_add_one_of_ne_zero (Nat.ne_zero_of_lt hsize)
      have hothers := elements_behind (fun y hy => h y (List.mem_cons_of_mem x hy))
        (Nat.lt_of_succ_lt_succ hsize) rest
      rw [intercalate_cons_append]
      exact (elements_cons (h x List.mem_cons_self) hothers).1

/-- An array is taken back if its elements are. -/
theorem takesBack_array : TakesBack (array element) (.array (xs.map write)) xs := by
  intro rest
  have hne : ∀ x ∈ xs, (write x).tokens ≠ [] := by
    intro x _ hnil
    obtain ⟨t, others, htokens, -⟩ := (write x).tokens_eq_cons
    rw [htokens] at hnil
    cases hnil
  have hsize : xs.length < ([Token.comma].intercalate (xs.map fun x => (write x).tokens)
      ++ Token.closeArray :: rest).length := by
    have hle := length_le_intercalate xs hne
    rw [List.length_append, List.length_cons]
    omega
  rw [Value.tokens, List.map_map, Function.comp_def, array, List.cons_append, List.append_assoc,
    List.singleton_append, bind_of_ok (take_cons .openArray _)]
  show (remaining >>= _ : Reader (List α)) _ = _
  rw [bind_of_ok (remaining_eq _), bind_of_ok (elements_list h hsize rest),
    bind_of_ok (expect_cons .closeArray rest)]
  rfl

end

/-! ### Objects -/

/-- The fields are handed on one after the other, and each is taken from its colon on. -/
inductive FieldsTaken (field : σ → String → Reader σ) : σ → List (String × Value) → σ → Prop
  | nil {s : σ} : FieldsTaken field s [] s
  | cons {s s₁ s' : σ} {name : String} {v : Value} {fs : List (String × Value)} :
      (∀ rest, field s name (.colon :: (v.tokens ++ rest)) = .ok (s₁, rest)) →
      FieldsTaken field s₁ fs s' → FieldsTaken field s ((name, v) :: fs) s'

section
variable {field : σ → String → Reader σ} {s s' : σ} {fs : List (String × Value)}

/-- At the end of an object no more fields are read. -/
theorem fields_of_close {size : Nat} (hsize : 0 < size) (first : Bool) (ts : List Token) :
    fields field size first s (.closeObject :: ts) = .ok (s, .closeObject :: ts) := by
  cases size with
  | zero => cases hsize
  | succ size => rfl

/-- The name of the first field is read where the object begins. -/
theorem nextName_first (name : String) (ts : List Token) :
    nextName true (.string (pieces name) :: ts) = .ok (some name, ts) := by
  rw [nextName, bind_of_ok (peek_cons _ ts)]
  dsimp only
  rw [if_pos rfl, bind_of_ok (name_pieces name ts)]
  rfl

/-- The name of any other field is read behind a comma. -/
theorem nextName_comma (name : String) (ts : List Token) :
    nextName false (.comma :: .string (pieces name) :: ts) = .ok (some name, ts) := by
  rw [nextName, bind_of_ok (peek_cons _ _)]
  show (expect .comma >>= _ : Reader (Option String)) _ = _
  rw [bind_of_ok (expect_cons .comma _)]
  dsimp only
  rw [bind_of_ok (name_pieces name ts)]
  rfl

/-- A field is read where the object begins, or behind a comma. -/
theorem fields_cons {s₁ : σ} {name : String} {v : Value} {ts rest : List Token} {size : Nat}
    (hfield : ∀ rest, field s name (.colon :: (v.tokens ++ rest)) = .ok (s₁, rest))
    (hfields : fields field size false s₁ ts = .ok (s', rest)) :
    fields field (size + 1) true s (fieldWords (name, v) ++ ts) = .ok (s', rest) ∧
      fields field (size + 1) false s (.comma :: (fieldWords (name, v) ++ ts))
        = .ok (s', rest) := by
  -- Both cases find the same name, and differ only in where they find it.
  have hnext : ∀ first words,
      nextName first words = .ok (some name, .colon :: (v.tokens ++ ts)) →
      fields field (size + 1) first s words = .ok (s', rest) := by
    intro first words hname
    rw [fields, bind_of_ok hname]
    show (field s name >>= _ : Reader σ) _ = _
    rw [bind_of_ok (hfield ts), hfields]
  exact ⟨hnext true _ (nextName_first name _), hnext false _ (nextName_comma name _)⟩

/-- Behind a field the others are taken up to the end of the object. -/
theorem fields_behind (h : FieldsTaken field s fs s') {size : Nat} (hsize : fs.length < size)
    (rest : List Token) :
    fields field size false s (behind .comma fieldWords fs (.closeObject :: rest))
      = .ok (s', .closeObject :: rest) := by
  induction h generalizing size with
  | nil => exact fields_of_close hsize false rest
  | cons hfield _ ih =>
      obtain ⟨size, rfl⟩ := Nat.exists_eq_add_one_of_ne_zero (Nat.ne_zero_of_lt hsize)
      rw [behind, intercalate_cons_append]
      exact (fields_cons hfield (ih (Nat.lt_of_succ_lt_succ hsize))).2

/-- The fields of an object are taken up to the end of the object. -/
theorem fields_of_taken (h : FieldsTaken field s fs s') (rest : List Token) :
    let ts := [Token.comma].intercalate (fs.map fieldWords) ++ .closeObject :: rest
    fields field ts.length true s ts = .ok (s', .closeObject :: rest) := by
  intro ts
  have hsize : fs.length < ts.length := by
    have hne : ∀ f ∈ fs, fieldWords f ≠ [] := fun f _ => List.cons_ne_nil _ _
    have hle := length_le_intercalate fs hne
    rw [List.length_append, List.length_cons]
    omega
  obtain ⟨size, hlength⟩ := Nat.exists_eq_add_one_of_ne_zero (Nat.ne_zero_of_lt hsize)
  rw [hlength] at hsize ⊢
  cases h with
  | nil => exact fields_of_close (Nat.succ_pos size) true rest
  | cons hfield hfields =>
      have hothers := fields_behind hfields (Nat.lt_of_succ_lt_succ hsize) rest
      show fields field (size + 1) true s (_ ++ _) = _
      rw [intercalate_cons_append]
      exact (fields_cons hfield hothers).1

end

end Reader

end Countersign.Json
