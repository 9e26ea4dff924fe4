import Mathlib.Data.List.Nodup
import Countersign.Proofs.Toml.Document
import Countersign.Settings.Load

/-!
# `Countersign.Proofs.Settings.Load`: the limits that a document sets

Some of the limits can be chosen, in any order, and written down as a document with a line for each
(`Choice`). `Limits.ofToml_choice` says what becomes of such a document, and of one with a further
line that should not be there. It is read from the front, so a name that comes twice is found when
it comes for the second time, and a name that nobody knows when the lines are all read; a limit of
zero is only found when all limits are set. It is then the first in the order in which the limits
are declared that the message names, and not the first in the document.
-/

set_option autoImplicit false

namespace Countersign

/-! ### Limits and their names -/

namespace Limit

/-- Every limit is in the list of all. -/
theorem mem_all (k : Limit) : k ∈ all := by
  cases k <;> decide

/-- No two limits have the same name. -/
theorem name_injective : Function.Injective name := fun j k h =>
  Option.some.inj (by rw [← ofName?_name j, h, ofName?_name])

/-- The name of a limit needs no quotes. -/
theorem bare_name (k : Limit) : Toml.Bare k.name where
  ne_nil := by cases k <;> decide
  isBare := List.all_eq_true.mp (by cases k <;> decide)

end Limit

namespace Limits

/-- Setting a limit changes that one and no other. -/
theorem get_set (l : Limits) (j k : Limit) (v : UInt64) :
    (l.set j v).get k = if j = k then v else l.get k := by
  cases j <;> cases k <;> rfl

/-- No limit is zero by default. -/
theorem standard_ne_zero (k : Limit) : standard.get k ≠ 0 := by
  cases k <;> decide

/-- The limits with the chosen ones replaced, one after the other. -/
def setAll (l : Limits) (vs : List (Limit × Nat)) : Limits :=
  vs.foldl (fun l v => l.set v.1 (UInt64.ofNat v.2)) l

/-- The first choice is set before the others. -/
theorem setAll_cons (l : Limits) (v : Limit × Nat) (vs : List (Limit × Nat)) :
    l.setAll (v :: vs) = (l.set v.1 (UInt64.ofNat v.2)).setAll vs :=
  rfl

/-- A limit that was not chosen is not touched. -/
theorem get_setAll_of_not_mem {vs : List (Limit × Nat)} {k : Limit} (hk : k ∉ vs.map Prod.fst)
    (l : Limits) : (l.setAll vs).get k = l.get k := by
  induction vs generalizing l with
  | nil => rfl
  | cons v vs ih =>
      rw [List.map_cons, List.mem_cons, not_or] at hk
      rw [setAll_cons, ih hk.2, get_set, if_neg (Ne.symm hk.1)]

/-- A limit that was chosen once has the value that was chosen for it. -/
theorem get_setAll_of_mem {vs : List (Limit × Nat)} (hnodup : (vs.map Prod.fst).Nodup) {k : Limit}
    {n : Nat} (hmem : (k, n) ∈ vs) (l : Limits) : (l.setAll vs).get k = UInt64.ofNat n := by
  induction vs generalizing l with
  | nil => cases hmem
  | cons v vs ih =>
      rw [List.map_cons, List.nodup_cons] at hnodup
      rcases List.mem_cons.mp hmem with rfl | hmem
      · rw [setAll_cons, get_setAll_of_not_mem hnodup.1, get_set, if_pos rfl]
      · rw [setAll_cons, ih hnodup.2 hmem]

/-- Names of limits with numbers for them set those limits. -/
theorem override_names (l : Limits) (vs : List (Limit × Nat)) :
    l.override (vs.map fun v => (v.1.name, .integer v.2)) = .ok (l.setAll vs) := by
  induction vs generalizing l with
  | nil => rfl
  | cons v vs ih =>
      have hvalue : valueOf v.1 (.integer v.2) = .ok (UInt64.ofNat v.2) := by
        rw [valueOf, if_pos (Int.natCast_nonneg _), Int.toNat_natCast]
      rw [List.map_cons, override, Limit.ofName?_name]
      simp only [hvalue]
      rw [ih, setAll_cons]

/-- A name that nobody knows is refused, wherever it stands and whatever it stands for. -/
theorem override_of_unknown {name : String} (hname : Limit.ofName? name = none)
    {entries : List (String × Found)} (hmem : name ∈ entries.map Prod.fst) (l : Limits) :
    ∃ cause, l.override entries = .error cause := by
  -- What stands in front of the name may be refused first, and is an error too.
  induction entries generalizing l with
  | nil => cases hmem
  | cons entry entries ih =>
      obtain ⟨n, found⟩ := entry
      rw [override]
      split
      · exact ⟨_, rfl⟩
      · next k hk =>
          have hrest : name ∈ entries.map Prod.fst := by
            rcases List.mem_cons.mp hmem with rfl | hrest
            · rw [hname] at hk
              cases hk
            · exact hrest
          split
          · exact ⟨_, rfl⟩
          · exact ih hrest _

/-- Limits that pass the check are not zero. -/
theorem get_ne_zero_of_check {l l' : Limits} (h : l.check = .ok l') (k : Limit) : l'.get k ≠ 0 := by
  rw [check] at h
  split at h
  · cases h
  · next hfirst =>
      cases h
      have hk := List.find?_eq_none.mp hfirst k k.mem_all
      rwa [beq_iff_eq] at hk

end Limits

/-! ### Documents that set limits -/

/-- Some of the limits, in some order, each with a number of 63 bits. -/
structure Choice where
  values : List (Limit × Nat)
  nodup : (values.map Prod.fst).Nodup
  fits : ∀ v ∈ values, v.2 < 2 ^ 63

namespace Choice

variable (c : Choice)

/-- What stands in the lines of the document. -/
def lines : List (String × Nat) :=
  c.values.map fun v => (v.1.name, v.2)

/-- The lines of a choice are plain: their names are bare and different, and their numbers fit. -/
theorem plain_lines : Toml.Plain c.lines where
  bare l hl := by
    obtain ⟨v, -, rfl⟩ := List.mem_map.mp hl
    exact v.1.bare_name
  fits l hl := by
    obtain ⟨v, hv, rfl⟩ := List.mem_map.mp hl
    exact c.fits v hv
  nodup := by
    have hnames := c.nodup.map Limit.name_injective
    rw [List.map_map] at hnames
    rwa [lines, List.map_map]

/-- A limit is zero exactly if zero was chosen for it. -/
theorem get_eq_zero_iff (k : Limit) :
    (Limits.standard.setAll c.values).get k = 0 ↔ (k, 0) ∈ c.values := by
  constructor
  · intro hzero
    by_cases hk : k ∈ c.values.map Prod.fst
    · obtain ⟨⟨k, n⟩, hmem, rfl⟩ := List.mem_map.mp hk
      have hfits := c.fits _ hmem
      rw [Limits.get_setAll_of_mem c.nodup hmem] at hzero
      -- A chosen number fits its word, so it is zero if the word is.
      have hn : n = 0 := by
        have := congrArg UInt64.toNat hzero
        rw [UInt64.toNat_ofNat_of_lt' (Nat.lt_trans hfits (by decide))] at this
        exact this
      rw [← hn]
      exact hmem
    · rw [Limits.get_setAll_of_not_mem hk] at hzero
      exact absurd hzero (Limits.standard_ne_zero k)
  · intro hmem
    rw [Limits.get_setAll_of_mem c.nodup hmem]
    rfl

/-- The limit that is named is the first one, in order of declaration, that zero was chosen for. -/
theorem firstZero?_setAll :
    (Limits.standard.setAll c.values).firstZero?
      = Limit.all.find? fun k => (k, 0) ∈ c.values := by
  rw [Limits.firstZero?]
  congr 1
  funext k
  rw [Bool.eq_iff_iff, beq_iff_eq, decide_eq_true_iff, c.get_eq_zero_iff]

/-- The document is read to the end, and only then the limits are checked. -/
theorem ofToml_of_isWritten {input : String} (h : Toml.IsWritten c.lines input) :
    Limits.ofToml input = (Limits.standard.setAll c.values).check := by
  have hread : Toml.read? input = some (c.values.map fun v => (v.1.name, .integer v.2)) := by
    rw [Toml.read?_of_isWritten c.plain_lines h, lines, List.map_map]
    rfl
  rw [Limits.ofToml, hread]
  simp only [Limits.override_names]

/-- A further line is refused if its name is there already or if nobody knows it. -/
theorem ofToml_of_line {name : String} (hname : Toml.Bare name)
    (h : name ∈ c.lines.map Prod.fst ∨ Limit.ofName? name = none) (text : String) :
    ∃ e, Limits.ofToml (Toml.numberLines c.lines ++ name ++ " = " ++ text) = .error e := by
  -- A name that is there already stops the reader of the document, an unknown one the reader of the
  -- limits.
  rcases h with hrepeated | hunknown
  · rw [Limits.ofToml, Toml.read?_of_repeated c.plain_lines hname text hrepeated]
    exact ⟨_, rfl⟩
  · rw [Limits.ofToml]
    split
    · exact ⟨_, rfl⟩
    · next entries hread =>
        have hmem := Toml.mem_names_of_read? c.plain_lines hname text hread
        obtain ⟨cause, hcause⟩ := Limits.override_of_unknown hunknown hmem Limits.standard
        rw [hcause]
        exact ⟨_, rfl⟩

end Choice

namespace Limits

/-- Limits that were loaded are not zero, whatever the document says. -/
theorem get_ne_zero_of_ofToml {input : String} {l : Limits} (h : ofToml input = .ok l) (k : Limit) :
    l.get k ≠ 0 := by
  rw [ofToml] at h
  split at h
  · cases h
  · split at h
    · cases h
    · exact get_ne_zero_of_check h k

/-- What becomes of documents that set limits.

* A document with one line for each limit that was chosen, in whatever order, sets those limits and
  leaves the others as they are, if none of the numbers is zero. Else it is refused, and the message
  names the first limit, in the order in which they are declared, that would be zero.
* A document that goes on with a line for a name that is there already, or that nobody knows, is
  refused, whatever that line gives the name and whatever comes after it.
* Limits that were loaded from any text at all are not zero. -/
theorem ofToml_choice :
    (∀ (c : Choice) (input : String), Toml.IsWritten c.lines input →
      match Limit.all.find? fun k => (k, 0) ∈ c.values with
      | none => ∃ l, ofToml input = .ok l ∧ (∀ v ∈ c.values, (l.get v.1).toNat = v.2) ∧
          ∀ k, k ∉ c.values.map Prod.fst → l.get k = standard.get k
      | some k => ∃ e, ofToml input = .error e ∧
          e.reason = k.name ++ " must be greater than zero") ∧
    (∀ (c : Choice) (name text : String), Toml.Bare name →
      name ∈ c.lines.map Prod.fst ∨ Limit.ofName? name = none →
      ∃ e, ofToml (Toml.numberLines c.lines ++ name ++ " = " ++ text) = .error e) ∧
    ∀ (input : String) (l : Limits), ofToml input = .ok l → ∀ k, l.get k ≠ 0 := by
  refine ⟨fun c input hinput => ?_, fun c name text hname h => c.ofToml_of_line hname h text,
    fun input l => get_ne_zero_of_ofToml⟩
  rw [c.ofToml_of_isWritten hinput, check, c.firstZero?_setAll]
  cases Limit.all.find? fun k => (k, 0) ∈ c.values with
  | none =>
      refine ⟨_, rfl, fun v hv => ?_, fun k hk => get_setAll_of_not_mem hk standard⟩
      rw [get_setAll_of_mem c.nodup hv,
        UInt64.toNat_ofNat_of_lt' (Nat.lt_trans (c.fits v hv) (by decide))]
  | some k => exact ⟨_, rfl, rfl⟩

/-- Limits in another order than they are declared, once with a further line that nobody knows, and
once with zeros. -/
theorem ofToml_choice_two_limits :
    (∃ l, ofToml "max_multisig_keys = 3\nmax_steps = 16" = .ok l ∧ l.maxSteps.toNat = 16 ∧
      l.maxStackSize = 2048 ∧ ∀ k, l.get k ≠ 0) ∧
    (∃ e, ofToml "max_multisig_keys = 3\nmax_steps = 16\nmax_gas = \"much\"" = .error e) ∧
    ∃ e, ofToml "max_item_size = 0\nmax_steps = 0\n" = .error e ∧
      e.reason = "max_steps must be greater than zero" := by
  let c : Choice := ⟨[(.multisigKeys, 3), (.steps, 16)], by decide, by decide⟩
  let zeros : Choice := ⟨[(.itemSize, 0), (.steps, 0)], by decide, by decide⟩
  have hwritten : Toml.IsWritten c.lines "max_multisig_keys = 3\nmax_steps = 16" :=
    .inr (by decide +kernel)
  have hzeros : Toml.IsWritten zeros.lines "max_item_size = 0\nmax_steps = 0\n" :=
    .inl (by decide +kernel)
  have hgas : Toml.Bare "max_gas" := ⟨by decide, List.all_eq_true.mp (by decide)⟩
  have hlines : Toml.numberLines c.lines ++ "max_gas" ++ " = " ++ "\"much\""
      = "max_multisig_keys = 3\nmax_steps = 16\nmax_gas = \"much\"" := by
    decide +kernel
  obtain ⟨hread, hline, hzero⟩ := ofToml_choice
  obtain ⟨l, hok, hvalues, hothers⟩ := hread c _ hwritten
  refine ⟨⟨l, hok, hvalues (.steps, 16) (by decide), hothers .stackSize (by decide),
    hzero _ l hok⟩, ?_, hread zeros _ hzeros⟩
  rw [← hlines]
  exact hline c _ _ hgas (.inr (Limit.ofName?_eq_none_iff.mpr (by decide)))

end Limits

end Countersign
