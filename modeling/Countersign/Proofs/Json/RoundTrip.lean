import Countersign.Json.Records
import Countersign.Proofs.Bytes.Hex
import Countersign.Proofs.Json.Reading

/-!
# `Countersign.Proofs.Json.RoundTrip`: what is kept as JSON is not lost

Script hashes, phases, witnesses and limits are kept as JSON text. `records_roundTrip` says that
reading the text of any of them gives the same one back, whatever the length of the scripts and
whatever the limits. So writing it once more gives the same text.

Each reader takes back what its record is written as (`TakesBack`), which also says that it leaves
alone what stands behind. For limits this is an induction on the fields that are still to come.
-/

set_option autoImplicit false

namespace Countersign

open Json Reader

/-- Reading what was written of anything gives it back, and writing that gives the same text. -/
def RoundTrips {α : Type} (reader : Reader α) (write : α → Value) : Prop :=
  ∀ x, run reader (write x).render = .ok x ∧
    (run reader (write x).render).map (fun y => (write y).render) = .ok (write x).render

/-- What is taken back is read from its text, and so written again as this text. -/
theorem RoundTrips.of_takesBack {α : Type} {reader : Reader α} {write : α → Value}
    (h : ∀ x, TakesBack reader (write x) x) : RoundTrips reader write := by
  intro x
  have hread := run_of_takesBack (h x)
  rw [hread]
  exact ⟨rfl, rfl⟩

/-! ### Script hashes and phases -/

/-- A script hash is taken back from its digits. -/
theorem takesBack_scriptHash (h : ScriptHash) : TakesBack ScriptHash.reader h.toJson h := by
  intro rest
  rw [ScriptHash.reader, ScriptHash.toJson, bind_of_ok (takesBack_string _ h.toHex rest),
    ScriptHash.parse_toHex]
  rfl

/-- A phase is found by its name. -/
theorem ofName?_name (p : Phase) : Phase.ofName? p.name = some p := by
  cases p <;> decide

/-- A phase is taken back from its name. -/
theorem takesBack_phase (p : Phase) : TakesBack Phase.reader p.toJson p := by
  intro rest
  rw [Phase.reader, Phase.toJson, Value.tokens, List.singleton_append,
    bind_of_ok (take_cons _ rest)]
  dsimp only
  rw [text_pieces, pure_bind, Phase.named, ofName?_name]
  rfl

/-! ### Witnesses -/

/-- A byte string is taken back from an array of numbers. -/
theorem takesBack_bytes (bs : Bytes) : TakesBack Bytes.reader (Bytes.toJson bs) bs := by
  intro rest
  have hbyte : ∀ n ∈ bs.map UInt8.toNat, TakesBack (natural 255 "u8") (.number n) n := by
    intro n hn
    obtain ⟨b, -, rfl⟩ := List.mem_map.mp hn
    have hb := b.toNat_lt
    exact takesBack_natural (by omega) (Nat.lt_trans hb (by decide)) "u8"
  have hvalues : (bs.map fun b => Value.number b.toNat) = (bs.map UInt8.toNat).map .number := by
    rw [List.map_map]
    rfl
  have hback : (bs.map UInt8.toNat).map UInt8.ofNat = bs := by
    rw [List.map_map]
    exact List.map_id'' (fun b => UInt8.ofNat_toNat) bs
  rw [Bytes.reader, Bytes.toJson, hvalues, bind_of_ok (takesBack_array hbyte rest), hback]
  rfl

/-- The code of a witness is taken first. -/
theorem field_code (w : Witness) (rest : List Token) :
    Witness.field (none, none) "code" (.colon :: ((Bytes.toJson w.code).tokens ++ rest))
      = .ok ((some w.code, none), rest) := by
  rw [Witness.field, if_pos rfl]
  show (expect .colon >>= _ : Reader _) _ = _
  rw [bind_of_ok (expect_cons .colon _)]
  dsimp only
  rw [bind_of_ok (takesBack_bytes w.code rest)]
  rfl

/-- A witness is taken back from its two fields. -/
theorem takesBack_witness (w : Witness) : TakesBack Witness.reader w.toJson w := by
  intro rest
  have hparameter : ∀ rest, Witness.field (some w.code, none) "parameter"
      (.colon :: ((Bytes.toJson w.parameter).tokens ++ rest))
        = .ok ((some w.code, some w.parameter), rest) := by
    intro rest
    rw [Witness.field, if_neg (by decide), if_pos rfl]
    show (expect .colon >>= _ : Reader _) _ = _
    rw [bind_of_ok (expect_cons .colon _)]
    dsimp only
    rw [bind_of_ok (takesBack_bytes w.parameter rest)]
    rfl
  have hfields := fields_of_taken (.cons (field_code w) (.cons hparameter .nil)) rest
  rw [Witness.reader, Witness.toJson, Value.tokens_object, List.cons_append, List.append_assoc,
    List.singleton_append, bind_of_ok (take_cons .openObject _)]
  show (remaining >>= _ : Reader Witness) _ = _
  rw [bind_of_ok (remaining_eq _), bind_of_ok hfields]
  show (expect .closeObject >>= _ : Reader Witness) _ = _
  rw [bind_of_ok (expect_cons .closeObject rest)]
  rfl

/-! ### Limits -/

/-- A limit is taken back from its number. -/
theorem takesBack_limit (k : Limit) (v : UInt64) : TakesBack k.reader (.number v.toNat) v := by
  intro rest
  have hv : v.toNat ≤ UInt64.size - 1 := Nat.le_pred_of_lt v.toNat_lt
  have hread := takesBack_natural hv v.toNat_lt k.valueName rest
  rw [Limit.reader, bind_of_ok hread, UInt64.ofNat_toNat]
  rfl

/-- The fields for several limits replace these limits, whatever they were before. -/
theorem fieldsTaken_limits (l : Limits) {ks : List Limit} (hks : ks.Nodup) (l₀ : Limits)
    {read : List Limit} (hread : ∀ k ∈ ks, k ∉ read) :
    FieldsTaken Limits.field (l₀, read) (ks.map fun k => (k.name, .number (l.get k).toNat))
      (ks.foldl (fun l₁ k => l₁.set k (l.get k)) l₀, ks.reverse ++ read) := by
  induction ks generalizing l₀ read with
  | nil => exact .nil
  | cons k ks ih =>
      obtain ⟨hk, hks⟩ := List.nodup_cons.mp hks
      have hfield : ∀ rest, Limits.field (l₀, read) k.name
          (.colon :: ((Value.number (l.get k).toNat).tokens ++ rest))
            = .ok ((l₀.set k (l.get k), k :: read), rest) := by
        intro rest
        rw [Limits.field, Limit.ofName?_name]
        dsimp only
        rw [if_neg (hread k List.mem_cons_self)]
        show (expect .colon >>= _ : Reader _) _ = _
        rw [bind_of_ok (expect_cons .colon _), bind_of_ok (takesBack_limit k (l.get k) rest)]
        rfl
      have hothers : ∀ k' ∈ ks, k' ∉ k :: read := by
        intro k' hk' hmem
        rcases List.mem_cons.mp hmem with rfl | hmem
        · exact hk hk'
        · exact hread k' (List.mem_cons_of_mem k hk') hmem
      have htaken := FieldsTaken.cons hfield (ih hks (l₀.set k (l.get k)) hothers)
      rw [List.foldl_cons, List.reverse_cons, List.append_assoc, List.singleton_append]
      exact htaken

/-- Limits are taken back from their four fields. -/
theorem takesBack_limits (l : Limits) : TakesBack Limits.reader l.toJson l := by
  intro rest
  have hnodup : Limit.all.Nodup := by decide
  have hfields := fields_of_taken
    (fieldsTaken_limits l hnodup Limits.standard fun _ _ => List.not_mem_nil) rest
  -- All limits are replaced, so nothing is left of those that reading starts with.
  have hall : Limit.all.foldl (fun l₁ k => l₁.set k (l.get k)) Limits.standard = l := rfl
  rw [hall] at hfields
  rw [Limits.reader, Limits.toJson, Value.tokens_object, List.cons_append, List.append_assoc,
    List.singleton_append, bind_of_ok (take_cons .openObject _)]
  show (remaining >>= _ : Reader Limits) _ = _
  rw [bind_of_ok (remaining_eq _), bind_of_ok hfields]
  show (expect .closeObject >>= _ : Reader Limits) _ = _
  rw [bind_of_ok (expect_cons .closeObject rest)]
  rfl

/-- What is kept as JSON is read as what was written, and written again as the same text.

* This holds of witnesses with a code and a parameter of any length.
* It holds of limits, whatever the four of them are.
* It holds of script hashes, which are strings of digits, and of phases, which are names. -/
theorem records_roundTrip :
    RoundTrips Witness.reader Witness.toJson ∧ RoundTrips Limits.reader Limits.toJson ∧
      RoundTrips ScriptHash.reader ScriptHash.toJson ∧ RoundTrips Phase.reader Phase.toJson :=
  ⟨.of_takesBack takesBack_witness, .of_takesBack takesBack_limits,
    .of_takesBack takesBack_scriptHash, .of_takesBack takesBack_phase⟩

end Countersign
