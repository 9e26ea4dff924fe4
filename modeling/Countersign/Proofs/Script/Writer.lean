import Countersign.Proofs.Script.Template
import Countersign.Script.Writer

/-!
# `Countersign.Proofs.Script.Writer`: what is written, and what is left unwritten

A push that can be written is put behind the script that is there, which is not touched otherwise
(`item_of_ok`). A push that cannot be written leaves the script as it is (`item_of_large`): the
length is looked at before the first byte is put down.

`script_items` is the bridge to `Script/Template.lean`: written one after the other onto an empty
script, the pushes of several items are the script that `Template.pushItems` puts together.
-/

set_option autoImplicit false

namespace Countersign

/-! ### Items that no instruction carries -/

namespace Template

/-- An item that two bytes cannot count is refused. -/
theorem pushItem_of_large {item : Bytes} (h : 65535 < item.length) :
    pushItem item = .error (.itemTooLarge item.length) := by
  have hshort : ¬ item.length ≤ 75 := by omega
  have hcounted : ¬ item.length ≤ 255 := by omega
  have hwide : ¬ item.length ≤ 65535 := by omega
  simp [pushItem, hshort, hcounted, hwide]

/-- The first item that is too large is what several items are refused for. -/
theorem pushItems_of_large {items : List Bytes} {item : Bytes}
    (h : items.find? (fun item => 65535 < item.length) = some item) :
    pushItems items = .error (.itemTooLarge item.length) := by
  induction items with
  | nil => cases h
  | cons first others ih =>
      rw [pushItems]
      by_cases hlarge : 65535 < first.length
      · -- The others are not looked at.
        have hfirst : first = item := by simpa [hlarge] using h
        subst hfirst
        rw [pushItem_of_large hlarge]
        rfl
      · obtain ⟨code, hcode⟩ := exists_pushItem (Nat.le_of_not_lt hlarge)
        have hothers : others.find? (fun item => 65535 < item.length) = some item := by
          simpa [hlarge] using h
        rw [hcode, ih hothers]
        rfl

/-- Several items can be pushed if and only if each of them can. -/
theorem exists_pushItems_iff {items : List Bytes} :
    (∃ script, pushItems items = .ok script) ↔ ∀ item ∈ items, item.length ≤ 65535 := by
  refine ⟨fun ⟨script, hscript⟩ => ?_, exists_pushItems⟩
  cases hfind : items.find? (fun item => 65535 < item.length) with
  | none => simpa using List.find?_eq_none.mp hfind
  | some item =>
      rw [pushItems_of_large hfind] at hscript
      cases hscript

end Template

/-! ### Single pushes -/

namespace Writer

/-- An item is written behind the bytes that say its length. -/
private theorem item_of_header {item : Bytes} (head : Bytes)
    (h : header item.length = bytes head) (script : Bytes) :
    Writer.item item script = .ok () (script ++ (head ++ item)) := by
  show (header item.length >>= fun _ => bytes item) script = _
  rw [h]
  show EStateM.Result.ok () (script ++ head ++ item) = _
  rw [List.append_assoc]

/-- An item that can be pushed is written behind the script that is there. -/
theorem item_of_ok {item code : Bytes} (h : Template.pushItem item = .ok code) (script : Bytes) :
    Writer.item item script = .ok () (script ++ code) := by
  rw [Template.pushItem] at h
  -- Both sides choose the instruction by the same comparisons.
  split at h
  · rename_i hshort
    cases h
    exact item_of_header [_] (if_pos hshort) script
  · rename_i hshort
    split at h
    · rename_i hcounted
      cases h
      refine item_of_header [_, _] ?_ script
      rw [header, if_neg hshort, if_pos hcounted]
    · rename_i hcounted
      split at h
      · rename_i hwide
        cases h
        refine item_of_header (_ :: Bytes.ofNatLE 2 _) ?_ script
        rw [header, if_neg hshort, if_neg hcounted, if_pos hwide]
      · cases h

/-- An item that cannot be pushed leaves the script as it is. -/
theorem item_of_large {item : Bytes} (h : 65535 < item.length) (script : Bytes) :
    Writer.item item script = .error (.itemTooLarge item.length) script := by
  have hheader : header item.length = throw (.itemTooLarge item.length) := by
    rw [header, if_neg (by omega), if_neg (by omega), if_neg (by omega)]
  show (header item.length >>= fun _ => bytes item) script = _
  rw [hheader]
  rfl

/-! ### Rows of pushes -/

/-- The first item is written, and then the others behind it. -/
theorem items_cons_of_ok {first code : Bytes} (h : Template.pushItem first = .ok code)
    (others : List Bytes) (script : Bytes) :
    items (first :: others) script = items others (script ++ code) := by
  show EStateM.bind (Writer.item first) (fun _ => items others) script = _
  rw [EStateM.bind, item_of_ok h]

/-- Where the first item is refused, no other is written. -/
theorem items_cons_of_large {first : Bytes} (h : 65535 < first.length) (others : List Bytes)
    (script : Bytes) :
    items (first :: others) script = .error (.itemTooLarge first.length) script := by
  show EStateM.bind (Writer.item first) (fun _ => items others) script = _
  rw [EStateM.bind, item_of_large h]

/-- The pushes of several items come behind the script that is there. -/
theorem items_of_ok {is : List Bytes} {code : Bytes} (h : Template.pushItems is = .ok code)
    (script : Bytes) : items is script = .ok () (script ++ code) := by
  induction is generalizing code script with
  | nil =>
      cases h
      rw [List.append_nil]
      rfl
  | cons first others ih =>
      obtain ⟨code₁, code₂, hfirst, hothers, rfl⟩ := Template.exists_of_pushItems_cons h
      rw [items_cons_of_ok hfirst, ih hothers, List.append_assoc]

/-- If some item is refused, so is the row, although the pushes before it have been written. -/
theorem items_of_large {is : List Bytes} {item : Bytes}
    (h : is.find? (fun item => 65535 < item.length) = some item) (script : Bytes) :
    ∃ left, items is script = .error (.itemTooLarge item.length) left := by
  induction is generalizing script with
  | nil => cases h
  | cons first others ih =>
      by_cases hlarge : 65535 < first.length
      · have hfirst : first = item := by simpa [hlarge] using h
        subst hfirst
        -- What is left is what the items before this one have written.
        exact ⟨script, items_cons_of_large hlarge others script⟩
      · obtain ⟨code, hcode⟩ := Template.exists_pushItem (Nat.le_of_not_lt hlarge)
        have hothers : others.find? (fun item => 65535 < item.length) = some item := by
          simpa [hlarge] using h
        rw [items_cons_of_ok hcode]
        exact ih hothers (script ++ code)

/-- Written onto an empty script, the pushes of several items are the script of these items. -/
theorem script_items (is : List Bytes) : (items is).script = Template.pushItems is := by
  rw [script]
  cases hfind : is.find? (fun item => 65535 < item.length) with
  | some item =>
      obtain ⟨left, hleft⟩ := items_of_large hfind []
      rw [hleft, Template.pushItems_of_large hfind]
  | none =>
      have hfits : ∀ item ∈ is, item.length ≤ 65535 := by
        simpa using List.find?_eq_none.mp hfind
      obtain ⟨code, hcode⟩ := Template.exists_pushItems hfits
      rw [items_of_ok hcode, hcode, List.nil_append]

end Writer

end Countersign
