import Countersign.Bytes.Basic

/-!
# `Countersign.Machine.Stack`: the evaluation stack

A stack is its items, the top one first, kept together with their number, so that the test for
room does not walk the stack. Two stacks with the same items are equal (`Stack.ext`), and what
each operation does to the items is one lemma.
-/

set_option autoImplicit false

namespace Countersign

/-- Items, the top one first, and how many there are. -/
structure Stack where
  items : List Bytes := []
  depth : Nat := items.length
  depth_eq : depth = items.length := by rfl

namespace Stack

/-- A stack keeps count of its items, so it is known by them alone. -/
@[ext] theorem ext {s t : Stack} (h : s.items = t.items) : s = t := by
  cases s with
  | mk items depth hd =>
    cases t with
    | mk items' depth' hd' =>
      simp only at h
      subst h
      simp [hd, hd']

/-- The stack with an item put on top. -/
def push (s : Stack) (item : Bytes) : Stack :=
  ⟨item :: s.items, s.depth + 1, by simp [s.depth_eq]⟩

/-- The top item and the stack below it. -/
def pop? : Stack → Option (Bytes × Stack)
  | ⟨[], _, _⟩ => none
  | ⟨item :: items, depth, h⟩ => some (item, ⟨items, depth - 1, by simp [h]⟩)

/-- The top item. -/
def top? (s : Stack) : Option Bytes :=
  s.items.head?

/-- What is pushed is on top. -/
@[simp] theorem items_push (s : Stack) (item : Bytes) : (s.push item).items = item :: s.items :=
  rfl

/-- Popping fails on the empty stack only. -/
theorem pop?_eq_none_iff {s : Stack} : s.pop? = none ↔ s.items = [] := by
  rcases s with ⟨_ | ⟨item, items⟩, depth, h⟩ <;> simp [pop?]

/-- Popping takes the first of the items. -/
theorem pop?_eq_some_iff {s t : Stack} {item : Bytes} :
    s.pop? = some (item, t) ↔ s.items = item :: t.items := by
  rcases s with ⟨_ | ⟨top, items⟩, depth, h⟩
  · simp [pop?]
  · simp only [pop?, Option.some.injEq, Prod.mk.injEq, List.cons.injEq]
    constructor
    · rintro ⟨rfl, rfl⟩; simp
    · rintro ⟨rfl, rfl⟩; exact ⟨rfl, Stack.ext rfl⟩

end Stack

/-- An item counts as true if any of its bytes is not zero. -/
def isTrue (item : Bytes) : Bool :=
  item.any (· != 0)

/-- The item that stands for a truth value. -/
def boolItem (b : Bool) : Bytes :=
  if b then [1] else []

end Countersign
