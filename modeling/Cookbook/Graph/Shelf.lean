/-!
# Cookbook.Graph.Shelf

Objects with an identity. A shelf numbers the objects of one kind in the order in which they were
made; a reference is such a number. Two references are equal exactly when they are to the same
object, whatever the objects hold. Objects change in place and are never removed.
-/

namespace Cookbook

/-- The kinds of objects. -/
inductive Kind
  | ingredient
  | supply
  | use
  | step
  | recipe
deriving DecidableEq, Repr

/-- A reference to an object of a kind. -/
structure Ref (kind : Kind) where
  index : Nat
deriving DecidableEq, Repr

/-- The objects of one kind. -/
structure Shelf (kind : Kind) (α : Type) where
  objects : Array α := #[]

namespace Shelf

variable {kind : Kind} {α : Type}

/-- The object that a reference is to. -/
def get? (s : Shelf kind α) (r : Ref kind) : Option α := s.objects[r.index]?

/-- The object that a reference is to; a reference to nothing is to an empty object. -/
def get [Inhabited α] (s : Shelf kind α) (r : Ref kind) : α := (s.get? r).getD default

/-- The reference that the next object will get. -/
def next (s : Shelf kind α) : Ref kind := ⟨s.objects.size⟩

/-- Add an object. -/
def add (s : Shelf kind α) (a : α) : Shelf kind α := ⟨s.objects.push a⟩

/-- Change the object that a reference is to. -/
def modify (s : Shelf kind α) (r : Ref kind) (f : α → α) : Shelf kind α :=
  ⟨s.objects.modify r.index f⟩

@[simp] theorem get?_add_next (s : Shelf kind α) (a : α) : (s.add a).get? s.next = some a := by
  simp [get?, add, next]

theorem get?_add_of_ne (s : Shelf kind α) (a : α) {r : Ref kind} (h : r ≠ s.next) :
    (s.add a).get? r = s.get? r := by
  have h' : r.index ≠ s.objects.size := fun e => h (by cases r; cases e; rfl)
  simp [get?, add, Array.getElem?_push, h']

@[simp] theorem get?_modify_self (s : Shelf kind α) (r : Ref kind) (f : α → α) :
    (s.modify r f).get? r = (s.get? r).map f := by
  simp [get?, modify, Array.getElem?_modify]

theorem get?_modify_of_ne (s : Shelf kind α) {r r' : Ref kind} (f : α → α) (h : r' ≠ r) :
    (s.modify r f).get? r' = s.get? r' := by
  have h' : r.index ≠ r'.index := fun e => h (by cases r; cases r'; cases e; rfl)
  simp [get?, modify, Array.getElem?_modify, h']

@[simp] theorem next_modify (s : Shelf kind α) (r : Ref kind) (f : α → α) :
    (s.modify r f).next = s.next := by
  simp [next, modify]

end Shelf

end Cookbook
