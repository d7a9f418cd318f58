import Cookbook.Fault
import Cookbook.Value
/-!
# Cookbook.Value.Record

Reading a value as a record or a list. Only a record has fields. Any value that does not count as
given is the empty list, a text is the list of its characters, and a record is the list of its
keys. Entries are looked up by texts.
-/

namespace Cookbook.Value

/-- The field of a record at a key, if the record has the key. -/
def field? (v : Value) (key : String) : Except Fault (Option Value) :=
  match v with
  | record fields => .ok (fields.lookup key)
  | _ => .error .notARecord

/-- The field of a record at a key; a missing one is `null`. -/
def fieldOrNull (v : Value) (key : String) : Except Fault Value :=
  (v.field? key).map (·.getD null)

/-- The items of a value. -/
def items (v : Value) : Except Fault (List Value) :=
  if !v.isGiven then .ok []
  else
    match v with
    | list items => .ok items
    | text s => .ok (s.toList.map fun c => text (String.singleton c))
    | record fields => .ok (fields.map fun field => text field.1)
    | _ => .error .notAList

/-- The entry with a key. A key that is not a text has none, and a list or a record is no key. -/
def findIn {α : Type} (entries : List (String × α)) (key : Value) : Except Fault (Option α) :=
  match key with
  | text s => .ok (entries.lookup s)
  | _ => if key.isKey then .ok none else .error .notAKey

@[simp] theorem findIn_text {α : Type} (entries : List (String × α)) (s : String) :
    findIn entries (text s) = .ok (entries.lookup s) := rfl

@[simp] theorem items_list (xs : List Value) : (list xs).items = .ok xs := by
  cases xs <;> rfl

@[simp] theorem items_null : null.items = .ok [] := rfl

end Cookbook.Value
