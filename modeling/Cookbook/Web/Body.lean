import Cookbook.Catalog
import Cookbook.Decimal.Binary
import Cookbook.Response
/-!
# Cookbook.Web.Body

What the web interface answers with: data or a document. In data a number that is not finite cannot
be written and is left out as `null`.
-/

namespace Cookbook

/-- A text if there is one. -/
def Value.ofText? (s : Option String) : Value := (s.map Value.text).getD .null

namespace SegmentResponse

/-- A segment as a value. -/
def toValue (s : SegmentResponse) : Value :=
  .record [("type", .text s.type.word), ("text", .text s.text), ("ref_id", Value.ofText? s.refId)]

end SegmentResponse

namespace StepResponse

/-- A step as a value. -/
def toValue (s : StepResponse) : Value :=
  .record [("name", .text s.name), ("segments", .list (s.segments.map (·.toValue)))]

end StepResponse

namespace SupplyResponse

/-- A supply as a value. -/
def toValue (s : SupplyResponse) : Value :=
  .record [("id", .text s.id), ("name", .text s.name)]

end SupplyResponse

namespace IngredientResponse

/-- An ingredient as a value. -/
def toValue (i : IngredientResponse) : Value :=
  .record [("id", .text i.id), ("name", .text i.name), ("unit", .text i.unit),
    ("total_amount", .float i.total), ("display", .text i.display)]

end IngredientResponse

namespace Response

/-- A recipe as a value. -/
def toValue (r : Response) : Value :=
  .record [("id", .text r.id), ("name", .text r.name), ("portions", .int r.portions),
    ("supplies", .list (r.supplies.map (·.toValue))),
    ("ingredients", .list (r.ingredients.map (·.toValue))),
    ("steps", .list (r.steps.map (·.toValue)))]

end Response

namespace IndexEntry

/-- An entry of the index as a value. -/
def toValue (e : IndexEntry) : Value := .record [("id", .text e.id), ("name", .text e.name)]

end IndexEntry

namespace Value

/-- Whether a floating point number is finite. -/
def isFinite (x : Float) : Bool :=
  match Decimal.parts x with
  | .finite .. => true
  | _ => false

mutual

/-- A value in which every number is finite: others become `null`. -/
def finite : Value → Value
  | float x => if isFinite x then float x else null
  | list items => list (finiteItems items)
  | record fields => record (finiteFields fields)
  | v => v

/-- Items in which every number is finite. -/
def finiteItems : List Value → List Value
  | [] => []
  | v :: items => finite v :: finiteItems items

/-- Fields in which every number is finite. -/
def finiteFields : List (String × Value) → List (String × Value)
  | [] => []
  | (key, v) :: fields => (key, finite v) :: finiteFields fields

end

end Value

namespace Web

/-- The content of an answer. -/
inductive Body
  | none
  | data (v : Value)
  | document (markdown : String)

/-- The type of a content. -/
def Body.contentType? : Body → Option String
  | .none => Option.none
  | .data _ => some "application/json"
  | .document _ => some "text/markdown; charset=utf-8"

end Web

end Cookbook
