import Cookbook.Page
import Cookbook.Portions
import Cookbook.Web.Address
import Cookbook.Web.Body
/-!
# Cookbook.Web

The web interface: the index of recipes, a recipe as data, and a recipe as a document. A recipe
that is not found is answered with 404, any other fault with 500, a mode that there is not with 422
and a method that is not served with 405. Portions that make no sense fall back to the default.
-/

namespace Cookbook.Web

/-- A request: a path with escapes, and the fields of its query. -/
structure Request where
  path : String
  query : List (String × String) := []
  method : String := "GET"

/-- An answer. -/
structure Answer where
  status : Nat
  body : Body := .none

namespace Answer

/-- Data that was found. -/
def data (v : Value) : Answer := ⟨200, .data v.finite⟩

/-- There is nothing here, for a reason. -/
def missing (detail : String) : Answer := ⟨404, .data (.record [("detail", .text detail)])⟩

end Answer

/-- The field of a query at a key; of several the last one counts. -/
def Request.field? (r : Request) (key : String) : Option String := r.query.reverse.lookup key

/-- The portions that a request asks for. -/
def portions (settings : Settings) (r : Request) : Value :=
  .int (Portions.orDefault (Value.ofText? (r.field? "portions")) settings.defaultPortions)

/-- The recipe with an id, as data. -/
def recipe (settings : Settings) (source : Source) (id : String) (r : Request) : Report Answer :=
  let (loaded, g) := Page.load source (.text id) (portions settings r) .empty
  match loaded.outcome with
  | .error (.recipeNotFound id reason) =>
    ⟨loaded.warnings, .ok (.missing (Fault.recipeNotFound id reason).message)⟩
  | .error fault => ⟨loaded.warnings, .error fault⟩
  | .ok ref =>
    ⟨loaded.warnings, (Response.ofRecipe g id ref).map fun response => .data response.toValue⟩

/-- The modes that a request may name. -/
def modes : List String := ["simple", "completo"]

/-- The recipe with an id, as a document. -/
def document (settings : Settings) (source : Source) (id : String) (r : Request) :
    Report Answer := do
  let mode := r.field? "mode"
  if mode.any fun m => !modes.contains m then return ⟨422, .none⟩
  else
    let work := Page.render source settings (.text id) (portions settings r) (Value.ofText? mode)
    let page ← (work .empty).1
    return ⟨if page.found then 200 else 404, .document page.markdown⟩

/-- The state of the service, with its version in detail. -/
def health (detailed : Bool) : Value :=
  .record ([("status", .text "ok"), ("service", .text "rizzipes-api")] ++
    if detailed then [("version", .text "0.1.0")] else [])

/-- The answer at a route. -/
def atRoute (settings : Settings) (files : Files) (r : Request) : Route → Report Answer
  | .root => return .data (health false)
  | .health => return .data (health true)
  | .index => do
    let entries ← (Catalog.ofDataDir settings.dataDir).list files
    return .data (.record [("recipes", .list (entries.map (·.toValue)))])
  | .recipe id =>
    recipe settings (Source.ofCatalog (Catalog.ofDataDir settings.dataDir) files) id r
  | .document id =>
    document settings (Source.ofCatalog (Catalog.ofDataDir settings.dataDir) files) id r

/-- The answer to a request, or the fault that stops it. -/
def respond (settings : Settings) (files : Files) (r : Request) : Report Answer :=
  let path := decodePath r.path
  match Route.ofPath? path with
  | some route =>
    if r.method == "GET" then atRoute settings files r route else return ⟨405, .none⟩
  | none => return if Route.redirects path then ⟨307, .none⟩ else .missing "Not Found"

/-- The answer to a request, with 500 for a fault. -/
def answer (settings : Settings) (files : Files) (r : Request) : Answer :=
  match (respond settings files r).outcome with
  | .ok answer => answer
  | .error _ => ⟨500, .none⟩

end Cookbook.Web
