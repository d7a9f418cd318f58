import Cookbook.Web.Address
/-!
# Cookbook.Proofs.Web.Address

The addresses of a recipe. A path below the recipes leads to the recipe with an id, or to its
document; the id may be any text that is not empty and holds no slash.
-/

namespace Cookbook

namespace Web.Route

/-- The path of a recipe. -/
def recipePath (id : String) : List Char := recipes ++ '/' :: id.toList

/-- The path of a recipe as a document. -/
def documentPath (id : String) : List Char := recipePath id ++ "/markdown".toList

theorem recipes_eq : recipes = '/' :: 'a' :: "pi/v1/recipes".toList := by decide

theorem ofPath?_below (cs : List Char) : ofPath? (recipes ++ '/' :: cs) = below? cs := by
  have hafter : Text.after? recipes (recipes ++ '/' :: cs) = some ('/' :: cs) :=
    Text.after?_append _ _
  have hindex : endsAs recipes (recipes ++ '/' :: cs) = false := by simp [endsAs]
  have hroot : endsAs ['/'] (recipes ++ '/' :: cs) = false := by
    rw [recipes_eq]
    rfl
  have hhealth : endsAs "/health".toList (recipes ++ '/' :: cs) = false := by
    rw [recipes_eq]
    rfl
  unfold ofPath?
  rw [hafter, hroot, hhealth, hindex]
  rfl

theorem ofPath?_recipePath {id : String} (hid : id ≠ "") (hslash : '/' ∉ id.toList) :
    ofPath? (recipePath id) = some (.recipe id) := by
  rw [recipePath, ofPath?_below, below?, Text.fields_of_not_mem hslash]
  simp [hid]

theorem ofPath?_documentPath {id : String} (hid : id ≠ "") (hslash : '/' ∉ id.toList) :
    ofPath? (documentPath id) = some (.document id) := by
  have hpath : documentPath id = recipes ++ '/' :: (id.toList ++ '/' :: "markdown".toList) := by
    rw [documentPath, recipePath, List.append_assoc, List.cons_append]
    rfl
  have hlast : Text.fields '/' "markdown".toList = ["markdown".toList] :=
    Text.fields_of_not_mem (by decide)
  have hends : endsAs "markdown".toList "markdown".toList = true := by decide
  have hempty : id.toList.isEmpty = false := by simpa using hid
  rw [hpath, ofPath?_below, below?, Text.fields_append hslash, hlast]
  simp only [hempty, hends, Bool.not_false, Bool.and_self, if_true, String.ofList_toList]

end Web.Route

end Cookbook
