/-!
# Cookbook.Warning

What a run reports besides its result: entries of a record that are left out, recipes that cannot
be served, and files that are passed over. Each warning has one wording.
-/

namespace Cookbook

/-- Something that was left out or passed over. -/
inductive Warning
  /-- A use names an ingredient that the recipe does not have. -/
  | unknownIngredient (step id : String)
  /-- A use names a supply that the recipe does not have. -/
  | unknownSupply (step id : String)
  /-- An asked id cannot name a recipe; it is shown in quotes. -/
  | invalidId (id : String)
  /-- There is no file for an id. -/
  | noFile (path : String)
  /-- The file for an id cannot be read. -/
  | unreadableFile (path cause : String)
  /-- The index cannot be read. -/
  | unreadableIndex (path cause : String)
  /-- The index has no list of recipes. -/
  | indexWithoutList (path : String)
  /-- An entry of the index has no valid id; it is shown as data. -/
  | invalidEntry (entry : String)
  /-- A file in the directory cannot be read. -/
  | ignoredFile (path cause : String)
  /-- The empty recipe stands in for one that was not found. -/
  | emptyRecipeUsed (cause : String)
deriving DecidableEq, Repr

namespace Warning

/-- A warning in words. -/
def message : Warning → String
  | unknownIngredient step id =>
    "Paso '" ++ step ++ "': ingrediente '" ++ id ++ "' no existe, se descarta el uso"
  | unknownSupply step id =>
    "Paso '" ++ step ++ "': insumo '" ++ id ++ "' no existe, se descarta el uso"
  | invalidId id => "Id de receta inválido: " ++ id
  | noFile path => "Receta no encontrada: " ++ path
  | unreadableFile path cause => "No se pudo leer la receta " ++ path ++ ": " ++ cause
  | unreadableIndex path cause =>
    "Índice ilegible " ++ path ++ ", se escanea el directorio: " ++ cause
  | indexWithoutList path =>
    "Índice sin lista 'recipes' en " ++ path ++ ", se escanea el directorio"
  | invalidEntry entry => "Entrada inválida en el índice, se ignora: " ++ entry
  | ignoredFile path cause => "Se ignora " ++ path ++ " en el índice: " ++ cause
  | emptyRecipeUsed cause => cause ++ ". Se usa la receta vacía."

end Warning

end Cookbook
