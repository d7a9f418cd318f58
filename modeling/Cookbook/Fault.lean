/-!
# Cookbook.Fault

Why an operation cannot give its result. The causes come from four sides: a record of the wrong
shape, arithmetic and text that leave their bounds, the file system, and the rules of recipes
themselves. Each cause has one wording.
-/

namespace Cookbook

/-- What the file system refuses to do with a path. -/
inductive FileFault
  | nameTooLong
  | missing
  | isADirectory
  | notADirectory
  | alreadyThere
deriving DecidableEq, Repr

namespace FileFault

/-- The number of a refusal. -/
def code : FileFault → String
  | nameTooLong => "36"
  | missing => "2"
  | isADirectory => "21"
  | notADirectory => "20"
  | alreadyThere => "17"

/-- A refusal in words. -/
def reason : FileFault → String
  | nameTooLong => "File name too long"
  | missing => "No such file or directory"
  | isADirectory => "Is a directory"
  | notADirectory => "Not a directory"
  | alreadyThere => "File exists"

end FileFault

/-- Why an operation cannot give its result. -/
inductive Fault
  /-- Something else stands where a record is needed. -/
  | notARecord
  /-- Something else stands where a list is needed. -/
  | notAList
  /-- A list or a record stands where a key is needed. -/
  | notAKey
  /-- Something else stands where a text is needed. -/
  | notAText
  /-- Two values have no product. -/
  | noProduct
  /-- A value cannot be added to a number. -/
  | noSum
  /-- A whole number has more digits than a text may hold. -/
  | tooManyDigits
  /-- A whole number is beyond the greatest floating point number. -/
  | beyondFloat
  /-- A text or a list cannot be repeated that often. -/
  | tooManyCopies
  /-- A value does not fit the field that shows it. -/
  | misfit
  /-- The bytes of a file are no text. -/
  | notUtf8
  /-- A path holds the character U+0000. -/
  | nulInPath
  /-- The file system refuses; `path` is shown in quotes. -/
  | file (cause : FileFault) (path : String)
  /-- There is no such recipe. -/
  | recipeNotFound (id reason : String)
  /-- A step cannot be shown before it belongs to a recipe. -/
  | stepWithoutRecipe (step : String)
  /-- A step belongs to one recipe for good. -/
  | stepOfOtherRecipe (step recipe : String)
  /-- A text is not a template. -/
  | notATemplate (token : String)
deriving DecidableEq, Repr

namespace Fault

/-- A cause in words. -/
def message : Fault → String
  | notARecord => "se esperaba un registro"
  | notAList => "se esperaba una lista"
  | notAKey => "una lista o un registro no puede ser una clave"
  | notAText => "se esperaba un texto"
  | noProduct => "los valores no se pueden multiplicar"
  | noSum => "el valor no se puede sumar"
  | tooManyDigits => "el número tiene demasiados dígitos"
  | beyondFloat => "el número es demasiado grande"
  | tooManyCopies => "demasiadas repeticiones"
  | misfit => "el valor no cabe en el campo"
  | notUtf8 => "el archivo no es texto UTF-8"
  | nulInPath => "la ruta contiene un carácter nulo"
  | file cause path => "[Errno " ++ cause.code ++ "] " ++ cause.reason ++ ": " ++ path
  | recipeNotFound id reason => "Receta '" ++ id ++ "' no encontrada: " ++ reason
  | stepWithoutRecipe step => "El paso '" ++ step ++ "' no tiene receta asignada"
  | stepOfOtherRecipe step recipe =>
    "El paso '" ++ step ++ "' ya pertenece a la receta '" ++ recipe ++ "'"
  | notATemplate token =>
    "Se esperaba un template '\x7b\x7bkind:id\x7d\x7d', se recibió '" ++ token ++ "'"

end Fault

end Cookbook
