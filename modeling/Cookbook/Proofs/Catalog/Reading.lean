import Cookbook.Proofs.Files.Tree
import Cookbook.Proofs.Web.Recipe
/-!
# Cookbook.Proofs.Catalog.Reading

What can go wrong when the file of a recipe is read. A file that is missing, a directory in its
place, and a text that is not JSON all count as there being no such recipe. Three things do not, and
are passed on as faults of their own: a path that is too long to look at, bytes that are no text,
and a number of too many digits (`Obstacle`).

A recipe is read or not found exactly if none of these is in the way (`not_obstructed_iff`).
-/

namespace Cookbook.Catalog

variable {c : Catalog} {files : Files} {p : Path} {id : String} {fault : Fault}

/-! ### Files -/

/-- The bytes of a file stop a reader, rather than be reported as damage. -/
inductive Undecodable (bytes : List UInt8) : Fault → Prop
  | notUtf8 (h : Text.Utf8.read? bytes = none) : Undecodable bytes .notUtf8
  | tooManyDigits {s : String} (h : Text.Utf8.read? bytes = some s)
      (hs : Json.read (Text.withLineFeeds s) = .error .tooManyDigits) :
      Undecodable bytes .tooManyDigits

theorem readValue_eq_error_iff :
    readValue files p = .error fault ↔
      ∃ bytes, files.readBytes p = .ok bytes ∧ Undecodable bytes fault := by
  unfold readValue
  constructor
  · intro h
    split at h
    · cases h
    · rename_i bytes hbytes
      refine ⟨bytes, hbytes, ?_⟩
      split at h
      · rename_i hutf8
        cases h
        exact .notUtf8 hutf8
      · rename_i s hs
        split at h
        · cases h
        · cases h
        · rename_i hjson
          cases h
          exact .tooManyDigits hs hjson
  · rintro ⟨bytes, hbytes, h⟩
    rw [hbytes]
    cases h with
    | notUtf8 h => simp only [h]
    | tooManyDigits h hs => simp only [h, hs]

/-! ### Recipes -/

/-- What stands in the way of reading a recipe at a path, with the fault it is passed on as. -/
inductive Obstacle (files : Files) (p : Path) : Fault → Prop
  | tooLong (hnul : p.hasNul = false) (h : files.locate p = .error .nameTooLong) :
      Obstacle files p (Files.refusal .nameTooLong p)
  | undecodable {bytes : List UInt8} {fault : Fault} (hnul : p.hasNul = false)
      (h : files.readBytes p = .ok bytes) (hbytes : Undecodable bytes fault) :
      Obstacle files p fault

theorem Obstacle.ne_recipeNotFound (h : Obstacle files p fault) (name reason : String) :
    fault ≠ .recipeNotFound name reason := by
  rintro rfl
  cases h with
  | undecodable hnul h hbytes => cases hbytes

/-- What a file that could be looked into gives for a recipe: only a record is one. -/
def recordOf (id : String) : Except Damage Value → Except Fault Value
  | .error damage => .error (.recipeNotFound id ("archivo ilegible (" ++ damage.message ++ ")"))
  | .ok (.record fields) => .ok (.record fields)
  | .ok _ => .error (.recipeNotFound id "el archivo no contiene un objeto JSON")

theorem recordOf_cases (id : String) (found : Except Damage Value) :
    (∃ fields, recordOf id found = .ok (.record fields)) ∨
      ∃ reason, recordOf id found = .error (.recipeNotFound id reason) := by
  unfold recordOf
  split
  · exact Or.inr ⟨_, rfl⟩
  · exact Or.inl ⟨_, rfl⟩
  · exact Or.inr ⟨_, rfl⟩

/-- The reason of a damaged file has the damage in it, but its first letter tells it from others. -/
theorem damaged_ne (damage : Damage) {reason : String} (h : reason.toList.head? ≠ some 'a') :
    "archivo ilegible (" ++ damage.message ++ ")" ≠ reason := by
  rintro rfl
  exact h (by simp)

theorem outcome_getById (c : Catalog) (files : Files) (id : String) :
    (c.getById files id).outcome = (do
      if ← files.hasFile (c.recipePath id) then
        recordOf id (← readValue files (c.recipePath id))
      else .error (.recipeNotFound id "no existe")) := by
  unfold getById
  simp only [Report.outcome_bind, Report.outcome_lift]
  refine congrArg _ (funext fun there => ?_)
  cases there with
  | false => rfl
  | true =>
      rw [Bool.not_true, if_neg Bool.false_ne_true, if_pos rfl, Report.outcome_bind,
        Report.outcome_lift]
      generalize readValue files (c.recipePath id) = value
      cases value with
      | error fault => rfl
      | ok found =>
          cases found with
          | error damage => rfl
          | ok v => cases v <;> rfl

/-- What is in the way is passed on. -/
theorem getById_of_obstacle (h : Obstacle files (c.recipePath id) fault) :
    (c.getById files id).outcome = .error fault := by
  rw [outcome_getById]
  cases h with
  | tooLong hnul h =>
      rw [Files.hasFile_eq_error_iff.mpr ⟨hnul, h, rfl⟩]
      rfl
  | undecodable hnul h hbytes =>
      rw [Files.hasFile_of_readBytes hnul h, readValue_eq_error_iff.mpr ⟨_, h, hbytes⟩]
      rfl

/-- Reading a recipe ends in one of three ways: something is in the way, or there is no file, or
there is one and its value counts. -/
theorem getById_cases (c : Catalog) (files : Files) (id : String) :
    (∃ fault, Obstacle files (c.recipePath id) fault ∧
        (c.getById files id).outcome = .error fault) ∨
      (c.getById files id).outcome = .error (.recipeNotFound id "no existe") ∨
      ∃ found, (c.recipePath id).hasNul = false ∧ readValue files (c.recipePath id) = .ok found ∧
        (c.getById files id).outcome = recordOf id found := by
  rw [outcome_getById]
  cases hhas : files.hasFile (c.recipePath id) with
  | error fault =>
      obtain ⟨hnul, hlocate, rfl⟩ := Files.hasFile_eq_error_iff.mp hhas
      exact .inl ⟨_, .tooLong hnul hlocate, rfl⟩
  | ok there =>
      cases there with
      | false => exact .inr (.inl rfl)
      | true =>
          cases hvalue : readValue files (c.recipePath id) with
          | error fault =>
              obtain ⟨bytes, hbytes, hfault⟩ := readValue_eq_error_iff.mp hvalue
              exact .inl ⟨fault, .undecodable (Files.hasNul_of_hasFile hhas) hbytes hfault, rfl⟩
          | ok found => exact .inr (.inr ⟨found, Files.hasNul_of_hasFile hhas, rfl, rfl⟩)

/-- With nothing in the way the recipe is read, or there is no such recipe. -/
theorem getById_of_not_obstacle (h : ∀ fault, ¬ Obstacle files (c.recipePath id) fault) :
    (∃ fields, (c.getById files id).outcome = .ok (.record fields)) ∨
      ∃ reason, (c.getById files id).outcome = .error (.recipeNotFound id reason) := by
  rcases getById_cases c files id with ⟨fault, hobstacle, -⟩ | hmissing | ⟨found, -, -, hfound⟩
  · exact absurd hobstacle (h fault)
  · exact Or.inr ⟨_, hmissing⟩
  · rw [hfound]
    exact recordOf_cases id found

theorem isIdValue_text (id : String) : isIdValue (.text id) = .ok (isId id) := by
  unfold isIdValue
  cases hid : Value.isGiven (.text id) with
  | true => rw [Value.orElse_of_isGiven hid]
  | false =>
      have hempty : id = "" := by simpa [Value.isGiven] using hid
      rw [Value.orElse_of_not_isGiven hid, hempty]

/-- The report on a text that is no id. -/
def refused (id : String) : Report Value :=
  ⟨[.invalidId (Text.quoted id)], .error (.recipeNotFound id "id inválido")⟩

theorem get_text (c : Catalog) (files : Files) (id : String) :
    c.get files (.text id) = if isId id then c.getById files id else refused id := by
  unfold get
  rw [isIdValue_text]
  cases isId id <;> rfl

theorem outcome_get (c : Catalog) (files : Files) (id : String) :
    (c.get files (.text id)).outcome =
      if isId id then (c.getById files id).outcome
      else .error (.recipeNotFound id "id inválido") := by
  rw [get_text, apply_ite Report.outcome]
  rfl

/-! ### Pages and answers -/

/-- Whether something stands in the way of reading the recipe with an id. -/
def Obstructed (c : Catalog) (files : Files) (id : String) : Prop :=
  isId id = true ∧ ∃ fault, Obstacle files (c.recipePath id) fault

theorem not_obstructed_iff_get (c : Catalog) (files : Files) (id : String) :
    ¬ c.Obstructed files id ↔
      (∃ fields, (c.get files (.text id)).outcome = .ok (.record fields)) ∨
        ∃ reason, (c.get files (.text id)).outcome = .error (.recipeNotFound id reason) := by
  rw [outcome_get]
  cases hid : isId id with
  | false => simp [Obstructed, hid]
  | true =>
      rw [if_pos rfl]
      constructor
      · intro hfree
        exact getById_of_not_obstacle fun fault h => hfree ⟨hid, fault, h⟩
      · rintro hread ⟨-, fault, hobstacle⟩
        rw [getById_of_obstacle hobstacle] at hread
        rcases hread with ⟨fields, hread⟩ | ⟨reason, hread⟩
        · cases hread
        · exact hobstacle.ne_recipeNotFound id reason (Except.error.inj hread)

/-- **Reading a recipe.** Unless something stands in the way, the recipe is read as a record or
there is no such recipe; then every page is that of the empty recipe and the recipe as data is
answered with 404, whatever the settings, the portions and the mode are. -/
theorem not_obstructed_iff (c : Catalog) (files : Files) (id : String) :
    ¬ c.Obstructed files id ↔
      (∃ fields, (c.get files (.text id)).outcome = .ok (.record fields)) ∨
        (∃ reason, (c.get files (.text id)).outcome = .error (.recipeNotFound id reason)) ∧
          (∀ settings portions mode g,
            (Page.render (Source.ofCatalog c files) settings (.text id) portions mode g).1.outcome =
              .ok ⟨g.recipes.next, false, Markdown.emptyDocument⟩) ∧
          ∀ settings r, ∃ detail,
            (Web.recipe settings (Source.ofCatalog c files) id r).outcome =
              .ok (Web.Answer.missing detail) := by
  rw [not_obstructed_iff_get]
  refine or_congr Iff.rfl ⟨?_, And.left⟩
  rintro ⟨reason, h⟩
  refine ⟨⟨reason, h⟩, ?_, ?_⟩
  · intro settings portions mode g
    exact Page.outcome_render_of_recipeNotFound h
  · intro settings r
    exact ⟨_, Web.outcome_recipe_of_recipeNotFound h⟩

/-- A catalog with a recipe of one byte, which starts no character. -/
def strayFiles : Files where
  top := .directory [("data", .directory [("recipes", .directory [("soup.json", .file [0xFF])])])]

/-- The stray byte is passed on, so the recipe is neither read nor not found. -/
theorem not_read_stray :
    ¬ ((∃ fields,
          ((ofDataDir "data").get strayFiles (.text "soup")).outcome = .ok (.record fields)) ∨
        ∃ name reason, ((ofDataDir "data").get strayFiles (.text "soup")).outcome =
          .error (.recipeNotFound name reason)) := by
  have hfault : ((ofDataDir "data").get strayFiles (.text "soup")).outcome = .error .notUtf8 :=
    rfl
  rw [hfault]
  rintro (⟨fields, h⟩ | ⟨name, reason, h⟩) <;> cases h

end Cookbook.Catalog
