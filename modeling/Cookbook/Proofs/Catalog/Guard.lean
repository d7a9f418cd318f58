import Cookbook.Proofs.Catalog.Listing
/-!
# Cookbook.Proofs.Catalog.Guard

Which ids get through. A text that is no id is refused before any file is looked at, and no listing
has an entry for it, be it from the index or from a scan (`get_refused_iff`). What gets through is
the form of ids and, beyond it, such a text with one line end: the end of a line counts as the end
of the text (`isId_iff`).
-/

namespace Cookbook.Catalog

variable {c : Catalog} {files : Files} {id : String}

/-! ### The form of ids -/

/-- A small letter or a digit, and then small letters, digits and hyphens. -/
inductive IdForm : List Char → Prop
  | intro {c : Char} {cs : List Char} (hc : isIdStart c = true)
      (hcs : ∀ d ∈ cs, isIdChar d = true) : IdForm (c :: cs)

/-- What the guard lets through. -/
def LetThrough (id : String) : Prop :=
  IdForm id.toList ∨ ∃ cs, IdForm cs ∧ id.toList = cs ++ ['\n']

theorem IdForm.isIdChar {cs : List Char} (h : IdForm cs) : ∀ d ∈ cs, isIdChar d = true := by
  obtain ⟨hc, hcs⟩ := h
  refine List.forall_mem_cons.mpr ⟨?_, hcs⟩
  unfold Catalog.isIdChar
  rw [hc, Bool.true_or]

theorem IdForm.lineEnd_not_mem {cs : List Char} (h : IdForm cs) : '\n' ∉ cs := by
  intro hmem
  have hchar := h.isIdChar '\n' hmem
  revert hchar
  decide

theorem dropLineEnd_concat (cs : List Char) : dropLineEnd (cs ++ ['\n']) = cs := by
  simp [dropLineEnd]

theorem dropLineEnd_of_not_mem {cs : List Char} (h : '\n' ∉ cs) : dropLineEnd cs = cs := by
  unfold dropLineEnd
  split
  · rename_i hlast
    exact absurd (List.mem_of_getLast? (eq_of_beq hlast)) h
  · rfl

theorem eq_dropLineEnd_or (cs : List Char) :
    cs = dropLineEnd cs ∨ cs = dropLineEnd cs ++ ['\n'] := by
  unfold dropLineEnd
  split
  · rename_i hlast
    exact Or.inr (List.dropLast_append_getLast? '\n' (eq_of_beq hlast)).symm
  · exact Or.inl rfl

theorem isId_iff_dropLineEnd : isId id = true ↔ IdForm (dropLineEnd id.toList) := by
  unfold isId
  cases dropLineEnd id.toList with
  | nil => exact iff_of_false Bool.false_ne_true (fun h => nomatch h)
  | cons c cs =>
      rw [Bool.and_eq_true, List.all_eq_true]
      exact ⟨fun ⟨hc, hcs⟩ => .intro hc hcs, fun ⟨hc, hcs⟩ => ⟨hc, hcs⟩⟩

/-- The guard lets through the form of ids, and one line end after it. -/
theorem isId_iff : isId id = true ↔ LetThrough id := by
  rw [isId_iff_dropLineEnd]
  constructor
  · intro h
    rcases eq_dropLineEnd_or id.toList with hcs | hcs
    · exact Or.inl (hcs ▸ h)
    · exact Or.inr ⟨_, h, hcs⟩
  · rintro (h | ⟨cs, h, hcs⟩)
    · rwa [dropLineEnd_of_not_mem h.lineEnd_not_mem]
    · rwa [hcs, dropLineEnd_concat]

/-! ### Reading -/

/-- Where a recipe with a good id is not found, the reason is not its id. -/
theorem getById_ne_refused (c : Catalog) (files : Files) (id : String) :
    c.getById files id ≠ refused id := by
  intro h
  replace h := congrArg Report.outcome h
  have hreason {reason : String} (hne : reason ≠ "id inválido") :
      (.error (.recipeNotFound id reason) : Except Fault Value) ≠ (refused id).outcome :=
    fun heq => hne (Fault.recipeNotFound.inj (Except.error.inj heq)).2
  rcases getById_cases c files id with ⟨fault, hobstacle, hout⟩ | hout | ⟨found, -, -, hout⟩ <;>
    rw [hout] at h
  · exact hobstacle.ne_recipeNotFound _ _ (Except.error.inj h)
  · exact hreason (by decide) h
  · unfold recordOf at h
    split at h
    · exact hreason (damaged_ne _ (by decide)) h
    · cases h
    · exact hreason (by decide) h

theorem get_eq_refused_iff : c.get files (.text id) = refused id ↔ ¬ LetThrough id := by
  rw [get_text, ← isId_iff, Bool.not_eq_true]
  cases isId id with
  | false => exact iff_of_true rfl rfl
  | true => exact iff_of_false (getById_ne_refused c files id) (by decide)

/-! ### Listing -/

theorem isId_of_indexEntry {v : Value} {entry : IndexEntry}
    (h : (indexEntry v).outcome = .ok (some entry)) : isId entry.id = true := by
  unfold indexEntry at h
  split at h
  · split at h
    · rename_i hid
      simp only [Report.outcome_bind] at h
      obtain ⟨name, -, hentry⟩ := exceptBind_inv h
      cases hentry
      exact hid
    · simp only [Report.outcome_bind] at h
      obtain ⟨text, -, h⟩ := exceptBind_inv h
      cases h
  · simp only [Report.outcome_bind] at h
    obtain ⟨text, -, h⟩ := exceptBind_inv h
    cases h

theorem isId_of_indexEntries {vs : List Value} {entries : List IndexEntry}
    (h : (indexEntries vs).outcome = .ok entries) : ∀ entry ∈ entries, isId entry.id = true := by
  induction vs generalizing entries with
  | nil => cases h; simp
  | cons v vs ih =>
      unfold indexEntries at h
      simp only [Report.outcome_bind] at h
      obtain ⟨listed, hentry, h⟩ := exceptBind_inv h
      obtain ⟨rest, hrest, h⟩ := exceptBind_inv h
      cases h
      intro entry hmem
      rcases List.mem_append.mp hmem with hmem | hmem
      · obtain rfl := Option.mem_toList.mp hmem
        exact isId_of_indexEntry hentry
      · exact ih hrest entry hmem

theorem isId_of_scannedNames {name : String} (h : name ∈ c.scannedNames files) :
    isId (Path.stem name) = true := by
  unfold scannedNames at h
  split at h
  · have hname := (List.mem_filter.mp h).2
    rw [Bool.and_eq_true] at hname
    exact hname.2
  · cases h

theorem isId_of_lists {names : List String} {entries : List IndexEntry}
    (h : List.Forall₂ (c.Lists files) names entries)
    (hnames : ∀ name ∈ names, isId (Path.stem name) = true) :
    ∀ entry ∈ entries, isId entry.id = true := by
  intro entry hentry
  obtain ⟨name, hname, hlists⟩ := exists_of_forall₂ h.flip entry hentry
  exact hlists.id ▸ hnames name hname

/-- Every entry of a listing has an id, whether it comes from the index or from the scan. -/
theorem isId_of_list {entries : List IndexEntry} (h : (c.list files).outcome = .ok entries) :
    ∀ entry ∈ entries, isId entry.id = true := by
  rcases index_cases c files with ⟨fault, hobstacle⟩ | ⟨ws, hfalls⟩ | ⟨listed, hindexed⟩
  · rw [list_of_obstacle hobstacle] at h
    cases h
  · refine isId_of_lists (lists_of_list hfalls h) fun name hname => ?_
    exact isId_of_scannedNames (List.mem_filter.mp hname).1
  · rw [list_of_indexed hindexed] at h
    exact isId_of_indexEntries h

/-- **Only ids get through.** What is not let through is refused, with the same report whatever the
files are, and has no entry in a listing. -/
theorem get_refused_iff (c : Catalog) (files : Files) :
    (∀ id, c.get files (.text id) = refused id ↔ ¬ LetThrough id) ∧
      ∀ entries, (c.list files).outcome = .ok entries →
        ∀ entry ∈ entries, LetThrough entry.id := by
  refine ⟨fun id => get_eq_refused_iff, fun entries h entry hmem => ?_⟩
  exact isId_iff.mp (isId_of_list h entry hmem)

/-- A catalog with an empty record in a file whose name has a line end before its ending. -/
def lineEndFiles : Files where
  top := .directory [("data", .directory [("recipes", .directory
    [("soup\n.json", .file [0x7B, 0x7D])])])]

theorem list_lineEnd :
    ((ofDataDir "data").list lineEndFiles).outcome = .ok [⟨"soup\n", "soup\n"⟩] := by
  have hfalls : (ofDataDir "data").FallsBack lineEndFiles [] := .noIndex rfl
  have hnames : (ofDataDir "data").scannedNames lineEndFiles = ["soup\n.json"] := by
    have hdirectory : lineEndFiles.hasNode (ofDataDir "data").directory = .ok true := rfl
    have hlisted : lineEndFiles.namesIn (ofDataDir "data").directory = ["soup\n.json"] :=
      Node.names_of_pairwise (by decide)
    unfold scannedNames recipeNames
    rw [hdirectory, hlisted]
    decide +kernel
  have hvalue : readValue lineEndFiles ((ofDataDir "data").directory.child "soup\n.json") =
      .ok (.ok (.record [])) := rfl
  have hscan : (ofDataDir "data").scanFile lineEndFiles "soup\n.json" =
      ⟨[], .ok (some ⟨"soup\n", "soup\n"⟩)⟩ := by
    have hstem : Path.stem "soup\n.json" = "soup\n" := by decide +kernel
    unfold scanFile
    dsimp only
    rw [hvalue, hstem]
    rfl
  rw [hfalls.list_eq, hnames, scanFiles, hscan]
  rfl

theorem get_refused_iff_lineEnd :
    (ofDataDir "data").get lineEndFiles (.text "../soup") = refused "../soup" ∧
      ((ofDataDir "data").list lineEndFiles).outcome = .ok [⟨"soup\n", "soup\n"⟩] ∧
      LetThrough "soup\n" := by
  obtain ⟨hget, hlist⟩ := get_refused_iff (ofDataDir "data") lineEndFiles
  have hform : ¬ LetThrough "../soup" := by
    rw [← isId_iff]
    decide +kernel
  exact ⟨(hget "../soup").mpr hform, list_lineEnd,
    hlist _ list_lineEnd _ (List.mem_singleton_self _)⟩

/-- A text with a line end is not of the form of ids, but there is a recipe for it, and it is
listed. -/
theorem not_refused_lineEnd :
    ¬ IdForm "soup\n".toList ∧
      ((ofDataDir "data").get lineEndFiles (.text "soup\n")).outcome = .ok (.record []) ∧
      ((ofDataDir "data").list lineEndFiles).outcome = .ok [⟨"soup\n", "soup\n"⟩] := by
  have hget : ((ofDataDir "data").get lineEndFiles (.text "soup\n")).outcome = .ok (.record []) :=
    rfl
  exact ⟨fun h => h.lineEnd_not_mem (by decide), hget, list_lineEnd⟩

end Cookbook.Catalog
