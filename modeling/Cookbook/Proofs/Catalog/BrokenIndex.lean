import Cookbook.Proofs.Catalog.Agreement
import Cookbook.Proofs.Files.Removal
import Cookbook.Proofs.Json.Digits
/-!
# Cookbook.Proofs.Catalog.BrokenIndex

A broken index against no index. An index is broken if it is a directory, no JSON, or JSON without a
list of recipes (`BrokenIndex`). All of these lead to the scan, with one warning; and the scan finds
the same files with the same values when the index is taken away, since it passes over the name of
the index (`Files.Lacks.scan`). So a broken index changes nothing but for the warning, as long as
the directory is found without it (`list_of_brokenIndex`). A directory whose own path leads through
the index is not.
-/

namespace Cookbook.Catalog

variable {c : Catalog} {files rest : Files} {p q : Path} {name : String}

/-! ### Broken indices -/

/-- The index is there but is a directory, or a text without a list of recipes; no run of digits in
the text is too long for a number. -/
inductive BrokenIndex (c : Catalog) (files : Files) : Prop
  | directory {entries : List (String × Node)}
      (h : files.find? c.indexPath = .ok (some (.directory entries)))
  | text {bytes : List UInt8} {s : String} (h : files.find? c.indexPath = .ok (some (.file bytes)))
      (hs : Text.Utf8.read? bytes = some s) (hruns : Json.ShortRuns s.toList)
      (hlist : ∀ fields items, Json.read (Text.withLineFeeds s) = .ok (.record fields) →
        fields.lookup "recipes" ≠ some (.list items))

/-- A warning is about the index. -/
inductive AboutIndex (c : Catalog) : Warning → Prop
  | unreadable (cause : String) : AboutIndex c (.unreadableIndex c.indexPath.write cause)
  | withoutList : AboutIndex c (.indexWithoutList c.indexPath.write)

theorem find?_eq_some_iff {node : Node} :
    files.find? p = .ok (some node) ↔
      p.hasNul = false ∧ ∃ here, files.locate p = .ok (here, node) := by
  unfold Files.find?
  cases p.hasNul with
  | true => simp
  | false =>
      rw [if_neg Bool.false_ne_true]
      split
      · rename_i here n hlocate
        simp [hlocate]
      · rename_i hlocate
        simp [hlocate]
      · rename_i cause _ hlocate
        simp [hlocate]

theorem readValue_of_directory {here : List String} {entries : List (String × Node)}
    (h : files.locate p = .ok (here, .directory entries)) :
    readValue files p = .ok (.error (.refused .isADirectory p)) := by
  unfold readValue Files.readBytes
  rw [h]

theorem lenientField_ne_list {v : Value} {key : String}
    (h : ∀ fields items, v = .record fields → fields.lookup key ≠ some (.list items)) :
    ∀ items, lenientField v key ≠ .list items := by
  intro items hfield
  unfold lenientField at hfield
  split at hfield
  · rename_i fields
    cases hlookup : fields.lookup key with
    | none =>
        rw [hlookup] at hfield
        cases hfield
    | some w =>
        rw [hlookup] at hfield
        exact h fields items rfl (hlookup.trans (congrArg some hfield))
  · cases hfield

/-- The branches that a broken index can take all lead to the scan, with one warning. -/
theorem BrokenIndex.fallsBack (h : c.BrokenIndex files) :
    ∃ w, c.AboutIndex w ∧ c.FallsBack files [w] := by
  cases h with
  | directory h =>
      obtain ⟨hnul, here, hlocate⟩ := find?_eq_some_iff.mp h
      have hnode : files.hasNode c.indexPath = .ok true := by
        rw [Files.hasNode, h]
        rfl
      exact ⟨_, .unreadable _, .unreadable hnode (readValue_of_directory hlocate)⟩
  | @text bytes s h hs hruns hlist =>
      obtain ⟨hnul, here, hlocate⟩ := find?_eq_some_iff.mp h
      have hbytes : files.readBytes c.indexPath = .ok bytes := by
        rw [Files.readBytes, hlocate]
      have hnode := Files.hasNode_of_readBytes hnul hbytes
      cases hread : Json.read (Text.withLineFeeds s) with
      | ok v =>
          have hvalue : readValue files c.indexPath = .ok (.ok v) := by
            simp only [readValue, hbytes, hs, hread]
          exact ⟨_, .withoutList, .withoutList hnode hvalue
            (lenientField_ne_list fun fields items hv => hlist fields items (hv ▸ hread))⟩
      | error failure =>
          cases failure with
          | malformed complaint place =>
              have hvalue :
                  readValue files c.indexPath = .ok (.error (.malformed complaint place)) := by
                simp only [readValue, hbytes, hs, hread]
              exact ⟨_, .unreadable _, .unreadable hnode hvalue⟩
          | tooManyDigits => exact absurd hread (Json.read_withLineFeeds_ne_tooManyDigits hruns)

/-! ### The scan without the index -/

theorem readValue_congr (h : rest.locate p = files.locate p) :
    readValue rest p = readValue files p := by
  unfold readValue Files.readBytes
  rw [h]

theorem scanFiles_congr {names : List String}
    (h : ∀ name ∈ names, readValue rest (c.directory.child name) =
      readValue files (c.directory.child name)) :
    c.scanFiles rest names = c.scanFiles files names := by
  induction names with
  | nil => rfl
  | cons name names ih =>
      obtain ⟨hname, hnames⟩ := List.forall_mem_cons.mp h
      rw [scanFiles, scanFiles, scanFile, scanFile, hname, ih hnames]

/-- The scan passes over the name of the index. -/
theorem recipeNames_congr (h : files.Lacks rest c.directory indexName) :
    c.recipeNames rest = c.recipeNames files := by
  unfold recipeNames
  rw [h.namesIn, List.filter_filter]
  refine List.filter_congr fun name _ => ?_
  cases name != indexName <;> simp

theorem ne_indexName (h : name ∈ c.recipeNames files) : name ≠ indexName := by
  rw [recipeNames, List.mem_filter, Bool.and_eq_true, Bool.and_eq_true] at h
  exact bne_iff_ne.mp h.2.1.2

/-- The scan finds the same without the index. -/
theorem scan_congr (h : files.Lacks rest c.directory indexName)
    (hnul : c.directory.hasNul = false) : c.scan rest = c.scan files := by
  obtain ⟨hfiles, hrest⟩ := h.hasNode hnul
  have hvalues : ∀ name ∈ c.recipeNames files, readValue rest (c.directory.child name) =
      readValue files (c.directory.child name) := by
    intro name hname
    have hindex := ne_indexName hname
    obtain ⟨id, -, -, rfl, -⟩ := mem_recipeNames_iff.mp hname
    exact readValue_congr (h.locate_child hindex (ending_ne id))
  unfold scan
  rw [hfiles, hrest, recipeNames_congr h]
  exact congrArg _ (funext fun there => by rw [scanFiles_congr hvalues])

/-! ### A broken index and none -/

theorem BrokenIndex.located (h : c.BrokenIndex files) :
    c.directory.hasNul = false ∧ ∃ here node, files.locate c.indexPath = .ok (here, node) := by
  have hfound : ∃ node, files.find? c.indexPath = .ok (some node) := by
    cases h with
    | directory h => exact ⟨_, h⟩
    | text h => exact ⟨_, h⟩
  obtain ⟨node, hfound⟩ := hfound
  obtain ⟨hnul, here, hlocate⟩ := find?_eq_some_iff.mp hfound
  rw [indexPath, Path.hasNul_child, Bool.or_eq_false_iff] at hnul
  exact ⟨hnul.1, here, node, hlocate⟩

theorem hasNode_of_missing (h : files.locate p = .error .missing) :
    files.hasNode p = .ok false := by
  unfold Files.hasNode Files.find?
  rw [h]
  cases p.hasNul <;> rfl

/-- **A broken index is like none.** Let a broken index be taken away. If the directory is still
found, the listing has the same entries as before or stops at the same fault, and gives the same
warnings, but for the first one, which was about the index. Otherwise the listing is empty. The
directory is still found if its path has no two dots. -/
theorem list_of_brokenIndex (h : c.BrokenIndex files) :
    let rest := files.without c.indexPath
    rest.hasNode c.indexPath = .ok false ∧
      (rest.hasNode c.directory = .ok true →
        ∃ w, c.AboutIndex w ∧
          c.list files = ⟨w :: (c.list rest).warnings, (c.list rest).outcome⟩) ∧
      (rest.hasNode c.directory ≠ .ok true → c.list rest = ⟨[], .ok []⟩) ∧
      (".." ∉ c.directory.names → rest.hasNode c.directory = .ok true) := by
  intro rest
  obtain ⟨hnul, here, node, hlocate⟩ := h.located
  have hname : indexName ≠ ".." := by decide
  have hgone : rest.hasNode c.indexPath = .ok false :=
    hasNode_of_missing (Files.locate_without_self hname hlocate)
  have hrest : c.list rest = c.scan rest := list_of_fallsBack (.noIndex hgone)
  rcases Files.locate_without_child hname hlocate with hmissing | hlacks
  · have hnone : rest.hasNode c.directory = .ok false := hasNode_of_missing hmissing
    refine ⟨hgone, fun hfound => ?_, fun _ => ?_, fun hdots => ?_⟩
    · rw [hnone] at hfound
      cases hfound
    · rw [hrest, scan, hnone]
      rfl
    · exact absurd hmissing (Files.locate_without_child_of_plain hname hdots hlocate)
  · have hfound := (hlacks.hasNode hnul).2
    refine ⟨hgone, fun _ => ?_, absurd hfound, fun _ => hfound⟩
    obtain ⟨w, hw, hfalls⟩ := h.fallsBack
    have hscan : c.scan rest = c.scan files := scan_congr hlacks hnul
    refine ⟨w, hw, ?_⟩
    rw [list_of_fallsBack hfalls, hrest, hscan]
    rfl

theorem brokenIndex_untidy : (ofDataDir "data").BrokenIndex untidyFiles := by
  have hread : Json.read (Text.withLineFeeds "\x7b\x7d") = .ok (.record []) := rfl
  have hfile : untidyFiles.find? (ofDataDir "data").indexPath = .ok (some (.file [0x7B, 0x7D])) :=
    rfl
  have htext : Text.Utf8.read? [0x7B, 0x7D] = some "\x7b\x7d" := rfl
  refine .text hfile htext ?_ ?_
  · exact fun run hrun _ => hrun.length_le.trans (by decide)
  · intro fields items h hlookup
    rw [hread] at h
    cases h
    cases hlookup

/-- The index without a list gives a warning, and nothing else changes without it. -/
theorem list_of_brokenIndex_untidy :
    (ofDataDir "data").BrokenIndex untidyFiles ∧
      ∃ w, (ofDataDir "data").AboutIndex w ∧
        (ofDataDir "data").list untidyFiles =
          ⟨w :: ((ofDataDir "data").list
              (untidyFiles.without (ofDataDir "data").indexPath)).warnings,
            ((ofDataDir "data").list
              (untidyFiles.without (ofDataDir "data").indexPath)).outcome⟩ := by
  obtain ⟨-, hlist, -, hfound⟩ := list_of_brokenIndex brokenIndex_untidy
  exact ⟨brokenIndex_untidy, hlist (hfound (by decide))⟩

/-- A directory in the place of the index, beside a recipe. -/
def nestedFiles : Files where
  top := .directory [("data", .directory [("recipes", .directory
    [("index.json", .directory []), ("tea.json", .file [0x7B, 0x7D])])])]

/-- The same recipes, by a path that leads through the index. -/
def nestedCatalog : Catalog := ofDataDir "data/recipes/index.json/../.."

theorem nestedCatalog_eq :
    nestedCatalog = ⟨⟨"", ["data", "recipes", "index.json", "..", "..", "recipes"]⟩⟩ :=
  congrArg Catalog.mk (by decide +kernel)

theorem hasNul_nested : nestedCatalog.directory.hasNul = false := by
  rw [nestedCatalog_eq]
  decide

theorem locate_nested : nestedFiles.locate nestedCatalog.directory =
    .ok (["recipes", "data"],
      .directory [("index.json", .directory []), ("tea.json", .file [0x7B, 0x7D])]) := by
  rw [nestedCatalog_eq, Files.locate_eq, if_neg (by decide +kernel)]
  rfl

theorem locate_nested_index : nestedFiles.locate nestedCatalog.indexPath =
    .ok (["index.json", "recipes", "data"], .directory []) := by
  rw [indexPath, Files.locate_child_in_directory (by decide) locate_nested,
    if_neg (by decide +kernel), if_neg (by decide +kernel)]
  rfl

theorem brokenIndex_nested : nestedCatalog.BrokenIndex nestedFiles := by
  have hnul : nestedCatalog.indexPath.hasNul = false := by
    rw [indexPath, Path.hasNul_child, hasNul_nested]
    decide
  exact .directory (find?_eq_some_iff.mpr ⟨hnul, _, locate_nested_index⟩)

theorem scan_nested : (nestedCatalog.scan nestedFiles).outcome = .ok [⟨"tea", "tea"⟩] := by
  have hdirectory : nestedFiles.hasNode nestedCatalog.directory = .ok true := by
    rw [Files.hasNode, find?_eq_some_iff.mpr ⟨hasNul_nested, _, locate_nested⟩]
    rfl
  have hrecipes : nestedCatalog.recipeNames nestedFiles = ["tea.json"] := by
    have hnames : nestedFiles.namesIn nestedCatalog.directory = ["index.json", "tea.json"] := by
      rw [Files.namesIn, locate_nested]
      exact Node.names_of_pairwise (by decide)
    unfold recipeNames
    rw [hnames]
    decide +kernel
  have htea : readValue nestedFiles (nestedCatalog.directory.child "tea.json") =
      .ok (.ok (.record [])) := by
    rw [readValue, Files.readBytes, Files.locate_child_in_directory (by decide) locate_nested,
      if_neg (by decide +kernel), if_neg (by decide +kernel)]
    rfl
  have hstem : Path.stem "tea.json" = "tea" := by decide +kernel
  unfold scan
  rw [hdirectory, hrecipes]
  simp only [scanFiles, scanFile, htea, hstem]
  rfl

/-- Without the index the directory is not found by the path through it, so the recipe is not listed
any more. -/
theorem list_differs_nested :
    nestedCatalog.BrokenIndex nestedFiles ∧
      (nestedCatalog.list nestedFiles).outcome = .ok [⟨"tea", "tea"⟩] ∧
      (nestedCatalog.list (nestedFiles.without nestedCatalog.indexPath)).outcome = .ok [] := by
  obtain ⟨w, -, hfalls⟩ := brokenIndex_nested.fallsBack
  refine ⟨brokenIndex_nested, ?_, ?_⟩
  · rw [list_of_fallsBack hfalls]
    exact scan_nested
  · have hindex : (nestedFiles.without nestedCatalog.indexPath).locate nestedCatalog.indexPath =
        .error .missing := Files.locate_without_self (by decide) locate_nested_index
    have hdirectory : (nestedFiles.without nestedCatalog.indexPath).locate nestedCatalog.directory =
        .error .missing := by
      rw [Files.without, locate_nested_index, nestedCatalog_eq, Files.locate_eq,
        if_neg (by decide +kernel)]
      rfl
    rw [list_of_fallsBack (.noIndex (hasNode_of_missing hindex)), scan,
      hasNode_of_missing hdirectory]
    rfl

end Cookbook.Catalog
