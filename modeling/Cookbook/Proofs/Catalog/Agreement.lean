import Cookbook.Proofs.Build.Recipe
import Cookbook.Proofs.Catalog.Confinement
/-!
# Cookbook.Proofs.Catalog.Agreement

The scan of the directory against the reading of single recipes. Both come down to what the file of
an id holds (`Holds`): a recipe is read if that is a record (`get_eq_ok_iff`), and the scan lists an
id if it is any value at all, unless the id is that of the index (`mem_list_iff`). So there are two
disagreements and no others: a file with a value that is no record is listed but not read, and the
index is read but not listed (`list_agrees_iff`). Where there is no index, nothing that is read is
left out, and every entry has the name that its recipe gets (`scan_complete`).
-/

namespace Cookbook.Catalog

variable {c : Catalog} {files : Files} {id name : String} {v : Value} {ws : List Warning}
  {entries : List IndexEntry} {entry : IndexEntry}

/-! ### What a file holds -/

/-- The file of an id that gets through holds a value. -/
structure Holds (c : Catalog) (files : Files) (id : String) (v : Value) : Prop where
  through : LetThrough id
  hasNul : c.directory.hasNul = false
  value : readValue files (c.recipePath id) = .ok (.ok v)

theorem Holds.unique {w : Value} (h : c.Holds files id v) (h' : c.Holds files id w) : v = w := by
  have hvalue := h.value.symm.trans h'.value
  cases hvalue
  rfl

/-- A file holds one value, so what is said of some value is said of that one. -/
theorem Holds.exists_and_iff {P : Value → Prop} (h : c.Holds files id v) :
    (∃ w, c.Holds files id w ∧ P w) ↔ P v :=
  ⟨fun ⟨_, hw, hP⟩ => h.unique hw ▸ hP, fun hP => ⟨v, h, hP⟩⟩

theorem exists_bytes_of_readValue {p : Path} (h : readValue files p = .ok (.ok v)) :
    ∃ bytes, files.readBytes p = .ok bytes := by
  unfold readValue at h
  split at h
  · cases h
  · rename_i bytes hbytes
    exact ⟨bytes, hbytes⟩

/-- What the file of an id holds is looked at, and nothing else is. -/
theorem Holds.outcome_get (h : c.Holds files id v) :
    (c.get files (.text id)).outcome = recordOf id (.ok v) := by
  obtain ⟨bytes, hbytes⟩ := exists_bytes_of_readValue h.value
  have hnul : (c.recipePath id).hasNul = false := by rw [hasNul_recipePath h.through, h.hasNul]
  rw [Catalog.outcome_get, if_pos (isId_iff.mpr h.through), outcome_getById,
    Files.hasFile_of_readBytes hnul hbytes, h.value]
  rfl

/-- The reason why there is no recipe in a file whose value is no record. -/
def noRecord : String := "el archivo no contiene un objeto JSON"

/-- Where the file of an id holds no value the recipe is not read, and the reason is another one. -/
theorem outcome_get_of_not_holds (h : ∀ v, ¬ c.Holds files id v) :
    (∀ w, (c.get files (.text id)).outcome ≠ .ok w) ∧
      (c.get files (.text id)).outcome ≠ .error (.recipeNotFound id noRecord) := by
  have hreason {reason : String} (hne : reason ≠ noRecord) :
      (∀ w, (.error (.recipeNotFound id reason) : Except Fault Value) ≠ .ok w) ∧
        (.error (.recipeNotFound id reason) : Except Fault Value) ≠
          .error (.recipeNotFound id noRecord) :=
    ⟨nofun, fun heq => hne (Fault.recipeNotFound.inj (Except.error.inj heq)).2⟩
  rw [Catalog.outcome_get]
  split
  · rename_i hid
    have hthrough := isId_iff.mp hid
    rcases getById_cases c files id with
      ⟨fault, hobstacle, hout⟩ | hout | ⟨found, hnul, hvalue, hout⟩ <;>
      rw [hout]
    · exact ⟨nofun, fun heq => hobstacle.ne_recipeNotFound _ _ (Except.error.inj heq)⟩
    · exact hreason (by decide)
    · cases found with
      | ok v =>
          exact absurd ⟨hthrough, (hasNul_recipePath hthrough c).symm.trans hnul, hvalue⟩ (h v)
      | error damage => exact hreason (damaged_ne damage (by decide))
  · exact hreason (by decide)

/-- A recipe is read if the file of its id holds a record. -/
theorem get_eq_ok_iff :
    (c.get files (.text id)).outcome = .ok v ↔ c.Holds files id v ∧ v.IsRecord := by
  by_cases h : ∃ w, c.Holds files id w
  · obtain ⟨w, hw⟩ := h
    have huniq : c.Holds files id v ↔ w = v := ⟨hw.unique, fun heq => heq ▸ hw⟩
    rw [hw.outcome_get, huniq, Value.IsRecord]
    cases w with
    | record fields =>
        constructor
        · intro heq
          cases heq
          exact ⟨rfl, fields, rfl⟩
        · rintro ⟨rfl, -⟩
          rfl
    | _ =>
        refine iff_of_false nofun ?_
        rintro ⟨rfl, fields, hfields⟩
        cases hfields
  · refine iff_of_false ?_ fun hv => h ⟨v, hv.1⟩
    exact (outcome_get_of_not_holds fun w hw => h ⟨w, hw⟩).1 v

/-- There is no recipe for want of a record exactly if the file holds something else. -/
theorem get_eq_noRecord_iff :
    (c.get files (.text id)).outcome = .error (.recipeNotFound id noRecord) ↔
      ∃ v, c.Holds files id v ∧ ¬ v.IsRecord := by
  by_cases h : ∃ w, c.Holds files id w
  · obtain ⟨w, hw⟩ := h
    rw [hw.outcome_get, hw.exists_and_iff, Value.IsRecord]
    cases w with
    | record fields => exact iff_of_false nofun fun hno => hno ⟨fields, rfl⟩
    | _ => exact iff_of_true rfl nofun
  · refine iff_of_false ?_ fun ⟨v, hv, _⟩ => h ⟨v, hv⟩
    exact (outcome_get_of_not_holds fun w hw => h ⟨w, hw⟩).2

/-! ### What the scan reads -/

theorem stem_ending (hid : LetThrough id) : Path.stem (id ++ ending) = id := by
  obtain ⟨d, ds, hds, -⟩ := hid.head
  have hne : id.toList ≠ [] := by simp [hds]
  have hname : id ++ ending = String.ofList (id.toList ++ '.' :: ['j', 's', 'o', 'n']) := by
    rw [← String.toList_inj, String.toList_append, String.toList_ofList]
    rfl
  rw [hname, Path.stem_append hne (by decide) (by decide), String.ofList_toList]

theorem endsWith_iff {s : String} : s.endsWith ending = true ↔ ending.toList <:+ s.toList := by
  rw [← String.endsWith_toSlice, String.Slice.endsWith_string_iff, String.copy_toSlice]

/-- A name that has an ending and an id before it is the id with the ending. -/
theorem eq_stem_append (hends : name.endsWith ending = true) (hid : LetThrough (Path.stem name)) :
    name = Path.stem name ++ ending := by
  obtain ⟨cs, hcs⟩ := endsWith_iff.mp hends
  have hname : name = String.ofList cs ++ ending := by
    rw [← String.toList_inj, String.toList_append, String.toList_ofList, hcs]
  by_cases hempty : cs = []
  · -- The ending alone is its own stem, which is no id.
    have hstem : ¬ isId (Path.stem ending) = true := by decide +kernel
    rw [hname, hempty] at hid
    exact absurd (isId_iff.mpr hid) hstem
  · have hstem : Path.stem (String.ofList (cs ++ '.' :: ['j', 's', 'o', 'n'])) = String.ofList cs :=
      Path.stem_append hempty (by decide) (by decide)
    have hdot : String.ofList (cs ++ '.' :: ['j', 's', 'o', 'n']) = name := by
      rw [hname, String.ofList_append]
      rfl
    rw [← hdot, hstem, hdot, hname]

/-- A file belongs to a recipe if its name is made of an id, but for the index. -/
theorem mem_recipeNames_iff :
    name ∈ c.recipeNames files ↔
      ∃ id, LetThrough id ∧ id ≠ "index" ∧ name = id ++ ending ∧
        ∃ n, files.held? c.directory name = some n := by
  rw [recipeNames, List.mem_filter, Files.mem_namesIn_iff, Bool.and_eq_true, Bool.and_eq_true,
    bne_iff_ne, isId_iff]
  have hindex : indexName = "index" ++ ending := by decide
  constructor
  · intro ⟨hheld, ⟨hends, hne⟩, hid⟩
    have hname := eq_stem_append hends hid
    refine ⟨Path.stem name, hid, fun heq => hne ?_, hname, hheld⟩
    rw [hindex, ← heq, ← hname]
  · intro ⟨id, hid, hne, hname, hheld⟩
    have hends : name.endsWith ending = true := by
      rw [endsWith_iff, hname, String.toList_append]
      exact List.suffix_append _ _
    refine ⟨hheld, ⟨hends, fun heq => hne ?_⟩, by rwa [hname, stem_ending hid]⟩
    rw [hname, hindex, ← String.toList_inj, String.toList_append, String.toList_append] at heq
    exact String.toList_inj.mp (List.append_cancel_right heq)

theorem isSound_iff :
    c.isSound files name = true ↔ ∃ v, readValue files (c.directory.child name) = .ok (.ok v) := by
  unfold isSound
  split
  · rename_i v hvalue
    exact iff_of_true rfl ⟨v, hvalue⟩
  · rename_i hnone
    exact iff_of_false Bool.false_ne_true fun ⟨v, hvalue⟩ => hnone v hvalue

/-- The files that a scan finds an entry for are those of ids, other than the index, that hold a
value. -/
theorem mem_soundNames_iff :
    name ∈ (c.scannedNames files).filter (c.isSound files) ↔
      ∃ id v, c.Holds files id v ∧ id ≠ "index" ∧ name = id ++ ending := by
  rw [List.mem_filter, isSound_iff]
  constructor
  · intro ⟨hscanned, v, hvalue⟩
    unfold scannedNames at hscanned
    split at hscanned
    · rename_i hnode
      obtain ⟨id, hid, hne, rfl, -⟩ := mem_recipeNames_iff.mp hscanned
      rw [← recipePath_eq_child hid] at hvalue
      exact ⟨id, v, ⟨hid, Files.hasNul_of_hasNode hnode, hvalue⟩, hne, rfl⟩
    · cases hscanned
  · intro ⟨id, v, hholds, hne, hname⟩
    have hvalue := hholds.value
    rw [recipePath_eq_child hholds.through, ← hname] at hvalue
    obtain ⟨bytes, hbytes⟩ := exists_bytes_of_readValue hvalue
    obtain ⟨n, hheld⟩ := Files.held?_of_readBytes (hname ▸ ending_ne id) hbytes
    refine ⟨?_, v, hvalue⟩
    unfold scannedNames
    rw [Files.hasNode_of_held? hholds.hasNul hheld]
    exact mem_recipeNames_iff.mpr ⟨id, hholds.through, hne, hname, n, hheld⟩

/-! ### What the scan lists -/

theorem Lists.unique {entry' : IndexEntry} (h : c.Lists files name entry)
    (h' : c.Lists files name entry') : entry = entry' := by
  obtain ⟨id, s⟩ := entry
  obtain ⟨id', s'⟩ := entry'
  obtain ⟨hid, v, hvalue, hs⟩ := h
  obtain ⟨hid', v', hvalue', hs'⟩ := h'
  obtain rfl : id = id' := hid.trans hid'.symm
  rw [hvalue] at hvalue'
  cases hvalue'
  rw [hs] at hs'
  cases hs'
  rfl

theorem mem_iff_of_lists {names : List String} (h : List.Forall₂ (c.Lists files) names entries) :
    entry ∈ entries ↔ ∃ name ∈ names, c.Lists files name entry := by
  induction h with
  | nil => simp
  | cons hlists _ ih =>
      have huniq : entry = _ ↔ c.Lists files _ entry :=
        ⟨fun heq => heq ▸ hlists, fun h => h.unique hlists⟩
      rw [List.mem_cons, List.exists_mem_cons_iff, ih, huniq]

/-- The scan has an entry for every id, other than that of the index, whose file holds a value; its
name is what the value gives. -/
theorem mem_list_iff (h : c.FallsBack files ws) (hlist : (c.list files).outcome = .ok entries) :
    entry ∈ entries ↔
      entry.id ≠ "index" ∧ ∃ v, c.Holds files entry.id v ∧
        nameOr entry.id (lenientField v "name") = .ok entry.name := by
  rw [mem_iff_of_lists (lists_of_list h hlist)]
  constructor
  · intro ⟨name, hname, hlists⟩
    obtain ⟨id, v, hholds, hne, rfl⟩ := mem_soundNames_iff.mp hname
    obtain ⟨hid, w, hvalue, hw⟩ := hlists
    rw [stem_ending hholds.through] at hid
    rw [← recipePath_eq_child hholds.through, hholds.value] at hvalue
    cases hvalue
    rw [hid]
    exact ⟨hne, v, hholds, hid ▸ hw⟩
  · intro ⟨hne, v, hholds, hw⟩
    refine ⟨entry.id ++ ending, mem_soundNames_iff.mpr ⟨_, v, hholds, hne, rfl⟩, ?_, v, ?_, hw⟩
    · exact (stem_ending hholds.through).symm
    · rw [← recipePath_eq_child hholds.through, hholds.value]

theorem listed_iff (h : c.FallsBack files ws) (hlist : (c.list files).outcome = .ok entries)
    (id : String) :
    (∃ entry ∈ entries, entry.id = id) ↔ id ≠ "index" ∧ ∃ v, c.Holds files id v := by
  constructor
  · intro ⟨entry, hentry, hid⟩
    obtain ⟨hne, v, hholds, -⟩ := (mem_list_iff h hlist).mp hentry
    exact ⟨hid ▸ hne, v, hid ▸ hholds⟩
  · intro ⟨hne, v, hholds⟩
    -- What was read from a file has a text, so the entry has a name.
    obtain ⟨s, hs⟩ := nameOr_of_writable id
      (lenientField_writable (readValue_writable hholds.value) "name")
    exact ⟨⟨id, s⟩, (mem_list_iff h hlist).mpr ⟨hne, v, hholds, hs⟩, rfl⟩

/-- **The scan and the reading of recipes agree** on an id, that is, it is listed exactly if its
recipe is read, unless it is that of the index and the index is read as a recipe, or it is another
one and there is no recipe because the file holds a value that is no record. -/
theorem list_agrees_iff (h : c.FallsBack files ws) (hlist : (c.list files).outcome = .ok entries)
    (id : String) :
    ((∃ entry ∈ entries, entry.id = id) ↔
        ∃ fields, (c.get files (.text id)).outcome = .ok (.record fields)) ↔
      ¬ (id = "index" ∧ ∃ fields, (c.get files (.text id)).outcome = .ok (.record fields)) ∧
        ¬ (id ≠ "index" ∧
          (c.get files (.text id)).outcome = .error (.recipeNotFound id noRecord)) := by
  have hread : (∃ fields, (c.get files (.text id)).outcome = .ok (.record fields)) ↔
      ∃ v, c.Holds files id v ∧ v.IsRecord := by
    constructor
    · intro ⟨fields, hget⟩
      exact ⟨_, get_eq_ok_iff.mp hget⟩
    · intro ⟨v, hholds, fields, hfields⟩
      exact ⟨fields, get_eq_ok_iff.mpr ⟨hfields ▸ hholds, fields, rfl⟩⟩
  rw [listed_iff h hlist, hread, get_eq_noRecord_iff]
  by_cases hholds : ∃ v, c.Holds files id v
  · obtain ⟨v, hv⟩ := hholds
    rw [hv.exists_and_iff, hv.exists_and_iff, and_iff_left ⟨v, hv⟩]
    by_cases hindex : id = "index" <;> by_cases hrecord : v.IsRecord <;> simp [hindex, hrecord]
  · have hnone : ∀ P : Value → Prop, ¬ ∃ v, c.Holds files id v ∧ P v :=
      fun P ⟨v, hv, _⟩ => hholds ⟨v, hv⟩
    simp [hholds, hnone]

/-- A catalog with an index without a list, an empty list in the file of one recipe, and one
recipe. -/
def untidyFiles : Files where
  top := .directory [("data", .directory [("recipes", .directory
    [("index.json", .file [0x7B, 0x7D]), ("soup.json", .file [0x5B, 0x5D]),
      ("tea.json", .file [0x7B, 0x7D])])])]

theorem fallsBack_untidy : (ofDataDir "data").FallsBack untidyFiles
    [.indexWithoutList (ofDataDir "data").indexPath.write] :=
  .withoutList (v := .record []) rfl rfl nofun

theorem scannedNames_untidy :
    (ofDataDir "data").scannedNames untidyFiles = ["soup.json", "tea.json"] := by
  have hdirectory : untidyFiles.hasNode (ofDataDir "data").directory = .ok true := rfl
  have hnames : untidyFiles.namesIn (ofDataDir "data").directory =
      ["index.json", "soup.json", "tea.json"] := Node.names_of_pairwise (by decide)
  unfold scannedNames recipeNames
  rw [hdirectory, hnames]
  decide +kernel

theorem list_untidy : ((ofDataDir "data").list untidyFiles).outcome =
    .ok [⟨"soup", "soup"⟩, ⟨"tea", "tea"⟩] := by
  have hsoup : readValue untidyFiles ((ofDataDir "data").directory.child "soup.json") =
      .ok (.ok (.list [])) := rfl
  have htea : readValue untidyFiles ((ofDataDir "data").directory.child "tea.json") =
      .ok (.ok (.record [])) := rfl
  have hstem : Path.stem "soup.json" = "soup" ∧ Path.stem "tea.json" = "tea" := by decide +kernel
  rw [fallsBack_untidy.list_eq, scannedNames_untidy]
  simp only [scanFiles, scanFile, hsoup, htea, hstem]
  rfl

/-- The recipe is listed and read. -/
theorem list_agrees_iff_untidy :
    (ofDataDir "data").FallsBack untidyFiles
        [.indexWithoutList (ofDataDir "data").indexPath.write] ∧
      ((ofDataDir "data").list untidyFiles).outcome = .ok [⟨"soup", "soup"⟩, ⟨"tea", "tea"⟩] ∧
      ((∃ entry ∈ [⟨"soup", "soup"⟩, ⟨"tea", "tea"⟩], IndexEntry.id entry = "tea") ↔
        ∃ fields,
          ((ofDataDir "data").get untidyFiles (.text "tea")).outcome = .ok (.record fields)) := by
  have htea : ((ofDataDir "data").get untidyFiles (.text "tea")).outcome = .ok (.record []) := rfl
  refine ⟨fallsBack_untidy, list_untidy, ?_⟩
  refine (list_agrees_iff fallsBack_untidy list_untidy "tea").mpr ⟨by simp, ?_⟩
  rw [htea]
  rintro ⟨-, hmissing⟩
  cases hmissing

/-- The empty list is listed, but there is no recipe in it; the index is read as a recipe, but not
listed. -/
theorem not_list_agrees_untidy :
    ∃ entries, ((ofDataDir "data").list untidyFiles).outcome = .ok entries ∧
      ((∃ entry ∈ entries, entry.id = "soup") ∧
        ((ofDataDir "data").get untidyFiles (.text "soup")).outcome =
          .error (.recipeNotFound "soup" noRecord)) ∧
      (¬ ∃ entry ∈ entries, entry.id = "index") ∧
        ((ofDataDir "data").get untidyFiles (.text "index")).outcome = .ok (.record []) := by
  refine ⟨_, list_untidy, ⟨by simp, rfl⟩, by simp, rfl⟩

/-! ### A catalog without an index -/

theorem lenientField_eq_atKey (v : Value) (key : String) : lenientField v key = v.atKey key := by
  cases v <;> rfl

/-- The files that a scan finds an entry for are named for the ids of the entries. -/
theorem map_id_append_ending
    (h : List.Forall₂ (c.Lists files) ((c.scannedNames files).filter (c.isSound files)) entries) :
    (entries.map (·.id)).map (· ++ ending) = (c.scannedNames files).filter (c.isSound files) := by
  have hlists : List.Forall₂ (fun name (entry : IndexEntry) => name = entry.id ++ ending)
      ((c.scannedNames files).filter (c.isSound files)) entries := by
    refine ((List.forall₂_and_left _ _).mpr ⟨fun name => mem_soundNames_iff.mp, h⟩).imp ?_
    intro name entry ⟨⟨id, v, hholds, _, hname⟩, hentry⟩
    rw [hentry.id, hname, stem_ending hholds.through]
  symm
  rw [← List.forall₂_eq_eq_eq, List.map_map, List.forall₂_map_right_iff]
  exact hlists

/-- The entries of a scan are in the order of the names of their files. -/
theorem pairwise_ids
    (h : List.Forall₂ (c.Lists files) ((c.scannedNames files).filter (c.isSound files)) entries) :
    (entries.map (·.id)).Pairwise fun a b => a ++ ending < b ++ ending := by
  have hscanned : (c.scannedNames files).Pairwise (· < ·) := by
    unfold scannedNames recipeNames
    split
    · exact (files.pairwise_namesIn c.directory).filter _
    · exact .nil
  rw [← List.pairwise_map (R := (· < ·)), map_id_append_ending h]
  exact hscanned.filter _

/-- No two entries of a scan have the same id. -/
theorem nodup_ids (h : c.FallsBack files ws) (hlist : (c.list files).outcome = .ok entries) :
    (entries.map (·.id)).Nodup := by
  refine (pairwise_ids (lists_of_list h hlist)).imp ?_
  rintro id _ hlt rfl
  exact String.lt_irrefl _ hlt

/-- Without an index nothing is read as the recipe of its id. -/
theorem ne_index_of_holds (hindex : files.hasNode c.indexPath = .ok false)
    (h : c.Holds files id v) : id ≠ "index" := by
  rintro rfl
  have hpath : c.recipePath "index" = c.indexPath := recipePath_eq_child h.through c
  have hnul : c.indexPath.hasNul = false := by rw [← hpath, hasNul_recipePath h.through, h.hasNul]
  obtain ⟨bytes, hbytes⟩ := exists_bytes_of_readValue h.value
  rw [hpath] at hbytes
  rw [Files.hasNode_of_readBytes hnul hbytes] at hindex
  cases hindex

/-- **The scan is complete, and names recipes as they name themselves.** Without an index every
recipe that is read is listed once. If its record gives a name, it is listed under the text of this
name, which is the name of the recipe that is made of it, and otherwise under its id. -/
theorem scan_complete (hindex : files.hasNode c.indexPath = .ok false)
    (hlist : (c.list files).outcome = .ok entries)
    (hget : (c.get files (.text id)).outcome = .ok v) :
    (entries.map (·.id)).count id = 1 ∧
      ∃ name, ⟨id, name⟩ ∈ entries ∧
        ((v.atKey "name").isGiven = true →
          (v.atKey "name").write = .ok name ∧
            ∀ portions g ws r g', Page.load (Source.ofCatalog c files) (.text id) portions g =
              (⟨ws, .ok r⟩, g') → (g'.recipes.get r).name = name) ∧
        ((v.atKey "name").isGiven = false → name = id) := by
  have hfalls : c.FallsBack files [] := .noIndex hindex
  obtain ⟨hholds, -⟩ := get_eq_ok_iff.mp hget
  obtain ⟨⟨_, name⟩, hentry, rfl⟩ := (listed_iff hfalls hlist id).mpr
    ⟨ne_index_of_holds hindex hholds, v, hholds⟩
  obtain ⟨-, w, hw, hname⟩ := (mem_list_iff hfalls hlist).mp hentry
  obtain rfl := hholds.unique hw
  rw [nameOr, lenientField_eq_atKey] at hname
  refine ⟨?_, name, hentry, fun hgiven => ?_, fun hgiven => ?_⟩
  · exact List.count_eq_one_of_mem (nodup_ids hfalls hlist) (List.mem_map_of_mem hentry)
  · rw [Value.orElse_of_isGiven hgiven] at hname
    refine ⟨hname, fun portions g ws r g' hload => ?_⟩
    obtain ⟨v', ws', hsource, hrecipe⟩ := Page.load_inv hload
    obtain rfl := Except.ok.inj (hget.symm.trans hsource)
    have htext := Build.name_of_recipe hrecipe
    rw [Build.textField_of_isGiven hgiven, hname] at htext
    exact (Except.ok.inj htext).symm
  · rw [Value.orElse_of_not_isGiven hgiven] at hname
    exact (Except.ok.inj hname).symm

/-- A catalog without an index, with a recipe whose name is no text and one without a name. -/
def oddlyNamedFiles : Files where
  top := .directory [("data", .directory [("recipes", .directory
    [("soup.json", .file
        [0x7B, 0x22, 0x6E, 0x61, 0x6D, 0x65, 0x22, 0x3A, 0x74, 0x72, 0x75, 0x65, 0x7D]),
      ("tea.json", .file [0x7B, 0x7D])])])]

theorem read_oddName :
    Json.read "\x7b\"name\":true\x7d" = .ok (.record [("name", .bool true)]) := by
  have hname : Json.readString "name\":true\x7d".toList = .ok ("name", ":true\x7d".toList) := by
    decide +kernel
  have hfields : Json.readFields 27 [] ('"' :: "name\":true\x7d".toList) =
      .ok (.record [("name", .bool true)], []) := by
    rw [Json.readFields, hname]
    rfl
  show (Json.readFields 27 [] ('"' :: "name\":true\x7d".toList) >>= _).mapError _ = _
  rw [hfields]
  rfl

theorem readValue_oddlyNamed :
    readValue oddlyNamedFiles ((ofDataDir "data").directory.child "soup.json") =
      .ok (.ok (.record [("name", .bool true)])) := by
  have hbytes : oddlyNamedFiles.readBytes ((ofDataDir "data").directory.child "soup.json") =
      .ok [0x7B, 0x22, 0x6E, 0x61, 0x6D, 0x65, 0x22, 0x3A, 0x74, 0x72, 0x75, 0x65, 0x7D] := rfl
  have htext : Text.Utf8.read?
      [0x7B, 0x22, 0x6E, 0x61, 0x6D, 0x65, 0x22, 0x3A, 0x74, 0x72, 0x75, 0x65, 0x7D] =
        some "\x7b\"name\":true\x7d" := by decide +kernel
  have hlines : Text.withLineFeeds "\x7b\"name\":true\x7d" = "\x7b\"name\":true\x7d" := by
    decide +kernel
  simp only [readValue, hbytes, htext, hlines, read_oddName]

theorem list_oddlyNamed : ((ofDataDir "data").list oddlyNamedFiles).outcome =
    .ok [⟨"soup", "True"⟩, ⟨"tea", "tea"⟩] := by
  have hfalls : (ofDataDir "data").FallsBack oddlyNamedFiles [] := .noIndex rfl
  have hscanned : (ofDataDir "data").scannedNames oddlyNamedFiles = ["soup.json", "tea.json"] := by
    have hdirectory : oddlyNamedFiles.hasNode (ofDataDir "data").directory = .ok true := rfl
    have hnames : oddlyNamedFiles.namesIn (ofDataDir "data").directory =
        ["soup.json", "tea.json"] := Node.names_of_pairwise (by decide)
    unfold scannedNames recipeNames
    rw [hdirectory, hnames]
    decide +kernel
  have htea : readValue oddlyNamedFiles ((ofDataDir "data").directory.child "tea.json") =
      .ok (.ok (.record [])) := rfl
  have hstem : Path.stem "soup.json" = "soup" ∧ Path.stem "tea.json" = "tea" := by decide +kernel
  rw [hfalls.list_eq, hscanned]
  simp only [scanFiles, scanFile, readValue_oddlyNamed, htea, hstem]
  rfl

/-- The text of the odd name is the name of the recipe; the other recipe is listed under its id. -/
theorem scan_complete_oddlyNamed :
    let c := ofDataDir "data"
    let g := (Page.load (Source.ofCatalog c oddlyNamedFiles) (.text "soup") (.int 4) .empty).2
    oddlyNamedFiles.hasNode c.indexPath = .ok false ∧
      (c.list oddlyNamedFiles).outcome = .ok [⟨"soup", "True"⟩, ⟨"tea", "tea"⟩] ∧
      (c.get oddlyNamedFiles (.text "soup")).outcome = .ok (.record [("name", .bool true)]) ∧
      Page.load (Source.ofCatalog c oddlyNamedFiles) (.text "soup") (.int 4) .empty =
        (⟨[], .ok ⟨0⟩⟩, g) ∧
      ∃ name, ⟨"soup", name⟩ ∈ [⟨"soup", "True"⟩, IndexEntry.mk "tea" "tea"] ∧
        (g.recipes.get ⟨0⟩).name = name := by
  have hindex : oddlyNamedFiles.hasNode (ofDataDir "data").indexPath = .ok false := rfl
  have hpath : (ofDataDir "data").recipePath "soup" =
      (ofDataDir "data").directory.child "soup.json" := by decide
  have hholds : (ofDataDir "data").Holds oddlyNamedFiles "soup" (.record [("name", .bool true)]) :=
    ⟨isId_iff.mp (by decide), by decide, by rw [hpath, readValue_oddlyNamed]⟩
  have hget : ((ofDataDir "data").get oddlyNamedFiles (.text "soup")).outcome =
      .ok (.record [("name", .bool true)]) := hholds.outcome_get
  have hreport : (Page.load (Source.ofCatalog (ofDataDir "data") oddlyNamedFiles) (.text "soup")
      (.int 4) .empty).1 = ⟨[], .ok ⟨0⟩⟩ := Report.ext (by decide +kernel) (by decide +kernel)
  have hload : Page.load (Source.ofCatalog (ofDataDir "data") oddlyNamedFiles) (.text "soup")
      (.int 4) .empty = (⟨[], .ok ⟨0⟩⟩, (Page.load (Source.ofCatalog (ofDataDir "data")
        oddlyNamedFiles) (.text "soup") (.int 4) .empty).2) := by rw [← hreport]
  obtain ⟨-, name, hentry, hnamed, -⟩ := scan_complete hindex list_oddlyNamed hget
  exact ⟨hindex, list_oddlyNamed, hget, hload, name, hentry, (hnamed rfl).2 _ _ _ _ _ hload⟩

end Cookbook.Catalog
