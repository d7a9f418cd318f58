import Cookbook.Proofs.Catalog.Reading
import Cookbook.Proofs.Json.Reader
/-!
# Cookbook.Proofs.Catalog.Listing

What a listing gives, and when it gives nothing. If the index cannot be used the directory is
scanned: every file that is read has one entry, every damaged one has one warning, in the order of
the names (`scanFiles_of_legible`). But bytes that are no text and numbers of too many digits are
not taken as damage: one such file, or such an index, takes the whole listing down, as does a path
of the index that is too long (`list_returns_iff`).

Names and warnings put stored values into words; that never fails, since what was read from a file
can be put into words.
-/

namespace Cookbook.Catalog

variable {c : Catalog} {files : Files} {p : Path} {fault : Fault} {v : Value} {name : String}

/-! ### Stored values -/

theorem readValue_writable (h : readValue files p = .ok (.ok v)) : v.Writable := by
  unfold readValue at h
  split at h
  · cases h
  · split at h
    · cases h
    · split at h
      · rename_i hread
        cases h
        exact Json.read_writable hread
      · cases h
      · cases h

theorem lenientField_writable (h : v.Writable) (key : String) : (lenientField v key).Writable := by
  unfold lenientField
  split
  · rename_i fields
    cases hfield : fields.lookup key with
    | none => exact Value.writable_null
    | some w =>
        obtain ⟨before, after, rfl, -⟩ := List.lookup_eq_some_iff.mp hfield
        exact Value.writable_record_iff.mp h (key, w) (by simp)
  · exact Value.writable_null

theorem nameOr_of_writable (id : String) (h : v.Writable) : ∃ s, nameOr id v = .ok s := by
  unfold nameOr Value.orElse
  split
  · exact h.write
  · exact ⟨id, rfl⟩

/-! ### The scan -/

/-- What is at a path can be decoded, if it is a file. -/
def Legible (files : Files) (p : Path) : Prop :=
  ∀ bytes fault, files.readBytes p = .ok bytes → ¬ Undecodable bytes fault

theorem legible_iff : Legible files p ↔ ∀ fault, readValue files p ≠ .error fault := by
  constructor
  · intro h fault hvalue
    obtain ⟨bytes, hbytes, hfault⟩ := readValue_eq_error_iff.mp hvalue
    exact h bytes fault hbytes hfault
  · intro h bytes fault hbytes hfault
    exact h fault (readValue_eq_error_iff.mpr ⟨bytes, hbytes, hfault⟩)

/-- Whether a file in the directory can be read. -/
def isSound (c : Catalog) (files : Files) (name : String) : Bool :=
  match readValue files (c.directory.child name) with
  | .ok (.ok _) => true
  | _ => false

/-- The warning that a file in the directory gives, if it is damaged. -/
def warningFor? (c : Catalog) (files : Files) (name : String) : Option Warning :=
  match readValue files (c.directory.child name) with
  | .ok (.error damage) => some (.ignoredFile (c.directory.child name).write damage.message)
  | _ => none

/-- An entry names what a file in the directory holds. -/
structure Lists (c : Catalog) (files : Files) (name : String) (entry : IndexEntry) : Prop where
  id : entry.id = Path.stem name
  name : ∃ v, readValue files (c.directory.child name) = .ok (.ok v) ∧
    nameOr entry.id (lenientField v "name") = .ok entry.name

/-- The scan of one file. -/
theorem scanFile_of_legible (h : Legible files (c.directory.child name)) :
    (c.isSound files name = false ∧
        c.scanFile files name = ⟨(c.warningFor? files name).toList, .ok none⟩) ∨
      (c.isSound files name = true ∧ c.warningFor? files name = none ∧
        ∃ entry, c.Lists files name entry ∧ c.scanFile files name = ⟨[], .ok (some entry)⟩) := by
  unfold isSound warningFor? scanFile
  dsimp only
  cases hvalue : readValue files (c.directory.child name) with
  | error fault => exact absurd hvalue (legible_iff.mp h fault)
  | ok found =>
      cases found with
      | error damage => exact Or.inl ⟨rfl, rfl⟩
      | ok v =>
          obtain ⟨s, hs⟩ := nameOr_of_writable (Path.stem name)
            (lenientField_writable (readValue_writable hvalue) "name")
          refine Or.inr ⟨rfl, rfl, ⟨Path.stem name, s⟩, ⟨rfl, v, hvalue, hs⟩, ?_⟩
          show (do
            let name ← liftM (nameOr (Path.stem name) (lenientField v "name"))
            pure (some { id := Path.stem _, name }) : Report (Option IndexEntry)) = _
          rw [hs]
          rfl

theorem legible_of_scanFile {entry : Option IndexEntry}
    (h : (c.scanFile files name).outcome = .ok entry) : Legible files (c.directory.child name) := by
  unfold scanFile at h
  simp only [Report.outcome_bind, Report.outcome_lift] at h
  obtain ⟨found, hvalue, -⟩ := exceptBind_inv h
  refine legible_iff.mpr fun fault hfault => ?_
  rw [hvalue] at hfault
  cases hfault

/-- The scan of files that can be decoded: an entry for each one that is read and a warning for each
one that is damaged. -/
theorem scanFiles_of_legible {names : List String}
    (h : ∀ name ∈ names, Legible files (c.directory.child name)) :
    ∃ entries, c.scanFiles files names = ⟨names.filterMap (c.warningFor? files), .ok entries⟩ ∧
      List.Forall₂ (c.Lists files) (names.filter (c.isSound files)) entries := by
  induction names with
  | nil => exact ⟨[], rfl, .nil⟩
  | cons name names ih =>
      obtain ⟨hname, hnames⟩ := List.forall_mem_cons.mp h
      obtain ⟨entries, hrest, hlists⟩ := ih hnames
      unfold scanFiles
      rcases scanFile_of_legible hname with ⟨hsound, hscan⟩ | ⟨hsound, hnone, entry, hentry, hscan⟩
      · refine ⟨entries, ?_, by rwa [List.filter_cons_of_neg (by simp [hsound])]⟩
        rw [Report.bind_of_ok hscan, hrest, List.filterMap_cons]
        cases c.warningFor? files name <;> simp
      · refine ⟨entry :: entries, ?_, ?_⟩
        · rw [Report.bind_of_ok hscan, hrest, List.filterMap_cons_none hnone]
          simp [Except.map]
        · rw [List.filter_cons_of_pos hsound]
          exact .cons hentry hlists

theorem legible_of_scanFiles {names : List String} {entries : List IndexEntry}
    (h : (c.scanFiles files names).outcome = .ok entries) :
    ∀ name ∈ names, Legible files (c.directory.child name) := by
  induction names generalizing entries with
  | nil => simp
  | cons name names ih =>
      unfold scanFiles at h
      simp only [Report.outcome_bind] at h
      obtain ⟨entry, hentry, h⟩ := exceptBind_inv h
      obtain ⟨rest, hrest, -⟩ := exceptBind_inv h
      exact List.forall_mem_cons.mpr ⟨legible_of_scanFile hentry, ih hrest⟩

/-! ### The directory -/

/-- The files that a scan reads: none if there is no directory. -/
def scannedNames (c : Catalog) (files : Files) : List String :=
  match files.hasNode c.directory with
  | .ok true => c.recipeNames files
  | _ => []

theorem scan_eq (h : ∀ fault, files.hasNode c.directory ≠ .error fault) :
    c.scan files = c.scanFiles files (c.scannedNames files) := by
  unfold scan scannedNames
  cases hnode : files.hasNode c.directory with
  | error fault => exact absurd hnode (h fault)
  | ok there => cases there <;> rfl

/-- The scan has an entry for every sound file. -/
theorem lists_of_scan {entries : List IndexEntry} (h : (c.scan files).outcome = .ok entries) :
    List.Forall₂ (c.Lists files) ((c.scannedNames files).filter (c.isSound files)) entries := by
  have hdirectory : ∀ fault, files.hasNode c.directory ≠ .error fault := by
    intro fault hfault
    unfold scan at h
    rw [hfault] at h
    cases h
  rw [scan_eq hdirectory] at h
  obtain ⟨entries', hentries, hlists⟩ := scanFiles_of_legible (legible_of_scanFiles h)
  rw [hentries] at h
  cases h
  exact hlists

/-! ### The index -/

/-- The index cannot be used, and gives warnings. -/
inductive FallsBack (c : Catalog) (files : Files) : List Warning → Prop
  | noIndex (h : files.hasNode c.indexPath = .ok false) : FallsBack c files []
  | unreadable {damage : Damage} (h : files.hasNode c.indexPath = .ok true)
      (hvalue : readValue files c.indexPath = .ok (.error damage)) :
      FallsBack c files [.unreadableIndex c.indexPath.write damage.message]
  | withoutList {v : Value} (h : files.hasNode c.indexPath = .ok true)
      (hvalue : readValue files c.indexPath = .ok (.ok v))
      (hlist : ∀ entries, lenientField v "recipes" ≠ .list entries) :
      FallsBack c files [.indexWithoutList c.indexPath.write]

theorem list_of_fallsBack {ws : List Warning} (h : c.FallsBack files ws) :
    c.list files = ⟨ws ++ (c.scan files).warnings, (c.scan files).outcome⟩ := by
  unfold list
  dsimp only
  cases h with
  | noIndex h =>
      rw [h]
      rfl
  | unreadable h hvalue =>
      rw [h, hvalue]
      rfl
  | withoutList h hvalue hlist =>
      rw [h, hvalue, Report.lift_ok_then, Report.lift_ok_then]
      dsimp only
      generalize lenientField _ "recipes" = w at hlist ⊢
      cases w with
      | list entries => exact absurd rfl (hlist entries)
      | _ => rfl

/-- The index can be used: it is there and lists these entries. -/
structure Indexed (c : Catalog) (files : Files) (entries : List Value) : Prop where
  there : files.hasNode c.indexPath = .ok true
  value : ∃ v, readValue files c.indexPath = .ok (.ok v) ∧ lenientField v "recipes" = .list entries

theorem list_of_indexed {entries : List Value} (h : c.Indexed files entries) :
    c.list files = indexEntries entries := by
  obtain ⟨v, hvalue, hlist⟩ := h.value
  unfold list
  dsimp only
  rw [h.there, hvalue, Report.lift_ok_then, Report.lift_ok_then]
  dsimp only
  rw [hlist]
  rfl

theorem Indexed.writable {entries : List Value} (h : c.Indexed files entries) :
    ∀ v ∈ entries, v.Writable := by
  obtain ⟨v, hvalue, hlist⟩ := h.value
  have hwritable := lenientField_writable (readValue_writable hvalue) "recipes"
  rw [hlist] at hwritable
  exact Value.writable_list_iff.mp hwritable

/-- An entry of the index is listed or gives a warning. -/
theorem indexEntry_of_writable (h : v.Writable) : ∃ entry, (indexEntry v).outcome = .ok entry := by
  obtain ⟨s, hs⟩ := h
  unfold indexEntry
  split
  · split
    · rename_i id _ _
      obtain ⟨name, hname⟩ := nameOr_of_writable id (lenientField_writable ⟨s, hs⟩ "name")
      rw [hname]
      exact ⟨_, rfl⟩
    · rw [hs]
      exact ⟨_, rfl⟩
  · rw [hs]
    exact ⟨_, rfl⟩

theorem indexEntries_of_writable {vs : List Value} (h : ∀ v ∈ vs, v.Writable) :
    ∃ entries, (indexEntries vs).outcome = .ok entries := by
  induction vs with
  | nil => exact ⟨[], rfl⟩
  | cons v vs ih =>
      obtain ⟨hv, hvs⟩ := List.forall_mem_cons.mp h
      obtain ⟨entry, hentry⟩ := indexEntry_of_writable hv
      obtain ⟨entries, hentries⟩ := ih hvs
      refine ⟨entry.toList ++ entries, ?_⟩
      unfold indexEntries
      simp only [Report.outcome_bind, hentry, hentries]
      rfl

/-- Something stands in the way of the index, it cannot be used, or it lists entries. -/
theorem index_cases (c : Catalog) (files : Files) :
    (∃ fault, Obstacle files c.indexPath fault) ∨ (∃ ws, c.FallsBack files ws) ∨
      ∃ entries, c.Indexed files entries := by
  cases hnode : files.hasNode c.indexPath with
  | error fault =>
      obtain ⟨hnul, hlocate, -⟩ := Files.hasNode_eq_error_iff.mp hnode
      exact Or.inl ⟨_, .tooLong hnul hlocate⟩
  | ok there =>
      cases there with
      | false => exact Or.inr (Or.inl ⟨_, .noIndex hnode⟩)
      | true =>
          cases hvalue : readValue files c.indexPath with
          | error fault =>
              obtain ⟨bytes, hbytes, hfault⟩ := readValue_eq_error_iff.mp hvalue
              exact Or.inl ⟨fault, .undecodable (Files.hasNul_of_hasNode hnode) hbytes hfault⟩
          | ok found =>
              cases found with
              | error damage => exact Or.inr (Or.inl ⟨_, .unreadable hnode hvalue⟩)
              | ok v =>
                  by_cases hlist : ∃ entries, lenientField v "recipes" = .list entries
                  · obtain ⟨entries, hlist⟩ := hlist
                    exact Or.inr (Or.inr ⟨entries, hnode, v, hvalue, hlist⟩)
                  · exact Or.inr (Or.inl ⟨_, .withoutList hnode hvalue fun entries h =>
                      hlist ⟨entries, h⟩⟩)

/-- What stands in the way of the index is passed on. -/
theorem list_of_obstacle (h : Obstacle files c.indexPath fault) :
    (c.list files).outcome = .error fault := by
  unfold list
  cases h with
  | tooLong hnul h =>
      simp only [Report.outcome_bind, Report.outcome_lift,
        Files.hasNode_eq_error_iff.mpr ⟨hnul, h, rfl⟩]
      rfl
  | undecodable hnul h hbytes =>
      simp only [Report.outcome_bind, Report.outcome_lift, Files.hasNode_of_readBytes hnul h,
        readValue_eq_error_iff.mpr ⟨_, h, hbytes⟩]
      rfl

theorem FallsBack.directory {ws : List Warning} (h : c.FallsBack files ws) (fault : Fault) :
    files.hasNode c.directory ≠ .error fault := by
  intro hdirectory
  obtain ⟨hnul, hlocate, -⟩ := Files.hasNode_eq_error_iff.mp hdirectory
  have hindex : files.hasNode c.indexPath = .error (Files.refusal .nameTooLong c.indexPath) := by
    refine Files.hasNode_eq_error_iff.mpr ⟨?_, Files.locate_child_of_nameTooLong _ hlocate, rfl⟩
    rw [indexPath, Path.hasNul_child, hnul]
    decide
  cases h with
  | noIndex h => rw [hindex] at h; cases h
  | unreadable h hvalue => rw [hindex] at h; cases h
  | withoutList h hvalue hlist => rw [hindex] at h; cases h

theorem FallsBack.list_eq {ws : List Warning} (h : c.FallsBack files ws) :
    c.list files = ⟨ws ++ (c.scanFiles files (c.scannedNames files)).warnings,
      (c.scanFiles files (c.scannedNames files)).outcome⟩ := by
  rw [list_of_fallsBack h, scan_eq h.directory]

/-- A listing from the scan has an entry for every sound file. -/
theorem lists_of_list {ws : List Warning} {entries : List IndexEntry} (h : c.FallsBack files ws)
    (hlist : (c.list files).outcome = .ok entries) :
    List.Forall₂ (c.Lists files) ((c.scannedNames files).filter (c.isSound files)) entries := by
  rw [list_of_fallsBack h] at hlist
  exact lists_of_scan hlist

/-- **Listing.** A listing is given exactly if nothing stands in the way of the index and, where the
index cannot be used, every file that the scan reads can be decoded. Then the scan gives the
warnings of the index, a warning for every damaged file and an entry for every other one. -/
theorem list_returns_iff (c : Catalog) (files : Files) :
    ((∃ entries, (c.list files).outcome = .ok entries) ↔
        (∀ fault, ¬ Obstacle files c.indexPath fault) ∧
          ∀ ws, c.FallsBack files ws →
            ∀ name ∈ c.scannedNames files, Legible files (c.directory.child name)) ∧
      ∀ ws entries, c.FallsBack files ws → (c.list files).outcome = .ok entries →
        (c.list files).warnings =
            ws ++ (c.scannedNames files).filterMap (c.warningFor? files) ∧
          List.Forall₂ (c.Lists files)
            ((c.scannedNames files).filter (c.isSound files)) entries := by
  refine ⟨⟨?_, ?_⟩, ?_⟩
  · rintro ⟨entries, hlist⟩
    refine ⟨fun fault hobstacle => ?_, fun ws hfalls => ?_⟩
    · rw [list_of_obstacle hobstacle] at hlist
      cases hlist
    · rw [hfalls.list_eq] at hlist
      exact legible_of_scanFiles hlist
  · rintro ⟨hindex, hscan⟩
    rcases index_cases c files with ⟨fault, hobstacle⟩ | ⟨ws, hfalls⟩ | ⟨listed, hindexed⟩
    · exact absurd hobstacle (hindex fault)
    · obtain ⟨entries, hentries, -⟩ := scanFiles_of_legible (hscan ws hfalls)
      rw [hfalls.list_eq, hentries]
      exact ⟨entries, rfl⟩
    · rw [list_of_indexed hindexed]
      exact indexEntries_of_writable hindexed.writable
  · intro ws entries hfalls hlist
    rw [hfalls.list_eq] at hlist ⊢
    obtain ⟨entries', hentries, hlists⟩ := scanFiles_of_legible (legible_of_scanFiles hlist)
    rw [hentries] at hlist ⊢
    cases hlist
    exact ⟨rfl, hlists⟩

theorem recipeNames_stray : (ofDataDir "data").recipeNames strayFiles = ["soup.json"] := by
  have hnames : strayFiles.namesIn (ofDataDir "data").directory = ["soup.json"] :=
    Node.names_of_pairwise (by decide)
  unfold recipeNames
  rw [hnames]
  decide +kernel

/-- With a file of one byte that starts no character there is no listing. -/
theorem not_list_stray :
    ¬ ∃ entries, ((ofDataDir "data").list strayFiles).outcome = .ok entries := by
  have hfalls : (ofDataDir "data").FallsBack strayFiles [] := .noIndex rfl
  have hdirectory : strayFiles.hasNode (ofDataDir "data").directory = .ok true := rfl
  have hnames : (ofDataDir "data").scannedNames strayFiles = ["soup.json"] := by
    unfold scannedNames
    rw [hdirectory]
    exact recipeNames_stray
  have hscan : ((ofDataDir "data").scanFiles strayFiles ["soup.json"]).outcome =
      .error .notUtf8 := rfl
  rw [hfalls.list_eq, hnames, hscan]
  rintro ⟨entries, h⟩
  cases h

end Cookbook.Catalog
