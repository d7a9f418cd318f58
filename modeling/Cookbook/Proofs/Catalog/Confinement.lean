import Cookbook.Proofs.Catalog.Guard
/-!
# Cookbook.Proofs.Catalog.Confinement

What a recipe is read from. An id that gets through is one plain name, so its path is that of an
entry of the directory (`recipePath_eq_child`), and reading looks at nothing but this entry: two
file systems that agree on it give the same report, however they differ elsewhere.

There is one exception, the path that is too long to look at. A name is measured only when the way
has led to its directory, so whether it is too long can depend on what else is there
(`get_confined`).
-/

namespace Cookbook

/-! ### One entry of a directory -/

namespace Files

variable {files files' : Files} {p : Path} {name : String}

/-- Two entries are the same to a reader: nothing, files with the same bytes, or directories. -/
inductive SameEntry : Option Node → Option Node → Prop
  | nothing : SameEntry none none
  | file (bytes : List UInt8) : SameEntry (some (.file bytes)) (some (.file bytes))
  | directory (entries entries' : List (String × Node)) :
      SameEntry (some (.directory entries)) (some (.directory entries'))

/-- Two file systems agree on an entry of a directory. -/
def AgreeOn (files files' : Files) (p : Path) (name : String) : Prop :=
  SameEntry (files.held? p name) (files'.held? p name)

/-- A path is too long to look at. -/
def TooLong (files : Files) (p : Path) : Prop :=
  p.hasNul = false ∧ files.locate p = .error .nameTooLong

/-- A path leads to a directory. -/
def HasDirectory (files : Files) (p : Path) : Prop :=
  ∃ here entries, files.locate p = .ok (here, .directory entries)

theorem find?_of_tooLong (h : files.TooLong p) :
    files.find? p = .error (refusal .nameTooLong p) :=
  find?_eq_error_iff.mpr ⟨h.1, h.2, rfl⟩

theorem readBytes_of_find? {bytes : List UInt8} (h : files.find? p = .ok (some (.file bytes))) :
    files.readBytes p = .ok bytes := by
  unfold find? at h
  unfold readBytes
  split at h
  · cases h
  · split at h
    · rename_i here n hlocate
      cases h
      rw [hlocate]
    · cases h
    · cases h

/-- What is found at the path of an entry is what the directory holds. -/
theorem find?_child (hname : name ≠ "..") (hnul : (p.child name).hasNul = false)
    (hlong : ¬ files.TooLong (p.child name)) :
    files.find? (p.child name) = .ok (files.held? p name) := by
  unfold find?
  rw [hnul, if_neg Bool.false_ne_true]
  rcases locate_child_cases hname files p with h | ⟨here, n, hentry, h⟩ | ⟨hentry, cause, hcause, h⟩
  · exact absurd ⟨hnul, h⟩ hlong
  · rw [h, hentry]
  · rw [h, hentry]
    cases cause with
    | nameTooLong => exact absurd rfl hcause
    | _ => rfl

/-- Look-ups of an entry that is agreed on end alike. -/
theorem AgreeOn.find? (h : files.AgreeOn files' p name) (hname : name ≠ "..")
    (hlong : files.TooLong (p.child name) ↔ files'.TooLong (p.child name)) :
    (∃ fault, files.find? (p.child name) = .error fault ∧
        files'.find? (p.child name) = .error fault) ∨
      ∃ n n', files.find? (p.child name) = .ok n ∧ files'.find? (p.child name) = .ok n' ∧
        SameEntry n n' := by
  cases hnul : (p.child name).hasNul with
  | true => exact Or.inr ⟨_, _, find?_of_hasNul hnul, find?_of_hasNul hnul, .nothing⟩
  | false =>
      -- Only here do the file systems count apart from the entry: both paths are too long, or
      -- neither is.
      by_cases htoo : files.TooLong (p.child name)
      · exact Or.inl ⟨_, find?_of_tooLong htoo, find?_of_tooLong (hlong.mp htoo)⟩
      · exact Or.inr ⟨_, _, find?_child hname hnul htoo,
          find?_child hname hnul fun h => htoo (hlong.mpr h), h⟩

/-- Whether there is a file does not differ, and neither do its bytes. -/
theorem AgreeOn.reads (h : files.AgreeOn files' p name) (hname : name ≠ "..")
    (hlong : files.TooLong (p.child name) ↔ files'.TooLong (p.child name)) :
    files.hasFile (p.child name) = files'.hasFile (p.child name) ∧
      (files.hasFile (p.child name) = .ok true →
        files.readBytes (p.child name) = files'.readBytes (p.child name)) := by
  unfold hasFile
  rcases h.find? hname hlong with ⟨fault, hfind, hfind'⟩ | ⟨n, n', hfind, hfind', hsame⟩
  · rw [hfind, hfind']
    exact ⟨rfl, fun hfile => by cases hfile⟩
  · rw [hfind, hfind']
    cases hsame with
    | nothing => exact ⟨rfl, fun hfile => by cases hfile⟩
    | directory entries entries' => exact ⟨rfl, fun hfile => by cases hfile⟩
    | file bytes =>
        exact ⟨rfl, fun _ => (readBytes_of_find? hfind).trans (readBytes_of_find? hfind').symm⟩

end Files

namespace Catalog

variable {c : Catalog} {files files' : Files} {id : String}

/-! ### The path of an id -/

theorem LetThrough.mem {d : Char} (h : LetThrough id) (hd : d ∈ id.toList) :
    isIdChar d = true ∨ d = '\n' := by
  rcases h with h | ⟨cs, h, hcs⟩
  · exact Or.inl (h.isIdChar d hd)
  · rw [hcs] at hd
    rcases List.mem_append.mp hd with hd | hd
    · exact Or.inl (h.isIdChar d hd)
    · exact Or.inr (List.mem_singleton.mp hd)

theorem LetThrough.head (h : LetThrough id) :
    ∃ d ds, id.toList = d :: ds ∧ isIdStart d = true := by
  rcases h with h | ⟨cs, h, hcs⟩
  · generalize id.toList = cs at h ⊢
    cases h with
    | intro hd _ => exact ⟨_, _, rfl, hd⟩
  · cases h with
    | intro hd _ => exact ⟨_, _, hcs, hd⟩

/-- What is in no id and not in the ending is not in the name of a file. -/
theorem LetThrough.not_mem_append {d : Char} (h : LetThrough id)
    (hd : ¬ (isIdChar d = true ∨ d = '\n')) (hending : d ∉ ending.toList) :
    d ∉ (id ++ ending).toList := by
  rw [String.toList_append]
  intro hmem
  rcases List.mem_append.mp hmem with hmem | hmem
  · exact hd (h.mem hmem)
  · exact hending hmem

/-- A text that could lead elsewhere, or looks like an option, does not get through. -/
theorem not_letThrough_of_unsafe
    (h : '/' ∈ id.toList ∨ '.' ∈ id.toList ∨ id.toList.head? = some '-') : ¬ LetThrough id := by
  intro hid
  rcases h with h | h | h
  · exact absurd (hid.mem h) (by decide)
  · exact absurd (hid.mem h) (by decide)
  · -- A hyphen is in ids, but does not start one.
    obtain ⟨d, ds, hds, hd⟩ := hid.head
    rw [hds] at h
    obtain rfl := Option.some.inj h
    exact absurd hd (by decide)

/-- An id that gets through is one plain name, so its file is in the directory itself. -/
theorem recipePath_eq_child (h : LetThrough id) (c : Catalog) :
    c.recipePath id = c.directory.child (id ++ ending) := by
  obtain ⟨d, ds, hds, -⟩ := h.head
  have hname : Path.isName (id ++ ending).toList = true := by
    rw [String.toList_append, hds]
    simp [Path.isName, ending]
  exact Path.join_eq_child (h.not_mem_append (by decide) (by decide)) hname c.directory

theorem hasNul_recipePath (h : LetThrough id) (c : Catalog) :
    (c.recipePath id).hasNul = c.directory.hasNul := by
  have hid : (id ++ ending).toList.contains '\x00' = false := by
    rw [List.contains_eq_mem, decide_eq_false_iff_not]
    exact h.not_mem_append (by decide) (by decide)
  rw [recipePath_eq_child h, Path.hasNul_child, hid, Bool.or_false]

theorem ending_ne (id : String) : id ++ ending ≠ ".." := by
  intro heq
  have hlength := congrArg String.length heq
  rw [String.length_append] at hlength
  have hending : ending.length = 5 := rfl
  have hdots : "..".length = 2 := rfl
  omega

/-! ### Reading -/

theorem getById_congr {p : Path} (hp : c.recipePath id = p)
    (hfile : files.hasFile p = files'.hasFile p)
    (hread : files.hasFile p = .ok true → files.readBytes p = files'.readBytes p) :
    c.getById files id = c.getById files' id := by
  unfold getById
  rw [hp]
  dsimp only
  rw [← hfile]
  cases hhas : files.hasFile p with
  | error fault => rfl
  | ok there =>
      cases there with
      | false => rfl
      | true =>
          have hvalue : readValue files p = readValue files' p := by
            unfold readValue
            rw [hread hhas]
          rw [hvalue]

/-- The path of an id that gets through is too long to look at. -/
def TooLong (c : Catalog) (files : Files) (id : String) : Prop :=
  LetThrough id ∧ files.TooLong (c.recipePath id)

theorem get_eq_of_agreeOn (h : files.AgreeOn files' c.directory (id ++ ending))
    (hlong : c.TooLong files id ↔ c.TooLong files' id) :
    c.get files (.text id) = c.get files' (.text id) := by
  rw [get_text, get_text]
  by_cases hid : LetThrough id
  · have hpath := recipePath_eq_child hid c
    unfold TooLong at hlong
    rw [hpath, and_iff_right hid, and_iff_right hid] at hlong
    obtain ⟨hfile, hread⟩ := h.reads (ending_ne id) hlong
    rw [getById_congr hpath hfile hread]
  · rw [if_neg (isId_iff.not.mpr hid), if_neg (isId_iff.not.mpr hid)]

/-- The file system refuses exactly those paths that are too long to look at. -/
theorem tooLong_iff :
    c.TooLong files id ↔
      (c.get files (.text id)).outcome = .error (Files.refusal .nameTooLong (c.recipePath id)) := by
  rw [outcome_get, TooLong, ← isId_iff]
  cases hid : isId id with
  | false =>
      refine iff_of_false (fun h => Bool.false_ne_true h.1) (fun h => ?_)
      cases h
  | true =>
      rw [if_pos rfl, and_iff_right rfl]
      constructor
      · exact fun h => getById_of_obstacle (.tooLong h.1 h.2)
      · intro h
        by_cases hobstacle : ∃ fault, Obstacle files (c.recipePath id) fault
        · obtain ⟨fault, hobstacle⟩ := hobstacle
          rw [getById_of_obstacle hobstacle] at h
          obtain rfl := Except.error.inj h
          cases hobstacle with
          | tooLong hnul hlocate => exact ⟨hnul, hlocate⟩
          | undecodable hnul hbytes hfault => cases hfault
        · rcases getById_of_not_obstacle fun fault h => hobstacle ⟨fault, h⟩ with ⟨_, h'⟩ | ⟨_, h'⟩
          · rw [h'] at h
            cases h
          · rw [h'] at h
            cases h

theorem tooLong_congr_of_directory (h : files.HasDirectory c.directory)
    (h' : files'.HasDirectory c.directory) : c.TooLong files id ↔ c.TooLong files' id := by
  obtain ⟨here, entries, hlocate⟩ := h
  obtain ⟨here', entries', hlocate'⟩ := h'
  refine and_congr_right fun hid => ?_
  unfold Files.TooLong
  rw [recipePath_eq_child hid, Files.locate_child_of_directory (ending_ne id) hlocate,
    Files.locate_child_of_directory (ending_ne id) hlocate']

theorem tooLong_congr_of_short (files files' : Files)
    (h : ∀ name ∈ (c.recipePath id).names, name.utf8ByteSize ≤ Files.nameLimit) :
    c.TooLong files id ↔ c.TooLong files' id := by
  unfold TooLong Files.TooLong
  rw [Files.locate_eq_nameTooLong_iff h, Files.locate_eq_nameTooLong_iff h]

/-- **Reading is confined to one entry.** Two file systems that agree on the entry of an id in the
directory give the same report, unless the path is too long to look at in one of them only. It is so
in both or in neither if the directory is there in both, or if no name of the path is too long. A
text that could lead elsewhere gives the same report in any two file systems. -/
theorem get_confined (h : files.AgreeOn files' c.directory (id ++ ending)) :
    (c.get files (.text id) = c.get files' (.text id) ↔
        (c.TooLong files id ↔ c.TooLong files' id)) ∧
      (files.HasDirectory c.directory → files'.HasDirectory c.directory →
        c.get files (.text id) = c.get files' (.text id)) ∧
      ((∀ name ∈ (c.recipePath id).names, name.utf8ByteSize ≤ Files.nameLimit) →
        c.get files (.text id) = c.get files' (.text id)) ∧
      ('/' ∈ id.toList ∨ '.' ∈ id.toList ∨ id.toList.head? = some '-' →
        ∀ files files', c.get files (.text id) = c.get files' (.text id)) := by
  refine ⟨⟨?_, get_eq_of_agreeOn h⟩, ?_, ?_, ?_⟩
  · intro heq
    rw [tooLong_iff, tooLong_iff, heq]
  · intro hdirectory hdirectory'
    exact get_eq_of_agreeOn h (tooLong_congr_of_directory hdirectory hdirectory')
  · intro hshort
    exact get_eq_of_agreeOn h (tooLong_congr_of_short files files' hshort)
  · intro hunsafe files files'
    have hid := not_letThrough_of_unsafe hunsafe
    rw [get_eq_refused_iff.mpr hid, get_eq_refused_iff.mpr hid]

/-- A catalog of one soup. -/
def soupFiles : Files where
  top := .directory
    [("data", .directory [("recipes", .directory [("soup.json", .file [0x7B, 0x7D])])])]

/-- The same soup, with other files in the catalog, beside it and above it. -/
def crowdedFiles : Files where
  top := .directory
    [("soup.json", .file []), ("data", .directory [("secret", .file [0xFF]),
      ("recipes", .directory [("index.json", .file [0xFF]), ("soup.json", .file [0x7B, 0x7D])])])]

theorem get_confined_soup :
    soupFiles.AgreeOn crowdedFiles (ofDataDir "data").directory ("soup" ++ ending) ∧
      (ofDataDir "data").get soupFiles (.text "soup") =
        (ofDataDir "data").get crowdedFiles (.text "soup") ∧
      (ofDataDir "data").get soupFiles (.text "../soup") =
        (ofDataDir "data").get crowdedFiles (.text "../soup") := by
  have hsoup : soupFiles.AgreeOn crowdedFiles (ofDataDir "data").directory ("soup" ++ ending) := by
    have hentry : soupFiles.held? (ofDataDir "data").directory ("soup" ++ ending) =
        some (.file [0x7B, 0x7D]) := rfl
    have hentry' : crowdedFiles.held? (ofDataDir "data").directory ("soup" ++ ending) =
        some (.file [0x7B, 0x7D]) := rfl
    unfold Files.AgreeOn
    rw [hentry, hentry']
    exact .file _
  have habove :
      soupFiles.AgreeOn crowdedFiles (ofDataDir "data").directory ("../soup" ++ ending) := by
    have hentry : soupFiles.held? (ofDataDir "data").directory ("../soup" ++ ending) = none := rfl
    have hentry' : crowdedFiles.held? (ofDataDir "data").directory ("../soup" ++ ending) = none :=
      rfl
    unfold Files.AgreeOn
    rw [hentry, hentry']
    exact .nothing
  have hdirectory : soupFiles.HasDirectory (ofDataDir "data").directory := ⟨_, _, by rfl⟩
  have hdirectory' : crowdedFiles.HasDirectory (ofDataDir "data").directory := ⟨_, _, by rfl⟩
  refine ⟨hsoup, (get_confined hsoup).2.1 hdirectory hdirectory', ?_⟩
  exact (get_confined habove).2.2.2 (Or.inl (by decide)) soupFiles crowdedFiles

/-- Files without any, and with a directory for recipes that holds none. -/
def noFiles : Files where
  top := .directory []

def bareFiles : Files where
  top := .directory [("data", .directory [("recipes", .directory [])])]

/-- An id of one letter again and again. -/
def repeated (n : Nat) : String := String.ofList (List.replicate n 'a')

theorem letThrough_repeated {n : Nat} (h : 0 < n) : LetThrough (repeated n) := by
  obtain ⟨m, rfl⟩ := Nat.exists_eq_succ_of_ne_zero h.ne'
  refine Or.inl ?_
  rw [repeated, String.toList_ofList, List.replicate_succ]
  refine .intro (by decide) fun d hd => ?_
  rw [List.eq_of_mem_replicate hd]
  decide

theorem size_repeated (n : Nat) : (repeated n).utf8ByteSize = n := by
  induction n with
  | zero => rfl
  | succ n ih =>
      rw [repeated, List.replicate_succ', String.ofList_append, String.utf8ByteSize_append]
      exact congrArg (· + 1) ih

/-- With 251 letters the name of the file is too long. There is no such recipe in either file
system, but only in the first one it is not found. -/
theorem not_confined_repeated :
    noFiles.AgreeOn bareFiles (ofDataDir "data").directory (repeated 251 ++ ending) ∧
      ((ofDataDir "data").get noFiles (.text (repeated 251))).outcome =
        .error (.recipeNotFound (repeated 251) "no existe") ∧
      ((ofDataDir "data").get bareFiles (.text (repeated 251))).outcome =
        .error (Files.refusal .nameTooLong ((ofDataDir "data").recipePath (repeated 251))) := by
  have hid : LetThrough (repeated 251) := letThrough_repeated (by decide)
  have hsize : (repeated 251 ++ ending).utf8ByteSize = 256 := by
    rw [String.utf8ByteSize_append, size_repeated]
    rfl
  generalize repeated 251 = id at hid hsize ⊢
  have hnone : noFiles.locate (ofDataDir "data").directory = .error .missing := rfl
  have hbare : bareFiles.locate (ofDataDir "data").directory =
      .ok (["recipes", "data"], .directory []) := rfl
  have hdirectory : (ofDataDir "data").directory = ⟨"", ["data", "recipes"]⟩ := rfl
  have hnul : ((ofDataDir "data").recipePath id).hasNul = false := by
    rw [hasNul_recipePath hid, hdirectory]
    decide
  refine ⟨?_, ?_, ?_⟩
  · unfold Files.AgreeOn Files.held?
    rw [hnone, hbare]
    exact .nothing
  · have hfile : noFiles.hasFile ((ofDataDir "data").recipePath id) = .ok false := by
      rw [recipePath_eq_child hid] at hnul ⊢
      have hwrite : ((ofDataDir "data").directory.child (id ++ ending)).write.utf8ByteSize ≤
          Files.pathLimit := by
        refine (Path.size_write_le _).trans ?_
        rw [hdirectory]
        simp only [Path.child, List.cons_append, List.nil_append, String.intercalate_cons_cons,
          String.intercalate_singleton, String.utf8ByteSize_append, hsize]
        decide
      have hshort : ¬ noFiles.TooLong ((ofDataDir "data").directory.child (id ++ ending)) := by
        rintro ⟨-, hlong⟩
        rw [Files.locate_child, if_neg (Nat.not_lt.mpr hwrite), hnone] at hlong
        cases hlong
      rw [Files.hasFile, Files.find?_child (ending_ne id) hnul hshort, Files.held?, hnone]
      rfl
    rw [outcome_get, if_pos (isId_iff.mpr hid), outcome_getById, hfile]
    rfl
  · rw [← tooLong_iff]
    refine ⟨hid, hnul, ?_⟩
    rw [recipePath_eq_child hid, Files.locate_child_of_directory (ending_ne id) hbare, hsize]
    exact Or.inr (by decide)

end Catalog

end Cookbook
