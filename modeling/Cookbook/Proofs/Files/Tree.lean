import Cookbook.Files.Tree
import Cookbook.Proofs.Outcome
/-!
# Cookbook.Proofs.Files.Tree

Looking for paths. Only a path that is too long cannot be looked for (`find?_eq_error_iff`). What
stops the way to a path also stops the way to everything below it; so if a directory cannot be
looked for, neither can any file in it (`locate_child_of_nameTooLong`). Otherwise the path of an
entry leads to what the directory holds under its name, and to nothing else (`locate_child_cases`).
The names in a directory are those of the entries that it holds, each once and in order
(`mem_namesIn_iff`, `pairwise_namesIn`).
-/

namespace Cookbook

namespace Path

theorem size_intercalate_le (sep : String) (names : List String) (name : String) :
    (sep.intercalate names).utf8ByteSize ≤ (sep.intercalate (names ++ [name])).utf8ByteSize := by
  induction names with
  | nil => simp
  | cons n names ih =>
      cases names with
      | nil =>
          rw [List.cons_append, List.nil_append, String.intercalate_cons_cons,
            String.intercalate_singleton]
          simp only [String.utf8ByteSize_append]
          omega
      | cons m names =>
          simp only [List.cons_append] at ih ⊢
          simp only [String.intercalate_cons_cons, String.utf8ByteSize_append] at ih ⊢
          omega

/-- A path with one more name is longer. -/
theorem tooLong_child {p : Path} (name : String)
    (h : Files.pathLimit < p.write.utf8ByteSize) :
    Files.pathLimit < (p.child name).write.utf8ByteSize := by
  have hsize := size_intercalate_le "/" p.names name
  have hdot : ".".utf8ByteSize = 1 := rfl
  have hlimit : Files.pathLimit = 4095 := rfl
  unfold write at h ⊢
  dsimp only [child] at h ⊢
  split at h
  · omega
  · split
    · rename_i hempty
      have hzero := congrArg String.utf8ByteSize (eq_of_beq hempty)
      simp only [String.utf8ByteSize_append, String.utf8ByteSize_empty] at h hzero
      omega
    · simp only [String.utf8ByteSize_append] at h ⊢
      omega

theorem size_write_le (p : Path) :
    p.write.utf8ByteSize ≤ p.root.utf8ByteSize + ("/".intercalate p.names).utf8ByteSize + 1 := by
  unfold write
  dsimp only
  split
  · exact Nat.le_add_left _ _
  · rw [String.utf8ByteSize_append]
    exact Nat.le_add_right _ _

theorem rootOf_of_not_mem {cs : List Char} (h : '/' ∉ cs) : rootOf cs = "" := by
  unfold rootOf
  split
  · simp at h
  · simp at h
  · simp at h
  · rfl

/-- A text that is one name leads one name further. -/
theorem join_eq_child {s : String} (hslash : '/' ∉ s.toList) (hname : isName s.toList = true)
    (p : Path) : p.join s = p.child s := by
  have hroot : (ofString s).root = "" := rootOf_of_not_mem hslash
  have hnames : (ofString s).names = [s] := by
    unfold ofString
    dsimp only
    rw [Text.fields_of_not_mem hslash, List.filter_cons_of_pos hname]
    simp
  unfold join child
  dsimp only
  rw [isAbsolute, hroot, hnames]
  rfl

theorem hasNul_child (p : Path) (name : String) :
    (p.child name).hasNul = (p.hasNul || name.toList.contains '\x00') := by
  simp [hasNul, child]

/-- What comes before an ending is the stem, if it is anything and the ending has one dot only. -/
theorem stem_append {cs ext : List Char} (hcs : cs ≠ []) (hext : ext ≠ []) (hdot : '.' ∉ ext) :
    stem (String.ofList (cs ++ '.' :: ext)) = String.ofList cs := by
  have hall : ∀ c ∈ ext.reverse, (c != '.') = true := by
    intro c hc
    rw [bne_iff_ne]
    rintro rfl
    exact hdot (List.mem_reverse.mp hc)
  have hreverse : (cs ++ '.' :: ext).reverse = ext.reverse ++ '.' :: cs.reverse := by simp
  unfold stem
  dsimp only
  rw [String.toList_ofList, hreverse, List.takeWhile_append_of_pos hall,
    List.dropWhile_append_of_pos hall, List.takeWhile_cons_of_neg (by simp),
    List.dropWhile_cons_of_neg (by simp), List.append_nil, List.drop_succ_cons, List.drop_zero,
    if_neg (by simp [hcs, hext]), List.reverse_reverse]

end Path

namespace Node

/-- What a directory holds under a name. -/
def held? (name : String) : Node → Option Node
  | file _ => none
  | directory entries => entries.lookup name

theorem nodup_eraseDups (names : List String) : names.eraseDups.Nodup := by
  cases names with
  | nil => exact List.nodup_nil
  | cons name names =>
      rw [List.eraseDups_cons]
      refine List.nodup_cons.mpr ⟨?_, nodup_eraseDups _⟩
      simp [List.mem_eraseDups]
termination_by names.length
decreasing_by exact Nat.lt_succ_of_le (List.length_filter_le _ _)

theorem eraseDups_of_nodup {names : List String} (h : names.Nodup) : names.eraseDups = names := by
  induction names with
  | nil => rfl
  | cons name names ih =>
      obtain ⟨hname, hnames⟩ := List.nodup_cons.mp h
      have hkept : (names.filter fun b => !b == name) = names := by
        refine List.filter_eq_self.mpr fun b hb => ?_
        have hne : b ≠ name := fun heq => hname (heq ▸ hb)
        simp [hne]
      rw [List.eraseDups_cons, hkept, ih hnames]

/-- Where the entries are in order, so are the names as they stand. -/
theorem names_of_pairwise {entries : List (String × Node)}
    (h : (entries.map (·.1)).Pairwise (· < ·)) : (directory entries).names = entries.map (·.1) := by
  have hnodup : (entries.map (·.1)).Nodup := h.imp fun hlt => (Std.lt_iff_le_and_ne.mp hlt).2
  rw [names, eraseDups_of_nodup hnodup]
  exact List.mergeSort_of_pairwise
    (h.imp fun hlt => decide_eq_true (Std.lt_iff_le_and_ne.mp hlt).1)

/-- No name is there twice, even where two entries have it. -/
theorem nodup_names (node : Node) : node.names.Nodup := by
  cases node with
  | file bytes => exact List.nodup_nil
  | directory entries => exact (List.mergeSort_perm _ _).nodup_iff.mpr (nodup_eraseDups _)

/-- The names in a directory are in order of their characters, in whatever order its entries are. -/
theorem pairwise_names (node : Node) : node.names.Pairwise (· < ·) := by
  have hle : node.names.Pairwise (· ≤ ·) := by
    cases node with
    | file bytes => exact .nil
    | directory entries =>
        have htrans : ∀ a b c : String,
            decide (a ≤ b) = true → decide (b ≤ c) = true → decide (a ≤ c) = true :=
          fun a b c hab hbc =>
            decide_eq_true (String.le_trans (of_decide_eq_true hab) (of_decide_eq_true hbc))
        have htotal : ∀ a b : String, (decide (a ≤ b) || decide (b ≤ a)) = true :=
          fun a b => by simpa using String.le_total a b
        have hsorted := List.pairwise_mergeSort htrans htotal (entries.map (·.1)).eraseDups
        exact hsorted.imp of_decide_eq_true
  exact (hle.and node.nodup_names).imp Std.lt_iff_le_and_ne.mpr

/-- The names in a node are those under which it holds something. -/
theorem mem_names_iff {node : Node} {name : String} :
    name ∈ node.names ↔ ∃ n, node.held? name = some n := by
  cases node with
  | file bytes => simp [names, held?]
  | directory entries =>
      rw [names, List.mem_mergeSort, List.mem_eraseDups, held?]
      constructor
      · intro hmem
        obtain ⟨entry, hentry, rfl⟩ := List.mem_map.mp hmem
        refine Option.ne_none_iff_exists'.mp fun hnone => ?_
        simpa using List.lookup_eq_none_iff.mp hnone entry hentry
      · rintro ⟨n, hn⟩
        obtain ⟨before, after, rfl, -⟩ := List.lookup_eq_some_iff.mp hn
        simp

end Node

namespace Files

variable {files : Files} {p : Path} {fault : Fault} {name : String}

/-! ### Looking for a path -/

theorem find?_eq_error_iff :
    files.find? p = .error fault ↔
      p.hasNul = false ∧ files.locate p = .error .nameTooLong ∧
        fault = refusal .nameTooLong p := by
  unfold find?
  constructor
  · intro h
    split at h
    · cases h
    · rename_i hnul
      split at h
      · cases h
      · rename_i hlocate
        cases h
        exact ⟨by simpa using hnul, hlocate, rfl⟩
      · cases h
  · rintro ⟨hnul, hlocate, rfl⟩
    rw [hnul, hlocate]
    rfl

theorem find?_of_hasNul (h : p.hasNul = true) : files.find? p = .ok none := by
  unfold find?
  rw [if_pos h]

/-- A file with bytes is found, unless its path could not be the path of any. -/
theorem find?_of_readBytes {bytes : List UInt8} (hnul : p.hasNul = false)
    (h : files.readBytes p = .ok bytes) : files.find? p = .ok (some (.file bytes)) := by
  unfold readBytes at h
  unfold find?
  rw [hnul]
  split at h
  · rename_i here bytes' hlocate
    cases h
    rw [hlocate]
    rfl
  · cases h
  · cases h

theorem hasFile_eq_error_iff :
    files.hasFile p = .error fault ↔
      p.hasNul = false ∧ files.locate p = .error .nameTooLong ∧
        fault = refusal .nameTooLong p := by
  rw [← find?_eq_error_iff, hasFile, exceptMap_eq_error_iff]

theorem hasNode_eq_error_iff :
    files.hasNode p = .error fault ↔
      p.hasNul = false ∧ files.locate p = .error .nameTooLong ∧
        fault = refusal .nameTooLong p := by
  rw [← find?_eq_error_iff, hasNode, exceptMap_eq_error_iff]

theorem hasFile_of_readBytes {bytes : List UInt8} (hnul : p.hasNul = false)
    (h : files.readBytes p = .ok bytes) : files.hasFile p = .ok true := by
  rw [hasFile, find?_of_readBytes hnul h]
  rfl

theorem hasNode_of_readBytes {bytes : List UInt8} (hnul : p.hasNul = false)
    (h : files.readBytes p = .ok bytes) : files.hasNode p = .ok true := by
  rw [hasNode, find?_of_readBytes hnul h]
  rfl

theorem hasNul_of_hasFile (h : files.hasFile p = .ok true) : p.hasNul = false := by
  by_contra hnul
  rw [hasFile, find?_of_hasNul (by simpa using hnul)] at h
  cases h

theorem hasNul_of_hasNode (h : files.hasNode p = .ok true) : p.hasNul = false := by
  by_contra hnul
  rw [hasNode, find?_of_hasNul (by simpa using hnul)] at h
  cases h

/-! ### Paths below paths -/

/-- Follow one name. -/
def enter (top : Node) (name : String) : List String × Node → Except FileFault (List String × Node)
  | (_, .file _) => .error .notADirectory
  | (here, .directory entries) =>
    if name == ".." then
      match top.at? (here.drop 1).reverse with
      | some n => .ok (here.drop 1, n)
      | none => .error .missing
    else if nameLimit < name.utf8ByteSize then .error .nameTooLong
    else
      match entries.lookup name with
      | some n => .ok (name :: here, n)
      | none => .error .missing

theorem follow_cons (top : Node) (here : List String) (node : Node) (name : String)
    (names : List String) :
    follow top here node (name :: names) =
      enter top name (here, node) >>= fun next => follow top next.1 next.2 names := by
  cases node with
  | file bytes => rfl
  | directory entries =>
      rw [follow, enter]
      split
      · cases top.at? (here.drop 1).reverse <;> rfl
      · split
        · rfl
        · cases entries.lookup name <;> rfl

/-- A way goes on from where its first part leads to. -/
theorem follow_append (top : Node) (here : List String) (node : Node) (names more : List String) :
    follow top here node (names ++ more) =
      follow top here node names >>= fun next => follow top next.1 next.2 more := by
  induction names generalizing here node with
  | nil => rfl
  | cons name names ih =>
      rw [List.cons_append, follow_cons, follow_cons, bind_assoc]
      exact congrArg _ (funext fun next => ih next.1 next.2)

theorem locate_child (files : Files) (p : Path) (name : String) :
    files.locate (p.child name) =
      if pathLimit < (p.child name).write.utf8ByteSize then .error .nameTooLong
      else files.locate p >>= enter files.top name := by
  have hstart : files.start (p.child name) = files.start p := rfl
  have hnames : (p.child name).names = p.names ++ [name] := rfl
  unfold locate
  rw [hstart, hnames]
  split
  · rfl
  · rename_i hshort
    rw [if_neg fun hlong => hshort (Path.tooLong_child name hlong)]
    cases files.top.at? (files.start p).reverse with
    | none => rfl
    | some node =>
        dsimp only
        rw [follow_append]
        refine congrArg _ (funext fun next => ?_)
        rw [follow_cons]
        cases enter files.top name next <;> rfl

theorem locate_child_of_nameTooLong (name : String) (h : files.locate p = .error .nameTooLong) :
    files.locate (p.child name) = .error .nameTooLong := by
  rw [locate_child, h]
  exact ite_self _

/-! ### Entries of a directory -/

theorem enter_directory (hname : name ≠ "..") (top : Node) (here : List String)
    (entries : List (String × Node)) :
    enter top name (here, .directory entries) =
      if nameLimit < name.utf8ByteSize then .error .nameTooLong
      else
        match entries.lookup name with
        | some n => .ok (name :: here, n)
        | none => .error .missing := by
  rw [enter, beq_eq_false_iff_ne.mpr hname]
  rfl

/-- What a path holds under a name; what is no directory holds nothing. -/
def held? (files : Files) (p : Path) (name : String) : Option Node :=
  match files.locate p with
  | .ok (_, n) => n.held? name
  | .error _ => none

theorem enter_cases (hname : name ≠ "..") (top : Node) (next : List String × Node) :
    enter top name next = .error .nameTooLong ∨
      (∃ here n, next.2.held? name = some n ∧ enter top name next = .ok (here, n)) ∨
      next.2.held? name = none ∧
        ∃ cause, cause ≠ .nameTooLong ∧ enter top name next = .error cause := by
  obtain ⟨here, node⟩ := next
  cases node with
  | file bytes => exact Or.inr (Or.inr ⟨rfl, .notADirectory, by decide, rfl⟩)
  | directory entries =>
      rw [enter_directory hname, Node.held?]
      split
      · exact Or.inl rfl
      · cases entries.lookup name with
        | some n => exact Or.inr (Or.inl ⟨name :: here, n, rfl, rfl⟩)
        | none => exact Or.inr (Or.inr ⟨rfl, .missing, by decide, rfl⟩)

/-- The path of an entry is too long, or leads to what is held under its name. -/
theorem locate_child_cases (hname : name ≠ "..") (files : Files) (p : Path) :
    files.locate (p.child name) = .error .nameTooLong ∨
      (∃ here n, files.held? p name = some n ∧ files.locate (p.child name) = .ok (here, n)) ∨
      files.held? p name = none ∧
        ∃ cause, cause ≠ .nameTooLong ∧ files.locate (p.child name) = .error cause := by
  rw [locate_child, held?]
  split
  · exact Or.inl rfl
  · cases files.locate p with
    | ok next => exact enter_cases hname files.top next
    | error cause =>
        by_cases hlong : cause = .nameTooLong
        · exact Or.inl (congrArg Except.error hlong)
        · exact Or.inr (Or.inr ⟨rfl, cause, hlong, rfl⟩)

/-- A file that is read in a directory is what the directory holds. -/
theorem held?_of_readBytes (hname : name ≠ "..") {bytes : List UInt8}
    (h : files.readBytes (p.child name) = .ok bytes) : ∃ n, files.held? p name = some n := by
  unfold readBytes at h
  rcases locate_child_cases hname files p with hlong | ⟨here, n, hheld, -⟩ | ⟨-, cause, -, hnone⟩
  · rw [hlong] at h
    cases h
  · exact ⟨n, hheld⟩
  · rw [hnone] at h
    cases h

/-- What holds something is there. -/
theorem hasNode_of_held? (hnul : p.hasNul = false) {n : Node} (h : files.held? p name = some n) :
    files.hasNode p = .ok true := by
  unfold held? at h
  split at h
  · rename_i here node hlocate
    rw [hasNode, find?, hnul, hlocate]
    rfl
  · cases h

/-- The names in a directory are those under which it holds something. -/
theorem mem_namesIn_iff : name ∈ files.namesIn p ↔ ∃ n, files.held? p name = some n := by
  unfold namesIn held?
  cases files.locate p with
  | ok next => exact Node.mem_names_iff
  | error cause => simp

theorem pairwise_namesIn (files : Files) (p : Path) : (files.namesIn p).Pairwise (· < ·) := by
  unfold namesIn
  split
  · exact Node.pairwise_names _
  · exact .nil

/-- In a directory that is found, a path is too long for what it is, and not for what is there. -/
theorem locate_child_of_directory (hname : name ≠ "..") {here : List String}
    {entries : List (String × Node)} (h : files.locate p = .ok (here, .directory entries)) :
    files.locate (p.child name) = .error .nameTooLong ↔
      pathLimit < (p.child name).write.utf8ByteSize ∨ nameLimit < name.utf8ByteSize := by
  rw [locate_child, h]
  split
  · rename_i hlong
    exact iff_of_true rfl (Or.inl hlong)
  · rename_i hshort
    show enter files.top name (here, .directory entries) = _ ↔ _
    rw [enter_directory hname, or_iff_right hshort]
    split
    · rename_i hlong
      exact iff_of_true rfl hlong
    · rename_i hfits
      refine iff_of_false ?_ hfits
      cases entries.lookup name <;> simp

/-- No name that is short enough is too long to follow. -/
theorem follow_ne_nameTooLong {names : List String}
    (h : ∀ name ∈ names, name.utf8ByteSize ≤ nameLimit) (top : Node) (here : List String)
    (node : Node) : follow top here node names ≠ .error .nameTooLong := by
  induction names generalizing here node with
  | nil => simp [follow]
  | cons name names ih =>
      obtain ⟨hname, hnames⟩ := List.forall_mem_cons.mp h
      have henter : enter top name (here, node) ≠ .error .nameTooLong := by
        unfold enter
        split
        · simp
        · split
          · split <;> simp
          · rw [if_neg (Nat.not_lt.mpr hname)]
            split <;> simp
      rw [follow_cons]
      cases hnext : enter top name (here, node) with
      | error cause => exact fun hlong => henter (hnext.trans hlong)
      | ok next => exact ih hnames next.1 next.2

theorem locate_eq_nameTooLong_iff (h : ∀ name ∈ p.names, name.utf8ByteSize ≤ nameLimit) :
    files.locate p = .error .nameTooLong ↔ pathLimit < p.write.utf8ByteSize := by
  unfold locate
  split
  · rename_i hlong
    exact iff_of_true rfl hlong
  · rename_i hshort
    refine iff_of_false ?_ hshort
    split
    · exact follow_ne_nameTooLong h _ _ _
    · simp

end Files

end Cookbook
