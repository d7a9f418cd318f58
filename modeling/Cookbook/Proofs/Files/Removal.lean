import Mathlib.Data.List.Infix
import Mathlib.Data.List.Sort
import Cookbook.Proofs.Files.Tree
import Cookbook.Proofs.Value.Path
/-!
# Cookbook.Proofs.Files.Removal

Files without what a path leads to. In what is left every way goes where it went before, or it would
have come through what was taken away, and then it leads nowhere (`follow_remove`, `locate_remove`).
Two dots are followed up from where a way has come to, so a way may come through what was taken away
and still lead to a place beside it; without them it never does (`follow_remove_of_plain`).
-/

namespace Cookbook

namespace Node

variable {name key : String} {names loc : List String} {node new : Node}
  {entries : List (String × Node)}

theorem lookup_setEntry_self (entries : List (String × Node)) :
    (setEntry name new entries).lookup name = some new := by
  induction entries with
  | nil => simp [setEntry]
  | cons entry entries ih =>
      unfold setEntry
      by_cases hk : entry.1 = name
      · simp [hk]
      · rw [if_neg (by simpa using hk), List.lookup_cons, beq_false_of_ne (Ne.symm hk), ih]

theorem lookup_setEntry_of_ne (entries : List (String × Node)) (h : key ≠ name) :
    (setEntry name new entries).lookup key = entries.lookup key := by
  induction entries with
  | nil => simp [setEntry, List.lookup_cons, beq_false_of_ne h]
  | cons entry entries ih =>
      unfold setEntry
      by_cases hk : entry.1 = name
      · rw [if_pos (by simpa using hk), List.lookup_cons, List.lookup_cons, hk, beq_false_of_ne h]
      · rw [if_neg (by simpa using hk), List.lookup_cons, List.lookup_cons, ih]

/-- What is ahead on a way after some names: nothing, if they lead elsewhere. -/
def ahead : List String → List String → List String
  | [], loc => loc
  | _ :: _, [] => []
  | name :: names, n :: loc => if name = n then ahead names loc else []

theorem ahead_append (names more : List String) : ahead names (names ++ more) = more := by
  induction names with
  | nil => rfl
  | cons name names ih => simpa [ahead] using ih

theorem remove_file (bytes : List UInt8) (loc : List String) :
    (file bytes).remove loc = file bytes := by
  match loc with
  | [] => rfl
  | [_] => rfl
  | _ :: _ :: _ => rfl

/-- What is taken away from a directory leaves a directory, and no name that leads elsewhere leads
to anything else. -/
theorem remove_directory (name : String) (loc : List String) (entries : List (String × Node)) :
    ∃ entries', (directory entries).remove (name :: loc) = directory entries' ∧
      (∀ key, key ≠ name → entries'.lookup key = entries.lookup key) ∧
      entries'.lookup name =
        if loc = [] then none else (entries.lookup name).map fun n => n.remove loc := by
  cases loc with
  | nil =>
      refine ⟨entries.filter (·.1 != name), rfl, fun key hkey => ?_, ?_⟩
      · exact Value.lookup_filter_of_ne entries hkey
      · exact Value.lookup_filter_self entries name
  | cons next loc =>
      simp only [remove]
      cases hold : entries.lookup name with
      | none => exact ⟨entries, rfl, fun key _ => rfl, hold⟩
      | some old =>
          exact ⟨_, rfl, fun key hkey => lookup_setEntry_of_ne entries hkey,
            lookup_setEntry_self entries⟩

theorem isFile_remove (node : Node) (loc : List String) :
    (node.remove loc).isFile = node.isFile := by
  cases node with
  | file bytes => rw [remove_file]
  | directory entries =>
      cases loc with
      | nil => rfl
      | cons name loc =>
          obtain ⟨entries', hentries, -⟩ := remove_directory name loc entries
          rw [hentries]
          rfl

theorem at?_append (node : Node) (names more : List String) :
    node.at? (names ++ more) = (node.at? names).bind fun n => n.at? more := by
  induction names generalizing node with
  | nil => rfl
  | cons name names ih =>
      cases node with
      | file bytes => rfl
      | directory entries =>
          rw [List.cons_append, at?, at?, Option.bind_assoc]
          exact congrArg _ (funext fun n => ih n)

/-- Names that come through what was taken away lead to nothing. -/
theorem at?_remove_of_prefix (hloc : loc ≠ []) (node : Node) (h : loc <+: names) :
    (node.remove loc).at? names = none := by
  induction loc generalizing node names with
  | nil => exact absurd rfl hloc
  | cons name loc ih =>
      cases node with
      | file bytes =>
          obtain ⟨more, rfl⟩ := h
          rw [remove_file]
          rfl
      | directory entries =>
          obtain ⟨more, rfl⟩ := h
          obtain ⟨entries', hentries, -, hself⟩ := remove_directory name loc entries
          rw [hentries, List.cons_append, at?, hself]
          by_cases hend : loc = []
          · rw [if_pos hend]
            rfl
          · rw [if_neg hend, Option.bind_map]
            exact Option.bind_eq_none_iff.mpr fun n _ => ih hend n (List.prefix_append loc more)

/-- Other names lead to what they led to before, without what was taken away inside of it. -/
theorem at?_remove_of_not_prefix (node : Node) (h : ¬ loc <+: names) :
    (node.remove loc).at? names = (node.at? names).map fun n => n.remove (ahead names loc) := by
  induction loc generalizing node names with
  | nil => exact absurd List.nil_prefix h
  | cons name loc ih =>
      cases names with
      | nil => rfl
      | cons key names =>
          cases node with
          | file bytes =>
              rw [remove_file]
              rfl
          | directory entries =>
              obtain ⟨entries', hentries, hother, hself⟩ := remove_directory name loc entries
              rw [hentries, at?, at?, ahead]
              by_cases hkey : key = name
              · subst hkey
                have hrest : ¬ loc <+: names :=
                  fun hprefix => h (List.cons_prefix_cons.mpr ⟨rfl, hprefix⟩)
                have hend : loc ≠ [] := fun hnil => hrest (hnil ▸ List.nil_prefix)
                rw [hself, if_neg hend, if_pos rfl, Option.bind_map, Option.map_bind]
                exact congrArg _ (funext fun n => ih n hrest)
              · rw [hother key hkey, if_neg hkey]
                exact Option.map_id'.symm

end Node

namespace Files

variable {files : Files} {p : Path} {name : String} {names here loc : List String}
  {top node : Node}

/-! ### Steps -/

/-- Where a name leads to from a place. -/
def entered (name : String) (here : List String) : List String :=
  if name == ".." then here.drop 1 else name :: here

/-- What is at a place. -/
def look (top : Node) (here : List String) : Except FileFault (List String × Node) :=
  match top.at? here.reverse with
  | some n => .ok (here, n)
  | none => .error .missing

/-- What keeps a name from being followed, wherever it leads. -/
def barrier (name : String) (node : Node) : Except FileFault Unit :=
  if node.isFile then .error .notADirectory
  else if name != ".." && decide (nameLimit < name.utf8ByteSize) then .error .nameTooLong
  else .ok ()

/-- A step from a place looks at another place. -/
theorem enter_eq (h : top.at? here.reverse = some node) :
    enter top name (here, node) = barrier name node >>= fun _ => look top (entered name here) := by
  cases node with
  | file bytes => rfl
  | directory entries =>
      by_cases hdots : name = ".."
      · subst hdots
        rfl
      · have hplace : top.at? (name :: here).reverse = entries.lookup name := by
          rw [List.reverse_cons, Node.at?_append, h, Option.bind_some, Node.at?]
          exact Option.bind_fun_some _
        rw [enter_directory hdots, barrier, entered, beq_false_of_ne hdots, look]
        simp only [Node.isFile, bne, beq_false_of_ne hdots, Bool.not_false, Bool.true_and,
          Bool.false_eq_true, if_false, hplace, decide_eq_true_eq]
        split
        · rfl
        · rfl

theorem at?_of_look {next : List String × Node} (h : look top here = .ok next) :
    top.at? next.1.reverse = some next.2 := by
  unfold look at h
  split at h
  · rename_i n hn
    cases h
    exact hn
  · cases h

theorem follow_cons_eq (h : top.at? here.reverse = some node) :
    follow top here node (name :: names) = barrier name node >>= fun _ =>
      look top (entered name here) >>= fun next => follow top next.1 next.2 names := by
  rw [follow_cons, enter_eq h, bind_assoc]

theorem locate_eq (files : Files) (p : Path) :
    files.locate p = if pathLimit < p.write.utf8ByteSize then .error .nameTooLong
      else look files.top (files.start p) >>=
        fun next => follow files.top next.1 next.2 p.names := by
  unfold locate look
  cases files.top.at? (files.start p).reverse <;> rfl

/-! ### After a removal -/

/-- What is left at a place of what was there. -/
def left (loc : List String) (next : List String × Node) : List String × Node :=
  (next.1, next.2.remove (Node.ahead next.1.reverse loc))

@[simp] theorem left_fst (loc : List String) (next : List String × Node) :
    (left loc next).1 = next.1 := rfl

theorem at?_left {next : List String × Node} (h : top.at? next.1.reverse = some next.2)
    (hbeside : ¬ loc <+: next.1.reverse) :
    (top.remove loc).at? (left loc next).1.reverse = some (left loc next).2 := by
  rw [left_fst, Node.at?_remove_of_not_prefix top hbeside, h]
  rfl

theorem barrier_left (name : String) (next : List String × Node) :
    barrier name (left loc next).2 = barrier name next.2 := by
  unfold barrier left
  rw [Node.isFile_remove]

theorem look_remove (hbeside : ¬ loc <+: here.reverse) (top : Node) :
    look (top.remove loc) here = (look top here).map (left loc) := by
  unfold look
  rw [Node.at?_remove_of_not_prefix top hbeside]
  cases top.at? here.reverse <;> rfl

/-- After a removal a way leads nowhere, or to what is left where it led before, or is stopped as it
was before. -/
inductive Reduced (loc : List String) :
    Except FileFault (List String × Node) → Except FileFault (List String × Node) → Prop
  | gone (r : Except FileFault (List String × Node)) : Reduced loc r (.error .missing)
  | stopped (cause : FileFault) : Reduced loc (.error cause) (.error cause)
  | reached {next : List String × Node} (h : ¬ loc <+: next.1.reverse) :
      Reduced loc (.ok next) (.ok (left loc next))

theorem look_reduced (hloc : loc ≠ []) (top : Node) (here : List String) :
    Reduced loc (look top here) (look (top.remove loc) here) := by
  by_cases hthrough : loc <+: here.reverse
  · have hgone : look (top.remove loc) here = .error .missing := by
      unfold look
      rw [Node.at?_remove_of_prefix hloc top hthrough]
    exact hgone ▸ .gone _
  · rw [look_remove hthrough]
    unfold look
    cases top.at? here.reverse with
    | none => exact .gone _
    | some n => exact .reached hthrough

theorem Reduced.bind {r r' : Except FileFault (List String × Node)}
    {f f' : List String × Node → Except FileFault (List String × Node)} (h : Reduced loc r r')
    (hf : ∀ next, r = .ok next → ¬ loc <+: next.1.reverse →
      Reduced loc (f next) (f' (left loc next))) :
    Reduced loc (r >>= f) (r' >>= f') := by
  cases h with
  | gone r => exact .gone _
  | stopped cause => exact .stopped cause
  | reached h => exact hf _ rfl h

theorem follow_remove (hloc : loc ≠ []) (names : List String) {next : List String × Node}
    (h : top.at? next.1.reverse = some next.2) (hbeside : ¬ loc <+: next.1.reverse) :
    Reduced loc (follow top next.1 next.2 names)
      (follow (top.remove loc) (left loc next).1 (left loc next).2 names) := by
  induction names generalizing next with
  | nil => exact .reached hbeside
  | cons name names ih =>
      rw [follow_cons_eq h, follow_cons_eq (at?_left h hbeside), barrier_left]
      cases barrier name next.2 with
      | error cause => exact .stopped cause
      | ok _ =>
          -- The next place may be gone. Otherwise the way goes on there, and it is not inside of
          -- `loc`.
          refine (look_reduced hloc top (entered name next.1)).bind fun next' hnext hbeside' => ?_
          exact ih (at?_of_look hnext) hbeside'

/-- Every path leads nowhere after a removal, or to what is left where it led before, or is
stopped. -/
theorem locate_remove (hloc : loc ≠ []) (files : Files) (p : Path) :
    Reduced loc (files.locate p) (locate { files with top := files.top.remove loc } p) := by
  rw [locate_eq, locate_eq]
  split
  · exact .stopped _
  · refine (look_reduced hloc files.top (files.start p)).bind fun next hnext hbeside => ?_
    exact follow_remove hloc p.names (at?_of_look hnext) hbeside

/-! ### Without two dots -/

theorem entered_of_ne (h : name ≠ "..") : entered name here = name :: here := by
  rw [entered, beq_false_of_ne h]
  rfl

theorem look_place {next : List String × Node} (h : look top here = .ok next) : next.1 = here := by
  unfold look at h
  split at h <;> cases h
  rfl

/-- Without two dots a way comes further down with every name. -/
theorem follow_place (hdots : ".." ∉ names) {next found : List String × Node}
    (h : top.at? next.1.reverse = some next.2)
    (hfollow : follow top next.1 next.2 names = .ok found) :
    found.1 = names.reverse ++ next.1 := by
  induction names generalizing next with
  | nil =>
      cases hfollow
      rfl
  | cons name names ih =>
      obtain ⟨hname, hnames⟩ := not_or.mp (mt List.mem_cons.mpr hdots)
      rw [follow_cons_eq h, entered_of_ne (Ne.symm hname)] at hfollow
      obtain ⟨_, -, hfollow⟩ := exceptBind_inv hfollow
      obtain ⟨next', hnext, hfollow⟩ := exceptBind_inv hfollow
      rw [ih hnames (at?_of_look hnext) hfollow, look_place hnext, List.reverse_cons,
        List.append_assoc]
      rfl

theorem not_prefix_of_length_lt (h : here.length < loc.length) : ¬ loc <+: here.reverse := by
  intro hprefix
  have hlength := hprefix.length_le
  rw [List.length_reverse] at hlength
  omega

/-- A way without two dots does not come through what is further down than it leads. -/
theorem follow_remove_of_plain (hdots : ".." ∉ names) {next : List String × Node}
    (h : top.at? next.1.reverse = some next.2)
    (hlength : next.1.length + names.length < loc.length) :
    follow (top.remove loc) (left loc next).1 (left loc next).2 names =
      (follow top next.1 next.2 names).map (left loc) := by
  induction names generalizing next with
  | nil => rfl
  | cons name names ih =>
      obtain ⟨hname, hnames⟩ := not_or.mp (mt List.mem_cons.mpr hdots)
      rw [List.length_cons] at hlength
      have hbeside : ¬ loc <+: next.1.reverse := not_prefix_of_length_lt (by omega)
      have hbelow : ¬ loc <+: (name :: next.1).reverse :=
        not_prefix_of_length_lt (by rw [List.length_cons]; omega)
      rw [follow_cons_eq h, follow_cons_eq (at?_left h hbeside), barrier_left, left_fst,
        entered_of_ne (Ne.symm hname), look_remove hbelow]
      cases barrier name next.2 with
      | error cause => rfl
      | ok _ =>
          cases hnext : look top (name :: next.1) with
          | error cause => rfl
          | ok next' =>
              refine ih hnames (at?_of_look hnext) ?_
              rw [look_place hnext, List.length_cons]
              omega

/-! ### What is beside -/

/-- The files without what a path leads to. -/
def without (files : Files) (p : Path) : Files :=
  match files.locate p with
  | .ok (here, _) => { files with top := files.top.remove here.reverse }
  | .error _ => files

/-- What a directory holds under a name is found at the path of the name, unless that is too
long. -/
theorem locate_child_in_directory (hname : name ≠ "..") {entries : List (String × Node)}
    (h : files.locate p = .ok (here, .directory entries)) :
    files.locate (p.child name) =
      if pathLimit < (p.child name).write.utf8ByteSize then .error .nameTooLong
      else if nameLimit < name.utf8ByteSize then .error .nameTooLong
      else
        match entries.lookup name with
        | some n => .ok (name :: here, n)
        | none => .error .missing := by
  rw [locate_child, h]
  exact congrArg _ (enter_directory hname files.top here entries)

/-- Where a path in a directory leads to, the directory is there. -/
theorem exists_directory_of_locate_child (hname : name ≠ "..")
    (h : files.locate (p.child name) = .ok (here, node)) :
    ∃ above entries, files.locate p = .ok (above, .directory entries) ∧ here = name :: above ∧
      entries.lookup name = some node ∧ ¬ pathLimit < (p.child name).write.utf8ByteSize ∧
      ¬ nameLimit < name.utf8ByteSize := by
  rw [locate_child] at h
  split at h
  · cases h
  · rename_i hshort
    obtain ⟨⟨above, node'⟩, hlocate, h⟩ := exceptBind_inv h
    cases node' with
    | file bytes => cases h
    | directory entries =>
        rw [enter_directory hname] at h
        split at h
        · cases h
        · rename_i hfits
          split at h
          · rename_i n hn
            cases h
            exact ⟨above, entries, hlocate, rfl, hn, hshort, hfits⟩
          · cases h

/-- A directory is found in files and in other files, there without the entries of one name. -/
def Lacks (files rest : Files) (p : Path) (name : String) : Prop :=
  ∃ above entries, files.locate p = .ok (above, .directory entries) ∧
    rest.locate p = .ok (above, .directory (entries.filter (·.1 != name)))

/-- Without an entry of a directory the directory is not found, or it is found as it was, but for
the entry. -/
theorem locate_without_child (hname : name ≠ "..")
    (h : files.locate (p.child name) = .ok (here, node)) :
    (files.without (p.child name)).locate p = .error .missing ∨
      files.Lacks (files.without (p.child name)) p name := by
  obtain ⟨above, entries, hlocate, rfl, -⟩ := exists_directory_of_locate_child hname h
  have hloc : (name :: above).reverse ≠ [] := by simp
  have hreduced := locate_remove hloc files p
  rw [hlocate] at hreduced
  unfold Lacks
  rw [without, h]
  generalize hfound : locate _ p = found at hreduced ⊢
  cases hreduced with
  | gone => exact .inl rfl
  | reached =>
      refine .inr ⟨above, entries, hlocate, ?_⟩
      rw [left, List.reverse_cons, Node.ahead_append]
      rfl

/-- An entry that is taken away is not found any more. -/
theorem locate_without_self (hname : name ≠ "..")
    (h : files.locate (p.child name) = .ok (here, node)) :
    (files.without (p.child name)).locate (p.child name) = .error .missing := by
  obtain ⟨-, -, -, -, -, hshort, hfits⟩ := exists_directory_of_locate_child hname h
  rcases locate_without_child hname h with hgone | ⟨above, entries, -, hrest⟩
  · rw [locate_child, if_neg hshort, hgone]
    rfl
  · rw [locate_child_in_directory hname hrest, if_neg hshort, if_neg hfits,
      Value.lookup_filter_self]

section

variable {rest : Files} {key : String}

theorem Lacks.hasNode (h : files.Lacks rest p name) (hnul : p.hasNul = false) :
    files.hasNode p = .ok true ∧ rest.hasNode p = .ok true := by
  obtain ⟨above, entries, hfiles, hrest⟩ := h
  unfold Files.hasNode find?
  rw [hnul, hfiles, hrest]
  exact ⟨rfl, rfl⟩

/-- What is held under other names is found as before. -/
theorem Lacks.locate_child (h : files.Lacks rest p name) (hkey : key ≠ name) (hdots : key ≠ "..") :
    rest.locate (p.child key) = files.locate (p.child key) := by
  obtain ⟨above, entries, hfiles, hrest⟩ := h
  rw [locate_child_in_directory hdots hfiles, locate_child_in_directory hdots hrest,
    Value.lookup_filter_of_ne entries hkey]

theorem Lacks.namesIn (h : files.Lacks rest p name) :
    rest.namesIn p = (files.namesIn p).filter (· != name) := by
  have hmem : ∀ key, key ∈ rest.namesIn p ↔ key ∈ (files.namesIn p).filter (· != name) := by
    intro key
    obtain ⟨above, entries, hfiles, hrest⟩ := h
    rw [List.mem_filter, mem_namesIn_iff, mem_namesIn_iff, bne_iff_ne, held?, held?, hfiles, hrest]
    by_cases hkey : key = name
    · subst hkey
      simp [Node.held?, Value.lookup_filter_self]
    · simp [Node.held?, Value.lookup_filter_of_ne entries hkey, hkey]
  exact (pairwise_namesIn rest p).eq_of_mem_iff ((pairwise_namesIn files p).filter _) hmem

end

/-- A path without two dots does not lead through an entry of where it leads to. -/
theorem locate_without_child_of_plain (hname : name ≠ "..") (hdots : ".." ∉ p.names)
    (h : files.locate (p.child name) = .ok (here, node)) :
    (files.without (p.child name)).locate p ≠ .error .missing := by
  obtain ⟨above, entries, hlocate, rfl, -⟩ := exists_directory_of_locate_child hname h
  rw [without, h]
  rw [locate_eq] at hlocate ⊢
  split at hlocate
  · cases hlocate
  · rename_i hshort
    obtain ⟨next, hnext, hfollow⟩ := exceptBind_inv hlocate
    have hplace : above = p.names.reverse ++ next.1 :=
      follow_place hdots (at?_of_look hnext) hfollow
    have hlength : next.1.length + p.names.length < (name :: above).reverse.length := by
      rw [hplace]
      simp only [List.length_reverse, List.length_cons, List.length_append]
      omega
    have hstart : files.start p = next.1 := (look_place hnext).symm
    have hbeside : ¬ (name :: above).reverse <+: (files.start p).reverse :=
      not_prefix_of_length_lt (by rw [hstart]; omega)
    rw [if_neg hshort]
    show (look (files.top.remove (name :: above).reverse) (files.start p) >>= _) ≠ _
    rw [look_remove hbeside, hnext]
    show follow (files.top.remove _) (left _ next).1 (left _ next).2 p.names ≠ _
    rw [follow_remove_of_plain hdots (at?_of_look hnext) hlength, hfollow]
    exact nofun

end Files

end Cookbook
