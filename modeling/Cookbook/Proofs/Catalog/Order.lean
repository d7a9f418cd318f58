import Mathlib.Data.String.Basic
import Cookbook.Proofs.Catalog.Agreement
/-!
# Cookbook.Proofs.Catalog.Order

The order of a listing from the scan. Files are read in the order of their names, and a name is an
id with an ending. Of two ids that part at some character the names part there too. So the only ids
that can stand in another order than their names are one and what it goes on to: then the next
character of the longer id stands against the dot of the ending. Hyphen and line end are the
characters of ids below the dot (`GoesOn`), and nothing else is out of order (`scan_order_iff`).
-/

namespace Cookbook.Catalog

variable {c : Catalog} {files : Files} {entries : List IndexEntry} {a b : String}

/-! ### Ids with an ending -/

/-- What comes first with an ending comes first without it, unless it goes on from the other one. -/
theorem lt_or_prefix_of_append_lt {cs ds e : List Char} (h : cs ++ e < ds ++ e) :
    cs < ds ∨ ds <+: cs := by
  induction ds generalizing cs with
  | nil => exact .inr List.nil_prefix
  | cons d ds ih =>
      cases cs with
      | nil => exact .inl (List.nil_lt_cons d ds)
      | cons c cs =>
          rw [List.cons_append, List.cons_append, List.cons_lt_cons_iff] at h
          rcases h with hlt | ⟨rfl, hrest⟩
          · exact .inl (List.cons_lt_cons_iff.mpr (.inl hlt))
          · rcases ih hrest with hlt | hprefix
            · exact .inl (List.cons_lt_cons_iff.mpr (.inr ⟨rfl, hlt⟩))
            · exact .inr (List.cons_prefix_cons.mpr ⟨rfl, hprefix⟩)

theorem lt_of_append_lt {cs ds e : List Char} (h : cs ++ ds < cs ++ e) : ds < e := by
  induction cs with
  | nil => exact h
  | cons c cs ih =>
      rcases List.cons_lt_cons_iff.mp h with hlt | ⟨-, hrest⟩
      · exact absurd hlt (lt_irrefl c)
      · exact ih hrest

/-- A line end is the last character of an id, if it has one. -/
theorem LetThrough.eq_nil_of_lineEnd (h : LetThrough a) {cs ds : List Char}
    (ha : a.toList = cs ++ '\n' :: ds) : ds = [] := by
  rcases h with h | ⟨cs', h, hcs'⟩
  · exact absurd (by simp [ha]) h.lineEnd_not_mem
  · rcases List.eq_nil_or_concat' ds with rfl | ⟨ds, d, rfl⟩
    · rfl
    · have hinit : cs' ++ ['\n'] = (cs ++ '\n' :: ds) ++ [d] := by
        rw [← hcs', ha, List.append_assoc, List.cons_append]
      obtain ⟨rfl, -⟩ := List.append_inj' hinit rfl
      exact absurd (by simp) h.lineEnd_not_mem

/-- The characters of ids that come before the dot. -/
theorem LetThrough.lt_dot (h : LetThrough a) {d : Char} (hd : d ∈ a.toList) (hdot : d < '.') :
    d = '-' ∨ d = '\n' := by
  refine (h.mem hd).imp_left fun hchar => ?_
  unfold isIdChar isIdStart at hchar
  simp only [Bool.or_eq_true, Bool.and_eq_true, decide_eq_true_eq, beq_iff_eq] at hchar
  rcases hchar with (⟨hlow, -⟩ | ⟨hlow, -⟩) | rfl
  · exact absurd (hdot.trans_le (le_trans (by decide) hlow)) (lt_irrefl d)
  · exact absurd (hdot.trans_le (le_trans (by decide) hlow)) (lt_irrefl d)
  · rfl

/-! ### Ids out of order -/

/-- An id goes on from another one with a hyphen or a line end. -/
def GoesOn (a b : String) : Prop := (∃ s, a = b ++ "-" ++ s) ∨ a = b ++ "\n"

theorem goesOn_iff (ha : LetThrough a) :
    GoesOn a b ↔ ∃ d ds, a.toList = b.toList ++ d :: ds ∧ d < '.' := by
  constructor
  · rintro (⟨s, rfl⟩ | rfl)
    · exact ⟨'-', s.toList, by simp [String.toList_append], by decide⟩
    · exact ⟨'\n', [], by simp [String.toList_append], by decide⟩
  · rintro ⟨d, ds, hds, hdot⟩
    rcases ha.lt_dot (by simp [hds]) hdot with rfl | rfl
    · refine .inl ⟨String.ofList ds, ?_⟩
      rw [← String.toList_inj, hds]
      simp [String.toList_append]
    · obtain rfl := ha.eq_nil_of_lineEnd hds
      refine .inr ?_
      rw [← String.toList_inj, hds, String.toList_append]
      rfl

/-- What an id goes on to comes after it as a text, and before it as the name of a file. -/
theorem GoesOn.lt_and_append_lt (ha : LetThrough a) (h : GoesOn a b) :
    b < a ∧ a ++ ending < b ++ ending := by
  obtain ⟨d, ds, hds, hdot⟩ := (goesOn_iff ha).mp h
  rw [String.lt_iff_toList_lt, String.lt_iff_toList_lt, String.toList_append,
    String.toList_append, hds]
  constructor
  · have hlonger : b.toList ++ [] < b.toList ++ d :: ds :=
      List.append_left_lt (List.nil_lt_cons d ds)
    rwa [List.append_nil] at hlonger
  · rw [List.append_assoc]
    exact List.append_left_lt (List.cons_lt_cons_iff.mpr (.inl hdot))

/-- Where one name comes before another one, so does the id, unless it goes on from the other
one. -/
theorem lt_iff_not_goesOn (ha : LetThrough a) (h : a ++ ending < b ++ ending) :
    a < b ↔ ¬ GoesOn a b := by
  refine ⟨fun hlt hgoes => lt_asymm hlt (hgoes.lt_and_append_lt ha).1, fun hgoes => ?_⟩
  rw [String.lt_iff_toList_lt, String.toList_append, String.toList_append] at h
  rcases lt_or_prefix_of_append_lt h with hlt | ⟨ds, hds⟩
  · exact String.lt_iff_toList_lt.mpr hlt
  · -- Behind the common part the ending of the other name begins, with its dot.
    have hending : ending.toList = '.' :: "json".toList := by decide
    rw [← hds, List.append_assoc] at h
    have hrest := lt_of_append_lt h
    cases ds with
    | nil => exact absurd hrest (lt_irrefl _)
    | cons d ds =>
        have hd : d ∈ a.toList := by simp [← hds]
        rw [hending, List.cons_append, List.cons_lt_cons_iff] at hrest
        rcases hrest with hdot | ⟨rfl, -⟩
        · exact absurd ((goesOn_iff ha).mpr ⟨d, ds, hds.symm, hdot⟩) hgoes
        · exact absurd (ha.mem hd) (by decide)

/-! ### The listing -/

/-- **The scan lists in the order of the names of the files.** No id is listed twice, and one comes
before another one if and only if its name does, with the ending. This is the order of the ids as
texts for all pairs but one that goes on from the other, with a hyphen or a line end; so the ids are
ascending exactly if there is no such pair. -/
theorem scan_order_iff (h : (c.scan files).outcome = .ok entries) :
    let ids := entries.map (·.id)
    ids.Nodup ∧ ids.Pairwise (fun a b => a ++ ending < b ++ ending) ∧
      ids.Pairwise (fun a b => a < b ↔ ¬ GoesOn a b) ∧
      (ids.Pairwise (· < ·) ↔ ∀ a ∈ ids, ∀ b ∈ ids, ¬ GoesOn a b) := by
  intro ids
  have hlists := lists_of_scan h
  have hnames : ids.Pairwise fun a b => a ++ ending < b ++ ending := pairwise_ids hlists
  have hthrough : ∀ id ∈ ids, LetThrough id := by
    intro id hid
    obtain ⟨entry, hentry, rfl⟩ := List.mem_map.mp hid
    refine isId_iff.mp (isId_of_lists hlists (fun name hname => ?_) entry hentry)
    exact isId_of_scannedNames (List.mem_filter.mp hname).1
  have hpairs : ids.Pairwise fun a b => a < b ↔ ¬ GoesOn a b :=
    hnames.imp_of_mem fun ha _ hlt => lt_iff_not_goesOn (hthrough _ ha) hlt
  refine ⟨hnames.imp ?_, hnames, hpairs, fun hascending => ?_, fun hnone => ?_⟩
  · rintro id _ hlt rfl
    exact lt_irrefl _ hlt
  · have hforth : ids.Pairwise fun a b => ¬ GoesOn a b :=
      (hpairs.and hascending).imp fun ⟨hiff, hlt⟩ => hiff.mp hlt
    -- What goes on from an id is listed before it, so nothing that is listed later does.
    have hback : ids.Pairwise fun a b => ¬ GoesOn b a :=
      hnames.imp_of_mem fun _ hb hlt hgoes =>
        lt_asymm hlt (hgoes.lt_and_append_lt (hthrough _ hb)).2
    have hself : ∀ id ∈ ids, ¬ GoesOn id id :=
      fun id hid hgoes => lt_irrefl id (hgoes.lt_and_append_lt (hthrough id hid)).1
    exact hforth.forall_of_forall_of_flip hself hback
  · exact hpairs.imp_of_mem fun ha hb hiff => hiff.mpr (hnone _ ha _ hb)

/-- A catalog without an index, with two recipes of which one goes on from the other. -/
def coldTeaFiles : Files where
  top := .directory [("data", .directory [("recipes", .directory
    [("tea-cold.json", .file [0x7B, 0x7D]), ("tea.json", .file [0x7B, 0x7D])])])]

theorem scan_coldTea : ((ofDataDir "data").scan coldTeaFiles).outcome =
    .ok [⟨"tea-cold", "tea-cold"⟩, ⟨"tea", "tea"⟩] := by
  have hdirectory : coldTeaFiles.hasNode (ofDataDir "data").directory = .ok true := rfl
  have hrecipes : (ofDataDir "data").recipeNames coldTeaFiles = ["tea-cold.json", "tea.json"] := by
    have hnames : coldTeaFiles.namesIn (ofDataDir "data").directory =
        ["tea-cold.json", "tea.json"] := Node.names_of_pairwise (by decide)
    unfold recipeNames
    rw [hnames]
    decide +kernel
  have hcold : readValue coldTeaFiles ((ofDataDir "data").directory.child "tea-cold.json") =
      .ok (.ok (.record [])) := rfl
  have htea : readValue coldTeaFiles ((ofDataDir "data").directory.child "tea.json") =
      .ok (.ok (.record [])) := rfl
  have hstem : Path.stem "tea-cold.json" = "tea-cold" ∧ Path.stem "tea.json" = "tea" := by
    decide +kernel
  unfold scan
  rw [hdirectory, hrecipes]
  simp only [scanFiles, scanFile, hcold, htea, hstem]
  rfl

/-- The id that goes on from the other one is listed first. -/
theorem scan_order_iff_coldTea :
    ((ofDataDir "data").scan coldTeaFiles).outcome =
        .ok [⟨"tea-cold", "tea-cold"⟩, ⟨"tea", "tea"⟩] ∧
      "tea-cold" ++ ending < "tea" ++ ending ∧ GoesOn "tea-cold" "tea" ∧
      ¬ ["tea-cold", "tea"].Pairwise (· < ·) := by
  obtain ⟨-, hnames, -, hascending⟩ := scan_order_iff scan_coldTea
  have hgoes : GoesOn "tea-cold" "tea" := .inl ⟨"cold", by decide⟩
  have hname : "tea-cold" ++ ending < "tea" ++ ending :=
    List.rel_of_pairwise_cons hnames (List.mem_singleton_self _)
  refine ⟨scan_coldTea, hname, hgoes, fun h => ?_⟩
  exact hascending.mp h "tea-cold" (by simp) "tea" (by simp) hgoes

/-- The ids of a scan need not be ascending. -/
theorem not_ascending_coldTea :
    ¬ ∀ (c : Catalog) (files : Files) (entries : List IndexEntry),
      (c.scan files).outcome = .ok entries → (entries.map (·.id)).Pairwise (· < ·) := by
  intro h
  have hpair : "tea-cold" < "tea" := List.pairwise_pair.mp (h _ _ _ scan_coldTea)
  exact absurd hpair (by decide)

end Cookbook.Catalog
