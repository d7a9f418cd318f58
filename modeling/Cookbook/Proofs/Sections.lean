import Cookbook.Markdown
import Cookbook.Proofs.Response.Document
/-!
# Cookbook.Proofs.Sections

The sections of a document do not depend on each other. What a section adds to a document
(`addition`) comes from the recipe and from the title of the section; which other sections are shown
does not enter into it. So a document is its title block with what the shown sections add, in a
fixed order (`render_showing`), and the same sections make the same document however a profile lists
them (`render_by_section`).
-/

namespace Cookbook

namespace Section

/-- The sections in the order of a document. -/
def all : List Section := [portions, supplies, ingredients, steps]

theorem mem_all (s : Section) : s ∈ all := by cases s <;> decide

theorem filter_key_singleton (s : Section) : (all.filter fun s' => s'.key ∈ [s.key]) = [s] := by
  cases s <;> decide

theorem filter_key_all : (all.filter fun s => s.key ∈ all.map key) = all := by decide

theorem filter_key_simple :
    (all.filter fun s => s.key ∈ ["ingredients", "steps"]) = [ingredients, steps] := by decide

end Section

namespace Profile

/-- The profile with other sections to show, under the same titles. -/
def showing (p : Profile) (ks : List String) : Profile := { p with shown := .keys ks }

theorem showing_of_shown {p : Profile} {ks : List String} (h : p.shown = .keys ks) :
    p.showing ks = p := by
  rw [showing, ← h]

theorem title_showing (p : Profile) (ks : List String) : (p.showing ks).title = p.title := rfl

/-- The two profiles differ in what they show, and not in a title. -/
theorem title_simple (s : Section) : simple.title s = complete.title s := by
  cases s <;> decide +kernel

end Profile

namespace Markdown

variable {g : Graph} {profile : Profile} {r : Ref .recipe} {ks : List String} {doc : String}

/-! ### What a section adds -/

/-- What a section adds to a document that shows it: nothing if the recipe has nothing for it. -/
def addition (g : Graph) (profile : Profile) (recipe : Recipe) (s : Section) :
    Except Fault String :=
  if hasSection recipe s then sectionText g recipe (profile.title s) s else .ok ""

theorem shownSection_showing (g : Graph) (profile : Profile) (ks : List String) (recipe : Recipe)
    (s : Section) :
    shownSection g (profile.showing ks) recipe s =
      if s.key ∈ ks then addition g profile recipe s else .ok "" := by
  unfold shownSection addition
  rw [Profile.title_showing, Profile.showing]
  by_cases hkey : s.key ∈ ks <;> simp [Shown.shows, hkey] <;> rfl

/-- Texts are joined alike whether those of some items are empty or left out. -/
theorem join_mapM_filter {α : Type} (f : α → Except Fault String) (p : α → Prop) [DecidablePred p]
    (xs : List α) :
    (xs.mapM fun x => if p x then f x else .ok "").map String.join =
      ((xs.filter p).mapM f).map String.join := by
  induction xs with
  | nil => rfl
  | cons x xs ih =>
      have hcons : ∀ (first : Except Fault String) (rest : Except Fault (List String)),
          (do return (← first) :: (← rest)).map String.join =
            (do return (← first) ++ (← rest.map String.join)) := by
        intro first rest
        cases first <;> cases rest <;> simp [Except.map, bind, Except.bind, pure, Except.pure]
      rw [List.mapM_cons, hcons, ih]
      by_cases hx : p x
      · rw [List.filter_cons_of_pos (by simpa using hx), List.mapM_cons, hcons, if_pos hx]
      · rw [List.filter_cons_of_neg (by simpa using hx), if_neg hx]
        cases (xs.filter p).mapM f <;> simp [Except.map, bind, Except.bind, pure, Except.pure]

/-- A document is its title block with what the shown sections add. -/
theorem render_showing (g : Graph) (profile : Profile) (ks : List String) (r : Ref .recipe) :
    render g (profile.showing ks) r =
      ((Section.all.filter fun s => s.key ∈ ks).mapM (addition g profile (g.recipes.get r))).map
        fun texts => heading "#" (g.recipes.get r).name ++ String.join texts := by
  have hshown : shownSection g (profile.showing ks) (g.recipes.get r) = fun s =>
      if s.key ∈ ks then addition g profile (g.recipes.get r) s else .ok "" :=
    funext fun s => shownSection_showing g profile ks _ s
  have hjoin := join_mapM_filter (addition g profile (g.recipes.get r)) (·.key ∈ ks) Section.all
  have hrender : render g (profile.showing ks) r =
      ((Section.all.mapM (shownSection g (profile.showing ks) (g.recipes.get r))).map
        String.join).map (heading "#" (g.recipes.get r).name ++ ·) := by
    unfold render
    show (Section.all.mapM _ >>= fun sections => _) = _
    cases Section.all.mapM (shownSection g (profile.showing ks) (g.recipes.get r)) <;> rfl
  rw [hrender, hshown, hjoin]
  cases (Section.all.filter fun s => s.key ∈ ks).mapM (addition g profile (g.recipes.get r)) <;> rfl

/-! ### Documents by section -/

/-- The block at the top of every document of a recipe. -/
def titleBlock (g : Graph) (r : Ref .recipe) : String := "# " ++ (g.recipes.get r).name ++ "\n\n"

/-- A document of one section is the title block with what that section adds. -/
theorem render_showing_singleton (g : Graph) (profile : Profile) (s : Section) (r : Ref .recipe) :
    render g (profile.showing [s.key]) r =
      (addition g profile (g.recipes.get r) s).map (titleBlock g r ++ ·) := by
  have hblock : heading "#" (g.recipes.get r).name = titleBlock g r := rfl
  rw [render_showing, Section.filter_key_singleton, hblock]
  cases hadds : addition g profile (g.recipes.get r) s with
  | error fault => simp [List.mapM_cons, hadds, Except.map, bind, Except.bind]
  | ok t => simp [List.mapM_cons, hadds, Except.map, bind, Except.bind, pure, Except.pure]

theorem render_of_additions {part : Section → String}
    (h : ∀ s : Section, s.key ∈ ks → addition g profile (g.recipes.get r) s = .ok (part s)) :
    render g (profile.showing ks) r =
      .ok (titleBlock g r ++ String.join ((Section.all.filter fun s => s.key ∈ ks).map part)) := by
  have hall : (Section.all.filter fun s => s.key ∈ ks).mapM (addition g profile (g.recipes.get r)) =
      .ok ((Section.all.filter fun s => s.key ∈ ks).map part) := by
    refine exceptMapM_eq_ok_iff.mpr (List.forall₂_map_right_iff.mpr (List.forall₂_same.mpr ?_))
    intro s hs
    exact h s (by simpa using (List.mem_filter.mp hs).2)
  rw [render_showing, hall]
  rfl

/-- Where a document can be made, each section that it shows adds some text. -/
theorem exists_additions (h : render g (profile.showing ks) r = .ok doc) :
    ∃ part : Section → String,
      ∀ s : Section, s.key ∈ ks → addition g profile (g.recipes.get r) s = .ok (part s) := by
  rw [render_showing] at h
  have htexts : ∃ texts, (Section.all.filter fun s => s.key ∈ ks).mapM
      (addition g profile (g.recipes.get r)) = .ok texts := exceptMap_exists_ok_iff.mp ⟨doc, h⟩
  refine ⟨fun s => (addition g profile (g.recipes.get r) s).toOption.getD "", fun s hkey => ?_⟩
  have hmem : s ∈ Section.all.filter fun s => s.key ∈ ks :=
    List.mem_filter.mpr ⟨s.mem_all, by simpa using hkey⟩
  obtain ⟨t, ht⟩ := exceptMapM_exists_ok_iff.mp htexts s hmem
  simp only [ht, Except.toOption, Option.getD_some]

/-- The two profiles have the same titles, so a section adds the same to either document. -/
theorem addition_simple (g : Graph) (recipe : Recipe) :
    addition g .simple recipe = addition g .complete recipe := by
  funext s
  rw [addition, Profile.title_simple, addition]

/-- **A document consists of its sections.** A document that can be made is the title block with the
texts of the sections that the profile lists, in one order, and the text of a section is what
follows the title block where that section is shown alone. So neither the order of the keys in a
profile nor their repetition counts, nor do other keys, and the simple document is the complete one
without the portions and the supplies. -/
theorem render_by_section (hshown : profile.shown = .keys ks) (h : render g profile r = .ok doc) :
    (∃ part : Section → String,
      (∀ s : Section, s.key ∈ ks →
        render g (profile.showing [s.key]) r = .ok (titleBlock g r ++ part s)) ∧
      doc = titleBlock g r ++
        String.join (([.portions, .supplies, .ingredients, .steps].filter fun s : Section =>
          s.key ∈ ks).map part)) ∧
      (∀ ks', (∀ s : Section, s.key ∈ ks' ↔ s.key ∈ ks) →
        render g (profile.showing ks') r = .ok doc) ∧
      ∀ doc', render g .complete r = .ok doc' →
        ∃ part : Section → String,
          (∀ s : Section,
            render g (Profile.complete.showing [s.key]) r = .ok (titleBlock g r ++ part s)) ∧
          doc' = titleBlock g r ++
            (part .portions ++ part .supplies ++ part .ingredients ++ part .steps) ∧
          render g .simple r = .ok (titleBlock g r ++ (part .ingredients ++ part .steps)) := by
  rw [← Profile.showing_of_shown hshown] at h
  refine ⟨?_, ?_, ?_⟩
  · obtain ⟨part, hpart⟩ := exists_additions h
    refine ⟨part, fun s hkey => ?_, ?_⟩
    · rw [render_showing_singleton, hpart s hkey]
      rfl
    · rw [render_of_additions hpart] at h
      exact (Except.ok.inj h).symm
  · intro ks' hsame
    rw [← h, render_showing, render_showing]
    simp only [hsame]
  · intro doc' h'
    have hcomplete :
        render g (Profile.complete.showing (Section.all.map Section.key)) r = .ok doc' := h'
    obtain ⟨part, hpart⟩ := exists_additions hcomplete
    have hadds : ∀ s : Section, addition g .complete (g.recipes.get r) s = .ok (part s) :=
      fun s => hpart s (List.mem_map_of_mem s.mem_all)
    have hsimple : render g (Profile.simple.showing ["ingredients", "steps"]) r =
        .ok (titleBlock g r ++ String.join
          ((Section.all.filter fun s => s.key ∈ ["ingredients", "steps"]).map part)) :=
      render_of_additions fun s _ => by rw [addition_simple, hadds s]
    refine ⟨part, fun s => ?_, ?_, ?_⟩
    · rw [render_showing_singleton, hadds s]
      rfl
    · rw [render_of_additions hpart] at hcomplete
      rw [← Except.ok.inj hcomplete, Section.filter_key_all]
      simp [Section.all, String.append_assoc]
    · rw [Profile.showing_of_shown rfl] at hsimple
      rw [hsimple, Section.filter_key_simple]
      simp

/-- A profile that lists two sections, one of them twice, and what is no section, under a blank
title. -/
def stepsAndPortions : Profile where
  id := "custom"
  mode := "custom"
  label := "Custom"
  shown := .keys ["steps", "wine", "portions", "steps"]
  titles := [("steps", some " ")]

theorem render_by_section_brine :
    let g := (Build.recipe Build.brine (.int 4) .empty).2
    let doc := "# Brine\n\n**Portions**: 4\n\n## Steps\n\n### 1: Boil\n\n" ++
      "Boil <u>12 g Salt</u> in <u>Pan</u>.\n\n"
    stepsAndPortions.shown = .keys ["steps", "wine", "portions", "steps"] ∧
      render g stepsAndPortions ⟨0⟩ = .ok doc ∧
      ∃ portions steps,
        render g (stepsAndPortions.showing ["portions"]) ⟨0⟩ = .ok (titleBlock g ⟨0⟩ ++ portions) ∧
        render g (stepsAndPortions.showing ["steps"]) ⟨0⟩ = .ok (titleBlock g ⟨0⟩ ++ steps) ∧
        doc = titleBlock g ⟨0⟩ ++ (portions ++ steps) := by
  intro g doc
  have hrender : render g stepsAndPortions ⟨0⟩ = .ok doc := by decide +kernel
  obtain ⟨⟨part, hpart, hdoc⟩, -, -⟩ := render_by_section rfl hrender
  exact ⟨rfl, hrender, part .portions, part .steps, hpart .portions (by decide),
    hpart .steps (by decide), hdoc⟩

end Markdown

end Cookbook
