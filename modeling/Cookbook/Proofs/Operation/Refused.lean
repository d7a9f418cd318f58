import Cookbook.Proofs.Operation.Isolated
import Cookbook.Proofs.Operation.Settled
/-!
# Cookbook.Proofs.Operation.Refused

A recipe that is refused one of its steps. The steps of a recipe are attached one after the other,
and each of them is looked at only when it is its turn: the first step that belongs to a recipe
already ends the making, and the steps before it stay attached (`Work.attachAll_refused`). No recipe
was made, and yet these steps belong to it for good, so no other recipe can be made with them
(`recipe_refused`).
-/

namespace Cookbook

namespace Work

variable {g : Graph} {r r' : Ref .recipe} {s : Ref .step} {before after : List (Ref .step)}

theorem attach_refused (hs : (g.steps.get s).recipe = some r') (hne : r' ≠ r) :
    attach s r g =
      (Report.fail (.stepOfOtherRecipe (g.steps.get s).name (g.recipes.get r').name), g) := by
  unfold attach
  simp only [hs, if_neg hne]

/-- Attaching ends at the first step of another recipe. The steps before it stay attached, and the
steps behind it are not looked at. -/
theorem attachAll_refused
    (hfree : ∀ s' ∈ before, (g.steps.get s').recipe = none ∨ (g.steps.get s').recipe = some r)
    (hs : (g.steps.get s).recipe = some r') (hne : r' ≠ r) :
    attachAll r (before ++ s :: after) g =
      (Report.fail (.stepOfOtherRecipe (g.steps.get s).name (g.recipes.get r').name),
        { g with steps := g.steps.modifyAll before (Step.attachedTo r) }) := by
  induction before generalizing g with
  | nil =>
      rw [List.nil_append, attachAll, bind_of_error (attach_refused hs hne)]
      rfl
  | cons s' before ih =>
      obtain ⟨hs', hrest⟩ := List.forall_mem_cons.mp hfree
      -- Attaching a free step leaves the one that is not free as it is.
      have hstep : s ≠ s' := by
        rintro rfl
        rw [hs] at hs'
        rcases hs' with hnone | heq
        · cases hnone
        · exact hne (Option.some.inj heq)
      have hkept : (g.setRecipe s' r).steps.get s = g.steps.get s :=
        Shelf.get_congr (g.steps.get?_modify_of_ne _ hstep)
      have hrun := @ih (g.setRecipe s' r) (fun s'' hs'' => free_setRecipe s' (hrest s'' hs''))
        (by rw [hkept, hs])
      rw [hkept] at hrun
      rw [List.cons_append, attachAll, bind_of_ok (attach_of_free hs'), hrun]
      rfl

end Work

/-! ### Making a recipe -/

namespace Graph

/-- The graph after a recipe was refused a step: the recipe exists, and the steps before the one
that it was refused belong to it. -/
def refuse (g : Graph) (recipe : Recipe) (before : List (Ref .step)) : Graph :=
  { g with
    steps := g.steps.modifyAll before (Step.attachedTo g.recipes.next)
    recipes := g.recipes.add recipe }

/-- Steps stayed attached to a recipe that was not made. It is the next one; nothing else of what
there was has changed, so the steps belong where they did only if there are none of these. -/
structure LeftAttached (g g' : Graph) (before : List (Ref .step)) : Prop where
  attached : ∀ s ∈ before,
    g'.steps.get? s = some { g.steps.get s with recipe := some g.recipes.next }
  rest : ∀ a, g.Holds a → (∀ s ∈ before, a ≠ s.handle) → g'.object? a = g.object? a
  same_iff : (∀ s, (g'.steps.get s).recipe = (g.steps.get s).recipe) ↔ before = []

variable {g g' : Graph} {before : List (Ref .step)}

theorem LeftAttached.recipe_eq (h : LeftAttached g g' before) {s : Ref .step} (hs : s ∈ before) :
    (g'.steps.get s).recipe = some g.recipes.next := by
  rw [Shelf.get_of_get? (h.attached s hs)]

theorem get?_steps_refuse (recipe : Recipe) {s : Ref .step} (hs : s ∈ before)
    (hhas : g.steps.Has s) :
    (g.refuse recipe before).steps.get? s =
      some { g.steps.get s with recipe := some g.recipes.next } := by
  have hget := Shelf.get?_modifyAll (Step.attachedTo_attachedTo g.recipes.next) g.steps before s
  obtain ⟨step, hstep⟩ := Option.isSome_iff_exists.mp hhas
  rw [if_pos hs, hstep] at hget
  rw [Shelf.get_of_get? hstep]
  exact hget

theorem object?_refuse (recipe : Recipe) {a : Handle} (ha : g.Holds a)
    (hstep : ∀ s ∈ before, a ≠ s.handle) : (g.refuse recipe before).object? a = g.object? a := by
  obtain ⟨kind, r⟩ := a
  cases kind with
  | step =>
      have hget := Shelf.get?_modifyAll (Step.attachedTo_attachedTo g.recipes.next) g.steps before r
      rwa [if_neg fun hmem => hstep r hmem rfl] at hget
  | recipe => exact Shelf.get?_add_of_has ha recipe
  | ingredient => rfl
  | supply => rfl
  | use => rfl

theorem leftAttached_refuse (recipe : Recipe) (hhas : ∀ s ∈ before, g.steps.Has s)
    (hfree : ∀ s ∈ before, (g.steps.get s).recipe = none) :
    LeftAttached g (g.refuse recipe before) before where
  attached := fun s hs => get?_steps_refuse recipe hs (hhas s hs)
  rest := fun _ ha hstep => object?_refuse recipe ha hstep
  same_iff := by
    constructor
    · intro hsame
      refine List.eq_nil_iff_forall_not_mem.mpr fun s hs => ?_
      have hrecipe := hsame s
      rw [Shelf.get_of_get? (get?_steps_refuse recipe hs (hhas s hs)), hfree s hs] at hrecipe
      cases hrecipe
    · rintro rfl s
      rfl

/-- A recipe that a step belongs to exists. -/
theorem Closed.has_recipe (h : g.Closed) {s : Ref .step} {r : Ref .recipe}
    (hs : (g.steps.get s).recipe = some r) : g.recipes.Has r := by
  refine h s.handle r.handle (points_of_step (List.mem_append_right _ ?_))
  rw [hs]
  exact List.mem_singleton_self _

end Graph

namespace Work

variable {g : Graph} {name : String} {is : List (Ref .ingredient)} {js : List (Ref .supply)}
  {ss before after : List (Ref .step)}

theorem makeRecipe_eq_attachAll (g : Graph) (name : String) (is : List (Ref .ingredient))
    (js : List (Ref .supply)) (ss : List (Ref .step)) :
    makeRecipe name is js ss g =
      (attachAll g.recipes.next ss >>= fun _ => pure g.recipes.next)
        (g.addRecipe { name, ingredients := is, supplies := js, steps := ss }).1 := rfl

theorem makeRecipe_refused {s : Ref .step} {r : Ref .recipe}
    (hfree : ∀ s' ∈ before, (g.steps.get s').recipe = none) (hs : (g.steps.get s).recipe = some r)
    (hr : g.recipes.Has r) :
    makeRecipe name is js (before ++ s :: after) g =
      (Report.fail (.stepOfOtherRecipe (g.steps.get s).name (g.recipes.get r).name),
        g.refuse { name, ingredients := is, supplies := js, steps := before ++ s :: after }
          before) := by
  have hne : r ≠ g.recipes.next := by
    rintro rfl
    exact g.recipes.not_has_next hr
  let recipe : Recipe := { name, ingredients := is, supplies := js, steps := before ++ s :: after }
  -- The recipe that the step belongs to is not the new one, so it is found under the same name.
  have hkept : (g.addRecipe recipe).1.recipes.get r = g.recipes.get r :=
    Shelf.get_congr (Shelf.get?_add_of_has hr recipe)
  have hattach : attachAll g.recipes.next (before ++ s :: after) (g.addRecipe recipe).1 = _ :=
    attachAll_refused (fun s' hs' => .inl (hfree s' hs')) hs hne
  rw [hkept] at hattach
  rw [makeRecipe_eq_attachAll, bind_of_error hattach]
  rfl

theorem makeRecipe_of_free (hfree : ∀ s ∈ ss, (g.steps.get s).recipe = none) :
    (makeRecipe name is js ss g).1.outcome = .ok g.recipes.next := by
  let recipe : Recipe := { name, ingredients := is, supplies := js, steps := ss }
  obtain ⟨g', hattach⟩ := attachAll_of_free (g := (g.addRecipe recipe).1) (r := g.recipes.next)
    fun s hs => .inl (hfree s hs)
  rw [makeRecipe_eq_attachAll, bind_of_ok hattach]
  rfl

/-- Steps are free, or there is a first one that is not. -/
theorem free_or_first (g : Graph) (ss : List (Ref .step)) :
    (∀ s ∈ ss, (g.steps.get s).recipe = none) ∨
      ∃ before s after r, ss = before ++ s :: after ∧
        (∀ s' ∈ before, (g.steps.get s').recipe = none) ∧ (g.steps.get s).recipe = some r := by
  cases hfind : ss.find? fun s => (g.steps.get s).recipe.isSome with
  | none =>
      refine .inl fun s hs => ?_
      simpa using List.find?_eq_none.mp hfind s hs
  | some s =>
      obtain ⟨hs, before, after, heq, hbefore⟩ := List.find?_eq_some_iff_append.mp hfind
      obtain ⟨r, hr⟩ := Option.isSome_iff_exists.mp hs
      exact .inr ⟨before, s, after, r, heq, fun s' hs' => by simpa using hbefore s' hs', hr⟩

/-- A recipe can be made of some steps exactly if none of them belongs to a recipe. -/
theorem makeRecipe_ok_iff (hg : g.Closed) :
    (∃ r, (makeRecipe name is js ss g).1.outcome = .ok r) ↔
      ∀ s ∈ ss, (g.steps.get s).recipe = none := by
  constructor
  · rintro ⟨r, hr⟩
    rcases free_or_first g ss with hfree | ⟨before, s, after, r', rfl, hfree, hs⟩
    · exact hfree
    · rw [makeRecipe_refused hfree hs (hg.has_recipe hs)] at hr
      cases hr
  · exact fun hfree => ⟨g.recipes.next, makeRecipe_of_free hfree⟩

end Work

/-! ### Runs -/

namespace State

variable {x : State} {ops : List Operation} {name : String} {is : List (Ref .ingredient)}
  {js : List (Ref .supply)} {ss : List (Ref .step)}

/-- **A refused recipe keeps steps.** In every state that a run reaches, a recipe can be made of a
list of steps exactly if none of them belongs to a recipe. Otherwise it is refused at the first one
that does, which the fault names; the steps before this one are left attached, and all else is as it
was. So the steps belong where they did exactly if the first of them is the one that was refused. No
recipe can be made with a step that was left attached, whatever is done in between. -/
theorem recipe_refused (h : Run {} ops x)
    (hop : (Operation.makeRecipe name is js ss).Valid x.graph) :
    let y := x.next (.makeRecipe name is js ss)
    let outcome := (Work.makeRecipe name is js ss x.graph).1.outcome
    ((∃ r, outcome = .ok r) ↔ ∀ s ∈ ss, (x.graph.steps.get s).recipe = none) ∧
      ∀ fault, outcome = .error fault → ∃ before s after r, ss = before ++ s :: after ∧
        (∀ s' ∈ before, (x.graph.steps.get s').recipe = none) ∧
        (x.graph.steps.get s).recipe = some r ∧
        fault = .stepOfOtherRecipe (x.graph.steps.get s).name (x.graph.recipes.get r).name ∧
        x.graph.LeftAttached y.graph before ∧
        ∀ s' ∈ before, ∀ ops' z, Run y ops' z → ∀ name' is' js' ss', s' ∈ ss' →
          ∃ fault', (Work.makeRecipe name' is' js' ss' z.graph).1.outcome = .error fault' := by
  intro y outcome
  have hx : x.graph.Closed := h.closed_of_empty
  have hy : y.graph.Closed := Operation.closed hop hx
  refine ⟨Work.makeRecipe_ok_iff hx, fun fault hfault => ?_⟩
  rcases Work.free_or_first x.graph ss with hfree | ⟨before, s, after, r, rfl, hfree, hs⟩
  · cases hfault.symm.trans (Work.makeRecipe_of_free hfree)
  · have hmake : Work.makeRecipe name is js (before ++ s :: after) x.graph = _ :=
      Work.makeRecipe_refused hfree hs (hx.has_recipe hs)
    have hleft : x.graph.LeftAttached y.graph before := by
      rw [show y.graph = _ from congrArg Prod.snd hmake]
      have hvalid : ∀ s' ∈ before, x.graph.steps.Has s' :=
        fun s' hs' => hop.2.2 s' (List.mem_append_left _ hs')
      exact Graph.leftAttached_refuse _ hvalid hfree
    refine ⟨before, s, after, r, rfl, hfree, hs, ?_, hleft, ?_⟩
    · have houtcome := hfault.symm.trans (congrArg (fun run => run.1.outcome) hmake)
      exact Except.error.inj houtcome
    · intro s' hs' ops' z hrun name' is' js' ss' hmem
      -- The step belongs to the refused recipe, and so it does after the run.
      have hkept : (z.graph.steps.get s').recipe = some x.graph.recipes.next :=
        hrun.settles.recipe s' _ (hleft.recipe_eq hs')
      cases hmade : (Work.makeRecipe name' is' js' ss' z.graph).1.outcome with
      | error fault' => exact ⟨fault', rfl⟩
      | ok r' =>
          have hnone := (Work.makeRecipe_ok_iff (hrun.closed hy)).mp ⟨r', hmade⟩ s' hmem
          cases hkept.symm.trans hnone

/-- Tea is made of the first of three steps. -/
def tea : List Operation :=
  [.addStep { name := "Boil", text := "" }, .addStep { name := "Serve", text := "" },
    .addStep { name := "Wash", text := "" }, .makeRecipe "Tea" [] [] [⟨0⟩]]

/-- Soup is refused the step of tea, which is the second one of its list. -/
def refusedSoup : Operation := .makeRecipe "Soup" [] [] [⟨1⟩, ⟨0⟩, ⟨2⟩]

/-- The state when there is tea. -/
def afterTea : State := tea.foldl next {}

theorem run_tea : Run {} tea afterTea :=
  .cons (by decide) <| .cons (by decide) <| .cons (by decide) <| .cons (by decide) <| .nil afterTea

theorem valid_refusedSoup : refusedSoup.Valid afterTea.graph := by decide +kernel

theorem outcome_refusedSoup :
    (Work.makeRecipe "Soup" [] [] [⟨1⟩, ⟨0⟩, ⟨2⟩] afterTea.graph).1.outcome =
      .error (.stepOfOtherRecipe "Boil" "Tea") := rfl

theorem boil_afterTea : (afterTea.graph.steps.get ⟨0⟩).recipe = some ⟨0⟩ := rfl

theorem serve_afterTea : (afterTea.graph.steps.get ⟨1⟩).recipe = none := rfl

theorem recipe_refused_soup :
    let y := afterTea.next refusedSoup
    Run {} tea afterTea ∧ refusedSoup.Valid afterTea.graph ∧
      (Work.makeRecipe "Soup" [] [] [⟨1⟩, ⟨0⟩, ⟨2⟩] afterTea.graph).1.outcome =
        .error (.stepOfOtherRecipe "Boil" "Tea") ∧
      afterTea.graph.LeftAttached y.graph [⟨1⟩] ∧
      ∃ fault, (Work.makeRecipe "Bread" [] [] [⟨1⟩] y.graph).1.outcome = .error fault := by
  intro y
  obtain ⟨-, hrefused⟩ := recipe_refused run_tea valid_refusedSoup
  obtain ⟨before, s, after, r, hsplit, hfree, hs, -, hleft, hlost⟩ :=
    hrefused _ outcome_refusedSoup
  -- The list is split behind its first step, since the second one is the first that is not free.
  obtain rfl : before = [⟨1⟩] := by
    match before, hsplit, hfree with
    | [], hsplit, _ =>
        obtain ⟨rfl, -⟩ := List.cons.inj hsplit
        cases serve_afterTea.symm.trans hs
    | [s'], hsplit, _ => exact congrArg (fun s => [s]) (List.cons.inj hsplit).1.symm
    | s' :: s'' :: before, hsplit, hfree =>
        obtain ⟨rfl, -⟩ := List.cons.inj (List.cons.inj hsplit).2
        cases boil_afterTea.symm.trans (hfree _ (List.mem_cons_of_mem _ List.mem_cons_self))
  exact ⟨run_tea, valid_refusedSoup, outcome_refusedSoup, hleft,
    hlost ⟨1⟩ (List.mem_singleton_self _) [] y (.nil y) "Bread" [] [] [⟨1⟩]
      (List.mem_singleton_self _)⟩

/-- The step that was free before soup was refused is not free afterwards, and bread cannot be made
of it. -/
theorem not_free_soup :
    Run {} tea afterTea ∧ refusedSoup.Valid afterTea.graph ∧
      (Work.makeRecipe "Soup" [] [] [⟨1⟩, ⟨0⟩, ⟨2⟩] afterTea.graph).1.outcome =
        .error (.stepOfOtherRecipe "Boil" "Tea") ∧
      ¬ (∀ s, ((afterTea.next refusedSoup).graph.steps.get s).recipe =
        (afterTea.graph.steps.get s).recipe) ∧
      (Work.makeRecipe "Bread" [] [] [⟨1⟩] (afterTea.next refusedSoup).graph).1.outcome =
        .error (.stepOfOtherRecipe "Serve" "Soup") := by
  have hattached : ((afterTea.next refusedSoup).graph.steps.get ⟨1⟩).recipe = some ⟨1⟩ := rfl
  refine ⟨run_tea, valid_refusedSoup, outcome_refusedSoup, fun hsame => ?_, by rfl⟩
  cases hattached.symm.trans ((hsame ⟨1⟩).trans serve_afterTea)

end State

end Cookbook
