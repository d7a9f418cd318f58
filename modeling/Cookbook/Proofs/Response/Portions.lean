import Cookbook.Portions
import Cookbook.Proofs.Build.Rebuild
import Cookbook.Proofs.Page
import Cookbook.Proofs.Response.Document
import Cookbook.Proofs.Response.Shown
/-!
# Cookbook.Proofs.Response.Portions

How many portions of a recipe can be asked for. Any text may be given, and what is not a positive
whole number falls back to a default, so the number of portions always has a text itself. But it is
not bounded by anything else: with it the totals grow, and a recipe of the right shape has a page
only while the numbers on it have texts, and a response only while its totals also have floating
point numbers (`page_and_response_iff`).
-/

namespace Cookbook

namespace Portions

open Text.Integer (Writable)

/-- Portions that are asked for, or their default, can be put into words. -/
theorem writable_orDefault (raw : Value) {default : Int} (h : Writable default) :
    Writable (orDefault raw default) := by
  have hrequested : ∀ n, requested? raw = some n → Writable n := by
    intro n hn
    unfold requested? at hn
    split at hn
    · cases hn
    · cases hn
    · split at hn
      · cases hn
      · exact Text.Integer.writable_read? (Option.filter_eq_some_iff.mp hn).1
  unfold orDefault
  cases hraw : requested? raw with
  | none => exact h
  | some n => exact hrequested n hraw

/-- Any positive number that has a text can be asked for. -/
theorem orDefault_repr {n : Nat} (h : Writable n) (hpos : 0 < n) (default : Int) :
    orDefault (.text (Nat.repr n)) default = n := by
  have hwrite := Text.Integer.write?_natCast h
  have hread : Text.Integer.read? (Text.strip (Nat.repr n)) = some (n : Int) := by
    rw [Text.Integer.strip_of_write? hwrite]
    exact Text.Integer.read?_of_write? hwrite
  have hrequested : requested? (.text (Nat.repr n)) = some (n : Int) := by
    show (Text.Integer.read? (Text.strip (Nat.repr n))).filter (0 < ·) = some (n : Int)
    rw [hread, Option.filter_some, if_pos (by simpa using hpos)]
  rw [orDefault, hrequested, Option.getD_some]

end Portions

theorem Settings.writable_defaultPortions (environment : Environment) :
    Text.Integer.Writable (ofEnvironment environment).defaultPortions := by
  have hone : Text.Integer.Writable 1 := Nat.one_lt_pow (by decide) (by decide)
  show Text.Integer.Writable (positiveOr 1 _)
  unfold positiveOr
  split
  · rename_i n hread
    split
    · exact Text.Integer.writable_read? hread
    · exact hone
  · exact hone

namespace Build

variable {v : Value}

theorem Built.tellable_iff {p : Int} {g : Graph} {r : Ref .recipe} (h : Built v (.int p) g r)
    (hv : isRecipe v = true) : g.Tellable r ↔ ∀ n, g.Shown r n → Text.Integer.Writable n :=
  Graph.tellable_iff (fun _ hi => h.exists_total hv hi) (fun _ hs _ hu => h.exists_scaled hv hs hu)

/-- A recipe of the right shape has a response exactly if each number that it puts into words has
few enough digits and every total has a floating point number. -/
theorem Built.ofRecipe_exists_ok_iff {p : Int} {g : Graph} {r : Ref .recipe}
    (h : Built v (.int p) g r) (hv : isRecipe v = true) (name : String) :
    (∃ a, Response.ofRecipe g name r = .ok a) ↔
      (∀ n, g.Shown r n → Text.Integer.Writable n) ∧
        ∀ i ∈ (g.recipes.get r).ingredients, ∀ n, g.total i = .ok (.int n) →
          (Decimal.ofInt? n).isSome = true := by
  have htotal : ∀ i ∈ (g.recipes.get r).ingredients, ∃ n, g.total i = .ok n := by
    intro i hi
    obtain ⟨n, hn⟩ := h.exists_total hv hi
    exact ⟨_, hn⟩
  rw [Response.ofRecipe_exists_ok_iff name h.portions_eq h.segments_ok htotal, h.tellable_iff hv]
  refine and_congr_right fun _ => ⟨?_, ?_⟩
  · intro hfloat i hi n hn
    exact Number.toFloat_exists_ok_iff.mp (hfloat i hi _ hn)
  · intro hfloat i hi number hnumber
    obtain ⟨n, hn⟩ := h.exists_total hv hi
    obtain rfl : Number.int n = number := Except.ok.inj (hn.symm.trans hnumber)
    exact Number.toFloat_exists_ok_iff.mpr (hfloat i hi n hn)

/-- **Asking for portions.** A recipe of the right shape is made for whatever portions are asked
for. Its page is shown, in every mode, exactly if each number that it puts into words has few enough
digits; its response is given exactly if in addition every total has a floating point number. -/
theorem page_and_response_iff {source : Source} {id : Value} (hv : isRecipe v = true)
    (hsource : (source id).outcome = .ok v) (environment : Environment) (raw mode : Value)
    (name : String) (g : Graph) :
    let settings := Settings.ofEnvironment environment
    let p := Portions.orDefault raw settings.defaultPortions
    ∃ ws r g', Page.load source id (.int p) g = (⟨ws, .ok r⟩, g') ∧
      ((∃ page, (Page.render source settings id (.int p) mode g).1.outcome = .ok page ∧
          page.found = true) ↔ ∀ n, g'.Shown r n → Text.Integer.Writable n) ∧
      ((∃ a, Response.ofRecipe g' name r = .ok a) ↔
        (∀ n, g'.Shown r n → Text.Integer.Writable n) ∧
          ∀ i ∈ (g'.recipes.get r).ingredients, ∀ n, g'.total i = .ok (.int n) →
            (Decimal.ofInt? n).isSome = true) := by
  intro settings p
  have hp : ∃ t, (Value.int p).write = .ok t :=
    Value.exists_writeInt_iff.mpr
      (Portions.writable_orDefault raw (Settings.writable_defaultPortions environment))
  obtain ⟨ws, r, g', hrecipe⟩ := exists_recipe hv hp g
  have hbuilt : Built v (.int p) g' r := recipe_built hrecipe
  have hload := Page.load_of_recipe hsource hrecipe
  refine ⟨_, r, g', hload, ?_, hbuilt.ofRecipe_exists_ok_iff hv name⟩
  rw [Page.found_iff_of_load hload, ← hbuilt.tellable_iff hv]
  exact Markdown.render_exists_ok_iff _ (by rw [hbuilt.portions_eq]; exact hp) hbuilt.segments_ok

/-- A source of one recipe. -/
def brineSource : Source := Source.ofRecords [("brine", brine)]

theorem page_and_response_brine :
    isRecipe brine = true ∧ (brineSource (.text "brine")).outcome = .ok brine ∧
      ∃ ws r g', Page.load brineSource (.text "brine") (.int 4) .empty = (⟨ws, .ok r⟩, g') ∧
        ((∃ page,
            (Page.render brineSource (Settings.ofEnvironment []) (.text "brine") (.int 4) .null
              .empty).1.outcome = .ok page ∧ page.found = true) ↔
          ∀ n, g'.Shown r n → Text.Integer.Writable n) ∧
        ((∃ a, Response.ofRecipe g' "brine" r = .ok a) ↔
          (∀ n, g'.Shown r n → Text.Integer.Writable n) ∧
            ∀ i ∈ (g'.recipes.get r).ingredients, ∀ n, g'.total i = .ok (.int n) →
              (Decimal.ofInt? n).isSome = true) := by
  have hshape : isRecipe brine = true := by decide
  have hsource : (brineSource (.text "brine")).outcome = .ok brine := rfl
  have hfour : Portions.orDefault (.text "4") (Settings.ofEnvironment []).defaultPortions = 4 := by
    rfl
  obtain ⟨ws, r, g', hload, hpage, hresponse⟩ :=
    page_and_response_iff hshape hsource [] (.text "4") .null "brine" .empty
  rw [hfour] at hload hpage
  exact ⟨hshape, hsource, ws, r, g', hload, hpage, hresponse⟩

/-- A one and 309 zeros: as a floating point number it overflows. -/
def immense : Nat := (10 ^ 103) ^ 3

theorem writable_immense : Text.Integer.Writable immense := by
  unfold Text.Integer.Writable
  decide +kernel

/-- So many portions can be asked for and the recipe is made for them, but it has no response. -/
theorem not_response_immense :
    isRecipe brine = true ∧ (brineSource (.text "brine")).outcome = .ok brine ∧
      ∃ g, Page.load brineSource (.text "brine")
          (.int (Portions.orDefault (.text (Nat.repr immense))
            (Settings.ofEnvironment []).defaultPortions)) .empty = (⟨[], .ok ⟨0⟩⟩, g) ∧
        ¬ ∃ a, Response.ofRecipe g "brine" ⟨0⟩ = .ok a := by
  have hshape : isRecipe brine = true := by decide
  have hone : recipeForOne brine .empty = (⟨[], .ok ⟨0⟩⟩, (recipeForOne brine .empty).2) := rfl
  have hwrite : (Value.int immense).write = .ok (Nat.repr immense) := by
    show Value.writeInt immense = _
    rw [Value.writeInt, Text.Integer.write?_natCast writable_immense]
  have hrecipe := recipe_of_recipeForOne hone (.int immense)
  rw [hwrite] at hrecipe
  have htotal : ((recipeForOne brine .empty).2.setPortions ⟨0⟩ (.int immense)).total ⟨0⟩ =
      .ok (.int (3 * immense)) := rfl
  have hfloat : (Decimal.ofInt? (3 * immense)).isSome = false := by decide +kernel
  refine ⟨hshape, rfl, (recipeForOne brine .empty).2.setPortions ⟨0⟩ (.int immense), ?_, ?_⟩
  · rw [Portions.orDefault_repr writable_immense (Nat.pow_pos (by decide))]
    exact Page.load_of_recipe rfl hrecipe
  · intro hresponse
    have hbound := ((recipe_built hrecipe).ofRecipe_exists_ok_iff hshape "brine").mp hresponse
    have hsome := hbound.2 ⟨0⟩ List.mem_cons_self _ htotal
    rw [hfloat] at hsome
    cases hsome

end Build

end Cookbook
