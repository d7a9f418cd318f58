import Cookbook.Proofs.Text.Trim
import Cookbook.Settings
/-!
# Cookbook.Proofs.Settings.Origins

The origins that an environment names between commas. Those that are read are not empty, have no
comma in them and no white space at their ends (`isOrigin_of_mem_items`), and all such origins can
be named: with commas between them they are read as they are (`items_intercalate`).
-/

namespace Cookbook.Settings

/-- An origin as settings hold it: it is not empty, has no comma in it and no white space at its
ends. -/
structure IsOrigin (o : String) : Prop where
  ne_empty : o ≠ ""
  comma_not_mem : ',' ∉ o.toList
  head : ∀ c ∈ o.toList.head?, Text.isBlank c = false
  last : ∀ c ∈ o.toList.getLast?, Text.isBlank c = false

instance (o : String) : Decidable (IsOrigin o) :=
  decidable_of_iff (o ≠ "" ∧ ',' ∉ o.toList ∧ o.toList.head?.all (!Text.isBlank ·) = true ∧
      o.toList.getLast?.all (!Text.isBlank ·) = true) <| by
    simp only [Option.all_eq_true, Bool.not_eq_true']
    exact ⟨fun ⟨hne, hcomma, hhead, hlast⟩ => ⟨hne, hcomma, hhead, hlast⟩,
      fun h => ⟨h.ne_empty, h.comma_not_mem, h.head, h.last⟩⟩

variable {s o : String}

theorem isOrigin_of_mem_items (h : o ∈ items s) : IsOrigin o := by
  obtain ⟨hmem, hne⟩ := List.mem_filter.mp h
  obtain ⟨f, hf, rfl⟩ := List.mem_map.mp hmem
  have hlist : (Text.strip (String.ofList f)).toList = Text.trimBy Text.isBlank f := by
    simp only [Text.strip, String.toList_ofList]
  refine ⟨bne_iff_ne.mp hne, fun hcomma => ?_, fun c hc => ?_, fun c hc => ?_⟩
  · obtain ⟨before, after, heq, -, -⟩ := Text.exists_eq_append_trimBy Text.isBlank f
    refine Text.sep_not_mem_fields hf ?_
    rw [hlist] at hcomma
    rw [heq]
    exact List.mem_append_left _ (List.mem_append_right _ hcomma)
  · rw [hlist] at hc
    exact Text.head?_trimBy hc
  · rw [hlist] at hc
    exact Text.getLast?_trimBy hc

theorem IsOrigin.strip_eq (h : IsOrigin o) : Text.strip o = o := by
  rw [Text.strip, Text.trimBy_of_ends h.head h.last, String.ofList_toList]

/-- Origins with commas between them are read as they are. -/
theorem items_intercalate {origins : List String} (h : ∀ o ∈ origins, IsOrigin o) :
    items (",".intercalate origins) = origins := by
  cases origins with
  | nil => decide
  | cons o origins =>
      have hfields : Text.fields ',' (",".intercalate (o :: origins)).toList =
          (o :: origins).map String.toList := by
        rw [String.toList_intercalate]
        refine Text.fields_intercalate (by simp) fun f hf => ?_
        obtain ⟨o', ho', rfl⟩ := List.mem_map.mp hf
        exact (h o' ho').comma_not_mem
      have hstrip : (o :: origins).map ((fun f => Text.strip (String.ofList f)) ∘ String.toList) =
          o :: origins := by
        refine (List.map_congr_left fun o' ho' => ?_).trans (List.map_id _)
        rw [Function.comp, String.ofList_toList, (h o' ho').strip_eq, id]
      rw [items, hfields, List.map_map, hstrip, List.filter_eq_self]
      exact fun o' ho' => bne_iff_ne.mpr (h o' ho').ne_empty

end Cookbook.Settings
