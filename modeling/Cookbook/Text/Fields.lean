/-!
# Cookbook.Text.Fields

A text as fields between separators. There is always one field more than separators, and no field
holds the separator. A text may also be cut at its first separator only.
-/

namespace Cookbook.Text

/-- The fields of a text. -/
def fields (sep : Char) : List Char → List (List Char)
  | [] => [[]]
  | c :: cs =>
    if c = sep then [] :: fields sep cs
    else
      match fields sep cs with
      | [] => [[c]]
      | f :: fs => (c :: f) :: fs

theorem fields_ne_nil (sep : Char) (cs : List Char) : fields sep cs ≠ [] := by
  cases cs with
  | nil => simp [fields]
  | cons c cs =>
    unfold fields
    split
    · simp
    · split <;> simp

/-- No field holds the separator. -/
theorem sep_not_mem_fields {sep : Char} {cs f : List Char} (h : f ∈ fields sep cs) : sep ∉ f := by
  induction cs generalizing f with
  | nil =>
    have hf : f = [] := by simpa [fields] using h
    simp [hf]
  | cons c cs ih =>
    unfold fields at h
    split at h
    · rcases List.mem_cons.1 h with rfl | h
      · simp
      · exact ih h
    · rename_i hc
      split at h
      · rename_i hnil
        exact absurd hnil (fields_ne_nil sep cs)
      · rename_i g gs hg
        rw [hg] at ih
        rcases List.mem_cons.1 h with rfl | h
        · have hg' : sep ∉ g := ih (by simp)
          simp [hg', Ne.symm hc]
        · exact ih (by simp [h])

/-- What stands before the first separator is the first field. -/
theorem fields_append {sep : Char} {f : List Char} (h : sep ∉ f) (cs : List Char) :
    fields sep (f ++ sep :: cs) = f :: fields sep cs := by
  induction f with
  | nil => simp [fields]
  | cons c f ih =>
    obtain ⟨hc, hf⟩ : sep ≠ c ∧ sep ∉ f := by simpa using h
    rw [List.cons_append, fields, if_neg (Ne.symm hc), ih hf]

theorem fields_of_not_mem {sep : Char} {f : List Char} (h : sep ∉ f) : fields sep f = [f] := by
  induction f with
  | nil => rfl
  | cons c f ih =>
    obtain ⟨hc, hf⟩ : sep ≠ c ∧ sep ∉ f := by simpa using h
    rw [fields, if_neg (Ne.symm hc), ih hf]

/-- Fields are found again between separators. -/
theorem fields_intercalate {sep : Char} {fs : List (List Char)} (hne : fs ≠ [])
    (h : ∀ f ∈ fs, sep ∉ f) : fields sep ([sep].intercalate fs) = fs := by
  induction fs with
  | nil => exact absurd rfl hne
  | cons f fs ih =>
    obtain ⟨hf, hfs⟩ := List.forall_mem_cons.1 h
    cases fs with
    | nil => rw [List.intercalate_singleton, fields_of_not_mem hf]
    | cons g gs =>
      rw [List.intercalate_cons_cons, List.append_assoc, List.singleton_append, fields_append hf,
        ih (by simp) hfs]

/-- A text before and after its first separator. -/
def cutAt (sep : Char) (cs : List Char) : List Char × Option (List Char) :=
  match cs.dropWhile (· != sep) with
  | [] => (cs, none)
  | _ :: after => (cs.takeWhile (· != sep), some after)

theorem cutAt_append {sep : Char} {before : List Char} (h : sep ∉ before) (after : List Char) :
    cutAt sep (before ++ sep :: after) = (before, some after) := by
  have hbefore : ∀ c ∈ before, (c != sep) = true := by
    intro c hc
    simp only [bne_iff_ne]
    rintro rfl
    exact h hc
  unfold cutAt
  rw [List.dropWhile_append_of_pos hbefore, List.takeWhile_append_of_pos hbefore]
  simp

end Cookbook.Text
