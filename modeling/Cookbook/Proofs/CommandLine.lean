import Cookbook.CommandLine
/-!
# Cookbook.Proofs.CommandLine

The command line that asks for a recipe is read as it was meant (`invocation_renderArgs`). The id
may be any text that does not start with a hyphen, and the portions any text at all: the value after
an equals sign is taken as it stands, whatever is in it.

The line is read twice. Before the command only the general options are known, and what follows the
command is handed on as it is (`map_fst_tokens`); the command then reads it with options of its own.
-/

namespace Cookbook.CommandLine

/-- The arguments that name a mode, if one is given. -/
def modeArgs (mode : Option String) : List String := mode.elim [] fun m => ["--mode", m]

/-- The arguments that ask for a recipe for some portions. -/
def renderArgs (id portions : String) (mode : Option String) : List String :=
  ["render", id, "--portions=" ++ portions] ++ modeArgs mode

/-! ### Single arguments -/

theorem token?_word (names : List String) {arg : String} (h : arg.toList.head? ≠ some '-') :
    token? names arg = some .word := by
  unfold token?
  cases hcs : arg.toList with
  | nil => rfl
  | cons c cs =>
      have hc : c ≠ '-' := by simpa [hcs] using h
      dsimp only
      split
      · rename_i heq
        exact absurd (List.cons.inj heq).1 hc
      · rename_i heq
        exact absurd (List.cons.inj heq).1 hc
      · rename_i heq
        exact absurd (List.cons.inj heq).1 hc
      · rfl

section Option

variable {names : List String} {name : String}

/-- What an argument is whose name is none of the names: the option whose name it starts, if there
is exactly one. -/
def abbreviated (names : List String) (arg : List Char) (name : String) (value : List Char) :
    Option Token :=
  match names.filter fun n => (Text.after? name.toList n.toList).isSome with
  | [n] => some (named n (some value))
  | _ :: _ :: _ => none
  | [] => some (if arg.contains ' ' then .word else .unknown)

/-- What stands before an equals sign is looked for among the names; the whole argument is none of
them, since they hold no equals sign. -/
theorem token?_equals (hplain : ∀ n ∈ helpName :: names, '=' ∉ n.toList)
    (hname : '=' ∉ name.toList) (hdash : ['-', '-'] <+: name.toList) (value : String) :
    token? names (name ++ "=" ++ value) =
      if (helpName :: names).contains name then some (named name (some value.toList))
      else abbreviated (helpName :: names) (name ++ "=" ++ value).toList name value.toList := by
  obtain ⟨rest, hrest⟩ := hdash
  have hcs : (name ++ "=" ++ value).toList = '-' :: '-' :: (rest ++ '=' :: value.toList) := by
    simp [String.toList_append, ← hrest]
  have hsplit : Text.cutAt '=' ('-' :: '-' :: (rest ++ '=' :: value.toList)) =
      (name.toList, some value.toList) := by
    rw [← Text.cutAt_append hname value.toList, ← hrest]
    rfl
  have hwhole : (helpName :: names).contains (name ++ "=" ++ value) = false := by
    rw [List.contains_eq_mem, decide_eq_false_iff_not]
    intro hmem
    exact hplain _ hmem (by simp [String.toList_append])
  unfold token?
  simp only [hcs, hsplit, hwhole, String.ofList_toList, Option.isSome_some, Bool.and_true,
    Bool.false_eq_true, if_false]
  rfl

/-- An option takes the value after its equals sign as it stands. -/
theorem token?_value (hplain : ∀ n ∈ helpName :: names, '=' ∉ n.toList) (hmem : name ∈ names)
    (hhelp : name ≠ helpName) (hdash : ['-', '-'] <+: name.toList) (value : String) :
    token? names (name ++ "=" ++ value) = some (.option name (some value)) := by
  have hmem' : name ∈ helpName :: names := List.mem_cons_of_mem _ hmem
  rw [token?_equals hplain (hplain name hmem') hdash, if_pos (List.contains_iff_mem.mpr hmem')]
  simp [named, hhelp]

end Option

/-! ### Several arguments -/

theorem map_fst_tokens {names : List String} {args : List String} {ts : List (String × Token)}
    (h : tokens? names args = some ts) : ts.map (·.1) = args := by
  induction args generalizing ts with
  | nil =>
      cases h
      rfl
  | cons arg args ih =>
      unfold tokens? at h
      split at h
      · cases h
        simp [Function.comp_def]
      · obtain ⟨token, -, h⟩ := Option.bind_eq_some_iff.mp h
        obtain ⟨rest, hrest, h⟩ := Option.bind_eq_some_iff.mp h
        cases h
        rw [List.map_cons, ih hrest]

theorem tokens?_cons {names : List String} {arg : String} {args : List String} {token : Token}
    {ts : List (String × Token)} (hsep : arg ≠ "--") (htoken : token? names arg = some token)
    (hts : tokens? names args = some ts) :
    tokens? names (arg :: args) = some ((arg, token) :: ts) := by
  unfold tokens?
  simp [hsep, htoken, hts]

theorem tokens?_word_cons {names : List String} {arg : String} {args : List String}
    {ts : List (String × Token)} (h : arg.toList.head? ≠ some '-')
    (hts : tokens? names args = some ts) :
    tokens? names (arg :: args) = some ((arg, .word) :: ts) := by
  refine tokens?_cons ?_ (token?_word names h) hts
  rintro rfl
  exact h (by decide)

/-! ### The arguments of rendering -/

variable {id : String} {mode : Option String}

theorem mode_cases (h : ∀ m ∈ mode, m ∈ ["simple", "completo"]) :
    mode = none ∨ mode = some "simple" ∨ mode = some "completo" := by
  cases mode with
  | none => exact Or.inl rfl
  | some m => simpa using h m rfl

theorem equals_portions (portions : String) :
    "--portions=" ++ portions = "--portions" ++ "=" ++ portions := rfl

theorem portions_ne_separator (portions : String) : "--portions=" ++ portions ≠ "--" := by
  intro h
  have hlength := congrArg String.length h
  have hname : "--portions=".length = 11 := by decide
  have hseparator : "--".length = 2 := by decide
  rw [String.length_append] at hlength
  omega

/-- The arguments that ask for a recipe, as the options of rendering read them. -/
def renderTokens (id portions : String) (mode : Option String) : List (String × Token) :=
  [(id, .word), ("--portions=" ++ portions, .option "--portions" (some portions))] ++
    mode.elim [] fun m => [("--mode", .option "--mode" none), (m, .word)]

theorem tokens?_renderOptions (hid : id.toList.head? ≠ some '-')
    (hmode : ∀ m ∈ mode, m ∈ ["simple", "completo"]) (portions : String) :
    tokens? (renderOptions.map (·.1)) ([id, "--portions=" ++ portions] ++ modeArgs mode) =
      some (renderTokens id portions mode) := by
  have hvalue : token? (renderOptions.map (·.1)) ("--portions=" ++ portions) =
      some (.option "--portions" (some portions)) := by
    rw [equals_portions]
    exact token?_value (by decide) (by decide) (by decide) (by decide) portions
  have hrest : tokens? (renderOptions.map (·.1)) (modeArgs mode) =
      some (mode.elim [] fun m => [("--mode", .option "--mode" none), (m, .word)]) := by
    rcases mode_cases hmode with rfl | rfl | rfl <;> decide +kernel
  exact tokens?_word_cons hid (tokens?_cons (portions_ne_separator portions) hvalue hrest)

/-- What is read of the arguments; the mode was given last. -/
theorem readCommand_renderTokens (hmode : ∀ m ∈ mode, m ∈ ["simple", "completo"])
    (portions : String) :
    readCommand renderOptions 1 {} (renderTokens id portions mode) = .ok {
      values := (mode.toList.map fun m => ("--mode", m)) ++ [("--portions", portions)]
      word := some id } := by
  rcases mode_cases hmode with rfl | rfl | rfl <;> rfl

theorem request_renderArgs (hid : id.toList.head? ≠ some '-')
    (hmode : ∀ m ∈ mode, m ∈ ["simple", "completo"]) (portions : String) :
    request "render" ([id, "--portions=" ++ portions] ++ modeArgs mode) =
      .ok (.render id (some portions) mode none) := by
  have hcommand : command renderOptions 1 ([id, "--portions=" ++ portions] ++ modeArgs mode) =
      .ok {
        values := (mode.toList.map fun m => ("--mode", m)) ++ [("--portions", portions)]
        word := some id } := by
    unfold command
    rw [tokens?_renderOptions hid hmode]
    dsimp only
    rw [readCommand_renderTokens hmode]
    rfl
  unfold request
  rw [hcommand]
  cases mode <;> rfl

/-- The general options are not those of rendering: what stands before the equals sign is the start
of none of them, so the argument is passed over. -/
theorem exists_token?_generalOptions (portions : String) :
    ∃ token, token? (generalOptions.map (·.1)) ("--portions=" ++ portions) = some token := by
  rw [equals_portions, token?_equals (by decide) (by decide) (by decide), if_neg (by decide)]
  exact ⟨_, rfl⟩

theorem exists_tokens?_generalOptions (hid : id.toList.head? ≠ some '-')
    (hmode : ∀ m ∈ mode, m ∈ ["simple", "completo"]) (portions : String) :
    ∃ ts, tokens? (generalOptions.map (·.1)) (renderArgs id portions mode) =
      some (("render", .word) :: ts) := by
  obtain ⟨token, htoken⟩ := exists_token?_generalOptions portions
  have hrest : tokens? (generalOptions.map (·.1)) (modeArgs mode) =
      some (mode.elim [] fun m => [("--mode", .unknown), (m, .word)]) := by
    rcases mode_cases hmode with rfl | rfl | rfl <;> decide +kernel
  exact ⟨_, tokens?_word_cons (by decide)
    (tokens?_word_cons hid (tokens?_cons (portions_ne_separator portions) htoken hrest))⟩

/-- **The command line that asks for a recipe is read as it was meant**, whatever its id and its
portions are. -/
theorem invocation_renderArgs (hid : id.toList.head? ≠ some '-')
    (hmode : ∀ m ∈ mode, m ∈ ["simple", "completo"]) (portions : String) :
    invocation (renderArgs id portions mode) =
      .ok ⟨none, .render id (some portions) mode none⟩ := by
  obtain ⟨ts, hts⟩ := exists_tokens?_generalOptions hid hmode portions
  have hargs : "render" :: ts.map (·.1) = renderArgs id portions mode := map_fst_tokens hts
  have hrest : ts.map (·.1) = [id, "--portions=" ++ portions] ++ modeArgs mode :=
    (List.cons.inj hargs).2
  unfold invocation
  rw [hts]
  dsimp only [readGeneral]
  rw [hrest, request_renderArgs hid hmode]
  rfl

end Cookbook.CommandLine
