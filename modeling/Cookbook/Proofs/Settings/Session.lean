import Mathlib.Data.List.Induction
import Cookbook.Proofs.Settings.Origins
import Cookbook.Proofs.Settings.Portions
import Cookbook.Proofs.Value.Path
/-!
# Cookbook.Proofs.Settings.Session

What a session answers when it is asked for the settings. The environment may change, the settings
may be cleared and they may be called for, in any order (`Event`). A call gives what was decided by
the environment at the first call since the settings were last cleared (`FirstCall`), whatever has
changed since (`answer_exact`).

The invariant is what a session keeps (`Keeps`): nothing, if every call was followed by a clear, and
otherwise the settings of that first call. It is proved for one event (`keeps_next`) and from that
for a history of any length (`keeps_after`).
-/

namespace Cookbook

/-! ### Variables -/

namespace Environment

variable {e : Environment} {name other : String}

theorem get_set_self (e : Environment) (name value default : String) :
    (e.set name value).get name default = value := by
  rw [get, set, List.lookup_cons_self, Option.getD_some]

theorem get_set_of_ne (h : other ≠ name) (value default : String) :
    (e.set name value).get other default = e.get other default := by
  rw [get, set, List.lookup_cons, beq_false_of_ne h, unset, Value.lookup_filter_of_ne _ h]
  rfl

end Environment

namespace Session

/-! ### Histories -/

/-- Something that happens in a session. -/
inductive Event
  | change (f : Environment → Environment)
  | clear
  | call

/-- What an event does to the environment. -/
def Event.alter : Event → Environment → Environment
  | change f => f
  | clear | call => id

/-- The environment after a history that began in another one. -/
def environmentAfter (e : Environment) (history : List Event) : Environment :=
  history.foldl (fun e event => event.alter e) e

/-- The session after an event. -/
def next (s : Session) : Event → Session
  | .change f => s.change f
  | .clear => s.clear
  | .call => s.keep

/-- The session after a history that began with nothing read in an environment. -/
def after (e : Environment) (history : List Event) : Session :=
  history.foldl next { environment := e }

/-- What a call gives after a history. -/
def answer (e : Environment) (history : List Event) : Settings := (after e history).settings

/-- Every call of a history was followed by a clear. -/
def Forgotten (history : List Event) : Prop :=
  ∀ past since, history = past ++ .call :: since → .clear ∈ since

/-- What happened before the first call since the last clear, or since the beginning if there was
none, where a call follows a history. It may be that first call itself; if it is not, then the first
call was not followed by a clear, but all calls before it were. -/
inductive FirstCall (history : List Event) : List Event → Prop
  | self (h : Forgotten history) : FirstCall history history
  | earlier {past since : List Event} (heq : history = past ++ .call :: since) (h : Forgotten past)
      (hsince : .clear ∉ since) : FirstCall history past

variable {e : Environment} {s : Session} {history past past' : List Event} {event : Event}

/-- A call without a clear after it is not forgotten by any history that goes on from it. -/
theorem eq_nil_of_forgotten {between since rest : List Event} (h : Forgotten (past ++ between))
    (hsince : .clear ∉ since) (heq : .call :: since = between ++ rest) : between = [] := by
  cases between with
  | nil => rfl
  | cons first between =>
      obtain ⟨rfl, rfl⟩ := List.cons.inj heq
      exact absurd (List.mem_append_left _ (h past between rfl)) hsince

/-- There is only one first call. -/
theorem FirstCall.unique (h : FirstCall history past) (h' : FirstCall history past') :
    past = past' := by
  cases h with
  | self hforgotten =>
      cases h' with
      | self _ => rfl
      | earlier heq _ hsince => exact absurd (hforgotten _ _ heq) hsince
  | earlier heq hpast hsince =>
      cases h' with
      | self hforgotten => exact absurd (hforgotten _ _ heq) hsince
      | earlier heq' hpast' hsince' =>
          -- One of the two calls is not before the other: a clear would have to come between them.
          rcases List.append_eq_append_iff.mp (heq.symm.trans heq') with
            ⟨between, rfl, hrest⟩ | ⟨between, rfl, hrest⟩
          · rw [eq_nil_of_forgotten hpast' hsince hrest, List.append_nil]
          · rw [eq_nil_of_forgotten hpast hsince' hrest, List.append_nil]

/-! ### What a session keeps -/

theorem forgotten_nil : Forgotten [] := by
  intro past since heq
  simp at heq

/-- A call in a history with one event more is that event, or was in the history. -/
theorem concat_cases {since : List Event} (heq : history ++ [event] = past ++ .call :: since) :
    (event = .call ∧ since = []) ∨
      ∃ since', since = since' ++ [event] ∧ history = past ++ .call :: since' := by
  rcases List.eq_nil_or_concat since with rfl | ⟨since', last, rfl⟩
  · obtain ⟨-, h⟩ := List.append_inj' heq rfl
    exact Or.inl ⟨List.singleton_inj.mp h, rfl⟩
  · rw [List.concat_eq_append, ← List.cons_append, ← List.append_assoc] at heq
    obtain ⟨hhistory, hlast⟩ := List.append_inj' heq rfl
    obtain rfl := List.singleton_inj.mp hlast
    exact Or.inr ⟨since', List.concat_eq_append, hhistory⟩

theorem Forgotten.concat (h : Forgotten history) (hne : event ≠ .call) :
    Forgotten (history ++ [event]) := by
  intro past since heq
  rcases concat_cases heq with ⟨hcall, -⟩ | ⟨since', rfl, hhistory⟩
  · exact absurd hcall hne
  · exact List.mem_append_left _ (h past since' hhistory)

theorem forgotten_concat_clear (history : List Event) : Forgotten (history ++ [.clear]) := by
  intro past since heq
  rcases concat_cases heq with ⟨hcall, -⟩ | ⟨since', rfl, -⟩
  · cases hcall
  · exact List.mem_append_right _ (List.mem_singleton_self _)

/-- What is kept after a history: nothing, or the settings of the first call. -/
inductive Keeps (e : Environment) (history : List Event) : Option Settings → Prop
  | nothing (h : Forgotten history) : Keeps e history none
  | settings {past since : List Event} (heq : history = past ++ .call :: since) (h : Forgotten past)
      (hsince : .clear ∉ since) :
      Keeps e history (some (Settings.ofEnvironment (environmentAfter e past)))

/-- What is kept stays through all events but a clear, and nothing is kept before a call. -/
theorem Keeps.concat {kept? : Option Settings} (h : Keeps e history kept?) (hclear : event ≠ .clear)
    (hcall : kept? = none → event ≠ .call) : Keeps e (history ++ [event]) kept? := by
  cases h with
  | nothing h => exact .nothing (h.concat (hcall rfl))
  | @settings past since heq h hsince =>
      have hconcat : history ++ [event] = past ++ .call :: (since ++ [event]) := by
        rw [heq, List.append_assoc, List.cons_append]
      refine .settings hconcat h fun hmem => ?_
      rcases List.mem_append.mp hmem with hmem | hmem
      · exact hsince hmem
      · exact hclear (List.mem_singleton.mp hmem).symm

theorem environmentAfter_concat (e : Environment) (history : List Event) (event : Event) :
    environmentAfter e (history ++ [event]) = event.alter (environmentAfter e history) := by
  rw [environmentAfter, List.foldl_append]
  rfl

theorem after_concat (e : Environment) (history : List Event) (event : Event) :
    after e (history ++ [event]) = (after e history).next event := by
  rw [after, List.foldl_append]
  rfl

theorem environment_next (s : Session) (event : Event) :
    (s.next event).environment = event.alter s.environment := by
  cases event with
  | change f => rfl
  | clear => rfl
  | call => rfl

theorem environment_after (e : Environment) (history : List Event) :
    (after e history).environment = environmentAfter e history := by
  induction history using List.reverseRecOn with
  | nil => rfl
  | append_singleton history event ih =>
      rw [after_concat, environment_next, ih, environmentAfter_concat]

/-- One event: what the session keeps goes on to be what it should keep. -/
theorem keeps_next (henv : s.environment = environmentAfter e history)
    (h : Keeps e history s.cached) : Keeps e (history ++ [event]) (s.next event).cached := by
  cases event with
  | change f => exact h.concat Event.noConfusion fun _ => Event.noConfusion
  | clear => exact .nothing (forgotten_concat_clear history)
  | call =>
      show Keeps e _ (some s.settings)
      rw [settings]
      cases hcached : s.cached with
      | none =>
          rw [hcached] at h
          cases h with
          | nothing hforgotten =>
              rw [Option.getD_none, henv]
              exact .settings rfl hforgotten List.not_mem_nil
      | some kept =>
          rw [hcached] at h
          exact h.concat Event.noConfusion nofun

/-- A history of any length. -/
theorem keeps_after (e : Environment) (history : List Event) :
    Keeps e history (after e history).cached := by
  induction history using List.reverseRecOn with
  | nil => exact .nothing forgotten_nil
  | append_singleton history event ih =>
      rw [after_concat]
      exact keeps_next (environment_after e history) ih

/-- A call gives what the environment decided at the first call. -/
theorem exists_firstCall (e : Environment) (history : List Event) :
    ∃ past, FirstCall history past ∧
      answer e history = Settings.ofEnvironment (environmentAfter e past) := by
  have hkeeps := keeps_after e history
  rw [answer, settings]
  generalize (after e history).cached = cached at hkeeps
  cases hkeeps with
  | nothing h =>
      refine ⟨history, .self h, ?_⟩
      rw [Option.getD_none, environment_after]
  | settings heq h hsince => exact ⟨_, .earlier heq h hsince, rfl⟩

theorem answer_of_forgotten (h : Forgotten history) :
    answer e history = Settings.ofEnvironment (environmentAfter e history) := by
  obtain ⟨past, hfirst, hanswer⟩ := exists_firstCall e history
  rw [hanswer, hfirst.unique (.self h)]

/-! ### Which settings calls give -/

/-- What holds of the settings that any environment decides on. -/
structure Sound (s : Settings) : Prop where
  one_le_defaultPortions : 1 ≤ s.defaultPortions
  isOrigin : ∀ o ∈ s.corsOrigins, Settings.IsOrigin o

theorem sound_ofEnvironment (e : Environment) : Sound (Settings.ofEnvironment e) :=
  ⟨Portions.defaultPortions_pos e, fun _ ho => Settings.isOrigin_of_mem_items ho⟩

/-- Set the portions and the origins of the environment, and clear the settings. -/
def renew (portions : String) (origins : List String) : List Event :=
  [.change (·.set "RIZZIPES_DEFAULT_PORTIONS" portions),
    .change (·.set "CORS_ORIGINS" (",".intercalate origins)), .clear]

theorem environmentAfter_renew (e : Environment) (history : List Event) (portions : String)
    (origins : List String) :
    environmentAfter e (history ++ renew portions origins) =
      ((environmentAfter e history).set "RIZZIPES_DEFAULT_PORTIONS" portions).set "CORS_ORIGINS"
        (",".intercalate origins) := by
  rw [environmentAfter, List.foldl_append]
  rfl

theorem forgotten_renew (history : List Event) (portions : String) (origins : List String) :
    Forgotten (history ++ renew portions origins) := by
  have hforgotten := forgotten_concat_clear (history ++ (renew portions origins).dropLast)
  rw [List.append_assoc] at hforgotten
  exact hforgotten

/-- Any positive number with a text and any origins are given by the first call after they were
set. -/
theorem answer_renew {n : Int} {portions : String} {origins : List String} (hpos : 1 ≤ n)
    (hportions : Text.Integer.write? n = some portions)
    (horigins : ∀ o ∈ origins, Settings.IsOrigin o) :
    (answer e (history ++ renew portions origins)).defaultPortions = n ∧
      (answer e (history ++ renew portions origins)).corsOrigins = origins := by
  rw [answer_of_forgotten (forgotten_renew history portions origins), environmentAfter_renew]
  constructor
  · rw [Settings.ofEnvironment, Environment.get_set_of_ne (by decide), Environment.get_set_self]
    exact Settings.positiveOr_of_read? (Text.Integer.read?_of_write? hportions) hpos
  · rw [Settings.ofEnvironment, Environment.get_set_self]
    exact Settings.items_intercalate horigins

/-- **A call gives what the environment decided at the first call.** A call of a session follows
some history. There is exactly one first call since the last clear in it, or since the beginning,
and what the call gives is what the environment of that time decides, whatever has changed since.
The portions are always positive and the origins well formed, and beyond that anything can come:
after every history, the first call gives the portions and the origins that were set before it. -/
theorem answer_exact (e : Environment) (history : List Event) :
    (∃ past, (∀ p, FirstCall history p ↔ p = past) ∧
        answer e history = Settings.ofEnvironment (environmentAfter e past)) ∧
      Sound (answer e history) ∧
      ∀ (n : Int) (portions : String) (origins : List String), 1 ≤ n →
        Text.Integer.write? n = some portions → (∀ o ∈ origins, Settings.IsOrigin o) →
          (answer e (history ++ renew portions origins)).defaultPortions = n ∧
            (answer e (history ++ renew portions origins)).corsOrigins = origins := by
  obtain ⟨past, hfirst, hanswer⟩ := exists_firstCall e history
  refine ⟨⟨past, fun p => ?_, hanswer⟩, ?_, fun n portions origins => answer_renew⟩
  · exact ⟨fun h => h.unique hfirst, fun h => h ▸ hfirst⟩
  · rw [hanswer]
    exact sound_ofEnvironment _

/-- A history in which the portions are changed after a call. -/
def changedPortions : List Event :=
  [.change (·.set "RIZZIPES_DEFAULT_PORTIONS" "4"), .call,
    .change (·.set "RIZZIPES_DEFAULT_PORTIONS" "7")]

/-- The change is not seen before the settings are cleared. -/
theorem answer_exact_changedPortions :
    (answer [] changedPortions).defaultPortions = 4 ∧
      (answer [] (changedPortions ++ renew "7" ["a", "b"])).defaultPortions = 7 ∧
      (answer [] (changedPortions ++ renew "7" ["a", "b"])).corsOrigins = ["a", "b"] := by
  obtain ⟨⟨past, hfirst, hanswer⟩, -, hrenew⟩ := answer_exact [] changedPortions
  have hnone : Forgotten [.change (·.set "RIZZIPES_DEFAULT_PORTIONS" "4")] :=
    forgotten_nil.concat Event.noConfusion
  obtain rfl := (hfirst _).mp (.earlier rfl hnone (by simp))
  refine ⟨?_, hrenew 7 "7" ["a", "b"] (by decide) (by decide) (by decide)⟩
  rw [hanswer]
  decide

end Session

end Cookbook
