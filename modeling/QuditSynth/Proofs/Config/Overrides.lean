import QuditSynth.Config.Document
import QuditSynth.Config.Overrides

namespace QuditSynth

/-! # The last readable setting wins

A field of a configuration ends up with the value of the last setting that names
it and can be read. A setting that names no field, or whose value cannot be read,
leaves no trace, so the order matters only among settings of one name.
-/

namespace ConfigField

/-- What a field holds. -/
abbrev Value : ConfigField → Type
  | tolerance | learningRate => Float
  | maxLayers | restarts | maxIterations => Nat
  | seed => UInt64
  | parallel => Bool
  | family => Family
  | optimizer => Optimizer

def get (config : Config Float) : (field : ConfigField) → field.Value
  | tolerance => config.tolerance
  | maxLayers => config.maxLayers
  | restarts => config.restarts
  | maxIterations => config.maxIterations
  | learningRate => config.learningRate
  | seed => config.seed
  | parallel => config.parallel
  | family => config.family
  | optimizer => config.optimizer

/-- Reads a value of the field's type. -/
def read? (text : String) : (field : ConfigField) → Option field.Value
  | tolerance | learningRate => Numeral.readFloat text
  | maxLayers | restarts | maxIterations => readSize text
  | seed => (readSize text).map Nat.toUInt64
  | parallel => readBool text
  | family => readFamily text
  | optimizer => readOptimizer text

/-- The name of a field in a document. -/
def name : ConfigField → String
  | tolerance => "tolerance"
  | maxLayers => "max_layers"
  | restarts => "restarts"
  | maxIterations => "max_iterations"
  | learningRate => "learning_rate"
  | seed => "seed"
  | parallel => "parallel"
  | family => "family"
  | optimizer => "optimizer"

theorem variableName_eq (field : ConfigField) :
    field.variableName =
      "ARVAK_QUDIT_" ++ String.ofList (field.name.toList.map Char.toUpper) := by
  cases field <;> decide

theorem ofVariable?_variableName (field : ConfigField) :
    ofVariable? field.variableName = some field := by
  cases field <;> decide

theorem ofVariable?_eq_some_iff {text : String} {field : ConfigField} :
    ofVariable? text = some field ↔ text = field.variableName := by
  constructor
  · intro found
    have named := List.find?_some found
    exact (of_decide_eq_true named).symm
  · rintro rfl
    exact ofVariable?_variableName field

/-- The value that a setting has for a field, if it names the field and can be read. -/
def reading (field : ConfigField) (setting : String × String) : Option field.Value :=
  if setting.1 = field.variableName then field.read? (Text.trim setting.2) else none

theorem reading_of_name_ne {field : ConfigField} {setting : String × String}
    (other : setting.1 ≠ field.variableName) : field.reading setting = none :=
  if_neg other

theorem get_setField_self (config : Config Float) (text : String) (field : ConfigField) :
    field.get (config.setField text field) = (field.read? text).getD (field.get config) := by
  cases field <;> simp only [get, Config.setField, read?]

theorem get_setField_of_ne (config : Config Float) (text : String) {changed field : ConfigField}
    (apart : changed ≠ field) : field.get (config.setField text changed) = field.get config := by
  cases changed <;> cases field <;> simp_all [Config.setField, get]

/-- One setting gives its value to the field that it names, and to no other. -/
theorem get_override (config : Config Float) (setting : String × String) (field : ConfigField) :
    field.get (config.override setting) =
      (field.reading setting).getD (field.get config) := by
  unfold Config.override
  by_cases names : setting.1 = field.variableName
  · rw [ofVariable?_eq_some_iff.mpr names, reading, if_pos names]
    exact get_setField_self config _ field
  · rw [reading_of_name_ne names, Option.getD_none]
    cases named : ofVariable? setting.1 with
    | none => rfl
    | some changed =>
        have apart : changed ≠ field := by
          rintro rfl
          exact names (ofVariable?_eq_some_iff.mp named)
        exact get_setField_of_ne config _ apart

/-- Every field is overridden on its own. -/
theorem get_overrideAll (config : Config Float) (settings : List (String × String))
    (field : ConfigField) :
    field.get (config.overrideAll settings) =
      settings.foldl (fun value setting => (field.reading setting).getD value)
        (field.get config) := by
  induction settings generalizing config with
  | nil => rfl
  | cons setting settings ih =>
      rw [List.foldl_cons, ← get_override]
      exact ih (config.override setting)

/-- The value of the last setting that names the field and can be read. -/
def LastReading (field : ConfigField) (settings : List (String × String)) (value : field.Value) :
    Prop :=
  ∃ before setting after, settings = before ++ setting :: after ∧
    field.reading setting = some value ∧ ∀ later ∈ after, field.reading later = none

end ConfigField

namespace Config

variable {settings : List (String × String)} {field : ConfigField}

theorem eq_of_fields {first second : Config Float}
    (same : ∀ field : ConfigField, field.get first = field.get second) : first = second := by
  obtain ⟨_, _, _, _, _, _, _, _, _⟩ := first
  obtain ⟨_, _, _, _, _, _, _, _, _⟩ := second
  rw [mk.injEq]
  exact ⟨same .tolerance, same .maxLayers, same .restarts, same .maxIterations,
    same .learningRate, same .seed, same .parallel, same .family, same .optimizer⟩

theorem overrideAll_append (config : Config Float) (first second : List (String × String)) :
    config.overrideAll (first ++ second) = (config.overrideAll first).overrideAll second :=
  List.foldl_append

theorem get_overrideAll_of_unread (config : Config Float)
    (unread : ∀ setting ∈ settings, field.reading setting = none) :
    field.get (config.overrideAll settings) = field.get config := by
  induction settings generalizing config with
  | nil => rfl
  | cons setting settings ih =>
      obtain ⟨first, others⟩ := List.forall_mem_cons.mp unread
      have step := ConfigField.get_override config setting field
      rw [first, Option.getD_none] at step
      exact (ih _ others).trans step

theorem get_overrideAll_of_last (config : Config Float) {value : field.Value}
    (last : field.LastReading settings value) :
    field.get (config.overrideAll settings) = value := by
  obtain ⟨before, setting, after, rfl, read, unread⟩ := last
  rw [overrideAll_append]
  refine (get_overrideAll_of_unread ((config.overrideAll before).override setting)
    unread).trans ?_
  rw [ConfigField.get_override, read, Option.getD_some]

/-- A setting that no field can read might as well not be there. -/
theorem overrideAll_of_unread (config : Config Float) (before after : List (String × String))
    {setting : String × String} (unread : ∀ field : ConfigField, field.reading setting = none) :
    config.overrideAll (before ++ setting :: after) = config.overrideAll (before ++ after) := by
  have unchanged : (config.overrideAll before).override setting = config.overrideAll before := by
    apply eq_of_fields
    intro field
    rw [ConfigField.get_override, unread, Option.getD_none]
  rw [overrideAll_append, overrideAll_append]
  exact congrArg (overrideAll · after) unchanged

/-- A field sees the settings of its own name only. -/
theorem get_overrideAll_filter (config : Config Float) (settings : List (String × String))
    (field : ConfigField) :
    field.get (config.overrideAll (settings.filter (·.1 = field.variableName))) =
      field.get (config.overrideAll settings) := by
  rw [ConfigField.get_overrideAll, ConfigField.get_overrideAll, List.foldl_filter]
  congr 1
  funext value setting
  by_cases names : setting.1 = field.variableName
  · simp [names]
  · simp [names, ConfigField.reading_of_name_ne names]

theorem overrideAll_reordered (config : Config Float) {first second : List (String × String)}
    (same : ∀ name, first.filter (·.1 = name) = second.filter (·.1 = name)) :
    config.overrideAll first = config.overrideAll second := by
  apply eq_of_fields
  intro field
  rw [← get_overrideAll_filter, same, get_overrideAll_filter]

/-- The last setting that names a field and can be read decides about it, wherever it stands. -/
theorem overrideAll_last_wins (config : Config Float) (settings : List (String × String)) :
    ConfigField.all.map ConfigField.name = fieldNames ∧
    (∀ field : ConfigField, field.variableName =
      "ARVAK_QUDIT_" ++ String.ofList (field.name.toList.map Char.toUpper)) ∧
    (∀ (field : ConfigField) (value : field.Value), field.LastReading settings value →
      field.get (config.overrideAll settings) = value) ∧
    (∀ field : ConfigField, (∀ setting ∈ settings, field.reading setting = none) →
      field.get (config.overrideAll settings) = field.get config) ∧
    (∀ before name text after, settings = before ++ (name, text) :: after →
      (∀ field : ConfigField, name = field.variableName →
        field.read? (Text.trim text) = none) →
      config.overrideAll settings = config.overrideAll (before ++ after)) ∧
    (∀ others : List (String × String),
      (∀ name, others.filter (·.1 = name) = settings.filter (·.1 = name)) →
      config.overrideAll others = config.overrideAll settings) ∧
    ∀ later, (config.overrideAll settings).overrideAll later =
      config.overrideAll (settings ++ later) := by
  refine ⟨rfl, ConfigField.variableName_eq, fun _ _ => get_overrideAll_of_last config,
    fun _ => get_overrideAll_of_unread config, ?_, fun _ => overrideAll_reordered config,
    fun later => (overrideAll_append config settings later).symm⟩
  rintro before name text after rfl unreadable
  apply overrideAll_of_unread
  intro field
  by_cases names : name = field.variableName
  · exact (if_pos names).trans (unreadable field names)
  · exact ConfigField.reading_of_name_ne names

/-- A number that cannot be read does not undo the seed set before it. -/
theorem overrideAll_last_wins_seed :
    let settings := [("ARVAK_QUDIT_SEED", "7"), ("ARVAK_QUDIT_MAX_LAYERS", " +6\t"),
      ("ARVAK_QUDIT_SEED", "0x5eed"), ("OTHER_MAX_LAYERS", "9")]
    let swapped := [("ARVAK_QUDIT_MAX_LAYERS", " +6\t"), ("ARVAK_QUDIT_SEED", "7"),
      ("ARVAK_QUDIT_SEED", "0x5eed"), ("OTHER_MAX_LAYERS", "9")]
    (standard.overrideAll settings).seed = 7 ∧ (standard.overrideAll settings).maxLayers = 6 ∧
      (standard.overrideAll settings).restarts = 4 ∧
      standard.overrideAll swapped = standard.overrideAll settings := by
  intro settings swapped
  obtain ⟨_, _, last, kept, _, reordered, _⟩ := overrideAll_last_wins standard settings
  refine ⟨last .seed 7 ?_, last .maxLayers (6 : Nat) ?_, kept .restarts ?_, reordered swapped ?_⟩
  · exact ⟨[], _, _, rfl, by decide, by decide⟩
  · exact ⟨[_], _, _, rfl, by decide, by decide⟩
  · decide
  · intro name
    by_cases isSeed : "ARVAK_QUDIT_SEED" = name
    · subst isSeed
      decide
    · simp [swapped, settings, List.filter_cons, isSeed]

end Config
end QuditSynth
