/-
# What a whitelist admits after any steps

A whitelist is set up step by step, and it does not remember the steps.  The rules that
count are those set since it was last replaced (`rulesSince`):

| step | the rules that count afterwards |
| --- | --- |
| a configuration file | its list of fields if it has one, and its prefixes if it has any |
| names, a test | the rules before, and this one |
| a replacement | the rules of the replacement |

`Whitelist.Follows` ties a whitelist to its rules: it has a rule if there is one, its list
is the union of the lists of names, and its test is the last test.  One rule keeps this
(`Whitelist.Follows.set`), so does a step (`Config.follows_step`), and so does a run
(`Config.follows_run`).  What is admitted can then be read off the rules (`admits_run_iff`).
-/

import SqlFilter.Config.Settings

namespace SqlFilter

/-! ### Rules and steps -/

namespace Whitelist

/-- A rule as it is set: names that are admitted, or a test. -/
inductive Rule where
  | names (names : List String)
  | test (accepts : String → Bool)

/-- The test of a rule. -/
def Rule.test? : Rule → Option (String → Bool)
  | Rule.names _ => none
  | Rule.test accepts => some accepts

/-- The test that was set last. -/
def lastTest? (rules : List Rule) : Option (String → Bool) :=
  (rules.filterMap Rule.test?).getLast?

/-- What rules admit: every field if there are none, the names of every list, and what the
last test accepts. -/
def AdmittedBy (rules : List Rule) (field : String) : Prop :=
  rules = [] ∨ (∃ names, .names names ∈ rules ∧ field ∈ names) ∨
    ∃ test, lastTest? rules = some test ∧ test field = true

/-- Sets one rule. -/
def set (w : Whitelist) : Rule → Whitelist
  | .names names => w.addNames names
  | .test accepts => w.setTest accepts

/-- The whitelist of rules that are set one after the other. -/
def ofRules (rules : List Rule) : Whitelist :=
  rules.foldl set {}

end Whitelist

/-- The rules of a configuration file: an empty list of fields is one, and no prefixes are
none. -/
def Settings.rules (file : Settings) : List Whitelist.Rule :=
  (file.whitelist.map .names).toList ++
    if file.prefixes = [] then [] else [.test (startsWithAny file.prefixes)]

namespace Config

/-- A step that changes the whitelist of a configuration. -/
inductive Step where
  | rule (rule : Whitelist.Rule)
  | replace (rules : List Whitelist.Rule)

/-- Takes one step. -/
def step (config : Config) : Step → Config
  | .rule (.names names) => config.addNames names
  | .rule (.test accepts) => config.setTest accepts
  | .replace rules => config.withWhitelist (Whitelist.ofRules rules)

/-- Takes steps one after the other. -/
def run (config : Config) (steps : List Step) : Config :=
  steps.foldl step config

end Config

/-- The rules since the last replacement; `rules` were set before the steps. -/
def rulesSince (rules : List Whitelist.Rule) : List Config.Step → List Whitelist.Rule
  | [] => rules
  | .rule rule :: steps => rulesSince (rules ++ [rule]) steps
  | .replace replaced :: steps => rulesSince replaced steps

/-! ### A whitelist and its rules -/

namespace Whitelist

variable {w : Whitelist} {rules : List Rule} {field : String}

/-- A whitelist is what its rules say. -/
structure Follows (w : Whitelist) (rules : List Rule) : Prop where
  hasRule : w.hasRule = true ↔ rules ≠ []
  listed : ∀ field, field ∈ w.fields.getD [] ↔ ∃ names, .names names ∈ rules ∧ field ∈ names
  test : w.test = lastTest? rules

theorem follows_nil : Follows {} [] where
  hasRule := by decide
  listed := by simp
  test := rfl

@[simp] theorem hasRule_addNames {names : List String} : (w.addNames names).hasRule = true :=
  rfl

@[simp] theorem hasRule_setTest {test : String → Bool} : (w.setTest test).hasRule = true :=
  Bool.or_true _

theorem lastTest?_concat_names {names : List String} :
    lastTest? (rules ++ [.names names]) = lastTest? rules := by
  simp [lastTest?, Rule.test?]

theorem lastTest?_concat_test {test : String → Bool} :
    lastTest? (rules ++ [.test test]) = some test := by
  simp [lastTest?, Rule.test?]

/-- **One more rule**, and the whitelist is what all its rules say. -/
theorem Follows.set (h : w.Follows rules) (rule : Rule) : (w.set rule).Follows (rules ++ [rule]) := by
  have hne : rules ++ [rule] ≠ [] := List.append_ne_nil_of_right_ne_nil _ (List.cons_ne_nil _ _)
  cases rule with
  | names names =>
    refine ⟨iff_of_true hasRule_addNames hne, fun field => ?_, ?_⟩
    · have hadded : field ∈ (w.addNames names).fields.getD [] ↔
          field ∈ w.fields.getD [] ∨ field ∈ names := mem_fields_addNames rfl
      simp [Whitelist.set, hadded, h.listed, or_and_right, exists_or]
    · exact h.test.trans lastTest?_concat_names.symm
  | test test =>
    refine ⟨iff_of_true hasRule_setTest hne, fun field => ?_, lastTest?_concat_test.symm⟩
    have hkept : (w.setTest test).fields = w.fields := rfl
    simp [Whitelist.set, hkept, h.listed]

/-- Rules set one after the other, from any whitelist. -/
theorem Follows.foldl_set (h : w.Follows rules) (added : List Rule) :
    (added.foldl Whitelist.set w).Follows (rules ++ added) := by
  induction added generalizing w rules with
  | nil => simpa using h
  | cons rule added ih => simpa using ih (h.set rule)

theorem follows_ofRules : (ofRules rules).Follows rules :=
  follows_nil.foldl_set rules

/-- **What is admitted can be read off the rules.** -/
theorem Follows.admits_iff (h : w.Follows rules) :
    w.admits field = true ↔ AdmittedBy rules field := by
  have hnone : w.hasRule = false ↔ rules = [] := by
    rw [← Bool.not_eq_true, h.hasRule, Decidable.not_not]
  have hlisted : (∃ names, w.fields = some names ∧ field ∈ names) ↔ field ∈ w.fields.getD [] := by
    cases w.fields <;> simp
  rw [Whitelist.admits_iff, hnone, hlisted, h.listed, h.test]
  rfl

/-- Names enlarge what a whitelist with a rule admits, by themselves. -/
theorem admits_addNames_iff (hrule : w.hasRule = true) {names : List String} :
    (w.addNames names).admits field = true ↔ w.admits field = true ∨ field ∈ names := by
  have hadded : (w.addNames names).fields.any (·.contains field) = true ↔
      w.fields.any (·.contains field) = true ∨ field ∈ names := by
    cases hw : w.fields <;> simp [addNames, hw, mem_foldl_insert]
  have htest : (w.addNames names).test = w.test := rfl
  simp only [admits, hasRule_addNames, hrule, htest, Bool.not_true, Bool.false_or, Bool.or_eq_true,
    hadded]
  exact or_right_comm

end Whitelist

/-- The whitelist of a configuration file is what the rules of the file say. -/
theorem Settings.follows_rules (file : Settings) : file.toWhitelist.Follows file.rules := by
  obtain ⟨list, prefixes, aliases⟩ := file
  cases list with
  | none =>
    have hlisted := Whitelist.follows_nil
    cases prefixes with
    | nil => exact hlisted
    | cons p prefixes => exact hlisted.set (.test (startsWithAny (p :: prefixes)))
  | some fields =>
    have hlisted := Whitelist.follows_nil.set (.names fields)
    cases prefixes with
    | nil => exact hlisted
    | cons p prefixes => exact hlisted.set (.test (startsWithAny (p :: prefixes)))

/-! ### Runs -/

namespace Config

variable {config : Config} {rules : List Whitelist.Rule}

/-- One step, from the rules before it to those after it. -/
theorem follows_step (h : config.whitelist.Follows rules) (step : Step) :
    (config.step step).whitelist.Follows (rulesSince rules [step]) := by
  cases step with
  | rule rule =>
    cases rule with
    | names names => exact h.set (.names names)
    | test accepts => exact h.set (.test accepts)
  | replace replaced => exact Whitelist.follows_ofRules

/-- **A run** keeps a whitelist to its rules, which are those since the last replacement. -/
theorem follows_run (h : config.whitelist.Follows rules) (steps : List Step) :
    (config.run steps).whitelist.Follows (rulesSince rules steps) := by
  induction steps generalizing config rules with
  | nil => exact h
  | cons step steps ih =>
    have hstep := follows_step h step
    cases step <;> exact ih hstep

/-- Lists of names, added one after the other to a whitelist with a rule. -/
theorem admits_run_names (hrule : config.whitelist.hasRule = true) (lists : List (List String))
    (field : String) :
    (config.run (lists.map fun names => .rule (.names names))).whitelist.hasRule = true ∧
      ((config.run (lists.map fun names => .rule (.names names))).whitelist.admits field = true ↔
        config.whitelist.admits field = true ∨ ∃ names ∈ lists, field ∈ names) := by
  induction lists generalizing config with
  | nil => simp [run, hrule]
  | cons names lists ih =>
    have hadded : (config.addNames names).whitelist.admits field = true ↔
        config.whitelist.admits field = true ∨ field ∈ names :=
      Whitelist.admits_addNames_iff hrule
    have hnext : (config.addNames names).whitelist.hasRule = true := Whitelist.hasRule_addNames
    obtain ⟨hkept, hadmits⟩ := ih hnext
    refine ⟨hkept, hadmits.trans ?_⟩
    simp [hadded, or_assoc]

/-- **What a whitelist admits after any steps**, from a configuration file or from nothing.
It admits a field if and only if no rule was set since the last replacement, or the field is
in one of the lists of names since then, or the last test since then accepts it; a file
counts with its list, also with an empty one, and with its prefixes, unless there are none.
So a whitelist with a rule keeps one when names are added, and admits those names besides
what it admitted, in whatever order and however often they are added. -/
theorem admits_run_iff (steps : List Step) (field : String) :
    (∀ file : Settings, (file.toConfig.run steps).whitelist.admits field = true ↔
        Whitelist.AdmittedBy (rulesSince file.rules steps) field) ∧
      (∀ config : Config, config.whitelist = {} →
        ((config.run steps).whitelist.admits field = true ↔
          Whitelist.AdmittedBy (rulesSince [] steps) field)) ∧
      ∀ config : Config, config.whitelist.hasRule = true → ∀ lists : List (List String),
        let added := config.run (lists.map fun names => .rule (.names names))
        added.whitelist.hasRule = true ∧
          (added.whitelist.admits field = true ↔
            config.whitelist.admits field = true ∨ ∃ names ∈ lists, field ∈ names) := by
  refine ⟨fun file => ?_, fun config hempty => ?_, fun config hrule lists => ?_⟩
  · have hfile : file.toConfig.whitelist.Follows file.rules := file.follows_rules
    exact (follows_run hfile steps).admits_iff
  · have hnil : config.whitelist.Follows [] := hempty ▸ Whitelist.follows_nil
    exact (follows_run hnil steps).admits_iff
  · exact admits_run_names hrule lists field

/-- A file with an empty list and a prefix. -/
def keyedFile : Settings := { whitelist := some [], prefixes := ["user."] }

/-- A test after a list: `status` is listed, and only the later test counts besides. -/
def testAfterNames : List Step :=
  [.rule (.names ["status"]), .rule (.test (·.isEmpty))]

/-- The prefix of the file no longer counts once a test is set, a replacement drops the
list as well, and a list added twice admits no more than once. -/
theorem admits_run_iff_keyedFile :
    (keyedFile.toConfig.run testAfterNames).whitelist.admits "status" = true ∧
      (keyedFile.toConfig.run testAfterNames).whitelist.admits "user.id" = false ∧
      (keyedFile.toConfig.run (testAfterNames ++ [.replace []])).whitelist.admits "user.id" = true ∧
      (keyedFile.toConfig.run
        ([["b"], ["b"]].map fun names => .rule (.names names))).whitelist.admits "a" = false := by
  have hlisted := ((admits_run_iff testAfterNames "status").1 keyedFile).2
    (.inr (.inl ⟨["status"], by simp [rulesSince, testAfterNames], by decide⟩))
  have hreplaced := ((admits_run_iff (testAfterNames ++ [.replace []]) "user.id").1 keyedFile).2
    (.inl rfl)
  have hadded := ((admits_run_iff [] "a").2.2 keyedFile.toConfig rfl [["b"], ["b"]]).2
  refine ⟨hlisted, by decide, hreplaced, Bool.eq_false_iff.2 fun h => ?_⟩
  rcases hadded.1 h with hfile | ⟨names, hnames, ha⟩
  · exact absurd hfile (by decide)
  · simp_all

end Config
end SqlFilter
