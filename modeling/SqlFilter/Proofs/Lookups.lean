/-
# What a filter looks up

A leaf goes to the configuration for four things: whether its field is admitted, what its
predicate and its alias stand for, and, if its operator is not built in, which operation
has that name.  Two leaves that find the same things, each in its own configuration,
compile alike (`Leaf.SameLookups.run_compile`), and so do two filters with such leaves
(`Node.run_mapLeaves`).  Two laws follow.

**An alias is a name for an operand.**  Writing the operand in its place, wherever the alias
is configured, and forgetting the alias elsewhere, gives a filter that compiles as before
and has no more use for aliases (`Leaf.substitute`, `compile_substitutes_aliases`).

**What a filter does not name has no part in it** (`compile_reads_named_entries`).  Two
configurations are as good as one another for a filter if they agree on the entries that
its leaves name (`Config.AgreesOn`).  A built-in operator comes before an operation of the
same name, so such an operation is never found.
-/

import SqlFilter.Proofs.Ranges
import SqlFilter.Proofs.Recording
import SqlFilter.Proofs.Silence

namespace SqlFilter

variable {σ : Type}

/-! ### Leaves -/

/-- What `other` finds in `config'` is what `leaf` finds in `config`, and otherwise the two
leaves ask for the same.  An operand is only looked for if there is an operator to use it. -/
structure Leaf.SameLookups (config : Config) (leaf : Leaf) (config' : Config) (other : Leaf) :
    Prop extends leaf.SameField other where
  members : other.members = leaf.members
  operator : other.operator = leaf.operator
  admits : leaf.field ≠ "" →
    config'.whitelist.admits leaf.field = config.whitelist.admits leaf.field
  wrapper : ∀ name, leaf.predicate = some name →
    config'.predicates.find? name = config.predicates.find? name
  operand : leaf.members = [] → leaf.operator ≠ "" →
    other.effectiveOperand config' = leaf.effectiveOperand config
  operation : Operator.ofName? leaf.operator = none →
    config'.operations.find? leaf.operator = config.operations.find? leaf.operator

namespace Leaf.SameLookups

variable {config config' : Config} {leaf other : Leaf}
  (h : leaf.SameLookups config config' other)
include h

theorem wrap_eq (field : FieldExpr) :
    wrap config' other.predicate field = wrap config leaf.predicate field := by
  rw [h.predicate]
  cases hp : leaf.predicate with
  | none => rfl
  | some name => simp only [wrap, h.wrapper name hp]

theorem request_eq (field : FieldExpr) :
    other.request config' field = leaf.request config field := by
  rw [request, request, h.members, h.operator]
  by_cases hm : leaf.members = []
  · by_cases ho : leaf.operator = ""
    · rw [hm, ho]
      rfl
    · rw [planOperator, planOperator, h.operator, h.operand hm ho]
      cases hop : Operator.ofName? leaf.operator with
      | some op => rfl
      | none => rw [h.operation hop]
  · rw [if_pos (by simpa using hm), if_pos (by simpa using hm)]

/-- **Leaves that find the same things** compile alike. -/
theorem run_compile (d : Dialect σ) (s : σ) :
    (other.compile d config').run s = (leaf.compile d config).run s := by
  have hplan : other.plan (d.resolve s) config' = leaf.plan (d.resolve s) config := by
    rw [plan_eq, plan_eq, expression, expression, h.field, funext h.request_eq, funext h.wrap_eq]
    by_cases hf : leaf.field = ""
    · rw [if_pos (by simpa using hf), if_pos (by simpa using hf)]
    · rw [h.admits hf]
  rw [Leaf.run_compile, Leaf.run_compile, hplan]

end Leaf.SameLookups

/-! ### Filters -/

mutual

/-- A filter with its leaves changed. -/
def Node.mapLeaves (f : Leaf → Leaf) : Node → Node
  | .leaf leaf => .leaf (f leaf)
  | .group glue rules => .group glue (mapLeavesAll f rules)

/-- Several filters with their leaves changed. -/
def mapLeavesAll (f : Leaf → Leaf) : List Node → List Node
  | [] => []
  | node :: nodes => node.mapLeaves f :: mapLeavesAll f nodes

end

theorem Node.mapLeaves_id (node : Node) : node.mapLeaves id = node := by
  induction node with
  | leaf leaf => rw [mapLeaves]; rfl
  | group glue rules ih =>
    have hall : mapLeavesAll id rules = rules := by
      induction rules with
      | nil => rw [mapLeavesAll]
      | cons rule rules ihr =>
        rw [mapLeavesAll, ih rule (List.mem_cons_self ..),
          ihr fun r hr => ih r (List.mem_cons_of_mem _ hr)]
    rw [mapLeaves, hall]

/-- **Filters whose leaves find the same things** compile alike. -/
theorem Node.run_mapLeaves {config config' : Config} {f : Leaf → Leaf} {node : Node}
    (h : ∀ leaf ∈ node.leaves, leaf.SameLookups config config' (f leaf)) (d : Dialect σ) (s : σ) :
    ((node.mapLeaves f).compile d config').run s = (node.compile d config).run s := by
  induction node generalizing s with
  | leaf leaf =>
    rw [mapLeaves, run_compile_leaf, run_compile_leaf]
    exact (h leaf (List.mem_singleton.2 rfl)).run_compile d s
  | group glue rules ih =>
    have hrule := fun rule hr => ih rule hr (forall_leaves_of_mem h hr)
    have hall : ∀ s, (compileAll d config' (mapLeavesAll f rules)).run s =
        (compileAll d config rules).run s := by
      clear h ih
      induction rules with
      | nil => intro s; rw [mapLeavesAll]; rfl
      | cons rule rules ihr =>
        intro s
        rw [mapLeavesAll, run_compileAll_cons, run_compileAll_cons,
          hrule rule (List.mem_cons_self ..)]
        simp only [ihr fun r hr => hrule r (List.mem_cons_of_mem _ hr)]
    rw [mapLeaves, run_compile_group, run_compile_group, hall]

/-- A leaf can stand for another one, anywhere in a filter, that finds the same things. -/
theorem Leaf.SameLookups.sameCompilation {config : Config} {leaf other : Leaf}
    (h : leaf.SameLookups config config other) (outside : Surroundings) (d : Dialect σ) :
    SameCompilation d config (outside.fill (.leaf leaf)) config (outside.fill (.leaf other)) := by
  refine .of_run (fun d s => outside.run_fill_congr (fun s => ?_) s) d
  rw [Node.run_compile_leaf, Node.run_compile_leaf]
  exact (h.run_compile d s).symm

/-! ### Aliases -/

/-- A leaf with the operand that its alias stands for written in it, if the alias is
configured, and without its alias. -/
def Leaf.substitute (config : Config) (leaf : Leaf) : Leaf :=
  match leaf.aliasName.bind config.aliases.find? with
  | some entry => { leaf with operand := some entry, aliasName := none }
  | none => { leaf with aliasName := none }

/-- A filter with the operands that its aliases stand for written in it. -/
def Node.substitute (config : Config) (node : Node) : Node :=
  node.mapLeaves (·.substitute config)

namespace Leaf

variable {config : Config} {leaf : Leaf}

/-- Another operand and another alias make no difference to a leaf that does not use its
operand, or has the same one in the end. -/
theorem sameLookups_of_operand {aliases : Registry Operand} {operand : Option Operand}
    {aliasName : Option String}
    (h : leaf.members = [] → leaf.operator ≠ "" →
      { leaf with operand, aliasName }.effectiveOperand { config with aliases } =
        leaf.effectiveOperand config) :
    leaf.SameLookups config { config with aliases } { leaf with operand, aliasName } where
  field := rfl
  predicate := rfl
  members := rfl
  operator := rfl
  admits _ := rfl
  wrapper _ _ := rfl
  operand := h
  operation _ := rfl

/-- What is written in the place of an alias is the operand that the leaf has in the end. -/
theorem substitute_eq (config : Config) (leaf : Leaf) :
    leaf.substitute config =
      { leaf with operand := leaf.effectiveOperand config, aliasName := none } := by
  rw [substitute, effectiveOperand]
  cases leaf.aliasName.bind config.aliases.find? <;> rfl

/-- A leaf without its alias finds the same things, whatever aliases there are. -/
theorem sameLookups_substitute (config : Config) (aliases : Registry Operand) (leaf : Leaf) :
    leaf.SameLookups config { config with aliases } (leaf.substitute config) := by
  rw [substitute_eq]
  exact sameLookups_of_operand fun _ _ => rfl

end Leaf

/-- **An alias is a name for an operand.**  A filter compiles, in every dialect and whatever
is configured, as the filter does in which the aliases have been replaced by the operands
they stand for, and that filter compiles alike whatever aliases are left in the
configuration.  A configured alias hides the operand of its leaf, also if it stands for
`NULL`, for an empty list or for a range without bounds.  Neither the operand nor the alias
of a leaf matters if it has membership values or no operator. -/
theorem compile_substitutes_aliases (d : Dialect σ) (config : Config) :
    (∀ node aliases,
        SameCompilation d config node { config with aliases } (node.substitute config)) ∧
      (∀ (outside : Surroundings) (leaf : Leaf) (operand : Option Operand) (name : String)
          (entry : Operand), leaf.aliasName = some name →
        config.aliases.find? name = some entry →
          SameCompilation d config (outside.fill (.leaf { leaf with operand })) config
            (outside.fill (.leaf { leaf with operand := some entry, aliasName := none }))) ∧
      ∀ (outside : Surroundings) (leaf : Leaf) (operand : Option Operand)
          (aliasName : Option String), leaf.members ≠ [] ∨ leaf.operator = "" →
        SameCompilation d config (outside.fill (.leaf leaf)) config
          (outside.fill (.leaf { leaf with operand, aliasName })) := by
  refine ⟨fun node aliases => ?_, fun outside leaf operand name entry hname hentry => ?_,
    fun outside leaf operand aliasName hunused => ?_⟩
  · exact .of_run (fun d s => (Node.run_mapLeaves
      (fun leaf _ => leaf.sameLookups_substitute config aliases) d s).symm) d
  · have heff : { leaf with operand }.effectiveOperand config = some entry := by
      simp [Leaf.effectiveOperand, hname, hentry]
    have hsame : { leaf with operand }.SameLookups config config
        { leaf with operand := some entry, aliasName := none } :=
      Leaf.sameLookups_of_operand fun _ _ => heff.symm
    exact hsame.sameCompilation outside d
  · have hsame : leaf.SameLookups config config { leaf with operand, aliasName } :=
      Leaf.sameLookups_of_operand fun hm ho => absurd hunused (by simp [hm, ho])
    exact hsame.sameCompilation outside d

/-- Aliases that stand for little. -/
def hollow : Config where
  aliases := ⟨[("null", .scalar .null), ("nobody", .list []), ("ever", .range none none)]⟩

/-- A leaf with an operand of its own behind an alias. -/
def hollowLeaf (name : String) : Leaf where
  field := "a"
  operator := "equal"
  operand := some (.scalar (.int 5))
  aliasName := some name

/-- Of four operands of their own, the one whose alias is not configured is used, and the
one behind an empty list is not even missed when there are membership values. -/
theorem compile_substitutes_aliases_hollow :
    SameCompilation postgres hollow
        (.group .and [.leaf (hollowLeaf "null"), .leaf (hollowLeaf "other")]) {}
        (.group .and [.leaf { field := "a", operator := "equal", operand := some (.scalar .null) },
          .leaf { field := "a", operator := "equal", operand := some (.scalar (.int 5)) }]) ∧
      compile postgres hollow (.leaf (hollowLeaf "nobody")) 0 =
        (.error (.wrongCount "equal" 1 0), 0) ∧
      compile postgres hollow (.leaf { hollowLeaf "nobody" with includes := some [.int 1] }) 0 =
        (.ok ⟨"a IN($1)", [.int 1]⟩, 1) := by
  obtain ⟨hall, hhidden, hunused⟩ := compile_substitutes_aliases postgres hollow
  have hnobody := hhidden .here (hollowLeaf "nobody") (some (.scalar (.int 5))) "nobody" (.list [])
    rfl rfl
  have hincludes := hunused .here { hollowLeaf "nobody" with includes := some [.int 1] } none none
    (.inl (by simp [Leaf.members]))
  exact ⟨hall _ {}, (hnobody.compile_eq 0).trans rfl, (hincludes.compile_eq 0).trans rfl⟩

/-! ### Entries -/

/-- Two configurations are as good as one another for a filter: they agree on the entries
that the leaves of the filter name. -/
structure Config.AgreesOn (config config' : Config) (node : Node) : Prop where
  admits : ∀ leaf ∈ node.leaves, leaf.field ≠ "" →
    config'.whitelist.admits leaf.field = config.whitelist.admits leaf.field
  predicates : ∀ leaf ∈ node.leaves, ∀ name, leaf.predicate = some name →
    config'.predicates.find? name = config.predicates.find? name
  aliases : ∀ leaf ∈ node.leaves, ∀ name, leaf.aliasName = some name →
    config'.aliases.find? name = config.aliases.find? name
  operations : ∀ leaf ∈ node.leaves, Operator.ofName? leaf.operator = none →
    config'.operations.find? leaf.operator = config.operations.find? leaf.operator

/-- Filters compile alike where the entries they name are the same. -/
theorem Config.AgreesOn.sameCompilation {config config' : Config} {node : Node}
    (h : config.AgreesOn config' node) (d : Dialect σ) :
    SameCompilation d config node config' node := by
  have hleaf : ∀ leaf ∈ node.leaves, leaf.SameLookups config config' (id leaf) := by
    intro leaf hl
    refine ⟨⟨rfl, rfl⟩, rfl, rfl, h.admits leaf hl, h.predicates leaf hl, fun _ _ => ?_,
      h.operations leaf hl⟩
    show leaf.effectiveOperand config' = leaf.effectiveOperand config
    rw [Leaf.effectiveOperand, Leaf.effectiveOperand]
    cases halias : leaf.aliasName with
    | none => rfl
    | some name => simp only [Option.bind_some, h.aliases leaf hl name halias]
  refine .of_run (fun d s => ?_) d
  have hrun := Node.run_mapLeaves hleaf d s
  rw [Node.mapLeaves_id] at hrun
  exact hrun.symm

/-- Two registries have the same entries, but for names of which `touched` holds: there
entries may have been set, replaced or removed. -/
def Registry.SameBut {α : Type} (touched : String → Prop) (r r' : Registry α) : Prop :=
  ∀ name, ¬touched name → r'.find? name = r.find? name

/-- Setting an entry touches its name only. -/
theorem Registry.sameBut_insert {α : Type} {touched : String → Prop} {name : String}
    (h : touched name) (r : Registry α) (entry : α) : r.SameBut touched (r.insert name entry) := by
  intro other hother
  refine r.find?_insert_of_ne ?_ entry
  rintro rfl
  exact hother h

/-- Names that a filter does not name may be added to a list of fields, unless they are
the first rule. -/
theorem Whitelist.admits_addNames {w : Whitelist} (hrule : w.hasRule = true) {names : List String}
    {field : String} (h : field ∉ names) : (w.addNames names).admits field = w.admits field := by
  have hlist : (w.addNames names).fields.any (·.contains field) =
      w.fields.any (·.contains field) := by
    cases hw : w.fields <;> simp [addNames, hw, mem_foldl_insert, h]
  rw [admits, admits, hlist, hrule]
  rfl

/-- **What a filter does not name has no part in it.**  In every dialect, a filter compiles
alike under two configurations that agree on which of its fields are admitted, on the
predicates and the aliases that its leaves name, and on the operations of those of its
operators that are not built in.  So no filter at all sees what is configured under the
name of a built-in operator, and a filter does not see the operations, predicates and
aliases of names that it does not mention, nor the fields that are admitted besides its
own, where a whitelist has a rule already. -/
theorem compile_reads_named_entries (d : Dialect σ) (config : Config) (node : Node) :
    (∀ config', config.AgreesOn config' node → SameCompilation d config node config' node) ∧
      (∀ operations, config.operations.SameBut (fun name => ∃ op : Operator, op.name = name)
          operations →
        SameCompilation d config node { config with operations } node) ∧
      (∀ operations predicates aliases,
        config.operations.SameBut (fun name => ∀ leaf ∈ node.leaves, leaf.operator ≠ name)
            operations →
          config.predicates.SameBut (fun name => ∀ leaf ∈ node.leaves, leaf.predicate ≠ some name)
              predicates →
            config.aliases.SameBut (fun name => ∀ leaf ∈ node.leaves, leaf.aliasName ≠ some name)
                aliases →
              SameCompilation d config node { config with operations, predicates, aliases } node) ∧
      ∀ names : List String, (∀ leaf ∈ node.leaves, leaf.field ∉ names) →
        config.whitelist.hasRule = true →
          SameCompilation d config node
            { config with whitelist := config.whitelist.addNames names } node := by
  refine ⟨fun config' h => h.sameCompilation d, fun operations hoperations => ?_,
    fun operations predicates aliases hoperations hpredicates haliases => ?_,
    fun names hnames hrule => ?_⟩
  · have hagrees : config.AgreesOn { config with operations } node := by
      refine ⟨fun _ _ _ => rfl, fun _ _ _ _ => rfl, fun _ _ _ _ => rfl, fun leaf _ hop => ?_⟩
      refine hoperations leaf.operator ?_
      rintro ⟨op, hname⟩
      exact nomatch hop.symm.trans (Operator.ofName?_eq_some_iff.2 hname)
    exact hagrees.sameCompilation d
  · have hagrees : config.AgreesOn { config with operations, predicates, aliases } node :=
      { admits := fun _ _ _ => rfl
        predicates := fun leaf hl name hname => hpredicates name fun hall => hall leaf hl hname
        aliases := fun leaf hl name hname => haliases name fun hall => hall leaf hl hname
        operations := fun leaf hl _ => hoperations leaf.operator fun hall => hall leaf hl rfl }
    exact hagrees.sameCompilation d
  · have hagrees : config.AgreesOn
        { config with whitelist := config.whitelist.addNames names } node := by
      refine ⟨fun leaf hl _ => ?_, fun _ _ _ _ => rfl, fun _ _ _ _ => rfl, fun _ _ _ => rfl⟩
      exact Whitelist.admits_addNames hrule (hnames leaf hl)
    exact hagrees.sameCompilation d

/-- A list of one field. -/
def listed : Config := { whitelist := { fields := some ["a"] } }

/-- A leaf that mentions a field and a built-in operator only. -/
def plainLeaf : Leaf where
  field := "a"
  operator := "equal"
  operand := some (.scalar (.int 5))

/-- An operation under the name of a built-in operator is never found, and nothing else is
looked for that is not mentioned: an operation, a predicate, an alias or a field. -/
theorem compile_reads_named_entries_plain :
    SameCompilation postgres listed (.leaf plainLeaf) {} (.leaf plainLeaf) ∧
      compile postgres { listed with operations := ⟨[("equal", silentOperation)]⟩ }
          (.leaf plainLeaf) 0 = (.ok ⟨"a = $1", [.int 5]⟩, 1) ∧
      SameCompilation postgres listed (.leaf plainLeaf)
        { listed with
          operations := ⟨[("silent", silentOperation)]⟩
          predicates := ⟨[("size", fun field _ => .ok ("abs(" ++ field ++ ")"))]⟩
          aliases := ⟨[("nobody", .list [])]⟩ } (.leaf plainLeaf) ∧
      SameCompilation postgres listed (.leaf plainLeaf)
        { whitelist := { fields := some ["b", "a"] } } (.leaf plainLeaf) := by
  obtain ⟨hagrees, hbuiltin, hunmentioned, hfields⟩ :=
    compile_reads_named_entries postgres listed (.leaf plainLeaf)
  have hall : ∀ {P : Leaf → Prop}, P plainLeaf → ∀ leaf ∈ (Node.leaf plainLeaf).leaves, P leaf :=
    fun hp leaf hl => List.mem_singleton.1 hl ▸ hp
  refine ⟨hagrees {} ⟨hall fun _ => rfl, hall (fun _ h => nomatch h), hall (fun _ h => nomatch h),
    hall fun _ => rfl⟩, ?_, ?_, ?_⟩
  · have hequal : listed.operations.SameBut (fun name => ∃ op : Operator, op.name = name)
        ⟨[("equal", silentOperation)]⟩ :=
      Registry.sameBut_insert ⟨.compare .equal, rfl⟩ listed.operations silentOperation
    exact ((hbuiltin _ hequal).compile_eq 0).symm.trans rfl
  · exact hunmentioned _ _ _ (Registry.sameBut_insert (hall (by decide)) _ _)
      (Registry.sameBut_insert (hall (by decide)) _ _)
      (Registry.sameBut_insert (hall (by decide)) _ _)
  · exact hfields ["b"] (hall (by decide)) rfl

end SqlFilter
