/-
# The whitelist guards every leaf

A whitelist looks at the field of a leaf as the filter names it, before the field is
resolved and before a predicate is asked.  It is asked about every leaf that has a field:
also where nothing is written for the leaf in the end, and where the text of its group is
left out.  So a filter that compiles has no rejected leaf (`Leaf.Rejected`).

A rejected leaf is not looked at any further (`Leaf.run_compile_of_rejected`).  What a
filter with one comes to is settled by the leaves before the first of them and by the name
of its field (`bindAll_of_rejected`), whatever else the filter asks for.
-/

import SqlFilter.Proofs.Leaves

namespace SqlFilter

variable {σ : Type}

/-- A leaf has a field, and the whitelist does not admit it. -/
def Leaf.Rejected (config : Config) (leaf : Leaf) : Prop :=
  leaf.field ≠ "" ∧ config.whitelist.admits leaf.field = false

instance (config : Config) (leaf : Leaf) : Decidable (leaf.Rejected config) :=
  inferInstanceAs (Decidable (_ ∧ _))

section

variable {d : Dialect σ} {config : Config} {leaf : Leaf}

/-- **A rejected leaf fails at once**, and says which field it names. -/
theorem Leaf.run_compile_of_rejected (h : leaf.Rejected config) (s : σ) :
    (leaf.compile d config).run s = (.error (.fieldRejected leaf.field), s) := by
  rw [run_compile, plan_eq, if_neg (by simpa using h.1), if_pos (by simp [h.2])]

/-- A leaf that compiles is not rejected. -/
theorem Leaf.not_rejected_of_run {s : σ} {c : Compiled}
    (h : ((leaf.compile d config).run s).1 = .ok c) : ¬leaf.Rejected config := by
  intro hrejected
  rw [run_compile_of_rejected hrejected] at h
  cases h

/-- **Leaves up to a rejected one** fail as those before it do, and otherwise with its
field. -/
theorem bindAll_of_rejected (h : leaf.Rejected config) (before after : List Leaf) (s : σ) :
    bindAll d config (before ++ leaf :: after) s =
      match bindAll d config before s with
      | (.error e, t) => (.error e, t)
      | (.ok _, t) => (.error (.fieldRejected leaf.field), t) := by
  rw [bindAll_append]
  rcases bindAll d config before s with ⟨e | values, t⟩
  · rfl
  · simp only [bindAll, Leaf.run_compile_of_rejected h]
    rfl

end

/-- Of the leaves that are rejected, one is the first. -/
theorem exists_first_rejected {config : Config} {leaves : List Leaf}
    (h : ∃ leaf ∈ leaves, leaf.Rejected config) :
    ∃ before leaf after, leaves = before ++ leaf :: after ∧ leaf.Rejected config ∧
      ∀ l ∈ before, ¬l.Rejected config := by
  have hsome : (leaves.find? fun l => decide (l.Rejected config)).isSome := by
    simpa [List.find?_isSome] using h
  obtain ⟨leaf, hfind⟩ := Option.isSome_iff_exists.1 hsome
  obtain ⟨hleaf, before, after, rfl, hbefore⟩ := List.find?_eq_some_iff_append.1 hfind
  exact ⟨before, leaf, after, rfl, by simpa using hleaf, by simpa using hbefore⟩

/-- **The whitelist guards every leaf of a filter.**  When a filter compiles, in whatever
dialect and with whatever operations and predicates, the whitelist admits the field of
each leaf that has one.  When there are rejected leaves, one is the first.  With a rejected
leaf the filter fails, with the name of its field or as one of the leaves before it fails;
and so does every filter that has the same leaves before it and names the same field
there. -/
theorem compile_guards_leaves (d : Dialect σ) (config : Config) (node : Node) (s : σ) :
    (∀ c t, compile d config node s = (.ok c, t) →
        ∀ leaf ∈ node.leaves, leaf.field ≠ "" → config.whitelist.admits leaf.field = true) ∧
      ((∃ leaf ∈ node.leaves, leaf.Rejected config) →
        ∃ before leaf after, node.leaves = before ++ leaf :: after ∧ leaf.Rejected config ∧
          ∀ l ∈ before, ¬l.Rejected config) ∧
      ∀ before leaf after, node.leaves = before ++ leaf :: after → leaf.Rejected config →
        ∃ e t, compile d config node s = (.error e, t) ∧
          (e = .fieldRejected leaf.field ∧
              (∃ values, bindAll d config before (d.reset s) = (.ok values, t)) ∨
            (∃ sound failing rest values u, before = sound ++ failing :: rest ∧
              bindAll d config sound (d.reset s) = (.ok values, u) ∧
                (failing.compile d config).run u = (.error e, t))) ∧
          ∀ node' leaf' after', node'.leaves = before ++ leaf' :: after' →
            leaf'.field = leaf.field → compile d config node' s = (.error e, t) := by
  refine ⟨fun c t h leaf hleaf hfield => ?_, exists_first_rejected,
    fun before leaf after hleaves hrejected => ?_⟩
  · have hvalues := values_compile d config node s
    rw [h] at hvalues
    obtain ⟨u, c', hrun⟩ := exists_run_of_bindAll hvalues.symm leaf hleaf
    by_contra hadmits
    exact Leaf.not_rejected_of_run hrun ⟨hfield, by simpa using hadmits⟩
  · -- every filter with this beginning ends as the leaves before the rejected one decide
    have hsame : ∀ e t, bindAll d config (before ++ leaf :: after) (d.reset s) = (.error e, t) →
        ∀ node' leaf' after', node'.leaves = before ++ leaf' :: after' →
          leaf'.field = leaf.field → compile d config node' s = (.error e, t) := by
      intro e t h node' leaf' after' hleaves' hfield
      have hrejected' : leaf'.Rejected config := by rwa [Leaf.Rejected, hfield]
      rw [compile_eq_error_iff, hleaves', bindAll_of_rejected hrejected', hfield,
        ← bindAll_of_rejected hrejected before after]
      exact h
    have hall := bindAll_of_rejected (d := d) hrejected before after (d.reset s)
    rcases hbefore : bindAll d config before (d.reset s) with ⟨e | values, t⟩
    · rw [hbefore] at hall
      exact ⟨e, t, hsame e t hall node leaf after hleaves rfl,
        .inr (exists_of_bindAll_eq_error hbefore), hsame e t hall⟩
    · rw [hbefore] at hall
      exact ⟨_, t, hsame _ t hall node leaf after hleaves rfl, .inl ⟨rfl, values, rfl⟩,
        hsame _ t hall⟩

/-- A configuration that admits one field. -/
def oneField : Config := { whitelist := { fields := some ["a"] } }

/-- A filter that names another field in a leaf for which nothing is written. -/
def unwritten : Node :=
  .group .and
    [.leaf { field := "a", operator := "less", operand := some (.scalar (.int 1)) },
      .group .or [.leaf { field := "b" }, .leaf { field := "a", operator := "none" }]]

/-- The filter fails with the field that is not admitted; and so does another one, which
asks for something else in this leaf and goes on in another way. -/
theorem compile_guards_leaves_unwritten :
    compile postgres oneField unwritten 5 = (.error (.fieldRejected "b"), 1) ∧
      compile postgres oneField (.group .or
          [.leaf { field := "a", operator := "less", operand := some (.scalar (.int 1)) },
            .leaf { field := "b", includes := some [.int 2], predicate := some "upper" }]) 5 =
        (.error (.fieldRejected "b"), 1) := by
  have hrun : compile postgres oneField unwritten 5 = (.error (.fieldRejected "b"), 1) := rfl
  obtain ⟨e, t, h, -, hsame⟩ := (compile_guards_leaves postgres oneField unwritten 5).2.2
    [{ field := "a", operator := "less", operand := some (.scalar (.int 1)) }] { field := "b" }
    [{ field := "a", operator := "none" }] rfl (by decide)
  obtain ⟨he, rfl⟩ := Prod.mk.inj (h.symm.trans hrun)
  obtain rfl := Except.error.inj he
  exact ⟨h, hsame _ { field := "b", includes := some [.int 2], predicate := some "upper" } [] rfl rfl⟩

end SqlFilter
