/-
# Drafts

A filter without configured operations compiles in two steps that do not know of each
other.  The first one drafts it: it looks up all names, checks all counts, and joins
the templates of the conditions into one (`Node.draft`).  The second one renders this
template on the placeholders of the dialect.  `Node.follows_draft` says that compiling
does just that, from every state: it fails when drafting fails, with the same error, and
otherwise gives the rendered template and the values of the draft.

So what a filter compiles to is a matter of its draft, in which nothing is numbered
yet.
-/

import Mathlib.Data.List.Forall2
import SqlFilter.Proofs.Template

namespace SqlFilter

variable {σ : Type}

/-- A compiled piece before its placeholders are drawn. -/
structure Draft where
  pieces : Template := []
  values : List Value := []

/-- Rendered templates as one text. -/
def Glue.weave (glue : Glue) (ts : List Template) : Template :=
  let joined := [Piece.text glue.separator].intercalate ts
  if ts.length > 1 then .text "( " :: joined ++ [.text " )"] else joined

namespace Draft

/-- A group from its children: those without pieces are left out of the template. -/
def group (glue : Glue) (parts : List Draft) : Draft where
  pieces := glue.weave ((parts.map (·.pieces)).filter (!·.isEmpty))
  values := parts.flatMap (·.values)

/-- A draft has one mark for each value, and without values it is empty. -/
structure Sound (t : Draft) : Prop where
  marks_eq : t.pieces.marks = t.values.length
  pieces_eq_nil : t.values = [] → t.pieces = []

theorem sound_empty : Draft.Sound {} :=
  ⟨rfl, fun _ => rfl⟩

/-- A draft with its placeholders drawn, and the source after it. -/
def compiled (source : σ → String × σ) (t : Draft) (s : σ) : Compiled × σ :=
  (⟨(t.pieces.render source s).1, t.values⟩, (t.pieces.render source s).2)

/-- Several drafts with their placeholders drawn, one after the other. -/
def compiledAll (source : σ → String × σ) : List Draft → σ → List Compiled × σ
  | [], s => ([], s)
  | t :: ts, s =>
    ((t.compiled source s).1 :: (compiledAll source ts (t.compiled source s).2).1,
      (compiledAll source ts (t.compiled source s).2).2)

end Draft

/-! ### Groups -/

namespace Template

theorem marks_intercalate (sep : String) (ts : List Template) :
    marks ([Piece.text sep].intercalate ts) = marks ts.flatten := by
  induction ts with
  | nil => rfl
  | cons t ts ih =>
    cases ts with
    | nil => simp [List.intercalate_singleton]
    | cons u us => rw [List.intercalate_cons_cons]; simp [ih]

/-- Texts joined by a separator render as their templates joined by it do. -/
theorem render_intercalate (source : σ → String × σ) (sep : String) (ts : List Template) (s : σ) :
    render source ([Piece.text sep].intercalate ts) s =
      (sep.intercalate (renderAll source ts s).1, (renderAll source ts s).2) := by
  induction ts generalizing s with
  | nil => rfl
  | cons t ts ih =>
    cases ts with
    | nil => simp [List.intercalate_singleton, renderAll]
    | cons u us =>
      rw [List.intercalate_cons_cons, render_append, render_append, ih]
      simp [renderAll, render, String.intercalate_cons_cons, String.append_assoc]

theorem length_renderAll (source : σ → String × σ) (ts : List Template) (s : σ) :
    (renderAll source ts s).1.length = ts.length := by
  induction ts generalizing s with
  | nil => rfl
  | cons t ts ih => simp [renderAll, ih]

end Template

namespace Glue

theorem marks_weave (glue : Glue) (ts : List Template) :
    (glue.weave ts).marks = Template.marks ts.flatten := by
  rw [weave]
  split <;> simp [Template.marks_intercalate]

/-- Woven templates render as their texts are joined. -/
theorem render_weave (source : σ → String × σ) (glue : Glue) (ts : List Template) (s : σ) :
    (glue.weave ts).render source s =
      (glue.join (Template.renderAll source ts s).1, (Template.renderAll source ts s).2) := by
  rw [weave, join, Template.length_renderAll]
  split
  · simp [Template.render, Template.render_append, Template.render_intercalate,
      String.append_assoc]
  · exact Template.render_intercalate ..

end Glue

namespace Draft

/-- Sound drafts have together as many marks as values. -/
theorem marks_flatten {ts : List Draft} (h : ∀ t ∈ ts, t.Sound) :
    Template.marks (ts.map (·.pieces)).flatten = (ts.flatMap (·.values)).length := by
  induction ts with
  | nil => rfl
  | cons t ts ih =>
    have ht := (h t (List.mem_cons_self ..)).marks_eq
    have ih := ih fun u hu => h u (List.mem_cons_of_mem _ hu)
    rw [List.map_cons, List.flatten_cons, Template.marks_append, List.flatMap_cons,
      List.length_append, ht, ih]

/-- **A group of sound drafts is sound.** -/
theorem Sound.group {glue : Glue} {ts : List Draft} (h : ∀ t ∈ ts, t.Sound) :
    (Draft.group glue ts).Sound where
  marks_eq := by
    show (glue.weave _).marks = (ts.flatMap (·.values)).length
    rw [Glue.marks_weave, List.flatten_filter_not_isEmpty, marks_flatten h]
  pieces_eq_nil hv := by
    have hnil : (ts.map (·.pieces)).filter (!·.isEmpty) = [] := by
      rw [List.filter_eq_nil_iff]
      intro t ht
      obtain ⟨u, hu, rfl⟩ := List.mem_map.1 ht
      simp [(h u hu).pieces_eq_nil (List.flatMap_eq_nil_iff.1 hv u hu)]
    show glue.weave ((ts.map (·.pieces)).filter (!·.isEmpty)) = []
    rw [hnil]
    rfl

variable {source : σ → String × σ} (hsource : ∀ s, (source s).1 ≠ "")
include hsource

/-- A sound draft has an empty text only if it has no pieces. -/
theorem Sound.isEmpty_render {t : Draft} (ht : t.Sound) (s : σ) :
    (t.pieces.render source s).1.isEmpty = t.pieces.isEmpty := by
  by_cases hv : t.values = []
  · rw [ht.pieces_eq_nil hv]
    rfl
  · have hm : 0 < t.pieces.marks := by
      rw [ht.marks_eq]
      exact List.length_pos_iff.2 hv
    have hp : t.pieces ≠ [] := by
      intro h
      rw [h] at hm
      exact absurd hm (by simp)
    rw [List.isEmpty_eq_false_iff.2 hp]
    exact String.isEmpty_eq_false_iff.2 (Template.render_ne_empty hsource hm s)

/-- The texts that are not empty are those of the templates that are not. -/
theorem filter_compiledAll {ts : List Draft} (h : ∀ t ∈ ts, t.Sound) (s : σ) :
    (((compiledAll source ts s).1.map (·.sql)).filter (!·.isEmpty),
        (compiledAll source ts s).2) =
      Template.renderAll source ((ts.map (·.pieces)).filter (!·.isEmpty)) s := by
  induction ts generalizing s with
  | nil => rfl
  | cons t ts ih =>
    have ht := (h t (List.mem_cons_self ..)).isEmpty_render hsource s
    have ih := ih (fun u hu => h u (List.mem_cons_of_mem _ hu)) (t.compiled source s).2
    simp only [compiledAll, List.map_cons, List.filter_cons,
      show (t.compiled source s).1.sql.isEmpty = t.pieces.isEmpty from ht]
    split
    · show _ = ((t.compiled source s).1.sql ::
        (Template.renderAll source _ (t.compiled source s).2).1,
        (Template.renderAll source _ (t.compiled source s).2).2)
      rw [← ih]
    · rename_i he
      have hs : (t.compiled source s).2 = s := by
        rw [compiled, show t.pieces = [] by simpa using he]
        rfl
      rw [hs] at ih ⊢
      exact ih

omit hsource in
/-- Drawing placeholders does not change the values. -/
theorem values_compiledAll (ts : List Draft) (s : σ) :
    (compiledAll source ts s).1.flatMap (·.values) = ts.flatMap (·.values) := by
  induction ts generalizing s with
  | nil => rfl
  | cons t ts ih => simp [compiledAll, compiled, ih]

/-- **A group of drafts, with its placeholders drawn,** is the group of the drafts with
theirs drawn. -/
theorem compiled_group {glue : Glue} {ts : List Draft} (h : ∀ t ∈ ts, t.Sound) (s : σ) :
    (Draft.group glue ts).compiled source s =
      (.group glue (compiledAll source ts s).1, (compiledAll source ts s).2) := by
  have hf := filter_compiledAll hsource h s
  rw [compiled, group, Compiled.group, Glue.render_weave, ← hf, values_compiledAll]

end Draft

/-! ### Drafting -/

/-- The draft of a plan.  Configured operations write their own text, so there is
none for them. -/
def Plan.draft (style : Style) : Plan → Except CompileError Draft
  | nothing => .ok {}
  | condition field c => .ok ⟨c.pieces style field, c.values⟩
  | custom operator _ => .error (.unknownOperator operator)

/-- The draft of a leaf. -/
def Leaf.draft (style : Style) (config : Config) (leaf : Leaf) : Except CompileError Draft :=
  (leaf.plan style.resolve config).bind (·.draft style)

mutual

/-- The draft of a filter. -/
def Node.draft (style : Style) (config : Config) : Node → Except CompileError Draft
  | .leaf leaf => leaf.draft style config
  | .group glue rules => (draftAll style config rules).map (Draft.group glue)

/-- The drafts of the children of a group. -/
def draftAll (style : Style) (config : Config) : List Node → Except CompileError (List Draft)
  | [] => .ok []
  | node :: nodes =>
    (node.draft style config).bind fun first =>
      (draftAll style config nodes).map (first :: ·)

end

/-- The children of a drafted group are drafted one by one. -/
theorem draftAll_eq_ok {style : Style} {config : Config} {nodes : List Node} {ts : List Draft} :
    draftAll style config nodes = .ok ts ↔
      List.Forall₂ (fun node t => node.draft style config = .ok t) nodes ts := by
  induction nodes generalizing ts with
  | nil =>
    rw [draftAll, List.forall₂_nil_left_iff]
    exact ⟨fun h => (Except.ok.inj h).symm, fun h => by rw [h]⟩
  | cons node nodes ih =>
    rw [draftAll, List.forall₂_cons_left_iff]
    constructor
    · intro h
      cases hn : node.draft style config with
      | error e => rw [hn] at h; cases h
      | ok t =>
        rw [hn] at h
        cases hs : draftAll style config nodes with
        | error e => rw [hs] at h; cases h
        | ok us =>
          rw [hs] at h
          exact ⟨t, us, rfl, ih.1 hs, (Except.ok.inj h).symm⟩
    · rintro ⟨t, us, hn, hs, rfl⟩
      rw [hn, ih.2 hs]
      rfl

/-- **Drafts by induction.**  What holds of the draft of every leaf, and passes from
the drafts of the children to the draft of the group, holds of the draft of the
filter. -/
theorem Node.draft_induction {style : Style} {config : Config} {P : Node → Draft → Prop}
    {node : Node} {t : Draft} (h : node.draft style config = .ok t)
    (leaf : ∀ l ∈ node.leaves, ∀ u, l.draft style config = .ok u → P (.leaf l) u)
    (group : ∀ glue rules ts, List.Forall₂ P rules ts →
      P (.group glue rules) (Draft.group glue ts)) : P node t := by
  induction node generalizing t with
  | leaf l =>
    rw [draft] at h
    exact leaf l (by simp [leaves]) t h
  | group glue rules ih =>
    rw [draft] at h
    cases hs : draftAll style config rules with
    | error e => rw [hs] at h; cases h
    | ok ts =>
      rw [hs] at h
      obtain rfl := Except.ok.inj h
      refine group glue rules ts ?_
      have hall := draftAll_eq_ok.1 hs
      refine (List.forall₂_iff_get.2 ⟨hall.length_eq, fun i hi hj => ?_⟩)
      have hmem : rules.get ⟨i, hi⟩ ∈ rules := List.get_mem ..
      exact ih _ hmem ((List.forall₂_iff_get.1 hall).2 i hi hj)
        (fun l hl => leaf l (mem_leavesAll.2 ⟨_, hmem, hl⟩))

/-- What all drafts have that belong to something, all drafts have. -/
theorem forall_of_forall₂ {P : Draft → Prop} {nodes : List Node} {ts : List Draft}
    (h : List.Forall₂ (fun _ t => P t) nodes ts) : ∀ t ∈ ts, P t := by
  induction h with
  | nil => exact fun t ht => by cases ht
  | cons hp _ ih => exact List.forall_mem_cons.2 ⟨hp, ih⟩

/-- A compilation that goes as it is drafted.  It gives what is drawn from the draft, and
fails with the error that drafting fails with. -/
structure Follows {α β : Type} (draw : α → σ → β × σ) (draft : Except CompileError α)
    (compilation : Compilation σ β) : Prop where
  run_ok : ∀ t s, draft = .ok t → compilation.run s = (.ok (draw t s).1, (draw t s).2)
  run_error : ∀ e s, draft = .error e → (compilation.run s).1 = .error e

/-- The draft of a leaf is empty, or that of a condition the leaf asks for. -/
theorem Leaf.draft_eq_ok {style : Style} {config : Config} {leaf : Leaf} {t : Draft}
    (h : leaf.draft style config = .ok t) :
    (t = {} ∧ (leaf.field = "" ∨ leaf.members = [] ∧ leaf.operator = "")) ∨
      ∃ field c, leaf.field ≠ "" ∧ leaf.expression style.resolve config = .ok field ∧
        leaf.Asks config c ∧ t = ⟨c.pieces style field, c.values⟩ := by
  rw [draft] at h
  cases hp : leaf.plan style.resolve config with
  | error e => rw [hp] at h; cases h
  | ok p =>
    rw [hp] at h
    rcases plan_cases hp with ⟨rfl, ha⟩ | ⟨field, c, hf, hx, hc, rfl⟩ | ⟨_, _, -, rfl⟩
    · exact .inl ⟨(Except.ok.inj h).symm, ha⟩
    · exact .inr ⟨field, c, hf, hx, hc, (Except.ok.inj h).symm⟩
    · cases h

section

variable {d : Dialect σ} {style : Style} (hd : d.Writes style) {config : Config}
include hd

theorem Leaf.draft_sound {leaf : Leaf} {t : Draft} (h : leaf.draft style config = .ok t) :
    t.Sound := by
  rcases draft_eq_ok h with ⟨rfl, -⟩ | ⟨field, c, -, -, hc, rfl⟩
  · exact Draft.sound_empty
  · exact ⟨c.marks_pieces hd field, fun hv => absurd hv hc.values_ne_nil⟩

/-- **The draft of a filter is sound.** -/
theorem Node.draft_sound {node : Node} {t : Draft} (h : node.draft style config = .ok t) :
    t.Sound := by
  refine draft_induction (P := fun _ t => t.Sound) h (fun l _ u hu => l.draft_sound hd hu) ?_
  intro glue rules ts hts
  exact Draft.Sound.group (forall_of_forall₂ hts)

/-! ### Compiling -/

omit hd in
/-- Children that compile as they are drafted one by one do so together. -/
theorem follows_draftAll {rules : List Node}
    (h : ∀ rule ∈ rules, Follows (Draft.compiled d.placeholder)
      (rule.draft style config) (rule.compile d config)) :
    Follows (Draft.compiledAll d.placeholder)
      (draftAll style config rules) (compileAll d config rules) := by
  induction rules with
  | nil => exact ⟨fun ts s hts => (by cases hts; rfl), fun e s hts => (by cases hts)⟩
  | cons rule rules ih =>
    have hr := h rule (List.mem_cons_self ..)
    have ih := ih (fun r hr => h r (List.mem_cons_of_mem _ hr))
    rw [draftAll]
    constructor
    · intro us s hus
      cases ht : rule.draft style config with
      | error e => rw [ht] at hus; cases hus
      | ok t =>
        cases hts : draftAll style config rules with
        | error e => rw [ht, hts] at hus; cases hus
        | ok ts =>
          rw [ht, hts] at hus
          cases hus
          simp only [run_compileAll_cons, hr.run_ok t s ht, ih.run_ok ts _ hts, Except.map,
            Draft.compiledAll]
    · intro e s he
      rw [run_compileAll_cons]
      cases ht : rule.draft style config with
      | error e' =>
        rw [ht] at he
        cases he
        have hx := hr.run_error e s ht
        rcases hrun : (rule.compile d config).run s with ⟨x, t⟩
        rw [hrun] at hx
        obtain rfl : x = .error e := hx
        rfl
      | ok t =>
        cases hts : draftAll style config rules with
        | ok ts => rw [ht, hts] at he; cases he
        | error e' =>
          rw [ht, hts] at he
          cases he
          simp only [hr.run_ok t s ht, ih.run_error e _ hts, Except.map]

/-- **A leaf compiles as it is drafted.** -/
theorem Leaf.follows_draft {leaf : Leaf} (hl : leaf.runsOperation config = false) :
    Follows (Draft.compiled d.placeholder) (leaf.draft style config)
      (leaf.compile d config) := by
  rw [draft]
  cases hp : leaf.plan style.resolve config with
  | error e =>
    refine ⟨fun t s ht => (by cases ht), fun e s he => ?_⟩
    cases he
    rw [run_compile, hd.resolve_eq, hp]
  | ok plan =>
    have hrun : ∀ s, (leaf.compile d config).run s = (plan.write d).run s := by
      intro s
      rw [run_compile, hd.resolve_eq, hp]
    rcases plan_cases hp with ⟨rfl, -⟩ | ⟨field, c, -, -, -, rfl⟩ | ⟨_, _, ho, -⟩
    · refine ⟨fun t s ht => ?_, fun e s he => (by cases he)⟩
      cases ht
      exact hrun s
    · refine ⟨fun t s ht => ?_, fun e s he => (by cases he)⟩
      cases ht
      rw [hrun, Plan.run_write_condition, Condition.run_write hd]
      rfl
    · rw [hl] at ho
      cases ho

/-- **A filter compiles as it is drafted.** -/
theorem Node.follows_draft {node : Node}
    (hn : ∀ leaf ∈ node.leaves, leaf.runsOperation config = false) :
    Follows (Draft.compiled d.placeholder) (node.draft style config)
      (node.compile d config) := by
  induction node with
  | leaf leaf =>
    have h := leaf.follows_draft hd (hn leaf (by simp [leaves]))
    rw [draft]
    exact ⟨fun t s ht => (run_compile_leaf ..).trans (h.run_ok t s ht),
      fun e s he => (congrArg Prod.fst (run_compile_leaf ..)).trans (h.run_error e s he)⟩
  | group glue rules ih =>
    have h := follows_draftAll (fun rule hr => ih rule hr (forall_leaves_of_mem hn hr))
    rw [draft]
    cases hts : draftAll style config rules with
    | error e =>
      refine ⟨fun t s ht => (by cases ht), fun e s he => ?_⟩
      cases he
      rw [run_compile_group, h.run_error e s hts]
      rfl
    | ok ts =>
      refine ⟨fun t s ht => ?_, fun e s he => (by cases he)⟩
      cases ht
      have hsound : ∀ t ∈ ts, t.Sound :=
        forall_of_forall₂ ((draftAll_eq_ok.1 hts).imp fun _ _ ht => draft_sound hd ht)
      rw [run_compile_group, h.run_ok ts s hts,
        Draft.compiled_group hd.placeholder_ne_empty hsound]
      rfl

/-- What a filter compiles to is its draft with the placeholders drawn. -/
theorem compile_eq_ok {node : Node}
    (hn : ∀ leaf ∈ node.leaves, leaf.runsOperation config = false) {s s' : σ} {c : Compiled}
    (h : compile d config node s = (.ok c, s')) :
    ∃ t, node.draft style config = .ok t ∧ (t.compiled d.placeholder (d.reset s)).1 = c := by
  have hf := node.follows_draft hd hn
  rw [compile] at h
  cases ht : node.draft style config with
  | error e =>
    have hr := hf.run_error e (d.reset s) ht
    rw [h] at hr
    cases hr
  | ok t =>
    have hr := hf.run_ok t (d.reset s) ht
    rw [h] at hr
    exact ⟨t, rfl, (Except.ok.inj (congrArg Prod.fst hr)).symm⟩

/-- A filter compiles to its draft with the placeholders drawn, and to nothing else. -/
theorem compile_eq_ok_iff {node : Node}
    (hn : ∀ leaf ∈ node.leaves, leaf.runsOperation config = false) {s : σ} {c : Compiled} :
    (compile d config node s).1 = .ok c ↔
      ∃ t, node.draft style config = .ok t ∧ (t.compiled d.placeholder (d.reset s)).1 = c := by
  constructor
  · exact fun h => compile_eq_ok hd hn (Prod.ext h rfl)
  · rintro ⟨t, ht, rfl⟩
    exact congrArg Prod.fst ((node.follows_draft hd hn).run_ok t (d.reset s) ht)

end

end SqlFilter
