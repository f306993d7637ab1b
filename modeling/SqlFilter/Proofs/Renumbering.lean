/-
# Groups from their parts

A part of a filter does not know where it stands.  What it compiles to inside a group is
what it compiles to on its own, but for the numbers of its placeholders: on Postgres these
go on from the last value of the parts before it.

| part, on its own | values before it | in the group |
| --- | --- | --- |
| `a < $1` | 0 | `a < $1` |
| `( b = $1 OR c IN($2,$3) )` | 1 | `( b = $2 OR c IN($3,$4) )` |
| | 4 | |
| `d = $1` | 4 | `d = $5` |

So the group can be put together from the texts of its parts alone: every number behind a
`$` is raised (`renumbered`, `renumberedAll`), the empty texts are left out, and what is
left is joined (`Glue.combined`).  That raising the numbers of a text is the same as
drawing the placeholders later is `Template.Spaced.renumbered_render`; it needs that the
text has no `$` but those of its placeholders.

On MySQL there is nothing to raise.
-/

import SqlFilter.Proofs.Numbering

namespace SqlFilter

/-! ### Texts with higher numbers -/

/-- The placeholder whose number is `k` more than `digits` say. -/
def raised (k : Nat) (digits : List Char) : List Char :=
  ("$" ++ toString (Nat.ofDigitChars 10 digits 0 + k)).toList

/-- A text with `k` added to every number that stands behind a `$`. -/
def renumbered (k : Nat) (text : String) : String :=
  String.ofList (mapNumbers (raised k) false text.toList)

/-- The texts of parts that follow each other: each one goes on from the number of the
values before it. -/
def renumberedAll : (before : Nat) → List Compiled → List String
  | _, [] => []
  | before, part :: parts =>
    renumbered before part.sql :: renumberedAll (before + part.values.length) parts

/-- The text of a group from the texts of its parts: the empty ones are left out, and two
or more stand between parentheses. -/
def Glue.combined (glue : Glue) (texts : List String) : String :=
  match texts.filter (!·.isEmpty) with
  | [] => ""
  | [text] => text
  | texts => "( " ++ glue.separator.intercalate texts ++ " )"

theorem Glue.join_filter (glue : Glue) (texts : List String) :
    glue.join (texts.filter (!·.isEmpty)) = glue.combined texts := by
  rw [combined]
  generalize texts.filter (!·.isEmpty) = kept
  rcases kept with _ | ⟨text, _ | ⟨next, rest⟩⟩
  · rfl
  · simp [join]
  · simp [join]

namespace Template

variable {t : Template}

/-- A template takes a number for each mark. -/
theorem render_postgres_snd (t : Template) (n : Nat) :
    (t.render postgres.placeholder n).2 = n + t.marks := by
  induction t generalizing n with
  | nil => rfl
  | cons p t ih =>
    cases p with
    | text a => rw [render, ih, marks_text]
    | mark =>
      rw [render, marks_mark, ih]
      show n + 1 + marks t = _
      omega

/-- **Higher numbers are later placeholders.** -/
theorem Spaced.renumbered_render (ht : t.Spaced '$') (k n : Nat) :
    renumbered k (t.render postgres.placeholder n).1 =
      (t.render postgres.placeholder (n + k)).1 := by
  have hsource : ∀ n, postgres.placeholder (n + k) =
      (String.ofList (raised k (toString (n + 1)).toList), n + 1 + k) := by
    intro n
    have hnumber : Nat.ofDigitChars 10 (toString (n + 1)).toList 0 = n + 1 := by
      rw [show (toString (n + 1)).toList = Nat.toDigits 10 (n + 1) from Nat.toList_repr,
        Nat.ofDigitChars_ten_toDigits]
    rw [raised, hnumber, String.ofList_toList, Nat.add_right_comm n 1 k]
    rfl
  rw [renumbered, ht.mapNumbers_render (· + k) hsource n, String.ofList_toList]

end Template

/-! ### Parts -/

/-- **Drafts in a row** have the texts that they have on their own, with higher numbers. -/
theorem Draft.texts_compiledAll {ts : List Draft}
    (h : ∀ t ∈ ts, t.Sound ∧ t.pieces.Spaced '$') (n : Nat) :
    (compiledAll postgres.placeholder ts n).1.map (·.sql) =
      renumberedAll n (ts.map fun t => (t.compiled postgres.placeholder 0).1) := by
  induction ts generalizing n with
  | nil => rfl
  | cons t ts ih =>
    obtain ⟨hsound, hspaced⟩ := h t (List.mem_cons_self ..)
    have hnext : (t.compiled postgres.placeholder n).2 = n + t.values.length := by
      rw [← hsound.marks_eq]
      exact t.pieces.render_postgres_snd n
    have htext := hspaced.renumbered_render n 0
    rw [Nat.zero_add] at htext
    rw [compiledAll, List.map_cons, hnext, ih (fun u hu => h u (List.mem_cons_of_mem _ hu)),
      List.map_cons, renumberedAll]
    exact congrArg (· :: _) htext.symm

/-- The group of drafts in a row, from what they are on their own. -/
theorem Draft.group_compiledAll (glue : Glue) {ts : List Draft}
    (h : ∀ t ∈ ts, t.Sound ∧ t.pieces.Spaced '$') :
    Compiled.group glue (compiledAll postgres.placeholder ts 0).1 =
      ⟨glue.combined (renumberedAll 0 (ts.map fun t => (t.compiled postgres.placeholder 0).1)),
        (ts.map fun t => (t.compiled postgres.placeholder 0).1).flatMap (·.values)⟩ := by
  rw [Compiled.group, Glue.join_filter, texts_compiledAll h, values_compiledAll, List.flatMap_map]
  rfl

section

variable {σ : Type} {d : Dialect σ} {style : Style} (hd : d.Writes style) {config : Config}
include hd

/-- Filters compile one by one to their drafts. -/
theorem forall₂_compile_iff {rules : List Node} (s : σ)
    (hn : ∀ rule ∈ rules, ∀ leaf ∈ rule.leaves, leaf.runsOperation config = false)
    {parts : List Compiled} :
    List.Forall₂ (fun rule part => (compile d config rule s).1 = .ok part) rules parts ↔
      ∃ ts, List.Forall₂ (fun rule t => rule.draft style config = .ok t) rules ts ∧
        ts.map (fun t => (t.compiled d.placeholder (d.reset s)).1) = parts := by
  induction rules generalizing parts with
  | nil =>
    constructor
    · rintro ⟨⟩
      exact ⟨[], .nil, rfl⟩
    · rintro ⟨ts, ⟨⟩, rfl⟩
      exact .nil
  | cons rule rules ih =>
    have hrule := hn rule (List.mem_cons_self ..)
    have hrules := fun r hr => hn r (List.mem_cons_of_mem rule hr)
    constructor
    · rintro (_ | ⟨hpart, hparts⟩)
      obtain ⟨t, ht, rfl⟩ := (compile_eq_ok_iff hd hrule).1 hpart
      obtain ⟨ts, hts, rfl⟩ := (ih hrules).1 hparts
      exact ⟨t :: ts, .cons ht hts, rfl⟩
    · rintro ⟨ts, _ | ⟨ht, hts⟩, rfl⟩
      exact .cons ((compile_eq_ok_iff hd hrule).2 ⟨_, ht, rfl⟩) ((ih hrules).2 ⟨_, hts, rfl⟩)

/-- **A group compiles to the group of its drafts.** -/
theorem compile_group_eq_ok_iff {glue : Glue} {rules : List Node}
    (hn : ∀ rule ∈ rules, ∀ leaf ∈ rule.leaves, leaf.runsOperation config = false)
    {s : σ} {c : Compiled} :
    (compile d config (.group glue rules) s).1 = .ok c ↔
      ∃ ts, List.Forall₂ (fun rule t => rule.draft style config = .ok t) rules ts ∧
        Compiled.group glue (Draft.compiledAll d.placeholder ts (d.reset s)).1 = c := by
  have hgroup : ∀ ts, List.Forall₂ (fun rule t => rule.draft style config = .ok t) rules ts →
      ((Draft.group glue ts).compiled d.placeholder (d.reset s)).1 =
        .group glue (Draft.compiledAll d.placeholder ts (d.reset s)).1 := fun ts hts =>
    congrArg Prod.fst (Draft.compiled_group hd.placeholder_ne_empty
      (forall_of_forall₂ (hts.imp fun _ _ ht => Node.draft_sound hd ht)) (d.reset s))
  have hleaves : ∀ leaf ∈ (Node.group glue rules).leaves, leaf.runsOperation config = false := by
    intro leaf hleaf
    obtain ⟨rule, hrule, hleaf⟩ := mem_leavesAll.1 hleaf
    exact hn rule hrule leaf hleaf
  rw [compile_eq_ok_iff hd hleaves, Node.draft]
  constructor
  · rintro ⟨t, ht, rfl⟩
    cases hts : draftAll style config rules with
    | error e => rw [hts] at ht; cases ht
    | ok ts =>
      rw [hts] at ht
      obtain rfl := Except.ok.inj ht
      have hts := draftAll_eq_ok.1 hts
      exact ⟨ts, hts, (hgroup ts hts).symm⟩
  · rintro ⟨ts, hts, rfl⟩
    exact ⟨.group glue ts, by rw [draftAll_eq_ok.2 hts]; rfl, hgroup ts hts⟩

end

/-- On MySQL every part of a filter compiles as it does on its own. -/
theorem run_compileAll_mysql_iff {config : Config} {rules : List Node} {parts : List Compiled} :
    ((compileAll mysql config rules).run ()).1 = .ok parts ↔
      List.Forall₂ (fun rule part => (compile mysql config rule ()).1 = .ok part) rules parts := by
  induction rules generalizing parts with
  | nil =>
    rw [run_compileAll_nil, List.forall₂_nil_left_iff]
    exact ⟨fun h => (Except.ok.inj h).symm, fun h => by rw [h]⟩
  | cons rule rules ih =>
    rw [run_compileAll_cons, List.forall₂_cons_left_iff]
    show _ ↔ ∃ part rest, ((rule.compile mysql config).run ()).1 = _ ∧ _
    rcases (rule.compile mysql config).run () with ⟨e | part, ⟨⟩⟩
    · exact ⟨fun h => (by cases h), fun ⟨_, _, h, _⟩ => (by cases h)⟩
    · constructor
      · intro h
        cases hrest : ((compileAll mysql config rules).run ()).1 with
        | error e => simp only [hrest] at h; cases h
        | ok rest =>
          simp only [hrest] at h
          exact ⟨part, rest, rfl, ih.1 hrest, (Except.ok.inj h).symm⟩
      · rintro ⟨_, rest, hpart, hrest, rfl⟩
        obtain rfl := Except.ok.inj hpart
        simp only [ih.2 hrest]
        rfl

/-- **On MySQL a group is put together** from the texts of its parts as they are. -/
theorem mysql_compile_group_iff {config : Config} {glue : Glue} {rules : List Node}
    {c : Compiled} :
    (compile mysql config (.group glue rules) ()).1 = .ok c ↔
      ∃ parts,
        List.Forall₂ (fun rule part => (compile mysql config rule ()).1 = .ok part) rules parts ∧
          c = ⟨glue.combined (parts.map (·.sql)), parts.flatMap (·.values)⟩ := by
  have hgroup : ∀ parts : List Compiled, Compiled.group glue parts =
      ⟨glue.combined (parts.map (·.sql)), parts.flatMap (·.values)⟩ := fun parts => by
    rw [Compiled.group, Glue.join_filter]
  show ((Node.compile mysql config (.group glue rules)).run ()).1 = _ ↔ _
  rw [Node.run_compile_group]
  constructor
  · intro h
    cases hparts : ((compileAll mysql config rules).run ()).1 with
    | error e => simp only [hparts] at h; cases h
    | ok parts =>
      simp only [hparts] at h
      exact ⟨parts, run_compileAll_mysql_iff.1 hparts, (Except.ok.inj h).symm.trans (hgroup parts)⟩
  · rintro ⟨parts, hparts, rfl⟩
    simp only [run_compileAll_mysql_iff.2 hparts]
    exact congrArg Except.ok (hgroup parts)

/-! ### Groups -/

/-- **A group is put together from its parts.**  On Postgres, let no leaf of a group be left
to a configured operation, and let neither a field nor the result of a predicate contain a
`$`.  The group compiles if and only if each of its parts does on its own, from the first
number on; its text is that of the parts with the number of the values before each part
added to the numbers in it, and it binds what the parts bind, in their order.  On MySQL the
texts of the parts stand in the group as they are, whatever its leaves are. -/
theorem compile_group_renumbers :
    (∀ (config : Config) (glue : Glue) (rules : List Node) (s : Nat),
      (∀ leaf ∈ (Node.group glue rules).leaves, leaf.runsOperation config = false) →
        (∀ leaf ∈ (Node.group glue rules).leaves,
          leaf.Avoids (postgres.resolve s) config '$') →
          ∀ c, (compile postgres config (.group glue rules) s).1 = .ok c ↔
            ∃ parts,
              List.Forall₂ (fun rule part => (compile postgres config rule 0).1 = .ok part)
                rules parts ∧
              c = ⟨glue.combined (renumberedAll 0 parts), parts.flatMap (·.values)⟩) ∧
      ∀ (config : Config) (glue : Glue) (rules : List Node) (c : Compiled),
        (compile mysql config (.group glue rules) ()).1 = .ok c ↔
          ∃ parts,
            List.Forall₂ (fun rule part => (compile mysql config rule ()).1 = .ok part)
              rules parts ∧
            c = ⟨glue.combined (parts.map (·.sql)), parts.flatMap (·.values)⟩ := by
  refine ⟨fun config glue rules s hn ha c => ?_, fun config glue rules c => mysql_compile_group_iff⟩
  have hn' : ∀ rule ∈ rules, ∀ leaf ∈ rule.leaves, leaf.runsOperation config = false :=
    fun rule hr leaf hl => hn leaf (mem_leavesAll.2 ⟨rule, hr, hl⟩)
  have ha' : ∀ rule ∈ rules, ∀ leaf ∈ rule.leaves,
      leaf.Avoids (postgres.resolve s) config '$' :=
    fun rule hr leaf hl => ha leaf (mem_leavesAll.2 ⟨rule, hr, hl⟩)
  have hdrafts : ∀ ts,
      List.Forall₂ (fun rule t => rule.draft Postgres.style config = .ok t) rules ts →
        ∀ t ∈ ts, t.Sound ∧ t.pieces.Spaced '$' := fun ts hts =>
    forall_of_forall₂ (((List.forall₂_and_left _ _).2 ⟨ha', hts⟩).imp
      fun rule t ⟨havoids, ht⟩ => ⟨rule.draft_sound postgres_writes ht,
        rule.draft_spaced (by decide) Postgres.style_spaced postgres_avoided havoids ht⟩)
  rw [compile_group_eq_ok_iff postgres_writes hn']
  constructor
  · rintro ⟨ts, hts, rfl⟩
    exact ⟨_, (forall₂_compile_iff postgres_writes 0 hn').2 ⟨ts, hts, rfl⟩,
      Draft.group_compiledAll glue (hdrafts ts hts)⟩
  · rintro ⟨parts, hparts, rfl⟩
    obtain ⟨ts, hts, rfl⟩ := (forall₂_compile_iff postgres_writes 0 hn').1 hparts
    exact ⟨ts, hts, Draft.group_compiledAll glue (hdrafts ts hts)⟩

/-- A range, a leaf that asks for nothing, and a group of values behind a predicate and a
key of a JSON column. -/
def mixedRules : List Node :=
  [.leaf { field := "a", operator := "between",
           operand := some (.range (some (.int 1)) (some (.int 2))) },
    .leaf { field := "b" },
    .group .and
      [.leaf { field := "b", includes := some [.int 3, .int 4], predicate := some "lower" },
        .leaf { field := "json:c.d", operator := "contains", operand := some (.scalar (.str "x")) }]]

/-- The last part begins at `$1` on its own, and at `$3` in the group. -/
theorem compile_group_renumbers_mixed :
    (compile postgres { predicates := ⟨[("lower", lowerPredicate)]⟩ } (.group .or mixedRules) 7).1 =
      .ok ⟨"( ( a > $1 AND a < $2 ) OR ( lower(b) IN($3,$4) AND " ++
          "(\"c\"->'d')::text LIKE '\"%' || $5 || '%\"' ) )",
        [.int 1, .int 2, .int 3, .int 4, .str "x"]⟩ := by
  refine (compile_group_renumbers.1 _ .or mixedRules 7 ?_ ?_ _).2
    ⟨[⟨"( a > $1 AND a < $2 )", [.int 1, .int 2]⟩, {},
      ⟨"( lower(b) IN($1,$2) AND (\"c\"->'d')::text LIKE '\"%' || $3 || '%\"' )",
        [.int 3, .int 4, .str "x"]⟩], .cons rfl (.cons rfl (.cons rfl .nil)), ?_⟩
  · simp only [Node.leaves]
    decide
  · intro leaf hl
    simp only [mixedRules, Node.leaves, leavesAll, List.append_nil, List.cons_append,
      List.nil_append, List.mem_cons, List.not_mem_nil, or_false] at hl
    rcases hl with rfl | rfl | rfl | rfl
    · exact ⟨by decide, fun _ _ _ _ h => by cases h⟩
    · exact ⟨by decide, fun _ _ _ _ h => by cases h⟩
    · refine ⟨by decide, fun name wrapper field sql hn hw hf hs => ?_⟩
      obtain rfl := Option.some.inj hn
      obtain rfl := Option.some.inj hw
      obtain rfl := Except.ok.inj hf
      obtain rfl := Except.ok.inj hs
      decide
    · exact ⟨by decide, fun _ _ _ _ h => by cases h⟩
  · rfl

end SqlFilter
