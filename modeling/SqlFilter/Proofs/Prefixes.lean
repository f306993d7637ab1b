/-
# Fields behind a prefix

A whitelist of prefixes such as `json:cfg.` is meant for the keys of a JSON column.  It
looks at the front of a field, and the reader of references looks at its dots and colons,
so the two do not ask for the same.  `FieldRef.isSome_parse_iff` says what the reader asks
of the text behind the prefix:

| behind `json:column.` | is read as |
| --- | --- |
| `key` or `key:type`, without dots | a key of the column |
| `json:other.key` or `json:other.key:type` | a key of `other` in the table `json:column` |
| all other texts, such as `a.b`, `:type` and nothing | no reference |

Of a reference nothing but its type stands outside the quotes of what Postgres writes for
it (`Postgres.shows_jsonExpr`), and the type is a plain name.  A field that is no
reference is an ordinary column, and is written as it is, also behind such a prefix.  So it
is in the text of a leaf (`compile_behind_prefix`), as long as no predicate and no
configured operation has a part in the text: these may write what they like.
-/

import SqlFilter.Config.Settings
import SqlFilter.Proofs.Quoting

namespace SqlFilter

/-! ### References -/

namespace FieldRef

/-- The last part of a reference names a key: something stands before its first colon. -/
def NamesKey (last : List Char) : Prop :=
  ∃ c cs, last = c :: cs ∧ c ≠ ':'

/-- A text completes `json:column.` to a reference: it is a key with its type and has no
dot, or it is marked again, and then what is in front of it is the table. -/
def Completes (rest : List Char) : Prop :=
  ('.' ∉ rest ∧ NamesKey rest) ∨
    ∃ column last, rest = marker.toList ++ column ++ '.' :: last ∧ column ≠ [] ∧
      '.' ∉ column ∧ NamesKey last

theorem keyAndType_fst_isEmpty (last : List Char) :
    (keyAndType last).1.isEmpty = false ↔ NamesKey last := by
  rcases hk : keyAndType last with ⟨key, type⟩
  obtain ⟨rfl, hcolon⟩ := keyAndType_eq_iff.1 hk
  cases key with
  | nil => cases type <;> simp [NamesKey]
  | cons c cs =>
    have hc : c ≠ ':' := fun h => hcolon (h ▸ List.mem_cons_self)
    simp [NamesKey, hc]

/-- **The parts of a reference**: a marked column that is not empty, and a key. -/
theorem isSome_ofParts_iff {table : Option (List Char)} {marked last : List Char} :
    (ofParts table marked last).isSome = true ↔
      ∃ column, marked = marker.toList ++ column ∧ column ≠ [] ∧ NamesKey last := by
  constructor
  · intro h
    rw [ofParts] at h
    cases hp : marker.toList.isPrefixOf? marked with
    | none => rw [hp] at h; cases h
    | some column =>
      rw [hp] at h
      simp only at h
      split at h
      · cases h
      · rename_i hempty
        simp only [Bool.or_eq_true, not_or, Bool.not_eq_true] at hempty
        exact ⟨column, isPrefixOf?_eq_some_iff.1 hp, List.isEmpty_eq_false_iff.1 hempty.1,
          (keyAndType_fst_isEmpty last).1 hempty.2⟩
  · rintro ⟨column, rfl, hcolumn, hkey⟩
    rw [ofParts, isPrefixOf?_eq_some_iff.2 rfl]
    simp [List.isEmpty_eq_false_iff.2 hcolumn, (keyAndType_fst_isEmpty last).2 hkey]

/-- **What is read as a reference behind a marked column.** -/
theorem isSome_parse_iff {raw : String} {column rest : List Char} (hcolumn : column ≠ [])
    (hdot : '.' ∉ column) (hraw : raw.toList = marker.toList ++ column ++ '.' :: rest) :
    (parse raw).isSome = true ↔ Completes rest := by
  have hfirst : cut '.' raw.toList = some (marker.toList ++ column, rest) := by
    refine cut_eq_some_iff.2 ⟨hraw, ?_⟩
    rw [List.mem_append, not_or]
    exact ⟨by decide, hdot⟩
  rw [parse, hfirst]
  -- without a second dot the marked part is the first, and with one it is the second
  cases hcut : cut '.' rest with
  | none =>
    have hrest := cut_eq_none_iff.1 hcut
    simp only [hcut, isSome_ofParts_iff]
    constructor
    · rintro ⟨-, -, -, hkey⟩
      exact .inl ⟨hrest, hkey⟩
    · rintro (⟨-, hkey⟩ | ⟨column', last, rfl, -⟩)
      · exact ⟨column, rfl, hcolumn, hkey⟩
      · exact absurd (by simp) hrest
  | some p =>
    obtain ⟨second, third⟩ := p
    obtain ⟨hrest, hsecond⟩ := cut_eq_some_iff.1 hcut
    simp only [hcut, isSome_ofParts_iff]
    constructor
    · rintro ⟨column', rfl, hcolumn', hkey⟩
      rw [List.mem_append, not_or] at hsecond
      exact .inr ⟨column', third, hrest, hcolumn', hsecond.2, hkey⟩
    · rintro (⟨hnone, -⟩ | ⟨column', last, heq, hcolumn', hdot', hkey⟩)
      · exact absurd (by simp [hrest]) hnone
      · have hmarked : cut '.' rest = some (marker.toList ++ column', last) := by
          refine cut_eq_some_iff.2 ⟨heq, ?_⟩
          rw [List.mem_append, not_or]
          exact ⟨by decide, hdot'⟩
        obtain ⟨rfl, rfl⟩ := Prod.mk.inj (Option.some.inj (hcut.symm.trans hmarked))
        exact ⟨column', rfl, hcolumn', hkey⟩

end FieldRef

/-! ### Admitted fields -/

/-- A prefix of the form `json:column.`, with a column that is not empty and has no dot. -/
def FieldRef.IsColumnPrefix (p : String) : Prop :=
  ∃ column, column ≠ [] ∧ '.' ∉ column ∧ p.toList = marker.toList ++ column ++ ['.']

/-- The whitelist admits what starts with one of the prefixes, and nothing else. -/
def Whitelist.IsOfPrefixes (w : Whitelist) (prefixes : List String) : Prop :=
  ∀ field, w.admits field = true ↔ ∃ p ∈ prefixes, p.toList <+: field.toList

/-- A whitelist with nothing but a test admits what passes the test. -/
theorem Whitelist.admits_setTest {test : String → Bool} {field : String} :
    (Whitelist.setTest {} test).admits field = true ↔ test field = true := by
  simp [admits_iff, setTest, hasRule]

/-- A field passes the test of a file if it starts with one of the prefixes. -/
theorem Settings.startsWithAny_iff {prefixes : List String} {field : String} :
    startsWithAny prefixes field = true ↔ ∃ p ∈ prefixes, p.toList <+: field.toList := by
  simp [startsWithAny]

/-- **The whitelist of a file that lists prefixes and no names.** -/
theorem Settings.isOfPrefixes_toWhitelist {file : Settings} (hnames : file.whitelist = none)
    (hprefixes : file.prefixes ≠ []) : file.toWhitelist.IsOfPrefixes file.prefixes := by
  intro field
  rw [toWhitelist, hnames, if_neg (by simpa using hprefixes), Whitelist.admits_setTest,
    startsWithAny_iff]

/-- A type that is no plain identifier is refused. -/
theorem postgres_resolve_of_parse_eq_some {n : Nat} {raw : String} {ref : FieldRef}
    (h : FieldRef.parse raw = some ref) :
    (∃ type, ref.type = some type ∧ Identifier.isPlain type = false ∧
        postgres.resolve n raw = .error (.invalidCastType raw type)) ∨
      postgres.resolve n raw = .ok ⟨Postgres.jsonExpr ref, true⟩ ∧
        ∀ type ∈ ref.type, Identifier.isPlain type = true := by
  rw [Dialect.resolve, h]
  cases ht : ref.type with
  | none =>
    refine .inr ⟨?_, fun type hm => absurd hm (by simp)⟩
    simp only [postgres, ht]
  | some type =>
    cases hplain : Identifier.isPlain type with
    | false =>
      refine .inl ⟨type, rfl, hplain, ?_⟩
      simp [postgres, ht, hplain]
    | true =>
      refine .inr ⟨?_, fun type' hm => Option.some.inj hm ▸ hplain⟩
      simp [postgres, ht, hplain]

/-- **How fields behind prefixes of JSON columns are resolved.**  Where the text behind the
prefix completes a reference, the field is read as one.  Every other field is a column. -/
theorem postgres_resolve_behind_prefix {w : Whitelist} {prefixes : List String}
    (hw : w.IsOfPrefixes prefixes) (hprefixes : ∀ p ∈ prefixes, FieldRef.IsColumnPrefix p)
    {raw : String} (hraw : w.admits raw = true) :
    ∃ column rest, column ≠ [] ∧ '.' ∉ column ∧
      raw.toList = FieldRef.marker.toList ++ column ++ '.' :: rest ∧
      (FieldRef.Completes rest → ∃ ref, FieldRef.parse raw = some ref) ∧
      (¬FieldRef.Completes rest → ∀ n, postgres.resolve n raw = .ok ⟨raw, false⟩) := by
  obtain ⟨p, hp, rest, hrest⟩ := (hw raw).1 hraw
  obtain ⟨column, hcolumn, hdot, hpre⟩ := hprefixes p hp
  have heq : raw.toList = FieldRef.marker.toList ++ column ++ '.' :: rest := by
    rw [← hrest, hpre, List.append_assoc, List.singleton_append]
  have hparse := FieldRef.isSome_parse_iff hcolumn hdot heq
  refine ⟨column, rest, hcolumn, hdot, heq, fun hcompletes => ?_, fun hcompletes n => ?_⟩
  · exact Option.isSome_iff_exists.1 (hparse.2 hcompletes)
  · have hnone : FieldRef.parse raw = none := by
      rw [← Option.not_isSome_iff_eq_none]
      exact fun h => hcompletes (hparse.1 h)
    rw [Dialect.resolve, hnone]

/-- **What a field behind the prefix of a JSON column leaves in the SQL text.**  Where the
text behind the prefix completes a reference, the field and its leaf are refused for the
type, or the field is resolved to an expression that leaves nothing of it outside the quotes
but the plain type of the cast.  Every other field is a column, and is resolved to itself.

A leaf without a predicate is written accordingly, wherever it stands in a filter.  The text
of what it asks of a reference is outside the quotes that of the same condition on the
frame, and the text of what it asks of a column has the column unquoted at its front.  A
leaf that runs no configured operation has no other text. -/
theorem compile_behind_prefix {config : Config} {prefixes : List String}
    (hw : config.whitelist.IsOfPrefixes prefixes)
    (hprefixes : ∀ p ∈ prefixes, FieldRef.IsColumnPrefix p) (n : Nat) {leaf : Leaf}
    (hfield : config.whitelist.admits leaf.field = true) :
    ∃ column rest, column ≠ [] ∧ '.' ∉ column ∧
      leaf.field.toList = FieldRef.marker.toList ++ column ++ '.' :: rest ∧
      (FieldRef.Completes rest → ∃ ref, FieldRef.parse leaf.field = some ref ∧
        ((∃ type, ref.type = some type ∧ Identifier.isPlain type = false ∧
            postgres.resolve n leaf.field = .error (.invalidCastType leaf.field type) ∧
            ((leaf.compile postgres config).run n).1 =
              .error (.invalidCastType leaf.field type)) ∨
          postgres.resolve n leaf.field = .ok ⟨Postgres.jsonExpr ref, true⟩ ∧
            (∀ type ∈ ref.type, Identifier.isPlain type = true) ∧
            Postgres.outside (Postgres.jsonExpr ref) = Postgres.frame ref ∧
            (leaf.predicate = none → ∀ c, leaf.Asks config c → ∃ text,
              ((leaf.compile postgres config).run n).1 = .ok ⟨text, c.values⟩ ∧
              Postgres.outside text =
                Postgres.outside (c.sqlOn postgres n ⟨Postgres.frame ref, true⟩)))) ∧
      (¬FieldRef.Completes rest → postgres.resolve n leaf.field = .ok ⟨leaf.field, false⟩ ∧
        (leaf.predicate = none → ∀ c, leaf.Asks config c → ∃ before behind,
          ((leaf.compile postgres config).run n).1 =
            .ok ⟨before ++ leaf.field ++ behind, c.values⟩ ∧ (before = "" ∨ before = "( "))) ∧
      (leaf.runsOperation config = false → ∀ c,
        ((leaf.compile postgres config).run n).1 = .ok c →
          c.sql = "" ∨ ∃ condition, leaf.Asks config condition) := by
  obtain ⟨column, rest, hcolumn, hdot, heq, href, hplain⟩ :=
    postgres_resolve_behind_prefix hw hprefixes hfield
  have hf : leaf.field ≠ "" := by
    intro hempty
    rw [hempty] at heq
    cases heq
  refine ⟨column, rest, hcolumn, hdot, heq, fun hcompletes => ?_, fun hcompletes => ?_, ?_⟩
  · obtain ⟨ref, href⟩ := href hcompletes
    refine ⟨ref, href, (postgres_resolve_of_parse_eq_some href (n := n)).imp ?_ ?_⟩
    · rintro ⟨type, htype, hnot, herror⟩
      exact ⟨type, htype, hnot, herror, Leaf.run_compile_of_resolve hf hfield herror⟩
    · rintro ⟨hok, htype⟩
      have hshows := Postgres.shows_jsonExpr htype
      refine ⟨hok, htype, hshows.outside_eq, fun hpredicate c hc => ?_⟩
      exact ⟨_, Leaf.run_compile_of_asks hf hfield hok hpredicate hc,
        c.outside_sqlOn hshows (Postgres.unquoted_frame htype).shows n true⟩
  · have hok := hplain hcompletes n
    refine ⟨hok, fun hpredicate c hc => ?_⟩
    obtain ⟨before, behind, hsql, hbefore⟩ := c.exists_sqlOn_eq n ⟨leaf.field, false⟩
    have hrun := Leaf.run_compile_of_asks hf hfield hok hpredicate hc
    rw [hsql] at hrun
    exact ⟨before, behind, hrun, hbefore⟩
  · exact fun hoperation c hrun => Leaf.asks_of_run_compile hoperation hrun

/-- A file that admits the keys of one column. -/
def keysOfCfg : Settings := { prefixes := ["json:cfg."] }

theorem isColumnPrefix_of_mem_keysOfCfg : ∀ p ∈ keysOfCfg.prefixes, FieldRef.IsColumnPrefix p := by
  intro p hp
  obtain rfl := List.mem_singleton.1 hp
  exact ⟨['c', 'f', 'g'], by decide, by decide, by decide⟩

theorem isOfPrefixes_keysOfCfg : keysOfCfg.toWhitelist.IsOfPrefixes keysOfCfg.prefixes :=
  Settings.isOfPrefixes_toWhitelist rfl (by decide)

/-- A key with a quote and a type. -/
def quotedKey : Leaf :=
  { field := "json:cfg.it's:int", operator := "equal", operand := some (.scalar (.int 1)) }

/-- The quote of a key stays inside the quotes. -/
theorem compile_behind_prefix_quote :
    keysOfCfg.toConfig.whitelist.admits quotedKey.field = true ∧
      ((quotedKey.compile postgres keysOfCfg.toConfig).run 0).1 =
        .ok ⟨"(\"cfg\"->'it''s')::int = $1", [.int 1]⟩ ∧
      Postgres.outside "(\"cfg\"->'it''s')::int = $1" = "(->)::int = $1" := by
  have hadmits : keysOfCfg.toConfig.whitelist.admits quotedKey.field = true := by decide
  have hrun : ((quotedKey.compile postgres keysOfCfg.toConfig).run 0).1 =
      .ok ⟨"(\"cfg\"->'it''s')::int = $1", [.int 1]⟩ := by rfl
  have hasks : quotedKey.Asks keysOfCfg.toConfig (.compare .equal (.int 1)) :=
    .inr ⟨rfl, by decide, .compare .equal, rfl, rfl⟩
  refine ⟨hadmits, hrun, ?_⟩
  obtain ⟨column, rest, -, -, -, hquoted, hplain, -⟩ := compile_behind_prefix
    isOfPrefixes_keysOfCfg isColumnPrefix_of_mem_keysOfCfg 0 hadmits
  have hcompletes : FieldRef.Completes rest := by
    refine Classical.byContradiction fun h => ?_
    have hresolve : postgres.resolve 0 quotedKey.field =
        .ok ⟨"(\"cfg\"->'it''s')::int", true⟩ := by rfl
    have hfield := Except.ok.inj ((hplain h).1.symm.trans hresolve)
    exact absurd (congrArg FieldExpr.isJson hfield) (by decide)
  obtain ⟨ref, href, ⟨type, htype, hnot, -⟩ | ⟨-, -, -, htext⟩⟩ := hquoted hcompletes
  · obtain rfl : ⟨none, "cfg", "it's", some "int"⟩ = ref := Option.some.inj href
    obtain rfl : "int" = type := Option.some.inj htype
    exact absurd hnot (by decide)
  · obtain rfl : ⟨none, "cfg", "it's", some "int"⟩ = ref := Option.some.inj href
    obtain ⟨text, htext, hout⟩ := htext rfl _ hasks
    obtain rfl : text = "(\"cfg\"->'it''s')::int = $1" :=
      congrArg Compiled.sql (Except.ok.inj (htext.symm.trans hrun))
    exact hout

/-- **A prefix of a JSON column admits text that is written as it is.**  With a dot behind
the key the field is no reference, and its words stand in the SQL text. -/
theorem prefix_admits_unquoted :
    (∀ p ∈ keysOfCfg.prefixes, FieldRef.IsColumnPrefix p) ∧
      keysOfCfg.toWhitelist.IsOfPrefixes keysOfCfg.prefixes ∧
      keysOfCfg.toWhitelist.admits "json:cfg.a.b = 0 OR 1" = true ∧
      ¬((∃ e, postgres.resolve 0 "json:cfg.a.b = 0 OR 1" = .error e) ∨
        ∃ sql, postgres.resolve 0 "json:cfg.a.b = 0 OR 1" = .ok ⟨sql, true⟩) ∧
      (compile postgres keysOfCfg.toConfig (.leaf
        { field := "json:cfg.a.b = 0 OR 1", operator := "equal",
          operand := some (.scalar (.int 1)) }) 0).1 =
        .ok ⟨"json:cfg.a.b = 0 OR 1 = $1", [.int 1]⟩ := by
  have hresolve : postgres.resolve 0 "json:cfg.a.b = 0 OR 1" =
      .ok ⟨"json:cfg.a.b = 0 OR 1", false⟩ := by rfl
  refine ⟨isColumnPrefix_of_mem_keysOfCfg, isOfPrefixes_keysOfCfg, by decide, ?_, by rfl⟩
  rintro (⟨e, he⟩ | ⟨sql, hsql⟩)
  · cases hresolve.symm.trans he
  · cases hresolve.symm.trans hsql

end SqlFilter
