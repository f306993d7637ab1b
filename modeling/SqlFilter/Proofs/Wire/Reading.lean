/-
# Readers on documents

On the tree of a document a reader meets no problem of the text, and what it makes of the
tree can be said on the document:

* a plain document is read as it is, apart from the order of members and the names that
  are repeated (`Written.readJson_of_document?`), as long as it is not nested too deeply;
* what may be absent is absent if it is `null` (`Written.readOptional_of_document?`);
* a record is read field by field (`Written.exists_readRecord`): what the record is to be
  is said by a predicate for each field, and reading a field settles its own predicate and
  spoils no other (`Written.Settles`), so the order of the fields does not matter.
-/

import SqlFilter.Proofs.Wire.Documents

namespace SqlFilter
namespace Json
namespace Written

variable {α κ : Type}

/-! ### Plain documents -/

/-- Items that are read one by one are read together; `R` says what an item stands for,
and `f` what that is read as. -/
theorem mapM_eq_ok {ε α β γ : Type} {read : α → Except ε β} {R : α → γ → Prop} {f : γ → β}
    {items : List α} {things : List γ} (h : List.Forall₂ R items things)
    (hread : ∀ item, ∀ thing ∈ things, R item thing → read item = .ok (f thing)) :
    items.mapM read = .ok (things.map f) := by
  induction h with
  | nil => rfl
  | cons hitem _ ih =>
    have hrest := ih fun item thing ht => hread item thing (List.mem_cons_of_mem _ ht)
    rw [List.mapM_cons, hread _ _ (List.mem_cons_self ..) hitem, hrest]
    rfl

/-- The members of an object, where `f` is what a value is read as. -/
theorem readMembers_eq_ok {read : Written → Except Problem α} {f : Json → α}
    {members : List (Lexeme String × Written)} {docs : List (String × Json)}
    (h : List.Forall₂ SpellsMember members docs)
    (hread : ∀ w, ∀ d ∈ docs, w.document? = some d.2 → read w = .ok (f d.2)) :
    readMembers read members none = .ok (docs.map fun d => (d.1, f d.2)) := by
  have hmapM : members.mapM (fun m => do
      let name ← m.1.value
      return (name, ← read m.2)) = Except.ok (docs.map fun d => (d.1, f d.2)) := by
    refine mapM_eq_ok h fun m d hd hm => ?_
    rw [hm.1, hread _ d hd hm.2]
    rfl
  exact congrArg (· >>= ended none) hmapM

/-- What is neither an array nor an object is read as it is. -/
theorem readJson_of_depth_eq_zero {w : Written} {j : Json} (h : w.document? = some j)
    (hdepth : j.depth = 0) (depth : Nat) : w.readJson depth = .ok j.canonical := by
  cases w with
  | null =>
    obtain rfl := Option.some.inj h
    rw [readJson, canonical]
  | bool b =>
    obtain rfl := Option.some.inj h
    rw [readJson, canonical]
  | number n =>
    obtain ⟨x, hx, rfl⟩ := Option.map_eq_some_iff.1 h
    rw [readJson, toOption_eq_some_iff.1 hx, canonical, Except.map]
  | string s =>
    obtain ⟨x, hx, rfl⟩ := Option.map_eq_some_iff.1 h
    rw [readJson, toOption_eq_some_iff.1 hx, canonical, Except.map]
  | array items stop =>
    cases stop with
    | some p => cases h
    | none =>
      obtain ⟨docs, -, rfl⟩ := Option.map_eq_some_iff.1 h
      cases hdepth
  | object members stop =>
    cases stop with
    | some p => cases h
    | none =>
      obtain ⟨docs, -, rfl⟩ := Option.map_eq_some_iff.1 h
      cases hdepth
  | fault p => cases h

/-- **A document is read as it is spelled**, if it is not nested too deeply. -/
theorem readJson_of_document? {depth : Nat} {w : Written} {j : Json}
    (h : w.document? = some j) (hdepth : j.depth ≤ depth) :
    w.readJson depth = .ok j.canonical := by
  induction depth generalizing w j with
  | zero => exact readJson_of_depth_eq_zero h (Nat.le_zero.1 hdepth) 0
  | succ depth ih =>
    cases j with
    | arr docs =>
      obtain ⟨items, rfl, hitems⟩ := eq_array_of_document? h
      have hdocs := depthItems_le_iff.1 (Nat.le_of_succ_le_succ hdepth)
      have hmapM := mapM_eq_ok hitems fun w j hj hw => ih hw (hdocs j hj)
      rw [readJson, hmapM, canonical, canonicalItems_eq_map]
      rfl
    | obj docs =>
      obtain ⟨members, rfl, hmembers⟩ := eq_object_of_document? h
      have hdocs := depthMembers_le_iff.1 (Nat.le_of_succ_le_succ hdepth)
      have hread := readMembers_eq_ok hmembers fun w d hd hw => ih hw (hdocs d hd)
      rw [readJson, hread, canonical, canonicalMembers_eq_map]
      rfl
    | _ => exact readJson_of_depth_eq_zero h rfl _

/-- The items of an array are read one by one; `P` says what an item stands for, and `f` what
that is read as. -/
theorem readItems_of_document? {γ : Type} {read : Written → Except Problem α}
    {P : γ → Json → Prop} {f : γ → α} {things : List γ} {docs : List Json}
    (h : List.Forall₂ P things docs)
    (hread : ∀ w, ∀ thing ∈ things, ∀ j ∈ docs, P thing j → w.document? = some j →
      read w = .ok (f thing))
    {w : Written} (hw : w.document? = some (.arr docs)) :
    w.readItems read = .ok (things.map f) := by
  obtain ⟨items, rfl, hitems⟩ := eq_array_of_document? hw
  have hall : List.Forall₂
      (fun w thing => ∃ j ∈ docs, P thing j ∧ w.document? = some j) items things := by
    clear hread hw
    induction h generalizing items with
    | nil =>
      cases hitems
      exact .nil
    | @cons thing j things docs hj _ ih =>
      obtain _ | ⟨hw, hitems⟩ := hitems
      refine .cons ⟨j, List.mem_cons_self .., hj, hw⟩ ((ih _ hitems).imp fun w thing => ?_)
      rintro ⟨k, hk, hthing⟩
      exact ⟨k, List.mem_cons_of_mem _ hk, hthing⟩
  have hmapM := mapM_eq_ok hall fun w thing hthing ⟨j, hj, hp, hw⟩ =>
    hread w thing hthing j hj hp hw
  exact congrArg (· >>= ended none) hmapM

/-- **What may be absent** is read from the document that is there; `f` is what a document
is read as. -/
theorem readOptional_of_document? {read : Written → Except Problem α} {f : Json → α} {w : Written}
    {o : Option Json} (h : w.document? = some (o.getD .null)) (hne : o ≠ some .null)
    (hread : ∀ j, o = some j → w.document? = some j → read w = .ok (f j)) :
    w.readOptional read = .ok (o.map f) := by
  cases o with
  | none =>
    rw [eq_null_of_document? h]
    rfl
  | some j =>
    have hread := hread j rfl h
    cases w with
    | null =>
      obtain rfl : Json.null = j := Option.some.inj h
      exact absurd rfl hne
    | _ => rw [readOptional, hread, Except.map, Option.map_some]; exact fun h => by cases h

theorem readOptional_readString {w : Written} {o : Option String}
    (h : w.document? = some ((o.map Json.str).getD .null)) :
    w.readOptional readString = .ok o := by
  cases o with
  | none =>
    rw [eq_null_of_document? h]
    rfl
  | some s =>
    obtain ⟨lexeme, rfl, hs⟩ := eq_string_of_document? h
    rw [readOptional, readString, hs, Except.map]
    exact fun h => by cases h

theorem readOptional_readJson {depth : Nat} {w : Written} {o : Option Json}
    (h : w.document? = some (o.getD .null)) (hne : o ≠ some .null)
    (hdepth : ∀ j, o = some j → j.depth ≤ depth) :
    w.readOptional (readJson depth) = .ok (o.map canonical) :=
  readOptional_of_document? h hne fun j hj hw => readJson_of_document? hw (hdepth j hj)

theorem readOptional_readList {depth : Nat} {w : Written} {o : Option (List Json)}
    (h : w.document? = some ((o.map Json.arr).getD .null))
    (hdepth : ∀ docs, o = some docs → (Json.arr docs).depth ≤ depth) :
    w.readOptional (readList readJson depth) = .ok (o.map canonicalItems) := by
  cases o with
  | none =>
    rw [eq_null_of_document? h]
    rfl
  | some docs =>
    have hdepth := hdepth docs rfl
    cases depth with
    | zero => cases hdepth
    | succ depth =>
      have hdocs := depthItems_le_iff.1 (Nat.le_of_succ_le_succ hdepth)
      have hread := readItems_of_document? (List.forall₂_same.2 fun j _ => rfl)
        (fun w j hj k _ hjk hw => readJson_of_document? (hjk ▸ hw) (hdocs j hj)) h
      obtain ⟨items, rfl, -⟩ := eq_array_of_document? h
      rw [readOptional, readList, hread, ← canonicalItems_eq_map]
      · rfl
      · exact fun h => by cases h

/-! ### Records -/

section

variable {ρ : Type} {wanted : κ → ρ → Prop}

/-- A field of a record as a part of an object: under a name, and absent without a
document. -/
structure Slot (κ : Type) where
  name : String
  key : κ
  doc : Option Json

/-- A field without its key. -/
def Slot.part (f : Slot κ) : String × Option Json := (f.name, f.doc)

/-- Reading a field makes it what is wanted and spoils no other.  `wanted key record` says
that the field `key` of a record is what is wanted of it. -/
def Settles (wanted : κ → ρ → Prop) (key : κ) (read : ρ → Except Problem ρ) : Prop :=
  ∀ record, ∃ record', read record = .ok record' ∧ wanted key record' ∧
    ∀ k, wanted k record → wanted k record'

/-- Fields that are settled one by one are settled together. -/
theorem exists_foldlM_of_settles {read : κ → Written → ρ → Except Problem ρ}
    {given : List (κ × Written)} (h : ∀ p ∈ given, Settles wanted p.1 (read p.1 p.2)) (start : ρ) :
    ∃ record, given.foldlM (fun record (key, w) => read key w record) start = .ok record ∧
      ∀ key, key ∈ given.map Prod.fst ∨ wanted key start → wanted key record := by
  induction given generalizing start with
  | nil => exact ⟨start, rfl, fun key hk => hk.resolve_left (List.not_mem_nil)⟩
  | cons p given ih =>
    obtain ⟨next, hnext, hp, hkeep⟩ := h p (List.mem_cons_self ..) start
    obtain ⟨record, hrecord, hall⟩ := ih (fun q hq => h q (List.mem_cons_of_mem _ hq)) next
    refine ⟨record, ?_, fun key hk => hall key ?_⟩
    · rw [List.foldlM_cons]
      show (read p.1 p.2 start >>= _) = _
      rw [hnext]
      exact hrecord
    · rcases hk with hmem | hstart
      · rcases List.mem_cons.1 hmem with rfl | hmem
        · exact .inr hp
        · exact .inl hmem
      · exact .inr (hkeep key hstart)

variable [DecidableEq κ] {shape : Shape κ}

/-- The fields of an object of known names, none of them given twice. -/
theorem exists_memberFields {members : List (Lexeme String × Written)}
    {docs : List (String × Json)} (h : List.Forall₂ SpellsMember members docs)
    (hknown : ∀ d ∈ docs, ∃ key, shape.ofName? d.1 = some key)
    (hnodup : (docs.map fun d => shape.ofName? d.1).Nodup) {seen : List κ}
    (hseen : ∀ key ∈ seen, some key ∉ docs.map fun d => shape.ofName? d.1) :
    ∃ given, memberFields shape seen members none = ⟨given, none⟩ ∧
      (∀ p ∈ given, ∃ d ∈ docs, shape.ofName? d.1 = some p.1 ∧ p.2.document? = some d.2) ∧
      ∀ d ∈ docs, ∀ key, shape.ofName? d.1 = some key → key ∈ given.map Prod.fst := by
  induction h generalizing seen with
  | nil => exact ⟨[], rfl, by simp, by simp⟩
  | @cons m d ms ds hm _ ih =>
    obtain ⟨key, hkey⟩ := hknown d (List.mem_cons_self ..)
    obtain ⟨hfirst, hrest⟩ := List.nodup_cons.1 hnodup
    have hnew : key ∉ seen := fun hmem =>
      hseen key hmem (List.mem_map.2 ⟨d, List.mem_cons_self .., hkey⟩)
    have hlater : ∀ k ∈ key :: seen, some k ∉ ds.map fun d => shape.ofName? d.1 := by
      intro k hk
      rcases List.mem_cons.1 hk with rfl | hk
      · exact hkey ▸ hfirst
      · exact fun hmem => hseen k hk (List.mem_cons_of_mem _ hmem)
    obtain ⟨given, hgiven, hdocs, hkeys⟩ :=
      ih (fun e he => hknown e (List.mem_cons_of_mem _ he)) hrest hlater
    refine ⟨(key, m.2) :: given, ?_, fun p hp => ?_, fun e he k hk => ?_⟩
    · simp only [memberFields, hm.1, hkey, if_neg hnew, hgiven]
      rfl
    · rcases List.mem_cons.1 hp with rfl | hp
      · exact ⟨d, List.mem_cons_self .., hkey, hm.2⟩
      · obtain ⟨e, he, hpe⟩ := hdocs p hp
        exact ⟨e, List.mem_cons_of_mem _ he, hpe⟩
    · rcases List.mem_cons.1 he with rfl | he
      · obtain rfl := Option.some.inj (hkey.symm.trans hk)
        exact List.mem_cons_self ..
      · exact List.mem_cons_of_mem _ (hkeys e he k hk)

variable {members : List (String × Json)} {fields : List (Slot κ)}

/-- The fields that an object gives to a record: all but the absent ones, and some of
these. -/
theorem exists_memberFields_of_holds {trees : List (Lexeme String × Written)}
    (htrees : List.Forall₂ SpellsMember trees members)
    (hmembers : Holds members (fields.map Slot.part))
    (hname : ∀ f ∈ fields, shape.ofName? f.name = some f.key)
    (hnodup : (fields.map Slot.key).Nodup) :
    ∃ given, memberFields shape [] trees none = ⟨given, none⟩ ∧
      (∀ p ∈ given, ∃ f ∈ fields, f.key = p.1 ∧ p.2.document? = some (f.doc.getD .null)) ∧
      ∀ f ∈ fields, f.doc ≠ none → f.key ∈ given.map Prod.fst := by
  have hfield : ∀ m ∈ members, ∃ f ∈ fields, f.name = m.1 ∧ m.2 = f.doc.getD .null := by
    intro m hm
    obtain ⟨o, ho, hj⟩ := hmembers.part m hm
    obtain ⟨f, hf, heq⟩ := List.mem_map.1 ho
    obtain ⟨hfname, rfl⟩ := Prod.mk.inj heq
    exact ⟨f, hf, hfname, hj⟩
  have hknown : ∀ m ∈ members, ∃ key, shape.ofName? m.1 = some key := by
    intro m hm
    obtain ⟨f, hf, hfname, -⟩ := hfield m hm
    exact ⟨f.key, hfname ▸ hname f hf⟩
  -- two names of the object do not share a key, because no two fields do
  have hkeys : (members.map fun m => shape.ofName? m.1).Nodup := by
    have hon := hmembers.nodup.map_on (f := shape.ofName?) fun a ha b hb hab => by
      obtain ⟨m, hm, rfl⟩ := List.mem_map.1 ha
      obtain ⟨n, hn, rfl⟩ := List.mem_map.1 hb
      obtain ⟨f, hf, hfname, -⟩ := hfield m hm
      obtain ⟨g, hg, hgname, -⟩ := hfield n hn
      rw [← hfname, ← hgname, hname f hf, hname g hg] at hab
      obtain rfl := List.inj_on_of_nodup_map hnodup hf hg (Option.some.inj hab)
      exact hfname.symm.trans hgname
    rwa [List.map_map] at hon
  obtain ⟨given, hgiven, hdocs, hall⟩ :=
    exists_memberFields htrees hknown hkeys fun key hk => absurd hk List.not_mem_nil
  refine ⟨given, hgiven, fun p hp => ?_, fun f hf hdoc => ?_⟩
  · obtain ⟨m, hm, hkey, hdoc⟩ := hdocs p hp
    obtain ⟨f, hf, hfname, hj⟩ := hfield m hm
    rw [← hfname, hname f hf] at hkey
    exact ⟨f, hf, Option.some.inj hkey, hdoc.trans (congrArg some hj)⟩
  · obtain ⟨j, hj⟩ := Option.ne_none_iff_exists'.1 hdoc
    have hmem := hmembers.given f.name j (List.mem_map.2 ⟨f, hf, by rw [Slot.part, hj]⟩)
    exact hall _ hmem f.key (hname f hf)

/-- **A record is read field by field**, each field as if it were the only one; a field that
the object does not have stays as it is at the start. -/
theorem exists_readRecord (shape : Shape κ) (wanted : κ → ρ → Prop) (start : ρ)
    (read : κ → Written → ρ → Except Problem ρ) (fields : List (Slot κ))
    (hmembers : Holds members (fields.map Slot.part))
    (hname : ∀ f ∈ fields, shape.ofName? f.name = some f.key)
    (hnodup : (fields.map Slot.key).Nodup)
    (hread : ∀ f ∈ fields, ∀ w, w.document? = some (f.doc.getD .null) →
      Settles wanted f.key (read f.key w))
    (habsent : ∀ f ∈ fields, f.doc = none → wanted f.key start)
    (hother : ∀ key, key ∈ fields.map Slot.key ∨ wanted key start)
    {w : Written} (hw : w.document? = some (.obj members)) :
    ∃ record, w.readRecord shape start read = .ok record ∧ ∀ key, wanted key record := by
  obtain ⟨trees, rfl, htrees⟩ := eq_object_of_document? hw
  obtain ⟨given, hgiven, hdocs, hall⟩ := exists_memberFields_of_holds htrees hmembers hname hnodup
  have hsettles : ∀ p ∈ given, Settles wanted p.1 (read p.1 p.2) := by
    intro p hp
    obtain ⟨f, hf, hkey, hdoc⟩ := hdocs p hp
    exact hkey ▸ hread f hf p.2 hdoc
  obtain ⟨record, hrecord, hwanted⟩ := exists_foldlM_of_settles hsettles start
  refine ⟨record, ?_, fun key => hwanted key ?_⟩
  · rw [readRecord, recordFields, hgiven]
    show (given.foldlM _ start >>= fun record => ended none record) = _
    rw [hrecord]
    rfl
  · rcases hother key with hkey | hkey
    · obtain ⟨f, hf, rfl⟩ := List.mem_map.1 hkey
      by_cases hdoc : f.doc = none
      · exact .inr (habsent f hf hdoc)
      · exact .inl (hall f hf hdoc)
    · exact .inr hkey

end

end Written

/-! ### Texts -/

/-- A text is read like the tree of the document that it spells. -/
theorem read_of_spells {α : Type} {reader : Written → Except Problem α} {text : String} {j : Json}
    {result : α} (h : Spells text j) (hread : ∀ w, w.document? = some j → reader w = .ok result) :
    read reader text = .ok result := by
  obtain ⟨w, rest, htext, hblank, hw⟩ := h
  rw [read, htext]
  show (reader w >>= fun result => if ((some rest).getD []).all isBlank then _ else _) = _
  rw [hread w hw]
  exact if_pos hblank

end Json
end SqlFilter
