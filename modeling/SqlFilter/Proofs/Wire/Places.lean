/-
# Places in an object

A `Place` is an object with a gap among its members.  A value can be put into the gap
(`Place.fill`), or the member can be left out (`Place.drop`).  Two readings are `Alike` if
they meet the same problem, or give results that are related.

| change at a place | where | the record |
| --- | --- | --- |
| a `null` is left out | no other member gives its field | is the same (`readRecord_drop`) |
| a value is replaced | both values are read alike | is alike (`alike_readRecord_fill`) |
| a value is replaced | the name is no field, and both are passed over alike | is alike (`alike_readRecord_fill_other`) |

All of them go member by member up to the place, which is one induction (`alike_append`): a
relation between what is read on both sides is kept by every member before the place.
-/

import SqlFilter.Proofs.Wire.Numbers

namespace SqlFilter
namespace Json

/-! ### Results that are alike -/

/-- The same problem, or results in a relation. -/
inductive Alike {ε α : Type} (R : α → α → Prop) : Except ε α → Except ε α → Prop
  | ok {a b : α} (h : R a b) : Alike R (.ok a) (.ok b)
  | error (e : ε) : Alike R (.error e) (.error e)

namespace Alike

variable {ε α β : Type} {R : α → α → Prop} {S : β → β → Prop} {x y : Except ε α}

theorem of_self (h : ∀ a, x = .ok a → R a a) : Alike R x x := by
  cases x with
  | error e => exact .error e
  | ok a => exact .ok (h a rfl)

theorem eq (h : Alike Eq x y) : x = y := by
  cases h with
  | ok h => exact congrArg Except.ok h
  | error e => rfl

/-- Steps that are alike, one after the other. -/
theorem bind (h : Alike R x y) {f g : α → Except ε β} (hstep : ∀ a b, R a b → Alike S (f a) (g b)) :
    Alike S (x >>= f) (y >>= g) := by
  cases h with
  | ok h => exact hstep _ _ h
  | error e => exact .error e

theorem map (h : Alike R x y) {f g : α → β} (hmap : ∀ a b, R a b → S (f a) (g b)) :
    Alike S (x.map f) (y.map g) := by
  cases h with
  | ok h => exact .ok (hmap _ _ h)
  | error e => exact .error e

/-- Two ways to go on from one step. -/
theorem bind_self {f g : α → Except ε β} (hstep : ∀ a, Alike S (f a) (g a)) :
    Alike S (x >>= f) (x >>= g) := by
  cases x with
  | ok a => exact hstep a
  | error e => exact .error e

end Alike

namespace Written

variable {κ ρ : Type}

/-! ### Reading the fields of a record -/

/-- Reads fields one after the other, and then meets the problem behind them. -/
def Fields.read (read : κ → Written → ρ → Except Problem ρ) (fields : Fields κ) (record : ρ) :
    Except Problem ρ := do
  let record ← fields.given.foldlM (fun record (key, w) => read key w record) record
  ended fields.stop record

theorem Fields.read_cons (read : κ → Written → ρ → Except Problem ρ) (key : κ) (w : Written)
    (fields : Fields κ) (record : ρ) :
    (fields.cons key w).read read record = read key w record >>= fields.read read := by
  rw [Fields.read, Fields.cons, List.foldlM_cons, bind_assoc]
  rfl

variable [DecidableEq κ]

theorem readRecord_object (shape : Shape κ) (start : ρ) (read : κ → Written → ρ → Except Problem ρ)
    (members : List (Lexeme String × Written)) (stop : Option Problem) :
    (object members stop).readRecord shape start read =
      (memberFields shape [] members stop).read read start :=
  rfl

section

variable {shape : Shape κ} {read : κ → Written → ρ → Except Problem ρ} {stop : Option Problem}
  {R : ρ → ρ → Prop}

/-- **Up to a place** in an object, the members before it are read on both sides.  `S` relates
what is read of them, given the keys that were seen, and every member keeps it; so what
follows from it at the place follows for the object. -/
theorem alike_append {S : List κ → ρ → ρ → Prop} {before tail tail' : List (Lexeme String × Written)}
    (hkeep : ∀ m ∈ before, ∀ n key, m.1.value = .ok n → shape.ofName? n = some key →
      ∀ seen r r', S seen r r' → Alike (S (key :: seen)) (read key m.2 r) (read key m.2 r'))
    (htail : ∀ seen r r', S seen r r' → Alike R ((memberFields shape seen tail stop).read read r)
      ((memberFields shape seen tail' stop).read read r'))
    {seen : List κ} {r r' : ρ} (h : S seen r r') :
    Alike R ((memberFields shape seen (before ++ tail) stop).read read r)
      ((memberFields shape seen (before ++ tail') stop).read read r') := by
  induction before generalizing seen r r' with
  | nil => exact htail seen r r' h
  | cons m before ih =>
    obtain ⟨hfirst, hrest⟩ := List.forall_mem_cons.1 hkeep
    obtain ⟨name, w⟩ := m
    cases hname : name.value with
    | error p =>
      simp only [List.cons_append, memberFields, hname]
      exact .error p
    | ok n =>
      cases hkey : shape.ofName? n with
      | some key =>
        by_cases hseen : key ∈ seen
        · simp only [List.cons_append, memberFields, hname, hkey, if_pos hseen]
          exact .error _
        · simp only [List.cons_append, memberFields, hname, hkey, if_neg hseen, Fields.read_cons]
          exact (hfirst n key hname hkey seen r r' h).bind fun _ _ => ih hrest
      | none =>
        simp only [List.cons_append, memberFields, hname, hkey]
        split
        · split
          · exact .error _
          · exact ih hrest h
        · exact .error _

/-- The same members, read on both sides. -/
theorem alike_members {members : List (Lexeme String × Written)}
    (hkeep : ∀ key w r r', R r r' → Alike R (read key w r) (read key w r')) {seen : List κ}
    {r r' : ρ} (h : R r r') :
    Alike R ((memberFields shape seen members stop).read read r)
      ((memberFields shape seen members stop).read read r') := by
  have hnil : ∀ (seen : List κ) (r r' : ρ), R r r' →
      Alike R ((memberFields shape seen [] stop).read read r)
        ((memberFields shape seen [] stop).read read r') := by
    intro seen r r' h
    cases stop with
    | none => exact .ok h
    | some p => exact .error p
  have hall : Alike R ((memberFields shape seen (members ++ []) stop).read read r)
      ((memberFields shape seen (members ++ []) stop).read read r') :=
    alike_append (S := fun _ => R) (fun m _ _ key _ _ _ r r' h => hkeep key m.2 r r' h) hnil h
  rwa [List.append_nil] at hall

/-- A key that no member gives may be seen or not. -/
theorem memberFields_seen {key : κ} {members : List (Lexeme String × Written)}
    (hother : ∀ m ∈ members, ∀ n, m.1.value = .ok n → shape.ofName? n ≠ some key)
    {seen seen' : List κ} (hseen : ∀ k, k ≠ key → (k ∈ seen ↔ k ∈ seen')) :
    memberFields shape seen members stop = memberFields shape seen' members stop := by
  induction members generalizing seen seen' with
  | nil => rfl
  | cons m members ih =>
    obtain ⟨hfirst, hrest⟩ := List.forall_mem_cons.1 hother
    obtain ⟨name, w⟩ := m
    simp only [memberFields]
    cases hname : name.value with
    | error p => rfl
    | ok n =>
      cases hkey : shape.ofName? n with
      | some k =>
        have hk : k ≠ key := fun heq => hfirst n hname (heq ▸ hkey)
        have hnext : ∀ l, l ≠ key → (l ∈ k :: seen ↔ l ∈ k :: seen') := by
          intro l hl
          rw [List.mem_cons, List.mem_cons, hseen l hl]
        simp only [hkey, hseen k hk, ih hrest hnext]
      | none => simp only [hkey, ih hrest hseen]

end

end Written

/-! ### Places -/

/-- An object with a gap among its members, under a name. -/
structure Place where
  before : List (Lexeme String × Written)
  name : Lexeme String
  after : List (Lexeme String × Written)
  stop : Option Problem

namespace Place

/-- The object with a value in the gap. -/
def fill (p : Place) (w : Written) : Written :=
  .object (p.before ++ (p.name, w) :: p.after) p.stop

/-- The object without the member. -/
def drop (p : Place) : Written :=
  .object (p.before ++ p.after) p.stop

/-- The name of the gap. -/
def Named (p : Place) (n : String) : Prop :=
  p.name.value = .ok n

theorem Named.value {p : Place} {n : String} (hn : p.Named n) : p.name.value = .ok n :=
  hn

/-- No other member has one of the names. -/
def Only (p : Place) (names : String → Prop) : Prop :=
  ∀ m ∈ p.before ++ p.after, ∀ n, m.1.value = .ok n → ¬names n

variable {κ ρ : Type} [DecidableEq κ] {p : Place} {shape : Written.Shape κ} {n : String} {key : κ}
  {read : κ → Written → ρ → Except Problem ρ}

open Written

/-- **A `null` that is left out** of a record makes no difference, if no other member gives its
field, and a `null` leaves the field of a record as it is while it is unset. -/
theorem readRecord_drop (hn : p.Named n) (hkey : shape.ofName? n = some key)
    (honly : p.Only (shape.ofName? · = some key)) (Unset : ρ → Prop) {start : ρ}
    (hstart : Unset start) (hnull : ∀ r, Unset r → read key .null r = .ok r)
    (hkeep : ∀ k w r r', k ≠ key → Unset r → read k w r = .ok r' → Unset r') :
    (p.fill .null).readRecord shape start read = p.drop.readRecord shape start read := by
  have hbefore : ∀ m ∈ p.before, ∀ n, m.1.value = .ok n → shape.ofName? n ≠ some key :=
    fun m hm => honly m (List.mem_append_left _ hm)
  have hafter : ∀ m ∈ p.after, ∀ n, m.1.value = .ok n → shape.ofName? n ≠ some key :=
    fun m hm => honly m (List.mem_append_right _ hm)
  let S (seen : List κ) (r r' : ρ) : Prop := r = r' ∧ Unset r ∧ key ∉ seen
  rw [fill, drop, readRecord_object, readRecord_object]
  refine Alike.eq (alike_append (S := S) ?_ ?_ ⟨rfl, hstart, List.not_mem_nil⟩)
  · rintro m hm n k hname hk seen r _ ⟨rfl, hunset, hseen⟩
    have hne : k ≠ key := fun heq => hbefore m hm n hname (heq ▸ hk)
    refine .of_self fun r' hread => ⟨rfl, hkeep k m.2 r r' hne hunset hread, ?_⟩
    exact List.not_mem_cons_of_ne_of_not_mem hne.symm hseen
  · rintro seen r _ ⟨rfl, hunset, hseen⟩
    have hfields : memberFields shape (key :: seen) p.after p.stop =
        memberFields shape seen p.after p.stop :=
      memberFields_seen hafter fun k hk => by simp [hk]
    simp only [memberFields, hn.value, hkey, if_neg hseen, Fields.read_cons, hnull r hunset, hfields]
    exact .of_self fun _ _ => rfl

variable {R : ρ → ρ → Prop} {start : ρ} {w w' : Written}

/-- **A value that is replaced** by another that is read alike leaves the record alike. -/
theorem alike_readRecord_fill (hn : p.Named n) (hkey : shape.ofName? n = some key)
    (hkeep : ∀ k v r r', R r r' → Alike R (read k v r) (read k v r'))
    (hread : ∀ r r', R r r' → Alike R (read key w r) (read key w' r')) (hstart : R start start) :
    Alike R ((p.fill w).readRecord shape start read) ((p.fill w').readRecord shape start read) := by
  rw [fill, fill, readRecord_object, readRecord_object]
  refine alike_append (S := fun _ => R) (fun m _ _ k _ _ _ r r' h => hkeep k m.2 r r' h) ?_ hstart
  intro seen r r' h
  simp only [memberFields, hn.value, hkey]
  split
  · exact .error _
  · simp only [Fields.read_cons]
    exact (hread r r' h).bind fun _ _ => alike_members hkeep

/-- **A value under another name** may be replaced by one that is passed over alike. -/
theorem alike_readRecord_fill_other (hn : p.Named n) (hkey : shape.ofName? n = none)
    (hkeep : ∀ k v r r', R r r' → Alike R (read k v r) (read k v r'))
    (hskip : w.skip = w'.skip) (hstart : R start start) :
    Alike R ((p.fill w).readRecord shape start read) ((p.fill w').readRecord shape start read) := by
  rw [fill, fill, readRecord_object, readRecord_object]
  refine alike_append (S := fun _ => R) (fun m _ _ k _ _ _ r r' h => hkeep k m.2 r r' h) ?_ hstart
  intro seen r r' h
  simp only [memberFields, hn.value, hkey, hskip]
  split
  · split
    · exact .error _
    · exact alike_members hkeep h
  · exact .error _

/-! ### Sound objects -/

theorem sound_fill_iff : (p.fill w).Sound ↔ p.drop.Sound ∧ p.name.Skips ∧ w.Sound := by
  simp only [fill, drop, sound_object_iff, List.forall_mem_append, List.forall_mem_cons]
  constructor
  · rintro ⟨hbefore, hmember, hafter⟩
    exact ⟨⟨hbefore, hafter⟩, hmember⟩
  · rintro ⟨⟨hbefore, hafter⟩, hmember⟩
    exact ⟨hbefore, hmember, hafter⟩

/-- Passing over a sound object passes over a `null` in it. -/
theorem skip_fill_null (h : (p.fill .null).Sound) (hn : p.Named n) :
    (p.fill .null).skip = p.drop.skip := by
  have hskipped : p.name.skipped = .ok () := (sound_fill_iff.1 h).2.1 n hn.value
  have hmembers : skipMembers (p.before ++ (p.name, .null) :: p.after) =
      skipMembers (p.before ++ p.after) := by
    clear h
    induction p.before with
    | nil =>
      simp only [List.nil_append, skipMembers, hskipped]
      rfl
    | cons m before ih => simp only [List.cons_append, skipMembers, ih]
  rw [fill, drop, skip, skip, hmembers]

end Place
end Json
end SqlFilter
