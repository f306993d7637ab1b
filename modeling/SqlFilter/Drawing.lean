/-
# Texts that draw placeholders

A condition's text holds one placeholder for each value, and in some databases
the placeholders are numbered over the whole statement.  So a piece of SQL is
not a text but a program that draws placeholders from a source that it does not
know: a `Drawing`.  A drawing can do nothing but ask for the next placeholder,
and so two things hold of every drawing, whoever wrote it: how many it drew can
be counted (`counted`), and the same drawing can be run on any source (`run`).
-/

namespace SqlFilter

/-- A program that draws placeholders one after the other and ends with a
result. -/
inductive Drawing (α : Type) where
  | done (result : α)
  | next (resume : String → Drawing α)

namespace Drawing

variable {α β γ σ : Type}

/-- One drawing after the other. -/
def bind : Drawing α → (α → Drawing β) → Drawing β
  | done a, f => f a
  | next k, f => next fun placeholder => (k placeholder).bind f

instance : Monad Drawing where
  pure := done
  bind := bind

@[simp] theorem pure_eq_done (a : α) : (pure a : Drawing α) = done a := rfl

@[simp] theorem done_bind (a : α) (f : α → Drawing β) : done a >>= f = f a := rfl

@[simp] theorem next_bind (k : String → Drawing α) (f : α → Drawing β) :
    next k >>= f = next fun placeholder => k placeholder >>= f := rfl

instance : LawfulMonad Drawing :=
  LawfulMonad.mk' Drawing
    (fun x => by
      induction x with
      | done a => rfl
      | next k ih => exact congrArg next (funext ih))
    (fun _ _ => rfl)
    (fun x f g => by
      induction x with
      | done a => rfl
      | next k ih => exact congrArg next (funext ih))

/-- The next placeholder. -/
def placeholder : Drawing String :=
  next done

/-- The next `n` placeholders. -/
def placeholders : Nat → Drawing (List String)
  | 0 => done []
  | n + 1 => next fun first => do return first :: (← placeholders n)

/-- Runs a drawing on a source: a state, and the placeholder and the new state
that come next in each state. -/
def run (source : σ → String × σ) : Drawing α → σ → α × σ
  | done a, s => (a, s)
  | next k, s => (k (source s).1).run source (source s).2

theorem run_bind (source : σ → String × σ) (d : Drawing α) (f : α → Drawing β) (s : σ) :
    (d >>= f).run source s = (f (d.run source s).1).run source (d.run source s).2 := by
  induction d generalizing s with
  | done a => rfl
  | next k ih => exact ih _ _

/-- How many placeholders a drawing takes from a source. -/
def drawn (source : σ → String × σ) : Drawing α → σ → Nat
  | done _, _ => 0
  | next k, s => (k (source s).1).drawn source (source s).2 + 1

/-- The result of a drawing together with the number of placeholders drawn,
counted from `n` on. -/
def countedFrom (n : Nat) : Drawing α → Drawing (α × Nat)
  | done a => done (a, n)
  | next k => next fun placeholder => (k placeholder).countedFrom (n + 1)

/-- The result of a drawing together with the number of placeholders drawn. -/
def counted (d : Drawing α) : Drawing (α × Nat) :=
  d.countedFrom 0

theorem run_countedFrom (source : σ → String × σ) (n : Nat) (d : Drawing α) (s : σ) :
    (d.countedFrom n).run source s =
      (((d.run source s).1, n + d.drawn source s), (d.run source s).2) := by
  induction d generalizing n s with
  | done a => rfl
  | next k ih =>
    have h := ih (source s).1 (n + 1) (source s).2
    rw [Nat.add_right_comm, Nat.add_assoc] at h
    exact h

/-- **Counting changes nothing else.**  A counted drawing takes the same
placeholders to the same result, and reports how many it took. -/
theorem run_counted (source : σ → String × σ) (d : Drawing α) (s : σ) :
    d.counted.run source s = (((d.run source s).1, d.drawn source s), (d.run source s).2) := by
  rw [counted, run_countedFrom, Nat.zero_add]

end Drawing
end SqlFilter
