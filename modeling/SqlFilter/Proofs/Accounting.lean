/-
# The books of a session

A session on Postgres has one number, the last placeholder it gave away, and requests of
all kinds move it.  The meter of `Dialect.metered` keeps the books: it counts what is drawn
and goes back to zero when a statement begins or the session is reset.  A metered session
answers as the plain one does, and its number is always what the meter shows
(`Session.run_metered`).

So a session forgets: a filter compiles in it as on a new instance, whatever has been asked
before and however earlier filters have failed (`Session.step_compile`).  And the number
after a filter is known: a filter that compiles leaves the number of its values, and one
that does not leaves the number of values of the leaves before the first that fails
(`exists_failsAfter`).
-/

import SqlFilter.Filter.Session
import SqlFilter.Proofs.Leaves

namespace SqlFilter

variable {σ : Type}

/-! ### Runs of sessions -/

namespace Session

theorem run_append (s : Session σ) (before after : List Request) :
    s.run (before ++ after) =
      ((s.run before).1 ++ ((s.run before).2.run after).1, ((s.run before).2.run after).2) := by
  induction before generalizing s with
  | nil => rfl
  | cons r before ih =>
    show ((s.step r).1 :: ((s.step r).2.run (before ++ after)).1,
      ((s.step r).2.run (before ++ after)).2) = _
    rw [ih]
    rfl

/-- Every request has its answer. -/
theorem length_run (s : Session σ) (requests : List Request) :
    (s.run requests).1.length = requests.length := by
  induction requests generalizing s with
  | nil => rfl
  | cons r requests ih => exact congrArg (· + 1) (ih (s.step r).2)

/-- **An answer depends on the requests before it alone.** -/
theorem getElem?_run (s : Session σ) (before : List Request) (r : Request) (after : List Request) :
    (s.run (before ++ r :: after)).1[before.length]? = some ((s.run before).2.step r).1 := by
  rw [run_append, ← s.length_run before, List.getElem?_append_right (Nat.le_refl _), Nat.sub_self]
  rfl

/-! ### Metered sessions -/

/-- A session with a meter, which shows `m`. -/
def metered (s : Session σ) (m : Nat) : Session (σ × Nat) where
  dialect := s.dialect.metered
  state := (s.state, m)
  config := s.config

/-- A session on an instance of Postgres. -/
def onPostgres (n : Nat) (config : Config) : Session Nat where
  dialect := postgres
  state := n
  config := config

/-- A drawing moves the number as far as the meter. -/
theorem draw_metered (n : Nat) (config : Config) (drawing : Drawing String) :
    ((onPostgres n config).metered n).draw drawing =
      (((onPostgres n config).draw drawing).1,
        (onPostgres (n + drawing.drawn postgres.placeholder n) config).metered
          (n + drawing.drawn postgres.placeholder n)) ∧
      ((onPostgres n config).draw drawing).2 =
        onPostgres (n + drawing.drawn postgres.placeholder n) config := by
  have hrun := drawing.run_metered postgres n n
  have hsnd := drawing.run_snd postgres n
  rw [postgres_after] at hsnd
  rw [hsnd] at hrun
  refine ⟨?_, ?_⟩
  · show (Answer.text (drawing.run postgres.metered.placeholder (n, n)).1,
      (⟨postgres.metered, (drawing.run postgres.metered.placeholder (n, n)).2, config⟩ :
        Session (Nat × Nat))) = _
    rw [hrun]
    rfl
  · show (⟨postgres, (drawing.run postgres.placeholder n).2, config⟩ : Session Nat) = _
    rw [hsnd]
    rfl

/-- A compilation leaves the number where the meter stands, at the number of the values
if it succeeds. -/
theorem compile_metered (n : Nat) (config : Config) (node : Node) :
    ∃ k, (compile postgres config node n).2 = k ∧
      compile postgres.metered config node (n, n) = ((compile postgres config node n).1, k, k) ∧
      ∀ c, (compile postgres config node n).1 = .ok c → k = c.values.length := by
  obtain ⟨k, hk, hm, hw⟩ := node.metered_compile postgres_drawsPerPattern config 0 0
  rw [postgres_after, Nat.zero_add] at hk hm
  exact ⟨k, congrArg Prod.snd hk, hm, hw⟩

/-- **A request moves the number as far as the meter**, and a metered session answers it as
a plain one does. -/
theorem step_metered (n : Nat) (config : Config) (r : Request) :
    ∃ m config', ((onPostgres n config).step r).2 = onPostgres m config' ∧
      ((onPostgres n config).metered n).step r =
        (((onPostgres n config).step r).1, (onPostgres m config').metered m) := by
  cases r with
  | compile node =>
    obtain ⟨k, hk, hm, -⟩ := compile_metered n config node
    refine ⟨k, config, ?_, ?_⟩
    · show (⟨postgres, (SqlFilter.compile postgres config node n).2, config⟩ : Session Nat) = _
      rw [hk]
      rfl
    · show (Answer.compiled (SqlFilter.compile postgres.metered config node (n, n)).1,
        (⟨postgres.metered, (SqlFilter.compile postgres.metered config node (n, n)).2, config⟩ :
          Session (Nat × Nat))) = _
      rw [hm]
      rfl
  | placeholder =>
    have h := draw_metered n config Drawing.placeholder
    exact ⟨_, config, h.2, h.1⟩
  | member field count =>
    have h := draw_metered n config (postgres.member n field count)
    exact ⟨_, config, h.2, h.1⟩
  | pattern p field negated isJson =>
    have h := draw_metered n config (postgres.pattern n p field negated isJson)
    exact ⟨_, config, h.2, h.1⟩
  | resolve raw => exact ⟨n, config, rfl, rfl⟩
  | name => exact ⟨n, config, rfl, rfl⟩
  | reset => exact ⟨0, config, rfl, rfl⟩
  | configure config' => exact ⟨n, config', rfl, rfl⟩

/-- **The books are right at any point**: after all requests the number of a session is
what its meter shows. -/
theorem run_metered (n : Nat) (config : Config) (requests : List Request) :
    ∃ m config', ((onPostgres n config).run requests).2 = onPostgres m config' ∧
      ((onPostgres n config).metered n).run requests =
        (((onPostgres n config).run requests).1, (onPostgres m config').metered m) := by
  induction requests generalizing n config with
  | nil => exact ⟨n, config, rfl, rfl⟩
  | cons r requests ih =>
    obtain ⟨k, config₁, hs, hm⟩ := step_metered n config r
    obtain ⟨m, config₂, hrun, hmrun⟩ := ih k config₁
    refine ⟨m, config₂, ?_, ?_⟩
    · show (((onPostgres n config).step r).2.run requests).2 = _
      rw [hs, hrun]
    · show ((((onPostgres n config).metered n).step r).1 ::
          ((((onPostgres n config).metered n).step r).2.run requests).1,
        ((((onPostgres n config).metered n).step r).2.run requests).2) =
          (((onPostgres n config).step r).1 :: (((onPostgres n config).step r).2.run requests).1, _)
      rw [hm, hmrun, hs]

/-- **A session forgets**: a filter compiles as on a new instance. -/
theorem step_compile (n : Nat) (config : Config) (node : Node) :
    ((onPostgres n config).step (.compile node)).1 =
      .compiled (compile postgres config node 0).1 := rfl

end Session

/-! ### What a compilation draws -/

/-- A leaf compiles as a filter of its own. -/
theorem Leaf.compile_alone (d : Dialect σ) (config : Config) (leaf : Leaf) (s : σ) :
    SqlFilter.compile d config (.leaf leaf) s = (leaf.compile d config).run (d.reset s) :=
  Node.run_compile_leaf ..

/-- Where a filter fails.  One of its leaves fails alone, with the error of the filter,
and draws nothing; all leaves before it compile alone, and these bind `bound` together. -/
def Node.FailsAfter (config : Config) (node : Node) (e : CompileError) (bound : List Value) :
    Prop :=
  ∃ before leaf after parts, node.leaves = before ++ leaf :: after ∧
    List.Forall₂ (fun l values =>
      (SqlFilter.compile postgres config (.leaf l) 0).1.map (·.values) = .ok values) before parts ∧
    SqlFilter.compile postgres config (.leaf leaf) 0 = (.error e, 0) ∧ bound = parts.flatten

/-- **A filter that fails has drawn what the leaves before the failure bind**, unless it
runs an operation. -/
theorem exists_failsAfter {config : Config} {node : Node}
    (hn : ∀ leaf ∈ node.leaves, leaf.runsOperation config = false) {n t : Nat} {e : CompileError}
    (h : compile postgres config node n = (.error e, t)) :
    ∃ bound, node.FailsAfter config e bound ∧ t = bound.length := by
  have hleaves : bindAll postgres config node.leaves 0 = (.error e, t) := by
    have hrun : (node.compile postgres config).run 0 = (.error e, t) := h
    rw [← node.run_eq_bindAll, hrun]
    rfl
  obtain ⟨before, leaf, after, parts, hsplit, hbefore, hleaf, ht⟩ :=
    bindAll_eq_error postgres_drawsPerPattern
      (show ∀ s, postgres.resolve s = postgres.resolve 0 from fun _ => rfl) hn hleaves
  have hno : ∀ l ∈ before, l.runsOperation config = false := fun l hl =>
    hn l (by rw [hsplit]; exact List.mem_append_left _ hl)
  refine ⟨parts.flatten, ⟨before, leaf, after, parts, hsplit, ?_, ?_, rfl⟩, ?_⟩
  · clear ht hsplit
    induction hbefore with
    | nil => exact .nil
    | @cons l values before parts hl _ ih =>
      refine .cons ?_ (ih fun l hl => hno l (List.mem_cons_of_mem _ hl))
      rw [l.compile_alone, l.values_run_compile (hno l (List.mem_cons_self ..))]
      exact hl
  · rw [leaf.compile_alone]
    exact leaf.run_of_binds_error hleaf
  · rw [ht, postgres_after, Nat.zero_add]

/-! ### Sessions -/

/-- **The books of a session.**  Let any requests be made of a new instance of Postgres,
and let `m` be what the meter shows after them: the number of placeholders drawn since the
last reset or the last start of a statement.

- The next placeholder is the one of the number `m + 1`.
- A filter compiles next as on a new instance.
- If it compiles, the meter then shows the number of its values.
- If it fails, and runs no configured operation, the meter then shows the number of values
  of the leaves before the one that fails, which draws nothing itself. -/
theorem session_accounts (config : Config) (before : List Request) :
    ∃ m config',
      ((Session.onPostgres 0 config).metered 0).run before =
          (((Session.onPostgres 0 config).run before).1,
            (Session.onPostgres m config').metered m) ∧
        ((Session.onPostgres 0 config).run before).2 = Session.onPostgres m config' ∧
        (∀ after,
          ((Session.onPostgres 0 config).run (before ++ .placeholder :: after)).1[before.length]? =
            some (.text ("$" ++ toString (m + 1)))) ∧
        ∀ node,
          (∀ after, ((Session.onPostgres 0 config).run
              (before ++ .compile node :: after)).1[before.length]? =
            some (.compiled (compile postgres config' node 0).1)) ∧
          (∀ c, (compile postgres config' node 0).1 = .ok c →
            (((Session.onPostgres 0 config).metered 0).run
              (before ++ [.compile node])).2.state.2 = c.values.length) ∧
          ∀ e, (compile postgres config' node 0).1 = .error e →
            (∀ leaf ∈ node.leaves, leaf.runsOperation config' = false) →
              ∃ bound, node.FailsAfter config' e bound ∧
                (((Session.onPostgres 0 config).metered 0).run
                  (before ++ [.compile node])).2.state.2 = bound.length := by
  obtain ⟨m, config', hplain, hmetered⟩ := Session.run_metered 0 config before
  have hmeter : ∀ node, (((Session.onPostgres 0 config).metered 0).run
      (before ++ [.compile node])).2.state.2 = (compile postgres config' node m).2 := by
    intro node
    obtain ⟨k, hk, hm, -⟩ := Session.compile_metered m config' node
    rw [Session.run_append, hmetered]
    show (compile postgres.metered config' node (m, m)).2.2 = _
    rw [hm, hk]
  refine ⟨m, config', hmetered, hplain, fun after => ?_, fun node => ⟨fun after => ?_,
    fun c hc => ?_, fun e he hn => ?_⟩⟩
  · rw [Session.getElem?_run, hplain]
    rfl
  · rw [Session.getElem?_run, hplain, Session.step_compile]
  · rw [hmeter]
    obtain ⟨k, hk, -, hw⟩ := Session.compile_metered m config' node
    exact hk.trans (hw c hc)
  · rw [hmeter]
    exact exists_failsAfter hn (Prod.ext he rfl)

/-- A filter whose third leaf has no value to compare with. -/
def unfinishedFilter : Node :=
  .group .and
    [.leaf { field := "a", operator := "less", operand := some (.scalar (.int 1)) },
      .leaf { field := "b", includes := some [.int 2, .int 3] },
      .leaf { field := "c", operator := "equal", operand := some (.list []) },
      .leaf { field := "d", operator := "equal", operand := some (.scalar (.int 4)) }]

/-- A pattern draws `$1`.  A filter then starts anew, fails at its third leaf with three
placeholders drawn, and the next one is `$4`. -/
theorem session_accounts_unfinished :
    ((Session.onPostgres 0 {}).run
        [.pattern .contains "a" false false, .compile unfinishedFilter, .placeholder, .reset]).1[2]? =
      some (.text "$4") ∧
    ∃ bound, unfinishedFilter.FailsAfter {} (.wrongCount "equal" 1 0) bound ∧ 3 = bound.length := by
  constructor
  · obtain ⟨m, config', -, hplain, hnext, -⟩ :=
      session_accounts {} [.pattern .contains "a" false false, .compile unfinishedFilter]
    have hstate : Session.onPostgres 3 {} = Session.onPostgres m config' := hplain
    obtain rfl : 3 = m := congrArg Session.state hstate
    exact hnext [.reset]
  · obtain ⟨m, config', -, hplain, -, hnode⟩ :=
      session_accounts {} [.pattern .contains "a" false false]
    have hstate : Session.onPostgres 1 {} = Session.onPostgres m config' := hplain
    obtain rfl : 1 = m := congrArg Session.state hstate
    obtain rfl : ({} : Config) = config' := congrArg Session.config hstate
    refine (hnode unfinishedFilter).2.2 _ rfl ?_
    simp only [unfinishedFilter, Node.leaves, leavesAll]
    decide

end SqlFilter
