import RowDerive.Proofs.Code.Simulation

/-!
# Printed bodies run

A printed body is run statement by statement: the row, the adapters, the properties and the row itself.
It makes the row that the body makes, unless a key stands there with a suffix, and then there is none. It
makes one instance of each adapter, in order, whatever else it does.
-/

namespace RowDerive

open Token Code

namespace Code

variable {σ α : Type} {Γ : Surroundings σ α} {st : Body.State σ α} {store : Store σ α} {m : Bool}

theorem execs?_append (store : Store σ α) (tss uss : List (List Token)) :
    execs? Γ store (tss ++ uss) = (execs? Γ store tss).bind (execs? Γ · uss) := by
  induction tss generalizing store with
  | nil => rfl
  | cons ts tss ih =>
      rw [List.cons_append, execs?, execs?, Option.bind_assoc]
      congr 1
      funext store'
      exact ih store'

/-! ## The row -/

theorem exec?_rowTokens (size : Nat) (store : Store σ α) :
    exec? Γ store (Body.rowTokens size) =
      some (store.bind "values" ⟨size ≠ 0, .row .empty⟩) := by
  have hargs : [.literal s!"{size}usize"].mapM (Operand.eval? Γ store) = some [.number size] := by
    rw [List.mapM_cons, Operand.eval?, literal?_usize]
    rfl
  rw [exec?, Body.read?_rowTokens, Option.bind_some, Body.rowLine, Line.exec?, Command.exec?,
    Expr.eval?, hargs]
  rfl

theorem keeps_start (size : Nat) : Keeps (σ := σ) (α := α) (size ≠ 0) ⟨Row.empty, []⟩
    (Store.empty.bind "values" ⟨size ≠ 0, .row .empty⟩) where
  row := Store.bind_self ..
  adapter i := Store.bind_of_ne (adapterName_ne (by decide) i) _

/-! ## Adapters -/

/-- What makes an adapter makes one instance of it. -/
theorem exec?_adapterTokens (i : Nat) (t : Ty) (store : Store σ α) :
    exec? Γ store (Body.adapterTokens i t) = (Γ.adapter t.text).map fun a =>
      Store.bind { store with made := store.made ++ [t.text] } (adapterName i)
        ⟨false, .adapter a.instantiate⟩ := by
  rw [exec?, Body.read?_adapterTokens, Option.bind_some, Body.adapterLine, Line.exec?, Command.exec?,
    Expr.eval?, fresh?, Option.map_map]
  rfl

/-- The next adapter has the next name. -/
theorem Keeps.push (h : Keeps m st store) (a : Instance σ α) (made : List String) :
    Keeps m { st with adapters := st.adapters ++ [a] }
      (Store.bind { store with made := made } (adapterName st.adapters.length)
        ⟨false, .adapter a⟩) where
  row := by
    rw [Store.bind_of_ne (adapterName_ne (by decide) _).symm]
    exact h.row
  adapter i := by
    by_cases hi : i = st.adapters.length
    · subst hi
      simp
    · have hne : adapterName i ≠ adapterName st.adapters.length := fun hn =>
        hi (adapterName_injective hn)
      rw [Store.bind_of_ne hne, List.getElem?_append]
      have hadapter := h.adapter i
      split
      · exact hadapter
      · next hlt =>
        have hnone : ([a] : List (Instance σ α))[i - st.adapters.length]? = none := by
          rw [List.getElem?_eq_none_iff, List.length_singleton]
          omega
        have hbeyond : st.adapters[i]? = none := List.getElem?_eq_none (by omega)
        rw [hnone]
        rwa [hbeyond] at hadapter

/-- Adapters that are known are made, one after the other. -/
theorem exists_execs?_adapters {ts : List Ty} {as : List (Instance σ α)} (h : Keeps m st store)
    (has : Body.instances Γ ts = some as) :
    ∃ store', execs? Γ store
        (ts.mapIdx fun j t => Body.adapterTokens (st.adapters.length + j) t) = some store' ∧
      Keeps m { st with adapters := st.adapters ++ as } store' := by
  induction ts generalizing st store as with
  | nil =>
      obtain rfl : [] = as := by simpa [Body.instances] using has
      exact ⟨store, rfl, by simpa using h⟩
  | cons t ts ih =>
      obtain ⟨a, ha, has⟩ := Option.bind_eq_some_iff.1 has
      obtain ⟨as', has', has⟩ := Option.bind_eq_some_iff.1 has
      obtain rfl := Option.some.inj has
      obtain ⟨store', hexec, hkeeps⟩ := ih (h.push a.instantiate (store.made ++ [t.text])) has'
      refine ⟨store', ?_, by simpa using hkeeps⟩
      rw [List.mapIdx_cons, execs?, Nat.add_zero, exec?_adapterTokens, ha, Option.map_some,
        Option.bind_some]
      have hshift : ∀ j, st.adapters.length + (j + 1) = (st.adapters ++ [a.instantiate]).length + j := by
        intro j
        rw [List.length_append, List.length_singleton]
        omega
      simpa only [hshift] using hexec

/-! ## Statements -/

/-- Statements that take a state to another do so as code, unless a key has a suffix. -/
theorem exists_execs?_of_steps (h : Keeps true st store) {ss : List Statement}
    {st' : Body.State σ α} (hkeys : ∀ s ∈ ss, Literal.isSuffixed s.key.token = false)
    (hsteps : Body.steps Γ st ss = some st') :
    ∃ store', execs? Γ store (ss.map Statement.tokens) = some store' ∧ Keeps true st' store' := by
  induction ss generalizing st store with
  | nil =>
      obtain rfl := Option.some.inj hsteps
      exact ⟨store, rfl, h⟩
  | cons s ss ih =>
      obtain ⟨hs, hss⟩ := List.forall_mem_cons.1 hkeys
      obtain ⟨st₁, hstep, hsteps⟩ := Option.bind_eq_some_iff.1 hsteps
      obtain ⟨store₁, hexec, hkeeps⟩ := exists_exec?_of_step h hs hstep
      obtain ⟨store', hexecs, hkeeps'⟩ := ih hkeeps hss hsteps
      refine ⟨store', ?_, hkeeps'⟩
      rw [List.map_cons, execs?, hexec]
      exact hexecs

/-! ## Bodies -/

theorem run?_lines (b : Body) :
    run? Γ b.lines = (execs? Γ .empty b.parts).bind (Store.outcome? · "values") := by
  rw [run?, Body.lines, List.getLast?_concat, List.dropLast_concat]
  rfl

theorem Keeps.outcome? (h : Keeps m st store) :
    store.outcome? "values" = some ⟨st.row, store.made⟩ := by
  rw [Store.outcome?, h.row]

theorem execs?_parts (b : Body) :
    execs? Γ .empty b.parts =
      (execs? Γ (Store.empty.bind "values" ⟨b.statements.length ≠ 0, .row .empty⟩)
        (b.adapters.mapIdx Body.adapterTokens)).bind
          (execs? Γ · (b.statements.map Statement.tokens)) := by
  rw [Body.parts, execs?, exec?_rowTokens, Option.bind_some, execs?_append]

/-- A body that makes a row makes it as code, if no key has a suffix. -/
theorem exists_run?_of_run {b : Body} {row : Row}
    (hkeys : ∀ s ∈ b.statements, Literal.isSuffixed s.key.token = false)
    (hrun : Body.run Γ b = some row) : ∃ made, run? Γ b.lines = some ⟨row, made⟩ := by
  obtain ⟨as, has, hrun⟩ := Option.bind_eq_some_iff.1 hrun
  obtain ⟨st, hsteps, hrow⟩ := Option.bind_eq_some_iff.1 hrun
  obtain rfl := Option.some.inj hrow
  obtain ⟨store₁, hadapters, hkeeps⟩ := exists_execs?_adapters (keeps_start b.statements.length) has
  simp only [List.length_nil, Nat.zero_add, List.nil_append] at hadapters hkeeps
  suffices hstatements : ∃ store₂ m, execs? Γ store₁ (b.statements.map Statement.tokens) = some store₂ ∧
      Keeps m st store₂ by
    obtain ⟨store₂, m, hexecs, hkeeps⟩ := hstatements
    refine ⟨store₂.made, ?_⟩
    rw [run?_lines, execs?_parts, hadapters, Option.bind_some, hexecs, Option.bind_some, hkeeps.outcome?]
  cases hempty : b.statements with
  | nil =>
      rw [hempty] at hsteps
      obtain rfl := Option.some.inj hsteps
      exact ⟨store₁, _, rfl, hkeeps⟩
  | cons s ss =>
      rw [hempty] at hkeeps
      obtain ⟨store₂, hexecs, hkeeps⟩ := exists_execs?_of_steps hkeeps hkeys hsteps
      exact ⟨store₂, true, hempty ▸ hexecs, hkeeps⟩

theorem execs?_eq_none {tss : List (List Token)} {ts : List Token} (hts : ts ∈ tss)
    (hnone : ∀ store, exec? Γ store ts = none) (store : Store σ α) : execs? Γ store tss = none := by
  induction tss generalizing store with
  | nil => cases hts
  | cons us tss ih =>
      rw [execs?]
      rcases List.mem_cons.1 hts with rfl | hts
      · rw [hnone, Option.bind_none]
      · have hrest : (execs? Γ · tss) = fun _ => none := funext (ih hts)
        rw [hrest, Option.bind_fun_none]

/-- A body with a key that has a suffix makes no row. -/
theorem run?_suffixed {b : Body} {s : Statement} (hs : s ∈ b.statements)
    (hk : Literal.isSuffixed s.key.token = true) : run? Γ b.lines = none := by
  have hmem : s.tokens ∈ b.parts :=
    List.mem_cons_of_mem _ (List.mem_append_right _ (List.mem_map_of_mem hs))
  rw [run?_lines, execs?_eq_none hmem (exec?_suffixed hk), Option.bind_none]

/-! ## Instances -/

/-- The expression makes no instance. -/
def Expr.makesNone : Expr → Bool
  | operand _ | call .. | method .. => true
  | provided .. => false

def Command.makesNone : Command → Bool
  | bind _ _ e | eval e => e.makesNone
  | choose _ arms => arms.all (·.value.makesNone)

def Line.makesNone : Line → Bool
  | one c => c.makesNone
  | block cs => cs.all Command.makesNone

variable {store' : Store σ α}

theorem made_of_call? {path : List String} {ds : List (Datum σ α)} {d : Datum σ α}
    (h : call? store path ds = some (d, store')) : store'.made = store.made := by
  unfold call? at h
  split at h
  · obtain ⟨-, rfl⟩ := Prod.mk.inj (Option.some.inj h)
    rfl
  · split at h
    · obtain ⟨_, _, h⟩ := Option.map_eq_some_iff.1 h
      obtain ⟨-, rfl⟩ := Prod.mk.inj h
      rfl
    · cases h
  · cases h

theorem made_of_method? {x f : String} {ds : List (Datum σ α)}
    (h : method? store x f ds = some store') : store'.made = store.made := by
  unfold method? at h
  split at h
  · split at h
    · obtain ⟨v, -, rfl⟩ := Option.map_eq_some_iff.1 h
      rfl
    · obtain rfl := Option.some.inj h
      rfl
    · cases h
  · cases h

theorem made_of_eval? {e : Expr} (he : e.makesNone = true) {d : Datum σ α}
    (h : e.eval? Γ store = some (d, store')) : store'.made = store.made := by
  cases e with
  | operand e =>
      obtain ⟨_, _, h⟩ := Option.map_eq_some_iff.1 h
      obtain ⟨-, rfl⟩ := Prod.mk.inj h
      rfl
  | call path args =>
      obtain ⟨ds, -, h⟩ := Option.bind_eq_some_iff.1 h
      exact made_of_call? h
  | method x f args =>
      obtain ⟨ds, -, h⟩ := Option.bind_eq_some_iff.1 h
      obtain ⟨store₁, hmethod, h⟩ := Option.map_eq_some_iff.1 h
      obtain ⟨-, rfl⟩ := Prod.mk.inj h
      exact made_of_method? hmethod
  | provided => cases he

theorem made_of_enter? {a : Arm} {s : Storage} {x : Option s.base.Carrier}
    (h : a.enter? store s x = some store') : store'.made = store.made := by
  unfold Arm.enter? at h
  split at h
  · obtain rfl := Option.some.inj h
    rfl
  · obtain rfl := Option.some.inj h
    rfl
  · cases h

theorem made_of_choose? {arms : List Arm} (harms : arms.all (·.value.makesNone) = true) {s : Storage}
    {x : Option s.base.Carrier} (h : choose? Γ store s x arms = some store') :
    store'.made = store.made := by
  induction arms with
  | nil => cases h
  | cons a arms ih =>
      obtain ⟨ha, harms⟩ := Bool.and_eq_true_iff.1 (List.all_cons ▸ harms)
      rw [choose?] at h
      split at h
      · next inner henter =>
        split at h
        · next inner' heval =>
          obtain rfl := Option.some.inj h
          exact (made_of_eval? ha heval).trans (made_of_enter? henter)
        · cases h
      · exact ih harms h

theorem made_of_command {c : Command} (hc : c.makesNone = true)
    (h : c.exec? Γ store = some store') : store'.made = store.made := by
  cases c with
  | bind mutable x e =>
      obtain ⟨⟨d, store₁⟩, heval, rfl⟩ := Option.map_eq_some_iff.1 h
      exact (made_of_eval? hc heval :)
  | eval e =>
      obtain ⟨⟨d, store₁⟩, heval, rfl⟩ := Option.map_eq_some_iff.1 h
      exact made_of_eval? hc heval
  | choose x arms =>
      rw [Command.exec?] at h
      split at h
      · exact made_of_choose? hc h
      · cases h

theorem made_of_commands {cs : List Command} (hcs : cs.all Command.makesNone = true)
    (h : Line.execAll? Γ store cs = some store') : store'.made = store.made := by
  induction cs generalizing store with
  | nil =>
      obtain rfl := Option.some.inj h
      rfl
  | cons c cs ih =>
      obtain ⟨hc, hcs⟩ := Bool.and_eq_true_iff.1 (List.all_cons ▸ hcs)
      obtain ⟨store₁, hexec, h⟩ := Option.bind_eq_some_iff.1 h
      exact (ih hcs h).trans (made_of_command hc hexec)

theorem made_of_line {l : Line} (hl : l.makesNone = true) (h : l.exec? Γ store = some store') :
    store'.made = store.made := by
  cases l with
  | one c => exact made_of_command hl h
  | block cs =>
      obtain ⟨inner, hexec, rfl⟩ := Option.map_eq_some_iff.1 h
      exact (made_of_commands hl hexec :)

theorem makesNone_line (s : Statement) : s.line.makesNone = true := by cases s <;> rfl

theorem made_of_statements {ss : List Statement}
    (h : execs? Γ store (ss.map Statement.tokens) = some store') : store'.made = store.made := by
  induction ss generalizing store with
  | nil =>
      obtain rfl := Option.some.inj h
      rfl
  | cons s ss ih =>
      obtain ⟨store₁, hexec, h⟩ := Option.bind_eq_some_iff.1 h
      rw [exec?_tokens] at hexec
      exact (ih h).trans (made_of_line (makesNone_line s) hexec)

/-- It does not matter here which names the adapters have. -/
theorem made_of_adapters {ts : List Ty} (number : Nat → Nat)
    (h : execs? Γ store (ts.mapIdx fun j t => Body.adapterTokens (number j) t) = some store') :
    store'.made = store.made ++ ts.map Ty.text := by
  induction ts generalizing store number with
  | nil =>
      obtain rfl := Option.some.inj h
      simp
  | cons t ts ih =>
      rw [List.mapIdx_cons, execs?, exec?_adapterTokens, Option.bind_map] at h
      obtain ⟨a, -, h⟩ := Option.bind_eq_some_iff.1 h
      rw [ih (fun j => number (j + 1)) h]
      simp [Store.bind]

/-- A run makes one instance of each adapter, in order, and no other. -/
theorem made_of_run? {b : Body} {o : Outcome} (h : run? Γ b.lines = some o) :
    o.made = b.adapters.map Ty.text := by
  rw [run?_lines, execs?_parts] at h
  obtain ⟨store₂, h, houtcome⟩ := Option.bind_eq_some_iff.1 h
  obtain ⟨store₁, hadapters, hstatements⟩ := Option.bind_eq_some_iff.1 h
  have hmade : o.made = store₂.made := by
    unfold Store.outcome? at houtcome
    split at houtcome
    · exact (Option.some.inj houtcome) ▸ rfl
    · cases houtcome
  rw [hmade, made_of_statements hstatements, made_of_adapters id hadapters]
  rfl

end Code

end RowDerive
