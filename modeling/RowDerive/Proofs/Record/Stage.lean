import RowDerive.Proofs.Record.Declaration
import RowDerive.Property

/-!
# Where problems are found

A declaration is read, the properties of its record are looked at, an extension makes a method, and the
methods that are left are counted. Each problem is found at one of these stages, and what is reported at
a stage is found there. The settings of a column are read by a reader of its own, for which this is shown
step by step.
-/

namespace RowDerive

/-- Where a problem is found. -/
inductive Stage where
  /-- While the declaration is read. -/
  | reading
  /-- Among the properties of a record. -/
  | properties
  /-- Inside an extension. -/
  | extension
  /-- Among the methods that are left. -/
  | methods
deriving DecidableEq, Repr

/-- Where the problem is found. -/
def Problem.stage : Problem → Stage
  | unreadable _ | noRecord | positionalFields | duplicateColumn | duplicateName | duplicateAdapter
  | emptyName | unknownSetting => .reading
  | sharedKey .. | unsupportedType _ => .properties
  | internal _ | stated _ => .extension
  | unimplemented _ => .methods

/-- Every report in the list is found at the stage. -/
def FoundAt (σ : Stage) (rs : List Report) : Prop := ∀ q ∈ rs, q.val.stage = σ

namespace FoundAt

variable {σ : Stage}

theorem nil : FoundAt σ [] := fun _ hq => absurd hq List.not_mem_nil

theorem cons {q : Report} {rs : List Report} (hq : q.val.stage = σ) (hrs : FoundAt σ rs) :
    FoundAt σ (q :: rs) := by
  intro q' hq'
  rcases List.mem_cons.1 hq' with rfl | hq'
  · exact hq
  · exact hrs q' hq'

theorem append {rs qs : List Report} (hrs : FoundAt σ rs) (hqs : FoundAt σ qs) :
    FoundAt σ (rs ++ qs) := by
  intro q hq
  rcases List.mem_append.1 hq with hq | hq
  · exact hrs q hq
  · exact hqs q hq

theorem flatMap {α : Type} {as : List α} {f : α → List Report}
    (h : ∀ a ∈ as, FoundAt σ (f a)) : FoundAt σ (as.flatMap f) := by
  intro q hq
  obtain ⟨a, ha, hq⟩ := List.mem_flatMap.1 hq
  exact h a ha q hq

/-- What is found at one stage is not among the reports of another. -/
theorem notMem {rs : List Report} (h : FoundAt σ rs) {q : Report} (hq : q.val.stage ≠ σ) : q ∉ rs :=
  fun hmem => hq (h q hmem)

end FoundAt

/-! ## Settings -/

namespace Setting.Reader

variable {α β : Type}

/-- Whatever the reader stops at is found while it reads. -/
def FindsReading (p : Reader α) : Prop := ∀ c q, p c = .error q → q.val.stage = .reading

namespace FindsReading

theorem read (p : Parser α) : FindsReading (Setting.read p) := by
  intro c q h
  unfold Setting.read at h
  split at h
  · cases h
  · obtain rfl := Except.error.inj h
    rfl

theorem pure (a : α) : FindsReading (Pure.pure a : Reader α) := by
  intro c q h
  cases h

theorem throw {x : Report} (hx : x.val.stage = .reading) :
    FindsReading (MonadExcept.throw x : Reader α) := by
  intro c q h
  obtain rfl := Except.error.inj h
  exact hx

theorem get : FindsReading (MonadState.get : Reader _) := by
  intro c q h
  cases h

theorem bind {p : Reader α} {f : α → Reader β} (hp : FindsReading p) (hf : ∀ a, FindsReading (f a)) :
    FindsReading (p >>= f) := by
  intro c q h
  change (p c >>= fun x => f x.1 x.2) = .error q at h
  cases hc : p c with
  | error e =>
      rw [hc] at h
      obtain rfl := Except.error.inj h
      exact hp c e hc
  | ok x =>
      rw [hc] at h
      exact hf x.1 x.2 q h

theorem ite {b : Prop} [Decidable b] {p q : Reader α} (hp : FindsReading p) (hq : FindsReading q) :
    FindsReading (if b then p else q) := by
  split
  · exact hp
  · exact hq

/-- A reader that stops with the problem `x` if `b`, and goes on otherwise. -/
theorem check {b : Prop} [Decidable b] {x : Report} {k : PUnit → Reader β}
    (hx : x.val.stage = .reading) (hk : ∀ u, FindsReading (k u)) :
    FindsReading (if b then (MonadExcept.throw x : Reader PUnit) >>= k else k ⟨⟩) :=
  .ite (.bind (.throw hx) hk) (hk _)

end FindsReading

end Setting.Reader

namespace Setting

open Reader

theorem finds_entry (ρ : Rules) (s : Setting) : FindsReading (entry ρ s) := by
  unfold entry
  refine .bind .get fun c => .bind (.read _) fun k => .ite ?_ (.ite ?_ (.throw rfl))
  · exact .check (by rfl) fun _ => .bind (.read _) fun x => .check (by rfl) fun _ => .pure _
  · exact .check (by rfl) fun _ => .bind (.read _) fun t => .pure _

theorem finds_entries (ρ : Rules) (s : Setting) (fuel : Nat) : FindsReading (entries ρ s fuel) := by
  induction fuel generalizing s with
  | zero => exact .read _
  | succ fuel ih =>
      unfold entries
      refine .bind (.read _) fun b => .ite (.pure _) ?_
      refine .bind (finds_entry ρ s) fun s' => .bind (.read _) fun b => .ite (.pure _) ?_
      exact .bind (.read _) fun _ => ih s'

theorem stage_of_ofAttribute {a : Attribute} {q : Report} (h : ofAttribute a = .error q) :
    q.val.stage = .reading := by
  unfold ofAttribute at h
  split at h
  · unfold ofTokens at h
    split at h
    · split at h
      · cases h
      · obtain rfl := Except.error.inj h
        rfl
    · rename_i q' hq'
      obtain rfl := Except.error.inj h
      exact finds_entries _ _ _ _ _ hq'
  · obtain rfl := Except.error.inj h
    rfl

end Setting

/-! ## Records -/

theorem Column.foundAt_readSettings (found : Option Setting) (attrs : List Attribute) :
    FoundAt .reading (readSettings found attrs).1 := by
  induction attrs generalizing found with
  | nil => exact .nil
  | cons a attrs ih =>
      unfold readSettings
      cases found with
      | some s => exact .cons rfl (ih (some s))
      | none =>
          cases ha : Setting.ofAttribute a with
          | ok s => exact ih (some s)
          | error q => exact .cons (Setting.stage_of_ofAttribute ha) (ih none)

theorem Column.foundAt_ofField (f : Field) : FoundAt .reading (Column.ofField f).reports := by
  cases h : Column.ofField f with
  | ok c => exact .nil
  | error rs =>
      obtain ⟨-, rfl⟩ := (Checked.ifClean_eq_error_iff _ _ _).1 h
      exact Column.foundAt_readSettings _ _

theorem Method.foundAt_listOfAttribute (a : Attribute) :
    FoundAt .reading (Method.listOfAttribute a).reports := by
  unfold listOfAttribute
  split
  · exact .cons rfl .nil
  · split
    · exact .cons rfl .nil
    · exact .nil

namespace Record

theorem foundAt_declaredMethods (attrs : List Attribute) :
    ∀ c ∈ declaredMethods attrs, FoundAt .reading c.reports := by
  intro c hc
  unfold declaredMethods at hc
  split at hc
  · obtain rfl := List.mem_singleton.1 hc
    exact .nil
  · obtain ⟨a, -, rfl⟩ := List.mem_map.1 hc
    exact Method.foundAt_listOfAttribute a

theorem foundAt_columnsOf (σ : Shape) : ∀ c ∈ columnsOf σ, FoundAt .reading c.reports := by
  intro c hc
  cases σ with
  | named fs =>
      obtain ⟨f, -, rfl⟩ := List.mem_map.1 hc
      exact Column.foundAt_ofField f
  | positional span =>
      obtain rfl := List.mem_singleton.1 hc
      exact .cons rfl .nil
  | unit => cases hc
  | noRecord keyword => cases hc

theorem foundAt_ofItem {i : Item} {rs : List Report} (h : ofItem i = .error rs) :
    FoundAt .reading rs := by
  unfold ofItem at h
  split at h
  · obtain rfl := Except.error.inj h
    exact .cons rfl .nil
  · obtain ⟨-, rfl⟩ := (Checked.ifClean_eq_error_iff _ _ _).1 h
    exact .append (.flatMap (foundAt_declaredMethods _)) (.flatMap (foundAt_columnsOf _))

end Record

/-! ## Properties -/

namespace Property

theorem foundAt_problems (seen : List (String × String)) (p : Property) :
    FoundAt .properties (p.problems seen) := by
  unfold problems
  refine .append ?_ ?_
  · split
    · exact .cons rfl .nil
    · exact .nil
  · split
    · exact .nil
    · exact .cons rfl .nil

theorem foundAt_listProblems (seen : List (String × String)) (ps : List Property) :
    FoundAt .properties (listProblems seen ps) := by
  induction ps generalizing seen with
  | nil => exact .nil
  | cons p ps ih => exact .append (foundAt_problems seen p) (ih _)

theorem foundAt_ofRecord {r : Record} {rs : List Report} (h : ofRecord r = .error rs) :
    FoundAt .properties rs := by
  obtain ⟨-, rfl⟩ := (Checked.ifClean_eq_error_iff _ _ _).1 h
  exact foundAt_listProblems _ _

end Property

end RowDerive
