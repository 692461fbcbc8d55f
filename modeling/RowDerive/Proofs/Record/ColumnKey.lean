import RowDerive.Proofs.Record.Declaration
import RowDerive.Property

/-!
# Keys of columns

The key of a column is the name that its settings give it, or else the name of its field without the mark
of a raw one. The key of a column that is declared is never empty: an empty name is refused where settings
are read, and a field whose name says nothing is none. The first is shown of the reader of settings step
by step.
-/

namespace RowDerive

/-! ## Settings that name something -/

namespace Setting

/-- If the settings give a name, it is not empty. -/
def NamesSomething (s : Setting) : Prop := ∀ x, s.name = some x → x.val.value ≠ ""

theorem namesSomething_none : none.NamesSomething := fun _ h => nomatch h

namespace Reader

variable {α β : Type}

/-- All that the reader returns satisfies `P`, wherever it reads. -/
def Yields (p : Reader α) (P : α → Prop) : Prop := ∀ c a c', p c = .ok (a, c') → P a

namespace Yields

variable {P : α → Prop} {Q : β → Prop}

theorem trivial (p : Reader α) : Yields p fun _ => True := fun _ _ _ _ => True.intro

theorem pure {a : α} (h : P a) : Yields (Pure.pure a) P := by
  intro c b c' hb
  obtain ⟨rfl, -⟩ := Prod.mk.inj (Except.ok.inj hb)
  exact h

theorem throw (x : Report) : Yields (MonadExcept.throw x : Reader α) P := by
  intro c a c' h
  cases h

theorem bind {p : Reader α} {f : α → Reader β} (hp : Yields p P) (hf : ∀ a, P a → Yields (f a) Q) :
    Yields (p >>= f) Q := by
  intro c b c' h
  change (p c >>= fun x => f x.1 x.2) = .ok (b, c') at h
  cases hc : p c with
  | error e =>
      rw [hc] at h
      cases h
  | ok x =>
      rw [hc] at h
      exact hf x.1 (hp c x.1 x.2 hc) x.2 b c' h

/-- What a reader returns does not matter to what is read after it. -/
theorem bind_right {p : Reader α} {f : α → Reader β} (hf : ∀ a, Yields (f a) Q) : Yields (p >>= f) Q :=
  bind (trivial p) fun a _ => hf a

theorem ite {b : Prop} [Decidable b] {p q : Reader α} (hp : Yields p P) (hq : Yields q P) :
    Yields (if b then p else q) P := by
  split
  · exact hp
  · exact hq

/-- A reader that goes on only if it does not stop with the problem `x`. -/
theorem check {b : Prop} [Decidable b] {x : Report} {k : PUnit → Reader β}
    (hk : ¬ b → Yields (k ⟨⟩) Q) :
    Yields (if b then (MonadExcept.throw x : Reader PUnit) >>= k else k ⟨⟩) Q := by
  split
  · exact bind (throw (P := fun _ => False) x) fun _ h => h.elim
  · rename_i hb
    exact hk hb

end Yields

end Reader

open Reader

/-- A setting that is read leaves no empty name. -/
theorem entry_yields (ρ : Rules) {s : Setting} (hs : s.NamesSomething) :
    Yields (entry ρ s) NamesSomething := by
  unfold entry
  refine .bind_right fun c => .bind_right fun k => .ite ?_ (.ite ?_ (.throw _))
  · refine .check fun _ => .bind_right fun x => .check fun hne => .pure ?_
    rintro y ⟨⟩
    simpa using hne
  · exact .check fun _ => .bind_right fun t => .pure hs

theorem entries_yields (ρ : Rules) {s : Setting} (hs : s.NamesSomething) (fuel : Nat) :
    Yields (entries ρ s fuel) NamesSomething := by
  induction fuel generalizing s with
  | zero =>
      intro c a c' h
      cases h
  | succ fuel ih =>
      unfold entries
      refine .bind_right fun b => .ite (.pure hs) (.bind (entry_yields ρ hs) fun s' hs' => ?_)
      refine .bind_right fun b => .ite (.pure hs') (.bind_right fun _ => ?_)
      exact ih hs'

/-- The settings in an attribute give no empty name. -/
theorem namesSomething_of_ofAttribute {a : Attribute} {s : Setting} (h : ofAttribute a = .ok s) :
    s.NamesSomething := by
  unfold ofAttribute at h
  split at h
  · unfold ofTokens at h
    split at h
    · rename_i hread
      split at h
      · obtain rfl := Except.ok.inj h
        exact entries_yields _ namesSomething_none _ _ _ _ hread
      · cases h
    · cases h
  · cases h

end Setting

/-! ## Keys -/

/-- The key of a column. -/
def Column.keyText (c : Column) : String := (Property.ofColumn c).keyText

/-- Where the key of a column stands: in its settings, or as the name of the field. -/
def Column.keySpan (c : Column) : Span := (Property.ofColumn c).key.span

namespace Column

variable {c : Column}

/-- The text of a key, and its place: what the settings give, or what the name of the field says. -/
inductive KeyedBy (c : Column) : String → Span → Prop
  | given {x : Located StringLiteral} (h : c.setting.name = some x) : KeyedBy c x.val.value x.span
  | default (h : c.setting.name = none) : KeyedBy c c.name.val.plain c.name.span

theorem keyText_of_given {x : Located StringLiteral} (h : c.setting.name = some x) :
    c.keyText = x.val.value := by
  simp [keyText, Property.keyText, Property.ofColumn, h]

theorem keyText_of_default (h : c.setting.name = none) : c.keyText = c.name.val.plain := by
  simp [keyText, Property.keyText, Property.ofColumn, Property.defaultKey, h]

theorem keyedBy (c : Column) : c.KeyedBy c.keyText c.keySpan := by
  cases h : c.setting.name with
  | some x =>
      have hspan : c.keySpan = x.span := by simp [keySpan, Property.ofColumn, h]
      rw [keyText_of_given h, hspan]
      exact .given h
  | none =>
      have hspan : c.keySpan = c.name.span := by
        simp [keySpan, Property.ofColumn, Property.defaultKey, h]
      rw [keyText_of_default h, hspan]
      exact .default h

theorem keyText_ne_empty (h : c.setting.NamesSomething) : c.keyText ≠ "" := by
  cases hname : c.setting.name with
  | some x =>
      rw [keyText_of_given hname]
      exact h x hname
  | none =>
      rw [keyText_of_default hname]
      exact c.name.val.plain_ne

end Column

/-- No column of a record that is declared has an empty key. -/
theorem Record.keyText_ne_empty {i : Item} {r : Record} (h : ofItem i = .ok r) {c : Column}
    (hc : c ∈ r.columns) : c.keyText ≠ "" := by
  obtain ⟨fs, ms, cs, hdeclares, rfl⟩ := ofItem_eq_ok_iff.1 h
  obtain ⟨f, -, hfc⟩ := Field.exists_of_mem_columns hdeclares.columns hc
  apply Column.keyText_ne_empty
  cases hfc with
  | bare _ => exact Setting.namesSomething_none
  | set _ hs => exact Setting.namesSomething_of_ofAttribute hs

end RowDerive
