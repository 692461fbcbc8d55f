import RowDerive.Record.Basic
import Mathlib.Data.List.Forall2

/-!
# What a declaration says

Every part of a declaration is read, whatever is wrong with the others, and a record comes of it if there
is nothing to report. So what the record is can be said part by part: a column for each field, the
methods of each attribute, and no word about the order in which they were read or about reports.
-/

namespace RowDerive

theorem eq_ok_of_toOption {ε α : Type} {x : Except ε α} {a : α} (h : x.toOption = some a) :
    x = .ok a := by
  cases x with
  | error e => cases h
  | ok b => exact congrArg Except.ok (Option.some.inj h)

/-! ## Parts that fail apart -/

namespace Checked

variable {α β : Type}

/-- Parts of which none fails without a report are all right if there is nothing to report. -/
theorem clean_iff {f : β → Checked α} (hf : ∀ b, f b ≠ .error []) {bs : List β} {as : List α} :
    (bs.map f).flatMap reports = [] ∧ results (bs.map f) = as ↔
      List.Forall₂ (fun b a => f b = .ok a) bs as := by
  induction bs generalizing as with
  | nil => simp [results, eq_comm]
  | cons b bs ih =>
      rw [List.map_cons, List.flatMap_cons, List.append_eq_nil_iff, List.forall₂_cons_left_iff]
      cases hb : f b with
      | ok a =>
          simp only [reports_ok, true_and, results, Except.ok.injEq]
          constructor
          · rintro ⟨hreports, rfl⟩
            exact ⟨a, _, rfl, ih.1 ⟨hreports, rfl⟩, rfl⟩
          · rintro ⟨_, as', rfl, hall, rfl⟩
            obtain ⟨hreports, hresults⟩ := ih.2 hall
            exact ⟨hreports, by rw [hresults]⟩
      | error rs =>
          have hrs : rs ≠ [] := fun hc => hf b (hc ▸ hb)
          simp [hrs]

end Checked

/-! ## Columns -/

namespace Column

/-- After settings that were found every other attribute is a duplicate. -/
theorem readSettings_some (s : Setting) (attrs : List Attribute) :
    readSettings (some s) attrs =
      (attrs.map fun a => ⟨.duplicateColumn, a.span⟩, some s) := by
  induction attrs with
  | nil => rfl
  | cons a attrs ih => rw [readSettings, ih, List.map_cons]

/-- Settings are read without a report if there is one attribute at most, and a valid one. -/
theorem readSettings_eq_iff {attrs : List Attribute} {found : Option Setting} :
    readSettings none attrs = ([], found) ↔
      (attrs = [] ∧ found = none) ∨
        ∃ a s, attrs = [a] ∧ Setting.ofAttribute a = .ok s ∧ found = some s := by
  cases attrs with
  | nil => simp [readSettings, eq_comm]
  | cons a attrs =>
      cases ha : Setting.ofAttribute a with
      | ok s =>
          have hread : readSettings none (a :: attrs) = readSettings (some s) attrs := by
            rw [readSettings]
            simp only [ha]
          rw [hread, readSettings_some, Prod.mk.injEq, List.map_eq_nil_iff]
          constructor
          · rintro ⟨rfl, rfl⟩
            exact Or.inr ⟨a, s, rfl, ha, rfl⟩
          · rintro (⟨hc, -⟩ | ⟨a', s', h, hs, rfl⟩)
            · cases hc
            · obtain ⟨rfl, rfl⟩ := List.cons.inj h
              exact ⟨rfl, by rw [Except.ok.inj (ha.symm.trans hs)]⟩
      | error r =>
          have hread : (readSettings none (a :: attrs)).1 ≠ [] := by
            rw [readSettings]
            simp only [ha]
            exact List.cons_ne_nil _ _
          constructor
          · intro h
            exact absurd (congrArg Prod.fst h) hread
          · rintro (⟨hc, -⟩ | ⟨a', s', h, hs, -⟩)
            · cases hc
            · obtain ⟨rfl, -⟩ := List.cons.inj h
              cases ha.symm.trans hs

end Column

/-- The column that a field declares. -/
inductive Field.Declares (f : Field) : Column → Prop
  | bare (h : Column.settingAttrs f.attrs = []) : Declares f ⟨f.name, f.ty, Setting.none⟩
  | set {a : Attribute} {s : Setting} (h : Column.settingAttrs f.attrs = [a])
      (hs : Setting.ofAttribute a = .ok s) : Declares f ⟨f.name, f.ty, s⟩

namespace Field

/-- Every column is declared by a field. -/
theorem exists_of_mem_columns {fs : List Field} {cs : List Column}
    (h : List.Forall₂ Declares fs cs) {c : Column} (hc : c ∈ cs) : ∃ f ∈ fs, f.Declares c := by
  induction h with
  | nil => cases hc
  | cons hd _ ih =>
      rcases List.mem_cons.1 hc with rfl | hc
      · exact ⟨_, List.mem_cons_self, hd⟩
      · obtain ⟨f, hf, hfc⟩ := ih hc
        exact ⟨f, List.mem_cons_of_mem _ hf, hfc⟩

end Field

namespace Column

theorem ofField_ne_error_nil (f : Field) : ofField f ≠ .error [] := by
  intro h
  obtain ⟨hne, heq⟩ := (Checked.ifClean_eq_error_iff _ _ _).1 h
  exact hne heq

theorem ofField_eq_ok_iff {f : Field} {c : Column} : ofField f = .ok c ↔ f.Declares c := by
  obtain ⟨rs, found, hread⟩ : ∃ rs found, readSettings none (settingAttrs f.attrs) = (rs, found) :=
    ⟨_, _, rfl⟩
  have hfield : ofField f = .ifClean rs ⟨f.name, f.ty, found.getD Setting.none⟩ := by
    rw [ofField, hread]
  rw [hfield, Checked.ifClean_eq_ok_iff]
  constructor
  · rintro ⟨rfl, rfl⟩
    rcases readSettings_eq_iff.1 hread with ⟨h, rfl⟩ | ⟨a, s, h, hs, rfl⟩
    · exact .bare h
    · exact .set h hs
  · rintro (h | ⟨h, hs⟩)
    · obtain ⟨rfl, rfl⟩ := Prod.mk.inj (hread.symm.trans (readSettings_eq_iff.2 (Or.inl ⟨h, rfl⟩)))
      exact ⟨rfl, rfl⟩
    · obtain ⟨rfl, rfl⟩ :=
        Prod.mk.inj (hread.symm.trans (readSettings_eq_iff.2 (Or.inr ⟨_, _, h, hs, rfl⟩)))
      exact ⟨rfl, rfl⟩

end Column

/-! ## Methods -/

theorem Method.listOfAttribute_ne_error_nil (a : Attribute) : listOfAttribute a ≠ .error [] := by
  unfold listOfAttribute
  split
  · simp
  · split <;> simp

/-- The methods that a declaration with these attributes has: those of the attributes for it, one after
the other, or the default method. -/
inductive Item.HasMethods (i : Item) : List (Located Method) → Prop
  | default (h : Record.methodAttrs i.attrs = []) : HasMethods i [⟨Method.default, .nowhere⟩]
  | listed {mss : List (List (Located Method))} (h : Record.methodAttrs i.attrs ≠ [])
      (hs : List.Forall₂ (fun a ms => Method.listOfAttribute a = .ok ms)
        (Record.methodAttrs i.attrs) mss) : HasMethods i mss.flatten

namespace Record

theorem declaredMethods_iff {i : Item} {ms : List (Located Method)} :
    (declaredMethods i.attrs).flatMap Checked.reports = [] ∧
        (Checked.results (declaredMethods i.attrs)).flatten = ms ↔ i.HasMethods ms := by
  cases h : methodAttrs i.attrs with
  | nil =>
      rw [declaredMethods, h]
      constructor
      · rintro ⟨-, rfl⟩
        exact .default h
      · rintro (_ | ⟨hne, -⟩)
        · exact ⟨rfl, rfl⟩
        · exact absurd h hne
  | cons a as =>
      have hne : methodAttrs i.attrs ≠ [] := by simp [h]
      have hmethods : declaredMethods i.attrs = (methodAttrs i.attrs).map Method.listOfAttribute := by
        rw [declaredMethods, h]
      rw [hmethods]
      constructor
      · rintro ⟨hclean, rfl⟩
        exact .listed hne ((Checked.clean_iff Method.listOfAttribute_ne_error_nil).1 ⟨hclean, rfl⟩)
      · rintro (hc | ⟨-, hs⟩)
        · exact absurd hc hne
        · obtain ⟨hclean, rfl⟩ := (Checked.clean_iff Method.listOfAttribute_ne_error_nil).2 hs
          exact ⟨hclean, rfl⟩

end Record

/-! ## Records -/

/-- The named fields of a record; none if it is declared without fields. -/
inductive Shape.HasFields : Shape → List Field → Prop
  | named (fs : List Field) : HasFields (.named fs) fs
  | unit : HasFields .unit []

/-- What a declaration says that is right in all its parts: the methods and the columns. -/
structure Item.Declares (i : Item) (fs : List Field) (ms : List (Located Method))
    (cs : List Column) : Prop where
  fields : i.shape.HasFields fs
  methods : i.HasMethods ms
  columns : List.Forall₂ Field.Declares fs cs

namespace Record

theorem columnsOf_iff {σ : Shape} {fs : List Field} (hσ : σ.HasFields fs) {cs : List Column} :
    (columnsOf σ).flatMap Checked.reports = [] ∧ Checked.results (columnsOf σ) = cs ↔
      List.Forall₂ Field.Declares fs cs := by
  have hcolumns : columnsOf σ = fs.map Column.ofField := by cases hσ <;> rfl
  rw [hcolumns, Checked.clean_iff Column.ofField_ne_error_nil]
  simp only [Column.ofField_eq_ok_iff]

/-- What is read of a declaration whose shape has fields. -/
theorem ofItem_of_hasFields {i : Item} {fs : List Field} (hσ : i.shape.HasFields fs) :
    ofItem i =
      .ifClean
        ((declaredMethods i.attrs).flatMap Checked.reports ++
          (columnsOf i.shape).flatMap Checked.reports)
        ⟨i.name, i.generics, (Checked.results (declaredMethods i.attrs)).flatten,
          Checked.results (columnsOf i.shape)⟩ := by
  unfold ofItem
  split
  · rename_i keyword h
    rw [h] at hσ
    cases hσ
  · rfl

/-- A declaration without named fields is no record. -/
theorem exists_hasFields {i : Item} {r : Record} (h : ofItem i = .ok r) :
    ∃ fs, i.shape.HasFields fs := by
  cases hσ : i.shape with
  | named fs => exact ⟨fs, .named fs⟩
  | unit => exact ⟨[], .unit⟩
  | positional span =>
      simp [ofItem, hσ, Checked.ifClean_eq_ok_iff, columnsOf] at h
  | noRecord keyword =>
      rw [ofItem, hσ] at h
      cases h

/-- A record comes of a declaration that is right in all its parts, and of no other. -/
theorem ofItem_eq_ok_iff {i : Item} {r : Record} :
    ofItem i = .ok r ↔ ∃ fs ms cs, i.Declares fs ms cs ∧ r = ⟨i.name, i.generics, ms, cs⟩ := by
  constructor
  · intro h
    obtain ⟨fs, hσ⟩ := exists_hasFields h
    rw [ofItem_of_hasFields hσ, Checked.ifClean_eq_ok_iff, List.append_eq_nil_iff] at h
    obtain ⟨⟨hmethods, hcolumns⟩, rfl⟩ := h
    exact ⟨fs, _, _, ⟨hσ, declaredMethods_iff.1 ⟨hmethods, rfl⟩, (columnsOf_iff hσ).1 ⟨hcolumns, rfl⟩⟩,
      rfl⟩
  · rintro ⟨fs, ms, cs, ⟨hσ, hms, hcs⟩, rfl⟩
    obtain ⟨hmethods, rfl⟩ := declaredMethods_iff.2 hms
    obtain ⟨hcolumns, rfl⟩ := (columnsOf_iff hσ).2 hcs
    rw [ofItem_of_hasFields hσ, Checked.ifClean_eq_ok_iff, List.append_eq_nil_iff]
    exact ⟨⟨hmethods, hcolumns⟩, rfl⟩

end Record

end RowDerive
