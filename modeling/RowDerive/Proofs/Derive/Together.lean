import RowDerive.Proofs.Derive.Acceptance
import RowDerive.Proofs.Extension.Agreement
import RowDerive.Proofs.Record.ColumnKey

/-!
# What is reported together

A field may be wrong in itself, by its attributes, or it may be right in itself and yet be no column
that can be put: its type is not supported, or its key is that of an earlier field. The first kind of
problem is found while the declaration is read, the second among the properties of its record, and there
is no record if the first was found. So of a declaration that asks for a row all problems are reported
together exactly if they are of one kind: `reports_together_iff`. Where both occur, those of the second
kind are hidden.
-/

namespace RowDerive

open Extension (rowName makeRow)

/-! ## Fields -/

namespace Field

/-- The attributes of the field are no settings of a column. -/
def Invalid (f : Field) : Prop := ∀ c, ¬ f.Declares c

theorem Declares.unique {f : Field} {c d : Column} (hc : f.Declares c) (hd : f.Declares d) :
    c = d :=
  Except.ok.inj ((Column.ofField_eq_ok_iff.2 hc).symm.trans (Column.ofField_eq_ok_iff.2 hd))

theorem declares_of_toOption {f : Field} {c : Column} (h : (Column.ofField f).toOption = some c) :
    f.Declares c :=
  Column.ofField_eq_ok_iff.1 (eq_ok_of_toOption h)

theorem Invalid.ofField_eq {f : Field} (h : f.Invalid) : ∃ rs, Column.ofField f = .error rs := by
  cases hf : Column.ofField f with
  | ok c => exact absurd (Column.ofField_eq_ok_iff.1 hf) (h c)
  | error rs => exact ⟨rs, rfl⟩

/-- What is wrong with a field is reported. -/
theorem Invalid.reports_ne_nil {f : Field} (h : f.Invalid) : (Column.ofField f).reports ≠ [] := by
  obtain ⟨rs, hrs⟩ := h.ofField_eq
  have hne := Column.ofField_ne_error_nil f
  rw [hrs] at hne ⊢
  exact fun hc => hne (congrArg Except.error hc)

theorem exists_columns {fs : List Field} (h : ∀ f ∈ fs, ∃ c, f.Declares c) :
    ∃ cs, List.Forall₂ Declares fs cs := by
  induction fs with
  | nil => exact ⟨[], .nil⟩
  | cons f fs ih =>
      obtain ⟨c, hc⟩ := h f List.mem_cons_self
      obtain ⟨cs, hcs⟩ := ih fun g hg => h g (List.mem_cons_of_mem f hg)
      exact ⟨c :: cs, .cons hc hcs⟩

/-- The columns of fields are parted as the fields are. -/
theorem columns_split {before after : List Field} {f : Field} {cs : List Column}
    (h : List.Forall₂ Declares (before ++ f :: after) cs) :
    ∃ ds c es, cs = ds ++ c :: es ∧ f.Declares c ∧ List.Forall₂ Declares before ds := by
  induction before generalizing cs with
  | nil =>
      obtain ⟨c, es, hc, -, rfl⟩ := List.forall₂_cons_left_iff.1 h
      exact ⟨[], c, es, rfl, hc, .nil⟩
  | cons g before ih =>
      obtain ⟨d, cs', hd, hcs', rfl⟩ := List.forall₂_cons_left_iff.1 h
      obtain ⟨ds, c, es, rfl, hc, hds⟩ := ih hcs'
      exact ⟨d :: ds, c, es, rfl, hc, .cons hd hds⟩

theorem exists_mem_columns {fs : List Field} {cs : List Column}
    (h : List.Forall₂ Declares fs cs) {f : Field} (hf : f ∈ fs) : ∃ c ∈ cs, f.Declares c := by
  obtain ⟨before, after, rfl⟩ := List.append_of_mem hf
  obtain ⟨ds, c, es, rfl, hc, -⟩ := columns_split h
  exact ⟨c, by simp, hc⟩

end Field

/-! ## Problems of both kinds -/

/-- The fields that are right in themselves can all be put into one row. -/
structure Fit (fs : List Field) : Prop where
  storable : ∀ f ∈ fs, ∀ c, f.Declares c → c.Storable
  distinct : ∀ before f after, fs = before ++ f :: after → ∀ g ∈ before, ∀ c d,
    f.Declares c → g.Declares d → d.keyText ≠ c.keyText

/-- Everything that is wrong with the fields is among the reports: what is wrong with a field in itself,
each type that is not supported of those that are right in themselves, and each of their keys that is the
key of an earlier one. -/
structure AllReported (fs : List Field) (rs : List Report) : Prop where
  invalid : ∀ f ∈ fs, f.Invalid →
    (Column.ofField f).reports ≠ [] ∧ (Column.ofField f).reports ⊆ rs
  unsupported : ∀ f ∈ fs, ∀ c, f.Declares c → ¬ c.Storable →
    ⟨.unsupportedType c.name.val.text, c.ty.span⟩ ∈ rs
  shared : ∀ before f after, fs = before ++ f :: after → ∀ g ∈ before, ∀ c d,
    f.Declares c → g.Declares d → d.keyText = c.keyText →
      ∃ g' ∈ before, ∃ d', g'.Declares d' ∧ d'.keyText = c.keyText ∧
        ⟨.sharedKey c.keyText d'.name.val.text, c.keySpan⟩ ∈ rs

/-- What is wrong with fields that are right in themselves is all among the problems of their
properties. -/
theorem AllReported.of_columns {fs : List Field} {cs : List Column}
    (hcs : List.Forall₂ Field.Declares fs cs) {rs : List Report}
    (hrs : Property.listProblems [] (cs.map .ofColumn) ⊆ rs) : AllReported fs rs where
  invalid f hf hinvalid := by
    obtain ⟨c, -, hc⟩ := Field.exists_mem_columns hcs hf
    exact absurd hc (hinvalid c)
  unsupported f hf c hc hstorable := by
    obtain ⟨c', hmem, hc'⟩ := Field.exists_mem_columns hcs hf
    obtain rfl := hc.unique hc'
    apply hrs
    exact Property.unsupportedType_mem_listProblems (List.mem_map_of_mem hmem)
      fun h => hstorable (Property.isStorable_ofColumn_iff.1 h)
  shared before f after hfs g hg c d hc hd hkey := by
    subst hfs
    obtain ⟨ds, c', es, rfl, hc', hds⟩ := Field.columns_split hcs
    obtain rfl := hc.unique hc'
    obtain ⟨d₀, hd₀, hgd₀⟩ := Field.exists_mem_columns hds hg
    obtain rfl := hd.unique hgd₀
    rw [List.map_append, List.map_cons] at hrs
    obtain ⟨q, hq, hqkey, hmem⟩ := @Property.sharedKey_mem_listProblems _ (es.map .ofColumn)
      (.ofColumn c) ⟨.ofColumn d, List.mem_map_of_mem hd₀, hkey⟩
    obtain ⟨d', hd', rfl⟩ := List.mem_map.1 hq
    obtain ⟨g', hg', hgd'⟩ := Field.exists_of_mem_columns hds hd'
    exact ⟨g', hg', d', hgd', hqkey, hrs hmem⟩

theorem AllReported.of_fit {fs : List Field} (hfit : Fit fs) {rs : List Report}
    (hrs : ∀ f ∈ fs, f.Invalid → (Column.ofField f).reports ⊆ rs) : AllReported fs rs where
  invalid f hf hinvalid := ⟨hinvalid.reports_ne_nil, hrs f hf hinvalid⟩
  unsupported f hf c hc hstorable := absurd (hfit.storable f hf c hc) hstorable
  shared before f after hfs g hg c d hc hd hkey :=
    absurd hkey (hfit.distinct before f after hfs g hg c d hc hd)

/-- Where only problems of the first kind are reported, there are none of the second. -/
theorem AllReported.fit {fs : List Field} {rs : List Report} (h : AllReported fs rs)
    (hrs : FoundAt .reading rs) : Fit fs where
  storable f hf c hc := by
    by_contra hstorable
    exact hrs.notMem (by simp [Problem.stage]) (h.unsupported f hf c hc hstorable)
  distinct before f after hfs g hg c d hc hd hkey := by
    obtain ⟨g', -, d', -, -, hmem⟩ := h.shared before f after hfs g hg c d hc hd hkey
    exact hrs.notMem (by simp [Problem.stage]) hmem

/-! ## Derivations -/

variable {i : Item} {fs : List Field}

/-- A declaration with a field that is wrong in itself is no record, and what is wrong with its fields in
themselves is reported. -/
theorem derive_of_invalid (hσ : i.shape = .named fs) {f : Field} (hf : f ∈ fs) (h : f.Invalid) :
    ∃ rs, derive i = .error rs ∧ FoundAt .reading rs ∧
      ∀ g ∈ fs, (Column.ofField g).reports ⊆ rs := by
  have hfields : i.shape.HasFields fs := hσ ▸ .named fs
  have hread := Record.ofItem_of_hasFields hfields
  have hsub : ∀ g ∈ fs, (Column.ofField g).reports ⊆
      (Record.declaredMethods i.attrs).flatMap Checked.reports ++
        (Record.columnsOf i.shape).flatMap Checked.reports := by
    intro g hg q hq
    apply List.mem_append_right
    rw [hσ]
    exact List.mem_flatMap.2 ⟨Column.ofField g, List.mem_map_of_mem hg, hq⟩
  cases hitem : Record.ofItem i with
  | ok r =>
      rw [hitem, eq_comm, Checked.ifClean_eq_ok_iff] at hread
      have hnil := List.subset_nil.1 (hread.1 ▸ hsub f hf)
      exact absurd hnil h.reports_ne_nil
  | error rs =>
      refine ⟨rs, by rw [derive, hitem], Record.foundAt_ofItem hitem, ?_⟩
      rw [hitem, eq_comm, Checked.ifClean_eq_error_iff] at hread
      rw [← hread.2]
      exact hsub

/-- Of a record with one getter all that is wrong with its properties is reported. -/
theorem listProblems_subset_of_run {r : Record} {m : Located Method}
    (hm : Method.soleGetter? rowName r.methods = some m) {rs : List Report}
    (h : Host.run r extensions = .error rs) :
    Property.listProblems [] (r.columns.map .ofColumn) ⊆ rs := by
  cases hps : Property.ofRecord r with
  | ok ps =>
      obtain ⟨hnil, -⟩ := (Checked.ifClean_eq_ok_iff _ _ _).1 hps
      rw [hnil]
      exact List.nil_subset _
  | error qs =>
      obtain ⟨-, rfl⟩ := (Checked.ifClean_eq_error_iff _ _ _).1 hps
      rw [Host.run_extensions_of_some hm, Extension.makeRow_of_error hm hps] at h
      obtain ⟨-, rfl⟩ := (Checked.ifClean_eq_error_iff _ _ _).1 h
      exact List.subset_append_left _ _

/-- A declaration of named fields with one getter of rows reports everything that is wrong with its
fields, whenever it fails, exactly if either all fields are right in themselves, or those that are can be
put into one row. -/
theorem reports_together_iff {ms : List (Located Method)} {m : Located Method}
    (hσ : i.shape = .named fs) (hms : i.HasMethods ms)
    (hm : Method.soleGetter? rowName ms = some m) :
    (∀ rs, derive i = .error rs → AllReported fs rs) ↔
      (∀ f ∈ fs, ∃ c, f.Declares c) ∨ Fit fs := by
  constructor
  · intro hall
    by_contra hboth
    obtain ⟨hinvalid, hfit⟩ := not_or.1 hboth
    push Not at hinvalid
    obtain ⟨f, hf, hinvalid⟩ := hinvalid
    obtain ⟨rs, hrs, hreading, -⟩ := derive_of_invalid hσ hf hinvalid
    exact hfit ((hall rs hrs).fit hreading)
  · rintro (hvalid | hfit) rs hrs
    · obtain ⟨cs, hcs⟩ := Field.exists_columns hvalid
      have hi : i.Declares fs ms cs := ⟨hσ ▸ .named fs, hms, hcs⟩
      rw [derive_of_declares hi] at hrs
      exact .of_columns hcs (listProblems_subset_of_run hm hrs)
    · refine .of_fit hfit fun f hf hinvalid => ?_
      obtain ⟨rs', hrs', -, hsub⟩ := derive_of_invalid hσ hf hinvalid
      obtain rfl := Except.error.inj (hrs'.symm.trans hrs)
      exact hsub f hf

/-- A declaration whose fields are right in themselves, with a problem among its properties for each. -/
def unfitSource : String := "struct S \x7b a: u64, #[column(name = \"a\")] b: i64 \x7d"

/-- Of such a declaration both problems are reported. -/
theorem reports_together_unfit :
    ∃ i fs rs, Item.ofText? unfitSource = some i ∧ i.shape = .named fs ∧ derive i = .error rs ∧
      rs.length = 2 ∧ AllReported fs rs := by
  have hcheck : (Item.ofText? unfitSource).any fun i =>
      match i.shape with
      | .named fs => Record.methodAttrs i.attrs = [] ∧
          derive i = .error [⟨.unsupportedType "a", ⟨14, 17⟩⟩, ⟨.sharedKey "a" "a", ⟨35, 38⟩⟩] ∧
          ∀ f ∈ fs, (Column.ofField f).toOption.isSome
      | _ => false := by decide +kernel
  obtain ⟨i, hi, hcheck⟩ := (Option.any_eq_true _ _).1 hcheck
  split at hcheck
  · rename_i fs hσ
    obtain ⟨hattrs, hderive, hfields⟩ := of_decide_eq_true hcheck
    have hvalid : ∀ f ∈ fs, ∃ c, f.Declares c := by
      intro f hf
      obtain ⟨c, hc⟩ := Option.isSome_iff_exists.1 (hfields f hf)
      exact ⟨c, Field.declares_of_toOption hc⟩
    exact ⟨i, fs, _, hi, hσ, hderive, rfl,
      (reports_together_iff hσ (.default hattrs) (Method.soleGetter?_singleton (by decide))).2
        (.inl hvalid) _ hderive⟩
  · cases hcheck

/-- A declaration with a field that is wrong in itself and one whose type is not supported. -/
def maskingSource : String := "struct S \x7b #[column(name = \"\")] a: u8, b: u64 \x7d"

/-- Of such a declaration only the first problem is reported, although it asks for a row. -/
theorem derive_hides_unsupported :
    ∃ i fs m rs, Item.ofText? maskingSource = some i ∧ i.shape = .named fs ∧ i.HasMethods [m] ∧
      m.val.isGetter rowName ∧ derive i = .error rs ∧ ¬ AllReported fs rs := by
  have hcheck : (Item.ofText? maskingSource).any fun i =>
      match i.shape with
      | .named fs => Record.methodAttrs i.attrs = [] ∧
          derive i = .error [⟨.emptyName, ⟨27, 29⟩⟩] ∧
          ∃ f ∈ fs, (Column.ofField f).toOption.any fun c => !(Property.ofColumn c).isStorable
      | _ => false := by decide +kernel
  obtain ⟨i, hi, hcheck⟩ := (Option.any_eq_true _ _).1 hcheck
  split at hcheck
  · rename_i fs hσ
    obtain ⟨hattrs, hderive, f, hf, hc⟩ := of_decide_eq_true hcheck
    refine ⟨i, fs, ⟨Method.default, .nowhere⟩, _, hi, hσ, .default hattrs, by decide, hderive, ?_⟩
    intro hall
    obtain ⟨c, hok, hc⟩ := (Option.any_eq_true _ _).1 hc
    have hdeclares := Field.declares_of_toOption hok
    have hmem := hall.unsupported f hf c hdeclares fun hstorable => by
      rw [Property.isStorable_ofColumn_iff.2 hstorable] at hc
      cases hc
    simp at hmem
  · cases hcheck

end RowDerive
