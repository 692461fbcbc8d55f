import RowDerive.Proofs.Host.Rows
import RowDerive.Proofs.Place.Setting
import RowDerive.Proofs.Record.Declaration

/-!
# What a derivation looks at

Of a declaration it matters how it is named and parametrised, which methods it declares, and of each field
its name, its settings and, unless it has an adapter, how its type is stored. Declarations that agree in
this are *seen alike*: visibilities, all other attributes, the types of adapted fields and the spelling of
the others may differ, and so may every place. Each stage keeps what is seen alike so, down to the tokens
made and to what is reported, which are the same: `derive_of_seenAlike`.
-/

namespace RowDerive

open Placed (blur)
open Extension (rowName)

/-! ## Declarations that are seen alike -/

/-- Both types may hold nothing or neither, and what they hold is stored alike. -/
structure Ty.StoredAlike (t u : Ty) : Prop where
  optional : t.optionInner?.isSome = u.optionInner?.isSome
  storage : (t.optionInner?.getD t).storage? = (u.optionInner?.getD u).storage?

instance (t u : Ty) : Decidable (t.StoredAlike u) :=
  decidable_of_iff
    (t.optionInner?.isSome = u.optionInner?.isSome ∧
      (t.optionInner?.getD t).storage? = (u.optionInner?.getD u).storage?)
    ⟨fun h => ⟨h.1, h.2⟩, fun h => ⟨h.optional, h.storage⟩⟩

/-- The fields have the same name and settings. If they have no adapter, they are stored alike. -/
structure Field.SeenAlike (f g : Field) : Prop where
  name : f.name.val = g.name.val
  attrs : Alike (Column.settingAttrs f.attrs) (Column.settingAttrs g.attrs)
  ty : ∀ c, Column.ofField f = .ok c → c.setting.adapter = none → f.ty.val.StoredAlike g.ty.val

instance (f g : Field) : Decidable (f.SeenAlike g) :=
  decidable_of_iff
    (f.name.val = g.name.val ∧ Alike (Column.settingAttrs f.attrs) (Column.settingAttrs g.attrs) ∧
      ∀ c ∈ (Column.ofField f).toOption, c.setting.adapter = none → f.ty.val.StoredAlike g.ty.val) <| by
    have hok : ∀ c, c ∈ (Column.ofField f).toOption ↔ Column.ofField f = .ok c := by
      intro c
      cases Column.ofField f <;> simp [Except.toOption]
    simp only [hok]
    exact ⟨fun h => ⟨h.1, h.2.1, h.2.2⟩, fun h => ⟨h.name, h.attrs, h.ty⟩⟩

/-- The shapes are of one kind, with fields that are seen alike. -/
inductive Shape.SeenAlike : Shape → Shape → Prop
  | named {fs gs : List Field} (h : List.Forall₂ Field.SeenAlike fs gs) : SeenAlike (.named fs) (.named gs)
  | positional (s s' : Span) : SeenAlike (.positional s) (.positional s')
  | unit : SeenAlike .unit .unit
  | noRecord (s s' : Span) : SeenAlike (.noRecord s) (.noRecord s')

instance : (σ τ : Shape) → Decidable (σ.SeenAlike τ)
  | .named fs, .named gs =>
    decidable_of_iff (List.Forall₂ Field.SeenAlike fs gs) ⟨.named, fun h => by cases h; assumption⟩
  | .positional s, .positional s' => isTrue (.positional s s')
  | .unit, .unit => isTrue .unit
  | .noRecord s, .noRecord s' => isTrue (.noRecord s s')
  | .named _, .positional _ | .named _, .unit | .named _, .noRecord _ | .positional _, .named _
  | .positional _, .unit | .positional _, .noRecord _ | .unit, .named _ | .unit, .positional _
  | .unit, .noRecord _ | .noRecord _, .named _ | .noRecord _, .positional _ | .noRecord _, .unit =>
    isFalse fun h => by cases h

/-- The declarations have the same name and parameters, declare the same methods, and have fields that
are seen alike. -/
structure Item.SeenAlike (i j : Item) : Prop where
  name : i.name.val = j.name.val
  generics : i.generics = j.generics
  attrs : Alike (Record.methodAttrs i.attrs) (Record.methodAttrs j.attrs)
  shape : i.shape.SeenAlike j.shape

instance (i j : Item) : Decidable (i.SeenAlike j) :=
  decidable_of_iff
    (i.name.val = j.name.val ∧ i.generics = j.generics ∧
      Alike (Record.methodAttrs i.attrs) (Record.methodAttrs j.attrs) ∧ i.shape.SeenAlike j.shape)
    ⟨fun h => ⟨h.1, h.2.1, h.2.2.1, h.2.2.2⟩, fun h => ⟨h.name, h.generics, h.attrs, h.shape⟩⟩

/-! ## Parts that are read apart -/

namespace Checked

variable {α β : Type} {R : α → β → Prop}

/-- Both parts are right, and what is read is related, or the same is wrong with both. -/
inductive Rel (R : α → β → Prop) : Checked α → Checked β → Prop
  | ok {a : α} {b : β} (h : R a b) : Rel R (.ok a) (.ok b)
  | error {rs qs : List Report} (h : Alike rs qs) : Rel R (.error rs) (.error qs)

theorem Rel.of_alike {α : Type} [Placed α] {x y : Checked α} (h : Alike x y) :
    Rel (fun a b => Alike a b) x y := by
  rcases Parser.blur_eq_iff.1 h.eq with ⟨a, b, rfl, rfl, hab⟩ | ⟨rs, qs, rfl, rfl, hrs⟩
  · exact .ok ⟨hab⟩
  · exact .error ⟨hrs⟩

theorem Rel.ifClean {rs qs : List Report} {a : α} {b : β} (hrs : Alike rs qs)
    (hab : rs = [] → R a b) : Rel R (Checked.ifClean rs a) (Checked.ifClean qs b) := by
  cases rs with
  | nil =>
      obtain rfl : qs = [] := List.map_eq_nil_iff.1 hrs.eq.symm
      exact .ok (hab rfl)
  | cons r rs =>
      cases qs with
      | nil => exact nomatch hrs.eq
      | cons q qs => exact .error hrs

theorem Rel.reports {x : Checked α} {y : Checked β} (h : Rel R x y) :
    Alike x.reports y.reports := by
  cases h with
  | ok h => exact ⟨rfl⟩
  | error h => exact h

variable {xs : List (Checked α)} {ys : List (Checked β)}

theorem alike_flatMap_reports (h : List.Forall₂ (Rel R) xs ys) :
    Alike (xs.flatMap Checked.reports) (ys.flatMap Checked.reports) := by
  induction h with
  | nil => exact ⟨rfl⟩
  | cons hxy _ ih =>
      have hreports := hxy.reports
      rw [List.flatMap_cons, List.flatMap_cons]
      infer_instance

theorem forall₂_results (h : List.Forall₂ (Rel R) xs ys) :
    List.Forall₂ R (results xs) (results ys) := by
  induction h with
  | nil => exact .nil
  | cons hxy _ ih =>
      cases hxy with
      | ok h => exact .cons h ih
      | error h => exact ih

end Checked

/-! ## Columns and methods -/

/-- The columns have the same name and settings. If they have no adapter, they are stored alike. -/
structure Column.SeenAlike (c d : Column) : Prop where
  name : c.name.val = d.name.val
  setting : Alike c.setting d.setting
  ty : c.setting.adapter = none → c.ty.val.StoredAlike d.ty.val

theorem Field.SeenAlike.ofField {f g : Field} (h : f.SeenAlike g) :
    Checked.Rel Column.SeenAlike (Column.ofField f) (Column.ofField g) := by
  have hnone : Alike (none : Option Setting) none := ⟨rfl⟩
  have hsettings := (Column.alike_readSettings h.attrs hnone).eq
  obtain ⟨hrs, hs⟩ := Prod.mk.inj hsettings
  refine Checked.Rel.ifClean ⟨hrs⟩ fun hclean => ⟨h.name, alike_getD ⟨hs⟩ ⟨rfl⟩, h.ty _ ?_⟩
  show Checked.ifClean (Column.readSettings none (Column.settingAttrs f.attrs)).1 _ = _
  rw [hclean, Checked.ifClean_nil]

theorem Record.forall₂_columnsOf {σ τ : Shape} (h : σ.SeenAlike τ) :
    List.Forall₂ (Checked.Rel Column.SeenAlike) (columnsOf σ) (columnsOf τ) := by
  cases h with
  | named h =>
      rw [columnsOf, columnsOf, List.forall₂_map_left_iff, List.forall₂_map_right_iff]
      exact h.imp fun _ _ h => h.ofField
  | positional s s' => exact .cons (.error ⟨rfl⟩) .nil
  | unit | noRecord s s' => exact .nil

theorem Record.forall₂_declaredMethods {as bs : List Attribute}
    (h : Alike (methodAttrs as) (methodAttrs bs)) :
    List.Forall₂ (Checked.Rel fun ms ms' => Alike ms ms') (declaredMethods as) (declaredMethods bs) := by
  rw [alike_list_iff] at h
  rw [declaredMethods, declaredMethods]
  generalize methodAttrs as = as', methodAttrs bs = bs' at h ⊢
  cases h with
  | nil => exact .cons (.ok ⟨rfl⟩) .nil
  | cons hab h =>
      refine .cons (.of_alike (Method.alike_listOfAttribute hab)) ?_
      rw [List.forall₂_map_left_iff, List.forall₂_map_right_iff]
      exact h.imp fun _ _ h => .of_alike (Method.alike_listOfAttribute h)

/-! ## Records -/

/-- The records have the same name, parameters and methods, and columns that are seen alike. -/
structure Record.SeenAlike (r r' : Record) : Prop where
  name : r.name.val = r'.name.val
  generics : r.generics = r'.generics
  methods : Alike r.methods r'.methods
  columns : List.Forall₂ Column.SeenAlike r.columns r'.columns

/-- Declarations that are seen alike are the same record, or the same is wrong with both. -/
theorem Item.SeenAlike.ofItem {i j : Item} (h : i.SeenAlike j) :
    Checked.Rel Record.SeenAlike (Record.ofItem i) (Record.ofItem j) := by
  obtain ⟨attrs, vis, name, generics, σ⟩ := i
  obtain ⟨attrs', vis', name', generics', τ⟩ := j
  have hmethods := Record.forall₂_declaredMethods h.attrs
  have hcolumns := Record.forall₂_columnsOf h.shape
  have hmreports := Checked.alike_flatMap_reports hmethods
  have hcreports := Checked.alike_flatMap_reports hcolumns
  have hrecord : Record.SeenAlike
      ⟨name, generics, (Checked.results (Record.declaredMethods attrs)).flatten,
        Checked.results (Record.columnsOf σ)⟩
      ⟨name', generics', (Checked.results (Record.declaredMethods attrs')).flatten,
        Checked.results (Record.columnsOf τ)⟩ :=
    ⟨h.name, h.generics, alike_flatten (Checked.forall₂_results hmethods),
      Checked.forall₂_results hcolumns⟩
  cases h.shape with
  | named _ | positional _ _ | unit =>
      rw [Record.ofItem, Record.ofItem]
      exact .ifClean inferInstance fun _ => hrecord
  | noRecord s s' => exact .error ⟨rfl⟩

/-! ## Properties -/

/-- The properties have the same name, key and adapter. If they have none, they are stored alike. -/
structure Property.SeenAlike (p q : Property) : Prop where
  name : p.name = q.name
  key : p.key.val = q.key.val
  adapter : p.adapter = q.adapter
  optional : p.adapter = none → p.isOptional = q.isOptional
  storage : p.adapter = none → p.storage = q.storage

theorem Column.SeenAlike.ofColumn {c d : Column} (h : c.SeenAlike d) :
    (Property.ofColumn c).SeenAlike (Property.ofColumn d) := by
  obtain ⟨hkey, hadapter⟩ := Setting.mk.inj h.setting.eq
  refine ⟨h.name, ?_, hadapter, fun hnone => (h.ty hnone).optional, fun hnone => (h.ty hnone).storage⟩
  have hdefault : Alike (Property.defaultKey c.name) (Property.defaultKey d.name) := by
    rw [Property.defaultKey, Property.defaultKey, h.name]
    exact ⟨rfl⟩
  exact Located.val_eq_of_alike (alike_getD ⟨hkey⟩ hdefault)

namespace Property

theorem SeenAlike.isStorable {p q : Property} (h : p.SeenAlike q) : p.isStorable = q.isStorable := by
  rw [Property.isStorable, Property.isStorable, isSupported, isSupported, ← h.adapter]
  cases hadapter : p.adapter with
  | none => rw [h.storage hadapter]
  | some t => rfl

theorem SeenAlike.problems {p q : Property} (h : p.SeenAlike q) (seen : List (String × String)) :
    Alike (p.problems seen) (q.problems seen) where
  eq := by
    rw [Property.problems, Property.problems, keyText, keyText, h.key, h.name, h.isStorable]
    cases seen.lookup q.key.val.value <;> cases q.isStorable <;> rfl

theorem alike_listProblems {ps qs : List Property} (h : List.Forall₂ SeenAlike ps qs)
    (seen : List (String × String)) : Alike (listProblems seen ps) (listProblems seen qs) := by
  induction h generalizing seen with
  | nil => exact ⟨rfl⟩
  | @cons p q ps qs hpq _ ih =>
      have hproblems := hpq.problems seen
      have hrest := ih ((p.keyText, p.name.text) :: seen)
      have hkey : q.keyText = p.keyText := congrArg StringLiteral.value hpq.key.symm
      rw [listProblems, listProblems, hkey, ← hpq.name]
      infer_instance

theorem rel_ofRecord {r r' : Record} (h : r.SeenAlike r') :
    Checked.Rel (List.Forall₂ SeenAlike) (ofRecord r) (ofRecord r') := by
  have hps : List.Forall₂ SeenAlike (r.columns.map ofColumn) (r'.columns.map ofColumn) := by
    rw [List.forall₂_map_left_iff, List.forall₂_map_right_iff]
    exact h.columns.imp fun _ _ h => h.ofColumn
  exact .ifClean (alike_listProblems hps []) fun _ => hps

end Property

/-! ## What is made -/

namespace Body

variable {ps qs : List Property}

theorem adaptersOf_congr (h : List.Forall₂ Property.SeenAlike ps qs) : adaptersOf ps = adaptersOf qs := by
  have hadapters : ps.filterMap Property.adapter = qs.filterMap Property.adapter := by
    induction h with
    | nil => rfl
    | cons hpq _ ih => rw [List.filterMap_cons, List.filterMap_cons, hpq.adapter, ih]
  rw [adaptersOf, adaptersOf, hadapters]

theorem statement?_congr {p q : Property} (h : p.SeenAlike q) (adapters : List Ty) :
    statement? adapters p = statement? adapters q := by
  rw [statement?, statement?, ← h.adapter, h.key, h.name]
  cases hadapter : p.adapter with
  | some t => rfl
  | none =>
      dsimp only
      rw [h.optional hadapter, h.storage hadapter]

theorem assemble_congr (h : List.Forall₂ Property.SeenAlike ps qs) (adapters : List Ty) :
    assemble adapters ps = assemble adapters qs := by
  induction h with
  | nil => rfl
  | cons hpq _ ih => rw [assemble, assemble, statement?_congr hpq, hpq.name, ih]

end Body

/-- Properties that are seen alike are put in the same way. -/
theorem Method.implement_congr {ps qs : List Property} (h : List.Forall₂ Property.SeenAlike ps qs)
    (m : Method) : m.implement ps = m.implement qs := by
  rw [implement, implement, Body.ofProperties, Body.ofProperties, Body.adaptersOf_congr h,
    Body.assemble_congr h]

theorem Method.alike_soleGetter? {x : String} {ms ms' : List (Located Method)} (h : Alike ms ms') :
    Alike (soleGetter? x ms) (soleGetter? x ms') := by
  have hfilter : Alike (ms.filter (·.val.isGetter x)) (ms'.filter (·.val.isGetter x)) :=
    alike_filter (fun _ => rfl) h
  rw [alike_list_iff] at hfilter
  rw [soleGetter?, soleGetter?]
  generalize ms.filter (·.val.isGetter x) = getters, ms'.filter (·.val.isGetter x) = getters' at hfilter ⊢
  cases hfilter with
  | nil => exact ⟨rfl⟩
  | cons hm hrest =>
      cases hrest with
      | nil => exact ⟨congrArg some hm.eq⟩
      | cons _ _ => exact ⟨rfl⟩

/-- For records that are seen alike the same is made, or it fails for the same reasons. -/
theorem Extension.alike_makeRow {r r' : Record} (h : r.SeenAlike r') {m m' : Located Method}
    (hm : Method.soleGetter? rowName r.methods = some m)
    (hm' : Method.soleGetter? rowName r'.methods = some m') (hmm : m.val = m'.val) :
    Alike ((makeRow ⟨r, r.methods⟩).mapError Failure.toReports)
      ((makeRow ⟨r', r'.methods⟩).mapError Failure.toReports) := by
  have hproperties := Property.rel_ofRecord h
  generalize hps : Property.ofRecord r = ps, hqs : Property.ofRecord r' = qs at hproperties
  cases hproperties with
  | error hrs =>
      rw [makeRow_of_error hm hps, makeRow_of_error hm' hqs]
      exact ⟨congrArg Except.error hrs.eq⟩
  | ok h =>
      rw [makeRow_of_ok hm hps, makeRow_of_ok hm' hqs, hmm, Method.implement_congr h]
      infer_instance

namespace Host

variable {r r' : Record}

theorem alike_map_unimplemented {ms ms' : List (Located Method)} (h : Alike ms ms') :
    Alike (ms.map unimplemented) (ms'.map unimplemented) := by
  rw [alike_list_iff] at h ⊢
  rw [List.forall₂_map_left_iff, List.forall₂_map_right_iff]
  refine h.imp fun m m' hm => ?_
  rw [unimplemented, unimplemented, Located.val_eq_of_alike hm]
  infer_instance

theorem alike_leave (taken : List Method) {ms ms' : List (Located Method)} (h : Alike ms ms') :
    Alike (leave taken ms) (leave taken ms') :=
  alike_filter (fun _ => rfl) h

theorem implBlock_congr (h : r.SeenAlike r') (made : List (List Token)) :
    implBlock r made = implBlock r' made := by
  rw [implBlock, implBlock, h.name, h.generics]

/-- Of records that are seen alike the same is made, or the same is reported. -/
theorem rel_run_extensions (h : r.SeenAlike r') :
    Checked.Rel Eq (run r extensions) (run r' extensions) := by
  have hsole := Method.alike_soleGetter? (x := rowName) h.methods
  generalize hm : Method.soleGetter? rowName r.methods = m?,
    hm' : Method.soleGetter? rowName r'.methods = m?' at hsole
  rcases m? with - | m <;> rcases m?' with - | m'
  · rw [run_extensions_of_none hm, run_extensions_of_none hm']
    exact .ifClean (alike_map_unimplemented h.methods) fun _ => rfl
  · exact nomatch hsole.eq
  · exact nomatch hsole.eq
  · have hmm : m.val = m'.val := Located.val_eq_of_alike ⟨Option.some.inj hsole.eq⟩
    have hleft := alike_map_unimplemented (alike_leave [m.val] h.methods)
    have hmake := Extension.alike_makeRow h hm hm' hmm
    rw [run_extensions_of_some hm, run_extensions_of_some hm', ← hmm]
    generalize Extension.makeRow ⟨r, r.methods⟩ = made, Extension.makeRow ⟨r', r'.methods⟩ = made'
      at hmake ⊢
    rcases made with f | ts <;> rcases made' with f' | ts'
    · have hreports : Alike f.toReports f'.toReports := ⟨Except.error.inj hmake.eq⟩
      exact .ifClean inferInstance fun _ => rfl
    · exact nomatch hmake.eq
    · exact nomatch hmake.eq
    · have hts : blur ts = blur ts' := Except.ok.inj hmake.eq
      rw [Placeless.blur_eq, Placeless.blur_eq] at hts
      subst hts
      exact .ifClean hleft fun _ => implBlock_congr h [ts]

end Host

/-- What is reported at whatever places has the same messages. -/
theorem Report.map_message_eq {rs qs : List Report} (h : Alike rs qs) :
    rs.map (·.val.message) = qs.map (·.val.message) := by
  rw [alike_list_iff] at h
  induction h with
  | nil => rfl
  | cons hr _ ih => rw [List.map_cons, List.map_cons, Located.val_eq_of_alike hr, ih]

/-- For declarations that are seen alike something is made or nothing is, and if something is made, the
same tokens are. If not, the messages are the same, in the same order. -/
theorem derive_of_seenAlike {i j : Item} (h : i.SeenAlike j) :
    (∀ ts, derive i = .ok ts ↔ derive j = .ok ts) ∧
      (derive i).reports.map (·.val.message) = (derive j).reports.map (·.val.message) := by
  have hderive : Checked.Rel Eq (derive i) (derive j) := by
    have hrecord := h.ofItem
    rw [derive, derive]
    generalize Record.ofItem i = x, Record.ofItem j = y at hrecord ⊢
    cases hrecord with
    | error hrs => exact .error hrs
    | ok h => exact Host.rel_run_extensions h
  generalize derive i = x, derive j = y at hderive ⊢
  cases hderive with
  | ok h =>
      subst h
      exact ⟨fun _ => .rfl, rfl⟩
  | error hrs => exact ⟨fun _ => by simp only [reduceCtorEq], Report.map_message_eq hrs⟩

/-- A record with a field that is adapted and one that is not. -/
def plainSource : String := "struct S \x7b #[column(adapter = A)] a: T, b: Option<i64> \x7d"

/-- The same record with visibilities, other attributes and other types. -/
def dressedSource : String :=
  "#[doc] pub struct S \x7b #[column(adapter = A)] pub a: u8, #[doc] b: Option<p::i64> \x7d"

/-- Of both declarations the same is made. -/
theorem derive_of_seenAlike_dressed :
    ∃ i j ts, Item.ofText? plainSource = some i ∧ Item.ofText? dressedSource = some j ∧
      i.SeenAlike j ∧ derive i = .ok ts ∧ derive j = .ok ts := by
  have hcheck : (Item.ofText? plainSource).any fun i => (Item.ofText? dressedSource).any fun j =>
      i.SeenAlike j ∧ (derive i).toOption.isSome := by decide +kernel
  obtain ⟨i, hi, hcheck⟩ := (Option.any_eq_true _ _).1 hcheck
  obtain ⟨j, hj, hcheck⟩ := (Option.any_eq_true _ _).1 hcheck
  obtain ⟨hseen, hsome⟩ := of_decide_eq_true hcheck
  obtain ⟨ts, hts⟩ := Option.isSome_iff_exists.1 hsome
  have hok := eq_ok_of_toOption hts
  exact ⟨i, j, ts, hi, hj, hseen, hok, ((derive_of_seenAlike hseen).1 ts).1 hok⟩

end RowDerive
