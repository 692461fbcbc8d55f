import RowDerive.Derive
import RowDerive.Proofs.Record.Declaration

/-!
# Attributes of a field

A field may have its settings in one attribute. Of its attributes all are reported but the first that
holds settings: those before it for their contents, those after it as duplicates. So an attribute is
reported if it holds no settings or is not the first, unless it is the first that does after others that
do not.
-/

namespace RowDerive

theorem Checked.reports_ifClean {α : Type} (rs : List Report) (a : α) : (ifClean rs a).reports = rs := by
  cases rs <;> rfl

namespace Attribute

/-- Whether the attribute holds settings. -/
def holdsSetting (a : Attribute) : Bool := (Setting.ofAttribute a).toOption.isSome

/-- The report says of the attribute that it is one too many, or what is wrong with its contents. -/
inductive ReportedAs (a : Attribute) : Report → Prop
  | duplicate : ReportedAs a ⟨.duplicateColumn, a.span⟩
  | contents {r : Report} (h : Setting.ofAttribute a = .error r) : ReportedAs a r

/-- The attributes that hold no settings or are not the first. -/
def amiss : List Attribute → List Attribute
  | [] => []
  | a :: as => if a.holdsSetting then as else a :: as

/-- After an attribute without settings comes none that holds some, if that is the first. -/
def Ordered (as : List Attribute) : Prop :=
  ∀ a bs, as = a :: bs → a.holdsSetting = false → ∀ b ∈ bs, b.holdsSetting = false

theorem holdsSetting_of_ok {a : Attribute} {s : Setting} (h : Setting.ofAttribute a = .ok s) :
    a.holdsSetting = true := by
  rw [holdsSetting, h]
  rfl

theorem holdsSetting_of_error {a : Attribute} {r : Report} (h : Setting.ofAttribute a = .error r) :
    a.holdsSetting = false := by
  rw [holdsSetting, h]
  rfl

theorem length_eraseP_le_amiss (as : List Attribute) :
    (as.eraseP holdsSetting).length ≤ (amiss as).length := by
  cases as with
  | nil => exact Nat.le_refl _
  | cons a as =>
      cases ha : a.holdsSetting with
      | true =>
          have heq : (a :: as).eraseP holdsSetting = amiss (a :: as) := by
            rw [amiss, if_pos ha, List.eraseP_cons_of_pos ha]
          exact Nat.le_of_eq (congrArg List.length heq)
      | false =>
          rw [amiss, ha, if_neg Bool.false_ne_true]
          exact List.length_eraseP_le

/-- All but the first that holds settings are amiss, exactly if the attributes are in order. -/
theorem eraseP_eq_amiss {as : List Attribute} (h : Ordered as) : as.eraseP holdsSetting = amiss as := by
  cases as with
  | nil => rfl
  | cons a as =>
      cases ha : a.holdsSetting with
      | true => rw [amiss, if_pos ha, List.eraseP_cons_of_pos ha]
      | false =>
          have hnone : ∀ b ∈ as, ¬ b.holdsSetting = true := fun b hb => by simp [h a as rfl ha b hb]
          rw [amiss, ha, if_neg Bool.false_ne_true, List.eraseP_cons_of_neg (by simp [ha]),
            List.eraseP_of_forall_not hnone]

theorem ordered_of_length_le {as : List Attribute}
    (h : (amiss as).length ≤ (as.eraseP holdsSetting).length) : Ordered as := by
  rintro a bs rfl ha b hb
  rw [amiss, ha, if_neg Bool.false_ne_true, List.eraseP_cons_of_neg (by simp [ha]), List.length_cons,
    List.length_cons] at h
  refine Bool.eq_false_iff.2 fun hholds => ?_
  have hlength := List.length_eraseP_of_mem hb hholds
  have hpos := List.length_pos_of_mem hb
  omega

end Attribute

namespace Column

open Attribute (ReportedAs holdsSetting amiss Ordered)

/-- Each attribute but the first that holds settings is reported, and nothing else is. -/
theorem forall₂_readSettings (as : List Attribute) :
    List.Forall₂ ReportedAs (as.eraseP holdsSetting) (readSettings none as).1 := by
  induction as with
  | nil => exact .nil
  | cons a as ih =>
      cases ha : Setting.ofAttribute a with
      | ok s =>
          have hread : (readSettings none (a :: as)).1 = as.map fun b => ⟨.duplicateColumn, b.span⟩ := by
            simp only [readSettings, ha, readSettings_some]
          rw [hread, List.eraseP_cons_of_pos (Attribute.holdsSetting_of_ok ha), List.forall₂_map_right_iff,
            List.forall₂_same]
          exact fun b _ => .duplicate
      | error r =>
          have hread : (readSettings none (a :: as)).1 = r :: (readSettings none as).1 := by
            simp only [readSettings, ha]
          rw [hread, List.eraseP_cons_of_neg (by simp [Attribute.holdsSetting_of_error ha])]
          exact .cons (.contents ha) ih

theorem reports_ofField (f : Field) :
    (ofField f).reports = (readSettings none (settingAttrs f.attrs)).1 :=
  Checked.reports_ifClean _ _

theorem forall₂_ofField (f : Field) :
    List.Forall₂ ReportedAs ((settingAttrs f.attrs).eraseP holdsSetting) (ofField f).reports :=
  reports_ofField f ▸ forall₂_readSettings _

/-- What is amiss of several fields is reported one by one exactly if the attributes of each are in
order. Where those of one are not, one report is missing, and no other field has one to spare. -/
theorem forall₂_amiss_iff (fs : List Field) :
    List.Forall₂ ReportedAs (fs.flatMap fun f => amiss (settingAttrs f.attrs))
        (fs.flatMap fun f => (ofField f).reports) ↔
      ∀ f ∈ fs, Ordered (settingAttrs f.attrs) := by
  have hle (f : Field) : (ofField f).reports.length ≤ (amiss (settingAttrs f.attrs)).length := by
    rw [← (forall₂_ofField f).length_eq]
    exact Attribute.length_eraseP_le_amiss _
  have hsum : ∀ gs : List Field, (gs.flatMap fun f => (ofField f).reports).length ≤
      (gs.flatMap fun f => amiss (settingAttrs f.attrs)).length := by
    intro gs
    induction gs with
    | nil => exact Nat.le_refl _
    | cons g gs ih =>
        have hg := hle g
        rw [List.flatMap_cons, List.flatMap_cons, List.length_append, List.length_append]
        omega
  constructor
  · intro h f hf
    obtain ⟨before, after, rfl⟩ := List.append_of_mem hf
    have hlength := h.length_eq
    have hbefore := hsum before
    have hafter := hsum after
    simp only [List.flatMap_append, List.flatMap_cons, List.length_append] at hlength
    refine Attribute.ordered_of_length_le ?_
    rw [(forall₂_ofField f).length_eq]
    omega
  · intro h
    induction fs with
    | nil => exact .nil
    | cons f fs ih =>
        have hf := forall₂_ofField f
        rw [Attribute.eraseP_eq_amiss (h f List.mem_cons_self)] at hf
        exact List.rel_append hf (ih fun g hg => h g (List.mem_cons_of_mem f hg))

end Column

namespace Record

open Attribute (ReportedAs holdsSetting amiss Ordered)
open Column (settingAttrs)

/-- What is reported of a declaration with named fields are the reports of its methods and then those of
each field, from that field alone: one for each of its attributes but the first that holds settings, in
their order. These are the attributes that hold no settings or are not the first, with one report for
each and none for others, exactly if in no field the first that holds settings comes after one that does
not. -/
theorem amiss_reported_iff {i : Item} {fs : List Field} (hσ : i.shape = .named fs) :
    (ofItem i).reports = (declaredMethods i.attrs).flatMap Checked.reports ++
        fs.flatMap (fun f => (Column.ofField f).reports) ∧
      (∀ f, List.Forall₂ ReportedAs ((settingAttrs f.attrs).eraseP holdsSetting)
        (Column.ofField f).reports) ∧
      (∀ f, (settingAttrs f.attrs).length - 1 ≤ (Column.ofField f).reports.length) ∧
      (List.Forall₂ ReportedAs (fs.flatMap fun f => amiss (settingAttrs f.attrs))
          (fs.flatMap fun f => (Column.ofField f).reports) ↔
        ∀ f ∈ fs, Ordered (settingAttrs f.attrs)) := by
  have hfields : i.shape.HasFields fs := hσ ▸ .named fs
  have hcolumns : columnsOf i.shape = fs.map Column.ofField := by rw [hσ, columnsOf]
  refine ⟨?_, Column.forall₂_ofField, fun f => ?_, Column.forall₂_amiss_iff fs⟩
  · rw [ofItem_of_hasFields hfields, Checked.reports_ifClean, hcolumns, List.flatMap_map]
  · rw [← (Column.forall₂_ofField f).length_eq]
    exact List.le_length_eraseP

/-- A field whose first attribute holds settings, and one none of whose attributes does. -/
def orderedSource : String :=
  "struct S \x7b #[column(name = \"a\")] #[column(rename = \"x\")] b: u8, #[column] #[column(name = \"\")] c: u8 \x7d"

/-- Of such fields all that is amiss is reported. -/
theorem amiss_reported_ordered :
    ∃ i f g, Item.ofText? orderedSource = some i ∧ i.shape = .named [f, g] ∧
      (settingAttrs f.attrs).map holdsSetting = [true, false] ∧
      (settingAttrs g.attrs).map holdsSetting = [false, false] ∧
      (ofItem i).reports = [⟨.duplicateColumn, ⟨33, 56⟩⟩, ⟨.unreadable (.noArguments "column"), ⟨66, 72⟩⟩,
        ⟨.emptyName, ⟨90, 92⟩⟩] ∧
      List.Forall₂ ReportedAs (amiss (settingAttrs f.attrs) ++ amiss (settingAttrs g.attrs))
        ((Column.ofField f).reports ++ (Column.ofField g).reports) := by
  have hcheck : (Item.ofText? orderedSource).any fun i =>
      match i.shape with
      | .named fs =>
          (fs.map fun f => (settingAttrs f.attrs).map holdsSetting) = [[true, false], [false, false]] ∧
            (ofItem i).reports = [⟨.duplicateColumn, ⟨33, 56⟩⟩,
              ⟨.unreadable (.noArguments "column"), ⟨66, 72⟩⟩, ⟨.emptyName, ⟨90, 92⟩⟩]
      | _ => false := by decide +kernel
  obtain ⟨i, hi, hcheck⟩ := (Option.any_eq_true _ _).1 hcheck
  split at hcheck
  · rename_i fs hσ
    obtain ⟨hholds, hreports⟩ := of_decide_eq_true hcheck
    obtain ⟨f, gs, rfl, hf, hgs⟩ := List.map_eq_cons_iff.1 hholds
    obtain ⟨g, gs, rfl, hg, hnil⟩ := List.map_eq_cons_iff.1 hgs
    obtain rfl := List.map_eq_nil_iff.1 hnil
    obtain ⟨-, -, -, hiff⟩ := amiss_reported_iff hσ
    have hordered : ∀ h ∈ [f, g], Ordered (settingAttrs h.attrs) := by
      intro h hmem a bs hattrs ha
      rcases List.mem_pair.1 hmem with rfl | rfl
      · rw [hattrs, List.map_cons, ha] at hf
        cases hf
      · rw [hattrs, List.map_cons] at hg
        intro b hb
        have hholds := List.mem_map_of_mem (f := holdsSetting) hb
        rw [(List.cons.inj hg).2] at hholds
        exact List.mem_singleton.1 hholds
    have hall := hiff.2 hordered
    simp only [List.flatMap_cons, List.flatMap_nil, List.append_nil] at hall
    exact ⟨i, f, g, hi, hσ, hf, hg, hreports, hall⟩
  · cases hcheck

/-- A field whose first attribute holds no settings and whose second does. -/
def disorderedSource : String :=
  "struct S \x7b #[column(name = \"\")] #[column(name = \"d\")] c: u8 \x7d"

/-- Of such a field the second attribute is not reported, although it is not the first. -/
theorem amiss_unreported :
    ∃ i f a b, Item.ofText? disorderedSource = some i ∧ i.shape = .named [f] ∧
      settingAttrs f.attrs = [a, b] ∧ amiss (settingAttrs f.attrs) = [a, b] ∧
      (ofItem i).reports = [⟨.emptyName, ⟨27, 29⟩⟩] ∧
      ¬ List.Forall₂ ReportedAs (amiss (settingAttrs f.attrs)) (Column.ofField f).reports := by
  have hcheck : (Item.ofText? disorderedSource).any fun i =>
      match i.shape with
      | .named fs => (fs.map fun f => (settingAttrs f.attrs).map holdsSetting) = [[false, true]] ∧
          (ofItem i).reports = [⟨.emptyName, ⟨27, 29⟩⟩]
      | _ => false := by decide +kernel
  obtain ⟨i, hi, hcheck⟩ := (Option.any_eq_true _ _).1 hcheck
  split at hcheck
  · rename_i fs hσ
    obtain ⟨hfields, hreports⟩ := of_decide_eq_true hcheck
    obtain ⟨f, gs, rfl, hholds, hnil⟩ := List.map_eq_cons_iff.1 hfields
    obtain rfl := List.map_eq_nil_iff.1 hnil
    obtain ⟨a, as, hattrs, ha, has⟩ := List.map_eq_cons_iff.1 hholds
    obtain ⟨b, bs, rfl, hb, hbs⟩ := List.map_eq_cons_iff.1 has
    obtain rfl := List.map_eq_nil_iff.1 hbs
    have hamiss : amiss [a, b] = [a, b] := by rw [amiss, ha, if_neg Bool.false_ne_true]
    refine ⟨i, f, a, b, hi, hσ, hattrs, hattrs ▸ hamiss, hreports, fun h => ?_⟩
    have hone := (Column.forall₂_ofField f).length_eq
    rw [← h.length_eq, hattrs, hamiss, List.eraseP_cons_of_neg (by simp [ha]),
      List.eraseP_cons_of_pos hb] at hone
    cases hone
  · cases hcheck

end Record

end RowDerive
