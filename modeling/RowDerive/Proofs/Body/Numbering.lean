import RowDerive.Body.Print
import RowDerive.Proofs.Body.Assembly
import Mathlib.Data.Finset.Card
import Mathlib.Data.List.Nodup

/-!
# Numbers of adapters

The adapters of a body are told by their texts alone: each text once, in the order of first use. A
statement hands its field to the adapter at the place of the text of its property.
-/

namespace RowDerive

/-! ## Texts of adapters -/

theorem nodup_eraseDups {α : Type} [BEq α] [LawfulBEq α] (xs : List α) : xs.eraseDups.Nodup := by
  induction hn : xs.length using Nat.strongRecOn generalizing xs with
  | ind n ih =>
      cases xs with
      | nil => simp
      | cons x xs =>
          rw [List.eraseDups_cons, List.nodup_cons]
          have hlt : (xs.filter fun y => !y == x).length < n := by
            rw [← hn, List.length_cons]
            exact Nat.lt_succ_of_le (List.length_filter_le _ _)
          refine ⟨?_, ih _ hlt _ rfl⟩
          simp [List.mem_eraseDups]

namespace Property

/-- The text of the adapter of a property. -/
def adapterText? (p : Property) : Option String := p.adapter.map Ty.text

end Property

namespace Body

/-- The texts of the adapters of properties, each once, in the order of first use. -/
def adapterTexts (ps : List Property) : List String := (ps.filterMap Property.adapterText?).eraseDups

theorem nodup_adapterTexts (ps : List Property) : (adapterTexts ps).Nodup := nodup_eraseDups _

theorem mem_adapterTexts {ps : List Property} {x : String} :
    x ∈ adapterTexts ps ↔ ∃ p ∈ ps, p.adapterText? = some x := by
  rw [adapterTexts, List.mem_eraseDups, List.mem_filterMap]

/-- There are as many as there are texts. -/
theorem length_adapterTexts (ps : List Property) :
    (adapterTexts ps).length = (ps.filterMap Property.adapterText?).toFinset.card := by
  rw [← List.toFinset_card_of_nodup (nodup_adapterTexts ps)]
  congr 1
  ext x
  simp [adapterTexts, List.mem_eraseDups]

theorem map_text_distinct (seen : List String) (ts : List Ty) :
    (distinct seen ts).map Ty.text = ((ts.map Ty.text).filter (· ∉ seen)).eraseDups := by
  induction ts generalizing seen with
  | nil => simp [distinct]
  | cons t ts ih =>
      rw [distinct, List.map_cons]
      by_cases hseen : t.text ∈ seen
      · rw [if_pos hseen, ih, List.filter_cons_of_neg (by simpa using hseen)]
      · rw [if_neg hseen, List.map_cons, ih, List.filter_cons_of_pos (by simpa using hseen),
          List.eraseDups_cons, List.filter_filter]
        congr 3
        funext x
        simp [Bool.beq_eq_decide_eq]

/-- The adapters of properties are told by their texts. -/
theorem map_text_adaptersOf (ps : List Property) : (adaptersOf ps).map Ty.text = adapterTexts ps := by
  have hall : ((ps.filterMap Property.adapter).map Ty.text).filter (· ∉ ([] : List String)) =
      (ps.filterMap Property.adapter).map Ty.text := by simp
  rw [adaptersOf, map_text_distinct, hall, adapterTexts, List.map_filterMap]
  rfl

theorem length_adaptersOf (ps : List Property) : (adaptersOf ps).length = (adapterTexts ps).length := by
  rw [← map_text_adaptersOf, List.length_map]

/-! ## Numbers of adapters -/

/-- The number that the adapter of a property has: the place of its text. -/
def adapterNumber? (ps : List Property) (p : Property) : Option Nat :=
  p.adapterText?.map (adapterTexts ps).idxOf

theorem number?_adaptersOf {ps : List Property} {p : Property} {t : Ty} (hp : p ∈ ps)
    (ht : p.adapter = some t) :
    number? t (adaptersOf ps) = some ((adapterTexts ps).idxOf t.text) := by
  obtain ⟨i, u, hi, hu, hut⟩ := exists_number? hp ht
  obtain ⟨hlt, rfl⟩ := List.getElem?_eq_some_iff.1 hu
  have hlt' : i < (adapterTexts ps).length := length_adaptersOf ps ▸ hlt
  have htext : (adapterTexts ps)[i] = t.text := by
    rw [← hut]
    simp [← map_text_adaptersOf]
  rw [hi, ← htext, (nodup_adapterTexts ps).idxOf_getElem i hlt']

end Body

namespace Statement

/-- The number of the adapter that a statement hands its field to. -/
def adapter? : Statement → Option Nat
  | adapted i _ _ => some i
  | optional .. | direct .. => none

end Statement

namespace Body

/-- A statement hands the field to the adapter of its property, if there is one. -/
theorem adapter?_of_statement? {ps : List Property} {p : Property} {s : Statement} (hp : p ∈ ps)
    (hs : statement? (adaptersOf ps) p = some s) : s.adapter? = adapterNumber? ps p := by
  cases ht : p.adapter with
  | some t =>
      rw [statement?_of_adapter ht, number?_adaptersOf hp ht] at hs
      obtain rfl := Option.some.inj hs
      simp [Statement.adapter?, adapterNumber?, Property.adapterText?, ht]
  | none =>
      have hnone : adapterNumber? ps p = none := by
        simp [adapterNumber?, Property.adapterText?, ht]
      rw [hnone]
      obtain ⟨c, -, hc⟩ := Option.map_eq_some_iff.1 (by simpa only [statement?, ht] using hs)
      split at hc <;> subst hc <;> rfl

/-- What holds of the members of two lists in turn holds of members. -/
theorem forall₂_mem {α β : Type} {R : α → β → Prop} {xs : List α} {ys : List β}
    (h : List.Forall₂ R xs ys) : List.Forall₂ (fun x y => x ∈ xs ∧ R x y) xs ys :=
  (List.forall₂_and_left _ _).2 ⟨fun _ hx => hx, h⟩

/-- What the body of properties is: their adapters, and one statement for each of them. -/
theorem ofProperties_eq_ok_iff {ps : List Property} {b : Body} :
    ofProperties ps = .ok b ↔ b.adapters = adaptersOf ps ∧
      List.Forall₂ (fun p s => statement? (adaptersOf ps) p = some s) ps b.statements := by
  rw [← assemble_eq_ok_iff, ofProperties]
  obtain ⟨ts, ss⟩ := b
  cases assemble (adaptersOf ps) ps with
  | error e =>
      constructor
      · intro h
        cases h
      · rintro ⟨-, h⟩
        cases h
  | ok ss' =>
      constructor
      · intro h
        obtain ⟨rfl, rfl⟩ := Body.mk.inj (Except.ok.inj h)
        exact ⟨rfl, rfl⟩
      · rintro ⟨rfl, h⟩
        obtain rfl := Except.ok.inj h
        rfl

end Body

/-! ## Names of adapters -/

/-- The name of an adapter begins like no other name. -/
theorem adapterName_ne {x : String} (h : x.toList.take 8 ≠ "adapter_".toList) (i : Nat) :
    adapterName i ≠ x := by
  rintro rfl
  refine h ?_
  rw [adapterName, String.toList_append]
  rfl

/-- Adapters of different numbers have different names. -/
theorem adapterName_injective : Function.Injective adapterName := by
  intro i j h
  have hdigits : i.repr.toList = j.repr.toList := by
    simpa [adapterName] using congrArg String.toList h
  have hvalue := congrArg (Nat.ofDigitChars 10 · 0) hdigits
  simpa using hvalue

end RowDerive
