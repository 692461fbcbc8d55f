import RowDerive.Body.Basic
import Mathlib.Data.List.Forall2

/-!
# Assembled bodies

One statement is assembled for each property, in order. Every adapter of a property has a number among
the adapters of the body, so that a property can be put exactly if it has an adapter or a storage.
-/

namespace RowDerive.Body

/-! ## Adapters -/

theorem mem_of_mem_distinct {seen : List String} {ts : List Ty} {u : Ty}
    (h : u ∈ distinct seen ts) : u ∈ ts := by
  induction ts generalizing seen with
  | nil => exact h
  | cons t ts ih =>
      rw [distinct] at h
      split at h
      · exact List.mem_cons_of_mem t (ih h)
      · rcases List.mem_cons.1 h with rfl | h
        · exact List.mem_cons_self
        · exact List.mem_cons_of_mem t (ih h)

/-- Every type that was not seen before has one with its text among the distinct ones. -/
theorem exists_mem_distinct {seen : List String} {ts : List Ty} {t : Ty} (ht : t ∈ ts)
    (hs : t.text ∉ seen) : ∃ u ∈ distinct seen ts, u.text = t.text := by
  induction ts generalizing seen with
  | nil => simp at ht
  | cons t' ts ih =>
      rw [distinct]
      by_cases hc : t'.text ∈ seen
      · rw [if_pos hc]
        rcases List.mem_cons.1 ht with rfl | ht
        · exact absurd hc hs
        · exact ih ht hs
      · rw [if_neg hc]
        by_cases heq : t.text = t'.text
        · exact ⟨t', List.mem_cons_self, heq.symm⟩
        · rcases List.mem_cons.1 ht with rfl | ht
          · exact absurd rfl heq
          · have hs' : t.text ∉ t'.text :: seen := by simp [heq, hs]
            obtain ⟨u, hu, hut⟩ := ih ht hs'
            exact ⟨u, List.mem_cons_of_mem t' hu, hut⟩

theorem mem_of_mem_adaptersOf {ps : List Property} {u : Ty} (h : u ∈ adaptersOf ps) :
    ∃ p ∈ ps, p.adapter = some u :=
  List.mem_filterMap.1 (mem_of_mem_distinct h)

/-- The adapter of a property has a number, under which stands a type of its text. -/
theorem exists_number? {ps : List Property} {p : Property} {t : Ty} (hp : p ∈ ps)
    (ht : p.adapter = some t) :
    ∃ i u, number? t (adaptersOf ps) = some i ∧ (adaptersOf ps)[i]? = some u ∧ u.text = t.text := by
  have hmem : t ∈ ps.filterMap Property.adapter := List.mem_filterMap.2 ⟨p, hp, ht⟩
  obtain ⟨u, hu, hut⟩ := exists_mem_distinct hmem List.not_mem_nil
  have hsome : (number? t (adaptersOf ps)).isSome := by
    rw [number?, List.findIdx?_isSome, List.any_eq_true]
    exact ⟨u, hu, by simpa using hut⟩
  obtain ⟨i, hi⟩ := Option.isSome_iff_exists.1 hsome
  obtain ⟨hlt, htext, -⟩ := List.findIdx?_eq_some_iff_getElem.1 hi
  exact ⟨i, (adaptersOf ps)[i], hi, List.getElem?_eq_getElem hlt, by simpa using htext⟩

/-! ## Statements -/

theorem statement?_of_adapter {p : Property} {t : Ty} (ht : p.adapter = some t)
    (adapters : List Ty) :
    statement? adapters p = (number? t adapters).map fun i => .adapted i p.key.val p.name := by
  simp only [statement?, ht]

theorem statement?_of_storage {p : Property} {s : Storage} (ht : p.adapter = none)
    (hs : p.storage = some s) (adapters : List Ty) :
    statement? adapters p =
      some (if p.isOptional then .optional p.key.val p.name s.byRef
        else .direct p.key.val p.name (!s.byRef)) := by
  simp only [statement?, ht, hs, Option.map_some]

/-- A property can be put if it has an adapter or a storage. -/
theorem exists_statement? {ps : List Property} {p : Property} (hp : p ∈ ps) (hs : p.isStorable) :
    ∃ s, statement? (adaptersOf ps) p = some s := by
  cases ha : p.adapter with
  | some t =>
      obtain ⟨i, -, hi, -, -⟩ := exists_number? hp ha
      exact ⟨_, by rw [statement?_of_adapter ha, hi, Option.map_some]⟩
  | none =>
      have hst : p.storage.isSome := by simpa [Property.isStorable, Property.isSupported, ha] using hs
      obtain ⟨s, hs⟩ := Option.isSome_iff_exists.1 hst
      exact ⟨_, statement?_of_storage ha hs _⟩

/-- What is assembled is one statement for each property, in order. -/
theorem assemble_eq_ok_iff {adapters : List Ty} {ps : List Property} {ss : List Statement} :
    assemble adapters ps = .ok ss ↔
      List.Forall₂ (fun p s => statement? adapters p = some s) ps ss := by
  induction ps generalizing ss with
  | nil =>
      rw [assemble, List.forall₂_nil_left_iff]
      exact ⟨fun h => (Except.ok.inj h).symm, fun h => h ▸ rfl⟩
  | cons p ps ih =>
      rw [assemble, List.forall₂_cons_left_iff]
      cases hs : statement? adapters p with
      | none => simp
      | some s =>
          cases ha : assemble adapters ps with
          | error e =>
              constructor
              · intro h
                cases h
              · rintro ⟨s', ss', -, hss, rfl⟩
                rw [← ih, ha] at hss
                cases hss
          | ok ss' =>
              constructor
              · intro h
                obtain rfl : s :: ss' = ss := Except.ok.inj h
                exact ⟨s, ss', rfl, ih.1 ha, rfl⟩
              · rintro ⟨s', ss'', hs', hss, rfl⟩
                rw [← ih, ha] at hss
                obtain rfl := Option.some.inj hs'
                obtain rfl := Except.ok.inj hss
                rfl

/-- Properties that can all be put have statements, by the adapters of all of them. -/
theorem exists_statements {ps qs : List Property} (hps : ∀ p ∈ ps, p.isStorable)
    (hqs : ∀ q ∈ qs, q ∈ ps) :
    ∃ ss, List.Forall₂ (fun q s => statement? (adaptersOf ps) q = some s) qs ss := by
  induction qs with
  | nil => exact ⟨[], List.Forall₂.nil⟩
  | cons q qs ih =>
      have hq : q ∈ ps := hqs q List.mem_cons_self
      obtain ⟨s, hs⟩ := exists_statement? hq (hps q hq)
      obtain ⟨ss, hss⟩ := ih fun q' hq' => hqs q' (List.mem_cons_of_mem q hq')
      exact ⟨s :: ss, List.Forall₂.cons hs hss⟩

/-- Properties that can all be put have a body. -/
theorem exists_ofProperties {ps : List Property} (h : ∀ p ∈ ps, p.isStorable) :
    ∃ ss, ofProperties ps = .ok ⟨adaptersOf ps, ss⟩ ∧
      List.Forall₂ (fun p s => statement? (adaptersOf ps) p = some s) ps ss := by
  obtain ⟨ss, hss⟩ := exists_statements h fun p hp => hp
  refine ⟨ss, ?_, hss⟩
  rw [ofProperties, assemble_eq_ok_iff.2 hss]
  rfl

end RowDerive.Body
