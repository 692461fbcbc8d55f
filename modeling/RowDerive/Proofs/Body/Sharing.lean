import RowDerive.Proofs.Body.Written
import RowDerive.Proofs.Code.Running
import RowDerive.Proofs.Record.Declaration
import RowDerive.Sample.Records

/-!
# Shared adapters

Properties share an adapter if their adapters are written alike. This is said of the statements as they
are written: which local a statement binds, to an instance of which type, and to which local a statement
hands its field. Each text of an adapter has one binding, in the order of first use, and a run makes one
instance for each.
-/

namespace RowDerive

namespace Code

/-- The local that a statement binds. -/
def bound? (ts : List Token) : Option String :=
  match Line.read? ts with
  | some (.one (.bind _ x _)) => some x
  | _ => none

/-- The local to which, as an adapter, a statement hands its field. -/
def handed? (ts : List Token) : Option String :=
  match Line.read? ts with
  | some (.one (.eval (.call ["content_values", "ColumnTypeAdapter", "to_content_values"]
      (.borrow _ x :: _)))) => some x
  | _ => none

theorem bound?_adapterTokens (i : Nat) (t : Ty) :
    bound? (Body.adapterTokens i t) = some (adapterName i) := by
  rw [bound?, Body.read?_adapterTokens]
  rfl

theorem handed?_tokens (s : Statement) : handed? s.tokens = s.adapter?.map adapterName := by
  rw [handed?, s.read?_tokens]
  cases s <;> rfl

end Code

namespace Body

/-- The statements for properties share adapters as the properties share texts of adapters. -/
structure SharesAdapters (ps : List Property) (bindings insertions : List (List Token)) : Prop where
  /-- There is one binding for each text. -/
  length : bindings.length = (ps.filterMap Property.adapterText?).toFinset.card
  /-- They bind `adapter_0`, `adapter_1` and so on, in the order of first use, each to an instance of a
  type that is the adapter of a property and has that text. -/
  bound : ∀ i us, bindings[i]? = some us → ∃ p ∈ ps, ∃ t, p.adapter = some t ∧
    (adapterTexts ps)[i]? = some t.text ∧
      Code.Line.read? us = some (.one (.bind false (adapterName i)
        (.provided t.tokens ["core", "default", "Default"] "default")))
  /-- A field is handed to the adapter at the place of its text, if its property has one. -/
  handed : List.Forall₂ (fun p us => Code.handed? us = (adapterNumber? ps p).map adapterName) ps insertions
  /-- Two properties with adapters have the same one if these are written alike. -/
  shared : ∀ e ∈ ps.zip insertions, ∀ f ∈ ps.zip insertions, ∀ t u,
    e.1.adapter = some t → f.1.adapter = some u →
      (Code.handed? e.2 = Code.handed? f.2 ↔ t.text = u.text)
  /-- Every adapter that a field is handed to is bound. -/
  declared : ∀ us ∈ insertions, ∀ x, Code.handed? us = some x → ∃ vs ∈ bindings, Code.bound? vs = some x
  /-- To every adapter that is bound a field is handed. -/
  used : ∀ vs ∈ bindings, ∃ us ∈ insertions, ∃ x, Code.bound? vs = some x ∧ Code.handed? us = some x

variable {ps : List Property}

theorem adapterNumber?_of_adapter {p : Property} {t : Ty} (ht : p.adapter = some t) :
    adapterNumber? ps p = some ((adapterTexts ps).idxOf t.text) := by
  simp [adapterNumber?, Property.adapterText?, ht]

/-- The number of an adapter tells its text. -/
theorem adapterNumber?_eq_iff {p q : Property} (hp : p ∈ ps) {t u : Ty} (ht : p.adapter = some t)
    (hu : q.adapter = some u) : adapterNumber? ps p = adapterNumber? ps q ↔ t.text = u.text := by
  rw [adapterNumber?_of_adapter ht, adapterNumber?_of_adapter hu, Option.some_inj]
  refine List.idxOf_inj (mem_adapterTexts.2 ⟨p, hp, ?_⟩)
  rw [Property.adapterText?, ht, Option.map_some]

theorem lt_of_adapterNumber? {p : Property} (hp : p ∈ ps) {i : Nat}
    (h : adapterNumber? ps p = some i) : i < (adapterTexts ps).length := by
  obtain ⟨x, hx, rfl⟩ := Option.map_eq_some_iff.1 h
  exact List.idxOf_lt_length_of_mem (mem_adapterTexts.2 ⟨p, hp, hx⟩)

/-- Every number is that of the adapter of some property. -/
theorem exists_adapterNumber? {i : Nat} (h : i < (adapterTexts ps).length) :
    ∃ p ∈ ps, adapterNumber? ps p = some i := by
  obtain ⟨p, hp, hx⟩ := mem_adapterTexts.1 (List.getElem_mem h)
  refine ⟨p, hp, ?_⟩
  rw [adapterNumber?, hx, Option.map_some, (nodup_adapterTexts ps).idxOf_getElem i h]

theorem sharesAdapters_of_ofProperties {b : Body} (h : ofProperties ps = .ok b) :
    SharesAdapters ps (b.adapters.mapIdx adapterTokens) (b.statements.map Statement.tokens) := by
  obtain ⟨hadapters, hstatements⟩ := ofProperties_eq_ok_iff.1 h
  have hlength : b.adapters.length = (adapterTexts ps).length := by
    rw [hadapters, length_adaptersOf]
  have hhanded : List.Forall₂ (fun p us => Code.handed? us = (adapterNumber? ps p).map adapterName) ps
      (b.statements.map Statement.tokens) := by
    rw [List.forall₂_map_right_iff]
    refine (forall₂_mem hstatements).imp fun p s hs => ?_
    rw [Code.handed?_tokens, adapter?_of_statement? hs.1 hs.2]
  refine ⟨?_, ?_, hhanded, ?_, ?_, ?_⟩
  · rw [List.length_mapIdx, hlength, length_adapterTexts]
  · intro i us hus
    obtain ⟨t, ht, rfl⟩ := Option.map_eq_some_iff.1 ((List.getElem?_mapIdx ..).symm.trans hus)
    obtain ⟨p, hp, hpt⟩ := mem_of_mem_adaptersOf (hadapters ▸ List.mem_of_getElem? ht)
    refine ⟨p, hp, t, hpt, ?_, read?_adapterTokens i t⟩
    rw [← map_text_adaptersOf, ← hadapters, List.getElem?_map, ht, Option.map_some]
  · intro e he f hf t u ht hu
    rw [List.forall₂_zip hhanded he, List.forall₂_zip hhanded hf,
      (Option.map_injective adapterName_injective).eq_iff]
    exact adapterNumber?_eq_iff (List.of_mem_zip he).1 ht hu
  · intro us hus x hx
    obtain ⟨k, hk, rfl⟩ := List.mem_iff_getElem.1 hus
    have hk' : k < ps.length := hhanded.length_eq ▸ hk
    obtain ⟨i, hi, rfl⟩ := Option.map_eq_some_iff.1 ((hhanded.get hk' hk).symm.trans hx)
    have hlt := lt_of_adapterNumber? (List.getElem_mem hk') hi
    rw [← hlength] at hlt
    exact ⟨adapterTokens i b.adapters[i], List.mem_mapIdx.2 ⟨i, hlt, rfl⟩,
      Code.bound?_adapterTokens _ _⟩
  · intro vs hvs
    obtain ⟨i, hi, rfl⟩ := List.mem_mapIdx.1 hvs
    rw [hlength] at hi
    obtain ⟨p, hp, hnumber⟩ := exists_adapterNumber? hi
    obtain ⟨k, hk, rfl⟩ := List.mem_iff_getElem.1 hp
    have hk' : k < (b.statements.map Statement.tokens).length := hhanded.length_eq ▸ hk
    refine ⟨_, List.getElem_mem hk', adapterName i, Code.bound?_adapterTokens _ _, ?_⟩
    exact (hhanded.get hk hk').trans (congrArg (Option.map adapterName) hnumber)

/-- The statements for properties, which are those in every method that implements a getter by them, have
one binding for each text of an adapter and share what is bound. A run of them makes exactly as many
instances as there are different texts, in the order of first use. -/
theorem adapters_shared (ps : List Property) :
    (adapterTexts ps).length = (ps.filterMap Property.adapterText?).toFinset.card ∧
      Function.Injective adapterName ∧
      ∀ b, ofProperties ps = .ok b → ∃ row bindings insertions last,
        b.lines = row :: (bindings ++ insertions ++ [last]) ∧
        Lists ps row bindings insertions last ∧
        SharesAdapters ps bindings insertions ∧
        (∀ (m : Method) ts, m.implement ps = .ok ts →
          ts = m.tokens ++ [Token.enclose .brace (row :: (bindings ++ insertions ++ [last])).flatten]) ∧
        ∀ (σ α : Type) (Γ : Surroundings σ α) o,
          Code.run? Γ (row :: (bindings ++ insertions ++ [last])) = some o →
            o.made = adapterTexts ps ∧
              o.made.length = (ps.filterMap Property.adapterText?).toFinset.card := by
  refine ⟨length_adapterTexts ps, adapterName_injective, fun b hb => ?_⟩
  refine ⟨_, _, _, _, b.lines_eq, lists_of_ofProperties hb, sharesAdapters_of_ofProperties hb, ?_, ?_⟩
  · intro m ts hts
    rw [← b.lines_eq]
    rcases Method.implement_of_ofProperties hb m with h | ⟨e, h⟩
    · exact Except.ok.inj (hts.symm.trans h)
    · rw [h] at hts
      cases hts
  · intro σ α Γ o hrun
    rw [← b.lines_eq] at hrun
    have hmade : o.made = adapterTexts ps := by
      rw [Code.made_of_run? hrun, (ofProperties_eq_ok_iff.1 hb).1, map_text_adaptersOf]
    exact ⟨hmade, by rw [hmade, length_adapterTexts]⟩

end Body

/-- Fields that hold no bytes. -/
def Sample.noBytes (_ : Name) : Option FieldValue := some (.optional (.owned .bytes) none)

/-- The first field and the third have one adapter, the second another. A run makes two instances. -/
theorem Sample.adapters_shared_attachments :
    ∃ r b row bindings insertions last o, Record.ofText? attachments = some r ∧
      Body.ofProperties (r.columns.map .ofColumn) = .ok b ∧
      Body.SharesAdapters (r.columns.map .ofColumn) bindings insertions ∧
      insertions.map Code.handed? = [some "adapter_0", some "adapter_1", some "adapter_0"] ∧
      Code.run? ⟨noBytes, adapter?⟩ (row :: (bindings ++ insertions ++ [last])) = some o ∧
      o.made = ["CountingAdapter", "HexAdapter"] := by
  have hcheck : (Record.ofText? attachments).any fun r =>
      (Body.ofProperties (r.columns.map .ofColumn)).toOption.any fun b =>
        (r.columns.map fun c => (Body.adapterNumber? (r.columns.map .ofColumn) (.ofColumn c)).map
          adapterName) = [some "adapter_0", some "adapter_1", some "adapter_0"] ∧
          Body.adapterTexts (r.columns.map .ofColumn) = ["CountingAdapter", "HexAdapter"] ∧
          (Code.run? ⟨noBytes, adapter?⟩ b.lines).isSome := by decide +kernel
  obtain ⟨r, hr, hcheck⟩ := (Option.any_eq_true _ _).1 hcheck
  obtain ⟨b, hb, hcheck⟩ := (Option.any_eq_true _ _).1 hcheck
  obtain ⟨hhanded, htexts, hrun⟩ := of_decide_eq_true hcheck
  obtain ⟨o, hrun⟩ := Option.isSome_iff_exists.1 hrun
  have hb := eq_ok_of_toOption hb
  obtain ⟨-, -, hbody⟩ := Body.adapters_shared (r.columns.map .ofColumn)
  obtain ⟨row, bindings, insertions, last, hlines, -, hshares, -, hmade⟩ := hbody b hb
  rw [hlines] at hrun
  refine ⟨r, b, row, bindings, insertions, last, o, hr, hb, hshares, ?_, hrun, ?_⟩
  · rw [← hhanded]
    refine Eq.symm ?_
    rw [← List.forall₂_eq_eq_eq, List.forall₂_map_left_iff, List.forall₂_map_right_iff]
    exact (List.forall₂_map_left_iff.1 hshares.handed).imp fun _ _ h => h.symm
  · rw [(hmade _ _ _ o hrun).1, htexts]

end RowDerive
