import RowDerive.Proofs.Host.Rows
import RowDerive.Proofs.Record.Stage

/-!
# What is asked of the extension

The extension that makes rows is asked three questions about the same methods: whether it applies, which
method it takes, and what it makes. It looks for the method anew each time, so that the answers have to
be seen to agree. In the same way a property is looked at twice, when it is read and when it is put; what
was found to be storable has to have a statement that puts it: `rows_agree`.
-/

namespace RowDerive

namespace Method

/-- What is implemented is the method with the body that puts the properties. -/
theorem implement_eq_ok {m : Method} {ps : List Property} {ts : List Token}
    (h : m.implement ps = .ok ts) :
    ∃ b, Body.ofProperties ps = .ok b ∧ ts = m.tokens ++ [Token.enclose .brace b.tokens] := by
  unfold implement at h
  split at h
  · cases h
  · rename_i b hb
    split at h
    · cases h
    · obtain rfl := Except.ok.inj h
      exact ⟨b, hb, rfl⟩

theorem implement_of_read {m : Method} {ps : List Property} {b : Body}
    (hb : Body.ofProperties ps = .ok b) {us : List Token} (h : implementation? (m.withBody b) = .ok us) :
    m.implement ps = .ok (m.withBody b) := by
  simp only [implement, hb, h]

theorem implement_of_unreadable {m : Method} {ps : List Property} {b : Body}
    (hb : Body.ofProperties ps = .ok b) {e : SyntaxError}
    (h : implementation? (m.withBody b) = .error e) :
    m.implement ps = .error (.unreadable e.fault) := by
  simp only [implement, hb, h]

/-- Properties that can all be put have a body. Then it is only the whole method that may be
unreadable. -/
theorem implement_eq_error {m : Method} {ps : List Property} (hps : ∀ p ∈ ps, p.isStorable)
    {fault : InternalFault} (h : m.implement ps = .error fault) : ∃ e, fault = .unreadable e := by
  obtain ⟨ss, hbody, -⟩ := Body.exists_ofProperties hps
  cases hread : implementation? (m.withBody ⟨Body.adaptersOf ps, ss⟩) with
  | ok us =>
      rw [implement_of_read hbody hread] at h
      cases h
  | error e =>
      rw [implement_of_unreadable hbody hread] at h
      exact ⟨_, (Except.error.inj h).symm⟩

end Method

namespace Property

/-- The properties that are read of a record can all be put. -/
theorem isStorable_of_ofRecord {r : Record} {ps : List Property} (h : ofRecord r = .ok ps) :
    ∀ p ∈ ps, p.isStorable :=
  (ofRecord_eq_ok_iff.1 h).1

/-- Each of the properties that are read of a record has a statement that puts it, by the adapters of all
of them. -/
theorem exists_statement?_of_ofRecord {r : Record} {ps : List Property} (h : ofRecord r = .ok ps)
    {p : Property} (hp : p ∈ ps) : ∃ s, Body.statement? (Body.adaptersOf ps) p = some s :=
  Body.exists_statement? hp (isStorable_of_ofRecord h p hp)

end Property

namespace Extension

/-! ## The three questions -/

theorem takes_rows (o : Offer) :
    rows.takes o = ((Method.soleGetter? rowName o.methods).map Located.val).toList := rfl

/-- The extension takes one method, the getter, or it takes none. -/
theorem takes_rows_eq_singleton_iff {o : Offer} {x : Method} :
    rows.takes o = [x] ↔ ∃ m, Method.soleGetter? rowName o.methods = some m ∧ m.val = x := by
  rw [takes_rows]
  cases Method.soleGetter? rowName o.methods with
  | none => simp
  | some m => simp

theorem takes_rows_eq_nil_iff {o : Offer} :
    rows.takes o = [] ↔ Method.soleGetter? rowName o.methods = none := by
  rw [takes_rows]
  cases Method.soleGetter? rowName o.methods with
  | none => simp
  | some m => simp

theorem applies_rows_iff {o : Offer} : rows.applies o ↔ (rows.takes o).length = 1 := by
  have happlies : rows.applies o = (Method.soleGetter? rowName o.methods).isSome := rfl
  rw [happlies, takes_rows]
  cases Method.soleGetter? rowName o.methods with
  | none => simp
  | some m => simp

/-- What the extension fails with: no getter is left, something is wrong with the properties, or the
method cannot be read. -/
theorem makeRow_eq_error {o : Offer} {f : Failure} (h : makeRow o = .error f) :
    (Method.soleGetter? rowName o.methods = none ∧ f = .internal .noMethodLeft) ∨
      (∃ m, Method.soleGetter? rowName o.methods = some m ∧
        ((∃ rs, Property.ofRecord o.record = .error rs ∧ f.toReports = rs) ∨
          ∃ e, f = .internal (.unreadable e))) := by
  obtain ⟨r, ms⟩ := o
  cases hm : Method.soleGetter? rowName ms with
  | none =>
      simp only [makeRow, hm] at h
      exact Or.inl ⟨rfl, (Except.error.inj h).symm⟩
  | some m =>
      refine Or.inr ⟨m, rfl, ?_⟩
      cases hps : Property.ofRecord r with
      | error rs =>
          rw [makeRow_of_error hm hps] at h
          exact Or.inl ⟨rs, rfl, by rw [← Except.error.inj h]; rfl⟩
      | ok ps =>
          rw [makeRow_of_ok hm hps] at h
          cases himpl : m.val.implement ps with
          | ok ts =>
              rw [himpl] at h
              cases h
          | error fault =>
              obtain ⟨e, rfl⟩ :=
                Method.implement_eq_error (Property.isStorable_of_ofRecord hps) himpl
              rw [himpl] at h
              exact Or.inr ⟨e, (Except.error.inj h).symm⟩

theorem makeRow_eq_noMethodLeft_iff {o : Offer} :
    makeRow o = .error (.internal .noMethodLeft) ↔
      Method.soleGetter? rowName o.methods = none := by
  constructor
  · intro h
    rcases makeRow_eq_error h with ⟨hnone, -⟩ | ⟨m, -, ⟨rs, hrs, hf⟩ | ⟨e, he⟩⟩
    · exact hnone
    · -- an internal failure is no report about the properties
      have hmem : (⟨.internal .noMethodLeft, .nowhere⟩ : Report) ∈ rs := by
        rw [← hf]
        exact List.mem_singleton_self _
      exact absurd hmem ((Property.foundAt_ofRecord hrs).notMem (by decide))
    · cases he
  · intro h
    simp only [makeRow, h]

/-- With a getter the method that is made is this getter, with a body for the properties of the
record. -/
theorem makeRow_eq_ok {o : Offer} {m : Located Method}
    (hm : Method.soleGetter? rowName o.methods = some m) {ts : List Token} (h : makeRow o = .ok ts) :
    ∃ ps b, Property.ofRecord o.record = .ok ps ∧ Body.ofProperties ps = .ok b ∧
      ts = m.val.tokens ++ [Token.enclose .brace b.tokens] := by
  obtain ⟨r, ms⟩ := o
  cases hps : Property.ofRecord r with
  | error rs =>
      rw [makeRow_of_error hm hps] at h
      cases h
  | ok ps =>
      rw [makeRow_of_ok hm hps] at h
      cases himpl : m.val.implement ps with
      | error fault =>
          rw [himpl] at h
          cases h
      | ok us =>
          rw [himpl] at h
          obtain rfl := Except.ok.inj h
          obtain ⟨b, hb, rfl⟩ := Method.implement_eq_ok himpl
          exact ⟨ps, b, rfl, hb, rfl⟩

end Extension

/-! ## A whole derivation -/

/-- The report says that a property has no way into the row. -/
def Report.IsUnstorable (q : Report) : Prop := ∃ x, q.val = .internal (.unstorable x)

theorem FoundAt.not_isUnstorable {σ : Stage} (hσ : σ ≠ .extension) {rs : List Report}
    (h : FoundAt σ rs) {q : Report} (hq : q ∈ rs) : ¬ q.IsUnstorable := by
  rintro ⟨x, hx⟩
  exact hσ ((h q hq).symm.trans (congrArg Problem.stage hx))

theorem Extension.not_isUnstorable_of_makeRow {o : Offer} {f : Failure}
    (h : Extension.makeRow o = .error f) {q : Report} (hq : q ∈ f.toReports) : ¬ q.IsUnstorable := by
  rcases Extension.makeRow_eq_error h with ⟨-, rfl⟩ | ⟨m, -, ⟨rs, hrs, rfl⟩ | ⟨e, rfl⟩⟩
  · obtain rfl := List.mem_singleton.1 hq
    rintro ⟨x, hx⟩
    cases hx
  · exact (Property.foundAt_ofRecord hrs).not_isUnstorable (by decide) hq
  · obtain rfl := List.mem_singleton.1 hq
    rintro ⟨x, hx⟩
    cases hx

theorem Host.foundAt_unimplemented (ms : List (Located Method)) :
    FoundAt .methods (ms.map Host.unimplemented) := by
  intro q hq
  obtain ⟨m, -, rfl⟩ := List.mem_map.1 hq
  rfl

theorem Host.not_isUnstorable_of_run {r : Record} {rs : List Report}
    (h : Host.run r extensions = .error rs) {q : Report} (hq : q ∈ rs) : ¬ q.IsUnstorable := by
  cases hm : Method.soleGetter? Extension.rowName r.methods with
  | none =>
      rw [Host.run_extensions_of_none hm, Checked.ifClean_eq_error_iff] at h
      obtain ⟨-, rfl⟩ := h
      exact (Host.foundAt_unimplemented _).not_isUnstorable (by decide) hq
  | some m =>
      rw [Host.run_extensions_of_some hm] at h
      cases hmake : Extension.makeRow ⟨r, r.methods⟩ with
      | ok ts =>
          simp only [hmake, Checked.ifClean_eq_error_iff] at h
          obtain ⟨-, rfl⟩ := h
          exact (Host.foundAt_unimplemented _).not_isUnstorable (by decide) hq
      | error f =>
          simp only [hmake, Checked.ifClean_eq_error_iff] at h
          obtain ⟨-, rfl⟩ := h
          rcases List.mem_append.1 hq with hq | hq
          · exact Extension.not_isUnstorable_of_makeRow hmake hq
          · exact (Host.foundAt_unimplemented _).not_isUnstorable (by decide) hq

theorem not_isUnstorable_of_derive {i : Item} {rs : List Report} (h : derive i = .error rs)
    {q : Report} (hq : q ∈ rs) : ¬ q.IsUnstorable := by
  unfold derive at h
  split at h
  · rename_i rs' hrs
    obtain rfl := Except.error.inj h
    exact (Record.foundAt_ofItem hrs).not_isUnstorable (by decide) hq
  · exact Host.not_isUnstorable_of_run h hq

/-- The extension applies exactly if it takes one method. This is one of the methods that it is offered,
it is the one that is implemented, and it is not missed when the extension comes to make it; it is missed
exactly if nothing was taken. With properties the method is made exactly if what is assembled of it can
be read. The properties that are read of a record can all be put, by the adapters of
all of them, and so no derivation ends with a property for which there is no way. -/
theorem rows_agree :
    (∀ o : Offer,
      (Extension.rows.applies o ↔ (Extension.rows.takes o).length = 1) ∧
        (∀ x, Extension.rows.takes o = [x] →
          (∃ m ∈ o.methods, m.val = x) ∧
            (∀ ps, Property.ofRecord o.record = .ok ps →
              Extension.rows.make o = (x.implement ps).mapError .internal ∧
                ∃ b, Body.ofProperties ps = .ok b ∧
                  (∀ us, Method.implementation? (x.withBody b) = .ok us →
                    Extension.rows.make o = .ok (x.withBody b)) ∧
                  ∀ e, Method.implementation? (x.withBody b) = .error e →
                    Extension.rows.make o = .error (.internal (.unreadable e.fault))) ∧
            ∀ ts, Extension.rows.make o = .ok ts →
              ∃ ps b, Property.ofRecord o.record = .ok ps ∧ Body.ofProperties ps = .ok b ∧
                ts = x.tokens ++ [Token.enclose .brace b.tokens]) ∧
        (Extension.rows.takes o = [] ↔
          Extension.rows.make o = .error (.internal .noMethodLeft))) ∧
      (∀ r ps, Property.ofRecord r = .ok ps →
        ∀ p ∈ ps, ∃ s, Body.statement? (Body.adaptersOf ps) p = some s) ∧
      ∀ i rs, derive i = .error rs → ∀ q ∈ rs, ∀ x, q.val ≠ .internal (.unstorable x) := by
  refine ⟨fun o => ⟨Extension.applies_rows_iff, ?_, ?_⟩, ?_, ?_⟩
  · intro x hx
    obtain ⟨m, hm, rfl⟩ := Extension.takes_rows_eq_singleton_iff.1 hx
    refine ⟨⟨m, Method.mem_of_soleGetter? hm, rfl⟩, ?_, ?_⟩
    · intro ps hps
      have hmake := Extension.makeRow_of_ok hm hps
      obtain ⟨ss, hbody, -⟩ := Body.exists_ofProperties (Property.isStorable_of_ofRecord hps)
      refine ⟨hmake, _, hbody, fun us hus => ?_, fun e he => ?_⟩
      · rw [Method.implement_of_read hbody hus] at hmake
        exact hmake
      · rw [Method.implement_of_unreadable hbody he] at hmake
        exact hmake
    · exact fun ts hts => Extension.makeRow_eq_ok hm hts
  · rw [Extension.takes_rows_eq_nil_iff]
    exact Extension.makeRow_eq_noMethodLeft_iff.symm
  · exact fun r ps hps p hp => Property.exists_statement?_of_ofRecord hps hp
  · exact fun i rs hrs q hq x hx => not_isUnstorable_of_derive hrs hq ⟨x, hx⟩

end RowDerive
