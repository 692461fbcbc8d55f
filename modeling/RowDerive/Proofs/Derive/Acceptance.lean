import RowDerive.Proofs.Host.Rows
import RowDerive.Proofs.Record.Declaration

/-!
# What is accepted

A declaration passes four stages: its parts are read, an extension has to apply, the columns have to go
into one row, and the method that is assembled has to be readable. Of every declaration it is said here
whether it passes and what is made of it. What a declaration can be blamed for is put without the stages,
as what it declares: `Item.Asks` and `Item.AsksNothing`. The last stage cannot be put so. A type may end
with an open `+`, and where one goes on behind such a type there is nothing that can be read.
-/

namespace RowDerive

/-! ## Columns that can be put -/

namespace Ty

/-- An option is not stored as what it is. -/
theorem storage?_of_optionInner? {t u : Ty} (h : t.optionInner? = some u) : t.storage? = none := by
  unfold optionInner? at h
  unfold storage?
  split at h
  · rename_i last hcore
    rw [hcore]
    split at h
    · rename_i hname
      cases last with
      | bare x => simp [soleArg?] at h
      | generic x turbofish args trailing =>
          obtain rfl : x = "Option" := hname
          simp [segmentStorage?, Segment.name, Segment.isBare]
    · cases h
  · cases h

end Ty

/-- The column can be put into a row: by an adapter, or by the type of its field or of what its field
may hold. -/
inductive Column.Storable (c : Column) : Prop
  | adapted {t : Ty} (h : c.setting.adapter = some t)
  | plain {s : Storage} (h : c.ty.val.storage? = some s)
  | optional {t : Ty} {s : Storage} (ht : c.ty.val.optionInner? = some t) (hs : t.storage? = some s)

namespace Property

theorem isStorable_ofColumn_iff {c : Column} : (ofColumn c).isStorable ↔ c.Storable := by
  constructor
  · intro h
    cases ha : c.setting.adapter with
    | some t => exact .adapted ha
    | none =>
        have hs : (ofColumn c).storage.isSome := by
          simpa [isStorable, isSupported, ofColumn, ha] using h
        obtain ⟨s, hs⟩ := Option.isSome_iff_exists.1 hs
        cases ht : c.ty.val.optionInner? with
        | none => exact .plain (by simpa [ofColumn, ht] using hs)
        | some t => exact .optional ht (by simpa [ofColumn, ht] using hs)
  · rintro (h | h | ⟨ht, hs⟩)
    · simp [isStorable, ofColumn, h]
    · have hnone : c.ty.val.optionInner? = none := by
        cases ht : c.ty.val.optionInner? with
        | none => rfl
        | some u => simp [Ty.storage?_of_optionInner? ht] at h
      simp [isStorable, isSupported, ofColumn, hnone, h]
    · simp [isStorable, isSupported, ofColumn, ht, hs]

end Property

/-! ## Declarations that ask for a row -/

namespace Item

/-- The declaration asks for one method that makes rows and says how: all that it declares is right, the
method `m` is all that it declares, and the columns `cs` can all be put into one row. -/
structure Asks (i : Item) (m : Located Method) (cs : List Column) : Prop where
  declares : ∃ fs, i.Declares fs [m] cs
  getter : m.val.isGetter Extension.rowName
  storable : ∀ c ∈ cs, c.Storable
  distinct : (cs.map fun c => (Property.ofColumn c).keyText).Nodup

/-- The declaration has attributes for methods, in which it declares none, and is right in all else. -/
def AsksNothing (i : Item) : Prop :=
  Record.methodAttrs i.attrs ≠ [] ∧ ∃ fs cs, i.Declares fs [] cs

/-- The `impl` block of the declared type with the method `m`, as it is declared, around a body. -/
def implementing (i : Item) (m : Method) (b : Body) : List Token :=
  [Token.word "impl"] ++ i.generics.parameters ++ [Token.word i.name.val] ++ i.generics.arguments ++
    i.generics.whereTokens ++
      [Token.enclose .brace
        (m.attrs.flatten ++ m.vis ++ m.sig.tokens ++ [Token.enclose .brace b.tokens])]

end Item

open Extension (rowName makeRow)

variable {i : Item}

/-- A declaration without methods has attributes that say so, since it has the default method
otherwise. -/
theorem Item.methodAttrs_ne_nil (h : i.HasMethods []) : Record.methodAttrs i.attrs ≠ [] := by
  generalize hms : ([] : List (Located Method)) = ms at h
  cases h with
  | default _ => cases hms
  | listed hne _ => exact hne

theorem Item.Asks.ofRecord_eq {m : Located Method} {cs : List Column} (h : i.Asks m cs) :
    Property.ofRecord ⟨i.name, i.generics, [m], cs⟩ = .ok (cs.map .ofColumn) := by
  rw [Property.ofRecord_eq_ok_iff]
  refine ⟨?_, ?_, rfl⟩
  · intro p hp
    obtain ⟨c, hc, rfl⟩ := List.mem_map.1 hp
    exact Property.isStorable_ofColumn_iff.2 (h.storable c hc)
  · rw [List.map_map]
    exact h.distinct

/-- The columns of a declaration that asks for a row have a body. -/
theorem Item.Asks.exists_body {m : Located Method} {cs : List Column} (h : i.Asks m cs) :
    ∃ b, Body.ofProperties (cs.map .ofColumn) = .ok b := by
  have hall := (Property.ofRecord_eq_ok_iff.1 h.ofRecord_eq).1
  obtain ⟨ss, hss, -⟩ := Body.exists_ofProperties hall
  exact ⟨_, hss⟩

/-- What is made of a declaration that asks for a row hangs on whether it can be read. -/
theorem Item.Asks.makeRow_eq {m : Located Method} {cs : List Column} (h : i.Asks m cs) {b : Body}
    (hb : Body.ofProperties (cs.map .ofColumn) = .ok b) :
    makeRow ⟨⟨i.name, i.generics, [m], cs⟩, [m]⟩ =
      match Method.implementation? (m.val.withBody b) with
      | .error e => .error (.internal (.unreadable e.fault))
      | .ok _ => .ok (m.val.withBody b) := by
  rw [Extension.makeRow_of_ok (Method.soleGetter?_singleton h.getter) h.ofRecord_eq]
  cases hread : Method.implementation? (m.val.withBody b) with
  | error e => simp only [Method.implement, hb, hread, Except.mapError]
  | ok _ => simp only [Method.implement, hb, hread, Except.mapError]

/-- A record with one getter and no other method, of which a method is made, was asked for. -/
theorem Item.Asks.of_makeRow {fs : List Field} {m : Located Method} {cs : List Column}
    {us : List Token} (hi : i.Declares fs [m] cs) (hm : m.val.isGetter rowName)
    (hmake : makeRow ⟨⟨i.name, i.generics, [m], cs⟩, [m]⟩ = .ok us) : i.Asks m cs := by
  have hgetter := Method.soleGetter?_singleton hm
  cases hps : Property.ofRecord ⟨i.name, i.generics, [m], cs⟩ with
  | error rs =>
      rw [Extension.makeRow_of_error hgetter hps] at hmake
      cases hmake
  | ok ps =>
      obtain ⟨hstorable, hdistinct, rfl⟩ := Property.ofRecord_eq_ok_iff.1 hps
      refine ⟨⟨fs, hi⟩, hm, ?_, ?_⟩
      · intro c hc
        exact Property.isStorable_ofColumn_iff.1 (hstorable _ (List.mem_map_of_mem hc))
      · rwa [List.map_map] at hdistinct

/-! ## Acceptance -/

theorem implBlock_withBody (ms : List (Located Method)) (cs : List Column) (m : Method) (b : Body) :
    Host.implBlock ⟨i.name, i.generics, ms, cs⟩ [m.withBody b] = i.implementing m b := by
  simp [Host.implBlock, Item.implementing, Method.withBody, Method.tokens]

/-- What a declaration gives is told by the record that it declares. -/
theorem derive_of_declares {fs : List Field} {ms : List (Located Method)} {cs : List Column}
    (h : i.Declares fs ms cs) :
    derive i = Host.run ⟨i.name, i.generics, ms, cs⟩ extensions := by
  have hrecord := Record.ofItem_eq_ok_iff.2 ⟨fs, ms, cs, h, rfl⟩
  rw [derive, hrecord]

/-- A declaration from which something is derived is right in all its parts. -/
theorem exists_declares {ts : List Token} (h : derive i = .ok ts) :
    ∃ fs ms cs, i.Declares fs ms cs := by
  unfold derive at h
  split at h
  · cases h
  · rename_i r hr
    obtain ⟨fs, ms, cs, hi, -⟩ := Record.ofItem_eq_ok_iff.1 hr
    exact ⟨fs, ms, cs, hi⟩

/-- A declaration is accepted if it asks for nothing, and then nothing is made of it; or if it asks for a
row and the method for it, as assembled, can be read. Then one `impl` block with this one method is made.
If it cannot be read, that is all that is reported, and the report blames no part of the declaration. -/
theorem derive_eq_ok_iff (i : Item) :
    (∀ ts, derive i = .ok ts ↔
      (i.AsksNothing ∧ ts = []) ∨
        ∃ m cs b, i.Asks m cs ∧ Body.ofProperties (cs.map .ofColumn) = .ok b ∧
          (∃ us, Method.implementation? (m.val.withBody b) = .ok us) ∧
          ts = i.implementing m.val b) ∧
      ∀ m cs, i.Asks m cs → ∃ b, Body.ofProperties (cs.map .ofColumn) = .ok b ∧
        ∀ e, Method.implementation? (m.val.withBody b) = .error e →
          derive i = .error [⟨.internal (.unreadable e.fault), .nowhere⟩] := by
  refine ⟨fun ts => ⟨?_, ?_⟩, ?_⟩
  · intro h
    obtain ⟨fs, ms, cs, hi⟩ := exists_declares h
    rw [derive_of_declares hi, Host.run_extensions_eq_ok_iff] at h
    rcases h with ⟨rfl, rfl⟩ | ⟨m, us, rfl, hm, hmake, rfl⟩
    · exact Or.inl ⟨⟨Item.methodAttrs_ne_nil hi.methods, fs, cs, hi⟩, rfl⟩
    · have hasks : i.Asks m cs := .of_makeRow hi hm hmake
      obtain ⟨b, hb⟩ := hasks.exists_body
      rw [hasks.makeRow_eq hb] at hmake
      split at hmake
      · cases hmake
      · rename_i us' hread
        obtain rfl := Except.ok.inj hmake
        exact Or.inr ⟨m, cs, b, hasks, hb, ⟨us', hread⟩, implBlock_withBody _ _ _ _⟩
  · rintro (⟨⟨-, fs, cs, hi⟩, rfl⟩ | ⟨m, cs, b, hasks, hb, ⟨us, hread⟩, rfl⟩)
    · rw [derive_of_declares hi, Host.run_extensions_eq_ok_iff]
      exact Or.inl ⟨rfl, rfl⟩
    · obtain ⟨fs, hi⟩ := hasks.declares
      rw [derive_of_declares hi, Host.run_extensions_eq_ok_iff]
      refine Or.inr ⟨m, m.val.withBody b, rfl, hasks.getter, ?_, (implBlock_withBody _ _ _ _).symm⟩
      simp only [hasks.makeRow_eq hb, hread]
  · intro m cs hasks
    obtain ⟨b, hb⟩ := hasks.exists_body
    obtain ⟨fs, hi⟩ := hasks.declares
    refine ⟨b, hb, fun e he => ?_⟩
    have hgetter := Method.soleGetter?_singleton hasks.getter
    rw [derive_of_declares hi, Host.run_extensions_of_some hgetter]
    have hleft : Host.leave [m.val] [m] = [] := (Method.leave_soleGetter?_eq_nil_iff hgetter).2 rfl
    simp only [hasks.makeRow_eq hb, he, hleft]
    rfl

/-- A declaration whose adapter is a type with an open `+`. -/
def openSource : String := "struct S \x7b #[column(adapter = A +)] a: u8 \x7d"

/-- Such a declaration asks for a row, but the method that is assembled cannot be read: after the `+` a
bound is looked for where `as` stands. -/
theorem derive_open_bounds :
    ∃ i m cs, Item.ofText? openSource = some i ∧ i.Asks m cs ∧
      derive i = .error [⟨.internal (.unreadable (.keyword "as")), .nowhere⟩] := by
  have hderive : (Item.ofText? openSource).map derive =
      some (.error [⟨.internal (.unreadable (.keyword "as")), .nowhere⟩]) := by decide +kernel
  have hrecord : (Record.ofText? openSource).any fun r =>
      r.methods = [⟨Method.default, .nowhere⟩] ∧ (∀ c ∈ r.columns, (Property.ofColumn c).isStorable) ∧
        (r.columns.map fun c => (Property.ofColumn c).keyText) = ["a"] := by decide +kernel
  obtain ⟨i, hi, hderive⟩ := Option.map_eq_some_iff.1 hderive
  obtain ⟨r, hr, hrecord⟩ := (Option.any_eq_true _ _).1 hrecord
  obtain ⟨hms, hstorable, hkeys⟩ := of_decide_eq_true hrecord
  have hread : Record.ofItem i = .ok r := by
    rw [Record.ofText?, hi, Option.bind_some] at hr
    cases hitem : Record.ofItem i with
    | error rs =>
        rw [hitem] at hr
        cases hr
    | ok r' =>
        rw [hitem] at hr
        exact congrArg Except.ok (Option.some.inj hr)
  obtain ⟨fs, ms, cs, hdeclares, rfl⟩ := Record.ofItem_eq_ok_iff.1 hread
  obtain rfl : ms = _ := hms
  refine ⟨i, _, cs, hi, ⟨⟨fs, hdeclares⟩, by decide, ?_, ?_⟩, hderive⟩
  · exact fun c hc => Property.isStorable_ofColumn_iff.1 (hstorable c hc)
  · rw [hkeys]
    decide

end RowDerive
