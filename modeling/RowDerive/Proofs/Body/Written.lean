import RowDerive.Extension.Rows
import RowDerive.Proofs.Body.Numbering
import RowDerive.Proofs.Body.Parts

/-!
# How bodies are written

The statements of a body by their texts: what makes the row, what makes each adapter, what puts each
property, and the row.
-/

namespace RowDerive

namespace Property

/-- How the statement that puts a property is written, among the properties `ps`. -/
inductive Written (ps : List Property) (p : Property) : String → Prop
  /-- An adapter gets the field, whatever its type is. -/
  | adapted {t : Ty} (ht : p.adapter = some t) :
      Written ps p (":: content_values :: ColumnTypeAdapter :: to_content_values (& " ++
        adapterName ((Body.adapterTexts ps).idxOf t.text) ++ " , & mut values , " ++
          p.key.val.token ++ " , & self . " ++ p.name.text ++ " ,) ;")
  /-- What an optional field holds is taken by value if it is a reference. -/
  | optional {s : Storage} (ht : p.adapter = none) (hs : p.storage = some s) (ho : p.isOptional = true) :
      Written ps p ("\x7b let value = & self . " ++ p.name.text ++ " ; match value \x7b " ++
        ":: core :: option :: Option :: Some (value) => values . put (" ++ p.key.val.token ++ " , " ++
          (if s.byRef then "* " else "") ++ "value) , " ++
        ":: core :: option :: Option :: None => values . put_null (" ++ p.key.val.token ++
          ") , \x7d \x7d")
  /-- So is a field that is no option. -/
  | direct {s : Storage} (ht : p.adapter = none) (hs : p.storage = some s) (ho : p.isOptional = false) :
      Written ps p ("values . put (" ++ p.key.val.token ++ " , " ++ (if s.byRef then "" else "& ") ++
        "self . " ++ p.name.text ++ ") ;")

/-- The statement of a property is written as its kind asks for. -/
theorem written_of_statement? {ps : List Property} {p : Property} {s : Statement} (hp : p ∈ ps)
    (hs : Body.statement? (Body.adaptersOf ps) p = some s) :
    p.Written ps (Token.listText s.tokens) := by
  cases ht : p.adapter with
  | some t =>
      rw [Body.statement?_of_adapter ht, Body.number?_adaptersOf hp ht] at hs
      obtain rfl := Option.some.inj hs
      rw [Statement.listText_adapted]
      exact .adapted ht
  | none =>
      cases hstorage : p.storage with
      | none => simp [Body.statement?, ht, hstorage] at hs
      | some k =>
          rw [Body.statement?_of_storage ht hstorage] at hs
          obtain rfl := Option.some.inj hs
          cases ho : p.isOptional with
          | true =>
              rw [if_pos rfl, Statement.listText_optional]
              exact .optional ht hstorage ho
          | false =>
              rw [if_neg Bool.false_ne_true, Statement.listText_direct]
              have hborrow : (if (!k.byRef) = true then "& " else "") =
                  if k.byRef then "" else "& " := by cases k.byRef <;> rfl
              rw [hborrow]
              exact .direct ht hstorage ho

end Property

namespace Body

/-- The statements of a block that puts properties: what makes the row, what makes each adapter, what
puts each property, and the row. -/
structure Lists (ps : List Property) (row : List Token) (bindings insertions : List (List Token))
    (last : List Token) : Prop where
  /-- The row has room for all properties, and can be written to if there are any. -/
  row : Token.listText row = "let " ++ (if ps.length = 0 then "" else "mut ") ++
    "values = :: content_values :: ContentValues :: with_capacity (" ++ toString ps.length ++ "usize) ;"
  /-- Each adapter that is written differently is made once. -/
  bindings_length : bindings.length = (ps.filterMap Property.adapterText?).toFinset.card
  /-- They are numbered in the order of first use. -/
  bindings : ∀ i us, bindings[i]? = some us → ∃ p ∈ ps, ∃ t, p.adapter = some t ∧
    (adapterTexts ps)[i]? = some t.text ∧ ∃ front back, us = front ++ t.tokens ++ back ∧
      Token.listText front = "let " ++ adapterName i ++ " = <" ∧
      Token.listText back = "as :: core :: default :: Default > :: default () ;"
  /-- Each property is put as its kind asks for. -/
  insertions : List.Forall₂ (fun p us => p.Written ps (Token.listText us)) ps insertions
  last : Token.listText last = "values"

theorem lists_of_ofProperties {ps : List Property} {b : Body} (h : ofProperties ps = .ok b) :
    Lists ps (rowTokens b.statements.length) (b.adapters.mapIdx adapterTokens)
      (b.statements.map Statement.tokens) [Token.word "values"] := by
  obtain ⟨hadapters, hstatements⟩ := ofProperties_eq_ok_iff.1 h
  have hlength : b.adapters.length = (adapterTexts ps).length := by
    rw [hadapters, length_adaptersOf]
  refine ⟨?_, ?_, ?_, ?_, rfl⟩
  · rw [listText_rowTokens, hstatements.length_eq]
  · rw [List.length_mapIdx, hlength, length_adapterTexts]
  · intro i us hus
    obtain ⟨t, ht, rfl⟩ := Option.map_eq_some_iff.1 ((List.getElem?_mapIdx ..).symm.trans hus)
    obtain ⟨p, hp, hpt⟩ := mem_of_mem_adaptersOf (hadapters ▸ List.mem_of_getElem? ht)
    refine ⟨p, hp, t, hpt, ?_, exists_adapterTokens i t⟩
    rw [← map_text_adaptersOf, ← hadapters, List.getElem?_map, ht, Option.map_some]
  · rw [List.forall₂_map_right_iff]
    exact (forall₂_mem hstatements).imp fun p s hs => Property.written_of_statement? hs.1 hs.2

end Body

/-- The method that is made is its head and the statements of the body; it fails only if it cannot be
read back. -/
theorem Method.implement_of_ofProperties {ps : List Property} {b : Body}
    (hb : Body.ofProperties ps = .ok b) (m : Method) :
    m.implement ps = .ok (m.tokens ++ [Token.enclose .brace b.lines.flatten]) ∨
      ∃ e, m.implement ps = .error (.unreadable e) := by
  rw [implement, hb, b.flatten_lines]
  cases h : implementation? (m.withBody b) with
  | error e => exact .inr ⟨e.fault, by simp [h]⟩
  | ok us =>
      refine .inl ?_
      simp only [h]
      rfl

end RowDerive
