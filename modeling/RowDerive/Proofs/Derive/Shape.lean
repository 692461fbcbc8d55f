import RowDerive.Proofs.Body.Running
import RowDerive.Proofs.Body.Written
import RowDerive.Proofs.Derive.Readable
import RowDerive.Proofs.Extension.Agreement

/-!
# What a method that is made looks like

The method that implements a getter is its head and a block. The block has one statement for the row, one
for each adapter, one for each property, in their order, and the row last, each written as its text says.
Where what was declared elsewhere is read as itself, the block is read as these statements and the method
as it was assembled.
-/

namespace RowDerive

open RowDerive.Parser RowDerive.Grammar

/-- The statements that the tokens of a block are. -/
def Grammar.statementsOf? (ts : List Token) : Except SyntaxError (List (List Token)) :=
  runAll (statementList (rulesFor ts) (Token.sizeList ts + 1)) ts .nowhere

/-- A method that is made is its head, unchanged, and a block of as many statements as there are
properties and different adapters, with one for the row before them and the row after. If the fields have
names and the adapters are read as themselves before `as`, these are the statements that are found in the
block. If the head is read as itself too, so is the method. -/
theorem Method.implement_shape {m : Method} {ps : List Property} {ts : List Token}
    (h : m.implement ps = .ok ts) :
    ∃ row bindings insertions last,
      Body.Lists ps row bindings insertions last ∧
      ts = m.attrs.flatten ++ m.vis ++ m.sig.tokens ++
        [Token.enclose .brace (row :: (bindings ++ insertions ++ [last])).flatten] ∧
      (row :: (bindings ++ insertions ++ [last])).length =
        1 + (ps.filterMap Property.adapterText?).toFinset.card + ps.length + 1 ∧
      ((∀ p ∈ ps, p.name.text ∉ Look.keywords) →
        (∀ p ∈ ps, ∀ t, p.adapter = some t → t.ReadsBackBeforeAs) →
          statementsOf? (row :: (bindings ++ insertions ++ [last])).flatten =
            .ok (row :: (bindings ++ insertions ++ [last])) ∧
          (m.ReadsBackBeforeBody → implementation? ts = .ok ts)) := by
  obtain ⟨b, hb, rfl⟩ := implement_eq_ok h
  obtain ⟨hadapters, hstatements⟩ := Body.ofProperties_eq_ok_iff.1 hb
  have hlists := Body.lists_of_ofProperties hb
  have hwhole : Body.rowTokens b.statements.length :: (b.adapters.mapIdx Body.adapterTokens ++
      b.statements.map Statement.tokens ++ [[Token.word "values"]]) =
        b.parts ++ [[Token.word "values"]] := by simp [Body.parts]
  have hflatten : (b.parts ++ [[Token.word "values"]]).flatten = b.tokens := by
    simp [Body.tokens_eq_flatten]
  refine ⟨_, _, _, _, hlists, ?_, ?_, ?_⟩
  · rw [hwhole, hflatten]
    rfl
  · have hinsertions := hlists.insertions.length_eq
    have hbindings := hlists.bindings_length
    simp only [List.length_cons, List.length_append, List.length_nil] at hinsertions hbindings ⊢
    omega
  · intro hnames hreads
    have hfields : ∀ s ∈ b.statements, s.field.text ∉ Look.keywords := by
      intro s hs
      have hs' : s.field ∈ ps.map Property.name :=
        Property.map_name_eq hstatements ▸ List.mem_map_of_mem hs
      obtain ⟨p, hp, hpname⟩ := List.mem_map.1 hs'
      exact hpname ▸ hnames p hp
    have htypes : ∀ t ∈ b.adapters, t.ReadsBackBeforeAs := by
      intro t ht
      obtain ⟨p, hp, hpt⟩ := Body.mem_of_mem_adaptersOf (hadapters ▸ ht)
      exact hreads p hp t hpt
    have hdepth : ∀ t ∈ b.adapters,
        4 * Token.sizeList t.tokens + 8 ≤ 4 * Token.sizeList b.tokens + 3 + 4 := by
      intro t ht
      have hlt := Body.sizeList_adapter_lt ht
      omega
    refine ⟨?_, fun hm => implementation?_withBody_eq hm hfields htypes⟩
    rw [hwhole, hflatten]
    exact runAll_front (Body.statementList_tokens hfields htypes hdepth)

/-- The default method for a record with a column of each kind is read as its six statements. -/
theorem Sample.implement_shape_member :
    ∃ ts row bindings insertions last,
      Method.default.implement (member.columns.map .ofColumn) = .ok ts ∧
      Body.Lists (member.columns.map .ofColumn) row bindings insertions last ∧
      (row :: (bindings ++ insertions ++ [last])).length = 1 + 1 + 3 + 1 ∧
      statementsOf? (row :: (bindings ++ insertions ++ [last])).flatten =
        .ok (row :: (bindings ++ insertions ++ [last])) ∧
      Method.implementation? ts = .ok ts := by
  have hmade : (Method.default.implement (member.columns.map .ofColumn)).toOption.isSome := by
    decide +kernel
  obtain ⟨ts, hts⟩ := Option.isSome_iff_exists.1 hmade
  have himplement := eq_ok_of_toOption hts
  have hnames : ∀ p ∈ member.columns.map Property.ofColumn, p.name.text ∉ Look.keywords := by decide
  have htrees : ∀ p ∈ member.columns.map Property.ofColumn, p.adapter.all Ty.isTree := by decide
  obtain ⟨row, bindings, insertions, last, hlists, -, hlength, hread⟩ :=
    Method.implement_shape himplement
  obtain ⟨hstatements, hwhole⟩ := hread hnames fun p hp t ht => by
    have htree := htrees p hp
    rw [ht] at htree
    exact Ty.readsBackBeforeAs_of_isTree htree
  exact ⟨ts, row, bindings, insertions, last, himplement, hlists, hlength, hstatements,
    hwhole Method.default_isSimple.readsBackBeforeBody⟩

end RowDerive
