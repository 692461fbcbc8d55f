import RowDerive.Proofs.Body.Assembly
import RowDerive.Proofs.Body.Reading
import RowDerive.Proofs.Grammar.Signature
import RowDerive.Proofs.Property.Extraction
import RowDerive.Proofs.Record.FieldName
import RowDerive.Proofs.Derive.Acceptance

/-!
# Methods that are made can be read

What is made of a method that is declared stands around what is declared elsewhere: the head of the
method, now with a body behind it, and the types of the adapters, now with `as` behind them. If these are
read at their new places, so is the whole method, whatever the fields, keys and storages are.
-/

namespace RowDerive

open RowDerive.Parser RowDerive.Grammar

/-! ## Sizes -/

namespace Body

theorem sizeList_le_adapterListTokens {ts : List Ty} {t : Ty} (h : t ∈ ts) (i : Nat) :
    Token.sizeList t.tokens ≤ Token.sizeList (adapterListTokens i ts) := by
  induction ts generalizing i with
  | nil => cases h
  | cons u us ih =>
      rw [adapterListTokens, Token.sizeList_append]
      rcases List.mem_cons.1 h with rfl | h
      · simp only [adapterTokens, Token.sizeList_append]
        omega
      · exact Nat.le_trans (ih h (i + 1)) (Nat.le_add_left _ _)

theorem sizeList_adapter_lt {b : Body} {t : Ty} (h : t ∈ b.adapters) :
    Token.sizeList t.tokens < Token.sizeList b.tokens := by
  have hlist := sizeList_le_adapterListTokens h 0
  have hvalues : Token.sizeList [Token.word "values"] = 1 := rfl
  simp only [tokens, Token.sizeList_append]
  omega

end Body

namespace Method

variable {m : Method} {b : Body}

theorem sizeList_withBody (m : Method) (b : Body) : Token.sizeList (m.withBody b) =
    Token.sizeList m.tokens + (Token.sizeList b.tokens + 1) := by
  rw [withBody, Token.sizeList_append, Token.sizeList_group]

/-- The body of a method is read back by the rules for the whole method. -/
theorem block_withBody {same : Prop} (m : Method)
    (hfields : ∀ s ∈ b.statements, s.field.text ∉ Look.keywords)
    (hadapters : ∀ t ∈ b.adapters, t.ReadsBeforeAsIf same) :
    ∃ vss, (same → vss = b.parts) ∧
      (rulesFor (m.withBody b)).block true (.front [Token.enclose .brace b.tokens]) =
        .ok (Token.enclose .brace (vss ++ [[Token.word "values"]]).flatten, .front []) := by
  have hdepth : ∀ t ∈ b.adapters,
      4 * Token.sizeList t.tokens + 8 ≤ 4 * Token.sizeList (m.withBody b) + 2 + 4 := by
    intro t ht
    have hsize := sizeList_withBody m b
    have hlt := Body.sizeList_adapter_lt ht
    omega
  exact Body.block_tokens hfields hadapters hdepth []

/-- What is read of a method is its head, then its body. -/
theorem implementation?_of_front {vs : List Token} {g : Token}
    (hhead : implementationHead (rulesFor (m.withBody b)) (.front (m.withBody b)) =
      .ok (vs, .front [Token.enclose .brace b.tokens]))
    (hblock : (rulesFor (m.withBody b)).block true (.front [Token.enclose .brace b.tokens]) =
      .ok (g, .front [])) : implementation? (m.withBody b) = .ok (vs ++ [g]) := by
  refine runAll_front ?_
  simp only [implementation, bind_apply, hhead, hblock, pure_apply]

/-- A method is read back with a body if its head is and the adapters of the body are. -/
theorem implementation?_withBody (hm : m.ReadsBeforeBody)
    (hfields : ∀ s ∈ b.statements, s.field.text ∉ Look.keywords)
    (hadapters : ∀ t ∈ b.adapters, t.ReadsBeforeAs) :
    ∃ us, implementation? (m.withBody b) = .ok us := by
  have hsize := sizeList_withBody m b
  obtain ⟨vs, hhead⟩ := hm (4 * Token.sizeList (m.withBody b) + 8) (by omega) b.tokens
  obtain ⟨vss, -, hblock⟩ := block_withBody m hfields fun t ht => (hadapters t ht).if
  exact ⟨_, implementation?_of_front hhead hblock⟩

/-- If they are read as themselves, so is the whole method. -/
theorem implementation?_withBody_eq (hm : m.ReadsBackBeforeBody)
    (hfields : ∀ s ∈ b.statements, s.field.text ∉ Look.keywords)
    (hadapters : ∀ t ∈ b.adapters, t.ReadsBackBeforeAs) :
    implementation? (m.withBody b) = .ok (m.withBody b) := by
  have hsize := sizeList_withBody m b
  have hhead := hm (4 * Token.sizeList (m.withBody b) + 8) (by omega) b.tokens
  obtain ⟨vss, hvss, hblock⟩ := block_withBody m hfields fun t ht => (hadapters t ht).if
  rw [implementation?_of_front hhead hblock, hvss trivial, withBody, Body.tokens_eq_flatten]
  simp

end Method

/-! ## Records -/

namespace Property

/-- The statement of a property is about its field. -/
theorem field_of_statement? {ts : List Ty} {p : Property} {s : Statement}
    (h : Body.statement? ts p = some s) : s.field = p.name := by
  unfold Body.statement? at h
  split at h
  · obtain ⟨i, -, rfl⟩ := Option.map_eq_some_iff.1 h
    rfl
  · obtain ⟨t, -, rfl⟩ := Option.map_eq_some_iff.1 h
    split <;> rfl

/-- The statements of properties are about their fields, in order. -/
theorem map_name_eq {ts : List Ty} {ps : List Property} {ss : List Statement}
    (h : List.Forall₂ (fun p s => Body.statement? ts p = some s) ps ss) :
    ps.map name = ss.map Statement.field := by
  rw [← List.forall₂_eq_eq_eq, List.forall₂_map_left_iff, List.forall₂_map_right_iff]
  exact h.imp fun p s hs => (field_of_statement? hs).symm

end Property

/-- Whether what the record takes from its declaration is read at its new places. -/
structure Record.Reads (r : Record) : Prop where
  methods : ∀ m ∈ r.methods, m.val.ReadsBeforeBody
  adapters : ∀ c ∈ r.columns, ∀ t, c.setting.adapter = some t → t.ReadsBeforeAs

/-- The fields of a record are named as fields may be. -/
theorem Record.isFieldName_of_mem {ts : List Token} {i : Item} {r : Record}
    (hi : Item.ofTokens ts = .ok i) (hr : Record.ofItem i = .ok r) {c : Column} (hc : c ∈ r.columns) :
    c.name.val.IsFieldName := by
  obtain ⟨fs, ms, cs, hdeclares, rfl⟩ := Record.ofItem_eq_ok_iff.1 hr
  obtain ⟨f, hf, hfc⟩ := Field.exists_of_mem_columns hdeclares.columns hc
  have hname : c.name = f.name := by cases hfc <;> rfl
  have hshape : i.shape = .named fs := by
    have hfields := hdeclares.fields
    generalize i.shape = σ at hfields ⊢
    cases hfields with
    | named fs => rfl
    | unit => cases hf
  rw [hname]
  exact Item.hasFieldNames_of_ofTokens hi fs hshape f hf

/-- If the properties of a record are read and its methods implemented, what is reported is that methods
are left. -/
theorem unimplemented_of_derive {i : Item} {r : Record} {ps : List Property} {rs : List Report}
    (hr : Record.ofItem i = .ok r) (hps : Property.ofRecord r = .ok ps)
    (himplement : ∀ m ∈ r.methods, ∃ ts, m.val.implement ps = .ok ts) (h : derive i = .error rs) :
    ∀ x ∈ rs, ∃ m : Located Method, x = Host.unimplemented m := by
  have hunimplemented : ∀ (ms : List (Located Method)) (x : Report), x ∈ ms.map Host.unimplemented →
      ∃ m : Located Method, x = Host.unimplemented m := by
    intro ms x hx
    obtain ⟨m, -, rfl⟩ := List.mem_map.1 hx
    exact ⟨m, rfl⟩
  have hrun : Host.run r extensions = .error rs := by simpa only [derive, hr] using h
  intro x hx
  cases hgetter : Method.soleGetter? Extension.rowName r.methods with
  | none =>
      rw [Host.run_extensions_of_none hgetter, Checked.ifClean_eq_error_iff] at hrun
      obtain ⟨-, rfl⟩ := hrun
      exact hunimplemented _ x hx
  | some m =>
      obtain ⟨us, hus⟩ := himplement m (Method.mem_of_soleGetter? hgetter)
      have hmake := Extension.makeRow_of_ok hgetter hps
      rw [hus] at hmake
      rw [Host.run_extensions_of_some hgetter, hmake] at hrun
      obtain ⟨-, rfl⟩ := (Checked.ifClean_eq_error_iff _ _ _).1 hrun
      exact hunimplemented _ x hx

/-- Of a record that is read from a declaration every method is implemented, if what it takes from the
declaration is read at its new places. Then no report of the derivation blames the code that is made. -/
theorem methods_implemented {ts : List Token} {i : Item} {r : Record} {ps : List Property}
    (hi : Item.ofTokens ts = .ok i) (hr : Record.ofItem i = .ok r) (hps : Property.ofRecord r = .ok ps)
    (hnames : ∀ c ∈ r.columns, c.name.val.text ≠ "_") (hreads : r.Reads) :
    (∃ b, Body.ofProperties ps = .ok b ∧
      ∀ m ∈ r.methods, m.val.implement ps = .ok (m.val.withBody b)) ∧
    ∀ rs, derive i = .error rs → ∀ x ∈ rs, ∀ fault, x.val ≠ .internal fault := by
  obtain ⟨hstorable, -, rfl⟩ := Property.ofRecord_eq_ok_iff.1 hps
  obtain ⟨ss, hbody, hss⟩ := Body.exists_ofProperties hstorable
  have hfields : ∀ s ∈ ss, s.field.text ∉ Look.keywords := by
    intro s hs
    have hs' : s.field ∈ (r.columns.map Property.ofColumn).map Property.name :=
      Property.map_name_eq hss ▸ List.mem_map_of_mem hs
    obtain ⟨p, hp, hpname⟩ := List.mem_map.1 hs'
    obtain ⟨c, hc, rfl⟩ := List.mem_map.1 hp
    rw [← hpname]
    exact (Record.isFieldName_of_mem hi hr hc).resolve_right (hnames c hc)
  have hadapters : ∀ t ∈ Body.adaptersOf (r.columns.map .ofColumn), t.ReadsBeforeAs := by
    intro t ht
    obtain ⟨p, hp, hpt⟩ := Body.mem_of_mem_adaptersOf ht
    obtain ⟨c, hc, rfl⟩ := List.mem_map.1 hp
    exact hreads.adapters c hc t hpt
  have himplement : ∀ m ∈ r.methods, m.val.implement (r.columns.map .ofColumn) =
      .ok (m.val.withBody ⟨Body.adaptersOf (r.columns.map .ofColumn), ss⟩) := by
    intro m hm
    obtain ⟨us, hread⟩ := Method.implementation?_withBody (hreads.methods m hm)
      (b := ⟨Body.adaptersOf (r.columns.map .ofColumn), ss⟩) hfields hadapters
    simp only [Method.implement, hbody, hread]
  refine ⟨⟨_, hbody, himplement⟩, fun rs hrs x hx fault hfault => ?_⟩
  obtain ⟨m, rfl⟩ :=
    unimplemented_of_derive hr hps (fun m hm => ⟨_, himplement m hm⟩) hrs x hx
  cases hfault

/-- A record takes what is read at its new place if its methods are simple and its adapters trees. -/
theorem Record.reads_of_simple {r : Record} (hmethods : ∀ m ∈ r.methods, m.val.IsSimple)
    (hadapters : ∀ c ∈ r.columns, c.setting.adapter.all Ty.isTree) : r.Reads where
  methods m hm := (hmethods m hm).readsBeforeBody
  adapters c hc t ht := by
    have htree := hadapters c hc
    rw [ht] at htree
    exact Ty.readsBeforeAs_of_isTree htree

/-- So it does if it declares no method itself. -/
theorem Record.reads_of_default {r : Record} (hmethods : r.methods = [⟨Method.default, .nowhere⟩])
    (hadapters : ∀ c ∈ r.columns, c.setting.adapter.all Ty.isTree) : r.Reads := by
  refine Record.reads_of_simple (fun m hm => ?_) hadapters
  rw [hmethods] at hm
  obtain rfl := List.mem_singleton.1 hm
  exact Method.default_isSimple

theorem Item.exists_of_ofText? {source : String} {i : Item} (h : Item.ofText? source = some i) :
    ∃ ts, Item.ofTokens ts = .ok i := by
  obtain ⟨ts, -, hts⟩ := Option.bind_eq_some_iff.1 h
  exact ⟨Token.unmarkList ts, eq_ok_of_toOption hts⟩

/-- A declaration with an adapted field, an optional one and a plain one. -/
def mixedSource : String := "struct S \x7b #[column(adapter = a::B)] a: u8, b: Option<bool>, c: i8 \x7d"

theorem methods_implemented_mixed :
    ∃ i r ps, Item.ofText? mixedSource = some i ∧ Record.ofItem i = .ok r ∧
      Property.ofRecord r = .ok ps ∧ (∃ b, Body.ofProperties ps = .ok b ∧
        ∀ m ∈ r.methods, m.val.implement ps = .ok (m.val.withBody b)) ∧
      ∀ rs, derive i = .error rs → ∀ x ∈ rs, ∀ fault, x.val ≠ .internal fault := by
  have hcheck : (Item.ofText? mixedSource).any fun i => (Record.ofItem i).toOption.any fun r =>
      (Property.ofRecord r).toOption.isSome ∧ r.methods = [⟨Method.default, .nowhere⟩] ∧
        (∀ c ∈ r.columns, c.setting.adapter.all Ty.isTree) ∧
        ∀ c ∈ r.columns, c.name.val.text ≠ "_" := by decide +kernel
  obtain ⟨i, hi, hcheck⟩ := (Option.any_eq_true _ _).1 hcheck
  obtain ⟨r, hr, hcheck⟩ := (Option.any_eq_true _ _).1 hcheck
  obtain ⟨hps, hmethods, hadapters, hnames⟩ := of_decide_eq_true hcheck
  obtain ⟨ps, hps⟩ := Option.isSome_iff_exists.1 hps
  obtain ⟨ts, hts⟩ := Item.exists_of_ofText? hi
  have hr := eq_ok_of_toOption hr
  have hps := eq_ok_of_toOption hps
  exact ⟨i, r, ps, hi, hr, hps,
    methods_implemented hts hr hps hnames (Record.reads_of_default hmethods hadapters)⟩

/-- Of the record whose adapter is a type with an open `+` the method is not implemented, though all its
properties can be put. -/
theorem not_implemented_open_bounds :
    ∃ i r ps m, Item.ofText? openSource = some i ∧ Record.ofItem i = .ok r ∧
      Property.ofRecord r = .ok ps ∧ m ∈ r.methods ∧
        m.val.implement ps = .error (.unreadable (.keyword "as")) := by
  have hcheck : (Item.ofText? openSource).any fun i => (Record.ofItem i).toOption.any fun r =>
      (Property.ofRecord r).toOption.any fun ps => ∃ m ∈ r.methods,
        m.val.implement ps = .error (.unreadable (.keyword "as")) := by decide +kernel
  obtain ⟨i, hi, hcheck⟩ := (Option.any_eq_true _ _).1 hcheck
  obtain ⟨r, hr, hcheck⟩ := (Option.any_eq_true _ _).1 hcheck
  obtain ⟨ps, hps, hcheck⟩ := (Option.any_eq_true _ _).1 hcheck
  obtain ⟨m, hm, himplement⟩ := of_decide_eq_true hcheck
  exact ⟨i, r, ps, m, hi, eq_ok_of_toOption hr, eq_ok_of_toOption hps, hm, himplement⟩

end RowDerive
