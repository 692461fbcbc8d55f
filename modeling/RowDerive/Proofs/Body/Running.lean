import RowDerive.Proofs.Body.Written
import RowDerive.Proofs.Code.Running
import RowDerive.Proofs.Property.Extraction
import RowDerive.Proofs.Record.Declaration
import RowDerive.Proofs.Row.Entries
import RowDerive.Sample.Records

/-!
# Running assembled bodies

The statements that are written for the columns of a record make a row with one entry for each column, in
order: `Body.run_of_record`. They run on fields that are as their types say and on adapters that write
the column that they are given and no other. A statement finds its field as the type of its column has
it, since both are told from the type in the same way; and no entry is written over by a later one, since
the keys of the properties of a record are distinct. A key that has a suffix is accepted, but is no
expression where it is written, so that such statements make no row.
-/

namespace RowDerive

/-! ## What a body runs on -/

namespace FieldValue

variable {α : Type}

/-- The values of a type that is recognised by its name. -/
inductive OfType : Ty → FieldValue α → Prop
  | plain {t : Ty} {s : Storage} (ht : t.optionInner? = none) (hs : t.storage? = some s)
      (x : s.base.Carrier) : OfType t (.plain s x)
  | optional {t u : Ty} {s : Storage} (ht : t.optionInner? = some u) (hs : u.storage? = some s)
      (x : Option s.base.Carrier) : OfType t (.optional s x)

/-- What a field is stored as, without an adapter. -/
def value? : FieldValue α → Option Value
  | plain s x => some (s.base.encode x)
  | optional s x => some (x.elim .null s.base.encode)
  | foreign _ => none

/-- The row holds the field under the key: as a value of the kind for its type, or as null if it is an
option that is absent; and what is read at the type of the field is the field. -/
def StoredIn (row : Row) (k : String) : FieldValue α → Prop
  | plain s x => row.get? k = some (s.base.encode x) ∧ row.read (.base s.base) k = .ok x
  | optional s x =>
    row.get? k = some (x.elim .null s.base.encode) ∧ (row.get? k = some .null ↔ x = none) ∧
      row.read (.option (.base s.base)) k = .ok x
  | foreign _ => False

/-- A row that has the value of a field under a key holds the field. -/
theorem storedIn_of_get? {row : Row} {k : String} {x : FieldValue α} {v : Value}
    (hx : x.value? = some v) (hv : row.get? k = some v) : x.StoredIn row k := by
  cases x with
  | plain s x =>
      obtain rfl : s.base.encode x = v := Option.some.inj hx
      refine ⟨hv, ?_⟩
      simp [Row.read, hv, ColumnType.decode, Except.mapError]
  | optional s x =>
      obtain rfl : x.elim .null s.base.encode = v := Option.some.inj hx
      cases x with
      | none =>
          refine ⟨hv, by simp [hv], ?_⟩
          simp [Row.read, hv, ColumnType.decode, Value.isNull, Except.mapError]
      | some x =>
          have hne := s.base.encode_ne_null x
          refine ⟨hv, by simp [hv, hne], ?_⟩
          have hnull : (s.base.encode x).isNull = false :=
            Bool.eq_false_iff.2 fun hc => hne ((Value.isNull_iff _).1 hc)
          simp [Row.read, hv, ColumnType.decode, hnull, Except.map, Except.mapError]
  | foreign a => simp [value?] at hx

end FieldValue

/-- The adapter writes one entry, under the key that it is given, whatever its state and the row. -/
def Adapter.PutsOnce {σ α : Type} (a : Adapter σ α) (k : String) (x : FieldValue α) : Prop :=
  ∀ state row, ∃ state' v, a.write state row k x = some (state', row.put k v)

/-- What columns ask of their surroundings: fields that hold values of their types, where no adapter
knows better, and adapters that put the fields that are handed to them. -/
structure Surroundings.Suits {σ α : Type} (Γ : Surroundings σ α) (cs : List Column) : Prop where
  field : ∀ c ∈ cs, ∃ x, Γ.field c.name.val = some x ∧ (c.setting.adapter = none → x.OfType c.ty.val)
  adapter : ∀ c ∈ cs, ∀ t, c.setting.adapter = some t → ∃ a, Γ.adapter t.text = some a ∧
    ∀ d ∈ cs, ∀ u x, d.setting.adapter = some u → u.text = t.text → Γ.field d.name.val = some x →
      a.PutsOnce (Property.ofColumn d).keyText x

namespace Body

variable {σ α : Type} {Γ : Surroundings σ α}

/-! ## Adapters -/

/-- The adapters at hand are those of the types. -/
abbrev Stocked (Γ : Surroundings σ α) (ts : List Ty) (as : List (Instance σ α)) : Prop :=
  List.Forall₂ (fun t a => Γ.adapter t.text = some a.adapter) ts as

/-- Adapters that are known can be made. -/
theorem exists_instances {ts : List Ty} (h : ∀ t ∈ ts, ∃ a, Γ.adapter t.text = some a) :
    ∃ as, instances Γ ts = some as ∧ Stocked Γ ts as := by
  induction ts with
  | nil => exact ⟨[], rfl, List.Forall₂.nil⟩
  | cons t ts ih =>
      obtain ⟨a, ha⟩ := h t List.mem_cons_self
      obtain ⟨as, has, hstock⟩ := ih fun t ht => h t (List.mem_cons_of_mem _ ht)
      refine ⟨a.instantiate :: as, ?_, List.Forall₂.cons ha hstock⟩
      simp [instances, ha, has]

theorem Stocked.getElem? {ts : List Ty} {as : List (Instance σ α)} (h : Stocked Γ ts as) {i : Nat}
    {t : Ty} (ht : ts[i]? = some t) : ∃ a, as[i]? = some a ∧ Γ.adapter t.text = some a.adapter := by
  induction h generalizing i with
  | nil => simp at ht
  | cons h₁ _ ih =>
      cases i with
      | zero =>
          obtain rfl : _ = t := by simpa using ht
          exact ⟨_, rfl, h₁⟩
      | succ i =>
          rw [List.getElem?_cons_succ] at ht
          exact ih ht

/-- An adapter stays what it is in another state. -/
theorem Stocked.set {ts : List Ty} {as : List (Instance σ α)} (h : Stocked Γ ts as) {i : Nat}
    {a : Instance σ α} (ha : as[i]? = some a) (state : σ) :
    Stocked Γ ts (as.set i { a with state := state }) := by
  induction h generalizing i with
  | nil => exact List.Forall₂.nil
  | cons h₁ htail ih =>
      cases i with
      | zero =>
          obtain rfl : _ = a := by simpa using ha
          exact List.Forall₂.cons h₁ htail
      | succ i =>
          rw [List.getElem?_cons_succ] at ha
          exact List.Forall₂.cons h₁ (ih ha)

/-! ## Statements -/

/-- The entry that a column goes into a row with: under its key, and with the value of its field unless
an adapter makes one. -/
def Enters (Γ : Surroundings σ α) (c : Column) (e : String × Value) : Prop :=
  e.1 = (Property.ofColumn c).keyText ∧
    (c.setting.adapter = none →
      ∃ x, Γ.field c.name.val = some x ∧ x.OfType c.ty.val ∧ x.value? = some e.2)

variable {cs : List Column} {ts : List Ty}

theorem ofColumn_of_optional {c : Column} {t : Ty} (h : c.ty.val.optionInner? = some t) :
    (Property.ofColumn c).isOptional = true ∧ (Property.ofColumn c).storage = t.storage? := by
  simp [Property.ofColumn, Property.isOptional, h]

theorem ofColumn_of_plain {c : Column} (h : c.ty.val.optionInner? = none) :
    (Property.ofColumn c).isOptional = false ∧
      (Property.ofColumn c).storage = c.ty.val.storage? := by
  simp [Property.ofColumn, Property.isOptional, h]

/-- A statement without an adapter puts the field of its column, in the way that its type asks for. -/
theorem step_of_type {c : Column} {s : Statement} {x : FieldValue α}
    (hc : c.setting.adapter = none) (hs : statement? ts (.ofColumn c) = some s)
    (hfield : Γ.field c.name.val = some x) (hx : x.OfType c.ty.val) (st : State σ α) :
    ∃ v, x.value? = some v ∧
      step Γ st s = some { st with row := st.row.put (Property.ofColumn c).keyText v } := by
  cases hx with
  | @plain s' ht hs' x =>
      obtain ⟨hplain, hstorage⟩ := ofColumn_of_plain ht
      rw [statement?_of_storage (p := .ofColumn c) hc (hstorage.trans hs'), hplain] at hs
      obtain rfl := Option.some.inj hs
      refine ⟨s'.base.encode x, rfl, ?_⟩
      have hfield' : Γ.field (Property.ofColumn c).name = some (.plain s' x) := hfield
      simp [step, Statement.field, hfield', Property.keyText]
  | @optional t s' ht hs' x =>
      obtain ⟨hoptional, hstorage⟩ := ofColumn_of_optional ht
      rw [statement?_of_storage (p := .ofColumn c) hc (hstorage.trans hs'), hoptional] at hs
      obtain rfl := Option.some.inj hs
      refine ⟨x.elim .null s'.base.encode, rfl, ?_⟩
      have hfield' : Γ.field (Property.ofColumn c).name = some (.optional s' x) := hfield
      cases x with
      | none => simp [step, Statement.field, hfield', Property.keyText, Row.putNull]
      | some x => simp [step, Statement.field, hfield', Property.keyText]

/-- A statement with an adapter puts what the adapter makes of the field. -/
theorem step_of_adapter (hΓ : Γ.Suits cs) {c : Column} (hc : c ∈ cs) {t : Ty}
    (ht : c.setting.adapter = some t) {s : Statement}
    (hs : statement? (adaptersOf (cs.map .ofColumn)) (.ofColumn c) = some s) {st : State σ α}
    (hst : Stocked Γ (adaptersOf (cs.map .ofColumn)) st.adapters) :
    ∃ v as, step Γ st s = some ⟨st.row.put (Property.ofColumn c).keyText v, as⟩ ∧
      Stocked Γ (adaptersOf (cs.map .ofColumn)) as := by
  have hmem : Property.ofColumn c ∈ cs.map .ofColumn := List.mem_map_of_mem hc
  obtain ⟨i, u, hi, hu, hut⟩ := exists_number? hmem ht
  rw [statement?_of_adapter (p := .ofColumn c) ht, hi] at hs
  obtain rfl := Option.some.inj hs
  obtain ⟨x, hfield, -⟩ := hΓ.field c hc
  obtain ⟨a, ha, hadapter⟩ := hst.getElem? hu
  -- the adapter was made for a column whose type is written alike, perhaps another one
  obtain ⟨p, hp, hpu⟩ := mem_of_mem_adaptersOf (List.mem_of_getElem? hu)
  obtain ⟨d, hd, rfl⟩ := List.mem_map.1 hp
  obtain ⟨a', ha', hputs⟩ := hΓ.adapter d hd u hpu
  obtain rfl : a' = a.adapter := Option.some.inj (ha'.symm.trans hadapter)
  obtain ⟨state', v, hwrite⟩ := hputs c hc t x ht hut.symm hfield a.state st.row
  refine ⟨v, st.adapters.set i { a with state := state' }, ?_, hst.set ha state'⟩
  have hfield' : Γ.field (Property.ofColumn c).name = some x := hfield
  simp only [Property.keyText] at hwrite
  simp [step, Statement.field, hfield', ha, hwrite, Property.keyText]

/-- The statement of a column puts an entry for it. -/
theorem step_of_column (hΓ : Γ.Suits cs) {c : Column} (hc : c ∈ cs) {s : Statement}
    (hs : statement? (adaptersOf (cs.map .ofColumn)) (.ofColumn c) = some s) {st : State σ α}
    (hst : Stocked Γ (adaptersOf (cs.map .ofColumn)) st.adapters) :
    ∃ e as, Enters Γ c e ∧ step Γ st s = some ⟨st.row.put e.1 e.2, as⟩ ∧
      Stocked Γ (adaptersOf (cs.map .ofColumn)) as := by
  cases ha : c.setting.adapter with
  | some t =>
      obtain ⟨v, as, hstep, hstock⟩ := step_of_adapter hΓ hc ha hs hst
      exact ⟨⟨_, v⟩, as, ⟨rfl, by simp [ha]⟩, hstep, hstock⟩
  | none =>
      obtain ⟨x, hfield, htype⟩ := hΓ.field c hc
      obtain ⟨v, hv, hstep⟩ := step_of_type ha hs hfield (htype ha) st
      exact ⟨⟨_, v⟩, st.adapters, ⟨rfl, fun _ => ⟨x, hfield, htype ha, hv⟩⟩, hstep, hst⟩

/-- The statements of columns put an entry for each, in order. -/
theorem steps_of_columns (hΓ : Γ.Suits cs) {ds : List Column} (hds : ∀ d ∈ ds, d ∈ cs)
    {ss : List Statement}
    (hss : List.Forall₂ (fun d s =>
      statement? (adaptersOf (cs.map .ofColumn)) (.ofColumn d) = some s) ds ss) {st : State σ α}
    (hst : Stocked Γ (adaptersOf (cs.map .ofColumn)) st.adapters) :
    ∃ es st', List.Forall₂ (Enters Γ) ds es ∧ steps Γ st ss = some st' ∧
      st'.row = st.row.putEntries es := by
  induction hss generalizing st with
  | nil => exact ⟨[], st, List.Forall₂.nil, rfl, rfl⟩
  | @cons d s ds ss hs _ ih =>
      obtain ⟨e, as, he, hstep, hstock⟩ := step_of_column hΓ (hds d List.mem_cons_self) hs hst
      have htail : ∀ d' ∈ ds, d' ∈ cs := fun d' hd' => hds d' (List.mem_cons_of_mem d hd')
      have hnext : Stocked Γ _ (⟨st.row.put e.1 e.2, as⟩ : State σ α).adapters := hstock
      obtain ⟨es, st', hes, hsteps, hrow⟩ := ih htail hnext
      refine ⟨e :: es, st', List.Forall₂.cons he hes, ?_, hrow⟩
      rw [steps, hstep]
      exact hsteps

/-! ## Keys -/

/-- The key of a statement is that of its property. -/
theorem key_of_statement? {p : Property} {s : Statement} (h : statement? ts p = some s) :
    s.key = p.key.val := by
  unfold statement? at h
  split at h
  · obtain ⟨i, -, rfl⟩ := Option.map_eq_some_iff.1 h
    rfl
  · obtain ⟨t, -, rfl⟩ := Option.map_eq_some_iff.1 h
    split <;> rfl

theorem map_key_of_columns {ss : List Statement}
    (h : List.Forall₂ (fun p s => statement? ts p = some s) (cs.map .ofColumn) ss) :
    ss.map Statement.key = cs.map fun c => (Property.ofColumn c).key.val := by
  refine Eq.symm ?_
  rw [← List.forall₂_eq_eq_eq, List.forall₂_map_left_iff, List.forall₂_map_right_iff]
  exact (List.forall₂_map_left_iff.1 h).imp fun c s hs => (key_of_statement? hs).symm

/-- The keys in the statements have no suffix if those of the columns have none. -/
theorem suffixed_iff_of_columns {ss : List Statement}
    (h : List.Forall₂ (fun p s => statement? ts p = some s) (cs.map .ofColumn) ss) :
    (∀ s ∈ ss, Literal.isSuffixed s.key.token = false) ↔
      ∀ c ∈ cs, Literal.isSuffixed (Property.ofColumn c).key.val.token = false := by
  have hall := List.forall_mem_map (f := Statement.key) (l := ss)
    (P := fun k => Literal.isSuffixed k.token = false)
  rw [← hall, map_key_of_columns h, List.forall_mem_map]

/-! ## Bodies -/

/-- The keys that columns enter a row with are their own, in order. -/
theorem keys_of_enters {es : Entries} (h : List.Forall₂ (Enters Γ) cs es) :
    es.keys = cs.map fun c => (Property.ofColumn c).keyText := by
  induction h with
  | nil => rfl
  | cons he _ ih => rw [Entries.keys_cons, List.map_cons, he.1, ih]

/-- The columns of a row are found under their keys. -/
theorem get?_of_enters {row : Row} (h : List.Forall₂ (Enters Γ) cs row.toList) {c : Column}
    (hc : c ∈ cs) : ∃ v, row.get? (Property.ofColumn c).keyText = some v ∧
      Enters Γ c ((Property.ofColumn c).keyText, v) := by
  obtain ⟨i, hi⟩ := List.mem_iff_getElem?.1 hc
  obtain ⟨e, he, hmem⟩ : ∃ e, Enters Γ c e ∧ e ∈ row.toList := by
    obtain ⟨hlt, rfl⟩ := List.getElem?_eq_some_iff.1 hi
    have hlt' : i < row.toList.length := h.length_eq ▸ hlt
    exact ⟨row.toList[i], h.get hlt hlt', List.getElem_mem hlt'⟩
  obtain ⟨k, v⟩ := e
  obtain rfl : k = (Property.ofColumn c).keyText := he.1
  exact ⟨v, (Entries.get?_eq_some_iff row.nodup_keys).2 hmem, he⟩

/-- A body for the columns of a record makes a row of their entries. -/
theorem run_of_columns (hΓ : Γ.Suits cs) (hkeys : (cs.map fun c => (Property.ofColumn c).keyText).Nodup)
    {ss : List Statement}
    (hss : List.Forall₂ (fun p s => statement? (adaptersOf (cs.map .ofColumn)) p = some s)
      (cs.map .ofColumn) ss) :
    ∃ row, run Γ ⟨adaptersOf (cs.map .ofColumn), ss⟩ = some row ∧
      List.Forall₂ (Enters Γ) cs row.toList := by
  have hknown : ∀ t ∈ adaptersOf (cs.map .ofColumn), ∃ a, Γ.adapter t.text = some a := by
    intro t ht
    obtain ⟨p, hp, hpt⟩ := mem_of_mem_adaptersOf ht
    obtain ⟨c, hc, rfl⟩ := List.mem_map.1 hp
    obtain ⟨a, ha, -⟩ := hΓ.adapter c hc t hpt
    exact ⟨a, ha⟩
  obtain ⟨as, has, hstock⟩ := exists_instances hknown
  have hstart : Stocked Γ _ (⟨Row.empty, as⟩ : State σ α).adapters := hstock
  obtain ⟨es, st', hes, hsteps, hrow⟩ :=
    steps_of_columns hΓ (fun d hd => hd) (List.forall₂_map_left_iff.1 hss) hstart
  refine ⟨st'.row, by simp [run, has, hsteps], ?_⟩
  have hnodup : (Entries.keys es).Nodup := by rwa [keys_of_enters hes]
  have hlist : st'.row.toList = es := by rw [hrow, ← Row.ofList, Row.toList_ofList hnodup]
  rwa [hlist]

/-- The statements that are written for the properties of a record, which are those in every method that
implements a getter by them, have a result unless the key of a column has a suffix. Their result is a row
that has one entry for each column, in the order of the columns and under their keys. A column without an
adapter has there what its field holds, and the row gives it back at its type. -/
theorem run_of_record {r : Record} {ps : List Property} (hps : Property.ofRecord r = .ok ps)
    (hΓ : Γ.Suits r.columns) :
    ∃ row bindings insertions last,
      Lists ps row bindings insertions last ∧
      (∀ m : Method, m.implement ps = .ok (m.tokens ++
          [Token.enclose .brace (row :: (bindings ++ insertions ++ [last])).flatten]) ∨
        ∃ e, m.implement ps = .error (.unreadable e)) ∧
      ((∃ o, Code.run? Γ (row :: (bindings ++ insertions ++ [last])) = some o) ↔
        ∀ c ∈ r.columns, Literal.isSuffixed (Property.ofColumn c).key.val.token = false) ∧
      ∀ o, Code.run? Γ (row :: (bindings ++ insertions ++ [last])) = some o →
        o.row.keys = r.columns.map (fun c => (Property.ofColumn c).keyText) ∧
        o.row.size = r.columns.length ∧
        ∀ c ∈ r.columns, c.setting.adapter = none →
          ∃ x, Γ.field c.name.val = some x ∧ x.OfType c.ty.val ∧
            x.StoredIn o.row (Property.ofColumn c).keyText := by
  obtain ⟨hstorable, hnodup, rfl⟩ := Property.ofRecord_eq_ok_iff.1 hps
  obtain ⟨ss, hbody, hss⟩ := exists_ofProperties hstorable
  have hkeys : (r.columns.map fun c => (Property.ofColumn c).keyText).Nodup := by
    rwa [List.map_map] at hnodup
  obtain ⟨row, hrun, hrow⟩ := run_of_columns hΓ hkeys hss
  have hsuffixed := suffixed_iff_of_columns hss
  have hrun? : (∀ c ∈ r.columns, Literal.isSuffixed (Property.ofColumn c).key.val.token = false) →
      ∃ made, Code.run? Γ (Body.lines ⟨adaptersOf (r.columns.map .ofColumn), ss⟩) = some ⟨row, made⟩ :=
    fun h => Code.exists_run?_of_run (hsuffixed.2 h) hrun
  have hnone : (∃ o, Code.run? Γ (Body.lines ⟨adaptersOf (r.columns.map .ofColumn), ss⟩) = some o) →
      ∀ c ∈ r.columns, Literal.isSuffixed (Property.ofColumn c).key.val.token = false := by
    rintro ⟨o, ho⟩
    refine hsuffixed.1 fun s hs => Bool.eq_false_iff.2 fun hk => ?_
    rw [Code.run?_suffixed hs hk] at ho
    cases ho
  have hlines := Body.lines_eq ⟨adaptersOf (r.columns.map .ofColumn), ss⟩
  refine ⟨_, _, _, _, lists_of_ofProperties hbody, ?_, ?_, ?_⟩
  · rw [← hlines]
    exact Method.implement_of_ofProperties hbody
  · rw [← hlines]
    exact ⟨hnone, fun h => (hrun? h).elim fun _ h => ⟨_, h⟩⟩
  · rw [← hlines]
    intro o ho
    obtain ⟨made, hmade⟩ := hrun? (hnone ⟨o, ho⟩)
    obtain rfl := Option.some.inj (hmade.symm.trans ho)
    refine ⟨keys_of_enters hrow, hrow.length_eq.symm, fun c hc hc' => ?_⟩
    obtain ⟨v, hv, henters⟩ := get?_of_enters hrow hc
    obtain ⟨x, hx, htype, hvalue⟩ := henters.2 hc'
    exact ⟨x, hx, htype, FieldValue.storedIn_of_get? hvalue hv⟩

end Body

namespace Sample

/-- A column without a place in any source. -/
def column (name : Name) (ty : Ty) (setting : Setting) : Column :=
  ⟨⟨name, .nowhere⟩, ⟨ty, .nowhere⟩, setting⟩

/-- A record with a column of each kind: adapted, borrowed and renamed, and optional. -/
def member : Record where
  name := ⟨"Member", .nowhere⟩
  generics := ⟨none, none⟩
  methods := []
  columns :=
    [column ⟨"joined", by decide⟩ (.path false [] (.bare "SystemTime"))
        ⟨none, some (.path false [] (.bare "EpochMillis"))⟩,
      column ⟨"label", by decide⟩ (.reference (some "a") false (.path false [] (.bare "str")))
        ⟨some ⟨.ofText "title", .nowhere⟩, none⟩,
      column ⟨"age", by decide⟩
        (.path false [] (.generic "Option" false [.type (.path false [] (.bare "i32"))] false)) .none]

/-- What the fields of a member hold. -/
def memberField (x : Name) : Option FieldValue :=
  if x.text = "joined" then some (.foreign ⟨1, 0⟩)
  else if x.text = "label" then some (.plain .textRef "chair")
  else if x.text = "age" then some (.optional (.owned .i32) none)
  else none

theorem putsOnce_epochMillis (k : String) (t : Instant) : epochMillis.PutsOnce k (.foreign t) :=
  fun state _ => ⟨state, _, rfl⟩

/-- The adapters of the samples suit a member. -/
theorem suits_member : Surroundings.Suits ⟨memberField, adapter?⟩ member.columns where
  field := by
    intro c hc
    simp only [member, List.mem_cons, List.not_mem_nil, or_false] at hc
    rcases hc with rfl | rfl | rfl
    · exact ⟨_, rfl, fun h => by cases h⟩
    · exact ⟨.plain .textRef "chair", rfl, fun _ => .plain rfl rfl _⟩
    · exact ⟨.optional (.owned .i32) none, rfl, fun _ => .optional rfl rfl _⟩
  adapter := by
    intro c hc t ht
    simp only [member, List.mem_cons, List.not_mem_nil, or_false] at hc
    rcases hc with rfl | rfl | rfl
    · obtain rfl := Option.some.inj ht
      refine ⟨epochMillis, rfl, ?_⟩
      intro d hd u x hu _ hx
      simp only [member, List.mem_cons, List.not_mem_nil, or_false] at hd
      rcases hd with rfl | rfl | rfl
      · obtain rfl := Option.some.inj hx
        exact putsOnce_epochMillis _ _
      · cases hu
      · cases hu
    · cases ht
    · cases ht

/-- The statements of the default method for a member make its row. -/
theorem run_of_member :
    ∃ ps row bindings insertions last o, Property.ofRecord member = .ok ps ∧
      Method.default.implement ps = .ok (Method.default.tokens ++
        [Token.enclose .brace (row :: (bindings ++ insertions ++ [last])).flatten]) ∧
      Code.run? ⟨memberField, adapter?⟩ (row :: (bindings ++ insertions ++ [last])) = some o ∧
      o.row.keys = ["joined", "title", "age"] ∧ o.row.size = 3 ∧
      ∀ c ∈ member.columns, c.setting.adapter = none →
        ∃ x, memberField c.name.val = some x ∧ x.OfType c.ty.val ∧
          x.StoredIn o.row (Property.ofColumn c).keyText := by
  have hps : Property.ofRecord member = .ok (member.columns.map .ofColumn) := by decide +kernel
  have hmade : (Method.default.implement (member.columns.map .ofColumn)).toOption.isSome := by
    decide +kernel
  have hkeys : ∀ c ∈ member.columns,
      Literal.isSuffixed (Property.ofColumn c).key.val.token = false := by decide +kernel
  obtain ⟨row, bindings, insertions, last, -, himplement, hrun, hrow⟩ :=
    Body.run_of_record hps suits_member
  obtain ⟨o, ho⟩ := hrun.2 hkeys
  obtain ⟨hrowKeys, hsize, hstored⟩ := hrow o ho
  refine ⟨_, row, bindings, insertions, last, o, hps, ?_, ho, hrowKeys, hsize, hstored⟩
  refine (himplement Method.default).resolve_right ?_
  rintro ⟨e, he⟩
  rw [he] at hmade
  cases hmade

/-- A record whose key has a suffix. -/
def suffixed : String := declare "S" ["#[column(name = \"a\"x)] b: i32"]

/-- What its field holds. -/
def suffixedField (_ : Name) : Option FieldValue := some (.plain (.owned .i32) (1 : Int32))

/-- The record is accepted and the method for it is made, but the statements in it have no result. -/
theorem not_run_suffixed :
    ∃ r ps b, Record.ofText? suffixed = some r ∧ Property.ofRecord r = .ok ps ∧
      ps.map Property.keyText = ["a"] ∧
      Surroundings.Suits ⟨suffixedField, adapter?⟩ r.columns ∧ Body.ofProperties ps = .ok b ∧
      Method.default.implement ps =
        .ok (Method.default.tokens ++ [Token.enclose .brace b.lines.flatten]) ∧
      b.statements.map (fun s => Token.listText s.tokens) = ["values . put (\"a\"x , & self . b) ;"] ∧
      Code.run? ⟨suffixedField, adapter?⟩ b.lines = none := by
  have hcheck : (Record.ofText? suffixed).any fun r =>
      (Property.ofRecord r).toOption.any fun ps => (Body.ofProperties ps).toOption.any fun b =>
        ps.map Property.keyText = ["a"] ∧
          (Method.default.implement ps).toOption.isSome ∧
          b.statements.map (fun s => Token.listText s.tokens) =
            ["values . put (\"a\"x , & self . b) ;"] ∧
          (Code.run? ⟨suffixedField, adapter?⟩ b.lines).isNone ∧
          ∀ c ∈ r.columns, c.setting.adapter = none ∧ c.ty.val.optionInner? = none ∧
            c.ty.val.storage? = some (.owned .i32) := by decide +kernel
  obtain ⟨r, hr, hcheck⟩ := (Option.any_eq_true _ _).1 hcheck
  obtain ⟨ps, hps, hcheck⟩ := (Option.any_eq_true _ _).1 hcheck
  obtain ⟨b, hb, hcheck⟩ := (Option.any_eq_true _ _).1 hcheck
  obtain ⟨hkeys, hmade, htexts, hnone, hcolumns⟩ := of_decide_eq_true hcheck
  have hb := eq_ok_of_toOption hb
  refine ⟨r, ps, b, hr, eq_ok_of_toOption hps, hkeys, ?_, hb, ?_, htexts, Option.isNone_iff_eq_none.1 hnone⟩
  · refine ⟨fun c hc => ?_, fun c hc t ht => ?_⟩
    · obtain ⟨-, hplain, hstorage⟩ := hcolumns c hc
      exact ⟨_, rfl, fun _ => .plain hplain hstorage _⟩
    · rw [(hcolumns c hc).1] at ht
      cases ht
  · refine (Method.implement_of_ofProperties hb Method.default).resolve_right ?_
    rintro ⟨e, he⟩
    rw [he] at hmade
    cases hmade

end Sample

end RowDerive
