import RowDerive.Code.Run
import RowDerive.Proofs.Body.Numbering
import RowDerive.Proofs.Body.Parts
import RowDerive.Proofs.Code.Reading
import RowDerive.Proofs.Token.Number

/-!
# Bodies run as code

What a body is printed as does what the body does: a state of the body is kept by a store, in which the
row and the adapters are locals, and each statement takes such a store to one of the next state. A key
that stands there with a suffix has no result.
-/

namespace RowDerive

open Token Code

namespace Code

variable {σ α : Type} {Γ : Surroundings σ α} {st : Body.State σ α} {store : Store σ α}

/-! ## Literals -/

theorem literal?_usize (n : Nat) : literal? (σ := σ) (α := α) s!"{n}usize" = some (.number n) := by
  rw [literal?, Literal.string?_usize, Literal.integer?_usize]
  rfl

/-! ## Stores -/

@[simp] theorem Store.bind_self (store : Store σ α) (x : String) (b : Binding σ α) :
    (store.bind x b).names x = some b := if_pos rfl

theorem Store.bind_of_ne {x y : String} (h : y ≠ x) (b : Binding σ α) :
    (store.bind x b).names y = store.names y := if_neg h

theorem Store.leave_of_notMem {x : String} {xs : List String} (h : x ∉ xs) (outer inner : Store σ α) :
    (outer.leave inner xs).names x = inner.names x := if_neg h

/-- The store keeps the state of a body: the row is a local, which can be written to if `mutable`, and
so is each adapter under its name. -/
structure Keeps (mutable : Bool) (st : Body.State σ α) (store : Store σ α) : Prop where
  row : store.names "values" = some ⟨mutable, .row st.row⟩
  adapter : ∀ i, store.names (adapterName i) = st.adapters[i]?.map fun a => ⟨false, .adapter a⟩

namespace Keeps

theorem put (h : Keeps true st store) (row : Row) :
    Keeps true { st with row := row } (store.bind "values" ⟨true, .row row⟩) where
  row := Store.bind_self ..
  adapter i := by
    rw [Store.bind_of_ne (adapterName_ne (by decide) i)]
    exact h.adapter i

/-- A change of an adapter is a change of its local. -/
theorem set (h : Keeps true st store) {i : Nat} {a : Instance σ α} (ha : st.adapters[i]? = some a)
    (b : Instance σ α) :
    Keeps true { st with adapters := st.adapters.set i b }
      (store.bind (adapterName i) ⟨false, .adapter b⟩) where
  row := by
    rw [Store.bind_of_ne (adapterName_ne (by decide) i).symm]
    exact h.row
  adapter j := by
    by_cases hij : j = i
    · subst hij
      have hlt : j < st.adapters.length := (List.getElem?_eq_some_iff.1 ha).1
      simp [List.getElem?_set_self hlt]
    · have hne : adapterName j ≠ adapterName i := fun hn => hij (adapterName_injective hn)
      rw [Store.bind_of_ne hne, h.adapter j, List.getElem?_set_ne (Ne.symm hij)]

/-- The local of a block is no local of the body. -/
theorem bindValue {m : Bool} (h : Keeps m st store) (b : Binding σ α) :
    Keeps m st (store.bind "value" b) where
  row := by
    rw [Store.bind_of_ne (by decide)]
    exact h.row
  adapter i := by
    rw [Store.bind_of_ne (adapterName_ne (by decide) i)]
    exact h.adapter i

theorem leave {m : Bool} {inner : Store σ α} (h : Keeps m st inner) (outer : Store σ α)
    {xs : List String} (hxs : xs ⊆ ["value"]) : Keeps m st (outer.leave inner xs) where
  row := by
    rw [Store.leave_of_notMem fun hmem => absurd (hxs hmem) (by decide)]
    exact h.row
  adapter i := by
    have hi : adapterName i ∉ xs := fun hmem =>
      adapterName_ne (by decide) i (List.mem_singleton.1 (hxs hmem))
    rw [Store.leave_of_notMem hi]
    exact h.adapter i

end Keeps

/-! ## Operands and calls -/

theorem ofText?_text (f : Name) : Name.ofText? f.text = some f := dif_pos f.plain_ne

theorem eval?_borrow {x : String} {b : Binding σ α} (hx : store.names x = some b) {mutable : Bool}
    (hmutable : mutable = true → b.mutable = true) :
    (Operand.borrow mutable x).eval? Γ store = some (.place mutable x) := by
  rw [Operand.eval?, hx, Option.bind_some, if_neg]
  simpa using hmutable

theorem eval?_literal {k : StringLiteral} (hk : Literal.isSuffixed k.token = false) :
    (Operand.literal k.token).eval? Γ store = some (.text k.value) := by
  rw [Operand.eval?, literal?, StringLiteral.string?_token]
  simp [hk]

theorem eval?_borrowField {f : Name} {x : FieldValue α} (hf : Γ.field f = some x) :
    (Operand.borrowField f.text).eval? Γ store = some (.reference x) := by
  simp [Operand.eval?, ofText?_text, hf]

theorem eval?_field {f : Name} {x : FieldValue α} (hf : Γ.field f = some x) :
    (Operand.field f.text).eval? Γ store = some (.held x) := by
  simp [Operand.eval?, ofText?_text, hf]

/-- A value that can be stored is put into the row. -/
theorem eval?_put (h : Keeps true st store) {k : StringLiteral}
    (hk : Literal.isSuffixed k.token = false) {e : Operand} {d : Datum σ α} {v : Value}
    (he : e.eval? Γ store = some d) (hd : d.value? = some v) :
    (Expr.method "values" "put" [.literal k.token, e]).eval? Γ store =
      some (.unit, store.bind "values" ⟨true, .row (st.row.put k.value v)⟩) := by
  have hargs : [.literal k.token, e].mapM (Operand.eval? Γ store) = some [.text k.value, d] := by
    simp [eval?_literal hk, he]
  rw [Expr.eval?, hargs, Option.bind_some, method?, h.row]
  simp [hd]

theorem eval?_putNull (h : Keeps true st store) {k : StringLiteral}
    (hk : Literal.isSuffixed k.token = false) :
    (Expr.method "values" "put_null" [.literal k.token]).eval? Γ store =
      some (.unit, store.bind "values" ⟨true, .row (st.row.putNull k.value)⟩) := by
  have hargs : [.literal k.token].mapM (Operand.eval? Γ store) = some [.text k.value] := by
    simp [eval?_literal hk]
  rw [Expr.eval?, hargs, Option.bind_some, method?, h.row]
  simp

/-! ## Statements -/

theorem exec?_tokens (s : Statement) (store : Store σ α) :
    exec? Γ store s.tokens = s.line.exec? Γ store := by
  rw [exec?, s.read?_tokens, Option.bind_some]

theorem exec?_adapted (h : Keeps true st store) {i : Nat} {k : StringLiteral} {f : Name}
    (hk : Literal.isSuffixed k.token = false) {x : FieldValue α} (hf : Γ.field f = some x)
    {a : Instance σ α} (ha : st.adapters[i]? = some a) {state : σ} {row : Row}
    (hwrite : a.adapter.write a.state st.row k.value x = some (state, row)) :
    exec? Γ store (Statement.adapted i k f).tokens =
      some ((store.bind (adapterName i) ⟨false, .adapter { a with state := state }⟩).bind "values"
        ⟨true, .row row⟩) := by
  have hlocal : store.names (adapterName i) = some ⟨false, .adapter a⟩ := by
    rw [h.adapter, ha, Option.map_some]
  have hargs : [.borrow false (adapterName i), .borrow true "values", .literal k.token,
      .borrowField f.text].mapM (Operand.eval? Γ store) =
        some [.place false (adapterName i), .place true "values", .text k.value, .reference x] := by
    simp [eval?_borrow hlocal, eval?_borrow h.row, eval?_literal hk, eval?_borrowField hf]
  rw [exec?_tokens, Statement.line, Line.exec?, Command.exec?, Expr.eval?, hargs, Option.bind_some,
    call?, hlocal, h.row]
  simp [hwrite]

theorem exec?_direct (h : Keeps true st store) {k : StringLiteral} {f : Name}
    (hk : Literal.isSuffixed k.token = false) {s : Storage} {x : s.base.Carrier}
    (hf : Γ.field f = some (.plain s x)) :
    exec? Γ store (Statement.direct k f (!s.byRef)).tokens =
      some (store.bind "values" ⟨true, .row (st.row.put k.value (s.base.encode x))⟩) := by
  rw [exec?_tokens, Statement.line, Line.exec?, Command.exec?]
  cases hs : s.byRef with
  | false =>
      have hvalue : (Datum.reference (σ := σ) (.plain s x : FieldValue α)).value? =
        some (s.base.encode x) := by simp [Datum.value?, hs]
      rw [Bool.not_false, if_pos rfl, eval?_put h hk (eval?_borrowField hf) hvalue]
      rfl
  | true =>
      have hvalue : (Datum.held (σ := σ) (.plain s x : FieldValue α)).value? =
        some (s.base.encode x) := by simp [Datum.value?, hs]
      rw [Bool.not_true, if_neg Bool.false_ne_true, eval?_put h hk (eval?_field hf) hvalue]
      rfl

/-- What the branch for a value hands on can be put: the value itself if it is a reference. -/
theorem exists_eval?_value (store : Store σ α) (s : Storage) (x : s.base.Carrier) :
    ∃ d, (if s.byRef then Operand.deref "value" else .name "value").eval? Γ
        (store.bind "value" ⟨false, .reference (.plain s x)⟩) = some d ∧
      d.value? = some (s.base.encode x) := by
  cases hs : s.byRef with
  | false => exact ⟨.reference (.plain s x), by simp [Operand.eval?], by simp [Datum.value?, hs]⟩
  | true => exact ⟨.held (.plain s x), by simp [Operand.eval?], by simp [Datum.value?, hs]⟩

/-- The branch for a value puts it, and the branch for none puts null. -/
theorem exists_choose? (h : Keeps true st store) {k : StringLiteral}
    (hk : Literal.isSuffixed k.token = false) (s : Storage) (x : Option s.base.Carrier) :
    ∃ store', choose? Γ store s x
        [⟨["core", "option", "Option", "Some"], some "value", .method "values" "put"
            [.literal k.token, if s.byRef then .deref "value" else .name "value"]⟩,
          ⟨["core", "option", "Option", "None"], none,
            .method "values" "put_null" [.literal k.token]⟩] = some store' ∧
      Keeps true { st with row := st.row.put k.value (x.elim .null s.base.encode) } store' := by
  cases x with
  | some x =>
      obtain ⟨d, hd, hvalue⟩ := exists_eval?_value (Γ := Γ) store s x
      have hbound := h.bindValue ⟨false, .reference (.plain s x)⟩
      have hput := eval?_put hbound hk hd hvalue
      refine ⟨_, ?_, (hbound.put _).leave store (List.Subset.refl _)⟩
      simp only [choose?, Arm.enter?, hput]
      rfl
  | none =>
      refine ⟨_, ?_, (h.put _).leave store (List.nil_subset _)⟩
      simp only [choose?, Arm.enter?, eval?_putNull h hk]
      rfl

theorem exists_exec?_optional (h : Keeps true st store) {k : StringLiteral} {f : Name}
    (hk : Literal.isSuffixed k.token = false) {s : Storage} {x : Option s.base.Carrier}
    (hf : Γ.field f = some (.optional s x)) :
    ∃ store', exec? Γ store (Statement.optional k f s.byRef).tokens = some store' ∧
      Keeps true { st with row := st.row.put k.value (x.elim .null s.base.encode) } store' := by
  have hbound := h.bindValue ⟨false, .reference (.optional s x)⟩
  obtain ⟨inner, hinner, hkeeps⟩ := exists_choose? (Γ := Γ) hbound hk s x
  refine ⟨_, ?_, hkeeps.leave store (List.Subset.refl _)⟩
  rw [exec?_tokens, Statement.line, Line.exec?]
  simp [Line.execAll?, Command.exec?, Expr.eval?, eval?_borrowField hf, hinner]
  rfl

/-- A statement that takes a state to another takes a store that keeps the one to a store that keeps the
other. -/
theorem exists_exec?_of_step (h : Keeps true st store) {s : Statement} {st' : Body.State σ α}
    (hk : Literal.isSuffixed s.key.token = false) (hstep : Body.step Γ st s = some st') :
    ∃ store', exec? Γ store s.tokens = some store' ∧ Keeps true st' store' := by
  obtain ⟨x, hx, hstep⟩ := Option.bind_eq_some_iff.1 hstep
  cases s with
  | adapted i k f =>
      obtain ⟨a, ha, hstep⟩ := Option.bind_eq_some_iff.1 hstep
      obtain ⟨⟨state, row⟩, hwrite, hstep⟩ := Option.bind_eq_some_iff.1 hstep
      obtain rfl := Option.some.inj hstep
      exact ⟨_, exec?_adapted h hk hx ha hwrite, (h.set ha _).put row⟩
  | optional k f deref =>
      cases x with
      | optional s x =>
          obtain ⟨store', hexec, hkeeps⟩ := exists_exec?_optional h hk hx
          by_cases hderef : deref = s.byRef
          · subst hderef
            refine ⟨store', hexec, ?_⟩
            cases x <;> simp at hstep <;> exact hstep ▸ hkeeps
          · simp [hderef] at hstep
      | plain | foreign => cases hstep
  | direct k f borrow =>
      cases x with
      | plain s x =>
          by_cases hborrow : borrow = !s.byRef
          · subst hborrow
            obtain rfl : _ = st' := by simpa using hstep
            exact ⟨_, exec?_direct h hk hx, h.put _⟩
          · simp [hborrow] at hstep
      | optional | foreign => cases hstep

/-! ## Keys with a suffix -/

theorem mapM_eq_none {β γ : Type} {f : β → Option γ} {xs : List β} {x : β} (hx : x ∈ xs)
    (hf : f x = none) : xs.mapM f = none := by
  induction xs with
  | nil => cases hx
  | cons y xs ih =>
      rcases List.mem_cons.1 hx with rfl | hx
      · simp [hf]
      · simp [ih hx]

theorem eval?_suffixed {k : StringLiteral} (hk : Literal.isSuffixed k.token = true)
    (store : Store σ α) : (Operand.literal k.token).eval? Γ store = none := by
  rw [Operand.eval?, literal?, StringLiteral.string?_token]
  simp [hk]

theorem choose?_eq_none {arms : List Arm}
    (h : ∀ a ∈ arms, ∀ inner, a.value.eval? Γ inner = none) (store : Store σ α) (s : Storage)
    (x : Option s.base.Carrier) : choose? Γ store s x arms = none := by
  induction arms with
  | nil => rfl
  | cons a arms ih =>
      obtain ⟨ha, harms⟩ := List.forall_mem_cons.1 h
      rw [choose?]
      split
      · simp [ha]
      · exact ih harms

/-- A key with a suffix is no expression, so that the statement has no result. -/
theorem exec?_suffixed {s : Statement} (hk : Literal.isSuffixed s.key.token = true)
    (store : Store σ α) : exec? Γ store s.tokens = none := by
  have hmethod : ∀ f args (inner : Store σ α), .literal s.key.token ∈ args →
      (Expr.method "values" f args).eval? Γ inner = none := by
    intro f args inner hmem
    rw [Expr.eval?, mapM_eq_none hmem (eval?_suffixed hk inner), Option.bind_none]
  rw [exec?_tokens]
  cases s with
  | adapted i k f =>
      rw [Statement.line, Line.exec?, Command.exec?, Expr.eval?,
        mapM_eq_none (by simp) (eval?_suffixed (k := k) hk store)]
      rfl
  | optional k f deref =>
      have hnone : ∀ inner : Store σ α, Command.exec? Γ inner (.choose "value"
          [⟨["core", "option", "Option", "Some"], some "value", .method "values" "put"
              [.literal k.token, if deref then .deref "value" else .name "value"]⟩,
            ⟨["core", "option", "Option", "None"], none,
              .method "values" "put_null" [.literal k.token]⟩]) = none := by
        intro inner
        rw [Command.exec?]
        split
        · refine choose?_eq_none ?_ ..
          simp only [List.forall_mem_cons]
          exact ⟨fun inner => hmethod _ _ _ (by simp [Statement.key]),
            fun inner => hmethod _ _ _ (by simp [Statement.key]), by simp⟩
        · rfl
      simp [Statement.line, Line.exec?, Line.execAll?, hnone]
  | direct k f borrow =>
      rw [Statement.line, Line.exec?, Command.exec?, hmethod _ _ _ (by simp [Statement.key])]
      rfl

end Code

end RowDerive
