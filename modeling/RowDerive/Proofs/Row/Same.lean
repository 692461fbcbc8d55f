import Mathlib.Data.List.Perm.Subperm
import RowDerive.Proofs.Row.Merge

/-!
# Rows that are the same

Values are compared as numbers where they are floating-point data, so nothing equals what is no number and
the two zeros are equal. Rows are compared from one side only, by their sizes and by what is found under
the columns of the first. As columns are distinct, this is the comparison of both rows under every column,
whatever their orders; it is a partial equivalence, and everything that is done to rows respects it.
-/

namespace RowDerive

/-! ## Values -/

namespace Decimal

theorem power_mul (b m n : Nat) : power b (m + n) = power b m * power b n := Nat.pow_add b m n

/-- A zero is a number. -/
theorem isNaN_of_isZero {w : Width} {bits : Nat} (hw : 0 < w.exponent) (h : isZero w bits = true) :
    isNaN w bits = false := by
  have hbits : bits % (power 2 w.fraction * power 2 w.exponent) = 0 := by
    rw [← power_mul]
    exact beq_iff_eq.1 h
  have hfield : bits / power 2 w.fraction % power 2 w.exponent = 0 := by
    rw [← Nat.mod_mul_right_div_self, hbits, Nat.zero_div]
  have htop : (0 == power 2 w.exponent - 1) = false := by
    have hpower : 1 < power 2 w.exponent := Nat.one_lt_two_pow (Nat.ne_of_gt hw)
    rw [beq_eq_false_iff_ne]
    omega
  simp only [isNaN, Reading.ofBits, hfield, htop]
  rfl

theorem same_iff {w : Width} (hw : 0 < w.exponent) (a b : Nat) :
    same w a b = true ↔ (a = b ∧ isNaN w a = false) ∨ (isZero w a = true ∧ isZero w b = true) := by
  simp only [same, Bool.and_eq_true, Bool.or_eq_true, Bool.not_eq_true', beq_iff_eq]
  constructor
  · rintro ⟨⟨ha, -⟩, hab | hzeros⟩
    · exact .inl ⟨hab, ha⟩
    · exact .inr hzeros
  · rintro (⟨rfl, ha⟩ | hzeros)
    · exact ⟨⟨ha, ha⟩, .inl rfl⟩
    · exact ⟨⟨isNaN_of_isZero hw hzeros.1, isNaN_of_isZero hw hzeros.2⟩, .inr hzeros⟩

end Decimal

namespace Value

/-- The values are equal as numbers, or as other data. -/
inductive Equals : Value → Value → Prop
  | refl {v : Value} (h : v.isNaN = false) : Equals v v
  | floatZeros {a b : UInt32} (ha : Decimal.isZero .single a.toNat = true)
    (hb : Decimal.isZero .single b.toNat = true) : Equals (.float a) (.float b)
  | doubleZeros {a b : UInt64} (ha : Decimal.isZero .double a.toNat = true)
    (hb : Decimal.isZero .double b.toNat = true) : Equals (.double a) (.double b)

variable {u v w : Value}

theorem same_float_iff (a b : UInt32) :
    same (.float a) (.float b) = true ↔ Equals (.float a) (.float b) := by
  rw [same, Decimal.same_iff (by decide), UInt32.toNat_inj]
  constructor
  · rintro (⟨rfl, ha⟩ | ⟨ha, hb⟩)
    · exact .refl ha
    · exact .floatZeros ha hb
  · intro h
    cases h with
    | refl h => exact .inl ⟨rfl, h⟩
    | floatZeros ha hb => exact .inr ⟨ha, hb⟩

theorem same_double_iff (a b : UInt64) :
    same (.double a) (.double b) = true ↔ Equals (.double a) (.double b) := by
  rw [same, Decimal.same_iff (by decide), UInt64.toNat_inj]
  constructor
  · rintro (⟨rfl, ha⟩ | ⟨ha, hb⟩)
    · exact .refl ha
    · exact .doubleZeros ha hb
  · intro h
    cases h with
    | refl h => exact .inl ⟨rfl, h⟩
    | doubleZeros ha hb => exact .inr ⟨ha, hb⟩

theorem same_iff (v w : Value) : v.same w = true ↔ Equals v w := by
  cases v with
  | float a =>
      cases w with
      | float b => exact same_float_iff a b
      | _ => exact ⟨fun h => (nomatch h), fun h => (nomatch h)⟩
  | double a =>
      cases w with
      | double b => exact same_double_iff a b
      | _ => exact ⟨fun h => (nomatch h), fun h => (nomatch h)⟩
  | _ =>
      refine ⟨fun h => ?_, fun h => ?_⟩
      · obtain rfl := eq_of_beq h
        exact .refl rfl
      · cases h
        exact BEq.rfl

theorem Equals.symm (h : Equals v w) : Equals w v := by
  cases h with
  | refl h => exact .refl h
  | floatZeros ha hb => exact .floatZeros hb ha
  | doubleZeros ha hb => exact .doubleZeros hb ha

theorem Equals.trans (h : Equals u v) (h' : Equals v w) : Equals u w := by
  cases h with
  | refl => exact h'
  | floatZeros ha hb =>
      cases h' with
      | refl => exact .floatZeros ha hb
      | floatZeros _ hc => exact .floatZeros ha hc
  | doubleZeros ha hb =>
      cases h' with
      | refl => exact .doubleZeros ha hb
      | doubleZeros _ hc => exact .doubleZeros ha hc

/-- A value does not equal itself if it is no number. -/
theorem equals_self_iff (v : Value) : Equals v v ↔ v.isNaN = false := by
  constructor
  · rintro (h | ⟨ha, -⟩ | ⟨ha, -⟩)
    · exact h
    · exact Decimal.isNaN_of_isZero (by decide) ha
    · exact Decimal.isNaN_of_isZero (by decide) ha
  · exact .refl

end Value

/-! ## Rows -/

namespace Row

variable {a b c : Row}

/-- Under each column stand equal values, or none in either row. -/
def Agrees (a b : Row) : Prop := ∀ k, Option.Rel Value.Equals (a.get? k) (b.get? k)

theorem option_rel_iff {α β : Type} {R : α → β → Prop} {x : Option α} {y : Option β} :
    Option.Rel R x y ↔ (x.isSome ↔ y.isSome) ∧ ∀ a b, x = some a → y = some b → R a b := by
  cases x <;> cases y <;> simp

theorem agrees_iff : Agrees a b ↔
    (∀ k, k ∈ a.keys ↔ k ∈ b.keys) ∧
      ∀ k v w, a.get? k = some v → b.get? k = some w → v.Equals w := by
  simp only [Agrees, option_rel_iff, isSome_get?_iff, forall_and]

/-- What is compared of the first row is found in the second. -/
theorem all_same_iff : (a.toList.all fun e => (b.get? e.1).any (e.2.same ·)) = true ↔
    ∀ k v, a.get? k = some v → ∃ w, b.get? k = some w ∧ v.Equals w := by
  simp only [List.all_eq_true, Option.any_eq_true, Value.same_iff, get?_eq_some_iff_mem a]
  exact ⟨fun h k v hmem => h (k, v) hmem, fun h e he => h e.1 e.2 he⟩

/-- A row is no larger than another one that has its columns, as no column occurs twice. -/
theorem perm_keys (hsize : a.size = b.size) (hkeys : ∀ k ∈ a.keys, k ∈ b.keys) : a.keys.Perm b.keys := by
  have hlength : a.keys.length = b.keys.length := by
    rw [keys, keys, Entries.keys, Entries.keys, List.length_map, List.length_map]
    exact hsize
  exact (List.subperm_of_subset a.nodup_keys hkeys).perm_of_length_le (Nat.le_of_eq hlength.symm)

/-- Rows are the same if they agree under each column. -/
theorem same_iff (a b : Row) : a.same b = true ↔ Agrees a b := by
  rw [same, Bool.and_eq_true, beq_iff_eq, all_same_iff, agrees_iff]
  constructor
  · rintro ⟨hsize, hfound⟩
    have hsub : ∀ k ∈ a.keys, k ∈ b.keys := by
      intro k hk
      obtain ⟨v, hv⟩ := Option.isSome_iff_exists.1 ((isSome_get?_iff a k).2 hk)
      obtain ⟨w, hw, -⟩ := hfound k v hv
      exact (isSome_get?_iff b k).1 (Option.isSome_iff_exists.2 ⟨w, hw⟩)
    refine ⟨fun k => (perm_keys hsize hsub).mem_iff, fun k v w hv hw => ?_⟩
    obtain ⟨w', hw', hvw⟩ := hfound k v hv
    rwa [Option.some.inj (hw.symm.trans hw')]
  · rintro ⟨hkeys, hvalues⟩
    constructor
    · have hperm := (List.perm_ext_iff_of_nodup a.nodup_keys b.nodup_keys).2 hkeys
      have hlength := hperm.length_eq
      rwa [Entries.keys, Entries.keys, List.length_map, List.length_map] at hlength
    · intro k v hv
      have hk : k ∈ a.keys := (isSome_get?_iff a k).1 (Option.isSome_iff_exists.2 ⟨v, hv⟩)
      obtain ⟨w, hw⟩ := Option.isSome_iff_exists.1 ((isSome_get?_iff b k).2 ((hkeys k).1 hk))
      exact ⟨w, hw, hvalues k v w hv hw⟩

/-! ### A partial equivalence -/

theorem Agrees.symm (h : Agrees a b) : Agrees b a := fun k => by
  have hab := h k
  generalize a.get? k = x, b.get? k = y at hab
  cases hab with
  | none => exact .none
  | some hvw => exact .some hvw.symm

theorem Agrees.trans (hab : Agrees a b) (hbc : Agrees b c) : Agrees a c := fun k => by
  have hab := hab k
  have hbc := hbc k
  generalize a.get? k = x, b.get? k = y, c.get? k = z at hab hbc
  cases hab with
  | none => exact hbc
  | some huv =>
      cases hbc with
      | some hvw => exact .some (huv.trans hvw)

/-- No value in the row is a floating-point datum that is no number. -/
def NaNFree (a : Row) : Prop := ∀ e ∈ a.toList, e.2.isNaN = false

instance (a : Row) : Decidable a.NaNFree :=
  inferInstanceAs (Decidable (∀ e ∈ a.toList, e.2.isNaN = false))

theorem agrees_self_iff (a : Row) : Agrees a a ↔ a.NaNFree := by
  rw [agrees_iff, and_iff_right fun _ => Iff.rfl]
  constructor
  · intro h e he
    have hget := (get?_eq_some_iff_mem a e.1 e.2).2 he
    exact (Value.equals_self_iff e.2).1 (h e.1 e.2 e.2 hget hget)
  · intro h k v w hv hw
    obtain rfl := Option.some.inj (hv.symm.trans hw)
    exact .refl (h (k, v) ((get?_eq_some_iff_mem a k v).1 hv))

/-! ### Congruence -/

theorem Agrees.put (h : Agrees a b) (k : String) {v : Value} (hv : v.isNaN = false) :
    Agrees (a.put k v) (b.put k v) := fun k' => by
  rw [get?_put, get?_put]
  split
  · exact .some (.refl hv)
  · exact h k'

theorem Agrees.erase (h : Agrees a b) (k : String) : Agrees (a.erase k) (b.erase k) := fun k' => by
  rw [get?_erase, get?_erase]
  split
  · exact .none
  · exact h k'

/-- What is merged in may differ too. -/
theorem Agrees.merge {d : Row} (hab : Agrees a b) (hcd : Agrees c d) :
    Agrees (a.merge c) (b.merge d) := fun k => by
  rw [get?_merge, get?_merge]
  have hcd := hcd k
  generalize c.get? k = x, d.get? k = y at hcd
  cases hcd with
  | none => exact hab k
  | some hvw => exact .some hvw

/-- The order of pairs with distinct keys does not matter. -/
theorem agrees_ofList {xs ys : Entries} (hperm : xs.Perm ys) (hnodup : xs.keys.Nodup)
    (hnan : ∀ e ∈ xs, e.2.isNaN = false) : Agrees (ofList xs) (ofList ys) := by
  have hnodup' : ys.keys.Nodup := (hperm.map Prod.fst).nodup_iff.1 hnodup
  have hget : ∀ k, (ofList xs).get? k = (ofList ys).get? k := fun k => by
    refine Option.ext fun v => ?_
    rw [get?_eq_some_iff_mem, get?_eq_some_iff_mem, toList_ofList hnodup, toList_ofList hnodup',
      hperm.mem_iff]
  have hself : Agrees (ofList xs) (ofList xs) := by
    rw [agrees_self_iff, NaNFree, toList_ofList hnodup]
    exact hnan
  exact fun k => hget k ▸ hself k

/-! ### Orders -/

/-- Rows that have the same columns in different orders. -/
def Shuffled (a b : Row) : Prop := a.keys ≠ b.keys ∧ ∀ k, k ∈ a.keys ↔ k ∈ b.keys

/-- Orders that differ differ still when both rows get the same. -/
theorem Shuffled.put (h : Shuffled a b) (k : String) (v : Value) :
    (a.put k v).keys ≠ (b.put k v).keys := by
  obtain ⟨hne, hmem⟩ := h
  simp only [keys_put_eq, hmem]
  split
  · exact hne
  · exact fun heq => hne (List.append_cancel_right heq)

theorem Shuffled.merge (h : Shuffled a b) (c : Row) : (a.merge c).keys ≠ (b.merge c).keys := by
  obtain ⟨hne, hmem⟩ := h
  simp only [keys_merge, hmem]
  exact fun heq => hne (List.append_cancel_right heq)

/-- Three columns in one order and in the other. -/
def ordered : Row := ofList [("a", .null), ("b", .null), ("c", .null)]

def reversed : Row := ofList [("c", .null), ("b", .null), ("a", .null)]

theorem shuffled_ordered : Shuffled ordered reversed := by
  have hkeys : ordered.keys = ["a", "b", "c"] ∧ reversed.keys = ["c", "b", "a"] := by decide
  rw [Shuffled, hkeys.1, hkeys.2]
  exact ⟨by decide, fun k => by simp [or_comm, or_left_comm]⟩

/-- Of three columns two are left at least, and these still stand in different orders. -/
theorem keys_erase_ordered (k : String) : (ordered.erase k).keys ≠ (reversed.erase k).keys := by
  have hkeys : ordered.keys = ["a", "b", "c"] ∧ reversed.keys = ["c", "b", "a"] := by decide
  rw [keys_erase_eq, keys_erase_eq, hkeys.1, hkeys.2]
  by_cases ha : k = "a"
  · subst ha
    decide
  · by_cases hc : k = "c"
    · subst hc
      decide
    · have ha' : "a" ≠ k := Ne.symm ha
      have hc' : "c" ≠ k := Ne.symm hc
      by_cases hb : "b" = k <;> simp [ha', hb, hc']

/-- Rows are the same if they have the same columns and equal values under each. That is symmetric and
transitive, and fails of a row and itself exactly if the row holds what is no number. Pairs with distinct
keys give the same row in each order; rows that are the same stay so when the same is done to both, be it
that their orders differ before and after. -/
theorem same_laws :
    (∀ a b : Row, a.same b = true ↔
      (∀ k, k ∈ a.keys ↔ k ∈ b.keys) ∧
        ∀ k v w, a.get? k = some v → b.get? k = some w → v.Equals w) ∧
      (∀ a b : Row, a.same b = b.same a) ∧
      (∀ a b c : Row, a.same b = true → b.same c = true → a.same c = true) ∧
      (∀ a : Row, a.same a = false ↔ ∃ e ∈ a.toList, e.2.isNaN = true) ∧
      (∀ xs ys : Entries, xs.Perm ys → xs.keys.Nodup → (∀ e ∈ xs, e.2.isNaN = false) →
        (ofList xs).same (ofList ys) = true) ∧
      (∀ a b : Row, a.same b = true →
        (∀ k v, v.isNaN = false → (a.put k v).same (b.put k v) = true) ∧
          (∀ k, (a.putNull k).same (b.putNull k) = true) ∧
          (∀ k, (a.erase k).same (b.erase k) = true) ∧
          ∀ c : Row, c.NaNFree → (a.merge c).same (b.merge c) = true) ∧
      ∃ a b : Row, a.same b = true ∧ a.keys ≠ b.keys ∧ (∀ k v, (a.put k v).keys ≠ (b.put k v).keys) ∧
        (∀ k, (a.erase k).keys ≠ (b.erase k).keys) ∧ ∀ c : Row, (a.merge c).keys ≠ (b.merge c).keys := by
  refine ⟨fun a b => (same_iff a b).trans agrees_iff, fun a b => ?_, fun a b c hab hbc => ?_, fun a => ?_,
    fun xs ys hperm hnodup hnan => (same_iff _ _).2 (agrees_ofList hperm hnodup hnan), fun a b hab => ?_,
    ordered, reversed, by decide, shuffled_ordered.1, shuffled_ordered.put, keys_erase_ordered,
    shuffled_ordered.merge⟩
  · rw [Bool.eq_iff_iff, same_iff, same_iff]
    exact ⟨Agrees.symm, Agrees.symm⟩
  · rw [same_iff] at hab hbc ⊢
    exact hab.trans hbc
  · rw [← Bool.not_eq_true, same_iff, agrees_self_iff, NaNFree]
    simp
  · rw [same_iff] at hab
    simp only [same_iff]
    exact ⟨fun k v hv => hab.put k hv, fun k => hab.put k rfl, hab.erase,
      fun c hc => hab.merge ((agrees_self_iff c).2 hc)⟩

/-- A row with the zero of one sign and one with that of the other, in different orders, before and after
the same is done to them. -/
theorem same_laws_zeros :
    ∃ a b : Row, a.toList = [("x", .float 0), ("y", .text "t")] ∧
      b.toList = [("y", .text "t"), ("x", .float 0x80000000)] ∧ a.same b = true ∧ a.same a = true ∧
      (a.put "z" (.int 1)).same (b.put "z" (.int 1)) = true ∧
      (a.merge b).same (b.merge b) = true ∧
      (ofList [("x", .float 0), ("y", .text "t")]).same
        (ofList [("y", .text "t"), ("x", .float 0)]) = true := by
  obtain ⟨-, hsymm, htrans, -, hperm, hrespects, -⟩ := same_laws
  have hab : (ofList [("x", .float 0), ("y", .text "t")]).same
      (ofList [("y", .text "t"), ("x", .float 0x80000000)]) = true := by decide
  obtain ⟨hput, -, -, hmerge⟩ := hrespects _ _ hab
  exact ⟨_, _, rfl, rfl, hab, htrans _ _ _ hab ((hsymm _ _).trans hab), hput "z" (.int 1) rfl,
    hmerge _ (by decide), hperm _ _ (.swap ..) (by decide) (by decide)⟩

end Row

end RowDerive
