import RowDerive.Token.Literal
import Mathlib.Data.List.Basic

/-!
# Numbers that are written

A number that is written with the suffix `usize` stands for itself, and for no string.
-/

namespace RowDerive.Literal

variable {c : Char} {ds : List Char}

theorem ne_of_isDigit {x : Char} (hx : x.isDigit = false) (h : c.isDigit = true) : c ≠ x := by
  rintro rfl
  rw [hx] at h
  cases h

theorem hexValue?_of_isDigit (h : c.isDigit = true) : hexValue? c = some (c.toNat - '0'.toNat) := by
  obtain ⟨hlow, hhigh⟩ := Char.isDigit_iff_toNat.1 h
  have hc : ('0' ≤ c && c ≤ '9') = true := by
    rw [Bool.and_eq_true, decide_eq_true_eq, decide_eq_true_eq]
    exact ⟨hlow, hhigh⟩
  rw [hexValue?, if_pos hc]

theorem toNat_lt_of_isDigit (h : c.isDigit = true) : c.toNat - '0'.toNat < 10 := by
  have hhigh : c.toNat ≤ 57 := (Char.isDigit_iff_toNat.1 h).2
  have hzero : '0'.toNat = 48 := rfl
  omega

theorem integerDigits_cons (h : c.isDigit = true) (v : Nat) (bare : Bool) (cs : List Char) :
    integerDigits 10 v bare (c :: cs) =
      integerDigits 10 (10 * v + (c.toNat - '0'.toNat)) false cs := by
  have hline : (c == '_') = false := beq_false_of_ne (ne_of_isDigit (by decide) h)
  have hpoint : (c == '.') = false := beq_false_of_ne (ne_of_isDigit (by decide) h)
  have hsmall : (c == 'e') = false := beq_false_of_ne (ne_of_isDigit (by decide) h)
  have hlarge : (c == 'E') = false := beq_false_of_ne (ne_of_isDigit (by decide) h)
  simp only [integerDigits, hline, hpoint, hsmall, hlarge, h, hexValue?_of_isDigit h,
    Option.getD_some, Bool.false_and, Bool.or_self, Bool.and_false, Bool.true_or, Bool.false_eq_true,
    if_false, if_true, if_pos (toNat_lt_of_isDigit h)]

/-- Decimal digits are read as their number, up to what cannot go on with it. -/
theorem integerDigits_append (hds : ∀ d ∈ ds, d.isDigit = true) (v : Nat) (bare : Bool)
    (hbare : ds = [] → bare = false) :
    integerDigits 10 v bare (ds ++ "usize".toList) =
      some (Nat.ofDigitChars 10 ds v, "usize".toList) := by
  induction ds generalizing v bare with
  | nil =>
      obtain rfl := hbare rfl
      rfl
  | cons d ds ih =>
      obtain ⟨hd, hds⟩ := List.forall_mem_cons.1 hds
      rw [List.cons_append, integerDigits_cons hd, ih hds _ _ fun _ => rfl, Nat.ofDigitChars_cons]

theorem toList_usize (n : Nat) : s!"{n}usize".toList = Nat.toDigits 10 n ++ "usize".toList := by
  have hn : toString n = String.ofList (Nat.toDigits 10 n) := rfl
  have husize : toString "usize" = "usize" := rfl
  rw [hn, husize, String.toList_append, String.toList_ofList]

/-- What is written begins with a digit, and no letter that asks for another base stands behind it. -/
theorem exists_usize (n : Nat) : ∃ c cs, s!"{n}usize".toList = c :: cs ∧ c.isDigit = true ∧
    ∀ d ∈ cs.head?, d ∉ ['x', 'o', 'b'] := by
  have hall : ∀ d ∈ Nat.toDigits 10 n, d.isDigit = true := fun d hd =>
    Nat.isDigit_of_mem_toDigits (by decide) (by decide) hd
  rw [toList_usize]
  match h : Nat.toDigits 10 n with
  | [] => exact absurd h Nat.toDigits_ne_nil
  | [c] =>
      refine ⟨c, _, rfl, hall c (by simp [h]), fun e he => ?_⟩
      obtain rfl : 'u' = e := Option.some.inj he
      decide
  | c :: d :: ds =>
      refine ⟨c, _, rfl, hall c (by simp [h]), fun e he => ?_⟩
      obtain rfl : d = e := Option.some.inj he
      have hd := hall d (by simp [h])
      simp [ne_of_isDigit (x := 'x') (by decide) hd, ne_of_isDigit (x := 'o') (by decide) hd,
        ne_of_isDigit (x := 'b') (by decide) hd]

theorem string?_usize (n : Nat) : string? s!"{n}usize" = none := by
  obtain ⟨c, cs, hcs, hc, -⟩ := exists_usize n
  unfold string?
  rw [hcs]
  split
  · rename_i h
    obtain ⟨rfl, -⟩ := List.cons.inj h
    cases hc
  · rename_i h
    obtain ⟨rfl, -⟩ := List.cons.inj h
    cases hc
  · rfl

theorem integer?_usize (n : Nat) : integer? s!"{n}usize" = some (n, true) := by
  have hall : ∀ d ∈ Nat.toDigits 10 n, d.isDigit = true := fun d hd =>
    Nat.isDigit_of_mem_toDigits (by decide) (by decide) hd
  have hdigits : integerDigits 10 0 true s!"{n}usize".toList = some (n, "usize".toList) := by
    rw [toList_usize, integerDigits_append hall 0 true fun h => absurd h Nat.toDigits_ne_nil,
      Nat.ofDigitChars_ten_toDigits]
  obtain ⟨c, cs, hcs, hc, hbase⟩ := exists_usize n
  have hnot : ∀ d ∈ ['x', 'o', 'b'], ∀ ds, c :: cs ≠ '0' :: d :: ds := by
    rintro d hd ds h
    obtain ⟨-, rfl⟩ := List.cons.inj h
    exact hbase d rfl hd
  rw [hcs] at hdigits
  unfold integer?
  rw [hcs]
  split
  · next h => exact absurd h (hnot _ (by simp) _)
  · next h => exact absurd h (hnot _ (by simp) _)
  · next h => exact absurd h (hnot _ (by simp) _)
  · next h =>
    obtain ⟨rfl, rfl⟩ := List.cons.inj h
    rw [if_pos hc, hdigits]
    rfl
  · next h => cases h

end RowDerive.Literal
