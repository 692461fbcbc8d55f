import RowDerive.Sample.Records
import Mathlib.Algebra.Group.Int.Defs
import Mathlib.Algebra.Group.Nat.Defs
import Mathlib.Data.Int.Order.Basic

/-!
# Instants as they are stored

From the epoch on, an instant is stored as its whole milliseconds as long as these can be counted in 64
bits, and before the epoch as zero. So far what is stored is in the order of the instants. Beyond it the high
bits are cut off, and a late instant may be stored as less than an early one.
-/

namespace RowDerive.Sample

namespace Instant

variable {t t₁ t₂ : Instant}

/-- `n` is the number of whole milliseconds from the epoch. -/
def HasMillis (t : Instant) (n : Int) : Prop := n * 1000000 ≤ t.toNanos ∧ t.toNanos < (n + 1) * 1000000

/-- The milliseconds from the epoch can be counted in 64 bits. -/
def IsCountable (t : Instant) : Prop := t.toNanos < 2 ^ 63 * 1000000

instance (t : Instant) (n : Int) : Decidable (t.HasMillis n) := inferInstanceAs (Decidable (_ ∧ _))

instance (t : Instant) : Decidable t.IsCountable := inferInstanceAs (Decidable (_ < _))

theorem hasMillis_iff {n : Int} : t.HasMillis n ↔ n = t.toNanos / 1000000 := by
  unfold HasMillis
  omega

theorem toMillis_of_neg (h : t.toNanos < 0) : t.toMillis = 0 := by
  simp [toMillis, isBeforeEpoch, h]

/-- From the epoch on the low 64 bits are stored. -/
theorem toInt_toMillis (h : 0 ≤ t.toNanos) : t.toMillis.toInt = (t.toNanos / 1000000).bmod (2 ^ 64) := by
  have hepoch : t.isBeforeEpoch = false := by simpa [isBeforeEpoch] using h
  have hsize : Int64.size = 2 ^ 64 := rfl
  rw [toMillis, hepoch, if_neg Bool.false_ne_true, Int64.toInt_ofInt, hsize]

theorem toInt_toMillis_of_isCountable (h : 0 ≤ t.toNanos) (hcount : t.IsCountable) :
    t.toMillis.toInt = t.toNanos / 1000000 := by
  unfold IsCountable at hcount
  rw [toInt_toMillis h, Int.bmod_eq_of_le]
  all_goals omega

/-- What is stored from the epoch on is the whole milliseconds if and only if these can be counted. -/
theorem hasMillis_toMillis_iff (h : 0 ≤ t.toNanos) : t.HasMillis t.toMillis.toInt ↔ t.IsCountable := by
  rw [hasMillis_iff]
  refine ⟨fun hmillis => ?_, toInt_toMillis_of_isCountable h⟩
  have hlt := Int64.toInt_lt t.toMillis
  unfold IsCountable
  omega

theorem toMillis_nonneg (hcount : t.IsCountable) : 0 ≤ t.toMillis.toInt := by
  rcases lt_or_ge t.toNanos 0 with h | h
  · rw [toMillis_of_neg h]
    rfl
  · rw [toInt_toMillis_of_isCountable h hcount]
    omega

/-- An earlier instant is stored as no greater number if the later one can be counted. -/
theorem toMillis_mono (hle : t₁.toNanos ≤ t₂.toNanos) (hcount : t₂.IsCountable) :
    t₁.toMillis ≤ t₂.toMillis := by
  have hcount₁ : t₁.IsCountable := lt_of_le_of_lt hle hcount
  rw [Int64.le_iff_toInt_le]
  rcases lt_or_ge t₁.toNanos 0 with h | h
  · rw [toMillis_of_neg h]
    exact toMillis_nonneg hcount
  · rw [toInt_toMillis_of_isCountable h hcount₁,
      toInt_toMillis_of_isCountable (Int.le_trans h hle) hcount]
    omega

/-- The last instant whose milliseconds can be counted. -/
def last : Instant := ⟨9223372036854775, 807999999, by decide⟩

theorem toMillis_last : last.toMillis = Int64.maxValue := by decide

/-- What is stored for an instant is no less than what is stored for any earlier one exactly if the
instant can be counted, or if what is cut off leaves the greatest number by chance. -/
theorem forall_toMillis_le_iff :
    (∀ t₁ : Instant, t₁.toNanos ≤ t.toNanos → t₁.toMillis ≤ t.toMillis) ↔
      t.IsCountable ∨ t.toMillis = Int64.maxValue := by
  constructor
  · intro h
    by_cases hcount : t.IsCountable
    · exact .inl hcount
    · have hlast : last.toNanos ≤ t.toNanos := by
        have hnanos : last.toNanos = 2 ^ 63 * 1000000 - 1 := by decide
        unfold IsCountable at hcount
        omega
      have hmax : Int64.maxValue ≤ t.toMillis := by
        rw [← toMillis_last]
        exact h last hlast
      exact .inr (Int64.le_antisymm (Int64.le_maxValue _) hmax)
  · rintro (hcount | hmax) t₁ hle
    · exact toMillis_mono hle hcount
    · exact hmax ▸ Int64.le_maxValue _

end Instant

/-! ## Persons -/

/-- What the fields of a person hold. -/
structure Person where
  id : Int64
  name : String
  nickname : Option String
  age : Option Int32
  avatar : List UInt8
  createdAt : Instant
  updatedAt : Instant

namespace Person

def field (p : Person) (x : Name) : Option FieldValue :=
  match x.text with
  | "id" => some (.plain (.owned .i64) p.id)
  | "name" => some (.plain (.owned .string) p.name)
  | "nickname" => some (.optional (.owned .string) p.nickname)
  | "age" => some (.optional (.owned .i32) p.age)
  | "avatar" => some (.plain (.owned .bytes) p.avatar)
  | "created_at" => some (.foreign p.createdAt)
  | "updated_at" => some (.foreign p.updatedAt)
  | _ => none

/-- The row of a person, as the derived method makes it. -/
def row? (p : Person) : Option Row := (Record.ofText? person).bind (Sample.row? p.field)

theorem unmarked_age : unmarked "age" ≠ "" := by decide

/-- The body of the derived method. -/
def body : Body where
  adapters := [.path false [] (.bare "EpochMillis")]
  statements :=
    [.direct (.ofText "_id") ⟨"id", by decide⟩ true, .direct (.ofText "name") ⟨"name", by decide⟩ true,
     .optional (.ofText "nickname") ⟨"nickname", by decide⟩ false,
     .optional (.ofText "age") ⟨"age", unmarked_age⟩ false,
     .direct (.ofText "avatar") ⟨"avatar", by decide⟩ true,
     .adapted 0 (.ofText "created_at") ⟨"created_at", by decide⟩,
     .adapted 0 (.ofText "updated_at") ⟨"updated_at", by decide⟩]

theorem body?_person : (Record.ofText? person).bind Record.body? = some body := by decide +kernel

theorem exists_run_body (p : Person) : ∃ row, Body.run ⟨p.field, adapter?⟩ body = some row ∧
    row.toList =
      [("_id", .long p.id), ("name", .text p.name), ("nickname", p.nickname.elim .null .text),
       ("age", p.age.elim .null .int), ("avatar", .blob p.avatar),
       ("created_at", .long p.createdAt.toMillis), ("updated_at", .long p.updatedAt.toMillis)] := by
  obtain ⟨id, name, nickname, age, avatar, createdAt, updatedAt⟩ := p
  cases nickname <;> cases age <;> exact ⟨_, rfl, rfl⟩

/-- The row of a person has both instants as they are stored. -/
theorem exists_row? (p : Person) : ∃ row, p.row? = some row ∧
    row.get? "created_at" = some (.long p.createdAt.toMillis) ∧
    row.get? "updated_at" = some (.long p.updatedAt.toMillis) := by
  obtain ⟨row, hrun, hlist⟩ := p.exists_run_body
  have hrow : p.row? = Body.run ⟨p.field, adapter?⟩ body := by
    have hbind : p.row? = ((Record.ofText? person).bind Record.body?).bind
        (Body.run ⟨p.field, adapter?⟩) := (Option.bind_assoc ..).symm
    rw [hbind, body?_person, Option.bind_some]
  refine ⟨row, hrow.trans hrun, ?_, ?_⟩
  all_goals rw [Row.get?, hlist]; rfl

end Person

/-- Before the epoch zero is stored; from the epoch on it is the whole milliseconds if and only if these can
be counted in 64 bits. As long as they can, no earlier instant is stored as a greater number, which else
holds by chance only. The row of a person has what is stored for both instants; if the later one can be
counted, the columns compare as the instants do, or are equal. -/
theorem toMillis_order (t : Instant) (p : Person) :
    (t.toNanos < 0 → t.toMillis = 0) ∧
      (0 ≤ t.toNanos → (t.HasMillis t.toMillis.toInt ↔ t.IsCountable)) ∧
      ((∀ t₁ : Instant, t₁.toNanos ≤ t.toNanos → t₁.toMillis ≤ t.toMillis) ↔
        t.IsCountable ∨ t.toMillis = Int64.maxValue) ∧
      ∃ row, p.row? = some row ∧
        row.get? "created_at" = some (.long p.createdAt.toMillis) ∧
        row.get? "updated_at" = some (.long p.updatedAt.toMillis) ∧
        (p.updatedAt.IsCountable → p.createdAt.toNanos ≤ p.updatedAt.toNanos →
          p.createdAt.toMillis ≤ p.updatedAt.toMillis) ∧
        (p.createdAt.IsCountable → p.updatedAt.toNanos ≤ p.createdAt.toNanos →
          p.updatedAt.toMillis ≤ p.createdAt.toMillis) := by
  refine ⟨Instant.toMillis_of_neg, Instant.hasMillis_toMillis_iff, Instant.forall_toMillis_le_iff, ?_⟩
  obtain ⟨row, hrow, hcreated, hupdated⟩ := p.exists_row?
  exact ⟨row, hrow, hcreated, hupdated, fun hcount hle => Instant.toMillis_mono hle hcount,
    fun hcount hle => Instant.toMillis_mono hle hcount⟩

/-- A person who was made in the first millisecond and changed in the last one that can be counted. -/
def firstAndLast : Person := ⟨1, "Ada", none, none, [], ⟨0, 1999999, by decide⟩, Instant.last⟩

theorem toMillis_order_last :
    (⟨-1, 999999999⟩ : Instant).toMillis = 0 ∧ Instant.last.HasMillis Instant.last.toMillis.toInt ∧
      (⟨0, 1999999⟩ : Instant).toMillis ≤ Instant.last.toMillis ∧
      ∃ row, firstAndLast.row? = some row ∧ row.get? "created_at" = some (.long 1) ∧
        row.get? "updated_at" = some (.long 9223372036854775807) ∧
        firstAndLast.createdAt.toMillis ≤ firstAndLast.updatedAt.toMillis := by
  obtain ⟨hbefore, -⟩ := toMillis_order ⟨-1, 999999999⟩ firstAndLast
  obtain ⟨-, hfrom, horder, row, hrow, hcreated, hupdated, hcompare, -⟩ :=
    toMillis_order Instant.last firstAndLast
  exact ⟨hbefore (by decide), (hfrom (by decide)).2 (by decide), horder.2 (.inl (by decide)) _ (by decide),
    row, hrow, hcreated, hupdated, hcompare (by decide) (by decide)⟩

/-- The next millisecond is stored as the least number of all, and so it stands in the row of a person. -/
theorem toMillis_wraps :
    ∃ p : Person, p.createdAt = ⟨9223372036854775, 807000000⟩ ∧
      p.updatedAt = ⟨9223372036854775, 808000000⟩ ∧
      p.createdAt.toNanos < p.updatedAt.toNanos ∧ p.updatedAt.HasMillis 9223372036854775808 ∧
      ∃ row, p.row? = some row ∧
        row.get? "created_at" = some (.long 9223372036854775807) ∧
        row.get? "updated_at" = some (.long (-9223372036854775808)) := by
  obtain ⟨row, hrow⟩ := Person.exists_row?
    ⟨1, "Ada Lovelace", none, some 36, [0x89, 0x50, 0x4e, 0x47], ⟨9223372036854775, 807000000⟩,
      ⟨9223372036854775, 808000000⟩⟩
  exact ⟨_, rfl, rfl, by decide, by decide, row, hrow⟩

end RowDerive.Sample
