import RowDerive.Proofs.Derive.Acceptance

/-!
# Types that are stored as they are

Which types need no adapter is said here by rules: what is left of a type without its outer groups and
parentheses is a path that ends in the name of a base type, a vector of bytes, or a shared reference to
text or to bytes. Of what stands before the last name of a path nothing is asked, and what stands inside a
vector or behind a reference has to be spelled out. The look-up of a storage finds these types and no
others: `Ty.storage?_native`.
-/

namespace RowDerive

/-- The type is what `t` is inside all its outer groups and parentheses. -/
inductive Ty.Strips : Ty → Ty → Prop
  | done {t : Ty} (hgroup : ∀ u, t ≠ .group u) (hparen : ∀ u, t ≠ .paren u) : Strips t t
  | group {t u : Ty} (h : Strips t u) : Strips (.group t) u
  | paren {t u : Ty} (h : Strips t u) : Strips (.paren t) u

/-- The type `u8`, written as one name. -/
def Ty.byte : Ty := .path false [] (.bare "u8")

/-- The type `str`, written as one name. -/
def Ty.str : Ty := .path false [] (.bare "str")

/-- The base types that are declared by one word each. -/
inductive BaseType.IsWord : BaseType → Prop
  | bool : IsWord .bool
  | i8 : IsWord .i8
  | i16 : IsWord .i16
  | i32 : IsWord .i32
  | i64 : IsWord .i64
  | f32 : IsWord .f32
  | f64 : IsWord .f64
  | string : IsWord .string

/-- The types that are stored as they are, none of which is a group or in parentheses, and how. -/
inductive Ty.Native : Ty → Storage → Prop
  | word {rooted : Bool} {init : List Segment} {β : BaseType} (h : β.IsWord) :
    Native (.path rooted init (.bare β.name)) (.owned β)
  | bytes {rooted turbofish trailing : Bool} {init : List Segment} :
    Native (.path rooted init (.generic "Vec" turbofish [.type .byte] trailing)) (.owned .bytes)
  | textRef {l : Option String} : Native (.reference l false .str) .textRef
  | bytesRef {l : Option String} : Native (.reference l false (.slice .byte)) .bytesRef

/-- The type is a path that ends in an `Option` of the one argument `u`. -/
inductive Ty.OptionOf : Ty → Ty → Prop
  | intro {rooted turbofish trailing : Bool} {init : List Segment} {u : Ty} :
    OptionOf (.path rooted init (.generic "Option" turbofish [.type u] trailing)) u

/-! ## Outer groups and parentheses -/

namespace Ty

theorem core_strips (t : Ty) : t.Strips t.core := by
  match t with
  | .group t => exact .group t.core_strips
  | .paren t => exact .paren t.core_strips
  | .path .. | .reference .. | .slice _ | .qualified .. | .bound .. | .other _ =>
      exact .done (fun _ h => nomatch h) (fun _ h => nomatch h)

theorem Strips.core_eq {t u : Ty} (h : t.Strips u) : t.core = u := by
  induction h with
  | @done t hgroup hparen =>
      cases t with
      | group t => exact absurd rfl (hgroup t)
      | paren t => exact absurd rfl (hparen t)
      | path | reference | slice | qualified | bound | other => rfl
  | group _ ih => exact ih
  | paren _ ih => exact ih

/-- What is left of a type is one type. -/
theorem strips_iff {t u : Ty} : t.Strips u ↔ t.core = u :=
  ⟨Strips.core_eq, fun h => h ▸ t.core_strips⟩

end Ty

/-! ## Names and arguments -/

theorem BaseType.IsWord.ofName?_name {β : BaseType} (h : β.IsWord) : ofName? β.name = some β := by
  cases h <;> rfl

theorem BaseType.isWord_of_ofName? {x : String} {β : BaseType} (h : ofName? x = some β) :
    β.IsWord ∧ x = β.name := by
  unfold ofName? at h
  split at h
  all_goals cases h
  all_goals exact ⟨by constructor, rfl⟩

namespace Ty

theorem isByte_iff (t : Ty) : t.isByte = true ↔ t = byte := by
  rw [isByte, beq_iff_eq, bare?_eq_some_iff, byte]

theorem soleArg?_eq_some_iff {s : Segment} {t : Ty} :
    soleArg? s = some t ↔ ∃ turbofish trailing, s = .generic s.name turbofish [.type t] trailing := by
  constructor
  · intro h
    unfold soleArg? at h
    split at h
    · obtain rfl := Option.some.inj h
      exact ⟨_, _, rfl⟩
    · cases h
  · rintro ⟨turbofish, trailing, hs⟩
    rw [hs]
    rfl

/-! ## What is found -/

/-- A segment says how to store a value if it is the name of a base type, or a vector of bytes. -/
theorem segmentStorage?_eq_some_iff {s : Segment} {σ : Storage} :
    segmentStorage? s = some σ ↔
      (∃ β : BaseType, β.IsWord ∧ s = .bare β.name ∧ σ = .owned β) ∨
        ∃ turbofish trailing, s = .generic "Vec" turbofish [.type byte] trailing ∧ σ = .owned .bytes := by
  constructor
  · intro h
    unfold segmentStorage? at h
    by_cases hvec : s.name = "Vec"
    · rw [if_pos hvec] at h
      cases harg : soleArg? s with
      | none => simp [harg] at h
      | some t =>
          obtain ⟨turbofish, trailing, hs⟩ := soleArg?_eq_some_iff.1 harg
          obtain ⟨hbyte, hσ⟩ : t.isByte = true ∧ Storage.owned .bytes = σ := by simpa [harg] using h
          rw [isByte_iff] at hbyte
          exact .inr ⟨turbofish, trailing, by rw [hs, hvec, hbyte], hσ.symm⟩
    · rw [if_neg hvec] at h
      cases s with
      | generic x turbofish args trailing => simp [Segment.isBare] at h
      | bare x =>
          obtain ⟨β, hβ, rfl⟩ : ∃ β, BaseType.ofName? x = some β ∧ Storage.owned β = σ := by
            simpa [Segment.isBare, Segment.name] using h
          obtain ⟨hword, rfl⟩ := BaseType.isWord_of_ofName? hβ
          exact .inl ⟨β, hword, rfl, rfl⟩
  · rintro (⟨β, hβ, rfl, rfl⟩ | ⟨turbofish, trailing, rfl, rfl⟩)
    · have hvec : β.name ≠ "Vec" := by cases hβ <;> decide
      simp [segmentStorage?, Segment.name, Segment.isBare, hvec, hβ.ofName?_name]
    · rfl

/-- A reference is stored as it is if it is one to text, or to a slice of bytes. -/
theorem refStorage?_eq_some_iff {t : Ty} {σ : Storage} :
    refStorage? t = some σ ↔ (t = str ∧ σ = .textRef) ∨ (t = .slice byte ∧ σ = .bytesRef) := by
  constructor
  · intro h
    unfold refStorage? at h
    split at h
    · rename_i elem
      obtain ⟨hbyte, hσ⟩ : elem.isByte = true ∧ Storage.bytesRef = σ := by simpa using h
      rw [isByte_iff] at hbyte
      exact .inr ⟨congrArg slice hbyte, hσ.symm⟩
    · obtain ⟨hstr, hσ⟩ : t = .path false [] (.bare "str") ∧ Storage.textRef = σ := by simpa using h
      exact .inl ⟨hstr, hσ.symm⟩
  · rintro (⟨rfl, rfl⟩ | ⟨rfl, rfl⟩) <;> rfl

theorem storage?_eq_some_iff {t : Ty} {σ : Storage} : t.storage? = some σ ↔ t.core.Native σ := by
  unfold storage?
  constructor
  · intro h
    split at h
    · rename_i hcore
      rw [hcore]
      rcases segmentStorage?_eq_some_iff.1 h with ⟨β, hβ, rfl, rfl⟩ | ⟨turbofish, trailing, rfl, rfl⟩
      · exact .word hβ
      · exact .bytes
    · rename_i mutable elem hcore
      rw [hcore]
      cases mutable with
      | true => simp at h
      | false =>
          rcases refStorage?_eq_some_iff.1 h with ⟨rfl, rfl⟩ | ⟨rfl, rfl⟩
          · exact .textRef
          · exact .bytesRef
    · cases h
  · intro h
    generalize t.core = u at h ⊢
    cases h with
    | word h => exact segmentStorage?_eq_some_iff.2 (.inl ⟨_, h, rfl, rfl⟩)
    | bytes => exact segmentStorage?_eq_some_iff.2 (.inr ⟨_, _, rfl, rfl⟩)
    | textRef => exact refStorage?_eq_some_iff.2 (.inl ⟨rfl, rfl⟩)
    | bytesRef => exact refStorage?_eq_some_iff.2 (.inr ⟨rfl, rfl⟩)

theorem optionInner?_eq_some_iff {t u : Ty} : t.optionInner? = some u ↔ t.core.OptionOf u := by
  unfold optionInner?
  constructor
  · intro h
    split at h
    · rename_i s hcore
      rw [hcore]
      obtain ⟨hname, harg⟩ : s.name = "Option" ∧ soleArg? s = some u := by simpa using h
      obtain ⟨turbofish, trailing, hs⟩ := soleArg?_eq_some_iff.1 harg
      rw [hs, hname]
      exact .intro
    · cases h
  · intro h
    generalize t.core = v at h ⊢
    cases h
    rfl

/-- A value is passed on as it is if it is a reference. -/
theorem Native.byRef_iff {t : Ty} {σ : Storage} (h : t.Native σ) :
    σ.byRef = true ↔ ∃ l u, t = .reference l false u ∧ (u = str ∨ u = .slice byte) := by
  cases h with
  | word h => simp
  | bytes => simp
  | textRef => exact ⟨fun _ => ⟨_, _, rfl, .inl rfl⟩, fun _ => rfl⟩
  | bytesRef => exact ⟨fun _ => ⟨_, _, rfl, .inr rfl⟩, fun _ => rfl⟩

end Ty

/-- A column that is stored as what its type is, is not optional. -/
theorem Property.ofColumn_of_storage? {c : Column} {σ : Storage} (h : c.ty.val.storage? = some σ) :
    (ofColumn c).isOptional = false ∧ (ofColumn c).storage = some σ := by
  have hnone : c.ty.val.optionInner? = none := by
    cases hu : c.ty.val.optionInner? with
    | none => rfl
    | some u => rw [Ty.storage?_of_optionInner? hu] at h; cases h
  exact ⟨by rw [isOptional, ofColumn, hnone]; rfl, by rw [ofColumn, hnone]; exact h⟩

/-- A storage is found for exactly the types that are stored as they are, in any groups and parentheses,
and it is the one of that type; by reference exactly where the type is a reference. What an option may
hold is found for exactly the paths that end in an option of one type. No type is found to be both, so a
column is not optional if its own type is stored as it is. -/
theorem Ty.storage?_native (t : Ty) :
    (∀ σ, t.storage? = some σ ↔ ∃ u, t.Strips u ∧ u.Native σ) ∧
      (∀ σ, t.storage? = some σ →
        (σ.byRef = true ↔ ∃ l u, t.Strips (.reference l false u) ∧ (u = .str ∨ u = .slice .byte))) ∧
      (∀ v, t.optionInner? = some v ↔ ∃ u, t.Strips u ∧ u.OptionOf v) ∧
      (t.storage? = none ∨ t.optionInner? = none) ∧
      ∀ c : Column, c.ty.val = t → ∀ σ, t.storage? = some σ →
        (Property.ofColumn c).isOptional = false ∧ (Property.ofColumn c).storage = some σ := by
  refine ⟨fun σ => ?_, fun σ h => ?_, fun v => ?_, ?_, ?_⟩
  · rw [storage?_eq_some_iff]
    exact ⟨fun h => ⟨_, t.core_strips, h⟩, fun ⟨u, hu, h⟩ => hu.core_eq ▸ h⟩
  · rw [(storage?_eq_some_iff.1 h).byRef_iff]
    simp only [strips_iff]
  · rw [optionInner?_eq_some_iff]
    exact ⟨fun h => ⟨_, t.core_strips, h⟩, fun ⟨u, hu, h⟩ => hu.core_eq ▸ h⟩
  · cases hv : t.optionInner? with
    | none => exact .inr rfl
    | some v => exact .inl (storage?_of_optionInner? hv)
  · rintro c rfl σ h
    exact Property.ofColumn_of_storage? h

/-- A reference to text is stored as it is inside a group and parentheses, and its column is not
optional. -/
theorem Ty.storage?_native_enclosed :
    ∃ t : Ty, t = .group (.paren (.reference (some "a") false .str)) ∧ t.storage? = some .textRef ∧
      (∃ l u, t.Strips (.reference l false u) ∧ (u = .str ∨ u = .slice .byte)) ∧
      ∃ c : Column, c.ty.val = t ∧ (Property.ofColumn c).isOptional = false ∧
        (Property.ofColumn c).storage = some .textRef := by
  obtain ⟨hstorage, hbyRef, -, -, hcolumn⟩ :=
    Ty.storage?_native (.group (.paren (.reference (some "a") false .str)))
  have htext := (hstorage .textRef).2 ⟨_, Ty.core_strips _, .textRef⟩
  exact ⟨_, rfl, htext, (hbyRef _ htext).1 rfl,
    ⟨⟨⟨"x", by decide⟩, .nowhere⟩, ⟨_, .nowhere⟩, .none⟩, rfl, hcolumn _ rfl _ htext⟩

end RowDerive
