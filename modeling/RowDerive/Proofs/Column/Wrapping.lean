import RowDerive.Proofs.Column.Native
import RowDerive.Proofs.Record.SoleGetter

/-!
# Types in groups and parentheses

A group or parentheses around a type do not change which type it is. The look-ups of a storage, of what an
option may hold and of a getter see through them in some places only: around the whole type, and around
what an option may hold, but neither around the bytes of a vector, nor behind a reference, nor around the
result of a method. `Ty.storage?_wrapped_iff` says which wrapped types are still found.
-/

namespace RowDerive

/-! ## Wrapping -/

mutual

/-- The second type is the first with any types in it put into groups or parentheses. Of types that are
kept as tokens, and of what a qualified self is, the tokens may change in any way. -/
inductive Ty.Wraps : Ty → Ty → Prop
  | group {t u : Ty} (h : Ty.Wraps t u) : Ty.Wraps t (.group u)
  | paren {t u : Ty} (h : Ty.Wraps t u) : Ty.Wraps t (.paren u)
  | inGroup {t u : Ty} (h : Ty.Wraps t u) : Ty.Wraps (.group t) (.group u)
  | inParen {t u : Ty} (h : Ty.Wraps t u) : Ty.Wraps (.paren t) (.paren u)
  | path {rooted : Bool} {init init' : List Segment} {s s' : Segment}
    (hinit : Segment.WrapsList init init') (h : Segment.Wraps s s') :
    Ty.Wraps (.path rooted init s) (.path rooted init' s')
  | reference {l : Option String} {mutable : Bool} {t u : Ty} (h : Ty.Wraps t u) :
    Ty.Wraps (.reference l mutable t) (.reference l mutable u)
  | slice {t u : Ty} (h : Ty.Wraps t u) : Ty.Wraps (.slice t) (.slice u)
  | qualified {self self' : List Token} {init init' : List Segment} {s s' : Segment}
    (hinit : Segment.WrapsList init init') (h : Segment.Wraps s s') :
    Ty.Wraps (.qualified self init s) (.qualified self' init' s')
  | bound {enclosed : Bool} {ts ts' : List Token} : Ty.Wraps (.bound enclosed ts) (.bound enclosed ts')
  | other {ts ts' : List Token} : Ty.Wraps (.other ts) (.other ts')

/-- The second segment is the first with types among its arguments wrapped. -/
inductive Segment.Wraps : Segment → Segment → Prop
  | bare {x : String} : Segment.Wraps (.bare x) (.bare x)
  | generic {x : String} {turbofish trailing : Bool} {args args' : List TyArg}
    (h : TyArg.WrapsList args args') :
    Segment.Wraps (.generic x turbofish args trailing) (.generic x turbofish args' trailing)

/-- Each segment of the second list is that of the first with types in it wrapped. -/
inductive Segment.WrapsList : List Segment → List Segment → Prop
  | nil : Segment.WrapsList [] []
  | cons {s s' : Segment} {ss ss' : List Segment} (h : Segment.Wraps s s')
    (hs : Segment.WrapsList ss ss') : Segment.WrapsList (s :: ss) (s' :: ss')

/-- The second argument is the first with types in it wrapped. -/
inductive TyArg.Wraps : TyArg → TyArg → Prop
  | type {t u : Ty} (h : Ty.Wraps t u) : TyArg.Wraps (.type t) (.type u)
  | lifetime {x : String} : TyArg.Wraps (.lifetime x) (.lifetime x)
  | other {ts ts' : List Token} : TyArg.Wraps (.other ts) (.other ts')

/-- Each argument of the second list is that of the first with types in it wrapped. -/
inductive TyArg.WrapsList : List TyArg → List TyArg → Prop
  | nil : TyArg.WrapsList [] []
  | cons {a a' : TyArg} {as as' : List TyArg} (h : TyArg.Wraps a a') (hs : TyArg.WrapsList as as') :
    TyArg.WrapsList (a :: as) (a' :: as')

end

theorem Segment.Wraps.from_sole {s : Segment} {x : String} {turbofish trailing : Bool} {u : Ty}
    (h : s.Wraps (.generic x turbofish [.type u] trailing)) :
    ∃ t, t.Wraps u ∧ s = .generic x turbofish [.type t] trailing := by
  obtain - | ⟨hargs⟩ := h
  obtain - | ⟨harg, hnil⟩ := hargs
  cases hnil
  cases harg with
  | type h => exact ⟨_, h, rfl⟩

theorem Segment.Wraps.to_sole {s : Segment} {x : String} {turbofish trailing : Bool} {t : Ty}
    (h : (Segment.generic x turbofish [.type t] trailing).Wraps s) :
    ∃ u, t.Wraps u ∧ s = .generic x turbofish [.type u] trailing := by
  obtain - | ⟨hargs⟩ := h
  obtain - | ⟨harg, hnil⟩ := hargs
  cases hnil
  cases harg with
  | type h => exact ⟨_, h, rfl⟩

namespace Ty

/-- The type is in a group or in parentheses. -/
inductive Enclosed : Ty → Prop
  | group {t : Ty} : Enclosed (.group t)
  | paren {t : Ty} : Enclosed (.paren t)

/-- The type is a vector, a reference or a reference to a slice, and what it is one of is enclosed. -/
inductive HidesElem : Ty → Prop
  | vec {rooted turbofish trailing : Bool} {init : List Segment} {t : Ty} (h : t.Enclosed) :
    HidesElem (.path rooted init (.generic "Vec" turbofish [.type t] trailing))
  | target {l : Option String} {t : Ty} (h : t.Enclosed) : HidesElem (.reference l false t)
  | elem {l : Option String} {t : Ty} (h : t.Enclosed) : HidesElem (.reference l false (.slice t))

/-- Inside its outer groups and parentheses the type hides what it is one of. -/
def Hidden (t : Ty) : Prop := ∃ u, t.Strips u ∧ u.HidesElem

theorem hidden_iff {t : Ty} : t.Hidden ↔ t.core.HidesElem :=
  ⟨fun ⟨_, hstrips, h⟩ => hstrips.core_eq ▸ h, fun h => ⟨_, t.core_strips, h⟩⟩

theorem core_not_enclosed : ∀ t : Ty, ¬ t.core.Enclosed
  | .group t => t.core_not_enclosed
  | .paren t => t.core_not_enclosed
  | .path .. | .reference .. | .slice _ | .qualified .. | .bound .. | .other _ => fun h => nomatch h

theorem HidesElem.not_native {t : Ty} {σ : Storage} (h : t.HidesElem) : ¬ t.Native σ := by
  intro hnative
  cases h with
  | vec h | target h => cases hnative <;> cases h
  | elem h =>
      cases hnative
      cases h

namespace Wraps

variable {t u : Ty}

/-! ## Through outer groups and parentheses -/

theorem core : ∀ {t u : Ty}, t.Wraps u → t.core.Wraps u.core
  | _, _, .group h => h.core
  | _, _, .paren h => h.core
  | _, _, .inGroup h => h.core
  | _, _, .inParen h => h.core
  | _, _, .path hinit h => .path hinit h
  | _, _, .reference h => .reference h
  | _, _, .slice h => .slice h
  | _, _, .qualified hinit h => .qualified hinit h
  | _, _, .bound => .bound
  | _, _, .other => .other

/-- Only one name becomes one name. -/
theorem eq_of_name {x : String} (h : t.Wraps (.path false [] (.bare x))) :
    t = .path false [] (.bare x) := by
  cases h with
  | path hinit hlast =>
      cases hinit
      cases hlast
      rfl

/-- One name stays that, unless it is enclosed. -/
theorem eq_name_or_enclosed {x : String} (h : (Ty.path false [] (.bare x)).Wraps u) :
    u = .path false [] (.bare x) ∨ u.Enclosed := by
  cases h with
  | group => exact .inr .group
  | paren => exact .inr .paren
  | path hinit hlast =>
      cases hinit
      cases hlast
      exact .inl rfl

/-! ## Storages -/

/-- What is stored as it is after the wrapping was so before. -/
theorem native_of_native {σ : Storage} (h : t.Wraps u) (hu : u.Native σ) : t.Native σ := by
  cases hu with
  | word hβ =>
      cases h with
      | path _ hlast =>
          cases hlast
          exact .word hβ
  | bytes =>
      cases h with
      | path _ hlast =>
          obtain ⟨t, harg, rfl⟩ := hlast.from_sole
          rw [harg.eq_of_name]
          exact .bytes
  | textRef =>
      cases h with
      | reference h =>
          rw [h.eq_of_name]
          exact .textRef
  | bytesRef =>
      cases h with
      | reference h =>
          match h with
          | .slice h =>
              rw [h.eq_of_name]
              exact .bytesRef

/-- What was stored as it is still is so, unless an element of it was wrapped or it was itself. -/
theorem native_or_hidesElem {σ : Storage} (h : t.Wraps u) (ht : t.Native σ) (hu : ¬ u.Enclosed) :
    u.Native σ ∨ u.HidesElem := by
  cases h with
  | group => exact absurd .group hu
  | paren => exact absurd .paren hu
  | path _ hlast =>
      cases ht with
      | word hβ =>
          cases hlast
          exact .inl (.word hβ)
      | bytes =>
          obtain ⟨u, harg, rfl⟩ := hlast.to_sole
          rcases harg.eq_name_or_enclosed with rfl | henclosed
          · exact .inl .bytes
          · exact .inr (.vec henclosed)
  | reference h =>
      cases ht with
      | textRef =>
          rcases h.eq_name_or_enclosed with rfl | henclosed
          · exact .inl .textRef
          · exact .inr (.target henclosed)
      | bytesRef =>
          cases h with
          | group => exact .inr (.target .group)
          | paren => exact .inr (.target .paren)
          | slice h =>
              rcases h.eq_name_or_enclosed with rfl | henclosed
              · exact .inl .bytesRef
              · exact .inr (.elem henclosed)
  | inGroup | inParen | slice | qualified | bound | other => cases ht

theorem storage?_eq_iff (h : t.Wraps u) :
    u.storage? = t.storage? ↔ t.storage? = none ∨ ¬ u.Hidden := by
  cases hu : u.storage? with
  | some σ =>
      have hnative := storage?_eq_some_iff.1 hu
      rw [storage?_eq_some_iff.2 (h.core.native_of_native hnative)]
      exact iff_of_true rfl (.inr fun hhidden => (hidden_iff.1 hhidden).not_native hnative)
  | none =>
      cases ht : t.storage? with
      | none => simp
      | some σ =>
          have hhidden : u.Hidden := hidden_iff.2 <|
            (h.core.native_or_hidesElem (storage?_eq_some_iff.1 ht) u.core_not_enclosed).resolve_left
              fun hnative => nomatch hu.symm.trans (storage?_eq_some_iff.2 hnative)
          simp [hhidden]

/-! ## Options -/

theorem soleArg?_rel {s s' : Segment} (h : s.Wraps s') :
    s.name = s'.name ∧ Option.Rel Ty.Wraps (soleArg? s) (soleArg? s') := by
  cases h with
  | bare => exact ⟨rfl, .none⟩
  | generic h =>
      refine ⟨rfl, ?_⟩
      match h with
      | .nil => exact .none
      | .cons (.type h) .nil => exact .some h
      | .cons .lifetime .nil | .cons .other .nil => exact .none
      | .cons (.type _) (.cons _ _) | .cons .lifetime (.cons _ _) | .cons .other (.cons _ _) => exact .none

/-- What an option may hold is wrapped itself, and nothing else becomes an option or ceases to be one. -/
theorem optionInner?_rel (h : t.Wraps u) :
    Option.Rel Ty.Wraps t.optionInner? u.optionInner? := by
  have hcore := h.core
  have hnot := u.core_not_enclosed
  unfold optionInner?
  generalize t.core = v, u.core = v' at hcore hnot
  cases hcore with
  | group => exact absurd .group hnot
  | paren => exact absurd .paren hnot
  | path _ hlast =>
      obtain ⟨hname, hrel⟩ := soleArg?_rel hlast
      simp only [hname]
      split
      · exact hrel
      · exact .none
  | inGroup | inParen | reference | slice | qualified | bound | other => exact .none

/-! ## Results -/

/-- A path that ends in a bare name becomes one, unless it is enclosed. -/
theorem isBarePath_iff {x : String} (h : t.Wraps u) :
    (∃ rooted init, u = .path rooted init (.bare x)) ↔
      (∃ rooted init, t = .path rooted init (.bare x)) ∧ ¬ u.Enclosed := by
  constructor
  · rintro ⟨rooted, init, rfl⟩
    cases h with
    | path _ hlast =>
        cases hlast
        exact ⟨⟨_, _, rfl⟩, fun h => nomatch h⟩
  · rintro ⟨⟨rooted, init, rfl⟩, hnot⟩
    cases h with
    | group => exact absurd .group hnot
    | paren => exact absurd .paren hnot
    | path _ hlast =>
        cases hlast
        exact ⟨_, _, rfl⟩

end Wraps

end Ty

namespace Method

/-- The method with another result. -/
def withResult (m : Method) (t : Ty) : Method := { m with sig := { m.sig with result := some t } }

theorem gets_withResult_iff {x : String} {m : Method} {t u : Ty} (ht : m.sig.result = some t)
    (h : t.Wraps u) : (m.withResult u).Gets x ↔ m.Gets x ∧ ¬ u.Enclosed := by
  have hresult := h.isBarePath_iff (x := x)
  constructor
  · intro hgets
    obtain ⟨rooted, init, hu⟩ := hgets.result
    obtain ⟨⟨rooted, init, rfl⟩, hnot⟩ := hresult.1 ⟨rooted, init, Option.some.inj hu⟩
    exact ⟨{ hgets with result := ⟨rooted, init, ht⟩ }, hnot⟩
  · rintro ⟨hgets, hnot⟩
    obtain ⟨rooted, init, hu⟩ := hgets.result
    obtain ⟨rooted, init, rfl⟩ := hresult.2 ⟨⟨rooted, init, Option.some.inj (ht.symm.trans hu)⟩, hnot⟩
    exact { hgets with result := ⟨rooted, init, rfl⟩ }

end Method

/-! ## Look-ups -/

/-- Types in a type are put into groups or parentheses. The storage that is found is the one that was found
before, if any was and the bytes or the text of it were not enclosed. What an option may hold is found as
before, and its own storage under the same condition. A getter is found as before if it was one and its
result as a whole was not enclosed. -/
theorem Ty.storage?_wrapped_iff {t u : Ty} (h : t.Wraps u) :
    (u.storage? = t.storage? ↔ t.storage? = none ∨ ¬ u.Hidden) ∧
      (u.optionInner? = none ↔ t.optionInner? = none) ∧
      (∀ v w, t.optionInner? = some v → u.optionInner? = some w →
        (w.storage? = v.storage? ↔ v.storage? = none ∨ ¬ w.Hidden)) ∧
      ∀ x before after (m : Method) span, m.sig.result = some t →
        (Method.soleGetter? x (before ++ ⟨m.withResult u, span⟩ :: after) =
            some ⟨m.withResult u, span⟩ ↔
          Method.soleGetter? x (before ++ ⟨m, span⟩ :: after) = some ⟨m, span⟩ ∧ ¬ u.Enclosed) := by
  have hoption := h.optionInner?_rel
  refine ⟨h.storage?_eq_iff, ?_, fun v w hv hw => ?_, fun x before after m span hm => ?_⟩
  · generalize t.optionInner? = o, u.optionInner? = o' at hoption ⊢
    cases hoption <;> simp
  · rw [hv, hw] at hoption
    cases hoption with
    | some hwraps => exact hwraps.storage?_eq_iff
  · rw [Method.soleGetter?_append_cons_iff, Method.soleGetter?_append_cons_iff,
      Method.gets_withResult_iff hm h, and_right_comm]

/-- A vector of the type. -/
def Ty.vec (t : Ty) : Ty := .path false [] (.generic "Vec" false [.type t] false)

/-- An option of the type. -/
def Ty.option (t : Ty) : Ty := .path false [] (.generic "Option" false [.type t] false)

theorem Ty.Wraps.sole {x : String} {t u : Ty} (h : t.Wraps u) :
    (Ty.path false [] (.generic x false [.type t] false)).Wraps
      (.path false [] (.generic x false [.type u] false)) :=
  .path .nil (.generic (.cons (.type h) .nil))

theorem Ty.byte_wraps : byte.Wraps byte := .path .nil .bare

/-- In an option a vector of bytes in parentheses is found, and one of bytes in parentheses is not. The
default method with its result in a group is not found. -/
theorem Ty.storage?_wrapped_iff_enclosed :
    (∃ w, (option (.paren (vec byte))).optionInner? = some w ∧ w.storage? = (vec byte).storage?) ∧
      (∃ w, (option (vec (.paren byte))).optionInner? = some w ∧ w.storage? ≠ (vec byte).storage?) ∧
      Method.soleGetter? "ContentValues"
        [⟨Method.default.withResult (.group Method.rowPath), .nowhere⟩] ≠
        some ⟨Method.default.withResult (.group Method.rowPath), .nowhere⟩ := by
  have houter : (option (vec byte)).Wraps (option (.paren (vec byte))) := .sole (.paren (.sole byte_wraps))
  have hinner : (option (vec byte)).Wraps (option (vec (.paren byte))) := .sole (.sole (.paren byte_wraps))
  have hrow : Method.rowPath.Wraps (.group Method.rowPath) := .group (.path (.cons .bare .nil) .bare)
  have hnative : (vec byte).Native (.owned .bytes) := .bytes
  have hshown : ¬ (paren (vec byte)).Hidden := fun h => (hidden_iff.1 h).not_native hnative
  have hhidden : (vec (.paren byte)).Hidden := hidden_iff.2 (.vec .paren)
  refine ⟨⟨_, rfl, ?_⟩, ⟨_, rfl, ?_⟩, fun hsole => ?_⟩
  · obtain ⟨-, -, hstorage, -⟩ := Ty.storage?_wrapped_iff houter
    exact (hstorage _ _ rfl rfl).2 (.inr hshown)
  · obtain ⟨-, -, hstorage, -⟩ := Ty.storage?_wrapped_iff hinner
    exact fun heq => ((hstorage _ _ rfl rfl).1 heq).elim (fun h => nomatch h) (· hhidden)
  · obtain ⟨-, -, -, hgetter⟩ := Ty.storage?_wrapped_iff hrow
    exact ((hgetter _ [] [] _ _ rfl).1 hsole).2 .group

/-- The type that the text is, if it is one and nothing else. -/
def Ty.ofText? (source : String) : Option Ty :=
  (Token.lex? source).bind fun ts => (Ty.ofTokens (Token.unmarkList ts)).toOption

/-- Bytes in an invisible group, as a macro leaves them in a vector, are not found. -/
theorem Ty.storage?_hidden_bytes :
    ∃ t u, Ty.ofText? "Vec<u8>" = some t ∧ Ty.ofText? "Vec<__group(u8)>" = some u ∧ t.Wraps u ∧
      t.storage? = some (.owned .bytes) ∧ u.storage? = none := by
  have hplain : Ty.ofText? "Vec<u8>" = some (vec byte) := by decide +kernel
  have hgroup : Ty.ofText? "Vec<__group(u8)>" = some (vec (.group byte)) := by decide +kernel
  exact ⟨_, _, hplain, hgroup, .sole (.group byte_wraps), rfl, rfl⟩

end RowDerive
