import RowDerive.Proofs.Derive.Diagnostics

/-!
# The one getter

A getter is told by its signature alone, whatever stands beside it. So a list of methods has one getter if
a single place in it holds one, and which it is depends neither on the order of the methods nor on those
that are no getters: `Method.soleGetter?_contextFree`. A second getter, were it a copy of the first, leaves
none to speak of.
-/

namespace RowDerive

/-- What the signature of a getter of the type `x` is: it has no qualifier and no parameters but one
receiver and perhaps lifetimes, and its result is a path to the bare name `x`. -/
structure Signature.Gets (x : String) (sig : Signature) : Prop where
  notConst : sig.isConst = false
  notAsync : sig.isAsync = false
  notUnsafe : sig.isUnsafe = false
  notExtern : sig.abi = none
  notVariadic : sig.variadic = none
  lifetimes : ∀ p ∈ sig.generics.items, ∃ attrs y bounds, p = .lifetime attrs y bounds
  receiver : ∃ ts, sig.params.items = [.receiver ts]
  result : ∃ rooted init, sig.result = some (.path rooted init (.bare x))

namespace Signature

variable {x : String} {sig : Signature}

theorem isPlain_iff :
    sig.isPlain = true ↔ sig.isConst = false ∧ sig.isAsync = false ∧ sig.isUnsafe = false ∧
      sig.abi = none ∧ sig.variadic = none := by
  simp [isPlain, and_assoc]

theorem takesReceiverOnly_iff :
    sig.takesReceiverOnly = true ↔ ∃ ts, sig.params.items = [.receiver ts] := by
  unfold takesReceiverOnly
  split
  · rename_i p hp
    cases p <;> simp [hp, FnParam.isReceiver]
  · rename_i hnone
    simp only [Bool.false_eq_true, false_iff]
    rintro ⟨ts, h⟩
    exact hnone _ h

theorem returns_iff :
    sig.returns x = true ↔ ∃ rooted init, sig.result = some (.path rooted init (.bare x)) := by
  unfold returns
  split
  · rename_i s hresult
    cases s <;> simp [hresult, Segment.name, Segment.isBare]
  · rename_i hnone
    simp only [Bool.false_eq_true, false_iff]
    rintro ⟨rooted, init, h⟩
    exact hnone _ _ _ h

theorem isLifetime_iff (p : GenericParam) :
    p.isLifetime = true ↔ ∃ attrs y bounds, p = .lifetime attrs y bounds := by
  cases p <;> simp [GenericParam.isLifetime]

theorem isGetter_iff : sig.isGetter x = true ↔ sig.Gets x := by
  simp only [isGetter, Bool.and_eq_true, List.all_eq_true, isPlain_iff, takesReceiverOnly_iff,
    returns_iff, isLifetime_iff]
  constructor
  · rintro ⟨⟨⟨⟨hconst, hasync, hunsafe, habi, hvariadic⟩, hlifetimes⟩, hreceiver⟩, hresult⟩
    exact ⟨hconst, hasync, hunsafe, habi, hvariadic, hlifetimes, hreceiver, hresult⟩
  · intro h
    exact ⟨⟨⟨⟨h.notConst, h.notAsync, h.notUnsafe, h.notExtern, h.notVariadic⟩, h.lifetimes⟩,
      h.receiver⟩, h.result⟩

end Signature

namespace Method

variable {x : String} {ms ns before after : List (Located Method)} {m n : Located Method}

/-- Whether the signature of the method is that of a getter of the type `x`. -/
def Gets (x : String) (m : Method) : Prop := m.sig.Gets x

theorem isGetter_iff {m : Method} : m.isGetter x = true ↔ m.Gets x := Signature.isGetter_iff

/-- The list `ns` has the same getters of the type `x` as `ms`, perhaps at other places: methods are put
into another order, and methods that are no getters come or go. -/
inductive Rearranged (x : String) : List (Located Method) → List (Located Method) → Prop
  | perm {ms ns : List (Located Method)} (h : ms.Perm ns) : Rearranged x ms ns
  | insert (before after : List (Located Method)) {m : Located Method} (h : ¬ m.val.Gets x) :
    Rearranged x (before ++ after) (before ++ m :: after)
  | erase (before after : List (Located Method)) {m : Located Method} (h : ¬ m.val.Gets x) :
    Rearranged x (before ++ m :: after) (before ++ after)
  | trans {ms ns os : List (Located Method)} (h : Rearranged x ms ns) (h' : Rearranged x ns os) :
    Rearranged x ms os

/-! ## One getter -/

theorem filter_of_gets (h : m.val.Gets x) :
    (before ++ m :: after).filter (·.val.isGetter x) =
      before.filter (·.val.isGetter x) ++ m :: after.filter (·.val.isGetter x) := by
  have hm : (m :: after).filter (·.val.isGetter x) = m :: after.filter (·.val.isGetter x) :=
    List.filter_cons_of_pos (isGetter_iff.2 h)
  rw [List.filter_append, hm]

theorem filter_of_not_gets (h : ¬ m.val.Gets x) :
    (before ++ m :: after).filter (·.val.isGetter x) =
      (before ++ after).filter (·.val.isGetter x) := by
  have hm : (m :: after).filter (·.val.isGetter x) = after.filter (·.val.isGetter x) :=
    List.filter_cons_of_neg fun hget => h (isGetter_iff.1 hget)
  rw [List.filter_append, List.filter_append, hm]

/-- The method at a place of the list is the one getter if it is one and no other place holds one. -/
theorem soleGetter?_append_cons_iff :
    soleGetter? x (before ++ m :: after) = some m ↔
      m.val.Gets x ∧ ∀ n ∈ before ++ after, ¬ n.val.Gets x := by
  constructor
  · intro h
    have hm : m.val.Gets x := isGetter_iff.1 (isGetter_of_soleGetter? h)
    have hfilter := soleGetter?_eq_some_iff.1 h
    rw [filter_of_gets hm, List.append_eq_singleton_iff] at hfilter
    rcases hfilter with ⟨hbefore, hafter⟩ | ⟨-, hnil⟩
    · have hnone : (before ++ after).filter (·.val.isGetter x) = [] := by
        rw [List.filter_append, hbefore, (List.cons.inj hafter).2, List.append_nil]
      exact ⟨hm, fun n hn hget => List.filter_eq_nil_iff.1 hnone n hn (isGetter_iff.2 hget)⟩
    · cases hnil
  · rintro ⟨hm, hothers⟩
    exact soleGetter?_append_cons (isGetter_iff.2 hm)
      fun n hn hget => hothers n hn (isGetter_iff.1 hget)

theorem soleGetter?_eq_some_iff_split :
    soleGetter? x ms = some m ↔
      ∃ before after, ms = before ++ m :: after ∧ m.val.Gets x ∧
        ∀ n ∈ before ++ after, ¬ n.val.Gets x := by
  constructor
  · intro h
    obtain ⟨before, after, rfl⟩ := List.append_of_mem (mem_of_soleGetter? h)
    exact ⟨before, after, rfl, soleGetter?_append_cons_iff.1 h⟩
  · rintro ⟨before, after, rfl, h⟩
    exact soleGetter?_append_cons_iff.2 h

/-! ## Other methods -/

theorem soleGetter?_perm (h : ms.Perm ns) : soleGetter? x ms = soleGetter? x ns := by
  have hfilter := h.filter (·.val.isGetter x)
  rw [soleGetter?, soleGetter?]
  generalize ms.filter (·.val.isGetter x) = as, ns.filter (·.val.isGetter x) = bs at hfilter ⊢
  -- a list that is a permutation of one method alone is that list
  match as, bs, hfilter with
  | [], bs, hfilter => rw [List.nil_perm.1 hfilter]
  | [a], bs, hfilter => rw [List.singleton_perm.1 hfilter]
  | a :: a' :: as, bs, hfilter =>
      match bs, hfilter.length_eq with
      | _ :: _ :: _, _ => rfl

theorem soleGetter?_insert (h : ¬ m.val.Gets x) :
    soleGetter? x (before ++ m :: after) = soleGetter? x (before ++ after) := by
  rw [soleGetter?, soleGetter?, filter_of_not_gets h]

theorem Rearranged.soleGetter?_eq (h : Rearranged x ms ns) : soleGetter? x ms = soleGetter? x ns := by
  induction h with
  | perm h => exact soleGetter?_perm h
  | insert before after h => exact (soleGetter?_insert h).symm
  | erase before after h => exact soleGetter?_insert h
  | trans _ _ ih ih' => exact ih.trans ih'

/-- Of two getters none is the one. -/
theorem soleGetter?_of_two (hm : m ∈ before ++ after) (hgets : m.val.Gets x) (h : n.val.Gets x) :
    soleGetter? x (before ++ n :: after) = none := by
  cases hsole : soleGetter? x (before ++ n :: after) with
  | none => rfl
  | some o =>
      have hfilter := congrArg List.length (soleGetter?_eq_some_iff.1 hsole)
      have hpos : 0 < ((before ++ after).filter (·.val.isGetter x)).length :=
        List.length_pos_iff.2 (List.ne_nil_of_mem (List.mem_filter.2 ⟨hm, isGetter_iff.2 hgets⟩))
      rw [filter_of_gets h, List.length_append, List.length_cons, List.length_singleton] at hfilter
      rw [List.filter_append, List.length_append] at hpos
      omega

/-- A method is the one getter of a list exactly if it stands at some place of it, is a getter, and no
method at another place is. The answer stays the same if the methods are put into another order or methods
that are no getters come or go; if another getter comes, at whatever place, there is none. -/
theorem soleGetter?_contextFree (x : String) (ms : List (Located Method)) :
    (∀ m, soleGetter? x ms = some m ↔
      ∃ before after, ms = before ++ m :: after ∧ m.val.Gets x ∧
        ∀ n ∈ before ++ after, ¬ n.val.Gets x) ∧
      (∀ ns, Rearranged x ms ns → soleGetter? x ns = soleGetter? x ms) ∧
      ∀ m, soleGetter? x ms = some m → ∀ before after, ms = before ++ after →
        ∀ n, n.val.Gets x → soleGetter? x (before ++ n :: after) = none := by
  refine ⟨fun m => soleGetter?_eq_some_iff_split, fun ns h => h.soleGetter?_eq.symm, ?_⟩
  rintro m hsole before after rfl n hn
  exact soleGetter?_of_two (mem_of_soleGetter? hsole)
    (isGetter_iff.1 (isGetter_of_soleGetter? hsole)) hn

/-- The default method with `const` before it, which is no getter. -/
def constDefault : Method := { Method.default with sig := { Method.default.sig with isConst := true } }

/-- The default method is found beside one that is no getter, and not beside a copy of itself. -/
theorem soleGetter?_contextFree_default :
    soleGetter? "ContentValues" [⟨constDefault, .nowhere⟩, ⟨.default, .nowhere⟩] =
        some ⟨.default, .nowhere⟩ ∧
      soleGetter? "ContentValues" [⟨.default, .nowhere⟩, ⟨.default, .nowhere⟩] = none := by
  obtain ⟨hsole, hother, hsecond⟩ := soleGetter?_contextFree "ContentValues" [⟨.default, .nowhere⟩]
  have hgets : Method.default.Gets "ContentValues" := isGetter_iff.1 (by decide)
  have hconst : ¬ constDefault.Gets "ContentValues" := fun h => nomatch h.notConst
  have hone := (hsole ⟨.default, .nowhere⟩).2 ⟨[], [], rfl, hgets, by simp⟩
  exact ⟨(hother _ (.insert [] _ hconst)).trans hone, hsecond _ hone [] _ rfl _ hgets⟩

end Method

end RowDerive
