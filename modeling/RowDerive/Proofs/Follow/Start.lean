import RowDerive.Proofs.Follow.Method

/-!
# How methods that are read begin

What is read as a method begins with an attribute, with a visibility or with the keywords of a signature.
-/

namespace RowDerive

open RowDerive.Parser RowDerive.Grammar

variable {ρ : Rules} {c d : Cursor}

/-! ## Signatures -/

theorem flag_eq_ok {k : String} {b : Bool} (h : flag k c = .ok (b, d)) :
    d = c ∨ ∃ a, Token.reveal c.rest = .ident k a :: d.rest := by
  obtain ⟨ts, e, hread, h⟩ := bind_eq_ok h
  cases h
  exact keyword?_eq_ok hread

theorem startsFn_of_name {e : Cursor} {t : Token} {x : String} (hfn : keyword "fn" c = .ok (t, d))
    (hname : name d = .ok (x, e)) : Token.StartsFn (Token.openedList c.rest) := by
  obtain ⟨a, us, hts, rfl⟩ := keyword_eq_ok hfn
  obtain ⟨-, b, hus⟩ := name_eq_ok hname
  rw [Token.openedList_of_reveal hts, Token.openedList_of_reveal hus]
  exact .fn

theorem startsFn_of_abi? {x : Option (List Token)} (h : abi? c = .ok (x, d))
    (hd : Token.StartsFn (Token.openedList d.rest)) : Token.StartsFn (Token.openedList c.rest) := by
  rcases abi?_eq_ok h with rfl | ⟨a, us, hts, hrest⟩
  · exact hd
  · rw [Token.openedList_of_reveal hts]
    rcases hrest with rfl | ⟨y, b, hus⟩
    · exact .abi hd
    · rw [Token.openedList_of_reveal hus]
      exact .namedAbi hd

theorem startsFn_of_unsafe_word {b : Bool} (h : flag "unsafe" c = .ok (b, d))
    (hd : Token.StartsFn (Token.openedList d.rest)) : Token.StartsFn (Token.openedList c.rest) := by
  rcases flag_eq_ok h with rfl | ⟨a, hts⟩
  · exact hd
  · rw [Token.openedList_of_reveal hts]
    exact .unsafety hd

/-- What follows `const` begins with `async`, or as a function does. -/
theorem exists_of_async {b : Bool} (h : flag "async" c = .ok (b, d))
    (hd : Token.StartsFn (Token.openedList d.rest)) :
    (∃ a us, Token.openedList c.rest = .ident "async" a :: us) ∨
      Token.StartsFn (Token.openedList c.rest) := by
  rcases flag_eq_ok h with rfl | ⟨a, hts⟩
  · exact .inr hd
  · exact .inl ⟨a, _, Token.openedList_of_reveal hts⟩

theorem startsMethod_of_const {b : Bool} (h : flag "const" c = .ok (b, d))
    (hd : (∃ a us, Token.openedList d.rest = .ident "async" a :: us) ∨
      Token.StartsFn (Token.openedList d.rest)) : Token.StartsMethod (Token.openedList c.rest) := by
  rcases flag_eq_ok h with rfl | ⟨a, hts⟩
  · rcases hd with ⟨a, us, hus⟩ | hfn
    · rw [hus]
      exact .asyncness
    · exact .fn hfn
  · rw [Token.openedList_of_reveal hts]
    rcases hd with ⟨e, us, hus⟩ | hfn
    · rw [hus]
      exact .constness (by decide)
    · obtain ⟨k, e, us, hus, hk⟩ := hfn.exists_head
      rw [hus]
      exact .constness (List.mem_cons_of_mem _ hk)

theorem startsMethod_of_signature {sig : Located Signature} (h : signature ρ c = .ok (sig, d)) :
    Token.StartsMethod (Token.openedList c.rest) := by
  obtain ⟨whole, e, hwith, -⟩ := bind_eq_ok h
  obtain ⟨head, e, hlocated, -⟩ := bind_eq_ok hwith
  obtain ⟨x, hhead, -⟩ := located_eq_ok hlocated
  obtain ⟨isConst, c₁, hconst, h⟩ := bind_eq_ok hhead
  obtain ⟨isAsync, c₂, hasync, h⟩ := bind_eq_ok h
  obtain ⟨isUnsafe, c₃, hunsafe, h⟩ := bind_eq_ok h
  obtain ⟨isSafe, c₄, hsafe, h⟩ := bind_eq_ok h
  cases hsafe
  obtain ⟨ext, c₅, habi, h⟩ := bind_eq_ok h
  obtain ⟨_, c₆, hfn, h⟩ := bind_eq_ok h
  obtain ⟨t, hfn⟩ := discard_eq_ok hfn
  obtain ⟨x, c₇, hname, -⟩ := bind_eq_ok h
  have hfn := startsFn_of_unsafe_word hunsafe (startsFn_of_abi? habi (startsFn_of_name hfn hname))
  exact startsMethod_of_const hconst (exists_of_async hasync hfn)

/-! ## What stands before a signature -/

theorem startsMethod_of_visibility {ts : List Token} (h : visibility c = .ok (ts, d))
    (hd : Token.StartsMethod (Token.openedList d.rest)) : Token.StartsMethod (Token.openedList c.rest) := by
  by_cases hgroup : ∃ o cl us, c.rest = .group .invisible [] o cl :: us
  · obtain ⟨o, cl, us, hus⟩ := hgroup
    rw [visibility_of_invisible hus] at h
    cases h
    rw [hus]
    exact hd
  · rw [visibility_of_not fun o cl us hus => hgroup ⟨o, cl, us, hus⟩] at h
    unfold visibilityWord at h
    rw [bind_peek] at h
    split at h
    · obtain ⟨t, e, hpub, -⟩ := bind_eq_ok h
      obtain ⟨a, us, hts, -⟩ := keyword_eq_ok hpub
      rw [Token.openedList_of_reveal hts]
      exact .pub
    · cases h
      exact hd

theorem startsMethod_of_oneAttribute {a : Attribute} (h : oneAttribute ρ c = .ok (a, d)) :
    Token.StartsMethod (Token.openedList c.rest) := by
  obtain ⟨x, e, hlocated, -⟩ := bind_eq_ok h
  obtain ⟨y, hread, -⟩ := located_eq_ok hlocated
  obtain ⟨_, e, hsharp, hgroup⟩ := bind_eq_ok hread
  obtain ⟨ts, hsharp⟩ := discard_eq_ok hsharp
  obtain ⟨hlook, hrest⟩ := op_eq_ok hsharp
  obtain ⟨joint, a, us, hus⟩ := Token.exists_punct_of_op rfl hlook
  obtain ⟨vs, o, cl, ws, hgroup⟩ := inGroup_eq_ok hgroup
  rw [hrest, hus] at hgroup
  rw [Token.openedList_of_reveal hus, Token.openedList_of_reveal (show Token.reveal us = _ from hgroup)]
  exact .attr

theorem startsMethod_of_attributeTokens {as : List (List Token)} (h : attributeTokens ρ c = .ok (as, d))
    (hd : Token.StartsMethod (Token.openedList d.rest)) : Token.StartsMethod (Token.openedList c.rest) := by
  obtain ⟨attrs, e, hattrs, h⟩ := bind_eq_ok h
  cases h
  obtain ⟨n, e', hahead, hmany⟩ := bind_eq_ok (show (ahead >>= _) c = _ from hattrs)
  cases hahead
  rcases manyWhile_eq_ok hmany with rfl | ⟨a, e', hread⟩
  · exact hd
  · exact startsMethod_of_oneAttribute hread

/-- What is read as a method begins as one. -/
theorem startsMethod_of_method {m : Located Method} (h : method ρ c = .ok (m, d)) :
    Token.StartsMethod (Token.openedList c.rest) := by
  obtain ⟨as, e, hattrs, h⟩ := bind_eq_ok h
  obtain ⟨vis, e', hvis, h⟩ := bind_eq_ok h
  obtain ⟨sig, e'', hsig, -⟩ := bind_eq_ok h
  exact startsMethod_of_attributeTokens hattrs
    (startsMethod_of_visibility hvis (startsMethod_of_signature hsig))

end RowDerive
