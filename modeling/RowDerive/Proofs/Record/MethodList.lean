import RowDerive.Proofs.Depth.Item
import RowDerive.Proofs.Follow.Start
import RowDerive.Proofs.Place.Setting

/-!
# Lists of methods

Methods that can be read one by one can be read together with a semicolon between any two, and perhaps
one after the last. A semicolon that stands elsewhere, or is missing, is a fault.
-/

namespace RowDerive

open RowDerive.Parser RowDerive.Grammar
open Placed (blur)

namespace Method

/-- The method that the tokens are, if they are one to the last of them. -/
def ofTokens? (ts : List Token) : Option Method :=
  match method (rulesFor ts) (.ofTokens ts .nowhere) with
  | .ok (m, c) => if c.rest.isEmpty && c.leftOver.isNone then some m.val else none
  | .error _ => none

/-- The tokens are the methods, with a semicolon between any two and perhaps one after the last. -/
inductive Declares : List Token → List Method → Prop
  | nil : Declares [] []
  | last {ts : List Token} {m : Method} (h : ofTokens? ts = some m) : Declares ts [m]
  | cons {ts us : List Token} {m : Method} {ms : List Method} {joint : Bool} {a : Span}
    (h : ofTokens? ts = some m) (hus : Declares us ms) :
    Declares (ts ++ .punct ';' joint a :: us) (m :: ms)

/-- The tokens begin as such a list, up to a semicolon with no method before it, or to two methods with
no semicolon between them. -/
inductive Misjoined : List Token → Prop
  | semicolon {us : List Token} {joint : Bool} {a : Span} : Misjoined (.punct ';' joint a :: us)
  | missing {ts us vs : List Token} {m n : Method} (h : ofTokens? ts = some m)
    (hus : ofTokens? us = some n) : Misjoined (ts ++ (us ++ vs))
  | later {ts us : List Token} {m : Method} {joint : Bool} {a : Span} (h : ofTokens? ts = some m)
    (hus : Misjoined us) : Misjoined (ts ++ .punct ';' joint a :: us)

variable {ts us s : List Token} {m : Method}

theorem ofTokens?_eq_some (h : ofTokens? ts = some m) :
    ∃ x c, method (rulesFor ts) (.ofTokens ts .nowhere) = .ok (x, c) ∧ x.val = m ∧ c.rest = [] ∧
      c.leftOver = none := by
  unfold ofTokens? at h
  cases hread : method (rulesFor ts) (.ofTokens ts .nowhere) with
  | error e =>
      rw [hread] at h
      cases h
  | ok r =>
      rw [hread] at h
      obtain ⟨x, c⟩ := r
      by_cases hend : (c.rest.isEmpty && c.leftOver.isNone) = true
      · simp only [hend, if_true] at h
        obtain ⟨hrest, hleft⟩ := Bool.and_eq_true_iff.1 hend
        exact ⟨x, c, rfl, Option.some.inj h, List.isEmpty_iff.1 hrest, Option.isNone_iff_eq_none.1 hleft⟩
      · simp only [hend] at h
        cases h

/-- The method is read among more tokens as it is alone, wherever it stands. -/
theorem read_of_ofTokens? (h : ofTokens? ts = some m) (hsize : Token.sizeList ts ≤ Token.sizeList us)
    (close last : Span) :
    ∃ x c, method (rulesFor us) ⟨ts, close, last, none⟩ = .ok (x, c) ∧ x.val = m ∧ c.rest = [] ∧
      c.leftOver = none := by
  obtain ⟨x, c, hread, hval, hrest, hleft⟩ := ofTokens?_eq_some h
  have hdeeper := rulesFor_agree hsize
  have hagrees : Agrees (method (rulesFor ts)) (method (rulesFor us)) := inferInstance
  obtain ⟨y, d, hy, halike, hend⟩ := hagrees.read_elsewhere hread hrest hleft close last
  exact ⟨y, d, hy, (Located.val_eq_of_alike halike).symm.trans hval, hend⟩

/-- Where the tokens stand does not matter. -/
theorem ofTokens?_congr (h : ts.map Token.erase = us.map Token.erase) : ofTokens? ts = ofTokens? us := by
  have hblind : Blind (method (rulesFor ts)) := inferInstance
  have hplaces := hblind.of_blur_eq (Cursor.blur_ofTokens h .nowhere .nowhere)
  rw [ofTokens?, ofTokens?, ← rulesFor_congr h]
  rcases blur_eq_iff.1 hplaces with ⟨⟨x, c⟩, ⟨y, d⟩, hx, hy, hblur⟩ | ⟨e, e', he, he', -⟩
  · obtain ⟨hxy, hcd⟩ := Prod.mk.inj hblur
    obtain ⟨hrests, hlefts⟩ := Cursor.blur_eq_iff.1 hcd
    have hval : x.val = y.val := Located.val_eq_of_alike ⟨hxy⟩
    have hempty : c.rest.isEmpty = d.rest.isEmpty := by
      rw [← List.isEmpty_map (f := Token.erase), hrests, List.isEmpty_map]
    have hnone : c.leftOver.isNone = d.leftOver.isNone := by
      rw [← Option.isNone_map (f := blur), ← Option.isNone_map (f := blur) (x := d.leftOver)]
      exact congrArg Option.isNone hlefts
    rw [hx, hy]
    simp only [hval, hempty, hnone]
  · rw [he, he']

/-- Tokens that are a method begin as one. -/
theorem startsMethod_of_ofTokens? (h : ofTokens? ts = some m) :
    Token.StartsMethod (Token.openedList ts) := by
  obtain ⟨x, c, hread, -⟩ := ofTokens?_eq_some h
  exact startsMethod_of_method hread

theorem ne_nil_of_ofTokens? (h : ofTokens? ts = some m) : ts ≠ [] := by
  rintro rfl
  obtain ⟨t, us, hts, -⟩ := (startsMethod_of_ofTokens? h).exists_head
  cases hts

/-! ## What follows a method -/

instance (joint : Bool) (a : Span) (us : List Token) : Token.EndsMethod (.punct ';' joint a :: us) where
  ends := .inl rfl
  comma := rfl
  as_word := rfl

/-- A method may follow, where a semicolon is missing. -/
theorem endsMethod_of_startsMethod {s : List Token} (h : Token.StartsMethod (Token.openedList s)) :
    Token.EndsMethod s where
  ends := .inr h
  comma := (Token.of_not_parting (Token.not_parting_of_method h)).2.1
  as_word := (Token.of_not_parting (Token.not_parting_of_method h)).2.2

/-- In front of a semicolon the method is read as it is alone. -/
theorem read_of_semicolon (h : ofTokens? ts = some m) (hsize : Token.sizeList ts ≤ Token.sizeList us)
    (close last : Span) (joint : Bool) (a : Span) (vs : List Token) :
    ∃ x c, method (rulesFor us) ⟨ts ++ .punct ';' joint a :: vs, close, last, none⟩ = .ok (x, c) ∧
      x.val = m ∧ c.rest = .punct ';' joint a :: vs ∧ c.leftOver = none := by
  obtain ⟨x, c, hread, hval, hrest, hleft⟩ := read_of_ofTokens? h hsize close last
  have hstops : Parser.Stops (.punct ';' joint a :: vs) (method (rulesFor us)) (method (rulesFor us)) :=
    inferInstance
  have hok := (hstops.kept _ x c (.of_not rfl) hread).ok rfl
  refine ⟨x, _, hok, hval, ?_, hleft⟩
  rw [Cursor.rest_followedBy, hrest, List.nil_append]

/-! ## Lists -/

section

variable {α : Type} {p : Parser α} {c d : Cursor} {x : α}

theorem atEnd_apply (c : Cursor) : atEnd c = .ok (c.rest.isEmpty, c) := rfl

theorem listUntil_last (n : Nat) (hc : c.rest ≠ []) (hread : p c = .ok (x, d)) (hd : d.rest = []) :
    listUntil ";" atEnd p (n + 1) c = .ok (⟨[x], false⟩, d) := by
  have hc' : c.rest.isEmpty = false := List.isEmpty_eq_false_iff.2 hc
  have hd' : d.rest.isEmpty = true := List.isEmpty_iff.2 hd
  simp only [listUntil, bind_apply, atEnd_apply, hc', hread, hd', Bool.false_eq_true, if_false, if_true,
    pure_apply]

/-- Behind an item that is not the last a semicolon is read, and the rest of the list. -/
theorem listUntil_more (n : Nat) (hc : c.rest ≠ []) (hread : p c = .ok (x, d)) (hd : d.rest ≠ []) :
    listUntil ";" atEnd p (n + 1) c = (discard (op ";") >>= fun _ => listUntil ";" atEnd p n >>= fun l =>
      pure (Listed.mk (x :: l.items) (l.items.isEmpty || l.trailing))) d := by
  have hc' : c.rest.isEmpty = false := List.isEmpty_eq_false_iff.2 hc
  have hd' : d.rest.isEmpty = false := List.isEmpty_eq_false_iff.2 hd
  simp only [listUntil, bind_apply, atEnd_apply, hc', hread, hd', Bool.false_eq_true, if_false]

end

theorem op_semicolon (joint : Bool) (a : Span) (c : Cursor) (h : c.rest = .punct ';' joint a :: us) :
    discard (op ";") c = .ok ((), { c with rest := us, last := a }) := by
  obtain ⟨rest, close, last, left⟩ := c
  obtain rfl : rest = _ := h
  rfl

variable {ms : List Method}

/-- Methods that can be read one by one can be read as a list. -/
theorem listUntil_of_declares (h : Declares ts ms) (hsize : Token.sizeList ts ≤ Token.sizeList us)
    (n : Nat) (hn : Token.sizeList ts < n) (close last : Span) :
    ∃ l c, listUntil ";" atEnd (method (rulesFor us)) n ⟨ts, close, last, none⟩ = .ok (l, c) ∧
      l.items.map Located.val = ms ∧ c.rest = [] ∧ c.leftOver = none := by
  induction h generalizing n close last with
  | nil =>
      obtain ⟨n, rfl⟩ : ∃ k, n = k + 1 := ⟨n - 1, by omega⟩
      exact ⟨⟨[], false⟩, _, rfl, rfl, rfl, rfl⟩
  | @last ts m h =>
      obtain ⟨n, rfl⟩ : ∃ k, n = k + 1 := ⟨n - 1, by omega⟩
      obtain ⟨x, c, hread, hval, hrest, hleft⟩ := read_of_ofTokens? h hsize close last
      exact ⟨_, c, listUntil_last n (ne_nil_of_ofTokens? h) hread hrest, congrArg ([·]) hval, hrest, hleft⟩
  | @cons ts vs m ms joint a h hvs ih =>
      obtain ⟨n, rfl⟩ : ∃ k, n = k + 1 := ⟨n - 1, by omega⟩
      rw [Token.sizeList_append, Token.sizeList, Token.size] at hsize hn
      have hfirst : Token.sizeList ts ≤ Token.sizeList us := by omega
      obtain ⟨x, c, hread, hval, hrest, hleft⟩ := read_of_semicolon h hfirst close last joint a vs
      obtain ⟨l, d, hlist, hvals, hend⟩ := ih (by omega) n (by omega) c.close a
      refine ⟨⟨x :: l.items, l.items.isEmpty || l.trailing⟩, d, ?_, ?_, hend⟩
      · rw [listUntil_more n (by simp) hread (by simp [hrest]), bind_apply, op_semicolon joint a c hrest]
        obtain ⟨_, close', last', _⟩ := c
        cases hleft
        simp only [bind_apply, hlist, pure_apply]
      · rw [List.map_cons, hval, hvals]

/-! ## Faults -/

theorem listUntil_error {α : Type} {p : Parser α} {c : Cursor} {e : SyntaxError} (n : Nat)
    (hc : c.rest ≠ []) (hread : p c = .error e) : listUntil ";" atEnd p (n + 1) c = .error e := by
  have hc' : c.rest.isEmpty = false := List.isEmpty_eq_false_iff.2 hc
  simp only [listUntil, bind_apply, atEnd_apply, hc', hread, Bool.false_eq_true, if_false]

/-- Behind a method another one is no semicolon. -/
theorem read_of_missing {vs : List Token} {k : Method} (h : ofTokens? ts = some m)
    (hvs : ofTokens? vs = some k) (ws : List Token) (hsize : Token.sizeList ts ≤ Token.sizeList us)
    (close last : Span) :
    (∃ e, method (rulesFor us) ⟨ts ++ (vs ++ ws), close, last, none⟩ = .error e) ∨
      ∃ x c, method (rulesFor us) ⟨ts ++ (vs ++ ws), close, last, none⟩ = .ok (x, c) ∧
        c.rest = vs ++ ws ∧ Look.op ";" c.rest = false := by
  obtain ⟨x, c, hread, -, hrest, -⟩ := read_of_ofTokens? h hsize close last
  have hmethod : Token.StartsMethod (Token.openedList (vs ++ ws)) := by
    rw [Token.openedList_append]
    exact (startsMethod_of_ofTokens? hvs).append _
  obtain ⟨hsemi, -, has⟩ := Token.of_not_parting (Token.not_parting_of_method hmethod)
  have hends := endsMethod_of_startsMethod hmethod
  have hstops : Parser.Stops (vs ++ ws) (method (rulesFor us)) (method (rulesFor us)) := inferInstance
  rcases (hstops.kept _ x c (.of_not has) hread).read with hok | ⟨-, e, herror⟩
  · refine .inr ⟨x, _, hok, ?_⟩
    rw [Cursor.rest_followedBy, hrest, List.nil_append]
    exact ⟨rfl, hsemi⟩
  · exact .inl ⟨e, herror⟩

/-- With a semicolon out of place or missing nothing is read. -/
theorem listUntil_of_misjoined (h : Misjoined ts) (hsize : Token.sizeList ts ≤ Token.sizeList us) (n : Nat)
    (close last : Span) :
    ∃ e, listUntil ";" atEnd (method (rulesFor us)) n ⟨ts, close, last, none⟩ = .error e := by
  induction h generalizing n close last with
  | @semicolon vs joint a =>
      cases n with
      | zero => exact ⟨_, rfl⟩
      | succ n =>
          obtain ⟨e, he⟩ := FailsAt.error (P := Token.Separated) (p := method (rulesFor us))
            ⟨.punct ';' joint a :: vs, close, last, none⟩ rfl
          exact ⟨e, listUntil_error n (by simp) he⟩
  | @missing ts vs ws m k h hvs =>
      cases n with
      | zero => exact ⟨_, rfl⟩
      | succ n =>
          rw [Token.sizeList_append] at hsize
          have hfirst : Token.sizeList ts ≤ Token.sizeList us := by omega
          have hne : ts ++ (vs ++ ws) ≠ [] := fun hnil =>
            ne_nil_of_ofTokens? h (List.append_eq_nil_iff.1 hnil).1
          rcases read_of_missing h hvs ws hfirst close last with ⟨e, he⟩ | ⟨x, c, hread, hrest, hsemi⟩
          · exact ⟨e, listUntil_error n hne he⟩
          · have hnext : c.rest ≠ [] := by
              rw [hrest]
              exact fun hnil => ne_nil_of_ofTokens? hvs (List.append_eq_nil_iff.1 hnil).1
            have hunseen : Look.Unseen (fun ts => Look.op ";" ts = false) (Look.op ";") := ⟨fun _ h => h⟩
            have hfails : FailsAt (fun ts => Look.op ";" ts = false) (op ";") := inferInstance
            obtain ⟨e, he⟩ := hfails.error c hsemi
            exact ⟨e, by rw [listUntil_more n hne hread hnext, bind_apply, discard_apply, he]⟩
  | @later ts vs m joint a h hvs ih =>
      cases n with
      | zero => exact ⟨_, rfl⟩
      | succ n =>
          rw [Token.sizeList_append, Token.sizeList, Token.size] at hsize
          have hfirst : Token.sizeList ts ≤ Token.sizeList us := by omega
          obtain ⟨x, c, hread, hval, hrest, hleft⟩ := read_of_semicolon h hfirst close last joint a vs
          obtain ⟨e, he⟩ := ih (by omega) n c.close a
          refine ⟨e, ?_⟩
          rw [listUntil_more n (by simp) hread (by simp [hrest]), bind_apply, op_semicolon joint a c hrest]
          obtain ⟨_, close', last', _⟩ := c
          cases hleft
          simp only [bind_apply, he]

/-! ## Attributes -/

variable {a : Attribute} {content : List Token} {close : Span}

theorem methodList_apply (ts : List Token) (close : Span) :
    methodList (rulesFor ts) (.ofTokens ts close) =
      match listUntil ";" atEnd (method (rulesFor ts)) (Token.sizeList ts + 1) ⟨ts, close, close, none⟩ with
      | .ok (l, c) => .ok (l.items, c)
      | .error e => .error e := by
  have hahead : ahead (.ofTokens ts close) = .ok (Token.sizeList ts + 1, .ofTokens ts close) := rfl
  simp only [methodList, bind_apply, hahead, pure_apply]
  rw [show Cursor.ofTokens ts close = ⟨ts, close, close, none⟩ from rfl]
  cases listUntil ";" atEnd (method (rulesFor ts)) (Token.sizeList ts + 1) ⟨ts, close, close, none⟩ <;> rfl

/-- The arguments of an attribute that declares methods are read as these. -/
theorem listOfAttribute_of_declares (ha : a.args = .ok (content, close)) (h : Declares content ms) :
    ∃ ls, listOfAttribute a = .ok ls ∧ ls.map Located.val = ms := by
  obtain ⟨l, c, hlist, hvals, hrest, hleft⟩ :=
    listUntil_of_declares h (Nat.le_refl _) _ (Nat.lt_succ_self _) close close
  have hend : c.remainder? = none := by
    rw [Cursor.remainder?, hleft, hrest]
    rfl
  refine ⟨l.items, ?_, hvals⟩
  rw [listOfAttribute, ha]
  simp only [runAll, methodList_apply, hlist, hend]

theorem listOfAttribute_of_misjoined (ha : a.args = .ok (content, close)) (h : Misjoined content) :
    ∃ r, listOfAttribute a = .error [r] := by
  obtain ⟨e, he⟩ :=
    listUntil_of_misjoined h (Nat.le_refl _) (Token.sizeList content + 1) close close
  refine ⟨.ofSyntax e, ?_⟩
  rw [listOfAttribute, ha]
  simp only [runAll, methodList_apply, he]

end Method

end RowDerive
