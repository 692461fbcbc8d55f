import RowDerive.Proofs.Column.SettingList

/-!
# Tokens that end a list of settings

A token that is no key, `=`, string, type or comma where one is due is reported whatever follows it. So is
a key that is none or stands twice, and a name that is empty. Of the settings behind such tokens nothing is
read.
-/

namespace RowDerive

open RowDerive.Parser RowDerive.Grammar

/-- The token stands for itself and not for what an invisible group holds. -/
def Token.IsShown (t : Token) : Prop := Look.invisible [t] = false

/-! ## One token -/

section

variable {t : Token} {us : List Token} {c : Cursor}

theorem Token.IsShown.reveal (ht : t.IsShown) : reveal (t :: us) = t :: us := by
  cases t with
  | group d =>
      cases d with
      | invisible => cases ht
      | paren | bracket | brace => rfl
  | ident | lifetime | punct | literal => rfl

namespace Parser

theorem Look.next_of_isShown (ht : t.IsShown) {p : Token → Bool} : Look.next p (t :: us) = p t := by
  rw [Look.next, ht.reveal]
  rfl

/-- No operator begins at a token that is not its first character. -/
theorem Look.op_of_isShown (ht : t.IsShown) {str : String} {ch : Char} {cs : List Char}
    (hstr : str.toList = ch :: cs) (hch : ∀ joint a, t ≠ .punct ch joint a) :
    Look.op str (t :: us) = false := by
  rw [Look.op, ht.reveal, hstr]
  cases t with
  | punct d joint a =>
      have hd : (ch == d) = false := beq_false_of_ne fun h => hch joint a (h ▸ rfl)
      cases cs <;> simp [Look.opChars, hd]
  | ident | lifetime | literal | group => cases cs <;> rfl

/-- A literal is told by one token, if that is not the sign of a number. -/
theorem Look.literal_of_isShown (ht : t.IsShown) (hminus : ∀ joint a, t ≠ .punct '-' joint a) :
    Look.literal (t :: us) = Look.literal [t] := by
  have hkeyword : Look.anyKeyword ["true", "false"] (t :: us) = Look.anyKeyword ["true", "false"] [t] := by
    simp only [Look.anyKeyword, Look.keyword, Look.next_of_isShown ht]
  have hliteral : Look.literalThat (fun _ => true) (t :: us) = Look.literalThat (fun _ => true) [t] := by
    simp only [Look.literalThat, ht.reveal]
    split <;> simp_all
  rw [Look.literal, Look.literal, hkeyword, hliteral]

theorem op_unexpected (ht : t.IsShown) {str : String} {ch : Char} {cs : List Char}
    (hstr : str.toList = ch :: cs) (hch : ∀ joint a, t ≠ .punct ch joint a) (hc : c.rest = t :: us) :
    discard (op str) c = .error ⟨.expected s!"`{str}`", t.front⟩ := by
  have hop : Look.opChars str.toList (t :: us) = false := by
    have hlook : Look.op str (t :: us) = false := Look.op_of_isShown ht hstr hch
    rwa [Look.op, ht.reveal] at hlook
  simp only [discard_apply, op, bind_get, hc, hop, ht.reveal, here, Bool.false_eq_true, if_false]
  cases t with
  | punct d joint a =>
      simp only [Token.front, ite_self]
      rfl
  | ident | lifetime | literal | group => rfl

theorem stringLiteral_unexpected (ht : t.IsShown) (htext : Look.stringLiteral [t] = false)
    (hc : c.rest = t :: us) :
    located stringLiteral c = .error ⟨.expected "string literal", t.front⟩ := by
  rw [Look.stringLiteral, Look.next_of_isShown ht] at htext
  have hread : stringLiteral c = .error ⟨.expected "string literal", t.front⟩ := by
    simp only [stringLiteral, Parser.take?, bind_apply, get_apply, hc, ht.reveal]
    cases t with
    | literal y a =>
        have hnone : StringLiteral.ofToken? y = none := by simpa using htext
        simp only [hnone, pure_apply, failExpected, bind_get, hc, here]
        rfl
    | ident | lifetime | punct | group =>
        simp only [pure_apply, failExpected, bind_get, hc, here]
        rfl
  rw [located_apply, hread]

end Parser

theorem Setting.key_unexpected (ht : t.IsShown) (hword : Look.word [t] = false)
    (hcolon : ∀ joint a, t ≠ .punct ':' joint a) (hminus : ∀ joint a, t ≠ .punct '-' joint a)
    (hc : c.rest = t :: us) :
    key c = .error ⟨if Look.literal [t] then .nestedLiteral else .nestedToken, t.front⟩ := by
  obtain ⟨rest, close, last, left⟩ := c
  obtain rfl : rest = t :: us := hc
  have hcolons : Look.op "::" (t :: us) = false := Look.op_of_isShown ht rfl hcolon
  have hnoWord : Look.word (t :: us) = false := by
    rw [Look.word, Look.next_of_isShown ht] at hword ⊢
    exact hword
  have hatEnd : atEnd ⟨t :: us, close, last, left⟩ = .ok (false, ⟨t :: us, close, last, left⟩) := rfl
  rw [key, bind_apply, op?_of_not_ahead hcolons]
  simp only [bind_peek, hnoWord]
  rw [if_neg Bool.false_ne_true, bind_apply, hatEnd]
  simp only [Bool.false_eq_true, if_false]
  rw [bind_peek, Look.literal_of_isShown ht hminus]
  rfl

namespace Grammar

/-- No type begins with the token, whatever follows it. -/
inductive StartsNoType : Token → Prop
  | literal {y : String} {a : Span} : StartsNoType (.literal y a)
  | brace {ts : List Token} {a b : Span} : StartsNoType (.group .brace ts a b)
  | punct {ch : Char} {joint : Bool} {a : Span} (h : ch ∉ [':', '<', '*', '&', '!']) :
    StartsNoType (.punct ch joint a)

theorem type_unexpected (ρ : Rules) (plus args : Bool) (ht : StartsNoType t) (hc : c.rest = t :: us) :
    type ρ plus args c = .error ⟨.noneOf false (typeStarts.map Prod.fst), t.front⟩ := by
  cases ht with
  | literal | brace =>
      obtain ⟨rest, close, last, left⟩ := c
      obtain rfl := hc
      rfl
  | @punct ch joint a h =>
      have hop (str : String) {d : Char} {cs : List Char} (hstr : str.toList = d :: cs)
          (hd : d ∈ [':', '<', '*', '&', '!']) : Look.op str c.rest = false := by
        rw [hc]
        refine Look.op_of_isShown (t := .punct ch joint a) rfl hstr fun joint' a' heq => h ?_
        cases heq
        exact hd
      have hcolons := hop "::" rfl (by decide)
      have hangle := hop "<" rfl (by decide)
      have hstar := hop "*" rfl (by decide)
      have hamp := hop "&" rfl (by decide)
      have hbang := hop "!" rfl (by decide)
      have hkeyword (k : String) : Look.keyword k c.rest = false := hc ▸ rfl
      have hgroup (d : Delimiter) : Look.group d c.rest = false := hc ▸ rfl
      have hname : Look.name c.rest = false := hc ▸ rfl
      have hword : pathWordAhead c.rest = false := hc ▸ rfl
      have hlifetime : Look.lifetime c.rest = false := hc ▸ rfl
      have hinvisible : Look.invisible c.rest = false := hc ▸ rfl
      have hmissing : typeStarts.filter (fun x => !x.2 c.rest) = typeStarts := by
        simp [typeStarts, hcolons, hangle, hstar, hamp, hbang, hkeyword, hgroup, hname, hlifetime]
      have hnone : failNoneOf typeStarts c =
          (.error ⟨.noneOf false (typeStarts.map Prod.fst), a⟩ : Except SyntaxError (Ty × Cursor)) := by
        rw [failNoneOf, bind_get, hmissing, here, hc]
        rfl
      have hpeek (look : Look) : peek look c = .ok (look c.rest, c) := rfl
      simp [type, binder?, optionally, typeFrom, fnAhead, Look.anyKeyword, builtinAhead, pathAhead, hpeek,
        hinvisible, hgroup, hkeyword, hword, hcolons, hangle, hstar, hamp, hbang, hlifetime, hnone,
        Token.front]

end Grammar

end

/-! ## Tokens of a setting -/

namespace Setting

section

variable {α : Type} {p : Parser α} {c d : Cursor} {t : Token} {us : List Token}

theorem value_unexpected (ht : t.IsShown) (heq : ∀ joint a, t ≠ .punct '=' joint a) (hc : c.rest = t :: us) :
    value p c = .error (.ofSyntax ⟨.expected "`=`", t.front⟩) := by
  refine read_of_error ?_
  rw [Parser.bind_apply, op_unexpected ht rfl heq hc]
  rfl

theorem value_of_error {joint : Bool} {a : Span} {e : SyntaxError} (heq : c.Next (.punct '=' joint a) d)
    (h : p d = .error e) : value p c = .error (.ofSyntax e) := by
  refine read_of_error ?_
  rw [Parser.bind_apply, (discard_op_eq_ok_iff rfl).2 ⟨joint, a, heq⟩]
  exact h

end

/-- The tokens are enough of a setting to tell that it cannot be added to `s`, or that the list ends behind
it: one token is none that is due, the key is none or stands twice, or the name is empty. -/
inductive Spoils (s : Setting) : List Token → Report → Prop
  | noKey {t : Token} (ht : t.IsShown) (hword : Look.word [t] = false)
    (hcolon : ∀ joint a, t ≠ .punct ':' joint a) (hminus : ∀ joint a, t ≠ .punct '-' joint a) :
    Spoils s [t] (.ofSyntax ⟨if Look.literal [t] then .nestedLiteral else .nestedToken, t.front⟩)
  | unknown {x : String} {a b : Span} {joint : Bool} (hx : ∀ kind : Kind, x ≠ kind.key) :
    Spoils s [.ident x a, .punct '=' joint b] ⟨.unknownSetting, a⟩
  | again {kind : Kind} {a b : Span} {joint : Bool} (hs : s.has kind = true) :
    Spoils s [.ident kind.key a, .punct '=' joint b] ⟨kind.duplicate, a⟩
  | noEquals {kind : Kind} {a : Span} {t : Token} (hs : s.has kind = false) (ht : t.IsShown)
    (hcolon : ∀ joint b, t ≠ .punct ':' joint b) (heq : ∀ joint b, t ≠ .punct '=' joint b) :
    Spoils s [.ident kind.key a, t] (.ofSyntax ⟨.expected "`=`", t.front⟩)
  | noText {a b : Span} {joint : Bool} {t : Token} (hs : s.has .name = false) (ht : t.IsShown)
    (htext : Look.stringLiteral [t] = false) :
    Spoils s [.ident "name" a, .punct '=' joint b, t] (.ofSyntax ⟨.expected "string literal", t.front⟩)
  | empty {a b : Span} {joint : Bool} {y : String} {x : Located StringLiteral} (hs : s.has .name = false)
    (hy : StringLiteral.ofToken? y = some x.val) (hx : x.val.value = "") :
    Spoils s [.ident "name" a, .punct '=' joint b, .literal y x.span] ⟨.emptyName, x.span⟩
  | noType {a b : Span} {joint : Bool} {t : Token} (hs : s.has .adapter = false) (ht : StartsNoType t) :
    Spoils s [.ident "adapter" a, .punct '=' joint b, t]
      (.ofSyntax ⟨.noneOf false (typeStarts.map Prod.fst), t.front⟩)
  | noComma {a b : Span} {joint : Bool} {y : String} {x : Located StringLiteral} {t : Token}
    (hs : s.has .name = false) (hy : StringLiteral.ofToken? y = some x.val) (hne : x.val.value ≠ "")
    (ht : t.IsShown) (hcomma : ∀ joint b, t ≠ .punct ',' joint b) :
    Spoils s [.ident "name" a, .punct '=' joint b, .literal y x.span, t]
      (.ofSyntax ⟨.expected "`,`", t.front⟩)

/-- What ends a list does so whatever stands behind it. -/
theorem stuck_of_spoils {s : Setting} {ts vs : List Token} {r : Report} (h : Spoils s ts r) (us : List Token)
    {c : Cursor} (hc : c.rest = ts ++ vs) : Stuck (rulesFor us) s c r := by
  obtain ⟨rest, close, last, left⟩ := c
  obtain rfl : rest = ts ++ vs := hc
  cases h with
  | noKey ht hword hcolon hminus =>
      exact .entry (List.cons_ne_nil _ _) (.key (key_unexpected ht hword hcolon hminus rfl))
  | @unknown x a b joint hx =>
      refine .entry (List.cons_ne_nil _ _) (.unknown (located_key_of_word ⟨_, rfl, rfl⟩ rfl) fun kind => ?_)
      simp [PlainPath.isName, hx kind]
  | again hs => exact .entry (List.cons_ne_nil _ _) (.again ⟨⟨_, rfl, rfl⟩, rfl⟩ hs)
  | @noEquals kind a t hs ht hcolon heq =>
      have hkey : KeyAt kind ⟨.ident kind.key a :: t :: vs, close, last, left⟩ a
          ⟨t :: vs, close, a, left⟩ := ⟨⟨_, rfl, rfl⟩, Look.op_of_isShown ht rfl hcolon⟩
      cases kind with
      | name => exact .entry (List.cons_ne_nil _ _) (.name hkey hs (value_unexpected ht heq rfl))
      | adapter => exact .entry (List.cons_ne_nil _ _) (.adapter hkey hs (value_unexpected ht heq rfl))
  | @noText a b joint t hs ht htext =>
      have heq : Cursor.Next ⟨.punct '=' joint b :: t :: vs, close, a, left⟩ (.punct '=' joint b)
          ⟨t :: vs, close, b, left⟩ := ⟨_, rfl, rfl⟩
      exact .entry (List.cons_ne_nil _ _) (.name (keyAt_of_equals ⟨_, rfl, rfl⟩ heq) hs
        (value_of_error heq (stringLiteral_unexpected ht htext rfl)))
  | empty hs hy hx =>
      exact .entry (List.cons_ne_nil _ _) (.empty ⟨_, rfl, rfl⟩ hs ⟨_, rfl, rfl⟩ ⟨_, rfl, rfl⟩ hy hx)
  | @noType a b joint t hs ht =>
      have heq : Cursor.Next ⟨.punct '=' joint b :: t :: vs, close, a, left⟩ (.punct '=' joint b)
          ⟨t :: vs, close, b, left⟩ := ⟨_, rfl, rfl⟩
      exact .entry (List.cons_ne_nil _ _) (.adapter (keyAt_of_equals ⟨_, rfl, rfl⟩ heq) hs
        (value_of_error heq (type_unexpected (rules (4 * Token.sizeList us + 7)) true true ht rfl)))
  | @noComma a b joint y x t hs hy hne ht hcomma =>
      exact .comma (.name ⟨_, rfl, rfl⟩ ⟨_, rfl, rfl⟩ ⟨_, rfl, rfl⟩ hy hne) hs (List.cons_ne_nil t vs)
        (op_unexpected ht rfl hcomma rfl)

end Setting

end RowDerive
