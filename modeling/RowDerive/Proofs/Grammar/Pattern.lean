import RowDerive.Proofs.Grammar.Operand

/-!
# Patterns read back

What is bound is a name, and what is matched is a path with one name in it or with none.
-/

namespace RowDerive

open RowDerive.Parser

namespace Grammar

variable {ρ : Rules} {ts us : List Token}

/-! ## Names -/

/-- What may stand behind a name that is a pattern. -/
def endsName : Look := fun ts =>
  !(Look.anyOp ["::", "!", "..", "@"] ts || Look.group .brace ts || Look.group .paren ts)

/-- What a binding binds is a name, perhaps with `mut` before it. -/
theorem namePattern_front {x : String} (hx : x ∉ Look.keywords) (mutable : Bool)
    (hts : endsName ts = true) :
    namePattern ρ (.front ((if mutable then [Token.word "mut"] else []) ++ Token.word x :: ts)) =
      .ok (.plain ((if mutable then [Token.word "mut"] else []) ++ [Token.word x]), .front ts) := by
  have hself := Look.not_keyword_of_name hx (k := "self") (by decide) ts
  have hat : Look.op "@" ts = false := by
    simp only [endsName, Look.anyOp, List.any_cons, List.any_nil, Bool.not_or, Bool.and_eq_true,
      Bool.not_eq_true'] at hts
    exact hts.1.1.2.2.2.1
  cases mutable with
  | true =>
      have href : Look.keyword "ref" (Token.word "mut" :: Token.word x :: ts) = false := rfl
      simp [namePattern, keyword?_of_not href, hself, name_front hx, optionally_of_not hat]
  | false =>
      have href := Look.not_keyword_of_name hx (k := "ref") (by decide) ts
      have hmut := Look.not_keyword_of_name hx (k := "mut") (by decide) ts
      simp [namePattern, keyword?_of_not href, keyword?_of_not hmut, hself, name_front hx,
        optionally_of_not hat]

theorem pattern_name {x : String} (hx : x ∉ Look.keywords) (mutable : Bool)
    (hts : endsName ts = true) :
    pattern ρ (.front ((if mutable then [Token.word "mut"] else []) ++ Token.word x :: ts)) =
      .ok (.plain ((if mutable then [Token.word "mut"] else []) ++ [Token.word x]), .front ts) := by
  have hread := namePattern_front (ρ := ρ) hx mutable hts
  cases mutable with
  | true => exact hread
  | false =>
      have hnot : ∀ k ∈ ["_", "box", "const", "true", "false", "self", "Self", "super", "crate"],
          Look.keyword k (Token.word x :: ts) = false := fun k hk =>
        Look.not_keyword_of_name hx (by revert k; decide) _
      have hpath : pathPatternAhead (Token.word x :: ts) = false := by
        have hsecond : ∀ p : Look, Look.second p (Token.word x :: ts) = p ts := fun _ => rfl
        have hcolons : Look.op "::" (Token.word x :: ts) = false := rfl
        have hless : Look.op "<" (Token.word x :: ts) = false := rfl
        simp only [endsName, Bool.not_or, Bool.and_eq_true, Bool.not_eq_true'] at hts
        simp only [Look.anyOp, List.any_cons, List.any_nil, Bool.or_eq_false_iff] at hts
        simp [-Look.keyword_word, pathPatternAhead, hsecond, Look.anyOp, Look.anyKeyword, hcolons,
          hless, hnot, hts]
      have hminus : Look.op "-" (Token.word x :: ts) = false := rfl
      have hliteral : Look.literal (Token.word x :: ts) = false := by
        have hthat : Look.literalThat (fun _ => true) (Token.word x :: ts) = false := rfl
        simp [-Look.keyword_word, Look.literal, hthat, Look.anyKeyword, hnot]
      have hname : Look.name (Token.word x :: ts) = true := Look.name_word hx _
      simpa [-Look.keyword_word, pattern, hpath, hminus, hliteral, hnot, hname] using hread

/-! ## Paths -/

/-- What begins like a path from the root is a path. -/
theorem pattern_of_colons (h : Look.op "::" us = true) :
    pattern ρ (.front us) = pathPattern ρ (.front us) := by
  have hpath : pathPatternAhead us = true := by
    simp [pathPatternAhead, Look.anyOp, h]
  simp [pattern, hpath]

theorem pathPattern_bare {p : Path} (hp : p.toTy.isTree = true) (hbare : p.isPlain = true)
    (hts : Look.goesOn ts = false) (hends : endsName ts = true) :
    pathPattern ρ (.front (p.tokens ++ ts)) = .ok (.plain p.tokens, .front ts) := by
  have htokens : p.toTy.tokens = p.tokens := rfl
  simp only [endsName, Bool.not_or, Bool.and_eq_true, Bool.not_eq_true'] at hends
  simp only [Look.anyOp, List.any_cons, List.any_nil, Bool.or_eq_false_iff] at hends
  simp [pathPattern, anyPath_plain hp hbare hts, not_bangAhead hts, hends, htokens]

/-- A path with one pattern in parentheses. -/
theorem pathPattern_holding {p : Path} (hp : p.toTy.isTree = true) (hbare : p.isPlain = true)
    {q : Pattern} (hne : q.tokens ≠ [])
    (hq : alternatives ρ (.front q.tokens) = .ok (q, .front [])) (ts : List Token) :
    pathPattern ρ (.front (p.tokens ++ Token.parens q.tokens :: ts)) =
      .ok (.plain (p.tokens ++ [Token.parens q.tokens]), .front ts) := by
  have htokens : p.toTy.tokens = p.tokens := rfl
  have hgoesOn : Look.goesOn (Token.parens q.tokens :: ts) = false := rfl
  have hbrace : Look.group .brace (Token.parens q.tokens :: ts) = false := rfl
  have hparen : Look.group .paren (Token.parens q.tokens :: ts) = true := rfl
  have hlist : commaList (alternatives ρ) (.front q.tokens) = .ok (⟨[q], false⟩, .front []) := by
    simp [commaList, listUntil, hq, hne]
  have hgroup : patterns .paren (alternatives ρ) (.front (Token.parens q.tokens :: ts)) =
      .ok (Token.parens q.tokens, .front ts) := by
    have hgroup := inGroup_front (d := .paren) hlist ts
    simp [patterns, Token.parens, hgroup, Listed.tokens_singleton]
  simp [pathPattern, anyPath_plain hp hbare hgoesOn, not_bangAhead hgoesOn, hbrace, hparen, hgroup,
    htokens]

/-! ## Alternatives -/

/-- One pattern alone. -/
theorem alternatives_of_pattern {p : Pattern} (h : ρ.pattern (.front us) = .ok (p, .front ts))
    (hus : Look.op "|" us = false) (hts : Look.op "|" ts = false) :
    alternatives ρ (.front us) = .ok (p, .front ts) := by
  have hbar : barAhead ts = false := by simp [barAhead, Look.opBut, hts]
  simp [alternatives, op?_of_not hus, h, moreAlternatives, hbar]

theorem rules_pattern (d : Nat) : (rules (d + 1)).pattern = pattern (rules d) := rfl

end Grammar

end RowDerive
