import RowDerive.Proofs.Grammar.Type

/-!
# Operands read back

What is done in the body of a method that is made is said by a few kinds of operands: literals, paths,
fields, calls, and references to them. Each is read back as it is written, before a separator or a block.
-/

namespace RowDerive

open RowDerive.Parser RowDerive.Grammar

/-! ## Where an expression ends -/

/-- What may stand behind an expression that is at its end: a separator, or a block. -/
def Token.endsExpr : Token → Bool
  | punct c _ _ => c == ',' || c == ';'
  | group d _ _ _ => d == .brace
  | ident .. | lifetime .. | literal .. => false

namespace Parser.Look

variable {ts : List Token}

/-- Whether an expression ends here. -/
def endsExpr : Look := only Token.endsExpr

theorem not_op_of_endsExpr (h : endsExpr ts = true) {s : String} {c : Char} {cs : List Char}
    (hs : s.toList = c :: cs) (hc : (c == ',' || c == ';') = false) : op s ts = false :=
  not_op_of_only h hs fun _ _ => hc

theorem not_keyword_of_endsExpr (h : endsExpr ts = true) (k : String) : keyword k ts = false := by
  refine not_next_of_only h fun t ht => ?_
  cases t with
  | ident x s => cases ht
  | _ => rfl

theorem not_group_of_endsExpr (h : endsExpr ts = true) {d : Delimiter} (hd : d ≠ .brace) :
    group d ts = false := by
  refine not_next_of_only h fun t ht => ?_
  cases t with
  | group e us o c =>
      have he : (e == .brace) = true := ht
      rw [beq_iff_eq] at he
      change (d == e) = false
      rw [beq_eq_false_iff_ne, he]
      exact hd
  | _ => rfl

theorem not_goesOn_of_endsExpr (h : endsExpr ts = true) : goesOn ts = false := by
  simp [goesOn, anyOp, not_op_of_endsExpr h (s := "::") rfl (by decide),
    not_op_of_endsExpr h (s := "<") rfl (by decide), not_op_of_endsExpr h (s := "!") rfl (by decide),
    not_op_of_endsExpr h (s := "+") rfl (by decide), not_op_of_endsExpr h (s := "#") rfl (by decide)]

theorem not_operator_of_endsExpr (h : endsExpr ts = true) :
    Precedence.operators.find? (op ·.1 ts) = none := by
  rw [List.find?_eq_none]
  intro x hx
  have hhead : ∃ c cs, x.1.toList = c :: cs ∧ (c == ',' || c == ';') = false := by
    have hall : ∀ x ∈ Precedence.operators, x.1.toList.head?.any fun c => !(c == ',' || c == ';') := by
      decide
    have hx' := hall x hx
    cases hs : x.1.toList with
    | nil =>
        rw [hs] at hx'
        cases hx'
    | cons c cs =>
        rw [hs] at hx'
        exact ⟨c, cs, rfl, by simpa using hx'⟩
  obtain ⟨c, cs, hs, hc⟩ := hhead
  rw [not_op_of_endsExpr h hs hc]
  exact Bool.false_ne_true

end Parser.Look

/-- What an operand without a sign begins with. -/
def Token.startsAtom : Token → Bool
  | ident .. | literal .. => true
  | punct c _ _ => c == ':' || c == '<'
  | group .. | lifetime .. => false

theorem Parser.Look.not_op_of_startsAtom {us : List Token} (h : next Token.startsAtom us = true)
    {s : String} {c : Char} {cs : List Char} (hs : s.toList = c :: cs)
    (hc : (c == ':' || c == '<') = false) : op s us = false :=
  not_op_of_only (only_of_next h) hs fun _ _ => hc

/-- The expression is no more than its tokens, perhaps a path. -/
def Expr.IsSimple (e : Expr) : Prop := e.form = .other ∨ ∃ t, e.form = .path t

namespace Expr.IsSimple

variable {e : Expr}

theorem plain (ts : List Token) : (Expr.plain ts).IsSimple := .inl rfl

theorem withAttrs_nil (h : e.IsSimple) : e.withAttrs [] = e := by
  obtain ⟨form, ts⟩ := e
  rcases h with h | ⟨t, h⟩
  · obtain rfl : form = .other := h
    rfl
  · obtain rfl : form = .path t := h
    rfl

theorem goesOn (h : e.IsSimple) : e.goesOn = true := by
  rcases h with h | ⟨t, h⟩ <;> simp [Expr.goesOn, h]

end Expr.IsSimple

namespace Grammar

variable {ρ : Rules} {ts us : List Token} {e : Expr}

/-! ## What follows an operand -/

theorem trailers_end (h : Look.endsExpr ts = true) (n : Nat) (e : Expr) :
    trailers ρ (n + 1) e (.front ts) = .ok (e, .front ts) := by
  have hdot : Look.dot ts = false := by
    simp [Look.dot, Look.opBut, Look.not_op_of_endsExpr h (s := ".") rfl (by decide)]
  simp [trailers, Look.not_group_of_endsExpr h (d := .paren) (by decide),
    Look.not_group_of_endsExpr h (d := .bracket) (by decide), hdot,
    Look.not_op_of_endsExpr h (s := "?") rfl (by decide)]

theorem operations_end (h : Look.endsExpr ts = true) (records : Bool) (base : Precedence) (n : Nat)
    (e : Expr) : operations ρ records base (n + 1) e (.front ts) = .ok (e, .front ts) := by
  have hassign : assignAhead ts = false := by
    simp [assignAhead, Look.opBut, Look.not_op_of_endsExpr h (s := "=") rfl (by decide)]
  have hoperator : operatorAhead? (.front ts) = .ok (none, .front ts) := by
    simp [operatorAhead?, Look.not_operator_of_endsExpr h]
  cases hrange : e.isRange <;>
    simp [operations, hrange, hoperator, hassign, Look.not_keyword_of_endsExpr h "as",
      Look.not_op_of_endsExpr h (s := "..") rfl (by decide)]

/-! ## Operands -/

/-- Whether the reader reads the operand back, with the sign before it and with what follows it, where
the expression ends behind it. If `records`, no brace may follow, since it would begin a record. -/
def ReadsOperand (ρ : Rules) (records : Bool) (us : List Token) : Prop :=
  ∀ fuel ts, us.length < fuel → Look.endsExpr ts = true →
    (records && Look.group .brace ts) = false →
    ∃ e : Expr, e.IsSimple ∧ e.tokens = us ∧
      signed ρ records fuel (.front (us ++ ts)) = .ok (e, .front ts)

theorem exprAttributes_nil (h : Look.op "#" us = false) :
    exprAttributes ρ (.front us) = .ok ([], .front us) := by
  simp [exprAttributes, manyWhile, h]

/-- An operand without a sign is an atom with what follows it. -/
theorem signed_of_atom {records : Bool} (hstart : Look.next Token.startsAtom us = true)
    (hshown : Look.invisible us = false) {vs : List Token} {e' : Expr}
    (hatom : atom ρ records (.front us) = .ok (e', .front vs))
    (htrailed : trailed ρ e' (.front vs) = .ok (e, .front ts)) (he : e.IsSimple) (n : Nat) :
    signed ρ records (n + 1) (.front us) = .ok (e, .front ts) := by
  have hhash := Look.not_op_of_startsAtom hstart (s := "#") rfl (by decide)
  have hnot : ∀ s ∈ ["&", "*", "!", "-"], Look.op s us = false := by
    intro s hs
    simp only [List.mem_cons, List.not_mem_nil, or_false] at hs
    rcases hs with rfl | rfl | rfl | rfl <;> exact Look.not_op_of_startsAtom hstart rfl (by decide)
  have hattributed : attributed ρ (.front us) [] records (.front us) = .ok (e, .front ts) := by
    rw [attributed, bind_apply, hatom]
    simp only [bind_apply, htrailed]
    have hnil := he.withAttrs_nil
    rcases he with h | ⟨t, h⟩ <;> simp [h, hnil]
  simp [signed, exprAttributes_nil hhash, hshown, hnot, List.findM?, hattributed]

/-- An operand that is no more than an atom. -/
theorem ReadsOperand.of_atom {records : Bool}
    (hstart : ∀ ts, Look.goesOn ts = false →
      Look.next Token.startsAtom (us ++ ts) = true ∧ Look.invisible (us ++ ts) = false)
    (he : e.IsSimple) (htokens : e.tokens = us)
    (hatom : ∀ ts, Look.endsExpr ts = true → (records && Look.group .brace ts) = false →
      atom ρ records (.front (us ++ ts)) = .ok (e, .front ts)) : ReadsOperand ρ records us := by
  intro fuel ts hfuel hts hbrace
  obtain ⟨fuel, rfl⟩ := Nat.exists_eq_succ_of_ne_zero (Nat.ne_zero_of_lt hfuel)
  have htrailed : trailed ρ e (.front ts) = .ok (e, .front ts) := by
    simp [trailed, trailers_end hts]
  obtain ⟨hatomic, hshown⟩ := hstart ts (Look.not_goesOn_of_endsExpr hts)
  exact ⟨e, he, htokens, signed_of_atom hatomic hshown (hatom ts hts hbrace) htrailed he fuel⟩

theorem atom_literal (records : Bool) (x : String) (ts : List Token) :
    atom ρ records (.front (Token.lit x :: ts)) = .ok (.plain [Token.lit x], .front ts) := rfl

theorem readsOperand_literal (records : Bool) (x : String) :
    ReadsOperand ρ records [Token.lit x] :=
  .of_atom (fun _ _ => ⟨rfl, rfl⟩) (.plain _) rfl
    fun ts _ _ => atom_literal records x ts

/-- The segments of a path of names alone are read back anywhere. -/
theorem readsSegment_of_path {p : Path} (hp : p.toTy.isTree = true) (hbare : p.isPlain = true)
    (inExpr : Bool) : ∀ s ∈ p.init ++ [p.last], ReadsSegment inExpr ρ s := by
  intro s hs
  obtain ⟨htree, hname⟩ := Path.isBare_of_mem hp hbare hs
  cases s with
  | bare x => exact readsSegment_bare htree
  | generic x turbofish args trailing => cases hname

/-- What follows a path of names and does not go on with it is not taken for a part of it. -/
theorem anyPath_plain {p : Path} (hp : p.toTy.isTree = true) (hbare : p.isPlain = true)
    (hts : Look.goesOn ts = false) :
    anyPath true ρ (.front (p.tokens ++ ts)) = .ok (p.toTy, .front ts) :=
  anyPath_front hp (readsSegment_of_path hp hbare true) (Look.not_op_of_goesOn hts (by decide))
    (Look.not_op_of_goesOn hts (by decide))

/-- A path of names alone, as an atom. -/
theorem atom_path {p : Path} (hp : p.toTy.isTree = true) (hbare : p.isPlain = true)
    (hts : Look.goesOn ts = false) {records : Bool}
    (hbrace : (records && Look.group .brace ts) = false) :
    atom ρ records (.front (p.tokens ++ ts)) = .ok (⟨.path p.toTy, p.tokens⟩, .front ts) := by
  have hstart : Look.startsType (p.tokens ++ ts) = true := Ty.startsType_tokens hp ts
  obtain ⟨hinvisible, -, hbuiltin, hpath⟩ :=
    path_ahead hp (Look.not_op_of_goesOn hts (s := "#") (by decide))
  have hkeyword : ∀ k ∈ ["async", "try", "for", "const", "move", "static"],
      Look.keyword k (p.tokens ++ ts) = false := fun k hk =>
    Look.not_keyword_of_startsType hstart (by revert k; decide)
  have hasync : asyncBlockAhead (p.tokens ++ ts) = false := by
    simp [asyncBlockAhead, hkeyword]
  have hclosure : closureAhead (p.tokens ++ ts) = false := by
    simp [closureAhead, Look.anyKeyword, hkeyword,
      Look.not_op_of_startsType hstart (s := "|") rfl (by decide)]
  have hexpr : pathExprAhead (p.tokens ++ ts) = true := by
    simp [pathExprAhead, hpath]
  have hbang := not_bangAhead hts
  have hfrom : pathExprFrom ρ records p.toTy (.front ts) =
      .ok (⟨.path p.toTy, p.tokens⟩, .front ts) := by
    have htokens : p.toTy.tokens = p.tokens := rfl
    simp only [Bool.and_eq_false_iff] at hbrace
    rcases hbrace with rfl | hbrace
    · simp [pathExprFrom, hbang, htokens]
    · simp [pathExprFrom, hbang, hbrace, htokens]
  simp [atom, hinvisible, Look.not_literal_of_startsType hstart, hasync, hkeyword, hclosure, hbuiltin,
    hexpr, anyPath_plain hp hbare hts, hfrom]

theorem path_startsAtom {p : Path} (hp : p.toTy.isTree = true) (hts : Look.goesOn ts = false) :
    Look.next Token.startsAtom (p.tokens ++ ts) = true ∧ Look.invisible (p.tokens ++ ts) = false := by
  have hhash := Look.not_op_of_goesOn hts (s := "#") (by decide)
  rcases path_cases hp hhash with ⟨us, hus⟩ | ⟨x, us, hus, -, -⟩
  · rw [hus]
    exact ⟨rfl, rfl⟩
  · rw [hus]
    exact ⟨rfl, rfl⟩

/-- A path is an operand. -/
theorem readsOperand_path {p : Path} (hp : p.toTy.isTree = true) (hbare : p.isPlain = true)
    (records : Bool) : ReadsOperand ρ records p.tokens := by
  refine .of_atom (e := ⟨.path p.toTy, p.tokens⟩) ?_ (.inr ⟨p.toTy, rfl⟩) rfl ?_
  · exact fun ts hts => path_startsAtom hp hts
  · exact fun ts hts hbrace => atom_path hp hbare (Look.not_goesOn_of_endsExpr hts) hbrace

/-! ## Paths with a qualified self -/

/-- A path that begins with a type as another, of which each part is read up to the next. -/
theorem qualifiedPath_front {t : Ty} {p : Path} {s : Segment} {vs ws : List Token}
    (hself : ρ.ty true (.front us) = .ok (t, .front (Token.word "as" :: vs)))
    (htrait : path false ρ (.front vs) = .ok (p, .front (Token.op ">" ++ ws)))
    (hname : nextSegment true ρ (.front ws) = .ok (s, .front ts)) (hts : Look.op "::" ts = false) :
    qualifiedPath true ρ (.front (Token.op "<" ++ us)) =
      .ok (.qualified (Token.op "<" ++ (t.tokens ++ Token.word "as" :: (p.tokens ++ Token.op ">"))) [] s,
        .front ts) := by
  have hless := op_front (s := "<") (by decide) us
  have hgreater := op_front (s := ">") (by decide) ws
  have has : Look.keyword "as" (Token.word "as" :: vs) = true := rfl
  simp [qualifiedPath, hless, hself, optionally_of_ahead has, htrait, hgreater, hname, manyWhile, hts,
    Ty.append]

/-- A path with a qualified self, as an atom. -/
theorem atom_qualified {self : List Token} {s : Segment} (records : Bool)
    (h : qualifiedPath true ρ (.front (Token.op "<" ++ us)) = .ok (.qualified self [] s, .front ts))
    (hbrace : Look.group .brace ts = false) :
    atom ρ records (.front (Token.op "<" ++ us)) =
      .ok (⟨.path (.qualified self [] s), self ++ (Token.op "::" ++ s.tokens)⟩, .front ts) := by
  have hinvisible : Look.invisible (Token.op "<" ++ us) = false := rfl
  have hliteral : Look.literal (Token.op "<" ++ us) = false := rfl
  have hkeyword : ∀ k, Look.keyword k (Token.op "<" ++ us) = false := fun _ => rfl
  have hbar : Look.op "|" (Token.op "<" ++ us) = false := rfl
  have hless : Look.op "<" (Token.op "<" ++ us) = true := rfl
  simp [atom, hinvisible, hliteral, asyncBlockAhead, hkeyword, closureAhead, Look.anyKeyword, hbar,
    builtinAhead, pathExprAhead, hless, anyPath, h, pathExprFrom, Ty.isPlainPath, hbrace, Ty.tokens,
    Segment.initTokens]

/-! ## Fields and calls -/

theorem member_front {x : String} (hx : x ∉ Look.keywords) (ts : List Token) :
    member (.front (Token.word x :: ts)) = .ok (.named x, .front ts) := by
  simp [member, Look.name_word hx, name_front hx]

theorem pointed_word (x : String) (ts : List Token) :
    pointed ρ (.front (Token.op "." ++ Token.word x :: ts)) =
      ((Token.op "." ++ ·) <$> access ρ) (.front (Token.word x :: ts)) := by
  have hdecimal : decimalAhead (Token.word x :: ts) = false := rfl
  simp [pointed, op_front, hdecimal]

theorem access_field {x : String} (hx : x ∉ Look.keywords) (hcolons : Look.op "::" ts = false)
    (hparen : Look.group .paren ts = false) :
    access ρ (.front (Token.word x :: ts)) = .ok ([Token.word x], .front ts) := by
  have hawait := Look.not_keyword_of_name hx (k := "await") (by decide) ts
  simp [access, hawait, member_front hx, optionally_of_not hcolons, hparen]

theorem access_method {x : String} (hx : x ∉ Look.keywords) {g : Token}
    (hargs : exprs ρ .paren (.front (Token.parens us :: ts)) = .ok (g, .front ts)) :
    access ρ (.front (Token.word x :: Token.parens us :: ts)) = .ok ([Token.word x, g], .front ts) := by
  have hawait := Look.not_keyword_of_name hx (k := "await") (by decide) (Token.parens us :: ts)
  have hcolons : Look.op "::" (Token.parens us :: ts) = false := rfl
  have hparen : Look.group .paren (Token.parens us :: ts) = true := rfl
  simp [access, hawait, member_front hx, optionally_of_not hcolons, hparen, hargs, Segment.tokens]

/-- What stands behind a point is taken with it. -/
theorem trailers_pointed {x : String} {vs : List Token} (he : e.isRange = false)
    (haccess : access ρ (.front (Token.word x :: us)) = .ok (vs, .front ts)) (n : Nat) :
    trailers ρ (n + 1) e (.front (Token.op "." ++ Token.word x :: us)) =
      trailers ρ n (.plain (e.tokens ++ (Token.op "." ++ vs))) (.front ts) := by
  have hparen : Look.group .paren (Token.op "." ++ Token.word x :: us) = false := rfl
  have hdot : Look.dot (Token.op "." ++ Token.word x :: us) = true := rfl
  rw [trailers, bind_apply, peek_front, hparen]
  simp [he, hdot, pointed_word, haccess]

/-- Whether the reader takes the tokens behind any operand, as one step. -/
def ReadsTrailer (ρ : Rules) (vs : List Token) : Prop :=
  ∀ (e : Expr) (n : Nat) (ts : List Token), e.isRange = false → Look.endsExpr ts = true →
    trailers ρ (n + 1) e (.front (vs ++ ts)) =
      trailers ρ n (.plain (e.tokens ++ vs)) (.front ts)

theorem readsTrailer_field {x : String} (hx : x ∉ Look.keywords) :
    ReadsTrailer ρ (Token.op "." ++ [Token.word x]) := by
  intro e n ts he hts
  have hcolons := Look.not_op_of_endsExpr hts (s := "::") rfl (by decide)
  have hparen := Look.not_group_of_endsExpr hts (d := .paren) (by decide)
  rw [List.append_assoc]
  exact trailers_pointed he (access_field hx hcolons hparen) n

/-- Whether the reader reads the tokens back between the parentheses of a call. -/
def ReadsArgs (ρ : Rules) (us : List Token) : Prop :=
  ∀ ts, exprs ρ .paren (.front (Token.parens us :: ts)) = .ok (Token.parens us, .front ts)

theorem readsTrailer_method {x : String} (hx : x ∉ Look.keywords) (h : ReadsArgs ρ us) :
    ReadsTrailer ρ (Token.op "." ++ [Token.word x, Token.parens us]) := by
  intro e n ts he _
  rw [List.append_assoc]
  exact trailers_pointed he (access_method hx (h ts)) n

theorem readsTrailer_call (h : ReadsArgs ρ us) : ReadsTrailer ρ [Token.parens us] := by
  intro e n ts _ _
  have hparen : Look.group .paren (Token.parens us :: ts) = true := rfl
  simp [trailers, hparen, h ts]

/-- A path with one thing behind it is an operand. -/
theorem readsOperand_trailer {p : Path} (hp : p.toTy.isTree = true) (hbare : p.isPlain = true)
    {vs : List Token} (h : ReadsTrailer ρ vs) (hne : vs ≠ [])
    (hvs : ∀ ts, Look.goesOn (vs ++ ts) = false ∧ Look.group .brace (vs ++ ts) = false)
    (records : Bool) : ReadsOperand ρ records (p.tokens ++ vs) := by
  intro fuel ts hfuel hts _
  obtain ⟨fuel, rfl⟩ := Nat.exists_eq_succ_of_ne_zero (Nat.ne_zero_of_lt hfuel)
  obtain ⟨hgoesOn, hbrace⟩ := hvs ts
  obtain ⟨hstart, hshown⟩ := path_startsAtom hp hgoesOn
  have hrecords : (records && Look.group .brace (vs ++ ts)) = false := by rw [hbrace, Bool.and_false]
  have hatom := atom_path (ρ := ρ) hp hbare hgoesOn hrecords
  have htrailed : trailed ρ ⟨.path p.toTy, p.tokens⟩ (.front (vs ++ ts)) =
      .ok (.plain (p.tokens ++ vs), .front ts) := by
    have hlength : 1 ≤ (vs ++ ts).length := by
      rw [List.length_append]
      exact Nat.le_add_right_of_le (List.length_pos_iff.2 hne)
    obtain ⟨n, hn⟩ := Token.exists_sizeList hlength
    simp only [trailed, bind_apply, ahead_front, hn]
    rw [h _ (n + 1) ts rfl hts, trailers_end hts]
  rw [List.append_assoc]
  exact ⟨_, .plain _, rfl, signed_of_atom hstart hshown hatom htrailed (.plain _) fuel⟩

/-! ## References -/

/-- Whether a mark is ahead that belongs to the sign of a reference before it. -/
def signGoesOn : Look := fun ts =>
  Look.keyword "mut" ts ||
    (Look.keyword "raw" ts && Look.second (Look.anyKeyword ["mut", "const"]) ts)

/-- An operand behind the sign of a reference, with the marks that belong to the sign. -/
theorem readsOperand_of_sign {records : Bool} (marks : List Token) (h : ReadsOperand ρ records us)
    (hsign : ∀ ts, Look.endsExpr ts = true →
      referenceSign (.front (Token.op "&" ++ (marks ++ (us ++ ts)))) =
        .ok (Token.op "&" ++ marks, .front (us ++ ts))) :
    ReadsOperand ρ records (Token.op "&" ++ (marks ++ us)) := by
  intro fuel ts hfuel hts hbrace
  obtain ⟨fuel, rfl⟩ := Nat.exists_eq_succ_of_ne_zero (Nat.ne_zero_of_lt hfuel)
  have hlength : us.length < (Token.op "&" ++ (marks ++ us)).length := by
    change us.length < (marks ++ us).length + 1
    rw [List.length_append]
    omega
  obtain ⟨e, -, htokens, hsigned⟩ :=
    h fuel ts (Nat.lt_of_lt_of_le hlength (Nat.le_of_lt_succ hfuel)) hts hbrace
  have hmarked := hsign ts hts
  have hhash : Look.op "#" (Token.op "&" ++ (marks ++ (us ++ ts))) = false := rfl
  have hshown : Look.invisible (Token.op "&" ++ (marks ++ (us ++ ts))) = false := rfl
  have hlook : Look.op "&" (Token.op "&" ++ (marks ++ (us ++ ts))) = true := rfl
  refine ⟨.plain (Token.op "&" ++ (marks ++ us)), .plain _, rfl, ?_⟩
  rw [List.append_assoc, List.append_assoc]
  simp [signed, exprAttributes_nil hhash, hshown, hlook, hmarked, hsigned, htokens]

theorem readsOperand_reference {records : Bool} (h : ReadsOperand ρ records us)
    (hus : ∀ ts, Look.endsExpr ts = true → signGoesOn (us ++ ts) = false) :
    ReadsOperand ρ records (Token.op "&" ++ us) := by
  refine readsOperand_of_sign [] h fun ts hts => ?_
  have hmarks := hus ts hts
  rw [signGoesOn, Bool.or_eq_false_iff] at hmarks
  simp [referenceSign, op_front, hmarks.2, keyword?_of_not hmarks.1]

theorem readsOperand_mutable {records : Bool} (h : ReadsOperand ρ records us) :
    ReadsOperand ρ records (Token.op "&" ++ Token.word "mut" :: us) := by
  refine readsOperand_of_sign [Token.word "mut"] h fun ts _ => ?_
  have hraw : Look.keyword "raw" (Token.word "mut" :: (us ++ ts)) = false := rfl
  simp [referenceSign, op_front, hraw]

theorem readsOperand_deref {records : Bool} (h : ReadsOperand ρ records us) :
    ReadsOperand ρ records (Token.op "*" ++ us) := by
  intro fuel ts hfuel hts hbrace
  obtain ⟨fuel, rfl⟩ := Nat.exists_eq_succ_of_ne_zero (Nat.ne_zero_of_lt hfuel)
  obtain ⟨e, -, htokens, hsigned⟩ := h fuel ts (Nat.lt_of_succ_lt_succ hfuel) hts hbrace
  have hhash : Look.op "#" (Token.op "*" ++ (us ++ ts)) = false := rfl
  have hshown : Look.invisible (Token.op "*" ++ (us ++ ts)) = false := rfl
  have hreference : Look.op "&" (Token.op "*" ++ (us ++ ts)) = false := rfl
  have hlook : Look.op "*" (Token.op "*" ++ (us ++ ts)) = true := rfl
  refine ⟨.plain (Token.op "*" ++ us), .plain _, rfl, ?_⟩
  rw [List.append_assoc]
  simp [signed, exprAttributes_nil hhash, hshown, hreference, hlook, List.findM?, op_front, hsigned,
    htokens]

/-! ## Expressions -/

theorem expr_of_operand {records : Bool} (h : ReadsOperand ρ records us) (base : Precedence)
    (hts : Look.endsExpr ts = true) (hbrace : (records && Look.group .brace ts) = false) :
    ∃ e : Expr, e.IsSimple ∧ e.tokens = us ∧
      expr ρ records base (.front (us ++ ts)) = .ok (e, .front ts) := by
  have hlength := Token.length_le_sizeList us
  have hfuel : us.length < Token.sizeList (us ++ ts) + 1 := by
    rw [Token.sizeList_append]
    omega
  obtain ⟨e, he, htokens, hsigned⟩ := h _ ts hfuel hts hbrace
  refine ⟨e, he, htokens, ?_⟩
  simp only [expr, bind_apply, ahead_front, hsigned, operations_end hts]

/-- A call of what an atom names. -/
theorem expr_call {records : Bool} (hstart : Look.next Token.startsAtom us = true)
    (hshown : Look.invisible us = false) {vs : List Token}
    (hatom : atom ρ records (.front us) = .ok (e, .front (Token.parens vs :: ts)))
    (he : e.isRange = false) (hargs : ReadsArgs ρ vs) (base : Precedence)
    (hts : Look.endsExpr ts = true) :
    expr ρ records base (.front us) = .ok (.plain (e.tokens ++ [Token.parens vs]), .front ts) := by
  have hlength : 1 ≤ (Token.parens vs :: ts).length := Nat.succ_le_succ (Nat.zero_le _)
  obtain ⟨n, hn⟩ := Token.exists_sizeList hlength
  have hcall := readsTrailer_call hargs e (n + 1) ts he hts
  rw [List.singleton_append] at hcall
  have htrailed : trailed ρ e (.front (Token.parens vs :: ts)) =
      .ok (.plain (e.tokens ++ [Token.parens vs]), .front ts) := by
    simp only [trailed, bind_apply, ahead_front, hn, hcall, trailers_end hts]
  have hsigned := signed_of_atom hstart hshown hatom htrailed (.plain _) (Token.sizeList us)
  simp only [expr, bind_apply, ahead_front, hsigned, operations_end hts]

theorem rules_expr (d : Nat) : (rules (d + 1)).expr = expr (rules d) := rfl

theorem readsArgs_of_operands {d : Nat} {l : Listed (List Token)}
    (hl : l.items = [] → l.trailing = false) (hne : ∀ us ∈ l.items, us ≠ [])
    (h : ∀ us ∈ l.items, ReadsOperand (rules d) true us) :
    ReadsArgs (rules (d + 1)) (l.tokens (Token.op ",") id) := by
  intro ts
  have hlist : commaList (rules (d + 1)).whole (.front (l.tokens (Token.op ",") id)) =
      .ok (l, .front []) := by
    rw [commaList, bind_apply, ahead_front]
    rw [← List.append_nil (l.tokens _ _)]
    refine listUntil_front (by decide) rfl (fun _ => rfl) hl ?_ ?_ ?_
    · intro us hus vs
      have hus' := hne us hus
      simp [hus']
    · intro us hus vs hvs
      have hends : Look.endsExpr vs = true ∧ (true && Look.group .brace vs) = false := by
        rcases hvs with rfl | ⟨ws, rfl⟩ <;> exact ⟨rfl, rfl⟩
      obtain ⟨e, -, htokens, he⟩ := expr_of_operand (h us hus) .lowest hends.1 hends.2
      simp [Rules.whole, rules_expr, he, htokens]
    · have hlength : l.items.length ≤ Token.sizeList (l.tokens (Token.op ",") id) :=
        Listed.length_le_sizeList hne
      rw [Token.sizeList_append]
      omega
  have hgroup := inGroup_front (d := .paren) hlist ts
  simp [exprs, Token.parens, hgroup]

end Grammar

end RowDerive
