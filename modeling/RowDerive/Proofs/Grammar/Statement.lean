import RowDerive.Proofs.Grammar.Pattern

/-!
# Statements read back

Bindings, calls, blocks and branches are read back one after the other, to the end of their block.
-/

namespace RowDerive

open RowDerive.Parser

namespace Grammar

variable {ρ : Rules} {ts us : List Token}

/-! ## What is no macro call -/

theorem plainPathRest_front {ss : List Segment} (hplain : ∀ s ∈ ss, s.isTree = true)
    (hbare : ∀ s ∈ ss, s.isBare = true) (hts : Look.op "::" ts = false) {fuel : Nat}
    (hfuel : ss.length < fuel) :
    plainPathRest fuel (.front (ss.flatMap (fun s => Token.op "::" ++ s.tokens) ++ ts)) =
      .ok (ss.map Segment.name, .front ts) := by
  induction ss generalizing fuel with
  | nil =>
      obtain ⟨fuel, rfl⟩ := Nat.exists_eq_succ_of_ne_zero (Nat.ne_of_gt hfuel)
      simp [plainPathRest, hts]
  | cons s ss ih =>
      obtain ⟨fuel, rfl⟩ := Nat.exists_eq_succ_of_ne_zero (Nat.ne_zero_of_lt hfuel)
      have hrest := ih (fun t ht => hplain t (List.mem_cons_of_mem s ht))
        (fun t ht => hbare t (List.mem_cons_of_mem s ht)) (Nat.lt_of_succ_lt_succ hfuel)
      have hs := Segment.isPathWord_name (hplain s List.mem_cons_self)
      have htokens := Segment.tokens_of_isBare (hbare s List.mem_cons_self)
      have hcolons : ∀ vs, Look.op "::" (Token.op "::" ++ vs) = true := fun _ => rfl
      rw [List.flatMap_cons, List.append_assoc, List.append_assoc, htokens, List.singleton_append]
      simp [plainPathRest, hcolons, op_front, pathWordAhead_word, hs, hrest]

theorem plainPath_front {p : Path} (hp : p.toTy.isTree = true) (hbare : p.isPlain = true)
    (hts : Look.op "::" ts = false) :
    ∃ q, plainPath (.front (p.tokens ++ ts)) = .ok (q, .front ts) := by
  have hsegment : ∀ s ∈ p.init ++ [p.last], s.isTree = true ∧ s.isBare = true :=
    fun s hs => Path.isBare_of_mem hp hbare hs
  obtain ⟨s, ss, happend, hss⟩ := p.exists_append
  rw [← hss] at hsegment
  have hlength : ss.length ≤ Token.sizeList (ss.flatMap fun t => Token.op "::" ++ t.tokens) :=
    Token.length_le_sizeList_flatMap fun _ _ => List.cons_ne_nil _ _
  have hfuel : ss.length < Token.sizeList (ss.flatMap fun t => Token.op "::" ++ t.tokens) +
      Token.sizeList ts + 1 := by omega
  have hrest := plainPathRest_front (fun t ht => (hsegment t (List.mem_cons_of_mem s ht)).1)
    (fun t ht => (hsegment t (List.mem_cons_of_mem s ht)).2) hts hfuel
  have htokens := Segment.tokens_of_isBare (hsegment s List.mem_cons_self).2
  have hs := Segment.isPathWord_name (hsegment s List.mem_cons_self).1
  rw [happend, Path.tokens_append, Path.tokens_first, htokens]
  cases p.rooted with
  | true => simp [plainPath, op?_front, pathWordAhead_word, hs, hrest]
  | false =>
      have hcolons : Look.op "::" (Token.word s.name ::
          (ss.flatMap (fun s => Token.op "::" ++ s.tokens) ++ ts)) = false := rfl
      simp [plainPath, op?_of_not hcolons, pathWordAhead_word, hs, hrest]

/-- A macro call cannot begin with what is no path. -/
theorem callAhead_of_fault {e : SyntaxError} (h : plainPath (.front us) = .error e)
    (he : e.fault ≠ .tooDeep) : callAhead? (.front us) = .ok (.neither, .front us) := by
  simp [callAhead?, foresee, attempt, h, he]

theorem callAhead_of_path {p : Path} (hp : p.toTy.isTree = true) (hbare : p.isPlain = true)
    (hts : Look.goesOn ts = false) :
    callAhead? (.front (p.tokens ++ ts)) = .ok (.neither, .front (p.tokens ++ ts)) := by
  obtain ⟨q, hq⟩ := plainPath_front hp hbare (Look.not_op_of_goesOn hts (s := "::") (by decide))
  have hbang := Look.not_op_of_goesOn hts (s := "!") (by decide)
  simp [callAhead?, foresee, attempt, hq, hbang]

theorem callAhead_let (ts : List Token) :
    callAhead? (.front (Token.word "let" :: ts)) = .ok (.neither, .front (Token.word "let" :: ts)) :=
  callAhead_of_fault (e := ⟨.keyword "let", .nowhere⟩) rfl (by decide)

theorem callAhead_match (ts : List Token) :
    callAhead? (.front (Token.word "match" :: ts)) =
      .ok (.neither, .front (Token.word "match" :: ts)) :=
  callAhead_of_fault (e := ⟨.keyword "match", .nowhere⟩) rfl (by decide)

theorem callAhead_brace (us ts : List Token) :
    callAhead? (.front (Token.enclose .brace us :: ts)) =
      .ok (.neither, .front (Token.enclose .brace us :: ts)) :=
  callAhead_of_fault (e := ⟨.expected "identifier", .nowhere⟩) rfl (by decide)

theorem attributeTokens_nil (h : Look.op "#" us = false) :
    attributeTokens ρ (.front us) = .ok ([], .front us) := by
  simp [attributeTokens, attributes, manyWhile, h]

/-! ## Bindings -/

/-- A binding of a name, if its value is read back before the semicolon. -/
theorem letStatement_front {σ : Rules} (hpattern : ρ.pattern = pattern σ) {x : String}
    (hx : x ∉ Look.keywords) (mutable : Bool) {e : Expr}
    (hvalue : ρ.expr true .lowest (.front (us ++ (Token.op ";" ++ ts))) =
      .ok (e, .front (Token.op ";" ++ ts))) :
    letStatement ρ [] (.front (Token.word "let" :: ((if mutable then [Token.word "mut"] else []) ++
        Token.word x :: (Token.op "=" ++ (us ++ (Token.op ";" ++ ts)))))) =
      .ok (Token.word "let" :: ((if mutable then [Token.word "mut"] else []) ++
        Token.word x :: (Token.op "=" ++ (e.tokens ++ Token.op ";"))), .front ts) := by
  have hends : endsName (Token.op "=" ++ (us ++ (Token.op ";" ++ ts))) = true := rfl
  have hcolon : Look.op ":" (Token.op "=" ++ (us ++ (Token.op ";" ++ ts))) = false := rfl
  have heq : Look.op "=" (Token.op "=" ++ (us ++ (Token.op ";" ++ ts))) = true := rfl
  have helse : Look.keyword "else" (Token.op ";" ++ ts) = false := rfl
  have hinitial : initialValue ρ (.front (Token.op "=" ++ (us ++ (Token.op ";" ++ ts)))) =
      .ok (Token.op "=" ++ e.tokens, .front (Token.op ";" ++ ts)) := by
    simp [initialValue, op_front, hvalue, helse]
  simp [letStatement, hpattern, pattern_name hx mutable hends, optionally_of_not hcolon,
    optionally_of_ahead heq, hinitial, op_front, Pattern.plain]

/-- A binding is a statement. -/
theorem statement_let (us : List Token) :
    statement ρ (.front (Token.word "let" :: us)) =
      (letStatement ρ [] >>= fun vs => pure (false, vs)) (.front (Token.word "let" :: us)) := by
  have hhash : Look.op "#" (Token.word "let" :: us) = false := rfl
  have hlet : (Look.keyword "let" (Token.word "let" :: us) &&
      !Look.invisible (Token.word "let" :: us)) = true := rfl
  simp [-Look.keyword_word, statement, attributeTokens_nil hhash, callAhead_let, hlet]

/-! ## Expressions as statements -/

/-- An expression that begins like no other statement. -/
theorem statement_expr {e : Expr} (hhash : Look.op "#" us = false)
    (hcall : callAhead? (.front us) = .ok (.neither, .front us))
    (hlet : Look.keyword "let" us = false) (hitem : itemAhead us = false)
    (hread : ρ.standalone (.front us) = .ok (e, .front ts)) (he : e.withAttrs [] = e) :
    statement ρ (.front us) =
      (do let semi ← op? ";"
          return (semi.isEmpty && e.needsSemicolon, e.tokens ++ semi)) (.front ts) := by
  simp [statement, attributeTokens_nil hhash, hcall, hlet, hitem, exprStatement, hread, he]

/-- An expression that begins with a path does not end with a block. -/
theorem boundary_path {p : Path} (hp : p.toTy.isTree = true) (hts : Look.goesOn ts = false) :
    boundary ρ (.front (p.tokens ++ ts)) =
      signed ρ true (Token.sizeList (p.tokens ++ ts) + 1) (.front (p.tokens ++ ts)) := by
  have hstart : Look.startsType (p.tokens ++ ts) = true := Ty.startsType_tokens hp ts
  obtain ⟨hinvisible, -, -, -⟩ :=
    path_ahead hp (Look.not_op_of_goesOn hts (s := "#") (by decide))
  have hkeyword : ∀ k ∈ ["if", "while", "loop", "for", "match", "try", "unsafe", "const"],
      Look.keyword k (p.tokens ++ ts) = false := fun k hk =>
    Look.not_keyword_of_startsType hstart (by revert k; decide)
  have hbrace := Look.not_group_of_startsType hstart (d := .brace) (by decide)
  simp [-Token.sizeList_append, boundary, hinvisible, hkeyword, Look.anyKeyword, hbrace,
    Look.not_lifetime_of_startsType hstart]

theorem standalone_path {p : Path} (hp : p.toTy.isTree = true) {vs : List Token}
    (h : ReadsOperand ρ true (p.tokens ++ vs)) (hvs : Look.goesOn (vs ++ ts) = false)
    (hts : Look.endsExpr ts = true) (hbrace : Look.group .brace ts = false) :
    ∃ e : Expr, e.IsSimple ∧ e.tokens = p.tokens ++ vs ∧
      standalone ρ (.front (p.tokens ++ vs ++ ts)) = .ok (e, .front ts) := by
  have hstart : Look.startsType (p.tokens ++ (vs ++ ts)) = true := Ty.startsType_tokens hp _
  have hhash := Look.not_op_of_startsType hstart (s := "#") rfl (by decide)
  have hlength := Token.length_le_sizeList (p.tokens ++ vs)
  have hfuel : (p.tokens ++ vs).length < Token.sizeList (p.tokens ++ (vs ++ ts)) + 1 := by
    rw [← List.append_assoc, Token.sizeList_append]
    omega
  obtain ⟨e, he, htokens, hsigned⟩ := h _ ts hfuel hts (by rw [hbrace, Bool.and_false])
  rw [List.append_assoc] at hsigned ⊢
  refine ⟨e, he, htokens, ?_⟩
  simp only [standalone, bind_apply, exprAttributes_nil hhash, boundary_path hp hvs, hsigned, he.goesOn,
    if_true, he.withAttrs_nil, ahead_front, operations_end hts]

/-- A path with what stands behind it is a statement. -/
theorem statement_path {p : Path} (hp : p.toTy.isTree = true) (hbare : p.isPlain = true)
    {vs : List Token} {σ : Rules} (hstandalone : ρ.standalone = standalone σ)
    (h : ReadsOperand σ true (p.tokens ++ vs)) (hvs : Look.goesOn (vs ++ ts) = false)
    (hts : Look.endsExpr ts = true) (hbrace : Look.group .brace ts = false)
    (hitem : itemAhead (p.tokens ++ (vs ++ ts)) = false) :
    ∃ e : Expr, statement ρ (.front (p.tokens ++ vs ++ ts)) =
      (do let semi ← op? ";"
          return (semi.isEmpty && e.needsSemicolon, p.tokens ++ vs ++ semi)) (.front ts) := by
  obtain ⟨e, he, htokens, hread⟩ := standalone_path hp h hvs hts hbrace
  have hstart : Look.startsType (p.tokens ++ (vs ++ ts)) = true := Ty.startsType_tokens hp _
  have hlet := Look.not_keyword_of_startsType hstart (k := "let") (by decide)
  have hhash := Look.not_op_of_startsType hstart (s := "#") rfl (by decide)
  rw [← hstandalone, List.append_assoc] at hread
  have hstatement :=
    statement_expr hhash (callAhead_of_path hp hbare hvs) hlet hitem hread he.withAttrs_nil
  rw [htokens, ← List.append_assoc] at hstatement
  exact ⟨e, hstatement⟩

/-! ## Branches -/

/-- One arm: a pattern and what is done, up to the comma. -/
theorem arm_front {q : Pattern} {e : Expr} {vs : List Token} (hhash : Look.op "#" us = false)
    (hpattern : alternatives ρ (.front us) = .ok (q, .front (Token.op "=>" ++ vs)))
    (hbody : ρ.standalone (.front vs) = .ok (e, .front (Token.op "," ++ ts))) :
    arm ρ (.front us) =
      .ok (q.tokens ++ Token.op "=>" ++ e.tokens ++ Token.op ",", .front ts) := by
  have hif : Look.keyword "if" (Token.op "=>" ++ vs) = false := rfl
  have harrow := op_front (s := "=>") (by decide) vs
  have hcomma := op_front (s := ",") (by decide) ts
  have hcomma? := op?_front (s := ",") (by decide) ts
  simp only [arm, bind_apply, attributeTokens_nil hhash, hpattern, optionally_of_not hif, harrow, hbody,
    atEnd_front]
  -- the comma is there, whether or not the arm could do without it
  split
  · simp only [bind_apply, hcomma?, pure_apply, List.flatten_nil, Option.getD_none, List.nil_append,
      List.append_nil]
  · simp only [bind_apply, hcomma, pure_apply, List.flatten_nil, Option.getD_none, List.nil_append,
      List.append_nil]

theorem innerAttributes_nil (h : Look.op "#" us = false) :
    innerAttributes ρ (.front us) = .ok ([], .front us) := by
  simp [innerAttributes, manyWhile, h]

/-- A choice between arms, each of which is read back whatever follows it. -/
theorem matchExpr_front {vs : List Token} {arms : List (List Token)} (hne : ∀ a ∈ arms, a ≠ [])
    (hhash : Look.op "#" arms.flatten = false)
    (hcondition : ρ.condition (.front (us ++ Token.enclose .brace arms.flatten :: ts)) =
      .ok (vs, .front (Token.enclose .brace arms.flatten :: ts)))
    (harm : ∀ a ∈ arms, ∀ ts, arm ρ (.front (a ++ ts)) = .ok (a, .front ts)) :
    matchExpr ρ (.front (Token.word "match" :: (us ++ Token.enclose .brace arms.flatten :: ts))) =
      .ok ([Token.word "match"] ++ vs ++ [Token.enclose .brace arms.flatten], .front ts) := by
  have harms : manyWhile (!·.isEmpty) (arm ρ) (Token.sizeList arms.flatten + 1) (.front arms.flatten) =
      .ok (arms, .front []) := by
    have hlength : arms.length ≤ Token.sizeList (arms.flatMap id) :=
      Token.length_le_sizeList_flatMap hne
    have hread : manyWhile (!·.isEmpty) (arm ρ) (Token.sizeList (arms.flatMap id) + 1)
        (.front (arms.flatMap id ++ [])) = .ok (arms, .front []) :=
      manyWhile_front rfl (fun a ha ts => by simp [hne a ha]) (fun a ha ts _ => harm a ha ts)
        (Nat.lt_succ_of_le hlength)
    rwa [List.append_nil, List.flatMap_id] at hread
  simp only [matchExpr, bind_apply, keyword_front, hcondition]
  rw [inGroup_front (a := arms.flatten) ?_ ts]
  · rfl
  · simp [innerAttributes_nil hhash, harms]

/-! ## Blocks as statements -/

/-- What stands here does not belong to a block before it. -/
def parted : Look := fun ts => !(Look.dot ts || Look.anyOp ["?", ";", "#"] ts)

theorem not_op_of_parted (h : parted ts = true) {s : String} (hs : s ∈ ["?", ";", "#"]) :
    Look.op s ts = false := by
  simp only [parted, Bool.not_eq_true', Bool.or_eq_false_iff, Look.anyOp, List.any_eq_false] at h
  exact Bool.eq_false_iff.2 (h.2 s hs)

theorem not_dot_of_parted (h : parted ts = true) : Look.dot ts = false := by
  simp only [parted, Bool.not_eq_true', Bool.or_eq_false_iff] at h
  exact h.1

/-- What ends with its block is a statement. -/
theorem statement_block {σ : Rules} (hstandalone : ρ.standalone = standalone σ) {vs : List Token}
    (hhash : Look.op "#" us = false) (hcall : callAhead? (.front us) = .ok (.neither, .front us))
    (hlet : Look.keyword "let" us = false) (hitem : itemAhead us = false)
    (hread : boundary σ (.front us) = .ok (⟨.block, vs⟩, .front ts)) (hts : parted ts = true) :
    statement ρ (.front us) = .ok ((false, vs), .front ts) := by
  have hquestion := not_op_of_parted hts (s := "?") (by decide)
  have hsemi := not_op_of_parted hts (s := ";") (by decide)
  have hread' : standalone σ (.front us) = .ok (⟨.block, vs⟩, .front ts) := by
    have hgoesOn : Expr.goesOn ⟨.block, vs⟩ = false := rfl
    simp [standalone, exprAttributes_nil hhash, hread, hgoesOn, not_dot_of_parted hts, hquestion,
      Expr.withAttrs, Expr.startsAsWritten]
  rw [← hstandalone] at hread'
  rw [statement_expr hhash hcall hlet hitem hread' rfl]
  have hneeds : Expr.needsSemicolon ⟨.block, vs⟩ = false := rfl
  simp [op?_of_not hsemi, hneeds]

theorem boundary_brace {g : Token} (us : List Token)
    (h : ρ.block true (.front (Token.enclose .brace us :: ts)) = .ok (g, .front ts)) :
    boundary ρ (.front (Token.enclose .brace us :: ts)) = .ok (⟨.block, [g]⟩, .front ts) := by
  have hinvisible : Look.invisible (Token.enclose .brace us :: ts) = false := rfl
  have hkeyword : ∀ k, Look.keyword k (Token.enclose .brace us :: ts) = false := fun _ => rfl
  have hbrace : Look.group .brace (Token.enclose .brace us :: ts) = true := rfl
  simp [boundary, hinvisible, hkeyword, Look.anyKeyword, hbrace, h]

theorem boundary_match {vs : List Token}
    (h : matchExpr ρ (.front (Token.word "match" :: us)) = .ok (vs, .front ts)) :
    boundary ρ (.front (Token.word "match" :: us)) = .ok (⟨.block, vs⟩, .front ts) := by
  have hinvisible : Look.invisible (Token.word "match" :: us) = false := rfl
  simp [boundary, hinvisible, Look.anyKeyword, h]

/-! ## Blocks -/

/-- Whether the reader reads the tokens back as a statement that has not to be parted from the next. If
`same`, what it reads is printed as it was. -/
structure ReadsStatement (ρ : Rules) (same : Prop) (us : List Token) : Prop where
  starts : ∀ ts, us ++ ts ≠ [] ∧ parted (us ++ ts) = true
  reads : ∀ ts, parted ts = true →
    ∃ vs, (same → vs = us) ∧ statement ρ (.front (us ++ ts)) = .ok ((false, vs), .front ts)

theorem ReadsStatement.mono {same same' : Prop} (h : ReadsStatement ρ same us) (hsame : same' → same) :
    ReadsStatement ρ same' us where
  starts := h.starts
  reads ts hts := by
    obtain ⟨vs, hvs, hread⟩ := h.reads ts hts
    exact ⟨vs, fun h' => hvs (hsame h'), hread⟩

/-- Statements to the end of the tokens, each by itself. -/
def statementList (ρ : Rules) : Nat → Parser (List (List Token))
  | 0 => failTooDeep
  | fuel + 1 => do
    let semi ← op? ";"
    if !semi.isEmpty then return semi :: (← statementList ρ fuel)
    else if ← atEnd then return []
    else
      let (isOpen, ts) ← statement ρ
      if isOpen && !(← atEnd) then failHere .unfinishedStatement
      return ts :: (← statementList ρ fuel)

/-- What stands in a block are its statements, one after the other. -/
theorem statements_eq_flatten (n : Nat) : statements ρ n = List.flatten <$> statementList ρ n := by
  induction n with
  | zero => rfl
  | succ n ih =>
      rw [statements, statementList, map_bind]
      refine bind_congr fun semi => ?_
      split
      · simp [ih]
      · rw [map_bind]
        refine bind_congr fun isEnd => ?_
        split
        · simp
        · simp only [map_bind]
          refine bind_congr fun read => bind_congr fun isEnd => ?_
          split <;> simp [ih]

variable {same : Prop}

theorem parted_flatten {uss : List (List Token)} (h : ∀ us ∈ uss, ReadsStatement ρ same us)
    {ws : List Token} (hws : parted ws = true) : parted (uss.flatten ++ ws) = true := by
  cases uss with
  | nil => exact hws
  | cons us uss =>
      rw [List.flatten_cons, List.append_assoc]
      exact ((h us List.mem_cons_self).starts _).2

/-- Statements are read back one after the other, up to what stands last. -/
theorem statementList_front {uss wss : List (List Token)} (h : ∀ us ∈ uss, ReadsStatement ρ same us)
    {ws : List Token} (hws : parted ws = true)
    (hend : ∀ n, Token.sizeList ws < n → statementList ρ n (.front ws) = .ok (wss, .front []))
    {fuel : Nat} (hfuel : uss.length + Token.sizeList ws < fuel) :
    ∃ vss, (same → vss = uss) ∧
      statementList ρ fuel (.front (uss.flatten ++ ws)) = .ok (vss ++ wss, .front []) := by
  induction uss generalizing fuel with
  | nil => exact ⟨[], fun _ => rfl, hend fuel (by simpa using hfuel)⟩
  | cons us uss ih =>
      obtain ⟨fuel, rfl⟩ := Nat.exists_eq_succ_of_ne_zero (Nat.ne_zero_of_lt hfuel)
      rw [List.length_cons] at hfuel
      have hfuel' : uss.length + Token.sizeList ws < fuel := by omega
      obtain ⟨vss, hvss, hrest⟩ := ih (fun u hu => h u (List.mem_cons_of_mem us hu)) hfuel'
      have hus := h us List.mem_cons_self
      have hnext := parted_flatten (fun u hu => h u (List.mem_cons_of_mem us hu)) hws
      obtain ⟨vs, hvs, hread⟩ := hus.reads _ hnext
      obtain ⟨hne, hparted⟩ := hus.starts (uss.flatten ++ ws)
      have hsemi := not_op_of_parted hparted (s := ";") (by decide)
      refine ⟨vs :: vss, fun hsame => by rw [hvs hsame, hvss hsame], ?_⟩
      rw [List.flatten_cons, List.append_assoc]
      simp [-List.append_eq_nil_iff, statementList, op?_of_not hsemi, hne, hread, hrest]

/-- The fuel that a block is read with is enough for its statements. -/
theorem length_lt_sizeList {uss : List (List Token)} (h : ∀ us ∈ uss, ReadsStatement ρ same us)
    (ws : List Token) :
    uss.length + Token.sizeList ws < Token.sizeList (uss.flatten ++ ws) + 1 := by
  have hlength := Token.length_le_sizeList_flatMap (f := id) fun us hus => by
    have hus' := ((h us hus).starts []).1
    rwa [List.append_nil] at hus'
  rw [List.flatMap_id] at hlength
  rw [Token.sizeList_append]
  omega

theorem block_front {uss wss : List (List Token)} (h : ∀ us ∈ uss, ReadsStatement ρ same us)
    {ws : List Token} (hws : parted ws = true)
    (hend : ∀ n, Token.sizeList ws < n → statementList ρ n (.front ws) = .ok (wss, .front []))
    (ts : List Token) :
    ∃ vss, (same → vss = uss) ∧
      block ρ true (.front (Token.enclose .brace (uss.flatten ++ ws) :: ts)) =
        .ok (Token.enclose .brace (vss ++ wss).flatten, .front ts) := by
  have hhash := not_op_of_parted (parted_flatten h hws) (s := "#") (by decide)
  obtain ⟨vss, hvss, hread⟩ := statementList_front h hws hend (length_lt_sizeList h ws)
  refine ⟨vss, hvss, ?_⟩
  rw [block, bind_apply, inGroup_front (a := (vss ++ wss).flatten) ?_ ts]
  · rfl
  · simp [-Token.sizeList_append, -List.flatten_append, innerAttributes_nil hhash,
      statements_eq_flatten, hread]

/-! ## Kinds of statements -/

theorem rules_standalone (d : Nat) : (rules (d + 1)).standalone = standalone (rules d) := rfl

theorem rules_block (d : Nat) : (rules (d + 1)).block = block (rules d) := rfl

/-- A binding of a name to what is read back before the semicolon. -/
theorem readsStatement_let {d : Nat} {x : String} (hx : x ∉ Look.keywords) (mutable : Bool)
    (h : ∀ ts, ∃ e : Expr, (same → e.tokens = us) ∧
      (rules (d + 1)).expr true .lowest (.front (us ++ (Token.op ";" ++ ts))) =
        .ok (e, .front (Token.op ";" ++ ts))) :
    ReadsStatement (rules (d + 1)) same (Token.word "let" ::
      ((if mutable then [Token.word "mut"] else []) ++
        Token.word x :: (Token.op "=" ++ (us ++ Token.op ";")))) where
  starts _ := ⟨List.cons_ne_nil _ _, rfl⟩
  reads ts _ := by
    obtain ⟨e, htokens, he⟩ := h ts
    have hread := letStatement_front (rules_pattern d) hx mutable he
    refine ⟨_, fun hsame => by rw [← htokens hsame], ?_⟩
    simp only [List.cons_append, List.append_assoc] at hread ⊢
    rw [statement_let, bind_apply, hread]
    rfl

/-- A path with what stands behind it, up to its semicolon. -/
theorem readsStatement_path {d : Nat} {p : Path} (hp : p.toTy.isTree = true) (hbare : p.isPlain = true)
    {vs : List Token} (h : ReadsOperand (rules d) true (p.tokens ++ vs))
    (hvs : ∀ ts, Look.goesOn (vs ++ ts) = false)
    (hitem : ∀ ts, itemAhead (p.tokens ++ (vs ++ ts)) = false) :
    ReadsStatement (rules (d + 1)) True (p.tokens ++ vs ++ Token.op ";") where
  starts ts := by
    have hstart : Look.startsType (p.tokens ++ (vs ++ (Token.op ";" ++ ts))) = true :=
      Ty.startsType_tokens hp _
    have hop : ∀ s ∈ ["?", ";", "#", "."],
        Look.op s (p.tokens ++ (vs ++ (Token.op ";" ++ ts))) = false := by
      intro s hs
      simp only [List.mem_cons, List.not_mem_nil, or_false] at hs
      rcases hs with rfl | rfl | rfl | rfl <;> exact Look.not_op_of_startsType hstart rfl (by decide)
    have hne := Look.not_isEmpty_of_startsType hstart
    simp only [List.append_assoc]
    refine ⟨fun h => by simp [h] at hne, ?_⟩
    simp [parted, Look.dot, Look.opBut, Look.anyOp, hop]
  reads ts _ := by
    have hends : Look.endsExpr (Token.op ";" ++ ts) = true := rfl
    obtain ⟨e, he⟩ := statement_path hp hbare (rules_standalone d) h (hvs _) hends rfl (hitem _)
    refine ⟨p.tokens ++ vs ++ Token.op ";", fun _ => rfl, ?_⟩
    have hsemi : (Token.op ";").isEmpty = false := rfl
    rw [List.append_assoc (p.tokens ++ vs), he]
    simp [op?_front, hsemi]

/-- A block that is read back. -/
theorem readsStatement_brace {d : Nat}
    (h : ∀ ts, (rules d).block true (.front (Token.enclose .brace us :: ts)) =
      .ok (Token.enclose .brace us, .front ts)) :
    ReadsStatement (rules (d + 1)) True [Token.enclose .brace us] where
  starts _ := ⟨List.cons_ne_nil _ _, rfl⟩
  reads ts hts := by
    refine ⟨[Token.enclose .brace us], fun _ => rfl, ?_⟩
    exact statement_block (rules_standalone d) rfl (callAhead_brace us ts) rfl rfl
      (boundary_brace us (h ts)) hts

theorem readsStatement_match {d : Nat}
    (h : ∀ ts, matchExpr (rules d) (.front (Token.word "match" :: (us ++ ts))) =
      .ok (Token.word "match" :: us, .front ts)) :
    ReadsStatement (rules (d + 1)) True (Token.word "match" :: us) where
  starts _ := ⟨List.cons_ne_nil _ _, rfl⟩
  reads ts hts := by
    refine ⟨Token.word "match" :: us, fun _ => rfl, ?_⟩
    exact statement_block (rules_standalone d) rfl (callAhead_match _) rfl rfl
      (boundary_match (h ts)) hts

end Grammar

end RowDerive
