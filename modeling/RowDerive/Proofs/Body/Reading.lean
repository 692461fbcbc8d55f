import RowDerive.Proofs.Body.Numbering
import RowDerive.Proofs.Body.Parts
import RowDerive.Proofs.Grammar.Statement

/-!
# Bodies read back

A body is read back whatever its keys, fields and storages are. Of what is assembled into it only the
type of an adapter is read in another place than before: where `as` follows it.
-/

namespace RowDerive

open RowDerive.Parser RowDerive.Grammar

variable {d : Nat} {us : List Token}

/-! ## Calls -/

namespace Token

theorem isTree_word {x : String} (hx : isPathWord x = true) :
    (Path.toTy ⟨false, [], .bare x⟩).isTree = true := by
  simpa [Path.toTy, Ty.isTree, Segment.listIsTree, Segment.isTree] using hx

theorem readsOperand_word {ρ : Rules} {x : String} (hx : isPathWord x = true) (records : Bool) :
    ReadsOperand ρ records [word x] :=
  readsOperand_path (isTree_word hx) rfl records

theorem methodCall_eq (object method : String) (args : List (List Token)) :
    methodCall object method args = [word object] ++
      (op "." ++ [word method, parens ((⟨args, false⟩ : Listed _).tokens (op ",") id)]) := by
  simp [methodCall, call, Listed.tokens]

/-- A call of a method with arguments that are read back. -/
theorem readsOperand_methodCall {object method : String} (hobject : isPathWord object = true)
    (hmethod : method ∉ Look.keywords) {args : List (List Token)} (hne : ∀ us ∈ args, us ≠ [])
    (h : ∀ us ∈ args, ReadsOperand (rules d) true us) :
    ReadsOperand (rules (d + 1)) true (methodCall object method args) := by
  have hargs : ReadsArgs (rules (d + 1)) ((⟨args, false⟩ : Listed _).tokens (op ",") id) :=
    readsArgs_of_operands (fun _ => rfl) hne h
  rw [methodCall_eq]
  exact readsOperand_trailer (isTree_word hobject) rfl (readsTrailer_method hmethod hargs)
    (List.cons_ne_nil _ _) (fun _ => ⟨rfl, rfl⟩) true

/-- A call of what a path names with arguments that are read back. -/
theorem readsOperand_call {p : Path} (hp : p.toTy.isTree = true) (hbare : p.isPlain = true)
    {l : Listed (List Token)} (hl : l.items = [] → l.trailing = false) (hne : ∀ us ∈ l.items, us ≠ [])
    (h : ∀ us ∈ l.items, ReadsOperand (rules d) true us) :
    ReadsOperand (rules (d + 1)) true (p.tokens ++ [parens (l.tokens (op ",") id)]) :=
  readsOperand_trailer hp hbare (readsTrailer_call (readsArgs_of_operands hl hne h))
    (List.cons_ne_nil _ _) (fun _ => ⟨rfl, rfl⟩) true

theorem readsStatement_methodCall {object method : String} (hobject : isPathWord object = true)
    (hitem : ∀ ts, itemAhead (word object :: (op "." ++ ts)) = false) (hmethod : method ∉ Look.keywords)
    {args : List (List Token)} (hne : ∀ us ∈ args, us ≠ [])
    (h : ∀ us ∈ args, ReadsOperand (rules d) true us) :
    ReadsStatement (rules (d + 2)) True (methodCall object method args ++ op ";") := by
  have hcall := readsOperand_methodCall hobject hmethod hne h
  rw [methodCall_eq] at hcall ⊢
  exact readsStatement_path (isTree_word hobject) rfl hcall (fun _ => rfl) fun _ => hitem _

theorem readsStatement_call {p : Path} (hp : p.toTy.isTree = true) (hbare : p.isPlain = true)
    (hitem : ∀ ts, itemAhead (p.tokens ++ ts) = false)
    {l : Listed (List Token)} (hl : l.items = [] → l.trailing = false) (hne : ∀ us ∈ l.items, us ≠ [])
    (h : ∀ us ∈ l.items, ReadsOperand (rules d) true us) :
    ReadsStatement (rules (d + 2)) True (p.tokens ++ [parens (l.tokens (op ",") id)] ++ op ";") :=
  readsStatement_path hp hbare (readsOperand_call hp hbare hl hne h) (fun _ => rfl) fun _ => hitem _

end Token

/-! ## Statements -/

theorem adapterName_notMem_keywords (i : Nat) : adapterName i ∉ Look.keywords := by
  intro h
  have hkeywords : ∀ k ∈ Look.keywords, k.toList.take 8 ≠ "adapter_".toList := by decide
  exact adapterName_ne (hkeywords _ h) i rfl

namespace Statement

theorem readsOperand_selfField {ρ : Rules} {f : Name} (hf : f.text ∉ Look.keywords) (records : Bool) :
    ReadsOperand ρ records (selfField f) :=
  readsOperand_trailer (p := ⟨false, [], .bare "self"⟩) (Token.isTree_word (by decide)) rfl
    (readsTrailer_field hf) (List.cons_ne_nil _ _) (fun _ => ⟨rfl, rfl⟩) records

/-- What is put into a row is read back, with the sign before it. -/
theorem readsOperand_borrowed {ρ : Rules} {f : Name} (hf : f.text ∉ Look.keywords) (records : Bool) :
    ReadsOperand ρ records (Token.op "&" ++ selfField f) :=
  readsOperand_reference (readsOperand_selfField hf records) fun _ _ => rfl

theorem readsStatement_direct (k : StringLiteral) {f : Name} (hf : f.text ∉ Look.keywords)
    (borrow : Bool) : ReadsStatement (rules (d + 2)) True (tokens (.direct k f borrow)) := by
  have hvalue : ReadsOperand (rules d) true ((if borrow then Token.op "&" else []) ++ selfField f) := by
    cases borrow with
    | true => exact readsOperand_borrowed hf true
    | false => exact readsOperand_selfField hf true
  refine Token.readsStatement_methodCall (by decide) (fun _ => rfl) (by decide) ?_ ?_
  · simp [selfField]
  · exact List.forall_mem_cons.2 ⟨readsOperand_literal true _, List.forall_mem_singleton.2 hvalue⟩

/-- A reference to what a name names. -/
theorem readsOperand_reference_word {ρ : Rules} {x : String} (hx : x ∉ Look.keywords)
    (records : Bool) : ReadsOperand ρ records (Token.op "&" ++ [Token.word x]) := by
  have hword := Token.readsOperand_word (ρ := ρ) (isPathWord_of_name hx) records
  refine readsOperand_reference hword fun ts hts => ?_
  have hmut := Look.not_keyword_of_name hx (k := "mut") (by decide) ts
  have hsecond : ∀ p : Look, Look.second p (Token.word x :: ts) = p ts := fun _ => rfl
  rw [List.singleton_append, signGoesOn, hmut, hsecond]
  simp [Look.anyKeyword, Look.not_keyword_of_endsExpr hts]

/-- The path of what an adapter is asked to do. -/
def adapterPath : Path :=
  ⟨true, [.bare "content_values", .bare "ColumnTypeAdapter"], .bare "to_content_values"⟩

theorem readsStatement_adapted (i : Nat) (k : StringLiteral) {f : Name} (hf : f.text ∉ Look.keywords) :
    ReadsStatement (rules (d + 2)) True (tokens (.adapted i k f)) := by
  have hadapter := readsOperand_reference_word (ρ := rules d) (adapterName_notMem_keywords i) true
  have hrow : ReadsOperand (rules d) true (Token.op "&" ++ [Token.word "mut", Token.word "values"]) :=
    readsOperand_mutable (Token.readsOperand_word (by decide) true)
  have htokens : tokens (.adapted i k f) = adapterPath.tokens ++
      [Token.parens ((⟨[Token.op "&" ++ [Token.word (adapterName i)],
        Token.op "&" ++ [Token.word "mut", Token.word "values"], [Token.lit k.token],
        Token.op "&" ++ selfField f], true⟩ : Listed _).tokens (Token.op ",") id)] ++ Token.op ";" := by
    simp [tokens, Listed.tokens, Token.sepBy]
    rfl
  rw [htokens]
  refine Token.readsStatement_call (by decide) (by decide) (fun _ => rfl)
    (fun h => absurd h (List.cons_ne_nil _ _)) ?_ ?_
  · simp [selfField]
  · simp only [List.forall_mem_cons, List.not_mem_nil, false_implies, implies_true, and_true]
    exact ⟨hadapter, hrow, readsOperand_literal true _, readsOperand_borrowed hf true⟩

/-! ### Optional fields -/

/-- An arm in which the row is written to. -/
def putArm (q : Pattern) (method : String) (args : List (List Token)) : List Token :=
  q.tokens ++ (Token.op "=>" ++ (Token.methodCall "values" method args ++ Token.op ","))

theorem arm_putArm {q : Pattern} (hhash : ∀ ts, Look.op "#" (q.tokens ++ ts) = false)
    (hq : ∀ ts, alternatives (rules (d + 2)) (.front (q.tokens ++ (Token.op "=>" ++ ts))) =
      .ok (q, .front (Token.op "=>" ++ ts)))
    {method : String} (hmethod : method ∉ Look.keywords) {args : List (List Token)}
    (hne : ∀ us ∈ args, us ≠ []) (h : ∀ us ∈ args, ReadsOperand (rules d) true us) (ts : List Token) :
    arm (rules (d + 2)) (.front (putArm q method args ++ ts)) =
      .ok (putArm q method args, .front ts) := by
  have hobject : (Path.toTy ⟨false, [], .bare "values"⟩).isTree = true := by decide
  have hcall := Token.readsOperand_methodCall (by decide : isPathWord "values" = true) hmethod hne h
  have hends : Look.endsExpr (Token.op "," ++ ts) = true := rfl
  rw [Token.methodCall_eq] at hcall
  obtain ⟨e, -, htokens, hbody⟩ := standalone_path hobject hcall rfl hends rfl
  have hpattern := hq (Token.methodCall "values" method args ++ (Token.op "," ++ ts))
  rw [Token.methodCall_eq] at hpattern
  have harm := arm_front (hhash _) hpattern hbody
  rw [putArm, Token.methodCall_eq]
  simp only [List.append_assoc] at harm ⊢
  rw [harm, htokens]
  simp only [List.append_assoc]
  rfl

/-- The path of what an option is, by the name of its case. -/
def optionPath (x : String) : Path := ⟨true, [.bare "core", .bare "option", .bare "Option"], .bare x⟩

/-- What an optional field may hold, bound to a name. -/
def somePattern : Pattern := .plain ((optionPath "Some").tokens ++ [Token.parens [Token.word "value"]])

def nonePattern : Pattern := .plain (optionPath "None").tokens

theorem alternatives_somePattern (ts : List Token) :
    alternatives (rules (d + 2)) (.front (somePattern.tokens ++ (Token.op "=>" ++ ts))) =
      .ok (somePattern, .front (Token.op "=>" ++ ts)) := by
  have hpath : (optionPath "Some").toTy.isTree = true := by decide
  have hname : (rules (d + 1)).pattern (.front [Token.word "value"]) =
      .ok (.plain [Token.word "value"], .front []) :=
    pattern_name (by decide) false rfl
  have hheld : alternatives (rules (d + 1)) (.front (Pattern.plain [Token.word "value"]).tokens) =
      .ok (.plain [Token.word "value"], .front []) :=
    alternatives_of_pattern hname rfl rfl
  have hread := pathPattern_holding hpath rfl (List.cons_ne_nil _ _) hheld (Token.op "=>" ++ ts)
  have hcolons : Look.op "::" (somePattern.tokens ++ (Token.op "=>" ++ ts)) = true := rfl
  refine alternatives_of_pattern ?_ rfl rfl
  rw [rules_pattern, pattern_of_colons hcolons, somePattern, Pattern.plain, List.append_assoc]
  exact hread

theorem alternatives_nonePattern (ts : List Token) :
    alternatives (rules (d + 2)) (.front (nonePattern.tokens ++ (Token.op "=>" ++ ts))) =
      .ok (nonePattern, .front (Token.op "=>" ++ ts)) := by
  have hpath : (optionPath "None").toTy.isTree = true := by decide
  have hcolons : Look.op "::" (nonePattern.tokens ++ (Token.op "=>" ++ ts)) = true := rfl
  refine alternatives_of_pattern ?_ rfl rfl
  rw [rules_pattern, pattern_of_colons hcolons]
  exact pathPattern_bare hpath rfl rfl rfl

/-- The arms for what an optional field holds, by value if `deref`, and for null. -/
def optionArms (k : StringLiteral) (deref : Bool) : List (List Token) :=
  [putArm somePattern "put"
      [[Token.lit k.token], (if deref then Token.op "*" else []) ++ [Token.word "value"]],
    putArm nonePattern "put_null" [[Token.lit k.token]]]

theorem arm_of_mem_optionArms {k : StringLiteral} {deref : Bool} {us : List Token}
    (h : us ∈ optionArms k deref) (ts : List Token) :
    arm (rules (d + 2)) (.front (us ++ ts)) = .ok (us, .front ts) := by
  have hword : ReadsOperand (rules d) true [Token.word "value"] :=
    Token.readsOperand_word (by decide) true
  have hvalue : ReadsOperand (rules d) true
      ((if deref then Token.op "*" else []) ++ [Token.word "value"]) := by
    cases deref with
    | true => exact readsOperand_deref hword
    | false => exact hword
  have hkey := readsOperand_literal (ρ := rules d) true k.token
  simp only [optionArms, List.mem_cons, List.not_mem_nil, or_false] at h
  rcases h with rfl | rfl
  · refine arm_putArm (fun _ => rfl) alternatives_somePattern (by decide) (by simp) ?_ ts
    exact List.forall_mem_cons.2 ⟨hkey, List.forall_mem_singleton.2 hvalue⟩
  · exact arm_putArm (fun _ => rfl) alternatives_nonePattern (by decide) (by simp)
      (List.forall_mem_singleton.2 hkey) ts

theorem ne_nil_of_mem_optionArms {k : StringLiteral} {deref : Bool} {us : List Token}
    (h : us ∈ optionArms k deref) : us ≠ [] := by
  simp only [optionArms, List.mem_cons, List.not_mem_nil, or_false] at h
  rcases h with rfl | rfl <;> exact List.cons_ne_nil _ _

theorem matchExpr_optionArms (k : StringLiteral) (deref : Bool) (ts : List Token) :
    matchExpr (rules (d + 2)) (.front (Token.word "match" :: ([Token.word "value"] ++
        Token.enclose .brace (optionArms k deref).flatten :: ts))) =
      .ok (Token.word "match" :: ([Token.word "value"] ++
        [Token.enclose .brace (optionArms k deref).flatten]), .front ts) := by
  have hends : Look.endsExpr (Token.enclose .brace (optionArms k deref).flatten :: ts) = true := rfl
  have hword : ReadsOperand (rules (d + 1)) false [Token.word "value"] :=
    Token.readsOperand_word (by decide) false
  obtain ⟨e, -, htokens, hread⟩ := expr_of_operand hword .lowest hends rfl
  have hcondition : (rules (d + 2)).condition (.front ([Token.word "value"] ++
      Token.enclose .brace (optionArms k deref).flatten :: ts)) =
      .ok ([Token.word "value"], .front (Token.enclose .brace (optionArms k deref).flatten :: ts)) := by
    simp only [Rules.condition, bind_apply, rules_expr, hread, htokens, pure_apply]
  exact matchExpr_front (fun us => ne_nil_of_mem_optionArms) rfl hcondition
    fun us hus => arm_of_mem_optionArms hus

/-- What an optional field is bound to. -/
theorem readsStatement_bind {f : Name} (hf : f.text ∉ Look.keywords) :
    ReadsStatement (rules (d + 1)) True (Token.word "let" :: ([] ++ Token.word "value" ::
      (Token.op "=" ++ (Token.op "&" ++ selfField f ++ Token.op ";")))) := by
  refine readsStatement_let (by decide) false fun ts => ?_
  have hends : Look.endsExpr (Token.op ";" ++ ts) = true := rfl
  obtain ⟨e, -, htokens, hread⟩ := expr_of_operand (readsOperand_borrowed hf true) .lowest hends rfl
  exact ⟨e, fun _ => htokens, hread⟩

theorem readsStatement_match_option (k : StringLiteral) (deref : Bool) :
    ReadsStatement (rules (d + 3)) True (Token.word "match" :: ([Token.word "value"] ++
      [Token.enclose .brace (optionArms k deref).flatten])) := by
  refine readsStatement_match fun ts => ?_
  have hread := matchExpr_optionArms (d := d) k deref ts
  rw [List.append_assoc, List.singleton_append]
  exact hread

theorem tokens_optional (k : StringLiteral) (f : Name) (deref : Bool) :
    tokens (.optional k f deref) = [Token.enclose .brace ([Token.word "let" :: ([] ++
      Token.word "value" :: (Token.op "=" ++ (Token.op "&" ++ selfField f ++ Token.op ";"))),
      Token.word "match" :: ([Token.word "value"] ++
        [Token.enclose .brace (optionArms k deref).flatten])].flatten ++ [])] := by
  have hsome : Token.rootPath ["core", "option", "Option", "Some"] = (optionPath "Some").tokens := rfl
  have hnone : Token.rootPath ["core", "option", "Option", "None"] = (optionPath "None").tokens := rfl
  simp [tokens, hsome, hnone, optionArms, putArm, somePattern, nonePattern, Pattern.plain, Token.call,
    Token.sepBy]

theorem readsStatement_optional (k : StringLiteral) {f : Name} (hf : f.text ∉ Look.keywords)
    (deref : Bool) : ReadsStatement (rules (d + 5)) True (tokens (.optional k f deref)) := by
  have hnil : ∀ n, Token.sizeList [] < n → statementList (rules (d + 3)) n (.front []) =
      .ok ([], .front []) := by
    intro n hn
    obtain ⟨n, rfl⟩ := Nat.exists_eq_succ_of_ne_zero (Nat.ne_of_gt hn)
    rfl
  rw [tokens_optional]
  refine readsStatement_brace fun ts => ?_
  rw [rules_block]
  obtain ⟨vss, hvss, hread⟩ := block_front (List.forall_mem_cons.2
    ⟨readsStatement_bind hf, List.forall_mem_singleton.2 (readsStatement_match_option k deref)⟩)
    rfl hnil ts
  rw [hread, hvss trivial, List.append_nil, List.append_nil]

/-- Every statement is read back. -/
theorem readsStatement_tokens {s : Statement} (h : s.field.text ∉ Look.keywords) :
    ReadsStatement (rules (d + 5)) True s.tokens := by
  cases s with
  | adapted i k f => exact readsStatement_adapted i k h
  | optional k f deref => exact readsStatement_optional k h deref
  | direct k f borrow => exact readsStatement_direct k h borrow

end Statement

/-! ## Adapters -/

namespace Ty

/-- Whether the type is read where `as` follows it, by all rules that are deep enough for it. -/
def ReadsBeforeAs (t : Ty) : Prop :=
  ∀ d, 4 * Token.sizeList t.tokens + 8 ≤ d → ∀ ts,
    ∃ u, (rules d).ty true (.front (t.tokens ++ Token.word "as" :: ts)) =
      .ok (u, .front (Token.word "as" :: ts))

/-- Whether the type is read as itself there. -/
def ReadsBackBeforeAs (t : Ty) : Prop :=
  ∀ d, 4 * Token.sizeList t.tokens + 8 ≤ d → ∀ ts,
    (rules d).ty true (.front (t.tokens ++ Token.word "as" :: ts)) =
      .ok (t, .front (Token.word "as" :: ts))

theorem readsBackBeforeAs_of_isTree {t : Ty} (h : t.isTree = true) : t.ReadsBackBeforeAs := by
  intro d hd ts
  exact readsType_of_isTree t h d (by omega) true _ rfl

theorem readsBeforeAs_of_isTree {t : Ty} (h : t.isTree = true) : t.ReadsBeforeAs := by
  intro d hd ts
  exact ⟨t, readsBackBeforeAs_of_isTree h d hd ts⟩

/-- The type is read where `as` follows it, and if `same`, as itself. -/
def ReadsBeforeAsIf (same : Prop) (t : Ty) : Prop :=
  ∀ d, 4 * Token.sizeList t.tokens + 8 ≤ d → ∀ ts,
    ∃ u, (same → u = t) ∧ (rules d).ty true (.front (t.tokens ++ Token.word "as" :: ts)) =
      .ok (u, .front (Token.word "as" :: ts))

theorem ReadsBeforeAs.if {t : Ty} (h : t.ReadsBeforeAs) : t.ReadsBeforeAsIf False := by
  intro d hd ts
  obtain ⟨u, hu⟩ := h d hd ts
  exact ⟨u, False.elim, hu⟩

theorem ReadsBackBeforeAs.if {t : Ty} (h : t.ReadsBackBeforeAs) : t.ReadsBeforeAsIf True :=
  fun d hd ts => ⟨t, fun _ => rfl, h d hd ts⟩

end Ty

namespace Body

variable {same : Prop}

/-- The path of what makes an instance of an adapter. -/
def defaultPath : Path := ⟨true, [.bare "core", .bare "default"], .bare "Default"⟩

/-- What makes an instance of an adapter. -/
def defaultTokens (t : Ty) : List Token :=
  Token.op "<" ++ (t.tokens ++ Token.word "as" :: (defaultPath.tokens ++ (Token.op ">" ++
    (Token.op "::" ++ [Token.word "default"] ++ [Token.parens []]))))

/-- What makes an instance of an adapter is read back if the type is read before `as`. -/
theorem expr_default {t : Ty} (ht : t.ReadsBeforeAsIf same)
    (hd : 4 * Token.sizeList t.tokens + 8 ≤ d + 1) (ts : List Token) :
    ∃ e : Expr, (same → e.tokens = defaultTokens t) ∧
      (rules (d + 2)).expr true .lowest (.front (defaultTokens t ++ (Token.op ";" ++ ts))) =
        .ok (e, .front (Token.op ";" ++ ts)) := by
  have hpath : defaultPath.toTy.isTree = true := by decide
  have hargs : ReadsArgs (rules (d + 1)) [] :=
    readsArgs_of_operands (l := ⟨[], false⟩) (fun _ => rfl) (fun _ h => absurd h List.not_mem_nil)
      fun _ h => absurd h List.not_mem_nil
  obtain ⟨u, hu, hself⟩ := ht (d + 1) hd (defaultPath.tokens ++ (Token.op ">" ++
    (Token.op "::" ++ [Token.word "default"] ++ Token.parens [] :: (Token.op ";" ++ ts))))
  have htrait : ∀ vs, path false (rules (d + 1)) (.front (defaultPath.tokens ++ (Token.op ">" ++ vs))) =
      .ok (defaultPath, .front (Token.op ">" ++ vs)) :=
    fun _ => path_front (readsSegment_of_path hpath rfl false) rfl rfl
  have hcall : angleAhead true (Token.parens [] :: (Token.op ";" ++ ts)) = false := rfl
  have hdefault : ReadsSegment true (rules (d + 1)) (.bare "default") := readsSegment_bare (by decide)
  have hname := nextSegment_front hdefault hcall
  have hqualified := qualifiedPath_front hself (htrait _) hname rfl
  have hatom := atom_qualified true hqualified rfl
  have hends : Look.endsExpr (Token.op ";" ++ ts) = true := rfl
  have hread := expr_call rfl rfl hatom rfl hargs .lowest hends
  refine ⟨.plain (defaultTokens u), fun hsame => by rw [hu hsame]; rfl, ?_⟩
  rw [rules_expr]
  simp only [defaultTokens, Segment.tokens, List.append_assoc, List.cons_append,
    List.nil_append] at hread ⊢
  exact hread

/-- The binding of an adapter is read back if its type is read before `as`. -/
theorem readsStatement_adapterTokens (i : Nat) {t : Ty} (ht : t.ReadsBeforeAsIf same)
    (hd : 4 * Token.sizeList t.tokens + 8 ≤ d + 1) :
    ReadsStatement (rules (d + 2)) same (adapterTokens i t) := by
  have htokens : adapterTokens i t = Token.word "let" :: ([] ++ Token.word (adapterName i) ::
      (Token.op "=" ++ (defaultTokens t ++ Token.op ";"))) := by
    have hpath : Token.rootPath ["core", "default", "Default"] = defaultPath.tokens := rfl
    simp [adapterTokens, defaultTokens, hpath, Token.call, Token.sepBy]
  rw [htokens]
  exact readsStatement_let (adapterName_notMem_keywords i) false (expr_default ht hd)

/-! ## The row -/

/-- The path of what makes a row. -/
def rowPath : Path := ⟨true, [.bare "content_values", .bare "ContentValues"], .bare "with_capacity"⟩

theorem readsStatement_rowTokens (size : Nat) :
    ReadsStatement (rules (d + 2)) True (rowTokens size) := by
  have hpath : rowPath.toTy.isTree = true := by decide
  have hcall := Token.readsOperand_call hpath rfl (l := ⟨[[Token.lit s!"{size}usize"]], false⟩)
    (fun _ => rfl) (by simp) (List.forall_mem_singleton.2 (readsOperand_literal (ρ := rules d) true _))
  have htokens : rowTokens size = Token.word "let" :: ((if size ≠ 0 then [Token.word "mut"] else []) ++
      Token.word "values" :: (Token.op "=" ++ ((rowPath.tokens ++ [Token.parens ((⟨[[Token.lit
        s!"{size}usize"]], false⟩ : Listed _).tokens (Token.op ",") id)]) ++ Token.op ";"))) := by
    have hrow : Token.rootPath ["content_values", "ContentValues", "with_capacity"] =
        rowPath.tokens := rfl
    by_cases hsize : size = 0
    · simp [rowTokens, hrow, hsize, Token.call, Token.sepBy, Listed.tokens]
    · simp [rowTokens, hrow, hsize, Token.call, Token.sepBy, Listed.tokens]
  rw [htokens]
  have hsize : (if size ≠ 0 then [Token.word "mut"] else []) =
      if decide (size ≠ 0) then [Token.word "mut"] else [] := by simp
  rw [hsize]
  refine readsStatement_let (by decide) _ fun ts => ?_
  have hends : Look.endsExpr (Token.op ";" ++ ts) = true := rfl
  obtain ⟨e, -, htokens, hread⟩ := expr_of_operand hcall .lowest hends rfl
  exact ⟨e, fun _ => htokens, hread⟩

/-- The row is what a body ends with. -/
theorem statementList_values {n : Nat} (hn : Token.sizeList [Token.word "values"] < n) :
    statementList (rules (d + 1)) n (.front [Token.word "values"]) =
      .ok ([[Token.word "values"]], .front []) := by
  have hvalues : (Path.toTy ⟨false, [], .bare "values"⟩).isTree = true := by decide
  have hoperand : ReadsOperand (rules d) true ([Token.word "values"] ++ []) :=
    Token.readsOperand_word (by decide) true
  have hends : Look.endsExpr [] = true := rfl
  obtain ⟨e, hread⟩ := statement_path hvalues rfl (rules_standalone d) hoperand rfl hends rfl rfl
  have htokens : Path.tokens ⟨false, [], .bare "values"⟩ ++ [] = [Token.word "values"] := rfl
  rw [htokens, List.append_nil] at hread
  have hsemi : Look.op ";" [Token.word "values"] = false := rfl
  have hend : Look.op ";" [] = false := rfl
  have hsize : Token.sizeList [Token.word "values"] = 1 := rfl
  rw [hsize] at hn
  obtain ⟨n, rfl⟩ := Nat.exists_eq_add_of_le' hn
  simp [statementList, op?_of_not hsemi, hread, op?_of_not hend]

/-! ## Bodies -/

/-- Every statement of a body is read back, with an adapter if its type is. -/
theorem readsStatement_parts {b : Body} (hfields : ∀ s ∈ b.statements, s.field.text ∉ Look.keywords)
    (hadapters : ∀ t ∈ b.adapters, t.ReadsBeforeAsIf same)
    (hd : ∀ t ∈ b.adapters, 4 * Token.sizeList t.tokens + 8 ≤ d + 4) :
    ∀ us ∈ b.parts, ReadsStatement (rules (d + 5)) same us := by
  intro us hus
  rcases List.mem_cons.1 hus with rfl | hus
  · exact (readsStatement_rowTokens b.statements.length).mono fun _ => trivial
  rcases List.mem_append.1 hus with hus | hus
  · obtain ⟨i, hi, rfl⟩ := List.mem_mapIdx.1 hus
    have ht : b.adapters[i] ∈ b.adapters := List.getElem_mem hi
    exact readsStatement_adapterTokens i (hadapters _ ht) (hd _ ht)
  · obtain ⟨s, hs, rfl⟩ := List.mem_map.1 hus
    exact (Statement.readsStatement_tokens (hfields s hs)).mono fun _ => trivial

/-- A body is read back if its adapters are, statement by statement. -/
theorem block_tokens {b : Body} (hfields : ∀ s ∈ b.statements, s.field.text ∉ Look.keywords)
    (hadapters : ∀ t ∈ b.adapters, t.ReadsBeforeAsIf same)
    (hd : ∀ t ∈ b.adapters, 4 * Token.sizeList t.tokens + 8 ≤ d + 4) (ts : List Token) :
    ∃ vss, (same → vss = b.parts) ∧
      (rules (d + 6)).block true (.front (Token.enclose .brace b.tokens :: ts)) =
        .ok (Token.enclose .brace (vss ++ [[Token.word "values"]]).flatten, .front ts) := by
  rw [tokens_eq_flatten, rules_block]
  exact block_front (readsStatement_parts hfields hadapters hd) rfl
    (fun n hn => statementList_values hn) ts

/-- The statements of a body are found in it if its adapters are read back. -/
theorem statementList_tokens {b : Body} (hfields : ∀ s ∈ b.statements, s.field.text ∉ Look.keywords)
    (hadapters : ∀ t ∈ b.adapters, t.ReadsBackBeforeAs)
    (hd : ∀ t ∈ b.adapters, 4 * Token.sizeList t.tokens + 8 ≤ d + 4) :
    statementList (rules (d + 5)) (Token.sizeList b.tokens + 1) (.front b.tokens) =
      .ok (b.parts ++ [[Token.word "values"]], .front []) := by
  have hparts := readsStatement_parts hfields (fun t ht => (hadapters t ht).if) hd
  obtain ⟨vss, hvss, hread⟩ := statementList_front hparts rfl (fun n hn => statementList_values hn)
    (length_lt_sizeList hparts _)
  rw [tokens_eq_flatten, hread, hvss trivial]

end Body

end RowDerive
