import RowDerive.Record.Basic
import RowDerive.Proofs.Grammar.Statement

/-!
# Heads of methods read back

What stands before the body of a method is read where a body follows it. That holds of every method
that takes a receiver alone, has no generics but lifetimes, and gives nothing or a tree.
-/

namespace RowDerive

open RowDerive.Parser RowDerive.Grammar

namespace Grammar

variable {ρ : Rules} {ts us : List Token}

/-! ## Lifetimes as parameters -/

/-- A parameter that is a lifetime without bounds. -/
def lifetimeNamed (x : String) : GenericParam := .lifetime [] x none

theorem genericParam_lifetime (x : String)
    (hts : (∃ us, ts = Token.op "," ++ us) ∨ ∃ us, ts = Token.op ">" ++ us) :
    genericParam ρ (.front (Token.tick x :: ts)) = .ok (lifetimeNamed x, .front ts) := by
  rcases hts with ⟨us, rfl⟩ | ⟨us, rfl⟩ <;> rfl

theorem declared_lifetimes {xs : List String} (hne : xs ≠ []) (trailing : Bool) :
    Generics.declared ⟨some ⟨xs.map lifetimeNamed, trailing⟩, none⟩ =
      Token.op "<" ++ ((⟨xs.map lifetimeNamed, trailing⟩ : Listed GenericParam).tokens (Token.op ",")
        GenericParam.declared ++ Token.op ">") := by
  have hbring : (⟨xs.map lifetimeNamed, trailing⟩ : Listed GenericParam).bring GenericParam.isLifetime =
      ⟨xs.map lifetimeNamed, trailing⟩ := by
    refine Listed.bring_eq_self ?_
    have hall : ∀ p ∈ xs.map lifetimeNamed, p.isLifetime = true := by
      simp [lifetimeNamed, GenericParam.isLifetime]
    have hnone : (xs.map lifetimeNamed).filter (!GenericParam.isLifetime ·) = [] := by
      simpa [List.filter_eq_nil_iff] using hall
    rw [List.filter_eq_self.2 hall, hnone, List.append_nil]
  cases xs with
  | nil => exact absurd rfl hne
  | cons x xs =>
      change Token.op "<" ++ (Listed.bring GenericParam.isLifetime
        ⟨(x :: xs).map lifetimeNamed, trailing⟩).tokens (Token.op ",") GenericParam.declared ++
          Token.op ">" = _
      rw [hbring, List.append_assoc]

/-- Lifetimes in angle brackets are read back. -/
theorem genericParams_lifetimes {xs : List String} (hne : xs ≠ []) (trailing : Bool) :
    genericParams ρ (.front (Generics.declared ⟨some ⟨xs.map lifetimeNamed, trailing⟩, none⟩ ++ ts)) =
      .ok (some ⟨xs.map lifetimeNamed, trailing⟩, .front ts) := by
  have hlist : angleList (genericParam ρ) (.front ((⟨xs.map lifetimeNamed, trailing⟩ :
      Listed GenericParam).tokens (Token.op ",") GenericParam.declared ++ (Token.op ">" ++ ts))) =
      .ok (⟨xs.map lifetimeNamed, trailing⟩, .front (Token.op ">" ++ ts)) := by
    rw [angleList, bind_apply, ahead_front]
    refine listUntil_front (by decide) rfl (fun _ => rfl) ?_ ?_ ?_ ?_
    · intro h
      exact absurd (List.map_eq_nil_iff.1 h) hne
    · intro p hp vs
      obtain ⟨x, -, rfl⟩ := List.mem_map.1 hp
      rfl
    · intro p hp vs hvs
      obtain ⟨x, -, rfl⟩ := List.mem_map.1 hp
      refine genericParam_lifetime x ?_
      rcases hvs with rfl | hvs
      · exact .inr ⟨ts, rfl⟩
      · exact .inl hvs
    · have hlength : (xs.map lifetimeNamed).length ≤ Token.sizeList ((⟨xs.map lifetimeNamed, trailing⟩ :
          Listed GenericParam).tokens (Token.op ",") GenericParam.declared) :=
        Listed.length_le_sizeList (l := ⟨xs.map lifetimeNamed, trailing⟩) fun p hp => by
          obtain ⟨x, -, rfl⟩ := List.mem_map.1 hp
          exact List.cons_ne_nil _ _
      rw [Token.sizeList_append]
      exact Nat.lt_succ_of_le (Nat.le_trans hlength (Nat.le_add_right _ _))
  have hless := op_front (s := "<") (by decide) ((⟨xs.map lifetimeNamed, trailing⟩ :
    Listed GenericParam).tokens (Token.op ",") GenericParam.declared ++ (Token.op ">" ++ ts))
  have hgreater := op_front (s := ">") (by decide) ts
  have hahead : ∀ us, Look.op "<" (Token.op "<" ++ us) = true := fun _ => rfl
  rw [declared_lifetimes hne, List.append_assoc, List.append_assoc, genericParams,
    optionally_of_ahead (hahead _)]
  simp [hless, hlist, hgreater]

/-- No generics, or lifetimes alone. -/
inductive TakesLifetimes : Generics → Prop
  | none : TakesLifetimes ⟨.none, .none⟩
  | some {xs : List String} (hne : xs ≠ []) (trailing : Bool) :
    TakesLifetimes ⟨.some ⟨xs.map lifetimeNamed, trailing⟩, .none⟩

theorem TakesLifetimes.predicates_eq {g : Generics} (h : TakesLifetimes g) : g.predicates = .none := by
  cases h <;> rfl

theorem TakesLifetimes.whereTokens_eq {g : Generics} (h : TakesLifetimes g) : g.whereTokens = [] := by
  rw [Generics.whereTokens, h.predicates_eq]

theorem genericParams_front {g : Generics} (h : TakesLifetimes g) (hts : Look.op "<" ts = false) :
    genericParams ρ (.front (g.declared ++ ts)) = .ok (g.params, .front ts) := by
  cases h with
  | none => exact optionally_of_not hts _
  | some hne trailing => exact genericParams_lifetimes hne trailing

/-! ## Receivers -/

/-- A receiver without a type: by reference, perhaps with a lifetime, or by value. -/
def receiverTokens (reference : Option (Option String)) (mutable : Bool) : List Token :=
  (match reference with
    | none => []
    | some none => Token.op "&"
    | some (some x) => Token.op "&" ++ [Token.tick x]) ++
    (if mutable then [Token.word "mut"] else []) ++ [Token.word "self"]

/-- A receiver alone is read back between the parentheses. -/
theorem params_receiver (reference : Option (Option String)) (mutable trailing : Bool) (n : Nat) :
    params ρ [] (n + 2)
        (.front (receiverTokens reference mutable ++ if trailing then Token.op "," else [])) =
      .ok ((⟨[.receiver (receiverTokens reference mutable)], trailing⟩, none), .front []) := by
  cases trailing <;> cases mutable <;> rcases reference with _ | _ | x <;> rfl

theorem openGroup_receiver (reference : Option (Option String)) (mutable trailing : Bool)
    (ts : List Token) :
    openGroup .paren (do params ρ [] (← ahead)) (.front (Token.parens
        (receiverTokens reference mutable ++ if trailing then Token.op "," else []) :: ts)) =
      .ok (((⟨[.receiver (receiverTokens reference mutable)], trailing⟩, none), none), .front ts) := by
  have hlength :
      1 ≤ (receiverTokens reference mutable ++ if trailing then Token.op "," else []).length := by
    simp [receiverTokens]
    omega
  obtain ⟨n, hn⟩ := Token.exists_sizeList hlength
  refine openGroup_front ?_ ts
  rw [bind_apply, ahead_front, hn]
  exact params_receiver reference mutable trailing n

/-! ## Qualifiers -/

theorem flag_front (b : Bool) (s : String) (hts : Look.keyword s ts = false) :
    flag s (.front (Signature.flag b s ++ ts)) = .ok (b, .front ts) := by
  cases b with
  | true => simp [flag, Signature.flag]
  | false => simp [flag, Signature.flag, keyword?_of_not hts]

/-! ## Signatures -/

theorem result_front {o : Option Ty} (ho : ∀ t, o = some t → ReadsType ρ t)
    (hgoesOn : Look.goesOn ts = false) (harrow : Look.op "->" ts = false) :
    result ρ true (.front (Ty.resultTokens o ++ ts)) = .ok (o, .front ts) := by
  cases o with
  | none => exact optionally_of_not harrow _
  | some t =>
      have hahead : Look.op "->" (Token.op "->" ++ (t.tokens ++ ts)) = true := rfl
      have hop := op_front (s := "->") (by decide) (t.tokens ++ ts)
      have hread := ho t rfl true ts hgoesOn
      rw [Ty.resultTokens, List.append_assoc, result, optionally_of_ahead hahead]
      simp [hop, hread]

end Grammar

/-- The signature of a method that takes a receiver alone, with lifetimes alone as generics, and gives
nothing or a tree. -/
structure Signature.IsSimple (sig : Signature) : Prop where
  abi : sig.abi = none
  name : sig.name ∉ Look.keywords
  generics : TakesLifetimes sig.generics
  params : ∃ reference mutable trailing,
    sig.params = ⟨[.receiver (receiverTokens reference mutable)], trailing⟩
  variadic : sig.variadic = none
  result : ∀ t, sig.result = some t → t.isTree = true

namespace Grammar

variable {ρ : Rules} {ts us : List Token}

/-- Such a signature is read back up to its `where`. -/
theorem signatureHead_front {sig : Signature} (h : sig.IsSimple)
    (hresult : ∀ t, sig.result = some t → ReadsType ρ t) (hgoesOn : Look.goesOn ts = false)
    (harrow : Look.op "->" ts = false) :
    signatureHead ρ false (.front (sig.tokens ++ ts)) = .ok (((false, sig), none), .front ts) := by
  obtain ⟨isConst, isAsync, isUnsafe, abi, x, generics, params, variadic, out⟩ := sig
  obtain ⟨rfl, hx, hgenerics, ⟨reference, mutable, trailing, rfl⟩, rfl, -⟩ := h
  have hwhere := hgenerics.whereTokens_eq
  have hpreds := hgenerics.predicates_eq
  -- the tokens from each part on
  let vs := Token.parens (receiverTokens reference mutable ++ if trailing then Token.op "," else []) ::
    (Ty.resultTokens out ++ ts)
  let ws := Token.word "fn" :: Token.word x :: (generics.declared ++ vs)
  have htokens : Signature.tokens ⟨isConst, isAsync, isUnsafe, none, x, generics,
      ⟨[.receiver (receiverTokens reference mutable)], trailing⟩, none, out⟩ ++ ts =
      Signature.flag isConst "const" ++ (Signature.flag isAsync "async" ++
        (Signature.flag isUnsafe "unsafe" ++ ws)) := by
    simp [Signature.tokens, Signature.paramTokens, Listed.tokens_singleton, FnParam.tokens, hwhere, ws,
      vs]
  have hconst : Look.keyword "const" (Signature.flag isAsync "async" ++
      (Signature.flag isUnsafe "unsafe" ++ ws)) = false := by
    cases isAsync <;> cases isUnsafe <;> rfl
  have hasync : Look.keyword "async" (Signature.flag isUnsafe "unsafe" ++ ws) = false := by
    cases isUnsafe <;> rfl
  have hunsafe : Look.keyword "unsafe" ws = false := rfl
  have hextern : Look.keyword "extern" ws = false := rfl
  have hless : Look.op "<" vs = false := rfl
  have hgroup := openGroup_receiver (ρ := ρ) reference mutable trailing (Ty.resultTokens out ++ ts)
  have hread := genericParams_front (ρ := ρ) hgenerics hless
  have hout := result_front hresult hgoesOn harrow
  have habi : abi? (.front ws) = .ok (none, .front ws) := optionally_of_not hextern _
  have hfn : discard (keyword "fn") (.front ws) =
      .ok ((), .front (Token.word x :: (generics.declared ++ vs))) := by simp [ws]
  have hname := name_front hx (generics.declared ++ vs)
  rw [htokens]
  simp only [signatureHead, bind_apply, flag_front _ _ hconst, flag_front _ _ hasync,
    flag_front _ _ hunsafe, Bool.false_and, Bool.false_eq_true, ite_false, pure_apply, habi, hfn, hname,
    hread]
  simp only [vs, hgroup, hout]
  cases generics
  cases hpreds
  rfl

/-- Such a signature is read back where a body follows it. -/
theorem signature_front {sig : Signature} (h : sig.IsSimple) {d : Nat}
    (hd : Token.sizeList sig.tokens < d) (us ts : List Token) :
    ∃ span, signature (rules d) (.front (sig.tokens ++ Token.enclose .brace us :: ts)) =
      .ok (⟨sig, span⟩, .front (Token.enclose .brace us :: ts)) := by
  have hresult : ∀ t, sig.result = some t → ReadsType (rules d) t := by
    intro t ht
    have hsize : Token.sizeList t.tokens ≤ Token.sizeList sig.tokens := by
      simp only [Signature.tokens, ht, Ty.resultTokens, Token.sizeList_append]
      omega
    exact readsType_of_isTree t (h.result t ht) d (Nat.lt_of_le_of_lt hsize hd)
  have hgoesOn : Look.goesOn (Token.enclose .brace us :: ts) = false := rfl
  have hhead := signatureHead_front h hresult hgoesOn rfl
  have hwhere : whereClause (rules d) (.front (Token.enclose .brace us :: ts)) =
      .ok (none, .front (Token.enclose .brace us :: ts)) := optionally_of_not rfl _
  have hpreds : sig.withPredicates none = sig := by
    rw [Signature.withPredicates, ← h.generics.predicates_eq]
  simp only [signature, signatureWith, located, bind_apply, get_apply, hhead, pure_apply, hwhere,
    note_none, hpreds]
  exact ⟨_, rfl⟩

/-- Such a signature begins with a keyword. -/
theorem exists_signature_tokens {sig : Signature} (h : sig.IsSimple) :
    ∃ k ∈ ["const", "async", "unsafe", "fn"], ∃ us, sig.tokens = Token.word k :: us := by
  have habi := h.abi
  obtain ⟨isConst, isAsync, isUnsafe, abi, x, generics, params, variadic, out⟩ := sig
  obtain rfl : abi = none := habi
  cases isConst with
  | true => exact ⟨"const", by decide, _, rfl⟩
  | false =>
      cases isAsync with
      | true => exact ⟨"async", by decide, _, rfl⟩
      | false =>
          cases isUnsafe with
          | true => exact ⟨"unsafe", by decide, _, rfl⟩
          | false => exact ⟨"fn", by decide, _, rfl⟩

end Grammar

/-! ## Methods -/

namespace Method

/-- Whether what stands before the body is read where a body follows it, by all rules that are deep
enough for it. -/
def ReadsBeforeBody (m : Method) : Prop :=
  ∀ d, 4 * Token.sizeList m.tokens + 8 ≤ d → ∀ us,
    ∃ vs, implementationHead (rules d) (.front (m.tokens ++ [Token.enclose .brace us])) =
      .ok (vs, .front [Token.enclose .brace us])

/-- Whether it is read as itself there. -/
def ReadsBackBeforeBody (m : Method) : Prop :=
  ∀ d, 4 * Token.sizeList m.tokens + 8 ≤ d → ∀ us,
    implementationHead (rules d) (.front (m.tokens ++ [Token.enclose .brace us])) =
      .ok (m.tokens, .front [Token.enclose .brace us])

/-- A method without attributes, public or not, that takes a receiver alone. -/
structure IsSimple (m : Method) : Prop where
  attrs : m.attrs = []
  vis : m.vis = [] ∨ m.vis = [Token.word "pub"]
  sig : m.sig.IsSimple

/-- A visibility before the keywords of a method. -/
theorem visibility_front {vis : List Token} (hvis : vis = [] ∨ vis = [Token.word "pub"]) {k : String}
    (hk : k ∈ ["const", "async", "unsafe", "fn"]) (ts : List Token) :
    visibility (.front (vis ++ Token.word k :: ts)) = .ok (vis, .front (Token.word k :: ts)) := by
  simp only [List.mem_cons, List.not_mem_nil, or_false] at hk
  rcases hk with rfl | rfl | rfl | rfl <;> rcases hvis with rfl | rfl <;> rfl

theorem IsSimple.readsBackBeforeBody {m : Method} (h : m.IsSimple) : m.ReadsBackBeforeBody := by
  intro d hd us
  obtain ⟨attrs, vis, sig⟩ := m
  obtain ⟨hattrs, hvis, hsig⟩ := h
  obtain rfl : attrs = [] := hattrs
  have hsize : Token.sizeList sig.tokens < d := by
    simp only [tokens, List.flatten_nil, List.nil_append, Token.sizeList_append] at hd
    omega
  obtain ⟨span, hsignature⟩ := signature_front hsig hsize us []
  obtain ⟨k, hk, vs, htokens⟩ := exists_signature_tokens hsig
  have hfirst : ∀ x ∈ ["const", "async", "unsafe", "fn"], ∀ ts,
      Look.keyword "default" (Token.word x :: ts) = false := by
    simp only [List.forall_mem_cons, List.not_mem_nil, false_implies, implies_true, and_true]
    exact ⟨fun _ => rfl, fun _ => rfl, fun _ => rfl, fun _ => rfl⟩
  rw [htokens, List.cons_append] at hsignature
  have hvisibility := visibility_front hvis hk (vs ++ [Token.enclose .brace us])
  have hhash : Look.op "#" (vis ++ (Token.word k :: (vs ++ [Token.enclose .brace us]))) = false := by
    rcases hvis with rfl | rfl <;> rfl
  have hnone := keyword?_of_not (hfirst k hk (vs ++ [Token.enclose .brace us]))
  have hwhole : tokens ⟨[], vis, sig⟩ ++ [Token.enclose .brace us] =
      vis ++ (Token.word k :: (vs ++ [Token.enclose .brace us])) := by
    simp [tokens, htokens]
  rw [hwhole]
  simp only [implementationHead, bind_apply, attributeTokens_nil hhash, hvisibility, hnone, hsignature,
    pure_apply]
  simp [tokens]

theorem IsSimple.readsBeforeBody {m : Method} (h : m.IsSimple) : m.ReadsBeforeBody := by
  intro d hd us
  exact ⟨m.tokens, h.readsBackBeforeBody d hd us⟩

theorem default_isSimple : default.IsSimple where
  attrs := rfl
  vis := .inr rfl
  sig :=
    { abi := rfl
      name := by decide
      generics := .none
      params := ⟨some none, false, false, rfl⟩
      variadic := rfl
      result := by
        rintro t ht
        cases ht
        decide }

end Method

end RowDerive
