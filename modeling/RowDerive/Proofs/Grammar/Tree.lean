import RowDerive.Grammar.Path
import RowDerive.Proofs.Parser.Front

/-!
# Types that are trees

A type is a tree if none of its parts is kept as mere tokens. Here it is said which types are trees, what
the tokens of such a type begin with, and how large those of its parts are.
-/

namespace RowDerive

open RowDerive.Parser

/-! ## Lists of arguments -/

namespace Parser.Listed

variable {α : Type}

/-- If what is brought to the front stands there, nothing moves. -/
theorem bring_eq_self {p : α → Bool} {l : Listed α}
    (h : l.items.filter p ++ l.items.filter (!p ·) = l.items) : l.bring p = l := by
  obtain ⟨as, trailing⟩ := l
  simp only at h
  have hlast : (as.getLast?.any p && !(as.filter (!p ·)).isEmpty) = false := by
    cases hback : as.filter (!p ·) with
    | nil => simp
    | cons b bs =>
        have hmem : (b :: bs).getLast (List.cons_ne_nil b bs) ∈ as.filter (!p ·) := by
          rw [hback]
          exact List.getLast_mem _
        rw [← h, hback, List.getLast?_append, List.getLast?_eq_some_getLast (List.cons_ne_nil b bs)]
        simpa using (List.mem_filter.1 hmem).2
  simp [bring, h, hlast]

theorem tokens_map {β : Type} (sep : List Token) (f : β → List Token) (g : α → β)
    (as : List α) (trailing : Bool) :
    (⟨as.map g, trailing⟩ : Listed β).tokens sep f =
      (⟨as, trailing⟩ : Listed α).tokens sep fun a => f (g a) := by
  simp [tokens, Function.comp_def]

end Parser.Listed

theorem TyArg.listTokens_eq_map (as : List TyArg) : TyArg.listTokens as = as.map TyArg.tokens := by
  induction as with
  | nil => rfl
  | cons a as ih => rw [listTokens, ih, List.map_cons]

theorem Segment.initTokens_eq_flatMap (ss : List Segment) :
    Segment.initTokens ss = ss.flatMap fun s => s.tokens ++ Token.op "::" := by
  induction ss with
  | nil => rfl
  | cons s ss ih => rw [initTokens, ih, List.flatMap_cons]

/-! ## Trees -/

/-- The word may stand in a path. -/
def isPathWord (x : String) : Bool :=
  !Look.keywords.contains x || ["super", "self", "Self", "crate"].contains x

mutual

/-- The type is a tree to its leaves, with its lifetimes before its other arguments. -/
def Ty.isTree : Ty → Bool
  | .group t | .paren t | .slice t | .reference _ _ t => t.isTree
  | .path _ init last => Segment.listIsTree init && last.isTree
  | .qualified .. | .bound .. | .other _ => false

def Segment.isTree : Segment → Bool
  | .bare x => isPathWord x
  | .generic x _ args trailing =>
    (!Look.keywords.contains x || x == "Self") && TyArg.listIsTree args &&
      (args.map TyArg.tokens).filter Prod.fst ++ (args.map TyArg.tokens).filter (!·.1) ==
        args.map TyArg.tokens && !(args.isEmpty && trailing)

def Segment.listIsTree : List Segment → Bool
  | [] => true
  | s :: ss => s.isTree && Segment.listIsTree ss

def TyArg.isTree : TyArg → Bool
  | .type t => t.isTree
  | .lifetime _ => true
  | .other _ => false

def TyArg.listIsTree : List TyArg → Bool
  | [] => true
  | a :: as => a.isTree && TyArg.listIsTree as

end

/-! ## What a type begins with -/

theorem isPathWord_of_name {x : String} (h : x ∉ Look.keywords) : isPathWord x = true := by
  simp [isPathWord, h]

theorem beq_of_isPathWord {x k : String} (h : isPathWord x = true) (hk : isPathWord k = false) :
    (x == k) = false := by
  rw [beq_eq_false_iff_ne]
  rintro rfl
  rw [h] at hk
  cases hk

/-- What a type that is a tree begins with. -/
def Token.startsType : Token → Bool
  | ident x _ => isPathWord x
  | punct c _ _ => c == ':' || c == '&'
  | group d _ _ _ => d == .paren || d == .bracket
  | lifetime .. | literal .. => false

namespace Parser.Look

variable {ts : List Token}

/-- Whether a type that is a tree may be ahead. -/
def startsType : Look := next Token.startsType

/-- Whether what is ahead goes on with a type before it. -/
def goesOn : Look := anyOp ["::", "<", "!", "+", "#"]

theorem not_keyword_of_startsType (h : startsType ts = true) {k : String}
    (hk : isPathWord k = false) : keyword k ts = false := by
  refine not_next_of_only (only_of_next h) fun t ht => ?_
  cases t with
  | ident x s => exact beq_of_isPathWord ht hk
  | _ => rfl

theorem not_anyKeyword_of_startsType (h : startsType ts = true) {ks : List String}
    (hks : ∀ k ∈ ks, isPathWord k = false) : anyKeyword ks ts = false := by
  rw [anyKeyword, List.any_eq_false]
  intro k hk
  rw [not_keyword_of_startsType h (hks k hk)]
  exact Bool.false_ne_true

theorem not_lifetime_of_startsType (h : startsType ts = true) : lifetime ts = false := by
  refine not_next_of_only (only_of_next h) fun t ht => ?_
  cases t with
  | lifetime x s => cases ht
  | _ => rfl

theorem not_group_of_startsType (h : startsType ts = true) {d : Delimiter}
    (hd : d ≠ .paren ∧ d ≠ .bracket) : group d ts = false := by
  refine not_next_of_only (only_of_next h) fun t ht => ?_
  cases t with
  | group e us o c =>
      obtain ⟨hparen, hbracket⟩ := hd
      change (d == e) = false
      rw [beq_eq_false_iff_ne]
      rintro rfl
      simp [Token.startsType, hparen, hbracket] at ht
  | _ => rfl

theorem not_op_of_startsType (h : startsType ts = true) {c : Char} {cs : List Char} {s : String}
    (hs : s.toList = c :: cs) (hc : (c == ':' || c == '&') = false) : op s ts = false :=
  not_op_of_only (only_of_next h) hs fun _ _ => hc

theorem not_literal_of_startsType (h : startsType ts = true) : literal ts = false := by
  have htrue := not_keyword_of_startsType h (k := "true") (by decide)
  have hfalse := not_keyword_of_startsType h (k := "false") (by decide)
  have hthat : literalThat (fun _ => true) ts = false := by
    unfold startsType next at h
    unfold literalThat
    cases hts : Token.reveal ts with
    | nil => rfl
    | cons t us =>
        rw [hts] at h
        cases t with
        | literal x s => cases h
        | punct c j s =>
            have hc : c = ':' ∨ c = '&' := by simpa [Token.startsType] using h
            rcases hc with rfl | rfl <;> rfl
        | _ => rfl
  simp [literal, hthat, anyKeyword, htrue, hfalse]

theorem not_op_of_goesOn (h : goesOn ts = false) {s : String}
    (hs : s ∈ ["::", "<", "!", "+", "#"]) : op s ts = false := by
  rw [goesOn, anyOp, List.any_eq_false] at h
  exact Bool.eq_false_iff.2 (h s hs)

theorem not_isEmpty_of_startsType (h : startsType ts = true) : ts.isEmpty = false := by
  cases ts with
  | nil => cases h
  | cons t ts => rfl

end Parser.Look

/-- An invisible group shows what it holds. -/
theorem Token.reveal_invisible (us ts : List Token) :
    reveal (enclose .invisible us :: ts) = reveal (us ++ ts) := by
  have hshown : firstShown? (us ++ ts) = firstShown? (enclose .invisible us :: ts) := by
    induction us with
    | nil => rfl
    | cons u us ih =>
        rw [List.cons_append, firstShown?, firstShown?, enclose, shown?, firstShown?]
        cases hu : shown? u with
        | none => exact ih
        | some x => simp
  rw [reveal, reveal, hshown]

namespace Segment

/-- A segment begins with its name. -/
theorem exists_tokens (s : Segment) : ∃ us, s.tokens = Token.word s.name :: us := by
  cases s with
  | bare x => exact ⟨[], rfl⟩
  | generic x turbofish args trailing => exact ⟨_, rfl⟩

theorem tokens_of_isBare {s : Segment} (h : s.isBare = true) : s.tokens = [Token.word s.name] := by
  cases s with
  | bare x => rfl
  | generic x turbofish args trailing => cases h

theorem isPathWord_name {s : Segment} (h : s.isTree = true) : isPathWord s.name = true := by
  cases s with
  | bare x => exact h
  | generic x turbofish args trailing =>
      simp only [isTree, Bool.and_eq_true, Bool.or_eq_true, beq_iff_eq] at h
      rcases h.1.1.1 with h | rfl
      · have hx : x ∉ Look.keywords := by simpa using h
        exact isPathWord_of_name hx
      · rfl

theorem startsType_tokens {s : Segment} (h : s.isTree = true) (vs : List Token) :
    Look.startsType (s.tokens ++ vs) = true := by
  obtain ⟨us, hus⟩ := s.exists_tokens
  rw [hus]
  exact isPathWord_name h

theorem isTree_of_mem {ss : List Segment} (h : listIsTree ss = true) {s : Segment} (hs : s ∈ ss) :
    s.isTree = true := by
  induction ss with
  | nil => cases hs
  | cons t ss ih =>
      rw [listIsTree, Bool.and_eq_true] at h
      rcases List.mem_cons.1 hs with rfl | hs
      · exact h.1
      · exact ih h.2 hs

end Segment

theorem Ty.startsType_tokens {t : Ty} (h : t.isTree = true) (vs : List Token) :
    Look.startsType (t.tokens ++ vs) = true := by
  match t with
  | .group u =>
      have ih := startsType_tokens (t := u) h vs
      rw [tokens, List.singleton_append]
      unfold Look.startsType Look.next at ih ⊢
      rwa [Token.reveal_invisible]
  | .paren u | .slice u => rfl
  | .reference l m u => rfl
  | .path rooted init last =>
      rw [isTree, Bool.and_eq_true] at h
      cases rooted with
      | true => rfl
      | false =>
          cases init with
          | nil => exact Segment.startsType_tokens h.2 vs
          | cons s ss =>
              rw [Segment.listIsTree, Bool.and_eq_true] at h
              rw [tokens, Segment.initTokens]
              simpa using Segment.startsType_tokens h.1.1 _
  | .qualified .. | .bound .. | .other _ => cases h

/-! ## Paths -/

namespace Path

theorem tokens_first (rooted : Bool) (s : Segment) :
    Path.tokens ⟨rooted, [], s⟩ = (if rooted then Token.op "::" else []) ++ s.tokens := by
  cases rooted <;> rfl

theorem tokens_append (p : Path) (ss : List Segment) :
    (p.append ss).tokens = p.tokens ++ ss.flatMap fun s => Token.op "::" ++ s.tokens := by
  induction ss generalizing p with
  | nil => simp [append]
  | cons s ss ih =>
      rw [append, ih]
      simp [tokens, toTy, Ty.tokens, Segment.initTokens_eq_flatMap]

/-- A path is its first segment with the others after it. -/
theorem append_init (rooted : Bool) (before : List Segment) (s : Segment) (init : List Segment)
    (last : Segment) :
    Path.append ⟨rooted, before, s⟩ (init ++ [last]) = ⟨rooted, before ++ s :: init, last⟩ := by
  induction init generalizing before s with
  | nil => rfl
  | cons t init ih => simp [append, ih]

/-- The segments of a path of names alone. -/
theorem isBare_of_mem {p : Path} (hp : p.toTy.isTree = true) (hbare : p.isPlain = true) {s : Segment}
    (hs : s ∈ p.init ++ [p.last]) : s.isTree = true ∧ s.isBare = true := by
  rw [toTy, Ty.isTree, Bool.and_eq_true] at hp
  rw [isPlain, Bool.and_eq_true, List.all_eq_true] at hbare
  rcases List.mem_append.1 hs with hinit | hlast
  · exact ⟨Segment.isTree_of_mem hp.1 hinit, hbare.1 s hinit⟩
  · obtain rfl := List.mem_singleton.1 hlast
    exact ⟨hp.2, hbare.2⟩

theorem exists_append (p : Path) :
    ∃ s ss, p = Path.append ⟨p.rooted, [], s⟩ ss ∧ s :: ss = p.init ++ [p.last] := by
  obtain ⟨rooted, init, last⟩ := p
  cases init with
  | nil => exact ⟨last, [], rfl, rfl⟩
  | cons s init => exact ⟨s, init ++ [last], (append_init rooted [] s init last).symm, rfl⟩

end Path

/-! ## Arguments -/

namespace TyArg

theorem isTree_of_mem {as : List TyArg} (h : listIsTree as = true) {a : TyArg} (ha : a ∈ as) :
    a.isTree = true := by
  induction as with
  | nil => cases ha
  | cons b as ih =>
      rw [listIsTree, Bool.and_eq_true] at h
      rcases List.mem_cons.1 ha with rfl | ha
      · exact h.1
      · exact ih h.2 ha

theorem not_angle_tokens {a : TyArg} (h : a.isTree = true) (ts : List Token) :
    Look.op ">" (a.tokens.2 ++ ts) = false := by
  cases a with
  | type t => exact Look.not_op_of_startsType (Ty.startsType_tokens h ts) (s := ">") rfl (by decide)
  | lifetime x => rfl
  | other us => cases h

/-- A list of arguments with the lifetimes first is written as it stands. -/
theorem tokens_bring {as : List TyArg} (trailing : Bool)
    (h : (as.map TyArg.tokens).filter Prod.fst ++ (as.map TyArg.tokens).filter (!·.1) =
      as.map TyArg.tokens) :
    ((⟨TyArg.listTokens as, trailing⟩ : Listed (Bool × List Token)).bring Prod.fst).tokens
        (Token.op ",") Prod.snd =
      (⟨as, trailing⟩ : Listed TyArg).tokens (Token.op ",") (·.tokens.2) := by
  rw [listTokens_eq_map, Listed.bring_eq_self h, Listed.tokens_map]

end TyArg

/-! ## Sizes -/

/-- The segments of a path are no greater than the path. -/
theorem Path.size_segment_le {p : Path} {s : Segment} (h : s ∈ p.init ++ [p.last]) :
    Token.sizeList s.tokens ≤ Token.sizeList p.tokens := by
  obtain ⟨t, ss, hp, hss⟩ := p.exists_append
  have hsize : ∀ r : Segment, Token.sizeList r.tokens ≤ Token.sizeList (Token.op "::" ++ r.tokens) := by
    intro r
    rw [Token.sizeList_append]
    exact Nat.le_add_left _ _
  rw [hp, Path.tokens_append, Token.sizeList_append]
  rw [← hss] at h
  rcases List.mem_cons.1 h with rfl | h
  · rw [Path.tokens_first, Token.sizeList_append]
    omega
  · have hmore := Token.sizeList_le_flatMap (f := fun r : Segment => Token.op "::" ++ r.tokens) h
    exact Nat.le_trans (hsize s) (Nat.le_trans hmore (Nat.le_add_left _ _))

/-- The arguments of a segment are smaller than the segment. -/
theorem Segment.size_arg_lt (x : String) (turbofish trailing : Bool) {args : List TyArg}
    (hsorted : (args.map TyArg.tokens).filter Prod.fst ++ (args.map TyArg.tokens).filter (!·.1) =
      args.map TyArg.tokens) {a : TyArg} (h : a ∈ args) :
    Token.sizeList a.tokens.2 + 3 ≤
      Token.sizeList (Segment.generic x turbofish args trailing).tokens := by
  have ha : Token.sizeList a.tokens.2 ≤
      Token.sizeList ((⟨args, trailing⟩ : Listed TyArg).tokens (Token.op ",") fun b => b.tokens.2) :=
    Listed.sizeList_le (f := fun b : TyArg => b.tokens.2) (l := ⟨args, trailing⟩) h
  have hopen : Token.sizeList (Token.op "<") = 1 := rfl
  have hclose : Token.sizeList (Token.op ">") = 1 := rfl
  have hname : Token.sizeList [Token.word x] = 1 := rfl
  simp only [Segment.tokens, TyArg.tokens_bring trailing hsorted, Token.sizeList_append, hopen,
    hclose, hname]
  omega

theorem Token.sizeList_group (d : Delimiter) (us : List Token) :
    Token.sizeList [Token.enclose d us] = Token.sizeList us + 1 := by
  simp [Token.sizeList, Token.enclose, Token.size, Nat.add_comm]

end RowDerive
