import RowDerive.Proofs.Derive.Relevance
import RowDerive.Proofs.Record.MethodList

/-!
# Methods in several attributes

The methods of a record may be declared in any number of attributes. It matters only which they are and in
which order: the record is the same up to places however they are distributed, and so is what is made of
it. A record with no such attribute declares the default method.
-/

namespace RowDerive

open Placed (blur)
open RowDerive.Parser RowDerive.Grammar

/-! ## Records up to places -/

instance : Placed Column where
  blur c := ⟨blur c.name, blur c.ty, blur c.setting⟩
  blur_blur c := by simp

instance : Placed Record where
  blur r := ⟨blur r.name, r.generics, blur r.methods, blur r.columns⟩
  blur_blur r := by simp

theorem Column.seenAlike_of_alike {c d : Column} (h : Alike c d) : c.SeenAlike d := by
  obtain ⟨hname, hty, hsetting⟩ := Column.mk.inj h.eq
  refine ⟨Located.val_eq_of_alike ⟨hname⟩, ⟨hsetting⟩, fun _ => ?_⟩
  have hval : c.ty.val = d.ty.val := Located.val_eq_of_alike ⟨hty⟩
  rw [hval]
  exact ⟨rfl, rfl⟩

theorem Record.seenAlike_of_alike {r r' : Record} (h : Alike r r') : r.SeenAlike r' := by
  obtain ⟨hname, hgenerics, hmethods, hcolumns⟩ := Record.mk.inj h.eq
  refine ⟨Located.val_eq_of_alike ⟨hname⟩, hgenerics, ⟨hmethods⟩, ?_⟩
  exact (alike_list_iff.1 ⟨hcolumns⟩).imp fun _ _ => Column.seenAlike_of_alike

theorem alike_of_map_val {α : Type} [Placed α] [Placeless α] {as bs : List (Located α)}
    (h : as.map Located.val = bs.map Located.val) : Alike as bs where
  eq := by
    have hblur (as : List (Located α)) : blur as = (as.map Located.val).map (Located.mk · .nowhere) := by
      rw [List.map_map]
      exact List.map_congr_left fun a _ => blur_located a
    rw [hblur, hblur, h]

theorem Checked.alike_ifClean {α : Type} [Placed α] {rs qs : List Report} {a b : α} (hrs : Alike rs qs)
    (hab : Alike a b) : Alike (Checked.ifClean rs a) (Checked.ifClean qs b) where
  eq := by
    cases rs with
    | nil =>
        obtain rfl : qs = [] := List.map_eq_nil_iff.1 hrs.eq.symm
        exact congrArg Except.ok hab.eq
    | cons r rs =>
        cases qs with
        | nil => exact nomatch hrs.eq
        | cons q qs => exact congrArg Except.error hrs.eq

/-- Fields that are alike are columns that are alike, or the same is wrong with them. -/
theorem Column.alike_ofField {f g : Field} (h : Alike f g) : Alike (ofField f) (ofField g) := by
  obtain ⟨hattrs, -, hname, hty⟩ := Field.mk.inj h.eq
  have hfilter : Alike (settingAttrs f.attrs) (settingAttrs g.attrs) :=
    alike_filter (fun _ => rfl) ⟨hattrs⟩
  have hnone : Alike (none : Option Setting) none := ⟨rfl⟩
  obtain ⟨hrs, hs⟩ := Prod.mk.inj (alike_readSettings hfilter hnone).eq
  have hsetting := (alike_getD (a := Setting.none) (b := Setting.none) ⟨hs⟩ ⟨rfl⟩).eq
  refine Checked.alike_ifClean ⟨hrs⟩ ⟨?_⟩
  show Column.mk _ _ _ = Column.mk _ _ _
  rw [hname, hty, hsetting]

theorem Record.alike_columnsOf {σ τ : Shape} (h : Alike σ τ) :
    List.Forall₂ (fun x y => Alike x y) (columnsOf σ) (columnsOf τ) := by
  cases σ <;> cases τ <;> try cases h.eq
  · rename_i fs gs
    rw [columnsOf, columnsOf, List.forall₂_map_left_iff, List.forall₂_map_right_iff]
    exact (alike_list_iff.1 ⟨Shape.named.inj h.eq⟩).imp fun _ _ => Column.alike_ofField
  · exact .cons ⟨rfl⟩ .nil
  · exact .nil
  · exact .nil

/-! ## Attributes that declare methods -/

/-- The arguments of the attribute are the methods. -/
def Attribute.Declares (a : Attribute) (ms : List Method) : Prop :=
  ∃ content close, a.args = .ok (content, close) ∧ Method.Declares content ms

namespace Record

/-- Some of the attributes declare methods, one after the other these. -/
def DeclaredBy (attrs : List Attribute) (ms : List Method) : Prop :=
  methodAttrs attrs ≠ [] ∧
    ∃ mss, List.Forall₂ Attribute.Declares (methodAttrs attrs) mss ∧ mss.flatten = ms

/-- The methods that are found in the attributes are these. -/
def Finds (attrs : List Attribute) (ms : List Method) : Prop :=
  ∃ lss : List (List (Located Method)),
    declaredMethods attrs = lss.map Except.ok ∧ lss.flatten.map Located.val = ms

variable {attrs : List Attribute} {ms : List Method}

theorem exists_of_declares {as : List Attribute} {mss : List (List Method)}
    (h : List.Forall₂ Attribute.Declares as mss) :
    ∃ lss : List (List (Located Method)),
      as.map Method.listOfAttribute = lss.map Except.ok ∧ lss.map (·.map Located.val) = mss := by
  induction h with
  | nil => exact ⟨[], rfl, rfl⟩
  | cons ha _ ih =>
      obtain ⟨content, close, hargs, hdeclares⟩ := ha
      obtain ⟨ls, hls, hvals⟩ := Method.listOfAttribute_of_declares hargs hdeclares
      obtain ⟨lss, hlss, hvalss⟩ := ih
      exact ⟨ls :: lss, congrArg₂ List.cons hls hlss, congrArg₂ List.cons hvals hvalss⟩

theorem DeclaredBy.finds (h : DeclaredBy attrs ms) : Finds attrs ms := by
  obtain ⟨hne, mss, hmss, rfl⟩ := h
  obtain ⟨lss, hlss, hvals⟩ := exists_of_declares hmss
  refine ⟨lss, ?_, by rw [List.map_flatten, hvals]⟩
  rw [← hlss]
  unfold declaredMethods
  cases hattrs : methodAttrs attrs with
  | nil => exact absurd hattrs hne
  | cons a as => rfl

/-- Where no attribute declares methods there is the default method. -/
theorem finds_default (h : methodAttrs attrs = []) : Finds attrs [Method.default] :=
  ⟨[[⟨Method.default, .nowhere⟩]], by rw [declaredMethods, h]; rfl, rfl⟩

theorem flatMap_reports_map_ok {α : Type} (as : List α) :
    (as.map Except.ok).flatMap (Checked.reports : Checked α → List Report) = [] := by
  induction as with
  | nil => rfl
  | cons a as ih => rw [List.map_cons, List.flatMap_cons, ih]; rfl

theorem results_map_ok {α : Type} (as : List α) : Checked.results (as.map Except.ok) = as := by
  induction as with
  | nil => rfl
  | cons a as ih => exact congrArg (a :: ·) ih

/-- Declarations that are alike but for their attributes, in which the same methods are found, are the same
record up to places. -/
theorem alike_ofItem {i j : Item} (hname : i.name.val = j.name.val) (hgenerics : i.generics = j.generics)
    (hshape : Alike i.shape j.shape) (hi : Finds i.attrs ms) (hj : Finds j.attrs ms) :
    Alike (ofItem i) (ofItem j) := by
  obtain ⟨attrs, vis, name, generics, σ⟩ := i
  obtain ⟨attrs', vis', name', generics', τ⟩ := j
  obtain ⟨lss, hlss, hvals⟩ := hi
  obtain ⟨lss', hlss', hvals'⟩ := hj
  have hcolumns : List.Forall₂ (Checked.Rel fun a b => Alike a b) (columnsOf σ) (columnsOf τ) :=
    (alike_columnsOf hshape).imp fun _ _ => .of_alike
  have hreports := Checked.alike_flatMap_reports hcolumns
  have hrecord : Alike (Record.mk name generics lss.flatten (Checked.results (columnsOf σ)))
      ⟨name', generics', lss'.flatten, Checked.results (columnsOf τ)⟩ := by
    have hmethods : blur lss.flatten = blur lss'.flatten := (alike_of_map_val (hvals.trans hvals'.symm)).eq
    have hresults := (alike_list_iff.2 (Checked.forall₂_results hcolumns)).eq
    have hnames : blur name = blur name' := by
      rw [blur_located, blur_located, show name.val = name'.val from hname]
    refine ⟨?_⟩
    show Record.mk _ _ _ _ = Record.mk _ _ _ _
    rw [hnames, show generics = generics' from hgenerics, hmethods, hresults]
  have hclean : Alike
      (Checked.ifClean ((declaredMethods attrs).flatMap Checked.reports ++
          (columnsOf σ).flatMap Checked.reports)
        ⟨name, generics, (Checked.results (declaredMethods attrs)).flatten, Checked.results (columnsOf σ)⟩)
      (Checked.ifClean ((declaredMethods attrs').flatMap Checked.reports ++
          (columnsOf τ).flatMap Checked.reports)
        (Record.mk name' generics' (Checked.results (declaredMethods attrs')).flatten
          (Checked.results (columnsOf τ)))) := by
    rw [show declaredMethods attrs = _ from hlss, show declaredMethods attrs' = _ from hlss',
      flatMap_reports_map_ok, flatMap_reports_map_ok, results_map_ok, results_map_ok]
    exact Checked.alike_ifClean hreports hrecord
  cases σ <;> cases τ <;> try cases hshape.eq
  · exact hclean
  · exact hclean
  · exact hclean
  · exact ⟨rfl⟩

end Record

/-- Of records that are the same up to places the same is made. -/
theorem alike_derive {i j : Item} (h : Alike (Record.ofItem i) (Record.ofItem j)) :
    Alike (derive i) (derive j) := by
  rw [derive, derive]
  rcases blur_eq_iff.1 h.eq with ⟨r, r', hr, hr', hrr⟩ | ⟨rs, qs, hrs, hqs, h⟩
  · rw [hr, hr']
    have hrun := Host.rel_run_extensions (Record.seenAlike_of_alike ⟨hrr⟩)
    dsimp only
    generalize Host.run r extensions = x, Host.run r' extensions = y at hrun ⊢
    cases hrun with
    | ok h => exact ⟨congrArg Except.ok (congrArg blur h)⟩
    | error h => exact ⟨congrArg Except.error h.eq⟩
  · rw [hrs, hqs]
    exact ⟨congrArg Except.error h⟩

/-! ## Declared methods together -/

/-- The source of the default method. -/
def Method.defaultSource : String := "pub fn to_content_values(&self) -> ::content_values::ContentValues"

/-- The default method is what its source declares, wherever that stands. -/
theorem Method.declares_default {content : List Token}
    (h : (Token.lex? defaultSource).map (List.map Token.erase) = some (content.map Token.erase)) :
    Declares content [Method.default] := by
  have hsource : (Token.lex? defaultSource).map (List.map Token.erase) = some Method.default.tokens := by
    decide +kernel
  have htokens : Method.default.tokens.map Token.erase = Method.default.tokens := by decide +kernel
  have hcontent : content.map Token.erase = Method.default.tokens.map Token.erase := by
    rw [htokens]
    exact Option.some.inj (h.symm.trans hsource)
  refine .last ?_
  rw [ofTokens?_congr hcontent]
  decide +kernel

/-- Methods that can be read one by one are read from an attribute together, in their order, if there is a
semicolon between any two and perhaps one after the last; a semicolon elsewhere is a fault, and so is one
that is missing. How they are distributed over attributes does not matter for the record up to places,
nor for what is made of it; and a record without such an attribute is the one that declares the default
method. -/
theorem Record.declarations_compose :
    (∀ (a : Attribute) (content : List Token) (close : Span), a.args = .ok (content, close) →
      (∀ ms, Method.Declares content ms →
        ∃ ls, Method.listOfAttribute a = .ok ls ∧ ls.map Located.val = ms) ∧
      (Method.Misjoined content → ∃ r, Method.listOfAttribute a = .error [r])) ∧
    (∀ i j : Item, i.name.val = j.name.val → i.generics = j.generics → Alike i.shape j.shape →
      (∀ ms, DeclaredBy i.attrs ms → DeclaredBy j.attrs ms →
        Alike (ofItem i) (ofItem j) ∧ Alike (derive i) (derive j)) ∧
      (∀ a content close, methodAttrs i.attrs = [] → methodAttrs j.attrs = [a] →
        a.args = .ok (content, close) →
        (Token.lex? Method.defaultSource).map (List.map Token.erase) = some (content.map Token.erase) →
        Alike (ofItem i) (ofItem j) ∧ Alike (derive i) (derive j))) := by
  refine ⟨fun a content close ha => ⟨fun ms h => Method.listOfAttribute_of_declares ha h,
    Method.listOfAttribute_of_misjoined ha⟩, fun i j hname hgenerics hshape => ?_⟩
  have hsame {ms : List Method} (hi : Finds i.attrs ms) (hj : Finds j.attrs ms) :
      Alike (ofItem i) (ofItem j) ∧ Alike (derive i) (derive j) :=
    have hrecord := alike_ofItem hname hgenerics hshape hi hj
    ⟨hrecord, alike_derive hrecord⟩
  refine ⟨fun ms hi hj => hsame hi.finds hj.finds, fun a content close hi hj ha hcontent => ?_⟩
  have hdeclared : DeclaredBy j.attrs [Method.default] := by
    refine ⟨by rw [hj]; exact List.cons_ne_nil a [], [[Method.default]], ?_, rfl⟩
    rw [hj]
    exact .cons ⟨content, close, ha, Method.declares_default hcontent⟩ .nil
  exact hsame (finds_default hi) hdeclared.finds

/-- A record without fields, under the attributes. -/
def Item.under (attrs : List Attribute) : Item :=
  ⟨attrs, [], ⟨"S", .nowhere⟩, ⟨none, none⟩, .unit⟩

/-- An attribute with arguments. -/
def Attribute.called (name : String) (content : List Token) : Attribute :=
  ⟨⟨⟨false, [name]⟩, .nowhere⟩, .args content .nowhere, .nowhere, []⟩

/-- Two methods, the second of which has an attribute and is public: in one attribute, in two with others
around them, and without a semicolon; and the default method with and without an attribute. -/
theorem Record.declarations_compose_pair :
    ∃ (ts us vs : List Token) (m n : Method),
      Token.lex? "fn a(&self) -> A" = some ts ∧ Token.lex? "#[x] pub fn b(&self) -> B" = some us ∧
      Token.lex? Method.defaultSource = some vs ∧
      (∃ ls, Method.listOfAttribute (.called "content_values" (ts ++ .punct ';' false .nowhere :: us)) =
        .ok ls ∧ ls.map Located.val = [m, n]) ∧
      (∃ r, Method.listOfAttribute (.called "content_values" (ts ++ (us ++ []))) = .error [r]) ∧
      Alike (derive (.under [.called "content_values" (ts ++ .punct ';' false .nowhere :: us)]))
        (derive (.under [.called "content_values" ts, .called "doc" us, .called "content_values" [],
          .called "content_values" us])) ∧
      Alike (derive (.under [])) (derive (.under [.called "content_values" vs])) := by
  have hcheck : (Token.lex? "fn a(&self) -> A").any fun ts =>
      (Token.lex? "#[x] pub fn b(&self) -> B").any fun us =>
        (Method.ofTokens? ts).isSome && (Method.ofTokens? us).isSome := by
    decide +kernel
  obtain ⟨ts, hts, hcheck⟩ := (Option.any_eq_true _ _).1 hcheck
  obtain ⟨us, hus, hcheck⟩ := (Option.any_eq_true _ _).1 hcheck
  obtain ⟨hm, hn⟩ := Bool.and_eq_true_iff.1 hcheck
  obtain ⟨m, hm⟩ := Option.isSome_iff_exists.1 hm
  obtain ⟨n, hn⟩ := Option.isSome_iff_exists.1 hn
  obtain ⟨vs, hvs⟩ : ∃ vs, Token.lex? Method.defaultSource = some vs :=
    Option.isSome_iff_exists.1 (by decide +kernel)
  have htogether : Method.Declares (ts ++ .punct ';' false .nowhere :: us) [m, n] := .cons hm (.last hn)
  obtain ⟨hread, hrecords⟩ := declarations_compose
  have hone := hread (.called "content_values" (ts ++ .punct ';' false .nowhere :: us)) _ _ rfl
  have hfault := hread (.called "content_values" (ts ++ (us ++ []))) _ _ rfl
  obtain ⟨hdistributed, -⟩ :=
    hrecords (.under [.called "content_values" (ts ++ .punct ';' false .nowhere :: us)])
      (.under [.called "content_values" ts, .called "doc" us, .called "content_values" [],
        .called "content_values" us]) rfl rfl ⟨rfl⟩
  obtain ⟨-, hdefault⟩ :=
    hrecords (.under []) (.under [.called "content_values" vs]) rfl rfl ⟨rfl⟩
  refine ⟨ts, us, vs, m, n, hts, hus, hvs, hone.1 _ htogether, hfault.2 (.missing hm hn), ?_, ?_⟩
  · refine (hdistributed [m, n] ⟨List.cons_ne_nil _ _, [[m, n]], ?_, rfl⟩
      ⟨List.cons_ne_nil _ _, [[m], [], [n]], ?_, rfl⟩).2
    · exact .cons ⟨_, _, rfl, htogether⟩ .nil
    · exact .cons ⟨_, _, rfl, .last hm⟩ (.cons ⟨_, _, rfl, .nil⟩ (.cons ⟨_, _, rfl, .last hn⟩ .nil))
  · exact (hdefault _ vs .nowhere rfl rfl rfl (by rw [hvs]; rfl)).2

end RowDerive
