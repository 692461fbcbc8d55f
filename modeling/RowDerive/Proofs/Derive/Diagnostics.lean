import RowDerive.Proofs.Host.Rows
import RowDerive.Proofs.Record.Declaration

/-!
# What is reported of a record

Of a declaration that is a record, what is reported depends first on its methods. Unless exactly one of
them is a getter of rows, the fields are not looked at, and every method is reported. If one is, what is
wrong with the properties is reported, then every other method. Methods are taken away by equality, so a
copy of the getter would be taken along with it, but then there are two getters and none is taken. Hence
no method is ever taken for another one: `derive_of_record`.
-/

namespace RowDerive

open Extension (rowName)

/-- Taking away the one getter leaves every other method in its place. -/
theorem Host.leave_getter {before after : List (Located Method)} {m : Located Method}
    (hm : m.val.isGetter rowName)
    (hothers : ∀ m' ∈ before ++ after, ¬ m'.val.isGetter rowName) :
    Host.leave [m.val] (before ++ m :: after) = before ++ after := by
  have hkeep : ∀ m' ∈ before ++ after, m'.val ∉ [m.val] := by
    intro m' hm' hc
    rw [List.mem_singleton] at hc
    exact hothers m' hm' (hc ▸ hm)
  have hself : Host.leave [m.val] (before ++ after) = before ++ after :=
    List.filter_eq_self.2 fun m' hm' => decide_eq_true (hkeep m' hm')
  have hgone : Host.leave [m.val] (m :: after) = Host.leave [m.val] after :=
    List.filter_cons_of_neg (by simp)
  have hsplit : Host.leave [m.val] (before ++ m :: after) =
      Host.leave [m.val] before ++ Host.leave [m.val] (m :: after) := List.filter_append _ _
  rw [hsplit, hgone, ← hself]
  exact (List.filter_append _ _).symm

namespace Method

variable {x : String} {before after : List (Located Method)} {m : Located Method}

/-- A getter without another one beside it is the one getter. -/
theorem soleGetter?_append_cons (hm : m.val.isGetter x)
    (hothers : ∀ m' ∈ before ++ after, ¬ m'.val.isGetter x) :
    soleGetter? x (before ++ m :: after) = some m := by
  have hnone : (before ++ after).filter (·.val.isGetter x) = [] := List.filter_eq_nil_iff.2 hothers
  rw [List.filter_append, List.append_eq_nil_iff] at hnone
  rw [soleGetter?_eq_some_iff, List.filter_append, hnone.1, List.nil_append]
  simp only [List.filter_cons, hm, if_true, hnone.2]

theorem soleGetter?_eq_none {ms : List (Located Method)}
    (h : ms.countP (·.val.isGetter x) ≠ 1) : soleGetter? x ms = none := by
  cases hsole : soleGetter? x ms with
  | none => rfl
  | some m =>
      rw [soleGetter?_eq_some_iff] at hsole
      rw [List.countP_eq_length_filter, hsole] at h
      exact absurd rfl h

/-- Of two methods that are alike neither is like the one getter. -/
theorem ne_soleGetter?_of_sublist {ms : List (Located Method)} {y z : Located Method}
    (hsole : soleGetter? x ms = some m) (hsub : [y, z].Sublist ms) (halike : y.val = z.val) :
    y.val ≠ m.val := by
  intro hy
  have hym : y.val.isGetter x := hy ▸ isGetter_of_soleGetter? hsole
  have hzm : z.val.isGetter x := halike ▸ hym
  have hfilter := hsub.filter (·.val.isGetter x)
  simp only [soleGetter?_eq_some_iff.1 hsole, List.filter_cons, hym, hzm, if_true] at hfilter
  exact absurd hfilter.length_le (by simp)

end Method

namespace Host

variable {r : Record}

/-- Of methods that are alike each is reported if another one is left. -/
theorem run_extensions_of_sublist {y z : Located Method} (hsub : [y, z].Sublist r.methods)
    (halike : y.val = z.val) :
    ∃ rs, run r extensions = .error rs ∧ [unimplemented y, unimplemented z].Sublist rs := by
  have hreported : ∀ (ms : List (Located Method)) (qs : List Report) (ts : List Token),
      [y, z].Sublist ms →
        ∃ rs, Checked.ifClean (qs ++ ms.map unimplemented) ts = .error rs ∧
          [unimplemented y, unimplemented z].Sublist rs := by
    intro ms qs ts hms
    have hmap : [unimplemented y, unimplemented z].Sublist (qs ++ ms.map unimplemented) :=
      (hms.map unimplemented).trans (List.sublist_append_right _ _)
    refine ⟨_, (Checked.ifClean_eq_error_iff _ _ _).2 ⟨?_, rfl⟩, hmap⟩
    intro hnil
    rw [hnil] at hmap
    cases hmap
  cases hsole : Method.soleGetter? rowName r.methods with
  | none =>
      rw [run_extensions_of_none hsole]
      exact hreported r.methods [] [] hsub
  | some m =>
      have hy := Method.ne_soleGetter?_of_sublist hsole hsub halike
      have hz : z.val ≠ m.val := halike ▸ hy
      have hleft : [y, z].Sublist (leave [m.val] r.methods) := by
        have hfilter := hsub.filter fun m' => m'.val ∉ [m.val]
        simpa [leave, List.filter_cons, hy, hz] using hfilter
      rw [run_extensions_of_some hsole]
      cases Extension.makeRow ⟨r, r.methods⟩ with
      | ok ts => exact hreported _ [] _ hleft
      | error f => exact hreported _ f.toReports _ hleft

end Host

/-- What is reported of a record, if anything is. If exactly one of its methods is a getter of rows, what
is wrong with its properties is reported, or, if nothing is, why the method could not be made if it could
not; then every other method. If not exactly one is, every method is reported, and nothing of the
properties. Methods that are declared alike are reported each for itself. Such a report says which method
it is, and where. -/
theorem derive_of_record {i : Item} {r : Record} (h : Record.ofItem i = .ok r) :
    (∀ before m after, r.methods = before ++ m :: after → m.val.isGetter rowName →
      (∀ m' ∈ before ++ after, ¬ m'.val.isGetter rowName) →
        (∀ rs, Property.ofRecord r = .error rs →
          derive i = .error (rs ++ (before ++ after).map Host.unimplemented)) ∧
        (∀ ps ts, Property.ofRecord r = .ok ps → m.val.implement ps = .ok ts →
          derive i =
            .ifClean ((before ++ after).map Host.unimplemented) (Host.implBlock r [ts])) ∧
        ∀ ps fault, Property.ofRecord r = .ok ps → m.val.implement ps = .error fault →
          derive i =
            .error (⟨.internal fault, .nowhere⟩ :: (before ++ after).map Host.unimplemented)) ∧
      (r.methods.countP (·.val.isGetter rowName) ≠ 1 →
        derive i = .ifClean (r.methods.map Host.unimplemented) []) ∧
      (∀ y z, [y, z].Sublist r.methods → y.val = z.val →
        ∃ rs, derive i = .error rs ∧ [Host.unimplemented y, Host.unimplemented z].Sublist rs) ∧
      ∀ m, (Host.unimplemented m).line = Host.unimplementedLine m := by
  have hrun : derive i = Host.run r extensions := by rw [derive, h]
  rw [hrun]
  refine ⟨?_, ?_, fun y z => Host.run_extensions_of_sublist, Host.line_unimplemented⟩
  · intro before m after hms hm hothers
    have hsole : Method.soleGetter? rowName r.methods = some m :=
      hms ▸ Method.soleGetter?_append_cons hm hothers
    have hleft : Host.leave [m.val] r.methods = before ++ after :=
      hms ▸ Host.leave_getter hm hothers
    rw [Host.run_extensions_of_some hsole, hleft]
    refine ⟨?_, ?_, ?_⟩
    · intro rs hrs
      rw [Extension.makeRow_of_error hsole hrs]
      refine (Checked.ifClean_eq_error_iff _ _ _).2 ⟨?_, rfl⟩
      exact List.append_ne_nil_of_left_ne_nil (Property.ne_nil_of_ofRecord_eq_error hrs) _
    · intro ps ts hps hts
      rw [Extension.makeRow_of_ok hsole hps, hts]
      rfl
    · intro ps fault hps hfault
      rw [Extension.makeRow_of_ok hsole hps, hfault]
      rfl
  · intro hcount
    exact Host.run_extensions_of_none (Method.soleGetter?_eq_none hcount)

/-- A declaration with one getter of rows between two copies of another method. -/
def repeatedSource : String :=
  "#[content_values(fn a(&self) -> String; fn v(&self) -> ContentValues; fn a(&self) -> String)] " ++
    "struct S \x7b id: u64 \x7d"

/-- Of such a declaration the type that is not supported is reported, and then each copy. -/
theorem derive_of_record_repeated :
    ∃ i r before m after rs, Item.ofText? repeatedSource = some i ∧ Record.ofItem i = .ok r ∧
      r.methods = before ++ m :: after ∧
      (before ++ after).map (·.val.name) = ["a", "a"] ∧
      rs.map Located.val = [.unsupportedType "id"] ∧
      derive i = .error (rs ++ (before ++ after).map Host.unimplemented) := by
  have hcheck : (Item.ofText? repeatedSource).any fun i => (Record.ofItem i).toOption.any fun r =>
      r.methods.map (fun m => (m.val.isGetter rowName, m.val.name)) =
          [(false, "a"), (true, "v"), (false, "a")] ∧
        (Property.ofRecord r).reports.map Located.val = [.unsupportedType "id"] := by decide +kernel
  obtain ⟨i, hi, hcheck⟩ := (Option.any_eq_true _ _).1 hcheck
  obtain ⟨r, hr, hcheck⟩ := (Option.any_eq_true _ _).1 hcheck
  obtain ⟨hmethods, hproblems⟩ := of_decide_eq_true hcheck
  obtain ⟨x, _, hms, hx, hmethods⟩ := List.map_eq_cons_iff.1 hmethods
  obtain ⟨m, _, rfl, hm, hmethods⟩ := List.map_eq_cons_iff.1 hmethods
  obtain ⟨y, _, rfl, hy, hmethods⟩ := List.map_eq_cons_iff.1 hmethods
  obtain rfl := List.map_eq_nil_iff.1 hmethods
  obtain ⟨hgetter, -⟩ := Prod.mk.inj hm
  obtain ⟨hxother, hxname⟩ := Prod.mk.inj hx
  obtain ⟨hyother, hyname⟩ := Prod.mk.inj hy
  have hothers : ∀ m' ∈ [x] ++ [y], ¬ m'.val.isGetter rowName := by simp [hxother, hyother]
  have hnames : ([x] ++ [y]).map (·.val.name) = ["a", "a"] := by simp [hxname, hyname]
  have hr := eq_ok_of_toOption hr
  cases hrs : Property.ofRecord r with
  | ok ps =>
      rw [hrs] at hproblems
      cases hproblems
  | error rs =>
      rw [hrs] at hproblems
      obtain ⟨herror, -, -⟩ := (derive_of_record hr).1 [x] m [y] hms hgetter hothers
      exact ⟨i, r, [x], m, [y], rs, hi, hr, hms, hnames, hproblems, herror rs hrs⟩

end RowDerive
