import RowDerive.Derive
import RowDerive.Proofs.Host.Turn
import RowDerive.Proofs.Body.Assembly
import RowDerive.Proofs.Property.Extraction

/-!
# The host with the one extension

The extension that makes rows takes the getter of rows, if there is exactly one. A second method is left
over then, for it is no such getter and so is no copy of the one that is taken either. Hence something is
made only of a record that has this one method, and nothing, without a report, only of a record that has
no method at all: `run_extensions_eq_ok_iff`.
-/

namespace RowDerive

namespace Method

theorem soleGetter?_eq_some_iff {x : String} {ms : List (Located Method)} {m : Located Method} :
    soleGetter? x ms = some m ↔ ms.filter (·.val.isGetter x) = [m] := by
  unfold soleGetter?
  split
  · rename_i m' h
    rw [h, Option.some.injEq, List.cons.injEq, and_iff_left rfl]
  · rename_i h
    exact ⟨fun hc => (by cases hc), fun hc => absurd hc (h m)⟩

theorem mem_filter_of_soleGetter? {x : String} {ms : List (Located Method)} {m : Located Method}
    (h : soleGetter? x ms = some m) : m ∈ ms.filter (·.val.isGetter x) := by
  rw [soleGetter?_eq_some_iff.1 h]
  exact List.mem_singleton_self m

/-- A getter that is found is one of the methods. -/
theorem mem_of_soleGetter? {x : String} {ms : List (Located Method)} {m : Located Method}
    (h : soleGetter? x ms = some m) : m ∈ ms :=
  (List.mem_filter.1 (mem_filter_of_soleGetter? h)).1

theorem isGetter_of_soleGetter? {x : String} {ms : List (Located Method)} {m : Located Method}
    (h : soleGetter? x ms = some m) : m.val.isGetter x :=
  (List.mem_filter.1 (mem_filter_of_soleGetter? h)).2

theorem soleGetter?_singleton {x : String} {m : Located Method} (h : m.val.isGetter x) :
    soleGetter? x [m] = some m := by
  rw [soleGetter?_eq_some_iff, List.filter_singleton, h, cond_true]

/-- Nothing is left after the one getter is taken if it was the only method. -/
theorem leave_soleGetter?_eq_nil_iff {x : String} {ms : List (Located Method)} {m : Located Method}
    (h : soleGetter? x ms = some m) : Host.leave [m.val] ms = [] ↔ ms = [m] := by
  have hfilter := soleGetter?_eq_some_iff.1 h
  have hm := isGetter_of_soleGetter? h
  constructor
  · intro hleave
    have hcopy : ∀ m' ∈ ms, m'.val = m.val := by simpa [Host.leave] using hleave
    have hall : ms.filter (·.val.isGetter x) = ms :=
      List.filter_eq_self.2 fun m' hm' => by rw [hcopy m' hm']; exact hm
    exact hall.symm.trans hfilter
  · rintro rfl
    simp [Host.leave]

end Method

namespace Extension

variable {r : Record} {ms : List (Located Method)} {m : Located Method}

/-- What is wrong with the properties of a record with the one getter is why nothing is made. -/
theorem makeRow_of_error (h : Method.soleGetter? rowName ms = some m) {rs : List Report}
    (hps : Property.ofRecord r = .error rs) :
    makeRow ⟨r, ms⟩ = .error (@Failure.reports rs (Property.ne_nil_of_ofRecord_eq_error hps)) := by
  simp only [makeRow, h]
  split
  · rename_i rs' hrs'
    obtain rfl := Except.error.inj (hps.symm.trans hrs')
    rfl
  · rename_i ps hps'
    cases hps.symm.trans hps'

/-- What is made for a record with the one getter is the method for its properties. -/
theorem makeRow_of_ok (h : Method.soleGetter? rowName ms = some m) {ps : List Property}
    (hps : Property.ofRecord r = .ok ps) :
    makeRow ⟨r, ms⟩ = (m.val.implement ps).mapError .internal := by
  simp only [makeRow, h]
  split
  · rename_i rs hrs
    cases hps.symm.trans hrs
  · rename_i ps' hps'
    obtain rfl := Except.ok.inj (hps.symm.trans hps')
    cases hm : m.val.implement ps with
    | error fault => simp only [Except.mapError]
    | ok ts => simp only [Except.mapError]

end Extension

namespace Host

open Extension (rowName makeRow)

variable {r : Record}

/-- The one turn of a run. -/
def rowTurn (r : Record) : Turn := ⟨.rows, ⟨r, r.methods⟩⟩

theorem turns_extensions (r : Record) : turns r extensions = [rowTurn r] := rfl

theorem applies_rowTurn (r : Record) :
    (rowTurn r).applies = (Method.soleGetter? rowName r.methods).isSome := rfl

/-- Without the one getter every method is reported. -/
theorem run_extensions_of_none (h : Method.soleGetter? rowName r.methods = none) :
    run r extensions = .ifClean (r.methods.map unimplemented) [] := by
  have happlies : (rowTurn r).applies = false := by rw [applies_rowTurn, h, Option.isSome_none]
  rw [run_eq, turns_extensions]
  simp [Turn.reports, Turn.taken, Turn.made, happlies, implBlock]

/-- With the one getter it is implemented, and every method that is not like it is reported. -/
theorem run_extensions_of_some {m : Located Method}
    (h : Method.soleGetter? rowName r.methods = some m) :
    run r extensions =
      match makeRow ⟨r, r.methods⟩ with
      | .ok ts => .ifClean ((leave [m.val] r.methods).map unimplemented) (implBlock r [ts])
      | .error f =>
        .ifClean (f.toReports ++ (leave [m.val] r.methods).map unimplemented) [] := by
  have happlies : (rowTurn r).applies = true := by rw [applies_rowTurn, h, Option.isSome_some]
  have htakes : (rowTurn r).extension.takes (rowTurn r).offer = [m.val] := by
    simp [rowTurn, Extension.rows, h]
  have hmake : (rowTurn r).extension.make (rowTurn r).offer = makeRow ⟨r, r.methods⟩ := rfl
  rw [run_eq, turns_extensions]
  simp only [List.flatMap_singleton, Turn.reports, Turn.taken, Turn.made, happlies, if_true, htakes,
    hmake]
  cases makeRow ⟨r, r.methods⟩ with
  | ok ts => rfl
  | error f => rfl

/-- A run succeeds on records without methods, of which it makes nothing, and on records that have one
getter of rows and no other method, if the method can be made. -/
theorem run_extensions_eq_ok_iff {ts : List Token} :
    run r extensions = .ok ts ↔
      (r.methods = [] ∧ ts = []) ∨
        ∃ m us, r.methods = [m] ∧ m.val.isGetter rowName ∧ makeRow ⟨r, [m]⟩ = .ok us ∧
          ts = implBlock r [us] := by
  cases h : Method.soleGetter? rowName r.methods with
  | none =>
      rw [run_extensions_of_none h, Checked.ifClean_eq_ok_iff, List.map_eq_nil_iff]
      constructor
      · rintro ⟨hms, rfl⟩
        exact Or.inl ⟨hms, rfl⟩
      · rintro (⟨hms, rfl⟩ | ⟨m, us, hms, hm, -, -⟩)
        · exact ⟨hms, rfl⟩
        · rw [hms, Method.soleGetter?_singleton hm] at h
          cases h
  | some m =>
      have hleave := Method.leave_soleGetter?_eq_nil_iff h
      have hne : r.methods ≠ [] := fun hc => by rw [hc] at h; cases h
      rw [run_extensions_of_some h]
      constructor
      · intro hrun
        cases hmake : makeRow ⟨r, r.methods⟩ with
        | ok us =>
            simp only [hmake, Checked.ifClean_eq_ok_iff, List.map_eq_nil_iff, hleave] at hrun
            obtain ⟨hms, rfl⟩ := hrun
            exact Or.inr ⟨m, us, hms, Method.isGetter_of_soleGetter? h, hms ▸ hmake, rfl⟩
        | error f =>
            simp only [hmake, Checked.ifClean_eq_ok_iff, List.append_eq_nil_iff] at hrun
            exact absurd hrun.1.1 f.toReports_ne_nil
      · rintro (⟨hms, -⟩ | ⟨m', us, hms, hm, hmake, rfl⟩)
        · exact absurd hms hne
        · obtain rfl : m' = m := by
            rw [hms, Method.soleGetter?_singleton hm] at h
            exact Option.some.inj h
          simp only [hms, hmake]
          rw [← hms, hleave.2 hms]
          rfl

end Host

end RowDerive
