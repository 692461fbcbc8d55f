import RowDerive.Proofs.Host.Conservation
import Mathlib.Data.List.Forall2

/-!
# All or nothing

A run makes one `impl` block of everything or it makes nothing and says why. Which of the two it is, and
what is made or said, depends on the turns alone in which an extension applied, and on the methods that
were not consumed in any of them: `run_outcome`. What is said is put here as a reader sees it, by its
messages and their places.
-/

namespace RowDerive

/-- A failure as it is read. One that is internal says so, and has no place. -/
def Failure.lines : Failure → List (String × Span)
  | reports rs => rs.map Report.line
  | internal fault => [("internal error: " ++ fault.text, .nowhere)]

theorem Failure.map_line_toReports (f : Failure) : f.toReports.map Report.line = f.lines := by
  cases f with
  | reports rs => rfl
  | internal fault => rfl

namespace Host

/-- What the extension makes of what it is offered. -/
def Turn.result (t : Turn) : Except Failure (List Token) := t.extension.make t.offer

/-- What is read of a turn if its extension fails. -/
def Turn.lines (t : Turn) : List (String × Span) :=
  match t.result with
  | .ok _ => []
  | .error f => f.lines

/-- The turns of a run in which the extension applies. -/
def applied (r : Record) (es : List Extension) : List Turn := (turns r es).filter Turn.applies

/-! ## One turn -/

namespace Turn

variable {t : Turn}

theorem reports_of_error (ha : t.applies) {f : Failure} (h : t.result = .error f) :
    t.reports = f.toReports := by
  rw [result] at h
  simp only [reports, ha, if_true, h]

theorem reports_of_ok (ha : t.applies) {us : List Token} (h : t.result = .ok us) :
    t.reports = [] := by
  rw [result] at h
  simp only [reports, ha, if_true, h]

theorem made_of_ok (ha : t.applies) {us : List Token} (h : t.result = .ok us) : t.made = [us] := by
  rw [result] at h
  simp only [made, ha, if_true, h]

/-- An extension that applies reports nothing only if it makes its method. -/
theorem reports_eq_nil_iff (ha : t.applies) : t.reports = [] ↔ ∃ us, t.result = .ok us := by
  cases h : t.result with
  | ok us => simp [reports_of_ok ha h]
  | error f => simp [reports_of_error ha h, f.toReports_ne_nil]

theorem map_line_reports (ha : t.applies) : t.reports.map Report.line = t.lines := by
  cases h : t.result with
  | ok us => rw [reports_of_ok ha h, lines, h, List.map_nil]
  | error f => rw [reports_of_error ha h, f.map_line_toReports, lines, h]

end Turn

/-! ## All turns -/

theorem applies_of_mem_applied {r : Record} {es : List Extension} {t : Turn} (h : t ∈ applied r es) :
    t.applies :=
  (List.mem_filter.1 h).2

/-- Turns in which the extension does not apply add nothing to what is gathered from all of them. -/
theorem flatMap_filter_applies {α : Type} {f : Turn → List α} (ts : List Turn)
    (hf : ∀ t : Turn, t.applies = false → f t = []) :
    (ts.filter Turn.applies).flatMap f = ts.flatMap f := by
  induction ts with
  | nil => rfl
  | cons t ts ih =>
      cases ha : t.applies with
      | true => rw [List.filter_cons_of_pos ha, List.flatMap_cons, List.flatMap_cons, ih]
      | false =>
          rw [List.filter_cons_of_neg (by simp [ha]), List.flatMap_cons, hf t ha, List.nil_append, ih]

theorem flatMap_reports (r : Record) (es : List Extension) :
    (turns r es).flatMap Turn.reports = (applied r es).flatMap Turn.reports :=
  (flatMap_filter_applies _ fun t ha => by simp [Turn.reports, ha]).symm

theorem flatMap_made (r : Record) (es : List Extension) :
    (turns r es).flatMap Turn.made = (applied r es).flatMap Turn.made :=
  (flatMap_filter_applies _ fun t ha => by simp [Turn.made, ha]).symm

/-- What is read of the reports of all turns. -/
theorem map_line_flatMap_reports (r : Record) (es : List Extension) :
    ((turns r es).flatMap Turn.reports).map Report.line = (applied r es).flatMap Turn.lines := by
  rw [flatMap_reports, List.map_flatMap]
  exact List.flatMap_congr fun t ht => Turn.map_line_reports (applies_of_mem_applied ht)

/-- If every extension makes its method, what is made is these methods, in order. -/
theorem flatMap_made_iff {ts : List Turn} (ha : ∀ t ∈ ts, t.applies)
    (hok : ∀ t ∈ ts, ∃ us, t.result = .ok us) {made : List (List Token)} :
    ts.flatMap Turn.made = made ↔ List.Forall₂ (fun t us => t.result = .ok us) ts made := by
  induction ts generalizing made with
  | nil => rw [List.flatMap_nil, List.forall₂_nil_left_iff, eq_comm]
  | cons t ts ih =>
      obtain ⟨us, hus⟩ := hok t List.mem_cons_self
      have ih : ∀ {made}, ts.flatMap Turn.made = made ↔
          List.Forall₂ (fun t us => t.result = .ok us) ts made :=
        ih (fun t' h => ha t' (List.mem_cons_of_mem t h)) fun t' h => hok t' (List.mem_cons_of_mem t h)
      rw [List.flatMap_cons, Turn.made_of_ok (ha t List.mem_cons_self) hus,
        List.forall₂_cons_left_iff, List.singleton_append]
      constructor
      · rintro rfl
        exact ⟨us, _, hus, ih.1 rfl, rfl⟩
      · rintro ⟨us', made', hus', hmade, rfl⟩
        obtain rfl := Except.ok.inj (hus.symm.trans hus')
        rw [ih.2 hmade]

/-! ## The whole run -/

/-- The methods that no turn of a run consumes, in the order of their declaration. -/
def unconsumed (r : Record) (es : List Extension) : List (Located Method) :=
  r.methods.filter fun m => ¬ Consumed (turns r es) m.val

theorem unconsumed_eq_nil_iff {r : Record} {es : List Extension} :
    unconsumed r es = [] ↔ ∀ m ∈ r.methods, Consumed (turns r es) m.val := by
  simp [unconsumed, List.filter_eq_nil_iff]

/-- What there is to report after a run. -/
def allReports (r : Record) (es : List Extension) : List Report :=
  (turns r es).flatMap Turn.reports ++ (unconsumed r es).map unimplemented

theorem run_eq_ifClean (r : Record) (es : List Extension) :
    run r es = .ifClean (allReports r es) (implBlock r ((applied r es).flatMap Turn.made)) := by
  rw [run_eq, leave_eq_filter, flatMap_made, allReports, unconsumed]

theorem allReports_eq_nil_iff {r : Record} {es : List Extension} :
    allReports r es = [] ↔
      (∀ t ∈ applied r es, ∃ us, t.result = .ok us) ∧
        ∀ m ∈ r.methods, Consumed (turns r es) m.val := by
  rw [allReports, List.append_eq_nil_iff, List.map_eq_nil_iff, unconsumed_eq_nil_iff,
    flatMap_reports, List.flatMap_eq_nil_iff]
  exact and_congr_left' (forall₂_congr fun t ht =>
    Turn.reports_eq_nil_iff (applies_of_mem_applied ht))

/-- Every extension has its turn, in order. Something is made exactly if every extension that applied
made its method and every declared method was consumed; then there is one `impl` block of the record that
holds these methods, in order, or nothing if no extension applied. Otherwise it is said why each
extension failed that did, in order, and then which methods are left, in order, each at its place. -/
theorem run_outcome (r : Record) (es : List Extension) :
    (turns r es).map Turn.extension = es ∧
      ((∃ ts, run r es = .ok ts) ↔
        (∀ t ∈ applied r es, ∃ us, t.result = .ok us) ∧
          ∀ m ∈ r.methods, Consumed (turns r es) m.val) ∧
      (∀ ts, run r es = .ok ts →
        (applied r es = [] → ts = []) ∧
          (applied r es ≠ [] → ∃ made,
            List.Forall₂ (fun t us => t.result = .ok us) (applied r es) made ∧
              ts = [Token.word "impl"] ++ r.generics.parameters ++ [Token.word r.name.val] ++
                r.generics.arguments ++ r.generics.whereTokens ++
                  [Token.enclose .brace made.flatten])) ∧
      ∀ rs, run r es = .error rs →
        rs.map Report.line =
          (applied r es).flatMap Turn.lines ++
            (r.methods.filter fun m => ¬ Consumed (turns r es) m.val).map unimplementedLine := by
  refine ⟨map_extension_turns r es, ?_, ?_, ?_⟩
  · rw [← allReports_eq_nil_iff, run_eq_ifClean]
    simp only [Checked.ifClean_eq_ok_iff, exists_and_left, exists_eq', and_true]
  · intro ts h
    rw [run_eq_ifClean, Checked.ifClean_eq_ok_iff, allReports_eq_nil_iff] at h
    obtain ⟨⟨hok, -⟩, rfl⟩ := h
    have hmade := (flatMap_made_iff (fun t => applies_of_mem_applied) hok).1 rfl
    constructor
    · intro hnil
      rw [hnil]
      rfl
    · intro hne
      refine ⟨_, hmade, ?_⟩
      have hne' : (applied r es).flatMap Turn.made ≠ [] := by
        intro hc
        rw [hc, List.forall₂_nil_right_iff] at hmade
        exact hne hmade
      rw [implBlock, if_neg (by simpa using hne')]
  · intro rs h
    rw [run_eq_ifClean, Checked.ifClean_eq_error_iff] at h
    obtain ⟨-, rfl⟩ := h
    rw [allReports, List.map_append, map_line_flatMap_reports, map_line_unimplemented, unconsumed]

end Host

end RowDerive
