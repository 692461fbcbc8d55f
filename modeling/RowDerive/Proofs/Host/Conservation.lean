import RowDerive.Proofs.Host.Turn

/-!
# No method is lost

What the host offers, and what it reports in the end, is fixed by which declared methods are *consumed*:
taken by an extension that applies. Methods are compared by what they declare, so that taking one takes
all its copies. Up to that, a declared method is offered until it is consumed, and reported exactly if it
never is.
-/

namespace RowDerive.Host

/-- An extension that applies took the method in one of the turns. -/
def Consumed (ts : List Turn) (m : Method) : Prop :=
  ∃ t ∈ ts, t.applies ∧ m ∈ t.extension.takes t.offer

instance (ts : List Turn) (m : Method) : Decidable (Consumed ts m) :=
  inferInstanceAs (Decidable (∃ t ∈ ts, _))

theorem mem_taken_iff {t : Turn} {m : Method} :
    m ∈ t.taken ↔ t.applies ∧ m ∈ t.extension.takes t.offer := by
  by_cases h : t.applies <;> simp [Turn.taken, h]

theorem mem_flatMap_taken_iff {ts : List Turn} {m : Method} :
    m ∈ ts.flatMap Turn.taken ↔ Consumed ts m := by
  simp only [List.mem_flatMap, mem_taken_iff, Consumed]

/-- What is left after turns is what is not consumed in them. -/
theorem leave_eq_filter (ts : List Turn) (ms : List (Located Method)) :
    leave (ts.flatMap Turn.taken) ms = ms.filter fun m => ¬ Consumed ts m.val := by
  unfold leave
  simp only [mem_flatMap_taken_iff]

theorem remaining_offerAll (r : Record) (es : List Extension) :
    (offerAll r es).remaining = r.methods.filter fun m => ¬ Consumed (turns r es) m.val := by
  rw [offerAll_eq, leave_eq_filter]

variable {r : Record}

/-! ## One turn -/

/-- Where an extension does not apply, nothing happens. -/
theorem offer_of_not_applies {e : Extension} {p : Progress}
    (h : e.applies ⟨r, p.remaining⟩ = false) : offer r e p = p := by
  simp [offer, h]

/-- Where an extension fails, what it took is gone and nothing is made. -/
theorem offer_of_error {e : Extension} {p : Progress} {f : Failure}
    (ha : e.applies ⟨r, p.remaining⟩ = true) (hm : e.make ⟨r, p.remaining⟩ = .error f) :
    offer r e p =
      ⟨p.remaining.filter fun m => m.val ∉ e.takes ⟨r, p.remaining⟩, p.made,
        p.reports ++ f.toReports⟩ := by
  simp [offer, ha, hm, leave]

theorem offerAll_concat (es : List Extension) (e : Extension) :
    offerAll r (es ++ [e]) = offer r e (offerAll r es) := by
  simp [offerAll]

/-! ## The whole run -/

/-- At each turn the host offers the declared methods that are not consumed so far, in their order and
with their copies. An extension that does not apply leaves no trace, and one that fails leaves what it
took taken. In the end each declared method is either consumed, or reported once for each time it is
declared, by its name and at its place, behind what the extensions report. -/
theorem methods_conserved (r : Record) (es : List Extension) :
    (turns r es).map Turn.extension = es ∧
      (∀ before t after, turns r es = before ++ t :: after →
        let p := offerAll r (before.map Turn.extension)
        let q := offerAll r ((before ++ [t]).map Turn.extension)
        t.offer = ⟨r, p.remaining⟩ ∧
          p.remaining = r.methods.filter (fun m => ¬ Consumed before m.val) ∧
          (t.applies = false → q = p) ∧
          ∀ f, t.applies = true → t.extension.make t.offer = .error f →
            q = ⟨p.remaining.filter fun m => m.val ∉ t.extension.takes t.offer, p.made,
              p.reports ++ f.toReports⟩) ∧
      ∃ left : List (Located Method), left.Sublist r.methods ∧
        (∀ m ∈ r.methods,
          (Consumed (turns r es) m.val ∧ left.count m = 0) ∨
            (¬ Consumed (turns r es) m.val ∧ left.count m = r.methods.count m)) ∧
        run r es =
          .ifClean ((turns r es).flatMap Turn.reports ++ left.map unimplemented)
            (implBlock r ((turns r es).flatMap Turn.made)) ∧
        ∀ rs, run r es = .error rs →
          rs.map Report.line =
            ((turns r es).flatMap Turn.reports).map Report.line ++ left.map unimplementedLine := by
  refine ⟨map_extension_turns r es, ?_, ?_⟩
  · intro before t after h
    obtain ⟨hbefore, hoffer⟩ := turns_split h
    have hq : offerAll r ((before ++ [t]).map Turn.extension) =
        offer r t.extension (offerAll r (before.map Turn.extension)) := by
      rw [List.map_append, List.map_singleton, offerAll_concat]
    refine ⟨hoffer, ?_, ?_, ?_⟩
    · rw [remaining_offerAll, ← hbefore]
    · intro ha
      rw [Turn.applies, hoffer] at ha
      exact hq.trans (offer_of_not_applies ha)
    · intro f ha hm
      rw [Turn.applies, hoffer] at ha
      rw [hoffer] at hm
      rw [hq, offer_of_error ha hm, hoffer]
  · have hrun := run_eq r es
    rw [leave_eq_filter] at hrun
    refine ⟨r.methods.filter fun m => ¬ Consumed (turns r es) m.val, List.filter_sublist, ?_, hrun,
      ?_⟩
    · intro m _
      by_cases hc : Consumed (turns r es) m.val
      · refine Or.inl ⟨hc, List.count_eq_zero.2 fun hm => ?_⟩
        simpa [hc] using (List.mem_filter.1 hm).2
      · exact Or.inr ⟨hc, List.count_filter (by simpa using hc)⟩
    · intro rs h
      rw [hrun, Checked.ifClean_eq_error_iff] at h
      obtain ⟨-, rfl⟩ := h
      rw [List.map_append, map_line_unimplemented]

end RowDerive.Host
