import Spreadsheet.Proofs.Evaluation.Values

/-!
# Walks with fewer levels

Two walks with the same memory go in step until the one with fewer levels runs out of them. Where
they have the same levels, they are given up alike, whatever their arithmetic comes to.
-/

namespace Spreadsheet.Evaluator

open Resolution

variable (evaluator : Evaluator) {cell : Cell} {chain : List Cell}

/-! ### Two walks in step -/

/-- Two answers are the same and leave the same memory, unless the second one ran out of levels. -/
def SameUnlessDeep {α : Type} (left right : Except Abort α × Progress) : Prop :=
  right.1 = .error .tooDeep ∨ left.1 = right.1 ∧ left.2.resolved = right.2.resolved

theorem SameUnlessDeep.remembered {left right : Except Abort Value × Progress}
    (h : SameUnlessDeep left right) (cell : Cell) :
    SameUnlessDeep (remembered cell left) (remembered cell right) := by
  obtain ⟨lresult, lafter⟩ := left
  obtain ⟨rresult, rafter⟩ := right
  rcases h with hdeep | ⟨hresult, hresolved⟩
  · obtain rfl : rresult = .error .tooDeep := hdeep
    exact .inl rfl
  · obtain rfl : lresult = rresult := hresult
    dsimp only at hresolved
    cases lresult with
    | error cause => exact .inr ⟨rfl, hresolved⟩
    | ok value => exact .inr ⟨rfl, by rw [Evaluator.remembered, Evaluator.remembered, hresolved]⟩

theorem resolve_lockstep_of_mem {p q : Progress} (levels fewer : Nat)
    (hresolved : p.resolved = q.resolved) (h : cell ∈ chain ∨ cell ∈ q.resolved) :
    SameUnlessDeep ((evaluator.resolve levels chain cell).answer p)
      ((evaluator.resolve fewer chain cell).answer q) := by
  by_cases hchain : cell ∈ chain
  · rw [evaluator.answer_resolve_of_mem fewer hchain, evaluator.answer_resolve_of_mem levels hchain]
    exact .inr ⟨rfl, hresolved⟩
  · have hknown := Std.ExtTreeMap.getElem?_eq_some_getElem (h.resolve_left hchain)
    rw [evaluator.answer_resolve_of_resolved fewer hchain hknown,
      evaluator.answer_resolve_of_resolved levels hchain (by rw [hresolved, hknown])]
    exact .inr ⟨rfl, hresolved⟩

/-- A walk with at least as many levels finds what a walk with fewer finds, unless that one runs out
of levels. -/
theorem resolve_lockstep {fewer levels : Nat} (hlevels : fewer ≤ levels) {p q : Progress}
    (hresolved : p.resolved = q.resolved) :
    SameUnlessDeep ((evaluator.resolve levels chain cell).answer p)
      ((evaluator.resolve fewer chain cell).answer q) := by
  induction fewer generalizing levels chain cell p q with
  | zero =>
      by_cases hknown : cell ∈ chain ∨ cell ∈ q.resolved
      · exact evaluator.resolve_lockstep_of_mem levels 0 hresolved hknown
      · obtain ⟨hchain, hnew⟩ := not_or.mp hknown
        exact .inl (by rw [evaluator.answer_resolve_zero hchain (by simpa using hnew)])
  | succ fewer ih =>
      by_cases hknown : cell ∈ chain ∨ cell ∈ q.resolved
      · exact evaluator.resolve_lockstep_of_mem levels (fewer + 1) hresolved hknown
      · obtain ⟨hchain, hnew⟩ := not_or.mp hknown
        have hnone : q.resolved[cell]? = none := by simpa using hnew
        obtain ⟨levels, rfl⟩ : ∃ rest, levels = rest + 1 := ⟨levels - 1, by omega⟩
        rw [evaluator.answer_resolve_succ hchain hnone,
          evaluator.answer_resolve_succ hchain (hresolved ▸ hnone)]
        -- both walks go on below the cell, which is then on the chain
        refine SameUnlessDeep.remembered ?_ cell
        exact evaluator.evaluateWith_lockstep _ _ Eq
          (fun _ _ _ _ hsame => ih (Nat.le_of_succ_le_succ hlevels) hsame) hresolved

/-! ### Which evaluations are given up -/

theorem evaluateWith_eq_ok {number : Cell → Resolution Float} {raw : String} {value : Value}
    {progress : Progress} (h : ((evaluator.evaluateWith number raw).answer progress).1 = .ok value) :
    ∃ numbers, (((Formula.targets raw).mapM number).answer progress).1 = .ok numbers ∧
      value = evaluator.valueAt raw numbers := by
  rw [answer_evaluateWith] at h
  rcases hanswer : ((Formula.targets raw).mapM number).answer progress with ⟨cause | numbers, after⟩
  · rw [hanswer] at h
    cases h
  · rw [hanswer] at h
    exact ⟨numbers, rfl, (Except.ok.inj h).symm⟩

/-- A cell shows an abort marker just when the evaluation of its text is given up. -/
theorem compute_eq_abort_iff {cause : Abort} :
    evaluator.compute cell = .marker (.abort cause) ↔
      ((evaluator.evaluateWith (evaluator.resolve (evaluator.limit - 1) [cell])
        (evaluator.raw cell)).answer { resolved := ∅, events := [] }).1 = .error cause := by
  have hcompute : evaluator.compute cell = _ :=
    evaluator.run_value (evaluator.raw cell) (.startingAt cell)
  rw [hcompute]
  change Value.ofResult ((evaluator.evaluateWith (evaluator.resolve (evaluator.limit - 1) [cell])
    (evaluator.raw cell)).answer { resolved := ∅, events := [] }).1 = _ ↔ _
  cases hresult : ((evaluator.evaluateWith (evaluator.resolve (evaluator.limit - 1) [cell])
    (evaluator.raw cell)).answer { resolved := ∅, events := [] }).1 with
  | error found => simp [Value.ofResult]
  | ok value =>
      obtain ⟨numbers, -, rfl⟩ := evaluator.evaluateWith_eq_ok hresult
      simp [Value.ofResult, evaluator.valueAt_ne_abort]

def SameCells (left right : Progress) : Prop :=
  ∀ cell, cell ∈ left.resolved ↔ cell ∈ right.resolved

inductive Alike {α β : Type} : Except Abort α × Progress → Except Abort β × Progress → Prop
  | error (cause : Abort) {left right : Progress} (h : SameCells left right) :
      Alike (.error cause, left) (.error cause, right)
  | ok (a : α) (b : β) {left right : Progress} (h : SameCells left right) :
      Alike (.ok a, left) (.ok b, right)

theorem Alike.eq_error_iff {α β : Type} {left : Except Abort α × Progress}
    {right : Except Abort β × Progress} (h : Alike left right) (cause : Abort) :
    left.1 = .error cause ↔ right.1 = .error cause := by
  cases h <;> simp

theorem mapM_alike {left right : Cell → Resolution Float} {targets : List Cell}
    (hstep : ∀ target ∈ targets, ∀ p q, SameCells p q →
      Alike ((left target).answer p) ((right target).answer q))
    {p q : Progress} (h : SameCells p q) :
    Alike ((targets.mapM left).answer p) ((targets.mapM right).answer q) := by
  induction targets generalizing p q with
  | nil => exact .ok _ _ h
  | cons target targets ih =>
      have hhead := hstep target (by simp) p q h
      generalize hleft : (left target).answer p = lanswer at hhead
      generalize hright : (right target).answer q = ranswer at hhead
      cases hhead with
      | error cause hkeys =>
          rw [answer_mapM_cons_of_error hleft, answer_mapM_cons_of_error hright]
          exact .error cause hkeys
      | ok n m hkeys =>
          have htail := ih (fun other hother => hstep other (List.mem_cons_of_mem target hother)) hkeys
          rw [answer_mapM_cons_of_ok hleft, answer_mapM_cons_of_ok hright]
          generalize (targets.mapM left).answer _ = lanswer at htail ⊢
          generalize (targets.mapM right).answer _ = ranswer at htail ⊢
          cases htail with
          | error cause hlast => exact .error cause hlast
          | ok numbers others hlast => exact .ok _ _ hlast

theorem evaluateWith_alike (first second : Evaluator) {left right : Cell → Resolution Float}
    (raw : String)
    (hstep : ∀ target ∈ Formula.targets raw, ∀ p q, SameCells p q →
      Alike ((left target).answer p) ((right target).answer q))
    {p q : Progress} (h : SameCells p q) :
    Alike ((first.evaluateWith left raw).answer p) ((second.evaluateWith right raw).answer q) := by
  have htargets := mapM_alike hstep h
  rw [answer_evaluateWith, answer_evaluateWith]
  generalize ((Formula.targets raw).mapM left).answer p = lanswer at htargets ⊢
  generalize ((Formula.targets raw).mapM right).answer q = ranswer at htargets ⊢
  cases htargets with
  | error cause hlast => exact .error cause hlast
  | ok numbers others hlast => exact .ok _ _ hlast

theorem resolve_alike_of_mem {first second : Evaluator} {chain : List Cell} {cell : Cell}
    {p q : Progress} (levels other : Nat) (h : cell ∈ chain ∨ cell ∈ p.resolved)
    (hkeys : SameCells p q) :
    Alike ((first.resolve levels chain cell).answer p)
      ((second.resolve other chain cell).answer q) := by
  by_cases hchain : cell ∈ chain
  · rw [answer_resolve_of_mem _ _ hchain, answer_resolve_of_mem _ _ hchain]
    exact .error _ hkeys
  · have hknown := h.resolve_left hchain
    rw [answer_resolve_of_resolved _ _ hchain (Std.ExtTreeMap.getElem?_eq_some_getElem hknown),
      answer_resolve_of_resolved _ _ hchain
        (Std.ExtTreeMap.getElem?_eq_some_getElem ((hkeys cell).mp hknown))]
    exact .ok _ _ hkeys

theorem Alike.remembered {left right : Except Abort Value × Progress} (h : Alike left right)
    (cell : Cell) : Alike (remembered cell left) (remembered cell right) := by
  cases h with
  | error cause hkeys => exact .error cause hkeys
  | ok value other hkeys =>
      refine .ok _ _ fun target => ?_
      rw [Std.ExtTreeMap.mem_insert, Std.ExtTreeMap.mem_insert, hkeys target]

/-- Arithmetic has no say in which walks are given up. -/
theorem resolve_alike {first second : Evaluator} (hraw : first.raw = second.raw) (levels : Nat)
    (chain : List Cell) (cell : Cell) {p q : Progress} (h : SameCells p q) :
    Alike ((first.resolve levels chain cell).answer p)
      ((second.resolve levels chain cell).answer q) := by
  induction levels generalizing chain cell p q with
  | zero =>
      by_cases hknown : cell ∈ chain ∨ cell ∈ p.resolved
      · exact resolve_alike_of_mem 0 0 hknown h
      · obtain ⟨hchain, hnew⟩ := not_or.mp hknown
        rw [answer_resolve_zero _ hchain (by simpa using hnew),
          answer_resolve_zero _ hchain (by simpa using mt (h cell).mpr hnew)]
        exact .error _ h
  | succ levels ih =>
      by_cases hknown : cell ∈ chain ∨ cell ∈ p.resolved
      · exact resolve_alike_of_mem _ _ hknown h
      · obtain ⟨hchain, hnew⟩ := not_or.mp hknown
        rw [answer_resolve_succ _ hchain (by simpa using hnew),
          answer_resolve_succ _ hchain (by simpa using mt (h cell).mpr hnew), hraw]
        refine Alike.remembered ?_ cell
        exact evaluateWith_alike first second (second.raw cell)
          (fun target _ p q hkeys => ih (cell :: chain) target hkeys) h

/-- Which cells show an abort marker is a matter of the texts and the limit alone. -/
theorem compute_eq_abort_congr (first second : Evaluator) (hraw : first.raw = second.raw)
    (hlimit : first.limit = second.limit) (cell : Cell) (cause : Abort) :
    first.compute cell = .marker (.abort cause) ↔ second.compute cell = .marker (.abort cause) := by
  have halike := evaluateWith_alike first second (second.raw cell)
    (fun target _ p q hkeys => resolve_alike hraw (second.limit - 1) [cell] target hkeys)
    (p := { resolved := ∅, events := [] }) (q := { resolved := ∅, events := [] })
    (fun _ => Iff.rfl)
  rw [compute_eq_abort_iff, compute_eq_abort_iff, hraw, hlimit]
  exact halike.eq_error_iff cause

end Spreadsheet.Evaluator
