import Spreadsheet.Proofs.Evaluation.Values

/-!
# Remembering changes no answer

An evaluation that walks every reference anew is compared with one that remembers. What is
remembered was found on an acyclic part of the sheet off the chain, so walking it again could only
run out of levels: the two go in step until then.
-/

namespace Spreadsheet

namespace Evaluator

open Resolution

/-- The number of a cell, found as `resolve` finds it but with nothing looked up or remembered. -/
def resolveAnew (evaluator : Evaluator) : Nat → List Cell → Cell → Resolution Float
  | levels, chain, cell => do
    if cell ∈ chain then
      throw .circular
    match levels with
    | 0 => throw .tooDeep
    | levels + 1 =>
      Resolution.log (.fetched cell)
      let value ←
        evaluator.evaluateWith (evaluator.resolveAnew levels (cell :: chain)) (evaluator.raw cell)
      return value.toNumber

def evaluateAnew (evaluator : Evaluator) (raw : String) (trail : Trail) : Value :=
  .ofResult ((evaluator.evaluateWith
    (evaluator.resolveAnew (evaluator.limit - trail.depth) trail.chain) raw).answer
    { resolved := ∅, events := [] }).1

variable (evaluator : Evaluator) {levels : Nat} {chain : List Cell} {cell : Cell}

theorem answer_resolveAnew_of_mem (levels : Nat) (progress : Progress) (h : cell ∈ chain) :
    (evaluator.resolveAnew levels chain cell).answer progress = (.error .circular, progress) := by
  unfold resolveAnew
  simp [h]

theorem answer_resolveAnew_zero (progress : Progress) (h : cell ∉ chain) :
    (evaluator.resolveAnew 0 chain cell).answer progress = (.error .tooDeep, progress) := by
  unfold resolveAnew
  simp [h]

theorem result_resolveAnew_succ (progress : Progress) (h : cell ∉ chain) :
    ((evaluator.resolveAnew (levels + 1) chain cell).answer progress).1 =
      ((evaluator.evaluateWith (evaluator.resolveAnew levels (cell :: chain))
        (evaluator.raw cell)).answer
        { progress with events := .fetched cell :: progress.events }).1.map Value.toNumber := by
  rw [resolveAnew]
  simp only [h, if_false, answer_bind, answer_log, answer_pure]
  rcases (evaluator.evaluateWith (evaluator.resolveAnew levels (cell :: chain))
    (evaluator.raw cell)).answer _ with ⟨cause | value, after⟩ <;> rfl

/-- Where every chain ends off the chain walked so far, walking anew finds the number of the meaning
or runs out of levels. -/
theorem resolveAnew_of_grounded (hgrounded : Grounded evaluator.raw cell)
    (hfresh : ∀ target, Reaches evaluator.raw cell target → target ∉ chain) (levels : Nat)
    (progress : Progress) :
    ((evaluator.resolveAnew levels chain cell).answer progress).1 = .error .tooDeep ∨
      ((evaluator.resolveAnew levels chain cell).answer progress).1 =
        .ok (evaluator.meaning cell).toNumber := by
  induction hgrounded generalizing chain levels progress with
  | intro cell hbelow ih =>
      have hcell : cell ∉ chain := hfresh cell .refl
      have hgrounded : Grounded evaluator.raw cell := Acc.intro cell hbelow
      cases levels with
      | zero => exact .inl (by rw [evaluator.answer_resolveAnew_zero progress hcell])
      | succ levels =>
          have hfresh' : ∀ target, Refers evaluator.raw cell target →
              ∀ other, Reaches evaluator.raw target other → other ∉ cell :: chain := by
            intro target href other hreach hmem
            rcases List.mem_cons.mp hmem with rfl | hchain
            · exact hgrounded.not_reachesCircle
                ⟨other, .refl, onCircle_of_refers_of_reaches href hreach⟩
            · exact hfresh other (.head href hreach) hchain
          have hvalue := evaluator.evaluateWith_lockstep
            (fun target => pure (evaluator.meaning target).toNumber)
            (evaluator.resolveAnew levels (cell :: chain)) (fun _ _ => True)
            (fun target htarget p q _ => by
              have href : Refers evaluator.raw cell target := refers_iff_mem_targets.mpr htarget
              refine (ih target href (hfresh' target href) levels q).imp_right fun hnumber => ?_
              exact ⟨hnumber.symm, trivial⟩)
            (p := progress) (q := { progress with events := .fetched cell :: progress.events })
            trivial
          rw [evaluator.result_resolveAnew_succ progress hcell]
          rcases hvalue with hdeep | ⟨hmeaning, -⟩
          · exact .inl (by rw [hdeep]; rfl)
          · rw [answer_evaluateWith_pure, ← evaluator.meaning_eq hgrounded] at hmeaning
            exact .inr (by rw [← hmeaning]; rfl)

theorem resolve_eq_resolveAnew_of_mem {p : Progress} (hsound : Sound evaluator chain p.resolved)
    (h : cell ∈ chain ∨ cell ∈ p.resolved) (levels : Nat) (q : Progress) :
    ((evaluator.resolveAnew levels chain cell).answer q).1 = .error .tooDeep ∨
      ((evaluator.resolve levels chain cell).answer p).1 =
        ((evaluator.resolveAnew levels chain cell).answer q).1 := by
  by_cases hcell : cell ∈ chain
  · right
    rw [evaluator.answer_resolve_of_mem levels hcell,
      evaluator.answer_resolveAnew_of_mem levels q hcell]
  · have hmem : cell ∈ p.resolved := h.resolve_left hcell
    have hn := Std.ExtTreeMap.getElem?_eq_some_getElem hmem
    -- what is remembered leads to remembered cells only, and none of them is on the chain
    have hfresh : ∀ target, Reaches evaluator.raw cell target → target ∉ chain :=
      fun target hreach => hsound.off_chain target (hsound.mem_of_reaches hmem hreach)
    rw [evaluator.answer_resolve_of_resolved levels hcell hn, hsound.number_eq cell _ hn]
    exact (evaluator.resolveAnew_of_grounded (hsound.grounded cell hmem) hfresh levels q).imp_right
      Eq.symm

/-- What holds of the references of a raw text holds of the text. -/
theorem evaluateWith_resolve_eq (hresolve : ∀ target p q, Sound evaluator chain p.resolved →
      ((evaluator.resolveAnew levels chain target).answer q).1 = .error .tooDeep ∨
        ((evaluator.resolve levels chain target).answer p).1 =
          ((evaluator.resolveAnew levels chain target).answer q).1)
    {p : Progress} (hsound : Sound evaluator chain p.resolved) (raw : String) (q : Progress) :
    ((evaluator.evaluateWith (evaluator.resolveAnew levels chain) raw).answer q).1 =
        .error .tooDeep ∨
      ((evaluator.evaluateWith (evaluator.resolve levels chain) raw).answer p).1 =
        ((evaluator.evaluateWith (evaluator.resolveAnew levels chain) raw).answer q).1 := by
  refine (evaluator.evaluateWith_lockstep _ _ (fun resolved _ => Sound evaluator chain resolved) ?_
    hsound).imp_right And.left
  intro target _ p q hp
  have hafter := (evaluator.resolve_resolves levels chain target p hp).keeps hp
  exact (hresolve target p q hp).imp_right fun hresult => ⟨hresult, hafter.1⟩

/-- Remembering numbers changes what `resolve` finds only where walking anew runs out of levels. -/
theorem resolve_eq_resolveAnew {p : Progress} (hsound : Sound evaluator chain p.resolved)
    (levels : Nat) (q : Progress) :
    ((evaluator.resolveAnew levels chain cell).answer q).1 = .error .tooDeep ∨
      ((evaluator.resolve levels chain cell).answer p).1 =
        ((evaluator.resolveAnew levels chain cell).answer q).1 := by
  induction levels generalizing chain cell p q with
  | zero =>
      by_cases hknown : cell ∈ chain ∨ cell ∈ p.resolved
      · exact evaluator.resolve_eq_resolveAnew_of_mem hsound hknown 0 q
      · obtain ⟨hcell, -⟩ := not_or.mp hknown
        exact .inl (by rw [evaluator.answer_resolveAnew_zero q hcell])
  | succ levels ih =>
      by_cases hknown : cell ∈ chain ∨ cell ∈ p.resolved
      · exact evaluator.resolve_eq_resolveAnew_of_mem hsound hknown (levels + 1) q
      · obtain ⟨hcell, hnew⟩ := not_or.mp hknown
        have hpush : Sound evaluator (cell :: chain) p.resolved := hsound.push hnew
        rw [evaluator.result_resolveAnew_succ q hcell,
          evaluator.result_resolve_succ hcell (by simpa using hnew)]
        rcases evaluator.evaluateWith_resolve_eq (fun target p q hp => ih hp q)
          (p := { p with events := .fetched cell :: p.events }) hpush (evaluator.raw cell)
          { q with events := .fetched cell :: q.events } with hstop | hsame
        · exact .inl (by rw [hstop]; rfl)
        · exact .inr (by rw [hsame])

/-- Remembering numbers changes the value of a text only where walking anew runs out of levels. -/
theorem run_eq_evaluateAnew (evaluator : Evaluator) (raw : String) (trail : Trail)
    (harises : trail.Arises evaluator)
    (hdeep : evaluator.evaluateAnew raw trail ≠ .marker (.abort .tooDeep)) :
    (evaluator.run raw trail).value = evaluator.evaluateAnew raw trail := by
  rcases evaluator.evaluateWith_resolve_eq
    (fun target p q hp => evaluator.resolve_eq_resolveAnew hp _ q)
    (p := { resolved := trail.resolved, events := [] }) harises.sound raw
    { resolved := ∅, events := [] } with hstop | hsame
  · exact absurd (congrArg Value.ofResult hstop) hdeep
  · rw [run_value, hsame, evaluateAnew]

theorem run_eq_evaluateAnew_of_shared_circle :
    (Trail.startingAt (inColumnA 0)).Arises (make circleTexts Arithmetic.evaluate 3) ∧
    (make circleTexts Arithmetic.evaluate 3).evaluateAnew "=A2+A3" (.startingAt (inColumnA 0)) ≠
      .marker (.abort .tooDeep) ∧
    ((make circleTexts Arithmetic.evaluate 3).run "=A2+A3" (.startingAt (inColumnA 0))).value =
      .marker (.abort .circular) := by
  have hanew : (make circleTexts Arithmetic.evaluate 3).evaluateAnew "=A2+A3"
      (.startingAt (inColumnA 0)) = .marker (.abort .circular) :=
    Value.marker?_eq_some_iff.mp (by decide +kernel)
  have hdeep : (make circleTexts Arithmetic.evaluate 3).evaluateAnew "=A2+A3"
      (.startingAt (inColumnA 0)) ≠ .marker (.abort .tooDeep) := by
    rw [hanew]
    simp
  refine ⟨.startingAt _, hdeep, ?_⟩
  rw [← hanew]
  exact run_eq_evaluateAnew _ "=A2+A3" _ (.startingAt _) hdeep

def sharedChain (cell : Cell) : String :=
  if cell = inColumnA 0 then "=A3+A2" else if cell = inColumnA 1 then "=A3" else
    if cell = inColumnA 2 then "=A4" else ""

-- the chain over `A2` is too long to be walked, but not to be looked up
example :
    ((make sharedChain (fun _ => .error .empty) 3).evaluateAnew "=A3+A2"
      (.startingAt (inColumnA 0))).marker? = some (.abort .tooDeep) ∧
    ((make sharedChain (fun _ => .error .empty) 3).run "=A3+A2"
      (.startingAt (inColumnA 0))).value.marker? = some .malformed := by
  decide +kernel

end Evaluator

end Spreadsheet
