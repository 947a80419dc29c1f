import Spreadsheet.Proofs.Evaluation.Values

/-!
# The remembered numbers explain each other

A trail may be used for one evaluation after another, whether they find a value or are given up.
What it remembers can then be read without any evaluation: every remembered number is what its
cell's text comes to with remembered numbers for the cells that the text names, and no remembered
cell takes part in a circle. The limit may differ from one evaluation to the next, for it has no
part in the meaning of a cell.
-/

namespace Spreadsheet

/-! ### Other limits -/

section Limit

variable {evaluator : Evaluator} (limit : Nat)

theorem Evaluator.meaning_withLimit {cell : Cell} (h : Grounded evaluator.raw cell) :
    { evaluator with limit }.meaning cell = evaluator.meaning cell := by
  induction h with
  | intro cell hbelow ih =>
      have hgrounded : Grounded evaluator.raw cell := Acc.intro cell hbelow
      have hvalue : ∀ number raw, { evaluator with limit }.valueFrom number raw =
          evaluator.valueFrom number raw := fun _ _ => rfl
      rw [evaluator.meaning_eq hgrounded,
        @Evaluator.meaning_eq { evaluator with limit } cell hgrounded, hvalue]
      refine evaluator.valueFrom_congr fun target htarget => ?_
      rw [ih target (refers_iff_mem_targets.mpr htarget)]

theorem Sound.withLimit {chain : List Cell} {resolved : CellMap Float}
    (h : Sound evaluator chain resolved) : Sound { evaluator with limit } chain resolved where
  grounded := h.grounded
  number_eq cell n hn := by
    have hgrounded := h.grounded cell (CellMap.mem_of_getElem?_eq_some hn)
    rw [h.number_eq cell n hn, Evaluator.meaning_withLimit limit hgrounded]
  closed := h.closed
  off_chain := h.off_chain

end Limit

/-- The number that a raw text comes to when each reference stands for a number. -/
theorem Evaluator.toNumber_valueFrom (evaluator : Evaluator) (number : Cell → Float)
    (raw : String) :
    (evaluator.valueFrom number raw).toNumber =
      match Formula.body? raw with
      | none => (Value.text raw).toNumber
      | some body =>
        match evaluator.arithmetic
          (String.ofList (Formula.fill number (Formula.pieces body))) with
        | .ok value => (Value.number value).toNumber
        | .error _ => 0 := by
  unfold valueFrom calculate
  cases Formula.body? raw with
  | none => rfl
  | some body =>
      dsimp only
      cases evaluator.arithmetic (String.ofList (Formula.fill number (Formula.pieces body))) <;> rfl

namespace Trail

variable {raw : Cell → String} {arithmetic : String → Except Arithmetic.Error Float} {trail : Trail}

/-- The trails on which evaluations start, and those that evaluations of any texts leave, each
under a limit of its own, as long as the cells and the arithmetic stay the same. -/
inductive ArisesOver (raw : Cell → String) (arithmetic : String → Except Arithmetic.Error Float) :
    Trail → Prop where
  | empty : ArisesOver raw arithmetic .empty
  | detached : ArisesOver raw arithmetic .detached
  | startingAt (cell : Cell) : ArisesOver raw arithmetic (.startingAt cell)
  | run {trail : Trail} (maxDepth : Nat) (text : String)
    (harises : ArisesOver raw arithmetic trail) :
    ArisesOver raw arithmetic ((Evaluator.make raw arithmetic maxDepth).run text trail).trail

theorem ArisesOver.sound (h : trail.ArisesOver raw arithmetic) (limit : Nat) :
    Sound { raw, arithmetic, limit } trail.chain trail.resolved := by
  induction h with
  | empty => exact .empty
  | detached => exact .empty
  | startingAt cell => exact .empty
  | run maxDepth text _ ih =>
      have hlimit := ih.withLimit (min maxDepth depthCeiling)
      exact (Evaluator.sound_run _ hlimit text).withLimit limit

def number (trail : Trail) (cell : Cell) : Float :=
  trail.resolved[cell]?.getD 0

/-- The numbers that a trail holds may stand for the cells that a remembered cell names. -/
theorem number_eq_valueFrom {evaluator : Evaluator} {chain : List Cell}
    (h : Sound evaluator chain trail.resolved) {cell : Cell} {n : Float}
    (hn : trail.resolved[cell]? = some n) :
    n = (evaluator.valueFrom trail.number (evaluator.raw cell)).toNumber := by
  have hmem := CellMap.mem_of_getElem?_eq_some hn
  rw [h.number_eq cell n hn, evaluator.meaning_eq (h.grounded cell hmem)]
  refine congrArg Value.toNumber ?_
  refine evaluator.valueFrom_congr fun target htarget => ?_
  have htarget := h.closed cell hmem target (refers_iff_mem_targets.mpr htarget)
  have hresolved := Std.ExtTreeMap.getElem?_eq_some_getElem htarget
  rw [number, hresolved, ← h.number_eq target _ hresolved, Option.getD_some]

/-- With a cell, a trail remembers every cell that its formula names, and no remembered cell lies on
a circle. A remembered number is that of the cell's literal text, or of what its formula comes to
with the remembered numbers in it, and zero where arithmetic fails. -/
theorem ArisesOver.memo_explains_itself (h : trail.ArisesOver raw arithmetic) :
    (∀ cell ∈ trail.resolved, ∀ target ∈ Formula.dependencies (raw cell),
      target ∈ trail.resolved) ∧
    (∀ cell ∈ trail.resolved, ¬ OnCircle raw cell) ∧
    ∀ cell n, trail.resolved[cell]? = some n →
      n =
        match Formula.body? (raw cell) with
        | none => (Value.text (raw cell)).toNumber
        | some body =>
          match arithmetic (String.ofList (Formula.fill trail.number (Formula.pieces body))) with
          | .ok value => (Value.number value).toNumber
          | .error _ => 0 := by
  have hsound := h.sound 0
  refine ⟨hsound.closed, fun cell hcell hcircle => ?_, fun cell n hn => ?_⟩
  · exact (hsound.grounded cell hcell).not_reachesCircle ⟨cell, .refl, hcircle⟩
  · exact (number_eq_valueFrom hsound hn).trans (Evaluator.toNumber_valueFrom _ _ _)

def halfCircleTexts (cell : Cell) : String :=
  if cell = inColumnA 0 then "=A2" else if cell = inColumnA 1 then "=A1" else
    if cell = inColumnA 2 then "=A4" else if cell = inColumnA 3 then " 1.5 " else
      if cell = inColumnA 4 then "=A3*" else ""

def readNumber (text : String) : Except Arithmetic.Error Float :=
  (Numeral.readSigned? text.toList).elim (.error .malformed) .ok

/-- A trail that one evaluation was given up on, used once more under a lower limit. -/
theorem memo_explains_itself_after_circle :
    let first := (Evaluator.make halfCircleTexts readNumber 8).run "=A3+A1" .detached
    let second := (Evaluator.make halfCircleTexts readNumber 2).run "=A5+A3" first.trail
    first.value = .marker (.abort .circular) ∧
    second.trail.ArisesOver halfCircleTexts readNumber ∧
    second.trail.resolved[inColumnA 2]? = some 1.5 ∧
    second.trail.resolved[inColumnA 4]? = some 0 ∧
    inColumnA 3 ∈ second.trail.resolved ∧ ¬ OnCircle halfCircleTexts (inColumnA 4) ∧
    0 = match readNumber (String.ofList (Formula.fill second.trail.number
        (Formula.pieces "A3*".toList))) with
      | .ok value => (Value.number value).toNumber
      | .error _ => 0 := by
  intro first second
  have harises : second.trail.ArisesOver halfCircleTexts readNumber :=
    .run 2 "=A5+A3" (.run 8 "=A3+A1" .detached)
  have hvalue : first.value = .marker (.abort .circular) :=
    Value.marker?_eq_some_iff.mp (by decide +kernel)
  have hthree : second.trail.resolved[inColumnA 2]? = some 1.5 := by decide +kernel
  have hfive : second.trail.resolved[inColumnA 4]? = some 0 := by decide +kernel
  have hmemThree := CellMap.mem_of_getElem?_eq_some hthree
  have hmemFive := CellMap.mem_of_getElem?_eq_some hfive
  have hnamed : inColumnA 3 ∈ Formula.dependencies (halfCircleTexts (inColumnA 2)) :=
    Formula.mem_dependencies_iff.mpr (show inColumnA 3 ∈ [inColumnA 3] by decide)
  have hbody : Formula.body? (halfCircleTexts (inColumnA 4)) = some "A3*".toList := by decide
  obtain ⟨hclosed, hcircle, hnumber⟩ := harises.memo_explains_itself
  have hzero := hnumber (inColumnA 4) 0 hfive
  rw [hbody] at hzero
  exact ⟨hvalue, harises, hthree, hfive, hclosed _ hmemThree _ hnamed, hcircle _ hmemFive, hzero⟩

end Trail

end Spreadsheet
