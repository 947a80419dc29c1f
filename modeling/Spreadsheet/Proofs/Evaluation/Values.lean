import Mathlib.Data.Set.Card
import Spreadsheet.Proofs.Evaluation.Memory

/-!
# What the value of a cell says

A cell without a circle below it and with short chains has the value that its meaning gives. A
`#CIRC` is shown only above a circle, a `#DEPTH` only above a chain that is too long, and above a
circle nothing but these two is ever shown.
-/

namespace Spreadsheet

def Value.ofResult : Except Abort Value → Value
  | .ok value => value
  | .error cause => .marker (.abort cause)

def Value.marker? : Value → Option Marker
  | .marker m => some m
  | _ => none

theorem Value.marker?_eq_some_iff {value : Value} {m : Marker} :
    value.marker? = some m ↔ value = .marker m := by
  cases value <;> simp [marker?]

theorem length_le_encard_of_nodup {cells : List Cell} {within : Set Cell} (hnodup : cells.Nodup)
    (hcells : ∀ cell ∈ cells, cell ∈ within) : (cells.length : ℕ∞) ≤ within.encard := by
  have hsubset : (cells.toFinset : Set Cell) ⊆ within := fun cell hcell =>
    hcells cell (List.mem_toFinset.mp hcell)
  calc (cells.length : ℕ∞)
      = (cells.toFinset : Set Cell).encard := by
        rw [Set.encard_coe_eq_coe_finsetCard, List.toFinset_card_of_nodup hnodup]
    _ ≤ within.encard := Set.encard_le_encard hsubset

/-- Every chain of distinct cells stays within the cells that can be reached. -/
theorem length_le_encard_reaches {raw : Cell → String} {cell : Cell} {path : List Cell}
    (hpath : List.IsChain (Refers raw) (cell :: path)) (hnodup : (cell :: path).Nodup) :
    ((cell :: path).length : ℕ∞) ≤ {target | Reaches raw cell target}.encard := by
  refine length_le_encard_of_nodup hnodup fun target htarget => ?_
  rcases List.mem_cons.mp htarget with rfl | hmem
  · exact .refl
  · exact (hpath.imp fun _ _ => Relation.ReflTransGen.single).rel_cons hmem

namespace Evaluator

open Resolution

theorem run_value (evaluator : Evaluator) (raw : String) (trail : Trail) :
    (evaluator.run raw trail).value =
      .ofResult ((evaluator.evaluateWith
        (evaluator.resolve (evaluator.limit - trail.depth) trail.chain) raw).answer
        { resolved := trail.resolved, events := [] }).1 :=
  rfl

theorem valueFrom_ne_abort (evaluator : Evaluator) (number : Cell → Float) (raw : String)
    (cause : Abort) : evaluator.valueFrom number raw ≠ .marker (.abort cause) := by
  rw [← valueAt_map]
  exact evaluator.valueAt_ne_abort raw _ cause

/-- A computed cell has met an obstacle or has its meaning. -/
theorem compute_cases (evaluator : Evaluator) (cell : Cell) :
    (∃ cause, evaluator.compute cell = .marker (.abort cause) ∧
        Obstacle evaluator.raw (evaluator.limit - 1 + 1) [] cell cause) ∨
      evaluator.compute cell = evaluator.meaning cell ∧ Grounded evaluator.raw cell := by
  have hsound : Sound evaluator [cell] (∅ : CellMap Float) := .empty
  have hevaluates := evaluator.evaluateWith_evaluates
    (evaluator.resolve_resolves (evaluator.limit - 1) [cell]) (evaluator.raw cell)
    { resolved := ∅, events := [] } hsound
  have hcompute : evaluator.compute cell = _ :=
    evaluator.run_value (evaluator.raw cell) (.startingAt cell)
  cases hresult : ((evaluator.evaluateWith (evaluator.resolve (evaluator.limit - 1) [cell])
      (evaluator.raw cell)).answer { resolved := ∅, events := [] }).1 with
  | error cause =>
      obtain ⟨target, htarget, hobstacle⟩ := hevaluates.obstacle cause hresult
      refine .inl ⟨cause, hcompute.trans (congrArg Value.ofResult hresult), ?_⟩
      exact hobstacle.of_refers (by simp) (refers_iff_mem_targets.mpr htarget)
  | ok value =>
      obtain ⟨hlast, -⟩ := hevaluates.keeps hsound
      have hgrounded : Grounded evaluator.raw cell := grounded_of_forall_refers fun target href =>
        hlast.grounded target (hevaluates.mem_resolved value hresult target
          (refers_iff_mem_targets.mp href))
      refine .inr ⟨?_, hgrounded⟩
      rw [evaluator.meaning_eq hgrounded, ← hevaluates.value_eq value hresult]
      exact hcompute.trans (congrArg Value.ofResult hresult)

theorem obstacle_of_compute_eq_abort (evaluator : Evaluator) {cell : Cell} {cause : Abort}
    (h : evaluator.compute cell = .marker (.abort cause)) :
    Obstacle evaluator.raw (evaluator.limit - 1 + 1) [] cell cause := by
  rcases evaluator.compute_cases cell with ⟨found, hfound, hobstacle⟩ | ⟨hmeaning, hgrounded⟩
  · obtain rfl : found = cause := by simpa [hfound] using h
    exact hobstacle
  · rw [hmeaning, evaluator.meaning_eq hgrounded] at h
    exact absurd h (evaluator.valueFrom_ne_abort _ _ cause)

theorem reachesCircle_of_compute_eq (evaluator : Evaluator) {cell : Cell}
    (h : evaluator.compute cell = .marker (.abort .circular)) :
    ReachesCircle evaluator.raw cell := by
  cases evaluator.obstacle_of_compute_eq_abort h with
  | @circular target hreach hback => exact ⟨target, hreach, hback.resolve_left (by simp)⟩

theorem exists_path_of_compute_eq (evaluator : Evaluator) {cell : Cell}
    (h : evaluator.compute cell = .marker (.abort .tooDeep)) :
    ∃ path, List.IsChain (Refers evaluator.raw) (cell :: path) ∧ (cell :: path).Nodup ∧
      evaluator.limit < (cell :: path).length := by
  cases evaluator.obstacle_of_compute_eq_abort h with
  | @tooDeep path hpath hnodup _ hlong => exact ⟨path, hpath, hnodup, by omega⟩

theorem compute_eq_abort_of_reachesCircle (evaluator : Evaluator) {cell : Cell}
    (h : ReachesCircle evaluator.raw cell) :
    evaluator.compute cell = .marker (.abort .circular) ∨
      evaluator.compute cell = .marker (.abort .tooDeep) := by
  rcases evaluator.compute_cases cell with ⟨cause, hcause, -⟩ | ⟨-, hgrounded⟩
  · cases cause with
    | circular => exact .inl hcause
    | tooDeep => exact .inr hcause
  · exact absurd h hgrounded.not_reachesCircle

/-- A cell with no circle below it and with chains no longer than the limit has the value that its
meaning gives. The meaning of every cell below is the result of its formula on the numbers of the
cells it names; malformed formulas, text without a finite number and missing cells count as zero
there and abort nothing. -/
theorem compute_eq_meaning (raw : Cell → String)
    (arithmetic : String → Except Arithmetic.Error Float) (maxDepth : Nat) (cell : Cell)
    (hacyclic : ¬ ReachesCircle raw cell)
    (hshort : ∀ path, List.IsChain (Refers raw) (cell :: path) →
      (cell :: path).length ≤ min maxDepth depthCeiling) :
    let evaluator := Evaluator.make raw arithmetic maxDepth
    evaluator.compute cell = evaluator.meaning cell ∧
    (∀ target, Reaches raw cell target →
      evaluator.meaning target =
        evaluator.valueFrom (fun other => (evaluator.meaning other).toNumber) (raw target)) ∧
    (∀ target, Reaches raw cell target →
      evaluator.meaning target = .marker .malformed ∨ raw target = "" ∨
        (∃ text, evaluator.meaning target = .text text ∧
          ∀ n, Numeral.readSigned? (Text.trim text.toList) = some n → n.isFinite = false) →
      (evaluator.meaning target).toNumber = 0) ∧
    ∀ cause, evaluator.compute cell ≠ .marker (.abort cause) := by
  intro evaluator
  have habort : ∀ cause, evaluator.compute cell ≠ .marker (.abort cause) := by
    rintro (_ | _) h
    · exact hacyclic (evaluator.reachesCircle_of_compute_eq h)
    · obtain ⟨path, hpath, -, hlong⟩ := evaluator.exists_path_of_compute_eq h
      exact absurd (hshort path hpath) (Nat.not_le.mpr hlong)
  obtain ⟨hmeaning, hgrounded⟩ := (evaluator.compute_cases cell).resolve_left fun h => by
    obtain ⟨cause, hcause, -⟩ := h
    exact habort cause hcause
  have hbelow : ∀ target, Reaches raw cell target → evaluator.meaning target =
      evaluator.valueFrom (fun other => (evaluator.meaning other).toNumber) (raw target) :=
    fun target hreach => evaluator.meaning_eq (hgrounded.of_reaches hreach)
  refine ⟨hmeaning, hbelow, ?_, habort⟩
  rintro target hreach (hmalformed | hempty | ⟨text, htext, hinfinite⟩)
  · rw [hmalformed]
    rfl
  · rw [hbelow target hreach, hempty]
    rfl
  · rw [htext]
    exact Value.toNumber_text_eq_zero hinfinite

def sharedTexts (cell : Cell) : String :=
  if cell = inColumnA 0 then "=A2+A3" else if cell = inColumnA 1 then "=A3*" else "x"

theorem compute_eq_meaning_of_shared_reference :
    ¬ ReachesCircle sharedTexts (inColumnA 0) ∧
    (∀ path, List.IsChain (Refers sharedTexts) (inColumnA 0 :: path) →
      (inColumnA 0 :: path).length ≤ min 3 depthCeiling) ∧
    (make sharedTexts Arithmetic.evaluate 3).compute (inColumnA 0) =
      (make sharedTexts Arithmetic.evaluate 3).meaning (inColumnA 0) := by
  have hrank : ∀ cell target, Refers sharedTexts cell target →
      (if target = inColumnA 0 then 2 else if target = inColumnA 1 then 1 else 0) <
        if cell = inColumnA 0 then 2 else if cell = inColumnA 1 then 1 else 0 := by
    intro cell target href
    rw [refers_iff_mem_targets, sharedTexts] at href
    split_ifs at href with hfirst hsecond
    · have hmem : target ∈ [inColumnA 1, inColumnA 2] := href
      rcases List.mem_pair.mp hmem with rfl | rfl <;> rw [hfirst] <;> decide
    · have hmem : target ∈ [inColumnA 2] := href
      rw [List.mem_singleton.mp hmem, hsecond]
      decide
    · have hmem : target ∈ [] := href
      simp at hmem
  have hacyclic := (grounded_of_rank hrank (inColumnA 0)).not_reachesCircle
  have hshort : ∀ path, List.IsChain (Refers sharedTexts) (inColumnA 0 :: path) →
      (inColumnA 0 :: path).length ≤ min 3 depthCeiling :=
    fun path hpath => Nat.succ_le_succ (length_le_of_rank hrank hpath)
  exact ⟨hacyclic, hshort,
    (compute_eq_meaning sharedTexts Arithmetic.evaluate 3 (inColumnA 0) hacyclic hshort).1⟩

/-- Each abort marker has its cause, and a circle below a cell always shows: as `#CIRC` when the
cells below are no more than the limit, and otherwise at least as `#DEPTH`. -/
theorem abort_markers_have_their_cause (raw : Cell → String)
    (arithmetic : String → Except Arithmetic.Error Float) (maxDepth : Nat) (cell : Cell) :
    let evaluator := Evaluator.make raw arithmetic maxDepth
    (evaluator.compute cell = .marker (.abort .circular) → ReachesCircle raw cell) ∧
    (evaluator.compute cell = .marker (.abort .tooDeep) →
      ∃ path, List.IsChain (Refers raw) (cell :: path) ∧ (cell :: path).Nodup ∧
        min maxDepth depthCeiling < (cell :: path).length) ∧
    (ReachesCircle raw cell →
      evaluator.compute cell = .marker (.abort .circular) ∨
        evaluator.compute cell = .marker (.abort .tooDeep)) ∧
    (ReachesCircle raw cell →
      {target | Reaches raw cell target}.encard ≤ (min maxDepth depthCeiling : Nat) →
      evaluator.compute cell = .marker (.abort .circular)) := by
  intro evaluator
  have habort : ReachesCircle raw cell →
      evaluator.compute cell = .marker (.abort .circular) ∨
        evaluator.compute cell = .marker (.abort .tooDeep) :=
    evaluator.compute_eq_abort_of_reachesCircle
  have hdeep : evaluator.compute cell = .marker (.abort .tooDeep) →
      ∃ path, List.IsChain (Refers raw) (cell :: path) ∧ (cell :: path).Nodup ∧
        min maxDepth depthCeiling < (cell :: path).length :=
    evaluator.exists_path_of_compute_eq
  refine ⟨evaluator.reachesCircle_of_compute_eq, hdeep, habort, ?_⟩
  intro hcircle hfew
  refine (habort hcircle).resolve_right fun h => ?_
  obtain ⟨path, hpath, hnodup, hlong⟩ := hdeep h
  have hlength := (length_le_encard_reaches hpath hnodup).trans hfew
  exact absurd (Nat.cast_le.mp hlength) (Nat.not_le.mpr hlong)

def circleTexts (cell : Cell) : String :=
  if cell = inColumnA 0 then "=A2+A3" else if cell = inColumnA 1 then "=A3" else
    if cell = inColumnA 2 then "=A1*" else ""

theorem abort_markers_of_shared_circle :
    ReachesCircle circleTexts (inColumnA 0) ∧
    {target | Reaches circleTexts (inColumnA 0) target}.encard ≤ (min 3 depthCeiling : Nat) ∧
    (make circleTexts Arithmetic.evaluate 3).compute (inColumnA 0) =
      .marker (.abort .circular) := by
  have hthere : Refers circleTexts (inColumnA 0) (inColumnA 2) :=
    refers_iff_mem_targets.mpr (show inColumnA 2 ∈ [inColumnA 1, inColumnA 2] by decide)
  have hback : Refers circleTexts (inColumnA 2) (inColumnA 0) :=
    refers_iff_mem_targets.mpr (show inColumnA 0 ∈ [inColumnA 0] by decide)
  have hcircle : ReachesCircle circleTexts (inColumnA 0) :=
    ⟨inColumnA 0, .refl, .tail (.single hthere) hback⟩
  have hmem : ∀ target, Reaches circleTexts (inColumnA 0) target →
      target ∈ ({inColumnA 0, inColumnA 1, inColumnA 2} : Set Cell) := by
    intro target hreach
    induction hreach with
    | refl => simp
    | @tail cell target _ href ih =>
        rw [refers_iff_mem_targets] at href
        rcases ih with rfl | rfl | rfl
        · have hmem : target ∈ [inColumnA 1, inColumnA 2] := href
          rcases List.mem_pair.mp hmem with rfl | rfl <;> simp
        · have hmem : target ∈ [inColumnA 2] := href
          simp [List.mem_singleton.mp hmem]
        · have hmem : target ∈ [inColumnA 0] := href
          simp [List.mem_singleton.mp hmem]
  have hfew : {target | Reaches circleTexts (inColumnA 0) target}.encard ≤
      (min 3 depthCeiling : Nat) :=
    (Set.encard_le_encard hmem).trans (by
      refine (Set.encard_insert_le _ _).trans ?_
      rw [Set.encard_pair (by decide)]
      decide)
  exact ⟨hcircle, hfew, (abort_markers_have_their_cause circleTexts Arithmetic.evaluate 3
    (inColumnA 0)).2.2.2 hcircle hfew⟩

end Evaluator

end Spreadsheet
