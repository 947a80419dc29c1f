import Spreadsheet.Proofs.Evaluation.Meaning

/-!
# What an evaluation remembers

A remembered number was found under one chain of cells and is used under another. This is harmless
because the remembered cells are closed under references, lead into no circle and never lie on the
chain. The invariant below says so; with it, one specification of `resolve` tells both when a number
is found and what stands in the way when none is.
-/

namespace Spreadsheet

theorem CellMap.mem_of_getElem?_eq_some {α : Type} {map : CellMap α} {cell : Cell} {a : α}
    (h : map[cell]? = some a) : cell ∈ map :=
  Std.ExtTreeMap.mem_iff_isSome_getElem?.mpr (by rw [h]; rfl)

/-- What keeps a cell below a chain from having a number: references that lead back to the chain or
into a circle, or a chain of distinct further cells that is longer than the levels left. -/
inductive Obstacle (raw : Cell → String) (levels : Nat) (chain : List Cell) (cell : Cell) :
    Abort → Prop where
  | circular {target : Cell} (hreach : Reaches raw cell target)
      (hback : target ∈ chain ∨ OnCircle raw target) : Obstacle raw levels chain cell .circular
  | tooDeep {path : List Cell} (hpath : List.IsChain (Refers raw) (cell :: path))
      (hnodup : (cell :: path).Nodup) (hfresh : ∀ target ∈ cell :: path, target ∉ chain)
      (hlong : levels < (cell :: path).length) : Obstacle raw levels chain cell .tooDeep

/-- What stands in the way of a referenced cell stands in the way of the cell that refers to it. -/
theorem Obstacle.of_refers {raw : Cell → String} {levels : Nat} {chain : List Cell}
    {cell target : Cell} {cause : Abort} (hcell : cell ∉ chain) (href : Refers raw cell target)
    (h : Obstacle raw levels (cell :: chain) target cause) :
    Obstacle raw (levels + 1) chain cell cause := by
  cases h with
  | @circular back hreach hback =>
      rcases hback with hmem | hcircle
      · rcases List.mem_cons.mp hmem with rfl | hchain
        · exact .circular .refl (.inr (onCircle_of_refers_of_reaches href hreach))
        · exact .circular (.head href hreach) (.inl hchain)
      · exact .circular (.head href hreach) (.inr hcircle)
  | @tooDeep path hpath hnodup hfresh hlong =>
      refine .tooDeep (.cons_cons href hpath) (List.nodup_cons.mpr ⟨?_, hnodup⟩) ?_ ?_
      · exact fun hmem => hfresh cell hmem (List.mem_cons_self)
      · intro other hother
        rcases List.mem_cons.mp hother with rfl | hmem
        · exact hcell
        · exact fun hchain => hfresh other hmem (List.mem_cons_of_mem cell hchain)
      · simpa using hlong

/-- The remembered numbers are those of the cells' meanings, and the remembered cells are grounded,
closed under references and off the chain. -/
structure Sound (evaluator : Evaluator) (chain : List Cell) (resolved : CellMap Float) : Prop where
  grounded : ∀ cell ∈ resolved, Grounded evaluator.raw cell
  number_eq : ∀ cell n, resolved[cell]? = some n → n = (evaluator.meaning cell).toNumber
  closed : ∀ cell ∈ resolved, ∀ target, Refers evaluator.raw cell target → target ∈ resolved
  off_chain : ∀ cell ∈ resolved, cell ∉ chain

namespace Sound

variable {evaluator : Evaluator} {chain : List Cell} {resolved : CellMap Float} {cell : Cell}

theorem empty : Sound evaluator chain ∅ where
  grounded := by simp
  number_eq := by simp
  closed := by simp
  off_chain := by simp

theorem push (h : Sound evaluator chain resolved) (hcell : cell ∉ resolved) :
    Sound evaluator (cell :: chain) resolved where
  grounded := h.grounded
  number_eq := h.number_eq
  closed := h.closed
  off_chain := by
    intro other hother hmem
    rcases List.mem_cons.mp hmem with rfl | hchain
    · exact hcell hother
    · exact h.off_chain other hother hchain

theorem pop (h : Sound evaluator (cell :: chain) resolved) : Sound evaluator chain resolved where
  grounded := h.grounded
  number_eq := h.number_eq
  closed := h.closed
  off_chain := fun other hother hchain =>
    h.off_chain other hother (List.mem_cons_of_mem cell hchain)

/-- A cell may be remembered once all cells it refers to are. -/
theorem insert (h : Sound evaluator chain resolved) (hcell : cell ∉ chain)
    (htargets : ∀ target, Refers evaluator.raw cell target → target ∈ resolved) :
    Sound evaluator chain (resolved.insert cell (evaluator.meaning cell).toNumber) where
  grounded := by
    intro other hother
    rcases Std.ExtTreeMap.mem_insert.mp hother with heq | hmem
    · obtain rfl : cell = other := Std.LawfulEqCmp.eq_of_compare heq
      exact grounded_of_forall_refers fun target href => h.grounded target (htargets target href)
    · exact h.grounded other hmem
  number_eq := by
    intro other n hn
    rw [Std.ExtTreeMap.getElem?_insert] at hn
    split at hn
    · rename_i heq
      obtain rfl : cell = other := Std.LawfulEqCmp.eq_of_compare heq
      exact (Option.some.inj hn).symm
    · exact h.number_eq other n hn
  closed := by
    intro other hother target href
    refine Std.ExtTreeMap.mem_insert.mpr (.inr ?_)
    rcases Std.ExtTreeMap.mem_insert.mp hother with heq | hmem
    · obtain rfl : cell = other := Std.LawfulEqCmp.eq_of_compare heq
      exact htargets target href
    · exact h.closed other hmem target href
  off_chain := by
    intro other hother
    rcases Std.ExtTreeMap.mem_insert.mp hother with heq | hmem
    · obtain rfl : cell = other := Std.LawfulEqCmp.eq_of_compare heq
      exact hcell
    · exact h.off_chain other hmem

theorem mem_of_reaches (h : Sound evaluator chain resolved) {target : Cell}
    (hcell : cell ∈ resolved) (hreach : Reaches evaluator.raw cell target) : target ∈ resolved := by
  induction hreach with
  | refl => exact hcell
  | tail _ href ih => exact h.closed _ ih _ href

end Sound

def Keeps (evaluator : Evaluator) (chain : List Cell) (before after : Progress) : Prop :=
  Sound evaluator chain before.resolved →
    Sound evaluator chain after.resolved ∧
      ∀ (cell : Cell) (n : Float), before.resolved[cell]? = some n → after.resolved[cell]? = some n

namespace Keeps

variable {evaluator : Evaluator} {chain : List Cell}

theorem refl (progress : Progress) : Keeps evaluator chain progress progress :=
  fun hsound => ⟨hsound, fun _ _ h => h⟩

theorem trans {first second third : Progress} (hfirst : Keeps evaluator chain first second)
    (hsecond : Keeps evaluator chain second third) : Keeps evaluator chain first third := by
  intro hsound
  obtain ⟨hsound, hfirst⟩ := hfirst hsound
  obtain ⟨hsound, hsecond⟩ := hsecond hsound
  exact ⟨hsound, fun cell n h => hsecond cell n (hfirst cell n h)⟩

end Keeps

structure Resolves (evaluator : Evaluator) (levels : Nat) (chain : List Cell) (cell : Cell)
    (before : Progress) (answer : Except Abort Float × Progress) : Prop where
  keeps : Keeps evaluator chain before answer.2
  resolved : ∀ n, answer.1 = .ok n → answer.2.resolved[cell]? = some n
  obstacle : ∀ cause, answer.1 = .error cause → Obstacle evaluator.raw levels chain cell cause

structure Evaluates (evaluator : Evaluator) (levels : Nat) (chain : List Cell) (raw : String)
    (before : Progress) (answer : Except Abort Value × Progress) : Prop where
  keeps : Keeps evaluator chain before answer.2
  value_eq : ∀ value, answer.1 = .ok value →
    value = evaluator.valueFrom (fun target => (evaluator.meaning target).toNumber) raw
  mem_resolved : ∀ value, answer.1 = .ok value →
    ∀ target ∈ Formula.targets raw, target ∈ answer.2.resolved
  obstacle : ∀ cause, answer.1 = .error cause →
    ∃ target ∈ Formula.targets raw, Obstacle evaluator.raw levels chain target cause

namespace Evaluator

open Resolution

variable (evaluator : Evaluator) {levels : Nat} {chain : List Cell} {cell : Cell}
  {progress : Progress}

/-! ### The steps of `resolve` -/

theorem answer_resolve_of_mem (levels : Nat) (h : cell ∈ chain) :
    (evaluator.resolve levels chain cell).answer progress = (.error .circular, progress) := by
  unfold resolve
  simp [h]

theorem answer_resolve_of_resolved (levels : Nat) {n : Float} (h : cell ∉ chain)
    (hn : progress.resolved[cell]? = some n) :
    (evaluator.resolve levels chain cell).answer progress = (.ok n, progress) := by
  unfold resolve
  simp [h, hn]

theorem answer_resolve_zero (h : cell ∉ chain) (hnone : progress.resolved[cell]? = none) :
    (evaluator.resolve 0 chain cell).answer progress = (.error .tooDeep, progress) := by
  unfold resolve
  simp [h, hnone]

def remembered (cell : Cell) : Except Abort Value × Progress → Except Abort Float × Progress
  | (.ok value, after) =>
    (.ok value.toNumber, { after with resolved := after.resolved.insert cell value.toNumber })
  | (.error cause, after) => (.error cause, after)

theorem answer_resolve_succ (h : cell ∉ chain) (hnone : progress.resolved[cell]? = none) :
    (evaluator.resolve (levels + 1) chain cell).answer progress =
      remembered cell ((evaluator.evaluateWith (evaluator.resolve levels (cell :: chain))
        (evaluator.raw cell)).answer
        { progress with events := .fetched cell :: progress.events }) := by
  rw [resolve]
  simp only [h, if_false, answer_bind, answer_get, hnone, answer_log]
  rcases (evaluator.evaluateWith (evaluator.resolve levels (cell :: chain))
    (evaluator.raw cell)).answer _ with ⟨cause | value, after⟩
  · rfl
  · simp only [answer_remember, answer_pure, remembered]

/-- Only an untouched cell is fetched, and only with levels left. -/
theorem progress_resolve_cases (levels : Nat) (chain : List Cell) (cell : Cell)
    (progress : Progress) :
    ((evaluator.resolve levels chain cell).answer progress).2 = progress ∨
      cell ∉ chain ∧ progress.resolved[cell]? = none ∧ 0 < levels := by
  by_cases hchain : cell ∈ chain
  · exact .inl (by rw [evaluator.answer_resolve_of_mem levels hchain])
  · cases hknown : progress.resolved[cell]? with
    | some n => exact .inl (by rw [evaluator.answer_resolve_of_resolved levels hchain hknown])
    | none =>
        cases levels with
        | zero => exact .inl (by rw [evaluator.answer_resolve_zero hchain hknown])
        | succ levels => exact .inr ⟨hchain, rfl, levels.succ_pos⟩

theorem result_resolve_succ (h : cell ∉ chain) (hnone : progress.resolved[cell]? = none) :
    ((evaluator.resolve (levels + 1) chain cell).answer progress).1 =
      ((evaluator.evaluateWith (evaluator.resolve levels (cell :: chain))
        (evaluator.raw cell)).answer
        { progress with events := .fetched cell :: progress.events }).1.map Value.toNumber := by
  rw [evaluator.answer_resolve_succ h hnone]
  rcases (evaluator.evaluateWith (evaluator.resolve levels (cell :: chain))
    (evaluator.raw cell)).answer _ with ⟨cause | value, after⟩ <;> rfl

/-! ### What `resolve` finds -/

section Targets

variable {targets : List Cell} (hresolve : ∀ target before, Sound evaluator chain before.resolved →
  Resolves evaluator levels chain target before
    ((evaluator.resolve levels chain target).answer before))

include hresolve

theorem keeps_resolve :
    ∀ target ∈ targets, ∀ before,
      Keeps evaluator chain before ((evaluator.resolve levels chain target).answer before).2 :=
  fun target _ before hbefore => (hresolve target before hbefore).keeps hbefore

theorem keeps_mapM_resolve (targets : List Cell) (progress : Progress) :
    Keeps evaluator chain progress
      ((targets.mapM (evaluator.resolve levels chain)).answer progress).2 :=
  related_mapM Keeps.refl (fun _ _ _ => Keeps.trans) (evaluator.keeps_resolve hresolve) progress

/-- Once all questions are answered, the numbers are those of the meanings, and every cell asked
for is remembered. -/
theorem mapM_resolve_of_ok (hsound : Sound evaluator chain progress.resolved)
    {numbers : List Float} {after : Progress}
    (h : (targets.mapM (evaluator.resolve levels chain)).answer progress = (.ok numbers, after)) :
    targets.map (fun target => (evaluator.meaning target).toNumber) = numbers ∧
      ∀ target ∈ targets, target ∈ after.resolved := by
  have hlast := (evaluator.keeps_mapM_resolve hresolve targets progress hsound).1
  have hnumbers := forall₂_of_mapM_ok Keeps.refl (fun _ _ _ => Keeps.trans)
    (evaluator.keeps_resolve hresolve) (congrArg Prod.fst h)
  rw [h] at hlast hnumbers
  have hfound : List.Forall₂ (fun target n => after.resolved[target]? = some n) targets
      numbers := by
    refine hnumbers.imp ?_
    rintro target n ⟨before, hbefore, hn, hafter⟩
    have hbefore := (hbefore hsound).1
    have hanswer := hresolve target before hbefore
    exact (hafter (hanswer.keeps hbefore).1).2 target n (hanswer.resolved n hn)
  have heq : targets.map (fun target => (evaluator.meaning target).toNumber) = numbers := by
    rw [← List.forall₂_eq_eq_eq, List.forall₂_map_left_iff]
    exact hfound.imp fun target n hn => (hlast.number_eq target n hn).symm
  refine ⟨heq, fun target htarget => ?_⟩
  rw [← heq, List.forall₂_map_right_iff, List.forall₂_same] at hfound
  exact CellMap.mem_of_getElem?_eq_some (hfound target htarget)

theorem evaluateWith_evaluates (raw : String) (progress : Progress)
    (hsound : Sound evaluator chain progress.resolved) :
    Evaluates evaluator levels chain raw progress
      ((evaluator.evaluateWith (evaluator.resolve levels chain) raw).answer progress) := by
  have hkeeps := evaluator.keeps_mapM_resolve hresolve (Formula.targets raw) progress
  rw [answer_evaluateWith]
  rcases hanswer : ((Formula.targets raw).mapM (evaluator.resolve levels chain)).answer progress
    with ⟨cause | numbers, after⟩
  · rw [hanswer] at hkeeps
    refine ⟨hkeeps, by simp, by simp, ?_⟩
    rintro _ ⟨⟩
    obtain ⟨target, htarget, before, hbefore, herror⟩ :=
      exists_of_mapM_error Keeps.refl (fun _ _ _ => Keeps.trans)
        (evaluator.keeps_resolve hresolve) (congrArg Prod.fst hanswer)
    exact ⟨target, htarget, (hresolve target before (hbefore hsound).1).obstacle cause herror⟩
  · rw [hanswer] at hkeeps
    obtain ⟨heq, hmem⟩ := evaluator.mapM_resolve_of_ok hresolve hsound hanswer
    refine ⟨hkeeps, ?_, fun _ _ => hmem, by simp⟩
    rintro _ ⟨⟩
    rw [← heq, valueAt_map]

end Targets

theorem resolves_of_mem (levels : Nat) (h : cell ∈ chain ∨ cell ∈ progress.resolved) :
    Resolves evaluator levels chain cell progress
      ((evaluator.resolve levels chain cell).answer progress) := by
  by_cases hcell : cell ∈ chain
  · rw [evaluator.answer_resolve_of_mem levels hcell]
    refine ⟨Keeps.refl progress, by simp, ?_⟩
    rintro _ ⟨⟩
    exact .circular .refl (.inl hcell)
  · have hresolved := h.resolve_left hcell
    have hn := Std.ExtTreeMap.getElem?_eq_some_getElem hresolved
    rw [evaluator.answer_resolve_of_resolved levels hcell hn]
    refine ⟨Keeps.refl progress, ?_, by simp⟩
    rintro _ ⟨⟩
    exact hn

/-- A cell whose text was evaluated below it is remembered with the number of its meaning. -/
theorem resolves_remembered (hsound : Sound evaluator chain progress.resolved)
    (hcell : cell ∉ chain) (hnew : cell ∉ progress.resolved)
    {events : List Event} {answer : Except Abort Value × Progress}
    (h : Evaluates evaluator levels (cell :: chain) (evaluator.raw cell)
      { progress with events } answer) :
    Resolves evaluator (levels + 1) chain cell progress (remembered cell answer) := by
  obtain ⟨hafter, hkeeps⟩ := h.keeps (hsound.push hnew)
  rcases answer with ⟨cause | value, after⟩
  · refine ⟨fun _ => ⟨hafter.pop, hkeeps⟩, by simp [remembered], ?_⟩
    rintro _ ⟨⟩
    obtain ⟨target, htarget, hobstacle⟩ := h.obstacle cause rfl
    exact hobstacle.of_refers hcell (refers_iff_mem_targets.mpr htarget)
  · have htargets : ∀ target, Refers evaluator.raw cell target → target ∈ after.resolved :=
      fun target href => h.mem_resolved value rfl target (refers_iff_mem_targets.mp href)
    have hgrounded : Grounded evaluator.raw cell := grounded_of_forall_refers
      fun target href => hafter.grounded target (htargets target href)
    obtain rfl : value = evaluator.meaning cell := by
      rw [evaluator.meaning_eq hgrounded]
      exact h.value_eq value rfl
    refine ⟨fun _ => ⟨hafter.pop.insert hcell htargets, ?_⟩, ?_, by simp [remembered]⟩
    · intro other n hn
      have hne : cell ≠ other := by
        rintro rfl
        exact hnew (CellMap.mem_of_getElem?_eq_some hn)
      rw [remembered, Std.ExtTreeMap.getElem?_insert, if_neg (by simpa using hne)]
      exact hkeeps other n hn
    · rintro _ ⟨⟩
      exact Std.ExtTreeMap.getElem?_insert_self

/-- Resolving a cell finds its number and remembers it, or meets an obstacle. -/
theorem resolve_resolves (levels : Nat) (chain : List Cell) (cell : Cell) (progress : Progress)
    (hsound : Sound evaluator chain progress.resolved) :
    Resolves evaluator levels chain cell progress
      ((evaluator.resolve levels chain cell).answer progress) := by
  induction levels generalizing chain cell progress with
  | zero =>
      by_cases hknown : cell ∈ chain ∨ cell ∈ progress.resolved
      · exact evaluator.resolves_of_mem 0 hknown
      · obtain ⟨hcell, hnew⟩ := not_or.mp hknown
        rw [evaluator.answer_resolve_zero hcell (by simpa using hnew)]
        refine ⟨Keeps.refl progress, by simp, ?_⟩
        rintro _ ⟨⟩
        exact .tooDeep (.singleton cell) (by simp) (by simpa using hcell) (by simp)
  | succ levels ih =>
      by_cases hknown : cell ∈ chain ∨ cell ∈ progress.resolved
      · exact evaluator.resolves_of_mem (levels + 1) hknown
      · obtain ⟨hcell, hnew⟩ := not_or.mp hknown
        rw [evaluator.answer_resolve_succ hcell (by simpa using hnew)]
        -- the cell is not remembered, so the invariant holds with the cell on the chain too
        have hevaluates := evaluator.evaluateWith_evaluates (ih (cell :: chain))
          (evaluator.raw cell) { progress with events := .fetched cell :: progress.events }
          (hsound.push hnew)
        exact evaluator.resolves_remembered hsound hcell hnew hevaluates

/-- An evaluation leaves a trail sound, whether it finds a value or is given up. -/
theorem sound_run {trail : Trail} (h : Sound evaluator trail.chain trail.resolved) (raw : String) :
    Sound evaluator (evaluator.run raw trail).trail.chain
      (evaluator.run raw trail).trail.resolved := by
  have hevaluates := evaluator.evaluateWith_evaluates
    (evaluator.resolve_resolves (evaluator.limit - trail.depth) trail.chain) raw
    { resolved := trail.resolved, events := [] } h
  exact (hevaluates.keeps h).1

end Evaluator

/-- The trails on which evaluations start, and those that finished evaluations leave behind. -/
inductive Trail.Arises (evaluator : Evaluator) : Trail → Prop where
  | empty : Arises evaluator .empty
  | detached : Arises evaluator .detached
  | startingAt (cell : Cell) : Arises evaluator (.startingAt cell)
  | run {trail : Trail} (raw : String) (harises : Arises evaluator trail) :
    Arises evaluator (evaluator.run raw trail).trail

theorem Trail.Arises.sound {evaluator : Evaluator} {trail : Trail} (h : trail.Arises evaluator) :
    Sound evaluator trail.chain trail.resolved := by
  induction h with
  | empty => exact .empty
  | detached => exact .empty
  | startingAt cell => exact .empty
  | run raw _ ih => exact evaluator.sound_run ih raw

end Spreadsheet
