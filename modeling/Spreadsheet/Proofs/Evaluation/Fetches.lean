import Spreadsheet.Proofs.Evaluation.Values

/-!
# Each cell is fetched once

At every moment of an evaluation a cell is untouched, on the chain, or remembered, and only an
untouched one is fetched. An abort ends the whole evaluation, so the cells that it takes off the
chain without remembering them are not met again. Arithmetic is done at most once for each cell
fetched, which bounds it by the cells that references lead to.
-/

namespace Spreadsheet

def Event.cell? : Event → Option Cell
  | .fetched cell => some cell
  | .calculated _ => none

def Event.text? : Event → Option (List Char)
  | .calculated text => some text
  | .fetched _ => none

namespace Progress

def fetches (progress : Progress) : List Cell :=
  progress.events.filterMap Event.cell?

def calculations (progress : Progress) : List (List Char) :=
  progress.events.filterMap Event.text?

variable (progress : Progress)

@[simp]
theorem fetches_calculated (text : List Char) :
    fetches { progress with events := .calculated text :: progress.events } = progress.fetches :=
  rfl

@[simp]
theorem fetches_fetched (cell : Cell) :
    fetches { progress with events := .fetched cell :: progress.events } =
      cell :: progress.fetches :=
  rfl

@[simp]
theorem calculations_calculated (text : List Char) :
    calculations { progress with events := .calculated text :: progress.events } =
      text :: progress.calculations :=
  rfl

@[simp]
theorem calculations_fetched (cell : Cell) :
    calculations { progress with events := .fetched cell :: progress.events } =
      progress.calculations :=
  rfl

end Progress

def Evaluator.Outcome.fetches (outcome : Evaluator.Outcome) : List Cell :=
  outcome.events.filterMap Event.cell?

def cellsBelow (raw : Cell → String) (text : String) : Set Cell :=
  {target | ∃ source ∈ Formula.targets text, Reaches raw source target}

theorem reaches_of_mem_cellsBelow {raw : Cell → String} {cell target : Cell}
    (h : target ∈ cellsBelow raw (raw cell)) : Reaches raw cell target := by
  obtain ⟨source, hsource, hreach⟩ := h
  exact .head (refers_iff_mem_targets.mpr hsource) hreach

/-- A cell from which every chain of references ends is not below itself. -/
theorem Grounded.not_mem_cellsBelow {raw : Cell → String} {cell : Cell} (h : Grounded raw cell) :
    cell ∉ cellsBelow raw (raw cell) := by
  rintro ⟨source, hsource, hreach⟩
  have href : Refers raw cell source := refers_iff_mem_targets.mpr hsource
  exact h.not_reachesCircle ⟨cell, .refl, onCircle_of_refers_of_reaches href hreach⟩

namespace Resolution

variable {α : Type}

/-- `during` holds as long as a resolution goes on, and `after` wherever it ends. -/
def Carries (during after : Progress → Prop) (resolution : Resolution α) : Prop :=
  ∀ progress, during progress →
    after (resolution.answer progress).2 ∧
      ∀ a, (resolution.answer progress).1 = .ok a → during (resolution.answer progress).2

theorem carries_mapM {during after : Progress → Prop} {number : Cell → Resolution Float}
    {targets : List Cell} (hafter : ∀ progress, during progress → after progress)
    (hstep : ∀ target ∈ targets, Carries during after (number target)) :
    Carries during after (targets.mapM number) := by
  induction targets with
  | nil => exact fun progress h => ⟨hafter progress h, fun _ _ => h⟩
  | cons target targets ih =>
      intro progress h
      have hhead := hstep target (by simp) progress h
      rcases hanswer : (number target).answer progress with ⟨cause | n, next⟩
      · rw [answer_mapM_cons_of_error hanswer]
        rw [hanswer] at hhead
        exact ⟨hhead.1, by simp⟩
      · rw [answer_mapM_cons_of_ok hanswer]
        rw [hanswer] at hhead
        obtain ⟨hlast, hok⟩ :=
          ih (fun other hother => hstep other (List.mem_cons_of_mem target hother)) next
            (hhead.2 n rfl)
        refine ⟨hlast, fun numbers hnumbers => ?_⟩
        cases hrest : ((targets.mapM number).answer next).1 with
        | error cause =>
            rw [hrest] at hnumbers
            cases hnumbers
        | ok rest => exact hok rest hrest

end Resolution

/-! ### No cell is fetched twice -/

structure FetchedOnce (others : List Cell) (progress : Progress) : Prop where
  nodup : progress.fetches.Nodup
  apart : ∀ cell ∈ progress.fetches, cell ∉ others

structure Accounted (others chain : List Cell) (progress : Progress) : Prop
    extends FetchedOnce others progress where
  settled : ∀ cell ∈ progress.fetches, cell ∈ progress.resolved ∨ cell ∈ chain

namespace Accounted

variable {others chain : List Cell} {progress : Progress} {cell : Cell}

/-- An untouched cell may be fetched, and waits on the chain from then on. -/
theorem fetch (h : Accounted others chain progress) (hothers : others ⊆ chain)
    (hchain : cell ∉ chain) (hnew : cell ∉ progress.resolved) :
    Accounted others (cell :: chain)
      { progress with events := .fetched cell :: progress.events } where
  nodup := by
    refine List.nodup_cons.mpr ⟨fun hmem => ?_, h.nodup⟩
    exact (h.settled cell hmem).elim hnew hchain
  apart := by
    intro other hother
    rcases List.mem_cons.mp hother with rfl | hmem
    · exact fun hstart => hchain (hothers hstart)
    · exact h.apart other hmem
  settled := by
    intro other hother
    rcases List.mem_cons.mp hother with rfl | hmem
    · exact .inr List.mem_cons_self
    · exact (h.settled other hmem).imp_right (List.mem_cons_of_mem cell)

theorem calculate (h : Accounted others chain progress) (text : List Char) :
    Accounted others chain { progress with events := .calculated text :: progress.events } where
  nodup := h.nodup
  apart := h.apart
  settled := h.settled

/-- A cell may leave the chain when it is remembered. -/
theorem remember (h : Accounted others (cell :: chain) progress) (n : Float) :
    Accounted others chain { progress with resolved := progress.resolved.insert cell n } where
  nodup := h.nodup
  apart := h.apart
  settled := by
    intro other hother
    rcases h.settled other hother with hmem | hmem
    · exact .inl (Std.ExtTreeMap.mem_insert.mpr (.inr hmem))
    · rcases List.mem_cons.mp hmem with rfl | hchain
      · exact .inl Std.ExtTreeMap.mem_insert_self
      · exact .inr hchain

end Accounted

/-! ### What arithmetic costs -/

/-- Every cell fetched since then satisfies a property, and arithmetic was done at most once for each
of them and a spare number of times beside. -/
structure Costs (within : Cell → Prop) (spare : Nat) (before after : Progress) : Prop where
  within : ∀ cell ∈ after.fetches, cell ∈ before.fetches ∨ within cell
  length_le : after.calculations.length + before.fetches.length ≤
    before.calculations.length + after.fetches.length + spare

namespace Costs

variable {within other : Cell → Prop} {spare : Nat} {first second third : Progress}

theorem refl (progress : Progress) : Costs within 0 progress progress :=
  ⟨fun _ => .inl, by simp⟩

theorem trans (hfirst : Costs within 0 first second) (hsecond : Costs within 0 second third) :
    Costs within 0 first third where
  within cell hcell := (hsecond.within cell hcell).elim (hfirst.within cell) .inr
  length_le := by
    have hbefore := hfirst.length_le
    have hafter := hsecond.length_le
    omega

theorem mono (h : Costs within spare first second) (hsub : ∀ cell, within cell → other cell) :
    Costs other spare first second where
  within cell hcell := (h.within cell hcell).imp_right (hsub cell)
  length_le := h.length_le

theorem succ (h : Costs within spare first second) : Costs within (spare + 1) first second where
  within := h.within
  length_le := h.length_le.trans (Nat.le_succ _)

theorem calculate (h : Costs within spare first second) (text : List Char) :
    Costs within (spare + 1) first
      { second with events := .calculated text :: second.events } where
  within := h.within
  length_le := by
    have hlength := h.length_le
    rw [Progress.calculations_calculated, Progress.fetches_calculated, List.length_cons]
    omega

/-- A cell that was fetched first makes up for what its own text costs. -/
theorem of_fetched {cell : Cell} (hcell : within cell)
    (h : Costs within (spare + 1) { first with events := .fetched cell :: first.events } second) :
    Costs within spare first second where
  within := by
    intro other hother
    rcases h.within other hother with hmem | hwithin
    · rcases List.mem_cons.mp hmem with rfl | hmem
      · exact .inr hcell
      · exact .inl hmem
    · exact .inr hwithin
  length_le := by
    have hlength := h.length_le
    rw [Progress.calculations_fetched, Progress.fetches_fetched, List.length_cons] at hlength
    omega

end Costs

namespace Evaluator

open Resolution

variable (evaluator : Evaluator) {others chain : List Cell}

theorem carries_evaluateWith {during after : Progress → Prop} {number : Cell → Resolution Float}
    {raw : String} (hafter : ∀ progress, during progress → after progress)
    (hcalculated : ∀ progress text, during progress →
      during { progress with events := .calculated text :: progress.events })
    (hstep : ∀ target ∈ Formula.targets raw, Carries during after (number target)) :
    Carries during after (evaluator.evaluateWith number raw) := by
  intro progress h
  obtain ⟨hlast, hok⟩ := carries_mapM hafter hstep progress h
  rw [answer_evaluateWith]
  rcases hanswer : ((Formula.targets raw).mapM number).answer progress with ⟨cause | numbers, next⟩
  · rw [hanswer] at hlast
    exact ⟨hlast, by simp⟩
  · rw [hanswer] at hok
    have hnext : during { next with events := Formula.calculated raw numbers ++ next.events } := by
      unfold Formula.calculated
      cases Formula.body? raw with
      | none => exact hok numbers rfl
      | some body => exact hcalculated next _ (hok numbers rfl)
    exact ⟨hafter _ hnext, fun _ _ => hnext⟩

/-- Resolving a cell fetches untouched cells only. -/
theorem carries_resolve (levels : Nat) (chain : List Cell) (cell : Cell) (hothers : others ⊆ chain) :
    Carries (Accounted others chain) (FetchedOnce others) (evaluator.resolve levels chain cell) := by
  induction levels generalizing chain cell with
  | zero =>
      intro progress h
      obtain hsame | ⟨-, -, hlevels⟩ := evaluator.progress_resolve_cases 0 chain cell progress
      · rw [hsame]
        exact ⟨h.toFetchedOnce, fun _ _ => h⟩
      · exact absurd hlevels (Nat.lt_irrefl 0)
  | succ levels ih =>
      intro progress h
      obtain hsame | ⟨hchain, hnone, -⟩ :=
        evaluator.progress_resolve_cases (levels + 1) chain cell progress
      · rw [hsame]
        exact ⟨h.toFetchedOnce, fun _ _ => h⟩
      · have hfetched := h.fetch hothers hchain (by simpa using hnone)
        have hbelow : others ⊆ cell :: chain := fun other hother =>
          List.mem_cons_of_mem cell (hothers hother)
        obtain ⟨hlast, hok⟩ := evaluator.carries_evaluateWith (fun _ h => h.toFetchedOnce)
          (fun _ text h => h.calculate text)
          (fun target _ => ih (cell :: chain) target hbelow) _ hfetched
        rw [evaluator.answer_resolve_succ hchain hnone]
        generalize (evaluator.evaluateWith _ _).answer _ = answer at hlast hok ⊢
        rcases answer with ⟨cause | value, after⟩
        · exact ⟨hlast, by simp [remembered]⟩
        · have hremembered := (hok value rfl).remember value.toNumber
          exact ⟨hremembered.toFetchedOnce, fun _ _ => hremembered⟩

theorem costs_evaluateWith {within : Cell → Prop} {number : Cell → Resolution Float} {raw : String}
    (h : ∀ target ∈ Formula.targets raw, ∀ before,
      Costs within 0 before ((number target).answer before).2) (progress : Progress) :
    Costs within 1 progress ((evaluator.evaluateWith number raw).answer progress).2 ∧
      ∀ cause, ((evaluator.evaluateWith number raw).answer progress).1 = .error cause →
        Costs within 0 progress ((evaluator.evaluateWith number raw).answer progress).2 := by
  have htargets := related_mapM Costs.refl (fun _ _ _ => Costs.trans) h progress
  rw [answer_evaluateWith]
  rcases hanswer : ((Formula.targets raw).mapM number).answer progress with ⟨cause | numbers, after⟩
  · rw [hanswer] at htargets
    exact ⟨htargets.succ, fun _ _ => htargets⟩
  · rw [hanswer] at htargets
    refine ⟨?_, by simp⟩
    unfold Formula.calculated
    cases Formula.body? raw with
    | none => exact htargets.succ
    | some body => exact htargets.calculate _

theorem costs_remembered {within : Cell → Prop} {spare : Nat} {before : Progress}
    {answer : Except Abort Value × Progress} (h : Costs within spare before answer.2)
    (cell : Cell) : Costs within spare before (remembered cell answer).2 := by
  rcases answer with ⟨cause | value, after⟩
  · exact h
  · exact ⟨h.within, h.length_le⟩

/-- Resolving a cell fetches cells that references lead to, and does arithmetic at most once for each
of them. -/
theorem costs_resolve (levels : Nat) (chain : List Cell) (cell : Cell) (progress : Progress) :
    Costs (Reaches evaluator.raw cell) 0 progress
      ((evaluator.resolve levels chain cell).answer progress).2 := by
  induction levels generalizing chain cell progress with
  | zero =>
      obtain hsame | ⟨-, -, hlevels⟩ := evaluator.progress_resolve_cases 0 chain cell progress
      · rw [hsame]
        exact .refl progress
      · exact absurd hlevels (Nat.lt_irrefl 0)
  | succ levels ih =>
      obtain hsame | ⟨hchain, hnone, -⟩ :=
        evaluator.progress_resolve_cases (levels + 1) chain cell progress
      · rw [hsame]
        exact .refl progress
      · have htargets : ∀ target ∈ Formula.targets (evaluator.raw cell), ∀ before,
            Costs (Reaches evaluator.raw cell) 0 before
              ((evaluator.resolve levels (cell :: chain) target).answer before).2 :=
          fun target htarget before => (ih (cell :: chain) target before).mono fun _ hreach =>
            .head (refers_iff_mem_targets.mpr htarget) hreach
        rw [evaluator.answer_resolve_succ hchain hnone]
        apply costs_remembered
        exact .of_fetched .refl (evaluator.costs_evaluateWith htargets _).1

/-! ### Whole evaluations -/

def runAnswer (text : String) (trail : Trail) : Except Abort Value × Progress :=
  (evaluator.evaluateWith (evaluator.resolve (evaluator.limit - trail.depth) trail.chain)
    text).answer { resolved := trail.resolved, events := [] }

theorem fetches_run (text : String) (trail : Trail) :
    (evaluator.run text trail).fetches = (evaluator.runAnswer text trail).2.fetches.reverse :=
  List.filterMap_reverse

theorem length_calculations_run (text : String) (trail : Trail) :
    (evaluator.run text trail).calculations.length =
      (evaluator.runAnswer text trail).2.calculations.length :=
  (congrArg List.length List.filterMap_reverse).trans List.length_reverse

theorem fetchedOnce_run (text : String) (trail : Trail) :
    (evaluator.run text trail).fetches.Nodup ∧
      ∀ cell ∈ (evaluator.run text trail).fetches, cell ∉ trail.chain := by
  have hstart : Accounted trail.chain trail.chain { resolved := trail.resolved, events := [] } :=
    ⟨⟨List.nodup_nil, by simp [Progress.fetches]⟩, by simp [Progress.fetches]⟩
  have hlast : FetchedOnce trail.chain (evaluator.runAnswer text trail).2 :=
    (evaluator.carries_evaluateWith (fun _ h => h.toFetchedOnce) (fun _ text h => h.calculate text)
      (fun target _ => evaluator.carries_resolve _ trail.chain target (List.Subset.refl _))
      _ hstart).1
  rw [fetches_run]
  exact ⟨List.nodup_reverse.mpr hlast.nodup,
    fun cell hcell => hlast.apart cell (List.mem_reverse.mp hcell)⟩

theorem costs_run (text : String) (trail : Trail) :
    Costs (· ∈ cellsBelow evaluator.raw text) 1 { resolved := trail.resolved, events := [] }
        (evaluator.runAnswer text trail).2 ∧
      ∀ cause, (evaluator.runAnswer text trail).1 = .error cause →
        Costs (· ∈ cellsBelow evaluator.raw text) 0 { resolved := trail.resolved, events := [] }
          (evaluator.runAnswer text trail).2 :=
  evaluator.costs_evaluateWith (fun target htarget before =>
    (evaluator.costs_resolve _ trail.chain target before).mono fun _ hreach =>
      ⟨target, htarget, hreach⟩) _

theorem mem_cellsBelow_of_mem_fetches {text : String} {trail : Trail} {cell : Cell}
    (h : cell ∈ (evaluator.run text trail).fetches) : cell ∈ cellsBelow evaluator.raw text := by
  rw [fetches_run, List.mem_reverse] at h
  exact ((evaluator.costs_run text trail).1.within cell h).resolve_left (by simp [Progress.fetches])

theorem length_calculations_le_fetches (text : String) (trail : Trail) :
    (evaluator.run text trail).calculations.length ≤
        (evaluator.run text trail).fetches.length + 1 ∧
      ∀ cause, (evaluator.runAnswer text trail).1 = .error cause →
        (evaluator.run text trail).calculations.length ≤
          (evaluator.run text trail).fetches.length := by
  obtain ⟨hcosts, herror⟩ := evaluator.costs_run text trail
  rw [length_calculations_run, fetches_run, List.length_reverse]
  refine ⟨?_, fun cause hcause => ?_⟩
  · simpa [Progress.fetches, Progress.calculations] using hcosts.length_le
  · simpa [Progress.fetches, Progress.calculations] using (herror cause hcause).length_le

theorem length_calculations_le (text : String) (trail : Trail) :
    ((evaluator.run text trail).calculations.length : ℕ∞) ≤
      (cellsBelow evaluator.raw text).encard + 1 := by
  have hfetches := length_le_encard_of_nodup (evaluator.fetchedOnce_run text trail).1
    fun _ => evaluator.mem_cellsBelow_of_mem_fetches
  calc ((evaluator.run text trail).calculations.length : ℕ∞)
      ≤ ((evaluator.run text trail).fetches.length : ℕ∞) + 1 := by
        exact_mod_cast (evaluator.length_calculations_le_fetches text trail).1
    _ ≤ (cellsBelow evaluator.raw text).encard + 1 := by gcongr

/-- A text that stands in a cell is not calculated beside the cell's own: where its evaluation comes
to an end, its references do not lead back to the cell. -/
theorem length_calculations_le_of_raw_eq {cell : Cell} {trail : Trail}
    (harises : trail.Arises evaluator) :
    ((evaluator.run (evaluator.raw cell) trail).calculations.length : ℕ∞) ≤
      {target | Reaches evaluator.raw cell target}.encard := by
  have hnodup := (evaluator.fetchedOnce_run (evaluator.raw cell) trail).1
  obtain ⟨hspare, herror⟩ := evaluator.length_calculations_le_fetches (evaluator.raw cell) trail
  cases hresult : (evaluator.runAnswer (evaluator.raw cell) trail).1 with
  | error cause =>
      calc ((evaluator.run (evaluator.raw cell) trail).calculations.length : ℕ∞)
          ≤ ((evaluator.run (evaluator.raw cell) trail).fetches.length : ℕ∞) := by
            exact_mod_cast herror cause hresult
        _ ≤ {target | Reaches evaluator.raw cell target}.encard :=
            length_le_encard_of_nodup hnodup fun _ hmem =>
              reaches_of_mem_cellsBelow (evaluator.mem_cellsBelow_of_mem_fetches hmem)
  | ok value =>
      have hevaluates := evaluator.evaluateWith_evaluates
        (evaluator.resolve_resolves (evaluator.limit - trail.depth) trail.chain)
        (evaluator.raw cell) { resolved := trail.resolved, events := [] } harises.sound
      have hgrounded : Grounded evaluator.raw cell := grounded_of_forall_refers fun target href =>
        (hevaluates.keeps harises.sound).1.grounded target
          (hevaluates.mem_resolved value hresult target (refers_iff_mem_targets.mp href))
      have hcell : cell ∉ (evaluator.run (evaluator.raw cell) trail).fetches := fun hmem =>
        hgrounded.not_mem_cellsBelow (evaluator.mem_cellsBelow_of_mem_fetches hmem)
      calc ((evaluator.run (evaluator.raw cell) trail).calculations.length : ℕ∞)
          ≤ ((cell :: (evaluator.run (evaluator.raw cell) trail).fetches).length : ℕ∞) := by
            exact_mod_cast hspare
        _ ≤ {target | Reaches evaluator.raw cell target}.encard := by
            refine length_le_encard_of_nodup (List.nodup_cons.mpr ⟨hcell, hnodup⟩) ?_
            intro target htarget
            rcases List.mem_cons.mp htarget with rfl | hmem
            · exact .refl
            · exact reaches_of_mem_cellsBelow (evaluator.mem_cellsBelow_of_mem_fetches hmem)

/-- No cell's raw text is fetched twice in one evaluation, and arithmetic is done at most once for
each cell that the evaluated one leads to, itself included. A text in no cell takes one more. -/
theorem each_cell_is_fetched_once (raw : Cell → String)
    (arithmetic : String → Except Arithmetic.Error Float) (maxDepth : Nat) :
    let evaluator := make raw arithmetic maxDepth
    (∀ cell, (evaluator.runCell cell).fetches.Nodup ∧
      ((evaluator.runCell cell).calculations.length : ℕ∞) ≤
        {target | Reaches raw cell target}.encard) ∧
    (∀ text, (evaluator.runDetached text).fetches.Nodup ∧
      ((evaluator.runDetached text).calculations.length : ℕ∞) ≤
        (cellsBelow raw text).encard + 1) ∧
    ∀ text trail, trail.Arises evaluator →
      (evaluator.run text trail).fetches.Nodup ∧
      (∀ cell ∈ (evaluator.run text trail).fetches, cell ∉ trail.chain) ∧
      ((evaluator.run text trail).calculations.length : ℕ∞) ≤ (cellsBelow raw text).encard + 1 ∧
      ∀ cell, raw cell = text →
        ((evaluator.run text trail).calculations.length : ℕ∞) ≤
          {target | Reaches raw cell target}.encard := by
  intro evaluator
  refine ⟨fun cell => ⟨?_, ?_⟩, fun text => ⟨?_, ?_⟩, fun text trail harises => ⟨?_, ?_, ?_, ?_⟩⟩
  · -- the cell itself, which is fetched before all others, is on the chain from the start
    obtain ⟨hnodup, hapart⟩ := evaluator.fetchedOnce_run (raw cell) (.startingAt cell)
    exact List.nodup_cons.mpr
      ⟨fun hmem => hapart cell hmem (List.mem_singleton.mpr rfl), hnodup⟩
  · exact evaluator.length_calculations_le_of_raw_eq (.startingAt cell)
  · exact (evaluator.fetchedOnce_run text .detached).1
  · exact evaluator.length_calculations_le text .detached
  · exact (evaluator.fetchedOnce_run text trail).1
  · exact (evaluator.fetchedOnce_run text trail).2
  · exact evaluator.length_calculations_le text trail
  · rintro cell rfl
    exact evaluator.length_calculations_le_of_raw_eq harises

theorem each_cell_is_fetched_once_of_shared_reference :
    (Trail.startingAt (inColumnA 0)).Arises (make sharedTexts Arithmetic.evaluate 3) ∧
    ((make sharedTexts Arithmetic.evaluate 3).run "=A2+A3"
      (.startingAt (inColumnA 0))).fetches.Nodup ∧
    (((make sharedTexts Arithmetic.evaluate 3).run "=A2+A3"
      (.startingAt (inColumnA 0))).calculations.length : ℕ∞) ≤
      {target | Reaches sharedTexts (inColumnA 0) target}.encard := by
  have harises : (Trail.startingAt (inColumnA 0)).Arises (make sharedTexts Arithmetic.evaluate 3) :=
    .startingAt _
  obtain ⟨hnodup, -, -, hstored⟩ := (each_cell_is_fetched_once sharedTexts Arithmetic.evaluate
    3).2.2 "=A2+A3" _ harises
  exact ⟨harises, hnodup, hstored (inColumnA 0) rfl⟩

-- `A3`, which `A1` names too, is looked up by then
example :
    ((make sharedTexts (fun _ => .error .empty) 3).runCell (inColumnA 0)).fetches =
      [inColumnA 0, inColumnA 1, inColumnA 2] ∧
    ((make sharedTexts (fun _ => .error .empty) 3).runCell
      (inColumnA 0)).calculations.length = 2 := by
  decide +kernel

end Evaluator

end Spreadsheet
