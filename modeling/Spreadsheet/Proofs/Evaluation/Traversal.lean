import Mathlib.Data.List.Forall2
import Spreadsheet.Evaluation
import Spreadsheet.Proofs.References

/-!
# An evaluation as a traversal of references

Splicing numbers into a formula and finding those numbers are told apart here: to evaluate a raw
text is to ask for the numbers of the cells it names, from left to right, and to calculate once all
of them are there. What holds of each question then carries over to the whole text.
-/

namespace Spreadsheet

namespace Formula

def splice : List Float → List Piece → List Char
  | _, [] => []
  | numbers, .plain text :: rest => text ++ splice numbers rest
  | numbers, .reference token :: rest =>
    match target? token with
    | none => Number.literal 0 ++ splice numbers rest
    | some _ => Number.literal (numbers.headD 0) ++ splice numbers.tail rest

def calculated (raw : String) (numbers : List Float) : List Event :=
  match body? raw with
  | none => []
  | some body => [.calculated (splice numbers (pieces body))]

end Formula

namespace Resolution

variable {α β : Type}

def answer (resolution : Resolution α) (progress : Progress) : Except Abort α × Progress :=
  resolution.run.run progress

@[simp]
theorem answer_pure (a : α) (progress : Progress) :
    (pure a : Resolution α).answer progress = (.ok a, progress) := rfl

@[simp]
theorem answer_throw (cause : Abort) (progress : Progress) :
    (throw cause : Resolution α).answer progress = (.error cause, progress) := rfl

@[simp]
theorem answer_log (event : Event) (progress : Progress) :
    (log event).answer progress =
      (.ok (), { progress with events := event :: progress.events }) := rfl

@[simp]
theorem answer_remember (cell : Cell) (n : Float) (progress : Progress) :
    (remember cell n).answer progress =
      (.ok (), { progress with resolved := progress.resolved.insert cell n }) := rfl

@[simp]
theorem answer_get (progress : Progress) :
    (get : Resolution Progress).answer progress = (.ok progress, progress) := rfl

@[simp]
theorem answer_bind (first : Resolution α) (next : α → Resolution β) (progress : Progress) :
    (first >>= next).answer progress =
      match first.answer progress with
      | (.ok a, after) => (next a).answer after
      | (.error cause, after) => (.error cause, after) := by
  unfold answer
  rw [ExceptT.run_bind, StateT.run_bind]
  rcases first.run.run progress with ⟨cause | a, after⟩ <;> rfl

variable {number : Cell → Resolution Float} {targets : List Cell}

theorem answer_mapM_cons_of_error {target : Cell} {progress after : Progress} {cause : Abort}
    (h : (number target).answer progress = (.error cause, after)) :
    ((target :: targets).mapM number).answer progress = (.error cause, after) := by
  rw [List.mapM_cons, answer_bind, h]

theorem answer_mapM_cons_of_ok {target : Cell} {progress after : Progress} {n : Float}
    (h : (number target).answer progress = (.ok n, after)) :
    ((target :: targets).mapM number).answer progress =
      (((targets.mapM number).answer after).1.map (n :: ·),
        ((targets.mapM number).answer after).2) := by
  rw [List.mapM_cons, answer_bind, h]
  dsimp only
  rw [answer_bind]
  rcases (targets.mapM number).answer after with ⟨cause | numbers, last⟩ <;> rfl

/-! ### What a traversal takes over from its questions

The progress at the start of a traversal, before and after each question and at the end are related
by any preorder that every single question respects. -/

section Preorder

variable {related : Progress → Progress → Prop} (hrefl : ∀ progress, related progress progress)
  (htrans : ∀ first second third, related first second → related second third →
    related first third)
  (hstep : ∀ target ∈ targets, ∀ progress,
    related progress ((number target).answer progress).2)

include hrefl htrans hstep

theorem related_mapM (progress : Progress) :
    related progress ((targets.mapM number).answer progress).2 := by
  induction targets generalizing progress with
  | nil => exact hrefl progress
  | cons target targets ih =>
      have hhead := hstep target (by simp) progress
      rcases hanswer : (number target).answer progress with ⟨cause | n, after⟩
      · rw [answer_mapM_cons_of_error hanswer]
        rwa [hanswer] at hhead
      · rw [answer_mapM_cons_of_ok hanswer]
        rw [hanswer] at hhead
        exact htrans _ _ _ hhead
          (ih (fun other hother => hstep other (List.mem_cons_of_mem target hother)) after)

/-- A traversal is given up by one of its questions. -/
theorem exists_of_mapM_error {progress : Progress} {cause : Abort}
    (h : ((targets.mapM number).answer progress).1 = .error cause) :
    ∃ target ∈ targets, ∃ before, related progress before ∧
      ((number target).answer before).1 = .error cause := by
  induction targets generalizing progress with
  | nil => simp at h
  | cons target targets ih =>
      have hhead := hstep target (by simp) progress
      rcases hanswer : (number target).answer progress with ⟨found | n, after⟩
      · rw [answer_mapM_cons_of_error hanswer] at h
        obtain rfl : found = cause := by simpa using h
        exact ⟨target, by simp, progress, hrefl progress, by rw [hanswer]⟩
      · rw [answer_mapM_cons_of_ok hanswer] at h
        rw [hanswer] at hhead
        have htail : ((targets.mapM number).answer after).1 = .error cause := by
          cases hresult : ((targets.mapM number).answer after).1 <;> simp_all [Except.map]
        obtain ⟨other, hother, before, hbefore, hcause⟩ :=
          ih (fun other hother => hstep other (List.mem_cons_of_mem target hother)) htail
        exact ⟨other, List.mem_cons_of_mem target hother, before,
          htrans _ _ _ hhead hbefore, hcause⟩

/-- The numbers of a finished traversal are answers to its questions. -/
theorem forall₂_of_mapM_ok {progress : Progress} {numbers : List Float}
    (h : ((targets.mapM number).answer progress).1 = .ok numbers) :
    List.Forall₂ (fun target n => ∃ before, related progress before ∧
      ((number target).answer before).1 = .ok n ∧
      related ((number target).answer before).2 ((targets.mapM number).answer progress).2)
      targets numbers := by
  induction targets generalizing progress numbers with
  | nil =>
      obtain rfl : [] = numbers := by simpa using h
      exact .nil
  | cons target targets ih =>
      have hhead := hstep target (by simp) progress
      have hrest : ∀ other ∈ targets, ∀ progress,
          related progress ((number other).answer progress).2 :=
        fun other hother => hstep other (List.mem_cons_of_mem target hother)
      rcases hanswer : (number target).answer progress with ⟨cause | n, after⟩
      · rw [answer_mapM_cons_of_error hanswer] at h
        cases h
      · rw [answer_mapM_cons_of_ok hanswer] at h ⊢
        rw [hanswer] at hhead
        obtain ⟨tail, htail, rfl⟩ :
            ∃ tail, ((targets.mapM number).answer after).1 = .ok tail ∧ n :: tail = numbers := by
          cases hresult : ((targets.mapM number).answer after).1 <;> simp_all [Except.map]
        refine .cons ⟨progress, hrefl progress, by rw [hanswer], ?_⟩ ((ih hrest htail).imp ?_)
        · rw [hanswer]
          exact related_mapM hrefl htrans hrest after
        · rintro other m ⟨before, hbefore, hm, hlast⟩
          exact ⟨before, htrans _ _ _ hhead hbefore, hm, hlast⟩

end Preorder

/-- Two traversals of the same references go in step until the second one is given up for a cause
that the first one need not share. -/
theorem mapM_lockstep {left right : Cell → Resolution Float} {stop : Abort}
    {related : Progress → Progress → Prop}
    (hstep : ∀ target ∈ targets, ∀ p q, related p q →
      ((right target).answer q).1 = .error stop ∨
        ((left target).answer p).1 = ((right target).answer q).1 ∧
          related ((left target).answer p).2 ((right target).answer q).2)
    {p q : Progress} (h : related p q) :
    ((targets.mapM right).answer q).1 = .error stop ∨
      ((targets.mapM left).answer p).1 = ((targets.mapM right).answer q).1 ∧
        related ((targets.mapM left).answer p).2 ((targets.mapM right).answer q).2 := by
  induction targets generalizing p q with
  | nil => exact .inr ⟨rfl, h⟩
  | cons target targets ih =>
      have hhead := hstep target (by simp) p q h
      rcases hright : (right target).answer q with ⟨cause | n, rightAfter⟩
      · rw [answer_mapM_cons_of_error hright]
        rw [hright] at hhead
        rcases hhead with hstop | ⟨hresult, hrelated⟩
        · obtain rfl : cause = stop := by simpa using hstop
          exact .inl rfl
        · have hleft : (left target).answer p = (.error cause, ((left target).answer p).2) :=
            Prod.ext hresult rfl
          rw [answer_mapM_cons_of_error hleft]
          exact .inr ⟨rfl, hrelated⟩
      · rw [answer_mapM_cons_of_ok hright]
        rw [hright] at hhead
        obtain ⟨hresult, hrelated⟩ := hhead.resolve_left (by intro hstop; cases hstop)
        have hleft : (left target).answer p = (.ok n, ((left target).answer p).2) :=
          Prod.ext hresult rfl
        rw [answer_mapM_cons_of_ok hleft]
        rcases ih (fun other hother => hstep other (List.mem_cons_of_mem target hother)) hrelated
          with hstop | ⟨htail, hlast⟩
        · exact .inl (by rw [hstop]; rfl)
        · exact .inr ⟨by rw [htail], hlast⟩

end Resolution

namespace Evaluator

open Resolution

def calculate (evaluator : Evaluator) (text : List Char) : Value :=
  match evaluator.arithmetic (String.ofList text) with
  | .ok n => .number n
  | .error _ => .marker .malformed

def valueAt (evaluator : Evaluator) (raw : String) (numbers : List Float) : Value :=
  match Formula.body? raw with
  | none => .text raw
  | some body => evaluator.calculate (Formula.splice numbers (Formula.pieces body))

theorem valueAt_ne_abort (evaluator : Evaluator) (raw : String) (numbers : List Float)
    (cause : Abort) : evaluator.valueAt raw numbers ≠ .marker (.abort cause) := by
  unfold valueAt calculate
  split
  · simp
  · split <;> simp

theorem answer_substitute (number : Cell → Resolution Float) (pieces : List Formula.Piece)
    (progress : Progress) :
    (substitute number pieces).answer progress =
      ((((pieces.filterMap Formula.Piece.target?).mapM number).answer progress).1.map
          (Formula.splice · pieces),
        (((pieces.filterMap Formula.Piece.target?).mapM number).answer progress).2) := by
  induction pieces generalizing progress with
  | nil => rfl
  | cons piece rest ih =>
      cases piece with
      | plain text =>
          simp only [substitute, answer_bind, ih, List.filterMap_cons, Formula.Piece.target?,
            Formula.splice]
          rcases ((rest.filterMap Formula.Piece.target?).mapM number).answer progress with
            ⟨cause | numbers, after⟩ <;> rfl
      | reference token =>
          cases htarget : Formula.target? token with
          | none =>
              simp only [substitute, htarget, answer_bind, answer_pure, ih, List.filterMap_cons,
                Formula.Piece.target?, Formula.splice]
              rcases ((rest.filterMap Formula.Piece.target?).mapM number).answer progress with
                ⟨cause | numbers, after⟩ <;> rfl
          | some target =>
              simp only [substitute, htarget, answer_bind, List.filterMap_cons,
                Formula.Piece.target?, Formula.splice]
              rcases hanswer : (number target).answer progress with ⟨cause | n, after⟩
              · rw [answer_mapM_cons_of_error hanswer]
                rfl
              · rw [answer_mapM_cons_of_ok hanswer]
                simp only [ih]
                rcases ((rest.filterMap Formula.Piece.target?).mapM number).answer after with
                  ⟨cause | numbers, last⟩ <;> rfl

/-- To evaluate a raw text is to ask for the numbers of the cells it names and to calculate. -/
theorem answer_evaluateWith (evaluator : Evaluator) (number : Cell → Resolution Float)
    (raw : String) (progress : Progress) :
    (evaluator.evaluateWith number raw).answer progress =
      match ((Formula.targets raw).mapM number).answer progress with
      | (.ok numbers, after) =>
        (.ok (evaluator.valueAt raw numbers),
          { after with events := Formula.calculated raw numbers ++ after.events })
      | (.error cause, after) => (.error cause, after) := by
  unfold evaluateWith Formula.targets valueAt Formula.calculated
  cases Formula.body? raw with
  | none => rfl
  | some body =>
      simp only [answer_bind, answer_substitute]
      rcases (((Formula.pieces body).filterMap Formula.Piece.target?).mapM number).answer progress
        with ⟨cause | numbers, after⟩
      · rfl
      · simp only [Except.map, answer_log, calculate]
        cases evaluator.arithmetic
          (String.ofList (Formula.splice numbers (Formula.pieces body))) <;> rfl

/-- Two evaluations of a raw text whose questions go in step come to the same result, and what they
remember stays related. -/
theorem evaluateWith_lockstep (evaluator : Evaluator) (left right : Cell → Resolution Float)
    {raw : String} {stop : Abort} (related : CellMap Float → CellMap Float → Prop)
    (hstep : ∀ target ∈ Formula.targets raw, ∀ p q : Progress, related p.resolved q.resolved →
      ((right target).answer q).1 = .error stop ∨
        ((left target).answer p).1 = ((right target).answer q).1 ∧
          related ((left target).answer p).2.resolved ((right target).answer q).2.resolved)
    {p q : Progress} (h : related p.resolved q.resolved) :
    ((evaluator.evaluateWith right raw).answer q).1 = .error stop ∨
      ((evaluator.evaluateWith left raw).answer p).1 =
          ((evaluator.evaluateWith right raw).answer q).1 ∧
        related ((evaluator.evaluateWith left raw).answer p).2.resolved
          ((evaluator.evaluateWith right raw).answer q).2.resolved := by
  rw [answer_evaluateWith, answer_evaluateWith]
  have hlockstep := @mapM_lockstep _ _ _ _ (fun p q => related p.resolved q.resolved) hstep p q h
  rcases hlockstep with hstop | ⟨hresult, hrelated⟩
  · refine .inl ?_
    rcases hright : ((Formula.targets raw).mapM right).answer q with ⟨cause | numbers, after⟩
    · rw [hright] at hstop
      exact congrArg _ (Except.error.inj hstop)
    · rw [hright] at hstop
      cases hstop
  · refine .inr ?_
    rcases hleft : ((Formula.targets raw).mapM left).answer p with ⟨lresult, lafter⟩
    rcases hright : ((Formula.targets raw).mapM right).answer q with ⟨rresult, rafter⟩
    rw [hleft, hright] at hresult hrelated
    dsimp only at hresult hrelated
    rw [hresult]
    cases rresult <;> exact ⟨rfl, hrelated⟩

end Evaluator

end Spreadsheet
