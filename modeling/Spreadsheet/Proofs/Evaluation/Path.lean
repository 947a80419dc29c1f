import Spreadsheet.Proofs.Evaluation.Values

/-!
# The path of an evaluation

An evaluation is told here with one path that it changes on its way. Every cell is put on the path
before its text is evaluated and taken off again, however that ends. So the path is well formed at
every moment, it is left as it was found, and the chain that is handed from cell to cell elsewhere
is the one that stands on the path.
-/

namespace Spreadsheet

/-- The cells being resolved on one branch of an evaluation, as a chain with the innermost first and
as a set, with the levels taken by something that is no cell and the numbers already found. -/
structure EvaluationPath where
  base : Nat
  chain : List Cell
  visiting : CellSet
  resolved : CellMap Float

namespace EvaluationPath

def empty : EvaluationPath :=
  { base := 0, chain := [], visiting := ∅, resolved := ∅ }

/-- The path for a formula that stands in no cell; the formula takes a level like a stored one. -/
def detached : EvaluationPath :=
  { empty with base := 1 }

def enter (path : EvaluationPath) (cell : Cell) : EvaluationPath :=
  { path with visiting := path.visiting.insert cell, chain := cell :: path.chain }

def startingAt (cell : Cell) : EvaluationPath :=
  empty.enter cell

def leave (path : EvaluationPath) (cell : Cell) : EvaluationPath :=
  { path with
    visiting := path.visiting.erase cell
    chain := if path.chain.head? = some cell then path.chain.tail else path.chain }

def remember (path : EvaluationPath) (cell : Cell) (n : Float) : EvaluationPath :=
  { path with resolved := path.resolved.insert cell n }

def depth (path : EvaluationPath) : Nat :=
  path.base + path.chain.length

def trail (path : EvaluationPath) : Trail :=
  { base := path.base, chain := path.chain, resolved := path.resolved }

end EvaluationPath

/-- What an evaluation has come to: the path as it stands, the path at every moment up to now, and
the events, the latest first. -/
structure Walk where
  path : EvaluationPath
  moments : List EvaluationPath
  events : List Event

namespace Walk

def start (path : EvaluationPath) : Walk :=
  { path, moments := [path], events := [] }

def change (walk : Walk) (update : EvaluationPath → EvaluationPath) : Walk :=
  { walk with path := update walk.path, moments := update walk.path :: walk.moments }

def log (walk : Walk) (event : Event) : Walk :=
  { walk with events := event :: walk.events }

def progress (walk : Walk) : Progress :=
  { resolved := walk.path.resolved, events := walk.events }

end Walk

abbrev Walking (α : Type) := ExceptT Abort (StateM Walk) α

namespace Walking

def change (update : EvaluationPath → EvaluationPath) : Walking Unit :=
  modify (·.change update)

def log (event : Event) : Walking Unit :=
  modify (·.log event)

end Walking

namespace Evaluator

def substituteOnPath (number : Cell → Walking Float) :
    List Formula.Piece → Walking (List Char)
  | [] => return []
  | .plain text :: rest => return text ++ (← substituteOnPath number rest)
  | .reference token :: rest => do
    let n ←
      match Formula.target? token with
      | some cell => number cell
      | none => pure 0
    return Number.literal n ++ (← substituteOnPath number rest)

def evaluateOnPath (evaluator : Evaluator) (number : Cell → Walking Float) (raw : String) :
    Walking Value := do
  match Formula.body? raw with
  | none => return .text raw
  | some body =>
    let text ← substituteOnPath number (Formula.pieces body)
    Walking.log (.calculated text)
    match evaluator.arithmetic (String.ofList text) with
    | .ok n => return .number n
    | .error _ => return .marker .malformed

/-- The number of a cell. It is the depth of the path that ends a chain which is too long. The first
argument only bounds the recursion, and is never used up before that. -/
def resolveOnPath (evaluator : Evaluator) : Nat → Cell → Walking Float
  | fuel, cell => do
    let path := (← get).path
    if cell ∈ path.visiting then
      throw .circular
    match path.resolved[cell]? with
    | some n => return n
    | none =>
      if evaluator.limit ≤ path.depth then
        throw .tooDeep
      match fuel with
      | 0 => throw .tooDeep
      | fuel + 1 =>
        Walking.change (·.enter cell)
        Walking.log (.fetched cell)
        let result ← observing
          (evaluator.evaluateOnPath (evaluator.resolveOnPath fuel) (evaluator.raw cell))
        Walking.change (·.leave cell)
        match result with
        | .error abort => throw abort
        | .ok value =>
          Walking.change (·.remember cell value.toNumber)
          return value.toNumber

/-- What an evaluation on a path comes to: its value, the path that it leaves, the path at every
moment from the first to the last, and its events in order. -/
structure Passage where
  value : Value
  path : EvaluationPath
  moments : List EvaluationPath
  events : List Event

def Passage.outcome (passage : Passage) : Outcome :=
  { value := passage.value, trail := passage.path.trail, events := passage.events }

def runOnPath (evaluator : Evaluator) (raw : String) (path : EvaluationPath) : Passage :=
  let number := evaluator.resolveOnPath evaluator.limit
  let (result, walk) := (evaluator.evaluateOnPath number raw).run.run (.start path)
  { value := .ofResult result
    path := walk.path
    moments := walk.moments.reverse
    events := walk.events.reverse }

end Evaluator

/-! ### Well-formed paths -/

namespace EvaluationPath

structure WellFormed (path : EvaluationPath) : Prop where
  nodup : path.chain.Nodup
  mem_visiting : ∀ cell, cell ∈ path.visiting ↔ cell ∈ path.chain
  unresolved : ∀ cell ∈ path.visiting, cell ∉ path.resolved

variable {path inner : EvaluationPath} {cell : Cell}

theorem wellFormed_of_nil (hchain : path.chain = []) (hvisiting : path.visiting = ∅) :
    path.WellFormed := by
  refine ⟨?_, ?_, ?_⟩
  · simp [hchain]
  · simp [hchain, hvisiting]
  · simp [hvisiting]

theorem mem_visiting_enter {other : Cell} :
    other ∈ (path.enter cell).visiting ↔ other = cell ∨ other ∈ path.visiting := by
  rw [enter, Std.ExtTreeSet.mem_insert, Std.LawfulEqCmp.compare_eq_iff_eq, eq_comm]

theorem WellFormed.enter (h : path.WellFormed) (hcell : cell ∉ path.visiting)
    (hnew : cell ∉ path.resolved) : (path.enter cell).WellFormed where
  nodup := List.nodup_cons.mpr ⟨fun hmem => hcell ((h.mem_visiting cell).mpr hmem), h.nodup⟩
  mem_visiting other := by
    rw [mem_visiting_enter, h.mem_visiting]
    exact List.mem_cons.symm
  unresolved other hother := by
    rcases mem_visiting_enter.mp hother with rfl | hvisiting
    · exact hnew
    · exact h.unresolved other hvisiting

/-- To leave a cell undoes entering it, apart from what was found in between. -/
theorem leave_eq (hbase : inner.base = path.base) (hchain : inner.chain = cell :: path.chain)
    (hvisiting : inner.visiting = path.visiting.insert cell) (hcell : cell ∉ path.visiting) :
    inner.leave cell = { path with resolved := inner.resolved } := by
  have hset : (path.visiting.insert cell).erase cell = path.visiting := by
    apply Std.ExtTreeSet.ext_mem
    intro other
    rw [Std.ExtTreeSet.mem_erase, Std.ExtTreeSet.mem_insert]
    constructor
    · rintro ⟨hne, heq | hmem⟩
      · exact absurd heq hne
      · exact hmem
    · intro hmem
      refine ⟨fun heq => hcell ?_, .inr hmem⟩
      rwa [Std.LawfulEqCmp.eq_of_compare heq]
  simp [leave, hbase, hchain, hvisiting, hset]

theorem WellFormed.of_resolved (h : path.WellFormed) {resolved : CellMap Float}
    (hnew : ∀ cell ∈ path.visiting, cell ∉ resolved) :
    WellFormed { path with resolved } :=
  ⟨h.nodup, h.mem_visiting, hnew⟩

end EvaluationPath

namespace Walking

variable {α β : Type}

def answer (walking : Walking α) (walk : Walk) : Except Abort α × Walk :=
  walking.run.run walk

@[simp]
theorem answer_pure (a : α) (walk : Walk) : (pure a : Walking α).answer walk = (.ok a, walk) := rfl

@[simp]
theorem answer_throw (cause : Abort) (walk : Walk) :
    (throw cause : Walking α).answer walk = (.error cause, walk) := rfl

@[simp]
theorem answer_get (walk : Walk) : (get : Walking Walk).answer walk = (.ok walk, walk) := rfl

@[simp]
theorem answer_change (update : EvaluationPath → EvaluationPath) (walk : Walk) :
    (change update).answer walk = (.ok (), walk.change update) := rfl

@[simp]
theorem answer_log (event : Event) (walk : Walk) :
    (log event).answer walk = (.ok (), walk.log event) := rfl

@[simp]
theorem answer_bind (first : Walking α) (next : α → Walking β) (walk : Walk) :
    (first >>= next).answer walk =
      match first.answer walk with
      | (.ok a, after) => (next a).answer after
      | (.error cause, after) => (.error cause, after) := by
  unfold answer
  rw [ExceptT.run_bind, StateT.run_bind]
  rcases first.run.run walk with ⟨cause | a, after⟩ <;> rfl

@[simp]
theorem answer_observing (walking : Walking α) (walk : Walk) :
    (observing walking).answer walk = (.ok (walking.answer walk).1, (walking.answer walk).2) := by
  unfold answer
  rw [observing, ExceptT.run_tryCatch, ExceptT.run_bind, bind_assoc, StateT.run_bind]
  rcases walking.run.run walk with ⟨cause | a, after⟩ <;> rfl

end Walking

/-! ### Walks that come back -/

/-- A walk ends where it started, apart from numbers that it has found on the way, and at every
moment in between the path was well formed and no deeper than at the start or than a limit. -/
structure Restores (limit : Nat) (before after : Walk) : Prop where
  base_eq : after.path.base = before.path.base
  chain_eq : after.path.chain = before.path.chain
  visiting_eq : after.path.visiting = before.path.visiting
  keeps : ∀ (cell : Cell) (n : Float), before.path.resolved[cell]? = some n →
    after.path.resolved[cell]? = some n
  wellFormed : after.path.WellFormed
  moments : ∀ moment ∈ after.moments, moment ∈ before.moments ∨
    moment.WellFormed ∧ moment.depth ≤ max before.path.depth limit

namespace Restores

variable {limit : Nat} {walk middle inner after : Walk} {cell : Cell} {event : Event}

theorem refl (h : walk.path.WellFormed) : Restores limit walk walk where
  base_eq := rfl
  chain_eq := rfl
  visiting_eq := rfl
  keeps _ _ h := h
  wellFormed := h
  moments _ h := .inl h

theorem depth_eq (h : Restores limit walk after) : after.path.depth = walk.path.depth := by
  rw [EvaluationPath.depth, h.base_eq, h.chain_eq, EvaluationPath.depth]

theorem trans (hfirst : Restores limit walk middle) (hlast : Restores limit middle after) :
    Restores limit walk after where
  base_eq := hlast.base_eq.trans hfirst.base_eq
  chain_eq := hlast.chain_eq.trans hfirst.chain_eq
  visiting_eq := hlast.visiting_eq.trans hfirst.visiting_eq
  keeps cell n h := hlast.keeps cell n (hfirst.keeps cell n h)
  wellFormed := hlast.wellFormed
  moments moment hmoment := by
    rcases hlast.moments moment hmoment with hmiddle | hnew
    · exact hfirst.moments moment hmiddle
    · rw [hfirst.depth_eq] at hnew
      exact .inr hnew

/-- A cell that was entered may be left however its evaluation ended. -/
theorem leave (hwalk : walk.path.WellFormed) (hcell : cell ∉ walk.path.visiting)
    (hnew : cell ∉ walk.path.resolved) (hdepth : walk.path.depth < limit)
    (h : Restores limit ((walk.change (·.enter cell)).log event) inner) :
    Restores limit walk (inner.change (·.leave cell)) := by
  have hleave : (inner.change (·.leave cell)).path =
      { walk.path with resolved := inner.path.resolved } :=
    EvaluationPath.leave_eq h.base_eq h.chain_eq h.visiting_eq hcell
  have hwellFormed : (inner.change (·.leave cell)).path.WellFormed := by
    rw [hleave]
    refine hwalk.of_resolved fun other hother => h.wellFormed.unresolved other ?_
    rw [h.visiting_eq]
    exact EvaluationPath.mem_visiting_enter.mpr (.inr hother)
  have hentered : walk.path.depth + 1 ≤ max walk.path.depth limit := by omega
  refine ⟨by rw [hleave], by rw [hleave], by rw [hleave], h.keeps, hwellFormed,
    fun moment hmoment => ?_⟩
  rcases List.mem_cons.mp hmoment with rfl | hinner
  · refine .inr ⟨hwellFormed, ?_⟩
    change (inner.change (·.leave cell)).path.depth ≤ _
    rw [hleave]
    exact Nat.le_max_left _ _
  · rcases h.moments moment hinner with hearlier | ⟨hmoment, hdeep⟩
    · rcases List.mem_cons.mp hearlier with rfl | hbefore
      · exact .inr ⟨hwalk.enter hcell hnew, hentered⟩
      · exact .inl hbefore
    · -- the cell that was entered takes one level, which the limit has left
      exact .inr ⟨hmoment, hdeep.trans (Nat.max_le.mpr ⟨hentered, Nat.le_max_right _ _⟩)⟩

/-- A number may be remembered for a cell that had none and is not on the path. -/
theorem remember (hcell : cell ∉ walk.path.visiting) (hnew : cell ∉ walk.path.resolved)
    (h : Restores limit walk inner) (n : Float) :
    Restores limit walk (inner.change (·.remember cell n)) := by
  have hwellFormed : (inner.path.remember cell n).WellFormed := by
    refine h.wellFormed.of_resolved fun other hother hmem => ?_
    rcases Std.ExtTreeMap.mem_insert.mp hmem with heq | hresolved
    · obtain rfl := Std.LawfulEqCmp.eq_of_compare heq
      rw [h.visiting_eq] at hother
      exact hcell hother
    · exact h.wellFormed.unresolved other hother hresolved
  refine ⟨h.base_eq, h.chain_eq, h.visiting_eq, fun other m hm => ?_, hwellFormed,
    fun moment hmoment => ?_⟩
  · have hne : ¬ compare cell other = .eq := by
      intro heq
      obtain rfl := Std.LawfulEqCmp.eq_of_compare heq
      exact hnew (CellMap.mem_of_getElem?_eq_some hm)
    exact Std.ExtTreeMap.getElem?_insert.trans ((if_neg hne).trans (h.keeps other m hm))
  · rcases List.mem_cons.mp hmoment with rfl | hinner
    · refine .inr ⟨hwellFormed, ?_⟩
      change inner.path.depth ≤ _
      rw [h.depth_eq]
      exact Nat.le_max_left _ _
    · exact h.moments moment hinner

end Restores

/-- On every path with a chain and a base, a part of an evaluation comes back and does what a part
of an evaluation without a path does. -/
def ActsAs (limit base : Nat) (chain : List Cell) {α : Type} (walking : Walking α)
    (resolution : Resolution α) : Prop :=
  ∀ walk : Walk, walk.path.WellFormed → walk.path.base = base → walk.path.chain = chain →
    Restores limit walk (walking.answer walk).2 ∧
      ((walking.answer walk).1, (walking.answer walk).2.progress) =
        resolution.answer walk.progress

namespace ActsAs

variable {α β : Type} {limit base : Nat} {chain : List Cell}

theorem pure (a : α) :
    ActsAs limit base chain (Pure.pure a : Walking α) (Pure.pure a : Resolution α) :=
  fun _ hwalk _ _ => ⟨.refl hwalk, rfl⟩

theorem log (event : Event) :
    ActsAs limit base chain (Walking.log event) (Resolution.log event) :=
  fun _ hwalk _ _ => ⟨⟨rfl, rfl, rfl, fun _ _ h => h, hwalk, fun _ h => .inl h⟩, rfl⟩

theorem bind {first : Walking α} {next : α → Walking β} {first' : Resolution α}
    {next' : α → Resolution β} (hfirst : ActsAs limit base chain first first')
    (hnext : ∀ a, ActsAs limit base chain (next a) (next' a)) :
    ActsAs limit base chain (first >>= next) (first' >>= next') := by
  intro walk hwalk hbase hchain
  obtain ⟨hrestores, hsame⟩ := hfirst walk hwalk hbase hchain
  rw [Walking.answer_bind, Resolution.answer_bind, ← hsame]
  generalize first.answer walk = answer at hrestores hsame ⊢
  rcases answer with ⟨cause | a, after⟩
  · exact ⟨hrestores, rfl⟩
  · obtain ⟨hrest, hlast⟩ := hnext a after hrestores.wellFormed
      (hrestores.base_eq.trans hbase) (hrestores.chain_eq.trans hchain)
    exact ⟨hrestores.trans hrest, hlast⟩

end ActsAs

namespace Evaluator

open Walking

variable {limit base : Nat} {chain : List Cell} {walk : Walk} {cell : Cell}

theorem substituteOnPath_actsAs {number : Cell → Walking Float} {number' : Cell → Resolution Float}
    (hnumber : ∀ cell, ActsAs limit base chain (number cell) (number' cell))
    (pieces : List Formula.Piece) :
    ActsAs limit base chain (substituteOnPath number pieces) (substitute number' pieces) := by
  induction pieces with
  | nil => exact .pure []
  | cons piece rest ih =>
      cases piece with
      | plain text => exact ih.bind fun spliced => .pure (text ++ spliced)
      | reference token =>
          rw [substituteOnPath, substitute]
          cases Formula.target? token with
          | none =>
              exact (ActsAs.pure 0).bind fun n =>
                ih.bind fun spliced => .pure (Number.literal n ++ spliced)
          | some target =>
              exact (hnumber target).bind fun n =>
                ih.bind fun spliced => .pure (Number.literal n ++ spliced)

theorem evaluateOnPath_actsAs (evaluator : Evaluator) {number : Cell → Walking Float}
    {number' : Cell → Resolution Float}
    (hnumber : ∀ cell, ActsAs limit base chain (number cell) (number' cell)) (raw : String) :
    ActsAs limit base chain (evaluator.evaluateOnPath number raw)
      (evaluator.evaluateWith number' raw) := by
  unfold evaluateOnPath evaluateWith
  cases Formula.body? raw with
  | none => exact .pure (Value.text raw)
  | some body =>
      refine (substituteOnPath_actsAs hnumber (Formula.pieces body)).bind fun text =>
        (ActsAs.log (.calculated text)).bind fun _ => ?_
      cases evaluator.arithmetic (String.ofList text) with
      | ok n => exact .pure (Value.number n)
      | error _ => exact .pure (Value.marker .malformed)

/-! ### The steps of `resolveOnPath` -/

section Steps

variable (evaluator : Evaluator) (fuel : Nat)

theorem answer_resolveOnPath_of_visiting (h : cell ∈ walk.path.visiting) :
    (evaluator.resolveOnPath fuel cell).answer walk = (.error .circular, walk) := by
  unfold resolveOnPath
  simp [h]

theorem answer_resolveOnPath_of_resolved {n : Float} (h : cell ∉ walk.path.visiting)
    (hn : walk.path.resolved[cell]? = some n) :
    (evaluator.resolveOnPath fuel cell).answer walk = (.ok n, walk) := by
  unfold resolveOnPath
  simp [h, hn]

theorem answer_resolveOnPath_of_deep (h : cell ∉ walk.path.visiting)
    (hnone : walk.path.resolved[cell]? = none) (hdeep : evaluator.limit ≤ walk.path.depth) :
    (evaluator.resolveOnPath fuel cell).answer walk = (.error .tooDeep, walk) := by
  unfold resolveOnPath
  simp [h, hnone, hdeep]

def returned (cell : Cell) : Except Abort Value × Walk → Except Abort Float × Walk
  | (.error cause, after) => (.error cause, after.change (·.leave cell))
  | (.ok value, after) =>
    (.ok value.toNumber,
      (after.change (·.leave cell)).change (·.remember cell value.toNumber))

/-- Whatever came of the text of a cell that was entered, what is made of it comes back. -/
theorem returned_restores (hwalk : walk.path.WellFormed) (hcell : cell ∉ walk.path.visiting)
    (hnew : cell ∉ walk.path.resolved) (hdepth : walk.path.depth < limit) {event : Event}
    {answer : Except Abort Value × Walk}
    (h : Restores limit ((walk.change (·.enter cell)).log event) answer.2) :
    Restores limit walk (returned cell answer).2 ∧
      ((returned cell answer).1, (returned cell answer).2.progress) =
        remembered cell (answer.1, answer.2.progress) := by
  have hleft := h.leave hwalk hcell hnew hdepth
  rcases answer with ⟨cause | value, inner⟩
  · exact ⟨hleft, rfl⟩
  · exact ⟨hleft.remember hcell hnew value.toNumber, rfl⟩

theorem answer_resolveOnPath_succ (h : cell ∉ walk.path.visiting)
    (hnone : walk.path.resolved[cell]? = none) (hdeep : ¬ evaluator.limit ≤ walk.path.depth) :
    (evaluator.resolveOnPath (fuel + 1) cell).answer walk =
      returned cell ((evaluator.evaluateOnPath (evaluator.resolveOnPath fuel)
        (evaluator.raw cell)).answer ((walk.change (·.enter cell)).log (.fetched cell))) := by
  rw [resolveOnPath]
  simp only [h, hdeep, if_false, answer_bind, answer_get, hnone, answer_change, answer_log,
    answer_observing]
  rcases (evaluator.evaluateOnPath (evaluator.resolveOnPath fuel) (evaluator.raw cell)).answer _
    with ⟨cause | value, after⟩ <;> rfl

end Steps

/-! ### Evaluations on a path -/

variable (evaluator : Evaluator)

/-- A cell is resolved alike with and without a path if the cells below it are. -/
theorem resolveOnPath_actsAs_of_below {fuel : Nat}
    (hfuel : evaluator.limit - (base + chain.length) ≤ fuel)
    (hbelow : ∀ below, fuel = below + 1 → ∀ target,
      ActsAs evaluator.limit base (cell :: chain) (evaluator.resolveOnPath below target)
        (evaluator.resolve (evaluator.limit - (base + (cell :: chain).length)) (cell :: chain)
          target)) :
    ActsAs evaluator.limit base chain (evaluator.resolveOnPath fuel cell)
      (evaluator.resolve (evaluator.limit - (base + chain.length)) chain cell) := by
  rintro walk hwalk rfl rfl
  by_cases hvisiting : cell ∈ walk.path.visiting
  · rw [evaluator.answer_resolveOnPath_of_visiting fuel hvisiting,
      evaluator.answer_resolve_of_mem _ ((hwalk.mem_visiting cell).mp hvisiting)]
    exact ⟨.refl hwalk, rfl⟩
  · have hchain : cell ∉ walk.path.chain := fun hmem =>
      hvisiting ((hwalk.mem_visiting cell).mpr hmem)
    cases hresolved : walk.path.resolved[cell]? with
    | some n =>
        rw [evaluator.answer_resolveOnPath_of_resolved fuel hvisiting hresolved,
          evaluator.answer_resolve_of_resolved _ hchain hresolved]
        exact ⟨.refl hwalk, rfl⟩
    | none =>
        have hnew : cell ∉ walk.path.resolved := by simpa using hresolved
        by_cases hdeep : evaluator.limit ≤ walk.path.depth
        · have hlevels : evaluator.limit - (walk.path.base + walk.path.chain.length) = 0 :=
            Nat.sub_eq_zero_of_le hdeep
          rw [evaluator.answer_resolveOnPath_of_deep fuel hvisiting hresolved hdeep, hlevels,
            evaluator.answer_resolve_zero hchain hresolved]
          exact ⟨.refl hwalk, rfl⟩
        · have hroom : walk.path.depth < evaluator.limit := Nat.lt_of_not_le hdeep
          have hlevels : evaluator.limit - (walk.path.base + walk.path.chain.length) =
              evaluator.limit - (walk.path.base + (cell :: walk.path.chain).length) + 1 := by
            rw [EvaluationPath.depth] at hroom
            rw [List.length_cons]
            omega
          obtain ⟨below, rfl⟩ : ∃ below, fuel = below + 1 :=
            Nat.exists_eq_add_one.mpr (by omega)
          obtain ⟨hrestores, hsame⟩ :=
            evaluator.evaluateOnPath_actsAs (hbelow below rfl) (evaluator.raw cell)
              ((walk.change (·.enter cell)).log (.fetched cell)) (hwalk.enter hvisiting hnew)
              rfl rfl
          rw [evaluator.answer_resolveOnPath_succ below hvisiting hresolved hdeep, hlevels,
            evaluator.answer_resolve_succ hchain hresolved]
          change _ = (evaluator.evaluateWith _ _).answer
            { walk.progress with events := .fetched cell :: walk.progress.events } at hsame
          rw [← hsame]
          exact returned_restores hwalk hvisiting hnew hroom hrestores

/-- The levels left are the limit less the depth of the path, so the recursion is never cut short
before the path is too deep. -/
theorem resolveOnPath_actsAs {fuel : Nat}
    (hfuel : evaluator.limit - (base + chain.length) ≤ fuel) (cell : Cell) :
    ActsAs evaluator.limit base chain (evaluator.resolveOnPath fuel cell)
      (evaluator.resolve (evaluator.limit - (base + chain.length)) chain cell) := by
  induction fuel generalizing chain cell with
  | zero => exact evaluator.resolveOnPath_actsAs_of_below hfuel nofun
  | succ fuel ih =>
      refine evaluator.resolveOnPath_actsAs_of_below hfuel fun below hbelow => ?_
      obtain rfl := Nat.succ.inj hbelow
      exact ih (by rw [List.length_cons]; omega)

/-- On a well-formed path an evaluation comes back, and to the same as without the path. -/
theorem runOnPath_actsAs (raw : String) {path : EvaluationPath} (h : path.WellFormed) :
    ∃ walk, Restores evaluator.limit (.start path) walk ∧
      (evaluator.runOnPath raw path).path = walk.path ∧
      (evaluator.runOnPath raw path).moments = walk.moments.reverse ∧
      (evaluator.runOnPath raw path).outcome = evaluator.run raw path.trail := by
  obtain ⟨hrestores, hsame⟩ :=
    evaluator.evaluateOnPath_actsAs
      (evaluator.resolveOnPath_actsAs (Nat.sub_le evaluator.limit path.depth)) raw
      (.start path) h rfl rfl
  refine ⟨_, hrestores, rfl, rfl, ?_⟩
  change _ = (evaluator.evaluateWith (evaluator.resolve (evaluator.limit - path.trail.depth)
    path.trail.chain) raw).run.run { resolved := path.trail.resolved, events := [] } at hsame
  unfold run runOnPath Passage.outcome
  dsimp only
  rw [← hsame]
  unfold answer at hrestores ⊢
  generalize (evaluator.evaluateOnPath (evaluator.resolveOnPath evaluator.limit) raw).run.run
    (.start path) = answer at hrestores ⊢
  rcases answer with ⟨result, walk⟩
  dsimp only
  rw [EvaluationPath.trail, hrestores.base_eq, hrestores.chain_eq]
  rfl

end Evaluator

namespace EvaluationPath

inductive Arises : EvaluationPath → Prop where
  | empty : Arises .empty
  | detached : Arises .detached
  | startingAt (cell : Cell) : Arises (.startingAt cell)
  | run {path : EvaluationPath} (evaluator : Evaluator) (raw : String) (harises : Arises path) :
    Arises (evaluator.runOnPath raw path).path

variable {path : EvaluationPath}

theorem Arises.wellFormed (h : path.Arises) : path.WellFormed := by
  induction h with
  | empty => exact wellFormed_of_nil rfl rfl
  | detached => exact wellFormed_of_nil rfl rfl
  | startingAt cell =>
      have hempty : EvaluationPath.empty.WellFormed := wellFormed_of_nil rfl rfl
      exact hempty.enter Std.ExtTreeSet.not_mem_empty Std.ExtTreeMap.not_mem_empty
  | run evaluator raw _ ih =>
      obtain ⟨walk, hrestores, hpath, -⟩ := evaluator.runOnPath_actsAs raw ih
      rw [hpath]
      exact hrestores.wellFormed

/-- Whether an evaluation finds a value or is given up, it leaves its path as it was, apart from
numbers that it found in addition. At every moment the path was well formed and no deeper than at
the start or than the limit, and all comes to the same as without a path. -/
theorem Arises.restored (h : path.Arises) (raw : Cell → String)
    (arithmetic : String → Except Arithmetic.Error Float) (maxDepth : Nat) (text : String) :
    let evaluator := Evaluator.make raw arithmetic maxDepth
    let passage := evaluator.runOnPath text path
    passage.outcome = evaluator.run text path.trail ∧
      passage.path.chain = path.chain ∧ passage.path.base = path.base ∧
      passage.path.visiting = path.visiting ∧
      (∀ (cell : Cell) (n : Float), path.resolved[cell]? = some n →
        passage.path.resolved[cell]? = some n) ∧
      ∀ moment ∈ passage.moments,
        moment.WellFormed ∧ moment.depth ≤ max path.depth (min maxDepth depthCeiling) := by
  intro evaluator passage
  obtain ⟨walk, hrestores, hpath, hmoments, hsame⟩ :=
    evaluator.runOnPath_actsAs text h.wellFormed
  refine ⟨hsame, ?_, ?_, ?_, ?_, fun moment hmoment => ?_⟩
  · exact hpath ▸ hrestores.chain_eq
  · exact hpath ▸ hrestores.base_eq
  · exact hpath ▸ hrestores.visiting_eq
  · exact hpath ▸ hrestores.keeps
  · rw [hmoments, List.mem_reverse] at hmoment
    rcases hrestores.moments moment hmoment with hstart | hduring
    · obtain rfl := List.mem_singleton.mp hstart
      exact ⟨h.wellFormed, Nat.le_max_left _ _⟩
    · exact hduring

def mutualTexts (cell : Cell) : String :=
  if cell = inColumnA 0 then "=A2" else if cell = inColumnA 1 then "=A1" else ""

/-- A path that was used for an evaluation that was given up, and is used once more. -/
theorem restored_after_circle :
    let evaluator := Evaluator.make mutualTexts Arithmetic.evaluate 8
    let first := evaluator.runOnPath "=A3+A2" (.startingAt (inColumnA 0))
    first.path.Arises ∧ first.value = .marker (.abort .circular) ∧
      inColumnA 2 ∈ first.path.resolved ∧ first.moments.length = 6 ∧
      (evaluator.runOnPath "=A2" first.path).path.chain = first.path.chain := by
  intro evaluator first
  have harises : first.path.Arises := .run evaluator "=A3+A2" (.startingAt (inColumnA 0))
  have hvalue : first.value = .marker (.abort .circular) :=
    Value.marker?_eq_some_iff.mp (by decide +kernel)
  refine ⟨harises, hvalue, by decide +kernel, by decide +kernel, ?_⟩
  exact (harises.restored mutualTexts Arithmetic.evaluate 8 "=A2").2.1

end EvaluationPath

end Spreadsheet
