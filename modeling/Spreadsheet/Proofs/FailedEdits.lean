import Spreadsheet.Proofs.Disk.Beside
import Spreadsheet.Proofs.FileStore
import Spreadsheet.Proofs.Recalculation

/-!
# Edits that fail

A sheet is used by calls, and between them others may change what its store keeps. An edit that
fails leaves a sheet that no calls tell from the one before: all that may be left of it is a file
of another name, which no call ever reads.
-/

namespace Spreadsheet

/-! ### Stores among others -/

class ExposedStore (Store : Type) where
  Incident : Type
  befall : Store → Incident → Store
  /-- The content of the file where the cells are kept. -/
  file : Store → Option ByteArray
  reopen : Store → Access → Except OpenError Store

instance : ExposedStore MemoryStore where
  Incident := Cell × String
  befall store incident := store.insert incident.1 incident.2
  file _ := none
  reopen store access := .ok { store with access }

instance : ExposedStore FileStore where
  Incident := Disk.Change
  befall store change := { store with disk := store.disk.change change }
  file store := store.disk.read? store.path
  reopen store access := FileStore.open store.disk store.path access

/-- A store on which a write that fails leaves no trace. The stores that are alike after it stay so
whatever happens to both. -/
class TracelessStore (Store : Type) [CellStore Store] [ExposedStore Store] where
  Alike : Store → Store → Prop
  refl (store : Store) : Alike store store
  raw_eq {left right : Store} (h : Alike left right) : CellStore.raw left = CellStore.raw right
  cells_eq {left right : Store} (h : Alike left right) :
    CellStore.cells left = CellStore.cells right
  file_eq {left right : Store} (h : Alike left right) :
    ExposedStore.file left = ExposedStore.file right
  write {left right : Store} (h : Alike left right) (cell : Cell) (text : String) :
    (CellStore.write left cell text).1 = (CellStore.write right cell text).1 ∧
      Alike (CellStore.write left cell text).2 (CellStore.write right cell text).2
  befall {left right : Store} (h : Alike left right) (incident : ExposedStore.Incident Store) :
    Alike (ExposedStore.befall left incident) (ExposedStore.befall right incident)
  reopen {left right : Store} (h : Alike left right) (access : Access) :
    (∃ error, ExposedStore.reopen left access = .error error ∧
      ExposedStore.reopen right access = .error error) ∨
    ∃ leftAgain rightAgain, ExposedStore.reopen left access = .ok leftAgain ∧
      ExposedStore.reopen right access = .ok rightAgain ∧ Alike leftAgain rightAgain
  alike_of_error {store : Store} {cell : Cell} {text : String} {error : StoreError}
    (h : (CellStore.write store cell text).1 = .error error) :
    Alike (CellStore.write store cell text).2 store

instance : TracelessStore MemoryStore where
  Alike left right := left = right
  refl _ := rfl
  raw_eq := congrArg _
  cells_eq := congrArg _
  file_eq := congrArg _
  write := by
    rintro store _ rfl cell text
    exact ⟨rfl, rfl⟩
  befall := by
    rintro store _ rfl incident
    rfl
  reopen := by
    rintro store _ rfl access
    exact .inr ⟨_, _, rfl, rfl, rfl⟩
  alike_of_error := by
    rintro ⟨texts, access⟩ cell text error h
    cases access with
    | writable => cases h
    | readOnly => rfl

namespace FileStore

structure Alike (left right : FileStore) : Prop where
  path : left.path = right.path
  texts : left.texts = right.texts
  access : left.access = right.access
  disk : left.disk.SameNamed left.path right.disk

variable {left right store : FileStore}

theorem Alike.write (h : Alike left right) (cell : Cell) (text : String) :
    (left.write cell text).1 = (right.write cell text).1 ∧
      Alike (left.write cell text).2 (right.write cell text).2 := by
  obtain ⟨path, texts, access, disk⟩ := left
  obtain ⟨_, _, _, other⟩ := right
  obtain ⟨rfl, rfl, rfl, hdisk⟩ := h
  cases access with
  | readOnly => exact ⟨rfl, rfl, rfl, rfl, hdisk⟩
  | writable =>
      obtain ⟨hdone, hafter⟩ := hdisk.replace (SheetText.write (texts.write cell text)).toUTF8
      rw [write_of_writable rfl, write_of_writable rfl]
      dsimp only at hdone hafter ⊢
      generalize disk.replace path (SheetText.write (texts.write cell text)).toUTF8 = outcome
        at hdone hafter ⊢
      generalize other.replace path (SheetText.write (texts.write cell text)).toUTF8 = outcomeToo
        at hdone hafter ⊢
      rw [← hdone]
      by_cases hreplaced : outcome.1 = true
      · rw [if_pos hreplaced, if_pos hreplaced]
        exact ⟨rfl, rfl, rfl, rfl, hafter⟩
      · rw [if_neg hreplaced, if_neg hreplaced]
        exact ⟨rfl, rfl, rfl, rfl, hafter⟩

theorem Alike.reopen (h : Alike left right) (access : Access) :
    (∃ error, FileStore.open left.disk left.path access = .error error ∧
      FileStore.open right.disk right.path access = .error error) ∨
    ∃ leftAgain rightAgain, FileStore.open left.disk left.path access = .ok leftAgain ∧
      FileStore.open right.disk right.path access = .ok rightAgain ∧
      Alike leftAgain rightAgain := by
  have hload : load left.disk left.path = load right.disk right.path := by
    rw [load_congr h.disk.agreesAt, h.path]
  cases hright : load right.disk right.path with
  | error error =>
      refine .inl ⟨error, ?_, ?_⟩
      · rw [FileStore.open, hload.trans hright]
        rfl
      · rw [FileStore.open, hright]
        rfl
  | ok texts =>
      exact .inr ⟨_, _, open_of_load_eq (hload.trans hright) access,
        open_of_load_eq hright access, h.path, rfl, rfl, h.disk⟩

theorem alike_of_error {cell : Cell} {text : String} {error : StoreError}
    (h : (store.write cell text).1 = .error error) : Alike (store.write cell text).2 store := by
  obtain ⟨path, texts, access, disk⟩ := store
  cases access with
  | readOnly => exact ⟨rfl, rfl, rfl, .refl path disk⟩
  | writable =>
      rw [write_of_writable rfl] at h ⊢
      dsimp only at h ⊢
      by_cases hreplaced :
          (disk.replace path (SheetText.write (texts.write cell text)).toUTF8).1 = true
      · rw [if_pos hreplaced] at h
        cases h
      · have hsame := Disk.sameNamed_replace (Bool.eq_false_iff.mpr hreplaced)
        rw [if_neg hreplaced]
        generalize disk.replace path (SheetText.write (texts.write cell text)).toUTF8 = outcome
          at hsame
        exact ⟨rfl, rfl, rfl, hsame⟩

instance : TracelessStore FileStore where
  Alike := Alike
  refl store := ⟨rfl, rfl, rfl, .refl store.path store.disk⟩
  raw_eq h := congrArg CellTexts.raw h.texts
  cells_eq h := congrArg Std.ExtTreeMap.toList h.texts
  file_eq {left right} h := by
    change left.disk.read? left.path = right.disk.read? right.path
    rw [h.disk.agreesAt.2, h.path]
  write h := h.write
  befall h change := ⟨h.path, h.texts, h.access, h.disk.change change⟩
  reopen h := h.reopen
  alike_of_error := alike_of_error

end FileStore

/-! ### Calls -/

inductive Call (Incident : Type) where
  | edit (cell : Cell) (text : String)
  | editByName (name text : String)
  | clear (cell : Cell)
  | load
  | raw (cell : Cell)
  | value (cell : Cell)
  | display (cell : Cell)
  | dependentsOf (cell : Cell)
  | computedCells
  | evaluateFormula (text : String)
  | file
  | reopen (access : Access)
  | incident (incident : Incident)

inductive Answer where
  | edited (result : Except EditError Recalculation)
  | text (text : String)
  | value (value : Value)
  | cells (cells : List Cell)
  | computed (cells : List (Cell × Value))
  | file (content : Option ByteArray)
  | reopened (result : Except OpenError Unit)
  | done

namespace Sheet

variable {Store : Type} [CellStore Store] [ExposedStore Store]

/-- The answer to a call, and the sheet that is in use from then on. When the store cannot be opened
again the old sheet stays in use. -/
def respond (sheet : Sheet Store) :
    Call (ExposedStore.Incident Store) → Answer × Sheet Store
  | .edit cell text => (.edited (sheet.edit cell text).1, (sheet.edit cell text).2)
  | .editByName name text =>
      (.edited (sheet.editByName name text).1, (sheet.editByName name text).2)
  | .clear cell => (.edited (sheet.clear cell).1, (sheet.clear cell).2)
  | .load => (.done, sheet.load)
  | .raw cell => (.text (sheet.raw cell), sheet)
  | .value cell => (.value (sheet.value cell), sheet)
  | .display cell => (.text (sheet.display cell), sheet)
  | .dependentsOf cell => (.cells (sheet.dependentsOf cell), sheet)
  | .computedCells => (.computed sheet.computedCells, sheet)
  | .evaluateFormula text => (.value (sheet.evaluateFormula text), sheet)
  | .file => (.file (ExposedStore.file sheet.store), sheet)
  | .reopen access =>
      match ExposedStore.reopen sheet.store access with
      | .error error => (.reopened (.error error), sheet)
      | .ok store => (.reopened (.ok ()), ofStore store sheet.maxDepth sheet.arithmetic)
  | .incident incident =>
      (.done, { sheet with store := ExposedStore.befall sheet.store incident })

def answers (sheet : Sheet Store) : List (Call (ExposedStore.Incident Store)) → List Answer
  | [] => []
  | call :: rest => (sheet.respond call).1 :: (sheet.respond call).2.answers rest

/-- Nothing that is asked of two sheets tells them apart, now or after any calls. -/
structure Indistinguishable (left right : Sheet Store) : Prop where
  raw : left.raw = right.raw
  computedCells : left.computedCells = right.computedCells
  dependentsOf : left.dependentsOf = right.dependentsOf
  evaluateFormula : left.evaluateFormula = right.evaluateFormula
  file : ExposedStore.file left.store = ExposedStore.file right.store
  answers : ∀ calls, left.answers calls = right.answers calls

variable [TracelessStore Store]

structure Alike (left right : Sheet Store) : Prop where
  store : TracelessStore.Alike left.store right.store
  graph : left.graph = right.graph
  values : left.values = right.values
  arithmetic : left.arithmetic = right.arithmetic
  maxDepth : left.maxDepth = right.maxDepth

variable {sheet left right : Sheet Store}

namespace Alike

theorem raw_eq (h : Alike left right) : left.raw = right.raw :=
  TracelessStore.raw_eq h.store

theorem evaluator_eq (h : Alike left right) : left.evaluator = right.evaluator := by
  rw [evaluator, evaluator, TracelessStore.raw_eq h.store, h.arithmetic, h.maxDepth]

theorem load (h : Alike left right) : Alike left.load right.load := by
  have hcells := TracelessStore.cells_eq h.store
  refine ⟨h.store, ?_, ?_, h.arithmetic, h.maxDepth⟩
  · unfold Sheet.load
    dsimp only
    rw [hcells]
  · unfold Sheet.load
    dsimp only
    rw [hcells, h.evaluator_eq]

theorem recalculation_eq (h : Alike left right) (changed : Cell) :
    left.recalculation changed = right.recalculation changed := by
  rw [recalculation, recalculation, h.graph, h.evaluator_eq]

theorem renewed_eq (h : Alike left right) (cells : List Cell) :
    left.renewed cells = right.renewed cells := by
  have hrenew : left.renew = right.renew := by
    funext values cell value
    rw [renew, renew, h.raw_eq]
  rw [renewed, renewed, hrenew, h.evaluator_eq, h.values]

theorem written (h : Alike left right) (cell : Cell) (text : String) :
    Alike (left.written cell text) (right.written cell text) where
  store := (TracelessStore.write h.store cell text).2
  graph := congrArg (·.write cell text) h.graph
  values := h.values
  arithmetic := h.arithmetic
  maxDepth := h.maxDepth

theorem edit (h : Alike left right) (cell : Cell) (text : String) :
    (left.edit cell text).1 = (right.edit cell text).1 ∧
      Alike (left.edit cell text).2 (right.edit cell text).2 := by
  obtain ⟨hresult, hstore⟩ := TracelessStore.write h.store cell text
  cases hright : (CellStore.write right.store cell text).1 with
  | error error =>
      rw [edit_of_error hright, edit_of_error (hresult.trans hright)]
      exact ⟨rfl, hstore, h.graph, h.values, h.arithmetic, h.maxDepth⟩
  | ok _ =>
      have hwritten := h.written cell text
      rw [edit_of_ok hright, edit_of_ok (hresult.trans hright), hwritten.recalculation_eq,
        hwritten.renewed_eq, hwritten.graph]
      exact ⟨rfl, hwritten.store, hwritten.graph, rfl, h.arithmetic, h.maxDepth⟩

theorem editByName (h : Alike left right) (name text : String) :
    (left.editByName name text).1 = (right.editByName name text).1 ∧
      Alike (left.editByName name text).2 (right.editByName name text).2 := by
  unfold Sheet.editByName
  cases Cell.ofName? name with
  | none => exact ⟨rfl, h⟩
  | some cell => exact h.edit cell text

theorem value_eq (h : Alike left right) : left.value = right.value := by
  funext cell
  rw [value, value, h.values]

theorem display_eq (h : Alike left right) : left.display = right.display := by
  funext cell
  rw [display, display, h.value_eq]

theorem dependentsOf_eq (h : Alike left right) : left.dependentsOf = right.dependentsOf := by
  funext cell
  rw [dependentsOf, dependentsOf, h.graph]

theorem computedCells_eq (h : Alike left right) : left.computedCells = right.computedCells := by
  rw [computedCells, computedCells, h.values]

theorem evaluateFormula_eq (h : Alike left right) :
    left.evaluateFormula = right.evaluateFormula := by
  funext text
  rw [evaluateFormula, evaluateFormula, h.evaluator_eq]

theorem reopen (h : Alike left right) (access : Access) :
    (left.respond (.reopen access)).1 = (right.respond (.reopen access)).1 ∧
      Alike (left.respond (.reopen access)).2 (right.respond (.reopen access)).2 := by
  unfold respond
  dsimp only
  obtain ⟨error, hleft, hright⟩ | ⟨leftAgain, rightAgain, hleft, hright, hagain⟩ :=
    TracelessStore.reopen h.store access
  · rw [hleft, hright]
    exact ⟨rfl, h⟩
  · rw [hleft, hright]
    exact ⟨rfl, load ⟨hagain, rfl, rfl, h.arithmetic, h.maxDepth⟩⟩

/-- A call is answered alike and leaves the sheets alike. -/
theorem respond (h : Alike left right) (call : Call (ExposedStore.Incident Store)) :
    (left.respond call).1 = (right.respond call).1 ∧
      Alike (left.respond call).2 (right.respond call).2 := by
  cases call with
  | edit cell text =>
      obtain ⟨hresult, hafter⟩ := h.edit cell text
      exact ⟨congrArg Answer.edited hresult, hafter⟩
  | editByName name text =>
      obtain ⟨hresult, hafter⟩ := h.editByName name text
      exact ⟨congrArg Answer.edited hresult, hafter⟩
  | clear cell =>
      obtain ⟨hresult, hafter⟩ := h.edit cell ""
      exact ⟨congrArg Answer.edited hresult, hafter⟩
  | load => exact ⟨rfl, h.load⟩
  | raw cell => exact ⟨congrArg Answer.text (congrFun h.raw_eq cell), h⟩
  | value cell => exact ⟨congrArg Answer.value (congrFun h.value_eq cell), h⟩
  | display cell => exact ⟨congrArg Answer.text (congrFun h.display_eq cell), h⟩
  | dependentsOf cell => exact ⟨congrArg Answer.cells (congrFun h.dependentsOf_eq cell), h⟩
  | computedCells => exact ⟨congrArg Answer.computed h.computedCells_eq, h⟩
  | evaluateFormula text => exact ⟨congrArg Answer.value (congrFun h.evaluateFormula_eq text), h⟩
  | file => exact ⟨congrArg Answer.file (TracelessStore.file_eq h.store), h⟩
  | reopen access => exact h.reopen access
  | incident incident =>
      exact ⟨rfl, TracelessStore.befall h.store incident, h.graph, h.values, h.arithmetic,
        h.maxDepth⟩

theorem answers_eq (h : Alike left right) (calls : List (Call (ExposedStore.Incident Store))) :
    left.answers calls = right.answers calls := by
  induction calls generalizing left right with
  | nil => rfl
  | cons call rest ih =>
      obtain ⟨hanswer, hafter⟩ := h.respond call
      rw [answers, answers, hanswer, ih hafter]

theorem indistinguishable (h : Alike left right) : left.Indistinguishable right where
  raw := h.raw_eq
  computedCells := h.computedCells_eq
  dependentsOf := h.dependentsOf_eq
  evaluateFormula := h.evaluateFormula_eq
  file := TracelessStore.file_eq h.store
  answers := h.answers_eq

end Alike

theorem alike_edit_of_error {cell : Cell} {text : String} {error : EditError}
    (h : (sheet.edit cell text).1 = .error error) : Alike (sheet.edit cell text).2 sheet := by
  cases hwrite : (CellStore.write sheet.store cell text).1 with
  | error refusal =>
      rw [edit_of_error hwrite]
      exact ⟨TracelessStore.alike_of_error hwrite, rfl, rfl, rfl, rfl⟩
  | ok _ =>
      rw [edit_of_ok hwrite] at h
      cases h

/-- A call that refuses an edit leaves the sheet alike. -/
theorem alike_of_refused {call : Call (ExposedStore.Incident Store)} {error : EditError}
    (h : (sheet.respond call).1 = .edited (.error error)) : Alike (sheet.respond call).2 sheet := by
  cases call with
  | edit cell text => exact alike_edit_of_error (Answer.edited.inj h)
  | editByName name text =>
      have hrefused := Answer.edited.inj h
      change Alike (sheet.editByName name text).2 sheet
      unfold editByName at hrefused ⊢
      cases hcell : Cell.ofName? name with
      | none => exact ⟨TracelessStore.refl sheet.store, rfl, rfl, rfl, rfl⟩
      | some cell =>
          rw [hcell] at hrefused
          exact alike_edit_of_error hrefused
  | clear cell => exact alike_edit_of_error (Answer.edited.inj h)
  | reopen access =>
      unfold respond at h
      dsimp only at h
      split at h <;> cases h
  | _ => cases h

/-- An edit that fails leaves no trace, whether the name is that of no cell, the store may not be
written or the file cannot be replaced: nothing that is asked of the sheet afterwards, now or after
any calls, shows that it was tried. -/
theorem failed_edits_leave_no_trace :
    (∀ (sheet : Sheet MemoryStore) call error,
      (sheet.respond call).1 = .edited (.error error) →
        (sheet.respond call).2.Indistinguishable sheet ∧
        (sheet.respond call).2.store = sheet.store) ∧
    ∀ (sheet : Sheet FileStore) call error,
      (sheet.respond call).1 = .edited (.error error) →
        (sheet.respond call).2.Indistinguishable sheet ∧
        (sheet.respond call).2.store.disk.AgreesAt sheet.store.disk sheet.store.path := by
  constructor
  · intro sheet call error hrefused
    have halike := alike_of_refused hrefused
    exact ⟨halike.indistinguishable, halike.store⟩
  · intro sheet call error hrefused
    have halike := alike_of_refused hrefused
    obtain ⟨hpath, -, -, hdisk⟩ : FileStore.Alike _ _ := halike.store
    exact ⟨halike.indistinguishable, hpath ▸ hdisk.agreesAt⟩

/-- A sheet at a path that leads to no file, as there is no directory `s.grd`. The file beside it
would be `s.grd.tmp`. -/
def unplacedSheet : Sheet FileStore :=
  ofStore { path := "s.grd/", texts := ∅, access := .writable, disk := Disk.ofFiles ["home"] [] } 3
    Arithmetic.evaluate

theorem failed_edits_leave_no_trace_of_unplaced :
    (unplacedSheet.respond (.edit (inColumnA 0) "1")).1 = .edited (.error (.store .io)) ∧
    ["home", "s.grd.tmp"] ∈
      (unplacedSheet.respond (.edit (inColumnA 0) "1")).2.store.disk.files ∧
    (unplacedSheet.respond (.edit (inColumnA 0) "1")).2.Indistinguishable unplacedSheet := by
  have hwrite : (CellStore.write unplacedSheet.store (inColumnA 0) "1").1 = .error .io := by
    decide +kernel
  have hedit := edit_of_error hwrite
  have hrefused : (unplacedSheet.respond (.edit (inColumnA 0) "1")).1 =
      .edited (.error (.store .io)) :=
    congrArg (Answer.edited ∘ Prod.fst) hedit
  refine ⟨hrefused, ?_, (failed_edits_leave_no_trace.2 _ _ _ hrefused).1⟩
  change _ ∈ (unplacedSheet.edit (inColumnA 0) "1").2.store.disk.files
  rw [hedit]
  decide +kernel

end Sheet

end Spreadsheet
