import Spreadsheet.CommandLine.Outcome
import Spreadsheet.Proofs.FileStore
import Spreadsheet.Proofs.Recalculation

/-!
# One run or many

A run works out its sheet from the disk alone, and the sheet that it leaves is the one that its disk
gives again. So edits may be made in one run or each in a run of its own.
-/

namespace Spreadsheet

open Disk (Apart KeepsBeside)

/-! ### One edit -/

namespace Sheet

variable {Store : Type} [CellStore Store] (sheet : Sheet Store) (cell : Cell) (raw : String)

/-- An edit changes a store, and nothing else that a sheet is opened with. -/
theorem edit_keeps :
    (sheet.edit cell raw).2.store = (CellStore.write sheet.store cell raw).2 ∧
      (sheet.edit cell raw).2.maxDepth = sheet.maxDepth ∧
      (sheet.edit cell raw).2.arithmetic = sheet.arithmetic := by
  cases hwrite : (CellStore.write sheet.store cell raw).1 with
  | error error =>
      rw [edit_of_error hwrite]
      exact ⟨rfl, rfl, rfl⟩
  | ok _ =>
      rw [edit_of_ok hwrite]
      exact ⟨rfl, rfl, rfl⟩

end Sheet

namespace CommandLine

/-! ### Settings -/

def settingsPath? (arguments : Arguments) (ownFile : Option String) : Option String :=
  if arguments.ignoresSettings then none else arguments.settingsFile <|> ownFile

variable {arguments : Arguments} {disk other : Disk} {ownFile : Option String}

theorem load_settings_congr {path : String} (h : disk.AgreesAt other path) :
    Settings.load disk path = Settings.load other path := by
  unfold Settings.load
  rw [h.1, h.readText?_eq]

theorem settle_congr
    (h : ∀ path ∈ settingsPath? arguments ownFile, disk.AgreesAt other path) :
    settle arguments disk ownFile = settle arguments other ownFile := by
  have hbase : baseSettings arguments disk ownFile = baseSettings arguments other ownFile := by
    unfold settingsPath? at h
    unfold baseSettings
    cases hignores : arguments.ignoresSettings with
    | true => rfl
    | false =>
        rw [hignores] at h
        cases hfile : arguments.settingsFile with
        | some path =>
            have hagrees : disk.AgreesAt other path := h path (by simp [hfile])
            simp only [hagrees.1, load_settings_congr hagrees]
        | none =>
            cases ownFile with
            | none => rfl
            | some path =>
                have hagrees : disk.AgreesAt other path := h path (by simp [hfile])
                simp only [load_settings_congr hagrees]
  unfold settle
  rw [hbase]

/-! ### The sheet of a run -/

def openSheet (arguments : Arguments) (path : String) (disk : Disk) (ownFile : Option String) :
    Except Failure (Sheet FileStore) :=
  match settle arguments disk ownFile with
  | .error failure => .error failure
  | .ok settings =>
    match FileStore.open disk path settings.access with
    | .error error => .error (.opening path error)
    | .ok store => .ok (Sheet.ofStore store settings.maxDepth Arithmetic.evaluate)

theorem run_eq {path : String} (hfile : arguments.file = some path) :
    run arguments disk ownFile =
      match openSheet arguments path disk ownFile with
      | .error failure => (.error failure, disk)
      | .ok sheet => ((runOn sheet arguments).1, (runOn sheet arguments).2.store.disk) := by
  unfold run openSheet
  cases settle arguments disk ownFile with
  | error failure => rfl
  | ok settings =>
      dsimp only
      unfold runWith
      rw [hfile]
      dsimp only
      cases FileStore.open disk path settings.access <;> rfl

/-- A sheet that its own disk gives again under some settings. -/
structure Reopens (settings : Settings) (path : String) (sheet : Sheet FileStore) : Prop where
  upToDate : sheet.UpToDate
  inStep : sheet.store.InStep
  path_eq : sheet.store.path = path
  access_eq : sheet.store.access = settings.access
  maxDepth_eq : sheet.maxDepth = settings.maxDepth
  arithmetic_eq : sheet.arithmetic = Arithmetic.evaluate

namespace Reopens

variable {settings : Settings} {path : String} {sheet : Sheet FileStore}

theorem ofStore {store : FileStore} (hopen : FileStore.open disk path settings.access = .ok store) :
    Reopens settings path (Sheet.ofStore store settings.maxDepth Arithmetic.evaluate) where
  upToDate := Sheet.upToDate_load (FileStore.wellFormed_of_open hopen)
  inStep := FileStore.inStep_of_open_eq hopen
  path_eq := (FileStore.load_of_open_eq hopen).2.2
  access_eq := by
    rw [FileStore.open_of_load_eq (FileStore.load_of_open_eq hopen).1] at hopen
    exact (congrArg FileStore.access (Except.ok.inj hopen)).symm
  maxDepth_eq := rfl
  arithmetic_eq := rfl

theorem of_openSheet_eq (h : openSheet arguments path disk ownFile = .ok sheet) :
    ∃ settings, Reopens settings path sheet ∧ settle arguments disk ownFile = .ok settings ∧
      sheet.store.disk = disk := by
  unfold openSheet at h
  cases hsettle : settle arguments disk ownFile with
  | error failure =>
      rw [hsettle] at h
      cases h
  | ok settings =>
      rw [hsettle] at h
      dsimp only at h
      cases hopen : FileStore.open disk path settings.access with
      | error error =>
          rw [hopen] at h
          cases h
      | ok store =>
          rw [hopen] at h
          obtain rfl := Except.ok.inj h
          exact ⟨settings, .ofStore hopen, rfl, (FileStore.load_of_open_eq hopen).2.1⟩

theorem openSheet_eq (h : Reopens settings path sheet)
    (hsettings : settle arguments sheet.store.disk ownFile = .ok settings) :
    openSheet arguments path sheet.store.disk ownFile = .ok sheet := by
  have hload : sheet = Sheet.ofStore sheet.store settings.maxDepth Arithmetic.evaluate := by
    rw [← h.maxDepth_eq, ← h.arithmetic_eq]
    exact h.upToDate.eq_load
  have hopen : FileStore.open sheet.store.disk path settings.access = .ok sheet.store := by
    rw [← h.path_eq, ← h.access_eq]
    exact FileStore.open_of_load_eq h.inStep.load_eq _
  unfold openSheet
  rw [hsettings]
  dsimp only
  rw [hopen]
  exact congrArg Except.ok hload.symm

theorem edit (h : Reopens settings path sheet) {cell : Cell} (hcell : cell.BelowLastRow)
    (raw : String) : Reopens settings path (sheet.edit cell raw).2 := by
  obtain ⟨hstore, hdepth, harithmetic⟩ := sheet.edit_keeps cell raw
  refine ⟨h.upToDate.edit cell raw, ?_, ?_, ?_, ?_, ?_⟩
  · rw [hstore]
    exact h.inStep.write hcell raw
  · rw [hstore]
    exact (sheet.store.path_write cell raw).trans h.path_eq
  · rw [hstore]
    exact (sheet.store.access_write cell raw).trans h.access_eq
  · exact hdepth.trans h.maxDepth_eq
  · exact harithmetic.trans h.arithmetic_eq

theorem editByName (h : Reopens settings path sheet) (name raw : String) :
    Reopens settings path (sheet.editByName name raw).2 ∧
      KeepsBeside path sheet.store.disk (sheet.editByName name raw).2.store.disk := by
  unfold Sheet.editByName
  cases hcell : Cell.ofName? name with
  | none => exact ⟨h, .refl path _⟩
  | some cell =>
      refine ⟨h.edit (Cell.belowLastRow_of_ofName?_eq_some hcell) raw, ?_⟩
      dsimp only
      rw [(sheet.edit_keeps cell raw).1, ← h.path_eq]
      exact sheet.store.write_keepsBeside cell raw

end Reopens

/-! ### Edits in turn -/

theorem makeEdits_append {Store : Type} [CellStore Store] (sheet : Sheet Store)
    (before after : List String) :
    makeEdits sheet (before ++ after) =
      match makeEdits sheet before with
      | (.error failure, sheet) => (.error failure, sheet)
      | (.ok (), sheet) => makeEdits sheet after := by
  induction before generalizing sheet with
  | nil => rfl
  | cons text rest ih =>
      rw [List.cons_append, makeEdits, makeEdits]
      cases Edit.ofText? text with
      | none => rfl
      | some edit =>
          dsimp only
          rcases sheet.editByName edit.name edit.raw with ⟨error | recalculation, edited⟩
          · rfl
          · exact ih edited

section Append

variable {Store : Type} [CellStore Store] {sheet : Sheet Store} {before : List String}

theorem makeEdits_append_of_ok (h : (makeEdits sheet before).1 = .ok ()) (after : List String) :
    makeEdits sheet (before ++ after) = makeEdits (makeEdits sheet before).2 after := by
  rw [makeEdits_append]
  rcases hanswer : makeEdits sheet before with ⟨result, edited⟩
  rw [hanswer] at h
  obtain rfl : result = .ok () := h
  rfl

theorem makeEdits_append_of_error {failure : Failure}
    (h : (makeEdits sheet before).1 = .error failure) (after : List String) :
    makeEdits sheet (before ++ after) = makeEdits sheet before := by
  rw [makeEdits_append]
  rcases hanswer : makeEdits sheet before with ⟨result, edited⟩
  rw [hanswer] at h
  obtain rfl : result = .error failure := h
  rfl

end Append

theorem agreesAt_of_error {sheet : Sheet FileStore} {text : String} {failure : Failure}
    (h : (makeEdits sheet [text]).1 = .error failure) :
    (makeEdits sheet [text]).2.store.disk.AgreesAt sheet.store.disk sheet.store.path := by
  unfold makeEdits at h ⊢
  cases hedit : Edit.ofText? text with
  | none => exact .refl _ _
  | some edit =>
      rw [hedit] at h
      dsimp only at h ⊢
      unfold Sheet.editByName at h ⊢
      cases hcell : Cell.ofName? edit.name with
      | none => exact .refl _ _
      | some cell =>
          rw [hcell] at h
          dsimp only at h ⊢
          rcases sheet.store.write_outcomes cell edit.raw with
            ⟨disk, hwrite, -⟩ | ⟨error, disk, hwrite, hagrees⟩
          · have hok : (CellStore.write sheet.store cell edit.raw).1 = .ok () :=
              congrArg Prod.fst hwrite
            rw [Sheet.edit_of_ok hok] at h
            cases h
          · have herror : (CellStore.write sheet.store cell edit.raw).1 = .error error :=
              congrArg Prod.fst hwrite
            rw [Sheet.edit_of_error herror]
            dsimp only
            change (sheet.store.write cell edit.raw).2.disk.AgreesAt _ _
            rw [hwrite]
            exact hagrees

theorem Reopens.makeEdits {settings : Settings} {path : String} {sheet : Sheet FileStore}
    (h : Reopens settings path sheet) (edits : List String) :
    Reopens settings path (makeEdits sheet edits).2 ∧
      KeepsBeside path sheet.store.disk (CommandLine.makeEdits sheet edits).2.store.disk := by
  induction edits generalizing sheet with
  | nil => exact ⟨h, .refl path _⟩
  | cons text rest ih =>
      unfold CommandLine.makeEdits
      cases Edit.ofText? text with
      | none => exact ⟨h, .refl path _⟩
      | some edit =>
          have hedit := h.editByName edit.name edit.raw
          dsimp only
          generalize sheet.editByName edit.name edit.raw = answer at hedit ⊢
          obtain ⟨hreopens, hkeeps⟩ := hedit
          rcases answer with ⟨error | recalculation, edited⟩
          · exact ⟨hreopens, hkeeps⟩
          · obtain ⟨hlast, hrest⟩ := ih hreopens
            exact ⟨hlast, hkeeps.trans hrest⟩

/-! ### Runs in turn -/

/-- A sheet that any run with the same arguments opens from the disk of the sheet. The settings file
is no file that an edit touches. -/
structure Session (arguments : Arguments) (ownFile : Option String) (path : String)
    (sheet : Sheet FileStore) : Prop where
  reopens : ∃ settings, Reopens settings path sheet ∧
    settle arguments sheet.store.disk ownFile = .ok settings
  apart : ∀ elsewhere ∈ settingsPath? arguments ownFile, sheet.store.disk.Apart path elsewhere

namespace Session

variable {path : String} {sheet : Sheet FileStore}

theorem of_openSheet_eq
    (hapart : ∀ elsewhere ∈ settingsPath? arguments ownFile, disk.Apart path elsewhere)
    (h : openSheet arguments path disk ownFile = .ok sheet) :
    Session arguments ownFile path sheet ∧ sheet.store.disk = disk := by
  obtain ⟨settings, hreopens, hsettle, rfl⟩ := Reopens.of_openSheet_eq h
  exact ⟨⟨⟨settings, hreopens, hsettle⟩, hapart⟩, rfl⟩

theorem openSheet_eq (h : Session arguments ownFile path sheet) :
    openSheet arguments path sheet.store.disk ownFile = .ok sheet := by
  obtain ⟨⟨settings, hreopens, hsettle⟩, -⟩ := h
  exact hreopens.openSheet_eq hsettle

theorem makeEdits (h : Session arguments ownFile path sheet) (edits : List String) :
    Session arguments ownFile path (makeEdits sheet edits).2 := by
  obtain ⟨⟨settings, hreopens, hsettle⟩, hapart⟩ := h
  obtain ⟨hlast, hkeeps⟩ := hreopens.makeEdits edits
  refine ⟨⟨settings, hlast, ?_⟩, fun elsewhere hown => hkeeps.apart (hapart elsewhere hown)⟩
  rw [← hsettle]
  exact settle_congr fun elsewhere hown => hkeeps.agreesAt (hapart elsewhere hown)

end Session

def runEdits (arguments : Arguments) (ownFile : Option String) (edits : List String)
    (disk : Disk) : Outcome :=
  .ofRun (run { arguments with edits } disk ownFile)

def afterEach (arguments : Arguments) (ownFile : Option String) (edits : List String)
    (disk : Disk) : Disk :=
  edits.foldl (fun disk text => (runEdits arguments ownFile [text] disk).disk) disk

/-- Each edit succeeds in a run of its own, on the disk that the runs before it leave. -/
def EachSucceeds (arguments : Arguments) (ownFile : Option String) : List String → Disk → Prop
  | [], _ => True
  | text :: rest, disk =>
    (runEdits arguments ownFile [text] disk).code = 0 ∧
      EachSucceeds arguments ownFile rest (runEdits arguments ownFile [text] disk).disk

section File

variable {path : String} (hfile : arguments.file = some path) (hformula : arguments.formula = none)

include hfile hformula

theorem runEdits_eq (edits : List String) (disk : Disk) :
    runEdits arguments ownFile edits disk =
      match openSheet arguments path disk ownFile with
      | .error failure => .ofRun (.error failure, disk)
      | .ok sheet =>
        match makeEdits sheet edits with
        | (.error failure, sheet) => .ofRun (.error failure, sheet.store.disk)
        | (.ok (), sheet) => .ofRun (.ok (cellsReport sheet), sheet.store.disk) := by
  have hfile' : { arguments with edits : Arguments }.file = some path := hfile
  have hopen : openSheet { arguments with edits } path disk ownFile =
      openSheet arguments path disk ownFile := rfl
  unfold runEdits
  rw [run_eq hfile', hopen]
  cases openSheet arguments path disk ownFile with
  | error failure => rfl
  | ok sheet =>
      dsimp only
      unfold runOn
      dsimp only
      rcases makeEdits sheet edits with ⟨failure | _, last⟩
      · rfl
      · simp only [hformula]

theorem runEdits_of_error {sheet : Sheet FileStore} {edits : List String} {failure : Failure}
    (hopen : openSheet arguments path disk ownFile = .ok sheet)
    (herror : (makeEdits sheet edits).1 = .error failure) :
    runEdits arguments ownFile edits disk =
      .ofRun (.error failure, (makeEdits sheet edits).2.store.disk) := by
  rw [runEdits_eq hfile hformula, hopen]
  dsimp only
  rcases hanswer : makeEdits sheet edits with ⟨result, last⟩
  rw [hanswer] at herror
  obtain rfl : result = .error failure := herror
  rfl

theorem runEdits_of_ok {sheet : Sheet FileStore} {edits : List String}
    (hopen : openSheet arguments path disk ownFile = .ok sheet)
    (hok : (makeEdits sheet edits).1 = .ok ()) :
    runEdits arguments ownFile edits disk =
      .ofRun (.ok (cellsReport (makeEdits sheet edits).2),
        (makeEdits sheet edits).2.store.disk) := by
  rw [runEdits_eq hfile hformula, hopen]
  dsimp only
  rcases hanswer : makeEdits sheet edits with ⟨result, last⟩
  rw [hanswer] at hok
  obtain rfl : result = .ok () := hok
  rfl

variable
  (hsettings : ∀ elsewhere ∈ settingsPath? arguments ownFile, disk.Apart path elsewhere)

include hsettings

/-- After an edit that succeeds, a run goes on as a new run would on the disk left by then. -/
theorem runEdits_cons_of_code_eq_zero {text : String}
    (h : (runEdits arguments ownFile [text] disk).code = 0) :
    (∀ rest, runEdits arguments ownFile (text :: rest) disk =
      runEdits arguments ownFile rest (runEdits arguments ownFile [text] disk).disk) ∧
    ∀ elsewhere ∈ settingsPath? arguments ownFile,
      (runEdits arguments ownFile [text] disk).disk.Apart path elsewhere := by
  cases hopen : openSheet arguments path disk ownFile with
  | error failure =>
      rw [runEdits_eq hfile hformula, hopen] at h
      simp [Outcome.ofRun] at h
  | ok sheet =>
      obtain ⟨hsession, rfl⟩ := Session.of_openSheet_eq hsettings hopen
      cases hresult : (makeEdits sheet [text]).1 with
      | error failure =>
          rw [runEdits_of_error hfile hformula hopen hresult] at h
          simp [Outcome.ofRun] at h
      | ok _ =>
          have hlater := hsession.makeEdits [text]
          rw [runEdits_of_ok hfile hformula hopen hresult]
          refine ⟨fun rest => ?_, hlater.apart⟩
          rw [runEdits_eq hfile hformula, hopen, runEdits_eq hfile hformula]
          dsimp only [Outcome.ofRun]
          rw [hlater.openSheet_eq, ← List.singleton_append, makeEdits_append_of_ok hresult]

/-- A run ends with the first edit that fails, and has not touched the file with it. -/
theorem runEdits_cons_of_code_ne_zero {text : String}
    (h : (runEdits arguments ownFile [text] disk).code ≠ 0) (rest : List String) :
    runEdits arguments ownFile (text :: rest) disk = runEdits arguments ownFile [text] disk ∧
      (runEdits arguments ownFile [text] disk).code = 1 ∧
      (runEdits arguments ownFile [text] disk).output = "" ∧
      (runEdits arguments ownFile [text] disk).disk.AgreesAt disk path := by
  cases hopen : openSheet arguments path disk ownFile with
  | error failure =>
      rw [runEdits_eq hfile hformula, runEdits_eq hfile hformula, hopen]
      exact ⟨rfl, rfl, rfl, .refl disk path⟩
  | ok sheet =>
      obtain ⟨hsession, rfl⟩ := Session.of_openSheet_eq hsettings hopen
      cases hresult : (makeEdits sheet [text]).1 with
      | ok _ =>
          rw [runEdits_of_ok hfile hformula hopen hresult] at h
          simp [Outcome.ofRun, cellsReport] at h
      | error failure =>
          obtain ⟨⟨settings, hreopens, -⟩, -⟩ := hsession
          have happend := makeEdits_append_of_error hresult rest
          rw [List.singleton_append] at happend
          rw [runEdits_of_error hfile hformula hopen (happend ▸ hresult), happend,
            runEdits_of_error hfile hformula hopen hresult]
          refine ⟨rfl, rfl, rfl, ?_⟩
          rw [← hreopens.path_eq]
          exact agreesAt_of_error hresult

/-- Runs in turn are one run, as long as all of them but the last succeed. -/
theorem runEdits_append {before : List String} (h : EachSucceeds arguments ownFile before disk)
    (after : List String) :
    runEdits arguments ownFile (before ++ after) disk =
        runEdits arguments ownFile after (afterEach arguments ownFile before disk) ∧
      ∀ elsewhere ∈ settingsPath? arguments ownFile,
        (afterEach arguments ownFile before disk).Apart path elsewhere := by
  induction before generalizing disk with
  | nil => exact ⟨rfl, hsettings⟩
  | cons text rest ih =>
      obtain ⟨hfirst, hrest⟩ := h
      obtain ⟨hcons, hapart⟩ := runEdits_cons_of_code_eq_zero hfile hformula hsettings hfirst
      rw [List.cons_append, hcons]
      exact ih hapart hrest

end File

theorem eachSucceeds_append {before after : List String} :
    EachSucceeds arguments ownFile (before ++ after) disk ↔
      EachSucceeds arguments ownFile before disk ∧
        EachSucceeds arguments ownFile after (afterEach arguments ownFile before disk) := by
  induction before generalizing disk with
  | nil => simp [EachSucceeds, afterEach]
  | cons text rest ih =>
      rw [List.cons_append, EachSucceeds, EachSucceeds, ih, and_assoc]
      rfl

/-- Edits made in one run come to the same as each in a run of its own. When all of them succeed,
that run leaves the disk and shows the cells that the last of the others does, and a further run
without edits shows them again. Otherwise it fails as the first of the others that fails, and the
file stands as the runs before that one left it. -/
theorem runEdits_eq_runs_in_turn (arguments : Arguments) (ownFile : Option String) (path : String)
    (disk : Disk) (hfile : arguments.file = some path) (hformula : arguments.formula = none)
    (hsettings : ∀ elsewhere ∈ settingsPath? arguments ownFile, disk.Apart path elsewhere) :
    (∀ before last, EachSucceeds arguments ownFile (before ++ [last]) disk →
      let all := runEdits arguments ownFile (before ++ [last]) disk
      all.code = 0 ∧ all.disk = afterEach arguments ownFile (before ++ [last]) disk ∧
        all = runEdits arguments ownFile [last] (afterEach arguments ownFile before disk) ∧
        runEdits arguments ownFile [] all.disk = all) ∧
    ∀ before text rest, EachSucceeds arguments ownFile before disk →
      let left := afterEach arguments ownFile before disk
      (runEdits arguments ownFile [text] left).code ≠ 0 →
        let all := runEdits arguments ownFile (before ++ text :: rest) disk
        all.code = 1 ∧ all.output = "" ∧ all = runEdits arguments ownFile [text] left ∧
          all.disk.AgreesAt left path := by
  refine ⟨fun before last heach => ?_, fun before text rest heach => ?_⟩
  · obtain ⟨hbefore, hlast, -⟩ := eachSucceeds_append.mp heach
    obtain ⟨hall, -⟩ := runEdits_append hfile hformula hsettings hbefore [last]
    have hdisk : afterEach arguments ownFile (before ++ [last]) disk =
        (runEdits arguments ownFile (before ++ [last]) disk).disk := by
      rw [hall, afterEach, List.foldl_append]
      rfl
    obtain ⟨hagain, -⟩ := runEdits_append hfile hformula hsettings heach []
    rw [List.append_nil, hdisk] at hagain
    exact ⟨hall ▸ hlast, hdisk.symm, hall, hagain.symm⟩
  · intro left hfails
    obtain ⟨hall, hapart⟩ := runEdits_append hfile hformula hsettings heach (text :: rest)
    obtain ⟨hfirst, hcode, houtput, hagrees⟩ :=
      runEdits_cons_of_code_ne_zero hfile hformula hapart hfails rest
    rw [hall, hfirst]
    exact ⟨hcode, houtput, rfl, hagrees⟩

def sharedDisk : Disk :=
  Disk.ofFiles ["home"]
    [("s.grd", "A1: x\n".toUTF8), ("own.toml", "engine.max_depth = 8\n".toUTF8)]

theorem runEdits_of_bad_name_in_turn :
    let arguments : Arguments := { file := some "s.grd" }
    let left := afterEach arguments (some "own.toml") ["B2=y", "A1="] sharedDisk
    (∀ elsewhere ∈ settingsPath? arguments (some "own.toml"),
      sharedDisk.Apart "s.grd" elsewhere) ∧
    EachSucceeds arguments (some "own.toml") ["B2=y", "A1="] sharedDisk ∧
    (runEdits arguments (some "own.toml") ["A0=z"] left).code ≠ 0 ∧
    runEdits arguments (some "own.toml") ["B2=y", "A1=", "A0=z", "C1=w"] sharedDisk =
      runEdits arguments (some "own.toml") ["A0=z"] left := by
  intro arguments left
  have hsettings : ∀ elsewhere ∈ settingsPath? arguments (some "own.toml"),
      sharedDisk.Apart "s.grd" elsewhere := by
    intro elsewhere hown place hplace
    obtain rfl : elsewhere = "own.toml" := by simpa [settingsPath?, arguments, eq_comm] using hown
    have hlocate : sharedDisk.locate "own.toml" = some (.entry ["home", "own.toml"]) := by
      decide +kernel
    obtain rfl : ["home", "own.toml"] = place := by simpa [hlocate] using hplace
    decide +kernel
  have heach : EachSucceeds arguments (some "own.toml") ["B2=y", "A1="] sharedDisk :=
    ⟨by decide +kernel, by decide +kernel, trivial⟩
  have hfails : (runEdits arguments (some "own.toml") ["A0=z"] left).code ≠ 0 := by decide +kernel
  exact ⟨hsettings, heach, hfails, ((runEdits_eq_runs_in_turn arguments (some "own.toml") "s.grd"
    sharedDisk rfl rfl hsettings).2 ["B2=y", "A1="] "A0=z" ["C1=w"] heach hfails).2.2.1⟩

end CommandLine

end Spreadsheet
