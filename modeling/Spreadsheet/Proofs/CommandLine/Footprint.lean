import Spreadsheet.Proofs.CommandLine.Sessions
import Spreadsheet.Proofs.Disk.Beside

/-!
# What a run touches

Every write of a run replaces the sheet file by way of the file beside it. However often that
succeeds, it comes to the same as once: the last content stands at the path, and there is no file
beside it. A file that stood beside it before the run is lost.
-/

namespace Spreadsheet

namespace Disk

variable {disk before middle after : Disk} {path : String} {bytes : ByteArray} {place : List String}

inductive AfterReplacing (path : String) (before : Disk) : Disk → Prop where
  | never : AfterReplacing path before before
  | last {source target : List String} (bytes : ByteArray)
    (hsource : before.locate (Path.temporary path) = some (.entry source))
    (htarget : before.locate path = some (.entry target)) :
    AfterReplacing path before
      { before with files := (before.files.erase source).insert target bytes }

theorem afterReplacing_replace (h : (disk.replace path bytes).1 = true) :
    AfterReplacing path disk (disk.replace path bytes).2 := by
  obtain ⟨⟨source, hsource⟩, target, htarget⟩ := replace_succeeds_iff.mp h
  have hfiles : (disk.files.insert source bytes).erase source = disk.files.erase source := by
    apply Std.ExtTreeMap.ext_getElem?
    intro place
    rw [Std.ExtTreeMap.getElem?_erase, Std.ExtTreeMap.getElem?_erase,
      Std.ExtTreeMap.getElem?_insert]
    split <;> rfl
  rw [replace_of_entry hsource htarget, hfiles]
  exact .last bytes hsource htarget

namespace AfterReplacing

theorem locate_eq (h : AfterReplacing path before after) (elsewhere : String) :
    after.locate elsewhere = before.locate elsewhere := by
  cases h with
  | never => rfl
  | last => exact before.locate_files _ elsewhere

theorem trans (hfirst : AfterReplacing path before middle)
    (hlast : AfterReplacing path middle after) : AfterReplacing path before after := by
  have hlocate := hfirst.locate_eq
  cases hlast with
  | never => exact hfirst
  | @last source target bytes hsource htarget =>
      rw [hlocate] at hsource htarget
      cases hfirst with
      | never => exact .last bytes hsource htarget
      | @last source' target' former hsource' htarget' =>
          obtain rfl : source' = source := by simpa [hsource'] using hsource
          obtain rfl : target' = target := by simpa [htarget'] using htarget
          have hfiles :
              (((before.files.erase source').insert target' former).erase source').insert target'
                bytes = (before.files.erase source').insert target' bytes := by
            apply Std.ExtTreeMap.ext_getElem?
            intro place
            simp only [Std.ExtTreeMap.getElem?_insert, Std.ExtTreeMap.getElem?_erase]
            grind
          rw [hfiles]
          exact .last bytes hsource htarget

/-- The only file that can be new is the one at the path. -/
theorem mem_or_locate_eq (h : AfterReplacing path before after) (hmem : place ∈ after.files) :
    place ∈ before.files ∨ before.locate path = some (.entry place) := by
  cases h with
  | never => exact .inl hmem
  | last bytes hsource htarget =>
      obtain htarget' | hrest := Std.ExtTreeMap.mem_insert.mp hmem
      · obtain rfl := Std.LawfulEqCmp.eq_of_compare htarget'
        exact .inr htarget
      · exact .inl (Std.ExtTreeMap.mem_of_mem_erase hrest)

/-- Nothing was written, or what stood beside the path is gone. -/
theorem eq_or_gone (h : AfterReplacing path before after) :
    after = before ∨
      ∀ place, before.locate (Path.temporary path) = some (.entry place) →
        place ∉ after.files := by
  cases h with
  | never => exact .inl rfl
  | @last source target bytes hsource htarget =>
      refine .inr fun place hplace => ?_
      obtain rfl : source = place := by simpa [hsource] using hplace
      obtain ⟨name, hname, hlast⟩ := fileName?_of_locate htarget
      have hne : source ≠ target := locate_temporary_ne hsource (hname.trans hlast.symm)
      simp [Std.ExtTreeMap.mem_insert, Std.ExtTreeMap.mem_erase, hne.symm]

end AfterReplacing

end Disk

open Disk (AfterReplacing KeepsBeside)

/-! ### Edits -/

theorem FileStore.afterReplacing_write {store : FileStore} {cell : Cell} {raw : String}
    (h : (store.write cell raw).1 ≠ .error .io) :
    AfterReplacing store.path store.disk (store.write cell raw).2.disk := by
  cases haccess : store.access with
  | readOnly =>
      unfold write
      rw [haccess]
      exact .never
  | writable =>
      rw [write_of_writable haccess] at h ⊢
      split at h
      · rename_i hreplaced
        rw [if_pos hreplaced]
        exact Disk.afterReplacing_replace hreplaced
      · exact absurd rfl h

theorem Sheet.afterReplacing_editByName {sheet : Sheet FileStore} {name raw : String}
    (h : (sheet.editByName name raw).1 ≠ .error (.store .io)) :
    (sheet.editByName name raw).2.store.path = sheet.store.path ∧
      AfterReplacing sheet.store.path sheet.store.disk
        (sheet.editByName name raw).2.store.disk := by
  unfold editByName at h ⊢
  cases hcell : Cell.ofName? name with
  | none => exact ⟨rfl, .never⟩
  | some cell =>
      rw [hcell] at h
      dsimp only at h ⊢
      rw [(sheet.edit_keeps cell raw).1]
      refine ⟨sheet.store.path_write cell raw, FileStore.afterReplacing_write fun herror => h ?_⟩
      rw [Sheet.edit_of_error herror]

namespace CommandLine

variable {arguments : Arguments} {disk : Disk} {ownFile : Option String}

theorem afterReplacing_makeEdits {sheet : Sheet FileStore} {edits : List String}
    (h : ∀ name, (makeEdits sheet edits).1 ≠ .error (.edit name (.store .io))) :
    AfterReplacing sheet.store.path sheet.store.disk (makeEdits sheet edits).2.store.disk := by
  induction edits generalizing sheet with
  | nil => exact .never
  | cons text rest ih =>
      unfold makeEdits at h ⊢
      cases hedit : Edit.ofText? text with
      | none => exact .never
      | some edit =>
          rw [hedit] at h
          dsimp only at h ⊢
          have hstep := @Sheet.afterReplacing_editByName sheet edit.name edit.raw
          generalize sheet.editByName edit.name edit.raw = answer at h hstep ⊢
          rcases answer with ⟨error | recalculation, edited⟩
          · refine (hstep fun herror => h edit.name ?_).2
            cases herror
            rfl
          · obtain ⟨hpath, hfirst⟩ := hstep (by simp)
            exact hfirst.trans (hpath ▸ ih h)

theorem makeEdits_of_readOnly {sheet : Sheet FileStore} (h : sheet.store.access = .readOnly)
    (edits : List String) : (makeEdits sheet edits).2.store.disk = sheet.store.disk := by
  cases edits with
  | nil => rfl
  | cons text rest =>
      unfold makeEdits
      cases Edit.ofText? text with
      | none => rfl
      | some edit =>
          dsimp only
          unfold Sheet.editByName
          cases Cell.ofName? edit.name with
          | none => rfl
          | some cell =>
              have hrefused :
                  CellStore.write sheet.store cell edit.raw = (.error .readOnly, sheet.store) := by
                change sheet.store.write cell edit.raw = _
                unfold FileStore.write
                rw [h]
              dsimp only
              rw [Sheet.edit_of_error (congrArg Prod.fst hrefused)]
              dsimp only
              rw [hrefused]

/-! ### Runs -/

theorem runOn_eq {Store : Type} [CellStore Store] (sheet : Sheet Store) (arguments : Arguments) :
    (runOn sheet arguments).2 = (makeEdits sheet arguments.edits).2 ∧
      ∀ failure, (runOn sheet arguments).1 = .error failure ↔
        (makeEdits sheet arguments.edits).1 = .error failure := by
  unfold runOn
  rcases makeEdits sheet arguments.edits with ⟨failure | _, last⟩
  · exact ⟨rfl, fun other => by simp⟩
  · cases arguments.formula <;> exact ⟨rfl, fun other => by simp⟩

theorem run_of_no_file (h : arguments.file = none) : (run arguments disk ownFile).2 = disk := by
  unfold run
  cases settle arguments disk ownFile with
  | error failure => rfl
  | ok settings =>
      dsimp only
      rw [runWith, h]

theorem run_of_file (disk : Disk) (ownFile : Option String) {path : String}
    (hfile : arguments.file = some path) :
    KeepsBeside path disk (run arguments disk ownFile).2 ∧
      ((∀ name, (run arguments disk ownFile).1 ≠ .error (.edit name (.store .io))) →
        AfterReplacing path disk (run arguments disk ownFile).2) ∧
      ((run arguments disk ownFile).2 ≠ disk → arguments.edits ≠ [] ∧
        ∃ settings, settle arguments disk ownFile = .ok settings ∧
          settings.access = .writable) := by
  rw [run_eq hfile]
  cases hopen : openSheet arguments path disk ownFile with
  | error failure => exact ⟨.refl path disk, fun _ => .never, fun h => absurd rfl h⟩
  | ok sheet =>
      obtain ⟨settings, hreopens, hsettle, rfl⟩ := Reopens.of_openSheet_eq hopen
      obtain ⟨hdisk, herror⟩ := runOn_eq sheet arguments
      dsimp only
      rw [hdisk]
      refine ⟨(hreopens.makeEdits arguments.edits).2, fun hwrites => ?_, fun hchanged => ⟨?_, ?_⟩⟩
      · rw [← hreopens.path_eq]
        exact afterReplacing_makeEdits fun name hfails => hwrites name ((herror _).mpr hfails)
      · intro hnone
        rw [hnone] at hchanged
        exact hchanged rfl
      · refine ⟨settings, hsettle, ?_⟩
        cases haccess : settings.access with
        | writable => rfl
        | readOnly =>
            exact absurd (makeEdits_of_readOnly (hreopens.access_eq.trans haccess) _) hchanged

def sheetPath? (arguments : List String) : Option String :=
  (Arguments.read arguments).toOption.bind Arguments.file

/-- A run does not end with a write that the disk refuses. -/
def NoWriteFails (arguments : List String) (disk : Disk) (ownFile : Option String) : Prop :=
  ∀ given, Arguments.read arguments = .ok given →
    ∀ name, (run given disk ownFile).1 ≠ .error (.edit name (.store .io))

theorem outcome_cases (arguments : List String) (disk : Disk) (ownFile : Option String) :
    (∃ given, Arguments.read arguments = .ok given ∧
      (outcome arguments disk ownFile).disk = (run given disk ownFile).2) ∨
    (outcome arguments disk ownFile).disk = disk := by
  unfold outcome
  cases Arguments.read arguments with
  | ok given =>
      refine .inl ⟨given, rfl, ?_⟩
      dsimp only
      rcases run given disk ownFile with ⟨failure | report, left⟩ <;> rfl
  | error interruption => exact .inr (by cases interruption <;> rfl)

/-- Whatever it is called with, a run touches no file but its sheet file and the file beside that,
and none at all without an edit or without permission to write. Unless a write fails, no other file
is new afterwards, and if anything was written, there is no file beside the sheet file any more. -/
theorem run_touches_sheet_and_beside (arguments : List String) (disk : Disk)
    (ownFile : Option String) :
    let after := (outcome arguments disk ownFile).disk
    after.directories = disk.directories ∧ after.home = disk.home ∧
      (∀ place, (∀ path ∈ sheetPath? arguments, disk.locate path ≠ some (.entry place) ∧
          disk.locate (Path.temporary path) ≠ some (.entry place)) →
        after.files[place]? = disk.files[place]?) ∧
      (after ≠ disk → ∃ given settings, Arguments.read arguments = .ok given ∧
        given.edits ≠ [] ∧ settle given disk ownFile = .ok settings ∧
        settings.access = .writable) ∧
      (NoWriteFails arguments disk ownFile → after = disk ∨
        ∃ path ∈ sheetPath? arguments,
          (∀ place ∈ after.files, place ∈ disk.files ∨ disk.locate path = some (.entry place)) ∧
          ∀ place, disk.locate (Path.temporary path) = some (.entry place) →
            place ∉ after.files) := by
  intro after
  by_cases hsame : after = disk
  · rw [hsame]
    exact ⟨rfl, rfl, fun _ _ => rfl, fun hne => absurd rfl hne, fun _ => .inl rfl⟩
  · obtain ⟨given, hread, hafter⟩ :=
      (outcome_cases arguments disk ownFile).resolve_right hsame
    cases hfile : given.file with
    | none => exact absurd (hafter.trans (run_of_no_file hfile)) hsame
    | some path =>
        have hsheet : sheetPath? arguments = some path := by
          rw [sheetPath?, hread]
          exact hfile
        obtain ⟨hkeeps, hreplacing, hchanged⟩ := run_of_file disk ownFile hfile
        rw [← hafter] at hkeeps hreplacing hchanged
        obtain ⟨hedits, settings, hsettle, haccess⟩ := hchanged hsame
        refine ⟨hkeeps.directories, hkeeps.home, fun place happart => ?_,
          fun _ => ⟨given, settings, hread, hedits, hsettle, haccess⟩, fun hwrites => ?_⟩
        · obtain ⟨hpath, hbeside⟩ := happart path hsheet
          exact hkeeps.files place hpath hbeside
        · have hall := hreplacing (hwrites given hread)
          exact hall.eq_or_gone.imp_right fun hgone =>
            ⟨path, hsheet, fun place => hall.mem_or_locate_eq, hgone⟩

def besideDisk : Disk :=
  Disk.ofFiles ["home"] [("s.grd", "".toUTF8), ("s.grd.tmp", "keep".toUTF8)]

theorem file_beside_sheet_is_lost :
    let arguments := ["--no-config", "s.grd", "-s", "A1=x"]
    let after := (outcome arguments besideDisk none).disk
    sheetPath? arguments = some "s.grd" ∧ (outcome arguments besideDisk none).code = 0 ∧
      besideDisk.locate "s.grd.tmp" ≠ besideDisk.locate "s.grd" ∧
      (besideDisk.read? "s.grd.tmp").isSome ∧ after.read? "s.grd.tmp" = none := by
  decide +kernel

end CommandLine

end Spreadsheet
