import Spreadsheet.Proofs.Disk

/-!
# The file beside a file

A path leads to a file of the name that it ends in, whatever directories there are. The file that a
new content goes to first has another name, so what is left of it is never taken for the file itself.
-/

namespace Spreadsheet

namespace Path

variable {path name : String}

def fileName? (path : String) : Option String :=
  (names path).getLast?.filter fun name => !isStill name && name != ".."

theorem fileName?_eq_some_iff :
    fileName? path = some name ↔
      (names path).getLast? = some name ∧ isStill name = false ∧ name ≠ ".." := by
  unfold fileName?
  rw [Option.filter_eq_some_iff]
  simp

theorem not_mem_of_mem_splitOn {text part : List Char} {separator : Char}
    (h : part ∈ text.splitOn separator) : separator ∉ part := by
  induction text generalizing part with
  | nil =>
      rw [List.splitOn_nil, List.mem_singleton] at h
      rw [h]
      exact List.not_mem_nil
  | cons c rest ih =>
      rw [List.splitOn_cons_eq_if_modifyHead] at h
      split at h
      · obtain rfl | hrest := List.mem_cons.mp h
        · exact List.not_mem_nil
        · exact ih hrest
      · rename_i hc
        rw [beq_iff_eq] at hc
        cases hrest : rest.splitOn separator with
        | nil => exact absurd hrest (List.splitOn_ne_nil _ _)
        | cons first others =>
            rw [hrest] at h ih
            rw [List.modifyHead_cons] at h
            obtain rfl | hothers := List.mem_cons.mp h
            · exact List.not_mem_cons_of_ne_of_not_mem (Ne.symm hc) (ih List.mem_cons_self)
            · exact ih (List.mem_cons_of_mem _ hothers)

theorem mem_of_mem_stem {last : List Char} {c : Char} (h : c ∈ stem last) : c ∈ last := by
  unfold stem at h
  split at h
  · exact h
  · rename_i before hdrop
    have hsuffix := List.dropWhile_suffix (l := last.reverse) (· != '.')
    rw [hdrop] at hsuffix
    split at h
    · exact h
    · have hmem := hsuffix.subset (List.mem_cons_of_mem _ (List.mem_reverse.mp h))
      exact List.mem_reverse.mp hmem

theorem stem_append_extension (last : List Char) :
    stem (last ++ ".grd.tmp".toList) = last ++ ".grd".toList := by
  simp [stem]

theorem getLast?_names_ofList {directories : List (List Char)} {last : List Char}
    (hdirectories : ∀ part ∈ directories, '/' ∉ part) (hlast : '/' ∉ last) :
    (names (String.ofList (['/'].intercalate (directories ++ [last])))).getLast? =
      some (String.ofList last) := by
  have hparts : ∀ part ∈ directories ++ [last], '/' ∉ part :=
    List.forall_mem_append.mpr ⟨hdirectories, List.forall_mem_singleton.mpr hlast⟩
  rw [names, String.toList_ofList, List.splitOn_intercalate '/' hparts (by simp),
    List.getLast?_map, List.getLast?_concat, Option.map_some]

/-- A path that ends in a file name keeps its directories in the path beside it. -/
theorem temporary_eq {last : List Char} (h : fileName? path = some (String.ofList last)) :
    ∃ directories, path.toList.splitOn '/' = directories ++ [last] ∧
      temporary path = String.ofList (['/'].intercalate (directories ++
        [if stem last = ['.'] then ['.', '.'] else stem last ++ ".grd.tmp".toList])) := by
  obtain ⟨hlast, hstill, hup⟩ := fileName?_eq_some_iff.mp h
  rw [names, List.getLast?_map] at hlast
  obtain ⟨found, hfound, hname⟩ := Option.map_eq_some_iff.mp hlast
  obtain rfl := String.ofList_injective hname
  obtain ⟨directories, hsplit⟩ := List.getLast?_eq_some_iff.mp hfound
  have htrimmed : trimmed path = directories ++ [found] := by
    rw [trimmed, hsplit, List.reverse_concat, List.dropWhile_cons_of_neg (by simp [hstill])]
    simp
  refine ⟨directories, hsplit, ?_⟩
  unfold temporary
  rw [htrimmed, hsplit, List.reverse_concat]
  dsimp only
  rw [if_neg (by rintro rfl; exact hup (by decide)), List.reverse_reverse]
  by_cases hstem : stem found = ['.']
  · rw [if_pos ⟨hstem, rfl⟩, if_pos hstem]
  · rw [if_neg (fun h => hstem h.1), if_neg hstem]

theorem fileName?_temporary_ne (h : fileName? (temporary path) = some name) :
    fileName? path ≠ some name := by
  intro hsame
  obtain ⟨last, rfl⟩ : ∃ last, name = String.ofList last := ⟨name.toList, by simp⟩
  obtain ⟨directories, hsplit, htemporary⟩ := temporary_eq hsame
  obtain ⟨hlast, -, hup⟩ := fileName?_eq_some_iff.mp h
  have hparts : ∀ part ∈ directories ++ [last], '/' ∉ part := by
    intro part hpart
    rw [← hsplit] at hpart
    exact not_mem_of_mem_splitOn hpart
  obtain ⟨hdirectories, hfile⟩ := List.forall_mem_append.mp hparts
  rw [htemporary] at hlast
  by_cases hdot : stem last = ['.']
  · -- the path beside it ends in a step up
    rw [if_pos hdot, getLast?_names_ofList hdirectories (by decide)] at hlast
    exact hup (Option.some.inj hlast).symm
  · have hstem : '/' ∉ stem last ++ ".grd.tmp".toList := by
      intro hmem
      obtain hmem | hmem := List.mem_append.mp hmem
      · exact hfile last List.mem_cons_self (mem_of_mem_stem hmem)
      · exact absurd hmem (by decide)
    rw [if_neg hdot, getLast?_names_ofList hdirectories hstem, Option.some_inj] at hlast
    have hlonger : stem last ++ ".grd.tmp".toList = last := String.ofList_injective hlast
    have hstems : stem last = stem last ++ ".grd".toList :=
      (congrArg stem hlonger).symm.trans (stem_append_extension (stem last))
    simp at hstems

end Path

namespace Disk

variable {disk left right : Disk} {path : String} {place : List String} {bytes : ByteArray}

theorem getLast?_of_follow {directory names : List String}
    (h : disk.follow directory names = some (.entry place)) :
    ∃ name, names.getLast? = some name ∧ Path.isStill name = false ∧ name ≠ ".." ∧
      place.getLast? = some name := by
  induction names generalizing directory with
  | nil => cases h
  | cons first rest ih =>
      -- the last name is that of the rest, wherever the first one leads
      have hrest : ∀ {next : List String}, disk.follow next rest = some (.entry place) →
          ∃ name, (first :: rest).getLast? = some name ∧ Path.isStill name = false ∧
            name ≠ ".." ∧ place.getLast? = some name := by
        intro next hnext
        obtain ⟨name, hlast, hname⟩ := ih hnext
        refine ⟨name, ?_, hname⟩
        rw [List.getLast?_cons, hlast, Option.getD_some]
      unfold follow at h
      split at h
      · exact hrest h
      · rename_i hstill
        split at h
        · exact hrest h
        · rename_i hup
          split at h
          · exact hrest h
          · split at h
            · rename_i hend
              obtain ⟨rfl, -⟩ := hend
              cases h
              exact ⟨first, rfl, Bool.eq_false_iff.mpr hstill, hup, List.getLast?_concat⟩
            · cases h

/-- Whatever directories there are, a path leads to no file of another name. -/
theorem fileName?_of_locate (h : disk.locate path = some (.entry place)) :
    ∃ name, Path.fileName? path = some name ∧ place.getLast? = some name := by
  unfold locate at h
  split at h
  · cases h
  · split at h
    · cases h
    · rename_i rest _ hnames
      obtain ⟨name, hlast, hstill, hup, hplace⟩ := getLast?_of_follow h
      refine ⟨name, Path.fileName?_eq_some_iff.mpr ⟨?_, hstill, hup⟩, hplace⟩
      rw [hnames, List.getLast?_cons, hlast, Option.getD_some]
    · obtain ⟨name, hlast, hstill, hup, hplace⟩ := getLast?_of_follow h
      exact ⟨name, Path.fileName?_eq_some_iff.mpr ⟨hlast, hstill, hup⟩, hplace⟩

theorem locate_temporary_ne {source : List String}
    (hsource : disk.locate (Path.temporary path) = some (.entry source))
    (hplace : Path.fileName? path = place.getLast?) : source ≠ place := by
  rintro rfl
  obtain ⟨name, hname, hlast⟩ := fileName?_of_locate hsource
  exact Path.fileName?_temporary_ne hname (hplace.trans hlast)

structure SameNamed (path : String) (left right : Disk) : Prop where
  directories : left.directories = right.directories
  home : left.home = right.home
  files : ∀ place : List String, Path.fileName? path = place.getLast? →
    left.files[place]? = right.files[place]?

inductive Change where
  | file (place : List String) (content : Option ByteArray)
  | directory (place : List String) (there : Bool)

def change (disk : Disk) : Change → Disk
  | .file place (some content) => { disk with files := disk.files.insert place content }
  | .file place none => { disk with files := disk.files.erase place }
  | .directory place true => { disk with directories := disk.directories.insert place }
  | .directory place false => { disk with directories := disk.directories.erase place }

namespace SameNamed

theorem refl (path : String) (disk : Disk) : SameNamed path disk disk :=
  ⟨rfl, rfl, fun _ _ => rfl⟩

theorem locate_eq (h : SameNamed path left right) (elsewhere : String) :
    left.locate elsewhere = right.locate elsewhere :=
  locate_congr h.directories h.home elsewhere

theorem agreesAt (h : SameNamed path left right) : left.AgreesAt right path := by
  refine agreesAt_of_files (h.locate_eq path) fun place hplace => ?_
  obtain ⟨name, hname, hlast⟩ := fileName?_of_locate hplace
  exact h.files place (hname.trans hlast.symm)

theorem insert (h : SameNamed path left right) (place : List String) (bytes : ByteArray) :
    SameNamed path { left with files := left.files.insert place bytes }
      { right with files := right.files.insert place bytes } := by
  refine ⟨h.directories, h.home, fun other hother => ?_⟩
  dsimp only
  rw [Std.ExtTreeMap.getElem?_insert, Std.ExtTreeMap.getElem?_insert, h.files other hother]

theorem erase (h : SameNamed path left right) (place : List String) :
    SameNamed path { left with files := left.files.erase place }
      { right with files := right.files.erase place } := by
  refine ⟨h.directories, h.home, fun other hother => ?_⟩
  dsimp only
  rw [Std.ExtTreeMap.getElem?_erase, Std.ExtTreeMap.getElem?_erase, h.files other hother]

theorem change (h : SameNamed path left right) (change : Change) :
    SameNamed path (left.change change) (right.change change) := by
  cases change with
  | file place content =>
      cases content with
      | none => exact h.erase place
      | some bytes => exact h.insert place bytes
  | directory place there =>
      cases there with
      | true => exact ⟨congrArg (·.insert place) h.directories, h.home, h.files⟩
      | false => exact ⟨congrArg (·.erase place) h.directories, h.home, h.files⟩

/-- A file is replaced on both disks or on neither. -/
theorem replace (h : SameNamed path left right) (bytes : ByteArray) :
    (left.replace path bytes).1 = (right.replace path bytes).1 ∧
      SameNamed path (left.replace path bytes).2 (right.replace path bytes).2 := by
  have hentry : ∀ {elsewhere place}, left.locate elsewhere = some (.entry place) →
      right.locate elsewhere = some (.entry place) :=
    fun hplace => (h.locate_eq _).symm.trans hplace
  have hnowhere : ∀ {elsewhere}, (¬ ∃ place, left.locate elsewhere = some (.entry place)) →
      ∀ place, right.locate elsewhere ≠ some (.entry place) :=
    fun hnone place hplace => hnone ⟨place, (h.locate_eq _).trans hplace⟩
  by_cases hsource : ∃ place, left.locate (Path.temporary path) = some (.entry place)
  · obtain ⟨source, hsource⟩ := hsource
    by_cases htarget : ∃ place, left.locate path = some (.entry place)
    · obtain ⟨target, htarget⟩ := htarget
      rw [replace_of_entry hsource htarget, replace_of_entry (hentry hsource) (hentry htarget)]
      exact ⟨rfl, ((h.insert source bytes).erase source).insert target bytes⟩
    · rw [replace_of_nowhere hsource (not_exists.mp htarget),
        replace_of_nowhere (hentry hsource) (hnowhere htarget)]
      exact ⟨rfl, h.insert source bytes⟩
  · rw [replace_of_nowhere_beside (not_exists.mp hsource),
      replace_of_nowhere_beside (hnowhere hsource)]
    exact ⟨rfl, h⟩

end SameNamed

/-- All that a failure may leave is a file of another name. -/
theorem sameNamed_replace (h : (disk.replace path bytes).1 = false) :
    SameNamed path (disk.replace path bytes).2 disk := by
  by_cases hsource : ∃ place, disk.locate (Path.temporary path) = some (.entry place)
  · obtain ⟨source, hsource⟩ := hsource
    by_cases htarget : ∃ place, disk.locate path = some (.entry place)
    · obtain ⟨target, htarget⟩ := htarget
      rw [replace_of_entry hsource htarget] at h
      cases h
    · rw [replace_of_nowhere hsource (not_exists.mp htarget)]
      refine ⟨rfl, rfl, fun place hplace => ?_⟩
      have hne := locate_temporary_ne hsource hplace
      simp [Std.ExtTreeMap.getElem?_insert, hne]
  · rw [replace_of_nowhere_beside (not_exists.mp hsource)]
    exact .refl path disk

end Disk

end Spreadsheet
