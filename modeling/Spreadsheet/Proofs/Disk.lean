import Spreadsheet.Disk

/-!
# Replacing a file

What a path leads to depends on directories alone, which no write changes. A file is therefore
replaced as a whole, or nothing changes at its path.
-/

namespace Spreadsheet.Disk

variable {disk other : Disk} {path : String} {bytes : ByteArray}

def AgreesAt (disk other : Disk) (path : String) : Prop :=
  disk.contains path = other.contains path ∧ disk.read? path = other.read? path

theorem AgreesAt.refl (disk : Disk) (path : String) : disk.AgreesAt disk path :=
  ⟨rfl, rfl⟩

theorem AgreesAt.readText?_eq (h : disk.AgreesAt other path) :
    disk.readText? path = other.readText? path := by
  rw [readText?, h.2, readText?]

theorem readText?_of_read? {text : String} (h : disk.read? path = some text.toUTF8) :
    disk.readText? path = some text := by
  rw [readText?, h, Option.bind_some]
  exact dif_pos text.isValidUTF8

theorem follow_files (disk : Disk) (files : Std.ExtTreeMap (List String) ByteArray)
    (place names : List String) :
    follow { disk with files } place names = disk.follow place names := by
  induction names generalizing place with
  | nil => rfl
  | cons name rest ih =>
      unfold follow
      rw [ih, ih, ih]
      rfl

theorem locate_files (disk : Disk) (files : Std.ExtTreeMap (List String) ByteArray)
    (path : String) : locate { disk with files } path = disk.locate path := by
  unfold locate
  simp only [follow_files]

/-- What a path leads to depends on the directories alone. -/
theorem locate_congr (hdirectories : other.directories = disk.directories)
    (hhome : other.home = disk.home) (path : String) : other.locate path = disk.locate path := by
  obtain ⟨files, directories, home⟩ := other
  obtain rfl : directories = disk.directories := hdirectories
  obtain rfl : home = disk.home := hhome
  exact disk.locate_files files path

theorem agreesAt_of_files (hlocate : other.locate path = disk.locate path)
    (hfiles : ∀ place, disk.locate path = some (.entry place) →
      other.files[place]? = disk.files[place]?) : other.AgreesAt disk path := by
  unfold AgreesAt contains read?
  rw [hlocate]
  cases htarget : disk.locate path with
  | none => exact ⟨rfl, rfl⟩
  | some target =>
      cases target with
      | directory place => exact ⟨rfl, rfl⟩
      | entry place =>
          have hfile := hfiles place htarget
          refine ⟨?_, hfile⟩
          simp only [Std.ExtTreeMap.mem_iff_isSome_getElem?, hfile]

/-- A path that leads to no file is not touched by what is written to files. -/
theorem agreesAt_files (files : Std.ExtTreeMap (List String) ByteArray)
    (h : ∀ place, disk.locate path ≠ some (.entry place)) :
    AgreesAt { disk with files } disk path :=
  agreesAt_of_files (disk.locate_files files path) fun place hplace => absurd hplace (h place)

theorem write?_of_entry {place : List String} (h : disk.locate path = some (.entry place)) :
    disk.write? path bytes = some { disk with files := disk.files.insert place bytes } := by
  rw [write?, h]

theorem write?_of_not_entry (h : ∀ place, disk.locate path ≠ some (.entry place)) :
    disk.write? path bytes = none := by
  unfold write?
  split
  · rename_i place hplace
    exact absurd hplace (h place)
  · rfl

theorem move?_of_entry {old new : String} {source target : List String}
    (hsource : disk.locate old = some (.entry source))
    (htarget : disk.locate new = some (.entry target)) (hbytes : disk.files[source]? = some bytes) :
    disk.move? old new =
      some { disk with files := (disk.files.erase source).insert target bytes } := by
  rw [move?, hsource, htarget]
  dsimp only
  rw [hbytes]

theorem move?_of_not_entry (old : String)
    (h : ∀ place, disk.locate path ≠ some (.entry place)) : disk.move? old path = none := by
  unfold move?
  split
  · rename_i place _ hplace
    exact absurd hplace (h place)
  · rfl

/-- A file is replaced where both it and the file beside it can be written. -/
theorem replace_of_entry {source target : List String}
    (hsource : disk.locate (Path.temporary path) = some (.entry source))
    (htarget : disk.locate path = some (.entry target)) :
    disk.replace path bytes = (true,
      { disk with files := ((disk.files.insert source bytes).erase source).insert target bytes }) := by
  let written : Disk := { disk with files := disk.files.insert source bytes }
  have hmoved : written.move? (Path.temporary path) path =
      some { written with files := (written.files.erase source).insert target bytes } :=
    move?_of_entry ((disk.locate_files _ _).trans hsource) ((disk.locate_files _ _).trans htarget)
      Std.ExtTreeMap.getElem?_insert_self
  rw [replace, write?_of_entry hsource]
  dsimp only
  rw [hmoved]

/-- Without a place for the file beside it, nothing is written. -/
theorem replace_of_nowhere_beside
    (h : ∀ place, disk.locate (Path.temporary path) ≠ some (.entry place)) :
    disk.replace path bytes = (false, disk) := by
  rw [replace, write?_of_not_entry h]

/-- Without a place for the file itself, only the file beside it is written. -/
theorem replace_of_nowhere {source : List String}
    (hsource : disk.locate (Path.temporary path) = some (.entry source))
    (h : ∀ place, disk.locate path ≠ some (.entry place)) :
    disk.replace path bytes = (false, { disk with files := disk.files.insert source bytes }) := by
  rw [replace, write?_of_entry hsource]
  dsimp only
  rw [move?_of_not_entry _ fun place => by rw [locate_files]; exact h place]

theorem replace_succeeds_iff :
    (disk.replace path bytes).1 = true ↔
      (∃ source, disk.locate (Path.temporary path) = some (.entry source)) ∧
        ∃ target, disk.locate path = some (.entry target) := by
  constructor
  · intro h
    by_cases hsource : ∃ source, disk.locate (Path.temporary path) = some (.entry source)
    · refine ⟨hsource, ?_⟩
      obtain ⟨source, hsource⟩ := hsource
      refine Classical.byContradiction fun htarget => ?_
      rw [replace_of_nowhere hsource (not_exists.mp htarget)] at h
      cases h
    · rw [replace_of_nowhere_beside (not_exists.mp hsource)] at h
      cases h
  · rintro ⟨⟨source, hsource⟩, target, htarget⟩
    rw [replace_of_entry hsource htarget]

/-- Either the whole new content stands at the path afterwards, or what stood there before. -/
theorem replace_cases (disk : Disk) (path : String) (bytes : ByteArray) :
    (∃ replaced, disk.replace path bytes = (true, replaced) ∧ replaced.contains path = true ∧
        replaced.read? path = some bytes) ∨
      ∃ left, disk.replace path bytes = (false, left) ∧ left.AgreesAt disk path := by
  by_cases hsource : ∃ place, disk.locate (Path.temporary path) = some (.entry place)
  · obtain ⟨source, hsource⟩ := hsource
    by_cases htarget : ∃ place, disk.locate path = some (.entry place)
    · obtain ⟨target, htarget⟩ := htarget
      refine .inl ⟨_, replace_of_entry hsource htarget, ?_⟩
      rw [contains, read?, locate_files, htarget]
      simp
    · have hnowhere := not_exists.mp htarget
      exact .inr ⟨_, replace_of_nowhere hsource hnowhere, agreesAt_files _ hnowhere⟩
  · exact .inr ⟨_, replace_of_nowhere_beside (not_exists.mp hsource), .refl disk path⟩

/-! ### What a replacement leaves alone -/

/-- Neither a path nor the file beside it leads to where another path leads. -/
def Apart (disk : Disk) (path elsewhere : String) : Prop :=
  ∀ place, disk.locate elsewhere = some (.entry place) →
    disk.locate path ≠ some (.entry place) ∧
      disk.locate (Path.temporary path) ≠ some (.entry place)

structure KeepsBeside (path : String) (before after : Disk) : Prop where
  directories : after.directories = before.directories
  home : after.home = before.home
  files : ∀ place, before.locate path ≠ some (.entry place) →
    before.locate (Path.temporary path) ≠ some (.entry place) →
      after.files[place]? = before.files[place]?

namespace KeepsBeside

theorem refl (path : String) (disk : Disk) : KeepsBeside path disk disk :=
  ⟨rfl, rfl, fun _ _ _ => rfl⟩

theorem locate_eq (h : KeepsBeside path disk other) (elsewhere : String) :
    other.locate elsewhere = disk.locate elsewhere :=
  locate_congr h.directories h.home elsewhere

theorem trans {last : Disk} (hfirst : KeepsBeside path disk other)
    (hlast : KeepsBeside path other last) : KeepsBeside path disk last where
  directories := hlast.directories.trans hfirst.directories
  home := hlast.home.trans hfirst.home
  files place hpath hbeside := by
    refine (hlast.files place ?_ ?_).trans (hfirst.files place hpath hbeside)
    · rwa [hfirst.locate_eq]
    · rwa [hfirst.locate_eq]

theorem apart (h : KeepsBeside path disk other) {elsewhere : String}
    (hapart : disk.Apart path elsewhere) : other.Apart path elsewhere := by
  intro place hplace
  rw [h.locate_eq] at hplace
  rw [h.locate_eq, h.locate_eq]
  exact hapart place hplace

theorem agreesAt (h : KeepsBeside path disk other) {elsewhere : String}
    (hapart : disk.Apart path elsewhere) : other.AgreesAt disk elsewhere := by
  refine agreesAt_of_files (h.locate_eq elsewhere) fun place hplace => ?_
  obtain ⟨hpath, hbeside⟩ := hapart place hplace
  exact h.files place hpath hbeside

/-- Where a file can be replaced, it can be replaced again. -/
theorem replace_succeeds_iff (h : KeepsBeside path disk other) (bytes again : ByteArray) :
    (other.replace path again).1 = true ↔ (disk.replace path bytes).1 = true := by
  rw [Disk.replace_succeeds_iff, Disk.replace_succeeds_iff, h.locate_eq, h.locate_eq]

end KeepsBeside

theorem replace_keepsBeside (disk : Disk) (path : String) (bytes : ByteArray) :
    KeepsBeside path disk (disk.replace path bytes).2 := by
  have hne : ∀ {name : String} {there place : List String},
      disk.locate name = some (.entry there) → disk.locate name ≠ some (.entry place) →
        ¬ compare there place = .eq := by
    rintro name there place hthere hplace heq
    obtain rfl := Std.LawfulEqCmp.eq_of_compare heq
    exact hplace hthere
  by_cases hsource : ∃ place, disk.locate (Path.temporary path) = some (.entry place)
  · obtain ⟨source, hsource⟩ := hsource
    by_cases htarget : ∃ place, disk.locate path = some (.entry place)
    · obtain ⟨target, htarget⟩ := htarget
      rw [replace_of_entry hsource htarget]
      refine ⟨rfl, rfl, fun place hpath hbeside => ?_⟩
      simp [Std.ExtTreeMap.getElem?_insert, Std.ExtTreeMap.getElem?_erase, hne htarget hpath,
        hne hsource hbeside]
    · rw [replace_of_nowhere hsource (not_exists.mp htarget)]
      exact ⟨rfl, rfl, fun place _ hbeside =>
        Std.ExtTreeMap.getElem?_insert.trans (if_neg (hne hsource hbeside))⟩
  · rw [replace_of_nowhere_beside (not_exists.mp hsource)]
    exact .refl path disk

end Spreadsheet.Disk
