import Mathlib.Logic.Basic
import MiniScheme.CommandLine.Directory

/-!
# Files that are written

Where a path leads to is found by walking from folder to folder.  A path that can be written to
leads to a place in a folder that is there, so that a file in this place changes nothing on the
way to it, and nothing elsewhere.

Main results:

- Theorem `Directory.follow_of_folders`: the way along folders is the same in a directory that has
  these folders too.
- Theorem `Directory.writable_cases`: a path that can be written to leads to a place in a folder.
- Theorem `Directory.fileSystem_lawful`: the file system of a directory keeps to the laws of files.
-/

namespace MiniScheme.CommandLine

/-! ## The last name of a path -/

/-- A path that does not end with a slash ends with a name. -/
theorem Path.exists_splitNames {path : List Char} (begun : List Char)
    (hslash : path.getLast? ≠ some '/') (hbegun : path = [] → begun ≠ []) :
    ∃ front name, splitNames begun path = front ++ [name] ∧ name ≠ "" := by
  induction path generalizing begun with
  | nil =>
    refine ⟨[], String.ofList begun.reverse, rfl, fun hempty => hbegun rfl ?_⟩
    have htext := congrArg String.toList hempty
    simpa using htext
  | cons c path ih =>
    have hlast : path ≠ [] → path.getLast? ≠ some '/' := by
      intro hne
      rwa [List.getLast?_cons_of_ne_nil hne] at hslash
    have hrest : path.getLast? ≠ some '/' := by
      by_cases hnil : path = []
      · rw [hnil]
        nofun
      · exact hlast hnil
    rw [splitNames]
    split
    next hc =>
      have hne : path ≠ [] := by
        rintro rfl
        exact hslash (by rw [hc]; rfl)
      obtain ⟨front, name, hnames, hname⟩ := ih [] hrest fun hnil => absurd hnil hne
      exact ⟨_ :: front, name, by rw [hnames, List.cons_append], hname⟩
    next => exact ih (c :: begun) hrest fun _ => List.cons_ne_nil c begun

namespace Directory

variable {directory directory' : Directory} {location final : Location} {names : List String}

/-! ## Walking -/

/-- A step of a walk starts from a folder. -/
theorem follow_cons_eq_ok {name : String} :
    directory.follow location (name :: names) = .ok final ↔
      directory.entry location = .folder ∧
        ∃ next, enter location name = .ok next ∧ directory.follow next names = .ok final := by
  rw [follow]
  cases hentry : directory.entry location with
  | folder =>
    cases henter : enter location name with
    | error => simp [bind, Except.bind]
    | ok next => simp [bind, Except.bind]
  | file => simp
  | missing => simp

/-- The way along folders is the same in a directory that has these folders too. -/
theorem follow_of_folders
    (hfolders : ∀ location, directory.entry location = .folder →
      directory'.entry location = .folder)
    (h : directory.follow location names = .ok final) :
    directory'.follow location names = .ok final := by
  induction names generalizing location with
  | nil => exact h
  | cons name names ih =>
    obtain ⟨hentry, next, henter, hrest⟩ := follow_cons_eq_ok.1 h
    exact follow_cons_eq_ok.2 ⟨hfolders location hentry, next, henter, ih hrest⟩

/-- Empty names lead nowhere else.  A walk that ends at a folder goes on to each name in it. -/
theorem follow_concat {folder : Location}
    (h : directory.follow location (names.filter (· ≠ "") ++ [""]) = .ok folder)
    (name : String) :
    directory.entry folder = .folder ∧
      directory.follow location (names ++ [name]) = enter folder name := by
  induction names generalizing location with
  | nil =>
    obtain ⟨hentry, next, henter, hfinal⟩ := follow_cons_eq_ok.1 h
    obtain rfl : location = next := by simpa [enter] using henter
    obtain rfl : location = folder := by simpa [follow] using hfinal
    refine ⟨hentry, ?_⟩
    rw [List.nil_append, follow, hentry]
    cases enter location name <;> rfl
  | cons first names ih =>
    by_cases hfirst : first = ""
    · subst hfirst
      -- The walk starts at a folder either way, and the empty name stays there.
      have hskip : directory.follow location (names.filter (· ≠ "") ++ [""]) = .ok folder := by
        simpa using h
      have hentry : directory.entry location = .folder := by
        cases hrest : names.filter (· ≠ "") with
        | nil => rw [hrest] at hskip; exact (follow_cons_eq_ok.1 hskip).1
        | cons => rw [hrest] at hskip; exact (follow_cons_eq_ok.1 hskip).1
      obtain ⟨hfolder, hfollow⟩ := ih hskip
      refine ⟨hfolder, ?_⟩
      rw [List.cons_append, follow, hentry]
      simpa [enter, bind, Except.bind] using hfollow
    · rw [List.filter_cons_of_pos (by simpa using hfirst), List.cons_append] at h
      obtain ⟨hentry, next, henter, hrest⟩ := follow_cons_eq_ok.1 h
      obtain ⟨hfolder, hfollow⟩ := ih hrest
      refine ⟨hfolder, ?_⟩
      rw [List.cons_append, follow, hentry]
      simpa [henter, bind, Except.bind] using hfollow

/-! ## Places that can be written to -/

/-- A name of something leads to a place within the folder, which is one of the directory. -/
theorem enter_of_not_folderName {name : String} (hname : isFolderName name = false)
    (h : enter location name = .ok final) :
    ∃ folder, location = .inside folder ∧ final = .inside (folder ++ [name]) := by
  simp only [isFolderName, Bool.or_eq_false_iff, decide_eq_false_iff_not] at hname
  obtain ⟨⟨hempty, hdot⟩, hdots⟩ := hname
  simp only [enter, hempty, hdot, hdots, decide_false, Bool.or_self, Bool.false_eq_true,
    if_false] at h
  split at h
  · cases h
  · cases location with
    | outside => cases h
    | inside folder => exact ⟨folder, rfl, (Except.ok.inj h).symm⟩

/-- The steps by which a path is found to be one that can be written to. -/
theorem writable_eq_ok {path : String} {place : List String}
    (h : directory.writable path = .ok place) :
    let names := (Path.names path).filter (· ≠ "")
    ∃ first folder, start path = .ok first ∧
      directory.follow first (names.dropLast ++ [""]) = .ok folder ∧
      isFolderName (names.getLastD "") = false ∧ Path.endsWithSlash path = false ∧
      enter folder (names.getLastD "") = .ok (.inside place) ∧
      directory.entry (.inside place) ≠ .folder := by
  intro names
  simp only [writable, bind, Except.bind] at h
  split at h
  next => cases h
  next first hstart =>
    split at h
    next => cases h
    next folder hfolder =>
      split at h
      next => cases h
      next hgood =>
        simp only [Bool.or_eq_true, not_or, Bool.not_eq_true] at hgood
        split at h
        next => cases h
        next final henter =>
          split at h
          next => cases h
          next place' _ hentry =>
            cases h
            exact ⟨first, folder, hstart, hfolder, hgood.1, hgood.2, henter, hentry⟩
          next => cases h

/-- A path that can be written to leads to a place in a folder, and no folder is there. -/
theorem writable_cases {path : String} {place : List String}
    (h : directory.writable path = .ok place) :
    ∃ folder name, place = folder ++ [name] ∧ directory.entry (.inside folder) = .folder ∧
      directory.entry (.inside place) ≠ .folder ∧
      directory.locate path = .ok (.inside place) := by
  obtain ⟨first, folder, hstart, hfolder, hname, hslash, henter, hplace⟩ := writable_eq_ok h
  have hpath : path.toList ≠ [] := by
    intro hnil
    have hempty : path = "" := String.toList_inj.1 hnil
    simp [start, hempty] at hstart
  have hlast : path.toList.getLast? ≠ some '/' := by
    simpa [Path.endsWithSlash] using hslash
  obtain ⟨front, name, hnames, hne⟩ :=
    Path.exists_splitNames [] hlast fun hnil => absurd hnil hpath
  have hfilter : (Path.names path).filter (· ≠ "") = front.filter (· ≠ "") ++ [name] := by
    rw [Path.names, hnames, List.filter_append]
    simp [hne]
  rw [hfilter] at hfolder henter hname
  simp only [List.dropLast_concat, List.getLastD_concat] at hfolder henter hname
  obtain ⟨hentry, hfollow⟩ := follow_concat hfolder name
  obtain ⟨outer, rfl, hfinal⟩ := enter_of_not_folderName hname henter
  obtain rfl : place = outer ++ [name] := Location.inside.inj hfinal
  refine ⟨outer, name, rfl, hentry, hplace, ?_⟩
  rw [locate, hstart, Path.names, hnames]
  exact hfollow.trans henter

/-! ## Putting files in place -/

/-- Whether something is around the files of a directory: itself, and what is before their names. -/
theorem isAround_iff {files : List (List String × Content)} {place : List String} :
    (place.isEmpty || files.any fun file => place.isPrefixOf file.1) = true ↔
      place = [] ∨ ∃ file ∈ files, place <+: file.1 := by
  simp [List.isPrefixOf_iff_prefix]

/-- A folder is around a file, or it is the directory itself. -/
theorem isAround_of_entry {place : List String} (h : directory.entry (.inside place) = .folder) :
    place = [] ∨ ∃ file ∈ directory.files, place <+: file.1 := by
  simp only [entry] at h
  split at h
  · cases h
  · split at h
    next haround => exact isAround_iff.1 haround
    next => cases h

/-- What is found anywhere but in the place of a file that is put there is as it was, if whatever
is around the place was around a file before. -/
theorem entry_insert_of_around {place : List String}
    (haround : ∀ outer, outer <+: place → outer ≠ place →
      outer = [] ∨ ∃ file ∈ directory.files, outer <+: file.1)
    (content : Content) (hne : location ≠ .inside place) :
    (directory.insert place content).entry location = directory.entry location := by
  cases location with
  | outside => rfl
  | inside other =>
    have hother : other ≠ place := fun heq => hne (heq ▸ rfl)
    have hfolder : (other.isEmpty || (directory.insert place content).files.any
        fun file => other.isPrefixOf file.1) =
        (other.isEmpty || directory.files.any fun file => other.isPrefixOf file.1) := by
      rw [Bool.eq_iff_iff, isAround_iff, isAround_iff]
      apply or_congr_right'
      intro hnonempty
      constructor
      · rintro ⟨file, hfile, hbefore⟩
        rcases List.mem_cons.1 hfile with rfl | hfile
        · exact (haround other hbefore hother).resolve_left hnonempty
        · exact ⟨file, (List.mem_filter.1 hfile).1, hbefore⟩
      · rintro ⟨file, hfile, hbefore⟩
        by_cases hsame : file.1 = place
        · exact ⟨_, List.mem_cons_self, hsame ▸ hbefore⟩
        · exact ⟨file, List.mem_cons_of_mem _ (List.mem_filter.2 ⟨hfile, by simpa using hsame⟩),
            hbefore⟩
    simp only [entry, lookup_insert_of_ne directory content hother, hfolder]

/-! ## Opening -/

/-- A path that can be written to leads to the file that is put in the place found for it. -/
theorem locate_insert_writable {path : String} {place : List String}
    (h : directory.writable path = .ok place) (content : Content) :
    (directory.insert place content).locate path = .ok (.inside place) := by
  obtain ⟨folder, name, rfl, hfolder, hplace, hlocate⟩ := writable_cases h
  have helsewhere : ∀ location ≠ .inside (folder ++ [name]),
      (directory.insert (folder ++ [name]) content).entry location =
        directory.entry location := by
    intro location hne
    refine entry_insert_of_around (fun outer hbefore houter => ?_) content hne
    -- What is around the new file is around its folder, which was there.
    rcases List.prefix_concat_iff.1 hbefore with heq | hbefore
    · exact absurd heq houter
    · rcases isAround_of_entry hfolder with rfl | ⟨inner, hinner, hle⟩
      · exact .inl (List.prefix_nil.1 hbefore)
      · exact .inr ⟨inner, hinner, hbefore.trans hle⟩
  have hfolders : ∀ location, directory.entry location = .folder →
      (directory.insert (folder ++ [name]) content).entry location = .folder := by
    intro location hlocation
    rw [helsewhere location fun heq => hplace (heq ▸ hlocation), hlocation]
  cases hstart : start path with
  | error => simp [locate, hstart, bind, Except.bind] at hlocate
  | ok first =>
    rw [locate, hstart] at hlocate ⊢
    exact follow_of_folders hfolders hlocate

/-- The file that is put in the place found for a path is the one that the path leads to. -/
theorem fileAt_insert_writable {path : String} {place : List String}
    (h : directory.writable path = .ok place) (content : Content) :
    (directory.insert place content).fileAt path = some place := by
  simp [fileAt, locate_insert_writable h]

/-- A file that is opened is in the place found for its path. -/
theorem create_eq_ok {path : String} {place : List String}
    (h : fileSystem.create directory path = (.ok place, directory')) :
    directory.writable path = .ok place ∧ directory' = directory.insert place (.text "") := by
  simp only [fileSystem] at h
  split at h
  next hwritable =>
    cases h
    exact ⟨hwritable, rfl⟩
  next => cases h

/-! ## Filling -/

/-- A walk is the same when a file is replaced by another. -/
theorem follow_insert_of_lookup {place : List String} {held : Content}
    (h : directory.files.lookup place = some held) (content : Content) :
    (directory.insert place content).follow location names = directory.follow location names := by
  have hfile : (place, held) ∈ directory.files := by
    obtain ⟨before, after, hfiles, -⟩ := List.lookup_eq_some_iff.1 h
    simp [hfiles]
  induction names generalizing location with
  | nil => rfl
  | cons name names ih =>
    by_cases hlocation : location = .inside place
    · -- There is a file either way, and the walk ends at it.
      subst hlocation
      rw [follow, follow, entry_insert_self]
      simp only [entry, h]
    · rw [follow, follow, entry_insert_of_around
        (fun outer hbefore _ => .inr ⟨_, hfile, hbefore⟩) content hlocation]
      cases directory.entry location with
      | folder =>
        cases enter location name with
        | error => rfl
        | ok next => exact ih
      | file => rfl
      | missing => rfl

/-- All paths lead where they led when a file is replaced by another. -/
theorem fileAt_insert_of_lookup {place : List String} {held : Content}
    (h : directory.files.lookup place = some held) (content : Content) (path : String) :
    (directory.insert place content).fileAt path = directory.fileAt path := by
  have hlocate : (directory.insert place content).locate path = directory.locate path := by
    cases hstart : start path with
    | error => simp [locate, hstart, bind, Except.bind]
    | ok first =>
      rw [locate, locate, hstart]
      exact follow_insert_of_lookup h content
  rw [fileAt, fileAt, hlocate]
  cases directory.locate path with
  | error => rfl
  | ok location =>
    cases location with
    | outside => rfl
    | inside other =>
      by_cases hother : other = place
      · subst hother
        simp [h]
      · simp only [lookup_insert_of_ne directory content hother]

/-- The file system of a directory keeps to the laws of files. -/
theorem fileSystem_lawful : fileSystem.Lawful where
  create_error {files opened path error} h file := by
    simp only [fileSystem] at h
    split at h
    next => cases h
    next =>
      cases h
      rfl
  create_locate h := by
    obtain ⟨hwritable, rfl⟩ := create_eq_ok h
    exact fileAt_insert_writable hwritable (.text "")
  create_empty h := by
    obtain ⟨-, rfl⟩ := create_eq_ok h
    exact lookup_insert_self _ _ _
  create_other h hother := by
    obtain ⟨-, rfl⟩ := create_eq_ok h
    exact lookup_insert_of_ne _ _ hother
  fill_locate text h path := fileAt_insert_of_lookup h (.text text) path
  fill_other text hother := lookup_insert_of_ne _ (.text text) hother
  fill_text _ h := by
    cases h
    exact lookup_insert_self _ _ _

end Directory

end MiniScheme.CommandLine
