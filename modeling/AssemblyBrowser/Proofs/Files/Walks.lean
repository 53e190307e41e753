import Mathlib.Data.List.Basic
import AssemblyBrowser.FileSystem.Basic
import AssemblyBrowser.Proofs.Outcomes

/-!
# Walks through directories

Putting an entry somewhere changes what is at that place and nothing else. Where
nothing is taken away and no directory gives way to a file, a file system only
grows: each path that led somewhere still leads there.

Where the segments of a path lead is a matter of the segments alone. Following
them and making directories along them agree with that, and what they found or
made once is found again in whatever the file system grows to.
-/

namespace AssemblyBrowser

/-!
## Entries
-/

def FileEntry.isDirectory : FileEntry → Bool
  | .directory => true
  | .file _ => false

theorem FileEntry.isDirectory_iff {entry : FileEntry} :
    entry.isDirectory = true ↔ entry = .directory := by
  cases entry with
  | directory => simp [FileEntry.isDirectory]
  | file content => simp [FileEntry.isDirectory]

namespace FileSystem

theorem entry?_root (files : FileSystem) : files.entry? [] = some .directory := rfl

theorem entry?_of_ne_root (files : FileSystem) {place : List String} (h : place ≠ []) :
    files.entry? place = (files.entries.find? (·.1 == place)).map (·.2) := by
  cases place with
  | nil => exact absurd rfl h
  | cons name rest => rfl

@[simp]
theorem put_workingDirectory (files : FileSystem) (place : List String) (entry : FileEntry) :
    (files.put place entry).workingDirectory = files.workingDirectory := by
  unfold put
  split
  · rfl
  · rfl

/-- Replacing an entry wherever its place stands does not hide the others. -/
theorem find?_map_replace (entries : List (List String × FileEntry)) (place other : List String)
    (entry : FileEntry) :
    ((entries.map fun old => if old.1 == place then (place, entry) else old).find?
        (·.1 == other)) =
      if other = place then (entries.find? (·.1 == place)).map fun _ => (place, entry)
      else entries.find? (·.1 == other) := by
  induction entries with
  | nil => simp
  | cons old rest ih =>
      rw [List.map_cons, List.find?_cons, List.find?_cons, List.find?_cons, ih]
      by_cases hold : old.1 = place
      · by_cases hother : other = place
        · simp [hold, hother]
        · have hne : (place == other) = false := beq_false_of_ne (Ne.symm hother)
          simp [hold, hother, hne]
      · have hne : (old.1 == place) = false := beq_false_of_ne hold
        by_cases hother : other = place
        · simp [hother, hne]
        · simp [hother, hne]

theorem entry?_put (files : FileSystem) {place : List String} (hplace : place ≠ [])
    (entry : FileEntry) (other : List String) :
    entry? (files.put place entry) other =
      if other = place then some entry else files.entry? other := by
  by_cases hroot : other = []
  · subst hroot
    rw [entry?_root, entry?_root, if_neg (Ne.symm hplace)]
  · rw [entry?_of_ne_root _ hroot, entry?_of_ne_root _ hroot]
    unfold put
    split
    case isTrue hthere =>
      rw [find?_map_replace]
      by_cases hother : other = place
      · have hfound : (files.entries.find? (·.1 == place)).isSome := by
          simpa [List.any_eq_true] using hthere
        rcases Option.isSome_iff_exists.mp hfound with ⟨old, hold⟩
        simp [hother, hold]
      · simp [hother]
    case isFalse hmissing =>
      rw [List.find?_append]
      by_cases hother : other = place
      · have hnone : files.entries.find? (·.1 == place) = none := by
          rw [List.find?_eq_none]
          intro old hmem hold
          exact hmissing (List.any_eq_true.mpr ⟨old, hmem, hold⟩)
        simp [hnone, hother]
      · have hne : (place == other) = false := beq_false_of_ne (Ne.symm hother)
        simp [hother, hne]

theorem entry?_put_self (files : FileSystem) {place : List String} (hplace : place ≠ [])
    (entry : FileEntry) : entry? (files.put place entry) place = some entry := by
  rw [entry?_put files hplace, if_pos rfl]

theorem entry?_put_of_ne (files : FileSystem) {place other : List String} (hplace : place ≠ [])
    (entry : FileEntry) (h : other ≠ place) :
    entry? (files.put place entry) other = files.entry? other := by
  rw [entry?_put files hplace, if_neg h]

/-!
## Growing
-/

/-- Whether all that is in a file system is also in another, directories as directories and
files as files, of whatever content. -/
structure GrowsTo (files after : FileSystem) : Prop where
  workingDirectory : after.workingDirectory = files.workingDirectory
  entries : ∀ place entry, files.entry? place = some entry →
    ∃ later, after.entry? place = some later ∧ later.isDirectory = entry.isDirectory

namespace GrowsTo

theorem refl (files : FileSystem) : files.GrowsTo files where
  workingDirectory := rfl
  entries := fun _ entry h => ⟨entry, h, rfl⟩

theorem trans {first second third : FileSystem} (h : first.GrowsTo second)
    (hnext : second.GrowsTo third) : first.GrowsTo third where
  workingDirectory := hnext.workingDirectory.trans h.workingDirectory
  entries := by
    intro place entry hentry
    rcases h.entries place entry hentry with ⟨middle, hmiddle, hsame⟩
    rcases hnext.entries place middle hmiddle with ⟨later, hlater, hkind⟩
    exact ⟨later, hlater, hkind.trans hsame⟩

theorem directory {files after : FileSystem} (h : files.GrowsTo after) {place : List String}
    (hplace : files.entry? place = some .directory) : after.entry? place = some .directory := by
  rcases h.entries place .directory hplace with ⟨later, hlater, hkind⟩
  rw [hlater, FileEntry.isDirectory_iff.mp hkind]

theorem start {files after : FileSystem} (h : files.GrowsTo after) (path : String) :
    after.start path = files.start path := by
  unfold FileSystem.start
  rw [h.workingDirectory]

/-- What is put where nothing was, or where an entry of its kind was, makes a file system grow. -/
theorem put {files : FileSystem} {place : List String} {entry : FileEntry} (hplace : place ≠ [])
    (h : ∀ old, files.entry? place = some old → entry.isDirectory = old.isDirectory) :
    files.GrowsTo (files.put place entry) where
  workingDirectory := put_workingDirectory files place entry
  entries := by
    intro other old hold
    by_cases hother : other = place
    · subst hother
      exact ⟨entry, entry?_put_self files hplace entry, h old hold⟩
    · exact ⟨old, by rw [entry?_put_of_ne files hplace entry hother, hold], rfl⟩

end GrowsTo
end FileSystem

/-!
## Where segments lead
-/

namespace FileSystem

/-- Whether a segment is the name of something in the directory it is in. -/
def Downward (segment : String) : Prop := isHere segment = false ∧ segment ≠ ".."

instance (segment : String) : Decidable (Downward segment) :=
  inferInstanceAs (Decidable (_ ∧ _))

/-- The place that a segment leads on to. -/
def onward (place : List String) (segment : String) : List String :=
  if isHere segment then place
  else if segment = ".." then place.dropLast
  else place ++ [segment]

/-- The place that segments lead to from a place, whatever is there. -/
def target (place segments : List String) : List String := segments.foldl onward place

@[simp]
theorem isHere_up : isHere ".." = false := by decide

theorem onward_of_isHere {segment : String} (place : List String) (h : isHere segment = true) :
    onward place segment = place := by
  simp [onward, h]

theorem onward_of_downward {segment : String} (place : List String) (h : Downward segment) :
    onward place segment = place ++ [segment] := by
  simp [onward, h.1, h.2]

theorem target_cons (place : List String) (segment : String) (rest : List String) :
    target place (segment :: rest) = target (onward place segment) rest := rfl

theorem target_append (place first second : List String) :
    target place (first ++ second) = target (target place first) second :=
  List.foldl_append

theorem target_of_downward {names : List String} (h : ∀ name ∈ names, Downward name)
    (place : List String) : target place names = place ++ names := by
  induction names generalizing place with
  | nil => simp [target]
  | cons name rest ih =>
      rw [target_cons, onward_of_downward place (h name List.mem_cons_self),
        ih fun other hother => h other (List.mem_cons_of_mem _ hother)]
      simp

/-- The segments that lead somewhere else. -/
def essential (segments : List String) : List String := segments.filter (!isHere ·)

theorem essential_append (first second : List String) :
    essential (first ++ second) = essential first ++ essential second :=
  List.filter_append ..

theorem essential_of_downward {names : List String} (h : ∀ name ∈ names, Downward name) :
    essential names = names := by
  rw [essential, List.filter_eq_self]
  intro name hname
  simp [(h name hname).1]

theorem target_essential (place segments : List String) :
    target place (essential segments) = target place segments := by
  induction segments generalizing place with
  | nil => rfl
  | cons segment rest ih =>
      rw [target_cons, ← ih, essential, List.filter_cons]
      by_cases hhere : isHere segment = true
      · rw [onward_of_isHere place hhere]
        simp [hhere, essential]
      · simp [hhere, essential, target_cons]

/-!
## Following segments
-/

/-- Whether a segment can be followed from a place. -/
structure Passable (files : FileSystem) (place : List String) (segment : String) : Prop where
  directory : files.entry? place = some .directory
  entry : Downward segment →
    nameFault? segment = none ∧ ∃ entry, files.entry? (place ++ [segment]) = some entry

theorem follow_cons_eq_ok {files : FileSystem} {place rest stop : List String} {segment : String} :
    files.follow place (segment :: rest) = .ok stop ↔
      files.Passable place segment ∧ files.follow (onward place segment) rest = .ok stop := by
  rw [follow]
  constructor
  · intro h
    split at h
    case h_1 hdirectory =>
      by_cases hhere : isHere segment = true
      · rw [if_pos hhere] at h
        rw [onward_of_isHere place hhere]
        refine ⟨⟨hdirectory, ?_⟩, h⟩
        intro hdown
        rw [hdown.1] at hhere
        cases hhere
      · rw [if_neg hhere] at h
        by_cases hup : segment = ".."
        · rw [if_pos hup] at h
          refine ⟨⟨hdirectory, fun hdown => absurd hup hdown.2⟩, ?_⟩
          simpa [onward, hup] using h
        · rw [if_neg hup] at h
          split at h
          case h_1 => cases h
          case h_2 => cases h
          case h_3 entry hname hentry =>
            refine ⟨⟨hdirectory, fun _ => ⟨hname, entry, hentry⟩⟩, ?_⟩
            simpa [onward, hhere, hup] using h
    case h_2 => cases h
    case h_3 => cases h
  · rintro ⟨⟨hdirectory, hentry⟩, h⟩
    rw [hdirectory]
    by_cases hhere : isHere segment = true
    · rw [onward_of_isHere place hhere] at h
      simpa [hhere] using h
    · by_cases hup : segment = ".."
      · simpa [onward, hup] using h
      · have hdown : Downward segment := ⟨by simpa using hhere, hup⟩
        rcases hentry hdown with ⟨hname, entry, hthere⟩
        rw [onward_of_downward place hdown] at h
        simpa [hhere, hup, hname, hthere] using h

/-- Following segments ends where they lead, or nowhere. -/
theorem eq_target_of_follow {files : FileSystem} {place segments stop : List String}
    (h : files.follow place segments = .ok stop) : stop = target place segments := by
  induction segments generalizing place with
  | nil =>
      cases h
      rfl
  | cons segment rest ih =>
      rw [target_cons]
      exact ih (follow_cons_eq_ok.mp h).2

theorem follow_append_eq_ok {files : FileSystem} {place first second stop : List String} :
    files.follow place (first ++ second) = .ok stop ↔
      ∃ middle, files.follow place first = .ok middle ∧
        files.follow middle second = .ok stop := by
  induction first generalizing place with
  | nil => simp [follow]
  | cons segment rest ih =>
      rw [List.cons_append, follow_cons_eq_ok, ih]
      simp only [follow_cons_eq_ok, and_assoc, exists_and_left]

theorem Passable.grow {files after : FileSystem} {place : List String} {segment : String}
    (h : files.Passable place segment) (hgrow : files.GrowsTo after) :
    after.Passable place segment where
  directory := hgrow.directory h.directory
  entry := by
    intro hdown
    rcases h.entry hdown with ⟨hname, entry, hentry⟩
    rcases hgrow.entries _ entry hentry with ⟨later, hlater, _⟩
    exact ⟨hname, later, hlater⟩

theorem GrowsTo.follow {files after : FileSystem} (h : files.GrowsTo after)
    {place segments stop : List String} (hfollow : files.follow place segments = .ok stop) :
    after.follow place segments = .ok stop := by
  induction segments generalizing place with
  | nil => exact hfollow
  | cons segment rest ih =>
      rcases follow_cons_eq_ok.mp hfollow with ⟨hpass, hrest⟩
      exact follow_cons_eq_ok.mpr ⟨hpass.grow h, ih hrest⟩

/-!
## Making directories
-/

/-- What making a directory for one segment does. -/
inductive Makes (files : FileSystem) (place : List String) (segment : String) :
    FileSystem → Prop where
  | none (h : ¬ Downward segment) : Makes files place segment files
  | new (h : Downward segment) (hname : nameFault? segment = .none)
      (hmissing : files.entry? (place ++ [segment]) = .none) :
      Makes files place segment (files.put (place ++ [segment]) .directory)
  | old (h : Downward segment) (hname : nameFault? segment = .none)
      (hthere : files.entry? (place ++ [segment]) = some .directory) :
      Makes files place segment files

namespace Makes

variable {files middle : FileSystem} {place : List String} {segment : String}

/-- What is there stays. -/
theorem keeps (h : files.Makes place segment middle) {other : List String} {entry : FileEntry}
    (hentry : files.entry? other = some entry) : middle.entry? other = some entry := by
  cases h with
  | none => exact hentry
  | new _ _ hmissing =>
      have hother : other ≠ place ++ [segment] := by
        rintro rfl
        rw [hmissing] at hentry
        cases hentry
      rw [entry?_put_of_ne files (by simp) .directory hother, hentry]
  | old => exact hentry

theorem growsTo (h : files.Makes place segment middle) : files.GrowsTo middle where
  workingDirectory := by
    cases h with
    | none => rfl
    | new => rw [put_workingDirectory]
    | old => rfl
  entries := fun _ entry hentry => ⟨entry, h.keeps hentry, rfl⟩

theorem directory (h : files.Makes place segment middle) (hdown : Downward segment) :
    middle.entry? (place ++ [segment]) = some .directory := by
  cases h with
  | none hnone => exact absurd hdown hnone
  | new => exact entry?_put_self files (by simp) .directory
  | old _ _ hthere => exact hthere

theorem name (h : files.Makes place segment middle) (hdown : Downward segment) :
    nameFault? segment = .none := by
  cases h with
  | none hnone => exact absurd hdown hnone
  | new _ hname => exact hname
  | old _ hname => exact hname

/-- What was made once is there later, and need not be made. -/
theorem again (h : files.Makes place segment middle) {later : FileSystem}
    (hgrow : middle.GrowsTo later) : later.Makes place segment later := by
  by_cases hdown : Downward segment
  · exact .old hdown (h.name hdown) (hgrow.directory (h.directory hdown))
  · exact .none hdown

/-- Nothing else comes of making a directory. -/
theorem entry?_eq_or (h : files.Makes place segment middle) (other : List String) :
    middle.entry? other = files.entry? other ∨
      (Downward segment ∧ other = place ++ [segment]
        ∧ middle.entry? other = some .directory) := by
  cases h with
  | none => exact Or.inl rfl
  | new hdown _ _ =>
      by_cases hother : other = place ++ [segment]
      · subst hother
        exact Or.inr ⟨hdown, rfl, entry?_put_self files (by simp) .directory⟩
      · exact Or.inl (entry?_put_of_ne files (by simp) .directory hother)
  | old => exact Or.inl rfl

end Makes

theorem createFrom_cons_eq_ok {files after : FileSystem} {place rest : List String}
    {segment : String} :
    files.createFrom place (segment :: rest) = .ok after ↔
      ∃ middle, files.Makes place segment middle ∧
        middle.createFrom (onward place segment) rest = .ok after := by
  rw [createFrom]
  by_cases hdown : Downward segment
  · rw [onward_of_downward place hdown, hdown.1, if_neg Bool.false_ne_true, if_neg hdown.2]
    constructor
    · intro h
      split at h
      case h_1 => cases h
      case h_2 hname hmissing => exact ⟨_, .new hdown hname hmissing, h⟩
      case h_3 hname hthere => exact ⟨_, .old hdown hname hthere, h⟩
      case h_4 => cases h
    · rintro ⟨middle, hmakes, h⟩
      cases hmakes with
      | none hnone => exact absurd hdown hnone
      | new _ hname hmissing => simpa [hname, hmissing] using h
      | old _ hname hthere => simpa [hname, hthere] using h
  · -- A segment that does not lead down makes nothing.
    have hnone : ∀ middle, files.Makes place segment middle ↔ middle = files := by
      intro middle
      constructor
      · intro hmakes
        cases hmakes with
        | none => rfl
        | new hd => exact absurd hd hdown
        | old hd => exact absurd hd hdown
      · rintro rfl
        exact .none hdown
    simp only [hnone, exists_eq_left, onward]
    by_cases hhere : isHere segment = true
    · simp [hhere]
    · by_cases hup : segment = ".."
      · simp [hup]
      · exact absurd ⟨by simpa using hhere, hup⟩ hdown

theorem createFrom_nil (files : FileSystem) (place : List String) :
    files.createFrom place [] = .ok files := by
  rw [createFrom]

theorem createFrom_append_eq_ok {files after : FileSystem} {place first second : List String} :
    files.createFrom place (first ++ second) = .ok after ↔
      ∃ middle, files.createFrom place first = .ok middle ∧
        middle.createFrom (target place first) second = .ok after := by
  induction first generalizing files place with
  | nil => simp [createFrom_nil, target]
  | cons segment rest ih =>
      rw [List.cons_append, createFrom_cons_eq_ok, target_cons]
      simp only [createFrom_cons_eq_ok, ih]
      constructor
      · rintro ⟨made, hmakes, middle, hrest, h⟩
        exact ⟨middle, ⟨made, hmakes, hrest⟩, h⟩
      · rintro ⟨middle, ⟨made, hmakes, hrest⟩, h⟩
        exact ⟨made, hmakes, middle, hrest, h⟩

theorem growsTo_of_createFrom {files after : FileSystem} {place segments : List String}
    (h : files.createFrom place segments = .ok after) : files.GrowsTo after := by
  induction segments generalizing files place with
  | nil =>
      rw [createFrom_nil] at h
      cases h
      exact GrowsTo.refl _
  | cons segment rest ih =>
      rcases createFrom_cons_eq_ok.mp h with ⟨middle, hmakes, hrest⟩
      exact hmakes.growsTo.trans (ih hrest)

theorem entry?_of_createFrom {files after : FileSystem} {place segments other : List String}
    {entry : FileEntry} (h : files.createFrom place segments = .ok after)
    (hentry : files.entry? other = some entry) : after.entry? other = some entry := by
  induction segments generalizing files place with
  | nil =>
      rw [createFrom_nil] at h
      cases h
      exact hentry
  | cons segment rest ih =>
      rcases createFrom_cons_eq_ok.mp h with ⟨middle, hmakes, hrest⟩
      exact ih hrest (hmakes.keeps hentry)

/-- Directories that were made once need not be made again. -/
theorem createFrom_again {files after later : FileSystem} {place segments : List String}
    (h : files.createFrom place segments = .ok after) (hgrow : after.GrowsTo later) :
    later.createFrom place segments = .ok later := by
  induction segments generalizing files place with
  | nil => exact createFrom_nil _ place
  | cons segment rest ih =>
      rcases createFrom_cons_eq_ok.mp h with ⟨middle, hmakes, hrest⟩
      have hlater := hmakes.again ((growsTo_of_createFrom hrest).trans hgrow)
      exact createFrom_cons_eq_ok.mpr ⟨later, hlater, ih hrest⟩

theorem createFrom_essential {files after : FileSystem} {place segments : List String} :
    files.createFrom place (essential segments) = .ok after ↔
      files.createFrom place segments = .ok after := by
  induction segments generalizing files place with
  | nil => rfl
  | cons segment rest ih =>
      rw [essential, List.filter_cons]
      by_cases hhere : isHere segment = true
      · rw [createFrom, if_pos hhere]
        simpa [hhere, essential] using ih
      · rw [createFrom_cons_eq_ok, if_pos (by simp [hhere]), createFrom_cons_eq_ok]
        exact exists_congr fun middle => and_congr_right fun _ => ih

example : (createFrom {} ["a"] [".", "b"]).toOption.map (·.entries.map Prod.fst) =
    some [["a", "b"]] := by decide +kernel

/-- Where segments can be followed to a directory, no directory is missing. -/
theorem createFrom_of_follow {files : FileSystem} {place segments stop : List String}
    (h : files.follow place segments = .ok stop) (hstop : files.entry? stop = some .directory) :
    files.createFrom place segments = .ok files := by
  induction segments generalizing place with
  | nil => exact createFrom_nil files place
  | cons segment rest ih =>
      rcases follow_cons_eq_ok.mp h with ⟨hpass, hrest⟩
      refine createFrom_cons_eq_ok.mpr ⟨files, ?_, ih hrest⟩
      by_cases hdown : Downward segment
      · -- What the segment leads to is a directory, since the walk goes on from it or stops there.
        have hnext : files.entry? (onward place segment) = some .directory := by
          cases rest with
          | nil =>
              cases hrest
              exact hstop
          | cons next others => exact (follow_cons_eq_ok.mp hrest).1.directory
        rw [onward_of_downward place hdown] at hnext
        exact .old hdown (hpass.entry hdown).1 hnext
      · exact .none hdown

/-- Names that lead down from a place have directories made for them below that place only. -/
theorem entry?_eq_or_of_createFrom {files after : FileSystem} {place names : List String}
    (hnames : ∀ name ∈ names, Downward name) (h : files.createFrom place names = .ok after)
    (other : List String) :
    after.entry? other = files.entry? other ∨
      ∃ steps, steps ≠ [] ∧ steps <+: names ∧ other = place ++ steps := by
  induction names generalizing files place with
  | nil =>
      rw [createFrom_nil] at h
      cases h
      exact Or.inl rfl
  | cons name rest ih =>
      rcases createFrom_cons_eq_ok.mp h with ⟨middle, hmakes, hrest⟩
      rw [onward_of_downward place (hnames name List.mem_cons_self)] at hrest
      rcases ih (fun n hn => hnames n (List.mem_cons_of_mem _ hn)) hrest with hsame | hbelow
      · rcases hmakes.entry?_eq_or other with hmiddle | ⟨_, hother, _⟩
        · exact Or.inl (hsame.trans hmiddle)
        · exact Or.inr ⟨[name], by simp, by simp, hother⟩
      · rcases hbelow with ⟨steps, _, hinitial, hother⟩
        refine Or.inr ⟨name :: steps, by simp, ?_, by simpa using hother⟩
        exact List.cons_prefix_cons.mpr ⟨rfl, hinitial⟩

end FileSystem

end AssemblyBrowser
