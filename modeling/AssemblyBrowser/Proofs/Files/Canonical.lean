import AssemblyBrowser.Proofs.Files.Writing

/-!
# Canonical paths

The canonical form of a path spells out the place that it leads to. It leads to
the same place, so it is its own canonical form, as long as the directory where
relative paths begin is a place that can be reached.
-/

namespace AssemblyBrowser.FileSystem

variable {files : FileSystem} {place : List String}

theorem exists_entry_of_isFile {path : String} (h : files.isFile path = true) :
    ∃ entry ∈ files.entries, files.normalize path = placeText entry.1 := by
  unfold isFile at h
  split at h
  case h_1 content hlookup =>
    rcases lookup_eq_ok.mp hlookup with ⟨hlocate, hentry⟩
    unfold normalize
    rw [hlocate]
    cases hplace : files.destination path with
    | nil =>
        rw [hplace] at hentry
        cases hentry
    | cons name rest =>
        rw [hplace] at hentry
        rcases Option.map_eq_some_iff.mp hentry with ⟨entry, hfound, _⟩
        have hname := List.find?_some hfound
        exact ⟨entry, List.mem_of_find?_eq_some hfound, by rw [eq_of_beq hname]⟩
  case h_2 => cases h

theorem start_placeText (files : FileSystem) (place : List String) :
    files.start (placeText place) = [] := by
  have hslash : (placeText place).startsWith "/" = true := by
    refine Path.startsWith_slash_iff.mpr ⟨(String.intercalate "/" place).toList, ?_⟩
    unfold placeText
    rw [String.toList_append]
    rfl
  unfold start
  rw [if_pos hslash]

/-- Whether the names of a place lead to it from the root. -/
structure Reached (files : FileSystem) (place : List String) : Prop where
  names : ∀ name ∈ place, IsName name
  follows : files.follow [] place = .ok place

namespace Reached

theorem root (files : FileSystem) : files.Reached [] :=
  ⟨fun _ h => absurd h List.not_mem_nil, rfl⟩

/-- One segment leads on to a place that is reached. -/
theorem onward (h : files.Reached place) {segment : String} (hslash : '/' ∉ segment.toList)
    (hpass : files.Passable place segment) : files.Reached (onward place segment) := by
  by_cases hhere : isHere segment = true
  · rw [onward_of_isHere place hhere]
    exact h
  · by_cases hup : segment = ".."
    · have hdrop : FileSystem.onward place segment = place.dropLast := by
        simp [FileSystem.onward, hup]
      rw [hdrop]
      rcases List.eq_nil_or_concat' place with rfl | ⟨above, last, rfl⟩
      · exact root files
      · rw [List.dropLast_concat]
        have hnames : ∀ name ∈ above, IsName name := fun name hname =>
          h.names name (List.mem_append_left _ hname)
        rcases follow_append_eq_ok.mp h.follows with ⟨middle, hmiddle, _⟩
        have habove := eq_target_of_follow hmiddle
        rw [target_of_downward (fun name hname => (hnames name hname).downward),
          List.nil_append] at habove
        rw [habove] at hmiddle
        exact ⟨hnames, hmiddle⟩
    · have hdown : Downward segment := ⟨by simpa using hhere, hup⟩
      rw [onward_of_downward place hdown]
      constructor
      · intro name hname
        rcases List.mem_append.mp hname with habove | hlast
        · exact h.names name habove
        · rw [List.mem_singleton.mp hlast]
          exact ⟨hdown, hslash⟩
      · refine follow_append_eq_ok.mpr ⟨place, h.follows, follow_cons_eq_ok.mpr ⟨hpass, ?_⟩⟩
        rw [onward_of_downward place hdown]
        rfl

theorem follow (h : files.Reached place) {segments stop : List String}
    (hslash : ∀ segment ∈ segments, '/' ∉ segment.toList)
    (hfollow : files.follow place segments = .ok stop) : files.Reached stop := by
  induction segments generalizing place with
  | nil =>
      cases hfollow
      exact h
  | cons segment rest ih =>
      rcases follow_cons_eq_ok.mp hfollow with ⟨hpass, hrest⟩
      exact ih (h.onward (hslash segment List.mem_cons_self) hpass)
        (fun other hother => hslash other (List.mem_cons_of_mem _ hother)) hrest

/-- The text of a place leads to it. -/
theorem locate_placeText (h : files.Reached place) :
    files.locate (placeText place) = .ok place := by
  have hsegments : files.follow [] (segments (placeText place)) = .ok place := by
    have hsplit : segments (placeText place) =
        "" :: segments (String.intercalate "/" place) := by
      have happend := segments_append_slash "" (String.intercalate "/" place)
      simpa [placeText] using happend
    rw [hsplit]
    refine follow_cons_eq_ok.mpr ⟨⟨rfl, fun hdown => absurd hdown (by decide)⟩, ?_⟩
    rw [onward_of_isHere [] (by decide)]
    cases place with
    | nil => rfl
    | cons name rest =>
        rw [segments_intercalate (by simp) fun other hother => (h.names other hother).noSlash]
        exact h.follows
  unfold locate
  rw [if_neg (by simp [placeText, String.isEmpty_iff]), start_placeText]
  exact hsegments

end Reached

theorem normalize_normalize
    (hdirectory : files.locate (placeText files.workingDirectory) = .ok files.workingDirectory)
    (path : String) : files.normalize (files.normalize path) = files.normalize path := by
  have hlocate {path : String} {place : List String} (hstart : files.Reached (files.start path))
      (h : files.locate path = .ok place) : files.Reached place :=
    hstart.follow (fun _ hsegment => not_mem_of_mem_segments hsegment) (locate_eq_ok.mp h).2.1
  have hworking : files.Reached files.workingDirectory := by
    refine hlocate ?_ hdirectory
    rw [start_placeText]
    exact Reached.root files
  have hstart : files.Reached (files.start path) := by
    unfold start
    split
    · exact Reached.root files
    · exact hworking
  cases hpath : files.locate path with
  | ok place =>
      have hplace := (hlocate hstart hpath).locate_placeText
      simp only [normalize, hpath, hplace]
  | error fault => simp only [normalize, hpath]

end AssemblyBrowser.FileSystem
