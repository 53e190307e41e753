import AssemblyBrowser.Proofs.Files.PathTexts

/-!
# Writing files

A file that was written is read back, and it stays as it is until its place is
written to again. Writing through a path makes the directories that are missing
on the way and touches nothing else.
-/

namespace AssemblyBrowser.FileSystem

variable {files made after : FileSystem} {path : String} {content : Bytes}

/-!
## Reading
-/

theorem locate_eq_ok {place : List String} :
    files.locate path = .ok place ↔
      path ≠ "" ∧ files.follow (files.start path) (segments path) = .ok place ∧
        place = files.destination path := by
  unfold locate
  by_cases hempty : path = ""
  · simp [hempty]
  · have hne : path.isEmpty = false := String.isEmpty_eq_false_iff.mpr hempty
    rw [hne, if_neg Bool.false_ne_true]
    constructor
    · intro h
      exact ⟨hempty, h, eq_target_of_follow h⟩
    · rintro ⟨_, h, _⟩
      exact h

theorem lookup_eq_ok {entry : FileEntry} :
    files.lookup path = .ok entry ↔
      files.locate path = .ok (files.destination path) ∧
        files.entry? (files.destination path) = some entry := by
  unfold lookup
  rw [Outcome.bind_eq_ok]
  constructor
  · rintro ⟨place, hlocate, h⟩
    have hplace := (locate_eq_ok.mp hlocate).2.2
    subst hplace
    cases hentry : files.entry? (files.destination path) with
    | none =>
        rw [hentry] at h
        cases h
    | some other =>
        rw [hentry] at h
        cases h
        exact ⟨hlocate, rfl⟩
  · rintro ⟨hlocate, hentry⟩
    refine ⟨_, hlocate, ?_⟩
    rw [hentry]
    rfl

theorem read_eq_ok :
    files.read path = .ok content ↔
      files.locate path = .ok (files.destination path) ∧
        files.entry? (files.destination path) = some (.file content) := by
  rw [← lookup_eq_ok]
  unfold read
  rw [Outcome.bind_eq_ok]
  constructor
  · rintro ⟨entry, hlookup, h⟩
    cases entry with
    | directory => cases h
    | file other =>
        cases h
        exact hlookup
  · intro hlookup
    exact ⟨_, hlookup, rfl⟩

theorem GrowsTo.destination (h : files.GrowsTo after) (path : String) :
    after.destination path = files.destination path := by
  unfold FileSystem.destination
  rw [h.start]

/-- A file is read as before if its own entry is as before. -/
theorem GrowsTo.read (h : files.GrowsTo after)
    (hentry : after.entry? (files.destination path) = files.entry? (files.destination path))
    (hread : files.read path = .ok content) : after.read path = .ok content := by
  rcases read_eq_ok.mp hread with ⟨hlocate, hfile⟩
  rcases locate_eq_ok.mp hlocate with ⟨hne, hfollow, _⟩
  have hlater : after.locate path = .ok (after.destination path) := by
    rw [locate_eq_ok, h.start, h.destination]
    exact ⟨hne, h.follow hfollow, rfl⟩
  apply read_eq_ok.mpr
  rw [h.destination, hentry]
  exact ⟨by rw [hlater, h.destination], hfile⟩

/-!
## Writing
-/

/-- Whether a file can be written at the end of a path. -/
structure Writable (files : FileSystem) (path : String) (above : List String) (name : String) :
    Prop where
  nonempty : path ≠ ""
  segments : segments path = above ++ [name]
  downward : Downward name
  follow : files.follow (files.start path) above = .ok (target (files.start path) above)
  directory : files.entry? (target (files.start path) above) = some .directory
  nameFault : nameFault? name = none
  notDirectory : files.entry? (files.destination path) ≠ some .directory

theorem destination_of_segments {above : List String} {name : String}
    (hsegments : segments path = above ++ [name]) (hdown : Downward name) :
    files.destination path = target (files.start path) above ++ [name] := by
  unfold destination
  rw [hsegments, target_append, target_cons, onward_of_downward _ hdown]
  rfl

theorem Writable.destination {above : List String} {name : String}
    (h : files.Writable path above name) :
    files.destination path = target (files.start path) above ++ [name] :=
  destination_of_segments h.segments h.downward

theorem write_eq_ok (h : files.write path content = .ok after) :
    (∃ above name, files.Writable path above name) ∧
      after = files.put (files.destination path) (.file content) := by
  unfold write at h
  rcases List.eq_nil_or_concat' (segments path) with hnil | ⟨above, name, hsegments⟩
  · rcases exists_segments_eq_cons path with ⟨first, rest, hcons⟩
    rw [hnil] at hcons
    cases hcons
  · rw [hsegments, List.dropLast_concat, List.getLast?_concat, Option.getD_some] at h
    by_cases hempty : path.isEmpty = true
    · rw [if_pos hempty] at h
      cases h
    · rw [if_neg hempty] at h
      rcases Outcome.bind_eq_ok.mp h with ⟨place, hfollow, h⟩
      have hplace := eq_target_of_follow hfollow
      subst hplace
      dsimp only at h
      split at h
      case h_1 hdirectory =>
        by_cases hdown : Downward name
        · have hdestination : files.destination path =
              target (files.start path) above ++ [name] :=
            destination_of_segments hsegments hdown
          simp only [hdown.1, Bool.false_or, beq_iff_eq, if_neg hdown.2] at h
          split at h
          case h_1 => cases h
          case h_2 hfault =>
            split at h
            case h_1 => cases h
            case h_2 hnot =>
              rw [← hdestination] at hnot h
              refine ⟨⟨above, name, ?_⟩, (Outcome.pure_eq_ok.mp h).symm⟩
              exact
                { nonempty := fun he => hempty (String.isEmpty_iff.mpr he)
                  segments := hsegments
                  downward := hdown
                  follow := hfollow
                  directory := hdirectory
                  nameFault := Option.eq_none_iff_forall_ne_some.mpr hfault
                  notDirectory := hnot }
        · -- No file is called `.` or `..`, or nothing.
          rw [if_pos] at h
          · cases h
          · by_cases hhere : isHere name = true
            · simp [hhere]
            · have hup : name = ".." := by
                by_contra hne
                exact hdown ⟨by simpa using hhere, hne⟩
              simp [hup]
      case h_2 => cases h
      case h_3 => cases h

theorem growsTo_of_write (h : files.write path content = .ok after) : files.GrowsTo after := by
  rcases write_eq_ok h with ⟨⟨above, name, hwritable⟩, rfl⟩
  apply GrowsTo.put
  · rw [hwritable.destination]
    simp
  · intro old hold
    cases old with
    | directory => exact absurd hold hwritable.notDirectory
    | file other => rfl

theorem entry?_of_write (h : files.write path content = .ok after) :
    after.entry? (files.destination path) = some (.file content) := by
  rcases write_eq_ok h with ⟨⟨above, name, hwritable⟩, rfl⟩
  apply entry?_put_self
  rw [hwritable.destination]
  simp

theorem entry?_of_write_of_ne (h : files.write path content = .ok after) {other : List String}
    (hother : other ≠ files.destination path) : after.entry? other = files.entry? other := by
  rcases write_eq_ok h with ⟨⟨above, name, hwritable⟩, rfl⟩
  apply entry?_put_of_ne files ?_ _ hother
  rw [hwritable.destination]
  simp

theorem read_of_write (h : files.write path content = .ok after) :
    after.read path = .ok content := by
  have hgrow := growsTo_of_write h
  have hentry := entry?_of_write h
  rcases write_eq_ok h with ⟨⟨above, name, hwritable⟩, _⟩
  rw [read_eq_ok, hgrow.destination, locate_eq_ok, hgrow.start, hgrow.destination,
    hwritable.segments, follow_append_eq_ok]
  refine ⟨⟨hwritable.nonempty, ⟨_, hgrow.follow hwritable.follow, ?_⟩, rfl⟩, hentry⟩
  rw [follow_cons_eq_ok, onward_of_downward _ hwritable.downward, ← hwritable.destination]
  refine ⟨⟨hgrow.directory hwritable.directory, fun _ => ⟨hwritable.nameFault, ?_⟩⟩, rfl⟩
  rw [← hwritable.destination]
  exact ⟨_, hentry⟩

/-!
## Making the way to a file
-/

theorem createFrom_of_createDirectories (h : files.createDirectories path = .ok after) :
    files.createFrom (files.start path) (segments path) = .ok after := by
  unfold createDirectories at h
  split at h
  case isTrue hempty =>
    cases h
    rw [String.isEmpty_iff.mp hempty, ← createFrom_essential]
    exact createFrom_nil files _
  case isFalse =>
    split at h
    case isTrue =>
      split at h
      case h_1 hlookup =>
        cases h
        rcases lookup_eq_ok.mp hlookup with ⟨hlocate, hentry⟩
        exact createFrom_of_follow (locate_eq_ok.mp hlocate).2.1 hentry
      case h_2 => cases h
      case h_3 => cases h
    case isFalse => exact h

theorem write_of_writeThrough (h : files.writeThrough path content = .ok after) :
    ∃ made, (∀ parent, Path.parent? path = some parent →
        files.createDirectories parent = .ok made) ∧ made.write path content = .ok after := by
  unfold writeThrough at h
  dsimp only at h
  cases hparent : Path.parent? path with
  | none =>
      rw [hparent] at h
      exact ⟨files, by simp, h⟩
  | some parent =>
      rw [hparent] at h
      rcases Outcome.bind_eq_ok.mp h with ⟨made, hmade, hwrite⟩
      refine ⟨made, ?_, hwrite⟩
      intro other hother
      cases hother
      exact hmade

theorem writeThrough_eq_ok (h : files.writeThrough path content = .ok after) :
    ∃ above name made, essential (segments path) = above ++ [name] ∧
      files.createFrom (files.start path) above = .ok made ∧
      made.write path content = .ok after := by
  rcases write_of_writeThrough h with ⟨made, hmade, hwrite⟩
  rcases write_eq_ok hwrite with ⟨⟨before, name, hwritable⟩, _⟩
  have hname : essential [name] = [name] :=
    essential_of_downward (by simpa using hwritable.downward)
  have hsegments : essential (segments path) = essential before ++ [name] := by
    rw [hwritable.segments, essential_append, hname]
  -- The directories are made along the parent's own text, which has the same essential segments.
  rcases parent?_of_segments hsegments with ⟨parent, hparent, habove, hslash⟩
  have hcreate := createFrom_of_createDirectories (hmade parent hparent)
  rw [← createFrom_essential, habove] at hcreate
  have hstart : files.start parent = files.start path := by
    unfold start
    rw [hslash]
  rw [hstart] at hcreate
  exact ⟨essential before, name, made, hsegments, hcreate, hwrite⟩

theorem growsTo_of_writeThrough (h : files.writeThrough path content = .ok after) :
    files.GrowsTo after := by
  rcases writeThrough_eq_ok h with ⟨above, name, made, _, hmade, hwrite⟩
  exact (growsTo_of_createFrom hmade).trans (growsTo_of_write hwrite)

theorem read_of_writeThrough (h : files.writeThrough path content = .ok after) :
    after.read path = .ok content := by
  rcases writeThrough_eq_ok h with ⟨_, _, _, _, _, hwrite⟩
  exact read_of_write hwrite

/-- Writing to one place changes nothing that is at another. -/
theorem entry?_of_writeThrough (h : files.writeThrough path content = .ok after)
    {other : List String} (hother : other ≠ files.destination path) {entry : FileEntry}
    (hentry : files.entry? other = some entry) : after.entry? other = some entry := by
  rcases writeThrough_eq_ok h with ⟨above, name, made, _, hmade, hwrite⟩
  rw [← (growsTo_of_createFrom hmade).destination] at hother
  rw [entry?_of_write_of_ne hwrite hother]
  exact entry?_of_createFrom hmade hentry

/-- Writing to a file below a directory that is there adds nothing but what leads from that
directory to the file. -/
theorem entry?_eq_or_of_writeThrough {directory : String} {names : List String}
    (hthere : files.createFrom (files.start directory) (segments directory) = .ok files)
    (hnames : ∀ name ∈ names, IsName name) (hne : names ≠ [])
    (h : files.writeThrough (names.foldl Path.join directory) content = .ok after)
    (other : List String) :
    after.entry? other = files.entry? other ∨
      ∃ steps, steps ≠ [] ∧ steps <+: names ∧ other = files.destination directory ++ steps := by
  rcases writeThrough_eq_ok h with ⟨above, name, made, hsegments, hmade, hwrite⟩
  rw [essential_segments_joins hnames] at hsegments
  rcases List.eq_nil_or_concat' names with rfl | ⟨steps, last, rfl⟩
  · exact absurd rfl hne
  rw [← List.append_assoc] at hsegments
  have habove := (List.append_inj' hsegments rfl).1
  rw [← habove, start_joins files hnames, createFrom_append_eq_ok] at hmade
  rcases hmade with ⟨middle, hmiddle, hmade⟩
  -- The directory is there already, so what is made on the way is made below it.
  rw [createFrom_essential, hthere] at hmiddle
  cases hmiddle
  rw [target_essential] at hmade
  by_cases hfile : other = files.destination directory ++ (steps ++ [last])
  · exact Or.inr ⟨steps ++ [last], by simp, List.prefix_rfl, hfile⟩
  · rw [← destination_joins files hnames, ← (growsTo_of_createFrom hmade).destination] at hfile
    rw [entry?_of_write_of_ne hwrite hfile]
    have hsteps : ∀ step ∈ steps, Downward step :=
      fun step hstep => (hnames step (List.mem_append_left _ hstep)).downward
    rcases entry?_eq_or_of_createFrom hsteps hmade other with hsame | ⟨some, hsome, hinitial, hat⟩
    · exact Or.inl hsame
    · exact Or.inr ⟨some, hsome, hinitial.trans (List.prefix_append steps [last]), hat⟩

/-!
## Writing again
-/

theorem createDirectories_again {later : FileSystem} (h : files.createDirectories path = .ok made)
    (hgrow : made.GrowsTo later) : later.createDirectories path = .ok later := by
  unfold createDirectories at h ⊢
  split
  case isTrue => rfl
  case isFalse hne =>
    rw [if_neg hne] at h
    split
    case isTrue hdot =>
      rw [if_pos hdot] at h
      cases hlookup : files.lookup path with
      | error fault =>
          rw [hlookup] at h
          cases h
      | ok entry =>
          cases entry with
          | file old =>
              rw [hlookup] at h
              cases h
          | directory =>
              rw [hlookup] at h
              cases h
              rcases lookup_eq_ok.mp hlookup with ⟨hlocate, hentry⟩
              rcases locate_eq_ok.mp hlocate with ⟨hpath, hfollow, _⟩
              have hlater : later.lookup path = .ok .directory := by
                rw [lookup_eq_ok, locate_eq_ok, hgrow.destination, hgrow.start]
                exact ⟨⟨hpath, hgrow.follow hfollow, rfl⟩, hgrow.directory hentry⟩
              rw [hlater]
    case isFalse hdot =>
      rw [if_neg hdot] at h
      rw [hgrow.start, (growsTo_of_createFrom h).start]
      exact createFrom_again h hgrow

theorem Writable.write {above : List String} {name : String} (h : files.Writable path above name)
    (content : Bytes) :
    files.write path content = .ok (files.put (files.destination path) (.file content)) := by
  have hne : path.isEmpty = false := String.isEmpty_eq_false_iff.mpr h.nonempty
  have hup : (name == "..") = false := beq_eq_false_iff_ne.mpr h.downward.2
  have hentry := h.notDirectory
  rw [h.destination] at hentry ⊢
  unfold FileSystem.write
  rw [hne, h.segments, List.dropLast_concat, List.getLast?_concat, h.follow]
  simp only [Option.getD_some, h.downward.1, hup, h.nameFault, Outcome.ok_bind, h.directory]
  rfl

/-- A file that was written can be written again. -/
theorem writeThrough_again (h : files.writeThrough path content = .ok after) (other : Bytes) :
    ∃ later, after.writeThrough path other = .ok later := by
  rcases write_of_writeThrough h with ⟨made, hmade, hwrite⟩
  rcases write_eq_ok hwrite with ⟨⟨above, name, hwritable⟩, _⟩
  have hgrow := growsTo_of_write hwrite
  have hagain : after.Writable path above name :=
    { nonempty := hwritable.nonempty
      segments := hwritable.segments
      downward := hwritable.downward
      follow := by
        rw [hgrow.start]
        exact hgrow.follow hwritable.follow
      directory := by
        rw [hgrow.start]
        exact hgrow.directory hwritable.directory
      nameFault := hwritable.nameFault
      notDirectory := by
        rw [hgrow.destination, entry?_of_write hwrite]
        simp }
  refine ⟨after.put (after.destination path) (.file other), ?_⟩
  unfold writeThrough
  cases hparent : Path.parent? path with
  | none => exact hagain.write other
  | some parent =>
      dsimp only
      rw [createDirectories_again (hmade parent hparent) hgrow]
      exact hagain.write other

end AssemblyBrowser.FileSystem
