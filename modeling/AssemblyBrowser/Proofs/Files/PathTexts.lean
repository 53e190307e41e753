import AssemblyBrowser.Proofs.Files.Walks

/-!
# Path texts

The segments of a path text, and those of the paths made from it: one that leads
on to another name, and the one of the directory that a path leads through last.
-/

namespace AssemblyBrowser

namespace Path

/-!
## Splitting
-/

theorem splitChars_ne_nil (separator : Char → Bool) (chars : List Char) :
    splitChars separator chars ≠ [] := by
  cases chars with
  | nil => simp [splitChars]
  | cons c rest =>
      rw [splitChars]
      split
      · simp
      · split
        · simp
        · simp

theorem splitChars_append {separator : Char → Bool} {c : Char} (h : separator c = true)
    (first rest : List Char) :
    splitChars separator (first ++ c :: rest) =
      splitChars separator first ++ splitChars separator rest := by
  induction first with
  | nil => simp [splitChars, h]
  | cons d others ih =>
      rw [List.cons_append, splitChars, splitChars, ih]
      by_cases hd : separator d = true
      · simp [hd]
      · rcases List.exists_cons_of_ne_nil (splitChars_ne_nil separator others) with
          ⟨part, parts, hparts⟩
        simp [hd, hparts]

theorem splitChars_of_forall {separator : Char → Bool} {chars : List Char}
    (h : ∀ c ∈ chars, separator c = false) : splitChars separator chars = [chars] := by
  induction chars with
  | nil => rfl
  | cons c rest ih =>
      rw [splitChars, ih fun d hd => h d (List.mem_cons_of_mem c hd)]
      simp [h c List.mem_cons_self]

theorem separator_of_mem_splitChars {separator : Char → Bool} {chars part : List Char}
    (hpart : part ∈ splitChars separator chars) {c : Char} (hc : c ∈ part) :
    separator c = false := by
  induction chars generalizing part with
  | nil =>
      simp only [splitChars, List.mem_singleton] at hpart
      subst hpart
      cases hc
  | cons d rest ih =>
      rw [splitChars] at hpart
      split at hpart
      case isTrue =>
        rcases List.mem_cons.mp hpart with rfl | hrest
        · cases hc
        · exact ih hrest hc
      case isFalse hd =>
        rcases List.exists_cons_of_ne_nil (splitChars_ne_nil separator rest) with
          ⟨first, others, hfirst⟩
        rw [hfirst] at hpart ih
        rcases List.mem_cons.mp hpart with rfl | hothers
        · rcases List.mem_cons.mp hc with rfl | hc
          · simpa using hd
          · exact ih List.mem_cons_self hc
        · exact ih (List.mem_cons_of_mem first hothers) hc

theorem separator_of_mem_split {separator : Char → Bool} {text part : String}
    (hpart : part ∈ split separator text) {c : Char} (hc : c ∈ part.toList) :
    separator c = false := by
  rcases List.mem_map.mp hpart with ⟨chars, hchars, rfl⟩
  rw [String.toList_ofList] at hc
  exact separator_of_mem_splitChars hchars hc

theorem split_of_forall {separator : Char → Bool} {text : String}
    (h : ∀ c ∈ text.toList, separator c = false) : split separator text = [text] := by
  simp [split, splitChars_of_forall h]

theorem startsWith_slash_iff {path : String} :
    path.startsWith "/" = true ↔ ∃ rest, path.toList = '/' :: rest := by
  rw [String.startsWith_string_iff]
  show ['/'] <+: path.toList ↔ _
  constructor
  · rintro ⟨rest, hrest⟩
    exact ⟨rest, hrest.symm⟩
  · rintro ⟨rest, hrest⟩
    exact ⟨rest, hrest.symm⟩

theorem startsWith_slash_of_not_mem {path : String} (h : '/' ∉ path.toList) :
    path.startsWith "/" = false := by
  rw [Bool.eq_false_iff]
  intro hslash
  rcases startsWith_slash_iff.mp hslash with ⟨rest, hrest⟩
  simp [hrest] at h

theorem startsWith_slash_append {first : String} (hfirst : first ≠ "") (rest : String) :
    (first ++ rest).startsWith "/" = first.startsWith "/" := by
  rw [Bool.eq_iff_iff, startsWith_slash_iff, startsWith_slash_iff, String.toList_append]
  cases hchars : first.toList with
  | nil => exact absurd (String.toList_eq_nil_iff.mp hchars) hfirst
  | cons c others => simp

theorem exists_eq_append_of_endsWith_slash {path : String} (h : path.endsWith "/" = true) :
    ∃ start, path = start ++ "/" := by
  rw [String.endsWith_eq_endsWith_toSlice, String.Slice.endsWith_string_iff,
    String.copy_toSlice] at h
  rcases h with ⟨start, hstart⟩
  refine ⟨String.ofList start, String.toList_inj.mp ?_⟩
  rw [String.toList_append, String.toList_ofList]
  exact hstart.symm

end Path

namespace FileSystem

theorem segments_append_slash (first rest : String) :
    segments (first ++ "/" ++ rest) = segments first ++ segments rest := by
  unfold segments Path.split
  rw [String.toList_append, String.toList_append]
  show List.map String.ofList (Path.splitChars _ (first.toList ++ ['/'] ++ rest.toList)) = _
  rw [List.append_assoc, List.singleton_append, Path.splitChars_append (by rfl), List.map_append]

theorem segments_of_not_mem {name : String} (h : '/' ∉ name.toList) : segments name = [name] := by
  apply Path.split_of_forall
  intro c hc
  simp only [beq_eq_false_iff_ne]
  rintro rfl
  exact h hc

theorem not_mem_of_mem_segments {path segment : String} (h : segment ∈ segments path) :
    '/' ∉ segment.toList := by
  intro hslash
  have hfalse := Path.separator_of_mem_split h hslash
  simp at hfalse

@[simp]
theorem segments_empty : segments "" = [""] := by decide

@[simp]
theorem isHere_empty : isHere "" = true := by decide

theorem segments_intercalate {texts : List String} (hne : texts ≠ [])
    (h : ∀ text ∈ texts, '/' ∉ text.toList) : segments (String.intercalate "/" texts) = texts := by
  induction texts with
  | nil => exact absurd rfl hne
  | cons text rest ih =>
      have htext := segments_of_not_mem (h text List.mem_cons_self)
      cases rest with
      | nil => rw [String.intercalate_singleton, htext]
      | cons next others =>
          rw [String.intercalate_cons_cons, segments_append_slash, htext,
            ih (by simp) fun t ht => h t (List.mem_cons_of_mem _ ht)]
          rfl

/-!
## Joining
-/

/-- Whether a text is one segment and names something in a directory. -/
structure IsName (name : String) : Prop where
  downward : Downward name
  noSlash : '/' ∉ name.toList

theorem essential_segments_join {name : String} (hname : IsName name) (directory : String) :
    essential (segments (Path.join directory name)) = essential (segments directory) ++ [name] := by
  have hsegments := segments_of_not_mem hname.noSlash
  have hself : essential [name] = [name] :=
    essential_of_downward (by simpa using hname.downward)
  unfold Path.join
  rw [Path.startsWith_slash_of_not_mem hname.noSlash, Bool.false_or]
  split
  case isTrue hempty =>
    rw [String.isEmpty_iff.mp hempty, hsegments, hself]
    simp [essential]
  case isFalse =>
    split
    case isTrue hslash =>
      rcases Path.exists_eq_append_of_endsWith_slash hslash with ⟨start, rfl⟩
      have hstart : segments (start ++ "/") = segments start ++ [""] := by
        simpa using segments_append_slash start ""
      rw [segments_append_slash, hsegments, hstart, essential_append, essential_append, hself]
      simp [essential]
    case isFalse =>
      rw [segments_append_slash, hsegments, essential_append, hself]

theorem start_join (files : FileSystem) {name : String} (hname : IsName name)
    (directory : String) : files.start (Path.join directory name) = files.start directory := by
  have hslash := Path.startsWith_slash_of_not_mem hname.noSlash
  unfold start Path.join
  rw [hslash, Bool.false_or]
  split
  case isTrue hempty =>
    rw [hslash, String.isEmpty_iff.mp hempty, Path.startsWith_slash_of_not_mem (by simp)]
  case isFalse hne =>
    have hdirectory : directory ≠ "" := fun h => hne (String.isEmpty_iff.mpr h)
    split
    case isTrue => rw [Path.startsWith_slash_append hdirectory]
    case isFalse =>
      rw [String.append_assoc, Path.startsWith_slash_append hdirectory]

theorem essential_segments_joins {names : List String} (hnames : ∀ name ∈ names, IsName name)
    (directory : String) :
    essential (segments (names.foldl Path.join directory)) =
      essential (segments directory) ++ names := by
  induction names generalizing directory with
  | nil => simp
  | cons name rest ih =>
      rw [List.foldl_cons, ih fun n hn => hnames n (List.mem_cons_of_mem _ hn),
        essential_segments_join (hnames name List.mem_cons_self)]
      simp

theorem start_joins (files : FileSystem) {names : List String}
    (hnames : ∀ name ∈ names, IsName name) (directory : String) :
    files.start (names.foldl Path.join directory) = files.start directory := by
  induction names generalizing directory with
  | nil => rfl
  | cons name rest ih =>
      rw [List.foldl_cons, ih fun n hn => hnames n (List.mem_cons_of_mem _ hn),
        start_join files (hnames name List.mem_cons_self)]

/-- The place that a path leads to, whatever is there. -/
def destination (files : FileSystem) (path : String) : List String :=
  target (files.start path) (segments path)

theorem destination_joins (files : FileSystem) {names : List String}
    (hnames : ∀ name ∈ names, IsName name) (directory : String) :
    files.destination (names.foldl Path.join directory) =
      files.destination directory ++ names := by
  unfold destination
  rw [← target_essential, essential_segments_joins hnames, start_joins files hnames,
    target_append, target_essential, target_of_downward fun name h => (hnames name h).downward]

/-!
## The directory above
-/

/-- The segment that a part of a path stands for, if it leads somewhere else. -/
def segmentOf? : PathPart → Option String
  | .root => none
  | .current => none
  | .up => some ".."
  | .normal name => some name

/-- Whether a part leads from one directory to another. -/
def IsMove : PathPart → Prop
  | .root => False
  | .current => False
  | .up => True
  | .normal name => IsName name

theorem segmentOf?_partOf? (first : Bool) (segment : String) :
    (Path.partOf? first segment).bind segmentOf? =
      if isHere segment then none else some segment := by
  unfold Path.partOf? isHere
  by_cases hempty : segment = ""
  · simp [hempty]
  · by_cases hdot : segment = "."
    · cases first with
      | false => simp [hdot]
      | true => simp [hdot, segmentOf?]
    · by_cases hup : segment = ".."
      · simp [hup, segmentOf?]
      · simp [hempty, hdot, hup, segmentOf?]

theorem filterMap_partOf? (segments : List String) :
    (segments.filterMap (Path.partOf? false)).filterMap segmentOf? = essential segments := by
  induction segments with
  | nil => rfl
  | cons segment rest ih =>
      have hhead := segmentOf?_partOf? false segment
      rw [List.filterMap_filterMap] at ih ⊢
      rw [List.filterMap_cons, hhead, ih, essential, essential, List.filter_cons]
      cases isHere segment with
      | false => simp
      | true => simp

/-- The parts of a path are where it begins and those that its segments stand for. -/
theorem parts_eq {path first : String} {rest : List String} (h : segments path = first :: rest) :
    Path.parts path =
      (if path.startsWith "/" then [.root] else (Path.partOf? true first).toList)
        ++ rest.filterMap (Path.partOf? false) := by
  have hsplit : Path.split (· == '/') path = first :: rest := h
  simp [Path.parts, hsplit]

theorem isHere_of_startsWith_slash {path first : String} {rest : List String}
    (h : segments path = first :: rest) (hslash : path.startsWith "/" = true) :
    isHere first = true := by
  rcases Path.startsWith_slash_iff.mp hslash with ⟨others, hothers⟩
  simp only [segments, Path.split, hothers, Path.splitChars, beq_self_eq_true, if_true,
    List.map_cons, List.cons.injEq] at h
  rw [← h.1]
  rfl

theorem exists_segments_eq_cons (path : String) :
    ∃ first rest, segments path = first :: rest := by
  apply List.exists_cons_of_ne_nil
  intro h
  exact Path.splitChars_ne_nil (· == '/') path.toList (List.map_eq_nil_iff.mp h)

theorem filterMap_parts (path : String) :
    (Path.parts path).filterMap segmentOf? = essential (segments path) := by
  rcases exists_segments_eq_cons path with ⟨first, rest, hsegments⟩
  rw [parts_eq hsegments, List.filterMap_append, filterMap_partOf?, hsegments, essential,
    essential, List.filter_cons]
  by_cases hslash : path.startsWith "/" = true
  · simp [hslash, isHere_of_startsWith_slash hsegments hslash, segmentOf?]
  · have hfirst := segmentOf?_partOf? true first
    rw [if_neg hslash]
    cases hpart : Path.partOf? true first with
    | none =>
        cases hhere : isHere first with
        | true => simp
        | false => simp [hpart, hhere] at hfirst
    | some part =>
        rw [hpart, Option.bind_some] at hfirst
        cases hhere : isHere first with
        | true => simp [hfirst, hhere]
        | false => simp [hfirst, hhere]

theorem isMove_of_partOf? {segment : String} (hslash : '/' ∉ segment.toList) {part : PathPart}
    {first : Bool} (h : Path.partOf? first segment = some part) :
    IsMove part ∨ (first = true ∧ part = .current) := by
  unfold Path.partOf? at h
  split at h
  case isTrue => cases h
  case isFalse hempty =>
    split at h
    case isTrue =>
      split at h
      case isTrue hfirst =>
        cases h
        exact Or.inr ⟨hfirst, rfl⟩
      case isFalse => cases h
    case isFalse hdot =>
      split at h
      case isTrue =>
        cases h
        exact Or.inl trivial
      case isFalse hup =>
        cases h
        refine Or.inl ⟨⟨?_, hup⟩, hslash⟩
        simp [isHere, hempty, hdot]

/-- A path begins at the root, or where it is; from there on all its parts are moves. -/
theorem exists_parts_eq (path : String) :
    ∃ head moves, Path.parts path = head ++ moves ∧ (∀ part ∈ moves, IsMove part) ∧
      if path.startsWith "/" then head = [.root] else head = [] ∨ head = [.current] := by
  rcases exists_segments_eq_cons path with ⟨first, rest, hsegments⟩
  have hnoslash : ∀ segment ∈ first :: rest, '/' ∉ segment.toList := by
    rw [← hsegments]
    exact fun segment => not_mem_of_mem_segments
  have hrest : ∀ part ∈ rest.filterMap (Path.partOf? false), IsMove part := by
    intro part hpart
    rcases List.mem_filterMap.mp hpart with ⟨segment, hsegment, hpartOf⟩
    rcases isMove_of_partOf? (hnoslash segment (List.mem_cons_of_mem _ hsegment)) hpartOf with
      hmove | ⟨hfalse, _⟩
    · exact hmove
    · cases hfalse
  rw [parts_eq hsegments]
  by_cases hslash : path.startsWith "/" = true
  · exact ⟨[.root], _, by rw [if_pos hslash], hrest, by rw [if_pos hslash]⟩
  · simp only [if_neg hslash]
    cases hpart : Path.partOf? true first with
    | none => exact ⟨[], _, rfl, hrest, Or.inl rfl⟩
    | some part =>
        rcases isMove_of_partOf? (hnoslash first List.mem_cons_self) hpart with
          hmove | ⟨_, hcurrent⟩
        · exact ⟨[], part :: _, rfl, List.forall_mem_cons.mpr ⟨hmove, hrest⟩, Or.inl rfl⟩
        · exact ⟨[.current], _, by rw [hcurrent]; rfl, hrest, Or.inr rfl⟩

/-- Whether a part is written as one segment. -/
def IsPart : PathPart → Prop
  | .normal name => IsName name
  | _ => True

theorem IsMove.isPart {part : PathPart} (h : IsMove part) : IsPart part := by
  cases part with
  | root => trivial
  | current => trivial
  | up => trivial
  | normal name => exact h

theorem IsPart.noSlash {part : PathPart} (h : IsPart part) :
    '/' ∉ (Path.partText part).toList := by
  cases part with
  | root => simp [Path.partText]
  | current => simp [Path.partText]
  | up => simp [Path.partText]
  | normal name => exact IsName.noSlash h

theorem IsMove.startsWith_slash {part : PathPart} (h : IsMove part) (rest : String) :
    (Path.partText part ++ rest).startsWith "/" = false := by
  have hne : Path.partText part ≠ "" := by
    cases part with
    | root => cases h
    | current => cases h
    | up => simp [Path.partText]
    | normal name =>
        rintro rfl
        have hhere := (IsName.downward h).1
        simp at hhere
  rw [Path.startsWith_slash_append hne, Path.startsWith_slash_of_not_mem h.isPart.noSlash]

theorem essential_partText {parts : List PathPart} (h : ∀ part ∈ parts, IsPart part) :
    essential (parts.map Path.partText) = parts.filterMap segmentOf? := by
  induction parts with
  | nil => rfl
  | cons part rest ih =>
      rw [List.map_cons, essential, List.filter_cons, ← essential,
        ih fun p hp => h p (List.mem_cons_of_mem part hp), List.filterMap_cons]
      cases part with
      | root => simp [Path.partText, segmentOf?]
      | current => simp [Path.partText, segmentOf?, isHere]
      | up => simp [Path.partText, segmentOf?]
      | normal name =>
          have hname : IsName name := h _ List.mem_cons_self
          simp [Path.partText, segmentOf?, hname.downward.1]

theorem ofParts_eq {parts : List PathPart} (h : parts ≠ [.root]) :
    Path.ofParts parts = String.intercalate "/" (parts.map Path.partText) := by
  unfold Path.ofParts
  split
  · exact absurd rfl h
  · rfl

theorem essential_segments_ofParts {parts : List PathPart} (h : ∀ part ∈ parts, IsPart part) :
    essential (segments (Path.ofParts parts)) = parts.filterMap segmentOf? := by
  by_cases hroot : parts = [.root]
  · subst hroot
    decide
  · cases parts with
    | nil => decide
    | cons part rest =>
        have hnoslash : ∀ text ∈ (part :: rest).map Path.partText, '/' ∉ text.toList := by
          intro text htext
          rcases List.mem_map.mp htext with ⟨p, hp, rfl⟩
          exact (h p hp).noSlash
        rw [ofParts_eq hroot, segments_intercalate (by simp) hnoslash, essential_partText h]

theorem intercalate_slash_cons (text : String) (rest : List String) :
    ∃ tail, String.intercalate "/" (text :: rest) = text ++ tail := by
  cases rest with
  | nil => exact ⟨"", by simp⟩
  | cons next others =>
      exact ⟨"/" ++ String.intercalate "/" (next :: others), by
        rw [String.intercalate_cons_cons, String.append_assoc]⟩

theorem startsWith_slash_ofParts_root (moves : List PathPart) :
    (Path.ofParts (.root :: moves)).startsWith "/" = true := by
  cases moves with
  | nil => exact Path.startsWith_slash_iff.mpr ⟨[], rfl⟩
  | cons move rest =>
      rw [ofParts_eq (by simp), Path.startsWith_slash_iff]
      exact ⟨_, by
        rw [List.map_cons, List.map_cons, String.intercalate_cons_cons, String.toList_append]
        rfl⟩

theorem startsWith_slash_ofParts {head moves : List PathPart}
    (hhead : head = [] ∨ head = [.current]) (hmoves : ∀ part ∈ moves, IsMove part) :
    (Path.ofParts (head ++ moves)).startsWith "/" = false := by
  rcases hhead with rfl | rfl
  · cases moves with
    | nil => exact Path.startsWith_slash_of_not_mem (by simp [Path.ofParts])
    | cons move rest =>
        have hmove := hmoves move List.mem_cons_self
        have hroot : [] ++ move :: rest ≠ [.root] := by
          rintro hroot
          cases hroot
          exact hmove
        rcases intercalate_slash_cons (Path.partText move) (rest.map Path.partText) with
          ⟨tail, htail⟩
        rw [ofParts_eq hroot, List.nil_append, List.map_cons, htail, hmove.startsWith_slash]
  · rcases intercalate_slash_cons "." (moves.map Path.partText) with ⟨tail, htail⟩
    rw [ofParts_eq (by simp)]
    show (String.intercalate "/" ("." :: moves.map Path.partText)).startsWith "/" = false
    rw [htail, Path.startsWith_slash_append (by simp), Path.startsWith_slash_of_not_mem (by simp)]

/-- A path that ends in a name has a directory above it, which begins where the path begins and
leads through all its other segments. -/
theorem parent?_of_segments {path name : String} {above : List String}
    (h : essential (segments path) = above ++ [name]) :
    ∃ parent, Path.parent? path = some parent ∧ essential (segments parent) = above ∧
      parent.startsWith "/" = path.startsWith "/" := by
  rcases exists_parts_eq path with ⟨head, moves, hparts, hmoves, hhead⟩
  have hheadPart : ∀ part ∈ head, IsPart part ∧ segmentOf? part = none := by
    intro part hpart
    split at hhead
    · subst hhead
      rw [List.mem_singleton.mp hpart]
      exact ⟨trivial, rfl⟩
    · rcases hhead with rfl | rfl
      · cases hpart
      · rw [List.mem_singleton.mp hpart]
        exact ⟨trivial, rfl⟩
  have hnone : head.filterMap segmentOf? = [] := by
    rw [List.filterMap_eq_nil_iff]
    exact fun part hpart => (hheadPart part hpart).2
  have hsegments : moves.filterMap segmentOf? = above ++ [name] := by
    rw [← h, ← filterMap_parts, hparts, List.filterMap_append, hnone, List.nil_append]
  -- The parent is made of the parts without the last one, and only moves have segments.
  rcases List.eq_nil_or_concat' moves with rfl | ⟨before, last, rfl⟩
  · simp at hsegments
  · have hlast : IsMove last := hmoves last (by simp)
    have hbefore : ∀ part ∈ before, IsMove part :=
      fun part hpart => hmoves part (List.mem_append_left _ hpart)
    have habove : before.filterMap segmentOf? = above := by
      cases last with
      | root => cases hlast
      | current => cases hlast
      | up =>
          simp only [List.filterMap_append, List.filterMap_cons, segmentOf?] at hsegments
          exact (List.append_inj' hsegments rfl).1
      | normal n =>
          simp only [List.filterMap_append, List.filterMap_cons, segmentOf?] at hsegments
          exact (List.append_inj' hsegments rfl).1
    refine ⟨Path.ofParts (head ++ before), ?_, ?_, ?_⟩
    · unfold Path.parent?
      rw [hparts, ← List.append_assoc, List.getLast?_concat, List.dropLast_concat]
      cases last with
      | root => cases hlast
      | current => rfl
      | up => rfl
      | normal n => rfl
    · rw [essential_segments_ofParts, List.filterMap_append, hnone, List.nil_append, habove]
      intro part hpart
      rcases List.mem_append.mp hpart with hpart | hpart
      · exact (hheadPart part hpart).1
      · exact (hbefore part hpart).isPart
    · split at hhead
      case isTrue hslash =>
        rw [hslash, hhead]
        exact startsWith_slash_ofParts_root before
      case isFalse hslash =>
        rw [startsWith_slash_ofParts hhead hbefore]
        exact (Bool.eq_false_iff.mpr hslash).symm

end FileSystem
end AssemblyBrowser
