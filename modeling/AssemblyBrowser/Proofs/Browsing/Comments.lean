import AssemblyBrowser.Browse.Text
import AssemblyBrowser.Proofs.Containers.ZipArchives
import AssemblyBrowser.Proofs.Files.PathTexts
import AssemblyBrowser.Proofs.Outcomes
import AssemblyBrowser.Proofs.Server.Lines
import AssemblyBrowser.Proofs.StoreInvariant

/-!
# Comments

Nodes that have nothing to render are described by remarks. A remark stands behind
the mark of a comment and is meant to be one line, but it is made of texts that come
from files. A line feed in one of them ends the comment, and the text goes on
without a mark.
-/

namespace AssemblyBrowser

/-!
## The lines of a comment
-/

namespace Path

theorem splitChars_append_front {separator : Char → Bool} {front chars first : List Char}
    {others : List (List Char)} (hfront : ∀ c ∈ front, separator c = false)
    (h : splitChars separator chars = first :: others) :
    splitChars separator (front ++ chars) = (front ++ first) :: others := by
  induction front with
  | nil => exact h
  | cons c rest ih =>
      have hrest := ih fun d hd => hfront d (List.mem_cons_of_mem c hd)
      rw [List.cons_append, splitChars, hfront c List.mem_cons_self, hrest]
      rfl

theorem split_append_separator {separator : Char → Bool} {c : Char} (h : separator c = true)
    (first rest : String) :
    split separator (first ++ String.singleton c ++ rest) =
      split separator first ++ split separator rest := by
  unfold split
  rw [String.toList_append, String.toList_append, String.toList_singleton, List.append_assoc,
    List.singleton_append, splitChars_append h, List.map_append]

theorem split_append_front {separator : Char → Bool} {front : String}
    (hfront : ∀ c ∈ front.toList, separator c = false) (text : String) :
    ∃ first, split separator (front ++ text) =
      (front ++ first) :: (split separator text).tail := by
  rcases List.exists_cons_of_ne_nil (splitChars_ne_nil separator text.toList) with
    ⟨first, others, hsplit⟩
  refine ⟨String.ofList first, ?_⟩
  unfold split
  rw [String.toList_append, splitChars_append_front hfront hsplit, hsplit, List.map_cons,
    String.ofList_append, String.ofList_toList]
  rfl

end Path

/-- The lines of a text; a line feed separates two of them. -/
def linesOf (text : String) : List String := Path.split (· == '\n') text

def IsCommentLine (line : String) : Prop := line ≠ "" → line.startsWith "//" = true

/-- Every line that is not empty begins with the mark of a comment. -/
def IsComment (text : String) : Prop := ∀ line ∈ linesOf text, IsCommentLine line

/-- Behind the mark of a comment a remark stays a comment on all its lines. -/
def StaysComment (remark : String) : Prop := ∀ line ∈ (linesOf remark).tail, IsCommentLine line

instance (text : String) : Decidable (IsComment text) :=
  inferInstanceAs (Decidable (∀ line ∈ linesOf text, line ≠ "" → line.startsWith "//" = true))

theorem isComment_empty : IsComment "" := by decide

theorem isCommentLine_append (rest : String) : IsCommentLine ("// " ++ rest) := by
  intro _
  rw [String.startsWith_string_iff, String.toList_append]
  exact ⟨' ' :: rest.toList, rfl⟩

/-- A remark that is one line stays one behind the mark. -/
theorem staysComment_of_oneLine {remark : String} (h : OneLine remark.toList) :
    StaysComment remark := by
  have hsplit : linesOf remark = [remark] := by
    refine Path.split_of_forall fun c hc => ?_
    rw [beq_eq_false_iff_ne]
    rintro rfl
    exact h hc
  intro line hline
  rw [hsplit] at hline
  cases hline

theorem isComment_commentLine_append_iff (remark rest : String) :
    IsComment (commentLine remark ++ rest) ↔ StaysComment remark ∧ IsComment rest := by
  have hlines : linesOf (commentLine remark ++ rest) =
      linesOf ("// " ++ remark) ++ linesOf rest := by
    unfold linesOf commentLine
    exact @Path.split_append_separator (· == '\n') '\n' (beq_self_eq_true _) _ _
  have hfront : ∃ first : String,
      linesOf ("// " ++ remark) = ("// " ++ first) :: (linesOf remark).tail := by
    unfold linesOf
    exact Path.split_append_front (by simp) remark
  rcases hfront with ⟨first, hremark⟩
  unfold IsComment StaysComment
  rw [hlines, hremark, List.forall_mem_append, List.forall_mem_cons,
    and_iff_right (isCommentLine_append first)]

/-- The text of remarks is a comment exactly if every one of them stays one. -/
theorem isComment_remarks_iff (remarks : List String) :
    IsComment (String.join (remarks.map commentLine)) ↔
      ∀ remark ∈ remarks, StaysComment remark := by
  induction remarks with
  | nil =>
      exact iff_of_true isComment_empty (List.forall_mem_nil _)
  | cons remark rest ih =>
      rw [List.map_cons, String.join_cons, isComment_commentLine_append_iff, ih,
        List.forall_mem_cons]

/-!
## Remarks

Each kind of remark comes with the texts that it takes from files. It is one line if
they are.
-/

theorem OneLine.append_iff {first second : List Char} :
    OneLine (first ++ second) ↔ OneLine first ∧ OneLine second := by
  rw [OneLine, List.mem_append, not_or]
  rfl

theorem OneLine.ofBytes (bytes : Bytes) : OneLine (Hex.ofBytes bytes).toList := by
  have hdigit : ∀ n < 16, Hex.digit n ≠ '\n' := by decide
  unfold Hex.ofBytes
  rw [String.toList_ofList]
  intro hmem
  rcases List.mem_flatMap.mp hmem with ⟨byte, _, hbyte⟩
  rcases List.mem_pair.mp hbyte with hhigh | hlow
  · exact hdigit _ (Nat.div_lt_of_lt_mul byte.toNat_lt) hhigh.symm
  · exact hdigit _ (Nat.mod_lt _ (by decide)) hlow.symm

theorem Version.oneLine_text (version : Version) : OneLine version.text.toList := by
  have htext : version.text = toString version.major ++ "." ++ toString version.minor ++ "." ++
      toString version.build ++ "." ++ toString version.revision := rfl
  have hdot : OneLine ".".toList := by decide
  rw [htext]
  simp only [String.toList_append, OneLine.append_iff, hdot, OneLine.toString_nat, and_self]

theorem AssemblyIdentity.oneLine_text {identity : AssemblyIdentity}
    (hname : OneLine identity.name.toList)
    (hculture : ∀ culture ∈ identity.culture, OneLine culture.toList) :
    OneLine identity.text.toList := by
  have hkey : OneLine ((identity.publicKeyToken.map Hex.ofBytes).getD "null").toList := by
    cases identity.publicKeyToken with
    | none => decide
    | some token => exact OneLine.ofBytes token
  have hshown : OneLine (identity.culture.getD "neutral").toList := by
    cases hsome : identity.culture with
    | none => decide
    | some culture => exact hculture culture hsome
  unfold text
  simp only [String.toList_append, OneLine.append_iff]
  exact ⟨⟨⟨⟨⟨⟨hname, by decide⟩, identity.version.oneLine_text⟩, by decide⟩, hshown⟩, by decide⟩,
    hkey⟩

/-- The size of a resource, where it is known. -/
theorem oneLine_sizeText (length : Option Nat) :
    OneLine (match length with
      | some length => ", " ++ toString length ++ " bytes"
      | none => "").toList := by
  cases length with
  | none => decide
  | some length =>
      simp only [String.toList_append]
      exact (OneLine.append (by decide) (.toString_nat length)).append (by decide)

namespace ManifestResource

def strings (resource : ManifestResource) : List String :=
  match resource.location with
  | .embedded => [resource.name]
  | .file name => [resource.name, name]
  | .assembly name => [resource.name, name]

theorem oneLine_remark {resource : ManifestResource}
    (h : ∀ text ∈ resource.strings, OneLine text.toList) : OneLine resource.remark.toList := by
  have hvisibility : OneLine (if resource.isPublic then "Public" else "Private").toList := by
    cases resource.isPublic <;> decide
  have hplace : OneLine resource.name.toList ∧ OneLine (match resource.location with
      | .embedded => "Embedded"
      | .file name => "Linked to " ++ name
      | .assembly name => "Forwarded to " ++ name).toList := by
    unfold strings at h
    cases hlocation : resource.location with
    | embedded =>
        rw [hlocation] at h
        exact ⟨h _ List.mem_cons_self, by decide⟩
    | file name | assembly name =>
        rw [hlocation] at h
        rw [String.toList_append]
        exact ⟨h _ List.mem_cons_self, .append (by decide) (h name (by simp))⟩
  have hsize := oneLine_sizeText resource.length
  unfold remark
  simp only [String.toList_append, OneLine.append_iff]
  exact ⟨⟨⟨⟨⟨⟨hplace.1, by decide⟩, hplace.2⟩, by decide⟩, hvisibility⟩, hsize⟩, by decide⟩

end ManifestResource

namespace Container

theorem oneLine_compressionText (compression : Compression) :
    OneLine (compressionText compression).toList := by
  cases compression with
  | stored => decide
  | deflate => decide
  | unsupported method =>
      rw [compressionText, String.toList_append]
      exact .append (by decide) (.toString_nat method)

theorem oneLine_entryRemark {entry : ContainerEntry} (h : OneLine entry.path.toList) :
    OneLine (entryRemark entry).toList := by
  have hsize := oneLine_sizeText entry.length
  unfold entryRemark
  simp only [String.toList_append, OneLine.append_iff]
  exact ⟨⟨⟨⟨h, by decide⟩, oneLine_compressionText _⟩, hsize⟩, by decide⟩

theorem oneLine_folderRemark {folder : Folder} (h : OneLine folder.path.toList) :
    OneLine (folderRemark folder).toList := by
  unfold folderRemark
  simp only [String.toList_append, OneLine.append_iff]
  exact ⟨⟨⟨⟨⟨h, by decide⟩, .toString_nat _⟩, by decide⟩, .toString_nat _⟩, by decide⟩

/-- The name of the file, what a package says about itself, and what a bundle is called. -/
def strings (container : Container) : List String :=
  let metadata := container.metadata.getD {}
  (Path.fileName? container.archivePath).getD container.archivePath
    :: metadata.id.toList ++ metadata.version.toList ++ metadata.authors.toList
    ++ metadata.description.toList ++ container.bundleId.toList

theorem oneLine_field {label : String} (hlabel : OneLine label.toList) {value : Option String}
    (hvalue : ∀ text ∈ value, OneLine text.toList) :
    ∀ remark ∈ value.toList.map fun value => label ++ ": " ++ value, OneLine remark.toList := by
  intro remark hremark
  rcases List.mem_map.mp hremark with ⟨text, htext, rfl⟩
  simp only [String.toList_append, OneLine.append_iff]
  exact ⟨⟨hlabel, by decide⟩, hvalue text (Option.mem_toList.mp htext)⟩

theorem oneLine_remarks {container : Container}
    (h : ∀ text ∈ container.strings, OneLine text.toList) :
    ∀ remark ∈ container.remarks, OneLine remark.toList := by
  have hformat : OneLine container.format.name.toList := by
    cases container.format <;> decide
  simp only [strings, List.forall_mem_append, List.forall_mem_cons, Option.mem_toList] at h
  obtain ⟨⟨⟨⟨⟨hname, hid⟩, hversion⟩, hauthors⟩, hdescription⟩, hbundle⟩ := h
  unfold remarks
  simp only [List.forall_mem_append, List.forall_mem_cons]
  refine ⟨⟨⟨⟨⟨⟨?_, oneLine_field (by decide) hid⟩, oneLine_field (by decide) hversion⟩,
    oneLine_field (by decide) hauthors⟩, oneLine_field (by decide) hdescription⟩,
    oneLine_field (by decide) hbundle⟩, ?_, List.forall_mem_nil _⟩
  · simp only [String.toList_append, OneLine.append_iff]
    exact ⟨⟨⟨hname, by decide⟩, hformat⟩, by decide⟩
  · simp only [String.toList_append, OneLine.append_iff]
    exact ⟨⟨⟨⟨by decide, .toString_nat _⟩, by decide⟩, .toString_nat _⟩, by decide⟩

end Container

/-!
## The texts of nodes
-/

namespace NodeKind

/-- The kinds of nodes that have remarks for a text. -/
def remarked : List NodeKind :=
  [.package, .packageFolder, .resource, .referencesRoot, .archiveReference, .baseTypesGroup,
    .derivedTypesGroup, .analyzerGroup]

/-- How a group of nodes under a type is described. -/
def groupLabel? : NodeKind → Option String
  | baseTypesGroup => some "Base Types of"
  | derivedTypesGroup => some "Derived Types of"
  | analyzerGroup => some "Usages of"
  | _ => none

theorem oneLine_groupLabel {kind : NodeKind} {label : String} (h : kind.groupLabel? = some label) :
    OneLine label.toList := by
  cases kind <;> cases h <;> decide

end NodeKind

namespace Store

/-- The remarks on a node, with the texts from files that they are made of. -/
inductive Remarked (store : Store) (source : ArchiveSource) (address : NodeAddress) :
    (remarks strings : List String) → Prop where
  | package (container : Container) (hkind : address.kind = .package)
      (hcontainer : store.containerOf source address = .ok container) :
      Remarked store source address container.remarks container.strings
  | packageFolder (container : Container) (folder : Folder) (hkind : address.kind = .packageFolder)
      (hcontainer : store.containerOf source address = .ok container)
      (hfolder : container.folderOf address = .ok folder) :
      Remarked store source address [Container.folderRemark folder] [folder.path]
  | manifestResource (place : PlacedModule) (resource : ManifestResource)
      (hkind : address.kind = .resource) (htoken : address.symbolToken ≠ Token.zero)
      (hplace : store.placeOf source address = .ok place)
      (hresource : place.code.resources.toList.find? (·.token == address.symbolToken) =
        some resource) :
      Remarked store source address [resource.remark] resource.strings
  | entry (container : Container) (entry : ContainerEntry) (hkind : address.kind = .resource)
      (htoken : address.symbolToken = Token.zero)
      (hcontainer : store.containerOf source address = .ok container)
      (hentry : address.containerPath.bind container.entry? = some entry) :
      Remarked store source address [Container.entryRemark entry] [entry.path]
  | references (place : PlacedModule) (hkind : address.kind = .referencesRoot)
      (hplace : store.placeOf source address = .ok place) :
      Remarked store source address
        ["References of " ++ place.code.name ++ " (" ++ toString place.code.references.size ++ ")"]
        [place.code.name]
  | reference (place : PlacedModule) (reference : AssemblyReference)
      (hkind : address.kind = .archiveReference)
      (hplace : store.placeOf source address = .ok place)
      (hreference : place.code.reference? address.symbolToken = some reference) :
      Remarked store source address [reference.identity.text]
        (reference.identity.name :: reference.identity.culture.toList)
  | group (label : String) (subject : PlacedType) (hlabel : address.kind.groupLabel? = some label)
      (hsubject : store.subjectOf source address = .ok subject) :
      Remarked store source address
        [label ++ " " ++ subject.place.code.fullName subject.definition.token]
        [subject.place.code.fullName subject.definition.token]

variable {store : Store} {source : ArchiveSource} {address : NodeAddress}
  {remarks strings : List String} {text : String}

theorem Remarked.oneLine (h : store.Remarked source address remarks strings)
    (hstrings : ∀ text ∈ strings, OneLine text.toList) :
    ∀ remark ∈ remarks, OneLine remark.toList := by
  cases h with
  | package container hkind hcontainer => exact Container.oneLine_remarks hstrings
  | packageFolder container folder hkind hcontainer hfolder =>
      exact List.forall_mem_singleton.mpr
        (Container.oneLine_folderRemark (hstrings _ (List.mem_singleton_self _)))
  | manifestResource place resource hkind htoken hplace hresource =>
      exact List.forall_mem_singleton.mpr (ManifestResource.oneLine_remark hstrings)
  | entry container entry hkind htoken hcontainer hentry =>
      exact List.forall_mem_singleton.mpr
        (Container.oneLine_entryRemark (hstrings _ (List.mem_singleton_self _)))
  | references place hkind hplace =>
      refine List.forall_mem_singleton.mpr ?_
      simp only [String.toList_append, OneLine.append_iff]
      exact ⟨⟨⟨⟨by decide, hstrings _ (List.mem_singleton_self _)⟩, by decide⟩, .toString_nat _⟩,
        by decide⟩
  | reference place reference hkind hplace hreference =>
      obtain ⟨hname, hculture⟩ := List.forall_mem_cons.mp hstrings
      refine List.forall_mem_singleton.mpr (AssemblyIdentity.oneLine_text hname ?_)
      exact fun culture hsome => hculture culture (Option.mem_toList.mpr hsome)
  | group label subject hlabel hsubject =>
      refine List.forall_mem_singleton.mpr ?_
      simp only [String.toList_append, OneLine.append_iff]
      exact ⟨⟨NodeKind.oneLine_groupLabel hlabel, by decide⟩,
        hstrings _ (List.mem_singleton_self _)⟩

theorem exists_remarked_of_single {remark : String}
    (h : store.Remarked source address [remark] strings) (htext : text = commentLine remark) :
    ∃ remarks strings, store.Remarked source address remarks strings ∧
      text = String.join (remarks.map commentLine) := by
  refine ⟨[remark], strings, h, ?_⟩
  rw [htext, List.map_singleton, String.join_cons, String.join_nil, String.append_empty]

theorem exists_remarked_of_resourceText (hkind : address.kind = .resource)
    (h : store.resourceText source address = .ok text) :
    ∃ remarks strings, store.Remarked source address remarks strings ∧
      text = String.join (remarks.map commentLine) := by
  unfold resourceText at h
  split at h
  case isTrue htoken =>
    rcases Outcome.bind_eq_ok.mp h with ⟨place, hplace, hresource⟩
    split at hresource
    case h_1 resource hfind =>
      exact exists_remarked_of_single (.manifestResource place resource hkind htoken hplace hfind)
        (Outcome.pure_eq_ok.mp hresource).symm
    case h_2 => cases hresource
  case isFalse htoken =>
    rcases Outcome.bind_eq_ok.mp h with ⟨archive, harchive, hentry⟩
    split at hentry
    case h_1 => cases hentry
    case h_2 container hcontainer =>
      split at hentry
      case h_1 entry hfind =>
        have hof : store.containerOf source address = .ok container := by
          unfold containerOf
          rw [harchive, Outcome.ok_bind, hcontainer]
          rfl
        exact exists_remarked_of_single
          (.entry container entry hkind (of_not_not htoken) hof hfind)
          (Outcome.pure_eq_ok.mp hentry).symm
      case h_2 => cases hentry

theorem exists_remarked_of_groupText {label : String}
    (hlabel : address.kind.groupLabel? = some label)
    (h : store.groupText source address label = .ok text) :
    ∃ remarks strings, store.Remarked source address remarks strings ∧
      text = String.join (remarks.map commentLine) := by
  rcases Outcome.bind_eq_ok.mp h with ⟨subject, hsubject, htext⟩
  exact exists_remarked_of_single (.group label subject hlabel hsubject)
    (Outcome.pure_eq_ok.mp htext).symm

/-- The text of a node of these kinds is made of its remarks, in every dialect. -/
theorem exists_remarked_of_text {renderer : Renderer} {dialect : Dialect}
    (hkind : address.kind ∈ NodeKind.remarked)
    (h : store.text source renderer dialect address = .ok text) :
    ∃ remarks strings, store.Remarked source address remarks strings ∧
      text = String.join (remarks.map commentLine) := by
  unfold Store.text at h
  cases haddress : address.kind with
  | package =>
      simp only [haddress] at h
      rcases Outcome.bind_eq_ok.mp h with ⟨container, hcontainer, htext⟩
      exact ⟨_, _, .package container haddress hcontainer, (Outcome.pure_eq_ok.mp htext).symm⟩
  | packageFolder =>
      simp only [haddress] at h
      rcases Outcome.bind_eq_ok.mp h with ⟨container, hcontainer, hrest⟩
      rcases Outcome.bind_eq_ok.mp hrest with ⟨folder, hfolder, htext⟩
      exact exists_remarked_of_single (.packageFolder container folder haddress hcontainer hfolder)
        (Outcome.pure_eq_ok.mp htext).symm
  | resource =>
      simp only [haddress] at h
      exact exists_remarked_of_resourceText haddress h
  | referencesRoot =>
      simp only [haddress] at h
      rcases Outcome.bind_eq_ok.mp h with ⟨place, hplace, htext⟩
      exact exists_remarked_of_single (.references place haddress hplace)
        (Outcome.pure_eq_ok.mp htext).symm
  | archiveReference =>
      simp only [haddress] at h
      rcases Outcome.bind_eq_ok.mp h with ⟨place, hplace, htext⟩
      split at htext
      case h_1 reference hreference =>
        exact exists_remarked_of_single (.reference place reference haddress hplace hreference)
          (Outcome.pure_eq_ok.mp htext).symm
      case h_2 => cases htext
  | baseTypesGroup | derivedTypesGroup | analyzerGroup =>
      simp only [haddress] at h
      exact exists_remarked_of_groupText (by rw [haddress]; rfl) h
  | _ =>
      rw [haddress] at hkind
      exact absurd hkind (by decide)

/-- When the text of a node of these kinds is a comment: exactly if each of its remarks stays one
on all its lines. So it is if the texts from files have no line feeds. -/
theorem text_isComment_iff (store : Store) (source : ArchiveSource) (renderer : Renderer)
    (dialect : Dialect) (address : NodeAddress) (text : String)
    (hkind : address.kind ∈ NodeKind.remarked)
    (htext : store.text source renderer dialect address = .ok text) :
    ∃ remarks strings, store.Remarked source address remarks strings ∧
      text = String.join (remarks.map commentLine) ∧
      (IsComment text ↔ ∀ remark ∈ remarks, StaysComment remark) ∧
      ((∀ part ∈ strings, OneLine part.toList) → IsComment text) := by
  obtain ⟨remarks, strings, hremarked, rfl⟩ := exists_remarked_of_text hkind htext
  refine ⟨remarks, strings, hremarked, rfl, isComment_remarks_iff remarks, ?_⟩
  intro hstrings
  refine (isComment_remarks_iff remarks).mpr fun remark hremark => ?_
  exact staysComment_of_oneLine (hremarked.oneLine hstrings remark hremark)

/-- The file in which a package says in two lines what it is for. -/
def describedFile : PackedFile where
  path := "a.nuspec"
  contents := Utf8.encode
    "<package><metadata><description>Letters.\nWords.</description></metadata></package>"
  deflated := false

def describedPackage : Bytes := (Zip.archive id [describedFile]).toArray

def describedEntry : ContainerEntry := PackedFile.entryAt id describedFile 0 .resource

def describedContainer : Container where
  archivePath := "/a.nupkg"
  format := .package
  entries := [describedEntry]
  metadata := some { description := some "Letters.\nWords." }
  readModule := Container.moduleReader Worker.emptyModules (Zip.extract describedPackage)

theorem ofPackage_described :
    Container.ofPackage Worker.emptyModules "/a.nupkg" describedPackage =
      .ok describedContainer := by
  have hentries : Zip.entries describedPackage = .ok [describedEntry] := by decide +kernel
  have hmetadata : Container.metadataOf? [describedEntry] (Zip.extract describedPackage) =
      .ok (some { description := some "Letters.\nWords." }) := by
    unfold Container.metadataOf?
    simp only [String.contains_char_eq]
    decide +kernel
  unfold Container.ofPackage
  rw [hentries]
  show (Container.metadataOf? [describedEntry] (Zip.extract describedPackage)).bind _ = _
  rw [hmetadata]
  rfl

def describedStore : Store :=
  { archives := [(LoadedArchive.unopened "/a.nupkg" none).withHandle
      (.container describedContainer)] }

def describedText : String :=
  "// a.nupkg (Package)\n// Description: Letters.\nWords.\n// Entries: 1 (0 modules)\n"

theorem text_described (dialect : Dialect) :
    describedStore.text (.ofFiles Worker.emptyModules {}) .declarations dialect
      (.package "/a.nupkg") = .ok describedText := by
  have hremarks : String.join (describedContainer.remarks.map commentLine) = describedText := by
    decide +kernel
  rw [← hremarks]
  rfl

theorem text_isComment_iff_described :
    (NodeAddress.package "/a.nupkg").kind ∈ NodeKind.remarked ∧
      describedStore.text (.ofFiles Worker.emptyModules {}) .declarations .il
        (.package "/a.nupkg") = .ok describedText ∧
      ∃ remarks strings,
        describedStore.Remarked (.ofFiles Worker.emptyModules {}) (.package "/a.nupkg")
          remarks strings ∧
        describedText = String.join (remarks.map commentLine) ∧
        (IsComment describedText ↔ ∀ remark ∈ remarks, StaysComment remark) ∧
        ((∀ part ∈ strings, OneLine part.toList) → IsComment describedText) :=
  ⟨by decide, text_described .il, text_isComment_iff describedStore _ .declarations .il
    (.package "/a.nupkg") describedText (by decide) (text_described .il)⟩

/-- The second line of a description is no comment, in any dialect. -/
theorem description_ends_comment :
    Container.ofPackage Worker.emptyModules "/a.nupkg" describedPackage = .ok describedContainer ∧
      (∀ dialect, describedStore.text (.ofFiles Worker.emptyModules {}) .declarations dialect
        (.package "/a.nupkg") = .ok describedText) ∧
      "Words." ∈ linesOf describedText ∧ ¬ IsComment describedText := by
  exact ⟨ofPackage_described, text_described, by decide +kernel, by decide +kernel⟩

end Store
end AssemblyBrowser
