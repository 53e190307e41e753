import AssemblyBrowser.Container.PackageMetadata

/-!
# What the fields of a package hold

Events are read with the elements that are open in front of them. A field of a package
holds the texts that stand directly in the children of `metadata` with its name, each
without the blanks around it and one behind the other. Literal sections are character
data of a document too, but none of them is read: a field has all of its character data
exactly if the literal sections in it are blank.
-/

namespace AssemblyBrowser

namespace Xml

/-!
## Open elements
-/

/-- The names of the elements that are open behind an event, innermost first. -/
def Event.follow (path : List String) : Event → List String
  | .opening name => name :: path
  | .closing => path.tail
  | _ => path

/-- The names of the elements that are open behind events. -/
def openElements (path : List String) (events : List Event) : List String :=
  events.foldl Event.follow path

/-- Each event with the elements that are open in front of it. -/
def placed (path : List String) : List Event → List (Event × List String)
  | [] => []
  | event :: events => (event, path) :: placed (event.follow path) events

/-- Everything that is opened is closed again, and nothing else is closed. -/
inductive WellNested : List Event → Prop where
  | nil : WellNested []
  | leaf {event : Event} {events : List Event} (hsame : ∀ path, event.follow path = path)
      (hevents : WellNested events) : WellNested (event :: events)
  | element (name : String) {inner events : List Event} (hinner : WellNested inner)
      (hevents : WellNested events) :
      WellNested (.opening name :: (inner ++ .closing :: events))

theorem placed_append (path : List String) (front behind : List Event) :
    placed path (front ++ behind) =
      placed path front ++ placed (openElements path front) behind := by
  induction front generalizing path with
  | nil => rfl
  | cons event front ih =>
      rw [List.cons_append, placed, ih, placed, List.cons_append]
      rfl

theorem openElements_of_wellNested {events : List Event} (h : WellNested events)
    (path : List String) : openElements path events = path := by
  induction h generalizing path with
  | nil => rfl
  | leaf hsame _ ih =>
      rw [openElements, List.foldl_cons, hsame]
      exact ih path
  | element name _ _ ihinner ih =>
      rw [openElements, List.foldl_cons, List.foldl_append, List.foldl_cons]
      have hclosed := ihinner (name :: path)
      rw [openElements] at hclosed
      rw [Event.follow, hclosed, Event.follow, List.tail_cons]
      exact ih path

/-- Well-nested events stay inside the elements that are open around them. -/
theorem place_of_mem_placed {events : List Event} (h : WellNested events) {path : List String}
    {entry : Event × List String} (hentry : entry ∈ placed path events) :
    ∃ inner, entry.2 = inner ++ path := by
  induction h generalizing path with
  | nil => cases hentry
  | leaf hsame _ ih =>
      rw [placed, hsame] at hentry
      rcases List.mem_cons.mp hentry with rfl | hlater
      · exact ⟨[], rfl⟩
      · exact ih hlater
  | @element name inside _ hinner _ ihinner ih =>
      rw [placed, Event.follow, placed_append, openElements_of_wellNested hinner, placed,
        Event.follow, List.tail_cons] at hentry
      rcases List.mem_cons.mp hentry with rfl | hlater
      · exact ⟨[], rfl⟩
      · rcases List.mem_append.mp hlater with hinside | hbehind
        · obtain ⟨inner, hplace⟩ := ihinner hinside
          exact ⟨inner ++ [name], by rw [hplace, List.append_assoc, List.singleton_append]⟩
        · rcases List.mem_cons.mp hbehind with rfl | hlast
          · exact ⟨[name], rfl⟩
          · exact ih hlast

/-!
## Character data
-/

/-- The characters of a text, if its references resolve. -/
def Event.text? : Event → Option (List Char)
  | .text raw => resolve? none raw
  | _ => none

/-- The characters of a literal section. -/
def Event.literal? : Event → Option (List Char)
  | .verbatim content => some content
  | _ => none

/-- The character data of an event, which is a text or a literal section. -/
def Event.characters? (event : Event) : Option (List Char) := event.text?.or event.literal?

theorem Event.characters?_cases (event : Event) :
    event.characters? = event.text? ∧ event.literal? = none ∨
      event.characters? = event.literal? ∧ event.text? = none := by
  cases event with
  | text raw => exact .inl ⟨Option.or_none, rfl⟩
  | verbatim content => exact .inr ⟨rfl, rfl⟩
  | opening | closing | other => exact .inl ⟨rfl, rfl⟩

/-- Whether an event has no reference that does not resolve. -/
def Event.resolves : Event → Bool
  | .text raw => (resolve? none raw).isSome
  | _ => true

end Xml

/-- A field that a package may have. -/
inductive PackageField where
  | id
  | version
  | authors
  | description
  deriving DecidableEq

/-- The name of the elements that hold a field. -/
def PackageField.name : PackageField → String
  | id => "id"
  | version => "version"
  | authors => "authors"
  | description => "description"

namespace PackageMetadata

/-!
## Fields
-/

def get (metadata : PackageMetadata) : PackageField → Option String
  | .id => metadata.id
  | .version => metadata.version
  | .authors => metadata.authors
  | .description => metadata.description

def ofFields (value : PackageField → Option String) : PackageMetadata where
  id := value .id
  version := value .version
  authors := value .authors
  description := value .description

theorem get_ofFields (value : PackageField → Option String) (field : PackageField) :
    (ofFields value).get field = value field := by
  cases field <;> rfl

theorem eq_iff_get {first second : PackageMetadata} :
    first = second ↔ ∀ field, second.get field = first.get field := by
  constructor
  · rintro rfl _
    rfl
  · intro hsame
    cases first
    cases second
    simp only [mk.injEq]
    exact ⟨(hsame .id).symm, (hsame .version).symm, (hsame .authors).symm,
      (hsame .description).symm⟩

theorem get_add (metadata : PackageMetadata) (name text : String) (field : PackageField) :
    (metadata.add name text).get field =
      if name = field.name then extend (metadata.get field) text else metadata.get field := by
  unfold add
  split <;> cases field <;> simp_all [PackageField.name, get]

/-!
## Places
-/

/-- The name of the child of `metadata` that a place is directly in, if it is in one. The open
elements of the place are given innermost first. -/
def childName? : List String → Option String
  | [name, "metadata", _] => some name
  | _ => none

theorem childName?_eq_some_iff {path : List String} {name : String} :
    childName? path = some name ↔ ∃ root, path = [name, "metadata", root] := by
  constructor
  · intro hchild
    unfold childName? at hchild
    split at hchild
    · obtain rfl := Option.some.inj hchild
      exact ⟨_, rfl⟩
    · cases hchild
  · rintro ⟨root, rfl⟩
    rfl

/-- No place inside of the innermost of the open elements is directly in a field: it is deeper than
the fields, elsewhere than in `metadata`, or another child of `metadata`. -/
inductive Apart : List String → Prop where
  | deeper {path : List String} (h : 4 ≤ path.length) : Apart path
  | elsewhere {parent root : String} (inner : List String) (h : parent ≠ "metadata") :
      Apart (inner ++ [parent, root])
  | unrelated {name : String} (root : String) (h : ∀ field : PackageField, name ≠ field.name) :
      Apart [name, "metadata", root]

theorem childName?_ne_of_apart {path : List String} (h : Apart path) (inner : List String)
    (field : PackageField) : childName? (inner ++ path) ≠ some field.name := by
  intro hchild
  obtain ⟨root, hpath⟩ := childName?_eq_some_iff.mp hchild
  have hlength := congrArg List.length hpath
  rw [List.length_append] at hlength
  cases h with
  | deeper hdeep =>
      simp only [List.length_cons, List.length_nil] at hlength
      omega
  | @elsewhere other outermost between hother =>
      have hends : (inner ++ between) ++ [other, outermost] =
          [field.name] ++ ["metadata", root] := by rw [List.append_assoc, hpath]; rfl
      obtain ⟨-, hlast⟩ := List.append_inj' hends rfl
      exact hother (List.cons.inj hlast).1
  | unrelated outermost hnone =>
      cases inner with
      | nil => exact hnone field (List.cons.inj hpath).1
      | cons => simp at hlength

/-!
## Pieces
-/

/-- The character data directly in a field, by what counts as the data of an event. -/
def pieces (data : Xml.Event → Option (List Char)) (field : PackageField)
    (places : List (Xml.Event × List String)) : List (List Char) :=
  places.filterMap fun entry =>
    if childName? entry.2 = some field.name then data entry.1 else none

theorem pieces_append (data : Xml.Event → Option (List Char)) (field : PackageField)
    (front behind : List (Xml.Event × List String)) :
    pieces data field (front ++ behind) = pieces data field front ++ pieces data field behind :=
  List.filterMap_append

theorem pieces_cons_of_none {data : Xml.Event → Option (List Char)} {event : Xml.Event}
    (h : data event = none) {field : PackageField} {path : List String}
    {places : List (Xml.Event × List String)} :
    pieces data field ((event, path) :: places) = pieces data field places :=
  List.filterMap_cons_none (by simp [h])

/-- The pieces without the blanks around them, as far as they have something else, one behind the
other; nothing if there is none. -/
def joined (texts : List (List Char)) : Option String :=
  match (texts.map Blank.trimChars).filter (· ≠ []) with
  | [] => none
  | kept => some (String.ofList kept.flatten)

/-- The fields of a document, by what counts as the data of an event. -/
def collected (data : Xml.Event → Option (List Char)) (events : List Xml.Event) : PackageMetadata :=
  ofFields fun field => joined (pieces data field (Xml.placed [] events))

/-- All texts directly in children of `metadata` are without a reference that does not resolve. -/
def Resolvable (path : List String) (events : List Xml.Event) : Prop :=
  ∀ entry ∈ Xml.placed path events, (childName? entry.2).isSome → entry.1.resolves

/-- All literal sections directly in fields are blank. -/
def LiteralsBlank (events : List Xml.Event) : Prop :=
  ∀ field, ∀ content ∈ pieces Xml.Event.literal? field (Xml.placed [] events),
    Blank.trimChars content = []

/-- What is left of pieces without the blanks around them. -/
def trimmed (texts : List (List Char)) : List Char := (texts.map Blank.trimChars).flatten

/-- Blank pieces add nothing to the others. -/
theorem joined_eq (texts : List (List Char)) :
    joined texts = if trimmed texts = [] then none else some (String.ofList (trimmed texts)) := by
  unfold joined trimmed
  rw [← List.flatten_filter_ne_nil]
  cases hkept : (texts.map Blank.trimChars).filter (· ≠ []) with
  | nil => rfl
  | cons kept rest =>
      have hne : kept ≠ [] := by
        have hmem : kept ∈ (texts.map Blank.trimChars).filter (· ≠ []) := by
          rw [hkept]
          exact List.mem_cons_self
        simpa using (List.mem_filter.mp hmem).2
      rw [if_neg (by simp [hne])]

theorem joined_inj {first second : List (List Char)} :
    joined first = joined second ↔ trimmed first = trimmed second := by
  constructor
  · intro hsame
    rw [joined_eq, joined_eq] at hsame
    split at hsame
    case isTrue hnone =>
      split at hsame
      case isTrue hnothing => rw [hnone, hnothing]
      case isFalse => cases hsame
    case isFalse =>
      split at hsame
      case isTrue => cases hsame
      case isFalse => exact String.ofList_injective (Option.some.inj hsame)
  · intro hsame
    rw [joined_eq, joined_eq, hsame]

/-- A value with pieces put behind it. -/
def attach (value : Option String) (texts : List (List Char)) : Option String :=
  match joined texts with
  | none => value
  | some text => extend value text

theorem attach_eq (value : Option String) (texts : List (List Char)) :
    attach value texts =
      if trimmed texts = [] then value else extend value (String.ofList (trimmed texts)) := by
  rw [attach, joined_eq]
  split <;> split <;> simp_all

theorem attach_nil (value : Option String) : attach value [] = value := rfl

theorem attach_none (texts : List (List Char)) : attach none texts = joined texts := by
  rw [attach]
  cases joined texts with
  | none => rfl
  | some text => simp [extend]

theorem attach_append (value : Option String) (front behind : List (List Char)) :
    attach value (front ++ behind) = attach (attach value front) behind := by
  have hboth : trimmed (front ++ behind) = trimmed front ++ trimmed behind := by
    simp [trimmed]
  rw [attach_eq, attach_eq, attach_eq, hboth]
  by_cases hfront : trimmed front = []
  · simp [hfront]
  · by_cases hbehind : trimmed behind = []
    · simp [hfront, hbehind]
    · simp [hfront, hbehind, extend, String.append_assoc]

/-!
## Reading the events
-/

/-- Adds an event under the open elements, which are given innermost first. -/
def addEvent (metadata : PackageMetadata) (path : List String) :
    Xml.Event → Except Error PackageMetadata
  | .text raw => metadata.addText path raw
  | _ => .ok metadata

theorem ofEvents_cons (metadata : PackageMetadata) (path : List String) (event : Xml.Event)
    (events : List Xml.Event) :
    ofEvents metadata path (event :: events) =
      (metadata.addEvent path event).bind fun added =>
        ofEvents added (event.follow path) events := by
  cases event <;> rfl

theorem addText_of_outside {path : List String} (h : childName? path = none)
    (metadata : PackageMetadata) (raw : List Char) : metadata.addText path raw = .ok metadata := by
  unfold addText
  split
  · cases h
  · rfl

theorem addText_of_child {path : List String} {name : String} (h : childName? path = some name)
    (metadata : PackageMetadata) (raw : List Char) :
    metadata.addText path raw =
      match Xml.resolve? none raw with
      | none => .error (.malformed .escapedText)
      | some text =>
          .ok (if Blank.trimChars text = [] then metadata
            else metadata.add name (String.ofList (Blank.trimChars text))) := by
  obtain ⟨root, rfl⟩ := childName?_eq_some_iff.mp h
  rw [addText]
  cases Xml.resolve? none raw with
  | none => rfl
  | some text => cases htrimmed : Blank.trimChars text <;> simp [htrimmed]

theorem get_add_trimmed (metadata : PackageMetadata) (name : String) (text : List Char)
    (field : PackageField) :
    (if Blank.trimChars text = [] then metadata
      else metadata.add name (String.ofList (Blank.trimChars text))).get field =
      if name = field.name then attach (metadata.get field) [text] else metadata.get field := by
  have htrimmed : trimmed [text] = Blank.trimChars text := List.append_nil _
  rw [attach_eq, htrimmed]
  by_cases hblank : Blank.trimChars text = []
  · simp [hblank]
  · rw [if_neg hblank, if_neg hblank, get_add]

/-- A text directly in a child of `metadata` has to resolve, and it is put behind the field that the
child is named after. Any other event leaves the fields as they are. -/
theorem addEvent_eq_ok_iff {metadata result : PackageMetadata} {path : List String}
    {event : Xml.Event} :
    metadata.addEvent path event = .ok result ↔
      ((childName? path).isSome → event.resolves) ∧ ∀ field, result.get field =
        attach (metadata.get field) (pieces Xml.Event.text? field [(event, path)]) := by
  cases event with
  | text raw =>
      rw [addEvent]
      cases hchild : childName? path with
      | none => simp [addText_of_outside hchild, eq_iff_get, pieces, hchild, attach_nil]
      | some name =>
          rw [addText_of_child hchild]
          cases hresolved : Xml.resolve? none raw with
          | none => simp [Xml.Event.resolves, hresolved]
          | some text =>
              have hfield : ∀ field, attach (metadata.get field)
                  (pieces Xml.Event.text? field [(.text raw, path)]) =
                    if name = field.name then attach (metadata.get field) [text]
                      else metadata.get field := by
                intro field
                by_cases hname : name = field.name
                · simp [pieces, hchild, hname, Xml.Event.text?, hresolved]
                · simp [pieces, hchild, hname, attach_nil]
              simp only [hfield, Except.ok.injEq, eq_iff_get, get_add_trimmed]
              simp [Xml.Event.resolves, hresolved]
  | opening | closing | verbatim | other =>
      simp [addEvent, eq_iff_get, pieces, Xml.Event.text?, Xml.Event.resolves, attach_nil]

/-- What is read from events: their texts have to resolve as far as they are directly in children of
`metadata`, and are put behind the fields they are in. -/
theorem ofEvents_eq_ok_iff {metadata result : PackageMetadata} {path : List String}
    {events : List Xml.Event} :
    ofEvents metadata path events = .ok result ↔
      Resolvable path events ∧ ∀ field, result.get field =
        attach (metadata.get field) (pieces Xml.Event.text? field (Xml.placed path events)) := by
  induction events generalizing metadata path with
  | nil =>
      rw [ofEvents, Except.ok.injEq, eq_iff_get]
      exact ⟨fun hsame => ⟨List.forall_mem_nil _, hsame⟩, And.right⟩
  | cons event events ih =>
      have hpieces : ∀ field, pieces Xml.Event.text? field (Xml.placed path (event :: events)) =
          pieces Xml.Event.text? field [(event, path)] ++
            pieces Xml.Event.text? field (Xml.placed (event.follow path) events) :=
        fun field => pieces_append Xml.Event.text? field [(event, path)] _
      have hresolvable : Resolvable path (event :: events) ↔
          ((childName? path).isSome → event.resolves) ∧ Resolvable (event.follow path) events :=
        List.forall_mem_cons
      -- What the first event adds is what the others are put behind.
      rw [ofEvents_cons, hresolvable]
      simp only [hpieces, attach_append]
      constructor
      · intro hread
        cases hadded : metadata.addEvent path event with
        | error fault =>
            rw [hadded] at hread
            cases hread
        | ok added =>
            rw [hadded] at hread
            obtain ⟨hresolves, hfirst⟩ := addEvent_eq_ok_iff.mp hadded
            obtain ⟨hothers, hrest⟩ := ih.mp hread
            exact ⟨⟨hresolves, hothers⟩, fun field => by rw [hrest, hfirst]⟩
      · rintro ⟨⟨hresolves, hothers⟩, hfields⟩
        have hadded := addEvent_eq_ok_iff.mpr ⟨hresolves, fun field =>
          get_ofFields (fun field =>
            attach (metadata.get field) (pieces Xml.Event.text? field [(event, path)])) field⟩
        rw [hadded]
        exact ih.mpr ⟨hothers, fun field => by rw [hfields, get_ofFields]⟩

/-!
## Literal sections
-/

theorem trimmed_pieces_cons (data : Xml.Event → Option (List Char)) (field : PackageField)
    (event : Xml.Event) (path : List String) (places : List (Xml.Event × List String)) :
    trimmed (pieces data field ((event, path) :: places)) =
      (if childName? path = some field.name then (data event).elim [] Blank.trimChars else []) ++
        trimmed (pieces data field places) := by
  unfold pieces
  rw [List.filterMap_cons]
  by_cases hchild : childName? path = some field.name
  · rw [if_pos hchild, if_pos hchild]
    cases data event with
    | none => rfl
    | some piece => rfl
  · rw [if_neg hchild, if_neg hchild]
    rfl

/-- What is left of the character data in a field is made up of what is left of the texts and of the
literal sections. -/
theorem length_trimmed_characters (field : PackageField) (places : List (Xml.Event × List String)) :
    (trimmed (pieces Xml.Event.characters? field places)).length =
      (trimmed (pieces Xml.Event.text? field places)).length +
        (trimmed (pieces Xml.Event.literal? field places)).length := by
  induction places with
  | nil => rfl
  | cons entry places ih =>
      obtain ⟨event, path⟩ := entry
      simp only [trimmed_pieces_cons, List.length_append, ih]
      rcases event.characters?_cases with ⟨hdata, hnone⟩ | ⟨hdata, hnone⟩
      · simp only [hdata, hnone, Option.elim_none, ite_self, List.length_nil]
        omega
      · simp only [hdata, hnone, Option.elim_none, ite_self, List.length_nil]
        omega

theorem trimmed_eq_nil_iff {texts : List (List Char)} :
    trimmed texts = [] ↔ ∀ text ∈ texts, Blank.trimChars text = [] := by
  rw [trimmed, List.flatten_eq_nil_iff, List.forall_mem_map]

/-- A field has all of its character data exactly if its literal sections are blank. -/
theorem trimmed_characters_eq_iff (field : PackageField)
    (places : List (Xml.Event × List String)) :
    trimmed (pieces Xml.Event.text? field places) =
        trimmed (pieces Xml.Event.characters? field places) ↔
      trimmed (pieces Xml.Event.literal? field places) = [] := by
  constructor
  · intro hsame
    have hlength := length_trimmed_characters field places
    rw [← hsame] at hlength
    exact List.eq_nil_of_length_eq_zero (by omega)
  · intro hblank
    induction places with
    | nil => rfl
    | cons entry places ih =>
        obtain ⟨event, path⟩ := entry
        rw [trimmed_pieces_cons] at hblank
        obtain ⟨hfirst, hrest⟩ := List.append_eq_nil_iff.mp hblank
        rw [trimmed_pieces_cons, trimmed_pieces_cons, ih hrest]
        rcases event.characters?_cases with ⟨hdata, -⟩ | ⟨hdata, hnone⟩
        · rw [hdata]
        · rw [hdata, hnone, hfirst, Option.elim_none, ite_self]

theorem collected_eq_iff (events : List Xml.Event) :
    collected Xml.Event.text? events = collected Xml.Event.characters? events ↔
      LiteralsBlank events := by
  rw [eq_comm, eq_iff_get]
  refine forall_congr' fun field => ?_
  rw [collected, collected, get_ofFields, get_ofFields, joined_inj, trimmed_characters_eq_iff,
    trimmed_eq_nil_iff]

/-- What is read from a whole sequence of events. -/
theorem ofEvents_eq_ok_collected_iff {result : PackageMetadata} {events : List Xml.Event} :
    ofEvents {} [] events = .ok result ↔
      Resolvable [] events ∧ result = collected Xml.Event.text? events := by
  have hempty : ∀ field, ({} : PackageMetadata).get field = none := fun field => by
    cases field <;> rfl
  rw [ofEvents_eq_ok_iff, eq_comm (a := result), eq_iff_get]
  simp only [hempty, attach_none, collected, get_ofFields]

/-!
## Elements apart from the fields
-/

/-- An element stands between other events. -/
def around (front : List Xml.Event) (name : String) (inside behind : List Xml.Event) :
    List Xml.Event :=
  front ++ .opening name :: (inside ++ .closing :: behind)

theorem placed_around {inside : List Xml.Event} (h : Xml.WellNested inside)
    (front : List Xml.Event) (name : String) (behind : List Xml.Event) :
    Xml.placed [] (around front name inside behind) =
      Xml.placed [] front ++ (.opening name, Xml.openElements [] front) ::
        (Xml.placed (name :: Xml.openElements [] front) inside ++
          (.closing, name :: Xml.openElements [] front) ::
            Xml.placed (Xml.openElements [] front) behind) := by
  rw [around, Xml.placed_append, Xml.placed, Xml.Event.follow, Xml.placed_append,
    Xml.openElements_of_wellNested h, Xml.placed, Xml.Event.follow, List.tail_cons]

theorem pieces_of_apart {inside : List Xml.Event} (h : Xml.WellNested inside) {path : List String}
    (hapart : Apart path) (data : Xml.Event → Option (List Char)) (field : PackageField) :
    pieces data field (Xml.placed path inside) = [] := by
  rw [pieces, List.filterMap_eq_nil_iff]
  intro entry hentry
  obtain ⟨inner, hplace⟩ := Xml.place_of_mem_placed h hentry
  rw [if_neg (hplace ▸ childName?_ne_of_apart hapart inner field)]

theorem pieces_around {front inside : List Xml.Event} (hinside : Xml.WellNested inside)
    {name : String} (hapart : Apart (name :: Xml.openElements [] front)) (behind : List Xml.Event)
    (field : PackageField) :
    pieces Xml.Event.text? field (Xml.placed [] (around front name inside behind)) =
      pieces Xml.Event.text? field (Xml.placed [] (front ++ behind)) := by
  rw [placed_around hinside, pieces_append, pieces_cons_of_none rfl, pieces_append,
    pieces_of_apart hinside hapart, List.nil_append, pieces_cons_of_none rfl, ← pieces_append,
    ← Xml.placed_append]

theorem resolvable_around_iff {front inside : List Xml.Event} (hinside : Xml.WellNested inside)
    (name : String) (behind : List Xml.Event) :
    Resolvable [] (around front name inside behind) ↔
      Resolvable (name :: Xml.openElements [] front) inside ∧ Resolvable [] (front ++ behind) := by
  unfold Resolvable
  rw [placed_around hinside, Xml.placed_append]
  simp only [List.forall_mem_append, List.forall_mem_cons, Xml.Event.resolves, implies_true,
    true_and]
  exact and_left_comm

/-- A document that is read to its end has the fields of its events. -/
theorem parse_eq_ok_iff {text : String} {result : PackageMetadata} :
    parse text = .ok result ↔
      (Xml.read text).isComplete ∧ ofEvents {} [] (Xml.read text).events = .ok result := by
  have hparse : parse text = (ofEvents {} [] (Xml.read text).events).bind fun metadata =>
      if (Xml.read text).isComplete then .ok metadata else .error .invalidXml := rfl
  rw [hparse]
  cases ofEvents {} [] (Xml.read text).events with
  | error fault => simp [Except.bind]
  | ok metadata => cases (Xml.read text).isComplete <;> simp [Except.bind]

/-- Each field of a package is what the character data in the children of `metadata` with its name
amounts to, exactly if their literal sections are blank; it is what the texts there amount to in
any case. An element that is deeper or elsewhere adds nothing and takes nothing away; as far as it
is a child of `metadata` itself, its texts have to resolve. -/
theorem fields_from_children_iff (events : List Xml.Event) :
    (ofEvents {} [] events = .ok (collected Xml.Event.characters? events) ↔
      Resolvable [] events ∧ LiteralsBlank events) ∧
    (∀ result, ofEvents {} [] events = .ok result ↔
      Resolvable [] events ∧ result = collected Xml.Event.text? events) ∧
    (∀ front name inside behind, events = around front name inside behind →
      Xml.WellNested inside → Apart (name :: Xml.openElements [] front) →
        ∀ result, ofEvents {} [] events = .ok result ↔
          Resolvable (name :: Xml.openElements [] front) inside ∧
            ofEvents {} [] (front ++ behind) = .ok result) ∧
    ∀ text, (Xml.read text).events = events → ∀ result, parse text = .ok result ↔
      (Xml.read text).isComplete ∧ ofEvents {} [] events = .ok result := by
  refine ⟨?_, fun result => ofEvents_eq_ok_collected_iff, ?_, ?_⟩
  · rw [ofEvents_eq_ok_collected_iff, eq_comm (a := collected Xml.Event.characters? events),
      collected_eq_iff]
  · rintro front name inside behind rfl hinside hapart result
    rw [ofEvents_eq_ok_iff, ofEvents_eq_ok_iff, resolvable_around_iff hinside, and_assoc]
    simp only [pieces_around hinside hapart]
  · rintro text rfl result
    exact parse_eq_ok_iff

theorem fields_from_children_iff_dependency :
    let front : List Xml.Event :=
      [.opening "package", .opening "metadata", .opening "id", .text "Only".toList, .closing]
    let inside : List Xml.Event := [.opening "id", .text "Other".toList, .closing]
    let events := around front "dependencies" inside [.closing, .closing]
    let text := "<package><metadata><id>Only</id><dependencies><id>Other</id></dependencies>" ++
      "</metadata></package>"
    (Xml.read text).events = events ∧ Xml.WellNested inside ∧
      Apart ("dependencies" :: Xml.openElements [] front) ∧
      parse text = .ok { id := some "Only" } ∧
      ∀ result, ofEvents {} [] events = .ok result ↔
        Resolvable ("dependencies" :: Xml.openElements [] front) inside ∧
          ofEvents {} [] (front ++ [.closing, .closing]) = .ok result := by
  intro front inside events text
  have hread : (Xml.read text).events = events := by decide +kernel
  have hinside : Xml.WellNested inside := .element "id" (.leaf (fun _ => rfl) .nil) .nil
  have hapart : Apart ("dependencies" :: Xml.openElements [] front) :=
    .unrelated "package" fun field => by cases field <;> decide
  have hfields := fields_from_children_iff events
  have hparsed := (hfields.2.2.2 text hread { id := some "Only" }).mpr ⟨by decide +kernel, by rfl⟩
  exact ⟨hread, hinside, hapart, hparsed,
    hfields.2.2.1 front "dependencies" inside _ rfl hinside hapart⟩

/-- An identifier in a literal section is lost. -/
theorem literal_identifier_lost :
    parse "<package><metadata><id><![CDATA[Only]]></id></metadata></package>" = .ok {} ∧
      collected Xml.Event.characters?
          (Xml.read "<package><metadata><id><![CDATA[Only]]></id></metadata></package>").events =
        { id := some "Only" } ∧
      ¬ ∀ text result, parse text = .ok result →
        result = collected Xml.Event.characters? (Xml.read text).events := by
  have hread :
      parse "<package><metadata><id><![CDATA[Only]]></id></metadata></package>" = .ok {} := by
    rfl
  refine ⟨hread, by decide +kernel, fun hall => ?_⟩
  exact absurd (hall _ _ hread) (by decide +kernel)

end PackageMetadata
end AssemblyBrowser
