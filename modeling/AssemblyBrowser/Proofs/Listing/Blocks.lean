import Mathlib.Data.List.Induction
import AssemblyBrowser.Listing.Source
import AssemblyBrowser.Module.Definition

/-!
# Writers and blocks

A writer adds line by line to a text, and indents every line by the number of blocks
that are open. A block is opened by one step and closed by another, and nothing ties
the two together: a writer with no open block closes one without complaint, and stays
at depth 0. So it is up to the steps to match. They do if they are put together of
lines and of whole blocks, as the steps are that write a listing.

The steps of a listing are about definitions, which stand inside one another, and a
writer does not ask what a step is about. Where what is inside a definition is written
inside the block of the definition, a step stands in the block of whatever holds the
definition that it is about.
-/

namespace AssemblyBrowser

/-- What a writer is asked for. -/
inductive WriterStep where
  | line (text : String)
  | openBlock
  /-- Closes a block, with a remark behind the brace. -/
  | closeBlock (remark : String)
  deriving DecidableEq

/-- What the line of a step says. -/
def WriterStep.text : WriterStep → String
  | line text => text
  | openBlock => "\x7b"
  | closeBlock remark => "\x7d" ++ remark

/-- A text that is being written. -/
structure Writer where
  text : String := ""
  /-- The number of open blocks. -/
  depth : Nat := 0

namespace Writer

def line (writer : Writer) (text : String) : Writer :=
  { writer with text := writer.text ++ (Source.lineAt writer.depth text ++ "\n") }

def openBlock (writer : Writer) : Writer :=
  let opened := writer.line "\x7b"
  { opened with depth := opened.depth + 1 }

/-- The brace is written at the depth outside the block. Where nothing is open, that is 0. -/
def closeBlock (writer : Writer) (remark : String) : Writer :=
  { writer with depth := writer.depth - 1 }.line ("\x7d" ++ remark)

def write (writer : Writer) : WriterStep → Writer
  | .line text => writer.line text
  | .openBlock => writer.openBlock
  | .closeBlock remark => writer.closeBlock remark

def run (writer : Writer) (steps : List WriterStep) : Writer := steps.foldl write writer

/-- The depth at which the line of a step is written. -/
def depthOf (writer : Writer) : WriterStep → Nat
  | .line _ => writer.depth
  | .openBlock => writer.depth
  | .closeBlock _ => writer.depth - 1

/-- The depth of the line that the step at a place writes. -/
def lineDepth (writer : Writer) (steps : List WriterStep) (place : Nat) : Nat :=
  match steps[place]? with
  | some step => (writer.run (steps.take place)).depthOf step
  | none => writer.depth

/-- The lines that steps write, one each. -/
def lines (writer : Writer) (steps : List WriterStep) : List String :=
  steps.mapIdx fun place step => Source.lineAt (writer.lineDepth steps place) step.text

variable (writer : Writer) {front behind : List WriterStep} {step : WriterStep}

@[simp] theorem run_nil : writer.run [] = writer := rfl

@[simp] theorem run_cons (step : WriterStep) (rest : List WriterStep) :
    writer.run (step :: rest) = (writer.write step).run rest := rfl

theorem run_append (first second : List WriterStep) :
    writer.run (first ++ second) = (writer.run first).run second := List.foldl_append

@[simp] theorem depth_line (text : String) : (writer.write (.line text)).depth = writer.depth := rfl

@[simp] theorem depth_openBlock : (writer.write .openBlock).depth = writer.depth + 1 := rfl

@[simp] theorem depth_closeBlock (remark : String) :
    (writer.write (.closeBlock remark)).depth = writer.depth - 1 := rfl

theorem text_write (step : WriterStep) : (writer.write step).text =
    writer.text ++ (Source.lineAt (writer.depthOf step) step.text ++ "\n") := by
  cases step <;> rfl

theorem lineDepth_split :
    writer.lineDepth (front ++ step :: behind) front.length =
      (writer.run front).depthOf step := by
  rw [lineDepth, List.getElem?_append_right (Nat.le_refl _), Nat.sub_self, List.take_left]
  rfl

theorem lineDepth_append {place : Nat} (h : place < front.length) (behind : List WriterStep) :
    writer.lineDepth (front ++ behind) place = writer.lineDepth front place := by
  rw [lineDepth, lineDepth, List.getElem?_append_left h,
    List.take_append_of_le_length (Nat.le_of_lt h)]

theorem lines_concat (steps : List WriterStep) (step : WriterStep) :
    writer.lines (steps ++ [step]) =
      writer.lines steps ++ [Source.lineAt ((writer.run steps).depthOf step) step.text] := by
  have hfront : (steps.mapIdx fun place other =>
      Source.lineAt (writer.lineDepth (steps ++ [step]) place) other.text) =
        writer.lines steps := by
    refine List.mapIdx_eq_mapIdx_iff.mpr fun place hplace => ?_
    rw [lineDepth_append writer hplace]
  rw [lines, List.mapIdx_concat, hfront, lineDepth_split]

/-- The text of a run is what it was, and behind it one line for each step. -/
theorem text_run (steps : List WriterStep) : (writer.run steps).text =
    writer.text ++ String.join ((writer.lines steps).map (· ++ "\n")) := by
  induction steps using List.reverseRecOn with
  | nil => exact String.append_empty.symm
  | append_singleton steps step ih =>
      rw [run_append, run_cons, run_nil, text_write, ih, lines_concat, List.map_append,
        List.map_singleton, String.join_append, String.join_cons, String.join_nil,
        String.append_empty, String.append_assoc]

end Writer

/-!
## Blocks
-/

/-- Steps that are lines and whole blocks. -/
inductive Balanced : List WriterStep → Prop where
  | nil : Balanced []
  | line (text : String) {rest : List WriterStep} (hrest : Balanced rest) :
      Balanced (.line text :: rest)
  | block (remark : String) {body rest : List WriterStep} (hbody : Balanced body)
      (hrest : Balanced rest) : Balanced (.openBlock :: (body ++ .closeBlock remark :: rest))

/-- What stands in a list that begins with a block: one of the two ends of the block, something
inside it, or something behind it. -/
theorem block_split_cases {α : Type} {opening closing middle : α}
    {body rest front behind : List α}
    (h : opening :: (body ++ closing :: rest) = front ++ middle :: behind) :
    (front = [] ∧ opening = middle ∧ body ++ closing :: rest = behind) ∨
      (∃ before after, front = opening :: before ∧ body = before ++ middle :: after ∧
        behind = after ++ closing :: rest) ∨
      (front = opening :: body ∧ closing = middle ∧ rest = behind) ∨
      ∃ before, front = opening :: (body ++ closing :: before) ∧
        rest = before ++ middle :: behind := by
  rcases List.cons_eq_append_iff.mp h with ⟨rfl, hhead⟩ | ⟨others, rfl, hothers⟩
  · obtain ⟨hmiddle, hbehind⟩ := List.cons.inj hhead
    exact .inl ⟨rfl, hmiddle.symm, hbehind.symm⟩
  rcases List.append_eq_append_iff.mp hothers with ⟨past, rfl, hpast⟩ | ⟨left, rfl, hleft⟩
  · rcases List.cons_eq_append_iff.mp hpast with ⟨rfl, hhead⟩ | ⟨before, rfl, hrest⟩
    · obtain ⟨hmiddle, hbehind⟩ := List.cons.inj hhead
      exact .inr (.inr (.inl ⟨by rw [List.append_nil], hmiddle.symm, hbehind.symm⟩))
    · exact .inr (.inr (.inr ⟨before, rfl, hrest⟩))
  · rcases List.cons_eq_append_iff.mp hleft with ⟨rfl, hhead⟩ | ⟨after, rfl, hbehind⟩
    · obtain ⟨hmiddle, hbehind⟩ := List.cons.inj hhead
      exact .inr (.inr (.inl ⟨by rw [List.append_nil], hmiddle, hbehind⟩))
    · exact .inr (.inl ⟨others, after, rfl, rfl, hbehind⟩)

namespace Balanced

variable {steps front behind : List WriterStep} {step : WriterStep}

theorem lines (texts : List String) : Balanced (texts.map .line) := by
  induction texts with
  | nil => exact .nil
  | cons text rest ih => exact ih.line text

/-- A writer comes back to the depth at which it began. -/
theorem depth_run (h : Balanced steps) (writer : Writer) :
    (writer.run steps).depth = writer.depth := by
  induction h generalizing writer with
  | nil => rfl
  | line text _ ih => rw [Writer.run_cons, ih, Writer.depth_line]
  | block remark _ _ ihBody ihRest =>
      rw [Writer.run_cons, Writer.run_append, Writer.run_cons, ihRest, Writer.depth_closeBlock,
        ihBody, Writer.depth_openBlock, Nat.add_sub_cancel]

/-- No line stands further out than where the writer began. -/
theorem le_depthOf (h : Balanced steps) (hsteps : steps = front ++ step :: behind)
    (writer : Writer) : writer.depth ≤ (writer.run front).depthOf step := by
  induction h generalizing front behind writer with
  | nil => exact absurd hsteps (by simp)
  | line text _ ih =>
      rcases List.cons_eq_append_iff.mp hsteps with ⟨rfl, hhead⟩ | ⟨others, rfl, hrest⟩
      · obtain ⟨rfl, -⟩ := List.cons.inj hhead
        exact Nat.le_refl _
      · exact ih hrest (writer.write (.line text))
  | @block remark body _ hbody _ ihBody ihRest =>
      have hinside : ((writer.write .openBlock).run body).depth = writer.depth + 1 :=
        hbody.depth_run _
      rcases block_split_cases hsteps with ⟨rfl, rfl, -⟩ | ⟨before, after, rfl, hsplit, -⟩ |
        ⟨rfl, rfl, -⟩ | ⟨before, rfl, hrest⟩
      · exact Nat.le_refl _
      · exact Nat.le_of_succ_le (ihBody hsplit (writer.write .openBlock))
      · rw [Writer.run_cons, Writer.depthOf, hinside]
        exact Nat.le_refl _
      · have hle := ihRest hrest (((writer.write .openBlock).run body).write (.closeBlock remark))
        rw [Writer.depth_closeBlock, hinside, Nat.add_sub_cancel] at hle
        rwa [Writer.run_cons, Writer.run_append, Writer.run_cons]

/-- What is opened is closed again. -/
theorem exists_closing (h : Balanced steps) (hsteps : steps = front ++ .openBlock :: behind) :
    ∃ body remark rest, Balanced body ∧ behind = body ++ .closeBlock remark :: rest := by
  induction h generalizing front behind with
  | nil => exact absurd hsteps (by simp)
  | line text _ ih =>
      rcases List.cons_eq_append_iff.mp hsteps with ⟨-, hhead⟩ | ⟨others, -, hrest⟩
      · cases hhead
      · exact ih hrest
  | @block remark body others hbody _ ihBody ihRest =>
      rcases block_split_cases hsteps with ⟨-, -, hbehind⟩ | ⟨before, after, -, hsplit, hbehind⟩ |
        ⟨-, hmiddle, -⟩ | ⟨before, -, hrest⟩
      · exact ⟨body, remark, _, hbody, hbehind.symm⟩
      · obtain ⟨inner, innerRemark, rest, hinner, rfl⟩ := ihBody hsplit
        refine ⟨inner, innerRemark, rest ++ .closeBlock remark :: others, hinner, ?_⟩
        rw [hbehind, List.append_assoc, List.cons_append]
      · cases hmiddle
      · exact ihRest hrest

/-- What is closed was opened before. -/
theorem exists_opening (h : Balanced steps) {remark : String}
    (hsteps : steps = front ++ .closeBlock remark :: behind) :
    ∃ before body, Balanced body ∧ front = before ++ .openBlock :: body := by
  induction h generalizing front behind with
  | nil => exact absurd hsteps (by simp)
  | line text _ ih =>
      rcases List.cons_eq_append_iff.mp hsteps with ⟨-, hhead⟩ | ⟨others, rfl, hrest⟩
      · cases hhead
      · obtain ⟨before, body, hbody, rfl⟩ := ih hrest
        exact ⟨.line text :: before, body, hbody, rfl⟩
  | @block blockRemark body _ hbody _ ihBody ihRest =>
      rcases block_split_cases hsteps with ⟨-, hmiddle, -⟩ | ⟨before, after, rfl, hsplit, -⟩ |
        ⟨rfl, -, -⟩ | ⟨before, rfl, hrest⟩
      · cases hmiddle
      · obtain ⟨outer, inner, hinner, rfl⟩ := ihBody hsplit
        exact ⟨.openBlock :: outer, inner, hinner, rfl⟩
      · exact ⟨[], body, hbody, rfl⟩
      · obtain ⟨outer, inner, hinner, rfl⟩ := ihRest hrest
        refine ⟨.openBlock :: (body ++ .closeBlock blockRemark :: outer), inner, hinner, ?_⟩
        rw [List.cons_append, List.append_assoc, List.cons_append]

/-- At depth 0, and at the depth at which the writer began, nothing is closed. -/
theorem lt_depth_of_closes (h : Balanced steps) {remark : String}
    (hsteps : steps = front ++ .closeBlock remark :: behind) (writer : Writer) :
    writer.depth < (writer.run front).depth := by
  obtain ⟨before, body, hbody, rfl⟩ := h.exists_opening hsteps
  rw [List.append_assoc, List.cons_append] at hsteps
  have hle := h.le_depthOf hsteps writer
  rw [Writer.run_append, Writer.run_cons, hbody.depth_run, Writer.depth_openBlock]
  exact Nat.lt_succ_of_le hle

end Balanced

/-!
## Blocks by the places of their lines
-/

theorem exists_split_of_getElem? {α : Type} {items : List α} {place : Nat} {item : α}
    (h : items[place]? = some item) :
    ∃ front behind, items = front ++ item :: behind ∧ front.length = place := by
  obtain ⟨hlt, hitem⟩ := List.getElem?_eq_some_iff.mp h
  refine ⟨items.take place, items.drop (place + 1), ?_, List.length_take_of_le (Nat.le_of_lt hlt)⟩
  rw [← hitem, List.getElem_cons_drop, List.take_append_drop]

/-- The lines at two places are the ends of a block: at the same depth one opens and the other
closes, and what stands between is deeper. -/
structure Writer.IsBlock (writer : Writer) (steps : List WriterStep) (first last : Nat) : Prop where
  opens : steps[first]? = some .openBlock
  closes : ∃ remark, steps[last]? = some (.closeBlock remark)
  order : first < last
  aligned : writer.lineDepth steps last = writer.lineDepth steps first
  deeper (place : Nat) (hfirst : first < place) (hlast : place < last) :
    writer.lineDepth steps first < writer.lineDepth steps place

namespace Writer

variable {writer : Writer} {steps : List WriterStep} {first last : Nat}

theorem IsBlock.last_unique {other : Nat} (h : writer.IsBlock steps first last)
    (hother : writer.IsBlock steps first other) : last = other := by
  rcases Nat.lt_trichotomy last other with hlt | heq | hgt
  · have hdeeper := hother.deeper last h.order hlt
    rw [h.aligned] at hdeeper
    exact absurd hdeeper (Nat.lt_irrefl _)
  · exact heq
  · have hdeeper := h.deeper other hother.order hgt
    rw [hother.aligned] at hdeeper
    exact absurd hdeeper (Nat.lt_irrefl _)

theorem isBlock_of_balanced (writer : Writer) (front : List WriterStep) {body : List WriterStep}
    (hbody : Balanced body) (remark : String) (behind : List WriterStep) :
    writer.IsBlock (front ++ .openBlock :: (body ++ .closeBlock remark :: behind)) front.length
      (front ++ .openBlock :: body).length := by
  have hsteps : front ++ .openBlock :: (body ++ .closeBlock remark :: behind) =
      (front ++ .openBlock :: body) ++ .closeBlock remark :: behind := by
    rw [List.append_assoc, List.cons_append]
  have hfirst : writer.lineDepth (front ++ .openBlock :: (body ++ .closeBlock remark :: behind))
      front.length = (writer.run front).depth := lineDepth_split writer
  have hdepth : (writer.run (front ++ .openBlock :: body)).depth =
      (writer.run front).depth + 1 := by
    rw [run_append, run_cons, hbody.depth_run, depth_openBlock]
  refine ⟨?_, ⟨remark, ?_⟩, ?_, ?_, ?_⟩
  · rw [List.getElem?_append_right (Nat.le_refl _), Nat.sub_self]
    rfl
  · rw [hsteps, List.getElem?_append_right (Nat.le_refl _), Nat.sub_self]
    rfl
  · rw [List.length_append]
    exact Nat.lt_add_of_pos_right (Nat.succ_pos _)
  · rw [hfirst, hsteps, lineDepth_split, depthOf, hdepth, Nat.add_sub_cancel]
  · intro place hplace hlast
    rw [List.length_append, List.length_cons] at hlast
    have hinside : place - front.length - 1 < body.length := by omega
    obtain ⟨before, after, hsplit, hlength⟩ :=
      exists_split_of_getElem? (List.getElem?_eq_getElem hinside)
    have hwhere : place = (front ++ .openBlock :: before).length := by
      rw [List.length_append, List.length_cons, hlength]
      omega
    have hle := hbody.le_depthOf hsplit ((writer.run front).write .openBlock)
    rw [hfirst, hwhere]
    rw [hsplit, List.append_assoc, List.cons_append, ← List.cons_append, ← List.append_assoc,
      lineDepth_split, run_append, run_cons]
    exact hle

end Writer

/-- The steps match, wherever a writer begins. -/
structure WellBracketed (steps : List WriterStep) : Prop where
  /-- The writer comes back to the depth at which it began. -/
  returns (writer : Writer) : (writer.run steps).depth = writer.depth
  /-- Only what was opened is closed, so nothing is closed at depth 0. -/
  closesOpened (writer : Writer) {place : Nat} {remark : String}
    (h : steps[place]? = some (.closeBlock remark)) :
    writer.depth < (writer.run (steps.take place)).depth
  /-- What is opened is closed once. -/
  closedOnce (writer : Writer) {first : Nat} (h : steps[first]? = some .openBlock) :
    ∃! last, writer.IsBlock steps first last

theorem Balanced.wellBracketed {steps : List WriterStep} (h : Balanced steps) :
    WellBracketed steps where
  returns := h.depth_run
  closesOpened := by
    intro writer place remark hclose
    obtain ⟨front, behind, hsteps, rfl⟩ := exists_split_of_getElem? hclose
    have hlt := h.lt_depth_of_closes hsteps writer
    rwa [hsteps, List.take_left]
  closedOnce := by
    intro writer first hopen
    obtain ⟨front, behind, hsteps, rfl⟩ := exists_split_of_getElem? hopen
    obtain ⟨body, remark, rest, hbody, rfl⟩ := h.exists_closing hsteps
    have hblock := writer.isBlock_of_balanced front hbody remark rest
    rw [← hsteps] at hblock
    exact ⟨_, hblock, fun other hother => hother.last_unique hblock⟩

/-!
## Listings as steps
-/

namespace Source

mutual
/-- The steps that write a piece of a listing. -/
def steps : Source → List WriterStep
  | line text => [.line text]
  | block body remark => .openBlock :: (stepsOfAll body ++ [.closeBlock remark])

def stepsOfAll : List Source → List WriterStep
  | [] => []
  | piece :: rest => steps piece ++ stepsOfAll rest
end

theorem stepsOfAll_append (first second : List Source) :
    stepsOfAll (first ++ second) = stepsOfAll first ++ stepsOfAll second := by
  induction first with
  | nil => rfl
  | cons piece rest ih => rw [List.cons_append, stepsOfAll, stepsOfAll, ih, List.append_assoc]

theorem stepsOfAll_flatMap {α : Type} (items : List α) (pieces : α → List Source) :
    stepsOfAll (items.flatMap pieces) = items.flatMap fun item => stepsOfAll (pieces item) := by
  induction items with
  | nil => rfl
  | cons item rest ih => rw [List.flatMap_cons, stepsOfAll_append, ih, List.flatMap_cons]

theorem stepsOfAll_map {α : Type} (items : List α) (piece : α → Source) :
    stepsOfAll (items.map piece) = items.flatMap fun item => steps (piece item) := by
  induction items with
  | nil => rfl
  | cons item rest ih => rw [List.map_cons, stepsOfAll, ih, List.flatMap_cons]

/-- The text of a piece that is a line. -/
def lineText? : Source → Option String
  | line text => some text
  | block _ _ => none

theorem stepsOfAll_of_lines {pieces : List Source}
    (h : ∀ piece ∈ pieces, ∃ text, piece = line text) :
    stepsOfAll pieces = (pieces.filterMap lineText?).map WriterStep.line := by
  induction pieces with
  | nil => rfl
  | cons piece rest ih =>
      obtain ⟨hpiece, hrest⟩ := List.forall_mem_cons.mp h
      obtain ⟨text, rfl⟩ := hpiece
      rw [stepsOfAll, steps, ih hrest]
      rfl

theorem stepsOfAll_lines (texts : List String) :
    stepsOfAll (texts.map line) = texts.map WriterStep.line := by
  have hlines : ∀ piece ∈ texts.map line, ∃ text, piece = line text := by
    intro piece hmem
    obtain ⟨text, -, rfl⟩ := List.mem_map.mp hmem
    exact ⟨text, rfl⟩
  rw [stepsOfAll_of_lines hlines, List.filterMap_map]
  exact congrArg _ List.filterMap_some

mutual
theorem run_steps (writer : Writer) : (piece : Source) → writer.run (steps piece) =
    { text := writer.text ++ String.join ((lines writer.depth piece).map (· ++ "\n"))
      depth := writer.depth }
  | line text => by
      simp [steps, lines, Writer.write, Writer.line]
  | block body remark => by
      have hbody := run_stepsOfAll (writer.write .openBlock) body
      simp only [steps, Writer.run_cons, Writer.run_append, hbody]
      simp [lines, Writer.write, Writer.line, Writer.openBlock, Writer.closeBlock,
        String.append_assoc]

theorem run_stepsOfAll (writer : Writer) : (pieces : List Source) →
    writer.run (stepsOfAll pieces) =
      { text := writer.text ++ String.join ((linesOfAll writer.depth pieces).map (· ++ "\n"))
        depth := writer.depth }
  | [] => by simp [stepsOfAll, linesOfAll]
  | piece :: rest => by
      have hpiece := run_steps writer piece
      have hrest := run_stepsOfAll (writer.run (steps piece)) rest
      simp only [stepsOfAll, Writer.run_append, hrest]
      simp [hpiece, linesOfAll, String.append_assoc]
end

theorem text_run_stepsOfAll (listing : List Source) :
    (({} : Writer).run (stepsOfAll listing)).text = text listing := by
  rw [run_stepsOfAll, text, String.empty_append]

end Source

/-!
## Steps about definitions
-/

/-- A step of writing with the definition that it is about, which stands behind the types around
it, outermost first. -/
structure ListingStep where
  subject : List Entity
  step : WriterStep

/-- Steps that are all about one definition. -/
def ListingStep.about (subject : List Entity) (steps : List WriterStep) : List ListingStep :=
  steps.map (ListingStep.mk subject)

@[simp] theorem ListingStep.map_about (subject : List Entity) (steps : List WriterStep) :
    (about subject steps).map ListingStep.step = steps := by
  rw [about, List.map_map]
  exact List.map_id steps

/-- The steps that write the members of a definition, one after the other. -/
def ListingStep.ofMembers (owner : List Entity) (write : Entity → List WriterStep)
    (members : List Entity) : List ListingStep :=
  members.flatMap fun member => about (owner ++ [member]) (write member)

@[simp] theorem ListingStep.map_ofMembers (owner : List Entity)
    (write : Entity → List WriterStep) (members : List Entity) :
    (ofMembers owner write members).map ListingStep.step = members.flatMap write := by
  rw [ofMembers, List.map_flatMap]
  simp only [map_about]

/-- A definition itself, or one directly inside it. -/
def AtOrInside (around subject : List Entity) : Prop :=
  subject = around ∨ ∃ entity, subject = around ++ [entity]

/-- Steps that write what is inside `around`: lines, and blocks that hold what is inside the
definition that they are about. -/
inductive WritesInside : (around : List Entity) → List ListingStep → Prop where
  | nil {around : List Entity} : WritesInside around []
  | line {around subject : List Entity} {rest : List ListingStep} (text : String)
      (hsubject : AtOrInside around subject) (hrest : WritesInside around rest) :
      WritesInside around (⟨subject, .line text⟩ :: rest)
  | block {around subject : List Entity} {body rest : List ListingStep} (remark : String)
      (hsubject : AtOrInside around subject) (hbody : WritesInside subject body)
      (hrest : WritesInside around rest) :
      WritesInside around
        (⟨subject, .openBlock⟩ :: (body ++ ⟨subject, .closeBlock remark⟩ :: rest))

/-- A step between others stands in a block about a definition. -/
def InBlockOf (subject : List Entity) (front : List ListingStep) (step : ListingStep)
    (behind : List ListingStep) : Prop :=
  ∃ outer before after remark others,
    front = outer ++ ⟨subject, .openBlock⟩ :: before ∧
    behind = after ++ ⟨subject, .closeBlock remark⟩ :: others ∧
    Balanced ((before ++ step :: after).map ListingStep.step)

theorem InBlockOf.within {subject : List Entity} {front behind : List ListingStep}
    {step : ListingStep} (h : InBlockOf subject front step behind) (first last : List ListingStep) :
    InBlockOf subject (first ++ front) step (behind ++ last) := by
  obtain ⟨outer, before, after, remark, others, rfl, rfl, hbalanced⟩ := h
  refine ⟨first ++ outer, before, after, remark, others ++ last, ?_, ?_, hbalanced⟩
  · rw [List.append_assoc]
  · rw [List.append_assoc, List.cons_append]

namespace WritesInside

variable {around : List Entity} {steps front behind : List ListingStep} {step : ListingStep}

theorem append (h : WritesInside around steps) {others : List ListingStep}
    (hothers : WritesInside around others) : WritesInside around (steps ++ others) := by
  induction h with
  | nil => exact hothers
  | line text hsubject _ ih => exact (ih hothers).line text hsubject
  | block remark hsubject hbody _ _ ih =>
      rw [List.cons_append, List.append_assoc, List.cons_append]
      exact hbody.block remark hsubject (ih hothers)

/-- Lines and whole blocks that are all about one definition. -/
theorem about {subject : List Entity} (h : AtOrInside around subject) {steps : List WriterStep}
    (hsteps : Balanced steps) : WritesInside around (ListingStep.about subject steps) := by
  induction hsteps generalizing around with
  | nil => exact nil
  | line text _ ih => exact (ih h).line text h
  | block remark _ _ ihBody ihRest =>
      rw [ListingStep.about, List.map_cons, List.map_append, List.map_cons]
      exact (ihBody (.inl rfl)).block remark h (ihRest h)

theorem ofMembers (around : List Entity) {write : Entity → List WriterStep}
    (h : ∀ member, Balanced (write member)) (members : List Entity) :
    WritesInside around (ListingStep.ofMembers around write members) := by
  induction members with
  | nil => exact nil
  | cons member rest ih => exact (about (.inr ⟨member, rfl⟩) (h member)).append ih

theorem balanced (h : WritesInside around steps) : Balanced (steps.map ListingStep.step) := by
  induction h with
  | nil => exact .nil
  | line text _ _ ih => exact ih.line text
  | block remark _ _ _ ihBody ihRest =>
      rw [List.map_cons, List.map_append, List.map_cons]
      exact ihBody.block remark ihRest

/-- What is not directly inside the surroundings stands in the block of the definition that it is
directly inside. -/
theorem stands_cases (h : WritesInside around steps) (hsteps : steps = front ++ step :: behind) :
    AtOrInside around step.subject ∨
      ∃ owner inner, step.subject = owner ++ [inner] ∧ InBlockOf owner front step behind := by
  induction h generalizing front behind with
  | nil => exact absurd hsteps (by simp)
  | line text hsubject _ ih =>
      rcases List.cons_eq_append_iff.mp hsteps with ⟨-, hhead⟩ | ⟨others, rfl, hrest⟩
      · obtain ⟨rfl, -⟩ := List.cons.inj hhead
        exact .inl hsubject
      · refine (ih hrest).imp_right ?_
        rintro ⟨owner, inner, hdirectly, hblock⟩
        exact ⟨owner, inner, hdirectly, List.append_nil behind ▸ hblock.within [_] []⟩
  | @block _ subject body rest remark hsubject hbody _ ihBody ihRest =>
      rcases block_split_cases hsteps with ⟨-, rfl, -⟩ | ⟨before, after, rfl, hsplit, rfl⟩ |
        ⟨-, rfl, -⟩ | ⟨before, rfl, hrest⟩
      · exact .inl hsubject
      · rcases ihBody hsplit with (hself | ⟨inner, hinside⟩) | ⟨owner, inner, hdirectly, hblock⟩
        · exact .inl (hself ▸ hsubject)
        · refine .inr ⟨subject, inner, hinside, [], before, after, remark, rest, rfl, rfl, ?_⟩
          exact hsplit ▸ hbody.balanced
        · exact .inr ⟨owner, inner, hdirectly,
            hblock.within [⟨subject, .openBlock⟩] (⟨subject, .closeBlock remark⟩ :: rest)⟩
      · exact .inl hsubject
      · refine (ihRest hrest).imp_right ?_
        rintro ⟨owner, inner, hdirectly, hblock⟩
        refine ⟨owner, inner, hdirectly, ?_⟩
        have hwithin := hblock.within
          (⟨subject, .openBlock⟩ :: (body ++ [⟨subject, .closeBlock remark⟩])) []
        simpa using hwithin

end WritesInside

/-- A step stands in the block of the type that holds what the step is about. -/
def StandInBlocks (steps : List ListingStep) : Prop :=
  ∀ (writer : Writer) (place : Nat) (around : List Entity) (owner inner : Entity)
    (step : WriterStep), steps[place]? = some ⟨around ++ [owner, inner], step⟩ →
      ∃ first last remark, first < place ∧ place < last ∧
        steps[first]? = some ⟨around ++ [owner], .openBlock⟩ ∧
        steps[last]? = some ⟨around ++ [owner], .closeBlock remark⟩ ∧
        writer.IsBlock (steps.map ListingStep.step) first last

theorem WritesInside.standInBlocks {steps : List ListingStep} (h : WritesInside [] steps) :
    StandInBlocks steps := by
  intro writer place around owner inner step hstep
  obtain ⟨front, behind, hsteps, rfl⟩ := exists_split_of_getElem? hstep
  rcases h.stands_cases hsteps with (hnone | ⟨single, hsingle⟩) | ⟨subject, other, hsubject, hblock⟩
  · exact absurd hnone (by simp)
  · exact absurd (congrArg List.length hsingle) (by simp)
  have howner : subject = around ++ [owner] := by
    have hends : (around ++ [owner]) ++ [inner] = subject ++ [other] := by
      rw [← hsubject, List.append_assoc]
      rfl
    exact (List.append_inj' hends rfl).1.symm
  obtain ⟨outer, before, after, remark, others, rfl, rfl, hbalanced⟩ := hblock
  have hclose : steps =
      (outer ++ ⟨around ++ [owner], .openBlock⟩ ::
        (before ++ ⟨around ++ [owner, inner], step⟩ :: after)) ++
      ⟨around ++ [owner], .closeBlock remark⟩ :: others := by
    simp [hsteps, howner]
  have hblock := writer.isBlock_of_balanced (outer.map ListingStep.step) hbalanced remark
    (others.map ListingStep.step)
  refine ⟨outer.length, (outer ++ ⟨around ++ [owner], .openBlock⟩ ::
    (before ++ ⟨around ++ [owner, inner], step⟩ :: after)).length, remark, ?_, ?_, ?_, ?_, ?_⟩
  · simp
  · simp
  · simp [hsteps, howner]
  · rw [hclose, List.getElem?_append_right (Nat.le_refl _), Nat.sub_self]
    rfl
  · simpa [hsteps, howner] using hblock

end AssemblyBrowser
