import AssemblyBrowser.Proofs.Codec.Signatures
import AssemblyBrowser.Proofs.Cursors.Spending

/-!
# How much is made of a signature

Every type of a tree has a byte of its own, so a tree has at most as many types as
there are bytes, and it is at most as deep as the reader may go. The loops end: the
one over marks goes on only behind a mark, and one that follows a count comes to the
end of the data soon, however large the count is.
-/

namespace AssemblyBrowser

open Decoder (Spends)

/-!
## Sizes of trees
-/

mutual

/-- The number of types in a tree, with the type itself. -/
def TypeSignature.nodes : TypeSignature → Nat
  | .primitive _ | .classType _ | .valueType _ | .typeParameter _ | .methodParameter _ => 1
  | .vector element | .array element _ => element.nodes + 1
  | .pointer target | .reference target => target.nodes + 1
  | .generic base arguments => base.nodes + TypeSignature.listNodes arguments + 1
  | .functionPointer _ _ result parameters =>
      result.nodes + TypeSignature.listNodes parameters + 1

def TypeSignature.listNodes : List TypeSignature → Nat
  | [] => 0
  | type :: types => type.nodes + TypeSignature.listNodes types

end

namespace TypeSignature

theorem nodes_pos (type : TypeSignature) : 0 < type.nodes := by
  cases type <;> simp [nodes]

theorem listNodes_eq_sum (types : List TypeSignature) :
    listNodes types = (types.map nodes).sum := by
  induction types with
  | nil => rfl
  | cons type types ih => rw [listNodes, ih, List.map_cons, List.sum_cons]

end TypeSignature

def MethodSignature.nodes (signature : MethodSignature) : Nat :=
  signature.result.nodes + TypeSignature.listNodes signature.parameters

def PropertySignature.nodes (signature : PropertySignature) : Nat :=
  signature.type.nodes + TypeSignature.listNodes signature.parameters

namespace Signature

open Decoder

/-!
## What reading spends
-/

/-- How reading a signature fails. -/
def IsFault (error : Error) : Prop := error.FromData ∨ error = .recursionLimit maxDepth

theorem spends_of_fromData {α : Type} {P : Nat → α → Prop} {decoder : Decoder α}
    (h : Spends Error.FromData P decoder) : Spends IsFault P decoder :=
  spends_mono h (fun _ => Or.inl) fun _ _ => id

theorem spends_skipModifiersBounded (fuel : Nat) :
    Spends Error.FromData (fun _ _ => True) (skipModifiersBounded fuel) := by
  induction fuel with
  | zero => exact spends_pure trivial
  | succ fuel ih =>
      refine spends_bind spends_remaining fun _ left _ => ?_
      refine spends_ite (fun _ => spends_pure trivial) fun _ => ?_
      refine spends_bind spends_peek fun _ next _ => ?_
      refine spends_ite (fun _ => ?_) fun _ => spends_ite (fun _ => ?_) fun _ => ?_
      · refine spends_bind (spends_advance 1) fun _ _ _ => ?_
        exact spends_bind CompressedNumber.spends_decodeToken fun _ _ _ => ih
      · exact spends_bind (spends_advance 1) fun _ _ _ => ih
      · exact spends_pure trivial

theorem spends_skipModifiers : Spends Error.FromData (fun _ _ => True) skipModifiers :=
  spends_bind spends_remaining fun _ left _ => spends_skipModifiersBounded left

theorem spends_countedNumbers : Spends Error.FromData (fun _ _ => True) countedNumbers := by
  refine spends_bind CompressedNumber.spends_decode fun _ count _ => ?_
  have hnumber : Spends Error.FromData (fun spent _ => 0 ≤ spent ∧ True)
      CompressedNumber.decode :=
    spends_mono CompressedNumber.spends_decode (fun _ => id) fun _ _ _ => ⟨Nat.zero_le _, trivial⟩
  exact spends_mono (spends_repeated hnumber count) (fun _ => id) fun _ _ _ => trivial

/-!
## What stands in front of types
-/

/-- The marks in front of a parameter. -/
def parameterStart : Decoder Unit := do
  skipModifiers
  if (← peek) = 0x41 then advance 1

theorem parameter_eq (reader : Decoder TypeSignature) :
    parameter reader = (do parameterStart; reader) := by
  unfold parameter parameterStart
  simp only [bind_assoc]
  congr 1
  funext _
  congr 1
  funext next
  split
  · rfl
  · rfl

/-- The first byte of the signature of a field. -/
def fieldStart : Decoder Unit := do
  let head ← byte
  if head % 16 ≠ 6 then malformed (.fieldSignatureHeader head)

/-- What stands in front of the types of a method or of a property. -/
structure MemberStart where
  head : Nat
  genericCount : Nat := 0
  count : Nat

def methodStart : Decoder MemberStart := do
  let head ← byte
  let genericCount ← if head.testBit 4 then CompressedNumber.decode else pure 0
  let count ← CompressedNumber.decode
  return { head, genericCount, count }

def propertyStart : Decoder MemberStart := do
  let head ← byte
  if head % 16 ≠ 8 then malformed (.propertySignatureHeader head)
  let count ← CompressedNumber.decode
  return { head, count }

/-- A type and, behind it, as many types as the start says, each with marks in front of it. -/
def memberOf {α : Type} (start : Decoder MemberStart) (marks : Decoder Unit)
    (make : MemberStart → TypeSignature → List TypeSignature → α)
    (reader : Decoder TypeSignature) : Decoder α := do
  let start ← start
  let type ← reader
  let parameters ← repeated (do marks; reader) start.count
  return make start type parameters

def makeMethod (start : MemberStart) (result : TypeSignature)
    (parameters : List TypeSignature) : MethodSignature :=
  { convention :=
      { hasThis := start.head.testBit 5, explicitThis := start.head.testBit 6,
        vararg := start.head % 16 == 5 }
    genericCount := start.genericCount, result, parameters }

def makeProperty (start : MemberStart) (type : TypeSignature)
    (parameters : List TypeSignature) : PropertySignature :=
  { hasThis := start.head.testBit 5, type, parameters }

theorem field_eq : field = (do fieldStart; type maxDepth) := by
  unfold field fieldStart
  simp only [bind_assoc]
  congr 1
  funext head
  split
  · rfl
  · rfl

theorem methodOf_eq (reader : Decoder TypeSignature) :
    methodOf reader = memberOf methodStart parameterStart makeMethod reader := by
  unfold methodOf memberOf methodStart
  simp only [bind_assoc, pure_bind, ← parameter_eq]
  congr 1
  funext head
  split
  · simp only [bind_assoc, pure_bind]
    rfl
  · simp only [bind_assoc, pure_bind]
    rfl

theorem property_eq : property = memberOf propertyStart (pure ()) makeProperty (type maxDepth) := by
  unfold property memberOf propertyStart
  simp only [bind_assoc, pure_bind]
  congr 1
  funext head
  split
  · simp only [bind_assoc]
    rfl
  · simp only [bind_assoc, pure_bind]
    rfl

theorem spends_parameterStart : Spends Error.FromData (fun _ _ => True) parameterStart := by
  refine spends_bind spends_skipModifiers fun _ _ _ => spends_bind spends_peek fun _ next _ => ?_
  exact spends_ite (fun _ => spends_mono (spends_advance 1) (fun _ => id) fun _ _ _ => trivial)
    fun _ => spends_pure trivial

theorem spends_fieldStart : Spends Error.FromData (fun _ _ => True) fieldStart :=
  spends_bind spends_byte fun _ _ _ =>
    spends_ite (fun _ => spends_malformed _) fun _ => spends_pure trivial

theorem spends_methodStart : Spends Error.FromData (fun _ _ => True) methodStart := by
  refine spends_bind spends_byte fun _ head _ => ?_
  have hcount (genericCount : Nat) : Spends Error.FromData (fun _ _ => True)
      (do return MemberStart.mk head genericCount (← CompressedNumber.decode)) :=
    spends_bind CompressedNumber.spends_decode fun _ _ _ => spends_pure trivial
  refine spends_ite (fun _ => ?_) fun _ => hcount 0
  exact spends_bind CompressedNumber.spends_decode fun _ genericCount _ => hcount genericCount

theorem spends_propertyStart : Spends Error.FromData (fun _ _ => True) propertyStart := by
  refine spends_bind spends_byte fun _ head _ => spends_ite (fun _ => ?_) fun _ => ?_
  · exact spends_bind (spends_malformed (P := fun _ _ => False) _) fun _ _ h => h.elim
  · exact spends_bind CompressedNumber.spends_decode fun _ count _ => spends_pure trivial

/-- The shape of an array, behind the type of its elements. -/
theorem spends_arrayShape (element : TypeSignature) :
    Spends Error.FromData (fun _ type => ∃ rank, type = TypeSignature.array element rank) (do
      let rank ← CompressedNumber.decode
      let _sizes ← countedNumbers
      let _lowerBounds ← countedNumbers
      return TypeSignature.array element rank) := by
  refine spends_bind CompressedNumber.spends_decode fun _ rank _ => ?_
  refine spends_bind spends_countedNumbers fun _ _ _ => ?_
  exact spends_bind spends_countedNumbers fun _ _ _ => spends_pure ⟨rank, rfl⟩

/-- A reader of types spends a byte on each type of a tree, and goes to a depth only. -/
def SpendsTypes (depth : Nat) (reader : Decoder TypeSignature) : Prop :=
  Spends IsFault (fun spent type => type.nodes ≤ spent ∧ type.depth ≤ depth) reader

section Parts

variable {depth : Nat} {reader : Decoder TypeSignature} (hreader : SpendsTypes depth reader)

include hreader

theorem spends_types (count : Nat) :
    Spends IsFault (fun spent types => TypeSignature.listNodes types ≤ spent ∧
      TypeSignature.listDepth types ≤ depth) (repeated reader count) := by
  refine spends_mono (spends_repeated hreader count) (fun _ => id) fun spent types htypes => ?_
  rw [TypeSignature.listNodes_eq_sum]
  exact ⟨htypes.2.1, TypeSignature.listDepth_le htypes.2.2⟩

theorem spends_behind {marks : Decoder Unit}
    (hmarks : Spends Error.FromData (fun _ _ => True) marks) :
    SpendsTypes depth (do marks; reader) := by
  refine spends_bind (spends_of_fromData hmarks) fun _ _ _ => ?_
  exact spends_mono hreader (fun _ => id) fun _ _ h => ⟨by omega, h.2⟩

/-- The types of a member have bytes of their own, and none is too deep. -/
theorem spends_memberOf {α : Type} {start : Decoder MemberStart} {marks : Decoder Unit}
    (make : MemberStart → TypeSignature → List TypeSignature → α)
    (hstart : Spends Error.FromData (fun _ _ => True) start)
    (hmarks : Spends Error.FromData (fun _ _ => True) marks) :
    Spends IsFault (fun spent member => ∃ start type parameters,
        member = make start type parameters ∧
        type.nodes + TypeSignature.listNodes parameters ≤ spent ∧
        max type.depth (TypeSignature.listDepth parameters) ≤ depth)
      (memberOf start marks make reader) := by
  refine spends_bind (spends_of_fromData hstart) fun _ start _ => ?_
  refine spends_bind hreader fun _ type htype => ?_
  refine spends_bind (spends_types (spends_behind hreader hmarks) start.count) fun _ types h => ?_
  refine spends_pure ⟨start, type, types, rfl, by omega, Nat.max_le.mpr ⟨htype.2, h.2⟩⟩

theorem spends_methodOf :
    Spends IsFault (fun spent signature => signature.nodes ≤ spent ∧ signature.depth ≤ depth)
      (methodOf reader) := by
  rw [methodOf_eq]
  refine spends_mono (spends_memberOf hreader makeMethod spends_methodStart spends_parameterStart)
    (fun _ => id) ?_
  rintro _ _ ⟨start, result, parameters, rfl, h⟩
  exact h

end Parts

/-- A type that holds no other has its first byte. -/
theorem spends_leaf {depth marks first more : Nat} {type : TypeSignature}
    (hnodes : type.nodes = 1) (hdepth : type.depth = 1) (hfirst : first = 1) :
    type.nodes ≤ marks + (first + more) ∧ type.depth ≤ depth + 1 := by
  omega

theorem spends_type (depth : Nat) : SpendsTypes depth (type depth) := by
  induction depth with
  | zero => exact spends_throw (Or.inr rfl)
  | succ depth ih =>
      refine spends_bind (spends_of_fromData spends_skipModifiers) fun _ _ _ => ?_
      refine spends_bind (spends_of_fromData spends_byte) fun _ element helement => ?_
      split
      case h_1 | h_2 | h_9 =>
        refine spends_bind ih fun _ target htarget => spends_pure ⟨?_, ?_⟩
        · rw [TypeSignature.nodes]
          omega
        · exact Nat.succ_le_succ htarget.2
      case h_3 | h_4 =>
        refine spends_bind (spends_of_fromData CompressedNumber.spends_decodeToken) fun _ _ _ => ?_
        exact spends_pure (spends_leaf rfl rfl helement.1)
      case h_5 | h_10 =>
        refine spends_bind (spends_of_fromData CompressedNumber.spends_decode) fun _ _ _ => ?_
        exact spends_pure (spends_leaf rfl rfl helement.1)
      case h_6 =>
        refine spends_bind ih fun _ inner hinner => ?_
        refine spends_mono (spends_arrayShape inner) (fun _ => Or.inl) ?_
        rintro _ _ ⟨rank, rfl⟩
        refine ⟨?_, Nat.succ_le_succ hinner.2⟩
        rw [TypeSignature.nodes]
        omega
      case h_7 =>
        refine spends_bind ih fun _ base hbase => ?_
        refine spends_bind (spends_of_fromData CompressedNumber.spends_decode) fun _ count _ => ?_
        refine spends_bind (spends_types ih count) fun _ arguments h => ?_
        refine spends_pure ⟨?_, Nat.succ_le_succ (Nat.max_le.mpr ⟨hbase.2, h.2⟩)⟩
        rw [TypeSignature.nodes]
        omega
      case h_8 =>
        refine spends_bind (spends_methodOf ih) fun _ method hmethod => ?_
        refine spends_pure ⟨?_, Nat.succ_le_succ hmethod.2⟩
        have hnodes : method.result.nodes + TypeSignature.listNodes method.parameters ≤ _ :=
          hmethod.1
        rw [TypeSignature.nodes]
        omega
      case h_11 =>
        split
        · exact spends_pure (spends_leaf rfl rfl helement.1)
        · exact spends_of_fromData (spends_malformed _)

/-!
## Loops
-/

/-- How the loop over marks runs, as often as it has to. It ends with the data and in front of a
byte that is no mark, and goes on behind a mark. -/
inductive MarksRun : Cursor → EStateM.Result Error Cursor Unit → Prop where
  | finished {cursor : Cursor} (h : cursor.hasMore = false) : MarksRun cursor (.ok () cursor)
  | unmarked {cursor : Cursor} {first : UInt8} (h : peek.run cursor = .ok first cursor)
      (hfirst : ¬ IsMark first) : MarksRun cursor (.ok () cursor)
  | pinned {cursor : Cursor} {first : UInt8} {result : EStateM.Result Error Cursor Unit}
      (h : peek.run cursor = .ok first cursor) (hfirst : first = 0x45)
      (hrest : MarksRun (cursor.moved 1) result) : MarksRun cursor result
  | modifier {cursor next : Cursor} {kind : UInt8} {token : Token}
      {result : EStateM.Result Error Cursor Unit} (h : peek.run cursor = .ok kind cursor)
      (hkind : kind = 0x1F ∨ kind = 0x20)
      (htoken : CompressedNumber.decodeToken.run (cursor.moved 1) = .ok token next)
      (hrest : MarksRun next result) : MarksRun cursor result
  | damaged {cursor place : Cursor} {kind : UInt8} {error : Error}
      (h : peek.run cursor = .ok kind cursor) (hkind : kind = 0x1F ∨ kind = 0x20)
      (htoken : CompressedNumber.decodeToken.run (cursor.moved 1) = .error error place) :
      MarksRun cursor (.error error place)

theorem marksRun_skipModifiersBounded {fuel : Nat} {cursor : Cursor} (hinside : cursor.Inside)
    (hfuel : cursor.remaining ≤ fuel) :
    MarksRun cursor ((skipModifiersBounded fuel).run cursor) := by
  induction fuel generalizing cursor with
  | zero =>
      refine .finished ?_
      unfold Cursor.remaining at hfuel
      unfold Cursor.hasMore
      exact decide_eq_false (by omega)
  | succ fuel ih =>
      obtain ⟨before, after, rfl⟩ := hinside.exists_between
      cases after with
      | nil =>
          have hstop : (skipModifiersBounded (fuel + 1)).run (.between before []) =
              .ok () (.between before []) := by
            rw [skipModifiersBounded, run_bind (run_remaining ..)]
            rfl
          rw [hstop]
          exact .finished (by simp [Cursor.hasMore, Cursor.between])
      | cons first rest =>
          have hpeek := run_peek before rest first
          have hnext : ((Cursor.between before (first :: rest)).moved 1).Inside := by
            simp [Cursor.Inside, Cursor.between]
          have hleft := hnext.remaining_moved
          have hmove := (run_advance_eq 1 (.between before (first :: rest))).trans (if_pos hnext)
          rw [run_skipModifiersBounded_succ]
          by_cases hkind : first = 0x1F ∨ first = 0x20
          · rw [if_pos hkind, run_bind hmove]
            cases htoken : CompressedNumber.decodeToken.run
                ((Cursor.between before (first :: rest)).moved 1) with
            | ok token place =>
                rw [run_bind htoken]
                rcases CompressedNumber.spends_decodeToken.of_ok hnext htoken with
                  ⟨spent, rfl, hplace, _⟩
                have hspent := hplace.remaining_moved
                exact .modifier hpeek hkind htoken (ih hplace (by omega))
            | error error place =>
                rw [run_bind_error htoken]
                exact .damaged hpeek hkind htoken
          · rw [if_neg hkind]
            by_cases hpinned : first = 0x45
            · rw [if_pos hpinned, run_bind hmove]
              exact .pinned hpeek hpinned (ih hnext (by omega))
            · rw [if_neg hpinned]
              refine .unmarked hpeek ?_
              unfold IsMark
              tauto

/-- What bounds the number of marks never ends the loop. -/
theorem marksRun_skipModifiers {cursor : Cursor} (hinside : cursor.Inside) :
    MarksRun cursor (skipModifiers.run cursor) :=
  marksRun_skipModifiersBounded hinside (Nat.le_refl cursor.remaining)

end Signature
end AssemblyBrowser
