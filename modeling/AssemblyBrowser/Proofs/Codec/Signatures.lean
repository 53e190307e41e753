import AssemblyBrowser.Metadata.Signature
import AssemblyBrowser.Proofs.Codec.Numbers
import AssemblyBrowser.Proofs.TypeTrees

/-!
# Signatures are read back

A signature may be written in many ways: marks may stand in front of every type,
an array may tell its sizes, and a parameter may be set apart. Whichever way is
chosen, and whatever follows, the signature is read back if its types nest at
most 64 deep. The proof is an induction on the depth that the reader has left.
-/

namespace AssemblyBrowser

open CompressedNumber (encode encodeSigned encodeToken)

/-!
## How signatures are written
-/

/-- A type token, written with the tag of its table. -/
inductive TokenForm (token : Token) : List UInt8 → Prop where
  | definition (h : token.table = 0x02) : TokenForm token (encodeToken 0 token.row)
  | reference (h : token.table = 0x01) : TokenForm token (encodeToken 1 token.row)
  | specification (h : token.table = 0x1B) : TokenForm token (encodeToken 2 token.row)

/-- Required and optional modifiers, and pinning marks, in any order. -/
inductive Marks : List UInt8 → Prop where
  | nil : Marks []
  | modifier {kind : UInt8} {token : Token} {bytes rest : List UInt8}
      (hkind : kind = 0x1F ∨ kind = 0x20) (htoken : TokenForm token bytes)
      (hrest : Marks rest) : Marks (kind :: (bytes ++ rest))
  | pinned {rest : List UInt8} (hrest : Marks rest) : Marks (0x45 :: rest)

/-- The bytes of a type behind any number of marks. -/
inductive Marked (form : TypeSignature → List UInt8 → Prop) :
    TypeSignature → List UInt8 → Prop where
  | mk {marks bytes : List UInt8} {type : TypeSignature} (hmarks : Marks marks)
      (htype : form type bytes) : Marked form type (marks ++ bytes)

/-- A parameter of a method, which a sentinel may set apart from those before it. -/
inductive ParameterForm (form : TypeSignature → List UInt8 → Prop) :
    TypeSignature → List UInt8 → Prop where
  | plain {bytes : List UInt8} {type : TypeSignature} (htype : form type bytes) :
      ParameterForm form type bytes
  | sentinel {marks bytes : List UInt8} {type : TypeSignature} (hmarks : Marks marks)
      (htype : form type bytes) : ParameterForm form type (marks ++ 0x41 :: bytes)

/-- The first byte of a method signature: how it is called, and three flags. -/
def methodHead (kind : Fin 16) (generic : Bool) (convention : CallingConvention) : UInt8 :=
  UInt8.ofNat (kind + 0x10 * generic.toNat + 0x20 * convention.hasThis.toNat
    + 0x40 * convention.explicitThis.toNat)

/-- The bytes of a method signature. Only a generic one has room for its number of parameters. -/
inductive MethodForm (form : TypeSignature → List UInt8 → Prop) :
    MethodSignature → List UInt8 → Prop where
  | mk {kind : Fin 16} {generic : Bool} {signature : MethodSignature} {result : List UInt8}
      {parameters : List (List UInt8)}
      (hkind : signature.convention.vararg = true ↔ kind = 5)
      (hgeneric : generic = false → signature.genericCount = 0)
      (hgenericCount : signature.genericCount < 0x20000000)
      (hcount : signature.parameters.length < 0x20000000)
      (hresult : form signature.result result)
      (hparameters : List.Forall₂ (ParameterForm form) signature.parameters parameters) :
      MethodForm form signature (methodHead kind generic signature.convention ::
        ((if generic then encode signature.genericCount else []) ++
          (encode signature.parameters.length ++ (result ++ parameters.flatten))))

/-- The byte that stands for a type without a name. -/
def Primitive.element : Primitive → UInt8
  | void => 0x01
  | boolean => 0x02
  | char => 0x03
  | int8 => 0x04
  | uint8 => 0x05
  | int16 => 0x06
  | uint16 => 0x07
  | int32 => 0x08
  | uint32 => 0x09
  | int64 => 0x0A
  | uint64 => 0x0B
  | single => 0x0C
  | double => 0x0D
  | string => 0x0E
  | typedReference => 0x16
  | intPtr => 0x18
  | uintPtr => 0x19
  | object => 0x1C

/-- The bytes of a type without the marks in front of it. -/
inductive BareForm : TypeSignature → List UInt8 → Prop where
  | primitive (type : Primitive) : BareForm (.primitive type) [type.element]
  | pointer {target : TypeSignature} {bytes : List UInt8} (h : Marked BareForm target bytes) :
      BareForm (.pointer target) (0x0F :: bytes)
  | reference {target : TypeSignature} {bytes : List UInt8} (h : Marked BareForm target bytes) :
      BareForm (.reference target) (0x10 :: bytes)
  | valueType {token : Token} {bytes : List UInt8} (h : TokenForm token bytes) :
      BareForm (.valueType token) (0x11 :: bytes)
  | classType {token : Token} {bytes : List UInt8} (h : TokenForm token bytes) :
      BareForm (.classType token) (0x12 :: bytes)
  | typeParameter {number : Nat} (h : number < 0x20000000) :
      BareForm (.typeParameter number) (0x13 :: encode number)
  | array {element : TypeSignature} {bytes : List UInt8} {rank : Nat} {sizes : List Nat}
      {lows : List Int} (h : Marked BareForm element bytes) (hrank : rank < 0x20000000)
      (hsizeCount : sizes.length < 0x20000000) (hsizes : ∀ size ∈ sizes, size < 0x20000000)
      (hlowCount : lows.length < 0x20000000)
      (hlows : ∀ low ∈ lows, -0x10000000 ≤ low ∧ low < 0x10000000) :
      BareForm (.array element rank) (0x14 :: (bytes ++ (encode rank ++
        (encode sizes.length ++ ((sizes.map encode).flatten ++
          (encode lows.length ++ (lows.map encodeSigned).flatten))))))
  | generic {base : TypeSignature} {arguments : List TypeSignature} {bytes : List UInt8}
      {parts : List (List UInt8)} (hbase : Marked BareForm base bytes)
      (hcount : arguments.length < 0x20000000)
      (harguments : List.Forall₂ (Marked BareForm) arguments parts) :
      BareForm (.generic base arguments)
        (0x15 :: (bytes ++ (encode arguments.length ++ parts.flatten)))
  | functionPointer {convention : CallingConvention} {genericCount : Nat}
      {result : TypeSignature} {parameters : List TypeSignature} {bytes : List UInt8}
      (h : MethodForm (Marked BareForm) ⟨convention, genericCount, result, parameters⟩ bytes) :
      BareForm (.functionPointer convention genericCount result parameters) (0x1B :: bytes)
  | vector {element : TypeSignature} {bytes : List UInt8} (h : Marked BareForm element bytes) :
      BareForm (.vector element) (0x1D :: bytes)
  | methodParameter {number : Nat} (h : number < 0x20000000) :
      BareForm (.methodParameter number) (0x1E :: encode number)

/-- The bytes of a type. -/
abbrev TypeForm : TypeSignature → List UInt8 → Prop := Marked BareForm

/-- The bytes of the signature of a field. -/
inductive FieldForm (type : TypeSignature) : List UInt8 → Prop where
  | mk {bytes : List UInt8} (h : TypeForm type bytes) : FieldForm type (0x06 :: bytes)

/-- The first byte of the signature of a property. -/
def propertyHead (hasThis : Bool) : UInt8 :=
  if hasThis then 0x28 else 0x08

/-- The bytes of the signature of a property. -/
inductive PropertyForm (signature : PropertySignature) : List UInt8 → Prop where
  | mk {bytes : List UInt8} {parameters : List (List UInt8)}
      (hcount : signature.parameters.length < 0x20000000)
      (htype : TypeForm signature.type bytes)
      (hparameters : List.Forall₂ TypeForm signature.parameters parameters) :
      PropertyForm signature (propertyHead signature.hasThis ::
        (encode signature.parameters.length ++ (bytes ++ parameters.flatten)))

/-!
## How deep types nest
-/

mutual

def TypeSignature.depth : TypeSignature → Nat
  | .primitive _ | .classType _ | .valueType _ | .typeParameter _ | .methodParameter _ => 1
  | .vector element | .array element _ => element.depth + 1
  | .pointer target | .reference target => target.depth + 1
  | .generic base arguments => max base.depth (TypeSignature.listDepth arguments) + 1
  | .functionPointer _ _ result parameters =>
      max result.depth (TypeSignature.listDepth parameters) + 1

/-- The depth of the deepest type of a list. -/
def TypeSignature.listDepth : List TypeSignature → Nat
  | [] => 0
  | type :: types => max type.depth (TypeSignature.listDepth types)

end

theorem TypeSignature.depth_pos (type : TypeSignature) : 0 < type.depth := by
  cases type <;> simp [depth]

theorem TypeSignature.depth_le_listDepth {type : TypeSignature} {types : List TypeSignature}
    (h : type ∈ types) : type.depth ≤ listDepth types := by
  induction types with
  | nil => cases h
  | cons first rest ih =>
      rw [listDepth]
      rcases List.mem_cons.mp h with rfl | hrest
      · exact Nat.le_max_left ..
      · exact Nat.le_trans (ih hrest) (Nat.le_max_right ..)

theorem TypeSignature.listDepth_le {types : List TypeSignature} {bound : Nat}
    (h : ∀ type ∈ types, type.depth ≤ bound) : listDepth types ≤ bound := by
  induction types with
  | nil => exact Nat.zero_le bound
  | cons first rest ih =>
      have hall := List.forall_mem_cons.mp h
      exact Nat.max_le.mpr ⟨hall.1, ih hall.2⟩

def PropertySignature.depth (signature : PropertySignature) : Nat :=
  max signature.type.depth (TypeSignature.listDepth signature.parameters)

def MethodSignature.depth (signature : MethodSignature) : Nat :=
  max signature.result.depth (TypeSignature.listDepth signature.parameters)

/-!
## What can be written

Tokens have to be those of types, and numbers and counts have to be below 2^29.
Everything else has a form.
-/

mutual

/-- The type can be written. -/
def TypeSignature.Fits : TypeSignature → Prop
  | .primitive _ => True
  | .classType token | .valueType token => token.table ∈ [0x01, 0x02, 0x1B]
  | .typeParameter number | .methodParameter number => number < 0x20000000
  | .vector element => element.Fits
  | .array element rank => element.Fits ∧ rank < 0x20000000
  | .pointer target | .reference target => target.Fits
  | .generic base arguments =>
      base.Fits ∧ arguments.length < 0x20000000 ∧ TypeSignature.ListFits arguments
  | .functionPointer _ genericCount result parameters =>
      genericCount < 0x20000000 ∧ parameters.length < 0x20000000 ∧ result.Fits ∧
        TypeSignature.ListFits parameters

/-- Every type of a list can be written. -/
def TypeSignature.ListFits : List TypeSignature → Prop
  | [] => True
  | type :: types => type.Fits ∧ TypeSignature.ListFits types

end

def PropertySignature.Fits (signature : PropertySignature) : Prop :=
  signature.parameters.length < 0x20000000 ∧ signature.type.Fits ∧
    TypeSignature.ListFits signature.parameters

def MethodSignature.Fits (signature : MethodSignature) : Prop :=
  signature.genericCount < 0x20000000 ∧ signature.parameters.length < 0x20000000 ∧
    signature.result.Fits ∧ TypeSignature.ListFits signature.parameters

theorem exists_tokenForm {token : Token} (h : token.table ∈ [0x01, 0x02, 0x1B]) :
    ∃ bytes, TokenForm token bytes := by
  simp only [List.mem_cons, List.not_mem_nil, or_false] at h
  rcases h with h | h | h
  · exact ⟨_, .reference h⟩
  · exact ⟨_, .definition h⟩
  · exact ⟨_, .specification h⟩

/-- A method whose types have forms has a form. -/
theorem exists_methodForm_of_types {signature : MethodSignature} {result : List UInt8}
    {parameters : List (List UInt8)} (hgenericCount : signature.genericCount < 0x20000000)
    (hcount : signature.parameters.length < 0x20000000) (hresult : TypeForm signature.result result)
    (hparameters : List.Forall₂ TypeForm signature.parameters parameters) :
    ∃ bytes, MethodForm TypeForm signature bytes := by
  let kind : Fin 16 := if signature.convention.vararg then 5 else 0
  refine ⟨_, @MethodForm.mk _ kind true _ _ _ ?_ (fun h => nomatch h) hgenericCount hcount hresult
    (hparameters.imp fun _ _ h => .plain h)⟩
  simp only [kind]
  cases signature.convention.vararg <;> decide

mutual

theorem TypeSignature.exists_bareForm :
    ∀ type : TypeSignature, type.Fits → ∃ bytes, BareForm type bytes
  | .primitive type, _ => ⟨_, .primitive type⟩
  | .classType _, h => (exists_tokenForm h).imp' _ fun _ => .classType
  | .valueType _, h => (exists_tokenForm h).imp' _ fun _ => .valueType
  | .typeParameter _, h => ⟨_, .typeParameter h⟩
  | .methodParameter _, h => ⟨_, .methodParameter h⟩
  | .vector element, h => (exists_bareForm element h).imp' _ fun _ h => .vector (.mk .nil h)
  | .pointer target, h => (exists_bareForm target h).imp' _ fun _ h => .pointer (.mk .nil h)
  | .reference target, h => (exists_bareForm target h).imp' _ fun _ h => .reference (.mk .nil h)
  | .array element _, h => by
      obtain ⟨bytes, helement⟩ := exists_bareForm element h.1
      exact ⟨_, @BareForm.array _ _ _ [] [] (.mk .nil helement) h.2 (by decide)
        (fun _ h => nomatch h) (by decide) (fun _ h => nomatch h)⟩
  | .generic base arguments, h => by
      obtain ⟨bytes, hbase⟩ := exists_bareForm base h.1
      obtain ⟨parts, harguments⟩ := exists_typeForms arguments h.2.2
      exact ⟨_, .generic (.mk .nil hbase) h.2.1 harguments⟩
  | .functionPointer convention genericCount result parameters, h => by
      let signature : MethodSignature := ⟨convention, genericCount, result, parameters⟩
      obtain ⟨bytes, hresult⟩ := exists_bareForm result h.2.2.1
      obtain ⟨parts, hparameters⟩ := exists_typeForms parameters h.2.2.2
      have hmethod : ∃ bytes, MethodForm TypeForm signature bytes :=
        exists_methodForm_of_types h.1 h.2.1 (.mk .nil hresult) hparameters
      exact hmethod.imp' _ fun _ => .functionPointer

theorem TypeSignature.exists_typeForms :
    ∀ types : List TypeSignature, TypeSignature.ListFits types →
      ∃ parts, List.Forall₂ TypeForm types parts
  | [], _ => ⟨[], .nil⟩
  | type :: types, h => by
      obtain ⟨bytes, htype⟩ := exists_bareForm type h.1
      obtain ⟨parts, htypes⟩ := exists_typeForms types h.2
      exact ⟨_ :: parts, .cons (.mk .nil htype) htypes⟩

end

/-!
## Marks and tokens
-/

namespace Signature

open Decoder

theorem reads_token {token : Token} {bytes : List UInt8} (h : TokenForm token bytes) :
    Reads CompressedNumber.decodeToken bytes token := by
  have hrow : token.row < 0x1000000 := Nat.mod_lt _ (by decide)
  have hread {tag table : Nat} (htable : token.table = table)
      (htag : CompressedNumber.tokenTable? tag = some table) :
      Reads CompressedNumber.decodeToken (encodeToken tag token.row) token := by
    have := CompressedNumber.reads_encodeToken htag hrow
    rwa [← htable, Token.ofParts_table_row] at this
  cases h with
  | definition h => exact hread h rfl
  | reference h => exact hread h rfl
  | specification h => exact hread h rfl

/-- The bytes that are skipped in front of a type. -/
def IsMark (byte : UInt8) : Prop := byte = 0x1F ∨ byte = 0x20 ∨ byte = 0x45

/-- A step of the loop over marks, in front of a byte. -/
theorem run_skipModifiersBounded_succ (fuel : Nat) (before rest : List UInt8) (first : UInt8) :
    (skipModifiersBounded (fuel + 1)).run (.between before (first :: rest)) =
      (if first = 0x1F ∨ first = 0x20 then do
        advance 1
        let _modifier ← CompressedNumber.decodeToken
        skipModifiersBounded fuel
      else if first = 0x45 then do
        advance 1
        skipModifiersBounded fuel
      else pure ()).run (.between before (first :: rest)) := by
  have hcode (code : UInt8) : first.toNat = code.toNat ↔ first = code := UInt8.toNat_inj
  rw [skipModifiersBounded, run_bind (run_remaining ..), if_neg (by simp),
    run_bind (run_peek ..)]
  simp only [← hcode]
  rfl

/-- The loop stops behind the marks. -/
theorem run_skipModifiersBounded {marks : List UInt8} (hmarks : Marks marks) {first : UInt8}
    (hfirst : ¬ IsMark first) (rest : List UInt8) :
    ∀ {fuel : Nat} (before : List UInt8), marks.length ≤ fuel →
      (skipModifiersBounded fuel).run (.between before (marks ++ first :: rest)) =
        .ok () (.between (before ++ marks) (first :: rest)) := by
  induction hmarks with
  | nil =>
      intro fuel before _
      rw [List.append_nil, List.nil_append]
      cases fuel with
      | zero => rfl
      | succ fuel =>
          unfold IsMark at hfirst
          rw [run_skipModifiersBounded_succ, if_neg (by tauto), if_neg (by tauto)]
          rfl
  | @modifier kind token bytes marks hkind htoken _ ih =>
      intro fuel before hfuel
      cases fuel with
      | zero => simp at hfuel
      | succ fuel =>
          have hfuel : marks.length ≤ fuel := by
            simp only [List.length_cons, List.length_append] at hfuel
            omega
          rw [List.cons_append, List.append_assoc, run_skipModifiersBounded_succ, if_pos hkind,
            run_bind (run_advance_one ..), run_bind (reads_token htoken _ _),
            ih _ hfuel]
          simp
  | @pinned marks _ ih =>
      intro fuel before hfuel
      cases fuel with
      | zero => simp at hfuel
      | succ fuel =>
          have hfuel : marks.length ≤ fuel := Nat.le_of_succ_le_succ hfuel
          rw [List.cons_append, run_skipModifiersBounded_succ, if_neg (by decide), if_pos rfl,
            run_bind (run_advance_one ..), ih _ hfuel]
          simp

theorem run_skipModifiers {marks : List UInt8} (hmarks : Marks marks) {first : UInt8}
    (hfirst : ¬ IsMark first) (before rest : List UInt8) :
    skipModifiers.run (.between before (marks ++ first :: rest)) =
      .ok () (.between (before ++ marks) (first :: rest)) := by
  have hfuel : marks.length ≤ (marks ++ first :: rest).length := by simp
  unfold skipModifiers
  rw [run_bind (run_remaining ..), run_skipModifiersBounded hmarks hfirst rest before hfuel]

/-- What is read in front of a byte is also read behind marks. -/
theorem reads_behind_marks {α : Type} {next : Decoder α} {marks rest : List UInt8} {first : UInt8}
    {value : α} (hmarks : Marks marks) (hfirst : ¬ IsMark first)
    (hnext : Reads next (first :: rest) value) :
    Reads (do skipModifiers; next) (marks ++ first :: rest) value := by
  intro before after
  have hrun := hnext (before ++ marks) after
  rw [List.append_assoc, List.cons_append,
    run_bind (run_skipModifiers hmarks hfirst before (rest ++ after))]
  rw [List.cons_append] at hrun
  rw [hrun, List.append_assoc]

/-!
## Parts of signatures
-/

/-- Numbers behind their count are read one by one. -/
theorem reads_countedNumbers {values : List Nat} {parts : List (List UInt8)}
    (hcount : values.length < 0x20000000)
    (h : List.Forall₂ (fun n bytes => Reads CompressedNumber.decode bytes n) values parts) :
    Reads countedNumbers (encode values.length ++ parts.flatten) values :=
  reads_bind (CompressedNumber.reads_encode hcount) (reads_repeated h fun _ _ _ hread => hread)

/-- The first byte of a type tells it from marks and sentinels. -/
theorem BareForm.head {type : TypeSignature} {bytes : List UInt8} (h : BareForm type bytes) :
    ∃ first rest, bytes = first :: rest ∧ ¬ IsMark first ∧ first ≠ 0x41 := by
  have hhead {first : UInt8} (hfirst : first ≤ 0x1E) (rest : List UInt8) :
      ∃ first' rest', first :: rest = first' :: rest' ∧ ¬ IsMark first' ∧ first' ≠ 0x41 := by
    refine ⟨first, rest, rfl, ?_, ?_⟩
    · rintro (rfl | rfl | rfl) <;> exact absurd hfirst (by decide)
    · rintro rfl
      exact absurd hfirst (by decide)
  cases h with
  | primitive type => exact hhead (by cases type <;> decide) _
  | _ => exact hhead (by decide) _

section Parts

variable {reader : Decoder TypeSignature}

/-- What a reader makes of every form of a type. -/
def ReadsForms (reader : Decoder TypeSignature) (type : TypeSignature) : Prop :=
  ∀ bytes, TypeForm type bytes → Reads reader bytes type

theorem reads_parameter {type : TypeSignature} {bytes : List UInt8}
    (hreader : ReadsForms reader type) (h : ParameterForm TypeForm type bytes) :
    Reads (parameter reader) bytes type := by
  unfold parameter
  cases h with
  | plain htype =>
      obtain ⟨hmarks, hbare⟩ := htype
      obtain ⟨first, rest, rfl, hmark, hsentinel⟩ := BareForm.head hbare
      refine reads_behind_marks hmarks hmark ?_
      intro before after
      rw [List.cons_append, run_bind (run_peek ..), if_neg hsentinel]
      exact hreader _ (.mk .nil hbare) before after
  | sentinel hmarks htype =>
      refine reads_behind_marks hmarks (by unfold IsMark; decide) ?_
      intro before after
      rw [List.cons_append, run_bind (run_peek ..), if_pos rfl, run_bind (run_advance_one ..),
        hreader _ htype, List.append_assoc]
      rfl

theorem methodHead_flags (kind : Fin 16) (generic : Bool) (convention : CallingConvention)
    (hkind : convention.vararg = true ↔ kind = 5) :
    let head := (methodHead kind generic convention).toNat
    head.testBit 4 = generic ∧
      ({ hasThis := head.testBit 5, explicitThis := head.testBit 6, vararg := head % 16 == 5 } :
        CallingConvention) = convention := by
  obtain ⟨hasThis, explicitThis, vararg⟩ := convention
  have hvararg : vararg = decide (kind = 5) := by
    rw [Bool.eq_iff_iff, decide_eq_true_iff]
    exact hkind
  subst hvararg
  clear hkind
  revert kind generic hasThis explicitThis
  decide

theorem reads_methodOf {signature : MethodSignature} {bytes : List UInt8}
    (hresult : ReadsForms reader signature.result)
    (hparameters : ∀ type ∈ signature.parameters, ReadsForms reader type)
    (h : MethodForm TypeForm signature bytes) : Reads (methodOf reader) bytes signature := by
  cases h with
  | @mk kind generic _ result parameters hkind hgeneric hgenericCount hcount hform hforms =>
  obtain ⟨hflag, hconvention⟩ := methodHead_flags kind generic signature.convention hkind
  unfold methodOf
  refine reads_byte_bind ?_
  rw [hflag, hconvention]
  have hrest : Reads (do
      let count ← CompressedNumber.decode
      let result ← reader
      let parameters ← repeated (parameter reader) count
      return { convention := signature.convention, genericCount := signature.genericCount,
               result, parameters })
      (encode signature.parameters.length ++ (result ++ parameters.flatten)) signature := by
    refine reads_bind (CompressedNumber.reads_encode hcount) (reads_bind (hresult _ hform) ?_)
    exact reads_map (fun parameters => { signature with parameters })
      (reads_repeated hforms fun type hmem _ htype => reads_parameter (hparameters type hmem) htype)
  cases generic with
  | true => exact reads_bind (CompressedNumber.reads_encode hgenericCount) hrest
  | false =>
      rw [hgeneric rfl] at hrest
      exact reads_bind (reads_pure 0) hrest

theorem reads_array {element : TypeSignature} {bytes : List UInt8} {rank : Nat}
    {sizes : List Nat} {lows : List Int} (hreader : ReadsForms reader element)
    (h : TypeForm element bytes) (hrank : rank < 0x20000000)
    (hsizeCount : sizes.length < 0x20000000) (hsizes : ∀ size ∈ sizes, size < 0x20000000)
    (hlowCount : lows.length < 0x20000000) :
    Reads (do
      let inner ← reader
      let rank ← CompressedNumber.decode
      let _sizes ← countedNumbers
      let _lowerBounds ← countedNumbers
      return TypeSignature.array inner rank)
      (bytes ++ (encode rank ++ (encode sizes.length ++ ((sizes.map encode).flatten ++
        (encode lows.length ++ (lows.map encodeSigned).flatten)))))
      (.array element rank) := by
  have hsizesRead : Reads countedNumbers (encode sizes.length ++ (sizes.map encode).flatten)
      sizes := by
    refine reads_countedNumbers hsizeCount (List.forall₂_map_right_iff.mpr ?_)
    exact List.forall₂_same.mpr fun size hmem => CompressedNumber.reads_encode (hsizes size hmem)
  -- A lower bound is passed over as the number that it is rotated to.
  let rotated (low : Int) := CompressedNumber.rotated (CompressedNumber.signedForm low).bits low
  have hlowsRead : Reads countedNumbers
      (encode lows.length ++ (lows.map encodeSigned).flatten) (lows.map rotated) := by
    rw [← List.length_map rotated]
    refine reads_countedNumbers (by rwa [List.length_map]) ?_
    rw [List.forall₂_map_left_iff, List.forall₂_map_right_iff]
    exact List.forall₂_same.mpr fun low _ => CompressedNumber.reads_encodeSigned low
  refine reads_bind (hreader _ h) (reads_bind (CompressedNumber.reads_encode hrank) ?_)
  rw [← List.append_assoc (encode sizes.length)]
  exact reads_bind hsizesRead (reads_map (fun _ => TypeSignature.array element rank) hlowsRead)

theorem reads_generic {base : TypeSignature} {arguments : List TypeSignature}
    {bytes : List UInt8} {parts : List (List UInt8)} (hbaseReader : ReadsForms reader base)
    (hreader : ∀ type ∈ arguments, ReadsForms reader type) (hbase : TypeForm base bytes)
    (hcount : arguments.length < 0x20000000) (harguments : List.Forall₂ TypeForm arguments parts) :
    Reads (do
      let base ← reader
      let count ← CompressedNumber.decode
      return TypeSignature.generic base (← repeated reader count))
      (bytes ++ (encode arguments.length ++ parts.flatten)) (.generic base arguments) := by
  refine reads_bind (hbaseReader _ hbase) (reads_bind (CompressedNumber.reads_encode hcount) ?_)
  exact reads_map (TypeSignature.generic base) (reads_repeated harguments hreader)

end Parts

/-!
## Types
-/

theorem type_reads_forms (depth : Nat) :
    ∀ {type : TypeSignature}, type.depth ≤ depth → ReadsForms (Signature.type depth) type := by
  induction depth with
  | zero =>
      intro type hdepth
      exact absurd type.depth_pos (Nat.not_lt.mpr hdepth)
  | succ depth ih =>
      rintro type hdepth _ ⟨hmarks, hbare⟩
      obtain ⟨first, rest, rfl, hmark, -⟩ := BareForm.head hbare
      refine reads_behind_marks hmarks hmark (reads_byte_bind ?_)
      have hlist {types : List TypeSignature} (hle : TypeSignature.listDepth types ≤ depth) :
          ∀ type ∈ types, ReadsForms (Signature.type depth) type := fun type hmem =>
        ih (Nat.le_trans (TypeSignature.depth_le_listDepth hmem) hle)
      cases hbare with
      | primitive type => cases type <;> exact reads_pure _
      | pointer h => exact reads_map TypeSignature.pointer (ih (Nat.le_of_succ_le_succ hdepth) _ h)
      | reference h =>
          exact reads_map TypeSignature.reference (ih (Nat.le_of_succ_le_succ hdepth) _ h)
      | valueType h => exact reads_map TypeSignature.valueType (reads_token h)
      | classType h => exact reads_map TypeSignature.classType (reads_token h)
      | typeParameter h =>
          exact reads_map TypeSignature.typeParameter (CompressedNumber.reads_encode h)
      | array h hrank hsizeCount hsizes hlowCount hlows =>
          exact reads_array (ih (Nat.le_of_succ_le_succ hdepth)) h hrank hsizeCount hsizes hlowCount
      | @generic base arguments bytes parts hbase hcount harguments =>
          have hle : max base.depth (TypeSignature.listDepth arguments) ≤ depth :=
            Nat.le_of_succ_le_succ hdepth
          exact reads_generic (ih (Nat.le_trans (Nat.le_max_left ..) hle))
            (hlist (Nat.le_trans (Nat.le_max_right ..) hle)) hbase hcount harguments
      | functionPointer h =>
          have hle := Nat.le_of_succ_le_succ hdepth
          exact reads_map (fun method => TypeSignature.functionPointer method.convention
            method.genericCount method.result method.parameters)
            (reads_methodOf (ih (Nat.le_trans (Nat.le_max_left ..) hle))
              (hlist (Nat.le_trans (Nat.le_max_right ..) hle)) h)
      | vector h => exact reads_map TypeSignature.vector (ih (Nat.le_of_succ_le_succ hdepth) _ h)
      | methodParameter h =>
          exact reads_map TypeSignature.methodParameter (CompressedNumber.reads_encode h)

/-!
## Types that nest too deep
-/

/-- A number behind so many pointers. -/
def pointers (depth : Nat) : TypeSignature := TypeSignature.pointer^[depth] (.primitive .int32)

def pointerBytes (depth : Nat) : List UInt8 := List.replicate depth 0x0F ++ [0x08]

theorem typeForm_pointers (depth : Nat) : TypeForm (pointers depth) (pointerBytes depth) := by
  induction depth with
  | zero => exact .mk .nil (.primitive .int32)
  | succ depth ih =>
      have hpointers : pointers (depth + 1) = .pointer (pointers depth) :=
        Function.iterate_succ_apply' ..
      rw [hpointers]
      exact @Marked.mk _ [] _ _ .nil (.pointer ih)

/-- Every pointer takes a step of those that the reader may take; behind the last of them it
gives up. -/
theorem run_type_pointerBytes (depth : Nat) : ∀ before : List UInt8, ∃ cursor,
    (Signature.type depth).run (.between before (pointerBytes depth)) =
      .error (.recursionLimit maxDepth) cursor := by
  induction depth with
  | zero => exact fun before => ⟨_, rfl⟩
  | succ depth ih =>
      intro before
      obtain ⟨cursor, hrun⟩ := ih (before ++ [0x0F])
      refine ⟨cursor, ?_⟩
      have hmark : ¬ IsMark 0x0F := by
        unfold IsMark
        decide
      have hmarks := run_skipModifiers .nil hmark before (pointerBytes depth)
      have hbyte := reads_byte 0x0F before (pointerBytes depth)
      rw [List.nil_append, List.append_nil] at hmarks
      rw [pointerBytes, List.replicate_succ, List.cons_append, ← pointerBytes, Signature.type,
        run_bind hmarks]
      exact (run_bind hbyte).trans (run_bind_error hrun)

/-!
## Whole signatures
-/

/-- Some form exists, and every form is read back whatever follows it. -/
def ReadsBack {α : Type} (decoder : Decoder α) (form : α → List UInt8 → Prop) (value : α) : Prop :=
  (∃ bytes, form value bytes) ∧
    ∀ bytes after, form value bytes → decoder.parse (bytes ++ after).toArray = .ok value

theorem reads_field {type : TypeSignature} {bytes : List UInt8} (hdepth : type.depth ≤ maxDepth)
    (h : FieldForm type bytes) : Reads field bytes type := by
  cases h with
  | mk htype =>
      refine reads_byte_bind ?_
      exact type_reads_forms maxDepth hdepth _ htype

/-- A field is refused whose type is behind more pointers than are read. -/
theorem parse_field_pointers :
    FieldForm (pointers maxDepth) (0x06 :: pointerBytes maxDepth) ∧
      field.parse (0x06 :: pointerBytes maxDepth).toArray = .error (.recursionLimit maxDepth) := by
  refine ⟨.mk (typeForm_pointers maxDepth), parse_of_run_error ?_⟩
  obtain ⟨cursor, hrun⟩ := run_type_pointerBytes maxDepth [0x06]
  generalize pointerBytes maxDepth = bytes at hrun ⊢
  exact ⟨cursor, (run_bind (reads_byte 0x06 [] bytes)).trans hrun⟩

theorem propertyHead_flags (hasThis : Bool) :
    (propertyHead hasThis).toNat % 16 = 8 ∧ (propertyHead hasThis).toNat.testBit 5 = hasThis := by
  cases hasThis <;> decide

theorem reads_property {signature : PropertySignature} {bytes : List UInt8}
    (hdepth : signature.depth ≤ maxDepth) (h : PropertyForm signature bytes) :
    Reads property bytes signature := by
  obtain ⟨hasThis, type, types⟩ := signature
  cases h with
  | mk hcount htype hparameters =>
      obtain ⟨hkind, hflag⟩ := propertyHead_flags hasThis
      have hread := type_reads_forms maxDepth (Nat.le_trans (Nat.le_max_left ..) hdepth)
      have hlist : ∀ type ∈ types, ReadsForms (Signature.type maxDepth) type := fun type hmem =>
        type_reads_forms maxDepth (Nat.le_trans (TypeSignature.depth_le_listDepth hmem)
          (Nat.le_trans (Nat.le_max_right ..) hdepth))
      unfold property
      refine reads_byte_bind ?_
      rw [hkind, hflag, if_neg (fun hne => hne rfl)]
      refine reads_bind (CompressedNumber.reads_encode hcount) (reads_bind (hread _ htype) ?_)
      exact reads_map (PropertySignature.mk hasThis type) (reads_repeated hparameters hlist)

theorem reads_method {signature : MethodSignature} {bytes : List UInt8}
    (hdepth : signature.depth ≤ maxDepth) (h : MethodForm TypeForm signature bytes) :
    Reads method bytes signature := by
  refine reads_methodOf (type_reads_forms maxDepth (Nat.le_trans (Nat.le_max_left ..) hdepth)) ?_ h
  exact fun type hmem => type_reads_forms maxDepth
    (Nat.le_trans (TypeSignature.depth_le_listDepth hmem)
      (Nat.le_trans (Nat.le_max_right ..) hdepth))

theorem written_signatures_read_back :
    (∀ type : TypeSignature, type.Fits → type.depth ≤ 64 →
      ReadsBack typeSpec TypeForm type ∧ ReadsBack field FieldForm type) ∧
    (∀ signature : PropertySignature, signature.Fits → signature.depth ≤ 64 →
      ReadsBack property PropertyForm signature) ∧
    (∀ signature : MethodSignature, signature.Fits → signature.depth ≤ 64 →
      ReadsBack method (MethodForm TypeForm) signature) := by
  refine ⟨fun type hfits hdepth => ?_, fun signature hfits hdepth => ?_,
    fun signature hfits hdepth => ?_⟩
  · obtain ⟨bytes, hbare⟩ := type.exists_bareForm hfits
    refine ⟨⟨⟨_, .mk .nil hbare⟩, fun bytes after h => ?_⟩,
      ⟨⟨_, .mk (.mk .nil hbare)⟩, fun bytes after h => ?_⟩⟩
    · exact parse_of_reads (type_reads_forms maxDepth hdepth bytes h) after
    · exact parse_of_reads (reads_field hdepth h) after
  · obtain ⟨hcount, htype, hparameters⟩ := hfits
    obtain ⟨bytes, hbare⟩ := signature.type.exists_bareForm htype
    obtain ⟨parts, hparts⟩ := TypeSignature.exists_typeForms _ hparameters
    refine ⟨⟨_, .mk hcount (.mk .nil hbare) hparts⟩, fun bytes after h => ?_⟩
    exact parse_of_reads (reads_property hdepth h) after
  · obtain ⟨hgenericCount, hcount, hresult, hparameters⟩ := hfits
    obtain ⟨bytes, hbare⟩ := signature.result.exists_bareForm hresult
    obtain ⟨parts, hparts⟩ := TypeSignature.exists_typeForms _ hparameters
    refine ⟨exists_methodForm_of_types hgenericCount hcount (.mk .nil hbare) hparts,
      fun bytes after h => ?_⟩
    exact parse_of_reads (reads_method hdepth h) after

/-- A vector of numbers behind a modifier, and a string behind a sentinel and a pinning mark. -/
theorem marked_signatures_read_back :
    (TypeSignature.vector (.primitive .int32)).Fits ∧
      typeSpec.parse #[0x1F, 0x05, 0x1D, 0x45, 0x08, 0xFF] =
        .ok (.vector (.primitive .int32)) ∧
      property.parse #[0x28, 0x01, 0x0E, 0x08] =
        .ok ⟨true, .primitive .string, [.primitive .int32]⟩ ∧
      method.parse #[0x05, 0x01, 0x01, 0x41, 0x45, 0x0E] =
        .ok ⟨⟨false, false, true⟩, 0, .primitive .void, [.primitive .string]⟩ := by
  have hint : TypeForm (.primitive .int32) [0x08] := .mk .nil (.primitive .int32)
  have hvoid : TypeForm (.primitive .void) [0x01] := .mk .nil (.primitive .void)
  have hstring : TypeForm (.primitive .string) [0x0E] := .mk .nil (.primitive .string)
  have hpinned (h : Marks []) : Marks [0x45] := .pinned h
  have hmodifier : Marks [0x1F, 0x05] :=
    .modifier (.inl rfl) (@TokenForm.reference ⟨0x01000001⟩ rfl) .nil
  have hvector : TypeForm (.vector (.primitive .int32)) [0x1F, 0x05, 0x1D, 0x45, 0x08] :=
    .mk hmodifier (.vector (.mk (hpinned .nil) (.primitive .int32)))
  have hproperty : PropertyForm ⟨true, .primitive .string, [.primitive .int32]⟩
      [0x28, 0x01, 0x0E, 0x08] :=
    @PropertyForm.mk ⟨true, .primitive .string, [.primitive .int32]⟩ _ _ (by decide) hstring
      (.cons hint .nil)
  have hmethod : MethodForm TypeForm
      ⟨⟨false, false, true⟩, 0, .primitive .void, [.primitive .string]⟩
      [0x05, 0x01, 0x01, 0x41, 0x45, 0x0E] :=
    @MethodForm.mk _ 5 false ⟨⟨false, false, true⟩, 0, .primitive .void, [.primitive .string]⟩ _ _
      (by decide) (fun _ => rfl) (by decide) (by decide) hvoid
      (.cons (.sentinel .nil (.mk (hpinned .nil) (.primitive .string))) .nil)
  refine ⟨trivial, ?_, ?_, ?_⟩
  · exact (written_signatures_read_back.1 (.vector (.primitive .int32)) trivial
      (by decide)).1.2 _ [0xFF] hvector
  · exact (written_signatures_read_back.2.1 ⟨true, .primitive .string, [.primitive .int32]⟩
      ⟨by decide, trivial, trivial, trivial⟩ (by decide)).2 _ [] hproperty
  · exact (written_signatures_read_back.2.2
      ⟨⟨false, false, true⟩, 0, .primitive .void, [.primitive .string]⟩
      ⟨by decide, by decide, trivial, trivial, trivial⟩ (by decide)).2 _ [] hmethod

end Signature
end AssemblyBrowser
