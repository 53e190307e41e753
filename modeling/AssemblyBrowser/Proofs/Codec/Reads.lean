import Mathlib.Data.List.Forall2
import AssemblyBrowser.Bytes.CompressedNumber

/-!
# What decoders read

A decoder reads a byte string as a value if it gives that value and stops right
behind the string, wherever the string stands and whatever follows it. What is
made of decoders reads what their byte strings make together, and keeps the
invariants of the cursor that they keep.
-/

namespace AssemblyBrowser

/-- The cursor between two byte strings. -/
def Cursor.between (before after : List UInt8) : Cursor :=
  { data := (before ++ after).toArray, pos := before.length }

namespace Cursor

theorem between_append (before middle after : List UInt8) :
    between before (middle ++ after) =
      { data := (before ++ middle ++ after).toArray, pos := before.length } := by
  rw [between, List.append_assoc]

theorem remaining_between (before after : List UInt8) :
    (between before after).remaining = after.length := by
  simp [between, remaining]

end Cursor

namespace Bytes

/-- A byte string is cut out of what it stands in. -/
theorem extract_middle (before middle after : List UInt8) :
    (before ++ middle ++ after).toArray.extract before.length (before.length + middle.length) =
      middle.toArray := by
  simp [List.extract_eq_take_drop]

end Bytes

theorem Bounded.slice_middle (before middle after : List UInt8) :
    slice (before ++ middle ++ after).toArray before.length middle.length =
      .ok middle.toArray := by
  rw [slice_eq, if_pos (by simp), Bytes.extract_middle]

theorem Bytes.slice?_middle (before middle after : List UInt8) :
    slice? (before ++ middle ++ after).toArray before.length middle.length =
      some middle.toArray := by
  rw [slice?, if_pos (by simp), extract_middle]

theorem Bytes.uintAt?_middle (before after : List UInt8) (width : Nat) {n : Nat}
    (h : n < Nat.pow 256 width) :
    uintAt? (before ++ ofLittleEndian width n ++ after).toArray before.length width = some n := by
  have hslice := slice?_middle before (ofLittleEndian width n) after
  rw [ofLittleEndian_length] at hslice
  rw [uintAt?, hslice]
  exact congrArg some (littleEndian_ofLittleEndian width n h)

theorem Bounded.range_middle (before middle after : List UInt8) :
    range (before ++ middle ++ after).toArray before.length (before.length + middle.length) =
      .ok middle.toArray := by
  rw [range_eq_ok (Nat.le_add_right _ _) (by simp), Bytes.extract_middle]

/-- The rest of the data from a place on. -/
theorem Bounded.range_rest (before rest : List UInt8) :
    range (before ++ rest).toArray before.length (before ++ rest).toArray.size =
      .ok rest.toArray := by
  have hrange := range_middle before rest []
  rwa [List.append_nil, ← List.length_append, ← List.size_toArray] at hrange

/-- A number is read back where it stands, at the width at which it was written. -/
theorem Bounded.unsignedAt_middle (before after : List UInt8) {width n : Nat}
    (h : n < Nat.pow 256 width) :
    unsignedAt (before ++ Bytes.ofLittleEndian width n ++ after).toArray before.length width =
      .ok n := by
  have hslice := slice_middle before (Bytes.ofLittleEndian width n) after
  rw [Bytes.ofLittleEndian_length] at hslice
  rw [unsignedAt, hslice]
  exact congrArg Except.ok (Bytes.littleEndian_ofLittleEndian width n h)

/-!
## Records with their offsets
-/

section Offsets

variable {α : Type} (record : α → List UInt8)

/-- Items with the offsets of their records, where these stand one after another from an offset
on. -/
def withOffsets : (start : Nat) → List α → List (α × Nat)
  | _, [] => []
  | start, item :: rest => (item, start) :: withOffsets (start + (record item).length) rest

variable {record} {items : List α} {start : Nat}

theorem map_fst_withOffsets : (withOffsets record start items).map Prod.fst = items := by
  induction items generalizing start with
  | nil => rfl
  | cons first _ ih => exact congrArg (first :: ·) ih

theorem length_withOffsets : (withOffsets record start items).length = items.length := by
  rw [← List.length_map Prod.fst, map_fst_withOffsets]

theorem mem_of_mem_withOffsets {item : α} {offset : Nat}
    (h : (item, offset) ∈ withOffsets record start items) : item ∈ items := by
  have hmem := List.mem_map_of_mem (f := Prod.fst) h
  rwa [map_fst_withOffsets] at hmem

/-- The record of an item stands at its offset. -/
theorem record_of_mem_withOffsets {item : α} {offset : Nat}
    (h : (item, offset) ∈ withOffsets record start items) :
    ∃ before after, items.flatMap record = before ++ record item ++ after ∧
      offset = start + before.length := by
  induction items generalizing start with
  | nil => cases h
  | cons first rest ih =>
      rcases List.mem_cons.mp h with heq | hrest
      · cases heq
        exact ⟨[], rest.flatMap record, rfl, rfl⟩
      · rcases ih hrest with ⟨before, after, hrecords, hoffset⟩
        refine ⟨record first ++ before, after, ?_, ?_⟩
        · rw [List.flatMap_cons, hrecords]
          simp only [List.append_assoc]
        · rw [hoffset, List.length_append, Nat.add_assoc]

end Offsets

namespace Decoder

variable {α β : Type}

/-- A decoder reads a byte string as a value. -/
def Reads (decoder : Decoder α) (bytes : List UInt8) (value : α) : Prop :=
  ∀ before after : List UInt8,
    decoder.run (.between before (bytes ++ after)) = .ok value (.between (before ++ bytes) after)

/-!
## Putting decoders together
-/

theorem reads_pure (value : α) : Reads (pure value) [] value := by
  intro before after
  rw [List.append_nil]
  rfl

theorem run_bind {decoder : Decoder α} {next : α → Decoder β} {cursor middle : Cursor} {value : α}
    (h : decoder.run cursor = .ok value middle) :
    (decoder >>= next).run cursor = (next value).run middle := by
  simp only [EStateM.run, bind, EStateM.bind] at h ⊢
  rw [h]

/-- A value of two steps comes from a value of each. -/
theorem exists_of_run_bind {decoder : Decoder α} {next : α → Decoder β} {cursor after : Cursor}
    {value : β} (h : (decoder >>= next).run cursor = .ok value after) :
    ∃ first middle, decoder.run cursor = .ok first middle ∧
      (next first).run middle = .ok value after := by
  simp only [EStateM.run, bind, EStateM.bind] at h ⊢
  cases hfirst : decoder cursor with
  | ok first middle =>
      rw [hfirst] at h
      exact ⟨first, middle, rfl, h⟩
  | error error middle =>
      rw [hfirst] at h
      cases h

theorem run_bind_error {decoder : Decoder α} {next : α → Decoder β} {cursor middle : Cursor}
    {error : Error} (h : decoder.run cursor = .error error middle) :
    (decoder >>= next).run cursor = .error error middle := by
  simp only [EStateM.run, bind, EStateM.bind] at h ⊢
  rw [h]

theorem reads_bind {decoder : Decoder α} {next : α → Decoder β} {first rest : List UInt8}
    {value : α} {result : β} (hdecoder : Reads decoder first value)
    (hnext : Reads (next value) rest result) : Reads (decoder >>= next) (first ++ rest) result := by
  intro before after
  rw [List.append_assoc, run_bind (hdecoder before (rest ++ after)), hnext, List.append_assoc]

/-- What reads nothing further reads the same bytes. -/
theorem reads_bind_last {decoder : Decoder α} {next : α → Decoder β} {bytes : List UInt8}
    {value : α} {result : β} (hdecoder : Reads decoder bytes value)
    (hnext : Reads (next value) [] result) : Reads (decoder >>= next) bytes result := by
  rw [← List.append_nil bytes]
  exact reads_bind hdecoder hnext

/-- What only changes the value reads the same bytes. -/
theorem reads_map {decoder : Decoder α} {bytes : List UInt8} {value : α} (f : α → β)
    (h : Reads decoder bytes value) :
    Reads (do let value ← decoder; return f value) bytes (f value) :=
  reads_bind_last h (reads_pure (f value))

/-- A field that stands there under a condition only has a default value elsewhere. -/
theorem reads_optional_bind {condition : Prop} [Decidable condition] {decoder : Decoder α}
    {next : α → Decoder β} {field rest : List UInt8} {default value : α} {result : β}
    (hfield : condition → Reads decoder field value)
    (habsent : ¬ condition → field = [] ∧ value = default)
    (hnext : Reads (next value) rest result) :
    Reads (if condition then decoder >>= next else pure default >>= next) (field ++ rest)
      result := by
  split
  case isTrue h => exact reads_bind (hfield h) hnext
  case isFalse h =>
    obtain ⟨rfl, rfl⟩ := habsent h
    exact hnext

theorem run_ofExcept {outcome : Except Error α} {value : α} (h : outcome = .ok value)
    (cursor : Cursor) : (ofExcept outcome).run cursor = .ok value cursor := by
  rw [h]
  rfl

theorem eq_of_run_ofExcept {outcome : Except Error α} {cursor after : Cursor} {value : α}
    (h : (ofExcept outcome).run cursor = .ok value after) :
    outcome = .ok value ∧ after = cursor := by
  cases outcome with
  | ok other =>
      cases h
      exact ⟨rfl, rfl⟩
  | error error => cases h

theorem reads_ofExcept {outcome : Except Error α} {value : α} (h : outcome = .ok value) :
    Reads (ofExcept outcome) [] value := by
  rw [h]
  exact reads_pure value

/-- As many values as a list has, each from a form of its own. -/
theorem reads_repeated {decoder : Decoder α} {form : α → List UInt8 → Prop} {values : List α}
    {parts : List (List UInt8)} (h : List.Forall₂ form values parts)
    (hread : ∀ value ∈ values, ∀ bytes, form value bytes → Reads decoder bytes value) :
    Reads (repeated decoder values.length) parts.flatten values := by
  induction h with
  | nil => exact reads_pure []
  | cons hform _ ih =>
      have hrest := ih fun value hmem => hread value (List.mem_cons_of_mem _ hmem)
      exact reads_bind (hread _ List.mem_cons_self _ hform) (reads_map _ hrest)

theorem parse_of_run {decoder : Decoder α} {data : List UInt8} {value : α}
    (h : ∃ cursor, decoder.run (.between [] data) = .ok value cursor) :
    decoder.parse data.toArray = .ok value := by
  obtain ⟨cursor, hrun⟩ := h
  unfold parse
  rw [show ({ data := data.toArray } : Cursor) = .between [] data from rfl, hrun]

theorem parse_of_run_error {decoder : Decoder α} {data : List UInt8} {error : Error}
    (h : ∃ cursor, decoder.run (.between [] data) = .error error cursor) :
    decoder.parse data.toArray = .error error := by
  obtain ⟨cursor, hrun⟩ := h
  unfold parse
  rw [show ({ data := data.toArray } : Cursor) = .between [] data from rfl, hrun]

/-- What is read from the front of the data does not depend on what follows. -/
theorem parse_of_reads {decoder : Decoder α} {bytes : List UInt8} {value : α}
    (h : Reads decoder bytes value) (after : List UInt8) :
    decoder.parse (bytes ++ after).toArray = .ok value :=
  parse_of_run ⟨_, h [] after⟩

/-!
## Invariants
-/

/-- Where an invariant of the cursor holds, a decoder gets a value with a property and keeps the
invariant, or it fails with an error of a kind. -/
def Keeps (invariant : Cursor → Prop) (kind : Error → Prop) (P : α → Prop) (decoder : Decoder α) :
    Prop :=
  ∀ cursor, invariant cursor →
    match decoder.run cursor with
    | .ok value after => P value ∧ invariant after
    | .error error _ => kind error

section Invariants

variable {invariant : Cursor → Prop} {kind : Error → Prop} {P : α → Prop} {Q : β → Prop}
  {decoder : Decoder α}

theorem Keeps.of_ok (h : Keeps invariant kind P decoder) {cursor after : Cursor} {value : α}
    (hcursor : invariant cursor) (hrun : decoder.run cursor = .ok value after) :
    P value ∧ invariant after := by
  have hkept := h cursor hcursor
  rwa [hrun] at hkept

theorem Keeps.of_error (h : Keeps invariant kind P decoder) {cursor after : Cursor} {error : Error}
    (hcursor : invariant cursor) (hrun : decoder.run cursor = .error error after) : kind error := by
  have hkept := h cursor hcursor
  rwa [hrun] at hkept

theorem keeps_pure {value : α} (h : P value) : Keeps invariant kind P (pure value) :=
  fun _ hcursor => ⟨h, hcursor⟩

theorem keeps_throw {error : Error} (h : kind error) :
    Keeps invariant kind P (throw error : Decoder α) := fun _ _ => h

theorem keeps_bind {next : α → Decoder β} (hdecoder : Keeps invariant kind P decoder)
    (hnext : ∀ value, P value → Keeps invariant kind Q (next value)) :
    Keeps invariant kind Q (decoder >>= next) := by
  intro cursor hcursor
  cases hrun : decoder.run cursor with
  | ok value middle =>
      rw [run_bind hrun]
      obtain ⟨hvalue, hmiddle⟩ := hdecoder.of_ok hcursor hrun
      exact hnext value hvalue middle hmiddle
  | error error middle =>
      rw [run_bind_error hrun]
      exact hdecoder.of_error hcursor hrun

theorem keeps_get : Keeps invariant kind invariant (get : Decoder Cursor) :=
  fun _ hcursor => ⟨hcursor, hcursor⟩

theorem keeps_set {cursor : Cursor} (h : invariant cursor) :
    Keeps invariant kind (fun _ => True) (set cursor : Decoder PUnit) := fun _ _ => ⟨trivial, h⟩

theorem keeps_ite {c : Prop} [Decidable c] {first second : Decoder α}
    (hfirst : c → Keeps invariant kind P first) (hsecond : ¬ c → Keeps invariant kind P second) :
    Keeps invariant kind P (if c then first else second) := by
  split
  case isTrue h => exact hfirst h
  case isFalse h => exact hsecond h

/-- What follows a check that may fail. -/
theorem keeps_check {c : Prop} [Decidable c] {error : Error} {next : PUnit → Decoder β}
    (herror : kind error) (hnext : ¬ c → Keeps invariant kind Q (next ⟨⟩)) :
    Keeps invariant kind Q (if c then (throw error : Decoder PUnit) >>= next else next ⟨⟩) :=
  keeps_ite (fun _ => keeps_bind (P := fun _ => False) (keeps_throw herror) fun _ h => h.elim) hnext

theorem keeps_repeated (h : Keeps invariant kind P decoder) (count : Nat) :
    Keeps invariant kind (fun values => ∀ value ∈ values, P value) (repeated decoder count) := by
  induction count with
  | zero => exact keeps_pure fun _ hmem => absurd hmem List.not_mem_nil
  | succ count ih =>
      refine keeps_bind h fun value hvalue => ?_
      refine keeps_bind ih fun rest hrest => keeps_pure ?_
      exact List.forall_mem_cons.mpr ⟨hvalue, hrest⟩

end Invariants

/-!
## Single steps
-/

theorem run_get {next : Cursor → Decoder α} (cursor : Cursor) :
    ((get : Decoder Cursor) >>= next).run cursor = (next cursor).run cursor := rfl

theorem run_set {next : Unit → Decoder α} (cursor other : Cursor) :
    ((set other : Decoder PUnit) >>= next).run cursor = (next ()).run other := rfl

/-- Where a cursor is can be asked for. -/
theorem reads_position_bind {next : Nat → Decoder α} {bytes : List UInt8} {value : α}
    (h : ∀ start, Reads (next start) bytes value) : Reads (position >>= next) bytes value :=
  fun before after => h before.length before after

theorem reads_take (bytes : List UInt8) : Reads (take bytes.length) bytes bytes.toArray := by
  intro before after
  rw [Cursor.between_append]
  unfold take
  rw [run_get, Bounded.slice_middle]
  simp only [Cursor.between, List.length_append]
  rfl

theorem reads_unsigned {width n : Nat} (h : n < Nat.pow 256 width) :
    Reads (unsigned width) (Bytes.ofLittleEndian width n) n := by
  have htake := reads_take (Bytes.ofLittleEndian width n)
  rw [Bytes.ofLittleEndian_length] at htake
  have hread := reads_map (fun bytes : Bytes => Bytes.littleEndian bytes.toList) htake
  rwa [Bytes.littleEndian_ofLittleEndian width n h] at hread

/-- A number without its highest bit is the same with and without a sign. -/
theorem reads_signed (width : Nat) {n : Nat} (hroom : n < Nat.pow 256 width)
    (h : n < Nat.pow 2 (8 * width - 1)) :
    Reads (signed width) (Bytes.ofLittleEndian width n) n := by
  have hread := reads_map (fun n => Bytes.twosComplement (8 * width) n) (reads_unsigned hroom)
  rwa [Bytes.twosComplement, if_pos h] at hread

theorem reads_byte (b : UInt8) : Reads byte [b] b.toNat := by
  have hread : Reads byte [UInt8.ofNat b.toNat] b.toNat := reads_unsigned b.toNat_lt
  rwa [UInt8.ofNat_toNat] at hread

/-- At the end of the data there is no byte, and the cursor stays. -/
theorem run_byte_end (before : List UInt8) :
    byte.run (.between before []) = .error .outOfBounds (.between before []) := by
  have hslice : Bounded.slice (Cursor.between before []).data (Cursor.between before []).pos 1 =
      .error .outOfBounds := by
    rw [Bounded.slice_eq, if_neg (by simp [Cursor.between])]
  refine run_bind_error ?_
  unfold take
  rw [run_get, hslice]
  rfl

/-- A byte is read in front of what depends on it. -/
theorem reads_byte_bind {next : Nat → Decoder α} {b : UInt8} {rest : List UInt8} {value : α}
    (h : Reads (next b.toNat) rest value) : Reads (byte >>= next) (b :: rest) value :=
  reads_bind (reads_byte b) h

theorem reads_advance (bytes : List UInt8) : Reads (advance bytes.length) bytes () := by
  intro before after
  have hle : before.length + bytes.length ≤ (before ++ bytes ++ after).toArray.size := by simp
  rw [Cursor.between_append]
  unfold advance seek
  rw [run_get, run_get, if_pos hle]
  simp only [Cursor.between, List.length_append]
  rfl

/-- Bytes that nothing is made of are passed over by their number. -/
theorem reads_advance_of_length {bytes : List UInt8} {count : Nat} (h : bytes.length = count) :
    Reads (advance count) bytes () :=
  h ▸ reads_advance bytes

theorem reads_take_of_length {bytes : List UInt8} {count : Nat} (h : bytes.length = count) :
    Reads (take count) bytes bytes.toArray :=
  h ▸ reads_take bytes

/-- A cursor moves to any place between two parts of the data. -/
theorem run_seek {data before after : List UInt8} {start place : Nat}
    (hdata : data = before ++ after) (hplace : place = before.length) :
    (seek place).run { data := data.toArray, pos := start } = .ok () (.between before after) := by
  have hle : place ≤ data.toArray.size := by
    rw [hdata, hplace]
    simp
  unfold seek
  rw [run_get, if_pos hle, hdata, hplace]
  rfl

/-- What stands at a place of the data is read behind a jump to the place. -/
theorem parse_seek {decoder : Decoder α} {bytes : List UInt8} {value : α} {place : Nat}
    (before after : List UInt8) (hplace : place = before.length) (h : Reads decoder bytes value) :
    (do seek place; decoder).parse (before ++ bytes ++ after).toArray = .ok value := by
  refine parse_of_run ⟨.between (before ++ bytes) after, ?_⟩
  have hjump : (seek place).run (.between [] (before ++ bytes ++ after)) =
      .ok () (.between before (bytes ++ after)) := by
    refine run_seek ?_ hplace
    rw [List.nil_append, List.append_assoc]
  rw [run_bind hjump, h]

theorem run_advance_one (before after : List UInt8) (next : UInt8) :
    (advance 1).run (.between before (next :: after)) =
      .ok () (.between (before ++ [next]) after) :=
  reads_advance [next] before after

/-- The byte behind a cursor is seen without a move. -/
theorem run_peek (before after : List UInt8) (next : UInt8) :
    peek.run (.between before (next :: after)) = .ok next (.between before (next :: after)) := by
  have hnext : (Cursor.between before (next :: after)).data[
      (Cursor.between before (next :: after)).pos]? = some next := by
    simp [Cursor.between]
  unfold peek
  rw [run_get, hnext]
  rfl

theorem run_remaining (before after : List UInt8) :
    remaining.run (.between before after) = .ok after.length (.between before after) := by
  unfold remaining
  rw [run_get, Cursor.remaining_between]
  rfl

end Decoder
end AssemblyBrowser
