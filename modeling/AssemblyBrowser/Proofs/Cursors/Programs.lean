import AssemblyBrowser.Bytes.CursorOp
import AssemblyBrowser.Image.Basic
import AssemblyBrowser.Proofs.Cursors.Spending
import AssemblyBrowser.Proofs.Outcomes

/-!
# Code that uses a cursor

Code does operations on a cursor one after another, each depending on what those
before it answered, the failing ones included; and it runs other code in
transactions, which may fail on its own account. Whatever it does, the cursor stays
inside its data and no operation panics. A single operation leads to one place or
leaves the cursor where it is; only what is read in several steps may fail on the
way. A position is a machine word, and data in memory are at most half as long as
there are positions, so that there is always a position behind their end.
-/

namespace AssemblyBrowser

open Decoder (Spends)

/-!
## Single operations
-/

/-- Where a single operation leads, and how far the data must reach for it. -/
structure CursorMove where
  target : Nat
  reach : Nat

namespace CursorStep

/-- What a single operation does from a place. Numbers of variable length and texts are read in
several steps. -/
def move? : CursorStep → (place : Nat) → Option CursorMove
  | seek pos, _ => some ⟨pos, pos⟩
  | advance count, place => some ⟨place + count, place + count⟩
  | align alignment, place =>
      let next := ImageHeader.roundUp place alignment
      some ⟨next, next⟩
  | peek, place => some ⟨place, place + 1⟩
  | unsigned width, place => some ⟨place + width, place + width⟩
  | signed width, place => some ⟨place + width, place + width⟩
  | take length, place => some ⟨place + length, place + length⟩
  | compressedNumber, _ | compressedToken, _ | sevenBitNumber, _ | sevenBitText, _
  | compressedText, _ | terminatedText, _ => none

/-- Every place is aligned to a multiple of something but to none of zero. -/
def IsDefined (step : CursorStep) : Prop := step ≠ align 0

end CursorStep

namespace Decoder

variable {α β : Type} {decoder : Decoder α}

theorem step_of_ok {cursor after : Cursor} {value : α} (h : decoder.run cursor = .ok value after) :
    step decoder cursor = (.ok value, after) := by
  unfold step
  rw [h]

theorem step_of_error {cursor after : Cursor} {error : Error}
    (h : decoder.run cursor = .error error after) :
    step decoder cursor = (.error error, after) := by
  unfold step
  rw [h]

theorem run_transaction_eq (cursor : Cursor) :
    (transaction decoder).run cursor =
      match decoder.run cursor with
      | .ok value after => .ok value after
      | .error error after => .error error { after with pos := cursor.pos } := rfl

theorem run_transaction {cursor after : Cursor} {value : α}
    (h : decoder.run cursor = .ok value after) :
    (transaction decoder).run cursor = .ok value after := by
  rw [run_transaction_eq, h]

/-- A transaction that fails goes back to where it began. -/
theorem run_transaction_error {cursor after : Cursor} {error : Error}
    (h : decoder.run cursor = .error error after) (hdata : after.data = cursor.data) :
    (transaction decoder).run cursor = .error error cursor := by
  rw [run_transaction_eq, h]
  show EStateM.Result.error error ({ after with pos := cursor.pos } : Cursor) = _
  rw [hdata]

/-- A decoder does all of a move or fails at its place. -/
def Moves (decoder : Decoder α) (cursor : Cursor) (move : CursorMove) : Prop :=
  if move.reach ≤ cursor.data.size then
    ∃ value, decoder.run cursor = .ok value { cursor with pos := move.target }
  else decoder.run cursor = .error .outOfBounds cursor

/-- What only changes the value moves in the same way. -/
theorem Moves.map {cursor : Cursor} {move : CursorMove} (f : α → β)
    (h : decoder.Moves cursor move) :
    Moves (do let value ← decoder; return f value) cursor move := by
  unfold Moves at h ⊢
  split
  case isTrue hreach =>
    rw [if_pos hreach] at h
    rcases h with ⟨value, hrun⟩
    exact ⟨f value, run_bind hrun⟩
  case isFalse hreach =>
    rw [if_neg hreach] at h
    exact run_bind_error h

theorem moves_of_eq {cursor : Cursor} {move : CursorMove} {value : α}
    (h : decoder.run cursor = if move.reach ≤ cursor.data.size then
      .ok value { cursor with pos := move.target } else .error .outOfBounds cursor) :
    decoder.Moves cursor move := by
  unfold Moves
  split
  case isTrue hreach => exact ⟨value, h.trans (if_pos hreach)⟩
  case isFalse hreach => exact h.trans (if_neg hreach)

theorem moves_advance (count : Nat) (cursor : Cursor) :
    (advance count).Moves cursor ⟨cursor.pos + count, cursor.pos + count⟩ :=
  moves_of_eq (run_advance_eq count cursor)

theorem moves_align {alignment : Nat} (h : 0 < alignment) (cursor : Cursor) :
    (align alignment).Moves cursor
      ⟨ImageHeader.roundUp cursor.pos alignment, ImageHeader.roundUp cursor.pos alignment⟩ := by
  have hrun : (align alignment).run cursor =
      if ImageHeader.roundUp cursor.pos alignment ≤ cursor.data.size then
        .ok () { cursor with pos := ImageHeader.roundUp cursor.pos alignment }
      else .error .outOfBounds cursor := by
    rw [run_align_eq h, run_advance_eq]
    unfold ImageHeader.roundUp
    rw [roundUp_eq cursor.pos h]
    rfl
  exact moves_of_eq hrun

theorem moves_peek (cursor : Cursor) : peek.Moves cursor ⟨cursor.pos, cursor.pos + 1⟩ := by
  unfold Moves
  rw [run_peek_eq]
  split
  case isTrue hreach =>
    rw [Array.getElem?_eq_getElem hreach]
    exact ⟨_, rfl⟩
  case isFalse hreach => rw [Array.getElem?_eq_none (Nat.not_lt.mp hreach)]

theorem moves_take (length : Nat) (cursor : Cursor) :
    (take length).Moves cursor ⟨cursor.pos + length, cursor.pos + length⟩ :=
  moves_of_eq (run_take_eq length cursor)

theorem moves_unsigned (width : Nat) (cursor : Cursor) :
    (unsigned width).Moves cursor ⟨cursor.pos + width, cursor.pos + width⟩ :=
  (moves_take width cursor).map fun bytes : Bytes => Bytes.littleEndian bytes.toList

end Decoder

theorem CursorStep.moves {step : CursorStep} {cursor : Cursor} {move : CursorMove}
    (hdefined : step.IsDefined) (h : step.move? cursor.pos = some move) :
    step.decoder.Moves cursor move := by
  cases step with
  | seek pos =>
      cases h
      exact (Decoder.moves_of_eq (Decoder.run_seek_eq pos cursor)).map fun _ => CursorAnswer.moved
  | advance count =>
      cases h
      exact (Decoder.moves_advance count cursor).map fun _ => CursorAnswer.moved
  | align alignment =>
      cases h
      have hpos : 0 < alignment :=
        Nat.pos_of_ne_zero fun hzero => hdefined (congrArg CursorStep.align hzero)
      exact (Decoder.moves_align hpos cursor).map fun _ => CursorAnswer.moved
  | peek =>
      cases h
      exact (Decoder.moves_peek cursor).map fun byte : UInt8 => CursorAnswer.number byte.toNat
  | unsigned width =>
      cases h
      exact (Decoder.moves_unsigned width cursor).map fun n : Nat => CursorAnswer.number n
  | signed width =>
      cases h
      have hsigned := (Decoder.moves_unsigned width cursor).map
        fun n : Nat => Bytes.twosComplement (8 * width) n
      exact hsigned.map CursorAnswer.number
  | take length =>
      cases h
      exact (Decoder.moves_take length cursor).map CursorAnswer.bytes
  | compressedNumber | compressedToken | sevenBitNumber | sevenBitText | compressedText
  | terminatedText => cases h

/-!
## Operations that stay inside the data
-/

/-- The data are short enough that the place behind their end is a position too. -/
def Cursor.HasRoom (cursor : Cursor) : Prop := cursor.data.size + 1 < Bounded.positions

/-- A cursor inside data, which are those of another cursor. -/
structure Cursor.StaysIn (before after : Cursor) : Prop where
  data : after.data = before.data
  inside : after.Inside

theorem Cursor.StaysIn.trans {before middle after : Cursor} (h : before.StaysIn middle)
    (hafter : middle.StaysIn after) : before.StaysIn after :=
  ⟨hafter.data.trans h.data, hafter.inside⟩

theorem Cursor.StaysIn.hasRoom {before after : Cursor} (h : before.StaysIn after)
    (hroom : before.HasRoom) : after.HasRoom := by
  unfold HasRoom at hroom ⊢
  rwa [h.data]

/-- A result stays inside the data, and is no panic. -/
def Stays {α : Type} (cursor : Cursor) (result : Except Error α × Cursor) : Prop :=
  cursor.StaysIn result.2 ∧ ∀ error, result.1 = .error error → error.isCrash = false

namespace Decoder

variable {α : Type} {decoder : Decoder α} {cursor : Cursor}

theorem stays_of_ok {after : Cursor} {value : α} (hrun : decoder.run cursor = .ok value after)
    (h : cursor.StaysIn after) : Stays cursor (step decoder cursor) := by
  rw [step_of_ok hrun]
  exact ⟨h, fun _ herror => nomatch herror⟩

theorem stays_of_error {after : Cursor} {error : Error}
    (hrun : decoder.run cursor = .error error after) (h : cursor.StaysIn after)
    (herror : error.isCrash = false) : Stays cursor (step decoder cursor) := by
  rw [step_of_error hrun]
  refine ⟨h, fun other hother => ?_⟩
  rw [← Except.error.inj hother]
  exact herror

theorem stays_of_spends {P : Nat → α → Prop} (h : Spends Error.FromData P decoder)
    (hinside : cursor.Inside) : Stays cursor (step decoder cursor) := by
  cases hrun : decoder.run cursor with
  | ok value after =>
      rcases h.of_ok hinside hrun with ⟨spent, rfl, hafter, _⟩
      exact stays_of_ok hrun ⟨rfl, hafter⟩
  | error error after =>
      rcases h.of_error hinside hrun with ⟨hdata, hafter, hkind⟩
      exact stays_of_error hrun ⟨hdata, hafter⟩ hkind.not_crash

theorem Moves.stays {move : CursorMove} (h : decoder.Moves cursor move) (hinside : cursor.Inside)
    (htarget : move.target ≤ move.reach) : Stays cursor (step decoder cursor) := by
  unfold Moves at h
  split at h
  case isTrue hreach =>
    rcases h with ⟨value, hrun⟩
    exact stays_of_ok hrun ⟨rfl, Nat.le_trans htarget hreach⟩
  case isFalse => exact stays_of_error h ⟨rfl, hinside⟩ rfl

end Decoder

namespace TextField

open Decoder

theorem endOfText_eq_ok {cursor : Cursor} (hinside : cursor.Inside) (hroom : cursor.HasRoom) :
    ∃ stop, endOfText cursor = .ok stop ∧ cursor.pos ≤ stop ∧ stop ≤ cursor.data.size := by
  have hlt : cursor.data.size + 1 < Bounded.positions := hroom
  have hle : cursor.pos ≤ cursor.data.size := hinside
  unfold endOfText
  rw [Bounded.range_eq_ok hle (Nat.le_refl _), Outcome.ok_bind]
  cases hfind : (cursor.data.extract cursor.pos cursor.data.size).findIdx? (· == 0) with
  | some length =>
      have hlength := (Array.findIdx?_eq_some_iff_getElem.mp hfind).1
      rw [Array.size_extract, Nat.min_self] at hlength
      exact ⟨cursor.pos + length, Bounded.add_eq_ok (by omega), by omega, by omega⟩
  | none => exact ⟨cursor.data.size, rfl, hle, Nat.le_refl _⟩

/-- A text that a zero byte ends is left behind before its bytes are looked at. -/
theorem stays_terminated {cursor : Cursor} (hinside : cursor.Inside) (hroom : cursor.HasRoom) :
    Stays cursor (step terminated cursor) := by
  obtain ⟨stop, hstop, hfirst, hlast⟩ := endOfText_eq_ok hinside hroom
  have hlt : cursor.data.size + 1 < Bounded.positions := hroom
  have hnext : Bounded.add Bounded.positions stop 1 = .ok (stop + 1) :=
    Bounded.add_eq_ok (by omega)
  let after : Cursor := { cursor with pos := min (stop + 1) cursor.data.size }
  have hafter : cursor.StaysIn after := ⟨rfl, Nat.min_le_right _ _⟩
  have hrun := calc terminated.run cursor
    _ = _ := run_get cursor
    _ = _ := run_bind (run_ofExcept hstop cursor)
    _ = _ := run_bind (run_ofExcept hnext cursor)
    _ = _ := run_set cursor after
    _ = _ := run_bind (run_ofExcept (Bounded.range_eq_ok hfirst hlast) after)
  cases hdecode : Utf8.decode (cursor.data.extract cursor.pos stop) with
  | ok text =>
      rw [hdecode] at hrun
      exact stays_of_ok hrun hafter
  | error fault =>
      rw [hdecode] at hrun
      exact stays_of_error hrun hafter rfl

end TextField

/-- What only changes the value stays inside as well. -/
theorem Stays.map {α β : Type} {decoder : Decoder α} {cursor : Cursor} (f : α → β)
    (h : Stays cursor (Decoder.step decoder cursor)) :
    Stays cursor (Decoder.step (do let value ← decoder; return f value) cursor) := by
  cases hrun : decoder.run cursor with
  | ok value after =>
      rw [Decoder.step_of_ok hrun] at h
      exact Decoder.stays_of_ok (Decoder.run_bind hrun) h.1
  | error error after =>
      rw [Decoder.step_of_error hrun] at h
      exact Decoder.stays_of_error (Decoder.run_bind_error hrun) h.1 (h.2 error rfl)

theorem CursorStep.target_le_reach {step : CursorStep} {place : Nat} {move : CursorMove}
    (h : step.move? place = some move) : move.target ≤ move.reach := by
  cases step <;> cases h
  case peek => exact Nat.le_succ place
  all_goals exact Nat.le_refl _

theorem CursorStep.stays {step : CursorStep} {cursor : Cursor} (hdefined : step.IsDefined)
    (hinside : cursor.Inside) (hroom : cursor.HasRoom) :
    Stays cursor (Decoder.step step.decoder cursor) := by
  cases hmove : step.move? cursor.pos with
  | some move => exact (moves hdefined hmove).stays hinside (target_le_reach hmove)
  | none =>
      cases step with
      | compressedNumber =>
          exact (Decoder.stays_of_spends CompressedNumber.spends_decode hinside).map
            fun n : Nat => CursorAnswer.number n
      | compressedToken =>
          exact (Decoder.stays_of_spends CompressedNumber.spends_decodeToken hinside).map
            CursorAnswer.token
      | sevenBitNumber =>
          exact (Decoder.stays_of_spends SevenBitNumber.spends_decode hinside).map
            fun n : Nat => CursorAnswer.number n
      | sevenBitText =>
          exact (Decoder.stays_of_spends TextField.spends_sevenBitPrefixed hinside).map
            CursorAnswer.text
      | compressedText =>
          exact (Decoder.stays_of_spends TextField.spends_compressedPrefixed hinside).map
            CursorAnswer.text
      | terminatedText => exact (TextField.stays_terminated hinside hroom).map CursorAnswer.text
      | seek | advance | align | peek | unsigned | signed | take => cases hmove

/-!
## Programs
-/

/-- Code that uses a cursor: it ends, well or with a failure, or does an operation or a transaction
and goes on as the answer tells. -/
inductive CursorProgram where
  | done (failure : Option Error)
  | step (operation : CursorStep) (next : Except Error CursorAnswer → CursorProgram)
  | transaction (body : CursorProgram) (next : Except Error Unit → CursorProgram)

/-- What happens while code runs. -/
inductive CursorEvent where
  | step (operation : CursorStep) (before : Cursor) (answer : Except Error CursorAnswer)
      (after : Cursor)
  | transaction (before : Cursor) (answer : Except Error Unit) (after : Cursor)

namespace CursorEvent

def after : CursorEvent → Cursor
  | .step _ _ _ after => after
  | .transaction _ _ after => after

/-- What holds of an event in data of a length. An operation is no panic; a single one does all of
its move if the data reach far enough, and else fails where it began. A transaction that fails ends
where it began. -/
def Sound (size : Nat) : CursorEvent → Prop
  | .step operation before answer after =>
      (∀ error, answer = .error error → error.isCrash = false) ∧
        ∀ move, operation.move? before.pos = some move →
          if move.reach ≤ size then
            (∃ value, answer = .ok value) ∧ after = { before with pos := move.target }
          else answer = .error .outOfBounds ∧ after = before
  | .transaction before answer after => ∀ error, answer = .error error → after = before

end CursorEvent

namespace CursorProgram

/-- Runs code; its failure is that of the decoder. -/
def decoder : CursorProgram → Decoder Unit
  | .done none => pure ()
  | .done (some error) => throw error
  | .step operation next => fun cursor =>
      let (answer, after) := Decoder.step operation.decoder cursor
      (next answer).decoder after
  | .transaction body next => fun cursor =>
      let (answer, after) := Decoder.step (Decoder.transaction body.decoder) cursor
      (next answer).decoder after

/-- What happens when code runs from a cursor, in order; what is inside a transaction comes before
its end. -/
def trace : CursorProgram → Cursor → List CursorEvent
  | .done _, _ => []
  | .step operation next, cursor =>
      let (answer, after) := Decoder.step operation.decoder cursor
      .step operation cursor answer after :: (next answer).trace after
  | .transaction body next, cursor =>
      let (answer, after) := Decoder.step (Decoder.transaction body.decoder) cursor
      body.trace cursor ++ .transaction cursor answer after :: (next answer).trace after

/-- Code that does not align to multiples of zero. -/
def IsDefined : CursorProgram → Prop
  | .done _ => True
  | .step operation next => operation.IsDefined ∧ ∀ answer, (next answer).IsDefined
  | .transaction body next => body.IsDefined ∧ ∀ answer, (next answer).IsDefined

variable {program : CursorProgram} {cursor : Cursor}

theorem staysIn_transaction {body : Decoder Unit} (hinside : cursor.Inside)
    (h : cursor.StaysIn (Decoder.step body cursor).2) :
    cursor.StaysIn (Decoder.step (Decoder.transaction body) cursor).2 ∧
      ∀ error, (Decoder.step (Decoder.transaction body) cursor).1 = .error error →
        (Decoder.step (Decoder.transaction body) cursor).2 = cursor := by
  cases hrun : body.run cursor with
  | ok value after =>
      rw [Decoder.step_of_ok hrun] at h
      rw [Decoder.step_of_ok (Decoder.run_transaction hrun)]
      exact ⟨h, fun _ herror => nomatch herror⟩
  | error error after =>
      rw [Decoder.step_of_error hrun] at h
      rw [Decoder.step_of_error (Decoder.run_transaction_error hrun h.data)]
      exact ⟨⟨rfl, hinside⟩, fun _ _ => rfl⟩

/-- Code stays inside the data, however it ends. -/
theorem staysIn_decoder (hdefined : program.IsDefined) (hinside : cursor.Inside)
    (hroom : cursor.HasRoom) : cursor.StaysIn (Decoder.step program.decoder cursor).2 := by
  induction program generalizing cursor with
  | done failure =>
      cases failure with
      | none => exact ⟨rfl, hinside⟩
      | some error => exact ⟨rfl, hinside⟩
  | step operation next ih =>
      have hstep := (CursorStep.stays hdefined.1 hinside hroom).1
      exact hstep.trans (ih _ (hdefined.2 _) hstep.inside (hstep.hasRoom hroom))
  | transaction body next ihbody ihnext =>
      have hbody := (staysIn_transaction hinside (ihbody hdefined.1 hinside hroom)).1
      exact hbody.trans (ihnext _ (hdefined.2 _) hbody.inside (hbody.hasRoom hroom))

theorem CursorEvent.sound_step {step : CursorStep} (hdefined : step.IsDefined)
    (hinside : cursor.Inside) (hroom : cursor.HasRoom) :
    CursorEvent.Sound cursor.data.size (.step step cursor (Decoder.step step.decoder cursor).1
      (Decoder.step step.decoder cursor).2) := by
  refine ⟨(CursorStep.stays hdefined hinside hroom).2, fun move hmove => ?_⟩
  have hmoves := CursorStep.moves hdefined hmove
  unfold Decoder.Moves at hmoves
  split
  case isTrue hreach =>
    rw [if_pos hreach] at hmoves
    rcases hmoves with ⟨value, hrun⟩
    rw [Decoder.step_of_ok hrun]
    exact ⟨⟨value, rfl⟩, rfl⟩
  case isFalse hreach =>
    rw [if_neg hreach] at hmoves
    rw [Decoder.step_of_error hmoves]
    exact ⟨rfl, rfl⟩

/-- All that happens leaves the cursor inside its data and is as it should be. -/
theorem sound_trace (hdefined : program.IsDefined) (hinside : cursor.Inside)
    (hroom : cursor.HasRoom) : ∀ event ∈ program.trace cursor,
      cursor.StaysIn event.after ∧ event.Sound cursor.data.size := by
  induction program generalizing cursor with
  | done failure => exact fun _ hevent => absurd hevent List.not_mem_nil
  | step operation next ih =>
      have hstep := (CursorStep.stays hdefined.1 hinside hroom).1
      have hnext := ih (Decoder.step operation.decoder cursor).1 (hdefined.2 _) hstep.inside
        (hstep.hasRoom hroom)
      rw [hstep.data] at hnext
      refine List.forall_mem_cons.mpr ⟨⟨hstep, ?_⟩, fun event hevent => ?_⟩
      · exact CursorEvent.sound_step hdefined.1 hinside hroom
      · exact ⟨hstep.trans (hnext event hevent).1, (hnext event hevent).2⟩
  | transaction body next ihbody ihnext =>
      have hbody := staysIn_transaction hinside (staysIn_decoder hdefined.1 hinside hroom)
      have hnext := ihnext (Decoder.step (Decoder.transaction body.decoder) cursor).1
        (hdefined.2 _) hbody.1.inside (hbody.1.hasRoom hroom)
      rw [hbody.1.data] at hnext
      refine List.forall_mem_append.mpr ⟨ihbody hdefined.1 hinside hroom, ?_⟩
      refine List.forall_mem_cons.mpr ⟨hbody, fun event hevent => ?_⟩
      exact ⟨hbody.1.trans (hnext event hevent).1, (hnext event hevent).2⟩

end CursorProgram

/-!
## Operations as data
-/

namespace CursorOp

mutual
/-- An operation that does not align to a multiple of zero, inside transactions either. -/
def IsDefined : CursorOp → Prop
  | single operation => operation.IsDefined
  | transaction ops => AllDefined ops

def AllDefined : List CursorOp → Prop
  | [] => True
  | op :: ops => IsDefined op ∧ AllDefined ops
end

def failure? {α : Type} : Except Error α → Option Error
  | .ok _ => none
  | .error error => some error

mutual
/-- An operation as code, with what is done next. A transaction never fails: its answer says how
far it came. -/
def program : CursorOp → (next : Option Error → CursorProgram) → CursorProgram
  | single operation, next => .step operation fun answer => next (failure? answer)
  | transaction ops, next => .transaction (untilError ops) fun _ => next none

/-- Operations as code that ends with the first failure. -/
def untilError : List CursorOp → CursorProgram
  | [] => .done none
  | op :: ops => program op fun
      | none => untilError ops
      | some error => .done (some error)
end

/-- Operations as code that goes on behind failures. -/
def allOf : List CursorOp → CursorProgram
  | [] => .done none
  | op :: ops => program op fun _ => allOf ops

mutual
theorem isDefined_program {op : CursorOp} {next : Option Error → CursorProgram} (h : op.IsDefined)
    (hnext : ∀ failure, (next failure).IsDefined) : (program op next).IsDefined := by
  cases op with
  | single operation => exact ⟨h, fun _ => hnext _⟩
  | transaction ops => exact ⟨isDefined_untilError h, fun _ => hnext none⟩

theorem isDefined_untilError {ops : List CursorOp} (h : AllDefined ops) :
    (untilError ops).IsDefined := by
  cases ops with
  | nil => trivial
  | cons op ops =>
      refine isDefined_program h.1 fun failure => ?_
      cases failure with
      | none => exact isDefined_untilError h.2
      | some error => trivial
end

theorem isDefined_allOf {ops : List CursorOp} (h : AllDefined ops) : (allOf ops).IsDefined := by
  induction ops with
  | nil => trivial
  | cons op ops ih => exact isDefined_program h.1 fun _ => ih h.2

mutual
/-- The code of an operation goes on where the operation ends. -/
theorem step_program {op : CursorOp} {cursor : Cursor} (next : Option Error → CursorProgram)
    (hdefined : op.IsDefined) (hinside : cursor.Inside) (hroom : cursor.HasRoom) :
    Decoder.step (program op next).decoder cursor =
      Decoder.step (next (failure? (run op cursor).1)).decoder (run op cursor).2 := by
  cases op with
  | single operation => rfl
  | transaction ops =>
      have hafter := step_transaction hdefined hinside hroom
      exact congrArg (Decoder.step (next none).decoder) hafter

/-- A transaction over operations ends where they end, or where it began. -/
theorem step_transaction {ops : List CursorOp} {cursor : Cursor} (hdefined : AllDefined ops)
    (hinside : cursor.Inside) (hroom : cursor.HasRoom) :
    (Decoder.step (Decoder.transaction (untilError ops).decoder) cursor).2 =
      (run (transaction ops) cursor).2 := by
  have hops := step_untilError hdefined hinside hroom
  have hstays := CursorProgram.staysIn_decoder (isDefined_untilError hdefined) hinside hroom
  show _ = if (runUntilError ops cursor).2.2 then (runUntilError ops cursor).2.1 else cursor
  cases hrun : (untilError ops).decoder.run cursor with
  | ok value after =>
      rw [Decoder.step_of_ok hrun] at hops
      rw [Decoder.step_of_ok (Decoder.run_transaction hrun), if_pos (hops.2.mpr ⟨value, rfl⟩)]
      exact hops.1
  | error error after =>
      rw [Decoder.step_of_error hrun] at hops hstays
      rw [Decoder.step_of_error (Decoder.run_transaction_error hrun hstays.data), if_neg]
      exact fun hcommitted => nomatch hops.2.mp hcommitted

theorem step_untilError {ops : List CursorOp} {cursor : Cursor} (hdefined : AllDefined ops)
    (hinside : cursor.Inside) (hroom : cursor.HasRoom) :
    (Decoder.step (untilError ops).decoder cursor).2 = (runUntilError ops cursor).2.1 ∧
      ((runUntilError ops cursor).2.2 = true ↔
        ∃ value, (Decoder.step (untilError ops).decoder cursor).1 = .ok value) := by
  cases ops with
  | nil => exact ⟨rfl, iff_of_true rfl ⟨(), rfl⟩⟩
  | cons op ops =>
      have hop := step_program (fun
        | none => untilError ops
        | some error => .done (some error)) hdefined.1 hinside hroom
      have hstays := staysIn_run hdefined.1 hinside hroom
      unfold untilError runUntilError
      rw [hop]
      cases hrun : run op cursor with
      | mk answer after =>
          rw [hrun] at hstays
          cases answer with
          | ok answer =>
              exact step_untilError hdefined.2 hstays.inside (hstays.hasRoom hroom)
          | error error =>
              exact ⟨rfl, iff_of_false Bool.false_ne_true fun h => nomatch h⟩

theorem staysIn_run {op : CursorOp} {cursor : Cursor} (hdefined : op.IsDefined)
    (hinside : cursor.Inside) (hroom : cursor.HasRoom) : cursor.StaysIn (run op cursor).2 := by
  have hcode : (program op fun _ => .done none).IsDefined :=
    isDefined_program hdefined fun _ => trivial
  have hstays := CursorProgram.staysIn_decoder hcode hinside hroom
  rwa [step_program _ hdefined hinside hroom] at hstays
end

/-- Where an operation ends, something that happens in its code ends; and what its code does next
happens behind it. -/
theorem exists_trace_program {op : CursorOp} {cursor : Cursor}
    (next : Option Error → CursorProgram) (hdefined : op.IsDefined) (hinside : cursor.Inside)
    (hroom : cursor.HasRoom) :
    ∃ before event, (program op next).trace cursor =
        before ++ event :: (next (failure? (run op cursor).1)).trace (run op cursor).2 ∧
      event.after = (run op cursor).2 := by
  cases op with
  | single operation => exact ⟨[], _, rfl, rfl⟩
  | transaction ops =>
      have hafter := step_transaction hdefined hinside hroom
      let result := Decoder.step (Decoder.transaction (untilError ops).decoder) cursor
      refine ⟨(untilError ops).trace cursor, .transaction cursor result.1 result.2, ?_, hafter⟩
      rw [← hafter]
      rfl

/-- Operations end where something that happens in their code ends. -/
theorem exists_event_of_mem_runAll {ops : List CursorOp} {cursor : Cursor}
    (hdefined : AllDefined ops) (hinside : cursor.Inside) (hroom : cursor.HasRoom) :
    ∀ record ∈ runAll ops cursor, ∃ event ∈ (allOf ops).trace cursor, event.after = record.2 := by
  induction ops generalizing cursor with
  | nil => exact fun _ hrecord => absurd hrecord List.not_mem_nil
  | cons op ops ih =>
      have hstays := staysIn_run hdefined.1 hinside hroom
      have hrest := ih hdefined.2 hstays.inside (hstays.hasRoom hroom)
      obtain ⟨before, event, htrace, hevent⟩ :=
        exists_trace_program (fun _ => allOf ops) hdefined.1 hinside hroom
      show ∀ record ∈ (run op cursor) :: runAll ops (run op cursor).2, _
      unfold allOf
      rw [htrace]
      refine List.forall_mem_cons.mpr ⟨⟨event, ?_, hevent⟩, fun record hrecord => ?_⟩
      · exact List.mem_append_right _ List.mem_cons_self
      · rcases hrest record hrecord with ⟨later, hlater, hsame⟩
        exact ⟨later, List.mem_append_right _ (List.mem_cons_of_mem _ hlater), hsame⟩

end CursorOp

/-- Whatever code does with a cursor, failing operations and nested transactions included, the
cursor stays inside the data, nothing panics, and what is behind the cursor and what is left add up
to the data. A single operation that fails leaves the cursor where it is, one that succeeds moves it
by its size, and a transaction that fails ends where it began. Operations written down as data end
in places that code with the same operations reaches. -/
theorem cursor_stays_inside (data : Bytes) (hroom : data.size + 1 < Bounded.positions) :
    (∀ program : CursorProgram, program.IsDefined →
      ∀ event ∈ program.trace { data := data },
        event.after.data = data ∧ event.after.pos ≤ data.size ∧
        event.after.remaining + event.after.pos = data.size ∧ event.Sound data.size) ∧
    ∀ ops : List CursorOp, CursorOp.AllDefined ops →
      (CursorOp.allOf ops).IsDefined ∧ ∀ record ∈ CursorOp.runAll ops { data := data },
        ∃ event ∈ (CursorOp.allOf ops).trace { data := data }, event.after = record.2 := by
  have hinside : Cursor.Inside { data := data } := Nat.zero_le data.size
  refine ⟨fun program hdefined event hevent => ?_, fun ops hdefined => ?_⟩
  · have ⟨hstays, hsound⟩ := CursorProgram.sound_trace hdefined hinside hroom event hevent
    have hle : event.after.pos ≤ event.after.data.size := hstays.inside
    rw [hstays.data] at hle
    refine ⟨hstays.data, hle, ?_, hsound⟩
    unfold Cursor.remaining
    rw [hstays.data]
    exact Nat.sub_add_cancel hle
  · exact ⟨CursorOp.isDefined_allOf hdefined,
      CursorOp.exists_event_of_mem_runAll hdefined hinside hroom⟩

/-- Three bytes, two of which a transaction takes before it fails. What follows begins in front of
them again, whether the operations are code or data. -/
theorem cursor_stays_inside_rolled_back :
    let data : Bytes := #[1, 2, 3]
    let body : CursorProgram :=
      .step (.take 2) fun _ => .step (.take 2) fun answer => .done (CursorOp.failure? answer)
    let program : CursorProgram := .transaction body fun _ =>
      .step (.advance 3) fun _ => .step .terminatedText fun _ => .done none
    let ops : List CursorOp := [.transaction [.single (.take 2), .single (.take 2)],
      .single (.advance 3), .single .terminatedText]
    (program.trace { data := data }).map (·.after.pos) = [2, 2, 0, 3, 3] ∧
      (∀ event ∈ program.trace { data := data },
        event.after.data = data ∧ event.after.pos ≤ data.size ∧
        event.after.remaining + event.after.pos = data.size ∧ event.Sound data.size) ∧
      (CursorOp.runAll ops { data := data }).map (·.2.pos) = [0, 3, 3] ∧
      ∀ record ∈ CursorOp.runAll ops { data := data },
        ∃ event ∈ (CursorOp.allOf ops).trace { data := data }, event.after = record.2 := by
  intro data body program ops
  have hroom : data.size + 1 < Bounded.positions := by decide
  have hprogram : program.IsDefined := by
    simp [program, body, CursorProgram.IsDefined, CursorStep.IsDefined]
  have hops : CursorOp.AllDefined ops := by
    simp [ops, CursorOp.AllDefined, CursorOp.IsDefined, CursorStep.IsDefined]
  exact ⟨by decide +kernel, (cursor_stays_inside data hroom).1 program hprogram, by decide +kernel,
    ((cursor_stays_inside data hroom).2 ops hops).2⟩

end AssemblyBrowser
