import Mathlib.Data.List.Perm.Basic
import AssemblyBrowser.Proofs.Server.Lines
import AssemblyBrowser.Proofs.Server.Schedules

/-!
# One response to each request

However the handlers are scheduled, every line that is not blank is answered once,
up to the first that asks the server to stop; no line behind that one is answered,
and the response to it is written last. What the server answers when it handles
one request after another is what one of these schedules leads to.
-/

namespace AssemblyBrowser.Server

/-!
## Responses
-/

/-- The id of the response to a line: that of the request, or null if there is no request. -/
def responseId (line : String) : Json := ((request? line).map Request.id).getD .null

/-- Whether a line asks the server to stop. -/
def stops (line : String) : Bool :=
  !isBlank line && (request? line).any (·.method == "shutdown")

/-- A line that is a JSON object with this id and with either a result or an error. -/
def IsResponse (id : Json) (text : String) : Prop :=
  OneLine text.toList ∧ ∃ response : Json, text = response.compact ∧
    response.field? "id" = some id.sorted ∧
    (response.field? "result").isSome ≠ (response.field? "error").isSome

theorem isResponse_responseLine (id : Json) (result : Except Fault Json) :
    IsResponse id (responseLine id result) := by
  refine ⟨Json.oneLine_compact _, _, rfl, ?_, ?_⟩
  · cases result <;> rfl
  · cases result with
    | ok result => exact Bool.false_ne_true.symm
    | error fault => exact Bool.false_ne_true

/-- The lines before the first that asks to stop are answered once each, the blank ones not at
all, in any order; behind all that follows the response to the line that asks to stop. -/
def EachAnswered (lines output : List String) : Prop :=
  ∃ responses earlier last, output = earlier ++ last ∧ responses.Perm earlier ∧
    List.Forall₂ (fun line => IsResponse (responseId line))
      ((lines.takeWhile (!stops ·)).filter (!isBlank ·)) responses ∧
    List.Forall₂ (fun line => IsResponse (responseId line)) (lines.find? stops).toList last

/-!
## Responses that are owed
-/

/-- The ids of the lines that have to be answered before the server can stop. -/
def askedIds (lines : List String) : List Json :=
  ((lines.takeWhile (!stops ·)).filter (!isBlank ·)).map responseId

/-- The id of the response that comes last. -/
def stopId? (lines : List String) : Option Json := (lines.find? stops).map responseId

theorem askedIds_of_blank {line : String} (rest : List String) (h : isBlank line = true) :
    askedIds (line :: rest) = askedIds rest ∧ stopId? (line :: rest) = stopId? rest := by
  have hstops : stops line = false := by rw [stops, h]; rfl
  simp [askedIds, stopId?, hstops, h]

theorem askedIds_of_asks {line : String} (rest : List String) (hblank : isBlank line = false)
    (hmethod : (request? line).any (·.method == "shutdown") = false) :
    askedIds (line :: rest) = responseId line :: askedIds rest ∧
      stopId? (line :: rest) = stopId? rest := by
  have hstops : stops line = false := by rw [stops, hmethod, Bool.and_false]
  simp [askedIds, stopId?, hstops, hblank]

theorem askedIds_of_stops {line : String} (rest : List String) (h : stops line = true) :
    askedIds (line :: rest) = [] ∧ stopId? (line :: rest) = some (responseId line) := by
  simp [askedIds, stopId?, h]

namespace State

/-- The ids of the responses that are still to be written before the last one. -/
def owed (state : State) : List Json :=
  state.running.map (·.request.id) ++ state.finished.map Prod.fst ++
    match state.phase with
    | .reading => askedIds state.unread
    | _ => []

/-- The id of the response that is still to be written last. -/
def owedLast (state : State) : Option Json :=
  match state.phase with
  | .reading => stopId? state.unread
  | .stopping id => some id
  | .closed => none

/-- What has been written and what is owed make up what was asked. -/
structure Accounted (lines : List String) (state : State) : Prop where
  isOpen : state.phase ≠ .closed
  asked : ∃ written, List.Forall₂ IsResponse written state.output ∧
    (written ++ state.owed).Perm (askedIds lines)
  last : state.owedLast = stopId? lines

theorem Accounted.start (navigator : Navigator) (lines : List String) :
    Accounted lines { navigator, unread := lines } where
  isOpen := by simp
  asked := ⟨[], .nil, .refl _⟩
  last := rfl

/-- A step that writes a response owes one less. -/
theorem Accounted.write {lines : List String} {state next : State}
    (h : Accounted lines state) (hopen : next.phase ≠ .closed) {id : Json}
    {result : Except Fault Json} (houtput : next.output = state.output ++ [responseLine id result])
    (howed : (id :: next.owed).Perm state.owed) (hlast : next.owedLast = state.owedLast) :
    Accounted lines next where
  isOpen := hopen
  asked := by
    obtain ⟨written, hwritten, hperm⟩ := h.asked
    refine ⟨written ++ [id], ?_, ?_⟩
    · rw [houtput]
      exact List.rel_append hwritten (.cons (isResponse_responseLine id result) .nil)
    · rw [List.append_assoc, List.singleton_append]
      exact (howed.append_left written).trans hperm
  last := hlast.trans h.last

/-- A step that writes nothing owes what was owed. -/
theorem Accounted.keep {lines : List String} {state next : State} (h : Accounted lines state)
    (hopen : next.phase ≠ .closed) (houtput : next.output = state.output)
    (howed : next.owed.Perm state.owed) (hlast : next.owedLast = state.owedLast) :
    Accounted lines next where
  isOpen := hopen
  asked := by
    obtain ⟨written, hwritten, hperm⟩ := h.asked
    exact ⟨written, houtput ▸ hwritten, (howed.append_left written).trans hperm⟩
  last := hlast.trans h.last

theorem Accounted.receive {lines : List String} {state : State} {line : String}
    {rest : List String} (h : Accounted lines state) (hphase : state.phase = .reading)
    (hunread : state.unread = line :: rest) :
    Accounted lines ({ state with unread := rest }.receive line) := by
  have howed : state.owed = state.running.map (·.request.id) ++ state.finished.map Prod.fst ++
      askedIds (line :: rest) := by simp only [owed, hphase, hunread]
  have howedLast : state.owedLast = stopId? (line :: rest) := by
    simp only [owedLast, hphase, hunread]
  generalize hnext : { state with unread := rest }.receive line = next
  cases hnext ▸ State.receives { state with unread := rest } line with
  | blank hblank =>
      obtain ⟨hasked, hlast⟩ := askedIds_of_blank rest hblank
      refine h.keep (by simp [hphase]) rfl ?_ ?_
      · rw [howed, hasked]
        simp only [owed, hphase, List.Perm.refl]
      · rw [howedLast, hlast]
        simp only [owedLast, hphase]
  | answered id result next hblank hid hmethod hsame hunread' hrunning hfinished houtput =>
      obtain ⟨hasked, hlast⟩ := askedIds_of_asks rest hblank hmethod
      refine h.write (by simp [hsame, hphase]) houtput ?_ ?_
      · rw [howed, hasked, hid, ← responseId]
        simp only [owed, hsame, hphase, hunread', hrunning, hfinished]
        exact List.perm_middle.symm
      · rw [howedLast, hlast]
        simp only [owedLast, hsame, hphase, hunread']
  | stopping request cancelled hblank hrequest hmethod =>
      have hstops : stops line = true := by simp [stops, hblank, hrequest, hmethod]
      obtain ⟨hasked, hlast⟩ := askedIds_of_stops rest hstops
      refine h.keep (by simp) rfl ?_ ?_
      · rw [howed, hasked]
        simp only [owed, List.Perm.refl]
      · rw [howedLast, hlast, responseId, hrequest]
        rfl
  | spawned request hblank hrequest hmethod =>
      obtain ⟨hasked, hlast⟩ := askedIds_of_asks rest hblank (by simp [hrequest, hmethod])
      refine h.keep (by simp [spawn, hphase]) rfl ?_ ?_
      · have hid : responseId line = request.id := by rw [responseId, hrequest]; rfl
        rw [howed, hasked, hid]
        simp only [owed, spawn, hphase, List.map_append, List.map_singleton, List.append_assoc,
          List.singleton_append]
        refine List.Perm.append_left _ ?_
        exact List.perm_middle.symm
      · rw [howedLast, hlast]
        simp only [owedLast, spawn, hphase]

/-- The server has closed after all that it owed. -/
structure Settled (lines : List String) (state : State) : Prop where
  closed : state.phase = .closed
  quiet : state.Quiet
  answered : EachAnswered lines state.output

theorem owed_eq_nil {state : State} (hquiet : state.Quiet)
    (h : state.phase = .reading → state.unread = []) : state.owed = [] := by
  unfold owed
  rw [hquiet.running, hquiet.finished]
  cases hphase : state.phase with
  | reading => rw [h hphase]; rfl
  | stopping id => rfl
  | closed => rfl

/-- When nothing is owed but the last response, that one completes the output. -/
theorem Accounted.eachAnswered {lines : List String} {state : State} (h : Accounted lines state)
    (howed : state.owed = []) {last : List String}
    (hlast : List.Forall₂ IsResponse state.owedLast.toList last) :
    EachAnswered lines (state.output ++ last) := by
  obtain ⟨written, hwritten, hperm⟩ := h.asked
  rw [howed, List.append_nil] at hperm
  obtain ⟨responses, hresponses, hsame⟩ := List.perm_comp_forall₂ hperm.symm hwritten
  rw [askedIds, List.forall₂_map_left_iff] at hresponses
  rw [h.last, stopId?, Option.toList_map, List.forall₂_map_left_iff] at hlast
  exact ⟨responses, state.output, last, rfl, hsame, hresponses, hlast⟩

/-- A step keeps the account, or closes it. -/
theorem Accounted.step {handling : Handling} {lines : List String} {state next : State}
    (h : Accounted lines state) (hstep : Step handling state next) :
    Accounted lines next ∨ Settled lines next := by
  cases hstep with
  | read line rest hphase hunread => exact .inl (h.receive hphase hunread)
  | finish before after job left result hrunning =>
      refine .inl (h.keep h.isOpen rfl ?_ rfl)
      simp only [owed, finish, hrunning, List.map_append, List.map_cons, List.map_nil,
        List.append_assoc, List.cons_append]
      refine List.Perm.append_left _ ?_
      rw [← List.append_assoc, ← List.append_assoc]
      exact List.perm_middle
  | write before after id result hfinished =>
      refine .inl (h.write h.isOpen rfl ?_ rfl)
      simp only [owed, emit, hfinished, List.map_append, List.map_cons, List.append_assoc,
        List.cons_append]
      refine List.perm_middle.symm.trans (List.Perm.append_left _ ?_)
      exact List.perm_middle.symm
  | stop id hphase hquiet =>
      have howed := owed_eq_nil hquiet fun hreading => by rw [hphase] at hreading; cases hreading
      have hlast : state.owedLast = some id := by simp only [owedLast, hphase]
      exact .inr ⟨rfl, ⟨hquiet.running, hquiet.finished⟩, h.eachAnswered howed
        (hlast ▸ .cons (isResponse_responseLine id _) .nil)⟩
  | leave hphase hunread hquiet =>
      have howed := owed_eq_nil hquiet fun _ => hunread
      have hlast : state.owedLast = none := by simp only [owedLast, hphase, hunread]; rfl
      have hanswered : EachAnswered lines (state.output ++ []) :=
        h.eachAnswered howed (by rw [hlast]; exact .nil)
      rw [List.append_nil] at hanswered
      exact .inr ⟨rfl, ⟨hquiet.running, hquiet.finished⟩, hanswered⟩

end State

end AssemblyBrowser.Server
