import Mathlib.Logic.Relation
import Mathlib.Tactic.SplitIfs
import AssemblyBrowser.CommandLine.Server

/-!
# Requests handled side by side

Lines are read one after another. What the server can answer by itself it answers
before it reads on; every other request goes to a handler of its own. Handlers
finish in any order, and in any order their responses are written. The response
to a shutdown waits until all of them are done.
-/

namespace AssemblyBrowser.Server

def isBlank (line : String) : Bool := (Blank.trim line).isEmpty

def request? (line : String) : Option Request := (Json.parse? line).bind Request.ofJson?

/-- A request that a handler works on. The number tells it from others with the same id. -/
structure Job where
  number : Nat
  request : Request

/-- How far the server has come with its lines. -/
inductive Phase where
  | reading
  /-- A request with this id has asked the server to stop. -/
  | stopping (id : Json)
  | closed

/-- The number of steps with which the work is going to end. -/
def Phase.left : Phase → Nat
  | .closed => 0
  | _ => 1

/-- What the handlers share, what they are at, and the lines before and behind the server. -/
structure State where
  navigator : Navigator
  unread : List String
  phase : Phase := .reading
  /-- The number of the next job. -/
  nextJob : Nat := 0
  running : List Job := []
  /-- Answers that have still to be written, with the ids of their requests. -/
  finished : List (Json × Except Fault Json) := []
  /-- The jobs that can be cancelled, by the texts of their ids. -/
  pending : List (String × Nat) := []
  cancelled : List Nat := []
  output : List String := []

/-- What can come of a request that is handled with a navigator, cancelled or not: the navigator
that is left, and the answer. -/
abbrev Handling :=
  (before : Navigator) → Request → (cancelled : Bool) → (left : Navigator) →
    Except Fault Json → Prop

/-- Whether handlers return, whatever they are asked. -/
def Handling.Returns (handling : Handling) : Prop :=
  ∀ before request cancelled, ∃ left result, handling before request cancelled left result

/-- The text under which a request can be cancelled. -/
def idText (id : Json) : String := id.sorted.compact

/-- The jobs under other ids. -/
def forget (id : Json) (pending : List (String × Nat)) : List (String × Nat) :=
  pending.filter (·.1 != idText id)

/-- Searches are the requests that can be cancelled. -/
def Request.isTracked (request : Request) : Bool := request.method == "search"

namespace State

def emit (state : State) (id : Json) (result : Except Fault Json) : State :=
  { state with output := state.output ++ [responseLine id result] }

/-- Cancels the job that was started last under the id which the parameters name. -/
def cancel (state : State) (id params : Json) : State :=
  match onlyField "id" some params with
  | .ok target =>
      let job := state.pending.lookup (idText target)
      { state with cancelled := job.toList ++ state.cancelled }.emit id
        (.ok (.object [("cancelled", .boolean job.isSome)]))
  | .error fault => state.emit id (.error fault)

/-- Gives a request to a handler. -/
def spawn (state : State) (request : Request) : State :=
  { state with
    nextJob := state.nextJob + 1
    running := state.running ++ [⟨state.nextJob, request⟩]
    pending :=
      if request.isTracked then
        (idText request.id, state.nextJob) :: forget request.id state.pending
      else state.pending }

/-- Sets about a line that has been read. -/
def receive (state : State) (line : String) : State :=
  if isBlank line then state
  else
    match request? line with
    | none => state.emit .null (.error .unreadable)
    | some request =>
        if request.method = "shutdown" then
          { state with
            phase := .stopping request.id
            cancelled := state.pending.map Prod.snd ++ state.cancelled }
        else if request.method = "cancelRequest" then state.cancel request.id request.params
        else state.spawn request

/-- Takes the answer of a job, which can be cancelled no more. -/
def finish (state : State) (others : List Job) (job : Job) (left : Navigator)
    (result : Except Fault Json) : State :=
  { state with
    navigator := left
    running := others
    finished := state.finished ++ [(job.request.id, result)]
    pending :=
      if job.request.isTracked then forget job.request.id state.pending else state.pending }

/-- All handlers are done and all their responses are written. -/
structure Quiet (state : State) : Prop where
  running : state.running = []
  finished : state.finished = []

/-- The server reads a line, one of the handlers returns, one of the answers is written, or the
work ends: after a shutdown with the response to it, else when there are no more lines. -/
inductive Step (handling : Handling) : State → State → Prop where
  | read (state : State) (line : String) (rest : List String) (hphase : state.phase = .reading)
      (hunread : state.unread = line :: rest) :
      Step handling state ({ state with unread := rest }.receive line)
  | finish (state : State) (before after : List Job) (job : Job) (left : Navigator)
      (result : Except Fault Json) (hrunning : state.running = before ++ job :: after)
      (hresult : handling state.navigator job.request (state.cancelled.contains job.number)
        left result) :
      Step handling state (state.finish (before ++ after) job left result)
  | write (state : State) (before after : List (Json × Except Fault Json)) (id : Json)
      (result : Except Fault Json) (hfinished : state.finished = before ++ (id, result) :: after) :
      Step handling state ({ state with finished := before ++ after }.emit id result)
  | stop (state : State) (id : Json) (hphase : state.phase = .stopping id)
      (hquiet : state.Quiet) :
      Step handling state ({ state with phase := .closed }.emit id (.ok (.object [])))
  | leave (state : State) (hphase : state.phase = .reading) (hunread : state.unread = [])
      (hquiet : state.Quiet) : Step handling state { state with phase := .closed }

@[simp]
theorem phase_cancel (state : State) (id params : Json) :
    (state.cancel id params).phase = state.phase := by
  unfold cancel
  split <;> rfl

@[simp]
theorem unread_cancel (state : State) (id params : Json) :
    (state.cancel id params).unread = state.unread := by
  unfold cancel
  split <;> rfl

@[simp]
theorem running_cancel (state : State) (id params : Json) :
    (state.cancel id params).running = state.running := by
  unfold cancel
  split <;> rfl

@[simp]
theorem finished_cancel (state : State) (id params : Json) :
    (state.cancel id params).finished = state.finished := by
  unfold cancel
  split <;> rfl

theorem exists_output_cancel (state : State) (id params : Json) :
    ∃ result, (state.cancel id params).output = state.output ++ [responseLine id result] := by
  unfold cancel
  split
  · exact ⟨_, rfl⟩
  · exact ⟨_, rfl⟩

/-- A line is blank, is answered at once, asks the server to stop, or goes to a handler. -/
inductive Receives (state : State) (line : String) : State → Prop where
  | blank (hblank : isBlank line = true) : Receives state line state
  | answered (id : Json) (result : Except Fault Json) (next : State)
      (hblank : isBlank line = false)
      (hid : id = ((request? line).map Request.id).getD .null)
      (hmethod : (request? line).any (·.method == "shutdown") = false)
      (hphase : next.phase = state.phase) (hunread : next.unread = state.unread)
      (hrunning : next.running = state.running) (hfinished : next.finished = state.finished)
      (houtput : next.output = state.output ++ [responseLine id result]) :
      Receives state line next
  | stopping (request : Request) (cancelled : List Nat) (hblank : isBlank line = false)
      (hrequest : request? line = some request) (hmethod : request.method = "shutdown") :
      Receives state line { state with phase := .stopping request.id, cancelled }
  | spawned (request : Request) (hblank : isBlank line = false)
      (hrequest : request? line = some request) (hmethod : request.method ≠ "shutdown") :
      Receives state line (state.spawn request)

theorem receives (state : State) (line : String) : Receives state line (state.receive line) := by
  unfold receive
  split_ifs with hblank
  · exact .blank hblank
  · have hblank : isBlank line = false := by simpa using hblank
    cases hrequest : request? line with
    | none =>
        exact .answered .null _ _ hblank (by rw [hrequest]; rfl) (by rw [hrequest]; rfl)
          rfl rfl rfl rfl rfl
    | some request =>
        dsimp only
        split_ifs with hstop hcancel
        · exact .stopping request _ hblank hrequest hstop
        · obtain ⟨result, houtput⟩ := state.exists_output_cancel request.id request.params
          exact .answered request.id result _ hblank (by rw [hrequest]; rfl)
            (by simpa [hrequest] using hstop) (phase_cancel ..) (unread_cancel ..)
            (running_cancel ..) (finished_cancel ..) houtput
        · exact .spawned request hblank hrequest hstop

/-!
## Runs come to an end
-/

/-- The number of steps that are left, at most. -/
def size (state : State) : Nat :=
  3 * state.unread.length + 2 * state.running.length + state.finished.length + state.phase.left

theorem size_receive_le {state : State} (hphase : state.phase = .reading) (line : String) :
    (state.receive line).size ≤ state.size + 2 := by
  generalize hnext : state.receive line = next
  cases hnext ▸ state.receives line with
  | blank => exact Nat.le_add_right _ 2
  | answered id result next _ _ _ hsame hunread hrunning hfinished =>
      rw [size, hsame, hunread, hrunning, hfinished, ← size]
      exact Nat.le_add_right _ 2
  | stopping request cancelled =>
      simp only [size, hphase, Phase.left]
      exact Nat.le_add_right _ 2
  | spawned request =>
      simp only [size, spawn, List.length_append, List.length_singleton]
      omega

theorem size_lt_of_step {handling : Handling} {state next : State}
    (h : Step handling state next) : next.size < state.size := by
  cases h with
  | read line rest hphase hunread =>
      have hsize : state.size = ({ state with unread := rest } : State).size + 3 := by
        simp only [size, hunread, List.length_cons]
        omega
      have hreading : ({ state with unread := rest } : State).phase = .reading := hphase
      have hle := size_receive_le hreading line
      omega
  | finish before after job left result hrunning =>
      simp only [size, finish, hrunning, List.length_append, List.length_cons, List.length_nil]
      omega
  | write before after id result hfinished =>
      simp only [size, emit, hfinished, List.length_append, List.length_cons]
      omega
  | stop id hphase hquiet =>
      simp only [size, emit, hphase, Phase.left]
      omega
  | leave hphase hunread hquiet =>
      simp only [size, hphase, Phase.left]
      omega

/-- The server is never stuck before it has closed. -/
theorem exists_step {handling : Handling} (hreturns : handling.Returns) {state : State}
    (hopen : state.phase ≠ .closed) : ∃ next, Step handling state next := by
  cases hrunning : state.running with
  | cons job after =>
      obtain ⟨left, result, hresult⟩ :=
        hreturns state.navigator job.request (state.cancelled.contains job.number)
      exact ⟨_, .finish state [] after job left result hrunning hresult⟩
  | nil =>
      cases hfinished : state.finished with
      | cons answer after => exact ⟨_, .write state [] after answer.1 answer.2 hfinished⟩
      | nil =>
          cases hphase : state.phase with
          | closed => exact absurd hphase hopen
          | stopping id => exact ⟨_, .stop state id hphase ⟨hrunning, hfinished⟩⟩
          | reading =>
              cases hunread : state.unread with
              | cons line rest => exact ⟨_, .read state line rest hphase hunread⟩
              | nil => exact ⟨_, .leave state hphase hunread ⟨hrunning, hfinished⟩⟩

end State

/-!
## Requests handled one after another

The server as a function of its lines takes the schedule in which every request is
handled and answered before the next line is read.
-/

section Reply

variable (navigator : Navigator) {line : String}

variable {request : Request}

end Reply

namespace State

/-- Nothing is under way. -/
structure Idle (state : State) : Prop extends state.Quiet where
  phase : state.phase = .reading
  pending : state.pending = []

variable {state : State} {line : String} {rest : List String}

theorem Idle.skip (h : state.Idle) (rest : List String) :
    ({ state with unread := rest } : State).Idle :=
  ⟨⟨h.running, h.finished⟩, h.phase, h.pending⟩

end State
end AssemblyBrowser.Server
