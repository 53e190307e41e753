import Mathlib.Algebra.Order.BigOperators.Group.Finset
import Mathlib.Logic.Relation
import AssemblyBrowser.Proofs.Opening

/-!
# Requests of many clients

Clients wish archives to be opened, each in its own order, and put their requests
into one queue. The worker takes them out one after another and answers each.
However the requests mix, one of those that wish an archive for its own sake
opens it or takes it over, and the others learn that it is open.
-/

namespace AssemblyBrowser

/-- A wish to open an archive, on behalf of `parent` or for its own sake. -/
structure OpenRequest where
  path : String
  parent : Option String := none

/-- An answer to a request, for the path that the worker took it to mean, with the stores that it
had before and afterwards. -/
structure OpenReply (clients : Nat) where
  client : Fin clients
  request : OpenRequest
  path : String
  outcome : AddOutcome
  before : Store
  after : Store

/-- How the worker answers a request. -/
def OpenReply.ofWorker {clients : Nat} (worker : Worker) (source : ArchiveSource)
    (client : Fin clients) (request : OpenRequest) : OpenReply clients :=
  let (after, outcome) := worker.add source request.path request.parent
  { client, request, path := source.normalize request.path, outcome
    before := worker.store, after := after.store }

/-- The reply is to a wish to open the archive of a path for its own sake. -/
def OpenReply.IsExplicitFor {clients : Nat} (reply : OpenReply clients) (path : String) : Prop :=
  reply.request.parent = none ∧ reply.path = path

instance {clients : Nat} (reply : OpenReply clients) (path : String) :
    Decidable (reply.IsExplicitFor path) :=
  inferInstanceAs (Decidable (_ ∧ _))

/-- The reply says that the archive of a path is now open for its own sake and was not before. -/
def OpenReply.wins {clients : Nat} (path : String) (reply : OpenReply clients) : Bool :=
  decide (reply.IsExplicitFor path) && reply.outcome.added

/-- What the clients have still to ask, the queue, the worker, and the replies so far. -/
structure RequestState (clients : Nat) where
  waiting : Fin clients → List OpenRequest
  queue : List (Fin clients × OpenRequest) := []
  worker : Worker
  replies : List (OpenReply clients) := []

namespace RequestState

variable {clients : Nat}

def start (sessionFile : Option String) (files : FileSystem)
    (requests : Fin clients → List OpenRequest) : RequestState clients :=
  { waiting := requests, worker := .start sessionFile files }

/-- A client puts a request at the end of the queue. -/
def send (state : RequestState clients) (client : Fin clients) (request : OpenRequest)
    (rest : List OpenRequest) : RequestState clients :=
  { state with
    waiting := Function.update state.waiting client rest
    queue := state.queue ++ [(client, request)] }

/-- The worker answers a request among the files that are there by then. -/
def serve (state : RequestState clients) (source : ArchiveSource) (client : Fin clients)
    (request : OpenRequest) (rest : List (Fin clients × OpenRequest)) : RequestState clients :=
  let worker := { state.worker with files := source.files }
  { waiting := state.waiting
    queue := rest
    worker := (worker.add source request.path request.parent).1
    replies := state.replies ++ [OpenReply.ofWorker worker source client request] }

/-- A client sends its next request, or the worker answers the first one in the queue. -/
inductive Step (world : (turn : Nat) → ArchiveSource) :
    RequestState clients → RequestState clients → Prop where
  | send (state : RequestState clients) (client : Fin clients) (request : OpenRequest)
      (rest : List OpenRequest) (hwaiting : state.waiting client = request :: rest) :
      Step world state (state.send client request rest)
  | serve (state : RequestState clients) (client : Fin clients) (request : OpenRequest)
      (rest : List (Fin clients × OpenRequest)) (hqueue : state.queue = (client, request) :: rest) :
      Step world state (state.serve (world state.replies.length) client request rest)

/-- Nothing is left to ask or to answer. -/
structure Done (state : RequestState clients) : Prop where
  waiting : ∀ client, state.waiting client = []
  queue : state.queue = []

/-- The requests of a client that have been answered. -/
def answered (state : RequestState clients) (client : Fin clients) : List OpenRequest :=
  (state.replies.filter (·.client = client)).map OpenReply.request

/-- The requests of a client that are in the queue. -/
def queued (state : RequestState clients) (client : Fin clients) : List OpenRequest :=
  (state.queue.filter (·.1 = client)).map (·.2)

/-- Whether a path in canonical form can be loaded is the same at every turn. -/
def LoadsByPath (world : (turn : Nat) → ArchiveSource) (loads : String → Prop) : Prop :=
  ∀ turn path, loads ((world turn).normalize path) ↔
    ∃ contents, (world turn).load ((world turn).normalize path) = .ok contents

/-!
## Runs come to an end
-/

/-- The number of steps that are left. -/
def size (state : RequestState clients) : Nat :=
  2 * ∑ client, (state.waiting client).length + state.queue.length

theorem size_lt_of_step {world : Nat → ArchiveSource} {state next : RequestState clients}
    (h : Step world state next) : next.size < state.size := by
  cases h with
  | send client request rest hwaiting =>
      have hsum : ∑ other, (Function.update state.waiting client rest other).length <
          ∑ other, (state.waiting other).length := by
        refine Finset.sum_lt_sum (fun other _ => ?_) ⟨client, Finset.mem_univ client, ?_⟩
        · by_cases hother : other = client
          · rw [hother, Function.update_self, hwaiting]
            exact Nat.le_succ _
          · rw [Function.update_of_ne hother]
        · rw [Function.update_self, hwaiting]
          exact Nat.lt_succ_self _
      simp only [size, send, List.length_append, List.length_singleton]
      omega
  | serve client request rest hqueue =>
      simp only [size, serve, hqueue, List.length_cons]
      omega

theorem exists_step (world : Nat → ArchiveSource) {state : RequestState clients}
    (h : ¬ state.Done) : ∃ next, Step world state next := by
  cases hqueue : state.queue with
  | cons first rest => exact ⟨_, .serve state first.1 first.2 rest hqueue⟩
  | nil =>
      have hwaiting : ∃ client, state.waiting client ≠ [] := by
        by_contra hnone
        push Not at hnone
        exact h ⟨hnone, hqueue⟩
      rcases hwaiting with ⟨client, hclient⟩
      rcases List.exists_cons_of_ne_nil hclient with ⟨request, rest, hrequest⟩
      exact ⟨_, .send state client request rest hrequest⟩

/-- Every run can be carried on until all is done. -/
theorem exists_done (world : Nat → ArchiveSource) (state : RequestState clients) :
    ∃ last, Relation.ReflTransGen (Step world) state last ∧ last.Done := by
  induction hsize : state.size using Nat.strong_induction_on generalizing state with
  | _ size ih =>
      by_cases hdone : state.Done
      · exact ⟨state, .refl, hdone⟩
      · rcases exists_step world hdone with ⟨next, hstep⟩
        rcases ih next.size (hsize ▸ size_lt_of_step hstep) next rfl with ⟨last, hrun, hlast⟩
        exact ⟨last, .head hstep hrun, hlast⟩

/-!
## One step
-/

variable {world : Nat → ArchiveSource} {loads : String → Prop}
  {requests : Fin clients → List OpenRequest}

/-- What holds between steps: no request is lost, and the store is what the replies say. -/
structure Orderly (world : Nat → ArchiveSource) (loads : String → Prop)
    (requests : Fin clients → List OpenRequest) (state : RequestState clients) : Prop where
  wellFormed : state.worker.store.WellFormed
  requests_eq : ∀ client,
    state.answered client ++ state.queued client ++ state.waiting client = requests client
  path_eq : ∀ turn (hturn : turn < state.replies.length),
    state.replies[turn].path = (world turn).normalize state.replies[turn].request.path
  mem_paths : ∀ path, path ∈ state.worker.store.paths ↔
    loads path ∧ ∃ reply ∈ state.replies, reply.path = path
  mem_explicitPaths : ∀ path, path ∈ state.worker.store.explicitPaths ↔
    loads path ∧ ∃ reply ∈ state.replies, reply.IsExplicitFor path
  added_iff : ∀ path, ∀ reply ∈ state.replies, reply.IsExplicitFor path →
    (reply.outcome.added = true ↔
      path ∉ reply.before.explicitPaths ∧ path ∈ reply.after.explicitPaths)
  countP_wins : ∀ path, state.replies.countP (OpenReply.wins path) =
    if path ∈ state.worker.store.explicitPaths then 1 else 0
  summary_eq : ∀ path, loads path → ∀ reply ∈ state.replies, reply.IsExplicitFor path →
    ∃ archive ∈ state.worker.store.archives, archive.path = path ∧
      archive.autoLoaded = false ∧ reply.outcome.summary = some archive.summary

theorem start_orderly (world : Nat → ArchiveSource) (loads : String → Prop)
    (requests : Fin clients → List OpenRequest) (sessionFile : Option String)
    (files : FileSystem) : Orderly world loads requests (start sessionFile files requests) where
  wellFormed := Store.empty_wellFormed
  requests_eq _ := rfl
  path_eq _ hturn := absurd hturn (Nat.not_lt_zero _)
  mem_paths path := by simp [start, Worker.start, Store.paths]
  mem_explicitPaths path := by simp [start, Worker.start, Store.explicitPaths]
  added_iff _ _ hmem := absurd hmem List.not_mem_nil
  countP_wins path := by simp [start, Worker.start, Store.explicitPaths]
  summary_eq _ _ _ hmem := absurd hmem List.not_mem_nil

/-- A request that is sent goes from those to be asked to the end of the queue. -/
theorem requests_eq_of_send (state : RequestState clients) {client : Fin clients}
    {request : OpenRequest} {rest : List OpenRequest}
    (hwaiting : state.waiting client = request :: rest) (other : Fin clients) :
    (state.send client request rest).queued other ++
        (state.send client request rest).waiting other =
      state.queued other ++ state.waiting other := by
  simp only [send, queued, List.filter_append, List.map_append, List.append_assoc]
  congr 1
  by_cases hother : client = other
  · cases hother
    simp [hwaiting]
  · simp [hother, Function.update_of_ne (Ne.symm hother)]

/-- A request that is answered goes from the front of the queue to those answered. -/
theorem requests_eq_of_serve (state : RequestState clients) (source : ArchiveSource)
    {client : Fin clients} {request : OpenRequest} {rest : List (Fin clients × OpenRequest)}
    (hqueue : state.queue = (client, request) :: rest) (other : Fin clients) :
    (state.serve source client request rest).answered other ++
        (state.serve source client request rest).queued other =
      state.answered other ++ state.queued other := by
  simp only [answered, queued, serve, hqueue, List.filter_append, List.map_append,
    List.append_assoc]
  congr 1
  by_cases hother : client = other <;> simp [OpenReply.ofWorker, hother]

theorem adds_ofWorker (worker : Worker) (hworker : worker.store.WellFormed)
    (source : ArchiveSource) (client : Fin clients) (request : OpenRequest) :
    let reply := OpenReply.ofWorker worker source client request
    worker.store.Adds source request.path request.parent reply.after reply.outcome := by
  have hadds := Store.adds_add hworker source request.path request.parent
  simp only [OpenReply.ofWorker, Worker.add, Worker.store_publish]
  exact hadds

/-- What a path that is open for its own sake has won, it has won once. -/
theorem countP_wins_append {replies : List (OpenReply clients)} {reply : OpenReply clients}
    {path : String}
    (hbefore : replies.countP (OpenReply.wins path) =
      if path ∈ reply.before.explicitPaths then 1 else 0)
    (hafter : path ∈ reply.after.explicitPaths ↔
      path ∈ reply.before.explicitPaths ∨ reply.IsExplicitFor path ∧ loads path)
    (hadded : reply.IsExplicitFor path → (reply.outcome.added = true ↔
      path ∉ reply.before.explicitPaths ∧ path ∈ reply.after.explicitPaths)) :
    (replies ++ [reply]).countP (OpenReply.wins path) =
      if path ∈ reply.after.explicitPaths then 1 else 0 := by
  have hwins : OpenReply.wins path reply = true ↔
      path ∉ reply.before.explicitPaths ∧ path ∈ reply.after.explicitPaths := by
    unfold OpenReply.wins
    rw [Bool.and_eq_true, decide_eq_true_iff]
    constructor
    · exact fun hwins => (hadded hwins.1).mp hwins.2
    · intro hnew
      have hexplicit : reply.IsExplicitFor path := ((hafter.mp hnew.2).resolve_left hnew.1).1
      exact ⟨hexplicit, (hadded hexplicit).mpr hnew⟩
  rw [List.countP_append, List.countP_singleton, hbefore]
  by_cases hopen : path ∈ reply.before.explicitPaths
  · have hstill : path ∈ reply.after.explicitPaths := hafter.mpr (.inl hopen)
    rw [if_pos hopen, if_pos hstill, if_neg fun hwin => (hwins.mp hwin).1 hopen]
  · by_cases hnew : path ∈ reply.after.explicitPaths
    · rw [if_neg hopen, if_pos hnew, if_pos (hwins.mpr ⟨hopen, hnew⟩)]
    · rw [if_neg hopen, if_neg hnew, if_neg fun hwin => hnew (hwins.mp hwin).2]

theorem path_eq_append {replies : List (OpenReply clients)} {reply : OpenReply clients}
    (hbefore : ∀ turn (hturn : turn < replies.length),
      replies[turn].path = (world turn).normalize replies[turn].request.path)
    (hreply : reply.path = (world replies.length).normalize reply.request.path)
    (turn : Nat) (hturn : turn < (replies ++ [reply]).length) :
    (replies ++ [reply])[turn].path =
      (world turn).normalize (replies ++ [reply])[turn].request.path := by
  rcases Nat.lt_or_ge turn replies.length with hold | hlast
  · rw [List.getElem_append_left hold]
    exact hbefore turn hold
  · have hsame : turn = replies.length := by
      rw [List.length_append, List.length_singleton] at hturn
      omega
    cases hsame
    rw [List.getElem_concat_length rfl]
    exact hreply

/-- One more reply of a kind makes one more path open, if that can be loaded. -/
theorem open_iff_append {replies : List (OpenReply clients)} {reply : OpenReply clients}
    {kind : OpenReply clients → Prop} {openBefore openAfter loadable : Prop}
    (hbefore : openBefore ↔ loadable ∧ ∃ reply ∈ replies, kind reply)
    (hafter : openAfter ↔ openBefore ∨ kind reply ∧ loadable) :
    openAfter ↔ loadable ∧ ∃ other ∈ replies ++ [reply], kind other := by
  rw [hafter, hbefore, and_comm (a := kind reply), ← and_or_left]
  refine and_congr_right fun _ => ?_
  simp only [List.mem_append, List.mem_singleton, or_and_right, exists_or, exists_eq_left]

theorem Orderly.serve {state : RequestState clients} (h : state.Orderly world loads requests)
    (hworld : LoadsByPath world loads) {client : Fin clients} {request : OpenRequest}
    {rest : List (Fin clients × OpenRequest)} (hqueue : state.queue = (client, request) :: rest) :
    (state.serve (world state.replies.length) client request rest).Orderly world loads
      requests := by
  let source := world state.replies.length
  let worker : Worker := { state.worker with files := source.files }
  let reply := OpenReply.ofWorker worker source client request
  have hadds : worker.store.Adds source request.path request.parent reply.after reply.outcome :=
    adds_ofWorker worker h.wellFormed source client request
  have hload := hworld state.replies.length request.path
  have hpaths (path : String) : path ∈ reply.after.paths ↔
      path ∈ worker.store.paths ∨ reply.path = path ∧ loads path := by
    rw [hadds.mem_paths hload path]
    refine or_congr Iff.rfl ⟨?_, ?_⟩ <;> (rintro ⟨rfl, hloads⟩; exact ⟨rfl, hloads⟩)
  have hexplicitPaths (path : String) : path ∈ reply.after.explicitPaths ↔
      path ∈ worker.store.explicitPaths ∨ reply.IsExplicitFor path ∧ loads path := by
    rw [hadds.mem_explicitPaths_iff hload
      (fun other hmem => ((h.mem_paths other).mp hmem).1) path]
    refine or_congr Iff.rfl ⟨?_, ?_⟩
    · rintro ⟨rfl, hparent, hloads⟩
      exact ⟨⟨hparent, rfl⟩, hloads⟩
    · rintro ⟨⟨hparent, rfl⟩, hloads⟩
      exact ⟨rfl, hparent, hloads⟩
  have hadded (path : String) (hexplicit : reply.IsExplicitFor path) :
      reply.outcome.added = true ↔
        path ∉ reply.before.explicitPaths ∧ path ∈ reply.after.explicitPaths := by
    rcases hexplicit with ⟨hparent, rfl⟩
    have hparent : request.parent = none := hparent
    rw [hparent] at hadds
    exact hadds.added_iff h.wellFormed
  exact {
    wellFormed := hadds.wellFormed h.wellFormed
    requests_eq := fun other => by
      rw [requests_eq_of_serve state source hqueue]
      exact h.requests_eq other
    path_eq := path_eq_append h.path_eq rfl
    mem_paths := fun path => open_iff_append (h.mem_paths path) (hpaths path)
    mem_explicitPaths := fun path =>
      open_iff_append (h.mem_explicitPaths path) (hexplicitPaths path)
    added_iff := fun path other hmem hexplicit => by
      rcases List.mem_append.mp hmem with hmem | hlast
      · exact h.added_iff path other hmem hexplicit
      · rw [List.mem_singleton.mp hlast] at hexplicit ⊢
        exact hadded path hexplicit
    countP_wins := fun path =>
      countP_wins_append (h.countP_wins path) (hexplicitPaths path) (hadded path)
    summary_eq := fun path hloads other hmem hexplicit => by
      rcases List.mem_append.mp hmem with hmem | hlast
      · rcases h.summary_eq path hloads other hmem hexplicit with
          ⟨archive, harchive, hpath, hauto, hsummary⟩
        exact ⟨archive, hadds.mem_of_explicit harchive hauto, hpath, hauto, hsummary⟩
      · rw [List.mem_singleton.mp hlast] at hexplicit ⊢
        rcases hexplicit with ⟨hparent, rfl⟩
        have hparent : request.parent = none := hparent
        rw [hparent] at hadds
        exact hadds.summary_eq hload hloads }

theorem Orderly.step {state next : RequestState clients} (h : state.Orderly world loads requests)
    (hworld : LoadsByPath world loads) (hstep : Step world state next) :
    next.Orderly world loads requests := by
  cases hstep with
  | send client request rest hwaiting =>
      refine { h with requests_eq := fun other => ?_ }
      rw [← h.requests_eq other, List.append_assoc, List.append_assoc]
      exact congrArg (state.answered other ++ ·) (requests_eq_of_send state hwaiting other)
  | serve client request rest hqueue => exact h.serve hworld hqueue

/-!
## Runs
-/

theorem Orderly.run {state last : RequestState clients} (h : state.Orderly world loads requests)
    (hworld : LoadsByPath world loads) (hrun : Relation.ReflTransGen (Step world) state last) :
    last.Orderly world loads requests := by
  induction hrun with
  | refl => exact h
  | tail _ hstep ih => exact ih.step hworld hstep

theorem Orderly.answered_eq {state : RequestState clients} (h : state.Orderly world loads requests)
    (hdone : state.Done) (client : Fin clients) : state.answered client = requests client := by
  have hrequests := h.requests_eq client
  rw [hdone.waiting client, queued, hdone.queue] at hrequests
  simpa using hrequests

/-- In whatever order the requests of any number of clients reach the worker, and however often
the files change in between, as long as it depends on the canonical path only whether an archive
can be loaded: every run can be carried on until each request has its one reply. Wherever the run
stands, of the replies to those that wished a path that can be loaded for its own sake one says
that it was opened for that, and all of them describe the archive that is open now. Open are the
paths that were asked for and can be loaded, each once, and for their own sake those that were
asked for so; and each such reply says whether that was new. -/
theorem one_winner_per_archive (sessionFile : Option String) (files : FileSystem)
    (requests : Fin clients → List OpenRequest) (world : (turn : Nat) → ArchiveSource)
    (loads : String → Prop) (hworld : LoadsByPath world loads) (state : RequestState clients)
    (hrun : Relation.ReflTransGen (Step world) (start sessionFile files requests) state) :
    (∃ last, Relation.ReflTransGen (Step world) state last ∧ last.Done) ∧
      (state.Done → ∀ client, state.answered client = requests client) ∧
      (∀ turn (hturn : turn < state.replies.length),
        state.replies[turn].path = (world turn).normalize state.replies[turn].request.path) ∧
      (∀ path, loads path → (∃ reply ∈ state.replies, reply.IsExplicitFor path) →
        state.replies.countP (OpenReply.wins path) = 1 ∧
          ∃ archive ∈ state.worker.store.archives, archive.path = path ∧
            archive.autoLoaded = false ∧
              ∀ reply ∈ state.replies, reply.IsExplicitFor path →
                reply.outcome.summary = some archive.summary) ∧
      state.worker.store.paths.Nodup ∧
      (∀ path, path ∈ state.worker.store.paths ↔
        loads path ∧ ∃ reply ∈ state.replies, reply.path = path) ∧
      (∀ path, path ∈ state.worker.store.explicitPaths ↔
        loads path ∧ ∃ reply ∈ state.replies, reply.IsExplicitFor path) ∧
      ∀ path, ∀ reply ∈ state.replies, reply.IsExplicitFor path →
        (reply.outcome.added = true ↔
          path ∉ reply.before.explicitPaths ∧ path ∈ reply.after.explicitPaths) := by
  have h : state.Orderly world loads requests :=
    (start_orderly world loads requests sessionFile files).run hworld hrun
  refine ⟨exists_done world state, h.answered_eq, h.path_eq, ?_, h.wellFormed.paths_nodup,
    h.mem_paths, h.mem_explicitPaths, h.added_iff⟩
  intro path hloads hexplicit
  refine ⟨?_, ?_⟩
  · rw [h.countP_wins, if_pos ((h.mem_explicitPaths path).mpr ⟨hloads, hexplicit⟩)]
  · rcases hexplicit with ⟨first, hfirst, hexplicit⟩
    rcases h.summary_eq path hloads first hfirst hexplicit with
      ⟨archive, hmem, hpath, hauto, _⟩
    refine ⟨archive, hmem, hpath, hauto, fun reply hreply hexplicit => ?_⟩
    rcases h.summary_eq path hloads reply hreply hexplicit with
      ⟨other, hother, hsame, _, hsummary⟩
    rw [hsummary, List.inj_on_of_nodup_map h.wellFormed.paths_nodup hother hmem
      (hsame.trans hpath.symm)]

/-- A directory with a library. -/
def library : ArchiveSource :=
  .ofFiles Worker.emptyModules
    { entries := [(["lib"], .directory), (["lib", "Shapes.dll"], .file #[])] }

/-- One client wishes the library for another archive and then for its own sake, and a second one
wishes it by another spelling. -/
def libraryRequests : Fin 2 → List OpenRequest
  | 0 => [{ path := "/lib/Shapes.dll", parent := some "/App.dll" }, { path := "/lib/Shapes.dll" }]
  | 1 => [{ path := "/lib/../lib/Shapes.dll" }]

theorem one_winner_per_archive_library :
    ∃ state : RequestState 2,
      Relation.ReflTransGen (Step fun _ => library) (start none {} libraryRequests) state ∧
      (state.Done ∧ ∀ client, state.answered client = libraryRequests client) ∧
      state.replies.map (fun reply => (reply.client, reply.path, reply.outcome.added)) =
        [(0, "/lib/Shapes.dll", true), (1, "/lib/Shapes.dll", true),
          (0, "/lib/Shapes.dll", false)] ∧
      state.replies.countP (OpenReply.wins "/lib/Shapes.dll") = 1 ∧
      state.worker.store.explicitPaths = ["/lib/Shapes.dll"] := by
  have hrun : ∃ state, Relation.ReflTransGen (Step fun _ => library)
      (start none {} libraryRequests) state ∧ state.Done ∧
      state.replies.map (fun reply => (reply.client, reply.path, reply.outcome.added)) =
        [(0, "/lib/Shapes.dll", true), (1, "/lib/Shapes.dll", true),
          (0, "/lib/Shapes.dll", false)] ∧
      state.worker.store.explicitPaths = ["/lib/Shapes.dll"] := by
    refine ⟨_, .head (.send _ 0 _ _ rfl) (.head (.send _ 1 _ _ rfl) (.head (.send _ 0 _ _ rfl)
      (.head (.serve _ 0 _ _ rfl) (.head (.serve _ 1 _ _ rfl) (.head (.serve _ 0 _ _ rfl)
        .refl))))), ⟨?_, rfl⟩, ?_, ?_⟩
    · exact Fin.forall_fin_two.mpr ⟨rfl, rfl⟩
    · decide +kernel
    · decide +kernel
  rcases hrun with ⟨state, hrun, hdone, hreplies, hopen⟩
  rcases one_winner_per_archive none {} libraryRequests (fun _ => library)
    (fun path => ∃ contents, library.load path = .ok contents) (fun _ _ => Iff.rfl) state hrun with
    ⟨_, hanswered, _, hwinner, _, _, hexplicit, _⟩
  have hkept := (hexplicit "/lib/Shapes.dll").mp (hopen ▸ List.mem_singleton_self _)
  exact ⟨state, hrun, ⟨hdone, hanswered hdone⟩, hreplies, (hwinner _ hkept.1 hkept.2).1, hopen⟩

end RequestState
end AssemblyBrowser
