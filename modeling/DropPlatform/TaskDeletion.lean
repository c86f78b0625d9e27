import DropPlatform.TaskCirculation
import DropPlatform.TaskReads

/-! `DeleteTask` against everything that still works for the task it deletes. The row is
only marked; the other tables and the object storage are cleared by statements of their
own, between which agents, drop_server and the analysis go on. None of them looks at the
mark: an agent uploads what it records, and an analysis that has been selected runs to its
end. -/

namespace DropPlatform.TaskDeletion
open TransitionRuns TaskStore TaskLifecycle KeyedStores TaskReads TaskDispatch TaskCirculation

/-- A request of an agent that the apiserver has not served yet. -/
inductive AgentRequest
  | upload (tid filename : String) (content : Bytes)
  | segment (tid : String) (startTs endTs : Int64) (s3Key : String)
deriving DecidableEq, Repr

def AgentRequest.tid : AgentRequest → String
  | .upload tid _ _ => tid
  | .segment tid _ _ _ => tid

/-- How far the accepted `DeleteTask` of a task has come. -/
inductive DeletePhase
  | idle
  | marked
  | purged
  | removing (keys : List String)
  | returned
deriving DecidableEq, Repr, Inhabited

structure Platform where
  system : System
  members : List GroupMember
  segments : List ContinuousProfileSegment
  suggestions : List AnalysisSuggestion
  /-- Whether object storage is configured. -/
  storage : Bool
  objects : Keyed String Bytes
  requests : List AgentRequest
  /-- The tasks that an analysis tick has selected and whose analysis has not ended. -/
  analyses : List String
  deletes : Keyed String DeletePhase

section agent

def agentUpload (p : Platform) (ip : String) (k : Nat) (filename : String) (content : Bytes) :
    Option Platform :=
  match (get p.system.agents ip).executions[k]? with
  | some ⟨c, none, _⟩ => some { p with requests := p.requests ++ [.upload c.tid filename content] }
  | _ => none

def agentRegister (p : Platform) (ip : String) (k : Nat) (startTs endTs : Int64)
    (s3Key : String) : Option Platform :=
  match (get p.system.agents ip).executions[k]? with
  | some ⟨c, none, _⟩ =>
    if c.desc.taskType = 1 then
      some { p with requests := p.requests ++ [.segment c.tid startTs endTs s3Key] }
    else none
  | _ => none

end agent

section apiserver

/-- `UploadTaskFile`; the lookup of the task decides on `cos_key` only. -/
def serveUpload (p : Platform) (tid filename : String) (content : Bytes) (fails : Bool) :
    Platform :=
  if p.storage = false ∨ fails then p
  else { p with
    objects := set p.objects (tid ++ "/" ++ filename) content
    system := { p.system with db := uploadTaskFile tid filename p.system.db } }

def createSegment (p : Platform) (tid : String) (startTs endTs : Int64) (s3Key : String)
    (fails : Bool) : Platform :=
  if fails then p
  else { p with
    segments := p.segments ++ [⟨p.segments.length + 1, tid, startTs, endTs, s3Key⟩] }

def serve (p : Platform) (i : Nat) (fails : Bool) : Option Platform :=
  let served := { p with requests := p.requests.eraseIdx i }
  match p.requests[i]? with
  | some (.upload tid filename content) => some (serveUpload served tid filename content fails)
  | some (.segment tid startTs endTs s3Key) =>
    some (createSegment served tid startTs endTs s3Key fails)
  | none => none

/-- The first statement of `DeleteTask`; a request that marks no row is refused. -/
def deleteTask (p : Platform) (u tid : String) : Option Platform :=
  let may (task : HotmethodTask) : Bool :=
    task.tid = tid ∧ mayAccess p.members u task.uid ∧ task.deleted = false
  if p.system.db.tasks.any may then
    some { p with
      system := { p.system with db := { p.system.db with
        tasks := p.system.db.tasks.map fun task =>
          if may task then { task with deleted := true } else task } }
      deletes := set p.deletes tid .marked }
  else none

/-- A `Delete` on `analysis_suggestion` by the given column. -/
def deleteSuggestionsWhere (suggestions : List AnalysisSuggestion) (column tid : String) :
    List AnalysisSuggestion :=
  if column = "t_id" then
    suggestions.map fun sug => if sug.tid = tid then { sug with deleted := true } else sug
  else suggestions

def deleteSuggestions (p : Platform) (tid : String) : Option Platform :=
  match get p.deletes tid with
  | .marked => some { p with
      suggestions := deleteSuggestionsWhere p.suggestions "tid" tid
      deletes := set p.deletes tid .purged }
  | _ => none

def keysUnder (objects : Keyed String Bytes) (start : String) : List String :=
  (objects.map (·.1)).filter (hasPrefix · start)

/-- A listing that fails lists nothing. -/
def listed (p : Platform) (tid : String) (fails : Bool) : DeletePhase :=
  if p.storage then .removing (if fails then [] else keysUnder p.objects (tid ++ "/"))
  else .returned

def listObjects (p : Platform) (tid : String) (fails : Bool) : Option Platform :=
  match get p.deletes tid with
  | .purged => some { p with deletes := set p.deletes tid (listed p tid fails) }
  | _ => none

def deleteObject (p : Platform) (tid : String) (fails : Bool) : Option Platform :=
  match get p.deletes tid with
  | .removing [] => some { p with deletes := set p.deletes tid .returned }
  | .removing (key :: keys) => some { p with
      objects := if fails then p.objects else p.objects.filter (·.1 ≠ key)
      deletes := set p.deletes tid (.removing keys) }
  | _ => none

end apiserver

/-- What an analysis under way can write. -/
inductive AnalysisStep
  | status (write : AnalysisWrite)
  | upload (artifact : String) (content : Bytes)
  | suggest (func suggestion aiSuggestion : String) (status : Int)
  | finish

def analyse (p : Platform) (tid : String) : AnalysisStep → Platform
  | .status write => { p with
      system := { p.system with db := p.system.db.setTask tid write.apply } }
  | .upload artifact content => { p with objects := set p.objects (tid ++ "/" ++ artifact) content }
  | .suggest func suggestion aiSuggestion status => { p with
      suggestions := p.suggestions ++
        [⟨p.suggestions.length + 1, tid, func, suggestion, aiSuggestion, status, false⟩] }
  | .finish => { p with analyses := p.analyses.erase tid }

inductive Action
  | dispatch (a : TaskDispatch.Action)
  | agentUpload (ip : String) (k : Nat) (filename : String) (content : Bytes)
  | agentRegister (ip : String) (k : Nat) (startTs endTs : Int64) (s3Key : String)
  | serve (i : Nat) (fails : Bool)
  | loseRequest (i : Nat)
  | analysisTick
  | analyse (tid : String) (work : AnalysisStep)
  | deleteTask (u tid : String)
  | deleteSuggestions (tid : String)
  | listObjects (tid : String) (fails : Bool)
  | deleteObject (tid : String) (fails : Bool)

def step (p : Platform) : Action → Option Platform
  | .dispatch a => (TaskDispatch.step p.system a).map fun system => { p with system }
  | .agentUpload ip k filename content => agentUpload p ip k filename content
  | .agentRegister ip k startTs endTs s3Key => agentRegister p ip k startTs endTs s3Key
  | .serve i fails => serve p i fails
  | .loseRequest i => some { p with requests := p.requests.eraseIdx i }
  | .analysisTick => some { p with analyses := p.analyses ++ selectedByTick p.system.db }
  | .analyse tid work => if tid ∈ p.analyses then some (analyse p tid work) else none
  | .deleteTask u tid => deleteTask p u tid
  | .deleteSuggestions tid => deleteSuggestions p tid
  | .listObjects tid fails => listObjects p tid fails
  | .deleteObject tid fails => deleteObject p tid fails

def initial (members : List GroupMember) (storage : Bool) : Platform :=
  ⟨TaskDispatch.initial, members, [], [], storage, [], [], [], []⟩

structure Clean (tid : String) (p : Platform) : Prop where
  segments : ∀ row ∈ p.segments, row.tid ≠ tid
  suggestions : ∀ row ∈ p.suggestions, row.tid = tid → row.deleted = true
  objects : ∀ entry ∈ p.objects, hasPrefix entry.1 (tid ++ "/") = false
  handed : All (fun agent => ∀ c ∈ agent.reply.bind (·.taskDesc), c.tid ≠ tid) p.system.agents

/-- What a step can do, with what it rests on. -/
inductive Effect (p : Platform) : Action → Platform → Prop
  | dispatch {a : TaskDispatch.Action} {s : System}
      (moved : TaskDispatch.step p.system a = some s) :
    Effect p (.dispatch a) { p with system := s }
  | ask {a : Action} {ip : String} {k : Nat} {execution : Execution} {request : AgentRequest}
    (running : (get p.system.agents ip).executions[k]? = some execution)
    (named : request.tid = execution.copy.tid) :
    Effect p a { p with requests := p.requests ++ [request] }
  | drop {a : Action} (i : Nat) : Effect p a { p with requests := p.requests.eraseIdx i }
  | upload {a : Action} {i : Nat} {tid filename : String} {content : Bytes}
    (request : .upload tid filename content ∈ p.requests) :
    Effect p a { p with
      requests := p.requests.eraseIdx i
      objects := set p.objects (tid ++ "/" ++ filename) content
      system := { p.system with db := uploadTaskFile tid filename p.system.db } }
  | segment {a : Action} {i : Nat} {row : ContinuousProfileSegment} {request : AgentRequest}
    (asked : request ∈ p.requests) (named : row.tid = request.tid) :
    Effect p a { p with requests := p.requests.eraseIdx i, segments := p.segments ++ [row] }
  | select : Effect p .analysisTick { p with analyses := p.analyses ++ selectedByTick p.system.db }
  | analyse {tid : String} (work : AnalysisStep) (selected : tid ∈ p.analyses) :
    Effect p (.analyse tid work) (analyse p tid work)
  | mark {u tid : String} {may : HotmethodTask → Bool}
    (own : ∀ task, may task = true → task.tid = tid ∧ task.deleted = false)
    {task : HotmethodTask} (member : task ∈ p.system.db.tasks) (found : may task = true) :
    Effect p (.deleteTask u tid) { p with
      system := { p.system with db := { p.system.db with
        tasks := p.system.db.tasks.map fun task =>
          if may task then { task with deleted := true } else task } }
      deletes := set p.deletes tid .marked }
  | purge {tid : String} (phase : get p.deletes tid = .marked) :
    Effect p (.deleteSuggestions tid) { p with deletes := set p.deletes tid .purged }
  | list {tid : String} (fails : Bool) (phase : get p.deletes tid = .purged) :
    Effect p (.listObjects tid fails) { p with deletes := set p.deletes tid (listed p tid fails) }
  | remove {tid key : String} {keys : List String} (fails : Bool)
    (phase : get p.deletes tid = .removing (key :: keys)) :
    Effect p (.deleteObject tid fails) { p with
      objects := if fails then p.objects else p.objects.filter (·.1 ≠ key)
      deletes := set p.deletes tid (.removing keys) }
  | finish {tid : String} (fails : Bool) (phase : get p.deletes tid = .removing []) :
    Effect p (.deleteObject tid fails) { p with deletes := set p.deletes tid .returned }

theorem deleteTask_some {p q : Platform} {u tid : String} (next : deleteTask p u tid = some q) :
    ∃ may : HotmethodTask → Bool,
      (∀ task, may task = true → task.tid = tid ∧ task.deleted = false) ∧
      (∃ task ∈ p.system.db.tasks, may task = true) ∧
      q = { p with
        system := { p.system with db := { p.system.db with
          tasks := p.system.db.tasks.map fun task =>
            if may task then { task with deleted := true } else task } }
        deletes := set p.deletes tid .marked } := by
  simp only [deleteTask] at next
  split_ifs at next with found
  obtain ⟨task, member, matched⟩ := List.any_eq_true.mp found
  refine ⟨_, fun other may => ?_, ⟨task, member, matched⟩, (Option.some.inj next).symm⟩
  exact ⟨(of_decide_eq_true may).1, (of_decide_eq_true may).2.2⟩

theorem effect_serve {p q : Platform} {i : Nat} {fails : Bool} (next : serve p i fails = some q) :
    Effect p (.serve i fails) q := by
  simp only [serve] at next
  split at next
  · rename_i tid filename content request
    rw [← Option.some.inj next, serveUpload]
    split_ifs
    · exact .drop i
    · exact .upload (List.mem_of_getElem? request)
  · rename_i tid startTs endTs s3Key request
    rw [← Option.some.inj next, createSegment]
    split_ifs
    · exact .drop i
    · exact .segment (List.mem_of_getElem? request) rfl
  · contradiction

theorem effect_step {p q : Platform} {a : Action} (next : step p a = some q) : Effect p a q := by
  cases a with
  | dispatch a =>
    obtain ⟨system, moved, rfl⟩ := Option.map_eq_some_iff.mp next
    exact .dispatch moved
  | agentUpload ip k filename content =>
    simp only [step, agentUpload] at next
    split at next
    · rename_i running
      rw [← Option.some.inj next]
      exact .ask running rfl
    · contradiction
  | agentRegister ip k startTs endTs s3Key =>
    simp only [step, agentRegister] at next
    split at next
    · rename_i running
      split_ifs at next
      rw [← Option.some.inj next]
      exact .ask running rfl
    · contradiction
  | serve i fails => exact effect_serve next
  | loseRequest i => exact Option.some.inj next ▸ .drop i
  | analysisTick => exact Option.some.inj next ▸ .select
  | analyse tid work =>
    simp only [step] at next
    split_ifs at next with selected
    exact Option.some.inj next ▸ .analyse work selected
  | deleteTask u tid =>
    obtain ⟨may, own, ⟨task, member, found⟩, rfl⟩ := deleteTask_some next
    exact .mark own member found
  | deleteSuggestions tid =>
    simp only [step, deleteSuggestions] at next
    split at next
    · rename_i phase
      exact Option.some.inj next ▸ .purge phase
    · contradiction
  | listObjects tid fails =>
    simp only [step, listObjects] at next
    split at next
    · rename_i phase
      exact Option.some.inj next ▸ .list fails phase
    · contradiction
  | deleteObject tid fails =>
    simp only [step, deleteObject] at next
    split at next
    · rename_i phase
      exact Option.some.inj next ▸ .finish fails phase
    · rename_i key keys phase
      exact Option.some.inj next ▸ .remove fails phase
    · contradiction

section confinement
variable {R : String → Prop} {p q : Platform} {a : Action}

/-- All that works for tasks, and all that is kept of them beside the rows and the objects,
is of tasks with the property. -/
structure Confined (R : String → Prop) (p : Platform) : Prop where
  copies : Carries R p.system
  requests : ∀ request ∈ p.requests, R request.tid
  analyses : ∀ tid ∈ p.analyses, R tid
  segments : ∀ row ∈ p.segments, R row.tid
  suggestions : ∀ row ∈ p.suggestions, row.deleted = false → R row.tid

theorem Confined.and (confined : Confined R p) {R' : String → Prop} (other : Confined R' p) :
    Confined (fun tid => R tid ∧ R' tid) p where
  copies := ⟨fun call member pending =>
      ⟨confined.copies.calls call member pending, other.copies.calls call member pending⟩,
    fun retry member going =>
      ⟨confined.copies.retries retry member going, other.copies.retries retry member going⟩,
    fun queue member c inside =>
      ⟨confined.copies.queues queue member c inside, other.copies.queues queue member c inside⟩,
    fun agent member c inside =>
      ⟨confined.copies.agents agent member c inside, other.copies.agents agent member c inside⟩⟩
  requests request member := ⟨confined.requests request member, other.requests request member⟩
  analyses tid member := ⟨confined.analyses tid member, other.analyses tid member⟩
  segments row member := ⟨confined.segments row member, other.segments row member⟩
  suggestions row member visible :=
    ⟨confined.suggestions row member visible, other.suggestions row member visible⟩

theorem forall_mem_snoc {α : Type*} {P : α → Prop} {l : List α} {x : α} (all : ∀ y ∈ l, P y)
    (last : P x) : ∀ y ∈ l ++ [x], P y := by
  intro y member
  rcases List.mem_append.mp member with old | new
  · exact all y old
  · rw [List.mem_singleton.mp new]
    exact last

theorem mem_marks {db : Tables} {task : HotmethodTask} (member : task ∈ db.tasks) :
    (task.tid, task.deleted) ∈ marks db :=
  List.mem_map_of_mem (f := fun task : HotmethodTask => (task.tid, task.deleted)) member

theorem Confined.step (confined : Confined R p)
    (fresh : ∀ randBytes, genTID randBytes ∉ (marks p.system.db).map Prod.fst →
      R (genTID randBytes))
    (rows : ∀ tid, (tid, false) ∈ marks p.system.db → R tid)
    (effect : Effect p a q) : Confined R q := by
  obtain ⟨copies, requests, analyses, segments, suggestions⟩ := confined
  have undeleted : ∀ task ∈ p.system.db.tasks, task.deleted = false → R task.tid :=
    fun task member visible => rows task.tid (visible ▸ mem_marks member)
  have fewer : ∀ i, ∀ request ∈ p.requests.eraseIdx i, R request.tid :=
    fun i request member => requests request (List.mem_of_mem_eraseIdx member)
  cases effect with
  | dispatch moved =>
    refine ⟨copies.step (fun randBytes new => ?_) undeleted moved, requests, analyses, segments,
      suggestions⟩
    exact fresh randBytes (tids_eq_marks p.system.db ▸ new)
  | ask running named =>
    refine ⟨copies, forall_mem_snoc requests ?_, analyses, segments, suggestions⟩
    rw [named]
    exact copies.agent _ _
      (mem_copies.mpr (.inr (.inr ⟨_, List.mem_of_getElem? running, rfl⟩)))
  | drop i => exact ⟨copies, fewer i, analyses, segments, suggestions⟩
  | upload request =>
    exact ⟨copies.setDb _, fewer _, analyses, segments, suggestions⟩
  | segment asked named =>
    refine ⟨copies, fewer _, analyses, forall_mem_snoc segments ?_, suggestions⟩
    rw [named]
    exact requests _ asked
  | select =>
    refine ⟨copies, requests, fun tid member => ?_, segments, suggestions⟩
    rcases List.mem_append.mp member with old | new
    · exact analyses tid old
    · obtain ⟨task, selected, rfl⟩ := List.mem_map.mp new
      obtain ⟨inside, matched⟩ := List.mem_filter.mp selected
      exact undeleted task inside (of_decide_eq_true matched).2.2.1
  | analyse work selected =>
    cases work with
    | status write =>
      exact ⟨copies.setDb _, requests, analyses, segments, suggestions⟩
    | upload artifact content => exact ⟨copies, requests, analyses, segments, suggestions⟩
    | suggest func suggestion aiSuggestion status =>
      exact ⟨copies, requests, analyses, segments,
        forall_mem_snoc suggestions fun _ => analyses _ selected⟩
    | finish =>
      exact ⟨copies, requests, fun other member => analyses other (List.mem_of_mem_erase member),
        segments, suggestions⟩
  | mark own member found =>
    exact ⟨copies.setDb _, requests, analyses, segments, suggestions⟩
  | purge phase => exact ⟨copies, requests, analyses, segments, suggestions⟩
  | list fails phase => exact ⟨copies, requests, analyses, segments, suggestions⟩
  | remove fails phase => exact ⟨copies, requests, analyses, segments, suggestions⟩
  | finish fails phase => exact ⟨copies, requests, analyses, segments, suggestions⟩

end confinement

section rows
variable {p q : Platform} {a : Action}

theorem marks_effect (effect : Effect p a q) :
    NewMark (marks p.system.db) (marks q.system.db) ∨
      (marks q.system.db).map Prod.fst = (marks p.system.db).map Prod.fst ∧
        ∀ tid, (tid, false) ∈ marks q.system.db → (tid, false) ∈ marks p.system.db := by
  have same : marks q.system.db = marks p.system.db →
      (marks q.system.db).map Prod.fst = (marks p.system.db).map Prod.fst ∧
        ∀ tid, (tid, false) ∈ marks q.system.db → (tid, false) ∈ marks p.system.db := by
    intro equal
    rw [equal]
    exact ⟨rfl, fun _ member => member⟩
  cases effect with
  | dispatch moved =>
    rcases marks_dispatch moved with equal | new
    · exact .inr (same equal)
    · exact .inl new
  | ask running named => exact .inr (same rfl)
  | drop i => exact .inr (same rfl)
  | upload request =>
    refine .inr (same (marks_setTask _ _ fun task => ?_))
    split_ifs
    · exact ⟨rfl, rfl⟩
    · exact ⟨rfl, rfl⟩
  | segment asked named => exact .inr (same rfl)
  | select => exact .inr (same rfl)
  | analyse work selected =>
    cases work with
    | status write =>
      refine .inr (same (marks_setTask _ _ fun task => ⟨write.apply_tid task, ?_⟩))
      cases write <;> simp only [AnalysisWrite.apply] <;> split_ifs <;> rfl
    | upload artifact content => exact .inr (same rfl)
    | suggest func suggestion aiSuggestion status => exact .inr (same rfl)
    | finish => exact .inr (same rfl)
  | @mark u tid may own task member found =>
    refine .inr ⟨?_, fun other visible => ?_⟩
    · simp only [marks, List.map_map]
      refine List.map_congr_left fun task _ => ?_
      by_cases own : may task = true
      · simp [own]
      · simp [own]
    · obtain ⟨changed, inside, equal⟩ := List.mem_map.mp visible
      obtain ⟨old, before, rfl⟩ := List.mem_map.mp inside
      by_cases own : may old = true
      · simp [own] at equal
      · simp only [own] at equal
        exact equal ▸ mem_marks before
  | purge phase => exact .inr (same rfl)
  | list fails phase => exact .inr (same rfl)
  | remove fails phase => exact .inr (same rfl)
  | finish fails phase => exact .inr (same rfl)

end rows

section objects

/-- The keys of tasks, and those the storage has by their prefix, cannot be confused. -/
def Plain (tid : String) : Prop := '/' ∉ tid.toList

theorem plain_genTID (randBytes : Fin 12 → UInt8) : Plain (genTID randBytes) := by
  intro member
  have known := mem_charset_of_genTID member
  exact absurd known (by decide)

theorem eq_of_hasPrefix {owner tid name : String} (plain : Plain owner) (other : Plain tid)
    (under : hasPrefix (owner ++ "/" ++ name) (tid ++ "/") = true) : owner = tid := by
  rw [hasPrefix, List.isPrefixOf_iff_prefix] at under
  simp only [String.toList_append] at under
  obtain ⟨rest, same⟩ := under
  have cut : ∀ {front : List Char} {back : List Char}, '/' ∉ front →
      (front ++ '/' :: back).takeWhile (· ≠ '/') = front := by
    intro front back clean
    have visible : ∀ c ∈ front, decide (c ≠ '/') = true := by
      intro c member
      exact decide_eq_true fun same => clean (same ▸ member)
    rw [List.takeWhile_append_of_pos visible]
    simp
  have slash : "/".toList = ['/'] := rfl
  rw [slash, List.append_assoc, List.append_assoc, List.singleton_append, List.singleton_append]
    at same
  have both := congrArg (List.takeWhile fun c => decide (c ≠ '/')) same
  rw [cut plain, cut other] at both
  exact String.toList_inj.mp both.symm

variable {p q : Platform} {a : Action} {tid : String}

def DeletePhase.Leaves (key : String) : DeletePhase → Prop
  | .returned => False
  | .removing keys => key ∈ keys
  | _ => True

/-- The objects of a task that is being deleted are on the list of those to be removed. -/
def Removing (tid : String) (p : Platform) : Prop :=
  ∀ entry ∈ p.objects, hasPrefix entry.1 (tid ++ "/") = true → (get p.deletes tid).Leaves entry.1

/-- Where the deletion meets objects of the task, the storage works. -/
def Works (tid : String) (p : Platform) : Action → Prop
  | .listObjects other fails => other = tid →
    p.storage = true ∧ fails = false ∨ ∀ entry ∈ p.objects, hasPrefix entry.1 (tid ++ "/") = false
  | .deleteObject other fails => other = tid → fails = false
  | _ => True

theorem Removing.put (removing : Removing tid p) (plain : Plain tid) {owner name : String}
    (foreign : owner ≠ tid ∧ Plain owner) {content : Bytes}
    (objects : q.objects = set p.objects (owner ++ "/" ++ name) content)
    (deletes : q.deletes = p.deletes) : Removing tid q := by
  intro entry member under
  rw [objects] at member
  rw [deletes]
  rcases mem_set member with old | same
  · exact removing entry old under
  · rw [same] at under
    exact absurd (eq_of_hasPrefix foreign.2 plain under) foreign.1

theorem Removing.setDeletes (removing : Removing tid p) {other : String} {phase : DeletePhase}
    (objects : ∀ entry ∈ q.objects, entry ∈ p.objects)
    (deletes : q.deletes = set p.deletes other phase)
    (own : other = tid → ∀ entry ∈ q.objects, hasPrefix entry.1 (tid ++ "/") = true →
      phase.Leaves entry.1) : Removing tid q := by
  intro entry member under
  rw [deletes, get_set]
  by_cases same : other = tid
  · rw [if_pos same]
    exact own same entry member under
  · rw [if_neg same]
    exact removing entry (objects entry member) under

theorem Removing.step (removing : Removing tid p) (plain : Plain tid)
    (confined : Confined (fun other => other ≠ tid ∧ Plain other) p)
    (deleted : (tid, false) ∉ marks p.system.db) (works : Works tid p a)
    (effect : Effect p a q) : Removing tid q := by
  cases effect with
  | dispatch moved => exact removing
  | ask running named => exact removing
  | drop i => exact removing
  | upload request => exact removing.put plain (confined.requests _ request) rfl rfl
  | segment asked named => exact removing
  | select => exact removing
  | analyse work selected =>
    cases work with
    | upload artifact content => exact removing.put plain (confined.analyses _ selected) rfl rfl
    | status write => exact removing
    | suggest func suggestion aiSuggestion status => exact removing
    | finish => exact removing
  | mark own member found =>
    refine removing.setDeletes (fun _ member => member) rfl fun same => ?_
    -- a second deletion of the task finds no row to mark
    obtain ⟨named, visible⟩ := own _ found
    exact absurd (named.trans same ▸ visible ▸ mem_marks member) deleted
  | purge phase =>
    exact removing.setDeletes (fun _ member => member) rfl fun _ _ _ _ => trivial
  | list fails phase =>
    refine removing.setDeletes (fun _ member => member) rfl fun same entry member under => ?_
    -- the task still has an object, so the listing must work
    have usable : p.storage = true ∧ fails = false := by
      refine (works same).resolve_right fun none => ?_
      exact absurd ((none entry member).symm.trans under) Bool.false_ne_true
    rw [listed, if_pos usable.1, usable.2]
    refine List.mem_filter.mpr ⟨List.mem_map_of_mem member, ?_⟩
    rw [same]
    exact under
  | @remove other key keys fails phase =>
    have smaller : ∀ entry ∈ if fails then p.objects else p.objects.filter (·.1 ≠ key),
        entry ∈ p.objects := by
      intro entry member
      split_ifs at member
      · exact member
      · exact List.mem_of_mem_filter member
    refine removing.setDeletes smaller rfl fun same entry member under => ?_
    have before := removing entry (smaller entry member) under
    rw [← same, phase] at before
    have works : fails = false := works same
    simp only [works, if_neg Bool.false_ne_true] at member
    exact (List.mem_cons.mp before).resolve_left
      (of_decide_eq_true (List.mem_filter.mp member).2)
  | finish fails phase =>
    refine removing.setDeletes (fun _ member => member) rfl fun same entry member under => ?_
    have before := removing entry member under
    rw [← same, phase] at before
    exact absurd before List.not_mem_nil

end objects

section deletion
variable {p q : Platform} {a : Action} {tid : String}

/-- In a state of a run from the start every key is plain and names one row. -/
structure Sound (p : Platform) : Prop where
  once : ((marks p.system.db).map Prod.fst).Nodup
  rows : ∀ key ∈ (marks p.system.db).map Prod.fst, Plain key
  confined : Confined Plain p

/-- After the first statement of `DeleteTask`, if nothing worked for the task then. -/
structure Gone (tid : String) (p : Platform) : Prop where
  known : tid ∈ (marks p.system.db).map Prod.fst
  deleted : (tid, false) ∉ marks p.system.db
  rows : ∀ key ∈ (marks p.system.db).map Prod.fst, Plain key
  confined : Confined (fun other => other ≠ tid ∧ Plain other) p
  removing : Removing tid p

theorem rows_effect (rows : ∀ key ∈ (marks p.system.db).map Prod.fst, Plain key)
    (effect : Effect p a q) : ∀ key ∈ (marks q.system.db).map Prod.fst, Plain key := by
  rcases marks_effect effect with ⟨randBytes, _, appended⟩ | ⟨same, _⟩
  · rw [appended, List.map_append]
    exact forall_mem_snoc rows (plain_genTID randBytes)
  · rw [same]
    exact rows

theorem Sound.step (sound : Sound p) (effect : Effect p a q) : Sound q := by
  refine ⟨?_, rows_effect sound.rows effect,
    sound.confined.step (fun randBytes _ => plain_genTID randBytes)
      (fun key member => sound.rows key (List.mem_map_of_mem (f := Prod.fst) member)) effect⟩
  rcases marks_effect effect with ⟨randBytes, fresh, appended⟩ | ⟨same, _⟩
  · rw [appended, List.map_append, List.map_singleton, ← List.concat_eq_append]
    exact sound.once.concat fresh
  · rw [same]
    exact sound.once

theorem Gone.step (gone : Gone tid p) (works : Works tid p a) (effect : Effect p a q) :
    Gone tid q := by
  have undeleted : ∀ other, (other, false) ∈ marks p.system.db → other ≠ tid ∧ Plain other :=
    fun other member => ⟨fun same => gone.deleted (same ▸ member),
      gone.rows other (List.mem_map_of_mem (f := Prod.fst) member)⟩
  have fresh : ∀ randBytes, genTID randBytes ∉ (marks p.system.db).map Prod.fst →
      genTID randBytes ≠ tid ∧ Plain (genTID randBytes) :=
    fun randBytes new => ⟨fun same => new (same ▸ gone.known), plain_genTID randBytes⟩
  have keys : tid ∈ (marks q.system.db).map Prod.fst ∧ (tid, false) ∉ marks q.system.db := by
    rcases marks_effect effect with ⟨randBytes, new, appended⟩ | ⟨same, visible⟩
    · rw [appended, List.map_append, List.mem_append, List.mem_append, List.mem_singleton, not_or]
      refine ⟨.inl gone.known, gone.deleted, fun same => ?_⟩
      exact (fresh randBytes new).1 (congrArg Prod.fst same).symm
    · rw [same]
      exact ⟨gone.known, fun member => gone.deleted (visible tid member)⟩
  exact ⟨keys.1, keys.2, rows_effect gone.rows effect, gone.confined.step fresh undeleted effect,
    gone.removing.step (gone.rows tid gone.known) gone.confined gone.deleted works effect⟩

theorem sound_initial (members : List GroupMember) (storage : Bool) :
    Sound (initial members storage) := by
  have none : ∀ {α : Type} {P : α → Prop}, ∀ x ∈ ([] : List α), P x :=
    fun x member => absurd member List.not_mem_nil
  exact ⟨List.nodup_nil, none, ⟨none, none, none, none⟩, none, none, none, none⟩

theorem Gone.clean (gone : Gone tid p) (returned : get p.deletes tid = .returned) :
    Clean tid p where
  segments row member := (gone.confined.segments row member).1
  suggestions row member named := by
    by_contra visible
    exact (gone.confined.suggestions row member (Bool.eq_false_iff.mpr visible)).1 named
  objects entry member := by
    by_contra under
    have left := gone.removing entry member ((Bool.not_eq_false _).mp under)
    rw [returned] at left
    exact left
  handed entry member c handed :=
    (gone.confined.copies.agents entry member c (mem_copies.mpr (.inl handed))).1

theorem Sound.deleteTask (sound : Sound p) {u : String} (quiet : Confined (· ≠ tid) p)
    (accepted : deleteTask p u tid = some q) : Gone tid q := by
  have rows := rows_effect sound.rows (effect_step (a := .deleteTask u tid) accepted)
  obtain ⟨may, own, ⟨task, member, found⟩, rfl⟩ := deleteTask_some accepted
  have both := quiet.and sound.confined
  have named := (own task found).1
  refine ⟨?_, fun visible => ?_, rows,
    ⟨both.copies.setDb _, both.requests, both.analyses,
      both.segments, both.suggestions⟩, fun entry _ _ => ?_⟩
  · rw [marks, List.map_map, List.map_map, ← named]
    refine List.mem_map.mpr ⟨task, member, ?_⟩
    simp [found]
  · obtain ⟨changed, inside, equal⟩ := List.mem_map.mp visible
    obtain ⟨old, before, rfl⟩ := List.mem_map.mp inside
    by_cases mine : may old = true
    · simp [mine] at equal
    · simp only [mine] at equal
      have same : old = task := by
        refine List.inj_on_of_nodup_map (tids_eq_marks p.system.db ▸ sound.once) before member ?_
        exact (congrArg Prod.fst equal).trans named.symm
      exact mine (same ▸ found)
  · rw [get_set, if_pos rfl]
    trivial

/-- If nothing works for a task and no suggestion or segment of it is stored when it is
deleted, and the storage removes its objects, then nothing of it appears ever again. -/
theorem deleteTask_stays_complete {members : List GroupMember} {storage : Bool} {u : String}
    {p' : Platform} (before : Reaches step free (initial members storage) p)
    (quiet : Confined (· ≠ tid) p) (accepted : step p (.deleteTask u tid) = some p')
    (run : Reaches step (Works tid) p' q) (returned : get q.deletes tid = .returned) :
    Clean tid q := by
  have sound : Sound p := before.invariant Sound
    (fun _ _ _ sound _ next => sound.step (effect_step next)) (sound_initial members storage)
  have gone : Gone tid q := run.invariant (Gone tid)
    (fun _ _ _ gone works next => gone.step works (effect_step next))
    (sound.deleteTask quiet accepted)
  exact gone.clean returned

instance (tid : String) (p : Platform) : (a : Action) → Decidable (Works tid p a)
  | .listObjects other fails => inferInstanceAs (Decidable (other = tid →
      p.storage = true ∧ fails = false ∨
        ∀ entry ∈ p.objects, hasPrefix entry.1 (tid ++ "/") = false))
  | .deleteObject other fails => inferInstanceAs (Decidable (other = tid → fails = false))
  | .dispatch _ | .agentUpload _ _ _ _ | .agentRegister _ _ _ _ _ | .serve _ _ | .loseRequest _
  | .analysisTick | .analyse _ _ | .deleteTask _ _ | .deleteSuggestions _ => .isTrue trivial

def recorded : List Action :=
  [.dispatch (.createTask (.createTask ⟨"", 0, 0, "10.0.0.1", 1, 1, 99, ""⟩ "u" "") (fun _ => 0) 0),
    .dispatch (.serverCreateTask 0), .dispatch (.dispatchReply 0),
    .dispatch (.healthCheckDo "10.0.0.1" 0), .dispatch (.heartbeatReply "10.0.0.1"),
    .dispatch (.workerTake "10.0.0.1"), .agentUpload "10.0.0.1" 0 "perf.data" [1], .serve 0 false,
    .dispatch (.recordEnds "10.0.0.1" 0 (.collected "aaaaaaaaaaaa/perf.data")),
    .dispatch (.notifyResult "10.0.0.1" 0 0)]

def recordedState : Platform :=
  (execute step free (initial [] true) recorded).getD (initial [] true)

def markedState : Platform :=
  (step recordedState (.deleteTask "u" "aaaaaaaaaaaa")).getD (initial [] true)

def cleared : List Action :=
  [.deleteSuggestions "aaaaaaaaaaaa", .listObjects "aaaaaaaaaaaa" false,
    .deleteObject "aaaaaaaaaaaa" false, .deleteObject "aaaaaaaaaaaa" false]

def clearedState : Platform :=
  (execute step (Works "aaaaaaaaaaaa") markedState cleared).getD (initial [] true)

theorem recordedState_quiet : Confined (· ≠ "aaaaaaaaaaaa") recordedState := by
  have calls : ∀ entry ∈ recordedState.system.calls, entry.2.processed = true := by decide
  have agents : ∀ entry ∈ recordedState.system.agents, entry.2.copies = [] := by decide
  have queues : ∀ entry ∈ recordedState.system.queues, entry.2 = [] := by decide
  refine ⟨⟨fun entry member pending => ?_, fun entry member => absurd member List.not_mem_nil,
    fun entry member c inside => ?_, fun entry member c inside => ?_⟩,
    by decide, by decide, by decide, by decide⟩
  · rw [calls entry member] at pending
    exact absurd pending (by decide)
  · rw [queues entry member] at inside
    exact absurd inside List.not_mem_nil
  · rw [agents entry member] at inside
    exact absurd inside List.not_mem_nil

theorem deleteTask_stays_complete_recorded :
    recordedState.objects ≠ [] ∧ Reaches step (Works "aaaaaaaaaaaa") markedState clearedState ∧
      Clean "aaaaaaaaaaaa" clearedState :=
  have before : Reaches step free (initial [] true) recordedState := reaches_of_execute recorded rfl
  have accepted : step recordedState (.deleteTask "u" "aaaaaaaaaaaa") = some markedState := rfl
  have run : Reaches step (Works "aaaaaaaaaaaa") markedState clearedState :=
    reaches_of_execute cleared rfl
  ⟨by decide, run, deleteTask_stays_complete before recordedState_quiet accepted run rfl⟩

/-- The task is analysed before it is deleted; nothing works for it any more then. -/
def analysed : List Action :=
  recorded ++ [.analysisTick, .analyse "aaaaaaaaaaaa" (.suggest "main" "cache it" "" 0),
    .analyse "aaaaaaaaaaaa" .finish, .deleteTask "u" "aaaaaaaaaaaa"] ++ cleared

def analysedState : Platform :=
  (execute step free (initial [] true) analysed).getD (initial [] true)

theorem analysed_keeps_suggestion :
    ¬ ∀ q tid, Reaches step free (initial [] true) q → get q.deletes tid = .returned →
      Clean tid q := by
  intro all
  have clean := all analysedState "aaaaaaaaaaaa" (reaches_of_execute analysed rfl) rfl
  exact absurd clean.suggestions (by decide)

end deletion

end DropPlatform.TaskDeletion
