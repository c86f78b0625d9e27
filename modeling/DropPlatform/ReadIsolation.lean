import DropPlatform.TaskReads

/-! Noninterference of the task-reading requests: two server states that differ only in
the data of one task which the user may not access must answer alike. `GetTask` and
`ListTasks` carry the ownership clause and do; every other request answers alike only if
it is refused before it reads. -/

namespace DropPlatform.ReadIsolation
open TaskStore TaskReads

/-- The object keys of the two tasks are kept apart by their prefixes. -/
def Apart (a b : String) : Prop :=
  hasPrefix (a ++ "/") (b ++ "/") = false ∧ hasPrefix (b ++ "/") (a ++ "/") = false

/-- The states differ only in row, suggestions, segments and objects of the task `tid`,
which `u` may not access. -/
structure SameExcept (u tid : String) (s s' : ServerState) : Prop where
  members : s.members = s'.members
  tasks : s.tasks.filter (·.tid ≠ tid) = s'.tasks.filter (·.tid ≠ tid)
  suggestions : s.suggestions.filter (·.tid ≠ tid) = s'.suggestions.filter (·.tid ≠ tid)
  segments : s.segments.filter (·.tid ≠ tid) = s'.segments.filter (·.tid ≠ tid)
  objects : s.objects.filter (fun o => hasPrefix o.1 (tid ++ "/") = false) =
    s'.objects.filter (fun o => hasPrefix o.1 (tid ++ "/") = false)
  hidden : ∀ task ∈ s.tasks ++ s'.tasks, task.tid = tid → mayAccess s.members u task.uid = false
  apart : ∀ task ∈ s.tasks ++ s'.tasks, task.tid ≠ tid → Apart task.tid tid

def Isolated (env : Environment) (u : String) (r : Request) : Prop :=
  ∀ tid s s', SameExcept u tid s s' → respond env s u r = respond env s' u r

/-- The request carries the ownership clause, or is refused before it reads. -/
def Guarded (env : Environment) : Request → Prop
  | .getTask _ | .listTasks _ _ => True
  | .listCosFiles tid => tid = "" ∨ env.storage = false ∨ env.listFails (tid ++ "/") = true
  | .listSegments _ | .listSuggestions _ => False
  | .getProfileWindow _ window => ∀ w ∈ window,
      w.1 = 0 ∨ w.2 = 0 ∨ w.1 = Int64.maxValue ∨ w.2 = Int64.minValue
  | .nlChat message _ _ | .nlChatFollowup _ message => validMessage message = false
  | .nlStreamSSE _ ticks => ∀ elapsed ∈ ticks.head?, 300 * 10 ^ 9 < elapsed

theorem genTID_apart {a b : Fin 12 → UInt8} (differ : genTID a ≠ genTID b) :
    Apart (genTID a) (genTID b) := by
  have length (r : Fin 12 → UInt8) : (genTID r ++ "/").toList.length = 13 := by
    simp [genTID]
  have differs {a b : Fin 12 → UInt8} (differ : genTID a ≠ genTID b) :
      hasPrefix (genTID a ++ "/") (genTID b ++ "/") = false := by
    rw [Bool.eq_false_iff]
    intro within
    have same := (List.isPrefixOf_iff_prefix.mp within).eq_of_length (by rw [length, length])
    rw [String.toList_inj, String.append_left_inj] at same
    exact differ same.symm
  exact ⟨differs differ, differs differ.symm⟩

theorem find_filter {α : Type*} {l : List α} {p q : α → Bool} (implied : ∀ x ∈ l, p x → q x) :
    (l.filter q).find? p = l.find? p := by
  rw [List.find?_filter]
  apply List.find?_congr
  intro x member
  cases wanted : p x with
  | false => simp
  | true => simp [implied x member wanted]

theorem filter_filter_of_imp {α : Type*} {l : List α} {p q : α → Bool}
    (implied : ∀ x ∈ l, p x → q x) : (l.filter q).filter p = l.filter p := by
  rw [List.filter_filter]
  apply List.filter_congr
  intro x member
  cases wanted : p x with
  | false => simp
  | true => simp [implied x member wanted]

section same
variable {env : Environment} {u tid : String} {s s' : ServerState} {p : HotmethodTask → Bool}

theorem SameExcept.unseen (same : SameExcept u tid s s')
    (clause : ∀ task, p task → mayAccess s.members u task.uid = true) :
    ∀ task ∈ s.tasks ++ s'.tasks, p task → decide (task.tid ≠ tid) = true := by
  intro task member wanted
  apply decide_eq_true
  intro hidden
  have refused := same.hidden task member hidden
  rw [clause task wanted] at refused
  cases refused

theorem SameExcept.find (same : SameExcept u tid s s')
    (clause : ∀ task, p task → mayAccess s.members u task.uid = true) :
    s.tasks.find? p = s'.tasks.find? p := by
  have unseen := same.unseen clause
  rw [← find_filter fun task member => unseen task (List.mem_append_left _ member), same.tasks,
    find_filter fun task member => unseen task (List.mem_append_right _ member)]

theorem SameExcept.filter (same : SameExcept u tid s s')
    (clause : ∀ task, p task → mayAccess s.members u task.uid = true) :
    s.tasks.filter p = s'.tasks.filter p := by
  have unseen := same.unseen clause
  rw [← filter_filter_of_imp fun task member => unseen task (List.mem_append_left _ member),
    same.tasks, filter_filter_of_imp fun task member => unseen task (List.mem_append_right _ member)]

theorem SameExcept.listObjects (same : SameExcept u tid s s') {other : String}
    (apart : Apart other tid) : listObjects s (other ++ "/") = listObjects s' (other ++ "/") := by
  have outside : ∀ o : String × Bytes, hasPrefix o.1 (other ++ "/") = true →
      decide (hasPrefix o.1 (tid ++ "/") = false) = true := by
    intro o within
    apply decide_eq_true
    rw [Bool.eq_false_iff]
    intro both
    have one := List.isPrefixOf_iff_prefix.mp within
    have two := List.isPrefixOf_iff_prefix.mp both
    rcases List.prefix_or_prefix_of_prefix one two with shorter | longer
    · exact absurd (List.isPrefixOf_iff_prefix.mpr shorter) (Bool.eq_false_iff.mp apart.2)
    · exact absurd (List.isPrefixOf_iff_prefix.mpr longer) (Bool.eq_false_iff.mp apart.1)
  have keys (s : ServerState) : TaskReads.listObjects s (other ++ "/") =
      ((s.objects.filter fun o => hasPrefix o.1 (tid ++ "/") = false).filter
        fun o => hasPrefix o.1 (other ++ "/")).map (·.1) := by
    rw [filter_filter_of_imp fun o _ => outside o, TaskReads.listObjects, List.filter_map]
    rfl
  rw [keys s, keys s', same.objects]

theorem getTask_isolated (env : Environment) (u tid : String) : Isolated env u (.getTask tid) := by
  intro hidden s s' same
  let p (task : HotmethodTask) : Bool :=
    task.tid = tid ∧ mayAccess s.members u task.uid ∧ task.deleted = false
  have clause : ∀ task, p task → mayAccess s.members u task.uid = true := by
    intro task wanted
    exact (of_decide_eq_true wanted).2.1
  simp only [respond, getTask, ← same.members]
  rw [← same.find clause]
  cases found : s.tasks.find? p with
  | none => rfl
  | some task =>
    have wanted := List.find?_some found
    have member : task ∈ s.tasks ++ s'.tasks :=
      List.mem_append_left _ (List.mem_of_find?_eq_some found)
    have differs := of_decide_eq_true (same.unseen clause task member wanted)
    have apart := same.apart task member differs
    rw [(of_decide_eq_true wanted).1] at apart
    simp only [same.listObjects apart]

theorem listTasks_isolated (env : Environment) (u : String) (page pageSize : Option Bytes) :
    Isolated env u (.listTasks page pageSize) := by
  intro hidden s s' same
  have clause : ∀ task : HotmethodTask,
      decide (mayAccess s.members u task.uid ∧ task.deleted = false) = true →
        mayAccess s.members u task.uid = true := by
    intro task wanted
    exact (of_decide_eq_true wanted).1
  simp only [respond, listTasks, ← same.members, same.filter clause]

end same

theorem minValue_lt {x : Int64} (differs : x ≠ Int64.minValue) : Int64.minValue < x := by
  have other : x.toInt ≠ Int64.minValue.toInt := fun same => differs (Int64.toInt_inj.mp same)
  rw [Int64.lt_iff_toInt_lt]
  rw [Int64.toInt_minValue] at other ⊢
  have bound := Int64.le_toInt x
  omega

theorem lt_maxValue {x : Int64} (differs : x ≠ Int64.maxValue) : x < Int64.maxValue := by
  have other : x.toInt ≠ Int64.maxValue.toInt := fun same => differs (Int64.toInt_inj.mp same)
  rw [Int64.lt_iff_toInt_lt]
  rw [Int64.toInt_maxValue] at other ⊢
  have bound := Int64.toInt_lt x
  omega

theorem guarded_isolated {env : Environment} {u : String} {r : Request} (guarded : Guarded env r) :
    Isolated env u r := by
  cases r with
  | getTask tid => exact getTask_isolated env u tid
  | listTasks page pageSize => exact listTasks_isolated env u page pageSize
  | listCosFiles tid =>
    intro hidden s s' same
    rcases guarded with empty | absent | failing
    · simp [respond, listCosFiles, empty]
    · simp [respond, listCosFiles, absent]
    · simp [respond, listCosFiles, failing]
  | listSegments tid => exact guarded.elim
  | getProfileWindow tid window =>
    intro hidden s s' same
    cases window with
    | none => rfl
    | some w =>
      simp only [respond, getProfileWindow]
      rcases guarded w rfl with zero | zero | last | first
      · simp [zero]
      · simp [zero]
      · simp [last]
      · simp [first]
  | listSuggestions tid => exact guarded.elim
  | nlChat message tid named =>
    intro hidden s s' same
    have invalid : validMessage message = false := guarded
    simp [respond, nlChat, invalid]
  | nlChatFollowup tid message =>
    intro hidden s s' same
    have invalid : validMessage message = false := guarded
    simp [respond, nlChatFollowup, invalid]
  | nlStreamSSE tid ticks =>
    intro hidden s s' same
    cases ticks with
    | nil => rfl
    | cons elapsed ticks =>
      have late : elapsed > 300 * 10 ^ 9 := guarded elapsed rfl
      simp only [respond, nlStreamSSE, if_pos late]

def othersTask (u tid : String) (status : Int) : HotmethodTask :=
  { blankTask tid status with uid := u ++ "'" }

def othersState (u tid : String) (status : Int) (suggestions : List AnalysisSuggestion)
    (segments : List ContinuousProfileSegment) (objects : List (String × Bytes)) : ServerState :=
  ⟨[othersTask u tid status], [], suggestions, segments, objects⟩

section others
variable {env : Environment} {u tid : String} {status status' : Int}
  {suggestions suggestions' : List AnalysisSuggestion}
  {segments segments' : List ContinuousProfileSegment} {objects objects' : List (String × Bytes)}

theorem mayAccess_others (u : String) : mayAccess [] u (u ++ "'") = false := by
  have longer : u ++ "'" ≠ u := by
    intro same
    have lengths := congrArg String.length same
    simp at lengths
  simp [mayAccess, longer]

theorem sameExcept_others
    (sugs : ∀ sug ∈ suggestions ++ suggestions', sug.tid = tid)
    (segs : ∀ seg ∈ segments ++ segments', seg.tid = tid)
    (objs : ∀ o ∈ objects ++ objects', hasPrefix o.1 (tid ++ "/") = true) :
    SameExcept u tid (othersState u tid status suggestions segments objects)
      (othersState u tid status' suggestions' segments' objects') := by
  have nothing {α : Type} {p : α → Bool} {l l' : List α} (none : ∀ x ∈ l ++ l', p x = false) :
      l.filter p = l'.filter p := by
    rw [List.filter_eq_nil_iff.mpr, List.filter_eq_nil_iff.mpr]
    · intro x member
      simp [none x (List.mem_append_right _ member)]
    · intro x member
      simp [none x (List.mem_append_left _ member)]
  refine ⟨rfl, nothing ?_, nothing ?_, nothing ?_, nothing ?_, ?_, ?_⟩
  · simp [othersState, othersTask, blankTask]
  · intro sug member
    simp [sugs sug member]
  · intro seg member
    simp [segs seg member]
  · intro o member
    simp [objs o member]
  · intro task member _
    have owner : task.uid = u ++ "'" := by
      simp only [othersState, List.mem_append, List.mem_singleton] at member
      rcases member with rfl | rfl <;> rfl
    rw [owner]
    exact mayAccess_others u
  · intro task member differs
    have named : task.tid = tid := by
      simp only [othersState, List.mem_append, List.mem_singleton] at member
      rcases member with rfl | rfl <;> rfl
    exact absurd named differs

theorem not_isolated {r : Request} {s s' : ServerState} (same : SameExcept u tid s s')
    (differ : respond env s u r ≠ respond env s' u r) : ¬ Isolated env u r :=
  fun isolated => differ (isolated tid s s' same)

theorem listSegments_leaks (env : Environment) (u tid : String) :
    ¬ Isolated env u (.listSegments tid) := by
  let segment : ContinuousProfileSegment := ⟨1, tid, 0, 1, ""⟩
  have same : SameExcept u tid (othersState u tid 3 [] [segment] []) (othersState u tid 3 [] [] []) :=
    sameExcept_others (by simp) (by simp [segment]) (by simp)
  apply not_isolated same
  simp [respond, listSegments, othersState, segment]

theorem listSuggestions_leaks (env : Environment) (u tid : String) :
    ¬ Isolated env u (.listSuggestions tid) := by
  let suggestion : AnalysisSuggestion := ⟨1, tid, "", "", "", 0, false⟩
  have same : SameExcept u tid (othersState u tid 3 [suggestion] [] [])
      (othersState u tid 3 [] [] []) :=
    sameExcept_others (by simp [suggestion]) (by simp) (by simp)
  apply not_isolated same
  simp [respond, listSuggestions, suggestionsWhere, othersState, suggestion]

theorem listCosFiles_leaks (named : tid ≠ "") (storage : env.storage = true)
    (listed : env.listFails (tid ++ "/") = false) : ¬ Isolated env u (.listCosFiles tid) := by
  have own : hasPrefix (tid ++ "/") (tid ++ "/") = true :=
    List.isPrefixOf_iff_prefix.mpr (List.prefix_refl _)
  have same : SameExcept u tid (othersState u tid 3 [] [] [(tid ++ "/", [])])
      (othersState u tid 3 [] [] []) :=
    sameExcept_others (by simp) (by simp) (by simpa using own)
  apply not_isolated same
  simp [respond, listCosFiles, listObjects, othersState, named, storage, listed, own]

theorem getProfileWindow_leaks {start stop : Int64} (nonzero : start ≠ 0 ∧ stop ≠ 0)
    (before : start ≠ Int64.maxValue) (after : stop ≠ Int64.minValue) :
    ¬ Isolated env u (.getProfileWindow tid (some (start, stop))) := by
  let segment : ContinuousProfileSegment := ⟨1, tid, Int64.minValue, Int64.maxValue, ""⟩
  have same : SameExcept u tid (othersState u tid 3 [] [segment] []) (othersState u tid 3 [] [] []) :=
    sameExcept_others (by simp) (by simp [segment]) (by simp)
  apply not_isolated same
  cases stored : env.storage <;>
    simp [respond, getProfileWindow, othersState, nonzero, segment, getObject, storedObject, stored,
      minValue_lt after, lt_maxValue before]

theorem nlAnswer_tells (env : Environment) (u tid : String) :
    nlAnswerAboutTask env (othersState u tid 0 [] [] []) tid ≠
      nlAnswerAboutTask env (othersState u tid 4 [] [] []) tid := by
  simp [nlAnswerAboutTask, othersState, othersTask, blankTask, suggestionsWhere, aiSummary,
    nlTextReply, statusMsg, statusHint, String.append_assoc]

theorem sameExcept_status (u tid : String) :
    SameExcept u tid (othersState u tid 0 [] [] []) (othersState u tid 4 [] [] []) :=
  sameExcept_others (by simp) (by simp) (by simp)

theorem nlStreamSSE_leaks (env : Environment) (u tid : String) {elapsed : Nat} (ticks : List Nat)
    (early : ¬ elapsed > 300 * 10 ^ 9) :
    ¬ Isolated env u (.nlStreamSSE tid (elapsed :: ticks)) := by
  apply not_isolated (sameExcept_status u tid)
  simp only [respond, nlStreamSSE, if_neg early]
  simp [othersState, othersTask, blankTask]

end others

/-- A request never reveals a task that its user may not access exactly if it carries the
ownership clause or is refused before it reads. -/
theorem isolated_iff_guarded (env : Environment) (u : String) (r : Request) :
    Isolated env u r ↔ Guarded env r := by
  refine ⟨fun isolated => ?_, guarded_isolated⟩
  by_contra exposed
  revert isolated
  cases r with
  | getTask tid => exact absurd trivial exposed
  | listTasks page pageSize => exact absurd trivial exposed
  | listCosFiles tid =>
    simp only [Guarded, not_or, Bool.not_eq_false, Bool.not_eq_true] at exposed
    exact listCosFiles_leaks exposed.1 exposed.2.1 exposed.2.2
  | listSegments tid => exact listSegments_leaks env u tid
  | getProfileWindow tid window =>
    simp only [Guarded, not_forall, not_or] at exposed
    obtain ⟨w, rfl, start, stop, before, after⟩ := exposed
    exact getProfileWindow_leaks ⟨start, stop⟩ before after
  | listSuggestions tid => exact listSuggestions_leaks env u tid
  | nlChat message tid named =>
    have valid : validMessage message = true := by simpa [Guarded] using exposed
    apply not_isolated (sameExcept_status u tid)
    simpa [respond, nlChat, valid] using nlAnswer_tells env u tid
  | nlChatFollowup tid message =>
    have valid : validMessage message = true := by simpa [Guarded] using exposed
    apply not_isolated (sameExcept_status u tid)
    simpa [respond, nlChatFollowup, valid] using nlAnswer_tells env u tid
  | nlStreamSSE tid ticks =>
    cases ticks with
    | nil => exact absurd (by simp [Guarded]) exposed
    | cons elapsed ticks =>
      apply nlStreamSSE_leaks env u tid ticks
      simpa [Guarded] using exposed

def someEnvironment : Environment := ⟨true, fun _ => false, fun _ => false, fun _ => none, id, fun _ => none⟩

def someSegment : ContinuousProfileSegment := ⟨1, "t", 0, 60, "t/segment_0.collapsed"⟩

/-- The segments of a task of user `u'` are shown to user `u`, who shares no group with
its owner and for whom `GetTask` finds no such task. -/
theorem listSegments_shows_others_segments :
    SameExcept "u" "t" (othersState "u" "t" 3 [] [someSegment] []) (othersState "u" "t" 3 [] [] []) ∧
    respond someEnvironment (othersState "u" "t" 3 [] [someSegment] []) "u" (.listSegments "t") =
      .segments [someSegment] ∧
    respond someEnvironment (othersState "u" "t" 3 [] [] []) "u" (.listSegments "t") =
      .segments [] ∧
    respond someEnvironment (othersState "u" "t" 3 [] [someSegment] []) "u" (.getTask "t") =
      .error 404 4040001 "task not found" := by
  refine ⟨sameExcept_others (by simp) (by simp [someSegment]) (by simp), ?_, ?_, ?_⟩
  · decide
  · decide
  · decide

end DropPlatform.ReadIsolation
