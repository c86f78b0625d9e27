import DropPlatform.Collectors
import DropPlatform.TextLines
import DropPlatform.TransitionRuns

/-! What `hotmethod_analyzer.py` does to the object storage. It downloads the file that the
agent has uploaded for a task, and stores what it makes of it under the same task, for two of
the profilers with the downloaded file among it. Uploads of agents and any number of analyzers,
each of which may fail at any statement, are interleaved object by object. -/

namespace DropPlatform.AnalysisFiles
open TransitionRuns TextLines Collectors

section pipelines

/-- What the programs and texts that the analyzer uses come out with. A tool that is not found
is one that fails. -/
structure Tools where
  perfScript : Bytes → Except String Bytes
  stackcollapsePerf : Bytes → Except String Bytes
  flamegraph : List String → Bytes → Except String Bytes
  /-- `parse_topn` and the JSON text of its result. -/
  topJson : Bytes → Except String Bytes
  suggestionsMd : Bytes → Bytes
  aiSuggestionMd : Bytes → Bytes

variable (tools : Tools)

def analyzePerf (perfData : Bytes) : Except String (List (String × Bytes)) := do
  let script ← tools.perfScript perfData
  let collapsed ← tools.stackcollapsePerf script
  let svg ← tools.flamegraph ["--title", "CPU Flame Graph", "--width", "1200"] collapsed
  let top ← tools.topJson collapsed
  return [("perf.script.txt", script), ("collapsed.txt", collapsed), ("flamegraph.svg", svg),
    ("top.json", top)]

/-- The two pipelines whose input is a collapsed file already. -/
def analyzeCollapsed (options : List String) (input svgName : String) (collapsed : Bytes) :
    Except String (List (String × Bytes)) := do
  let svg ← tools.flamegraph options collapsed
  let top ← tools.topJson collapsed
  return [(input, collapsed), (svgName, svg), ("top.json", top)]

def analyzeAsyncProfiler : Bytes → Except String (List (String × Bytes)) :=
  analyzeCollapsed tools
    ["--color", "java", "--title", "Java Flame Graph (async-profiler)", "--width", "1200"]
    "async_profiler.collapsed" "flamegraph_java.svg"

def analyzeEbpf : Bytes → Except String (List (String × Bytes)) :=
  analyzeCollapsed tools
    ["--color", "io", "--title", "Off-CPU Flame Graph", "--width", "1200", "--countname",
      "microseconds"]
    "collapsed_ebpf.txt" "flamegraph_offcpu.svg"

def artifacts (profilerType : Int) (data : Bytes) : Except String (List (String × Bytes)) :=
  if profilerType = 0 then analyzePerf tools data
  else if profilerType = 1 then analyzeAsyncProfiler tools data
  else if profilerType = 3 then analyzeEbpf tools data
  else .error ("Unsupported profiler_type=" ++ toString profilerType)

/-- The artifacts, and the texts that are made from the top list and uploaded after them. -/
def files (made : List (String × Bytes)) : List (String × Bytes) :=
  made ++ match made.lookup "top.json" with
    | some top => [("suggestions.md", tools.suggestionsMd top),
        ("ai_suggestion.md", tools.aiSuggestionMd top)]
    | none => []

end pipelines

section storage

inductive Job
  | idle
  /-- The row of the task has been read. -/
  | ready (tid cosKey : String) (profilerType : Int)
  | uploading (tid : String) (left : List (String × Bytes))
  | ended

structure World where
  objects : String → Option Bytes
  jobs : Nat → Job
  /-- What agents have uploaded, the latest last. -/
  uploaded : List (String × Bytes)

inductive Action
  | uploadTaskFile (tid filename : String) (content : Bytes)
  | getTaskInfo (i : Nat) (tid cosKey : String) (profilerType : Int)
  /-- Downloads the file and runs the tools on it. -/
  | analyze (i : Nat) (tools : Tools)
  | upload (i : Nat)
  /-- Any statement raises, or the process is killed. -/
  | fail (i : Nat)

def objectKey (tid name : String) : String := tid ++ "/" ++ name

def put (w : World) (key : String) (content : Bytes) : World :=
  { w with objects := Function.update w.objects key (some content) }

def moveOn (w : World) (i : Nat) (job : Job) : World :=
  { w with jobs := Function.update w.jobs i job }

def uploadTaskFile (w : World) (tid filename : String) (content : Bytes) : World :=
  let cosKey := objectKey tid filename
  { put w cosKey content with uploaded := w.uploaded ++ [(cosKey, content)] }

def analyze (w : World) (i : Nat) (tools : Tools) : Option World :=
  match w.jobs i with
  | .ready tid cosKey profilerType =>
    match w.objects cosKey with
    | none => some (moveOn w i .ended)
    | some data =>
      match artifacts tools profilerType data with
      | .error _ => some (moveOn w i .ended)
      | .ok made => some (moveOn w i (.uploading tid (files tools made)))
  | _ => none

def upload (w : World) (i : Nat) : Option World :=
  match w.jobs i with
  | .uploading tid ((name, content) :: rest) =>
    some (moveOn (put w (objectKey tid name) content) i (.uploading tid rest))
  | .uploading _ [] => some (moveOn w i .ended)
  | _ => none

def step (w : World) : Action → Option World
  | .uploadTaskFile tid filename content => some (uploadTaskFile w tid filename content)
  | .getTaskInfo i tid cosKey profilerType =>
    match w.jobs i with
    | .idle => some (moveOn w i (.ready tid cosKey profilerType))
    | _ => none
  | .analyze i tools => analyze w i tools
  | .upload i => upload w i
  | .fail i => some (moveOn w i .ended)

def start : World := ⟨fun _ => none, fun _ => .idle, []⟩

end storage

section names

theorem objectKey_inj {tid tid' name name' : String} (clean : '/' ∉ name.toList)
    (clean' : '/' ∉ name'.toList) (same : objectKey tid name = objectKey tid' name') :
    tid = tid' ∧ name = name' := by
  have letters : tid.toList ++ '/' :: name.toList = tid'.toList ++ '/' :: name'.toList := by
    simpa [objectKey] using congrArg String.toList same
  have cuts := congrArg (cutLast '/') letters
  rw [cutLast_append _ clean, cutLast_append _ clean', Option.some.injEq, Prod.mk.injEq] at cuts
  exact ⟨String.toList_inj.mp cuts.1, String.toList_inj.mp cuts.2⟩

theorem file_clean (c : Collector) : '/' ∉ c.file.toList := by
  cases c <;> decide

variable {tools : Tools} {made : List (String × Bytes)} {data : Bytes} {f : String × Bytes}

def derivedNames : List String :=
  ["perf.script.txt", "collapsed.txt", "flamegraph.svg", "flamegraph_java.svg",
    "flamegraph_offcpu.svg", "top.json", "suggestions.md", "ai_suggestion.md"]

theorem derivedNames_clean {name : String} (derived : name ∈ derivedNames) :
    '/' ∉ name.toList ∧ ∀ c : Collector, name ≠ c.file := by
  have all : (derivedNames.all fun name => ¬ name.toList.contains '/' ∧
      name ∉ [Collector.perf, .asyncProfiler, .ebpf, .script].map Collector.file) = true := by
    decide +kernel
  have here := of_decide_eq_true (List.all_eq_true.mp all name derived)
  refine ⟨by simpa using here.1, fun c same => here.2 ?_⟩
  rw [same]
  exact List.mem_map_of_mem (by cases c <;> simp)

theorem mem_files {top : Bytes} (listed : made.lookup "top.json" = some top)
    (member : f ∈ files tools made) : f ∈ made ∨ f.1 ∈ derivedNames := by
  rw [files, listed] at member
  refine (List.mem_append.mp member).imp_right fun text => ?_
  rcases List.mem_pair.mp text with rfl | rfl <;> simp [derivedNames]

theorem files_perf (done : analyzePerf tools data = .ok made) (member : f ∈ files tools made) :
    f.1 ∈ derivedNames := by
  obtain ⟨script, _, done⟩ := ok_of_bind done
  obtain ⟨collapsed, _, done⟩ := ok_of_bind done
  obtain ⟨svg, _, done⟩ := ok_of_bind done
  obtain ⟨top, _, done⟩ := ok_of_bind done
  obtain rfl := Except.ok.inj done
  rcases mem_files rfl member with made | derived
  · simp only [List.mem_cons, List.not_mem_nil, or_false] at made
    rcases made with rfl | rfl | rfl | rfl <;> simp [derivedNames]
  · exact derived

theorem files_collapsed {options : List String} {input svgName : String}
    (plain : input ≠ "top.json") (other : svgName ≠ "top.json") (svg : svgName ∈ derivedNames)
    (done : analyzeCollapsed tools options input svgName data = .ok made)
    (member : f ∈ files tools made) : f = (input, data) ∨ f.1 ∈ derivedNames := by
  obtain ⟨picture, _, done⟩ := ok_of_bind done
  obtain ⟨top, _, done⟩ := ok_of_bind done
  obtain rfl := Except.ok.inj done
  have listed : [(input, data), (svgName, picture), ("top.json", top)].lookup "top.json" =
      some top := by
    rw [List.lookup_cons, List.lookup_cons, beq_eq_false_iff_ne.mpr plain.symm,
      beq_eq_false_iff_ne.mpr other.symm]
    rfl
  rcases mem_files listed member with made | derived
  · simp only [List.mem_cons, List.not_mem_nil, or_false] at made
    rcases made with rfl | rfl | rfl
    · exact .inl rfl
    · exact .inr svg
    · exact .inr (by simp [derivedNames])
  · exact .inr derived

theorem files_of_artifacts {profilerType : Int} (done : artifacts tools profilerType data = .ok made)
    (member : f ∈ files tools made) : f.1 ∈ derivedNames ∨
      ∃ c, (c = .asyncProfiler ∨ c = .ebpf) ∧
        createProfiler (profilerType % 2 ^ 32).toNat = some c ∧ f = (c.file, data) := by
  unfold artifacts at done
  split_ifs at done with perf java ebpf
  · exact .inl (files_perf done member)
  · refine (files_collapsed (by decide) (by decide) (by decide) done member).symm.imp_right fun same => ?_
    exact ⟨.asyncProfiler, .inl rfl, by rw [java]; rfl, same⟩
  · refine (files_collapsed (by decide) (by decide) (by decide) done member).symm.imp_right fun same => ?_
    exact ⟨.ebpf, .inr rfl, by rw [ebpf]; rfl, same⟩

end names

section jobs
variable {w : World} {i : Nat} {tid : String} {c d : Collector}

/-- The key of the task is that of the file which the collector of its profiler reports. -/
def Collects (tid cosKey : String) (profilerType : Int) : Prop :=
  ∃ c, createProfiler (profilerType % 2 ^ 32).toNat = some c ∧ cosKey = objectKey tid c.file

/-- What an analyzer has yet to upload under a collector's name, with what is known of it. -/
def Job.Sound (known : String → Bytes → Prop) : Job → Prop
  | .ready tid cosKey profilerType => Collects tid cosKey profilerType
  | .uploading tid left => ∀ f ∈ left, f.1 ∈ derivedNames ∨
      ∃ c : Collector, (c = .asyncProfiler ∨ c = .ebpf) ∧ f.1 = c.file ∧
        known (objectKey tid c.file) f.2
  | .idle | .ended => True

theorem Job.Sound.mono {known known' : String → Bytes → Prop} {job : Job} (sound : job.Sound known)
    (more : ∀ (c : Collector) data, ∀ tid left, job = .uploading tid left →
      known (objectKey tid c.file) data → known' (objectKey tid c.file) data) :
    job.Sound known' := by
  cases job with
  | idle | ended => trivial
  | ready => exact sound
  | uploading tid left =>
    intro f member
    refine (sound f member).imp_right ?_
    rintro ⟨c, kind, name, here⟩
    exact ⟨c, kind, name, more c _ _ _ rfl here⟩

theorem file_inj (same : c.file = d.file) : c = d := by
  revert same
  cases c <;> cases d <;> decide

theorem objectKey_file_inj {tid' : String} (same : objectKey tid c.file = objectKey tid' d.file) :
    tid = tid' ∧ c = d := by
  obtain ⟨first, second⟩ := objectKey_inj (file_clean c) (file_clean d) same
  exact ⟨first, file_inj second⟩

theorem objectKey_ne_derived {tid' name : String} (derived : name ∈ derivedNames) :
    objectKey tid' name ≠ objectKey tid c.file := by
  intro same
  have clean := derivedNames_clean derived
  exact clean.2 c (objectKey_inj clean.1 (file_clean c) same).2

theorem sound_artifacts {tools : Tools} {profilerType : Int} {cosKey : String}
    {made : List (String × Bytes)} {data : Bytes} (collects : Collects tid cosKey profilerType)
    (stored : w.objects cosKey = some data) (done : artifacts tools profilerType data = .ok made) :
    (Job.uploading tid (files tools made)).Sound fun key content => w.objects key = some content := by
  intro f member
  refine (files_of_artifacts done member).imp_right ?_
  rintro ⟨c, kind, own, rfl⟩
  obtain ⟨c', own', rfl⟩ := collects
  obtain rfl := Option.some.inj (own.symm.trans own')
  exact ⟨c, kind, rfl, stored⟩

/-- A step of the storage and the jobs, with what becomes of the two. -/
inductive Move (w : World) : Action → World → Prop
  | uploadTaskFile (tid filename : String) (content : Bytes) :
    Move w (.uploadTaskFile tid filename content) (uploadTaskFile w tid filename content)
  | moveOn {a : Action} (i : Nat) (job : Job)
      (sound : (∃ tid cosKey profilerType, a = .getTaskInfo i tid cosKey profilerType ∧
          job = .ready tid cosKey profilerType) ∨
        (∃ tid cosKey profilerType tools data made, w.jobs i = .ready tid cosKey profilerType ∧
          w.objects cosKey = some data ∧ artifacts tools profilerType data = .ok made ∧
          job = .uploading tid (files tools made)) ∨ job = .ended) :
    Move w a (moveOn w i job)
  | upload {i : Nat} {tid : String} {f : String × Bytes} {rest : List (String × Bytes)}
      (at_ : w.jobs i = .uploading tid (f :: rest)) :
    Move w (.upload i) (moveOn (put w (objectKey tid f.1) f.2) i (.uploading tid rest))

theorem move_of_step {a : Action} {w' : World} (next : step w a = some w') : Move w a w' := by
  cases a with
  | uploadTaskFile tid filename content =>
    rw [← Option.some.inj next]
    exact .uploadTaskFile tid filename content
  | getTaskInfo i tid cosKey profilerType =>
    simp only [step] at next
    split at next
    · rw [← Option.some.inj next]
      exact .moveOn i _ (.inl ⟨tid, cosKey, profilerType, rfl, rfl⟩)
    · cases next
  | analyze i tools =>
    simp only [step, analyze] at next
    split at next
    · rename_i tid cosKey profilerType at_
      split at next
      · rw [← Option.some.inj next]
        exact .moveOn i _ (.inr (.inr rfl))
      · rename_i data stored
        split at next
        · rw [← Option.some.inj next]
          exact .moveOn i _ (.inr (.inr rfl))
        · rename_i made done
          rw [← Option.some.inj next]
          exact .moveOn i _ (.inr (.inl ⟨_, _, _, _, _, _, at_, stored, done, rfl⟩))
    · cases next
  | upload i =>
    simp only [step, upload] at next
    split at next
    · rename_i at_
      rw [← Option.some.inj next]
      exact .upload at_
    · rw [← Option.some.inj next]
      exact .moveOn i _ (.inr (.inr rfl))
    · cases next
  | fail i =>
    rw [← Option.some.inj next]
    exact .moveOn i _ (.inr (.inr rfl))

end jobs

section runs
variable {w w' : World} {a : Action}

def lastUpload (uploaded : List (String × Bytes)) (key : String) : Option Bytes :=
  uploaded.reverse.lookup key

theorem lastUpload_snoc (uploaded : List (String × Bytes)) (key key' : String) (content : Bytes) :
    lastUpload (uploaded ++ [(key, content)]) key' =
      if key' = key then some content else lastUpload uploaded key' := by
  rw [lastUpload, List.reverse_append, List.reverse_singleton, List.singleton_append,
    List.lookup_cons]
  by_cases same : key' = key
  · rw [if_pos same, beq_iff_eq.mpr same]
  · rw [if_neg same, beq_eq_false_iff_ne.mpr same]
    rfl

def Collected (_ : World) : Action → Prop
  | .getTaskInfo _ tid cosKey profilerType => Collects tid cosKey profilerType
  | _ => True

theorem sound_moveOn {known : String → Bytes → Prop} {i : Nat} {job : Job}
    (jobs : ∀ j, (w.jobs j).Sound known) (sound : job.Sound known) (j : Nat) :
    ((moveOn w i job).jobs j).Sound known := by
  show (Function.update w.jobs i job j).Sound known
  by_cases same : j = i
  · rw [same, Function.update_self]
    exact sound
  · rw [Function.update_of_ne same]
    exact jobs j

def Uploaded (w : World) (key : String) (content : Bytes) : Prop := (key, content) ∈ w.uploaded

structure Inv (w : World) : Prop where
  jobs : ∀ i, (w.jobs i).Sound (Uploaded w)
  stored : ∀ tid (c : Collector) content, w.objects (objectKey tid c.file) = some content →
    Uploaded w (objectKey tid c.file) content
  /-- No analyzer returns the file of these two. -/
  latest : ∀ tid (c : Collector), c = .perf ∨ c = .script →
    w.objects (objectKey tid c.file) = lastUpload w.uploaded (objectKey tid c.file)

theorem inv_start : Inv start where
  jobs _ := trivial
  stored _ _ _ stored := (Option.some_ne_none _ stored.symm).elim
  latest _ _ _ := rfl

theorem Inv.uploadTaskFile (inv : Inv w) (tid filename : String) (content : Bytes) :
    Inv (uploadTaskFile w tid filename content) where
  jobs i := (inv.jobs i).mono fun _ _ _ _ _ known => List.mem_append_left _ known
  stored tid' c content' stored := by
    simp only [AnalysisFiles.uploadTaskFile, put, Function.update_apply] at stored
    split_ifs at stored with same
    · rw [← Option.some.inj stored, same]
      exact List.mem_append_right _ List.mem_cons_self
    · exact List.mem_append_left _ (inv.stored tid' c content' stored)
  latest tid' c kind := by
    simp only [AnalysisFiles.uploadTaskFile, put, Function.update_apply, lastUpload_snoc,
      inv.latest tid' c kind]

theorem Inv.put (inv : Inv w) {tid : String} {f : String × Bytes}
    (sound : f.1 ∈ derivedNames ∨ ∃ c : Collector, (c = .asyncProfiler ∨ c = .ebpf) ∧
      f.1 = c.file ∧ Uploaded w (objectKey tid c.file) f.2) :
    Inv (put w (objectKey tid f.1) f.2) := by
  refine ⟨inv.jobs, fun tid' c content stored => ?_, fun tid' c kind => ?_⟩
  · simp only [AnalysisFiles.put, Function.update_apply] at stored
    split_ifs at stored with same
    · rcases sound with derived | ⟨d, _, name, uploaded⟩
      · exact absurd same.symm (objectKey_ne_derived derived)
      · rw [same, ← Option.some.inj stored, name]
        exact uploaded
    · exact inv.stored tid' c content stored
  · have other : objectKey tid' c.file ≠ objectKey tid f.1 := by
      rcases sound with derived | ⟨d, returned, name, _⟩
      · exact (objectKey_ne_derived derived).symm
      · rw [name]
        intro same
        obtain ⟨_, rfl⟩ := objectKey_file_inj same
        rcases kind with rfl | rfl <;> simp at returned
    simp only [AnalysisFiles.put, Function.update_of_ne other]
    exact inv.latest tid' c kind

theorem Inv.step (inv : Inv w) (collected : Collected w a) (next : step w a = some w') :
    Inv w' := by
  cases move_of_step next with
  | uploadTaskFile tid filename content => exact inv.uploadTaskFile tid filename content
  | moveOn i job sound =>
    refine ⟨sound_moveOn inv.jobs ?_, inv.stored, inv.latest⟩
    rcases sound with ⟨tid, cosKey, profilerType, rfl, rfl⟩ |
      ⟨tid, cosKey, profilerType, tools, data, made, at_, stored, done, rfl⟩ | rfl
    · exact collected
    · have collects := inv.jobs i
      rw [at_] at collects
      exact (sound_artifacts collects stored done).mono fun c content tid _ _ stored =>
        inv.stored tid c content stored
    · trivial
  | @upload i tid f rest at_ =>
    have sound := inv.jobs i
    rw [at_] at sound
    have after := inv.put (sound f List.mem_cons_self)
    refine ⟨sound_moveOn after.jobs fun g member => ?_, after.stored, after.latest⟩
    exact sound g (List.mem_cons_of_mem f member)

/-- Besides, agents upload files with plain names, and none of a task whose analysis is under way. -/
def Undisturbed (w : World) : Action → Prop
  | .uploadTaskFile tid filename _ => '/' ∉ filename.toList ∧
      ∀ i left, w.jobs i ≠ .uploading tid left
  | a => Collected w a

def Stored (w : World) (key : String) (content : Bytes) : Prop := w.objects key = some content

structure Quiet (w : World) : Prop where
  jobs : ∀ i, (w.jobs i).Sound (Stored w)
  latest : ∀ tid (c : Collector),
    w.objects (objectKey tid c.file) = lastUpload w.uploaded (objectKey tid c.file)

theorem Quiet.uploadTaskFile (quiet : Quiet w) {tid filename : String} (content : Bytes)
    (clean : '/' ∉ filename.toList) (idle : ∀ i left, w.jobs i ≠ .uploading tid left) :
    Quiet (uploadTaskFile w tid filename content) where
  jobs i := by
    refine (quiet.jobs i).mono fun c content' tid' left at_ stored => ?_
    have other : objectKey tid' c.file ≠ objectKey tid filename := by
      intro same
      obtain ⟨rfl, _⟩ := objectKey_inj (file_clean c) clean same
      exact idle i left at_
    exact (Function.update_of_ne other _ _).trans stored
  latest tid' c := by
    simp only [AnalysisFiles.uploadTaskFile, AnalysisFiles.put, Function.update_apply,
      lastUpload_snoc, quiet.latest tid' c]

theorem Quiet.put (quiet : Quiet w) {tid : String} {f : String × Bytes}
    (sound : f.1 ∈ derivedNames ∨ ∃ c : Collector, (c = .asyncProfiler ∨ c = .ebpf) ∧
      f.1 = c.file ∧ Stored w (objectKey tid c.file) f.2) :
    Quiet (put w (objectKey tid f.1) f.2) ∧
      ∀ tid' (c : Collector), (put w (objectKey tid f.1) f.2).objects (objectKey tid' c.file) =
        w.objects (objectKey tid' c.file) := by
  have same : ∀ tid' (c : Collector),
      (AnalysisFiles.put w (objectKey tid f.1) f.2).objects (objectKey tid' c.file) =
        w.objects (objectKey tid' c.file) := by
    intro tid' c
    rcases sound with derived | ⟨d, _, name, stored⟩
    · exact Function.update_of_ne (objectKey_ne_derived derived).symm _ _
    · rw [name, AnalysisFiles.put, ← show w.objects (objectKey tid d.file) = some f.2 from stored,
        Function.update_eq_self]
  refine ⟨⟨fun i => ?_, fun tid' c => (same tid' c).trans (quiet.latest tid' c)⟩, same⟩
  exact (quiet.jobs i).mono fun c content tid' _ _ stored => (same tid' c).trans stored

theorem Quiet.step (quiet : Quiet w) (undisturbed : Undisturbed w a)
    (next : step w a = some w') : Quiet w' := by
  cases move_of_step next with
  | uploadTaskFile tid filename content =>
    exact quiet.uploadTaskFile content undisturbed.1 undisturbed.2
  | moveOn i job sound =>
    refine ⟨sound_moveOn quiet.jobs ?_, quiet.latest⟩
    rcases sound with ⟨tid, cosKey, profilerType, rfl, rfl⟩ |
      ⟨tid, cosKey, profilerType, tools, data, made, at_, stored, done, rfl⟩ | rfl
    · exact undisturbed
    · have collects := quiet.jobs i
      rw [at_] at collects
      exact sound_artifacts collects stored done
    · trivial
  | @upload i tid f rest at_ =>
    have sound := quiet.jobs i
    rw [at_] at sound
    obtain ⟨after, same⟩ := quiet.put (sound f List.mem_cons_self)
    refine ⟨sound_moveOn after.jobs fun g member => ?_, after.latest⟩
    refine (sound g (List.mem_cons_of_mem f member)).imp_right ?_
    rintro ⟨c, kind, name, stored⟩
    exact ⟨c, kind, name, (same tid c).trans stored⟩

end runs

end DropPlatform.AnalysisFiles
