import DropPlatform.TransitionRuns
import Mathlib.Data.Int.Order.Basic
import Mathlib.Logic.Function.Basic
import Mathlib.Tactic

/-! The calls on one `EbpfLoader`. The loader keeps the open object, the link of its
program and two flags, which different calls change; the objects, the links and the pid
filter of each object are the kernel's. Every call of libbpf may fail. -/

namespace DropPlatform.EbpfLoader
open TransitionRuns

/-- Objects are numbered in the order in which they are opened; their programs, maps and
links go by the number of the object. -/
structure Kernel where
  opened : Nat
  objects : List Nat
  links : List Nat
  /-- The entry 0 of the map `target_pid` of an object. -/
  targetPid : Nat → Option UInt32

/-- A pointer that is null and a descriptor that is −1 are `none`. -/
structure Impl where
  obj : Option Nat
  prog : Option Nat
  link : Option Nat
  countsFd : Option Nat
  stackFd : Option Nat
  targetPidFd : Option Nat
  loaded : Bool
  attached : Bool

structure World where
  kernel : Kernel
  impl : Impl
  /-- The pid of the last `attach` that has succeeded. -/
  asked : Int32

def start : World :=
  ⟨⟨0, [], [], fun _ => none⟩, ⟨none, none, none, none, none, none, false, false⟩, 0⟩

/-- What libbpf answers during one call, and the text for `errno` after a failure. -/
structure Libbpf where
  opens : Bool
  loads : Bool
  hasProgram : Bool
  hasCounts : Bool
  hasStackTraces : Bool
  hasTargetPid : Bool
  updates : Bool
  attaches : Bool
  strerror : String

def openObj (w : World) : World where
  kernel := { w.kernel with
    opened := w.kernel.opened + 1
    objects := w.kernel.objects ++ [w.kernel.opened]
    targetPid := Function.update w.kernel.targetPid w.kernel.opened none }
  impl := { w.impl with obj := some w.kernel.opened }
  asked := w.asked

def closeObj (w : World) : World :=
  match w.impl.obj with
  | none => w
  | some obj => { w with
      kernel.objects := w.kernel.objects.erase obj
      impl.obj := none }

def load (bpf : Libbpf) (bpfOPath : String) (w : World) : Except String Unit × World :=
  if w.impl.loaded then (.error "BPF object already loaded", w)
  else if !bpf.opens then
    (.error ("Failed to open BPF object: " ++ bpfOPath ++ " (" ++ bpf.strerror ++ ")"),
      { w with impl.obj := none })
  else
    let w := openObj w
    if !bpf.loads then (.error ("Failed to load BPF object: " ++ bpf.strerror), closeObj w)
    else if !bpf.hasProgram then
      (.error "Failed to find BPF program 'trace_sched_switch'",
        closeObj { w with impl.prog := none })
    else
      let w := { w with impl.prog := w.impl.obj }
      if !bpf.hasCounts || !bpf.hasStackTraces then
        (.error "Failed to find required BPF maps (counts, stack_traces)", closeObj w)
      else
        (.ok (), { w with impl := { w.impl with
          countsFd := w.impl.obj
          stackFd := w.impl.obj
          targetPidFd := if bpf.hasTargetPid then w.impl.obj else w.impl.targetPidFd
          loaded := true } })

def writeFilter (w : World) (fd : Nat) (targetPid : Int32) : World :=
  { w with kernel.targetPid := Function.update w.kernel.targetPid fd (some targetPid.toUInt32) }

/-- The filter is written only for a pid above zero and only if the map has been found. -/
def setFilter (bpf : Libbpf) (targetPid : Int32) (w : World) : Except String World :=
  match w.impl.targetPidFd with
  | none => .ok w
  | some fd =>
    if 0 < targetPid then
      if bpf.updates then .ok (writeFilter w fd targetPid)
      else .error ("Failed to set target PID filter: " ++ bpf.strerror)
    else .ok w

def attachProgram (bpf : Libbpf) (w : World) : World :=
  let link := if bpf.attaches then w.impl.prog else none
  { w with
    kernel.links := w.kernel.links ++ link.toList
    impl.link := link }

def attach (bpf : Libbpf) (targetPid : Int32) (w : World) : Except String Unit × World :=
  if !w.impl.loaded then (.error "BPF object not loaded", w)
  else if w.impl.attached then (.error "Already attached", w)
  else
    match setFilter bpf targetPid w with
    | .error errorMsg => (.error errorMsg, w)
    | .ok w =>
      let w := attachProgram bpf w
      match w.impl.link with
      | none => (.error ("Failed to attach BPF program: " ++ bpf.strerror), w)
      | some _ => (.ok (), { w with impl.attached := true, asked := targetPid })

/-- Polling reads the maps and changes nothing of the loader. -/
def poll (outputPath : String) (isOpen : Bool) (w : World) : Except String Unit :=
  if !w.impl.attached then .error "Not attached"
  else if !isOpen then .error ("Failed to open output file: " ++ outputPath)
  else .ok ()

def detach (w : World) : World :=
  match w.impl.link with
  | none => { w with impl.attached := false }
  | some link => { w with
      kernel.links := w.kernel.links.erase link
      impl.link := none
      impl.attached := false }

def unload (w : World) : World :=
  let w := closeObj w
  { w with impl := { w.impl with
    loaded := false, countsFd := none, stackFd := none, targetPidFd := none } }

inductive Call
  | load (bpf : Libbpf) (bpfOPath : String)
  | attach (bpf : Libbpf) (targetPid : Int32)
  | poll (outputPath : String) (isOpen : Bool)
  | detach
  | unload

def next (w : World) : Call → World
  | .load bpf bpfOPath => (load bpf bpfOPath w).2
  | .attach bpf targetPid => (attach bpf targetPid w).2
  | .poll _ _ => w
  | .detach => detach w
  | .unload => unload w

/-- The filter that stands in the kernel is the one that `attach(targetPid)` asks for. -/
def Filters (entry : Option UInt32) (targetPid : Int32) : Prop :=
  if 0 < targetPid then entry = some targetPid.toUInt32 else entry = none ∨ entry = some 0

/-- While the loader says it is attached, it is loaded, the object of the one link is open,
and that object filters as the last successful `attach` has asked. -/
def Sound (w : World) : Prop :=
  w.impl.attached = true → w.impl.loaded = true ∧
    ∃ obj ∈ w.kernel.objects, w.kernel.links = [obj] ∧ Filters (w.kernel.targetPid obj) w.asked

/-- `unload` comes only after `detach`; where the program will be attached, the map for the
filter of a pid has been found, and none is left from an earlier `attach` if there is to be
no filter. -/
def Allowed (w : World) : Call → Prop
  | .unload => w.impl.attached = false
  | .attach bpf targetPid =>
    w.impl.loaded = true → w.impl.attached = false → bpf.attaches = true →
      if 0 < targetPid then w.impl.targetPidFd ≠ none
      else ∀ obj, w.impl.obj = some obj →
        w.kernel.targetPid obj = none ∨ w.kernel.targetPid obj = some 0
  | _ => True

structure Unloaded (w : World) : Prop where
  obj : w.impl.obj = none
  loaded : w.impl.loaded = false
  targetPidFd : w.impl.targetPidFd = none
  objects : w.kernel.objects = []

structure Loaded (w : World) (n : Nat) : Prop where
  obj : w.impl.obj = some n
  prog : w.impl.prog = some n
  loaded : w.impl.loaded = true
  objects : w.kernel.objects = [n]
  targetPidFd : w.impl.targetPidFd = some n ∨
    w.impl.targetPidFd = none ∧ w.kernel.targetPid n = none

structure Detached (w : World) : Prop where
  link : w.impl.link = none
  attached : w.impl.attached = false
  links : w.kernel.links = []

structure Attached (w : World) (n : Nat) : Prop where
  link : w.impl.link = some n
  attached : w.impl.attached = true
  links : w.kernel.links = [n]
  filters : Filters (w.kernel.targetPid n) w.asked

/-- The three stages of a loader that is used as it should be. -/
inductive Stage (w : World) : Prop
  | unloaded (here : Unloaded w) (detached : Detached w)
  | loaded (n : Nat) (here : Loaded w n) (detached : Detached w)
  | attached (n : Nat) (here : Loaded w n) (attached : Attached w n)

theorem stage_start : Stage start := .unloaded ⟨rfl, rfl, rfl, rfl⟩ ⟨rfl, rfl, rfl⟩

section stages
variable {w w' : World} {n : Nat} {bpf : Libbpf} {targetPid : Int32}

theorem Loaded.mem_objects (here : Loaded w n) : n ∈ w.kernel.objects := by
  rw [here.objects]
  exact List.mem_singleton_self n

theorem Stage.sound (stage : Stage w) : Sound w := by
  intro attached
  cases stage with
  | unloaded here detached => exact absurd (detached.attached.symm.trans attached) nofun
  | loaded n here detached => exact absurd (detached.attached.symm.trans attached) nofun
  | attached n here linked => exact ⟨here.loaded, n, here.mem_objects, linked.links, linked.filters⟩

theorem load_loaded (loaded : w.impl.loaded = true) (bpfOPath : String) :
    load bpf bpfOPath w = (.error "BPF object already loaded", w) := by
  rw [load, if_pos loaded]

theorem Unloaded.closeObj (here : Unloaded w) (detached : Detached w) (prog : Option Nat) :
    Stage (closeObj { openObj w with impl.prog := prog }) := by
  refine .unloaded ⟨rfl, here.loaded, here.targetPidFd, ?_⟩ ⟨detached.link, detached.attached,
    detached.links⟩
  simp [EbpfLoader.closeObj, openObj, here.objects]

theorem Unloaded.load (here : Unloaded w) (detached : Detached w) (bpfOPath : String) :
    Stage (load bpf bpfOPath w).2 := by
  have objects : (openObj w).kernel.objects = [w.kernel.opened] := by
    rw [openObj, here.objects]
    rfl
  have empty : (openObj w).kernel.targetPid w.kernel.opened = none := Function.update_self ..
  rw [EbpfLoader.load, if_neg (by rw [here.loaded]; exact Bool.false_ne_true)]
  split_ifs with opens loads program maps found
  · exact .unloaded ⟨rfl, here.loaded, here.targetPidFd, here.objects⟩
      ⟨detached.link, detached.attached, detached.links⟩
  · exact here.closeObj detached w.impl.prog
  · exact here.closeObj detached none
  · exact here.closeObj detached (some w.kernel.opened)
  · exact .loaded w.kernel.opened ⟨rfl, rfl, rfl, objects, .inl rfl⟩
      ⟨detached.link, detached.attached, detached.links⟩
  · exact .loaded w.kernel.opened ⟨rfl, rfl, rfl, objects, .inr ⟨here.targetPidFd, empty⟩⟩
      ⟨detached.link, detached.attached, detached.links⟩

theorem Stage.load (stage : Stage w) (bpfOPath : String) : Stage (load bpf bpfOPath w).2 := by
  cases stage with
  | unloaded here detached => exact here.load detached bpfOPath
  | loaded n here detached =>
    rw [load_loaded here.loaded]
    exact .loaded n here detached
  | attached n here attached =>
    rw [load_loaded here.loaded]
    exact .attached n here attached

def Ready (w : World) (n : Nat) (targetPid : Int32) : Prop :=
  if 0 < targetPid then w.impl.targetPidFd ≠ none
  else w.kernel.targetPid n = none ∨ w.kernel.targetPid n = some 0

theorem setFilter_ok (here : Loaded w n) (set : setFilter bpf targetPid w = .ok w') :
    0 < targetPid ∧ w.impl.targetPidFd = some n ∧ w' = writeFilter w n targetPid ∨
      w' = w ∧ (0 < targetPid → w.impl.targetPidFd = none) := by
  unfold setFilter at set
  rcases here.targetPidFd with found | ⟨missing, -⟩
  · simp only [found] at set
    split_ifs at set with positive
    · exact .inl ⟨positive, found, (Except.ok.inj set).symm⟩
    · exact .inr ⟨(Except.ok.inj set).symm, fun positive' => absurd positive' positive⟩
  · simp only [missing] at set
    exact .inr ⟨(Except.ok.inj set).symm, fun _ => missing⟩

theorem setFilter_error {errorMsg : String} (set : setFilter bpf targetPid w = .error errorMsg) :
    0 < targetPid ∧ w.impl.targetPidFd ≠ none := by
  unfold setFilter at set
  split at set
  · exact absurd set nofun
  · rename_i fd found
    split_ifs at set with positive
    exact ⟨positive, by rw [found]; exact Option.some_ne_none fd⟩

theorem Loaded.setFilter (here : Loaded w n) (set : setFilter bpf targetPid w = .ok w') :
    Loaded w' n := by
  rcases setFilter_ok here set with ⟨-, found, rfl⟩ | ⟨rfl, -⟩
  · exact ⟨here.obj, here.prog, here.loaded, here.objects, .inl found⟩
  · exact here

theorem Detached.setFilter (here : Loaded w n) (detached : Detached w)
    (set : setFilter bpf targetPid w = .ok w') : Detached w' := by
  rcases setFilter_ok here set with ⟨-, -, rfl⟩ | ⟨rfl, -⟩
  · exact ⟨detached.link, detached.attached, detached.links⟩
  · exact detached

theorem setFilter_filters_iff (here : Loaded w n) (set : setFilter bpf targetPid w = .ok w') :
    Filters (w'.kernel.targetPid n) targetPid ↔ Ready w n targetPid := by
  unfold Filters Ready
  rcases setFilter_ok here set with ⟨positive, found, rfl⟩ | ⟨rfl, missing⟩
  · simp [positive, writeFilter, found]
  · by_cases positive : 0 < targetPid
    · -- the map is missing, and so is its entry
      have absent : w'.kernel.targetPid n = none := by
        rcases here.targetPidFd with found | ⟨-, absent⟩
        · exact absurd (found.symm.trans (missing positive)) nofun
        · exact absent
      simp [positive, absent, missing positive]
    · simp only [positive, if_false]

def linked (w : World) (n : Nat) (targetPid : Int32) : World :=
  { w with kernel.links := [n], impl.link := some n, impl.attached := true, asked := targetPid }

theorem attach_cases (here : Loaded w n) (detached : Detached w) :
    (∃ errorMsg, setFilter bpf targetPid w = .error errorMsg ∧ (attach bpf targetPid w).2 = w) ∨
      ∃ w', setFilter bpf targetPid w = .ok w' ∧
        (attach bpf targetPid w).2 =
          if bpf.attaches then linked w' n targetPid else attachProgram bpf w' := by
  rw [attach, if_neg (by rw [here.loaded]; decide), if_neg (by rw [detached.attached]; decide)]
  cases set : EbpfLoader.setFilter bpf targetPid w with
  | error errorMsg => exact .inl ⟨errorMsg, rfl, rfl⟩
  | ok w' =>
    refine .inr ⟨w', rfl, ?_⟩
    have away := detached.setFilter here set
    cases attaches : bpf.attaches with
    | false => simp [attachProgram, attaches]
    | true => simp [attachProgram, attaches, linked, (here.setFilter set).prog, away.links]

theorem Stage.attach (stage : Stage w) (allowed : Allowed w (.attach bpf targetPid)) :
    Stage (attach bpf targetPid w).2 := by
  cases stage with
  | unloaded here detached =>
    rw [EbpfLoader.attach, if_pos (by rw [here.loaded]; rfl)]
    exact .unloaded here detached
  | attached n here attached =>
    rw [EbpfLoader.attach, if_neg (by rw [here.loaded]; decide), if_pos attached.attached]
    exact .attached n here attached
  | loaded n here detached =>
    rcases attach_cases here detached with ⟨errorMsg, -, same⟩ | ⟨w', set, after⟩
    · rw [same]
      exact .loaded n here detached
    · have still := here.setFilter set
      have away := detached.setFilter here set
      rw [after]
      split_ifs with attaches
      · have ready : Ready w n targetPid := by
          have needs := allowed here.loaded detached.attached attaches
          unfold Ready
          split_ifs at needs ⊢
          · exact needs
          · exact needs n here.obj
        exact .attached n ⟨still.obj, still.prog, still.loaded, still.objects, still.targetPidFd⟩
          ⟨rfl, rfl, rfl, (setFilter_filters_iff here set).mpr ready⟩
      · exact .loaded n ⟨still.obj, still.prog, still.loaded, still.objects, still.targetPidFd⟩
          ⟨if_neg attaches, away.attached, by simp [attachProgram, attaches, away.links]⟩

theorem Stage.detach (stage : Stage w) : Stage (detach w) := by
  cases stage with
  | unloaded here detached =>
    rw [EbpfLoader.detach, detached.link]
    exact .unloaded ⟨here.obj, here.loaded, here.targetPidFd, here.objects⟩
      ⟨detached.link, rfl, detached.links⟩
  | loaded n here detached =>
    rw [EbpfLoader.detach, detached.link]
    exact .loaded n ⟨here.obj, here.prog, here.loaded, here.objects, here.targetPidFd⟩
      ⟨detached.link, rfl, detached.links⟩
  | attached n here attached =>
    rw [EbpfLoader.detach, attached.link]
    refine .loaded n ⟨here.obj, here.prog, here.loaded, here.objects, here.targetPidFd⟩
      ⟨rfl, rfl, ?_⟩
    simp only [attached.links, List.erase_cons_head]

theorem Stage.unload (stage : Stage w) (allowed : w.impl.attached = false) : Stage (unload w) := by
  cases stage with
  | unloaded here detached =>
    rw [EbpfLoader.unload, EbpfLoader.closeObj, here.obj]
    exact .unloaded ⟨here.obj, rfl, rfl, here.objects⟩
      ⟨detached.link, detached.attached, detached.links⟩
  | loaded n here detached =>
    rw [EbpfLoader.unload, EbpfLoader.closeObj, here.obj]
    refine .unloaded ⟨rfl, rfl, rfl, ?_⟩ ⟨detached.link, detached.attached, detached.links⟩
    simp only [here.objects, List.erase_cons_head]
  | attached n here attached => exact absurd (allowed.symm.trans attached.attached) nofun

theorem Stage.next (stage : Stage w) {call : Call} (allowed : Allowed w call) :
    Stage (next w call) := by
  cases call with
  | load bpf bpfOPath => exact stage.load bpfOPath
  | attach bpf targetPid => exact stage.attach allowed
  | poll outputPath isOpen => exact stage
  | detach => exact stage.detach
  | unload => exact stage.unload allowed

theorem unload_sound (sound : Sound (unload w)) : w.impl.attached = false := by
  by_contra attached
  have still : (EbpfLoader.unload w).impl.attached = true := by
    rw [EbpfLoader.unload, EbpfLoader.closeObj]
    split
    · exact Bool.eq_true_of_not_eq_false attached
    · exact Bool.eq_true_of_not_eq_false attached
  exact absurd (sound still).1 nofun

theorem attach_sound (stage : Stage w) (sound : Sound (attach bpf targetPid w).2) :
    Allowed w (.attach bpf targetPid) := by
  intro loaded detached attaches
  cases stage with
  | unloaded here _ => exact absurd (here.loaded.symm.trans loaded) nofun
  | attached n here attached => exact absurd (detached.symm.trans attached.attached) nofun
  | loaded n here away =>
    have ready : Ready w n targetPid := by
      rcases attach_cases here away with ⟨errorMsg, failed, -⟩ | ⟨w', set, after⟩
      · rw [Ready, if_pos (setFilter_error failed).1]
        exact (setFilter_error failed).2
      · rw [after, if_pos attaches] at sound
        obtain ⟨-, obj, -, links, filters⟩ := sound rfl
        rw [← List.head_eq_of_cons_eq links] at filters
        exact (setFilter_filters_iff here set).mp filters
    unfold Ready at ready
    split_ifs at ready ⊢
    · exact ready
    · intro obj own
      rw [← Option.some.inj (here.obj.symm.trans own)]
      exact ready

theorem Stage.allowed (stage : Stage w) {call : Call} (sound : Sound (EbpfLoader.next w call)) :
    Allowed w call := by
  cases call with
  | load bpf bpfOPath => trivial
  | attach bpf targetPid => exact attach_sound stage sound
  | poll outputPath isOpen => trivial
  | detach => trivial
  | unload => exact unload_sound sound

end stages

theorem sound_iff (calls : List Call) :
    (∀ t ∈ trace next start calls, Sound t.2.2) ↔
      ∀ t ∈ trace next start calls, Allowed t.1 t.2.1 :=
  trace_iff (fun w _ (stage : Stage w) allowed => stage.next allowed) (fun _ stage => stage.sound)
    (fun _ _ stage sound => stage.allowed sound) stage_start calls

section runs

def allSucceed : Libbpf := ⟨true, true, true, true, true, true, true, true, ""⟩

def reattached : List Call :=
  [.load allSucceed "offcpu.bpf.o", .attach allSucceed 5, .detach, .attach allSucceed 0]

def reattachedState : World := reattached.foldl next start

theorem reattached_keeps_filter : ¬ ∀ calls, ∀ t ∈ trace next start calls, Sound t.2.2 := by
  intro all
  have sound : Sound reattachedState :=
    all reattached (trace next start reattached)[3] (List.getElem_mem _)
  obtain ⟨-, obj, present, -, filters⟩ := sound rfl
  have first : obj = 0 := List.mem_singleton.mp present
  rw [first, Filters, if_neg (by decide)] at filters
  have stale : reattachedState.kernel.targetPid 0 = some 5 := rfl
  rw [stale] at filters
  exact absurd filters (by decide)

end runs

end DropPlatform.EbpfLoader
