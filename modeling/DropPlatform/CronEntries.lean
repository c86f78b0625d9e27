import DropPlatform.Matchings
import DropPlatform.Schedules

/-! The scheduler keeps, for every schedule that it has registered, the number of its entry
in the cron engine. The engine is known by what it promises; the engine of `Schedules` is
one that keeps its promises, and the requests for schedules call the scheduler on it. -/

namespace DropPlatform.CronEntries
open Matchings

/-- A cron engine. `live` gives for the numbers of its entries the schedules that their
functions dispatch; a new entry gets a number that no live entry has. -/
structure Cron (EntryID : Type) [DecidableEq EntryID] where
  State : Type
  new : State
  live : State → EntryID → Option String
  addFunc : State → (spec mtTid : String) → Except String EntryID × State
  remove : State → EntryID → State
  live_new : live new = fun _ => none
  addFunc_error : ∀ {c c' : State} {spec mtTid err : String},
    addFunc c spec mtTid = (.error err, c') → live c' = live c
  addFunc_ok : ∀ {c c' : State} {spec mtTid : String} {id : EntryID},
    addFunc c spec mtTid = (.ok id, c') →
      live c id = none ∧ live c' = Function.update (live c) id (some mtTid)
  live_remove : ∀ c id, live (remove c id) = Function.update (live c) id none

variable {EntryID : Type} [DecidableEq EntryID] {engine : Cron EntryID}

@[ext]
structure CronScheduler (engine : Cron EntryID) where
  cron : engine.State
  entry : String → Option EntryID

def newCronScheduler (engine : Cron EntryID) : CronScheduler engine := ⟨engine.new, fun _ => none⟩

def removeSchedule (cs : CronScheduler engine) (mtTid : String) : CronScheduler engine :=
  match cs.entry mtTid with
  | some entryID => ⟨engine.remove cs.cron entryID, Function.update cs.entry mtTid none⟩
  | none => cs

def addSchedule (cs : CronScheduler engine) (mtTid cronExpr : String) :
    Except String Unit × CronScheduler engine :=
  let cs := removeSchedule cs mtTid
  match engine.addFunc cs.cron cronExpr mtTid with
  | (.error err, cron) => (.error err, { cs with cron := cron })
  | (.ok entryID, cron) => (.ok (), ⟨cron, Function.update cs.entry mtTid (some entryID)⟩)

inductive Call
  | addSchedule (mtTid cronExpr : String)
  | removeSchedule (mtTid : String)
deriving DecidableEq, Repr

def next (cs : CronScheduler engine) : Call → CronScheduler engine
  | .addSchedule mtTid cronExpr => (addSchedule cs mtTid cronExpr).2
  | .removeSchedule mtTid => removeSchedule cs mtTid

/-- The schedules that a tick dispatches: the engine runs the function of each due entry once. -/
def fired (cs : CronScheduler engine) (due : Finset EntryID) : Multiset String :=
  due.val.filterMap (engine.live cs.cron)

/-- The map and the live entries are the two sides of one matching. -/
structure Matched (cs : CronScheduler engine) (f : String ≃. EntryID) : Prop where
  entry : cs.entry = f
  live : engine.live cs.cron = f.symm

/-- The live entries are those of the map, no two schedules share one, and no schedule is
dispatched twice at a tick. -/
structure NoOrphans (cs : CronScheduler engine) : Prop where
  live_iff : ∀ id, engine.live cs.cron id ≠ none ↔ ∃ mtTid, cs.entry mtTid = some id
  apart : ∀ a b id, cs.entry a = some id → cs.entry b = some id → a = b
  once : ∀ due, (fired cs due).Nodup

/-- From `cs` to `cs'` the schedule has lost its entry, and every other one has kept its own. -/
structure Dropped (mtTid : String) (cs cs' : CronScheduler engine) : Prop where
  entry : cs'.entry mtTid = none
  live : ∀ id, engine.live cs'.cron id ≠ some mtTid
  others : ∀ other ≠ mtTid, cs'.entry other = cs.entry other ∧
    ∀ id, engine.live cs'.cron id = some other ↔ engine.live cs.cron id = some other

def loadSchedule (cs : CronScheduler engine) (mt : Schedules.MultiTasks) : CronScheduler engine :=
  if mt.cronExpr = "" then cs else (addSchedule cs mt.tid mt.cronExpr).2

/-- A query that fails yields no rows. -/
def loadExistingSchedules (rows : List Schedules.MultiTasks) (queryFails : Bool)
    (cs : CronScheduler engine) : CronScheduler engine :=
  (if queryFails then [] else rows.filter (·.Active)).foldl loadSchedule cs

def Reached (cs : CronScheduler engine) : Prop :=
  ∃ calls : List Call, cs = calls.foldl next (newCronScheduler engine)

section calls
variable {cs : CronScheduler engine} {f : String ≃. EntryID} {mtTid : String}

theorem matched_new (engine : Cron EntryID) : Matched (newCronScheduler engine) ⊥ :=
  ⟨rfl, engine.live_new⟩

theorem entry_removeSchedule_self (cs : CronScheduler engine) (mtTid : String) :
    (removeSchedule cs mtTid).entry mtTid = none := by
  rw [removeSchedule]
  cases found : cs.entry mtTid with
  | none => exact found
  | some entryID => exact Function.update_self ..

theorem Matched.removeSchedule (matched : Matched cs f) (mtTid : String) :
    Matched (removeSchedule cs mtTid) (release f mtTid) := by
  rw [CronEntries.removeSchedule]
  cases found : cs.entry mtTid with
  | none =>
    -- without an entry there is nothing to release
    have same : release f mtTid = f := by
      apply DFunLike.coe_injective
      rw [coe_release, ← matched.entry, ← found, Function.update_eq_self]
    rw [same]
    exact matched
  | some entryID =>
    rw [matched.entry] at found
    refine ⟨?_, ?_⟩
    · rw [coe_release, matched.entry]
    · rw [coe_symm_release found, engine.live_remove, matched.live]

theorem Matched.addSchedule_ok (matched : Matched cs f) {cronExpr : String} {cron : engine.State}
    {entryID : EntryID}
    (added : engine.addFunc (CronEntries.removeSchedule cs mtTid).cron cronExpr mtTid =
      (.ok entryID, cron)) :
    ∃ g, Matched (addSchedule cs mtTid cronExpr).2 g := by
  obtain ⟨fresh, live⟩ := engine.addFunc_ok added
  have removed := matched.removeSchedule mtTid
  have key : release f mtTid mtTid = none := by rw [coe_release, Function.update_self]
  rw [removed.live] at fresh live
  refine ⟨assign (release f mtTid) key fresh, ?_⟩
  simp only [addSchedule, added]
  exact ⟨congrArg (Function.update · mtTid (some entryID)) removed.entry, live⟩

theorem Matched.addSchedule_error (matched : Matched cs f) {cronExpr err : String}
    {cron : engine.State}
    (refused : engine.addFunc (CronEntries.removeSchedule cs mtTid).cron cronExpr mtTid =
      (.error err, cron)) :
    Matched (addSchedule cs mtTid cronExpr).2 (release f mtTid) := by
  have removed := matched.removeSchedule mtTid
  simp only [addSchedule, refused]
  exact ⟨removed.entry, (engine.addFunc_error refused).trans removed.live⟩

theorem Matched.next (matched : Matched cs f) (call : Call) : ∃ g, Matched (next cs call) g := by
  cases call with
  | removeSchedule mtTid => exact ⟨_, matched.removeSchedule mtTid⟩
  | addSchedule mtTid cronExpr =>
    cases result : engine.addFunc (CronEntries.removeSchedule cs mtTid).cron cronExpr mtTid with
    | mk outcome cron =>
      cases outcome with
      | ok entryID => exact matched.addSchedule_ok result
      | error err => exact ⟨_, matched.addSchedule_error result⟩

theorem exists_matched (engine : Cron EntryID) (calls : List Call) :
    ∃ f, Matched (calls.foldl next (newCronScheduler engine)) f := by
  induction calls using List.reverseRecOn with
  | nil => exact ⟨⊥, matched_new engine⟩
  | append_singleton calls call ih =>
    obtain ⟨f, matched⟩ := ih
    rw [List.foldl_concat]
    exact matched.next call

theorem Matched.noOrphans (matched : Matched cs f) : NoOrphans cs := by
  refine ⟨fun id => ?_, fun a b id here there => ?_, fun due => ?_⟩
  · simp only [matched.live, matched.entry, Option.ne_none_iff_exists', PEquiv.eq_some_iff]
  · rw [matched.entry] at here there
    exact f.inj here there
  · refine Multiset.Nodup.filterMap _ (fun id id' mtTid here there => ?_) due.nodup
    rw [matched.live] at here there
    exact f.symm.inj here there

theorem Matched.dropped {cs' : CronScheduler engine} (matched : Matched cs f)
    (after : Matched cs' (release f mtTid)) : Dropped mtTid cs cs' := by
  refine ⟨?_, fun id => ?_, fun other differs => ⟨?_, fun id => ?_⟩⟩
  · rw [after.entry, coe_release, Function.update_self]
  · rw [after.live, ne_eq, PEquiv.eq_some_iff, coe_release, Function.update_self]
    exact (Option.some_ne_none id).symm
  · rw [after.entry, matched.entry, coe_release, Function.update_of_ne differs]
  · rw [after.live, matched.live, PEquiv.eq_some_iff, PEquiv.eq_some_iff, coe_release,
      Function.update_of_ne differs]

theorem Matched.dropped_of_error (matched : Matched cs f) {cronExpr err : String}
    (failed : (addSchedule cs mtTid cronExpr).1 = .error err) :
    Dropped mtTid cs (addSchedule cs mtTid cronExpr).2 := by
  cases result : engine.addFunc (CronEntries.removeSchedule cs mtTid).cron cronExpr mtTid with
  | mk outcome cron =>
    cases outcome with
    | ok entryID => simp [addSchedule, result] at failed
    | error _ => exact matched.dropped (matched.addSchedule_error result)

theorem Reached.noOrphans (reached : Reached cs) : NoOrphans cs := by
  obtain ⟨calls, rfl⟩ := reached
  obtain ⟨f, matched⟩ := exists_matched engine calls
  exact matched.noOrphans

theorem Reached.next (reached : Reached cs) (call : Call) : Reached (next cs call) := by
  obtain ⟨calls, rfl⟩ := reached
  exact ⟨calls ++ [call], (List.foldl_concat ..).symm⟩

theorem Reached.loadExistingSchedules (reached : Reached cs) (rows : List Schedules.MultiTasks)
    (queryFails : Bool) : Reached (loadExistingSchedules rows queryFails cs) := by
  rw [CronEntries.loadExistingSchedules]
  generalize (if queryFails then [] else rows.filter (·.Active)) = mts
  induction mts generalizing cs with
  | nil => exact reached
  | cons mt mts ih =>
    apply ih
    rw [loadSchedule]
    split_ifs
    · exact reached
    · exact reached.next (.addSchedule mt.tid mt.cronExpr)

end calls

section library

/-- The engine of the cron library: entries get consecutive numbers. -/
structure Entries where
  nextID : Nat
  entries : List (Nat × String)
  issued : ∀ e ∈ entries, e.1 ≤ nextID

def Entries.add (c : Entries) (mtTid : String) : Entries where
  nextID := c.nextID + 1
  entries := c.entries ++ [(c.nextID + 1, mtTid)]
  issued e member := by
    rcases List.mem_append.mp member with old | new
    · exact Nat.le_succ_of_le (c.issued e old)
    · rw [List.mem_singleton.mp new]

def Entries.remove (c : Entries) (id : Nat) : Entries where
  nextID := c.nextID
  entries := c.entries.filter (·.1 ≠ id)
  issued e member := c.issued e (List.mem_of_mem_filter member)

theorem Entries.listed_next (c : Entries) : listed c.entries (c.nextID + 1) = none := by
  refine Option.map_eq_none_iff.mpr (List.find?_eq_none.mpr fun e member same => ?_)
  have old := c.issued e member
  have new := of_decide_eq_true same
  omega

/-- `refusal` is the text of the error for an expression that the parser refuses. -/
def libraryCron (parser : Schedules.CronParser) (refusal : String → String) : Cron Nat where
  State := Entries
  new := ⟨0, [], fun _ member => absurd member List.not_mem_nil⟩
  live c := listed c.entries
  addFunc c spec mtTid :=
    if parser.valid spec then (.ok (c.nextID + 1), c.add mtTid) else (.error (refusal spec), c)
  remove := Entries.remove
  live_new := rfl
  addFunc_error := by
    intro c c' spec mtTid err refused
    split_ifs at refused
    · simp at refused
    · rw [(Prod.mk.inj refused).2]
  addFunc_ok := by
    intro c c' spec mtTid id added
    split_ifs at added
    · obtain ⟨number, rfl⟩ := Prod.mk.inj added
      rw [← Except.ok.inj number]
      exact ⟨c.listed_next, listed_concat c.listed_next mtTid⟩
    · simp at added
  live_remove c id := listed_filter c.entries id

end library

/-- After every sequence of calls the live entries of the engine are those of the map, one for
each schedule, and a call of `AddSchedule` that fails takes away the entry of its schedule
and no other. -/
theorem scheduler_has_no_orphans (engine : Cron EntryID) (calls : List Call) :
    NoOrphans (calls.foldl next (newCronScheduler engine)) ∧
      ∀ mtTid cronExpr err,
        (addSchedule (calls.foldl next (newCronScheduler engine)) mtTid cronExpr).1 = .error err →
          Dropped mtTid (calls.foldl next (newCronScheduler engine))
            (addSchedule (calls.foldl next (newCronScheduler engine)) mtTid cronExpr).2 := by
  obtain ⟨f, matched⟩ := exists_matched engine calls
  exact ⟨matched.noOrphans, fun _ _ _ failed => matched.dropped_of_error failed⟩

def hourlyCron : Cron Nat :=
  libraryCron ⟨fun cronExpr => cronExpr = "@hourly", rfl⟩ fun cronExpr => "no cron: " ++ cronExpr

def twoSchedules : CronScheduler hourlyCron :=
  [Call.addSchedule "a" "@hourly", .addSchedule "b" "@hourly"].foldl next (newCronScheduler _)

theorem scheduler_has_no_orphans_refused :
    twoSchedules.entry "a" = some 1 ∧ twoSchedules.entry "b" = some 2 ∧ NoOrphans twoSchedules ∧
      (addSchedule twoSchedules "a" "daily").1 = .error "no cron: daily" ∧
      Dropped "a" twoSchedules (addSchedule twoSchedules "a" "daily").2 := by
  have general := scheduler_has_no_orphans hourlyCron
    [Call.addSchedule "a" "@hourly", .addSchedule "b" "@hourly"]
  have refused : (addSchedule twoSchedules "a" "daily").1 = .error "no cron: daily" := by
    decide +kernel
  exact ⟨by decide +kernel, by decide +kernel, general.1, refused,
    general.2 "a" "daily" "no cron: daily" refused⟩

section requests
variable {parser : Schedules.CronParser} {refusal : String → String}

/-- The scheduler of `Schedules`, as one on the engine of the library. -/
def onLibrary (parser : Schedules.CronParser) (refusal : String → String)
    (cs : Schedules.CronScheduler) : CronScheduler (libraryCron parser refusal) where
  cron := {
    nextID := cs.nextID
    entries := cs.cron
    issued := by
      rw [cs.mirrored]
      exact List.forall_mem_map.mpr cs.issued }
  entry := listed cs.entry

theorem onLibrary_removeSchedule (cs : Schedules.CronScheduler) (mtTid : String) :
    onLibrary parser refusal (Schedules.removeSchedule cs mtTid) =
      removeSchedule (onLibrary parser refusal cs) mtTid := by
  rw [Schedules.removeSchedule, removeSchedule]
  split
  · rename_i absent
    have entry : (onLibrary parser refusal cs).entry mtTid = none :=
      Option.map_eq_none_iff.mpr absent
    rw [entry]
  · rename_i own found
    have entry : (onLibrary parser refusal cs).entry mtTid = some own.2 :=
      Option.map_eq_some_iff.mpr ⟨own, found, rfl⟩
    rw [entry]
    exact CronScheduler.ext rfl (listed_filter cs.entry mtTid)

theorem onLibrary_addSchedule (cs : Schedules.CronScheduler) (mtTid cronExpr : String) :
    onLibrary parser refusal (Schedules.addSchedule parser cs mtTid cronExpr) =
      (addSchedule (onLibrary parser refusal cs) mtTid cronExpr).2 := by
  have removed : onLibrary parser refusal (Schedules.removeSchedule cs mtTid) =
      removeSchedule (onLibrary parser refusal cs) mtTid := onLibrary_removeSchedule cs mtTid
  have absent : listed (Schedules.removeSchedule cs mtTid).entry mtTid = none :=
    (congrArg (·.entry mtTid) removed).trans (entry_removeSchedule_self _ mtTid)
  rw [Schedules.addSchedule, addSchedule, ← removed]
  by_cases valid : parser.valid cronExpr = true
  · simp only [libraryCron, if_pos valid]
    exact CronScheduler.ext rfl (listed_concat absent _)
  · simp only [libraryCron, if_neg valid]
    rfl

theorem onLibrary_loadExistingSchedules (rows : List Schedules.MultiTasks) (queryFails : Bool)
    (cs : Schedules.CronScheduler) :
    onLibrary parser refusal (Schedules.loadExistingSchedules parser rows queryFails cs) =
      loadExistingSchedules rows queryFails (onLibrary parser refusal cs) := by
  refine (List.foldl_hom _ fun cs mt => ?_).symm
  rw [loadSchedule, Schedules.loadSchedule]
  split_ifs
  · rfl
  · exact (onLibrary_addSchedule cs mt.tid mt.cronExpr).symm

theorem reached_next {s : Schedules.State} (reached : Reached (onLibrary parser refusal s.scheduler))
    (request : Schedules.Request) :
    Reached (onLibrary parser refusal (Schedules.next parser s request).scheduler) := by
  have added : ∀ mtTid cronExpr, Reached
      (onLibrary parser refusal (Schedules.addSchedule parser s.scheduler mtTid cronExpr)) := by
    intro mtTid cronExpr
    rw [onLibrary_addSchedule]
    exact reached.next (.addSchedule mtTid cronExpr)
  have removed : ∀ mtTid, Reached
      (onLibrary parser refusal (Schedules.removeSchedule s.scheduler mtTid)) := by
    intro mtTid
    rw [onLibrary_removeSchedule]
    exact reached.next (.removeSchedule mtTid)
  cases request with
  | create body randBytes insertFails =>
    cases body with
    | error message => exact reached
    | ok req =>
      simp only [Schedules.next, Schedules.createScheduleTask]
      split_ifs
      · exact reached
      · exact added _ _
  | toggle tid body updateFails =>
    cases body with
    | error message => exact reached
    | ok enabled =>
      simp only [Schedules.next, Schedules.toggleSchedule]
      split_ifs
      · exact reached
      · exact added _ _
      · exact reached
      · exact removed _
  | delete tid deleteFails =>
    simp only [Schedules.next, Schedules.deleteSchedule]
    split_ifs
    · exact reached
    · exact removed _
  | restart queryFails =>
    -- the new process begins with an empty scheduler and an empty engine
    rw [Schedules.next, onLibrary_loadExistingSchedules]
    exact Reached.loadExistingSchedules ⟨[], rfl⟩ s.rows queryFails

theorem noOrphans_of_requests (requests : List Schedules.Request) :
    NoOrphans (onLibrary parser refusal
      (requests.foldl (Schedules.next parser) Schedules.initial).scheduler) := by
  apply Reached.noOrphans
  induction requests using List.reverseRecOn with
  | nil => exact ⟨[], rfl⟩
  | append_singleton requests request ih =>
    rw [List.foldl_concat]
    exact reached_next ih request

end requests

end DropPlatform.CronEntries
