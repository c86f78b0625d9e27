import DropPlatform.CollapsedStacks
import DropPlatform.KeyedStores
import DropPlatform.TransitionRuns
import Mathlib.Data.List.AList
import Mathlib.Data.List.DropRight

/-! `ReadUserMaps` and the cache it shares between all callers. A call looks the process up
under the lock, reads `/proc/<pid>/maps` without it, and takes the lock again to evict the
oldest entry and to insert its own. Each of the three is one step here. -/

namespace DropPlatform.UserMaps
open TransitionRuns TextLines KeyedStores
open CollapsedStacks (newline isSpace)

/-- A line of the maps file that is mapped readable and executable. -/
structure UserSym where
  start : UInt64
  stop : UInt64
  offset : UInt64
  path : Bytes
  clean : newline ∉ path
deriving DecidableEq

section parsing

def hexDigit (b : UInt8) : Option Nat :=
  if 48 ≤ b ∧ b ≤ 57 then some (b.toNat - 48)
  else if 97 ≤ b ∧ b ≤ 102 then some (b.toNat - 87)
  else if 65 ≤ b ∧ b ≤ 70 then some (b.toNat - 55)
  else none

def hexNumeral (digits : Bytes) : Nat :=
  digits.foldl (fun n d => 16 * n + (hexDigit d).getD 0) 0

structure HexField where
  negative : Bool
  /-- `0x` stands before the digits. -/
  marked : Bool
  digits : Bytes
  rest : Bytes

def hexField (text : Bytes) : HexField :=
  let text := text.dropWhile isSpace
  let negative := text.head? = some 45
  let text := if negative ∨ text.head? = some 43 then text.drop 1 else text
  let marked := text.head? = some 48 ∧ (text.drop 1).head?.any fun b => b = 120 ∨ b = 88
  let text := if marked then text.drop 2 else text
  let digits := text.takeWhile fun b => (hexDigit b).isSome
  ⟨negative, marked, digits, text.drop digits.length⟩

/-- A negative number is negated in 64 bits. -/
def HexField.value (field : HexField) : UInt64 :=
  let value := UInt64.ofNat (hexNumeral field.digits)
  if field.negative then -value else value

/-- The conversion `%lx`; a number that does not fit becomes `ULONG_MAX`, and `0x` alone is
zero. -/
def scanLx (text : Bytes) : Option (UInt64 × Bytes) :=
  let field := hexField text
  if field.digits = [] ∧ field.marked = false then none
  else if 2 ^ 64 ≤ hexNumeral field.digits then some (UInt64.ofNat (2 ^ 64 - 1), field.rest)
  else some (field.value, field.rest)

/-- What `sscanf` stores in `start`, `end`, `perms` and `offset` for `"%lx-%lx %4s %lx"`; the
first conversion that fails leaves the rest at zero. -/
def scanMapping (text : Bytes) : UInt64 × UInt64 × Bytes × UInt64 :=
  match scanLx text with
  | none => (0, 0, [], 0)
  | some (start, rest) =>
    if rest.head? ≠ some 45 then (start, 0, [], 0)
    else match scanLx (rest.drop 1) with
      | none => (start, 0, [], 0)
      | some (stop, rest) =>
        let rest := rest.dropWhile isSpace
        let perms := (rest.takeWhile (¬ isSpace ·)).take 4
        if perms = [] then (start, stop, [], 0)
        else match scanLx (rest.drop perms.length) with
          | none => (start, stop, perms, 0)
          | some (offset, _) => (start, stop, perms, offset)

/-- `line.substr(line.find('/'))` without its line end. -/
def mappedPath (line : Bytes) : Bytes :=
  (line.dropWhile (· ≠ 47)).rdropWhile fun b => b = 10 ∨ b = 13

theorem mappedPath_clean {line : Bytes} (clean : newline ∉ line) : newline ∉ mappedPath line := by
  intro inside
  have kept := (List.rdropWhile_prefix _ _).subset inside
  exact clean ((List.dropWhile_sublist _).subset kept)

/-- `sscanf` reads the line up to its first NUL byte. -/
def parseMapping (line : Bytes) (clean : newline ∉ line) : Option UserSym :=
  let (start, stop, perms, offset) := scanMapping (line.takeWhile (· ≠ 0))
  if (47 : UInt8) ∉ line then none
  else if perms.getD 0 0 ≠ 114 ∨ perms.getD 2 0 ≠ 120 then none
  else some ⟨start, stop, offset, mappedPath line, mappedPath_clean clean⟩

def parseMaps (text : Bytes) : List UserSym :=
  (lines newline text).attach.filterMap fun line =>
    parseMapping line.1 (not_mem_of_mem_lines line.2)

end parsing

def kMaxUserMapsCache : Nat := 256

inductive Call
  | called (pid : UInt32)
  | missed (pid : UInt32)
  | read (pid : UInt32) (result : List UserSym)
  | returned (result : List UserSym)
deriving DecidableEq

instance inhabitedCall : Inhabited Call := ⟨.returned []⟩

/-- The cache, the queue of its keys and the calls under way. The order in which the map
keeps its keys is never used. -/
structure State where
  userMapsCache : AList fun _ : UInt32 => List UserSym
  userMapsLru : List UInt32
  calls : Keyed Nat Call

def start : State := ⟨∅, [], []⟩

inductive Action
  | call (pid : UInt32)
  | lookup (i : Nat)
  /-- `none` if the file cannot be opened. -/
  | readFile (i : Nat) (file : Option Bytes)
  | insert (i : Nat)

def State.moved (s : State) (i : Nat) (call : Call) : State :=
  { s with calls := set s.calls i call }

def lookup (s : State) (i : Nat) : State :=
  match get s.calls i with
  | .called pid =>
    match s.userMapsCache.lookup pid with
    | some result => s.moved i (.returned result)
    | none => s.moved i (.missed pid)
  | _ => s

/-- A file that cannot be opened ends the call with no mappings. -/
def readFile (s : State) (i : Nat) (file : Option Bytes) : State :=
  match get s.calls i with
  | .missed pid =>
    match file with
    | none => s.moved i (.returned [])
    | some text => s.moved i (.read pid (parseMaps text))
  | _ => s

def evict (s : State) : State :=
  match s.userMapsLru with
  | [] => s
  | oldest :: lru =>
    if kMaxUserMapsCache ≤ s.userMapsCache.keys.length then
      { s with userMapsCache := s.userMapsCache.erase oldest, userMapsLru := lru }
    else s

def insert (s : State) (i : Nat) : State :=
  match get s.calls i with
  | .read pid result =>
    let s := evict s
    { s.moved i (.returned result) with
      userMapsCache := s.userMapsCache.insert pid result
      userMapsLru := s.userMapsLru ++ [pid] }
  | _ => s

def next (s : State) : Action → State
  | .call pid => { s with calls := s.calls ++ [(s.calls.length, .called pid)] }
  | .lookup i => lookup s i
  | .readFile i file => readFile s i file
  | .insert i => insert s i

/-- The cache is bounded, and the queue holds each of its keys once. -/
structure Consistent (s : State) : Prop where
  bounded : s.userMapsCache.keys.length ≤ kMaxUserMapsCache
  once : s.userMapsLru.Nodup
  same : ∀ pid, pid ∈ s.userMapsLru ↔ pid ∈ s.userMapsCache

/-- The process that an insertion is for is not in the cache any more, or not yet. -/
def Absent (s : State) : Action → Prop
  | .insert i =>
    match get s.calls i with
    | .read pid _ => pid ∉ (evict s).userMapsCache
    | _ => True
  | _ => True

section steps
variable {s : State}

theorem Consistent.congr {t : State} (consistent : Consistent s)
    (cache : t.userMapsCache = s.userMapsCache) (lru : t.userMapsLru = s.userMapsLru) :
    Consistent t := by
  refine ⟨?_, ?_, ?_⟩
  · rw [cache]
    exact consistent.bounded
  · rw [lru]
    exact consistent.once
  · rw [cache, lru]
    exact consistent.same

theorem Consistent.length_lru (consistent : Consistent s) :
    s.userMapsLru.length = s.userMapsCache.keys.length := by
  have perm : s.userMapsLru.Perm s.userMapsCache.keys := by
    rw [List.perm_ext_iff_of_nodup consistent.once s.userMapsCache.keys_nodup]
    exact consistent.same
  exact perm.length_eq

theorem mem_erase_oldest {cache : AList fun _ : UInt32 => List UserSym} {oldest : UInt32}
    {lru : List UInt32} (once : (oldest :: lru).Nodup)
    (same : ∀ pid, pid ∈ oldest :: lru ↔ pid ∈ cache) (pid : UInt32) :
    pid ∈ lru ↔ pid ∈ cache.erase oldest := by
  rw [AList.mem_erase, ← same pid, List.mem_cons]
  constructor
  · intro member
    refine ⟨?_, .inr member⟩
    rintro rfl
    exact (List.nodup_cons.mp once).1 member
  · rintro ⟨other, rfl | member⟩
    · exact absurd rfl other
    · exact member

theorem Consistent.evict (consistent : Consistent s) :
    Consistent (evict s) ∧ (evict s).userMapsCache.keys.length < kMaxUserMapsCache := by
  have length := consistent.length_lru
  obtain ⟨bounded, once, same⟩ := consistent
  cases lru : s.userMapsLru with
  | nil =>
    have unchanged : UserMaps.evict s = s := by simp only [UserMaps.evict, lru]
    rw [lru, List.length_nil] at length
    rw [unchanged, ← length]
    exact ⟨⟨bounded, once, same⟩, by decide⟩
  | cons oldest rest =>
    by_cases full : kMaxUserMapsCache ≤ s.userMapsCache.keys.length
    · have evicted : UserMaps.evict s = { s with
          userMapsCache := s.userMapsCache.erase oldest, userMapsLru := rest } := by
        simp only [UserMaps.evict, lru, if_pos full]
      rw [lru] at once same
      have cached : oldest ∈ s.userMapsCache.keys := (same oldest).mp List.mem_cons_self
      have room : ((s.userMapsCache.erase oldest).keys).length < kMaxUserMapsCache := by
        rw [AList.keys_erase, List.length_erase_of_mem cached]
        simp only [kMaxUserMapsCache] at full bounded ⊢
        omega
      rw [evicted]
      exact ⟨⟨room.le, (List.nodup_cons.mp once).2, mem_erase_oldest once same⟩, room⟩
    · have unchanged : UserMaps.evict s = s := by simp only [UserMaps.evict, lru, if_neg full]
      rw [unchanged]
      exact ⟨⟨bounded, once, same⟩, not_le.mp full⟩

theorem Consistent.lookup (consistent : Consistent s) (i : Nat) : Consistent (lookup s i) := by
  simp only [UserMaps.lookup]
  split
  · split <;> exact consistent.congr rfl rfl
  · exact consistent

theorem Consistent.readFile (consistent : Consistent s) (i : Nat) (file : Option Bytes) :
    Consistent (readFile s i file) := by
  simp only [UserMaps.readFile]
  split
  · cases file <;> exact consistent.congr rfl rfl
  · exact consistent

theorem Consistent.next (consistent : Consistent s) {a : Action} (absent : Absent s a) :
    Consistent (next s a) := by
  cases a with
  | call pid => exact consistent.congr rfl rfl
  | lookup i => exact consistent.lookup i
  | readFile i file => exact consistent.readFile i file
  | insert i =>
    cases found : get s.calls i with
    | read pid result =>
      simp only [Absent, found] at absent
      obtain ⟨⟨_, once, same⟩, room⟩ := consistent.evict
      have fresh : pid ∉ (UserMaps.evict s).userMapsLru := fun member =>
        absent ((same pid).mp member)
      simp only [UserMaps.next, UserMaps.insert, found]
      refine ⟨?_, ?_, fun other => ?_⟩
      · simp only [AList.keys_insert, List.length_cons]
        rw [List.erase_of_not_mem absent]
        omega
      · rw [← List.concat_eq_append]
        exact once.concat fresh
      · simp only [List.mem_append, List.mem_singleton, AList.mem_insert, same other]
        exact or_comm
    | called pid | missed pid | returned result =>
      simp only [UserMaps.next, UserMaps.insert, found]
      exact consistent

theorem Consistent.absent (consistent : Consistent s) {a : Action}
    (after : Consistent (UserMaps.next s a)) : Absent s a := by
  cases a with
  | call pid => trivial
  | lookup i => trivial
  | readFile i file => trivial
  | insert i =>
    cases found : get s.calls i with
    | read pid result =>
      simp only [Absent, found]
      intro cached
      have queued := (consistent.evict.1.same pid).mpr cached
      have once := after.once
      simp only [UserMaps.next, UserMaps.insert, found] at once
      exact List.disjoint_of_nodup_append once queued (List.mem_singleton_self pid)
    | called pid | missed pid | returned result => simp only [Absent, found]

end steps

/-- The cache stays bounded and agrees with the queue exactly if every insertion is for a
process that is not in the cache at that moment. -/
theorem consistent_iff_absent (actions : List Action) :
    (∀ t ∈ trace next start actions, Consistent t.2.2) ↔
      ∀ t ∈ trace next start actions, Absent t.1 t.2.1 := by
  refine trace_iff (fun _ _ consistent absent => consistent.next absent) (fun _ => id)
    (fun _ _ consistent after => consistent.absent after) ?_ actions
  exact ⟨Nat.zero_le _, List.nodup_nil, fun pid => by simp [start]⟩

def bothMiss : List Action :=
  [.call 7, .call 7, .lookup 0, .lookup 1, .readFile 0 (some []), .readFile 1 (some []),
    .insert 0, .insert 1]

theorem bothMiss_queues_twice : ¬ ∀ t ∈ trace next start bothMiss, Consistent t.2.2 := by
  intro consistent
  simp only [bothMiss, trace, List.forall_mem_cons] at consistent
  obtain ⟨_, _, _, _, _, _, _, last, _⟩ := consistent
  exact absurd last.once (by decide)

end DropPlatform.UserMaps
