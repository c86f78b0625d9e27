import DropPlatform.TaskDispatch
import DropPlatform.TaskReads
import DropPlatform.WholeFloats

/-! How `NLChat` turns a message into a task. The intent comes from `nl_parser.py` as JSON,
or from `goNLFallback` if the script fails; either way it is a `map[string]interface{}`,
from which `NLChat` takes numbers by asserting that they are of type `float64`. Texts are
lists of characters: what `goNLFallback` does byte by byte to them concerns ASCII digits. -/

namespace DropPlatform.NlIntent
open TaskLifecycle TaskDispatch WholeFloats

/-- What an `interface{}` of an intent can hold. Every number in an intent is whole, so a
`float64` stands for the whole number that it is. -/
inductive Value
  | int (n : Int)
  | float64 (n : Nat)
  | string (s : Text)
  | null
deriving DecidableEq, Repr

abbrev Intent := List (String × Value)

/-- The conversion `int(x)` on amd64, where a value out of range becomes the least integer. -/
def intOfFloat64 (x : Nat) : Int := if x < 2 ^ 63 then x else -2 ^ 63

/-- What `nl_parser.py` prints: `parse_intent` has a number for each of the first three. -/
structure ParserAnswer where
  pid : Nat
  profilerType : Fin 4
  duration : Nat
  targetIp : Option Text
  rawText : Text
deriving DecidableEq, Repr

/-- `json.Unmarshal` into the map; it fails if a number is out of range. -/
def unmarshalAnswer (answer : ParserAnswer) : Option Intent := do
  let pid ← roundToFloat64 answer.pid
  let profilerType ← roundToFloat64 answer.profilerType
  let duration ← roundToFloat64 answer.duration
  some [("pid", .float64 pid), ("profiler_type", .float64 profilerType),
    ("duration", .float64 duration),
    ("target_ip", answer.targetIp.elim .null .string), ("raw_text", .string answer.rawText)]

section fallback

/-- `unicode.ToLower`, as far as it can produce a letter of the keywords. -/
def toLower (c : Char) : Char := if c = 'İ' then 'i' else c.toLower

def index (pattern : Text) : Text → Option Nat
  | [] => if pattern = [] then some 0 else none
  | c :: rest =>
    if pattern.isPrefixOf (c :: rest) then some 0 else (index pattern rest).map (· + 1)

def contains (text pattern : Text) : Bool := (index pattern text).isSome

def wholeNumber (text : Text) : Option Int :=
  let (n, ok) := TaskReads.atoi (text.flatMap String.utf8EncodeChar)
  if ok then some n.toInt else none

def ebpfKeywords : List Text :=
  [['e', 'b', 'p', 'f'], ['o', 'f', 'f', '-', 'c', 'p', 'u'], ['阻', '塞'], ['i', 'o']]

def javaKeywords : List Text := [['j', 'a', 'v', 'a'], ['j', 'v', 'm']]

def fallbackProfilerType (text : Text) : Int :=
  let lower := text.map toLower
  if ebpfKeywords.any (contains lower) then 3
  else if javaKeywords.any (contains lower) then 1
  else 0

/-- The number that stands right before the first occurrence of the suffix: the character
before it, whatever it is, and the digits before that one. -/
def durationBefore (text suffix : Text) : Option Int :=
  match index suffix text with
  | none => none
  | some idx =>
    match (text.take idx).reverse with
    | [] => none
    | last :: before =>
      match wholeNumber (last :: before.takeWhile Char.isDigit).reverse with
      | some dur => if dur > 0 then some dur else none
      | none => none

/-- The number behind the first occurrence of the word, less what may stand between. -/
def pidBehind (text word : Text) : Option Int :=
  match index word text with
  | none => none
  | some idx =>
    let rest := (text.drop (idx + word.length)).dropWhile (['是', '为', '：', ':', ' '].contains ·)
    let digits := rest.takeWhile Char.isDigit
    if digits = [] then none else wholeNumber digits

/-- A loop in which every hit overwrites the one before. -/
def lastHit (find : Text → Option Int) (words : List Text) : Option Int :=
  words.foldl (fun hit word => (find word).or hit) none

def namedDuration (text : Text) : Option Int :=
  lastHit (durationBefore text) [['秒'], ['秒', '钟']]

def namedPid (text : Text) : Option Int :=
  lastHit (pidBehind text) [['P', 'I', 'D'], ['p', 'i', 'd'], ['进', '程']]

def goNLFallback (text : Text) : Intent :=
  [("pid", .int ((namedPid text).getD 0)), ("profiler_type", .int (fallbackProfilerType text)),
    ("duration", .int ((namedDuration text).getD 10)),
    ("target_ip", .string ['1', '2', '7', '.', '0', '.', '0', '.', '1']), ("raw_text", .string text)]

end fallback

/-- `answer` is `none` if the script fails or prints no JSON. -/
def parseNLIntent (answer : Option ParserAnswer) (text : Text) : Intent :=
  (answer.bind unmarshalAnswer).getD (goNLFallback text)

/-- The assertion `.(float64)`; one that fails gives zero. -/
def assertFloat64 : Option Value → Nat
  | some (.float64 x) => x
  | _ => 0

def assertString : Option Value → Text
  | some (.string s) => s
  | _ => []

def nlChat (answer : Option ParserAnswer) (message : String) (title uid userName : String) :
    Creation :=
  let intent := parseNLIntent answer message.toList
  let pid := assertFloat64 (intent.lookup "pid")
  let profilerType := assertFloat64 (intent.lookup "profiler_type")
  let duration := assertFloat64 (intent.lookup "duration")
  let targetIP := assertString (intent.lookup "target_ip")
  let targetIP := if targetIP = [] then "127.0.0.1" else String.ofList targetIP
  let duration := if duration = 0 then 10 else duration
  .nlChat title (intOfFloat64 profilerType) targetIP (intOfFloat64 pid) (intOfFloat64 duration)
    uid userName

/-- What the parser found in the message. -/
structure Wanted where
  pid : Int
  profilerType : Int
  duration : Int
deriving DecidableEq, Repr

def ParserAnswer.wanted (answer : ParserAnswer) : Wanted :=
  ⟨answer.pid, answer.profilerType.val, answer.duration⟩

def fallbackWanted (text : Text) : Wanted :=
  ⟨(namedPid text).getD 0, fallbackProfilerType text, (namedDuration text).getD 10⟩

/-- An answer that cannot be decoded counts as a failure of the script. -/
def usable (answer : Option ParserAnswer) : Option ParserAnswer :=
  answer.filter fun a => (unmarshalAnswer a).isSome

def wanted (answer : Option ParserAnswer) (text : Text) : Wanted :=
  ((usable answer).map ParserAnswer.wanted).getD (fallbackWanted text)

/-- The created task has the profiler type and the duration of the intent, and the pid of
the intent is dispatched. -/
def Honours (creation : Creation) (intent : Wanted) : Prop :=
  (∀ tid now, (creation.row tid now).profilerType = intent.profilerType) ∧
    (∀ tid, (taskDesc tid creation.request).pid = intent.pid) ∧
    creation.request.duration = if intent.duration = 0 then 10 else intent.duration

section numbers

theorem intOfFloat64_of_lt {x : Nat} (small : x < 2 ^ 63) : intOfFloat64 x = x := if_pos small

theorem pid_iff {n x : Nat} (rounded : roundToFloat64 n = some x) :
    (intOfFloat64 x).bmod (2 ^ 32) = n ↔ n < 2 ^ 31 := by
  constructor
  · intro same
    have bound := Int.bmod_lt (x := intOfFloat64 x) (m := 2 ^ 32) (by decide)
    rw [same] at bound
    omega
  · intro small
    have exact : x = n := Option.some.inj (rounded.symm.trans (roundToFloat64_of_lt (by omega)))
    rw [exact, intOfFloat64_of_lt (by omega), Int.bmod_def]
    omega

theorem duration_iff {n x : Nat} (rounded : roundToFloat64 n = some x) :
    intOfFloat64 (if x = 0 then 10 else x) = (if (n : Int) = 0 then 10 else (n : Int)) ↔
      n < 2 ^ 63 ∧ x = n := by
  by_cases zero : n = 0
  · have exact : x = 0 := by
      rw [zero] at rounded
      exact Option.some.inj (rounded.symm.trans (roundToFloat64_of_lt (by decide)))
    simp [zero, exact, intOfFloat64]
  · have filled := ne_zero_of_round rounded zero
    have positive : (n : Int) ≠ 0 := by omega
    rw [if_neg filled, if_neg positive, intOfFloat64]
    split_ifs with small
    · constructor
      · intro same
        omega
      · intro both
        rw [both.2]
    · constructor
      · intro same
        omega
      · intro both
        omega

end numbers

theorem honours_nlChat_iff (title targetIP uid userName : String) (profilerType pid duration : Int)
    (intent : Wanted) :
    Honours (.nlChat title profilerType targetIP pid duration uid userName) intent ↔
      profilerType = intent.profilerType ∧ pid.bmod (2 ^ 32) = intent.pid ∧
        duration = if intent.duration = 0 then 10 else intent.duration := by
  simp [Honours, Creation.row, Creation.request, taskDesc]

section fallback

theorem namedDuration_pos {text : Text} {d : Int} (named : namedDuration text = some d) : 0 < d := by
  have each : ∀ suffix, durationBefore text suffix = some d → 0 < d := by
    intro suffix found
    unfold durationBefore at found
    split at found
    · exact absurd found.symm (Option.some_ne_none d)
    split at found
    · exact absurd found.symm (Option.some_ne_none d)
    split at found
    · split_ifs at found with positive
      exact Option.some.inj found ▸ positive
    · exact absurd found.symm (Option.some_ne_none d)
  simp only [namedDuration, lastHit, List.foldl_cons, List.foldl_nil, Option.or_none,
    Option.or_eq_some_iff] at named
  rcases named with last | first
  · exact each _ last
  · exact each _ first.2

theorem fallbackProfilerType_eq_zero_iff (text : Text) : fallbackProfilerType text = 0 ↔
    ∀ keyword ∈ ebpfKeywords ++ javaKeywords, ¬ contains (text.map toLower) keyword := by
  have none : ∀ keywords : List Text, ¬ keywords.any (contains (text.map toLower)) ↔
      ∀ keyword ∈ keywords, ¬ contains (text.map toLower) keyword := by
    intro keywords
    simp
  rw [List.forall_mem_append, ← none, ← none, fallbackProfilerType]
  split_ifs with ebpf java
  · simp [ebpf]
  · simp [java]
  · simp [ebpf, java]

theorem getD_eq_iff {hit : Option Int} {default : Int} :
    hit.getD default = default ↔ ∀ x ∈ hit, x = default := by
  cases hit <;> simp

end fallback

/-- What survives the way through `NLChat`: a decoded answer whose pid fits into 32 bits and
whose duration is a `float64` that fits into 64; of the fallback's findings only those that
are the defaults. -/
def Transmittable (answer : Option ParserAnswer) (text : Text) : Prop :=
  match usable answer with
  | some a => a.pid < 2 ^ 31 ∧ a.duration < 2 ^ 63 ∧ roundToFloat64 a.duration = some a.duration
  | none =>
    (∀ keyword ∈ ebpfKeywords ++ javaKeywords, ¬ contains (text.map toLower) keyword) ∧
      (∀ pid ∈ namedPid text, pid = 0) ∧ ∀ duration ∈ namedDuration text, duration = 10

theorem nlChat_answered {answer : Option ParserAnswer} {a : ParserAnswer}
    (used : usable answer = some a) (message title uid userName : String) :
    ∃ pid duration targetIP, roundToFloat64 a.pid = some pid ∧
      roundToFloat64 a.duration = some duration ∧
      nlChat answer message title uid userName = .nlChat title a.profilerType.val targetIP
        (intOfFloat64 pid) (intOfFloat64 (if duration = 0 then 10 else duration)) uid userName := by
  obtain ⟨rfl, decoded⟩ := Option.filter_eq_some_iff.mp used
  obtain ⟨intent, unmarshalled⟩ := Option.isSome_iff_exists.mp decoded
  have parts := unmarshalled
  simp only [unmarshalAnswer, Option.bind_eq_bind, Option.bind_eq_some_iff] at parts
  obtain ⟨pid, pidRounded, profilerType, typeRounded, duration, durationRounded, rest⟩ := parts
  have small : a.profilerType.val < 2 ^ 53 := a.profilerType.isLt.trans (by decide)
  have exact : profilerType = a.profilerType.val :=
    Option.some.inj (typeRounded.symm.trans (roundToFloat64_of_lt small))
  have known : intOfFloat64 profilerType = a.profilerType.val := by
    rw [exact, intOfFloat64_of_lt (small.trans (by decide))]
  let targetIP := assertString (some (a.targetIp.elim .null .string))
  refine ⟨pid, duration, if targetIP = [] then "127.0.0.1" else String.ofList targetIP, pidRounded,
    durationRounded, ?_⟩
  simp only [nlChat, parseNLIntent, Option.bind_some, unmarshalled, Option.getD_some,
    ← Option.some.inj rest, ← known]
  rfl

theorem nlChat_fallback {answer : Option ParserAnswer} (unused : usable answer = none)
    (message title uid userName : String) :
    ∃ targetIP, nlChat answer message title uid userName =
      .nlChat title 0 targetIP 0 10 uid userName := by
  have failed : answer.bind unmarshalAnswer = none := by
    cases answer with
    | none => rfl
    | some a =>
      have undecoded := Option.filter_eq_none_iff.mp unused a rfl
      simpa using undecoded
  refine ⟨String.ofList ['1', '2', '7', '.', '0', '.', '0', '.', '1'], ?_⟩
  simp only [nlChat, parseNLIntent, failed, Option.getD_none]
  rfl

/-- For every message and whatever `nl_parser.py` does: the intent is honoured exactly if its
numbers are among those that survive. -/
theorem nlChat_honours_iff (answer : Option ParserAnswer) (message title uid userName : String) :
    Honours (nlChat answer message title uid userName) (wanted answer message.toList) ↔
      Transmittable answer message.toList := by
  cases used : usable answer with
  | some a =>
    obtain ⟨pid, duration, targetIP, pidRounded, durationRounded, created⟩ :=
      nlChat_answered used message title uid userName
    simp only [created, honours_nlChat_iff, wanted, used, Option.map_some, Option.getD_some,
      ParserAnswer.wanted, Transmittable, true_and]
    rw [pid_iff pidRounded, duration_iff durationRounded, durationRounded, Option.some.injEq]
  | none =>
    obtain ⟨targetIP, created⟩ := nlChat_fallback used message title uid userName
    simp only [created, honours_nlChat_iff, wanted, used, Option.map_none, Option.getD_none,
      fallbackWanted, Transmittable, ← fallbackProfilerType_eq_zero_iff, ← getD_eq_iff]
    have positive : (namedDuration message.toList).getD 10 ≠ 0 := by
      cases named : namedDuration message.toList with
      | none => decide
      | some d => exact (namedDuration_pos named).ne'
    rw [if_neg positive, eq_comm (a := (0 : Int)), eq_comm (a := (10 : Int))]
    exact and_congr_right fun _ => and_congr_left fun _ => eq_comm

/-- The script fails on a message that asks for 30 seconds of a Java process. -/
def javaMessage : String := "PID 1234 java 30秒"

theorem javaMessage_not_honoured : TaskReads.validMessage javaMessage ∧
    ¬ Honours (nlChat none javaMessage "" "u" "user") (wanted none javaMessage.toList) := by
  refine ⟨by decide, fun honours => ?_⟩
  exact absurd (honours.2.1 "t") (by decide)

end DropPlatform.NlIntent
