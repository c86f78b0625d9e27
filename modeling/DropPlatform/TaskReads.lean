import DropPlatform.TaskStore
import DropPlatform.TextLines
import Mathlib.Data.List.Sort

/-! The nine requests of the apiserver that read tasks, as functions of the database and
the object storage. Go strings that are cut or read byte by byte (`GetProfileWindow`, the
numbers of `ListTasks`) are byte lists.
A query on a column that its table does not have is rejected by the database, and the
handlers ignore that error: `analysis_suggestion` has a column `t_id` and no `tid`. -/

namespace DropPlatform.TaskReads
open TaskStore

structure GroupMember where
  gid : Nat
  uid : String
deriving DecidableEq, Repr

structure AnalysisSuggestion where
  id : Nat
  tid : String
  func : String
  suggestion : String
  aiSuggestion : String
  status : Int
  deleted : Bool
deriving DecidableEq, Repr

structure ContinuousProfileSegment where
  id : Nat
  tid : String
  startTs : Int64
  endTs : Int64
  s3Key : String
deriving DecidableEq, Repr

structure ServerState where
  tasks : List HotmethodTask
  members : List GroupMember
  suggestions : List AnalysisSuggestion
  segments : List ContinuousProfileSegment
  /-- The stored objects in the order in which they are listed. -/
  objects : List (String × Bytes)

/-- The fields of a decoded AI summary that are strings, and its confidence in percent. -/
structure AISummary where
  diagnosis : Option String
  evidence : Option String
  recommendation : Option String
  confidence : Option Int
deriving DecidableEq, Repr

/-- What surrounds the server: whether object storage is configured, which of its calls
fail and after how many bytes the reading of an object breaks off, the URLs it signs, and
the decoding of JSON (`some none` is the JSON value null). -/
structure Environment where
  storage : Bool
  listFails : String → Bool
  getFails : String → Bool
  readEnds : String → Option Nat
  preSign : String → String
  unmarshalSummary : String → Option (Option AISummary)

/-- The ownership clause: `uid = u OR uid IN (SELECT uid FROM group_members WHERE gid IN
(SELECT gid FROM group_members WHERE uid = u))`. -/
def mayAccess (members : List GroupMember) (u owner : String) : Bool :=
  owner = u ∨ ∃ m ∈ members, m.uid = owner ∧ ∃ n ∈ members, n.uid = u ∧ n.gid = m.gid

structure File where
  name : String
  key : String
  url : String
deriving DecidableEq, Repr

inductive StreamEvent
  | status (status : Int) (statusInfo : String) (analysisStatus : Int)
  | complete (suggestions : List AnalysisSuggestion)
  | error (message : String)
deriving DecidableEq, Repr

inductive Response
  | error (http code : Nat) (message : String)
  | task (task : HotmethodTask) (files : Option (List File))
  | tasks (list : List HotmethodTask) (total : Nat) (page : Int64)
  | files (list : List File)
  | segments (list : List ContinuousProfileSegment)
  | suggestions (list : List AnalysisSuggestion)
  /-- The merged stacks and their counts; Go writes them in any order. -/
  | stacks (merged : List (Bytes × Nat))
  | chat (type content tid : String)
  | stream (events : List StreamEvent)
deriving DecidableEq, Repr

def hasPrefix (key start : String) : Bool := start.toList.isPrefixOf key.toList

def listObjects (s : ServerState) (start : String) : List String :=
  (s.objects.map (·.1)).filter (hasPrefix · start)

def storedObject (s : ServerState) (key : String) : Option Bytes :=
  (s.objects.find? (·.1 = key)).map (·.2)

/-- What a scanner gets to see of an object; it treats a read error as the end. -/
def getObject (env : Environment) (s : ServerState) (key : String) : Option Bytes :=
  if env.getFails key then none
  else (storedObject s key).map fun content => (env.readEnds key).elim content content.take

def fileOf (env : Environment) (key : String) : File where
  name := String.ofList (key.toList.reverse.takeWhile (· ≠ '/')).reverse
  key := key
  url := env.preSign key

def getTask (env : Environment) (s : ServerState) (u tid : String) : Response :=
  match s.tasks.find? fun task => task.tid = tid ∧ mayAccess s.members u task.uid ∧
      task.deleted = false with
  | none => .error 404 4040001 "task not found"
  | some task =>
    let keys := listObjects s (tid ++ "/")
    if env.storage ∧ env.listFails (tid ++ "/") = false ∧ keys ≠ [] then
      .task task (some (keys.map (fileOf env)))
    else .task task none

section Pages

/-- The digits that `strconv.ParseUint(_, 10, 64)` reads after the number `n`. What is too
large ends the scan with the largest number, whatever follows. -/
def scanUint (n : Nat) : Bytes → Option Nat
  | [] => some n
  | d :: rest =>
    if d < 48 ∨ 57 < d then none
    else if 2 ^ 64 ≤ 10 * n + (d.toNat - 48) then some (2 ^ 64 - 1)
    else scanUint (10 * n + (d.toNat - 48)) rest

/-- The number that `strconv.Atoi` returns, and whether there is no error: 0 for what is no
number, the nearest `int` for one that is too large. -/
def atoi (text : Bytes) : Int64 × Bool :=
  let negative := text.head? = some 45
  let digits := if negative ∨ text.head? = some 43 then text.tail else text
  match if digits = [] then none else scanUint 0 digits with
  | none => (0, false)
  | some n =>
    if negative then if n > 2 ^ 63 then (Int64.minValue, false) else (-Int64.ofNat n, true)
    else if n ≥ 2 ^ 63 then (Int64.maxValue, false) else (Int64.ofNat n, true)

/-- gorm writes no `OFFSET` unless it is positive. -/
def offset {α : Type} (n : Int64) (rows : List α) : List α :=
  if n > 0 then rows.drop n.toNatClampNeg else rows

/-- gorm writes no `LIMIT` that is negative. -/
def limit {α : Type} (n : Int64) (rows : List α) : List α :=
  if n ≥ 0 then rows.take n.toNatClampNeg else rows

/-- `page` and `pageSize` are the query parameters, with "1" and "20" for the missing ones. -/
def listTasks (s : ServerState) (u : String) (page pageSize : Option Bytes) : Response :=
  let (page, _) := atoi (page.getD [49])
  let (pageSize, _) := atoi (pageSize.getD [50, 48])
  let pageSize := if pageSize > 100 then 100 else pageSize
  let page := if page < 1 then 1 else page
  let query := s.tasks.filter fun task => mayAccess s.members u task.uid ∧ task.deleted = false
  let ordered := query.insertionSort fun a b => b.createTime ≤ a.createTime
  .tasks (limit pageSize (offset ((page - 1) * pageSize) ordered)) query.length page

end Pages

def listCosFiles (env : Environment) (s : ServerState) (tid : String) : Response :=
  if tid = "" then .error 400 4000004 "tid required"
  else if env.storage = false then .error 503 5030001 "storage not configured"
  else if env.listFails (tid ++ "/") then .error 500 5000004 "list files failed"
  else .files ((listObjects s (tid ++ "/")).map (fileOf env))

def listSegments (s : ServerState) (tid : String) : Response :=
  .segments ((s.segments.filter (·.tid = tid)).insertionSort fun a b => a.startTs ≤ b.startTs)

/-- A `Find` on `analysis_suggestion` by the given column. -/
def suggestionsWhere (s : ServerState) (column tid : String) : List AnalysisSuggestion :=
  if column = "t_id" then s.suggestions.filter fun sug => sug.tid = tid ∧ sug.deleted = false
  else []

def listSuggestions (s : ServerState) (tid : String) : Response :=
  .suggestions ((suggestionsWhere s "t_id" tid).insertionSort fun a b =>
    a.status < b.status ∨ a.status = b.status ∧ a.id ≤ b.id)

section ProfileWindow

def newline : UInt8 := 10

/-- The lines that `bufio.Scanner` returns: without their end of line, up to the first
line that does not fit into its buffer of 65536 bytes. -/
def scanLines : Bytes → List Bytes → Bytes → List Bytes
  | [], lines, line => if line = [] then lines else lines ++ [dropCR line]
  | b :: rest, lines, line =>
    if b = newline then scanLines rest (lines ++ [dropCR line]) []
    else if line.length + 1 ≥ 65536 then lines
    else scanLines rest lines (line ++ [b])
where
  dropCR (line : Bytes) : Bytes := if line.getLast? = some 13 then line.dropLast else line

def parseUint (digits : Bytes) : Option Nat :=
  if digits = [] ∨ digits.any (fun d => d < 48 ∨ 57 < d) then none
  else
    let n := digits.foldl (fun n d => 10 * n + (d.toNat - 48)) 0
    if n < 2 ^ 64 then some n else none

/-- A line at its last space: the stack and its count. -/
def parseLine (line : Bytes) : Option (Bytes × Nat) :=
  let count := (line.reverse.takeWhile (· ≠ 32)).reverse
  if count.length = line.length then none
  else (parseUint count).map fun n => (line.take (line.length - count.length - 1), n)

/-- `merged[stack] += count` in 64 bits. -/
def addCount : List (Bytes × Nat) → Bytes → Nat → List (Bytes × Nat)
  | [], stack, count => [(stack, count)]
  | entry :: rest, stack, count =>
    if entry.1 = stack then (stack, (entry.2 + count) % 2 ^ 64) :: rest
    else entry :: addCount rest stack count

def mergeObject (merged : List (Bytes × Nat)) (content : Bytes) : List (Bytes × Nat) :=
  ((scanLines content [] []).filterMap parseLine).foldl (fun m e => addCount m e.1 e.2) merged

/-- `window` is the pair of query parameters, if they can be bound. -/
def getProfileWindow (env : Environment) (s : ServerState) (tid : String)
    (window : Option (Int64 × Int64)) : Response :=
  match window with
  | none => .error 400 4000012 "start and end query params required"
  | some (start, stop) =>
    if start = 0 ∨ stop = 0 then .error 400 4000012 "start and end query params required"
    else
      let segments := (s.segments.filter fun seg => seg.tid = tid ∧ seg.startTs < stop ∧
        start < seg.endTs).insertionSort fun a b => a.startTs ≤ b.startTs
      if segments = [] then .error 404 4040012 "no segments in the requested window"
      else if env.storage = false then .error 503 5030012 "storage not configured"
      else
        let contents := segments.filterMap fun seg => getObject env s seg.s3Key
        let merged := contents.foldl mergeObject []
        if merged = [] then .error 404 4040013 "no data in the requested window"
        else .stacks merged

end ProfileWindow

section NaturalLanguage

def nlTextReply (text : String) : Response := .chat "text" text ""

def statusMsg (status : Int) : String :=
  if status = 0 then "任务等待下发中"
  else if status = 1 then "任务正在执行采集"
  else if status = 2 then "任务正在上传数据"
  else if status = 3 then "任务已完成，分析进行中"
  else if status = 4 then "任务执行失败"
  else "任务状态未知"

def statusHint (status : Int) : String :=
  if status = 0 then "请稍等任务执行完成。"
  else if status = 1 then "请稍等采集完成。"
  else if status = 2 then "数据上传中，请稍等。"
  else if status = 3 then "分析正在生成中，请稍等片刻。"
  else if status = 4 then "任务执行失败，您可以重试。"
  else ""

/-- The last AI summary that can be decoded. -/
def aiSummary (env : Environment) (suggestions : List AnalysisSuggestion) : Option AISummary :=
  suggestions.foldl (fun found sug =>
    if sug.status = 1 ∧ sug.func = "__ai_summary__" then
      (env.unmarshalSummary sug.aiSuggestion).getD found
    else found) none

def summaryText (tid : String) (ai : AISummary) : String :=
  let section_ (title : String) (text : Option String) :=
    text.elim "" fun text => "**" ++ title ++ "**: " ++ text ++ "\n\n"
  "## 分析报告 (任务 " ++ tid ++ ")\n\n" ++ section_ "诊断" ai.diagnosis ++
    section_ "证据" ai.evidence ++ section_ "建议" ai.recommendation ++
    ai.confidence.elim "" fun percent => "**置信度**: " ++ toString percent ++ "%\n"

def rulesText (tid : String) (rules : List AnalysisSuggestion) : String :=
  "## 规则建议 (任务 " ++ tid ++ ")\n\n" ++ String.join (rules.mapIdx fun i sug =>
    toString (i + 1) ++ ". **" ++ sug.func ++ "**: " ++ sug.suggestion ++ "\n")

def nlAnswerAboutTask (env : Environment) (s : ServerState) (tid : String) : Response :=
  match s.tasks.find? fun task => task.tid = tid ∧ task.deleted = false with
  | none => nlTextReply "找不到该任务。"
  | some task =>
    let suggestions := suggestionsWhere s "tid" tid
    let rules := suggestions.filter (·.status = 0)
    match aiSummary env suggestions with
    | some ai => .chat "task_summary" (summaryText tid ai) tid
    | none =>
      if rules ≠ [] then .chat "task_summary" (rulesText tid rules) tid
      else nlTextReply ("任务 " ++ tid ++ " 当前状态: " ++ statusMsg task.status ++ "。" ++
        statusHint task.status)

/-- The length check that both chat handlers make, in bytes. -/
def validMessage (message : String) : Bool := 0 < message.utf8ByteSize ∧ message.utf8ByteSize ≤ 1000

/-- `NLChat` for a request that names a task; the parsed intent is not used then. -/
def nlChat (env : Environment) (s : ServerState) (message tid : String) : Response :=
  if validMessage message then nlAnswerAboutTask env s tid
  else .error 400 4000202 "message length must be 1-1000"

def nlChatFollowup (env : Environment) (s : ServerState) (tid message : String) : Response :=
  if validMessage message then nlAnswerAboutTask env s tid
  else .error 400 4000202 "message length must be 1-1000"

/-- The events that `NLStreamSSE` sends while the client stays; the list gives the
nanoseconds that have passed at each tick of the poll. -/
def nlStreamSSE (s : ServerState) (tid : String) : List Nat → List StreamEvent
  | [] => []
  | elapsed :: ticks =>
    if elapsed > 300 * 10 ^ 9 then [.error "timeout waiting for analysis"]
    else match s.tasks.find? fun task => task.tid = tid ∧ task.deleted = false with
      | none => [.error "task not found"]
      | some task =>
        .status task.status task.statusInfo task.analysisStatus ::
          if task.analysisStatus = analysisStatusSuccess then
            [.complete (suggestionsWhere s "tid" tid)]
          else if task.analysisStatus = analysisStatusFailed then
            [.error ("analysis failed: " ++ task.statusInfo)]
          else if task.status = taskStatusFailed then [.error ("task failed: " ++ task.statusInfo)]
          else nlStreamSSE s tid ticks

end NaturalLanguage

/-- The requests that read tasks. `NLChat` without a task creates one and is none of them;
a chat body that cannot be bound is refused before anything is read. -/
inductive Request
  | getTask (tid : String)
  | listTasks (page pageSize : Option Bytes)
  | listCosFiles (tid : String)
  | listSegments (tid : String)
  | getProfileWindow (tid : String) (window : Option (Int64 × Int64))
  | listSuggestions (tid : String)
  | nlChat (message tid : String) (named : tid ≠ "")
  | nlChatFollowup (tid message : String)
  | nlStreamSSE (tid : String) (ticks : List Nat)
deriving DecidableEq, Repr

def respond (env : Environment) (s : ServerState) (u : String) : Request → Response
  | .getTask tid => getTask env s u tid
  | .listTasks page pageSize => listTasks s u page pageSize
  | .listCosFiles tid => listCosFiles env s tid
  | .listSegments tid => listSegments s tid
  | .getProfileWindow tid window => getProfileWindow env s tid window
  | .listSuggestions tid => listSuggestions s tid
  | .nlChat message tid _ => nlChat env s message tid
  | .nlChatFollowup tid message => nlChatFollowup env s tid message
  | .nlStreamSSE tid ticks => .stream (nlStreamSSE s tid ticks)

end DropPlatform.TaskReads
