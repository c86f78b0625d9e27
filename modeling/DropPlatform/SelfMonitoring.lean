import DropPlatform.FoldedLines

/-! The agent's statistics about itself: `ComputePidStats` reads `/proc/self/stat` and
`/proc/self/io` and reports what has been used since the call before. A read that fails
leaves zeros, and they are kept as the sample to compare the next call with. -/

namespace DropPlatform.SelfMonitoring
open TextLines CollapsedStacks FoldedLines

structure ProcStats where
  utime : UInt64 := 0
  stime : UInt64 := 0
  rssPages : UInt64 := 0
  readBytes : UInt64 := 0
  writeBytes : UInt64 := 0
  cpuPercent : Float := 0.0
  rssMb : UInt64 := 0
  readKbs : UInt64 := 0
  writeKbs : UInt64 := 0

def closeParen : UInt8 := 41

/-- One token of the line with the number of its field. -/
def takeField (out : ProcStats) (token : Bytes × Nat) : Option ProcStats :=
  if token.2 = 14 then (stoull token.1).map fun n => { out with utime := n }
  else if token.2 = 15 then (stoull token.1).map fun n => { out with stime := n }
  else if token.2 = 24 then (stoull token.1).map fun n => { out with rssPages := n }
  else some out

/-- `ReadSelfStat` on the content of the file, if it opens; `none` is an exception. -/
def readSelfStat (pageSize : UInt64) (file : Option Bytes) (out : ProcStats) :
    Option (Bool × ProcStats) :=
  match file with
  | none => some (false, out)
  | some content =>
    match cutLast closeParen ((lines newline content).headD []) with
    | none => some (false, out)
    -- `line.substr(comm_end + 2)` starts behind the end
    | some (_, []) => none
    | some (_, _ :: rest) => do
      let out ← (((lines space rest).zipIdx 3).take 22).foldlM takeField out
      some (true, { out with rssMb := out.rssPages * pageSize / (1024 * 1024) })

def takeIo (out : ProcStats) (line : Bytes) : Option ProcStats :=
  if ascii "read_bytes:" <+: line then
    (stoull (line.drop 11)).map fun n => { out with readBytes := n }
  else if ascii "write_bytes:" <+: line then
    (stoull (line.drop 12)).map fun n => { out with writeBytes := n }
  else some out

def readSelfIo (file : Option Bytes) (out : ProcStats) : Option (Bool × ProcStats) :=
  match file with
  | none => some (false, out)
  | some content => ((lines newline content).foldlM takeIo out).map fun out => (true, out)

structure Host where
  clkTck : Int64
  pageSize : UInt64
  pid : Int32
deriving DecidableEq, Repr

/-- What one call finds: the two files, if they open, and the clock in nanoseconds. -/
structure Readings where
  stat : Option Bytes
  io : Option Bytes
  now : Nat
deriving DecidableEq, Repr

/-- The static variables of `ComputePidStats`. -/
structure Monitor where
  prev : ProcStats
  prevTime : Nat

def Monitor.initial (now : Nat) : Monitor := ⟨{}, now⟩

structure PidStats where
  name : String
  pid : Int32
  utime : UInt64
  stime : UInt64
  rss : UInt64
  cpuPercent : Float
  rssMb : UInt64
  readKbs : UInt64
  writeKbs : UInt64

def computePidStats (host : Host) (m : Monitor) (readings : Readings) :
    Option (Monitor × PidStats) := do
  let stat ← readSelfStat host.pageSize readings.stat {}
  let io ← readSelfIo readings.io stat.2
  let cur := io.2
  let prev := m.prev
  let elapsed := (readings.now - m.prevTime).toFloat / 1e9
  let elapsedSec := if elapsed < 0.01 then 0.01 else elapsed
  let cur := { cur with
    cpuPercent := ((cur.utime - prev.utime) + (cur.stime - prev.stime)).toFloat /
      (elapsedSec * host.clkTck.toFloat) * 100.0
    rssMb := cur.rssPages * host.pageSize / (1024 * 1024)
    readKbs := ((cur.readBytes - prev.readBytes).toFloat / elapsedSec / 1024).toUInt64
    writeKbs := ((cur.writeBytes - prev.writeBytes).toFloat / elapsedSec / 1024).toUInt64 }
  some (⟨cur, readings.now⟩,
    ⟨"drop_agent", host.pid, cur.utime, cur.stime, cur.rssPages, cur.cpuPercent, cur.rssMb,
      cur.readKbs, cur.writeKbs⟩)

inductive Counter
  | utime | stime | readBytes | writeBytes
deriving DecidableEq, Repr

def ProcStats.counter (s : ProcStats) : Counter → UInt64
  | .utime => s.utime
  | .stime => s.stime
  | .readBytes => s.readBytes
  | .writeBytes => s.writeBytes

/-- A call, the true counters of the process at that time, and which reads succeed. -/
structure Call where
  readings : Readings
  truth : Counter → UInt64
  rssPages : UInt64
  statOk : Bool
  ioOk : Bool
  stat : ∀ pageSize out, readSelfStat pageSize readings.stat out =
    if statOk then some (true, { out with
      utime := truth .utime, stime := truth .stime, rssPages,
      rssMb := rssPages * pageSize / (1024 * 1024) })
    else some (false, out)
  io : ∀ out, readSelfIo readings.io out =
    if ioOk then some (true, { out with
      readBytes := truth .readBytes, writeBytes := truth .writeBytes })
    else some (false, out)

def Call.ok (call : Call) : Counter → Bool
  | .utime | .stime => call.statOk
  | .readBytes | .writeBytes => call.ioOk

def Call.sample (call : Call) (c : Counter) : UInt64 := if call.ok c then call.truth c else 0

section runs
variable (host : Host)

omit host in
theorem reads_sample (call : Call) (pageSize : UInt64) :
    ∃ stat io, readSelfStat pageSize call.readings.stat {} = some stat ∧
      readSelfIo call.readings.io stat.2 = some io ∧ ∀ c, io.2.counter c = call.sample c := by
  rw [call.stat]
  cases statOk : call.statOk <;> cases ioOk : call.ioOk <;>
    refine ⟨_, _, rfl, by rw [call.io, ioOk]; rfl, fun c => ?_⟩ <;>
    cases c <;> simp [ProcStats.counter, Call.sample, Call.ok, statOk, ioOk]

theorem computePidStats_call (m : Monitor) (call : Call) :
    ∃ next stats, computePidStats host m call.readings = some (next, stats) ∧
      ∀ c, next.prev.counter c = call.sample c := by
  obtain ⟨stat, io, statRead, ioRead, sampled⟩ := reads_sample call host.pageSize
  refine ⟨_, _, by simp only [computePidStats, statRead, ioRead, bind, Option.bind]; rfl,
    fun c => ?_⟩
  rw [← sampled c]
  cases c <;> rfl

def runCalls (m : Monitor) (calls : List Call) : Option Monitor :=
  calls.foldlM (fun m call => (computePidStats host m call.readings).map Prod.fst) m

def held (calls : List Call) (c : Counter) : UInt64 :=
  (calls.getLast?.map (·.sample c)).getD 0

theorem runCalls_held (now : Nat) (calls : List Call) :
    ∃ m, runCalls host (.initial now) calls = some m ∧ ∀ c, m.prev.counter c = held calls c := by
  induction calls using List.reverseRecOn with
  | nil => exact ⟨.initial now, rfl, fun c => by cases c <;> rfl⟩
  | append_singleton calls call ih =>
    obtain ⟨m, ran, _⟩ := ih
    obtain ⟨next, stats, computed, sampled⟩ := computePidStats_call host m call
    refine ⟨next, ?_, fun c => ?_⟩
    · rw [runCalls, List.foldlM_append]
      rw [runCalls] at ran
      simp [ran, computed]
    · rw [sampled c, held, List.getLast?_concat]
      rfl

end runs

section differences
variable (history : List Call) (call : Call) (c : Counter)

/-- The true increase since an earlier successful reading, or zero if this reading or
every earlier one has failed. -/
def Increase (d : UInt64) : Prop :=
  (call.ok c ∧ ∃ earlier ∈ history, earlier.ok c ∧
    d.toNat + (earlier.truth c).toNat = (call.truth c).toNat) ∨
  ¬ (call.ok c ∧ ∃ earlier ∈ history, earlier.ok c) ∧ d = 0

def lastOk : Bool := (history.getLast?.map (·.ok c)).getD false

/-- The read succeeds now and did so in the call before. Otherwise nothing but a counter
that was still zero makes up for the sample that is missing. -/
def Comparable : Prop :=
  call.ok c ∧ lastOk history c ∨
  ¬ call.ok c ∧ held history c = 0 ∨
  call.ok c ∧ ¬ lastOk history c ∧
    ((∃ earlier ∈ history, earlier.ok c ∧ earlier.truth c = 0) ∨
      (∀ earlier ∈ history, ¬ earlier.ok c) ∧ call.truth c = 0)

/-- The counters of the process never go down. -/
def Grows (calls : List Call) : Prop := calls.Pairwise fun a b => ∀ c, a.truth c ≤ b.truth c

variable {history call c}

theorem exists_last (ok : lastOk history c) :
    ∃ last ∈ history, last.ok c ∧ held history c = last.truth c := by
  cases found : history.getLast? with
  | none => simp [lastOk, found] at ok
  | some last =>
    have succeeds : last.ok c := by simpa [lastOk, found] using ok
    refine ⟨last, List.mem_of_getLast? found, succeeds, ?_⟩
    simp [held, found, Call.sample, succeeds]

theorem held_of_not_lastOk (fails : ¬ lastOk history c) : held history c = 0 := by
  cases found : history.getLast? with
  | none => simp [held, found]
  | some last =>
    have failed : ¬ last.ok c := by simpa [lastOk, found] using fails
    simp [held, found, Call.sample, failed]

theorem toNat_sub {a b : UInt64} (le : b ≤ a) : (a - b).toNat + b.toNat = a.toNat := by
  rw [UInt64.toNat_sub_of_le _ _ le]
  have bound := UInt64.le_iff_toNat_le.mp le
  omega

theorem increase_of_failed (fails : ¬ call.ok c) {d : UInt64} :
    Increase history call c d ↔ d = 0 := by
  simp [Increase, fails]

theorem increase_of_missing (now : call.ok c) :
    Increase history call c (call.truth c) ↔
      (∃ earlier ∈ history, earlier.ok c ∧ earlier.truth c = 0) ∨
        (∀ earlier ∈ history, ¬ earlier.ok c) ∧ call.truth c = 0 := by
  have zero : ∀ n : UInt64, n.toNat = 0 ↔ n = 0 := fun n => by
    rw [← UInt64.toNat_inj, UInt64.toNat_zero]
  simp only [Increase, now, true_and, Nat.add_eq_left, zero, not_exists, not_and]

theorem increase_iff (grows : Grows (history ++ [call])) :
    Increase history call c (call.sample c - held history c) ∧ held history c ≤ call.sample c ↔
      Comparable history call c := by
  by_cases now : call.ok c
  · have sample : call.sample c = call.truth c := if_pos now
    by_cases last : lastOk history c
    · obtain ⟨earlier, member, ok, kept⟩ := exists_last last
      have le : earlier.truth c ≤ call.truth c :=
        (List.pairwise_append.mp grows).2.2 earlier member call List.mem_cons_self c
      rw [sample, kept]
      exact iff_of_true ⟨.inl ⟨now, earlier, member, ok, toNat_sub le⟩, le⟩ (.inl ⟨now, last⟩)
    · rw [sample, held_of_not_lastOk last, UInt64.sub_zero, increase_of_missing now,
        and_iff_left (UInt64.zero_le)]
      simp [Comparable, now, last]
  · have sample : call.sample c = 0 := if_neg now
    have none : (0 : UInt64) - held history c = 0 ∧ held history c ≤ 0 ↔ held history c = 0 := by
      constructor
      · exact fun both => UInt64.le_zero_iff.mp both.2
      · intro zero
        rw [zero]
        decide
    rw [sample, increase_of_failed now, none]
    simp [Comparable, now]

end differences

section stat

structure Plain (field : Bytes) : Prop where
  filled : field ≠ []
  noNewline : newline ∉ field
  noSpace : space ∉ field
  noParen : closeParen ∉ field

theorem plain_decimal (n : Nat) : Plain (decimal n) :=
  ⟨decimal_ne_nil n, not_mem_decimal (by decide) n, not_mem_decimal (by decide) n,
    not_mem_decimal (by decide) n⟩

/-- The line of `/proc/self/stat`: what stands before the last parenthesis, and the fields
from the third on. -/
structure StatLine where
  front : Bytes
  before : List Bytes
  utime : UInt64
  stime : UInt64
  between : List Bytes
  rss : UInt64
  after : List Bytes
  oneLine : newline ∉ front
  eleven : before.length = 11
  eight : between.length = 8
  plain : ∀ field ∈ before ++ (between ++ after), Plain field

variable (line : StatLine)

def StatLine.fields : List Bytes :=
  line.before ++ (decimal line.utime.toNat :: decimal line.stime.toNat ::
    (line.between ++ decimal line.rss.toNat :: line.after))

def StatLine.text : Bytes :=
  line.front ++ closeParen :: line.fields.flatMap (space :: ·) ++ [newline]

theorem StatLine.fields_plain {field : Bytes} (member : field ∈ line.fields) : Plain field := by
  simp only [StatLine.fields, List.mem_append, List.mem_cons] at member
  rcases member with member | rfl | rfl | member | rfl | member
  · exact line.plain field (List.mem_append_left _ member)
  · exact plain_decimal _
  · exact plain_decimal _
  · exact line.plain field (List.mem_append_right _ (List.mem_append_left _ member))
  · exact plain_decimal _
  · exact line.plain field (List.mem_append_right _ (List.mem_append_right _ member))

theorem takeField_others (start : Nat) (out : ProcStats) (tokens : List Bytes)
    (others : ∀ i, start ≤ i → i < start + tokens.length → i ≠ 14 ∧ i ≠ 15 ∧ i ≠ 24) :
    (tokens.zipIdx start).foldlM takeField out = some out := by
  induction tokens generalizing start with
  | nil => rfl
  | cons token tokens ih =>
    obtain ⟨no14, no15, no24⟩ := others start le_rfl (by simp)
    rw [List.zipIdx_cons, List.foldlM_cons, takeField, if_neg no14, if_neg no15, if_neg no24]
    refine ih (start + 1) fun i from_ below => others i (by omega) ?_
    rw [List.length_cons]
    omega

theorem foldlM_fields (out : ProcStats) :
    ((line.fields.zipIdx 3).take 22).foldlM takeField out =
      some { out with utime := line.utime, stime := line.stime, rssPages := line.rss } := by
  have taken : (line.fields.zipIdx 3).take 22 =
      line.before.zipIdx 3 ++ ((decimal line.utime.toNat, 14) :: (decimal line.stime.toNat, 15) ::
        (line.between.zipIdx 16 ++ [(decimal line.rss.toNat, 24)])) := by
    rw [StatLine.fields, List.zipIdx_append, line.eleven, List.zipIdx_cons, List.zipIdx_cons,
      List.zipIdx_append, line.eight, List.zipIdx_cons]
    have size : (line.before.zipIdx 3).length ≤ 22 := by simp [line.eleven]
    have size' : (line.between.zipIdx 16).length ≤ 9 := by simp [line.eight]
    simp [List.take_append, line.eleven, line.eight, List.take_of_length_le size,
      List.take_of_length_le size']
  have utime := stoull_decimal line.utime.toNat_lt
  have stime := stoull_decimal line.stime.toNat_lt
  have rss := stoull_decimal line.rss.toNat_lt
  rw [UInt64.ofNat_toNat] at utime stime rss
  have before := takeField_others 3 out line.before fun i _ below => by
    rw [line.eleven] at below
    omega
  have between := fun out => takeField_others 16 out line.between fun i _ below => by
    rw [line.eight] at below
    omega
  rw [taken, List.foldlM_append, before]
  simp [takeField, utime, stime, rss, between]

theorem not_mem_fields {c : UInt8} (other : c ≠ space) (clean : ∀ field ∈ line.fields, c ∉ field) :
    c ∉ line.fields.flatMap (space :: ·) := by
  rw [List.mem_flatMap]
  rintro ⟨field, member, inside⟩
  rcases List.mem_cons.mp inside with same | inside
  · exact other same
  · exact clean field member inside

theorem lines_text :
    lines newline line.text = [line.front ++ closeParen :: line.fields.flatMap (space :: ·)] := by
  have rest := not_mem_fields line (by decide : newline ≠ space) fun field member =>
    (line.fields_plain member).noNewline
  have clean : newline ∉ line.front ++ closeParen :: line.fields.flatMap (space :: ·) := by
    rw [List.mem_append, List.mem_cons, not_or, not_or]
    exact ⟨line.oneLine, by decide, rest⟩
  rw [StatLine.text, lines_append clean]
  rfl

theorem lines_fields : ∃ rest, line.fields.flatMap (space :: ·) = space :: rest ∧
    lines space rest = line.fields := by
  have some : line.fields ≠ [] := by
    have size := line.eleven
    intro none
    rw [StatLine.fields, List.append_eq_nil_iff] at none
    exact absurd none.2 (List.cons_ne_nil _ _)
  obtain ⟨first, others, whole⟩ := List.exists_cons_of_ne_nil some
  have plain := fun field (member : field ∈ first :: others) =>
    line.fields_plain (whole ▸ member)
  refine ⟨first ++ others.flatMap (space :: ·), by rw [whole]; rfl, ?_⟩
  have head := plain first List.mem_cons_self
  rw [lines_cons_flatMap head.noSpace head.filled fun other member => ?_, whole]
  have next := plain other (List.mem_cons_of_mem _ member)
  exact ⟨next.noSpace, next.filled⟩

theorem readSelfStat_text (pageSize : UInt64) (out : ProcStats) :
    readSelfStat pageSize (some line.text) out = some (true, { out with
      utime := line.utime, stime := line.stime, rssPages := line.rss,
      rssMb := line.rss * pageSize / (1024 * 1024) }) := by
  have cut := cutLast_append line.front (not_mem_fields line (by decide : closeParen ≠ space)
    fun field member => (line.fields_plain member).noParen)
  obtain ⟨rest, begins, tokens⟩ := lines_fields line
  simp only [readSelfStat, lines_text, List.headD_cons, cut]
  rw [begins]
  simp only [tokens, foldlM_fields]
  rfl

end stat

section io

structure IoFile where
  rchar : Nat
  wchar : Nat
  syscr : Nat
  syscw : Nat
  readBytes : UInt64
  writeBytes : UInt64
  cancelledWriteBytes : Nat
deriving DecidableEq, Repr

def IoFile.entries (file : IoFile) : List (String × Nat) :=
  [("rchar:", file.rchar), ("wchar:", file.wchar), ("syscr:", file.syscr), ("syscw:", file.syscw),
    ("read_bytes:", file.readBytes.toNat), ("write_bytes:", file.writeBytes.toNat),
    ("cancelled_write_bytes:", file.cancelledWriteBytes)]

def ioLine (name : String) (n : Nat) : Bytes := ascii name ++ space :: decimal n

def IoFile.text (file : IoFile) : Bytes :=
  file.entries.flatMap fun entry => ioLine entry.1 entry.2 ++ [newline]

theorem newline_not_mem_ioLine {file : IoFile} {entry : String × Nat}
    (member : entry ∈ file.entries) : newline ∉ ioLine entry.1 entry.2 := by
  have digits : newline ∉ space :: decimal entry.2 := by
    rw [List.mem_cons, not_or]
    exact ⟨by decide, not_mem_decimal (by decide) entry.2⟩
  rw [ioLine, List.mem_append, not_or]
  refine ⟨?_, digits⟩
  simp only [IoFile.entries, List.mem_cons, List.not_mem_nil, or_false] at member
  rcases member with rfl | rfl | rfl | rfl | rfl | rfl | rfl <;> dsimp only <;> decide

theorem not_prefix_of_take {tag name : Bytes} (rest : Bytes) (long : 2 ≤ tag.length)
    (long' : 2 ≤ name.length) (differ : tag.take 2 ≠ name.take 2) : ¬ tag <+: name ++ rest := by
  rintro ⟨more, same⟩
  have firsts := congrArg (List.take 2) same
  rw [List.take_append_of_le_length long, List.take_append_of_le_length long'] at firsts
  exact differ firsts

theorem takeIo_other (out : ProcStats) {name : String} (n : Nat) (long : 2 ≤ (ascii name).length)
    (noRead : (ascii "read_bytes:").take 2 ≠ (ascii name).take 2)
    (noWrite : (ascii "write_bytes:").take 2 ≠ (ascii name).take 2) :
    takeIo out (ioLine name n) = some out := by
  rw [takeIo, ioLine, if_neg (not_prefix_of_take _ (by decide) long noRead),
    if_neg (not_prefix_of_take _ (by decide) long noWrite)]

theorem stoull_space_decimal (n : UInt64) : stoull (space :: decimal n.toNat) = some n := by
  have blank : ∀ b ∈ [space], isSpace b := List.forall_mem_singleton.mpr (by decide)
  have read := (stoull_spaces blank (decimal n.toNat)).trans (stoull_decimal n.toNat_lt)
  rwa [UInt64.ofNat_toNat] at read

theorem takeIo_read (out : ProcStats) (n : UInt64) :
    takeIo out (ioLine "read_bytes:" n.toNat) = some { out with readBytes := n } := by
  have begins : ascii "read_bytes:" <+: ioLine "read_bytes:" n.toNat := List.prefix_append _ _
  have rest : (ioLine "read_bytes:" n.toNat).drop 11 = space :: decimal n.toNat :=
    List.drop_left' (by decide)
  rw [takeIo, if_pos begins, rest, stoull_space_decimal]
  rfl

theorem takeIo_write (out : ProcStats) (n : UInt64) :
    takeIo out (ioLine "write_bytes:" n.toNat) = some { out with writeBytes := n } := by
  have other : ¬ ascii "read_bytes:" <+: ioLine "write_bytes:" n.toNat :=
    not_prefix_of_take _ (by decide) (by decide) (by decide)
  have begins : ascii "write_bytes:" <+: ioLine "write_bytes:" n.toNat := List.prefix_append _ _
  have rest : (ioLine "write_bytes:" n.toNat).drop 12 = space :: decimal n.toNat :=
    List.drop_left' (by decide)
  rw [takeIo, if_neg other, if_pos begins, rest, stoull_space_decimal]
  rfl

theorem readSelfIo_text (file : IoFile) (out : ProcStats) :
    readSelfIo (some file.text) out =
      some (true, { out with readBytes := file.readBytes, writeBytes := file.writeBytes }) := by
  have others : ∀ name ∈ ["rchar:", "wchar:", "syscr:", "syscw:", "cancelled_write_bytes:"],
      2 ≤ (ascii name).length ∧ (ascii "read_bytes:").take 2 ≠ (ascii name).take 2 ∧
        (ascii "write_bytes:").take 2 ≠ (ascii name).take 2 := by decide
  have skipped : ∀ name ∈ ["rchar:", "wchar:", "syscr:", "syscw:", "cancelled_write_bytes:"],
      ∀ out n, takeIo out (ioLine name n) = some out := fun name member out n =>
    takeIo_other out n (others name member).1 (others name member).2.1 (others name member).2.2
  rw [readSelfIo, IoFile.text, lines_flatMap fun entry => newline_not_mem_ioLine]
  simp [IoFile.entries, skipped, takeIo_read, takeIo_write]

end io

def readCall (line : StatLine) (file : IoFile) (now : Nat) : Call where
  readings := ⟨some line.text, some file.text, now⟩
  truth
    | .utime => line.utime
    | .stime => line.stime
    | .readBytes => file.readBytes
    | .writeBytes => file.writeBytes
  rssPages := line.rss
  statOk := true
  ioOk := true
  stat := readSelfStat_text line
  io := readSelfIo_text file

def failedCall (truth : Counter → UInt64) (rssPages : UInt64) (now : Nat) : Call where
  readings := ⟨none, none, now⟩
  truth
  rssPages
  statOk := false
  ioOk := false
  stat _ _ := rfl
  io _ := rfl

/-- In any call, what is reported for a counter is its increase, and nothing wraps, exactly
if the sample that is kept can be compared with the present one. -/
theorem differences_right_iff (host : Host) (start : Nat) (history : List Call) (call : Call)
    (grows : Grows (history ++ [call])) :
    ∃ m next stats, runCalls host (.initial start) history = some m ∧
      computePidStats host m call.readings = some (next, stats) ∧
      ∀ c, Increase history call c (next.prev.counter c - m.prev.counter c) ∧
        m.prev.counter c ≤ next.prev.counter c ↔ Comparable history call c := by
  obtain ⟨m, ran, kept⟩ := runCalls_held host start history
  obtain ⟨next, stats, computed, sampled⟩ := computePidStats_call host m call
  refine ⟨m, next, stats, ran, computed, fun c => ?_⟩
  rw [kept c, sampled c]
  exact increase_iff grows

section samples

def agentLine : StatLine where
  front := ascii "7 (drop_agent"
  before := List.replicate 11 (ascii "1")
  utime := 5
  stime := 3
  between := List.replicate 8 (ascii "1")
  rss := 100
  after := []
  oneLine := by decide
  eleven := rfl
  eight := rfl
  plain field member := by
    have same : field = ascii "1" := by
      simpa using member
    rw [same]
    constructor <;> decide

def agentIo : IoFile := ⟨0, 0, 0, 0, 4096, 8192, 0⟩

def linuxHost : Host := ⟨100, 4096, 7⟩

def firstCall : Call := readCall agentLine agentIo 0

theorem differences_right_iff_twice :
    Grows [firstCall, firstCall] ∧ ∃ m next stats,
      runCalls linuxHost (.initial 0) [firstCall] = some m ∧
      computePidStats linuxHost m firstCall.readings = some (next, stats) ∧
      ∀ c, Increase [firstCall] firstCall c (next.prev.counter c - m.prev.counter c) ∧
        m.prev.counter c ≤ next.prev.counter c ↔ Comparable [firstCall] firstCall c := by
  have grows : Grows [firstCall, firstCall] := by simp [Grows]
  exact ⟨grows, differences_right_iff linuxHost 0 [firstCall] firstCall grows⟩

/-- The second read fails: the CPU time since the first one is nearly 2 to the power of 64. -/
theorem failedCall_wraps :
    Grows [firstCall, failedCall firstCall.truth 100 1] ∧ ∃ m next stats,
      runCalls linuxHost (.initial 0) [firstCall] = some m ∧
      computePidStats linuxHost m (failedCall firstCall.truth 100 1).readings =
        some (next, stats) ∧
      (next.prev.utime - m.prev.utime).toNat = 2 ^ 64 - 5 ∧
      ¬ m.prev.counter .utime ≤ next.prev.counter .utime := by
  refine ⟨by simp [Grows, failedCall], ?_⟩
  obtain ⟨m, ran, kept⟩ := runCalls_held linuxHost 0 [firstCall]
  obtain ⟨next, stats, computed, sampled⟩ :=
    computePidStats_call linuxHost m (failedCall firstCall.truth 100 1)
  have before : m.prev.counter .utime = 5 := kept .utime
  have after : next.prev.counter .utime = 0 := sampled .utime
  refine ⟨m, next, stats, ran, computed, ?_, ?_⟩
  · change (next.prev.counter .utime - m.prev.counter .utime).toNat = _
    rw [before, after]
    decide
  · rw [before, after]
    decide

end samples

end DropPlatform.SelfMonitoring
