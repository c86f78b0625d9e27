import DropPlatform.AgentAudit
import DropPlatform.NlParser
import Mathlib.Data.String.Basic

/-! From a message to a task: `NLChat` asks `nl_parser.py`, with the agents that are online, and
creates the task from its answer, or from the fallback's when the script fails. -/

namespace DropPlatform.NlRequests
open Patterns Patterns.Pattern KeywordTables PythonText NlIntent NlParser TaskLifecycle

def getAvailableAgents (found : List AgentAudit.AgentInfo) : List AgentEntry :=
  if found = [] then [⟨some localhost⟩] else found.map fun agent => ⟨some agent.ipAddr.toList⟩

/-- `json.Marshal` of the agents, of which `parseIntent` only uses the addresses. -/
def agentsJson (found : List AgentAudit.AgentInfo) : Message :=
  let agents := if found = [] then [("localhost", "127.0.0.1")]
    else found.map fun agent => (agent.hostname, agent.ipAddr)
  '[' :: ([','].intercalate (agents.map fun agent => goStyle.object
    [stringField "hostname" agent.1, stringField "ip_addr" agent.2]) ++ [']'])

/-- What `execve` takes for an argument: no NUL, and with the one at its end 2^17 bytes at most. -/
def isArgument (arg : Message) : Bool := '\x00' ∉ arg ∧ String.utf8Len arg < 131072

/-- The run of the script; `argparse` may take a text that starts with a hyphen for an option. -/
def script (optionLike : Message → Bool) (now : Nat) (found : List AgentAudit.AgentInfo)
    (text : Message) : Option ParserAnswer :=
  if isArgument text = false ∨ isArgument (agentsJson found) = false then none
  else if text.head? = some '-' ∧ optionLike text then none
  else parseIntent now text (getAvailableAgents found)

section requests
variable (optionLike : Message → Bool) (now : Nat) (found : List AgentAudit.AgentInfo)
  (message title uid userName : String)

def chat : Creation := nlChat (script optionLike now found message.toList) message title uid userName

theorem targetIp_of_script {optionLike : Message → Bool} {now : Nat}
    {found : List AgentAudit.AgentInfo} {text : Message} {answer : ParserAnswer}
    (answered : script optionLike now found text = some answer) :
    ∃ ip, answer.targetIp = some ip ∧ (IsAddress ip ∧ ip <:+: text ∨
      ip = localhost ∨ ∃ agent ∈ found, ip = agent.ipAddr.toList) := by
  rw [script] at answered
  split_ifs at answered
  simp only [parseIntent, Option.bind_eq_bind, Option.bind_eq_some_iff, Option.some.injEq]
    at answered
  obtain ⟨_, _, _, _, _, _, rfl⟩ := answered
  cases named : extractTargetIp text with
  | some ip => exact ⟨ip, rfl, .inl (extractTargetIp_some named)⟩
  | none =>
    cases found with
    | nil => exact ⟨localhost, rfl, .inr (.inl rfl)⟩
    | cons agent others => exact ⟨_, rfl, .inr (.inr ⟨agent, List.mem_cons_self, rfl⟩)⟩

theorem lookup_targetIp {answer : ParserAnswer} {intent : Intent}
    (decoded : unmarshalAnswer answer = some intent) :
    intent.lookup "target_ip" = some (answer.targetIp.elim .null .string) := by
  simp only [unmarshalAnswer, Option.bind_eq_bind, Option.bind_eq_some_iff, Option.some.injEq]
    at decoded
  obtain ⟨_, _, _, _, _, _, rfl⟩ := decoded
  rfl

theorem targetIP_nlChat (answer : Option ParserAnswer) :
    (nlChat answer message title uid userName).request.targetIP = "127.0.0.1" ∨
      ∃ a ip, answer = some a ∧ a.targetIp = some ip ∧
        (nlChat answer message title uid userName).request.targetIP = String.ofList ip := by
  have asserted : (nlChat answer message title uid userName).request.targetIP =
      let ip := assertString ((parseNLIntent answer message.toList).lookup "target_ip")
      if ip = [] then "127.0.0.1" else String.ofList ip := rfl
  rw [asserted]
  dsimp only
  split_ifs with empty
  · exact .inl rfl
  · cases decoded : answer.bind unmarshalAnswer with
    | none =>
      left
      simp only [parseNLIntent, decoded, Option.getD_none]
      rfl
    | some intent =>
      right
      obtain ⟨a, rfl, unmarshalled⟩ := Option.bind_eq_some_iff.mp decoded
      have looked := lookup_targetIp unmarshalled
      rw [parseNLIntent, decoded, Option.getD_some, looked] at empty ⊢
      cases named : a.targetIp with
      | none => exact absurd (by rw [named]; rfl) empty
      | some ip => exact ⟨a, ip, rfl, named, rfl⟩

/-- Whatever the message: the task that it creates is for an address in the message, for an
agent that is online, or for the machine itself. -/
theorem chat_target (store : AgentAudit.Store) (rows : found.Perm (store.agents.filter (·.online))) :
    (chat optionLike now found message title uid userName).request.targetIP = "127.0.0.1" ∨
      (∃ agent ∈ store.agents, agent.online ∧
        (chat optionLike now found message title uid userName).request.targetIP = agent.ipAddr) ∨
      ∃ ip, IsAddress ip ∧ ip <:+: message.toList ∧
        (chat optionLike now found message title uid userName).request.targetIP =
          String.ofList ip := by
  rcases targetIP_nlChat message title uid userName (script optionLike now found message.toList)
    with home | ⟨answer, ip, answered, named, target⟩
  · exact .inl home
  · obtain ⟨ip', named', origin⟩ := targetIp_of_script answered
    obtain rfl := Option.some.inj (named.symm.trans named')
    rcases origin with ⟨shape, within⟩ | rfl | ⟨agent, member, rfl⟩
    · exact .inr (.inr ⟨ip, shape, within, target⟩)
    · exact .inl target
    · obtain ⟨listed, online⟩ := List.mem_filter.mp (rows.mem_iff.mp member)
      refine .inr (.inl ⟨agent, listed, online, target.trans ?_⟩)
      exact String.ofList_toList

theorem IsAddress.head {ip : Message} (shape : IsAddress ip) : ∃ c rest, ip = c :: rest ∧ isDecimal c := by
  obtain ⟨a, b, c, d, first, _, _, _, rfl⟩ := shape
  obtain ⟨x, more, rfl⟩ := List.exists_cons_of_length_pos first.2.1
  exact ⟨x, _, rfl, first.1 x List.mem_cons_self⟩

def onlineAgent : AgentAudit.AgentInfo := ⟨1, "node", "10.0.0.7", true, "u", "1.0", 0⟩

theorem chat_target_onlineAgent :
    [onlineAgent].Perm ([onlineAgent].filter (·.online)) ∧
      ∃ agent ∈ [onlineAgent], agent.online ∧
        (chat (fun _ => false) 0 [onlineAgent] "java" "t" "u" "n").request.targetIP =
          agent.ipAddr := by
  have rows : [onlineAgent].Perm ([onlineAgent].filter (·.online)) := .refl _
  have sent : (chat (fun _ => false) 0 [onlineAgent] "java" "t" "u" "n").request.targetIP =
      "10.0.0.7" := by decide +kernel
  refine ⟨rows, ?_⟩
  rcases chat_target (fun _ => false) 0 [onlineAgent] "java" "t" "u" "n" ⟨[onlineAgent], [], 2⟩ rows
    with home | agent | ⟨ip, shape, within, _⟩
  · exact absurd (home.symm.trans sent) (by decide)
  · exact agent
  · obtain ⟨c, more, rfl, digit⟩ := IsAddress.head shape
    have member := within.subset (List.mem_cons_self (a := c) (l := more))
    have letters : ("java".toList.all fun c => !isDecimal c) = true := by decide
    have letter := List.all_eq_true.mp letters c member
    exact absurd digit (by simpa using letter)

theorem countsDigits_pidPatterns : ∀ p ∈ pidPatterns, countsDigits p := by
  simp only [pidPatterns, List.forall_mem_cons, List.not_mem_nil, false_imp_iff, implies_true,
    and_true]
  exact ⟨⟨rfl, 0, rfl⟩, ⟨rfl, 0, rfl⟩, ⟨rfl, 0, rfl⟩, ⟨rfl, 0, rfl⟩⟩

theorem countsDigits_durationPatterns : ∀ p ∈ durationPatterns, countsDigits p := by
  simp only [durationPatterns, List.forall_mem_cons, List.not_mem_nil, false_imp_iff, implies_true,
    and_true]
  exact ⟨⟨rfl, 0, rfl⟩, ⟨rfl, 0, rfl⟩⟩

theorem length_le_utf8Len (text : Message) : text.length ≤ String.utf8Len text := by
  induction text with
  | nil => exact Nat.zero_le _
  | cons c text ih =>
    have filled := c.utf8Size_pos
    simp only [List.length_cons, String.utf8Len_cons]
    omega

theorem utf8Len_of_valid {message : String} (valid : TaskReads.validMessage message) :
    String.utf8Len message.toList ≤ 1000 := by
  have size := String.utf8ByteSize_ofList message.toList
  rw [String.ofList_toList] at size
  exact size ▸ (of_decide_eq_true valid).2

theorem length_of_valid {message : String} (valid : TaskReads.validMessage message) :
    message.toList.length ≤ intMaxStrDigits :=
  (length_le_utf8Len _).trans ((utf8Len_of_valid valid).trans (by decide))

theorem nul_not_mem_escape {special : List Char} (planes : ∀ c ∈ special, c.toNat < 0x10000)
    (c : Char) : '\x00' ∉ JsonObjects.escape special c := by
  unfold JsonObjects.escape
  split_ifs with quoted _ _ _ _ _ number
  · rcases quoted with rfl | rfl <;> decide
  · decide
  · decide
  · decide
  · decide
  · decide
  · have digit : ∀ k < 16, '\x00' ≠ JsonObjects.hexOf k := by decide
    have bound : c.toNat < 0x10000 := number.elim (fun low => by omega) (planes c)
    simp [JsonObjects.unicodeEscape, digit (c.toNat / 4096) (by omega),
      digit (c.toNat / 256 % 16) (by omega), digit (c.toNat / 16 % 16) (by omega),
      digit (c.toNat % 16) (by omega)]
  · intro member
    rw [← List.mem_singleton.mp member] at number
    exact number (.inl (by decide))

theorem nul_not_mem_string (s : Message) : '\x00' ∉ goStyle.string s := by
  intro member
  simp only [JsonObjects.Style.string, List.mem_cons, List.mem_append, List.mem_flatMap,
    List.not_mem_nil, or_false, Char.reduceEq, false_or] at member
  obtain ⟨c, _, inside⟩ := member
  exact nul_not_mem_escape (by simp) c inside

theorem nul_not_mem_agentsJson (found : List AgentAudit.AgentInfo) :
    '\x00' ∉ agentsJson found := by
  have agent (hostname ip : String) : '\x00' ∉ goStyle.object
      [stringField "hostname" hostname, stringField "ip_addr" ip] := by
    have gap : goStyle.gap = [] := rfl
    simp [JsonObjects.Style.object, JsonObjects.Style.members, JsonObjects.Style.member,
      JsonObjects.Style.value, stringField, nul_not_mem_string, gap]
  have joined (agents : List (String × String)) : '\x00' ∉ [','].intercalate (agents.map
      fun agent => goStyle.object
        [stringField "hostname" agent.1, stringField "ip_addr" agent.2]) := by
    induction agents with
    | nil => decide
    | cons first others ih =>
      cases others with
      | nil => simpa using agent first.1 first.2
      | cons second others =>
        rw [List.map_cons, List.map_cons, List.intercalate_cons_cons]
        simp only [List.mem_append, not_or]
        exact ⟨⟨agent first.1 first.2, by decide⟩, ih⟩
  unfold agentsJson
  simp only [List.mem_cons, List.mem_append, List.not_mem_nil, or_false, Char.reduceEq, false_or]
  exact joined _

/-- The script fails on a message with U+0000, on too many agents, and on a time range that
overflows, and then nothing that the message says is used. -/
theorem failure_discards_message (valid : TaskReads.validMessage message)
    (text : message.toList.head? ≠ some '-') :
    (script optionLike now found message.toList = none ↔
      '\x00' ∈ message.toList ∨ 131072 ≤ String.utf8Len (agentsJson found) ∨
        extractTimeRange now message.toList = none) ∧
      (script optionLike now found message.toList = none →
        chat optionLike now found message title uid userName =
          .nlChat title 0 "127.0.0.1" 0 10 uid userName) := by
  have short := utf8Len_of_valid valid
  have refused : isArgument message.toList = false ↔ '\x00' ∈ message.toList := by
    simp only [isArgument, decide_eq_false_iff_not, not_and_or, not_not]
    exact or_iff_left (by omega)
  have crowded : isArgument (agentsJson found) = false ↔
      131072 ≤ String.utf8Len (agentsJson found) := by
    simp only [isArgument, decide_eq_false_iff_not, not_and_or, not_lt]
    exact or_iff_right (not_not.mpr (nul_not_mem_agentsJson found))
  have parsed : parseIntent now message.toList (getAvailableAgents found) = none ↔
      extractTimeRange now message.toList = none := by
    have pid := extractNumber_isSome countsDigits_pidPatterns (length_of_valid valid)
    have duration := extractNumber_isSome countsDigits_durationPatterns (length_of_valid valid)
    obtain ⟨pid, foundPid⟩ := Option.isSome_iff_exists.mp pid
    obtain ⟨duration, foundDuration⟩ := Option.isSome_iff_exists.mp duration
    simp only [parseIntent, extractPid, foundPid, extractDuration, foundDuration, Option.map_some,
      Option.bind_eq_bind, Option.bind_some]
    cases extractTimeRange now message.toList <;> simp
  constructor
  · have option : ¬ (message.toList.head? = some '-' ∧ optionLike message.toList) := fun option =>
      text option.1
    rw [script, ite_eq_left_iff, if_neg option, parsed, ← or_assoc, ← refused, ← crowded]
    exact or_iff_not_imp_left.symm
  · intro failed
    rw [chat, failed]
    rfl

theorem failure_discards_message_days :
    TaskReads.validMessage "PID 1234 java 30秒 最近999999天" ∧
      chat (fun _ => false) (739000 * day) [onlineAgent] "PID 1234 java 30秒 最近999999天" "t" "u" "n" =
        .nlChat "t" 0 "127.0.0.1" 0 10 "u" "n" := by
  have valid : TaskReads.validMessage "PID 1234 java 30秒 最近999999天" := by decide +kernel
  have overflow : extractTimeRange (739000 * day) "PID 1234 java 30秒 最近999999天".toList = none := by
    decide +kernel
  have discards := failure_discards_message (fun _ => false) (739000 * day) [onlineAgent] _ "t" "u" "n"
    valid (by decide)
  exact ⟨valid, discards.2 (discards.1.mpr (.inr (.inr overflow)))⟩

end requests

section advertised

def advertised (ip : Message) (pid : Nat) : Message :=
  '过' :: '去' :: '一' :: '小' :: '时' :: (ip ++ '上' :: 'P' :: 'I' :: 'D' :: '为' ::
    (Nat.toDigits 10 pid ++ ['的', 'C', 'P', 'U', '飙', '高']))

variable {ip : Message} {pid : Nat}

theorem takeWhile_run {α : Type*} {accepts : α → Bool} {run rest : List α} {stop : α}
    (all : ∀ a ∈ run, accepts a) (ends : accepts stop = false) :
    (run ++ stop :: rest).takeWhile accepts = run := by
  rw [List.takeWhile_append_of_pos all, List.takeWhile_cons_of_neg (by simp [ends]),
    List.append_nil]

theorem dropWhile_run {α : Type*} {accepts : α → Bool} {run rest : List α} {stop : α}
    (all : ∀ a ∈ run, accepts a) (ends : accepts stop = false) :
    (run ++ stop :: rest).dropWhile accepts = stop :: rest := by
  rw [List.dropWhile_append_of_pos all, List.dropWhile_cons_of_neg (by simp [ends])]

theorem isDecimal_of_isDigit {c : Char} (digit : c.isDigit) : isDecimal c := by
  simp [isDecimal, decimal_of_isDigit digit]

theorem isDecimal_of_mem_toDigits {c : Char} (member : c ∈ Nat.toDigits 10 pid) : isDecimal c :=
  isDecimal_of_isDigit (Nat.isDigit_of_mem_toDigits (by decide) (by decide) member)

theorem scan_skip {first : Char → Bool} {word : List (Char → Bool)} {separator : Char → Bool}
    {least : Nat} {before text : Message} (none : ∀ c ∈ before, first c = false) :
    scan (first :: word) separator least (before ++ text) =
      scan (first :: word) separator least text := by
  induction before with
  | nil => rfl
  | cons c before ih =>
    obtain ⟨here, later⟩ := List.forall_mem_cons.mp none
    rw [← ih later]
    simp [scan, List.tails, labelledAt, spells, here]

theorem scan_here {word : List (Char → Bool)} {separator : Char → Bool} {least : Nat}
    {text : Message} {groups : List Message}
    (found : labelledAt word separator least isDecimal text = some groups) :
    scan word separator least text = some groups := by
  cases text <;> simp [scan, List.tails, found]

theorem not_contains_of_address {c : Char} {others : List Char}
    (plain : others.all fun d => !isDecimal d && d ≠ '.') (shape : isDecimal c ∨ c = '.') :
    others.contains c = false := by
  by_contra found
  have listed := List.contains_iff_mem.mp (Bool.eq_true_of_not_eq_false found)
  have both := List.all_eq_true.mp plain c listed
  simp only [Bool.and_eq_true, Bool.not_eq_true', decide_eq_true_eq] at both
  rcases shape with digit | point
  · exact Bool.false_ne_true (both.1.symm.trans digit)
  · exact both.2 point

theorem IsAddress.chars (shape : IsAddress ip) : ∀ c ∈ ip, isDecimal c ∨ c = '.' := by
  obtain ⟨a, b, c, d, first, second, third, fourth, rfl⟩ := shape
  intro x member
  simp only [List.mem_append, List.mem_cons] at member
  rcases member with here | rfl | here | rfl | here | rfl | here
  · exact .inl (first.1 x here)
  · exact .inr rfl
  · exact .inl (second.1 x here)
  · exact .inr rfl
  · exact .inl (third.1 x here)
  · exact .inr rfl
  · exact .inl (fourth.1 x here)

theorem intGroup_toDigits (short : (Nat.toDigits 10 pid).length ≤ intMaxStrDigits) :
    intGroup [Nat.toDigits 10 pid] = some pid := by
  have digits : ∀ c ∈ Nat.toDigits 10 pid, c.isDigit := fun c =>
    Nat.isDigit_of_mem_toDigits (by decide) (by decide)
  rw [intGroup, List.headD_cons, int_of_isDigit digits Nat.toDigits_ne_nil short,
    Nat.ofDigitChars_ten_toDigits]
  rfl

theorem extractPid_advertised (shape : IsAddress ip)
    (short : (Nat.toDigits 10 pid).length ≤ intMaxStrDigits) :
    extractPid (advertised ip pid) = some (some pid) := by
  have split : advertised ip pid = (['过', '去', '一', '小', '时'] ++ ip ++ ['上']) ++
      'P' :: 'I' :: 'D' :: '为' :: (Nat.toDigits 10 pid ++ ['的', 'C', 'P', 'U', '飙', '高']) := by
    simp [advertised]
  have skipped : ∀ c ∈ ['过', '去', '一', '小', '时'] ++ ip ++ ['上'],
      ['P', 'p'].contains c = false := by
    intro c member
    simp only [List.mem_append] at member
    rcases member with (front | inside) | last
    · have words : (['过', '去', '一', '小', '时'].all fun c => ! (['P', 'p'].contains c)) = true := rfl
      simpa using List.all_eq_true.mp words c front
    · exact not_contains_of_address (by decide) (IsAddress.chars shape c inside)
    · rw [List.mem_singleton.mp last]
      rfl
  have digits : ∀ c ∈ Nat.toDigits 10 pid, isDecimal c := fun c => isDecimal_of_mem_toDigits
  obtain ⟨first, more, cons⟩ := List.exists_cons_of_ne_nil (Nat.toDigits_ne_nil (b := 10) (n := pid))
  have apart : spaceOr ['是', '为', '：', ':'] first = false := by
    by_contra separates
    have other := isDecimal_of_spaceOr (by decide) (Bool.eq_true_of_not_eq_false separates)
    exact Bool.false_ne_true (other.symm.trans (digits first (cons ▸ List.mem_cons_self)))
  have found : scan pidLetters (spaceOr ['是', '为', '：', ':']) 1 (advertised ip pid) =
      some [Nat.toDigits 10 pid] := by
    rw [split, pidLetters, scan_skip skipped]
    refine scan_here ?_
    have run : (Nat.toDigits 10 pid ++ ['的', 'C', 'P', 'U', '飙', '高']).takeWhile isDecimal =
        Nat.toDigits 10 pid := takeWhile_run digits (by decide)
    have kept : (Nat.toDigits 10 pid ++ ['的', 'C', 'P', 'U', '飙', '高']).dropWhile
        (spaceOr ['是', '为', '：', ':']) = Nat.toDigits 10 pid ++ ['的', 'C', 'P', 'U', '飙', '高'] := by
      rw [cons, List.cons_append, List.dropWhile_cons_of_neg (by simp [apart])]
    have word : spaceOr ['是', '为', '：', ':'] '为' = true := rfl
    rw [labelledAt]
    simp [spells, word, run, kept]
  rw [extractPid, extractNumber, findSome_pidPatterns, scanPid, found, Option.some_or,
    Option.some_or]
  simp only [intGroup_toDigits short, Option.map_some]

theorem attempts_octet_point {digits rest : Message} {p : Pattern Char} (shape : IsOctet digits) :
    (Pattern.seq octet (.seq (literal ['.']) p)).attempts (digits ++ '.' :: rest) =
      p.attempts rest := by
  have point : isDecimal '.' = false := by decide
  have refuses : (Pattern.seq (literal ['.']) p).Refuses isDecimal := by
    intro c tail digit
    have other : '.' ≠ c := by
      rintro rfl
      exact Bool.false_ne_true (point.symm.trans digit)
    rw [literal, attempts_seq_word]
    simp [spells, other]
  rw [octet, attempts_seq_many refuses, takeWhile_run shape.1 point, dropWhile_run shape.1 point,
    if_pos ⟨shape.2.1, by simpa using shape.2.2⟩, literal, attempts_seq_word]
  rfl

theorem head_attempts_address {rest : Message} (shape : IsAddress ip) :
    ((Pattern.group address).attempts (ip ++ '上' :: rest)).head? = some ([ip], '上' :: rest) := by
  have body : (address.attempts (ip ++ '上' :: rest)).head? = some ([], '上' :: rest) := by
    obtain ⟨a, b, c, d, first, second, third, fourth, rfl⟩ := shape
    have run : (d ++ '上' :: rest).takeWhile isDecimal = d :=
      takeWhile_run fourth.1 (by decide)
    simp only [address, List.append_assoc, List.cons_append, attempts_octet_point first,
      attempts_octet_point second, attempts_octet_point third]
    rw [octet, head_attempts_many]
    simp [run, fourth.2.1, fourth.2.2]
  rw [attempts, List.head?_map, body]
  simp

theorem extractTargetIp_advertised (shape : IsAddress ip) :
    extractTargetIp (advertised ip pid) = some ip := by
  have skip : ∀ c text, isDecimal c = false →
      (Pattern.group address).search (c :: text) = (Pattern.group address).search text := by
    intro c text other
    refine search_cons ((attempts_eq_nil_iff _).mpr ?_)
    rintro w matched ⟨rest, split⟩
    obtain ⟨x, more, rfl, digit⟩ := IsAddress.head (mem_language_address.mp matched)
    obtain ⟨rfl, _⟩ := List.cons.inj split
    exact Bool.false_ne_true (other.symm.trans digit)
  rw [extractTargetIp, advertised]
  simp only [skip '过' _ (by decide), skip '去' _ (by decide),
    skip '一' _ (by decide), skip '小' _ (by decide), skip '时' _ (by decide),
    search_of_attempt (head_attempts_address shape)]
  rfl

theorem mem_of_language_seconds {w : Message} (matched : w ∈ seconds.language) : '秒' ∈ w := by
  simp only [seconds, mem_language_seq, mem_language_literal] at matched
  obtain ⟨u, _, _, ⟨v, _, _, rfl, rfl⟩, rfl⟩ := matched
  simp

theorem extractDuration_of_not_mem {text : Message} (absent : '秒' ∉ text) :
    extractDuration text = some 10 := by
  have none {p : Pattern Char} (needs : ∀ w ∈ p.language, '秒' ∈ w) : p.search text = none := by
    rw [← Option.not_isSome_iff_eq_none, search_isSome_iff]
    rintro ⟨w, matched, within⟩
    exact absent (within.subset (needs w matched))
  have nothing : durationPatterns.findSome? (·.search text) = Option.none := by
    simp only [durationPatterns, List.findSome?_cons, List.findSome?_nil]
    rw [none, none fun w => mem_of_language_seconds]
    intro w matched
    simp only [mem_language_seq] at matched
    obtain ⟨_, _, _, ⟨_, _, z, last, rfl⟩, rfl⟩ := matched
    simp [mem_of_language_seconds last]
  rw [extractDuration, extractNumber, nothing]
  rfl

theorem extractDuration_advertised (shape : IsAddress ip) :
    extractDuration (advertised ip pid) = some 10 := by
  have other : isDecimal '秒' = false := by decide
  refine extractDuration_of_not_mem fun member => ?_
  simp only [advertised, List.mem_cons, List.mem_append, List.not_mem_nil, or_false, Char.reduceEq,
    false_or] at member
  rcases member with inside | digit
  · rcases IsAddress.chars shape _ inside with digit | point
    · exact Bool.false_ne_true (other.symm.trans digit)
    · exact absurd point (by decide)
  · exact Bool.false_ne_true (other.symm.trans (isDecimal_of_mem_toDigits digit))

theorem extractProfilerType_advertised : extractProfilerType (advertised ip pid) = some 0 := by
  have split : advertised ip pid = ('过' :: '去' :: '一' :: '小' :: '时' :: (ip ++ '上' :: 'P' :: 'I' ::
      'D' :: '为' :: (Nat.toDigits 10 pid ++ ['的']))) ++ ['C', 'P', 'U', '飙', '高'] := by
    simp [advertised]
  refine extractProfilerType_of_cpu ?_
  rw [split, lower_append]
  exact ⟨_, ['飙', '高'], by rw [List.append_assoc]; rfl⟩

theorem search_relativeTime (rest : Message) :
    relativeTime.search ('过' :: '去' :: '一' :: '小' :: '时' :: rest) = some [[], ['小', '时']] := by
  obtain ⟨notSpace, notSpace', notDecimal, notDecimal'⟩ : isSpace '一' = false ∧
      isSpace '小' = false ∧ isDecimal '一' = false ∧ isDecimal '小' = false := by decide
  set behind : Pattern Char := .seq (.group (.many isDecimal 0 none)) (.seq (.many isSpace 0 none)
    (.group (oneOf ['分', '钟'] [['小', '时'], ['天']]))) with behind_eq
  -- The optional character cannot be left to what follows it.
  have refuses : behind.Refuses (· = '一') := by
    intro c tail same
    rw [of_decide_eq_true same]
    simp [behind_eq, attempts, lengths, oneOf, literal, attempts_word, spells, notDecimal, notSpace]
  have unit : behind.attempts ('小' :: '时' :: rest) = [([[], ['小', '时']], rest)] := by
    have two : rest.length + 1 + 1 - rest.length = 2 := by omega
    simp [behind_eq, attempts, lengths, oneOf, literal, attempts_word, spells, notDecimal', notSpace',
      two]
  have found : (relativeTime.attempts ('过' :: '去' :: '一' :: '小' :: '时' :: rest)).head? =
      some ([[], ['小', '时']], rest) := by
    rw [relativeTime, ← behind_eq, oneOf, List.foldl_cons, List.foldl_nil, attempts_seq_alt, literal,
      literal, attempts_seq_word, attempts_seq_word]
    simp [spells, attempts_seq_many_zero, notSpace, attempts_seq_many refuses, unit]
  exact search_of_attempt found

theorem extractTimeRange_advertised {now : Nat} (late : hour ≤ now) :
    extractTimeRange now (advertised ip pid) = some (some ⟨now - hour, now⟩) := by
  have possible : before now hour = some (now - hour) := if_pos ⟨by decide, late⟩
  have length : unitLength ['小', '时'] = hour := rfl
  simp only [extractTimeRange, advertised, search_relativeTime, if_true, length, possible,
    Option.map_some]

theorem length_toDigits_le (small : pid < 2 ^ 31) :
    (Nat.toDigits 10 pid).length ≤ intMaxStrDigits :=
  (Nat.length_toDigits_le_iff (b := 10) (n := pid) (k := 10) (by decide) (by decide)).mpr
    (small.trans (by decide)) |>.trans (by decide)

theorem utf8Len_le (text : Message) : String.utf8Len text ≤ 4 * text.length := by
  induction text with
  | nil => exact Nat.le_refl 0
  | cons c text ih =>
    have size := c.utf8Size_le_four
    simp only [List.length_cons, String.utf8Len_cons]
    omega

theorem isArgument_advertised (shape : IsAddress ip) (small : pid < 2 ^ 31) :
    isArgument (advertised ip pid) = true := by
  have other : isDecimal '\x00' = false := by decide
  refine decide_eq_true ⟨fun member => ?_, (utf8Len_le _).trans_lt ?_⟩
  · simp only [advertised, List.mem_cons, List.mem_append, List.not_mem_nil, or_false, Char.reduceEq,
      false_or] at member
    rcases member with inside | digit
    · rcases IsAddress.chars shape _ inside with digit | point
      · exact Bool.false_ne_true (other.symm.trans digit)
      · exact absurd point (by decide)
    · exact Bool.false_ne_true (other.symm.trans (isDecimal_of_mem_toDigits digit))
  · have digits := length_toDigits_le small
    have limit : intMaxStrDigits = 4300 := rfl
    have address : ip.length ≤ 15 := by
      obtain ⟨a, b, c, d, first, second, third, fourth, rfl⟩ := shape
      have lengths := And.intro first.2.2 (And.intro second.2.2 (And.intro third.2.2 fourth.2.2))
      simp only [List.length_append, List.length_cons]
      omega
    simp only [advertised, List.length_cons, List.length_append, List.length_nil]
    omega

/-- The example works for every address and every process: the task is the one described. -/
theorem advertised_request {optionLike : Message → Bool} {now : Nat}
    {found : List AgentAudit.AgentInfo} {title uid userName : String} (shape : IsAddress ip)
    (small : pid < 2 ^ 31) (late : hour ≤ now)
    (fits : String.utf8Len (agentsJson found) < 131072) :
    chat optionLike now found (String.ofList (advertised ip pid)) title uid userName =
      .nlChat title 0 (String.ofList ip) pid 10 uid userName := by
  obtain ⟨c, more, filled, _⟩ := IsAddress.head shape
  have answered : script optionLike now found (advertised ip pid) =
      some ⟨pid, 0, 10, some ip, advertised ip pid⟩ := by
    have started : ¬ (isArgument (advertised ip pid) = false ∨
        isArgument (agentsJson found) = false) := by
      have agents : isArgument (agentsJson found) = true :=
        decide_eq_true ⟨nul_not_mem_agentsJson found, fits⟩
      simp [isArgument_advertised shape small, agents]
    rw [script, if_neg started, if_neg fun option => absurd option.1 (by simp [advertised])]
    simp only [parseIntent, extractPid_advertised shape (length_toDigits_le small),
      extractDuration_advertised shape, extractTimeRange_advertised late,
      extractTargetIp_advertised shape, extractProfilerType_advertised, Option.bind_eq_bind,
      Option.bind_some, Option.getD_some]
  have rounded : unmarshalAnswer ⟨pid, 0, 10, some ip, advertised ip pid⟩ =
      some [("pid", .float64 pid), ("profiler_type", .float64 0), ("duration", .float64 10),
        ("target_ip", .string ip), ("raw_text", .string (advertised ip pid))] := by
    have exact : ∀ n < 2 ^ 31, WholeFloats.roundToFloat64 n = some n := fun n bound =>
      WholeFloats.roundToFloat64_of_lt (bound.trans (by decide))
    simp only [unmarshalAnswer, exact pid small, Fin.val_zero, exact 0 (by decide),
      exact 10 (by decide), Option.bind_eq_bind, Option.bind_some, Option.elim]
  have nonempty : ip ≠ [] := filled ▸ List.cons_ne_nil c more
  rw [chat, String.toList_ofList, answered, nlChat, parseNLIntent, Option.bind_some, rounded]
  have whole : intOfFloat64 pid = pid := intOfFloat64_of_lt (small.trans (by decide))
  calc Creation.nlChat title (intOfFloat64 0) (if ip = [] then "127.0.0.1" else String.ofList ip)
        (intOfFloat64 pid) (intOfFloat64 10) uid userName
    _ = .nlChat title 0 (String.ofList ip) pid 10 uid userName := by
      rw [if_neg nonempty, whole]
      rfl

theorem advertised_request_localhost :
    IsAddress localhost ∧ 1234 < 2 ^ 31 ∧
      chat (fun _ => true) hour [onlineAgent] (String.ofList (advertised localhost 1234)) "t" "u" "n" =
        .nlChat "t" 0 (String.ofList localhost) 1234 10 "u" "n" := by
  have shape : IsAddress localhost := by
    have octets : ∀ digits : Message, digits.all isDecimal = true →
        1 ≤ digits.length ∧ digits.length ≤ 3 → IsOctet digits :=
      fun digits all lengths => ⟨List.all_eq_true.mp all, lengths⟩
    exact ⟨['1', '2', '7'], ['0'], ['0'], ['1'], octets _ (by decide) (by decide),
      octets _ (by decide) (by decide), octets _ (by decide) (by decide),
      octets _ (by decide) (by decide), rfl⟩
  exact ⟨shape, by decide, advertised_request shape (by decide) le_rfl (by decide +kernel)⟩

end advertised

end DropPlatform.NlRequests
