import DropPlatform.KeywordTables
import DropPlatform.Patterns
import DropPlatform.TopFunctions

/-! The rules of `analysis_advisor.py`: for each function of the top list the first rule of
`rules.yaml` whose expression is found in its name. The expressions ignore case, and all of them
look for words, so that the rules are a table of keywords, of which some never decide. -/

namespace DropPlatform.AdviceRules
open Patterns Patterns.Pattern KeywordTables PythonText TopFunctions

section engine

/-- The lower case of a character, as far as it can be a letter of the rules. -/
def lower (c : Char) : Char := if c = 'İ' then 'i' else if c = '\u212A' then 'k' else c.toLower

/-- What a letter in lower case stands for if the case is ignored. -/
def fixes (c : Char) : List Char :=
  if c = 'i' ∨ c = 'ı' then ['i', 'ı'] else if c = 's' ∨ c = 'ſ' then ['s', 'ſ'] else [c]

/-- A letter of an expression that is compiled with `re.IGNORECASE`. -/
def ignoreCase (letter c : Char) : Bool := (fixes (lower letter)).contains (lower c)

def anything : Pattern Char := .many (· ≠ '\n') 0 none

def around (p : Pattern Char) : Pattern Char := .seq anything (.seq p anything)

def wordIgnoringCase (text : String) : Pattern Char := word (text.toList.map ignoreCase)

inductive Regex
  | empty
  /-- Compiling it raises `re.error`. -/
  | invalid
  | compiled (p : Pattern Char)

structure Rule where
  regex : Regex
  advice : String
  severity : String

structure RuleMatch where
  func : Text
  percentage : Float
  advice : String
  severity : String

/-- A rule without an expression or an advice is passed over, as is one that does not compile. -/
def Rule.applies (rule : Rule) (func : Text) : Bool :=
  match rule.regex with
  | .compiled p => rule.advice ≠ "" && (p.search func).isSome
  | _ => false

def matchRules (topn : List TopEntry) (rules : List Rule) : List RuleMatch :=
  topn.filterMap fun item => (rules.find? (·.applies item.func)).map fun rule =>
    ⟨item.func, item.percentage, rule.advice, rule.severity⟩

def severityEmoji (severity : String) : String :=
  if severity = "critical" then "🔴" else if severity = "warn" then "🟡" else "🔵"

/-- How a percentage is printed is a parameter. -/
def generateSuggestionsMd (format : Float → String) (found : List RuleMatch) : String :=
  if found.isEmpty then "No rule-based suggestions for the top hot functions.\n"
  else "\n".intercalate ("# Rule-Based Analysis Suggestions\n" :: found.flatMap fun m =>
    ["## " ++ severityEmoji m.severity ++ " `" ++ String.ofList m.func ++ "` (" ++
        format m.percentage ++ "%)\n",
      "**Severity:** " ++ m.severity ++ "\n", m.advice ++ "\n"])

end engine

section rules

/-- A rule that looks for one of some words: `.*first.*|.*second.*|…`. -/
def wordsRule (first : String) (others : List String) (advice severity : String) : Rule :=
  ⟨.compiled (others.foldl (fun p text => .alt p (around (wordIgnoringCase text)))
    (around (wordIgnoringCase first))), advice, severity⟩

def mallocRule : Rule := wordsRule "malloc" []
  "频繁的malloc调用可能导致内存碎片和性能下降。考虑使用jemalloc/tcmalloc替代glibc malloc，或使用对象池减少分配次数。" "warn"

def freeRule : Rule := wordsRule "free" []
  "大量free调用通常与malloc配对出现。检查是否存在频繁的内存分配/释放，考虑内存池或复用策略。" "info"

def lockRule : Rule := wordsRule "lock" ["mutex", "pthread_mutex"]
  "锁竞争是常见的性能瓶颈。考虑使用读写锁、无锁数据结构、或RCU机制减少临界区持有时间。" "warn"

/-- `.*spin[_]?lock.*`. -/
def spinRule : Rule :=
  ⟨.compiled (around (.seq (wordIgnoringCase "spin")
    (.seq (.many (ignoreCase '_') 0 (some 1)) (wordIgnoringCase "lock")))),
    "自旋锁在竞争激烈时会浪费CPU周期。建议评估是否可用互斥锁替代，或减少临界区大小。", "warn"⟩

def scheduleRule : Rule := wordsRule "schedule" ["cond_wait", "futex"]
  "大量调度/等待调用表明线程可能存在阻塞。检查I/O操作、锁竞争或不必要的同步点。" "info"

def copyRule : Rule := wordsRule "memcpy" ["memmove"]
  "大量内存拷贝可能是数据结构设计问题。考虑零拷贝技术、引用传递、或优化数据局部性。" "info"

def ioRule : Rule := wordsRule "read" ["write", "recv", "send"]
  "高频I/O操作可能是瓶颈。考虑批量读写、使用io_uring、或减少系统调用次数。" "warn"

def pollRule : Rule := wordsRule "epoll_wait" ["select", "poll"]
  "频繁的I/O多路复用调用本身开销不大，但关注其返回的就绪事件数量，判断是否有I/O风暴。" "info"

def forkRule : Rule := wordsRule "fork" ["clone"]
  "进程创建开销较大且可能导致COW问题。考虑使用线程池或协程替代频繁创建进程。" "warn"

def gcRule : Rule := wordsRule "GC" ["gc_"]
  "GC暂停可能影响延迟敏感型应用。考虑减少对象分配、调整GC参数、或使用无GC的语言层方案。" "warn"

def hashRule : Rule := wordsRule "HashMap" ["hash_map", "unordered_map"]
  "哈希表操作热点可能源于哈希冲突或rehash。评估装载因子、选择更好的哈希函数、或使用开放寻址实现。" "info"

def regexRule : Rule := wordsRule "regex" ["RegExp"]
  "正则表达式可能是性能陷阱。考虑使用编译后的正则、或改用字符串匹配/状态机方案。" "info"

def stringRule : Rule := wordsRule "strlen" ["strcmp", "strcpy"]
  "频繁的字符串操作可能是瓶颈。考虑缓存字符串长度、使用更高效的字符串库、或减少不必要的拷贝。" "info"

def serializeRule : Rule := wordsRule "serialize" ["deserialize", "json_", "protobuf"]
  "序列化/反序列化热点。考虑使用更紧凑的二进制格式、零拷贝反序列化、或缓存序列化结果。" "info"

def objectRule : Rule := wordsRule "Object." ["ClassLoader"]
  "Java对象分配或类加载热点。检查是否创建了过多临时对象，考虑对象复用或使用原始类型。" "info"

def databaseRule : Rule := wordsRule "Connection" ["PreparedStatement", "executeQuery"]
  "数据库操作热点。考虑使用连接池、批量操作、预编译缓存、或减少N+1查询。" "warn"

def rules : List Rule :=
  [mallocRule, freeRule, lockRule, spinRule, scheduleRule, copyRule, ioRule, pollRule, forkRule,
    gcRule, hashRule, regexRule, stringRule, serializeRule, objectRule, databaseRule]

end rules

section keywords

/-- One character for all that are the same if the case is ignored. -/
def fold (c : Char) : Char :=
  if lower c = 'ı' then 'i' else if lower c = 'ſ' then 's' else lower c

def folded (text : Text) : Text := text.map fold

theorem ignoreCase_eq (letter c : Char) : ignoreCase letter c = decide (fold letter = fold c) := by
  rw [ignoreCase, fixes, fold, fold]
  generalize lower letter = a
  generalize lower c = b
  rw [Bool.eq_iff_iff, List.contains_iff_mem, decide_eq_true_iff]
  split_ifs <;> simp_all [eq_comm]

theorem mem_language_wordIgnoringCase {text : String} {w : Text} :
    w ∈ (wordIgnoringCase text).language ↔ folded text.toList = folded w := by
  rw [wordIgnoringCase, mem_language_word, List.forall₂_map_left_iff, folded, folded,
    ← List.forall₂_eq_eq_eq, List.forall₂_map_left_iff, List.forall₂_map_right_iff]
  simp only [ignoreCase_eq, decide_eq_true_eq]

theorem isSome_search_word (text : String) (func : Text) :
    ((wordIgnoringCase text).search func).isSome = occurs (folded func) (folded text.toList) := by
  rw [Bool.eq_iff_iff, search_isSome_iff, occurs, decide_eq_true_iff]
  simp only [mem_language_wordIgnoringCase, folded, List.infix_map_iff, and_comm]

def Rule.LooksFor (rule : Rule) (words : List Text) : Prop :=
  ∀ func, rule.applies func = hit words (folded func)

theorem Rule.applies_eq {rule : Rule} {p : Pattern Char} (regex : rule.regex = .compiled p)
    (filled : rule.advice ≠ "") (func : Text) : rule.applies func = (p.search func).isSome := by
  simp [applies, regex, filled]

theorem looksFor_wordsRule {first : String} {others : List String} {advice severity : String}
    (filled : advice ≠ "") : (wordsRule first others advice severity).LooksFor
      ((first :: others).map fun text => folded text.toList) := by
  intro func
  have alternatives (p : Pattern Char) : ((others.foldl (fun p text =>
      .alt p (around (wordIgnoringCase text))) p).search func).isSome =
        ((p.search func).isSome || hit (others.map fun text => folded text.toList) (folded func)) := by
    induction others generalizing p with
    | nil => exact (Bool.or_false _).symm
    | cons text others ih =>
      rw [List.foldl_cons, ih, isSome_search_alt, around, anything, isSome_search_surrounded,
        isSome_search_word, List.map_cons, hit_cons, Bool.or_assoc]
  rw [Rule.applies_eq rfl filled, alternatives, around, anything, isSome_search_surrounded,
    isSome_search_word, List.map_cons, hit_cons]

theorem looksFor_spinRule : spinRule.LooksFor
    [folded "spinlock".toList, folded "spin_lock".toList] := by
  intro func
  have filled : spinRule.advice ≠ "" := by decide
  rw [Rule.applies_eq rfl filled, around, anything, isSome_search_surrounded, Bool.eq_iff_iff,
    search_isSome_iff, hit_iff]
  simp only [mem_language_seq, mem_language_wordIgnoringCase, mem_language_many, ignoreCase_eq]
  constructor
  · rintro ⟨_, ⟨u, spin, _, ⟨v, ⟨bar, _, short⟩, z, lock, rfl⟩, rfl⟩, within⟩
    have inside : folded u ++ (folded v ++ folded z) <:+: folded func := by
      simpa [folded] using within.map fold
    rw [← spin, ← lock] at inside
    rcases v with _ | ⟨a, _ | ⟨b, v⟩⟩
    · exact ⟨folded "spinlock".toList, List.mem_cons_self, inside⟩
    · have same : folded [a] = ['_'] := by
        have underscore := of_decide_eq_true (bar a List.mem_cons_self)
        rw [folded, List.map_singleton, ← underscore]
        rfl
      rw [same] at inside
      exact ⟨folded "spin_lock".toList, List.mem_cons_of_mem _ List.mem_cons_self, inside⟩
    · have long := short 1 rfl
      simp at long
  · rintro ⟨word, member, within⟩
    obtain ⟨w, inside, rfl⟩ := List.infix_map_iff.mp within
    rcases List.mem_cons.mp member with same | last
    · obtain ⟨u, z, rfl, spin, lock⟩ := List.map_eq_append_iff.mp
        (same.trans (by rfl : _ = folded "spin".toList ++ folded "lock".toList))
      exact ⟨u ++ z, ⟨u, spin.symm, z, ⟨[], by simp, z, lock.symm, rfl⟩, rfl⟩, inside⟩
    · obtain ⟨u, rest, rfl, spin, behind⟩ := List.map_eq_append_iff.mp
        ((List.mem_singleton.mp last).trans (by rfl : _ = folded "spin".toList ++ folded "_lock".toList))
      obtain ⟨a, z, rfl, bar, lock⟩ := List.map_eq_cons_iff.mp
        (behind.trans (by rfl : _ = '_' :: folded "lock".toList))
      refine ⟨_, ⟨u, spin.symm, _, ⟨[a], ?_, z, lock.symm, rfl⟩, rfl⟩, inside⟩
      have underscore : fold '_' = '_' := by decide
      simp [underscore, bar]

def ruleWords : List (List Text) :=
  [["malloc"], ["free"], ["lock", "mutex", "pthread_mutex"], ["spinlock", "spin_lock"],
    ["schedule", "cond_wait", "futex"], ["memcpy", "memmove"], ["read", "write", "recv", "send"],
    ["epoll_wait", "select", "poll"], ["fork", "clone"], ["GC", "gc_"],
    ["HashMap", "hash_map", "unordered_map"], ["regex", "RegExp"], ["strlen", "strcmp", "strcpy"],
    ["serialize", "deserialize", "json_", "protobuf"], ["Object.", "ClassLoader"],
    ["Connection", "PreparedStatement", "executeQuery"]].map (·.map fun text => folded text.toList)

/-- The words that can decide, in lower case. -/
def effectiveWords : List (List Text) :=
  [["malloc"], ["free"], ["lock", "mutex"], [], ["schedule", "cond_wait", "futex"],
    ["memcpy", "memmove"], ["read", "write", "recv", "send"], ["select", "poll"], ["fork", "clone"],
    ["gc"], ["hashmap", "hash_map", "unordered_map"], ["regex"], ["strlen", "strcmp", "strcpy"],
    ["serialize", "json_", "protobuf"], ["object.", "classloader"],
    ["connection", "preparedstatement", "executequery"]].map (·.map String.toList)

theorem looksFor_rules : List.Forall₂ Rule.LooksFor rules ruleWords := by
  refine .cons ?_ (.cons ?_ (.cons ?_ (.cons looksFor_spinRule ?_)))
  repeat' apply List.Forall₂.cons
  all_goals first
    | exact .nil
    | exact looksFor_wordsRule (by simp)

theorem find_applies {rules : List Rule} {words : List (List Text)}
    (look : List.Forall₂ Rule.LooksFor rules words) (func : Text) :
    rules.find? (·.applies func) = classify (words.zip rules) (folded func) := by
  induction look with
  | nil => rfl
  | @cons rule word rules words looks _ ih =>
    cases decided : rule.applies func with
    | true =>
      rw [List.find?_cons, decided, List.zip_cons_cons,
        classify_of_hit ((looks func).symm.trans decided)]
    | false =>
      rw [List.find?_cons, decided, ih, List.zip_cons_cons,
        classify_of_not_hit ((looks func).symm.trans decided)]

theorem prune_ruleWords : prune [] (ruleWords.zip rules) = effectiveWords.zip rules := by
  have words : (prune [] (ruleWords.zip rules)).map Prod.fst = effectiveWords := by
    simp only [ruleWords, effectiveWords, List.map_cons, List.map_nil, String.reduceToList]
    decide +kernel
  rw [prune_eq_zip, words]
  rfl

theorem find_rules (func : Text) :
    rules.find? (·.applies func) = classify (effectiveWords.zip rules) (folded func) := by
  rw [find_applies looksFor_rules, ← prune_ruleWords, classify_prune]

/-- Whatever the functions are: the expressions of the sixteen rules decide like a table of
keywords in lower case, in which one rule has no keyword left. -/
theorem matchRules_eq_effective (topn : List TopEntry) : matchRules topn rules =
    topn.filterMap fun item => (classify (effectiveWords.zip rules) (folded item.func)).map fun rule =>
      ⟨item.func, item.percentage, rule.advice, rule.severity⟩ := by
  simp only [matchRules, find_rules]

theorem advice_ne_spin {topn : List TopEntry} {m : RuleMatch}
    (member : m ∈ matchRules topn rules) : m.advice ≠ spinRule.advice := by
  have others : ((effectiveWords.zip rules).all fun entry =>
      entry.1.isEmpty || entry.2.advice ≠ spinRule.advice) = true := by decide +kernel
  simp only [matchRules, find_rules, List.mem_filterMap, Option.map_eq_some_iff] at member
  obtain ⟨item, _, rule, decided, rfl⟩ := member
  obtain ⟨words, entry, hits⟩ := exists_entry_of_classify decided
  obtain ⟨word, listed, _⟩ := hit_iff.mp hits
  have other := List.all_eq_true.mp others _ entry
  simpa [List.ne_nil_of_mem listed] using other

/-- Two families of functions with an advice about something else: `clock` contains `lock`, and
`thread` contains `read`. -/
theorem advised_by_part {topn : List TopEntry} {item : TopEntry} (listed : item ∈ topn) :
    ("clock".toList <:+: folded item.func →
      hit (effectiveWords.take 2).flatten (folded item.func) = false →
        ⟨item.func, item.percentage, lockRule.advice, lockRule.severity⟩ ∈ matchRules topn rules) ∧
    ("thread".toList <:+: folded item.func →
      hit (effectiveWords.take 6).flatten (folded item.func) = false →
        ⟨item.func, item.percentage, ioRule.advice, ioRule.severity⟩ ∈ matchRules topn rules) := by
  have advised {rule : Rule} (decided : classify (effectiveWords.zip rules) (folded item.func) =
      some rule) :
      ⟨item.func, item.percentage, rule.advice, rule.severity⟩ ∈ matchRules topn rules := by
    simp only [matchRules, find_rules, List.mem_filterMap]
    exact ⟨item, listed, by rw [decided]; rfl⟩
  have decided (before : Table Char Rule) {after : Table Char Rule} {words : List Text} {rule : Rule} {word long : Text}
      (table : effectiveWords.zip rules = before ++ (words, rule) :: after) (member : word ∈ words)
      (part : word <:+: long) (within : long <:+: folded item.func)
      (misses : hit (before.flatMap Prod.fst) (folded item.func) = false) :
      classify (effectiveWords.zip rules) (folded item.func) = some rule := by
    rw [table, classify_append misses, classify_of_hit]
    exact hit_iff.mpr ⟨word, member, part.trans within⟩
  constructor
  · intro clock misses
    exact advised (decided ((effectiveWords.zip rules).take 2) rfl List.mem_cons_self
      ⟨['c'], [], rfl⟩ clock misses)
  · intro thread misses
    exact advised (decided ((effectiveWords.zip rules).take 6) rfl List.mem_cons_self
      ⟨['t', 'h'], [], rfl⟩ thread misses)

def clockGettime : TopEntry := ⟨"clock_gettime".toList, 7, 7, 70⟩

theorem advised_by_part_clockGettime : clockGettime ∈ [clockGettime] ∧
    ⟨clockGettime.func, clockGettime.percentage, lockRule.advice, lockRule.severity⟩ ∈
      matchRules [clockGettime] rules := by
  have name : folded clockGettime.func =
      ['c', 'l', 'o', 'c', 'k', '_', 'g', 'e', 't', 't', 'i', 'm', 'e'] := by decide
  refine ⟨List.mem_cons_self, (advised_by_part List.mem_cons_self).1 ?_ ?_⟩
  · rw [name]
    exact ⟨[], ['_', 'g', 'e', 't', 't', 'i', 'm', 'e'], by simp⟩
  · rw [name]
    decide

/-- The message that there are no suggestions is written exactly if no keyword occurs in any of
the functions. -/
theorem noSuggestions_iff (format : Float → String) (topn : List TopEntry) :
    generateSuggestionsMd format (matchRules topn rules) =
        "No rule-based suggestions for the top hot functions.\n" ↔
      ∀ item ∈ topn, ∀ words ∈ effectiveWords, hit words (folded item.func) = false := by
  have heading {found : List RuleMatch} (some : found ≠ []) :
      (generateSuggestionsMd format found).toList.head? = Option.some '#' := by
    obtain ⟨m, found, rfl⟩ := List.exists_cons_of_ne_nil some
    rw [generateSuggestionsMd, if_neg (by simp), String.toList_intercalate, List.flatMap_cons]
    simp only [List.cons_append, List.map_cons, List.intercalate_cons_cons]
    rfl
  have empty : generateSuggestionsMd format (matchRules topn rules) =
      "No rule-based suggestions for the top hot functions.\n" ↔ matchRules topn rules = [] := by
    constructor
    · intro same
      by_contra some
      have starts := heading some
      rw [same] at starts
      simp at starts
    · intro none
      rw [none]
      rfl
  have words : (effectiveWords.zip rules).map Prod.fst = effectiveWords := rfl
  rw [empty, matchRules, List.filterMap_eq_nil_iff]
  simp only [find_rules, Option.map_eq_none_iff, classify_eq_none_iff, words]

end keywords

end DropPlatform.AdviceRules
