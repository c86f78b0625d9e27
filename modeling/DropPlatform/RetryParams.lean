import Mathlib.Data.List.Sort
import DropPlatform.JsonObjects
import DropPlatform.TaskDispatch

/-! What a retry sends: the request parameters that the three creation paths store in the
`request_params` column, what the column makes of them, and the request `RetryTask` decodes
from it. Two of the paths store what `json.Marshal` writes, and a retry of their tasks sends
the request again. `NLChat` stores a text of its own that lacks fields of the request it
dispatches, and names an event that the request leaves empty. -/

namespace DropPlatform.RetryParams
open JsonObjects TaskStore TaskDispatch
open TaskLifecycle (CreateTaskReq Creation goStyle marshal numberField stringField)

section texts

/-- Values as a `jsonb` column is printed. -/
def jsonbStyle : Style where
  gap := [' ']
  escape := escape []
  blank := by simp [isWs]
  reads := readString_escape (by simp)

def IsInt (n : Int) : Prop := -2 ^ 63 ≤ n ∧ n < 2 ^ 63

instance isIntDecidable (n : Int) : Decidable (IsInt n) := inferInstanceAs (Decidable (_ ∧ _))

def setInt (req : CreateTaskReq) (n : Int) : String → CreateTaskReq
  | "type" => { req with type := n }
  | "profiler_type" => { req with profilerType := n }
  | "pid" => { req with pid := n }
  | "duration" => { req with duration := n }
  | "hz" => { req with hz := n }
  | _ => req

def setString (req : CreateTaskReq) (s : String) : String → CreateTaskReq
  | "name" => { req with name := s }
  | "target_ip" => { req with targetIP := s }
  | "event" => { req with event := s }
  | _ => req

/-- Keys are matched with the tags without regard to case. -/
def tagOf (key : Text) : String := String.ofList (key.map Char.toLower)

/-- A value of another type than its field, or outside the range of `int`, leaves the field
as it is. -/
def assign (req : CreateTaskReq) : Text × Value → CreateTaskReq
  | (key, .num n) => if IsInt n then setInt req n (tagOf key) else req
  | (key, .str s) => setString req (String.ofList s) (tagOf key)

def zeroReq : CreateTaskReq := ⟨"", 0, 0, "", 0, 0, 0, ""⟩

/-- `json.Unmarshal` into a fresh request, its error ignored. -/
def unmarshal (text : String) : CreateTaskReq :=
  ((readObject text.toList).getD []).foldl assign zeroReq

end texts

section column

/-- Of several members with one key the last is kept. -/
def lastWins : Object → Object
  | [] => []
  | member :: rest =>
    if member.1 ∈ rest.map Prod.fst then lastWins rest else member :: lastWins rest

def byteLength (key : Text) : Nat := (key.map Char.utf8Size).sum

/-- The order of UTF-8 texts byte by byte, which is that of their characters. -/
def textBefore : Text → Text → Bool
  | [], _ => true
  | _ :: _, [] => false
  | c :: cs, d :: ds => c.toNat < d.toNat ∨ c = d ∧ textBefore cs ds

/-- Shorter keys stand first, keys of one length in the order of their bytes. -/
def keyBefore (a b : Text × Value) : Bool :=
  byteLength a.1 < byteLength b.1 ∨ byteLength a.1 = byteLength b.1 ∧ textBefore a.1 b.1

def normal (o : Object) : Object := (lastWins o).insertionSort (keyBefore · ·)

def textsOf (o : Object) : List Text :=
  o.flatMap fun member => match member.2 with
    | .num _ => [member.1]
    | .str s => [member.1, s]

/-- What a text becomes in a `jsonb` column, as it is read back. A text that is not JSON is
refused, and so is one with the character U+0000. -/
def jsonb (text : String) : Option String := do
  let o ← readObject text.toList
  if (textsOf o).any ('\x00' ∈ ·) then none
  else some (String.ofList (jsonbStyle.object (normal o)))

end column

section roundTrips

theorem jsonb_object (style : Style) (o : Object) : jsonb (String.ofList (style.object o)) =
    if (textsOf o).any ('\x00' ∈ ·) then none
    else some (String.ofList (jsonbStyle.object (normal o))) := by
  rw [jsonb, String.toList_ofList, readObject_object, Option.bind_eq_bind, Option.bind_some]

theorem unmarshal_jsonb {style : Style} {o : Object} {column : String}
    (stored : jsonb (String.ofList (style.object o)) = some column) :
    unmarshal column = (normal o).foldl assign zeroReq := by
  rw [jsonb_object, Option.ite_none_left_eq_some] at stored
  rw [← Option.some.inj stored.2, unmarshal, String.toList_ofList, readObject_object,
    Option.getD_some]

theorem normal_fields (req : CreateTaskReq) : normal req.fields =
    [numberField "hz" req.hz, numberField "pid" req.pid, stringField "name" req.name, numberField "type" req.type,
      stringField "event" req.event, numberField "duration" req.duration, stringField "target_ip" req.targetIP,
      numberField "profiler_type" req.profilerType] := rfl

def Representable (req : CreateTaskReq) : Prop :=
  IsInt req.type ∧ IsInt req.profilerType ∧ IsInt req.pid ∧ IsInt req.duration ∧ IsInt req.hz

instance representableDecidable (req : CreateTaskReq) : Decidable (Representable req) :=
  inferInstanceAs (Decidable (_ ∧ _))

theorem assign_number {n : Int} (int : IsInt n) (req : CreateTaskReq) (key : String) :
    assign req (numberField key n) = setInt req n (tagOf key.toList) := if_pos int

theorem assign_string (req : CreateTaskReq) (key s : String) :
    assign req (stringField key s) = setString req s (tagOf key.toList) := by
  rw [stringField, assign, String.ofList_toList]

theorem tagOf_tags : ["name", "type", "profiler_type", "target_ip", "pid", "duration", "hz",
    "event"].Forall fun tag => tagOf tag.toList = tag := by
  decide

theorem unmarshal_marshal {req : CreateTaskReq} (ints : Representable req) {column : String}
    (stored : jsonb (marshal req) = some column) : unmarshal column = req := by
  obtain ⟨type, profilerType, pid, duration, hz⟩ := ints
  have tags := tagOf_tags
  simp only [List.Forall] at tags
  rw [unmarshal_jsonb stored, normal_fields]
  simp only [List.foldl_cons, List.foldl_nil, assign_string, assign_number hz, assign_number pid,
    assign_number type, assign_number duration, assign_number profilerType, tags, setInt, setString]

/-- The members `NLChat` writes with a format string. -/
def nlFields (pid duration : Int) : Object :=
  [numberField "pid" pid, numberField "duration" duration, numberField "hz" 99, stringField "event" "cpu"]

theorem toList_toString (n : Int) : (toString n).toList = printInt n := by
  cases n with
  | ofNat n => exact Nat.toList_repr
  | negSucc n =>
    show ("-" ++ (n + 1).repr).toList = _
    rw [String.toList_append, Nat.toList_repr]
    rfl

theorem nlChat_requestParams (title : String) (profilerType : Int) (targetIP : String)
    (pid duration : Int) (uid userName tid : String) (now : Nat) :
    ((Creation.nlChat title profilerType targetIP pid duration uid userName).row tid now
      ).requestParams = String.ofList (goStyle.object (nlFields pid duration)) := by
  apply String.toList_injective
  simp only [Creation.row, String.toList_append, toList_toString, String.toList_ofList]
  simp only [nlFields, numberField, stringField, Style.object, Style.members, Style.member, Style.value,
    List.append_assoc, List.cons_append]
  rfl

theorem unmarshal_nlFields {pid duration : Int} (ints : IsInt pid ∧ IsInt duration)
    {column : String}
    (stored : jsonb (String.ofList (goStyle.object (nlFields pid duration))) = some column) :
    unmarshal column = ⟨"", 0, 0, "", pid, duration, 99, "cpu"⟩ := by
  have sorted : normal (nlFields pid duration) = [numberField "hz" 99, numberField "pid" pid,
    stringField "event" "cpu", numberField "duration" duration] := rfl
  rw [unmarshal_jsonb stored, sorted]
  simp only [List.foldl_cons, List.foldl_nil, assign_string, assign_number ints.1,
    assign_number ints.2, assign_number (show IsInt 99 by decide)]
  rfl

end roundTrips

section retries

def byNlChat : Creation → Bool
  | .nlChat _ _ _ _ _ _ _ => true
  | _ => false

theorem requestParams_row {creation : Creation} (other : byNlChat creation = false) (tid : String)
    (now : Nat) : (creation.row tid now).requestParams = marshal creation.request := by
  cases creation with
  | createTask _ _ _ => rfl
  | nlChat _ _ _ _ _ _ _ => exact absurd other.symm Bool.false_ne_true
  | dispatchContinuousTask _ _ => rfl

/-- The request that `RetryTask` decodes from the column goes to the same host as the one the
task was first dispatched with, with the same description. -/
def RetriedAlike (creation : Creation) (tid column : String) : Prop :=
  (unmarshal column).targetIP = creation.request.targetIP ∧
    taskDesc tid (unmarshal column) = taskDesc tid creation.request

instance retriedAlikeDecidable (creation : Creation) (tid column : String) :
    Decidable (RetriedAlike creation tid column) := inferInstanceAs (Decidable (_ ∧ _))

theorem not_retriedAlike_nlChat {creation : Creation} (nl : byNlChat creation)
    (ints : Representable creation.request) {tid column : String} {now : Nat}
    (stored : jsonb (creation.row tid now).requestParams = some column) :
    ¬ RetriedAlike creation tid column := by
  cases creation with
  | nlChat title profilerType targetIP pid duration uid userName =>
    obtain ⟨_, _, isPid, isDuration, _⟩ := ints
    rw [nlChat_requestParams] at stored
    intro alike
    have event : (unmarshal column).event = "" := congrArg TaskDesc.event alike.2
    rw [unmarshal_nlFields ⟨isPid, isDuration⟩ stored] at event
    exact absurd event (show "cpu" ≠ "" by decide)
  | createTask _ _ _ => exact absurd nl Bool.false_ne_true
  | dispatchContinuousTask _ _ => exact absurd nl Bool.false_ne_true

theorem retriedAlike_iff (creation : Creation) (tid column : String) (now : Nat)
    (ints : Representable creation.request)
    (stored : jsonb (creation.row tid now).requestParams = some column) :
    RetriedAlike creation tid column ↔ byNlChat creation = false := by
  cases nl : byNlChat creation with
  | true => exact iff_of_false (not_retriedAlike_nlChat nl ints stored) (by decide)
  | false =>
    rw [requestParams_row nl] at stored
    have same : unmarshal column = creation.request := unmarshal_marshal ints stored
    refine iff_of_true ?_ rfl
    rw [RetriedAlike, same]
    exact ⟨rfl, rfl⟩

def javaColumn : String :=
  "\x7b\"hz\": 99, \"pid\": 4242, \"name\": \"heap\", \"type\": 0, \"event\": \"alloc\", " ++
    "\"duration\": 30, \"target_ip\": \"10.0.0.7\", \"profiler_type\": 1\x7d"

def javaRequest : CreateTaskReq := ⟨"heap", 0, 1, "10.0.0.7", 4242, 30, 99, "alloc"⟩

theorem retriedAlike_iff_javaRequest :
    RetriedAlike (.createTask javaRequest "u1" "ann") "t1" javaColumn := by
  have stored : jsonb ((Creation.createTask javaRequest "u1" "ann").row "t1" 0).requestParams =
      some javaColumn := by
    rw [requestParams_row rfl, Creation.request, marshal, jsonb_object, normal_fields]
    decide +kernel
  exact (retriedAlike_iff _ "t1" javaColumn 0 (by decide) stored).mpr rfl

/-- "10.0.0.7 上 PID 4242 的 Java 程序采样 30 秒": the retry goes to no host, with another
profiler and another event. -/
def nlTask : Creation := .nlChat "PID 4242 java 30s" 1 "10.0.0.7" 4242 30 "u1" "ann"

def nlColumn : String := "\x7b\"hz\": 99, \"pid\": 4242, \"event\": \"cpu\", \"duration\": 30\x7d"

theorem nlTask_retried_apart :
    jsonb (nlTask.row "t1" 0).requestParams = some nlColumn ∧
      unmarshal nlColumn = ⟨"", 0, 0, "", 4242, 30, 99, "cpu"⟩ ∧
      nlTask.request = ⟨"", 0, 1, "10.0.0.7", 4242, 30, 99, ""⟩ ∧
      ¬ RetriedAlike nlTask "t1" nlColumn := by
  have written := nlChat_requestParams "PID 4242 java 30s" 1 "10.0.0.7" 4242 30 "u1" "ann" "t1" 0
  have stored : jsonb (nlTask.row "t1" 0).requestParams = some nlColumn := by
    rw [nlTask, written, jsonb_object]
    decide +kernel
  have ints : Representable nlTask.request := by decide
  refine ⟨stored, ?_, rfl, not_retriedAlike_nlChat rfl ints stored⟩
  rw [nlTask, written] at stored
  exact unmarshal_nlFields ⟨by decide, by decide⟩ stored

end retries

end DropPlatform.RetryParams
