import DropPlatform.FifoFamilies
import DropPlatform.KeyedStores

/-! drop_server's `TaskQueue`: a hash map from target addresses to deques of task
descriptions, with an entry for an address from its first `Push` on. Every method holds the
mutex from its first to its last access, so the calls of any number of threads take effect
one after the other, in the order in which they get the mutex. -/

namespace DropPlatform.TaskQueues
open KeyedStores FifoFamilies

structure TaskQueue (D : Type*) where
  queues : Keyed String (List D)

variable {D : Type*}

def TaskQueue.push (q : TaskQueue D) (targetIp : String) (desc : D) : TaskQueue D :=
  -- `queues_[target_ip]` is the deque of the entry, or a new empty one
  ⟨KeyedStores.push q.queues targetIp desc⟩

def TaskQueue.pop (q : TaskQueue D) (targetIp : String) : Option D × TaskQueue D :=
  match q.queues.lookup targetIp with
  | none => (none, q)
  | some [] => (none, q)
  | some (front :: rest) => (some front, ⟨set q.queues targetIp rest⟩)

def TaskQueue.size (q : TaskQueue D) (targetIp : String) : Nat :=
  match q.queues.lookup targetIp with
  | none => 0
  | some queue => queue.length

def empty : TaskQueue D := ⟨[]⟩

def answer (q : TaskQueue D) : Call String D → TaskQueue D × Reply D
  | .push ip desc => (q.push ip desc, .done)
  | .pop ip => ((q.pop ip).2, .popped (q.pop ip).1)
  | .size ip => (q, .size (q.size ip))

/-- The queue of each address; an address without an entry has an empty one. -/
def view (q : TaskQueue D) : Family String D := fun ip => get q.queues ip

theorem view_set (q : TaskQueue D) (ip : String) (queue : List D) :
    view ⟨set q.queues ip queue⟩ = Function.update (view q) ip queue := by
  funext other
  by_cases same : ip = other
  · rw [view, get_set, if_pos same, same, Function.update_self]
  · rw [view, get_set, if_neg same, Function.update_of_ne fun eq => same eq.symm]
    rfl

theorem view_push (q : TaskQueue D) (ip : String) (desc : D) :
    view (q.push ip desc) = Function.update (view q) ip (view q ip ++ [desc]) :=
  view_set q ip _

theorem lookup_eq (q : TaskQueue D) (ip : String) :
    view q ip = (q.queues.lookup ip).getD [] := get_eq_lookup q.queues ip

theorem size_eq (q : TaskQueue D) (ip : String) : q.size ip = (view q ip).length := by
  rw [lookup_eq, TaskQueue.size]
  cases q.queues.lookup ip <;> rfl

theorem pop_eq (q : TaskQueue D) (ip : String) :
    (q.pop ip).1 = (view q ip).head? ∧
      view (q.pop ip).2 = Function.update (view q) ip (view q ip).tail := by
  have held := lookup_eq q ip
  have unchanged : view q ip = [] → view q = Function.update (view q) ip (view q ip).tail := by
    intro none
    rw [none, List.tail_nil, ← none, Function.update_eq_self]
  unfold TaskQueue.pop
  split <;> rename_i found <;> rw [found] at held
  · exact ⟨by rw [held]; rfl, unchanged held⟩
  · exact ⟨by rw [held]; rfl, unchanged held⟩
  · rw [held]
    exact ⟨rfl, view_set q ip _⟩

theorem pop_eq_keyed (q : TaskQueue D) (ip : String) :
    q.pop ip = match KeyedStores.pop q.queues ip with
      | none => (none, q)
      | some (front, queues) => (some front, ⟨queues⟩) := by
  rw [KeyedStores.pop, get_eq_lookup, TaskQueue.pop]
  cases q.queues.lookup ip with
  | none => rfl
  | some queue => cases queue <;> rfl

theorem implements : Implements (answer (D := D)) view where
  next q call := by
    cases call with
    | push ip desc => exact view_push q ip desc
    | pop ip => exact (pop_eq q ip).2
    | size ip => rfl
  reply q call := by
    cases call with
    | push ip desc => rfl
    | pop ip => exact congrArg Reply.popped (pop_eq q ip).1
    | size ip => exact congrArg Reply.size (size_eq q ip)

/-- In any history, for every address: what was popped is a beginning of what was pushed,
the queue is the rest of it, `Size` and a `Pop` that fails tell how much that is, and only
calls with this address change it. -/
theorem fifo_for_every_address (calls : List (Call String D)) (ip : String) :
    let (q, history) := record answer empty calls
    popped ip history <+: pushed ip history ∧
      view q ip = (pushed ip history).drop (popped ip history).length ∧
      (answer q (.size ip)).2 = .size ((pushed ip history).length - (popped ip history).length) ∧
      ((answer q (.pop ip)).2 = .popped none ↔
        (pushed ip history).length - (popped ip history).length = 0) ∧
      ∀ call : Call String D, call.key ≠ ip → view (answer q call).1 ip = view q ip := by
  have law : popped ip (record answer empty calls).2 ++ view (record answer empty calls).1 ip =
      pushed ip (record answer empty calls).2 := implements.popped_append_view empty calls ip
  generalize record answer empty calls = result at law ⊢
  obtain ⟨q, history⟩ := result
  dsimp only at law ⊢
  have held : view q ip = (pushed ip history).drop (popped ip history).length := by
    rw [← law, List.drop_left]
  have count : (view q ip).length = (pushed ip history).length - (popped ip history).length := by
    rw [held, List.length_drop]
  refine ⟨⟨view q ip, law⟩, held, ?_, ?_, ?_⟩
  · rw [← count]
    exact congrArg Reply.size (size_eq q ip)
  · rw [← count, List.length_eq_zero_iff, ← List.head?_eq_none_iff, ← (pop_eq q ip).1]
    exact Reply.popped.injEq _ _ ▸ Iff.rfl
  · intro call other
    rw [implements.next]
    exact answer_other (view q) other

end DropPlatform.TaskQueues
