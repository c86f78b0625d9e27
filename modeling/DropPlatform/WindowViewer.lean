import DropPlatform.BrowserFlameGraph
import DropPlatform.ProfileWindow
import DropPlatform.RankedSelections

/-! From the segments of a continuous task to the table in the browser: `CollapsedStacksViewer`
reads the text that `GetProfileWindow` has written, in whatever order Go went through its map. -/

namespace DropPlatform.WindowViewer
open Tallies TaskReads ProfileWindow RankedSelections BrowserFlameGraph
open TextLines

section viewer

/-- An entry of the list of stacks, with the sign of its count apart. -/
structure Row where
  stack : Text
  negative : Bool
  count : Number
deriving DecidableEq, Repr

def readRow (line : Text) : Option Row :=
  match cutLast ' ' line with
  | none => none
  | some (stack, countStr) => (parseInt countStr).map fun n => ⟨stack, n.1, n.2⟩

def viewerStacks (data : Text) : List Row :=
  (((trim data).splitOn '\n').filter (trim · ≠ [])).filterMap readRow

/-- The count for comparisons; infinity is above all numbers that there are. -/
def Row.rank (row : Row) : Int :=
  let n : Int := row.count.getD (2 ^ WholeFloats.maxExponent)
  if row.negative then -n else n

def top (data : Text) : List Row :=
  ((viewerStacks data).insertionSort fun a b => b.rank ≤ a.rank).take 30

end viewer

section text

def encode (text : Text) : Bytes := text.flatMap String.utf8EncodeChar

variable {e : Text × Nat} {entries : List (Text × Nat)}

end text

section window

theorem exact_counted {merged events : List Sample} (counted : Counted merged events)
    (small : (events.map Prod.snd).sum < 2 ^ 64) {e : Sample} (member : e ∈ merged) :
    e.2 = weight (· = e.1) events := by
  have bound : weight (· = e.1) events ≤ (events.map Prod.snd).sum :=
    (List.filter_sublist.map Prod.snd).sum_le_sum fun _ _ => Nat.zero_le _
  rw [counted.sums e member, Nat.mod_eq_of_lt (bound.trans_lt small)]

theorem sum_counted {merged events : List Sample} (counted : Counted merged events)
    (small : (events.map Prod.snd).sum < 2 ^ 64) :
    (merged.map Prod.snd).sum = (events.map Prod.snd).sum := by
  have whole : weight (fun _ => True) merged = weight (fun _ => True) events :=
    weight_of_exact counted.once (fun e => exact_counted counted small)
      fun e member => (counted.covers e.1).mpr (List.mem_map_of_mem member)
  simpa [weight] using whole

variable (env : Environment) (s : ServerState) (tid : String) (start stop : Int64)

end window

end DropPlatform.WindowViewer
