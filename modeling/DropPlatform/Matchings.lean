import Mathlib.Data.PEquiv
import Mathlib.Tactic

/-! Keys matched one to one with partners, as partial equivalences. A key is released and
its partner with it; a free key is matched with a free partner. Either side may be kept as
a list of pairs. -/

namespace DropPlatform.Matchings

variable {κ ι : Type*} [DecidableEq κ] (f : κ ≃. ι) {k : κ} {i : ι}

def release (k : κ) : κ ≃. ι := (PEquiv.ofSet {k}ᶜ).trans f

theorem coe_release (k : κ) : ⇑(release f k) = Function.update f k none := by
  funext j
  apply Option.ext
  intro i
  by_cases own : j = k
  · simp [release, own, PEquiv.trans_eq_some]
  · simp [release, own, PEquiv.trans_eq_some]

variable [DecidableEq ι]

theorem coe_symm_release {f : κ ≃. ι} (matched : f k = some i) :
    ⇑(release f k).symm = Function.update f.symm i none := by
  funext j
  apply Option.ext
  intro l
  rw [PEquiv.eq_some_iff, coe_release]
  by_cases own : l = k
  · subst own
    by_cases same : j = i
    · simp [same]
    · have other : f.symm j ≠ some l := by
        rw [ne_eq, PEquiv.eq_some_iff, matched, Option.some.injEq]
        exact Ne.symm same
      simp [same, other]
  · by_cases same : j = i
    · have other : f l ≠ some i := fun again => own (f.inj again matched)
      simp [own, same, other]
    · rw [Function.update_of_ne own, Function.update_of_ne same, PEquiv.eq_some_iff]

def assign (key : f k = none) (partner : f.symm i = none) : κ ≃. ι where
  toFun := Function.update f k (some i)
  invFun := Function.update f.symm i (some k)
  inv l j := by
    by_cases own : l = k
    · by_cases same : j = i
      · simp [own, same]
      · have other : f.symm j ≠ some k := by
          rw [ne_eq, PEquiv.eq_some_iff, key]
          exact (Option.some_ne_none j).symm
        simp [own, same, other, Ne.symm same]
    · by_cases same : j = i
      · have other : f l ≠ some i := by
          rw [ne_eq, ← PEquiv.eq_some_iff, partner]
          exact (Option.some_ne_none l).symm
        simp [own, same, other, Ne.symm own]
      · rw [Function.update_of_ne own, Function.update_of_ne same, PEquiv.eq_some_iff]

section listed
omit [DecidableEq ι]
variable (l : List (κ × ι))

/-- The partner that a list has for a key. -/
def listed (k : κ) : Option ι := (l.find? (·.1 = k)).map Prod.snd

theorem listed_filter (k : κ) :
    listed (l.filter (·.1 ≠ k)) = Function.update (listed l) k none := by
  funext j
  rw [listed, List.find?_filter]
  by_cases own : j = k
  · rw [own, Function.update_self]
    simp
  · rw [Function.update_of_ne own, listed]
    congr 2
    funext e
    by_cases here : e.1 = j
    · simp [here, own]
    · simp [here]

theorem listed_concat {l : List (κ × ι)} (absent : listed l k = none) (i : ι) :
    listed (l ++ [(k, i)]) = Function.update (listed l) k (some i) := by
  funext j
  rw [listed, List.find?_append]
  by_cases new : j = k
  · subst new
    rw [Option.map_eq_none_iff.mp absent, Function.update_self]
    simp
  · have other : List.find? (fun e => decide (e.1 = j)) [(k, i)] = none := by
      simp [Ne.symm new]
    rw [other, Option.or_none, Function.update_of_ne new, listed]

end listed

end DropPlatform.Matchings
