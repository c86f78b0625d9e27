import DropPlatform.TextLines
import Mathlib.Logic.Relation
import Mathlib.Tactic

/-! Big-endian numbers, and programs that read a byte sequence from front to back, keep a
state, and may stop early: with an error, with a panic where an index is out of range, or
because a loop was given too few rounds. The state at the stop is kept. -/

namespace DropPlatform.ByteReaders

def bigEndian (bytes : Bytes) : Nat := bytes.foldl (fun n b => 256 * n + b.toNat) 0

def encode : (width : Nat) → Nat → Bytes
  | 0, _ => []
  | width + 1, n => encode width (n / 256) ++ [UInt8.ofNat n]

@[simp] theorem length_encode (width n : Nat) : (encode width n).length = width := by
  induction width generalizing n with
  | zero => rfl
  | succ width ih => simp [encode, ih]

theorem bigEndian_snoc (bytes : Bytes) (b : UInt8) :
    bigEndian (bytes ++ [b]) = 256 * bigEndian bytes + b.toNat := by
  simp [bigEndian]

theorem bigEndian_encode {width n : Nat} (fits : n < 256 ^ width) :
    bigEndian (encode width n) = n := by
  induction width generalizing n with
  | zero =>
    have zero : n = 0 := by simpa using fits
    simp [encode, bigEndian, zero]
  | succ width ih =>
    rw [pow_succ] at fits
    have shorter : n / 256 < 256 ^ width := by omega
    simp only [encode, bigEndian_snoc, ih shorter, UInt8.toNat_ofNat']
    omega

theorem bigEndian_lt (bytes : Bytes) : bigEndian bytes < 256 ^ bytes.length := by
  induction bytes using List.reverseRecOn with
  | nil => simp [bigEndian]
  | append_singleton bytes b ih =>
    have small := b.toNat_lt
    rw [bigEndian_snoc, List.length_append, List.length_singleton, pow_succ]
    omega

theorem encode_bigEndian (bytes : Bytes) : encode bytes.length (bigEndian bytes) = bytes := by
  induction bytes using List.reverseRecOn with
  | nil => rfl
  | append_singleton bytes b ih =>
    have small := b.toNat_lt
    have high : (256 * bigEndian bytes + b.toNat) / 256 = bigEndian bytes := by omega
    have low : UInt8.ofNat (256 * bigEndian bytes + b.toNat) = b := by
      apply UInt8.toNat_inj.mp
      rw [UInt8.toNat_ofNat']
      omega
    rw [bigEndian_snoc, List.length_append, List.length_singleton, encode, high, low, ih]

def cut (bytes : Bytes) (low high : Nat) : Bytes := (bytes.take high).drop low

theorem length_cut {bytes : Bytes} {low high : Nat} (inside : high ≤ bytes.length) :
    (cut bytes low high).length = high - low := by
  rw [cut, List.length_drop, List.length_take]
  omega

theorem cut_middle (before middle after : Bytes) {bytes : Bytes} {low high : Nat}
    (whole : bytes = before ++ (middle ++ after)) (start : before.length = low)
    (stop : low + middle.length = high) : cut bytes low high = middle := by
  have upTo : (before ++ middle).length = high := by
    rw [List.length_append]
    omega
  rw [cut, whole, ← List.append_assoc, List.take_left' upTo, List.drop_left' start]

theorem cut_fourParts {a b c d : Bytes} {i j k l : Nat} (ha : a.length = i) (hb : b.length = j)
    (hc : c.length = k) (hd : d.length = l) :
    (a ++ b ++ c ++ d).length = i + j + k + l ∧ cut (a ++ b ++ c ++ d) 0 i = a ∧
      cut (a ++ b ++ c ++ d) (i + j) (i + j + k) = c ∧
      cut (a ++ b ++ c ++ d) (i + j + k) (i + j + k + l) = d := by
  refine ⟨?_, ?_, ?_, ?_⟩
  · simp only [List.length_append, ha, hb, hc, hd]
  · apply cut_middle [] a (b ++ c ++ d)
    · simp only [List.append_assoc, List.nil_append]
    · rw [List.length_nil]
    · omega
  · apply cut_middle (a ++ b) c d (List.append_assoc _ _ _)
    · rw [List.length_append, ha, hb]
    · omega
  · apply cut_middle (a ++ b ++ c) d []
    · rw [List.append_nil]
    · rw [List.length_append, List.length_append, ha, hb, hc]
    · omega

structure Session (σ : Type) where
  input : Bytes
  state : σ
deriving DecidableEq, Repr

inductive Stop (ε : Type)
  | error (e : ε)
  | panic
  | outOfRounds
deriving DecidableEq, Repr

abbrev Reader (ε σ α : Type) := EStateM (Stop ε) (Session σ) α

inductive ReadError
  | eof
  | unexpectedEOF
deriving DecidableEq, Repr

/-- The error of a read that asks for more than there is. -/
def shortRead (input : Bytes) : ReadError := if input = [] then .eof else .unexpectedEOF

section operations
variable {ε σ α β : Type}

def tryReadFull (n : Nat) : Reader ε σ (Except ReadError Bytes) := fun s =>
  if n ≤ s.input.length then .ok (.ok (s.input.take n)) { s with input := s.input.drop n }
  else .ok (.error (shortRead s.input)) { s with input := [] }

def readFull (n : Nat) (wrap : ReadError → ε) : Reader ε σ Bytes := do
  match ← tryReadFull n with
  | .ok bytes => pure bytes
  | .error e => throw (.error (wrap e))

/-- Copying a number of bytes to nowhere; a shortage is always reported as `eof`. -/
def discard (n : Nat) (wrap : ReadError → ε) : Reader ε σ Unit := fun s =>
  if n ≤ s.input.length then .ok () { s with input := s.input.drop n }
  else .error (.error (wrap .eof)) { s with input := [] }

def slice (bytes : Bytes) (low high : Nat) : Reader ε σ Bytes :=
  if low ≤ high ∧ high ≤ bytes.length then pure (cut bytes low high) else throw .panic

def uint32 (bytes : Bytes) : Reader ε σ UInt32 :=
  if 4 ≤ bytes.length then pure (.ofNat (bigEndian (bytes.take 4))) else throw .panic

def uint64 (bytes : Bytes) : Reader ε σ UInt64 :=
  if 8 ≤ bytes.length then pure (.ofNat (bigEndian (bytes.take 8))) else throw .panic

/-- A loop whose body answers with the next loop state or with the result. -/
def iterate (body : β → Reader ε σ (β ⊕ α)) : Nat → β → Reader ε σ α
  | 0, _ => throw .outOfRounds
  | rounds + 1, b => do
    match ← body b with
    | .inl next => iterate body rounds next
    | .inr result => pure result

end operations

section rules
variable {ε σ α β : Type} {s : Session σ}

theorem run_pure (a : α) : (pure a : Reader ε σ α).run s = .ok a s := rfl

theorem run_throw (stop : Stop ε) : (throw stop : Reader ε σ α).run s = .error stop s := rfl

theorem run_bind (x : Reader ε σ α) (f : α → Reader ε σ β) :
    (x >>= f).run s = match x.run s with
      | .ok a t => (f a).run t
      | .error stop t => .error stop t := by
  simp only [EStateM.run, bind, EStateM.bind]
  cases x s <;> rfl

theorem run_readFull_append {bytes rest : Bytes} {n : Nat} (wrap : ReadError → ε) (state : σ)
    (size : bytes.length = n) :
    (readFull n wrap).run ⟨bytes ++ rest, state⟩ = .ok bytes ⟨rest, state⟩ := by
  have enough : n ≤ (bytes ++ rest).length := by
    rw [List.length_append]
    omega
  have ran : (tryReadFull n : Reader ε σ _).run ⟨bytes ++ rest, state⟩ =
      .ok (.ok bytes) ⟨rest, state⟩ := by
    simp only [tryReadFull, EStateM.run, if_pos enough, List.take_left' size,
      List.drop_left' size]
  simp only [readFull, run_bind, ran, run_pure]

theorem run_readFull_zero (input : Bytes) (wrap : ReadError → ε) (state : σ) :
    (readFull 0 wrap).run ⟨input, state⟩ = .ok [] ⟨input, state⟩ := rfl

theorem run_readFull_one (b : UInt8) (rest : Bytes) (wrap : ReadError → ε) (state : σ) :
    (readFull 1 wrap).run ⟨b :: rest, state⟩ = .ok [b] ⟨rest, state⟩ := by
  have size : [b].length = 1 := rfl
  exact run_readFull_append wrap state size

theorem run_readFull_short {input : Bytes} {n : Nat} (wrap : ReadError → ε) (state : σ)
    (short : input.length < n) :
    (readFull n wrap).run ⟨input, state⟩ = .error (.error (wrap (shortRead input))) ⟨[], state⟩ := by
  have ran : (tryReadFull n : Reader ε σ _).run ⟨input, state⟩ =
      .ok (.error (shortRead input)) ⟨[], state⟩ := by
    simp only [tryReadFull, EStateM.run, if_neg (by omega : ¬ n ≤ input.length)]
  simp only [readFull, run_bind, ran, run_throw]

theorem run_discard_append {bytes rest : Bytes} {n : Nat} (wrap : ReadError → ε) (state : σ)
    (size : bytes.length = n) :
    (discard n wrap).run ⟨bytes ++ rest, state⟩ = .ok () ⟨rest, state⟩ := by
  have enough : n ≤ (bytes ++ rest).length := by
    rw [List.length_append]
    omega
  simp only [discard, EStateM.run, if_pos enough, List.drop_left' size]

theorem run_discard_short {input : Bytes} {n : Nat} (wrap : ReadError → ε) (state : σ)
    (short : input.length < n) :
    (discard n wrap).run ⟨input, state⟩ = .error (.error (wrap .eof)) ⟨[], state⟩ := by
  simp only [discard, EStateM.run, if_neg (by omega : ¬ n ≤ input.length)]

theorem run_slice {bytes : Bytes} {low high : Nat} (order : low ≤ high)
    (inside : high ≤ bytes.length) :
    (slice bytes low high : Reader ε σ Bytes).run s = .ok (cut bytes low high) s := by
  simp only [slice, if_pos (And.intro order inside), run_pure]

theorem run_slice_panics {bytes : Bytes} {low high : Nat} (outside : bytes.length < high) :
    (slice bytes low high : Reader ε σ Bytes).run s = .error .panic s := by
  simp only [slice, if_neg (by omega : ¬ (low ≤ high ∧ high ≤ bytes.length)), run_throw]

theorem run_uint32 {bytes : Bytes} (size : bytes.length = 4) :
    (uint32 bytes : Reader ε σ UInt32).run s = .ok (.ofNat (bigEndian bytes)) s := by
  simp only [uint32, if_pos size.ge, List.take_of_length_le size.le, run_pure]

theorem run_uint64 {bytes : Bytes} (size : bytes.length = 8) :
    (uint64 bytes : Reader ε σ UInt64).run s = .ok (.ofNat (bigEndian bytes)) s := by
  simp only [uint64, if_pos size.ge, List.take_of_length_le size.le, run_pure]

theorem toNat_ofNat_uint32 {n : Nat} (fits : n < 256 ^ 4) : (UInt32.ofNat n).toNat = n := by
  rw [UInt32.toNat_ofNat']
  omega

theorem toNat_ofNat_uint64 {n : Nat} (fits : n < 256 ^ 8) : (UInt64.ofNat n).toNat = n := by
  rw [UInt64.toNat_ofNat']
  omega

theorem toNat_uint32 {bytes : Bytes} (size : bytes.length = 4) :
    (UInt32.ofNat (bigEndian bytes)).toNat = bigEndian bytes := by
  apply toNat_ofNat_uint32
  rw [← size]
  exact bigEndian_lt bytes

end rules

section loops
variable {ε σ α β : Type} {body : β → Reader ε σ (β ⊕ α)}

def Continues (body : β → Reader ε σ (β ⊕ α)) (here next : β × Session σ) : Prop :=
  (body here.1).run here.2 = .ok (.inl next.1) next.2

/-- Every round that goes on has read something and keeps the invariant. -/
structure Consuming (inv : β × Session σ → Prop) (body : β → Reader ε σ (β ⊕ α)) : Prop where
  shorter : ∀ here next, inv here → Continues body here next →
    next.2.input.length < here.2.input.length
  keeps : ∀ here next, inv here → Continues body here next → inv next

abbrev RunsTo (body : β → Reader ε σ (β ⊕ α)) : β × Session σ → β × Session σ → Prop :=
  Relation.ReflTransGen (Continues body)

/-- What the last round of a loop answers, as the answer of the loop. -/
def Ending : EStateM.Result (Stop ε) (Session σ) (β ⊕ α) →
    EStateM.Result (Stop ε) (Session σ) α → Prop
  | .ok (.inl _) _, _ => False
  | .ok (.inr a) t, result => result = .ok a t
  | .error stop t, result => result = .error stop t

variable {inv : β × Session σ → Prop}

theorem Consuming.runsTo (consuming : Consuming inv body) {here last : β × Session σ}
    (start : inv here) (run : RunsTo body here last) : inv last := by
  induction run with
  | refl => exact start
  | tail _ goesOn ih => exact consuming.keeps _ _ ih goesOn

theorem iterate_of_runsTo (consuming : Consuming inv body) {here last : β × Session σ}
    {rounds : Nat} {result : EStateM.Result (Stop ε) (Session σ) α} (start : inv here)
    (enough : here.2.input.length < rounds) (run : RunsTo body here last)
    (ending : Ending ((body last.1).run last.2) result) :
    (iterate body rounds here.1).run here.2 = result := by
  induction run using Relation.ReflTransGen.head_induction_on generalizing rounds with
  | refl =>
    obtain ⟨rounds, rfl⟩ := Nat.exists_eq_add_one_of_ne_zero (by omega : rounds ≠ 0)
    simp only [iterate, run_bind]
    cases answer : (body last.1).run last.2 with
    | ok a t =>
      rw [answer] at ending
      cases a with
      | inl next => exact ending.elim
      | inr a => exact ending.symm
    | error stop t =>
      rw [answer] at ending
      exact ending.symm
  | @head here next goesOn _ ih =>
    obtain ⟨rounds, rfl⟩ := Nat.exists_eq_add_one_of_ne_zero (by omega : rounds ≠ 0)
    have shorter := consuming.shorter here next start goesOn
    have answer : (body here.1).run here.2 = .ok (.inl next.1) next.2 := goesOn
    simp only [iterate, run_bind, answer]
    apply ih (consuming.keeps here next start goesOn)
    omega

theorem exists_last_round (consuming : Consuming inv body) {here : β × Session σ}
    (start : inv here) :
    ∃ last result, RunsTo body here last ∧ Ending ((body last.1).run last.2) result := by
  induction size : here.2.input.length using Nat.strong_induction_on generalizing here with
  | _ n ih =>
    cases answer : (body here.1).run here.2 with
    | ok a t =>
      cases a with
      | inl next =>
        have goesOn : Continues body here (next, t) := answer
        have shorter := consuming.shorter here (next, t) start goesOn
        obtain ⟨last, result, run, ending⟩ :=
          ih _ (size ▸ shorter) (consuming.keeps here (next, t) start goesOn) rfl
        exact ⟨last, result, .head goesOn run, ending⟩
      | inr a => exact ⟨here, .ok a t, .refl, answer ▸ rfl⟩
    | error stop t => exact ⟨here, .error stop t, .refl, answer ▸ rfl⟩

end loops

section simulation
variable {ε σ τ α β : Type}

def SameAnswer (related : σ → τ → Prop) : EStateM.Result (Stop ε) (Session σ) α →
    EStateM.Result (Stop ε) (Session τ) α → Prop
  | .ok a s, .ok b t => a = b ∧ s.input = t.input ∧ related s.state t.state
  | .error e s, .error f t => e = f ∧ s.input = t.input ∧ related s.state t.state
  | _, _ => False

/-- From related states the two readers answer alike. -/
def Simulates (related : σ → τ → Prop) (x : Reader ε σ α) (y : Reader ε τ α) : Prop :=
  ∀ input s t, related s t → SameAnswer related (x.run ⟨input, s⟩) (y.run ⟨input, t⟩)

namespace Simulates
variable {related : σ → τ → Prop}

theorem pure (a : α) : Simulates related (Pure.pure a : Reader ε σ α) (Pure.pure a) :=
  fun _ _ _ same => ⟨rfl, rfl, same⟩

theorem throw (stop : Stop ε) :
    Simulates related (MonadExcept.throw stop : Reader ε σ α) (MonadExcept.throw stop) :=
  fun _ _ _ same => ⟨rfl, rfl, same⟩

theorem tryReadFull (n : Nat) :
    Simulates related (tryReadFull n : Reader ε σ _) (ByteReaders.tryReadFull n) := by
  intro input s t same
  by_cases enough : n ≤ input.length
  · simpa only [ByteReaders.tryReadFull, EStateM.run, if_pos enough] using ⟨rfl, rfl, same⟩
  · simpa only [ByteReaders.tryReadFull, EStateM.run, if_neg enough] using ⟨rfl, rfl, same⟩

theorem discard (n : Nat) (wrap : ReadError → ε) :
    Simulates related (discard n wrap : Reader ε σ _) (ByteReaders.discard n wrap) := by
  intro input s t same
  by_cases enough : n ≤ input.length
  · simpa only [ByteReaders.discard, EStateM.run, if_pos enough] using ⟨rfl, rfl, same⟩
  · simpa only [ByteReaders.discard, EStateM.run, if_neg enough] using ⟨rfl, rfl, same⟩

theorem bind {x : Reader ε σ α} {y : Reader ε τ α} {f : α → Reader ε σ β} {g : α → Reader ε τ β}
    (first : Simulates related x y) (next : ∀ a, Simulates related (f a) (g a)) :
    Simulates related (x >>= f) (y >>= g) := by
  intro input s t same
  have answer := first input s t same
  rw [run_bind, run_bind]
  cases ran : x.run ⟨input, s⟩ with
  | ok a s' =>
    cases ran' : y.run ⟨input, t⟩ with
    | ok b t' =>
      rw [ran, ran'] at answer
      obtain ⟨rfl, inputs, same'⟩ := answer
      obtain ⟨rest, s'⟩ := s'
      obtain ⟨rest', t'⟩ := t'
      obtain rfl : rest = rest' := inputs
      exact next a rest s' t' same'
    | error e t' =>
      rw [ran, ran'] at answer
      exact answer.elim
  | error e s' =>
    cases ran' : y.run ⟨input, t⟩ with
    | ok b t' =>
      rw [ran, ran'] at answer
      exact answer.elim
    | error f t' =>
      rw [ran, ran'] at answer
      exact answer

theorem readFull (n : Nat) (wrap : ReadError → ε) :
    Simulates related (readFull n wrap : Reader ε σ _) (ByteReaders.readFull n wrap) := by
  refine bind (tryReadFull n) fun answer => ?_
  cases answer with
  | ok bytes => exact pure bytes
  | error e => exact throw _

theorem iterate {body : β → Reader ε σ (β ⊕ α)} {body' : β → Reader ε τ (β ⊕ α)}
    (round : ∀ b, Simulates related (body b) (body' b)) (rounds : Nat) (b : β) :
    Simulates related (ByteReaders.iterate body rounds b) (ByteReaders.iterate body' rounds b) := by
  induction rounds generalizing b with
  | zero => exact throw _
  | succ rounds ih =>
    refine bind (round b) fun answer => ?_
    cases answer with
    | inl next => exact ih next
    | inr result => exact pure result

end Simulates

/-- What succeeds does the same in front of more input. -/
def Extends (x : Reader ε σ α) : Prop :=
  ∀ input s a rest t, x.run ⟨input, s⟩ = .ok a ⟨rest, t⟩ →
    ∀ more, x.run ⟨input ++ more, s⟩ = .ok a ⟨rest ++ more, t⟩

namespace Extends

theorem pure (a : α) : Extends (Pure.pure a : Reader ε σ α) := by
  intro input s b rest t ran more
  cases ran
  rfl

theorem throw (stop : Stop ε) : Extends (MonadExcept.throw stop : Reader ε σ α) := by
  intro input s b rest t ran more
  cases ran

theorem readFull (n : Nat) (wrap : ReadError → ε) :
    Extends (ByteReaders.readFull n wrap : Reader ε σ _) := by
  intro input s bytes rest t ran more
  rcases Nat.lt_or_ge input.length n with short | enough
  · rw [run_readFull_short _ _ short] at ran
    cases ran
  · have size : (input.take n).length = n := List.length_take_of_le enough
    have whole := List.take_append_drop n input
    have here : (ByteReaders.readFull n wrap).run ⟨input.take n ++ input.drop n, s⟩ = _ :=
      run_readFull_append wrap s size
    rw [whole, ran] at here
    cases here
    have there : (ByteReaders.readFull n wrap).run ⟨input.take n ++ (input.drop n ++ more), s⟩ = _ :=
      run_readFull_append wrap s size
    rwa [← List.append_assoc, whole] at there

theorem discard (n : Nat) (wrap : ReadError → ε) :
    Extends (ByteReaders.discard n wrap : Reader ε σ _) := by
  intro input s u rest t ran more
  rcases Nat.lt_or_ge input.length n with short | enough
  · rw [run_discard_short _ _ short] at ran
    cases ran
  · have size : (input.take n).length = n := List.length_take_of_le enough
    have whole := List.take_append_drop n input
    have here : (ByteReaders.discard n wrap).run ⟨input.take n ++ input.drop n, s⟩ = _ :=
      run_discard_append wrap s size
    rw [whole, ran] at here
    cases here
    have there : (ByteReaders.discard n wrap).run ⟨input.take n ++ (input.drop n ++ more), s⟩ = _ :=
      run_discard_append wrap s size
    rwa [← List.append_assoc, whole] at there

theorem bind {x : Reader ε σ α} {f : α → Reader ε σ β} (first : Extends x)
    (next : ∀ a, Extends (f a)) : Extends (x >>= f) := by
  intro input s b rest t ran more
  rw [run_bind] at ran ⊢
  cases answer : x.run ⟨input, s⟩ with
  | error e s' =>
    rw [answer] at ran
    cases ran
  | ok a s' =>
    rw [answer] at ran
    rw [first input s a s'.input s'.state answer more]
    exact next a s'.input s'.state b rest t ran more

theorem iterate {body : β → Reader ε σ (β ⊕ α)} (round : ∀ b, Extends (body b)) {input : Bytes}
    {s : σ} {b : β} {a : α} {rest : Bytes} {t : σ} {rounds rounds' : Nat}
    (enough : rounds ≤ rounds')
    (ran : (ByteReaders.iterate body rounds b).run ⟨input, s⟩ = .ok a ⟨rest, t⟩) (more : Bytes) :
    (ByteReaders.iterate body rounds' b).run ⟨input ++ more, s⟩ = .ok a ⟨rest ++ more, t⟩ := by
  induction rounds generalizing rounds' b input s with
  | zero => cases ran
  | succ rounds ih =>
    obtain ⟨rounds', rfl⟩ := Nat.exists_eq_add_one_of_ne_zero (by omega : rounds' ≠ 0)
    simp only [ByteReaders.iterate, run_bind] at ran ⊢
    cases answer : (body b).run ⟨input, s⟩ with
    | error e s' =>
      rw [answer] at ran
      cases ran
    | ok next s' =>
      rw [answer] at ran
      rw [round b input s next s'.input s'.state answer more]
      cases next with
      | inl next => exact ih (by omega) ran
      | inr result =>
        cases ran
        rfl

end Extends

theorem iterate_congr {body body' : β → Reader ε σ (β ⊕ α)} {inv : σ → Prop}
    (agree : ∀ b s, inv s.state → (body b).run s = (body' b).run s)
    (keeps : ∀ b s next t, inv s.state → (body b).run s = .ok (.inl next) t → inv t.state)
    (rounds : Nat) (b : β) {s : Session σ} (start : inv s.state) :
    (iterate body rounds b).run s = (iterate body' rounds b).run s := by
  induction rounds generalizing b s with
  | zero => rfl
  | succ rounds ih =>
    simp only [iterate, run_bind, ← agree b s start]
    cases answer : (body b).run s with
    | error e t => rfl
    | ok next t =>
      cases next with
      | inl next => exact ih next (keeps b s next t start answer)
      | inr result => rfl

def mapState (f : σ → τ) : EStateM.Result (Stop ε) (Session σ) α →
    EStateM.Result (Stop ε) (Session τ) α
  | .ok a s => .ok a ⟨s.input, f s.state⟩
  | .error stop s => .error stop ⟨s.input, f s.state⟩

def finalState : EStateM.Result (Stop ε) (Session σ) α → σ
  | .ok _ s => s.state
  | .error _ s => s.state

theorem SameAnswer.finalState {related : σ → τ → Prop}
    {answer : EStateM.Result (Stop ε) (Session σ) α}
    {answer' : EStateM.Result (Stop ε) (Session τ) α} (same : SameAnswer related answer answer') :
    related (finalState answer) (ByteReaders.finalState answer') := by
  cases answer with
  | ok a s =>
    cases answer' with
    | ok b t => exact same.2.2
    | error e t => exact same.elim
  | error e s =>
    cases answer' with
    | ok b t => exact same.elim
    | error f t => exact same.2.2

theorem finalState_mapState (f : σ → τ) (answer : EStateM.Result (Stop ε) (Session σ) α) :
    finalState (mapState f answer) = f (finalState answer) := by
  cases answer <;> rfl

theorem eq_mapState {f : τ → σ} {answer : EStateM.Result (Stop ε) (Session σ) α}
    {answer' : EStateM.Result (Stop ε) (Session τ) α}
    (same : SameAnswer (fun s t => s = f t) answer answer') : answer = mapState f answer' := by
  cases answer with
  | ok a s =>
    cases answer' with
    | ok b t =>
      obtain ⟨rfl, inputs, states⟩ := same
      rw [mapState, ← inputs, ← states]
    | error e t => exact same.elim
  | error e s =>
    cases answer' with
    | ok b t => exact same.elim
    | error f t =>
      obtain ⟨rfl, inputs, states⟩ := same
      rw [mapState, ← inputs, ← states]

end simulation

section enough
variable {ε σ α β : Type} {body : β → Reader ε σ (β ⊕ α)} {inv : β × Session σ → Prop}

theorem iterate_enough (consuming : Consuming inv body) {here : β × Session σ} (start : inv here)
    {rounds rounds' : Nat} (enough : here.2.input.length < rounds)
    (enough' : here.2.input.length < rounds') :
    (iterate body rounds here.1).run here.2 = (iterate body rounds' here.1).run here.2 := by
  obtain ⟨last, result, run, ending⟩ := exists_last_round consuming start
  rw [iterate_of_runsTo consuming start enough run ending,
    iterate_of_runsTo consuming start enough' run ending]

end enough

end DropPlatform.ByteReaders
