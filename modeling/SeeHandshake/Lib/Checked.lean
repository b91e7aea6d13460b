import Mathlib.Algebra.Group.Nat.Defs
import SeeHandshake.Lib.Peel

/-!
# Computations that may panic

Slices and machine integers as a language with bounds checks has them: an index or a slice out of
bounds, a copy between slices of different lengths and an overflow panic, and so does here a loop that
does not end. A computation that never panics is a computation of a pure monad in disguise; `Embeds`
says so for the monads of optional and of fallible results, and its rules take a program apart statement
by statement.
-/

namespace SeeHandshake.Lib

/-- The ways to panic. -/
inductive Panic where
  | index
  | slice
  | copy
  | overflow
  /-- A loop that has no turn left. -/
  | diverged
  deriving DecidableEq, Repr

/-- Computations that may panic. -/
abbrev Panicking := Except Panic

namespace Panicking

/-! ## Slices and integers -/

section Operations

variable {α : Type}

/-- `xs[i]`. -/
def index (xs : List α) (i : ℕ) : Panicking α :=
  match xs[i]? with
  | some x => .ok x
  | none => .error .index

/-- `&xs[i..j]`. -/
def slice (xs : List α) (i j : ℕ) : Panicking (List α) :=
  if i ≤ j ∧ j ≤ xs.length then .ok ((xs.drop i).take (j - i)) else .error .slice

/-- `&xs[i..]`. -/
def sliceFrom (xs : List α) (i : ℕ) : Panicking (List α) :=
  if i ≤ xs.length then .ok (xs.drop i) else .error .slice

/-- `&xs[..j]`. -/
def sliceTo (xs : List α) (j : ℕ) : Panicking (List α) :=
  if j ≤ xs.length then .ok (xs.take j) else .error .slice

/-- `xs.split_at(i)`. -/
def splitAt (xs : List α) (i : ℕ) : Panicking (List α × List α) :=
  if i ≤ xs.length then .ok (xs.take i, xs.drop i) else .error .slice

/-- `out.copy_from_slice(xs)`, for an array of length `n`. -/
def copyFromSlice (n : ℕ) (xs : List α) : Panicking { out : List α // out.length = n } :=
  if h : xs.length = n then .ok ⟨xs, h⟩ else .error .copy

/-- `xs.chunks_exact(2)`. -/
def chunksExact2 : List α → List (List α)
  | a :: b :: rest => [a, b] :: chunksExact2 rest
  | _ => []

/-- `a + b` of unsigned integers of `w` bits. -/
def add (w a b : ℕ) : Panicking ℕ := if a + b < 2 ^ w then .ok (a + b) else .error .overflow

/-- `a - b` of unsigned integers. -/
def sub (a b : ℕ) : Panicking ℕ := if b ≤ a then .ok (a - b) else .error .overflow

theorem slice_eq {xs : List α} {i j : ℕ} (hij : i ≤ j) (hj : j ≤ xs.length) :
    slice xs i j = .ok ((xs.drop i).take (j - i)) := if_pos ⟨hij, hj⟩

/-- A slice of a given length. -/
theorem slice_add {xs : List α} {i n : ℕ} (h : i + n ≤ xs.length) :
    slice xs i (i + n) = .ok ((xs.drop i).take n) := by
  rw [slice_eq (Nat.le_add_right i n) h, Nat.add_sub_cancel_left]

theorem sliceFrom_eq {xs : List α} {i : ℕ} (h : i ≤ xs.length) :
    sliceFrom xs i = .ok (xs.drop i) := if_pos h

theorem sliceTo_eq {xs : List α} {j : ℕ} (h : j ≤ xs.length) :
    sliceTo xs j = .ok (xs.take j) := if_pos h

theorem splitAt_eq {xs : List α} {i : ℕ} (h : i ≤ xs.length) :
    splitAt xs i = .ok (xs.take i, xs.drop i) := if_pos h

theorem copyFromSlice_eq {n : ℕ} {xs : List α} (h : xs.length = n) :
    copyFromSlice n xs = .ok ⟨xs, h⟩ := dif_pos h

theorem add_eq {w a b : ℕ} (h : a + b < 2 ^ w) : add w a b = .ok (a + b) := if_pos h

/-- On a machine of at least 32 bits. -/
theorem add_small {w a b : ℕ} (hw : 32 ≤ w) (h : a + b < 2 ^ 32) : add w a b = .ok (a + b) :=
  add_eq (Nat.lt_of_lt_of_le h (Nat.pow_le_pow_right Nat.two_pos hw))

theorem sub_eq {a b : ℕ} (h : b ≤ a) : sub a b = .ok (a - b) := if_pos h

theorem index_eq {xs : List α} {i : ℕ} {x : α} (h : xs[i]? = some x) : index xs i = .ok x := by
  unfold index
  rw [h]

end Operations

/-! ## Loops -/

/-- A loop that goes round until its body is done, in at most `fuel` turns. -/
def loop {m : Type → Type} [Monad m] [MonadLiftT Panicking m] {σ : Type} (body : σ → m (ForInStep σ)) :
    ℕ → σ → m σ
  | 0, _ => liftM (Except.error Panic.diverged : Panicking σ)
  | fuel + 1, s => do
    match ← body s with
    | .done s => return s
    | .yield s => loop body fuel s

/-! ## Computations that do not panic -/

/-- The computations of `n` among those of `m`, which may panic. -/
class Embeds (n m : Type → Type) [Monad n] [Monad m] where
  embed {α : Type} : n α → m α
  embed_pure {α : Type} (a : α) : embed (pure a) = pure a
  embed_bind {α β : Type} (x : n α) (f : α → n β) :
    embed (x >>= f) = embed x >>= fun a => embed (f a)

instance : Embeds Id Panicking where
  embed a := .ok a
  embed_pure _ := rfl
  embed_bind _ _ := rfl

instance : Embeds Option (OptionT Panicking) where
  embed o := OptionT.mk (.ok o)
  embed_pure _ := rfl
  embed_bind o f := by cases o <;> rfl

instance {ε : Type} : Embeds (Except ε) (ExceptT ε Panicking) where
  embed r := ExceptT.mk (.ok r)
  embed_pure _ := rfl
  embed_bind r f := by cases r <;> rfl

open Embeds

section Rules

variable {n m : Type → Type} [Monad n] [Monad m] {α β : Type}

/-- An operation that does not panic. -/
theorem lift_ok [MonadLiftT Panicking m] [LawfulMonadLiftT Panicking m] (a : α) :
    (liftM (Except.ok a : Panicking α) : m α) = pure a := monadLift_pure a

theorem ok_bind (a : α) (k : α → Panicking β) : (Except.ok a : Panicking α) >>= k = k a := rfl

/-- The parts of a computation that did not panic. -/
theorem exists_of_bind_eq_ok {x : Panicking α} {k : α → Panicking β} {b : β} (h : x >>= k = .ok b) :
    ∃ a, x = .ok a ∧ k a = .ok b := by
  cases x with
  | error e => cases h
  | ok a => exact ⟨a, rfl, h⟩

theorem map_eq_ok_iff {f : α → β} {x : Panicking α} {b : β} :
    f <$> x = .ok b ↔ ∃ a, x = .ok a ∧ b = f a := by
  cases x with
  | error e =>
    refine iff_of_false ?_ ?_
    · intro h
      cases h
    · rintro ⟨a, h, -⟩
      cases h
  | ok a =>
    constructor
    · intro h
      cases h
      exact ⟨a, rfl, rfl⟩
    · rintro ⟨a', h, rfl⟩
      cases h
      rfl

/-- A call of a function that does not panic. -/
theorem bind_embed [Embeds n m] {x : m α} {y : n α} {k : α → m β} {f : α → n β} (hx : x = embed y)
    (hk : ∀ a, k a = embed (f a)) : x >>= k = embed (y >>= f) := by
  rw [hx, embed_bind, funext hk]

end Rules

/-! ## Loops that cut frames off an input -/

section Loops

variable {n m : Type → Type} [Monad n] [Monad m] {σ γ δ ε : Type}

/-- One turn of a loop that cuts frames off an input: the input of a state, the state after a frame, and
what happens where no frame can start. -/
def turn (cut : List γ → Cut δ ε) (rest : σ → List γ) (emit : σ → δ → ℕ → σ)
    (bad : ε → n (ForInStep σ)) (s : σ) : n (ForInStep σ) :=
  match cut (rest s) with
  | .need => pure (.done s)
  | .bad e => bad e
  | .frame r k => pure (.yield (emit s r k))

/-- What such a loop makes of the peeling of its input. -/
def outcome (emit : σ → δ → ℕ → σ) (stopped : ε → n σ) (s : σ) (p : Peeled γ δ ε) : n σ :=
  match p.stop with
  | some e => stopped e
  | none => pure (p.frames.foldl (fun s f => emit s f.1 f.2.length) s)

variable [MonadLiftT Panicking m] [LawfulMonad m] [Embeds n m] {S : Cutter γ δ ε}
  {rest : σ → List γ} {emit : σ → δ → ℕ → σ} {I : σ → Prop} {bad : ε → n (ForInStep σ)}
  {stopped : ε → n σ} {body : σ → m (ForInStep σ)}

/-- A loop whose turns cut frames off an input does not panic, and ends. -/
theorem loop_eq (hbody : ∀ s, I s → body s = embed (turn S.cut rest emit bad s))
    (hbad : ∀ xs e, S.cut xs = .bad e → ∀ k : ForInStep σ → m σ,
      (embed (bad e) : m (ForInStep σ)) >>= k = embed (stopped e))
    (hemit : ∀ s r k, I s → S.cut (rest s) = .frame r k →
      I (emit s r k) ∧ rest (emit s r k) = (rest s).drop k)
    {fuel : ℕ} {s : σ} (hs : I s) (hfuel : (rest s).length < fuel) :
    loop body fuel s = embed (outcome emit stopped s (S.peel (rest s))) := by
  induction fuel generalizing s with
  | zero => exact absurd hfuel (Nat.not_lt_zero _)
  | succ fuel ih =>
    rw [loop, hbody s hs]
    unfold turn outcome
    cases hcut : S.cut (rest s) with
    | need =>
      rw [Cutter.peel_need hcut]
      simp only
      rw [embed_pure, pure_bind]
      exact (embed_pure _).symm
    | bad e =>
      rw [Cutter.peel_bad hcut]
      exact hbad _ _ hcut _
    | frame r k =>
      obtain ⟨hinv, hrest⟩ := hemit s r k hs hcut
      obtain ⟨hpos, hle⟩ := S.frame_bounds _ _ _ hcut
      have hshorter : (rest (emit s r k)).length < fuel := by
        rw [hrest, List.length_drop]
        omega
      simp only
      rw [embed_pure, pure_bind]
      simp only
      rw [ih hinv hshorter, Cutter.peel_frame hcut, hrest]
      unfold outcome
      rw [List.foldl_cons, List.length_take, Nat.min_eq_left hle]

/-- The state of a loop over the entries of a slice: the cursor and the entries so far. -/
def emitEntry (s : List γ × List δ) (r : δ) (k : ℕ) : List γ × List δ := (s.1.drop k, s.2 ++ [r])

theorem foldl_emitEntry (xs : List γ) (entries : List δ) :
    (S.peel xs).frames.foldl (fun s f => emitEntry s f.1 f.2.length) (xs, entries) =
      ((S.peel xs).rest, entries ++ (S.peel xs).frames.map Prod.fst) := by
  induction xs using S.peel_induction generalizing entries with
  | need xs h => rw [Cutter.peel_need h, List.foldl_nil, List.map_nil, List.append_nil]
  | bad xs e h => rw [Cutter.peel_bad h, List.foldl_nil, List.map_nil, List.append_nil]
  | frame xs r k h ih =>
    obtain ⟨-, hle⟩ := S.frame_bounds _ _ _ h
    rw [Cutter.peel_frame h, List.foldl_cons, emitEntry, List.length_take, Nat.min_eq_left hle, ih]
    simp only [List.map_cons, List.append_assoc, List.singleton_append]

end Loops

end Panicking

end SeeHandshake.Lib
