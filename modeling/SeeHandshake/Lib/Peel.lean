import Mathlib.Data.List.Basic

/-!
# Greedy framing of a stream

A `Cutter` looks at the front of an input and either cuts one frame off it, waits for more input, or
gives up; `Cutter.peel` cuts frames off as long as it can. A `Splitter` is a cutter whose decisions
are not undone by further input. The main result, `Splitter.peel_append`, says that its peeling is
incremental: what is peeled off `xs ++ ys` is what is peeled off `xs`, followed by what is peeled off
the remainder of `xs` extended by `ys`.
-/

namespace SeeHandshake.Lib

/-- What a cutter finds at the front of an input. -/
inductive Cut (β ε : Type*) where
  /-- The input is too short to decide. -/
  | need
  /-- The input cannot start with a frame. -/
  | bad (e : ε)
  /-- The first `n` symbols are the frame `r`. -/
  | frame (r : β) (n : ℕ)

/-- A way to cut frames off the front of an input. -/
structure Cutter (α β ε : Type*) where
  /-- The decision at the front of an input. -/
  cut : List α → Cut β ε
  /-- A frame is nonempty and lies inside the input. -/
  frame_bounds : ∀ xs r n, cut xs = .frame r n → 0 < n ∧ n ≤ xs.length

/-- A cutter whose decisions are not undone by further input. -/
structure Splitter (α β ε : Type*) extends Cutter α β ε where
  /-- Further input does not change a frame. -/
  frame_append : ∀ xs ys r n, cut xs = .frame r n → cut (xs ++ ys) = .frame r n
  /-- Further input does not change a refusal. -/
  bad_append : ∀ xs ys e, cut xs = .bad e → cut (xs ++ ys) = .bad e

/-- The result of peeling: the frames, each with the symbols it was cut from, what remains, and the
refusal that stopped the peeling, if any. -/
structure Peeled (α β ε : Type*) where
  /-- The frames and the symbols they were cut from, in order. -/
  frames : List (β × List α)
  /-- The remaining input. -/
  rest : List α
  /-- The refusal at the front of `rest`, if there is one. -/
  stop : Option ε

/-- Cut frames off `xs` as long as possible, in at most `fuel` turns. -/
def peelLoop {α β ε : Type*} (cut : List α → Cut β ε) : ℕ → List α → Peeled α β ε
  | 0, xs => ⟨[], xs, none⟩
  | fuel + 1, xs =>
    match cut xs with
    | .need => ⟨[], xs, none⟩
    | .bad e => ⟨[], xs, some e⟩
    | .frame r n =>
      let p := peelLoop cut fuel (xs.drop n)
      ⟨(r, xs.take n) :: p.frames, p.rest, p.stop⟩

namespace Cutter

variable {α β ε : Type*} (S : Cutter α β ε)

/-- Cut frames off `xs` as long as possible. -/
def peel (xs : List α) : Peeled α β ε :=
  match _h : S.cut xs with
  | .need => ⟨[], xs, none⟩
  | .bad e => ⟨[], xs, some e⟩
  | .frame r n =>
    let p := peel (xs.drop n)
    ⟨(r, xs.take n) :: p.frames, p.rest, p.stop⟩
termination_by xs.length
decreasing_by
  have := S.frame_bounds _ _ _ _h
  simp only [List.length_drop]
  omega

variable {S}

theorem peel_need {xs : List α} (h : S.cut xs = .need) : S.peel xs = ⟨[], xs, none⟩ := by
  rw [peel]
  split <;> simp_all

theorem peel_bad {xs : List α} {e : ε} (h : S.cut xs = .bad e) :
    S.peel xs = ⟨[], xs, some e⟩ := by
  rw [peel]
  split <;> simp_all

theorem peel_frame {xs : List α} {r : β} {n : ℕ} (h : S.cut xs = .frame r n) :
    S.peel xs = ⟨(r, xs.take n) :: (S.peel (xs.drop n)).frames, (S.peel (xs.drop n)).rest,
      (S.peel (xs.drop n)).stop⟩ := by
  rw [peel]
  split
  · simp_all
  · simp_all
  · rename_i r' n' h'
    obtain ⟨rfl, rfl⟩ : r' = r ∧ n' = n := by simpa [h] using h'.symm
    rfl

/-- Induction along the frames of an input. -/
theorem peel_induction {motive : List α → Prop}
    (need : ∀ xs, S.cut xs = .need → motive xs)
    (bad : ∀ xs e, S.cut xs = .bad e → motive xs)
    (frame : ∀ xs r n, S.cut xs = .frame r n → motive (xs.drop n) → motive xs)
    (xs : List α) : motive xs := by
  induction hk : xs.length using Nat.strongRecOn generalizing xs with
  | ind k ih =>
    cases h : S.cut xs with
    | need => exact need xs h
    | bad e => exact bad xs e h
    | frame r n =>
      have hb := S.frame_bounds _ _ _ h
      exact frame xs r n h (ih _ (by simp only [List.length_drop]; omega) _ rfl)

/-- The loop computes `peel` when it has a turn for every symbol and one to stop. -/
theorem peelLoop_eq_peel {fuel : ℕ} {xs : List α} (h : xs.length < fuel) :
    peelLoop S.cut fuel xs = S.peel xs := by
  induction fuel generalizing xs with
  | zero => omega
  | succ fuel ih =>
    rw [peelLoop]
    cases hc : S.cut xs with
    | need => rw [peel_need hc]
    | bad e => rw [peel_bad hc]
    | frame r n =>
      have hb := S.frame_bounds _ _ _ hc
      have hlen : (xs.drop n).length < fuel := by
        simp only [List.length_drop]
        omega
      have hrec := ih hlen
      rw [peel_frame hc]
      simp only [hrec]

/-- Peeling loses nothing: the symbols of the frames and the remainder make up the input. -/
theorem peel_flatten (xs : List α) :
    ((S.peel xs).frames.map Prod.snd).flatten ++ (S.peel xs).rest = xs := by
  induction xs using S.peel_induction with
  | need xs h => simp [peel_need h]
  | bad xs e h => simp [peel_bad h]
  | frame xs r n h ih => simp [peel_frame h, List.append_assoc, ih]

theorem rest_length_le (xs : List α) : (S.peel xs).rest.length ≤ xs.length := by
  have h := congrArg List.length (S.peel_flatten xs)
  rw [List.length_append] at h
  omega

/-- The cutter is undecided or gives up at the front of what remains. -/
theorem cut_rest (xs : List α) :
    S.cut (S.peel xs).rest = match (S.peel xs).stop with
      | none => .need
      | some e => .bad e := by
  induction xs using S.peel_induction with
  | need xs h => simp [peel_need h, h]
  | bad xs e h => simp [peel_bad h, h]
  | frame xs r n h ih => simpa [peel_frame h] using ih

/-- Every frame is what the cutter cuts off its own symbols, all of them. -/
theorem cut_of_mem_frames (loc : ∀ xs r n, S.cut xs = .frame r n → S.cut (xs.take n) = .frame r n)
    (xs : List α) : ∀ f ∈ (S.peel xs).frames, S.cut f.2 = .frame f.1 f.2.length := by
  induction xs using S.peel_induction with
  | need xs h => simp [peel_need h]
  | bad xs e h => simp [peel_bad h]
  | frame xs r n h ih =>
    intro f hf
    rw [peel_frame h] at hf
    rcases List.mem_cons.mp hf with rfl | hf
    · have hb := S.frame_bounds _ _ _ h
      simpa [Nat.min_eq_left hb.2] using loc _ _ _ h
    · exact ih f hf

end Cutter

namespace Splitter

open Cutter

variable {α β ε : Type*} {S : Splitter α β ε}

/-- Peeling is incremental. -/
theorem peel_append (xs ys : List α) :
    S.peel (xs ++ ys) = match (S.peel xs).stop with
      | some e => ⟨(S.peel xs).frames, (S.peel xs).rest ++ ys, some e⟩
      | none => ⟨(S.peel xs).frames ++ (S.peel ((S.peel xs).rest ++ ys)).frames,
          (S.peel ((S.peel xs).rest ++ ys)).rest, (S.peel ((S.peel xs).rest ++ ys)).stop⟩ := by
  induction xs using S.peel_induction with
  | need xs h => simp [peel_need h]
  | bad xs e h => simp [peel_bad h, peel_bad (S.bad_append _ ys _ h)]
  | frame xs r n h ih =>
    have hb := S.frame_bounds _ _ _ h
    rw [peel_frame (S.frame_append _ ys _ _ h), List.drop_append_of_le_length hb.2,
      List.take_append_of_le_length hb.2, ih, peel_frame h]
    cases (S.peel (xs.drop n)).stop <;> simp

/-- When peeling `xs ++ ys` meets no refusal, neither does peeling `xs`. -/
theorem stop_none_of_append {xs ys : List α} (h : (S.peel (xs ++ ys)).stop = none) :
    (S.peel xs).stop = none := by
  rw [peel_append] at h
  cases hs : (S.peel xs).stop with
  | none => rfl
  | some e => simp [hs] at h

end Splitter

end SeeHandshake.Lib
