import Mathlib.Data.List.Monad
import Mathlib.Logic.Function.Basic
import SeeHandshake.Lib.Peel

/-!
# Receivers of several framed streams

A receiver reassembles the frames of several streams that arrive in chunks: per stream it buffers
the symbols that are not framed yet, and every frame changes a common core state. How the streams
were cut into chunks does not matter: two lists of nonempty chunks that carry the same tagged
symbols in the same order leave the receiver in the same state (`feedAll_congr`).
-/

namespace SeeHandshake.Lib

/-- The state of a receiver: the common core, and the buffered symbols of each stream. -/
structure Receiver (σ ι α : Type*) where
  /-- The state the frames act on. -/
  core : σ
  /-- The symbols of each stream that are not framed yet. -/
  buf : ι → List α

namespace Receiver

variable {σ ι α β ε : Type*} [DecidableEq ι] (S : Splitter α β ε)
variable (step : ι → σ → β × List α → σ)

/-- Receive a chunk of one stream; `none` when the splitter refuses the buffered symbols. -/
def feed (st : Receiver σ ι α) (c : ι × List α) : Option (Receiver σ ι α) :=
  match (S.peel (st.buf c.1 ++ c.2)).stop with
  | some _ => none
  | none => some
      ⟨(S.peel (st.buf c.1 ++ c.2)).frames.foldl (step c.1) st.core,
        Function.update st.buf c.1 (S.peel (st.buf c.1 ++ c.2)).rest⟩

/-- Receive a list of chunks. -/
def feedAll (st : Receiver σ ι α) (cs : List (ι × List α)) : Option (Receiver σ ι α) :=
  cs.foldlM (feed S step) st

/-- The symbols of a list of chunks in order of arrival, each tagged with its stream. -/
def tagged (cs : List (ι × List α)) : List (ι × α) := cs.flatMap fun c => c.2.map (c.1, ·)

omit [DecidableEq ι] in
@[simp] theorem tagged_nil : tagged ([] : List (ι × List α)) = [] := rfl

omit [DecidableEq ι] in
@[simp] theorem tagged_cons (c : ι × List α) (cs : List (ι × List α)) :
    tagged (c :: cs) = c.2.map (c.1, ·) ++ tagged cs := rfl

omit [DecidableEq ι] in
@[simp] theorem tagged_append (cs ds : List (ι × List α)) :
    tagged (cs ++ ds) = tagged cs ++ tagged ds := by
  simp [tagged]

variable {S step}

theorem feed_isSome_iff {st : Receiver σ ι α} {c : ι × List α} :
    (feed S step st c).isSome ↔ (S.peel (st.buf c.1 ++ c.2)).stop = none := by
  unfold feed
  split <;> simp_all

theorem feed_eq_some (st : Receiver σ ι α) (c : ι × List α)
    (h : (S.peel (st.buf c.1 ++ c.2)).stop = none) :
    feed S step st c = some
      ⟨(S.peel (st.buf c.1 ++ c.2)).frames.foldl (step c.1) st.core,
        Function.update st.buf c.1 (S.peel (st.buf c.1 ++ c.2)).rest⟩ := by
  unfold feed
  rw [h]

/-- Receiving `xs ++ ys` is receiving `xs` and then `ys`. -/
theorem feed_append (st : Receiver σ ι α) (i : ι) (xs ys : List α) :
    feed S step st (i, xs ++ ys) = (feed S step st (i, xs)).bind fun st => feed S step st (i, ys) := by
  have happ := S.peel_append (st.buf i ++ xs) ys
  cases hx : (S.peel (st.buf i ++ xs)).stop with
  | some e =>
    rw [hx, List.append_assoc] at happ
    simp [feed, hx, happ]
  | none =>
    rw [hx, List.append_assoc] at happ
    rw [feed_eq_some st (i, xs) hx, Option.bind_some]
    simp only [feed, happ, Function.update_self, Function.update_idem, List.foldl_append]

theorem feedAll_cons (st : Receiver σ ι α) (c : ι × List α) (cs : List (ι × List α)) :
    feedAll S step st (c :: cs) = (feed S step st c).bind fun st => feedAll S step st cs := by
  simp only [feedAll, List.foldlM_cons]
  rfl

theorem feedAll_append (st : Receiver σ ι α) (cs ds : List (ι × List α)) :
    feedAll S step st (cs ++ ds) = (feedAll S step st cs).bind fun st => feedAll S step st ds := by
  simp only [feedAll, List.foldlM_append]
  rfl

/-- Receiving a nonempty chunk is receiving its symbols one at a time. -/
theorem feed_eq_foldlM (i : ι) (xs : List α) (hx : xs ≠ []) :
    ∀ st : Receiver σ ι α, feed S step st (i, xs) =
      (xs.map (i, ·)).foldlM (fun st x => feed S step st (x.1, [x.2])) st := by
  induction xs with
  | nil => exact absurd rfl hx
  | cons x xs ih =>
    intro st
    cases xs with
    | nil => simp
    | cons y ys =>
      rw [List.map_cons, List.foldlM_cons, ← List.singleton_append, feed_append]
      exact Option.bind_congr fun st' _ => ih (List.cons_ne_nil _ _) st'

/-- The state after a list of nonempty chunks is a function of their tagged symbols. -/
theorem feedAll_eq_foldlM (cs : List (ι × List α)) (hc : ∀ c ∈ cs, c.2 ≠ []) :
    ∀ st : Receiver σ ι α, feedAll S step st cs =
      (tagged cs).foldlM (fun st x => feed S step st (x.1, [x.2])) st := by
  induction cs with
  | nil => intro st; rfl
  | cons c cs ih =>
    intro st
    rw [tagged_cons, List.foldlM_append, ← feed_eq_foldlM c.1 c.2 (hc c (by simp)), feedAll,
      List.foldlM_cons]
    exact Option.bind_congr fun st' _ => ih (fun d hd => hc d (List.mem_cons_of_mem _ hd)) st'

/-- How the streams were cut into nonempty chunks does not matter. -/
theorem feedAll_congr {cs ds : List (ι × List α)} (hc : ∀ c ∈ cs, c.2 ≠ []) (hd : ∀ c ∈ ds, c.2 ≠ [])
    (h : tagged cs = tagged ds) (st : Receiver σ ι α) :
    feedAll S step st cs = feedAll S step st ds := by
  rw [feedAll_eq_foldlM cs hc, feedAll_eq_foldlM ds hd, h]

/-- A receiver that accepts some chunks accepted every initial part of their symbols. -/
theorem feedAll_isSome_of_initial {cs ds : List (ι × List α)} (hc : ∀ c ∈ cs, c.2 ≠ [])
    (hd : ∀ c ∈ ds, c.2 ≠ []) (h : tagged cs <+: tagged ds) {st : Receiver σ ι α}
    (hs : (feedAll S step st ds).isSome) : (feedAll S step st cs).isSome := by
  obtain ⟨t, ht⟩ := h
  rw [feedAll_eq_foldlM ds hd, ← ht, List.foldlM_append] at hs
  rw [feedAll_eq_foldlM cs hc]
  exact Option.isSome_of_isSome_bind hs

end Receiver

end SeeHandshake.Lib
