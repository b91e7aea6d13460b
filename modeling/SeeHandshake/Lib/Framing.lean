import SeeHandshake.Lib.Peel

/-!
# Framings

A `Framing` is a cutter with a way to write its frames: the cutter cuts a written frame off the front
of any input, and cuts off nothing else. Then peeling undoes writing (`peel_writeAll`), writing undoes
peeling (`writeAll_frames`), and an input is a sequence of written frames in one way at most
(`writeAll_unique`).
-/

namespace SeeHandshake.Lib

/-- A cutter that cuts off exactly what `write` writes of the values that `Fits` admits. -/
structure Framing (α β ε : Type*) extends Cutter α β ε where
  /-- The symbols of a frame. -/
  write : β → List α
  /-- The frames that can be written. -/
  Fits : β → Prop
  cut_write : ∀ v rest, Fits v → cut (write v ++ rest) = .frame v (write v).length
  fits_of_cut : ∀ xs v n, cut xs = .frame v n → Fits v
  write_of_cut : ∀ xs v n, cut xs = .frame v n → write v = xs.take n

/-- The input is a sequence of whole frames. -/
def Whole {α β ε : Type*} (cut : List α → Cut β ε) (xs : List α) : Prop :=
  (peelLoop cut (xs.length + 1) xs).rest = []

instance {α β ε : Type*} (cut : List α → Cut β ε) (xs : List α) : Decidable (Whole cut xs) :=
  decidable_of_iff ((peelLoop cut (xs.length + 1) xs).rest.isEmpty) List.isEmpty_iff

namespace Framing

open Cutter

variable {α β ε : Type*} (S : Framing α β ε)

/-- The symbols of a sequence of frames. -/
def writeAll (vs : List β) : List α := (vs.map S.write).flatten

/-- No frame starts the input. -/
def Stuck (xs : List α) : Prop := ∀ v n, S.cut xs ≠ .frame v n

variable {S}

@[simp] theorem writeAll_nil : S.writeAll [] = [] := rfl

@[simp] theorem writeAll_cons (v : β) (vs : List β) :
    S.writeAll (v :: vs) = S.write v ++ S.writeAll vs := rfl

theorem peel_write {v : β} (hv : S.Fits v) (rest : List α) :
    S.peel (S.write v ++ rest) =
      ⟨(v, S.write v) :: (S.peel rest).frames, (S.peel rest).rest, (S.peel rest).stop⟩ := by
  rw [peel_frame (S.cut_write v rest hv), List.take_left, List.drop_left]

/-- Peeling undoes writing. -/
theorem peel_writeAll {vs : List β} (hvs : ∀ v ∈ vs, S.Fits v) (rest : List α) :
    S.peel (S.writeAll vs ++ rest) =
      ⟨vs.map (fun v => (v, S.write v)) ++ (S.peel rest).frames, (S.peel rest).rest,
        (S.peel rest).stop⟩ := by
  induction vs with
  | nil => rfl
  | cons v vs ih =>
    obtain ⟨hv, hvs⟩ := List.forall_mem_cons.mp hvs
    rw [writeAll_cons, List.append_assoc, peel_write hv, ih hvs]
    rfl

/-- Only frames that can be written are peeled off, and writing undoes peeling. -/
theorem writeAll_frames (xs : List α) :
    (∀ v ∈ (S.peel xs).frames.map Prod.fst, S.Fits v) ∧
      S.writeAll ((S.peel xs).frames.map Prod.fst) ++ (S.peel xs).rest = xs := by
  induction xs using S.peel_induction with
  | need xs h => simp [peel_need h]
  | bad xs e h => simp [peel_bad h]
  | frame xs v n h ih =>
    obtain ⟨hfits, hwrite⟩ := ih
    rw [peel_frame h]
    refine ⟨List.forall_mem_cons.mpr ⟨S.fits_of_cut xs v n h, hfits⟩, ?_⟩
    rw [List.map_cons, writeAll_cons, List.append_assoc, hwrite, S.write_of_cut xs v n h,
      List.take_append_drop]

theorem peel_of_stuck {xs : List α} (h : S.Stuck xs) :
    (S.peel xs).frames = [] ∧ (S.peel xs).rest = xs := by
  cases hc : S.cut xs with
  | need => rw [peel_need hc]; exact ⟨rfl, rfl⟩
  | bad e => rw [peel_bad hc]; exact ⟨rfl, rfl⟩
  | frame v n => exact absurd hc (h v n)

/-- An input is a sequence of frames and a remainder that starts with none in one way only, the way
that peeling finds. -/
theorem peel_of_writeAll {vs : List β} {rest xs : List α} (hvs : ∀ v ∈ vs, S.Fits v)
    (hrest : S.Stuck rest) (h : xs = S.writeAll vs ++ rest) :
    (S.peel xs).frames.map Prod.fst = vs ∧ (S.peel xs).rest = rest := by
  obtain ⟨hframes, hkept⟩ := peel_of_stuck hrest
  rw [h, peel_writeAll hvs]
  simp [hframes, hkept, Function.comp_def]

theorem writeAll_unique {vs ws : List β} {rest rest' : List α} (hvs : ∀ v ∈ vs, S.Fits v)
    (hws : ∀ v ∈ ws, S.Fits v) (hrest : S.Stuck rest) (hrest' : S.Stuck rest')
    (h : S.writeAll vs ++ rest = S.writeAll ws ++ rest') : vs = ws ∧ rest = rest' := by
  obtain ⟨hv, hr⟩ := peel_of_writeAll hvs hrest rfl
  obtain ⟨hw, hr'⟩ := peel_of_writeAll hws hrest' h
  exact ⟨hv.symm.trans hw, hr.symm.trans hr'⟩

theorem peel_of_need {vs : List β} {rest xs : List α} (hvs : ∀ v ∈ vs, S.Fits v)
    (hrest : S.cut rest = .need) (h : xs = S.writeAll vs ++ rest) :
    (S.peel xs).frames.map Prod.fst = vs ∧ (S.peel xs).rest = rest ∧ (S.peel xs).stop = none := by
  rw [h, peel_writeAll hvs, peel_need hrest]
  simp [Function.comp_def]

theorem peel_of_bad {vs : List β} {rest xs : List α} {e : ε} (hvs : ∀ v ∈ vs, S.Fits v)
    (hrest : S.cut rest = .bad e) (h : xs = S.writeAll vs ++ rest) :
    (S.peel xs).frames.map Prod.fst = vs ∧ (S.peel xs).rest = rest ∧ (S.peel xs).stop = some e := by
  rw [h, peel_writeAll hvs, peel_bad hrest]
  simp [Function.comp_def]

/-- The loop finds the frames that were written. -/
theorem peelLoop_writeAll (hnil : S.cut [] = .need) {vs : List β} (hvs : ∀ v ∈ vs, S.Fits v)
    {fuel : ℕ} (hfuel : (S.writeAll vs).length < fuel) :
    peelLoop S.cut fuel (S.writeAll vs) = ⟨vs.map fun v => (v, S.write v), [], none⟩ := by
  have hpeel := peel_writeAll hvs ([] : List α)
  rw [peel_need hnil, List.append_nil] at hpeel
  rw [peelLoop_eq_peel hfuel, hpeel, List.append_nil]

/-- When the loop leaves nothing, the input is what its frames are written as. -/
theorem writeAll_peelLoop {xs : List α} (h : Whole S.cut xs) {fuel : ℕ} (hfuel : xs.length < fuel) :
    (∀ v ∈ (peelLoop S.cut fuel xs).frames.map Prod.fst, S.Fits v) ∧
      S.writeAll ((peelLoop S.cut fuel xs).frames.map Prod.fst) = xs := by
  unfold Whole at h
  rw [peelLoop_eq_peel (Nat.lt_succ_self _)] at h
  rw [peelLoop_eq_peel hfuel]
  obtain ⟨hfits, hwrite⟩ := writeAll_frames (S := S) xs
  rw [h, List.append_nil] at hwrite
  exact ⟨hfits, hwrite⟩

/-- The input is a sequence of whole frames iff it is what some frames are written as. -/
theorem whole_iff (hnil : S.cut [] = .need) {xs : List α} :
    Whole S.cut xs ↔ ∃ vs, (∀ v ∈ vs, S.Fits v) ∧ xs = S.writeAll vs := by
  constructor
  · intro h
    obtain ⟨hfits, hwrite⟩ := writeAll_peelLoop h (Nat.lt_succ_self _)
    exact ⟨_, hfits, hwrite.symm⟩
  · rintro ⟨vs, hvs, rfl⟩
    unfold Whole
    rw [peelLoop_writeAll hnil hvs (Nat.lt_succ_self _)]

end Framing

end SeeHandshake.Lib
