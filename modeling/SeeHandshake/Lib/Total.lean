import SeeHandshake.Lib.Peel
import SeeHandshake.Lib.Text

/-!
# Total weights

The total weight of the elements of a list, and what is known of it from bounds on the weights: of the lists
in a list, of texts with a separator between them, of the lines of a text, and of the frames that a cutter
finds in an input.
-/

namespace SeeHandshake.Lib

/-- The total weight of the elements of a list. -/
def total {α : Type*} (w : α → ℕ) : List α → ℕ
  | [] => 0
  | x :: xs => w x + total w xs

section Total

variable {α β : Type*} {w v : α → ℕ}

@[simp] theorem total_nil (w : α → ℕ) : total w [] = 0 := rfl

@[simp] theorem total_cons (w : α → ℕ) (x : α) (xs : List α) : total w (x :: xs) = w x + total w xs := rfl

@[simp] theorem total_append (w : α → ℕ) (xs ys : List α) : total w (xs ++ ys) = total w xs + total w ys := by
  induction xs with
  | nil => exact (Nat.zero_add _).symm
  | cons x xs ih => rw [List.cons_append, total_cons, total_cons, ih, Nat.add_assoc]

theorem total_map (w : β → ℕ) (f : α → β) (xs : List α) : total w (xs.map f) = total (fun x => w (f x)) xs := by
  induction xs with
  | nil => rfl
  | cons x xs ih => rw [List.map_cons, total_cons, total_cons, ih]

theorem total_mono {xs : List α} (h : ∀ x ∈ xs, w x ≤ v x) : total w xs ≤ total v xs := by
  induction xs with
  | nil => exact Nat.le_refl 0
  | cons x xs ih =>
    have hx := h x List.mem_cons_self
    have hxs := ih fun y hy => h y (List.mem_cons_of_mem x hy)
    rw [total_cons, total_cons]
    omega

theorem total_mul (c : ℕ) (w : α → ℕ) (xs : List α) : total (fun x => c * w x) xs = c * total w xs := by
  induction xs with
  | nil => rfl
  | cons x xs ih => rw [total_cons, total_cons, ih, Nat.mul_add]

theorem total_const (c : ℕ) (xs : List α) : total (fun _ => c) xs = c * xs.length := by
  induction xs with
  | nil => rfl
  | cons x xs ih =>
    rw [total_cons, ih, List.length_cons, Nat.mul_succ]
    exact Nat.add_comm _ _

theorem total_le_mul {c : ℕ} {xs : List α} (h : ∀ x ∈ xs, w x ≤ c) : total w xs ≤ c * xs.length := by
  rw [← total_const]
  exact total_mono h

/-- Elements that weigh something each. -/
theorem length_le_total {xs : List α} (h : ∀ x ∈ xs, 0 < w x) : xs.length ≤ total w xs := by
  have hones := total_const 1 xs
  rw [Nat.one_mul] at hones
  rw [← hones]
  exact total_mono h

theorem le_total {x : α} {xs : List α} (h : x ∈ xs) : w x ≤ total w xs := by
  induction xs with
  | nil => exact absurd h List.not_mem_nil
  | cons y xs ih =>
    rw [total_cons]
    rcases List.mem_cons.mp h with rfl | h
    · exact Nat.le_add_right _ _
    · exact Nat.le_trans (ih h) (Nat.le_add_left _ _)

theorem total_filter_le (p : α → Bool) (xs : List α) : total w (xs.filter p) ≤ total w xs := by
  induction xs with
  | nil => exact Nat.le_refl 0
  | cons x xs ih =>
    rw [total_cons]
    by_cases hp : p x
    · rw [List.filter_cons_of_pos hp, total_cons]
      omega
    · rw [List.filter_cons_of_neg hp]
      omega

theorem length_flatMap_eq_total (f : α → List β) (xs : List α) :
    (xs.flatMap f).length = total (fun x => (f x).length) xs := by
  induction xs with
  | nil => rfl
  | cons x xs ih => rw [List.flatMap_cons, List.length_append, ih, total_cons]

/-- Texts with a separator between them. -/
theorem length_intercalate_le (sep : List α) (xss : List (List α)) :
    (List.intercalate sep xss).length ≤ total (fun xs => xs.length + sep.length) xss := by
  induction xss with
  | nil => exact Nat.le_refl 0
  | cons xs xss ih =>
    rw [total_cons]
    cases xss with
    | nil =>
      rw [List.intercalate_singleton]
      omega
    | cons ys xss =>
      rw [List.intercalate_cons_cons, List.length_append, List.length_append]
      omega

theorem length_stripCr_le (line : List Char) : (stripCr line).length ≤ line.length := by
  unfold stripCr
  split
  · rw [List.length_dropLast]
    exact Nat.sub_le _ _
  · exact Nat.le_refl _

theorem total_linesFrom_le (line text : List Char) :
    total List.length (linesFrom line text) ≤ line.length + text.length := by
  induction text generalizing line with
  | nil =>
    rw [linesFrom]
    split
    · exact Nat.zero_le _
    · exact Nat.le_refl _
  | cons c text ih =>
    rw [linesFrom]
    split
    · have hrest := ih []
      have hline := length_stripCr_le line
      simp only [total_cons, List.length_cons, List.length_nil] at hrest ⊢
      omega
    · have hrest := ih (line ++ [c])
      simp only [List.length_append, List.length_cons, List.length_nil] at hrest ⊢
      omega

/-- The lines of a text are no longer than the text. -/
theorem total_lines_le (text : List Char) : total List.length (lines text) ≤ text.length := by
  have hall := total_linesFrom_le [] text
  rwa [List.length_nil, Nat.zero_add] at hall

/-- Frames that weigh no more than what they are cut off weigh no more than the input. -/
theorem total_frames_le {γ ε : Type*} {cut : List γ → Cut α ε}
    (hcut : ∀ xs x n, cut xs = .frame x n → w x ≤ n ∧ n ≤ xs.length) (fuel : ℕ) (xs : List γ) :
    total w ((peelLoop cut fuel xs).frames.map Prod.fst) ≤ xs.length := by
  induction fuel generalizing xs with
  | zero => exact Nat.zero_le _
  | succ fuel ih =>
    rw [peelLoop]
    cases h : cut xs with
    | need => exact Nat.zero_le _
    | bad e => exact Nat.zero_le _
    | frame x n =>
      obtain ⟨hw, hn⟩ := hcut xs x n h
      have hrest := ih (xs.drop n)
      rw [List.length_drop] at hrest
      simp only [List.map_cons, total_cons]
      omega

end Total

end SeeHandshake.Lib
