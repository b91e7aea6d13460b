import SeeHandshake.Proofs.TextSizeProofs
import SeeHandshake.Ui.Panels

/-!
# The flow diagram

The rows of the diagram are drawn without a panic at any width, they are as wide as the pane if that has 20
columns at least, and the row of a step stands where the stage is in the order of the version.
-/

namespace SeeHandshake

open Lib Panicking

/-! ## Rows -/

/-- An arrow fills its columns, if there is room for its heads, and has its label in full, if there is room
for it. -/
theorem makeArrow_ok (dir : FlowDir) (label : List Char) (width : ℕ) :
    ∃ arrow, makeArrow dir label width = .ok arrow ∧ arrow.length = max dir.heads width ∧
      (label.length + dir.heads ≤ width → label <:+: arrow) := by
  unfold makeArrow
  simp only
  by_cases hcut : width ≤ label.length + dir.heads
  · have htake : (label.take (width - dir.heads)).length = width - dir.heads := by
      rw [List.length_take]
      omega
    rw [if_pos hcut, sliceTo_eq (by omega), ok_bind]
    refine ⟨_, rfl, ?_, ?_⟩
    · cases dir <;> simp only [FlowDir.heads, List.length_append, List.length_cons, List.length_nil] at htake ⊢ <;>
        omega
    · intro hle
      rw [List.take_of_length_le (by omega)]
      have hself : label <:+: label ++ ['►'] := (List.prefix_append _ _).isInfix
      cases dir with
      | right => exact hself
      | left => exact List.infix_cons (List.infix_refl label)
      | both => exact List.infix_cons hself
  · rw [if_neg hcut, sub_eq (by omega), ok_bind, sub_eq (by omega), ok_bind, sub_eq (by omega), ok_bind]
    refine ⟨_, rfl, ?_, fun _ => ?_⟩
    · cases dir <;> simp only [FlowDir.heads, List.length_append, List.length_cons, List.length_nil,
        List.length_replicate] at hcut ⊢ <;> omega
    · have hdashes : ∀ l r : List Char, label <:+: l ++ label ++ r := fun l r => ⟨l, r, rfl⟩
      cases dir with
      | right => exact (hdashes _ _).trans (List.prefix_append _ _).isInfix
      | left => exact List.infix_cons (hdashes _ _)
      | both => exact List.infix_cons ((hdashes _ _).trans (List.prefix_append _ _).isInfix)

/-- The columns of a row of a step. -/
def stepWidth (stage : HandshakeStage) (tls12 : Bool) (innerWidth : ℕ) : ℕ :=
  8 + max (stepMeta stage tls12).2.1.heads (cw innerWidth)

/-- What is seen of the row of a step: its width, its style, and the name of the stage. -/
structure ShowsStep (tls12 : Bool) (innerWidth : ℕ) (stage : HandshakeStage) (style : Style) (row : Line Style) :
    Prop where
  width : row.chars.length = stepWidth stage tls12 innerWidth
  styled : ∀ c ∈ row.chars, c.2 = style ∨ c = ('│', barStyle)
  label : stage.label.toList.length + (stepMeta stage tls12).2.1.heads ≤ cw innerWidth →
    stage.label.toList <:+: row.chars.map Prod.fst

theorem map_fst_chars (spans : List (Span Style)) :
    (Line.ofSpans spans).chars.map Prod.fst = spans.flatMap fun s => s.content := by
  show (spans.flatMap Span.chars).map Prod.fst = _
  rw [List.map_flatMap]
  refine List.flatMap_congr fun s _ => ?_
  show (s.content.map fun c => (c, s.style)).map Prod.fst = s.content
  rw [List.map_map]
  exact List.map_id _

theorem content_within {span : Span Style} {spans : List (Span Style)} (h : span ∈ spans) :
    span.content <:+: (Line.ofSpans spans).chars.map Prod.fst := by
  obtain ⟨before, after, rfl⟩ := List.append_of_mem h
  rw [map_fst_chars, List.flatMap_append, List.flatMap_cons, ← List.append_assoc]
  exact ⟨_, _, rfl⟩

theorem stepLine_ok (stage : HandshakeStage) (innerWidth : ℕ) (isCursor isCurrent isPast tls12 : Bool) :
    ∃ row, stepLine stage innerWidth isCursor isCurrent isPast tls12 = .ok row ∧
      ShowsStep tls12 innerWidth stage (stepStyle isCursor isCurrent isPast) row := by
  obtain ⟨arrow, harrow, hwidth, hlabel⟩ :=
    makeArrow_ok (stepMeta stage tls12).2.1 stage.label.toList (cw innerWidth)
  unfold stepLine
  rcases hmeta : stepMeta stage tls12 with ⟨stepN, dir, encrypted⟩
  rw [hmeta] at harrow hwidth hlabel
  simp only at harrow hwidth hlabel ⊢
  rw [harrow, ok_bind]
  refine ⟨_, rfl, ?_, ?_, ?_⟩
  · unfold stepWidth
    rw [hmeta]
    cases dir <;> cases encrypted <;> simp only [length_chars_cons, length_chars_nil, SeeHandshake.styled, barSpan,
      List.length_cons, List.length_nil, if_true, Bool.false_eq_true, if_false, hwidth] <;> omega
  · intro c hc
    obtain ⟨span, hspan, hc⟩ := List.mem_flatMap.mp hc
    obtain ⟨ch, hch, rfl⟩ := List.mem_map.mp hc
    simp only [Line.ofSpans, List.mem_cons, List.not_mem_nil, or_false] at hspan
    rcases hspan with rfl | rfl | rfl | rfl | rfl
    · exact .inl rfl
    · exact .inr (congrArg (·, barStyle) (List.mem_singleton.mp hch))
    · exact .inl rfl
    · exact .inr (congrArg (·, barStyle) (List.mem_singleton.mp hch))
    · exact .inl rfl
  · rw [hmeta]
    intro hle
    refine (hlabel hle).trans
      (content_within (?_ : SeeHandshake.styled arrow (stepStyle isCursor isCurrent isPast) ∈ _))
    exact List.mem_cons_of_mem _ (List.mem_cons_of_mem _ List.mem_cons_self)

theorem length_connectorLine (innerWidth : ℕ) :
    (connectorLine innerWidth).chars.length = 8 + cw innerWidth := by
  have hspaces : (rawSpan "   ").content.length = 3 := rfl
  have hbar : barSpan.content.length = 1 := rfl
  unfold connectorLine
  simp only [length_chars_cons, length_chars_nil, hspaces, hbar, Span.raw, List.length_replicate]
  omega

theorem length_flowHeaderLine (innerWidth : ℕ) :
    (flowHeaderLine innerWidth).chars.length = 8 + max 12 (cw innerWidth) := by
  have hspaces : (rawSpan "   ").content.length = 3 := rfl
  have hbar : barSpan.content.length = 1 := rfl
  have hclient : "CLIENT".toList.length = 6 := rfl
  have hserver : "SERVER".toList.length = 6 := rfl
  unfold flowHeaderLine
  simp only [length_chars_cons, length_chars_nil, hspaces, hbar, SeeHandshake.styled, Span.raw,
    List.length_replicate, hclient, hserver]
  omega

/-! ## Positions -/

/-- In a list without duplicates an element has one position, and those behind it follow. -/
theorem findIdx?_eq_some_iff_of_nodup {α : Type} [DecidableEq α] {xs : List α} (hxs : xs.Nodup) {i : ℕ} {x : α}
    (hx : xs[i]? = some x) (y : α) :
    (xs.findIdx? (· = y) = some i ↔ y = x) ∧
      ((xs.findIdx? (· = y)).any (fun c => i < c) = true ↔ y ∈ xs.drop (i + 1)) := by
  induction xs generalizing i with
  | nil => cases hx
  | cons z xs ih =>
    obtain ⟨hz, hxs⟩ := List.nodup_cons.mp hxs
    rw [List.findIdx?_cons]
    cases i with
    | zero =>
      obtain rfl := Option.some.inj hx
      by_cases hy : z = y
      · subst hy
        refine ⟨by simp, ?_⟩
        simp [hz]
      · have hne : ¬ y = z := fun h => hy h.symm
        simp only [hy, hne, decide_false, Bool.false_eq_true, if_false, List.drop_succ_cons, List.drop_zero]
        cases hfind : xs.findIdx? (· = y) with
        | none =>
          have hnot := List.findIdx?_eq_none_iff.mp hfind
          simp only [Option.map_none, reduceCtorEq, Option.any_none, Bool.false_eq_true, false_iff, true_and]
          intro hmem
          simpa using hnot y hmem
        | some c =>
          obtain ⟨hc, hcy, -⟩ := List.findIdx?_eq_some_iff_getElem.mp hfind
          have hcy : xs[c] = y := by simpa using hcy
          simp only [Option.map_some, Option.some.injEq, Nat.succ_ne_zero, Option.any_some, Nat.zero_lt_succ,
            decide_true, true_iff, true_and]
          exact hcy ▸ List.getElem_mem hc
    | succ i =>
      have hx : xs[i]? = some x := hx
      obtain ⟨hhere, hbehind⟩ := ih hxs hx
      have hmem := List.mem_of_getElem? hx
      by_cases hy : z = y
      · subst hy
        have hne : ¬ z = x := by
          rintro rfl
          exact hz hmem
        have hnot : z ∉ xs.drop (i + 1) := fun h => hz (List.mem_of_mem_drop h)
        simp [hne, hnot]
      · simp only [hy, decide_false, Bool.false_eq_true, if_false, List.drop_succ_cons]
        rw [← hhere, ← hbehind]
        cases xs.findIdx? (· = y) with
        | none => simp
        | some c => simp

/-! ## The diagram -/

/-- The rows of the steps: at even positions the steps, and connectors between them. -/
structure ShowsSteps (tls12 : Bool) (innerWidth : ℕ) (style : ℕ → Style) (stages : List HandshakeStage)
    (rows : List (Line Style)) : Prop where
  step : ∀ j stage, stages[j]? = some stage →
    ∃ row, rows[2 * j]? = some row ∧ ShowsStep tls12 innerWidth stage (style j) row
  only : ∀ row ∈ rows, row = connectorLine innerWidth ∨
    ∃ stage ∈ stages, row.chars.length = stepWidth stage tls12 innerWidth

theorem stepRows_ok (tls12 : Bool) (innerWidth : ℕ) (cursorIdx currentIdx : Option ℕ) (i : ℕ)
    (stages : List HandshakeStage) :
    ∃ rows, stepRows tls12 innerWidth cursorIdx currentIdx i stages = .ok rows ∧
      ShowsSteps tls12 innerWidth (fun j => stepStyle (cursorIdx = some (i + j)) (currentIdx = some (i + j))
        (currentIdx.any fun c => i + j < c)) stages rows := by
  induction stages generalizing i with
  | nil => exact ⟨[], rfl, fun j stage h => absurd h (by simp), fun row h => absurd h List.not_mem_nil⟩
  | cons stage stages ih =>
    obtain ⟨row, hrow, hshows⟩ := stepLine_ok stage innerWidth (cursorIdx = some i) (currentIdx = some i)
      (currentIdx.any fun c => i < c) tls12
    obtain ⟨rest, hrest, hsteps⟩ := ih (i + 1)
    rw [stepRows, hrow, ok_bind, hrest, ok_bind]
    refine ⟨_, rfl, ?_, ?_⟩
    · intro j stage' hstage
      cases j with
      | zero =>
        obtain rfl := Option.some.inj hstage
        refine ⟨row, ?_, hshows⟩
        by_cases hlast : stages.isEmpty
        · rw [if_pos hlast]
          rfl
        · rw [if_neg hlast]
          rfl
      | succ j =>
        have hstage : stages[j]? = some stage' := hstage
        obtain ⟨row', hrow', hshows'⟩ := hsteps.step j stage' hstage
        -- Behind the step and its connector the rows of the other steps follow.
        have hne : ¬ stages.isEmpty = true := by
          rintro hempty
          rw [List.isEmpty_iff.mp hempty] at hstage
          cases hstage
        refine ⟨row', ?_, ?_⟩
        · rw [if_neg hne]
          exact hrow'
        · have hposition : i + 1 + j = i + (j + 1) := by omega
          rwa [hposition] at hshows'
    · intro row' hrow'
      rcases List.mem_append.mp hrow' with hfirst | hothers
      · have hwidth : row.chars.length = stepWidth stage tls12 innerWidth := hshows.width
        split_ifs at hfirst with hlast
        · obtain rfl := List.mem_singleton.mp hfirst
          exact .inr ⟨stage, List.mem_cons_self, hwidth⟩
        · rcases List.mem_cons.mp hfirst with rfl | hfirst
          · exact .inr ⟨stage, List.mem_cons_self, hwidth⟩
          · exact .inl (List.mem_singleton.mp hfirst)
      · rcases hsteps.only row' hothers with hconnector | ⟨stage', hmem, hwidth⟩
        · exact .inl hconnector
        · exact .inr ⟨stage', List.mem_cons_of_mem _ hmem, hwidth⟩

theorem flowStages_nodup (tls12 : Bool) : (flowStages tls12).Nodup := by
  cases tls12 <;> decide

theorem heads_le (dir : FlowDir) : dir.heads ≤ 2 := by
  cases dir <;> decide

/-- What is seen of the diagram: all rows are as wide as the pane, if that has 20 columns at least, and only
then; and the row of a step stands where its stage is in the order of the version, marked as the one under the
cursor, the one that was reached or one before that. -/
structure ShowsDiagram (tls12 : Bool) (innerWidth : ℕ) (cursorStage : Option HandshakeStage)
    (currentStage : HandshakeStage) (rows : List (Line Style)) : Prop where
  aligned : (∀ row ∈ rows, row.chars.length = innerWidth) ↔ 20 ≤ innerWidth
  step : ∀ i stage, (flowStages tls12)[i]? = some stage →
    ∃ row, rows[2 + 2 * i]? = some row ∧ ShowsStep tls12 innerWidth stage
      (stepStyle (cursorStage = some stage) (currentStage = stage)
        (currentStage ∈ (flowStages tls12).drop (i + 1))) row

theorem diagramRows_ok (tls12 : Bool) (innerWidth : ℕ) (cursorStage : Option HandshakeStage)
    (currentStage : HandshakeStage) :
    ∃ rows, diagramRows tls12 innerWidth cursorStage currentStage = .ok rows ∧
      ShowsDiagram tls12 innerWidth cursorStage currentStage rows := by
  obtain ⟨steps, hsteps, hshows⟩ := stepRows_ok tls12 innerWidth
    (cursorStage.bind fun s => (flowStages tls12).findIdx? (· = s))
    ((flowStages tls12).findIdx? (· = currentStage)) 0 (flowStages tls12)
  unfold diagramRows
  simp only
  rw [hsteps, ok_bind]
  refine ⟨_, rfl, ⟨?_, ?_⟩, ?_⟩
  · intro hall
    have hheader := hall _ List.mem_cons_self
    rw [length_flowHeaderLine] at hheader
    omega
  · intro hwide row hrow
    have hcw : 8 + cw innerWidth = innerWidth ∧ 12 ≤ cw innerWidth := by
      unfold cw
      omega
    rcases List.mem_cons.mp hrow with rfl | hrow
    · rw [length_flowHeaderLine]
      omega
    rcases List.mem_cons.mp hrow with rfl | hrow
    · rw [length_connectorLine]
      exact hcw.1
    rcases hshows.only row hrow with rfl | ⟨stage, -, hwidth⟩
    · rw [length_connectorLine]
      exact hcw.1
    · have hheads := heads_le (stepMeta stage tls12).2.1
      rw [hwidth]
      unfold stepWidth
      omega
  · intro i stage hstage
    obtain ⟨row, hrow, hstep⟩ := hshows.step i stage hstage
    refine ⟨row, ?_, ?_⟩
    · rw [Nat.add_comm]
      exact hrow
    · obtain ⟨hcurrent, hpast⟩ := findIdx?_eq_some_iff_of_nodup (flowStages_nodup tls12) hstage currentStage
      have hcursor : (cursorStage.bind fun s => (flowStages tls12).findIdx? (· = s)) = some i ↔
          cursorStage = some stage := by
        cases cursorStage with
        | none => exact iff_of_false (by simp) (by simp)
        | some s =>
          rw [Option.bind_some, (findIdx?_eq_some_iff_of_nodup (flowStages_nodup tls12) hstage s).1,
            Option.some.injEq]
      simp only [Nat.zero_add, hcursor, hcurrent] at hstep
      have hbool : ((flowStages tls12).findIdx? (· = currentStage)).any (fun c => decide (i < c)) =
          decide (currentStage ∈ (flowStages tls12).drop (i + 1)) := by
        rw [Bool.eq_iff_iff, hpast, decide_eq_true_iff]
      rwa [hbool] at hstep

/-- The flow diagram, whatever the state of the user interface and the size of the pane: it is drawn without a
panic and shows the steps of the version of the selected connection, with the record under the cursor and the
stage that was reached marked. -/
theorem App.renderFlow_diagram (copy : EducationalCopy) (app : App) (area : Rect) :
    ∃ rows education block, app.renderFlow copy area = .ok ⟨rows ++ education, some block, true, 0⟩ ∧
      ShowsDiagram app.selectedIsTls12 (withoutBorders area.width).toNat app.selectedRecordStage
        app.currentStage rows := by
  obtain ⟨rows, hrows, hshows⟩ := diagramRows_ok app.selectedIsTls12 (withoutBorders area.width).toNat
    app.selectedRecordStage app.currentStage
  unfold App.renderFlow
  simp only
  rw [hrows, ok_bind]
  exact ⟨rows, _, _, rfl, hshows⟩

end SeeHandshake
