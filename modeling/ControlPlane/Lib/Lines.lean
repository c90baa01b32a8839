import Mathlib.Data.List.Basic
import Mathlib.Data.List.Induction
import Mathlib.Data.List.Infix

/-!
# The lines of a growing text

A text is read from its start, and each line is complete with its separator. `complete` gives the
complete lines with the places where they begin. A longer text has the same complete lines and maybe
more (`complete_mono`), and no two lines begin at one place (`pairwise_complete`).
-/

namespace ControlPlane.Lines

variable {α : Type} [DecidableEq α] (sep : α)

/-- A text that was read so far: its complete lines, and where the last one begins, with what there
is of it. -/
structure Scan (α : Type) where
  done : List (ℕ × List α)
  start : ℕ
  current : List α

/-- One element more. -/
def Scan.next (s : Scan α) (a : α) : Scan α :=
  if a = sep then
    { done := s.done ++ [(s.start, s.current ++ [a])]
      start := s.start + s.current.length + 1
      current := [] }
  else { s with current := s.current ++ [a] }

/-- The text, read from its start. -/
def scan (text : List α) : Scan α :=
  text.foldl (Scan.next sep) { done := [], start := 0, current := [] }

/-- The complete lines, each with the place where it begins. -/
def complete (text : List α) : List (ℕ × List α) := (scan sep text).done

/-- The text ends where a line begins. -/
def AtLine (text : List α) : Prop := (scan sep text).current = []

variable {sep}

theorem scan_append_singleton (text : List α) (a : α) :
    scan sep (text ++ [a]) = (scan sep text).next sep a := by
  simp [scan, List.foldl_append]

/-- The place after the complete lines and what there is of the last one is the end. -/
theorem start_scan (text : List α) :
    (scan sep text).start + (scan sep text).current.length = text.length := by
  induction text using List.reverseRecOn with
  | nil => rfl
  | append_singleton text a ih =>
    rw [scan_append_singleton, Scan.next]
    split
    · simp only [List.length_nil, List.length_append, List.length_singleton]
      omega
    · simp only [List.length_append, List.length_singleton]
      omega

theorem AtLine.start_eq {text : List α} (h : AtLine sep text) :
    (scan sep text).start = text.length := by
  have hlen : (scan sep text).start + (scan sep text).current.length = text.length :=
    start_scan text
  rw [h] at hlen
  exact hlen

theorem atLine_nil : AtLine sep ([] : List α) := rfl

theorem atLine_append_sep (text : List α) : AtLine sep (text ++ [sep]) := by
  rw [AtLine, scan_append_singleton, Scan.next, if_pos rfl]

/-- A text that ends where a line begins is empty or ends with the separator. -/
theorem AtLine.eq_nil_or {text : List α} (h : AtLine sep text) :
    text = [] ∨ ∃ l, text = l ++ [sep] := by
  rcases List.eq_nil_or_concat' text with rfl | ⟨l, a, rfl⟩
  · exact .inl rfl
  · refine .inr ⟨l, ?_⟩
    rw [AtLine, scan_append_singleton, Scan.next] at h
    split at h
    · rename_i ha
      rw [ha]
    · exact absurd h (by simp)

/-- Elements that are no separator go to the last line. -/
theorem scan_append_of_not_mem {text l : List α} (h : sep ∉ l) :
    scan sep (text ++ l) = { scan sep text with current := (scan sep text).current ++ l } := by
  induction l using List.reverseRecOn with
  | nil => simp
  | append_singleton l a ih =>
    have hl : sep ∉ l := fun hmem => h (List.mem_append_left _ hmem)
    have ha : a ≠ sep := fun e => h (by simp [e])
    rw [← List.append_assoc, scan_append_singleton, ih hl, Scan.next, if_neg ha]
    simp

/-- A line that begins at the end of a text and is complete. -/
theorem complete_append_line {text l : List α} (htext : AtLine sep text) (h : sep ∉ l) :
    complete sep (text ++ (l ++ [sep])) = complete sep text ++ [(text.length, l ++ [sep])] := by
  have hstart := htext.start_eq
  rw [← List.append_assoc, complete, scan_append_singleton, scan_append_of_not_mem h, Scan.next,
    if_pos rfl]
  dsimp only
  rw [htext, hstart, List.nil_append]
  rfl

/-- A longer text has the complete lines of a shorter one. -/
theorem complete_mono {text more : List α} (h : text <+: more) :
    complete sep text <+: complete sep more := by
  obtain ⟨rest, rfl⟩ := h
  induction rest using List.reverseRecOn with
  | nil => simp
  | append_singleton rest a ih =>
    refine ih.trans ?_
    rw [← List.append_assoc, complete, complete, scan_append_singleton, Scan.next]
    split
    · exact List.prefix_append _ _
    · exact List.prefix_refl _

/-- A complete line begins before the last one. -/
theorem lt_start_of_mem {text : List α} {line : ℕ × List α} (h : line ∈ complete sep text) :
    line.1 < (scan sep text).start := by
  induction text using List.reverseRecOn with
  | nil => simp [complete, scan] at h
  | append_singleton text a ih =>
    rw [complete, scan_append_singleton, Scan.next] at h
    rw [scan_append_singleton, Scan.next]
    split at h
    · rename_i ha
      rw [if_pos ha]
      dsimp only at h ⊢
      rcases List.mem_append.mp h with h | h
      · have := ih h
        omega
      · obtain rfl := List.mem_singleton.mp h
        dsimp only
        omega
    · rename_i ha
      rw [if_neg ha]
      exact ih h

/-- The complete lines begin one after the other. -/
theorem pairwise_complete (text : List α) :
    (complete sep text).Pairwise fun a b => a.1 < b.1 := by
  induction text using List.reverseRecOn with
  | nil => exact List.Pairwise.nil
  | append_singleton text a ih =>
    rw [complete, scan_append_singleton, Scan.next]
    split
    · refine List.pairwise_append.mpr ⟨ih, List.pairwise_singleton _ _, ?_⟩
      intro line hline last hlast
      obtain rfl := List.mem_singleton.mp hlast
      exact lt_start_of_mem hline
    · exact ih

/-- Of the results that are read off lines, those with the place of one line are its own. -/
theorem filter_filterMap_of_pairwise {β γ : Type} {lines : List (ℕ × β)}
    (hpairwise : lines.Pairwise fun a b => a.1 < b.1) {line : ℕ × β} (hline : line ∈ lines)
    {f : ℕ × β → Option γ} {place : γ → ℕ} {c : γ} (hc : f line = some c)
    (hplace : ∀ l c, f l = some c → place c = l.1) :
    ((lines.filterMap f).filter fun c => place c = line.1) = [c] := by
  induction lines with
  | nil => simp at hline
  | cons first lines ih =>
    obtain ⟨hfirst, hrest⟩ := List.pairwise_cons.mp hpairwise
    rcases List.mem_cons.mp hline with rfl | hmem
    · -- the other lines begin later
      have hothers : ((lines.filterMap f).filter fun c => place c = line.1) = [] := by
        rw [List.filter_eq_nil_iff]
        intro d hd
        obtain ⟨l, hl, hfl⟩ := List.mem_filterMap.mp hd
        have hlt := hfirst l hl
        have hpl := hplace l d hfl
        simp only [decide_eq_true_eq]
        omega
      rw [List.filterMap_cons_some hc, List.filter_cons_of_pos (by simp [hplace _ _ hc]), hothers]
    · have hlt := hfirst line hmem
      cases hf : f first with
      | none => rw [List.filterMap_cons_none hf, ih hrest hmem]
      | some d =>
        have hne : ¬ place d = line.1 := by
          rw [hplace _ _ hf]
          omega
        rw [List.filterMap_cons_some hf, List.filter_cons_of_neg (by simp [hne]), ih hrest hmem]

end ControlPlane.Lines
