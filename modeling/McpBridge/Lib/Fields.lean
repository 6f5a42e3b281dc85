import Mathlib.Data.List.Basic
import Mathlib.Data.List.Infix
/-!
# Fields between separators

A line is read as gaps of separators and, between them, fields. `exists_layout`
takes a line apart that way, `fields_render` reads the fields of a layout, and
`takeFields` reads the first fields and leaves the rest of the line as it is.
-/

namespace McpBridge.Lib.Fields

section Fields
variable {α : Type} (sep : α → Bool)

/-- The maximal runs of characters that are no separators. -/
def fields (s : List α) : List (List α) := (s.splitOnP sep).filter (· ≠ [])

/-- Reads `n` fields, with the separators before each; what is left starts at a separator. -/
def takeFields : Nat → List α → List (List α) × List α
  | 0, s => ([], s)
  | n + 1, s =>
    let s := s.dropWhile sep
    let (fs, rest) := takeFields n (s.dropWhile (!sep ·))
    (s.takeWhile (!sep ·) :: fs, rest)

def Gap (l : List α) : Prop := ∀ c ∈ l, sep c = true

def Field (w : List α) : Prop := w ≠ [] ∧ ∀ c ∈ w, sep c = false

/-- The text of fields, each after a gap. -/
def render (parts : List (List α × List α)) : List α := parts.flatMap fun p => p.1 ++ p.2

/-- Fields after gaps. Only the gap before the first field may be empty. -/
def Layout (parts : List (List α × List α)) : Prop :=
  (∀ p ∈ parts, Gap sep p.1 ∧ Field sep p.2) ∧ ∀ p ∈ parts.tail, p.1 ≠ []

/-- The end of the text, or a separator. -/
def AtGap (s : List α) : Prop := ∀ c ∈ s.head?, sep c = true

variable {sep}

theorem Layout.tail {p : List α × List α} {parts : List (List α × List α)} (h : Layout sep (p :: parts)) :
    Layout sep parts :=
  ⟨fun q hq => h.1 q (List.mem_cons_of_mem _ hq), fun q hq => h.2 q (List.mem_of_mem_tail hq)⟩

theorem Gap.atGap {l : List α} (h : Gap sep l) : AtGap sep l := fun c hc => h c (List.mem_of_mem_head? hc)

/-- What follows a field is at a gap. -/
theorem Layout.atGap {p : List α × List α} {parts : List (List α × List α)} {rest : List α} (h : Layout sep (p :: parts))
    (hr : AtGap sep rest) : AtGap sep (render parts ++ rest) := by
  intro c hc
  rcases parts with _ | ⟨⟨gap, w⟩, parts⟩
  · exact hr c hc
  · have hgap : gap ≠ [] := h.2 (gap, w) List.mem_cons_self
    obtain ⟨b, gap', rfl⟩ := List.exists_cons_of_ne_nil hgap
    have hb : c = b := by simpa [render, eq_comm] using hc
    rw [hb]
    exact (h.1 (b :: gap', w) (by simp)).1 b List.mem_cons_self

theorem AtGap.takeWhile {s : List α} (h : AtGap sep s) : s.takeWhile (!sep ·) = [] ∧ s.dropWhile (!sep ·) = s := by
  rcases s with _ | ⟨c, s⟩
  · exact ⟨rfl, rfl⟩
  · have hc : sep c = true := h c rfl
    exact ⟨List.takeWhile_cons_of_neg (by simp [hc]), List.dropWhile_cons_of_neg (by simp [hc])⟩

theorem mem_render {parts : List (List α × List α)} {p : List α × List α} (hp : p ∈ parts) {c : α} (hc : c ∈ p.2) :
    c ∈ render parts :=
  List.mem_flatMap.2 ⟨p, hp, List.mem_append_right _ hc⟩

/-- A layout ends in a field. -/
theorem Layout.getLast {parts : List (List α × List α)} (h : Layout sep parts) :
    ∀ c ∈ (render parts).getLast?, sep c = false := by
  intro c hc
  rcases List.eq_nil_or_concat parts with rfl | ⟨init, p, rfl⟩
  · cases hc
  · obtain ⟨hne, hw⟩ := (h.1 p (by simp)).2
    have htext : render (init ++ [p]) = (render init ++ p.1) ++ p.2 := by simp [render]
    rw [List.concat_eq_append, htext, List.getLast?_append_of_ne_nil _ hne] at hc
    exact hw c (List.mem_of_mem_getLast? hc)

/-- No gap stands at the end iff the last character is no separator. -/
theorem Layout.trail_eq_nil_iff {parts : List (List α × List α)} {trail : List α} (h : Layout sep parts)
    (ht : Gap sep trail) : trail = [] ↔ ∀ c ∈ (render parts ++ trail).getLast?, sep c = false := by
  constructor
  · rintro rfl
    rw [List.append_nil]
    exact h.getLast
  · intro hlast
    by_contra hne
    have hmem := List.getLast_mem hne
    have hc := hlast (trail.getLast hne) (by rw [List.getLast?_append_of_ne_nil _ hne]; exact List.getLast?_eq_some_getLast hne)
    rw [ht _ hmem] at hc
    cases hc

/-! ## Reading a layout -/

theorem fields_gap_append {gap : List α} (h : Gap sep gap) (s : List α) : fields sep (gap ++ s) = fields sep s := by
  induction gap with
  | nil => rfl
  | cons c gap ih =>
    have hnone : ∀ x ∈ ([] : List α), sep x = false := by simp
    have hsplit : (c :: (gap ++ s)).splitOnP sep = [] :: (gap ++ s).splitOnP sep :=
      List.splitOnP_append_cons_of_forall_mem hnone _ (h c List.mem_cons_self) _
    rw [List.cons_append]
    unfold fields
    rw [hsplit]
    exact ih fun d hd => h d (List.mem_cons_of_mem _ hd)

theorem fields_field_append {w s : List α} (hw : Field sep w) (hs : AtGap sep s) :
    fields sep (w ++ s) = w :: fields sep s := by
  rcases s with _ | ⟨c, s⟩
  · have hsplit : w.splitOnP sep = [w] := List.splitOnP_eq_singleton (by simpa using hw.2)
    simp [fields, hsplit, hw.1]
  · have hc : sep c = true := hs c rfl
    have hsplit : (w ++ c :: s).splitOnP sep = w :: s.splitOnP sep :=
      List.splitOnP_append_cons_of_forall_mem (by simpa using hw.2) _ hc _
    have hgap : Gap sep [c] := by simpa [Gap] using hc
    have hcons : fields sep (c :: s) = fields sep s := fields_gap_append hgap s
    rw [hcons]
    unfold fields
    rw [hsplit, List.filter_cons_of_pos (by simpa using hw.1)]

theorem fields_gap {gap : List α} (h : Gap sep gap) : fields sep gap = [] := by
  have happ := fields_gap_append h []
  rw [List.append_nil] at happ
  rw [happ]
  simp [fields]

/-- The fields of a layout are its fields. -/
theorem fields_render {parts : List (List α × List α)} {trail : List α} (h : Layout sep parts) (ht : Gap sep trail) :
    fields sep (render parts ++ trail) = parts.map Prod.snd := by
  induction parts with
  | nil => exact fields_gap ht
  | cons p parts ih =>
    obtain ⟨hgap, hw⟩ := h.1 p List.mem_cons_self
    have htext : render (p :: parts) ++ trail = p.1 ++ (p.2 ++ (render parts ++ trail)) := by simp [render]
    rw [htext, fields_gap_append hgap, fields_field_append hw (h.atGap ht.atGap), ih h.tail]
    rfl

variable (sep) in
/-- Every text is a layout and a gap. -/
theorem exists_layout (s : List α) : ∃ parts trail, Layout sep parts ∧ Gap sep trail ∧ s = render parts ++ trail := by
  induction s with
  | nil => exact ⟨[], [], ⟨by simp, by simp⟩, by simp [Gap], rfl⟩
  | cons c s ih =>
    obtain ⟨parts, trail, hl, ht, rfl⟩ := ih
    by_cases hc : sep c = true
    · -- The separator joins the first gap, or the trail.
      rcases parts with _ | ⟨⟨gap, w⟩, parts⟩
      · exact ⟨[], c :: trail, hl, List.forall_mem_cons.2 ⟨hc, ht⟩, rfl⟩
      · refine ⟨(c :: gap, w) :: parts, trail, ⟨?_, hl.2⟩, ht, rfl⟩
        obtain ⟨⟨hgap, hw⟩, hrest⟩ := List.forall_mem_cons.1 hl.1
        exact List.forall_mem_cons.2 ⟨⟨List.forall_mem_cons.2 ⟨hc, hgap⟩, hw⟩, hrest⟩
    · have hc : sep c = false := by simpa using hc
      have hone : Field sep [c] := ⟨by simp, by simpa using hc⟩
      -- The character joins the first field if no gap stands before it.
      rcases parts with _ | ⟨⟨gap, w⟩, parts⟩
      · exact ⟨[([], [c])], trail, ⟨by simpa [Gap] using hone, by simp⟩, ht, rfl⟩
      · obtain ⟨⟨hgap, hw⟩, hrest⟩ := List.forall_mem_cons.1 hl.1
        by_cases hg : gap = []
        · subst hg
          refine ⟨([], c :: w) :: parts, trail, ⟨?_, hl.2⟩, ht, rfl⟩
          exact List.forall_mem_cons.2 ⟨⟨by simp [Gap], by simp, List.forall_mem_cons.2 ⟨hc, hw.2⟩⟩, hrest⟩
        · refine ⟨([], [c]) :: (gap, w) :: parts, trail, ⟨?_, ?_⟩, ht, rfl⟩
          · exact List.forall_mem_cons.2 ⟨⟨by simp [Gap], hone⟩, hl.1⟩
          · exact List.forall_mem_cons.2 ⟨hg, hl.2⟩

/-- The first fields of a layout, and what stands after them. -/
theorem takeFields_render {parts : List (List α × List α)} {rest : List α} (h : Layout sep parts) (hr : AtGap sep rest) :
    takeFields sep parts.length (render parts ++ rest) = (parts.map Prod.snd, rest) := by
  induction parts with
  | nil => rfl
  | cons p parts ih =>
    obtain ⟨hgap, hne, hw⟩ := h.1 p List.mem_cons_self
    have htext : render (p :: parts) ++ rest = p.1 ++ (p.2 ++ (render parts ++ rest)) := by simp [render]
    have hstart : (p.2 ++ (render parts ++ rest)).dropWhile sep = p.2 ++ (render parts ++ rest) := by
      obtain ⟨b, w, hp⟩ := List.exists_cons_of_ne_nil hne
      rw [hp, List.cons_append, List.dropWhile_cons_of_neg]
      simp [hw b (by simp [hp])]
    have hall : ∀ c ∈ p.2, (!sep c) = true := by simpa using hw
    obtain ⟨htake, hdrop⟩ := (h.atGap hr).takeWhile
    rw [List.length_cons, takeFields, htext, List.dropWhile_append_of_pos hgap, hstart,
      List.dropWhile_append_of_pos hall, List.takeWhile_append_of_pos hall, htake, hdrop, ih h.tail,
      List.append_nil]
    rfl

end Fields

end McpBridge.Lib.Fields
