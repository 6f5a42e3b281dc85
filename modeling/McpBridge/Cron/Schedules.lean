import McpBridge.Lib.Fields
import McpBridge.Cron.Agreement
import McpBridge.Cron.Grammar
/-!
# Two checks of a schedule (`core/cron_store.cpp`, `tools/scheduling/`)

A schedule is checked by the backend of the platform and then by the store.
`validSchedule_iff` says what the store accepts, and a crontab line made from it
still has those five fields in front. The Windows backend accepts more: names of
days, and blanks at the end. `stored_iff` says that nothing else goes wrong.
-/

open McpBridge.Lib McpBridge.Lib.Fields

namespace McpBridge.Cron

theorem words_eq_fields (s : Str) : words s = fields isBlank s := rfl

/-! ## The store's check -/

/-- Five fields of schedule characters between blanks, and nothing after the fifth. -/
def FiveFields (s : Str) : Prop :=
  ∃ parts, parts.length = 5 ∧ Layout isBlank parts ∧ (∀ p ∈ parts, p.2.all isScheduleChar = true) ∧ s = render parts

theorem scheduleChar_not_blank {c : UInt8} (h : isScheduleChar c = true) : isBlank c = false := by
  by_contra hb
  simp only [isBlank, Bool.not_eq_false, Bool.or_eq_true, decide_eq_true_eq] at hb
  rcases hb with rfl | rfl <;> exact absurd h (by decide)

theorem scheduleFields_gap {gap : Str} (h : Gap isBlank gap) (s : Str) (n : Nat) :
    scheduleFields (gap ++ s) n false = scheduleFields s n false := by
  induction gap with
  | nil => rfl
  | cons c gap ih =>
    rw [List.cons_append, scheduleFields, if_pos (h c List.mem_cons_self)]
    exact ih fun d hd => h d (List.mem_cons_of_mem _ hd)

/-- The gap after a field ends it. -/
theorem scheduleFields_gap_after {gap : Str} (h : Gap isBlank gap) (hne : gap ≠ []) (s : Str) (n : Nat) :
    scheduleFields (gap ++ s) n true = scheduleFields s (n + 1) false := by
  obtain ⟨c, gap, rfl⟩ := List.exists_cons_of_ne_nil hne
  rw [List.cons_append, scheduleFields, if_pos (h c List.mem_cons_self)]
  exact scheduleFields_gap (fun d hd => h d (List.mem_cons_of_mem _ hd)) s (n + 1)

theorem scheduleFields_field {w : Str} (hne : w ≠ []) (hw : w.all isScheduleChar = true) (s : Str) (n : Nat) (b : Bool) :
    scheduleFields (w ++ s) n b = scheduleFields s n true := by
  induction w generalizing b with
  | nil => exact absurd rfl hne
  | cons c w ih =>
    rw [List.all_cons, Bool.and_eq_true] at hw
    rw [List.cons_append, scheduleFields, if_neg (by simp [scheduleChar_not_blank hw.1]), if_pos hw.1]
    by_cases hnil : w = []
    · subst hnil
      rfl
    · exact ih hnil hw.2 true

/-- The fields after the first: each adds one to the count. -/
theorem scheduleFields_render {parts : List (Str × Str)} (hl : ∀ p ∈ parts, Gap isBlank p.1 ∧ Field isBlank p.2)
    (hgap : ∀ p ∈ parts, p.1 ≠ []) (hc : ∀ p ∈ parts, p.2.all isScheduleChar = true) (s : Str) (n : Nat) :
    scheduleFields (render parts ++ s) n true = scheduleFields s (n + parts.length) true := by
  induction parts generalizing n with
  | nil => rfl
  | cons p parts ih =>
    obtain ⟨⟨hp, hw⟩, hl⟩ := List.forall_mem_cons.1 hl
    obtain ⟨hpg, hgap⟩ := List.forall_mem_cons.1 hgap
    obtain ⟨hpc, hc⟩ := List.forall_mem_cons.1 hc
    have htext : render (p :: parts) ++ s = p.1 ++ (p.2 ++ (render parts ++ s)) := by simp [render]
    rw [htext, scheduleFields_gap_after hp hpg, scheduleFields_field hw.1 hpc, ih hl hgap hc, List.length_cons]
    congr 1
    omega

/-- What the scanner makes of a layout: the number of fields, and whether the last one ends the text. -/
theorem scheduleFields_layout {parts : List (Str × Str)} {trail : Str} (hl : Layout isBlank parts)
    (hc : ∀ p ∈ parts, p.2.all isScheduleChar = true) (ht : Gap isBlank trail) (hne : parts ≠ []) :
    scheduleFields (render parts ++ trail) 1 false =
      if trail = [] then some (parts.length, true) else some (parts.length + 1, false) := by
  obtain ⟨p, parts, rfl⟩ := List.exists_cons_of_ne_nil hne
  obtain ⟨⟨hp, hw⟩, hall⟩ := List.forall_mem_cons.1 hl.1
  obtain ⟨hpc, hc⟩ := List.forall_mem_cons.1 hc
  have htext : render (p :: parts) ++ trail = p.1 ++ (p.2 ++ (render parts ++ trail)) := by simp [render]
  rw [htext, scheduleFields_gap hp, scheduleFields_field hw.1 hpc, scheduleFields_render hall hl.2 hc]
  split
  · next h =>
    subst h
    simp [scheduleFields, Nat.add_comm]
  · next h =>
    have hend := scheduleFields_gap_after ht h [] (1 + parts.length)
    rw [List.append_nil] at hend
    rw [hend, List.length_cons, Nat.add_comm 1]
    rfl

/-- The store accepts five fields of schedule characters, up to 200 bytes. -/
theorem validSchedule_iff (s : Str) : validSchedule s = true ↔ 1 ≤ s.length ∧ s.length ≤ 200 ∧ FiveFields s := by
  have hlen : ¬ (s = [] ∨ 200 < s.length) ↔ 1 ≤ s.length ∧ s.length ≤ 200 := by
    rw [not_or, ← List.length_eq_zero_iff]
    omega
  unfold validSchedule
  constructor
  · intro h
    split at h
    · cases h
    next hs =>
    obtain ⟨h1, h200⟩ := hlen.1 hs
    refine ⟨h1, h200, ?_⟩
    split at h
    swap
    · cases h
    next count inField hscan =>
    simp only [Bool.and_eq_true, decide_eq_true_eq] at h
    obtain ⟨rfl, rfl⟩ := h
    obtain ⟨parts, trail, hl, ht, rfl⟩ := exists_layout isBlank s
    have hc : ∀ p ∈ parts, p.2.all isScheduleChar = true := by
      intro p hp
      rw [List.all_eq_true]
      intro c hcp
      have hchar := List.all_eq_true.1 (scheduleFields_chars hscan) c (List.mem_append_left _ (mem_render hp hcp))
      rcases Bool.or_eq_true_iff.1 hchar with hb | hc
      · rw [(hl.1 p hp).2.2 c hcp] at hb
        cases hb
      · exact hc
    by_cases hne : parts = []
    · -- Blanks alone are no field.
      subst hne
      have hgap := scheduleFields_gap ht [] 1
      rw [List.append_nil] at hgap
      rw [show render ([] : List (Str × Str)) ++ trail = trail from rfl, hgap] at hscan
      cases hscan
    · rw [scheduleFields_layout hl hc ht hne] at hscan
      split at hscan
      · next htrail =>
        subst htrail
        refine ⟨parts, ?_, hl, hc, List.append_nil _⟩
        simpa using hscan
      · simp at hscan
  · rintro ⟨h1, h200, parts, h5, hl, hc, rfl⟩
    have hne : parts ≠ [] := by
      rintro rfl
      cases h5
    have hgap : Gap isBlank ([] : Str) := by simp [Gap]
    have hscan := scheduleFields_layout hl hc hgap hne
    rw [List.append_nil, if_pos rfl, h5] at hscan
    rw [if_neg (hlen.2 ⟨h1, h200⟩), hscan]
    rfl

/-! ## The crontab line -/

/-- A text is counted by its gaps and fields. -/
theorem countFields_gap {gap : Str} (h : Gap isBlank gap) (s : Str) (n : Nat) :
    countFields (gap ++ s) n false = countFields s n false := by
  induction gap with
  | nil => rfl
  | cons c gap ih =>
    rw [List.cons_append, countFields, if_pos (h c List.mem_cons_self)]
    exact ih fun d hd => h d (List.mem_cons_of_mem _ hd)

theorem countFields_field {w s : Str} (hw : Field isBlank w) (hs : AtGap isBlank s) (n : Nat) :
    countFields (w ++ s) n false = countFields s (n + 1) false := by
  have hin : ∀ v : Str, (∀ c ∈ v, isBlank c = false) → countFields (v ++ s) (n + 1) true = countFields s (n + 1) true := by
    intro v hv
    induction v with
    | nil => rfl
    | cons c v ih =>
      obtain ⟨hc, hv⟩ := List.forall_mem_cons.1 hv
      rw [List.cons_append, countFields, if_neg (by simp [hc]), if_pos rfl]
      exact ih hv
  -- At a gap it does not matter whether a field has just ended.
  have hend : countFields s (n + 1) true = countFields s (n + 1) false := by
    rcases s with _ | ⟨c, s⟩
    · rfl
    · rw [countFields, countFields, if_pos (hs c rfl), if_pos (hs c rfl)]
  obtain ⟨hne, hw⟩ := hw
  obtain ⟨c, v, rfl⟩ := List.exists_cons_of_ne_nil hne
  obtain ⟨hc, hv⟩ := List.forall_mem_cons.1 hw
  rw [List.cons_append, countFields, if_neg (by simp [hc]), if_neg Bool.false_ne_true, hin v hv, hend]

theorem countFields_layout {parts : List (Str × Str)} {trail : Str} (hl : Layout isBlank parts) (ht : Gap isBlank trail)
    (n : Nat) : countFields (render parts ++ trail) n false = n + parts.length := by
  induction parts generalizing n with
  | nil =>
    have hgap := countFields_gap ht [] n
    rw [List.append_nil] at hgap
    exact hgap
  | cons p parts ih =>
    obtain ⟨hgap, hw⟩ := hl.1 p List.mem_cons_self
    have htext : render (p :: parts) ++ trail = p.1 ++ (p.2 ++ (render parts ++ trail)) := by simp [render]
    rw [htext, countFields_gap hgap, countFields_field hw (hl.atGap ht.atGap), ih hl.tail, List.length_cons]
    omega

/-- The backend counts the fields. -/
theorem countFields_eq (s : Str) : countFields s 0 false = (words s).length := by
  obtain ⟨parts, trail, hl, ht, rfl⟩ := exists_layout isBlank s
  rw [countFields_layout hl ht, words_eq_fields, fields_render hl ht, List.length_map, Nat.zero_add]

theorem lines_ne_nil {s : Str} (h : s ≠ []) : lines s ≠ [] := by
  obtain ⟨c, s, rfl⟩ := List.exists_cons_of_ne_nil h
  rw [lines]
  split
  · exact List.cons_ne_nil _ _
  · split <;> exact List.cons_ne_nil _ _

theorem lines_append_line (l s : Str) : lines (l ++ ch '\n' :: s) = lines (l ++ lit "\n") ++ lines s := by
  induction l with
  | nil => rfl
  | cons c l ih =>
    rw [List.cons_append, List.cons_append, lines, lines, ih]
    split
    · rfl
    · have hne : lines (l ++ lit "\n") ≠ [] := lines_ne_nil (List.append_ne_nil_of_right_ne_nil _ (by decide))
      obtain ⟨a, as, h⟩ := List.exists_cons_of_ne_nil hne
      rw [h]
      rfl

/-- What stands above a line does not change how it is read. -/
theorem lines_unlines_above (ls : List Str) (s : Str) : lines (unlines ls ++ s) = lines (unlines ls) ++ lines s := by
  induction ls with
  | nil => rfl
  | cons l ls ih =>
    have htext : unlines (l :: ls) = l ++ ch '\n' :: unlines ls := by simp [unlines, lit]
    rw [htext, List.append_assoc, List.cons_append, lines_append_line, ih, lines_append_line l (unlines ls),
      List.append_assoc]

theorem jobBlock_eq (runnerPath : Str) (j : CronJob) : jobBlock runnerPath j = unlines (blockLines runnerPath j) := by
  simp [jobBlock, unlines, blockLines, blockOf]

/-- The line of a job, among the lines of the crontab. -/
theorem lines_jobBlock {runnerPath : Str} (hr : ch '\n' ∉ runnerPath) {j : CronJob} (hj : OneLine j) (existing : Str)
    (before after : List CronJob) :
    ∃ above below, lines (buildCrontabText existing (before ++ j :: after) runnerPath) =
      above ++ (kBlockTagPrefix ++ j.jobId) :: (blockOf runnerPath j).2 :: below := by
  obtain ⟨hid, hs⟩ := hj
  have htag : ch '\n' ∉ kBlockTagPrefix ++ j.jobId := by
    rw [List.mem_append, not_or]
    exact ⟨by decide, hid⟩
  have hline : ch '\n' ∉ (blockOf runnerPath j).2 := by
    have hspace : ch '\n' ∉ lit " " := by decide
    simp [blockOf, hspace, hid, hs, hr]
  have hblocks : ∀ jobs : List CronJob, jobs.flatMap (jobBlock runnerPath) = unlines (jobs.flatMap (blockLines runnerPath)) := by
    intro jobs
    rw [unlines, List.flatMap_assoc]
    congr 1
    funext j
    exact jobBlock_eq runnerPath j
  have htext : buildCrontabText existing (before ++ j :: after) runnerPath =
      unlines (keptLines false (lines existing) ++ before.flatMap (blockLines runnerPath)) ++
        (unlines (blockLines runnerPath j) ++ unlines (after.flatMap (blockLines runnerPath))) := by
    have happend : ∀ a b : List Str, unlines (a ++ b) = unlines a ++ unlines b := fun _ _ => List.flatMap_append
    rw [happend, ← hblocks, ← hblocks, ← jobBlock_eq, buildCrontabText, List.flatMap_append, List.flatMap_cons,
      List.append_assoc]
  refine ⟨lines (unlines (keptLines false (lines existing) ++ before.flatMap (blockLines runnerPath))),
    lines (unlines (after.flatMap (blockLines runnerPath))), ?_⟩
  have hblock : ∀ l ∈ blockLines runnerPath j, ch '\n' ∉ l := by
    intro l hl
    rcases List.mem_cons.1 hl with rfl | hl
    · exact htag
    · rw [List.mem_singleton.1 hl]
      exact hline
  rw [htext, lines_unlines_above, lines_unlines_above, lines_unlines hblock]
  rfl

/-- The store accepts five fields of schedule characters and nothing else. The
Linux backend accepts these, and the line written for a job with such a schedule
is one line of the crontab: the five fields first, then the command. -/
theorem validSchedule_crontab (s : Str) :
    (validSchedule s = true ↔ 1 ≤ s.length ∧ s.length ≤ 200 ∧ FiveFields s) ∧
    (validSchedule s = true → validateSchedule s = [] ∧
      ∀ (existing runnerPath : Str) (before after : List CronJob) (j : CronJob), ch '\n' ∉ runnerPath → j.schedule = s →
        validJobid j.jobId = true →
        ∃ above line below, lines (buildCrontabText existing (before ++ j :: after) runnerPath) =
            above ++ (kBlockTagPrefix ++ j.jobId) :: line :: below ∧
          (words s).length = 5 ∧
          takeFields isBlank 5 line = (words s, lit " " ++ runnerPath ++ lit " " ++ j.jobId)) := by
  refine ⟨validSchedule_iff s, fun h => ?_⟩
  have hnl := newline_notMem_of_validSchedule h
  obtain ⟨h1, -, parts, h5, hl, -, rfl⟩ := (validSchedule_iff s).1 h
  have hwords : words (render parts) = parts.map Prod.snd := by
    have hgap : Gap isBlank ([] : Str) := by simp [Gap]
    have hfields := fields_render hl hgap
    rwa [List.append_nil] at hfields
  have hlen : (words (render parts)).length = 5 := by rw [hwords, List.length_map, h5]
  refine ⟨?_, ?_⟩
  · unfold validateSchedule
    rw [countFields_eq, hlen, if_neg (List.ne_nil_of_length_pos h1), if_neg hnl]
    rfl
  · rintro existing runnerPath before after j hr hs hid
    obtain ⟨above, below, htext⟩ := lines_jobBlock hr ⟨newline_notMem_of_validJobid hid, hs ▸ hnl⟩ existing before after
    refine ⟨above, _, below, htext, hlen, ?_⟩
    have hline : (blockOf runnerPath j).2 = render parts ++ (lit " " ++ runnerPath ++ lit " " ++ j.jobId) := by
      simp [blockOf, hs]
    have hspace : AtGap isBlank (lit " " ++ runnerPath ++ lit " " ++ j.jobId) := by
      intro c hc
      cases hc
      rfl
    rw [hline, hwords, ← h5]
    exact takeFields_render hl hspace

/-! ## The translator's check -/

open Schtasks

theorem scheduleChar_not_lower {c : UInt8} (h : isScheduleChar c = true) : isLower c = false := by
  by_contra hl
  simp only [isScheduleChar, isLower, isDigit, Bool.not_eq_false, Bool.or_eq_true, Bool.and_eq_true, decide_eq_true_eq] at h hl
  rcases h with (((hd | rfl) | rfl) | rfl) | rfl
  · have ha : (ch 'a').toNat = 97 := rfl
    have h9 : (ch '9').toNat = 57 := rfl
    simp only [UInt8.le_iff_toNat_le] at hd hl
    omega
  all_goals exact absurd hl (by decide)

/-- The name of a day is spelled with letters. -/
theorem name_not_schedule {f : Str} (h : f.map toUpper ∈ days) : f.all isScheduleChar = false := by
  rw [Bool.eq_false_iff]
  intro hf
  have hup : f.map toUpper = f := by
    refine (List.map_congr_left ?_).trans (List.map_id f)
    intro c hc
    rw [toUpper, scheduleChar_not_lower (List.all_eq_true.1 hf c hc)]
    rfl
  have hdays : ∀ d ∈ days, d.all isScheduleChar = false := by decide
  rw [hup] at h
  rw [hdays f h] at hf
  cases hf

theorem Schtasks.Numeral.schedule {lo hi n : Nat} {s : Str} (h : Numeral lo hi s n) : s.all isScheduleChar = true := by
  rw [List.all_eq_true]
  intro c hc
  rw [isScheduleChar, (decimal_eq_some h.1).2.1 c hc]
  rfl

/-- The fields of a line that is translated are over the schedule characters,
but for the name of a day. -/
theorem supported_schedule {fs args : List Str} (h : Supported fs args) :
    fs.length = 5 ∧ ((∀ f ∈ fs, f.all isScheduleChar = true) ↔ ∀ dow, fs[4]? = some dow → dow.map toUpper ∉ days) := by
  have hstar : star.all isScheduleChar = true := by decide
  have hnames : (∀ f ∈ fs, f.all isScheduleChar = true) → ∀ dow, fs[4]? = some dow → dow.map toUpper ∉ days := by
    intro hall dow hdow hname
    have hchars := hall dow (List.mem_of_getElem? hdow)
    rw [name_not_schedule hname] at hchars
    cases hchars
  have hfive : ∀ {a b c d e : Str}, a.all isScheduleChar = true → b.all isScheduleChar = true →
      c.all isScheduleChar = true → d.all isScheduleChar = true → e.all isScheduleChar = true →
      ∀ f ∈ [a, b, c, d, e], f.all isScheduleChar = true := by
    intro a b c d e ha hb hc hd he
    simp only [List.forall_mem_cons, ha, hb, hc, hd, he, List.not_mem_nil, false_imp_iff, implies_true, and_self]
  refine ⟨by cases h <;> rfl, hnames, fun hdow => ?_⟩
  cases h with
  | minutely => exact hfive hstar hstar hstar hstar hstar
  | step ht =>
    refine hfive ?_ hstar hstar hstar hstar
    rw [List.all_append, ht.schedule]
    rfl
  | hourly hmin => exact hfive hmin.schedule hstar hstar hstar hstar
  | daily hmin hhr => exact hfive hmin.schedule hhr.schedule hstar hstar hstar
  | monthly hmin hhr hdom => exact hfive hmin.schedule hhr.schedule hdom.schedule hstar hstar
  | weekly hmin hhr hday =>
    refine hfive hmin.schedule hhr.schedule hstar hstar ?_
    rcases hday with ⟨n, hn, rfl, -⟩ | ⟨hday, rfl⟩
    · have hall : ∀ n ≤ 6, [UInt8.ofNat (48 + n)].all isScheduleChar = true := by decide
      exact hall n hn
    · exact absurd hday (hdow _ rfl)

/-- Of the lines that can be translated, the store accepts those that do not end
in a blank and do not name the day. -/
theorem stored_iff (s : Str) (hlen : s.length ≤ 200) (h : (translate s).error = []) :
    validSchedule s = true ↔
      (∀ c ∈ s.getLast?, isBlank c = false) ∧ ∀ dow, (words s)[4]? = some dow → dow.map toUpper ∉ days := by
  obtain ⟨h5, hchars⟩ := supported_schedule (supported_of_translate h)
  obtain ⟨parts, trail, hl, ht, rfl⟩ := exists_layout isBlank s
  have hwords : words (render parts ++ trail) = parts.map Prod.snd := fields_render hl ht
  have hfields : (∀ f ∈ words (render parts ++ trail), f.all isScheduleChar = true) ↔
      ∀ p ∈ parts, p.2.all isScheduleChar = true := by
    rw [hwords]
    exact List.forall_mem_map
  rw [validSchedule_iff, ← hchars, hfields, ← hl.trail_eq_nil_iff ht]
  rw [hwords, List.length_map] at h5
  constructor
  · rintro ⟨-, -, parts', -, hl', hc', heq⟩
    have hlast := hl'.getLast
    rw [← heq] at hlast
    refine ⟨(hl.trail_eq_nil_iff ht).2 hlast, ?_⟩
    have hmap : parts.map Prod.snd = parts'.map Prod.snd := by
      have hgap : Gap isBlank ([] : Str) := by simp [Gap]
      have hrender := fields_render hl' hgap
      rw [List.append_nil, ← heq] at hrender
      exact hwords.symm.trans hrender
    have hall : ∀ f ∈ parts'.map Prod.snd, f.all isScheduleChar = true := List.forall_mem_map.2 hc'
    rw [← hmap] at hall
    exact List.forall_mem_map.1 hall
  · rintro ⟨rfl, hc⟩
    refine ⟨?_, hlen, parts, h5, hl, hc, List.append_nil _⟩
    obtain ⟨p, ps, rfl⟩ := List.exists_cons_of_length_pos (by omega : 0 < parts.length)
    have hp := List.length_pos_iff.2 (hl.1 p List.mem_cons_self).2.1
    simp only [render, List.flatMap_cons, List.length_append]
    omega

/-- Mondays by number. -/
theorem stored_iff_monday : validSchedule (lit "0 9 * * 1") = true :=
  (stored_iff (lit "0 9 * * 1") (by decide) (by decide)).2 (by
    constructor
    · intro c hc
      have hone : some (ch '1') = some c := hc
      cases hone
      decide
    · intro dow hdow
      have hone : some (lit "1") = some dow := hdow
      cases hone
      decide)

/-- Mondays by name, and every minute with a blank at the end: both are refused. -/
theorem monday_not_stored :
    (lit "0 9 * * MON").length ≤ 200 ∧ (translate (lit "0 9 * * MON")).error = [] ∧
      validSchedule (lit "0 9 * * MON") = false ∧
    (lit "* * * * * ").length ≤ 200 ∧ (translate (lit "* * * * * ")).error = [] ∧
      validSchedule (lit "* * * * * ") = false := by
  decide

end McpBridge.Cron
