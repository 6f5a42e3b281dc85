import McpBridge.Cron.Schtasks
/-!
# The lines that can be translated (`tools/scheduling/cron_to_schtasks.hpp`)

The table in the header, row by row: the fields of a line and the flags for it.
`translate` accepts the rows of the table and nothing else, however the lines
are spaced and however many zeros a number starts with. The loop that reads a
number stays within the range of `int`.
-/

open McpBridge.Lib

namespace McpBridge.Cron.Schtasks

/-! ## Numbers on `int`s -/

/-- The result of an operation on `int`s; there is none where it overflows. -/
def toInt (n : Nat) : Option Nat := if n < 2 ^ 31 then some n else none

/-- The loop of `parseIntInRange` on `int`s; `none` is an overflow. -/
def parseDigitsInt : Str → Nat → Option (Option Nat)
  | [], v => some (some v)
  | c :: cs, v =>
    if c < ch '0' ∨ ch '9' < c then some none
    else do
      let tens ← toInt (v * 10)
      let v ← toInt (tens + (c.toNat - 48))
      if 100000 < v then some none else parseDigitsInt cs v

/-- The guard keeps the next value in range, whatever the next character is. -/
theorem parseDigitsInt_eq (s : Str) {v : Nat} (hv : v ≤ 100000) : parseDigitsInt s v = some (parseDigits s v) := by
  induction s generalizing v with
  | nil => rfl
  | cons c s ih =>
    unfold parseDigitsInt parseDigits
    split
    · rfl
    · have hc : c.toNat < 256 := c.toNat_lt
      have htens : toInt (v * 10) = some (v * 10) := if_pos (by omega)
      have hnext : toInt (v * 10 + (c.toNat - 48)) = some (v * 10 + (c.toNat - 48)) := if_pos (by omega)
      simp only [htens, hnext, Option.bind_eq_bind, Option.bind_some]
      split
      · rfl
      · exact ih (by omega)

theorem le_foldl_digits (s : Str) (v : Nat) : v ≤ s.foldl (fun a c => 10 * a + (c.toNat - 48)) v := by
  induction s generalizing v with
  | nil => exact Nat.le_refl _
  | cons c s ih =>
    calc v ≤ 10 * v + (c.toNat - 48) := by omega
      _ ≤ _ := ih _

/-- A number is read whole, unless its value is above the guard. -/
theorem parseDigits_of_digits {s : Str} {v : Nat} (hs : ∀ c ∈ s, isDigit c = true)
    (hv : s.foldl (fun a c => 10 * a + (c.toNat - 48)) v ≤ 100000) :
    parseDigits s v = some (s.foldl (fun a c => 10 * a + (c.toNat - 48)) v) := by
  induction s generalizing v with
  | nil => rfl
  | cons c s ih =>
    rw [List.foldl_cons] at hv ⊢
    have hnext := le_foldl_digits s (10 * v + (c.toNat - 48))
    have hdigit : ¬ (c < ch '0' ∨ ch '9' < c) := by
      simpa [isDigit, not_or] using hs c (by simp)
    unfold parseDigits
    rw [if_neg hdigit, Nat.mul_comm v 10, if_neg (by omega)]
    exact ih (fun d hd => hs d (by simp [hd])) hv

theorem parseIntInRange_of_decimal {s : Str} {lo hi n : Nat} (h : decimal s = some n) (hlo : lo ≤ n) (hhi : n ≤ hi)
    (hguard : hi ≤ 100000) : parseIntInRange s lo hi = some n := by
  obtain ⟨hne, hs, rfl⟩ := decimal_eq_some h
  unfold parseIntInRange
  rw [if_neg hne, parseDigits_of_digits hs]
  · exact if_neg (by unfold readDigits at hlo hhi; omega)
  · unfold readDigits at hhi
    omega

/-! ## The table -/

/-- A number from `lo` to `hi`, as it is written. -/
def Numeral (lo hi : Nat) (s : Str) (n : Nat) : Prop := decimal s = some n ∧ lo ≤ n ∧ n ≤ hi

/-- A day of the week by its number or, in any case, by its name. -/
def DayField (s : Str) (day : Str) : Prop :=
  (∃ d ≤ 6, s = [UInt8.ofNat (48 + d)] ∧ days[d]? = some day) ∨ (day ∈ days ∧ s.map toUpper = day)

def digit (n : Nat) : UInt8 := UInt8.ofNat (48 + n)

/-- `HH:MM` -/
def hhmm (hh mm : Nat) : Str := [digit (hh / 10), digit (hh % 10), ch ':', digit (mm / 10), digit (mm % 10)]

/-- The fields of the lines that are supported, each with its flags. -/
inductive Supported : List Str → List Str → Prop where
  | minutely : Supported [star, star, star, star, star] [lit "/SC", lit "MINUTE", lit "/MO", lit "1"]
  | step {t : Str} {n : Nat} (ht : Numeral 1 1439 t n) :
    Supported [lit "*/" ++ t, star, star, star, star] [lit "/SC", lit "MINUTE", lit "/MO", writeNat n]
  | hourly {m : Str} {mm : Nat} (hmin : Numeral 0 59 m mm) :
    Supported [m, star, star, star, star] [lit "/SC", lit "HOURLY", lit "/MO", lit "1", lit "/ST", hhmm 0 mm]
  | daily {m h : Str} {mm hh : Nat} (hmin : Numeral 0 59 m mm) (hhr : Numeral 0 23 h hh) :
    Supported [m, h, star, star, star] [lit "/SC", lit "DAILY", lit "/MO", lit "1", lit "/ST", hhmm hh mm]
  | weekly {m h d day : Str} {mm hh : Nat} (hmin : Numeral 0 59 m mm) (hhr : Numeral 0 23 h hh) (hdow : DayField d day) :
    Supported [m, h, star, star, d] [lit "/SC", lit "WEEKLY", lit "/D", day, lit "/ST", hhmm hh mm]
  | monthly {m h d : Str} {mm hh dom : Nat} (hmin : Numeral 0 59 m mm) (hhr : Numeral 0 23 h hh) (hdom : Numeral 1 31 d dom) :
    Supported [m, h, d, star, star] [lit "/SC", lit "MONTHLY", lit "/D", writeNat dom, lit "/ST", hhmm hh mm]

theorem pad2_eq {n : Nat} (h : n < 100) : pad2 n = [digit (n / 10), digit (n % 10)] := by
  have hall : (List.range 100).all (fun n => pad2 n = [digit (n / 10), digit (n % 10)]) = true := by decide
  simpa using List.all_eq_true.1 hall n (List.mem_range.2 h)

theorem fmtTime_eq {hh mm : Nat} (hhh : hh ≤ 23) (hmm : mm ≤ 59) : fmtTime hh mm = hhmm hh mm := by
  rw [fmtTime, pad2_eq (by omega), pad2_eq (by omega)]
  rfl

theorem Numeral.ne_star {lo hi n : Nat} {s : Str} (h : Numeral lo hi s n) : s ≠ star := by
  rintro rfl
  exact decimal_not_mem h.1 (by decide : isDigit (ch '*') = false) (by decide)

/-- A number is not taken for a step. -/
theorem Numeral.no_step {lo hi n : Nat} {s : Str} (h : Numeral lo hi s n) : s.take 2 ≠ lit "*/" := by
  intro hslash
  have hstar : ch '*' ∈ s := List.mem_of_mem_take (by rw [hslash]; decide)
  exact decimal_not_mem h.1 (by decide) hstar

theorem Numeral.parse {lo hi n : Nat} {s : Str} (h : Numeral lo hi s n) (hguard : hi ≤ 100000) :
    parseIntInRange s lo hi = some n :=
  parseIntInRange_of_decimal h.1 h.2.1 h.2.2 hguard

theorem DayField.parse {s day : Str} (h : DayField s day) : parseDow s = day ∧ day ≠ [] ∧ s ≠ star := by
  rcases h with ⟨d, hd, rfl, hday⟩ | ⟨hday, hs⟩
  · have hall : ∀ d ≤ 6, parseDow [UInt8.ofNat (48 + d)] = (days[d]?).getD [] ∧ (days[d]?).getD [] ≠ [] ∧
        [UInt8.ofNat (48 + d)] ≠ star := by decide
    have hget : (days[d]?).getD [] = day := by rw [hday]; rfl
    obtain ⟨hparse, hne, hstar⟩ := hall d hd
    rw [hget] at hparse hne
    exact ⟨hparse, hne, hstar⟩
  · have hall : ∀ d ∈ days, d.length = 3 ∧ days.find? (· = d) = some d := by decide
    obtain ⟨hlen, hfind⟩ := hall day hday
    have hs3 : s.length = 3 := by rw [← hlen, ← hs, List.length_map]
    refine ⟨?_, ?_, ?_⟩
    · match s, hs3 with
      | [a, b, c], _ =>
        unfold parseDow
        simp only [hs, hfind, Option.getD_some]
    · rintro rfl
      cases hlen
    · rintro rfl
      cases hs3

/-! ## The two agree -/

/-- A line whose minute field is a step. -/
theorem translate_step {s t : Str} (hw : words s = [lit "*/" ++ t, star, star, star, star]) (ht : t ≠ []) :
    translate s = match parseIntInRange t 1 1439 with
      | none => reject (lit "minute step must be 1..1439")
      | some n => accept [lit "/SC", lit "MINUTE", lit "/MO", writeNat n] := by
  have hlen : 2 < (lit "*/" ++ t).length := by
    have hpos : 0 < t.length := List.length_pos_iff.2 ht
    have htwo : (lit "*/").length = 2 := rfl
    rw [List.length_append]
    omega
  have hne : lit "*/" ++ t ≠ star := by
    intro heq
    rw [heq] at hlen
    exact absurd hlen (by decide)
  have htake : (lit "*/" ++ t).take 2 = lit "*/" := rfl
  have hdrop : (lit "*/" ++ t).drop 2 = t := rfl
  unfold translate
  rw [splitFields_eq, hw]
  cases hn : parseIntInRange t 1 1439 with
  | none => simp only [ne_eq, not_true, if_false, hne, false_and, hlen, htake, and_self, if_true, hdrop, hn]
  | some n => simp only [ne_eq, not_true, if_false, hne, false_and, hlen, htake, and_self, if_true, hdrop, hn]

theorem translate_of_supported {s : Str} {fields args : List Str} (hw : words s = fields) (h : Supported fields args) :
    translate s = accept args := by
  cases h with
  | minutely =>
    unfold translate
    rw [splitFields_eq, hw]
    rfl
  | step ht => rw [translate_step hw (decimal_eq_some ht.1).1, ht.parse (by decide)]
  | hourly hmin =>
    unfold translate
    rw [splitFields_eq, hw]
    simp only [ne_eq, not_true, if_false, hmin.ne_star, hmin.no_step, false_and, and_false, hmin.parse (by decide), translateAt,
      and_self, if_true, fmtTime_eq (Nat.zero_le 23) hmin.2.2]
  | daily hmin hhr =>
    unfold translate
    rw [splitFields_eq, hw]
    simp only [ne_eq, not_true, if_false, hmin.ne_star, hmin.no_step, hhr.ne_star, false_and, and_false, hmin.parse (by decide),
      hhr.parse (by decide), translateAt, and_self, not_false_eq_true, if_true, fmtTime_eq hhr.2.2 hmin.2.2]
  | weekly hmin hhr hdow =>
    unfold translate
    rw [splitFields_eq, hw]
    obtain ⟨hday, hne, hstar⟩ := hdow.parse
    simp only [ne_eq, not_true, if_false, hmin.ne_star, hmin.no_step, hhr.ne_star, and_false, hmin.parse (by decide),
      hhr.parse (by decide), translateAt, hstar, hday, hne, and_self, not_false_eq_true, if_true,
      fmtTime_eq hhr.2.2 hmin.2.2]
  | monthly hmin hhr hdom =>
    unfold translate
    rw [splitFields_eq, hw]
    simp only [ne_eq, not_true, if_false, hmin.ne_star, hmin.no_step, hhr.ne_star, hdom.ne_star, false_and, and_false,
      hmin.parse (by decide), hhr.parse (by decide), hdom.parse (by decide), translateAt, and_self, not_false_eq_true, if_true,
      fmtTime_eq hhr.2.2 hmin.2.2]

theorem supported_of_shape {mm : Nat} {fMin fHr fDom fDow : Str} {args : List Str} (hmin : Numeral 0 59 fMin mm)
    (h : Shape mm fHr fDom fDow args) : Supported [fMin, fHr, fDom, star, fDow] args := by
  have h59 := hmin.2.2
  cases h with
  | hourly =>
    rw [fmtTime_eq (Nat.zero_le 23) h59]
    exact .hourly hmin
  | weekly hhr h23 hdow =>
    rw [fmtTime_eq h23 h59]
    exact .weekly hmin ⟨hhr, Nat.zero_le _, h23⟩ (parseDow_cases hdow)
  | daily hhr h23 =>
    rw [fmtTime_eq h23 h59]
    exact .daily hmin ⟨hhr, Nat.zero_le _, h23⟩
  | monthly hhr h23 hdom h1 h31 =>
    rw [fmtTime_eq h23 h59]
    exact .monthly hmin ⟨hhr, Nat.zero_le _, h23⟩ ⟨hdom, h1, h31⟩

theorem supported_of_translate {s : Str} (h : (translate s).error = []) : Supported (words s) (translate s).args := by
  obtain ⟨fMin, fHr, fDom, fDow, hw, hacc⟩ := translate_accepted rfl h
  rw [hw]
  generalize hargs : (translate s).args = args at hacc
  cases hacc with
  | everyMinute => exact .minutely
  | literal hmin h59 hs => exact supported_of_shape ⟨hmin, Nat.zero_le _, h59⟩ hs
  | @step t n ht hn =>
    refine .step ⟨ht, hn, ?_⟩
    by_contra hbig
    -- A step above the limit is refused.
    have hparse : parseIntInRange t 1 1439 = none := by
      rcases hp : parseIntInRange t 1 1439 with _ | m
      · rfl
      · obtain ⟨hm, -, hle⟩ := parseIntInRange_eq hp
        cases ht.symm.trans hm
        exact absurd hle hbig
    rw [translate_step hw (decimal_eq_some ht).1, hparse] at h
    exact absurd h (by decide)

/-- A translation has flags only if it has no error. -/
def Exclusive (t : Translation) : Prop := t.error ≠ [] → t.args = []

theorem exclusive_reject (error : Str) : Exclusive (reject error) := fun _ => rfl

theorem exclusive_accept (args : List Str) : Exclusive (accept args) := fun h => absurd rfl h

theorem translateAt_exclusive (mm : Nat) (fHr fDom fDow : Str) : Exclusive (translateAt mm fHr fDom fDow) := by
  unfold translateAt
  dsimp only
  repeat' split
  all_goals first
    | exact exclusive_accept _
    | exact exclusive_reject _

theorem translate_exclusive (s : Str) : Exclusive (translate s) := by
  unfold translate
  repeat' split
  all_goals first
    | exact exclusive_accept _
    | exact exclusive_reject _
    | exact translateAt_exclusive _ _ _ _

/-- `translate` accepts the table, with its flags. What it refuses has an error
and no flags, and no number overflows. -/
theorem translate_grammar (s : Str) :
    ((translate s).error = [] ↔ ∃ args, Supported (words s) args) ∧
    (∀ args, Supported (words s) args → translate s = accept args) ∧
    ((translate s).error ≠ [] → (translate s).args = []) ∧
    ∀ t, parseDigitsInt t 0 = some (parseDigits t 0) := by
  refine ⟨⟨?_, ?_⟩, ?_, translate_exclusive s, ?_⟩
  · intro h
    exact ⟨_, supported_of_translate h⟩
  · rintro ⟨args, h⟩
    rw [translate_of_supported rfl h]
    rfl
  · intro args h
    exact translate_of_supported rfl h
  · intro t
    exact parseDigitsInt_eq t (Nat.zero_le _)

end McpBridge.Cron.Schtasks
