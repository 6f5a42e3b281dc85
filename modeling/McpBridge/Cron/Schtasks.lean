import McpBridge.Lib.Schedule
/-!
# From crontab lines to scheduled tasks (`tools/scheduling/cron_to_schtasks.cpp`)

On Windows a schedule is given to `schtasks` as flags. `translate` accepts six
shapes of crontab lines and refuses the rest. What it accepts it translates
faithfully, except for minute steps: `*/n` starts over each hour, and `/MO n`
does not. `translate_faithful_iff` says that the two agree iff `n` divides 60.
-/

open McpBridge.Lib

namespace McpBridge.Cron

/-- The flags, or why there are none. -/
structure Translation where
  args : List Str
  error : Str
deriving DecidableEq

namespace Schtasks

/-- The loop of `splitFields`; `cur` is the field so far. -/
def splitFieldsLoop : Str → Str → List Str
  | [], cur => if cur = [] then [] else [cur]
  | c :: cs, cur =>
    if isBlank c then (if cur = [] then splitFieldsLoop cs [] else cur :: splitFieldsLoop cs [])
    else splitFieldsLoop cs (cur ++ [c])

def splitFields (s : Str) : List Str := splitFieldsLoop s []

/-- The loop of `parseIntInRange`, with its overflow guard. -/
def parseDigits : Str → Nat → Option Nat
  | [], v => some v
  | c :: cs, v =>
    if c < ch '0' ∨ ch '9' < c then none
    else if 100000 < v * 10 + (c.toNat - 48) then none
    else parseDigits cs (v * 10 + (c.toNat - 48))

def parseIntInRange (s : Str) (lo hi : Nat) : Option Nat :=
  if s = [] then none
  else (parseDigits s 0).bind fun v => if v < lo ∨ hi < v then none else some v

def days : List Str := ["SUN", "MON", "TUE", "WED", "THU", "FRI", "SAT"].map lit

/-- The day's token, or the empty string. -/
def parseDow (s : Str) : Str :=
  match s with
  | [c] => if ch '0' ≤ c ∧ c ≤ ch '6' then (days[c.toNat - 48]?).getD [] else []
  | [_, _, _] => (days.find? (· = s.map toUpper)).getD []
  | _ => []

/-- `%02d` -/
def pad2 (n : Nat) : Str := if n < 10 then ch '0' :: writeNat n else writeNat n

def fmtTime (hh mm : Nat) : Str := pad2 hh ++ ch ':' :: pad2 mm

def reject (error : Str) : Translation := ⟨[], error⟩

def accept (args : List Str) : Translation := ⟨args, []⟩

def got (what : String) (field : Str) : Translation := reject (lit what ++ lit " (got '" ++ field ++ lit "')")

def star : Str := lit "*"

/-- The shapes whose minute field is a literal. -/
def translateAt (mm : Nat) (fHr fDom fDow : Str) : Translation :=
  if fHr = star ∧ fDom = star ∧ fDow = star then
    accept [lit "/SC", lit "HOURLY", lit "/MO", lit "1", lit "/ST", fmtTime 0 mm]
  else if fHr ≠ star ∧ fDom = star ∧ fDow ≠ star then
    match parseIntInRange fHr 0 23 with
    | none => got "hour field must be a literal 0-23" fHr
    | some hh =>
      let day := parseDow fDow
      if day = [] then got "day-of-week must be 0-6 or SUN..SAT" fDow
      else accept [lit "/SC", lit "WEEKLY", lit "/D", day, lit "/ST", fmtTime hh mm]
  else if fHr ≠ star ∧ fDom = star ∧ fDow = star then
    match parseIntInRange fHr 0 23 with
    | none => got "hour field must be a literal 0-23" fHr
    | some hh => accept [lit "/SC", lit "DAILY", lit "/MO", lit "1", lit "/ST", fmtTime hh mm]
  else if fHr ≠ star ∧ fDom ≠ star ∧ fDow = star then
    match parseIntInRange fHr 0 23 with
    | none => got "hour field must be a literal 0-23" fHr
    | some hh =>
      match parseIntInRange fDom 1 31 with
      | none => got "day-of-month must be 1-31" fDom
      | some dom => accept [lit "/SC", lit "MONTHLY", lit "/D", writeNat dom, lit "/ST", fmtTime hh mm]
  else
    reject (lit "this cron shape isn't supported on Windows yet; supported: " ++
      lit "'* * * * *', '*/N * * * *', 'M * * * *', 'M H * * *', 'M H * * D', 'M H DOM * *'")

def translate (cronExpr : Str) : Translation :=
  match splitFields cronExpr with
  | [fMin, fHr, fDom, fMon, fDow] =>
    if fMon ≠ star then
      reject (lit "month restrictions are not supported on Windows yet (month field must be '*')")
    else if fMin = star ∧ fHr = star ∧ fDom = star ∧ fDow = star then
      accept [lit "/SC", lit "MINUTE", lit "/MO", lit "1"]
    else if 2 < fMin.length ∧ fMin.take 2 = lit "*/" ∧ fHr = star ∧ fDom = star ∧ fDow = star then
      match parseIntInRange (fMin.drop 2) 1 1439 with
      | none => reject (lit "minute step must be 1..1439")
      | some n => accept [lit "/SC", lit "MINUTE", lit "/MO", writeNat n]
    else
      match parseIntInRange fMin 0 59 with
      | none => got "minute field must be a literal 0-59 or '*/N'" fMin
      | some mm => translateAt mm fHr fDom fDow
  | fields =>
    if fields.length < 5 then reject (lit "schedule must have 5 fields (minute hour dom month dow)")
    else reject (lit "extra fields after dow are not supported on Windows (use 5-field cron only)")

/-! ## The fields -/

theorem splitFieldsLoop_eq (s cur : Str) (hcur : ∀ c ∈ cur, isBlank c = false) : splitFieldsLoop s cur = words (cur ++ s) := by
  induction s generalizing cur with
  | nil =>
    rw [List.append_nil]
    by_cases h : cur = []
    · subst h; rfl
    · rw [words_single ⟨h, hcur⟩, splitFieldsLoop, if_neg h]
  | cons c s ih =>
    unfold splitFieldsLoop
    by_cases hc : isBlank c = true
    · have hsplit : (cur ++ c :: s).splitOnP isBlank = cur :: s.splitOnP isBlank :=
        List.splitOnP_append_cons_of_forall_mem (by simpa using hcur) _ hc _
      have hwords : words (cur ++ c :: s) = if cur = [] then words s else cur :: words s := by
        unfold words
        rw [hsplit]
        split
        · next h => simp [h]
        · next h => simp [h]
      rw [if_pos hc, ih [] (by simp), hwords, List.nil_append]
    · rw [if_neg hc, ih]
      · rw [List.append_assoc, List.singleton_append]
      · intro d hd
        rcases List.mem_append.1 hd with hd | hd
        · exact hcur d hd
        · rw [List.mem_singleton.1 hd, Bool.eq_false_iff]
          exact hc

theorem splitFields_eq (s : Str) : splitFields s = words s := splitFieldsLoop_eq s [] (by simp)

theorem parseDigits_eq {s : Str} {v n : Nat} (h : parseDigits s v = some n) :
    (∀ c ∈ s, isDigit c = true) ∧ n = s.foldl (fun a c => 10 * a + (c.toNat - 48)) v := by
  induction s generalizing v with
  | nil =>
    cases h
    simp
  | cons c s ih =>
    unfold parseDigits at h
    split at h
    · cases h
    next hc =>
    split at h
    · cases h
    · obtain ⟨hs, hn⟩ := ih h
      refine ⟨List.forall_mem_cons.2 ⟨?_, hs⟩, ?_⟩
      · simpa [isDigit, not_or] using hc
      · rw [hn, List.foldl_cons, Nat.mul_comm v 10]

theorem parseIntInRange_eq {s : Str} {lo hi n : Nat} (h : parseIntInRange s lo hi = some n) :
    decimal s = some n ∧ lo ≤ n ∧ n ≤ hi := by
  unfold parseIntInRange at h
  split at h
  · cases h
  next hne =>
  obtain ⟨v, hv, h⟩ := Option.bind_eq_some_iff.1 h
  split at h
  · cases h
  next hrange =>
  cases h
  obtain ⟨hs, hn⟩ := parseDigits_eq hv
  refine ⟨?_, by omega, by omega⟩
  unfold decimal
  rw [if_pos ⟨hne, List.all_eq_true.2 hs⟩, hn]
  rfl

theorem decimal_pad2 (n : Nat) : decimal (pad2 n) = some n := by
  unfold pad2
  split
  · exact decimal_zero_cons (decimal_writeNat n)
  · exact decimal_writeNat n

theorem time_fmtTime {hh mm : Nat} (hhh : hh < 24) (hmm : mm < 60) : TaskSchedule.time (fmtTime hh mm) = some (hh, mm) :=
  TaskSchedule.time_eq (decimal_pad2 hh) (decimal_pad2 mm) hhh hmm

theorem mem_map_toUpper {s : Str} {c : UInt8} (hc : c ∈ s) (hl : isLower c = false) : c ∈ s.map toUpper := by
  refine List.mem_map.2 ⟨c, hc, ?_⟩
  rw [toUpper, hl]
  rfl

/-- A name of a day is no number, and has none of the characters of lists, steps and ranges. -/
theorem day_name {s : Str} (h : s.map toUpper ∈ days) : FieldSpec.Plain s ∧ decimal s = none := by
  have hno : ∀ c, isLower c = false → (days.all fun d => !d.contains c) = true → c ∉ s := by
    intro c hl hdays hc
    have hd := List.all_eq_true.1 hdays _ h
    simp only [Bool.not_eq_eq_eq_not, Bool.not_true, List.contains_eq_mem, decide_eq_false_iff_not] at hd
    exact hd (mem_map_toUpper hc hl)
  refine ⟨⟨hno _ (by decide) (by decide), hno _ (by decide) (by decide), hno _ (by decide) (by decide), ?_⟩, ?_⟩
  · rintro rfl
    exact absurd h (by decide)
  · rcases hd : decimal s with _ | n
    · rfl
    · obtain ⟨hne, hdigits, -⟩ := decimal_eq_some hd
      obtain ⟨c, hc⟩ := List.exists_mem_of_ne_nil s hne
      have hup : (s.map toUpper).all (fun c => !isDigit c) = true :=
        List.all_eq_true.1 (by decide : (days.all fun d => d.all fun c => !isDigit c) = true) _ h
      have hlower : isLower c = false := by
        by_contra hl
        have hdig := hdigits c hc
        simp only [isLower, isDigit, Bool.not_eq_false, Bool.and_eq_true, decide_eq_true_eq, UInt8.le_iff_toNat_le] at hl hdig
        have ha : (ch 'a').toNat = 97 := rfl
        have h9 : (ch '9').toNat = 57 := rfl
        omega
      have hbad := List.all_eq_true.1 hup c (mem_map_toUpper hc hlower)
      rw [hdigits c hc] at hbad
      cases hbad

/-- A field that names a day is its number or, in any case, its name. -/
theorem parseDow_cases {s : Str} (h : parseDow s ≠ []) :
    (∃ n ≤ 6, s = [UInt8.ofNat (48 + n)] ∧ days[n]? = some (parseDow s)) ∨ (parseDow s ∈ days ∧ s.map toUpper = parseDow s) := by
  unfold parseDow at h ⊢
  split at h
  · next c =>
    split at h
    · next hc =>
      rw [UInt8.le_iff_toNat_le, UInt8.le_iff_toNat_le] at hc
      have h0 : (ch '0').toNat = 48 := rfl
      have h6 : (ch '6').toNat = 54 := rfl
      refine .inl ⟨c.toNat - 48, by omega, ?_, ?_⟩
      · rw [Nat.add_sub_cancel' (by omega), UInt8.ofNat_toNat]
      · have hlt : c.toNat - 48 < days.length := by
          have hlen : days.length = 7 := rfl
          omega
        simp only [UInt8.le_iff_toNat_le]
        rw [if_pos ⟨by omega, by omega⟩, List.getElem?_eq_getElem hlt, Option.getD_some]
    · exact absurd rfl h
  · rcases hf : days.find? (· = List.map toUpper _) with _ | day
    · rw [hf] at h
      exact absurd rfl h
    · have heq := List.find?_some hf
      simp only [decide_eq_true_eq] at heq
      exact .inr ⟨List.mem_of_find?_eq_some hf, heq.symm⟩
  · exact absurd rfl h

/-- What a day token is: the name of the day the field gives, by number or name. -/
theorem parseDow_eq {s : Str} (h : parseDow s ≠ []) :
    ∃ n, FieldSpec.Plain s ∧ FieldSpec.dow.number s = some n ∧ n ≤ 6 ∧ TaskSchedule.weekday (parseDow s) = some n := by
  rcases parseDow_cases h with ⟨n, hn, hs, hday⟩ | ⟨hmem, hs⟩
  · have hall : ∀ n ≤ 6, decimal [UInt8.ofNat (48 + n)] = some n ∧ days[n]?.bind TaskSchedule.weekday = some n := by decide
    obtain ⟨hdec, hnum⟩ := hall n hn
    rw [← hs] at hdec
    rw [hday] at hnum
    exact ⟨n, FieldSpec.plain_of_decimal hdec, FieldSpec.number_of_decimal _ hdec (Nat.zero_le _) (Nat.le_succ_of_le hn), hn, hnum⟩
  · rw [← hs] at hmem ⊢
    obtain ⟨hplain, hdec⟩ := day_name hmem
    have hall : ∀ d ∈ days, ∃ n ∈ List.range 7, TaskSchedule.weekday d = some n := by decide
    obtain ⟨n, hn, hday⟩ := hall _ hmem
    rw [List.mem_range] at hn
    refine ⟨n, hplain, ?_, by omega, hday⟩
    unfold TaskSchedule.weekday at hday
    unfold FieldSpec.number
    simp only [hdec, hday, Option.map_some]
    exact congrArg some (Nat.zero_add n)

/-! ## What is accepted -/

/-- The shapes of the hour and day fields once the minute is a literal, and the flags for each. -/
inductive Shape (mm : Nat) : (fHr fDom fDow : Str) → (args : List Str) → Prop where
  | hourly : Shape mm star star star [lit "/SC", lit "HOURLY", lit "/MO", lit "1", lit "/ST", fmtTime 0 mm]
  | weekly {fHr fDow : Str} {hh : Nat} (hhr : decimal fHr = some hh) (h23 : hh ≤ 23) (hdow : parseDow fDow ≠ []) :
    Shape mm fHr star fDow [lit "/SC", lit "WEEKLY", lit "/D", parseDow fDow, lit "/ST", fmtTime hh mm]
  | daily {fHr : Str} {hh : Nat} (hhr : decimal fHr = some hh) (h23 : hh ≤ 23) :
    Shape mm fHr star star [lit "/SC", lit "DAILY", lit "/MO", lit "1", lit "/ST", fmtTime hh mm]
  | monthly {fHr fDom : Str} {hh dom : Nat} (hhr : decimal fHr = some hh) (h23 : hh ≤ 23) (hdom : decimal fDom = some dom)
    (h1 : 1 ≤ dom) (h31 : dom ≤ 31) :
    Shape mm fHr fDom star [lit "/SC", lit "MONTHLY", lit "/D", writeNat dom, lit "/ST", fmtTime hh mm]

/-- Everything `translate` accepts. -/
inductive Accepted : (fMin fHr fDom fDow : Str) → (args : List Str) → Prop where
  | everyMinute : Accepted star star star star [lit "/SC", lit "MINUTE", lit "/MO", lit "1"]
  | step {t : Str} {n : Nat} (ht : decimal t = some n) (hn : 1 ≤ n) :
    Accepted (lit "*/" ++ t) star star star [lit "/SC", lit "MINUTE", lit "/MO", writeNat n]
  | literal {fMin fHr fDom fDow : Str} {args : List Str} {mm : Nat} (hmin : decimal fMin = some mm) (h59 : mm ≤ 59)
    (hs : Shape mm fHr fDom fDow args) : Accepted fMin fHr fDom fDow args

theorem got_error {what : String} {field : Str} (h : (got what field).error = []) : False := by
  have hne : lit " (got '" ≠ [] := by decide
  simp only [got, reject, List.append_eq_nil_iff] at h
  exact hne h.1.1.2

theorem translateAt_shape {mm : Nat} {fHr fDom fDow : Str} {t : Translation} (ht : translateAt mm fHr fDom fDow = t)
    (h : t.error = []) : Shape mm fHr fDom fDow t.args := by
  unfold translateAt at ht
  split at ht
  · next hall =>
    obtain ⟨rfl, rfl, rfl⟩ := hall
    subst ht
    exact .hourly
  split at ht
  · next hweek =>
    obtain ⟨-, rfl, -⟩ := hweek
    split at ht
    · subst ht
      exact (got_error h).elim
    next hh hhr =>
    obtain ⟨hhr, -, h23⟩ := parseIntInRange_eq hhr
    simp only at ht
    split at ht
    · subst ht
      exact (got_error h).elim
    next hdow =>
    subst ht
    exact .weekly hhr h23 hdow
  split at ht
  · next hday =>
    obtain ⟨-, rfl, rfl⟩ := hday
    split at ht
    · subst ht
      exact (got_error h).elim
    next hh hhr =>
    obtain ⟨hhr, -, h23⟩ := parseIntInRange_eq hhr
    subst ht
    exact .daily hhr h23
  split at ht
  · next hmonth =>
    obtain ⟨-, -, rfl⟩ := hmonth
    split at ht
    · subst ht
      exact (got_error h).elim
    next hh hhr =>
    obtain ⟨hhr, -, h23⟩ := parseIntInRange_eq hhr
    split at ht
    · subst ht
      exact (got_error h).elim
    next dom hdom =>
    obtain ⟨hdom, h1, h31⟩ := parseIntInRange_eq hdom
    subst ht
    exact .monthly hhr h23 hdom h1 h31
  · subst ht
    have hne : lit "this cron shape isn't supported on Windows yet; supported: " ≠ [] := by decide
    exact absurd (List.append_eq_nil_iff.1 h).1 hne

theorem translate_accepted {s : Str} {t : Translation} (ht : translate s = t) (h : t.error = []) :
    ∃ fMin fHr fDom fDow, words s = [fMin, fHr, fDom, star, fDow] ∧ Accepted fMin fHr fDom fDow t.args := by
  unfold translate at ht
  rw [splitFields_eq] at ht
  split at ht
  swap
  · split at ht
    · subst ht
      exact absurd h (by decide)
    · subst ht
      exact absurd h (by decide)
  next fMin fHr fDom fMon fDow hw =>
  split at ht
  · subst ht
    exact absurd h (by decide)
  next hmon =>
  have hmon : fMon = star := not_ne_iff.1 hmon
  subst hmon
  refine ⟨fMin, fHr, fDom, fDow, hw, ?_⟩
  split at ht
  · next hall =>
    obtain ⟨rfl, rfl, rfl, rfl⟩ := hall
    subst ht
    exact .everyMinute
  split at ht
  · next hstep =>
    obtain ⟨-, hslash, rfl, rfl, rfl⟩ := hstep
    split at ht
    · subst ht
      exact absurd h (by decide)
    next n hn =>
    obtain ⟨hn, h1, -⟩ := parseIntInRange_eq hn
    subst ht
    rw [← List.take_append_drop 2 fMin, hslash]
    exact .step hn h1
  · split at ht
    · subst ht
      exact (got_error h).elim
    next mm hmm =>
    obtain ⟨hmm, -, h59⟩ := parseIntInRange_eq hmm
    exact .literal hmm h59 (translateAt_shape ht h)

/-! ## Meaning -/

/-- The minute field is `*/n`. -/
def MinuteStep (cronExpr : Str) (n : Nat) : Prop :=
  ∃ t rest, words cronExpr = (lit "*/" ++ t) :: rest ∧ decimal t = some n

/-- Both schedules fire at the same minutes. -/
def SameTimes (cron : CronExpr) (task : TaskSchedule) (cal : Calendar) : Prop :=
  ∀ i, cron.firesAt cal i = task.firesAt cal i

/-- A field is read as the values of its range that `p` holds of. -/
def Reads (f : FieldSpec) (s : Str) (p : Nat → Prop) : Prop :=
  ∃ g, f.parse s = some g ∧ ∀ v, f.lo ≤ v → v ≤ f.hi → (g v = true ↔ p v)

theorem reads_star (f : FieldSpec) : Reads f star fun _ => True := by
  refine ⟨_, f.parse_star, ?_⟩
  intro v hlo hhi
  simp [hlo, hhi]

theorem reads_number (f : FieldSpec) {s : Str} {n : Nat} (hp : FieldSpec.Plain s) (hn : f.number s = some n) :
    Reads f s fun v => v = n := by
  refine ⟨_, f.parse_number hp hn, ?_⟩
  intro v hlo hhi
  simp only [Bool.and_eq_true, decide_eq_true_eq]
  omega

theorem reads_decimal (f : FieldSpec) {s : Str} {n : Nat} (hs : decimal s = some n) (hlo : f.lo ≤ n) (hhi : n ≤ f.hi) :
    Reads f s fun v => v = n :=
  reads_number f (FieldSpec.plain_of_decimal hs) (f.number_of_decimal hs hlo hhi)

theorem reads_step {t : Str} {n : Nat} (ht : decimal t = some n) (hn : 1 ≤ n) :
    Reads .minute (lit "*/" ++ t) fun v => n ∣ v := by
  refine ⟨_, FieldSpec.minute.parse_step ht (by omega), ?_⟩
  intro v hlo hhi
  have hoff : v - FieldSpec.minute.lo = v := Nat.sub_zero v
  simp only [hoff, hlo, hhi, decide_true, Bool.true_and, decide_eq_true_eq, Nat.dvd_iff_mod_eq_zero]

/-- When an expression with `*` for the month and one of the days fires. -/
theorem cron_fires {s fMin fHr fDom fDow : Str} {pMin pHr pDom pDow : Nat → Prop}
    (hw : words s = [fMin, fHr, fDom, star, fDow]) (hMin : Reads .minute fMin pMin) (hHr : Reads .hour fHr pHr)
    (hDom : Reads .dom fDom pDom) (hDow : Reads .dow fDow pDow) (hany : fDom = star ∨ fDow = star) :
    ∃ cron, CronExpr.parse s = some cron ∧ ∀ cal i, cron.firesAt cal i = true ↔
      pMin i.minute ∧ pHr i.hour ∧ pDom (cal i.day).dom ∧ (pDow (cal i.day).dow ∨ (cal i.day).dow = 0 ∧ pDow 7) := by
  obtain ⟨gMin, hgMin, hpMin⟩ := hMin
  obtain ⟨gHr, hgHr, hpHr⟩ := hHr
  obtain ⟨gDom, hgDom, hpDom⟩ := hDom
  obtain ⟨gDow, hgDow, hpDow⟩ := hDow
  obtain ⟨gMon, hgMon, hpMon⟩ := reads_star .month
  have hhead : fDom.head? = some (ch '*') ∨ fDow.head? = some (ch '*') := by
    rcases hany with rfl | rfl
    · exact .inl rfl
    · exact .inr rfl
  refine ⟨⟨gMin, gHr, gDom, gMon, gDow, true⟩, ?_, ?_⟩
  · unfold CronExpr.parse
    simp only [hw, hgMin, hgHr, hgDom, hgMon, hgDow, hhead, decide_true, Option.bind_eq_bind, Option.bind_some]
  · intro cal i
    have hm := hpMin i.minute (Nat.zero_le _) (Nat.le_of_lt_succ i.minute.isLt)
    have hh := hpHr i.hour (Nat.zero_le _) (Nat.le_of_lt_succ i.hour.isLt)
    have hd := hpDom (cal i.day).dom (cal i.day).dom_mem.1 (cal i.day).dom_mem.2
    have hmon := hpMon (cal i.day).month (cal i.day).month_mem.1 (cal i.day).month_mem.2
    have hw := hpDow (cal i.day).dow (Nat.zero_le _) (Nat.le_succ_of_le (cal i.day).dow_mem)
    have hsunday := hpDow 7 (Nat.zero_le _) (Nat.le_refl _)
    simp only [CronExpr.firesAt, if_true, Bool.and_eq_true, Bool.or_eq_true, decide_eq_true_eq, hm, hh, hd, hmon, hw,
      hsunday, and_true, and_assoc]

theorem sameTimes_iff {cron : CronExpr} {task : TaskSchedule} {cal : Calendar} :
    SameTimes cron task cal ↔ ∀ i, cron.firesAt cal i = true ↔ task.firesAt cal i = true :=
  forall_congr' fun _ => Bool.eq_iff_iff

/-- A literal minute, with every shape of the other fields. -/
theorem shape_faithful {s fMin fHr fDom fDow : Str} {args : List Str} {mm : Nat}
    (hw : words s = [fMin, fHr, fDom, star, fDow]) (hmin : decimal fMin = some mm) (h59 : mm ≤ 59)
    (hs : Shape mm fHr fDom fDow args) :
    ∃ cron task, CronExpr.parse s = some cron ∧ TaskSchedule.parse args = some task ∧ ∀ cal, SameTimes cron task cal := by
  have hMin := reads_decimal .minute hmin (Nat.zero_le _) h59
  have h60 : mm < 60 := by omega
  cases hs with
  | hourly =>
    obtain ⟨cron, hparse, hfires⟩ := cron_fires hw hMin (reads_star _) (reads_star _) (reads_star _) (.inl rfl)
    refine ⟨cron, .hourly mm, hparse, ?_, ?_⟩
    · simp [TaskSchedule.parse, time_fmtTime (by omega : 0 < 24) h60]
    · intro cal
      rw [sameTimes_iff]
      intro i
      simp [hfires, TaskSchedule.firesAt]
  | @weekly _ _ hh hhr h23 hdow =>
    obtain ⟨n, hplain, hnum, h6, hday⟩ := parseDow_eq hdow
    obtain ⟨cron, hparse, hfires⟩ := cron_fires hw hMin (reads_decimal .hour hhr (Nat.zero_le _) h23) (reads_star _)
      (reads_number .dow hplain hnum) (.inl rfl)
    refine ⟨cron, .weekly n hh mm, hparse, ?_, ?_⟩
    · have hkind : lit "WEEKLY" ≠ lit "HOURLY" ∧ lit "WEEKLY" ≠ lit "DAILY" := by decide
      simp [TaskSchedule.parse, time_fmtTime (by omega : hh < 24) h60, hday, hkind]
    · intro cal
      rw [sameTimes_iff]
      intro i
      simp only [hfires, TaskSchedule.firesAt, Bool.and_eq_true, decide_eq_true_eq]
      -- Sunday is also 7 in cron, and never here.
      have hsunday : ¬ 7 = n := by omega
      simp only [hsunday, and_false, or_false, true_and]
      tauto
  | @daily _ hh hhr h23 =>
    obtain ⟨cron, hparse, hfires⟩ := cron_fires hw hMin (reads_decimal .hour hhr (Nat.zero_le _) h23) (reads_star _)
      (reads_star _) (.inl rfl)
    refine ⟨cron, .daily hh mm, hparse, ?_, ?_⟩
    · have hkind : lit "DAILY" ≠ lit "HOURLY" := by decide
      simp [TaskSchedule.parse, time_fmtTime (by omega : hh < 24) h60, hkind]
    · intro cal
      rw [sameTimes_iff]
      intro i
      simp only [hfires, TaskSchedule.firesAt, Bool.and_eq_true, decide_eq_true_eq, true_or, and_true]
      tauto
  | @monthly _ _ hh dom hhr h23 hdom h1 h31 =>
    obtain ⟨cron, hparse, hfires⟩ := cron_fires hw hMin (reads_decimal .hour hhr (Nat.zero_le _) h23)
      (reads_decimal .dom hdom h1 h31) (reads_star _) (.inr rfl)
    refine ⟨cron, .monthly dom hh mm, hparse, ?_, ?_⟩
    · have hkind : lit "MONTHLY" ≠ lit "HOURLY" ∧ lit "MONTHLY" ≠ lit "DAILY" ∧ lit "MONTHLY" ≠ lit "WEEKLY" := by decide
      simp [TaskSchedule.parse, time_fmtTime (by omega : hh < 24) h60, decimal_writeNat, hkind]
    · intro cal
      rw [sameTimes_iff]
      intro i
      simp only [hfires, TaskSchedule.firesAt, Bool.and_eq_true, decide_eq_true_eq, true_or, and_true]
      tauto

/-- Every `n` minutes from midnight is every minute of the hour that `n` divides
iff `n` divides 60: otherwise the two differ at 01:00 of the start day. -/
theorem step_faithful {n : Nat} (cal : Calendar) :
    (∀ i : Instant, n ∣ i.minute.val ↔ (TaskSchedule.minute n).firesAt cal i = true) ↔ n ∣ 60 := by
  simp only [TaskSchedule.firesAt, decide_eq_true_eq, ← Nat.dvd_iff_mod_eq_zero]
  constructor
  · intro h
    have hone := (h ⟨0, 1, 0⟩).1 (dvd_zero n)
    exact hone
  · intro h i
    have hrest : n ∣ i.day * 1440 + i.hour * 60 := by
      have hday : i.day * 1440 + i.hour * 60 = 60 * (i.day * 24 + i.hour) := by omega
      rw [hday]
      exact h.mul_right _
    exact (Nat.dvd_add_right hrest).symm

/-- For every line that is accepted, the line and the flags have a meaning, and
on every calendar they fire at the same minutes iff the minute field is not a
step that does not divide 60. -/
theorem translate_faithful_iff (s : Str) (h : (translate s).error = []) :
    ∃ cron task, CronExpr.parse s = some cron ∧ TaskSchedule.parse (translate s).args = some task ∧
      ∀ cal, SameTimes cron task cal ↔ ∀ n, MinuteStep s n → n ∣ 60 := by
  obtain ⟨fMin, fHr, fDom, fDow, hw, hacc⟩ := translate_accepted rfl h
  have hno : ∀ f : Str, f.take 2 ≠ lit "*/" → words s = [f, fHr, fDom, star, fDow] → ∀ n, ¬ MinuteStep s n := by
    rintro f hf hw n ⟨t, rest, hw', -⟩
    rw [hw] at hw'
    apply hf
    rw [(List.cons.inj hw').1]
    rfl
  generalize (translate s).args = args at hacc
  cases hacc with
  | everyMinute =>
    obtain ⟨cron, hparse, hfires⟩ := cron_fires hw (reads_star _) (reads_star _) (reads_star _) (reads_star _) (.inl rfl)
    refine ⟨cron, .minute 1, hparse, ?_, ?_⟩
    · have hone : decimal (lit "1") = some 1 := by decide
      simp [TaskSchedule.parse, hone]
    · intro cal
      refine iff_of_true ?_ fun n hn => absurd hn (hno _ (by decide) hw n)
      rw [sameTimes_iff]
      intro i
      simp [hfires, TaskSchedule.firesAt, Nat.mod_one]
  | @step t n ht hn =>
    obtain ⟨cron, hparse, hfires⟩ := cron_fires hw (reads_step ht hn) (reads_star _) (reads_star _) (reads_star _) (.inl rfl)
    refine ⟨cron, .minute n, hparse, ?_, ?_⟩
    · simp [TaskSchedule.parse, decimal_writeNat]
    · intro cal
      have hsteps : (∀ m, MinuteStep s m → m ∣ 60) ↔ n ∣ 60 := by
        constructor
        · intro hall
          exact hall n ⟨t, _, hw, ht⟩
        · rintro hdvd m ⟨t', rest, hw', ht'⟩
          rw [hw] at hw'
          cases List.append_cancel_left (List.cons.inj hw').1
          cases ht.symm.trans ht'
          exact hdvd
      rw [hsteps, sameTimes_iff, ← step_faithful cal]
      simp only [hfires, true_or, and_true]
  | literal hmin h59 hs =>
    obtain ⟨cron, task, hparse, htask, hsame⟩ := shape_faithful hw hmin h59 hs
    refine ⟨cron, task, hparse, htask, fun cal => iff_of_true (hsame cal) fun n hn => absurd hn (hno _ ?_ hw n)⟩
    intro hslash
    have hstar : ch '*' ∈ fMin := List.mem_of_mem_take (by rw [hslash]; decide)
    exact decimal_not_mem hmin (by decide) hstar

/-- A calendar on which every day is Monday the first of January. -/
def mondays : Calendar := fun _ => ⟨1, 1, 1, by decide, by decide, by decide⟩

/-- `*/15 * * * *` is every 15 minutes. -/
theorem translate_faithful_iff_quarter :
    ∃ cron task, CronExpr.parse (lit "*/15 * * * *") = some cron ∧
      TaskSchedule.parse (translate (lit "*/15 * * * *")).args = some task ∧ SameTimes cron task mondays := by
  obtain ⟨cron, task, hcron, htask, hiff⟩ := translate_faithful_iff (lit "*/15 * * * *") (by decide)
  refine ⟨cron, task, hcron, htask, (hiff mondays).2 ?_⟩
  rintro n ⟨t, rest, hw, ht⟩
  have hwords : words (lit "*/15 * * * *") = (lit "*/" ++ lit "15") :: [star, star, star, star] := by decide
  rw [hwords] at hw
  cases List.append_cancel_left (List.cons.inj hw).1
  have h15 : decimal (lit "15") = some 15 := by decide
  cases h15.symm.trans ht
  decide

/-- `*/7 * * * *` fires at 01:00, and every 7 minutes from midnight does not. -/
theorem seven_minutes_differ :
    (translate (lit "*/7 * * * *")).error = [] ∧
    ((CronExpr.parse (lit "*/7 * * * *")).map fun cron => cron.firesAt mondays ⟨0, 1, 0⟩) = some true ∧
    ((TaskSchedule.parse (translate (lit "*/7 * * * *")).args).map fun task => task.firesAt mondays ⟨0, 1, 0⟩) =
      some false := by
  decide

end Schtasks

end McpBridge.Cron
