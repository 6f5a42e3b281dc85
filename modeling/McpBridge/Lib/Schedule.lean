import McpBridge.Lib.JsonText
/-!
# Schedules

What a crontab line and the flags of a scheduled task mean: the minutes at which
they fire. Time is counted from the start day; a calendar gives each day its
month, day of the month and weekday. Nothing depends on which days a calendar
really has, so the theorems hold for every one.

A crontab field is a list of `*`, numbers, names and ranges, the last possibly
with a step. If neither day field starts with `*`, a day that matches either of
them will do.
-/

namespace McpBridge.Lib

structure Day where
  month : Nat
  dom : Nat
  dow : Nat
  month_mem : 1 ≤ month ∧ month ≤ 12
  dom_mem : 1 ≤ dom ∧ dom ≤ 31
  dow_mem : dow ≤ 6

/-- The days from the start day on. -/
abbrev Calendar := Nat → Day

structure Instant where
  day : Nat
  hour : Fin 24
  minute : Fin 60

/-- Minutes since 00:00 of the start day. -/
def Instant.elapsed (i : Instant) : Nat := i.day * 1440 + i.hour * 60 + i.minute

/-! ## Numbers -/

def decimal (s : Str) : Option Nat := if s ≠ [] ∧ s.all isDigit = true then some (readDigits s) else none

theorem decimal_eq_some {s : Str} {n : Nat} (h : decimal s = some n) : s ≠ [] ∧ (∀ c ∈ s, isDigit c = true) ∧ readDigits s = n := by
  unfold decimal at h
  split at h
  · next hs =>
    cases h
    exact ⟨hs.1, List.all_eq_true.1 hs.2, rfl⟩
  · cases h

theorem decimal_not_mem {s : Str} {n : Nat} (h : decimal s = some n) {x : UInt8} (hx : isDigit x = false) : x ∉ s :=
  not_mem_of_all (List.all_eq_true.2 (decimal_eq_some h).2.1) hx

/-- A leading zero does not change a number. -/
theorem decimal_zero_cons {s : Str} {n : Nat} (h : decimal s = some n) : decimal (ch '0' :: s) = some n := by
  obtain ⟨-, hs, hn⟩ := decimal_eq_some h
  have hzero : readDigits (ch '0' :: s) = readDigits s := rfl
  unfold decimal
  rw [if_pos, hzero, hn]
  exact ⟨List.cons_ne_nil _ _, List.all_eq_true.2 (List.forall_mem_cons.2 ⟨by decide, hs⟩)⟩

theorem decimal_writeNat (n : Nat) : decimal (writeNat n) = some n := by
  unfold decimal
  rw [if_pos ⟨writeNat_ne_nil n, List.all_eq_true.2 (writeNat_digits n)⟩, readDigits_writeNat]

def toUpper (c : UInt8) : UInt8 := if isLower c then c - 32 else c

/-! ## Crontab lines -/

/-- The values of a field, and the names of the first of them. -/
structure FieldSpec where
  lo : Nat
  hi : Nat
  names : List Str

namespace FieldSpec

def minute : FieldSpec := ⟨0, 59, []⟩

def hour : FieldSpec := ⟨0, 23, []⟩

def dom : FieldSpec := ⟨1, 31, []⟩

def month : FieldSpec :=
  ⟨1, 12, ["JAN", "FEB", "MAR", "APR", "MAY", "JUN", "JUL", "AUG", "SEP", "OCT", "NOV", "DEC"].map lit⟩

/-- Sunday is 0 and 7. -/
def dow : FieldSpec := ⟨0, 7, ["SUN", "MON", "TUE", "WED", "THU", "FRI", "SAT"].map lit⟩

/-- A number in the field's range, or a name in any case. -/
def number (f : FieldSpec) (s : Str) : Option Nat :=
  match decimal s with
  | some n => if f.lo ≤ n ∧ n ≤ f.hi then some n else none
  | none => (f.names.findIdx? (· = s.map toUpper)).map (f.lo + ·)

/-- `*`, `a` or `a-b` -/
def range (f : FieldSpec) (s : Str) : Option (Nat × Nat) :=
  if s = lit "*" then some (f.lo, f.hi)
  else match s.splitOnP (· = ch '-') with
    | [a] => (f.number a).map fun n => (n, n)
    | [a, b] => (f.number a).bind fun m => (f.number b).bind fun n => if m ≤ n then some (m, n) else none
    | _ => none

/-- A range, or every n-th value of `*` or `a-b`. -/
def element (f : FieldSpec) (s : Str) : Option (Nat → Bool) :=
  match s.splitOnP (· = ch '/') with
  | [r] => (f.range r).map fun (a, b) v => decide (a ≤ v) && decide (v ≤ b)
  | [r, step] =>
    (f.range r).bind fun (a, b) => (decimal step).bind fun n =>
      if n = 0 ∨ ¬ (r = lit "*" ∨ ch '-' ∈ r) then none
      else some fun v => decide (a ≤ v) && decide (v ≤ b) && decide ((v - a) % n = 0)
  | _ => none

def parse (f : FieldSpec) (s : Str) : Option (Nat → Bool) :=
  ((s.splitOnP (· = ch ',')).mapM f.element).map fun l v => l.any (· v)

theorem splitOnP_of_not_mem {s : Str} {x : UInt8} (h : x ∉ s) : s.splitOnP (· = x) = [s] := by
  have hs : ∀ c ∈ s, ¬ c = x := by
    rintro c hc rfl
    exact h hc
  exact List.splitOnP_eq_singleton (by simpa using hs)

theorem splitOnP_at {s : Str} {x : UInt8} (h : x ∉ s) {t : Str} (ht : x ∉ t) : (s ++ x :: t).splitOnP (· = x) = [s, t] := by
  have hs : ∀ c ∈ s, ¬ c = x := by
    rintro c hc rfl
    exact h hc
  rw [List.splitOnP_append_cons_of_forall_mem (by simpa using hs) _ (by simp), splitOnP_of_not_mem ht]

/-- A text of one element: no lists, steps or ranges. -/
def Plain (s : Str) : Prop := ch ',' ∉ s ∧ ch '/' ∉ s ∧ ch '-' ∉ s ∧ s ≠ lit "*"

theorem plain_of_decimal {s : Str} {n : Nat} (h : decimal s = some n) : Plain s := by
  refine ⟨decimal_not_mem h (by decide), decimal_not_mem h (by decide), decimal_not_mem h (by decide), ?_⟩
  rintro rfl
  exact decimal_not_mem h (by decide : isDigit (ch '*') = false) (by decide)

section
variable (f : FieldSpec)

theorem parse_of_element {s : Str} {g : Nat → Bool} (hs : ch ',' ∉ s) (he : f.element s = some g) : f.parse s = some g := by
  unfold parse
  rw [splitOnP_of_not_mem hs]
  simp [he]

theorem parse_star : f.parse (lit "*") = some fun v => decide (f.lo ≤ v) && decide (v ≤ f.hi) := by
  apply parse_of_element f (by decide)
  unfold element
  rw [splitOnP_of_not_mem (by decide)]
  rfl

theorem parse_number {s : Str} {n : Nat} (hp : Plain s) (hn : f.number s = some n) :
    f.parse s = some fun v => decide (n ≤ v) && decide (v ≤ n) := by
  obtain ⟨hcomma, hslash, hdash, hstar⟩ := hp
  apply parse_of_element f hcomma
  unfold element range
  rw [splitOnP_of_not_mem hslash]
  simp only [if_neg hstar, splitOnP_of_not_mem hdash, hn, Option.map_some]

theorem number_of_decimal {s : Str} {n : Nat} (h : decimal s = some n) (hlo : f.lo ≤ n) (hhi : n ≤ f.hi) :
    f.number s = some n := by
  unfold number
  simp only [h, hlo, hhi, and_self, if_true]

theorem parse_step {t : Str} {n : Nat} (ht : decimal t = some n) (hn : n ≠ 0) :
    f.parse (lit "*/" ++ t) =
      some fun v => decide (f.lo ≤ v) && decide (v ≤ f.hi) && decide ((v - f.lo) % n = 0) := by
  have hcomma : ch ',' ∉ lit "*/" ++ t := by
    rw [List.mem_append, not_or]
    exact ⟨by decide, decimal_not_mem ht (by decide)⟩
  have hsplit : (lit "*/" ++ t).splitOnP (· = ch '/') = [lit "*", t] :=
    splitOnP_at (s := lit "*") (by decide) (decimal_not_mem ht (by decide))
  apply parse_of_element f hcomma
  unfold element range
  rw [hsplit]
  simp [ht, hn]

end

end FieldSpec

structure CronExpr where
  minute : Nat → Bool
  hour : Nat → Bool
  dom : Nat → Bool
  month : Nat → Bool
  dow : Nat → Bool
  /-- One of the day fields starts with `*`. -/
  anyDay : Bool

def CronExpr.parse (s : Str) : Option CronExpr :=
  match words s with
  | [minute, hour, dom, month, dow] => do
    let anyDay := dom.head? = some (ch '*') ∨ dow.head? = some (ch '*')
    some ⟨← FieldSpec.minute.parse minute, ← FieldSpec.hour.parse hour, ← FieldSpec.dom.parse dom,
      ← FieldSpec.month.parse month, ← FieldSpec.dow.parse dow, anyDay⟩
  | _ => none

def CronExpr.firesAt (e : CronExpr) (cal : Calendar) (i : Instant) : Bool :=
  let day := cal i.day
  let onDom := e.dom day.dom
  let onDow := e.dow day.dow || (decide (day.dow = 0) && e.dow 7)
  e.minute i.minute && e.hour i.hour && e.month day.month && (if e.anyDay then onDom && onDow else onDom || onDow)

/-! ## Flags of a scheduled task -/

inductive TaskSchedule where
  /-- Every `n` minutes from 00:00 of the start day. -/
  | minute (n : Nat)
  | hourly (minute : Nat)
  | daily (hour minute : Nat)
  | weekly (dow hour minute : Nat)
  | monthly (dom hour minute : Nat)

namespace TaskSchedule

/-- `HH:MM` -/
def time (s : Str) : Option (Nat × Nat) :=
  match s.splitOnP (· = ch ':') with
  | [hh, mm] => (decimal hh).bind fun h => (decimal mm).bind fun m => if h < 24 ∧ m < 60 then some (h, m) else none
  | _ => none

theorem time_eq {hh mm : Str} {h m : Nat} (hhh : decimal hh = some h) (hmm : decimal mm = some m) (hh24 : h < 24)
    (hm60 : m < 60) : time (hh ++ ch ':' :: mm) = some (h, m) := by
  unfold time
  rw [FieldSpec.splitOnP_at (decimal_not_mem hhh (by decide)) (decimal_not_mem hmm (by decide))]
  simp [hhh, hmm, hh24, hm60]

def weekday (s : Str) : Option Nat := FieldSpec.dow.names.findIdx? (· = s)

def parse : List Str → Option TaskSchedule
  | [sc, kind, flag, value] =>
    if sc = lit "/SC" ∧ kind = lit "MINUTE" ∧ flag = lit "/MO" then (decimal value).map .minute else none
  | [sc, kind, flag, value, st, t] =>
    if sc = lit "/SC" ∧ st = lit "/ST" then
      (time t).bind fun (h, m) =>
        if kind = lit "HOURLY" ∧ flag = lit "/MO" ∧ value = lit "1" then some (.hourly m)
        else if kind = lit "DAILY" ∧ flag = lit "/MO" ∧ value = lit "1" then some (.daily h m)
        else if kind = lit "WEEKLY" ∧ flag = lit "/D" then (weekday value).map (.weekly · h m)
        else if kind = lit "MONTHLY" ∧ flag = lit "/D" then (decimal value).map (.monthly · h m)
        else none
    else none
  | _ => none

def firesAt (cal : Calendar) (i : Instant) : TaskSchedule → Bool
  | .minute n => i.elapsed % n = 0
  | .hourly m => i.minute.val = m
  | .daily h m => i.hour.val = h && i.minute.val = m
  | .weekly dow h m => (cal i.day).dow = dow && i.hour.val = h && i.minute.val = m
  | .monthly dom h m => (cal i.day).dom = dom && i.hour.val = h && i.minute.val = m

end TaskSchedule

end McpBridge.Lib
