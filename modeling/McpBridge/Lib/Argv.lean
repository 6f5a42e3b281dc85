import Mathlib.Data.List.Basic
import Mathlib.Data.List.Infix
import Mathlib.Data.List.Count
/-!
# The arguments in a command line

How a Windows program takes its command line apart: `2n` backslashes before a
quote are `n` backslashes, and the quote opens or closes a quoted part; `2n + 1`
are `n` backslashes and the quote itself; other backslashes stand for
themselves. Blanks outside quoted parts end arguments.

Nothing but blanks, quotes and half of the backslashes before a quote is lost.
`weight_argv` counts what is left, so that a line that lost something cannot be
read back as the arguments it was built from.
-/

namespace McpBridge.Lib

/-- The characters with a meaning in a command line. -/
structure ArgvChars (α : Type) where
  backslash : α
  quote : α
  blank : α → Bool
  quote_ne : quote ≠ backslash
  blank_backslash : blank backslash = false
  blank_quote : blank quote = false

namespace ArgvChars
variable {α : Type} (C : ArgvChars α)

theorem blank_ne_backslash {c : α} (h : C.blank c = true) : c ≠ C.backslash := by
  rintro rfl
  rw [C.blank_backslash] at h
  cases h

theorem blank_ne_quote {c : α} (h : C.blank c = true) : c ≠ C.quote := by
  rintro rfl
  rw [C.blank_quote] at h
  cases h

variable [DecidableEq α]

/-- Reads the arguments; `n` is the number of backslashes right before, and
`cur` the argument so far, if there is one. -/
def argvLoop : List α → Nat → Bool → Option (List α) → List (List α)
  | [], n, _, cur => (cur.map (· ++ List.replicate n C.backslash)).toList
  | c :: s, n, quoted, cur =>
    if c = C.backslash then argvLoop s (n + 1) quoted (some (cur.getD []))
    else if c = C.quote then
      let arg := cur.getD [] ++ List.replicate (n / 2) C.backslash
      if n % 2 = 0 then argvLoop s 0 (!quoted) (some arg) else argvLoop s 0 quoted (some (arg ++ [C.quote]))
    else if C.blank c && !quoted then
      (cur.map (· ++ List.replicate n C.backslash)).toList ++ argvLoop s 0 false none
    else argvLoop s 0 quoted (some (cur.getD [] ++ List.replicate n C.backslash ++ [c]))

def argv (line : List α) : List (List α) := C.argvLoop line 0 false none

/-! ## What is lost -/

/-- Two for a backslash and one for a quote. -/
def weight (s : List α) : Nat := 2 * s.count C.backslash + s.count C.quote

/-- The weight of the arguments in a line. -/
def lineWeight : List α → Nat → Nat
  | [], n => 2 * n
  | c :: s, n =>
    if c = C.backslash then lineWeight s (n + 1)
    else if c = C.quote then n + lineWeight s 0
    else 2 * n + lineWeight s 0

theorem weight_append (s t : List α) : C.weight (s ++ t) = C.weight s + C.weight t := by
  simp only [weight, List.count_append]
  omega

theorem weight_replicate (n : Nat) : C.weight (List.replicate n C.backslash) = 2 * n := by
  simp [weight, List.count_replicate, C.quote_ne.symm]

theorem weight_quote : C.weight [C.quote] = 1 := by
  simp [weight, C.quote_ne]

theorem weight_single {c : α} (hb : c ≠ C.backslash) (hq : c ≠ C.quote) : C.weight [c] = 0 := by
  simp [weight, hb, hq]

/-- The arguments weigh what the line does; backslashes that are still pending belong to an argument. -/
theorem weight_argvLoop (s : List α) (n : Nat) (quoted : Bool) (cur : Option (List α)) (hcur : cur = none → n = 0) :
    C.weight (C.argvLoop s n quoted cur).flatten = C.weight (cur.getD []) + C.lineWeight s n := by
  have hflush : ∀ (n : Nat) (cur : Option (List α)), (cur = none → n = 0) →
      C.weight (cur.map (· ++ List.replicate n C.backslash)).toList.flatten = C.weight (cur.getD []) + 2 * n := by
    intro n cur hcur
    rcases cur with _ | arg
    · rw [hcur rfl]
      rfl
    · simp [weight_append, weight_replicate]
  induction s generalizing n quoted cur with
  | nil => exact hflush n cur hcur
  | cons c s ih =>
    have hsome : ∀ (n : Nat) (quoted : Bool) (arg : List α),
        C.weight (C.argvLoop s n quoted (some arg)).flatten = C.weight arg + C.lineWeight s n := by
      intro n quoted arg
      exact ih n quoted (some arg) (by rintro ⟨⟩)
    rw [argvLoop, lineWeight]
    split
    · exact hsome _ _ _
    next hb =>
    split
    · dsimp only
      split
      · rw [hsome, weight_append, weight_replicate]
        omega
      · rw [hsome, weight_append, weight_append, weight_replicate, weight_quote]
        omega
    next hq =>
    split
    · rw [List.flatten_append, weight_append, hflush n cur hcur, ih _ _ _ fun _ => rfl]
      simp only [Option.getD_none, weight, List.count_nil]
      omega
    · rw [hsome, weight_append, weight_append, weight_replicate, C.weight_single hb hq]
      omega

theorem weight_argv (line : List α) : C.weight (C.argv line).flatten = C.lineWeight line 0 := by
  rw [argv, weight_argvLoop C line 0 false none fun _ => rfl]
  simp [weight]

/-! ## Quoting without backslashes -/

/-- A quoted argument whose quotes have a backslash before them, and nothing else has. -/
def escape (s : List α) : List α := s.flatMap fun c => if c = C.quote then [C.backslash, C.quote] else [c]

/-- The backslashes that stand before a quote or at the end, `k` of them right before. -/
def lost : List α → Nat → Nat
  | [], k => k
  | c :: s, k =>
    if c = C.backslash then lost s (k + 1)
    else if c = C.quote then k + lost s 0
    else lost s 0

/-- Each of these backslashes costs one. -/
theorem lineWeight_escape (s rest : List α) (k : Nat) :
    C.lineWeight (C.escape s ++ C.quote :: rest) k + C.lost s k = 2 * k + C.weight s + C.lineWeight rest 0 := by
  induction s generalizing k with
  | nil =>
    have hline : C.lineWeight (C.quote :: rest) k = k + C.lineWeight rest 0 := by
      rw [lineWeight, if_neg C.quote_ne, if_pos rfl]
    change C.lineWeight (C.quote :: rest) k + k = 2 * k + 0 + C.lineWeight rest 0
    rw [hline]
    omega
  | cons c s ih =>
    have hweight : C.weight (c :: s) = C.weight [c] + C.weight s := C.weight_append [c] s
    rw [hweight, lost]
    by_cases hq : c = C.quote
    · subst hq
      have htext : C.escape (C.quote :: s) ++ C.quote :: rest =
          C.backslash :: C.quote :: (C.escape s ++ C.quote :: rest) := by simp [escape]
      rw [htext, if_neg C.quote_ne, if_pos rfl, lineWeight, if_pos rfl, lineWeight, if_neg C.quote_ne, if_pos rfl, weight_quote]
      have hrest := ih 0
      omega
    · have htext : C.escape (c :: s) ++ C.quote :: rest = c :: (C.escape s ++ C.quote :: rest) := by simp [escape, hq]
      rw [htext, lineWeight]
      by_cases hb : c = C.backslash
      · subst hb
        have hone : C.weight [C.backslash] = 2 := C.weight_replicate 1
        have hrest := ih (k + 1)
        rw [if_pos rfl, if_pos rfl, hone]
        omega
      · have hrest := ih 0
        rw [if_neg hb, if_neg hb, if_neg hq, if_neg hq, C.weight_single hb hq]
        omega

/-- If there are none, the quoted argument is read back. -/
theorem argvLoop_escape (s rest w : List α) (k : Nat) (h : C.lost s k = 0) :
    C.argvLoop (C.escape s ++ C.quote :: rest) k true (some w) =
      C.argvLoop rest 0 false (some (w ++ List.replicate k C.backslash ++ s)) := by
  induction s generalizing k w with
  | nil =>
    have hk : k = 0 := h
    subst hk
    change C.argvLoop (C.quote :: rest) 0 true (some w) = _
    rw [argvLoop, if_neg C.quote_ne, if_pos rfl]
    simp
  | cons c s ih =>
    rw [lost] at h
    by_cases hq : c = C.quote
    · subst hq
      have htext : C.escape (C.quote :: s) ++ C.quote :: rest =
          C.backslash :: C.quote :: (C.escape s ++ C.quote :: rest) := by simp [escape]
      rw [if_neg C.quote_ne, if_pos rfl] at h
      obtain ⟨hk, hs⟩ := Nat.add_eq_zero_iff.1 h
      subst hk
      rw [htext, argvLoop, if_pos rfl, argvLoop, if_neg C.quote_ne, if_pos rfl]
      dsimp only
      rw [if_neg (by decide), ih _ _ hs]
      simp
    · have htext : C.escape (c :: s) ++ C.quote :: rest = c :: (C.escape s ++ C.quote :: rest) := by simp [escape, hq]
      rw [htext, argvLoop]
      by_cases hb : c = C.backslash
      · subst hb
        rw [if_pos rfl] at h ⊢
        rw [ih _ _ h, List.replicate_succ']
        simp
      · rw [if_neg hb, if_neg hq] at h
        rw [if_neg hb, if_neg hq, if_neg (by simp), ih _ _ h]
        simp

/-- No backslash stands before a quote or at the end. -/
def Plain (s : List α) : Prop := s.getLast? ≠ some C.backslash ∧ ¬ [C.backslash, C.quote] <:+: s

theorem lost_eq_zero_iff_from (s : List α) (k : Nat) :
    C.lost s k = 0 ↔ (k ≠ 0 → s ≠ [] ∧ s.head? ≠ some C.quote) ∧ C.Plain s := by
  induction s generalizing k with
  | nil => simp [lost, Plain]
  | cons c s ih =>
    have hinside : [C.backslash, C.quote] <:+: c :: s ↔
        (c = C.backslash ∧ s.head? = some C.quote) ∨ [C.backslash, C.quote] <:+: s := by
      rw [List.infix_cons_iff]
      rcases s with _ | ⟨d, s⟩
      · simp
      · simp [eq_comm]
    have hlast : (c :: s).getLast? = some C.backslash ↔ (s = [] ∧ c = C.backslash) ∨ s.getLast? = some C.backslash := by
      rcases s with _ | ⟨d, s⟩
      · simp
      · simp [List.getLast?_cons_cons]
    have hplain : C.Plain (c :: s) ↔ (c = C.backslash → s ≠ [] ∧ s.head? ≠ some C.quote) ∧ C.Plain s := by
      unfold Plain
      rw [hinside, ne_eq, hlast]
      tauto
    rw [lost, hplain]
    by_cases hb : c = C.backslash
    · subst hb
      rw [if_pos rfl, ih]
      simp [C.quote_ne.symm]
    · by_cases hq : c = C.quote
      · subst hq
        rw [if_neg hb, if_pos rfl, Nat.add_eq_zero_iff, ih]
        simp [hb]
      · rw [if_neg hb, if_neg hq, ih]
        simp [hb, hq]

theorem lost_eq_zero_iff (s : List α) : C.lost s 0 = 0 ↔ C.Plain s := by
  simp [lost_eq_zero_iff_from]

/-! ## A line of quoted arguments -/

variable (space : α)

/-- Each argument quoted, after a space. -/
def quoteArgs (args : List (List α)) : List α := args.flatMap fun a => [space, C.quote] ++ C.escape a ++ [C.quote]

variable {space}

theorem argvLoop_space (hspace : C.blank space = true) (a rest : List α) (cur : Option (List α)) :
    C.argvLoop (space :: C.quote :: (C.escape a ++ C.quote :: rest)) 0 false cur =
      cur.toList ++ C.argvLoop (C.escape a ++ C.quote :: rest) 0 true (some []) := by
  rw [argvLoop, if_neg (C.blank_ne_backslash hspace), if_neg (C.blank_ne_quote hspace), if_pos (by simp [hspace]), argvLoop, if_neg C.quote_ne, if_pos rfl]
  rcases cur with _ | arg
  · rfl
  · simp

theorem lineWeight_quoteArgs (hspace : C.blank space = true) (args : List (List α)) :
    C.lineWeight (C.quoteArgs space args) 0 ≤ C.weight args.flatten ∧
      (C.weight args.flatten ≤ C.lineWeight (C.quoteArgs space args) 0 → ∀ a ∈ args, C.lost a 0 = 0) := by
  induction args with
  | nil => exact ⟨Nat.le_refl _, by simp⟩
  | cons a args ih =>
    obtain ⟨hle, hlost⟩ := ih
    have hb : space ≠ C.backslash := C.blank_ne_backslash hspace
    have hq : space ≠ C.quote := C.blank_ne_quote hspace
    have htext : C.quoteArgs space (a :: args) = space :: C.quote :: (C.escape a ++ C.quote :: C.quoteArgs space args) := by
      simp [quoteArgs]
    have hstart : C.lineWeight (C.quoteArgs space (a :: args)) 0 =
        C.lineWeight (C.escape a ++ C.quote :: C.quoteArgs space args) 0 := by
      rw [htext, lineWeight, if_neg hb, if_neg hq, lineWeight, if_neg C.quote_ne, if_pos rfl]
      omega
    have hone := C.lineWeight_escape a (C.quoteArgs space args) 0
    rw [hstart, List.flatten_cons, weight_append]
    refine ⟨by omega, fun h => List.forall_mem_cons.2 ⟨by omega, hlost (by omega)⟩⟩

theorem argvLoop_quoteArgs (hspace : C.blank space = true) {args : List (List α)} (h : ∀ a ∈ args, C.lost a 0 = 0)
    (cur : Option (List α)) : C.argvLoop (C.quoteArgs space args) 0 false cur = cur.toList ++ args := by
  induction args generalizing cur with
  | nil => simp [quoteArgs, argvLoop]
  | cons a args ih =>
    obtain ⟨ha, h⟩ := List.forall_mem_cons.1 h
    have htext : C.quoteArgs space (a :: args) = space :: C.quote :: (C.escape a ++ C.quote :: C.quoteArgs space args) := by
      simp [quoteArgs]
    rw [htext, C.argvLoop_space hspace, C.argvLoop_escape a _ _ _ ha, ih h]
    simp

/-- A quoted program and its quoted arguments are read back iff all of them are plain. -/
theorem argv_quoteArgs_iff (hspace : C.blank space = true) (exe : List α) (args : List (List α)) :
    C.argv (C.quote :: (C.escape exe ++ C.quote :: C.quoteArgs space args)) = exe :: args ↔
      C.Plain exe ∧ ∀ a ∈ args, C.Plain a := by
  simp only [← lost_eq_zero_iff]
  have hopen : C.argv (C.quote :: (C.escape exe ++ C.quote :: C.quoteArgs space args)) =
      C.argvLoop (C.escape exe ++ C.quote :: C.quoteArgs space args) 0 true (some []) := by
    rw [argv, argvLoop, if_neg C.quote_ne, if_pos rfl]
    rfl
  constructor
  · intro h
    -- What was lost is missing in the arguments.
    have hweight := congrArg (fun l => C.weight l.flatten) h
    have hexe := C.lineWeight_escape exe (C.quoteArgs space args) 0
    obtain ⟨hle, hlost⟩ := C.lineWeight_quoteArgs hspace args
    simp only [weight_argv, List.flatten_cons, weight_append] at hweight
    rw [lineWeight, if_neg C.quote_ne, if_pos rfl] at hweight
    exact ⟨by omega, hlost (by omega)⟩
  · rintro ⟨hexe, hargs⟩
    rw [hopen, C.argvLoop_escape exe _ _ _ hexe, C.argvLoop_quoteArgs hspace hargs]
    simp

end ArgvChars

end McpBridge.Lib
