import McpBridge.Lib.Bytes
import Mathlib.Data.List.Chain
/-!
# Simple commands of the shell

How `sh -c` reads a line that is meant to be one simple command: quotes and
backslashes are resolved, the line is cut into words and operators, and these
make up assignments, arguments and redirections. A line with anything else in it
(a further command, an expansion, a comment, an open quote) has no reading here.

Every byte of a command stands in the line, and a quote or backslash that was
resolved does not stand in the command. So the non-blank bytes can be counted:
where a command has all of those its line was built from, nothing was resolved
that was not meant to be.
-/

namespace McpBridge.Lib.Shell

/-! ## Quoting -/

/-- A byte of a word, and whether it is quoted; `quote` is where a quoted part begins. -/
inductive Item where
  | char (quoted : Bool) (c : UInt8)
  | quote
deriving DecidableEq

inductive Mode where
  | bare
  | escape
  | single
  | double
  | doubleEscape
deriving DecidableEq

/-- What starts an expansion, also within double quotes. -/
def isActive (c : UInt8) : Bool := c = ch '$' || c = ch '`'

/-- What a backslash escapes within double quotes. -/
def isEscapable (c : UInt8) : Bool := isActive c || c = ch '"' || c = ch '\\'

def step : Mode → UInt8 → Option (Mode × List Item)
  | .bare, c =>
    if c = ch '\\' then some (.escape, [])
    else if c = ch '\'' then some (.single, [.quote])
    else if c = ch '"' then some (.double, [.quote])
    else if isActive c then none
    else some (.bare, [.char false c])
  | .escape, c => some (.bare, if c = ch '\n' then [] else [.char true c])
  | .single, c => if c = ch '\'' then some (.bare, []) else some (.single, [.char true c])
  | .double, c =>
    if c = ch '"' then some (.bare, [])
    else if c = ch '\\' then some (.doubleEscape, [])
    else if isActive c then none
    else some (.double, [.char true c])
  | .doubleEscape, c =>
    some (.double, if c = ch '\n' then [] else if isEscapable c then [.char true c] else [.char true (ch '\\'), .char true c])

def run : Mode → Str → Option (Mode × List Item)
  | m, [] => some (m, [])
  | m, c :: s => (step m c).bind fun p => (run p.1 s).map fun q => (q.1, p.2 ++ q.2)

/-- The items of a line whose quotes are closed. -/
def unquote (s : Str) : Option (List Item) :=
  match run .bare s with
  | some (.bare, items) => some items
  | _ => none

/-! ## Words and operators -/

inductive Token where
  | blank
  | op (c : UInt8)
  | word (w : List Item)
deriving DecidableEq

def isOperator (c : UInt8) : Bool := c ∈ lit "|&;<>()\n"

/-- What ends a word where it is not quoted. -/
def isDelimiter (c : UInt8) : Bool := isBlank c || isOperator c

def Item.isDelimiter : Item → Bool
  | .char false c => Shell.isDelimiter c
  | _ => false

/-- One more item in front of a word, or a new word. -/
def joinWord (i : Item) : List Token → List Token
  | .word w :: ts => .word (i :: w) :: ts
  | ts => .word [i] :: ts

def consItem : Item → List Token → List Token
  | .char false c, ts =>
    if isBlank c then .blank :: ts else if isOperator c then .op c :: ts else joinWord (.char false c) ts
  | i, ts => joinWord i ts

def split (items : List Item) : List Token := items.foldr consItem []

/-- The text of a word. -/
def bytes (w : List Item) : Str := w.filterMap fun i => match i with
  | .char _ c => some c
  | .quote => none

/-! ## The grammar -/

inductive Part where
  | assign (name value : Str)
  | word (s : Str)
  | redirect (fd op target : Str)
deriving DecidableEq

def isGlob (c : UInt8) : Bool := c ∈ lit "*?["

/-- A comment or a tilde expansion begins here. -/
def isLeader (c : UInt8) : Bool := c = ch '#' || c = ch '~'

def opensExpansion (w : List Item) : Bool := w.head?.any fun i => match i with
  | .char false c => isLeader c
  | _ => false

def hasGlob (w : List Item) : Bool := w.any fun i => match i with
  | .char false c => isGlob c
  | _ => false

/-- The file name of a redirection. -/
def filename (w : List Item) : Option Str := if opensExpansion w then none else some (bytes w)

/-- An argument of the command. -/
def argument (w : List Item) : Option Str := if opensExpansion w || hasGlob w then none else some (bytes w)

/-- The value of an assignment; a tilde may be expanded in it. -/
def assigned (w : List Item) : Option Str := if w.any (· = .char false (ch '~')) then none else some (bytes w)

def Item.isName : Item → Bool
  | .char false c => isAlnum c || c = ch '_'
  | _ => false

/-- The name and the value of an assignment. -/
def assignment? (w : List Item) : Option (Str × List Item) :=
  match bytes (w.takeWhile Item.isName), w.dropWhile Item.isName with
  | d :: name, .char false c :: value => if c = ch '=' ∧ isDigit d = false then some (d :: name, value) else none
  | _, _ => none

def isNumber (w : List Item) : Bool := w ≠ [] && w.all fun i => match i with
  | .char false c => isDigit c
  | _ => false

def isRedirect (c : UInt8) : Bool := c = ch '<' || c = ch '>'

def startsRedirect : List Token → Bool
  | .op c :: _ => isRedirect c
  | _ => false

/-- Operators of two characters; a here-document is none of them. -/
def extends? (op : Str) (c : UInt8) : Bool :=
  op = lit ">" && c ∈ lit ">&|" || op = lit "<" && c ∈ lit "&>"

/-- What is read next. -/
inductive Expect where
  | any
  | number (fd : Str)
  | operator (fd op : Str)
  | target (fd op : Str)

def parse : Bool → Expect → List Token → Option (List Part)
  | _, .any, [] => some []
  | named, .any, .blank :: ts => parse named .any ts
  | named, .any, .op c :: ts => if isRedirect c then parse named (.operator [] [c]) ts else none
  | named, .any, .word w :: ts =>
    if isNumber w && startsRedirect ts then parse named (.number (bytes w)) ts
    else match named, assignment? w with
      | false, some (name, value) => (assigned value).bind fun v => (parse false .any ts).map (.assign name v :: ·)
      | _, _ => (argument w).bind fun s => (parse true .any ts).map (.word s :: ·)
  | named, .number fd, .op c :: ts => parse named (.operator fd [c]) ts
  | named, .operator fd op, .op c :: ts => if extends? op c then parse named (.operator fd (op ++ [c])) ts else none
  | named, .operator fd op, .blank :: ts => parse named (.target fd op) ts
  | named, .target fd op, .blank :: ts => parse named (.target fd op) ts
  | named, .operator fd op, .word w :: ts | named, .target fd op, .word w :: ts =>
    if isNumber w && startsRedirect ts then none
    else (filename w).bind fun s => (parse named .any ts).map (.redirect fd op s :: ·)
  | _, _, _ => none

@[simp] theorem parse_any_blank (named : Bool) (ts : List Token) : parse named .any (.blank :: ts) = parse named .any ts := rfl

theorem parse_any_op (named : Bool) (c : UInt8) (ts : List Token) :
    parse named .any (.op c :: ts) = if isRedirect c then parse named (.operator [] [c]) ts else none := rfl

theorem parse_any_argument {named : Bool} {w : List Item} (h : named = true ∨ assignment? w = none) (ts : List Token) :
    parse named .any (.word w :: ts) =
      if isNumber w && startsRedirect ts then parse named (.number (bytes w)) ts
      else (argument w).bind fun s => (parse true .any ts).map (.word s :: ·) := by
  cases named with
  | true => rfl
  | false =>
    have hnone : assignment? w = none := h.resolve_left nofun
    simp only [parse, hnone]

theorem parse_any_assignment {w value : List Item} {name : Str} (h : assignment? w = some (name, value)) (ts : List Token) :
    parse false .any (.word w :: ts) =
      if isNumber w && startsRedirect ts then parse false (.number (bytes w)) ts
      else (assigned value).bind fun v => (parse false .any ts).map (.assign name v :: ·) := by
  simp only [parse, h]

@[simp] theorem parse_target_blank (named : Bool) (fd op : Str) (ts : List Token) :
    parse named (.target fd op) (.blank :: ts) = parse named (.target fd op) ts := rfl

theorem parse_target_word (named : Bool) (fd op : Str) (w : List Item) (ts : List Token) :
    parse named (.target fd op) (.word w :: ts) =
      if isNumber w && startsRedirect ts then none
      else (filename w).bind fun s => (parse named .any ts).map (.redirect fd op s :: ·) := rfl

/-- The simple command a line is. -/
def command (line : Str) : Option (List Part) := (unquote line).bind fun items => parse false .any (split items)

/-! ## Counting -/

/-- The number of bytes that are not blank. -/
def weight (s : Str) : Nat := s.countP fun c => !isBlank c

@[simp] theorem weight_nil : weight [] = 0 := rfl

@[simp] theorem weight_cons (c : UInt8) (s : Str) : weight (c :: s) = (if isBlank c then 0 else 1) + weight s := by
  unfold weight
  rw [List.countP_cons]
  cases isBlank c <;> simp [Nat.add_comm]

@[simp] theorem weight_append (s t : Str) : weight (s ++ t) = weight s + weight t := List.countP_append

@[simp] theorem bytes_append (v w : List Item) : bytes (v ++ w) = bytes v ++ bytes w := List.filterMap_append

/-- The text as it stands outside quotes, or within. -/
def chars (quoted : Bool) (s : Str) : List Item := s.map (.char quoted)

@[simp] theorem chars_nil (quoted : Bool) : chars quoted [] = [] := rfl

@[simp] theorem chars_cons (quoted : Bool) (c : UInt8) (s : Str) : chars quoted (c :: s) = .char quoted c :: chars quoted s := rfl

@[simp] theorem chars_append (quoted : Bool) (s t : Str) : chars quoted (s ++ t) = chars quoted s ++ chars quoted t :=
  List.map_append

@[simp] theorem bytes_chars (quoted : Bool) (s : Str) : bytes (chars quoted s) = s := by
  induction s with
  | nil => rfl
  | cons c s ih => exact congrArg (c :: ·) ih

theorem run_append (m : Mode) (s t : Str) :
    run m (s ++ t) = (run m s).bind fun p => (run p.1 t).map fun q => (q.1, p.2 ++ q.2) := by
  induction s generalizing m with
  | nil => simp [run]
  | cons c s ih =>
    simp only [List.cons_append, run, ih, Option.bind_assoc, Option.map_bind, Option.bind_map]
    cases step m c with
    | none => rfl
    | some p =>
      simp only [Option.bind_some, Function.comp_def, Option.map_map, List.append_assoc]

theorem run_append_some {m m' : Mode} {s t : Str} {is : List Item} (h : run m (s ++ t) = some (m', is)) :
    ∃ m₁ is₁ is₂, run m s = some (m₁, is₁) ∧ run m₁ t = some (m', is₂) ∧ is = is₁ ++ is₂ := by
  rw [run_append] at h
  obtain ⟨⟨m₁, is₁⟩, hs, h⟩ := Option.bind_eq_some_iff.1 h
  obtain ⟨⟨m₂, is₂⟩, ht, h⟩ := Option.map_eq_some_iff.1 h
  cases h
  exact ⟨m₁, is₁, is₂, hs, ht, rfl⟩

theorem run_cons_some {m m' : Mode} {c : UInt8} {s : Str} {is : List Item} (h : run m (c :: s) = some (m', is)) :
    ∃ m₁ is₁ is₂, step m c = some (m₁, is₁) ∧ run m₁ s = some (m', is₂) ∧ is = is₁ ++ is₂ := by
  simp only [run] at h
  obtain ⟨⟨m₁, is₁⟩, hs, h⟩ := Option.bind_eq_some_iff.1 h
  obtain ⟨⟨m₂, is₂⟩, ht, h⟩ := Option.map_eq_some_iff.1 h
  cases h
  exact ⟨m₁, is₁, is₂, hs, ht, rfl⟩

/-- How many bytes are still to be resolved: the closing quote, less a backslash that may turn out literal. -/
def Mode.owed : Mode → Nat
  | .single | .double => 1
  | _ => 0

@[simp] theorem bytes_char (quoted : Bool) (c : UInt8) (w : List Item) : bytes (.char quoted c :: w) = c :: bytes w := rfl

@[simp] theorem bytes_quote (w : List Item) : bytes (.quote :: w) = bytes w := rfl

@[simp] theorem bytes_nil : bytes [] = [] := rfl

theorem step_weight {m m' : Mode} {c : UInt8} {is : List Item} (h : step m c = some (m', is)) :
    weight (bytes is) + m.owed ≤ (if isBlank c then 0 else 1) + m'.owed := by
  have hquote : isBlank (ch '\'') = false ∧ isBlank (ch '"') = false ∧ isBlank (ch '\\') = false := by decide
  cases m with
  | bare =>
    simp only [step] at h
    repeat' split at h
    all_goals cases h
    all_goals simp [Mode.owed]
  | escape =>
    cases h
    split <;> simp [Mode.owed]
  | single =>
    simp only [step] at h
    split at h
    all_goals
      cases h
      simp_all [Mode.owed]
  | double =>
    simp only [step] at h
    repeat' split at h
    all_goals cases h
    all_goals simp_all [Mode.owed]
  | doubleEscape =>
    cases h
    repeat' split
    all_goals simp_all [Mode.owed]

/-- What is read has at most the non-blank bytes of the text. -/
theorem run_weight {m m' : Mode} {s : Str} {is : List Item} (h : run m s = some (m', is)) :
    weight (bytes is) + m.owed ≤ weight s + m'.owed := by
  induction s generalizing m is with
  | nil => 
    cases h
    simp [bytes]
  | cons c s ih =>
    obtain ⟨m₁, is₁, is₂, hc, hs, rfl⟩ := run_cons_some h
    have hstep := step_weight hc
    have hrest := ih hs
    rw [bytes_append, weight_append, weight_cons]
    omega

/-! ## Text outside quotes -/

/-- A byte that stands for itself outside quotes. -/
def isLiteral (c : UInt8) : Bool := !(c = ch '\\' || c = ch '\'' || c = ch '"' || isActive c)

def QuoteFree (s : Str) : Prop := ch '\'' ∉ s ∧ ch '"' ∉ s

theorem run_literal {s : Str} (h : ∀ c ∈ s, isLiteral c = true) : run .bare s = some (.bare, chars false s) := by
  induction s with
  | nil => rfl
  | cons c s ih =>
    have hc := h c (by simp)
    simp only [isLiteral, Bool.not_eq_true', Bool.or_eq_false_iff, decide_eq_false_iff_not] at hc
    have hs := ih fun d hd => h d (by simp [hd])
    simp [run, step, hc, hs]

/-- Without quotes, the text stays outside quotes. -/
theorem run_mode {s : Str} {m m' : Mode} {is : List Item} (hq : QuoteFree s) (hm : m = .bare ∨ m = .escape)
    (h : run m s = some (m', is)) : m' = .bare ∨ m' = .escape := by
  induction s generalizing m is with
  | nil =>
    cases h
    exact hm
  | cons c s ih =>
    obtain ⟨m₁, is₁, is₂, hc, hs, rfl⟩ := run_cons_some h
    simp only [QuoteFree, List.mem_cons, not_or] at hq
    refine ih ⟨hq.1.2, hq.2.2⟩ ?_ hs
    rcases hm with rfl | rfl
    · simp only [step, Ne.symm hq.1.1, Ne.symm hq.2.1, if_false] at hc
      repeat' split at hc
      all_goals cases hc
      · exact .inr rfl
      · exact .inl rfl
    · cases hc
      exact .inl rfl

/-- Bytes are lost if anything is resolved. -/
theorem literal_of_weight {s : Str} {m : Mode} {is : List Item} (hm : m.owed = 0) (h : run .bare s = some (m, is))
    (hw : weight s ≤ weight (bytes is)) : ∀ c ∈ s, isLiteral c = true := by
  have hblank : isBlank (ch '\\') = false ∧ isBlank (ch '\'') = false ∧ isBlank (ch '"') = false := by decide
  induction s generalizing is with
  | nil => simp
  | cons c s ih =>
    obtain ⟨m₁, is₁, is₂, hc, hs, rfl⟩ := run_cons_some h
    have hrest := run_weight hs
    simp only [step] at hc
    split at hc
    · next hesc =>
      cases hc
      simp [hesc, hblank.1] at hw
      omega
    next hesc =>
    split at hc
    · next hsingle =>
      cases hc
      simp [hsingle, hblank.2.1] at hw
      omega
    next hsingle =>
    split at hc
    · next hdouble =>
      cases hc
      simp [hdouble, hblank.2.2] at hw
      omega
    next hdouble =>
    split at hc
    · cases hc
    next hactive =>
    cases hc
    simp only [List.singleton_append, bytes_char, weight_cons] at hw
    have hs' := ih hs (by omega)
    intro d hd
    rcases List.mem_cons.1 hd with rfl | hd
    · simp [isLiteral, hesc, hsingle, hdouble, hactive]
    · exact hs' d hd

/-- A word and the blank after it. -/
theorem run_word {s t : Str} {m : Mode} {is : List Item} (hq : QuoteFree s) (h : run .bare (s ++ ch ' ' :: t) = some (m, is)) :
    ∃ js, run .bare t = some (m, js) ∧ weight (bytes is) ≤ weight s + weight (bytes js) ∧
      (weight s + weight (bytes js) ≤ weight (bytes is) →
        (∀ c ∈ s, isLiteral c = true) ∧ is = chars false s ++ .char false (ch ' ') :: js) := by
  obtain ⟨m₁, is₁, is₂, hs, ht, rfl⟩ := run_append_some h
  obtain ⟨m₂, is₃, js, hc, ht, rfl⟩ := run_cons_some ht
  have hmode := run_mode hq (.inl rfl) hs
  have hws := run_weight hs
  have hblank : m₂ = .bare ∧ weight (bytes is₃) = 0 := by
    rcases hmode with rfl | rfl
    · cases hc
      exact ⟨rfl, rfl⟩
    · cases hc
      exact ⟨rfl, rfl⟩
  obtain ⟨rfl, hw₃⟩ := hblank
  have howed : m₁.owed = 0 := by rcases hmode with rfl | rfl <;> rfl
  have hbare : Mode.owed .bare = 0 := rfl
  refine ⟨js, ht, ?_, ?_⟩
  · simp only [bytes_append, weight_append, hw₃]
    omega
  · intro hw
    simp only [bytes_append, weight_append, hw₃] at hw
    have hlit := literal_of_weight howed hs (by omega)
    refine ⟨hlit, ?_⟩
    cases hs.symm.trans (run_literal hlit)
    cases hc
    rfl

/-! ## Quoted text -/

theorem run_single {s : Str} (h : ch '\'' ∉ s) : run .single s = some (.single, chars true s) := by
  induction s with
  | nil => rfl
  | cons c s ih =>
    simp only [List.mem_cons, not_or] at h
    simp [run, step, Ne.symm h.1, ih h.2]

/-- Text that stands for itself within double quotes. -/
structure Inert (s : Str) : Prop where
  quote : ch '"' ∉ s
  active : ∀ c ∈ s, isActive c = false
  escapes : s.IsChain fun a b => a = ch '\\' → b ≠ ch '\\' ∧ b ≠ ch '\n'

theorem Inert.tail {c : UInt8} {s : Str} (h : Inert (c :: s)) : Inert s where
  quote hm := h.quote (by simp [hm])
  active d hd := h.active d (by simp [hd])
  escapes := h.escapes.of_cons

theorem Inert.of_append {a s b : Str} (h : Inert (a ++ s ++ b)) : Inert s where
  quote hm := h.quote (by simp [hm])
  active c hc := h.active c (by simp [hc])
  escapes := h.escapes.infix ⟨a, b, rfl⟩

theorem getLast?_ne_of_cons {c x : UInt8} {s : Str} (h : (c :: s).getLast? ≠ some x) : s.getLast? ≠ some x := by
  intro hs
  rw [List.getLast?_cons, hs] at h
  exact h rfl

theorem run_inert_aux (s : Str) :
    (Inert s → s.getLast? ≠ some (ch '\\') → run .double s = some (.double, chars true s)) ∧
    (Inert (ch '\\' :: s) → s ≠ [] → s.getLast? ≠ some (ch '\\') →
      run .doubleEscape s = some (.double, chars true (ch '\\' :: s))) := by
  induction s with
  | nil => exact ⟨fun _ _ => rfl, fun _ h => absurd rfl h⟩
  | cons c s ih =>
    obtain ⟨ihDouble, ihEscape⟩ := ih
    refine ⟨fun h hl => ?_, fun h _ hl => ?_⟩
    · have hquote : c ≠ ch '"' := fun hc => h.quote (by simp [hc])
      have hactive := h.active c (by simp)
      by_cases hesc : c = ch '\\'
      · subst hesc
        have hne : s ≠ [] := by
          rintro rfl
          exact hl rfl
        have hrest := ihEscape h hne (getLast?_ne_of_cons hl)
        have hstep : step .double (ch '\\') = some (.doubleEscape, []) := by decide
        simp only [run, hstep, Option.bind_some, hrest, Option.map_some, List.nil_append]
      · have hrest := ihDouble h.tail (getLast?_ne_of_cons hl)
        simp [run, step, hquote, hesc, hactive, hrest]
    · have hpair := (List.isChain_cons_cons.1 h.escapes).1 rfl
      have hquote : c ≠ ch '"' := fun hc => h.quote (by simp [hc])
      have hactive := h.active c (by simp)
      have hrest := ihDouble h.tail.tail (getLast?_ne_of_cons hl)
      simp [run, step, hpair, isEscapable, hactive, hquote, hrest]

theorem run_inert {s : Str} (h : Inert s) (hl : s.getLast? ≠ some (ch '\\')) :
    run .double s = some (.double, chars true s) :=
  (run_inert_aux s).1 h hl

/-- A double quote outside quotes is resolved. -/
theorem run_bare_quote {s : Str} {is : List Item} (hs : ch '"' ∈ s) (h : run .bare s = some (.bare, is)) :
    weight (bytes is) + 1 ≤ weight s := by
  induction s generalizing is with
  | nil => cases hs
  | cons c s ih =>
    obtain ⟨m₁, is₁, is₂, hc, hs', rfl⟩ := run_cons_some h
    have hrest := run_weight hs'
    have hblank : isBlank (ch '\\') = false ∧ isBlank (ch '\'') = false ∧ isBlank (ch '"') = false := by decide
    simp only [step] at hc
    simp only [Mode.owed] at hrest
    split at hc
    · next hesc =>
      cases hc
      simp [hesc, hblank.1]
      omega
    split at hc
    · next hesc =>
      cases hc
      simp [hesc, hblank.2.1]
      omega
    split at hc
    · next hesc =>
      cases hc
      simp [hesc, hblank.2.2]
      omega
    next hquote =>
    split at hc
    · cases hc
    · cases hc
      have hmem : ch '"' ∈ s := by
        rcases List.mem_cons.1 hs with heq | hmem
        · exact absurd heq.symm hquote
        · exact hmem
      have hs := ih hmem hs'
      simp only [List.singleton_append, bytes_char, weight_cons]
      omega

theorem Inert.cons {c : UInt8} {s : Str} (hs : Inert s) (hquote : c ≠ ch '"') (hactive : isActive c = false)
    (hesc : c = ch '\\' → ∀ d, s.head? = some d → d ≠ ch '\\' ∧ d ≠ ch '\n') : Inert (c :: s) where
  quote hm := by
    rcases List.mem_cons.1 hm with heq | hm
    · exact hquote heq.symm
    · exact hs.quote hm
  active d hd := by
    rcases List.mem_cons.1 hd with rfl | hd
    · exact hactive
    · exact hs.active d hd
  escapes := List.isChain_cons.2 ⟨fun d hd hc => hesc hc d hd, hs.escapes⟩

theorem inert_of_weight_aux {t : Str} (s : Str) :
    (∀ is, run .double (s ++ ch '"' :: t) = some (.bare, is) → s.getLast? ≠ some (ch '\\') →
      weight s + weight t ≤ weight (bytes is) → Inert s) ∧
    (∀ is, run .doubleEscape (s ++ ch '"' :: t) = some (.bare, is) → s ≠ [] → s.getLast? ≠ some (ch '\\') →
      weight s + weight t + 1 ≤ weight (bytes is) → Inert (ch '\\' :: s)) := by
  have hquote : isBlank (ch '"') = false ∧ isBlank (ch '\\') = false ∧ isBlank (ch '\n') = false := by decide
  have hnoQuote : ch '\\' ≠ ch '"' ∧ isActive (ch '\\') = false := by decide
  have hescapable : ∀ c, isEscapable c = true → isBlank c = false := by
    intro c hc
    simp only [isEscapable, isActive, Bool.or_eq_true, decide_eq_true_eq] at hc
    rcases hc with ((rfl | rfl) | rfl) | rfl
    all_goals decide
  induction s with
  | nil =>
    exact ⟨fun _ _ _ _ => ⟨by simp, by simp, .nil⟩, fun _ _ h => absurd rfl h⟩
  | cons c s ih =>
    obtain ⟨ihDouble, ihEscape⟩ := ih
    refine ⟨fun is h hl hw => ?_, fun is h _ hl hw => ?_⟩
    · obtain ⟨m₁, is₁, is₂, hc, hs, rfl⟩ := run_cons_some (s := s ++ ch '"' :: t) h
      simp only [step] at hc
      split at hc
      · next heq =>
        cases hc
        have hrest := run_bare_quote (by simp) hs
        simp [heq, hquote.1] at hrest hw
        omega
      next hne =>
      split at hc
      · next hesc =>
        cases hc
        subst hesc
        have hnil : s ≠ [] := by
          rintro rfl
          exact hl rfl
        refine ihEscape is₂ hs hnil (getLast?_ne_of_cons hl) ?_
        simp [hquote.2.1] at hw
        omega
      next hesc =>
      split at hc
      · cases hc
      next hactive =>
      cases hc
      have hs := ihDouble is₂ hs (getLast?_ne_of_cons hl) (by simp at hw; omega)
      exact hs.cons hne (by simpa using hactive) (fun hc => absurd hc hesc)
    · obtain ⟨m₁, is₁, is₂, hc, hs, rfl⟩ := run_cons_some (s := s ++ ch '"' :: t) h
      have hrest := run_weight hs
      cases hc
      simp only [Mode.owed, weight_append, weight_cons, hquote.1, Bool.false_eq_true, if_false] at hrest
      split at hw
      · next hnl =>
        simp [hnl, hquote.2.2] at hw
        omega
      next hnl =>
      split at hw
      · next hesc =>
        simp [hescapable c hesc] at hw
        omega
      next hesc =>
      simp only [isEscapable, Bool.or_eq_true, decide_eq_true_eq, not_or, Bool.not_eq_true] at hesc
      have hs := ihDouble is₂ hs (getLast?_ne_of_cons hl) (by simp [hquote.2.1] at hw; omega)
      have hcs : Inert (c :: s) := hs.cons hesc.1.2 hesc.1.1 (fun hc => absurd hc hesc.2)
      refine hcs.cons hnoQuote.1 hnoQuote.2 ?_
      rintro - d hd
      cases hd
      exact ⟨hesc.2, hnl⟩

/-- Where no byte is lost but the closing quote, the text stands for itself. -/
theorem inert_of_weight {s t : Str} {is : List Item} (h : run .double (s ++ ch '"' :: t) = some (.bare, is))
    (hl : s.getLast? ≠ some (ch '\\')) (hw : weight s + weight t ≤ weight (bytes is)) : Inert s :=
  (inert_of_weight_aux s).1 is h hl hw

/-! ## Words -/

@[simp] theorem split_nil : split [] = [] := rfl

@[simp] theorem split_cons (i : Item) (is : List Item) : split (i :: is) = consItem i (split is) := rfl

def Token.weight : Token → Nat
  | .blank => 0
  | .op _ => 1
  | .word w => Shell.weight (bytes w)

def tokensWeight (ts : List Token) : Nat := (ts.map Token.weight).sum

theorem tokensWeight_cons (t : Token) (ts : List Token) : tokensWeight (t :: ts) = t.weight + tokensWeight ts := by
  simp [tokensWeight]

theorem isBlank_of_operator {c : UInt8} (h : isOperator c = true) : isBlank c = false := by
  have hall : (lit "|&;<>()\n").all (!isBlank ·) = true := by decide
  have hc := List.all_eq_true.1 hall c (by simpa [isOperator] using h)
  rwa [Bool.not_eq_true'] at hc

theorem joinWord_weight (i : Item) (ts : List Token) :
    tokensWeight (joinWord i ts) = weight (bytes [i]) + tokensWeight ts := by
  unfold joinWord
  split
  · next w ts =>
    simp only [tokensWeight_cons, Token.weight, ← Nat.add_assoc, ← weight_append, ← bytes_append]
    rfl
  · rw [tokensWeight_cons, Token.weight]

theorem consItem_weight (i : Item) (ts : List Token) :
    tokensWeight (consItem i ts) = weight (bytes [i]) + tokensWeight ts := by
  unfold consItem
  split
  · split
    · next hb => simp [tokensWeight_cons, Token.weight, hb]
    split
    · next hop => simp [tokensWeight_cons, Token.weight, isBlank_of_operator hop]
    · exact joinWord_weight _ _
  · exact joinWord_weight _ _

theorem split_weight (is : List Item) : tokensWeight (split is) = weight (bytes is) := by
  induction is with
  | nil => rfl
  | cons i is ih =>
    rw [split_cons, consItem_weight, ih, ← weight_append, ← bytes_append]
    rfl

/-! ## Parts -/

def Part.weight : Part → Nat
  | .assign name value => Shell.weight name + 1 + Shell.weight value
  | .word s => Shell.weight s
  | .redirect fd op target => Shell.weight fd + Shell.weight op + Shell.weight target

def partsWeight (ps : List Part) : Nat := (ps.map Part.weight).sum

@[simp] theorem partsWeight_nil : partsWeight [] = 0 := rfl

@[simp] theorem partsWeight_cons (p : Part) (ps : List Part) : partsWeight (p :: ps) = p.weight + partsWeight ps := by
  simp [partsWeight]

def Expect.weight : Expect → Nat
  | .any => 0
  | .number fd => Shell.weight fd
  | .operator fd op | .target fd op => Shell.weight fd + Shell.weight op

theorem bytes_of_filename {w : List Item} {s : Str} (h : filename w = some s) : s = bytes w := by
  unfold filename at h
  split at h <;> cases h
  rfl

theorem bytes_of_argument {w : List Item} {s : Str} (h : argument w = some s) : s = bytes w := by
  unfold argument at h
  split at h <;> cases h
  rfl

theorem bytes_of_assigned {w : List Item} {s : Str} (h : assigned w = some s) : s = bytes w := by
  unfold assigned at h
  split at h <;> cases h
  rfl

theorem bytes_of_assignment {w value : List Item} {name : Str} (h : assignment? w = some (name, value)) :
    bytes w = name ++ ch '=' :: bytes value := by
  simp only [assignment?] at h
  split at h
  · next d n c v hname hdrop =>
    split at h
    · next hc =>
      cases h
      rw [← List.takeWhile_append_dropWhile (p := Item.isName) (l := w), bytes_append, hname, hdrop, hc.1]
      rfl
    · cases h
  · cases h

/-- What is understood has at most the non-blank bytes of the words and operators. -/
theorem parse_weight {named : Bool} {e : Expect} {ts : List Token} {ps : List Part} (h : parse named e ts = some ps) :
    partsWeight ps ≤ e.weight + tokensWeight ts := by
  have hone : ∀ c, weight [c] ≤ 1 := by
    intro c
    rw [weight_cons, weight_nil]
    split <;> omega
  have heq : isBlank (ch '=') = false := by decide
  fun_induction parse named e ts generalizing ps with
  | case1 =>
    cases h
    exact Nat.zero_le _
  | case2 named ts ih => 
    have hrest := ih h
    rw [tokensWeight_cons]
    omega
  | case3 named c ts hc ih =>
    have hrest := ih h
    have hc := hone c
    simp only [Expect.weight, tokensWeight_cons, Token.weight, weight_nil] at *
    omega
  | case5 named w ts hn ih =>
    have hrest := ih h
    simp only [Expect.weight, tokensWeight_cons, Token.weight] at *
    omega
  | case6 w ts hn name value ha ih =>
    obtain ⟨v, hv, h⟩ := Option.bind_eq_some_iff.1 h
    obtain ⟨ps, hps, rfl⟩ := Option.map_eq_some_iff.1 h
    have hrest := ih hps
    rw [bytes_of_assigned hv]
    simp only [partsWeight_cons, Part.weight, tokensWeight_cons, Token.weight, bytes_of_assignment ha, weight_append,
      weight_cons, heq, Bool.false_eq_true, if_false] at *
    omega
  | case7 named w ts hn ha ih =>
    obtain ⟨s, hs, h⟩ := Option.bind_eq_some_iff.1 h
    obtain ⟨ps, hps, rfl⟩ := Option.map_eq_some_iff.1 h
    have hrest := ih hps
    rw [bytes_of_argument hs]
    simp only [partsWeight_cons, Part.weight, tokensWeight_cons, Token.weight] at *
    omega
  | case8 named fd c ts ih =>
    have hrest := ih h
    have hc := hone c
    simp only [Expect.weight, tokensWeight_cons, Token.weight] at *
    omega
  | case9 named fd op c ts hx ih =>
    have hrest := ih h
    have hc := hone c
    simp only [Expect.weight, tokensWeight_cons, Token.weight, weight_append] at *
    omega
  | case11 named fd op ts ih =>
    have hrest := ih h
    simp only [Expect.weight, tokensWeight_cons, Token.weight] at *
    omega
  | case12 named fd op ts ih =>
    have hrest := ih h
    simp only [Expect.weight, tokensWeight_cons, Token.weight] at *
    omega
  | case14 named fd op w ts hn ih =>
    obtain ⟨s, hs, h⟩ := Option.bind_eq_some_iff.1 h
    obtain ⟨ps, hps, rfl⟩ := Option.map_eq_some_iff.1 h
    have hrest := ih hps
    rw [bytes_of_filename hs]
    simp only [partsWeight_cons, Part.weight, Expect.weight, tokensWeight_cons, Token.weight] at *
    omega
  | case16 named fd op w ts hn ih =>
    obtain ⟨s, hs, h⟩ := Option.bind_eq_some_iff.1 h
    obtain ⟨ps, hps, rfl⟩ := Option.map_eq_some_iff.1 h
    have hrest := ih hps
    rw [bytes_of_filename hs]
    simp only [partsWeight_cons, Part.weight, Expect.weight, tokensWeight_cons, Token.weight] at *
    omega
  | _ => cases h

end McpBridge.Lib.Shell
