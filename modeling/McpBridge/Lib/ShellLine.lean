import McpBridge.Lib.Shell
import Mathlib.Data.List.TakeWhile
/-!
# Command lines built by concatenation

A program that puts a command line together from texts means each text to be one
argument, quoted or not, or one file name. These are the exact conditions under
which the shell reads the line so.
-/

namespace McpBridge.Lib.Shell

/-! ## Reading words back -/

theorem consItem_join {i : Item} (hi : i.isDelimiter = false) (ts : List Token) : consItem i ts = joinWord i ts := by
  unfold consItem
  split
  · simp only [Item.isDelimiter, isDelimiter, Bool.or_eq_false_iff] at hi
    simp [hi]
  · rfl

/-- Items without a delimiter make one word. -/
theorem split_word {w : List Item} (hne : w ≠ []) (hw : ∀ i ∈ w, i.isDelimiter = false) {rest : List Item}
    (hrest : ∀ v ts, split rest ≠ .word v :: ts) : split (w ++ rest) = .word w :: split rest := by
  induction w with
  | nil => exact absurd rfl hne
  | cons i w ih =>
    rw [List.cons_append, split_cons, consItem_join (hw i (by simp))]
    by_cases hw' : w = []
    · subst hw'
      unfold joinWord
      split
      · next v ts heq => exact absurd heq (hrest v ts)
      · rfl
    · rw [ih hw' fun j hj => hw j (by simp [hj])]
      rfl

theorem split_blank {c : UInt8} (hc : isBlank c = true) (is : List Item) : split (.char false c :: is) = .blank :: split is := by
  simp [consItem, hc]

theorem split_operator {c : UInt8} (hc : isOperator c = true) (is : List Item) : split (.char false c :: is) = .op c :: split is := by
  simp [consItem, hc, isBlank_of_operator hc]

theorem split_delimiter {c : UInt8} (hc : isDelimiter c = true) (is : List Item) (v : List Item) (ts : List Token) :
    split (.char false c :: is) ≠ .word v :: ts := by
  simp only [isDelimiter, Bool.or_eq_true] at hc
  rcases hc with hc | hc
  · rw [split_blank hc]
    nofun
  · rw [split_operator hc]
    nofun

/-- The parts of a command, or of the rest of one. -/
def parts (named : Bool) (is : List Item) : Option (List Part) := parse named .any (split is)

/-- A blank, as an item. -/
abbrev space : Item := .char false (ch ' ')

@[simp] theorem parts_space (named : Bool) (is : List Item) : parts named (space :: is) = parts named is := by
  rw [parts, split_blank (by decide), parse_any_blank]
  rfl

/-- An argument and the blank after it. -/
theorem parts_word {named : Bool} {w : List Item} (hne : w ≠ []) (hw : ∀ i ∈ w, i.isDelimiter = false)
    (ha : named = true ∨ assignment? w = none) (is : List Item) :
    parts named (w ++ space :: is) = (argument w).bind fun s => (parts true is).map (.word s :: ·) := by
  rw [parts, split_word hne hw (split_delimiter (by decide) is), split_blank (by decide), parse_any_argument ha]
  simp only [startsRedirect, Bool.and_false, Bool.false_eq_true, if_false]
  rfl

theorem parts_assignment {w value : List Item} {name : Str} (hw : ∀ i ∈ w, i.isDelimiter = false)
    (ha : assignment? w = some (name, value)) (is : List Item) :
    parts false (w ++ space :: is) = (assigned value).bind fun v => (parts false is).map (.assign name v :: ·) := by
  have hne : w ≠ [] := by
    rintro rfl
    cases ha
  rw [parts, split_word hne hw (split_delimiter (by decide) is), split_blank (by decide), parse_any_assignment ha]
  simp only [startsRedirect, Bool.and_false, Bool.false_eq_true, if_false]
  rfl

/-- Where a redirection is expected, one comes next. -/
theorem redirect_head {named : Bool} {e : Expect} {ts : List Token} {ps : List Part} (h : parse named e ts = some ps)
    (he : e ≠ .any) : ∃ fd op target ps', ps = .redirect fd op target :: ps' := by
  fun_induction parse named e ts generalizing ps with
  | case8 | case9 | case11 | case12 =>
    rename_i ih
    exact ih h (by rintro ⟨⟩)
  | case14 named fd op w ts hn ih | case16 named fd op w ts hn ih =>
    obtain ⟨s, hs, h⟩ := Option.bind_eq_some_iff.1 h
    obtain ⟨ps, hps, rfl⟩ := Option.map_eq_some_iff.1 h
    exact ⟨fd, op, s, ps, rfl⟩
  | case1 | case2 | case3 | case4 | case5 | case6 | case7 => exact absurd rfl he
  | _ => cases h

/-- A word that begins with a byte outside quotes. -/
theorem split_char {c : UInt8} (hc : isDelimiter c = false) (is : List Item) :
    ∃ w ts, split (.char false c :: is) = .word (.char false c :: w) :: ts := by
  rw [split_cons, consItem_join (i := .char false c) hc]
  unfold joinWord
  split
  · exact ⟨_, _, rfl⟩
  · exact ⟨_, _, rfl⟩

/-- The first argument begins with a byte that is no delimiter, where the text outside quotes has one. -/
theorem first_word {u x : Str} {c : UInt8} (hc : isDelimiter c = false) {is : List Item} {ps : List Part}
    (h : parts true (chars false u ++ .char false c :: is) = some (.word x :: ps)) :
    ∃ d, x.head? = some d ∧ isDelimiter d = false := by
  -- The first byte that is no delimiter begins the first word.
  have hstart : ∀ (d : UInt8) (js : List Item), isDelimiter d = false → parts true (.char false d :: js) = some (.word x :: ps) →
      ∃ d, x.head? = some d ∧ isDelimiter d = false := by
    intro d js hd h
    obtain ⟨w, ts, hsplit⟩ := split_char hd js
    rw [parts, hsplit, parse_any_argument (.inl rfl)] at h
    split at h
    · obtain ⟨_, _, _, _, hps⟩ := redirect_head h nofun
      cases hps
    · obtain ⟨s, hs, h⟩ := Option.bind_eq_some_iff.1 h
      obtain ⟨ps', hps, h⟩ := Option.map_eq_some_iff.1 h
      cases h
      exact ⟨d, by rw [bytes_of_argument hs]; rfl, hd⟩
  induction u with
  | nil => exact hstart c is hc h
  | cons d u ih =>
    by_cases hd : isDelimiter d = true
    · by_cases hb : isBlank d = true
      · refine ih ?_
        rw [chars_cons, List.cons_append, parts, split_blank hb, parse_any_blank] at h
        exact h
      · have hop : isOperator d = true := by
          simp only [isDelimiter, Bool.or_eq_true] at hd
          exact hd.resolve_left hb
        rw [chars_cons, List.cons_append, parts, split_operator hop, parse_any_op] at h
        split at h
        · obtain ⟨_, _, _, _, hps⟩ := redirect_head h nofun
          cases hps
        · cases h
    · exact hstart d _ (by simpa using hd) h

theorem first_delimiter {s : Str} (h : ¬∀ d ∈ s, isDelimiter d = false) :
    ∃ a e b, s = a ++ e :: b ∧ (∀ d ∈ a, isDelimiter d = false) ∧ isDelimiter e = true := by
  induction s with
  | nil => simp at h
  | cons c s ih =>
    by_cases hc : isDelimiter c = true
    · exact ⟨[], c, s, rfl, by simp, hc⟩
    · have hc : isDelimiter c = false := by simpa using hc
      obtain ⟨a, e, b, rfl, ha, he⟩ := ih fun hs => h (by simpa [hc] using hs)
      exact ⟨c :: a, e, b, rfl, by simpa [hc] using ha, he⟩

theorem split_chars {a : Str} (hne : a ≠ []) (ha : ∀ d ∈ a, isDelimiter d = false) {e : UInt8} (he : isDelimiter e = true)
    (is : List Item) : split (chars false a ++ .char false e :: is) = .word (chars false a) :: split (.char false e :: is) :=
  split_word (by simpa [chars] using hne) (by simpa [chars, Item.isDelimiter] using ha) (split_delimiter he is)

/-- Where the text outside quotes is read back as one argument, it has no delimiter. -/
theorem undelimited_of_word {s : Str} {c : UInt8} (hc : isDelimiter c = false) {is : List Item} {ps : List Part}
    (h : parts true (chars false s ++ space :: .char false c :: is) = some (.word s :: ps)) :
    s ≠ [] ∧ ∀ d ∈ s, isDelimiter d = false := by
  have hfirst : parts true (chars false (s ++ [ch ' ']) ++ .char false c :: is) = some (.word s :: ps) := by
    rw [chars_append, List.append_assoc]
    exact h
  obtain ⟨d, hd, hdelim⟩ := first_word hc hfirst
  have hne : s ≠ [] := by
    rintro rfl
    cases hd
  refine ⟨hne, ?_⟩
  by_contra hex
  obtain ⟨a, e, b, rfl, ha, he⟩ := first_delimiter hex
  have hane : a ≠ [] := by
    rintro rfl
    cases hd
    rw [hdelim] at he
    cases he
  -- The word ends at the first delimiter, and so is shorter.
  rw [chars_append, chars_cons, List.append_assoc, List.cons_append, parts, split_chars hane ha he,
    parse_any_argument (.inl rfl)] at h
  split at h
  · obtain ⟨_, _, _, _, hps⟩ := redirect_head h nofun
    cases hps
  · obtain ⟨x, hx, h⟩ := Option.bind_eq_some_iff.1 h
    obtain ⟨ps', hps, h⟩ := Option.map_eq_some_iff.1 h
    cases h
    have hlen := congrArg List.length (bytes_of_argument hx)
    simp at hlen

/-- The file name of a redirection begins with a byte that is no delimiter. -/
theorem first_target {named : Bool} {fd op u x : Str} {c : UInt8} (hc : isDelimiter c = false) {is : List Item} {ps : List Part}
    (h : parse named (.target fd op) (split (chars false u ++ .char false c :: is)) = some (.redirect fd op x :: ps)) :
    ∃ d, x.head? = some d ∧ isDelimiter d = false := by
  have hstart : ∀ (d : UInt8) (js : List Item), isDelimiter d = false →
      parse named (.target fd op) (split (.char false d :: js)) = some (.redirect fd op x :: ps) →
      ∃ d, x.head? = some d ∧ isDelimiter d = false := by
    intro d js hd h
    obtain ⟨w, ts, hsplit⟩ := split_char hd js
    rw [hsplit, parse_target_word] at h
    split at h
    · cases h
    · obtain ⟨s, hs, h⟩ := Option.bind_eq_some_iff.1 h
      obtain ⟨ps', hps, h⟩ := Option.map_eq_some_iff.1 h
      cases h
      exact ⟨d, by rw [bytes_of_filename hs]; rfl, hd⟩
  induction u with
  | nil => exact hstart c is hc h
  | cons d u ih =>
    by_cases hd : isDelimiter d = true
    · by_cases hb : isBlank d = true
      · refine ih ?_
        rw [chars_cons, List.cons_append, split_blank hb, parse_target_blank] at h
        exact h
      · have hop : isOperator d = true := by
          simp only [isDelimiter, Bool.or_eq_true] at hd
          exact hd.resolve_left hb
        rw [chars_cons, List.cons_append, split_operator hop] at h
        cases h
    · exact hstart d _ (by simpa using hd) h

/-- Where the text outside quotes is read back as the file name, it has no delimiter. -/
theorem undelimited_of_target {named : Bool} {fd op s : Str} {c : UInt8} (hc : isDelimiter c = false) {is : List Item}
    {ps : List Part}
    (h : parse named (.target fd op) (split (chars false s ++ space :: .char false c :: is)) = some (.redirect fd op s :: ps)) :
    s ≠ [] ∧ ∀ d ∈ s, isDelimiter d = false := by
  have hfirst : parse named (.target fd op) (split (chars false (s ++ [ch ' ']) ++ .char false c :: is)) =
      some (.redirect fd op s :: ps) := by
    rw [chars_append, List.append_assoc]
    exact h
  obtain ⟨d, hd, hdelim⟩ := first_target hc hfirst
  have hne : s ≠ [] := by
    rintro rfl
    cases hd
  refine ⟨hne, ?_⟩
  by_contra hex
  obtain ⟨a, e, b, rfl, ha, he⟩ := first_delimiter hex
  have hane : a ≠ [] := by
    rintro rfl
    cases hd
    rw [hdelim] at he
    cases he
  rw [chars_append, chars_cons, List.append_assoc, List.cons_append, split_chars hane ha he,
    parse_target_word] at h
  split at h
  · cases h
  · obtain ⟨x, hx, h⟩ := Option.bind_eq_some_iff.1 h
    obtain ⟨ps', hps, h⟩ := Option.map_eq_some_iff.1 h
    cases h
    have hlen := congrArg List.length (bytes_of_filename hx)
    simp at hlen

/-! ## Arguments -/

/-- A file name that stands for itself outside quotes. -/
structure FileWord (s : Str) : Prop where
  ne_nil : s ≠ []
  literal : ∀ c ∈ s, isLiteral c = true
  undelimited : ∀ c ∈ s, isDelimiter c = false
  leader : ∀ c, s.head? = some c → isLeader c = false

/-- An argument that stands for itself outside quotes. -/
structure PlainWord (s : Str) : Prop extends FileWord s where
  glob : ∀ c ∈ s, isGlob c = false

/-- A fixed word. -/
def isPlainWord : Str → Bool
  | [] => false
  | c :: s => !isLeader c && (c :: s).all fun d => isLiteral d && !isDelimiter d && !isGlob d

theorem plainWord_of {s : Str} (h : isPlainWord s = true) : PlainWord s := by
  cases s with
  | nil => cases h
  | cons c s =>
    simp only [isPlainWord, Bool.and_eq_true, Bool.not_eq_true', List.all_eq_true] at h
    refine ⟨⟨by simp, fun d hd => (h.2 d hd).1.1, fun d hd => (h.2 d hd).1.2, ?_⟩, fun d hd => (h.2 d hd).2⟩
    rintro d ⟨⟩
    exact h.1

/-- An argument outside quotes, or with a part in single quotes after its first. -/
inductive Arg where
  | bare (s : Str)
  | single (lead s : Str)

def Arg.text : Arg → Str
  | .bare s => s
  | .single lead s => lead ++ ch '\'' :: (s ++ [ch '\''])

def Arg.value : Arg → Str
  | .bare s => s
  | .single lead s => lead ++ s

def Arg.items : Arg → List Item
  | .bare s => chars false s
  | .single lead s => chars false lead ++ .quote :: chars true s

def Arg.Plain : Arg → Prop
  | .bare s => PlainWord s
  | .single lead s => PlainWord lead ∧ ch '\'' ∉ s

/-- At most a text outside quotes is in doubt. -/
def Arg.QuoteFree : Arg → Prop
  | .bare s => Shell.QuoteFree s
  | .single lead s => PlainWord lead ∧ ch '\'' ∉ s

theorem run_singleQuoted {s : Str} (hs : ch '\'' ∉ s) (t : Str) :
    run .bare (ch '\'' :: (s ++ ch '\'' :: t)) = (run .bare t).map fun q => (q.1, .quote :: chars true s ++ q.2) := by
  have hopen : step .bare (ch '\'') = some (.single, [.quote]) := by decide
  have hclose : step .single (ch '\'') = some (.bare, []) := by decide
  simp only [run, hopen, run_append, run_single hs, hclose, Option.bind_some, Option.map_map]
  rfl

theorem run_doubleQuoted {s : Str} (hs : Inert s) (hl : s.getLast? ≠ some (ch '\\')) (t : Str) :
    run .bare (ch '"' :: (s ++ ch '"' :: t)) = (run .bare t).map fun q => (q.1, .quote :: chars true s ++ q.2) := by
  have hopen : step .bare (ch '"') = some (.double, [.quote]) := by decide
  have hclose : step .double (ch '"') = some (.bare, []) := by decide
  simp only [run, hopen, run_append, run_inert hs hl, hclose, Option.bind_some, Option.map_map]
  rfl

theorem run_literal_append {s : Str} (hs : ∀ c ∈ s, isLiteral c = true) (t : Str) :
    run .bare (s ++ t) = (run .bare t).map fun q => (q.1, chars false s ++ q.2) := by
  rw [run_append, run_literal hs]
  rfl

theorem run_space (t : Str) : run .bare (ch ' ' :: t) = (run .bare t).map fun q => (q.1, space :: q.2) :=
  run_literal_append (s := [ch ' ']) (List.forall_mem_singleton.2 (by decide)) t

/-- A plain argument and the blank after it. -/
theorem run_arg {a : Arg} (ha : a.Plain) (t : Str) :
    run .bare (a.text ++ ch ' ' :: t) = (run .bare t).map fun q => (q.1, a.items ++ space :: q.2) := by
  cases a with
  | bare s =>
    rw [Arg.text, run_literal_append ha.literal, run_space, Option.map_map]
    rfl
  | single lead s =>
    rw [Arg.text, List.append_assoc, List.cons_append, List.append_assoc, List.singleton_append, run_literal_append ha.1.literal,
      run_singleQuoted ha.2, run_space, Option.map_map, Option.map_map]
    simp [Function.comp_def, Arg.items]

/-- Bytes are lost if an argument is not read as it stands. -/
theorem run_arg_weight {a : Arg} (ha : a.QuoteFree) {t : Str} {m : Mode} {is : List Item}
    (h : run .bare (a.text ++ ch ' ' :: t) = some (m, is)) :
    ∃ js, run .bare t = some (m, js) ∧ weight (bytes is) ≤ weight a.value + weight (bytes js) ∧
      (weight a.value + weight (bytes js) ≤ weight (bytes is) →
        (∀ s, a = .bare s → ∀ c ∈ s, isLiteral c = true) ∧ is = a.items ++ space :: js) := by
  cases a with
  | bare s =>
    obtain ⟨js, hjs, hle, heq⟩ := run_word ha h
    refine ⟨js, hjs, hle, fun hw => ⟨?_, (heq hw).2⟩⟩
    rintro _ ⟨⟩
    exact (heq hw).1
  | single lead s =>
    rw [run_arg (a := .single lead s) ha] at h
    obtain ⟨⟨m, js⟩, hjs, h⟩ := Option.map_eq_some_iff.1 h
    cases h
    refine ⟨js, hjs, ?_, fun _ => ⟨nofun, rfl⟩⟩
    have hspace : isBlank (ch ' ') = true := by decide
    simp [Arg.items, Arg.value, hspace]
    omega

/-- The arguments, each with a blank after it. -/
def render (as : List Arg) : Str := as.flatMap fun a => a.text ++ [ch ' ']

def itemsOf (as : List Arg) : List Item := as.flatMap fun a => a.items ++ [space]

def argsWeight (as : List Arg) : Nat := (as.map fun a => weight a.value).sum

theorem render_cons (a : Arg) (as : List Arg) (t : Str) : render (a :: as) ++ t = a.text ++ ch ' ' :: (render as ++ t) := by
  simp [render]

theorem itemsOf_cons (a : Arg) (as : List Arg) (js : List Item) :
    itemsOf (a :: as) ++ js = a.items ++ space :: (itemsOf as ++ js) := by
  simp [itemsOf]

theorem run_render {as : List Arg} (has : ∀ a ∈ as, a.Plain) (t : Str) :
    run .bare (render as ++ t) = (run .bare t).map fun q => (q.1, itemsOf as ++ q.2) := by
  induction as with
  | nil => simp [render, itemsOf]
  | cons a as ih =>
    rw [render_cons, run_arg (has a (by simp)), ih fun b hb => has b (by simp [hb]), Option.map_map]
    simp [Function.comp_def, itemsOf_cons]

theorem run_render_weight {as : List Arg} (has : ∀ a ∈ as, a.QuoteFree) {t : Str} {m : Mode} {is : List Item}
    (h : run .bare (render as ++ t) = some (m, is)) :
    ∃ js, run .bare t = some (m, js) ∧ weight (bytes is) ≤ argsWeight as + weight (bytes js) ∧
      (argsWeight as + weight (bytes js) ≤ weight (bytes is) →
        (∀ s, .bare s ∈ as → ∀ c ∈ s, isLiteral c = true) ∧ is = itemsOf as ++ js) := by
  induction as generalizing is with
  | nil => exact ⟨is, h, by simp [argsWeight], fun _ => ⟨nofun, rfl⟩⟩
  | cons a as ih =>
    rw [render_cons] at h
    obtain ⟨is', his', hle, heq⟩ := run_arg_weight (has a (by simp)) h
    obtain ⟨js, hjs, hle', heq'⟩ := ih (fun b hb => has b (by simp [hb])) his'
    have hsum : argsWeight (a :: as) = weight a.value + argsWeight as := by simp [argsWeight]
    refine ⟨js, hjs, by omega, fun hw => ?_⟩
    obtain ⟨hbare, rfl⟩ := heq (by omega)
    obtain ⟨hrest, rfl⟩ := heq' (by omega)
    refine ⟨fun s hs => ?_, (itemsOf_cons a as js).symm⟩
    rcases List.mem_cons.1 hs with rfl | hs
    · exact hbare s rfl
    · exact hrest s hs

/-! ## Parts -/

theorem chars_undelimited {s : Str} (hs : ∀ c ∈ s, isDelimiter c = false) : ∀ i ∈ chars false s, i.isDelimiter = false := by
  simpa [chars, Item.isDelimiter] using hs

theorem quoted_undelimited (s : Str) : ∀ i ∈ chars true s, i.isDelimiter = false := by
  simp [chars, Item.isDelimiter]

theorem opensExpansion_chars (s : Str) : opensExpansion (chars false s) = s.head?.any isLeader := by
  cases s <;> rfl

theorem hasGlob_chars (s : Str) : hasGlob (chars false s) = s.any isGlob := by
  simp only [hasGlob, chars, List.any_map]
  rfl

theorem hasGlob_quoted (s : Str) : hasGlob (chars true s) = false := by
  simp [hasGlob, chars]

theorem head_any {s : Str} (h : ∀ c, s.head? = some c → isLeader c = false) : s.head?.any isLeader = false := by
  cases s with
  | nil => rfl
  | cons c s => exact h c rfl

theorem any_glob {s : Str} (h : ∀ c ∈ s, isGlob c = false) : s.any isGlob = false := by
  simpa using h

theorem argument_chars {s : Str} (hs : PlainWord s) : argument (chars false s) = some s := by
  simp [argument, opensExpansion_chars, head_any hs.leader, hasGlob_chars, any_glob hs.glob]

theorem argument_single {lead s : Str} (hl : PlainWord lead) :
    argument (chars false lead ++ .quote :: chars true s) = some (lead ++ s) := by
  have hopens : opensExpansion (chars false lead ++ .quote :: chars true s) = false := by
    have hlead := opensExpansion_chars lead
    rw [head_any hl.leader] at hlead
    cases lead with
    | nil => exact absurd rfl hl.ne_nil
    | cons c lead => exact hlead
  have hglob : hasGlob (chars false lead ++ .quote :: chars true s) = false := by
    have hlead := hasGlob_chars lead
    have hquoted := hasGlob_quoted s
    rw [any_glob hl.glob] at hlead
    simp only [hasGlob, List.any_append, List.any_cons, Bool.or_eq_false_iff] at *
    exact ⟨hlead, trivial, hquoted⟩
  simp [argument, hopens, hglob]

theorem items_undelimited {a : Arg} (ha : a.Plain) : a.items ≠ [] ∧ ∀ i ∈ a.items, i.isDelimiter = false := by
  cases a with
  | bare s => exact ⟨by simpa [Arg.items, chars] using ha.ne_nil, chars_undelimited ha.undelimited⟩
  | single lead s =>
    refine ⟨by simp [Arg.items], ?_⟩
    simp only [Arg.items, List.mem_append, List.mem_cons]
    rintro i (hi | rfl | hi)
    · exact chars_undelimited ha.1.undelimited i hi
    · rfl
    · exact quoted_undelimited s i hi

theorem argument_items {a : Arg} (ha : a.Plain) : argument a.items = some a.value := by
  cases a with
  | bare s => exact argument_chars ha
  | single lead s => exact argument_single ha.1

/-- A plain argument is read back. -/
theorem parts_arg {a : Arg} (ha : a.Plain) {named : Bool} (hn : named = true ∨ assignment? a.items = none) (is : List Item) :
    parts named (a.items ++ space :: is) = (parts true is).map (.word a.value :: ·) := by
  obtain ⟨hne, hitems⟩ := items_undelimited ha
  rw [parts_word hne hitems hn, argument_items ha]
  rfl

/-- An argument outside quotes that is read back is plain. -/
theorem plain_of_parts {s : Str} (hlit : ∀ c ∈ s, isLiteral c = true) {c : UInt8} (hc : isDelimiter c = false) {is : List Item}
    {ps : List Part} (h : parts true (chars false s ++ space :: .char false c :: is) = some (.word s :: ps)) : PlainWord s := by
  obtain ⟨hne, hdelim⟩ := undelimited_of_word hc h
  rw [parts_word (by simpa [chars] using hne) (chars_undelimited hdelim) (.inl rfl)] at h
  obtain ⟨x, hx, -⟩ := Option.bind_eq_some_iff.1 h
  unfold argument at hx
  split at hx
  · cases hx
  next hplain =>
  simp only [opensExpansion_chars, hasGlob_chars, Bool.or_eq_true, not_or, Bool.not_eq_true] at hplain
  refine ⟨⟨hne, hlit, hdelim, ?_⟩, ?_⟩
  · intro d hd
    rw [hd] at hplain
    exact hplain.1
  · intro d hd
    exact List.any_eq_false.1 hplain.2 d hd |> Bool.eq_false_iff.2

/-- Each argument in doubt is followed by one that is not empty and not quoted. -/
def Guarded : List Arg → Prop
  | [] => True
  | a :: as => (a.Plain ∨ ∃ c is, itemsOf as = .char false c :: is ∧ isDelimiter c = false) ∧ Guarded as

theorem parts_args {as : List Arg} (has : ∀ a ∈ as, a.Plain) (js : List Item) :
    parts true (itemsOf as ++ js) = (parts true js).map (as.map (fun a => .word a.value) ++ ·) := by
  induction as with
  | nil => simp [itemsOf]
  | cons a as ih =>
    rw [itemsOf_cons, parts_arg (has a (by simp)) (.inl rfl), ih fun b hb => has b (by simp [hb]), Option.map_map]
    rfl

/-- Arguments that are read back are plain. -/
theorem plain_of_parts_args {as : List Arg} (hq : ∀ a ∈ as, a.QuoteFree) (hg : Guarded as)
    (hlit : ∀ s, .bare s ∈ as → ∀ c ∈ s, isLiteral c = true) {js : List Item} {ps : List Part}
    (h : parts true (itemsOf as ++ js) = some (as.map (fun a => .word a.value) ++ ps)) :
    (∀ a ∈ as, a.Plain) ∧ parts true js = some ps := by
  induction as with
  | nil => exact ⟨by simp, h⟩
  | cons a as ih =>
    obtain ⟨hguard, hg⟩ := hg
    rw [itemsOf_cons] at h
    have ha : a.Plain := by
      rcases hguard with ha | ⟨c, is, his, hc⟩
      · exact ha
      · cases a with
        | bare s =>
          rw [his] at h
          exact plain_of_parts (hlit s (by simp)) hc h
        | single lead s => exact hq (.single lead s) (by simp)
    rw [parts_arg ha (.inl rfl)] at h
    obtain ⟨qs, hqs, heq⟩ := Option.map_eq_some_iff.1 h
    cases heq
    obtain ⟨has, hjs⟩ := ih (fun b hb => hq b (by simp [hb])) hg (fun s hs => hlit s (by simp [hs])) hqs
    refine ⟨?_, hjs⟩
    intro b hb
    rcases List.mem_cons.1 hb with rfl | hb
    · exact ha
    · exact has b hb

theorem FileWord.filename {s : Str} (hs : FileWord s) : filename (chars false s) = some s := by
  simp [Shell.filename, opensExpansion_chars, head_any hs.leader]

/-- A file name outside quotes and the blank after it. -/
theorem parse_target {s : Str} (hs : FileWord s) (named : Bool) (fd op : Str) (is : List Item) :
    parse named (.target fd op) (split (chars false s ++ space :: is)) = (parts named is).map (.redirect fd op s :: ·) := by
  rw [split_chars hs.ne_nil hs.undelimited (by decide), split_blank (by decide), parse_target_word]
  simp only [startsRedirect, Bool.and_false, Bool.false_eq_true, if_false, hs.filename, Option.bind_some]
  rfl

theorem fileWord_of_parse {s : Str} (hlit : ∀ c ∈ s, isLiteral c = true) {c : UInt8} (hc : isDelimiter c = false) {named : Bool}
    {fd op : Str} {is : List Item} {ps : List Part}
    (h : parse named (.target fd op) (split (chars false s ++ space :: .char false c :: is)) = some (.redirect fd op s :: ps)) :
    FileWord s := by
  obtain ⟨hne, hdelim⟩ := undelimited_of_target hc h
  refine ⟨hne, hlit, hdelim, ?_⟩
  rw [split_chars hne hdelim (by decide), split_blank (by decide), parse_target_word] at h
  simp only [startsRedirect, Bool.and_false, Bool.false_eq_true, if_false] at h
  obtain ⟨x, hx, -⟩ := Option.bind_eq_some_iff.1 h
  unfold filename at hx
  split at hx
  · cases hx
  next hplain =>
  intro d hd
  rw [opensExpansion_chars, hd] at hplain
  simpa using hplain

/-! ## Whole lines -/

/-- The arguments up to the name of the command. -/
structure Opening (lead : List Arg) (ps : List Part) : Prop where
  plain : ∀ a ∈ lead, a.Plain
  opens : ∀ js, parts false (itemsOf lead ++ js) = (parts true js).map (ps ++ ·)
  weight : partsWeight ps = argsWeight lead

theorem opening_word {s : Str} (hs : PlainWord s) (ha : assignment? (chars false s) = none) : Opening [.bare s] [.word s] where
  plain := by
    rintro a ha
    cases List.mem_singleton.1 ha
    exact hs
  opens js := by
    rw [itemsOf_cons, parts_arg (a := .bare s) hs (.inr ha)]
    rfl
  weight := by simp [argsWeight, Part.weight, Arg.value]

/-- A name, an equals sign and a quoted value are an assignment. -/
theorem assignment_quoted {c : UInt8} {name value : Str} (hc : isDigit c = false)
    (hname : ∀ d ∈ c :: name, isAlnum d = true ∨ d = ch '_') :
    assignment? (chars false (c :: name ++ lit "=") ++ .quote :: chars true value) = some (c :: name, .quote :: chars true value) := by
  have hall : ∀ i ∈ chars false (c :: name), i.isName = true := by
    intro i hi
    obtain ⟨d, hd, rfl⟩ := List.mem_map.1 hi
    simpa [Item.isName] using hname d hd
  have heq : Item.isName (.char false (ch '=')) = false := by decide
  rw [chars_append, List.append_assoc]
  have htake : (chars false (c :: name) ++ (chars false (lit "=") ++ .quote :: chars true value)).takeWhile Item.isName =
      chars false (c :: name) := by
    rw [List.takeWhile_append_of_pos hall]
    simp [lit, heq]
  have hdrop : (chars false (c :: name) ++ (chars false (lit "=") ++ .quote :: chars true value)).dropWhile Item.isName =
      .char false (ch '=') :: .quote :: chars true value := by
    rw [List.dropWhile_append_of_pos hall]
    simp [lit, heq]
  rw [assignment?, htake, hdrop, bytes_chars]
  simp [hc]

theorem opening_assign {c : UInt8} {name value s : Str} (hc : isDigit c = false)
    (hname : ∀ d ∈ c :: name, isAlnum d = true ∨ d = ch '_') (hlead : PlainWord (c :: name ++ lit "=")) (hvalue : ch '\'' ∉ value)
    (hs : PlainWord s) (ha : assignment? (chars false s) = none) :
    Opening [.single (c :: name ++ lit "=") value, .bare s] [.assign (c :: name) value, .word s] where
  plain := by
    simp only [List.mem_cons, List.not_mem_nil, or_false]
    rintro a (rfl | rfl)
    · exact ⟨hlead, hvalue⟩
    · exact hs
  opens js := by
    have hitems := (items_undelimited (a := .single (c :: name ++ lit "=") value) ⟨hlead, hvalue⟩).2
    have hassigned : assigned (.quote :: chars true value) = some value := by
      have hnone : (.quote :: chars true value).any (· = .char false (ch '~')) = false := by simp [chars]
      rw [assigned, hnone, bytes_quote, bytes_chars]
      rfl
    rw [itemsOf_cons, parts_assignment hitems (assignment_quoted hc hname), hassigned, itemsOf_cons,
      parts_arg (a := .bare s) hs (.inr ha)]
    simp [itemsOf, Arg.value, Function.comp_def]
  weight := by
    have hone : weight (lit "=") = 1 := by decide
    simp only [argsWeight, Part.weight, Arg.value, partsWeight_cons, partsWeight_nil, weight_append, hone, List.map_cons,
      List.map_nil, List.sum_cons, List.sum_nil]

theorem unquote_some {s : Str} {is : List Item} : unquote s = some is ↔ run .bare s = some (.bare, is) := by
  unfold unquote
  split
  · next items hrun => simp [hrun]
  · next hrun =>
    constructor
    · nofun
    · intro h
      exact absurd h (hrun is)

theorem command_some {line : Str} {ps : List Part} :
    command line = some ps ↔ ∃ is, run .bare line = some (.bare, is) ∧ parts false is = some ps := by
  simp only [command, Option.bind_eq_some_iff, unquote_some]
  rfl

/-- What is understood of a line has at most its non-blank bytes. -/
theorem parts_weight {named : Bool} {is : List Item} {ps : List Part} (h : parts named is = some ps) :
    partsWeight ps ≤ weight (bytes is) := by
  have hparse := parse_weight h
  rw [split_weight] at hparse
  simpa [Expect.weight] using hparse

theorem command_weight {line : Str} {ps : List Part} (h : command line = some ps) : partsWeight ps ≤ weight line := by
  obtain ⟨is, hrun, hparts⟩ := command_some.1 h
  have hread := run_weight hrun
  have hle := parts_weight hparts
  simp only [Mode.owed] at hread
  omega

theorem partsWeight_append (ps qs : List Part) : partsWeight (ps ++ qs) = partsWeight ps + partsWeight qs := by
  simp [partsWeight]

theorem argsWeight_append (as bs : List Arg) : argsWeight (as ++ bs) = argsWeight as + argsWeight bs := by
  simp [argsWeight]

theorem partsWeight_words (as : List Arg) : partsWeight (as.map fun a => .word a.value) = argsWeight as := by
  simp [partsWeight, argsWeight, Part.weight, Function.comp_def]

/-- What comes after the last text: a blank, and redirections that are read as they stand. -/
structure Ending (tail : Str) (ps : List Part) : Prop where
  literal : ∀ c ∈ tail, isLiteral c = true
  begins : ∃ c rest, tail = ch ' ' :: c :: rest ∧ isDelimiter c = false
  reads : parts true (chars false tail) = some ps
  weight : partsWeight ps = Shell.weight tail

theorem Arg.Plain.quoteFree {a : Arg} (ha : a.Plain) : a.QuoteFree := by
  cases a with
  | bare s => exact ⟨fun h => absurd (ha.literal _ h) (by decide), fun h => absurd (ha.literal _ h) (by decide)⟩
  | single lead s => exact ha

theorem itemsOf_append (as bs : List Arg) : itemsOf (as ++ bs) = itemsOf as ++ itemsOf bs := by
  simp [itemsOf]

section
variable {lead as : List Arg} {opening ending : List Part} {tail : Str}

/-- The rest of a line, of which nothing may be lost. -/
theorem command_render {t : Str} {ps : List Part} (ho : Opening lead opening) (hq : ∀ a ∈ as, a.QuoteFree) (hg : Guarded as)
    (h : command (render (lead ++ as) ++ t) = some (opening ++ (as.map (fun a => .word a.value) ++ ps))) :
    ∃ js, run .bare t = some (.bare, js) ∧ partsWeight ps ≤ weight (bytes js) ∧
      (weight (bytes js) ≤ partsWeight ps → (∀ a ∈ as, a.Plain) ∧ parts true js = some ps) := by
  obtain ⟨is, hrun, hparts⟩ := command_some.1 h
  have hweight := parts_weight hparts
  have hall : ∀ a ∈ lead ++ as, a.QuoteFree := by
    intro a ha
    rcases List.mem_append.1 ha with ha | ha
    · exact (ho.plain a ha).quoteFree
    · exact hq a ha
  obtain ⟨js, hjs, hle, heq⟩ := run_render_weight hall hrun
  rw [partsWeight_append, partsWeight_append, partsWeight_words, ho.weight] at hweight
  rw [argsWeight_append] at hle heq
  refine ⟨js, hjs, by omega, fun hjw => ?_⟩
  obtain ⟨hlit, rfl⟩ := heq (by omega)
  rw [itemsOf_append, List.append_assoc, ho.opens] at hparts
  obtain ⟨qs, hqs, hcons⟩ := Option.map_eq_some_iff.1 hparts
  rw [List.append_cancel_left hcons] at hqs
  exact plain_of_parts_args hq hg (fun s hs => hlit s (by simp [hs])) hqs

theorem command_of_plain {t : Str} {js : List Item} {ps : List Part} (ho : Opening lead opening) (has : ∀ a ∈ as, a.Plain)
    (ht : run .bare t = some (.bare, js)) (hjs : parts true js = some ps) :
    command (render (lead ++ as) ++ t) = some (opening ++ (as.map (fun a => .word a.value) ++ ps)) := by
  have hall : ∀ a ∈ lead ++ as, a.Plain := by
    intro a ha
    rcases List.mem_append.1 ha with ha | ha
    · exact ho.plain a ha
    · exact has a ha
  refine command_some.2 ⟨itemsOf (lead ++ as) ++ js, ?_, ?_⟩
  · rw [run_render hall, ht]
    rfl
  · rw [itemsOf_append, List.append_assoc, ho.opens, parts_args has, hjs]
    rfl

theorem parts_quoted (s : Str) (js : List Item) :
    parts true (.quote :: chars true s ++ space :: js) = (parts true js).map (.word s :: ·) := by
  have hargument : argument (.quote :: chars true s) = some s := by
    have hglob := hasGlob_quoted s
    simp only [hasGlob] at hglob
    simp [argument, opensExpansion, hasGlob, hglob]
  rw [parts_word (by simp) (by simpa [Item.isDelimiter] using quoted_undelimited s) (.inl rfl), hargument]
  rfl

/-- A line whose last argument is in double quotes is read as it was meant exactly
if the other arguments are plain and the quoted text stands for itself. -/
theorem quoted_command_iff (ho : Opening lead opening) (he : Ending tail ending) {s : Str}
    (hl : s.getLast? ≠ some (ch '\\')) (hq : ∀ a ∈ as, a.QuoteFree) (hg : Guarded as) :
    command (render (lead ++ as) ++ ch '"' :: (s ++ ch '"' :: tail)) =
        some (opening ++ (as.map (fun a => .word a.value) ++ .word s :: ending)) ↔
      (∀ a ∈ as, a.Plain) ∧ Inert s := by
  have hblank : isBlank (ch '"') = false := by decide
  have hsum : partsWeight (.word s :: ending) = weight s + weight tail := by
    rw [partsWeight_cons, he.weight]
    rfl
  constructor
  · intro h
    obtain ⟨js, hjs, hge, heq⟩ := command_render ho hq hg h
    obtain ⟨m₁, is₁, is₂, hopen, hrest, rfl⟩ := run_cons_some hjs
    cases hopen
    have hread := run_weight hrest
    simp only [Mode.owed, weight_append, weight_cons, hblank] at hread
    simp only [List.singleton_append, bytes_quote] at hge heq
    have hs := inert_of_weight hrest hl (by omega)
    refine ⟨(heq ?_).1, hs⟩
    simp only [Bool.false_eq_true, if_false] at hread
    omega
  · rintro ⟨has, hs⟩
    obtain ⟨c, rest, htail, -⟩ := he.begins
    have hreads := he.reads
    rw [htail, chars_cons, parts_space] at hreads
    have hrun : run .bare (ch '"' :: (s ++ ch '"' :: tail)) = some (.bare, .quote :: chars true s ++ chars false tail) := by
      rw [run_doubleQuoted hs hl, run_literal he.literal]
      rfl
    refine command_of_plain ho has hrun ?_
    rw [htail, chars_cons, parts_quoted, hreads]
    rfl

/-- A line that ends in a redirection to a file is read as it was meant exactly if
the arguments and the file name are plain. -/
theorem redirected_command_iff (ho : Opening lead opening) (he : Ending tail ending) {path : Str}
    (hq : ∀ a ∈ as, a.QuoteFree) (hg : Guarded as) :
    command (render (lead ++ as) ++ (lit "> " ++ path ++ tail)) =
        some (opening ++ (as.map (fun a => .word a.value) ++ .redirect [] (lit ">") path :: ending)) ↔
      (∀ a ∈ as, a.Plain) ∧ FileWord path := by
  obtain ⟨c, rest, htail, hc⟩ := he.begins
  have hreads := he.reads
  rw [htail, chars_cons, parts_space] at hreads
  have hop : weight (lit "> ") = 1 ∧ weight (lit ">") = 1 := by decide
  have hopLiteral : ∀ c ∈ lit "> ", isLiteral c = true := List.all_eq_true.1 (by decide)
  have hsum : partsWeight (.redirect [] (lit ">") path :: ending) = 1 + weight path + weight tail := by
    rw [partsWeight_cons, he.weight, Part.weight, hop.2, weight_nil]
  -- The file name is read where a target is expected.
  have htarget : parts true (chars false (lit "> " ++ path ++ tail)) =
      parse true (.target [] (lit ">")) (split (chars false path ++ space :: chars false (c :: rest))) := by
    rw [htail, chars_append, chars_append, List.append_assoc]
    rfl
  constructor
  · intro h
    obtain ⟨js, hjs, hge, heq⟩ := command_render ho hq hg h
    have hread := run_weight hjs
    simp only [Mode.owed, weight_append, hop.1] at hread
    have hlit := literal_of_weight rfl hjs (by simp only [weight_append, hop.1]; omega)
    obtain ⟨has, hparts⟩ := heq (by omega)
    refine ⟨has, ?_⟩
    cases hjs.symm.trans (run_literal hlit)
    rw [htarget] at hparts
    exact fileWord_of_parse (fun d hd => hlit d (by simp [hd])) hc hparts
  · rintro ⟨has, hpath⟩
    have hlit : ∀ d ∈ lit "> " ++ path ++ tail, isLiteral d = true := by
      simp only [List.mem_append]
      rintro d ((hd | hd) | hd)
      · exact hopLiteral d hd
      · exact hpath.literal d hd
      · exact he.literal d hd
    refine command_of_plain ho has (run_literal hlit) ?_
    rw [htarget, parse_target hpath, hreads]
    rfl

end

/-! ## C strings -/

/-- A line up to its first NUL. -/
def cString (s : Str) : Str := s.takeWhile (· ≠ 0)

theorem cString_self {s : Str} (h : 0 ∉ s) : cString s = s := by
  refine List.takeWhile_eq_self_iff.2 ?_
  intro c hc
  simpa using fun h0 : c = 0 => h (h0 ▸ hc)

theorem weight_cString {s : Str} (h : 0 ∈ s) (t : Str) : weight (cString (s ++ t)) < weight s := by
  induction s with
  | nil => cases h
  | cons c s ih =>
    have hzero : isBlank 0 = false := by decide
    by_cases hc : c = 0
    · subst hc
      have hcut : cString (0 :: s ++ t) = [] := rfl
      rw [hcut, weight_nil, weight_cons, hzero]
      change 0 < 1 + weight s
      omega
    · have hs : 0 ∈ s := by
        rcases List.mem_cons.1 h with h | h
        · exact absurd h.symm hc
        · exact h
      have hrest := ih hs
      simp only [cString, List.cons_append, List.takeWhile_cons, hc, ne_eq, not_false_eq_true, decide_true, if_true, weight_cons]
        at hrest ⊢
      omega

/-- A line that loses a whole part after a NUL is not read as it was meant. -/
theorem command_cString {s t : Str} {ps : List Part} (h : 0 ∈ s) (hw : weight s ≤ partsWeight ps) :
    command (cString (s ++ t)) ≠ some ps := by
  intro hc
  have hle := command_weight hc
  have hlt := weight_cString h t
  omega

def Arg.isSingle : Arg → Bool
  | .bare _ => false
  | .single _ _ => true

theorem weight_render (as : List Arg) : weight (render as) = argsWeight as + 2 * as.countP Arg.isSingle := by
  have hblank : isBlank (ch ' ') = true ∧ isBlank (ch '\'') = false := by decide
  induction as with
  | nil => rfl
  | cons a as ih =>
    have hsum : argsWeight (a :: as) = weight a.value + argsWeight as := by simp [argsWeight]
    have hrender : render (a :: as) = a.text ++ ch ' ' :: render as := by simp [render]
    rw [hrender, hsum, weight_append, weight_cons, ih, List.countP_cons]
    cases a with
    | bare s =>
      simp [Arg.text, Arg.value, Arg.isSingle, hblank]
      omega
    | single lead s =>
      simp [Arg.text, Arg.value, Arg.isSingle, hblank]
      omega

section
variable {lead as : List Arg} {opening ending : List Part} {tail : Str}

theorem quoted_cString_iff (ho : Opening lead opening) (he : Ending tail ending) {s : Str}
    (hl : s.getLast? ≠ some (ch '\\')) (hq : ∀ a ∈ as, a.QuoteFree) (hg : Guarded as)
    (hone : (lead ++ as).countP Arg.isSingle ≤ 1) (htail : 0 ∉ tail ∧ 4 ≤ weight tail) :
    command (cString (render (lead ++ as) ++ ch '"' :: (s ++ ch '"' :: tail))) =
        some (opening ++ (as.map (fun a => .word a.value) ++ .word s :: ending)) ↔
      (0 ∉ render (lead ++ as) ∧ 0 ∉ s) ∧ (∀ a ∈ as, a.Plain) ∧ Inert s := by
  have hquote : isBlank (ch '"') = false ∧ (0 : UInt8) ≠ ch '"' := by decide
  by_cases h0 : 0 ∈ render (lead ++ as) ++ ch '"' :: (s ++ [ch '"'])
  · refine iff_of_false ?_ ?_
    · have hsplit : render (lead ++ as) ++ ch '"' :: (s ++ ch '"' :: tail) =
          (render (lead ++ as) ++ ch '"' :: (s ++ [ch '"'])) ++ tail := by simp
      rw [hsplit]
      refine command_cString h0 ?_
      rw [partsWeight_append, partsWeight_append, partsWeight_words, partsWeight_cons, he.weight, ho.weight, Part.weight,
        weight_append, weight_render, argsWeight_append, weight_cons, weight_append, weight_cons, weight_nil, hquote.1]
      simp only [Bool.false_eq_true, if_false]
      omega
    · rintro ⟨⟨hrender, hs⟩, -⟩
      simp [hrender, hs, hquote.2] at h0
  · have hfree : 0 ∉ render (lead ++ as) ++ ch '"' :: (s ++ ch '"' :: tail) := by
      simp only [List.mem_append, List.mem_cons, not_or, List.not_mem_nil, not_false_eq_true, and_true] at h0 ⊢
      exact ⟨h0.1, h0.2.1, h0.2.2.1, h0.2.2.2, htail.1⟩
    rw [cString_self hfree, quoted_command_iff ho he hl hq hg]
    simp only [List.mem_append, List.mem_cons, not_or] at h0
    exact ⟨fun h => ⟨⟨h0.1, h0.2.2.1⟩, h⟩, fun h => h.2⟩

theorem redirected_cString_iff (ho : Opening lead opening) (he : Ending tail ending) {path : Str}
    (hq : ∀ a ∈ as, a.QuoteFree) (hg : Guarded as) (hone : (lead ++ as).countP Arg.isSingle ≤ 1)
    (htail : 0 ∉ tail ∧ 4 ≤ weight tail) :
    command (cString (render (lead ++ as) ++ (lit "> " ++ path ++ tail))) =
        some (opening ++ (as.map (fun a => .word a.value) ++ .redirect [] (lit ">") path :: ending)) ↔
      (0 ∉ render (lead ++ as) ∧ 0 ∉ path) ∧ (∀ a ∈ as, a.Plain) ∧ FileWord path := by
  have hop : weight (lit "> ") = 1 ∧ weight (lit ">") = 1 ∧ 0 ∉ lit "> " := by decide
  by_cases h0 : 0 ∈ render (lead ++ as) ++ (lit "> " ++ path)
  · refine iff_of_false ?_ ?_
    · rw [← List.append_assoc]
      refine command_cString h0 ?_
      rw [partsWeight_append, partsWeight_append, partsWeight_words, partsWeight_cons, he.weight, ho.weight, Part.weight,
        weight_append, weight_render, argsWeight_append, weight_append, hop.1, hop.2.1, weight_nil]
      omega
    · rintro ⟨⟨hrender, hs⟩, -⟩
      simp [hrender, hs, hop.2.2] at h0
  · have hfree : 0 ∉ render (lead ++ as) ++ (lit "> " ++ path ++ tail) := by
      simp only [List.mem_append, not_or] at h0 ⊢
      exact ⟨h0.1, h0.2, htail.1⟩
    rw [cString_self hfree, redirected_command_iff ho he hq hg]
    simp only [List.mem_append, not_or] at h0
    exact ⟨fun h => ⟨⟨h0.1, h0.2.2⟩, h⟩, fun h => h.2⟩

end

/-! ## Pipelines -/

def bar : Item := .char false (ch '|')

/-- The commands of a pipeline. -/
def pipeline (line : Str) : Option (List (List Part)) :=
  (unquote line).bind fun items => (items.splitOnP (· = bar)).mapM (parts false)

theorem bar_notMem_quoted (s : Str) : bar ∉ chars true s := by
  simp [chars, bar]

theorem pipeline_of_run {line : Str} {items : List Item} (h : run .bare line = some (.bare, items)) :
    pipeline line = (items.splitOnP (· = bar)).mapM (parts false) := by
  rw [pipeline, unquote_some.2 h]
  rfl

/-- The first command, up to the bar. -/
theorem splitOnP_bar {items : List Item} (h : bar ∉ items) (rest : List Item) :
    (items ++ bar :: rest).splitOnP (· = bar) = items :: rest.splitOnP (· = bar) := by
  apply List.splitOnP_append_cons_of_forall_mem
  · intro i hi
    simpa using fun he : i = bar => h (he ▸ hi)
  · simp

theorem splitOnP_last {items : List Item} (h : bar ∉ items) : items.splitOnP (· = bar) = [items] := by
  apply List.splitOnP_eq_singleton
  intro i hi
  simpa using fun he : i = bar => h (he ▸ hi)

end McpBridge.Lib.Shell
