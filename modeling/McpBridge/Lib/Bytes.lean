import Mathlib.Data.List.Basic
import Mathlib.Data.List.Infix
import Mathlib.Algebra.GroupWithZero.Nat
/-!
# Byte strings

A C or C++ string is a list of bytes. `lit` writes an ASCII literal. The rest
is what text formats need: words between blanks, lists separated by a
character that can be escaped, lines, and the text after a marker.
-/

namespace McpBridge.Lib

/-- Byte strings. -/
abbrev Str := List UInt8

/-- The byte of an ASCII character. -/
def ch (c : Char) : UInt8 := c.toNat.toUInt8

/-- An ASCII literal. -/
def lit (s : String) : Str := s.toList.map ch

/-- A literal character by character. To take a long string apart is slow where a term is evaluated. -/
theorem lit_ofList (cs : List Char) : lit (String.ofList cs) = cs.map ch :=
  congrArg (List.map ch) String.toList_ofList

/-! ## Character classes -/

def isLower (c : UInt8) : Bool := ch 'a' ≤ c && c ≤ ch 'z'

def isUpper (c : UInt8) : Bool := ch 'A' ≤ c && c ≤ ch 'Z'

def isDigit (c : UInt8) : Bool := ch '0' ≤ c && c ≤ ch '9'

/-- `isalnum` in the C locale. -/
def isAlnum (c : UInt8) : Bool := isLower c || isUpper c || isDigit c

/-- A lowercase hexadecimal digit. -/
def isHexDigit (c : UInt8) : Bool := isDigit c || (ch 'a' ≤ c && c ≤ ch 'f')

/-- Printable ASCII, the space included. -/
def isPrint (c : UInt8) : Bool := 0x20 ≤ c && c ≤ 0x7e

/-- A space or a tab. -/
def isBlank (c : UInt8) : Bool := c = ch ' ' || c = ch '\t'

/-- A class that rejects `x` keeps `x` out of every string over it. -/
theorem not_mem_of_all {p : UInt8 → Bool} {s : Str} {x : UInt8} (h : s.all p = true) (hx : p x = false) :
    x ∉ s := by
  intro hm
  rw [List.all_eq_true.1 h x hm] at hx
  cases hx

/-! ## Words -/

/-- The maximal runs of non-blank characters. -/
def words (s : Str) : List Str := (s.splitOnP isBlank).filter (· ≠ [])

/-- Strings joined by single spaces. -/
def unwords : List Str → Str
  | [] => []
  | [w] => w
  | w :: ws => w ++ ch ' ' :: unwords ws

/-- A word: not empty and without blanks. -/
def IsWord (w : Str) : Prop := w ≠ [] ∧ ∀ c ∈ w, isBlank c = false

theorem isWord_of_all {p : UInt8 → Bool} {w : Str} (hne : w ≠ []) (h : w.all p = true)
    (hp : ∀ c, p c = true → isBlank c = false) : IsWord w :=
  ⟨hne, fun c hc => hp c (List.all_eq_true.1 h c hc)⟩

theorem words_single {w : Str} (h : IsWord w) : words w = [w] := by
  have hs : w.splitOnP isBlank = [w] := List.splitOnP_eq_singleton (by simpa using h.2)
  simp [words, hs, h.1]

/-- Words joined by single spaces split back into themselves. -/
theorem words_unwords : ∀ {ws : List Str}, (∀ w ∈ ws, IsWord w) → words (unwords ws) = ws
  | [], _ => rfl
  | [w], h => words_single (h w (by simp))
  | w :: w' :: ws, h => by
    have ih := @words_unwords (w' :: ws) fun x hx => h x (by simp [hx])
    obtain ⟨hne, hb⟩ := h w (by simp)
    have hs : (w ++ ch ' ' :: unwords (w' :: ws)).splitOnP isBlank =
        w :: (unwords (w' :: ws)).splitOnP isBlank :=
      List.splitOnP_append_cons_of_forall_mem (by simpa using hb) _ (by decide) _
    simp only [words] at ih
    simp only [words, unwords, hs]
    rw [List.filter_cons_of_pos (by simpa using hne), ih]

/-! ## Lists separated by a character that can be escaped -/

/-- The pieces of `s` between the separators that no escape character precedes.
`e` says whether an escape character stands right before `s`. -/
def splitUnescaped (sep esc : UInt8) : Bool → Str → List Str
  | _, [] => [[]]
  | e, c :: cs =>
    if c = sep ∧ e = false then [] :: splitUnescaped sep esc false cs
    else (splitUnescaped sep esc (c = esc) cs).modifyHead (c :: ·)

/-- The character after `pre` is escaped. -/
def EscapedAfter (esc : UInt8) (e : Bool) : Str → Prop
  | [] => e = true
  | c :: cs => (c :: cs).getLast? = some esc

section Split
variable {sep esc : UInt8}

theorem escapedAfter_cons (e : Bool) (c : UInt8) (pre : Str) :
    EscapedAfter esc e (c :: pre) ↔ EscapedAfter esc (c = esc) pre := by
  cases pre <;> simp [EscapedAfter]

theorem splitUnescaped_eq_cons (sep esc : UInt8) (e : Bool) (s : Str) :
    ∃ h t, splitUnescaped sep esc e s = h :: t ∧ (s = h ∨ ∃ r, s = h ++ sep :: r) := by
  induction s generalizing e with
  | nil => exact ⟨[], [], rfl, .inl rfl⟩
  | cons c cs ih =>
    by_cases hc : c = sep ∧ e = false
    · exact ⟨[], _, by simp [splitUnescaped, hc]; rfl, .inr ⟨cs, by simp [hc.1]⟩⟩
    · obtain ⟨h, t, ht, hs⟩ := ih (c = esc)
      refine ⟨c :: h, t, by simp [splitUnescaped, hc, ht], ?_⟩
      rcases hs with rfl | ⟨r, rfl⟩
      · exact .inl rfl
      · exact .inr ⟨r, rfl⟩

/-- Without escape characters, each separator ends a piece. -/
theorem length_splitUnescaped {s : Str} (h : esc ∉ s) :
    (splitUnescaped sep esc false s).length = s.count sep + 1 := by
  induction s with
  | nil => rfl
  | cons c cs ih =>
    obtain ⟨hc, hcs⟩ := List.ne_and_not_mem_of_not_mem_cons h
    by_cases hsep : c = sep
    · simp [splitUnescaped, hsep, ih hcs]
    · simp [splitUnescaped, hsep, Ne.symm hc, ih hcs]

/-- A string without the separator is its only piece. -/
theorem splitUnescaped_single (e : Bool) {s : Str} (h : sep ∉ s) : splitUnescaped sep esc e s = [s] := by
  induction s generalizing e with
  | nil => rfl
  | cons c cs ih =>
    obtain ⟨hc, hcs⟩ := List.ne_and_not_mem_of_not_mem_cons h
    simp [splitUnescaped, Ne.symm hc, ih _ hcs]

/-- A property `P` of a piece that depends only on what stands before the next
separator: it holds of every piece but the first iff it holds after every
unescaped separator. -/
theorem forall_tail_splitUnescaped {P : Str → Prop} (hne : sep ≠ esc)
    (hP : ∀ h r, P h ↔ P (h ++ sep :: r)) (e : Bool) (s : Str) :
    (∀ x ∈ (splitUnescaped sep esc e s).tail, P x) ↔
      ∀ pre post, s = pre ++ sep :: post → ¬ EscapedAfter esc e pre → P post := by
  induction s generalizing e with
  | nil => simp [splitUnescaped]
  | cons c cs ih =>
    by_cases hc : c = sep ∧ e = false
    · obtain ⟨rfl, rfl⟩ := hc
      obtain ⟨h, t, ht, hs⟩ := splitUnescaped_eq_cons c esc false cs
      have hh : P h ↔ P cs := by
        rcases hs with rfl | ⟨r, rfl⟩
        · exact Iff.rfl
        · exact hP h r
      have htail : (∀ x ∈ t, P x) ↔ ∀ pre post, cs = pre ++ c :: post → ¬ EscapedAfter esc false pre → P post := by
        simpa [ht] using ih false
      simp only [splitUnescaped, and_self, if_true, List.tail_cons, ht, List.forall_mem_cons, hh, htail]
      constructor
      · rintro ⟨h0, h1⟩ pre post heq hesc
        rcases pre with _ | ⟨d, pre⟩
        · cases heq; exact h0
        · cases heq
          exact h1 pre post rfl fun he => hesc ((escapedAfter_cons _ _ _).2 (by simpa [hne] using he))
      · intro h1
        refine ⟨h1 [] cs rfl (by simp [EscapedAfter]), fun pre post heq hesc => ?_⟩
        exact h1 (c :: pre) post (by simp [heq]) fun he =>
          hesc (by simpa [hne] using (escapedAfter_cons _ _ _).1 he)
    · have htail : (splitUnescaped sep esc e (c :: cs)).tail = (splitUnescaped sep esc (c = esc) cs).tail := by
        obtain ⟨h, t, ht, -⟩ := splitUnescaped_eq_cons sep esc (c = esc) cs
        simp [splitUnescaped, hc, ht]
      rw [htail, ih]
      constructor
      · intro h1 pre post heq hesc
        rcases pre with _ | ⟨d, pre⟩
        · cases heq
          exact absurd ⟨rfl, by simpa [EscapedAfter] using hesc⟩ hc
        · cases heq
          exact h1 pre post rfl fun he => hesc ((escapedAfter_cons _ _ _).2 he)
      · intro h1 pre post heq hesc
        exact h1 (c :: pre) post (by simp [heq]) fun he => hesc ((escapedAfter_cons _ _ _).1 he)

/-- Every piece has `P` iff `s` has it and so does what follows each unescaped separator. -/
theorem forall_splitUnescaped {P : Str → Prop} (hne : sep ≠ esc) (hP : ∀ h r, P h ↔ P (h ++ sep :: r)) (s : Str) :
    (∀ x ∈ splitUnescaped sep esc false s, P x) ↔
      P s ∧ ∀ pre post, s = pre ++ sep :: post → ¬ EscapedAfter esc false pre → P post := by
  obtain ⟨h, t, ht, hs⟩ := splitUnescaped_eq_cons sep esc false s
  have hh : P h ↔ P s := by
    rcases hs with rfl | ⟨r, rfl⟩
    · exact Iff.rfl
    · exact hP h r
  rw [← forall_tail_splitUnescaped hne hP, ht, List.forall_mem_cons, hh, List.tail_cons]

end Split

/-! ## Lines -/

/-- The lines `getline` reads: a newline ends each, and may be missing after the last. -/
def lines : Str → List Str
  | [] => []
  | c :: cs =>
    if c = ch '\n' then [] :: lines cs
    else match lines cs with
      | [] => [[c]]
      | l :: ls => (c :: l) :: ls

/-- Lines, each ended by a newline. -/
def unlines (ls : List Str) : Str := ls.flatMap (· ++ lit "\n")

theorem newline_notMem_lines {s l : Str} (h : l ∈ lines s) : ch '\n' ∉ l := by
  induction s generalizing l with
  | nil => cases h
  | cons c cs ih =>
    rw [lines] at h
    split at h
    · rcases List.mem_cons.1 h with rfl | h
      · exact List.not_mem_nil
      · exact ih h
    · next hc =>
      have hc : ch '\n' ≠ c := Ne.symm hc
      split at h
      · rcases List.mem_singleton.1 h with rfl
        simpa using hc
      · next l' ls hl =>
        rcases List.mem_cons.1 h with rfl | h
        · simpa [hc] using ih (l := l') (by simp [hl])
        · exact ih (by simp [hl, h])

theorem lines_line {l : Str} (h : ch '\n' ∉ l) (s : Str) : lines (l ++ ch '\n' :: s) = l :: lines s := by
  induction l with
  | nil => simp [lines]
  | cons c l ih =>
    obtain ⟨hc, hl⟩ := List.ne_and_not_mem_of_not_mem_cons h
    simp [lines, Ne.symm hc, ih hl]

/-- Lines joined and read back. -/
theorem lines_unlines {ls : List Str} (h : ∀ l ∈ ls, ch '\n' ∉ l) : lines (unlines ls) = ls := by
  induction ls with
  | nil => rfl
  | cons l ls ih =>
    have hj : unlines (l :: ls) = l ++ ch '\n' :: unlines ls := by simp [unlines, lit]
    rw [hj, lines_line (h l (by simp)), ih fun x hx => h x (by simp [hx])]

theorem length_flatten_lines (s : Str) : (lines s).flatten.length ≤ s.length := by
  induction s with
  | nil => simp [lines]
  | cons c cs ih =>
    rw [lines]
    split
    · simp only [List.flatten_cons, List.nil_append, List.length_cons]
      omega
    · split
      · simp
      · next l ls hl =>
        rw [hl] at ih
        simp only [List.flatten_cons, List.length_append, List.length_cons] at ih ⊢
        omega

/-! ## The text after a marker -/

/-- The text after the first occurrence of `m`. -/
def after (m : Str) : Str → Option Str
  | [] => none
  | c :: cs => if m.isPrefixOf (c :: cs) then some ((c :: cs).drop m.length) else after m cs

/-- A marker whose first character does not occur in `pre` is found right after `pre`. -/
theorem after_append {x : UInt8} {m pre : Str} (h : x ∉ pre) (rest : Str) :
    after (x :: m) (pre ++ (x :: m ++ rest)) = some rest := by
  induction pre with
  | nil => simp [after]
  | cons c cs ih =>
    obtain ⟨hc, hcs⟩ := List.ne_and_not_mem_of_not_mem_cons h
    simp only [List.cons_append] at ih ⊢
    simp [after, hc, ih hcs]

/-! ## Bytes in words -/

/-- A high part shifted over a low part. -/
theorem shiftLeft_or (h : Nat) {l k : Nat} (hl : l < 2 ^ k) : h <<< k ||| l = h * 2 ^ k + l := by
  rw [← Nat.shiftLeft_add_eq_or_of_lt hl, Nat.shiftLeft_eq]


/-- A byte shifted inside a word of 32 bits. -/
theorem toNat_shiftLeft_byte (b : UInt8) {n : UInt32} (hn : n.toNat ≤ 24) : (b.toUInt32 <<< n).toNat = b.toNat <<< n.toNat := by
  have hb : b.toNat < 2 ^ 8 := b.toNat_lt
  rw [UInt32.toNat_shiftLeft, UInt8.toNat_toUInt32, Nat.mod_eq_of_lt (by omega : n.toNat < 32), Nat.shiftLeft_eq]
  apply Nat.mod_eq_of_lt
  calc b.toNat * 2 ^ n.toNat < 2 ^ 8 * 2 ^ n.toNat := Nat.mul_lt_mul_of_pos_right hb (Nat.two_pow_pos _)
    _ ≤ 2 ^ 8 * 2 ^ 24 := Nat.mul_le_mul_left _ (Nat.pow_le_pow_right (by decide) hn)

end McpBridge.Lib
