import McpBridge.Lib.Shell
/-!
# SQL statements on a command line

The tokens of a statement, as far as quoting matters: words, literals that end at
the next single quote, and other characters. A statement is put together from
fixed text and from texts that are meant to be one word or one literal each. It
has the tokens it was meant to have, and reaches the client through double quotes
unchanged, exactly if each of these texts is `Safe`.
-/

namespace McpBridge.Lib.Sql

open Shell (Inert)

inductive Token where
  | word (s : Str)
  | literal (s : Str)
  | symbol (c : UInt8)
deriving DecidableEq

def isIdent (c : UInt8) : Bool := isAlnum c || c = ch '_' || 0x80 ≤ c

def isSpace (c : UInt8) : Bool := c = ch ' ' || (9 ≤ c && c ≤ 13)

/-- One more character in front of the word that it touches, or a new word. -/
def consWord (c : UInt8) (touches : Bool) : List Token → List Token
  | .word w :: ts => if touches then .word (c :: w) :: ts else .word [c] :: .word w :: ts
  | ts => .word [c] :: ts

def consLiteral (c : UInt8) : List Token → Option (List Token)
  | .literal l :: ts => some (.literal (c :: l) :: ts)
  | _ => none

/-- The tokens from here on, within a literal or not. -/
def scan : Bool → Str → Option (List Token)
  | false, [] => some []
  | true, [] => none
  | true, c :: s => if c = ch '\'' then (scan false s).map (.literal [] :: ·) else (scan true s).bind (consLiteral c)
  | false, c :: s =>
    if c = ch '\'' then scan true s
    else if isSpace c then scan false s
    else if isIdent c then (scan false s).map (consWord c (s.head?.any isIdent))
    else (scan false s).map (.symbol c :: ·)

def tokens (s : Str) : Option (List Token) := scan false s

/-! ## Words and literals -/

theorem scan_literal {l : Str} (hl : ch '\'' ∉ l) (s : Str) :
    scan true (l ++ ch '\'' :: s) = (scan false s).map (.literal l :: ·) := by
  induction l with
  | nil => simp [scan]
  | cons c l ih =>
    simp only [List.mem_cons, not_or] at hl
    rw [List.cons_append, scan, if_neg (Ne.symm hl.1), ih hl.2]
    cases scan false s <;> rfl

theorem ident_not_quote {c : UInt8} (h : isIdent c = true) : c ≠ ch '\'' ∧ isSpace c = false := by
  have hall : ∀ n : Fin 256, isIdent (UInt8.ofNat n) = true → UInt8.ofNat n ≠ ch '\'' ∧ isSpace (UInt8.ofNat n) = false := by
    decide +kernel
  have hc := hall ⟨c.toNat, c.toNat_lt⟩
  simp only [UInt8.ofNat_toNat] at hc
  exact hc h

theorem consWord_apart (c : UInt8) (ts : List Token) : consWord c false ts = .word [c] :: ts := by
  unfold consWord
  split <;> rfl

theorem scan_ident {c : UInt8} (hc : isIdent c = true) (s : Str) :
    scan false (c :: s) = (scan false s).map (consWord c (s.head?.any isIdent)) := by
  obtain ⟨hquote, hspace⟩ := ident_not_quote hc
  rw [scan, if_neg hquote, if_neg (by simp [hspace]), if_pos hc]

theorem scan_word {w : Str} (hne : w ≠ []) (hw : ∀ c ∈ w, isIdent c = true) {s : Str} (hs : s.head?.any isIdent = false) :
    scan false (w ++ s) = (scan false s).map (.word w :: ·) := by
  induction w with
  | nil => exact absurd rfl hne
  | cons c w ih =>
    rw [List.cons_append, scan_ident (hw c (by simp))]
    cases w with
    | nil =>
      rw [List.nil_append, hs]
      congr 1
      exact funext (consWord_apart c)
    | cons d w =>
      have hd := hw d (by simp)
      rw [ih (by simp) fun e he => hw e (by simp [he]), Option.map_map]
      simp [Function.comp_def, consWord, hd]

theorem consWord_append {c : UInt8} {touches : Bool} {ts : List Token} (h : touches = true → ts ≠ []) (us : List Token) :
    consWord c touches (ts ++ us) = consWord c touches ts ++ us := by
  cases touches with
  | false => rw [consWord_apart, consWord_apart, List.cons_append]
  | true =>
    cases ts with
    | nil => exact absurd rfl (h rfl)
    | cons t ts => cases t <;> rfl

theorem consWord_ne_nil (c : UInt8) (touches : Bool) (ts : List Token) : consWord c touches ts ≠ [] := by
  unfold consWord
  repeat' split
  all_goals nofun

theorem scan_ne_nil {s : Str} {ts : List Token} (hs : s.head?.any isIdent = true) (h : scan false s = some ts) : ts ≠ [] := by
  cases s with
  | nil => cases hs
  | cons c s =>
    rw [scan_ident hs] at h
    obtain ⟨us, -, rfl⟩ := Option.map_eq_some_iff.1 h
    exact consWord_ne_nil _ _ _

theorem consLiteral_append {c : UInt8} {ts us : List Token} (h : consLiteral c ts = some us) (vs : List Token) :
    consLiteral c (ts ++ vs) = some (us ++ vs) := by
  unfold consLiteral at h
  split at h
  · cases h
    rfl
  · cases h

/-- A word does not go on from one text to the next. -/
def Apart (p s : Str) : Prop := p.getLast?.any isIdent = false ∨ s.head?.any isIdent = false

theorem Apart.tail {c : UInt8} {p s : Str} (h : Apart (c :: p) s) (hp : p ≠ []) : Apart p s := by
  obtain ⟨d, p, rfl⟩ := List.exists_cons_of_ne_nil hp
  exact h

/-- The tokens of two texts. -/
theorem scan_append {p s : Str} (b : Bool) {ts : List Token} (hsep : Apart p s) (h : scan b p = some ts) :
    scan b (p ++ s) = (scan false s).map (ts ++ ·) := by
  induction p generalizing b ts with
  | nil =>
    cases b with
    | true => cases h
    | false =>
      cases h
      simp
  | cons c p ih =>
    have hrest : ∀ b us, scan b p = some us → scan b (p ++ s) = (scan false s).map (us ++ ·) := by
      intro b us hus
      by_cases hp : p = []
      · subst hp
        cases b with
        | true => cases hus
        | false =>
          cases hus
          simp
      · exact ih b (hsep.tail hp) hus
    cases b with
    | true =>
      simp only [List.cons_append, scan] at h ⊢
      split at h
      · next hc =>
        obtain ⟨us, hus, rfl⟩ := Option.map_eq_some_iff.1 h
        rw [if_pos hc, hrest false us hus, Option.map_map]
        rfl
      · next hc =>
        obtain ⟨us, hus, hcons⟩ := Option.bind_eq_some_iff.1 h
        rw [if_neg hc, hrest true us hus]
        cases scan false s with
        | none => rfl
        | some vs => exact consLiteral_append hcons vs
    | false =>
      simp only [List.cons_append, scan] at h ⊢
      split at h
      · next hc => rw [if_pos hc, hrest true ts h]
      next hc =>
      rw [if_neg hc]
      split at h
      · next hs => rw [if_pos hs, hrest false ts h]
      next hs =>
      rw [if_neg hs]
      split at h
      · next hi =>
        obtain ⟨us, hus, rfl⟩ := Option.map_eq_some_iff.1 h
        rw [if_pos hi, hrest false us hus, Option.map_map]
        congr 1
        funext vs
        by_cases hp : p = []
        · subst hp
          cases hus
          have hs : s.head?.any isIdent = false := by
            rcases hsep with hsep | hsep
            · rw [List.getLast?_singleton, Option.any_some, hi] at hsep
              cases hsep
            · exact hsep
          rw [List.nil_append, Function.comp_apply, hs, consWord_apart]
          rfl
        · rw [Function.comp_apply, List.head?_append_of_ne_nil _ hp]
          exact consWord_append (fun ht => scan_ne_nil ht hus) vs
      · next hi =>
        obtain ⟨us, hus, rfl⟩ := Option.map_eq_some_iff.1 h
        rw [if_neg hi, hrest false us hus, Option.map_map]
        rfl

/-- A word token is a word, and a literal has no quote. -/
def Token.Wf : Token → Prop
  | .word w => w ≠ [] ∧ ∀ c ∈ w, isIdent c = true
  | .literal l => ch '\'' ∉ l
  | .symbol _ => True

theorem consWord_wf {c : UInt8} (hc : isIdent c = true) (touches : Bool) {ts : List Token} (h : ∀ t ∈ ts, t.Wf) :
    ∀ t ∈ consWord c touches ts, t.Wf := by
  have hone : Token.Wf (.word [c]) := ⟨by simp, by simpa using hc⟩
  unfold consWord
  split
  · next w ts =>
    have hw := h (.word w) (by simp)
    have hts : ∀ t ∈ ts, t.Wf := fun t ht => h t (by simp [ht])
    split
    · have hcw : Token.Wf (.word (c :: w)) := ⟨by simp, by simpa [hc] using hw.2⟩
      simpa [hcw] using hts
    · simpa [hone, hw] using hts
  · simpa [hone] using h

/-- Every token is well formed. -/
theorem scan_wf {b : Bool} {s : Str} {ts : List Token} (h : scan b s = some ts) : ∀ t ∈ ts, t.Wf := by
  induction s generalizing b ts with
  | nil =>
    cases b <;> cases h
    simp
  | cons c s ih =>
    cases b with
    | true =>
      simp only [scan] at h
      split at h
      · obtain ⟨us, hus, rfl⟩ := Option.map_eq_some_iff.1 h
        have hnil : Token.Wf (.literal []) := by simp [Token.Wf]
        simpa [hnil] using ih hus
      · next hc =>
        obtain ⟨us, hus, hcons⟩ := Option.bind_eq_some_iff.1 h
        have hwf := ih hus
        unfold consLiteral at hcons
        split at hcons
        · next l vs =>
          cases hcons
          have hl : Token.Wf (.literal l) := hwf _ (by simp)
          have hcl : Token.Wf (.literal (c :: l)) := by simpa [Token.Wf, Ne.symm hc] using hl
          have hvs : ∀ t ∈ vs, t.Wf := fun t ht => hwf t (by simp [ht])
          simpa [hcl] using hvs
        · cases hcons
    | false =>
      simp only [scan] at h
      split at h
      · exact ih h
      split at h
      · exact ih h
      split at h
      · next hi =>
        obtain ⟨us, hus, rfl⟩ := Option.map_eq_some_iff.1 h
        exact consWord_wf hi _ (ih hus)
      · obtain ⟨us, hus, rfl⟩ := Option.map_eq_some_iff.1 h
        have hsymbol : Token.Wf (.symbol c) := trivial
        simpa [hsymbol] using ih hus

/-! ## Statements -/

/-- A part of a statement: fixed text, or a text that is meant to be one word or one literal. -/
inductive Piece where
  | fixed (s : Str)
  | word (w : Str)
  | literal (l : Str)

def Piece.text : Piece → Str
  | .fixed s => s
  | .word w => w
  | .literal l => ch '\'' :: (l ++ [ch '\''])

def Piece.tokens : Piece → List Token
  | .fixed s => (Sql.tokens s).getD []
  | .word w => [.word w]
  | .literal l => [.literal l]

def statement (ps : List Piece) : Str := ps.flatMap Piece.text

/-- The tokens a statement is meant to have. -/
def meant (ps : List Piece) : List Token := ps.flatMap Piece.tokens

def Piece.Safe : Piece → Prop
  | .fixed _ => True
  | .word w => w ≠ [] ∧ ∀ c ∈ w, isIdent c = true
  | .literal l => ch '\'' ∉ l ∧ Inert l

/-- Fixed text that has tokens of its own and stands for itself within double quotes. -/
structure FixedText (s : Str) : Prop where
  tokens : (Sql.tokens s).isSome = true
  inert : ∀ c ∈ s, c ≠ ch '"' ∧ Shell.isActive c = false ∧ c ≠ ch '\\' ∧ c ≠ ch '\n'

def Piece.opensApart : Piece → Bool
  | .fixed s => s.head?.any (!isIdent ·)
  | .word _ => false
  | .literal _ => true

def Piece.closesApart : Piece → Bool
  | .fixed s => s.getLast?.any (!isIdent ·)
  | .word _ => false
  | .literal _ => true

/-- No word goes on from one part to the next. -/
def separated : List Piece → Bool
  | p :: q :: ps => (p.closesApart || q.opensApart) && separated (q :: ps)
  | _ => true

structure Template (ps : List Piece) : Prop where
  fixed : ∀ s, .fixed s ∈ ps → FixedText s
  separated : separated ps = true

theorem Template.tail {p : Piece} {ps : List Piece} (h : Template (p :: ps)) : Template ps where
  fixed s hs := h.fixed s (by simp [hs])
  separated := by
    cases ps with
    | nil => rfl
    | cons q ps =>
      have hsep := h.separated
      simp only [Sql.separated, Bool.and_eq_true] at hsep
      exact hsep.2

/-- Text that stands for itself within double quotes, after a backslash also. -/
def Settled (s : Str) : Prop := Inert s ∧ ∀ c, s.head? = some c → c ≠ ch '\\' ∧ c ≠ ch '\n'

theorem settled_of_all {s : Str} (h : ∀ c ∈ s, c ≠ ch '"' ∧ Shell.isActive c = false ∧ c ≠ ch '\\' ∧ c ≠ ch '\n') : Settled s := by
  induction s with
  | nil => exact ⟨⟨by simp, by simp, .nil⟩, nofun⟩
  | cons c s ih =>
    obtain ⟨hquote, hactive, hesc, hnl⟩ := h c (by simp)
    refine ⟨(ih fun d hd => h d (by simp [hd])).1.cons hquote hactive fun hc => absurd hc hesc, ?_⟩
    rintro d ⟨⟩
    exact ⟨hesc, hnl⟩

theorem Settled.append {s t : Str} (hs : Inert s) (ht : Settled t) : Inert (s ++ t) where
  quote hm := by
    rcases List.mem_append.1 hm with hm | hm
    · exact hs.quote hm
    · exact ht.1.quote hm
  active c hc := by
    rcases List.mem_append.1 hc with hc | hc
    · exact hs.active c hc
    · exact ht.1.active c hc
  escapes := List.isChain_append.2 ⟨hs.escapes, ht.1.escapes, fun _ _ d hd _ => ht.2 d hd⟩

theorem ident_settled {c : UInt8} (h : isIdent c = true) : c ≠ ch '"' ∧ Shell.isActive c = false ∧ c ≠ ch '\\' ∧ c ≠ ch '\n' := by
  have hall : ∀ n : Fin 256, isIdent (UInt8.ofNat n) = true → UInt8.ofNat n ≠ ch '"' ∧ Shell.isActive (UInt8.ofNat n) = false ∧
      UInt8.ofNat n ≠ ch '\\' ∧ UInt8.ofNat n ≠ ch '\n' := by
    decide +kernel
  have hc := hall ⟨c.toNat, c.toNat_lt⟩
  simp only [UInt8.ofNat_toNat] at hc
  exact hc h

theorem statement_settled {ps : List Piece} (ht : Template ps) (hs : ∀ p ∈ ps, p.Safe) : Settled (statement ps) := by
  induction ps with
  | nil => exact ⟨⟨by simp [statement], by simp [statement], .nil⟩, nofun⟩
  | cons p ps ih =>
    have hrest := ih ht.tail fun q hq => hs q (by simp [hq])
    have hp := hs p (by simp)
    have hquote : Settled [ch '\''] := settled_of_all (List.forall_mem_singleton.2 (by decide))
    have hsafe : Settled p.text := by
      cases p with
      | fixed s => exact settled_of_all (ht.fixed s (by simp)).inert
      | word w => exact settled_of_all fun c hc => ident_settled (hp.2 c hc)
      | literal l =>
        have hl : Inert (l ++ [ch '\'']) := Settled.append hp.2 hquote
        refine ⟨hl.cons (by decide) (by decide) fun hc => absurd hc (by decide), ?_⟩
        rintro d ⟨⟩
        decide
    refine ⟨Settled.append hsafe.1 hrest, ?_⟩
    intro c hc
    cases htext : p.text with
    | nil =>
      rw [statement, List.flatMap_cons, htext] at hc
      exact hrest.2 c hc
    | cons d s =>
      rw [statement, List.flatMap_cons, htext] at hc
      exact hsafe.2 c (by rw [htext]; exact hc)

theorem piece_tokens {p : Piece} (hf : ∀ s, p = .fixed s → FixedText s) (hp : p.Safe) : scan false p.text = some p.tokens := by
  cases p with
  | fixed s =>
    obtain ⟨ts, hts⟩ := Option.isSome_iff_exists.1 (hf s rfl).tokens
    simp only [Piece.text, Piece.tokens, hts, Option.getD_some]
    exact hts
  | word w =>
    have hw := scan_word hp.1 hp.2 (s := []) rfl
    rw [List.append_nil] at hw
    exact hw
  | literal l =>
    rw [Piece.text, scan, if_pos rfl, scan_literal hp.1]
    rfl

theorem apart_of_closes {p : Piece} (h : p.closesApart = true) (s : Str) : Apart p.text s := by
  left
  cases p with
  | fixed t =>
    cases hlast : t.getLast? with
    | none => simp [Piece.text, hlast]
    | some c => simpa [Piece.closesApart, Piece.text, hlast] using h
  | word w => cases h
  | literal l =>
    have hlast : (ch '\'' :: (l ++ [ch '\''])).getLast? = some (ch '\'') := by
      rw [← List.cons_append, List.getLast?_append]
      rfl
    rw [Piece.text, hlast]
    decide

theorem apart_of_opens {q : Piece} (h : q.opensApart = true) (p : Str) (s : Str) : Apart p (q.text ++ s) := by
  right
  cases q with
  | fixed t =>
    cases t with
    | nil => cases h
    | cons c t => simpa [Piece.opensApart, Piece.text] using h
  | word w => cases h
  | literal l =>
    simp only [Piece.text, List.cons_append, List.head?_cons, Option.any_some]
    decide

theorem statement_tokens {ps : List Piece} (ht : Template ps) (hs : ∀ p ∈ ps, p.Safe) :
    tokens (statement ps) = some (meant ps) := by
  induction ps with
  | nil => rfl
  | cons p ps ih =>
    have hrest := ih ht.tail fun q hq => hs q (by simp [hq])
    have hp := piece_tokens (fun s hs => ht.fixed s (by simp [hs])) (hs p (by simp))
    have hapart : Apart p.text (statement ps) := by
      cases ps with
      | nil => exact .inr rfl
      | cons q ps =>
        have hsep := ht.separated
        simp only [separated, Bool.and_eq_true, Bool.or_eq_true] at hsep
        rcases hsep.1 with hclose | hopen
        · exact apart_of_closes hclose _
        · exact apart_of_opens hopen p.text (statement ps)
    have happend := scan_append false hapart hp
    rw [tokens] at hrest
    rw [hrest] at happend
    exact happend

/-- A statement arrives as it was meant exactly if each of the texts in it is safe. -/
theorem statement_iff {ps : List Piece} (ht : Template ps) :
    Inert (statement ps) ∧ tokens (statement ps) = some (meant ps) ↔ ∀ p ∈ ps, p.Safe := by
  constructor
  · rintro ⟨hinert, htokens⟩ p hp
    have hwf : ∀ t ∈ p.tokens, t.Wf := fun t hmem => scan_wf htokens t (List.mem_flatMap.2 ⟨p, hp, hmem⟩)
    cases p with
    | fixed s => trivial
    | word w => exact hwf (.word w) (by simp [Piece.tokens])
    | literal l =>
      refine ⟨hwf (.literal l) (by simp [Piece.tokens]), ?_⟩
      obtain ⟨as, bs, rfl⟩ := List.append_of_mem hp
      refine Inert.of_append (a := statement as ++ [ch '\'']) (b := ch '\'' :: statement bs) ?_
      simpa [statement, Piece.text] using hinert
  · intro hs
    exact ⟨(statement_settled ht hs).1, statement_tokens ht hs⟩

/-- A statement ends as its last fixed text does. -/
theorem statement_last {ps : List Piece} {t : Str} (h : ps.getLast? = some (.fixed t)) (ht : t ≠ []) :
    (statement ps).getLast? = t.getLast? := by
  obtain ⟨qs, rfl⟩ := List.getLast?_eq_some_iff.1 h
  rw [statement, List.flatMap_append, List.flatMap_singleton, Piece.text, List.getLast?_append_of_ne_nil _ ht]

end McpBridge.Lib.Sql
