import McpBridge.Lib.ShellLine
/-!
# The decoder of the helper (`priv/main.c`)

The helper decodes base64 into a buffer. The decoder is a machine with the
memory of the C function: four `int`s, of which some may not be set yet, and the
buffer. Every access is checked, and where one fails there is no result.

`decoded` is what a text stands for. Whatever the text and the buffer, no access
fails, and the decoder returns the length of what the text stands for, or -1 where
it stands for nothing or for more than the buffer holds.
-/

open McpBridge.Lib
open McpBridge.Lib.Shell (cString)

namespace McpBridge.Priv

/-! ## The decoder -/

def b64Val (c : UInt8) : Int :=
  if ch 'A' ≤ c ∧ c ≤ ch 'Z' then (c - ch 'A').toNat
  else if ch 'a' ≤ c ∧ c ≤ ch 'z' then (c - ch 'a').toNat + 26
  else if ch '0' ≤ c ∧ c ≤ ch '9' then (c - ch '0').toNat + 52
  else if c = ch '+' then 62
  else if c = ch '/' then 63
  else -1

/-- The variables of `base64Decode`. An entry of `quad` is `none` until it is set. -/
structure Decoder where
  quad : List (Option Int)
  q : Nat
  dst : Str
  out : Nat

/-- How a turn of the loop ends. -/
inductive Flow where
  | next
  | stop
  | fail
deriving DecidableEq

namespace Decoder

/-- Reads `quad[i]`. -/
def quadAt (d : Decoder) (i : Nat) : Option Int := (d.quad[i]?).join

/-- `quad[q++] = v` -/
def push (d : Decoder) (v : Int) : Option Decoder :=
  if d.q < d.quad.length then some { d with quad := d.quad.set d.q (some v), q := d.q + 1 } else none

/-- `dst[out++] = (unsigned char)b` -/
def store (d : Decoder) (b : Nat) : Option Decoder :=
  if d.out < d.dst.length then some { d with dst := d.dst.set d.out b.toUInt8, out := d.out + 1 } else none

/-- Stores a byte if there is room for it, and goes on. -/
def emit (d : Decoder) (b : Nat) (go : Decoder → Option (Flow × Decoder)) : Option (Flow × Decoder) :=
  if d.dst.length < d.out + 1 then some (.fail, d) else (d.store b).bind go

/-- The block that runs when `q` is 4, from `quad[3]` on. -/
def third (q2 : Int) (d : Decoder) : Option (Flow × Decoder) := do
  let q3 ← d.quadAt 3
  if q3 = -2 then some (.stop, { d with q := 0 })
  else if q3 < 0 then some (.fail, d)
  else d.emit (((q2.toNat &&& 0x03) <<< 6) ||| q3.toNat) fun d => some (.next, { d with q := 0 })

/-- The block from `quad[2]` on. -/
def second (q1 : Int) (d : Decoder) : Option (Flow × Decoder) := do
  let q2 ← d.quadAt 2
  if q2 = -2 then some (.stop, { d with q := 0 })
  else if q2 < 0 then some (.fail, d)
  else d.emit (((q1.toNat &&& 0x0f) <<< 4) ||| (q2.toNat >>> 2)) (third q2)

def quartet (d : Decoder) : Option (Flow × Decoder) := do
  let q0 ← d.quadAt 0
  if q0 < 0 then some (.fail, d) else do
  let q1 ← d.quadAt 1
  if q1 < 0 then some (.fail, d) else d.emit ((q0.toNat <<< 2) ||| (q1.toNat >>> 4)) (second q1)

/-- A turn of the loop for a character other than the terminator. -/
def turn (d : Decoder) (c : UInt8) : Option (Flow × Decoder) :=
  if c = ch '\n' ∨ c = ch '\r' ∨ c = ch ' ' ∨ c = ch '\t' then some (.next, d)
  else if c ≠ ch '=' ∧ b64Val c < 0 then some (.fail, d)
  else (d.push (if c = ch '=' then -2 else b64Val c)).bind fun d => if d.q = 4 then d.quartet else some (.next, d)

end Decoder

/-- The loop over the characters, up to the terminator. -/
def decodeLoop : Str → Decoder → Option (Flow × Decoder)
  | [], d => some (.stop, d)
  | c :: cs, d =>
    if c = 0 then some (.stop, d)
    else (d.turn c).bind fun (flow, d) => if flow = .next then decodeLoop cs d else some (flow, d)

/-- The return value and the buffer afterwards; `dst` is all of the buffer. -/
def base64Decode (inp dst : Str) : Option (Int × Str) :=
  (decodeLoop inp ⟨[none, none, none, none], 0, dst, 0⟩).map fun (flow, d) =>
    if flow = .fail ∨ d.q ≠ 0 then (-1, d.dst) else (d.out, d.dst)

/-! ## Characters -/

/-- The value a character leaves in `quad`. -/
def symbolVal (c : UInt8) : Int := if c = ch '=' then -2 else b64Val c

/-- A character that is neither skipped nor refused. -/
def IsSymbol (c : UInt8) : Prop :=
  c ≠ 0 ∧ ¬ (c = ch '\n' ∨ c = ch '\r' ∨ c = ch ' ' ∨ c = ch '\t') ∧ ¬ (c ≠ ch '=' ∧ b64Val c < 0)

instance (c : UInt8) : Decidable (IsSymbol c) := inferInstanceAs (Decidable (_ ∧ _ ∧ _))

/-- A letter, a digit, `+` or `/`. -/
def isBase64Char (c : UInt8) : Bool := isAlnum c || c = ch '+' || c = ch '/'

/-- White space, which is skipped. -/
def isWhite (c : UInt8) : Bool := c = ch '\n' || c = ch '\r' || c = ch ' ' || c = ch '\t'

/-- A text up to its terminator, without white space. -/
def nonblank (inp : Str) : Str := (cString inp).filter (!isWhite ·)

/-- The six bits of a character. -/
def sextet (c : UInt8) : Nat := (b64Val c).toNat

theorem b64Val_table (c : UInt8) : (isBase64Char c = true → 0 ≤ b64Val c ∧ sextet c < 64 ∧ c ≠ ch '=') ∧
    (isBase64Char c = false → b64Val c < 0) := by
  have hall : ((List.range 256).all fun n =>
      if isBase64Char (UInt8.ofNat n) then
        decide (0 ≤ b64Val (UInt8.ofNat n)) && decide (sextet (UInt8.ofNat n) < 64) && decide (UInt8.ofNat n ≠ ch '=')
      else decide (b64Val (UInt8.ofNat n) < 0)) = true := by decide +kernel
  have hc := List.all_eq_true.1 hall c.toNat (List.mem_range.2 c.toNat_lt)
  rw [UInt8.ofNat_toNat] at hc
  constructor
  · intro h
    simpa [h, and_assoc] using hc
  · intro h
    simpa [h] using hc

theorem ne_pad_of_char {c : UInt8} (h : isBase64Char c = true) : c ≠ ch '=' := ((b64Val_table c).1 h).2.2

theorem symbolVal_char {c : UInt8} (h : isBase64Char c = true) : symbolVal c = sextet c ∧ sextet c < 64 := by
  obtain ⟨hval, hlt, hne⟩ := (b64Val_table c).1 h
  refine ⟨?_, hlt⟩
  rw [symbolVal, if_neg hne, sextet, Int.toNat_of_nonneg hval]

theorem symbol_cases {c : UInt8} (h : IsSymbol c) : isBase64Char c = true ∨ c = ch '=' := by
  by_contra hno
  obtain ⟨hchar, hne⟩ := not_or.1 hno
  exact h.2.2 ⟨hne, (b64Val_table c).2 (Bool.not_eq_true _ ▸ hchar)⟩

/-! ## What a text stands for -/

def firstByte (a b : UInt8) : UInt8 := (sextet a * 4 + sextet b / 16).toUInt8

def secondByte (b c : UInt8) : UInt8 := (sextet b % 16 * 16 + sextet c / 4).toUInt8

def thirdByte (c d : UInt8) : UInt8 := (sextet c % 4 * 64 + sextet d).toUInt8

/-- Groups of four characters, up to one that is padded. What follows that one does
not matter. Its last character may be any symbol if the one before is `=`. -/
def decoded : Str → Option Str
  | [] => some []
  | a :: b :: c :: d :: t =>
    if isBase64Char a && isBase64Char b then
      if c = ch '=' then if isBase64Char d || d = ch '=' then some [firstByte a b] else none
      else if !isBase64Char c then none
      else if d = ch '=' then some [firstByte a b, secondByte b c]
      else if !isBase64Char d then none
      else (decoded t).map ([firstByte a b, secondByte b c, thirdByte c d] ++ ·)
    else none
  | _ => none

section
variable {a b c d : UInt8} (t : Str)

theorem decoded_pad2 (ha : isBase64Char a = true) (hb : isBase64Char b = true) (hd : IsSymbol d) :
    decoded (a :: b :: ch '=' :: d :: t) = some [firstByte a b] := by
  have hlast : (isBase64Char d || d = ch '=') = true := by
    rcases symbol_cases hd with hd | rfl
    · simp [hd]
    · rfl
  simp only [decoded, ha, hb, Bool.and_self, if_true, hlast]

theorem decoded_pad1 (ha : isBase64Char a = true) (hb : isBase64Char b = true) (hc : isBase64Char c = true) :
    decoded (a :: b :: c :: ch '=' :: t) = some [firstByte a b, secondByte b c] := by
  simp [decoded, ha, hb, hc, ne_pad_of_char hc]

theorem decoded_full (ha : isBase64Char a = true) (hb : isBase64Char b = true) (hc : isBase64Char c = true)
    (hd : isBase64Char d = true) :
    decoded (a :: b :: c :: d :: t) = (decoded t).map ([firstByte a b, secondByte b c, thirdByte c d] ++ ·) := by
  simp [decoded, ha, hb, hc, hd, ne_pad_of_char hc, ne_pad_of_char hd]

theorem decoded_short {t : Str} (hpos : 0 < t.length) (hfew : t.length < 4) : decoded t = none := by
  match t, hpos, hfew with
  | [_], _, _ => rfl
  | [_, _], _, _ => rfl
  | [_, _, _], _, _ => rfl

/-- A text with a character of no use among the next four stands for nothing. -/
theorem decoded_bad {pend : Str} (hfew : pend.length < 4) (hbad : isBase64Char c = false) (hne : c ≠ ch '=') :
    decoded (pend ++ c :: t) = none := by
  match pend, hfew with
  | [], _ => rcases t with _ | ⟨_, _ | ⟨_, _ | ⟨_, t⟩⟩⟩ <;> simp [decoded, hbad]
  | [_], _ => rcases t with _ | ⟨_, _ | ⟨_, t⟩⟩ <;> simp [decoded, hbad]
  | [_, _], _ => rcases t with _ | ⟨_, t⟩ <;> simp [decoded, hbad, hne]
  | [_, _, _], _ => simp [decoded, hbad, hne]

end

/-! ## A group of four characters -/

theorem firstByte_eq (a : UInt8) {b : UInt8} (hb : sextet b < 64) :
    (sextet a <<< 2 ||| sextet b >>> 4).toUInt8 = firstByte a b := by
  rw [Nat.shiftRight_eq_div_pow, shiftLeft_or _ (by omega)]
  rfl

theorem secondByte_eq (b : UInt8) {c : UInt8} (hc : sextet c < 64) :
    ((sextet b &&& 0x0f) <<< 4 ||| sextet c >>> 2).toUInt8 = secondByte b c := by
  rw [Nat.and_two_pow_sub_one_eq_mod _ 4, Nat.shiftRight_eq_div_pow, shiftLeft_or _ (by omega)]
  rfl

theorem thirdByte_eq (c : UInt8) {d : UInt8} (hd : sextet d < 64) :
    ((sextet c &&& 0x03) <<< 6 ||| sextet d).toUInt8 = thirdByte c d := by
  rw [Nat.and_two_pow_sub_one_eq_mod _ 2, shiftLeft_or _ hd]
  rfl

namespace Decoder

theorem turn_symbol {d : Decoder} {c : UInt8} (hc : IsSymbol c) (hq : d.q < d.quad.length) :
    d.turn c =
      let d : Decoder := { d with quad := d.quad.set d.q (some (symbolVal c)), q := d.q + 1 }
      if d.q = 4 then d.quartet else some (.next, d) := by
  obtain ⟨-, hblank, hval⟩ := hc
  unfold turn push
  rw [if_neg hblank, if_neg hval, if_pos hq]
  rfl

theorem emit_room {quad : List (Option Int)} {q : Nat} (pre : Str) {post : Str} {y : UInt8} (b : Nat)
    (go : Decoder → Option (Flow × Decoder)) :
    emit ⟨quad, q, pre ++ y :: post, pre.length⟩ b go = go ⟨quad, q, pre ++ [b.toUInt8] ++ post, (pre ++ [b.toUInt8]).length⟩ := by
  have hroom : ¬ (pre ++ y :: post).length < pre.length + 1 := by simp
  have hlt : pre.length < (pre ++ y :: post).length := by simp
  unfold emit store
  rw [if_neg hroom, if_pos hlt, Option.bind_some, List.set_append_right _ _ (Nat.le_refl _), Nat.sub_self, List.set_cons_zero]
  simp

theorem emit_full {quad : List (Option Int)} {q : Nat} (pre : Str) (b : Nat) (go : Decoder → Option (Flow × Decoder)) :
    emit ⟨quad, q, pre ++ [], pre.length⟩ b go = some (.fail, ⟨quad, q, pre ++ [], pre.length⟩) := by
  unfold emit
  exact if_pos (by simp)

variable {x0 x1 x2 x3 : Option Int} {q : Nat} {dst : Str} {out : Nat}

theorem third_pad (q2 : Int) :
    third q2 ⟨[x0, x1, x2, some (-2)], q, dst, out⟩ = some (.stop, ⟨[x0, x1, x2, some (-2)], 0, dst, out⟩) :=
  rfl

theorem third_val (v2 v3 : Nat) :
    third v2 ⟨[x0, x1, x2, some v3], q, dst, out⟩ =
      emit ⟨[x0, x1, x2, some v3], q, dst, out⟩ (((v2 &&& 0x03) <<< 6) ||| v3) fun d => some (.next, { d with q := 0 }) := by
  have hpad : ¬ (v3 : Int) = -2 := by omega
  have hval : ¬ (v3 : Int) < 0 := by omega
  simp only [third, quadAt, List.getElem?_cons_succ, List.getElem?_cons_zero, Option.join_some, Option.bind_eq_bind,
    Option.bind_some, if_neg hpad, if_neg hval, Int.toNat_natCast]

theorem second_pad (q1 : Int) :
    second q1 ⟨[x0, x1, some (-2), x3], q, dst, out⟩ = some (.stop, ⟨[x0, x1, some (-2), x3], 0, dst, out⟩) :=
  rfl

theorem second_val (v1 v2 : Nat) :
    second v1 ⟨[x0, x1, some v2, x3], q, dst, out⟩ =
      emit ⟨[x0, x1, some v2, x3], q, dst, out⟩ (((v1 &&& 0x0f) <<< 4) ||| (v2 >>> 2)) (third v2) := by
  have hpad : ¬ (v2 : Int) = -2 := by omega
  have hval : ¬ (v2 : Int) < 0 := by omega
  simp only [second, quadAt, List.getElem?_cons_succ, List.getElem?_cons_zero, Option.join_some, Option.bind_eq_bind,
    Option.bind_some, if_neg hpad, if_neg hval, Int.toNat_natCast]

theorem quartet_val (v0 v1 : Nat) :
    quartet ⟨[some v0, some v1, x2, x3], q, dst, out⟩ =
      emit ⟨[some v0, some v1, x2, x3], q, dst, out⟩ ((v0 <<< 2) ||| (v1 >>> 4)) (second v1) := by
  have h0 : ¬ (v0 : Int) < 0 := by omega
  have h1 : ¬ (v1 : Int) < 0 := by omega
  simp only [quartet, quadAt, List.getElem?_cons_succ, List.getElem?_cons_zero, Option.join_some, Option.bind_eq_bind,
    Option.bind_some, if_neg h0, if_neg h1, Int.toNat_natCast]

end Decoder

/-! ## Runs -/

/-- How a run on `t` ends that starts with `pre` written and room for as much as `post`. -/
inductive Ends (t pre post : Str) : Flow → Decoder → Prop where
  | accepted {flow : Flow} {bytes : Str} (quad : List (Option Int)) (hflow : flow ≠ .fail) (hbytes : decoded t = some bytes)
      (hroom : bytes.length ≤ post.length) :
      Ends t pre post flow ⟨quad, 0, pre ++ bytes ++ post.drop bytes.length, (pre ++ bytes).length⟩
  | refused {flow : Flow} {d : Decoder} (hflow : flow = .fail ∨ d.q ≠ 0)
      (hbytes : ∀ bytes, decoded t = some bytes → post.length < bytes.length) (hdst : d.dst.length = (pre ++ post).length)
      (hout : 4 * d.out ≤ 4 * pre.length + 3 * t.length) : Ends t pre post flow d

namespace Decoder

/-- The decoder when its quartet is full. -/
def filled (a b c d : UInt8) (pre post : Str) : Decoder :=
  ⟨[some (symbolVal a), some (symbolVal b), some (symbolVal c), some (symbolVal d)], 4, pre ++ post, pre.length⟩

variable {a b c d : UInt8} (pre post t : Str)

theorem quartet_pad (h : a = ch '=' ∨ b = ch '=') (ha : IsSymbol a) :
    (filled a b c d pre post).quartet = some (.fail, filled a b c d pre post) ∧ decoded (a :: b :: c :: d :: t) = none := by
  have hpadChar : isBase64Char (ch '=') = false := by decide
  rcases symbol_cases ha with hchar | rfl
  · obtain rfl := h.resolve_left (ne_pad_of_char hchar)
    obtain ⟨hval, -⟩ := symbolVal_char hchar
    have hpad : symbolVal (ch '=') = -2 := rfl
    refine ⟨?_, by simp [decoded, hpadChar]⟩
    simp [quartet, quadAt, filled, hval, hpad]
  · exact ⟨rfl, by simp [decoded, hpadChar]⟩

theorem quartet_pad2 (ha : isBase64Char a = true) (hb : isBase64Char b = true) (hd : IsSymbol d) :
    ∃ flow e, (filled a b (ch '=') d pre post).quartet = some (flow, e) ∧ flow ≠ .next ∧
      Ends (a :: b :: ch '=' :: d :: t) pre post flow e := by
  obtain ⟨hva, -⟩ := symbolVal_char ha
  obtain ⟨hvb, hlb⟩ := symbolVal_char hb
  have hpad : symbolVal (ch '=') = -2 := rfl
  have hdec := decoded_pad2 t ha hb hd
  rw [filled, hva, hvb, hpad, quartet_val]
  rcases post with _ | ⟨x, post⟩
  · rw [emit_full]
    refine ⟨.fail, _, rfl, by decide, .refused (.inl rfl) ?_ rfl (by simp)⟩
    simp [hdec]
  · rw [emit_room, second_pad, firstByte_eq a hlb]
    exact ⟨.stop, _, rfl, by decide, .accepted _ (by decide) hdec (by simp)⟩

theorem quartet_pad1 (ha : isBase64Char a = true) (hb : isBase64Char b = true) (hc : isBase64Char c = true) :
    ∃ flow e, (filled a b c (ch '=') pre post).quartet = some (flow, e) ∧ flow ≠ .next ∧
      Ends (a :: b :: c :: ch '=' :: t) pre post flow e := by
  obtain ⟨hva, -⟩ := symbolVal_char ha
  obtain ⟨hvb, hlb⟩ := symbolVal_char hb
  obtain ⟨hvc, hlc⟩ := symbolVal_char hc
  have hpad : symbolVal (ch '=') = -2 := rfl
  have hdec := decoded_pad1 t ha hb hc
  rw [filled, hva, hvb, hvc, hpad, quartet_val]
  rcases post with _ | ⟨x, _ | ⟨y, post⟩⟩
  · rw [emit_full]
    refine ⟨.fail, _, rfl, by decide, .refused (.inl rfl) ?_ rfl (by simp)⟩
    simp [hdec]
  · rw [emit_room, second_val, emit_full (pre ++ [_])]
    refine ⟨.fail, _, rfl, by decide, .refused (.inl rfl) ?_ (by simp) (by simp; omega)⟩
    simp [hdec]
  · have htext : pre ++ [firstByte a b, secondByte b c] = pre ++ [firstByte a b] ++ [secondByte b c] := by simp
    rw [emit_room, second_val, emit_room (pre ++ [_]), third_pad, firstByte_eq a hlb, secondByte_eq b hlc, ← htext]
    exact ⟨.stop, _, rfl, by decide, .accepted _ (by decide) hdec (by simp)⟩

/-- Without padding there is no room for three bytes, or they are stored and the loop goes on. -/
theorem quartet_full (ha : isBase64Char a = true) (hb : isBase64Char b = true) (hc : isBase64Char c = true)
    (hd : isBase64Char d = true) :
    (∃ e, (filled a b c d pre post).quartet = some (.fail, e) ∧ Ends (a :: b :: c :: d :: t) pre post .fail e) ∨
    ∃ x y z rest, post = x :: y :: z :: rest ∧ ∃ quad, quad.length = 4 ∧
      (filled a b c d pre post).quartet = some (.next, ⟨quad, 0, pre ++ [firstByte a b, secondByte b c, thirdByte c d] ++ rest,
        (pre ++ [firstByte a b, secondByte b c, thirdByte c d]).length⟩) := by
  obtain ⟨hva, -⟩ := symbolVal_char ha
  obtain ⟨hvb, hlb⟩ := symbolVal_char hb
  obtain ⟨hvc, hlc⟩ := symbolVal_char hc
  obtain ⟨hvd, hld⟩ := symbolVal_char hd
  have hthree : ∀ bytes, decoded (a :: b :: c :: d :: t) = some bytes → 3 ≤ bytes.length := by
    intro bytes hbytes
    rw [decoded_full t ha hb hc hd, Option.map_eq_some_iff] at hbytes
    obtain ⟨more, -, rfl⟩ := hbytes
    simp
  rw [filled, hva, hvb, hvc, hvd, quartet_val]
  -- Room for none of the bytes, for one, for two, and for all three.
  rcases post with _ | ⟨x, _ | ⟨y, _ | ⟨z, post⟩⟩⟩
  · rw [emit_full]
    refine .inl ⟨_, rfl, .refused (.inl rfl) ?_ rfl (by simp)⟩
    exact fun bytes hbytes => Nat.lt_of_lt_of_le (by simp) (hthree bytes hbytes)
  · rw [emit_room, second_val, emit_full (pre ++ [_])]
    refine .inl ⟨_, rfl, .refused (.inl rfl) ?_ (by simp) (by simp; omega)⟩
    exact fun bytes hbytes => Nat.lt_of_lt_of_le (by simp) (hthree bytes hbytes)
  · rw [emit_room, second_val, emit_room (pre ++ [_]), third_val, emit_full (pre ++ [_] ++ [_])]
    refine .inl ⟨_, rfl, .refused (.inl rfl) ?_ (by simp) (by simp; omega)⟩
    exact fun bytes hbytes => Nat.lt_of_lt_of_le (by simp) (hthree bytes hbytes)
  · have htext : pre ++ [firstByte a b, secondByte b c, thirdByte c d] =
        pre ++ [firstByte a b] ++ [secondByte b c] ++ [thirdByte c d] := by simp
    rw [emit_room, second_val, emit_room (pre ++ [_]), third_val, emit_room (pre ++ [_] ++ [_]), firstByte_eq a hlb,
      secondByte_eq b hlc, thirdByte_eq c hld, ← htext]
    exact .inr ⟨x, y, z, post, rfl, _, rfl, rfl⟩

end Decoder

/-! ## The loop -/

/-- Between two characters: `pend` is read but not decoded, `pre` is written, and there
is room for as much as `post`. -/
structure Pending (pend pre post : Str) (d : Decoder) : Prop where
  quad_length : d.quad.length = 4
  few : pend.length < 4
  q : d.q = pend.length
  set : d.quad.take pend.length = pend.map fun c => some (symbolVal c)
  symbols : ∀ c ∈ pend, IsSymbol c
  dst : d.dst = pre ++ post
  out : d.out = pre.length

section
variable {pend pre post : Str} {d : Decoder} {c : UInt8}

theorem turn_white (h : isWhite c = true) : d.turn c = some (.next, d) := by
  simp only [isWhite, Bool.or_eq_true, decide_eq_true_eq, or_assoc] at h
  exact if_pos h

theorem isSymbol_or_bad (h0 : c ≠ 0) (h : isWhite c = false) : IsSymbol c ∨ isBase64Char c = false ∧ c ≠ ch '=' := by
  by_cases hbad : c ≠ ch '=' ∧ b64Val c < 0
  · refine .inr ⟨?_, hbad.1⟩
    by_contra hchar
    have hval := ((b64Val_table c).1 (Bool.not_eq_false _ ▸ hchar)).1
    omega
  · refine .inl ⟨h0, ?_, hbad⟩
    simpa [isWhite, and_assoc] using h

theorem turn_bad (h : isWhite c = false) (hbad : isBase64Char c = false) (hne : c ≠ ch '=') : d.turn c = some (.fail, d) := by
  have hwhite : ¬ (c = ch '\n' ∨ c = ch '\r' ∨ c = ch ' ' ∨ c = ch '\t') := by simpa [isWhite, and_assoc] using h
  unfold Decoder.turn
  rw [if_neg hwhite, if_pos ⟨hne, (b64Val_table c).2 hbad⟩]

/-- A symbol that does not fill the quartet is put into it. -/
theorem Pending.turn_few (h : Pending pend pre post d) (hc : IsSymbol c) (hfew : pend.length < 3) :
    ∃ e, d.turn c = some (.next, e) ∧ Pending (pend ++ [c]) pre post e := by
  have hq : d.q < d.quad.length := by rw [h.q, h.quad_length]; exact h.few
  have hnot : ¬ d.q + 1 = 4 := by rw [h.q]; omega
  rw [Decoder.turn_symbol hc hq]
  refine ⟨_, if_neg hnot, ?_⟩
  constructor
  · simpa using h.quad_length
  · rw [List.length_append, List.length_singleton]
    omega
  · simp [h.q]
  · have hlen : pend.length < d.quad.length := by rw [h.quad_length]; omega
    rw [List.length_append, List.length_singleton, List.map_append, h.q, List.take_succ_eq_append_getElem (by simpa using hlen)]
    simp [List.take_set_of_le, h.set]
  · intro x hx
    rcases List.mem_append.1 hx with hx | hx
    · exact h.symbols x hx
    · rw [List.mem_singleton.1 hx]
      exact hc
  · exact h.dst
  · exact h.out

/-- The fourth symbol fills the quartet. -/
theorem Pending.turn_fourth {a b e : UInt8} (h : Pending [a, b, e] pre post d) (hc : IsSymbol c) :
    d.turn c = (Decoder.filled a b e c pre post).quartet := by
  obtain ⟨quad, q, dst, out⟩ := d
  obtain ⟨hquad, -, rfl, hset, -, rfl, rfl⟩ := h
  rw [Decoder.turn_symbol hc (by simp [hquad])]
  -- What the last entry held before does not matter.
  match quad, hquad with
  | [x0, x1, x2, x3], _ =>
    simp only [List.length_cons, List.length_nil, List.take_succ_cons, List.take_zero, List.map_cons, List.map_nil,
      List.cons.injEq, and_true] at hset
    obtain ⟨rfl, rfl, rfl⟩ := hset
    rfl

end

theorem nonblank_cons {c : UInt8} (h0 : c ≠ 0) (cs : Str) :
    nonblank (c :: cs) = if isWhite c then nonblank cs else c :: nonblank cs := by
  simp only [nonblank, cString, List.takeWhile_cons, h0, ne_eq, not_false_eq_true, decide_true, if_true, List.filter_cons]
  cases isWhite c <;> rfl

/-- The text ends here: it is decoded if nothing is pending. -/
theorem Pending.ends {pend pre post : Str} {d : Decoder} (h : Pending pend pre post d) : Ends pend pre post .stop d := by
  rcases pend with _ | ⟨a, pend⟩
  · obtain ⟨quad, q, dst, out⟩ := d
    obtain ⟨-, -, rfl, -, -, rfl, rfl⟩ := h
    have hnil : Ends [] pre post .stop ⟨quad, 0, pre ++ [] ++ post.drop 0, (pre ++ []).length⟩ :=
      .accepted quad (by decide) rfl (Nat.zero_le _)
    simpa using hnil
  · refine .refused (.inr ?_) ?_ (by rw [h.dst]) (by rw [h.out]; omega)
    · rw [h.q]
      exact Nat.succ_ne_zero _
    · rw [decoded_short (by simp) h.few]
      intro bytes hbytes
      cases hbytes

/-- Three bytes are stored, and the rest is as it is. -/
theorem Ends.group {t pre rest bytes : Str} {a b c d x y z : UInt8} {flow : Flow} {e : Decoder} (hlen : bytes.length = 3)
    (hdec : decoded (a :: b :: c :: d :: t) = (decoded t).map (bytes ++ ·)) (h : Ends t (pre ++ bytes) rest flow e) :
    Ends (a :: b :: c :: d :: t) pre (x :: y :: z :: rest) flow e := by
  cases h with
  | @accepted more quad hflow hbytes hroom =>
    have hacc : Ends (a :: b :: c :: d :: t) pre (x :: y :: z :: rest) flow
        ⟨quad, 0, pre ++ (bytes ++ more) ++ (x :: y :: z :: rest).drop (bytes ++ more).length,
          (pre ++ (bytes ++ more)).length⟩ := by
      refine .accepted quad hflow (by rw [hdec, hbytes]; rfl) ?_
      simp [hlen]
      omega
    have hdrop : (x :: y :: z :: rest).drop (bytes ++ more).length = rest.drop more.length := by
      rw [List.length_append, hlen, Nat.add_comm]
      rfl
    rw [hdrop] at hacc
    simpa using hacc
  | refused hflow hbytes hdst hout =>
    refine .refused hflow ?_ ?_ ?_
    · intro all hall
      rw [hdec, Option.map_eq_some_iff] at hall
      obtain ⟨more, hmore, rfl⟩ := hall
      have hlong := hbytes more hmore
      simp [hlen]
      omega
    · rw [hdst]
      simp [hlen]
      omega
    · simp [hlen] at hout ⊢
      omega

/-- A turn for a symbol ends the run, or what is pending changes and the rest of the run ends as
one from there. -/
theorem Pending.turn_symbol {pend pre post : Str} {d : Decoder} {c : UInt8} (h : Pending pend pre post d) (hc : IsSymbol c)
    (t : Str) :
    ∃ flow e, d.turn c = some (flow, e) ∧
      (flow ≠ .next ∧ Ends (pend ++ c :: t) pre post flow e ∨
      flow = .next ∧ ∃ pend' pre' post', Pending pend' pre' post' e ∧
        ∀ flow' e', Ends (pend' ++ t) pre' post' flow' e' → Ends (pend ++ c :: t) pre post flow' e') := by
  by_cases hfew : pend.length < 3
  · obtain ⟨e, hturn, hpend⟩ := h.turn_few hc hfew
    refine ⟨.next, e, hturn, .inr ⟨rfl, _, _, _, hpend, fun flow' e' hends => ?_⟩⟩
    simpa using hends
  -- The quartet is full now, and its symbols decide what its block does.
  have hthree : pend.length = 3 := by
    have hlt := h.few
    omega
  match pend, hthree, h with
  | [a, b, x], _, h =>
    have ha : IsSymbol a := h.symbols a (by simp)
    rw [h.turn_fourth hc]
    by_cases hpad : a = ch '=' ∨ b = ch '='
    · obtain ⟨hturn, hdec⟩ := Decoder.quartet_pad pre post t (c := x) (d := c) hpad ha
      refine ⟨_, _, hturn, .inl ⟨by decide, .refused (.inl rfl) ?_ rfl (by simp [Decoder.filled])⟩⟩
      intro bytes hbytes
      cases hdec.symm.trans hbytes
    obtain ⟨hane, hbne⟩ := not_or.1 hpad
    have hachar := (symbol_cases ha).resolve_right hane
    have hbchar := (symbol_cases (h.symbols b (by simp))).resolve_right hbne
    rcases symbol_cases (h.symbols x (by simp)) with hxchar | rfl
    swap
    · obtain ⟨flow, e, hturn, hends⟩ := Decoder.quartet_pad2 pre post t hachar hbchar hc
      exact ⟨flow, e, hturn, .inl hends⟩
    rcases symbol_cases hc with hchar | rfl
    swap
    · obtain ⟨flow, e, hturn, hends⟩ := Decoder.quartet_pad1 pre post t hachar hbchar hxchar
      exact ⟨flow, e, hturn, .inl hends⟩
    rcases Decoder.quartet_full pre post t hachar hbchar hxchar hchar with
      ⟨e, hturn, hends⟩ | ⟨y0, y1, y2, rest, rfl, quad, hquad, hturn⟩
    · exact ⟨.fail, e, hturn, .inl ⟨by decide, hends⟩⟩
    · refine ⟨.next, _, hturn, .inr ⟨rfl, [], pre ++ [firstByte a b, secondByte b x, thirdByte x c], rest, ?_, ?_⟩⟩
      · exact ⟨hquad, by decide, rfl, rfl, by simp, rfl, rfl⟩
      · exact fun flow' e' hends => hends.group rfl (decoded_full t hachar hbchar hxchar hchar)

/-- A run from any state between two characters. -/
theorem decodeLoop_ends (cs : Str) {pend pre post : Str} {d : Decoder} (h : Pending pend pre post d) :
    ∃ flow e, decodeLoop cs d = some (flow, e) ∧ Ends (pend ++ nonblank cs) pre post flow e := by
  -- `Pending` carries what the turns so far have left in the memory.
  induction cs generalizing pend pre post d with
  | nil => exact ⟨.stop, d, rfl, by simpa [nonblank, cString] using h.ends⟩
  | cons c cs ih =>
    by_cases h0 : c = 0
    · subst h0
      exact ⟨.stop, d, rfl, by simpa [nonblank, cString] using h.ends⟩
    rw [decodeLoop, if_neg h0, nonblank_cons h0]
    rcases hwhite : isWhite c with _ | _
    · simp only [Bool.false_eq_true, if_false]
      rcases isSymbol_or_bad h0 hwhite with hc | ⟨hbad, hne⟩
      · obtain ⟨flow, e, hturn, ⟨hflow, hends⟩ | ⟨rfl, pend', pre', post', hpend, hrest⟩⟩ := h.turn_symbol hc (nonblank cs)
        · rw [hturn]
          exact ⟨flow, e, if_neg hflow, hends⟩
        · obtain ⟨flow', e', hrun, hends⟩ := ih hpend
          rw [hturn]
          exact ⟨flow', e', hrun, hrest flow' e' hends⟩
      · rw [turn_bad hwhite hbad hne]
        refine ⟨.fail, d, rfl, .refused (.inl rfl) ?_ (by rw [h.dst]) (by rw [h.out]; omega)⟩
        intro bytes hbytes
        cases (decoded_bad _ h.few hbad hne).symm.trans hbytes
    · rw [turn_white hwhite]
      exact ih h

/-! ## The decoder and what a text stands for -/

/-- The decoder returns what the text stands for if the buffer has room for it, and -1 if not. -/
theorem base64Decode_eq (inp dst : Str) :
    (∃ bytes, decoded (nonblank inp) = some bytes ∧ bytes.length ≤ dst.length ∧
      base64Decode inp dst = some ((bytes.length : Int), bytes ++ dst.drop bytes.length)) ∨
    (∀ bytes, decoded (nonblank inp) = some bytes → dst.length < bytes.length) ∧
      ∃ dst', dst'.length = dst.length ∧ base64Decode inp dst = some (-1, dst') := by
  have hstart : Pending [] [] dst ⟨[none, none, none, none], 0, dst, 0⟩ := ⟨rfl, by decide, rfl, rfl, by simp, rfl, rfl⟩
  obtain ⟨flow, e, hrun, hends⟩ := decodeLoop_ends inp hstart
  unfold base64Decode
  rw [hrun]
  cases hends with
  | @accepted bytes quad hflow hbytes hroom =>
    refine .inl ⟨bytes, hbytes, hroom, ?_⟩
    simp [hflow]
  | refused hflow hbytes hdst hout =>
    refine .inr ⟨hbytes, e.dst, hdst, ?_⟩
    simp [hflow]

theorem decoded_length {t bytes : Str} (h : decoded t = some bytes) : 4 * bytes.length ≤ 3 * t.length := by
  fun_induction decoded t generalizing bytes with
  | case1 => cases h; rfl
  | case2 => cases h; simp; omega
  | case3 => cases h
  | case4 => cases h
  | case5 => cases h; simp; omega
  | case6 => cases h
  | case7 a b c d t _ _ _ _ _ ih =>
    rw [Option.map_eq_some_iff] at h
    obtain ⟨more, hmore, rfl⟩ := h
    have hlen := ih hmore
    simp
    omega
  | case8 => cases h
  | case9 => cases h

theorem length_nonblank (inp : Str) : (nonblank inp).length ≤ inp.length :=
  (List.length_filter_le _ _).trans (List.takeWhile_prefix _).length_le

/-- Three bytes for four characters, also where a run fails. So `out` stays below the length of the text,
and neither `out + 1` nor the result overflows. -/
theorem decodeLoop_out {inp dst : Str} {flow : Flow} {d : Decoder}
    (h : decodeLoop inp ⟨[none, none, none, none], 0, dst, 0⟩ = some (flow, d)) : 4 * d.out ≤ 3 * inp.length := by
  have hstart : Pending [] [] dst ⟨[none, none, none, none], 0, dst, 0⟩ := ⟨rfl, by decide, rfl, rfl, by simp, rfl, rfl⟩
  obtain ⟨flow', e, hrun, hends⟩ := decodeLoop_ends inp hstart
  have hlen := length_nonblank inp
  cases h.symm.trans hrun
  cases hends with
  | accepted quad hflow hbytes hroom =>
    have hbound := decoded_length hbytes
    simp at hbound ⊢
    omega
  | refused hflow hbytes hdst hout =>
    simp at hout
    omega

/-- Nothing behind the terminator is read. -/
theorem decodeLoop_terminated (s behind : Str) (d : Decoder) : decodeLoop (s ++ 0 :: behind) d = decodeLoop s d := by
  induction s generalizing d with
  | nil => rfl
  | cons c cs ih => simp only [List.cons_append, decodeLoop, ih]

/-- Two characters of the alphabet and two more, of which at least one is `=`. -/
def Padded (group : Str) : Prop :=
  ∃ a b c d, group = [a, b, c, d] ∧ isBase64Char a = true ∧ isBase64Char b = true ∧
    (isBase64Char c = true ∨ c = ch '=') ∧ (isBase64Char d = true ∨ d = ch '=') ∧ (c = ch '=' ∨ d = ch '=')

/-- Full groups of the alphabet, and nothing else or a padded group and whatever follows it. -/
def Quartets (t : Str) : Prop :=
  ∃ groups last behind, t = groups ++ last ++ behind ∧ groups.length % 4 = 0 ∧ groups.all isBase64Char = true ∧
    (last = [] ∧ behind = [] ∨ Padded last)

theorem quartets_of_decoded {t bytes : Str} (h : decoded t = some bytes) : Quartets t := by
  fun_induction decoded t generalizing bytes with
  | case1 => exact ⟨[], [], [], rfl, rfl, rfl, .inl ⟨rfl, rfl⟩⟩
  | case2 a b d t hab hd =>
    simp only [Bool.and_eq_true, Bool.or_eq_true, decide_eq_true_eq] at hab hd
    exact ⟨[], [a, b, _, d], t, rfl, rfl, rfl, .inr ⟨a, b, _, d, rfl, hab.1, hab.2, .inr rfl, hd, .inl rfl⟩⟩
  | case3 => cases h
  | case4 => cases h
  | case5 a b c t hab hc hchar =>
    simp only [Bool.and_eq_true, Bool.not_eq_true', Bool.not_eq_false] at hab hchar
    exact ⟨[], [a, b, c, _], t, rfl, rfl, rfl, .inr ⟨a, b, c, _, rfl, hab.1, hab.2, .inl hchar, .inr rfl, .inr rfl⟩⟩
  | case6 => cases h
  | case7 a b c d t hab hc hchar hd hdchar ih =>
    rw [Option.map_eq_some_iff] at h
    obtain ⟨more, hmore, -⟩ := h
    obtain ⟨groups, last, behind, rfl, hlen, hall, hlast⟩ := ih hmore
    simp only [Bool.and_eq_true, Bool.not_eq_true', Bool.not_eq_false] at hab hchar hdchar
    refine ⟨a :: b :: c :: d :: groups, last, behind, rfl, ?_, ?_, hlast⟩
    · simp only [List.length_cons]
      omega
    · simp [hab, hchar, hdchar, hall]
  | case8 => cases h
  | case9 => cases h

/-- Whatever the text, up to its terminator, and the buffer: no access of the decoder fails. It returns -1 or
as many bytes as it has written to the buffer, the bytes of the text, and then the text is made of quartets. -/
theorem base64Decode_bounded (inp dst : Str) :
    (∀ behind, base64Decode (inp ++ 0 :: behind) dst = base64Decode inp dst) ∧
    ∃ r dst', base64Decode inp dst = some (r, dst') ∧ dst'.length = dst.length ∧
      (r = -1 ∨ ∃ bytes, decoded (nonblank inp) = some bytes ∧ r = (bytes.length : Int) ∧ bytes.length ≤ dst.length ∧
        dst' = bytes ++ dst.drop bytes.length) ∧
      (0 ≤ r → Quartets (nonblank inp)) := by
  constructor
  · intro behind
    unfold base64Decode
    rw [decodeLoop_terminated]
  · rcases base64Decode_eq inp dst with ⟨bytes, hbytes, hroom, hrun⟩ | ⟨-, dst', hlen, hrun⟩
    · refine ⟨_, _, hrun, ?_, .inr ⟨bytes, hbytes, rfl, hroom, rfl⟩, fun _ => quartets_of_decoded hbytes⟩
      rw [List.length_append, List.length_drop]
      omega
    · exact ⟨-1, dst', hrun, hlen, .inl rfl, fun hneg => absurd hneg (by decide)⟩

end McpBridge.Priv
