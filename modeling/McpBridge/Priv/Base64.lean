import Mathlib.Data.List.GetD
import McpBridge.Priv.Decoding
import McpBridge.Users.RuntimeSync
/-!
# Base64 between the daemon and the helper (`priv/main.c`)

The daemon encodes what the helper is to write, in two places with the same
code; the helper decodes it into a buffer. What is encoded stands for itself, so
the decoder returns it if it fits.
-/

open McpBridge.Lib

/-! ## The encoder of the cron backend (`tools/scheduling/cron_backend_linux.cpp`) -/

namespace McpBridge.Cron

def tbl : Str := lit "ABCDEFGHIJKLMNOPQRSTUVWXYZabcdefghijklmnopqrstuvwxyz0123456789+/"

/-- `tbl[(v >> n) & 0x3f]` -/
def tblAt (v n : UInt32) : UInt8 := tbl.getD ((v >>> n) &&& 0x3f).toNat 0

/-- The loop of `base64Encode`; `i` is the index and `out` the text so far. -/
def base64Loop (inp : Str) (i : Nat) (out : Str) : Nat × Str :=
  if i + 3 ≤ inp.length then
    let v := ((inp.getD i 0).toUInt32 <<< 16) ||| ((inp.getD (i + 1) 0).toUInt32 <<< 8) ||| (inp.getD (i + 2) 0).toUInt32
    base64Loop inp (i + 3) (out ++ [tblAt v 18, tblAt v 12, tblAt v 6, tblAt v 0])
  else (i, out)
termination_by inp.length - i

/-- The last group, if it is not full. -/
def base64Finish (inp : Str) (i : Nat) (out : Str) : Str :=
  if i < inp.length then
    let v := (inp.getD i 0).toUInt32 <<< 16
    let v := if i + 1 < inp.length then v ||| ((inp.getD (i + 1) 0).toUInt32 <<< 8) else v
    out ++ [tblAt v 18, tblAt v 12, if i + 1 < inp.length then tblAt v 6 else ch '=', ch '=']
  else out

def base64Encode (inp : Str) : Str :=
  let (i, out) := base64Loop inp 0 []
  base64Finish inp i out

end McpBridge.Cron

namespace McpBridge.Priv

/-! ## The round trip -/

open Users (base64Encode)
open Users.base64Encode (pick)

theorem pick_table {i : Nat} (h : i < 64) : sextet (pick i) = i ∧ isBase64Char (pick i) = true := by
  have hall : ((List.range 64).all fun i => decide (sextet (pick i) = i) && isBase64Char (pick i)) = true := by decide
  simpa using List.all_eq_true.1 hall i (List.mem_range.2 h)

theorem pick_mod (i : Nat) : pick i = pick (i % 64) := by
  unfold pick
  rw [Nat.mod_mod]

theorem sextet_pick (i : Nat) : sextet (pick i) = i % 64 := by
  rw [pick_mod]
  exact (pick_table (Nat.mod_lt i (by decide))).1

theorem isBase64Char_pick (i : Nat) : isBase64Char (pick i) = true := by
  rw [pick_mod]
  exact (pick_table (Nat.mod_lt i (by decide))).2

theorem toUInt8_of_toNat {n : Nat} {b : UInt8} (h : n = b.toNat) : n.toUInt8 = b := by
  rw [h]
  exact UInt8.ofNat_toNat

section
variable (a b c : UInt8)

theorem firstByte_pick {v : Nat} (hv : v / 0x10000 = a.toNat) : firstByte (pick (v / 0x40000)) (pick (v / 0x1000)) = a := by
  apply toUInt8_of_toNat
  have ha := a.toNat_lt
  rw [sextet_pick, sextet_pick]
  omega

theorem secondByte_pick {v : Nat} (hv : v / 0x100 % 0x100 = b.toNat) : secondByte (pick (v / 0x1000)) (pick (v / 0x40)) = b := by
  apply toUInt8_of_toNat
  rw [sextet_pick, sextet_pick]
  omega

theorem thirdByte_pick {v : Nat} (hv : v % 0x100 = c.toNat) : thirdByte (pick (v / 0x40)) (pick v) = c := by
  apply toUInt8_of_toNat
  rw [sextet_pick, sextet_pick]
  omega

end

/-- What was encoded stands for itself. -/
theorem decoded_encode (x : Str) : decoded (base64Encode x) = some x := by
  have hpad : IsSymbol (ch '=') := by decide
  induction x using Users.base64Encode.induct with
  | case1 => rfl
  | case2 a =>
    rw [base64Encode]
    generalize hv : a.toNat * 0x10000 = v
    rw [decoded_pad2 _ (isBase64Char_pick _) (isBase64Char_pick _) hpad, firstByte_pick a (by omega)]
  | case3 a b =>
    have hb := b.toNat_lt
    rw [base64Encode]
    generalize hv : a.toNat * 0x10000 + b.toNat * 0x100 = v
    rw [decoded_pad1 _ (isBase64Char_pick _) (isBase64Char_pick _) (isBase64Char_pick _), firstByte_pick a (by omega),
      secondByte_pick b (by omega)]
  | case4 a b c rest ih =>
    have hb := b.toNat_lt
    have hc := c.toNat_lt
    rw [base64Encode]
    generalize hv : a.toNat * 0x10000 + b.toNat * 0x100 + c.toNat = v
    rw [decoded_full _ (isBase64Char_pick _) (isBase64Char_pick _) (isBase64Char_pick _) (isBase64Char_pick _), ih,
      firstByte_pick a (by omega), secondByte_pick b (by omega), thirdByte_pick c (by omega)]
    rfl

/-! ## The encoders -/

theorem toNat_group (a b c : UInt8) :
    ((a.toUInt32 <<< 16) ||| (b.toUInt32 <<< 8) ||| c.toUInt32).toNat = a.toNat * 0x10000 + b.toNat * 0x100 + c.toNat := by
  have hb := b.toNat_lt
  have hc := c.toNat_lt
  have hhigh : a.toNat <<< 16 ||| b.toNat <<< 8 = (a.toNat * 0x100 + b.toNat) <<< 8 := by
    rw [shiftLeft_or _ (by rw [Nat.shiftLeft_eq]; omega), Nat.shiftLeft_eq, Nat.shiftLeft_eq]
    omega
  rw [UInt32.toNat_or, UInt32.toNat_or, toNat_shiftLeft_byte a (n := 16) (by decide), toNat_shiftLeft_byte b (n := 8) (by decide),
    UInt8.toNat_toUInt32]
  calc a.toNat <<< 16 ||| b.toNat <<< 8 ||| c.toNat = (a.toNat * 0x100 + b.toNat) <<< 8 ||| c.toNat := by rw [hhigh]
    _ = (a.toNat * 0x100 + b.toNat) * 2 ^ 8 + c.toNat := shiftLeft_or _ hc
    _ = _ := by omega

theorem tblAt_eq (v : UInt32) {n : UInt32} (hn : n.toNat < 32) : Cron.tblAt v n = pick (v.toNat / 2 ^ n.toNat) := by
  have hindex : ((v >>> n) &&& 0x3f).toNat = v.toNat / 2 ^ n.toNat % 64 := by
    rw [UInt32.toNat_and, UInt32.toNat_shiftRight, Nat.mod_eq_of_lt hn, Nat.shiftRight_eq_div_pow]
    exact Nat.and_two_pow_sub_one_eq_mod _ 6
  unfold Cron.tblAt
  rw [hindex]
  rfl

/-- From any group on, the loop and the last group encode what is left. -/
theorem base64Loop_eq (s pre out : Str) :
    Cron.base64Finish (pre ++ s) (Cron.base64Loop (pre ++ s) pre.length out).1 (Cron.base64Loop (pre ++ s) pre.length out).2 =
      out ++ base64Encode s := by
  have hget : ∀ (pre s : Str) (k : Nat), (pre ++ s).getD (pre.length + k) 0 = s.getD k 0 := by
    intro pre s k
    rw [List.getD_append_right _ _ _ _ (Nat.le_add_right _ _), Nat.add_sub_cancel_left]
  have h0 : ∀ pre s : Str, (pre ++ s).getD pre.length 0 = s.getD 0 0 := fun pre s => hget pre s 0
  induction s using Users.base64Encode.induct generalizing pre out with
  | case1 =>
    rw [Cron.base64Loop, if_neg (by simp)]
    dsimp only
    rw [Cron.base64Finish, if_neg (by simp), base64Encode, List.append_nil]
  | case2 a =>
    have hv : (a.toUInt32 <<< 16).toNat = a.toNat * 0x10000 := by
      have hgroup := toNat_group a 0 0
      simpa using hgroup
    rw [Cron.base64Loop, if_neg (by simp)]
    dsimp only
    rw [Cron.base64Finish, if_pos (by simp)]
    dsimp only
    rw [if_neg (by simp), if_neg (by simp), h0, List.getD_cons_zero, tblAt_eq _ (by decide), tblAt_eq _ (by decide), hv]
    rfl
  | case3 a b =>
    have hv : ((a.toUInt32 <<< 16) ||| (b.toUInt32 <<< 8)).toNat = a.toNat * 0x10000 + b.toNat * 0x100 := by
      have hgroup := toNat_group a b 0
      simpa using hgroup
    rw [Cron.base64Loop, if_neg (by simp)]
    dsimp only
    rw [Cron.base64Finish, if_pos (by simp)]
    dsimp only
    rw [if_pos (by simp), if_pos (by simp), h0, hget, List.getD_cons_zero, List.getD_cons_succ, List.getD_cons_zero,
      tblAt_eq _ (by decide), tblAt_eq _ (by decide), tblAt_eq _ (by decide), hv]
    rfl
  | case4 a b c rest ih =>
    have hnext : pre ++ a :: b :: c :: rest = (pre ++ [a, b, c]) ++ rest := by simp
    have hlen : pre.length + 3 = (pre ++ [a, b, c]).length := by simp
    rw [Cron.base64Loop, if_pos (by simp), h0, hget, hget, List.getD_cons_zero, List.getD_cons_succ, List.getD_cons_zero,
      List.getD_cons_succ, List.getD_cons_succ, List.getD_cons_zero, hlen, hnext, ih, tblAt_eq _ (by decide),
      tblAt_eq _ (by decide), tblAt_eq _ (by decide), tblAt_eq _ (by decide), toNat_group, base64Encode]
    simp

theorem cronEncode_eq (x : Str) : Cron.base64Encode x = base64Encode x := base64Loop_eq x [] []

/-- The text is of the alphabet, but for one or two `=` at the end. -/
theorem encode_alphabet (x : Str) :
    ∃ body padding, base64Encode x = body ++ padding ∧ body.all isBase64Char = true ∧ padding ∈ [[], lit "=", lit "=="] := by
  induction x using Users.base64Encode.induct with
  | case1 => exact ⟨[], [], rfl, rfl, by decide⟩
  | case2 a => exact ⟨[_, _], lit "==", rfl, by simp [isBase64Char_pick], by decide⟩
  | case3 a b => exact ⟨[_, _, _], lit "=", rfl, by simp [isBase64Char_pick], by decide⟩
  | case4 a b c rest ih =>
    obtain ⟨body, padding, htext, hbody, hpad⟩ := ih
    rw [base64Encode, htext]
    exact ⟨_ :: _ :: _ :: _ :: body, padding, rfl, by simp only [List.all_cons, isBase64Char_pick, hbody, Bool.and_self], hpad⟩

theorem encode_not_mem (x : Str) {c : UInt8} (hc : isBase64Char c = false) (heq : c ≠ ch '=') : c ∉ base64Encode x := by
  obtain ⟨body, padding, htext, hbody, hpad⟩ := encode_alphabet x
  have hp : ∀ p ∈ [[], lit "=", lit "=="], ∀ d ∈ p, d = ch '=' := by simp [lit]
  rw [htext, List.mem_append, not_or]
  exact ⟨not_mem_of_all hbody hc, fun hm => heq (hp padding hpad c hm)⟩

theorem nonblank_encode (x : Str) : nonblank (base64Encode x) = base64Encode x := by
  unfold nonblank
  rw [Lib.Shell.cString_self (encode_not_mem x (by decide) (by decide)), List.filter_eq_self]
  intro c hc
  by_contra hwhite
  have hnot : isBase64Char c = false ∧ c ≠ ch '=' := by
    simp only [isWhite, Bool.not_eq_true', Bool.not_eq_false, Bool.or_eq_true, decide_eq_true_eq] at hwhite
    rcases hwhite with ((rfl | rfl) | rfl) | rfl <;> decide
  exact encode_not_mem x hnot.1 hnot.2 hc

/-- What the daemon encodes, in both places, the helper decodes, unless it is
more than fits its buffer. The text holds no quote and no terminator. -/
theorem helper_decodes (x : Str) :
    Cron.base64Encode x = base64Encode x ∧
    (∃ body padding, base64Encode x = body ++ padding ∧ body.all isBase64Char = true ∧ padding ∈ [[], lit "=", lit "=="]) ∧
    ch '\'' ∉ base64Encode x ∧ 0 ∉ base64Encode x ∧
    ∀ dst : Str, dst.length = 4096 →
      (x.length ≤ 4096 → base64Decode (base64Encode x) dst = some ((x.length : Int), x ++ dst.drop x.length)) ∧
      (4096 < x.length → ∃ dst', base64Decode (base64Encode x) dst = some (-1, dst')) := by
  refine ⟨cronEncode_eq x, encode_alphabet x, encode_not_mem x (by decide) (by decide), encode_not_mem x (by decide) (by decide),
    fun dst hdst => ?_⟩
  have hruns := base64Decode_eq (base64Encode x) dst
  rw [nonblank_encode, decoded_encode, hdst] at hruns
  rcases hruns with ⟨bytes, hbytes, hroom, hrun⟩ | ⟨hlong, dst', -, hrun⟩
  · cases hbytes
    exact ⟨fun _ => hrun, fun hx => absurd hx (Nat.not_lt.2 hroom)⟩
  · exact ⟨fun hx => absurd (hlong x rfl) (Nat.not_lt.2 hx), fun _ => ⟨dst', hrun⟩⟩

end McpBridge.Priv
