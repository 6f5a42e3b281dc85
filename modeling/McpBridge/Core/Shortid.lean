import McpBridge.Core.Common
import McpBridge.Grants.Template
import McpBridge.Lib.Radix
import McpBridge.Lib.ShellLine
import Mathlib.Data.FinEnum
/-!
# Short ids (`core/shortid.cpp`)

The five bytes of a short id are the digits of a number in base 256, and its eight
characters are the digits of the same number in base 32. So distinct bytes give
distinct ids, and every id that is accepted is one that can be drawn. The daemon, the
helper and the Windows service each have a check of their own; an id passes all of them.
-/

open McpBridge.Lib McpBridge.Lib.Radix
open McpBridge.Grants (isShortidChar)
open scoped ENNReal

/-! ## The checks -/

namespace McpBridge.Core.Shortid

/-- The loop over the characters. -/
def charLoop : Str → Bool
  | [] => true
  | c :: cs => if !isShortidChar c then false else charLoop cs

def validShortid (s : Str) : Bool := if s.length ≠ 8 then false else charLoop s

end McpBridge.Core.Shortid

namespace McpBridge.Priv.Shortid

/-- `valid_shortid` of `priv/main.c`, on a C string or on no string. -/
def validShortid : Option Str → Bool
  | none => false
  | some s => if (Shell.cString s).length ≠ 8 then false else (List.range 8).all fun i => isShortidChar (s.getD i 0)

end McpBridge.Priv.Shortid

namespace McpBridge.PrivWin.Shortid

/-- `valid_shortid` of `priv_win/operations.cpp`. -/
def validShortid (s : Str) : Bool := if s.length ≠ 8 then false else Core.Shortid.charLoop s

end McpBridge.PrivWin.Shortid

namespace McpBridge.Core.Shortid

theorem charLoop_eq (s : Str) : charLoop s = s.all isShortidChar := by
  induction s with
  | nil => rfl
  | cons c cs ih =>
    rw [charLoop, ih, List.all_cons]
    cases isShortidChar c <;> rfl

/-- The daemon's check, as the grants use it. -/
theorem validShortid_eq (s : Str) : validShortid s = Grants.validShortid s := by
  unfold validShortid Grants.validShortid
  rw [charLoop_eq]
  by_cases h : s.length = 8 <;> simp [h]

theorem service_eq (s : Str) : PrivWin.Shortid.validShortid s = Grants.validShortid s := validShortid_eq s

/-- The helper checks the string up to its terminator. -/
theorem helper_eq {s : Str} (h : 0 ∉ s) : Priv.Shortid.validShortid (some s) = Grants.validShortid s := by
  unfold Priv.Shortid.validShortid Grants.validShortid
  dsimp only
  rw [Shell.cString_self h]
  by_cases hlen : s.length = 8
  · have hs : s = (List.range 8).map (s.getD · 0) := by
      refine List.ext_getElem (by simpa using hlen) ?_
      intro i hi _
      simp [hi]
    simp only [hlen, ne_eq, not_true_eq_false, if_false, decide_true, Bool.true_and]
    conv_rhs => rw [hs, List.all_map]
    rfl
  · simp [hlen]

/-! ## The characters -/

def letter (d : ℕ) : UInt8 := (lit "abcdefghijklmnopqrstuvwxyz234567").getD d 0

theorem letter_table {d : ℕ} (h : d < 32) :
    isShortidChar (letter d) = true ∧ (letter d).toNat = if d < 26 then 97 + d else 24 + d := by
  have hall : ((List.range 32).all fun d =>
      isShortidChar (letter d) && decide ((letter d).toNat = if d < 26 then 97 + d else 24 + d)) = true := by decide
  simpa using List.all_eq_true.1 hall d (List.mem_range.2 h)

theorem letter_injective {d e : ℕ} (hd : d < 32) (he : e < 32) (h : letter d = letter e) : d = e := by
  have hcode := congrArg UInt8.toNat h
  rw [(letter_table hd).2, (letter_table he).2] at hcode
  split at hcode <;> split at hcode <;> omega

theorem exists_letter {c : UInt8} (h : isShortidChar c = true) : ∃ d < 32, letter d = c := by
  have ha : (ch 'a').toNat = 97 := rfl
  have hz : (ch 'z').toNat = 122 := rfl
  have h2 : (ch '2').toNat = 50 := rfl
  have h7 : (ch '7').toNat = 55 := rfl
  simp only [isShortidChar, isLower, Bool.or_eq_true, Bool.and_eq_true, decide_eq_true_eq, UInt8.le_iff_toNat_le] at h
  rcases h with h | h
  · refine ⟨c.toNat - 97, by omega, UInt8.toNat_inj.1 ?_⟩
    rw [(letter_table (by omega)).2, if_pos (by omega)]
    omega
  · refine ⟨c.toNat - 24, by omega, UInt8.toNat_inj.1 ?_⟩
    rw [(letter_table (by omega)).2, if_neg (by omega)]
    omega

/-! ## The digits -/

/-- The low bits of one byte over the high bits of the next. -/
theorem toNat_straddle (a b : UInt8) {mask up down : UInt8} {k : ℕ} (hk : k ≤ 4) (hmask : mask.toNat = 2 ^ k - 1)
    (hup : up.toNat = 5 - k) (hdown : down.toNat = 3 + k) :
    (((a &&& mask) <<< up) ||| (b >>> down)).toNat = a.toNat % 2 ^ k * 2 ^ (5 - k) + b.toNat / 2 ^ (3 + k) := by
  have hb : b.toNat / 2 ^ (3 + k) < 2 ^ (5 - k) := by
    rw [Nat.div_lt_iff_lt_mul (Nat.two_pow_pos _), ← Nat.pow_add]
    have hsum : 5 - k + (3 + k) = 8 := by omega
    rw [hsum]
    exact b.toNat_lt
  have ha : a.toNat % 2 ^ k * 2 ^ (5 - k) < 2 ^ 8 := by
    have hsum : k + (5 - k) = 5 := by omega
    calc a.toNat % 2 ^ k * 2 ^ (5 - k) < 2 ^ k * 2 ^ (5 - k) :=
          Nat.mul_lt_mul_of_pos_right (Nat.mod_lt _ (Nat.two_pow_pos _)) (Nat.two_pow_pos _)
      _ = 2 ^ 5 := by rw [← Nat.pow_add, hsum]
      _ < 2 ^ 8 := by decide
  rw [UInt8.toNat_or, UInt8.toNat_shiftLeft, UInt8.toNat_shiftRight, UInt8.toNat_and, hmask, Nat.and_two_pow_sub_one_eq_mod,
    hup, hdown, Nat.mod_eq_of_lt (by omega : 5 - k < 8), Nat.mod_eq_of_lt (by omega : 3 + k < 8), Nat.shiftLeft_eq,
    Nat.mod_eq_of_lt ha, Nat.shiftRight_eq_div_pow, ← Nat.shiftLeft_eq, shiftLeft_or _ hb, Nat.shiftLeft_eq]

theorem toNat_middle (a : UInt8) {down : UInt8} {k : ℕ} (hk : k < 8) (hdown : down.toNat = k) :
    ((a >>> down) &&& 0x1f).toNat = a.toNat / 2 ^ k % 32 := by
  rw [UInt8.toNat_and, UInt8.toNat_shiftRight, hdown, Nat.mod_eq_of_lt hk, Nat.shiftRight_eq_div_pow]
  exact Nat.and_two_pow_sub_one_eq_mod _ 5

/-- Five bytes as the digits of a number. -/
def digits256 (raw : Vector UInt8 5) : Fin 5 → Fin 256 := fun i => ⟨raw[i].toNat, raw[i].toNat_lt⟩

theorem same_count : 256 ^ 5 = 32 ^ 8 := by norm_num

/-- The characters are the digits in base 32. -/
theorem makeShortid_eq (raw : Vector UInt8 5) :
    makeShortid raw = List.ofFn fun k : Fin 8 => letter (regroup same_count (digits256 raw) k) := by
  have h1 := raw[1].toNat_lt
  have h2 := raw[2].toNat_lt
  have h3 := raw[3].toNat_lt
  have h4 := raw[4].toNat_lt
  have h0 := raw[0].toNat_lt
  have hword : ∑ i : Fin 5, (digits256 raw i.rev : ℕ) * 256 ^ (i : ℕ) = raw[4].toNat + raw[3].toNat * 256 +
      raw[2].toNat * 65536 + raw[1].toNat * 16777216 + raw[0].toNat * 4294967296 := by
    rw [Fin.sum_univ_five]
    simp [digits256, Fin.rev]
  have htop : (raw[0] >>> 3).toNat = raw[0].toNat / 8 := by
    rw [UInt8.toNat_shiftRight]
    exact Nat.shiftRight_eq_div_pow _ 3
  have hlast : (raw[4] &&& 0x1f).toNat = raw[4].toNat % 32 := by
    rw [UInt8.toNat_and]
    exact Nat.and_two_pow_sub_one_eq_mod _ 5
  have hlist : ∀ f : Fin 8 → UInt8, List.ofFn f = [f 0, f 1, f 2, f 3, f 4, f 5, f 6, f 7] := fun f => rfl
  rw [hlist]
  simp only [regroup_val, hword]
  unfold makeShortid
  dsimp only
  rw [htop, hlast, toNat_straddle raw[0] raw[1] (k := 3) (by decide) rfl rfl rfl, toNat_middle raw[1] (k := 1) (by decide) rfl,
    toNat_straddle raw[1] raw[2] (k := 1) (by decide) rfl rfl rfl, toNat_straddle raw[2] raw[3] (k := 4) (by decide) rfl rfl rfl,
    toNat_middle raw[3] (k := 2) (by decide) rfl, toNat_straddle raw[3] raw[4] (k := 2) (by decide) rfl rfl rfl]
  -- On the left the bits of each character, on the right a digit of the number.
  simp only [List.cons.injEq, and_true]
  refine ⟨congrArg letter ?_, congrArg letter ?_, congrArg letter ?_, congrArg letter ?_, congrArg letter ?_, congrArg letter ?_,
    congrArg letter ?_, congrArg letter ?_⟩
  all_goals
    simp only [Fin.rev, Fin.isValue, Nat.reducePow]
    norm_num
    omega

/-! ## Nothing is lost -/

theorem digits256_ofFn (f : Fin 5 → Fin 256) : digits256 (Vector.ofFn fun i => UInt8.ofFin (f i)) = f := by
  funext i
  apply Fin.ext
  simp [digits256]

theorem digits256_injective : Function.Injective digits256 := by
  intro raw raw' h
  apply Vector.ext
  intro i hi
  have hdigit := congrArg Fin.val (congrFun h ⟨i, hi⟩)
  exact UInt8.toNat_inj.1 hdigit

theorem makeShortid_injective : Function.Injective makeShortid := by
  intro raw raw' h
  rw [makeShortid_eq, makeShortid_eq] at h
  apply digits256_injective
  apply (regroup same_count).injective
  funext k
  have hletter := congrFun (List.ofFn_injective h) k
  exact Fin.ext (letter_injective (Fin.is_lt _) (Fin.is_lt _) hletter)

theorem validShortid_makeShortid (raw : Vector UInt8 5) : Grants.validShortid (makeShortid raw) = true := by
  rw [makeShortid_eq, Grants.validShortid, List.length_ofFn, List.all_eq_true.2]
  · rfl
  · intro c hc
    obtain ⟨k, rfl⟩ := (List.mem_ofFn' _ c).1 hc
    exact (letter_table (Fin.is_lt _)).1

theorem exists_makeShortid {s : Str} (h : Grants.validShortid s = true) : ∃ raw, makeShortid raw = s := by
  simp only [Grants.validShortid, Bool.and_eq_true, decide_eq_true_eq, List.all_eq_true] at h
  obtain ⟨hlen, hall⟩ := h
  have hex : ∀ k : Fin 8, ∃ d : Fin 32, letter d = s[k] := by
    intro k
    obtain ⟨d, hd, hletter⟩ := exists_letter (hall s[k] (List.getElem_mem _))
    exact ⟨⟨d, hd⟩, hletter⟩
  choose d hd using hex
  -- Its digits in base 32, read in base 256.
  refine ⟨Vector.ofFn fun i => UInt8.ofFin ((regroup same_count).symm d i), ?_⟩
  rw [makeShortid_eq, digits256_ofFn, Equiv.apply_symm_apply]
  refine List.ext_getElem (by rw [List.length_ofFn, hlen]) ?_
  intro i hi _
  rw [List.getElem_ofFn]
  exact hd ⟨i, by simpa using hi⟩

theorem notMem_makeShortid (raw : Vector UInt8 5) {c : UInt8} (hc : isShortidChar c = false) : c ∉ makeShortid raw := by
  have hvalid := validShortid_makeShortid raw
  simp only [Grants.validShortid, Bool.and_eq_true] at hvalid
  exact not_mem_of_all hvalid.2 hc

/-- The id of five bytes that are drawn one by one. -/
def drawn (raw : Fin 5 → UInt8) : Str := makeShortid (Vector.ofFn raw)

theorem drawn_injective : Function.Injective drawn := by
  intro raw raw' h
  funext i
  have hget := congrArg (·[i]) (makeShortid_injective h)
  simpa using hget

theorem mem_range_drawn (s : Str) : s ∈ Set.range drawn ↔ validShortid s = true := by
  rw [Set.mem_range, validShortid_eq]
  constructor
  · rintro ⟨raw, rfl⟩
    exact validShortid_makeShortid _
  · intro h
    obtain ⟨raw, rfl⟩ := exists_makeShortid h
    refine ⟨fun i => raw[i], congrArg makeShortid ?_⟩
    apply Vector.ext
    intro i hi
    simp

theorem card_bytes : Fintype.card (Fin 5 → UInt8) = 2 ^ 40 := by
  have hbyte : Fintype.card UInt8 = 256 := FinEnum.card_eq_fintypeCard.symm
  rw [Fintype.card_fun, Fintype.card_fin, hbyte]
  norm_num

/-- Five bytes and the ids that are accepted correspond to each other one to one. There are 2^40 of them, bytes drawn
uniformly give each with the same probability, and the helper and the service accept them as well. -/
theorem makeShortid_bijOn :
    Set.BijOn makeShortid Set.univ {s | validShortid s = true} ∧
    {s | validShortid s = true}.ncard = 2 ^ 40 ∧
    (∀ s, (PMF.uniformOfFintype (Fin 5 → UInt8)).map drawn s = if validShortid s then (2 ^ 40 : ℝ≥0∞)⁻¹ else 0) ∧
    ∀ raw, Priv.Shortid.validShortid (some (makeShortid raw)) = true ∧ PrivWin.Shortid.validShortid (makeShortid raw) = true := by
  refine ⟨⟨?_, makeShortid_injective.injOn, ?_⟩, ?_, ?_, ?_⟩
  · intro raw _
    exact (validShortid_eq _).trans (validShortid_makeShortid raw)
  · intro s hs
    obtain ⟨raw, hraw⟩ := exists_makeShortid ((validShortid_eq s).symm.trans hs)
    exact ⟨raw, Set.mem_univ _, hraw⟩
  · have hrange : {s | validShortid s = true} = Set.range drawn := Set.ext fun s => (mem_range_drawn s).symm
    rw [hrange, ← Set.image_univ, Set.ncard_image_of_injective _ drawn_injective, Set.ncard_univ, Nat.card_eq_fintype_card,
      card_bytes]
  · intro s
    by_cases h : validShortid s = true
    · obtain ⟨raw, rfl⟩ := (mem_range_drawn s).2 h
      rw [if_pos h, map_uniform_apply drawn_injective, card_bytes]
      norm_num
    · rw [if_neg h]
      exact map_uniform_of_notMem fun hs => h ((mem_range_drawn s).1 hs)
  · intro raw
    have hvalid := validShortid_makeShortid raw
    exact ⟨(helper_eq (notMem_makeShortid raw (by decide))).trans hvalid, (service_eq _).trans hvalid⟩

end McpBridge.Core.Shortid
