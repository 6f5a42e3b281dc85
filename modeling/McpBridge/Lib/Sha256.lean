import Mathlib.Data.List.Basic
import Mathlib.Data.List.GetD
import Mathlib.Algebra.GroupWithZero.Nat
/-!
# SHA-256

The hash of FIPS 180-4 on byte strings, as the standard says it: the message is
padded, cut into blocks of 64 bytes, and these are folded into the hash value by
the compression function. The constants are not listed but computed, as the
leading bits of roots of primes.
-/

namespace McpBridge.Lib.Sha256

abbrev Word := BitVec 32

/-! ## Constants -/

/-- The greatest `r` below `2 ^ m` with `r ^ k ≤ n`, bit by bit from the top. -/
def root (k n : Nat) : Nat → Nat → Nat
  | 0, r => r
  | m + 1, r => root k n m (if (r + 2 ^ m) ^ k ≤ n then r + 2 ^ m else r)

theorem root_spec {k n : Nat} (m : Nat) {r : Nat} (hle : r ^ k ≤ n) (hlt : n < (r + 2 ^ m) ^ k) :
    root k n m r ^ k ≤ n ∧ n < (root k n m r + 1) ^ k := by
  induction m generalizing r with
  | zero => exact ⟨hle, hlt⟩
  | succ m ih =>
    rw [root]
    split
    · next h =>
      refine ih h ?_
      rwa [Nat.add_assoc, ← Nat.two_mul, ← Nat.pow_succ']
    · next h => exact ih hle (Nat.lt_of_not_le h)

/-- The first 32 bits of the fractional part of the `k`-th root of `p`. -/
def rootFraction (k p : Nat) : Word := BitVec.ofNat 32 (root k (p * 2 ^ (32 * k)) 40 0)

/-- The first 64 primes. A composite number up to the last of them has a divisor up to 17. -/
def primes : List Nat := (List.range' 2 310).filter fun p => (List.range' 2 16).all fun d => p = d || p % d ≠ 0

/-- The fractional parts of the cube roots of the primes. -/
def K : List Word := primes.map (rootFraction 3)

/-! ## The compression function -/

/-- The working variables, and the eight words of a hash value. -/
structure Vars (α : Type) where
  a : α
  b : α
  c : α
  d : α
  e : α
  f : α
  g : α
  h : α
deriving DecidableEq

namespace Vars
variable {α β : Type}

def map (φ : α → β) (v : Vars α) : Vars β := ⟨φ v.a, φ v.b, φ v.c, φ v.d, φ v.e, φ v.f, φ v.g, φ v.h⟩

def add [Add α] (v w : Vars α) : Vars α :=
  ⟨v.a + w.a, v.b + w.b, v.c + w.c, v.d + w.d, v.e + w.e, v.f + w.f, v.g + w.g, v.h + w.h⟩

def toList (v : Vars α) : List α := [v.a, v.b, v.c, v.d, v.e, v.f, v.g, v.h]

theorem toList_map (φ : α → β) (v : Vars α) : (v.map φ).toList = v.toList.map φ := rfl

theorem map_add [Add α] [Add β] {φ : α → β} (hφ : ∀ x y, φ (x + y) = φ x + φ y) (v w : Vars α) :
    (v.add w).map φ = (v.map φ).add (w.map φ) := by
  simp only [map, add, hφ]

end Vars

/-- The fractional parts of the square roots of the first eight primes. -/
def H0 : Vars Word :=
  ⟨rootFraction 2 2, rootFraction 2 3, rootFraction 2 5, rootFraction 2 7, rootFraction 2 11, rootFraction 2 13,
    rootFraction 2 17, rootFraction 2 19⟩

def choose (x y z : Word) : Word := (x &&& y) ^^^ (~~~x &&& z)

def majority (x y z : Word) : Word := (x &&& y) ^^^ (x &&& z) ^^^ (y &&& z)

def bigSigma0 (x : Word) : Word := x.rotateRight 2 ^^^ x.rotateRight 13 ^^^ x.rotateRight 22

def bigSigma1 (x : Word) : Word := x.rotateRight 6 ^^^ x.rotateRight 11 ^^^ x.rotateRight 25

def smallSigma0 (x : Word) : Word := x.rotateRight 7 ^^^ x.rotateRight 18 ^^^ x >>> 3

def smallSigma1 (x : Word) : Word := x.rotateRight 17 ^^^ x.rotateRight 19 ^^^ x >>> 10

/-- The `t`-th word of a block. -/
def wordAt (block : List UInt8) (t : Nat) : Word :=
  (block.getD (4 * t) 0).toBitVec ++ (block.getD (4 * t + 1) 0).toBitVec ++
    (block.getD (4 * t + 2) 0).toBitVec ++ (block.getD (4 * t + 3) 0).toBitVec

/-- The message schedule of a block with the words `M`. -/
def schedule (M : Nat → Word) (t : Nat) : Word :=
  if t < 16 then M t
  else smallSigma1 (schedule M (t - 2)) + schedule M (t - 7) + smallSigma0 (schedule M (t - 15)) + schedule M (t - 16)
termination_by t
decreasing_by all_goals omega

theorem schedule_lt {M : Nat → Word} {t : Nat} (h : t < 16) : schedule M t = M t := by
  rw [schedule, if_pos h]

theorem schedule_ge {M : Nat → Word} {t : Nat} (h : ¬ t < 16) :
    schedule M t =
      smallSigma1 (schedule M (t - 2)) + schedule M (t - 7) + smallSigma0 (schedule M (t - 15)) + schedule M (t - 16) := by
  rw [schedule, if_neg h]

/-- Only the words of the block matter. -/
theorem schedule_congr {M M' : Nat → Word} (h : ∀ t < 16, M t = M' t) (t : Nat) : schedule M t = schedule M' t := by
  induction t using schedule.induct with
  | case1 t ht =>
    rw [schedule_lt ht, schedule_lt ht]
    exact h t ht
  | case2 t ht ih2 ih7 ih15 ih16 =>
    rw [schedule_ge ht, schedule_ge ht, ih2, ih7, ih15, ih16]

/-- One round, with the round's constant and word of the schedule. -/
def round (k w : Word) (v : Vars Word) : Vars Word :=
  let t1 := v.h + bigSigma1 v.e + choose v.e v.f v.g + k + w
  let t2 := bigSigma0 v.a + majority v.a v.b v.c
  ⟨t1 + t2, v.a, v.b, v.c, v.d + t1, v.e, v.f, v.g⟩

def compress (H : Vars Word) (block : List UInt8) : Vars Word :=
  H.add ((List.range 64).foldl (fun v t => round (K.getD t 0) (schedule (wordAt block) t) v) H)

/-- The function reads one block, whatever stands behind it. -/
theorem compress_append {b : List UInt8} (hb : b.length = 64) (H : Vars Word) (s : List UInt8) :
    compress H (b ++ s) = compress H b := by
  have hword : ∀ t < 16, wordAt (b ++ s) t = wordAt b t := by
    intro t ht
    have hget : ∀ i < 64, (b ++ s).getD i 0 = b.getD i 0 := fun i hi => List.getD_append b s 0 i (by omega)
    unfold wordAt
    rw [hget _ (by omega), hget _ (by omega), hget _ (by omega), hget _ (by omega)]
  unfold compress
  simp only [schedule_congr hword]

/-! ## The hash -/

/-- The bytes of a word, the highest first. -/
def bytes {w : Nat} (n : Nat) (x : BitVec w) : List UInt8 :=
  (List.range n).map fun i => UInt8.ofBitVec (x.extractLsb' (8 * (n - 1 - i)) 8)

/-- The message, a one bit, zeros, and the length of the message in bits. -/
def pad (m : List UInt8) : List UInt8 :=
  m ++ 0x80 :: (List.replicate ((119 - m.length % 64) % 64) 0 ++ bytes 8 (BitVec.ofNat 64 (8 * m.length)))

def blocks (s : List UInt8) : List (List UInt8) := (List.range (s.length / 64)).map fun i => (s.drop (64 * i)).take 64

def digest (m : List UInt8) : List UInt8 := ((blocks (pad m)).foldl compress H0).toList.flatMap (bytes 4)

theorem length_bytes {w : Nat} (n : Nat) (x : BitVec w) : (bytes n x).length = n := by simp [bytes]

theorem blocks_append {b : List UInt8} (hb : b.length = 64) (s : List UInt8) : blocks (b ++ s) = b :: blocks s := by
  have hlen : (b ++ s).length / 64 = s.length / 64 + 1 := by
    rw [List.length_append, hb]
    omega
  have hdrop : ∀ i, (b ++ s).drop (64 * (i + 1)) = s.drop (64 * i) := by
    intro i
    have hi : 64 * (i + 1) = b.length + 64 * i := by omega
    rw [hi, List.drop_append]
    simp
  unfold blocks
  rw [hlen, List.range_succ_eq_map, List.map_cons, List.map_map]
  refine congrArg₂ List.cons ?_ (List.map_congr_left ?_)
  · rw [Nat.mul_zero, List.drop_zero, ← hb, List.take_left]
  · intro i _
    rw [Function.comp_apply, Nat.succ_eq_add_one, hdrop]

theorem length_digest (m : List UInt8) : (digest m).length = 32 := by
  simp [digest, Vars.toList, length_bytes]

end McpBridge.Lib.Sha256
